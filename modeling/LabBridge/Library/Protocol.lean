import LabBridge.Library.Program

/-!
# Protocols that programs follow

A protocol says to which stages the answer of an operation may lead, and with which results
and errors a program may end in a stage. A program follows a protocol when, whatever is
answered, some permitted stage lets the rest of it follow the protocol. The rules below
follow the structure of programs; `Follows.run_ok` turns a protocol into a property of runs.
-/

namespace Interaction.Program

variable {E : Type → Type} {ε α β G S : Type}

/-- The stages an answer may lead to, and the errors that may end a program. -/
structure Protocol (E : Type → Type) (ε G : Type) where
  after : G → ∀ {γ : Type}, E γ → γ → G → Prop
  stops : G → ε → Prop

/-- From a stage on, a program keeps to a protocol and ends as `ends` permits. -/
def Follows (P : Protocol E ε G) (ends : G → α → Prop) : Program E ε α → G → Prop
  | ret value, stage => ends stage value
  | stop error, stage => P.stops stage error
  | call operation next, stage =>
    ∀ answer, ∃ reached, P.after stage operation answer reached ∧
      (next answer).Follows P ends reached

variable {P : Protocol E ε G} {ends : G → α → Prop} {stage : G}

@[simp] theorem follows_ret {value : α} :
    (ret value : Program E ε α).Follows P ends stage ↔ ends stage value := Iff.rfl

@[simp] theorem follows_stop {error : ε} :
    (stop error : Program E ε α).Follows P ends stage ↔ P.stops stage error := Iff.rfl

/-- A sequence follows a protocol when its second part does from wherever the first ends. -/
theorem Follows.bind {program : Program E ε β} {next : β → Program E ε α}
    {mid : G → β → Prop} (first : program.Follows P mid stage)
    (rest : ∀ reached value, mid reached value → (next value).Follows P ends reached) :
    (program >>= next).Follows P ends stage := by
  induction program generalizing stage with
  | ret value => exact rest stage value first
  | stop error => exact first
  | call operation continuation ih =>
    intro answer
    obtain ⟨reached, hafter, hfollows⟩ := first answer
    exact ⟨reached, hafter, ih answer hfollows⟩

/-- A program that only issues operations that may keep a stage follows the protocol there. -/
theorem Follows.of_calls {allowed : ∀ γ : Type, E γ → Prop} {program : Program E ε α}
    (keep : ∀ {γ : Type} (operation : E γ) (answer : γ), allowed γ operation →
      P.after stage operation answer stage)
    (stops : ∀ error, P.stops stage error) (finish : ∀ value, ends stage value)
    (calls : program.Calls allowed) : program.Follows P ends stage := by
  induction program with
  | ret value => exact finish value
  | stop error => exact stops error
  | call operation next ih =>
    intro answer
    exact ⟨stage, keep operation answer calls.1, ih answer (calls.2 answer)⟩

/-- A program may end in more ways than it does. -/
theorem Follows.mono {ends' : G → α → Prop} {program : Program E ε α}
    (weaker : ∀ reached value, ends reached value → ends' reached value)
    (h : program.Follows P ends stage) : program.Follows P ends' stage := by
  induction program generalizing stage with
  | ret value => exact weaker stage value h
  | stop error => exact h
  | call operation next ih =>
    intro answer
    obtain ⟨reached, hafter, hfollows⟩ := h answer
    exact ⟨reached, hafter, ih answer hfollows⟩

/-- A fact about stages and states that every step of the protocol keeps holds at the end of
a run, in a stage that permits the result. -/
theorem Follows.run_ok {handler : Handler E ε S} {fact : G → S → Prop}
    (step : ∀ {γ : Type} {stage reached : G} {operation : E γ} {answer : γ} {state after : S},
      fact stage state → handler γ operation state = (.ok answer, after) →
      P.after stage operation answer reached → fact reached after)
    {program : Program E ε α} (h : program.Follows P ends stage) {state final : S}
    (hfact : fact stage state) {result : α}
    (hrun : program.run handler state = (.ok result, final)) :
    ∃ reached, fact reached final ∧ ends reached result := by
  induction program generalizing stage state with
  | ret value =>
    cases hrun
    exact ⟨stage, hfact, h⟩
  | stop error => cases hrun
  | call operation next ih =>
    obtain ⟨answer, mid, hanswer, hrest⟩ := (run_call_eq_ok handler).mp hrun
    obtain ⟨reached, hafter, hfollows⟩ := h answer
    exact ih answer hfollows (step hfact hanswer hafter) hrest

end Interaction.Program
