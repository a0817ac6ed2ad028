import Mathlib.Data.List.Basic

/-!
# Programs that issue operations

A program either ends with a value, stops with an error, or issues an operation and goes
on with its answer. A handler runs operations on a state. The rules below reason about
the run of a program: sequencing, invariants of every state a program passes through, and
the effect of a fault injected at an arbitrary operation.
-/

namespace Interaction

/-- A program over operations `E` that ends with an `α` or stops with an `ε`. -/
inductive Program (E : Type → Type) (ε α : Type) : Type 1
  | ret (value : α)
  | stop (error : ε)
  | call {β : Type} (operation : E β) (next : β → Program E ε α)

namespace Program

variable {E : Type → Type} {ε α β S : Type}

/-- Sequencing: the second program starts from the value of the first. -/
def bind : Program E ε α → (α → Program E ε β) → Program E ε β
  | ret value, next => next value
  | stop error, _ => stop error
  | call operation rest, next => call operation fun answer => (rest answer).bind next

instance : Monad (Program E ε) where
  pure := ret
  bind := bind

/-- The program that issues one operation and returns its answer. -/
def perform (operation : E β) : Program E ε β := call operation ret

@[simp] theorem pure_eq_ret (value : α) : (pure value : Program E ε α) = ret value := rfl

@[simp] theorem ret_bind (value : α) (next : α → Program E ε β) :
    (ret value : Program E ε α) >>= next = next value := rfl

@[simp] theorem stop_bind (error : ε) (next : α → Program E ε β) :
    (stop error : Program E ε α) >>= next = stop error := rfl

@[simp] theorem call_bind {γ : Type} (operation : E γ) (rest : γ → Program E ε α)
    (next : α → Program E ε β) :
    call operation rest >>= next = call operation fun answer => rest answer >>= next := rfl

@[simp] theorem perform_bind {γ : Type} (operation : E γ) (next : γ → Program E ε β) :
    perform operation >>= next = call operation next := rfl

/-- A handler answers an operation and moves the state, or fails. -/
abbrev Handler (E : Type → Type) (ε S : Type) := ∀ β : Type, E β → S → Except ε β × S

/-- Run a program; the first failing operation ends the run. -/
def run (handler : Handler E ε S) : Program E ε α → S → Except ε α × S
  | ret value, state => (.ok value, state)
  | stop error, state => (.error error, state)
  | call operation next, state =>
    match handler _ operation state with
    | (.ok answer, reached) => (next answer).run handler reached
    | (.error error, reached) => (.error error, reached)

section Run

variable (handler : Handler E ε S)

@[simp] theorem run_ret (value : α) (state : S) :
    (ret value : Program E ε α).run handler state = (.ok value, state) := rfl

@[simp] theorem run_stop (error : ε) (state : S) :
    (stop error : Program E ε α).run handler state = (.error error, state) := rfl

theorem run_call {γ : Type} (operation : E γ) (next : γ → Program E ε α) (state : S) :
    (call operation next).run handler state =
      match handler _ operation state with
      | (.ok answer, reached) => (next answer).run handler reached
      | (.error error, reached) => (.error error, reached) := by
  rw [run]

/-- An operation that is answered hands its answer to the rest of the program. -/
theorem run_call_ok {γ : Type} {operation : E γ} {next : γ → Program E ε α} {state reached : S}
    {answer : γ} (h : handler _ operation state = (.ok answer, reached)) :
    (call operation next).run handler state = (next answer).run handler reached := by
  rw [run_call, h]

/-- An operation that fails ends the run. -/
theorem run_call_error {γ : Type} {operation : E γ} {next : γ → Program E ε α}
    {state reached : S} {error : ε} (h : handler _ operation state = (.error error, reached)) :
    (call operation next).run handler state = (.error error, reached) := by
  rw [run_call, h]

/-- A sequence runs its second part from where the first one ended. -/
theorem run_bind (program : Program E ε α) (next : α → Program E ε β) (state : S) :
    (program >>= next).run handler state =
      match program.run handler state with
      | (.ok value, reached) => (next value).run handler reached
      | (.error error, reached) => (.error error, reached) := by
  induction program generalizing state with
  | ret value => rfl
  | stop error => rfl
  | call operation rest ih =>
    rw [call_bind, run_call, run_call]
    rcases handler _ operation state with ⟨answer | answer, reached⟩
    · rfl
    · exact ih answer reached

/-- The value of a sequence comes from both parts succeeding in turn. -/
theorem run_bind_ok {program : Program E ε α} {next : α → Program E ε β} {state final : S}
    {result : β} :
    (program >>= next).run handler state = (.ok result, final) ↔
      ∃ value reached, program.run handler state = (.ok value, reached) ∧
        (next value).run handler reached = (.ok result, final) := by
  rw [run_bind]
  rcases program.run handler state with ⟨value | value, reached⟩
  · simp
  · constructor
    · intro h
      exact ⟨value, reached, rfl, h⟩
    · rintro ⟨_, _, heq, h⟩
      cases heq
      exact h

/-- The value of an operation followed by a program comes from an answered operation. -/
theorem run_call_eq_ok {γ : Type} {operation : E γ} {next : γ → Program E ε α}
    {state final : S} {result : α} :
    (call operation next).run handler state = (.ok result, final) ↔
      ∃ answer reached, handler _ operation state = (.ok answer, reached) ∧
        (next answer).run handler reached = (.ok result, final) := by
  rw [run_call]
  rcases handler _ operation state with ⟨answer | answer, reached⟩
  · simp
  · constructor
    · intro h
      exact ⟨answer, reached, rfl, h⟩
    · rintro ⟨_, _, heq, h⟩
      cases heq
      exact h

end Run

/-- Every operation the program may issue, whatever the answers, satisfies `allowed`. -/
def Calls (allowed : ∀ β : Type, E β → Prop) : Program E ε α → Prop
  | ret _ => True
  | stop _ => True
  | call operation next => allowed _ operation ∧ ∀ answer, (next answer).Calls allowed

section Calls

variable {allowed : ∀ β : Type, E β → Prop}

@[simp] theorem calls_ret (value : α) : (ret value : Program E ε α).Calls allowed := trivial

@[simp] theorem calls_stop (error : ε) : (stop error : Program E ε α).Calls allowed := trivial

@[simp] theorem calls_call {γ : Type} (operation : E γ) (next : γ → Program E ε α) :
    (call operation next).Calls allowed ↔
      allowed _ operation ∧ ∀ answer, (next answer).Calls allowed := Iff.rfl

/-- A sequence issues what its parts issue. -/
theorem Calls.bind {program : Program E ε α} {next : α → Program E ε β}
    (first : program.Calls allowed) (rest : ∀ value, (next value).Calls allowed) :
    (program >>= next).Calls allowed := by
  induction program with
  | ret value => exact rest value
  | stop error => trivial
  | call operation continuation ih => exact ⟨first.1, fun answer => ih answer (first.2 answer)⟩

/-- What is permitted under one rule is permitted under a weaker one. -/
theorem Calls.mono {program : Program E ε α} {allowed' : ∀ β : Type, E β → Prop}
    (calls : program.Calls allowed)
    (weaker : ∀ β (operation : E β), allowed β operation → allowed' β operation) :
    program.Calls allowed' := by
  induction program with
  | ret value => trivial
  | stop error => trivial
  | call operation next ih => exact ⟨weaker _ _ calls.1, fun answer => ih answer (calls.2 answer)⟩

/-- A relation that every permitted operation keeps relates the two ends of every run. -/
theorem Calls.run_related {handler : Handler E ε S} {program : Program E ε α}
    (related : S → S → Prop) (refl : ∀ state, related state state)
    (trans : ∀ {first second third}, related first second → related second third →
      related first third)
    (step : ∀ {γ : Type} (operation : E γ) (state : S), allowed _ operation →
      related state (handler _ operation state).2)
    (calls : program.Calls allowed) (state : S) :
    related state (program.run handler state).2 := by
  induction program generalizing state with
  | ret value => exact refl state
  | stop error => exact refl state
  | call operation next ih =>
    have hstep := step operation state calls.1
    rw [run_call]
    rcases h : handler _ operation state with ⟨answer | answer, reached⟩
    · simpa [h] using hstep
    · rw [h] at hstep
      exact trans hstep (ih answer (calls.2 answer) reached)

end Calls

/-- Every error the program may stop with, whatever the answers, satisfies `allowed`. -/
def Stops (allowed : ε → Prop) : Program E ε α → Prop
  | ret _ => True
  | stop error => allowed error
  | call _ next => ∀ answer, (next answer).Stops allowed

section Stops

variable {allowed : ε → Prop}

@[simp] theorem stops_ret (value : α) : (ret value : Program E ε α).Stops allowed := trivial

@[simp] theorem stops_stop (error : ε) :
    (stop error : Program E ε α).Stops allowed ↔ allowed error := Iff.rfl

/-- A sequence stops with what its parts stop with. -/
theorem Stops.bind {program : Program E ε α} {next : α → Program E ε β}
    (first : program.Stops allowed) (rest : ∀ value, (next value).Stops allowed) :
    (program >>= next).Stops allowed := by
  induction program with
  | ret value => exact rest value
  | stop error => exact first
  | call operation continuation ih => exact fun answer => ih answer (first answer)

/-- A run ends with an error of the program or of an operation. -/
theorem Stops.run_error {handler : Handler E ε S} {program : Program E ε α}
    (stops : program.Stops allowed)
    (operations : ∀ {γ : Type} (operation : E γ) (state : S) {error : ε},
      (handler _ operation state).1 = .error error → allowed error)
    {state : S} {error : ε} (h : (program.run handler state).1 = .error error) :
    allowed error := by
  induction program generalizing state with
  | ret value => cases h
  | stop error => exact Except.error.inj h ▸ stops
  | call operation next ih =>
    rw [run_call] at h
    rcases hstep : handler _ operation state with ⟨answer | answer, reached⟩
    · rw [hstep] at h
      refine operations operation state ?_
      rw [hstep]
      exact congrArg Except.error (Except.error.inj h)
    · rw [hstep] at h
      exact ih answer (stops answer) h

end Stops

/-- Run another program in the place of a stop. -/
def rescue (program : Program E ε α) (instead : ε → Program E ε α) : Program E ε α :=
  match program with
  | ret value => ret value
  | stop error => instead error
  | call operation next => call operation fun answer => (next answer).rescue instead

/-- A rescue issues what its parts issue. -/
theorem Calls.rescue {program : Program E ε α} {instead : ε → Program E ε α}
    {allowed : ∀ β : Type, E β → Prop} (first : program.Calls allowed)
    (rest : ∀ error, (instead error).Calls allowed) :
    (program.rescue instead).Calls allowed := by
  induction program with
  | ret value => trivial
  | stop error => exact rest error
  | call operation continuation ih => exact ⟨first.1, fun answer => ih answer (first.2 answer)⟩

/-- The states in which a run may be interrupted: before an operation, or at its end. -/
def Passes (handler : Handler E ε S) : Program E ε α → S → S → Prop
  | ret _, state, passed => passed = state
  | stop _, state, passed => passed = state
  | call operation next, state, passed => passed = state ∨
    match handler _ operation state with
    | (.ok answer, reached) => (next answer).Passes handler reached passed
    | (.error _, reached) => passed = reached

section Interruption

variable {handler : Handler E ε S}

theorem passes_call {γ : Type} {operation : E γ} {next : γ → Program E ε α} {state passed : S} :
    (call operation next).Passes handler state passed ↔ passed = state ∨
      match handler _ operation state with
      | (.ok answer, reached) => (next answer).Passes handler reached passed
      | (.error _, reached) => passed = reached := by
  rw [Passes]

/-- A run may be interrupted at its end. -/
theorem passes_of_run {program : Program E ε α} {state reached : S} {result : Except ε α}
    (h : program.run handler state = (result, reached)) :
    program.Passes handler state reached := by
  induction program generalizing state with
  | ret value =>
    cases h
    rfl
  | stop error =>
    cases h
    rfl
  | call operation next ih =>
    rw [run_call] at h
    rw [passes_call]
    refine .inr ?_
    rcases hstep : handler _ operation state with ⟨answer | answer, middle⟩
    · rw [hstep] at h
      cases h
      rfl
    · rw [hstep] at h
      exact ih answer h

/-- A run may be interrupted before it begins. -/
theorem passes_start (program : Program E ε α) (state : S) :
    program.Passes handler state state := by
  cases program with
  | ret value => rfl
  | stop error => rfl
  | call operation next => exact passes_call.mpr (.inl rfl)

/-- An interrupted sequence was interrupted in its first part, or in its second one. -/
theorem passes_bind {program : Program E ε α} {next : α → Program E ε β} {state passed : S}
    (h : (program >>= next).Passes handler state passed) :
    program.Passes handler state passed ∨
      ∃ value reached, program.run handler state = (.ok value, reached) ∧
        (next value).Passes handler reached passed := by
  induction program generalizing state with
  | ret value => exact .inr ⟨value, state, rfl, h⟩
  | stop error => exact .inl h
  | call operation rest ih =>
    rw [call_bind, passes_call] at h
    rcases h with hstart | hlater
    · exact .inl (passes_call.mpr (.inl hstart))
    · rcases hstep : handler _ operation state with ⟨answer | answer, reached⟩
      · rw [hstep] at hlater
        refine .inl (passes_call.mpr (.inr ?_))
        rw [hstep]
        exact hlater
      · rw [hstep] at hlater
        rcases ih answer hlater with hfirst | ⟨value, final, hrun, hsecond⟩
        · refine .inl (passes_call.mpr (.inr ?_))
          rw [hstep]
          exact hfirst
        · exact .inr ⟨value, final, by rw [run_call_ok handler hstep, hrun], hsecond⟩

/-- A sequence may be interrupted where its first part may. -/
theorem passes_bind_left {program : Program E ε α} {next : α → Program E ε β} {state passed : S}
    (h : program.Passes handler state passed) : (program >>= next).Passes handler state passed := by
  induction program generalizing state with
  | ret value =>
    obtain rfl : passed = state := h
    exact passes_start _ _
  | stop error => exact h
  | call operation rest ih =>
    rw [passes_call] at h
    rw [call_bind, passes_call]
    rcases h with hstart | hlater
    · exact .inl hstart
    · refine .inr ?_
      rcases hstep : handler _ operation state with ⟨answer | answer, reached⟩
      · rw [hstep] at hlater
        exact hlater
      · rw [hstep] at hlater
        exact ih answer hlater

/-- A sequence may be interrupted where its second part may, after the first one has ended. -/
theorem passes_bind_right {program : Program E ε α} {next : α → Program E ε β}
    {state reached passed : S} {value : α} (h : program.run handler state = (.ok value, reached))
    (hnext : (next value).Passes handler reached passed) :
    (program >>= next).Passes handler state passed := by
  induction program generalizing state with
  | ret result =>
    cases h
    exact hnext
  | stop error => cases h
  | call operation rest ih =>
    obtain ⟨answer, middle, hstep, hrest⟩ := (run_call_eq_ok handler).mp h
    rw [call_bind, passes_call, hstep]
    exact .inr (ih answer hrest)

/-- A rescue may be interrupted where its program may. -/
theorem passes_rescue_left {program : Program E ε α} {instead : ε → Program E ε α}
    {state passed : S} (h : program.Passes handler state passed) :
    (program.rescue instead).Passes handler state passed := by
  induction program generalizing state with
  | ret value => exact h
  | stop error =>
    obtain rfl : passed = state := h
    exact passes_start _ _
  | call operation rest ih =>
    rw [passes_call] at h
    rw [rescue, passes_call]
    rcases h with hstart | hlater
    · exact .inl hstart
    · refine .inr ?_
      rcases hstep : handler _ operation state with ⟨answer | answer, reached⟩
      · rw [hstep] at hlater
        exact hlater
      · rw [hstep] at hlater
        exact ih answer hlater

/-- An interrupted rescue was interrupted in its program, or in what stands in for its stop. -/
theorem passes_rescue {program : Program E ε α} {instead : ε → Program E ε α} {state passed : S}
    (h : (program.rescue instead).Passes handler state passed) :
    program.Passes handler state passed ∨
      ∃ error reached, program.run handler state = (.error error, reached) ∧
        (instead error).Passes handler reached passed := by
  induction program generalizing state with
  | ret value => exact .inl h
  | stop error => exact .inr ⟨error, state, rfl, h⟩
  | call operation rest ih =>
    rw [rescue, passes_call] at h
    rcases h with hstart | hlater
    · exact .inl (passes_call.mpr (.inl hstart))
    · rcases hstep : handler _ operation state with ⟨answer | answer, reached⟩
      · rw [hstep] at hlater
        refine .inl (passes_call.mpr (.inr ?_))
        rw [hstep]
        exact hlater
      · rw [hstep] at hlater
        rcases ih answer hlater with hfirst | ⟨error, final, hrun, hsecond⟩
        · refine .inl (passes_call.mpr (.inr ?_))
          rw [hstep]
          exact hfirst
        · exact .inr ⟨error, final, by rw [run_call_ok handler hstep, hrun], hsecond⟩

/-- A rescue has the value of its program. -/
theorem run_rescue_of_ok {program : Program E ε α} {instead : ε → Program E ε α} {state final : S}
    {value : α} (h : program.run handler state = (.ok value, final)) :
    (program.rescue instead).run handler state = (.ok value, final) := by
  induction program generalizing state with
  | ret result => exact h
  | stop error => cases h
  | call operation rest ih =>
    obtain ⟨answer, reached, hstep, hrest⟩ := (run_call_eq_ok handler).mp h
    rw [rescue, run_call_ok handler hstep]
    exact ih answer hrest

/-- Where a rescue has a value, its program has it or what stands in for its stop has. -/
theorem run_rescue_eq_ok {program : Program E ε α} {instead : ε → Program E ε α} {state final : S}
    {value : α} (h : (program.rescue instead).run handler state = (.ok value, final)) :
    program.run handler state = (.ok value, final) ∨
      ∃ error reached, program.run handler state = (.error error, reached) ∧
        (instead error).run handler reached = (.ok value, final) := by
  induction program generalizing state with
  | ret result => exact .inl h
  | stop error => exact .inr ⟨error, state, rfl, h⟩
  | call operation rest ih =>
    obtain ⟨answer, reached, hstep, hrest⟩ := (run_call_eq_ok handler).mp h
    rw [run_call_ok handler hstep]
    exact ih answer hrest

/-- A relation that every permitted operation keeps relates the start of a run to every state in
which it may be interrupted. -/
theorem Calls.passes_related {program : Program E ε α} {allowed : ∀ β : Type, E β → Prop}
    (related : S → S → Prop) (refl : ∀ state, related state state)
    (trans : ∀ {first second third}, related first second → related second third →
      related first third)
    (step : ∀ {γ : Type} (operation : E γ) (state : S), allowed _ operation →
      related state (handler _ operation state).2)
    (calls : program.Calls allowed) {state passed : S}
    (h : program.Passes handler state passed) : related state passed := by
  induction program generalizing state with
  | ret value => exact h ▸ refl state
  | stop error => exact h ▸ refl state
  | call operation next ih =>
    rw [passes_call] at h
    rcases h with rfl | hlater
    · exact refl _
    · have hstep := step operation state calls.1
      rcases hanswer : handler _ operation state with ⟨answer | answer, reached⟩
      · rw [hanswer] at hlater hstep
        exact hlater ▸ hstep
      · rw [hanswer] at hlater hstep
        exact trans hstep (ih answer (calls.2 answer) hlater)

end Interruption

/-- The handler that fails with `fault` at the operation a countdown names. -/
def faultAfter (handler : Handler E ε S) (fault : ε) : Handler E ε (S × Option ℕ) :=
  fun _ operation state =>
    match state.2 with
    | some 0 => (.error fault, state)
    | countdown =>
      let answered := handler _ operation state.1
      (answered.1, answered.2, countdown.map Nat.pred)

/-- Without a countdown nothing is injected. -/
@[simp] theorem run_faultAfter_none (handler : Handler E ε S) (fault : ε)
    (program : Program E ε α) (state : S) :
    program.run (faultAfter handler fault) (state, none) =
      ((program.run handler state).1, (program.run handler state).2, none) := by
  induction program generalizing state with
  | ret value => rfl
  | stop error => rfl
  | call operation next ih =>
    rw [run_call, run_call]
    simp only [faultAfter, Option.map_none]
    rcases handler _ operation state with ⟨answer | answer, reached⟩
    · rfl
    · exact ih answer reached

/-- A run with an injected fault stops with that fault or is the run without it. -/
theorem run_faultAfter (handler : Handler E ε S) (fault : ε) (program : Program E ε α)
    (state : S) (countdown : Option ℕ) :
    (program.run (faultAfter handler fault) (state, countdown)).1 = .error fault ∨
      (program.run (faultAfter handler fault) (state, countdown)).1 =
          (program.run handler state).1 ∧
        (program.run (faultAfter handler fault) (state, countdown)).2.1 =
          (program.run handler state).2 := by
  induction program generalizing state countdown with
  | ret value => exact .inr ⟨rfl, rfl⟩
  | stop error => exact .inr ⟨rfl, rfl⟩
  | call operation next ih =>
    rw [run_call, run_call]
    by_cases hzero : countdown = some 0
    · subst hzero
      exact .inl rfl
    · have hstep : faultAfter handler fault _ operation (state, countdown) =
          ((handler _ operation state).1, (handler _ operation state).2,
            countdown.map Nat.pred) := by
        unfold faultAfter
        split
        · rename_i h
          exact absurd h hzero
        · rfl
      rw [hstep]
      rcases handler _ operation state with ⟨answer | answer, reached⟩
      · exact .inr ⟨rfl, rfl⟩
      · exact ih answer reached _

end Program

end Interaction
