import LabBridge.Library.Program

/-!
# Programs that run beside others

Between two operations of a program the state may move as a rely relation allows. A program
withstands this when every value it may return then satisfies a postcondition. Programs on their
way stay such when one of them is answered and the others rely on what the answer does.
-/

namespace Interaction.Program

variable {E : Type → Type} {ε α β S : Type} {answers : ∀ β : Type, E β → S → β → S → Prop}
  {rely : S → S → Prop}

/-- Whatever happens before each of its operations, a program returns what is expected. -/
def Withstands (answers : ∀ β : Type, E β → S → β → S → Prop) (rely : S → S → Prop)
    (post : α → S → Prop) : Program E ε α → S → Prop
  | ret value, state => post value state
  | stop _, _ => True
  | call operation next, state => ∀ middle, rely state middle → ∀ answer reached,
    answers _ operation middle answer reached → (next answer).Withstands answers rely post reached

section Rules

variable {post : α → S → Prop} {state moved : S}

/-- What is returned is expected. -/
@[simp] theorem withstands_ret {value : α} :
    (ret value : Program E ε α).Withstands answers rely post state ↔ post value state := Iff.rfl

/-- What is returned is expected. -/
@[simp] theorem withstands_pure {value : α} :
    (pure value : Program E ε α).Withstands answers rely post state ↔ post value state := Iff.rfl

/-- A stop returns nothing. -/
@[simp] theorem withstands_stop {error : ε} :
    (stop error : Program E ε α).Withstands answers rely post state := trivial

/-- A guarded program withstands what its body withstands. -/
theorem withstands_unless_stop {condition : Prop} [Decidable condition] {error : ε}
    {program : Program E ε α} (h : program.Withstands answers rely post state) :
    (if condition then stop error else program : Program E ε α).Withstands answers rely post
      state := by
  split
  · trivial
  · exact h

/-- Nothing is expected in vain. -/
theorem withstands_true (program : Program E ε α) (state : S) :
    program.Withstands answers rely (fun _ _ => True) state := by
  induction program generalizing state with
  | ret value => trivial
  | stop error => trivial
  | call operation next ih => exact fun _ _ answer reached _ => ih answer reached

/-- A sequence returns what is expected when its first part leaves what its second part needs. -/
theorem Withstands.bind {program : Program E ε β} {next : β → Program E ε α}
    {middle : β → S → Prop} (first : program.Withstands answers rely middle state)
    (rest : ∀ value reached, middle value reached →
      (next value).Withstands answers rely post reached) :
    (program >>= next).Withstands answers rely post state := by
  induction program generalizing state with
  | ret value => exact rest value state first
  | stop error => trivial
  | call operation continuation ih =>
    exact fun between hrely answer reached hanswer =>
      ih answer (first between hrely answer reached hanswer)

/-- What a program withstands it withstands in later states. -/
theorem Withstands.later {program : Program E ε α}
    (trans : ∀ {first second third}, rely first second → rely second third → rely first third)
    (keep : ∀ {value before after}, post value before → rely before after → post value after)
    (h : program.Withstands answers rely post state) (hrely : rely state moved) :
    program.Withstands answers rely post moved := by
  cases program with
  | ret value => exact keep h hrely
  | stop error => trivial
  | call operation next => exact fun middle hmiddle => h middle (trans hrely hmiddle)

/-- Programs on their way withstand that one of them is answered. -/
theorem Withstands.advance {left right : List (Program E ε α)} {operation : E β}
    {next : β → Program E ε α} {answer : β}
    (refl : rely state state)
    (trans : ∀ {first second third}, rely first second → rely second third → rely first third)
    (keep : ∀ {value before after}, post value before → rely before after → post value after)
    (h : ∀ program ∈ left ++ call operation next :: right,
      program.Withstands answers rely post state)
    (answered : answers _ operation state answer moved) (hrely : rely state moved) :
    ∀ program ∈ left ++ next answer :: right, program.Withstands answers rely post moved := by
  have hnext : (call operation next).Withstands answers rely post state := h _ (by simp)
  intro program hprogram
  rcases List.mem_append.mp hprogram with hleft | hright
  · exact (h program (by simp [hleft])).later trans keep hrely
  · rcases List.mem_cons.mp hright with rfl | hright
    · exact hnext state refl answer moved answered
    · exact (h program (by simp [hright])).later trans keep hrely

end Rules

end Interaction.Program
