import LabBridge.Library.Program

/-!
# Transactions over a store

A store answers operations or refuses one and stays as it is. A transaction is a program that is
committed when it ends with a result and rolled back otherwise, also when the connection is lost
at one of its operations. A program that is not a transaction advances one operation at a time
between the operations of others.
-/

namespace Interaction

/-- A store: what it answers to an operation, and what a rollback leaves of a reached state. -/
structure Store (E : Type → Type) (ε S : Type) where
  answer : ∀ β : Type, E β → S → Except ε (β × S)
  rollback : S → S → S

variable {E F : Type → Type} {ε α β S : Type}

namespace Store

variable (store : Store E ε S)

/-- An operation that is refused changes nothing. -/
def handler : Program.Handler E ε S := fun _ operation state =>
  match store.answer _ operation state with
  | .ok (answer, reached) => (.ok answer, reached)
  | .error error => (.error error, state)

/-- A program that ends with `result` takes the store from one state to another. -/
def Yields (program : Program E ε α) (state : S) (result : α) (reached : S) : Prop :=
  program.run store.handler state = (.ok result, reached)

/-- Run a transaction: commit a result, roll back anything else. -/
def execute (program : Program E ε α) (lost : ε) (fault : Option ℕ) (state : S) :
    Except ε α × S :=
  match program.run (Program.faultAfter store.handler lost) (state, fault) with
  | (.ok value, reached, _) => (.ok value, reached)
  | (.error error, reached, _) => (.error error, store.rollback state reached)

variable {store} {state reached : S} {result : α}

/-- An operation is answered as the store answers it. -/
theorem handler_eq_ok {operation : E β} {answer : β} :
    store.handler _ operation state = (.ok answer, reached) ↔
      store.answer _ operation state = .ok (answer, reached) := by
  unfold handler
  rcases store.answer _ operation state with error | ⟨found, left⟩ <;> simp

/-- A returned value is yielded where it is returned. -/
@[simp] theorem yields_ret {value : α} :
    store.Yields (.ret value) state result reached ↔ value = result ∧ state = reached := by
  simp [Yields]

/-- A returned value is yielded where it is returned. -/
@[simp] theorem yields_pure {value : α} :
    store.Yields (pure value) state result reached ↔ value = result ∧ state = reached :=
  yields_ret

/-- A stop yields nothing. -/
@[simp] theorem not_yields_stop {error : ε} :
    ¬store.Yields (.stop error : Program E ε α) state result reached := by
  simp [Yields]

/-- An operation and what follows it yield what follows its answer. -/
theorem yields_call {operation : E β} {next : β → Program E ε α} :
    store.Yields (.call operation next) state result reached ↔
      ∃ answer middle, store.answer _ operation state = .ok (answer, middle) ∧
        store.Yields (next answer) middle result reached := by
  unfold Yields
  rw [Program.run_call_eq_ok]
  simp only [handler_eq_ok]

/-- A sequence yields what its second part yields after the first. -/
theorem yields_bind {program : Program E ε α} {next : α → Program E ε β} {result : β} :
    store.Yields (program >>= next) state result reached ↔
      ∃ value middle, store.Yields program state value middle ∧
        store.Yields (next value) middle result reached :=
  Program.run_bind_ok store.handler

/-- A program that stops under a condition yields what lies behind it. -/
@[simp] theorem yields_unless_stop {condition : Prop} [Decidable condition] {error : ε}
    {program : Program E ε α} :
    store.Yields (if condition then .stop error else program) state result reached ↔
      ¬condition ∧ store.Yields program state result reached := by
  split <;> simp [*]

/-- A transaction is rolled back, or it yields its result and is committed. -/
theorem execute_cases (program : Program E ε α) (lost : ε) (fault : Option ℕ) (state : S) :
    (∃ error reached, store.execute program lost fault state =
        (.error error, store.rollback state reached)) ∨
      ∃ value reached, store.execute program lost fault state = (.ok value, reached) ∧
        store.Yields program state value reached := by
  have hrun := Program.run_faultAfter store.handler lost program state fault
  unfold execute Yields
  rcases hfaulty : program.run (Program.faultAfter store.handler lost) (state, fault) with
    ⟨value | value, reached, countdown⟩
  · exact .inl ⟨value, reached, rfl⟩
  · rw [hfaulty] at hrun
    rcases hrun with hlost | ⟨hvalue, hreached⟩
    · cases hlost
    · exact .inr ⟨value, reached, rfl, Prod.ext hvalue.symm hreached.symm⟩

/-- A transaction that yields a result on a good connection answers it and is committed. -/
theorem execute_of_yields {program : Program E ε α} {lost : ε}
    (h : store.Yields program state result reached) :
    store.execute program lost none state = (.ok result, reached) := by
  unfold execute
  rw [Program.run_faultAfter_none]
  unfold Yields at h
  rw [h]

/-- A relation that answered operations keep is kept where an operation is handled. -/
theorem handler_related {allowed : ∀ γ : Type, E γ → Prop} {related : S → S → Prop}
    (refl : ∀ state, related state state)
    (step : ∀ {γ : Type} {operation : E γ} {before after : S} {answer : γ},
      allowed γ operation → store.answer _ operation before = .ok (answer, after) →
      related before after)
    {operation : E β} (hallowed : allowed β operation) (before : S) :
    related before (store.handler _ operation before).2 := by
  unfold handler
  rcases hanswer : store.answer _ operation before with error | ⟨answer, after⟩
  · exact refl before
  · exact step hallowed hanswer

/-- A transitive relation that every permitted operation keeps holds across a program. -/
theorem Yields.related {allowed : ∀ γ : Type, E γ → Prop} {program : Program E ε α}
    (calls : program.Calls allowed) (related : S → S → Prop)
    (refl : ∀ state, related state state)
    (trans : ∀ {first second third}, related first second → related second third →
      related first third)
    (step : ∀ {γ : Type} {operation : E γ} {before after : S} {answer : γ},
      allowed γ operation → store.answer _ operation before = .ok (answer, after) →
      related before after)
    (h : store.Yields program state result reached) : related state reached := by
  have hrun := calls.run_related related refl trans
    (fun _ before hallowed => handler_related refl step hallowed before) state
  unfold Yields at h
  rw [h] at hrun
  exact hrun

/-- A transitive relation that every permitted operation and every rollback keep holds across a
transaction. -/
theorem execute_related {allowed : ∀ γ : Type, E γ → Prop} {program : Program E ε α}
    (calls : program.Calls allowed) (related : S → S → Prop)
    (refl : ∀ state, related state state)
    (trans : ∀ {first second third}, related first second → related second third →
      related first third)
    (step : ∀ {γ : Type} {operation : E γ} {before after : S} {answer : γ},
      allowed γ operation → store.answer _ operation before = .ok (answer, after) →
      related before after)
    (undone : ∀ {before after}, related before after →
      related before (store.rollback before after)) (lost : ε) (fault : Option ℕ) (state : S) :
    related state (store.execute program lost fault state).2 := by
  have hstep {γ : Type} (operation : E γ) (before : S × Option ℕ) (hallowed : allowed γ operation) :
      related before.1 (Program.faultAfter store.handler lost _ operation before).2.1 := by
    unfold Program.faultAfter
    split
    · exact refl _
    · exact handler_related refl step hallowed before.1
  have hrun : related state
      (program.run (Program.faultAfter store.handler lost) (state, fault)).2.1 :=
    calls.run_related (fun first second => related first.1 second.1) (fun before => refl before.1)
      trans hstep (state, fault)
  unfold execute
  rcases hfaulty : program.run (Program.faultAfter store.handler lost) (state, fault) with
    ⟨value | value, after, countdown⟩
  · rw [hfaulty] at hrun
    exact undone hrun
  · rw [hfaulty] at hrun
    exact hrun

end Store

namespace Program

/-- A program that sends every operation through another set of operations. -/
def translate (send : ∀ β : Type, E β → F β) : Program E ε α → Program F ε α
  | ret value => ret value
  | stop error => stop error
  | call operation next => call (send _ operation) fun answer => (next answer).translate send

/-- A translated program runs as the program does, where the operations do. -/
theorem run_translate {send : ∀ β : Type, E β → F β} {handler : Handler E ε S}
    {other : Handler F ε S}
    (agree : ∀ (β : Type) (operation : E β) (state : S),
      other _ (send _ operation) state = handler _ operation state)
    (program : Program E ε α) (state : S) :
    (program.translate send).run other state = program.run handler state := by
  induction program generalizing state with
  | ret value => rfl
  | stop error => rfl
  | call operation next ih =>
    rw [translate, run_call, run_call, agree]
    rcases handler _ operation state with ⟨answer | answer, reached⟩
    · rfl
    · exact ih answer reached

/-- A translated program issues what its operations are sent as. -/
theorem Calls.translate {send : ∀ β : Type, E β → F β} {allowed : ∀ β : Type, F β → Prop}
    {program : Program E ε α} (h : program.Calls fun _ operation => allowed _ (send _ operation)) :
    (program.translate send).Calls allowed := by
  induction program with
  | ret value => trivial
  | stop error => trivial
  | call operation next ih => exact ⟨h.1, fun answer => ih answer (h.2 answer)⟩

/-- A program performs its next operation. -/
inductive Advances (handler : Handler E ε S) :
    Program E ε α → S → Program E ε α → S → Prop
  | call {γ : Type} {operation : E γ} {next : γ → Program E ε α} {answer : γ} {state reached : S}
      (answered : handler _ operation state = (.ok answer, reached)) :
      Advances handler (call operation next) state (next answer) reached

end Program

end Interaction
