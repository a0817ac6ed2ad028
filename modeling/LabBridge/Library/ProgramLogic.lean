import LabBridge.Library.Program

/-!
# What a run of a program meets

A program meets a contract in a state when every operation of its run is permitted in the state
in which it is issued, and the end of the run satisfies a postcondition. Contracts follow the
shape of programs, and what every permission grants holds wherever the run may be interrupted.
The other way round, a program may grant a postcondition to those runs whose operations fit.
-/

namespace Interaction.Program

variable {E : Type → Type} {ε α β γ S : Type}

/-- The contract of a program: what permits an operation in a state, and what holds of the result
and the state at the end. -/
def Meets (handler : Handler E ε S) (permits : ∀ β : Type, E β → S → Prop)
    (post : Except ε α → S → Prop) : Program E ε α → S → Prop
  | ret value, state => post (.ok value) state
  | stop error, state => post (.error error) state
  | call operation next, state => permits _ operation state ∧
    match handler _ operation state with
    | (.ok answer, reached) => (next answer).Meets handler permits post reached
    | (.error error, reached) => post (.error error) reached

/-- What is seen of the operations that a run issues, each in the state it is issued in. -/
def observed (handler : Handler E ε S) (see : ∀ β : Type, E β → S → Option γ) :
    Program E ε α → S → List γ
  | ret _, _ => []
  | stop _, _ => []
  | call operation next, state => (see _ operation state).toList ++
    match handler _ operation state with
    | (.ok answer, reached) => (next answer).observed handler see reached
    | (.error _, _) => []

variable {handler : Handler E ε S} {permits : ∀ β : Type, E β → S → Prop}

section Rules

variable {post : Except ε α → S → Prop} {state : S}

@[simp] theorem meets_ret (value : α) :
    (ret value : Program E ε α).Meets handler permits post state ↔ post (.ok value) state :=
  Iff.rfl

@[simp] theorem meets_stop (error : ε) :
    (stop error : Program E ε α).Meets handler permits post state ↔ post (.error error) state :=
  Iff.rfl

theorem meets_call {γ : Type} {operation : E γ} {next : γ → Program E ε α} :
    (call operation next).Meets handler permits post state ↔ permits _ operation state ∧
      match handler _ operation state with
      | (.ok answer, reached) => (next answer).Meets handler permits post reached
      | (.error error, reached) => post (.error error) reached := by
  rw [Meets]

/-- A contract on a given state can be decided by running the program. -/
instance decidableMeets [permitted : ∀ (β : Type) (operation : E β) (state : S),
      Decidable (permits β operation state)]
    [ended : ∀ (result : Except ε α) (state : S), Decidable (post result state)] :
    ∀ (program : Program E ε α) (state : S), Decidable (program.Meets handler permits post state)
  | ret value, state => ended (.ok value) state
  | stop error, state => ended (.error error) state
  | call operation next, state =>
    have := permitted _ operation state
    have : Decidable (match handler _ operation state with
        | (.ok answer, reached) => (next answer).Meets handler permits post reached
        | (.error error, reached) => post (.error error) reached) :=
      match handler _ operation state with
      | (.ok answer, reached) => decidableMeets (next answer) reached
      | (.error error, reached) => ended (.error error) reached
    decidable_of_iff _ meets_call.symm

/-- The contract of an operation that is answered. -/
theorem meets_call_ok {γ : Type} {operation : E γ} {next : γ → Program E ε α} {answer : γ}
    {reached : S} (hstep : handler _ operation state = (.ok answer, reached))
    (hpermits : permits _ operation state)
    (hnext : (next answer).Meets handler permits post reached) :
    (call operation next).Meets handler permits post state := by
  rw [meets_call, hstep]
  exact ⟨hpermits, hnext⟩

/-- A contract may permit more, and what follows from its postcondition may stand in its place. -/
theorem Meets.mono {program : Program E ε α} {wider : ∀ β : Type, E β → S → Prop}
    {weaker : Except ε α → S → Prop} (h : program.Meets handler permits post state)
    (hpermits : ∀ (γ : Type) (operation : E γ) (state : S),
      permits _ operation state → wider _ operation state)
    (hpost : ∀ result reached, post result reached → weaker result reached) :
    program.Meets handler wider weaker state := by
  induction program generalizing state with
  | ret value => exact hpost _ _ h
  | stop error => exact hpost _ _ h
  | call operation next ih =>
    rw [meets_call] at h ⊢
    refine ⟨hpermits _ operation state h.1, ?_⟩
    rcases hstep : handler _ operation state with ⟨answer | answer, reached⟩
    · rw [hstep] at h
      exact hpost _ _ h.2
    · rw [hstep] at h
      exact ih answer h.2

/-- A sequence meets what its first part leaves for the second to meet. -/
theorem Meets.bind {program : Program E ε α} {next : α → Program E ε β}
    {final : Except ε β → S → Prop} {middle : Except ε α → S → Prop}
    (first : program.Meets handler permits middle state)
    (hvalue : ∀ value reached, middle (.ok value) reached →
      (next value).Meets handler permits final reached)
    (herror : ∀ error reached, middle (.error error) reached → final (.error error) reached) :
    (program >>= next).Meets handler permits final state := by
  induction program generalizing state with
  | ret value => exact hvalue value state first
  | stop error => exact herror error state first
  | call operation rest ih =>
    rw [meets_call] at first
    rw [call_bind, meets_call]
    refine ⟨first.1, ?_⟩
    rcases hstep : handler _ operation state with ⟨answer | answer, reached⟩
    · rw [hstep] at first
      exact herror _ _ first.2
    · rw [hstep] at first
      exact ih answer first.2

/-- A rescue meets what its program leaves for the stand-in to meet. -/
theorem Meets.rescue {program : Program E ε α} {instead : ε → Program E ε α}
    {middle : Except ε α → S → Prop}
    (answered : ∀ (γ : Type) (operation : E γ) (state : S), ∃ answer reached,
      handler _ operation state = (.ok answer, reached))
    (first : program.Meets handler permits middle state)
    (hvalue : ∀ value reached, middle (.ok value) reached → post (.ok value) reached)
    (herror : ∀ error reached, middle (.error error) reached →
      (instead error).Meets handler permits post reached) :
    (program.rescue instead).Meets handler permits post state := by
  induction program generalizing state with
  | ret value => exact hvalue value state first
  | stop error => exact herror error state first
  | call operation rest ih =>
    rw [meets_call] at first
    rw [Program.rescue, meets_call]
    refine ⟨first.1, ?_⟩
    obtain ⟨answer, reached, hstep⟩ := answered _ operation state
    rw [hstep] at first ⊢
    exact ih answer first.2

/-- Every operation that is seen of a run was permitted where it was issued. -/
theorem Meets.of_mem_observed {program : Program E ε α} {see : ∀ β : Type, E β → S → Option γ}
    {seen : γ} (h : program.Meets handler permits post state)
    (hseen : seen ∈ program.observed handler see state) :
    ∃ (δ : Type) (operation : E δ) (issued : S),
      permits _ operation issued ∧ see _ operation issued = some seen := by
  induction program generalizing state with
  | ret value => cases hseen
  | stop error => cases hseen
  | call operation next ih =>
    rw [meets_call] at h
    rw [observed, List.mem_append, Option.mem_toList] at hseen
    rcases hseen with hhere | hlater
    · exact ⟨_, operation, state, h.1, hhere⟩
    · rcases hstep : handler _ operation state with ⟨answer | answer, reached⟩
      · rw [hstep] at hlater
        cases hlater
      · rw [hstep] at h hlater
        exact ih answer h.2 hlater

/-- What every permission and the postcondition grant holds wherever a run may be interrupted. -/
theorem Meets.passes {program : Program E ε α} {inv : S → Prop} {passed : S}
    (h : program.Meets handler permits post state)
    (hpermits : ∀ (γ : Type) (operation : E γ) (state : S), permits _ operation state → inv state)
    (hpost : ∀ result reached, post result reached → inv reached)
    (hpassed : program.Passes handler state passed) : inv passed := by
  induction program generalizing state with
  | ret value => exact hpassed ▸ hpost _ _ h
  | stop error => exact hpassed ▸ hpost _ _ h
  | call operation next ih =>
    rw [meets_call] at h
    rw [passes_call] at hpassed
    rcases hpassed with rfl | hlater
    · exact hpermits _ operation _ h.1
    · rcases hstep : handler _ operation state with ⟨answer | answer, reached⟩
      · rw [hstep] at h hlater
        exact hlater ▸ hpost _ _ h.2
      · rw [hstep] at h hlater
        exact ih answer h.2 hlater

/-- The end of a run satisfies the postcondition. -/
theorem Meets.run {program : Program E ε α} (h : program.Meets handler permits post state) :
    post (program.run handler state).1 (program.run handler state).2 := by
  induction program generalizing state with
  | ret value => exact h
  | stop error => exact h
  | call operation next ih =>
    rw [meets_call] at h
    rw [run_call]
    rcases hstep : handler _ operation state with ⟨answer | answer, reached⟩
    · rw [hstep] at h
      exact h.2
    · rw [hstep] at h
      exact ih answer h.2

/-- A contract holds with the end of the run for its postcondition. -/
theorem Meets.ends {program : Program E ε α}
    (h : program.Meets handler permits (fun _ _ => True) state) :
    program.Meets handler permits
      (fun result reached => program.run handler state = (result, reached)) state := by
  induction program generalizing state with
  | ret value => rfl
  | stop error => rfl
  | call operation next ih =>
    rw [meets_call] at h ⊢
    refine ⟨h.1, ?_⟩
    rw [run_call]
    rcases hstep : handler _ operation state with ⟨answer | answer, reached⟩
    · rfl
    · rw [hstep] at h
      exact ih answer h.2

/-- A rescue goes on with what stands in for the error that its program has raised. -/
theorem run_rescue_of_error {program : Program E ε α} {instead : ε → Program E ε α} {error : ε}
    {reached : S}
    (answered : ∀ (γ : Type) (operation : E γ) (state : S), ∃ answer reached,
      handler _ operation state = (.ok answer, reached))
    (h : program.run handler state = (.error error, reached)) :
    (program.rescue instead).run handler state = (instead error).run handler reached := by
  induction program generalizing state with
  | ret value => cases h
  | stop raised =>
    cases h
    rfl
  | call operation rest ih =>
    obtain ⟨answer, issued, hstep⟩ := answered _ operation state
    rw [run_call_ok handler hstep] at h
    rw [Program.rescue, run_call_ok handler hstep]
    exact ih answer h

end Rules

/-! ## Runs whose operations fit -/

/-- What a run comes to when every operation that it issues fits the state it is issued in. -/
def Grants (handler : Handler E ε S) (fits : ∀ β : Type, E β → S → Prop)
    (post : Except ε α → S → Prop) : Program E ε α → S → Prop
  | ret value, state => post (.ok value) state
  | stop error, state => post (.error error) state
  | call operation next, state => fits _ operation state →
    match handler _ operation state with
    | (.ok answer, reached) => (next answer).Grants handler fits post reached
    | (.error error, reached) => post (.error error) reached

section Granting

variable {fits : ∀ β : Type, E β → S → Prop} {post : Except ε α → S → Prop} {state : S}

theorem grants_call {γ : Type} {operation : E γ} {next : γ → Program E ε α} :
    (call operation next).Grants handler fits post state ↔ (fits _ operation state →
      match handler _ operation state with
      | (.ok answer, reached) => (next answer).Grants handler fits post reached
      | (.error error, reached) => post (.error error) reached) := by
  rw [Grants]

/-- What an answered operation grants, where it fits. -/
theorem grants_call_ok {γ : Type} {operation : E γ} {next : γ → Program E ε α} {answer : γ}
    {reached : S} (hstep : handler _ operation state = (.ok answer, reached))
    (hnext : fits _ operation state → (next answer).Grants handler fits post reached) :
    (call operation next).Grants handler fits post state := by
  rw [grants_call, hstep]
  exact hnext

/-- What follows from what is granted is granted. -/
theorem Grants.mono {program : Program E ε α} {weaker : Except ε α → S → Prop}
    (h : program.Grants handler fits post state)
    (hpost : ∀ result reached, post result reached → weaker result reached) :
    program.Grants handler fits weaker state := by
  induction program generalizing state with
  | ret value => exact hpost _ _ h
  | stop error => exact hpost _ _ h
  | call operation next ih =>
    rw [grants_call] at h ⊢
    intro hfits
    have hrest := h hfits
    rcases hstep : handler _ operation state with ⟨answer | answer, reached⟩
    · rw [hstep] at hrest
      exact hpost _ _ hrest
    · rw [hstep] at hrest
      exact ih answer hrest

/-- A sequence grants what its second part grants where the first one ends. -/
theorem Grants.bind {program : Program E ε α} {next : α → Program E ε β}
    {final : Except ε β → S → Prop} {middle : Except ε α → S → Prop}
    (first : program.Grants handler fits middle state)
    (hvalue : ∀ value reached, middle (.ok value) reached →
      (next value).Grants handler fits final reached)
    (herror : ∀ error reached, middle (.error error) reached → final (.error error) reached) :
    (program >>= next).Grants handler fits final state := by
  induction program generalizing state with
  | ret value => exact hvalue value state first
  | stop error => exact herror error state first
  | call operation rest ih =>
    rw [grants_call] at first
    rw [call_bind, grants_call]
    intro hfits
    have hrest := first hfits
    rcases hstep : handler _ operation state with ⟨answer | answer, reached⟩
    · rw [hstep] at hrest
      exact herror _ _ hrest
    · rw [hstep] at hrest
      exact ih answer hrest

/-- A rescue grants what the stand-in grants where the program has failed. -/
theorem Grants.rescue {program : Program E ε α} {instead : ε → Program E ε α}
    {middle : Except ε α → S → Prop}
    (answered : ∀ (γ : Type) (operation : E γ) (state : S), ∃ answer reached,
      handler _ operation state = (.ok answer, reached))
    (first : program.Grants handler fits middle state)
    (hvalue : ∀ value reached, middle (.ok value) reached → post (.ok value) reached)
    (herror : ∀ error reached, middle (.error error) reached →
      (instead error).Grants handler fits post reached) :
    (program.rescue instead).Grants handler fits post state := by
  induction program generalizing state with
  | ret value => exact hvalue value state first
  | stop error => exact herror error state first
  | call operation rest ih =>
    rw [grants_call] at first
    rw [Program.rescue, grants_call]
    intro hfits
    have hrest := first hfits
    obtain ⟨answer, reached, hstep⟩ := answered _ operation state
    rw [hstep] at hrest ⊢
    exact ih answer hrest

/-- A run whose operations all fit comes to what is granted. -/
theorem Grants.run {program : Program E ε α} (h : program.Grants handler fits post state)
    (hfits : program.Meets handler fits (fun _ _ => True) state) :
    post (program.run handler state).1 (program.run handler state).2 := by
  induction program generalizing state with
  | ret value => exact h
  | stop error => exact h
  | call operation next ih =>
    rw [grants_call] at h
    rw [meets_call] at hfits
    have hrest := h hfits.1
    rw [run_call]
    rcases hstep : handler _ operation state with ⟨answer | answer, reached⟩
    · rw [hstep] at hrest
      exact hrest
    · rw [hstep] at hrest hfits
      exact ih answer hrest hfits.2

end Granting

end Interaction.Program
