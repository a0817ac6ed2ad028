import Mathlib.Data.List.Basic

/-!
# How the rows of a table evolve

A list of rows evolves when every old row moves in its place and new rows are appended.
Insertions and updates are evolutions, and evolutions compose.
-/

namespace Storage

variable {Row : Type} {moves : Row → Row → Prop} {fresh : Row → Prop}
  {before middle after : List Row}

/-- Every old row makes a move in its place; every row that is appended is fresh. -/
inductive Evolves (moves : Row → Row → Prop) (fresh : Row → Prop) : List Row → List Row → Prop
  | append {added : List Row} (isFresh : ∀ row ∈ added, fresh row) : Evolves moves fresh [] added
  | move {row moved : Row} {before after : List Row} (isMove : moves row moved)
      (rest : Evolves moves fresh before after) :
      Evolves moves fresh (row :: before) (moved :: after)

namespace Evolves

/-- Rows that move into `change` of themselves evolve into the changed list. -/
theorem of_map {change : Row → Row} (h : ∀ row ∈ before, moves row (change row)) :
    Evolves moves fresh before (before.map change) := by
  induction before with
  | nil => exact .append (by simp)
  | cons row rest ih =>
    exact .move (h row (by simp)) (ih fun other hother => h other (by simp [hother]))

/-- Rows that may stay evolve into themselves. -/
theorem refl (stay : ∀ row, moves row row) (rows : List Row) : Evolves moves fresh rows rows := by
  have h : Evolves moves fresh rows (rows.map id) := of_map fun row _ => stay row
  rwa [List.map_id] at h

/-- Changing the selected rows, each by a move, is an evolution. -/
theorem of_selected {selected : Row → Bool} {change : Row → Row}
    (stay : ∀ row, moves row row)
    (h : ∀ row ∈ before, selected row = true → moves row (change row)) :
    Evolves moves fresh before
      (before.map fun row => if selected row then change row else row) := by
  refine of_map fun row hrow => ?_
  split
  · rename_i hselected
    exact h row hrow hselected
  · exact stay row

/-- A list evolves into itself with fresh rows behind it. -/
theorem of_append (stay : ∀ row, moves row row) {added : List Row}
    (h : ∀ row ∈ added, fresh row) : Evolves moves fresh before (before ++ added) := by
  induction before with
  | nil => exact .append h
  | cons row rest ih => exact .move (stay row) ih

/-- A weaker notion of move and of freshness is met by every evolution. -/
theorem mono {moves' : Row → Row → Prop} {fresh' : Row → Prop}
    (h : Evolves moves fresh before after)
    (hmoves : ∀ row ∈ before, ∀ {moved}, moves row moved → moves' row moved)
    (hfresh : ∀ {row}, fresh row → fresh' row) : Evolves moves' fresh' before after := by
  induction h with
  | append isFresh => exact .append fun row hrow => hfresh (isFresh row hrow)
  | move isMove _ ih =>
    exact .move (hmoves _ (by simp) isMove) (ih fun row hrow => hmoves row (by simp [hrow]))

/-- Fresh rows stay fresh through an evolution whose moves keep freshness. -/
private theorem all_fresh (remain : ∀ {row moved}, fresh row → moves row moved → fresh moved)
    (h : Evolves moves fresh before after) (hbefore : ∀ row ∈ before, fresh row) :
    ∀ row ∈ after, fresh row := by
  induction h with
  | append isFresh => exact isFresh
  | move isMove _ ih =>
    intro row hrow
    rcases List.mem_cons.mp hrow with rfl | hrow
    · exact remain (hbefore _ (by simp)) isMove
    · exact ih (fun other hother => hbefore other (by simp [hother])) row hrow

/-- Evolutions compose when moves do and fresh rows stay fresh. -/
theorem trans (compose : ∀ {a b c}, moves a b → moves b c → moves a c)
    (remain : ∀ {row moved}, fresh row → moves row moved → fresh moved)
    (first : Evolves moves fresh before middle) (second : Evolves moves fresh middle after) :
    Evolves moves fresh before after := by
  induction first generalizing after with
  | append isFresh => exact .append (second.all_fresh remain isFresh)
  | move isMove _ ih =>
    cases second with
    | move isMove' rest => exact .move (compose isMove isMove') (ih rest)

/-- An old row is found again, moved. -/
theorem exists_moved (h : Evolves moves fresh before after) {row : Row} (hrow : row ∈ before) :
    ∃ moved ∈ after, moves row moved := by
  induction h with
  | append => cases hrow
  | move isMove _ ih =>
    rcases List.mem_cons.mp hrow with rfl | hrow
    · exact ⟨_, by simp, isMove⟩
    · obtain ⟨moved, hmem, hmove⟩ := ih hrow
      exact ⟨moved, by simp [hmem], hmove⟩

/-- A row is an old one that moved, or fresh. -/
theorem origin (h : Evolves moves fresh before after) {moved : Row} (hmoved : moved ∈ after) :
    (∃ row ∈ before, moves row moved) ∨ fresh moved := by
  induction h with
  | append isFresh => exact .inr (isFresh moved hmoved)
  | move isMove _ ih =>
    rcases List.mem_cons.mp hmoved with rfl | hmoved
    · exact .inl ⟨_, by simp, isMove⟩
    · rcases ih hmoved with ⟨row, hrow, hmove⟩ | hfresh
      · exact .inl ⟨row, by simp [hrow], hmove⟩
      · exact .inr hfresh

end Evolves

end Storage
