import Mathlib.Data.List.Basic

/-!
# Encodings that end by themselves

An encoding ends by itself when an encoded value can be told from whatever follows it. Such
encodings can be repeated: a count in front tells how many values follow, and an encoding of
values that are never empty needs no count.
-/

namespace SelfDelimiting

variable {α β γ : Type*}

/-- Equal encodings with anything behind them have equal keys and the same behind them. -/
def Ends (encode : α → List β) (key : α → γ) : Prop :=
  ∀ ⦃left right : α⦄ ⦃rest others : List β⦄,
    encode left ++ rest = encode right ++ others → key left = key right ∧ rest = others

variable {encode : α → List β} {key : α → γ}

/-- As many values on both sides can be read one after the other. -/
theorem Ends.repeated (h : Ends encode key) {left right : List α} {rest others : List β}
    (hlength : left.length = right.length)
    (heq : left.flatMap encode ++ rest = right.flatMap encode ++ others) :
    left.map key = right.map key ∧ rest = others := by
  induction left generalizing right with
  | nil =>
    have hnil := List.eq_nil_of_length_eq_zero hlength.symm
    subst hnil
    exact ⟨rfl, heq⟩
  | cons value left ih =>
    cases right with
    | nil => simp at hlength
    | cons other right =>
      rw [List.flatMap_cons, List.flatMap_cons, List.append_assoc, List.append_assoc] at heq
      have hfirst := h heq
      have hrest := ih (by simpa using hlength) hfirst.2
      exact ⟨by rw [List.map_cons, List.map_cons, hfirst.1, hrest.1], hrest.2⟩

/-- As many values on both sides can be read where nothing follows them. -/
theorem Ends.repeated_to_end (h : Ends encode key) {left right : List α}
    (hlength : left.length = right.length) (heq : left.flatMap encode = right.flatMap encode) :
    left.map key = right.map key := by
  have happend : left.flatMap encode ++ [] = right.flatMap encode ++ [] := by rw [heq]
  exact (h.repeated hlength happend).1

/-- A list of values whose encodings are never empty can be read to its end. -/
theorem Ends.map_eq_of_flatMap (h : Ends encode key) (hne : ∀ value, encode value ≠ [])
    {left right : List α} (heq : left.flatMap encode = right.flatMap encode) :
    left.map key = right.map key := by
  induction left generalizing right with
  | nil =>
    cases right with
    | nil => rfl
    | cons other right => simp [hne] at heq
  | cons value left ih =>
    cases right with
    | nil => simp [hne] at heq
    | cons other right =>
      rw [List.flatMap_cons, List.flatMap_cons] at heq
      have hfirst := h heq
      rw [List.map_cons, List.map_cons, hfirst.1, ih hfirst.2]

end SelfDelimiting
