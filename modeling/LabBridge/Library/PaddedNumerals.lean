import LabBridge.Library.ByteText
import Mathlib.Data.List.Induction
import Mathlib.Tactic.Ring

/-!
# Numerals of a fixed width

Leading zeros give a numeral at least a width. A number below the power of ten of the width has
exactly one numeral of that width, and every digit string is the padded numeral of its value.
-/

namespace ByteText

/-- The numeral of a number with leading zeros up to a width. -/
def padded (width n : ℕ) : Bytes :=
  List.replicate (width - (decimal n).length) (byte '0') ++ decimal n

/-- Every byte of a padded numeral is a digit. -/
theorem isDigit_of_mem_padded {width n : ℕ} {b : UInt8} (h : b ∈ padded width n) : IsDigit b := by
  rcases List.mem_append.mp h with hzero | hdigit
  · rw [List.eq_of_mem_replicate hzero]
    decide
  · exact isDigit_of_mem_decimal hdigit

/-- A padded numeral is not shorter than its width. -/
theorem le_length_padded (width n : ℕ) : width ≤ (padded width n).length := by
  rw [padded, List.length_append, List.length_replicate]
  omega

/-- A value with one more digit. -/
theorem numeralValue_append_singleton (digits : Bytes) (b : UInt8) :
    numeralValue (digits ++ [b]) = 10 * numeralValue digits + (b.toNat - 48) := by
  simp [numeralValue]

/-- The value of a digit. -/
theorem digit_lt_ten {b : UInt8} (h : IsDigit b) : 48 ≤ b.toNat ∧ b.toNat - 48 < 10 := by
  have hlow := UInt8.le_iff_toNat_le.mp h.1
  have hhigh := UInt8.le_iff_toNat_le.mp h.2
  have hbounds : (48 : UInt8).toNat = 48 ∧ (57 : UInt8).toNat = 57 := ⟨rfl, rfl⟩
  omega

/-- The value of a digit string is below the power of ten of its length. -/
theorem numeralValue_lt {digits : Bytes} (h : ∀ b ∈ digits, IsDigit b) :
    numeralValue digits < 10 ^ digits.length := by
  induction digits using List.reverseRecOn with
  | nil => decide
  | append_singleton digits b ih =>
    have hdigits := ih fun c hc => h c (List.mem_append_left _ hc)
    have hb := digit_lt_ten (h b (by simp))
    rw [numeralValue_append_singleton, List.length_append, List.length_singleton, pow_succ]
    omega

/-- Digit strings of one length with the same value are the same. -/
theorem eq_of_numeralValue_eq {left : Bytes} : ∀ {right : Bytes}, left.length = right.length →
    (∀ b ∈ left, IsDigit b) → (∀ b ∈ right, IsDigit b) →
    numeralValue left = numeralValue right → left = right := by
  induction left using List.reverseRecOn with
  | nil =>
    intro right hlength _ _ _
    exact (List.eq_nil_of_length_eq_zero hlength.symm).symm
  | append_singleton left b ih =>
    intro right hlength hleft hright hvalue
    rcases List.eq_nil_or_concat right with rfl | ⟨rest, c, rfl⟩
    · simp at hlength
    · rw [List.concat_eq_append] at *
      rw [numeralValue_append_singleton, numeralValue_append_singleton] at hvalue
      have hb := digit_lt_ten (hleft b (by simp))
      have hc := digit_lt_ten (hright c (by simp))
      have hlast : b = c := UInt8.toNat_inj.mp (by omega)
      have hrest : left = rest := by
        apply ih (by simpa using hlength) (fun d hd => hleft d (List.mem_append_left _ hd))
          (fun d hd => hright d (List.mem_append_left _ hd))
        omega
      rw [hlast, hrest]

/-- A value with one more digit in front. -/
theorem numeralValue_cons (b : UInt8) (digits : Bytes) :
    numeralValue (b :: digits) = (b.toNat - 48) * 10 ^ digits.length + numeralValue digits := by
  induction digits using List.reverseRecOn with
  | nil => simp [numeralValue]
  | append_singleton digits c ih =>
    rw [← List.cons_append, numeralValue_append_singleton, numeralValue_append_singleton, ih,
      List.length_append, List.length_singleton, pow_succ]
    ring

/-- Digit strings of one length are ordered like their values. -/
theorem lt_iff_numeralValue_lt {left right : Bytes} (hlength : left.length = right.length)
    (hleft : ∀ b ∈ left, IsDigit b) (hright : ∀ b ∈ right, IsDigit b) :
    left < right ↔ numeralValue left < numeralValue right := by
  induction left generalizing right with
  | nil =>
    have hnil := List.eq_nil_of_length_eq_zero hlength.symm
    simp [hnil]
  | cons b left ih =>
    cases right with
    | nil => simp at hlength
    | cons c right =>
      have hlength' : left.length = right.length := by simpa using hlength
      have hb := digit_lt_ten (hleft b (by simp))
      have hc := digit_lt_ten (hright c (by simp))
      have hleft' : ∀ d ∈ left, IsDigit d := fun d hd => hleft d (List.mem_cons_of_mem _ hd)
      have hright' : ∀ d ∈ right, IsDigit d := fun d hd => hright d (List.mem_cons_of_mem _ hd)
      have hleftValue := numeralValue_lt hleft'
      have hrightValue := numeralValue_lt hright'
      rw [List.cons_lt_cons_iff, ih hlength' hleft' hright', numeralValue_cons, numeralValue_cons,
        hlength', UInt8.lt_iff_toNat_lt, ← UInt8.toNat_inj]
      rw [hlength'] at hleftValue
      obtain hlt | heq | hgt := lt_trichotomy b.toNat c.toNat
      · -- A larger first digit outweighs every rest of one length.
        have hstep : (b.toNat - 48 + 1) * 10 ^ right.length ≤
            (c.toNat - 48) * 10 ^ right.length := Nat.mul_le_mul_right _ (by omega)
        rw [Nat.add_mul] at hstep
        simp only [hlt, true_or, true_iff]
        omega
      · simp [heq]
      · have hstep : (c.toNat - 48 + 1) * 10 ^ right.length ≤
            (b.toNat - 48) * 10 ^ right.length := Nat.mul_le_mul_right _ (by omega)
        rw [Nat.add_mul] at hstep
        constructor
        · rintro (h | h) <;> omega
        · omega

/-- Leading zeros do not change a value. -/
theorem numeralValue_replicate_append (count : ℕ) (digits : Bytes) :
    numeralValue (List.replicate count (byte '0') ++ digits) = numeralValue digits := by
  induction count with
  | zero => rfl
  | succ count ih =>
    rw [List.replicate_succ, List.cons_append, ← ih]
    rfl

/-- The value of a padded numeral. -/
@[simp] theorem numeralValue_padded (width n : ℕ) : numeralValue (padded width n) = n := by
  rw [padded, numeralValue_replicate_append, numeralValue_decimal]

/-- A number below a power of ten has no more digits than the power. -/
theorem length_decimal_le {width n : ℕ} (hwidth : 0 < width) (h : n < 10 ^ width) :
    (decimal n).length ≤ width := by
  rw [decimal, List.length_map]
  exact Nat.length_toDigits_le_iff (by omega) hwidth |>.mpr h

/-- A number below the power of ten of a width has a numeral of that width. -/
theorem length_padded {width n : ℕ} (hwidth : 0 < width) (h : n < 10 ^ width) :
    (padded width n).length = width := by
  have hshort := length_decimal_le hwidth h
  rw [padded, List.length_append, List.length_replicate]
  omega

/-- A number from the power of ten of a width on has a longer numeral. -/
theorem lt_length_padded {width n : ℕ} (h : 10 ^ width ≤ n) : width < (padded width n).length := by
  have hdigits : ∀ b ∈ padded width n, IsDigit b := fun b hb => isDigit_of_mem_padded hb
  have hlt := numeralValue_lt hdigits
  rw [numeralValue_padded] at hlt
  exact (Nat.pow_lt_pow_iff_right (by omega)).mp (lt_of_le_of_lt h hlt)

/-- A digit string is the padded numeral of its value. -/
theorem padded_numeralValue {digits : Bytes} (hne : digits ≠ []) (h : ∀ b ∈ digits, IsDigit b) :
    padded digits.length (numeralValue digits) = digits := by
  apply eq_of_numeralValue_eq _ (fun b hb => isDigit_of_mem_padded hb) h
    (numeralValue_padded _ _)
  exact length_padded (List.length_pos_iff.mpr hne) (numeralValue_lt h)

end ByteText
