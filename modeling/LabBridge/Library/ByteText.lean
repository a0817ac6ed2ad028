import Mathlib.Data.List.Basic
import Mathlib.Data.Char
import Mathlib.Algebra.Group.Int.Defs
import Mathlib.Algebra.Group.Nat.Defs
import Mathlib.Algebra.GroupWithZero.Nat

/-!
# Byte strings, decimal numerals and UTF-8 texts

A byte string carries no promise about its encoding. Literals enter as their UTF-8
bytes, numbers as decimal numerals, and `Utf8` singles out the byte strings that encode
a sequence of Unicode scalar values.
-/

namespace ByteText

/-- A string of bytes, ordered and compared byte by byte. -/
abbrev Bytes := List UInt8

/-- The UTF-8 bytes of a literal. -/
def text (literal : String) : Bytes := literal.toByteArray.data.toList

/-- The byte of an ASCII character. -/
def byte (c : Char) : UInt8 := UInt8.ofNat c.toNat

/-- The decimal numeral of a natural number. -/
def decimal (n : ℕ) : Bytes := (Nat.toDigits 10 n).map byte

/-- The decimal numeral of an integer, with a leading minus sign below zero. -/
def decimalInt : ℤ → Bytes
  | .ofNat n => decimal n
  | .negSucc n => byte '-' :: decimal (n + 1)

/-- The bytes `0` to `9`. -/
def IsDigit (b : UInt8) : Prop := 48 ≤ b ∧ b ≤ 57

instance : DecidablePred IsDigit := fun b => inferInstanceAs (Decidable (48 ≤ b ∧ b ≤ 57))

/-- A numeral is never empty. -/
@[simp] theorem decimal_ne_nil (n : ℕ) : decimal n ≠ [] := by
  simp [decimal, Nat.toDigits_ne_nil]

/-- The integer numeral is never empty either. -/
@[simp] theorem decimalInt_ne_nil (n : ℤ) : decimalInt n ≠ [] := by
  cases n <;> simp [decimalInt]

/-- A digit character lies in the decimal range. -/
private theorem isDigit_toNat {c : Char} (h : c.isDigit = true) : 48 ≤ c.toNat ∧ c.toNat ≤ 57 := by
  simp only [Char.isDigit, Bool.and_eq_true, decide_eq_true_eq] at h
  exact ⟨UInt32.le_iff_toNat_le.mp h.1, UInt32.le_iff_toNat_le.mp h.2⟩

/-- Every byte of a numeral is a digit. -/
theorem isDigit_of_mem_decimal {n : ℕ} {b : UInt8} (h : b ∈ decimal n) : IsDigit b := by
  obtain ⟨c, hc, rfl⟩ := List.mem_map.mp h
  have hd := isDigit_toNat (Nat.isDigit_of_mem_toDigits (by omega) (by omega) hc)
  have hv : (byte c).toNat = c.toNat := by
    simp only [byte, UInt8.toNat_ofNat']
    omega
  constructor <;> rw [UInt8.le_iff_toNat_le] <;> simp [hv] <;> omega

/-- The value a string of digit bytes denotes in base ten. -/
def numeralValue (digits : Bytes) : ℕ :=
  digits.foldl (fun acc b => 10 * acc + (b.toNat - 48)) 0

private theorem foldl_numeral (cs : List Char) (hcs : ∀ c ∈ cs, c.isDigit = true) (acc : ℕ) :
    (cs.map byte).foldl (fun acc b => 10 * acc + (b.toNat - 48)) acc =
      Nat.ofDigitChars 10 cs acc := by
  induction cs generalizing acc with
  | nil => rfl
  | cons c rest ih =>
    have hd := isDigit_toNat (hcs c (by simp))
    have hv : (byte c).toNat = c.toNat := by
      simp only [byte, UInt8.toNat_ofNat']
      omega
    have hz : '0'.toNat = 48 := rfl
    rw [List.map_cons, List.foldl_cons, ih (fun d hm => hcs d (by simp [hm])), hv,
      Nat.ofDigitChars_cons, hz]

/-- Reading a numeral back gives the number. -/
@[simp] theorem numeralValue_decimal (n : ℕ) : numeralValue (decimal n) = n := by
  rw [numeralValue, decimal, foldl_numeral _
    (fun c hc => Nat.isDigit_of_mem_toDigits (by omega) (by omega) hc)]
  exact Nat.ofDigitChars_ten_toDigits

/-- Different numbers have different numerals. -/
theorem decimal_injective : Function.Injective decimal := by
  intro m n h
  rw [← numeralValue_decimal m, h, numeralValue_decimal]

/-- Numerals agree exactly when the numbers do. -/
@[simp] theorem decimal_inj {m n : ℕ} : decimal m = decimal n ↔ m = n :=
  decimal_injective.eq_iff

/-- The byte strings that encode a sequence of Unicode scalar values. -/
def Utf8 (s : Bytes) : Prop := ∃ chars : List Char, s = chars.flatMap String.utf8EncodeChar

/-- The empty string is a text. -/
@[simp] theorem utf8_nil : Utf8 [] := ⟨[], rfl⟩

/-- Texts are closed under concatenation. -/
theorem Utf8.append {s t : Bytes} (hs : Utf8 s) (ht : Utf8 t) : Utf8 (s ++ t) := by
  obtain ⟨cs, rfl⟩ := hs
  obtain ⟨ds, rfl⟩ := ht
  exact ⟨cs ++ ds, by simp⟩

/-- Validity of the array form decides validity of the list form. -/
theorem utf8_iff_isValidUTF8 (s : Bytes) : Utf8 s ↔ ByteArray.IsValidUTF8 s.toByteArray := by
  constructor
  · rintro ⟨chars, rfl⟩
    exact ⟨chars, rfl⟩
  · rintro ⟨chars, h⟩
    refine ⟨chars, ?_⟩
    simpa [List.utf8Encode] using h

instance : DecidablePred Utf8 := fun s => decidable_of_iff' _ (utf8_iff_isValidUTF8 s)

/-- A literal is a text. -/
@[simp] theorem utf8_text (literal : String) : Utf8 (text literal) := by
  rw [utf8_iff_isValidUTF8]
  have h : (text literal).toByteArray = literal.toByteArray := by
    ext1
    simp [text]
  rw [h]
  exact literal.isValidUTF8

/-- An ASCII byte encodes its own character. -/
private theorem utf8EncodeChar_ascii :
    ∀ n < 128, String.utf8EncodeChar (Char.ofNat n) = [UInt8.ofNat n] := by decide

/-- Plain ASCII is a text. -/
theorem utf8_ascii {s : Bytes} (h : ∀ b ∈ s, b < 128) : Utf8 s := by
  induction s with
  | nil => exact utf8_nil
  | cons b rest ih =>
    have hchar := utf8EncodeChar_ascii b.toNat (UInt8.lt_iff_toNat_lt.mp (h b (by simp)))
    rw [UInt8.ofNat_toNat] at hchar
    have hfirst : Utf8 [b] := ⟨[Char.ofNat b.toNat], by simp [hchar]⟩
    exact hfirst.append (ih fun c hc => h c (by simp [hc]))

end ByteText
