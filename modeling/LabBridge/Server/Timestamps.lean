import LabBridge.Library.ByteText
import Mathlib.Data.List.GetD

/-!
# Accepted timestamps

The check that start requests apply to their times: twenty bytes of the form
`YYYY-MM-DDTHH:MM:SSZ` that name an existing day and a time of that day.
-/

namespace LabBridge.Server

open ByteText

/-- The number written in some bytes of a text, or `-1` at a byte that is no digit. -/
def decimalComponent (value : Bytes) (offset length : ℕ) : ℤ :=
  digits ((value.drop offset).take length) 0
where
  digits : Bytes → ℤ → ℤ
    | [], result => result
    | b :: rest, result =>
      if IsDigit b then digits rest (result * 10 + (b.toNat - 48)) else -1

/-- Leap years of the Gregorian calendar. -/
def isLeapYear (year : ℤ) : Bool :=
  (year % 4 == 0 && year % 100 != 0) || year % 400 == 0

/-- The length of each month outside leap years. -/
def daysByMonth : List ℤ := [31, 28, 31, 30, 31, 30, 31, 31, 30, 31, 30, 31]

/-- The days of a month in a year. -/
def maximumDay (year month : ℤ) : ℤ :=
  if month == 2 && isLeapYear year then 29 else daysByMonth.getD (month - 1).toNat 0

/-- Whether a text is a UTC time to the second of an existing day. -/
def isRfc3339Utc (value : Bytes) : Bool :=
  if value.length != 20 || value.getD 4 0 != byte '-' || value.getD 7 0 != byte '-' ||
      value.getD 10 0 != byte 'T' || value.getD 13 0 != byte ':' ||
      value.getD 16 0 != byte ':' || value.getD 19 0 != byte 'Z' then false
  else
    let year := decimalComponent value 0 4
    let month := decimalComponent value 5 2
    let day := decimalComponent value 8 2
    let hour := decimalComponent value 11 2
    let minute := decimalComponent value 14 2
    let second := decimalComponent value 17 2
    if year < 1 || month < 1 || month > 12 || hour < 0 || hour > 23 ||
        minute < 0 || minute > 59 || second < 0 || second > 59 then false
    else day ≥ 1 && day ≤ maximumDay year month

example : isRfc3339Utc (text "2024-02-29T23:59:59Z") = true ∧
    isRfc3339Utc (text "2023-02-29T00:00:00Z") = false := by decide

/-- An accepted time has twenty bytes. -/
theorem length_of_isRfc3339Utc {value : Bytes} (h : isRfc3339Utc value = true) :
    value.length = 20 := by
  unfold isRfc3339Utc at h
  split at h
  · cases h
  · rename_i hshape
    simp only [Bool.or_eq_true, not_or, bne_iff_ne, ne_eq, not_not] at hshape
    exact hshape.1.1.1.1.1.1

/-- A number other than `-1` was read from digits only. -/
private theorem isDigit_of_digits {bytes : Bytes} {result : ℤ} (hresult : 0 ≤ result)
    (h : 0 ≤ decimalComponent.digits bytes result) : ∀ b ∈ bytes, IsDigit b := by
  induction bytes generalizing result with
  | nil => simp
  | cons b rest ih =>
    unfold decimalComponent.digits at h
    split at h
    · rename_i hdigit
      have hlow := UInt8.le_iff_toNat_le.mp hdigit.1
      have hnext : 0 ≤ result * 10 + ((b.toNat : ℤ) - 48) := by
        have : (48 : UInt8).toNat = 48 := rfl
        omega
      intro c hc
      rcases List.mem_cons.mp hc with rfl | hc
      · exact hdigit
      · exact ih hnext h c hc
    · omega

/-- Every byte of a component that was read is a digit. -/
theorem isDigit_of_decimalComponent {value : Bytes} {offset length index : ℕ}
    (h : 0 ≤ decimalComponent value offset length) (hindex : index < value.length)
    (hlow : offset ≤ index) (hhigh : index < offset + length) : IsDigit value[index] := by
  refine isDigit_of_digits (Int.le_refl 0) h _ ?_
  refine List.mem_iff_getElem.mpr ⟨index - offset, ?_, ?_⟩
  · simp only [List.length_take, List.length_drop]
    omega
  · simp only [List.getElem_take, List.getElem_drop]
    congr 1
    omega

/-- A digit is plain ASCII. -/
theorem ascii_of_isDigit {b : UInt8} (h : IsDigit b) : 0 < b ∧ b < 128 :=
  ⟨UInt8.lt_of_lt_of_le (show (0 : UInt8) < 48 by decide) h.1,
    UInt8.lt_of_le_of_lt h.2 (show (57 : UInt8) < 128 by decide)⟩

/-- An accepted time is plain ASCII. -/
theorem ascii_of_isRfc3339Utc {value : Bytes} (h : isRfc3339Utc value = true) :
    ∀ b ∈ value, 0 < b ∧ b < 128 := by
  unfold isRfc3339Utc at h
  split at h
  · cases h
  rename_i hshape
  simp only at h
  split at h
  · cases h
  rename_i hrange
  simp only [Bool.or_eq_true, not_or, bne_iff_ne, ne_eq, not_not, decide_eq_true_eq]
    at hshape hrange
  simp only [Bool.and_eq_true, decide_eq_true_eq] at h
  obtain ⟨⟨⟨⟨⟨⟨hlength, h4⟩, h7⟩, h10⟩, h13⟩, h16⟩, h19⟩ := hshape
  have separator {index : ℕ} {c : UInt8} (hindex : index < value.length)
      (hc : value.getD index 0 = c) (hascii : 0 < c ∧ c < 128) :
      0 < value[index] ∧ value[index] < 128 := by
    rw [List.getD_eq_getElem _ _ hindex] at hc
    exact hc ▸ hascii
  have component (offset length : ℕ) {index : ℕ} (hindex : index < value.length)
      (hread : 0 ≤ decimalComponent value offset length) (hlow : offset ≤ index)
      (hhigh : index < offset + length) : 0 < value[index] ∧ value[index] < 128 :=
    ascii_of_isDigit (isDigit_of_decimalComponent hread hindex hlow hhigh)
  intro b hb
  obtain ⟨index, hindex, rfl⟩ := List.mem_iff_getElem.mp hb
  have hposition : index < 4 ∨ index = 4 ∨ (5 ≤ index ∧ index < 7) ∨ index = 7 ∨
      (8 ≤ index ∧ index < 10) ∨ index = 10 ∨ (11 ≤ index ∧ index < 13) ∨ index = 13 ∨
      (14 ≤ index ∧ index < 16) ∨ index = 16 ∨ (17 ≤ index ∧ index < 19) ∨ index = 19 := by
    omega
  rcases hposition with hp | rfl | ⟨hl, hh⟩ | rfl | ⟨hl, hh⟩ | rfl | ⟨hl, hh⟩ | rfl |
    ⟨hl, hh⟩ | rfl | ⟨hl, hh⟩ | rfl
  · exact component 0 4 hindex (by omega) (Nat.zero_le _) (by omega)
  · exact separator hindex h4 (by decide)
  · exact component 5 2 hindex (by omega) hl hh
  · exact separator hindex h7 (by decide)
  · exact component 8 2 hindex (by omega) hl hh
  · exact separator hindex h10 (by decide)
  · exact component 11 2 hindex (by omega) hl hh
  · exact separator hindex h13 (by decide)
  · exact component 14 2 hindex (by omega) hl hh
  · exact separator hindex h16 (by decide)
  · exact component 17 2 hindex (by omega) hl hh
  · exact separator hindex h19 (by decide)

end LabBridge.Server
