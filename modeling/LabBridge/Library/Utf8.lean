import LabBridge.Library.ByteText
import Mathlib.Tactic.SplitIfs

/-!
# Where a text can be cut

A character is encoded as a first byte and continuation bytes, and the two kinds are told
apart by their value. So a text can be cut exactly in front of a byte that does not continue a
character, in particular around every ASCII byte.
-/

namespace ByteText

/-- A byte that continues a character. -/
def Continues (b : UInt8) : Prop := 128 ≤ b ∧ b < 192

instance : DecidablePred Continues := fun b => inferInstanceAs (Decidable (128 ≤ b ∧ b < 192))

/-- An ASCII byte continues nothing. -/
theorem not_continues_of_ascii {b : UInt8} (h : b < 128) : ¬Continues b := by
  intro hb
  have hlow := UInt8.le_iff_toNat_le.mp hb.1
  have hhigh := UInt8.lt_iff_toNat_lt.mp h
  exact absurd (Nat.lt_of_le_of_lt hlow hhigh) (Nat.lt_irrefl _)

theorem continues_ofNat {n : ℕ} (h : n < 256) : Continues (UInt8.ofNat n) ↔ 128 ≤ n ∧ n < 192 := by
  rw [Continues, UInt8.le_iff_toNat_le, UInt8.lt_iff_toNat_lt, UInt8.toNat_ofNat',
    Nat.mod_eq_of_lt h]
  rfl

/-- The first byte of a character does not continue one, the others do. -/
theorem utf8EncodeChar_eq_cons (c : Char) : ∃ lead tail, String.utf8EncodeChar c = lead :: tail ∧
    ¬Continues lead ∧ ∀ b ∈ tail, Continues b := by
  unfold String.utf8EncodeChar
  dsimp only
  split_ifs with hone htwo hthree
  · exact ⟨_, _, rfl, by rw [continues_ofNat (by omega)]; omega, by simp⟩
  all_goals
    refine ⟨_, _, rfl, ?_, ?_⟩
    · rw [continues_ofNat (by omega)]
      omega
    · intro b hb
      simp only [List.mem_cons, List.not_mem_nil, or_false] at hb
      rcases hb with rfl | rfl | rfl <;> rw [continues_ofNat (by omega)] <;> omega

/-- A text does not start inside a character. -/
theorem Utf8.head {s : Bytes} (h : Utf8 s) : ∀ b ∈ s.head?, ¬Continues b := by
  obtain ⟨chars, rfl⟩ := h
  cases chars with
  | nil => simp
  | cons c rest =>
    obtain ⟨lead, tail, hencoded, hlead, -⟩ := utf8EncodeChar_eq_cons c
    simpa [hencoded] using hlead

/-- What follows a text in a text is a text. -/
theorem utf8_append_iff {s t : Bytes} (hs : Utf8 s) : Utf8 (s ++ t) ↔ Utf8 t := by
  refine ⟨fun h => ?_, hs.append⟩
  obtain ⟨chars, rfl⟩ := hs
  induction chars with
  | nil => exact h
  | cons c rest ih =>
    apply ih
    rw [utf8_iff_isValidUTF8] at h ⊢
    apply (ByteArray.isValidUTF8_utf8Encode_singleton_append_iff (c := c)).mp
    convert h using 1
    ext1
    simp [List.utf8Encode]

/-- A text is cut into texts in front of a byte that continues nothing. -/
theorem Utf8.cut {s t : Bytes} (h : Utf8 (s ++ t)) (ht : ∀ b ∈ t.head?, ¬Continues b) :
    Utf8 s ∧ Utf8 t := by
  suffices hs : Utf8 s from ⟨hs, (utf8_append_iff hs).mp h⟩
  obtain ⟨chars, hchars⟩ := h
  induction chars generalizing s with
  | nil =>
    obtain ⟨rfl, -⟩ := List.append_eq_nil_iff.mp hchars
    exact utf8_nil
  | cons c rest ih =>
    obtain ⟨lead, tail, hencoded, -, htail⟩ := utf8EncodeChar_eq_cons c
    rw [List.flatMap_cons] at hchars
    -- either the cut lies behind the first character, or the rest starts inside it
    rcases List.append_eq_append_iff.mp hchars with ⟨more, hcharacter, hrest⟩ | ⟨more, hcut, hrest⟩
    · cases more with
      | nil => exact ⟨[c], by simpa using hcharacter.symm⟩
      | cons b more =>
        cases s with
        | nil => exact utf8_nil
        | cons first s =>
          have hmem : b ∈ tail := by
            rw [hencoded, List.cons_append, List.cons.injEq] at hcharacter
            rw [hcharacter.2]
            exact List.mem_append_right _ List.mem_cons_self
          exact absurd (htail b hmem) (ht b (by rw [hrest]; rfl))
    · rw [hcut]
      exact Utf8.append ⟨[c], by simp⟩ (ih hrest.symm)

/-- A text is cut into texts around an ASCII byte. -/
theorem Utf8.cut_ascii {s t : Bytes} {b : UInt8} (h : Utf8 (s ++ b :: t)) (hb : b < 128) :
    Utf8 s ∧ Utf8 t := by
  obtain ⟨hs, ht⟩ := h.cut fun c hc => by
    obtain rfl : b = c := by simpa using hc
    exact not_continues_of_ascii hb
  have hone : Utf8 [b] := utf8_ascii fun c hc => by
    rw [List.mem_singleton.mp hc]
    exact hb
  exact ⟨hs, (utf8_append_iff hone).mp ht⟩

/-- The first bytes of a text are a text exactly when the next byte continues nothing. -/
theorem utf8_take_iff {s : Bytes} (h : Utf8 s) (n : ℕ) :
    Utf8 (s.take n) ↔ ∀ b ∈ s[n]?, ¬Continues b := by
  rw [← List.head?_drop]
  rw [← List.take_append_drop n s] at h
  constructor
  · intro htake
    exact ((utf8_append_iff htake).mp h).head
  · exact fun hdrop => (h.cut hdrop).1

end ByteText
