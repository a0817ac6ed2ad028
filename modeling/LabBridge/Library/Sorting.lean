import Mathlib.Data.Set.Basic
import Mathlib.Data.List.Nodup
import Mathlib.Order.Defs.LinearOrder

/-!
# Comparisons that sort

A sort by a comparison is defined where the comparison is a strict weak order on the values of
the list. A comparison that distinguishes any two values is one exactly when it has no cycle of
three values, and then a list has one sorted order.
-/

namespace Sorting

variable {α : Type*}

/-- A comparison is a strict weak order on some values. -/
structure StrictWeakOn (before : α → α → Bool) (members : Set α) : Prop where
  irrefl : ∀ a ∈ members, before a a = false
  asymm : ∀ a ∈ members, ∀ b ∈ members, before a b = true → before b a = false
  trans : ∀ a ∈ members, ∀ b ∈ members, ∀ c ∈ members,
    before a b = true → before b c = true → before a c = true
  incomparable_trans : ∀ a ∈ members, ∀ b ∈ members, ∀ c ∈ members,
    before a b = false ∧ before b a = false → before b c = false ∧ before c b = false →
      before a c = false ∧ before c a = false

/-- A comparison puts any two different values in one order. -/
structure Distinguishes (before : α → α → Bool) : Prop where
  irrefl : ∀ a, before a a = false
  asymm : ∀ a b, before a b = true → before b a = false
  eq : ∀ a b, before a b = false → before b a = false → a = b

/-- Three values of a set come before each other in a circle. -/
def Cycles (before : α → α → Bool) (members : Set α) : Prop :=
  ∃ a ∈ members, ∃ b ∈ members, ∃ c ∈ members,
    before a b = true ∧ before b c = true ∧ before c a = true

/-- A list holds the values of another one in the order of a comparison. -/
def Sorts (before : α → α → Bool) (input output : List α) : Prop :=
  output.Perm input ∧ output.Pairwise fun a b => before b a = false

variable {before : α → α → Bool} {members : Set α}

theorem StrictWeakOn.mono {fewer : Set α} (h : StrictWeakOn before members)
    (hfewer : fewer ⊆ members) : StrictWeakOn before fewer where
  irrefl a ha := h.irrefl a (hfewer ha)
  asymm a ha b hb := h.asymm a (hfewer ha) b (hfewer hb)
  trans a ha b hb c hc := h.trans a (hfewer ha) b (hfewer hb) c (hfewer hc)
  incomparable_trans a ha b hb c hc :=
    h.incomparable_trans a (hfewer ha) b (hfewer hb) c (hfewer hc)

/-- What does not come later stays so along a chain. -/
theorem StrictWeakOn.not_after_trans (h : StrictWeakOn before members) {a b c : α}
    (ha : a ∈ members) (hb : b ∈ members) (hc : c ∈ members) (hab : before b a = false)
    (hbc : before c b = false) : before c a = false := by
  by_contra hca
  rw [Bool.not_eq_false] at hca
  cases hba : before a b with
  | true =>
    have := h.trans c hc a ha b hb hca hba
    simp [this] at hbc
  | false =>
    cases hcb : before b c with
    | true =>
      have := h.trans b hb c hc a ha hcb hca
      simp [this] at hab
    | false =>
      have := (h.incomparable_trans a ha b hb c hc ⟨hba, hab⟩ ⟨hcb, hbc⟩).2
      simp [this] at hca

/-- A comparison that distinguishes all values is a strict weak order where it has no cycle. -/
theorem Distinguishes.strictWeakOn_iff (h : Distinguishes before) :
    StrictWeakOn before members ↔ ¬Cycles before members := by
  constructor
  · rintro hweak ⟨a, ha, b, hb, c, hc, hab, hbc, hca⟩
    have hac := h.asymm c a hca
    rw [hweak.trans a ha b hb c hc hab hbc] at hac
    exact Bool.noConfusion hac
  · intro hcycle
    have htrans : ∀ a ∈ members, ∀ b ∈ members, ∀ c ∈ members,
        before a b = true → before b c = true → before a c = true := by
      intro a ha b hb c hc hab hbc
      by_contra hac
      rw [Bool.not_eq_true] at hac
      cases hca : before c a with
      | true => exact hcycle ⟨a, ha, b, hb, c, hc, hab, hbc, hca⟩
      | false =>
        have heq := h.eq a c hac hca
        subst heq
        simp [h.asymm a b hab] at hbc
    constructor
    · exact fun a _ => h.irrefl a
    · exact fun a _ b _ => h.asymm a b
    · exact htrans
    · intro a _ b _ c _ hab hbc
      have heq := h.eq a b hab.1 hab.2
      exact heq ▸ hbc

/-- Compare by a key, and values of one key by something else. -/
def byKey {β γ : Type*} [LinearOrder β] (key : α → β) (value : α → γ) (inner : γ → γ → Bool)
    (a b : α) : Bool :=
  if key a ≠ key b then decide (key a < key b) else inner (value a) (value b)

section ByKey

variable {β γ : Type*} [LinearOrder β] {key : α → β} {value : α → γ} {inner : γ → γ → Bool}
variable {a b : α}

theorem byKey_eq_true : byKey key value inner a b = true ↔
    key a < key b ∨ key a = key b ∧ inner (value a) (value b) = true := by
  rw [byKey]
  by_cases heq : key a = key b
  · simp [heq]
  · simp [heq]

theorem byKey_eq_false : byKey key value inner a b = false ↔
    key b < key a ∨ key a = key b ∧ inner (value a) (value b) = false := by
  rw [byKey]
  by_cases heq : key a = key b
  · simp [heq]
  · rw [if_pos heq, decide_eq_false_iff_not, not_lt]
    constructor
    · exact fun hle => .inl (lt_of_le_of_ne hle (Ne.symm heq))
    · rintro (hlt | hsame)
      · exact hlt.le
      · exact absurd hsame.1 heq

/-- Values that no comparison separates have one key. -/
theorem same_of_incomparable (hab : byKey key value inner a b = false)
    (hba : byKey key value inner b a = false) :
    key a = key b ∧ inner (value a) (value b) = false ∧ inner (value b) (value a) = false := by
  rw [byKey_eq_false] at hab hba
  rcases hab with hlt | ⟨heq, hab⟩
  · rcases hba with hgt | ⟨heq, -⟩
    · exact absurd hlt hgt.not_gt
    · exact absurd heq.symm hlt.ne'
  · rcases hba with hgt | ⟨-, hba⟩
    · exact absurd heq hgt.ne
    · exact ⟨heq, hab, hba⟩

/-- Comparing by a key first keeps a strict weak order. -/
theorem StrictWeakOn.byKey {values : Set γ} (h : StrictWeakOn inner values)
    (hvalue : ∀ a ∈ members, value a ∈ values) :
    StrictWeakOn (byKey key value inner) members where
  irrefl a ha := byKey_eq_false.mpr (.inr ⟨rfl, h.irrefl _ (hvalue a ha)⟩)
  asymm a ha b hb hab := by
    rw [byKey_eq_true] at hab
    rw [byKey_eq_false]
    apply hab.imp_right
    exact fun hsame => ⟨hsame.1.symm, h.asymm _ (hvalue a ha) _ (hvalue b hb) hsame.2⟩
  trans a ha b hb c hc hab hbc := by
    rw [byKey_eq_true] at hab hbc ⊢
    rcases hab with hab | ⟨hab, hinner⟩
    · rcases hbc with hbc | ⟨hbc, -⟩
      · exact .inl (hab.trans hbc)
      · exact .inl (hbc ▸ hab)
    · rcases hbc with hbc | ⟨hbc, hinner'⟩
      · exact .inl (hab ▸ hbc)
      · exact .inr ⟨hab.trans hbc,
          h.trans _ (hvalue a ha) _ (hvalue b hb) _ (hvalue c hc) hinner hinner'⟩
  incomparable_trans a ha b hb c hc hab hbc := by
    obtain ⟨hkey, hinner⟩ := same_of_incomparable hab.1 hab.2
    obtain ⟨hkey', hinner'⟩ := same_of_incomparable hbc.1 hbc.2
    have hsame := h.incomparable_trans _ (hvalue a ha) _ (hvalue b hb) _ (hvalue c hc) hinner hinner'
    rw [byKey_eq_false, byKey_eq_false]
    exact ⟨.inr ⟨hkey.trans hkey', hsame.1⟩, .inr ⟨(hkey.trans hkey').symm, hsame.2⟩⟩

end ByKey

/-- A list has at most one sorted order when different values are distinguished. -/
theorem Sorts.unique {input first second : List α}
    (heq : ∀ a ∈ input, ∀ b ∈ input, before a b = false → before b a = false → a = b)
    (hfirst : Sorts before input first) (hsecond : Sorts before input second) :
    first = second := by
  apply List.Perm.eq_of_pairwise _ hfirst.2 hsecond.2 (hfirst.1.trans hsecond.1.symm)
  intro a b ha hb hab hba
  exact heq a (hfirst.1.mem_iff.mp ha) b (hsecond.1.mem_iff.mp hb) hba hab

/-- A merge sort sorts a list on whose values the comparison is a strict weak order. -/
theorem sorts_mergeSort {input : List α} (h : StrictWeakOn before {a | a ∈ input}) :
    Sorts before input (input.mergeSort fun a b => !before b a) := by
  constructor
  · exact List.mergeSort_perm _ _
  · -- The comparison is transitive on the members only, so the values are sorted as members.
    let memberBefore (a b : {a // a ∈ input}) : Bool := !before b.1 a.1
    have hmembers : (input.attach.mergeSort memberBefore).map Subtype.val =
        input.mergeSort fun a b => !before b a := by
      have hmap := List.map_mergeSort (f := Subtype.val) (r := memberBefore)
        (s := fun a b => !before b a) (l := input.attach) fun _ _ _ _ => rfl
      rw [hmap, List.attach_map_subtype_val]
    have htrans (a b c : {a // a ∈ input}) (hab : memberBefore a b = true)
        (hbc : memberBefore b c = true) : memberBefore a c = true := by
      simp only [memberBefore, Bool.not_eq_true'] at hab hbc ⊢
      exact h.not_after_trans a.2 b.2 c.2 hab hbc
    have htotal (a b : {a // a ∈ input}) : (memberBefore a b || memberBefore b a) = true := by
      cases hba : before b.1 a.1 with
      | false => simp [memberBefore, hba]
      | true => simp [memberBefore, h.asymm b.1 b.2 a.1 a.2 hba]
    have hsorted := List.pairwise_mergeSort htrans htotal input.attach
    rw [← hmembers, List.pairwise_map]
    apply hsorted.imp
    intro a b hab
    simpa [memberBefore] using hab

/-- A list has exactly one sorted order where the comparison is a strict weak order that
distinguishes its values. -/
theorem existsUnique_sorts {input : List α} (h : StrictWeakOn before {a | a ∈ input})
    (heq : ∀ a ∈ input, ∀ b ∈ input, before a b = false → before b a = false → a = b) :
    ∃! output, Sorts before input output := by
  apply ExistsUnique.intro _ (sorts_mergeSort h)
  intro output houtput
  exact houtput.unique heq (sorts_mergeSort h)

end Sorting
