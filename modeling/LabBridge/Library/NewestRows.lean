import Mathlib.Data.List.Nodup
import Mathlib.Data.List.Basic

/-!
# The newest rows of a table

A limit on rows that are sorted newest first, where a later row comes before an earlier one of the
same age, keeps a row exactly when fewer rows than the limit come before it.
-/

namespace NewestRows

variable {α : Type*} {le : α → α → Bool}

/-- The rows that a limit keeps. -/
def newest (le : α → α → Bool) (capacity : ℕ) (rows : List α) : List α :=
  (rows.reverse.mergeSort le).take capacity

/-- How many rows come before a row that stands between others: the newer ones, and the later ones
of the same age. -/
def rank (le : α → α → Bool) (before : List α) (row : α) (after : List α) : ℕ :=
  before.countP (fun other => !le row other) + after.countP fun other => le other row

/-- Where a prefix reaches beyond a list, it holds what follows the list. -/
theorem mem_take_append_cons {front back : List α} {row : α} (h : row ∉ front) (count : ℕ) :
    row ∈ (front ++ row :: back).take count ↔ front.length < count := by
  constructor
  · intro hmem
    by_contra hshort
    rw [List.take_append_of_le_length (Nat.not_lt.mp hshort)] at hmem
    exact h (List.mem_of_mem_take hmem)
  · intro hlong
    obtain ⟨more, rfl⟩ := Nat.exists_eq_add_of_lt hlong
    rw [Nat.add_assoc, List.take_length_add_append, List.take_succ_cons]
    simp

/-- A limit keeps rows of the table. -/
theorem mem_of_mem_newest {capacity : ℕ} {rows : List α} {row : α}
    (h : row ∈ newest le capacity rows) : row ∈ rows := by
  have hsorted := List.mem_of_mem_take h
  rwa [List.mem_mergeSort, List.mem_reverse] at hsorted

/-- What stands before a row in a list without repetitions stands in front of it. -/
theorem mem_front_of_sublist {front back : List α} {row other : α}
    (hnodup : (front ++ row :: back).Nodup)
    (h : [other, row].Sublist (front ++ row :: back)) : other ∈ front := by
  have hback : row ∉ back := (List.nodup_cons.mp hnodup.of_append_right).1
  obtain ⟨first, second, hsplit, hfirst, hsecond⟩ := List.sublist_append_iff.mp h
  cases first with
  | nil =>
    rw [List.nil_append] at hsplit
    subst hsplit
    cases hsecond with
    | cons _ hlater => exact absurd (hlater.subset (by simp)) hback
    | cons_cons _ hlater => exact absurd (hlater.subset (by simp)) hback
  | cons head rest =>
    obtain rfl : other = head := (List.cons.inj hsplit).1
    exact hfirst.subset (by simp)

/-- What stands behind a row in a list without repetitions does not stand in front of it. -/
theorem not_mem_front_of_sublist {front back : List α} {row other : α}
    (hnodup : (front ++ row :: back).Nodup)
    (h : [row, other].Sublist (front ++ row :: back)) : other ∉ front := by
  intro hother
  have hdistinct : other ≠ row := by
    rintro rfl
    exact (List.disjoint_of_nodup_append hnodup) hother (by simp)
  have hreversed : [other, row].Sublist (back.reverse ++ row :: front.reverse) := by
    simpa using h.reverse
  have hnodupReversed : (back.reverse ++ row :: front.reverse).Nodup := by
    simpa using List.nodup_reverse.mpr hnodup
  have hbehind := mem_front_of_sublist hnodupReversed hreversed
  exact List.disjoint_of_nodup_append hnodup hother (by simpa [hdistinct] using hbehind)

/-- A row is kept exactly when fewer rows than the limit come before it. -/
theorem mem_newest_iff (trans : ∀ a b c, le a b = true → le b c = true → le a c = true)
    (total : ∀ a b, (le a b || le b a) = true) {before after : List α} {row : α}
    (hnodup : (before ++ row :: after).Nodup) {capacity : ℕ} :
    row ∈ newest le capacity (before ++ row :: after) ↔ rank le before row after < capacity := by
  have hperm := (List.mergeSort_perm (before ++ row :: after).reverse le).trans
    (List.reverse_perm _)
  have hsorted := List.pairwise_mergeSort trans total (before ++ row :: after).reverse
  have hstable : ∀ {first second}, le first second = true →
      [second, first].Sublist (before ++ row :: after) →
        [first, second].Sublist ((before ++ row :: after).reverse.mergeSort le) :=
    fun hle hsub => List.pair_sublist_mergeSort trans total hle hsub.reverse
  have hdistinct := hperm.nodup_iff.mpr hnodup
  unfold newest
  generalize (before ++ row :: after).reverse.mergeSort le = sorted at *
  obtain ⟨front, back, rfl⟩ := List.append_of_mem (hperm.mem_iff.mpr (by simp : row ∈ _))
  have hrow : row ∉ front := fun hmem =>
    List.disjoint_of_nodup_append hdistinct hmem (by simp)
  have hfront : ∀ other, other ∈ front ↔ other ∈
      before.filter (fun other => !le row other) ++ after.filter fun other => le other row := by
    intro other
    rw [List.mem_append, List.mem_filter, List.mem_filter]
    constructor
    · intro hother
      have hne : other ≠ row := fun heq => hrow (heq ▸ hother)
      have hplace : other ∈ before ++ row :: after :=
        hperm.subset (List.mem_append_left _ hother)
      rw [List.mem_append, List.mem_cons] at hplace
      rcases hplace with hbefore | heq | hafter
      · refine .inl ⟨hbefore, ?_⟩
        by_contra hle
        rw [Bool.not_eq_true', Bool.not_eq_false] at hle
        have hsub : [other, row].Sublist (before ++ row :: after) :=
          (List.singleton_sublist.mpr hbefore).append (List.singleton_sublist.mpr (by simp))
        exact not_mem_front_of_sublist hdistinct (hstable hle hsub) hother
      · exact absurd heq hne
      · exact .inr ⟨hafter, (List.pairwise_append.mp hsorted).2.2 other hother row (by simp)⟩
    · rintro (⟨hbefore, hnewer⟩ | ⟨hafter, hle⟩)
      · have hne : other ≠ row := by
          rintro rfl
          exact List.disjoint_of_nodup_append hnodup hbefore (by simp)
        have hplace : other ∈ front ++ row :: back :=
          hperm.symm.subset (List.mem_append_left _ hbefore)
        rw [List.mem_append, List.mem_cons] at hplace
        rcases hplace with hother | heq | hback
        · exact hother
        · exact absurd heq hne
        · have hle := List.rel_of_pairwise_cons (List.pairwise_append.mp hsorted).2.1 hback
          rw [hle] at hnewer
          cases hnewer
      · apply mem_front_of_sublist hdistinct
        apply hstable hle
        exact List.sublist_append_of_sublist_right
          ((List.singleton_sublist.mpr hafter).cons_cons row)
  have hlength : front.length = rank le before row after := by
    have hkept : (before.filter (fun other => !le row other) ++
        after.filter fun other => le other row).Nodup := by
      refine hnodup.sublist (List.Sublist.append List.filter_sublist ?_)
      exact List.filter_sublist.cons row
    have hsame := (List.perm_ext_iff_of_nodup hdistinct.of_append_left hkept).mpr hfront
    rw [hsame.length_eq, List.length_append, rank, List.countP_eq_length_filter,
      List.countP_eq_length_filter]
  rw [mem_take_append_cons hrow, hlength]

end NewestRows
