import Mathlib.Data.List.Dedup
import Mathlib.Data.List.Pairwise
import Mathlib.Data.List.Sort

/-!
# Rows stored under a key and a position

A row is stored in place of the one that has its key, or behind all rows. When each row that is
stored stands behind the positions in use, the rows in the order of their positions are what the
last storing of each key leaves.
-/

namespace Storage

variable {Row Key : Type} [DecidableEq Key] (key : Row → Key)

/-- Store a row in place of the one that has its key, or behind all rows. -/
def upsert (rows : List Row) (row : Row) : List Row :=
  if rows.any fun other => key other = key row then
    rows.map fun other => if key other = key row then row else other
  else rows ++ [row]

/-- The rows without a key, and a row behind them. -/
def moveBack (rows : List Row) (row : Row) : List Row :=
  (rows.filter fun other => key other ≠ key row) ++ [row]

variable {key} {old rows sorted : List Row} {row : Row}

/-- Rows without a key are not replaced. -/
theorem map_replace_of_forall (h : ∀ other ∈ rows, key other ≠ key row) :
    (rows.map fun other => if key other = key row then row else other) = rows := by
  have hmap := List.map_congr_left fun other hother =>
    (if_neg (h other hother) : (if key other = key row then row else other) = other)
  rw [hmap, List.map_id']

/-- Rows without the key of the stored one stay in front. -/
theorem upsert_append (h : ∀ other ∈ old, key other ≠ key row) :
    upsert key (old ++ rows) row = old ++ upsert key rows row := by
  have hany : (old ++ rows).any (fun other => decide (key other = key row)) =
      rows.any fun other => decide (key other = key row) := by
    rw [List.any_append, List.any_eq_false.mpr (by simpa using h), Bool.false_or]
  unfold upsert
  rw [hany]
  split
  · rw [List.map_append, map_replace_of_forall h]
  · rw [List.append_assoc]

/-- A row is stored once under its key. -/
theorem upsert_perm (nodup : (rows.map key).Nodup) :
    (upsert key rows row).Perm (moveBack key rows row) := by
  unfold upsert moveBack
  split
  · rename_i hany
    obtain ⟨other, hother, hkey⟩ := List.any_eq_true.mp hany
    obtain ⟨left, right, rfl⟩ := List.append_of_mem hother
    have hkey : key other = key row := by simpa using hkey
    rw [List.map_append, List.map_cons, hkey, List.nodup_middle, List.nodup_cons,
      List.mem_append, not_or] at nodup
    have hleft : ∀ before ∈ left, key before ≠ key row := fun before hbefore heq =>
      nodup.1.1 (heq ▸ List.mem_map_of_mem hbefore)
    have hright : ∀ behind ∈ right, key behind ≠ key row := fun behind hbehind heq =>
      nodup.1.2 (heq ▸ List.mem_map_of_mem hbehind)
    rw [List.map_append, List.map_cons, map_replace_of_forall hleft, map_replace_of_forall hright,
      if_pos hkey, List.filter_append, List.filter_cons_of_neg (by simpa using hkey),
      List.filter_eq_self.mpr (by simpa using hleft),
      List.filter_eq_self.mpr (by simpa using hright), List.append_assoc]
    exact (List.perm_append_singleton row right).symm.append_left left
  · rename_i hany
    rw [List.filter_eq_self.mpr (by simpa using hany)]

/-- No key is stored twice. -/
theorem nodup_moveBack (nodup : (rows.map key).Nodup) :
    ((moveBack key rows row).map key).Nodup := by
  have hrows : ((rows.filter fun other => key other ≠ key row).map key).Nodup :=
    nodup.sublist (List.filter_sublist.map key)
  rw [moveBack, List.map_append, List.nodup_append]
  refine ⟨hrows, List.nodup_singleton _, ?_⟩
  intro first hfirst second hsecond
  obtain ⟨other, hother, rfl⟩ := List.mem_map.mp hfirst
  obtain ⟨last, hlast, rfl⟩ := List.mem_map.mp hsecond
  rw [List.mem_singleton.mp hlast]
  simpa using (List.mem_filter.mp hother).2

/-- A row that is stored is an old one or the new one. -/
theorem mem_upsert {other : Row} (h : other ∈ upsert key rows row) : other ∈ rows ∨ other = row := by
  unfold upsert at h
  split at h
  · obtain ⟨source, hsource, rfl⟩ := List.mem_map.mp h
    split
    · exact .inr rfl
    · exact .inl hsource
  · exact (List.mem_append.mp h).imp_right List.mem_singleton.mp

/-- Rows without the keys of the stored ones stay in front. -/
theorem foldl_upsert_append {items : List Row}
    (h : ∀ other ∈ old, ∀ item ∈ items, key other ≠ key item) :
    items.foldl (upsert key) (old ++ rows) = old ++ items.foldl (upsert key) rows := by
  induction items generalizing rows with
  | nil => rfl
  | cons item rest ih =>
    rw [List.foldl_cons, List.foldl_cons,
      upsert_append fun other hother => h other hother item (by simp)]
    exact ih fun other hother later hlater => h other hother later (by simp [hlater])

/-- A row that is stored one after another is an old one or one of the new ones. -/
theorem mem_foldl_upsert {items : List Row} {other : Row}
    (h : other ∈ items.foldl (upsert key) rows) : other ∈ rows ∨ other ∈ items := by
  induction items generalizing rows with
  | nil => exact .inl h
  | cons item rest ih =>
    rcases ih h with hrows | hrest
    · rcases mem_upsert hrows with hrows | rfl
      · exact .inl hrows
      · exact .inr (by simp)
    · exact .inr (by simp [hrest])

section Groups

variable {Item : Type} {items : List Item} {name : Item → Key} {group : Item → List Row}

/-- What items of other names give is left out. -/
theorem filter_flatMap_of_forall {wanted : Key}
    (named : ∀ item ∈ items, ∀ row ∈ group item, key row = name item)
    (h : ∀ item ∈ items, name item ≠ wanted) :
    (items.flatMap group).filter (fun row => key row = wanted) = [] := by
  apply List.filter_eq_nil_iff.mpr
  intro row hrow
  obtain ⟨item, hitem, hgroup⟩ := List.mem_flatMap.mp hrow
  rw [named item hitem row hgroup]
  simpa using h item hitem

/-- What one item of a name gives is found by its name. -/
theorem filter_flatMap_of_mem {item : Item} (nodup : (items.map name).Nodup)
    (named : ∀ item ∈ items, ∀ row ∈ group item, key row = name item) (hitem : item ∈ items) :
    (items.flatMap group).filter (fun row => key row = name item) = group item := by
  obtain ⟨left, right, rfl⟩ := List.append_of_mem hitem
  rw [List.map_append, List.map_cons, List.nodup_middle, List.nodup_cons, List.mem_append,
    not_or] at nodup
  have hleft : ∀ other ∈ left, name other ≠ name item := fun other hother heq =>
    nodup.1.1 (heq ▸ List.mem_map_of_mem hother)
  have hright : ∀ other ∈ right, name other ≠ name item := fun other hother heq =>
    nodup.1.2 (heq ▸ List.mem_map_of_mem hother)
  have hown : (group item).filter (fun row => key row = name item) = group item :=
    List.filter_eq_self.mpr fun row hrow => by simpa using named item hitem row hrow
  rw [List.flatMap_append, List.flatMap_cons, List.filter_append, List.filter_append, hown,
    filter_flatMap_of_forall (fun other hother => named other (by simp [hother])) hleft,
    filter_flatMap_of_forall (fun other hother => named other (by simp [hother])) hright,
    List.nil_append, List.append_nil]

end Groups

/-! ## Positions -/

variable {Position : Type} [LinearOrder Position] {position : Row → Position}

variable (key position) in
/-- Rows in the order of their positions, each key once. -/
structure InOrder (rows sorted : List Row) : Prop where
  perm : sorted.Perm rows
  nodup : (sorted.map key).Nodup
  ascending : sorted.Pairwise fun left right => position left < position right

omit [DecidableEq Key] in
/-- No rows are in order. -/
theorem inOrder_nil : InOrder key position [] [] where
  perm := .refl _
  nodup := List.nodup_nil
  ascending := .nil

/-- A row that is stored behind all positions comes last. -/
theorem InOrder.upsert (h : InOrder key position rows sorted)
    (behind : ∀ other ∈ rows, position other < position row) :
    InOrder key position (upsert key rows row) (moveBack key sorted row) where
  perm := by
    have hrows : (rows.map key).Nodup := (h.perm.map key).nodup_iff.mp h.nodup
    exact ((h.perm.filter _).append_right [row]).trans (upsert_perm hrows).symm
  nodup := nodup_moveBack h.nodup
  ascending := by
    apply List.pairwise_append.mpr
    refine ⟨h.ascending.sublist List.filter_sublist, List.pairwise_singleton _ _, ?_⟩
    intro other hother last hlast
    rw [List.mem_singleton.mp hlast]
    exact behind other (h.perm.mem_iff.mp (List.mem_filter.mp hother).1)

/-- Rows that are stored one behind another, behind all positions, come last. -/
theorem InOrder.foldl_upsert {items : List Row} (h : InOrder key position rows sorted)
    (ascending : items.Pairwise fun left right => position left < position right)
    (behind : ∀ other ∈ rows, ∀ item ∈ items, position other < position item) :
    InOrder key position (items.foldl (Storage.upsert key) rows)
      (items.foldl (moveBack key) sorted) := by
  induction items generalizing rows sorted with
  | nil => exact h
  | cons item rest ih =>
    obtain ⟨hitem, hrest⟩ := List.pairwise_cons.mp ascending
    apply ih (h.upsert fun other hother => behind other hother item (by simp)) hrest
    intro other hother later hlater
    rcases mem_upsert hother with hother | rfl
    · exact behind other hother later (by simp [hlater])
    · exact hitem later hlater

omit [DecidableEq Key] in
/-- A sort that compares different positions by them leaves rows in order. -/
theorem InOrder.insertionSort_eq {le : Row → Row → Prop} [DecidableRel le] [Std.Total le]
    [IsTrans Row le] (h : InOrder key position rows sorted)
    (agree : ∀ {left right}, position left < position right → le left right ∧ ¬le right left) :
    rows.insertionSort le = sorted := by
  have hperm : (rows.insertionSort le).Perm sorted :=
    (List.perm_insertionSort le rows).trans h.perm.symm
  apply hperm.eq_of_pairwise _ (List.pairwise_insertionSort le rows)
    (h.ascending.imp fun hlt => (agree hlt).1)
  intro left right hleft hright hle hge
  by_contra hne
  have hleft : left ∈ sorted := hperm.mem_iff.mp hleft
  have symmetric : Std.Symm fun left right : Row =>
      position left < position right ∨ position right < position left := ⟨fun _ _ => Or.symm⟩
  have hapart : sorted.Pairwise fun left right =>
      position left < position right ∨ position right < position left := h.ascending.imp .inl
  rcases hapart.forall hleft hright hne with hlt | hlt
  · exact (agree hlt).2 hge
  · exact (agree hlt).2 hle

/-- The keys after a row is moved back. -/
theorem map_moveBack :
    (moveBack key rows row).map key = ((rows.map key).filter (· ≠ key row)) ++ [key row] := by
  rw [moveBack, List.map_append, List.filter_map]
  rfl

/-- Rows that are moved back one after another stand in the order of the last moves. -/
theorem map_foldl_moveBack (items acc : List Row) :
    (items.foldl (moveBack key) acc).map key =
      (acc.map key).filter (· ∉ items.map key) ++ (items.map key).dedup := by
  induction items generalizing acc with
  | nil => simp
  | cons item rest ih =>
    have hacc : ((acc.map key).filter (· ≠ key item)).filter (· ∉ rest.map key) =
        (acc.map key).filter (· ∉ (item :: rest).map key) := by
      rw [List.filter_filter]
      congr 1
      funext first
      rw [List.map_cons, ← Bool.decide_and]
      exact decide_eq_decide.mpr (by rw [List.mem_cons, not_or, and_comm])
    rw [List.foldl_cons, ih, map_moveBack, List.filter_append, hacc, List.append_assoc,
      List.map_cons, List.dedup_cons]
    by_cases hitem : key item ∈ rest.map key
    · rw [if_pos hitem, List.filter_cons_of_neg (by simpa using hitem), List.filter_nil,
        List.nil_append]
    · rw [if_neg hitem, List.filter_cons_of_pos (by simpa using hitem), List.filter_nil,
        List.singleton_append]

end Storage
