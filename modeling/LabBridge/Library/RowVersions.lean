import LabBridge.Library.SerialTable
import Mathlib.Data.List.Sort

/-!
# Uncommitted versions of rows

A transaction keeps the versions of rows it stored until it commits. Laid over the
committed table they give what the transaction sees, and what the commit leaves. The
versions take the places of the rows with their keys; a version of a key that is not
stored yet is a new row.
-/

namespace Storage

variable {Row : Type} {key : Row → RowId} {clash : Row → Row → Bool}

/-- The rows of a table without those that `versions` replace. -/
def untouched (key : Row → RowId) (rows versions : List Row) : List Row :=
  rows.filter fun row => versions.all fun version => key version != key row

/-- The rows of `after` that `before` does not hold. -/
def changedRows [DecidableEq Row] (before after : List Row) : List Row :=
  after.filter fun row => decide (row ∉ before)

/-- The versions a transaction holds once it has stored the newer ones. -/
def supersede (key : Row → RowId) (versions newer : List Row) : List Row :=
  untouched key versions newer ++ newer

/-- A row is untouched when no version has its key. -/
theorem mem_untouched {rows versions : List Row} {row : Row} :
    row ∈ untouched key rows versions ↔
      row ∈ rows ∧ ∀ version ∈ versions, key version ≠ key row := by
  simp [untouched]

/-- Nothing is touched by no versions. -/
@[simp] theorem untouched_nil (rows : List Row) : untouched key rows [] = rows := by
  simp [untouched]

/-- A version is a newer one, or an older one of another key. -/
theorem mem_supersede {versions newer : List Row} {row : Row} :
    row ∈ supersede key versions newer ↔
      row ∈ newer ∨ row ∈ versions ∧ ∀ version ∈ newer, key version ≠ key row := by
  rw [supersede, List.mem_append, mem_untouched, or_comm]

/-- Without newer versions the held ones stay. -/
@[simp] theorem supersede_nil (versions : List Row) : supersede key versions [] = versions := by
  simp [supersede]

variable (key) in
/-- The key of a held version stays among the versions. -/
theorem exists_supersede {versions : List Row} (newer : List Row) {row : Row}
    (h : row ∈ versions) :
    ∃ found ∈ supersede key versions newer, key found = key row ∧
      (found = row ∨ found ∈ newer) := by
  by_cases hsuperseded : ∃ version ∈ newer, key version = key row
  · obtain ⟨version, hversion, hkey⟩ := hsuperseded
    exact ⟨version, mem_supersede.mpr (.inl hversion), hkey, .inr hversion⟩
  · push Not at hsuperseded
    exact ⟨row, mem_supersede.mpr (.inr ⟨h, hsuperseded⟩), rfl, .inl rfl⟩

/-- Without held versions the newer ones are held. -/
@[simp] theorem nil_supersede (newer : List Row) : supersede key [] newer = newer := by
  simp [supersede, untouched]

section Changed

variable [DecidableEq Row]

/-- A version after a statement is one that was held, or a row that the statement changed. -/
theorem of_mem_supersede {versions before after : List Row} {row : Row}
    (h : row ∈ supersede key versions (changedRows before after)) :
    row ∈ versions ∨ row ∈ after ∧ row ∉ before := by
  rcases mem_supersede.mp h with hnew | ⟨hold, -⟩
  · exact .inr (by simpa [changedRows] using hnew)
  · exact .inl hold

/-- A changed row is new among the rows. -/
theorem mem_changedRows {before after : List Row} {row : Row} :
    row ∈ changedRows before after ↔ row ∈ after ∧ row ∉ before := by
  simp [changedRows]

/-- The same rows are not changed. -/
@[simp] theorem changedRows_self (rows : List Row) : changedRows rows rows = [] := by
  simp [changedRows]

end Changed

/-- The rows that are seen when versions are laid over stored ones. -/
def LaidOver (key : Row → RowId) (versions rows seen : List Row) : Prop :=
  ∀ row, row ∈ seen ↔ row ∈ versions ∨ row ∈ rows ∧ ∀ version ∈ versions, key version ≠ key row

namespace LaidOver

variable {versions rows seen : List Row}

/-- A version is seen. -/
theorem of_version (h : LaidOver key versions rows seen) {row : Row} (hrow : row ∈ versions) :
    row ∈ seen := (h row).mpr (.inl hrow)

/-- A stored row whose key no version has is seen. -/
theorem of_stored (h : LaidOver key versions rows seen) {row : Row} (hrow : row ∈ rows)
    (huntouched : ∀ version ∈ versions, key version ≠ key row) : row ∈ seen :=
  (h row).mpr (.inr ⟨hrow, huntouched⟩)

/-- A row that is seen is a version or stored. -/
theorem origin (h : LaidOver key versions rows seen) {row : Row} (hrow : row ∈ seen) :
    row ∈ versions ∨ row ∈ rows := ((h row).mp hrow).imp_right And.left

end LaidOver

/-- Rows get new keys from the counter of their table only. -/
structure Drawn (before after : SerialTable Row key clash) : Prop where
  next : before.next ≤ after.next
  rows : ∀ row ∈ after.rows, (∃ old ∈ before.rows, key old = key row) ∨
    before.next ≤ (key row : ℕ)

namespace Drawn

variable {before after : SerialTable Row key clash}

/-- Nothing is drawn for an unchanged table. -/
theorem refl (table : SerialTable Row key clash) : Drawn table table :=
  ⟨le_rfl, fun row hrow => .inl ⟨row, hrow, rfl⟩⟩

/-- An insert draws the next key. -/
theorem of_insert {make : RowId → Row} {keyed : ∀ id, key (make id) = id} {blind} {id : RowId}
    (h : before.insert make keyed blind = .ok (id, after)) : Drawn before after := by
  obtain ⟨hid, hrows, hnext, -⟩ := SerialTable.insert_eq_ok h
  refine ⟨by omega, fun row hrow => ?_⟩
  rw [hrows] at hrow
  rcases List.mem_append.mp hrow with hold | hnew
  · exact .inl ⟨row, hold, rfl⟩
  · rw [List.mem_singleton.mp hnew, keyed]
    exact .inr hid.ge

/-- An update draws no key. -/
theorem of_update {selected : Row → Bool} {change : Row → Row}
    {keyed : ∀ row, key (change row) = key row}
    (h : before.update selected change keyed = some after) : Drawn before after := by
  refine ⟨(SerialTable.update_eq_some h).2.ge, fun row hrow => ?_⟩
  obtain ⟨old, hold, rfl⟩ := (SerialTable.mem_update h).mp hrow
  refine .inl ⟨old, hold, ?_⟩
  split
  · exact (keyed old).symm
  · rfl

end Drawn

namespace SerialTable

/-- A table under the versions that a transaction holds, unless a version lies beyond the
counter or violates a unique index. -/
def overlay (table : SerialTable Row key clash) (versions : List Row) :
    Option (SerialTable Row key clash) :=
  let rows := (untouched key table.rows versions ++ versions).insertionSort fun left right =>
    key left ≤ key right
  if h : rows.Pairwise (fun left right => key left < key right) ∧
      (∀ row ∈ rows, (key row : ℕ) < table.next) ∧
      rows.Pairwise (fun left right => clash left right = false) then
    some ⟨rows, table.next, h.1, h.2.1, h.2.2⟩
  else none

variable {table view : SerialTable Row key clash} {versions : List Row}

/-- The rows that are seen are the versions and the rows they leave untouched. -/
theorem mem_overlay (h : table.overlay versions = some view) {row : Row} :
    row ∈ view.rows ↔
      row ∈ versions ∨ row ∈ table.rows ∧ ∀ version ∈ versions, key version ≠ key row := by
  simp only [overlay] at h
  split at h
  · cases h
    rw [List.mem_insertionSort, List.mem_append, mem_untouched, or_comm]
  · cases h

/-- The versions are laid over the rows. -/
theorem laidOver_overlay (h : table.overlay versions = some view) :
    LaidOver key versions table.rows view.rows := fun _ => mem_overlay h

/-- The counter is seen as it is. -/
theorem next_overlay (h : table.overlay versions = some view) : view.next = table.next := by
  simp only [overlay] at h
  split at h
  · cases h
    rfl
  · cases h

/-- Without versions the table is seen as it is. -/
@[simp] theorem overlay_nil (table : SerialTable Row key clash) :
    table.overlay [] = some table := by
  have hsorted : (table.rows.insertionSort fun left right => key left ≤ key right) = table.rows :=
    (table.ascending.imp fun hlt => le_of_lt hlt).insertionSort_eq
  simp only [overlay, untouched_nil, List.append_nil, hsorted, table.ascending, table.unique,
    and_true, true_and]
  rw [dif_pos table.below]

/-- Versions that exclude each other no more than stored rows do can be laid over the table. -/
theorem overlay_isSome (comm : ∀ left right, clash left right = clash right left)
    (below : ∀ version ∈ versions, (key version : ℕ) < table.next)
    (distinct : versions.Pairwise fun left right =>
      key left ≠ key right ∧ clash left right = false)
    (free : ∀ version ∈ versions, ∀ row ∈ table.rows, (∀ other ∈ versions, key other ≠ key row) →
      clash row version = false) : ∃ view, table.overlay versions = some view := by
  have happended : (untouched key table.rows versions ++ versions).Pairwise fun left right =>
      key left ≠ key right ∧ clash left right = false := by
    refine List.pairwise_append.mpr ⟨?_, distinct, fun row hrow version hversion => ?_⟩
    · refine List.Pairwise.filter _ ?_
      exact List.pairwise_and_iff.mpr ⟨table.ascending.imp fun hlt => ne_of_lt hlt, table.unique⟩
    · obtain ⟨hmem, huntouched⟩ := mem_untouched.mp hrow
      exact ⟨(huntouched version hversion).symm, free version hversion row hmem huntouched⟩
  have hsorted := ((List.perm_insertionSort (fun left right => key left ≤ key right) _).pairwise_iff
    fun h => ⟨h.1.symm, (comm _ _).trans h.2⟩).mpr happended
  have hbelow : ∀ row ∈ untouched key table.rows versions ++ versions,
      (key row : ℕ) < table.next := by
    intro row hrow
    rcases List.mem_append.mp hrow with hold | hnew
    · exact table.below row (mem_untouched.mp hold).1
    · exact below row hnew
  have hordered := List.pairwise_insertionSort (fun left right : Row => key left ≤ key right)
    (untouched key table.rows versions ++ versions)
  refine ⟨_, dif_pos ⟨?_, fun row hrow => hbelow row ((List.mem_insertionSort _).mp hrow), ?_⟩⟩
  · exact (hordered.and hsorted).imp fun h => lt_of_le_of_ne h.1 h.2.1
  · exact hsorted.imp fun h => h.2

end SerialTable

end Storage
