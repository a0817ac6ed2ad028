import Mathlib.Data.List.Nodup
import Mathlib.Data.List.Pairwise
import Mathlib.Data.Fin.Basic
import Mathlib.Algebra.Group.Int.Defs
import Mathlib.Algebra.Group.Nat.Defs
import Mathlib.Algebra.GroupWithZero.Nat

/-!
# Tables with a serial key and unique indexes

A table keeps its rows in the order of their keys and draws new keys from a counter that
never goes back. `clash` says when two rows would violate a unique index. The structure
carries the facts that keys increase, that they stay below the counter and that no two rows
clash, so a key identifies at most one row and an insert has to check its indexes.
-/

namespace Storage

/-- Keys a 64-bit serial column can hold. -/
abbrev RowId := Fin (2 ^ 63)

/-- There are row keys, so numerals name some. -/
instance neZero_rowId : NeZero (2 ^ 63) := Nat.instNeZeroHPow

/-- Rows in increasing key order below the next serial value, free of clashes. -/
@[ext] structure SerialTable (Row : Type) (key : Row → RowId) (clash : Row → Row → Bool) where
  rows : List Row
  next : ℕ
  ascending : rows.Pairwise fun left right => key left < key right
  below : ∀ row ∈ rows, (key row : ℕ) < next
  unique : rows.Pairwise fun left right => clash left right = false

/-- No unique index besides the key. -/
def noClash {Row : Type} : Row → Row → Bool := fun _ _ => false

/-- Why an insert stores nothing. -/
inductive InsertError
  /-- The counter has no value left. -/
  | exhausted
  /-- A unique index holds the new row's entry already. -/
  | duplicate
  deriving DecidableEq

namespace SerialTable

variable {Row : Type} {key : Row → RowId} {clash : Row → Row → Bool}

/-- The table of a fresh schema. -/
def empty : SerialTable Row key clash where
  rows := []
  next := 1
  ascending := .nil
  below := by simp
  unique := .nil

/-- The table whose one row holds the first key. -/
def singleton (row : Row) (first : key row = 1) : SerialTable Row key clash where
  rows := [row]
  next := 2
  ascending := List.pairwise_singleton _ _
  below := fun other hother => by rw [List.mem_singleton.mp hother, first]; decide
  unique := List.pairwise_singleton _ _

@[simp] theorem rows_singleton (row : Row) (first : key row = 1) :
    (singleton row first : SerialTable Row key clash).rows = [row] := rfl

@[simp] theorem rows_empty : (empty : SerialTable Row key clash).rows = [] := rfl

/-- The row with the given key. -/
def find? (table : SerialTable Row key clash) (id : RowId) : Option Row :=
  table.rows.find? fun row => key row == id

/-- No two rows of a table share a key. -/
theorem nodup_keys (table : SerialTable Row key clash) : (table.rows.map key).Nodup :=
  List.pairwise_map.mpr (table.ascending.imp fun hlt => Fin.ne_of_lt hlt)

/-- Rows of one table with equal keys are equal. -/
theorem eq_of_key_eq {table : SerialTable Row key clash} {left right : Row}
    (hleft : left ∈ table.rows) (hright : right ∈ table.rows) (h : key left = key right) :
    left = right :=
  List.inj_on_of_nodup_map table.nodup_keys hleft hright h

/-- A key is found exactly when a row of the table carries it. -/
theorem find?_eq_some {table : SerialTable Row key clash} {id : RowId} {row : Row} :
    table.find? id = some row ↔ row ∈ table.rows ∧ key row = id := by
  constructor
  · intro h
    exact ⟨List.mem_of_find?_eq_some h, by simpa using List.find?_some h⟩
  · rintro ⟨hmem, rfl⟩
    rcases hfind : table.find? (key row) with _ | other
    · exact absurd (List.find?_eq_none.mp hfind row hmem) (by simp)
    · have hother : key other = key row := by simpa using List.find?_some hfind
      rw [eq_of_key_eq (List.mem_of_find?_eq_some hfind) hmem hother]

/-- A key is absent exactly when no row carries it. -/
theorem find?_eq_none {table : SerialTable Row key clash} {id : RowId} :
    table.find? id = none ↔ ∀ row ∈ table.rows, key row ≠ id := by
  simp [find?, List.find?_eq_none]

/-- A row of the table is the one its key finds. -/
theorem find?_key {table : SerialTable Row key clash} {row : Row} (hmem : row ∈ table.rows) :
    table.find? (key row) = some row :=
  find?_eq_some.mpr ⟨hmem, rfl⟩

/-- Rows that an index keeps apart are different entries of the table only once. -/
theorem eq_of_clash {table : SerialTable Row key clash}
    (symm : ∀ left right, clash left right = clash right left) {left right : Row}
    (hleft : left ∈ table.rows) (hright : right ∈ table.rows) (h : clash left right = true) :
    left = right := by
  by_contra hne
  have : Std.Symm fun left right => clash left right = false :=
    ⟨fun x y hxy => (symm y x).trans hxy⟩
  have hapart := table.unique.forall hleft hright hne
  rw [h] at hapart
  cases hapart

/-- A row that is alone with a property is the one that is found by it. -/
theorem find?_of_forall {table : SerialTable Row key clash} {property : Row → Bool} {row : Row}
    (hmem : row ∈ table.rows) (hrow : property row = true)
    (alone : ∀ other ∈ table.rows, property other = true → other = row) :
    table.rows.find? property = some row := by
  rcases hfind : table.rows.find? property with _ | other
  · exact absurd hrow (List.find?_eq_none.mp hfind row hmem)
  · rw [alone other (List.mem_of_find?_eq_some hfind) (List.find?_some hfind)]

/-- Append the row made for the next serial value. The row must not clash with a stored one,
whatever its key. -/
def insert (table : SerialTable Row key clash) (make : RowId → Row)
    (keyed : ∀ id, key (make id) = id)
    (blind : ∀ id row, clash row (make id) = clash row (make 0)) :
    Except InsertError (RowId × SerialTable Row key clash) :=
  if free : table.rows.any (fun row => clash row (make 0)) then .error .duplicate
  else if room : table.next < 2 ^ 63 then
    let id : RowId := ⟨table.next, room⟩
    .ok (id, {
      rows := table.rows ++ [make id]
      next := table.next + 1
      ascending := by
        refine List.pairwise_append.mpr ⟨table.ascending, by simp, fun row hrow last hlast => ?_⟩
        rw [List.mem_singleton.mp hlast, keyed, Fin.lt_def]
        exact table.below row hrow
      below := by
        intro row hrow
        rcases List.mem_append.mp hrow with hold | hnew
        · exact Nat.lt_succ_of_lt (table.below row hold)
        · rw [List.mem_singleton.mp hnew, keyed]
          exact Nat.lt_succ_self _
      unique := by
        refine List.pairwise_append.mpr ⟨table.unique, by simp, fun row hrow last hlast => ?_⟩
        rw [List.mem_singleton.mp hlast, blind]
        exact Bool.eq_false_iff.mpr fun hclash => free (List.any_eq_true.mpr ⟨row, hrow, hclash⟩) })
  else .error .exhausted

section Insert

variable {table grown : SerialTable Row key clash} {make : RowId → Row}
  {keyed : ∀ id, key (make id) = id}
  {blind : ∀ id row, clash row (make id) = clash row (make 0)} {id : RowId}

/-- An accepted row stands last, under the counter's value, and clashes with no other. -/
theorem insert_eq_ok (h : table.insert make keyed blind = .ok (id, grown)) :
    (id : ℕ) = table.next ∧ grown.rows = table.rows ++ [make id] ∧
      grown.next = table.next + 1 ∧ ∀ row ∈ table.rows, clash row (make id) = false := by
  unfold insert at h
  split at h
  · cases h
  · rename_i free
    split at h
    · cases h
      refine ⟨rfl, rfl, rfl, fun row hrow => ?_⟩
      rw [blind]
      exact Bool.eq_false_iff.mpr fun hclash => free (List.any_eq_true.mpr ⟨row, hrow, hclash⟩)
    · cases h

/-- An accepted row is stored. -/
theorem mem_of_insert (h : table.insert make keyed blind = .ok (id, grown)) :
    make id ∈ grown.rows := by
  rw [(insert_eq_ok h).2.1]
  exact List.mem_append_right _ (List.mem_singleton_self _)

/-- Rows stay stored when another one is inserted. -/
theorem mem_insert_of_mem (h : table.insert make keyed blind = .ok (id, grown)) {row : Row}
    (hrow : row ∈ table.rows) : row ∈ grown.rows := by
  rw [(insert_eq_ok h).2.1]
  exact List.mem_append_left _ hrow

/-- An insert meets a duplicate exactly when some stored row clashes with the new one. -/
theorem insert_eq_duplicate :
    table.insert make keyed blind = .error .duplicate ↔
      ∃ row ∈ table.rows, clash row (make 0) = true := by
  unfold insert
  split
  · rename_i h
    simpa using h
  · rename_i h
    split <;> simpa using h

end Insert

/-- Rewrite the rows that satisfy a condition, keeping their keys. The rewritten rows are
refused when they clash. -/
def update (table : SerialTable Row key clash) (selected : Row → Bool) (change : Row → Row)
    (keyed : ∀ row, key (change row) = key row) : Option (SerialTable Row key clash) :=
  let rows := table.rows.map fun row => if selected row then change row else row
  if unique : rows.Pairwise fun left right => clash left right = false then
    some {
      rows := rows
      next := table.next
      ascending := by
        refine List.pairwise_map.mpr (table.ascending.imp fun {left right} hlt => ?_)
        have hkey (row : Row) : key (if selected row then change row else row) = key row := by
          split
          · exact keyed row
          · rfl
        rw [hkey, hkey]
        exact hlt
      below := by
        intro row hrow
        obtain ⟨source, hsource, rfl⟩ := List.mem_map.mp hrow
        split
        · rw [keyed]
          exact table.below source hsource
        · exact table.below source hsource
      unique := unique }
  else none

section Update

variable {table changed : SerialTable Row key clash} {selected : Row → Bool}
  {change : Row → Row} {keyed : ∀ row, key (change row) = key row}

/-- An update rewrites the selected rows and nothing else. -/
theorem update_eq_some (h : table.update selected change keyed = some changed) :
    changed.rows = table.rows.map (fun row => if selected row then change row else row) ∧
      changed.next = table.next := by
  unfold update at h
  simp only at h
  split at h
  · cases h
    exact ⟨rfl, rfl⟩
  · cases h

/-- A row after an update is a changed selected row or an untouched one. -/
theorem mem_update (h : table.update selected change keyed = some changed) {row : Row} :
    row ∈ changed.rows ↔
      ∃ source ∈ table.rows, (if selected source then change source else source) = row := by
  rw [(update_eq_some h).1]
  simp

/-- A change that creates no clash is never refused. -/
theorem update_isSome (safe : ∀ left right, clash left right = false →
      clash (if selected left then change left else left)
        (if selected right then change right else right) = false) :
    ∃ changed, table.update selected change keyed = some changed := by
  have unique : (table.rows.map fun row => if selected row then change row else row).Pairwise
      fun left right => clash left right = false :=
    List.pairwise_map.mpr (table.unique.imp fun {left right} h => safe left right h)
  simp only [update, unique, dite_true]
  exact ⟨_, rfl⟩

/-- Looking a key up after an update is updating what the key found. -/
theorem find?_update (h : table.update selected change keyed = some changed) (id : RowId) :
    changed.find? id =
      (table.find? id).map fun row => if selected row then change row else row := by
  have hkey : ∀ row, key (if selected row then change row else row) = key row := by
    intro row
    split
    · exact keyed row
    · rfl
  have hsame : ((fun row => key row == id) ∘ fun row =>
      if selected row then change row else row) = fun row => key row == id := by
    funext row
    rw [Function.comp_apply, hkey]
  unfold find?
  rw [(update_eq_some h).1, List.find?_map, hsame]

end Update

/-- Let the counter skip values, as aborted work makes it do. -/
def advance (table : SerialTable Row key clash) (value : ℕ) : SerialTable Row key clash :=
  { table with
    next := max table.next value
    below := fun row hrow => lt_of_lt_of_le (table.below row hrow) (le_max_left _ _) }

@[simp] theorem rows_advance (table : SerialTable Row key clash) (value : ℕ) :
    (table.advance value).rows = table.rows := rfl

@[simp] theorem next_advance (table : SerialTable Row key clash) (value : ℕ) :
    (table.advance value).next = max table.next value := rfl

/-- A counter that has nothing to skip stays. -/
@[simp] theorem advance_next (table : SerialTable Row key clash) :
    table.advance table.next = table := by
  ext <;> simp

end SerialTable

end Storage
