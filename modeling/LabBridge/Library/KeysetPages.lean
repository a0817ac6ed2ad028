import Mathlib.Data.List.Pairwise
import Mathlib.Order.WellFounded

/-!
# Keyset pages

A page holds the first selected rows below a cursor in descending order of their keys, and the
next cursor is the key of the last one while rows are left. The table may change from page to
page: the pages end, their keys fall, and no key is missed that is selected all the time.
-/

namespace Keyset

variable {Row Key : Type} [LinearOrder Key]

/-- Whether a key lies below a cursor. -/
def Below (cursor : Option Key) (key : Key) : Prop := ∀ bound, cursor = some bound → key < bound

instance (cursor : Option Key) (key : Key) : Decidable (Below cursor key) :=
  match cursor with
  | none => isTrue fun _ h => by cases h
  | some bound => decidable_of_iff (key < bound) ⟨fun h _ hb => by cases hb; exact h, fun h => h _ rfl⟩

section Page

variable (key : Row → Key) (selects : Row → Bool) (limit : ℕ) (cursor : Option Key)
  (rows : List Row)

/-- The selected rows below a cursor, from the last one on. -/
def selection : List Row :=
  (rows.filter fun row => selects row && decide (Below cursor (key row))).reverse

/-- One page. -/
def page : List Row := (selection key selects cursor rows).take limit

/-- The cursor behind a page while rows are left. -/
def next : Option Key :=
  if limit < (selection key selects cursor rows).length then
    (page key selects limit cursor rows).getLast?.map key
  else none

variable {key selects limit cursor rows}

/-- The rows of a selection. -/
@[simp] theorem mem_selection {row : Row} : row ∈ selection key selects cursor rows ↔
    row ∈ rows ∧ selects row = true ∧ Below cursor (key row) := by
  simp [selection]

/-- The keys of a selection fall. -/
theorem selection_descending (ascending : rows.Pairwise fun left right => key left < key right) :
    (selection key selects cursor rows).Pairwise fun left right => key right < key left := by
  rw [selection, List.pairwise_reverse]
  exact ascending.filter _

/-- The rows of a page are selected rows below the cursor. -/
theorem mem_page {row : Row} (h : row ∈ page key selects limit cursor rows) :
    row ∈ rows ∧ selects row = true ∧ Below cursor (key row) :=
  mem_selection.mp (List.mem_of_mem_take h)

/-- The cursor behind a page is the key of its last row, and no row is left out above it. -/
theorem next_eq_some (ascending : rows.Pairwise fun left right => key left < key right)
    {bound : Key} (h : next key selects limit cursor rows = some bound) :
    (∃ row ∈ page key selects limit cursor rows, key row = bound) ∧
      (∀ row ∈ page key selects limit cursor rows, bound ≤ key row) ∧
      ∀ row ∈ selection key selects cursor rows,
        row ∈ page key selects limit cursor rows ∨ key row < bound := by
  unfold next at h
  split at h
  · obtain ⟨last, hlast, rfl⟩ := Option.map_eq_some_iff.mp h
    have hdescending : (selection key selects cursor rows).Pairwise fun left right =>
        key right < key left := selection_descending ascending
    have hmem : last ∈ page key selects limit cursor rows := List.mem_of_getLast? hlast
    obtain ⟨front, hfront⟩ := List.getLast?_eq_some_iff.mp hlast
    have hpage : (page key selects limit cursor rows).Pairwise fun left right =>
        key right < key left := hdescending.sublist (List.take_sublist _ _)
    refine ⟨⟨last, hmem, rfl⟩, ?_, ?_⟩
    · intro row hrow
      rw [hfront] at hpage hrow
      rcases List.mem_append.mp hrow with hin | hin
      · exact ((List.pairwise_append.mp hpage).2.2 row hin last (by simp)).le
      · rw [List.mem_singleton.mp hin]
    · intro row hrow
      rw [← List.take_append_drop limit (selection key selects cursor rows)] at hrow hdescending
      rcases List.mem_append.mp hrow with hin | hout
      · exact .inl hin
      · exact .inr ((List.pairwise_append.mp hdescending).2.2 last hmem row hout)
  · cases h

/-- A page that no cursor follows holds all selected rows. -/
theorem next_eq_none (hlimit : 0 < limit) (h : next key selects limit cursor rows = none) :
    page key selects limit cursor rows = selection key selects cursor rows := by
  unfold next at h
  split at h
  · rename_i hlong
    rw [Option.map_eq_none_iff, List.getLast?_eq_none_iff, page, List.take_eq_nil_iff] at h
    rcases h with hzero | hnil
    · omega
    · simp [hnil] at hlong
  · exact List.take_of_length_le (by omega)

end Page

/-- The pages that are read one after the other, each from the rows of its time. -/
inductive Pages (key : Row → Key) (limit : ℕ) (rows : ℕ → List Row) (selects : ℕ → Row → Bool) :
    ℕ → Option Key → List (List Row) → Prop
  | last {time : ℕ} {cursor : Option Key}
    (h : next key (selects time) limit cursor (rows time) = none) :
    Pages key limit rows selects time cursor [page key (selects time) limit cursor (rows time)]
  | more {time : ℕ} {cursor : Option Key} {bound : Key} {rest : List (List Row)}
    (h : next key (selects time) limit cursor (rows time) = some bound)
    (tail : Pages key limit rows selects (time + 1) (some bound) rest) :
    Pages key limit rows selects time cursor
      (page key (selects time) limit cursor (rows time) :: rest)

variable {key : Row → Key} {limit : ℕ} {rows : ℕ → List Row} {selects : ℕ → Row → Bool}

/-- The pages end. -/
theorem exists_pages [WellFoundedLT Key]
    (ascending : ∀ time, (rows time).Pairwise fun left right => key left < key right)
    (time : ℕ) (cursor : Option Key) : ∃ pages, Pages key limit rows selects time cursor pages := by
  have hbelow : ∀ bound time, ∃ pages, Pages key limit rows selects time (some bound) pages := by
    intro bound
    induction bound using WellFoundedLT.induction with
    | ind bound ih =>
      intro time
      cases hnext : next key (selects time) limit (some bound) (rows time) with
      | none => exact ⟨_, .last hnext⟩
      | some lower =>
        obtain ⟨row, hrow, hkey⟩ := (next_eq_some (ascending time) hnext).1
        have hlower : lower < bound := hkey ▸ (mem_page hrow).2.2 bound rfl
        obtain ⟨rest, hrest⟩ := ih lower hlower (time + 1)
        exact ⟨_, .more hnext hrest⟩
  cases hnext : next key (selects time) limit cursor (rows time) with
  | none => exact ⟨_, .last hnext⟩
  | some bound =>
    obtain ⟨rest, hrest⟩ := hbelow bound (time + 1)
    exact ⟨_, .more hnext hrest⟩

/-- The keys of the pages fall, and they lie below the cursor. -/
theorem Pages.descending
    (ascending : ∀ time, (rows time).Pairwise fun left right => key left < key right)
    {time : ℕ} {cursor : Option Key} {pages : List (List Row)}
    (h : Pages key limit rows selects time cursor pages) :
    (pages.flatten.Pairwise fun left right => key right < key left) ∧
      ∀ row ∈ pages.flatten, Below cursor (key row) := by
  have hpage (time : ℕ) (cursor : Option Key) :
      (page key (selects time) limit cursor (rows time)).Pairwise fun left right =>
        key right < key left :=
    (selection_descending (ascending time)).sublist (List.take_sublist _ _)
  induction h with
  | @last time cursor hnext =>
    rw [List.flatten_singleton]
    exact ⟨hpage time cursor, fun row hrow => (mem_page hrow).2.2⟩
  | @more time cursor bound rest hnext tail ih =>
    obtain ⟨⟨last, hlast, hbound⟩, habove, -⟩ := next_eq_some (ascending time) hnext
    rw [List.flatten_cons]
    refine ⟨List.pairwise_append.mpr ⟨hpage time cursor, ih.1, ?_⟩, ?_⟩
    · intro row hrow other hother
      exact lt_of_lt_of_le (ih.2 other hother bound rfl) (habove row hrow)
    · intro row hrow
      rcases List.mem_append.mp hrow with hin | hin
      · exact (mem_page hin).2.2
      · intro upper hupper
        have hlower : bound < upper := hbound ▸ (mem_page hlast).2.2 upper hupper
        exact (ih.2 row hin bound rfl).trans hlower

/-- The rows of a page are rows of its time that are selected then. -/
theorem Pages.mem {time : ℕ} {cursor : Option Key} {pages : List (List Row)}
    (h : Pages key limit rows selects time cursor pages) {index : ℕ} {read : List Row}
    (hread : pages[index]? = some read) {row : Row} (hrow : row ∈ read) :
    row ∈ rows (time + index) ∧ selects (time + index) row = true := by
  induction h generalizing index with
  | last hnext =>
    cases index with
    | zero =>
      cases hread
      exact ⟨(mem_page hrow).1, (mem_page hrow).2.1⟩
    | succ index => cases hread
  | @more time _ _ _ hnext tail ih =>
    cases index with
    | zero =>
      cases hread
      exact ⟨(mem_page hrow).1, (mem_page hrow).2.1⟩
    | succ index =>
      have hlater := ih hread
      rwa [Nat.add_assoc, Nat.add_comm 1] at hlater

/-- No key below the cursor is missed that is selected at the time of every page. -/
theorem Pages.complete (hlimit : 0 < limit)
    (ascending : ∀ time, (rows time).Pairwise fun left right => key left < key right)
    {time : ℕ} {cursor : Option Key} {pages : List (List Row)}
    (h : Pages key limit rows selects time cursor pages) {wanted : Key}
    (hwanted : Below cursor wanted)
    (throughout : ∀ later, time ≤ later → later < time + pages.length →
      ∃ row ∈ rows later, selects later row = true ∧ key row = wanted) :
    ∃ row ∈ pages.flatten, key row = wanted := by
  induction h with
  | @last time cursor hnext =>
    obtain ⟨row, hrow, hselects, hkey⟩ := throughout time le_rfl (by simp)
    refine ⟨row, ?_, hkey⟩
    rw [List.flatten_singleton, next_eq_none hlimit hnext]
    exact mem_selection.mpr ⟨hrow, hselects, hkey ▸ hwanted⟩
  | @more time cursor bound rest hnext tail ih =>
    obtain ⟨row, hrow, hselects, hkey⟩ := throughout time le_rfl (by simp)
    have hrow : row ∈ selection key (selects time) cursor (rows time) :=
      mem_selection.mpr ⟨hrow, hselects, hkey ▸ hwanted⟩
    rcases (next_eq_some (ascending time) hnext).2.2 row hrow with hin | hlower
    · exact ⟨row, List.mem_append_left _ hin, hkey⟩
    · obtain ⟨found, hfound, hfoundKey⟩ := ih
        (fun _ hb => by cases hb; exact hkey ▸ hlower)
        (fun later hlater hlength => throughout later (by omega) (by
          rw [List.length_cons]
          omega))
      exact ⟨found, List.mem_append_right _ hfound, hfoundKey⟩

end Keyset
