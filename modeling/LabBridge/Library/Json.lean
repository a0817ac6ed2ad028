import LabBridge.Library.ByteText

/-!
# JSON documents and the interface of a JSON text library

Documents keep the fields of an object as a list. A canonical document lists them in
increasing byte order of their keys, as a library that stores objects in ordered maps
prints them. `JsonCodec` collects what a program relies on in such a library: printing
fails exactly on strings that are not UTF-8, and parsing inverts printing.
-/

namespace JsonText

open ByteText

/-- A JSON document. A number that is not an integer keeps its literal. -/
inductive Json
  | null
  | bool (value : Bool)
  | int (value : ℤ)
  | real (literal : Bytes)
  | str (value : Bytes)
  | arr (items : List Json)
  | obj (fields : List (Bytes × Json))

namespace Json

/-- The object with the given literal keys, in the order of the list. -/
def record (fields : List (String × Json)) : Json :=
  .obj (fields.map fun field => (text field.1, field.2))

/-- The value stored under a literal key of an object. -/
def field? (document : Json) (key : String) : Option Json :=
  match document with
  | .obj fields => fields.lookup (text key)
  | _ => none

/-- Literals with equal bytes are equal. -/
theorem text_injective : Function.Injective text := by
  intro left right h
  apply String.toByteArray_inj.mp
  ext1
  exact Array.toList_inj.mp h

/-- Looking a key up in a record is looking the literal up. -/
@[simp] theorem field?_record (fields : List (String × Json)) (key : String) :
    (record fields).field? key = fields.lookup key := by
  induction fields with
  | nil => rfl
  | cons field rest ih =>
    obtain ⟨k, v⟩ := field
    simp only [record, field?, List.map_cons] at ih ⊢
    by_cases h : key = k
    · subst h
      simp
    · have ht : (text key == text k) = false := by simpa using fun e => h (text_injective e)
      have hk : (key == k) = false := by simpa using h
      rw [List.lookup_cons, List.lookup_cons, ht, hk]
      exact ih

/-- A document without the field of a literal key. -/
def erase (document : Json) (key : String) : Json :=
  match document with
  | .obj fields => .obj (fields.filter fun field => field.1 != text key)
  | other => other

/-- Byte-by-byte comparison of keys. -/
def keyLt : Bytes → Bytes → Bool
  | [], [] => false
  | [], _ :: _ => true
  | _ :: _, [] => false
  | a :: as, b :: bs => decide (a < b) || (a == b && keyLt as bs)

/-- No key precedes itself. -/
@[simp] theorem keyLt_irrefl (k : Bytes) : keyLt k k = false := by
  induction k with
  | nil => rfl
  | cons a as ih => simp [keyLt, ih]

/-- Of two keys at most one precedes the other. -/
theorem keyLt_asymm {k l : Bytes} (h : keyLt k l = true) : keyLt l k = false := by
  induction k generalizing l with
  | nil =>
    cases l with
    | nil => rfl
    | cons b bs => rfl
  | cons a as ih =>
    cases l with
    | nil => simp [keyLt] at h
    | cons b bs =>
      simp only [keyLt, Bool.or_eq_true, decide_eq_true_eq, Bool.and_eq_true, beq_iff_eq] at h
      simp only [keyLt, Bool.or_eq_false_iff, decide_eq_false_iff_not]
      rcases h with hlt | ⟨rfl, htail⟩
      · refine ⟨UInt8.not_lt.mpr (UInt8.le_of_lt hlt), ?_⟩
        have hne : (b == a) = false := by
          simpa using fun e : b = a => UInt8.lt_irrefl a (e ▸ hlt)
        simp [hne]
      · exact ⟨UInt8.lt_irrefl a, by simp [ih htail]⟩

/-- A key that does not precede one that does not precede a third does not precede the third. -/
theorem not_keyLt_trans {k l m : Bytes} (first : keyLt k l = false) (second : keyLt l m = false) :
    keyLt k m = false := by
  induction k generalizing l m with
  | nil =>
    cases l with
    | nil => exact second
    | cons b bs => cases first
  | cons a as ih =>
    cases l with
    | nil =>
      cases m with
      | nil => rfl
      | cons c cs => cases second
    | cons b bs =>
      cases m with
      | nil => rfl
      | cons c cs =>
        simp only [keyLt, Bool.or_eq_false_iff, decide_eq_false_iff_not, Bool.and_eq_false_iff,
          UInt8.not_lt, beq_eq_false_iff_ne] at first second ⊢
        refine ⟨UInt8.le_trans second.1 first.1, ?_⟩
        by_cases hne : a = c
        · subst hne
          obtain rfl : a = b := UInt8.le_antisymm second.1 first.1
          exact .inr (ih (first.2.resolve_left (not_not_intro rfl))
            (second.2.resolve_left (not_not_intro rfl)))
        · exact .inl hne

mutual

/-- Whether every string and key of a document is UTF-8. -/
def utf8 : Json → Bool
  | .str value => decide (Utf8 value)
  | .arr items => utf8Items items
  | .obj fields => utf8Fields fields
  | _ => true

/-- Whether every document of a list is UTF-8. -/
def utf8Items : List Json → Bool
  | [] => true
  | item :: rest => item.utf8 && utf8Items rest

/-- Whether every key and value of a list of fields is UTF-8. -/
def utf8Fields : List (Bytes × Json) → Bool
  | [] => true
  | (key, value) :: rest => decide (Utf8 key) && (value.utf8 && utf8Fields rest)

end

/-- A list of documents is UTF-8 when all of them are. -/
theorem utf8Items_eq_all (items : List Json) : utf8Items items = items.all utf8 := by
  induction items with
  | nil => rfl
  | cons item rest ih => simp [utf8Items, ih]

/-- A list of fields is UTF-8 when all keys and values are. -/
theorem utf8Fields_eq_all (fields : List (Bytes × Json)) :
    utf8Fields fields = fields.all fun field => decide (Utf8 field.1) && field.2.utf8 := by
  induction fields with
  | nil => rfl
  | cons field rest ih => simp [utf8Fields, ih, Bool.and_assoc]

/-- A record with literal keys is UTF-8 when its values are. -/
@[simp] theorem utf8_record (fields : List (String × Json)) :
    (record fields).utf8 = fields.all fun field => field.2.utf8 := by
  simp [record, utf8, utf8Fields_eq_all, Function.comp_def]

/-- An array is UTF-8 when its items are. -/
@[simp] theorem utf8_arr (items : List Json) : (arr items).utf8 = items.all utf8 := by
  simp [utf8, utf8Items_eq_all]

/-- A string is UTF-8 when its bytes are. -/
@[simp] theorem utf8_str (value : Bytes) : (str value).utf8 = decide (Utf8 value) := by
  simp [utf8]

@[simp] theorem utf8_int (value : ℤ) : (int value).utf8 = true := by simp [utf8]

@[simp] theorem utf8_bool (value : Bool) : (bool value).utf8 = true := by simp [utf8]

/-- Documents in the form a printer and a parser agree on: integers of 64 bits, no other
numbers, and the fields of every object in strictly increasing key order. -/
inductive Canonical : Json → Prop
  | null : Canonical .null
  | bool (value : Bool) : Canonical (.bool value)
  | int (value : ℤ) (low : -(2 ^ 63) ≤ value) (high : value < 2 ^ 63) : Canonical (.int value)
  | str (value : Bytes) : Canonical (.str value)
  | arr (items : List Json) (each : ∀ item ∈ items, Canonical item) : Canonical (.arr items)
  | obj (fields : List (Bytes × Json))
      (ordered : fields.Pairwise fun left right => keyLt left.1 right.1 = true)
      (each : ∀ field ∈ fields, Canonical field.2) : Canonical (.obj fields)

/-- A string is canonical. -/
@[simp] theorem canonical_str (value : Bytes) : Canonical (.str value) := .str value

/-- A truth value is canonical. -/
@[simp] theorem canonical_bool (value : Bool) : Canonical (.bool value) := .bool value

/-- An integer is canonical when it has 64 bits. -/
theorem canonical_int {value : ℤ} :
    Canonical (.int value) ↔ -(2 ^ 63) ≤ value ∧ value < 2 ^ 63 := by
  constructor
  · intro h
    cases h with
    | int _ low high => exact ⟨low, high⟩
  · exact fun h => .int value h.1 h.2

/-- An array is canonical when its items are. -/
@[simp] theorem canonical_arr {items : List Json} :
    Canonical (.arr items) ↔ ∀ item ∈ items, Canonical item := by
  constructor
  · intro h
    cases h with
    | arr _ each => exact each
  · exact .arr items

/-- The literal keys of a record stand in increasing byte order. -/
def keysOrdered (keys : List String) : Bool :=
  (keys.map text).Pairwise (fun left right => keyLt left right = true)

/-- A record with ordered literal keys and canonical values is canonical. -/
theorem Canonical.record {fields : List (String × Json)}
    (ordered : keysOrdered (fields.map Prod.fst) = true)
    (each : ∀ field ∈ fields, Canonical field.2) : Canonical (record fields) := by
  refine .obj _ ?_ ?_
  · have h := of_decide_eq_true ordered
    rw [List.map_map, List.pairwise_map] at h
    exact List.pairwise_map.mpr h
  · intro field hfield
    obtain ⟨source, hsource, rfl⟩ := List.mem_map.mp hfield
    exact each source hsource

end Json

/-- What a program relies on in a JSON library: `dump` prints a document and raises
exactly on strings that are not UTF-8, and `parse` gives back every canonical document
that was printed. -/
structure JsonCodec where
  dump : Json → Option Bytes
  parse : Bytes → Option Json
  dump_isSome (document : Json) : (dump document).isSome = document.utf8
  parse_dump {document : Json} {printed : Bytes} (canonical : document.Canonical)
    (h : dump document = some printed) : parse printed = some document

end JsonText
