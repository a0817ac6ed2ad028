import LabBridge.Library.Json
import Mathlib.Data.List.Forall2

/-!
# Documents between two JSON libraries

A document that one library prints and another one reads arrives as it was, but for numbers that
are no integers of 64 bits: these arrive as numbers that may be written in another way.
-/

namespace JsonText.Json

open ByteText

/-- A number of any kind. -/
def IsNumber : Json → Prop
  | .int _ => True
  | .real _ => True
  | _ => False

/-- An integer that every library keeps. -/
def Fits (value : ℤ) : Prop := -(2 ^ 63) ≤ value ∧ value < 2 ^ 63

/-- How a document arrives. -/
inductive Arrives : Json → Json → Prop
  | null : Arrives .null .null
  | bool (value : Bool) : Arrives (.bool value) (.bool value)
  | int {value : ℤ} (fits : Fits value) : Arrives (.int value) (.int value)
  | wide {value : ℤ} {received : Json} (wide : ¬ Fits value) (number : received.IsNumber) :
      Arrives (.int value) received
  | real {literal : Bytes} {received : Json} (number : received.IsNumber) :
      Arrives (.real literal) received
  | str (value : Bytes) : Arrives (.str value) (.str value)
  | arr {items received : List Json} (length : items.length = received.length)
      (each : ∀ pair ∈ items.zip received, Arrives pair.1 pair.2) :
      Arrives (.arr items) (.arr received)
  | obj {fields received : List (Bytes × Json)}
      (keys : fields.map Prod.fst = received.map Prod.fst)
      (each : ∀ pair ∈ fields.zip received, Arrives pair.1.2 pair.2.2) :
      Arrives (.obj fields) (.obj received)

/-- Objects as a library that keeps them in ordered maps holds them. -/
inductive Ordered : Json → Prop
  | null : Ordered .null
  | bool (value : Bool) : Ordered (.bool value)
  | int (value : ℤ) : Ordered (.int value)
  | real (literal : Bytes) : Ordered (.real literal)
  | str (value : Bytes) : Ordered (.str value)
  | arr (items : List Json) (each : ∀ item ∈ items, Ordered item) : Ordered (.arr items)
  | obj (fields : List (Bytes × Json))
      (ordered : fields.Pairwise fun left right => keyLt left.1 right.1 = true)
      (each : ∀ field ∈ fields, Ordered field.2) : Ordered (.obj fields)

mutual

/-- How deep the arrays and objects of a document are nested. -/
def depth : Json → ℕ
  | .arr items => depthItems items + 1
  | .obj fields => depthFields fields + 1
  | _ => 0

/-- The depth of the deepest document of a list. -/
def depthItems : List Json → ℕ
  | [] => 0
  | item :: rest => max item.depth (depthItems rest)

/-- The depth of the deepest value of a list of fields. -/
def depthFields : List (Bytes × Json) → ℕ
  | [] => 0
  | (_, value) :: rest => max value.depth (depthFields rest)

end

/-- A list of documents is as deep as its deepest one. -/
theorem depthItems_le {items : List Json} {n : ℕ} :
    depthItems items ≤ n ↔ ∀ item ∈ items, item.depth ≤ n := by
  induction items with
  | nil => simp [depthItems]
  | cons item rest ih => rw [depthItems, Nat.max_le, ih, List.forall_mem_cons]

/-- A list of fields is as deep as its deepest value. -/
theorem depthFields_le {fields : List (Bytes × Json)} {n : ℕ} :
    depthFields fields ≤ n ↔ ∀ field ∈ fields, field.2.depth ≤ n := by
  induction fields with
  | nil => simp [depthFields]
  | cons field rest ih =>
    obtain ⟨key, value⟩ := field
    rw [depthFields, Nat.max_le, ih, List.forall_mem_cons]

/-- An array is one deeper than its items. -/
theorem depth_arr_le {items : List Json} {n : ℕ} (h : ∀ item ∈ items, item.depth ≤ n) :
    (arr items).depth ≤ n + 1 := by
  rw [depth]
  exact Nat.succ_le_succ (depthItems_le.mpr h)

/-- A record is one deeper than its values. -/
theorem depth_record_le {fields : List (String × Json)} {n : ℕ}
    (h : ∀ field ∈ fields, field.2.depth ≤ n) : (record fields).depth ≤ n + 1 := by
  rw [record, depth]
  exact Nat.succ_le_succ (depthFields_le.mpr (List.forall_mem_map.mpr h))

/-- Leaving a field out does not make a document deeper. -/
theorem depth_erase_le (document : Json) (key : String) :
    (document.erase key).depth ≤ document.depth := by
  cases document with
  | obj fields =>
    rw [erase, depth, depth]
    have hfields := depthFields_le.mp (le_refl (depthFields fields))
    exact Nat.succ_le_succ (depthFields_le.mpr fun field hfield =>
      hfields field (List.mem_filter.mp hfield).1)
  | null | bool | int | real | str | arr => exact le_rfl

/-! ## Fields that are left out -/

/-- A field is found where another one is left out. -/
theorem field?_erase {document : Json} {key left : String} (h : key ≠ left) :
    (document.erase left).field? key = document.field? key := by
  cases document with
  | obj fields =>
    have hne : (text key != text left) = true := by simpa using fun e => h (text_injective e)
    change (fields.filter fun field => field.1 != text left).lookup (text key) =
      fields.lookup (text key)
    induction fields with
    | nil => rfl
    | cons field rest ih =>
      obtain ⟨name, value⟩ := field
      rw [List.filter_cons, List.lookup_cons]
      by_cases hkey : text key = name
      · subst hkey
        simp [hne]
      · have hdiffers : (text key == name) = false := by simpa using hkey
        rw [hdiffers]
        cases hkept : name != text left with
        | true => simp only [if_true, List.lookup_cons, hdiffers, ih]
        | false => simpa using ih
  | null | bool | int | real | str | arr => rfl

/-- A canonical document stays canonical when a field is left out. -/
theorem Canonical.erase {document : Json} (h : document.Canonical) (key : String) :
    (document.erase key).Canonical := by
  cases h with
  | obj fields ordered each =>
    apply Canonical.obj
    · exact ordered.sublist List.filter_sublist
    · exact fun field hfield => each field (List.mem_filter.mp hfield).1
  | null => exact .null
  | bool value => exact .bool value
  | int value low high => exact .int value low high
  | str value => exact .str value
  | arr items each => exact .arr items each

/-! ## Ordered documents -/

/-- An array is ordered when its items are. -/
@[simp] theorem ordered_arr {items : List Json} :
    Ordered (.arr items) ↔ ∀ item ∈ items, Ordered item := by
  constructor
  · intro h
    cases h with
    | arr _ each => exact each
  · exact .arr items

@[simp] theorem ordered_str (value : Bytes) : Ordered (.str value) := .str value

@[simp] theorem ordered_bool (value : Bool) : Ordered (.bool value) := .bool value

@[simp] theorem ordered_int (value : ℤ) : Ordered (.int value) := .int value

/-- A record with ordered literal keys and ordered values is ordered. -/
theorem Ordered.record {fields : List (String × Json)}
    (ordered : keysOrdered (fields.map Prod.fst) = true)
    (each : ∀ field ∈ fields, Ordered field.2) : Ordered (record fields) := by
  apply Ordered.obj
  · have h := of_decide_eq_true ordered
    rw [List.map_map, List.pairwise_map] at h
    exact List.pairwise_map.mpr h
  · intro field hfield
    obtain ⟨source, hsource, rfl⟩ := List.mem_map.mp hfield
    exact each source hsource

/-- A field of a document is UTF-8 when the document is. -/
theorem utf8_of_field? {document value : Json} (h : document.utf8 = true) {key : String}
    (hvalue : document.field? key = some value) : value.utf8 = true := by
  cases document with
  | obj fields =>
    rw [utf8, utf8Fields_eq_all, List.all_eq_true] at h
    change fields.lookup (text key) = some value at hvalue
    obtain ⟨left, right, rfl, -⟩ := List.lookup_eq_some_iff.mp hvalue
    exact ((Bool.and_eq_true _ _).mp (h (text key, value) (by simp))).2
  | null | bool | int | real | str | arr => cases hvalue

/-! ## What arrives -/

/-- A string arrives as it was. -/
@[simp] theorem arrives_str {value : Bytes} {received : Json} :
    Arrives (.str value) received ↔ received = .str value := by
  constructor
  · intro h
    cases h with
    | str => rfl
  · rintro rfl
    exact .str value

/-- A truth value arrives as it was. -/
@[simp] theorem arrives_bool {value : Bool} {received : Json} :
    Arrives (.bool value) received ↔ received = .bool value := by
  constructor
  · intro h
    cases h with
    | bool => rfl
  · rintro rfl
    exact .bool value

/-- An integer of 64 bits arrives as it was. -/
theorem Arrives.int_eq {value : ℤ} {received : Json} (h : Arrives (.int value) received)
    (fits : Fits value) : received = .int value := by
  cases h with
  | int => rfl
  | wide wide => exact absurd fits wide

/-- An array arrives when its items do. -/
theorem arrives_arr {items : List Json} {received : Json} :
    Arrives (.arr items) received ↔
      ∃ arrived, received = .arr arrived ∧ List.Forall₂ Arrives items arrived := by
  constructor
  · intro h
    cases h with
    | arr length each => exact ⟨_, rfl, List.forall₂_iff_zip.mpr ⟨length, fun hpair =>
        each _ hpair⟩⟩
  · rintro ⟨arrived, rfl, h⟩
    obtain ⟨length, each⟩ := List.forall₂_iff_zip.mp h
    exact .arr length fun _ hpair => each hpair

/-- An object arrives as an object. -/
theorem Arrives.obj_eq {fields : List (Bytes × Json)} {received : Json}
    (h : Arrives (.obj fields) received) : ∃ arrived, received = .obj arrived := by
  cases h with
  | obj keys each => exact ⟨_, rfl⟩

/-- The fields of an object arrive under their keys. -/
theorem lookup_arrives {fields received : List (Bytes × Json)}
    (keys : fields.map Prod.fst = received.map Prod.fst)
    (each : ∀ pair ∈ fields.zip received, Arrives pair.1.2 pair.2.2) (key : Bytes) :
    Option.Rel Arrives (fields.lookup key) (received.lookup key) := by
  induction fields generalizing received with
  | nil =>
    cases received with
    | nil => exact .none
    | cons field rest => cases keys
  | cons field fields ih =>
    cases received with
    | nil => cases keys
    | cons arrived received =>
      obtain ⟨name, value⟩ := field
      obtain ⟨same, other⟩ := arrived
      obtain ⟨rfl, hkeys⟩ := List.cons.inj keys
      rw [List.lookup_cons, List.lookup_cons]
      cases key == name with
      | true => exact .some (each _ List.mem_cons_self)
      | false => exact ih hkeys fun pair hpair => each pair (List.mem_cons_of_mem _ hpair)

/-- A field of a document arrives. -/
theorem Arrives.field? {document received : Json} (h : Arrives document received)
    (hobject : ∃ fields, document = .obj fields) (key : String) :
    Option.Rel Arrives (document.field? key) (received.field? key) := by
  obtain ⟨fields, rfl⟩ := hobject
  cases h with
  | obj keys each => exact lookup_arrives keys each (text key)

/-- A field of a record arrives. -/
theorem Arrives.lookup {fields : List (String × Json)} {received : Json}
    (h : Arrives (.record fields) received) (key : String) :
    Option.Rel Arrives (fields.lookup key) (received.field? key) := by
  rw [← field?_record]
  exact h.field? ⟨_, rfl⟩ key

/-- A field that a record has arrives. -/
theorem Arrives.field_of_lookup {fields : List (String × Json)} {received value : Json}
    (h : Arrives (.record fields) received) (key : String) (hvalue : fields.lookup key = some value) :
    ∃ arrived, received.field? key = some arrived ∧ Arrives value arrived := by
  have hlookup := h.lookup key
  rw [hvalue] at hlookup
  cases hfound : received.field? key with
  | none =>
    rw [hfound] at hlookup
    cases hlookup
  | some arrived =>
    rw [hfound] at hlookup
    cases hlookup with
    | some harrives => exact ⟨arrived, rfl, harrives⟩

/-- A string of a record arrives as it was. -/
theorem Arrives.str_of_lookup {fields : List (String × Json)} {received : Json} {value : Bytes}
    (h : Arrives (.record fields) received) (key : String)
    (hvalue : fields.lookup key = some (.str value)) : received.field? key = some (.str value) := by
  obtain ⟨arrived, hfound, harrives⟩ := h.field_of_lookup key hvalue
  rw [hfound, arrives_str.mp harrives]

/-- A truth value of a record arrives as it was. -/
theorem Arrives.bool_of_lookup {fields : List (String × Json)} {received : Json} {value : Bool}
    (h : Arrives (.record fields) received) (key : String)
    (hvalue : fields.lookup key = some (.bool value)) :
    received.field? key = some (.bool value) := by
  obtain ⟨arrived, hfound, harrives⟩ := h.field_of_lookup key hvalue
  rw [hfound, arrives_bool.mp harrives]

/-- An array of a record arrives item by item. -/
theorem Arrives.arr_of_lookup {fields : List (String × Json)} {received : Json} {items : List Json}
    (h : Arrives (.record fields) received) (key : String)
    (hvalue : fields.lookup key = some (.arr items)) :
    ∃ arrived, received.field? key = some (.arr arrived) ∧ List.Forall₂ Arrives items arrived := by
  obtain ⟨value, hfound, harrives⟩ := h.field_of_lookup key hvalue
  obtain ⟨arrived, rfl, hitems⟩ := arrives_arr.mp harrives
  exact ⟨arrived, hfound, hitems⟩

/-- An ordered document may arrive as it is. -/
theorem Ordered.arrives {document : Json} (h : document.Ordered) : document.Arrives document := by
  induction h with
  | null => exact .null
  | bool value => exact .bool value
  | int value =>
    by_cases fits : Fits value
    · exact .int fits
    · exact .wide fits trivial
  | real literal => exact .real trivial
  | str value => exact .str value
  | arr items each ih =>
    exact arrives_arr.mpr ⟨items, rfl, List.forall₂_same.mpr ih⟩
  | obj fields ordered each ih =>
    have hpairs : List.Forall₂ (fun field arrived => Arrives field.2 arrived.2) fields fields :=
      List.forall₂_same.mpr ih
    exact .obj rfl fun _ hpair => (List.forall₂_iff_zip.mp hpairs).2 hpair

/-- A number arrives as a number. -/
theorem Arrives.isNumber {document received : Json} (h : Arrives document received)
    (number : document.IsNumber) : received.IsNumber := by
  cases h with
  | int => trivial
  | wide _ number => exact number
  | real number => exact number
  | null | bool | str | arr | obj => cases number

/-- Pairs of pairs, when their middle members agree. -/
theorem forall₂_trans {α β γ : Type} {R : α → β → Prop} {S : β → γ → Prop} {T : α → γ → Prop}
    (trans : ∀ {first second third}, R first second → S second third → T first third)
    {left : List α} {middle : List β} {right : List γ} (first : List.Forall₂ R left middle)
    (second : List.Forall₂ S middle right) : List.Forall₂ T left right := by
  induction first generalizing right with
  | nil =>
    cases second
    exact .nil
  | cons head _ ih =>
    cases second with
    | cons next rest => exact .cons (trans head next) (ih rest)

/-- What arrives of what arrived arrives. -/
theorem Arrives.trans {first second third : Json} (h : Arrives first second)
    (next : Arrives second third) : Arrives first third := by
  induction h generalizing third with
  | null => exact next
  | bool value => exact next
  | int fits => exact next
  | wide wide number => exact .wide wide (next.isNumber number)
  | real number => exact .real (next.isNumber number)
  | str value => exact next
  | @arr items received length each ih =>
    cases next with
    | @arr _ later hlength heach =>
      have hfirst : List.Forall₂ (fun item arrived => ∀ {third}, Arrives arrived third →
          Arrives item third) items received :=
        List.forall₂_iff_zip.mpr ⟨length, fun hpair => ih _ hpair⟩
      have hsecond : List.Forall₂ Arrives received later :=
        List.forall₂_iff_zip.mpr ⟨hlength, fun hpair => heach _ hpair⟩
      refine arrives_arr.mpr ⟨later, rfl, ?_⟩
      exact forall₂_trans (fun hitem harrived => hitem harrived) hfirst hsecond
  | @obj fields received keys each ih =>
    cases next with
    | @obj _ later hkeys heach =>
      have hlength : fields.length = received.length := by
        simpa using congrArg List.length keys
      have hlater : received.length = later.length := by
        simpa using congrArg List.length hkeys
      have hfirst : List.Forall₂ (fun field arrived => ∀ {third}, Arrives arrived.2 third →
          Arrives field.2 third) fields received :=
        List.forall₂_iff_zip.mpr ⟨hlength, fun hpair => ih _ hpair⟩
      have hsecond : List.Forall₂ (fun field arrived => Arrives field.2 arrived.2) received later :=
        List.forall₂_iff_zip.mpr ⟨hlater, fun hpair => heach _ hpair⟩
      have hboth : List.Forall₂ (fun field arrived => Arrives field.2 arrived.2) fields later :=
        forall₂_trans (fun hfield harrived => hfield harrived) hfirst hsecond
      exact .obj (keys.trans hkeys) fun _ hpair => (List.forall₂_iff_zip.mp hboth).2 hpair

end JsonText.Json
