import LabBridge.Library.JsonPrint
import LabBridge.Library.JsonTransfer

/-!
# The compact library between two sides

What the compact parser reads is ordered. An ordered document becomes canonical when its numbers
that are no integers of 64 bits are written as zero, and so it arrives.
-/

namespace JsonText.Json

open ByteText

/-! ## What is read is ordered -/

/-- Of two keys that differ one precedes the other. -/
theorem keyLt_of_ne {k l : Bytes} (hne : k ≠ l) (h : keyLt k l = false) : keyLt l k = true := by
  induction k generalizing l with
  | nil =>
    cases l with
    | nil => exact absurd rfl hne
    | cons b bs => cases h
  | cons a as ih =>
    cases l with
    | nil => rfl
    | cons b bs =>
      simp only [keyLt, Bool.or_eq_false_iff, decide_eq_false_iff_not, Bool.and_eq_false_iff,
        UInt8.not_lt, beq_eq_false_iff_ne] at h
      simp only [keyLt, Bool.or_eq_true, decide_eq_true_eq, Bool.and_eq_true, beq_iff_eq]
      by_cases heq : a = b
      · subst heq
        have htails : as ≠ bs := fun e => hne (by rw [e])
        exact .inr ⟨rfl, ih htails (h.2.resolve_left (not_not_intro rfl))⟩
      · exact .inl (UInt8.lt_of_le_of_ne h.1 (Ne.symm heq))

/-- A key before another one precedes what that one precedes. -/
theorem keyLt_trans {k l m : Bytes} (first : keyLt k l = true) (second : keyLt l m = true) :
    keyLt k m = true := by
  have hlm := keyLt_asymm second
  cases hkm : keyLt k m with
  | true => rfl
  | false =>
    by_cases heq : k = m
    · subst heq
      rw [keyLt_asymm first] at second
      cases second
    · have hmk := keyLt_asymm (keyLt_of_ne heq hkm)
      have hkl := not_keyLt_trans hkm hlm
      rw [first] at hkl
      cases hkl

/-- A list of fields as an ordered map holds them. -/
def OrderedFields (fields : List (Bytes × Json)) : Prop :=
  fields.Pairwise (fun left right => keyLt left.1 right.1 = true) ∧
    ∀ field ∈ fields, field.2.Ordered

/-- A field is among those it is put in front of, or it is the new one. -/
theorem mem_insertField {key : Bytes} {value : Json} {fields : List (Bytes × Json)}
    {field : Bytes × Json} (h : field ∈ insertField key value fields) :
    field = (key, value) ∨ field ∈ fields := by
  induction fields with
  | nil => exact .inl (List.mem_singleton.mp h)
  | cons first rest ih =>
    obtain ⟨other, kept⟩ := first
    unfold insertField at h
    split at h
    · exact List.mem_cons.mp h
    · split at h
      · exact .inr h
      · rcases List.mem_cons.mp h with rfl | hrest
        · exact .inr List.mem_cons_self
        · exact (ih hrest).imp_right (List.mem_cons_of_mem _)

/-- An ordered map stays ordered when a field is put into it. -/
theorem OrderedFields.insertField {key : Bytes} {value : Json} {fields : List (Bytes × Json)}
    (h : OrderedFields fields) (hvalue : value.Ordered) :
    OrderedFields (insertField key value fields) := by
  refine ⟨?_, fun field hfield => ?_⟩
  · obtain ⟨hpairs, -⟩ := h
    induction fields with
    | nil => exact List.pairwise_singleton _ _
    | cons first rest ih =>
      obtain ⟨other, kept⟩ := first
      obtain ⟨hfirst, hrest⟩ := List.pairwise_cons.mp hpairs
      unfold JsonText.insertField
      split
      · rename_i hlt
        refine List.pairwise_cons.mpr ⟨fun field hfield => ?_, hpairs⟩
        rcases List.mem_cons.mp hfield with rfl | hlater
        · exact hlt
        · exact keyLt_trans hlt (hfirst field hlater)
      · split
        · exact hpairs
        · rename_i hnot hne
          refine List.pairwise_cons.mpr ⟨fun field hfield => ?_, ih hrest⟩
          rcases mem_insertField hfield with rfl | hlater
          · exact keyLt_of_ne hne (Bool.not_eq_true _ ▸ hnot)
          · exact hfirst field hlater
  · rcases mem_insertField hfield with rfl | hkept
    · exact hvalue
    · exact h.2 field hkept

/-- A number is ordered. -/
theorem ordered_numberOf {literal : Bytes} {number : Json} (h : numberOf literal = some number) :
    number.Ordered := by
  unfold numberOf at h
  split at h
  · cases h
    exact .int _
  · split at h
    · cases h
      exact .real _
    · cases h

/-- A literal name is ordered. -/
theorem ordered_readName {name input : Bytes} {document : Json} {read : Json × Bytes}
    (hdocument : document.Ordered) (h : readName name document input = some read) :
    read.1.Ordered := by
  unfold readName at h
  split at h
  · cases h
    exact hdocument
  · cases h

/-- What is read with some fuel is ordered. -/
theorem ordered_read (fuel : ℕ) :
    (∀ {input read}, readValue fuel input = some read → read.1.Ordered) ∧
      (∀ {input read}, readItems fuel input = some read → ∀ item ∈ read.1, item.Ordered) ∧
      ∀ {input read}, readFields fuel input = some read → OrderedFields read.1 := by
  induction fuel with
  | zero => exact ⟨nofun, nofun, nofun⟩
  | succ fuel ih =>
    obtain ⟨hvalue, hitems, hfields⟩ := ih
    refine ⟨fun {input read} h => ?_, fun {input read} h => ?_, fun {input read} h => ?_⟩
    · unfold readValue at h
      split at h
      · cases h
      · split at h
        · obtain ⟨found, -, rfl⟩ := Option.map_eq_some_iff.mp h
          exact .str _
        split at h
        · split at h
          · cases h
          · split at h
            · cases h
              exact .arr [] nofun
            · obtain ⟨found, hread, rfl⟩ := Option.map_eq_some_iff.mp h
              exact .arr _ (hitems hread)
        split at h
        · split at h
          · cases h
          · split at h
            · cases h
              exact .obj [] .nil nofun
            · obtain ⟨found, hread, rfl⟩ := Option.map_eq_some_iff.mp h
              exact .obj _ (hfields hread).1 (hfields hread).2
        split at h
        · exact ordered_readName .null h
        split at h
        · exact ordered_readName (.bool true) h
        split at h
        · exact ordered_readName (.bool false) h
        · obtain ⟨number, hnumber, rfl⟩ := Option.map_eq_some_iff.mp h
          exact ordered_numberOf hnumber
    · unfold readItems at h
      obtain ⟨first, hfirst, h⟩ := Option.bind_eq_some_iff.mp h
      split at h
      · cases h
      split at h
      · cases h
        exact List.forall_mem_singleton.mpr (hvalue hfirst)
      split at h
      · obtain ⟨rest, hrest, rfl⟩ := Option.map_eq_some_iff.mp h
        exact List.forall_mem_cons.mpr ⟨hvalue hfirst, hitems hrest⟩
      · cases h
    · unfold readFields at h
      split at h
      · cases h
      split at h
      · obtain ⟨key, hkey, h⟩ := Option.bind_eq_some_iff.mp h
        split at h
        · cases h
        split at h
        · obtain ⟨first, hfirst, h⟩ := Option.bind_eq_some_iff.mp h
          split at h
          · cases h
          split at h
          · cases h
            exact ⟨List.pairwise_singleton _ _, List.forall_mem_singleton.mpr (hvalue hfirst)⟩
          split at h
          · obtain ⟨rest, hrest, rfl⟩ := Option.map_eq_some_iff.mp h
            exact (hfields hrest).insertField (hvalue hfirst)
          · cases h
        · cases h
      · cases h

/-- A document that is read is ordered. -/
theorem ordered_readDocument {input : Bytes} {document : Json}
    (h : readDocument input = some document) : document.Ordered := by
  obtain ⟨read, hread, h⟩ := Option.bind_eq_some_iff.mp h
  split at h
  · cases h
    exact (ordered_read _).1 hread
  · cases h

/-! ## Numbers that may be rewritten -/

mutual

/-- A document with zero for every number that is no integer of 64 bits. -/
def cleared : Json → Json
  | .int value => if -(2 ^ 63) ≤ value ∧ value < 2 ^ 63 then .int value else .int 0
  | .real _ => .int 0
  | .arr items => .arr (clearedItems items)
  | .obj fields => .obj (clearedFields fields)
  | other => other

/-- Cleared documents. -/
def clearedItems : List Json → List Json
  | [] => []
  | item :: rest => item.cleared :: clearedItems rest

/-- Fields with cleared values. -/
def clearedFields : List (Bytes × Json) → List (Bytes × Json)
  | [] => []
  | (key, value) :: rest => (key, value.cleared) :: clearedFields rest

end

/-- Documents are cleared one by one. -/
theorem clearedItems_eq_map (items : List Json) : clearedItems items = items.map cleared := by
  induction items with
  | nil => rfl
  | cons item rest ih => rw [clearedItems, ih, List.map_cons]

/-- Fields are cleared one by one. -/
theorem clearedFields_eq_map (fields : List (Bytes × Json)) :
    clearedFields fields = fields.map fun field => (field.1, field.2.cleared) := by
  induction fields with
  | nil => rfl
  | cons field rest ih => rw [clearedFields, ih, List.map_cons]

/-- A cleared document is canonical, and it is what may arrive. -/
theorem Ordered.cleared {document : Json} (h : document.Ordered) :
    document.cleared.Canonical ∧ document.Arrives document.cleared ∧
      (document.utf8 = true → document.cleared.utf8 = true) := by
  induction h with
  | null => exact ⟨.null, .null, id⟩
  | bool value => exact ⟨.bool value, .bool value, id⟩
  | int value =>
    rw [Json.cleared]
    split
    · rename_i fits
      exact ⟨.int value fits.1 fits.2, .int fits, id⟩
    · rename_i wide
      exact ⟨.int 0 (by decide) (by decide), .wide wide trivial, fun _ => rfl⟩
  | real literal => exact ⟨.int 0 (by decide) (by decide), .real trivial, fun _ => rfl⟩
  | str value => exact ⟨.str value, .str value, id⟩
  | arr items each ih =>
    rw [Json.cleared, clearedItems_eq_map]
    refine ⟨canonical_arr.mpr ?_, arrives_arr.mpr ⟨_, rfl, ?_⟩, fun hutf8 => ?_⟩
    · exact List.forall_mem_map.mpr fun item hitem => (ih item hitem).1
    · exact List.forall₂_map_right_iff.mpr
        (List.forall₂_same.mpr fun item hitem => (ih item hitem).2.1)
    · rw [utf8_arr, List.all_eq_true] at hutf8 ⊢
      exact List.forall_mem_map.mpr fun item hitem => (ih item hitem).2.2 (hutf8 item hitem)
  | obj fields ordered each ih =>
    rw [Json.cleared, clearedFields_eq_map]
    have hkeys : (fields.map fun field => (field.1, field.2.cleared)).map Prod.fst =
        fields.map Prod.fst := by
      rw [List.map_map]
      rfl
    refine ⟨.obj _ (List.pairwise_map.mpr ordered) ?_, .obj hkeys.symm ?_, fun hutf8 => ?_⟩
    · exact List.forall_mem_map.mpr fun field hfield => (ih field hfield).1
    · have hpairs : List.Forall₂ (fun field arrived => Arrives field.2 arrived.2) fields
          (fields.map fun field => (field.1, field.2.cleared)) :=
        List.forall₂_map_right_iff.mpr
          (List.forall₂_same.mpr fun field hfield => (ih field hfield).2.1)
      exact fun _ hpair => (List.forall₂_iff_zip.mp hpairs).2 hpair
    · rw [utf8, utf8Fields_eq_all, List.all_eq_true] at hutf8 ⊢
      refine List.forall_mem_map.mpr fun field hfield => ?_
      obtain ⟨hkey, hvalue⟩ := (Bool.and_eq_true _ _).mp (hutf8 field hfield)
      exact (Bool.and_eq_true _ _).mpr ⟨hkey, (ih field hfield).2.2 hvalue⟩

end JsonText.Json
