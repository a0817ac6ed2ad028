import LabBridge.Library.Utf8

/-!
# The lines of a comma-separated file

A field is written plainly when it holds neither a comma nor a quote, or between quotes with
every inner quote doubled. A line is a sequence of written fields between commas.
-/

namespace CsvGrammar

open ByteText

/-- The byte between fields. -/
def comma : UInt8 := byte ','

/-- The byte around quoted fields. -/
def quote : UInt8 := byte '"'

/-- A field that may be written without quotes. -/
def Plain (field : Bytes) : Prop := ∀ b ∈ field, b ≠ comma ∧ b ≠ quote

/-- A field with every quote doubled. -/
def doubled (field : Bytes) : Bytes :=
  field.flatMap fun b => if b = quote then [quote, quote] else [b]

/-- A field between quotes. -/
def quoted (field : Bytes) : Bytes := quote :: (doubled field ++ [quote])

/-- The ways to write a field. -/
def WritesField (written field : Bytes) : Prop :=
  written = field ∧ Plain field ∨ written = quoted field

/-- The fields that a line is written from. -/
inductive CsvLine : Bytes → List Bytes → Prop
  | last {written field : Bytes} (h : WritesField written field) : CsvLine written [field]
  | more {written field line : Bytes} {fields : List Bytes} (h : WritesField written field)
      (rest : CsvLine line fields) : CsvLine (written ++ comma :: line) (field :: fields)

/-- The line of some fields, each between quotes. -/
def quotedLine (fields : List Bytes) : Bytes := [comma].intercalate (fields.map quoted)

/-- A line of quoted fields is written from them. -/
theorem csvLine_quotedLine {fields : List Bytes} (h : fields ≠ []) :
    CsvLine (quotedLine fields) fields := by
  induction fields with
  | nil => exact absurd rfl h
  | cons field rest ih =>
    cases rest with
    | nil =>
      have hline : quotedLine [field] = quoted field := by simp [quotedLine, List.intercalate]
      rw [hline]
      exact .last (.inr rfl)
    | cons next rest =>
      have hline : quotedLine (field :: next :: rest) =
          quoted field ++ comma :: quotedLine (next :: rest) := by
        simp [quotedLine, List.intercalate]
      rw [hline]
      exact .more (.inr rfl) (ih (List.cons_ne_nil _ _))

/-! ## Doubling -/

@[simp] theorem doubled_nil : doubled [] = [] := rfl

@[simp] theorem doubled_quote (field : Bytes) :
    doubled (quote :: field) = quote :: quote :: doubled field := rfl

theorem doubled_cons {b : UInt8} (h : b ≠ quote) (field : Bytes) :
    doubled (b :: field) = b :: doubled field := by
  rw [doubled, List.flatMap_cons, if_neg h]
  rfl

/-- A field without quotes is doubled to itself. -/
theorem doubled_append_of_unquoted {start : Bytes} (h : ∀ b ∈ start, b ≠ quote) (field : Bytes) :
    doubled (start ++ field) = start ++ doubled field := by
  induction start with
  | nil => rfl
  | cons b start ih =>
    rw [List.cons_append, doubled_cons (h b List.mem_cons_self),
      ih fun c hc => h c (List.mem_cons_of_mem _ hc)]
    rfl

theorem quote_lt : quote < 128 := by decide

theorem comma_lt : comma < 128 := by decide

/-- A field is a text when its doubled form is. -/
theorem utf8_of_doubled {field : Bytes} (h : Utf8 (doubled field)) : Utf8 field := by
  induction hlength : field.length using Nat.strong_induction_on generalizing field with
  | _ length ih =>
    by_cases hquote : quote ∈ field
    · obtain ⟨start, rest, rfl, hstart⟩ := List.eq_append_cons_of_mem hquote
      rw [doubled_append_of_unquoted (fun b hb => ne_of_mem_of_not_mem hb hstart),
        doubled_quote] at h
      obtain ⟨hbefore, hafter⟩ := h.cut_ascii quote_lt
      have hdoubled : Utf8 (doubled rest) := (Utf8.cut_ascii (s := []) hafter quote_lt).2
      have hrest : Utf8 rest := ih rest.length (by simp at hlength; omega) hdoubled rfl
      have hone : Utf8 [quote] := utf8_ascii (by simpa using quote_lt)
      exact hbefore.append (hone.append hrest)
    · have hsame := doubled_append_of_unquoted (fun b hb => ne_of_mem_of_not_mem hb hquote) []
      rw [List.append_nil, doubled_nil, List.append_nil] at hsame
      rwa [hsame] at h

theorem WritesField.utf8 {written field : Bytes} (h : WritesField written field)
    (hwritten : Utf8 written) : Utf8 field := by
  rcases h with ⟨rfl, -⟩ | rfl
  · exact hwritten
  · apply utf8_of_doubled
    have hinner : Utf8 (doubled field ++ [quote]) := (Utf8.cut_ascii (s := []) hwritten quote_lt).2
    exact (hinner.cut_ascii quote_lt).1

/-- The fields of a line that is a text are texts. -/
theorem CsvLine.utf8 {line : Bytes} {fields : List Bytes} (h : CsvLine line fields)
    (hline : Utf8 line) : ∀ field ∈ fields, Utf8 field := by
  induction h with
  | last h =>
    intro field hfield
    rw [List.mem_singleton.mp hfield]
    exact h.utf8 hline
  | more h rest ih =>
    obtain ⟨hwritten, hrest⟩ := hline.cut_ascii comma_lt
    intro field hfield
    rcases List.mem_cons.mp hfield with rfl | hmem
    · exact h.utf8 hwritten
    · exact ih hrest field hmem

end CsvGrammar
