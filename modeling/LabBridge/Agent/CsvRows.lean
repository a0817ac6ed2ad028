import LabBridge.Agent.CompactJson
import LabBridge.Agent.CsvLines
import LabBridge.Library.Fallible
import LabBridge.Library.JsonMembers

/-!
# What becomes of the rows of an observation file

Up to the first quote that is not closed, every line behind the header is blank, a record or
an error. Printing the payload is the only step that can raise, and it does so exactly on a
column name or a cell that is no text.
-/

namespace LabBridge.Agent

open ByteText JsonText CsvGrammar Fallible LabBridge.Core

variable {J : Nlohmann} {header fields : List Bytes} {line : Bytes} {lines : List Bytes}
  {lineNumber : ℕ}

/-- What becomes of a line. -/
inductive CsvRow
  | blank
  | record (parsed : ParsedRecord)
  | error (message : Bytes)
  deriving DecidableEq

/-- The record of a row that is one. -/
def CsvRow.record? : CsvRow → Option ParsedRecord
  | .record parsed => some parsed
  | _ => none

/-- The message of a row that is an error. -/
def CsvRow.error? : CsvRow → Option Bytes
  | .error message => some message
  | _ => none

/-- A line with a quote that is not closed. -/
def IsUnclosed (line : Bytes) : Prop := (parseCsvLine (stripLineEnding line)).unclosedQuote = true

instance : DecidablePred IsUnclosed := fun line =>
  inferInstanceAs (Decidable ((parseCsvLine (stripLineEnding line)).unclosedQuote = true))

/-- The fields of a line that is a record under a header. -/
def IsRecordLine (header : List Bytes) (line : Bytes) (fields : List Bytes) : Prop :=
  stripLineEnding line ≠ [] ∧ CsvLine (stripLineEnding line) fields ∧
    fields.length = header.length

/-- The row of a line: a line that is neither blank nor a record is an error. -/
def DescribesLine (header : List Bytes) (line : Bytes) : CsvRow → Prop
  | .blank => stripLineEnding line = []
  | .record parsed => ∃ fields, IsRecordLine header line fields ∧
      parsed.stationCode = fields.getD 0 [] ∧ parsed.deviceCode = fields.getD 1 [] ∧
      parsed.recordTime = fields.getD 2 []
  | .error _ => stripLineEnding line ≠ [] ∧ ¬∃ fields, IsRecordLine header line fields

/-- The row of a line whose quotes are closed. -/
def csvRow (J : Nlohmann) (header : List Bytes) (lineNumber : ℕ) (line : Bytes) :
    Except AgentError CsvRow :=
  let parsed := parseCsvLine (stripLineEnding line)
  if stripLineEnding line = [] then pure .blank
  else if parsed.error ≠ [] then
    pure (.error (text "line " ++ decimal lineNumber ++ text " " ++ parsed.error))
  else if parsed.fields.length ≠ header.length then
    pure (.error (fieldCountError lineNumber header parsed.fields))
  else CsvRow.record <$> rowRecord J header parsed.fields

/-- The rows of lines under their numbers. -/
def csvRows (J : Nlohmann) (header : List Bytes) (lineNumber : ℕ) (lines : List Bytes) :
    Except AgentError (List CsvRow) :=
  (lines.zipIdx lineNumber).mapM fun numbered => csvRow J header numbered.2 numbered.1

/-- A result with the records and the errors of further rows. -/
def ParseResult.extend (result : ParseResult) (rows : List CsvRow) : ParseResult :=
  { result with
    records := result.records ++ rows.filterMap CsvRow.record?
    errors := result.errors ++ rows.filterMap CsvRow.error? }

@[simp] theorem extend_nil (result : ParseResult) : result.extend [] = result := by
  simp [ParseResult.extend]

@[simp] theorem extend_blank (result : ParseResult) : result.extend [.blank] = result := by
  simp [ParseResult.extend, List.filterMap, CsvRow.record?, CsvRow.error?]

@[simp] theorem extend_record (result : ParseResult) (parsed : ParsedRecord) :
    result.extend [.record parsed] = { result with records := result.records ++ [parsed] } := by
  simp [ParseResult.extend, List.filterMap, CsvRow.record?, CsvRow.error?]

@[simp] theorem extend_error (result : ParseResult) (message : Bytes) :
    result.extend [.error message] = { result with errors := result.errors ++ [message] } := by
  simp [ParseResult.extend, List.filterMap, CsvRow.record?, CsvRow.error?]

/-- Rows are added in order. -/
theorem extend_cons (result : ParseResult) (row : CsvRow) (rows : List CsvRow) :
    (result.extend [row]).extend rows = result.extend (row :: rows) := by
  simp only [ParseResult.extend, List.append_assoc, ← List.filterMap_append,
    List.singleton_append]

theorem not_isUnclosed_of_blank (h : stripLineEnding line = []) : ¬IsUnclosed line := by
  rw [IsUnclosed, h]
  decide

/-- A line whose quotes are closed adds its row. -/
theorem parseLines_cons (h : ¬IsUnclosed line) (result : ParseResult) :
    parseLines J header lineNumber (line :: lines) result =
      csvRow J header lineNumber line >>= fun row =>
        parseLines J header (lineNumber + 1) lines (result.extend [row]) := by
  have hclosed : (parseCsvLine (stripLineEnding line)).unclosedQuote = false := by
    simpa [IsUnclosed] using h
  rw [parseLines, csvRow]
  by_cases hblank : stripLineEnding line = []
  · simp [hblank]
  · by_cases herror : (parseCsvLine (stripLineEnding line)).error = []
    · by_cases hcount : (parseCsvLine (stripLineEnding line)).fields.length = header.length
      · simp [hblank, hclosed, herror, hcount]
      · simp [hblank, hclosed, herror, hcount]
    · simp [hblank, hclosed, herror]

/-- The first line with an open quote ends the file. -/
theorem parseLines_unclosed (h : IsUnclosed line) (result : ParseResult) :
    parseLines J header lineNumber (line :: lines) result =
      pure { result with failure := some (text "csv line " ++ decimal lineNumber ++
        text " has an unclosed quote; multi-line fields are not supported") } := by
  have hblank : stripLineEnding line ≠ [] := fun hblank => not_isUnclosed_of_blank hblank h
  rw [parseLines, if_neg hblank]
  simp only [show (parseCsvLine (stripLineEnding line)).unclosedQuote = true from h, if_true]

/-- Lines whose quotes are closed add their rows in order. -/
theorem parseLines_append (J : Nlohmann) (header : List Bytes) (lineNumber : ℕ)
    (h : ∀ line ∈ lines, ¬IsUnclosed line) (more : List Bytes) (result : ParseResult) :
    parseLines J header lineNumber (lines ++ more) result =
      csvRows J header lineNumber lines >>= fun rows =>
        parseLines J header (lineNumber + lines.length) more (result.extend rows) := by
  induction lines generalizing lineNumber result with
  | nil => simp [csvRows]
  | cons line lines ih =>
    have hrest := fun other hother => h other (List.mem_cons_of_mem _ hother)
    rw [List.cons_append, parseLines_cons (h line List.mem_cons_self)]
    simp only [ih (lineNumber + 1) hrest, csvRows, List.zipIdx_cons, List.mapM_cons, bind_assoc, pure_bind,
      extend_cons, List.length_cons, Nat.add_assoc, Nat.add_comm 1]

/-! ## Printing -/

/-- A string without its quotes is printed exactly when it is a text. -/
theorem exists_jsonStringValue {value : Bytes} :
    (∃ printed, jsonStringValue J value = .ok printed) ↔ Utf8 value := by
  have hprints := J.dump_isSome (.str value)
  simp only [jsonStringValue, bind_eq_ok, pure_eq_ok, J.dumped_eq_ok]
  rw [Json.utf8_str] at hprints
  rw [← decide_eq_true_iff (p := Utf8 value), ← hprints, Option.isSome_iff_exists]
  exact ⟨fun ⟨_, dumped, h, _⟩ => ⟨dumped, h⟩, fun ⟨dumped, h⟩ => ⟨_, dumped, h, rfl⟩⟩

/-- A field of a payload is printed exactly when its name and its value are texts. -/
theorem exists_payloadField {column : Bytes × Bytes} :
    (∃ printed, payloadField J column = .ok printed) ↔ Utf8 column.1 ∧ Utf8 column.2 := by
  rw [← exists_jsonStringValue (J := J), ← exists_jsonStringValue (J := J)]
  simp only [payloadField, bind_eq_ok, pure_eq_ok]
  constructor
  · rintro ⟨_, name, hname, value, hvalue, -⟩
    exact ⟨⟨name, hname⟩, value, hvalue⟩
  · rintro ⟨⟨name, hname⟩, value, hvalue⟩
    exact ⟨_, name, hname, value, hvalue, rfl⟩

/-- The columns of a row that go into its payload are texts. -/
def PrintablePayload (header fields : List Bytes) : Prop :=
  ∀ column ∈ payloadColumns header fields, Utf8 column.1 ∧ Utf8 column.2

theorem exists_rowRecord :
    (∃ parsed, rowRecord J header fields = .ok parsed) ↔ PrintablePayload header fields := by
  have hcolumns : PrintablePayload header fields ↔
      ∀ column ∈ payloadColumns header fields, ∃ printed, payloadField J column = .ok printed :=
    forall₂_congr fun _ _ => exists_payloadField.symm
  rw [hcolumns, ← exists_mapM_eq_ok]
  simp only [rowRecord, makePayloadJson, bind_eq_ok, pure_eq_ok]
  constructor
  · rintro ⟨_, _, ⟨printed, h, -⟩, -⟩
    exact ⟨printed, h⟩
  · rintro ⟨printed, h⟩
    exact ⟨_, _, ⟨printed, h, rfl⟩, rfl⟩

/-! ## One line -/

/-- A line whose quotes are closed is a record line exactly when it is no error. -/
theorem isRecordLine_iff (h : ¬IsUnclosed line) :
    IsRecordLine header line fields ↔ stripLineEnding line ≠ [] ∧
      (parseCsvLine (stripLineEnding line)).error = [] ∧
      (parseCsvLine (stripLineEnding line)).fields = fields ∧ fields.length = header.length := by
  have hclosed : (parseCsvLine (stripLineEnding line)).unclosedQuote = false := by
    simpa [IsUnclosed] using h
  rw [IsRecordLine, ← parseCsvLine_iff]
  rcases hparsed : parseCsvLine (stripLineEnding line) with ⟨found, error, unclosedQuote⟩
  rw [hparsed] at hclosed
  simp only [CsvLineParseResult.mk.injEq]
  grind

/-- The row of a line describes it. -/
theorem csvRow_describes (h : ¬IsUnclosed line) {row : CsvRow}
    (hrow : csvRow J header lineNumber line = .ok row) : DescribesLine header line row := by
  unfold csvRow at hrow
  dsimp only at hrow
  by_cases hblank : stripLineEnding line = []
  · rw [if_pos hblank, pure_eq_ok] at hrow
    subst hrow
    exact hblank
  · rw [if_neg hblank] at hrow
    by_cases herror : (parseCsvLine (stripLineEnding line)).error = []
    · rw [if_neg (not_not.mpr herror)] at hrow
      by_cases hcount : (parseCsvLine (stripLineEnding line)).fields.length = header.length
      · rw [if_neg (not_not.mpr hcount), map_eq_ok] at hrow
        obtain ⟨parsed, hparsed, rfl⟩ := hrow
        simp only [rowRecord, bind_eq_ok, pure_eq_ok] at hparsed
        obtain ⟨payloadJson, -, rfl⟩ := hparsed
        exact ⟨_, (isRecordLine_iff h).mpr ⟨hblank, herror, rfl, hcount⟩, rfl, rfl, rfl⟩
      · rw [if_pos hcount, pure_eq_ok] at hrow
        subst hrow
        refine ⟨hblank, ?_⟩
        rintro ⟨fields, hfields⟩
        obtain ⟨-, -, rfl, hlength⟩ := (isRecordLine_iff h).mp hfields
        exact hcount hlength
    · rw [if_pos herror, pure_eq_ok] at hrow
      subst hrow
      refine ⟨hblank, ?_⟩
      rintro ⟨fields, hfields⟩
      exact herror ((isRecordLine_iff h).mp hfields).2.1

/-- The row of a record line is its record. -/
theorem csvRow_of_isRecordLine (h : ¬IsUnclosed line) (hfields : IsRecordLine header line fields) :
    csvRow J header lineNumber line = CsvRow.record <$> rowRecord J header fields := by
  obtain ⟨hblank, herror, rfl, hcount⟩ := (isRecordLine_iff h).mp hfields
  rw [csvRow, if_neg hblank]
  simp only [if_neg (not_not.mpr herror), if_neg (not_not.mpr hcount)]

/-- A line has a row unless it is a record line that cannot be printed. -/
theorem exists_csvRow (h : ¬IsUnclosed line) :
    (∃ row, csvRow J header lineNumber line = .ok row) ↔
      ∀ fields, IsRecordLine header line fields → PrintablePayload header fields := by
  constructor
  · rintro ⟨row, hrow⟩ fields hfields
    rw [csvRow_of_isRecordLine h hfields, map_eq_ok] at hrow
    obtain ⟨parsed, hparsed, -⟩ := hrow
    exact exists_rowRecord.mp ⟨parsed, hparsed⟩
  · intro hprintable
    by_cases hfields : ∃ fields, IsRecordLine header line fields
    · obtain ⟨fields, hfields⟩ := hfields
      obtain ⟨parsed, hparsed⟩ := (exists_rowRecord (J := J)).mpr (hprintable fields hfields)
      rw [csvRow_of_isRecordLine h hfields, hparsed]
      exact ⟨_, rfl⟩
    · rw [csvRow]
      by_cases hblank : stripLineEnding line = []
      · exact ⟨_, if_pos hblank⟩
      · rw [if_neg hblank]
        by_cases herror : (parseCsvLine (stripLineEnding line)).error = []
        · have hcount : (parseCsvLine (stripLineEnding line)).fields.length ≠ header.length :=
            fun hcount => hfields ⟨_, (isRecordLine_iff h).mpr ⟨hblank, herror, rfl, hcount⟩⟩
          exact ⟨_, by simp only [if_neg (not_not.mpr herror), if_pos hcount]; rfl⟩
        · exact ⟨_, by simp only [if_pos (show _ ≠ _ from herror)]; rfl⟩

/-! ## All lines -/

/-- What holds of every line and its row holds of the lines and the rows in order. -/
theorem csvRows_forall₂ {P : Bytes → CsvRow → Prop}
    (hrow : ∀ line ∈ lines, ∀ lineNumber row,
      csvRow J header lineNumber line = .ok row → P line row) {rows : List CsvRow}
    (hrows : csvRows J header lineNumber lines = .ok rows) : List.Forall₂ P lines rows := by
  induction lines generalizing lineNumber rows with
  | nil =>
    rw [csvRows, List.zipIdx_nil, List.mapM_nil, pure_eq_ok] at hrows
    exact hrows ▸ .nil
  | cons line lines ih =>
    rw [csvRows, List.zipIdx_cons, List.mapM_cons] at hrows
    simp only [bind_eq_ok, pure_eq_ok] at hrows
    obtain ⟨row, hfirst, rest, hrest, rfl⟩ := hrows
    exact .cons (hrow line List.mem_cons_self lineNumber row hfirst)
      (ih (fun other hother => hrow other (List.mem_cons_of_mem _ hother)) hrest)

/-- Lines have rows when their payloads can be printed. -/
theorem exists_csvRows (J : Nlohmann) (lineNumber : ℕ) (h : ∀ line ∈ lines, ¬IsUnclosed line) :
    (∃ rows, csvRows J header lineNumber lines = .ok rows) ↔
      ∀ line ∈ lines, ∀ fields, IsRecordLine header line fields →
        PrintablePayload header fields := by
  rw [csvRows, exists_mapM_eq_ok]
  constructor
  · intro hrows line hline
    obtain ⟨position, hposition⟩ := List.mem_iff_getElem?.mp hline
    have hmem : (line, lineNumber + position) ∈ lines.zipIdx lineNumber := by
      rw [List.mem_iff_getElem?]
      exact ⟨position, by rw [List.getElem?_zipIdx, hposition]; rfl⟩
    exact (exists_csvRow (h line hline)).mp (hrows _ hmem)
  · intro hprintable numbered hnumbered
    have hline : numbered.1 ∈ lines := by
      have hmem := List.mem_map_of_mem (f := Prod.fst) hnumbered
      rwa [List.zipIdx_map_fst] at hmem
    exact (exists_csvRow (h _ hline)).mpr (hprintable _ hline)

end LabBridge.Agent
