import LabBridge.Agent.CsvRows
import Mathlib.Data.List.TakeWhile

/-!
# Observation files as a whole

A file is refused for its header or for its first open quote; otherwise every line behind the
header is accounted for by one row. Whether parsing ends at all depends only on the payloads of
the record lines in front of the first open quote.
-/

namespace LabBridge.Agent

open ByteText JsonText CsvGrammar Fallible LabBridge.Core

variable {J : Nlohmann} {content first : Bytes} {lines header : List Bytes}

/-- The header that a first line is accepted as. -/
def ReadsHeader (first : Bytes) (header : List Bytes) : Prop :=
  CsvLine (stripBom (stripLineEnding first)) header ∧ isValidHeader header = true

/-- The lines in front of the first open quote. -/
def closedLines (lines : List Bytes) : List Bytes :=
  lines.takeWhile fun line => !decide (IsUnclosed line)

theorem not_isUnclosed_of_mem_closedLines {line : Bytes} (h : line ∈ closedLines lines) :
    ¬IsUnclosed line := by
  simpa using List.mem_takeWhile_imp h

theorem closedLines_eq_self (h : ∀ line ∈ lines, ¬IsUnclosed line) : closedLines lines = lines := by
  apply List.takeWhile_eq_self_iff.mpr
  simpa using h

/-- A file with an accepted header is parsed line by line. -/
theorem parseCsv_of_readsHeader (hlines : fileLines content = first :: lines)
    (hheader : ReadsHeader first header) :
    parseCsv J (some content) = parseLines J header 2 lines {} := by
  have haccepted := (parseCsvLine_iff _ _).mpr hheader.1
  simp [parseCsv, hlines, haccepted, hheader.2]

/-- A file without an accepted header fails as a whole. -/
theorem parseCsv_of_not_readsHeader
    (h : ∀ first lines header, fileLines content = first :: lines → ¬ReadsHeader first header) :
    ∃ message, parseCsv J (some content) = .ok { failure := some message } := by
  rw [parseCsv]
  rcases hlines : fileLines content with _ | ⟨first, lines⟩
  · exact ⟨_, rfl⟩
  · have hrefused := h first lines (parseCsvLine (stripBom (stripLineEnding first))).fields hlines
    refine ⟨_, if_pos ?_⟩
    by_contra haccepted
    simp only [not_or, not_not, Bool.not_eq_true, Bool.not_eq_false] at haccepted
    obtain ⟨hclosed, herror, hvalid⟩ := haccepted
    refine hrefused ⟨(parseCsvLine_iff _ _).mp ?_, hvalid⟩
    rcases hparsed : parseCsvLine (stripBom (stripLineEnding first)) with ⟨fields, error, quote⟩
    simp_all

/-- Lines whose quotes are closed make a result without a failure. -/
theorem parseLines_closed (h : ∀ line ∈ lines, ¬IsUnclosed line) :
    parseLines J header 2 lines {} =
      csvRows J header 2 lines >>= fun rows => pure (ParseResult.extend {} rows) := by
  have hparsed := parseLines_append J header 2 h [] {}
  rwa [List.append_nil] at hparsed

/-- The lines in front of the first open quote make a result that fails. -/
theorem parseLines_open (J : Nlohmann) (header : List Bytes) (h : ∃ line ∈ lines, IsUnclosed line) :
    ∃ message, parseLines J header 2 lines {} = csvRows J header 2 (closedLines lines) >>=
      fun rows => pure { ParseResult.extend {} rows with failure := some message } := by
  have hsplit : closedLines lines ++ lines.dropWhile (fun line => !decide (IsUnclosed line)) =
      lines := List.takeWhile_append_dropWhile
  rcases hrest : lines.dropWhile fun line => !decide (IsUnclosed line) with _ | ⟨line, more⟩
  · obtain ⟨line, hline, hopen⟩ := h
    have hclosed := List.dropWhile_eq_nil_iff.mp hrest line hline
    simp [hopen] at hclosed
  · have hopen : IsUnclosed line := by
      have hhead := List.head?_dropWhile_not (fun line => !decide (IsUnclosed line)) lines
      simpa [hrest] using hhead
    rw [hrest] at hsplit
    have hclosed : ∀ line ∈ closedLines lines, ¬IsUnclosed line :=
      fun _ => not_isUnclosed_of_mem_closedLines
    have hparsed := parseLines_append J header 2 hclosed (line :: more) {}
    rw [hsplit] at hparsed
    simp only [parseLines_unclosed hopen] at hparsed
    exact ⟨_, hparsed⟩

/-! ## Texts -/

/-- The first line of a file and the rest behind it. -/
theorem fileLines_cons (b : UInt8) (rest : Bytes) :
    ((10 : UInt8) ∉ b :: rest ∧ fileLines (b :: rest) = [b :: rest]) ∨
      ∃ line tail, b :: rest = line ++ 10 :: tail ∧
        fileLines (b :: rest) = line :: fileLines tail := by
  induction rest generalizing b with
  | nil =>
    by_cases hend : b = 10
    · exact Or.inr ⟨[], [], by rw [hend]; rfl, by simp [fileLines, hend]⟩
    · exact Or.inl ⟨by simpa [eq_comm] using hend, by simp [fileLines, hend]⟩
  | cons c rest ih =>
    by_cases hend : b = 10
    · exact Or.inr ⟨[], c :: rest, by rw [hend]; rfl, by rw [fileLines, if_pos hend]⟩
    · rcases ih c with ⟨hnone, hlines⟩ | ⟨line, tail, hsplit, hlines⟩
      · refine Or.inl ⟨?_, by rw [fileLines, if_neg hend, hlines]⟩
        rw [List.mem_cons, not_or]
        exact ⟨fun h => hend h.symm, hnone⟩
      · refine Or.inr ⟨b :: line, tail, by rw [hsplit]; rfl, ?_⟩
        rw [fileLines, if_neg hend, hlines]

/-- The lines of a text are texts. -/
theorem utf8_fileLines (h : Utf8 content) : ∀ line ∈ fileLines content, Utf8 line := by
  induction hlength : content.length using Nat.strong_induction_on generalizing content with
  | _ length ih =>
    cases content with
    | nil => exact fun line hline => absurd hline List.not_mem_nil
    | cons b rest =>
      rcases fileLines_cons b rest with ⟨-, hlines⟩ | ⟨line, tail, hsplit, hlines⟩
      · intro line hline
        rw [hlines] at hline
        rw [List.mem_singleton.mp hline]
        exact h
      · rw [hsplit] at h hlength
        obtain ⟨hfirst, hrest⟩ := h.cut_ascii (by decide)
        intro other hother
        rw [hlines] at hother
        rcases List.mem_cons.mp hother with rfl | hmem
        · exact hfirst
        · rw [List.length_append, List.length_cons] at hlength
          exact ih tail.length (by omega) hrest rfl other hmem

theorem utf8_stripLineEnding {line : Bytes} (h : Utf8 line) : Utf8 (stripLineEnding line) := by
  unfold stripLineEnding
  split
  · rename_i hlast
    have hsplit : line.dropLast ++ [13] = line := List.dropLast_append_getLast? 13 hlast
    rw [← hsplit] at h
    exact (h.cut_ascii (by decide)).1
  · exact h

theorem utf8_stripBom {line : Bytes} (h : Utf8 line) : Utf8 (stripBom line) := by
  unfold stripBom
  split
  · rename_i hprefix
    obtain ⟨rest, rfl⟩ := hprefix
    have hbom : Utf8 utf8Bom := by decide +kernel
    rw [List.drop_left]
    exact (utf8_append_iff hbom).mp h
  · exact h

/-- The payload of a text's record line can be printed. -/
theorem printablePayload_of_utf8 {fields : List Bytes} (hheader : ∀ name ∈ header, Utf8 name)
    (hfields : ∀ field ∈ fields, Utf8 field) : PrintablePayload header fields := by
  intro column hcolumn
  obtain ⟨hname, hvalue⟩ := List.of_mem_zip hcolumn
  exact ⟨hheader _ (List.mem_of_mem_drop hname), hfields _ (List.mem_of_mem_drop hvalue)⟩

/-! ## Payloads -/

/-- A printed string is a literal of the string. -/
def PrintsLiterals (J : Nlohmann) : Prop :=
  ∀ value printed, J.dump (.str value) = some printed → StringLiteral printed value

/-- The compact printer prints literals. -/
theorem compactNlohmann_printsLiterals : PrintsLiterals compactNlohmann := by
  intro value printed h
  have hdump : (if (Json.str value).utf8 then some (printedText (.str value)) else none) =
      some printed := h
  split at hdump
  · cases hdump
    rw [printedText_eq (.str value)]
    exact ⟨_, rfl, readString_printed value⟩
  · cases hdump

/-- A printed field is a member of an object. -/
theorem payloadField_eq_ok (hprints : PrintsLiterals J) {column : Bytes × Bytes} {printed : Bytes}
    (h : payloadField J column = .ok printed) :
    ∃ literal : Bytes × Bytes, printed = memberText literal.1 literal.2 ∧
      DenotesMember literal column := by
  simp only [payloadField, jsonStringValue, bind_eq_ok, pure_eq_ok, J.dumped_eq_ok] at h
  obtain ⟨_, ⟨key, hkey, rfl⟩, _, ⟨value, hvalue, rfl⟩, rfl⟩ := h
  refine ⟨(key, value), ?_, hprints _ _ hkey, hprints _ _ hvalue⟩
  obtain ⟨keyBody, hkeyBody, -⟩ := hprints _ _ hkey
  obtain ⟨valueBody, hvalueBody, -⟩ := hprints _ _ hvalue
  have hquote : text "\"" = [byte '"'] := by decide +kernel
  have hbetween : text "\":\"" = [byte '"', byte ':', byte '"'] := by decide +kernel
  simp [memberText, hkeyBody, hvalueBody, hquote, hbetween]

/-- The payload of a row reads as its further columns, in the order of the header. -/
theorem readStringObject_payload (hprints : PrintsLiterals J) {fields : List Bytes}
    {payloadJson : Bytes} (h : makePayloadJson J header fields = .ok payloadJson) :
    readStringObject payloadJson = some (payloadColumns header fields) := by
  simp only [makePayloadJson, bind_eq_ok, pure_eq_ok, mapM_eq_ok] at h
  obtain ⟨printed, hprinted, rfl⟩ := h
  have hliterals : ∀ {columns : List (Bytes × Bytes)} {printed : List Bytes},
      List.Forall₂ (fun column text => payloadField J column = .ok text) columns printed →
      ∃ literals : List (Bytes × Bytes),
        printed = literals.map (fun literal => memberText literal.1 literal.2) ∧
          List.Forall₂ DenotesMember literals columns := by
    intro columns printed hprinted
    induction hprinted with
    | nil => exact ⟨[], rfl, .nil⟩
    | cons hfield _ ih =>
      obtain ⟨literal, rfl, hdenotes⟩ := payloadField_eq_ok hprints hfield
      obtain ⟨literals, rfl, hrest⟩ := ih
      exact ⟨literal :: literals, rfl, .cons hdenotes hrest⟩
  obtain ⟨literals, rfl, hdenotes⟩ := hliterals hprinted
  have hbegin : text "\x7b" = [byte '\x7b'] := by decide +kernel
  have hend : text "\x7d" = [byte '\x7d'] := by decide +kernel
  rw [hbegin, hend]
  exact readStringObject_literals hdenotes

/-! ## The claims of a file -/

/-- The row of a line, with the payload of its record. -/
def AccountsFor (header : List Bytes) (line : Bytes) (row : CsvRow) : Prop :=
  DescribesLine header line row ∧ ∀ parsed, row = .record parsed →
    ∃ fields, IsRecordLine header line fields ∧
      readStringObject parsed.payloadJson = some (payloadColumns header fields)

/-- The row of a line accounts for it when the printer prints literals. -/
theorem csvRow_accountsFor (hprints : PrintsLiterals J) {lineNumber : ℕ} {line : Bytes}
    {row : CsvRow} (h : ¬IsUnclosed line) (hrow : csvRow J header lineNumber line = .ok row) :
    AccountsFor header line row := by
  refine ⟨csvRow_describes h hrow, ?_⟩
  rintro parsed rfl
  obtain ⟨fields, hfields, -⟩ := csvRow_describes h hrow
  refine ⟨fields, hfields, ?_⟩
  rw [csvRow_of_isRecordLine h hfields, map_eq_ok] at hrow
  obtain ⟨found, hfound, hsame⟩ := hrow
  obtain rfl : found = parsed := by simpa using hsame
  simp only [rowRecord, bind_eq_ok, pure_eq_ok] at hfound
  obtain ⟨payloadJson, hpayload, rfl⟩ := hfound
  exact readStringObject_payload hprints hpayload

/-- A text with an accepted header is accounted for line by line when all its quotes are closed,
and fails otherwise. -/
theorem csv_rows_accounted (hprints : PrintsLiterals J) (htext : Utf8 content)
    (hlines : fileLines content = first :: lines) (hheader : ReadsHeader first header) :
    ((∀ line ∈ lines, ¬IsUnclosed line) → ∃ rows,
      parseCsv J (some content) = .ok {
        records := rows.filterMap CsvRow.record?, errors := rows.filterMap CsvRow.error? } ∧
      List.Forall₂ (AccountsFor header) lines rows) ∧
    ((∃ line ∈ lines, IsUnclosed line) → ∃ result,
      parseCsv J (some content) = .ok result ∧ result.failure.isSome = true) := by
  have hutf8 : ∀ line ∈ first :: lines, Utf8 line := hlines ▸ utf8_fileLines htext
  have hnames := hheader.1.utf8 (utf8_stripBom (utf8_stripLineEnding (hutf8 first (by simp))))
  have hprintable : ∀ line ∈ lines, ∀ fields, IsRecordLine header line fields →
      PrintablePayload header fields := by
    intro line hline fields hfields
    have htextLine := utf8_stripLineEnding (hutf8 line (List.mem_cons_of_mem _ hline))
    exact printablePayload_of_utf8 hnames (hfields.2.1.utf8 htextLine)
  rw [parseCsv_of_readsHeader hlines hheader]
  constructor
  · intro hclosed
    obtain ⟨rows, hrows⟩ := (exists_csvRows J 2 hclosed).mpr hprintable
    refine ⟨rows, ?_, ?_⟩
    · rw [parseLines_closed hclosed, hrows]
      rfl
    · exact csvRows_forall₂ (fun line hline _ _ => csvRow_accountsFor hprints (hclosed line hline))
        hrows
  · intro hopen
    obtain ⟨message, hparsed⟩ := parseLines_open J header hopen
    have hclosed : ∀ line ∈ closedLines lines, ¬IsUnclosed line :=
      fun _ => not_isUnclosed_of_mem_closedLines
    have hmem : closedLines lines ⊆ lines := (List.takeWhile_prefix _).subset
    obtain ⟨rows, hrows⟩ := (exists_csvRows J 2 hclosed).mpr
      fun line hline => hprintable line (hmem hline)
    rw [hparsed, hrows]
    exact ⟨_, rfl, rfl⟩

/-- A file of one record and one short row. -/
def observationFile : Bytes :=
  text "station_code,device_code,record_time,v\ns,d,t,\"1,2\"\ns,d\n"

/-- The header of the file. -/
def observationHeader : List Bytes := fixedColumns ++ [text "v"]

theorem csv_rows_accounted_file :
    ((∀ line ∈ [text "s,d,t,\"1,2\"", text "s,d"], ¬IsUnclosed line) → ∃ rows,
      parseCsv compactNlohmann (some observationFile) = .ok {
        records := rows.filterMap CsvRow.record?, errors := rows.filterMap CsvRow.error? } ∧
      List.Forall₂ (AccountsFor observationHeader) [text "s,d,t,\"1,2\"", text "s,d"] rows) ∧
    ((∃ line ∈ [text "s,d,t,\"1,2\"", text "s,d"], IsUnclosed line) → ∃ result,
      parseCsv compactNlohmann (some observationFile) = .ok result ∧
        result.failure.isSome = true) :=
  csv_rows_accounted compactNlohmann_printsLiterals (utf8_text _)
    (show fileLines observationFile = text "station_code,device_code,record_time,v" :: _ by
      decide +kernel)
    ⟨(parseCsvLine_iff _ _).mp (by decide +kernel), by decide +kernel⟩

/-- A file that is parsed, and whose lines that are malformed or no text end as an error unless
the file fails as a whole. -/
def HandlesContent (J : Nlohmann) (content : Bytes) : Prop :=
  ∃ result, parseCsv J (some content) = .ok result ∧ (result.failure = none →
    ∃ first lines header rows, fileLines content = first :: lines ∧ ReadsHeader first header ∧
      (∀ line ∈ lines, ¬IsUnclosed line) ∧
      result.records = rows.filterMap CsvRow.record? ∧
      result.errors = rows.filterMap CsvRow.error? ∧ Utf8 first ∧
      List.Forall₂ (fun line row => DescribesLine header line row ∧
        (Utf8 line ∨ ∃ message, row = .error message)) lines rows)

/-- Where the header is accepted, the payloads in front of the first open quote are texts, and
without an open quote so are the header and every record line. -/
def CleanContent (content : Bytes) : Prop :=
  ∀ first lines header, fileLines content = first :: lines → ReadsHeader first header →
    (∀ line ∈ closedLines lines, ∀ fields, IsRecordLine header line fields →
      PrintablePayload header fields) ∧
    ((∀ line ∈ lines, ¬IsUnclosed line) → Utf8 first ∧
      ∀ line ∈ lines, ∀ fields, IsRecordLine header line fields → Utf8 line)

/-- Every line has closed quotes, or some line has not. -/
theorem closed_or_open (lines : List Bytes) :
    (∀ line ∈ lines, ¬IsUnclosed line) ∨ ∃ line ∈ lines, IsUnclosed line := by
  by_cases h : ∃ line ∈ lines, IsUnclosed line
  · exact Or.inr h
  · exact Or.inl fun line hline hopen => h ⟨line, hline, hopen⟩

/-- A blank line is a text. -/
theorem utf8_of_blank {line : Bytes} (h : stripLineEnding line = []) : Utf8 line := by
  unfold stripLineEnding at h
  split at h
  · rename_i hlast
    have hsplit : line.dropLast ++ [13] = line := List.dropLast_append_getLast? 13 hlast
    rw [h] at hsplit
    rw [← hsplit]
    decide
  · rw [h]
    exact utf8_nil

/-- A first line is accepted as one header. -/
theorem ReadsHeader.unique {other : List Bytes} (h : ReadsHeader first header)
    (hother : ReadsHeader first other) : header = other := by
  have hsame := ((parseCsvLine_iff _ _).mpr h.1).symm.trans ((parseCsvLine_iff _ _).mpr hother.1)
  exact congrArg CsvLineParseResult.fields hsame

/-- Every item of a related list has a partner. -/
theorem exists_of_forall₂ {α β : Type} {R : α → β → Prop} {items : List α} {partners : List β}
    (h : List.Forall₂ R items partners) {item : α} (hitem : item ∈ items) :
    ∃ partner, R item partner := by
  induction h with
  | nil => exact absurd hitem List.not_mem_nil
  | cons hfirst _ ih =>
    rcases List.mem_cons.mp hitem with rfl | hmem
    · exact ⟨_, hfirst⟩
    · exact ih hmem

/-- A file is handled exactly when its content is clean. -/
theorem csv_parse_handles_iff (J : Nlohmann) (content : Bytes) :
    HandlesContent J content ↔ CleanContent content := by
  constructor
  · rintro ⟨result, hparsed, hsuccess⟩ first lines header hlines hheader
    rw [parseCsv_of_readsHeader hlines hheader] at hparsed
    have hclosedLines : ∀ line ∈ closedLines lines, ¬IsUnclosed line :=
      fun _ => not_isUnclosed_of_mem_closedLines
    rcases closed_or_open lines with hclosed | hopen
    · rw [parseLines_closed hclosed, bind_eq_ok] at hparsed
      obtain ⟨rows, hrows, hresult⟩ := hparsed
      rw [closedLines_eq_self hclosed]
      refine ⟨(exists_csvRows J 2 hclosed).mp ⟨rows, hrows⟩, fun _ => ?_⟩
      obtain rfl := pure_eq_ok.mp hresult
      obtain ⟨first', lines', header', found, hlines', hheader', -, -, -, hfirst, hdescribes⟩ :=
        hsuccess rfl
      obtain ⟨rfl, rfl⟩ := List.cons.inj (hlines.symm.trans hlines')
      obtain rfl := hheader.unique hheader'
      refine ⟨hfirst, fun line hline fields hfields => ?_⟩
      obtain ⟨row, hrow, hutf8 | ⟨message, rfl⟩⟩ := exists_of_forall₂ hdescribes hline
      · exact hutf8
      · exact absurd ⟨fields, hfields⟩ hrow.2
    · obtain ⟨message, hopened⟩ := parseLines_open J header hopen
      rw [hopened, bind_eq_ok] at hparsed
      obtain ⟨rows, hrows, -⟩ := hparsed
      refine ⟨(exists_csvRows J 2 hclosedLines).mp ⟨rows, hrows⟩, fun hclosed => ?_⟩
      obtain ⟨line, hline, hunclosed⟩ := hopen
      exact absurd hunclosed (hclosed line hline)
  · intro hclean
    by_cases haccepted : ∃ first lines header, fileLines content = first :: lines ∧
        ReadsHeader first header
    · obtain ⟨first, lines, header, hlines, hheader⟩ := haccepted
      obtain ⟨hprintable, htexts⟩ := hclean first lines header hlines hheader
      unfold HandlesContent
      rw [parseCsv_of_readsHeader hlines hheader]
      rcases closed_or_open lines with hclosed | hopen
      · rw [closedLines_eq_self hclosed] at hprintable
        obtain ⟨rows, hrows⟩ := (exists_csvRows J 2 hclosed).mpr hprintable
        obtain ⟨hfirst, hrecords⟩ := htexts hclosed
        rw [parseLines_closed hclosed, hrows]
        refine ⟨_, rfl, fun _ => ⟨first, lines, header, rows, hlines, hheader, hclosed, rfl, rfl,
          hfirst, csvRows_forall₂ ?_ hrows⟩⟩
        intro line hline lineNumber row hrow
        have hdescribes := csvRow_describes (hclosed line hline) hrow
        refine ⟨hdescribes, ?_⟩
        cases row with
        | blank => exact Or.inl (utf8_of_blank hdescribes)
        | record parsed =>
          obtain ⟨fields, hfields, -⟩ := hdescribes
          exact Or.inl (hrecords line hline fields hfields)
        | error message => exact Or.inr ⟨message, rfl⟩
      · obtain ⟨message, hopened⟩ := parseLines_open J header hopen
        obtain ⟨rows, hrows⟩ := (exists_csvRows J 2
          fun _ => not_isUnclosed_of_mem_closedLines).mpr hprintable
        rw [hopened, hrows]
        exact ⟨_, rfl, fun hnone => by cases hnone⟩
    · obtain ⟨message, hrefused⟩ := parseCsv_of_not_readsHeader (J := J)
        fun first lines header hlines hheader =>
          haccepted ⟨first, lines, header, hlines, hheader⟩
      exact ⟨_, hrefused, fun hnone => by cases hnone⟩

/-- A file whose last cell is the byte 255. -/
def invalidCellFile : Bytes := text "station_code,device_code,record_time,v\ns,d,t," ++ [255, 10]

/-- A cell that is no text makes the parse raise. -/
theorem not_csv_parse_total :
    ¬∀ content : Bytes, ∃ result, parseCsv compactNlohmann (some content) = .ok result := by
  intro claimed
  obtain ⟨result, hparsed⟩ := claimed invalidCellFile
  have hraises : (parseCsv compactNlohmann (some invalidCellFile)).isOk = false := by
    decide +kernel
  rw [hparsed] at hraises
  cases hraises

end LabBridge.Agent
