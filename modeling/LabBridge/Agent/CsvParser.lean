import LabBridge.Agent.Errors
import LabBridge.Library.CsvGrammar
import LabBridge.Core.Models

/-!
# Observation files

A file of comma-separated values with a header whose first three columns are fixed. Every
further column of a row becomes a field of the payload, in the order of the header. A line is
read by a machine with four states; what a row lacks or has too much is an error of the row,
and a quote that is not closed ends the file.
-/

namespace LabBridge.Agent

open ByteText JsonText CsvGrammar LabBridge.Core

variable (J : Nlohmann)

/-! ## Lines -/

/-- Where the machine stands in a field. -/
inductive FieldState
  /-- The field has not begun and may be empty. -/
  | start
  | unquoted
  | quoted
  /-- The closing quote has been seen. -/
  | quoteClosed
  deriving DecidableEq

/-- What became of a line. With an error or an open quote the fields are of no use. -/
structure CsvLineParseResult where
  fields : List Bytes := []
  error : Bytes := []
  unclosedQuote : Bool := false
  deriving DecidableEq

/-- The machine from a state on, after some fields and with a begun one. -/
def scanCsvLine : FieldState → List Bytes → Bytes → Bytes → CsvLineParseResult
  | .quoted, fields, _, [] => { fields, unclosedQuote := true }
  | _, fields, field, [] => { fields := fields ++ [field] }
  | .start, fields, field, ch :: rest =>
    if ch = comma then scanCsvLine .start (fields ++ [[]]) field rest
    else if ch = quote then scanCsvLine .quoted fields field rest
    else scanCsvLine .unquoted fields (field ++ [ch]) rest
  | .unquoted, fields, field, ch :: rest =>
    if ch = comma then scanCsvLine .start (fields ++ [field]) [] rest
    else if ch = quote then { fields, error := text "quote inside an unquoted field" }
    else scanCsvLine .unquoted fields (field ++ [ch]) rest
  | .quoted, fields, field, ch :: rest =>
    if ch = quote then
      -- a doubled quote is looked up one byte ahead
      match rest with
      | next :: further =>
        if next = quote then scanCsvLine .quoted fields (field ++ [quote]) further
        else scanCsvLine .quoteClosed fields field (next :: further)
      | [] => scanCsvLine .quoteClosed fields field []
    else scanCsvLine .quoted fields (field ++ [ch]) rest
  | .quoteClosed, fields, field, ch :: rest =>
    if ch = comma then scanCsvLine .start (fields ++ [field]) [] rest
    else { fields, error := text "content after a closing quote" }

/-- `parse_csv_line`. -/
def parseCsvLine (line : Bytes) : CsvLineParseResult := scanCsvLine .start [] [] line

/-! ## Files -/

/-- The names of the first three columns. -/
def fixedColumns : List Bytes := [text "station_code", text "device_code", text "record_time"]

/-- A header begins with the fixed columns, has a further one and names none twice. -/
def isValidHeader (fields : List Bytes) : Bool :=
  decide (4 ≤ fields.length) && fields.take 3 == fixedColumns && fields.all (fun name => !name.isEmpty)
    && decide fields.Nodup

/-- Remove a carriage return from the end of a line. -/
def stripLineEnding (line : Bytes) : Bytes :=
  if line.getLast? = some 13 then line.dropLast else line

/-- The byte order mark. -/
def utf8Bom : Bytes := [0xEF, 0xBB, 0xBF]

/-- Remove a byte order mark from the start of a line. -/
def stripBom (line : Bytes) : Bytes := if utf8Bom <+: line then line.drop utf8Bom.length else line

/-- The lines of a file; the last one need not be ended. -/
def fileLines : Bytes → List Bytes
  | [] => []
  | b :: rest =>
    if b = 10 then [] :: fileLines rest
    else
      match fileLines rest with
      | [] => [[b]]
      | line :: lines => (b :: line) :: lines

/-- A printed string without its quotes. -/
def jsonStringValue (value : Bytes) : Except AgentError Bytes := do
  let dumped ← J.dumped (.str value)
  pure ((dumped.drop 1).take (dumped.length - 2))

/-- One field of a payload. -/
def payloadField (column : Bytes × Bytes) : Except AgentError Bytes := do
  let name ← jsonStringValue J column.1
  let value ← jsonStringValue J column.2
  pure (text "\"" ++ name ++ text "\":\"" ++ value ++ text "\"")

/-- The columns behind the fixed ones, with their values. -/
def payloadColumns (header row : List Bytes) : List (Bytes × Bytes) :=
  (header.drop 3).zip (row.drop 3)

/-- `make_payload_json`: the further columns of a row in the order of the header. -/
def makePayloadJson (header row : List Bytes) : Except AgentError Bytes := do
  let fields ← (payloadColumns header row).mapM (payloadField J)
  pure (text "\x7b" ++ (text ",").intercalate fields ++ text "\x7d")

/-- The status of a parse: none is a success, some a failure with its message. -/
structure ParseResult where
  failure : Option Bytes := none
  records : List ParsedRecord := []
  errors : List Bytes := []
  deriving DecidableEq

/-- The record of a row. -/
def rowRecord (header row : List Bytes) : Except AgentError ParsedRecord := do
  let payloadJson ← makePayloadJson J header row
  pure {
    stationCode := row.getD 0 [], deviceCode := row.getD 1 [], recordTime := row.getD 2 [],
    payloadJson }

/-- The complaint about a row with another number of fields than the header. -/
def fieldCountError (lineNumber : ℕ) (header row : List Bytes) : Bytes :=
  text "line " ++ decimal lineNumber ++ text " has " ++ decimal row.length ++
    text " fields but the header has " ++ decimal header.length

/-- The lines of a file behind its header, the first of them under a number. -/
def parseLines (header : List Bytes) : ℕ → List Bytes → ParseResult → Except AgentError ParseResult
  | _, [], result => pure result
  | lineNumber, line :: lines, result =>
    if stripLineEnding line = [] then parseLines header (lineNumber + 1) lines result
    else
      let parsed := parseCsvLine (stripLineEnding line)
      if parsed.unclosedQuote then
        pure { result with failure := some (text "csv line " ++ decimal lineNumber ++
          text " has an unclosed quote; multi-line fields are not supported") }
      else if parsed.error ≠ [] then
        parseLines header (lineNumber + 1) lines
          { result with errors := result.errors ++
              [text "line " ++ decimal lineNumber ++ text " " ++ parsed.error] }
      else if parsed.fields.length ≠ header.length then
        parseLines header (lineNumber + 1) lines
          { result with errors := result.errors ++ [fieldCountError lineNumber header parsed.fields] }
      else do
        let record ← rowRecord J header parsed.fields
        parseLines header (lineNumber + 1) lines { result with records := result.records ++ [record] }

/-- `CsvObservationParser::parse` of a file; none is a file that cannot be opened. -/
def parseCsv (file : Option Bytes) : Except AgentError ParseResult :=
  match file with
  | none => pure { failure := some (text "failed to open csv file") }
  | some content =>
    match fileLines content with
    | [] => pure { failure := some (text "csv file is empty") }
    | first :: lines =>
      let header := parseCsvLine (stripBom (stripLineEnding first))
      if header.unclosedQuote ∨ header.error ≠ [] ∨ isValidHeader header.fields = false then
        pure { failure := some (text "csv header is invalid") }
      else parseLines J header.fields 2 lines {}

end LabBridge.Agent
