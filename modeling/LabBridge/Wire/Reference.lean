import LabBridge.Library.CompactTransfer
import LabBridge.Server.NodeIsolation
import LabBridge.Wire.Transport

/-!
# A connection that can be run

Both sides print and read compactly, so that concrete calls can be sent over a wire.
-/

namespace LabBridge.Reference

open ByteText JsonText LabBridge.Core

/-- A connection to the server of the concrete calls. -/
def wire : Wire Server.Reference.runtime where
  agent := Agent.compactNlohmann
  server := Server.Reference.jsonCpp
  body := compactJson.parse
  read := readDocument
  print document := print document.cleared
  readDepth := 1000
  overflow := text "Control plane response exceeds 1 MiB"
  report_shallow := by decide
  body_dump canonical _ h := Agent.compactNlohmann.parse_dump canonical h
  read_parse := by
    intro stored document h _
    have hordered := Json.ordered_readDocument h
    exact ⟨document, h, hordered.arrives, hordered⟩
  parse_print := by
    intro document ordered utf8
    obtain ⟨hcanonical, harrives, hutf8⟩ := ordered.cleared
    exact ⟨document.cleared, compactJson.parse_dump hcanonical (if_pos (hutf8 utf8)), harrives,
      hutf8 utf8⟩

/-- The agent prints the documents whose texts can be encoded. -/
theorem dumped_of_utf8 {document : Json} (h : document.utf8 = true) :
    wire.agent.dumped document = .ok (Agent.printedText document) :=
  (Agent.Nlohmann.dumped_eq_ok Agent.compactNlohmann).mpr (if_pos h)

/-- A report with a warning as the agent sends it. -/
def warnedReport : Agent.TaskRunReportRequest where
  taskRunId := text "1"
  nodeCode := text "lab-node"
  idempotencyKey := text "report-1"
  status := .failed
  finishedAt := text "2024-05-01T08:01:00Z"
  itemsTotal := 2
  itemsSuccess := 1
  itemsFailed := 1
  errorSummary := text "1 of 2 files failed"
  parsedRecords := [{
    rawFileId := text "1"
    record := {
      stationCode := text "S1"
      deviceCode := text "D1"
      recordTime := text "2024-05-01T08:00:00Z"
      payloadJson := text "\x7b\x7d" }
    qcResults := [{
      qcRuleId := text "1"
      level := text "warning"
      result := text "failed"
      message := text "value is missing" }] }]
  hasFailedFiles := true
  failedFiles := [{
    sourcePath := text "/data/b.csv"
    originalName := text "b.csv"
    stage := text "parse"
    message := text "line 2: quote is not closed"
    archiveRawFileId := [] }]

/-- The report as a document. -/
def warnedReportJson : Json := Agent.reportJson warnedReport (text "failed")

/-- The body that the agent sends. -/
def reportBody : Bytes := Agent.printedText (warnedReportJson.erase "codec_version")

end LabBridge.Reference
