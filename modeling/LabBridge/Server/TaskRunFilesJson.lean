import LabBridge.Library.Json
import LabBridge.Server.Records

/-!
# Stored file lists

The JSON form of the failed-file list of a report and of the fixed input list of a retry
run. Printing fails on texts that are not UTF-8. Reading gives no list at all when any part
of the stored document has another shape.
-/

namespace LabBridge.Server

open ByteText JsonText

variable (J : JsonCodec)

/-- One failed file as stored. -/
def encodeFailedFile (file : TaskRunFailedFile) : Json :=
  .record [
    ("archive_raw_file_id", .str file.archiveRawFileId),
    ("message", .str file.message),
    ("original_name", .str file.originalName),
    ("source_path", .str file.sourcePath),
    ("stage", .str file.stage)]

/-- One fixed input as stored. -/
def encodeRetryFile (file : TaskRunRetryFile) : Json :=
  .record [
    ("archive_raw_file_id", .str file.archiveRawFileId),
    ("file_hash", .str file.fileHash),
    ("input_type", .str file.inputType),
    ("original_name", .str file.originalName),
    ("size_bytes", .int file.sizeBytes),
    ("source_mtime", .str file.sourceMtime),
    ("source_path", .str file.sourcePath),
    ("storage_path", .str file.storagePath)]

/-- A text field that must be present. -/
def requiredString (payload : Json) (field : String) : Option Bytes :=
  match payload.field? field with
  | some (.str value) => some value
  | _ => none

/-- The size field, which must be a non-negative integer. -/
def requiredSize (payload : Json) : Option ℤ :=
  match payload.field? "size_bytes" with
  | some (.int value) => if 0 ≤ value then some value else none
  | _ => none

/-- The stored text of a failed-file list. -/
def toFailedFilesJson (files : List TaskRunFailedFile) : Option Bytes :=
  J.dump (.arr (files.map encodeFailedFile))

/-- The stored text of a fixed input list. -/
def toRetryFilesJson (files : List TaskRunRetryFile) : Option Bytes :=
  J.dump (.arr (files.map encodeRetryFile))

/-- Read one failed file. -/
def parseFailedFile (item : Json) : Option TaskRunFailedFile := do
  let sourcePath ← requiredString item "source_path"
  let originalName ← requiredString item "original_name"
  let stage ← requiredString item "stage"
  let message ← requiredString item "message"
  let archiveRawFileId ← requiredString item "archive_raw_file_id"
  pure { sourcePath, originalName, stage, message, archiveRawFileId }

/-- Read one fixed input. -/
def parseRetryFile (item : Json) : Option TaskRunRetryFile := do
  let inputType ← requiredString item "input_type"
  if inputType ≠ text "archive" ∧ inputType ≠ text "source" then none
  let sourcePath ← requiredString item "source_path"
  let originalName ← requiredString item "original_name"
  let archiveRawFileId ← requiredString item "archive_raw_file_id"
  let storagePath ← requiredString item "storage_path"
  let sizeBytes ← requiredSize item
  let fileHash ← requiredString item "file_hash"
  let sourceMtime ← requiredString item "source_mtime"
  pure {
    inputType, sourcePath, originalName, archiveRawFileId, storagePath, sizeBytes, fileHash,
    sourceMtime }

/-- The items of a stored list; the empty text stands for no list. -/
def parseStoredList (stored : Bytes) : Option (List Json) :=
  if stored = [] then none
  else
    match J.parse stored with
    | some (.arr items) => some items
    | _ => none

/-- Read a stored failed-file list. -/
def parseFailedFilesJson (stored : Bytes) : Option (List TaskRunFailedFile) := do
  (← parseStoredList J stored).mapM parseFailedFile

/-- Read a stored fixed input list. -/
def parseRetryFilesJson (stored : Bytes) : Option (List TaskRunRetryFile) := do
  (← parseStoredList J stored).mapM parseRetryFile

end LabBridge.Server
