import LabBridge.Agent.FileInspection
import LabBridge.Library.LinkedTree

/-!
# Choosing the inputs of a job

What the executor plans for a job that collects a directory, and for a retry whose inputs the
control plane fixed. The file system does not change while a plan is made; the clock readings of
each inspection are given.
-/

namespace LabBridge.Agent

open ByteText FileTree JsonText LinkedTree Sha256 LabBridge.Core

/-- The parts of the executor that choose inputs. -/
structure TaskExecutor where
  archiveStore : LocalArchiveStore
  allowedLocalRoots : List PathText
  maxFilesPerRun : ℕ

/-- The directory of a task and the extension of its files. -/
structure SourceSpec where
  rootPath : PathText
  extension : Bytes

/-- What a question about a path answers or raises. -/
def pathResult {α : Type} : Except WalkError α → Except AgentError α
  | .ok value => .ok value
  | .error _ => .error (filesystemError "cannot resolve a path")

section Validation

variable (J : Nlohmann) (fs : FileSystem)

/-- `parse_source_spec`. -/
def parseSourceSpec (task : TaskConfig) (allowedRoots : List PathText) :
    Except AgentError SourceSpec :=
  match J.parse task.dataSource.configJson with
  | none => .error (.json (J.parseFailure task.dataSource.configJson))
  | some config =>
    match config.field? "root_path", config.field? "extension" with
    | some (.str rootText), some (.str extension) =>
      if (pathText rootText).absolute = false then
        .error (.failure (text "data source root_path must be absolute"))
      else do
        let rootPath ← pathResult (fs.weaklyCanonical (pathText rootText))
        if !(allowedRoots.any fun root => isWithin rootPath root) then
          .error (.failure (text "data source root_path is outside allowed_local_roots"))
        else if extension ≠ text ".csv" then
          .error (.failure (text "data source extension must be .csv"))
        else pure ⟨rootPath, extension⟩
    | _, _ => .error (.failure (text "data source config requires string root_path and extension"))

/-- `validate_execution_types`. -/
def validateExecutionTypes (task : TaskConfig) : Except AgentError Unit :=
  if task.taskType ≠ text "local_file_import" ∨ task.parserType ≠ text "csv_observation" ∨
      task.dataSource.type ≠ .localDirectory then
    .error (.failure
      (text "task requires local_directory, local_file_import and csv_observation"))
  else
    match task.qcRules.find? fun rule => rule.ruleType != text "required_fields" &&
        rule.ruleType != text "basic_timestamp_format" with
    | some rule => .error (.failure (text "unsupported QC rule type: " ++ rule.ruleType))
    | none => .ok ()

/-- A content has the size and the hash that were recorded for a retry input. -/
def RetryFileInput.describes (target : RetryFileInput) (content : Bytes) : Bool :=
  content.length == (target.sizeBytes % 2 ^ 64).toNat && sha256Hex content == target.fileHash

/-- `validate_archive_input`. -/
def validateArchiveInput (target : RetryFileInput) (archiveRoot : PathText) :
    Except AgentError Unit := do
  let input := pathText target.storagePath
  if ((← pathResult (fs.lookup false input)).any Entry.isLink) then
    .error (.failure (text "archived input is a symbolic link: " ++ target.storagePath))
  else
    let canonical ← pathResult (fs.weaklyCanonical input)
    if !isWithin canonical archiveRoot then
      .error (.failure (text "archived input is outside the archive root: " ++ target.storagePath))
    else
      match ← pathResult (fs.lookup true canonical) with
      | some (.file content _) =>
        if target.describes content then pure ()
        else .error (.failure
          (text "archived input does not match the recorded evidence: " ++ target.storagePath))
      | _ => .error (.failure
          (text "archived input is not a regular file: " ++ target.storagePath))

/-- `validate_source_input`. -/
def validateSourceInput (target : RetryFileInput) (rootPath : PathText) :
    Except AgentError Unit := do
  let input := pathText target.sourcePath
  if ((← pathResult (fs.lookup false input)).any Entry.isLink) then
    .error (.failure (text "retry target is a symbolic link: " ++ target.sourcePath))
  else
    let canonical ← pathResult (fs.weaklyCanonical input)
    if !isWithin canonical rootPath then
      .error (.failure (text "retry target is outside the task directory: " ++ target.sourcePath))
    else pure ()

/-- What the path of a collected file stands for. A regular file is read under its canonical
path, which is the one of its place. -/
def sourceFile (localPath : Bytes) : Except AgentError SourceFile := do
  let input := pathText localPath
  let status ← pathResult (fs.lookup false input)
  let _ ← pathResult (fs.weaklyCanonical input)
  match fs.resolve false input, status with
  | .ok place, some (.file content lastWriteTime) =>
    pure ⟨place, false, some (.file content), lastWriteTime⟩
  | .ok place, some (.link _) => pure ⟨place, true, none, 0⟩
  | .ok place, some .directory => pure ⟨place, false, some .directory, 0⟩
  | .ok place, some .other => pure ⟨place, false, some .other, 0⟩
  | _, _ => pure ⟨[], false, none, 0⟩

/-- `inspect`, on the file system. -/
def inspectItem (readings : CollectedItem → ClockReadings) (item : CollectedItem) :
    Except AgentError LocalFileMetadata := do
  inspect item (← sourceFile fs item.localPath) (readings item)

end Validation

section Collection

variable (fs : FileSystem)

/-- `path::extension` of a file name. -/
def pathExtension (name : Bytes) : Bytes :=
  match name.reverse.dropWhile fun b => b != byte '.' with
  | _ :: _ :: _ => byte '.' :: (name.reverse.takeWhile fun b => b != byte '.').reverse
  | _ => []

/-- A directory entry, if it is collected. -/
def collectEntry (rootPath : PathText) (extension : Bytes) (name : Name) :
    Except WalkError (Option CollectedItem) := do
  let path := rootPath.append name.val
  match ← fs.lookup false path with
  | some (.file _ _) =>
    if extension ≠ [] ∧ pathExtension name.val ≠ extension then pure none
    else pure (some ⟨(← fs.weaklyCanonical path).render, name.val⟩)
  | _ => pure none

/-- `collect`: the files of a directory by their paths, or the message of its failure. -/
def collect (rootPath : PathText) (extension : Bytes) : Except Bytes (List CollectedItem) :=
  match fs.resolve true rootPath with
  | .error .missing => .error (text "local directory does not exist")
  | .error .loop => .error (text "failed to scan local directory: too many levels of symbolic links")
  | .ok place =>
    if fs.entry place ≠ some .directory then .error (text "local path is not a directory")
    else
      match (fs.names place).mapM (collectEntry fs rootPath extension) with
      | .error _ => .error (text "failed to scan local directory: cannot resolve a path")
      | .ok entries => .ok ((entries.filterMap id).insertionSort
          fun left right => Json.keyLt right.localPath left.localPath = false)

end Collection

section Planning

variable (J : Nlohmann) (fs : FileSystem) (executor : TaskExecutor)
  (readings : CollectedItem → ClockReadings) (db : QueueDatabase) (job : RecoveredJob)

/-- The plan and the failures of a job. -/
abbrev Chosen := List PendingFilePlan × List TaskRunReportFailedFile

/-- `static_cast<int>(plan.size())`. -/
def planOrdinal (plan : List PendingFilePlan) : ℤ := (plan.length : ℤ).bmod (2 ^ 32)

/-- The archive path of the next file of a plan. -/
def nextArchivePath (plan : List PendingFilePlan) (originalName : Bytes) : Except AgentError Path :=
  executor.archiveStore.planArchivePath job.task.id job.taskRunId
    (UInt64.ofNat (plan.length + 1)) originalName

/-- The plan row of a collected file. -/
def collectedRow (plan : List PendingFilePlan) (metadata : LocalFileMetadata)
    (archivePath : Path) : PendingFilePlan where
  ordinal := planOrdinal plan
  sourcePath := metadata.sourcePath.render
  originalName := metadata.originalName
  sourceMtime := metadata.sourceMtime
  sizeBytes := metadata.sizeBytes
  fileHash := metadata.fileHash
  fingerprint := taskFingerprint job.task.id metadata
  archivePath := archivePath.render

/-- The loop of `plan_from_directory`. Files that are occupied take no place in the plan, files
that cannot be read do. -/
def planCollected : List CollectedItem → List PendingFilePlan → List TaskRunReportFailedFile →
    Except AgentError Chosen
  | [], plan, failures => .ok (plan, failures)
  | item :: rest, plan, failures =>
    if executor.maxFilesPerRun ≤ plan.length + failures.length then .ok (plan, failures)
    else
      match inspectItem fs readings item with
      | .error error => planCollected rest plan
          (failures ++ [⟨item.localPath, item.originalName, text "read", error.what, []⟩])
      | .ok metadata =>
        if isFileOccupied job.task.id (taskFingerprint job.task.id metadata) db then
          planCollected rest plan failures
        else do
          let archivePath ← nextArchivePath executor job plan metadata.originalName
          planCollected rest (plan ++ [collectedRow job plan metadata archivePath]) failures

/-- `plan_from_directory`. -/
def planFromDirectory : Except AgentError Chosen := do
  validateExecutionTypes job.task
  let source ← parseSourceSpec J fs job.task executor.allowedLocalRoots
  match collect fs source.rootPath source.extension with
  | .error message => .error (.failure (text "collect failed: " ++ message))
  | .ok items => planCollected fs executor readings db job items [] []

/-- The fingerprint of an archived retry input, from what was recorded of it. -/
def archiveFingerprint (target : RetryFileInput) : Bytes :=
  job.task.id ++ text "\n" ++ target.sourcePath ++ text "\n" ++ decimalInt target.sizeBytes ++
    text "\n" ++ target.sourceMtime ++ text "\n" ++ target.fileHash

/-- The plan row of an archived retry input. -/
def archiveRow (plan : List PendingFilePlan) (target : RetryFileInput) (archivePath : Path) :
    PendingFilePlan where
  ordinal := planOrdinal plan
  sourcePath := target.sourcePath
  originalName := target.originalName
  sourceMtime := target.sourceMtime
  sizeBytes := target.sizeBytes
  fileHash := target.fileHash
  fingerprint := archiveFingerprint job target
  archivePath := archivePath.render
  inputPath := target.storagePath

/-- The plan row of a retry input that is collected again. -/
def sourceRow (plan : List PendingFilePlan) (target : RetryFileInput)
    (metadata : LocalFileMetadata) (archivePath : Path) : PendingFilePlan where
  ordinal := planOrdinal plan
  sourcePath := target.sourcePath
  originalName := target.originalName
  sourceMtime := metadata.sourceMtime
  sizeBytes := metadata.sizeBytes
  fileHash := metadata.fileHash
  fingerprint := taskFingerprint job.task.id metadata
  archivePath := archivePath.render
  inputPath := metadata.sourcePath.render

/-- The archive root of the agent. -/
def TaskExecutor.archiveRoot (executor : TaskExecutor) : PathText :=
  .ofPath (executor.archiveStore.workDir ++ [archiveName])

/-- A retry input that is not an archive names its source. -/
def RetryFileInput.isArchive (target : RetryFileInput) : Bool := target.inputType == text "archive"

/-- The failure of a retry input. An archived input keeps its archive. -/
def targetFailure (target : RetryFileInput) (stage message : Bytes) : TaskRunReportFailedFile :=
  ⟨target.sourcePath, target.originalName, stage, message,
    if target.isArchive then target.archiveRawFileId else []⟩

/-- The plan row of a retry input, or why it cannot be read. -/
def checkTarget (source : SourceSpec) (plan : List PendingFilePlan) (target : RetryFileInput)
    (archivePath : Path) : Except AgentError PendingFilePlan := do
  if target.isArchive then
    validateArchiveInput fs target executor.archiveRoot
    pure (archiveRow job plan target archivePath)
  else
    validateSourceInput fs target source.rootPath
    let metadata ← inspectItem fs readings ⟨target.sourcePath, target.originalName⟩
    pure (sourceRow job plan target metadata archivePath)

/-- The loop of `plan_from_retry_targets`. -/
def planTargets (source : SourceSpec) : List RetryFileInput → List PendingFilePlan →
    List TaskRunReportFailedFile → Except AgentError Chosen
  | [], plan, failures => .ok (plan, failures)
  | target :: rest, plan, failures => do
    let archivePath ← nextArchivePath executor job plan target.originalName
    match checkTarget fs executor readings job source plan target archivePath with
    | .error error => planTargets source rest plan (failures ++
        [targetFailure target (if target.isArchive then text "archive" else text "read") error.what])
    | .ok row =>
      if isFileInFlight job.task.id row.fingerprint db then
        planTargets source rest plan (failures ++
          [targetFailure target (text "read") (text "file is in flight by another pending job")])
      else planTargets source rest (plan ++ [row]) failures

/-- `plan_from_retry_targets`. -/
def planFromRetryTargets : Except AgentError Chosen := do
  validateExecutionTypes job.task
  let source ← parseSourceSpec J fs job.task executor.allowedLocalRoots
  planTargets fs executor readings db job source job.retryFiles [] []

/-- What `run_collecting_stage` plans for a job without a plan. -/
def chooseInputs : Except AgentError Chosen :=
  if job.retryFiles.isEmpty then planFromDirectory J fs executor readings db job
  else planFromRetryTargets J fs executor readings db job

end Planning

section Targets

open Fallible

variable {fs : FileSystem} {executor : TaskExecutor} {readings : CollectedItem → ClockReadings}
  {job : RecoveredJob} {source : SourceSpec} {plan : List PendingFilePlan}
  {target : RetryFileInput} {archivePath : Path} {row : PendingFilePlan}

/-- An archived target is planned with what was recorded of it. -/
theorem checkTarget_archive (harchive : target.isArchive = true) :
    checkTarget fs executor readings job source plan target archivePath = .ok row ↔
      validateArchiveInput fs target executor.archiveRoot = .ok () ∧
        archiveRow job plan target archivePath = row := by
  rw [checkTarget, if_pos harchive, unit_bind_eq_ok, pure_eq_ok]

/-- Another target is planned with what is found of its source. -/
theorem checkTarget_source (harchive : target.isArchive ≠ true) :
    checkTarget fs executor readings job source plan target archivePath = .ok row ↔
      validateSourceInput fs target source.rootPath = .ok () ∧ ∃ metadata,
        inspectItem fs readings ⟨target.sourcePath, target.originalName⟩ = .ok metadata ∧
        sourceRow job plan target metadata archivePath = row := by
  rw [checkTarget, if_neg harchive, unit_bind_eq_ok, bind_eq_ok]
  simp only [pure_eq_ok]

/-- A plan row keeps the path and the name of its target. -/
theorem checkTarget_names
    (h : checkTarget fs executor readings job source plan target archivePath = .ok row) :
    row.sourcePath = target.sourcePath ∧ row.originalName = target.originalName := by
  by_cases harchive : target.isArchive = true
  · obtain ⟨-, rfl⟩ := (checkTarget_archive harchive).mp h
    exact ⟨rfl, rfl⟩
  · obtain ⟨-, metadata, -, rfl⟩ := (checkTarget_source harchive).mp h
    exact ⟨rfl, rfl⟩

/-- A plan row takes the next place and the archive path it was given. -/
theorem checkTarget_place
    (h : checkTarget fs executor readings job source plan target archivePath = .ok row) :
    row.ordinal = planOrdinal plan ∧ row.archivePath = archivePath.render := by
  by_cases harchive : target.isArchive = true
  · obtain ⟨-, rfl⟩ := (checkTarget_archive harchive).mp h
    simp only [archiveRow, and_self]
  · obtain ⟨-, metadata, -, rfl⟩ := (checkTarget_source harchive).mp h
    simp only [sourceRow, and_self]

end Targets

/-- `input_path_of`: where the file of a plan row is read. -/
def inputPathOf (file : PendingFilePlan) : Bytes :=
  if file.inputPath.isEmpty then file.sourcePath else file.inputPath

end LabBridge.Agent
