import LabBridge.Agent.Errors
import LabBridge.Core.CronSchedule
import LabBridge.Library.FileTree
import LabBridge.Library.Sha256
import LabBridge.Server.UtcTexts

/-!
# The archive of an agent

Planned paths, the copy of a file to its planned path, and the recovery of that copy after an
interruption. Links are left out: a path stands for what it resolves to. The copy writes its
bytes one by one, so that an interruption may leave any beginning of the content. The name of a
temporary copy is longer than that of its destination, so the system may refuse it alone.
-/

namespace LabBridge.Agent

open ByteText FileTree Interaction Sha256 LabBridge.Core

/-- `isalnum` in the C locale. -/
def isAlnum (b : UInt8) : Bool :=
  (48 ≤ b && b ≤ 57) || (65 ≤ b && b ≤ 90) || (97 ≤ b && b ≤ 122)

/-- The bytes of a safe segment. -/
def isSafeByte (b : UInt8) : Bool := isAlnum b || b == byte '-' || b == byte '_' || b == byte '.'

/-- `is_safe_segment`. -/
def isSafeSegment (value : Bytes) : Bool :=
  if value = [] ∨ value = text "." ∨ value = text ".." then false else value.all isSafeByte

/-- `sanitized_filename`. -/
def sanitizedFilename (originalName : Bytes) : Bytes :=
  let result := originalName.map fun b => if isSafeByte b then b else byte '_'
  if result = [] ∨ result = text "." ∨ result = text ".." then text "file" else result

/-- A safe byte is neither a separator nor zero. -/
theorem isSafeByte_ne {b : UInt8} (h : isSafeByte b = true) : b ≠ byte '/' ∧ b ≠ 0 := by
  constructor
  · rintro rfl
    exact absurd h (by decide)
  · rintro rfl
    exact absurd h (by decide)

/-- A safe segment is a name. -/
theorem isName_of_isSafeSegment {value : Bytes} (h : isSafeSegment value = true) :
    IsName value := by
  unfold isSafeSegment at h
  split at h
  · cases h
  · rename_i hplain
    have hsafe : ∀ b ∈ value, isSafeByte b = true := List.all_eq_true.mp h
    refine ⟨fun hempty => hplain (.inl hempty), fun hslash => ?_, fun hzero => ?_,
      fun hdot => hplain (.inr (.inl hdot)), fun hdots => hplain (.inr (.inr hdots))⟩
    · exact (isSafeByte_ne (hsafe _ hslash)).1 rfl
    · exact (isSafeByte_ne (hsafe _ hzero)).2 rfl

/-- What the archive calls a file. -/
def archiveFilename (ordinal : UInt64) (originalName : Bytes) : Bytes :=
  decimal ordinal.toNat ++ text "-" ++ sanitizedFilename originalName

/-- A digit is a safe byte. -/
theorem isSafeByte_of_isDigit {b : UInt8} (h : IsDigit b) : isSafeByte b = true := by
  have hlow : decide (48 ≤ b) = true := decide_eq_true h.1
  have hhigh : decide (b ≤ 57) = true := decide_eq_true h.2
  simp only [isSafeByte, isAlnum, hlow, hhigh, Bool.and_self, Bool.true_or]

/-- The bytes of a sanitized name are safe. -/
theorem isSafeByte_sanitizedFilename {originalName : Bytes} {b : UInt8}
    (h : b ∈ sanitizedFilename originalName) : isSafeByte b = true := by
  unfold sanitizedFilename at h
  dsimp only at h
  split at h
  · have hfile : (text "file").all isSafeByte = true := rfl
    exact List.all_eq_true.mp hfile b h
  · obtain ⟨original, -, rfl⟩ := List.mem_map.mp h
    split
    · assumption
    · decide

/-- The archived name of a file is a name. -/
theorem isName_archiveFilename (ordinal : UInt64) (originalName : Bytes) :
    IsName (archiveFilename ordinal originalName) := by
  have hsafe : ∀ b ∈ archiveFilename ordinal originalName, isSafeByte b = true := by
    intro b hb
    rw [archiveFilename, List.append_assoc, List.mem_append, List.mem_append] at hb
    rcases hb with hdigit | hdash | hname
    · exact isSafeByte_of_isDigit (isDigit_of_mem_decimal hdigit)
    · rw [List.mem_singleton.mp hdash]
      rfl
    · exact isSafeByte_sanitizedFilename hname
  have hdash : byte '-' ∈ archiveFilename ordinal originalName :=
    List.mem_append_left _ (List.mem_append_right _ (List.mem_singleton.mpr rfl))
  refine ⟨List.ne_nil_of_mem hdash, fun hslash => ?_, fun hzero => ?_, fun hdot => ?_,
    fun hdots => ?_⟩
  · exact (isSafeByte_ne (hsafe _ hslash)).1 rfl
  · exact (isSafeByte_ne (hsafe _ hzero)).2 rfl
  · rw [hdot] at hdash
    exact absurd hdash (by decide)
  · rw [hdots] at hdash
    exact absurd hdash (by decide)

/-- The last part of a planned path. -/
def archiveFile (ordinal : UInt64) (originalName : Bytes) : Name :=
  ⟨archiveFilename ordinal originalName, isName_archiveFilename ordinal originalName⟩

/-! ## Planned paths -/

/-- A store: its canonical work directory. -/
structure LocalArchiveStore where
  workDir : Path

/-- The directory of all archives. -/
def archiveName : Name := ⟨text "archive", by decide⟩

/-- `plan_archive_path`. -/
def LocalArchiveStore.planArchivePath (store : LocalArchiveStore) (taskId taskRunId : Bytes)
    (ordinal : UInt64) (originalName : Bytes) : Except AgentError Path :=
  if h : isSafeSegment taskId = true ∧ isSafeSegment taskRunId = true ∧ ordinal ≠ 0 then
    .ok (store.workDir ++ [archiveName, ⟨taskId, isName_of_isSafeSegment h.1⟩,
      ⟨taskRunId, isName_of_isSafeSegment h.2.1⟩,
      archiveFile ordinal originalName])
  else .error (.failure (text "task, task run and ordinal must form a safe archive path"))

/-- `std::stoull`: white space and a sign may lead, and what follows the digits is left. A number
of the wrong sign wraps. -/
def stoull (value : Bytes) : Except AgentError UInt64 :=
  let signed := value.dropWhile isSpaceByte
  let unsigned := if signed.head? = some (byte '-') ∨ signed.head? = some (byte '+') then
    signed.tail else signed
  let digits := unsigned.takeWhile fun b => decide (IsDigit b)
  if digits = [] then .error (.failure (text "stoull"))
  else if 2 ^ 64 ≤ numeralValue digits then .error (.failure (text "stoull"))
  else if signed.head? = some (byte '-') then .ok (-UInt64.ofNat (numeralValue digits))
  else .ok (UInt64.ofNat (numeralValue digits))

/-- What `recover_archive` reads back from a persisted archive path: the task, the run and the
ordinal. -/
def readArchivePath (archivePath : Path) : Except AgentError (Bytes × Bytes × UInt64) :=
  let filename := archivePath.filename
  if byte '-' ∈ filename then do
    let ordinal ← stoull (filename.takeWhile fun b => b != byte '-')
    pure (archivePath.parent.parent.filename, archivePath.parent.filename, ordinal)
  else .error (.failure (text "invalid persisted archive path"))

/-! ## Copies -/

/-- What was recorded of a file. -/
structure LocalFileMetadata where
  sourcePath : Path
  originalName : Bytes
  fileHash : Bytes
  sizeBytes : ℤ
  sourceMtime : Bytes
  fingerprint : Bytes
  deriving DecidableEq

/-- A content has the recorded size and hash. -/
def LocalFileMetadata.describes (source : LocalFileMetadata) (content : Bytes) : Bool :=
  content.length == (source.sizeBytes % 2 ^ 64).toNat && sha256Hex content == source.fileHash

/-- The exception of a file operation. -/
def filesystemError (operation : String) : AgentError :=
  .failure (text "filesystem error: " ++ text operation)

/-- The system refuses to look up a path that is too long. -/
def requireFits (path : Path) : FileProgram AgentError Unit :=
  if path.fits then pure () else .stop (filesystemError "File name too long")

/-- Make sure that a directory is there. -/
def ensureDirectory (directory : Path) : FileProgram AgentError Unit := do
  match ← .perform (.lookup directory) with
  | some .directory => pure ()
  | some _ => .stop (filesystemError "cannot create directories")
  | none =>
    if ← .perform (.createDirectory directory) then pure ()
    else .stop (filesystemError "cannot create directories")

/-- `create_directories` below a directory. -/
def createDirectories (made : Path) : List Name → FileProgram AgentError Unit
  | [] => pure ()
  | name :: rest => do
    ensureDirectory (made ++ [name])
    createDirectories (made ++ [name]) rest

/-- Write a content, byte by byte. -/
def writeContent (path : Path) : Bytes → FileProgram AgentError Unit
  | [] => pure ()
  | b :: rest => do
    .perform (.append path [b])
    writeContent path rest

/-- `copy_file` without options: the target must be new. -/
def copyFile (source target : Path) : FileProgram AgentError Unit := do
  match ← .perform (.lookup source) with
  | some (.file content) =>
    if ← .perform (.createFile target) then writeContent target content
    else .stop (filesystemError "cannot copy file")
  | _ => .stop (filesystemError "cannot copy file")

/-- The copy of a file has the recorded size and hash. -/
def verifyCopy (source : LocalFileMetadata) (temporary : Path) : FileProgram AgentError Unit := do
  match ← .perform (.lookup temporary) with
  | some (.file content) =>
    if source.describes content then pure ()
    else .stop (.failure (text "source changed while it was being archived"))
  | _ => .stop (filesystemError "cannot get file size")

/-- Give a file its final name. -/
def renameFile (source target : Path) : FileProgram AgentError Unit := do
  if ← .perform (.rename source target) then pure ()
  else .stop (filesystemError "cannot rename")

/-- `sync_directory_chain`: a directory and those above it, up to the root. -/
def syncDirectoryChain : List Path → FileProgram AgentError Unit
  | [] => pure ()
  | directory :: rest => do
    .perform (.sync directory)
    syncDirectoryChain rest

/-- A name stays one when two or more safe bytes follow it. -/
theorem isName_append {name suffix : Bytes} (h : IsName name)
    (hsafe : ∀ b ∈ suffix, isSafeByte b = true) (hlong : 2 ≤ suffix.length) :
    IsName (name ++ suffix) := by
  have hlength : 3 ≤ (name ++ suffix).length := by
    have hname := List.length_pos_iff.mpr h.1
    rw [List.length_append]
    omega
  refine ⟨fun hempty => ?_, fun hslash => ?_, fun hzero => ?_, fun hdot => ?_, fun hdots => ?_⟩
  · simp [hempty] at hlength
  · rcases List.mem_append.mp hslash with hname | hsuffix
    · exact h.2.1 hname
    · exact (isSafeByte_ne (hsafe _ hsuffix)).1 rfl
  · rcases List.mem_append.mp hzero with hname | hsuffix
    · exact h.2.2.1 hname
    · exact (isSafeByte_ne (hsafe _ hsuffix)).2 rfl
  · rw [hdot] at hlength
    exact absurd hlength (by decide)
  · rw [hdots] at hlength
    exact absurd hlength (by decide)

/-- What the name of a temporary copy ends in. -/
def temporarySuffix (sequence : ℕ) : Bytes := text ".tmp-" ++ decimal sequence

theorem isSafeByte_temporarySuffix {sequence : ℕ} {b : UInt8} (h : b ∈ temporarySuffix sequence) :
    isSafeByte b = true := by
  have htext : (text ".tmp-").all isSafeByte = true := rfl
  rcases List.mem_append.mp h with hfirst | hdigit
  · exact List.all_eq_true.mp htext b hfirst
  · exact isSafeByte_of_isDigit (isDigit_of_mem_decimal hdigit)

theorem two_le_length_temporarySuffix (sequence : ℕ) : 2 ≤ (temporarySuffix sequence).length := by
  have htext : (text ".tmp-").length = 5 := rfl
  rw [temporarySuffix, List.length_append, htext]
  omega

/-- The name of the temporary copy under a value of the counter. -/
def temporaryName (name : Name) (sequence : ℕ) : Name :=
  ⟨name.val ++ temporarySuffix sequence, isName_append name.property
    (fun _ => isSafeByte_temporarySuffix) (two_le_length_temporarySuffix sequence)⟩

/-- The temporary copy stands beside its destination. -/
def temporaryPath (destination : Path) (sequence : ℕ) : Path :=
  match destination.getLast? with
  | some name => destination.parent ++ [temporaryName name sequence]
  | none => []

/-- Copy a file beside its destination, check the copy and give it its final name. -/
def publishCopy (source : LocalFileMetadata) (inputPath temporary destination : Path) :
    FileProgram AgentError Unit := do
  copyFile inputPath temporary
  verifyCopy source temporary
  .perform (.sync temporary)
  renameFile temporary destination
  syncDirectoryChain destination.parent.inits.reverse

/-- Archive a file under a path. A copy that fails is taken away again. -/
def archiveTo (source : LocalFileMetadata) (inputPath destination : Path) :
    FileProgram AgentError (LocalFileMetadata × Path) := do
  requireFits destination.parent
  createDirectories [] destination.parent
  requireFits destination
  if (← .perform (.lookup destination)).isSome then
    .stop (.archiveConflict (text "archive destination already exists"))
  else
    let sequence ← .perform .nextSequence
    let temporary := temporaryPath destination sequence
    (publishCopy source inputPath temporary destination).rescue fun error => do
      .perform (.remove temporary)
      .stop error
    pure (source, destination)

/-- `archive`: copy a file to its planned path. -/
def LocalArchiveStore.archive (store : LocalArchiveStore) (taskId taskRunId : Bytes)
    (ordinal : UInt64) (source : LocalFileMetadata) (inputPath : Path) :
    FileProgram AgentError (LocalFileMetadata × Path) :=
  if isSafeSegment taskId = false ∨ isSafeSegment taskRunId = false then
    .stop (.failure (text "task and task run IDs must be safe path segments"))
  else
    match store.planArchivePath taskId taskRunId ordinal source.originalName with
    | .error error => .stop error
    | .ok destination => archiveTo source inputPath destination

/-- `recover_archive`: confirm a copy under its persisted path, or archive the file again. -/
def LocalArchiveStore.recoverArchive (store : LocalArchiveStore) (source : LocalFileMetadata)
    (archivePath inputPath : Path) : FileProgram AgentError (LocalFileMetadata × Path) := do
  requireFits archivePath
  match ← .perform (.lookup archivePath) with
  | some (.file content) =>
    if source.describes content then
      .perform (.sync archivePath)
      syncDirectoryChain archivePath.parent.inits.reverse
      pure (source, archivePath)
    else .stop (.archiveConflict (text "persisted archive conflicts with expected evidence"))
  | some _ => .stop (.archiveConflict (text "persisted archive conflicts with expected evidence"))
  | none =>
    match readArchivePath archivePath with
    | .error error => .stop error
    | .ok (taskId, taskRunId, ordinal) =>
      store.archive taskId taskRunId ordinal source inputPath

end LabBridge.Agent
