import LabBridge.Agent.LocalArchiveStore
import LabBridge.Agent.QueueOperations

/-!
# The inspection of a source file

A modification time is a time of the file clock. It is shown as a UTC second after one reading of
either clock has moved it to the system clock, so the time that passes between the two readings
is added to it or subtracted from it. Both clocks are read within one sum, and which of them comes
first is up to the compiler. What a path resolves to is given, and so are the readings.
-/

namespace LabBridge.Agent

open ByteText FileTree Sha256 LabBridge.Server

/-- A file that was collected. -/
structure CollectedItem where
  localPath : Bytes
  originalName : Bytes

/-- What the path of a collected file resolves to; the time is one of the file clock. -/
structure SourceFile where
  path : Path
  isSymlink : Bool
  node : Option Node
  lastWriteTime : ℤ

/-- The readings of the two clocks within one conversion, in nanoseconds. -/
structure ClockReadings where
  fileNow : ℤ
  systemNow : ℤ

/-- The clock that a build reads first; the operands of a sum may be evaluated in either order. -/
inductive ReadingOrder
  | fileFirst
  | systemFirst

/-- The readings at two instants, of clocks that differ by a constant. -/
def readingsAt (offset first second : ℤ) : ReadingOrder → ClockReadings
  | .fileFirst => ⟨first, second + offset⟩
  | .systemFirst => ⟨second, first + offset⟩

/-- What the readings at two instants add to a time. -/
def delayBetween (first second : ℤ) : ReadingOrder → ℤ
  | .fileFirst => second - first
  | .systemFirst => first - second

/-- A time of the file clock on the system clock. -/
def systemTime (value : ℤ) (readings : ClockReadings) : ℤ :=
  value - readings.fileNow + readings.systemNow

/-- `format_file_time`. -/
def formatFileTime (value : ℤ) (readings : ClockReadings) : Bytes :=
  formatUtcTimestamp ((systemTime value readings).tdiv 1000000000)

/-- What identifies the state of a source file. -/
def fingerprintOf (path : Path) (sizeBytes : ℤ) (sourceMtime fileHash : Bytes) : Bytes :=
  path.render ++ text "\n" ++ decimalInt sizeBytes ++ text "\n" ++ sourceMtime ++ text "\n" ++
    fileHash

/-- `inspect`. -/
def inspect (item : CollectedItem) (file : SourceFile) (readings : ClockReadings) :
    Except AgentError LocalFileMetadata :=
  match file.isSymlink, file.node with
  | false, some (.file content) =>
    if 2 ^ 63 ≤ content.length then .error (.failure (text "source file is too large"))
    else
      let sourceMtime := formatFileTime file.lastWriteTime readings
      .ok { sourcePath := file.path
            originalName := item.originalName
            fileHash := sha256Hex content
            sizeBytes := content.length
            sourceMtime := sourceMtime
            fingerprint := fingerprintOf file.path content.length sourceMtime
              (sha256Hex content) }
  | _, _ => .error (.failure (text "source is not a regular non-symlink file"))

/-- A file that can be collected. -/
def SourceFile.IsCollectable (file : SourceFile) : Prop :=
  file.isSymlink = false ∧ ∃ content, file.node = some (.file content) ∧ content.length < 2 ^ 63

/-- A time lies in the same second after either delay. -/
def SameSecond (time first second : ℤ) : Prop :=
  (time + first).tdiv 1000000000 = (time + second).tdiv 1000000000

variable {item : CollectedItem} {file : SourceFile} {readings : ClockReadings}
  {order : ReadingOrder}

/-- What an inspection answers. -/
theorem inspect_eq_ok {metadata : LocalFileMetadata} :
    inspect item file readings = .ok metadata ↔ ∃ content, file.isSymlink = false ∧
      file.node = some (.file content) ∧ content.length < 2 ^ 63 ∧
      metadata = ⟨file.path, item.originalName, sha256Hex content, content.length,
        formatFileTime file.lastWriteTime readings, fingerprintOf file.path content.length
          (formatFileTime file.lastWriteTime readings) (sha256Hex content)⟩ := by
  unfold inspect
  split
  · rename_i content hlink hnode
    by_cases hlarge : 2 ^ 63 ≤ content.length
    · rw [if_pos hlarge]
      constructor
      · intro h
        cases h
      · rintro ⟨other, -, hother, hsmall, -⟩
        rw [hnode] at hother
        cases hother
        omega
    · rw [if_neg hlarge, Except.ok.injEq]
      constructor
      · rintro rfl
        exact ⟨content, hlink, hnode, by omega, rfl⟩
      · rintro ⟨other, -, hother, -, rfl⟩
        rw [hnode] at hother
        cases hother
        rfl
  · rename_i hother
    constructor
    · intro h
      cases h
    · rintro ⟨content, hlink, hnode, -⟩
      exact absurd hnode (hother content hlink)

/-- Fingerprints of the same content agree exactly when the times do. -/
theorem fingerprintOf_inj {path : Path} {sizeBytes : ℤ} {first second fileHash : Bytes} :
    fingerprintOf path sizeBytes first fileHash = fingerprintOf path sizeBytes second fileHash ↔
      first = second := by
  simp [fingerprintOf]

/-- The readings move a time by what passes between them. -/
theorem systemTime_readingsAt (value offset first second : ℤ) (order : ReadingOrder) :
    systemTime value (readingsAt offset first second order) =
      value + offset + delayBetween first second order := by
  cases order <;>
    · unfold systemTime readingsAt delayBetween
      dsimp only
      omega

/-- The fingerprint under which a task processes a file. -/
def taskFingerprint (taskId : Bytes) (metadata : LocalFileMetadata) : Bytes :=
  taskId ++ text "\n" ++ metadata.fingerprint

/-- A second inspection knows the file of a first one: time and fingerprint are the same, and a
task that has processed the one takes the other for occupied. -/
structure Recognizes (first second : LocalFileMetadata) : Prop where
  sourceMtime : second.sourceMtime = first.sourceMtime
  fingerprint : second.fingerprint = first.fingerprint
  occupied : ∀ taskId (db : QueueDatabase),
    (∃ row ∈ db.processed, row.taskId = taskId ∧ row.fingerprint = taskFingerprint taskId first) →
      isFileOccupied taskId (taskFingerprint taskId second) db = true

theorem Recognizes.of_eq {first second : LocalFileMetadata}
    (hmtime : second.sourceMtime = first.sourceMtime)
    (hfingerprint : second.fingerprint = first.fingerprint) : Recognizes first second := by
  refine ⟨hmtime, hfingerprint, ?_⟩
  rintro taskId db ⟨row, hrow, htask, hrowFingerprint⟩
  have hknown : db.processed.any (fun row => row.taskId == taskId &&
      row.fingerprint == taskFingerprint taskId second) = true := by
    apply List.any_eq_true.mpr
    exact ⟨row, hrow, by simp [htask, hrowFingerprint, taskFingerprint, hfingerprint]⟩
  rw [isFileOccupied, hknown, Bool.true_or]

/-- Shown seconds of the clock differ as the seconds do. -/
theorem format_inj {first second : ClockTime} :
    formatUtcTimestamp first.seconds = formatUtcTimestamp second.seconds ↔
      first.seconds = second.seconds := by
  constructor
  · intro h
    have hfirst := first.parse_format
    rw [h, second.parse_format] at hfirst
    exact (Option.some.inj hfirst).symm
  · intro h
    rw [h]

/-- A file time is shown alike after two delays exactly when it lies in the same second. -/
theorem formatFileTime_inj {value offset first second third fourth : ℤ}
    (hfirst : FitsClock (systemTime value (readingsAt offset first second order)))
    (hsecond : FitsClock (systemTime value (readingsAt offset third fourth order))) :
    formatFileTime value (readingsAt offset third fourth order) =
        formatFileTime value (readingsAt offset first second order) ↔
      SameSecond (value + offset) (delayBetween first second order)
        (delayBetween third fourth order) := by
  have hinj := @format_inj ⟨_, hsecond⟩ ⟨_, hfirst⟩
  unfold ClockTime.seconds at hinj
  dsimp only at hinj
  unfold formatFileTime SameSecond
  rw [hinj, systemTime_readingsAt, systemTime_readingsAt, eq_comm]

/-- Whichever clock is read first, a later inspection of an unchanged file recognizes it exactly
when its modification time, moved by what passes between the two readings of a call, lies in the
same second for both calls. -/
theorem unchanged_file_recognized_iff (order : ReadingOrder) (item : CollectedItem)
    (file : SourceFile) (offset first second third fourth : ℤ)
    (hfirst : FitsClock (systemTime file.lastWriteTime (readingsAt offset first second order)))
    (hsecond : FitsClock (systemTime file.lastWriteTime (readingsAt offset third fourth order))) :
    (∀ recorded inspected,
      inspect item file (readingsAt offset first second order) = .ok recorded →
      inspect item file (readingsAt offset third fourth order) = .ok inspected →
        Recognizes recorded inspected) ↔
      ¬file.IsCollectable ∨ SameSecond (file.lastWriteTime + offset)
        (delayBetween first second order) (delayBetween third fourth order) := by
  constructor
  · intro h
    by_cases hfile : file.IsCollectable
    · obtain ⟨hlink, content, hnode, hsmall⟩ := hfile
      have hknown := h _ _ (inspect_eq_ok.mpr ⟨content, hlink, hnode, hsmall, rfl⟩)
        (inspect_eq_ok.mpr ⟨content, hlink, hnode, hsmall, rfl⟩)
      exact .inr ((formatFileTime_inj hfirst hsecond).mp hknown.sourceMtime)
    · exact .inl hfile
  · intro h recorded inspected hrecorded hinspected
    obtain ⟨content, hlink, hnode, hsmall, rfl⟩ := inspect_eq_ok.mp hrecorded
    obtain ⟨other, -, hother, -, rfl⟩ := inspect_eq_ok.mp hinspected
    rw [hnode] at hother
    cases hother
    rcases h with hfile | hsame
    · exact absurd ⟨hlink, content, hnode, hsmall⟩ hfile
    · have htime := (formatFileTime_inj hfirst hsecond).mpr hsame
      apply Recognizes.of_eq htime
      exact fingerprintOf_inj.mpr htime

/-- The system clock is ahead of the file clock by what lies between 1970 and 2174. -/
def epochOffset : ℤ := 6437664000000000000

/-- An empty file, modified less than a microsecond before a second begins, or after it has begun
when the system clock is read first. -/
def boundaryFile (order : ReadingOrder) : SourceFile where
  path := [archiveName]
  isSymlink := false
  node := some (.file [])
  lastWriteTime := match order with
    | .fileFirst => 1700000000999999500 - epochOffset
    | .systemFirst => 1700000000000000300 - epochOffset

theorem unchanged_file_recognized_iff_boundary :
    FitsClock (systemTime (boundaryFile .systemFirst).lastWriteTime
        (readingsAt epochOffset 0 100 .systemFirst)) ∧
      ((∀ recorded inspected,
        inspect ⟨[], []⟩ (boundaryFile .systemFirst)
          (readingsAt epochOffset 0 100 .systemFirst) = .ok recorded →
        inspect ⟨[], []⟩ (boundaryFile .systemFirst)
          (readingsAt epochOffset 1000 1200 .systemFirst) = .ok inspected →
          Recognizes recorded inspected) ↔
        ¬(boundaryFile .systemFirst).IsCollectable ∨
          SameSecond ((boundaryFile .systemFirst).lastWriteTime + epochOffset)
            (delayBetween 0 100 .systemFirst) (delayBetween 1000 1200 .systemFirst)) :=
  ⟨by decide, unchanged_file_recognized_iff .systemFirst ⟨[], []⟩ (boundaryFile .systemFirst)
    epochOffset 0 100 1000 1200 (by decide) (by decide)⟩

/-- Whether a build that reads the clocks in an order knows every unchanged file again. -/
def RecognizesUnchanged (order : ReadingOrder) : Prop :=
  ∀ (item : CollectedItem) (file : SourceFile) (offset first second third fourth : ℤ),
    FitsClock (systemTime file.lastWriteTime (readingsAt offset first second order)) →
    FitsClock (systemTime file.lastWriteTime (readingsAt offset third fourth order)) →
    first ≤ second → second ≤ third → third ≤ fourth →
    ∀ recorded inspected,
      inspect item file (readingsAt offset first second order) = .ok recorded →
      inspect item file (readingsAt offset third fourth order) = .ok inspected →
        Recognizes recorded inspected

/-- Half a microsecond more between the readings makes the file a new one. -/
theorem not_recognizesUnchanged (order : ReadingOrder) : ¬RecognizesUnchanged order := by
  intro claimed
  have hfirst : FitsClock (systemTime (boundaryFile order).lastWriteTime
      (readingsAt epochOffset 0 100 order)) := by
    cases order <;> decide
  have hsecond : FitsClock (systemTime (boundaryFile order).lastWriteTime
      (readingsAt epochOffset 1000 1600 order)) := by
    cases order <;> decide
  have hknown := claimed ⟨[], []⟩ (boundaryFile order) epochOffset 0 100 1000 1600 hfirst hsecond
    (by decide) (by decide) (by decide) _ _ (inspect_eq_ok.mpr ⟨[], rfl, rfl, by decide, rfl⟩)
    (inspect_eq_ok.mpr ⟨[], rfl, rfl, by decide, rfl⟩)
  have hsame := (formatFileTime_inj hfirst hsecond).mp hknown.sourceMtime
  cases order <;> exact absurd hsame (by unfold SameSecond; decide)

/-- An unchanged file is not known again, whichever clock is read first. -/
theorem not_unchanged_file_recognized :
    ¬RecognizesUnchanged .systemFirst ∧ ¬RecognizesUnchanged .fileFirst :=
  ⟨not_recognizesUnchanged .systemFirst, not_recognizesUnchanged .fileFirst⟩

end LabBridge.Agent
