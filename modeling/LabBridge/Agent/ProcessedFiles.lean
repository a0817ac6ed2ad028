import LabBridge.Agent.QueueSteps
import LabBridge.Library.NewestRows
import Mathlib.Data.List.Perm.Subperm

/-!
# What a completion keeps

A completed job adds the fingerprints of its cleanly parsed files unless they are there, and keeps
the newest rows of its task. Fingerprints that were there keep their times, and the clock may stand
before the times of other rows, so the limit decides which fingerprints of the job stay.
-/

namespace LabBridge.Agent

open ByteText JsonText NewestRows

variable {store : AgentQueueStore} {db after : QueueDatabase} {key now taskId : Bytes}
  {job : PendingJob} {processed rows : List ProcessedFile} {files : List PendingFile}

/-- A row is at least as new as another. -/
def isNewer (left right : ProcessedFile) : Bool := !Json.keyLt left.processedAt right.processedAt

/-- The processed rows of a task. -/
def processedOf (taskId : Bytes) (processed : List ProcessedFile) : List ProcessedFile :=
  processed.filter fun row => row.taskId == taskId

/-- The cleanly parsed files of a job. -/
def cleanFiles (key : Bytes) (db : QueueDatabase) : List PendingFile :=
  (db.filesOf key).filter fun file => file.parsedWithoutErrors == some true

/-- A file whose fingerprint is not among some rows. -/
def isFresh (rows : List ProcessedFile) (file : PendingFile) : Bool :=
  !rows.any fun row => row.fingerprint == file.fingerprint

/-- The limit of a task leaves room for the files of a job: for the fresh ones behind the rows that
are newer than the clock, and for each known one behind what is newer than its row. -/
structure HasRoom (capacity : ℕ) (now : Bytes) (rows : List ProcessedFile)
    (files : List PendingFile) : Prop where
  fresh : files.filter (isFresh rows) = [] ∨
    rows.countP (fun row => Json.keyLt now row.processedAt) +
      (files.filter (isFresh rows)).length ≤ capacity
  known : ∀ before row later, rows = before ++ row :: later →
    (∃ file ∈ files, file.fingerprint = row.fingerprint) →
      rank isNewer before row later +
        (if Json.keyLt now row.processedAt then 0 else (files.filter (isFresh rows)).length) <
          capacity

/-! ## Adding and trimming -/

theorem any_processedOf (fingerprint : Bytes) :
    (processedOf taskId processed).any (fun row => row.fingerprint == fingerprint) =
      processed.any fun row => row.taskId == taskId && row.fingerprint == fingerprint := by
  rw [processedOf, List.any_filter]

/-- The files of a job add a row for each fresh one. -/
theorem foldl_insertProcessed (hnodup : (files.map PendingFile.fingerprint).Nodup) :
    ∀ {processed : List ProcessedFile},
      (files.map (processedRow job now)).foldl insertProcessed processed = processed ++
        (files.filter (isFresh (processedOf job.taskId processed))).map (processedRow job now) := by
  induction files with
  | nil =>
    intro processed
    simp
  | cons file rest ih =>
    intro processed
    rw [List.map_cons, List.nodup_cons] at hnodup
    rw [List.map_cons, List.foldl_cons, ih hnodup.2]
    by_cases hknown : isFresh (processedOf job.taskId processed) file = true
    · have hinserted : insertProcessed processed (processedRow job now file) =
          processed ++ [processedRow job now file] := by
        rw [isFresh, any_processedOf, Bool.not_eq_true'] at hknown
        rw [insertProcessed, if_neg]
        simpa [processedRow] using hknown
      have hrest : rest.filter (isFresh (processedOf job.taskId
            (processed ++ [processedRow job now file]))) =
          rest.filter (isFresh (processedOf job.taskId processed)) := by
        apply List.filter_congr
        intro other hother
        have hne : (file.fingerprint == other.fingerprint) = false := by
          rw [beq_eq_false_iff_ne]
          intro heq
          exact hnodup.1 (List.mem_map.mpr ⟨other, hother, heq.symm⟩)
        simp [isFresh, processedOf, processedRow, hne]
      rw [hinserted, hrest, List.filter_cons_of_pos hknown]
      simp
    · have hinserted : insertProcessed processed (processedRow job now file) = processed := by
        rw [isFresh, any_processedOf, Bool.not_eq_true', Bool.not_eq_false] at hknown
        rw [insertProcessed, if_pos]
        simpa [processedRow] using hknown
      rw [hinserted, List.filter_cons_of_neg hknown]

/-- Being newer is transitive and total. -/
theorem isNewer_trans (first second third : ProcessedFile) (hfirst : isNewer first second = true)
    (hsecond : isNewer second third = true) : isNewer first third = true := by
  unfold isNewer at *
  rw [Bool.not_eq_true'] at *
  exact Json.not_keyLt_trans hfirst hsecond

theorem isNewer_total (first second : ProcessedFile) :
    (isNewer first second || isNewer second first) = true := by
  unfold isNewer
  cases h : Json.keyLt first.processedAt second.processedAt with
  | false => rfl
  | true => rw [Json.keyLt_asymm h]; rfl

/-- What a trim keeps of its own task. -/
theorem mem_trimProcessed {capacity : ℕ} {row : ProcessedFile} :
    row ∈ trimProcessed capacity taskId processed ↔ row ∈ processed ∧
      (row.taskId = taskId → row ∈ newest isNewer capacity (processedOf taskId processed)) := by
  have hnewest : newestProcessed capacity taskId processed =
      newest isNewer capacity (processedOf taskId processed) := rfl
  unfold trimProcessed
  dsimp only
  rw [List.mem_filter, hnewest, Bool.or_eq_true, bne_iff_ne, List.contains_iff_mem]
  tauto

/-! ## The fingerprints that stay -/

/-- A known row stays exactly when there is room in front of it. -/
theorem known_stays {capacity : ℕ} {before later added : List ProcessedFile} {row : ProcessedFile}
    (hnodup : ((before ++ row :: later) ++ added).Nodup)
    (hnow : ∀ other ∈ added, other.processedAt = now) :
    row ∈ newest isNewer capacity ((before ++ row :: later) ++ added) ↔
      rank isNewer before row later +
        (if Json.keyLt now row.processedAt then 0 else added.length) < capacity := by
  have hsplit : (before ++ row :: later) ++ added = before ++ row :: (later ++ added) := by simp
  have hadded : added.countP (fun other => isNewer other row) =
      if Json.keyLt now row.processedAt then 0 else added.length := by
    by_cases hlater : Json.keyLt now row.processedAt = true
    · rw [if_pos hlater, List.countP_eq_zero]
      intro other hother
      simp [isNewer, hnow other hother, hlater]
    · rw [if_neg hlater, List.countP_eq_length]
      intro other hother
      simp [isNewer, hnow other hother, hlater]
  rw [hsplit] at hnodup ⊢
  rw [mem_newest_iff isNewer_trans isNewer_total hnodup, rank, List.countP_append, hadded, rank,
    Nat.add_assoc]

/-- A row that was added stays exactly when there is room for it and those behind it, after the rows
that are newer than the clock. -/
theorem added_stays {capacity : ℕ} {before later : List ProcessedFile} {row : ProcessedFile}
    (hnodup : (rows ++ (before ++ row :: later)).Nodup)
    (hnow : ∀ other ∈ before ++ row :: later, other.processedAt = now) :
    row ∈ newest isNewer capacity (rows ++ (before ++ row :: later)) ↔
      rows.countP (fun other => Json.keyLt now other.processedAt) + later.length < capacity := by
  have hrow : row.processedAt = now := hnow row (by simp)
  have hbefore : before.countP (fun other => !isNewer row other) = 0 := by
    rw [List.countP_eq_zero]
    intro other hother
    simp [isNewer, hrow, hnow other (by simp [hother])]
  have hlater : later.countP (fun other => isNewer other row) = later.length := by
    rw [List.countP_eq_length]
    intro other hother
    simp [isNewer, hrow, hnow other (by simp [hother])]
  have hrows : rows.countP (fun other => !isNewer row other) =
      rows.countP fun other => Json.keyLt now other.processedAt := by
    simp [isNewer, hrow]
  rw [← List.append_assoc] at hnodup ⊢
  rw [mem_newest_iff isNewer_trans isNewer_total hnodup, rank, List.countP_append, hbefore, hlater,
    hrows, Nat.add_zero]

/-- All rows that were added stay exactly when there is room for them. -/
theorem all_added_stay {capacity : ℕ} {added : List ProcessedFile}
    (hnodup : (rows ++ added).Nodup) (hnow : ∀ other ∈ added, other.processedAt = now) :
    (∀ row ∈ added, row ∈ newest isNewer capacity (rows ++ added)) ↔
      added = [] ∨ rows.countP (fun other => Json.keyLt now other.processedAt) + added.length ≤
        capacity := by
  constructor
  · intro h
    cases added with
    | nil => exact .inl rfl
    | cons row later =>
      refine .inr ?_
      have hempty : (rows ++ ([] ++ row :: later)).Nodup := hnodup
      have hfirst := (added_stays hempty hnow).mp (h row (by simp))
      rw [List.length_cons]
      omega
  · rintro (rfl | hroom) row hrow
    · cases hrow
    · obtain ⟨before, later, rfl⟩ := List.append_of_mem hrow
      apply (added_stays hnodup hnow).mpr
      rw [List.length_append, List.length_cons] at hroom
      omega

/-! ## Completed jobs -/

/-- The keys that the schema keeps unique, as far as a completion reads them. -/
structure IsKeyed (db : QueueDatabase) : Prop where
  jobs : (db.jobs.map PendingJob.executionKey).Nodup
  files : ∀ key, ((db.filesOf key).map PendingFile.fingerprint).Nodup
  processed : ∀ taskId, ((processedOf taskId db.processed).map ProcessedFile.fingerprint).Nodup

/-- What a completion is to leave: no more rows of the task than the limit, the fingerprints of the
job among them when they are no more than the limit, the rows of other tasks, and nothing of the
job. -/
structure JobCompletes (capacity : ℕ) (job : PendingJob) (db after : QueueDatabase) : Prop where
  bounded : (processedOf job.taskId after.processed).length ≤ capacity
  keeps : (cleanFiles job.executionKey db).length ≤ capacity →
    ∀ file ∈ cleanFiles job.executionKey db, ∃ row ∈ after.processed,
      row.taskId = job.taskId ∧ row.fingerprint = file.fingerprint
  others : after.processed.filter (fun row => row.taskId != job.taskId) =
    db.processed.filter fun row => row.taskId != job.taskId
  gone : (∀ other ∈ after.jobs, other.executionKey ≠ job.executionKey) ∧
    (∀ file ∈ after.files, file.executionKey ≠ job.executionKey) ∧
    ∀ delivery ∈ after.deliveries, delivery.executionKey ≠ job.executionKey

/-- The rows that a completion adds. -/
def addedRows (job : PendingJob) (now : Bytes) (db : QueueDatabase) : List ProcessedFile :=
  ((cleanFiles job.executionKey db).filter (isFresh (processedOf job.taskId db.processed))).map
    (processedRow job now)

/-- The processed rows that a completion leaves. -/
def completedRows (capacity : ℕ) (job : PendingJob) (now : Bytes) (db : QueueDatabase) :
    List ProcessedFile :=
  trimProcessed capacity job.taskId (db.processed ++ addedRows job now db)

/-- The job of a key is the only one a completion finds. -/
theorem filter_jobIn (keyed : IsKeyed db) (hjob : job ∈ db.jobs)
    (hstage : job.stage = .reportPending) :
    db.jobs.filter (jobIn job.executionKey [.reportPending]) = [job] := by
  obtain ⟨before, later, hsplit⟩ := List.append_of_mem hjob
  have hkeys := keyed.jobs
  rw [hsplit, List.map_append, List.map_cons] at hkeys
  have hbefore : ∀ other ∈ before, other.executionKey ≠ job.executionKey := by
    intro other hother heq
    exact List.disjoint_of_nodup_append hkeys (List.mem_map_of_mem hother) (by simp [heq])
  have hlater : ∀ other ∈ later, other.executionKey ≠ job.executionKey := by
    intro other hother heq
    apply (List.nodup_cons.mp hkeys.of_append_right).1
    exact List.mem_map.mpr ⟨other, hother, heq⟩
  rw [hsplit, List.filter_append, List.filter_cons_of_pos (by simp [jobIn, hstage]),
    List.filter_eq_nil_iff.mpr fun other hother => by simp [jobIn, hbefore other hother],
    List.filter_eq_nil_iff.mpr fun other hother => by simp [jobIn, hlater other hother],
    List.nil_append]

/-- What a completion leaves. -/
theorem completeJob_eq (keyed : IsKeyed db) (hjob : job ∈ db.jobs)
    (hstage : job.stage = .reportPending) :
    completeJob store job.executionKey now db =
      .ok (({ db with processed := completedRows store.processedFingerprintCapacity job now db } :
        QueueDatabase).deleteJobs (jobIn job.executionKey [.reportPending])) := by
  have hnodup : ((cleanFiles job.executionKey db).map PendingFile.fingerprint).Nodup :=
    (keyed.files job.executionKey).sublist (List.filter_sublist.map _)
  unfold completeJob
  rw [filter_jobIn keyed hjob hstage]
  dsimp only
  rw [← cleanFiles, foldl_insertProcessed hnodup]
  rfl

/-- The rows of the task before the trim. -/
theorem processedOf_added : processedOf job.taskId (db.processed ++ addedRows job now db) =
    processedOf job.taskId db.processed ++ addedRows job now db := by
  have hown : (addedRows job now db).filter (fun row => row.taskId == job.taskId) =
      addedRows job now db := by
    apply List.filter_eq_self.mpr
    intro row hrow
    obtain ⟨file, -, rfl⟩ := List.mem_map.mp hrow
    simp [processedRow]
  rw [processedOf, List.filter_append, hown]
  rfl

/-- The rows of the task before the trim have different fingerprints. -/
theorem nodup_added (keyed : IsKeyed db) :
    ((processedOf job.taskId db.processed ++ addedRows job now db).map
      ProcessedFile.fingerprint).Nodup := by
  have hadded : (addedRows job now db).map ProcessedFile.fingerprint =
      ((cleanFiles job.executionKey db).filter
        (isFresh (processedOf job.taskId db.processed))).map PendingFile.fingerprint := by
    rw [addedRows, List.map_map]
    rfl
  rw [List.map_append, hadded]
  refine List.Nodup.append (keyed.processed job.taskId) ?_ ?_
  · exact (keyed.files job.executionKey).sublist
      ((List.filter_sublist.trans List.filter_sublist).map _)
  · intro fingerprint hold hfresh
    obtain ⟨row, hrow, rfl⟩ := List.mem_map.mp hold
    obtain ⟨file, hfile, heq⟩ := List.mem_map.mp hfresh
    have hunknown := (List.mem_filter.mp hfile).2
    rw [isFresh, Bool.not_eq_true', List.any_eq_false] at hunknown
    exact hunknown row hrow (by simp [heq])

/-- The rows of the task that a completion leaves are the newest ones. -/
theorem mem_completedRows {capacity : ℕ} {row : ProcessedFile} :
    (row ∈ completedRows capacity job now db ∧ row.taskId = job.taskId) ↔
      row ∈ newest isNewer capacity
        (processedOf job.taskId db.processed ++ addedRows job now db) := by
  rw [completedRows, mem_trimProcessed, processedOf_added]
  constructor
  · rintro ⟨⟨-, hnewest⟩, htask⟩
    exact hnewest htask
  · intro h
    have hmem := mem_of_mem_newest h
    rw [← processedOf_added, processedOf, List.mem_filter, beq_iff_eq] at hmem
    exact ⟨⟨hmem.1, fun _ => h⟩, hmem.2⟩

/-- The fingerprints of a job stay exactly when the limit leaves room for them. -/
theorem keeps_iff (keyed : IsKeyed db) {capacity : ℕ} :
    (∀ file ∈ cleanFiles job.executionKey db, ∃ row ∈ completedRows capacity job now db,
      row.taskId = job.taskId ∧ row.fingerprint = file.fingerprint) ↔
    HasRoom capacity now (processedOf job.taskId db.processed)
      (cleanFiles job.executionKey db) := by
  have hkeys : ((processedOf job.taskId db.processed ++ addedRows job now db).map
      ProcessedFile.fingerprint).Nodup := nodup_added keyed
  have hnodup := hkeys.of_map
  have hlength : (addedRows job now db).length = ((cleanFiles job.executionKey db).filter
      (isFresh (processedOf job.taskId db.processed))).length := List.length_map _
  have hempty : addedRows job now db = [] ↔ (cleanFiles job.executionKey db).filter
      (isFresh (processedOf job.taskId db.processed)) = [] := List.map_eq_nil_iff
  have hnow : ∀ row ∈ addedRows job now db, row.processedAt = now := by
    intro row hrow
    obtain ⟨file, -, rfl⟩ := List.mem_map.mp hrow
    rfl
  have hsame : ∀ {row other : ProcessedFile},
      row ∈ processedOf job.taskId db.processed ++ addedRows job now db →
      other ∈ newest isNewer capacity
        (processedOf job.taskId db.processed ++ addedRows job now db) →
      other.fingerprint = row.fingerprint → other = row := by
    intro row other hrow hother heq
    exact List.inj_on_of_nodup_map hkeys (mem_of_mem_newest hother) hrow heq
  have hleft : (∀ file ∈ cleanFiles job.executionKey db,
      ∃ row ∈ completedRows capacity job now db,
        row.taskId = job.taskId ∧ row.fingerprint = file.fingerprint) ↔
      ∀ file ∈ cleanFiles job.executionKey db, ∃ row ∈ newest isNewer capacity
        (processedOf job.taskId db.processed ++ addedRows job now db),
          row.fingerprint = file.fingerprint := by
    simp only [← mem_completedRows, and_assoc]
  rw [hleft]
  constructor
  · intro h
    constructor
    · rw [← hlength, ← hempty]
      refine (all_added_stay hnodup hnow).mp fun row hrow => ?_
      obtain ⟨file, hfile, rfl⟩ := List.mem_map.mp hrow
      obtain ⟨other, hother, heq⟩ := h file (List.mem_of_mem_filter hfile)
      exact hsame (List.mem_append_right _ hrow) hother heq ▸ hother
    · rintro before row later hsplit ⟨file, hfile, heq⟩
      obtain ⟨other, hother, hfingerprint⟩ := h file hfile
      have hrow : row ∈ processedOf job.taskId db.processed ++ addedRows job now db := by
        simp [hsplit]
      obtain rfl := hsame hrow hother (hfingerprint.trans heq)
      rw [← hlength]
      rw [hsplit] at hnodup hother
      exact (known_stays hnodup hnow).mp hother
  · intro hroom file hfile
    by_cases hfresh : isFresh (processedOf job.taskId db.processed) file = true
    · have hrow : processedRow job now file ∈ addedRows job now db :=
        List.mem_map_of_mem (List.mem_filter.mpr ⟨hfile, hfresh⟩)
      have hspace := hroom.fresh
      rw [← hlength, ← hempty] at hspace
      exact ⟨_, (all_added_stay hnodup hnow).mpr hspace _ hrow, rfl⟩
    · rw [isFresh, Bool.not_eq_true', Bool.not_eq_false, List.any_eq_true] at hfresh
      obtain ⟨row, hrow, heq⟩ := hfresh
      obtain ⟨before, later, hsplit⟩ := List.append_of_mem hrow
      have hspace := hroom.known before row later hsplit ⟨file, hfile, (beq_iff_eq.mp heq).symm⟩
      rw [← hlength] at hspace
      refine ⟨row, ?_, beq_iff_eq.mp heq⟩
      rw [hsplit] at hnodup ⊢
      exact (known_stays hnodup hnow).mpr hspace

/-- The rows of other tasks stay. -/
theorem completedRows_others (capacity : ℕ) :
    (completedRows capacity job now db).filter (fun row => row.taskId != job.taskId) =
      db.processed.filter fun row => row.taskId != job.taskId := by
  have hnone : (addedRows job now db).filter (fun row => row.taskId != job.taskId) = [] := by
    apply List.filter_eq_nil_iff.mpr
    intro row hrow
    obtain ⟨file, -, rfl⟩ := List.mem_map.mp hrow
    simp [processedRow]
  unfold completedRows trimProcessed
  dsimp only
  rw [List.filter_filter]
  have hother : ∀ row ∈ db.processed ++ addedRows job now db,
      (row.taskId != job.taskId && (row.taskId != job.taskId ||
        (newestProcessed capacity job.taskId (db.processed ++ addedRows job now db)).contains row)) =
      (row.taskId != job.taskId) := by
    intro row _
    cases row.taskId != job.taskId <;> rfl
  rw [List.filter_congr hother, List.filter_append, hnone, List.append_nil]

/-- No more rows of the task stay than the limit. -/
theorem length_completedRows (keyed : IsKeyed db) (capacity : ℕ) :
    (processedOf job.taskId (completedRows capacity job now db)).length ≤ capacity := by
  have hkept : processedOf job.taskId (completedRows capacity job now db) ⊆
      newest isNewer capacity
        (processedOf job.taskId db.processed ++ addedRows job now db) := by
    intro row hrow
    rw [processedOf, List.mem_filter, beq_iff_eq] at hrow
    exact mem_completedRows.mp hrow
  have hnodup : (processedOf job.taskId (completedRows capacity job now db)).Nodup := by
    have hadded : (processedOf job.taskId (db.processed ++ addedRows job now db)).Nodup := by
      rw [processedOf_added]
      exact (nodup_added keyed).of_map
    exact hadded.sublist (List.filter_sublist.filter _)
  have hlength := (List.subperm_of_subset hnodup hkept).length_le
  exact Nat.le_trans hlength (List.length_take_le _ _)

/-- A completion of a delivered report leaves what it is to leave exactly when the fingerprints of
the job are more than the limit of the task, or the limit leaves room for them. -/
theorem completion_keeps_iff (keyed : IsKeyed db) (hjob : job ∈ db.jobs)
    (hstage : job.stage = .reportPending) :
    ∃ after, completeJob store job.executionKey now db = .ok after ∧
      (JobCompletes store.processedFingerprintCapacity job db after ↔
        ((cleanFiles job.executionKey db).length ≤ store.processedFingerprintCapacity →
          HasRoom store.processedFingerprintCapacity now (processedOf job.taskId db.processed)
            (cleanFiles job.executionKey db))) := by
  refine ⟨_, completeJob_eq keyed hjob hstage, ?_⟩
  constructor
  · intro h hfits
    exact (keeps_iff keyed).mp (h.keeps hfits)
  · intro h
    refine ⟨length_completedRows keyed _, fun hfits => (keeps_iff keyed).mpr (h hfits),
      completedRows_others _, ?_⟩
    have hselected := filter_jobIn keyed hjob hstage
    refine ⟨fun other hother heq => ?_, fun file hfile heq => ?_, fun delivery hdelivery heq => ?_⟩
    · obtain ⟨hmem, hkept⟩ := List.mem_filter.mp hother
      obtain rfl := List.inj_on_of_nodup_map keyed.jobs hmem hjob heq
      simp [jobIn, hstage] at hkept
    · have hkept := (List.mem_filter.mp hfile).2
      simp [hselected, heq] at hkept
    · have hkept := (List.mem_filter.mp hdelivery).2
      simp [hselected, heq] at hkept

/-! ## A fingerprint that was processed before -/

/-- A delivered job. -/
def deliveredJob : PendingJob where
  executionKey := text "k"
  nodeCode := text "n"
  taskId := text "t"
  scheduledFor := text "s"
  startedAt := text "s"
  taskConfigJson := []
  stage := .reportPending
  retryFilesJson := []
  createdAt := text "s"

/-- A cleanly parsed file of the job. -/
def deliveredFile (ordinal : ℤ) (fingerprint : Bytes) : PendingFile where
  executionKey := text "k"
  ordinal := ordinal
  sourcePath := text "a"
  originalName := text "a"
  sourceMtime := text "m"
  sizeBytes := 1
  fileHash := text "h"
  fingerprint := fingerprint
  archivePath := text "p"
  parsedWithoutErrors := some true
  inputPath := text "a"

/-- A row of the task of the job. -/
def processedAtTime (fingerprint processedAt : Bytes) : ProcessedFile where
  taskId := text "t"
  fingerprint := fingerprint
  sourcePath := text "a"
  fileHash := text "h"
  processedAt := processedAt
  executionKey := text "j"

/-- A queue whose job has processed one known and one fresh fingerprint. -/
def reprocessedQueue : QueueDatabase where
  jobs := [deliveredJob]
  files := [deliveredFile 0 (text "f"), deliveredFile 1 (text "h")]
  processed := [processedAtTime (text "f") (text "1"), processedAtTime (text "g") (text "2")]

/-- A store that keeps two fingerprints of a task. -/
def twoRowStore : AgentQueueStore := ⟨text "n", 10, 2⟩

theorem isKeyed_reprocessedQueue : IsKeyed reprocessedQueue := by
  refine ⟨by decide, fun key => ?_, fun taskId => ?_⟩
  · apply List.Nodup.sublist (List.filter_sublist.map _)
    decide
  · apply List.Nodup.sublist (List.filter_sublist.map _)
    decide

theorem completion_keeps_iff_reprocessed :
    ∃ after, completeJob twoRowStore deliveredJob.executionKey (text "3") reprocessedQueue =
        .ok after ∧
      (JobCompletes 2 deliveredJob reprocessedQueue after ↔
        ((cleanFiles deliveredJob.executionKey reprocessedQueue).length ≤ 2 →
          HasRoom 2 (text "3") (processedOf deliveredJob.taskId reprocessedQueue.processed)
            (cleanFiles deliveredJob.executionKey reprocessedQueue))) :=
  completion_keeps_iff isKeyed_reprocessedQueue (List.mem_singleton.mpr rfl) rfl

/-- The fingerprint that was there is the oldest of three and goes. -/
theorem not_completion_keeps : ¬∀ (store : AgentQueueStore) (db : QueueDatabase)
    (job : PendingJob) (now : Bytes), IsKeyed db → job ∈ db.jobs → job.stage = .reportPending →
    ∀ after, completeJob store job.executionKey now db = .ok after →
      JobCompletes store.processedFingerprintCapacity job db after := by
  intro claimed
  have hjob : deliveredJob ∈ reprocessedQueue.jobs := List.mem_singleton.mpr rfl
  have hcompletes := claimed twoRowStore reprocessedQueue deliveredJob (text "3")
    isKeyed_reprocessedQueue hjob rfl _ (completeJob_eq isKeyed_reprocessedQueue hjob rfl)
  have hroom := (keeps_iff isKeyed_reprocessedQueue).mp (hcompletes.keeps (by decide))
  have hknown := hroom.known [] (processedAtTime (text "f") (text "1"))
    [processedAtTime (text "g") (text "2")] (by decide)
    ⟨deliveredFile 0 (text "f"), by decide, rfl⟩
  exact absurd hknown (by decide)

end LabBridge.Agent
