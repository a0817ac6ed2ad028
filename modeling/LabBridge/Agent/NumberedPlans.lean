import LabBridge.Agent.CompactJson
import LabBridge.Agent.InputPlanning
import LabBridge.Agent.PlanRows

/-!
# The numbers of a plan

Whatever is skipped, refused or left out while inputs are chosen, the files of a plan are numbered
by their places in it, and each has an archive path of its own.
-/

namespace LabBridge.Agent

open ByteText JsonText FileTree LinkedTree Fallible LabBridge.Core

variable {J : Nlohmann} {executor : TaskExecutor} {db : QueueDatabase} {job : RecoveredJob}

/-- A plan that was made file by file: a path under the number of every place, and its ordinal as
a machine number. -/
structure IsPlanned (executor : TaskExecutor) (job : RecoveredJob) (plan : List PendingFilePlan) :
    Prop where
  paths : IsPlan executor.archiveStore job.task.id job.taskRunId plan
  ordinals : plan.map PendingFilePlan.ordinal =
    (List.range plan.length).map fun place : ℕ => (place : ℤ).bmod (2 ^ 32)

theorem isPlanned_nil : IsPlanned executor job [] where
  paths := isPlan_nil
  ordinals := by simp

/-- One more row under the next ordinal and archive path keeps the plan. -/
theorem IsPlanned.append {plan : List PendingFilePlan} {row : PendingFilePlan} {path : Path}
    (h : IsPlanned executor job plan) (hordinal : row.ordinal = planOrdinal plan)
    (hrender : row.archivePath = path.render)
    (hpath : nextArchivePath executor job plan row.originalName = .ok path) :
    IsPlanned executor job (plan ++ [row]) := by
  refine ⟨h.paths.append hpath hrender, ?_⟩
  have hlast : row.ordinal = (plan.length : ℤ).bmod (2 ^ 32) := by
    rw [hordinal]
    unfold planOrdinal
    rfl
  rw [List.map_append, List.map_singleton, List.length_append, List.length_singleton,
    List.range_succ, List.map_append, List.map_singleton, h.ordinals, hlast]

/-- A plan whose ordinals fit is aligned. -/
theorem IsPlanned.aligned {plan : List PendingFilePlan} (h : IsPlanned executor job plan)
    (hlength : plan.length ≤ 2 ^ 31) : AlignedPlan plan := by
  constructor
  · rw [h.ordinals]
    apply List.map_congr_left
    intro place hplace
    rw [List.mem_range] at hplace
    apply Int.bmod_eq_of_le <;> omega
  · exact h.paths.nodup
  · intro file hfile
    obtain ⟨place, hplace⟩ := List.mem_iff_getElem?.mp hfile
    obtain ⟨path, -, hpath⟩ := h.paths.2 place file hplace
    rw [hpath]
    exact zero_notMem_render path

section Choosing

variable {fs : FileSystem} {readings : CollectedItem → ClockReadings}
  {plan plan' : List PendingFilePlan} {failures failures' : List TaskRunReportFailedFile}

/-- Collected files are planned file by file, up to the limit of a run. -/
theorem planCollected_isPlanned {items : List CollectedItem} (hplan : IsPlanned executor job plan)
    (hlimit : plan.length ≤ executor.maxFilesPerRun)
    (h : planCollected fs executor readings db job items plan failures = .ok (plan', failures')) :
    IsPlanned executor job plan' ∧ plan'.length ≤ executor.maxFilesPerRun := by
  induction items generalizing plan failures with
  | nil =>
    cases h
    exact ⟨hplan, hlimit⟩
  | cons item rest ih =>
    rw [planCollected] at h
    split at h
    · cases h
      exact ⟨hplan, hlimit⟩
    rename_i hroom
    cases hinspect : inspectItem fs readings item with
    | error error =>
      rw [hinspect] at h
      exact ih hplan hlimit h
    | ok metadata =>
      rw [hinspect] at h
      dsimp only at h
      split at h
      · exact ih hplan hlimit h
      · obtain ⟨archivePath, hnext, h⟩ := bind_eq_ok.mp h
        apply ih _ _ h
        · apply hplan.append _ _ hnext
          · simp only [collectedRow]
          · simp only [collectedRow]
        · rw [List.length_append, List.length_singleton]
          omega

/-- Retry targets are planned file by file. -/
theorem planTargets_isPlanned {source : SourceSpec} {targets : List RetryFileInput}
    (hplan : IsPlanned executor job plan)
    (h : planTargets fs executor readings db job source targets plan failures =
      .ok (plan', failures')) :
    IsPlanned executor job plan' ∧ plan'.length ≤ plan.length + targets.length := by
  induction targets generalizing plan failures with
  | nil =>
    cases h
    exact ⟨hplan, Nat.le_refl _⟩
  | cons target rest ih =>
    rw [planTargets] at h
    obtain ⟨archivePath, hnext, h⟩ := bind_eq_ok.mp h
    have hskip : ∀ {failed}, planTargets fs executor readings db job source rest plan failed =
        .ok (plan', failures') →
          IsPlanned executor job plan' ∧ plan'.length ≤ plan.length + (target :: rest).length := by
      intro failed hrest
      obtain ⟨hplanned, hlength⟩ := ih hplan hrest
      exact ⟨hplanned, Nat.le_succ_of_le hlength⟩
    cases hcheck : checkTarget fs executor readings job source plan target archivePath with
    | error error =>
      rw [hcheck] at h
      exact hskip h
    | ok row =>
      rw [hcheck] at h
      dsimp only at h
      split at h
      · exact hskip h
      · obtain ⟨hordinal, hpath⟩ := checkTarget_place hcheck
        rw [← (checkTarget_names hcheck).2] at hnext
        obtain ⟨hplanned, hlength⟩ := ih (hplan.append hordinal hpath hnext) h
        refine ⟨hplanned, ?_⟩
        rw [List.length_append, List.length_singleton] at hlength
        rw [List.length_cons]
        omega

/-- What is chosen for a job is planned file by file, no further than a run goes or than its
inputs last. -/
theorem isPlanned_chooseInputs
    (h : chooseInputs J fs executor readings db job = .ok (plan, failures)) :
    IsPlanned executor job plan ∧
      plan.length ≤ max executor.maxFilesPerRun job.retryFiles.length := by
  unfold chooseInputs planFromDirectory planFromRetryTargets at h
  split at h
  · rw [unit_bind_eq_ok, bind_eq_ok] at h
    obtain ⟨-, source, -, h⟩ := h
    split at h
    · cases h
    · obtain ⟨hplanned, hlength⟩ :=
        planCollected_isPlanned isPlanned_nil (Nat.zero_le executor.maxFilesPerRun) h
      exact ⟨hplanned, hlength.trans (Nat.le_max_left _ _)⟩
  · rw [unit_bind_eq_ok, bind_eq_ok] at h
    obtain ⟨-, source, -, h⟩ := h
    obtain ⟨hplanned, hlength⟩ := planTargets_isPlanned isPlanned_nil h
    rw [List.length_nil, Nat.zero_add] at hlength
    exact ⟨hplanned, hlength.trans (Nat.le_max_right _ _)⟩

/-- What is chosen for a job is an aligned plan, when a run and the inputs of a retry can be
numbered. -/
theorem aligned_chooseInputs (hlimit : executor.maxFilesPerRun ≤ 2 ^ 31)
    (hinputs : job.retryFiles.length ≤ 2 ^ 31)
    (h : chooseInputs J fs executor readings db job = .ok (plan, failures)) :
    AlignedPlan plan := by
  obtain ⟨hplanned, hlength⟩ := isPlanned_chooseInputs h
  exact hplanned.aligned (hlength.trans (Nat.max_le.mpr ⟨hlimit, hinputs⟩))

end Choosing

/-- Planned archive paths are confined to the directory of their run and read back as they were
planned, plans of different tasks, runs or ordinals never share one, and so the manifest entry of
every file that was chosen for a job finds exactly its row. -/
theorem archive_paths_confined (J : Nlohmann) (store : LocalArchiveStore) :
    (∀ taskId taskRunId ordinal originalName path,
      store.planArchivePath taskId taskRunId ordinal originalName = .ok path →
        LiesIn store taskId taskRunId path ∧
        (parsePath (readText path.render)).map readArchivePath =
          some (.ok (taskId, taskRunId, ordinal))) ∧
    (∀ taskId taskRunId ordinal originalName path otherTask otherRun otherOrdinal otherName
        otherPath, store.planArchivePath taskId taskRunId ordinal originalName = .ok path →
      store.planArchivePath otherTask otherRun otherOrdinal otherName = .ok otherPath →
      (taskId, taskRunId, ordinal) ≠ (otherTask, otherRun, otherOrdinal) →
        path.render ≠ otherPath.render) ∧
    (∀ fs executor readings queue job plan failures key db saved (later : QueueDatabase),
      executor.archiveStore = store →
      chooseInputs J fs executor readings queue job = .ok (plan, failures) →
      db.filesOf key = [] → saveFilePlan J key plan failures db = .ok saved →
      ((later.filesOf key).map PendingFile.archivePath).Perm
        ((saved.filesOf key).map PendingFile.archivePath) →
      ∀ file ∈ later.filesOf key,
        later.files.countP (fileUnder key (readText file.archivePath)) = 1) := by
  refine ⟨?_, ?_, ?_⟩
  · intro taskId taskRunId ordinal originalName path h
    refine ⟨liesIn_of_planned h, ?_⟩
    rw [readText_of_notMem (zero_notMem_render path), parsePath_render, Option.map_some,
      readArchivePath_of_planned h]
  · intro taskId taskRunId ordinal originalName path otherTask otherRun otherOrdinal otherName
      otherPath h hother hne hrender
    obtain ⟨rfl, rfl, rfl⟩ := planned_injective h hother hrender
    exact hne rfl
  · intro fs executor readings queue job plan failures key db saved later _ hchosen hnone hsaved
      hlater file
    apply countP_of_isPlan (isPlanned_chooseInputs hchosen).1.paths
    rw [filesOf_saveFilePlan hsaved, hnone, List.nil_append, List.map_map] at hlater
    exact hlater

/-! ## A directory with three files -/

/-- A directory into which files are dropped. -/
def dropDirectory : Path := [⟨text "drop", by decide⟩]

/-- A task that imports what was dropped. -/
def dropTask : TaskConfig where
  id := text "7"
  nodeCode := text "n"
  dataSourceId := text "3"
  name := text "import"
  taskType := text "local_file_import"
  scheduleExpr := text "* * * * *"
  parserType := text "csv_observation"
  qcProfile := text "q"
  enabled := true
  dataSource := ⟨text "3", text "n", .localDirectory, text "d",
    text "\x7b\"extension\":\".csv\",\"root_path\":\"/drop\"\x7d"⟩
  qcRules := []

def dropExecutor : TaskExecutor where
  archiveStore := ⟨[⟨text "agent", by decide⟩]⟩
  allowedLocalRoots := [.ofPath dropDirectory]
  maxFilesPerRun := 10

/-- Three files were dropped. -/
def dropFiles : FileSystem := .ofEntries [(dropDirectory, .directory),
  (dropDirectory ++ [⟨text "a.csv", by decide⟩], .file [] 0),
  (dropDirectory ++ [⟨text "b.csv", by decide⟩], .file [] 0),
  (dropDirectory ++ [⟨text "c.csv", by decide⟩], .file [] 0)]

/-- One of them was dropped alone. -/
def loneFile : FileSystem := .ofEntries [(dropDirectory, .directory),
  (dropDirectory ++ [⟨text "b.csv", by decide⟩], .file [] 0)]

/-- The job of a run of the task. -/
def dropJob : RecoveredJob where
  executionKey := text "k"
  task := dropTask
  startRequest := ⟨text "n", text "7", text "k", text "s", text "s", text "scheduled"⟩
  stage := some .collecting
  taskRunId := text "r"
  files := []
  manifestRequest := {}
  reportRequest := {}
  retryFiles := []
  hasFileFailures := false
  fileFailures := []

/-- The job as it is stored, without a plan. -/
def plainJob : PendingJob where
  executionKey := text "k"
  nodeCode := text "n"
  taskId := text "7"
  scheduledFor := text "s"
  startedAt := text "s"
  taskConfigJson := []
  retryFilesJson := []
  createdAt := text "s"

/-- What is chosen of the dropped files. -/
def dropChosen : Chosen :=
  ((chooseInputs compactNlohmann dropFiles dropExecutor (fun _ => ⟨0, 0⟩) { jobs := [plainJob] }
    dropJob).toOption).getD ([], [])

/-- The queue of the job with the plan. -/
def dropQueue : QueueDatabase :=
  ((saveFilePlan compactNlohmann (text "k") dropChosen.1 dropChosen.2
    { jobs := [plainJob] }).toOption).getD {}

theorem archive_paths_confined_dropped :
    (dropQueue.filesOf (text "k")).length = 3 ∧ ∀ file ∈ dropQueue.filesOf (text "k"),
      dropQueue.files.countP (fileUnder (text "k") (readText file.archivePath)) = 1 := by
  constructor
  · decide +kernel
  · apply (archive_paths_confined compactNlohmann dropExecutor.archiveStore).2.2 dropFiles
      dropExecutor (fun _ => ⟨0, 0⟩) { jobs := [plainJob] } dropJob dropChosen.1 dropChosen.2
      (text "k") { jobs := [plainJob] } dropQueue dropQueue rfl
    · refine (eq_ok_getD (by decide +kernel)).trans (congrArg Except.ok (rfl : _ = dropChosen))
    · rfl
    · exact eq_ok_getD (by decide +kernel)
    · exact List.Perm.refl _

end LabBridge.Agent
