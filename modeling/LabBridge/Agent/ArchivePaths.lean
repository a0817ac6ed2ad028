import LabBridge.Agent.LocalArchiveStore
import LabBridge.Agent.QueueSteps
import Mathlib.Data.List.Nodup
import Mathlib.Data.List.TakeWhile

/-!
# Planned archive paths

A planned path lies in the directory of its run, names its file by the ordinal, and is read back
as it was planned. So the files of one plan have different paths, and an entry of the manifest
finds exactly the row it was made from.
-/

namespace LabBridge.Agent

open ByteText FileTree Fallible LabBridge.Core

/-! ## Reading a planned path back -/

/-- A digit neither is white space nor a sign. -/
theorem isDigit_plain {b : UInt8} (h : IsDigit b) :
    isSpaceByte b = false ∧ b ≠ byte '-' ∧ b ≠ byte '+' := by
  refine ⟨?_, ?_, ?_⟩
  · have hlow := UInt8.le_iff_toNat_le.mp h.1
    have hblank : b ≠ 32 := by
      rintro rfl
      exact absurd h.1 (by decide)
    have hhigh : ¬b ≤ 13 := by
      rw [UInt8.le_iff_toNat_le]
      exact Nat.not_le.mpr (Nat.lt_of_lt_of_le (by decide) hlow)
    simp [isSpaceByte, hblank, hhigh]
  · rintro rfl
    exact absurd h.1 (by decide)
  · rintro rfl
    exact absurd h.1 (by decide)

/-- A numeral is read back by `stoull`. -/
theorem stoull_decimal (ordinal : UInt64) : stoull (decimal ordinal.toNat) = .ok ordinal := by
  have hdigits : ∀ b ∈ decimal ordinal.toNat, IsDigit b := fun b => isDigit_of_mem_decimal
  obtain ⟨first, rest, hdecimal⟩ := List.exists_cons_of_ne_nil (decimal_ne_nil ordinal.toNat)
  have hfirst := isDigit_plain (hdigits first (by simp [hdecimal]))
  have hsigned : (decimal ordinal.toNat).dropWhile isSpaceByte = decimal ordinal.toNat := by
    rw [hdecimal, List.dropWhile_cons_of_neg (by simp [hfirst.1])]
  have hminus : (decimal ordinal.toNat).head? ≠ some (byte '-') := by
    simpa [hdecimal] using hfirst.2.1
  have hplus : (decimal ordinal.toNat).head? ≠ some (byte '+') := by
    simpa [hdecimal] using hfirst.2.2
  have htaken : (decimal ordinal.toNat).takeWhile (fun b => decide (IsDigit b)) =
      decimal ordinal.toNat := by
    apply List.takeWhile_eq_self_iff.mpr
    intro b hb
    exact decide_eq_true (hdigits b hb)
  have hbound : ¬2 ^ 64 ≤ numeralValue (decimal ordinal.toNat) := by
    rw [numeralValue_decimal]
    have hlt := ordinal.toNat_lt
    omega
  unfold stoull
  dsimp only
  rw [hsigned, if_neg (not_or.mpr ⟨hminus, hplus⟩), htaken, if_neg (decimal_ne_nil _),
    if_neg hbound, if_neg hminus, numeralValue_decimal, UInt64.ofNat_toNat]

/-- What stands before the first dash of an archived name is its ordinal. -/
theorem takeWhile_archiveFilename (ordinal : UInt64) (originalName : Bytes) :
    (archiveFilename ordinal originalName).takeWhile (fun b => b != byte '-') =
      decimal ordinal.toNat := by
  have hdigits : ∀ b ∈ decimal ordinal.toNat, (b != byte '-') = true := by
    intro b hb
    simpa using (isDigit_plain (isDigit_of_mem_decimal hb)).2.1
  have hdash : text "-" = [byte '-'] := rfl
  rw [archiveFilename, List.append_assoc, List.takeWhile_append_of_pos hdigits, hdash,
    List.singleton_append, List.takeWhile_cons_of_neg (by simp), List.append_nil]

theorem dash_mem_archiveFilename (ordinal : UInt64) (originalName : Bytes) :
    byte '-' ∈ archiveFilename ordinal originalName :=
  List.mem_append_left _ (List.mem_append_right _ (List.mem_singleton.mpr rfl))

section Plans

variable {store : LocalArchiveStore} {taskId taskRunId originalName : Bytes} {ordinal : UInt64}
  {path : Path}

/-- When a path is planned, and which one. -/
theorem planArchivePath_eq_ok :
    store.planArchivePath taskId taskRunId ordinal originalName = .ok path ↔
      ordinal ≠ 0 ∧ ∃ task run : Name, task.val = taskId ∧ run.val = taskRunId ∧
        isSafeSegment taskId = true ∧ isSafeSegment taskRunId = true ∧
        path = store.workDir ++ [archiveName, task, run] ++ [archiveFile ordinal originalName] := by
  unfold LocalArchiveStore.planArchivePath
  split
  · rename_i h
    rw [Except.ok.injEq]
    constructor
    · rintro rfl
      exact ⟨h.2.2, ⟨taskId, isName_of_isSafeSegment h.1⟩, ⟨taskRunId, isName_of_isSafeSegment h.2.1⟩,
        rfl, rfl, h.1, h.2.1, by simp⟩
    · rintro ⟨-, task, run, rfl, rfl, -, -, rfl⟩
      simp
  · rename_i h
    constructor
    · intro hplanned
      cases hplanned
    · rintro ⟨hordinal, task, run, -, -, htask, hrun, -⟩
      exact absurd ⟨htask, hrun, hordinal⟩ h

/-- A planned path is read back as it was planned. -/
theorem readArchivePath_of_planned
    (h : store.planArchivePath taskId taskRunId ordinal originalName = .ok path) :
    readArchivePath path = .ok (taskId, taskRunId, ordinal) := by
  obtain ⟨-, task, run, rfl, rfl, -, -, rfl⟩ := planArchivePath_eq_ok.mp h
  have hparent : store.workDir ++ [archiveName, task, run] =
      store.workDir ++ [archiveName] ++ [task] ++ [run] := by simp
  unfold readArchivePath
  rw [filename_append, parent_append, hparent, filename_append, parent_append, filename_append]
  dsimp only [archiveFile]
  rw [if_pos (dash_mem_archiveFilename _ _), takeWhile_archiveFilename, stoull_decimal]
  rfl

/-- Plans of different tasks, runs or ordinals have different texts. -/
theorem planned_injective {otherTask otherRun otherName : Bytes} {otherOrdinal : UInt64}
    {otherPath : Path} (h : store.planArchivePath taskId taskRunId ordinal originalName = .ok path)
    (hother : store.planArchivePath otherTask otherRun otherOrdinal otherName = .ok otherPath)
    (hrender : path.render = otherPath.render) :
    taskId = otherTask ∧ taskRunId = otherRun ∧ ordinal = otherOrdinal := by
  have hpath := render_injective hrender
  subst hpath
  have hread := readArchivePath_of_planned h
  rw [readArchivePath_of_planned hother, Except.ok.injEq, Prod.mk.injEq, Prod.mk.injEq] at hread
  exact ⟨hread.1.symm, hread.2.1.symm, hread.2.2.symm⟩

end Plans

/-- A path lies strictly under the directory of a run, and none of its parts leads elsewhere. -/
structure LiesIn (store : LocalArchiveStore) (taskId taskRunId : Bytes) (path : Path) : Prop where
  below : ∃ file : Bytes, path.map Subtype.val =
      store.workDir.map Subtype.val ++ [text "archive", taskId, taskRunId, file] ∧
    path.render = (store.workDir.flatMap fun name => byte '/' :: name.val) ++
      text "/archive/" ++ taskId ++ text "/" ++ taskRunId ++ text "/" ++ file
  plain : ∀ part ∈ path.map Subtype.val,
    part ≠ [] ∧ part ≠ text "." ∧ part ≠ text ".." ∧ byte '/' ∉ part

/-- A planned path lies in the directory of its run. -/
theorem liesIn_of_planned {store : LocalArchiveStore} {taskId taskRunId originalName : Bytes}
    {ordinal : UInt64} {path : Path}
    (h : store.planArchivePath taskId taskRunId ordinal originalName = .ok path) :
    LiesIn store taskId taskRunId path := by
  obtain ⟨-, task, run, rfl, rfl, -, -, rfl⟩ := planArchivePath_eq_ok.mp h
  constructor
  · refine ⟨archiveFilename ordinal originalName, ?_, ?_⟩
    · simp [archiveName, archiveFile]
    · have hslash : text "/" = [byte '/'] := rfl
      have harchive : text "/archive/" = byte '/' :: archiveName.val ++ [byte '/'] := rfl
      rw [render_append, hslash, harchive]
      simp [archiveFile]
  · intro part hpart
    obtain ⟨name, -, rfl⟩ := List.mem_map.mp hpart
    exact ⟨name.property.1, name.property.2.2.2.1, name.property.2.2.2.2, name.property.2.1⟩

/-! ## The files of a plan -/

/-- Every file of a plan has a path under the ordinal of its place, and ordinals did not wrap. -/
def IsPlan (store : LocalArchiveStore) (taskId taskRunId : Bytes) (plan : List PendingFilePlan) :
    Prop :=
  plan.length < 2 ^ 64 ∧ ∀ place file, plan[place]? = some file → ∃ path,
    store.planArchivePath taskId taskRunId (UInt64.ofNat (place + 1)) file.originalName = .ok path ∧
      file.archivePath = path.render

section FilesOfPlans

variable {J : Nlohmann} {store : LocalArchiveStore} {taskId taskRunId key : Bytes}
  {plan : List PendingFilePlan} {db saved : QueueDatabase}

/-- The empty plan. -/
theorem isPlan_nil : IsPlan store taskId taskRunId [] := ⟨by simp, by simp⟩

/-- One more file under the next path keeps the plan. -/
theorem IsPlan.append {file : PendingFilePlan} {path : Path}
    (h : IsPlan store taskId taskRunId plan)
    (hpath : store.planArchivePath taskId taskRunId (UInt64.ofNat (plan.length + 1))
      file.originalName = .ok path) (hrender : file.archivePath = path.render) :
    IsPlan store taskId taskRunId (plan ++ [file]) := by
  have hordinal := (planArchivePath_eq_ok.mp hpath).1
  have hlength := h.1
  have hwrap : plan.length + 1 ≠ 2 ^ 64 := by
    intro heq
    rw [heq] at hordinal
    exact hordinal rfl
  constructor
  · rw [List.length_append, List.length_singleton]
    omega
  · intro place other hother
    by_cases hplace : place < plan.length
    · rw [List.getElem?_append_left hplace] at hother
      exact h.2 place other hother
    · rw [List.getElem?_append_right (Nat.not_lt.mp hplace)] at hother
      have heq : place = plan.length := by
        have hshort := (List.getElem?_eq_some_iff.mp hother).1
        rw [List.length_singleton] at hshort
        omega
      subst heq
      rw [Nat.sub_self, List.getElem?_cons_zero, Option.some.injEq] at hother
      subst hother
      exact ⟨path, hpath, hrender⟩

/-- The files of a plan have different paths. -/
theorem IsPlan.nodup (h : IsPlan store taskId taskRunId plan) :
    (plan.map PendingFilePlan.archivePath).Nodup := by
  rw [List.Nodup, List.pairwise_iff_getElem]
  intro first second hfirst hsecond hlt heq
  rw [List.length_map] at hfirst hsecond
  rw [List.getElem_map, List.getElem_map] at heq
  obtain ⟨path, hpath, hrender⟩ := h.2 first _ (List.getElem?_eq_getElem hfirst)
  obtain ⟨other, hother, hotherRender⟩ := h.2 second _ (List.getElem?_eq_getElem hsecond)
  rw [hrender, hotherRender] at heq
  have hordinal := congrArg UInt64.toNat (planned_injective hpath hother heq).2.2
  have hlength := h.1
  rw [UInt64.toNat_ofNat', UInt64.toNat_ofNat', Nat.mod_eq_of_lt (by omega),
    Nat.mod_eq_of_lt (by omega)] at hordinal
  omega

/-- A file is inserted behind the others when its place and its fingerprint are free. -/
theorem insertFile_eq_ok {file : PendingFile} : db.insertFile file = .ok saved ↔
    ¬((db.job? file.executionKey).isNone = true ∨ file.sizeBytes < 0 ∨
      ((db.filesOf file.executionKey).any fun other =>
        other.ordinal == file.ordinal || other.fingerprint == file.fingerprint) = true) ∧
      { db with files := db.files ++ [file] } = saved := by
  unfold QueueDatabase.insertFile
  split
  · rename_i htaken
    constructor
    · intro h
      cases h
    · rintro ⟨hfree, -⟩
      exact absurd htaken hfree
  · rename_i hfree
    rw [Except.ok.injEq]
    exact ⟨fun h => ⟨hfree, h⟩, fun h => h.2⟩

/-- Inserted files stand behind the others, and nothing else changes. -/
theorem insertFiles_eq_ok
    (h : plan.foldlM (fun db file => db.insertFile (file.row key)) db = .ok saved) :
    { db with files := db.files ++ plan.map (PendingFilePlan.row key) } = saved := by
  induction plan generalizing db with
  | nil =>
    cases h
    rw [List.map_nil, List.append_nil]
  | cons file rest ih =>
    rw [List.foldlM_cons, bind_eq_ok] at h
    obtain ⟨next, hnext, hrest⟩ := h
    obtain ⟨-, rfl⟩ := insertFile_eq_ok.mp hnext
    rw [← ih hrest, List.map_cons, List.append_assoc]
    rfl

/-- What a saved plan is made of. -/
theorem saveFilePlan_eq_ok {failures : List TaskRunReportFailedFile} :
    saveFilePlan J key plan failures db = .ok saved ↔ ∃ failuresJson planned,
      encodeFileFailures J failures = .ok failuresJson ∧
      plan.foldlM (fun db file => db.insertFile (file.row key)) db = .ok planned ∧
      planned.updateJob (jobOf key) (fun job => { job with fileFailuresJson := some failuresJson })
        (queueError "file plan requires a pending job") = .ok saved := by
  simp only [saveFilePlan, bind_eq_ok]
  constructor
  · rintro ⟨failuresJson, hfailures, planned, hplanned, h⟩
    exact ⟨failuresJson, planned, hfailures, hplanned, h⟩
  · rintro ⟨failuresJson, planned, hfailures, hplanned, h⟩
    exact ⟨failuresJson, hfailures, planned, hplanned, h⟩

/-- A saved plan adds its rows behind the others. -/
theorem files_saveFilePlan {failures : List TaskRunReportFailedFile}
    (h : saveFilePlan J key plan failures db = .ok saved) :
    saved.files = db.files ++ plan.map (PendingFilePlan.row key) := by
  obtain ⟨failuresJson, planned, -, hplanned, h⟩ := saveFilePlan_eq_ok.mp h
  obtain ⟨-, rfl⟩ := updateJob_eq_ok.mp h
  rw [← insertFiles_eq_ok hplanned]
  rfl

/-- A saved plan adds its rows behind those of the job. -/
theorem filesOf_saveFilePlan {failures : List TaskRunReportFailedFile}
    (h : saveFilePlan J key plan failures db = .ok saved) :
    saved.filesOf key = db.filesOf key ++ plan.map (PendingFilePlan.row key) := by
  unfold QueueDatabase.filesOf
  rw [files_saveFilePlan h, List.filter_append]
  congr 1
  apply List.filter_eq_self.mpr
  intro file hfile
  obtain ⟨planned, -, rfl⟩ := List.mem_map.mp hfile
  exact beq_self_eq_true key

/-- A manifest entry finds as many rows as the plan has files under its path. -/
theorem countP_fileUnder (path : Bytes) : db.files.countP (fileUnder key path) =
    ((db.filesOf key).map PendingFile.archivePath).count path := by
  rw [List.count_eq_countP, List.countP_map, QueueDatabase.filesOf, List.countP_filter]
  apply List.countP_congr
  intro file _
  simp [fileUnder, Bool.and_comm]

/-- Every row of a plan is the only one under the path its manifest entry has. -/
theorem countP_of_isPlan {later : QueueDatabase} (h : IsPlan store taskId taskRunId plan)
    (hrows : ((later.filesOf key).map PendingFile.archivePath).Perm
      (plan.map PendingFilePlan.archivePath))
    {file : PendingFile} (hfile : file ∈ later.filesOf key) :
    later.files.countP (fileUnder key (readText file.archivePath)) = 1 := by
  have hmem : file.archivePath ∈ (later.filesOf key).map PendingFile.archivePath :=
    List.mem_map_of_mem hfile
  have hplain : readText file.archivePath = file.archivePath := by
    obtain ⟨planned, hplanned, hpath⟩ := List.mem_map.mp (hrows.mem_iff.mp hmem)
    obtain ⟨place, hplace⟩ := List.mem_iff_getElem?.mp hplanned
    obtain ⟨path, -, hrender⟩ := h.2 place planned hplace
    rw [← hpath, hrender]
    exact readText_of_notMem (zero_notMem_render path)
  rw [hplain, countP_fileUnder]
  apply List.count_eq_one_of_mem _ hmem
  exact hrows.nodup_iff.mpr h.nodup

end FilesOfPlans

end LabBridge.Agent
