import LabBridge.Agent.ArchiveCopies

/-!
# Recovered archives

A recovery confirms the file under the persisted path, or archives it again where the store itself
would plan it. The two places are the same as long as the work directory and the name that was
read back are those of the plan.
-/

namespace LabBridge.Agent

open ByteText FileTree Sha256 Interaction Program

variable {store writer : LocalArchiveStore} {source : LocalFileMetadata}
  {process reached : Process} {inputPath archivePath destination : Path}
  {taskId taskRunId plannedName : Bytes} {ordinal : UInt64}

/-- The evidence of a planned file: a regular file with exactly the recorded size and hash. -/
def HoldsEvidence (source : LocalFileMetadata) (node : Option Node) : Prop :=
  ∃ content, node = some (.file content) ∧ (content.length : ℤ) = source.sizeBytes ∧
    sha256Hex content = source.fileHash

/-- A recorded size: it is not negative and fits its column. -/
def LocalFileMetadata.IsSized (source : LocalFileMetadata) : Prop :=
  0 ≤ source.sizeBytes ∧ source.sizeBytes < 2 ^ 63

/-- A content passes the check exactly when it has the recorded size and hash. -/
theorem describes_iff (hsized : source.IsSized) {content : Bytes} :
    source.describes content = true ↔
      (content.length : ℤ) = source.sizeBytes ∧ sha256Hex content = source.fileHash := by
  have hcast : (source.sizeBytes % 2 ^ 64).toNat = source.sizeBytes.toNat := by
    rw [Int.emod_eq_of_lt hsized.1 (by have := hsized.2; omega)]
  have hnonneg := hsized.1
  unfold LocalFileMetadata.describes
  rw [hcast, Bool.and_eq_true, beq_iff_eq, beq_iff_eq]
  constructor
  · rintro ⟨hlength, hhash⟩
    exact ⟨by omega, hhash⟩
  · rintro ⟨hlength, hhash⟩
    exact ⟨by omega, hhash⟩

/-- A recovery of a path that is taken answers exactly when the system takes the path and the file
is as recorded, and leaves it. -/
theorem run_recoverArchive_of_taken {node : Node} (h : process.tree archivePath = some node)
    {value : LocalFileMetadata × Path} :
    (store.recoverArchive source archivePath inputPath).run fileHandler process =
        (.ok value, reached) ↔
      archivePath.fits = true ∧ value = (source, archivePath) ∧ reached = process ∧
        ∃ content, node = .file content ∧ source.describes content = true := by
  unfold LocalArchiveStore.recoverArchive
  by_cases hfits : archivePath.fits = true
  swap
  · rw [requireFits_of_not hfits, stop_bind, run_stop]
    simp [hfits]
  rw [requireFits_of_fits hfits, ret_bind, perform_bind, run_lookup, h]
  rcases node with content | _ | _
  · dsimp only
    by_cases hdescribed : source.describes content = true
    · rw [if_pos hdescribed, perform_bind, run_sync, run_bind, run_syncDirectoryChain]
      constructor
      · intro hvalue
        cases hvalue
        exact ⟨hfits, rfl, rfl, content, rfl, hdescribed⟩
      · rintro ⟨-, rfl, rfl, -⟩
        rfl
    · rw [if_neg hdescribed]
      constructor
      · intro hvalue
        cases hvalue
      · rintro ⟨-, -, -, other, hother, hyes⟩
        cases hother
        exact absurd hyes hdescribed
  · simp
  · simp

/-- A recovery of a free planned path archives the file where the store plans it. -/
theorem run_recoverArchive_of_free (hfits : archivePath.fits = true)
    (h : process.tree archivePath = none)
    (hplanned : writer.planArchivePath taskId taskRunId ordinal plannedName = .ok archivePath) :
    (store.recoverArchive source archivePath inputPath).run fileHandler process =
      (store.archive taskId taskRunId ordinal source inputPath).run fileHandler process := by
  unfold LocalArchiveStore.recoverArchive
  rw [requireFits_of_fits hfits, ret_bind, perform_bind, run_lookup, h]
  dsimp only
  rw [readArchivePath_of_planned hplanned]

/-- A recovery that answers was given a path that fits. -/
theorem fits_of_recovered {value : LocalFileMetadata × Path}
    (h : (store.recoverArchive source archivePath inputPath).run fileHandler process =
      (.ok value, reached)) : archivePath.fits = true := by
  unfold LocalArchiveStore.recoverArchive at h
  obtain ⟨⟨⟩, started, hstarted, -⟩ := (run_bind_ok fileHandler).mp h
  exact (run_requireFits_eq_ok.mp hstarted).1

/-- Two stores plan the same path exactly in the same work directory and under names that are
sanitized alike. -/
theorem planned_eq_iff {originalName : Bytes}
    (hplanned : writer.planArchivePath taskId taskRunId ordinal plannedName = .ok archivePath)
    (hown : store.planArchivePath taskId taskRunId ordinal originalName = .ok destination) :
    destination = archivePath ↔ store.workDir = writer.workDir ∧
      sanitizedFilename originalName = sanitizedFilename plannedName := by
  obtain ⟨-, task, run, htask, hrun, -, -, rfl⟩ := planArchivePath_eq_ok.mp hplanned
  obtain ⟨-, task', run', htask', hrun', -, -, rfl⟩ := planArchivePath_eq_ok.mp hown
  obtain rfl : task' = task := Subtype.ext (htask'.trans htask.symm)
  obtain rfl : run' = run := Subtype.ext (hrun'.trans hrun.symm)
  constructor
  · intro h
    obtain ⟨hdirectories, hfiles⟩ := List.append_inj' h rfl
    refine ⟨(List.append_left_inj _).mp hdirectories, ?_⟩
    have hnames := congrArg Subtype.val (List.singleton_inj.mp hfiles)
    exact List.append_cancel_left hnames
  · rintro ⟨hdirectories, hnames⟩
    have hfiles : archiveFile ordinal originalName = archiveFile ordinal plannedName := by
      apply Subtype.ext
      exact congrArg (decimal ordinal.toNat ++ text "-" ++ ·) hnames
    rw [hdirectories, hfiles]

/-- A recovery that archives elsewhere leaves no file under the persisted path. -/
theorem recovered_elsewhere
    (hplanned : writer.planArchivePath taskId taskRunId ordinal plannedName = .ok archivePath)
    (hown : store.planArchivePath taskId taskRunId ordinal source.originalName = .ok destination)
    (hfits : archivePath.fits = true) (hfree : process.tree archivePath = none) (hne : destination ≠ archivePath)
    (hcan : CanArchive source inputPath destination process) :
    ∃ reached, (store.recoverArchive source archivePath inputPath).run fileHandler process =
        (.ok (source, destination), reached) ∧
      ¬HoldsEvidence source (reached.tree archivePath) := by
  obtain ⟨reached, hrun⟩ := run_archive_of_canArchive hown hcan
  refine ⟨reached, (run_recoverArchive_of_free hfits hfree hplanned).trans hrun, ?_⟩
  rintro ⟨content, hcontent, -⟩
  have harchived := (archived_of_run hown hrun).2
  by_cases hbetween : Between [] destination.parent archivePath
  · rw [harchived.directories _ hbetween] at hcontent
    cases hcontent
  · rw [harchived.others _ hne.symm hbetween, hfree] at hcontent
    cases hcontent

/-- Whenever a recovery of a planned file answers, the recorded evidence is under its persisted
path: this holds exactly when something stands there already, or the store would plan that very
path, or the file cannot be archived again, or the system does not take the persisted path. -/
theorem recovery_holds_evidence_iff (hsized : source.IsSized)
    (hplanned : writer.planArchivePath taskId taskRunId ordinal plannedName = .ok archivePath)
    (hown : store.planArchivePath taskId taskRunId ordinal source.originalName = .ok destination) :
    (∀ value reached, (store.recoverArchive source archivePath inputPath).run fileHandler process =
        (.ok value, reached) → HoldsEvidence source (reached.tree archivePath)) ↔
      process.tree archivePath ≠ none ∨
        (store.workDir = writer.workDir ∧
          sanitizedFilename source.originalName = sanitizedFilename plannedName) ∨
        ¬CanArchive source inputPath destination process ∨ archivePath.fits = false := by
  rw [← planned_eq_iff hplanned hown]
  constructor
  · intro h
    by_contra hfails
    push Not at hfails
    obtain ⟨hfree, hne, hcan, hlong⟩ := hfails
    have hfits : archivePath.fits = true := Bool.not_eq_false _ ▸ hlong
    obtain ⟨reached, hrun, hmissing⟩ := recovered_elsewhere hplanned hown hfits hfree hne hcan
    exact hmissing (h _ reached hrun)
  · intro h value reached hrun
    have hfits := fits_of_recovered hrun
    by_cases hfree : process.tree archivePath = none
    · rw [run_recoverArchive_of_free hfits hfree hplanned] at hrun
      obtain ⟨hcan, harchived⟩ := archived_of_run hown hrun
      rcases h with htaken | rfl | hcannot | hlong
      · exact absurd hfree htaken
      · obtain ⟨content, hcontent, hdescribed⟩ := harchived.file
        exact ⟨content, hcontent, (describes_iff hsized).mp hdescribed⟩
      · exact absurd hcan hcannot
      · rw [hfits] at hlong
        cases hlong
    · obtain ⟨node, hnode⟩ := Option.ne_none_iff_exists'.mp hfree
      obtain ⟨-, -, rfl, content, rfl, hdescribed⟩ := (run_recoverArchive_of_taken hnode).mp hrun
      exact ⟨content, hnode, (describes_iff hsized).mp hdescribed⟩

/-! ## A work directory that was moved -/

/-- The store of a work directory. -/
def storeAt (name : Name) : LocalArchiveStore := ⟨[name]⟩

/-- The work directory before the restart. -/
def oldName : Name := ⟨text "old", by decide⟩

/-- The work directory after the restart. -/
def newName : Name := ⟨text "new", by decide⟩

/-- An empty file as it was inspected. -/
def emptySource : LocalFileMetadata where
  sourcePath := [archiveName]
  originalName := text "a"
  fileHash := sha256Hex []
  sizeBytes := 0
  sourceMtime := []
  fingerprint := []

/-- A tree with nothing but the empty file. -/
def emptyFileProcess : Process where
  tree := Function.update (fun _ => none) [archiveName] (some (.file []))

/-- Where the first file of the run `r` of the task `t` is archived. -/
def firstPath (name : Name) : Path :=
  [name, archiveName, ⟨text "t", by decide⟩, ⟨text "r", by decide⟩, archiveFile 1 (text "a")]

theorem planned_firstPath (name : Name) :
    (storeAt name).planArchivePath (text "t") (text "r") 1 (text "a") = .ok (firstPath name) := by
  rfl

theorem isSized_emptySource : emptySource.IsSized := by
  constructor <;> decide

theorem canArchive_emptyFile : CanArchive emptySource [archiveName] (firstPath newName)
    emptyFileProcess := by
  refine ⟨?_, by decide, by decide, by decide, [], by decide, ?_⟩
  · intro path hbetween
    have hother : path ≠ [archiveName] := by
      rintro rfl
      obtain ⟨initial, -, hprefix, heq⟩ := hbetween
      rw [List.nil_append] at heq
      subst heq
      exact absurd (List.cons_prefix_cons.mp hprefix).1 (by decide)
    left
    exact Function.update_of_ne hother _ (fun _ => none)
  · exact (describes_iff isSized_emptySource).mpr ⟨rfl, rfl⟩

theorem recovery_holds_evidence_iff_moved :
    emptySource.IsSized ∧
      ((∀ value reached, ((storeAt newName).recoverArchive emptySource (firstPath oldName)
          [archiveName]).run fileHandler emptyFileProcess = (.ok value, reached) →
            HoldsEvidence emptySource (reached.tree (firstPath oldName))) ↔
        emptyFileProcess.tree (firstPath oldName) ≠ none ∨
          ((storeAt newName).workDir = (storeAt oldName).workDir ∧
            sanitizedFilename emptySource.originalName = sanitizedFilename (text "a")) ∨
          ¬CanArchive emptySource [archiveName] (firstPath newName) emptyFileProcess ∨
          (firstPath oldName).fits = false) :=
  ⟨isSized_emptySource, recovery_holds_evidence_iff isSized_emptySource
    (planned_firstPath oldName) (planned_firstPath newName)⟩

/-- After a restart in another work directory the evidence is missing where the manifest names
it. -/
theorem not_recovery_holds_evidence : ¬∀ (store writer : LocalArchiveStore)
    (source : LocalFileMetadata) (process : Process) (archivePath inputPath : Path)
    (taskId taskRunId : Bytes) (ordinal : UInt64), source.IsSized →
    writer.planArchivePath taskId taskRunId ordinal source.originalName = .ok archivePath →
    ∀ value reached, (store.recoverArchive source archivePath inputPath).run fileHandler process =
      (.ok value, reached) → HoldsEvidence source (reached.tree archivePath) := by
  intro claimed
  have hown : (storeAt newName).planArchivePath (text "t") (text "r") 1
      emptySource.originalName = .ok (firstPath newName) := planned_firstPath newName
  obtain ⟨reached, hrun, hmissing⟩ := recovered_elsewhere (planned_firstPath oldName) hown
    (by decide) (by decide) (by decide) canArchive_emptyFile
  exact hmissing (claimed (storeAt newName) (storeAt oldName) emptySource emptyFileProcess
    (firstPath oldName) [archiveName] (text "t") (text "r") 1 isSized_emptySource
    (planned_firstPath oldName) _ reached hrun)

end LabBridge.Agent
