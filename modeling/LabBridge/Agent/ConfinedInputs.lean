import LabBridge.Agent.CompactJson
import LabBridge.Agent.InputPlanning
import LabBridge.Library.Fallible

/-!
# Where planned inputs are read

A path whose middle is missing is only normalized before it is checked, while the plan keeps a
form of the path that the system resolves later. So a planned file is known to lie where it was
checked only when the path it was found by resolves.
-/

namespace LabBridge.Agent

open ByteText FileTree LinkedTree Sha256 Fallible JsonText LabBridge.Core

section Definitions

variable (J : Nlohmann) (fs : FileSystem) (executor : TaskExecutor)
  (readings : CollectedItem → ClockReadings) (db : QueueDatabase) (job : RecoveredJob)

/-- An input path names a regular file, not a link, that lies below a directory. -/
def ReadsBelow (root : Path) (input content : Bytes) : Prop :=
  ∃ place lastWriteTime, fs.resolve false (pathText input) = .ok place ∧
    fs.entry place = some (.file content lastWriteTime) ∧ root <+: place

/-- The configured directory of a task. -/
def configuredRoot (task : TaskConfig) : Option PathText :=
  match J.parse task.dataSource.configJson with
  | some config =>
    match config.field? "root_path" with
    | some (.str rootText) => some (pathText rootText)
    | _ => none
  | none => none

/-- A place within an allowed local root to which the canonical form of the configured directory
leads. -/
def IsSourceRoot (task : TaskConfig) (root : Path) : Prop :=
  ∃ configured canonical allowed, configuredRoot J task = some configured ∧
    fs.weaklyCanonical configured = .ok canonical ∧ fs.resolve true canonical = .ok root ∧
    allowed ∈ executor.allowedLocalRoots ∧ isWithin (.ofPath root) allowed = true

/-- An input is read below the source root of the task. -/
def ConfinedToSource (task : TaskConfig) (row : PendingFilePlan) : Prop :=
  ∃ root content, IsSourceRoot J fs executor task root ∧
    ReadsBelow fs root (inputPathOf row) content

/-- An input is read below the archive root and has the recorded size and hash. -/
def ConfinedToArchive (target : RetryFileInput) (row : PendingFilePlan) : Prop :=
  ∃ content, ReadsBelow fs (executor.archiveStore.workDir ++ [archiveName]) (inputPathOf row)
    content ∧ target.describes content = true

/-- What has become of a retry target: a plan row, or a failure. -/
abbrev TargetOutcome := PendingFilePlan ⊕ TaskRunReportFailedFile

/-- A retry target is planned with a confined input, or it has failed. -/
def SettledTarget (target : RetryFileInput) : TargetOutcome → Prop
  | .inl row => row.sourcePath = target.sourcePath ∧ row.originalName = target.originalName ∧
      if target.isArchive = true then ConfinedToArchive fs executor target row
      else ConfinedToSource J fs executor job.task row
  | .inr failure => failure.sourcePath = target.sourcePath ∧
      failure.originalName = target.originalName

/-- The inputs of a job are confined: a directory is collected within an allowed root, and each
retry target is planned with a confined input or listed as a failure, in order. -/
def ConfinedInputs (plan : List PendingFilePlan) (failures : List TaskRunReportFailedFile) : Prop :=
  if job.retryFiles = [] then
    ∃ root, IsSourceRoot J fs executor job.task root ∧
      ∀ row ∈ plan, ∃ content, ReadsBelow fs root (inputPathOf row) content
  else
    ∃ outcomes : List TargetOutcome,
      List.Forall₂ (SettledTarget J fs executor job) job.retryFiles outcomes ∧
      plan = outcomes.filterMap Sum.getLeft? ∧ failures = outcomes.filterMap Sum.getRight?

/-- The paths of a job lead where they were checked: the collected directory lies within an
allowed root, and an archived target that is accepted has a path that resolves. -/
def PathsResolve : Prop :=
  if job.retryFiles = [] then ∃ root, IsSourceRoot J fs executor job.task root
  else ∀ target ∈ job.retryFiles, target.isArchive = true →
    validateArchiveInput fs target executor.archiveRoot = .ok () →
    isFileInFlight job.task.id (archiveFingerprint job target) db = false →
      ∃ place, fs.resolve true (pathText target.storagePath) = .ok place

end Definitions

variable {J : Nlohmann} {fs : FileSystem} {executor : TaskExecutor}
  {readings : CollectedItem → ClockReadings} {db : QueueDatabase} {job : RecoveredJob}
  {root place : Path}

/-! ## Inspected files -/

/-- A path that names a file resolves to it. -/
theorem resolve_of_file {path : PathText} {content : Bytes} {lastWriteTime : ℤ}
    (h : fs.resolve false path = .ok place)
    (hentry : fs.entry place = some (.file content lastWriteTime)) :
    fs.resolve true path = .ok place :=
  FileSystem.resolve_true_of_false h hentry rfl

/-- The text of the place of a file is read there. -/
theorem readsBelow_render {path : PathText} {content : Bytes} {lastWriteTime : ℤ}
    (h : fs.resolve false path = .ok place)
    (hentry : fs.entry place = some (.file content lastWriteTime)) (hroot : root <+: place) :
    ReadsBelow fs root place.render content := by
  have hsettled := FileSystem.settled_of_resolve (resolve_of_file h hentry)
  refine ⟨place, lastWriteTime, ?_, hentry, hroot⟩
  rw [pathText_render]
  exact FileSystem.resolve_ofPath hsettled

/-- What is inspected is a regular file under the path of its place. -/
theorem inspectItem_eq_ok {item : CollectedItem} {metadata : LocalFileMetadata}
    (h : inspectItem fs readings item = .ok metadata) :
    ∃ content lastWriteTime,
      fs.resolve false (pathText item.localPath) = .ok metadata.sourcePath ∧
        fs.entry metadata.sourcePath = some (.file content lastWriteTime) := by
  obtain ⟨file, hfile, hinspect⟩ := bind_eq_ok.mp h
  obtain ⟨content, hlink, hnode, -, rfl⟩ := inspect_eq_ok.mp hinspect
  obtain ⟨status, hstatus, hfile⟩ := bind_eq_ok.mp hfile
  obtain ⟨canonical, -, hfile⟩ := bind_eq_ok.mp hfile
  dsimp only
  cases hplace : fs.resolve false (pathText item.localPath) with
  | error error =>
    rw [hplace] at hfile
    cases hfile
    cases hnode
  | ok place =>
    have hlookup : fs.lookup false (pathText item.localPath) = .ok (fs.entry place) := by
      rw [FileSystem.lookup, hplace]
    rw [hlookup] at hstatus
    cases hstatus
    rw [hplace] at hfile
    cases hentry : fs.entry place with
    | none =>
      rw [hentry] at hfile
      cases hfile
      cases hnode
    | some entry =>
      rw [hentry] at hfile
      cases entry with
      | file content time =>
        cases hfile
        exact ⟨content, time, rfl, hentry⟩
      | directory =>
        cases hfile
        cases hnode
      | link target =>
        cases hfile
        cases hlink
      | other =>
        cases hfile
        cases hnode

/-- An inspected file that was found below a directory is planned with an input below it. -/
theorem readsBelow_inspected {item : CollectedItem} {metadata : LocalFileMetadata} {content : Bytes}
    (hitem : ReadsBelow fs root item.localPath content)
    (h : inspectItem fs readings item = .ok metadata) :
    ReadsBelow fs root metadata.sourcePath.render content := by
  obtain ⟨place, lastWriteTime, hplace, hentry, hroot⟩ := hitem
  obtain ⟨inspected, time, hresolve, hinspected⟩ := inspectItem_eq_ok h
  rw [hplace, Except.ok.injEq] at hresolve
  rw [← hresolve]
  exact readsBelow_render hplace hentry hroot

/-! ## Collected directories -/

/-- A directory entry that is collected lies below the directory. -/
theorem collectEntry_eq_ok {rootPath : PathText} {extension : Bytes} {name : Name}
    {item : CollectedItem} (hroot : fs.resolve true rootPath = .ok root)
    (h : collectEntry fs rootPath extension name = .ok (some item)) :
    ∃ content, ReadsBelow fs root item.localPath content := by
  obtain ⟨found, hfound, h⟩ := bind_eq_ok.mp h
  cases found with
  | none => cases h
  | some entry =>
    cases entry with
    | directory => cases h
    | link target => cases h
    | other => cases h
    | file content lastWriteTime =>
      dsimp only at h
      by_cases hextension : extension ≠ [] ∧ pathExtension name.val ≠ extension
      · rw [if_pos hextension] at h
        cases h
      · rw [if_neg hextension] at h
        obtain ⟨canonical, hcanonical, h⟩ := bind_eq_ok.mp h
        cases h
        obtain ⟨place, hplace, hentry⟩ := FileSystem.lookup_eq_some.mp hfound
        have hresolve := resolve_of_file hplace hentry
        rw [FileSystem.weaklyCanonical_of_resolve hresolve, Except.ok.injEq] at hcanonical
        rw [← hcanonical, render_ofPath]
        exact ⟨content, readsBelow_render hplace hentry
          (FileSystem.prefix_of_append hroot hplace hentry rfl)⟩

/-- The items that are collected lie below the place of the directory. -/
theorem collect_eq_ok {rootPath : PathText} {extension : Bytes} {items : List CollectedItem}
    (h : collect fs rootPath extension = .ok items) : ∃ root,
      fs.resolve true rootPath = .ok root ∧
        ∀ item ∈ items, ∃ content, ReadsBelow fs root item.localPath content := by
  unfold collect at h
  cases hroot : fs.resolve true rootPath with
  | error error =>
    rw [hroot] at h
    cases error <;> cases h
  | ok root =>
    rw [hroot] at h
    dsimp only at h
    split at h
    · cases h
    · split at h
      · cases h
      · rename_i entries hentries
        cases h
        refine ⟨root, rfl, ?_⟩
        intro item hitem
        obtain ⟨entry, hentry, hsome⟩ := List.mem_filterMap.mp ((List.mem_insertionSort _).mp hitem)
        obtain ⟨name, -, hname⟩ := exists_of_mem_mapM hentries hentry
        cases hsome
        exact collectEntry_eq_ok hroot hname

/-- A plan made of items below a directory reads below it. -/
theorem planCollected_confined {items : List CollectedItem} {plan plan' : List PendingFilePlan}
    {failures failures' : List TaskRunReportFailedFile}
    (hitems : ∀ item ∈ items, ∃ content, ReadsBelow fs root item.localPath content)
    (hplan : ∀ row ∈ plan, ∃ content, ReadsBelow fs root (inputPathOf row) content)
    (h : planCollected fs executor readings db job items plan failures = .ok (plan', failures')) :
    ∀ row ∈ plan', ∃ content, ReadsBelow fs root (inputPathOf row) content := by
  induction items generalizing plan failures with
  | nil =>
    cases h
    exact hplan
  | cons item rest ih =>
    obtain ⟨⟨content, hitem⟩, hrest⟩ := List.forall_mem_cons.mp hitems
    rw [planCollected] at h
    split at h
    · cases h
      exact hplan
    cases hinspect : inspectItem fs readings item with
    | error error =>
      rw [hinspect] at h
      exact ih hrest hplan h
    | ok metadata =>
      rw [hinspect] at h
      dsimp only at h
      split at h
      · exact ih hrest hplan h
      · obtain ⟨archivePath, -, h⟩ := bind_eq_ok.mp h
        apply ih hrest _ h
        intro row hrow
        rcases List.mem_append.mp hrow with hbefore | hlast
        · exact hplan row hbefore
        · rw [List.mem_singleton.mp hlast]
          exact ⟨content, readsBelow_inspected hitem hinspect⟩

/-- The directory of a task is checked in its canonical form. -/
theorem parseSourceSpec_eq_ok {task : TaskConfig} {allowedRoots : List PathText}
    {source : SourceSpec} (h : parseSourceSpec J fs task allowedRoots = .ok source) :
    ∃ configured allowed, configuredRoot J task = some configured ∧
      configured.absolute = true ∧ fs.weaklyCanonical configured = .ok source.rootPath ∧
      allowed ∈ allowedRoots ∧ isWithin source.rootPath allowed = true := by
  unfold parseSourceSpec at h
  unfold configuredRoot
  cases hconfig : J.parse task.dataSource.configJson with
  | none =>
    rw [hconfig] at h
    cases h
  | some config =>
    rw [hconfig] at h
    dsimp only at h ⊢
    split at h
    · rename_i rootText extension hroot hextension
      rw [hroot]
      split at h
      · cases h
      rename_i habsolute
      obtain ⟨rootPath, hcanonical, h⟩ := bind_eq_ok.mp h
      cases hresult : fs.weaklyCanonical (pathText rootText) with
      | error error =>
        rw [hresult] at hcanonical
        cases hcanonical
      | ok canonical =>
        rw [hresult] at hcanonical
        cases hcanonical
        split at h
        · cases h
        rename_i hallowed
        split at h
        · cases h
        cases h
        rw [Bool.not_eq_true, Bool.not_eq_false', List.any_eq_true] at hallowed
        obtain ⟨allowed, hmem, hwithin⟩ := hallowed
        exact ⟨_, allowed, rfl, Bool.of_not_eq_false habsolute, hresult, hmem, hwithin⟩
    · cases h

/-- A collected directory is confined when its path leads into an allowed root. -/
theorem planFromDirectory_confined_iff {plan : List PendingFilePlan}
    {failures : List TaskRunReportFailedFile}
    (h : planFromDirectory J fs executor readings db job = .ok (plan, failures)) :
    (∃ root, IsSourceRoot J fs executor job.task root ∧
      ∀ row ∈ plan, ∃ content, ReadsBelow fs root (inputPathOf row) content) ↔
    ∃ root, IsSourceRoot J fs executor job.task root := by
  obtain ⟨-, h⟩ := unit_bind_eq_ok.mp h
  obtain ⟨source, hsource, h⟩ := bind_eq_ok.mp h
  obtain ⟨configured, -, hconfigured, -, hcanonical, -, -⟩ := parseSourceSpec_eq_ok hsource
  split at h
  · cases h
  · rename_i items hitems
    obtain ⟨root, hroot, hbelow⟩ := collect_eq_ok hitems
    have hconfined := planCollected_confined hbelow (by simp) h
    constructor
    · rintro ⟨sourceRoot, hsourceRoot, -⟩
      exact ⟨sourceRoot, hsourceRoot⟩
    · rintro ⟨sourceRoot, hsourceRoot⟩
      refine ⟨sourceRoot, hsourceRoot, ?_⟩
      -- Both are where the canonical form of the configured directory leads.
      obtain ⟨other, canonical, allowed, hother, hresult, hresolve, -⟩ := hsourceRoot
      rw [hconfigured, Option.some.injEq] at hother
      rw [← hother, hcanonical, Except.ok.injEq] at hresult
      rw [← hresult, hroot, Except.ok.injEq] at hresolve
      rw [← hresolve]
      exact hconfined

/-! ## Retry targets -/

/-- What has become of a retry target under the checks. -/
def CheckedTarget (fs : FileSystem) (executor : TaskExecutor)
    (readings : CollectedItem → ClockReadings) (db : QueueDatabase) (job : RecoveredJob)
    (source : SourceSpec) (target : RetryFileInput) : TargetOutcome → Prop
  | .inl row => ∃ plan archivePath,
      checkTarget fs executor readings job source plan target archivePath = .ok row ∧
        isFileInFlight job.task.id row.fingerprint db = false
  | .inr failure => (∃ stage message, failure = targetFailure target stage message) ∧
      ∃ plan archivePath, ∀ row,
        checkTarget fs executor readings job source plan target archivePath = .ok row →
          isFileInFlight job.task.id row.fingerprint db = true

/-- A target that is refused or in flight has failed. -/
theorem failedTarget {source : SourceSpec} {target : RetryFileInput} {plan : List PendingFilePlan}
    {archivePath : Path} {stage message : Bytes}
    (h : ∀ row, checkTarget fs executor readings job source plan target archivePath = .ok row →
      isFileInFlight job.task.id row.fingerprint db = true) :
    CheckedTarget fs executor readings db job source target
      (.inr (targetFailure target stage message)) :=
  ⟨⟨stage, message, rfl⟩, plan, archivePath, h⟩

/-- Every retry target is planned or fails, in order. -/
theorem planTargets_eq_ok {source : SourceSpec} {targets : List RetryFileInput}
    {plan plan' : List PendingFilePlan} {failures failures' : List TaskRunReportFailedFile}
    (h : planTargets fs executor readings db job source targets plan failures =
      .ok (plan', failures')) :
    ∃ outcomes : List TargetOutcome,
      List.Forall₂ (CheckedTarget fs executor readings db job source) targets outcomes ∧
        plan' = plan ++ outcomes.filterMap Sum.getLeft? ∧
        failures' = failures ++ outcomes.filterMap Sum.getRight? := by
  induction targets generalizing plan failures with
  | nil =>
    cases h
    exact ⟨[], .nil, (List.append_nil _).symm, (List.append_nil _).symm⟩
  | cons target rest ih =>
    rw [planTargets] at h
    obtain ⟨archivePath, -, h⟩ := bind_eq_ok.mp h
    cases hcheck : checkTarget fs executor readings job source plan target archivePath with
    | error error =>
      rw [hcheck] at h
      obtain ⟨outcomes, hrest, hplan, hfailures⟩ := ih h
      have hfailed : ∀ stage message, CheckedTarget fs executor readings db job source target
          (.inr (targetFailure target stage message)) := by
        intro stage message
        apply failedTarget
        intro row hrow
        rw [hcheck] at hrow
        cases hrow
      exact ⟨_, .cons (hfailed _ _) hrest, hplan, hfailures.trans (List.append_assoc _ _ _)⟩
    | ok row =>
      rw [hcheck] at h
      dsimp only at h
      by_cases hflight : isFileInFlight job.task.id row.fingerprint db = true
      · rw [if_pos hflight] at h
        obtain ⟨outcomes, hrest, hplan, hfailures⟩ := ih h
        have hfailed : ∀ stage message, CheckedTarget fs executor readings db job source target
            (.inr (targetFailure target stage message)) := by
          intro stage message
          apply failedTarget
          intro other hother
          rw [hcheck, Except.ok.injEq] at hother
          rw [← hother]
          exact hflight
        exact ⟨_, .cons (hfailed _ _) hrest, hplan, hfailures.trans (List.append_assoc _ _ _)⟩
      · rw [if_neg hflight] at h
        obtain ⟨outcomes, hrest, hplan, hfailures⟩ := ih h
        refine ⟨.inl row :: outcomes, .cons ⟨plan, archivePath, hcheck, ?_⟩ hrest, ?_, hfailures⟩
        · exact Bool.eq_false_of_not_eq_true hflight
        · rw [hplan, List.append_assoc]
          rfl

/-- An archived input that is accepted lies within the archive root, in the canonical form of its
path, and has the recorded size and hash. -/
theorem validateArchiveInput_eq_ok {target : RetryFileInput} {archiveRoot : PathText}
    (h : validateArchiveInput fs target archiveRoot = .ok ()) :
    (∀ place entry, fs.resolve false (pathText target.storagePath) = .ok place →
      fs.entry place = some entry → entry.isLink = false) ∧
    ∃ canonical content lastWriteTime,
      fs.weaklyCanonical (pathText target.storagePath) = .ok canonical ∧
        isWithin canonical archiveRoot = true ∧
        fs.lookup true canonical = .ok (some (.file content lastWriteTime)) ∧
        target.describes content = true := by
  obtain ⟨status, hstatus, h⟩ := bind_eq_ok.mp h
  cases hlookup : fs.lookup false (pathText target.storagePath) with
  | error error =>
    rw [hlookup] at hstatus
    cases hstatus
  | ok found =>
    rw [hlookup] at hstatus
    cases hstatus
    split at h
    · cases h
    rename_i hlink
    refine ⟨?_, ?_⟩
    · intro place entry hplace hentry
      rw [FileSystem.lookup_eq_some.mpr ⟨place, hplace, hentry⟩, Except.ok.injEq] at hlookup
      rw [← hlookup] at hlink
      exact Bool.eq_false_of_not_eq_true hlink
    · obtain ⟨canonical, hcanonical, h⟩ := bind_eq_ok.mp h
      cases hresult : fs.weaklyCanonical (pathText target.storagePath) with
      | error error =>
        rw [hresult] at hcanonical
        cases hcanonical
      | ok path =>
        rw [hresult] at hcanonical
        cases hcanonical
        split at h
        · cases h
        rename_i hwithin
        obtain ⟨entry, hentry, h⟩ := bind_eq_ok.mp h
        cases hfile : fs.lookup true canonical with
        | error error =>
          rw [hfile] at hentry
          cases hentry
        | ok found =>
          rw [hfile] at hentry
          cases hentry
          split at h
          · rename_i content lastWriteTime
            split at h
            · rename_i hdescribes
              rw [Bool.not_eq_true, Bool.not_eq_false'] at hwithin
              exact ⟨_, content, lastWriteTime, rfl, hwithin, hfile, hdescribes⟩
            · cases h
          · cases h

/-- An accepted archived input has a storage path. -/
theorem storagePath_ne_nil {target : RetryFileInput}
    (h : validateArchiveInput fs target executor.archiveRoot = .ok ()) :
    target.storagePath ≠ [] := by
  intro hempty
  obtain ⟨-, canonical, content, lastWriteTime, hcanonical, hwithin, -⟩ :=
    validateArchiveInput_eq_ok h
  have hnormal : fs.weaklyCanonical (pathText []) = .ok ⟨false, []⟩ := rfl
  rw [hempty, hnormal, Except.ok.injEq] at hcanonical
  rw [← hcanonical] at hwithin
  cases hwithin

/-- An accepted archived input is confined when its storage path resolves. -/
theorem confinedToArchive {target : RetryFileInput} {row : PendingFilePlan}
    (h : validateArchiveInput fs target executor.archiveRoot = .ok ())
    (hinput : inputPathOf row = target.storagePath)
    (hresolve : fs.resolve true (pathText target.storagePath) = .ok place) :
    ConfinedToArchive fs executor target row := by
  obtain ⟨hlink, canonical, content, lastWriteTime, hcanonical, hwithin, hfile, hdescribes⟩ :=
    validateArchiveInput_eq_ok h
  rw [FileSystem.weaklyCanonical_of_resolve hresolve, Except.ok.injEq] at hcanonical
  rw [← hcanonical] at hwithin hfile
  obtain ⟨front, hfront, hprefix⟩ := FileSystem.prefix_of_isWithin rfl hwithin
  obtain ⟨found, hfound, hentry⟩ := FileSystem.lookup_eq_some.mp hfile
  rw [FileSystem.resolve_ofPath (FileSystem.settled_of_resolve hresolve),
    Except.ok.injEq] at hfound
  rw [← hfound] at hentry
  refine ⟨content, ⟨place, lastWriteTime, ?_, hentry, ?_⟩, hdescribes⟩
  · rw [hinput]
    rcases FileSystem.resolve_false_of_true hresolve with hsame | ⟨other, entry, hother, hstored, hlinked⟩
    · exact hsame
    · rw [hlink other entry hother hstored] at hlinked
      cases hlinked
  · rw [ofPath_injective hfront]
    exact hprefix

section Targets

variable {source : SourceSpec} {target : RetryFileInput} {plan : List PendingFilePlan}
  {archivePath : Path} {row : PendingFilePlan}

/-- The input of an archived target is its storage path. -/
theorem inputPathOf_archiveRow
    (h : validateArchiveInput fs target executor.archiveRoot = .ok ()) :
    inputPathOf (archiveRow job plan target archivePath) = target.storagePath := by
  unfold inputPathOf archiveRow
  dsimp only
  rw [if_neg]
  rw [List.isEmpty_iff]
  exact storagePath_ne_nil h

/-- An accepted source input is within the directory in the canonical form of its path. -/
theorem validateSourceInput_eq_ok {rootPath : PathText}
    (h : validateSourceInput fs target rootPath = .ok ()) :
    ∃ canonical, fs.weaklyCanonical (pathText target.sourcePath) = .ok canonical ∧
      isWithin canonical rootPath = true := by
  obtain ⟨status, -, h⟩ := bind_eq_ok.mp h
  split at h
  · cases h
  · obtain ⟨canonical, hcanonical, h⟩ := bind_eq_ok.mp h
    cases hresult : fs.weaklyCanonical (pathText target.sourcePath) with
    | error error =>
      rw [hresult] at hcanonical
      cases hcanonical
    | ok path =>
      rw [hresult] at hcanonical
      cases hcanonical
      split at h
      · cases h
      rename_i hwithin
      rw [Bool.not_eq_true, Bool.not_eq_false'] at hwithin
      exact ⟨_, rfl, hwithin⟩

/-- A planned source target is confined: its path resolves, so the directory above it does. -/
theorem confinedToSource
    (hsource : parseSourceSpec J fs job.task executor.allowedLocalRoots = .ok source)
    (harchive : target.isArchive ≠ true)
    (h : checkTarget fs executor readings job source plan target archivePath = .ok row) :
    ConfinedToSource J fs executor job.task row := by
  obtain ⟨hvalid, metadata, hinspect, rfl⟩ := (checkTarget_source harchive).mp h
  obtain ⟨configured, allowed, hconfigured, habsolute, hrootPath, hallowed, hwithin⟩ :=
    parseSourceSpec_eq_ok hsource
  obtain ⟨canonical, hcanonical, hbelow⟩ := validateSourceInput_eq_ok hvalid
  obtain ⟨content, lastWriteTime, hplace, hentry⟩ := inspectItem_eq_ok hinspect
  have hresolve := resolve_of_file hplace hentry
  have hsettled := FileSystem.settled_of_resolve hresolve
  rw [FileSystem.weaklyCanonical_of_resolve hresolve, Except.ok.injEq] at hcanonical
  rw [← hcanonical] at hbelow
  obtain ⟨root, hroot, hprefix⟩ := FileSystem.prefix_of_isWithin
    (FileSystem.weaklyCanonical_absolute habsolute hrootPath) hbelow
  have hsettledRoot : FileSystem.Settled fs root := by
    by_cases hsame : root = metadata.sourcePath
    · rw [hsame]
      exact hsettled
    · exact hsettled.toStands.settled_of_prefix hprefix hsame
  rw [hroot] at hrootPath hwithin
  refine ⟨root, content, ⟨configured, _, allowed, hconfigured, hrootPath,
    FileSystem.resolve_ofPath hsettledRoot, hallowed, hwithin⟩, ?_⟩
  have hinput : inputPathOf (sourceRow job plan target metadata archivePath) =
      metadata.sourcePath.render := by
    unfold inputPathOf sourceRow
    dsimp only
    rw [if_neg]
    rw [List.isEmpty_iff]
    intro hempty
    have hhead := head?_render metadata.sourcePath
    rw [hempty] at hhead
    cases hhead
  rw [hinput]
  exact readsBelow_render hplace hentry hprefix

/-- What is planned for a target is confined when the path of an archived one resolves. -/
theorem settledTarget
    (hsource : parseSourceSpec J fs job.task executor.allowedLocalRoots = .ok source)
    {outcome : TargetOutcome}
    (hresolves : target.isArchive = true →
      validateArchiveInput fs target executor.archiveRoot = .ok () →
      isFileInFlight job.task.id (archiveFingerprint job target) db = false →
        ∃ place, fs.resolve true (pathText target.storagePath) = .ok place)
    (h : CheckedTarget fs executor readings db job source target outcome) :
    SettledTarget J fs executor job target outcome := by
  cases outcome with
  | inl row =>
    obtain ⟨plan, archivePath, hcheck, hflight⟩ := h
    obtain ⟨hpath, hname⟩ := checkTarget_names hcheck
    refine ⟨hpath, hname, ?_⟩
    by_cases harchive : target.isArchive = true
    · rw [if_pos harchive]
      obtain ⟨hvalid, rfl⟩ := (checkTarget_archive harchive).mp hcheck
      obtain ⟨place, hplace⟩ := hresolves harchive hvalid hflight
      exact confinedToArchive hvalid (inputPathOf_archiveRow hvalid) hplace
    · rw [if_neg harchive]
      exact confinedToSource hsource harchive hcheck
  | inr failure =>
    obtain ⟨⟨stage, message, rfl⟩, -⟩ := h
    exact ⟨rfl, rfl⟩

/-- The input of a confined target resolves. -/
theorem resolves_of_settledTarget (h : SettledTarget J fs executor job target (.inl row)) :
    ∃ place, fs.resolve true (pathText (inputPathOf row)) = .ok place := by
  obtain ⟨-, -, h⟩ := h
  split at h
  · obtain ⟨content, ⟨place, lastWriteTime, hplace, hentry, -⟩, -⟩ := h
    exact ⟨place, resolve_of_file hplace hentry⟩
  · obtain ⟨root, content, -, place, lastWriteTime, hplace, hentry, -⟩ := h
    exact ⟨place, resolve_of_file hplace hentry⟩

end Targets

/-- The inputs of a job are confined exactly when its paths lead where they were checked. -/
theorem inputs_confined_iff {plan : List PendingFilePlan} {failures : List TaskRunReportFailedFile}
    (h : chooseInputs J fs executor readings db job = .ok (plan, failures)) :
    ConfinedInputs J fs executor job plan failures ↔ PathsResolve J fs executor db job := by
  unfold ConfinedInputs PathsResolve
  unfold chooseInputs at h
  by_cases hretry : job.retryFiles = []
  · rw [if_pos (List.isEmpty_iff.mpr hretry)] at h
    rw [if_pos hretry, if_pos hretry]
    exact planFromDirectory_confined_iff h
  · rw [if_neg (by rwa [List.isEmpty_iff])] at h
    rw [if_neg hretry, if_neg hretry]
    obtain ⟨-, h⟩ := unit_bind_eq_ok.mp h
    obtain ⟨source, hsource, h⟩ := bind_eq_ok.mp h
    obtain ⟨outcomes, hchecked, hplan, hfailures⟩ := planTargets_eq_ok h
    constructor
    · rintro ⟨settled, hsettled, hrows, -⟩ target htarget harchive hvalid hflight
      -- The target is planned, and every planned input is confined.
      obtain ⟨outcome, houtcome, hcheck⟩ := exists_right hchecked htarget
      cases outcome with
      | inr failure =>
        obtain ⟨-, before, archivePath, hfailed⟩ := hcheck
        have hflying := hfailed _ ((checkTarget_archive harchive).mpr ⟨hvalid, rfl⟩)
        have hfingerprint : (archiveRow job before target archivePath).fingerprint =
            archiveFingerprint job target := rfl
        rw [hfingerprint, hflight] at hflying
        cases hflying
      | inl row =>
        obtain ⟨before, archivePath, hrow, -⟩ := hcheck
        obtain ⟨-, rfl⟩ := (checkTarget_archive harchive).mp hrow
        have hmem : archiveRow job before target archivePath ∈ plan := by
          rw [hplan]
          exact List.mem_filterMap.mpr ⟨_, houtcome, rfl⟩
        rw [hrows] at hmem
        obtain ⟨found, hfound, hleft⟩ := List.mem_filterMap.mp hmem
        cases found with
        | inr failure => cases hleft
        | inl row =>
          have hrow : row = archiveRow job before target archivePath := Option.some.inj hleft
          obtain ⟨other, -, hother⟩ := exists_left hsettled hfound
          obtain ⟨place, hplace⟩ := resolves_of_settledTarget hother
          rw [hrow, inputPathOf_archiveRow hvalid] at hplace
          exact ⟨place, hplace⟩
    · intro hresolves
      have hboth := (List.forall₂_and_left job.retryFiles outcomes).mpr ⟨hresolves, hchecked⟩
      refine ⟨outcomes, hboth.imp ?_, hplan, hfailures⟩
      rintro target outcome ⟨htarget, hcheck⟩
      exact settledTarget hsource htarget hcheck

/-! ## A link behind a missing directory -/

/-- The name of a text that is one. -/
def nameAt (value : String) (h : IsName (text value) := by decide) : Name := ⟨text value, h⟩

/-- An allowed directory with a link to a directory outside. -/
def linkedFiles : FileSystem := .ofEntries
  [([nameAt "allowed"], .directory), ([nameAt "allowed", nameAt "link"], .link (text "/private")),
    ([nameAt "private"], .directory), ([nameAt "private", nameAt "f.csv"], .file [] 0)]

/-- A directory that does not exist and leads back to the link in its normal form. -/
def linkedConfig : Json := .obj [(text "extension", .str (text ".csv")),
  (text "root_path", .str (text "/allowed/none/../link"))]

def linkedTask : TaskConfig :=
  { id := text "7", nodeCode := text "n", dataSourceId := text "3", name := text "import"
    taskType := text "local_file_import", scheduleExpr := text "* * * * *"
    parserType := text "csv_observation", qcProfile := [], enabled := true
    dataSource := ⟨text "3", text "n", .localDirectory, text "d",
      (compactNlohmann.dump linkedConfig).getD []⟩
    qcRules := [] }

def linkedJob : RecoveredJob where
  executionKey := text "k"
  task := linkedTask
  startRequest := ⟨text "n", text "7", text "k", [], [], []⟩
  stage := some .collecting
  taskRunId := text "9"
  files := []
  manifestRequest := {}
  reportRequest := {}
  retryFiles := []
  hasFileFailures := false
  fileFailures := []

/-- An executor that may read one directory. -/
def linkedExecutor : TaskExecutor where
  archiveStore := ⟨[nameAt "work"]⟩
  allowedLocalRoots := [.ofPath [nameAt "allowed"]]
  maxFilesPerRun := 10

/-- Clocks that stand still. -/
def stoppedClocks : CollectedItem → ClockReadings := fun _ => ⟨0, 0⟩

/-- The directory is checked under the path of the link. -/
theorem weaklyCanonical_linked :
    linkedFiles.weaklyCanonical (pathText (text "/allowed/none/../link")) =
      .ok (.ofPath [nameAt "allowed", nameAt "link"]) := rfl

/-- What is collected lies behind the link. -/
theorem collect_linked : collect linkedFiles (.ofPath [nameAt "allowed", nameAt "link"])
    (text ".csv") = .ok [⟨text "/private/f.csv", text "f.csv"⟩] := rfl

/-- The file behind the link is planned. -/
theorem chooseInputs_linked : ∃ row,
    chooseInputs compactNlohmann linkedFiles linkedExecutor stoppedClocks {} linkedJob =
      .ok ([row], []) ∧ inputPathOf row = text "/private/f.csv" := by
  have hvalid : validateExecutionTypes linkedTask = .ok () := rfl
  have hsource : parseSourceSpec compactNlohmann linkedFiles linkedTask
      linkedExecutor.allowedLocalRoots =
        .ok ⟨.ofPath [nameAt "allowed", nameAt "link"], text ".csv"⟩ := rfl
  have hfile : sourceFile linkedFiles (text "/private/f.csv") =
      .ok ⟨[nameAt "private", nameAt "f.csv"], false, some (.file []), 0⟩ := rfl
  obtain ⟨metadata, hmetadata, hpath, hname⟩ : ∃ metadata, inspectItem linkedFiles stoppedClocks
      ⟨text "/private/f.csv", text "f.csv"⟩ = .ok metadata ∧
        metadata.sourcePath = [nameAt "private", nameAt "f.csv"] ∧
        metadata.originalName = text "f.csv" :=
    ⟨_, bind_eq_ok.mpr ⟨_, hfile, inspect_eq_ok.mpr ⟨[], rfl, rfl, by decide, rfl⟩⟩, rfl, rfl⟩
  obtain ⟨archivePath, harchive⟩ : ∃ archivePath,
      nextArchivePath linkedExecutor linkedJob [] (text "f.csv") = .ok archivePath := ⟨_, rfl⟩
  refine ⟨collectedRow linkedJob [] metadata archivePath, ?_, ?_⟩
  · have hempty : linkedJob.retryFiles.isEmpty = true := rfl
    rw [chooseInputs, if_pos hempty]
    refine unit_bind_eq_ok.mpr ⟨hvalid, bind_eq_ok.mpr ⟨_, hsource, ?_⟩⟩
    dsimp only
    rw [collect_linked]
    dsimp only
    rw [planCollected, if_neg (by decide), hmetadata]
    dsimp only
    rw [if_neg (by simp [isFileOccupied, isFileInFlight])]
    rw [hname]
    exact bind_eq_ok.mpr ⟨archivePath, harchive, rfl⟩
  · have hinput : inputPathOf (collectedRow linkedJob [] metadata archivePath) =
        metadata.sourcePath.render := rfl
    rw [hinput, hpath]
    rfl

/-- The link leads out of the allowed directory. -/
theorem not_isSourceRoot_linked (root : Path) :
    ¬IsSourceRoot compactNlohmann linkedFiles linkedExecutor linkedTask root := by
  rintro ⟨configured, canonical, allowed, hconfigured, hcanonical, hroot, hallowed, hwithin⟩
  have hpath : configuredRoot compactNlohmann linkedTask =
      some (pathText (text "/allowed/none/../link")) := rfl
  rw [hpath, Option.some.injEq] at hconfigured
  rw [← hconfigured, weaklyCanonical_linked, Except.ok.injEq] at hcanonical
  have hleads : linkedFiles.resolve true (.ofPath [nameAt "allowed", nameAt "link"]) =
      .ok [nameAt "private"] := rfl
  rw [← hcanonical, hleads, Except.ok.injEq] at hroot
  rw [List.mem_singleton.mp hallowed, ← hroot] at hwithin
  exact absurd hwithin (by decide)

/-- The archive of an agent with one file. -/
def retriedFiles : FileSystem := .ofEntries
  [([nameAt "allowed"], .directory), ([nameAt "work"], .directory),
    ([nameAt "work", archiveName], .directory),
    ([nameAt "work", archiveName, nameAt "f.csv"], .file [] 0)]

/-- The archived file. -/
def archivedTarget : RetryFileInput :=
  { inputType := text "archive", sourcePath := text "/in/f.csv", originalName := text "f.csv"
    archiveRawFileId := text "4", storagePath := text "/work/archive/f.csv"
    fileHash := sha256Hex [] }

/-- A file outside the directory of the task. -/
def strayTarget : RetryFileInput :=
  { inputType := text "source", sourcePath := text "/in/g.csv", originalName := text "g.csv" }

/-- A retry of the archived file and of one that may not be read. -/
def retriedJob : RecoveredJob := { linkedJob with retryFiles := [archivedTarget, strayTarget] }

/-- The archived file is planned, the other one fails. -/
theorem chooseInputs_retried : ∃ row failure,
    chooseInputs compactNlohmann retriedFiles linkedExecutor stoppedClocks {} retriedJob =
      .ok ([row], [failure]) := by
  have hvalid : validateExecutionTypes linkedTask = .ok () := rfl
  have hsource : parseSourceSpec compactNlohmann retriedFiles linkedTask
      linkedExecutor.allowedLocalRoots =
        .ok ⟨.ofPath [nameAt "allowed", nameAt "link"], text ".csv"⟩ := rfl
  have hplace : pathResult (retriedFiles.weaklyCanonical (pathText archivedTarget.storagePath)) =
      .ok (.ofPath [nameAt "work", archiveName, nameAt "f.csv"]) := rfl
  have hstatus : pathResult (retriedFiles.lookup false (pathText archivedTarget.storagePath)) =
      .ok (some (.file [] 0)) := rfl
  have hentry : pathResult (retriedFiles.lookup true
      (.ofPath [nameAt "work", archiveName, nameAt "f.csv"])) = .ok (some (.file [] 0)) := rfl
  have hdescribed : archivedTarget.describes [] = true := by
    simp [RetryFileInput.describes, archivedTarget]
  have harchived : validateArchiveInput retriedFiles archivedTarget linkedExecutor.archiveRoot =
      .ok () := by
    refine bind_eq_ok.mpr ⟨_, hstatus, ?_⟩
    rw [if_neg (by decide)]
    refine bind_eq_ok.mpr ⟨_, hplace, ?_⟩
    rw [if_neg (by decide)]
    refine bind_eq_ok.mpr ⟨_, hentry, ?_⟩
    dsimp only
    rw [if_pos hdescribed]
    rfl
  obtain ⟨error, hstray⟩ : ∃ error, validateSourceInput retriedFiles strayTarget
      (.ofPath [nameAt "allowed", nameAt "link"]) = .error error := ⟨_, rfl⟩
  obtain ⟨first, hfirst⟩ : ∃ path, nextArchivePath linkedExecutor retriedJob []
      archivedTarget.originalName = .ok path := ⟨_, rfl⟩
  obtain ⟨second, hsecond⟩ : ∃ path, nextArchivePath linkedExecutor retriedJob
      [archiveRow retriedJob [] archivedTarget first] strayTarget.originalName = .ok path :=
    ⟨_, rfl⟩
  have hrow : checkTarget retriedFiles linkedExecutor stoppedClocks retriedJob
      ⟨.ofPath [nameAt "allowed", nameAt "link"], text ".csv"⟩ [] archivedTarget first =
        .ok (archiveRow retriedJob [] archivedTarget first) :=
    (checkTarget_archive (by decide)).mpr ⟨harchived, rfl⟩
  have hfailure : checkTarget retriedFiles linkedExecutor stoppedClocks retriedJob
      ⟨.ofPath [nameAt "allowed", nameAt "link"], text ".csv"⟩
      [archiveRow retriedJob [] archivedTarget first] strayTarget second = .error error := by
    rw [checkTarget, if_neg (by decide), hstray]
    rfl
  refine ⟨archiveRow retriedJob [] archivedTarget first,
    targetFailure strayTarget (text "read") error.what, ?_⟩
  have hretry : retriedJob.retryFiles.isEmpty ≠ true := by decide
  rw [chooseInputs, if_neg hretry]
  refine unit_bind_eq_ok.mpr ⟨hvalid, bind_eq_ok.mpr ⟨_, hsource, ?_⟩⟩
  refine bind_eq_ok.mpr ⟨first, hfirst, ?_⟩
  rw [hrow]
  dsimp only
  rw [if_neg (by simp [isFileInFlight])]
  refine bind_eq_ok.mpr ⟨second, hsecond, ?_⟩
  rw [List.nil_append, hfailure]
  rfl

theorem inputs_confined_iff_linked :
    (∃ row, chooseInputs compactNlohmann linkedFiles linkedExecutor stoppedClocks {} linkedJob =
        .ok ([row], []) ∧
      (ConfinedInputs compactNlohmann linkedFiles linkedExecutor linkedJob [row] [] ↔
        PathsResolve compactNlohmann linkedFiles linkedExecutor {} linkedJob)) ∧
    ∃ row failure, chooseInputs compactNlohmann retriedFiles linkedExecutor stoppedClocks {}
        retriedJob = .ok ([row], [failure]) ∧
      ConfinedInputs compactNlohmann retriedFiles linkedExecutor retriedJob [row] [failure] := by
  obtain ⟨row, h, -⟩ := chooseInputs_linked
  obtain ⟨planned, failure, hretried⟩ := chooseInputs_retried
  refine ⟨⟨row, h, inputs_confined_iff h⟩, planned, failure, hretried,
    (inputs_confined_iff hretried).mpr ?_⟩
  rw [PathsResolve, if_neg (by simp [retriedJob])]
  intro target htarget harchive _ _
  rcases List.mem_pair.mp htarget with rfl | rfl
  · exact ⟨[nameAt "work", archiveName, nameAt "f.csv"], rfl⟩
  · exact absurd harchive (by decide)

/-- A file outside the allowed directory is planned. -/
theorem not_inputs_confined : ∃ row,
    chooseInputs compactNlohmann linkedFiles linkedExecutor stoppedClocks {} linkedJob =
      .ok ([row], []) ∧ inputPathOf row = text "/private/f.csv" ∧
    ¬ConfinedInputs compactNlohmann linkedFiles linkedExecutor linkedJob [row] [] := by
  obtain ⟨row, h, hinput⟩ := chooseInputs_linked
  refine ⟨row, h, hinput, ?_⟩
  rintro ⟨root, hroot, -⟩
  exact not_isSourceRoot_linked root hroot

end LabBridge.Agent
