import LabBridge.Agent.NumberedPlans
import LabBridge.Agent.PlanFrames
import LabBridge.Agent.ReliableJobs

/-!
# What the run of a job keeps

The run of a job asks for operations on that job alone, and saves a report only with the outcomes
of the plan as it stands in the queue: the job was loaded after the last change of its rows. The
contract of a run is proved stage by stage.
-/

namespace LabBridge.Agent

open ByteText JsonText Fallible Interaction Interaction.Program LabBridge.Core

/-- How the outcome of a planned file is found. The report of a failed collection counts no file;
any other was drafted from the files of the plan, and the archived copy of each was parsed. -/
inductive Judged (J : Nlohmann) (content : Bytes → Option Bytes) (files : List PendingFilePlan) :
    TaskRunReportRequest → (PendingFilePlan → Bool) → Prop
  | collectionFailed (job : RecoveredJob) (finishedAt error : Bytes) (h : job.files = files) :
      Judged J content files (collectionFailureReport job finishedAt error) fun _ => false
  | drafted (job : RecoveredJob) (finishedAt : Bytes) (draft : ReportDraft)
      (h : job.files = files) (hdraft : draftReport J content job = .ok draft) :
      Judged J content files (reportOf job finishedAt draft) (parsedCleanly J content)

/-- A report is saved with the outcome of every planned file in the order of the plan. -/
def QueueOperation.ReportsPlan (J : Nlohmann) (content : Bytes → Option Bytes)
    (db : QueueDatabase) : QueueOperation → Prop
  | .saveReport key request outcomes => ∃ verdict,
    Judged J content (recoverFilePlan db key) request verdict ∧
      outcomes = (recoverFilePlan db key).map verdict
  | _ => True

/-- A job as it is loaded: under its key, with the plan that stands in the queue. -/
structure Shows (key : Bytes) (db : QueueDatabase) (job : RecoveredJob) : Prop where
  named : job.executionKey = key
  files : job.files = recoverFilePlan db key
  inputs : job.retryFiles.length ≤ 2 ^ 31

/-- A job shows its plan while its files stay as they are. -/
theorem Shows.of_files {key : Bytes} {before after : QueueDatabase} {job : RecoveredJob}
    (h : Shows key before job) (hfiles : after.filesOf key = before.filesOf key) :
    Shows key after job where
  named := h.named
  files := by
    rw [h.files]
    unfold recoverFilePlan
    rw [hfiles]
  inputs := h.inputs

/-- What is read of a job shows it. -/
theorem shows_readRecoveredJob {J : Nlohmann} {db : QueueDatabase} {row : PendingJob}
    {start : PendingDelivery} {job : RecoveredJob} (h : Orderly J db) (hrow : row ∈ db.jobs)
    (hread : readRecoveredJob J db row start = .ok job) : Shows row.executionKey db job := by
  have hnumbered := h.numbered row.identity (List.mem_map_of_mem hrow)
  have hplain : readText row.executionKey = row.executionKey := readText_of_notMem hnumbered.plain
  simp only [readRecoveredJob, bind_eq_ok, pure_eq_ok] at hread
  obtain ⟨task, -, startRequest, -, manifestRequest, -, reportRequest, -, retryFiles, hretry,
    fileFailures, -, rfl⟩ := hread
  constructor
  · exact hplain
  · dsimp only
    rw [hplain]
  · exact hnumbered.inputs retryFiles hretry

/-- A loaded job shows its plan. -/
theorem shows_loadJob {J : Nlohmann} {db : QueueDatabase} {key : Bytes} {job : RecoveredJob}
    (h : Orderly J db) (hload : loadJob J db key = .ok job) : Shows key db job := by
  unfold loadJob at hload
  split at hload
  · rename_i row start hrow hstart
    split at hload
    · cases hload
    · obtain ⟨hmem, hkey⟩ := mem_of_job? hrow
      have hshows := shows_readRecoveredJob h hmem hload
      rw [hkey] at hshows
      exact hshows
  · cases hload

/-- The run of one job: what it works with, and the queue it began with. -/
structure JobRun where
  J : Nlohmann
  store : AgentQueueStore
  executor : TaskExecutor
  client : ReliableDeliveryClient
  around : Surroundings
  key : Bytes
  before : QueueDatabase
  limited : executor.maxFilesPerRun ≤ 2 ^ 31

namespace JobRun

variable (run : JobRun)

/-- The queue during the run: in order, with the plans of the other jobs as they were. -/
structure Alone (now : QueueDatabase) : Prop where
  orderly : Orderly run.J now
  others : ∀ other, other ≠ run.key → now.filesOf other = run.before.filesOf other

/-- What the run may ask for. -/
structure Permitted {β : Type} (call : QueueCall β) (db : QueueDatabase) : Prop where
  alone : run.Alone db
  orders : ∀ operation, call.operation? = some operation → operation.Orders
  own : ∀ operation, call.operation? = some operation → operation.executionKey? = some run.key
  reports : ∀ operation, call.operation? = some operation →
    operation.ReportsPlan run.J run.around.content db

/-- The queue as the run uses it. -/
abbrev handler : Handler QueueCall AgentError QueueDatabase :=
  queueHandler run.J run.store run.executor run.client

/-- A part of the run asks for what is permitted and ends with a good value. -/
def Keeps {α : Type} (good : α → QueueDatabase → Prop) (program : JobProgram α)
    (db : QueueDatabase) : Prop :=
  program.Meets run.handler (fun _ => run.Permitted)
    (fun result reached => run.Alone reached ∧ ∀ value, result = .ok value → good value reached) db

variable {run} {α β : Type} {good : α → QueueDatabase → Prop} {db : QueueDatabase}

/-! ## Rules -/

theorem keeps_ret {value : α} (halone : run.Alone db) (hgood : good value db) :
    run.Keeps good (.ret value) db := by
  refine ⟨halone, ?_⟩
  intro other heq
  cases heq
  exact hgood

theorem keeps_stop {error : AgentError} (halone : run.Alone db) :
    run.Keeps good (.stop error) db := by
  refine ⟨halone, ?_⟩
  intro value heq
  cases heq

/-- A part goes on where the one before it ended. -/
theorem Keeps.bind {program : JobProgram α} {next : α → JobProgram β}
    {final : β → QueueDatabase → Prop} (h : run.Keeps good program db)
    (hnext : ∀ value reached, run.Alone reached → good value reached →
      run.Keeps final (next value) reached) : run.Keeps final (program >>= next) db := by
  apply Meets.bind h
  · intro value reached hmiddle
    exact hnext value reached hmiddle.1 (hmiddle.2 value rfl)
  · intro error reached hmiddle
    refine ⟨hmiddle.1, ?_⟩
    intro value heq
    cases heq

/-- The value of a part may be wrapped. -/
theorem Keeps.map {program : JobProgram α} {wrap : α → β} {final : β → QueueDatabase → Prop}
    (h : run.Keeps good program db)
    (hgood : ∀ value reached, good value reached → final (wrap value) reached) :
    run.Keeps final (wrap <$> program) db := by
  apply Keeps.bind h
  intro value reached halone hvalue
  exact keeps_ret halone (hgood value reached hvalue)

/-- What a part ends with may be forgotten. -/
theorem Keeps.ends {program : JobProgram α} (h : run.Keeps good program db) :
    run.Keeps (fun _ _ => True) program db :=
  h.mono (fun _ _ _ hpermitted => hpermitted) fun _ _ hend => ⟨hend.1, fun _ _ => trivial⟩

/-- What stands in for a part goes on where the part has failed. -/
theorem Keeps.rescue {program : JobProgram α} {instead : AgentError → JobProgram α}
    (h : run.Keeps good program db)
    (hinstead : ∀ error reached, run.Alone reached → run.Keeps good (instead error) reached) :
    run.Keeps good (program.rescue instead) db := by
  apply Meets.rescue _ h
  · exact fun _ _ hmiddle => hmiddle
  · exact fun error reached hmiddle => hinstead error reached hmiddle.1
  · exact fun _ call state => ⟨_, _, rfl⟩

theorem keeps_raised {result : Except AgentError α} (halone : run.Alone db)
    (hgood : ∀ value, result = .ok value → good value db) : run.Keeps good (raised result) db := by
  cases result with
  | error error => exact keeps_stop halone
  | ok value => exact keeps_ret halone (hgood value rfl)

/-- A call is permitted where it is asked for, and its answer is good where it leads. -/
theorem keeps_must {call : QueueCall (Except AgentError α)} (hpermitted : run.Permitted call db)
    (halone : run.Alone (answerCall run.J run.store run.executor run.client call db).2)
    (hgood : ∀ value, (answerCall run.J run.store run.executor run.client call db).1 = .ok value →
      good value (answerCall run.J run.store run.executor run.client call db).2) :
    run.Keeps good (must call) db := by
  apply meets_call_ok rfl hpermitted
  exact keeps_raised halone hgood

/-- A call that does not write is permitted. -/
theorem Alone.permitted {call : QueueCall β} (halone : run.Alone db)
    (hcall : call.operation? = none) : run.Permitted call db := by
  constructor
  · exact halone
  all_goals
    intro operation hoperation
    rw [hcall] at hoperation
    cases hoperation

/-- An operation on the job of the run leaves the others alone. -/
theorem Alone.write {operation : QueueOperation} {next : QueueDatabase} (halone : run.Alone db)
    (horders : operation.Orders) (hown : operation.executionKey? = some run.key)
    (h : operation.run run.J run.store db = .ok next) : run.Alone next where
  orderly := halone.orderly.run horders h
  others := by
    intro other hother
    rw [filesOf_run_of_ne h, halone.others other hother]
    intro key hkey
    rw [hown, Option.some.injEq] at hkey
    rw [← hkey]
    exact hother

/-- What leaves all files as they are leaves the others alone. -/
theorem Alone.leaves {next : QueueDatabase} (halone : run.Alone db) (h : LeavesFiles db next) :
    run.Alone next where
  orderly := halone.orderly.edits h.edits
  others := by
    intro other hother
    rw [h.filesOf, halone.others other hother]

/-- An operation on the job of the run. -/
theorem keeps_write (operation : QueueOperation) (halone : run.Alone db)
    (horders : operation.Orders) (hown : operation.executionKey? = some run.key)
    (hreports : operation.ReportsPlan run.J run.around.content db) :
    run.Keeps (fun _ reached => operation.run run.J run.store db = .ok reached)
      (must (.write operation)) db := by
  have hpermitted : run.Permitted (.write operation) db := by
    constructor
    · exact halone
    all_goals
      intro other hother
      cases hother
      assumption
  cases hrun : operation.run run.J run.store db with
  | error error =>
    have hanswer : answerCall run.J run.store run.executor run.client (.write operation) db =
        (.error error, db) := by
      simp only [answerCall, hrun]
    apply keeps_must hpermitted
    · rw [hanswer]
      exact halone
    · intro value hvalue
      rw [hanswer] at hvalue
      cases hvalue
  | ok next =>
    have hanswer : answerCall run.J run.store run.executor run.client (.write operation) db =
        (.ok (), next) := by
      simp only [answerCall, hrun]
    apply keeps_must hpermitted
    · rw [hanswer]
      exact halone.write horders hown hrun
    · intro value hvalue
      rw [hanswer]

/-- Loading the job of the run. -/
theorem keeps_load {key : Bytes} (halone : run.Alone db) (hkey : key = run.key) :
    run.Keeps (fun job reached => Shows run.key reached job) (must (.loadJob key)) db := by
  have hsame : run.Alone (answerCall run.J run.store run.executor run.client
      (.loadJob key) db).2 := halone
  apply keeps_must (halone.permitted rfl) hsame
  intro job hload
  rw [← hkey]
  exact shows_loadJob halone.orderly hload

/-- Choosing the inputs of a job gives an aligned plan. -/
theorem keeps_chooseInputs {job : RecoveredJob} (halone : run.Alone db)
    (hinputs : job.retryFiles.length ≤ 2 ^ 31) :
    run.Keeps (fun chosen _ => AlignedPlan chosen.1)
      (must (.chooseInputs run.around.files run.around.readings job)) db := by
  have hsame : run.Alone (answerCall run.J run.store run.executor run.client
      (.chooseInputs run.around.files run.around.readings job) db).2 := halone
  apply keeps_must (halone.permitted rfl) hsame
  intro chosen hchosen
  exact aligned_chooseInputs run.limited hinputs hchosen

/-- A delivery leaves the plan of the job as it is. -/
theorem keeps_delivery {call : QueueCall (Except AgentError α)} (halone : run.Alone db)
    (hcall : call.operation? = none)
    (hleaves : LeavesFiles db (answerCall run.J run.store run.executor run.client call db).2) :
    run.Keeps (fun _ reached => LeavesFiles db reached) (must call) db :=
  keeps_must (halone.permitted hcall) (halone.leaves hleaves) fun _ _ => hleaves

/-- What is delivered leaves all files as they are. -/
theorem leavesFiles_delivered {client : ReliableDeliveryClient} {type : RequestType}
    {idempotencyKey : Bytes} {body : Except AgentError Bytes} {tape : DeliveryTape α} :
    LeavesFiles db (delivered client type idempotencyKey body tape db).2 := by
  unfold delivered
  cases body with
  | error error => exact LeavesFiles.refl db
  | ok httpBody => exact leavesFiles_deliver tape

/-! ## Stages -/

variable {job : RecoveredJob}

/-- A job without a plan gets one, and is loaded with it. -/
theorem keeps_planStage (halone : run.Alone db) (hshows : Shows run.key db job) :
    run.Keeps (fun planned reached => Shows run.key reached planned)
      (planStage run.around job) db := by
  unfold planStage
  split
  · apply Keeps.bind (keeps_chooseInputs halone hshows.inputs)
    intro chosen asked halone hplan
    apply Keeps.bind (keeps_write (.saveFilePlan job.executionKey chosen.1 chosen.2) halone hplan
      (congrArg some hshows.named) trivial)
    intro _ saved halone _
    exact keeps_load halone hshows.named
  · exact keeps_ret halone hshows

/-- A job whose failures are completed is loaded again. -/
theorem keeps_amendStage (halone : run.Alone db) (hshows : Shows run.key db job) :
    run.Keeps (fun amended reached => Shows run.key reached amended) (amendStage job) db := by
  unfold amendStage
  split
  · exact keeps_ret halone hshows
  · apply Keeps.bind (keeps_write (.saveFileFailures job.executionKey (amendedFailures job)) halone
      trivial (congrArg some hshows.named) trivial)
    intro _ saved halone _
    exact keeps_load halone hshows.named

/-- Nothing was archived and no file has failed. -/
def Idle (archived : ArchivedFiles) : Prop :=
  archived.entries = [] ∧ archived.failedThisRun = false

/-- A job still shows its plan when nothing was archived and no file has failed. -/
theorem keeps_archiveFiles {files : List PendingFilePlan} {archived : ArchivedFiles}
    (halone : run.Alone db) (hnamed : job.executionKey = run.key)
    (hidle : Idle archived → Shows run.key db job) :
    run.Keeps (fun ended reached => Idle ended → Shows run.key reached job)
      (archiveFiles run.around job files archived) db := by
  induction files generalizing archived db with
  | nil => exact keeps_ret halone hidle
  | cons file rest ih =>
    unfold archiveFiles
    split
    · exact ih halone hidle
    split
    · exact keeps_stop halone
    have hlisted : ∀ {failures : List TaskRunReportFailedFile} {message : Bytes}, run.Keeps
        (fun ended reached => Idle ended → Shows run.key reached job)
        (do
          must (.write (.markFileFailed job.executionKey file.ordinal message failures))
          archiveFiles run.around job rest
            { archived with failures := failures, failedThisRun := true }) db := by
      intro failures message
      apply Keeps.bind (keeps_write
        (.markFileFailed job.executionKey file.ordinal message failures) halone trivial
        (congrArg some hnamed) trivial)
      intro _ marked halone _
      apply ih halone
      intro hnone
      cases hnone.2
    split
    · apply Keeps.bind (keeps_write (.markFileArchived job.executionKey file.ordinal) halone trivial
        (congrArg some hnamed) trivial)
      intro _ marked halone _
      apply ih halone
      intro hnone
      exact absurd hnone.1 (List.append_ne_nil_of_right_ne_nil _ (List.cons_ne_nil _ _))
    · exact keeps_stop halone
    · exact hlisted

/-- The manifest of what was archived is saved, and the job is loaded if its files have changed. -/
theorem keeps_manifestStage {archived : ArchivedFiles} (halone : run.Alone db)
    (hnamed : job.executionKey = run.key) (hidle : Idle archived → Shows run.key db job) :
    run.Keeps (fun next reached => Shows run.key reached next) (manifestStage job archived) db := by
  unfold manifestStage
  split
  · apply Keeps.bind (keeps_write
      (.saveManifest job.executionKey (manifestOf job archived.entries)) halone trivial
      (congrArg some hnamed) trivial)
    intro _ saved halone _
    exact keeps_load halone hnamed
  · rename_i hentries
    split
    · exact keeps_load halone hnamed
    · rename_i hfailed
      apply keeps_ret halone
      exact hidle ⟨not_not.mp hentries, (Bool.not_eq_true _).mp hfailed⟩

/-- A collected job shows its plan. -/
theorem keeps_runCollectingStage (halone : run.Alone db) (hshows : Shows run.key db job) :
    run.Keeps (fun next reached => Shows run.key reached next)
      (runCollectingStage run.around job) db := by
  unfold runCollectingStage
  apply Keeps.bind (keeps_planStage halone hshows)
  intro planned state halone hplanned
  apply Keeps.bind (keeps_amendStage halone hplanned)
  intro amended state halone hamended
  apply Keeps.bind (keeps_archiveFiles halone hamended.named fun _ => hamended)
  intro archived state halone hidle
  exact keeps_manifestStage halone hamended.named hidle

/-- The report of a failed collection counts none of the files that stand in the queue. -/
theorem keeps_saveCollectionFailureReport {error : Bytes} (halone : run.Alone db)
    (hnamed : job.executionKey = run.key) :
    run.Keeps (fun next reached => Shows run.key reached next)
      (saveCollectionFailureReport run.around job error) db := by
  unfold saveCollectionFailureReport
  apply Keeps.bind (keeps_load halone hnamed)
  intro current state halone hcurrent
  have hfiles : current.files = recoverFilePlan state current.executionKey := by
    rw [hcurrent.files, hcurrent.named]
  have houtcomes : List.replicate current.files.length false =
      (recoverFilePlan state current.executionKey).map fun _ => false := by
    rw [List.map_const', hfiles]
  apply Keeps.bind (keeps_write (.saveReport current.executionKey
    (collectionFailureReport current run.around.finishedAt error)
    (List.replicate current.files.length false)) halone trivial (congrArg some hcurrent.named)
    ⟨_, .collectionFailed current _ error hfiles, houtcomes⟩)
  intro _ saved halone _
  exact keeps_load halone hcurrent.named

/-- Some job, if any, shows its plan. -/
def ShowsAny (key : Bytes) (next : Option RecoveredJob) (db : QueueDatabase) : Prop :=
  ∀ job, next = some job → Shows key db job

theorem showsAny_none {key : Bytes} : ShowsAny key none db := by
  intro job heq
  cases heq

theorem showsAny_some {key : Bytes} (h : Shows key db job) : ShowsAny key (some job) db := by
  intro other heq
  cases heq
  exact h

/-- A started job is loaded with its run. -/
theorem keeps_startStage (halone : run.Alone db) (hshows : Shows run.key db job) :
    run.Keeps (ShowsAny run.key) (startStage run.around job) db := by
  unfold startStage
  split
  · apply Keeps.bind (keeps_delivery halone rfl leavesFiles_delivered)
    intro started delivered halone _
    split
    · apply Keeps.bind (keeps_write (.discardStartPendingJob job.executionKey) halone trivial
        (congrArg some hshows.named) trivial)
      intro _ discarded halone _
      exact keeps_ret halone showsAny_none
    split
    · exact keeps_stop halone
    · apply Keeps.bind (keeps_write (.acceptStart job.executionKey started.taskRunId) halone trivial
        (congrArg some hshows.named) trivial)
      intro _ accepted halone _
      apply Keeps.map (keeps_load halone hshows.named)
      intro loaded reached hloaded
      exact showsAny_some hloaded
  · exact keeps_ret halone (showsAny_some hshows)

/-- A failed collection parks its job, raises, or is reported for the files in the queue. -/
theorem keeps_collectionFailed {error : AgentError} (halone : run.Alone db)
    (hnamed : job.executionKey = run.key) :
    run.Keeps (ShowsAny run.key) (collectionFailed run.around job error) db := by
  have hreported : run.Keeps (ShowsAny run.key)
      (some <$> saveCollectionFailureReport run.around job error.what) db := by
    apply Keeps.map (keeps_saveCollectionFailureReport halone hnamed)
    intro reported reached hreported
    exact showsAny_some hreported
  unfold collectionFailed
  split
  · apply Keeps.bind (keeps_write
      (.markRequiresAttention job.executionKey (text "archive_conflict")) halone trivial
      (congrArg some hnamed) trivial)
    intro _ parked halone _
    exact keeps_ret halone showsAny_none
  · exact keeps_stop halone
  · exact hreported

/-- A collected job shows its plan, also when its collection has failed. -/
theorem keeps_collectStage (halone : run.Alone db) (hshows : Shows run.key db job) :
    run.Keeps (ShowsAny run.key) (collectStage run.around job) db := by
  unfold collectStage
  split
  · apply Keeps.rescue
    · apply Keeps.map (keeps_runCollectingStage halone hshows)
      intro collected reached hcollected
      exact showsAny_some hcollected
    · intro error reached halone
      exact keeps_collectionFailed halone hshows.named
  · exact keeps_ret halone (showsAny_some hshows)

/-- A job whose manifest was accepted is loaded with the identifiers of its files. -/
theorem keeps_deliverManifestStage (halone : run.Alone db) (hshows : Shows run.key db job) :
    run.Keeps (fun next reached => Shows run.key reached next)
      (deliverManifestStage run.around job) db := by
  unfold deliverManifestStage
  split
  · apply Keeps.bind (keeps_delivery halone rfl leavesFiles_delivered)
    intro rawFileIds delivered halone _
    apply Keeps.bind (keeps_write (.acceptManifest job.executionKey rawFileIds) halone trivial
      (congrArg some hshows.named) trivial)
    intro _ accepted halone _
    exact keeps_load halone hshows.named
  · exact keeps_ret halone hshows

/-- The report of a job has the outcome of every file that stands in the queue. -/
theorem keeps_reportStage (halone : run.Alone db) (hshows : Shows run.key db job) :
    run.Keeps (fun next reached => Shows run.key reached next)
      (reportStage run.around run.J job) db := by
  unfold reportStage
  split
  · have hdrafted : run.Keeps (fun draft reached => reached = db ∧
        draftReport run.J run.around.content job = .ok draft)
        (raised (draftReport run.J run.around.content job)) db :=
      keeps_raised halone fun draft hdraft => ⟨rfl, hdraft⟩
    apply Keeps.bind hdrafted
    intro draft state halone hdrafted
    obtain ⟨rfl, hdraft⟩ := hdrafted
    have hfiles : job.files = recoverFilePlan state job.executionKey := by
      rw [hshows.files, hshows.named]
    have houtcomes : draft.parsedWithoutErrors =
        (recoverFilePlan state job.executionKey).map (parsedCleanly run.J run.around.content) := by
      rw [draftReport_outcomes hdraft, hfiles]
    apply Keeps.bind (keeps_write (.saveReport job.executionKey
      (reportOf job run.around.finishedAt draft) draft.parsedWithoutErrors) halone trivial
      (congrArg some hshows.named) ⟨_, .drafted job _ draft hfiles hdraft, houtcomes⟩)
    intro _ saved halone _
    exact keeps_load halone hshows.named
  · exact keeps_ret halone hshows

/-- The delivery of a report ends its job. -/
theorem keeps_deliverReportStage (halone : run.Alone db) (hnamed : job.executionKey = run.key) :
    run.Keeps (fun _ _ => True) (deliverReportStage run.around job) db := by
  unfold deliverReportStage
  split
  · apply Keeps.bind (keeps_delivery halone rfl leavesFiles_delivered)
    intro _ delivered halone _
    exact (keeps_write (.completeJob job.executionKey run.around.completedAt) halone trivial
      (congrArg some hnamed) trivial).ends
  · exact keeps_ret halone trivial

/-- A job that shows its plan may be run. -/
theorem keeps_runReliableJob (halone : run.Alone db) (hshows : Shows run.key db job) :
    run.Keeps (fun _ _ => True) (runReliableJob run.around run.J job) db := by
  unfold runReliableJob
  apply Keeps.bind (keeps_startStage halone hshows)
  intro started state halone hstarted
  cases started with
  | none => exact keeps_ret halone trivial
  | some started =>
    apply Keeps.bind (keeps_collectStage halone (hstarted started rfl))
    intro collected state halone hcollected
    cases collected with
    | none => exact keeps_ret halone trivial
    | some collected =>
      apply Keeps.bind (keeps_deliverManifestStage halone (hcollected collected rfl))
      intro accepted state halone haccepted
      apply Keeps.bind (keeps_reportStage halone haccepted)
      intro reported state halone hreported
      exact keeps_deliverReportStage halone hreported.named

/-- The turn of a recovered job runs that job alone. -/
theorem keeps_recoveryTurn {turn : RecoveryTurn} (halone : run.Alone db)
    (hshows : Shows run.key db job) (hturn : turn.around = run.around) :
    run.Keeps (fun _ _ => True) (turn.program run.J job) db := by
  unfold RecoveryTurn.program
  apply Keeps.rescue
  · rw [hturn]
    apply Keeps.map (keeps_runReliableJob halone hshows)
    exact fun _ _ _ => trivial
  · intro error reached halone
    unfold RecoveryTurn.givenUp
    split
    · exact keeps_ret halone trivial
    · exact keeps_stop halone

/-! ## Dispatches -/

/-- A call whose answer is no exception. -/
theorem keeps_perform {call : QueueCall α} (halone : run.Alone db)
    (hcall : call.operation? = none)
    (hsame : (answerCall run.J run.store run.executor run.client call db).2 = db) :
    run.Keeps (fun _ _ => True) (perform call) db := by
  apply meets_call_ok rfl (halone.permitted hcall)
  rw [hsame]
  exact keeps_ret halone trivial

/-- A job is queued, loaded and run. -/
theorem keeps_beginAndRun {createdAt : Bytes} {task : TaskConfig} {request : StartTaskRunRequest}
    {retryFiles : List RetryFileInput} (halone : run.Alone db)
    (hkey : request.executionKey = run.key)
    (hqueueable : Queueable request.executionKey retryFiles) :
    run.Keeps (fun _ _ => True)
      (beginAndRun run.J run.around createdAt task request retryFiles) db := by
  unfold beginAndRun
  apply Keeps.bind (keeps_write (.beginJob task request retryFiles createdAt) halone hqueueable
    (congrArg some hkey) trivial)
  intro _ begun halone _
  apply Keeps.bind (keeps_load halone hkey)
  intro job loaded halone hshows
  exact keeps_runReliableJob halone hshows

/-- The run of a slot. -/
theorem keeps_execute {now : SystemTime} {createdAt : Bytes} {stopRequested : Bool}
    {execution : ScheduledTaskExecution} (halone : run.Alone db)
    (hkey : (scheduledRequest execution now).executionKey = run.key) :
    run.Keeps (fun _ _ => True)
      (execute run.J run.around now createdAt stopRequested execution) db := by
  have hqueueable : Queueable (scheduledRequest execution now).executionKey [] := by
    refine ⟨?_, by simp, by simp⟩
    intro hzero
    exact absurd (Sha256.ascii_sha256Hex _ 0 hzero).1 (lt_irrefl 0)
  unfold execute
  split
  · exact keeps_ret halone trivial
  apply Keeps.bind (keeps_perform halone rfl rfl)
  intro room asked halone _
  split
  · exact keeps_ret halone trivial
  · exact keeps_beginAndRun halone hkey hqueueable

/-- The run of a manual execution. -/
theorem keeps_executePending {now : SystemTime} {createdAt : Bytes} {stopRequested : Bool}
    {execution : ManualTaskExecution} (halone : run.Alone db)
    (hkey : execution.execution.executionKey = run.key)
    (hqueueable : Queueable execution.execution.executionKey execution.execution.retryFiles) :
    run.Keeps (fun _ _ => True)
      (executePending run.J run.around now createdAt stopRequested execution) db := by
  have hfound : run.Keeps (fun _ _ => True)
      (must (.findJob execution.execution.executionKey)) db :=
    keeps_must (halone.permitted rfl) halone fun _ _ => trivial
  unfold executePending
  split
  · exact keeps_ret halone trivial
  apply Keeps.bind hfound
  intro queued asked halone _
  split
  · exact keeps_ret halone trivial
  · apply Keeps.bind (keeps_perform halone rfl rfl)
    intro room asked halone _
    split
    · exact keeps_ret halone trivial
    · apply Keeps.bind (keeps_beginAndRun halone hkey hqueueable)
      intro _ ended halone _
      exact keeps_ret halone trivial

end JobRun

end LabBridge.Agent
