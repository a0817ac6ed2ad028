import LabBridge.Agent.JobRuns

/-!
# Plans and outcomes stay aligned

The executor recovers the jobs of its queue and runs what is dispatched, and may be interrupted
after any transaction; between two of its calls an operator may return parked jobs to work. In
every queue that is reached so, rows are numbered by their places, and a report is saved with the
outcome of every file at the place of the file.
-/

namespace LabBridge.Agent

open ByteText JsonText FileTree LinkedTree Fallible Interaction Interaction.Program LabBridge.Core

/-- What the executor is called for. A delivery that is interrupted is one whose turns end. -/
inductive ExecutorCall
  | recovered (turns : List RecoveryTurn)
  | scheduled (around : Surroundings) (now : SystemTime) (createdAt : Bytes)
      (execution : ScheduledTaskExecution)
  | manual (around : Surroundings) (now : SystemTime) (createdAt : Bytes)
      (execution : ManualTaskExecution)

namespace ExecutorCall

/-- What the executor does when it is called, and no stop was requested. -/
def program (J : Nlohmann) : ExecutorCall → JobProgram Unit
  | recovered turns => recoverPendingJobs J turns
  | scheduled around now createdAt execution =>
    (Dispatch.scheduled execution).program J around now createdAt false
  | manual around now createdAt execution =>
    (Dispatch.manual execution).program J around now createdAt false

/-- The surroundings of the jobs that are run. -/
def surroundings : ExecutorCall → List Surroundings
  | recovered turns => turns.map RecoveryTurn.around
  | scheduled around _ _ _ => [around]
  | manual around _ _ _ => [around]

/-- What the client hands over of a manual execution: no more inputs than a response of a mebibyte
can hold, with sizes of 64 bits. -/
def Received : ExecutorCall → Prop
  | recovered _ => True
  | scheduled _ _ _ _ => True
  | manual _ _ _ execution => execution.execution.retryFiles.length ≤ 2 ^ 31 ∧
    ∀ file ∈ execution.execution.retryFiles, -(2 ^ 63) ≤ file.sizeBytes ∧ file.sizeBytes < 2 ^ 63

/-- The key of a manual execution is read back whole. -/
def PlainKey : ExecutorCall → Prop
  | recovered _ => True
  | scheduled _ _ _ _ => True
  | manual _ _ _ execution => 0 ∉ execution.execution.executionKey

/-- A manual execution whose job can be queued. -/
def Promised (call : ExecutorCall) : Prop := call.Received ∧ call.PlainKey

/-- What is promised of a manual execution is what its job is queued with. -/
theorem Promised.queueable {around : Surroundings} {now : SystemTime} {createdAt : Bytes}
    {execution : ManualTaskExecution}
    (h : (manual around now createdAt execution).Promised) :
    Queueable execution.execution.executionKey execution.execution.retryFiles :=
  ⟨h.2, h.1.2, h.1.1⟩

end ExecutorCall

section Runs

variable (J : Nlohmann) (store : AgentQueueStore) (executor : TaskExecutor)
  (client : ReliableDeliveryClient) (allowed : ExecutorCall → Prop)

/-- The queues that are reached: the empty one of a new agent, one in which an operator has
returned a job to work, and those that an allowed call of the executor passes through. -/
inductive ExecutorReachable : QueueDatabase → Prop
  | created : ExecutorReachable {}
  | returned {db next : QueueDatabase} {key : Bytes} {status : QueueRetryStatus}
      (reachable : ExecutorReachable db) (h : retryAttentionJob key db = .ok (status, next)) :
      ExecutorReachable next
  | passed {db reached : QueueDatabase} {call : ExecutorCall} (reachable : ExecutorReachable db)
      (permitted : allowed call)
      (h : (call.program J).Passes (queueHandler J store executor client) db reached) :
      ExecutorReachable reached

/-- A report that the executor saves, with its outcomes and the queue it is saved in. -/
structure SavedReport where
  key : Bytes
  request : TaskRunReportRequest
  outcomes : List Bool
  queue : QueueDatabase

/-- The saved report of a call. -/
def seeReport (β : Type) (asked : QueueCall β) (queue : QueueDatabase) : Option SavedReport :=
  match asked.operation? with
  | some (.saveReport key request outcomes) => some ⟨key, request, outcomes, queue⟩
  | _ => none

/-- The reports that a call of the executor saves. -/
def ExecutorCall.savedReports (call : ExecutorCall) (db : QueueDatabase) : List SavedReport :=
  (call.program J).observed (queueHandler J store executor client) seeReport db

/-- What the executor may ask for: in an orderly queue, and a report only with the outcomes of the
plan in one of the given surroundings. -/
structure MayAsk (arounds : List Surroundings) {β : Type} (call : QueueCall β)
    (db : QueueDatabase) : Prop where
  orderly : Orderly J db
  reports : ∀ operation, call.operation? = some operation →
    ∃ around ∈ arounds, operation.ReportsPlan J around.content db

/-- A program keeps the order of the queue. -/
def KeepsOrder {α : Type} (arounds : List Surroundings) (program : JobProgram α)
    (db : QueueDatabase) : Prop :=
  program.Meets (queueHandler J store executor client) (fun _ => MayAsk J arounds)
    (fun _ reached => Orderly J reached) db

end Runs

variable {J : Nlohmann} {store : AgentQueueStore} {executor : TaskExecutor}
  {client : ReliableDeliveryClient} {db : QueueDatabase} {arounds : List Surroundings}

/-- What the run of one job may ask for, the executor may. -/
theorem JobRun.Permitted.mayAsk {run : JobRun} {β : Type} {call : QueueCall β}
    (h : run.Permitted call db) (hmem : run.around ∈ arounds) : MayAsk run.J arounds call db where
  orderly := h.alone.orderly
  reports operation hoperation := ⟨run.around, hmem, h.reports operation hoperation⟩

/-- A run of one job keeps the order of the queue. -/
theorem JobRun.Keeps.keepsOrder {run : JobRun} {α : Type} {good : α → QueueDatabase → Prop}
    {program : JobProgram α} (h : run.Keeps good program db) (hmem : run.around ∈ arounds) :
    KeepsOrder run.J run.store run.executor run.client arounds program db :=
  h.mono (fun _ _ _ hpermitted => hpermitted.mayAsk hmem) fun _ _ hend => hend.1.orderly

/-- The queue as a run of one job begins with it. -/
theorem Orderly.alone {run : JobRun} (h : Orderly run.J run.before) : run.Alone run.before :=
  ⟨h, fun _ _ => rfl⟩

/-! ## Recovery -/

/-- The rows that are recovered have different keys. -/
theorem nodup_recoveredRows (h : Orderly J db) :
    ((recoveredRows db).map fun found => found.1.executionKey).Nodup := by
  have hjobs : db.jobs.Pairwise fun left right => left.executionKey ≠ right.executionKey :=
    List.pairwise_map.mp h.keys
  have hsorted : ((db.jobs.filter fun job => job.stage != .requiresAttention).mergeSort
      recoveredBefore).Pairwise fun left right => left.executionKey ≠ right.executionKey := by
    apply (List.mergeSort_perm _ _).symm.pairwise (hjobs.sublist List.filter_sublist)
    exact fun hne => hne.symm
  unfold recoveredRows
  rw [List.Nodup, List.pairwise_map, List.pairwise_filterMap]
  apply hsorted.imp
  intro left right hne found hfound other hother
  obtain ⟨start, -, rfl⟩ := Option.map_eq_some_iff.mp hfound
  obtain ⟨restart, -, rfl⟩ := Option.map_eq_some_iff.mp hother
  exact hne

/-- Recovered jobs show their plans and have different keys. -/
theorem shows_recoverJobs {jobs : List RecoveredJob} (h : Orderly J db)
    (hrecovered : recoverJobs J db = .ok jobs) :
    (∀ job ∈ jobs, Shows job.executionKey db job) ∧
      (jobs.map RecoveredJob.executionKey).Nodup := by
  have hread : List.Forall₂ (fun found job => readRecoveredJob J db found.1 found.2 = .ok job)
      (recoveredRows db) jobs := mapM_eq_ok.mp hrecovered
  constructor
  · intro job hjob
    obtain ⟨found, hfound, hstored⟩ := exists_left hread hjob
    have hshows := shows_readRecoveredJob h (mem_recoveredRows.mp hfound).1 hstored
    rw [hshows.named]
    exact hshows
  · rw [map_eq_of_forall₂ hread fun found hfound job hjob =>
      (shows_readRecoveredJob h (mem_recoveredRows.mp hfound).1 hjob).named]
    exact nodup_recoveredRows h

section Calls

variable (limited : executor.maxFilesPerRun ≤ 2 ^ 31)

include limited

/-- Recovering jobs one after the other keeps the order: the run of one leaves the plans of the
later ones as they were loaded. -/
theorem keepsOrder_recoverEach {jobs : List RecoveredJob} {turns : List RecoveryTurn}
    (h : Orderly J db) (hshows : ∀ job ∈ jobs, Shows job.executionKey db job)
    (hkeys : (jobs.map RecoveredJob.executionKey).Nodup)
    (hturns : ∀ turn ∈ turns, turn.around ∈ arounds) :
    KeepsOrder J store executor client arounds (recoverEach J jobs turns) db := by
  induction jobs generalizing turns db with
  | nil =>
    unfold recoverEach
    exact h
  | cons job rest ih =>
    cases turns with
    | nil =>
      unfold recoverEach
      exact h
    | cons turn later =>
      unfold recoverEach
      split
      · exact h
      · let run : JobRun := ⟨J, store, executor, client, turn.around, job.executionKey, db, limited⟩
        have halone : run.Alone db := ⟨h, fun _ _ => rfl⟩
        have hturn : run.Keeps (fun _ _ => True) (turn.program J job) db :=
          JobRun.keeps_recoveryTurn halone (hshows job List.mem_cons_self) rfl
        have hasks : ∀ (γ : Type) (call : QueueCall γ) (state : QueueDatabase),
            run.Permitted call state → MayAsk J arounds call state :=
          fun _ _ _ hpermitted => hpermitted.mayAsk (hturns turn List.mem_cons_self)
        rw [List.map_cons, List.nodup_cons] at hkeys
        apply Meets.bind (hturn.mono hasks fun _ _ hend => hend.1)
        · intro stopped reached hreached
          split
          · exact hreached.orderly
          · apply ih hreached.orderly _ hkeys.2
            · exact fun turn hlater => hturns turn (List.mem_cons_of_mem _ hlater)
            · intro other hother
              apply (hshows other (List.mem_cons_of_mem _ hother)).of_files
              apply hreached.others
              intro hsame
              have hkey : other.executionKey = job.executionKey := hsame
              apply hkeys.1
              rw [← hkey]
              exact List.mem_map_of_mem hother
        · exact fun error reached hreached => hreached.orderly

/-- Recovering what is pending keeps the order. -/
theorem keepsOrder_recoverPendingJobs {turns : List RecoveryTurn} (h : Orderly J db) :
    KeepsOrder J store executor client (turns.map RecoveryTurn.around)
      (recoverPendingJobs J turns) db := by
  have hasks : MayAsk J (turns.map RecoveryTurn.around) .recoverJobs db := by
    refine ⟨h, ?_⟩
    intro operation hoperation
    cases hoperation
  have hasked : (must .recoverJobs).Meets (queueHandler J store executor client)
      (fun _ => MayAsk J (turns.map RecoveryTurn.around))
      (fun result reached => reached = db ∧ result = recoverJobs J db) db := by
    apply meets_call_ok rfl hasks
    change (raised (recoverJobs J db)).Meets _ _ _ db
    cases recoverJobs J db with
    | error error => exact ⟨rfl, rfl⟩
    | ok jobs => exact ⟨rfl, rfl⟩
  unfold recoverPendingJobs
  apply Meets.bind hasked
  · intro jobs reached hrecovered
    obtain ⟨hshows, hkeys⟩ := shows_recoverJobs h hrecovered.2.symm
    rw [hrecovered.1]
    apply keepsOrder_recoverEach limited h hshows hkeys
    exact fun turn hturn => List.mem_map_of_mem hturn
  · intro error reached hfailed
    rw [hfailed.1]
    exact h

/-- A call of the executor keeps the order of the queue. -/
theorem keepsOrder_program {call : ExecutorCall} (h : Orderly J db) (promised : call.Promised) :
    KeepsOrder J store executor client call.surroundings (call.program J) db := by
  cases call with
  | recovered turns => exact keepsOrder_recoverPendingJobs limited h
  | scheduled around now createdAt execution =>
    let run : JobRun := ⟨J, store, executor, client, around,
      (scheduledRequest execution now).executionKey, db, limited⟩
    have halone : run.Alone db := ⟨h, fun _ _ => rfl⟩
    have hkeeps : run.Keeps (fun _ _ => True)
        (execute J around now createdAt false execution) db :=
      JobRun.keeps_execute halone rfl
    exact hkeeps.keepsOrder List.mem_cons_self
  | manual around now createdAt execution =>
    let run : JobRun := ⟨J, store, executor, client, around,
      execution.execution.executionKey, db, limited⟩
    have halone : run.Alone db := ⟨h, fun _ _ => rfl⟩
    have hkeeps : run.Keeps (fun _ _ => True)
        ((fun _ => ()) <$> executePending J around now createdAt false execution) db := by
      apply JobRun.Keeps.map (JobRun.keeps_executePending halone rfl promised.queueable)
      exact fun _ _ _ => trivial
    exact hkeeps.keepsOrder List.mem_cons_self

/-- Every queue that is reached is in order. -/
theorem orderly_of_reachable
    (reachable : ExecutorReachable J store executor client ExecutorCall.Promised db) :
    Orderly J db := by
  induction reachable with
  | created => exact orderly_empty
  | returned _ h ih => exact ih.edits (leavesFiles_retryAttentionJob h).edits
  | passed _ promised hpassed ih =>
    apply Meets.passes (keepsOrder_program limited ih promised) _ _ hpassed
    · exact fun _ _ _ hasks => hasks.orderly
    · exact fun _ _ horderly => horderly

/-- A report is saved in an orderly queue, with the outcomes of the plan that stands there. -/
theorem mem_savedReports {call : ExecutorCall} {saved : SavedReport} (h : Orderly J db)
    (promised : call.Promised) (hsaved : saved ∈ call.savedReports J store executor client db) :
    Orderly J saved.queue ∧ ∃ around ∈ call.surroundings, ∃ verdict,
      Judged J around.content (recoverFilePlan saved.queue saved.key) saved.request verdict ∧
        saved.outcomes = (recoverFilePlan saved.queue saved.key).map verdict := by
  obtain ⟨β, asked, queue, hasks, hseen⟩ :=
    (keepsOrder_program limited h promised).of_mem_observed hsaved
  unfold seeReport at hseen
  split at hseen
  · rename_i key request outcomes hoperation
    cases hseen
    exact ⟨hasks.orderly, hasks.reports _ hoperation⟩
  · cases hseen

end Calls

/-- Plans and outcomes stay aligned as long as every key is read back whole: in every queue that is
reached, the rows of every job carry the ordinals from zero on and different archive paths and are
loaded in that order, and every report is saved with as many outcomes as its job has rows, each of
which is stored on the file it was found for. -/
theorem plans_and_outcomes_aligned (limited : executor.maxFilesPerRun ≤ 2 ^ 31)
    (reachable : ExecutorReachable J store executor client ExecutorCall.Promised db) :
    (∀ key, AlignedRows (db.filesOf key)) ∧
    (∀ (key : Bytes) (job : RecoveredJob), loadJob J db key = .ok job →
      job.files = (db.filesOf key).map PendingFile.plan ∧
        job.files.map PendingFilePlan.ordinal = (List.range job.files.length).map Int.ofNat ∧
        (job.files.map PendingFilePlan.archivePath).Nodup) ∧
    ∀ (call : ExecutorCall) (saved : SavedReport), call.Promised →
      saved ∈ call.savedReports J store executor client db →
      saved.outcomes.length = (saved.queue.filesOf saved.key).length ∧
        ∃ around ∈ call.surroundings, ∃ verdict,
          Judged J around.content (recoverFilePlan saved.queue saved.key) saved.request verdict ∧
            saved.outcomes = (recoverFilePlan saved.queue saved.key).map verdict ∧
            ∀ next, saveReport J saved.key saved.request saved.outcomes saved.queue = .ok next →
              recoverFilePlan next saved.key =
                (recoverFilePlan saved.queue saved.key).map fun file =>
                  file.withOutcome (verdict file) := by
  have horderly := orderly_of_reachable limited reachable
  refine ⟨horderly.rows, ?_, ?_⟩
  · intro key job hload
    have hfiles := (shows_loadJob horderly hload).files
    have hlength : job.files.length = (db.filesOf key).length := by
      rw [hfiles, recoverFilePlan_eq (horderly.rows key), List.length_map]
    refine ⟨?_, ?_, ?_⟩
    · rw [hfiles, recoverFilePlan_eq (horderly.rows key)]
    · rw [hlength, hfiles, ordinals_recoverFilePlan (horderly.rows key)]
    · rw [hfiles]
      exact paths_recoverFilePlan (horderly.rows key)
  · intro call saved promised hsaved
    obtain ⟨hqueue, around, hmem, verdict, hjudged, houtcomes⟩ :=
      mem_savedReports limited horderly promised hsaved
    refine ⟨?_, around, hmem, verdict, hjudged, houtcomes, ?_⟩
    · rw [houtcomes, recoverFilePlan_eq (hqueue.rows saved.key), List.length_map, List.length_map]
    · intro next hnext
      rw [recoverFilePlan_saveReport hqueue hnext, houtcomes, List.zipWith_map_right,
        List.zipWith_self]

/-! ## Three dropped files -/

def dropStore : AgentQueueStore := ⟨text "n", 4, 4⟩

def dropClient : ReliableDeliveryClient := ⟨5, 60, 20000, by decide, by decide, by decide⟩

/-- The first dropped file cannot be archived, the second parses, the third has a row that does
not. Every delivery is answered at once, but the manifest as it is told. -/
def dropSurroundings (manifest : DeliveryTape (List Bytes)) : Surroundings where
  files := dropFiles
  readings := fun _ => ⟨0, 0⟩
  archive := fun file =>
    if file.originalName = text "a.csv" then .error (filesystemError "cannot copy file") else .ok ()
  content := fun path =>
    if text "b.csv" <:+ path then
      some (text "station_code,device_code,record_time,t\ns,d,2024-01-01 00:00:00,1\n")
    else some (text "station_code,device_code,record_time,t\ns,d\n")
  finishedAt := text "f"
  completedAt := text "c"
  start := ⟨0, false, [⟨.ok ⟨text "r", false, text "running"⟩, 0, false⟩]⟩
  manifest := manifest
  report := ⟨0, false, [⟨.ok (), 0, false⟩]⟩

/-- A manual execution of the task, under a key. -/
def dropCall (key : Bytes) (manifest : DeliveryTape (List Bytes)) : ExecutorCall :=
  .manual (dropSurroundings manifest) 0 (text "q")
    ⟨⟨text "9", text "7", key, text "manual", text "a", []⟩, dropTask⟩

/-- The answer of the control plane to the manifest of the two archived files. -/
def dropIdentified : DeliveryTape (List Bytes) := ⟨0, false, [⟨.ok [text "1", text "2"], 0, false⟩]⟩

theorem promised_dropCall : (dropCall (text "k") dropIdentified).Promised :=
  ⟨⟨by simp, by simp⟩, (by decide : 0 ∉ text "k")⟩

/-- Each of the three outcomes is saved for the row of its file. -/
theorem plans_and_outcomes_aligned_dropped :
    ∃ saved ∈ (dropCall (text "k") dropIdentified).savedReports compactNlohmann dropStore
        dropExecutor dropClient {},
      saved.outcomes = [false, true, false] ∧ (saved.queue.filesOf saved.key).length = 3 := by
  have hreports : ((dropCall (text "k") dropIdentified).savedReports compactNlohmann dropStore
      dropExecutor dropClient {}).map SavedReport.outcomes = [[false, true, false]] := by
    decide +kernel
  have hmem : [false, true, false] ∈ ((dropCall (text "k") dropIdentified).savedReports
      compactNlohmann dropStore dropExecutor dropClient {}).map SavedReport.outcomes := by
    rw [hreports]
    exact List.mem_singleton_self _
  obtain ⟨saved, hsaved, houtcomes⟩ := List.mem_map.mp hmem
  have haligned := (plans_and_outcomes_aligned (by decide : dropExecutor.maxFilesPerRun ≤ 2 ^ 31)
    (.created : ExecutorReachable compactNlohmann dropStore dropExecutor dropClient
      ExecutorCall.Promised {})).2.2 _ saved promised_dropCall hsaved
  refine ⟨saved, hsaved, houtcomes, ?_⟩
  rw [← haligned.1, houtcomes]
  rfl

/-- A manifest that is not answered before the agent stops. -/
def dropUnanswered : DeliveryTape (List Bytes) := ⟨0, false, []⟩

/-- The queue behind a call. -/
def ExecutorCall.leaves (call : ExecutorCall) (db : QueueDatabase) : QueueDatabase :=
  ((call.program compactNlohmann).run
    (queueHandler compactNlohmann dropStore dropExecutor dropClient) db).2

theorem ExecutorReachable.leaves {call : ExecutorCall} {db : QueueDatabase}
    {allowed : ExecutorCall → Prop} (permitted : allowed call)
    (reachable : ExecutorReachable compactNlohmann dropStore dropExecutor dropClient allowed db) :
    ExecutorReachable compactNlohmann dropStore dropExecutor dropClient allowed (call.leaves db) :=
  .passed reachable permitted (passes_of_run rfl)

/-- A key that is cut at a zero byte when it is read back. -/
def cutKey : Bytes := text "k" ++ [0] ++ text "x"

/-- The queue with a job whose plan is stored, and another whose key is cut to that of the
first. -/
def cutQueue : QueueDatabase :=
  (dropCall cutKey dropUnanswered).leaves ((dropCall (text "k") dropUnanswered).leaves {})

/-- The second job has no rows, but is loaded with those of the first. -/
theorem not_plans_and_outcomes_aligned :
    ¬∀ db, ExecutorReachable compactNlohmann dropStore dropExecutor dropClient
        ExecutorCall.Received db →
      ∀ (key : Bytes) (job : RecoveredJob), loadJob compactNlohmann db key = .ok job →
        job.files = (db.filesOf key).map PendingFile.plan := by
  intro claimed
  have hreceived : ∀ key, (dropCall key dropUnanswered).Received := fun _ => ⟨by simp, by simp⟩
  have hreachable : ExecutorReachable compactNlohmann dropStore dropExecutor dropClient
      ExecutorCall.Received cutQueue :=
    .leaves (hreceived _) (.leaves (hreceived _) .created)
  have hloaded : (loadJob compactNlohmann cutQueue cutKey).toOption.map
      (fun job => job.files.length) = some 3 ∧ (cutQueue.filesOf cutKey).length = 0 := by
    decide +kernel
  cases hjob : loadJob compactNlohmann cutQueue cutKey with
  | error error =>
    rw [hjob] at hloaded
    cases hloaded.1
  | ok job =>
    rw [hjob] at hloaded
    have hfiles := congrArg List.length (claimed cutQueue hreachable cutKey job hjob)
    rw [List.length_map, hloaded.2] at hfiles
    have hlength : job.files.length = 3 := Option.some.inj hloaded.1
    rw [hfiles] at hlength
    cases hlength

end LabBridge.Agent
