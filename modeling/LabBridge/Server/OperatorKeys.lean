import LabBridge.Server.RunChanges

/-!
# How operator requests use their key

An operator request looks for a run under its key and compares what it finds with what it
asks for. Without one it goes on to insert a run of its own, and when an index refuses that
run it takes the run under the key as it finds it.
-/

namespace LabBridge.Server

open ByteText LabBridge.Core Storage Interaction

variable {R : Runtime} {call : Call}

/-- The key that an operator request carries. -/
def Call.operatorKey? : Call → Option Bytes
  | .trigger _ key | .retry _ key => some key
  | _ => none

/-- How far an operator request has come with its key. -/
inductive KeyStage
  /-- It has not looked for its key. -/
  | fresh
  /-- It has found no run under its key. -/
  | looked
  /-- It has found no run under its key, and then the run that it retries. -/
  | parent (record : TaskRunRecord)
  /-- It has inserted a run. -/
  | made (id : Bytes)
  /-- An index has refused its run. -/
  | taken
  /-- It answers with a run. -/
  | names (id : Bytes)

/-- It has found no run under its key and inserted none. -/
def KeyStage.LookedUp : KeyStage → Prop
  | looked | parent _ => True
  | _ => False

/-- The stages that an answer leads a request to. -/
inductive KeyStage.After (call : Call) :
    KeyStage → ∀ {γ : Type}, Statement γ → γ → KeyStage → Prop
  | read {stage : KeyStage} {γ : Type} {statement : Statement γ} {answer : γ}
      (isRead : statement.IsRead) : After call stage statement answer stage
  | update {stage : KeyStage} {γ : Type} {statement : Statement γ} {answer : γ}
      (keyless : call.operatorKey? = none) (unkeyed : statement.entersKey = none) :
      After call stage statement answer stage
  | scheduled {stage : KeyStage} {request : StartTaskRunRequest} {record : TaskRunRecord}
      {answer : Option Bytes} (starts : call = .start request)
      (isScheduled : TaskRunService.isManualStart request = false)
      (key : record.executionKey = request.executionKey) :
      After call stage (.insertScheduledRun record) answer stage
  | look {key : Bytes} (carries : call.operatorKey? = some key)
      (formed : isOperatorIdempotencyKey key = true) :
      After call .fresh (.selectRunByKey (TaskRunService.operatorKey key)) none .looked
  | see {taskRunId key : Bytes} {record : TaskRunRecord} (asks : call = .retry taskRunId key) :
      After call .looked (.selectRunById taskRunId) (some record) (.parent record)
  | trigger {key : Bytes} {request : ManualTaskRunRequest} {json : Bytes} {answer : Option Bytes}
      (asks : call = .trigger request.taskId key) (manual : request.triggerType = text "manual")
      (parentless : request.retryOfRunId = []) (formed : isOperatorIdempotencyKey key = true)
      (keyed : request.executionKey = TaskRunService.operatorKey key) :
      After call .looked (.insertManualRun request json) answer (answer.elim .taken .made)
  | retry {taskRunId key : Bytes} {record : TaskRunRecord} {request : ManualTaskRunRequest}
      {json : Bytes} {answer : Option Bytes} (asks : call = .retry taskRunId key)
      (again : request.triggerType = text "retry") (task : request.taskId = record.taskId)
      (parent : request.retryOfRunId = record.id) (formed : isOperatorIdempotencyKey key = true)
      (keyed : request.executionKey = TaskRunService.operatorKey key) :
      After call (.parent record) (.insertManualRun request json) answer
        (answer.elim .taken .made)
  | created {id : Bytes} {record : TaskRunRecord} :
      After call (.made id) (.selectRunById id) (some record) (.names record.id)
  | existing {key : Bytes} {record : TaskRunRecord} (carries : call.operatorKey? = some key)
      (formed : isOperatorIdempotencyKey key = true) :
      After call .taken (.selectRunByKey (TaskRunService.operatorKey key)) (some record)
        (.names record.id)
  | replayTrigger {key : Bytes} {record : TaskRunRecord} (asks : call = .trigger record.taskId key)
      (manual : record.triggerType = text "manual") (parentless : record.retryOfRunId = [])
      (formed : isOperatorIdempotencyKey key = true) :
      After call .fresh (.selectRunByKey (TaskRunService.operatorKey key)) (some record)
        (.names record.id)
  | replayRetry {key : Bytes} {record : TaskRunRecord}
      (asks : call = .retry record.retryOfRunId key)
      (again : record.triggerType = text "retry")
      (formed : isOperatorIdempotencyKey key = true) :
      After call .fresh (.selectRunByKey (TaskRunService.operatorKey key)) (some record)
        (.names record.id)
  | replayParent {taskRunId key : Bytes} {parent record : TaskRunRecord}
      (asks : call = .retry taskRunId key) (again : record.triggerType = text "retry")
      (task : record.taskId = parent.taskId) (retries : record.retryOfRunId = parent.id)
      (formed : isOperatorIdempotencyKey key = true) :
      After call (.parent parent) (.selectRunByKey (TaskRunService.operatorKey key)) (some record)
        (.names record.id)

/-- The refusals of a request in a stage: a conflict at any time, another one only for a
malformed key or when no run was found under it. -/
def KeyStage.Stops (call : Call) (stage : KeyStage) : Stop → Prop
  | .refused failure => failure.code = .conflict ∨ ∀ key, call.operatorKey? = some key →
      isOperatorIdempotencyKey key = false ∨ stage.LookedUp
  | _ => True

/-- The protocol of operator keys. -/
def keyProtocol (call : Call) : Program.Protocol Statement Stop KeyStage where
  after := KeyStage.After call
  stops := KeyStage.Stops call

/-- Without a run under its key a request may end with any refusal. -/
theorem KeyStage.LookedUp.stops {stage : KeyStage} (h : stage.LookedUp) (stop : Stop) :
    (keyProtocol call).stops stage stop := by
  cases stop with
  | refused failure => exact .inr fun _ _ => .inr h
  | failed => trivial
  | thrown => trivial

/-- A request without a key may end with any refusal. -/
theorem stops_of_keyless (keyless : call.operatorKey? = none) {stage : KeyStage} (stop : Stop) :
    (keyProtocol call).stops stage stop := by
  cases stop with
  | refused failure =>
    refine .inr fun key hkey => ?_
    rw [keyless] at hkey
    cases hkey
  | failed => trivial
  | thrown => trivial

/-- Any request may end with a conflict. -/
theorem stops_conflict {stage : KeyStage} {message : Bytes} :
    (keyProtocol call).stops stage (.refused (.conflict message)) := .inl rfl

/-- What only reads follows the protocol of the keys where any refusal may end it. -/
theorem keyed_of_reads {α : Type} {ends : KeyStage → α → Prop} {stage : KeyStage} {tx : Tx α}
    (h : tx.Calls fun _ => Statement.IsRead) (hlooked : stage.LookedUp)
    (finish : ∀ value, ends stage value) :
    Program.Follows (keyProtocol call) ends tx stage :=
  .of_calls (fun _ _ => .read) hlooked.stops finish h

namespace TaskRunService

open TaskRunRepository

/-- A scheduled start stores runs under the key it carries. -/
theorem startScheduled_keyed {request : StartTaskRunRequest}
    (hscheduled : isManualStart request = false) :
    Program.Follows (keyProtocol (.start request)) (fun _ _ => True) (startScheduled request)
      .fresh := by
  have stops {stage : KeyStage} {stop : Stop} : (keyProtocol (.start request)).stops stage stop :=
    stops_of_keyless rfl stop
  unfold startScheduled
  split
  · exact stops
  · refine Tx.follows_sql_bind.mpr fun found => ⟨.fresh, .read trivial, ?_⟩
    cases found with
    | none => exact stops
    | some task =>
      refine Tx.follows_unless_refuse (fun _ => stops) fun _ => ?_
      refine Tx.follows_unless_refuse (fun _ => stops) fun _ => ?_
      split
      · have hcreate : Program.Follows (keyProtocol (.start request)) (fun _ _ => True)
            (create (scheduledRecord request)) .fresh := by
          refine Tx.follows_sql_bind.mpr fun id => ⟨.fresh, .update rfl rfl, ?_⟩
          cases id <;> trivial
        exact hcreate.bind fun _ _ _ => trivial
      · have hcreate : Program.Follows (keyProtocol (.start request)) (fun _ _ => True)
            (createOrFindScheduled (scheduledRecord request)) .fresh := by
          refine Tx.follows_sql_bind.mpr fun id => ⟨.fresh, .scheduled rfl hscheduled rfl, ?_⟩
          cases id with
          | some id => trivial
          | none =>
            refine Tx.follows_sql_bind.mpr fun existing => ⟨.fresh, .read trivial, ?_⟩
            cases existing <;> trivial
        exact hcreate.bind fun _ _ _ => Tx.follows_unless_refuse (fun _ => stops) fun _ => trivial

/-- A manual start stores no run. -/
theorem startManual_keyed (call : Call) (keyless : call.operatorKey? = none)
    (request : StartTaskRunRequest) :
    Program.Follows (keyProtocol call) (fun _ _ => True) (startManual request) .fresh := by
  have stops {stage : KeyStage} {stop : Stop} : (keyProtocol call).stops stage stop :=
    stops_of_keyless keyless stop
  refine Tx.follows_unless_refuse (fun _ => stops) fun _ => ?_
  refine Tx.follows_unless_refuse (fun _ => stops) fun _ => ?_
  refine Tx.follows_unless_refuse (fun _ => stops) fun _ => ?_
  refine Tx.follows_sql_bind.mpr fun found => ⟨_, .read trivial, ?_⟩
  cases found with
  | none => exact stops
  | some run =>
    refine Tx.follows_unless_refuse (fun _ => stops) fun _ => ?_
    split
    · trivial
    · refine Tx.follows_sql_bind.mpr fun held => ⟨_, .read trivial, ?_⟩
      refine Tx.follows_unless_refuse (fun _ => stops) fun _ => ?_
      refine Tx.follows_sql_bind.mpr fun locked => ⟨_, .read trivial, ?_⟩
      cases locked with
      | none => exact stops
      | some locked =>
        simp only
        split
        · trivial
        · exact Tx.follows_sql_bind.mpr fun _ => ⟨_, .update keyless rfl, trivial⟩

/-- The insert of an operator run, and what it finds under the key otherwise. -/
theorem createOrFindManual_keyed {key : Bytes} (carries : call.operatorKey? = some key)
    (formed : isOperatorIdempotencyKey key = true) {request : ManualTaskRunRequest} {stage : KeyStage}
    (hkey : request.executionKey = operatorKey key)
    (hinsert : ∀ json answer, KeyStage.After call stage (.insertManualRun request json) answer
      (answer.elim .taken .made)) :
    Program.Follows (keyProtocol call)
      (fun reached started => reached = started.elim .taken fun started => .names started.taskRun.id)
      (createOrFindManual R request) stage := by
  have hprinted : Program.Follows (keyProtocol call) (fun reached _ => reached = stage)
      (printed (if request.retryFiles = [] then some []
        else toRetryFilesJson R.json request.retryFiles)) stage := by
    unfold printed
    split
    · rfl
    · trivial
  refine hprinted.bind fun reached json hreached => ?_
  subst hreached
  refine Tx.follows_sql_bind.mpr fun id => ⟨_, hinsert json id, ?_⟩
  cases id with
  | some id =>
    refine Tx.follows_sql_bind.mpr fun created => ?_
    cases created with
    | none => exact ⟨_, .read trivial, trivial⟩
    | some created => exact ⟨_, .created, rfl⟩
  | none =>
    rw [hkey]
    refine Tx.follows_sql_bind.mpr fun existing => ?_
    cases existing with
    | none => exact ⟨_, .read trivial, rfl⟩
    | some existing => exact ⟨_, .existing carries formed, rfl⟩

/-- Accepting an operator action answers with the run that it inserts or finds. -/
theorem acceptManualRun_keyed {key triggerType taskId retryOfRunId : Bytes}
    {retryFiles : List TaskRunRetryFile} {stage : KeyStage}
    (carries : call.operatorKey? = some key) (formed : isOperatorIdempotencyKey key = true)
    (hlooked : stage.LookedUp)
    (hinsert : ∀ nodeCode json answer, KeyStage.After call stage (.insertManualRun
      { taskId, nodeCode, triggerType, executionKey := operatorKey key, retryOfRunId, retryFiles }
      json) answer (answer.elim .taken .made)) :
    Program.Follows (keyProtocol call) (fun reached result => reached = .names result.taskRunId)
      (acceptManualRun R triggerType taskId retryOfRunId (operatorKey key) retryFiles) stage := by
  refine Tx.follows_unless_refuse (fun _ => hlooked.stops _) fun _ => ?_
  refine Tx.follows_sql_bind.mpr fun held => ⟨_, .read trivial, ?_⟩
  refine Tx.follows_unless_refuse (fun _ => hlooked.stops _) fun _ => ?_
  refine Tx.follows_sql_bind.mpr fun found => ⟨_, .read trivial, ?_⟩
  cases found with
  | none => exact hlooked.stops _
  | some task =>
    refine Tx.follows_unless_refuse (fun _ => hlooked.stops _) fun _ => ?_
    refine Tx.follows_sql_bind.mpr fun qcRuleIds => ⟨_, .read trivial, ?_⟩
    have hchecked : Program.Follows (keyProtocol call) (fun reached _ => reached = stage)
        (validateTaskExecutable R task qcRuleIds) stage :=
      keyed_of_reads (validateTaskExecutable_reads _ _) hlooked fun _ => rfl
    refine hchecked.bind fun reached _ hreached => ?_
    subst hreached
    refine Tx.follows_sql_bind.mpr fun pending => ⟨_, .read trivial, ?_⟩
    split
    · exact stops_conflict
    · refine (createOrFindManual_keyed carries formed rfl (hinsert task.nodeCode)).bind
        fun reached started hreached => ?_
      cases started with
      | some started => exact hreached
      | none =>
        refine Tx.follows_sql_bind.mpr fun raced => ⟨_, .read trivial, ?_⟩
        cases raced with
        | none => trivial
        | some raced => exact stops_conflict

/-- A trigger uses its key as the protocol says. -/
theorem requestManualRun_keyed (taskId key : Bytes) :
    Program.Follows (keyProtocol (.trigger taskId key))
      (fun reached result => reached = .names result.taskRunId)
      (requestManualRun R taskId key) .fresh := by
  refine Tx.follows_unless_refuse (fun hmalformed => ?_) fun hformed => ?_
  · refine .inr fun _ hkey => ?_
    cases hkey
    exact .inl (by simpa using hmalformed)
  · have formed : isOperatorIdempotencyKey key = true := by simpa using hformed
    refine Tx.follows_sql_bind.mpr fun existing => ?_
    cases existing with
    | some existing =>
      by_cases hother : existing.triggerType ≠ text "manual" ∨ existing.taskId ≠ taskId ∨
          existing.retryOfRunId ≠ []
      · refine ⟨.fresh, .read trivial, ?_⟩
        simp only [if_pos hother]
        exact stops_conflict
      · obtain ⟨hmanual, htask, hparent⟩ : existing.triggerType = text "manual" ∧
            existing.taskId = taskId ∧ existing.retryOfRunId = [] := by
          simpa only [not_or, not_not] using hother
        refine ⟨.names existing.id, .replayTrigger (htask ▸ rfl) hmanual hparent formed, ?_⟩
        simp only [if_neg hother]
        rfl
    | none =>
      exact ⟨.looked, .look rfl formed, acceptManualRun_keyed rfl formed trivial
        fun nodeCode json answer => .trigger rfl rfl rfl formed rfl⟩

/-- The second part of a retry, with the run that it retries. -/
theorem applyManualRun_keyed {taskRunId key : Bytes} (formed : isOperatorIdempotencyKey key = true)
    (parent : TaskRunRecord) (retryFiles : List TaskRunRetryFile) :
    Program.Follows (keyProtocol (.retry taskRunId key))
      (fun reached result => reached = .names result.taskRunId)
      (applyManualRun R (text "retry") parent.taskId parent.id key retryFiles)
      (.parent parent) := by
  refine Tx.follows_unless_refuse (fun hmalformed => ?_) fun _ => ?_
  · rw [formed] at hmalformed
    cases hmalformed
  refine Tx.follows_sql_bind.mpr fun existing => ?_
  cases existing with
  | some existing =>
    by_cases hother : existing.triggerType ≠ text "retry" ∨ existing.taskId ≠ parent.taskId ∨
        existing.retryOfRunId ≠ parent.id
    · refine ⟨.parent parent, .read trivial, ?_⟩
      simp only [if_pos hother]
      exact stops_conflict
    · obtain ⟨hagain, htask, hparent⟩ : existing.triggerType = text "retry" ∧
          existing.taskId = parent.taskId ∧ existing.retryOfRunId = parent.id := by
        simpa only [not_or, not_not] using hother
      refine ⟨.names existing.id, .replayParent rfl hagain htask hparent formed, ?_⟩
      simp only [if_neg hother]
      rfl
  | none =>
    exact ⟨.parent parent, .read trivial, acceptManualRun_keyed rfl formed trivial
      fun nodeCode json answer => .retry rfl rfl rfl rfl formed rfl⟩

/-- A retry uses its key as the protocol says. -/
theorem requestRetryRun_keyed (taskRunId key : Bytes) :
    Program.Follows (keyProtocol (.retry taskRunId key))
      (fun reached result => reached = .names result.taskRunId)
      (requestRetryRun R taskRunId key) .fresh := by
  refine Tx.follows_unless_refuse (fun hmalformed => ?_) fun hformed => ?_
  · refine .inr fun _ hkey => ?_
    cases hkey
    exact .inl (by simpa using hmalformed)
  · have formed : isOperatorIdempotencyKey key = true := by simpa using hformed
    refine Tx.follows_sql_bind.mpr fun existing => ?_
    cases existing with
    | some existing =>
      by_cases hother : existing.triggerType ≠ text "retry" ∨ existing.retryOfRunId ≠ taskRunId
      · refine ⟨.fresh, .read trivial, ?_⟩
        simp only [if_pos hother]
        exact stops_conflict
      · obtain ⟨hagain, hparent⟩ : existing.triggerType = text "retry" ∧
            existing.retryOfRunId = taskRunId := by
          simpa only [not_or, not_not] using hother
        refine ⟨.names existing.id, .replayRetry (hparent ▸ rfl) hagain formed, ?_⟩
        simp only [if_neg hother]
        rfl
    | none =>
      refine ⟨.looked, .look rfl formed, ?_⟩
      have hlooked : KeyStage.looked.LookedUp := trivial
      refine Tx.follows_unless_refuse (fun _ => hlooked.stops _) fun _ => ?_
      refine Tx.follows_sql_bind.mpr fun found => ?_
      cases found with
      | none => exact ⟨.looked, .read trivial, hlooked.stops _⟩
      | some parent =>
        refine ⟨.parent parent, .see rfl, ?_⟩
        have hseen : (KeyStage.parent parent).LookedUp := trivial
        refine Tx.follows_unless_refuse (fun _ => hseen.stops _) fun _ => ?_
        have hfound : Program.Follows (keyProtocol (.retry taskRunId key))
            (fun stage _ => stage = .parent parent)
            (TaskRunRepository.findFailedFiles R taskRunId) (.parent parent) := by
          refine Tx.follows_sql_bind.mpr fun stored => ⟨_, .read trivial, ?_⟩
          cases stored <;> rfl
        refine hfound.bind fun stage failedFiles hstage => ?_
        subst hstage
        split
        · exact stops_conflict
        · exact stops_conflict
        · rename_i failed rest
          have hresolved : Program.Follows (keyProtocol (.retry taskRunId key))
              (fun stage _ => stage = .parent parent)
              (resolveRetryFiles parent (failed :: rest)) (.parent parent) :=
            keyed_of_reads (resolveRetryFiles_reads _ _) hseen fun _ => rfl
          refine hresolved.bind fun stage retryFiles hstage => ?_
          subst hstage
          exact applyManualRun_keyed formed parent retryFiles

end TaskRunService

/-- Every request on runs follows the protocol of its key, and an operator request answers
with the run that it names. -/
theorem Call.transaction_keyed {call : Call} (hruns : call.concernsRuns = true) :
    Program.Follows (keyProtocol call) (fun stage reply => call.operatorKey? ≠ none →
      ∃ result, reply = .manual result ∧ stage = .names result.taskRunId)
      (call.transaction R) .fresh := by
  cases call <;> simp only [concernsRuns, Bool.false_eq_true] at hruns
  case start request =>
    have hstart : Program.Follows (keyProtocol (.start request)) (fun _ _ => True)
        (TaskRunService.start request) .fresh := by
      refine Tx.follows_unless_refuse (fun _ => stops_of_keyless rfl _) fun _ => ?_
      refine Tx.follows_unless_refuse (fun _ => stops_of_keyless rfl _) fun _ => ?_
      split
      · exact TaskRunService.startManual_keyed _ rfl request
      · rename_i hscheduled
        exact TaskRunService.startScheduled_keyed (by simpa using hscheduled)
    exact hstart.bind fun _ _ _ hkeyed => absurd rfl hkeyed
  case trigger taskId key =>
    exact (TaskRunService.requestManualRun_keyed taskId key).bind
      fun _ result hnames _ => ⟨result, rfl, hnames⟩
  case retry taskRunId key =>
    exact (TaskRunService.requestRetryRun_keyed taskRunId key).bind
      fun _ result hnames _ => ⟨result, rfl, hnames⟩
  case setEnabled taskId enabled =>
    have hswitch : Program.Follows (keyProtocol (.setEnabled taskId enabled)) (fun _ _ => True)
        (setTaskEnabled R taskId enabled) .fresh := by
      refine .of_calls (fun statement answer hswitching => ?_) (stops_of_keyless rfl)
        (fun _ => trivial) (setTaskEnabled_switching taskId enabled)
      cases hswitching with
      | read isRead => exact .read isRead
      | updatePendingManualFailed => exact .update rfl rfl
      | updateTaskEnabled => exact .update rfl rfl
    exact hswitch.bind fun _ _ _ hkeyed => absurd rfl hkeyed

end LabBridge.Server
