import LabBridge.Agent.ReliableDelivery
import LabBridge.Agent.AttentionRetry

/-!
# How a delivery leaves its job

In every turn of the loop the job stands in the stage of the request, and the attempts of its
delivery are those it began with and one for every failed call. Each way to end leaves the job
in a stage that the executor can rely on, unless the body is too large and the key of the job
does not survive being read back.
-/

namespace LabBridge.Agent

open ByteText JsonText Fallible LabBridge.Core Delivered

variable {J : Nlohmann} {store : AgentQueueStore} {db next : QueueDatabase} {key name : Bytes}
  {type : RequestType} {attempts : ℕ} {α : Type}

/-- Some history of the queue leads here. -/
def Reaches (J : Nlohmann) (store : AgentQueueStore) (db : QueueDatabase) : Prop :=
  ∃ history, QueueReachable J store history ∧ history.database = db

/-- A job stands in a stage, with the delivery of a request after a number of attempts. -/
structure Stands (db : QueueDatabase) (key : Bytes) (type : RequestType) (name : Bytes)
    (stage : Stage) (attempts : ℕ) : Prop where
  job : ∃ job, db.job? key = some job ∧ job.stage = stage ∧ job.effectiveStage = some type.stage
  delivery : ∃ delivery, db.delivery? key type = some delivery ∧
    delivery.idempotencyKey = name ∧ delivery.attemptCount = attempts

theorem Reaches.sound (reaches : Reaches J store db) : ∃ returned, QueueSound J returned db := by
  obtain ⟨history, reached, rfl⟩ := reaches
  exact ⟨history.returned, queueSound_of_reachable reached⟩

/-- An operation in its stage leads on. -/
theorem Reaches.run (reaches : Reaches J store db) (operation : QueueOperation)
    (inStage : operation.InStage db) (h : operation.run J store db = .ok next) :
    Reaches J store next := by
  obtain ⟨history, reached, rfl⟩ := reaches
  refine ⟨_, .step operation reached inStage, ?_⟩
  unfold QueueHistory.after
  rw [h]

/-! ## The operations of a turn -/

/-- The failure of the delivery that a job stands for is recorded, and the job waits or is
parked. -/
theorem Stands.recordDeliveryFailure (stands : Stands db key type name type.stage attempts)
    (reaches : Reaches J store db) (retryable : Bool) (errorKind : Bytes) (retryDelay now : ℤ) :
    ∃ recorded,
      Agent.recordDeliveryFailure type name retryable errorKind retryDelay now db =
        .ok recorded ∧ Reaches J store recorded ∧
      Stands recorded key type name (if retryable then .retryWait else .requiresAttention)
        (attempts + 1) ∧
      ∀ later, now + retryDelay ≤ later →
        deliveryRetryRemaining type name later recorded = .ok 0 := by
  obtain ⟨returned, sound⟩ := reaches.sound
  obtain ⟨job, hjob, hstage, -⟩ := stands.job
  obtain ⟨delivery, hdelivery, rfl, rfl⟩ := stands.delivery
  obtain ⟨hmem, rfl, rfl⟩ := mem_of_delivery? hdelivery
  have hfail := sound.recordDeliveryFailure_eq hmem retryable errorKind retryDelay now
  have hafter := sound.failJob hmem hjob hstage retryable errorKind (now + retryDelay)
  have hfailed : (db.failJob delivery retryable errorKind (now + retryDelay)).delivery?
      delivery.executionKey delivery.requestType = some (delivery.failed (now + retryDelay)) := by
    rw [delivery?_failJob, hdelivery, Option.map_some, if_pos]
    exact deliveryIs_iff.mpr ⟨rfl, rfl⟩
  refine ⟨_, hfail, ?_, ⟨?_, ?_⟩, ?_⟩
  · refine reaches.run (.recordDeliveryFailure delivery.requestType delivery.idempotencyKey
      retryable errorKind retryDelay now) ?_ hfail
    intro other hother hselected owner howner hkey _
    obtain ⟨htype, hname⟩ := deliveryIs_iff.mp hselected
    obtain rfl := sound.delivery_unique hother hmem htype hname
    rw [sound.job_unique howner (mem_of_job? hjob).1 (hkey.trans (mem_of_job? hjob).2.symm)]
    exact hstage
  · refine ⟨_, job?_failJob hjob (hstage ▸ delivery.requestType.stage_mem) retryable errorKind
      (now + retryDelay), rfl, ?_⟩
    rw [← hstage]
    cases retryable <;> rfl
  · exact ⟨_, hfailed, rfl, rfl⟩
  · intro later hlater
    have hfound := hafter.deliveryOf?_of_mem (mem_of_delivery? hfailed).1
    change QueueDatabase.deliveryOf? _ delivery.requestType delivery.idempotencyKey = _ at hfound
    unfold deliveryRetryRemaining
    rw [hfound]
    have hover : now + retryDelay - later ≤ 0 := by omega
    exact congrArg Except.ok (Int.max_eq_left hover)

/-- A job that waits, or that stands in the stage of its request, is resumed there. -/
theorem Stands.resumeDelivery {stage : Stage} (stands : Stands db key type name stage attempts)
    (hstage : stage = type.stage ∨ stage = .retryWait) (reaches : Reaches J store db) :
    ∃ resumed, Agent.resumeDelivery type name db = .ok resumed ∧ Reaches J store resumed ∧
      Stands resumed key type name type.stage attempts := by
  obtain ⟨returned, sound⟩ := reaches.sound
  obtain ⟨job, hjob, rfl, heffective⟩ := stands.job
  obtain ⟨delivery, hdelivery, rfl, rfl⟩ := stands.delivery
  obtain ⟨hmem, rfl, rfl⟩ := mem_of_delivery? hdelivery
  have hready : (db.jobs.any fun job =>
      jobIn delivery.executionKey [.retryWait] job && job.retryStage.isNone) = false := by
    rw [List.any_eq_false]
    intro other hother hboth
    rw [Bool.and_eq_true, jobIn_iff, List.mem_singleton] at hboth
    obtain ⟨⟨hkey, hwaits⟩, hnone⟩ := hboth
    rw [sound.job_unique hother (mem_of_job? hjob).1 (hkey.trans (mem_of_job? hjob).2.symm)]
      at hwaits hnone
    rw [PendingJob.effectiveStage, hwaits] at heffective
    change job.retryStage = _ at heffective
    rw [heffective] at hnone
    cases hnone
  have hresume : Agent.resumeDelivery delivery.requestType delivery.idempotencyKey db =
      .ok (db.updateJobs (jobIn delivery.executionKey [.retryWait]) resumed) := by
    unfold Agent.resumeDelivery
    rw [sound.deliveryOf?_of_mem hmem]
    exact if_neg (by rw [hready]; simp)
  refine ⟨_, hresume, ?_, ⟨?_, ⟨delivery, hdelivery, rfl, rfl⟩⟩⟩
  · exact reaches.run (.resumeDelivery delivery.requestType delivery.idempotencyKey) trivial hresume
  · rw [job?_updateJobs]
    · rw [hjob, Option.map_some]
      refine ⟨_, rfl, ?_⟩
      by_cases hwaits : job.stage = .retryWait
      · have hselected : jobIn delivery.executionKey [.retryWait] job = true :=
          jobIn_iff.mpr ⟨(mem_of_job? hjob).2, by simp [hwaits]⟩
        rw [PendingJob.effectiveStage, hwaits] at heffective
        change job.retryStage = _ at heffective
        have hback : (resumed job).stage = delivery.requestType.stage := by
          rw [resumed, heffective]
          rfl
        rw [if_pos hselected]
        refine ⟨hback, effectiveStage_of_executable hback ?_⟩
        exact delivery.requestType.isExecutableStage_stage
      · have hunselected : jobIn delivery.executionKey [.retryWait] job ≠ true := by
          rw [Ne, jobIn_iff, List.mem_singleton]
          exact fun h => hwaits h.2
        rw [if_neg hunselected]
        exact ⟨hstage.resolve_right hwaits, heffective⟩
    · exact fun _ => rfl

/-! ## Ends of a run -/

/-- The ways a delivery ends. -/
inductive DeliveryEnd
  | success
  | permanent
  | authRejected
  | stopped
  | oversized

/-- A failure that the loop tries again. -/
def TaskExecutionClientError.Retried (error : TaskExecutionClientError) : Prop :=
  error.isAuthRejection = false ∧ error.isTransient = true

/-- The calls of a run fail transiently up to the last ones. -/
def Delivered.Calls (run : Delivered α) (last : List (Except TaskExecutionClientError α)) : Prop :=
  ∃ retried : List TaskExecutionClientError, (∀ error ∈ retried, error.Retried) ∧
    run.calls = retried.map .error ++ last

/-- The number of calls that failed. -/
def Delivered.failedCalls (run : Delivered α) : ℕ :=
  run.calls.countP fun answer => !answer.isOk

/-- The stage a job is left in, and the stage that is kept for its return. -/
def QueueDatabase.Leaves (db : QueueDatabase) (key : Bytes) (stage : Stage)
    (retryStage : Option Stage → Prop) : Prop :=
  ∃ job, db.job? key = some job ∧ job.stage = stage ∧ retryStage job.retryStage

/-- How the loop ends: with an answer in the stage of the request; with the job parked by a
permanent failure; with a rejection, the job due at once; or by a stop that was seen, perhaps
before the loop. -/
def LoopEnds (key : Bytes) (type : RequestType) (name : Bytes) (tape : DeliveryTape α)
    (run : Delivered α) : DeliveryEnd → Prop
  | .success => ∃ value, run.Calls [.ok value] ∧ run.outcome = .ok value ∧
      run.database.Leaves key type.stage fun _ => True
  | .permanent => ∃ error, run.Calls [.error error] ∧ error.isAuthRejection = false ∧
      error.isTransient = false ∧ run.outcome = .error (.abandoned error.message) ∧
      run.database.Leaves key .requiresAttention fun retryStage => retryStage = some type.stage
  | .authRejected => ∃ turn ∈ tape.turns, ∃ error, turn.answer = .error error ∧
      run.Calls [.error error] ∧ error.isAuthRejection = true ∧
      run.outcome = .error (.rejected error) ∧
      run.database.Leaves key .retryWait (fun retryStage => retryStage = some type.stage) ∧
      ∀ now, turn.now ≤ now → deliveryRetryRemaining type name now run.database = .ok 0
  | .stopped => run.Calls [] ∧ run.outcome = .error (.abandoned stoppedText) ∧
      (tape.stopped = true ∨ run.calls.length = tape.turns.length ∨
        ∃ turn ∈ tape.turns, turn.stopped = true) ∧
      (run.database.Leaves key type.stage (fun _ => True) ∨
        run.database.Leaves key .retryWait fun retryStage => retryStage = some type.stage)
  | .oversized => False

/-- A run keeps the count of the attempts of its delivery, and calls as its tape answers. -/
structure Counts (key : Bytes) (type : RequestType) (attempts : ℕ) (turns : List (DeliveryTurn α))
    (run : Delivered α) : Prop where
  calls : run.calls <+: turns.map DeliveryTurn.answer
  attempts : (run.database.delivery? key type).map PendingDelivery.attemptCount =
    some (attempts + run.failedCalls)

theorem Delivered.Calls.called {run : Delivered α} {last : List (Except TaskExecutionClientError α)}
    (h : run.Calls last) {error : TaskExecutionClientError} (hretried : error.Retried) :
    (run.called (.error error)).Calls last := by
  obtain ⟨retried, hall, hcalls⟩ := h
  refine ⟨error :: retried, ?_, ?_⟩
  · intro other hother
    cases List.mem_cons.mp hother with
    | inl heq => exact heq ▸ hretried
    | inr hrest => exact hall other hrest
  · change _ :: run.calls = _
    rw [hcalls]
    rfl

/-- One more call that failed transiently changes neither the end of a run nor its count. -/
theorem LoopEnds.called {run : Delivered α} {turn : DeliveryTurn α} {turns : List (DeliveryTurn α)}
    {now : ℤ} {stopped : Bool} {ends : DeliveryEnd} {error : TaskExecutionClientError}
    (hretried : error.Retried) (h : LoopEnds key type name ⟨now, stopped, turns⟩ run ends) :
    LoopEnds key type name ⟨now, stopped, turn :: turns⟩ (run.called (.error error)) ends := by
  cases ends with
  | success =>
    obtain ⟨value, hcalls, hrest⟩ := h
    exact ⟨value, hcalls.called hretried, hrest⟩
  | permanent =>
    obtain ⟨last, hcalls, hrest⟩ := h
    exact ⟨last, hcalls.called hretried, hrest⟩
  | authRejected =>
    obtain ⟨other, hother, last, hanswer, hcalls, hrest⟩ := h
    exact ⟨other, List.mem_cons_of_mem _ hother, last, hanswer, hcalls.called hretried, hrest⟩
  | stopped =>
    obtain ⟨hcalls, houtcome, hseen, hleaves⟩ := h
    refine ⟨hcalls.called hretried, houtcome, ?_, hleaves⟩
    obtain hbefore | hlength | ⟨other, hother, hstop⟩ := hseen
    · exact .inl hbefore
    · exact .inr (.inl (congrArg Nat.succ hlength))
    · exact .inr (.inr ⟨other, List.mem_cons_of_mem _ hother, hstop⟩)
  | oversized => exact h

theorem Counts.called {run : Delivered α} {turn : DeliveryTurn α} {turns : List (DeliveryTurn α)}
    {error : TaskExecutionClientError} (hanswer : turn.answer = .error error)
    (h : Counts key type (attempts + 1) turns run) :
    Counts key type attempts (turn :: turns) (run.called (.error error)) where
  calls := by
    rw [List.map_cons, hanswer]
    exact List.cons_prefix_cons.mpr ⟨rfl, h.calls⟩
  attempts := by
    have hfailed : (run.called (.error error)).failedCalls = run.failedCalls + 1 := by
      exact List.countP_cons_of_pos rfl
    rw [hfailed, Nat.add_comm run.failedCalls 1, ← Nat.add_assoc]
    exact h.attempts

/-- A run without further calls keeps the count. -/
theorem Counts.none {turns : List (DeliveryTurn α)} {stage : Stage} {exception : DeliveryException}
    (stands : Stands db key type name stage attempts) :
    Counts key type attempts turns (raised db exception) where
  calls := List.nil_prefix
  attempts := by
    obtain ⟨delivery, hdelivery, -, hattempts⟩ := stands.delivery
    exact (congrArg _ hdelivery).trans (congrArg some hattempts)

theorem Stands.leaves {stage : Stage} (stands : Stands db key type name stage attempts) :
    db.Leaves key stage fun _ => True := by
  obtain ⟨job, hjob, hstage, -⟩ := stands.job
  exact ⟨job, hjob, hstage, trivial⟩

/-- A job that waits or is parked keeps the stage of the request. -/
theorem Stands.leaves_kept {stage : Stage} (stands : Stands db key type name stage attempts)
    (hexecutable : isExecutableStage stage = false) :
    db.Leaves key stage fun retryStage => retryStage = some type.stage := by
  obtain ⟨job, hjob, rfl, heffective⟩ := stands.job
  rw [PendingJob.effectiveStage, hexecutable] at heffective
  exact ⟨job, hjob, rfl, heffective⟩

/-- The loop ends in one of its ways, from whatever turn it is in. -/
theorem deliverLoop_ends (client : ReliableDeliveryClient) (now : ℤ) (stopped : Bool)
    (turns : List (DeliveryTurn α)) (stands : Stands db key type name type.stage attempts)
    (reaches : Reaches J store db) :
    (∃ ends, LoopEnds key type name ⟨now, stopped, turns⟩
      (client.deliverLoop type name attempts db turns) ends) ∧
      Counts key type attempts turns (client.deliverLoop type name attempts db turns) ∧
      Reaches J store (client.deliverLoop type name attempts db turns).database := by
  induction turns generalizing db attempts with
  | nil =>
    rw [ReliableDeliveryClient.deliverLoop]
    refine ⟨⟨.stopped, ⟨[], ?_, rfl⟩, rfl, .inr (.inl rfl), .inl stands.leaves⟩,
      .none stands, reaches⟩
    exact fun error h => absurd h List.not_mem_nil
  | cons turn later ih =>
    rw [ReliableDeliveryClient.deliverLoop]
    cases hanswer : turn.answer with
    | ok value =>
      obtain ⟨job, hjob, hstage, -⟩ := stands.job
      obtain ⟨delivery, hdelivery, -, hattempts⟩ := stands.delivery
      refine ⟨⟨.success, value, ⟨[], ?_, rfl⟩, rfl, job, hjob, hstage, trivial⟩, ⟨?_, ?_⟩, reaches⟩
      · exact fun error h => absurd h List.not_mem_nil
      · rw [List.map_cons, hanswer]
        exact List.cons_prefix_cons.mpr ⟨rfl, List.nil_prefix⟩
      · exact (congrArg _ hdelivery).trans (congrArg some hattempts)
    | error error =>
      dsimp only
      by_cases hauth : error.isAuthRejection = true
      · obtain ⟨recorded, hrecord, hreaches, hstands, hdue⟩ :=
          stands.recordDeliveryFailure reaches true error.kind.name 0 turn.now
        rw [if_pos hauth, hrecord]
        refine ⟨⟨.authRejected, turn, List.mem_cons_self, error, hanswer, ⟨[], ?_, rfl⟩, hauth, rfl,
          hstands.leaves_kept rfl, ?_⟩, .called hanswer (.none hstands), hreaches⟩
        · exact fun error h => absurd h List.not_mem_nil
        · rw [add_zero] at hdue
          exact hdue
      · rw [if_neg hauth]
        rw [Bool.not_eq_true] at hauth
        obtain ⟨recorded, hrecord, hreaches, hstands, -⟩ :=
          stands.recordDeliveryFailure reaches error.isTransient error.kind.name
            (client.retryDelay (name ++ text "\n" ++ type.toText) (attempts + 1)) turn.now
        rw [hrecord]
        dsimp only [storing]
        by_cases htransient : error.isTransient = true
        · rw [htransient] at hstands
          rw [htransient, Bool.not_true, if_neg Bool.false_ne_true]
          have hretried : error.Retried := ⟨hauth, htransient⟩
          by_cases hstopped : turn.stopped = true
          · rw [if_pos hstopped]
            refine ⟨⟨.stopped, ?_, rfl, .inr (.inr ⟨turn, List.mem_cons_self, hstopped⟩),
              .inr (hstands.leaves_kept rfl)⟩, .called hanswer (.none hstands), hreaches⟩
            refine ⟨[error], fun other hother => ?_, rfl⟩
            rw [List.mem_singleton.mp hother]
            exact hretried
          · obtain ⟨resumed, hresume, hresumed, hback⟩ :=
              hstands.resumeDelivery (.inr rfl) hreaches
            rw [if_neg hstopped, hresume]
            obtain ⟨⟨ends, hends⟩, hcounts, hfinal⟩ := ih hback hresumed
            exact ⟨⟨ends, hends.called hretried⟩, hcounts.called hanswer, hfinal⟩
        · rw [Bool.not_eq_true] at htransient
          rw [htransient] at hstands
          rw [htransient, Bool.not_false, if_pos rfl]
          refine ⟨⟨.permanent, error, ⟨[], ?_, rfl⟩, hauth, htransient, rfl,
            hstands.leaves_kept rfl⟩, .called hanswer (.none hstands), hreaches⟩
          exact fun error h => absurd h List.not_mem_nil

/-! ## The whole delivery -/

/-- How a delivery ends: a body that is too large parks the job without a call, and every other
ends as the loop does. -/
def EndsIn (client : ReliableDeliveryClient) (key : Bytes) (type : RequestType) (name body : Bytes)
    (tape : DeliveryTape α) (run : Delivered α) : DeliveryEnd → Prop
  | .oversized => client.maxRequestBodyBytes < body.length ∧ run.calls = [] ∧
      run.outcome = .error (.abandoned (client.oversizedText type body.length)) ∧
      run.database.Leaves key .requiresAttention fun retryStage => retryStage = some type.stage
  | ends => body.length ≤ client.maxRequestBodyBytes ∧ LoopEnds key type name tape run ends

/-- A delivery ends in exactly one way and counts its failed calls. -/
structure Settles (client : ReliableDeliveryClient) (key : Bytes) (type : RequestType)
    (delivery : PendingDelivery) (body : Bytes) (tape : DeliveryTape α) (run : Delivered α) :
    Prop where
  ends : ∃! ends, EndsIn client key type delivery.idempotencyKey body tape run ends
  counts : Counts key type delivery.attemptCount tape.turns run

/-- The way a delivery ended, read off its end. -/
def Delivered.endOf (client : ReliableDeliveryClient) (key body : Bytes) (run : Delivered α) :
    DeliveryEnd :=
  if client.maxRequestBodyBytes < body.length then .oversized
  else
    match run.outcome with
    | .ok _ => .success
    | .error (.rejected _) => .authRejected
    | .error _ =>
      if (run.database.job? key).any fun job => job.stage == .requiresAttention then .permanent
      else .stopped

theorem any_attention_of_leaves {stage : Stage} {retryStage : Option Stage → Prop}
    (h : db.Leaves key stage retryStage) :
    ((db.job? key).any fun job => job.stage == .requiresAttention) =
      (stage == .requiresAttention) := by
  obtain ⟨job, hjob, rfl, -⟩ := h
  rw [hjob]
  rfl

theorem EndsIn.eq_endOf {client : ReliableDeliveryClient} {body : Bytes} {tape : DeliveryTape α}
    {run : Delivered α} {ends : DeliveryEnd}
    (h : EndsIn client key type name body tape run ends) : ends = run.endOf client key body := by
  unfold Delivered.endOf
  cases ends with
  | success =>
    obtain ⟨hfits, value, -, houtcome, -⟩ := h
    rw [if_neg (Nat.not_lt.mpr hfits), houtcome]
  | permanent =>
    obtain ⟨hfits, error, -, -, -, houtcome, hleaves⟩ := h
    rw [if_neg (Nat.not_lt.mpr hfits), houtcome]
    dsimp only
    rw [any_attention_of_leaves hleaves]
    rfl
  | authRejected =>
    obtain ⟨hfits, turn, -, error, -, -, -, houtcome, -⟩ := h
    rw [if_neg (Nat.not_lt.mpr hfits), houtcome]
  | stopped =>
    obtain ⟨hfits, -, houtcome, -, hleaves⟩ := h
    rw [if_neg (Nat.not_lt.mpr hfits), houtcome]
    dsimp only
    cases hleaves with
    | inl hstands =>
      rw [any_attention_of_leaves hstands]
      cases type <;> rfl
    | inr hwaits =>
      rw [any_attention_of_leaves hwaits]
      rfl
  | oversized => exact (if_pos h.1).symm

/-- A delivery that ends in some way ends in no other. -/
theorem existsUnique_endsIn {client : ReliableDeliveryClient} {body : Bytes}
    {tape : DeliveryTape α} {run : Delivered α} :
    (∃! ends, EndsIn client key type name body tape run ends) ↔
      ∃ ends, EndsIn client key type name body tape run ends := by
  constructor
  · exact ExistsUnique.exists
  · rintro ⟨ends, h⟩
    exact ⟨ends, h, fun other hother => hother.eq_endOf.trans h.eq_endOf.symm⟩

/-- A job that can be executed in the stage of a request stands for its delivery. -/
theorem stands_of_executionStage {returned : Bytes → List Bytes} {job : PendingJob}
    {delivery : PendingDelivery} (sound : QueueSound J returned db) (hjob : job ∈ db.jobs)
    (hstage : job.executionStage = some type.stage)
    (hdelivery : db.delivery? job.executionKey type = some delivery) :
    (job.stage = type.stage ∨ job.stage = .retryWait) ∧
      Stands db job.executionKey type delivery.idempotencyKey job.stage delivery.attemptCount := by
  have hfound := sound.job?_of_mem hjob
  unfold PendingJob.executionStage at hstage
  by_cases hwaits : job.stage = .retryWait
  · rw [if_pos hwaits] at hstage
    refine ⟨.inr hwaits, ⟨⟨job, hfound, rfl, ?_⟩, ⟨delivery, hdelivery, rfl, rfl⟩⟩⟩
    rw [PendingJob.effectiveStage, hwaits]
    exact hstage
  · rw [if_neg hwaits] at hstage
    have hown : job.stage = type.stage := Option.some.inj hstage
    refine ⟨.inl hown, ⟨⟨job, hfound, rfl, ?_⟩, ⟨delivery, hdelivery, rfl, rfl⟩⟩⟩
    exact effectiveStage_of_executable hown type.isExecutableStage_stage

/-- A job whose delivery was not attempted stands in the stage of the request. -/
theorem stage_of_unattempted {rawFileIds : List Bytes} {job : PendingJob}
    {delivery : PendingDelivery} (sound : JobSound J db rawFileIds job)
    (hstage : job.executionStage = some type.stage)
    (hdelivery : db.delivery? job.executionKey type = some delivery)
    (hnone : delivery.attemptCount = 0) : job.stage = type.stage := by
  unfold PendingJob.executionStage at hstage
  by_cases hwaits : job.stage = .retryWait
  · rw [if_pos hwaits] at hstage
    obtain ⟨other, hother, found, hfound, hattempts⟩ := sound.waiting hwaits
    obtain rfl : other = type := by
      rw [hstage] at hother
      cases other <;> cases type <;> first | rfl | cases hother
    rw [hdelivery] at hfound
    cases hfound
    omega
  · rw [if_neg hwaits] at hstage
    exact Option.some.inj hstage

/-- A body that fits is delivered by the loop, after the rest of an earlier delay. -/
theorem deliver_of_fits {returned : Bytes → List Bytes} {job : PendingJob}
    {delivery : PendingDelivery} {client : ReliableDeliveryClient} {body : Bytes}
    (sound : QueueSound J returned db) (reaches : Reaches J store db) (hjob : job ∈ db.jobs)
    (hstage : job.executionStage = some type.stage)
    (hdelivery : db.delivery? job.executionKey type = some delivery)
    (hfits : body.length ≤ client.maxRequestBodyBytes) (tape : DeliveryTape α) :
    (∃ ends, LoopEnds job.executionKey type delivery.idempotencyKey tape
      (client.deliver type delivery.idempotencyKey body tape db) ends) ∧
      Counts job.executionKey type delivery.attemptCount tape.turns
        (client.deliver type delivery.idempotencyKey body tape db) ∧
      Reaches J store (client.deliver type delivery.idempotencyKey body tape db).database := by
  obtain ⟨hready, hstands⟩ := stands_of_executionStage sound hjob hstage hdelivery
  obtain ⟨hmem, hkey, htype⟩ := mem_of_delivery? hdelivery
  have hfound := sound.deliveryOf?_of_mem hmem
  rw [htype] at hfound
  have hcount : deliveryAttemptCount type delivery.idempotencyKey db =
      .ok delivery.attemptCount := by
    rw [deliveryAttemptCount, hfound]
  unfold ReliableDeliveryClient.deliver
  rw [if_neg (Nat.not_lt.mpr hfits), hcount]
  dsimp only [storing]
  by_cases hattempted : 0 < delivery.attemptCount
  · rw [if_pos hattempted, deliveryRetryRemaining, hfound]
    dsimp only
    by_cases hstopped : tape.stopped = true
    · rw [if_pos hstopped]
      refine ⟨⟨.stopped, ⟨[], ?_, rfl⟩, rfl, .inl hstopped, ?_⟩, .none hstands, reaches⟩
      · exact fun error h => absurd h List.not_mem_nil
      · obtain hown | hwaits := hready
        · exact .inl (hown ▸ hstands.leaves)
        · exact .inr (hwaits ▸ hstands.leaves_kept (by rw [hwaits]; rfl))
    · obtain ⟨resumed, hresume, hreaches, hback⟩ := hstands.resumeDelivery hready reaches
      rw [if_neg hstopped, hresume]
      exact deliverLoop_ends client tape.now tape.stopped tape.turns hback hreaches
  · rw [if_neg hattempted]
    have hown := stage_of_unattempted (sound.jobs job hjob) hstage hdelivery (by omega)
    rw [hown] at hstands
    exact deliverLoop_ends client tape.now tape.stopped tape.turns hstands reaches

/-! ## Bodies that are too large -/

/-- The job whose body is too large is parked by its key as it is read back. -/
theorem deliver_of_oversized {returned : Bytes → List Bytes} {delivery : PendingDelivery}
    {client : ReliableDeliveryClient} {body : Bytes} (sound : QueueSound J returned db)
    (hdelivery : db.delivery? key type = some delivery)
    (hlarge : client.maxRequestBodyBytes < body.length) (tape : DeliveryTape α) :
    client.deliver type delivery.idempotencyKey body tape db =
      storing db (markRequiresAttention (readText key) (text "payload_too_large") db) fun parked =>
        raised parked (.abandoned (client.oversizedText type body.length)) := by
  obtain ⟨hmem, hkey, htype⟩ := mem_of_delivery? hdelivery
  have hfound := sound.deliveryOf?_of_mem hmem
  rw [htype] at hfound
  unfold ReliableDeliveryClient.deliver ReliableDeliveryClient.abandonOversizedBody
  rw [if_pos hlarge, deliveryExecutionKey, hfound]
  dsimp only [storing]
  rw [hkey]

/-- Parking a job leaves every other one in its stage. -/
theorem job?_markRequiresAttention {other errorKind : Bytes} {parked : QueueDatabase}
    (h : markRequiresAttention other errorKind db = .ok parked) (hne : other ≠ key) :
    parked.job? key = db.job? key := by
  unfold markRequiresAttention at h
  split at h
  · exact absurd h throw_ne_ok
  · rw [bind_eq_ok] at h
    obtain ⟨stage, -, h⟩ := h
    obtain ⟨-, rfl⟩ := updateJob_eq_ok.mp h
    rw [job?_updateJobs]
    · cases hjob : db.job? key with
      | none => rfl
      | some job =>
        rw [Option.map_some, if_neg]
        rw [jobOf, beq_iff_eq, (mem_of_job? hjob).2]
        exact hne.symm
    · exact fun _ => rfl

/-- A delivery settles exactly when its body fits or its job can be read back under its key. -/
theorem settles_iff {returned : Bytes → List Bytes} {job : PendingJob} {delivery : PendingDelivery}
    (sound : QueueSound J returned db) (reaches : Reaches J store db) (hjob : job ∈ db.jobs)
    (hstage : job.executionStage = some type.stage)
    (hdelivery : db.delivery? job.executionKey type = some delivery)
    (client : ReliableDeliveryClient) (body : Bytes) (tape : DeliveryTape α) :
    Settles client job.executionKey type delivery body tape
        (client.deliver type delivery.idempotencyKey body tape db) ↔
      (body.length ≤ client.maxRequestBodyBytes ∨ 0 ∉ job.executionKey) := by
  have hfound := sound.job?_of_mem hjob
  by_cases hfits : body.length ≤ client.maxRequestBodyBytes
  · obtain ⟨⟨ends, hends⟩, hcounts, -⟩ :=
      deliver_of_fits sound reaches hjob hstage hdelivery hfits tape
    refine iff_of_true ⟨existsUnique_endsIn.mpr ⟨ends, ?_⟩, hcounts⟩ (.inl hfits)
    cases ends with
    | oversized => exact hends.elim
    | success | permanent | authRejected | stopped => exact ⟨hfits, hends⟩
  · have hlarge := Nat.lt_of_not_le hfits
    have hrun := deliver_of_oversized sound hdelivery hlarge tape
    by_cases hzero : 0 ∉ job.executionKey
    · refine iff_of_true ?_ (.inr hzero)
      have hpark := sound.markRequiresAttention_eq hfound hstage type.isExecutableStage_stage
        (text "payload_too_large")
      rw [readText_of_notMem hzero, hpark] at hrun
      rw [hrun]
      constructor
      · rw [existsUnique_endsIn]
        exact ⟨.oversized, hlarge, rfl, rfl, _, job?_parkJob hfound _, rfl, rfl⟩
      · exact ⟨List.nil_prefix, congrArg _ hdelivery⟩
    · refine iff_of_false ?_ (not_or.mpr ⟨hfits, hzero⟩)
      intro hsettles
      obtain ⟨ends, hends, -⟩ := hsettles.ends
      have hoversized : ends = .oversized := hends.eq_endOf.trans (if_pos hlarge)
      subst hoversized
      obtain ⟨-, -, -, parked, hparked, hattention, -⟩ := hends
      have hother : readText job.executionKey ≠ job.executionKey := by
        rwa [Ne, readText_eq_self_iff]
      have hsame : (client.deliver type delivery.idempotencyKey body tape db).database.job?
          job.executionKey = some job := by
        rw [hrun]
        cases hmark : markRequiresAttention (readText job.executionKey)
            (text "payload_too_large") db with
        | error error => exact hfound
        | ok after => exact (job?_markRequiresAttention hmark hother).trans hfound
      obtain rfl : job = parked := Option.some.inj (hsame.symm.trans hparked)
      obtain ⟨hready, -⟩ := stands_of_executionStage sound hjob hstage hdelivery
      rw [hattention] at hready
      cases type <;> simp [RequestType.stage] at hready

/-- The delivery of the request of a job's stage is in the queue. -/
theorem JobSound.delivery {rawFileIds : List Bytes} {job : PendingJob}
    (sound : JobSound J db rawFileIds job) (hstage : job.effectiveStage = some type.stage) :
    ∃ delivery, db.delivery? job.executionKey type = some delivery := by
  cases type with
  | start => exact sound.start
  | manifest => exact sound.manifest hstage
  | report => exact sound.report hstage

/-- A job that is executed in a stage is in that stage once it no longer waits. -/
theorem effectiveStage_of_executionStage {job : PendingJob}
    (hstage : job.executionStage = some type.stage) : job.effectiveStage = some type.stage := by
  unfold PendingJob.executionStage at hstage
  by_cases hwaits : job.stage = .retryWait
  · rw [if_pos hwaits] at hstage
    rw [PendingJob.effectiveStage, hwaits]
    exact hstage
  · rw [if_neg hwaits] at hstage
    exact effectiveStage_of_executable (Option.some.inj hstage) type.isExecutableStage_stage

/-- A client that sends bodies of one byte. -/
def smallClient : ReliableDeliveryClient := ⟨1, 1, 1, by decide, by decide, by decide⟩

/-- A queue with one job whose key ends in a zero byte. -/
def zeroKeyHistory : QueueHistory :=
  QueueHistory.after compactNlohmann pathStore {}
    (.beginJob pathTask { pathStart with executionKey := text "k" ++ [0] } [] (text "s"))

theorem reachable_zeroKeyHistory : QueueReachable compactNlohmann pathStore zeroKeyHistory :=
  .step _ .fresh trivial

/-- Whatever the client answers and whenever a stop is seen, the delivery of a pending request
ends in exactly one of its ways with its failed calls counted, exactly when the body fits or the
key of the job holds no zero byte. -/
theorem deliver_settles_iff {history : QueueHistory} (reached : QueueReachable J store history)
    {job : PendingJob} (hjob : job ∈ history.database.jobs)
    (hstage : job.executionStage = some type.stage) :
    ∃ delivery, history.database.delivery? job.executionKey type = some delivery ∧
      ∀ (client : ReliableDeliveryClient) (body : Bytes) (tape : DeliveryTape α),
        Settles client job.executionKey type delivery body tape
            (client.deliver type delivery.idempotencyKey body tape history.database) ↔
          (body.length ≤ client.maxRequestBodyBytes ∨ 0 ∉ job.executionKey) := by
  have sound := queueSound_of_reachable reached
  obtain ⟨delivery, hdelivery⟩ :=
    (sound.jobs job hjob).delivery (effectiveStage_of_executionStage hstage)
  exact ⟨delivery, hdelivery, settles_iff sound ⟨history, reached, rfl⟩ hjob hstage hdelivery⟩

theorem deliver_settles_iff_waiting : ∃ job ∈ waitingHistory.database.jobs, ∃ delivery,
    waitingHistory.database.delivery? job.executionKey .start = some delivery ∧
      ∀ (client : ReliableDeliveryClient) (body : Bytes) (tape : DeliveryTape Bytes),
        Settles client job.executionKey .start delivery body tape
            (client.deliver .start delivery.idempotencyKey body tape waitingHistory.database) ↔
          (body.length ≤ client.maxRequestBodyBytes ∨ 0 ∉ job.executionKey) := by
  have hjob : ∃ job ∈ waitingHistory.database.jobs, job.executionStage = some .startPending := by
    decide +kernel
  obtain ⟨job, hmem, hstage⟩ := hjob
  exact ⟨job, hmem, deliver_settles_iff reachable_waitingHistory hmem hstage⟩

/-- A body that is too large does not park a job whose key holds a zero byte. -/
theorem not_deliver_settles :
    ¬∀ history : QueueHistory, QueueReachable compactNlohmann pathStore history →
      ∀ job ∈ history.database.jobs, ∀ type : RequestType,
        job.executionStage = some type.stage → ∀ delivery : PendingDelivery,
          history.database.delivery? job.executionKey type = some delivery →
          ∀ (client : ReliableDeliveryClient) (body : Bytes) (tape : DeliveryTape Bytes),
            Settles client job.executionKey type delivery body tape
              (client.deliver type delivery.idempotencyKey body tape history.database) := by
  intro claimed
  have sound := queueSound_of_reachable reachable_zeroKeyHistory
  have hjob : ∃ job ∈ zeroKeyHistory.database.jobs, job.executionKey = text "k" ++ [0] ∧
      job.executionStage = some RequestType.start.stage := by decide +kernel
  obtain ⟨job, hmem, hkey, hstage⟩ := hjob
  have heffective : job.effectiveStage = some RequestType.start.stage :=
    effectiveStage_of_executionStage hstage
  obtain ⟨delivery, hdelivery⟩ := (sound.jobs job hmem).delivery heffective
  have hsettles := claimed zeroKeyHistory reachable_zeroKeyHistory job hmem .start hstage delivery
    hdelivery smallClient (text "{}") ⟨0, false, []⟩
  have hcondition := (settles_iff sound ⟨zeroKeyHistory, reachable_zeroKeyHistory, rfl⟩ hmem hstage
    hdelivery smallClient (text "{}") ⟨0, false, []⟩).mp hsettles
  cases hcondition with
  | inl hfits => exact absurd hfits (by decide)
  | inr hzero =>
    rw [hkey] at hzero
    exact hzero (List.mem_append_right _ (List.mem_singleton_self _))

end LabBridge.Agent
