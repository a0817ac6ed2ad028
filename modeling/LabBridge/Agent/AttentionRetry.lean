import LabBridge.Agent.QueueRows

/-!
# A parked job that is returned to work

A job is parked by an operation of its own or by a permanent failure of its delivery, and the
maintenance tool returns it to the stage it was parked in with everything it had. A failed
delivery parks only a job that stands in the stage of the delivery itself.
-/

namespace LabBridge.Agent

open ByteText JsonText LabBridge.Core

variable {J : Nlohmann} {store : AgentQueueStore} {db before parked after : QueueDatabase}
  {key : Bytes} {job : PendingJob} {returned : Bytes → List Bytes} {stage : Stage}

/-- The ways to park a job. -/
inductive Parking
  | attention (errorKind : Bytes)
  | permanentFailure (type : RequestType) (idempotencyKey errorKind : Bytes) (retryDelay now : ℤ)

/-- The queue after a job was parked. -/
def Parking.run (key : Bytes) : Parking → QueueDatabase → Except AgentError QueueDatabase
  | .attention errorKind, db => markRequiresAttention key errorKind db
  | .permanentFailure type idempotencyKey errorKind retryDelay now, db =>
    recordDeliveryFailure type idempotencyKey false errorKind retryDelay now db

/-- A delivery can park the job that stands in its stage. -/
def Parking.Parks (db : QueueDatabase) (job : PendingJob) (stage : Stage) : Parking → Prop
  | .attention _ => True
  | .permanentFailure type idempotencyKey _ _ _ => type.stage = stage ∧ job.stage = stage ∧
      (db.delivery? job.executionKey type).map PendingDelivery.idempotencyKey = some idempotencyKey

/-- A job is back at a stage with everything it was parked with, need not wait, is loaded as
before it was parked, and no other job was touched. -/
structure ReturnsTo (J : Nlohmann) (key : Bytes) (stage : Stage)
    (before parked after : QueueDatabase) : Prop where
  job : ∃ job, parked.job? key = some job ∧ job.stage = .requiresAttention ∧
    after.job? key = some (job.unparked stage)
  deliveries : after.deliveriesOf key = (parked.deliveriesOf key).map PendingDelivery.due
  files : after.filesOf key = parked.filesOf key
  loaded : loadJob J after key = loadJob J before key
  due : ∀ delivery ∈ after.deliveriesOf key, ∀ now,
    deliveryRetryRemaining delivery.requestType delivery.idempotencyKey now after = .ok 0
  others : after.without key = before.without key

/-! ## Loading -/

/-- What a job keeps while it is parked, fails or returns. -/
def PendingJob.facts (job : PendingJob) : PendingJob :=
  { job with
    stage := .startPending, retryStage := none, attemptCount := 0, nextAttemptAt := none,
    lastErrorKind := none }

/-- A job is loaded alike when its facts, its requests and its plan are the same. -/
theorem readRecoveredJob_congr {changed : PendingJob} {start restart : PendingDelivery}
    (hfacts : changed.facts = job.facts) (hstage : changed.executionStage = job.executionStage)
    (hstart : restart.requestJson = start.requestJson)
    (hrequests : ∀ type, (after.delivery? job.executionKey type).map PendingDelivery.requestJson =
      (before.delivery? job.executionKey type).map PendingDelivery.requestJson)
    (hfiles : after.files = before.files) :
    readRecoveredJob J after changed restart = readRecoveredJob J before job start := by
  have hshared : ∀ {α : Type} (field : PendingJob → α), (∀ job, field job.facts = field job) →
      field changed = field job := by
    intro α field hfield
    rw [← hfield changed, hfacts, hfield]
  have hkey := hshared PendingJob.executionKey fun _ => rfl
  have htask := hshared PendingJob.taskConfigJson fun _ => rfl
  have hretry := hshared PendingJob.retryFilesJson fun _ => rfl
  have hfailures := hshared PendingJob.fileFailuresJson fun _ => rfl
  have hrun := hshared PendingJob.taskRunId fun _ => rfl
  have hplan : recoverFilePlan after = recoverFilePlan before := by
    funext other
    rw [recoverFilePlan, QueueDatabase.filesOf, hfiles, recoverFilePlan, QueueDatabase.filesOf]
  simp only [readRecoveredJob, readRequest, hkey, htask, hretry, hfailures, hrun, hstart, hstage,
    hrequests, hplan]

theorem loadJob_congr {changed : PendingJob} (hjob : before.job? key = some job)
    (hchanged : after.job? key = some changed) (hfacts : changed.facts = job.facts)
    (hstage : job.executionStage = some stage) (hsame : changed.executionStage = some stage)
    (hexecutable : isExecutableStage stage = true)
    (hrequests : ∀ type, (after.delivery? key type).map PendingDelivery.requestJson =
      (before.delivery? key type).map PendingDelivery.requestJson)
    (hfiles : after.files = before.files) : loadJob J after key = loadJob J before key := by
  have hactive : ∀ {job : PendingJob}, job.executionStage = some stage →
      job.stage ≠ .requiresAttention := by
    intro job h hparked
    rw [PendingJob.executionStage, hparked, if_neg (by simp)] at h
    rw [← Option.some.inj h] at hexecutable
    cases hexecutable
  have hstart := hrequests .start
  unfold loadJob
  rw [hjob, hchanged]
  cases hbefore : before.delivery? key .start with
  | none =>
    rw [hbefore, Option.map_none, Option.map_eq_none_iff] at hstart
    rw [hstart]
  | some start =>
    rw [hbefore, Option.map_some, Option.map_eq_some_iff] at hstart
    obtain ⟨restart, hrestart, hsent⟩ := hstart
    rw [hrestart]
    dsimp only
    rw [if_neg (hactive hstage), if_neg (hactive hsame)]
    rw [← (mem_of_job? hjob).2] at hrequests
    exact readRecoveredJob_congr hfacts (hsame.trans hstage.symm) hsent hrequests hfiles

/-! ## Returning -/

/-- A parked job returns to the stage it remembers, and a second retry finds it returned. -/
theorem returnJob_returns (sound : QueueSound J returned parked)
    (hjob : parked.job? key = some job) (hparked : job.stage = .requiresAttention)
    (hstage : job.retryStage = some stage) (hexecutable : isExecutableStage stage = true)
    (hothers : parked.without key = before.without key)
    (hloaded : loadJob J (parked.returnJob key stage) key = loadJob J before key) :
    retryAttentionJob key parked = .ok (.resumed, parked.returnJob key stage) ∧
      ReturnsTo J key stage before parked (parked.returnJob key stage) ∧
      retryAttentionJob key (parked.returnJob key stage) =
        .ok (.notAttention, parked.returnJob key stage) := by
  have hretry := retryAttentionJob_eq hjob hparked hstage hexecutable
  have hafter := sound.retryAttentionJob hretry
  have hback : (parked.returnJob key stage).job? key = some (job.unparked stage) :=
    job?_returnJob hjob hparked
  refine ⟨hretry, ?_, ?_⟩
  · constructor
    · exact ⟨job, hjob, hparked, hback⟩
    · exact deliveriesOf_returnJob
    · rfl
    · exact hloaded
    · intro delivery hdelivery now
      have hfound := hafter.deliveryOf?_of_mem (List.mem_of_mem_filter hdelivery)
      rw [deliveriesOf_returnJob] at hdelivery
      obtain ⟨old, -, rfl⟩ := List.mem_map.mp hdelivery
      unfold deliveryRetryRemaining
      erw [hfound]
      rfl
    · exact without_returnJob.trans hothers
  · apply retryAttentionJob_of_not_parked hback
    intro hstill
    change stage = _ at hstill
    rw [hstill] at hexecutable
    cases hexecutable

/-- A stage that can be executed is the stage a job in it is executed in. -/
theorem executionStage_of_executable (h : job.stage = stage)
    (hexecutable : isExecutableStage stage = true) : job.executionStage = some stage := by
  have hactive : job.stage ≠ .retryWait := by
    rintro hwaits
    rw [← h, hwaits] at hexecutable
    cases hexecutable
  rw [PendingJob.executionStage, if_neg hactive, h]

/-- The queue after a job was parked loads the job, once it is returned, as before. -/
theorem loadJob_returnJob (J : Nlohmann) {kept : PendingJob} (hjob : before.job? key = some job)
    (hstage : job.executionStage = some stage) (hexecutable : isExecutableStage stage = true)
    (hkept : parked.job? key = some kept) (hparked : kept.stage = .requiresAttention)
    (hfacts : kept.facts = job.facts)
    (hrequests : ∀ type, (parked.delivery? key type).map PendingDelivery.requestJson =
      (before.delivery? key type).map PendingDelivery.requestJson)
    (hfiles : parked.files = before.files) :
    loadJob J (parked.returnJob key stage) key = loadJob J before key := by
  apply loadJob_congr hjob (job?_returnJob hkept hparked) hfacts hstage
  · exact executionStage_of_executable rfl hexecutable
  · exact hexecutable
  · exact fun type => (delivery?_returnJob type).trans (hrequests type)
  · exact hfiles

/-- A job that was parked by an operation of its own returns. -/
theorem markRequiresAttention_returns (sound : QueueSound J returned db)
    (hjob : db.job? key = some job) (hstage : job.executionStage = some stage)
    (hexecutable : isExecutableStage stage = true) (errorKind : Bytes) :
    ∃ parked after, markRequiresAttention key errorKind db = .ok parked ∧
      retryAttentionJob key parked = .ok (.resumed, after) ∧
      ReturnsTo J key stage db parked after ∧
      retryAttentionJob key after = .ok (.notAttention, after) := by
  have hpark := sound.markRequiresAttention_eq hjob hstage hexecutable errorKind
  have hkept : (db.parkJob key stage errorKind).job? key = some (job.parked stage errorKind) :=
    job?_parkJob hjob errorKind
  have hothers : (db.parkJob key stage errorKind).without key = db.without key := by
    apply without_updateJobs
    · intro other hother
      simpa [jobOf] using hother
    · exact fun _ => rfl
  have hloaded := loadJob_returnJob J hjob hstage hexecutable hkept rfl rfl (fun _ => rfl) rfl
  exact ⟨_, _, hpark, returnJob_returns (sound.markRequiresAttention hpark) hkept rfl rfl
    hexecutable hothers hloaded⟩

/-- A job that was parked by the permanent failure of its delivery returns. -/
theorem recordDeliveryFailure_returns (sound : QueueSound J returned db) {type : RequestType}
    {delivery : PendingDelivery} (hjob : db.job? key = some job) (hstage : job.stage = type.stage)
    (hdelivery : db.delivery? key type = some delivery) (errorKind : Bytes) (retryDelay now : ℤ) :
    ∃ parked after,
      recordDeliveryFailure type delivery.idempotencyKey false errorKind retryDelay now db =
        .ok parked ∧
      retryAttentionJob key parked = .ok (.resumed, after) ∧
      ReturnsTo J key type.stage db parked after ∧
      retryAttentionJob key after = .ok (.notAttention, after) := by
  obtain ⟨hmem, rfl, rfl⟩ := mem_of_delivery? hdelivery
  have hfail := sound.recordDeliveryFailure_eq hmem false errorKind retryDelay now
  have hpending : job.stage ∈ deliveryStages := hstage ▸ delivery.requestType.stage_mem
  have hexecutable := delivery.requestType.isExecutableStage_stage
  have hkept := job?_failJob hjob hpending false errorKind (now + retryDelay)
  have hparked := sound.failJob hmem hjob hstage false errorKind (now + retryDelay)
  have hothers := sound.without_failJob hmem false errorKind (now + retryDelay)
  have hrequests : ∀ type, ((db.failJob delivery false errorKind (now + retryDelay)).delivery?
      delivery.executionKey type).map PendingDelivery.requestJson =
        (db.delivery? delivery.executionKey type).map PendingDelivery.requestJson := by
    intro type
    rw [delivery?_failJob, Option.map_map]
    congr 1
    funext other
    rw [Function.comp_apply]
    split <;> rfl
  have hloaded := loadJob_returnJob J hjob (executionStage_of_executable hstage hexecutable)
    hexecutable hkept rfl rfl hrequests rfl
  exact ⟨_, _, hfail, returnJob_returns hparked hkept rfl (congrArg some hstage) hexecutable
    hothers hloaded⟩

/-- The permanent failure of a delivery whose job waits for its next attempt is counted, and leaves
the job as it is: there is nothing to return. -/
theorem recordDeliveryFailure_waits (sound : QueueSound J returned db) {type : RequestType}
    {delivery : PendingDelivery} (hjob : db.job? key = some job) (hstage : job.stage = .retryWait)
    (hdelivery : db.delivery? key type = some delivery) (errorKind : Bytes) (retryDelay now : ℤ) :
    ∃ after, recordDeliveryFailure type delivery.idempotencyKey false errorKind retryDelay now db =
        .ok after ∧
      after.job? key = some job ∧ retryAttentionJob key after = .ok (.notAttention, after) := by
  obtain ⟨hmem, rfl, rfl⟩ := mem_of_delivery? hdelivery
  have hfail := sound.recordDeliveryFailure_eq hmem false errorKind retryDelay now
  have hkept : (db.failJob delivery false errorKind (now + retryDelay)).job?
      delivery.executionKey = some job := by
    unfold QueueDatabase.failJob
    rw [job?_updateJobs]
    · change (db.job? delivery.executionKey).map _ = _
      rw [hjob, Option.map_some, if_neg]
      intro hin
      have hpending := (jobIn_iff.mp hin).2
      rw [hstage] at hpending
      revert hpending
      decide
    · exact fun _ => rfl
  refine ⟨_, hfail, hkept, retryAttentionJob_of_not_parked hkept ?_⟩
  rw [hstage]
  decide

/-- A queue with one job that waits for its start. -/
def begunHistory : QueueHistory :=
  QueueHistory.after compactNlohmann pathStore {} (.beginJob pathTask pathStart [] (text "s"))

theorem reachable_begunHistory : QueueReachable compactNlohmann pathStore begunHistory :=
  .step _ .fresh trivial

/-- The queue after the start of the job failed once. -/
def waitingHistory : QueueHistory :=
  begunHistory.after compactNlohmann pathStore
    (.recordDeliveryFailure .start (text "k") true (text "network") 1000 0)

theorem reachable_waitingHistory : QueueReachable compactNlohmann pathStore waitingHistory := by
  apply QueueReachable.step _ reachable_begunHistory
  have honly : ∀ job ∈ begunHistory.database.jobs, job.stage = .startPending := by decide +kernel
  intro delivery _ _ job hjob _ _
  exact honly job hjob

/-- A parked job that is returned to work stands in the stage it was parked in with everything
it was parked with, and a second retry changes nothing. A job that waits for its next attempt is
not parked by the permanent failure of a delivery. -/
theorem attention_round_trip {history : QueueHistory} (reached : QueueReachable J store history)
    (hjob : job ∈ history.database.jobs) (hstage : job.executionStage = some stage)
    (hexecutable : isExecutableStage stage = true) :
    (∀ parking : Parking, parking.Parks history.database job stage →
      ∃ parked after, parking.run job.executionKey history.database = .ok parked ∧
        retryAttentionJob job.executionKey parked = .ok (.resumed, after) ∧
        ReturnsTo J job.executionKey stage history.database parked after ∧
        retryAttentionJob job.executionKey after = .ok (.notAttention, after)) ∧
    (job.stage = .retryWait → ∀ (type : RequestType) (delivery : PendingDelivery),
      history.database.delivery? job.executionKey type = some delivery →
      ∀ (errorKind : Bytes) (retryDelay now : ℤ), ∃ after,
        recordDeliveryFailure type delivery.idempotencyKey false errorKind retryDelay now
          history.database = .ok after ∧
        after.job? job.executionKey = some job ∧
        retryAttentionJob job.executionKey after = .ok (.notAttention, after)) := by
  have sound := queueSound_of_reachable reached
  have hfound := sound.job?_of_mem hjob
  constructor
  · intro parking hparks
    cases parking with
    | attention errorKind => exact markRequiresAttention_returns sound hfound hstage hexecutable _
    | permanentFailure type idempotencyKey errorKind retryDelay now =>
      obtain ⟨rfl, hown, hname⟩ := hparks
      rw [Option.map_eq_some_iff] at hname
      obtain ⟨delivery, hdelivery, rfl⟩ := hname
      exact recordDeliveryFailure_returns sound hfound hown hdelivery errorKind retryDelay now
  · intro hwaits type delivery hdelivery errorKind retryDelay now
    exact recordDeliveryFailure_waits sound hfound hwaits hdelivery errorKind retryDelay now

theorem attention_round_trip_start :
    (∃ job ∈ begunHistory.database.jobs, ∃ parked after,
      Parking.run job.executionKey (.permanentFailure .start (text "k") (text "http_status") 0 0)
        begunHistory.database = .ok parked ∧
      retryAttentionJob job.executionKey parked = .ok (.resumed, after) ∧
      ReturnsTo compactNlohmann job.executionKey .startPending begunHistory.database parked after ∧
      retryAttentionJob job.executionKey after = .ok (.notAttention, after)) ∧
    ∃ job ∈ waitingHistory.database.jobs, ∃ after,
      recordDeliveryFailure .start (text "k") false (text "http_status") 0 0
        waitingHistory.database = .ok after ∧
      after.job? job.executionKey = some job ∧
      retryAttentionJob job.executionKey after = .ok (.notAttention, after) := by
  have hjob : ∃ job ∈ begunHistory.database.jobs, job.stage = .startPending ∧
      (begunHistory.database.delivery? job.executionKey .start).map
        PendingDelivery.idempotencyKey = some (text "k") := by decide +kernel
  have hwaiting : ∃ job ∈ waitingHistory.database.jobs, job.stage = .retryWait ∧
      job.executionStage = some .startPending ∧
      (waitingHistory.database.delivery? job.executionKey .start).map
        PendingDelivery.idempotencyKey = some (text "k") := by decide +kernel
  constructor
  · obtain ⟨job, hmem, hstage, hname⟩ := hjob
    refine ⟨job, hmem, ?_⟩
    apply (attention_round_trip reachable_begunHistory hmem
      (executionStage_of_executable hstage rfl) rfl).1
    exact ⟨rfl, hstage, hname⟩
  · obtain ⟨job, hmem, hwaits, hstage, hname⟩ := hwaiting
    obtain ⟨delivery, hdelivery, hname⟩ := Option.map_eq_some_iff.mp hname
    rw [← hname]
    exact ⟨job, hmem, (attention_round_trip reachable_waitingHistory hmem hstage rfl).2 hwaits
      .start delivery hdelivery _ _ _⟩

/-- The permanent failure of a delivery does not park a job that waits for its next attempt. -/
theorem not_attention_round_trip :
    ¬∀ history : QueueHistory, QueueReachable compactNlohmann pathStore history →
      ∀ job ∈ history.database.jobs, ∀ type : RequestType,
        job.executionStage = some type.stage → ∀ delivery : PendingDelivery,
          history.database.delivery? job.executionKey type = some delivery →
          ∀ (errorKind : Bytes) (retryDelay now : ℤ), ∃ parked after,
            recordDeliveryFailure type delivery.idempotencyKey false errorKind retryDelay now
              history.database = .ok parked ∧
            retryAttentionJob job.executionKey parked = .ok (.resumed, after) := by
  intro claimed
  have hjob : ∃ job ∈ waitingHistory.database.jobs, job.executionKey = text "k" ∧
      job.executionStage = some .startPending := by decide +kernel
  obtain ⟨job, hmem, hkey, hstage⟩ := hjob
  have hdelivery : (waitingHistory.database.delivery? (text "k") .start).map
      PendingDelivery.idempotencyKey = some (text "k") := by decide +kernel
  have hstill : ((recordDeliveryFailure .start (text "k") false (text "http_status") 0 0
      waitingHistory.database).toOption.bind fun parked =>
        (retryAttentionJob (text "k") parked).toOption.map Prod.fst) = some .notAttention := by
    decide +kernel
  rw [Option.map_eq_some_iff] at hdelivery
  obtain ⟨delivery, hdelivery, hname⟩ := hdelivery
  obtain ⟨parked, after, hparked, hafter⟩ := claimed waitingHistory reachable_waitingHistory job
    hmem .start hstage delivery (hkey ▸ hdelivery) (text "http_status") 0 0
  rw [hname] at hparked
  rw [hkey] at hafter
  rw [hparked, Except.toOption, Option.bind_some, hafter] at hstill
  cases hstill

end LabBridge.Agent
