import LabBridge.Agent.QueueLifecycle

/-!
# The rows of one job

What the operations that move a job between its stages do to its row and to its deliveries, in
a queue whose rows are told apart by their keys, and that they leave the rows of every other
job alone.
-/

namespace LabBridge.Agent

open ByteText JsonText LabBridge.Core

variable {J : Nlohmann} {db before after : QueueDatabase} {key : Bytes} {job : PendingJob}
  {returned : Bytes → List Bytes} {type : RequestType} {delivery : PendingDelivery} {stage : Stage}

/-- The deliveries of a job. -/
def QueueDatabase.deliveriesOf (db : QueueDatabase) (key : Bytes) : List PendingDelivery :=
  db.deliveries.filter fun delivery => delivery.executionKey == key

/-- The rows of every job but one. -/
def QueueDatabase.without (db : QueueDatabase) (key : Bytes) : QueueDatabase where
  jobs := db.jobs.filter fun job => job.executionKey != key
  files := db.files.filter fun file => file.executionKey != key
  deliveries := db.deliveries.filter fun delivery => delivery.executionKey != key
  processed := db.processed

/-! ## Rows under their keys -/

/-- A statement that can select one row alone selects exactly one. -/
theorem countP_eq_one {α : Type} {p : α → Bool} {rows : List α} {row : α} (hmem : row ∈ rows)
    (hp : p row = true) (hapart : rows.Pairwise fun left right => p left = true → p right = false) :
    rows.countP p = 1 := by
  induction rows with
  | nil => cases hmem
  | cons first rest ih =>
    rw [List.pairwise_cons] at hapart
    by_cases hfirst : p first = true
    · rw [List.countP_cons_of_pos hfirst, List.countP_eq_zero.mpr]
      intro other hother
      simpa using hapart.1 other hother hfirst
    · rw [List.countP_cons_of_neg hfirst]
      apply ih _ hapart.2
      cases List.mem_cons.mp hmem with
      | inl heq => exact absurd (heq ▸ hp) hfirst
      | inr hrest => exact hrest

/-- A job is found under its key. -/
theorem QueueSound.job?_of_mem (sound : QueueSound J returned db) (h : job ∈ db.jobs) :
    db.job? job.executionKey = some job := by
  have hsome : (db.job? job.executionKey).isSome = true := by
    rw [QueueDatabase.job?, List.find?_isSome]
    exact ⟨job, h, by simp⟩
  obtain ⟨found, hfound⟩ := Option.isSome_iff_exists.mp hsome
  rw [hfound, sound.job_unique (mem_of_job? hfound).1 h (mem_of_job? hfound).2]

/-- Exactly one row has the key of a job. -/
theorem QueueSound.countP_jobOf (sound : QueueSound J returned db) (h : db.job? key = some job) :
    db.jobs.countP (jobOf key) = 1 := by
  apply countP_eq_one (mem_of_job? h).1
  · simpa [jobOf] using (mem_of_job? h).2
  · apply sound.keys.imp
    intro left right hne hleft
    simp only [jobOf, beq_iff_eq] at hleft ⊢
    simpa [hleft] using Ne.symm hne

/-- A delivery that a job and a kind find. -/
theorem mem_of_delivery? (h : db.delivery? key type = some delivery) :
    delivery ∈ db.deliveries ∧ delivery.executionKey = key ∧ delivery.requestType = type := by
  have hmatch := List.find?_some h
  simp only [Bool.and_eq_true, beq_iff_eq] at hmatch
  exact ⟨List.mem_of_find?_eq_some h, hmatch.1, hmatch.2⟩

/-- A delivery that is selected by its kind and its idempotency key. -/
theorem deliveryIs_iff {idempotencyKey : Bytes} : deliveryIs type idempotencyKey delivery = true ↔
    delivery.requestType = type ∧ delivery.idempotencyKey = idempotencyKey := by
  simp [deliveryIs]

/-- A delivery is found under its kind and idempotency key. -/
theorem QueueSound.deliveryOf?_of_mem (sound : QueueSound J returned db)
    (h : delivery ∈ db.deliveries) :
    db.deliveryOf? delivery.requestType delivery.idempotencyKey = some delivery := by
  have hsome : (db.deliveryOf? delivery.requestType delivery.idempotencyKey).isSome = true := by
    rw [QueueDatabase.deliveryOf?, List.find?_isSome]
    exact ⟨delivery, h, by simp⟩
  obtain ⟨found, hfound⟩ := Option.isSome_iff_exists.mp hsome
  have hmatch := List.find?_some hfound
  simp only [Bool.and_eq_true, beq_iff_eq] at hmatch
  rw [hfound, sound.delivery_unique (List.mem_of_find?_eq_some hfound) h hmatch.1 hmatch.2]

/-- Exactly one row has the kind and idempotency key of a delivery. -/
theorem QueueSound.countP_deliveryIs (sound : QueueSound J returned db)
    (h : delivery ∈ db.deliveries) :
    db.deliveries.countP (deliveryIs delivery.requestType delivery.idempotencyKey) = 1 := by
  apply countP_eq_one h
  · exact deliveryIs_iff.mpr ⟨rfl, rfl⟩
  · apply sound.kinds.imp
    intro left right hapart hleft
    obtain ⟨htype, hkey⟩ := deliveryIs_iff.mp hleft
    rw [← Bool.not_eq_true, deliveryIs_iff]
    intro hright
    exact hapart.2 (htype.trans hright.1.symm) (hkey.trans hright.2.symm)

/-! ## Looking rows up after a statement -/

/-- Looking a key up after a change of jobs is changing what the key found. -/
theorem job?_updateJobs (selects : PendingJob → Bool) {change : PendingJob → PendingJob}
    (hkey : ∀ job, (change job).executionKey = job.executionKey) :
    (db.updateJobs selects change).job? key =
      (db.job? key).map fun job => if selects job then change job else job := by
  unfold QueueDatabase.job? QueueDatabase.updateJobs
  rw [List.find?_map]
  congr 2
  funext job
  by_cases h : selects job <;> simp [h, hkey]

/-- The deliveries of a key after a change of deliveries. -/
theorem deliveriesOf_updateDeliveries (selects : PendingDelivery → Bool)
    {change : PendingDelivery → PendingDelivery}
    (hkey : ∀ delivery, (change delivery).executionKey = delivery.executionKey) :
    (db.updateDeliveries selects change).deliveriesOf key =
      (db.deliveriesOf key).map fun delivery =>
        if selects delivery then change delivery else delivery := by
  unfold QueueDatabase.deliveriesOf QueueDatabase.updateDeliveries
  rw [List.filter_map]
  congr 2
  funext delivery
  by_cases h : selects delivery <;> simp [h, hkey]

/-- Rows a statement does not select are not changed by it. -/
theorem filter_map_of_unselected {α : Type} {rows : List α} {selects others : α → Bool}
    {change : α → α} (hselects : ∀ row ∈ rows, selects row = true →
      others row = false ∧ others (change row) = false) :
    (rows.map fun row => if selects row then change row else row).filter others =
      rows.filter others := by
  induction rows with
  | nil => rfl
  | cons row rest ih =>
    have hrest := ih fun other hother => hselects other (List.mem_cons_of_mem _ hother)
    rw [List.map_cons, List.filter_cons, List.filter_cons, hrest]
    by_cases h : selects row = true
    · have hout := hselects row List.mem_cons_self h
      rw [if_pos h, hout.1, hout.2]
      rfl
    · rw [if_neg h]

/-- A change of the job of one key leaves everything of the others alone. -/
theorem without_updateJobs {selects : PendingJob → Bool} {change : PendingJob → PendingJob}
    (hselects : ∀ job, selects job = true → job.executionKey = key)
    (hkey : ∀ job, (change job).executionKey = job.executionKey) :
    (db.updateJobs selects change).without key = db.without key := by
  have hjobs : (db.updateJobs selects change).jobs.filter (fun job => job.executionKey != key) =
      db.jobs.filter fun job => job.executionKey != key := by
    apply filter_map_of_unselected
    intro job _ hselected
    simp [hkey, hselects job hselected]
  unfold QueueDatabase.without
  rw [hjobs]
  rfl

/-- A change of the deliveries of one key leaves everything of the others alone. -/
theorem without_updateDeliveries {selects : PendingDelivery → Bool}
    {change : PendingDelivery → PendingDelivery}
    (hselects : ∀ delivery ∈ db.deliveries, selects delivery = true → delivery.executionKey = key)
    (hkey : ∀ delivery, (change delivery).executionKey = delivery.executionKey) :
    (db.updateDeliveries selects change).without key = db.without key := by
  have hdeliveries : (db.updateDeliveries selects change).deliveries.filter
      (fun delivery => delivery.executionKey != key) =
        db.deliveries.filter fun delivery => delivery.executionKey != key := by
    apply filter_map_of_unselected
    intro delivery hmem hselected
    simp [hkey, hselects delivery hmem hselected]
  unfold QueueDatabase.without
  rw [hdeliveries]
  rfl

/-! ## Parking -/

/-- A job that is parked and remembers its stage. -/
def PendingJob.parked (job : PendingJob) (stage : Stage) (errorKind : Bytes) : PendingJob :=
  { job with
    stage := .requiresAttention, retryStage := some stage, lastErrorKind := some errorKind }

/-- The queue in which a job was parked by an operation of its own. -/
def QueueDatabase.parkJob (db : QueueDatabase) (key : Bytes) (stage : Stage) (errorKind : Bytes) :
    QueueDatabase :=
  db.updateJobs (jobOf key) fun job => job.parked stage errorKind

/-- The stage a job is executed in is the stage it returns to. -/
theorem resumeStageOf_of_executionStage (h : job.executionStage = some stage)
    (hexecutable : isExecutableStage stage = true) : resumeStageOf key job = .ok stage := by
  unfold PendingJob.executionStage at h
  by_cases hwaits : job.stage = .retryWait
  · rw [if_pos hwaits] at h
    rw [resumeStageOf, hwaits, h]
    exact if_pos hexecutable
  · rw [if_neg hwaits] at h
    obtain rfl : job.stage = stage := Option.some.inj h
    unfold resumeStageOf
    cases hstage : job.stage <;> cases job.retryStage <;> simp_all [isExecutableStage]

/-- A job that can be executed is parked in its stage. -/
theorem QueueSound.markRequiresAttention_eq (sound : QueueSound J returned db)
    (hjob : db.job? key = some job) (hstage : job.executionStage = some stage)
    (hexecutable : isExecutableStage stage = true) (errorKind : Bytes) :
    Agent.markRequiresAttention key errorKind db = .ok (db.parkJob key stage errorKind) := by
  unfold Agent.markRequiresAttention
  rw [hjob]
  dsimp only
  rw [resumeStageOf_of_executionStage hstage hexecutable]
  exact if_pos (sound.countP_jobOf hjob)

/-- The row of a job after it was parked. -/
theorem job?_parkJob (hjob : db.job? key = some job) (errorKind : Bytes) :
    (db.parkJob key stage errorKind).job? key = some (job.parked stage errorKind) := by
  unfold QueueDatabase.parkJob
  rw [job?_updateJobs]
  · rw [hjob, Option.map_some, if_pos]
    simpa [jobOf] using (mem_of_job? hjob).2
  · exact fun _ => rfl

/-! ## Failing -/

/-- The queue after a failed delivery of a job. -/
def QueueDatabase.failJob (db : QueueDatabase) (delivery : PendingDelivery) (retryable : Bool)
    (errorKind : Bytes) (nextAttemptAt : ℤ) : QueueDatabase :=
  (db.updateDeliveries (deliveryIs delivery.requestType delivery.idempotencyKey) fun other =>
    other.failed nextAttemptAt).updateJobs (jobIn delivery.executionKey deliveryStages) fun job =>
      job.failed retryable errorKind nextAttemptAt

/-- Every kind of request has a stage in which it is delivered. -/
theorem RequestType.stage_mem (type : RequestType) : type.stage ∈ deliveryStages := by
  cases type <;> decide

/-- The stage of a request can be executed. -/
theorem RequestType.isExecutableStage_stage (type : RequestType) :
    isExecutableStage type.stage = true := by
  cases type <;> rfl

/-- A failed delivery is counted, and its job waits or is parked. -/
theorem QueueSound.recordDeliveryFailure_eq (sound : QueueSound J returned db)
    (hmem : delivery ∈ db.deliveries) (retryable : Bool) (errorKind : Bytes)
    (retryDelay now : ℤ) :
    Agent.recordDeliveryFailure delivery.requestType delivery.idempotencyKey retryable errorKind
        retryDelay now db =
      .ok (db.failJob delivery retryable errorKind (now + retryDelay)) := by
  unfold Agent.recordDeliveryFailure
  rw [if_pos (sound.countP_deliveryIs hmem), sound.deliveryOf?_of_mem hmem]
  rfl

/-- The failure of a delivery whose job stands in its stage keeps the queue sound. -/
theorem QueueSound.failJob (sound : QueueSound J returned db) (hmem : delivery ∈ db.deliveries)
    (hjob : db.job? delivery.executionKey = some job)
    (hstage : job.stage = delivery.requestType.stage) (retryable : Bool) (errorKind : Bytes)
    (nextAttemptAt : ℤ) :
    QueueSound J returned (db.failJob delivery retryable errorKind nextAttemptAt) := by
  have hfail := sound.recordDeliveryFailure_eq hmem retryable errorKind 0 nextAttemptAt
  rw [add_zero] at hfail
  refine sound.recordDeliveryFailure ?_ hfail
  intro other hother hselected owner howner hkey _
  obtain ⟨htype, hname⟩ := deliveryIs_iff.mp hselected
  obtain rfl := sound.delivery_unique hother hmem htype hname
  rw [sound.job_unique howner (mem_of_job? hjob).1 (hkey.trans (mem_of_job? hjob).2.symm)]
  exact hstage

/-- The row of a job after its delivery failed. -/
theorem job?_failJob (hjob : db.job? delivery.executionKey = some job)
    (hstage : job.stage ∈ deliveryStages) (retryable : Bool) (errorKind : Bytes)
    (nextAttemptAt : ℤ) :
    (db.failJob delivery retryable errorKind nextAttemptAt).job? delivery.executionKey =
      some (job.failed retryable errorKind nextAttemptAt) := by
  unfold QueueDatabase.failJob
  rw [job?_updateJobs]
  · change (db.job? delivery.executionKey).map _ = _
    rw [hjob, Option.map_some, if_pos]
    exact jobIn_iff.mpr ⟨(mem_of_job? hjob).2, hstage⟩
  · exact fun _ => rfl

/-- The deliveries after one of them failed. -/
theorem delivery?_failJob (retryable : Bool) (errorKind : Bytes) (nextAttemptAt : ℤ) :
    (db.failJob delivery retryable errorKind nextAttemptAt).delivery? key type =
      (db.delivery? key type).map fun other =>
        if deliveryIs delivery.requestType delivery.idempotencyKey other
        then other.failed nextAttemptAt else other := by
  unfold QueueDatabase.failJob
  apply delivery?_updateDeliveries
  · exact fun _ => rfl
  · exact fun _ => rfl

/-- A failed delivery leaves the rows of every other job alone. -/
theorem QueueSound.without_failJob (sound : QueueSound J returned db)
    (hmem : delivery ∈ db.deliveries) (retryable : Bool) (errorKind : Bytes)
    (nextAttemptAt : ℤ) :
    (db.failJob delivery retryable errorKind nextAttemptAt).without delivery.executionKey =
      db.without delivery.executionKey := by
  unfold QueueDatabase.failJob
  rw [without_updateJobs]
  · apply without_updateDeliveries
    · intro other hother hselected
      obtain ⟨htype, hkey⟩ := deliveryIs_iff.mp hselected
      rw [sound.delivery_unique hother hmem htype hkey]
    · exact fun _ => rfl
  · exact fun job h => (jobIn_iff.mp h).1
  · exact fun _ => rfl

/-! ## Returning -/

/-- The queue in which a parked job was returned to a stage. -/
def QueueDatabase.returnJob (db : QueueDatabase) (key : Bytes) (stage : Stage) : QueueDatabase :=
  (db.updateJobs (jobIn key [.requiresAttention]) fun job =>
    job.unparked stage).updateDeliveries (fun delivery => delivery.executionKey == key)
      PendingDelivery.due

/-- A parked job returns to the stage it remembers. -/
theorem retryAttentionJob_eq (hjob : db.job? key = some job)
    (hparked : job.stage = .requiresAttention) (hstage : job.retryStage = some stage)
    (hexecutable : isExecutableStage stage = true) :
    retryAttentionJob key db = .ok (.resumed, db.returnJob key stage) := by
  unfold retryAttentionJob
  rw [hjob]
  dsimp only
  rw [if_pos hparked, attentionStage, hstage]
  dsimp only
  rw [if_pos hexecutable]
  rfl

/-- The retry of a job that is not parked changes nothing. -/
theorem retryAttentionJob_of_not_parked (hjob : db.job? key = some job)
    (hparked : job.stage ≠ .requiresAttention) :
    retryAttentionJob key db = .ok (.notAttention, db) := by
  unfold retryAttentionJob
  rw [hjob]
  exact if_neg hparked

/-- The row of a parked job after it was returned. -/
theorem job?_returnJob (hjob : db.job? key = some job) (hparked : job.stage = .requiresAttention) :
    (db.returnJob key stage).job? key = some (job.unparked stage) := by
  have hselected : jobIn key [.requiresAttention] job = true :=
    jobIn_iff.mpr ⟨(mem_of_job? hjob).2, by simp [hparked]⟩
  change (db.updateJobs (jobIn key [.requiresAttention]) fun job => job.unparked stage).job? key = _
  rw [job?_updateJobs]
  · rw [hjob, Option.map_some, if_pos hselected]
  · exact fun _ => rfl

/-- Returning a job leaves its requests as they are. -/
theorem delivery?_returnJob (type : RequestType) :
    ((db.returnJob key stage).delivery? key type).map PendingDelivery.requestJson =
      (db.delivery? key type).map PendingDelivery.requestJson := by
  unfold QueueDatabase.returnJob
  rw [delivery?_updateDeliveries]
  · rw [Option.map_map]
    change (db.delivery? key type).map _ = _
    congr 1
    funext delivery
    by_cases h : (delivery.executionKey == key) = true
    · rw [Function.comp_apply, if_pos h]
      rfl
    · rw [Function.comp_apply, if_neg h]
  · exact fun _ => rfl
  · exact fun _ => rfl

/-- Returning a job makes its deliveries due. -/
theorem deliveriesOf_returnJob :
    (db.returnJob key stage).deliveriesOf key = (db.deliveriesOf key).map PendingDelivery.due := by
  unfold QueueDatabase.returnJob
  rw [deliveriesOf_updateDeliveries]
  · apply List.map_congr_left
    intro delivery hmem
    exact if_pos (List.mem_filter.mp hmem).2
  · exact fun _ => rfl

/-- Returning a job leaves everything of the others alone. -/
theorem without_returnJob : (db.returnJob key stage).without key = db.without key := by
  unfold QueueDatabase.returnJob
  rw [without_updateDeliveries]
  · apply without_updateJobs
    · exact fun job h => (jobIn_iff.mp h).1
    · exact fun _ => rfl
  · exact fun delivery _ h => beq_iff_eq.mp h
  · exact fun _ => rfl

end LabBridge.Agent
