import LabBridge.Agent.QueueRuns
import LabBridge.Library.Fallible

/-!
# What every stage of a pending job guarantees

`JobSound` collects what the executor relies on when it loads a job in a stage. It depends on
the deliveries and the plan of the job alone, and most operations only add to them, so each
operation has to be looked at only for the job whose stage it changes.
-/

namespace LabBridge.Agent

open ByteText JsonText Fallible LabBridge.Core

variable (J : Nlohmann) (store : AgentQueueStore)

/-- The stage a job is in when its waiting or its parking ends. -/
def PendingJob.effectiveStage (job : PendingJob) : Option Stage :=
  if isExecutableStage job.stage then some job.stage else job.retryStage

/-- The registered files of a manifest carry their identifiers: an entry that no later one
shares its path with has a planned file with the identifier of its position. -/
def Registered (db : QueueDatabase) (key : Bytes) (files : List RawFileManifestEntry)
    (rawFileIds : List Bytes) : Prop :=
  files.length = rawFileIds.length ∧
    ∀ (position : ℕ) (entry : RawFileManifestEntry) (rawFileId : Bytes),
      files[position]? = some entry → rawFileIds[position]? = some rawFileId →
      (∀ (later : ℕ) (other : RawFileManifestEntry), position < later →
        files[later]? = some other → other.storagePath ≠ entry.storagePath) →
      ∃ file ∈ db.files, file.executionKey = key ∧ file.archivePath = entry.storagePath ∧
        file.rawFileId = some rawFileId

/-- What holds of a pending job in its stage. -/
structure JobSound (db : QueueDatabase) (rawFileIds : List Bytes) (job : PendingJob) : Prop where
  /-- It can be executed once it no longer waits. -/
  executable : ∃ stage, job.effectiveStage = some stage ∧ isExecutableStage stage = true
  start : ∃ delivery, db.delivery? job.executionKey .start = some delivery
  /-- It has a run once its start was answered. -/
  run : job.taskRunId.isSome = true ↔ job.effectiveStage ≠ some .startPending
  manifest : job.effectiveStage = some .manifestPending →
    ∃ delivery, db.delivery? job.executionKey .manifest = some delivery
  report : job.effectiveStage = some .reportPending →
    ∃ delivery, db.delivery? job.executionKey .report = some delivery
  /-- While its report is built the registered files are known. -/
  registered : job.effectiveStage = some .reportBuilding →
    ∃ delivery, db.delivery? job.executionKey .manifest = some delivery ∧
      ∃ manifest, decodeRawFileManifestRequest J (readText delivery.requestJson) = .ok manifest ∧
        Registered db job.executionKey manifest.files rawFileIds
  /-- It waits only for a delivery that was attempted. -/
  waiting : job.stage = .retryWait → ∃ type : RequestType, job.retryStage = some type.stage ∧
    ∃ delivery, db.delivery? job.executionKey type = some delivery ∧ 1 ≤ delivery.attemptCount

/-- A delivery with the same request and at least as many attempts. -/
def Redelivers (before after : PendingDelivery) : Prop :=
  after.requestJson = before.requestJson ∧ before.attemptCount ≤ after.attemptCount

/-- The same planned file under the same identifier. -/
def SameRegistration (before after : PendingFile) : Prop :=
  after.executionKey = before.executionKey ∧ after.archivePath = before.archivePath ∧
    after.rawFileId = before.rawFileId

/-- What a job relies on is still there. -/
structure Keeps (key : Bytes) (before after : QueueDatabase) : Prop where
  deliveries : ∀ type delivery, before.delivery? key type = some delivery →
    ∃ kept, after.delivery? key type = some kept ∧ Redelivers delivery kept
  files : ∀ file ∈ before.files, file.executionKey = key →
    ∃ kept ∈ after.files, SameRegistration file kept

variable {J store} {db before middle after : QueueDatabase} {key : Bytes} {job : PendingJob}
  {rawFileIds : List Bytes}

/-- An unchanged queue keeps what a job relies on. -/
theorem Keeps.refl (key : Bytes) (db : QueueDatabase) : Keeps key db db :=
  ⟨fun _ delivery h => ⟨delivery, h, rfl, le_refl _⟩, fun file h _ => ⟨file, h, rfl, rfl, rfl⟩⟩

/-- One change after the other keeps it. -/
theorem Keeps.trans (first : Keeps key before middle) (second : Keeps key middle after) :
    Keeps key before after := by
  constructor
  · intro type delivery h
    obtain ⟨mid, hmid, hfirst⟩ := first.deliveries type delivery h
    obtain ⟨kept, hkept, hsecond⟩ := second.deliveries type mid hmid
    exact ⟨kept, hkept, hsecond.1.trans hfirst.1, Nat.le_trans hfirst.2 hsecond.2⟩
  · intro file hfile hkey
    obtain ⟨mid, hmid, hfirst⟩ := first.files file hfile hkey
    obtain ⟨kept, hkept, hsecond⟩ := second.files mid hmid (hfirst.1.trans hkey)
    exact ⟨kept, hkept, hsecond.1.trans hfirst.1, hsecond.2.1.trans hfirst.2.1,
      hsecond.2.2.trans hfirst.2.2⟩

/-- Registered files stay registered while the plan is kept. -/
theorem Registered.keeps {files : List RawFileManifestEntry}
    (h : Registered before key files rawFileIds) (kept : Keeps key before after) :
    Registered after key files rawFileIds := by
  refine ⟨h.1, fun position entry rawFileId hentry hid hlast => ?_⟩
  obtain ⟨file, hfile, hkey, hpath, hraw⟩ := h.2 position entry rawFileId hentry hid hlast
  obtain ⟨found, hfound, hsame⟩ := kept.files file hfile hkey
  exact ⟨found, hfound, hsame.1.trans hkey, hsame.2.1.trans hpath, hsame.2.2.trans hraw⟩

/-- A job stays sound while its deliveries stay and its files are registered. -/
theorem JobSound.delivers {returned : List Bytes} (sound : JobSound J before rawFileIds job)
    (kept : ∀ type delivery, before.delivery? job.executionKey type = some delivery →
      ∃ found, after.delivery? job.executionKey type = some found ∧ Redelivers delivery found)
    (registered : ∀ delivery manifest,
      before.delivery? job.executionKey .manifest = some delivery →
        decodeRawFileManifestRequest J (readText delivery.requestJson) = .ok manifest →
        Registered before job.executionKey manifest.files rawFileIds →
        Registered after job.executionKey manifest.files returned) :
    JobSound J after returned job where
  executable := sound.executable
  start := by
    obtain ⟨delivery, h⟩ := sound.start
    obtain ⟨found, hfound, -⟩ := kept _ _ h
    exact ⟨found, hfound⟩
  run := sound.run
  manifest h := by
    obtain ⟨delivery, h⟩ := sound.manifest h
    obtain ⟨found, hfound, -⟩ := kept _ _ h
    exact ⟨found, hfound⟩
  report h := by
    obtain ⟨delivery, h⟩ := sound.report h
    obtain ⟨found, hfound, -⟩ := kept _ _ h
    exact ⟨found, hfound⟩
  registered h := by
    obtain ⟨delivery, hdelivery, manifest, hmanifest, hregistered⟩ := sound.registered h
    obtain ⟨found, hfound, hrequest, -⟩ := kept _ _ hdelivery
    refine ⟨found, hfound, manifest, by rw [hrequest]; exact hmanifest, ?_⟩
    exact registered delivery manifest hdelivery hmanifest hregistered
  waiting h := by
    obtain ⟨type, hstage, delivery, hdelivery, hattempts⟩ := sound.waiting h
    obtain ⟨found, hfound, -, hcount⟩ := kept _ _ hdelivery
    exact ⟨type, hstage, found, hfound, Nat.le_trans hattempts hcount⟩

/-- A job stays sound while what it relies on is kept. -/
theorem JobSound.keeps (sound : JobSound J before rawFileIds job)
    (kept : Keeps job.executionKey before after) : JobSound J after rawFileIds job :=
  sound.delivers kept.deliveries fun _ _ _ _ h => h.keeps kept

/-- A job stays sound under a change that leaves it its run and the stage it returns to. -/
theorem JobSound.restage {changed : PendingJob} (sound : JobSound J db rawFileIds job)
    (hkey : changed.executionKey = job.executionKey) (hrun : changed.taskRunId = job.taskRunId)
    (hstage : changed.effectiveStage = job.effectiveStage)
    (hwaiting : changed.stage = .retryWait → ∃ type : RequestType,
      changed.retryStage = some type.stage ∧
        ∃ delivery, db.delivery? job.executionKey type = some delivery ∧
          1 ≤ delivery.attemptCount) :
    JobSound J db rawFileIds changed where
  executable := by rw [hstage]; exact sound.executable
  start := by rw [hkey]; exact sound.start
  run := by rw [hrun, hstage]; exact sound.run
  manifest := by rw [hstage, hkey]; exact sound.manifest
  report := by rw [hstage, hkey]; exact sound.report
  registered := by rw [hstage, hkey]; exact sound.registered
  waiting := by rw [hkey]; exact hwaiting

/-! ## Frames of single statements -/

/-- What a job relies on is not among the jobs. -/
theorem keeps_jobs (key : Bytes) (jobs : List PendingJob) :
    Keeps key db { db with jobs := jobs } :=
  ⟨(Keeps.refl key db).deliveries, (Keeps.refl key db).files⟩

/-- A change of jobs keeps what a job relies on. -/
theorem keeps_updateJobs (selects : PendingJob → Bool) (change : PendingJob → PendingJob) :
    Keeps key db (db.updateJobs selects change) := keeps_jobs key _

/-- Looking a delivery up after every row was rewritten under its own key and kind. -/
theorem delivery?_updateDeliveries (selects : PendingDelivery → Bool)
    {change : PendingDelivery → PendingDelivery}
    (hkey : ∀ delivery, (change delivery).executionKey = delivery.executionKey)
    (htype : ∀ delivery, (change delivery).requestType = delivery.requestType) (type : RequestType) :
    (db.updateDeliveries selects change).delivery? key type =
      (db.delivery? key type).map fun delivery =>
        if selects delivery then change delivery else delivery := by
  unfold QueueDatabase.delivery? QueueDatabase.updateDeliveries
  rw [List.find?_map]
  congr 2
  funext delivery
  by_cases h : selects delivery <;> simp [h, hkey, htype]

/-- A change of deliveries that keeps keys, kinds and requests. -/
theorem keeps_updateDeliveries (selects : PendingDelivery → Bool)
    {change : PendingDelivery → PendingDelivery}
    (hkey : ∀ delivery, (change delivery).executionKey = delivery.executionKey)
    (htype : ∀ delivery, (change delivery).requestType = delivery.requestType)
    (hsame : ∀ delivery, Redelivers delivery (change delivery)) :
    Keeps key db (db.updateDeliveries selects change) := by
  constructor
  · intro type delivery h
    rw [delivery?_updateDeliveries selects hkey htype, h]
    refine ⟨_, rfl, ?_⟩
    by_cases hselected : selects delivery
    · simpa [hselected] using hsame delivery
    · simp [hselected, Redelivers]
  · exact (Keeps.refl key db).files

/-- A change of files that keeps the registration of those of the job. -/
theorem keeps_updateFiles (selects : PendingFile → Bool) {change : PendingFile → PendingFile}
    (hsame : ∀ file, selects file = true → file.executionKey = key →
      SameRegistration file (change file)) :
    Keeps key db (db.updateFiles selects change) := by
  constructor
  · exact (Keeps.refl key db).deliveries
  · intro file hfile hkey
    refine ⟨_, List.mem_map_of_mem hfile, ?_⟩
    by_cases hselected : selects file
    · simpa [hselected] using hsame file hselected hkey
    · simp [hselected, SameRegistration]

/-- An inserted delivery leaves the others where they are. -/
theorem keeps_insertDelivery {delivery : PendingDelivery} {operation : String}
    (h : db.insertDelivery delivery operation = .ok after) : Keeps key db after := by
  unfold QueueDatabase.insertDelivery at h
  split at h
  · cases h
  · cases h
    constructor
    · intro type found hfound
      refine ⟨found, ?_, rfl, Nat.le_refl _⟩
      unfold QueueDatabase.delivery? at hfound ⊢
      rw [List.find?_append, hfound]
      rfl
    · intro file hfile _
      exact ⟨file, hfile, rfl, rfl, rfl⟩

/-- An inserted delivery is found. -/
theorem delivery?_insertDelivery {delivery : PendingDelivery} {operation : String}
    (h : db.insertDelivery delivery operation = .ok after) :
    after.delivery? delivery.executionKey delivery.requestType = some delivery := by
  unfold QueueDatabase.insertDelivery at h
  split at h
  · cases h
  · rename_i hfree
    cases h
    have hnone : db.delivery? delivery.executionKey delivery.requestType = none := by
      simpa using (not_or.mp (not_or.mp hfree).2).1
    unfold QueueDatabase.delivery? at hnone ⊢
    rw [List.find?_append, hnone]
    simp

/-- A planned file is added. -/
theorem keeps_insertFile {file : PendingFile} (h : db.insertFile file = .ok after) :
    Keeps key db after := by
  unfold QueueDatabase.insertFile at h
  split at h
  · cases h
  · cases h
    constructor
    · exact (Keeps.refl key db).deliveries
    · intro found hfound _
      exact ⟨found, List.mem_append_left _ hfound, rfl, rfl, rfl⟩

/-- Deleting jobs leaves what the others rely on. -/
theorem keeps_deleteJobs {selects : PendingJob → Bool}
    (hother : ∀ job ∈ db.jobs, selects job = true → job.executionKey ≠ key) :
    Keeps key db (db.deleteJobs selects) := by
  have hgone : ((db.jobs.filter selects).map PendingJob.executionKey).contains key = false := by
    simpa using hother
  constructor
  · intro type delivery h
    refine ⟨delivery, ?_, rfl, Nat.le_refl _⟩
    unfold QueueDatabase.delivery? at h ⊢
    rw [QueueDatabase.deleteJobs, List.find?_filter, ← h]
    congr 1
    funext found
    by_cases hkey : found.executionKey = key
    · rw [hkey, hgone]
      simp only [Bool.not_false, true_and, Bool.decide_eq_true]
    · simp [hkey]
  · intro file hfile hkey
    refine ⟨file, ?_, rfl, rfl, rfl⟩
    subst hkey
    exact List.mem_filter.mpr ⟨hfile, by simpa using hgone⟩

end LabBridge.Agent
