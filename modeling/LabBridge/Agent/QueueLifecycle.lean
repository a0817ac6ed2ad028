import LabBridge.Agent.CompactJson
import LabBridge.Agent.QueueSteps

/-!
# The jobs of a reachable queue

The two remaining operations, and the whole run: whatever operations a queue has seen, each of
its jobs is sound in its stage, so loading it finds what the stage needs.
-/

namespace LabBridge.Agent

open ByteText JsonText Fallible LabBridge.Core

variable {J : Nlohmann} {store : AgentQueueStore} {db after : QueueDatabase} {key : Bytes}
  {returned : Bytes → List Bytes}

/-! ## The acceptance of a manifest -/

theorem fileUnder_iff {path : Bytes} {file : PendingFile} :
    fileUnder key path file = true ↔ file.executionKey = key ∧ file.archivePath = path := by
  simp [fileUnder]

/-- Mapping one identifier changes files alone, and those of the job alone. -/
theorem mapRawFileId_eq_ok {mapped : RawFileManifestEntry × Bytes}
    (h : mapRawFileId key db mapped = .ok after) :
    (∃ file ∈ db.files, fileUnder key mapped.1.storagePath file = true) ∧
      after = db.updateFiles (fileUnder key mapped.1.storagePath)
        fun file => { file with rawFileId := some mapped.2 } := by
  obtain ⟨hcount, rfl⟩ := updateFile_eq_ok.mp h
  refine ⟨?_, rfl⟩
  apply List.countP_pos_iff.mp
  omega

/-- Mapping the identifiers of a manifest leaves jobs and deliveries as they are, and what
other jobs rely on. -/
theorem frame_mapRawFileIds {mapped : List (RawFileManifestEntry × Bytes)}
    (h : mapped.foldlM (mapRawFileId key) db = .ok after) :
    after.jobs = db.jobs ∧ after.deliveries = db.deliveries ∧
      ∀ other, other ≠ key → Keeps other db after := by
  induction mapped generalizing db with
  | nil =>
    rw [List.foldlM_nil, pure_eq_ok] at h
    subst h
    exact ⟨rfl, rfl, fun other _ => Keeps.refl other db⟩
  | cons first rest ih =>
    rw [List.foldlM_cons, bind_eq_ok] at h
    obtain ⟨next, hnext, hrest⟩ := h
    obtain ⟨-, rfl⟩ := mapRawFileId_eq_ok hnext
    obtain ⟨hjobs, hdeliveries, hkept⟩ := ih hrest
    refine ⟨hjobs, hdeliveries, fun other hother => Keeps.trans ?_ (hkept other hother)⟩
    apply keeps_updateFiles
    intro file hselected hkey
    exact absurd (hkey.symm.trans (fileUnder_iff.mp hselected).1) hother

/-- Mapping the files under other paths leaves a file as it is. -/
theorem mem_mapRawFileIds {mapped : List (RawFileManifestEntry × Bytes)} {file : PendingFile}
    (h : mapped.foldlM (mapRawFileId key) db = .ok after) (hfile : file ∈ db.files)
    (hother : ∀ pair ∈ mapped, pair.1.storagePath ≠ file.archivePath) : file ∈ after.files := by
  induction mapped generalizing db with
  | nil =>
    rw [List.foldlM_nil, pure_eq_ok] at h
    exact h ▸ hfile
  | cons first rest ih =>
    rw [List.foldlM_cons, bind_eq_ok] at h
    obtain ⟨next, hnext, hrest⟩ := h
    obtain ⟨-, rfl⟩ := mapRawFileId_eq_ok hnext
    refine ih hrest ?_ fun pair hpair => hother pair (List.mem_cons_of_mem _ hpair)
    have hunselected : fileUnder key first.1.storagePath file = false := by
      rw [← Bool.not_eq_true, fileUnder_iff]
      exact fun hselected => hother first List.mem_cons_self hselected.2.symm
    exact List.mem_map.mpr ⟨file, hfile, by rw [hunselected]; rfl⟩

/-- The last entry of each path has its file under its identifier. -/
theorem mapRawFileIds_maps {mapped : List (RawFileManifestEntry × Bytes)}
    (h : mapped.foldlM (mapRawFileId key) db = .ok after) {position : ℕ}
    {entry : RawFileManifestEntry} {rawFileId : Bytes}
    (hentry : mapped[position]? = some (entry, rawFileId))
    (hlast : ∀ (later : ℕ) (pair : RawFileManifestEntry × Bytes), position < later →
      mapped[later]? = some pair → pair.1.storagePath ≠ entry.storagePath) :
    ∃ file ∈ after.files, file.executionKey = key ∧ file.archivePath = entry.storagePath ∧
      file.rawFileId = some rawFileId := by
  induction mapped generalizing db position with
  | nil => cases hentry
  | cons first rest ih =>
    rw [List.foldlM_cons, bind_eq_ok] at h
    obtain ⟨next, hnext, hrest⟩ := h
    cases position with
    | succ position =>
      exact ih hrest hentry fun later pair hlater hpair =>
        hlast (later + 1) pair (Nat.succ_lt_succ hlater) hpair
    | zero =>
      obtain rfl : first = (entry, rawFileId) := by simpa using hentry
      obtain ⟨⟨file, hfile, hselected⟩, rfl⟩ := mapRawFileId_eq_ok hnext
      obtain ⟨hkey, hpath⟩ := fileUnder_iff.mp hselected
      refine ⟨{ file with rawFileId := some rawFileId }, ?_, hkey, hpath, rfl⟩
      apply mem_mapRawFileIds hrest
      · exact List.mem_map.mpr ⟨file, hfile, by rw [hselected]; rfl⟩
      · intro pair hpair
        obtain ⟨later, hlater⟩ := List.mem_iff_getElem?.mp hpair
        have hdiffers := hlast (later + 1) pair (Nat.succ_pos _) hlater
        exact fun heq => hdiffers (heq.trans hpath)

/-- The files of an accepted manifest are registered. -/
theorem registered_mapRawFileIds {files : List RawFileManifestEntry} {rawFileIds : List Bytes}
    (hlength : files.length = rawFileIds.length)
    (h : (files.zip rawFileIds).foldlM (mapRawFileId key) db = .ok after) :
    Registered after key files rawFileIds := by
  refine ⟨hlength, fun position entry rawFileId hentry hid hlast => ?_⟩
  apply mapRawFileIds_maps h
  · rw [List.getElem?_zip_eq_some]
    exact ⟨hentry, hid⟩
  · intro later pair hlater hpair
    exact hlast later pair.1 hlater (List.getElem?_zip_eq_some.mp hpair).1

theorem QueueSound.acceptManifest (sound : QueueSound J returned db) {rawFileIds : List Bytes}
    (h : acceptManifest J key rawFileIds db = .ok after) :
    QueueSound J (Function.update returned key rawFileIds) after := by
  unfold Agent.acceptManifest at h
  split at h
  · exact absurd h throw_ne_ok
  · rename_i delivery hdelivery
    simp only [bind_eq_ok, check_eq_ok, pure_eq_ok] at h
    obtain ⟨manifest, hmanifest, hlength, mapped, hmapped, rfl⟩ := h
    obtain ⟨hjobs, hdeliveries, hkept⟩ := frame_mapRawFileIds hmapped
    have hregistered : Registered mapped key manifest.files rawFileIds :=
      registered_mapRawFileIds (not_not.mp hlength) hmapped
    have hfound : ∀ other type, mapped.delivery? other type = db.delivery? other type := by
      intro other type
      rw [QueueDatabase.delivery?, hdeliveries, QueueDatabase.delivery?]
    have hsound : QueueSound J (Function.update returned key rawFileIds) mapped := by
      constructor
      · rw [hjobs]
        exact sound.keys
      · rw [hdeliveries]
        exact sound.kinds
      · rw [hjobs]
        intro job hjob
        by_cases hkey : job.executionKey = key
        · subst hkey
          rw [Function.update_self]
          refine (sound.jobs job hjob).delivers (fun type found h => ?_) ?_
          · exact ⟨found, (hfound _ type).trans h, rfl, Nat.le_refl _⟩
          · intro found decoded h hdecoded _
            obtain rfl : delivery = found := Option.some.inj (hdelivery.symm.trans h)
            obtain rfl : manifest = decoded := Except.ok.inj (hmanifest.symm.trans hdecoded)
            exact hregistered
        · rw [Function.update_of_ne hkey]
          exact (sound.jobs job hjob).keeps (hkept _ hkey)
    refine hsound.updateJobs (fun _ => rfl) fun job _ hselected hjob => ?_
    obtain ⟨hkey, hstage⟩ := jobIn_iff.mp hselected
    have heffective := effectiveStage_of_executable (List.mem_singleton.mp hstage) rfl
    have hrun := hjob.run
    rw [heffective] at hrun
    constructor
    · exact ⟨.reportBuilding, rfl, rfl⟩
    · exact hjob.start
    · simpa [PendingJob.effectiveStage, isExecutableStage] using hrun
    · intro h
      cases h
    · intro h
      cases h
    · intro _
      subst hkey
      rw [Function.update_self]
      exact ⟨delivery, (hfound _ _).trans hdelivery, manifest, hmanifest, hregistered⟩
    · intro h
      cases h

/-! ## The failure of a delivery -/

theorem QueueSound.recordDeliveryFailure (sound : QueueSound J returned db) {type : RequestType}
    {idempotencyKey errorKind : Bytes} {retryable : Bool} {retryDelay now : ℤ}
    (hstage : (QueueOperation.recordDeliveryFailure type idempotencyKey retryable errorKind
      retryDelay now).InStage db)
    (h : recordDeliveryFailure type idempotencyKey retryable errorKind retryDelay now db =
      .ok after) : QueueSound J returned after := by
  have hcounted : QueueSound J returned (db.updateDeliveries (deliveryIs type idempotencyKey)
      fun delivery => delivery.failed (now + retryDelay)) := by
    apply sound.updateDeliveries
    · exact fun _ => rfl
    · exact fun _ => rfl
    · exact fun _ => rfl
    · exact fun _ => ⟨rfl, Nat.le_succ _⟩
  unfold Agent.recordDeliveryFailure at h
  split at h
  · dsimp only at h
    split at h
    · rename_i delivery hdelivery
      cases h
      have hmem := List.mem_of_find?_eq_some hdelivery
      have hselected : deliveryIs type idempotencyKey delivery = true :=
        List.find?_some hdelivery
      have htype : delivery.requestType = type := by
        simp only [deliveryIs, Bool.and_eq_true, beq_iff_eq] at hselected
        exact hselected.1
      refine hcounted.updateJobs (fun _ => rfl) fun job hjob hparks hsound => ?_
      obtain ⟨hkey, hdeliverable⟩ := jobIn_iff.mp hparks
      have hown : job.stage = type.stage := hstage delivery hmem hselected job hjob hkey hdeliverable
      have heffective : job.effectiveStage = some job.stage := by
        apply effectiveStage_of_executable rfl
        rw [hown]
        cases type <;> rfl
      refine hsound.restage rfl rfl ?_ ?_
      · rw [heffective]
        cases retryable <;> rfl
      · intro _
        refine ⟨type, congrArg some hown, delivery.failed (now + retryDelay), ?_, ?_⟩
        · have hfound := sound.delivery?_of_mem hmem
          rw [htype, ← hkey] at hfound
          refine (delivery?_updateDeliveries _ ?_ ?_ type).trans ?_
          · exact fun _ => rfl
          · exact fun _ => rfl
          · rw [hfound, Option.map_some, hselected]
            rfl
        · exact Nat.le_add_left _ _
    · cases h
      exact hcounted
  · cases h

/-! ## Runs -/

/-- An operation in its stage keeps the queue sound. -/
theorem QueueSound.run (sound : QueueSound J returned db) (operation : QueueOperation)
    (inStage : operation.InStage db) (h : operation.run J store db = .ok after) :
    QueueSound J (QueueHistory.record returned operation) after := by
  cases operation with
  | beginJob task request retryFiles now =>
    obtain ⟨⟨isNew, database⟩, hbegin, rfl⟩ := map_eq_ok.mp h
    exact sound.beginJob hbegin
  | saveFilePlan key files failures => exact sound.saveFilePlan h
  | saveFileFailures key failures => exact sound.saveFileFailures h
  | markFileFailed key ordinal errorDetail failures => exact sound.markFileFailed h
  | acceptStart key taskRunId => exact sound.acceptStart h
  | markFileArchived key ordinal => exact sound.markFileArchived h
  | saveManifest key request => exact sound.saveManifest h
  | acceptManifest key rawFileIds => exact sound.acceptManifest h
  | saveReport key request outcomes => exact sound.saveReport h
  | completeJob key now => exact sound.completeJob h
  | discardStartPendingJob key => exact sound.discardStartPendingJob h
  | markRequiresAttention key errorKind => exact sound.markRequiresAttention h
  | recordDeliveryFailure type idempotencyKey retryable errorKind retryDelay now =>
    exact sound.recordDeliveryFailure inStage h
  | resumeDelivery type idempotencyKey => exact sound.resumeDelivery h
  | retryAttentionJob key =>
    obtain ⟨⟨status, database⟩, hretry, rfl⟩ := map_eq_ok.mp h
    exact sound.retryAttentionJob hretry

/-- Every reachable queue is sound. -/
theorem queueSound_of_reachable {history : QueueHistory}
    (reached : QueueReachable J store history) :
    QueueSound J history.returned history.database := by
  induction reached with
  | fresh => exact ⟨.nil, .nil, fun job hjob => absurd hjob List.not_mem_nil⟩
  | step operation reached inStage ih =>
    unfold QueueHistory.after
    split
    · rename_i database h
      exact ih.run operation inStage h
    · exact ih

/-- Operations that are in their stage whatever the queue reach a further history. -/
theorem QueueReachable.run {history : QueueHistory} (reached : QueueReachable J store history)
    {operations : List QueueOperation}
    (inStage : ∀ operation ∈ operations, ∀ db, operation.InStage db) :
    QueueReachable J store (operations.foldl (QueueHistory.after J store) history) := by
  induction operations generalizing history with
  | nil => exact reached
  | cons operation rest ih =>
    apply ih (.step operation reached (inStage operation List.mem_cons_self _))
    exact fun other hother => inStage other (List.mem_cons_of_mem _ hother)

/-- Every pending job of a reachable queue is sound in its stage. -/
theorem pending_jobs_sound {history : QueueHistory} (reached : QueueReachable J store history) :
    ∀ job ∈ history.database.jobs,
      JobSound J history.database (history.returned job.executionKey) job :=
  (queueSound_of_reachable reached).jobs

/-! ## Two entries of one path -/

/-- A queue of one node. -/
def pathStore : AgentQueueStore := ⟨text "n", 4, 4⟩

/-- A task of the node. -/
def pathTask : TaskConfig where
  id := text "t"
  nodeCode := text "n"
  dataSourceId := text "d"
  name := text "t"
  taskType := text "collect"
  scheduleExpr := text "* * * * *"
  parserType := text "csv"
  qcProfile := []
  enabled := true
  dataSource := ⟨text "d", text "n", .localDirectory, text "d", []⟩
  qcRules := []

/-- A start of the task. -/
def pathStart : StartTaskRunRequest :=
  ⟨text "n", text "t", text "k", text "s", text "s", text "scheduled"⟩

/-- A planned file. -/
def pathPlan : PendingFilePlan where
  ordinal := 0
  sourcePath := text "a"
  originalName := text "a"
  sourceMtime := text "m"
  sizeBytes := 1
  fileHash := text "h"
  fingerprint := text "f"
  archivePath := text "p"

/-- A manifest that names the file twice. -/
def pathManifest : RawFileManifestRequest where
  taskRunId := text "1"
  nodeCode := text "n"
  idempotencyKey := text "k"
  files := List.replicate 2 ⟨text "a", text "h", text "p", 1, text "m", text "archived_local"⟩

/-- The manifest is accepted with two identifiers. -/
def pathOperations : List QueueOperation :=
  [.beginJob pathTask pathStart [] (text "s"),
    .acceptStart (text "k") (text "1"),
    .saveFilePlan (text "k") [pathPlan] [],
    .saveManifest (text "k") pathManifest,
    .acceptManifest (text "k") [text "1", text "2"]]

/-- The queue after the acceptance. -/
def pathHistory : QueueHistory :=
  pathOperations.foldl (QueueHistory.after compactNlohmann pathStore) {}

theorem reachable_pathHistory : QueueReachable compactNlohmann pathStore pathHistory := by
  apply QueueReachable.fresh.run
  intro operation hoperation db
  simp only [pathOperations, List.mem_cons, List.not_mem_nil, or_false] at hoperation
  rcases hoperation with rfl | rfl | rfl | rfl | rfl <;> trivial

theorem pending_jobs_sound_path : ∃ job ∈ pathHistory.database.jobs,
    job.effectiveStage = some .reportBuilding ∧ JobSound compactNlohmann pathHistory.database
      (pathHistory.returned job.executionKey) job := by
  have hjob : ∃ job ∈ pathHistory.database.jobs, job.effectiveStage = some .reportBuilding := by
    decide +kernel
  obtain ⟨job, hmem, hstage⟩ := hjob
  exact ⟨job, hmem, hstage, pending_jobs_sound reachable_pathHistory job hmem⟩

/-- The file of two entries carries the identifier of the later one alone. -/
theorem not_every_entry_registered :
    ¬∀ history : QueueHistory, QueueReachable compactNlohmann pathStore history →
      ∀ job ∈ history.database.jobs, job.effectiveStage = some .reportBuilding →
        ∃ delivery, history.database.delivery? job.executionKey .manifest = some delivery ∧
          ∃ manifest, decodeRawFileManifestRequest compactNlohmann
              (readText delivery.requestJson) = .ok manifest ∧
            ∀ (position : ℕ) (entry : RawFileManifestEntry) (rawFileId : Bytes),
              manifest.files[position]? = some entry →
              (history.returned job.executionKey)[position]? = some rawFileId →
              ∃ file ∈ history.database.files, file.executionKey = job.executionKey ∧
                file.archivePath = entry.storagePath ∧ file.rawFileId = some rawFileId := by
  intro claimed
  have hjob : ∃ job ∈ pathHistory.database.jobs, job.executionKey = text "k" ∧
      job.effectiveStage = some .reportBuilding := by decide +kernel
  obtain ⟨job, hmem, hkey, hstage⟩ := hjob
  obtain ⟨delivery, hdelivery, manifest, hmanifest, hfiles⟩ :=
    claimed pathHistory reachable_pathHistory job hmem hstage
  rw [hkey] at hdelivery hfiles
  have hstored : ((pathHistory.database.delivery? (text "k") .manifest).map fun delivery =>
      (decodeRawFileManifestRequest compactNlohmann (readText delivery.requestJson)).toOption) =
        some (some pathManifest) := by decide +kernel
  have hsame : manifest = pathManifest := by
    rw [hdelivery, Option.map_some, hmanifest] at hstored
    exact Option.some.inj (Option.some.inj hstored)
  subst hsame
  have hfirst := hfiles 0 _ (text "1") rfl (by decide +kernel)
  have hnone : ∀ file ∈ pathHistory.database.files, file.rawFileId ≠ some (text "1") := by
    decide +kernel
  obtain ⟨file, hfile, -, -, hraw⟩ := hfirst
  exact hnone file hfile hraw

end LabBridge.Agent
