import LabBridge.Agent.FittingSteps
import LabBridge.Agent.JobRuns

/-!
# A run whose steps fit

Every stage of a run begins with a job as it was loaded, and leaves one that was loaded again. As
long as each step fits, no stage ends with an exception of the queue, and a collection that has
failed leaves a job that can still be reported or parked.
-/

namespace LabBridge.Agent

open ByteText JsonText Fallible Interaction Interaction.Program Delivered LabBridge.Core

variable {J : Nlohmann} {store : AgentQueueStore} {executor : TaskExecutor}
  {client : ReliableDeliveryClient} {db reached : QueueDatabase} {key : Bytes}

/-! ## Exceptions of other classes -/

/-- A question about a path. -/
theorem noQueueError_pathResult {α : Type} (result : Except LinkedTree.WalkError α) :
    NoQueueError (pathResult result) := by
  cases result with
  | error error => exact NoQueueError.error_iff.mpr fun message h => by cases h
  | ok value => exact .ok value

/-- Checking the types of a task. -/
theorem noQueueError_validateExecutionTypes (task : TaskConfig) :
    NoQueueError (validateExecutionTypes task) := by
  unfold validateExecutionTypes
  split
  · simp
  · split <;> simp

/-- Reading the source of a task. -/
theorem noQueueError_parseSourceSpec (fs : LinkedTree.FileSystem) (task : TaskConfig)
    (roots : List LinkedTree.PathText) : NoQueueError (parseSourceSpec J fs task roots) := by
  unfold parseSourceSpec
  split
  · simp
  · split
    · split
      · simp
      · refine .bind (noQueueError_pathResult _) fun rootPath => ?_
        split
        · simp
        · split <;> simp
    · simp

/-- Planning an archive path. -/
theorem noQueueError_nextArchivePath (job : RecoveredJob) (plan : List PendingFilePlan)
    (originalName : Bytes) : NoQueueError (nextArchivePath executor job plan originalName) := by
  unfold nextArchivePath LocalArchiveStore.planArchivePath
  split <;> simp

/-- Planning collected files. -/
theorem noQueueError_planCollected {fs : LinkedTree.FileSystem}
    {readings : CollectedItem → ClockReadings} {job : RecoveredJob} {items : List CollectedItem}
    {plan : List PendingFilePlan} {failures : List TaskRunReportFailedFile} :
    NoQueueError (planCollected fs executor readings db job items plan failures) := by
  induction items generalizing plan failures with
  | nil => exact .ok _
  | cons item rest ih =>
    unfold planCollected
    split
    · exact .ok _
    · split
      · exact ih
      · split
        · exact ih
        · exact .bind (noQueueError_nextArchivePath _ _ _) fun archivePath => ih

/-- Planning the targets of a retry. -/
theorem noQueueError_planTargets {fs : LinkedTree.FileSystem}
    {readings : CollectedItem → ClockReadings} {job : RecoveredJob} {source : SourceSpec}
    {targets : List RetryFileInput} {plan : List PendingFilePlan}
    {failures : List TaskRunReportFailedFile} :
    NoQueueError (planTargets fs executor readings db job source targets plan failures) := by
  induction targets generalizing plan failures with
  | nil => exact .ok _
  | cons target rest ih =>
    unfold planTargets
    refine .bind (noQueueError_nextArchivePath _ _ _) fun archivePath => ?_
    split
    · exact ih
    · split
      · exact ih
      · exact ih

/-- Choosing the inputs of a job. -/
theorem noQueueError_chooseInputs (fs : LinkedTree.FileSystem)
    (readings : CollectedItem → ClockReadings) (job : RecoveredJob) :
    NoQueueError (chooseInputs J fs executor readings db job) := by
  unfold chooseInputs planFromDirectory planFromRetryTargets
  split
  · refine .bind (noQueueError_validateExecutionTypes _) fun _ => ?_
    refine .bind (noQueueError_parseSourceSpec _ _ _) fun source => ?_
    split
    · simp
    · exact noQueueError_planCollected
  · refine .bind (noQueueError_validateExecutionTypes _) fun _ => ?_
    exact .bind (noQueueError_parseSourceSpec _ _ _) fun source => noQueueError_planTargets

/-- Reading the record of a row. -/
theorem noQueueError_rowRecord (header row : List Bytes) :
    NoQueueError (rowRecord J header row) := by
  have hvalue : ∀ value, NoQueueError (jsonStringValue J value) :=
    fun value => .bind (noQueueError_dumped _) fun dumped => .pure _
  have hfield : ∀ column, NoQueueError (payloadField J column) :=
    fun column => .bind (hvalue _) fun name => .bind (hvalue _) fun value => .pure _
  unfold rowRecord makePayloadJson
  refine .bind (.bind (.mapM _ hfield) fun fields => .pure _) fun payloadJson => ?_
  exact .pure _

/-- Parsing the lines of a file. -/
theorem noQueueError_parseLines {header lines : List Bytes} {lineNumber : ℕ}
    {result : ParseResult} : NoQueueError (parseLines J header lineNumber lines result) := by
  induction lines generalizing lineNumber result with
  | nil => exact .ok _
  | cons line rest ih =>
    unfold parseLines
    dsimp only
    split
    · exact ih
    · split
      · exact .ok _
      · split
        · exact ih
        · split
          · exact ih
          · exact .bind (noQueueError_rowRecord _ _) fun record => ih

/-- Drafting the report of a job. -/
theorem noQueueError_draftReport (content : Bytes → Option Bytes) (job : RecoveredJob) :
    NoQueueError (draftReport J content job) := by
  have hparse : ∀ file, NoQueueError (parseCsv J file) := by
    intro file
    unfold parseCsv
    split
    · exact .ok _
    · split
      · exact .ok _
      · dsimp only
        split
        · exact .ok _
        · exact noQueueError_parseLines
  have hfiles : ∀ (files : List PendingFilePlan) (draft : ReportDraft),
      NoQueueError (files.foldlM (reportFile J content job.task.qcRules) draft) := by
    intro files
    induction files with
    | nil => exact fun draft => .ok draft
    | cons file rest ih =>
      intro draft
      rw [List.foldlM_cons]
      refine .bind ?_ ih
      unfold reportFile
      split
      · exact .ok _
      · exact .bind (hparse _) fun parsed => .pure _
  exact hfiles job.files (startedDraft job)

/-! ## Loaded jobs -/

/-- A job as it was loaded from a reachable queue: it is not parked, and it shows its plan. -/
structure Loaded (J : Nlohmann) (store : AgentQueueStore) (key : Bytes) (db : QueueDatabase)
    (job : RecoveredJob) : Prop where
  reaches : Reaches J store db
  row : ∃ row, db.job? key = some row ∧ row.stage ≠ .requiresAttention ∧
    row.executionStage = job.stage
  named : job.executionKey = key
  files : job.files = recoverFilePlan db key

variable {job : RecoveredJob}

/-- A job whose key is read back whole is loaded so. -/
theorem loaded_of_loadJob (plain : 0 ∉ key) (reaches : Reaches J store db)
    (h : loadJob J db key = .ok job) : Loaded J store key db job := by
  unfold loadJob at h
  split at h
  · rename_i row start hrow hstart
    split at h
    · cases h
    · rename_i hunparked
      have hkey := (mem_of_job? hrow).2
      simp only [readRecoveredJob, bind_eq_ok, pure_eq_ok] at h
      obtain ⟨task, -, startRequest, -, manifestRequest, -, reportRequest, -, retryFiles, -,
        fileFailures, -, rfl⟩ := h
      refine ⟨reaches, ⟨row, hrow, hunparked, rfl⟩, ?_, ?_⟩
      · rw [← hkey] at plain
        exact (readText_of_notMem plain).trans hkey
      · dsimp only
        rw [hkey, readText_of_notMem plain]
  · cases h

/-- A job that can be executed is loaded without an exception of the queue. -/
theorem Workable.loadJob (h : Workable J store key db) :
    NoQueueError (Agent.loadJob J db key) := by
  obtain ⟨stage, hexecutable, ⟨history, reachable, rfl⟩, row, hrow, rfl⟩ := h
  have sound := queueSound_of_reachable reachable
  obtain ⟨hmem, rfl⟩ := mem_of_job? hrow
  obtain ⟨start, hstart⟩ := (sound.jobs row hmem).start
  obtain ⟨failures, hfailures⟩ := (holdsFailures_of_reachable reachable row hmem).decodes
  unfold Agent.loadJob
  rw [hrow, hstart]
  dsimp only
  rw [if_neg]
  · exact noQueueError_readRecoveredJob hfailures start
  · intro hparked
    rw [hparked] at hexecutable
    cases hexecutable

/-- A job that can be executed stands in a reachable queue. -/
theorem Workable.reaches (h : Workable J store key db) : Reaches J store db := by
  obtain ⟨stage, -, hstands⟩ := h
  exact hstands.reaches

/-- A job that is loaded in a stage which no delivery waits in stands in it. -/
theorem Loaded.standsIn {stage : Stage} (loaded : Loaded J store key db job)
    (hstage : job.stage = some stage) (hunwaited : ∀ type : RequestType, stage ≠ type.stage) :
    StandsIn J store key stage db := by
  obtain ⟨returned, sound⟩ := loaded.reaches.sound
  obtain ⟨row, hrow, -, hsame⟩ := loaded.row
  refine ⟨loaded.reaches, row, hrow, ?_⟩
  rw [hstage, PendingJob.executionStage] at hsame
  by_cases hwaits : row.stage = .retryWait
  · rw [if_pos hwaits] at hsame
    obtain ⟨type, htype, -⟩ := (sound.jobs row (mem_of_job? hrow).1).waiting hwaits
    rw [hsame, Option.some.injEq] at htype
    exact absurd htype (hunwaited type)
  · rw [if_neg hwaits] at hsame
    exact Option.some.inj hsame

/-- A loaded job shows a plan of all its files. -/
theorem Loaded.length_files (loaded : Loaded J store key db job) :
    (db.filesOf key).length = job.files.length := by
  rw [loaded.files, recoverFilePlan, List.length_map, (List.perm_insertionSort _ _).length_eq]

/-- Every file of a loaded job stands at its place. -/
theorem Loaded.places (loaded : Loaded J store key db job) :
    ∀ file ∈ job.files, db.files.countP (fileAt key file.ordinal) = 1 := by
  obtain ⟨history, reachable, rfl⟩ := loaded.reaches
  intro file hfile
  rw [loaded.files] at hfile
  obtain ⟨row, hrow, rfl⟩ := List.mem_map.mp hfile
  rw [List.mem_insertionSort] at hrow
  obtain ⟨hmem, hkey⟩ := List.mem_filter.mp hrow
  exact (placed_of_reachable reachable).countP_fileAt hmem (beq_iff_eq.mp hkey)

/-- A delivery whose request is kept under its key raises no exception of the queue, and an answer
leaves the job in the stage of the request. -/
theorem Loaded.delivered {α : Type} {idempotencyKey : Bytes} {body : Except AgentError Bytes}
    (loaded : Loaded J store key db job) (plain : 0 ∉ key) (type : RequestType)
    (hstage : job.stage = some type.stage) (hkept : KeptUnder db key type idempotencyKey)
    (hbody : NoQueueError body) (tape : DeliveryTape α) :
    NoQueueError (delivered client type idempotencyKey body tape db).1 ∧
      ∀ value, (delivered client type idempotencyKey body tape db).1 = .ok value →
        StandsIn J store key type.stage
          (delivered client type idempotencyKey body tape db).2 := by
  obtain ⟨returned, sound⟩ := loaded.reaches.sound
  obtain ⟨row, hrow, -, hsame⟩ := loaded.row
  obtain ⟨hmem, rfl⟩ := mem_of_job? hrow
  obtain ⟨delivery, hdelivery, rfl⟩ := Option.map_eq_some_iff.mp hkept
  rw [hstage] at hsame
  unfold delivered
  cases body with
  | error error =>
    refine ⟨NoQueueError.error_iff.mpr (NoQueueError.error_iff.mp hbody), ?_⟩
    intro value h
    cases h
  | ok httpBody =>
    dsimp only
    by_cases hfits : httpBody.length ≤ client.maxRequestBodyBytes
    · obtain ⟨⟨ends, hends⟩, -, hreaches⟩ :=
        deliver_of_fits sound loaded.reaches hmem hsame hdelivery hfits tape
      cases ends with
      | success =>
        obtain ⟨value, -, houtcome, row, hfound, hleft, -⟩ := hends
        rw [houtcome]
        exact ⟨.ok _, fun _ _ => ⟨hreaches, row, hfound, hleft⟩⟩
      | permanent =>
        obtain ⟨error, -, -, -, houtcome, -⟩ := hends
        rw [houtcome]
        exact ⟨by simp [DeliveryException.toError], fun value h => by cases h⟩
      | authRejected =>
        obtain ⟨turn, -, error, -, -, -, houtcome, -⟩ := hends
        rw [houtcome]
        exact ⟨by simp [DeliveryException.toError], fun value h => by cases h⟩
      | stopped =>
        obtain ⟨-, houtcome, -⟩ := hends
        rw [houtcome]
        exact ⟨by simp [DeliveryException.toError], fun value h => by cases h⟩
      | oversized => exact hends.elim
    · have hpark := sound.markRequiresAttention_eq hrow hsame type.isExecutableStage_stage
        (text "payload_too_large")
      rw [deliver_of_oversized sound hdelivery (Nat.lt_of_not_le hfits),
        readText_of_notMem plain, hpark]
      exact ⟨by simp [storing, Delivered.raised, DeliveryException.toError],
        fun value h => by cases h⟩

/-! ## Safe parts -/

/-- A safe end is no exception of the queue: it is a good value, or a failure that leaves the job
as it has to be. -/
structure EndsSafely {α : Type} (good : α → QueueDatabase → Prop) (left : QueueDatabase → Prop)
    (result : Except AgentError α) (reached : QueueDatabase) : Prop where
  noQueueError : NoQueueError result
  good : ∀ value, result = .ok value → good value reached
  left : ∀ error, result = .error error → left reached

/-- The run of a queued job whose key is read back whole. -/
structure ResumedRun where
  J : Nlohmann
  store : AgentQueueStore
  executor : TaskExecutor
  client : ReliableDeliveryClient
  around : Surroundings
  key : Bytes
  plain : 0 ∉ key

namespace ResumedRun

variable (run : ResumedRun)

/-- The queue as the run uses it. -/
abbrev handler : Handler QueueCall AgentError QueueDatabase :=
  queueHandler run.J run.store run.executor run.client

/-- A step of the run that the queue does not refuse. -/
abbrev Fits (β : Type) (call : QueueCall β) (db : QueueDatabase) : Prop :=
  call.Fits run.J run.key db

/-- A part of the run ends safely when its steps fit. -/
def Safe {α : Type} (good : α → QueueDatabase → Prop) (left : QueueDatabase → Prop)
    (program : JobProgram α) (db : QueueDatabase) : Prop :=
  program.Grants run.handler run.Fits (EndsSafely good left) db

variable {run} {α β : Type} {good : α → QueueDatabase → Prop} {left : QueueDatabase → Prop}

/-- A value ends a part safely where it is good. -/
theorem safe_ret {value : α} (hgood : good value db) : run.Safe good left (.ret value) db where
  noQueueError := .ok value
  good := by
    intro other heq
    cases heq
    exact hgood
  left := by
    intro error heq
    cases heq

/-- An exception of another class ends a part safely. -/
theorem safe_stop {error : AgentError} (herror : ∀ message, error ≠ .queue message)
    (hleft : left db) : run.Safe good left (.stop error) db where
  noQueueError := NoQueueError.error_iff.mpr herror
  good := by
    intro value heq
    cases heq
  left := fun _ _ => hleft

/-- A part goes on where the one before it ended. -/
theorem Safe.bind {program : JobProgram α} {next : α → JobProgram β}
    {final : β → QueueDatabase → Prop} (h : run.Safe good left program db)
    (hnext : ∀ value reached, good value reached → run.Safe final left (next value) reached) :
    run.Safe final left (program >>= next) db := by
  apply Grants.bind h
  · intro value reached hmiddle
    exact hnext value reached (hmiddle.good value rfl)
  · intro error reached hmiddle
    refine ⟨NoQueueError.error_iff.mpr (NoQueueError.error_iff.mp hmiddle.noQueueError), ?_,
      fun _ _ => hmiddle.left error rfl⟩
    intro value heq
    cases heq

/-- The value of a part may be wrapped. -/
theorem Safe.map {program : JobProgram α} {wrap : α → β} {final : β → QueueDatabase → Prop}
    (h : run.Safe good left program db)
    (hgood : ∀ value reached, good value reached → final (wrap value) reached) :
    run.Safe final left (wrap <$> program) db := by
  apply Safe.bind h
  intro value reached hvalue
  exact safe_ret (hgood value reached hvalue)

/-- What stands in for a part goes on with what its failure has left. -/
theorem Safe.rescue {program : JobProgram α} {instead : AgentError → JobProgram α}
    {less : QueueDatabase → Prop} (h : run.Safe good left program db)
    (hinstead : ∀ error reached, (∀ message, error ≠ .queue message) → left reached →
      run.Safe good less (instead error) reached) :
    run.Safe good less (program.rescue instead) db := by
  apply Grants.rescue _ h
  · intro value reached hmiddle
    refine ⟨.ok value, hmiddle.good, ?_⟩
    intro error heq
    cases heq
  · intro error reached hmiddle
    exact hinstead error reached (NoQueueError.error_iff.mp hmiddle.noQueueError)
      (hmiddle.left error rfl)
  · exact fun _ call state => ⟨_, _, rfl⟩

/-- A computation that ends safely is raised so. -/
theorem safe_raised {result : Except AgentError α} (h : EndsSafely good left result db) :
    run.Safe good left (raised result) db := by
  cases result with
  | error error => exact safe_stop (NoQueueError.error_iff.mp h.noQueueError) (h.left error rfl)
  | ok value => exact safe_ret (h.good value rfl)

/-- A call that fits is answered without an exception of the queue. -/
theorem safe_must {call : QueueCall (Except AgentError α)}
    (h : call.Fits run.J run.key db → EndsSafely good left
      (answerCall run.J run.store run.executor run.client call db).1
      (answerCall run.J run.store run.executor run.client call db).2) :
    run.Safe good left (must call) db := by
  apply grants_call_ok rfl
  intro hfits
  exact safe_raised (h hfits)

/-- An operation that the queue takes. -/
theorem safe_write {operation : QueueOperation} {next : QueueDatabase → Prop} (hleft : left db)
    (h : operation.Fits run.J db → Takes run.J run.store operation db next) :
    run.Safe (fun _ reached => next reached) left (must (.write operation)) db := by
  apply safe_must
  intro hfits
  obtain ⟨hquiet, hnext⟩ := h hfits
  cases hrun : operation.run run.J run.store db with
  | error error =>
    have hanswer : answerCall run.J run.store run.executor run.client (.write operation) db =
        (.error error, db) := by
      simp only [answerCall, hrun]
    rw [hanswer]
    rw [hrun] at hquiet
    refine ⟨NoQueueError.error_iff.mpr (NoQueueError.error_iff.mp hquiet), ?_, fun _ _ => hleft⟩
    intro value heq
    cases heq
  | ok reached =>
    have hanswer : answerCall run.J run.store run.executor run.client (.write operation) db =
        (.ok (), reached) := by
      simp only [answerCall, hrun]
    rw [hanswer]
    refine ⟨.ok _, fun _ _ => hnext reached hrun, ?_⟩
    intro error heq
    cases heq

/-- An operation behind which the part ends. -/
theorem safe_last {operation : QueueOperation}
    (h : operation.Fits run.J db → NoQueueError (operation.run run.J run.store db)) :
    run.Safe (fun _ _ => True) (fun _ => True) (must (.write operation)) db :=
  safe_write trivial fun hfits => ⟨h hfits, fun _ _ => trivial⟩

/-- A job that can be executed is loaded. -/
theorem safe_load {name : Bytes} (h : Workable run.J run.store run.key db) (hname : name = run.key)
    (hleft : left db) :
    run.Safe (fun job reached => Loaded run.J run.store run.key reached job) left
      (must (.loadJob name)) db := by
  apply safe_must
  intro _
  rw [hname]
  exact ⟨h.loadJob, fun job hjob => loaded_of_loadJob run.plain h.reaches hjob, fun _ _ => hleft⟩

/-! ## Collecting -/

variable {job : RecoveredJob}

/-- A job that is collecting, as it was loaded. -/
def Collects (run : ResumedRun) (job : RecoveredJob) (db : QueueDatabase) : Prop :=
  Loaded run.J run.store run.key db job ∧ StandsIn run.J run.store run.key .collecting db

/-- A collecting job can be executed. -/
theorem workable_collecting (h : StandsIn run.J run.store run.key .collecting db) :
    Workable run.J run.store run.key db := ⟨.collecting, rfl, h⟩

/-- A collecting job is loaded. -/
theorem safe_reload (h : StandsIn run.J run.store run.key .collecting db) {name : Bytes}
    (hname : name = run.key) :
    run.Safe run.Collects (Workable run.J run.store run.key) (must (.loadJob name)) db := by
  apply safe_must
  intro _
  have hworkable := workable_collecting h
  rw [hname]
  exact ⟨hworkable.loadJob, fun job hjob => ⟨loaded_of_loadJob run.plain h.reaches hjob, h⟩,
    fun _ _ => hworkable⟩

/-- A job without a plan gets one. -/
theorem safe_planStage (h : run.Collects job db) :
    run.Safe run.Collects (Workable run.J run.store run.key) (planStage run.around job) db := by
  obtain ⟨loaded, hstands⟩ := h
  have hworkable := workable_collecting hstands
  unfold planStage
  split
  · rename_i hnew
    have hempty : db.filesOf run.key = [] := by
      rw [Bool.and_eq_true, List.isEmpty_iff] at hnew
      apply List.eq_nil_of_length_eq_zero
      rw [loaded.length_files, hnew.1, List.length_nil]
    have hchosen : run.Safe (fun _ reached => reached = db) (Workable run.J run.store run.key)
        (must (.chooseInputs run.around.files run.around.readings job)) db :=
      safe_must fun _ => ⟨noQueueError_chooseInputs _ _ _, fun _ _ => rfl, fun _ _ => hworkable⟩
    apply Safe.bind hchosen
    rintro chosen _ rfl
    rw [loaded.named]
    apply Safe.bind (safe_write hworkable fun hfits => hstands.saveFilePlan hempty hfits)
    intro _ saved hsaved
    exact safe_reload hsaved rfl
  · exact safe_ret ⟨loaded, hstands⟩

/-- The failures of a job are completed. -/
theorem safe_amendStage (h : run.Collects job db) :
    run.Safe run.Collects (Workable run.J run.store run.key) (amendStage job) db := by
  obtain ⟨loaded, hstands⟩ := h
  unfold amendStage
  split
  · exact safe_ret ⟨loaded, hstands⟩
  · rw [loaded.named]
    apply Safe.bind (safe_write (workable_collecting hstands) fun _ => hstands.saveFileFailures)
    intro _ saved hsaved
    exact safe_reload hsaved rfl

/-- The files of a plan are archived. The job stays as it was loaded when nothing was archived and
no file has failed. -/
theorem safe_archiveFiles {files : List PendingFilePlan} {archived : ArchivedFiles}
    (hnamed : job.executionKey = run.key)
    (hstands : StandsIn run.J run.store run.key .collecting db)
    (hplaces : ∀ file ∈ files, db.files.countP (fileAt run.key file.ordinal) = 1)
    (hidle : JobRun.Idle archived → Loaded run.J run.store run.key db job) :
    run.Safe
      (fun ended reached => StandsIn run.J run.store run.key .collecting reached ∧
        (JobRun.Idle ended → Loaded run.J run.store run.key reached job))
      (Workable run.J run.store run.key) (archiveFiles run.around job files archived) db := by
  induction files generalizing archived db with
  | nil => exact safe_ret ⟨hstands, hidle⟩
  | cons file rest ih =>
    have hworkable := workable_collecting hstands
    have hplace := hplaces file List.mem_cons_self
    have hlater : ∀ {operation : QueueOperation} {next : QueueDatabase},
        operation.isEdit = true → operation.run run.J run.store db = .ok next →
        ∀ other ∈ rest, next.files.countP (fileAt run.key other.ordinal) = 1 := by
      intro operation next hedit hrun other hother
      rw [(edits_run hedit hrun).countP_fileAt]
      exact hplaces other (List.mem_cons_of_mem _ hother)
    unfold archiveFiles
    split
    · exact ih hstands (fun other hother => hplaces other (List.mem_cons_of_mem _ hother)) hidle
    split
    · exact safe_stop (fun message h => by cases h) hworkable
    have hfailed : ∀ {failures : List TaskRunReportFailedFile} {message : Bytes}, run.Safe
        (fun ended reached => StandsIn run.J run.store run.key .collecting reached ∧
          (JobRun.Idle ended → Loaded run.J run.store run.key reached job))
        (Workable run.J run.store run.key)
        (do
          must (.write (.markFileFailed job.executionKey file.ordinal message failures))
          archiveFiles run.around job rest
            { archived with failures := failures, failedThisRun := true }) db := by
      intro failures message
      rw [hnamed]
      have htaken : Takes run.J run.store (.markFileFailed run.key file.ordinal message failures) db
          (StandsIn run.J run.store run.key .collecting) := hstands.markFileFailed hplace
      apply Safe.bind (safe_write hworkable fun _ =>
        ⟨htaken.noQueueError, fun next hrun => And.intro (htaken.good next hrun) (hlater rfl hrun)⟩)
      intro _ marked hmarked
      apply ih hmarked.1 hmarked.2
      intro hnone
      cases hnone.2
    split
    · rw [hnamed]
      have htaken := hstands.markFileArchived hplace
      apply Safe.bind (safe_write hworkable fun _ =>
        ⟨htaken.noQueueError, fun next hrun => And.intro (htaken.good next hrun) (hlater rfl hrun)⟩)
      intro _ marked hmarked
      apply ih hmarked.1 hmarked.2
      intro hnone
      exact absurd hnone.1 (List.append_ne_nil_of_right_ne_nil _ (List.cons_ne_nil _ _))
    · exact safe_stop (fun message h => by cases h) hworkable
    · exact hfailed

/-- The manifest of what was archived is saved. -/
theorem safe_manifestStage {archived : ArchivedFiles} (hnamed : job.executionKey = run.key)
    (hstands : StandsIn run.J run.store run.key .collecting db)
    (hidle : JobRun.Idle archived → Loaded run.J run.store run.key db job) :
    run.Safe (fun next reached => Loaded run.J run.store run.key reached next)
      (Workable run.J run.store run.key) (manifestStage job archived) db := by
  have hworkable := workable_collecting hstands
  unfold manifestStage
  split
  · rw [hnamed]
    apply Safe.bind (safe_write hworkable fun hfits => hstands.saveManifest hfits)
    intro _ saved hsaved
    have hleft : Workable run.J run.store run.key saved := ⟨.manifestPending, rfl, hsaved⟩
    exact safe_load hleft rfl hleft
  · rename_i hentries
    split
    · exact safe_load hworkable hnamed hworkable
    · rename_i hfailed
      exact safe_ret (hidle ⟨not_not.mp hentries, (Bool.not_eq_true _).mp hfailed⟩)

/-- A collection leaves a loaded job, or one that can be executed. -/
theorem safe_runCollectingStage (h : run.Collects job db) :
    run.Safe (fun next reached => Loaded run.J run.store run.key reached next)
      (Workable run.J run.store run.key) (runCollectingStage run.around job) db := by
  unfold runCollectingStage
  apply Safe.bind (safe_planStage h)
  intro planned state hplanned
  apply Safe.bind (safe_amendStage hplanned)
  intro amended state hamended
  obtain ⟨loaded, hstands⟩ := hamended
  apply Safe.bind (safe_archiveFiles loaded.named hstands loaded.places fun _ => loaded)
  intro archived state harchived
  exact safe_manifestStage loaded.named harchived.1 harchived.2

/-! ## Stages -/

/-- The report of a job is saved, and the job is loaded with it. -/
theorem safe_saveReport {request : TaskRunReportRequest} {outcomes : List Bool} {name : Bytes}
    (hworkable : Workable run.J run.store run.key db) (hname : name = run.key)
    (hlength : (db.filesOf run.key).length = outcomes.length) :
    run.Safe (fun next reached => Loaded run.J run.store run.key reached next) (fun _ => True)
      (do
        must (.write (.saveReport name request outcomes))
        must (.loadJob name)) db := by
  obtain ⟨stage, hexecutable, hstands⟩ := hworkable
  rw [hname]
  apply Safe.bind (safe_write trivial fun hfits => hstands.saveReport hexecutable hlength hfits)
  intro _ saved hsaved
  exact safe_load hsaved rfl trivial

/-- Some job, if any, is loaded. -/
def LoadsAny (run : ResumedRun) (next : Option RecoveredJob) (db : QueueDatabase) : Prop :=
  ∀ job, next = some job → Loaded run.J run.store run.key db job

/-- No job is loaded. -/
theorem loadsAny_none : run.LoadsAny none db := by
  intro job heq
  cases heq

/-- A loaded job. -/
theorem loadsAny_some (h : Loaded run.J run.store run.key db job) :
    run.LoadsAny (some job) db := by
  intro other heq
  cases heq
  exact h

/-- A collection that has failed is reported, or its job is parked. -/
theorem safe_collectionFailed {error : AgentError} (herror : ∀ message, error ≠ .queue message)
    (hworkable : Workable run.J run.store run.key db) (hnamed : job.executionKey = run.key) :
    run.Safe run.LoadsAny (fun _ => True) (collectionFailed run.around job error) db := by
  have hreported : run.Safe run.LoadsAny (fun _ => True)
      (some <$> saveCollectionFailureReport run.around job error.what) db := by
    have hsaved : run.Safe (fun next reached => Loaded run.J run.store run.key reached next)
        (fun _ => True) (saveCollectionFailureReport run.around job error.what) db := by
      unfold saveCollectionFailureReport
      have hloaded : run.Safe (fun current reached =>
          Loaded run.J run.store run.key reached current ∧ Workable run.J run.store run.key reached)
          (fun _ => True) (must (.loadJob job.executionKey)) db := by
        apply safe_must
        intro _
        rw [hnamed]
        exact ⟨hworkable.loadJob, fun current hcurrent =>
          ⟨loaded_of_loadJob run.plain hworkable.reaches hcurrent, hworkable⟩, fun _ _ => trivial⟩
      apply Safe.bind hloaded
      intro current state hcurrent
      apply safe_saveReport hcurrent.2 hcurrent.1.named
      rw [hcurrent.1.length_files, List.length_replicate]
    exact hsaved.map fun reported reached hreported => loadsAny_some hreported
  unfold collectionFailed
  split
  · rw [hnamed]
    apply Safe.bind (safe_last fun _ => hworkable.markRequiresAttention _)
    intro _ parked _
    exact safe_ret loadsAny_none
  · rename_i message
    exact absurd rfl (herror message)
  · exact hreported

/-- A job is collected. -/
theorem safe_collectStage (h : Loaded run.J run.store run.key db job) :
    run.Safe run.LoadsAny (fun _ => True) (collectStage run.around job) db := by
  unfold collectStage
  split
  · rename_i hstage
    have hstands : StandsIn run.J run.store run.key .collecting db := by
      apply h.standsIn hstage
      intro type
      cases type <;> exact fun heq => by cases heq
    have hcollected : run.Safe run.LoadsAny (Workable run.J run.store run.key)
        (some <$> runCollectingStage run.around job) db :=
      (safe_runCollectingStage ⟨h, hstands⟩).map
        fun collected reached hcollected => loadsAny_some hcollected
    apply hcollected.rescue
    intro error reached herror hleft
    exact safe_collectionFailed herror hleft h.named
  · exact safe_ret (loadsAny_some h)

/-- A job is started, or discarded when its run has ended. -/
theorem safe_startStage (h : Loaded run.J run.store run.key db job) :
    run.Safe run.LoadsAny (fun _ => True) (startStage run.around job) db := by
  unfold startStage
  split
  · rename_i hstage
    have hstarted : run.Safe
        (fun _ reached => StandsIn run.J run.store run.key .startPending reached) (fun _ => True)
        (must (.startTaskRun job.startRequest run.around.start)) db := by
      apply safe_must
      intro hkept
      obtain ⟨hquiet, hanswered⟩ := h.delivered run.plain .start hstage hkept
        (noQueueError_dumped _) run.around.start
      exact ⟨hquiet, hanswered, fun _ _ => trivial⟩
    apply Safe.bind hstarted
    intro started state hstands
    rw [h.named]
    split
    · apply Safe.bind (safe_last fun hfits => hstands.discardStartPendingJob hfits)
      intro _ discarded _
      exact safe_ret loadsAny_none
    split
    · exact safe_stop (fun message heq => by cases heq) trivial
    · apply Safe.bind (safe_write trivial fun _ => hstands.acceptStart started.taskRunId)
      intro _ accepted haccepted
      apply Safe.map (safe_load (workable_collecting haccepted) rfl trivial)
      exact fun loaded reached hloaded => loadsAny_some hloaded
  · exact safe_ret (loadsAny_some h)

/-- The manifest of a job is delivered. -/
theorem safe_deliverManifestStage (h : Loaded run.J run.store run.key db job) :
    run.Safe (fun next reached => Loaded run.J run.store run.key reached next) (fun _ => True)
      (deliverManifestStage run.around job) db := by
  unfold deliverManifestStage
  split
  · rename_i hstage
    have hanswered : run.Safe
        (fun _ reached => StandsIn run.J run.store run.key .manifestPending reached)
        (fun _ => True) (must (.reportRawFileManifest job.manifestRequest run.around.manifest))
        db := by
      apply safe_must
      intro hkept
      obtain ⟨hquiet, hanswered⟩ := h.delivered run.plain .manifest hstage hkept
        (noQueueError_dumped _) run.around.manifest
      exact ⟨hquiet, hanswered, fun _ _ => trivial⟩
    apply Safe.bind hanswered
    intro rawFileIds state hstands
    rw [h.named]
    apply Safe.bind (safe_write trivial fun hfits => hstands.acceptManifest hfits)
    intro _ accepted haccepted
    exact safe_load ⟨.reportBuilding, rfl, haccepted⟩ rfl trivial
  · exact safe_ret h

/-- The report of a job is built. -/
theorem safe_reportStage (h : Loaded run.J run.store run.key db job) :
    run.Safe (fun next reached => Loaded run.J run.store run.key reached next) (fun _ => True)
      (reportStage run.around run.J job) db := by
  unfold reportStage
  split
  · rename_i hstage
    have hworkable : Workable run.J run.store run.key db := by
      rcases hstage with hcollecting | hbuilding
      · refine ⟨.collecting, rfl, h.standsIn hcollecting ?_⟩
        intro type
        cases type <;> exact fun heq => by cases heq
      · refine ⟨.reportBuilding, rfl, h.standsIn hbuilding ?_⟩
        intro type
        cases type <;> exact fun heq => by cases heq
    have hdrafted : run.Safe (fun draft reached => reached = db ∧
        draftReport run.J run.around.content job = .ok draft) (fun _ => True)
        (raised (draftReport run.J run.around.content job)) db :=
      safe_raised ⟨noQueueError_draftReport _ _, fun draft hdraft => ⟨rfl, hdraft⟩,
        fun _ _ => trivial⟩
    apply Safe.bind hdrafted
    rintro draft _ ⟨rfl, hdraft⟩
    apply safe_saveReport hworkable h.named
    rw [h.length_files, draftReport_outcomes hdraft, List.length_map]
  · exact safe_ret h

/-- The report of a job is delivered, and the job is completed. -/
theorem safe_deliverReportStage (h : Loaded run.J run.store run.key db job) :
    run.Safe (fun _ _ => True) (fun _ => True) (deliverReportStage run.around job) db := by
  unfold deliverReportStage
  split
  · rename_i hstage
    have hanswered : run.Safe
        (fun _ reached => StandsIn run.J run.store run.key .reportPending reached) (fun _ => True)
        (must (.reportTaskRun job.reportRequest run.around.report)) db := by
      apply safe_must
      intro hkept
      obtain ⟨hquiet, hanswered⟩ := h.delivered run.plain .report hstage hkept
        (noQueueError_encodeTaskRunReportHttpBody _) run.around.report
      exact ⟨hquiet, hanswered, fun _ _ => trivial⟩
    apply Safe.bind hanswered
    intro _ state hstands
    rw [h.named]
    exact safe_last fun _ => hstands.completeJob _
  · exact safe_ret trivial

/-- A loaded job runs safely. -/
theorem safe_runReliableJob (h : Loaded run.J run.store run.key db job) :
    run.Safe (fun _ _ => True) (fun _ => True) (runReliableJob run.around run.J job) db := by
  unfold runReliableJob
  apply Safe.bind (safe_startStage h)
  intro started state hstarted
  cases started with
  | none => exact safe_ret trivial
  | some started =>
    apply Safe.bind (safe_collectStage (hstarted started rfl))
    intro collected state hcollected
    cases collected with
    | none => exact safe_ret trivial
    | some collected =>
      apply Safe.bind (safe_deliverManifestStage (hcollected collected rfl))
      intro accepted state haccepted
      apply Safe.bind (safe_reportStage haccepted)
      intro reported state hreported
      exact safe_deliverReportStage hreported

end ResumedRun

/-- The run of a queued job raises no exception of the queue when all its steps fit. -/
theorem noQueueError_runReliableJob {around : Surroundings} (plain : 0 ∉ key)
    (reaches : Reaches J store db) (hload : loadJob J db key = .ok job)
    (hfits : (runReliableJob around J job).Meets (queueHandler J store executor client)
      (fun _ call state => call.Fits J key state) (fun _ _ => True) db) :
    NoQueueError
      ((runReliableJob around J job).run (queueHandler J store executor client) db).1 := by
  let run : ResumedRun := ⟨J, store, executor, client, around, key, plain⟩
  have hloaded : Loaded run.J run.store run.key db job := loaded_of_loadJob plain reaches hload
  exact (Grants.run (ResumedRun.safe_runReliableJob hloaded) hfits).noQueueError

end LabBridge.Agent
