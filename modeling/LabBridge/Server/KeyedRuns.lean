import LabBridge.Server.OperatorKeys
import LabBridge.Server.Orderly

/-!
# What a request knows about its key

The run that a request asks for has its trigger type, its task and the parent it retries.
Given how far a request has come, it has found no run under its key, or has inserted or found
one that it asks for. Every commit leaves this knowledge, because stored runs keep their
fixed columns.
-/

namespace LabBridge.Server

open ByteText LabBridge.Core Storage Interaction

variable {R : Runtime} {pg : Postgres} {key : Bytes} {db db' committed view reached : Database}
  {call : Call} {flight other next : Flight} {others : List Flight} {run : TaskRunRow}

/-- A run is stored under an operator key. -/
def UnderKey (key : Bytes) (run : TaskRunRow) : Prop :=
  run.executionKey = some (TaskRunService.operatorKey key)

/-- A run is what a request asks for: of its trigger type, its task and its parent run. -/
def Asks (pg : Postgres) (runs : List TaskRunRow) : Call → TaskRunRow → Prop
  | .trigger taskId _, run => run.triggerType = text "manual" ∧
      pg.idParam taskId = .ok (some run.taskId) ∧ run.retryOfRunId = none
  | .retry taskRunId _, run => run.triggerType = text "retry" ∧
      ∃ parent ∈ runs, pg.idParam taskRunId = .ok (some parent.id) ∧
        run.retryOfRunId = some parent.id ∧ run.taskId = parent.taskId
  | _, _ => False

/-- The bytes of an operator key arrive as they are. -/
theorem ascii_operatorKey (formed : isOperatorIdempotencyKey key = true) :
    (∀ b ∈ TaskRunService.operatorKey key, 0 < b ∧ b < 128) ∧
      (TaskRunService.operatorKey key).length ≤ 128 := by
  simp only [isOperatorIdempotencyKey, isHexadecimal, Bool.and_eq_true, beq_iff_eq,
    List.all_eq_true, Bool.or_eq_true, decide_eq_true_eq] at formed
  obtain ⟨hlength, hdigits⟩ := formed
  have hprefix : ∀ b ∈ text "operator:", 0 < b ∧ b < 128 := by decide +kernel
  constructor
  · intro b hb
    rcases List.mem_append.mp hb with hb | hb
    · exact hprefix b hb
    · have hdigit := hdigits b hb
      simp only [UInt8.le_iff_toNat_le, UInt8.lt_iff_toNat_lt] at hdigit ⊢
      have hbytes : (48 : UInt8).toNat = 48 ∧ (57 : UInt8).toNat = 57 ∧ (65 : UInt8).toNat = 65 ∧
          (70 : UInt8).toNat = 70 ∧ (97 : UInt8).toNat = 97 ∧ (102 : UInt8).toNat = 102 ∧
          (0 : UInt8).toNat = 0 ∧ (128 : UInt8).toNat = 128 := ⟨rfl, rfl, rfl, rfl, rfl, rfl, rfl, rfl⟩
      omega
  · have hsize : (text "operator:").length = 9 := by decide +kernel
    rw [TaskRunService.operatorKey, List.length_append, hlength, hsize]
    decide

/-- An operator key is stored as it is sent. -/
theorem varcharParam_operatorKey (formed : isOperatorIdempotencyKey key = true) :
    pg.varcharParam 128 (TaskRunService.operatorKey key) = .ok (TaskRunService.operatorKey key) :=
  pg.varcharParam_ascii (ascii_operatorKey formed).1 (ascii_operatorKey formed).2

/-- An operator key is looked for as it is sent. -/
theorem textParam_operatorKey (formed : isOperatorIdempotencyKey key = true) :
    pg.textParam (TaskRunService.operatorKey key) = .ok (TaskRunService.operatorKey key) :=
  pg.textParam_ascii (ascii_operatorKey formed).1

/-- Every stored run is found again with its fixed columns. -/
def Carried (before after : Database) : Prop :=
  ∀ run ∈ before.taskRuns.rows, ∃ same ∈ after.taskRuns.rows, SameRun run same

/-- A commit carries the stored runs. -/
theorem carried_of_commit (htidy : Tidy db flight) (hcommit : Overlaid flight.own db committed) :
    Carried db committed := fun _ hrun => exists_sameRun htidy hcommit hrun

/-- What comes between carries the stored runs. -/
theorem Between.carried (h : Between R db db') : Carried db db' := fun _ hrun =>
  (h.moves.2.exists_moved hrun).imp fun _ hmoved => hmoved.imp_right RunMove.same

/-- Runs are carried in two steps. -/
theorem Carried.trans (first : Carried db db') (second : Carried db' committed) :
    Carried db committed := by
  intro run hrun
  obtain ⟨same, hsame, hfirst⟩ := first run hrun
  obtain ⟨later, hlater, hsecond⟩ := second same hsame
  exact ⟨later, hlater, hfirst.trans hsecond⟩

/-- A run keeps its key. -/
theorem UnderKey.same {same : TaskRunRow} (h : UnderKey key run) (hsame : SameRun run same) :
    UnderKey key same := hsame.executionKey.trans h

/-- A run stays what was asked for. -/
theorem Asks.carried (h : Asks pg db.taskRuns.rows call run) (hcarried : Carried db committed)
    {same : TaskRunRow} (hsame : SameRun run same) :
    Asks pg committed.taskRuns.rows call same := by
  cases call with
  | trigger taskId key =>
    obtain ⟨hmanual, htask, hparent⟩ := h
    exact ⟨hsame.triggerType.trans hmanual, hsame.taskId ▸ htask, hsame.retryOfRunId.trans hparent⟩
  | retry taskRunId key =>
    obtain ⟨hagain, parent, hparent, hid, hretries, htask⟩ := h
    obtain ⟨kept, hkept, hfixed⟩ := hcarried parent hparent
    refine ⟨hsame.triggerType.trans hagain, kept, hkept, hfixed.id ▸ hid, ?_, ?_⟩
    · rw [hsame.retryOfRunId, hretries, hfixed.id]
    · rw [hsame.taskId, htask, hfixed.taskId]
  | _ => exact h

/-- Two runs that one request asks for are of one task. -/
theorem Asks.taskId_eq {left right : TaskRunRow} (hleft : Asks pg db.taskRuns.rows call left)
    (hright : Asks pg db.taskRuns.rows call right) : left.taskId = right.taskId := by
  cases call with
  | trigger taskId key =>
    have h := hleft.2.1.symm.trans hright.2.1
    simpa using h
  | retry taskRunId key =>
    obtain ⟨-, parent, hparent, hid, -, htask⟩ := hleft
    obtain ⟨-, parent', hparent', hid', -, htask'⟩ := hright
    rw [hid] at hid'
    rw [htask, htask', SerialTable.eq_of_key_eq hparent hparent' (by simpa using hid')]
  | _ => exact hleft.elim

/-- A run that an operator asked for belongs to the request that stores it. -/
theorem AskedRun.asks_trigger {request : ManualTaskRunRequest} (h : AskedRun pg request run)
    (manual : request.triggerType = text "manual") (parentless : request.retryOfRunId = []) :
    Asks pg db.taskRuns.rows (.trigger request.taskId key) run := by
  refine ⟨?_, h.task, ?_⟩
  · have htrigger := h.trigger
    rw [manual, pg.varcharParam_ascii (by decide +kernel) (by decide +kernel)] at htrigger
    exact (Except.ok.inj htrigger).symm
  · obtain ⟨parent, hparent, hjoin, -⟩ := h.parent
    rw [parentless, Postgres.nullableIdParam, pg.textParam_ascii (by simp)] at hparent
    have hnone : parent = none := by simpa using hparent.symm
    rw [hjoin, hnone]
    rfl

/-- A run that is stored for a retry is the one it asks for. -/
theorem AskedRun.asks_retry {request : ManualTaskRunRequest} {taskRunId : Bytes}
    {parent : TaskRunRow} (h : AskedRun pg request run)
    (again : request.triggerType = text "retry") (hmem : parent ∈ db.taskRuns.rows)
    (hid : pg.idParam taskRunId = .ok (some parent.id))
    (htask : request.taskId = decimal parent.taskId)
    (hretries : request.retryOfRunId = decimal parent.id) :
    Asks pg db.taskRuns.rows (.retry taskRunId key) run := by
  refine ⟨?_, parent, hmem, hid, ?_, ?_⟩
  · have htrigger := h.trigger
    rw [again, pg.varcharParam_ascii (by decide +kernel) (by decide +kernel)] at htrigger
    exact (Except.ok.inj htrigger).symm
  · obtain ⟨found, hfound, hjoin, -⟩ := h.parent
    have hid := pg.idParam_decimal parent.id
    simp only [hretries, Postgres.nullableIdParam, Postgres.idParam, Postgres.textParam_decimal,
      Answer.ok_bind, decimal_ne_nil, if_false, Answer.bind_eq_ok, Answer.pure_eq_ok,
      Except.ok.injEq] at hfound hid
    obtain ⟨number, hnumber, rfl⟩ := hfound
    obtain ⟨number', hnumber', hrow⟩ := hid
    rw [hnumber] at hnumber'
    cases hnumber'
    rw [hjoin, hrow]
    rfl
  · have h' := h.task
    rw [htask, pg.idParam_decimal] at h'
    simpa using h'.symm

end LabBridge.Server
