import LabBridge.Server.Reference
import LabBridge.Server.TrafficRuns

/-!
# The life of a run

Whatever requests are in flight, when no report finds a pending run, every run moves from
pending to running, from running to succeeded or failed, or is given up while pending, one
move at a time, and a run that has ended stays as it ended. A report that finds a pending run
ends it without a start.
-/

namespace LabBridge.Server

open ByteText LabBridge.Core Storage

variable {R : Runtime} {reported : TaskRunStatus → Prop} {state reached : Traffic}
  {permits : Traffic → Move → Prop} {db db' : Database} {serving : Serving}

/-- The moves of a run: it starts, is given up before it starts, or ends after it started. -/
inductive LifecycleMove (before after : TaskRunRow) : Prop
  | stay (unchanged : after = before)
  | start (pending : before.status = .pending) (running : after.status = .running)
      (same : SameRun before after)
  | disable (pending : before.status = .pending) (failed : after.status = .failed)
      (same : SameRun before after)
  | finish (running : before.status = .running) (ended : after.status.isTerminal = true)
      (same : SameRun before after)

/-- A move whose report ends no pending run is a move of the life cycle. -/
theorem LifecycleMove.of_runMove {before after : TaskRunRow}
    (h : RunMove (· ≠ .pending) before after) : LifecycleMove before after := by
  cases h with
  | stay unchanged => exact .stay unchanged
  | start pending running same => exact .start pending running same
  | disable pending failed same => exact .disable pending failed same
  | finish isOpen started ended same =>
    refine .finish ?_ ended same
    cases hstatus : before.status with
    | pending => exact absurd hstatus started
    | running => rfl
    | succeeded => simp [hstatus, TaskRunStatus.isTerminal] at isOpen
    | failed => simp [hstatus, TaskRunStatus.isTerminal] at isOpen

/-- A run that has ended is committed as it is. -/
theorem mem_of_ended (hserving : serving.Sound R reported db)
    (hsees : serving.view db = some db') {run : TaskRunRow} (hrun : run ∈ db.taskRuns.rows)
    (hended : run.status.isTerminal = true) : run ∈ db'.taskRuns.rows := by
  have hseen := seen_of_view hsees
  by_cases htouched : ∃ version ∈ serving.own.runs, version.id = run.id
  · obtain ⟨version, hversion, hid⟩ := htouched
    obtain ⟨stage, -, hknows⟩ := hserving.stage
    rcases (hknows.movesRun hversion).cases with ⟨stored, hstored, move⟩ | ⟨-, hfresh⟩
    · obtain rfl := SerialTable.eq_of_key_eq hstored hrun (move.same.id.symm.trans hid)
      exact move.eq_of_isTerminal hended ▸ hseen.runs.of_version hversion
    · exact absurd hid.symm (hfresh run hrun)
  · push Not at htouched
    exact hseen.runs.of_stored hrun htouched

/-- Every run makes a move of its life cycle, and a run that is added has not ended. -/
structure MovesRuns (before after : Database) : Prop where
  moves : ∀ run ∈ before.taskRuns.rows, ∃ moved ∈ after.taskRuns.rows, LifecycleMove run moved
  origin : ∀ moved ∈ after.taskRuns.rows, (∃ run ∈ before.taskRuns.rows, LifecycleMove run moved) ∨
    moved.status.isTerminal = false ∧ ∀ run ∈ before.taskRuns.rows, run.id ≠ moved.id

/-- The same runs make no move. -/
theorem movesRuns_of_rows_eq (h : db'.taskRuns.rows = db.taskRuns.rows) : MovesRuns db db' where
  moves run hrun := ⟨run, h ▸ hrun, .stay rfl⟩
  origin moved hmoved := .inl ⟨moved, h ▸ hmoved, .stay rfl⟩

/-- A commit moves the runs along their lives. -/
theorem movesRuns_of_commit (hserving : serving.Sound R (· ≠ .pending) db)
    (hsees : serving.view db = some db') : MovesRuns db db' := by
  have hseen := seen_of_view hsees
  obtain ⟨stage, -, hknows⟩ := hserving.stage
  constructor
  · intro run hrun
    by_cases htouched : ∃ version ∈ serving.own.runs, version.id = run.id
    · obtain ⟨version, hversion, hid⟩ := htouched
      rcases (hknows.movesRun hversion).cases with ⟨stored, hstored, move⟩ | ⟨-, hfresh⟩
      · obtain rfl := SerialTable.eq_of_key_eq hstored hrun (move.same.id.symm.trans hid)
        exact ⟨version, hseen.runs.of_version hversion, .of_runMove move⟩
      · exact absurd hid.symm (hfresh run hrun)
    · push Not at htouched
      exact ⟨run, hseen.runs.of_stored hrun htouched, .stay rfl⟩
  · intro moved hmoved
    rcases hseen.runs.origin hmoved with hversion | hstored
    · exact (hknows.movesRun hversion).cases.imp_left fun ⟨run, hrun, move⟩ =>
        ⟨run, hrun, .of_runMove move⟩
    · exact .inl ⟨moved, hstored, .stay rfl⟩

/-- Every run that has ended is stored unchanged: status, times, counters and file lists. -/
def KeepsEnded (before after : Database) : Prop :=
  ∀ run ∈ before.taskRuns.rows, run.status.isTerminal = true → run ∈ after.taskRuns.rows

/-- A step keeps the runs that have ended. -/
theorem Guarded.keepsEnded (h : Guarded R reported state)
    (hstep : Traffic.Step R permits state reached) :
    KeepsEnded state.committed reached.committed := by
  intro run hrun hended
  rcases hstep.commits with hsame | ⟨connection, serving, reply, -, hserving, -, hsees⟩
  · exact hsame.runs ▸ hrun
  · exact mem_of_ended (h.sound serving (List.mem_of_getElem? hserving)) hsees hrun hended

/-- No report finds a pending run of its node when it looks up the run that it names. -/
def reportsStarted (R : Runtime) (state : Traffic) : Move → Prop
  | .advance connection => ∀ serving request, state.servings[connection]? = some serving →
      serving.call = .report request → serving.asked = 0 → ∀ run,
        OwnRun R.postgres request.taskRunId request.nodeCode run state.committed →
          run.status ≠ .pending
  | _ => True

/-- Reports that find no pending run are careful. -/
theorem careful_of_reportsStarted {move : Move} (h : reportsStarted R state move) :
    Careful R (· ≠ .pending) state move := by
  cases move with
  | advance connection =>
    intro serving hserving
    exact ⟨fun request hcall hasked => h serving request hserving hcall hasked,
      fun _ _ hpending => absurd rfl hpending⟩
  | begin call session => trivial
  | lose connection => trivial

/-- In every state of all requests in flight that is reached from the fresh schema without
reports on runs that were never started, each such step moves the runs along their lives, and a
run that has ended is the same in every later state. -/
theorem run_lifecycle (R : Runtime) {state : Traffic}
    (h : Traffic.Steps R (reportsStarted R) ⟨.empty, []⟩ state) :
    (∀ next, Traffic.Step R (reportsStarted R) state next →
      MovesRuns state.committed next.committed) ∧
    ∀ later, Traffic.Steps R (reportsStarted R) state later →
      KeepsEnded state.committed later.committed := by
  have hcareful (state : Traffic) (move : Move) (h : reportsStarted R state move) :=
    careful_of_reportsStarted h
  have hrunning : TaskRunStatus.running ≠ .pending := by simp
  have hguarded : Guarded R (· ≠ .pending) state := Guarded.empty.steps hrunning hcareful h
  refine ⟨fun next hstep => ?_, fun later hsteps => ?_⟩
  · rcases hstep.commits with hsame | ⟨connection, serving, reply, -, hserving, -, hsees⟩
    · exact movesRuns_of_rows_eq hsame.runs
    · exact movesRuns_of_commit (hguarded.sound serving (List.mem_of_getElem? hserving)) hsees
  · induction hsteps with
    | refl => exact fun run hrun _ => hrun
    | tail hsteps hstep ih =>
      have hreached := hguarded.steps hrunning hcareful hsteps
      exact fun run hrun hended => hreached.keepsEnded hstep run (ih run hrun hended) hended

namespace Reference

/-- A configured site after some moves of requests in flight. -/
def traffic (configured : Database) (moves : List Move) : Traffic :=
  Traffic.play runtime ⟨configured, []⟩ moves

/-- What is played on a configured site is a run of steps from the fresh schema. -/
theorem steps_traffic {configured : Database} {permits : Traffic → Move → Prop}
    {check : Traffic → Move → Bool} (configures : Configures postgres .empty configured)
    (sound : ∀ state move, check state move = true → permits state move) (moves : List Move)
    (h : Traffic.checked runtime check ⟨configured, []⟩ moves = true) :
    Traffic.Steps runtime permits ⟨.empty, []⟩ (traffic configured moves) :=
  .head (.configure configures) (Traffic.steps_play sound moves _ h)

/-- The run is started; then its report, a manifest of it and an operator's trigger are in
flight together, until the report is about to be committed. -/
def reporting : List Move :=
  [.begin (.start scheduledStart) (.first now), .advance 0, .advance 0, .advance 0,
    .begin (.report (report [])) (.first now), .begin (.manifest (manifest "files-1")) (.first now),
    .begin (.trigger (text "1") operatorKey) (.first now)] ++
  (List.replicate 5 [.advance 0, .advance 1, .advance 2]).flatten

/-- The report is committed. -/
def afterReport : Traffic := Traffic.play runtime (traffic site reporting) [.advance 0]

/-- After the report the manifest is committed. The report arrives again, and the task is
disabled, which has to wait for the trigger and then gives up the run that it made. -/
def afterwards : List Move :=
  [.advance 0, .begin (.report (report [])) (.first now),
    .begin (.setEnabled (text "1") false) (.first now)] ++
  [.advance 1, .advance 2, .advance 1, .advance 0, .advance 0, .advance 0, .advance 0, .advance 0] ++
  (List.replicate 7 [.advance 1, .advance 0]).flatten

end Reference

/-- Whether a move is no first statement of a report while a run is pending. -/
def findsNoPending (state : Traffic) : Move → Bool
  | .advance connection =>
    match state.servings[connection]? with
    | none => true
    | some serving =>
      serving.asked != 0 || state.committed.taskRuns.rows.all (·.status != .pending) ||
        match serving.call with
        | .report _ => false
        | _ => true
  | _ => true

/-- While no run is pending, no report finds one. -/
theorem reportsStarted_of_findsNoPending (state : Traffic) (move : Move)
    (h : findsNoPending state move = true) : reportsStarted R state move := by
  cases move with
  | begin call session => trivial
  | lose connection => trivial
  | advance connection =>
    intro serving request hserving hcall hasked run hrun hpending
    simp only [findsNoPending, hserving, hcall, hasked, bne_self_eq_false, Bool.false_or,
      Bool.or_false, List.all_eq_true] at h
    have hnot := h run hrun.stored
    rw [hpending] at hnot
    cases hnot

/-- A report ends its run among other requests, and the run stays as it ended. -/
theorem run_lifecycle_site :
    MovesRuns (Reference.traffic Reference.site Reference.reporting).committed Reference.afterReport.committed ∧
      ∃ run ∈ Reference.afterReport.committed.taskRuns.rows, run.status = .succeeded ∧
        run ∈ (Traffic.play Reference.runtime Reference.afterReport
          Reference.afterwards).committed.taskRuns.rows := by
  have hreporting : Traffic.Steps Reference.runtime (reportsStarted Reference.runtime)
      ⟨.empty, []⟩ (Reference.traffic Reference.site Reference.reporting) :=
    Reference.steps_traffic Reference.configures_site reportsStarted_of_findsNoPending _
      (by decide +kernel)
  have hcommit : Traffic.Step Reference.runtime (reportsStarted Reference.runtime)
      (Reference.traffic Reference.site Reference.reporting) Reference.afterReport :=
    Traffic.step_play (reportsStarted_of_findsNoPending _ _ (by decide +kernel))
      (by decide +kernel)
  have hlater : Traffic.Steps Reference.runtime (reportsStarted Reference.runtime)
      Reference.afterReport (Traffic.play Reference.runtime Reference.afterReport
        Reference.afterwards) :=
    Traffic.steps_play reportsStarted_of_findsNoPending _ _ (by decide +kernel)
  obtain ⟨run, hrun, hstatus⟩ :
      ∃ run ∈ Reference.afterReport.committed.taskRuns.rows, run.status = .succeeded := by
    decide +kernel
  refine ⟨(run_lifecycle Reference.runtime hreporting).1 _ hcommit, run, hrun, hstatus, ?_⟩
  refine (run_lifecycle Reference.runtime (hreporting.tail hcommit)).2 _ hlater run hrun ?_
  rw [hstatus]
  rfl

/-- A run that an operator asked for, and a report of it before it was started. -/
def Reference.unstarted : List Move :=
  .begin (.trigger (text "1") operatorKey) (.first now) :: List.replicate 10 (.advance 0) ++
    .begin (.report (report [])) (.first now) :: List.replicate 5 (.advance 0)

/-- A run that an operator asked for is reported on before it was started: the report is
accepted and ends the pending run, which is no move of its life cycle. -/
theorem not_run_lifecycle :
    ¬∀ state, Traffic.Steps Reference.runtime Traffic.anyMove ⟨.empty, []⟩ state →
      (∀ next, Traffic.Step Reference.runtime Traffic.anyMove state next →
        MovesRuns state.committed next.committed) ∧
      ∀ later, Traffic.Steps Reference.runtime Traffic.anyMove state later →
        KeepsEnded state.committed later.committed := by
  intro h
  have hsteps : Traffic.Steps Reference.runtime Traffic.anyMove ⟨.empty, []⟩
      (Reference.traffic Reference.site Reference.unstarted) :=
    Reference.steps_traffic Reference.configures_site
      (fun _ _ (_ : true = true) => trivial) _ (by decide +kernel)
  have hcommit : Traffic.Step Reference.runtime Traffic.anyMove
      (Reference.traffic Reference.site Reference.unstarted) (Traffic.play Reference.runtime
        (Reference.traffic Reference.site Reference.unstarted) [.advance 0]) :=
    Traffic.step_play trivial (by decide +kernel)
  obtain ⟨run, hrun, hstatus⟩ : ∃ run ∈ (Reference.traffic Reference.site
      Reference.unstarted).committed.taskRuns.rows, run.status = .pending := by
    decide +kernel
  have hended : ∀ run ∈ (Traffic.play Reference.runtime (Reference.traffic Reference.site Reference.unstarted)
      [.advance 0]).committed.taskRuns.rows, run.status = .succeeded := by
    decide +kernel
  obtain ⟨moved, hmoved, move⟩ := ((h _ hsteps).1 _ hcommit).moves run hrun
  have hmovedStatus := hended moved hmoved
  cases move with
  | stay unchanged => rw [unchanged, hstatus] at hmovedStatus; cases hmovedStatus
  | start _ running _ => rw [running] at hmovedStatus; cases hmovedStatus
  | disable _ failed _ => rw [failed] at hmovedStatus; cases hmovedStatus
  | finish running _ _ => rw [running] at hstatus; cases hstatus

end LabBridge.Server
