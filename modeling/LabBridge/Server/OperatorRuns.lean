import LabBridge.Server.KeyedSteps
import LabBridge.Server.Reference

/-!
# One run under an operator key

The lookup by key, the insert and the lookup after a refused insert are separate statements.
As long as a request never inserts its run while another one under its key is for something
else, one run at most is stored under the key, and every request that succeeds is answered
with that run. A request that inserts in spite of such a run is not covered: the unique index
holds the key for its node only, and a run that is found then is not compared.
-/

namespace LabBridge.Server

open ByteText LabBridge.Core Storage Interaction

variable {R : Runtime} {pg : Postgres} {key : Bytes} {state : Concurrent}

/-- As long as no request inserts its run while another run under its key is for something
else, one run at most is stored under a key, and every request with the key is accounted for. -/
theorem operator_key_names_one_run
    (h : Concurrent.Steps R (Unmixed R.postgres key) (Between R) ⟨.empty, [], []⟩ state) :
    (∀ left ∈ state.committed.taskRuns.rows, ∀ right ∈ state.committed.taskRuns.rows,
        UnderKey key left → UnderKey key right → left = right) ∧
      ∀ answered ∈ state.answered, Accounted R.postgres key state.committed answered := by
  have hkeyed : Keyed R.postgres key state := by
    induction h with
    | refl => exact .empty
    | tail _ hstep ih => exact ih.step hstep
  refine ⟨fun left hleft right hright hkey hkey' => ?_, hkeyed.accounted⟩
  exact SerialTable.eq_of_key_eq hleft hright
    (hkeyed.single left right (.inl hleft) (.inl hright) hkey hkey')

/-- A run that a trigger of the task asks for. -/
def triggeredOf (taskId : RowId) (run : TaskRunRow) : Bool :=
  run.triggerType == text "manual" && run.taskId == taskId && run.retryOfRunId.isNone

/-- A transaction may go on when all of them are one trigger, and every run that is stored or about
to be stored is one that it asks for. -/
theorem unmixed_of_repeated {taskId : Bytes} {id : RowId} (hnamed : pg.idParam taskId = .ok (some id))
    (hcalls : (state.flights.all fun flight => flight.call == .trigger taskId key) = true)
    (hruns : (state.committed.taskRuns.rows ++ state.flights.flatMap fun flight =>
      flight.own.runs).all (triggeredOf id) = true) (connection : ℕ) :
    Unmixed pg key state (.advance connection) := by
  intro flight hflight _ request json rest _ run _ hrun
  have hcall := List.all_eq_true.mp hcalls flight (List.mem_of_getElem? hflight)
  have hmem : run ∈ state.committed.taskRuns.rows ++ state.flights.flatMap fun flight =>
      flight.own.runs := by
    rcases hrun with hstored | ⟨other, hother, howned⟩
    · exact List.mem_append_left _ hstored
    · exact List.mem_append_right _
        (List.mem_flatMap.mpr ⟨other, List.mem_of_mem_eraseIdx hother, howned⟩)
  have htriggered := List.all_eq_true.mp hruns run hmem
  simp only [triggeredOf, Bool.and_eq_true, beq_iff_eq, Option.isNone_iff_eq_none] at htriggered
  rw [beq_iff_eq.mp hcall]
  exact ⟨htriggered.1.1, by rw [hnamed, htriggered.1.2], htriggered.2⟩

/-- Two triggers with one key that look for it before either inserts its run, one after the
other. -/
def racingMoves (left right : String) : List Move :=
  [.begin (.trigger (text left) Reference.operatorKey) (.first Reference.now),
    .begin (.trigger (text right) Reference.operatorKey) (.first Reference.now),
    .advance 0, .advance 1] ++ List.replicate 24 (.advance 0)

/-- What racing triggers leave. -/
def racingTriggers (left right : String) : Concurrent :=
  Concurrent.play Reference.runtime ⟨Reference.twoNodes, [], []⟩ (racingMoves left right)

/-- Two racing identical triggers are both answered with the one run that the first has created. -/
theorem operator_key_names_one_run_site :
    (racingTriggers "1" "1").committed.taskRuns.rows.length = 1 ∧
    (racingTriggers "1" "1").answered.length = 2 ∧
    ∀ answered ∈ (racingTriggers "1" "1").answered,
      Accounted Reference.postgres Reference.operatorKey (racingTriggers "1" "1").committed
        answered := by
  have hpermitted : ∀ done move rest, racingMoves "1" "1" = done ++ move :: rest →
      Unmixed Reference.postgres Reference.operatorKey
        (Concurrent.play Reference.runtime ⟨Reference.twoNodes, [], []⟩ done) move := by
    intro done move rest hmoves
    have hall : ∀ count < 28, ((Concurrent.play Reference.runtime ⟨Reference.twoNodes, [], []⟩
        ((racingMoves "1" "1").take count)).flights.all fun flight =>
          flight.call == .trigger (text "1") Reference.operatorKey) = true ∧
        ((Concurrent.play Reference.runtime ⟨Reference.twoNodes, [], []⟩
          ((racingMoves "1" "1").take count)).committed.taskRuns.rows ++
            (Concurrent.play Reference.runtime ⟨Reference.twoNodes, [], []⟩
              ((racingMoves "1" "1").take count)).flights.flatMap fun flight =>
                flight.own.runs).all (triggeredOf 1) = true := by
      decide +kernel
    have hcount : done.length < 28 := by
      have hlength := congrArg List.length hmoves
      rw [List.length_append, List.length_cons] at hlength
      have hmoveCount : (racingMoves "1" "1").length = 28 := rfl
      omega
    have hdone := hall done.length hcount
    rw [show (racingMoves "1" "1").take done.length = done by rw [hmoves, List.take_left]] at hdone
    cases move with
    | begin call session =>
      have hmem : Move.begin call session ∈ racingMoves "1" "1" := by
        rw [hmoves]
        simp
      intro request hcall
      subst hcall
      simp [racingMoves] at hmem
    | advance connection =>
      exact unmixed_of_repeated (by decide +kernel) hdone.1 hdone.2 connection
    | lose connection => trivial
  have hsteps : Concurrent.Steps Reference.runtime
      (Unmixed Reference.postgres Reference.operatorKey) (Between Reference.runtime)
      ⟨.empty, [], []⟩ (racingTriggers "1" "1") :=
    (Concurrent.steps_play _ _ hpermitted).head
      (.alone rfl (.configure Reference.configures_twoNodes))
  exact ⟨by decide +kernel, by decide +kernel, (operator_key_names_one_run hsteps).2⟩

/-- Racing triggers reach a state. -/
theorem steps_racingTriggers (left right : String) :
    Concurrent.Steps Reference.runtime (fun _ _ => True) (Between Reference.runtime)
      ⟨.empty, [], []⟩ (racingTriggers left right) :=
  (Concurrent.steps_play _ _ fun _ _ _ _ => trivial).head
    (.alone rfl (.configure Reference.configures_twoNodes))

/-- With tasks of two nodes, racing triggers create two runs under one key. With two tasks of one
node the second is answered with success and the run of the first, of another task. A trigger
of an unknown task is answered that it is not found, which is no conflict. -/
theorem not_operator_key_names_one_run :
    (∀ left right, Concurrent.Steps Reference.runtime (fun _ _ => True)
        (Between Reference.runtime) ⟨.empty, [], []⟩ (racingTriggers left right)) ∧
      ((racingTriggers "1" "2").committed.runsByKey
        (TaskRunService.operatorKey Reference.operatorKey)).map TaskRunRow.taskId = [1, 2] ∧
      (racingTriggers "1" "3").committed.taskRuns.rows.map TaskRunRow.taskId = [1] ∧
      ((racingTriggers "1" "3").answered.map fun answered => (answered.call, answered.result)) =
        [(.trigger (text "1") Reference.operatorKey,
            .ok (.manual ⟨text "1", text "pending", false⟩)),
          (.trigger (text "3") Reference.operatorKey,
            .ok (.manual ⟨text "1", text "pending", true⟩))] ∧
      ((racingTriggers "9" "1").answered.map fun answered => (answered.call, answered.result)) =
        [(.trigger (text "9") Reference.operatorKey,
            .error (.refused (.notFound (text "task is not found")))),
          (.trigger (text "1") Reference.operatorKey,
            .ok (.manual ⟨text "1", text "pending", false⟩))] := by
  refine ⟨steps_racingTriggers, ?_, ?_, ?_, ?_⟩ <;> decide +kernel

end LabBridge.Server
