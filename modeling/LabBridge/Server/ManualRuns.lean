import LabBridge.Server.Orderly
import LabBridge.Server.Reference

/-!
# Manual runs and switched tasks

In every interleaving of starts, triggers, retries and switches a task has one waiting
operator run at most, a disabled task has none, and a run that a start has called running is
never given up by a switch. Other requests and configuration come between the transactions.
-/

namespace LabBridge.Server

open ByteText LabBridge.Core Storage Interaction

variable {R : Runtime} {state : Concurrent}

/-- In every interleaving a task has one waiting operator run at most, a disabled task has
none, a manual start that calls its run running does so while it is running, and the run is
left as it is by every later move of every transaction that is in flight. -/
theorem manual_runs_against_disable {permits : Concurrent → Move → Prop}
    (h : Concurrent.Steps R permits (Between R) ⟨.empty, [], []⟩ state) :
    (∀ task, ∀ left ∈ state.committed.taskRuns.rows, ∀ right ∈ state.committed.taskRuns.rows,
        Database.isPendingManual task left = true → Database.isPendingManual task right = true →
        left = right) ∧
      Quiet state.committed ∧
      (∀ move reached answered, state.act R move = some reached →
        reached.answered = state.answered ++ [answered] →
        ∀ request result, answered.call = .start request →
          TaskRunService.isManualStart request = true → answered.result = .ok (.start result) →
          result.runStatus = text "running" →
          ∃ run ∈ reached.committed.taskRuns.rows,
            R.postgres.idParam result.id = .ok (some run.id) ∧ run.status = .running) ∧
      ∀ answered ∈ state.answered, ∀ request result, answered.call = .start request →
        TaskRunService.isManualStart request = true → answered.result = .ok (.start result) →
        result.runStatus = text "running" →
        ∃ run ∈ state.committed.taskRuns.rows,
          R.postgres.idParam result.id = .ok (some run.id) ∧ run.status ≠ .pending ∧
            ∀ move reached, state.act R move = some reached →
              run ∈ reached.committed.taskRuns.rows := by
  have horderly := Orderly.empty.steps h
  refine ⟨fun task left hleft right hright => eq_of_waits hleft hright, horderly.quiet,
    fun move reached answered hacts hnew request result hcall hmanual hresult hrunning =>
      horderly.running_of_act hacts hnew hcall hmanual hresult hrunning,
    fun answered hanswered request result hcall hmanual hresult hrunning => ?_⟩
  obtain ⟨run, hrun, hid, hmoved⟩ :=
    horderly.told answered hanswered request result hcall hmanual hresult hrunning
  exact ⟨run, hrun, hid, hmoved, fun move reached hacts => horderly.mem_of_act hrun hmoved hacts⟩

/-- A start and a switch race for the run that waits: the start comes first. -/
def startBeforeDisable : Concurrent :=
  Concurrent.play Reference.runtime ⟨Reference.site, [], []⟩
    ([.begin (.trigger (text "1") Reference.operatorKey) (.first Reference.now)] ++
      List.replicate 12 (.advance 0) ++
      [.begin (.start Reference.manualStart) (.first Reference.now),
        .begin (.setEnabled (text "1") false) (.first Reference.now)] ++
      List.replicate 2 (.advance 0) ++ List.replicate 2 (.advance 1) ++
      List.replicate 4 (.advance 0))

/-- The run that the start called running is not given up by the switch that waited. -/
theorem manual_runs_against_disable_race :
    ∃ run ∈ startBeforeDisable.committed.taskRuns.rows,
      Reference.postgres.idParam (text "1") = .ok (some run.id) ∧ run.status ≠ .pending ∧
        ∀ move reached, startBeforeDisable.act Reference.runtime move = some reached →
          run ∈ reached.committed.taskRuns.rows := by
  have hsteps : Concurrent.Steps Reference.runtime (fun _ _ => True) (Between Reference.runtime)
      ⟨.empty, [], []⟩ startBeforeDisable :=
    (Concurrent.steps_play _ _ fun _ _ _ _ => trivial).head (.alone rfl (.configure Reference.configures_site))
  have hanswered : (startBeforeDisable.answered.map fun answered =>
      (answered.call, answered.result))[1]? =
        some (.start Reference.manualStart, .ok (.start ⟨text "1", false, text "running"⟩)) := by
    decide +kernel
  obtain ⟨answered, hmem, hboth⟩ := List.mem_map.mp (List.mem_of_getElem? hanswered)
  obtain ⟨hcall, hresult⟩ := Prod.mk.inj hboth
  exact (manual_runs_against_disable hsteps).2.2.2 answered hmem Reference.manualStart
    ⟨text "1", false, text "running"⟩ hcall (by decide +kernel) hresult rfl

end LabBridge.Server
