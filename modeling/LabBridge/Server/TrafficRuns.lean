import LabBridge.Server.ServingLocks

/-!
# What holds between all requests in flight

Every transaction knows what its stage tells, and no two hold the same row. Every move keeps
this, provided that reports find their runs in the states considered and that no switch gives up
a run on which a report in flight reports.
-/

namespace LabBridge.Server

open ByteText LabBridge.Core Storage Interaction

variable {R : Runtime} {reported : TaskRunStatus → Prop} {state reached : Traffic}
  {permits : Traffic → Move → Prop} {db committed : Database} {serving other : Serving}

/-- What holds between the transactions in flight. -/
structure Guarded (R : Runtime) (reported : TaskRunStatus → Prop) (state : Traffic) : Prop where
  sound : ∀ serving ∈ state.servings, serving.Sound R reported state.committed
  separate : state.servings.Pairwise Separate

/-- A report finds its run in a state considered, and a switch that is committed gives up no run
on which a report in flight reports. -/
def Careful (R : Runtime) (reported : TaskRunStatus → Prop) (state : Traffic) : Move → Prop
  | .advance connection => ∀ serving, state.servings[connection]? = some serving →
      (∀ request, serving.call = .report request → serving.asked = 0 → ∀ run,
        OwnRun R.postgres request.taskRunId request.nodeCode run state.committed →
          reported run.status) ∧
      ∀ reply, serving.rest = .ret reply → reported .pending →
        ∀ other ∈ state.servings, ∀ request run, other.call = .report request →
          other.asked ≠ 0 → R.postgres.idParam request.taskRunId = .ok (some run) →
            ¬GivesUp state.committed serving run
  | _ => True

/-- A transaction that begins knows what the first stage of its request tells. -/
theorem sound_entry (call : Call) (session : Session) (db : Database) :
    Serving.Sound R reported db {
      call := call, session := session, began := db, rest := call.transaction R } where
  stage := by
    refine ⟨call.entry, call.transaction_serves, ?_⟩
    have hnone : EvidencePatch.NoRows {} := ⟨rfl, rfl, rfl, rfl⟩
    cases call with
    | start request => exact ⟨hnone, by simp⟩
    | trigger taskId key => exact ⟨hnone, by simp⟩
    | retry taskRunId key => exact ⟨hnone, by simp⟩
    | setEnabled taskId enabled => exact ⟨hnone, by simp⟩
    | disposeAlert alertId acknowledge => exact ⟨rfl, hnone, by simp⟩
    | manifest request => exact ⟨rfl, hnone⟩
    | report request => exact ⟨rfl, rfl, hnone⟩
  heldRuns := by simp
  heldAlerts := by simp
  belowRun := by simp
  belowAlert := by simp
  belowReceipt := by simp
  receipts := by simp

namespace Guarded

/-- The fresh schema without transactions. -/
theorem empty : Guarded R reported ⟨.empty, []⟩ := ⟨by simp, .nil⟩

/-- A transaction begins. -/
theorem begin (h : Guarded R reported state) (call : Call) (session : Session) :
    Guarded R reported { state with
      servings := state.servings ++ [{
        call := call
        session := session
        began := state.committed
        rest := call.transaction R }] } where
  sound serving hserving := by
    rcases List.mem_append.mp hserving with hold | hnew
    · exact h.sound serving hold
    · rw [List.mem_singleton.mp hnew]
      exact sound_entry call session state.committed
  separate := by
    refine List.pairwise_append.mpr
      ⟨h.separate, List.pairwise_singleton _ _, fun other _ next hnext => ?_⟩
    rw [List.mem_singleton.mp hnext]
    constructor <;> simp

/-- Other tables than those of the transactions may change. -/
theorem of_sameRows (h : Guarded R reported state) (hsame : SameRows state.committed committed) :
    Guarded R reported { state with committed := committed } :=
  ⟨fun serving hserving => (h.sound serving hserving).of_sameRows hsame, h.separate⟩

section Moves

variable (h : Guarded R reported state) {left right : List Serving} {connection : ℕ}
  (hservings : state.servings = left ++ serving :: right)

include h hservings

/-- The transaction of a connection is separate from every other. -/
theorem separate_of_mem (hother : other ∈ left ++ right) : Separate serving other := by
  have hpairs := h.separate
  rw [hservings, List.pairwise_middle Separate.symm] at hpairs
  exact (List.pairwise_cons.mp hpairs).1 other hother

/-- The other transactions are separate. -/
theorem separate_others : (left ++ right).Pairwise Separate := by
  have hpairs := h.separate
  rw [hservings, List.pairwise_middle Separate.symm] at hpairs
  exact (List.pairwise_cons.mp hpairs).2

/-- The facts about the transaction of a connection. -/
theorem sound_of_connection : serving.Sound R reported state.committed :=
  h.sound serving (by simp [hservings])

/-- The facts about the other transactions. -/
theorem sound_of_other (hother : other ∈ left ++ right) :
    other.Sound R reported state.committed := by
  refine h.sound other ?_
  rw [hservings]
  exact List.mem_append.mpr ((List.mem_append.mp hother).imp_right (List.mem_cons_of_mem _))

/-- A transaction ends without a commit. -/
theorem drop : Guarded R reported { state with servings := left ++ right } :=
  ⟨fun _ hother => h.sound_of_other hservings hother, h.separate_others hservings⟩

/-- A transaction is committed. -/
theorem commit (hrunning : reported .running) (hsees : serving.view state.committed = some committed)
    (hkept : reported .pending → ∀ other ∈ state.servings, ∀ request run,
      other.call = .report request → other.asked ≠ 0 →
        R.postgres.idParam request.taskRunId = .ok (some run) →
          ¬GivesUp state.committed serving run) :
    Guarded R reported ⟨committed, left ++ right⟩ := by
  refine ⟨fun other hother => ?_, h.separate_others hservings⟩
  refine (h.sound_of_connection hservings).commit (seen_of_view hsees)
    (h.sound_of_other hservings hother) (h.separate_of_mem hservings hother) hrunning ?_
  intro request run hcall hasked hid hpending
  refine hkept hpending other ?_ request run hcall hasked hid
  rw [hservings]
  exact List.mem_append.mpr ((List.mem_append.mp hother).imp_right (List.mem_cons_of_mem _))

/-- A transaction runs its next statement. -/
theorem proceed {γ : Type} {statement : Statement γ} {rest : γ → Tx Reply} {answer : γ}
    {view tables : Database} (hrest : serving.rest = .call statement rest)
    (hruns : Serving.Runs R state.committed (left ++ right) serving statement answer view tables)
    (hfirst : ∀ request, serving.call = .report request → serving.asked = 0 → ∀ run,
      OwnRun R.postgres request.taskRunId request.nodeCode run state.committed →
        reported run.status) :
    Guarded R reported ⟨state.committed.rollback tables,
      left ++ serving.proceed R.postgres view tables statement (rest answer) :: right⟩ := by
  have hserving := h.sound_of_connection hservings
  obtain ⟨stage, hfollows, hknows⟩ := hserving.stage
  rw [hrest] at hfollows
  obtain ⟨stage', hafter, hfollows⟩ := hfollows answer
  have hnext := hserving.proceed hruns hafter hknows hfirst hfollows
  refine ⟨fun other hother => ?_, ?_⟩
  · rcases List.mem_append.mp hother with hleft | hright
    · exact (h.sound_of_other hservings (List.mem_append_left _ hleft)).of_sameRows
        (sameRows_rollback _ _)
    · rcases List.mem_cons.mp hright with rfl | hright
      · exact hnext
      · exact (h.sound_of_other hservings (List.mem_append_right _ hright)).of_sameRows
          (sameRows_rollback _ _)
  · refine (List.pairwise_middle Separate.symm).mpr (List.pairwise_cons.mpr
      ⟨fun other hother => ?_, h.separate_others hservings⟩)
    exact Serving.separate_proceed hserving hruns hafter hknows hother
      (h.separate_of_mem hservings hother) (h.sound_of_other hservings hother)

end Moves

/-- A careful move keeps what holds between the transactions. -/
theorem act (h : Guarded R reported state) (hrunning : reported .running) {move : Move}
    (hcareful : Careful R reported state move) (hacts : state.act R move = some reached) :
    Guarded R reported reached := by
  cases move with
  | begin call session =>
    cases hacts
    exact h.begin call session
  | lose connection =>
    simp only [Traffic.act] at hacts
    split at hacts
    · cases hacts
    · rename_i serving hserving
      obtain ⟨left, right, hservings, herase, -⟩ := split_of_getElem hserving
      cases hacts
      rw [herase]
      exact h.drop hservings
  | advance connection =>
    simp only [Traffic.act] at hacts
    split at hacts
    · cases hacts
    · rename_i serving hserving
      obtain ⟨hfirst, hkept⟩ := hcareful serving hserving
      obtain ⟨left, right, hservings, herase, hset⟩ := split_of_getElem hserving
      rw [herase] at hacts
      split at hacts
      · cases hacts
      · rename_i next committed hgoes
        cases hacts
        obtain ⟨γ, statement, rest, answer, view, tables, hrest, hruns, rfl, rfl⟩ :=
          Serving.advance_goes hgoes
        rw [hset]
        exact h.proceed hservings hrest hruns hfirst
      · rename_i committed hends
        cases hacts
        rcases Serving.advance_ends hends with ⟨reply, hrest, hsees⟩ | rfl
        · exact h.commit hservings hrunning hsees (hkept reply hrest)
        · exact h.drop hservings

/-- A step of careful moves keeps what holds between the transactions. -/
theorem step (h : Guarded R reported state) (hrunning : reported .running)
    (hcareful : ∀ state move, permits state move → Careful R reported state move)
    (hstep : Traffic.Step R permits state reached) : Guarded R reported reached := by
  cases hstep with
  | move permitted acts => exact h.act hrunning (hcareful _ _ permitted) acts
  | configure configures => exact h.of_sameRows (sameRows_of_configures configures)

/-- A run of careful moves keeps what holds between the transactions. -/
theorem steps (h : Guarded R reported state) (hrunning : reported .running)
    (hcareful : ∀ state move, permits state move → Careful R reported state move)
    (hsteps : Traffic.Steps R permits state reached) : Guarded R reported reached := by
  induction hsteps with
  | refl => exact h
  | tail _ hstep ih => exact ih.step hrunning hcareful hstep

end Guarded

/-- A step that changes rows is the commit of a transaction. -/
theorem Traffic.Step.commits (h : Traffic.Step R permits state reached) :
    SameRows state.committed reached.committed ∨
      ∃ connection serving reply, permits state (.advance connection) ∧
        state.servings[connection]? = some serving ∧ serving.rest = .ret reply ∧
          serving.view state.committed = some reached.committed := by
  have hsame : SameRows state.committed state.committed := by constructor <;> simp
  cases h with
  | configure configures => exact .inl (sameRows_of_configures configures)
  | @move move _ permitted acts =>
    cases move with
    | begin call session =>
      cases acts
      exact .inl hsame
    | lose connection =>
      simp only [Traffic.act] at acts
      split at acts
      · cases acts
      · cases acts
        exact .inl hsame
    | advance connection =>
      simp only [Traffic.act] at acts
      split at acts
      · cases acts
      · rename_i serving hserving
        split at acts
        · cases acts
        · rename_i next committed hgoes
          cases acts
          obtain ⟨_, _, _, _, _, tables, -, -, -, rfl⟩ := Serving.advance_goes hgoes
          exact .inl (sameRows_rollback _ tables)
        · rename_i committed hends
          cases acts
          rcases Serving.advance_ends hends with ⟨reply, hrest, hsees⟩ | rfl
          · exact .inr ⟨connection, serving, reply, permitted, hserving, hrest, hsees⟩
          · exact .inl hsame

end LabBridge.Server
