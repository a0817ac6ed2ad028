import LabBridge.Server.FlightSteps

/-!
# Index entries of transactions in flight

The versions of a transaction hold index entries that no stored run and no version of
another transaction holds: an insert waits for the transactions whose entries it would
violate, and a run that waits no more only gives entries up. So no commit meets a duplicate.
-/

namespace LabBridge.Server

open ByteText LabBridge.Core Storage Interaction

variable {R : Runtime} {pg : Postgres} {session : Session} {db db' committed view reached : Database}
  {flight next other : Flight} {others : List Flight} {γ : Type} {statement : Statement γ}
  {rest : γ → Tx Reply} {answer : γ} {stage stage' : LockStage}

/-- The versions of a transaction exclude neither each other nor a stored run. -/
structure Entered (db : Database) (flight : Flight) : Prop where
  runs : flight.own.runs.Pairwise fun left right => left.id ≠ right.id ∧ left.clash right = false
  tasks : flight.own.tasks.Pairwise fun left right => left.id ≠ right.id
  free : ∀ version ∈ flight.own.runs, ∀ run ∈ db.taskRuns.rows,
    (∀ other ∈ flight.own.runs, other.id ≠ run.id) → run.clash version = false

/-- No versions of two transactions exclude each other. -/
def Unclashing (left right : Flight) : Prop :=
  ∀ version ∈ left.own.runs, ∀ run ∈ right.own.runs, version.clash run = false

/-- Excluding nothing of each other is mutual. -/
theorem Unclashing.symm (h : Unclashing flight other) : Unclashing other flight :=
  fun version hversion run hrun => (clash_comm version run).trans (h run hrun version hversion)

/-- Versions that exclude nothing can be committed. -/
theorem Entered.overlay_isSome (h : Entered db flight) (htidy : Tidy db flight) :
    ∃ view, flight.own.overlay db = some view := by
  obtain ⟨taskRuns, hruns⟩ := SerialTable.overlay_isSome clash_comm
    (fun version hversion => htidy.below _ (htidy.heldRuns version hversion)) h.runs h.free
  have hbelow : ∀ version ∈ flight.own.tasks, (version.id : ℕ) < db.tasks.next := by
    intro version hversion
    obtain ⟨task, htask, same⟩ := htidy.tasks version hversion
    exact same.id ▸ db.tasks.below task htask
  obtain ⟨tasks, htasks⟩ := SerialTable.overlay_isSome (fun _ _ => rfl) hbelow
    (h.tasks.imp fun hne => ⟨hne, rfl⟩) fun _ _ _ _ _ => rfl
  refine ⟨{ db with taskRuns := taskRuns, tasks := tasks }, ?_⟩
  simp only [Patch.overlay, hruns, htasks]

/-- A commit leaves the entries of the others apart from what is stored. -/
theorem Entered.commit (h : Entered db other) (hunclashing : Unclashing flight other)
    (hcommit : Overlaid flight.own db committed) : Entered committed other where
  runs := h.runs
  tasks := h.tasks
  free version hversion run hrun huntouched := by
    rcases hcommit.runs.mp hrun with hown | ⟨hstored, -⟩
    · exact hunclashing run hown version hversion
    · exact h.free version hversion run hstored huntouched

section Statement

variable (hchanges : Changes R.postgres view reached statement)

include hchanges

/-- A changed run excludes no run that is seen and not replaced by it. -/
theorem Changes.clash_changed {version run : TaskRunRow}
    (hversion : version ∈ changedRows view.taskRuns.rows reached.taskRuns.rows)
    (hrun : run ∈ view.taskRuns.rows) (hne : version.id ≠ run.id) : run.clash version = false := by
  obtain ⟨hmem, hfresh⟩ := mem_changedRows.mp hversion
  cases hchanges with
  | nothing same => exact absurd (same ▸ hmem) hfresh
  | appends happends _ _ =>
    rw [happends.rows] at hmem
    rcases List.mem_append.mp hmem with hold | hnew
    · exact absurd hold hfresh
    · rw [List.mem_singleton.mp hnew]
      exact happends.free run hrun
  | rewrites hrewrites =>
    rcases hrewrites.origin version hmem with ⟨hold, -⟩ | ⟨old, hold, -, hleaves⟩
    · exact absurd hold hfresh
    · rw [clash_comm]
      refine hleaves.clash (clash_eq_false hold hrun fun heq => hne ?_)
      rw [← heq, hleaves.same.id]

end Statement

namespace Runs

variable (hruns : Runs R db others flight next committed statement rest answer view reached)
  (hafter : LockStage.After stage statement answer stage')

include hruns

/-- What a version replaces is still replaced after a statement. -/
theorem exists_version {version : TaskRunRow} (h : version ∈ flight.own.runs) :
    ∃ newer ∈ next.own.runs, newer.id = version.id := by
  rw [hruns.next]
  by_cases hsuperseded : ∃ newer ∈ changedRows view.taskRuns.rows reached.taskRuns.rows,
      newer.id = version.id
  · obtain ⟨newer, hnewer, hid⟩ := hsuperseded
    exact ⟨newer, mem_supersede.mpr (.inl hnewer), hid⟩
  · push Not at hsuperseded
    exact ⟨version, mem_supersede.mpr (.inr ⟨h, hsuperseded⟩), rfl⟩

include hafter

/-- A statement keeps the entries of its transaction apart from what is stored. -/
theorem entered (hentered : Entered db flight) : Entered committed next := by
  have hchanges := hafter.changes hruns.executes
  have hoverlaid := overlaid_of_overlay hruns.sees
  constructor
  · rw [hruns.next]
    refine List.pairwise_append.mpr ⟨hentered.runs.filter _, ?_, fun old hold version hversion => ?_⟩
    · refine List.Pairwise.filter _ (List.pairwise_and_iff.mpr ⟨?_, reached.taskRuns.unique⟩)
      exact reached.taskRuns.ascending.imp fun hlt => ne_of_lt hlt
    · obtain ⟨hmem, huntouched⟩ := mem_untouched.mp hold
      refine ⟨(huntouched version hversion).symm, ?_⟩
      exact hchanges.clash_changed hversion (hoverlaid.runs.mpr (.inl hmem))
        (huntouched version hversion)
  · rw [hruns.next]
    refine List.pairwise_append.mpr ⟨hentered.tasks.filter _, ?_, fun old hold version hversion => ?_⟩
    · exact (reached.tasks.ascending.imp fun hlt => ne_of_lt hlt).filter _
    · exact ((mem_untouched.mp hold).2 version hversion).symm
  · rw [hruns.runs_eq]
    intro version hversion run hrun huntouched
    have hkept : ∀ other ∈ flight.own.runs, other.id ≠ run.id := by
      intro other hother hid
      obtain ⟨newer, hnewer, hsame⟩ := hruns.exists_version hother
      exact huntouched newer hnewer (hsame.trans hid)
    have hne := huntouched version hversion
    rw [hruns.next] at hversion
    rcases mem_supersede.mp hversion with hnew | ⟨hold, -⟩
    · exact hchanges.clash_changed hnew (hoverlaid.runs.mpr (.inr ⟨hrun, hkept⟩)) hne
    · exact hentered.free version hold run hrun hkept

/-- A statement enters nothing that a version of another transaction holds. -/
theorem unclashing (hmem : other ∈ others) (hunclashing : Unclashing flight other)
    (hentered : Entered db other) (htidy : Tidy db other) : Unclashing next other := by
  have hchanges := hafter.changes hruns.executes
  have hfree := hruns.free other hmem
  simp only [Flight.blocks, Bool.or_eq_false_iff, List.any_eq_false, List.contains_iff_mem] at hfree
  obtain ⟨⟨-, hlocked⟩, hentry⟩ := hfree
  intro version hversion run hrun
  rcases hruns.mem_own hversion with hold | ⟨hreached, hfresh⟩
  · exact hunclashing version hold run hrun
  · cases hchanges with
    | nothing same => exact absurd (same ▸ hreached) hfresh
    | appends happends _ hannounced =>
      rw [happends.rows] at hreached
      rcases List.mem_append.mp hreached with hold | hnew
      · exact absurd hold hfresh
      · rw [List.mem_singleton.mp hnew, clash_comm]
        by_contra hclash
        obtain ⟨entry, hsome, hmeets⟩ := hannounced run (by simpa using hclash)
        rw [hsome] at hentry
        simp only [Option.any_some, List.any_eq_false] at hentry
        exact hentry run (List.mem_append_left _ hrun) hmeets
    | rewrites hrewrites =>
      rcases hrewrites.origin version hreached with ⟨hold, -⟩ | ⟨old, hold, -, hleaves⟩
      · exact absurd hold hfresh
      · refine hleaves.clash ?_
        rcases (overlaid_of_overlay hruns.sees).runs.mp hold with hown | ⟨hstored, -⟩
        · exact hunclashing old hown run hrun
        · refine hentered.free run hrun old hstored fun given hgiven hid => ?_
          have hrewritten := mem_rewrittenRuns hold hreached hleaves
          rw [hleaves.same.id, ← hid] at hrewritten
          exact hlocked _ (List.mem_append_right _ hrewritten) (htidy.heldRuns given hgiven)

end Runs

end LabBridge.Server
