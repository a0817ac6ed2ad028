import LabBridge.Server.ServingSteps

/-!
# What a transaction holds

A statement that is answered lets a transaction hold the rows that it locks or numbers, and no
other transaction holds one of them. So the facts about a transaction survive its own statements
and those of the others.
-/

namespace LabBridge.Server

open ByteText LabBridge.Core Storage Interaction

variable {R : Runtime} {reported : TaskRunStatus → Prop} {db view reached committed : Database}
  {serving other next : Serving} {others : List Serving} {γ : Type} {statement : Statement γ}
  {answer : γ} {rest : γ → Tx Reply} {stage stage' : ServingStage}

/-- A statement of a transaction that is answered without waiting. -/
structure Serving.Runs (R : Runtime) (db : Database) (others : List Serving) (serving : Serving)
    {γ : Type} (statement : Statement γ) (answer : γ) (view reached : Database) : Prop where
  sees : serving.view db = some view
  executes : statement.exec R.postgres serving.session view = .ok (answer, reached)
  free : ∀ other ∈ others, other.blocks R.postgres db view reached statement = false

/-- A transaction that goes on has run its next statement. -/
theorem Serving.advance_goes (h : serving.advance R db others = some (.goes next committed)) :
    ∃ (γ : Type) (statement : Statement γ) (rest : γ → Tx Reply) (answer : γ)
      (view reached : Database), serving.rest = .call statement rest ∧
        Serving.Runs R db others serving statement answer view reached ∧
        next = serving.proceed R.postgres view reached statement (rest answer) ∧
        committed = db.rollback reached := by
  unfold Serving.advance at h
  split at h
  · cases h
  · cases h
  · rename_i _ statement rest view hrest hview
    split at h
    · cases h
    · rename_i answer reached hexec
      split at h
      · cases h
      · rename_i hfree
        cases h
        exact ⟨_, statement, rest, answer, view, reached, hrest,
          ⟨hview, hexec, by simpa using hfree⟩, rfl, rfl⟩
  · cases h

/-- A transaction that ends commits what it sees or leaves the tables. -/
theorem Serving.advance_ends (h : serving.advance R db others = some (.ends committed)) :
    (∃ reply, serving.rest = .ret reply ∧ serving.view db = some committed) ∨ committed = db := by
  unfold Serving.advance at h
  split at h
  · cases h
    exact .inr rfl
  · rename_i reply view hrest hview
    cases h
    exact .inl ⟨reply, hrest, hview⟩
  · split at h
    · cases h
      exact .inr rfl
    · split at h
      · cases h
      · cases h
  · cases h

/-- A run row that a statement locks is one of those it sees. -/
theorem finishedRun_mem {run : RowId} (h : run ∈ statement.finishedRun R.postgres view) :
    ∃ row ∈ view.taskRuns.rows, row.id = run := by
  unfold Statement.finishedRun at h
  split at h
  · split at h
    · exact List.mem_map.mp (List.mem_filter.mp h).1
    · cases h
  · cases h

/-- An alert row that a statement locks is one of those it sees. -/
theorem lockedAlert_mem {alert : RowId} (h : alert ∈ statement.lockedAlert R.postgres view) :
    ∃ row ∈ view.alerts.rows, row.id = alert := by
  unfold Statement.lockedAlert at h
  split at h
  · split at h
    · exact List.mem_map.mp (List.mem_filter.mp h).1
    · cases h
  · split at h
    · exact List.mem_map.mp (List.mem_filter.mp h).1
    · cases h
  · cases h

namespace Serving

variable (hserving : serving.Sound R reported db)
  (hruns : Serving.Runs R db others serving statement answer view reached)

include hserving hruns

/-- The runs that a transaction holds were held before, are locked by the statement or new. -/
theorem mem_heldRuns {rest : Tx Reply} {run : RowId}
    (h : run ∈ (serving.proceed R.postgres view reached statement rest).heldRuns) :
    run ∈ serving.heldRuns ∨
      run ∈ statement.lockedRun R.postgres view ++ statement.finishedRun R.postgres view ++
        rewrittenRuns view reached ∨
      view.taskRuns.next ≤ (run : ℕ) ∧ ∃ row ∈ reached.taskRuns.rows, row.id = run := by
  rcases List.mem_append.mp h with h | hversion
  · exact (List.mem_append.mp h).imp_right .inl
  · obtain ⟨version, hown, rfl⟩ := List.mem_map.mp hversion
    rcases of_mem_supersede hown with hold | ⟨hnew, hchanged⟩
    · exact .inl (hserving.heldRuns version hold)
    · rcases run_of_changed hruns.executes hnew hchanged with hfresh | hrewritten
      · exact .inr (.inr ⟨hfresh, version, hnew, rfl⟩)
      · exact .inr (.inl (List.mem_append_right _ hrewritten))

/-- The alerts that a transaction holds were held before, are locked by the statement or new. -/
theorem mem_heldAlerts {rest : Tx Reply} {alert : RowId}
    (h : alert ∈ (serving.proceed R.postgres view reached statement rest).heldAlerts) :
    alert ∈ serving.heldAlerts ∨ alert ∈ statement.lockedAlert R.postgres view ∨
      view.alerts.next ≤ (alert : ℕ) ∧ ∃ row ∈ reached.alerts.rows, row.id = alert := by
  rcases List.mem_append.mp h with h | hversion
  · exact (List.mem_append.mp h).imp_right .inl
  · obtain ⟨version, hown, rfl⟩ := List.mem_map.mp hversion
    rcases of_mem_supersede hown with hold | ⟨hnew, hchanged⟩
    · exact .inl (hserving.heldAlerts version hold)
    · rcases alert_of_changed hruns.executes hnew hchanged with hfresh | hlocked
      · exact .inr (.inr ⟨hfresh, version, hnew, rfl⟩)
      · exact .inr (.inl hlocked)

/-- The runs that a transaction holds have been numbered. -/
theorem belowRun_proceed {rest : Tx Reply} :
    ∀ run ∈ (serving.proceed R.postgres view reached statement rest).heldRuns,
      (run : ℕ) < (db.rollback reached).taskRuns.next := by
  intro run hrun
  have hnext := (seen_of_view hruns.sees).nextRun
  have hseen {run : RowId} (h : ∃ row ∈ view.taskRuns.rows, row.id = run) :
      (run : ℕ) < (db.rollback reached).taskRuns.next := by
    obtain ⟨row, hrow, rfl⟩ := h
    exact lt_of_lt_of_le (hnext ▸ view.taskRuns.below row hrow) (le_max_left _ _)
  rcases mem_heldRuns hserving hruns hrun with hold | hlocked | ⟨-, row, hrow, rfl⟩
  · exact lt_of_lt_of_le (hserving.belowRun run hold) (le_max_left _ _)
  · rcases List.mem_append.mp hlocked with hlocked | hrewritten
    · rcases List.mem_append.mp hlocked with hlocked | hfinished
      · exact hseen (lockedRun_mem hlocked)
      · exact hseen (finishedRun_mem hfinished)
    · obtain ⟨row, hrow, rfl⟩ := List.mem_map.mp hrewritten
      exact hseen ⟨row, (List.mem_filter.mp hrow).1, rfl⟩
  · exact lt_of_lt_of_le (reached.taskRuns.below row hrow) (le_max_right _ _)

/-- The alerts that a transaction holds have been numbered. -/
theorem belowAlert_proceed {rest : Tx Reply} :
    ∀ alert ∈ (serving.proceed R.postgres view reached statement rest).heldAlerts,
      (alert : ℕ) < (db.rollback reached).alerts.next := by
  intro alert halert
  rcases mem_heldAlerts hserving hruns halert with hold | hlocked | ⟨-, row, hrow, rfl⟩
  · exact lt_of_lt_of_le (hserving.belowAlert alert hold) (le_max_left _ _)
  · obtain ⟨row, hrow, rfl⟩ := lockedAlert_mem hlocked
    have hbelow := view.alerts.below row hrow
    rw [(seen_of_view hruns.sees).nextAlert] at hbelow
    exact lt_of_lt_of_le hbelow (le_max_left _ _)
  · exact lt_of_lt_of_le (reached.alerts.below row hrow) (le_max_right _ _)

/-- Every stored receipt is seen. -/
theorem mem_view_receipts {stored : ReceiptRow} (hstored : stored ∈ db.receipts.rows) :
    stored ∈ view.receipts.rows := by
  refine (seen_of_view hruns.sees).receipts.of_stored hstored fun version hversion => ?_
  exact ((hserving.receipts version hversion stored hstored).1).symm

variable (hafter : ServingStage.After R serving.call stage statement answer stage')
  (hknows : serving.Knows R reported db serving.call stage)

include hafter hknows

/-- The receipts of a transaction stay apart from what is stored. -/
theorem receipts_proceed {rest : Tx Reply} :
    ∀ receipt ∈ (serving.proceed R.postgres view reached statement rest).evidence.receipts,
      (receipt.id : ℕ) < (db.rollback reached).receipts.next ∧
        ∀ stored ∈ db.receipts.rows, stored.id ≠ receipt.id ∧ stored.clash receipt = false := by
  intro receipt hreceipt
  have hseen := seen_of_view hruns.sees
  rcases of_mem_supersede hreceipt with hold | ⟨hnew, hchanged⟩
  · exact ⟨lt_of_lt_of_le (hserving.belowReceipt receipt hold) (le_max_left _ _),
      hserving.receipts receipt hold⟩
  · refine ⟨lt_of_lt_of_le (reached.receipts.below receipt hnew) (le_max_right _ _),
      fun stored hstored => ?_⟩
    rcases receipt_of_changed hseen hafter hknows hruns.executes hnew hchanged with
      ⟨hfresh, hfree⟩ | ⟨own, hown, same⟩
    · refine ⟨fun hid => ?_, hfree stored (mem_view_receipts hserving hruns hstored)⟩
      have hbelow := db.receipts.below stored hstored
      rw [hid, ← hseen.nextReceipt] at hbelow
      omega
    · rw [same.id, same.clash]
      exact hserving.receipts own hown stored hstored

/-- A statement keeps the facts about its transaction. -/
theorem Sound.proceed {rest : Tx Reply}
    (hfirst : ∀ request, serving.call = .report request → serving.asked = 0 → ∀ run,
      OwnRun R.postgres request.taskRunId request.nodeCode run db → reported run.status)
    (hfollows : Serves R serving.call (fun _ _ => True) rest stage') :
    (serving.proceed R.postgres view reached statement rest).Sound R reported
      (db.rollback reached) where
  stage := by
    have hnext : (serving.proceed R.postgres view reached statement rest).Knows R reported db
        serving.call stage' :=
      hknows.step hserving (seen_of_view hruns.sees) hfirst hafter hruns.executes
    exact ⟨stage', hfollows, Knows.of_sameRows hnext (sameRows_rollback db reached)⟩
  heldRuns version hversion :=
    List.mem_append_right _ (List.mem_map_of_mem (f := TaskRunRow.id) hversion)
  heldAlerts alert halert :=
    List.mem_append_right _ (List.mem_map_of_mem (f := AlertRow.id) halert)
  belowRun := belowRun_proceed hserving hruns
  belowAlert := belowAlert_proceed hserving hruns
  belowReceipt receipt hreceipt :=
    (receipts_proceed hserving hruns hafter hknows receipt hreceipt).1
  receipts receipt hreceipt := (receipts_proceed hserving hruns hafter hknows receipt hreceipt).2

/-- A statement lets a transaction hold only what no other holds. -/
theorem separate_proceed {rest : Tx Reply} (hmem : other ∈ others)
    (happart : Separate serving other) (hother : other.Sound R reported db) :
    Separate (serving.proceed R.postgres view reached statement rest) other := by
  have hseen := seen_of_view hruns.sees
  have hfree := hruns.free other hmem
  simp only [Serving.blocks, Flight.blocks, Bool.or_eq_false_iff, List.any_eq_false,
    List.contains_iff_mem] at hfree
  obtain ⟨⟨⟨⟨⟨-, hlocked⟩, -⟩, hfinished⟩, halerts⟩, hreceipts⟩ := hfree
  constructor
  · intro run hrun
    rcases mem_heldRuns hserving hruns hrun with hold | hnew | ⟨hnew, -⟩
    · exact happart.runs run hold
    · rcases List.mem_append.mp hnew with hnew | hrewritten
      · rcases List.mem_append.mp hnew with hnew | hfinish
        · exact hlocked run (List.mem_append_left _ hnew)
        · exact hfinished run hfinish
      · exact hlocked run (List.mem_append_right _ hrewritten)
    · intro hheld
      have hbelow := hother.belowRun run hheld
      rw [← hseen.nextRun] at hbelow
      omega
  · intro alert halert
    rcases mem_heldAlerts hserving hruns halert with hold | hnew | ⟨hnew, -⟩
    · exact happart.alerts alert hold
    · exact halerts alert hnew
    · intro hheld
      have hbelow := hother.belowAlert alert hheld
      rw [← hseen.nextAlert] at hbelow
      omega
  · intro first hfirst second hsecond
    rcases of_mem_supersede hfirst with hold | ⟨hnew, hchanged⟩
    · exact happart.receipts first hold second hsecond
    · rcases receipt_of_changed hseen hafter hknows hruns.executes hnew hchanged with
        ⟨hfresh, -⟩ | ⟨own, hown, same⟩
      · refine ⟨fun hid => ?_, ?_⟩
        · have hbelow := hother.belowReceipt second hsecond
          rw [← hid, ← hseen.nextReceipt] at hbelow
          omega
        · have hclash := hreceipts first (mem_changedRows.mpr ⟨hnew, hchanged⟩)
          rw [Bool.not_eq_true, List.any_eq_false] at hclash
          rw [ReceiptRow.clash_symm]
          simpa using hclash second hsecond
      · obtain ⟨hid, hclash⟩ := happart.receipts own hown second hsecond
        refine ⟨same.id ▸ hid, ?_⟩
        rw [ReceiptRow.clash_symm, same.clash, ReceiptRow.clash_symm]
        exact hclash

end Serving

end LabBridge.Server
