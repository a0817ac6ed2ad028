import LabBridge.Server.Statement

/-!
# Reasoning about transactions

The rules that take a transaction apart: what a sequence, a statement, a refusal and an
exception do, and how the executor's commit or rollback relates to the body that ran.
-/

namespace LabBridge.Server

open ByteText LabBridge.Core Storage Interaction

variable {pg : Postgres} {session : Session} {db db' : Database} {α β : Type}

/-- A body that ends with `result` takes the tables from `db` to `db'`. -/
def Tx.Yields (pg : Postgres) (session : Session) (tx : Tx α) (db : Database) (result : α)
    (db' : Database) : Prop :=
  Tx.run tx pg session db = (.ok result, db')

namespace Tx

/-- A sequence yields what its second part yields after the first. -/
theorem yields_bind {tx : Tx α} {next : α → Tx β} {result : β} :
    Yields pg session (tx >>= next) db result db' ↔
      ∃ value mid, Yields pg session tx db value mid ∧
        Yields pg session (next value) mid result db' :=
  Program.run_bind_ok (handler pg session)

/-- A statement yields its answer. -/
theorem yields_sql {statement : Statement α} {result : α} :
    Yields pg session (sql statement) db result db' ↔
      statement.exec pg session db = .ok (result, db') := by
  unfold Yields Tx.run sql Program.perform
  rw [Program.run_call]
  unfold handler
  rcases h : statement.exec pg session db with fault | ⟨answer, reached⟩
  · simp
  · simp

/-- A returned value is yielded without touching the tables. -/
@[simp] theorem yields_ret {value result : α} :
    Yields pg session (.ret value) db result db' ↔ value = result ∧ db = db' := by
  simp [Yields, Tx.run]

/-- A returned value is yielded without touching the tables. -/
@[simp] theorem yields_pure {value result : α} :
    Yields pg session (pure value) db result db' ↔ value = result ∧ db = db' :=
  yields_ret

/-- A refusal yields nothing. -/
@[simp] theorem not_yields_refuse {failure : Failure} {result : α} :
    ¬Yields pg session (refuse failure) db result db' := by
  simp [Yields, Tx.run, refuse]

/-- An exception yields nothing. -/
@[simp] theorem not_yields_raise {message : String} {result : α} :
    ¬Yields pg session (raise message) db result db' := by
  simp [Yields, Tx.run, raise]

/-- A guarded body yields what lies behind its guard. -/
@[simp] theorem yields_unless_refuse {condition : Prop} [Decidable condition]
    {failure : Failure} {tx : Tx α} {result : α} :
    Yields pg session (if condition then refuse failure else tx) db result db' ↔
      ¬condition ∧ Yields pg session tx db result db' := by
  split <;> simp [*]

/-- A guarded body yields what lies behind its guard. -/
@[simp] theorem yields_unless_raise {condition : Prop} [Decidable condition]
    {message : String} {tx : Tx α} {result : α} :
    Yields pg session (if condition then raise message else tx) db result db' ↔
      ¬condition ∧ Yields pg session tx db result db' := by
  split <;> simp [*]

/-- A branching body yields what its chosen branch yields. -/
theorem yields_ite {condition : Prop} [Decidable condition] {yes no : Tx α} {result : α} :
    Yields pg session (if condition then yes else no) db result db' ↔
      (condition ∧ Yields pg session yes db result db') ∨
        (¬condition ∧ Yields pg session no db result db') := by
  split <;> simp [*]

/-- A statement followed by a body yields what the body yields on its answer. -/
theorem yields_sql_bind {statement : Statement α} {next : α → Tx β} {result : β} :
    Yields pg session (sql statement >>= next) db result db' ↔
      ∃ answer mid, statement.exec pg session db = .ok (answer, mid) ∧
        Yields pg session (next answer) mid result db' := by
  simp only [yields_bind, yields_sql]

/-- A sequence runs its second part where its first part yielded a value. -/
theorem run_bind_of_yields {tx : Tx α} {next : α → Tx β} {value : α}
    (h : Yields pg session tx db value db') :
    Tx.run (tx >>= next) pg session db = Tx.run (next value) pg session db' := by
  unfold Yields Tx.run at h
  unfold Tx.run
  rw [Program.run_bind, h]

/-- A body yields one result at most. -/
theorem Yields.unique {tx : Tx α} {first second : α} {db₁ db₂ : Database}
    (h₁ : Yields pg session tx db first db₁) (h₂ : Yields pg session tx db second db₂) :
    first = second ∧ db₁ = db₂ := by
  have h : ((.ok first : Except Stop α), db₁) = (.ok second, db₂) := h₁.symm.trans h₂
  cases h
  exact ⟨rfl, rfl⟩

/-- A body that starts in `db` ends with `stop`. -/
def Ends (pg : Postgres) (session : Session) (tx : Tx α) (db : Database) (stop : Stop) : Prop :=
  (Tx.run tx pg session db).1 = .error stop

/-- A sequence ends in its first part, or in its second part after the first. -/
theorem ends_bind {tx : Tx α} {next : α → Tx β} {stop : Stop} :
    Ends pg session (tx >>= next) db stop ↔
      Ends pg session tx db stop ∨
        ∃ value mid, Yields pg session tx db value mid ∧
          Ends pg session (next value) mid stop := by
  unfold Ends Yields Tx.run
  rw [Program.run_bind]
  rcases Program.run (handler pg session) tx db with ⟨value | value, reached⟩ <;> simp

/-- A statement ends with the fault it fails with. -/
theorem ends_sql {statement : Statement α} {stop : Stop} :
    Ends pg session (sql statement) db stop ↔
      ∃ fault, statement.exec pg session db = .error fault ∧ .failed fault = stop := by
  unfold Ends Tx.run sql Program.perform
  rw [Program.run_call]
  unfold handler
  rcases statement.exec pg session db with fault | ⟨answer, reached⟩ <;> simp

/-- A returned value ends nothing. -/
@[simp] theorem not_ends_ret {value : α} {stop : Stop} :
    ¬Ends pg session (.ret value) db stop := by
  simp [Ends, Tx.run]

/-- A returned value ends nothing. -/
@[simp] theorem not_ends_pure {value : α} {stop : Stop} :
    ¬Ends pg session (pure value) db stop := not_ends_ret

/-- A refusal ends with its status. -/
@[simp] theorem ends_refuse {failure : Failure} {stop : Stop} :
    Ends pg session (refuse failure : Tx α) db stop ↔ .refused failure = stop := by
  simp [Ends, Tx.run, refuse]

/-- An exception ends with its message. -/
@[simp] theorem ends_raise {message : String} {stop : Stop} :
    Ends pg session (raise message : Tx α) db stop ↔ .thrown (text message) = stop := by
  simp [Ends, Tx.run, raise]

/-- A branching body ends where its chosen branch ends. -/
theorem ends_ite {condition : Prop} [Decidable condition] {yes no : Tx α} {stop : Stop} :
    Ends pg session (if condition then yes else no) db stop ↔
      (condition ∧ Ends pg session yes db stop) ∨
        (¬condition ∧ Ends pg session no db stop) := by
  split <;> simp [*]

/-- The executor answers what the body ends with, or the fault of a lost connection. -/
theorem execute_fst_eq (pg : Postgres) (session : Session) (tx : Tx α) (db : Database) :
    (execute tx pg session db).1 = .error (.failed .outage) ∨
      (execute tx pg session db).1 = (Tx.run tx pg session db).1 := by
  have hrun := Program.run_faultAfter (handler pg session) (.failed .outage) tx db session.fault
  unfold execute Tx.run
  rcases hfaulty : Program.run (Program.faultAfter (handler pg session) (.failed .outage)) tx
      (db, session.fault) with ⟨value | value, reached, countdown⟩
  · rw [hfaulty] at hrun
    exact hrun.imp_right And.left
  · rw [hfaulty] at hrun
    exact hrun.imp_right And.left

/-- A result that the executor answers is the one its body yields, and it is committed. -/
theorem yields_of_execute {tx : Tx α} {result : α}
    (h : (execute tx pg session db).1 = .ok result) :
    Yields pg session tx db result (execute tx pg session db).2 := by
  have hrun := Program.run_faultAfter (handler pg session) (.failed .outage) tx db session.fault
  unfold execute at h ⊢
  unfold Yields Tx.run
  rcases hfaulty : Program.run (Program.faultAfter (handler pg session) (.failed .outage)) tx
      (db, session.fault) with ⟨value | value, reached, countdown⟩
  · rw [hfaulty] at h
    cases h
  · rw [hfaulty] at h hrun
    cases h
    rcases hrun with hfault | ⟨hvalue, hreached⟩
    · cases hfault
    · exact Prod.ext hvalue.symm hreached.symm

/-- An answered result with the tables it committed is what the body yields. -/
theorem yields_of_execute_eq {tx : Tx α} {result : α}
    (h : execute tx pg session db = (.ok result, db')) :
    Yields pg session tx db result db' := by
  have hyields := yields_of_execute (congrArg Prod.fst h)
  rw [h] at hyields
  exact hyields

/-- Whatever ends without a result is rolled back from the tables it reached. -/
theorem rollback_of_execute_error {tx : Tx α} {stop : Stop}
    (h : (execute tx pg session db).1 = .error stop) :
    ∃ reached, (execute tx pg session db).2 = db.rollback reached := by
  unfold execute at h ⊢
  rcases hfaulty : Program.run (Program.faultAfter (handler pg session) (.failed .outage)) tx
      (db, session.fault) with ⟨value | value, reached, countdown⟩
  · exact ⟨reached, rfl⟩
  · rw [hfaulty] at h
    cases h

/-- Whatever ends without a result leaves every row as it was. -/
theorem contents_of_execute_error {tx : Tx α} {stop : Stop}
    (h : (execute tx pg session db).1 = .error stop) :
    (execute tx pg session db).2.contents = db.contents := by
  obtain ⟨reached, hreached⟩ := rollback_of_execute_error h
  rw [hreached, Database.contents_rollback]

/-- Without an injected fault the executor answers what the body ends with. -/
theorem execute_fst_of_no_fault {tx : Tx α} (hfault : session.fault = none) :
    (execute tx pg session db).1 = (Tx.run tx pg session db).1 := by
  unfold execute
  rw [hfault, Program.run_faultAfter_none]
  unfold Tx.run
  rcases Program.run (handler pg session) tx db with ⟨value | value, reached⟩ <;> rfl

/-- Wrapping the result of a body wraps what the executor answers. -/
theorem execute_fst_map {tx : Tx α} {make : α → β} (hfault : session.fault = none) :
    (execute (tx >>= fun result => pure (make result)) pg session db).1 =
      (execute tx pg session db).1.map make := by
  rw [execute_fst_of_no_fault hfault, execute_fst_of_no_fault hfault]
  unfold Tx.run
  rw [Program.run_bind]
  rcases Program.run (handler pg session) tx db with ⟨value | value, mid⟩ <;> rfl

/-- Without an injected fault a yielded result is answered and committed. -/
theorem execute_of_yields {tx : Tx α} {result : α} (hfault : session.fault = none)
    (h : Yields pg session tx db result db') :
    execute tx pg session db = (.ok result, db') := by
  unfold execute
  rw [hfault, Program.run_faultAfter_none]
  unfold Yields Tx.run at h
  rw [h]

end Tx

end LabBridge.Server
