import LabBridge.Library.Checks
import LabBridge.Server.Rules

/-!
# Transactions that obey checks

A transaction obeys a list of checks when it ends with a result exactly where all of them
pass, is refused where a refusing check fails first, and ends in an exception where a cast
fails first. An outage may end it anywhere.
-/

namespace LabBridge.Server

open ByteText LabBridge.Core Storage Interaction

variable {pg : Postgres} {session : Session} {db db' : Database} {α β : Type}
  {checks rest : List Check}

/-- A cast of the database fails by refusing its value only. -/
def Answer.Rejects (answer : Answer α) : Prop := ∀ fault, answer = .error fault → fault = .rejected

/-- The check that a cast of the database makes. -/
def castCheck (answer : Answer α) : Check := .cast answer.isOk

namespace Answer

/-- An accepted value fails by refusal only. -/
theorem rejects_accepted (value : Option α) : Rejects (accepted value) := by
  intro fault h
  cases value with
  | some value => cases h
  | none => cases h; rfl

/-- A returned value does not fail. -/
theorem rejects_pure (value : α) : Rejects (pure value : Answer α) := nofun

/-- Two casts fail by refusal only when each does. -/
theorem Rejects.bind {first : Answer α} {next : α → Answer β} (hfirst : first.Rejects)
    (hnext : ∀ value, (next value).Rejects) : Rejects (first >>= next) := by
  intro fault h
  cases first with
  | error other => cases h; exact hfirst _ rfl
  | ok value => exact hnext value fault h

/-- A statement's answer obeys checks. -/
def Obeys (answer : Answer (α × Database)) (checks : List Check) (post : α → Database → Prop) :
    Prop :=
  match answer with
  | .ok (value, reached) => verdict checks = .passes ∧ post value reached
  | .error .outage => True
  | .error .rejected => verdict checks = .broken

/-- An answer whose cast passes obeys the checks behind the cast. -/
theorem obeys_cast {cast : Answer β} {next : β → Answer (α × Database)}
    {post : α → Database → Prop} (hrejects : cast.Rejects)
    (h : ∀ value, cast = .ok value → (next value).Obeys rest post) :
    Obeys (cast >>= next) (castCheck cast :: rest) post := by
  cases hcast : cast with
  | error fault =>
    obtain rfl := hrejects fault hcast
    exact rfl
  | ok value =>
    have hnext := h value hcast
    exact hnext

/-- A value that the database never refuses makes no check. -/
theorem obeys_accepted {value : Option β} {next : β → Answer (α × Database)}
    {post : α → Database → Prop} (hvalue : ∃ result, value = some result)
    (h : ∀ result, (next result).Obeys rest post) :
    Obeys (accepted value >>= next) rest post := by
  obtain ⟨result, rfl⟩ := hvalue
  exact h result

/-- A read obeys the check of its cast. -/
theorem obeys_reading {answer : Answer α} {post : α → Database → Prop}
    (hrejects : answer.Rejects) (h : ∀ value, answer = .ok value → post value db) :
    Obeys (Statement.reading db answer) [castCheck answer] post := by
  cases hanswer : answer with
  | error fault =>
    obtain rfl := hrejects fault hanswer
    exact rfl
  | ok value => exact ⟨rfl, h value hanswer⟩

end Answer

namespace Postgres

theorem rejects_textParam (value : Bytes) : (pg.textParam value).Rejects :=
  Answer.rejects_accepted _

theorem rejects_varcharParam (limit : ℕ) (value : Bytes) :
    (pg.varcharParam limit value).Rejects :=
  (rejects_textParam value).bind fun _ => Answer.rejects_accepted _

theorem rejects_nullableVarcharParam (limit : ℕ) (value : Bytes) :
    (pg.nullableVarcharParam limit value).Rejects := by
  refine (rejects_textParam value).bind fun received => ?_
  split
  · exact Answer.rejects_pure _
  · exact Answer.rejects_accepted _

theorem rejects_idParam (value : Bytes) : (pg.idParam value).Rejects :=
  (rejects_textParam value).bind fun _ =>
    (Answer.rejects_accepted _).bind fun _ => Answer.rejects_pure _

theorem rejects_nullableTimeParam (value : Bytes) : (pg.nullableTimeParam value).Rejects := by
  refine (rejects_textParam value).bind fun received => ?_
  split
  · exact Answer.rejects_pure _
  · exact (Answer.rejects_accepted _).bind fun _ => Answer.rejects_pure _

theorem rejects_jsonParam (value : Bytes) : (pg.jsonParam value).Rejects :=
  (rejects_textParam value).bind fun _ => Answer.rejects_accepted _

theorem rejects_nullableJsonParam (value : Bytes) : (pg.nullableJsonParam value).Rejects := by
  refine (rejects_textParam value).bind fun received => ?_
  split
  · exact Answer.rejects_pure _
  · exact (Answer.rejects_accepted _).bind fun _ => Answer.rejects_pure _

end Postgres

namespace Tx

/-- A transaction body obeys checks. -/
def Obeys (pg : Postgres) (session : Session) (tx : Tx α) (db : Database) (checks : List Check)
    (post : α → Database → Prop) : Prop :=
  match Tx.run tx pg session db with
  | (.ok value, reached) => verdict checks = .passes ∧ post value reached
  | (.error (.refused _), _) => verdict checks = .refused
  | (.error (.failed .outage), _) => True
  | (.error (.failed .rejected), _) => verdict checks = .broken
  | (.error (.thrown _), _) => verdict checks = .broken

/-- A returned value passes every check there is. -/
theorem obeys_pure {value : α} {post : α → Database → Prop} (h : post value db) :
    Obeys pg session (pure value) db [] post := ⟨rfl, h⟩

/-- A refusal obeys checks that refuse. -/
theorem obeys_refuse {failure : Failure} {post : α → Database → Prop}
    (h : verdict checks = .refused) : Obeys pg session (refuse failure) db checks post := h

/-- An exception obeys checks that break. -/
theorem obeys_raise {message : String} {post : α → Database → Prop}
    (h : verdict checks = .broken) : Obeys pg session (raise message) db checks post := h

/-- A body that a check guards obeys the check and what is behind it. -/
theorem obeys_unless {condition : Prop} [Decidable condition] {holds : Bool} {failure : Failure}
    {tx : Tx α} {post : α → Database → Prop} (hguard : holds = true ↔ ¬condition)
    (h : ¬condition → Obeys pg session tx db rest post) :
    Obeys pg session (if condition then refuse failure else tx) db (.must holds :: rest)
      post := by
  by_cases hcondition : condition
  · have hholds : holds = false := Bool.eq_false_iff.mpr fun hholds => hguard.mp hholds hcondition
    rw [if_pos hcondition, hholds]
    exact obeys_refuse rfl
  · rw [if_neg hcondition, hguard.mpr hcondition]
    exact h hcondition

/-- A statement obeys what its answer obeys. -/
theorem obeys_sql {statement : Statement α} {post : α → Database → Prop}
    (h : (statement.exec pg session db).Obeys checks post) :
    Obeys pg session (sql statement) db checks post := by
  unfold Obeys Tx.run sql Program.perform
  rw [Program.run_call]
  unfold handler
  unfold Answer.Obeys at h
  rcases hexec : statement.exec pg session db with (_ | _) | ⟨value, reached⟩
  · trivial
  · rw [hexec] at h
    exact h
  · rw [hexec] at h
    exact h

/-- A sequence obeys the checks of both parts. -/
theorem obeys_bind {tx : Tx α} {next : α → Tx β} {mid : α → Database → Prop}
    {post : β → Database → Prop} (hfirst : Obeys pg session tx db checks mid)
    (hnext : verdict checks = .passes → ∀ value reached, mid value reached →
      Obeys pg session (next value) reached rest post) :
    Obeys pg session (tx >>= next) db (checks ++ rest) post := by
  unfold Obeys at hfirst ⊢
  unfold Tx.run at hfirst ⊢
  rw [Program.run_bind]
  rcases hrun : Program.run (handler pg session) tx db with ⟨(failure | (_ | _) | message) | value,
    reached⟩ <;> rw [hrun] at hfirst <;> simp only at hfirst
  case error.refused => simp [hfirst]
  case error.failed.outage => trivial
  case error.failed.rejected => simp [hfirst]
  case error.thrown => simp [hfirst]
  case ok =>
    have h := hnext hfirst.1 value reached hfirst.2
    rw [verdict_append, hfirst.1]
    exact h

/-- A sequence whose second part makes no check obeys the checks of the first. -/
theorem obeys_bind_free {tx : Tx α} {next : α → Tx β} {mid : α → Database → Prop}
    {post : β → Database → Prop} (hfirst : Obeys pg session tx db checks mid)
    (hnext : verdict checks = .passes → ∀ value reached, mid value reached →
      Obeys pg session (next value) reached [] post) :
    Obeys pg session (tx >>= next) db checks post := by
  have h := obeys_bind hfirst hnext
  rwa [List.append_nil] at h

/-- A sequence whose first part yields a value obeys what its second part obeys there. -/
theorem obeys_bind_of_yields {tx : Tx α} {next : α → Tx β} {value : α}
    {post : β → Database → Prop} (h : Yields pg session tx db value db')
    (hnext : Obeys pg session (next value) db' checks post) :
    Obeys pg session (tx >>= next) db checks post := by
  unfold Obeys at hnext ⊢
  rw [run_bind_of_yields h]
  exact hnext

/-- A read and what follows it obey the check of the read and the checks behind it. -/
theorem obeys_read {statement : Statement α} {answer : Answer α} {next : α → Tx β}
    {post : β → Database → Prop}
    (hexec : statement.exec pg session db = Statement.reading db answer)
    (hrejects : answer.Rejects)
    (h : ∀ value, answer = .ok value → Obeys pg session (next value) db rest post) :
    Obeys pg session (sql statement >>= next) db (castCheck answer :: rest) post := by
  have hread : Obeys pg session (sql statement) db [castCheck answer]
      fun value reached => answer = .ok value ∧ reached = db := by
    refine obeys_sql ?_
    rw [hexec]
    exact Answer.obeys_reading hrejects fun value hvalue => ⟨hvalue, rfl⟩
  refine obeys_bind hread ?_
  rintro - value reached ⟨hvalue, rfl⟩
  exact h value hvalue

/-- Lists with one verdict are obeyed alike. -/
theorem Obeys.of_verdict_eq {tx : Tx α} {other : List Check} {post : α → Database → Prop}
    (h : Obeys pg session tx db checks post) (hsame : verdict other = verdict checks) :
    Obeys pg session tx db other post := by
  unfold Obeys at h ⊢
  rw [hsame]
  exact h

/-- What a yielded result satisfies may be added. -/
theorem Obeys.of_yields {tx : Tx α} {mid post : α → Database → Prop}
    (h : Obeys pg session tx db checks mid)
    (hpost : ∀ value reached, Yields pg session tx db value reached → mid value reached →
      post value reached) :
    Obeys pg session tx db checks post := by
  unfold Obeys at h ⊢
  rcases hrun : Tx.run tx pg session db with ⟨(failure | (_ | _) | message) | value, reached⟩ <;>
    rw [hrun] at h
  case error.refused => exact h
  case error.failed.outage => trivial
  case error.failed.rejected => exact h
  case error.thrown => exact h
  case ok => exact ⟨h.1, hpost value reached hrun h.2⟩

end Tx

/-- A call that ended with a result or with a status. -/
def IsSettled : Except Stop α → Prop
  | .ok _ => True
  | .error (.refused _) => True
  | .error _ => False

namespace Tx

/-- A transaction body is settled exactly when no check breaks it. An early result may leave
the checks behind it unmade. -/
def Settles (pg : Postgres) (session : Session) (tx : Tx α) (db : Database)
    (checks : List Check) : Prop :=
  (Tx.run tx pg session db).1 ≠ .error (.failed .outage) →
    (IsSettled (Tx.run tx pg session db).1 ↔ verdict checks ≠ .broken)

/-- A body that obeys checks is settled exactly when nothing breaks. -/
theorem Obeys.settles {tx : Tx α} {post : α → Database → Prop}
    (h : Obeys pg session tx db checks post) : Settles pg session tx db checks := by
  unfold Obeys at h
  unfold Settles
  rcases hrun : Tx.run tx pg session db with ⟨(failure | (_ | _) | message) | value, reached⟩ <;>
    rw [hrun] at h <;> simp only at h
  case error.refused => simp [IsSettled, h]
  case error.failed.outage => exact fun houtage => absurd rfl houtage
  case error.failed.rejected => simp [IsSettled, h]
  case error.thrown => simp [IsSettled, h]
  case ok => simp [IsSettled, h.1]

/-- A body that ends with a result or a status is settled where no check breaks. -/
theorem settles_of_isSettled {tx : Tx α} (h : IsSettled (Tx.run tx pg session db).1)
    (hchecks : verdict checks ≠ .broken) : Settles pg session tx db checks :=
  fun _ => iff_of_true h hchecks

/-- Lists with one verdict settle alike. -/
theorem Settles.of_verdict_eq {tx : Tx α} {other : List Check}
    (h : Settles pg session tx db checks) (hsame : verdict other = verdict checks) :
    Settles pg session tx db other := by
  unfold Settles at h ⊢
  rw [hsame]
  exact h

/-- A sequence is settled by the checks of its first part and of what follows. -/
theorem settles_bind {tx : Tx α} {next : α → Tx β} {mid : α → Database → Prop}
    (hfirst : Obeys pg session tx db checks mid)
    (hnext : ∀ value reached, mid value reached →
      Settles pg session (next value) reached rest) :
    Settles pg session (tx >>= next) db (checks ++ rest) := by
  have hsettles := hfirst.settles
  unfold Obeys at hfirst
  unfold Settles at hsettles ⊢
  unfold Tx.run at hfirst hsettles ⊢
  rw [Program.run_bind]
  rcases hrun : Program.run (handler pg session) tx db with ⟨(failure | (_ | _) | message) | value,
    reached⟩ <;> rw [hrun] at hfirst hsettles <;> simp only at hfirst
  case error.refused => simp [IsSettled, hfirst]
  case error.failed.outage => exact fun houtage => absurd rfl houtage
  case error.failed.rejected => simp [IsSettled, hfirst]
  case error.thrown => simp [IsSettled, hfirst]
  case ok =>
    have h := hnext value reached hfirst.2
    rw [verdict_append, hfirst.1]
    exact h

end Tx

end LabBridge.Server
