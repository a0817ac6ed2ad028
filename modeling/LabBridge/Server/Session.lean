import LabBridge.Server.Tables

/-!
# Sessions, faults and column casts

A session fixes what a transaction cannot choose: its `now()`, the row an unordered
`LIMIT 1` returns, and the statement at which the database fails, if any. A statement
fails either because of a value it was given or because of an outage.
-/

namespace LabBridge.Server

open ByteText LabBridge.Core Storage

/-- Why a statement fails. -/
inductive Fault
  /-- The database or a serial counter fails, whatever the request holds. -/
  | outage
  /-- The database refuses a value. -/
  | rejected
  deriving DecidableEq

/-- How a service call ends without a result. -/
inductive Stop
  /-- A client-error status. -/
  | refused (failure : Failure)
  /-- An exception of the storage. -/
  | failed (fault : Fault)
  /-- An exception of the program. -/
  | thrown (message : Bytes)
  deriving DecidableEq

/-- The facts about one transaction that neither the program nor the request determines. -/
structure Session where
  now : Timestamp
  /-- The row that `LIMIT 1` without an order keeps. -/
  pick : List TaskRunRow → Option TaskRunRow
  pick_mem : ∀ {rows : List TaskRunRow} {run : TaskRunRow}, pick rows = some run → run ∈ rows
  pick_isSome : ∀ {rows : List TaskRunRow}, rows ≠ [] → (pick rows).isSome
  /-- The number of statements answered before the connection is lost. -/
  fault : Option ℕ := none

/-- The session that keeps the first row. -/
def Session.first (now : Timestamp) (fault : Option ℕ := none) : Session where
  now := now
  pick := List.head?
  pick_mem := List.mem_of_mem_head?
  pick_isSome := by
    intro rows h
    cases rows with
    | nil => exact absurd rfl h
    | cons run rest => rfl
  fault := fault

/-- Nothing is kept of no rows. -/
@[simp] theorem Session.pick_nil (session : Session) : session.pick [] = none := by
  cases h : session.pick [] with
  | none => rfl
  | some run => exact absurd (session.pick_mem h) (by simp)

/-- The only row is the one that is kept. -/
@[simp] theorem Session.pick_singleton (session : Session) (run : TaskRunRow) :
    session.pick [run] = some run := by
  have h := session.pick_isSome (List.cons_ne_nil run [])
  obtain ⟨kept, hkept⟩ := Option.isSome_iff_exists.mp h
  rw [hkept, List.mem_singleton.mp (session.pick_mem hkept)]

/-- What a statement computes. -/
abbrev Answer (α : Type) := Except Fault α

/-- A value the database accepts, or a refusal. -/
def accepted {α : Type} : Option α → Answer α
  | some value => .ok value
  | none => .error .rejected

@[simp] theorem accepted_some {α : Type} (value : α) : accepted (some value) = .ok value := rfl

@[simp] theorem accepted_none {α : Type} : accepted (none : Option α) = .error .rejected := rfl

/-- A cast succeeds with the value it accepts. -/
@[simp] theorem accepted_eq_ok {α : Type} {value : Option α} {result : α} :
    accepted value = .ok result ↔ value = some result := by
  cases value <;> simp [accepted]

@[simp] theorem Answer.ok_bind {α β : Type} (value : α) (next : α → Answer β) :
    ((.ok value : Answer α) >>= next) = next value := rfl

@[simp] theorem Answer.error_bind {α β : Type} (fault : Fault) (next : α → Answer β) :
    ((.error fault : Answer α) >>= next) = .error fault := rfl

@[simp] theorem Answer.pure_eq_ok {α : Type} (value : α) : (pure value : Answer α) = .ok value :=
  rfl

/-- Two steps succeed when each does. -/
@[simp] theorem Answer.bind_eq_ok {α β : Type} {first : Answer α} {next : α → Answer β}
    {result : β} :
    (first >>= next) = .ok result ↔ ∃ value, first = .ok value ∧ next value = .ok result := by
  cases first <;> simp [bind, Except.bind]

namespace Postgres

variable (pg : Postgres)

/-- A text parameter. -/
def textParam (value : Bytes) : Answer Bytes := accepted (pg.receive value)

/-- A text parameter stored in a `VARCHAR` column. -/
def varcharParam (limit : ℕ) (value : Bytes) : Answer Bytes := do
  accepted (pg.varchar limit (← pg.textParam value))

/-- `NULLIF($1, '')` stored in a `VARCHAR` column. -/
def nullableVarcharParam (limit : ℕ) (value : Bytes) : Answer Bytes := do
  let received ← pg.textParam value
  if received = [] then pure [] else accepted (pg.varchar limit received)

/-- The serial key an integer equals, if any. -/
def rowIdOf (number : ℤ) : Option RowId :=
  if h : 0 ≤ number ∧ number < 2 ^ 63 then some ⟨number.toNat, by omega⟩ else none

/-- `$1::bigint` compared with a serial key: the key it can match, if any. -/
def idParam (value : Bytes) : Answer (Option RowId) := do
  let number ← accepted (pg.bigint (← pg.textParam value))
  pure (rowIdOf number)

/-- `NULLIF($1, '')::bigint`. -/
def nullableIdParam (value : Bytes) : Answer (Option (Option RowId)) := do
  let received ← pg.textParam value
  if received = [] then pure none else do
    let number ← accepted (pg.bigint received)
    pure (some (rowIdOf number))

/-- `$1::timestamptz`. -/
def timeParam (value : Bytes) : Answer Timestamp := do
  accepted (pg.timestamptz (← pg.textParam value))

/-- `NULLIF($1, '')::timestamptz`. -/
def nullableTimeParam (value : Bytes) : Answer (Option Timestamp) := do
  let received ← pg.textParam value
  if received = [] then pure none else do
    let instant ← accepted (pg.timestamptz received)
    pure (some instant)

/-- `$1::jsonb`. -/
def jsonParam (value : Bytes) : Answer Bytes := do
  accepted (pg.jsonb (← pg.textParam value))

/-- `NULLIF($1, '')::jsonb`. -/
def nullableJsonParam (value : Bytes) : Answer (Option Bytes) := do
  let received ← pg.textParam value
  if received = [] then pure none else do
    let document ← accepted (pg.jsonb received)
    pure (some document)

/-- The text of a nullable time column. -/
def utcColumn (instant : Option Timestamp) : Bytes := (instant.map pg.utcText).getD []

/-- A numeral arrives as it was sent. -/
@[simp] theorem textParam_decimal (id : ℕ) : pg.textParam (decimal id) = .ok (decimal id) := by
  have h : pg.receive (decimal id) = some (decimal id) := by
    refine pg.receive_ascii fun b hb => ?_
    obtain ⟨low, high⟩ := isDigit_of_mem_decimal hb
    constructor
    · exact UInt8.lt_of_lt_of_le (show (0 : UInt8) < 48 by decide) low
    · exact UInt8.lt_of_le_of_lt high (show (57 : UInt8) < 128 by decide)
  simp [textParam, h]

/-- Plain ASCII is accepted as a text. -/
theorem textParam_ascii {value : Bytes} (h : ∀ b ∈ value, 0 < b ∧ b < 128) :
    pg.textParam value = .ok value := by
  simp [textParam, pg.receive_ascii h]

/-- Plain ASCII within the limit of a column is stored as it is. -/
theorem varcharParam_ascii {limit : ℕ} {value : Bytes} (h : ∀ b ∈ value, 0 < b ∧ b < 128)
    (hlength : value.length ≤ limit) : pg.varcharParam limit value = .ok value := by
  simp [varcharParam, pg.textParam_ascii h, pg.varchar_short hlength]

/-- A serial key equals its own number. -/
@[simp] theorem rowIdOf_val (id : RowId) : rowIdOf (id : ℕ) = some id := by
  have hrange : (0 : ℤ) ≤ ((id : ℕ) : ℤ) ∧ ((id : ℕ) : ℤ) < 2 ^ 63 := by
    have := id.isLt
    omega
  rw [rowIdOf, dif_pos hrange]
  exact congrArg some (Fin.ext (Int.toNat_natCast _))

/-- The numeral of a key finds the key. -/
@[simp] theorem idParam_decimal (id : RowId) : pg.idParam (decimal id) = .ok (some id) := by
  simp [idParam, pg.bigint_decimal id id.isLt]

end Postgres

end LabBridge.Server
