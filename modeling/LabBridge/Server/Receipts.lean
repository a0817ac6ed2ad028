import LabBridge.Server.Evidence

/-!
# Claiming and completing receipts

A claim is acquired by a new row, which no stored receipt clashes with, or resolved from the
stored receipt under the same node, kind and key. The identifier lists survive the way
through their joined text: what a completed receipt answers with is what was created.
-/

namespace LabBridge.Server

open ByteText LabBridge.Core Storage

variable {pg : Postgres} {session : Session} {db db' : Database}

/-- Two receipts clash when they share node, kind and key, or are reports of one run. -/
theorem ReceiptRow.clash_eq_true {left right : ReceiptRow} :
    left.clash right = true ↔
      (left.nodeCode = right.nodeCode ∧ left.requestType = right.requestType ∧
        left.idempotencyKey = right.idempotencyKey) ∨
      (left.requestType = .taskRunReport ∧ right.requestType = .taskRunReport ∧
        left.taskRunId = right.taskRunId) := by
  simp [ReceiptRow.clash, and_assoc]

/-- The index check of receipts does not depend on the order of the two rows. -/
theorem ReceiptRow.clash_symm (left right : ReceiptRow) :
    left.clash right = right.clash left := by
  have flip {left right : ReceiptRow} (h : left.clash right = true) :
      right.clash left = true := by
    rw [ReceiptRow.clash_eq_true] at h ⊢
    rcases h with ⟨hnode, htype, hkey⟩ | ⟨hleft, hright, hrun⟩
    · exact .inl ⟨hnode.symm, htype.symm, hkey.symm⟩
    · exact .inr ⟨hright, hleft, hrun.symm⟩
  exact Bool.eq_iff_iff.mpr ⟨flip, flip⟩

/-- An identifier is a numeral, so it is not empty and holds no comma. -/
theorem comma_not_mem_of_areIds {ids : List Bytes} (h : AreIds ids) :
    ∀ id ∈ ids, byte ',' ∉ id := by
  intro id hid hcomma
  obtain ⟨key, rfl⟩ := h id hid
  exact absurd (isDigit_of_mem_decimal hcomma) (by decide)

/-- The text of at least one identifier is not empty. -/
theorem stringAgg_ne_nil {ids : List Bytes} (h : AreIds ids) (hne : ids ≠ []) :
    stringAgg ids ≠ [] := by
  cases ids with
  | nil => exact absurd rfl hne
  | cons id rest =>
    obtain ⟨key, rfl⟩ := h id (by simp)
    cases rest with
    | nil => simp [stringAgg]
    | cons other rest => simp [stringAgg, List.intercalate_cons_cons]

/-- Splitting the joined text of identifiers gives the identifiers. -/
theorem stringToArray_stringAgg {ids : List Bytes} (h : AreIds ids) (hne : ids ≠ []) :
    stringToArray (stringAgg ids) = ids :=
  List.splitOn_intercalate (byte ',') (comma_not_mem_of_areIds h) hne

/-- Storing the joined text as an array gives the identifiers. -/
theorem storedIds_stringAgg {ids : List Bytes} (h : AreIds ids) :
    Database.storedIds (stringAgg ids) = ids := by
  cases ids with
  | nil => rfl
  | cons id rest =>
    rw [Database.storedIds, if_neg (stringAgg_ne_nil h (by simp)),
      stringToArray_stringAgg h (by simp)]

/-- The joined text of identifiers is plain ASCII. -/
theorem ascii_stringAgg {ids : List Bytes} (h : AreIds ids) :
    ∀ b ∈ stringAgg ids, 0 < b ∧ b < 128 := by
  have numeral (id : Bytes) (hid : id ∈ ids) (b : UInt8) (hb : b ∈ id) : 0 < b ∧ b < 128 := by
    obtain ⟨key, rfl⟩ := h id hid
    exact ascii_of_isDigit (isDigit_of_mem_decimal hb)
  clear h
  induction ids with
  | nil => simp [stringAgg]
  | cons id rest ih =>
    intro b hb
    cases rest with
    | nil => exact numeral id (by simp) b (by simpa [stringAgg] using hb)
    | cons other rest =>
      rw [stringAgg, List.intercalate_cons_cons, List.mem_append, List.mem_append] at hb
      rcases hb with (hb | hb) | hb
      · exact numeral id (by simp) b hb
      · rw [List.mem_singleton.mp hb]
        decide
      · exact ih (fun id hid => numeral id (List.mem_cons_of_mem _ hid)) b hb

/-- The joined text of identifiers arrives as it was sent. -/
theorem textParam_stringAgg {ids : List Bytes} (h : AreIds ids) :
    pg.textParam (stringAgg ids) = .ok (stringAgg ids) := by
  rw [Postgres.textParam, pg.receive_ascii (ascii_stringAgg h), accepted_some]

namespace ReceiptRepository

/-- Reading the joined text of identifiers gives the identifiers. -/
theorem splitIds_stringAgg {ids : List Bytes} (h : AreIds ids) :
    splitIds (stringAgg ids) = ids := storedIds_stringAgg h

/-- Joining appends the identifiers to the text so far. -/
private theorem joinIds_eq {ids : List Bytes} (h : AreIds ids) (joined : Bytes) :
    joinIds ids joined =
      .ret (if joined = [] then stringAgg ids else stringAgg (joined :: ids)) := by
  induction ids generalizing joined with
  | nil => by_cases hj : joined = [] <;> simp [joinIds, hj, stringAgg]
  | cons id rest ih =>
    obtain ⟨key, rfl⟩ := h id (by simp)
    have hdigits : (decimal (key : ℕ)).all (fun b => decide (IsDigit b)) = true := by
      simpa using fun b hb => isDigit_of_mem_decimal hb
    have hrest : AreIds rest := fun id hid => h id (by simp [hid])
    simp only [joinIds, decimal_ne_nil, if_false, hdigits, Bool.not_true, Bool.false_eq_true]
    rw [ih hrest]
    by_cases hj : joined = []
    · cases rest <;> simp [hj, stringAgg, List.intercalate_cons_cons]
    · cases rest <;> simp [hj, stringAgg, List.intercalate_cons_cons]

/-- Identifiers are joined without an exception. -/
theorem joinIds_ids {ids : List Bytes} (h : AreIds ids) :
    joinIds ids [] = .ret (stringAgg ids) := by
  simpa using joinIds_eq h []

/-- A completed receipt row answers with the identifiers it was completed with. -/
def Answers (row : ReceiptRow) (response : AgentReportReceiptResponse) : Prop :=
  (toReceipt (Database.toReceiptRecord row)).response = response ∧ row.response.isSome = true

/-- What is stored when a receipt is completed. -/
def storedResponse (response : AgentReportReceiptResponse) (now : Timestamp) :
    StoredResponse where
  rawFileIds := response.rawFileIds
  parsedRecordIds := response.parsedRecordIds
  qcResultIds := response.qcResultIds
  alertIds := response.alertIds
  completedAt := now

/-- All identifiers of a response are numerals of keys. -/
def ValidResponse (response : AgentReportReceiptResponse) : Prop :=
  AreIds response.rawFileIds ∧ AreIds response.parsedRecordIds ∧ AreIds response.qcResultIds ∧
    AreIds response.alertIds

/-- A row that stores a response answers with it. -/
theorem answers_of_storedResponse {row : ReceiptRow} {response : AgentReportReceiptResponse}
    {now : Timestamp} (hvalid : ValidResponse response)
    (h : row.response = some (storedResponse response now)) : Answers row response := by
  obtain ⟨hraw, hparsed, hqc, halerts⟩ := hvalid
  refine ⟨?_, by simp [h]⟩
  simp [toReceipt, Database.toReceiptRecord, storedResponse, splitIds_stringAgg, *]

/-- Completing a receipt stores the response in the open row under its identifier. -/
theorem complete_yields {id : RowId} {response : AgentReportReceiptResponse}
    (hvalid : ValidResponse response)
    (h : Tx.Yields pg session (complete (decimal id) response) db () db') :
    ∃ receipts, db' = { db with receipts := receipts } ∧
      (∃ row ∈ db.receipts.rows, row.id = id ∧ row.response = none) ∧
      receipts.rows = db.receipts.rows.map fun row =>
        if some row.id == some id && row.response.isNone then
          { row with response := some (storedResponse response session.now) }
        else row := by
  obtain ⟨hraw, hparsed, hqc, halerts⟩ := hvalid
  simp only [complete, joinIds_ids hraw, joinIds_ids hparsed, joinIds_ids hqc,
    joinIds_ids halerts, Interaction.Program.ret_bind, Tx.yields_sql_bind, Statement.exec,
    Database.updateReceiptComplete, Postgres.idParam_decimal, textParam_stringAgg hraw,
    textParam_stringAgg hparsed, textParam_stringAgg hqc, textParam_stringAgg halerts,
    Answer.ok_bind, Answer.bind_eq_ok, accepted_eq_ok, storedIds_stringAgg hraw,
    storedIds_stringAgg hparsed, storedIds_stringAgg hqc, storedIds_stringAgg halerts] at h
  obtain ⟨answer, mid, ⟨receipts, hupdate, hanswer⟩, h⟩ := h
  cases hanswer
  split at h
  · simp at h
  · rename_i hfound
    obtain ⟨-, rfl⟩ := Tx.yields_pure.mp h
    obtain ⟨row, hrow, -⟩ := Option.map_eq_some_iff.mp hfound
    have hopen := List.find?_some hrow
    simp only [beq_iff_eq, Option.some.injEq, Bool.and_eq_true, Option.isNone_iff_eq_none]
      at hopen
    exact ⟨receipts, rfl, ⟨row, List.mem_of_find?_eq_some hrow, hopen.1, hopen.2⟩,
      (SerialTable.update_eq_some hupdate).1⟩

/-- A claim whose key and fingerprint fit their columns as they are. -/
structure FitsColumns (pg : Postgres) (request : AgentReportReceiptClaim) : Prop where
  key : request.idempotencyKey.length ≤ 128
  fingerprint : pg.varcharParam 64 request.requestFingerprint = .ok request.requestFingerprint

/-- The stored receipt under the node, kind and key of a claim. -/
structure Names (pg : Postgres) (request : AgentReportReceiptClaim) (row : ReceiptRow) :
    Prop where
  node : pg.textParam request.nodeCode = .ok row.nodeCode
  type : row.requestType = request.requestType
  key : pg.textParam request.idempotencyKey = .ok row.idempotencyKey

/-- Two receipts that a claim names exclude each other. -/
theorem Names.clash {request : AgentReportReceiptClaim} {first second : ReceiptRow}
    (h₁ : Names pg request first) (h₂ : Names pg request second) :
    first.clash second = true := by
  have hnode := Except.ok.inj (h₁.node.symm.trans h₂.node)
  have hkey := Except.ok.inj (h₁.key.symm.trans h₂.key)
  exact ReceiptRow.clash_eq_true.mpr (.inl ⟨hnode, h₁.type.trans h₂.type.symm, hkey⟩)

/-- At most one receipt is stored under the node, kind and key of a claim. -/
theorem Names.unique {request : AgentReportReceiptClaim} {first second : ReceiptRow}
    (h₁ : Names pg request first) (h₂ : Names pg request second)
    (hfirst : first ∈ db.receipts.rows) (hsecond : second ∈ db.receipts.rows) :
    first = second :=
  SerialTable.eq_of_clash ReceiptRow.clash_symm hfirst hsecond (h₁.clash h₂)

/-- The open receipt row of an acquired claim. -/
structure Acquired (pg : Postgres) (request : AgentReportReceiptClaim) (db : Database)
    (row : ReceiptRow) : Prop where
  names : Names pg request row
  run : pg.idParam request.taskRunId = .ok (some row.taskRunId)
  fingerprint : row.requestFingerprint = request.requestFingerprint
  isOpen : row.response = none
  owner : ∃ run ∈ db.taskRuns.rows, run.id = row.taskRunId ∧ run.nodeCode = row.nodeCode
  fresh : ∀ other ∈ db.receipts.rows, other.clash row = false

/-- A key within its limit is stored as it arrives. -/
theorem varcharParam_key {key received : Bytes} (hlength : key.length ≤ 128)
    (h : pg.textParam key = .ok received) : pg.varcharParam 128 key = .ok received := by
  have hreceived := accepted_eq_ok.mp h
  have hfits := pg.varchar_short (Nat.le_trans (pg.length_le_of_receive hreceived) hlength)
  simp [Postgres.varcharParam, h, hfits]

/-- A key within its limit that is stored is stored as it arrives. -/
theorem textParam_of_varcharParam {key stored : Bytes} (hlength : key.length ≤ 128)
    (h : pg.varcharParam 128 key = .ok stored) : pg.textParam key = .ok stored := by
  obtain ⟨received, hreceived, -⟩ := Answer.bind_eq_ok.mp h
  rw [hreceived, ← varcharParam_key hlength hreceived, h]

/-- A claim whose insert answers nothing changed nothing. -/
theorem insertReceipt_none {request : AgentReportReceiptClaim}
    (h : db.insertReceipt pg request = .ok (none, db')) : db' = db := by
  simp only [Database.insertReceipt, Answer.bind_eq_ok] at h
  obtain ⟨taskRunId, -, nodeCode, -, key, -, fingerprint, -, h⟩ := h
  split at h
  · cases h
    rfl
  · split at h
    · cases h
    · cases h
      rfl
    · cases h

/-- The insert of a claim appends an open receipt or meets a stored one. -/
theorem insertReceipt_ok {request : AgentReportReceiptClaim} {answer : Option Bytes}
    (hfits : FitsColumns pg request) (h : db.insertReceipt pg request = .ok (answer, db')) :
    (answer = none ∧ db' = db) ∨
      ∃ row receipts, answer = some (decimal (row : ReceiptRow).id) ∧
        Acquired pg request db row ∧ db' = { db with receipts := receipts } ∧
        receipts.rows = db.receipts.rows ++ [row] := by
  simp only [Database.insertReceipt, Answer.bind_eq_ok] at h
  obtain ⟨taskRunId, hid, nodeCode, hnode, key, hkey, fingerprint, hfingerprint, h⟩ := h
  obtain rfl := Except.ok.inj (hfits.fingerprint.symm.trans hfingerprint)
  have hkeyText := textParam_of_varcharParam hfits.key hkey
  split at h
  · cases h
    exact .inl ⟨rfl, rfl⟩
  · rename_i run hrun
    obtain ⟨rfl, hrunStored, hrunNode⟩ := ownRun_eq_some hrun
    split at h
    · rename_i id receipts hinsert
      obtain ⟨-, hrows, -, hfresh⟩ := SerialTable.insert_eq_ok hinsert
      cases h
      refine .inr ⟨_, receipts, rfl, ⟨⟨?_, rfl, hkeyText⟩, hid, rfl, rfl,
        ⟨run, hrunStored, rfl, rfl⟩, hfresh⟩, rfl, hrows⟩
      rw [hnode, ← hrunNode]
    · cases h
      exact .inl ⟨rfl, rfl⟩
    · cases h

/-- The read by key finds the receipt that a claim names. -/
theorem selectReceiptByKey_ok (request : AgentReportReceiptClaim)
    {record : Database.ReceiptRecord}
    (h : db.selectReceiptByKey pg request.nodeCode request.requestType request.idempotencyKey =
      .ok (some record)) :
    ∃ row ∈ db.receipts.rows, Names pg request row ∧ record = Database.toReceiptRecord row := by
  simp only [Database.selectReceiptByKey, Answer.bind_eq_ok, Answer.pure_eq_ok,
    Except.ok.injEq] at h
  obtain ⟨nodeCode, hnode, key, hkey, h⟩ := h
  obtain ⟨row, hrow, rfl⟩ := Option.map_eq_some_iff.mp h
  have hmatch := List.find?_some hrow
  simp only [Bool.and_eq_true, beq_iff_eq] at hmatch
  obtain ⟨⟨rfl, htype⟩, rfl⟩ := hmatch
  exact ⟨row, List.mem_of_find?_eq_some hrow, ⟨hnode, htype, hkey⟩, rfl⟩

/-- How a claim can end. -/
inductive Claimed (pg : Postgres) (request : AgentReportReceiptClaim) (db : Database) :
    ClaimResult → Database → Prop
  | acquired {row : ReceiptRow} {receipts} (isNew : Acquired pg request db row)
      (rows : receipts.rows = db.receipts.rows ++ [row]) :
      Claimed pg request db (.acquired (decimal row.id)) { db with receipts := receipts }
  | replay {row : ReceiptRow} (isStored : row ∈ db.receipts.rows) (names : Names pg request row)
      (same : row.requestFingerprint = request.requestFingerprint)
      (complete : row.response.isSome = true) :
      Claimed pg request db (.replay (toReceipt (Database.toReceiptRecord row))) db
  | idempotencyConflict {row : ReceiptRow} (isStored : row ∈ db.receipts.rows)
      (names : Names pg request row)
      (different : row.requestFingerprint ≠ request.requestFingerprint)
      (receipt : AgentReportReceipt) :
      Claimed pg request db (.idempotencyConflict receipt) db
  | taskRunConflict (receipt : AgentReportReceipt) :
      Claimed pg request db (.taskRunConflict receipt) db

/-- A claim that ends with an answer ends in one of these ways. -/
theorem claim_yields {request : AgentReportReceiptClaim} {result : ClaimResult}
    (hfits : FitsColumns pg request) (h : Tx.Yields pg session (claim request) db result db') :
    Claimed pg request db result db' := by
  simp only [claim, Tx.yields_sql_bind, Statement.exec] at h
  obtain ⟨answer, mid, hinsert, h⟩ := h
  rcases insertReceipt_ok hfits hinsert with ⟨rfl, rfl⟩ | ⟨row, receipts, rfl, hacquired, rfl, hrows⟩
  · simp only [resolveClaim, Tx.yields_sql_bind, Statement.exec, Statement.reading_eq_ok] at h
    obtain ⟨answer, mid, ⟨hselect, rfl⟩, h⟩ := h
    cases answer with
    | some record =>
      obtain ⟨row, hrow, hnames, rfl⟩ := selectReceiptByKey_ok _ hselect
      simp only at h
      split at h
      · rename_i hdifferent
        obtain ⟨rfl, rfl⟩ := Tx.yields_pure.mp h
        exact .idempotencyConflict hrow hnames hdifferent _
      · rename_i hsame
        simp only [Tx.yields_unless_raise, Tx.yields_pure] at h
        obtain ⟨hcomplete, rfl, rfl⟩ := h
        refine .replay hrow hnames (not_not.mp hsame) (Option.isSome_iff_ne_none.mpr ?_)
        simpa [toReceipt, Database.toReceiptRecord] using hcomplete
    | none =>
      simp only at h
      split at h
      · obtain ⟨answer, mid, hreport, h⟩ := Tx.yields_sql_bind.mp h
        obtain ⟨-, rfl⟩ := Statement.reading_eq_ok.mp hreport
        cases answer with
        | some existing =>
          obtain ⟨rfl, rfl⟩ := Tx.yields_pure.mp h
          exact .taskRunConflict _
        | none => simp at h
      · simp at h
  · obtain ⟨rfl, rfl⟩ := Tx.yields_pure.mp h
    exact .acquired hacquired hrows

end ReceiptRepository

end LabBridge.Server
