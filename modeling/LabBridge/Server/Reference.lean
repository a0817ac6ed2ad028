import LabBridge.Library.JsonPrint
import LabBridge.Library.Sha256
import LabBridge.Server.AgentReportHttp
import LabBridge.Server.System
import Mathlib.Data.List.Induction

/-!
# A runtime that can be run

A database encoding, casts, a JSON library and a digest that compute, so that concrete calls
can be served. Instants are numbered by their UTC texts; a document is stored as it was sent.
-/

namespace LabBridge.Server.Reference

open ByteText LabBridge.Core JsonText Storage

/-- A text as a number in base 256. -/
def instantOf (value : Bytes) : ℕ := value.foldl (fun number b => number * 256 + b.toNat) 0

/-- The text of some bytes that a number spells in base 256, before a text. -/
def spelled : ℕ → ℕ → Bytes → Bytes
  | 0, _, rest => rest
  | count + 1, number, rest =>
    spelled count (number / 256) (UInt8.ofNat (number % 256) :: rest)

/-- A number spells the text it was read from. -/
theorem spelled_instantOf (value rest : Bytes) :
    spelled value.length (instantOf value) rest = value ++ rest := by
  induction value using List.reverseRecOn generalizing rest with
  | nil => rfl
  | append_singleton value b ih =>
    have hread : instantOf (value ++ [b]) = instantOf value * 256 + b.toNat := by
      simp [instantOf]
    have hlt := b.toNat_lt
    rw [List.length_append, hread]
    simp only [List.length_singleton, spelled]
    rw [show (instantOf value * 256 + b.toNat) / 256 = instantOf value by omega,
      show (instantOf value * 256 + b.toNat) % 256 = b.toNat by omega, UInt8.ofNat_toNat, ih]
    simp

/-- A text without the white space around it. -/
def trimmed (value : Bytes) : Bytes :=
  ((value.dropWhile isSpace).reverse.dropWhile isSpace).reverse

/-- An integer literal of 64 bits, with white space around it. -/
def bigintOf (value : Bytes) : Option ℤ :=
  let signed := trimmed value
  let digits := if signed.head? = some (byte '-') ∨ signed.head? = some (byte '+') then signed.tail
    else signed
  let number : ℤ :=
    if signed.head? = some (byte '-') then -(numeralValue digits : ℤ) else numeralValue digits
  if digits ≠ [] ∧ (digits.all fun b => decide (IsDigit b)) = true ∧ -(2 ^ 63) ≤ number ∧
      number < 2 ^ 63 then some number
  else none

/-- A digit is no white space. -/
theorem isSpace_digit {b : UInt8} (h : IsDigit b) : isSpace b = false := by
  have hlow := UInt8.le_iff_toNat_le.mp h.1
  have hbytes : (48 : UInt8).toNat = 48 ∧ (32 : UInt8).toNat = 32 ∧ (13 : UInt8).toNat = 13 :=
    ⟨rfl, rfl, rfl⟩
  simp only [isSpace, Bool.or_eq_false_iff, Bool.and_eq_false_iff, beq_eq_false_iff_ne,
    decide_eq_false_iff_not, UInt8.le_iff_toNat_le]
  refine ⟨?_, .inr (by omega)⟩
  rintro rfl
  omega

/-- Nothing is dropped where nothing may be. -/
theorem dropWhile_eq_self {value : Bytes} {dropped : UInt8 → Bool}
    (h : ∀ b ∈ value, dropped b = false) : value.dropWhile dropped = value := by
  cases value with
  | nil => rfl
  | cons b rest => rw [List.dropWhile_cons_of_neg (by simp [h b])]

/-- The numeral of a key is read as the key. -/
theorem bigintOf_decimal (id : ℕ) (h : id < 2 ^ 63) : bigintOf (decimal id) = some (id : ℤ) := by
  have hdigit : ∀ b ∈ decimal id, IsDigit b := fun b hb => isDigit_of_mem_decimal hb
  have hspace : ∀ b ∈ decimal id, isSpace b = false := fun b hb => isSpace_digit (hdigit b hb)
  have htrimmed : trimmed (decimal id) = decimal id := by
    rw [trimmed, dropWhile_eq_self hspace, dropWhile_eq_self (by simpa using hspace),
      List.reverse_reverse]
  have hhead {c : UInt8} (hc : ¬IsDigit c) : (decimal id).head? ≠ some c := fun hhead =>
    hc (hdigit c (List.mem_of_mem_head? hhead))
  have hall : ((decimal id).all fun b => decide (IsDigit b)) = true := by simpa using hdigit
  simp only [bigintOf, htrimmed, hhead (show ¬IsDigit (byte '-') by decide),
    hhead (show ¬IsDigit (byte '+') by decide), or_self, if_false, numeralValue_decimal, hall]
  rw [if_pos ⟨decimal_ne_nil id, trivial, by omega, by exact_mod_cast h⟩]

/-- The number of characters of a UTF-8 text. -/
def characters (value : Bytes) : ℕ := value.countP fun b => b &&& 0xC0 != 0x80

/-- PostgreSQL as far as concrete calls need it. -/
def postgres : Postgres where
  validText value := decide (Utf8 value)
  bigint := bigintOf
  timestamptz value := if isRfc3339Utc value then some (instantOf value) else none
  utcText instant := spelled 20 instant.toNat []
  jsonb value := (readDocument value).map fun _ => value
  varchar limit value := if characters value ≤ limit then some value else none
  validText_ascii := by
    intro value h
    exact decide_eq_true (utf8_ascii fun b hb => (h b hb).2)
  validText_append h₁ h₂ :=
    decide_eq_true ((of_decide_eq_true h₁).append (of_decide_eq_true h₂))
  bigint_decimal := bigintOf_decimal
  bigint_empty := rfl
  timestamptz_rfc3339 := by
    intro value h
    have hlength := length_of_isRfc3339Utc h
    refine ⟨instantOf value, if_pos h, ?_⟩
    rw [Int.toNat_natCast, ← hlength, spelled_instantOf, List.append_nil]
  varchar_short h := if_pos (Nat.le_trans List.countP_le_length h)

/-- The runtime of concrete calls. -/
def runtime : Runtime where
  postgres := postgres
  json := compactJson
  sha256 message :=
    ⟨Sha256.sha256Hex message, Sha256.length_sha256Hex message, Sha256.ascii_sha256Hex message⟩

/-- The JSON library of the HTTP layer for documents without real numbers. -/
def jsonCpp : AgentReportHttp.JsonCpp where
  isValidText value := (readDocument value).isSome
  integral _ := none

/-- A registered node. -/
def node : NodeRow where
  id := 1
  nodeCode := text "lab-node"
  name := text "Lab node"
  agentVersion := text "0.1.0"
  status := .online
  lastHeartbeatAt := none

/-- A directory of CSV files on the node. -/
def source : DataSourceRow where
  id := 1
  nodeCode := text "lab-node"
  sourceType := .localDirectory
  name := text "Balance"
  configJson := text "\x7b\"extension\":\".csv\",\"root_path\":\"/data\"\x7d"
  enabled := true

/-- A collection task on the directory. -/
def task : TaskRow where
  id := 1
  nodeCode := text "lab-node"
  dataSourceId := 1
  name := text "Collect"
  taskType := text "csv_collect"
  scheduleExpr := text "*/5 * * * *"
  parserType := text "csv"
  qcProfile := text "default"
  enabled := true

/-- The tables of a configured site. -/
def site : Database :=
  { Database.empty with
    nodes := .singleton node rfl
    dataSources := .singleton source rfl
    tasks := .singleton task rfl }

/-- The site is set up by configuration. -/
theorem configures_site : Configures postgres .empty site where
  codes := by decide +kernel
  nodes := by simp [Database.empty]
  tasks := ⟨[task], rfl, by decide⟩
  taskRuns := rfl
  rawFiles := rfl
  parsedRecords := rfl
  qcResults := rfl
  alerts := rfl
  receipts := rfl

/-- A second node with a directory of its own. -/
def secondNode : NodeRow :=
  { node with id := 2, nodeCode := text "second-node", name := text "Second node" }

/-- The directory on the second node. -/
def secondSource : DataSourceRow := { source with id := 2, nodeCode := text "second-node" }

/-- A collection task on the second node. -/
def secondTask : TaskRow :=
  { task with id := 2, nodeCode := text "second-node", dataSourceId := 2 }

/-- Another task on the first node. -/
def thirdTask : TaskRow := { task with id := 3, name := text "Collect again" }

/-- The tables of a site with two nodes and three tasks. -/
def twoNodes : Database :=
  { Database.empty with
    nodes := ⟨[node, secondNode], 3, by decide +kernel, by decide +kernel, by decide +kernel⟩
    dataSources :=
      ⟨[source, secondSource], 3, by decide +kernel, by decide +kernel, by decide +kernel⟩
    tasks := ⟨[task, secondTask, thirdTask], 4, by decide +kernel, by decide +kernel,
      by decide +kernel⟩ }

/-- The site with two nodes is set up by configuration. -/
theorem configures_twoNodes : Configures postgres .empty twoNodes where
  codes := by decide +kernel
  nodes := by simp [Database.empty]
  tasks := ⟨[task, secondTask, thirdTask], rfl, by decide +kernel⟩
  taskRuns := rfl
  rawFiles := rfl
  parsedRecords := rfl
  qcResults := rfl
  alerts := rfl
  receipts := rfl

/-- The instant at which the concrete calls are served. -/
def now : Timestamp := instantOf (text "2024-05-01T08:00:00Z")

/-- Some tables after some calls. -/
def serving (calls : List Call) (db : Database) : Database :=
  calls.foldl (fun db call => (call.serve runtime (.first now) db).2) db

/-- Calls lead from reachable tables to reachable tables. -/
theorem reachable_serving (calls : List Call) {db : Database} (hdb : Reachable runtime db) :
    Reachable runtime (serving calls db) := by
  induction calls generalizing db with
  | nil => exact hdb
  | cons call rest ih => exact ih (hdb.tail (.serve call _ trivial))

/-- The tables after some calls on the site. -/
def after (calls : List Call) : Database :=
  calls.foldl (fun db call => (call.serve runtime (.first now) db).2) site

/-- The tables after some calls are reachable. -/
theorem reachable_after (calls : List Call) : Reachable runtime (after calls) :=
  reachable_serving calls (.single (.configure configures_site))

/-- The site with a rule. -/
def ruledSite : Database :=
  { site with
    qcRules := .singleton {
      id := 1
      name := text "Required fields"
      ruleType := text "required_fields"
      ruleConfigJson := text "\x7b\x7d"
      enabled := true } rfl }

/-- The site with a rule is set up by configuration. -/
theorem configures_ruledSite : Configures postgres .empty ruledSite where
  codes := configures_site.codes
  nodes := configures_site.nodes
  tasks := configures_site.tasks
  taskRuns := rfl
  rawFiles := rfl
  parsedRecords := rfl
  qcResults := rfl
  alerts := rfl
  receipts := rfl

/-- The site with a rule after some calls. -/
def ruledAfter (calls : List Call) : Database := serving calls ruledSite

/-- The site with a rule is reachable after any calls. -/
theorem reachable_ruledAfter (calls : List Call) : Reachable runtime (ruledAfter calls) :=
  reachable_serving calls (.single (.configure configures_ruledSite))

/-- A scheduled start of the task. -/
def scheduledStart : StartTaskRunRequest where
  nodeCode := text "lab-node"
  taskId := text "1"
  startedAt := text "2024-05-01T08:00:00Z"
  executionKey := text "slot-1"
  scheduledFor := text "2024-05-01T08:00:00Z"

/-- A manifest of one file of the first run, under a key. -/
def manifest (key : String) : RawFileManifestRequest where
  taskRunId := text "1"
  nodeCode := text "lab-node"
  idempotencyKey := text key
  files := [{
    originalName := text "a.csv"
    fileHash := text "9f86d081884c7d65"
    storagePath := text "1/a.csv"
    sizeBytes := 12
    sourceMtime := text "2024-05-01T07:59:00Z" }]

/-- The first run is started and its file collected. -/
def startedCalls : List Call := [.start scheduledStart, .manifest (manifest "files-1")]

/-- A report that ends the first run with the given rows. -/
def report (parsedRecords : List TaskRunReportParsedRecord) : TaskRunReportRequest where
  taskRunId := text "1"
  nodeCode := text "lab-node"
  idempotencyKey := text "report-1"
  status := .succeeded
  finishedAt := text "2024-05-01T08:01:00Z"
  errorSummary := []
  parsedRecords := parsedRecords

/-- A row whose rule result is a warning. -/
def warnedRow : TaskRunReportParsedRecord where
  rawFileId := text "1"
  record := {
    stationCode := text "S1"
    deviceCode := text "D1"
    recordTime := text "2024-05-01T08:00:00Z"
    payloadJson := text "\x7b\x7d" }
  qcResults := [{
    qcRuleId := text "1"
    level := text "warning"
    result := text "failed"
    message := text "value is missing" }]

/-- The key of an operator action. -/
def operatorKey : Bytes := text "0123456789abcdef0123456789abcdef"

/-- The manual start of the run an operator asked for. -/
def manualStart : StartTaskRunRequest where
  nodeCode := text "lab-node"
  taskId := text "1"
  startedAt := text "2024-05-01T08:00:30Z"
  triggerType := text "manual"
  executionKey := TaskRunService.operatorKey operatorKey
  scheduledFor := []

/-- A scheduled start on the site creates the first run. -/
theorem start_site : (Call.start scheduledStart).serve runtime (.first now) site =
    (.ok (.start ⟨text "1", false, text "running"⟩), after [.start scheduledStart]) :=
  Prod.ext (by decide +kernel) rfl

end LabBridge.Server.Reference
