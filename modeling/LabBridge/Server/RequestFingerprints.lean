import LabBridge.Server.AgentReportService
import LabBridge.Library.SelfDelimiting

/-!
# What a fingerprint tells of a request

A fingerprint hashes one text of length-prefixed values. The lengths end every value, counts in
front of the lists end these, and the name in front tells manifests from reports, so that the
text determines the request up to its key and its defaults.
-/

namespace LabBridge.Server

open ByteText LabBridge.Core SelfDelimiting

namespace AgentReportService

/-! ## The values of a text -/

/-- A numeral is told from a byte behind it that is no digit. -/
theorem ends_numeral {m n : ℕ} {rest others : Bytes}
    (h : decimal m ++ byte ':' :: rest = decimal n ++ byte ':' :: others) :
    m = n ∧ rest = others := by
  have hdigits (k : ℕ) (tail : Bytes) :
      (decimal k ++ byte ':' :: tail).takeWhile (fun b => decide (IsDigit b)) = decimal k := by
    rw [List.takeWhile_append_of_pos, List.takeWhile_cons_of_neg (by decide), List.append_nil]
    exact fun b hb => decide_eq_true (isDigit_of_mem_decimal hb)
  have hnumber : decimal m = decimal n := by rw [← hdigits m rest, h, hdigits]
  rw [hnumber, List.append_cancel_left_eq, List.cons.injEq] at h
  exact ⟨decimal_injective hnumber, h.2⟩

/-- The length of a value tells where it ends. -/
theorem ends_fingerprintPart : Ends fingerprintPart id := by
  intro left right rest others h
  simp only [fingerprintPart, List.append_assoc, List.singleton_append] at h
  have hlength := ends_numeral h
  exact List.append_inj hlength.2 hlength.1

/-- The text of a list of values determines the list. -/
theorem canonical_injective : Function.Injective canonical := by
  intro left right h
  have hmap := ends_fingerprintPart.map_eq_of_flatMap (by simp [fingerprintPart]) h
  simpa using hmap

/-- Integers have different numerals. -/
theorem decimalInt_injective : Function.Injective decimalInt := by
  have hsign (m n : ℕ) : decimal m ≠ byte '-' :: decimal (n + 1) := by
    intro h
    have hminus : byte '-' ∈ decimal m := h ▸ List.mem_cons_self
    exact absurd (isDigit_of_mem_decimal hminus) (by decide)
  intro m n h
  cases m <;> cases n
  case ofNat.ofNat m n => exact congrArg Int.ofNat (decimal_injective h)
  case ofNat.negSucc m n => exact absurd h (hsign m n)
  case negSucc.ofNat m n => exact absurd h.symm (hsign n m)
  case negSucc.negSucc m n =>
    have hnumber : decimal (m + 1) = decimal (n + 1) := (List.cons.inj h).2
    have hsucc := decimal_injective hnumber
    exact congrArg Int.negSucc (by omega)

/-! ## What a request says besides its key -/

/-- A manifest entry with its default status written out. -/
def statedEntry (file : RawFileManifestEntry) : RawFileManifestEntry :=
  { file with ingestStatus := orDefault file.ingestStatus "collected" }

/-- A manifest without its key. -/
def statedManifest (request : RawFileManifestRequest) : RawFileManifestRequest :=
  { request with idempotencyKey := [], files := request.files.map statedEntry }

/-- A parsed row with its default status written out. -/
def statedRecord (parsed : TaskRunReportParsedRecord) : TaskRunReportParsedRecord :=
  { parsed with parseStatus := orDefault parsed.parseStatus "parsed" }

/-- A report without its key; failed files are part of it only where the field is present. -/
def statedReport (request : TaskRunReportRequest) : TaskRunReportRequest :=
  { request with
    idempotencyKey := []
    parsedRecords := request.parsedRecords.map statedRecord
    failedFiles := if request.hasFailedFiles then request.failedFiles else [] }

/-- The requests that are hashed. -/
inductive HashedRequest
  | manifest (request : RawFileManifestRequest)
  | report (request : TaskRunReportRequest)

/-- The text that is hashed. -/
def HashedRequest.canonical : HashedRequest → Bytes
  | .manifest request => manifestCanonical request
  | .report request => reportCanonical request

/-- A request without its key and with its defaults written out. -/
def HashedRequest.stated : HashedRequest → HashedRequest
  | .manifest request => .manifest (statedManifest request)
  | .report request => .report (statedReport request)

/-! ## The entries of the lists -/

theorem ends_manifestEntryParts : Ends manifestEntryParts statedEntry := by
  intro left right rest others h
  simp only [manifestEntryParts, List.cons_append, List.nil_append, List.cons.injEq] at h
  obtain ⟨hname, hhash, hpath, hsize, htime, hstatus, hrest⟩ := h
  cases left
  cases right
  simp_all [statedEntry, decimalInt_injective.eq_iff]

theorem ends_qcResultParts : Ends qcResultParts id := by
  intro left right rest others h
  simp only [qcResultParts, List.cons_append, List.nil_append, List.cons.injEq] at h
  obtain ⟨hrule, hlevel, hresult, hmessage, hrest⟩ := h
  cases left
  cases right
  simp_all

theorem ends_parsedRecordParts : Ends parsedRecordParts statedRecord := by
  intro left right rest others h
  simp only [parsedRecordParts, List.cons_append, List.nil_append, List.cons.injEq] at h
  obtain ⟨hfile, hstation, hdevice, htime, hpayload, hstatus, hcount, hrest⟩ := h
  have hresults := ends_qcResultParts.repeated (decimal_injective hcount) hrest
  simp only [List.map_id_fun, id_eq] at hresults
  cases left with
  | mk leftFile leftRecord leftStatus leftResults =>
    cases right with
    | mk rightFile rightRecord rightStatus rightResults =>
      cases leftRecord
      cases rightRecord
      simp_all [statedRecord]

theorem ends_failedFileParts : Ends failedFileParts id := by
  intro left right rest others h
  simp only [failedFileParts, List.cons_append, List.nil_append, List.cons.injEq] at h
  obtain ⟨hsource, hname, hstage, hmessage, hreference, hrest⟩ := h
  cases left
  cases right
  simp_all

/-! ## The texts of whole requests -/

/-- Writing a default out does not change a status again. -/
theorem orDefault_orDefault (value : Bytes) (fallback : String) :
    orDefault (orDefault value fallback) fallback = orDefault value fallback := by
  by_cases hempty : value = []
  · by_cases hdefault : text fallback = []
    · simp [orDefault, hempty, hdefault]
    · simp [orDefault, hempty, hdefault]
  · simp [orDefault, hempty]

/-- The text of a manifest reads only what the manifest states. -/
theorem manifestCanonical_stated (request : RawFileManifestRequest) :
    manifestCanonical (statedManifest request) = manifestCanonical request := by
  have hentries : (request.files.map statedEntry).flatMap manifestEntryParts =
      request.files.flatMap manifestEntryParts := by
    rw [List.flatMap_map]
    apply List.flatMap_congr
    intro file _
    simp only [manifestEntryParts, statedEntry, orDefault_orDefault]
  simp only [manifestCanonical, statedManifest, hentries, count, List.length_map]

/-- The text of a report reads only what the report states. -/
theorem reportCanonical_stated (request : TaskRunReportRequest) :
    reportCanonical (statedReport request) = reportCanonical request := by
  have hrecords : (request.parsedRecords.map statedRecord).flatMap parsedRecordParts =
      request.parsedRecords.flatMap parsedRecordParts := by
    rw [List.flatMap_map]
    apply List.flatMap_congr
    intro parsed _
    simp only [parsedRecordParts, statedRecord, orDefault_orDefault]
  simp only [reportCanonical, statedReport, hrecords, count, List.length_map]
  by_cases hpresent : request.hasFailedFiles = true
  · simp only [if_pos hpresent]
  · simp only [if_neg hpresent]

/-- Manifests with one text state the same. -/
theorem statedManifest_eq {left right : RawFileManifestRequest}
    (h : manifestCanonical left = manifestCanonical right) :
    statedManifest left = statedManifest right := by
  have hvalues := canonical_injective h
  simp only [List.cons_append, List.nil_append, List.cons.injEq, true_and] at hvalues
  obtain ⟨hrun, hnode, hcount, hfiles⟩ := hvalues
  have hentries := ends_manifestEntryParts.repeated_to_end (decimal_injective hcount) hfiles
  simp only [statedManifest, hrun, hnode, hentries]

/-- Reports with one text state the same. -/
theorem statedReport_eq {left right : TaskRunReportRequest}
    (h : reportCanonical left = reportCanonical right) : statedReport left = statedReport right := by
  have hvalues := canonical_injective h
  simp only [List.cons_append, List.nil_append, List.cons.injEq, true_and] at hvalues
  obtain ⟨hrun, hnode, hstatus, hfinished, htotal, hsuccess, hfailed, hsummary, hcount, hrest⟩ :=
    hvalues
  obtain ⟨hrecords, htail⟩ := ends_parsedRecordParts.repeated (decimal_injective hcount) hrest
  have hfiles : left.hasFailedFiles = right.hasFailedFiles ∧
      (if right.hasFailedFiles then left.failedFiles else []) =
        if right.hasFailedFiles then right.failedFiles else [] := by
    cases hleft : left.hasFailedFiles <;> cases hright : right.hasFailedFiles
    case false.false => simp
    case false.true => simp [hleft, hright] at htail
    case true.false => simp [hleft, hright] at htail
    case true.true =>
      simp only [hleft, hright, if_true, List.cons.injEq, true_and] at htail
      have hfiles := ends_failedFileParts.repeated_to_end (decimal_injective htail.1) htail.2
      simpa using hfiles
  simp only [statedReport, hrun, hnode, TaskRunStatus.toStorage_injective hstatus, hfinished,
    decimalInt_injective htotal, decimalInt_injective hsuccess, decimalInt_injective hfailed,
    hsummary, hrecords, hfiles.1, hfiles.2]

/-- A manifest and a report start with different names. -/
theorem manifestCanonical_ne_reportCanonical (manifest : RawFileManifestRequest)
    (report : TaskRunReportRequest) : manifestCanonical manifest ≠ reportCanonical report := by
  intro h
  have hvalues := canonical_injective h
  simp only [List.cons_append, List.nil_append, List.cons.injEq] at hvalues
  exact absurd hvalues.1 (by decide)

/-- The texts of two requests are equal exactly when the requests are of one kind and state the
same besides their keys. -/
theorem fingerprints_identify (left right : HashedRequest) :
    left.canonical = right.canonical ↔ left.stated = right.stated := by
  cases left with
  | manifest left =>
    cases right with
    | manifest right =>
      simp only [HashedRequest.canonical, HashedRequest.stated, HashedRequest.manifest.injEq]
      apply Iff.intro statedManifest_eq
      intro h
      rw [← manifestCanonical_stated left, h, manifestCanonical_stated]
    | report right =>
      simp [HashedRequest.canonical, HashedRequest.stated, manifestCanonical_ne_reportCanonical]
  | report left =>
    cases right with
    | manifest right =>
      simp [HashedRequest.canonical, HashedRequest.stated,
        (manifestCanonical_ne_reportCanonical right left).symm]
    | report right =>
      simp only [HashedRequest.canonical, HashedRequest.stated, HashedRequest.report.injEq]
      apply Iff.intro statedReport_eq
      intro h
      rw [← reportCanonical_stated left, h, reportCanonical_stated]

end AgentReportService

end LabBridge.Server
