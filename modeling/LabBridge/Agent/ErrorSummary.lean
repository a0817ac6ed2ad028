import LabBridge.Agent.CodecRoundTrip
import LabBridge.Agent.CompactJson
import LabBridge.Library.Utf8
import Mathlib.Data.List.Induction

/-!
# The error summary of a report

A summary counts every error, spells out the first few and is cut to a number of bytes. The
cut falls where the budget ends, whether or not a character ends there, so a summary of texts
is itself a text only when the first byte that is cut off does not continue a character.
-/

namespace LabBridge.Agent

open ByteText JsonText Fallible LabBridge.Core

/-- The number of errors that are spelled out. -/
def maximumErrorDetails : ℕ := 5

/-- The bytes a summary may have. -/
def maximumErrorSummaryBytes : ℕ := 512

/-- The errors of a report: how many there are, and the first of them. -/
structure ErrorSummary where
  total : ℕ := 0
  details : List Bytes := []

/-- Count an error, and keep it while there is room. -/
def ErrorSummary.add (summary : ErrorSummary) (detail : Bytes) : ErrorSummary where
  total := summary.total + 1
  details := if summary.details.length < maximumErrorDetails then summary.details ++ [detail]
    else summary.details

/-- The whole line of a summary. -/
def ErrorSummary.output (summary : ErrorSummary) : Bytes :=
  decimal summary.total ++ ByteText.text " error(s)" ++
    summary.details.flatMap (fun detail => ByteText.text "; " ++ detail) ++
    if summary.details.length < summary.total then
      ByteText.text "; " ++ decimal (summary.total - summary.details.length) ++
        ByteText.text " additional error(s) omitted"
    else []

/-- The line of a summary within its bytes; no errors make no line. -/
def ErrorSummary.text (summary : ErrorSummary) : Bytes :=
  if summary.total = 0 then []
  else if maximumErrorSummaryBytes < summary.output.length then
    summary.output.take (maximumErrorSummaryBytes - 3) ++ ByteText.text "..."
  else summary.output

/-- The line that a list of errors would make without a limit on its bytes. -/
def uncutSummary (details : List Bytes) : Bytes :=
  decimal details.length ++ text " error(s)" ++
    (details.take maximumErrorDetails).flatMap (fun detail => text "; " ++ detail) ++
    if maximumErrorDetails < details.length then
      text "; " ++ decimal (details.length - maximumErrorDetails) ++
        text " additional error(s) omitted"
    else []

/-- Adding errors one after the other. -/
def summaryOf (details : List Bytes) : ErrorSummary := details.foldl ErrorSummary.add {}

/-- A summary counts all errors and keeps the first five. -/
theorem summaryOf_eq (details : List Bytes) :
    summaryOf details = ⟨details.length, details.take maximumErrorDetails⟩ := by
  induction details using List.reverseRecOn with
  | nil => rfl
  | append_singleton details detail ih =>
    rw [summaryOf, List.foldl_append, List.foldl_cons, List.foldl_nil]
    rw [summaryOf] at ih
    rw [ih, ErrorSummary.add]
    have htake : (details.take maximumErrorDetails).length < maximumErrorDetails ↔
        details.length < maximumErrorDetails := by
      rw [List.length_take]
      omega
    simp only [List.length_append, List.length_singleton, ErrorSummary.mk.injEq, true_and, htake]
    by_cases hroom : details.length < maximumErrorDetails
    · rw [if_pos hroom, List.take_of_length_le (Nat.le_of_lt hroom), List.take_of_length_le]
      rw [List.length_append, List.length_singleton]
      exact hroom
    · rw [if_neg hroom, List.take_append_of_le_length (Nat.le_of_not_lt hroom)]

theorem output_summaryOf (details : List Bytes) :
    (summaryOf details).output = uncutSummary details := by
  rw [summaryOf_eq, ErrorSummary.output, uncutSummary, List.length_take]
  by_cases hmore : maximumErrorDetails < details.length
  · rw [Nat.min_eq_left (Nat.le_of_lt hmore)]
  · rw [Nat.min_eq_right (Nat.le_of_not_lt hmore), if_neg (Nat.lt_irrefl _), if_neg hmore]

/-- A numeral is a text. -/
theorem utf8_decimal (n : ℕ) : Utf8 (decimal n) := by
  apply utf8_ascii
  intro b hb
  have hhigh := UInt8.le_iff_toNat_le.mp (isDigit_of_mem_decimal hb).2
  rw [UInt8.lt_iff_toNat_lt]
  exact Nat.lt_of_le_of_lt hhigh (by decide)

theorem utf8_flatMap {α : Type} {f : α → Bytes} {items : List α}
    (h : ∀ item ∈ items, Utf8 (f item)) : Utf8 (items.flatMap f) := by
  induction items with
  | nil => exact utf8_nil
  | cons item rest ih =>
    rw [List.flatMap_cons]
    exact (h item List.mem_cons_self).append (ih fun other hother => h other (by simp [hother]))

/-- The uncut line of texts is a text. -/
theorem utf8_uncutSummary {details : List Bytes} (h : ∀ detail ∈ details, Utf8 detail) :
    Utf8 (uncutSummary details) := by
  have hdetails : Utf8 ((details.take maximumErrorDetails).flatMap
      fun detail => text "; " ++ detail) :=
    utf8_flatMap fun detail hdetail => (utf8_text _).append (h detail (List.mem_of_mem_take hdetail))
  refine (((utf8_decimal _).append (utf8_text _)).append hdetails).append ?_
  split
  · exact ((utf8_text _).append (utf8_decimal _)).append (utf8_text _)
  · exact utf8_nil

/-- The summary keeps its bytes. -/
theorem length_summary_le (summary : ErrorSummary) :
    summary.text.length ≤ maximumErrorSummaryBytes := by
  unfold ErrorSummary.text
  split
  · exact Nat.zero_le _
  · split
    · have hdots : (text "...").length = 3 := by decide +kernel
      rw [List.length_append, hdots, List.length_take]
      have hthree : 3 ≤ maximumErrorSummaryBytes := by decide
      omega
    · omega

/-- The summary of texts is a text exactly when the cut, if there is one, does not fall
inside a character. -/
theorem utf8_summary_iff {details : List Bytes} (h : ∀ detail ∈ details, Utf8 detail) :
    Utf8 (summaryOf details).text ↔
      (uncutSummary details).length ≤ maximumErrorSummaryBytes ∨
        ∀ b ∈ (uncutSummary details)[maximumErrorSummaryBytes - 3]?, ¬Continues b := by
  have huncut := utf8_uncutSummary h
  unfold ErrorSummary.text
  rw [output_summaryOf]
  split
  · rename_i hnone
    rw [summaryOf_eq] at hnone
    obtain rfl := List.length_eq_zero_iff.mp hnone
    have hshort : (uncutSummary []).length ≤ maximumErrorSummaryBytes := by decide +kernel
    exact iff_of_true utf8_nil (Or.inl hshort)
  · split
    · rename_i hlong
      have hdots : ∀ b ∈ (text "...").head?, ¬Continues b := by decide +kernel
      rw [← utf8_take_iff huncut, or_iff_right (Nat.not_le_of_lt hlong)]
      exact ⟨fun hcut => (hcut.cut hdots).1, fun htake => htake.append (utf8_text _)⟩
    · rename_i hshort
      exact iff_of_true huncut (Or.inl (Nat.le_of_not_lt hshort))

/-! ## The report that carries it -/

/-- A report prints when its strings are texts. -/
theorem utf8_reportJson (request : TaskRunReportRequest) (status summary : Bytes) :
    (reportJson { request with errorSummary := summary } status).utf8 =
      (decide (Utf8 summary) && (reportJson { request with errorSummary := [] } status).utf8) := by
  unfold reportJson
  rw [Json.utf8_record, Json.utf8_record]
  cases request.hasFailedFiles <;> simp [Bool.and_left_comm]

theorem encodeTaskRunReportRequest_eq_ok {J : Nlohmann} {request : TaskRunReportRequest} :
    (∃ stored, encodeTaskRunReportRequest J request = .ok stored) ↔
      ∃ status, encodeTerminalStatus request.status = .ok status ∧
        (reportJson request status).utf8 = true := by
  simp only [encodeTaskRunReportRequest, encodeTaskRunReportRequestJson, bind_eq_ok, pure_eq_ok,
    J.dumped_eq_ok]
  constructor
  · rintro ⟨stored, document, ⟨status, hstatus, rfl⟩, hprinted⟩
    refine ⟨status, hstatus, ?_⟩
    rw [← J.dump_isSome, hprinted]
    rfl
  · rintro ⟨status, hstatus, hutf8⟩
    rw [← J.dump_isSome] at hutf8
    obtain ⟨stored, hprinted⟩ := Option.isSome_iff_exists.mp hutf8
    exact ⟨stored, _, ⟨status, hstatus, rfl⟩, hprinted⟩

/-- A summary never makes the encoding of a report raise. -/
def NeverRaises (summary : Bytes) : Prop :=
  ∀ (J : Nlohmann) (request : TaskRunReportRequest),
    (∃ stored, encodeTaskRunReportRequest J { request with errorSummary := [] } = .ok stored) →
    ∃ stored, encodeTaskRunReportRequest J { request with errorSummary := summary } = .ok stored

theorem neverRaises_of_utf8 {summary : Bytes} (h : Utf8 summary) : NeverRaises summary := by
  intro J request hprints
  obtain ⟨status, hstatus, hutf8⟩ := encodeTaskRunReportRequest_eq_ok.mp hprints
  apply encodeTaskRunReportRequest_eq_ok.mpr
  refine ⟨status, hstatus, ?_⟩
  rw [utf8_reportJson, hutf8, decide_eq_true h]
  rfl

/-- The summary of any errors fits its bytes, is a text and lets its report be encoded exactly
when the cut, if there is one, does not fall inside a character. -/
theorem summary_encodable_iff {details : List Bytes} (h : ∀ detail ∈ details, Utf8 detail) :
    ((summaryOf details).text.length ≤ 512 ∧ Utf8 (summaryOf details).text ∧
        NeverRaises (summaryOf details).text) ↔
      (uncutSummary details).length ≤ 512 ∨
        ∀ b ∈ (uncutSummary details)[509]?, ¬Continues b := by
  have hiff := utf8_summary_iff h
  constructor
  · exact fun hgood => hiff.mp hgood.2.1
  · intro hcut
    have hutf8 := hiff.mpr hcut
    exact ⟨length_summary_le _, hutf8, neverRaises_of_utf8 hutf8⟩

/-- Three hundred characters of two bytes. -/
def accentedDetail : Bytes := (List.replicate 300 (text "é")).flatten

theorem utf8_accentedDetail : Utf8 accentedDetail := by
  rw [accentedDetail, ← List.flatMap_id]
  exact utf8_flatMap fun piece hpiece => by
    rw [List.eq_of_mem_replicate hpiece]
    exact utf8_text _

/-- One byte more moves the cut of that summary between two characters. -/
theorem summary_encodable_iff_short :
    512 < (uncutSummary [text "x" ++ accentedDetail]).length ∧
      (summaryOf [text "x" ++ accentedDetail]).text.length ≤ 512 ∧
      Utf8 (summaryOf [text "x" ++ accentedDetail]).text ∧
      NeverRaises (summaryOf [text "x" ++ accentedDetail]).text := by
  refine ⟨by decide +kernel, (summary_encodable_iff ?_).mpr (.inr (by decide +kernel))⟩
  intro detail hdetail
  rw [List.mem_singleton.mp hdetail]
  exact (utf8_text _).append utf8_accentedDetail

/-- A summary of texts that is cut inside a character is no text. -/
theorem not_summary_encodable : ¬∀ details : List Bytes, (∀ detail ∈ details, Utf8 detail) →
    (summaryOf details).text.length ≤ 512 ∧ Utf8 (summaryOf details).text ∧
      NeverRaises (summaryOf details).text := by
  intro claimed
  have hdetail : ∀ detail ∈ [accentedDetail], Utf8 detail := by
    intro detail hdetail
    rw [List.mem_singleton.mp hdetail]
    exact utf8_accentedDetail
  have hcut : ¬((uncutSummary [accentedDetail]).length ≤ 512 ∨
      ∀ b ∈ (uncutSummary [accentedDetail])[509]?, ¬Continues b) := by decide +kernel
  exact hcut ((utf8_summary_iff hdetail).mp (claimed _ hdetail).2.1)

end LabBridge.Agent
