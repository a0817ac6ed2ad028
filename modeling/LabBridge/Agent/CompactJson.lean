import LabBridge.Agent.Errors
import LabBridge.Library.JsonPrint

/-!
# The compact printer as the library of the agent

A canonical document is printed without a zero byte, so the compact printer serves the agent
wherever a concrete library is wanted.
-/

namespace LabBridge.Agent

open ByteText JsonText

/-- The printed form of a document, or of nothing when it would hold a zero byte. -/
def printedText (document : Json) : Bytes :=
  if print document = [] ∨ (0 : UInt8) ∈ print document then text "null" else print document

theorem printedText_eq {document : Json} (h : document.Canonical) :
    printedText document = print document := by
  obtain ⟨b, tail, hprint, -⟩ := print_head h
  have hne : print document ≠ [] := by
    rw [hprint]
    exact List.cons_ne_nil b tail
  exact if_neg (not_or.mpr ⟨hne, zero_notMem_print h⟩)

/-- The compact printer with the texts of its exceptions. -/
def compactNlohmann : Nlohmann where
  dump document := if document.utf8 then some (printedText document) else none
  parse := compactJson.parse
  dump_isSome document := by cases h : document.utf8 <;> simp
  parse_dump := by
    intro document printed canonical h
    apply compactJson.parse_dump canonical
    rw [← h, printedText_eq canonical]
    rfl
  dumpFailure _ := text "invalid UTF-8 byte"
  parseFailure _ := text "syntax error while parsing value"
  utf8_dumpFailure _ := by decide +kernel
  dumpFailure_ne_nil _ := by decide +kernel
  dump_ne_nil := by
    intro document printed h
    split at h
    · cases h
      unfold printedText
      split
      · decide +kernel
      · rename_i hgood
        exact fun hempty => hgood (Or.inl hempty)
    · cases h
  zero_notMem_dump := by
    intro document printed h
    split at h
    · cases h
      unfold printedText
      split
      · decide +kernel
      · rename_i hgood
        exact fun hzero => hgood (Or.inr hzero)
    · cases h

end LabBridge.Agent
