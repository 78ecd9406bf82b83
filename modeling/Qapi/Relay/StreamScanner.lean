import Mathlib.Tactic.MkIffOfInductiveProp
import Qapi.Core.Text

/-!
# The end marker of an upstream stream

The loop of the scanner goroutine of `StreamScannerHandler`. It lets two forms of lines
through and takes five bytes from either before it looks for the end marker, so a line that
starts with `[DONE]` is not one: what is left of it is forwarded as a payload.
-/

namespace Qapi.Relay

open Qapi.Core List

/-- `StreamEndReason`, as far as the scanner records it. -/
inductive StreamEndReason
  | done
  | scannerErr
  | eof
deriving DecidableEq, Repr

/-- The text of a line after its first five bytes. -/
def payload (line : String) : String := trimSpace (String.ofList (line.toList.drop 5))

/-- The payloads that are sent to `dataChan` and the end reason; `failed` means that
`scanner.Err` returns an error after the last line. -/
def scan (failed : Bool) : List String → List String × StreamEndReason
  | [] => ([], if failed then .scannerErr else .eof)
  | line :: rest =>
    if line.utf8ByteSize < 6 then scan failed rest
    else if !startsWith line "data:" && !startsWith line "[DONE]" then scan failed rest
    else if payload line = "" then scan failed rest
    else if !startsWith (payload line) "[DONE]" then
      (payload line :: (scan failed rest).1, (scan failed rest).2)
    else ([], .done)

/-! ## What the loop is for -/

def isDoneLine (line : String) : Bool := startsWith line "[DONE]"

def isDoneData (line : String) : Bool :=
  startsWith line "data:" && startsWith (payload line) "[DONE]"

def isEndMarker (line : String) : Bool := isDoneLine line || isDoneData line

def dataOf (line : String) : Option String :=
  if startsWith line "data:" && payload line ≠ "" then some (payload line) else none

/-- What is forwarded is the data before the first end marker, and the end reason tells whether
there is one. -/
@[mk_iff]
structure RecognizesEnd (failed : Bool) (lines : List String) : Prop where
  payloads : (scan failed lines).1 = (lines.takeWhile fun l => !isEndMarker l).filterMap dataOf
  reason : (scan failed lines).2 = .done ↔ ∃ l ∈ lines, isEndMarker l = true

/-- No line starts with `[DONE]` before the first `data:` line that is an end marker. -/
def PrefixedFirst (lines : List String) : Prop :=
  ∀ l ∈ lines.takeWhile fun l => !isDoneData l, isDoneLine l = false

/-! ## One line -/

section

variable {line : String}

theorem append_of_startsWith {s t : String} (h : startsWith s t = true) : ∃ u, s = t ++ u := by
  rw [startsWith, isPrefixOf_iff_prefix] at h
  obtain ⟨l, hl⟩ := h
  refine ⟨String.ofList l, ?_⟩
  apply String.toList_injective
  rw [String.toList_append, String.toList_ofList, hl]

theorem payload_done (u : String) : payload ("[DONE]" ++ u) = trimSpace ("]" ++ u) := by
  simp [payload]

/-- A `data:` line that is too short has no text. -/
theorem six_le_of_data (hData : startsWith line "data:" = true) (hText : payload line ≠ "") :
    6 ≤ line.utf8ByteSize := by
  obtain ⟨u, rfl⟩ := append_of_startsWith hData
  have hne : u.utf8ByteSize ≠ 0 := by
    intro hZero
    rw [String.utf8ByteSize_eq_zero_iff] at hZero
    subst hZero
    exact hText rfl
  rw [String.utf8ByteSize_append, show "data:".utf8ByteSize = 5 from rfl]
  omega

/-- What is left of a line that starts with `[DONE]` is a text, and no end marker. -/
theorem payload_of_done (hDone : isDoneLine line = true) :
    payload line ≠ "" ∧ startsWith (payload line) "[DONE]" = false := by
  obtain ⟨u, rfl⟩ := append_of_startsWith hDone
  rw [payload_done]
  constructor
  · intro hBlank
    have hSpace := trimSpace_eq_empty.mp hBlank ']' (by simp)
    exact absurd hSpace (by decide)
  · rw [Bool.eq_false_iff]
    intro hStarts
    rw [startsWith, isPrefixOf_iff_prefix] at hStarts
    have hRest : (trimSpace ("]" ++ u)).toList <+: ']' :: u.toList := by
      unfold trimSpace trimList
      rw [String.toList_append, String.toList_ofList]
      exact rdropWhile_prefix isSpace _
    obtain ⟨more, hMore⟩ := hStarts.trans hRest
    cases hMore

variable (failed : Bool) (rest : List String)

theorem scan_doneData (h : isDoneData line = true) : scan failed (line :: rest) = ([], .done) := by
  obtain ⟨hData, hDone⟩ := Bool.and_eq_true_iff.mp h
  have hText : payload line ≠ "" := by
    intro hBlank
    rw [hBlank] at hDone
    cases hDone
  have hSize := six_le_of_data hData hText
  simp [scan, not_lt.mpr hSize, hData, hText, hDone]

theorem scan_doneLine (h : isDoneLine line = true) : scan failed (line :: rest) =
    (payload line :: (scan failed rest).1, (scan failed rest).2) := by
  obtain ⟨hText, hMarker⟩ := payload_of_done h
  have hSize : 6 ≤ line.utf8ByteSize := by
    obtain ⟨u, rfl⟩ := append_of_startsWith h
    rw [String.utf8ByteSize_append, show "[DONE]".utf8ByteSize = 6 from rfl]
    omega
  have hDone : startsWith line "[DONE]" = true := h
  simp [scan, not_lt.mpr hSize, hDone, hText, hMarker]

theorem scan_other (h : isEndMarker line = false) : scan failed (line :: rest) =
    ((dataOf line).toList ++ (scan failed rest).1, (scan failed rest).2) := by
  obtain ⟨hLine, hData⟩ := Bool.or_eq_false_iff.mp h
  have hDone : startsWith line "[DONE]" = false := hLine
  by_cases hText : startsWith line "data:" = true ∧ payload line ≠ ""
  · obtain ⟨hStarts, hne⟩ := hText
    have hMarker : startsWith (payload line) "[DONE]" = false := by
      simpa [isDoneData, hStarts] using hData
    have hSize := six_le_of_data hStarts hne
    simp [scan, not_lt.mpr hSize, hStarts, hne, hMarker, dataOf]
  · have hNone : dataOf line = none := by
      unfold dataOf
      rw [if_neg]
      simpa using hText
    by_cases hStarts : startsWith line "data:" = true
    · have hBlank : payload line = "" := by
        by_contra hne
        exact hText ⟨hStarts, hne⟩
      simp [scan, hNone, hBlank]
    · simp [scan, hNone, hStarts, hDone]

end

/-! ## All lines -/

/-- The end of a stream is recognized exactly if no line starts with `[DONE]` before the first
`data:` line that is an end marker. -/
theorem recognizesEnd_iff_prefixedFirst (failed : Bool) (lines : List String) :
    RecognizesEnd failed lines ↔ PrefixedFirst lines := by
  induction lines with
  | nil =>
    refine iff_of_true ⟨rfl, ?_⟩ nofun
    cases failed <;> simp [scan]
  | cons line rest ih =>
    by_cases hData : isDoneData line = true
    · have hEnd : isEndMarker line = true := by simp [isEndMarker, hData]
      have hScan := scan_doneData failed rest hData
      rw [recognizesEnd_iff]
      simp [hScan, hEnd, PrefixedFirst, hData]
    · by_cases hLine : isDoneLine line = true
      · have hEnd : isEndMarker line = true := by simp [isEndMarker, hLine]
        refine iff_of_false ?_ ?_
        · intro h
          have hPayloads := h.payloads
          simp [scan_doneLine failed rest hLine, hEnd] at hPayloads
        · intro h
          have hFalse := h line (by simp [hData])
          rw [hLine] at hFalse
          cases hFalse
      · rw [Bool.not_eq_true] at hData hLine
        have hEnd : isEndMarker line = false := by simp [isEndMarker, hData, hLine]
        have hScan := scan_other failed rest hEnd
        -- the line adds its data to both sides
        have hSame : RecognizesEnd failed (line :: rest) ↔ RecognizesEnd failed rest := by
          rw [recognizesEnd_iff, recognizesEnd_iff, hScan]
          cases hOf : dataOf line <;> simp [hEnd, hOf]
        rw [hSame, ih]
        simp [PrefixedFirst, hData, hLine]

/-- A stream that ends with a bare marker: the rest of the marker is forwarded, and the lines after
it as well. -/
theorem bare_marker_is_forwarded :
    scan false ["data: a", "[DONE]", "data: b"] = (["a", "]", "b"], .eof) ∧
      ¬ RecognizesEnd false ["data: a", "[DONE]", "data: b"] := by
  refine ⟨by decide, fun h => ?_⟩
  have hPayloads := h.payloads
  revert hPayloads
  decide

end Qapi.Relay
