import DownloadReport.Proofs.Readers
import DownloadReport.Summary
import Mathlib.Algebra.GroupWithZero.Nat
import Mathlib.Algebra.Order.BigOperators.Group.List
import Mathlib.Algebra.Order.Group.Nat

/-! How many lines a summary has. What is made here of a download stays on one line: the counters, the
    percentage, the error code. The texts that the server chose are shown as they are, with the line
    breaks that are in them. So the lines of a summary are those of its downloads one after another,
    and there is one for each of them just when no text that is shown holds a line break
    (`lines_summary`). -/

namespace DownloadReport

/-! ### Lines of texts -/

namespace Text

/-- The lines of a text, which its line breaks separate. -/
def lines (s : String) : List String := (s.toList.splitOn '\n').map String.ofList

/-- How many line breaks a text holds. -/
def breaks (s : String) : Nat := s.toList.count '\n'

theorem breaks_ofList (cs : List Char) : breaks (String.ofList cs) = cs.count '\n' := by
  rw [breaks, String.toList_ofList]

theorem breaks_append (s t : String) : breaks (s ++ t) = breaks s + breaks t := by
  simp [breaks]

theorem breaks_join (ss : List String) : breaks (String.join ss) = (ss.map breaks).sum := by
  rw [breaks, String.toList_join, List.count_flatMap]
  rfl

theorem breaks_eq_zero_iff {s : String} : breaks s = 0 ↔ '\n' ∉ s.toList := List.count_eq_zero

/-- There is one line more than there are line breaks. -/
theorem length_lines (s : String) : (lines s).length = breaks s + 1 := by
  have hsplit : ∀ cs : List Char, (cs.splitOn '\n').length = cs.count '\n' + 1 := by
    intro cs
    induction cs with
    | nil => rfl
    | cons c cs ih =>
      rw [List.splitOn] at ih ⊢
      rw [List.splitOnP_cons_eq_if_modifyHead, List.count_cons]
      split
      · rw [List.length_cons, ih]
      · rw [List.length_modifyHead, ih, Nat.add_zero]
  rw [lines, List.length_map, hsplit, breaks]

/-- A text without line breaks is its only line. -/
theorem lines_of_breaks_eq_zero {s : String} (h : breaks s = 0) : lines s = [s] := by
  rw [lines, List.splitOn_eq_singleton (breaks_eq_zero_iff.1 h), List.map_singleton,
    String.ofList_toList]

/-- Texts with line breaks between them have their lines one after another. -/
theorem lines_intercalate (s : String) (ss : List String) :
    lines ("\n".intercalate (s :: ss)) = (s :: ss).flatMap lines := by
  induction ss generalizing s with
  | nil => simp
  | cons t ss ih =>
    have hnext : ("\n".intercalate (s :: t :: ss)).toList =
        s.toList ++ '\n' :: ("\n".intercalate (t :: ss)).toList := by
      simp
    rw [lines, hnext, List.splitOn, List.splitOnP_append_cons _ _ (by decide), List.map_append,
      List.flatMap_cons, ← ih]
    rfl

theorem breaks_fillTo (align : Alignment) (width : Nat) (s : String) :
    breaks (fillTo align ' ' width s) = breaks s := by
  simp [breaks, fillTo, List.count_replicate]

end Text

open Text (lines breaks breaks_ofList breaks_append breaks_join breaks_eq_zero_iff breaks_fillTo)

/-! ### What is made here -/

/-- A quotient is written with digits and a point. -/
theorem mem_fixed {places num den : Nat} {c : Char} (h : c ∈ Decimal.fixed places num den) :
    c.isDigit = true ∨ c = '.' := by
  have hpadded : ∀ c ∈ List.replicate (places + 1 - (Nat.toDigits 10
      (Decimal.nearest (num * Nat.pow 10 places) den)).length) '0' ++
        Nat.toDigits 10 (Decimal.nearest (num * Nat.pow 10 places) den), c.isDigit = true := by
    intro c hc
    rcases List.mem_append.1 hc with hc | hc
    · rw [List.eq_of_mem_replicate hc]
      rfl
    · exact Nat.isDigit_of_mem_toDigits (by decide) (by decide) hc
  simp only [Decimal.fixed, Decimal.withPoint] at h
  split at h
  · exact .inl (hpadded c h)
  · rcases List.mem_append.1 h with h | h
    · rcases List.mem_append.1 h with h | h
      · exact .inl (hpadded c (List.mem_of_mem_take h))
      · exact .inr (List.mem_singleton.1 h)
    · exact .inl (hpadded c (List.mem_of_mem_drop h))

theorem breaks_fixed (places num den : Nat) :
    breaks (String.ofList (Decimal.fixed places num den)) = 0 := by
  rw [breaks_eq_zero_iff, String.toList_ofList]
  intro h
  rcases mem_fixed h with h | h <;> simp at h

theorem breaks_sizeText (n : UInt64) : breaks (sizeText n) = 0 := by
  have hunit : ∀ u ∈ sizeUnits, breaks u = 0 := by decide
  have hshown : ∀ i : Nat, breaks ((sizeUnits[i]?).getD "") = 0 := by
    intro i
    cases hi : sizeUnits[i]? with
    | none => rfl
    | some u => exact hunit u (List.mem_of_getElem? hi)
  simp only [sizeText, breaks_append, breaks_fixed, hshown]
  rfl

theorem breaks_percentText (p : Option Float) : breaks (percentText p) = 0 := by
  cases p with
  | none => rfl
  | some p =>
    simp only [percentText]
    cases Decimal.Binary64.ofFloat (p * 100) with
    | notANumber => rfl
    | infinite negative => cases negative <;> rfl
    | finite negative mantissa exponent =>
      simp only [breaks_append, breaks_fixed]
      cases negative <;> rfl

theorem breaks_exitCode (code : ExitCode) : breaks code.text = 0 := by
  have hnumber : breaks code.number.toNat.repr = 0 := by
    rw [breaks_eq_zero_iff, Nat.toList_repr]
    intro h
    simpa using Nat.isDigit_of_mem_toDigits (by decide) (by decide) h
  have hdescription : breaks code.description = 0 := by
    cases code <;> exact (breaks_ofList _).trans (by decide)
  rw [ExitCode.text, breaks_append, breaks_append, breaks_append, hnumber, hdescription]
  rfl

/-! ### Summaries -/

/-- The texts of a download that its line shows and that the server chose. -/
def Download.shownTexts (d : Download) : List String :=
  [d.gid, d.state.text, Text.abbreviate nameWidth (d.name.getD "-"), d.errorMessage]

/-- How many line breaks the texts of a download hold that its line shows. -/
def Download.shownBreaks (d : Download) : Nat := (d.shownTexts.map breaks).sum

/-- The error of a download has the line breaks of its message. -/
theorem breaks_errorNote (d : Download) : breaks (errorNote d) = breaks d.errorMessage := by
  unfold errorNote
  split
  next =>
    have hmessage : breaks (if d.errorMessage = "" then "" else ": " ++ d.errorMessage) =
        breaks d.errorMessage := by
      split
      next hempty => rw [hempty]
      next => rw [breaks_append]; exact Nat.zero_add _
    rw [breaks_append, breaks_append, breaks_append, breaks_exitCode, hmessage]
    exact Nat.zero_add _
  next hnone =>
    have hempty : d.errorMessage = "" := by
      simp only [Download.hasError, Bool.or_eq_true, not_or, decide_eq_true_eq, not_not] at hnone
      exact hnone.2
    rw [hempty]

/-- The line of a download has the line breaks of the texts that it shows. -/
theorem breaks_summaryLine (d : Download) : breaks (summaryLine d) = d.shownBreaks := by
  have htotal : breaks (if d.totalLength = 0 then "?" else sizeText d.totalLength) = 0 := by
    split
    · rfl
    · exact breaks_sizeText _
  have hmade : breaks "  " = 0 ∧ breaks " / " = 0 ∧ breaks "  down " = 0 ∧ breaks "/s  up " = 0 ∧
      breaks "/s  " = 0 := by decide
  obtain ⟨hspace, hslash, hdown, hup, hend⟩ := hmade
  simp only [summaryLine, Download.shownBreaks, Download.shownTexts, breaks_join, List.map_cons,
    List.map_nil, List.sum_cons, List.sum_nil, breaks_fillTo, breaks_sizeText, breaks_percentText,
    breaks_errorNote, htotal, hspace, hslash, hdown, hup, hend, Nat.zero_add, Nat.add_zero]

theorem shownBreaks_eq_zero_iff {d : Download} :
    d.shownBreaks = 0 ↔ ∀ s ∈ d.shownTexts, '\n' ∉ s.toList := by
  simp only [Download.shownBreaks, List.sum_eq_zero_iff, List.forall_mem_map, breaks_eq_zero_iff]

variable (d : Download) (ds : List Download)

/-- The lines of the downloads follow each other. -/
theorem lines_summary_eq_flatMap :
    lines (summary (d :: ds)) = (d :: ds).flatMap fun e => lines (summaryLine e) := by
  show lines ("\n".intercalate (summaryLine d :: ds.map summaryLine)) = _
  rw [Text.lines_intercalate, ← List.map_cons, List.flatMap_map]

theorem length_lines_summary :
    (lines (summary (d :: ds))).length =
      (d :: ds).length + ((d :: ds).map Download.shownBreaks).sum := by
  have hline : ∀ e, (lines (summaryLine e)).length = e.shownBreaks + 1 := fun e => by
    rw [Text.length_lines, breaks_summaryLine]
  have hsum : ∀ es : List Download, (es.map fun e => e.shownBreaks + 1).sum =
      es.length + (es.map Download.shownBreaks).sum := by
    intro es
    induction es with
    | nil => rfl
    | cons e es ih =>
      simp only [List.map_cons, List.sum_cons, List.length_cons, ih]
      omega
  rw [lines_summary_eq_flatMap, List.length_flatMap]
  simp only [hline, hsum]

/-- The lines of a summary are those of its downloads in their order. There is one for each download,
    and one more for each line break in a text that is shown; so there is one line for each download
    just when no text that is shown holds a line break. -/
theorem lines_summary :
    lines (summary (d :: ds)) = (d :: ds).flatMap (fun e => lines (summaryLine e)) ∧
      (lines (summary (d :: ds))).length =
        (d :: ds).length + ((d :: ds).map Download.shownBreaks).sum ∧
      (lines (summary (d :: ds)) = (d :: ds).map summaryLine ↔
        ∀ e ∈ d :: ds, ∀ s ∈ e.shownTexts, '\n' ∉ s.toList) := by
  refine ⟨lines_summary_eq_flatMap d ds, length_lines_summary d ds, fun h e he => ?_, fun h => ?_⟩
  · -- As many lines as downloads leave no room for further line breaks.
    have hlength := length_lines_summary d ds
    rw [h, List.length_map] at hlength
    have hsum : ((d :: ds).map Download.shownBreaks).sum = 0 := by omega
    rw [List.sum_eq_zero_iff, List.forall_mem_map] at hsum
    exact shownBreaks_eq_zero_iff.1 (hsum e he)
  · have hline : ∀ e ∈ d :: ds, lines (summaryLine e) = [summaryLine e] := fun e he => by
      refine Text.lines_of_breaks_eq_zero ?_
      rw [breaks_summaryLine]
      exact shownBreaks_eq_zero_iff.2 (h e he)
    rw [lines_summary_eq_flatMap, List.flatMap_congr hline, List.map_eq_flatMap]

/-- A file whose name holds a line break takes two lines. -/
theorem lines_summary_broken_name :
    (decodeAll "\x7b\"gid\": \"g\", \"files\": [\x7b\"path\": \"a\\nb\"\x7d]\x7d").outcome =
        .ok [{ gid := "g", files := [{ path := "a\nb" }] }] ∧
      (lines (summary [{ gid := "g", files := [{ path := "a\nb" }] }])).length = 2 ∧
      lines (summary [{ gid := "g", files := [{ path := "a\nb" }] }]) ≠
        [summaryLine { gid := "g", files := [{ path := "a\nb" }] }] := by
  have htwo : (lines (summary [{ gid := "g", files := [{ path := "a\nb" }] }])).length = 2 :=
    (length_lines_summary _ []).trans (by cbv)
  refine ⟨?_, htwo, fun h => ?_⟩
  · rw [decodeAll_eq_bind, report_eq (by cbv)]
    rfl
  rw [h, List.length_singleton] at htwo
  omega

end DownloadReport
