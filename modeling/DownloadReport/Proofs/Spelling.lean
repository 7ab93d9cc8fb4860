import DownloadReport.Decimal.Numeral
import DownloadReport.Json.Outline
import Mathlib.Data.List.TakeDrop
import Mathlib.Data.List.TakeWhile

/-! How strings and numbers are spelled. For both there is a relation between characters and what they
    spell, and the scanner is exact for it: it finds what is spelled whatever follows (`scan`), and
    what it finds without a fault is spelled by the characters it took (`of_scan`). A number goes on
    as long as it can, so what follows one must not go on with it. -/

namespace DownloadReport.Json

open Decimal (IsNumeral)

/-! ### Strings -/

/-- How the pieces of a string are spelled, up to its closing mark. -/
inductive SpellsString : List Char → List StringPiece → Prop where
  | close : SpellsString ['"'] []
  | plain {c : Char} {cs : List Char} {ps : List StringPiece} (hquote : c ≠ '"') (hslash : c ≠ '\\')
      (hcontrol : ¬c < ' ') (rest : SpellsString cs ps) : SpellsString (c :: cs) (.char c :: ps)
  | escape {c e : Char} {cs : List Char} {ps : List StringPiece} (he : escaped? c = some e)
      (rest : SpellsString cs ps) : SpellsString ('\\' :: c :: cs) (.char e :: ps)
  | unit {a b c d : Char} {u : Nat} {cs : List Char} {ps : List StringPiece}
      (hu : codeUnit? a b c d = some u) (rest : SpellsString cs ps) :
      SpellsString ('\\' :: 'u' :: a :: b :: c :: d :: cs) (.unit u :: ps)

theorem scanString_plain {c : Char} (hquote : c ≠ '"') (hslash : c ≠ '\\') (hcontrol : ¬c < ' ')
    (r : List Char) : scanString (c :: r) = pushPiece (.char c) (scanString r) := by
  rw [scanString, if_neg hcontrol] <;> simp [hquote, hslash]

theorem scanString_escape {c e : Char} (he : escaped? c = some e) (r : List Char) :
    scanString ('\\' :: c :: r) = pushPiece (.char e) (scanString r) := by
  have hu : c ≠ 'u' := by rintro rfl; simp [escaped?] at he
  rw [scanString, he] <;> simp [hu]

theorem scanString_unit {a b c d : Char} {u : Nat} (hu : codeUnit? a b c d = some u)
    (r : List Char) :
    scanString ('\\' :: 'u' :: a :: b :: c :: d :: r) = pushPiece (.unit u) (scanString r) := by
  rw [scanString, hu]

/-- A spelled string is found, whatever follows. -/
theorem SpellsString.scan {cs : List Char} {ps : List StringPiece} (h : SpellsString cs ps)
    (more : List Char) : scanString (cs ++ more) = (⟨ps, .closed⟩, more) := by
  induction h with
  | close => rfl
  | plain hquote hslash hcontrol _ ih =>
    rw [List.cons_append, scanString_plain hquote hslash hcontrol, ih]; rfl
  | escape he _ ih =>
    rw [List.cons_append, List.cons_append, scanString_escape he, ih]; rfl
  | unit hu _ ih =>
    simp only [List.cons_append]
    rw [scanString_unit hu, ih]; rfl

/-- A string that is found with its closing mark is spelled by what was taken. -/
theorem SpellsString.of_scan {text rest : List Char} {s : StringText}
    (h : scanString text = (s, rest)) (hs : s.stop = .closed) :
    ∃ cs, text = cs ++ rest ∧ SpellsString cs s.pieces := by
  fun_induction scanString text generalizing s rest with
  | case2 r => cases h; exact ⟨['"'], rfl, .close⟩
  | case4 a b c d r u hu ih =>
    cases h
    obtain ⟨cs, hr, hcs⟩ := ih rfl hs
    exact ⟨'\\' :: 'u' :: a :: b :: c :: d :: cs, by simpa [pushPiece] using hr, .unit hu hcs⟩
  | case7 c r _ _ e he ih =>
    cases h
    obtain ⟨cs, hr, hcs⟩ := ih rfl hs
    exact ⟨'\\' :: c :: cs, by simpa [pushPiece] using hr, .escape he hcs⟩
  | case10 c r hquote hend _ _ hslash hcontrol ih =>
    cases h
    obtain ⟨cs, hr, hcs⟩ := ih rfl hs
    have hc : c ≠ '\\' := by
      rintro rfl
      cases r with
      | nil => exact hend rfl rfl
      | cons x r => exact hslash x r rfl rfl
    exact ⟨c :: cs, by simpa [pushPiece] using hr, .plain hquote hc hcontrol hcs⟩
  | case6 => cases h; simp at hs; split at hs <;> simp at hs
  | case1 | case3 | case5 | case8 | case9 => cases h; simp at hs

/-! ### Numbers -/

/-- Whether a text does not go on with a number that stands before it. -/
def EndsNumber (more : List Char) : Prop :=
  ∀ c ∈ more.head?, c.isDigit = false ∧ c ≠ '.' ∧ c ≠ 'e' ∧ c ≠ 'E'

theorem endsNumber_cons {c : Char} (h : c = ',' ∨ c = ']' ∨ c = '\x7d' ∨ isBlank c = true)
    (r : List Char) : EndsNumber (c :: r) := by
  rintro d ⟨⟩
  simp only [isBlank, Bool.or_eq_true, decide_eq_true_eq] at h
  rcases h with rfl | rfl | rfl | ((rfl | rfl) | rfl) | rfl <;> decide

/-- Digits are followed up to where they end. -/
theorem span_digits {ds more : List Char} (hds : ∀ c ∈ ds, c.isDigit = true)
    (hm : ∀ c ∈ more.head?, c.isDigit = false) : (ds ++ more).span Char.isDigit = (ds, more) := by
  have hmore : more.takeWhile Char.isDigit = [] ∧ more.dropWhile Char.isDigit = more := by
    cases more with
    | nil => exact ⟨rfl, rfl⟩
    | cons c r => simp [hm c rfl]
  rw [List.span_eq_takeWhile_dropWhile, List.takeWhile_append_of_pos hds,
    List.dropWhile_append_of_pos hds, hmore.1, hmore.2, List.append_nil]

/-- What is followed as digits are digits, and all of it is there. -/
theorem digits_of_span {text ds rest : List Char} (h : text.span Char.isDigit = (ds, rest)) :
    text = ds ++ rest ∧ ∀ c ∈ ds, c.isDigit = true := by
  rw [List.span_eq_takeWhile_dropWhile] at h
  cases h
  exact ⟨List.takeWhile_append_dropWhile.symm, fun c hc => List.mem_takeWhile_imp hc⟩

/-- How the exponent of a number is spelled, if there is one. -/
inductive SpellsExponent : List Char → Option (Bool × List Char) → Prop where
  | absent : SpellsExponent [] none
  | plain {e : Char} {ds : List Char} (he : e = 'e' ∨ e = 'E') (hds : IsNumeral ds) :
      SpellsExponent (e :: ds) (some (false, ds))
  | plus {e : Char} {ds : List Char} (he : e = 'e' ∨ e = 'E') (hds : IsNumeral ds) :
      SpellsExponent (e :: '+' :: ds) (some (false, ds))
  | minus {e : Char} {ds : List Char} (he : e = 'e' ∨ e = 'E') (hds : IsNumeral ds) :
      SpellsExponent (e :: '-' :: ds) (some (true, ds))

/-- How the digits behind the point are spelled, if there are any. -/
inductive SpellsFraction : List Char → List Char → Prop where
  | absent : SpellsFraction [] []
  | point {ds : List Char} (hds : IsNumeral ds) : SpellsFraction ('.' :: ds) ds

/-- The whole part of a number: a zero by itself, or digits that begin with another one. -/
def IsWhole (ds : List Char) : Prop := IsNumeral ds ∧ (ds.head? = some '0' → ds = ['0'])

/-- How a number is spelled. -/
inductive SpellsNumber : List Char → NumberText → Prop where
  | unsigned {whole fs fraction es : List Char} {exponent : Option (Bool × List Char)}
      (hw : IsWhole whole) (hf : SpellsFraction fs fraction) (he : SpellsExponent es exponent) :
      SpellsNumber (whole ++ (fs ++ es)) ⟨false, whole, fraction, exponent, none⟩
  | negative {whole fs fraction es : List Char} {exponent : Option (Bool × List Char)}
      (hw : IsWhole whole) (hf : SpellsFraction fs fraction) (he : SpellsExponent es exponent) :
      SpellsNumber ('-' :: (whole ++ (fs ++ es))) ⟨true, whole, fraction, exponent, none⟩

/-- Digits of a number are found, whatever it goes on with behind them. -/
theorem behindDigits_append (n : NumberText) {ds more : List Char} (hds : IsNumeral ds)
    (hm : ∀ c ∈ more.head?, c.isDigit = false)
    (go : List Char → List Char → NumberText × List Char) :
    n.behindDigits (ds ++ more) go = go ds more := by
  have hne : ds.isEmpty = false := by simpa using hds.1
  simp only [NumberText.behindDigits, span_digits hds.2 hm, hne, Bool.false_eq_true, if_false]

/-- A number that goes on behind digits without a fault has them. -/
theorem of_behindDigits {n m : NumberText} {text rest : List Char}
    {go : List Char → List Char → NumberText × List Char}
    (h : n.behindDigits text go = (m, rest)) (hm : m.fault = none) :
    ∃ ds more, text = ds ++ more ∧ IsNumeral ds ∧ go ds more = (m, rest) := by
  unfold NumberText.behindDigits at h
  cases hspan : text.span Char.isDigit with
  | mk ds more =>
    obtain ⟨htext, hdigits⟩ := digits_of_span hspan
    rw [hspan] at h
    dsimp only at h
    split at h
    next => cases h; simp at hm
    next hne => exact ⟨ds, more, htext, ⟨by simpa using hne, hdigits⟩, h⟩

/-- A digit is not a sign. -/
theorem ne_sign_of_digit {d : Char} (hd : d.isDigit = true) : d ≠ '+' ∧ d ≠ '-' := by
  constructor <;> rintro rfl <;> simp at hd

/-- A spelled exponent is found. -/
theorem SpellsExponent.scan {es : List Char} {x : Option (Bool × List Char)}
    (h : SpellsExponent es x) {more : List Char} (hm : EndsNumber more) {n : NumberText}
    (hn : n.exponent = none) : n.scanExponent (es ++ more) = ({ n with exponent := x }, more) := by
  have hdigit : ∀ c ∈ more.head?, c.isDigit = false := fun c hc => (hm c hc).1
  cases h with
  | absent =>
    cases more with
    | nil => simp [NumberText.scanExponent, ← hn]
    | cons c r => simp [NumberText.scanExponent, hm c rfl, ← hn]
  | @plain e ds he hds =>
    have hsign : exponentSign (ds ++ more) = (false, ds ++ more) := by
      obtain ⟨d, ds, rfl⟩ := List.exists_cons_of_ne_nil hds.1
      obtain ⟨hplus, hminus⟩ := ne_sign_of_digit (hds.2 d List.mem_cons_self)
      simp [exponentSign, hplus, hminus]
    simp only [List.cons_append, NumberText.scanExponent, he, if_true, hsign,
      behindDigits_append n hds hdigit]
  | plus he hds | minus he hds =>
    simp only [List.cons_append, NumberText.scanExponent, he, if_true, exponentSign,
      behindDigits_append n hds hdigit]

/-- A sign is spelled by itself or not at all. -/
theorem SpellsExponent.of_sign {e : Char} {r ds rest : List Char} (he : e = 'e' ∨ e = 'E')
    (hr : (exponentSign r).2 = ds ++ rest) (hds : IsNumeral ds) :
    ∃ es, e :: r = es ++ rest ∧ SpellsExponent es (some ((exponentSign r).1, ds)) := by
  unfold exponentSign at hr ⊢
  split at hr
  · exact ⟨e :: '+' :: ds, by simpa using hr, .plus he hds⟩
  · exact ⟨e :: '-' :: ds, by simpa using hr, .minus he hds⟩
  · exact ⟨e :: ds, by simpa using hr, .plain he hds⟩

/-- An exponent that is found without a fault is spelled by what was taken. -/
theorem SpellsExponent.of_scan {n m : NumberText} {text rest : List Char}
    (h : n.scanExponent text = (m, rest)) (hn : n.exponent = none) (hm : m.fault = none) :
    ∃ es x, text = es ++ rest ∧ SpellsExponent es x ∧ m = { n with exponent := x } := by
  have habsent : ∃ es x, text = es ++ text ∧ SpellsExponent es x ∧ n = { n with exponent := x } :=
    ⟨[], none, rfl, .absent, by rw [← hn]⟩
  cases text with
  | nil => cases h; exact habsent
  | cons e r =>
    by_cases he : e = 'e' ∨ e = 'E'
    · simp only [NumberText.scanExponent, he, if_true] at h
      obtain ⟨ds, more, hr, hds, hgo⟩ := of_behindDigits h hm
      cases hgo
      obtain ⟨es, hes, hspell⟩ := SpellsExponent.of_sign he hr hds
      exact ⟨es, _, hes, hspell, rfl⟩
    · simp only [NumberText.scanExponent, he, if_false] at h
      cases h
      exact habsent

/-- What ends a number also ends the digits before its exponent. -/
theorem SpellsExponent.head {es : List Char} {x : Option (Bool × List Char)}
    (h : SpellsExponent es x) {more : List Char} (hm : EndsNumber more) :
    ∀ c ∈ (es ++ more).head?, c.isDigit = false ∧ c ≠ '.' := by
  cases h with
  | absent => exact fun c hc => ⟨(hm c hc).1, (hm c hc).2.1⟩
  | plain he _ | plus he _ | minus he _ => rintro c ⟨⟩; rcases he with rfl | rfl <;> decide

/-- A spelled fraction is found with the exponent behind it. -/
theorem SpellsFraction.scan {fs ds es : List Char} {x : Option (Bool × List Char)}
    (hf : SpellsFraction fs ds) (he : SpellsExponent es x) {more : List Char}
    (hm : EndsNumber more) {n : NumberText} (hn : n.exponent = none) (hfraction : n.fraction = []) :
    n.scanFraction (fs ++ (es ++ more)) = ({ n with fraction := ds, exponent := x }, more) := by
  have hhead := he.head hm
  cases hf with
  | absent =>
    have hscan : n.scanFraction (es ++ more) = n.scanExponent (es ++ more) := by
      cases htext : es ++ more with
      | nil => rfl
      | cons c r => simp [NumberText.scanFraction, (hhead c (by simp [htext])).2]
    rw [List.nil_append, hscan, he.scan hm hn, ← hfraction]
  | point hds =>
    simp only [List.cons_append, NumberText.scanFraction]
    rw [behindDigits_append n hds (fun c hc => (hhead c hc).1), he.scan hm]
    exact hn

/-- A fraction and an exponent that are found without a fault are spelled by what was taken. -/
theorem SpellsFraction.of_scan {n m : NumberText} {text rest : List Char}
    (h : n.scanFraction text = (m, rest)) (hn : n.exponent = none) (hfraction : n.fraction = [])
    (hm : m.fault = none) :
    ∃ fs ds es x, text = fs ++ (es ++ rest) ∧ SpellsFraction fs ds ∧ SpellsExponent es x ∧
      m = { n with fraction := ds, exponent := x } := by
  unfold NumberText.scanFraction at h
  split at h
  next r =>
    obtain ⟨ds, more, rfl, hds, hgo⟩ := of_behindDigits h hm
    obtain ⟨es, x, rfl, he, rfl⟩ := SpellsExponent.of_scan hgo hn hm
    exact ⟨'.' :: ds, ds, es, x, by simp, .point hds, he, rfl⟩
  next =>
    obtain ⟨es, x, rfl, he, rfl⟩ := SpellsExponent.of_scan h hn hm
    exact ⟨[], [], es, x, rfl, .absent, he, by rw [← hfraction]⟩

/-- What follows the whole part of a number begins with no digit. -/
theorem SpellsFraction.head {fs ds es : List Char} {x : Option (Bool × List Char)}
    (hf : SpellsFraction fs ds) (he : SpellsExponent es x) {more : List Char} (hm : EndsNumber more) :
    ∀ c ∈ (fs ++ (es ++ more)).head?, c.isDigit = false := by
  cases hf with
  | absent => exact fun c hc => (he.head hm c hc).1
  | point hds => rintro c ⟨⟩; decide

/-- A spelled number is found behind its sign. -/
theorem IsWhole.scan {whole fs ds es : List Char} {x : Option (Bool × List Char)}
    (hw : IsWhole whole) (hf : SpellsFraction fs ds) (he : SpellsExponent es x) {more : List Char}
    (hm : EndsNumber more) (negative : Bool) :
    { negative : NumberText }.scanWhole (whole ++ (fs ++ (es ++ more))) =
      (⟨negative, whole, ds, x, none⟩, more) := by
  have hhead := hf.head he hm
  obtain ⟨d, r, rfl⟩ := List.exists_cons_of_ne_nil hw.1.1
  by_cases hzero : d = '0'
  · subst hzero
    obtain rfl : r = [] := by simpa using hw.2 rfl
    have hany : (fs ++ (es ++ more)).head?.any Char.isDigit = false := by
      cases htext : (fs ++ (es ++ more)).head? with
      | none => rfl
      | some c => simpa using hhead c htext
    simp only [List.cons_append, List.nil_append, NumberText.scanWhole, hany, Bool.false_eq_true,
      if_false]
    exact hf.scan he hm rfl rfl
  · have hscan : { negative : NumberText }.scanWhole (d :: r ++ (fs ++ (es ++ more))) =
        { negative : NumberText }.behindDigits (d :: r ++ (fs ++ (es ++ more))) fun digits rest =>
          { negative, whole := digits : NumberText }.scanFraction rest := by
      simp [NumberText.scanWhole, hzero]
    rw [hscan, behindDigits_append _ hw.1 hhead, hf.scan he hm rfl rfl]

/-- A number that is found behind its sign without a fault is spelled by what was taken. -/
theorem IsWhole.of_scan {m : NumberText} {text rest : List Char} {negative : Bool}
    (h : { negative : NumberText }.scanWhole text = (m, rest)) (hm : m.fault = none) :
    ∃ whole fs ds es x, text = whole ++ (fs ++ (es ++ rest)) ∧ IsWhole whole ∧
      SpellsFraction fs ds ∧ SpellsExponent es x ∧ m = ⟨negative, whole, ds, x, none⟩ := by
  unfold NumberText.scanWhole at h
  split at h
  next r =>
    split at h
    · cases h; simp at hm
    · obtain ⟨fs, ds, es, x, rfl, hf, he, rfl⟩ := SpellsFraction.of_scan h rfl rfl hm
      exact ⟨['0'], fs, ds, es, x, rfl, ⟨by decide, fun _ => rfl⟩, hf, he, rfl⟩
  next hzero =>
    obtain ⟨whole, more, rfl, hds, hgo⟩ := of_behindDigits h hm
    obtain ⟨fs, ds, es, x, rfl, hf, he, rfl⟩ := SpellsFraction.of_scan hgo rfl rfl hm
    refine ⟨whole, fs, ds, es, x, rfl, ⟨hds, fun hhead => ?_⟩, hf, he, rfl⟩
    obtain ⟨r, rfl⟩ := List.head?_eq_some_iff.1 hhead
    exact absurd rfl (hzero (r ++ (fs ++ (es ++ rest))))

/-- A number begins with a minus sign or a digit. -/
theorem SpellsNumber.begins {cs : List Char} {n : NumberText} (h : SpellsNumber cs n) :
    ∃ c r, cs = c :: r ∧ (c = '-' ∨ c.isDigit = true) := by
  cases h with
  | unsigned hw _ _ =>
    obtain ⟨d, r, rfl⟩ := List.exists_cons_of_ne_nil hw.1.1
    exact ⟨d, _, rfl, .inr (hw.1.2 d List.mem_cons_self)⟩
  | negative => exact ⟨'-', _, rfl, .inl rfl⟩

/-- A spelled number has no fault. -/
theorem SpellsNumber.fault_eq_none {cs : List Char} {n : NumberText} (h : SpellsNumber cs n) :
    n.fault = none := by cases h <;> rfl

/-- A spelled number is found, if what follows does not go on with it. -/
theorem SpellsNumber.scan {cs : List Char} {n : NumberText} (h : SpellsNumber cs n)
    {more : List Char} (hm : EndsNumber more) : scanNumber (cs ++ more) = (n, more) := by
  cases h with
  | unsigned hw hf he =>
    have hscan := hw.scan hf he hm false
    obtain ⟨d, r, rfl⟩ := List.exists_cons_of_ne_nil hw.1.1
    have hminus := (ne_sign_of_digit (hw.1.2 d List.mem_cons_self)).2
    simp only [List.append_assoc, List.cons_append] at hscan ⊢
    rw [← hscan]
    simp [scanNumber, hminus]
  | negative hw hf he =>
    simpa only [List.append_assoc, List.cons_append, scanNumber] using hw.scan hf he hm true

/-- A number that is found without a fault is spelled by what was taken. -/
theorem SpellsNumber.of_scan {text rest : List Char} {n : NumberText}
    (h : scanNumber text = (n, rest)) (hn : n.fault = none) :
    ∃ cs, text = cs ++ rest ∧ SpellsNumber cs n := by
  unfold scanNumber at h
  split at h
  · obtain ⟨whole, fs, ds, es, x, rfl, hw, hf, he, rfl⟩ := IsWhole.of_scan h hn
    exact ⟨'-' :: (whole ++ (fs ++ es)), by simp, .negative hw hf he⟩
  · obtain ⟨whole, fs, ds, es, x, rfl, hw, hf, he, rfl⟩ := IsWhole.of_scan h hn
    exact ⟨whole ++ (fs ++ es), by simp, .unsigned hw hf he⟩

end DownloadReport.Json
