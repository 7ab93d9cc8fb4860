import DownloadReport.Proofs.CalendarDays
import DownloadReport.Proofs.Numerals
import DownloadReport.Proofs.WholeSeconds

/-! Instants as date and time of day. The text of an instant has fields of a fixed number of digits, but
    for the year, which may need more than four and then carries a sign. So a date and time has one text
    (`DateTime.IsText.unique`), and every field can be told from it (`DateTime.eq_of_isText`). Counted
    back from 1970, the date and time of an instant lies as many seconds away as the instant
    (`timestamps_faithful`). For other moments this does not hold: nanoseconds are written as a fraction
    behind a point (`dot_mem_timestamp_iff`). -/

namespace DownloadReport

open Decimal (IsNumeral natural? integer? natural?_eq_some_iff ofNatural)
open Json (IsWhole)

namespace Calendar

/-! ### Fields -/

/-- A numeral of a fixed number of digits. -/
structure IsDigits (width n : Nat) (ds : List Char) : Prop where
  number : natural? ds = some n
  length : ds.length = width

/-- A numeral of that many digits, or the shortest one if it is longer. -/
def IsPadded (width n : Nat) (ds : List Char) : Prop :=
  IsDigits width n ds ∨ (width < ds.length ∧ IsWhole ds ∧ natural? ds = some n)

/-- The text of a year: four digits, and outside the years 0 to 9999 a sign before at least as many. -/
inductive IsYear : Int → List Char → Prop where
  | plain {n : Nat} {ds : List Char} (hn : n ≤ 9999) (hds : IsDigits 4 n ds) : IsYear n ds
  | later {n : Nat} {ds : List Char} (hn : 9999 < n) (hds : IsPadded 4 n ds) : IsYear n ('+' :: ds)
  | earlier {n : Nat} {ds : List Char} (hn : 0 < n) (hds : IsPadded 4 n ds) :
      IsYear (-n) ('-' :: ds)

/-- Numerals of the same length for the same number are the same. -/
theorem eq_of_ofDigitChars {ds es : List Char} (hds : ∀ c ∈ ds, c.isDigit = true)
    (hes : ∀ c ∈ es, c.isDigit = true) (hlength : ds.length = es.length)
    (h : Nat.ofDigitChars 10 ds 0 = Nat.ofDigitChars 10 es 0) : ds = es := by
  induction ds using List.reverseRecOn generalizing es with
  | nil => exact (List.eq_nil_of_length_eq_zero hlength.symm).symm
  | append_singleton ds c ih =>
    obtain rfl | ⟨es, d, rfl⟩ := List.eq_nil_or_concat' es
    · simp at hlength
    · obtain ⟨hc, hcchar⟩ := Decimal.digitChar_of_isDigit (hds c (by simp))
      obtain ⟨hd, hdchar⟩ := Decimal.digitChar_of_isDigit (hes d (by simp))
      simp only [Nat.ofDigitChars_append, Nat.ofDigitChars_cons, Nat.ofDigitChars_nil] at h
      have hlast : c = d := by
        rw [← hcchar, ← hdchar]
        congr 1
        omega
      have hfront : ds = es :=
        ih (fun x hx => hds x (List.mem_append_left _ hx))
          (fun x hx => hes x (List.mem_append_left _ hx)) (by simpa using hlength) (by omega)
      rw [hlast, hfront]

/-- A numeral of so many digits is below that power of ten. -/
theorem ofDigitChars_lt {ds : List Char} (hds : ∀ c ∈ ds, c.isDigit = true) :
    Nat.ofDigitChars 10 ds 0 < 10 ^ ds.length := by
  induction ds using List.reverseRecOn with
  | nil => decide
  | append_singleton ds c ih =>
    have hfront := ih fun x hx => hds x (List.mem_append_left _ hx)
    obtain ⟨hlast, _⟩ := Decimal.digitChar_of_isDigit (hds c (by simp))
    rw [Nat.ofDigitChars_append, Nat.ofDigitChars_cons, Nat.ofDigitChars_nil, List.length_append,
      List.length_singleton, pow_succ]
    omega

theorem IsDigits.lt {width n : Nat} {ds : List Char} (h : IsDigits width n ds) : n < 10 ^ width := by
  obtain ⟨hdigits, rfl⟩ := natural?_eq_some_iff.1 h.number
  rw [← h.length]
  exact ofDigitChars_lt hdigits.2

theorem IsDigits.unique {width n : Nat} {ds es : List Char} (hds : IsDigits width n ds)
    (hes : IsDigits width n es) : ds = es := by
  obtain ⟨hdigits, hnumber⟩ := natural?_eq_some_iff.1 hds.number
  obtain ⟨hdigits', hnumber'⟩ := natural?_eq_some_iff.1 hes.number
  exact eq_of_ofDigitChars hdigits.2 hdigits'.2 (hds.length.trans hes.length.symm)
    (hnumber.trans hnumber'.symm)

/-- Zeros in front of the digits make up for those that are missing. -/
theorem natural?_padded (width n : Nat) : natural? (padded width n) = some n := by
  have hnumeral := Decimal.isNumeral_ofNatural n
  rw [natural?_eq_some_iff]
  constructor
  · refine ⟨List.append_ne_nil_of_right_ne_nil _ hnumeral.1, fun c hc => ?_⟩
    rcases List.mem_append.1 hc with hzero | hdigit
    · rw [List.eq_of_mem_replicate hzero]
      rfl
    · exact hnumeral.2 c hdigit
  · rw [padded, Nat.ofDigitChars_append, Nat.ofDigitChars_replicate_zero, Nat.mul_zero,
      Nat.ofDigitChars_toDigits (by decide) (by decide)]

theorem isDigits_padded {width n : Nat} (hwidth : 0 < width) (hn : n < 10 ^ width) :
    IsDigits width n (padded width n) := by
  have hlength := (Nat.length_toDigits_le_iff (by decide) hwidth).2 hn
  refine ⟨natural?_padded width n, ?_⟩
  rw [padded, List.length_append, List.length_replicate]
  omega

theorem padded_of_le_length {width n : Nat} (h : width ≤ (ofNatural n).length) :
    padded width n = ofNatural n := by
  show List.replicate (width - (ofNatural n).length) '0' ++ ofNatural n = ofNatural n
  rw [Nat.sub_eq_zero_of_le h]
  rfl

theorem isPadded_iff {width n : Nat} {ds : List Char} (hwidth : 0 < width) :
    IsPadded width n ds ↔ ds = padded width n := by
  constructor
  · rintro (hdigits | ⟨hlength, hwhole, hnumber⟩)
    · exact hdigits.unique (isDigits_padded hwidth hdigits.lt)
    · have hds : ofNatural n = ds := (Decimal.ofNatural_eq_iff hnumber).2 hwhole
      rw [padded_of_le_length (hds ▸ hlength.le), hds]
  · rintro rfl
    by_cases hn : n < 10 ^ width
    · exact .inl (isDigits_padded hwidth hn)
    · have hlength : width < (ofNatural n).length := by
        rw [← not_le]
        exact mt (Nat.length_toDigits_le_iff (by decide) hwidth).1 hn
      rw [padded_of_le_length hlength.le]
      exact .inr ⟨hlength, Json.isWhole_ofNatural n, Decimal.natural?_ofNatural n⟩

theorem isYear_iff {year : Int} {s : List Char} : IsYear year s ↔ s = yearText year := by
  constructor
  · intro h
    cases h with
    | @plain n ds hn hds =>
      rw [yearText, if_pos (by omega), Int.toNat_natCast]
      exact hds.unique (isDigits_padded (by decide) (by omega))
    | @later n ds hn hds =>
      rw [yearText, if_neg (by omega), if_neg (by omega), Int.natAbs_natCast]
      exact congrArg _ ((isPadded_iff (by decide)).1 hds)
    | @earlier n ds hn hds =>
      rw [yearText, if_neg (by omega), if_pos (by omega), Int.natAbs_neg, Int.natAbs_natCast]
      exact congrArg _ ((isPadded_iff (by decide)).1 hds)
  · rintro rfl
    unfold yearText
    split
    next h =>
      obtain ⟨n, rfl⟩ := Int.eq_ofNat_of_zero_le h.1
      exact .plain (by omega) (isDigits_padded (by decide) (by omega))
    next h =>
      split
      next hneg =>
        obtain ⟨n, rfl⟩ : ∃ n : Nat, year = -n := ⟨year.natAbs, by omega⟩
        rw [Int.natAbs_neg]
        exact .earlier (by omega) ((isPadded_iff (by decide)).2 rfl)
      next hpos =>
        obtain ⟨n, rfl⟩ : ∃ n : Nat, year = n := ⟨year.natAbs, by omega⟩
        exact .later (by omega) ((isPadded_iff (by decide)).2 rfl)

theorem IsPadded.number {width n : Nat} {ds : List Char} (h : IsPadded width n ds) :
    natural? ds = some n := by
  rcases h with hdigits | ⟨_, _, hnumber⟩
  · exact hdigits.number
  · exact hnumber

/-- The year can be told from its text. -/
theorem IsYear.integer? {year : Int} {s : List Char} (h : IsYear year s) :
    Decimal.integer? s = some year := by
  cases h with
  | plain _ hds =>
    obtain ⟨hnumeral, rfl⟩ := natural?_eq_some_iff.1 hds.number
    exact Decimal.integer?_of_isNumeral hnumeral
  | later _ hds =>
    rw [Decimal.integer?, hds.number]
    rfl
  | earlier _ hds =>
    rw [Decimal.integer?, hds.number]
    rfl

/-! ### Fractions -/

/-- There is no point among digits. -/
theorem dot_not_mem_padded (width n : Nat) : '.' ∉ padded width n := by
  obtain ⟨hnumeral, _⟩ := natural?_eq_some_iff.1 (natural?_padded width n)
  exact fun h => absurd (hnumeral.2 '.' h) (by decide)

theorem dot_not_mem_yearText (year : Int) : '.' ∉ yearText year := by
  unfold yearText
  split
  · exact dot_not_mem_padded _ _
  · split <;> simp [dot_not_mem_padded]

/-- A point stands before a fraction, and there is none of no nanoseconds. -/
theorem dot_mem_fraction_iff {nanos : Nat} : '.' ∈ fraction nanos ↔ nanos ≠ 0 := by
  unfold fraction
  split
  next h => simp [h]
  next h =>
    rw [iff_true_right h]
    split
    · exact List.mem_cons_self
    · split <;> exact List.mem_cons_self

/-- A text has a point just when there is a fraction of a second. -/
theorem dot_mem_timestamp_iff {n : Int} {nanos : Nat} :
    '.' ∈ (timestamp n nanos).toList ↔ nanos % 1000000000 ≠ 0 := by
  simp only [timestamp, String.toList_ofList, List.mem_append, dot_not_mem_padded,
    dot_not_mem_yearText, dot_mem_fraction_iff]
  simp

/-! ### Date and time of day -/

/-- A day that there is, and a second of that day. -/
structure DateTime where
  date : Date
  valid : date.Valid
  hour : Fin 24
  minute : Fin 60
  second : Fin 60

namespace DateTime

/-- How many seconds a date and time lies behind the beginning of 1970. -/
def seconds (t : DateTime) : Int :=
  86400 * t.date.dayNumber + (3600 * t.hour + 60 * t.minute + t.second : Nat)

/-- The date and time so many seconds after the beginning of 1970. -/
def ofSeconds (n : Int) : DateTime where
  date := Date.ofDays (n / 86400)
  valid := (Date.dayNumber_ofDays _).1
  hour := ⟨(n % 86400).toNat / 3600, by omega⟩
  minute := ⟨(n % 86400).toNat / 60 % 60, by omega⟩
  second := ⟨(n % 86400).toNat % 60, by omega⟩

theorem seconds_ofSeconds (n : Int) : (ofSeconds n).seconds = n := by
  have hdays : (ofSeconds n).date.dayNumber = n / 86400 := (Date.dayNumber_ofDays _).2
  rw [seconds, hdays]
  simp only [ofSeconds]
  omega

theorem eq_of_seconds {t u : DateTime} (h : t.seconds = u.seconds) : t = u := by
  obtain ⟨date, hvalid, hour, minute, second⟩ := t
  obtain ⟨date', hvalid', hour', minute', second'⟩ := u
  simp only [seconds] at h
  have hday : date = date' := Date.eq_of_dayNumber hvalid hvalid' (by omega)
  subst hday
  obtain rfl : hour = hour' := by omega
  obtain rfl : minute = minute' := by omega
  obtain rfl : second = second' := by omega
  rfl

/-- The text of a date and time at zero offset: no fraction of the second, and two digits for each field
    but the year. -/
def IsText (t : DateTime) (s : List Char) : Prop :=
  ∃ year month day hour minute second : List Char,
    s = year ++ '-' :: month ++ '-' :: day ++ 'T' :: hour ++ ':' :: minute ++ ':' :: second ++
      ['+', '0', '0', ':', '0', '0'] ∧
    IsYear t.date.year year ∧ IsDigits 2 t.date.month month ∧ IsDigits 2 t.date.day day ∧
      IsDigits 2 t.hour hour ∧ IsDigits 2 t.minute minute ∧ IsDigits 2 t.second second

/-- There is one text of a date and time. -/
theorem IsText.unique {t : DateTime} {s s' : List Char} (hs : t.IsText s) (hs' : t.IsText s') :
    s = s' := by
  obtain ⟨_, _, _, _, _, _, rfl, hyear, hmonth, hday, hhour, hminute, hsecond⟩ := hs
  obtain ⟨_, _, _, _, _, _, rfl, hyear', hmonth', hday', hhour', hminute', hsecond'⟩ := hs'
  rw [isYear_iff.1 hyear, isYear_iff.1 hyear', hmonth.unique hmonth', hday.unique hday',
    hhour.unique hhour', hminute.unique hminute', hsecond.unique hsecond']

/-- A last field of a fixed number of digits can be told from the text. -/
theorem peel {width n m : Nat} {s s' ds es : List Char} {c : Char} (hds : IsDigits width n ds)
    (hes : IsDigits width m es) (h : s ++ c :: ds = s' ++ c :: es) : s = s' ∧ n = m := by
  have hlength : (c :: ds).length = (c :: es).length := by
    simp only [List.length_cons, hds.length, hes.length]
  obtain ⟨hfront, hlast⟩ := List.append_inj' h hlength
  obtain rfl := (List.cons.inj hlast).2
  exact ⟨hfront, Option.some.inj (hds.number.symm.trans hes.number)⟩

/-- A text is that of one date and time at most. -/
theorem eq_of_isText {t u : DateTime} {s : List Char} (ht : t.IsText s) (hu : u.IsText s) :
    t = u := by
  obtain ⟨_, _, _, _, _, _, rfl, hyear, hmonth, hday, hhour, hminute, hsecond⟩ := ht
  obtain ⟨_, _, _, _, _, _, hs, hyear', hmonth', hday', hhour', hminute', hsecond'⟩ := hu
  have hs := List.append_cancel_right hs
  obtain ⟨hs, hsecond⟩ := peel hsecond hsecond' hs
  obtain ⟨hs, hminute⟩ := peel hminute hminute' hs
  obtain ⟨hs, hhour⟩ := peel hhour hhour' hs
  obtain ⟨hs, hday⟩ := peel hday hday' hs
  obtain ⟨rfl, hmonth⟩ := peel hmonth hmonth' hs
  have hyear := Option.some.inj (hyear.integer?.symm.trans hyear'.integer?)
  obtain ⟨⟨year, month, day⟩, hvalid, hour, minute, second⟩ := t
  obtain ⟨⟨year', month', day'⟩, hvalid', hour', minute', second'⟩ := u
  obtain rfl : year = year' := hyear
  obtain rfl : month = month' := hmonth
  obtain rfl : day = day' := hday
  obtain rfl : hour = hour' := Fin.ext hhour
  obtain rfl : minute = minute' := Fin.ext hminute
  obtain rfl : second = second' := Fin.ext hsecond
  rfl

/-- Without nanoseconds, what is written is the text of the date and time. -/
theorem isText_timestamp (n : Int) : (ofSeconds n).IsText (timestamp n 0).toList := by
  have hmonth := (ofSeconds n).valid.month
  have hday := (ofSeconds n).valid.day
  have hdays := monthDays_le (ofSeconds n).date.year (ofSeconds n).date.month
  have htext : (timestamp n 0).toList = yearText (ofSeconds n).date.year ++
      '-' :: padded 2 (ofSeconds n).date.month ++ '-' :: padded 2 (ofSeconds n).date.day ++
      'T' :: padded 2 (ofSeconds n).hour ++ ':' :: padded 2 (ofSeconds n).minute ++
      ':' :: padded 2 (ofSeconds n).second ++ ['+', '0', '0', ':', '0', '0'] := by
    rw [timestamp, String.toList_ofList, Nat.zero_div, Nat.zero_mod, fraction, if_pos rfl]
    simp only [List.append_assoc, List.cons_append, List.nil_append]
    rfl
  exact ⟨_, _, _, _, _, _, htext, isYear_iff.2 rfl, isDigits_padded (by decide) (by omega),
    isDigits_padded (by decide) (by omega), isDigits_padded (by decide) (by omega),
    isDigits_padded (by decide) (by omega), isDigits_padded (by decide) (by omega)⟩

/-- What is written for its number of seconds is the text of a date and time. -/
theorem isText_iff {t : DateTime} {s : List Char} :
    t.IsText s ↔ s = (timestamp t.seconds 0).toList := by
  have ht : ofSeconds t.seconds = t := eq_of_seconds (seconds_ofSeconds t.seconds)
  have htext := isText_timestamp t.seconds
  rw [ht] at htext
  constructor
  · exact fun hs => hs.unique htext
  · intro hs
    rw [hs]
    exact htext

/-- It is the text for no other number of seconds. -/
theorem isText_timestamp_iff {t : DateTime} {n : Int} :
    t.IsText (timestamp n 0).toList ↔ t.seconds = n := by
  constructor
  · intro h
    rw [eq_of_isText h (isText_timestamp n), seconds_ofSeconds]
  · rintro rfl
    exact isText_iff.2 rfl

end DateTime

end Calendar

open Calendar (DateTime)

/-- The text of an instant is that of a date and time of day at zero offset, in years of four digits or
    with a sign: the one that lies as many seconds behind the beginning of 1970 as the instant, by the
    lengths of the days, months and years between. This date and time has no other text, and the text
    is that of no other date and time, so instants with the same text are the same. A moment may have a
    fraction of a second, which then is in its text; but when it is cut down to its second, the text is
    that of the date and time of its seconds, and the instant made of the moment has this text. -/
theorem timestamps_faithful :
    (∀ t : Instant,
      (∃ d : DateTime, d.seconds = t.seconds ∧ ∀ s : String, d.IsText s.toList ↔ s = t.text) ∧
        (∀ d : DateTime, d.IsText t.text.toList ↔ d.seconds = t.seconds) ∧
        '.' ∉ t.text.toList) ∧
      (∀ t u : Instant, t.text = u.text ↔ t = u) ∧
      ∀ m : Moment,
        ('.' ∈ m.text.toList ↔ m.nanos % 1000000000 ≠ 0) ∧
          (∀ d : DateTime, d.IsText m.truncated.text.toList ↔ d.seconds = m.seconds) ∧
          (Instant.ofMoment m).text = m.truncated.text := by
  -- Without nanoseconds the text is that of the seconds alone.
  have hwhole : ∀ m : Moment, m.nanos = 0 → m.text = Calendar.timestamp m.seconds 0 := by
    intro m hm
    rw [Moment.text, hm]
  have hiff : ∀ (t : Instant) (d : DateTime), d.IsText t.text.toList ↔ d.seconds = t.seconds := by
    intro t d
    rw [Instant.text, hwhole _ t.whole]
    exact DateTime.isText_timestamp_iff
  refine ⟨fun t => ⟨?_, hiff t, ?_⟩, fun t u => ?_, fun m => ⟨?_, fun d => ?_, rfl⟩⟩
  · have hdate := DateTime.seconds_ofSeconds t.seconds
    refine ⟨DateTime.ofSeconds t.seconds, hdate, fun s => ?_⟩
    rw [DateTime.isText_iff, hdate, Instant.text, hwhole _ t.whole, String.toList_inj]
    rfl
  · rw [Instant.text, Moment.text, Calendar.dot_mem_timestamp_iff, t.whole]
    exact fun h => h rfl
  · constructor
    · intro htext
      -- Both are the text of the date and time of `t`.
      have hdate := DateTime.seconds_ofSeconds t.seconds
      have hother := (hiff u _).1 (htext ▸ (hiff t _).2 hdate)
      rw [Instant.eq_iff, ← hdate, hother]
    · rintro rfl
      rfl
  · exact Calendar.dot_mem_timestamp_iff
  · rw [hwhole _ m.nanos_truncated, DateTime.isText_timestamp_iff, m.seconds_truncated]

/-- The first second there is, and a leap day at the end of a century. -/
example : (Instant.ofSeconds? (-8334601228800)).map Instant.text = some "-262143-01-01T00:00:00+00:00" ∧
    (Instant.ofSeconds? 951868799).map Instant.text = some "2000-02-29T23:59:59+00:00" := by
  decide

end DownloadReport
