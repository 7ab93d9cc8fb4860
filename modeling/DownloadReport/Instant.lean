import DownloadReport.Calendar
import DownloadReport.Decimal.Numeral

/-! Points in time. A moment is given to the nanosecond; it is so many seconds and nanoseconds after the
    beginning of 1970 in universal time, and there are moments only in the years that the calendar can
    hold, which are -262143 to 262142. An instant is a moment at which a second begins, and so a Unix
    time without a fraction. It is made of a number of seconds, or of any moment by leaving the
    nanoseconds out (`Moment.truncated`). -/

namespace DownloadReport

/-- The first second of year -262143. -/
def firstSecond : Int := -8334601228800

/-- The last second of year 262142. -/
def lastSecond : Int := 8210266876799

/-- A point in time to the nanosecond. Nanoseconds from a thousand million on stand within a leap
    second, which prolongs the second in front of it. -/
structure Moment where
  seconds : Int
  nanos : Nat
  inRange : firstSecond ≤ seconds ∧ seconds ≤ lastSecond
  short : nanos < 2000000000
  deriving DecidableEq, Repr

namespace Moment

/-- The moment of a number of seconds and nanoseconds, if it exists; only the last second of a minute
    has a leap second behind it. -/
def of? (seconds : Int) (nanos : Nat) : Option Moment :=
  if h : firstSecond ≤ seconds ∧ seconds ≤ lastSecond then
    if k : nanos < 1000000000 ∨ (nanos < 2000000000 ∧ seconds % 60 = 59) then
      some ⟨seconds, nanos, h, by omega⟩
    else none
  else none

/-- Without nanoseconds there is a moment for every number of seconds within the calendar. -/
theorem of?_zero_eq_some_iff {n : Int} {m : Moment} :
    of? n 0 = some m ↔ m.seconds = n ∧ m.nanos = 0 := by
  constructor
  · intro h
    unfold of? at h
    split at h
    · rw [dif_pos (.inl (by decide))] at h
      cases h
      exact ⟨rfl, rfl⟩
    · exact nomatch h
  · obtain ⟨seconds, nanos, hrange, _⟩ := m
    rintro ⟨rfl, rfl⟩
    rw [of?, dif_pos hrange, dif_pos (.inl (by decide))]

/-- The moment at which its second began, or the moment itself if there is none. -/
def truncated (m : Moment) : Moment := (of? m.seconds 0).getD m

/-- The second of a moment has a beginning, so it is never the moment itself that stands in for it. -/
theorem of?_truncated (m : Moment) : of? m.seconds 0 = some m.truncated := by
  have hwhole : of? m.seconds 0 = some ⟨m.seconds, 0, m.inRange, by decide⟩ :=
    of?_zero_eq_some_iff.2 ⟨rfl, rfl⟩
  rw [truncated, hwhole, Option.getD_some]

@[simp] theorem seconds_truncated (m : Moment) : m.truncated.seconds = m.seconds :=
  (of?_zero_eq_some_iff.1 m.of?_truncated).1

@[simp] theorem nanos_truncated (m : Moment) : m.truncated.nanos = 0 :=
  (of?_zero_eq_some_iff.1 m.of?_truncated).2

/-- Date and time of day, with a fraction of the second if there is one. -/
def text (m : Moment) : String := Calendar.timestamp m.seconds m.nanos

instance : LE Moment :=
  ⟨fun a b => a.seconds < b.seconds ∨ (a.seconds = b.seconds ∧ a.nanos ≤ b.nanos)⟩

instance (a b : Moment) : Decidable (a ≤ b) :=
  inferInstanceAs (Decidable (a.seconds < b.seconds ∨ (a.seconds = b.seconds ∧ a.nanos ≤ b.nanos)))

end Moment

/-- A second of the calendar: the moment at which it begins. -/
structure Instant where
  moment : Moment
  whole : moment.nanos = 0
  deriving DecidableEq, Repr

namespace Instant

/-- The second of a number, if it exists. -/
def ofSeconds? (seconds : Int) : Option Instant :=
  (Moment.of? seconds 0).pmap .mk fun _ h => (Moment.of?_zero_eq_some_iff.1 h).2

/-- The second that has begun at a moment. -/
def ofMoment (m : Moment) : Instant := ⟨m.truncated, m.nanos_truncated⟩

/-- The number of the second. -/
def seconds (t : Instant) : Int := t.moment.seconds

/-- The nanoseconds behind the second. -/
def nanos (t : Instant) : Nat := t.moment.nanos

instance : LE Instant := ⟨fun a b => a.moment ≤ b.moment⟩

instance (a b : Instant) : Decidable (a ≤ b) := inferInstanceAs (Decidable (a.moment ≤ b.moment))

/-- Date and time of day. -/
def text (t : Instant) : String := t.moment.text

/-- The seconds as a numeral. -/
def numeral (t : Instant) : String := String.ofList (Decimal.ofInteger t.seconds)

/-- The instants in ascending order. -/
def sort (ts : List Instant) : List Instant := ts.mergeSort fun a b => decide (a ≤ b)

theorem inRange (t : Instant) : firstSecond ≤ t.seconds ∧ t.seconds ≤ lastSecond := t.moment.inRange

/-- A number has the instant that begins at the moment of the number. -/
theorem ofSeconds?_eq_some_iff_moment {n : Int} {t : Instant} :
    ofSeconds? n = some t ↔ Moment.of? n 0 = some t.moment := by
  unfold ofSeconds?
  rw [Option.pmap_eq_some_iff]
  constructor
  · rintro ⟨m, _, hm, rfl⟩
    exact hm
  · exact fun h => ⟨t.moment, t.whole, h, rfl⟩

theorem ofSeconds?_eq_some_iff {n : Int} {t : Instant} : ofSeconds? n = some t ↔ t.seconds = n := by
  rw [ofSeconds?_eq_some_iff_moment, Moment.of?_zero_eq_some_iff]
  exact and_iff_left t.whole

theorem ofSeconds?_eq_none_iff {n : Int} :
    ofSeconds? n = none ↔ ¬(firstSecond ≤ n ∧ n ≤ lastSecond) := by
  rw [ofSeconds?, Option.pmap_eq_none_iff, Moment.of?]
  split <;> simp [*]

theorem exists_ofSeconds?_iff {n : Int} :
    (∃ t, ofSeconds? n = some t) ↔ firstSecond ≤ n ∧ n ≤ lastSecond := by
  rw [← Option.ne_none_iff_exists', Ne, ofSeconds?_eq_none_iff, Decidable.not_not]

end Instant

end DownloadReport
