import DownloadReport.Calendar
import Mathlib.Algebra.BigOperators.Intervals
import Mathlib.Algebra.Order.BigOperators.Group.Finset
import Mathlib.Tactic.IntervalCases
import Mathlib.Tactic.Ring

/-! The days of the Gregorian calendar. The rules are those that everyone knows: twelve months of 30 or
    31 days but for February, which has 28 and in a leap year 29; every fourth year is a leap year, but
    of the full centuries only every fourth. A date is counted by the days of the years and months
    before it (`Date.dayNumber`). The date of a number of days is found without going through years and
    months; it is a date by those rules, and the count of its days gives the number back
    (`Date.dayNumber_ofDays`). No other date has this number (`Date.eq_of_dayNumber`). -/

namespace DownloadReport.Calendar

/-! ### Rules -/

/-- Whether a year has a leap day. -/
def IsLeap (year : Int) : Prop := 4 ∣ year ∧ (100 ∣ year → 400 ∣ year)

instance (year : Int) : Decidable (IsLeap year) := inferInstanceAs (Decidable (_ ∧ _))

/-- How many leap days a year has. -/
def leapDays (year : Int) : Nat := if IsLeap year then 1 else 0

theorem leapDays_le_one (year : Int) : leapDays year ≤ 1 := by
  unfold leapDays
  split <;> omega

def yearDays (year : Int) : Nat := 365 + leapDays year

def monthDays (year : Int) : Nat → Nat
  | 2 => 28 + leapDays year
  | 4 | 6 | 9 | 11 => 30
  | _ => 31

theorem monthDays_le (year : Int) (month : Nat) : monthDays year month ≤ 31 := by
  have hleap := leapDays_le_one year
  unfold monthDays
  split <;> omega

/-- A day that there is. -/
structure Date.Valid (d : Date) : Prop where
  month : 1 ≤ d.month ∧ d.month ≤ 12
  day : 1 ≤ d.day ∧ d.day ≤ monthDays d.year d.month

/-- The days from the beginning of 1970 to that of a year; a year before 1970 begins as many days before
    as there are in the years between. -/
def daysBeforeYear (year : Int) : Int :=
  ∑ k ∈ Finset.range (year - 1970).toNat, (yearDays (1970 + k) : Int) -
    ∑ k ∈ Finset.range (1970 - year).toNat, (yearDays (1969 - k) : Int)

/-- The days of a year before a month. -/
def daysBeforeMonth (year : Int) (month : Nat) : Nat := ∑ m ∈ Finset.Ico 1 month, monthDays year m

/-- How many days a date lies behind 1 January 1970. -/
def Date.dayNumber (d : Date) : Int :=
  daysBeforeYear d.year + daysBeforeMonth d.year d.month + (d.day - 1)

/-! ### Years -/

/-- The first day of March, before which the leap day stands. -/
def marchFirst (year : Int) : Int := 365 * year + year / 4 - year / 100 + year / 400 - epochDay

/-- From one March to the next there are 365 days, and the leap day of the later year. -/
theorem marchFirst_succ (year : Int) :
    marchFirst (year + 1) = marchFirst year + 365 + leapDays (year + 1) := by
  simp only [marchFirst, leapDays]
  split
  next hleap =>
    obtain ⟨hfour, hcentury⟩ := hleap
    push_cast
    omega
  next hleap =>
    unfold IsLeap at hleap
    push_cast
    omega

/-- A year begins 59 days before its March, and one more in a leap year. -/
theorem daysBeforeYear_add (year : Int) :
    daysBeforeYear year + 59 + leapDays year = marchFirst year := by
  have hlater : ∀ n : Nat, ∑ k ∈ Finset.range n, (yearDays (1970 + k) : Int) + 59 +
      leapDays (1970 + n) = marchFirst (1970 + n) := by
    intro n
    induction n with
    | zero => rfl
    | succ n ih =>
      have hnext : (1970 : Int) + (n + 1 : Nat) = 1970 + n + 1 := by omega
      rw [Finset.sum_range_succ, hnext, marchFirst_succ, ← ih, yearDays]
      push_cast
      ring
  have hearlier : ∀ n : Nat, marchFirst (1970 - n) +
      ∑ k ∈ Finset.range n, (yearDays (1969 - k) : Int) = 59 + leapDays (1970 - n) := by
    intro n
    induction n with
    | zero => rfl
    | succ n ih =>
      have hnext : (1970 : Int) - n = 1969 - n + 1 := by omega
      have hthis : (1970 : Int) - (n + 1 : Nat) = 1969 - n := by omega
      rw [hnext, marchFirst_succ] at ih
      rw [Finset.sum_range_succ, hthis, yearDays]
      push_cast
      omega
  rcases le_total 1970 year with h | h
  · obtain ⟨n, rfl⟩ : ∃ n : Nat, year = 1970 + n := ⟨(year - 1970).toNat, by omega⟩
    have hn : (1970 + (n : Int) - 1970).toNat = n := by omega
    have hzero : (1970 - (1970 + (n : Int))).toNat = 0 := by omega
    rw [daysBeforeYear, hn, hzero, Finset.sum_range_zero, sub_zero, hlater]
  · obtain ⟨n, rfl⟩ : ∃ n : Nat, year = 1970 - n := ⟨(1970 - year).toNat, by omega⟩
    have hn : (1970 - (1970 - (n : Int))).toNat = n := by omega
    have hzero : (1970 - (n : Int) - 1970).toNat = 0 := by omega
    have hsum := hearlier n
    rw [daysBeforeYear, hn, hzero, Finset.sum_range_zero]
    omega

/-- A year is as long as its days are many. -/
theorem daysBeforeYear_succ (year : Int) :
    daysBeforeYear (year + 1) = daysBeforeYear year + yearDays year := by
  have hthis := daysBeforeYear_add year
  have hnext := daysBeforeYear_add (year + 1)
  rw [marchFirst_succ] at hnext
  rw [yearDays]
  push_cast
  omega

/-- Later years begin later. -/
theorem daysBeforeYear_mono {year later : Int} (h : year ≤ later) :
    daysBeforeYear year ≤ daysBeforeYear later := by
  induction later, h using Int.leInduction with
  | base => exact le_rfl
  | succ later _ ih =>
    have hnext := daysBeforeYear_succ later
    omega

/-! ### Months -/

theorem daysBeforeMonth_succ (year : Int) {month : Nat} (h : 1 ≤ month) :
    daysBeforeMonth year (month + 1) = daysBeforeMonth year month + monthDays year month :=
  Finset.sum_Ico_succ_top h _

/-- Later months begin later. -/
theorem daysBeforeMonth_mono (year : Int) {month later : Nat} (h : month ≤ later) :
    daysBeforeMonth year month ≤ daysBeforeMonth year later :=
  Finset.sum_le_sum_of_subset (Finset.Ico_subset_Ico_right h)

/-- Twelve months make a year. -/
theorem daysBeforeMonth_thirteen (year : Int) : daysBeforeMonth year 13 = yearDays year := by
  simp only [daysBeforeMonth, Finset.sum_Ico_succ_top, Nat.reduceLeDiff, Finset.Ico_self,
    Finset.sum_empty, monthDays, yearDays]
  omega

/-- From March on the months begin where a year that begins in March has them. -/
theorem daysBeforeMonth_march (year : Int) {month : Nat} (h : month < 10) :
    daysBeforeMonth year (month + 3) = 59 + leapDays year + monthStart month := by
  induction month with
  | zero =>
    simp only [daysBeforeMonth, Finset.sum_Ico_succ_top, Nat.reduceLeDiff, Finset.Ico_self,
      Finset.sum_empty, monthDays, monthStart]
    omega
  | succ month ih =>
    rw [Nat.add_right_comm, daysBeforeMonth_succ year (by omega), ih (by omega)]
    have hmonth : month < 9 := by omega
    interval_cases month <;> rfl

/-! ### Dates of days -/

/-- A day of a cycle by its century, its group of four years and its day in the group. Groups have 1461
    days and centuries 36524, so the last group of a century has a day less, but for the last century. -/
theorem yearOfCycle_eq {century group day : Nat} (hcentury : century < 4) (hgroup : group < 25)
    (hday : day < 1461) (hlast : group = 24 → day = 1460 → century = 3) :
    yearOfCycle (36524 * century + 1461 * group + day) =
      100 * century + 4 * group + min 3 (day / 365) := by
  -- The three corrections of the formula; the day after the last full group is the one to watch.
  have hgroups : (36524 * century + 1461 * group + day) / 1460 =
      25 * century + group + (if 1460 ≤ 24 * century + group + day then 1 else 0) := by
    split <;> omega
  have hcenturies : (36524 * century + 1461 * group + day) / 36524 =
      century + (if group = 24 ∧ day = 1460 then 1 else 0) := by
    split <;> omega
  have hcycle : (36524 * century + 1461 * group + day) / 146096 =
      if group = 24 ∧ day = 1460 then 1 else 0 := by
    split <;> omega
  rw [yearOfCycle, hgroups, hcenturies, hcycle]
  split <;> split <;> omega

/-- The year of a day is the one within whose days it lies. -/
theorem yearOfCycle_spec {day : Nat} (h : day < 146097) :
    yearOfCycle day < 400 ∧ yearStart (yearOfCycle day) ≤ day ∧
      day < yearStart (yearOfCycle day + 1) + (yearOfCycle day + 1) / 400 := by
  obtain ⟨century, rest, hcentury, rfl, hrest⟩ : ∃ century rest, century < 4 ∧
      day = 36524 * century + rest ∧ (rest < 36524 ∨ (century = 3 ∧ rest = 36524)) :=
    ⟨min 3 (day / 36524), day - 36524 * min 3 (day / 36524), by omega, by omega, by omega⟩
  obtain ⟨group, day, hday, rfl⟩ : ∃ group day, day < 1461 ∧ rest = 1461 * group + day :=
    ⟨rest / 1461, rest % 1461, by omega, by omega⟩
  rw [← Nat.add_assoc, yearOfCycle_eq hcentury (by omega) hday (by omega)]
  obtain ⟨year, hyear, hin⟩ : ∃ year, min 3 (day / 365) = year ∧
      ((year < 3 ∧ 365 * year ≤ day ∧ day < 365 * year + 365) ∨ (year = 3 ∧ 1095 ≤ day)) :=
    ⟨_, rfl, by omega⟩
  rw [hyear]
  have hstart : yearStart (100 * century + 4 * group + year) =
      36524 * century + 1461 * group + 365 * year := by
    have hleaps : (100 * century + 4 * group + year) / 4 = 25 * century + group := by omega
    have hcenturies : (100 * century + 4 * group + year) / 100 = century := by omega
    rw [yearStart, hleaps, hcenturies]
    omega
  refine ⟨by omega, by omega, ?_⟩
  rcases hin with hin | ⟨rfl, hin⟩
  · have hleaps : (100 * century + 4 * group + year + 1) / 4 = 25 * century + group := by omega
    have hcenturies : (100 * century + 4 * group + year + 1) / 100 = century := by omega
    rw [yearStart, hleaps, hcenturies]
    omega
  · have hleaps : (100 * century + 4 * group + 3 + 1) / 4 = 25 * century + group + 1 := by omega
    have hcenturies : (100 * century + 4 * group + 3 + 1) / 100 =
        century + (if group = 24 then 1 else 0) := by
      split <;> omega
    rw [yearStart, hleaps, hcenturies]
    split <;> omega

/-- The month of a day is the one within whose days it lies. -/
theorem monthOfYear_spec {day : Nat} (h : day < 366) :
    monthOfYear day < 12 ∧ monthStart (monthOfYear day) ≤ day ∧
      day < monthStart (monthOfYear day + 1) := by
  unfold monthStart monthOfYear
  omega

/-- The date so many days after the first day of March of a year. -/
def Date.ofMarch (year : Int) (day : Nat) : Date where
  year := year + (if monthOfYear day < 10 then 0 else 1)
  month := if monthOfYear day < 10 then monthOfYear day + 3 else monthOfYear day - 9
  day := day - monthStart (monthOfYear day) + 1

/-- The March of a year of a cycle; the last one of a cycle is followed by that of the next. -/
theorem marchFirst_cycle (cycle : Int) {year : Nat} (h : year ≤ 400) :
    marchFirst (400 * cycle + year) =
      146097 * cycle + (yearStart year + year / 400 : Nat) - epochDay := by
  have hleaps : (400 * cycle + year) / 4 = 100 * cycle + (year / 4 : Nat) := by omega
  have hcenturies : (400 * cycle + year) / 100 = 4 * cycle + (year / 100 : Nat) := by omega
  have hcycles : (400 * cycle + year) / 400 = cycle + (year / 400 : Nat) := by omega
  rw [marchFirst, yearStart, hleaps, hcenturies, hcycles]
  omega

/-- Every day lies in a year that begins in March. -/
theorem Date.exists_ofMarch (days : Int) : ∃ (year : Int) (day : Nat),
    day < 365 + leapDays (year + 1) ∧ days = marchFirst year + day ∧
      Date.ofDays days = Date.ofMarch year day := by
  have hnonneg : 0 ≤ (days + epochDay) % cycleDays := Int.emod_nonneg _ (by decide)
  have hless : (days + epochDay) % cycleDays < 146097 := Int.emod_lt_of_pos _ (by decide)
  have hcycle : (days + epochDay) % cycleDays + 146097 * ((days + epochDay) / cycleDays) =
      days + epochDay := Int.emod_add_mul_ediv _ _
  unfold Date.ofDays
  simp only
  generalize (days + epochDay) / cycleDays = cycle at hcycle ⊢
  obtain ⟨rest, hrest⟩ := Int.eq_ofNat_of_zero_le hnonneg
  rw [hrest] at hcycle hless ⊢
  rw [Int.toNat_natCast]
  obtain ⟨hyear, hstart, hend⟩ := yearOfCycle_spec (Int.ofNat_lt.1 hless)
  generalize yearOfCycle rest = year at hyear hstart hend ⊢
  have hthis := marchFirst_cycle cycle (Nat.le_of_lt hyear)
  have hnext := marchFirst_cycle cycle (Nat.succ_le_of_lt hyear)
  have hsucc : (400 * cycle + (year + 1 : Nat) : Int) = 400 * cycle + year + 1 := by omega
  rw [Nat.succ_eq_add_one, hsucc, marchFirst_succ] at hnext
  have hfirst : year / 400 = 0 := by omega
  refine ⟨400 * cycle + year, rest - yearStart year, by omega, by omega, rfl⟩

/-- The months are as long as the rules want them, the last one up to the leap day. -/
theorem Date.valid_ofMarch {year : Int} {day : Nat} (h : day < 365 + leapDays (year + 1)) :
    (Date.ofMarch year day).Valid := by
  have hleap := leapDays_le_one (year + 1)
  obtain ⟨hmonth, hstart, hend⟩ := monthOfYear_spec (show day < 366 by omega)
  unfold Date.ofMarch
  generalize monthOfYear day = month at hmonth hstart hend ⊢
  unfold monthStart at hstart hend
  interval_cases month <;> constructor <;> simp [monthDays, monthStart] <;> omega

/-- Counted by years and months, such a date lies as many days after the first day of March. -/
theorem Date.dayNumber_ofMarch {year : Int} {day : Nat} (h : day < 365 + leapDays (year + 1)) :
    (Date.ofMarch year day).dayNumber = marchFirst year + day := by
  have hleap := leapDays_le_one (year + 1)
  obtain ⟨hmonth, hstart, _⟩ := monthOfYear_spec (show day < 366 by omega)
  unfold Date.ofMarch Date.dayNumber
  generalize monthOfYear day = month at hmonth hstart ⊢
  by_cases hspring : month < 10
  · have hyear := daysBeforeYear_add year
    simp only [if_pos hspring, add_zero, daysBeforeMonth_march year hspring]
    omega
  · -- January and February belong to the next year, which begins 306 days after March.
    have hyear := daysBeforeYear_add (year + 1)
    rw [marchFirst_succ] at hyear
    have hbefore : daysBeforeMonth (year + 1) (month - 9) + 306 = monthStart month := by
      obtain rfl | rfl : month = 10 ∨ month = 11 := by omega
      · rfl
      · rfl
    simp only [if_neg hspring]
    omega

/-- The date of a number of days is a date by the rules, and it has that number. -/
theorem Date.dayNumber_ofDays (days : Int) :
    (Date.ofDays days).Valid ∧ (Date.ofDays days).dayNumber = days := by
  obtain ⟨year, day, hday, hdays, hdate⟩ := Date.exists_ofMarch days
  rw [hdate, hdays]
  exact ⟨Date.valid_ofMarch hday, Date.dayNumber_ofMarch hday⟩

/-! ### Numbers of dates -/

namespace Date

variable {d e : Date}

/-- A date lies within its month. -/
theorem Valid.in_month (h : d.Valid) :
    daysBeforeMonth d.year d.month + (d.day - 1) < daysBeforeMonth d.year (d.month + 1) := by
  have hday := h.day
  rw [daysBeforeMonth_succ d.year h.month.1]
  omega

/-- A date lies within its year. -/
theorem Valid.in_year (h : d.Valid) :
    daysBeforeYear d.year ≤ d.dayNumber ∧ d.dayNumber < daysBeforeYear (d.year + 1) := by
  have hday := h.day
  have hmonth := h.in_month
  have hlast : d.month + 1 ≤ 13 := Nat.succ_le_succ h.month.2
  have hyear := daysBeforeMonth_mono d.year hlast
  rw [daysBeforeMonth_thirteen] at hyear
  have hnext := daysBeforeYear_succ d.year
  unfold dayNumber
  omega

theorem dayNumber_lt_of_year (hd : d.Valid) (he : e.Valid) (h : d.year < e.year) :
    d.dayNumber < e.dayNumber := by
  have hyears := daysBeforeYear_mono (show d.year + 1 ≤ e.year from h)
  have hlater := he.in_year.1
  have hearlier := hd.in_year.2
  omega

theorem dayNumber_lt_of_month (hd : d.Valid) (he : e.Valid) (hyear : d.year = e.year)
    (h : d.month < e.month) : d.dayNumber < e.dayNumber := by
  have hmonths := daysBeforeMonth_mono d.year (show d.month + 1 ≤ e.month from h)
  have hmonth := hd.in_month
  have hday := hd.day
  have hday' := he.day
  unfold dayNumber
  rw [← hyear]
  omega

/-- No two dates have the same number. -/
theorem eq_of_dayNumber (hd : d.Valid) (he : e.Valid) (h : d.dayNumber = e.dayNumber) : d = e := by
  have hyear : d.year = e.year := by
    rcases lt_trichotomy d.year e.year with hlt | heq | hgt
    · have hnumber := dayNumber_lt_of_year hd he hlt
      omega
    · exact heq
    · have hnumber := dayNumber_lt_of_year he hd hgt
      omega
  have hmonth : d.month = e.month := by
    rcases lt_trichotomy d.month e.month with hlt | heq | hgt
    · have hnumber := dayNumber_lt_of_month hd he hyear hlt
      omega
    · exact heq
    · have hnumber := dayNumber_lt_of_month he hd hyear.symm hgt
      omega
  have hday : d.day = e.day := by
    unfold dayNumber at h
    rw [hyear, hmonth] at h
    omega
  cases d
  cases e
  simp only at hyear hmonth hday
  rw [hyear, hmonth, hday]

end Date

end DownloadReport.Calendar
