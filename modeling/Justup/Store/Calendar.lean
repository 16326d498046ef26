import Mathlib.Data.Prod.Lex
import Mathlib.Order.Lattice
import Mathlib.Tactic.Ring

/-!
# Dates and period keys

A time is a number of microseconds since 1970-01-01T00:00 UTC, and a day is
named by its proleptic Gregorian ordinal (day 1 is 0001-01-01, a Monday).  The
functions of `datetime` that `period_key` and `period_bounds` call are given by
the algorithms of the standard library; the limits of its year range are not
modelled.
-/

namespace Justup.Store

def microsPerSecond : Int := 1000000
def microsPerDay : Int := 86400000000

/-- `timedelta(days=n)`. -/
def days (n : Int) : Int := n * microsPerDay

/-- The ordinal of 1970-01-01. -/
def epochOrdinal : Int := 719163

/-- `ts.toordinal()` of a UTC time. -/
def ordinalOf (t : Int) : Int := t / microsPerDay + epochOrdinal

/-- Midnight UTC at the start of a day. -/
def startOfDay (ordinal : Int) : Int := (ordinal - epochOrdinal) * microsPerDay

/-- `_hot_start`: the start of the UTC day of `now`. -/
def hotStart (now : Int) : Int := now / microsPerDay * microsPerDay

theorem startOfDay_le (t : Int) : startOfDay (ordinalOf t) ≤ t := by
  unfold startOfDay ordinalOf microsPerDay
  omega

theorem lt_startOfDay_succ (t : Int) : t < startOfDay (ordinalOf t + 1) := by
  unfold startOfDay ordinalOf microsPerDay
  omega

theorem startOfDay_le_of_le {ordinal : Int} {t : Int} (h : ordinal ≤ ordinalOf t) :
    startOfDay ordinal ≤ t := by
  unfold startOfDay ordinalOf microsPerDay at *
  omega

theorem lt_startOfDay_of_lt {ordinal : Int} {t : Int} (h : ordinalOf t < ordinal) :
    t < startOfDay ordinal := by
  unfold startOfDay ordinalOf microsPerDay at *
  omega

theorem ordinalOf_mono {t u : Int} (h : t ≤ u) : ordinalOf t ≤ ordinalOf u := by
  unfold ordinalOf microsPerDay
  omega

theorem hotStart_le (now : Int) : hotStart now ≤ now := by
  unfold hotStart microsPerDay
  omega

theorem hotStart_mono {t u : Int} (h : t ≤ u) : hotStart t ≤ hotStart u := by
  unfold hotStart microsPerDay
  omega

/-! ## Years -/

/-- `_days_before_year`: the days before January 1st of `year`. -/
def daysBeforeYear (year : Int) : Int :=
  (year - 1) * 365 + (year - 1) / 4 - (year - 1) / 100 + (year - 1) / 400

def isLeap (year : Int) : Bool :=
  year % 4 == 0 && (year % 100 != 0 || year % 400 == 0)

/-- The year of a day, by the 400, 100, 4 and 1 year cycles of `_ord2ymd`. -/
def yearOf (ordinal : Int) : Int :=
  let n := ordinal - 1
  let n400 := n / 146097
  let r400 := n % 146097
  let n100 := min (r400 / 36524) 3
  let r100 := r400 - n100 * 36524
  let n4 := r100 / 1461
  let r4 := r100 % 1461
  let n1 := min (r4 / 365) 3
  n400 * 400 + n100 * 100 + n4 * 4 + n1 + 1

theorem daysBeforeYear_lt_succ (year : Int) :
    daysBeforeYear year + 365 ≤ daysBeforeYear (year + 1) := by
  unfold daysBeforeYear
  omega

theorem daysBeforeYear_succ_le (year : Int) :
    daysBeforeYear (year + 1) ≤ daysBeforeYear year + 366 := by
  unfold daysBeforeYear
  omega

theorem daysBeforeYear_succ (year : Int) :
    daysBeforeYear (year + 1) =
      daysBeforeYear year + 365 + (if isLeap year then 1 else 0) := by
  unfold daysBeforeYear isLeap
  split
  · rename_i h
    simp only [Bool.and_eq_true, beq_iff_eq, Bool.or_eq_true, bne_iff_ne] at h
    omega
  · rename_i h
    simp only [Bool.and_eq_true, beq_iff_eq, Bool.or_eq_true, bne_iff_ne] at h
    omega

theorem daysBeforeYear_mono {y z : Int} (h : y ≤ z) :
    daysBeforeYear y ≤ daysBeforeYear z := by
  unfold daysBeforeYear
  omega

/-- The cycles of `yearOf`: a day is a number of whole 400, 100, 4 and 1 year
cycles and a rest, which only in a leap year is the 366th day. -/
theorem yearOf_cycles (ordinal : Int) :
    ∃ a b c d r, yearOf ordinal = 400 * a + 100 * b + 4 * c + d + 1 ∧
      ordinal = 146097 * a + 36524 * b + 1461 * c + 365 * d + r + 1 ∧
      0 ≤ b ∧ b ≤ 3 ∧ 0 ≤ c ∧ c ≤ 24 ∧ 0 ≤ d ∧ d ≤ 3 ∧ 0 ≤ r ∧
      (r ≤ 364 ∨ r = 365 ∧ d = 3 ∧ (c ≤ 23 ∨ b = 3)) := by
  refine ⟨(ordinal - 1) / 146097, min ((ordinal - 1) % 146097 / 36524) 3,
    ((ordinal - 1) % 146097 - min ((ordinal - 1) % 146097 / 36524) 3 * 36524) / 1461,
    min (((ordinal - 1) % 146097 - min ((ordinal - 1) % 146097 / 36524) 3 * 36524)
      % 1461 / 365) 3,
    ((ordinal - 1) % 146097 - min ((ordinal - 1) % 146097 / 36524) 3 * 36524) % 1461 -
      min (((ordinal - 1) % 146097 - min ((ordinal - 1) % 146097 / 36524) 3 * 36524)
        % 1461 / 365) 3 * 365, ?_, ?_, ?_⟩
  · simp only [yearOf]
    ring
  · omega
  · omega

/-- The year found contains the day. -/
theorem yearOf_spec (ordinal : Int) :
    daysBeforeYear (yearOf ordinal) < ordinal ∧
      ordinal ≤ daysBeforeYear (yearOf ordinal + 1) := by
  obtain ⟨a, b, c, d, r, hyear, hday, hb, hb', hc, hc', hd, hd', hr, hrest⟩ :=
    yearOf_cycles ordinal
  rw [hyear]
  unfold daysBeforeYear
  have hfour : (400 * a + 100 * b + 4 * c + d) / 4 = 100 * a + 25 * b + c := by omega
  have hhundred : (400 * a + 100 * b + 4 * c + d) / 100 = 4 * a + b := by omega
  have hfourHundred : (400 * a + 100 * b + 4 * c + d) / 400 = a := by omega
  constructor <;> omega

theorem yearOf_unique {ordinal year : Int} (hlow : daysBeforeYear year < ordinal)
    (hhigh : ordinal ≤ daysBeforeYear (year + 1)) : yearOf ordinal = year := by
  obtain ⟨hl, hh⟩ := yearOf_spec ordinal
  rcases lt_trichotomy (yearOf ordinal) year with hlt | heq | hgt
  · have := daysBeforeYear_mono (show yearOf ordinal + 1 ≤ year by omega)
    omega
  · exact heq
  · have := daysBeforeYear_mono (show year + 1 ≤ yearOf ordinal by omega)
    omega

theorem yearOf_mono {m n : Int} (h : m ≤ n) : yearOf m ≤ yearOf n := by
  by_contra hlt
  have hm := (yearOf_spec m).1
  have hn := (yearOf_spec n).2
  have := daysBeforeYear_mono (show yearOf n + 1 ≤ yearOf m by omega)
  omega

/-! ## Months -/

/-- The days before the first of a month in a common year. -/
def daysBeforeMonth (month : Int) : Int :=
  if month ≤ 6 then
    if month ≤ 3 then
      if month ≤ 1 then 0 else if month = 2 then 31 else 59
    else if month = 4 then 90 else if month = 5 then 120 else 151
  else if month ≤ 9 then
    if month = 7 then 181 else if month = 8 then 212 else 243
  else if month ≤ 11 then
    if month = 10 then 273 else 304
  else if month = 12 then 334 else 365

/-- `_days_before_month`: the leap day counts from March on. -/
def daysBeforeMonthIn (leap : Bool) (month : Int) : Int :=
  daysBeforeMonth month + if leap && decide (2 < month) then 1 else 0

/-- The month of the `day`-th day of a common year. -/
def monthOfDay (day : Int) : Int :=
  if day ≤ 181 then
    if day ≤ 90 then
      if day ≤ 31 then 1 else if day ≤ 59 then 2 else 3
    else if day ≤ 120 then 4 else if day ≤ 151 then 5 else 6
  else if day ≤ 273 then
    if day ≤ 212 then 7 else if day ≤ 243 then 8 else 9
  else if day ≤ 334 then
    if day ≤ 304 then 10 else 11
  else 12

/-- February 29th belongs to February; later days of a leap year have the
month of the day before in a common year. -/
def monthOfDayIn (leap : Bool) (day : Int) : Int :=
  if leap && decide (59 < day) then
    if day = 60 then 2 else monthOfDay (day - 1)
  else monthOfDay day

def monthOf (ordinal : Int) : Int :=
  monthOfDayIn (isLeap (yearOf ordinal)) (ordinal - daysBeforeYear (yearOf ordinal))

theorem monthOfDay_range (day : Int) : 1 ≤ monthOfDay day ∧ monthOfDay day ≤ 12 := by
  unfold monthOfDay
  omega

theorem monthOfDayIn_range (leap : Bool) (day : Int) :
    1 ≤ monthOfDayIn leap day ∧ monthOfDayIn leap day ≤ 12 := by
  have hday := monthOfDay_range day
  have hprevious := monthOfDay_range (day - 1)
  unfold monthOfDayIn
  split_ifs <;> omega

theorem monthOfDay_mono {m n : Int} (h : m ≤ n) : monthOfDay m ≤ monthOfDay n := by
  unfold monthOfDay
  omega

/-- The month found contains the day of a common year. -/
theorem monthOfDay_spec {day : Int} (hlow : 1 ≤ day) (hhigh : day ≤ 365) :
    daysBeforeMonth (monthOfDay day) < day ∧
      day ≤ daysBeforeMonth (monthOfDay day + 1) := by
  unfold monthOfDay
  split_ifs <;> simp only [daysBeforeMonth] <;> norm_num <;> omega

/-- Before March the days of the month do not depend on the year. -/
theorem monthOfDay_le_two_iff (day : Int) : monthOfDay day ≤ 2 ↔ day ≤ 59 := by
  unfold monthOfDay
  omega

theorem monthOfDayIn_mono {leap : Bool} {m n : Int} (h : m ≤ n) :
    monthOfDayIn leap m ≤ monthOfDayIn leap n := by
  have hm := monthOfDay_le_two_iff m
  have hn := monthOfDay_le_two_iff n
  have hn' := monthOfDay_le_two_iff (n - 1)
  have hmono := monthOfDay_mono h
  have hmono' := monthOfDay_mono (show m - 1 ≤ n - 1 by omega)
  cases leap
  · simpa [monthOfDayIn] using hmono
  · simp only [monthOfDayIn, Bool.true_and, decide_eq_true_eq]
    split_ifs <;> omega

/-- The month found contains the day of the year. -/
theorem monthOfDayIn_spec {leap : Bool} {day : Int} (hlow : 1 ≤ day)
    (hhigh : day ≤ 365 + (if leap then 1 else 0)) :
    daysBeforeMonthIn leap (monthOfDayIn leap day) < day ∧
      day ≤ daysBeforeMonthIn leap (monthOfDayIn leap day + 1) := by
  cases leap
  · simpa [monthOfDayIn, daysBeforeMonthIn] using
      monthOfDay_spec hlow (by simpa using hhigh)
  · simp only [if_true] at hhigh
    simp only [monthOfDayIn, daysBeforeMonthIn, Bool.true_and, decide_eq_true_eq]
    have hmonth := monthOfDay_le_two_iff day
    have hmonth' := monthOfDay_le_two_iff (day - 1)
    by_cases hlate : 59 < day
    · by_cases hleapDay : day = 60
      · simp [hleapDay, daysBeforeMonth]
      · have hspec := @monthOfDay_spec (day - 1) (by omega) (by omega)
        simp only [if_pos hlate, if_neg hleapDay]
        constructor <;> split_ifs <;> omega
    · have hspec := monthOfDay_spec hlow (by omega)
      simp only [if_neg hlate]
      constructor <;> split_ifs <;> omega

/-! ## ISO weeks -/

/-- `_isoweek1monday`: the Monday of the week with the year's first Thursday. -/
def isoWeek1Monday (year : Int) : Int :=
  let firstDay := daysBeforeYear year + 1
  let firstWeekday := (firstDay + 6) % 7
  if 3 < firstWeekday then firstDay - firstWeekday + 7 else firstDay - firstWeekday

/-- The year of `isocalendar`. -/
def isoYear (ordinal : Int) : Int :=
  let year := yearOf ordinal
  if ordinal < isoWeek1Monday year then year - 1
  else if isoWeek1Monday (year + 1) ≤ ordinal then year + 1
  else year

/-- The week of `isocalendar`. -/
def isoWeek (ordinal : Int) : Int :=
  (ordinal - isoWeek1Monday (isoYear ordinal)) / 7 + 1

theorem isoWeek1Monday_bounds (year : Int) :
    daysBeforeYear year - 2 ≤ isoWeek1Monday year ∧
      isoWeek1Monday year ≤ daysBeforeYear year + 4 := by
  unfold isoWeek1Monday
  dsimp only
  split_ifs <;> omega

theorem isoWeek1Monday_monday (year : Int) : isoWeek1Monday year % 7 = 1 := by
  unfold isoWeek1Monday
  dsimp only
  split_ifs <;> omega

theorem isoWeek1Monday_lt_succ (year : Int) :
    isoWeek1Monday year < isoWeek1Monday (year + 1) := by
  have hthis := isoWeek1Monday_bounds year
  have hnext := isoWeek1Monday_bounds (year + 1)
  have hyear := daysBeforeYear_lt_succ year
  omega

theorem isoWeek1Monday_mono {y z : Int} (h : y ≤ z) :
    isoWeek1Monday y ≤ isoWeek1Monday z := by
  obtain ⟨n, rfl⟩ := Int.le.dest h
  clear h
  induction n with
  | zero => simp
  | succ n ih =>
      have hlt := isoWeek1Monday_lt_succ (y + n)
      rw [Nat.cast_succ, ← add_assoc]
      omega

/-- An ISO year runs from its first Monday to that of the next one. -/
theorem isoYear_spec (ordinal : Int) :
    isoWeek1Monday (isoYear ordinal) ≤ ordinal ∧
      ordinal < isoWeek1Monday (isoYear ordinal + 1) := by
  have hyear := yearOf_spec ordinal
  unfold isoYear
  dsimp only
  split_ifs with hbefore hafter
  · have hprevious := isoWeek1Monday_bounds (yearOf ordinal - 1)
    have hlength := daysBeforeYear_lt_succ (yearOf ordinal - 1)
    rw [sub_add_cancel] at hlength ⊢
    omega
  · have hnext := isoWeek1Monday_bounds (yearOf ordinal + 1 + 1)
    have hlength := daysBeforeYear_lt_succ (yearOf ordinal + 1)
    omega
  · omega

theorem isoYear_mono {m n : Int} (h : m ≤ n) : isoYear m ≤ isoYear n := by
  by_contra hlt
  have hm := (isoYear_spec m).1
  have hn := (isoYear_spec n).2
  have := isoWeek1Monday_mono (show isoYear n + 1 ≤ isoYear m by omega)
  omega

/-! ## Period keys -/

/-- The resolutions of `ROLLUP_CONFIG`; `resolution_of_stem` reads the one of a
series from its name. -/
inductive Resolution where
  | raw
  | fiveMinute
  | hour
  deriving DecidableEq, Repr

/-- The key of a segment file: `2026W07`, `202602` or `2026`.  `part` is the
week, the month, or 0 for a yearly segment. -/
structure PeriodKey where
  year : Int
  part : Int
  deriving Repr

theorem PeriodKey.toLex_injective :
    Function.Injective fun key : PeriodKey => toLex (key.year, key.part) := by
  rintro ⟨year, part⟩ ⟨year', part'⟩ heq
  simpa using heq

/-- Within one resolution the order of the keys is the order of the periods. -/
instance : LinearOrder PeriodKey :=
  LinearOrder.lift' (fun key : PeriodKey => toLex (key.year, key.part))
    PeriodKey.toLex_injective

theorem PeriodKey.le_iff {key key' : PeriodKey} :
    key ≤ key' ↔ key.year < key'.year ∨ key.year = key'.year ∧ key.part ≤ key'.part := by
  change toLex (key.year, key.part) ≤ toLex (key'.year, key'.part) ↔ _
  rw [Prod.Lex.le_iff]
  rfl

/-- `period_key`: the segment key of the period containing `t`. -/
def periodKey : Resolution → Int → PeriodKey
  | .raw, t => ⟨isoYear (ordinalOf t), isoWeek (ordinalOf t)⟩
  | .fiveMinute, t => ⟨yearOf (ordinalOf t), monthOf (ordinalOf t)⟩
  | .hour, t => ⟨yearOf (ordinalOf t), 0⟩

/-- `datetime(year, month, 1)`. -/
def monthStart (year month : Int) : Int :=
  startOfDay (daysBeforeYear year + daysBeforeMonthIn (isLeap year) month + 1)

/-- `period_bounds`: the half-open interval of a segment key. -/
def periodBounds : Resolution → PeriodKey → Int × Int
  | .raw, key =>
      let start := startOfDay (isoWeek1Monday key.year + (key.part - 1) * 7)
      (start, start + days 7)
  | .fiveMinute, key =>
      (monthStart key.year key.part,
        monthStart (key.year + if key.part = 12 then 1 else 0) (key.part % 12 + 1))
  | .hour, key => (monthStart key.year 1, monthStart (key.year + 1) 1)

/-- The first of the following month, which for December is January 1st, is the
day after the last day of the month. -/
theorem nextMonth_start (year : Int) {month : Int} (hmonth : 1 ≤ month ∧ month ≤ 12) :
    monthStart (year + if month = 12 then 1 else 0) (month % 12 + 1) =
      startOfDay (daysBeforeYear year + daysBeforeMonthIn (isLeap year) (month + 1) + 1) := by
  by_cases hdecember : month = 12
  · subst hdecember
    have hjanuary : daysBeforeMonthIn (isLeap (year + 1)) (12 % 12 + 1) = 0 := by
      simp [daysBeforeMonthIn, daysBeforeMonth]
    have hwholeYear : daysBeforeMonthIn (isLeap year) (12 + 1) =
        365 + if isLeap year then 1 else 0 := by
      simp [daysBeforeMonthIn, daysBeforeMonth]
    rw [if_pos rfl, monthStart, hjanuary, hwholeYear, daysBeforeYear_succ, add_zero,
      add_assoc (daysBeforeYear year)]
  · rw [if_neg hdecember, Int.emod_eq_of_lt (by omega) (by omega), add_zero]
    rfl

/-- The day of the year of a date. -/
theorem dayOfYear_range (ordinal : Int) :
    1 ≤ ordinal - daysBeforeYear (yearOf ordinal) ∧
      ordinal - daysBeforeYear (yearOf ordinal) ≤
        365 + (if isLeap (yearOf ordinal) then 1 else 0) := by
  have hyear := yearOf_spec ordinal
  have hlength := daysBeforeYear_succ (yearOf ordinal)
  omega

/-- Later times have later keys, or the same. -/
theorem periodKey_mono (resolution : Resolution) {t u : Int} (h : t ≤ u) :
    periodKey resolution t ≤ periodKey resolution u := by
  have hday := ordinalOf_mono h
  cases resolution with
  | raw =>
      have hyear := isoYear_mono hday
      rw [PeriodKey.le_iff]
      rcases hyear.lt_or_eq with hlt | heq
      · exact Or.inl hlt
      · refine Or.inr ⟨heq, ?_⟩
        simp only [periodKey, isoWeek, heq]
        omega
  | fiveMinute =>
      have hyear := yearOf_mono hday
      rw [PeriodKey.le_iff]
      rcases hyear.lt_or_eq with hlt | heq
      · exact Or.inl hlt
      · refine Or.inr ⟨heq, ?_⟩
        simp only [periodKey, monthOf, heq]
        exact monthOfDayIn_mono (by omega)
  | hour =>
      have hyear := yearOf_mono hday
      rw [PeriodKey.le_iff]
      rcases hyear.lt_or_eq with hlt | heq
      · exact Or.inl hlt
      · exact Or.inr ⟨heq, le_refl _⟩

/-- A period contains every time that has its key. -/
theorem periodBounds_contains (resolution : Resolution) (t : Int) :
    (periodBounds resolution (periodKey resolution t)).1 ≤ t ∧
      t < (periodBounds resolution (periodKey resolution t)).2 := by
  cases resolution with
  | raw =>
      have hyear := isoYear_spec (ordinalOf t)
      have hlow := startOfDay_le t
      have hhigh := lt_startOfDay_succ t
      simp only [periodBounds, periodKey, isoWeek, startOfDay, days, microsPerDay] at *
      constructor <;> omega
  | fiveMinute =>
      obtain ⟨hlow, hhigh⟩ := dayOfYear_range (ordinalOf t)
      obtain ⟨hfrom, hto⟩ := monthOfDayIn_spec hlow hhigh
      have hrange := monthOfDayIn_range (isLeap (yearOf (ordinalOf t)))
        (ordinalOf t - daysBeforeYear (yearOf (ordinalOf t)))
      refine ⟨startOfDay_le_of_le ?_, ?_⟩
      · simp only [periodKey, monthOf]
        omega
      · have hend := nextMonth_start (yearOf (ordinalOf t)) hrange
        change t < monthStart (yearOf (ordinalOf t) + if monthOfDayIn _ _ = 12 then 1 else 0)
          (monthOfDayIn _ _ % 12 + 1)
        rw [hend]
        exact lt_startOfDay_of_lt (by omega)
  | hour =>
      have hyear := yearOf_spec (ordinalOf t)
      simp only [periodBounds, periodKey, monthStart]
      refine ⟨startOfDay_le_of_le ?_, lt_startOfDay_of_lt ?_⟩
      · simp [daysBeforeMonthIn, daysBeforeMonth]
        omega
      · simp [daysBeforeMonthIn, daysBeforeMonth]
        omega

end Justup.Store
