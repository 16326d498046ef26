import Justup.Lib.Tiling
import Justup.Restore.Releases
import Justup.Db.Datetime

/-!
# Periods and the names of segments

The key of a period as the text that stands in file names, the bounds that are
read back from such a text, and the names of segment files.  The periods of a
resolution tile time.  The value of a decimal digit is a parameter, since `\d` and
`int` accept the digits of every script.
-/

namespace Justup.Store

open Justup.Lib.Tiling
open Justup.Db (digit_isDigit)
open Justup.Restore (Decimal)
open JsonLine

/-! ## Keys as texts -/

/-- `2026W07`, `202602` or `2026`; years have four digits. -/
def keyText (resolution : Resolution) (key : PeriodKey) : Text :=
  match resolution with
  | .raw => four key.year.toNat ++ 'W' :: two key.part.toNat
  | .fiveMinute => four key.year.toNat ++ two key.part.toNat
  | .hour => four key.year.toNat

/-- `period_key` -/
def periodKeyText (resolution : Resolution) (t : Int) : Text :=
  keyText resolution (periodKey resolution t)

/-- `int` of a text of digits. -/
def intOf (decimal : Decimal) (digits : Text) : Option Int :=
  if digits ≠ [] ∧ digits.all decimal.isDigit then some (decimal.numberOf digits) else none

/-- ISO years have 53 weeks when they start on a Thursday, and leap years also
when they start on a Wednesday. -/
def isIsoWeek (year week : Int) : Bool :=
  let firstWeekday := (daysBeforeYear year + 1) % 7
  0 < week && week < 53 || week = 53 && (firstWeekday = 4 || firstWeekday = 3 && isLeap year)

/-- `datetime.fromisocalendar(year, week, 1)` -/
def fromIsoCalendar (year week : Int) : Option Int :=
  if 1 ≤ year ∧ year ≤ 9999 ∧ isIsoWeek year week then
    some (startOfDay (isoWeek1Monday year + (week - 1) * 7))
  else none

/-- `datetime(year, month, 1)` -/
def datetimeFirst (year month : Int) : Option Int :=
  if 1 ≤ year ∧ year ≤ 9999 ∧ 1 ≤ month ∧ month ≤ 12 then some (monthStart year month) else none

/-- `period_bounds`: none when it raises. -/
def periodBoundsOf (decimal : Decimal) (key : Text) : Option (Int × Int) :=
  if 'W' ∈ key then do
    let year ← intOf decimal (key.take 4)
    let week ← intOf decimal (key.drop 5)
    let start ← fromIsoCalendar year week
    if representable (start + days 7) then some (start, start + days 7) else none
  else if key.length = 6 then do
    let year ← intOf decimal (key.take 4)
    let month ← intOf decimal (key.drop 4)
    let stop ← datetimeFirst (year + if month = 12 then 1 else 0) (month % 12 + 1)
    let start ← datetimeFirst year month
    some (start, stop)
  else do
    let year ← intOf decimal key
    let start ← datetimeFirst year 1
    let stop ← datetimeFirst (year + 1) 1
    some (start, stop)

/-! ## Names of segments -/

/-- `SEGMENT_SUFFIX` -/
def segmentSuffix : Text := ".jsonl.gz".toList

/-- The name of `segment_path`. -/
def segmentName (stem key : Text) : Text := stem ++ '.' :: (key ++ segmentSuffix)

/-- `[A-Za-z0-9_-]` -/
def isStemChar (c : Char) : Bool := c.isAlphanum || c = '_' || c = '-'

/-- The alternatives of the key in `_SEGMENT_RE`, each with its length. -/
def keyAlternatives (decimal : Decimal) : List (ℕ × (Text → Bool)) :=
  [(7, fun key => (key.take 4).all decimal.isDigit && key.getD 4 ' ' = 'W' &&
      (key.drop 5).all decimal.isDigit),
    (6, fun key => key.all decimal.isDigit), (4, fun key => key.all decimal.isDigit)]

/-- What may follow the key; the dollar sign also matches before a last newline. -/
def endsName (tail : Text) : Bool := tail = segmentSuffix || tail = segmentSuffix ++ ['\n']

/-- `_parse_name`.  A stem has no point, so it ends at the first one. -/
def parseName (decimal : Decimal) (name : Text) : Option (Text × Text) :=
  let stem := name.takeWhile isStemChar
  match name.dropWhile isStemChar with
  | '.' :: rest =>
      if stem = [] then none
      else
        ((keyAlternatives decimal).find? fun alternative =>
            (rest.take alternative.1).length = alternative.1 &&
              alternative.2 (rest.take alternative.1) && endsName (rest.drop alternative.1)).map
          fun alternative => (stem, rest.take alternative.1)
  | _ => none

/-! ## The periods tile time -/

theorem startOfDay_le_iff (ordinal t : Int) : startOfDay ordinal ≤ t ↔ ordinal ≤ ordinalOf t := by
  unfold startOfDay ordinalOf microsPerDay
  omega

theorem lt_startOfDay_iff (ordinal t : Int) : t < startOfDay ordinal ↔ ordinalOf t < ordinal := by
  unfold startOfDay ordinalOf microsPerDay
  omega

theorem startOfDay_add_days (ordinal n : Int) :
    startOfDay ordinal + days n = startOfDay (ordinal + n) := by
  unfold startOfDay days
  ring

theorem isoYear_unique {ordinal year : Int} (hlow : isoWeek1Monday year ≤ ordinal)
    (hhigh : ordinal < isoWeek1Monday (year + 1)) : isoYear ordinal = year := by
  obtain ⟨hl, hh⟩ := isoYear_spec ordinal
  rcases lt_trichotomy (isoYear ordinal) year with hlt | heq | hgt
  · have := isoWeek1Monday_mono (show isoYear ordinal + 1 ≤ year by omega)
    omega
  · exact heq
  · have := isoWeek1Monday_mono (show year + 1 ≤ isoYear ordinal by omega)
    omega

/-- A day of the same ISO week, counted from its Monday. -/
theorem isoWeek_unique {ordinal other : Int}
    (hlow : isoWeek1Monday (isoYear ordinal) + (isoWeek ordinal - 1) * 7 ≤ other)
    (hhigh : other < isoWeek1Monday (isoYear ordinal) + (isoWeek ordinal - 1) * 7 + 7) :
    isoYear other = isoYear ordinal ∧ isoWeek other = isoWeek ordinal := by
  have hspec := isoYear_spec ordinal
  have hthis := isoWeek1Monday_monday (isoYear ordinal)
  have hnext := isoWeek1Monday_monday (isoYear ordinal + 1)
  have hweek : isoWeek ordinal = (ordinal - isoWeek1Monday (isoYear ordinal)) / 7 + 1 := rfl
  have hyear : isoYear other = isoYear ordinal := by
    apply isoYear_unique
    · omega
    · omega
  refine ⟨hyear, ?_⟩
  have hother : isoWeek other = (other - isoWeek1Monday (isoYear other)) / 7 + 1 := rfl
  rw [hyear] at hother
  omega

/-- The month of a day is the one whose days it is among. -/
theorem monthOfDayIn_unique {leap : Bool} {day month : Int} (hmonth : 1 ≤ month ∧ month ≤ 12)
    (hlow : daysBeforeMonthIn leap month < day) (hhigh : day ≤ daysBeforeMonthIn leap (month + 1)) :
    monthOfDayIn leap day = month := by
  obtain ⟨hfirst, hlast⟩ := hmonth
  cases leap with
  | false =>
      simp only [daysBeforeMonthIn, monthOfDayIn, Bool.false_and, Bool.false_eq_true, if_false,
        add_zero] at hlow hhigh ⊢
      unfold daysBeforeMonth at hlow hhigh
      unfold monthOfDay
      omega
  | true =>
      simp only [daysBeforeMonthIn, monthOfDayIn, Bool.true_and, decide_eq_true_eq] at hlow hhigh ⊢
      unfold daysBeforeMonth at hlow hhigh
      unfold monthOfDay
      omega

theorem daysBeforeMonthIn_bounds (leap : Bool) {month : Int} (hmonth : 1 ≤ month ∧ month ≤ 12) :
    0 ≤ daysBeforeMonthIn leap month ∧
      daysBeforeMonthIn leap (month + 1) ≤ 365 + if leap then 1 else 0 := by
  obtain ⟨hfirst, hlast⟩ := hmonth
  unfold daysBeforeMonthIn daysBeforeMonth
  cases leap <;> simp only [Bool.false_and, Bool.true_and, Bool.false_eq_true, if_false, if_true,
    decide_eq_true_eq] <;> omega

/-- A day of the same month of the same year. -/
theorem monthOf_unique {ordinal other : Int}
    (hlow : daysBeforeYear (yearOf ordinal) +
      daysBeforeMonthIn (isLeap (yearOf ordinal)) (monthOf ordinal) < other)
    (hhigh : other ≤ daysBeforeYear (yearOf ordinal) +
      daysBeforeMonthIn (isLeap (yearOf ordinal)) (monthOf ordinal + 1)) :
    yearOf other = yearOf ordinal ∧ monthOf other = monthOf ordinal := by
  have hmonth : 1 ≤ monthOf ordinal ∧ monthOf ordinal ≤ 12 := monthOfDayIn_range _ _
  have hbounds := daysBeforeMonthIn_bounds (isLeap (yearOf ordinal)) hmonth
  have hlength := daysBeforeYear_succ (yearOf ordinal)
  have hyear : yearOf other = yearOf ordinal := by
    apply yearOf_unique
    · omega
    · omega
  refine ⟨hyear, ?_⟩
  have hother : monthOf other = monthOfDayIn (isLeap (yearOf other))
    (other - daysBeforeYear (yearOf other)) := rfl
  rw [hother, hyear]
  apply monthOfDayIn_unique hmonth
  · omega
  · omega

/-- The periods of a resolution tile time. -/
theorem periods_tile (resolution : Resolution) :
    Tiles (periodKey resolution) (periodBounds resolution) where
  contains := periodBounds_contains resolution
  same := by
    intro t u hlow hhigh
    cases resolution with
    | raw =>
        simp only [periodBounds, periodKey] at hlow hhigh
        rw [startOfDay_le_iff] at hlow
        rw [startOfDay_add_days, lt_startOfDay_iff] at hhigh
        obtain ⟨hyear, hweek⟩ := isoWeek_unique hlow hhigh
        simp only [periodKey, hyear, hweek]
    | fiveMinute =>
        have hmonth : 1 ≤ monthOf (ordinalOf t) ∧ monthOf (ordinalOf t) ≤ 12 :=
          monthOfDayIn_range _ _
        simp only [periodBounds, periodKey] at hlow hhigh
        rw [monthStart, startOfDay_le_iff] at hlow
        replace hhigh := hhigh.trans_eq (nextMonth_start _ hmonth)
        rw [lt_startOfDay_iff] at hhigh
        obtain ⟨hyear, hsame⟩ := monthOf_unique (Int.add_one_le_iff.mp hlow)
          (Int.lt_add_one_iff.mp hhigh)
        simp only [periodKey, hyear, hsame]
    | hour =>
        simp only [periodBounds, periodKey, monthStart, startOfDay_le_iff, lt_startOfDay_iff]
          at hlow hhigh
        have hjanuary (leap : Bool) : daysBeforeMonthIn leap 1 = 0 := by
          simp [daysBeforeMonthIn, daysBeforeMonth]
        rw [hjanuary] at hlow hhigh
        have hyear : yearOf (ordinalOf u) = yearOf (ordinalOf t) := by
          apply yearOf_unique
          · omega
          · omega
        simp only [periodKey, hyear]

/-! ## Bounds read back from a key -/

/-- The years 1 to 9998. -/
def InYears (t : Int) : Prop := 1 ≤ yearOf (ordinalOf t) ∧ yearOf (ordinalOf t) ≤ 9998

theorem ordinal_of_inYears {t : Int} (ht : InYears t) :
    1 ≤ ordinalOf t ∧ ordinalOf t ≤ daysBeforeYear 9999 := by
  have hspec := yearOf_spec (ordinalOf t)
  have hlow := daysBeforeYear_mono ht.1
  have hhigh := daysBeforeYear_mono (show yearOf (ordinalOf t) + 1 ≤ 9999 by have := ht.2; omega)
  have hfirst : daysBeforeYear 1 = 0 := by decide
  omega

theorem isoYear_range {t : Int} (ht : InYears t) :
    1 ≤ isoYear (ordinalOf t) ∧ isoYear (ordinalOf t) ≤ 9999 := by
  obtain ⟨hlow, hhigh⟩ := ordinal_of_inYears ht
  obtain ⟨hstart, hstop⟩ := isoYear_spec (ordinalOf t)
  have hfirst : isoWeek1Monday 1 = 1 := by decide
  have hlast : daysBeforeYear 9999 < isoWeek1Monday 10000 := by decide
  constructor
  · by_contra hbefore
    have := isoWeek1Monday_mono (show isoYear (ordinalOf t) + 1 ≤ 1 by omega)
    omega
  · by_contra hafter
    have := isoWeek1Monday_mono (show 10000 ≤ isoYear (ordinalOf t) by omega)
    omega

/-- An ISO year has 52 weeks, or 53 when `fromisocalendar` says so. -/
theorem isoWeek1Monday_succ (year : Int) :
    isoWeek1Monday (year + 1) = isoWeek1Monday year + 364 ∨
      isoWeek1Monday (year + 1) = isoWeek1Monday year + 371 ∧ isIsoWeek year 53 = true := by
  have hlength := daysBeforeYear_succ year
  have hleap : (if isLeap year then (1 : Int) else 0) = 0 ∧ isLeap year = false ∨
      (if isLeap year then (1 : Int) else 0) = 1 ∧ isLeap year = true := by
    cases isLeap year <;> simp
  unfold isoWeek1Monday isIsoWeek
  simp only [Bool.or_eq_true, Bool.and_eq_true, decide_eq_true_eq]
  obtain ⟨hvalue, hleap⟩ | ⟨hvalue, hleap⟩ := hleap
  · rw [hvalue] at hlength
    simp only [hleap, Bool.false_eq_true, and_false, or_false, lt_self_iff_false, false_or,
      true_and]
    split_ifs <;> omega
  · rw [hvalue] at hlength
    simp only [hleap, and_true, lt_self_iff_false, and_false, false_or, true_and]
    split_ifs <;> omega

theorem isIsoWeek_isoWeek (ordinal : Int) :
    isIsoWeek (isoYear ordinal) (isoWeek ordinal) = true ∧ isoWeek ordinal < 100 := by
  have hspec := isoYear_spec ordinal
  have hweek : isoWeek ordinal = (ordinal - isoWeek1Monday (isoYear ordinal)) / 7 + 1 := rfl
  obtain hshort | ⟨hlong, hallowed⟩ := isoWeek1Monday_succ (isoYear ordinal)
  · refine ⟨?_, by omega⟩
    simp only [isIsoWeek, Bool.or_eq_true, Bool.and_eq_true, decide_eq_true_eq]
    exact .inl (by omega)
  · refine ⟨?_, by omega⟩
    by_cases hlast : isoWeek ordinal = 53
    · rw [hlast]
      exact hallowed
    · simp only [isIsoWeek, Bool.or_eq_true, Bool.and_eq_true, decide_eq_true_eq]
      exact .inl (by omega)

variable (decimal : Decimal)

theorem value_digit (n : ℕ) : decimal.value (digit n) = some (n % 10) := by
  have hascii : ∀ d : Fin 10, (Char.ofNat (48 + d.val)).toNat < 128 ∧
      (Char.ofNat (48 + d.val)).isDigit = true ∧
        (Char.ofNat (48 + d.val)).toNat - '0'.toNat = d.val := by decide
  obtain ⟨hsmall, hdigit, hvalue⟩ := hascii ⟨n % 10, Nat.mod_lt n (by decide)⟩
  rw [decimal.ascii (digit n) hsmall]
  exact (if_pos hdigit).trans (congrArg some hvalue)

theorem isDigit_digit (n : ℕ) : decimal.isDigit (digit n) = true := by
  rw [Decimal.isDigit, value_digit]
  rfl

theorem intOf_two {n : ℕ} (hn : n < 100) : intOf decimal (two n) = some (n : Int) := by
  rw [intOf, if_pos ⟨by simp [two], by simp [two, isDigit_digit]⟩]
  simp only [Decimal.numberOf, two, List.foldl_cons, List.foldl_nil, value_digit,
    Option.getD_some]
  congr 2
  omega

theorem intOf_four {n : ℕ} (hn : n < 10000) : intOf decimal (four n) = some (n : Int) := by
  rw [intOf, if_pos ⟨by simp [four], by simp [four, isDigit_digit]⟩]
  simp only [Decimal.numberOf, four, List.foldl_cons, List.foldl_nil, value_digit,
    Option.getD_some]
  congr 2
  omega

theorem digit_ne_w (n : ℕ) : digit n ≠ 'W' := by
  intro hw
  have hdigit := digit_isDigit n
  rw [hw] at hdigit
  cases hdigit

theorem w_notMem_four (n : ℕ) : 'W' ∉ four n := by
  simp [four, (digit_ne_w _).symm]

theorem w_notMem_two (n : ℕ) : 'W' ∉ two n := by
  simp [two, (digit_ne_w _).symm]

/-- The last day of a year before 9999 and a week more are before the year 10000. -/
theorem representable_stop {ordinal : Int} (hlow : 1 ≤ ordinal)
    (hhigh : ordinal ≤ daysBeforeYear 9999 + 7) : representable (startOfDay ordinal) = true := by
  have hday : ordinalOf (startOfDay ordinal) = ordinal := by
    unfold ordinalOf startOfDay microsPerDay
    omega
  have hfirst := yearOf_mono hlow
  have hlast := yearOf_mono hhigh
  have hone : yearOf 1 = 1 := by decide
  have hend : yearOf (daysBeforeYear 9999 + 7) = 9999 := by decide
  simp only [representable, hday, Bool.and_eq_true, decide_eq_true_eq]
  omega

/-- The bounds read back from the key of a time. -/
theorem periodBoundsOf_periodKeyText (resolution : Resolution) {t : Int} (ht : InYears t) :
    periodBoundsOf decimal (periodKeyText resolution t) =
      some (periodBounds resolution (periodKey resolution t)) := by
  cases resolution with
  | raw =>
      obtain ⟨hyear, hyear'⟩ := isoYear_range ht
      obtain ⟨hweek, hweek'⟩ := isIsoWeek_isoWeek (ordinalOf t)
      obtain ⟨hspec, hspec'⟩ := isoYear_spec (ordinalOf t)
      have hordinal := ordinal_of_inYears ht
      have hvalue : isoWeek (ordinalOf t) =
          (ordinalOf t - isoWeek1Monday (isoYear (ordinalOf t))) / 7 + 1 := rfl
      have hmonday := isoWeek1Monday_mono hyear
      have hfirst : isoWeek1Monday 1 = 1 := by decide
      obtain ⟨year, hcast⟩ := Int.eq_ofNat_of_zero_le (show 0 ≤ isoYear (ordinalOf t) by omega)
      obtain ⟨week, hcast'⟩ := Int.eq_ofNat_of_zero_le (show 0 ≤ isoWeek (ordinalOf t) by omega)
      have hkey : periodKeyText .raw t = four year ++ 'W' :: two week := by
        simp [periodKeyText, keyText, periodKey, hcast, hcast']
      have htake : (four year ++ 'W' :: two week).take 4 = four year := rfl
      have hdrop : (four year ++ 'W' :: two week).drop 5 = two week := rfl
      have hstop : representable (startOfDay (isoWeek1Monday (isoYear (ordinalOf t)) +
          (isoWeek (ordinalOf t) - 1) * 7) + days 7) = true := by
        rw [startOfDay_add_days]
        apply representable_stop
        · omega
        · omega
      rw [hkey, periodBoundsOf, if_pos (by simp), htake, hdrop, intOf_four decimal (by omega),
        intOf_two decimal (by omega)]
      simp only [Option.bind_eq_bind, Option.bind_some, fromIsoCalendar]
      rw [← hcast, ← hcast', if_pos ⟨hyear, hyear', hweek⟩, Option.bind_some, if_pos hstop]
      rfl
  | fiveMinute =>
      obtain ⟨hyear, hyear'⟩ := ht
      have hmonth : 1 ≤ monthOf (ordinalOf t) ∧ monthOf (ordinalOf t) ≤ 12 :=
        monthOfDayIn_range _ _
      obtain ⟨year, hcast⟩ := Int.eq_ofNat_of_zero_le (show 0 ≤ yearOf (ordinalOf t) by omega)
      obtain ⟨month, hcast'⟩ := Int.eq_ofNat_of_zero_le (show 0 ≤ monthOf (ordinalOf t) by omega)
      have hkey : periodKeyText .fiveMinute t = four year ++ two month := by
        simp [periodKeyText, keyText, periodKey, hcast, hcast']
      have hw : 'W' ∉ four year ++ two month := by
        rw [List.mem_append, not_or]
        exact ⟨w_notMem_four year, w_notMem_two month⟩
      have htake : (four year ++ two month).take 4 = four year := rfl
      have hdrop : (four year ++ two month).drop 4 = two month := rfl
      have hlength : (four year ++ two month).length = 6 := rfl
      rw [hkey, periodBoundsOf, if_neg hw, if_pos hlength, htake, hdrop,
        intOf_four decimal (by omega), intOf_two decimal (by omega)]
      simp only [Option.bind_eq_bind, Option.bind_some, datetimeFirst]
      rw [← hcast, ← hcast']
      have hnext : 1 ≤ yearOf (ordinalOf t) + (if monthOf (ordinalOf t) = 12 then 1 else 0) ∧
          yearOf (ordinalOf t) + (if monthOf (ordinalOf t) = 12 then 1 else 0) ≤ 9999 := by
        split_ifs <;> omega
      rw [if_pos ⟨hnext.1, hnext.2, by omega⟩, Option.bind_some, if_pos (by omega)]
      rfl
  | hour =>
      obtain ⟨hyear, hyear'⟩ := ht
      obtain ⟨year, hcast⟩ := Int.eq_ofNat_of_zero_le (show 0 ≤ yearOf (ordinalOf t) by omega)
      have hkey : periodKeyText .hour t = four year := by
        simp [periodKeyText, keyText, periodKey, hcast]
      have hlength : (four year).length ≠ 6 := by simp [four]
      rw [hkey, periodBoundsOf, if_neg (w_notMem_four year), if_neg hlength,
        intOf_four decimal (by omega)]
      simp only [Option.bind_eq_bind, Option.bind_some, datetimeFirst]
      rw [← hcast, if_pos (by omega), if_pos (by omega)]
      rfl

/-! ## Names read back -/

/-- The resolution that the shape of a key implies. -/
def resolutionOfKey (key : Text) : Resolution :=
  if 'W' ∈ key then .raw else if key.length = 6 then .fiveMinute else .hour

theorem resolutionOfKey_periodKeyText (resolution : Resolution) (t : Int) :
    resolutionOfKey (periodKeyText resolution t) = resolution := by
  unfold resolutionOfKey periodKeyText keyText
  cases resolution with
  | raw => simp
  | fiveMinute =>
      rw [if_neg]
      · rfl
      · rw [List.mem_append, not_or]
        exact ⟨w_notMem_four _, w_notMem_two _⟩
  | hour =>
      rw [if_neg (w_notMem_four _), if_neg]
      simp [four]

theorem point_not_isStemChar : isStemChar '.' = false := by decide

theorem point_not_isDigit : decimal.isDigit '.' = false := by
  rw [Decimal.isDigit, decimal.ascii '.' (by decide)]
  rfl

/-- A stem ends at the first point. -/
theorem parseName_segmentName (resolution : Resolution) (t : Int) {stem : Text} (hstem : stem ≠ [])
    (hchars : ∀ c ∈ stem, isStemChar c = true) :
    parseName decimal (segmentName stem (periodKeyText resolution t)) =
      some (stem, periodKeyText resolution t) := by
  have htake : (segmentName stem (periodKeyText resolution t)).takeWhile isStemChar = stem := by
    rw [segmentName, List.takeWhile_append_of_pos hchars,
      List.takeWhile_cons_of_neg (by simp [point_not_isStemChar]), List.append_nil]
  have hdrop : (segmentName stem (periodKeyText resolution t)).dropWhile isStemChar =
      '.' :: (periodKeyText resolution t ++ segmentSuffix) := by
    rw [segmentName, List.dropWhile_append_of_pos hchars,
      List.dropWhile_cons_of_neg (by simp [point_not_isStemChar])]
  have hsuffix : segmentSuffix = ['.', 'j', 's', 'o', 'n', 'l', '.', 'g', 'z'] := rfl
  simp only [parseName, htake, hdrop, if_neg hstem, keyAlternatives, endsName]
  cases resolution with
  | raw =>
      simp [periodKeyText, keyText, four, two, hsuffix, isDigit_digit]
  | fiveMinute =>
      -- the seventh character is the point
      simp [periodKeyText, keyText, four, two, hsuffix, isDigit_digit, digit_ne_w]
  | hour =>
      -- the fifth character is the point
      simp [periodKeyText, keyText, four, hsuffix, isDigit_digit, point_not_isDigit]

/-! ## The whole -/

/-- A time lies in the interval of a key. -/
def InPeriod (decimal : Decimal) (key : Text) (t : Int) : Prop :=
  ∃ start stop, periodBoundsOf decimal key = some (start, stop) ∧ start ≤ t ∧ t < stop

theorem inPeriod_iff (resolution : Resolution) {t : Int} (ht : InYears t) (u : Int) :
    InPeriod decimal (periodKeyText resolution t) u ↔
      periodKey resolution u = periodKey resolution t := by
  rw [(periods_tile resolution).key_eq_iff t u, InPeriod,
    periodBoundsOf_periodKeyText decimal resolution ht]
  constructor
  · rintro ⟨start, stop, hbounds, hlow, hhigh⟩
    obtain ⟨rfl, rfl⟩ := Prod.mk.inj (Option.some.inj hbounds)
    exact ⟨hlow, hhigh⟩
  · rintro ⟨hlow, hhigh⟩
    exact ⟨_, _, rfl, hlow, hhigh⟩

/-- The text of a key says its period. -/
theorem periodKeyText_eq_iff (resolution : Resolution) {t u : Int} (ht : InYears t)
    (hu : InYears u) : periodKeyText resolution u = periodKeyText resolution t ↔
      InPeriod decimal (periodKeyText resolution t) u := by
  constructor
  · intro htext
    rw [← htext, inPeriod_iff decimal resolution hu u]
  · intro hinside
    rw [inPeriod_iff decimal resolution ht u] at hinside
    simp only [periodKeyText, hinside]

/-- Periods tile time, in every resolution and from the year 1 to 9998. -/
structure PeriodsTileTime (decimal : Decimal) : Prop where
  /-- The interval of the key of a time contains the time. -/
  contains : ∀ resolution t, InYears t → InPeriod decimal (periodKeyText resolution t) t
  /-- Two times have one key exactly when they lie in one interval. -/
  same : ∀ resolution t u, InYears t → InYears u →
    (periodKeyText resolution u = periodKeyText resolution t ↔
      InPeriod decimal (periodKeyText resolution t) u)
  /-- Intervals of different keys have no time in common. -/
  disjoint : ∀ resolution t u, InYears t → InYears u →
    periodKeyText resolution t ≠ periodKeyText resolution u →
      ∀ v, ¬ (InPeriod decimal (periodKeyText resolution t) v ∧
        InPeriod decimal (periodKeyText resolution u) v)
  /-- An interval starts where the one before it ends. -/
  meet : ∀ resolution t start stop, InYears t → InYears stop →
    periodBoundsOf decimal (periodKeyText resolution t) = some (start, stop) →
      ∃ next, periodBoundsOf decimal (periodKeyText resolution stop) = some (stop, next)
  /-- The shape of a key says its resolution. -/
  shape : ∀ resolution t, resolutionOfKey (periodKeyText resolution t) = resolution
  /-- The name of a segment says its stem and its key. -/
  names : ∀ resolution t stem, stem ≠ [] → (∀ c ∈ stem, isStemChar c = true) →
    parseName decimal (segmentName stem (periodKeyText resolution t)) =
      some (stem, periodKeyText resolution t)

theorem periods_tile_time : PeriodsTileTime decimal where
  contains resolution t ht := (inPeriod_iff decimal resolution ht t).mpr rfl
  same resolution _ _ ht hu := periodKeyText_eq_iff decimal resolution ht hu
  disjoint resolution t u ht hu hkey v := by
    rintro ⟨hfirst, hsecond⟩
    rw [inPeriod_iff decimal resolution ht] at hfirst
    rw [inPeriod_iff decimal resolution hu] at hsecond
    apply hkey
    simp only [periodKeyText, hfirst.symm.trans hsecond]
  meet resolution t start stop ht hstop hbounds := by
    rw [periodBoundsOf_periodKeyText decimal resolution ht] at hbounds
    have hend : (periodBounds resolution (periodKey resolution t)).2 = stop :=
      congrArg Prod.snd (Option.some.inj hbounds)
    have hstart := (periods_tile resolution).next_start t
    rw [hend] at hstart
    refine ⟨(periodBounds resolution (periodKey resolution stop)).2, ?_⟩
    rw [periodBoundsOf_periodKeyText decimal resolution hstop]
    exact congrArg some (Prod.ext hstart rfl)
  shape := resolutionOfKey_periodKeyText
  names resolution t _ hstem hchars := parseName_segmentName decimal resolution t hstem hchars

-- The week of Friday, January 1st 2027 belongs to the ISO year 2026.
example : periodKeyText .raw (startOfDay (daysBeforeYear 2027 + 1)) = "2026W53".toList ∧
    periodKeyText .fiveMinute (startOfDay (daysBeforeYear 2027 + 1)) = "202701".toList := by
  decide

end Justup.Store
