import Justup.Store.JsonLine
import Mathlib.Data.List.Lex
import Mathlib.Data.Char

/-!
# Stored timestamps

Timestamps are stored as text and compared as text.  `isoformat()` of a UTC
time ends in `+00:00`; the adapter of the connection replaces that by `Z`.  A
fraction of zero microseconds is left out, so what is compared there is the
first character of the zone with the point of the fraction: `+` comes before
the point, `Z` after it.
-/

namespace Justup.Db

open Justup.Store (Text ordinalOf yearOf monthOf isLeap daysBeforeYear daysBeforeMonthIn startOfDay)
open Justup.Store.JsonLine

/-! ## Comparing texts part by part -/

variable {α : Type*} [LinearOrder α]

/-- Texts of equal length decide the comparison unless they are equal. -/
theorem append_lt_append_iff {first second : List α} (hlength : first.length = second.length)
    (rest tail : List α) :
    first ++ rest < second ++ tail ↔ first < second ∨ first = second ∧ rest < tail := by
  induction first generalizing second with
  | nil =>
      obtain rfl : second = [] := List.length_eq_zero_iff.mp hlength.symm
      simp
  | cons a first ih =>
      cases second with
      | nil => cases hlength
      | cons b second =>
          have hinner := ih (Nat.succ.inj hlength)
          simp only [List.cons_append, List.cons_lt_cons_iff, hinner, List.cons.injEq]
          tauto

theorem digit_lt_digit (m n : Nat) : digit m < digit n ↔ m % 10 < n % 10 := by
  have hall : ∀ c d : Fin 10, Char.ofNat (48 + c.val) < Char.ofNat (48 + d.val) ↔ c.val < d.val := by
    decide
  exact hall ⟨m % 10, Nat.mod_lt m (by decide)⟩ ⟨n % 10, Nat.mod_lt n (by decide)⟩

theorem digit_inj (m n : Nat) : digit m = digit n ↔ m % 10 = n % 10 := by
  have hall : ∀ c d : Fin 10, Char.ofNat (48 + c.val) = Char.ofNat (48 + d.val) ↔ c.val = d.val := by
    decide
  exact hall ⟨m % 10, Nat.mod_lt m (by decide)⟩ ⟨n % 10, Nat.mod_lt n (by decide)⟩

theorem two_lt_two {m n : Nat} (hm : m < 100) (hn : n < 100) : two m < two n ↔ m < n := by
  simp only [two, List.cons_lt_cons_iff, digit_lt_digit, digit_inj, List.not_lt_nil, and_false,
    or_false]
  omega

theorem two_inj {m n : Nat} (hm : m < 100) (hn : n < 100) : two m = two n ↔ m = n := by
  simp only [two, List.cons.injEq, digit_inj, and_true]
  omega

theorem digit_congr {m n : Nat} (h : m % 10 = n % 10) : digit m = digit n := (digit_inj m n).mpr h

/-- Longer numbers are pairs of digits in a row. -/
theorem four_eq (n : Nat) : four n = two (n / 100) ++ two (n % 100) := by
  have hthird : digit (n / 10) = digit (n % 100 / 10) := digit_congr (by omega)
  have hfourth : digit n = digit (n % 100) := digit_congr (by omega)
  simp only [four, two, Nat.div_div_eq_div_mul, List.cons_append, List.nil_append, hthird, hfourth]

theorem six_eq (n : Nat) : six n = two (n / 10000) ++ four (n % 10000) := by
  have hthird : digit (n / 1000) = digit (n % 10000 / 1000) := digit_congr (by omega)
  have hfourth : digit (n / 100) = digit (n % 10000 / 100) := digit_congr (by omega)
  have hfifth : digit (n / 10) = digit (n % 10000 / 10) := digit_congr (by omega)
  have hsixth : digit n = digit (n % 10000) := digit_congr (by omega)
  simp only [six, four, two, Nat.div_div_eq_div_mul, List.cons_append, List.nil_append, hthird,
    hfourth, hfifth, hsixth]

theorem four_lt_four {m n : Nat} (hm : m < 10000) (hn : n < 10000) : four m < four n ↔ m < n := by
  have hlength : (two (m / 100)).length = (two (n / 100)).length := rfl
  rw [four_eq, four_eq, append_lt_append_iff hlength, two_lt_two (by omega) (by omega),
    two_inj (by omega) (by omega), two_lt_two (by omega) (by omega)]
  omega

theorem four_inj {m n : Nat} (hm : m < 10000) (hn : n < 10000) : four m = four n ↔ m = n := by
  constructor
  · intro heq
    rcases Nat.lt_trichotomy m n with hlt | hmn | hgt
    · have htext := (four_lt_four hm hn).mpr hlt
      rw [heq] at htext
      exact absurd htext (List.lt_irrefl _)
    · exact hmn
    · have htext := (four_lt_four hn hm).mpr hgt
      rw [heq] at htext
      exact absurd htext (List.lt_irrefl _)
  · rintro rfl
    rfl

theorem six_lt_six {m n : Nat} (hm : m < 1000000) (hn : n < 1000000) : six m < six n ↔ m < n := by
  have hlength : (two (m / 10000)).length = (two (n / 10000)).length := rfl
  rw [six_eq, six_eq, append_lt_append_iff hlength, two_lt_two (by omega) (by omega),
    two_inj (by omega) (by omega), four_lt_four (by omega) (by omega)]
  omega

/-! ## The second of a time -/

/-- The text of a time up to its second. -/
def dateTimeText (t : Int) : Text :=
  let ordinal := ordinalOf t
  let second := microOfDay t / 1000000
  four (yearOf ordinal).toNat ++ '-' :: (two (monthOf ordinal).toNat ++
    '-' :: (two (dayOf ordinal).toNat ++ 'T' :: (two (second / 3600) ++
      ':' :: (two (second / 60 % 60) ++ ':' :: two (second % 60)))))

/-- The microsecond within the second. -/
def microOf (t : Int) : Nat := microOfDay t % 1000000

theorem isoformat_eq (t : Int) :
    isoformat t = dateTimeText t ++ (fraction (microOf t) ++ ['+', '0', '0', ':', '0', '0']) := by
  simp [isoformat, dateTimeText, microOf, List.append_assoc]

/-- `_adapt_datetime`: the offset of UTC is written `Z`. -/
def adaptDatetime (t : Int) : Text := dateTimeText t ++ (fraction (microOf t) ++ ['Z'])

/-- The parts of a date in the order in which they are written. -/
structure DateParts (t : Int) : Prop where
  year : (yearOf (ordinalOf t)).toNat < 10000
  month : (monthOf (ordinalOf t)).toNat < 100
  day : (dayOf (ordinalOf t)).toNat < 100
  hour : microOfDay t / 1000000 / 3600 < 100
  minute : microOfDay t / 1000000 / 60 % 60 < 100
  second : microOfDay t / 1000000 % 60 < 100

theorem dateParts {t : Int} (ht : representable t = true) : DateParts t := by
  obtain ⟨hlow, hhigh⟩ : 1 ≤ yearOf (ordinalOf t) ∧ yearOf (ordinalOf t) ≤ 9999 := by
    simpa [representable] using ht
  have hmonth := Store.monthOfDayIn_range (isLeap (yearOf (ordinalOf t)))
    (ordinalOf t - daysBeforeYear (yearOf (ordinalOf t)))
  rw [← monthOf] at hmonth
  have hday := dayOf_range (ordinalOf t)
  have hmicro := microOfDay_lt t
  constructor <;> omega

/-- A time by its day and the second of that day. -/
theorem second_eq (t : Int) :
    t / 1000000 = (ordinalOf t - Store.epochOrdinal) * 86400 + (microOfDay t / 1000000 : Nat) := by
  have hsplit := startOfDay_add_microOfDay t
  unfold startOfDay Store.microsPerDay at hsplit
  omega

theorem dateTimeText_congr {t u : Int} (h : t / 1000000 = u / 1000000) :
    dateTimeText t = dateTimeText u := by
  have ht := second_eq t
  have hu := second_eq u
  have hmicro := microOfDay_lt t
  have hmicro' := microOfDay_lt u
  have hordinal : ordinalOf t = ordinalOf u := by omega
  have hsecond : microOfDay t / 1000000 = microOfDay u / 1000000 := by omega
  simp only [dateTimeText, hordinal, hsecond]

/-- A later day is later by its year, its month or its day of the month. -/
theorem date_lt {m n : Int} (hlt : m < n) :
    yearOf m < yearOf n ∨ yearOf m = yearOf n ∧
      (monthOf m < monthOf n ∨ monthOf m = monthOf n ∧ dayOf m < dayOf n) := by
  rcases (Store.yearOf_mono hlt.le).lt_or_eq with hyear | hyear
  · exact Or.inl hyear
  · refine Or.inr ⟨hyear, ?_⟩
    have hle : monthOf m ≤ monthOf n := by
      simp only [monthOf, hyear]
      exact Store.monthOfDayIn_mono (by omega)
    rcases hle.lt_or_eq with hmonth | hmonth
    · exact Or.inl hmonth
    · refine Or.inr ⟨hmonth, ?_⟩
      simp only [dayOf, hyear, hmonth]
      omega

theorem dateTimeText_lt {t u : Int} (ht : representable t = true) (hu : representable u = true)
    (hlt : t / 1000000 < u / 1000000) : dateTimeText t < dateTimeText u := by
  have htime := second_eq t
  have hutime := second_eq u
  have hmicro := microOfDay_lt t
  have hmicro' := microOfDay_lt u
  obtain ⟨htyear, -⟩ : 1 ≤ yearOf (ordinalOf t) ∧ yearOf (ordinalOf t) ≤ 9999 := by
    simpa [representable] using ht
  obtain ⟨huyear, -⟩ : 1 ≤ yearOf (ordinalOf u) ∧ yearOf (ordinalOf u) ≤ 9999 := by
    simpa [representable] using hu
  have htmonth := Store.monthOfDayIn_range (isLeap (yearOf (ordinalOf t)))
    (ordinalOf t - daysBeforeYear (yearOf (ordinalOf t)))
  have humonth := Store.monthOfDayIn_range (isLeap (yearOf (ordinalOf u)))
    (ordinalOf u - daysBeforeYear (yearOf (ordinalOf u)))
  rw [← monthOf] at htmonth humonth
  have htday := dayOf_range (ordinalOf t)
  have huday := dayOf_range (ordinalOf u)
  have htparts := dateParts ht
  have huparts := dateParts hu
  have hyear : (four (yearOf (ordinalOf t)).toNat).length =
    (four (yearOf (ordinalOf u)).toNat).length := rfl
  have htwo : ∀ m n : Nat, (two m).length = (two n).length := fun _ _ => rfl
  simp only [dateTimeText, append_lt_append_iff hyear, append_lt_append_iff (htwo _ _),
    List.cons_lt_cons_iff, lt_irrefl, false_or, true_and, four_lt_four htparts.year huparts.year,
    four_inj htparts.year huparts.year, two_lt_two htparts.month huparts.month,
    two_inj htparts.month huparts.month, two_lt_two htparts.day huparts.day,
    two_inj htparts.day huparts.day, two_lt_two htparts.hour huparts.hour,
    two_inj htparts.hour huparts.hour, two_lt_two htparts.minute huparts.minute,
    two_inj htparts.minute huparts.minute, two_lt_two htparts.second huparts.second]
  rcases lt_trichotomy (ordinalOf t) (ordinalOf u) with hday | hday | hday
  · have hdate := date_lt hday
    omega
  · rw [hday] at htime ⊢
    omega
  · omega

/-- The texts up to the second compare as the seconds do. -/
theorem dateTimeText_lt_iff {t u : Int} (ht : representable t = true)
    (hu : representable u = true) :
    dateTimeText t < dateTimeText u ↔ t / 1000000 < u / 1000000 := by
  constructor
  · intro htext
    rcases lt_trichotomy (t / 1000000) (u / 1000000) with hlt | heq | hgt
    · exact hlt
    · rw [dateTimeText_congr heq] at htext
      exact absurd htext (List.lt_irrefl _)
    · exact absurd (List.lt_trans htext (dateTimeText_lt hu ht hgt)) (List.lt_irrefl _)
  · exact dateTimeText_lt ht hu

theorem dateTimeText_inj {t u : Int} (ht : representable t = true) (hu : representable u = true) :
    dateTimeText t = dateTimeText u ↔ t / 1000000 = u / 1000000 := by
  constructor
  · intro heq
    rcases lt_trichotomy (t / 1000000) (u / 1000000) with hlt | hsame | hgt
    · have htext := dateTimeText_lt ht hu hlt
      rw [heq] at htext
      exact absurd htext (List.lt_irrefl _)
    · exact hsame
    · have htext := dateTimeText_lt hu ht hgt
      rw [heq] at htext
      exact absurd htext (List.lt_irrefl _)
  · exact dateTimeText_congr

/-! ## The fraction and the zone -/

theorem microOf_lt (t : Int) : microOf t < 1000000 := Nat.mod_lt _ (by decide)

theorem microOf_eq (t : Int) : (microOf t : Int) = t % 1000000 := by
  have hsplit := startOfDay_add_microOfDay t
  unfold microOf
  unfold startOfDay Store.microsPerDay at hsplit
  omega

/-- With the offset written out, the text without a fraction comes first. -/
theorem fraction_offset_lt {m n : Nat} (hm : m < 1000000) (hn : n < 1000000) :
    fraction m ++ ['+', '0', '0', ':', '0', '0'] < fraction n ++ ['+', '0', '0', ':', '0', '0'] ↔
      m < n := by
  have hlength : (six m).length = (six n).length := rfl
  by_cases hzero : m = 0 <;> by_cases hzero' : n = 0
  · simp [fraction, hzero, hzero']
  · simp [fraction, hzero, hzero', List.cons_lt_cons_iff]
    omega
  · simp [fraction, hzero, hzero', List.cons_lt_cons_iff]
  · simp only [fraction, if_neg hzero, if_neg hzero', List.cons_append, List.cons_lt_cons_iff,
      lt_irrefl, false_or, true_and, append_lt_append_iff hlength, six_lt_six hm hn, and_false,
      or_false]

/-- With `Z` the text without a fraction comes last. -/
theorem fraction_zulu_lt {m n : Nat} (hm : m < 1000000) (hn : n < 1000000) :
    fraction m ++ ['Z'] < fraction n ++ ['Z'] ↔ m ≠ 0 ∧ (n = 0 ∨ m < n) := by
  have hlength : (six m).length = (six n).length := rfl
  by_cases hzero : m = 0 <;> by_cases hzero' : n = 0
  · simp [fraction, hzero, hzero']
  · simp [fraction, hzero, hzero', List.cons_lt_cons_iff]
  · simp [fraction, hzero, hzero', List.cons_lt_cons_iff]
  · simp only [fraction, if_neg hzero, if_neg hzero', List.cons_append, List.cons_lt_cons_iff,
      lt_irrefl, false_or, true_and, append_lt_append_iff hlength, six_lt_six hm hn, and_false,
      or_false]
    omega

theorem length_dateTimeText (t u : Int) :
    (dateTimeText t).length = (dateTimeText u).length := by
  simp [dateTimeText, four, two]

/-- Timestamps written by `isoformat()` compare as the times do. -/
theorem isoformat_lt_iff {t u : Int} (ht : representable t = true) (hu : representable u = true) :
    isoformat t < isoformat u ↔ t < u := by
  rw [isoformat_eq, isoformat_eq, append_lt_append_iff (length_dateTimeText t u),
    dateTimeText_lt_iff ht hu, dateTimeText_inj ht hu,
    fraction_offset_lt (microOf_lt t) (microOf_lt u)]
  have hmicro := microOf_eq t
  have hmicro' := microOf_eq u
  omega

/-- Timestamps written by the adapter compare as the times do unless they are
in one second: there a whole second is later than every fraction of it. -/
theorem adaptDatetime_lt_iff {t u : Int} (ht : representable t = true)
    (hu : representable u = true) :
    adaptDatetime t < adaptDatetime u ↔
      t / 1000000 < u / 1000000 ∨
        t / 1000000 = u / 1000000 ∧ microOf t ≠ 0 ∧ (microOf u = 0 ∨ microOf t < microOf u) := by
  rw [adaptDatetime, adaptDatetime, append_lt_append_iff (length_dateTimeText t u),
    dateTimeText_lt_iff ht hu, dateTimeText_inj ht hu,
    fraction_zulu_lt (microOf_lt t) (microOf_lt u)]

end Justup.Db
