import Justup.Db.Stamp

/-!
# The datetime adapter

`_adapt_datetime` turns an aware datetime into UTC and writes it with `Z`;
`_convert_datetime` reads such a text back.  Of the texts that `fromisoformat`
reads the model has the extended ones with a six-digit fraction or none, which
are all that `isoformat` writes.
-/

namespace Justup.Db

open Justup.Store (Text ordinalOf yearOf monthOf isLeap daysBeforeYear daysBeforeMonthIn startOfDay)
open Justup.Store.JsonLine

/-- An aware `datetime`: the wall clock in microseconds and its distance from UTC. -/
structure AwareDatetime where
  wall : Int
  utcoffset : Int
  wall_representable : representable wall = true
  utcoffset_lt : utcoffset < 86400000000
  lt_utcoffset : -86400000000 < utcoffset

/-- The time that a datetime says. -/
def AwareDatetime.instant (value : AwareDatetime) : Int := value.wall - value.utcoffset

/-- `value.astimezone(UTC)`; an `OverflowError` outside the years 1 to 9999. -/
def AwareDatetime.astimezoneUtc (value : AwareDatetime) : Option Int :=
  if representable value.instant then some value.instant else none

/-! ## Replacing in a text -/

/-- `replace` from a place on; the first characters that were replaced are skipped. -/
def replaceAllFrom (old new : Text) : Nat → Text → Text
  | _, [] => []
  | skip + 1, _ :: rest => replaceAllFrom old new skip rest
  | 0, c :: rest =>
      if old.isPrefixOf (c :: rest) then new ++ replaceAllFrom old new (old.length - 1) rest
      else c :: replaceAllFrom old new 0 rest

/-- `text.replace(old, new)` -/
def replaceAll (old new text : Text) : Text := replaceAllFrom old new 0 text

theorem replaceAllFrom_length (old new text : Text) :
    replaceAllFrom old new text.length text = [] := by
  induction text with
  | nil => rfl
  | cons c rest ih => exact ih

/-- What does not contain the first character of the text replaced stays. -/
theorem replaceAll_append {c : Char} {head : Text} (hhead : c ∉ head) (rest new : Text) :
    replaceAll (c :: rest) new (head ++ c :: rest) = head ++ new := by
  induction head with
  | nil =>
      have hprefix : (c :: rest).isPrefixOf (c :: rest) = true := by simp
      simp [replaceAll, replaceAllFrom, hprefix, replaceAllFrom_length]
  | cons d head ih =>
      obtain ⟨hne, hrest⟩ := not_or.mp (mt List.mem_cons.mpr hhead)
      have hprefix : (c :: rest).isPrefixOf (d :: (head ++ c :: rest)) = false := by
        simp [List.isPrefixOf, hne]
      have hinner := ih hrest
      rw [replaceAll] at hinner
      simp [replaceAll, replaceAllFrom, hprefix, hinner]

/-! ## The adapter -/

def offsetText : Text := ['+', '0', '0', ':', '0', '0']

/-- `_adapt_datetime` -/
def AwareDatetime.adaptDatetime (value : AwareDatetime) : Option Text :=
  value.astimezoneUtc.map fun t => replaceAll offsetText ['Z'] (isoformat t)

theorem digit_ne_plus (n : Nat) : digit n ≠ '+' := by
  have hall : ∀ d : Fin 10, Char.ofNat (48 + d.val) ≠ '+' := by decide
  exact hall ⟨n % 10, Nat.mod_lt n (by decide)⟩

theorem plus_notMem_fraction (micro : Nat) : '+' ∉ fraction micro := by
  have hdigit : ∀ n, '+' ≠ digit n := fun n => (digit_ne_plus n).symm
  unfold fraction
  split_ifs <;> simp [six, hdigit]

theorem plus_notMem_dateTimeText (t : Int) : '+' ∉ dateTimeText t := by
  have hdigit : ∀ n, '+' ≠ digit n := fun n => (digit_ne_plus n).symm
  simp [dateTimeText, four, two, hdigit]

/-- The offset stands once, at the end. -/
theorem replaceAll_isoformat (t : Int) :
    replaceAll offsetText ['Z'] (isoformat t) = adaptDatetime t := by
  have hhead : '+' ∉ dateTimeText t ++ fraction (microOf t) := by
    simp [plus_notMem_dateTimeText, plus_notMem_fraction]
  have hreplace := replaceAll_append hhead ['0', '0', ':', '0', '0'] ['Z']
  rw [isoformat_eq, adaptDatetime, ← List.append_assoc, ← List.append_assoc]
  exact hreplace

theorem AwareDatetime.adaptDatetime_eq (value : AwareDatetime) :
    value.adaptDatetime =
      if representable value.instant then some (Db.adaptDatetime value.instant) else none := by
  unfold adaptDatetime astimezoneUtc
  split_ifs <;> simp [replaceAll_isoformat]

/-! ## The converter -/

def isDigits (text : Text) : Bool := text.all Char.isDigit

/-- Date and time of day are written out and in range. -/
def dateTimeShape (text : Text) : Bool :=
  let year : Int := number (text.take 4)
  let month : Int := number ((text.drop 5).take 2)
  let day : Int := number ((text.drop 8).take 2)
  decide (19 ≤ text.length) &&
    isDigits (text.take 4) && text.getD 4 ' ' == '-' && isDigits ((text.drop 5).take 2) &&
    text.getD 7 ' ' == '-' && isDigits ((text.drop 8).take 2) &&
    isDigits ((text.drop 11).take 2) && text.getD 13 ' ' == ':' &&
    isDigits ((text.drop 14).take 2) && text.getD 16 ' ' == ':' &&
    isDigits ((text.drop 17).take 2) &&
    decide (1 ≤ year) && decide (1 ≤ month) && decide (month ≤ 12) && decide (1 ≤ day) &&
    decide (daysBeforeMonthIn (isLeap year) month + day ≤
      daysBeforeMonthIn (isLeap year) (month + 1)) &&
    decide (number ((text.drop 11).take 2) < 24) &&
    decide (number ((text.drop 14).take 2) < 60) && decide (number ((text.drop 17).take 2) < 60)

/-- The offset at the end of a text: none, or hours and minutes. -/
def readOffset : Text → Option (Option Int)
  | [] => some none
  | sign :: rest =>
      let hour := number (rest.take 2)
      let minute := number (rest.drop 3)
      let distance : Int := ((hour * 3600 + minute * 60) * 1000000 : Nat)
      if rest.length = 5 ∧ isDigits (rest.take 2) ∧ rest.getD 2 ' ' = ':' ∧
          isDigits (rest.drop 3) ∧ hour < 24 ∧ minute < 60 then
        if sign = '+' then some (some distance)
        else if sign = '-' then some (some (-distance))
        else none
      else none

/-- What follows the seconds: the fraction, when there is one, must have six digits. -/
def afterFraction (tail : Text) : Option Text :=
  if tail.getD 0 ' ' = '.' then
    if 7 ≤ tail.length ∧ isDigits ((tail.drop 1).take 6) then some (tail.drop 7) else none
  else some tail

/-- `datetime.fromisoformat`: wall clock and offset, `none` for a `ValueError`. -/
def fromisoformat (text : Text) : Option (Int × Option Int) :=
  if dateTimeShape text then
    ((afterFraction (text.drop 19)).bind readOffset).map fun offset => (readTime text, offset)
  else none

/-- `_convert_datetime` on the decoded text: the UTC time, `none` for the
`OverflowError` of `astimezone`. -/
def convertDatetime (value : Text) : Option Int :=
  let s := if value.getLast? = some 'Z' then value.dropLast ++ offsetText else value
  match fromisoformat s with
  -- a corrupt timestamp is logged and read as the epoch
  | none => some 0
  | some (wall, none) => some wall
  | some (wall, some offset) =>
      if representable (wall - offset) then some (wall - offset) else none

theorem digit_isDigit (n : Nat) : (digit n).isDigit = true := by
  have hall : ∀ d : Fin 10, (Char.ofNat (48 + d.val)).isDigit = true := by decide
  exact hall ⟨n % 10, Nat.mod_lt n (by decide)⟩

theorem isDigits_two (n : Nat) : isDigits (two n) = true := by
  simp [isDigits, two, digit_isDigit]

theorem isDigits_four (n : Nat) : isDigits (four n) = true := by
  simp [isDigits, four, digit_isDigit]

theorem isDigits_six (n : Nat) : isDigits (six n) = true := by
  simp [isDigits, six, digit_isDigit]

/-- The day of the month lies within the month. -/
theorem dayOf_le (ordinal : Int) :
    daysBeforeMonthIn (isLeap (yearOf ordinal)) (monthOf ordinal) + dayOf ordinal ≤
      daysBeforeMonthIn (isLeap (yearOf ordinal)) (monthOf ordinal + 1) := by
  obtain ⟨hlow, hhigh⟩ := Store.dayOfYear_range ordinal
  have hlast := (Store.monthOfDayIn_spec hlow hhigh).2
  rw [← monthOf] at hlast
  unfold dayOf
  omega

theorem dateTimeShape_isoformat {t : Int} (ht : representable t = true) :
    dateTimeShape (isoformat t) = true := by
  obtain ⟨hlow, hhigh⟩ : 1 ≤ yearOf (ordinalOf t) ∧ yearOf (ordinalOf t) ≤ 9999 := by
    simpa [representable] using ht
  have hmonth := Store.monthOfDayIn_range (isLeap (yearOf (ordinalOf t)))
    (ordinalOf t - daysBeforeYear (yearOf (ordinalOf t)))
  rw [← monthOf] at hmonth
  have hday := dayOf_range (ordinalOf t)
  have hlast := dayOf_le (ordinalOf t)
  have hmicro := microOfDay_lt t
  obtain ⟨text, htext⟩ : ∃ text, text = isoformat t := ⟨_, rfl⟩
  have hyearText : text.take 4 = four (yearOf (ordinalOf t)).toNat := by rw [htext]; rfl
  have hmonthText : (text.drop 5).take 2 = two (monthOf (ordinalOf t)).toNat := by rw [htext]; rfl
  have hdayText : (text.drop 8).take 2 = two (dayOf (ordinalOf t)).toNat := by rw [htext]; rfl
  have hhourText : (text.drop 11).take 2 =
    two (microOfDay t / 1000000 / 3600) := by rw [htext]; rfl
  have hminuteText : (text.drop 14).take 2 =
    two (microOfDay t / 1000000 / 60 % 60) := by rw [htext]; rfl
  have hsecondText : (text.drop 17).take 2 =
    two (microOfDay t / 1000000 % 60) := by rw [htext]; rfl
  have hlength : 19 ≤ text.length := by
    rw [htext, isoformat_eq]
    simp [dateTimeText, four, two]
  have hmarks : text.getD 4 ' ' = '-' ∧ text.getD 7 ' ' = '-' ∧ text.getD 13 ' ' = ':' ∧
      text.getD 16 ' ' = ':' := by
    rw [htext]
    exact ⟨rfl, rfl, rfl, rfl⟩
  obtain ⟨hmark4, hmark7, hmark13, hmark16⟩ := hmarks
  rw [← htext]
  simp only [dateTimeShape, hyearText, hmonthText, hdayText, hhourText, hminuteText, hsecondText,
    hmark4, hmark7, hmark13, hmark16, isDigits_four, isDigits_two, number_two (show
      (monthOf (ordinalOf t)).toNat < 100 by omega), number_two (show
      (dayOf (ordinalOf t)).toNat < 100 by omega), number_four (show
      (yearOf (ordinalOf t)).toNat < 10000 by omega), number_two (show
      microOfDay t / 1000000 / 3600 < 100 by omega), number_two (show
      microOfDay t / 1000000 / 60 % 60 < 100 by omega), number_two (show
      microOfDay t / 1000000 % 60 < 100 by omega), Int.toNat_of_nonneg (show
      0 ≤ yearOf (ordinalOf t) by omega), Int.toNat_of_nonneg (show
      0 ≤ monthOf (ordinalOf t) by omega), Int.toNat_of_nonneg (show
      0 ≤ dayOf (ordinalOf t) by omega), beq_self_eq_true, Bool.and_eq_true, decide_eq_true_eq,
    and_true]
  omega

/-- The fraction is read over whether it is written or not. -/
theorem afterFraction_fraction (micro : Nat) :
    afterFraction (fraction micro ++ offsetText) = some offsetText := by
  unfold fraction
  split_ifs
  · rfl
  · have hdigits : isDigits (((('.' :: six micro) ++ offsetText).drop 1).take 6) = true :=
      isDigits_six micro
    have hlength : 7 ≤ (('.' :: six micro) ++ offsetText).length := by simp [six]
    have hpoint : (('.' :: six micro) ++ offsetText).getD 0 ' ' = '.' := rfl
    rw [afterFraction, if_pos hpoint, if_pos ⟨hlength, hdigits⟩]
    rfl

theorem fromisoformat_isoformat {t : Int} (ht : representable t = true) :
    fromisoformat (isoformat t) = some (t, some 0) := by
  have htail : (isoformat t).drop 19 = fraction (microOf t) ++ offsetText := by
    have hlength : (dateTimeText t).length = 19 := by simp [dateTimeText, four, two]
    rw [isoformat_eq, List.drop_left' hlength, offsetText]
  have htime : readTime (isoformat t) = t := by
    have hread := readTime_isoformat ht []
    rwa [List.append_nil] at hread
  have hoffset : readOffset offsetText = some (some 0) := by decide
  rw [fromisoformat, if_pos (dateTimeShape_isoformat ht), htail, afterFraction_fraction,
    Option.bind_some, hoffset, htime, Option.map_some]

theorem convertDatetime_adaptDatetime {t : Int} (ht : representable t = true) :
    convertDatetime (adaptDatetime t) = some t := by
  have hend : adaptDatetime t = (dateTimeText t ++ fraction (microOf t)) ++ ['Z'] := by
    rw [adaptDatetime, List.append_assoc]
  have hlast : (adaptDatetime t).getLast? = some 'Z' := by rw [hend, List.getLast?_concat]
  have htext : (adaptDatetime t).dropLast ++ offsetText = isoformat t := by
    rw [isoformat_eq, hend, List.dropLast_concat, List.append_assoc, offsetText]
  have hutc : representable (t - 0) = true := by rwa [Int.sub_zero]
  unfold convertDatetime
  rw [if_pos hlast, htext]
  show (match fromisoformat (isoformat t) with
    | none => some 0
    | some (wall, none) => some wall
    | some (wall, some offset) =>
        if representable (wall - offset) then some (wall - offset) else none) = some t
  rw [fromisoformat_isoformat ht]
  exact (if_pos hutc).trans (congrArg some (Int.sub_zero t))

/-! ## Times and their texts -/

/-- Storing two times: both are read back as they were, and the texts compare as
the times do. -/
def StoredInOrder (a b : AwareDatetime) : Prop :=
  ∃ textA textB, a.adaptDatetime = some textA ∧ b.adaptDatetime = some textB ∧
    convertDatetime textA = some a.instant ∧ convertDatetime textB = some b.instant ∧
    (a.instant < b.instant ↔ textA < textB)

/-- Both times lie in the years 1 to 9999 in UTC, and when they lie in one second
both or neither of them is the whole second. -/
def SameShape (a b : AwareDatetime) : Prop :=
  representable a.instant = true ∧ representable b.instant = true ∧
    (a.instant / 1000000 = b.instant / 1000000 →
      (a.instant % 1000000 = 0 ↔ b.instant % 1000000 = 0))

/-- Stored timestamps compare like the times they encode exactly when their texts
have the same shape within one second. -/
theorem stored_in_order_iff (a b : AwareDatetime) : StoredInOrder a b ↔ SameShape a b := by
  unfold StoredInOrder SameShape
  by_cases ha : representable a.instant = true
  swap
  · simp [AwareDatetime.adaptDatetime_eq, ha]
  by_cases hb : representable b.instant = true
  swap
  · simp [AwareDatetime.adaptDatetime_eq, hb]
  have htextA : a.adaptDatetime = some (adaptDatetime a.instant) := by
    rw [AwareDatetime.adaptDatetime_eq, if_pos ha]
  have htextB : b.adaptDatetime = some (adaptDatetime b.instant) := by
    rw [AwareDatetime.adaptDatetime_eq, if_pos hb]
  have horder := adaptDatetime_lt_iff ha hb
  have hmicro := microOf_eq a.instant
  have hmicro' := microOf_eq b.instant
  have hlt : (a.instant < b.instant ↔ adaptDatetime a.instant < adaptDatetime b.instant) ↔
      (a.instant / 1000000 = b.instant / 1000000 →
        (a.instant % 1000000 = 0 ↔ b.instant % 1000000 = 0)) := by
    rw [horder]
    omega
  simp only [htextA, htextB, Option.some.injEq, ha, hb, true_and]
  rw [← hlt]
  constructor
  · rintro ⟨_, _, rfl, rfl, -, -, hcompare⟩
    exact hcompare
  · intro hcompare
    exact ⟨_, _, rfl, rfl, convertDatetime_adaptDatetime ha, convertDatetime_adaptDatetime hb,
      hcompare⟩

/-- A whole second as UTC. -/
def wholeSecond : AwareDatetime where
  wall := startOfDay 739656 + 36000000000
  utcoffset := 0
  wall_representable := by decide
  utcoffset_lt := by decide
  lt_utcoffset := by decide

/-- Half a second later, on the clock of an offset of two hours. -/
def halfLater : AwareDatetime where
  wall := startOfDay 739656 + 43200500000
  utcoffset := 7200000000
  wall_representable := by decide
  utcoffset_lt := by decide
  lt_utcoffset := by decide

/-- `2026-02-09T10:00:00Z` is earlier than `2026-02-09T12:00:00.500000+02:00`, its
text is the later one. -/
theorem whole_second_sorts_last :
    wholeSecond.instant < halfLater.instant ∧
      wholeSecond.adaptDatetime = some "2026-02-09T10:00:00Z".toList ∧
      halfLater.adaptDatetime = some "2026-02-09T10:00:00.500000Z".toList ∧
      "2026-02-09T10:00:00.500000Z".toList < "2026-02-09T10:00:00Z".toList := by
  decide +kernel

end Justup.Db
