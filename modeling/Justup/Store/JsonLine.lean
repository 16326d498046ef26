import Justup.Store.Line
import Justup.Store.Calendar

/-!
# The lines that are written

The text of a record with a one-digit value, as `json.dumps` and
`datetime.isoformat` write it, and a reader of exactly these texts: a line is
read when writing what it says gives the line again.  Outside the years that
`datetime` can represent there is no text of a time; a row of dashes stands for
it.
-/

namespace Justup.Store

namespace JsonLine

/-! ## Digits -/

def digit (n : Nat) : Char := Char.ofNat (48 + n % 10)

def digitVal (c : Char) : Nat := c.toNat - 48

@[simp]
theorem digitVal_digit (n : Nat) : digitVal (digit n) = n % 10 := by
  have hall : ∀ d : Fin 10, digitVal (Char.ofNat (48 + d.val)) = d.val := by decide
  exact hall ⟨n % 10, Nat.mod_lt n (by decide)⟩

theorem digit_ne_newline (n : Nat) : digit n ≠ '\n' := by
  have hall : ∀ d : Fin 10, Char.ofNat (48 + d.val) ≠ '\n' := by decide
  exact hall ⟨n % 10, Nat.mod_lt n (by decide)⟩

theorem digit_ne_quote (n : Nat) : digit n ≠ '"' := by
  have hall : ∀ d : Fin 10, Char.ofNat (48 + d.val) ≠ '"' := by decide
  exact hall ⟨n % 10, Nat.mod_lt n (by decide)⟩

def two (n : Nat) : Text := [digit (n / 10), digit n]

def four (n : Nat) : Text := [digit (n / 1000), digit (n / 100), digit (n / 10), digit n]

def six (n : Nat) : Text :=
  [digit (n / 100000), digit (n / 10000), digit (n / 1000), digit (n / 100), digit (n / 10),
    digit n]

/-- The number that some digits say. -/
def number (text : Text) : Nat := text.foldl (fun n c => 10 * n + digitVal c) 0

theorem number_two {n : Nat} (h : n < 100) : number (two n) = n := by
  simp only [number, two, List.foldl_cons, List.foldl_nil, digitVal_digit]
  omega

theorem number_four {n : Nat} (h : n < 10000) : number (four n) = n := by
  simp only [number, four, List.foldl_cons, List.foldl_nil, digitVal_digit]
  omega

theorem number_six {n : Nat} (h : n < 1000000) : number (six n) = n := by
  simp only [number, six, List.foldl_cons, List.foldl_nil, digitVal_digit]
  omega

/-! ## Times -/

/-- Years 1 to 9999. -/
def representable (t : Int) : Bool :=
  decide (1 ≤ yearOf (ordinalOf t)) && decide (yearOf (ordinalOf t) ≤ 9999)

def dayOf (ordinal : Int) : Int :=
  ordinal - daysBeforeYear (yearOf ordinal) -
    daysBeforeMonthIn (isLeap (yearOf ordinal)) (monthOf ordinal)

/-- Microseconds since midnight. -/
def microOfDay (t : Int) : Nat := (t - startOfDay (ordinalOf t)).toNat

def fraction (micro : Nat) : Text := if micro = 0 then [] else '.' :: six micro

/-- `isoformat()` of a UTC time. -/
def isoformat (t : Int) : Text :=
  let ordinal := ordinalOf t
  let second := microOfDay t / 1000000
  four (yearOf ordinal).toNat ++ '-' :: two (monthOf ordinal).toNat ++
    '-' :: two (dayOf ordinal).toNat ++ 'T' :: two (second / 3600) ++
    ':' :: two (second / 60 % 60) ++ ':' :: two (second % 60) ++
    fraction (microOfDay t % 1000000) ++ ['+', '0', '0', ':', '0', '0']

/-- The time that a text of this form says. -/
def readTime (text : Text) : Int :=
  let year : Int := number (text.take 4)
  let month : Int := number ((text.drop 5).take 2)
  let day : Int := number ((text.drop 8).take 2)
  let hour := number ((text.drop 11).take 2)
  let minute := number ((text.drop 14).take 2)
  let second := number ((text.drop 17).take 2)
  let micro := if text.getD 19 '+' = '.' then number ((text.drop 20).take 6) else 0
  startOfDay (daysBeforeYear year + daysBeforeMonthIn (isLeap year) month + day) +
    ((hour * 3600 + minute * 60 + second) * 1000000 + micro : Nat)

theorem dayOf_range (ordinal : Int) : 1 ≤ dayOf ordinal ∧ dayOf ordinal ≤ 31 := by
  obtain ⟨hlow, hhigh⟩ := dayOfYear_range ordinal
  obtain ⟨hfirst, hlast⟩ := monthOfDayIn_spec hlow hhigh
  have hmonth := monthOfDayIn_range (isLeap (yearOf ordinal))
    (ordinal - daysBeforeYear (yearOf ordinal))
  rw [← monthOf] at hfirst hlast hmonth
  unfold dayOf
  have hlength : daysBeforeMonthIn (isLeap (yearOf ordinal)) (monthOf ordinal + 1) ≤
      daysBeforeMonthIn (isLeap (yearOf ordinal)) (monthOf ordinal) + 31 := by
    unfold daysBeforeMonthIn daysBeforeMonth
    cases isLeap (yearOf ordinal) <;> simp <;> omega
  omega

theorem microOfDay_lt (t : Int) : microOfDay t < 86400000000 := by
  have hlow := startOfDay_le t
  have hhigh := lt_startOfDay_succ t
  unfold microOfDay
  unfold startOfDay microsPerDay at *
  omega

theorem startOfDay_add_microOfDay (t : Int) : startOfDay (ordinalOf t) + microOfDay t = t := by
  have hlow := startOfDay_le t
  unfold microOfDay
  omega

/-- The fraction of a second, which is left out when it is 0. -/
theorem fraction_read {text rest : Text} {micro : Nat} (hmicro : micro < 1000000)
    (htext : text.drop 19 = fraction micro ++ '+' :: rest) :
    (if text.getD 19 '+' = '.' then number ((text.drop 20).take 6) else 0) = micro := by
  have hhead : text.getD 19 '+' = (text.drop 19).getD 0 '+' := by
    simp [List.getD_eq_getElem?_getD]
  have htail : text.drop 20 = (text.drop 19).drop 1 := by rw [List.drop_drop]
  rw [hhead, htail, htext]
  by_cases hzero : micro = 0
  · simp [fraction, hzero]
  · rw [fraction, if_neg hzero]
    have htake : ((('.' :: six micro) ++ '+' :: rest).drop 1).take 6 = six micro := rfl
    rw [htake, number_six hmicro]
    rfl

/-- What is written of a time is read as that time, whatever follows. -/
theorem readTime_isoformat {t : Int} (ht : representable t = true) (rest : Text) :
    readTime (isoformat t ++ rest) = t := by
  obtain ⟨hlow, hhigh⟩ : 1 ≤ yearOf (ordinalOf t) ∧ yearOf (ordinalOf t) ≤ 9999 := by
    simpa [representable] using ht
  have hmonth := monthOfDayIn_range (isLeap (yearOf (ordinalOf t)))
    (ordinalOf t - daysBeforeYear (yearOf (ordinalOf t)))
  rw [← monthOf] at hmonth
  have hday := dayOf_range (ordinalOf t)
  have hmicro := microOfDay_lt t
  obtain ⟨text, htext⟩ : ∃ text, text = isoformat t ++ rest := ⟨_, rfl⟩
  have hyearText : text.take 4 = four (yearOf (ordinalOf t)).toNat := by rw [htext]; rfl
  have hmonthText : (text.drop 5).take 2 = two (monthOf (ordinalOf t)).toNat := by rw [htext]; rfl
  have hdayText : (text.drop 8).take 2 = two (dayOf (ordinalOf t)).toNat := by rw [htext]; rfl
  have hhourText : (text.drop 11).take 2 =
    two (microOfDay t / 1000000 / 3600) := by rw [htext]; rfl
  have hminuteText : (text.drop 14).take 2 =
    two (microOfDay t / 1000000 / 60 % 60) := by rw [htext]; rfl
  have hsecondText : (text.drop 17).take 2 =
    two (microOfDay t / 1000000 % 60) := by rw [htext]; rfl
  have htail : text.drop 19 = fraction (microOfDay t % 1000000) ++
      '+' :: (['0', '0', ':', '0', '0'] ++ rest) := by
    rw [htext]
    simp [isoformat, four, two]
  have hfraction := fraction_read (Nat.mod_lt _ (by decide)) htail
  rw [← htext, readTime, hyearText, hmonthText, hdayText, hhourText, hminuteText, hsecondText, hfraction,
    number_four (by omega), number_two (by omega), number_two (by omega), number_two (by omega),
    number_two (by omega), number_two (by omega), Int.toNat_of_nonneg (by omega),
    Int.toNat_of_nonneg (by omega), Int.toNat_of_nonneg (by omega)]
  have hdate : daysBeforeYear (yearOf (ordinalOf t)) +
      daysBeforeMonthIn (isLeap (yearOf (ordinalOf t))) (monthOf (ordinalOf t)) +
        dayOf (ordinalOf t) = ordinalOf t := by
    unfold dayOf
    omega
  have hclock : (microOfDay t / 1000000 / 3600 * 3600 + microOfDay t / 1000000 / 60 % 60 * 60 +
      microOfDay t / 1000000 % 60) * 1000000 + microOfDay t % 1000000 = microOfDay t := by
    omega
  rw [hdate, hclock, startOfDay_add_microOfDay]

/-! ## Records -/

/-- `json.dumps({"ts": at.isoformat(), "value": value})`. -/
def json (t : Int) (value : Fin 10) : Text :=
  ['\x7b', '"', 't', 's', '"', ':', ' ', '"'] ++ isoformat t ++
    ['"', ',', ' ', '"', 'v', 'a', 'l', 'u', 'e', '"', ':', ' ', digit value, '\x7d']

/-- What stands for a time that has no text. -/
def dashes (t : Int) (value : Fin 10) : Text :=
  ['\x7b', digit value, if t < 0 then '-' else '+'] ++ List.replicate t.natAbs '-' ++ ['\x7d']

def dumps (t : Int) (value : Fin 10) : Text :=
  if representable t then json t value else dashes t value

def readValue (c : Char) : Fin 10 := ⟨digitVal c % 10, Nat.mod_lt _ (by decide)⟩

/-- The record that a line can only mean. -/
def candidate (text : Text) : Point (Fin 10) :=
  if text.getD 1 '"' = '"' then
    ⟨readTime (text.drop 8), readValue (text.getD (text.length - 2) '0')⟩
  else
    let size : Int := (text.length - 4 : Nat)
    ⟨if text.getD 2 '+' = '-' then -size else size, readValue (text.getD 1 '0')⟩

def loads (text : Text) : Option (Point (Fin 10)) :=
  let point := candidate text
  if dumps point.ts point.value = text then some point else none

theorem readValue_digit (value : Fin 10) : readValue (digit value) = value := by
  apply Fin.ext
  simp only [readValue, digitVal_digit, Nat.mod_mod]
  exact Nat.mod_eq_of_lt value.isLt

theorem candidate_json {t : Int} (ht : representable t = true) (value : Fin 10) :
    candidate (json t value) = ⟨t, value⟩ := by
  have hquote : (json t value).getD 1 '"' = '"' := rfl
  have hvalue : (json t value).getD ((json t value).length - 2) '0' = digit value := by
    simp [json, List.getD_eq_getElem?_getD]
  have htime : readTime ((json t value).drop 8) = t := by
    rw [json, List.append_assoc]
    exact readTime_isoformat ht _
  rw [candidate, if_pos hquote, hvalue, readValue_digit, htime]

theorem candidate_dashes (t : Int) (value : Fin 10) :
    candidate (dashes t value) = ⟨t, value⟩ := by
  have hquote : (dashes t value).getD 1 '"' ≠ '"' := digit_ne_quote value
  have hlength : (dashes t value).length - 4 = t.natAbs := by simp [dashes]
  have hvalue : (dashes t value).getD 1 '0' = digit value := rfl
  have hsign : (dashes t value).getD 2 '+' = if t < 0 then '-' else '+' := rfl
  rw [candidate, if_neg hquote]
  simp only [hlength, hvalue, hsign, readValue_digit]
  by_cases hneg : t < 0
  · simp only [if_pos hneg, if_true]
    congr 1
    omega
  · simp only [if_neg hneg]
    congr 1
    rw [if_neg (by decide)]
    omega

theorem loads_dumps (t : Int) (value : Fin 10) : loads (dumps t value) = some ⟨t, value⟩ := by
  have hcandidate : candidate (dumps t value) = ⟨t, value⟩ := by
    rw [dumps]
    split_ifs with ht
    · exact candidate_json ht value
    · exact candidate_dashes t value
  simp only [loads, hcandidate, if_true]

/-- Braces keep a text from being stripped. -/
theorem strip_braces (body : Text) : strip (['\x7b'] ++ body ++ ['\x7d']) =
    ['\x7b'] ++ body ++ ['\x7d'] := by
  rw [strip, List.append_assoc, List.singleton_append,
    List.dropWhile_cons_of_neg (by decide), ← List.cons_append, List.rdropWhile_concat_neg]
  decide

theorem strip_dumps (t : Int) (value : Fin 10) : strip (dumps t value) = dumps t value := by
  rw [dumps]
  split_ifs
  · have hbraces := strip_braces (['"', 't', 's', '"', ':', ' ', '"'] ++ isoformat t ++
      ['"', ',', ' ', '"', 'v', 'a', 'l', 'u', 'e', '"', ':', ' ', digit value])
    simpa [json] using hbraces
  · have hbraces := strip_braces ([digit value, if t < 0 then '-' else '+'] ++
      List.replicate t.natAbs '-')
    simpa [dashes] using hbraces

theorem newline_notMem_isoformat (t : Int) : '\n' ∉ isoformat t := by
  have hdigit : ∀ n, '\n' ≠ digit n := fun n => (digit_ne_newline n).symm
  have hfraction : ∀ micro, '\n' ∉ fraction micro := by
    intro micro
    unfold fraction
    split_ifs
    · simp
    · simp [six, hdigit]
  simp [isoformat, four, two, hdigit, hfraction]

theorem newline_notMem_dumps (t : Int) (value : Fin 10) : '\n' ∉ dumps t value := by
  have hdigit : '\n' ≠ digit value := (digit_ne_newline value).symm
  rw [dumps]
  split_ifs
  · simp [json, newline_notMem_isoformat, hdigit]
  · by_cases hneg : t < 0 <;> simp [dashes, hdigit, hneg, List.mem_replicate]

/-- The format of the lines that are written. -/
def format : LineFormat (Fin 10) where
  loads := loads
  dumps := dumps
  loads_nil := by decide +kernel
  newline_notMem_dumps := newline_notMem_dumps
  loads_dumps := fun t value => by rw [strip_dumps, loads_dumps]

/-- 2026-02-09, a Monday, at 10:00:00.5. -/
example : String.ofList (dumps (startOfDay 739656 + 36000500000) 7) =
    "\x7b\"ts\": \"2026-02-09T10:00:00.500000+00:00\", \"value\": 7\x7d" := by decide +kernel

end JsonLine

end Justup.Store
