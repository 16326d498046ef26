import Justup.Lib.Lines

/-!
# Lines and points

A file is modelled by the text its readers see, who decode with
`errors="replace"`; sizes and offsets count the characters of that text.  Lines
end with `\n`: the other line ends of Python's text mode are never written,
since `json.dumps` escapes control characters.
-/

namespace Justup.Store

open Justup.Lib

abbrev Text := List Char

instance : LawfulBEq Text := inferInstanceAs (LawfulBEq (List Char))

/-- The characters that `str.strip` takes off (`str.isspace`). -/
def isSpace (c : Char) : Bool :=
  let n := c.toNat
  (9 ≤ n && n ≤ 13) || (28 ≤ n && n ≤ 32) || n == 0x85 || n == 0xA0 || n == 0x1680 ||
    (0x2000 ≤ n && n ≤ 0x200A) || n == 0x2028 || n == 0x2029 || n == 0x202F ||
    n == 0x205F || n == 0x3000

/-- `line.strip()`. -/
def strip (line : Text) : Text := (line.dropWhile isSpace).rdropWhile isSpace

/-- One record of a series. -/
structure Point (V : Type*) where
  ts : Int
  value : V
  deriving DecidableEq, Repr

/--
How records are written and read.  `loads` is `json.loads`, the item `"ts"`,
`parse_utc` and `.get("value")` on a stripped line; it is `none` where one of
them raises an exception that the readers catch or the time is not a UTC time.
-/
structure LineFormat (V : Type*) where
  loads : Text → Option (Point V)
  dumps : Int → V → Text
  loads_nil : loads [] = none
  newline_notMem_dumps : ∀ ts value, '\n' ∉ dumps ts value
  loads_dumps : ∀ ts value, loads (strip (dumps ts value)) = some ⟨ts, value⟩

variable {V : Type*} (format : LineFormat V)

/-- `line_ts`: the timestamp of one record, `none` for blank or invalid lines. -/
def lineTs (line : Text) : Option Int :=
  if (strip line).isEmpty then none else (format.loads (strip line)).map Point.ts

/-- `_parse_point`: the point of a line inside the inclusive window. -/
def parsePoint (since until_ : Option Int) (line : Text) : Option (Point V) :=
  if (strip line).isEmpty then none
  else
    match format.loads (strip line) with
    | none => none
    | some point =>
        if since.any (fun low => decide (point.ts < low)) then none
        else if until_.any (fun high => decide (high < point.ts)) then none
        else some point

/-- The line that `append_point` and `downsample_series` write for a record. -/
def recordLine (ts : Int) (value : V) : Text := format.dumps ts value ++ ['\n']

/-! ## Stripping -/

theorem isSpace_newline : isSpace '\n' = true := by decide

@[simp]
theorem strip_nil : strip [] = [] := rfl

@[simp]
theorem strip_snoc_newline (line : Text) : strip (line ++ ['\n']) = strip line := by
  unfold strip
  rw [List.dropWhile_append]
  split
  · rename_i hblank
    rw [List.isEmpty_iff] at hblank
    rw [hblank]
    rfl
  · rw [List.rdropWhile_concat_pos _ _ _ isSpace_newline]

theorem isSpace_head_strip {line : Text} {first : Char} {rest : Text}
    (hstrip : strip line = first :: rest) : isSpace first = false := by
  have hbegins : strip line <+: line.dropWhile isSpace := List.rdropWhile_prefix _ _
  rw [hstrip] at hbegins
  obtain ⟨tail, htail⟩ := hbegins
  have hne : line.dropWhile isSpace ≠ [] := by
    rw [← htail]
    simp
  have hhead := List.head_dropWhile_not isSpace hne
  simpa [← htail] using hhead

/-- Stripping a stripped line changes nothing. -/
@[simp]
theorem strip_strip (line : Text) : strip (strip line) = strip line := by
  have hdrop : (strip line).dropWhile isSpace = strip line := by
    cases hstrip : strip line with
    | nil => rfl
    | cons first rest =>
        rw [List.dropWhile_cons, isSpace_head_strip hstrip]
        rfl
  rw [strip, hdrop, strip, List.rdropWhile_idempotent]

theorem newline_notMem_of_strip {line : Text} (hline : '\n' ∉ line) : '\n' ∉ strip line := by
  intro hmem
  have hbegins : strip line <+: line.dropWhile isSpace := List.rdropWhile_prefix _ _
  exact hline ((hbegins.sublist.trans (List.dropWhile_sublist _)).subset hmem)

/-! ## Reading lines -/

@[simp]
theorem lineTs_snoc_newline (line : Text) : lineTs format (line ++ ['\n']) = lineTs format line := by
  simp [lineTs]

@[simp]
theorem lineTs_strip (line : Text) : lineTs format (strip line) = lineTs format line := by
  simp [lineTs]

@[simp]
theorem parsePoint_strip (since until_ : Option Int) (line : Text) :
    parsePoint format since until_ (strip line) = parsePoint format since until_ line := by
  simp [parsePoint]

@[simp]
theorem parsePoint_snoc_newline (since until_ : Option Int) (line : Text) :
    parsePoint format since until_ (line ++ ['\n']) = parsePoint format since until_ line := by
  simp [parsePoint]

/-- The two readers of a line agree on its timestamp. -/
theorem lineTs_eq_parsePoint (line : Text) :
    lineTs format line = (parsePoint format none none line).map Point.ts := by
  unfold lineTs parsePoint
  split
  · rfl
  · cases format.loads (strip line) <;> rfl

/-- The inclusive window of a query. -/
def inWindow (since until_ : Option Int) (point : Point V) : Bool :=
  !since.any (fun low => decide (point.ts < low)) &&
    !until_.any (fun high => decide (high < point.ts))

theorem inWindow_iff {since until_ : Option Int} {point : Point V} :
    inWindow since until_ point = true ↔
      (∀ low ∈ since, low ≤ point.ts) ∧ ∀ high ∈ until_, point.ts ≤ high := by
  cases since <;> cases until_ <;> simp [inWindow]

/-- A window only drops points. -/
theorem parsePoint_window (since until_ : Option Int) (line : Text) :
    parsePoint format since until_ line =
      (parsePoint format none none line).filter (inWindow since until_) := by
  unfold parsePoint
  split
  · rfl
  · cases format.loads (strip line) with
    | none => rfl
    | some point =>
        cases hlow : since.any (fun low => decide (point.ts < low)) <;>
          cases hhigh : until_.any (fun high => decide (high < point.ts)) <;>
          simp [inWindow, hlow, hhigh, Option.filter]

/-- What is written for a record is read as that record. -/
@[simp]
theorem parsePoint_recordLine (ts : Int) (value : V) :
    parsePoint format none none (recordLine format ts value) = some ⟨ts, value⟩ := by
  have hloads := format.loads_dumps ts value
  have hne : (strip (format.dumps ts value)).isEmpty = false := by
    cases hstrip : strip (format.dumps ts value) with
    | nil =>
        rw [hstrip, format.loads_nil] at hloads
        cases hloads
    | cons first rest => rfl
  rw [recordLine, parsePoint_snoc_newline, parsePoint, hne, hloads]
  rfl

@[simp]
theorem lineTs_recordLine (ts : Int) (value : V) :
    lineTs format (recordLine format ts value) = some ts := by
  rw [lineTs_eq_parsePoint, parsePoint_recordLine]
  rfl

theorem isLine_recordLine (ts : Int) (value : V) :
    Lines.IsLine '\n' (recordLine format ts value) :=
  ⟨format.dumps ts value, format.newline_notMem_dumps ts value, rfl⟩

end Justup.Store
