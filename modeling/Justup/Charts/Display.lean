import Justup.Charts.Transitions
import Justup.Lib.Grouping

/-!
# Display buckets

`query_display_series`: the points of three resolutions in buckets that are
aligned to the start of the window.  Numbers are exact.
-/

namespace Justup.Charts

open Justup.Lib Justup.Store

/-! ## The model -/

def httpStatus : Text := "http_status".toList

/-- A value that has been read: its time, its number, and whether it comes from a
rollup. -/
structure Sample where
  ts : ℤ
  value : ℚ
  rollup : Bool
  deriving DecidableEq, Repr

/-- The sources of a metric; status codes are taken from raw checks only. -/
def displaySources (metric : Text) (now since until_ : ℤ) : List Source :=
  if metric = httpStatus then
    (sourcesOf now since until_).filter fun source => decide (source.resolution = .raw)
  else sourcesOf now since until_

/-- The values that are looked at: for status codes 0 and the codes that exist. -/
def accepted (metric : Text) (value : ℚ) : Bool :=
  if metric = httpStatus then
    decide (value.den = 1) && (decide (value = 0) || (decide (100 ≤ value) && decide (value ≤ 599)))
  else true

section Read

variable {V : Type*} (format : LineFormat V) (finite : V → Option ℚ)

/-- The samples of a source; `finite` is `float(value)` where that gives a finite
number. -/
def samplesFrom (metric : Text) (now : ℤ) (series : Resolution → Series) (source : Source) :
    List Sample :=
  if source.until_ < source.from_ then []
  else if !seriesExists (series source.resolution) then []
  else
    (points format (some source.from_) (some source.until_)
      (iterSeriesLines source.resolution now (some source.from_) (some source.until_)
        (series source.resolution))).filterMap fun point =>
      ((finite point.value).filter (accepted metric)).map fun value =>
        ⟨point.ts, value, decide (source.resolution ≠ .raw)⟩

/-- The samples of all the sources. -/
def samplesRead (metric : Text) (now since until_ : ℤ) (series : Resolution → Series) :
    List Sample :=
  (displaySources metric now since until_).flatMap
    (samplesFrom format finite metric now series)

end Read

/-- `int((ts - since).total_seconds()) // bucket_seconds`. -/
def bucketIndex (since bucketSeconds ts : ℤ) : ℤ := (ts - since).tdiv second / bucketSeconds

/-- The key of a status code, `"Error"` for 0. -/
def codeKey (code : ℚ) : Text :=
  if code = 0 then "Error".toList else Nat.toDigits 10 code.num.toNat

/-- How often each of some codes occurs, in the order of their first occurrence. -/
def codeCounts (values : List ℚ) : List (Text × ℕ) :=
  (values.reverse.dedup.reverse).map fun code => (codeKey code, values.count code)

/-- The key of `max`: errors before server errors before redirects and successes. -/
def severity (code : ℚ) : ℤ × ℚ := (if code = 0 then 6 else code.num / 100, code)

/-- The first of the worst codes. -/
def worstCode : List ℚ → Option ℚ
  | [] => none
  | code :: codes => some (codes.foldl (fun worst other =>
      if (severity worst).1 < (severity other).1 ∨
        ((severity worst).1 = (severity other).1 ∧ (severity worst).2 < (severity other).2)
      then other else worst) code)

/-- One bucket of the result; it has no bounds when they are unknown. -/
structure DisplayBucket where
  ts : ℤ
  value : Option ℚ
  min : Option ℚ
  max : Option ℚ
  count : ℕ
  bucketEnd : ℤ
  rollup : Bool
  codeCounts : Option (List (Text × ℕ))
  deriving DecidableEq, Repr

/-- The value of a bucket. -/
def displayValue (metric : Text) (values : List ℚ) : Option ℚ :=
  if metric = httpStatus then worstCode values
  else if isBinaryMetric metric then values.min?
  else computeMedian (fun a b => (a + b) / 2) values

def displayBucket (metric : Text) (since until_ bucketSeconds : ℤ) (rolled : List ℤ)
    (entry : ℤ × List ℚ) : DisplayBucket :=
  let start := since + entry.1 * bucketSeconds * second
  let rollup := rolled.contains entry.1
  { ts := start
    value := displayValue metric entry.2
    min := if rollup then none else entry.2.min?
    max := if rollup then none else entry.2.max?
    count := entry.2.length
    bucketEnd := min until_ (start + bucketSeconds * second)
    rollup := rollup
    codeCounts := if metric = httpStatus then some (codeCounts entry.2) else none }

/-- `bucket_rollup`. -/
def rolledIndices (since bucketSeconds : ℤ) (samples : List Sample) : List ℤ :=
  (samples.filter Sample.rollup).map fun sample => bucketIndex since bucketSeconds sample.ts

/-- `points` of the result. -/
def displayBuckets (metric : Text) (since until_ bucketSeconds : ℤ) (samples : List Sample) :
    List DisplayBucket :=
  (Dict.group (samples.map fun sample =>
      (bucketIndex since bucketSeconds sample.ts, sample.value))).map
    (displayBucket metric since until_ bucketSeconds (rolledIndices since bucketSeconds samples))

/-- What `query_display_series` returns. -/
structure DisplaySeries where
  points : List DisplayBucket
  bucketSeconds : ℤ
  statusCounts : Option (List (Text × ℕ))
  rawStatusOnly : Bool
  deriving DecidableEq, Repr

/-- `query_display_series`. -/
def queryDisplaySeries {V : Type*} (format : LineFormat V) (finite : V → Option ℚ)
    (series : Resolution → Series) (metric : Text) (now since until_ bucketSeconds : ℤ) :
    DisplaySeries :=
  let samples := samplesRead format finite metric now since until_ series
  { points := displayBuckets metric since until_ bucketSeconds samples
    bucketSeconds := bucketSeconds
    statusCounts :=
      if metric = httpStatus then some (codeCounts (samples.map Sample.value)) else none
    rawStatusOnly := decide (metric = httpStatus) &&
      decide (since < now - Resolution.raw.retention * day) }

end Justup.Charts
