import Justup.Store.Query
import Justup.Store.Segment

/-!
# Rollups

`downsample_series` and what it uses: buckets, the watermark of the target
series, and the value of a bucket.  A metric name is a list of characters.
-/

namespace Justup.Store

open Justup.Lib

/-! ## Metrics -/

/-- `BINARY_METRICS` and `NON_RESAMPLE_METRICS`. -/
def binaryMetrics : List Text := ["ping_up".toList, "http_up".toList, "tcp_up".toList]
def nonResampleMetrics : List Text := ["http_status".toList]

/-- The number of some decimal digits. -/
def decimalValue (digits : Text) : Nat :=
  digits.foldl (fun number c => 10 * number + (c.toNat - '0'.toNat)) 0

/-- `is_binary_metric`.  The `$` of the pattern also matches before a line end. -/
def isBinaryMetric (base : Text) : Bool :=
  binaryMetrics.contains base ||
    (let port := (base.drop "tcp_up_".length).take 5
     let rest := (base.drop "tcp_up_".length).drop 5
     let digits := if rest.isEmpty && port.getLast? == some '\n' then port.dropLast else port
     "tcp_up_".toList.isPrefixOf base && (rest.isEmpty || rest == ['\n']) &&
       !digits.isEmpty && digits.all (fun c => '0' ≤ c && c ≤ '9') &&
         decide (1 ≤ decimalValue digits) && decide (decimalValue digits ≤ 65535))

/-- `_base_metric`. -/
def baseMetric (metric : Text) : Text := metric.takeWhile fun c => c != '@'

/-! ## Retention -/

/-- A day and a second in microseconds. -/
def day : Int := 86400000000
def second : Int := 1000000

/-- `_validate_retention`, in days. -/
def validateRetention (days : Int) : Int := max 1 (min days 3650)

/-- `ROLLUP_CONFIG`: the retention of a resolution, in days. -/
def Resolution.retention : Resolution → Int
  | .raw => 30
  | .fiveMinute => 180
  | .hour => 3650

/-- `_effective_retention_days`. -/
def effectiveRetention (resolution : Resolution) (days : Int) : Int :=
  min resolution.retention (validateRetention days)

/-! ## Buckets -/

/-- `_bucket_key`: `int` cuts off the fraction of a second. -/
def bucketKey (seconds ts : Int) : Int := ts.tdiv second / seconds * seconds * second

/-- `_ceil_to_bucket`. -/
def ceilToBucket (seconds ts : Int) : Int :=
  if bucketKey seconds ts = ts then bucketKey seconds ts
  else bucketKey seconds ts + seconds * second

/-- What is done with values: `float(value)` where it gives a finite number, the
number that is written for a number, and `(a + b) / 2.0`. -/
structure Numbers (V Q : Type*) where
  finite : V → Option Q
  write : Q → V
  half : Q → Q → Q

variable {V Q : Type*} [LinearOrder Q]

/-- `_compute_median`, of at least one value. -/
def computeMedian (half : Q → Q → Q) (values : List Q) : Option Q :=
  let sorted := values.mergeSort fun a b => decide (a ≤ b)
  let mid := sorted.length / 2
  match sorted[mid - 1]?, sorted[mid]? with
  | some low, some high => some (if sorted.length % 2 = 0 then half low high else high)
  | _, _ => none

/-- The value of a bucket: 0 if any check failed, 1 if all passed, or the median. -/
def aggregate (half : Q → Q → Q) (binary : Bool) (values : List Q) : Option Q :=
  if binary then values.min? else computeMedian half values

variable (format : LineFormat V)

/-- `_last_ts_locked`. -/
def lastTs (s : Series) : Option Int :=
  let tail := tailActive format s.active 8
  if tail.isEmpty then
    (s.segments.reverse.filterMap fun entry => (segmentInfo format entry.2.content).2).head?
  else (tail.map Point.ts).max?

/-- The buckets that the locked part of `downsample_series` does not skip. -/
def newBuckets (newest : Option Int) (buckets : List (Int × V)) : List (Int × V) :=
  buckets.filter fun bucket => !newest.any fun ts => decide (bucket.1 ≤ ts)

/-- The lines of some buckets. -/
def bucketLines (buckets : List (Int × V)) : List Text :=
  buckets.map fun bucket => recordLine format bucket.1 bucket.2

/-- The locked part of `downsample_series`: append a line for every new bucket. -/
def writeBuckets (buckets : List (Int × V)) (s : Series) : Series :=
  s.append (bucketLines format (newBuckets (lastTs format s) buckets)).flatten

/-- The buckets that `downsample_series` collects from some lines, in the order of
their starts, with their values in the order of the lines. -/
def collectBuckets (finite : V → Option Q) (seconds lo hi : Int) (lines : List Text) :
    List (Int × List Q) :=
  Dict.fill Prod.fst (fun old item => old.getD [] ++ [item.2])
    ((lines.filterMap (parsePoint format (some lo) (some (hi - 1)))).filterMap fun point =>
      (finite point.value).map fun number => (bucketKey seconds point.ts, number)) []

/-- The start of the first bucket that is still to be written. -/
def rollupStart (seconds since : Int) (watermark : Option Int) : Int :=
  match watermark with
  | none => ceilToBucket seconds since
  | some ts => max (ceilToBucket seconds since) (bucketKey seconds ts + seconds * second)

variable (numbers : Numbers V Q) (resolution : Resolution)

/-- The values of the buckets that `downsample_series` offers to its locked part;
`resolution` is that of the source. -/
def dueBuckets (binary : Bool) (seconds now since until_ : Int) (source : Series)
    (watermark : Option Int) : List (Int × V) :=
  let lo := rollupStart seconds since watermark
  let hi := bucketKey seconds until_
  if hi ≤ lo then []
  else
    (collectBuckets format numbers.finite seconds lo hi
      (iterSeriesLines resolution now (some lo) (some hi) source)).filterMap fun bucket =>
        (aggregate numbers.half binary bucket.2).map fun value => (bucket.1, numbers.write value)

/-- `downsample_series`: the target series afterwards and the number of points
created. -/
def downsampleSeries (binary : Bool) (seconds now since until_ : Int) (source target : Series) :
    Series × Nat :=
  let buckets := dueBuckets format numbers resolution binary seconds now since until_ source
    (lastTs format target)
  if buckets.isEmpty then (target, 0)
  else (writeBuckets format buckets target,
    (newBuckets (lastTs format target) buckets).length)

end Justup.Store
