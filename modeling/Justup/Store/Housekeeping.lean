import Justup.Store.CompactRun
import Justup.Store.Rollup

/-!
# Housekeeping of one metric

`run_rollups` and `prune_all_series` for the three series of a metric, among
appends and compactions.  A housekeeping run is a rollup, a prune and
compactions, in this order; appends can take place between them.
-/

namespace Justup.Store

open Justup.Lib

variable {V Q : Type*} [LinearOrder Q]

/-- `_series_exists`. -/
def seriesExists (s : Series) : Bool := s.active.isSome || !s.segments.isEmpty

/-- The raw series of a metric and its rollups. -/
structure Tiers where
  raw : System
  five : System
  hour : System
  deriving DecidableEq, Repr

def Tiers.start : Tiers :=
  ⟨System.start Series.empty, System.start Series.empty, System.start Series.empty⟩

def Tiers.get (tiers : Tiers) : Resolution → System
  | .raw => tiers.raw
  | .fiveMinute => tiers.five
  | .hour => tiers.hour

def Tiers.set (tiers : Tiers) (sys : System) : Resolution → Tiers
  | .raw => { tiers with raw := sys }
  | .fiveMinute => { tiers with five := sys }
  | .hour => { tiers with hour := sys }

/-- The widths of the buckets, in seconds. -/
def fiveMinuteSeconds : Int := 300
def hourSeconds : Int := 3600

/-- The end of what a rollup from a resolution converts: a day before it expires. -/
def handoff (resolution : Resolution) (retention now : Int) : Int :=
  now - max 0 (effectiveRetention resolution retention - 1) * day

/-- The cutoff of a prune. -/
def expiry (resolution : Resolution) (retention now : Int) : Int :=
  now - effectiveRetention resolution retention * day

variable (format : LineFormat V) (numbers : Numbers V Q) (metric : Text) (retention : Int)

/-- The first half of the loop body of `run_rollups`. -/
def rollupFive (now : Int) (raw five : Series) : Series × Nat :=
  downsampleSeries format numbers .raw (isBinaryMetric (baseMetric metric)) fiveMinuteSeconds now 0
    (handoff .raw retention now) raw five

/-- The second half. -/
def rollupHour (now : Int) (five hour : Series) : Series × Nat :=
  downsampleSeries format numbers .fiveMinute (isBinaryMetric (baseMetric metric)) hourSeconds now
    0 (handoff .fiveMinute retention now) five hour

/-- `run_rollups` for one metric.  The loop runs over the metrics that have a raw
series and skips the categorical ones. -/
def runRollups (now : Int) (raw five hour : Series) : (Series × Nat) × (Series × Nat) :=
  if seriesExists raw && !nonResampleMetrics.contains (baseMetric metric) then
    let toFive := rollupFive format numbers metric retention now raw five
    (toFive, rollupHour format numbers metric retention now toFive.1 hour)
  else ((five, 0), (hour, 0))

/-- `prune_all_series` for one series. -/
def pruneTier (resolution : Resolution) (now : Int) (sys : System) : System :=
  { sys with
    series := pruneSeries format resolution (expiry resolution retention now) sys.series }

inductive TierAct (V : Type*) where
  | append (ts : Int) (value : V)
  /-- The prune on the append path. -/
  | trim (now : Int)
  | rollup (now : Int)
  | pruneAll (now : Int)
  /-- `compact_target` takes the start of its day and turns to one series. -/
  | beginCompaction (resolution : Resolution) (now : Int)
  /-- A further step of that compaction. -/
  | compact (resolution : Resolution) (act : Act V)

/-- One step. -/
def Tiers.step (tiers : Tiers) : TierAct V → Option Tiers
  | .append ts value =>
      some { tiers with
        raw := { tiers.raw with series := appendPoint format ts value tiers.raw.series } }
  | .trim now =>
      some { tiers with
        raw := { tiers.raw with
          series := pruneActive format (now - validateRetention retention * day)
            tiers.raw.series } }
  | .rollup now =>
      let rolled := runRollups format numbers metric retention now tiers.raw.series
        tiers.five.series tiers.hour.series
      some { tiers with
        five := { tiers.five with series := rolled.1.1 }
        hour := { tiers.hour with series := rolled.2.1 } }
  | .pruneAll now =>
      some ⟨pruneTier format retention .raw now tiers.raw,
        pruneTier format retention .fiveMinute now tiers.five,
        pruneTier format retention .hour now tiers.hour⟩
  | .beginCompaction resolution now =>
      (Store.step format resolution (tiers.get resolution) (.stat (hotStart now))).map fun sys =>
        tiers.set sys resolution
  | .compact resolution act =>
      match act with
      | .write _ => none
      | .interrupt _ => none
      | .stat _ => none
      | act =>
          (Store.step format resolution (tiers.get resolution) act).map fun sys =>
            tiers.set sys resolution

/-! ## Histories -/

/-- The series together with what has happened: the latest time of a step, the
time of the last rollup, all samples that were appended and all points that were
written to the 5-minute series. -/
structure History (V : Type*) where
  tiers : Tiers
  clock : Int
  rolledAt : Option Int
  appended : List (Point V)
  written : List (Point V)

def History.start : History V := ⟨Tiers.start, 0, none, [], []⟩

/-- The time of a step. -/
def TierAct.now? : TierAct V → Option Int
  | .append _ _ => none
  | .trim now => some now
  | .rollup now => some now
  | .pruneAll now => some now
  | .beginCompaction _ now => some now
  | .compact _ _ => none

/-- What a step appends to the raw series. -/
def TierAct.samples : TierAct V → List (Point V)
  | .append ts value => [⟨ts, value⟩]
  | _ => []

/-- The time of the last rollup after a step. -/
def TierAct.rolledAt (last : Option Int) : TierAct V → Option Int
  | .rollup now => some now
  | _ => last

end Justup.Store
