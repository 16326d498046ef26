import Mathlib
import Justup.Lib.Runs
import Justup.Geo.RouteModel

/-!
# The points of the map

The hops that have a role on the map make one chain.  A point is linked when the
next one is met; then neighbouring hops at one place are merged.
-/

namespace Justup.Geo

open Store Lib.Runs

inductive SegmentType where
  | solid
  | dashed
  deriving DecidableEq, Repr

/-- `location_note` -/
inductive LocationNote where
  | countryCenter
  | estimate (label : Text) (radius : Option ℚ)
  deriving DecidableEq

structure Point where
  hop : ℤ
  ip : Option Text
  lat : Option Value
  lon : Option Value
  city : Option Text
  country : Option Text
  accuracyClass : Option AccuracyClass
  accuracyRadiusKm : Option Value
  confidence : Option Confidence
  countryCenter : Bool
  precision : Precision
  approximate : Bool
  mapRole : MapRole
  locNote : Option LocationNote
  destination : Bool := false
  terminal : Bool := false
  geoUnavailable : Bool := false
  segmentToNext : Option SegmentType := none
  segmentNote : Option (List (ℤ × ℤ)) := none
  hopRange : Option (ℤ × ℤ) := none
  mapRadiusKm : Option ℚ := none
  deriving DecidableEq

/-- `_SOURCE_LABEL`, with its default. -/
def sourceLabel : Option Confidence → Text
  | some .geoip => "GeoIP".toList
  | some .hostname => "hostname hint".toList
  | some .online => "online lookup".toList
  | _ => "Location".toList

/-- `location_note` -/
def locationNote (loc : Location) : LocationNote :=
  if loc.countryCenter then .countryCenter
  else
    .estimate (sourceLabel loc.confidence)
      (match loc.accuracyRadiusKm with
      | some (.number radius) => if 0 < radius then some radius else none
      | _ => none)

/-- `range(first, last + 1)` -/
def hopsBetween (first last : ℤ) : List ℤ :=
  (List.range (last + 1 - first).toNat).map fun (i : ℕ) => first + i

/-- The next number of `_hop_ranges`, the ranges so far the last one first. -/
def addToRanges (parts : List (ℤ × ℤ)) (hop : ℤ) : List (ℤ × ℤ) :=
  match parts with
  | [] => [(hop, hop)]
  | (first, last) :: rest =>
      if last = hop - 1 then (first, hop) :: rest else (hop, hop) :: (first, last) :: rest

/-- `_hop_ranges` -/
def hopRanges (hops : List ℤ) : List (ℤ × ℤ) :=
  ((hops.dedup.mergeSort fun a b => decide (a ≤ b)).foldl addToRanges []).reverse

/-- `_link` -/
def Point.link (tail : Point) (gap nextApproximate : Bool) (skipped : List ℤ) : Point :=
  { tail with
    segmentToNext := if gap || nextApproximate || tail.approximate then some .dashed
      else tail.segmentToNext
    segmentNote := if skipped.isEmpty then tail.segmentNote else some (hopRanges skipped) }

variable (lookups : Lookups)

/-- A hop that is never located. -/
def Hop.silent (hop : Hop) : Bool :=
  hop.interpolated || noAddress hop.ip ||
    !(decide (hop.normalized = .ok) || decide (hop.normalized = .partially))

/-- The location at which a hop is drawn; the destination's is a projection already. -/
def drawnLocation (destinationIp : Option Text) (destinationGeo : Option Location) (hop : Hop) :
    Option Location :=
  shownLocation lookups hop.ip (hopLocation lookups destinationIp destinationGeo hop)

/-- The point of a located hop. -/
def locatedPoint (hop : Hop) (loc : Location) (role : MapRole) (destination : Bool) : Point where
  hop := hop.number
  ip := hop.ip
  lat := loc.lat
  lon := loc.lon
  city := (locationView (some loc)).city
  country := (locationView (some loc)).country
  accuracyClass := loc.accuracyClass
  accuracyRadiusKm := loc.accuracyRadiusKm
  confidence := loc.confidence
  countryCenter := loc.countryCenter
  precision := (locationView (some loc)).precision
  approximate := (classifyLocation (some loc)).2 = .approximate
  mapRole := role
  locNote := if (classifyLocation (some loc)).2 = .approximate then some (locationNote loc) else none
  destination := destination
  terminal := destination
  segmentToNext := some .solid

/-- The point of a hop, when it has a role on the map. -/
def hopPoint (destinationIp : Option Text) (destinationGeo : Option Location) (hop : Hop) :
    Option Point :=
  if hop.silent then none
  else
    match drawnLocation lookups destinationIp destinationGeo hop with
    | none => none
    | some loc =>
        let destination := isDestination destinationIp hop.ip
        if mapRole (some loc) destination = .none then none
        else some (locatedPoint hop loc (mapRole (some loc) destination) destination)

/-- The loop over the hops: the points before the last, the last, and what was met after it. -/
structure Walk where
  placed : List Point := []
  tail : Option Point := none
  gap : Bool := false
  skipped : List ℤ := []
  prevHop : Option ℤ := none

/-- A missing hop number is a gap too. -/
def Walk.reach (walk : Walk) (number : ℤ) : Walk :=
  match walk.prevHop with
  | none => { walk with prevHop := some number }
  | some prev =>
      if prev + 1 < number then
        { walk with
          gap := true
          skipped := walk.skipped ++ hopsBetween (prev + 1) (number - 1)
          prevHop := some number }
      else { walk with prevHop := some number }

def Walk.skip (walk : Walk) (number : ℤ) : Walk :=
  { walk with gap := true, skipped := walk.skipped ++ [number] }

/-- The points up to the tail, as the next one leaves them. -/
def Walk.linked (walk : Walk) (nextApproximate : Bool) : List Point :=
  walk.placed ++
    (walk.tail.map fun tail => tail.link walk.gap nextApproximate walk.skipped).toList

def Walk.place (walk : Walk) (point : Point) : Walk :=
  { walk with
    placed := walk.linked point.approximate
    tail := some point
    gap := false
    skipped := [] }

/-- One turn of the loop. -/
def walkHop (destinationIp : Option Text) (destinationGeo : Option Location) (walk : Walk)
    (hop : Hop) : Walk :=
  match hopPoint lookups destinationIp destinationGeo hop with
  | none => (walk.reach hop.number).skip hop.number
  | some point => (walk.reach hop.number).place point

/-- The last point is the destination. -/
def Point.finish (destinationIp : Option Text) (tail : Point) : Point :=
  if isDestination destinationIp tail.ip then
    { tail with
      destination := true
      terminal := true
      segmentToNext := none
      confidence := some (tail.confidence.getD .geoip)
      geoUnavailable := tail.geoUnavailable || (nonEmpty tail.city).isNone }
  else tail

def Walk.finish (destinationIp : Option Text) (walk : Walk) : Walk :=
  { walk with tail := walk.tail.map (Point.finish destinationIp) }

def Walk.points (walk : Walk) : List Point := walk.placed ++ walk.tail.toList

/-- The point that is added for a destination that no located hop is. -/
def destinationPoint (hops : List Hop) (destinationIp : Option Text) (geo : Location) : Point where
  hop := (destinationDisposition hops destinationIp).1 + 1
  ip := destinationIp
  lat := geo.lat
  lon := geo.lon
  city := (locationView (some geo)).city
  country := (locationView (some geo)).country
  accuracyClass := geo.accuracyClass
  accuracyRadiusKm := geo.accuracyRadiusKm
  confidence := some .destination
  countryCenter := geo.countryCenter
  precision := (locationView (some geo)).precision
  approximate := (classifyLocation (some geo)).2 = .approximate
  mapRole := mapRole (some geo) true
  locNote := if (classifyLocation (some geo)).2 = .approximate then some (locationNote geo) else none
  destination := true
  terminal := true

/-- The destination that is added, when it has a role on the map. -/
def addedDestination (hops : List Hop) (destinationIp : Option Text)
    (destinationGeo : Option Location) (points : List Point) : Option Point :=
  if (nonEmpty destinationIp).isSome && !points.any Point.destination then
    match destinationGeo with
    | none => none
    | some geo =>
        if mapRole (some geo) true = .none then none
        else some (destinationPoint hops destinationIp geo)
  else none

/-- The chain of points before any is merged. -/
def chainPoints (hops : List Hop) (destinationIp : Option Text)
    (destinationGeo : Option Location) : List Point :=
  let walk := (hops.foldl (walkHop lookups destinationIp destinationGeo) {}).finish destinationIp
  match addedDestination hops destinationIp destinationGeo walk.points with
  | none => walk.points
  | some point => walk.linked point.approximate ++ [point]

/-- `round(value, digits)` to a whole number of units: ties to even. -/
def roundHalfEven (value : ℚ) : ℤ :=
  if value - ⌊value⌋ < 1 / 2 then ⌊value⌋
  else if 1 / 2 < value - ⌊value⌋ then ⌊value⌋ + 1
  else if ⌊value⌋ % 2 = 0 then ⌊value⌋ else ⌊value⌋ + 1

def geoDedupDecimals : ℕ := 4

def coordinateKey : Option Value → ℤ
  | some (.number value) => roundHalfEven (value * 10 ^ geoDedupDecimals)
  | some (.flag true) => 10 ^ geoDedupDecimals
  | _ => 0

/-- `_key` -/
def Point.key (point : Point) : ℤ × ℤ := (coordinateKey point.lat, coordinateKey point.lon)

def samePlace (first point : Point) : Bool := first.key = point.key

/-- `_follows` -/
def follows (runLast point : Point) : Bool :=
  decide (point.mapRole = runLast.mapRole) && decide (point.hop = runLast.hop + 1)

def Point.isApproximate (point : Point) : Bool :=
  point.approximate || point.accuracyClass = some .approximate

/-- The radius counts when it is a number that is not negative. -/
def Point.radius (point : Point) : Option ℚ :=
  match point.accuracyRadiusKm with
  | some (.number radius) => if 0 ≤ radius then some radius else none
  | _ => none

/-- What the representative of a run becomes. -/
def Point.standFor (point : Point) (run : List Point) : Point :=
  if run.length ≤ 1 then point
  else
    let hops := run.map Point.hop
    let last := run.getLast?
    let approximate := run.filter Point.isApproximate
    let point :=
      { point with
        hopRange := some (hops.min?.getD 0, hops.max?.getD 0)
        segmentToNext := (last.bind Point.segmentToNext).or point.segmentToNext
        segmentNote := (last.bind Point.segmentNote).or point.segmentNote }
    if approximate.isEmpty then point
    else
      { point with
        approximate := true
        accuracyClass := some .approximate
        precision := .approximate
        accuracyRadiusKm :=
          (((approximate.filterMap Point.radius).max?).map Value.number).or point.accuracyRadiusKm }

/-- The last run is represented by its last member, every other one by its first. -/
def representRuns : List (List Point) → List Point
  | [] => []
  | [run] => (run.getLast?.map fun point => point.standFor run).toList
  | run :: rest => (run.head?.map fun point => point.standFor run).toList ++ representRuns rest

/-- The runs to merge: a route at one place keeps its last point apart. -/
def dedupRuns (points : List Point) : List (List Point) :=
  let found := runs samePlace follows points
  if found.length = 1 then [points.dropLast, points.getLast?.toList] else found

/-- `_deduplicate_geo_points` -/
def deduplicateGeoPoints (points : List Point) : List Point :=
  if points.length ≤ 2 then points else representRuns (dedupRuns points)

def maxMapRadiusKm : ℚ := 250

/-- The radius that a renderer may draw. -/
def Point.withMapRadius (point : Point) : Point :=
  let radius : Option ℚ :=
    match point.accuracyRadiusKm with
    | some (.number radius) => some radius
    | some (.flag true) => some 1
    | _ => none
  match radius with
  | none => point
  | some radius =>
      if point.approximate ∧ 0 < radius ∧ radius ≤ maxMapRadiusKm then
        { point with mapRadiusKm := some radius }
      else point

/-- `mtr_hops_to_geo_points` -/
def mtrHopsToGeoPoints (hops : List Hop) (destinationIp : Option Text)
    (destinationGeo : Option Location) : List Point :=
  if hops.isEmpty then []
  else
    let points := chainPoints lookups hops destinationIp (mapLocation lookups destinationGeo)
    (if points.length > 2 then deduplicateGeoPoints points else points).map Point.withMapRadius

end Justup.Geo
