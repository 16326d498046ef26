import Mathlib
import Justup.Geo.Location

/-!
# The route model

One node for each traced hop, in the order of the trace, and one for a
destination that no hop is.
-/

namespace Justup.Geo

open Store

inductive HopStatus where
  | ok
  | partially
  | timeout
  | interpolated
  | other
  deriving DecidableEq, Repr

/-- A traced hop.  An `ip` that the dict does not have is `"*"`. -/
structure Hop where
  number : ℤ
  ip : Option Text := some "*".toList
  hostname : Option Text := none
  status : HopStatus := .ok
  interpolated : Bool := false
  deriving DecidableEq

/-- `ip in ("*", "-", "???")` -/
def noAddress (ip : Option Text) : Bool :=
  ip = some "*".toList || ip = some "-".toList || ip = some "???".toList

/-- `_normalize_hop_status` -/
def normalizeHopStatus (ip : Option Text) : HopStatus → HopStatus
  | .other => if (nonEmpty ip).isSome && !noAddress ip then .ok else .timeout
  | status => status

def Hop.normalized (hop : Hop) : HopStatus := normalizeHopStatus hop.ip hop.status

/-- `bool(destination_ip and ip == destination_ip)` -/
def isDestination (destinationIp ip : Option Text) : Bool :=
  (nonEmpty destinationIp).isSome && decide (ip = destinationIp)

def Hop.responded (hop : Hop) : Bool := hop.status = .ok || hop.status = .partially

/-- `_destination_disposition`: the last hop number, and whether the destination was reached. -/
def destinationDisposition (hops : List Hop) (destinationIp : Option Text) : ℤ × Bool :=
  (((hops.map Hop.number).max?).getD 0,
    match hops.reverse.find? Hop.responded with
    | none => false
    | some last => isDestination destinationIp last.ip)

/-- What a node of the route model says of its location. -/
structure NodeLocation where
  lat : Option Value
  lon : Option Value
  city : Option Text
  country : Option Text
  deriving DecidableEq

structure RouteNode where
  hop : ℤ
  ip : Option Text
  hostname : Option Text
  status : HopStatus
  location : Option NodeLocation
  geoSource : GeoSource
  accuracy : GeoAccuracy
  synthetic : Bool
  destination : Bool
  mappable : Bool
  mapRole : MapRole
  deriving DecidableEq

variable (lookups : Lookups)

/-- The location that decides the role: of a public address the one that the map shows. -/
def shownLocation (ip : Option Text) (loc : Option Location) : Option Location :=
  if lookups.publicIp ip then mapLocation lookups loc else loc

/-- `_route_node` -/
def routeNode (hop : ℤ) (ip hostname : Option Text) (status : HopStatus) (loc : Option Location)
    (synthetic destination : Bool) : RouteNode where
  hop := hop
  ip := ip
  hostname := hostname
  status := status
  location :=
    match (classifyLocation loc).2, loc with
    | .precise, some loc => some ⟨loc.lat, loc.lon, loc.city, loc.country⟩
    | .approximate, some loc => some ⟨none, none, none, loc.country⟩
    | _, _ => none
  geoSource := (classifyLocation loc).1
  accuracy := (classifyLocation loc).2
  synthetic := synthetic
  destination := destination
  mappable := (classifyLocation loc).2 = .precise
  mapRole := mapRole (shownLocation lookups ip loc) destination

/-- The location of an answering hop: the destination has one of its own. -/
def hopLocation (destinationIp : Option Text) (destinationGeo : Option Location) (hop : Hop) :
    Option Location :=
  if isDestination destinationIp hop.ip && destinationGeo.isSome then destinationGeo
  else lookups.geolocate hop.ip hop.hostname

/-- The node of a traced hop. -/
def hopNode (destinationIp : Option Text) (destinationGeo : Option Location) (hop : Hop) :
    RouteNode :=
  let status := hop.normalized
  if status = .interpolated ∨ hop.interpolated then
    routeNode lookups hop.number hop.ip hop.hostname .interpolated none false false
  else if status = .timeout ∨ noAddress hop.ip then
    routeNode lookups hop.number hop.ip hop.hostname .timeout none false false
  else if status ≠ .ok ∧ status ≠ .partially then
    routeNode lookups hop.number hop.ip hop.hostname status none false false
  else
    routeNode lookups hop.number hop.ip hop.hostname status
      (hopLocation lookups destinationIp destinationGeo hop) false
      (isDestination destinationIp hop.ip)

/-- The node of a destination that no hop is. -/
def destinationNode (hops : List Hop) (destinationIp : Option Text)
    (destinationGeo : Option Location) : RouteNode :=
  let (lastHop, reached) := destinationDisposition hops destinationIp
  routeNode lookups (lastHop + 1) destinationIp none (if reached then .ok else .timeout)
    (destinationGeo.filter fun geo => geo.lat.isSome) (!reached) true

/-- `build_route_model` -/
def buildRouteModel (hops : List Hop) (destinationIp : Option Text)
    (destinationGeo : Option Location) : List RouteNode :=
  if hops.isEmpty then []
  else
    let nodes := hops.map (hopNode lookups destinationIp destinationGeo)
    if (nonEmpty destinationIp).isSome && !nodes.any RouteNode.destination then
      nodes ++ [destinationNode lookups hops destinationIp destinationGeo]
    else nodes

end Justup.Geo
