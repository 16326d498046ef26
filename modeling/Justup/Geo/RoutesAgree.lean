import Mathlib
import Justup.Geo.Chain

/-!
# Two views of a route

The route model and the points of the map read the same hops.  They differ in
two places: the model takes the destination's location as it is where its
address is not public, and only with a latitude when no hop is the destination.
And a destination that is merged behind another hop loses its mark on the map.
-/

namespace Justup.Geo

open Store Lib.Runs

/-- The points of the map show what the route model says. -/
structure RoutesAgree (model : List RouteNode) (points : List Point) : Prop where
  drawn : ∀ node ∈ model, (∃ point ∈ points, point.Covers node.hop) ↔ node.mapRole ≠ .none
  role : ∀ node ∈ model, ∀ point ∈ points, point.Covers node.hop → point.mapRole = node.mapRole
  destination : ∀ number, (∃ point ∈ points, point.destination = true ∧ point.hop = number) ↔
    ∃ node ∈ model, node.destination = true ∧ node.mapRole ≠ .none ∧ node.hop = number

variable (lookups : Lookups)

/-- A hop that answers as the destination. -/
def Hop.answersAs (hop : Hop) (destinationIp : Option Text) : Bool :=
  !hop.silent && isDestination destinationIp hop.ip

/-- The destination has the role on the map that its own location has, or it is public and the
model projects its location too. -/
def RolesCoincide (hops : List Hop) (destinationIp : Option Text)
    (destinationGeo : Option Location) : Prop :=
  (nonEmpty destinationIp).isSome →
    mapRole destinationGeo true = mapRole (mapLocation lookups destinationGeo) true ∨
      lookups.publicIp destinationIp = true ∧
        ((∃ hop ∈ hops, hop.answersAs destinationIp = true) ∨
          ∃ geo, destinationGeo = some geo ∧ geo.lat.isSome)

/-- A station that is the destination stands for its group. -/
def MarksKept (stations : List Station) : Prop :=
  ∀ station ∈ stations, station.destination = true → station ∈ representatives (groups stations)

/-- The role of a hop, with the destination's location as it is given. -/
def Hop.roleOnMap (destinationIp : Option Text) (destinationGeo : Option Location) (hop : Hop) :
    MapRole :=
  if hop.silent then .none
  else
    mapRole (drawnLocation lookups destinationIp destinationGeo hop)
      (isDestination destinationIp hop.ip)

variable {lookups} {destinationIp : Option Text} {destinationGeo : Option Location}

theorem shownLocation_none (ip : Option Text) : shownLocation lookups ip none = none := by
  unfold shownLocation
  split
  · rfl
  · rfl

/-- A hop without a location has no role. -/
theorem mapRole_routeNode_none (number : ℤ) (ip hostname : Option Text) (status : HopStatus) :
    (routeNode lookups number ip hostname status none false false).mapRole = .none := by
  change mapRole (shownLocation lookups ip none) false = .none
  rw [shownLocation_none]
  rfl

/-- The model leaves out the location of the hops that the map leaves out. -/
theorem hopNode_eq (hop : Hop) :
    hopNode lookups destinationIp destinationGeo hop =
      if hop.silent then
        routeNode lookups hop.number hop.ip hop.hostname
          (hopNode lookups destinationIp destinationGeo hop).status none false false
      else
        routeNode lookups hop.number hop.ip hop.hostname hop.normalized
          (hopLocation lookups destinationIp destinationGeo hop) false
          (isDestination destinationIp hop.ip) := by
  unfold hopNode Hop.silent
  cases hinterpolated : hop.interpolated with
  | true => simp [routeNode]
  | false =>
      cases haddress : noAddress hop.ip with
      | true =>
          cases hstatus : hop.normalized <;> simp [routeNode]
      | false => cases hstatus : hop.normalized <;> simp [routeNode]

theorem mapRole_hopNode (hop : Hop) :
    (hopNode lookups destinationIp destinationGeo hop).mapRole =
      hop.roleOnMap lookups destinationIp destinationGeo := by
  rw [hopNode_eq]
  unfold Hop.roleOnMap
  cases hop.silent with
  | true => exact mapRole_routeNode_none _ _ _ _
  | false => rfl

theorem destination_hopNode (hop : Hop) :
    (hopNode lookups destinationIp destinationGeo hop).destination =
      hop.answersAs destinationIp := by
  rw [hopNode_eq]
  unfold Hop.answersAs
  cases hop.silent with
  | true => rfl
  | false => rfl

theorem hop_hopNode (hop : Hop) :
    (hopNode lookups destinationIp destinationGeo hop).hop = hop.number := by
  rw [hopNode_eq]
  cases hop.silent with
  | true => rfl
  | false => rfl

/-- A hop has a point when it has a role, and the point has that role. -/
theorem station_of_hopPoint {hop : Hop} {point : Point}
    (hpoint : hopPoint lookups destinationIp destinationGeo hop = some point) :
    point.hop = hop.number ∧
      point.mapRole = hop.roleOnMap lookups destinationIp destinationGeo ∧
      point.destination = hop.answersAs destinationIp ∧ point.mapRole ≠ .none := by
  obtain ⟨hsilent, loc, hloc, hrole, rfl⟩ := hopPoint_eq_some hpoint
  unfold Hop.roleOnMap Hop.answersAs
  rw [hsilent, hloc]
  exact ⟨rfl, rfl, rfl, hrole⟩

theorem exists_hopPoint {hop : Hop}
    (hrole : hop.roleOnMap lookups destinationIp destinationGeo ≠ .none) :
    ∃ point, hopPoint lookups destinationIp destinationGeo hop = some point := by
  unfold Hop.roleOnMap at hrole
  cases hsilent : hop.silent with
  | true => simp [hsilent] at hrole
  | false =>
      simp only [hsilent, Bool.false_eq_true, if_false] at hrole
      cases hloc : drawnLocation lookups destinationIp destinationGeo hop with
      | none => simp [hloc] at hrole
      | some loc =>
          rw [hloc] at hrole
          refine ⟨locatedPoint hop loc (mapRole (some loc) (isDestination destinationIp hop.ip))
            (isDestination destinationIp hop.ip), ?_⟩
          simp only [hopPoint, hsilent, hloc, Bool.false_eq_true, if_false, hrole]

theorem Increasing.eq_of_number {hops : List Hop} (hincreasing : Increasing hops) {hop other : Hop}
    (hhop : hop ∈ hops) (hother : other ∈ hops) (hnumber : hop.number = other.number) :
    hop = other := by
  have hnodup : (hops.map Hop.number).Nodup :=
    List.pairwise_map.mpr (hincreasing.imp fun hlt => ne_of_lt hlt)
  exact List.inj_on_of_nodup_map hnodup hhop hother hnumber

/-- A station is a hop with a role, or the destination that was added. -/
inductive StationOf (lookups : Lookups) (hops : List Hop) (destinationIp : Option Text)
    (destinationGeo : Option Location) (station : Station) : Prop where
  | located (hop : Hop) (hmem : hop ∈ hops) (hnumber : station.hop = hop.number)
      (hrole : station.role = hop.roleOnMap lookups destinationIp destinationGeo)
      (hdestination : station.destination = hop.answersAs destinationIp)
      (hdrawn : station.role ≠ .none)
  | added (hnumber : station.hop = (destinationDisposition hops destinationIp).1 + 1)
      (hrole : station.role = mapRole destinationGeo true) (hdestination : station.destination = true)
      (hdrawn : station.role ≠ .none)
      (hadded : (addedDestination hops destinationIp destinationGeo
        (locatedPoints lookups hops destinationIp destinationGeo)).isSome)

theorem stationOf_of_mem {hops : List Hop} {station : Station}
    (hstation : station ∈ stations lookups hops destinationIp destinationGeo) :
    StationOf lookups hops destinationIp destinationGeo station := by
  obtain ⟨point, hpoint, rfl⟩ := List.mem_map.mp hstation
  obtain hlocated | hadded := List.mem_append.mp hpoint
  · obtain ⟨hop, hhop, hpoint⟩ := mem_locatedPoints.mp hlocated
    obtain ⟨hnumber, hrole, hdestination, hdrawn⟩ := station_of_hopPoint hpoint
    exact .located hop hhop hnumber hrole hdestination hdrawn
  · have hsome := Option.mem_toList.mp hadded
    obtain ⟨_, _, geo, hgeo, hdrawn, rfl⟩ := addedDestination_eq_some hsome
    exact .added rfl (by rw [hgeo]; rfl) rfl hdrawn (by rw [hsome]; rfl)

/-- A hop with a role is a station. -/
theorem exists_station_of_hop {hops : List Hop} {hop : Hop} (hhop : hop ∈ hops)
    (hrole : hop.roleOnMap lookups destinationIp destinationGeo ≠ .none) :
    ∃ station ∈ stations lookups hops destinationIp destinationGeo,
      station.hop = hop.number ∧
        station.role = hop.roleOnMap lookups destinationIp destinationGeo ∧
        station.destination = hop.answersAs destinationIp := by
  obtain ⟨point, hpoint⟩ := exists_hopPoint hrole
  obtain ⟨hnumber, hroleOf, hdestination, _⟩ := station_of_hopPoint hpoint
  exact ⟨point.station, List.mem_map_of_mem (List.mem_append_left _
    (mem_locatedPoints.mpr ⟨hop, hhop, hpoint⟩)), hnumber, hroleOf, hdestination⟩

/-- The station of a hop is the one with its number. -/
theorem exists_station_iff {hops : List Hop} (hincreasing : Increasing hops) {hop : Hop}
    (hhop : hop ∈ hops) (role : MapRole) :
    (∃ station ∈ stations lookups hops destinationIp destinationGeo,
        station.hop = hop.number ∧ station.role = role) ↔
      role ≠ .none ∧ hop.roleOnMap lookups destinationIp destinationGeo = role := by
  constructor
  · rintro ⟨station, hstation, hnumber, rfl⟩
    cases stationOf_of_mem hstation with
    | located other hother hhopOf hrole _ hdrawn =>
        obtain rfl := hincreasing.eq_of_number hhop hother (hnumber.symm.trans hhopOf)
        exact ⟨hdrawn, hrole.symm⟩
    | added hlast _ _ _ _ =>
        have hle := @number_le_lastHop destinationIp hops hop hhop
        omega
  · rintro ⟨hne, rfl⟩
    obtain ⟨station, hstation, hnumber, hrole, _⟩ := exists_station_of_hop hhop hne
    exact ⟨station, hstation, hnumber, hrole⟩

theorem ip_of_isDestination {ip : Option Text} (his : isDestination destinationIp ip = true) :
    ip = destinationIp := by
  rw [isDestination, Bool.and_eq_true, decide_eq_true_eq] at his
  exact his.2

theorem drawnLocation_of_destination {hop : Hop} {geo : Location}
    (hdestination : isDestination destinationIp hop.ip = true) :
    drawnLocation lookups destinationIp (some geo) hop =
      shownLocation lookups destinationIp (some geo) := by
  unfold drawnLocation hopLocation
  rw [hdestination, ip_of_isDestination hdestination]
  rfl

/-- A destination that a hop answers as is not added. -/
theorem not_answersAs_of_added {hops : List Hop} {point : Point}
    (hadded : addedDestination hops destinationIp (mapLocation lookups destinationGeo)
      (locatedPoints lookups hops destinationIp (mapLocation lookups destinationGeo)) = some point) :
    ∀ hop ∈ hops, hop.answersAs destinationIp = false := by
  intro hop hhop
  by_contra hanswers
  rw [Bool.not_eq_false, Hop.answersAs, Bool.and_eq_true, Bool.not_eq_true'] at hanswers
  obtain ⟨hsilent, hdestination⟩ := hanswers
  obtain ⟨_, hnone, geo, hgeo, hrole, _⟩ := addedDestination_eq_some hadded
  have hprojected : shownLocation lookups destinationIp (some geo) = some geo := by
    unfold shownLocation
    split
    · rw [← hgeo, mapLocation_mapLocation]
    · rfl
  have hroleOf : hop.roleOnMap lookups destinationIp (mapLocation lookups destinationGeo) ≠ .none := by
    unfold Hop.roleOnMap
    rw [hsilent, hgeo, drawnLocation_of_destination hdestination, hprojected, hdestination]
    exact hrole
  obtain ⟨located, hlocated⟩ := exists_hopPoint hroleOf
  have hmark := (station_of_hopPoint hlocated).2.2.1
  rw [Hop.answersAs, hsilent, hdestination] at hmark
  have hmem := mem_locatedPoints.mpr ⟨hop, hhop, hlocated⟩
  exact absurd hmark (by simpa using List.any_eq_false.mp hnone located hmem)

/-- A destination that no hop answers as is a station, when its location has a role. -/
theorem exists_added_station {hops : List Hop} (hdestination : (nonEmpty destinationIp).isSome)
    (hanswers : ∀ hop ∈ hops, hop.answersAs destinationIp = false)
    (hrole : mapRole destinationGeo true ≠ .none) :
    ∃ station ∈ stations lookups hops destinationIp destinationGeo,
      station.hop = (destinationDisposition hops destinationIp).1 + 1 ∧
        station.role = mapRole destinationGeo true ∧ station.destination = true := by
  have hnone : (locatedPoints lookups hops destinationIp destinationGeo).any Point.destination =
      false := by
    rw [List.any_eq_false]
    intro point hpoint
    obtain ⟨hop, hhop, hlocated⟩ := mem_locatedPoints.mp hpoint
    rw [(station_of_hopPoint hlocated).2.2.1, hanswers hop hhop]
    exact Bool.false_ne_true
  cases destinationGeo with
  | none => exact absurd rfl hrole
  | some geo =>
      have hadded : addedDestination hops destinationIp (some geo)
          (locatedPoints lookups hops destinationIp (some geo)) =
            some (destinationPoint hops destinationIp geo) := by
        simp only [addedDestination, hdestination, hnone, Bool.not_false, Bool.and_self, if_true,
          hrole, if_false]
      exact ⟨(destinationPoint hops destinationIp geo).station,
        List.mem_map_of_mem (List.mem_append_right _ (Option.mem_toList.mpr hadded)), rfl, rfl, rfl⟩

/-- The station after the last hop is a destination that no hop answers as. -/
theorem exists_last_station_iff {hops : List Hop}
    (hdestination : (nonEmpty destinationIp).isSome)
    (hanswers : ∀ hop ∈ hops, hop.answersAs destinationIp = false) (role : MapRole) :
    (∃ station ∈ stations lookups hops destinationIp destinationGeo,
        station.hop = (destinationDisposition hops destinationIp).1 + 1 ∧ station.role = role) ↔
      role ≠ .none ∧ mapRole destinationGeo true = role := by
  constructor
  · rintro ⟨station, hstation, hnumber, rfl⟩
    cases stationOf_of_mem hstation with
    | located hop hhop hhopOf _ _ _ =>
        have hle := @number_le_lastHop destinationIp hops hop hhop
        omega
    | added _ hrole _ hdrawn _ => exact ⟨hdrawn, hrole.symm⟩
  · rintro ⟨hne, rfl⟩
    obtain ⟨station, hstation, hnumber, hrole, _⟩ := exists_added_station hdestination hanswers hne
    exact ⟨station, hstation, hnumber, hrole⟩

/-- A node is shown as its role says, when the stations with its number have that role. -/
theorem shown_iff {points : List Point} {stations : List Station} {number : ℤ} {role other : MapRole}
    (hcovers : ∀ role, (∃ point ∈ points, point.Covers number ∧ point.mapRole = role) ↔
      ∃ station ∈ stations, station.hop = number ∧ station.role = role)
    (hstation : ∀ role, (∃ station ∈ stations, station.hop = number ∧ station.role = role) ↔
      role ≠ .none ∧ other = role) :
    (((∃ point ∈ points, point.Covers number) ↔ role ≠ .none) ∧
        ∀ point ∈ points, point.Covers number → point.mapRole = role) ↔ role = other := by
  have hpoint : ∀ point ∈ points, point.Covers number →
      point.mapRole ≠ .none ∧ other = point.mapRole := fun point hpoint hcov =>
    (hstation _).mp ((hcovers _).mp ⟨point, hpoint, hcov, rfl⟩)
  have hexists : other ≠ .none → ∃ point ∈ points, point.Covers number ∧ point.mapRole = other :=
    fun hne => (hcovers other).mpr ((hstation other).mpr ⟨hne, rfl⟩)
  constructor
  · rintro ⟨hdrawn, hrole⟩
    by_cases hother : other = .none
    · by_contra hne
      obtain ⟨point, hmem, hcov⟩ := hdrawn.mpr fun hnone => hne (hnone.trans hother.symm)
      obtain ⟨hnotNone, heq⟩ := hpoint point hmem hcov
      exact hnotNone (heq.symm.trans hother)
    · obtain ⟨point, hmem, hcov, heq⟩ := hexists hother
      rw [← hrole point hmem hcov, heq]
  · rintro rfl
    refine ⟨⟨?_, ?_⟩, fun point hmem hcov => (hpoint point hmem hcov).2.symm⟩
    · rintro ⟨point, hmem, hcov⟩
      obtain ⟨hnotNone, heq⟩ := hpoint point hmem hcov
      rwa [heq]
    · intro hne
      obtain ⟨point, hmem, hcov, _⟩ := hexists hne
      exact ⟨point, hmem, hcov⟩

/-- The model has a node of every hop, and one of a destination that no hop answers as. -/
theorem mem_buildRouteModel {hops : List Hop} (hhops : hops ≠ []) {node : RouteNode} :
    node ∈ buildRouteModel lookups hops destinationIp destinationGeo ↔
      (∃ hop ∈ hops, hopNode lookups destinationIp destinationGeo hop = node) ∨
        (nonEmpty destinationIp).isSome ∧ (∀ hop ∈ hops, hop.answersAs destinationIp = false) ∧
          node = destinationNode lookups hops destinationIp destinationGeo := by
  have hnone : (hops.map (hopNode lookups destinationIp destinationGeo)).any
      RouteNode.destination = false ↔ ∀ hop ∈ hops, hop.answersAs destinationIp = false := by
    rw [List.any_eq_false, List.forall_mem_map]
    simp only [destination_hopNode, Bool.not_eq_true]
  unfold buildRouteModel
  rw [if_neg (by simpa using hhops)]
  simp only
  split
  · rename_i hguard
    rw [Bool.and_eq_true, Bool.not_eq_true', hnone] at hguard
    rw [List.mem_append, List.mem_singleton, List.mem_map]
    exact or_congr Iff.rfl ⟨fun hnode => ⟨hguard.1, hguard.2, hnode⟩, fun hnode => hnode.2.2⟩
  · rename_i hguard
    rw [Bool.and_eq_true, Bool.not_eq_true', hnone] at hguard
    rw [List.mem_map]
    exact ⟨.inl, fun hnode => hnode.resolve_right fun hadded => hguard ⟨hadded.1, hadded.2.1⟩⟩

/-- Only the destination has a location that the two views may take differently. -/
theorem roleOnMap_eq_of_not_answersAs {hop : Hop} (hanswers : hop.answersAs destinationIp = false) :
    hop.roleOnMap lookups destinationIp destinationGeo =
      hop.roleOnMap lookups destinationIp (mapLocation lookups destinationGeo) := by
  unfold Hop.roleOnMap
  cases hsilent : hop.silent with
  | true => rfl
  | false =>
      have hdestination : isDestination destinationIp hop.ip = false := by
        simpa [Hop.answersAs, hsilent] using hanswers
      simp [drawnLocation, hopLocation, hdestination]

/-- The location of a destination is projected twice, or not at all in the model. -/
theorem mapRole_shownLocation_iff (geo : Option Location) :
    mapRole (shownLocation lookups destinationIp geo) true =
        mapRole (shownLocation lookups destinationIp (mapLocation lookups geo)) true ↔
      mapRole geo true = mapRole (mapLocation lookups geo) true ∨
        lookups.publicIp destinationIp = true := by
  unfold shownLocation
  cases hpublic : lookups.publicIp destinationIp with
  | true => simp [mapLocation_mapLocation]
  | false => simp

theorem roleOnMap_eq_iff_of_answersAs {hop : Hop} (hanswers : hop.answersAs destinationIp = true) :
    hop.roleOnMap lookups destinationIp destinationGeo =
        hop.roleOnMap lookups destinationIp (mapLocation lookups destinationGeo) ↔
      mapRole destinationGeo true = mapRole (mapLocation lookups destinationGeo) true ∨
        lookups.publicIp destinationIp = true := by
  rw [Hop.answersAs, Bool.and_eq_true, Bool.not_eq_true'] at hanswers
  obtain ⟨hsilent, hdestination⟩ := hanswers
  cases destinationGeo with
  | none => simp [mapLocation]
  | some geo =>
      obtain ⟨projected, hprojected⟩ := mapLocation_some lookups geo
      unfold Hop.roleOnMap
      rw [hsilent, ← mapRole_shownLocation_iff, hprojected, drawnLocation_of_destination hdestination,
        drawnLocation_of_destination hdestination, hdestination]
      rfl

theorem mapRole_destinationNode_iff (hops : List Hop) :
    (destinationNode lookups hops destinationIp destinationGeo).mapRole =
        mapRole (mapLocation lookups destinationGeo) true ↔
      mapRole destinationGeo true = mapRole (mapLocation lookups destinationGeo) true ∨
        lookups.publicIp destinationIp = true ∧
          ∃ geo, destinationGeo = some geo ∧ geo.lat.isSome := by
  change mapRole (shownLocation lookups destinationIp
    (destinationGeo.filter fun geo => geo.lat.isSome)) true = _ ↔ _
  cases destinationGeo with
  | none => simp [mapLocation, shownLocation_none]
  | some geo =>
      cases hlat : geo.lat with
      | none =>
          have hcoords : geo.hasCoords = false := by simp [Location.hasCoords, hlat, Location.inRange]
          have hfilter : (some geo).filter (fun geo => geo.lat.isSome) = none := by
            simp [Option.filter, hlat]
          rw [mapRole_eq_none_of_hasCoords hcoords, hfilter, shownLocation_none, mapRole_none]
          simp [hlat]
      | some lat =>
          have hfilter : (some geo).filter (fun geo => geo.lat.isSome) = some geo := by
            simp [Option.filter, hlat]
          rw [hfilter]
          unfold shownLocation
          cases lookups.publicIp destinationIp with
          | true => simp [hlat]
          | false => simp

/-- Every node is drawn with its role. -/
def NodesShown (model : List RouteNode) (points : List Point) : Prop :=
  ∀ node ∈ model, ((∃ point ∈ points, point.Covers node.hop) ↔ node.mapRole ≠ .none) ∧
    ∀ point ∈ points, point.Covers node.hop → point.mapRole = node.mapRole

variable {hops : List Hop}

/-- The nodes are drawn with their roles when each is a station with its role. -/
theorem nodesShown_iff_roles (hincreasing : Increasing hops) (hhops : hops ≠ []) :
    NodesShown (buildRouteModel lookups hops destinationIp destinationGeo)
        (mtrHopsToGeoPoints lookups hops destinationIp destinationGeo) ↔
      (∀ hop ∈ hops, hop.roleOnMap lookups destinationIp destinationGeo =
        hop.roleOnMap lookups destinationIp (mapLocation lookups destinationGeo)) ∧
      ((nonEmpty destinationIp).isSome → (∀ hop ∈ hops, hop.answersAs destinationIp = false) →
        (destinationNode lookups hops destinationIp destinationGeo).mapRole =
          mapRole (mapLocation lookups destinationGeo) true) := by
  have hcovers := fun number => @exists_covers_iff lookups destinationIp destinationGeo hops hhops number
  have hhop : ∀ hop ∈ hops,
      (((∃ point ∈ mtrHopsToGeoPoints lookups hops destinationIp destinationGeo,
            point.Covers (hopNode lookups destinationIp destinationGeo hop).hop) ↔
          (hopNode lookups destinationIp destinationGeo hop).mapRole ≠ .none) ∧
        ∀ point ∈ mtrHopsToGeoPoints lookups hops destinationIp destinationGeo,
          point.Covers (hopNode lookups destinationIp destinationGeo hop).hop →
            point.mapRole = (hopNode lookups destinationIp destinationGeo hop).mapRole) ↔
      hop.roleOnMap lookups destinationIp destinationGeo =
        hop.roleOnMap lookups destinationIp (mapLocation lookups destinationGeo) := by
    intro hop hmem
    rw [hop_hopNode, mapRole_hopNode]
    exact shown_iff (hcovers hop.number) (exists_station_iff hincreasing hmem)
  have hadded : (nonEmpty destinationIp).isSome →
      (∀ hop ∈ hops, hop.answersAs destinationIp = false) → (_ ↔ _) := fun hdestination hanswers =>
    @shown_iff _ _ _ (destinationNode lookups hops destinationIp destinationGeo).mapRole _
      (hcovers ((destinationDisposition hops destinationIp).1 + 1))
      (exists_last_station_iff hdestination hanswers)
  constructor
  · intro hshown
    refine ⟨fun hop hmem => (hhop hop hmem).mp ?_, fun hdestination hanswers =>
      (hadded hdestination hanswers).mp ?_⟩
    · exact hshown _ ((mem_buildRouteModel hhops).mpr (.inl ⟨hop, hmem, rfl⟩))
    · exact hshown _ ((mem_buildRouteModel hhops).mpr (.inr ⟨hdestination, hanswers, rfl⟩))
  · rintro ⟨hroles, hlast⟩ node hnode
    obtain ⟨hop, hmem, rfl⟩ | ⟨hdestination, hanswers, rfl⟩ := (mem_buildRouteModel hhops).mp hnode
    · exact (hhop hop hmem).mpr (hroles hop hmem)
    · exact (hadded hdestination hanswers).mpr (hlast hdestination hanswers)

theorem answersAs_of_no_destination (hdestination : (nonEmpty destinationIp).isSome = false)
    (hop : Hop) : hop.answersAs destinationIp = false := by
  simp [Hop.answersAs, isDestination, hdestination]

/-- The roles agree when those of the destination do. -/
theorem roles_iff_rolesCoincide :
    (∀ hop ∈ hops, hop.roleOnMap lookups destinationIp destinationGeo =
        hop.roleOnMap lookups destinationIp (mapLocation lookups destinationGeo)) ∧
      ((nonEmpty destinationIp).isSome → (∀ hop ∈ hops, hop.answersAs destinationIp = false) →
        (destinationNode lookups hops destinationIp destinationGeo).mapRole =
          mapRole (mapLocation lookups destinationGeo) true) ↔
      RolesCoincide lookups hops destinationIp destinationGeo := by
  unfold RolesCoincide
  by_cases hanswers : ∃ hop ∈ hops, hop.answersAs destinationIp = true
  · obtain ⟨answering, hmem, hanswering⟩ := hanswers
    have hdestination : (nonEmpty destinationIp).isSome := by
      by_contra hnone
      rw [Bool.not_eq_true] at hnone
      simp [answersAs_of_no_destination hnone answering] at hanswering
    have hroles : (∀ hop ∈ hops, hop.roleOnMap lookups destinationIp destinationGeo =
          hop.roleOnMap lookups destinationIp (mapLocation lookups destinationGeo)) ↔
        mapRole destinationGeo true = mapRole (mapLocation lookups destinationGeo) true ∨
          lookups.publicIp destinationIp = true := by
      rw [← roleOnMap_eq_iff_of_answersAs hanswering]
      refine ⟨fun h => h answering hmem, fun heq hop _ => ?_⟩
      cases hother : hop.answersAs destinationIp with
      | false => exact roleOnMap_eq_of_not_answersAs hother
      | true =>
          rw [roleOnMap_eq_iff_of_answersAs hanswering] at heq
          exact (roleOnMap_eq_iff_of_answersAs hother).mpr heq
    rw [hroles]
    constructor
    · rintro ⟨hrole, _⟩ _
      exact hrole.imp_right fun hpublic => ⟨hpublic, .inl ⟨answering, hmem, hanswering⟩⟩
    · intro hcoincide
      refine ⟨(hcoincide hdestination).imp_right And.left, fun _ hnone => ?_⟩
      simp [hnone answering hmem] at hanswering
  · have hnone : ∀ hop ∈ hops, hop.answersAs destinationIp = false := by
      simpa using hanswers
    rw [mapRole_destinationNode_iff]
    constructor
    · rintro ⟨_, hlast⟩ hdestination
      exact (hlast hdestination hnone).imp_right fun hlat => ⟨hlat.1, .inr hlat.2⟩
    · intro hcoincide
      refine ⟨fun hop hmem => roleOnMap_eq_of_not_answersAs (hnone hop hmem), fun hdestination _ => ?_⟩
      exact (hcoincide hdestination).imp_right fun hlat =>
        ⟨hlat.1, hlat.2.resolve_left hanswers⟩

/-- The destinations of the model that have a role are stations. -/
theorem exists_destination_node_iff (hhops : hops ≠ [])
    (hroles : RolesCoincide lookups hops destinationIp destinationGeo) (number : ℤ) :
    (∃ node ∈ buildRouteModel lookups hops destinationIp destinationGeo,
        node.destination = true ∧ node.mapRole ≠ .none ∧ node.hop = number) ↔
      ∃ station ∈ stations lookups hops destinationIp (mapLocation lookups destinationGeo),
        station.destination = true ∧ station.hop = number := by
  obtain ⟨hroles, hlast⟩ := roles_iff_rolesCoincide.mpr hroles
  constructor
  · rintro ⟨node, hnode, hdestination, hdrawn, rfl⟩
    obtain ⟨hop, hmem, rfl⟩ | ⟨hsome, hanswers, rfl⟩ := (mem_buildRouteModel hhops).mp hnode
    · rw [destination_hopNode] at hdestination
      rw [mapRole_hopNode, hroles hop hmem] at hdrawn
      obtain ⟨station, hstation, hnumber, _, hmark⟩ := exists_station_of_hop hmem hdrawn
      exact ⟨station, hstation, hmark.trans hdestination, hnumber.trans (hop_hopNode hop).symm⟩
    · rw [hlast hsome hanswers] at hdrawn
      obtain ⟨station, hstation, hnumber, _, hmark⟩ := exists_added_station hsome hanswers hdrawn
      exact ⟨station, hstation, hmark, hnumber⟩
  · rintro ⟨station, hstation, hmark, rfl⟩
    cases stationOf_of_mem hstation with
    | located hop hmem hnumber hrole hdestination hdrawn =>
        refine ⟨hopNode lookups destinationIp destinationGeo hop,
          (mem_buildRouteModel hhops).mpr (.inl ⟨hop, hmem, rfl⟩), ?_, ?_, ?_⟩
        · rw [destination_hopNode, ← hdestination, hmark]
        · rwa [mapRole_hopNode, hroles hop hmem, ← hrole]
        · rw [hop_hopNode, hnumber]
    | added hnumber hrole _ hdrawn hadded =>
        obtain ⟨point, hpoint⟩ := Option.isSome_iff_exists.mp hadded
        have hsome := (addedDestination_eq_some hpoint).1
        have hanswers := not_answersAs_of_added hpoint
        refine ⟨destinationNode lookups hops destinationIp destinationGeo,
          (mem_buildRouteModel hhops).mpr (.inr ⟨hsome, hanswers, rfl⟩), rfl, ?_, hnumber.symm⟩
        rwa [hlast hsome hanswers, ← hrole]

/-- The stations have different hop numbers. -/
theorem eq_of_station_hop (hincreasing : Increasing hops) {station other : Station}
    (hstation : station ∈ stations lookups hops destinationIp destinationGeo)
    (hother : other ∈ stations lookups hops destinationIp destinationGeo)
    (hhop : station.hop = other.hop) : station = other := by
  have hnodup : ((stations lookups hops destinationIp destinationGeo).map Station.hop).Nodup :=
    List.pairwise_map.mpr ((pairwise_stations hincreasing).imp fun hlt => ne_of_lt hlt)
  exact List.inj_on_of_nodup_map hnodup hstation hother hhop

/-- A destination is marked when the station that stands for its group is one. -/
theorem exists_marked_iff (hhops : hops ≠ []) (number : ℤ) :
    (∃ point ∈ mtrHopsToGeoPoints lookups hops destinationIp destinationGeo,
        point.destination = true ∧ point.hop = number) ↔
      ∃ station ∈ representatives (groups (stations lookups hops destinationIp
          (mapLocation lookups destinationGeo))),
        station.destination = true ∧ station.hop = number := by
  have hmarks := @map_mtrHopsToGeoPoints lookups destinationIp destinationGeo (Bool × ℤ)
    (fun point => (point.destination, point.hop)) (fun station => (station.destination, station.hop))
    hops hhops (fun point => by rw [point.withMapRadius_eq]) (fun point run => by
      obtain ⟨hhop, _, _, hdestination, _⟩ := standFor_fields point run
      rw [hhop, hdestination]
      rfl)
  have hmem := congrArg (fun list => (true, number) ∈ list) hmarks
  simpa only [List.mem_map, Prod.mk.injEq, eq_iff_iff] using hmem

/-- The map shows what the route model says, exactly when the two coincide on the destination's
role and no mark of it is lost in a merge. -/
theorem map_shows_the_route_model_iff (hincreasing : Increasing hops) :
    RoutesAgree (buildRouteModel lookups hops destinationIp destinationGeo)
        (mtrHopsToGeoPoints lookups hops destinationIp destinationGeo) ↔
      hops = [] ∨ RolesCoincide lookups hops destinationIp destinationGeo ∧
        MarksKept (stations lookups hops destinationIp (mapLocation lookups destinationGeo)) := by
  by_cases hhops : hops = []
  · subst hhops
    refine iff_of_true ⟨?_, ?_, ?_⟩ (.inl rfl)
    · simp [buildRouteModel]
    · simp [buildRouteModel]
    · simp [mtrHopsToGeoPoints, buildRouteModel]
  rw [or_iff_right hhops, ← roles_iff_rolesCoincide, ← nodesShown_iff_roles hincreasing hhops]
  constructor
  · rintro ⟨hdrawn, hrole, hdestination⟩
    have hshown : NodesShown (buildRouteModel lookups hops destinationIp destinationGeo)
        (mtrHopsToGeoPoints lookups hops destinationIp destinationGeo) :=
      fun node hnode => ⟨hdrawn node hnode, hrole node hnode⟩
    refine ⟨hshown, fun station hstation hmark => ?_⟩
    have hroles := roles_iff_rolesCoincide.mp ((nodesShown_iff_roles hincreasing hhops).mp hshown)
    obtain ⟨other, hother, _, hhop⟩ := (exists_marked_iff hhops _).mp <| (hdestination _).mpr <|
      (exists_destination_node_iff hhops hroles _).mpr ⟨station, hstation, hmark, rfl⟩
    rwa [← eq_of_station_hop hincreasing (mem_of_mem_representatives_groups hother) hstation hhop]
  · rintro ⟨hshown, hkept⟩
    refine ⟨fun node hnode => (hshown node hnode).1, fun node hnode => (hshown node hnode).2,
      fun number => ?_⟩
    have hroles := roles_iff_rolesCoincide.mp ((nodesShown_iff_roles hincreasing hhops).mp hshown)
    rw [exists_marked_iff hhops, exists_destination_node_iff hhops hroles]
    constructor
    · rintro ⟨station, hstation, hmark⟩
      exact ⟨station, mem_of_mem_representatives_groups hstation, hmark⟩
    · rintro ⟨station, hstation, hmark, hnumber⟩
      exact ⟨station, hkept station hstation hmark, hmark, hnumber⟩

namespace SampleRoute

def berlin : Location where
  lat := some (.number 52)
  lon := some (.number 13)
  city := some "Berlin".toList
  country := some "DE".toList
  confidence := some .hostname

/-- A location of which only the country is known. -/
def germany : Location := { country := some "DE".toList }

def inBerlin : Lookups where
  geolocate := fun _ _ => some berlin
  publicIp := fun _ => true
  countryCenter := fun _ => some (51, 10)

def target : Option Text := some "203.0.113.9".toList

def silentHop : Hop where
  number := 1
  status := .timeout

def answeringHops : List Hop :=
  [{ number := 1, ip := some "198.51.100.1".toList }, { number := 2, ip := target }]

end SampleRoute

open SampleRoute in
/-- A destination that answers at a known place. -/
theorem map_shows_the_route_model_answeringHops :
    RoutesAgree (buildRouteModel inBerlin answeringHops target (some berlin))
      (mtrHopsToGeoPoints inBerlin answeringHops target (some berlin)) := by
  refine (map_shows_the_route_model_iff (by unfold Increasing; decide)).mpr (.inr ⟨?_, ?_⟩)
  · exact fun _ => .inl (by decide +kernel)
  · unfold MarksKept
    decide +kernel

open SampleRoute in
/-- The country of a destination that does not answer is drawn, though the model has no role. -/
theorem map_shows_more_than_the_route_model :
    ¬ ∀ (lookups : Lookups) (hops : List Hop) (destinationIp : Option Text)
        (destinationGeo : Option Location), Increasing hops →
      RoutesAgree (buildRouteModel lookups hops destinationIp destinationGeo)
        (mtrHopsToGeoPoints lookups hops destinationIp destinationGeo) := by
  intro hagree
  have hdrawn := (hagree inBerlin [silentHop] target (some germany)
    (by unfold Increasing; decide)).drawn
  have hnode : ∀ node ∈ buildRouteModel inBerlin [silentHop] target (some germany),
      node.mapRole = .none := by decide +kernel
  have hpoint : ∃ node ∈ buildRouteModel inBerlin [silentHop] target (some germany),
      ∃ point ∈ mtrHopsToGeoPoints inBerlin [silentHop] target (some germany),
        point.Covers node.hop := by decide +kernel
  obtain ⟨node, hmem, hcovers⟩ := hpoint
  exact (hdrawn node hmem).mp hcovers (hnode node hmem)

end Justup.Geo
