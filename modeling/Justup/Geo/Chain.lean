import Mathlib
import Justup.Geo.MapPoints

/-!
# The chain of the map

What of a point decides how it is merged does not depend on its links.  So the
located hops, read from the trace alone, say which points there are.
-/

namespace Justup.Geo

open Store Lib.Runs

/-- What of a point does not depend on its neighbours. -/
structure Station where
  hop : ℤ
  role : MapRole
  place : ℤ × ℤ
  approximate : Bool
  destination : Bool
  deriving DecidableEq

def Point.station (point : Point) : Station :=
  ⟨point.hop, point.mapRole, point.key, point.approximate, point.destination⟩

/-- The stations that are merged: neighbours with one role at one place. -/
def samePlaceStation (first other : Station) : Bool := first.place = other.place

def followsStation (runLast other : Station) : Bool :=
  decide (other.role = runLast.role) && decide (other.hop = runLast.hop + 1)

/-- The groups that are drawn as one point; at most two points stay as they are. -/
def groups (stations : List Station) : List (List Station) :=
  if stations.length ≤ 2 then stations.map fun station => [station]
  else
    let found := runs samePlaceStation followsStation stations
    if found.length = 1 then [stations.dropLast, stations.getLast?.toList] else found

variable (lookups : Lookups)

/-- The hops that have a role on the map. -/
def locatedPoints (hops : List Hop) (destinationIp : Option Text)
    (destinationGeo : Option Location) : List Point :=
  hops.filterMap (hopPoint lookups destinationIp destinationGeo)

/-- The stations of a trace: its located hops, and the destination when it is added. -/
def stations (hops : List Hop) (destinationIp : Option Text) (destinationGeo : Option Location) :
    List Station :=
  let located := locatedPoints lookups hops destinationIp destinationGeo
  (located ++ (addedDestination hops destinationIp destinationGeo located).toList).map Point.station

/-- The point without its links. -/
def Point.unlinked (point : Point) : Point :=
  { point with segmentToNext := none, segmentNote := none }

@[simp] theorem Point.unlinked_link (point : Point) (gap nextApproximate : Bool)
    (skipped : List ℤ) : (point.link gap nextApproximate skipped).unlinked = point.unlinked := rfl

@[simp] theorem Point.station_unlinked (point : Point) : point.unlinked.station = point.station := rfl

variable {lookups} {destinationIp : Option Text} {destinationGeo : Option Location}

/-- The points of a walk without their links. -/
theorem Walk.unlinked_linked (walk : Walk) (nextApproximate : Bool) :
    (walk.linked nextApproximate).map Point.unlinked = walk.points.map Point.unlinked := by
  unfold Walk.linked Walk.points
  cases walk.tail <;> simp

theorem Walk.points_reach (walk : Walk) (number : ℤ) : (walk.reach number).points = walk.points := by
  unfold Walk.reach
  split
  · rfl
  · split
    · rfl
    · rfl

theorem unlinked_walkHop (walk : Walk) (hop : Hop) :
    ((walkHop lookups destinationIp destinationGeo walk hop).points).map Point.unlinked =
      walk.points.map Point.unlinked ++
        ((hopPoint lookups destinationIp destinationGeo hop).map Point.unlinked).toList := by
  unfold walkHop
  cases hopPoint lookups destinationIp destinationGeo hop with
  | none =>
      have hpoints : ((walk.reach hop.number).skip hop.number).points = walk.points :=
        walk.points_reach hop.number
      rw [hpoints]
      simp
  | some point =>
      have hpoints : ((walk.reach hop.number).place point).points =
          (walk.reach hop.number).linked point.approximate ++ [point] := rfl
      rw [hpoints, List.map_append, Walk.unlinked_linked, Walk.points_reach]
      rfl

/-- The loop makes a point of every hop that has a role on the map. -/
theorem unlinked_walk (walk : Walk) (hops : List Hop) :
    ((hops.foldl (walkHop lookups destinationIp destinationGeo) walk).points).map Point.unlinked =
      walk.points.map Point.unlinked ++
        (locatedPoints lookups hops destinationIp destinationGeo).map Point.unlinked := by
  unfold locatedPoints
  induction hops generalizing walk with
  | nil => simp
  | cons hop rest ih =>
      rw [List.foldl_cons, ih, unlinked_walkHop, List.append_assoc]
      cases hpoint : hopPoint lookups destinationIp destinationGeo hop with
      | none => simp [hpoint]
      | some point => simp [hpoint]

/-- What the point of a hop is. -/
theorem hopPoint_eq_some {hop : Hop} {point : Point}
    (hpoint : hopPoint lookups destinationIp destinationGeo hop = some point) :
    hop.silent = false ∧ ∃ loc,
      drawnLocation lookups destinationIp destinationGeo hop = some loc ∧
      mapRole (some loc) (isDestination destinationIp hop.ip) ≠ .none ∧
      point = locatedPoint hop loc (mapRole (some loc) (isDestination destinationIp hop.ip))
        (isDestination destinationIp hop.ip) := by
  unfold hopPoint at hpoint
  by_cases hsilent : hop.silent = true
  · simp [hsilent] at hpoint
  · simp only [hsilent, Bool.false_eq_true, if_false] at hpoint
    cases hloc : drawnLocation lookups destinationIp destinationGeo hop with
    | none => simp [hloc] at hpoint
    | some loc =>
        simp only [hloc] at hpoint
        by_cases hrole : mapRole (some loc) (isDestination destinationIp hop.ip) = .none
        · simp [hrole] at hpoint
        · rw [if_neg hrole, Option.some.injEq] at hpoint
          exact ⟨by simpa using hsilent, loc, rfl, hrole, hpoint.symm⟩

theorem mem_locatedPoints {hops : List Hop} {point : Point} :
    point ∈ locatedPoints lookups hops destinationIp destinationGeo ↔
      ∃ hop ∈ hops, hopPoint lookups destinationIp destinationGeo hop = some point :=
  List.mem_filterMap

/-- A point that stands for one hop. -/
structure Point.Plain (destinationIp : Option Text) (point : Point) : Prop where
  hopRange : point.hopRange = none
  destination : point.destination = isDestination destinationIp point.ip
  terminal : point.terminal = point.destination
  approximate : point.accuracyClass = some .approximate → point.approximate = true

theorem Point.Plain.of_unlinked {point other : Point} (hplain : point.Plain destinationIp)
    (hunlinked : point.unlinked = other.unlinked) : other.Plain destinationIp := by
  obtain ⟨hrange, hdestination, hterminal, happrox⟩ := hplain
  simp only [Point.unlinked, Point.mk.injEq] at hunlinked
  grind [Point.Plain]

theorem plain_of_mem_locatedPoints {hops : List Hop} {point : Point}
    (hpoint : point ∈ locatedPoints lookups hops destinationIp destinationGeo) :
    point.Plain destinationIp := by
  obtain ⟨hop, _, hhop⟩ := mem_locatedPoints.mp hpoint
  obtain ⟨_, loc, _, _, rfl⟩ := hopPoint_eq_some hhop
  exact {
    hopRange := rfl
    destination := rfl
    terminal := rfl
    approximate := fun hclass => decide_eq_true (classifyLocation_of_accuracyClass hclass) }

/-- The points of the walk stand for one hop each. -/
theorem plain_of_mem_walk {hops : List Hop} {point : Point}
    (hpoint : point ∈ ((hops.foldl (walkHop lookups destinationIp destinationGeo) {}).points)) :
    point.Plain destinationIp := by
  have hmem := List.mem_map_of_mem (f := Point.unlinked) hpoint
  rw [unlinked_walk] at hmem
  obtain ⟨located, hlocated, hunlinked⟩ := List.mem_map.mp (by simpa [Walk.points] using hmem)
  exact (plain_of_mem_locatedPoints hlocated).of_unlinked hunlinked

theorem Point.station_finish {point : Point}
    (hdestination : point.destination = isDestination destinationIp point.ip) :
    (point.finish destinationIp).station = point.station := by
  unfold Point.finish
  split
  · rename_i his
    rw [his] at hdestination
    simp only [Point.station, Point.key, hdestination]
  · rfl

/-- The stations of the walk, as it ends. -/
theorem station_walk (hops : List Hop) :
    (((hops.foldl (walkHop lookups destinationIp destinationGeo) {}).finish
        destinationIp).points).map Point.station =
      (locatedPoints lookups hops destinationIp destinationGeo).map Point.station := by
  set walk := hops.foldl (walkHop lookups destinationIp destinationGeo) {} with hwalk
  have hlocated : walk.points.map Point.station =
      (locatedPoints lookups hops destinationIp destinationGeo).map Point.station := by
    have hunlinked := congrArg (List.map Point.station)
      (@unlinked_walk lookups destinationIp destinationGeo {} hops)
    simpa [Walk.points, Function.comp_def] using hunlinked
  have hfinish : (walk.finish destinationIp).points.map Point.station =
      walk.points.map Point.station := by
    unfold Walk.finish Walk.points
    cases htail : walk.tail with
    | none => rfl
    | some tail =>
        have hplain := @plain_of_mem_walk lookups destinationIp destinationGeo hops tail
          (by rw [← hwalk]; simp [Walk.points, htail])
        simp [Point.station_finish hplain.destination]
  rw [hfinish, hlocated]

theorem any_destination_eq {points others : List Point}
    (hstations : points.map Point.station = others.map Point.station) :
    points.any Point.destination = others.any Point.destination := by
  have hany : ∀ list : List Point,
      list.any Point.destination = (list.map Point.station).any Station.destination := by
    intro list
    rw [List.any_map]
    rfl
  rw [hany, hany, hstations]

theorem addedDestination_congr {hops : List Hop} {points others : List Point}
    (hstations : points.map Point.station = others.map Point.station) :
    addedDestination hops destinationIp destinationGeo points =
      addedDestination hops destinationIp destinationGeo others := by
  unfold addedDestination
  rw [any_destination_eq hstations]

theorem Walk.station_linked (walk : Walk) (nextApproximate : Bool) :
    (walk.linked nextApproximate).map Point.station = walk.points.map Point.station := by
  have hunlinked := congrArg (List.map Point.station) (walk.unlinked_linked nextApproximate)
  simpa [Function.comp_def] using hunlinked

/-- The chain is made of the stations of the trace. -/
theorem station_chainPoints (hops : List Hop) :
    (chainPoints lookups hops destinationIp destinationGeo).map Point.station =
      stations lookups hops destinationIp destinationGeo := by
  have hwalk := @station_walk lookups destinationIp destinationGeo hops
  simp only [chainPoints, stations, addedDestination_congr hwalk]
  cases addedDestination hops destinationIp destinationGeo
      (locatedPoints lookups hops destinationIp destinationGeo) with
  | none => simpa using hwalk
  | some point =>
      simp only [List.map_append, Walk.station_linked, hwalk]
      rfl

theorem Point.Plain.finish {point : Point} (hplain : point.Plain destinationIp) :
    (point.finish destinationIp).Plain destinationIp := by
  unfold Point.finish
  split
  · rename_i his
    exact {
      hopRange := hplain.hopRange
      destination := his.symm
      terminal := rfl
      approximate := hplain.approximate }
  · exact hplain

theorem addedDestination_eq_some {hops : List Hop} {points : List Point} {point : Point}
    (hadded : addedDestination hops destinationIp destinationGeo points = some point) :
    (nonEmpty destinationIp).isSome ∧ points.any Point.destination = false ∧
      ∃ geo, destinationGeo = some geo ∧ mapRole (some geo) true ≠ .none ∧
        point = destinationPoint hops destinationIp geo := by
  unfold addedDestination at hadded
  by_cases hguard : ((nonEmpty destinationIp).isSome && !points.any Point.destination) = true
  · rw [if_pos hguard] at hadded
    rw [Bool.and_eq_true, Bool.not_eq_true'] at hguard
    cases hgeo : destinationGeo with
    | none => simp [hgeo] at hadded
    | some geo =>
        simp only [hgeo] at hadded
        by_cases hrole : mapRole (some geo) true = .none
        · simp [hrole] at hadded
        · rw [if_neg hrole, Option.some.injEq] at hadded
          exact ⟨hguard.1, hguard.2, geo, rfl, hrole, hadded.symm⟩
  · simp [hguard] at hadded

theorem plain_destinationPoint {hops : List Hop} {geo : Location}
    (hdestination : (nonEmpty destinationIp).isSome) :
    (destinationPoint hops destinationIp geo).Plain destinationIp where
  hopRange := rfl
  destination := by simp [destinationPoint, isDestination, hdestination]
  terminal := rfl
  approximate := fun hclass => decide_eq_true (classifyLocation_of_accuracyClass hclass)

theorem plain_of_mem_finish {hops : List Hop} {point : Point}
    (hpoint : point ∈ ((hops.foldl (walkHop lookups destinationIp destinationGeo) {}).finish
      destinationIp).points) : point.Plain destinationIp := by
  have hwalk := fun other => @plain_of_mem_walk lookups destinationIp destinationGeo hops other
  unfold Walk.finish Walk.points at hpoint
  unfold Walk.points at hwalk
  obtain hplaced | hlast := List.mem_append.mp hpoint
  · exact hwalk point (List.mem_append_left _ hplaced)
  · obtain ⟨tail, htail, rfl⟩ := Option.map_eq_some_iff.mp (Option.mem_toList.mp hlast)
    exact (hwalk tail (List.mem_append_right _ (Option.mem_toList.mpr htail))).finish

theorem plain_of_mem_chainPoints {hops : List Hop} {point : Point}
    (hpoint : point ∈ chainPoints lookups hops destinationIp destinationGeo) :
    point.Plain destinationIp := by
  simp only [chainPoints] at hpoint
  cases hadded : addedDestination hops destinationIp destinationGeo
      ((hops.foldl (walkHop lookups destinationIp destinationGeo) {}).finish
        destinationIp).points with
  | none =>
      simp only [hadded] at hpoint
      exact plain_of_mem_finish hpoint
  | some added =>
      simp only [hadded] at hpoint
      obtain hlinked | hlast := List.mem_append.mp hpoint
      · have hunlinked := List.mem_map_of_mem (f := Point.unlinked) hlinked
        rw [Walk.unlinked_linked] at hunlinked
        obtain ⟨before, hbefore, heq⟩ := List.mem_map.mp hunlinked
        exact (plain_of_mem_finish hbefore).of_unlinked heq
      · obtain ⟨hdestination, _, geo, _, _, rfl⟩ := addedDestination_eq_some hadded
        obtain rfl := List.mem_singleton.mp hlast
        exact plain_destinationPoint hdestination

/-- The hop numbers of a trace increase. -/
def Increasing (hops : List Hop) : Prop := hops.Pairwise fun hop next => hop.number < next.number

theorem number_le_lastHop {hops : List Hop} {hop : Hop} (hhop : hop ∈ hops) :
    hop.number ≤ (destinationDisposition hops destinationIp).1 := by
  have hmem := List.mem_map_of_mem (f := Hop.number) hhop
  unfold destinationDisposition
  cases hmax : (hops.map Hop.number).max? with
  | none => simp [List.max?_eq_none_iff.mp hmax] at hmem
  | some last => exact (List.max?_eq_some_iff.mp hmax).2 _ hmem

theorem hop_of_hopPoint {hop : Hop} {point : Point}
    (hpoint : hopPoint lookups destinationIp destinationGeo hop = some point) :
    point.hop = hop.number := by
  obtain ⟨_, _, _, _, rfl⟩ := hopPoint_eq_some hpoint
  rfl

/-- The stations of a trace are in hop order. -/
theorem pairwise_stations {hops : List Hop} (hincreasing : Increasing hops) :
    (stations lookups hops destinationIp destinationGeo).Pairwise
      fun station next => station.hop < next.hop := by
  unfold stations
  simp only
  rw [List.pairwise_map, List.pairwise_append]
  refine ⟨?_, ?_, ?_⟩
  · refine List.pairwise_filterMap.mpr (hincreasing.imp ?_)
    intro hop next hlt point hpoint other hother
    change point.hop < other.hop
    rwa [hop_of_hopPoint hpoint, hop_of_hopPoint hother]
  · cases addedDestination hops destinationIp destinationGeo
        (locatedPoints lookups hops destinationIp destinationGeo) with
    | none => exact .nil
    | some point => exact List.pairwise_singleton _ point
  · intro point hpoint added hadded
    obtain ⟨hop, hhop, hlocated⟩ := mem_locatedPoints.mp hpoint
    obtain ⟨_, _, geo, _, _, rfl⟩ := addedDestination_eq_some (Option.mem_toList.mp hadded)
    have hle := @number_le_lastHop destinationIp hops hop hhop
    have hnumber := hop_of_hopPoint hlocated
    change point.hop < (destinationDisposition hops destinationIp).1 + 1
    omega

/-- The runs whose representatives are drawn; at most two points stay as they are. -/
def mergedRuns (points : List Point) : List (List Point) :=
  if points.length ≤ 2 then points.map fun point => [point] else dedupRuns points

theorem representRuns_singletons (points : List Point) :
    representRuns (points.map fun point => [point]) = points := by
  induction points with
  | nil => rfl
  | cons point rest ih =>
      cases rest with
      | nil => rfl
      | cons next rest => exact congrArg (point :: ·) ih

theorem Point.withMapRadius_eq (point : Point) :
    point.withMapRadius = { point with mapRadiusKm := point.withMapRadius.mapRadiusKm } := by
  unfold Point.withMapRadius
  simp only
  split
  · rfl
  · split
    · rfl
    · rfl

theorem mtrHopsToGeoPoints_eq {hops : List Hop} (hhops : hops ≠ []) :
    mtrHopsToGeoPoints lookups hops destinationIp destinationGeo =
      (representRuns (mergedRuns (chainPoints lookups hops destinationIp
        (mapLocation lookups destinationGeo)))).map Point.withMapRadius := by
  unfold mtrHopsToGeoPoints mergedRuns deduplicateGeoPoints
  rw [if_neg (by simpa using hhops)]
  simp only
  by_cases hlength : (chainPoints lookups hops destinationIp
      (mapLocation lookups destinationGeo)).length ≤ 2
  · rw [if_neg (by omega), if_pos hlength, representRuns_singletons]
  · rw [if_pos (by omega), if_neg hlength, if_neg hlength]

theorem samePlace_station (first point : Point) :
    samePlaceStation first.station point.station = samePlace first point := rfl

theorem follows_station (runLast point : Point) :
    followsStation runLast.station point.station = follows runLast point := rfl

/-- The runs are those of the stations. -/
theorem station_mergedRuns (points : List Point) :
    (mergedRuns points).map (List.map Point.station) = groups (points.map Point.station) := by
  have hruns := map_runs samePlace_station follows_station points
  simp only [mergedRuns, groups, dedupRuns, List.length_map, ← hruns]
  by_cases hlength : points.length ≤ 2
  · rw [if_pos hlength, if_pos hlength, List.map_map, List.map_map]
    rfl
  · rw [if_neg hlength, if_neg hlength]
    by_cases hone : (runs samePlace follows points).length = 1
    · simp only [hone, if_true, List.map_cons, List.map_nil, List.map_dropLast]
      rw [List.getLast?_map]
      cases points.getLast? <;> rfl
    · simp only [hone, if_false]

/-- A run that is merged: consecutive hops with one role at one place. -/
structure IsGroup (run : List Point) : Prop where
  ne_nil : run ≠ []
  follows : run.IsChain fun point next => follows point next = true
  place : ∀ point ∈ run, ∀ other ∈ run, point.key = other.key

theorem isGroup_singleton (point : Point) : IsGroup [point] where
  ne_nil := List.cons_ne_nil _ _
  follows := .singleton point
  place := by simp

theorem isGroup_of_isRun {run : List Point} (hrun : IsRun samePlace follows run) : IsGroup run where
  ne_nil := hrun.ne_nil
  follows := hrun.next
  place := by
    obtain ⟨first, rest, rfl⟩ := List.exists_cons_of_ne_nil hrun.ne_nil
    have hfirst : ∀ point ∈ first :: rest, first.key = point.key := by
      intro point hpoint
      obtain rfl | hpoint := List.mem_cons.mp hpoint
      · rfl
      · simpa [samePlace] using hrun.same first rest rfl point hpoint
    intro point hpoint other hother
    rw [← hfirst point hpoint, hfirst other hother]

/-- How the points are merged: not at all, all but the last, or run by run. -/
inductive Merging (points : List Point) : List (List Point) → Prop where
  | few (hlength : points.length ≤ 2) : Merging points (points.map fun point => [point])
  | onePlace (first : Point) (others : List Point) (last : Point)
      (hpoints : points = first :: others ++ [last]) (hrun : IsGroup points) :
      Merging points [first :: others, [last]]
  | byRun (hlength : 2 < points.length) (hruns : (runs samePlace follows points).length ≠ 1) :
      Merging points (runs samePlace follows points)

theorem merging_mergedRuns (points : List Point) : Merging points (mergedRuns points) := by
  unfold mergedRuns
  by_cases hlength : points.length ≤ 2
  · rw [if_pos hlength]
    exact .few hlength
  · rw [if_neg hlength]
    simp only [dedupRuns]
    by_cases hone : (runs samePlace follows points).length = 1
    · rw [if_pos hone]
      obtain ⟨run, hrun⟩ := List.length_eq_one_iff.mp hone
      have hflatten := @flatten_runs _ samePlace follows points
      obtain rfl : run = points := by simpa [hrun] using hflatten
      have hgroup : IsGroup run :=
        isGroup_of_isRun (isRun_of_mem_runs (by rw [hrun]; exact List.mem_singleton_self _))
      obtain ⟨front, last, hfront⟩ := List.eq_nil_or_concat' run |>.resolve_left hgroup.ne_nil
      obtain _ | ⟨first, others⟩ := front
      · simp [hfront] at hlength
      · rw [hfront] at hgroup
        subst hfront
        rw [List.dropLast_concat, List.getLast?_concat]
        exact .onePlace first others last rfl hgroup
    · rw [if_neg hone]
      exact .byRun (by omega) hone

theorem Merging.flatten {points : List Point} {merged : List (List Point)}
    (hmerging : Merging points merged) : merged.flatten = points := by
  cases hmerging with
  | few _ =>
      rw [← List.flatMap_def]
      exact List.flatMap_singleton' points
  | onePlace first others last hpoints _ =>
      rw [hpoints]
      simp
  | byRun _ _ => exact flatten_runs points

theorem Merging.isGroup {points : List Point} {merged : List (List Point)}
    (hmerging : Merging points merged) {run : List Point} (hrun : run ∈ merged) : IsGroup run := by
  cases hmerging with
  | few _ =>
      obtain ⟨point, _, rfl⟩ := List.mem_map.mp hrun
      exact isGroup_singleton point
  | onePlace first others last hpoints hgroup =>
      rw [List.mem_cons, List.mem_singleton] at hrun
      obtain rfl | rfl := hrun
      · subst hpoints
        exact {
          ne_nil := List.cons_ne_nil _ _
          follows := hgroup.follows.left_of_append
          place := fun point hpoint other hother =>
            hgroup.place point (List.mem_append_left _ hpoint) other (List.mem_append_left _ hother) }
      · exact isGroup_singleton last
  | byRun _ _ => exact isGroup_of_isRun (isRun_of_mem_runs hrun)

theorem mem_of_mem_representatives_groups {hops : List Hop} {station : Station}
    (hstation : station ∈ representatives (groups (stations lookups hops destinationIp
      destinationGeo))) : station ∈ stations lookups hops destinationIp destinationGeo := by
  have hmem := mem_of_mem_representatives hstation
  rwa [← station_chainPoints, ← station_mergedRuns, ← List.map_flatten,
    (merging_mergedRuns _).flatten, station_chainPoints] at hmem

/-- The first and the last hop number that a point stands for. -/
def Point.firstHop (point : Point) : ℤ := (point.hopRange.map Prod.fst).getD point.hop

def Point.lastHop (point : Point) : ℤ := (point.hopRange.map Prod.snd).getD point.hop

/-- The point is a hop, or has it in its range. -/
def Point.Covers (point : Point) (number : ℤ) : Prop :=
  point.firstHop ≤ number ∧ number ≤ point.lastHop

instance (point : Point) (number : ℤ) : Decidable (point.Covers number) :=
  inferInstanceAs (Decidable (_ ∧ _))

/-- The hop numbers of a run follow one another. -/
theorem IsGroup.hops {first : Point} {others : List Point} (hgroup : IsGroup (first :: others)) :
    ∀ number, first.hop ≤ number ∧
        number ≤ ((first :: others).getLast (List.cons_ne_nil _ _)).hop ↔
      ∃ point ∈ first :: others, point.hop = number := by
  have hchain := hgroup.follows
  clear hgroup
  induction others generalizing first with
  | nil =>
      intro number
      simp only [List.getLast_singleton, List.mem_singleton, exists_eq_left]
      omega
  | cons next rest ih =>
      intro number
      obtain ⟨hnext, hrest⟩ := List.isChain_cons_cons.mp hchain
      simp only [Geo.follows, Bool.and_eq_true, decide_eq_true_eq] at hnext
      have hlast := ih hrest
      rw [List.getLast_cons (List.cons_ne_nil next rest)]
      rw [List.exists_mem_cons_iff, ← hlast number]
      have hle := ((hlast next.hop).mpr ⟨next, List.mem_cons_self, rfl⟩).2
      omega

theorem IsGroup.role {first : Point} {others : List Point} (hgroup : IsGroup (first :: others)) :
    ∀ point ∈ first :: others, point.mapRole = first.mapRole := by
  have hchain := hgroup.follows
  clear hgroup
  induction others generalizing first with
  | nil => simp
  | cons next rest ih =>
      obtain ⟨hnext, hrest⟩ := List.isChain_cons_cons.mp hchain
      simp only [Geo.follows, Bool.and_eq_true, decide_eq_true_eq] at hnext
      intro point hpoint
      obtain rfl | hpoint := List.mem_cons.mp hpoint
      · rfl
      · rw [ih hrest point hpoint, hnext.1]

/-- What is drawn for a run. -/
structure StandsFor (run : List Point) (point : Point) : Prop where
  covers : ∀ number, point.Covers number ↔ ∃ member ∈ run, member.hop = number
  first : ∀ member ∈ run.head?, point.firstHop = member.hop
  last : ∀ member ∈ run.getLast?, point.lastHop = member.hop
  role : ∀ member ∈ run, point.mapRole = member.mapRole
  place : ∀ member ∈ run, point.key = member.key

theorem standFor_hopRange {point : Point} {run : List Point} :
    (point.standFor run).hopRange =
      if run.length ≤ 1 then point.hopRange
      else some (((run.map Point.hop).min?).getD 0, ((run.map Point.hop).max?).getD 0) := by
  unfold Point.standFor
  split
  · rfl
  · simp only
    split
    · rfl
    · rfl

theorem min?_hops {first : Point} {others : List Point} (hgroup : IsGroup (first :: others)) :
    ((first :: others).map Point.hop).min? = some first.hop := by
  rw [List.min?_eq_some_iff]
  refine ⟨List.mem_cons_self, ?_⟩
  intro number hnumber
  obtain ⟨point, hpoint, rfl⟩ := List.mem_map.mp hnumber
  exact ((hgroup.hops point.hop).mpr ⟨point, hpoint, rfl⟩).1

theorem max?_hops {first : Point} {others : List Point} (hgroup : IsGroup (first :: others)) :
    ((first :: others).map Point.hop).max? =
      some ((first :: others).getLast (List.cons_ne_nil _ _)).hop := by
  rw [List.max?_eq_some_iff]
  refine ⟨List.mem_map_of_mem (List.getLast_mem _), ?_⟩
  intro number hnumber
  obtain ⟨point, hpoint, rfl⟩ := List.mem_map.mp hnumber
  exact ((hgroup.hops point.hop).mpr ⟨point, hpoint, rfl⟩).2

theorem standFor_fields (point : Point) (run : List Point) :
    (point.standFor run).hop = point.hop ∧ (point.standFor run).mapRole = point.mapRole ∧
      (point.standFor run).key = point.key ∧ (point.standFor run).destination = point.destination ∧
      (point.standFor run).terminal = point.terminal := by
  unfold Point.standFor
  split
  · exact ⟨rfl, rfl, rfl, rfl, rfl⟩
  · simp only
    split
    · exact ⟨rfl, rfl, rfl, rfl, rfl⟩
    · exact ⟨rfl, rfl, rfl, rfl, rfl⟩

theorem standsFor_standFor {run : List Point} {member : Point} (hgroup : IsGroup run)
    (hmember : member ∈ run) (hrange : member.hopRange = none) :
    StandsFor run (member.standFor run) := by
  obtain ⟨first, others, rfl⟩ := List.exists_cons_of_ne_nil hgroup.ne_nil
  obtain ⟨_, hrole, hkey, _, _⟩ := standFor_fields member (first :: others)
  have hbounds : (member.standFor (first :: others)).firstHop = first.hop ∧
      (member.standFor (first :: others)).lastHop =
        ((first :: others).getLast (List.cons_ne_nil _ _)).hop := by
    unfold Point.firstHop Point.lastHop
    rw [standFor_hopRange]
    cases others with
    | nil =>
        obtain rfl := List.mem_singleton.mp hmember
        simp [hrange, Point.standFor]
    | cons next rest =>
        rw [if_neg (by simp), min?_hops hgroup, max?_hops hgroup]
        simp
  exact {
    covers := by
      intro number
      rw [← hgroup.hops number]
      unfold Point.Covers
      rw [hbounds.1, hbounds.2]
    first := by
      rintro other hother
      obtain rfl : first = other := by simpa using hother
      exact hbounds.1
    last := by
      intro other hother
      rw [List.getLast?_eq_some_getLast (List.cons_ne_nil _ _), Option.mem_some_iff] at hother
      rw [hbounds.2, hother]
    role := fun other hother => by rw [hrole, hgroup.role member hmember, hgroup.role other hother]
    place := fun other hother => by rw [hkey, hgroup.place member hmember other hother] }

/-- Every run is drawn as one of its members, changed to stand for all of them. -/
theorem forall₂_representRuns {merged : List (List Point)} (hne : ∀ run ∈ merged, run ≠ []) :
    List.Forall₂ (fun run point => ∃ member ∈ run, point = member.standFor run) merged
      (representRuns merged) := by
  induction merged with
  | nil => exact .nil
  | cons run rest ih =>
      have hrest := ih fun other hother => hne other (List.mem_cons_of_mem _ hother)
      have hrun := hne run List.mem_cons_self
      cases rest with
      | nil =>
          unfold representRuns
          rw [List.getLast?_eq_some_getLast hrun]
          exact .cons ⟨_, List.getLast_mem hrun, rfl⟩ .nil
      | cons next rest =>
          unfold representRuns
          rw [List.head?_eq_some_head hrun]
          exact .cons ⟨_, List.head_mem hrun, rfl⟩ hrest

/-- What standing for others does not change is that of the representatives. -/
theorem map_representRuns {β : Type*} {f : Point → β} {g : Station → β}
    (hf : ∀ (point : Point) (run : List Point), f (point.standFor run) = g point.station)
    (merged : List (List Point)) :
    (representRuns merged).map f =
      (representatives (merged.map (List.map Point.station))).map g := by
  induction merged with
  | nil => rfl
  | cons run rest ih =>
      cases rest with
      | nil =>
          simp only [representRuns, representatives, List.map_cons, List.map_nil,
            List.getLast?_map]
          cases run.getLast? <;> simp [hf]
      | cons next rest =>
          simp only [representRuns, representatives, List.map_cons, List.map_append] at ih ⊢
          rw [ih]
          cases run <;> simp [hf]

theorem StandsFor.withMapRadius {run : List Point} {point : Point} (hpoint : StandsFor run point) :
    StandsFor run point.withMapRadius := by
  rw [point.withMapRadius_eq]
  exact ⟨hpoint.covers, hpoint.first, hpoint.last, hpoint.role, hpoint.place⟩

/-- What holds of every member that comes to stand for its run holds of the points of the map. -/
theorem forall₂_mtrHopsToGeoPoints {hops : List Hop} (hhops : hops ≠ [])
    {P : List Point → Point → Prop}
    (hmember : ∀ run ∈ mergedRuns (chainPoints lookups hops destinationIp
        (mapLocation lookups destinationGeo)),
      IsGroup run → (∀ member ∈ run, member.Plain destinationIp) →
        ∀ member ∈ run, P run (member.standFor run).withMapRadius) :
    List.Forall₂ P
      (mergedRuns (chainPoints lookups hops destinationIp (mapLocation lookups destinationGeo)))
      (mtrHopsToGeoPoints lookups hops destinationIp destinationGeo) := by
  rw [mtrHopsToGeoPoints_eq hhops]
  set points := chainPoints lookups hops destinationIp (mapLocation lookups destinationGeo)
    with hpoints
  have hmerging := merging_mergedRuns points
  have hgood : ∀ run ∈ mergedRuns points,
      ∀ member ∈ run, P run (member.standFor run).withMapRadius := by
    intro run hrun
    refine hmember run hrun (hmerging.isGroup hrun) fun member hmem => ?_
    have hmemPoints : member ∈ points := by
      rw [← hmerging.flatten]
      exact List.mem_flatten_of_mem hrun hmem
    exact plain_of_mem_chainPoints hmemPoints
  have hdrawn := (List.forall₂_and_left _ _).mpr
    ⟨hgood, forall₂_representRuns fun run hrun => (hmerging.isGroup hrun).ne_nil⟩
  rw [List.forall₂_map_right_iff]
  refine hdrawn.imp ?_
  rintro run _ ⟨hrun, member, hmem, rfl⟩
  exact hrun member hmem

/-- The points of the map stand for the runs. -/
theorem forall₂_standsFor {hops : List Hop} (hhops : hops ≠ []) :
    List.Forall₂ StandsFor
      (mergedRuns (chainPoints lookups hops destinationIp (mapLocation lookups destinationGeo)))
      (mtrHopsToGeoPoints lookups hops destinationIp destinationGeo) :=
  forall₂_mtrHopsToGeoPoints hhops fun _ _ hgroup hplain member hmember =>
    (standsFor_standFor hgroup hmember (hplain member hmember).hopRange).withMapRadius

theorem map_mtrHopsToGeoPoints {β : Type*} {f : Point → β} {g : Station → β} {hops : List Hop}
    (hhops : hops ≠ [])
    (hradius : ∀ point : Point, f point.withMapRadius = f point)
    (hf : ∀ (point : Point) (run : List Point), f (point.standFor run) = g point.station) :
    (mtrHopsToGeoPoints lookups hops destinationIp destinationGeo).map f =
      (representatives (groups (stations lookups hops destinationIp
        (mapLocation lookups destinationGeo)))).map g := by
  rw [mtrHopsToGeoPoints_eq hhops, List.map_map,
    show f ∘ Point.withMapRadius = f from funext hradius, map_representRuns hf,
    station_mergedRuns, station_chainPoints]

/-- A hop is drawn, with its role, when it is a station with that role. -/
theorem exists_covers_iff {hops : List Hop} (hhops : hops ≠ []) (number : ℤ) (role : MapRole) :
    (∃ point ∈ mtrHopsToGeoPoints lookups hops destinationIp destinationGeo,
        point.Covers number ∧ point.mapRole = role) ↔
      ∃ station ∈ stations lookups hops destinationIp (mapLocation lookups destinationGeo),
        station.hop = number ∧ station.role = role := by
  have hdrawn := @forall₂_standsFor lookups destinationIp destinationGeo hops hhops
  rw [← station_chainPoints, ← (merging_mergedRuns (chainPoints lookups hops destinationIp
    (mapLocation lookups destinationGeo))).flatten]
  generalize mtrHopsToGeoPoints lookups hops destinationIp destinationGeo = drawn at hdrawn ⊢
  generalize mergedRuns (chainPoints lookups hops destinationIp
    (mapLocation lookups destinationGeo)) = merged at hdrawn ⊢
  induction hdrawn with
  | nil => simp
  | cons hpoint _ ih =>
      rename_i run point runs points _
      rw [List.exists_mem_cons_iff, List.flatten_cons, List.map_append]
      simp only [List.mem_append, or_and_right, exists_or]
      refine or_congr ?_ ih
      rw [hpoint.covers number]
      constructor
      · rintro ⟨⟨member, hmember, rfl⟩, rfl⟩
        exact ⟨member.station, List.mem_map_of_mem hmember, rfl, (hpoint.role member hmember).symm⟩
      · rintro ⟨station, hstation, rfl, rfl⟩
        obtain ⟨member, hmember, rfl⟩ := List.mem_map.mp hstation
        exact ⟨⟨member, hmember, rfl⟩, hpoint.role member hmember⟩

end Justup.Geo
