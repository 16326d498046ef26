import Mathlib
import Justup.Store.Line

/-!
# Locations and their role on the map

How the location of a hop is classified, what text it gives, and whether and how
it is drawn.  The center of a country is looked up.
-/

namespace Justup.Geo

open Store

/-- A value that should be a number: a finite one, a truth value, or something else. -/
inductive Value where
  | number (value : ℚ)
  | flag (value : Bool)
  | other
  deriving DecidableEq, Repr

inductive Confidence where
  | hostname
  | geoip
  | online
  | destination
  | other
  deriving DecidableEq, Repr

inductive AccuracyClass where
  | precise
  | approximate
  | other
  deriving DecidableEq, Repr

inductive GeoSource where
  | hostname
  | geoip
  | geoipCoarse
  | online
  | none
  deriving DecidableEq, Repr

inductive GeoAccuracy where
  | precise
  | approximate
  | unknown
  deriving DecidableEq, Repr

/-- A location dict; a key that is missing is a value that is `none`. -/
structure Location where
  lat : Option Value := none
  lon : Option Value := none
  city : Option Text := none
  positionCity : Option Text := none
  cityIsRegion : Bool := false
  country : Option Text := none
  confidence : Option Confidence := none
  accuracyClass : Option AccuracyClass := none
  accuracyRadiusKm : Option Value := none
  countryCenter : Bool := false
  deriving DecidableEq

/-- The text, unless it is empty. -/
def nonEmpty (text : Option Text) : Option Text := text.filter fun text => !text.isEmpty

def maxCityRadiusKm : ℚ := 25

/-- `_CONFIDENCE_TO_SOURCE`, with its default. -/
def sourceOf : Option Confidence → GeoSource
  | some .hostname => .hostname
  | some .online => .online
  | _ => .geoip

/-- `_coarse_source` -/
def coarseSource (source : GeoSource) : GeoSource :=
  if source = .online then .online else .geoipCoarse

namespace Location

def inRange (bound : ℚ) : Option Value → Bool
  | some (.number value) => decide (-bound ≤ value ∧ value ≤ bound)
  | _ => false

/-- `_has_coords` -/
def hasCoords (loc : Location) : Bool := inRange 90 loc.lat && inRange 180 loc.lon

/-- The radius is one of a city. -/
def cityRadius (loc : Location) : Bool :=
  match loc.accuracyRadiusKm with
  | some (.number radius) => decide (0 ≤ radius ∧ radius ≤ maxCityRadiusKm)
  | _ => false

end Location

/-- `_classify_location` -/
def classifyLocation (loc : Option Location) : GeoSource × GeoAccuracy :=
  match loc with
  | none => (.none, .unknown)
  | some loc =>
      let source := sourceOf loc.confidence
      if loc.hasCoords = false then (coarseSource source, .approximate)
      else if (nonEmpty loc.city).isNone ∨ loc.cityIsRegion then (coarseSource source, .approximate)
      else
        match loc.accuracyClass with
        | some .precise => (source, .precise)
        | some _ => (if source = .hostname then source else coarseSource source, .approximate)
        | none =>
            if source = .hostname then (source, .precise)
            else if source = .geoip ∧ loc.cityRadius then (source, .precise)
            else (coarseSource source, .approximate)

inductive Precision where
  | precise
  | approximate
  | country
  | none
  deriving DecidableEq, Repr

structure LocationView where
  city : Option Text
  country : Option Text
  precision : Precision
  deriving DecidableEq

/-- `location_view` -/
def locationView (loc : Option Location) : LocationView :=
  match loc with
  | none => ⟨none, none, .none⟩
  | some loc =>
      let country := nonEmpty loc.country
      if (classifyLocation (some loc)).2 = .precise then ⟨nonEmpty loc.city, country, .precise⟩
      else
        match nonEmpty loc.positionCity with
        | some city => ⟨some city, country, .approximate⟩
        | none => ⟨none, country, if country.isSome then .country else .none⟩

/-- Where a route is located: the lookup of a hop, what is a public address, the centers. -/
structure Lookups where
  geolocate : Option Text → Option Text → Option Location
  publicIp : Option Text → Bool
  countryCenter : Text → Option (ℚ × ℚ)

/-- The location at the center of its country. -/
def Location.atCenter (loc : Location) (center : ℚ × ℚ) : Location :=
  { loc with
    lat := some (.number center.1)
    lon := some (.number center.2)
    city := none
    positionCity := none
    accuracyClass := some .approximate
    accuracyRadiusKm := none
    countryCenter := true }

/-- `_map_location` -/
def mapLocation (lookups : Lookups) (loc : Option Location) : Option Location :=
  match loc with
  | none => none
  | some loc =>
      if (locationView (some loc)).precision ≠ .country then some loc
      else
        match lookups.countryCenter (loc.country.getD []) with
        | none => some loc
        | some center => some (loc.atCenter center)

inductive MapRole where
  | route
  | estimate
  | none
  deriving DecidableEq, Repr

/-- `map_role` -/
def mapRole (loc : Option Location) (isDestination : Bool) : MapRole :=
  match loc with
  | none => .none
  | some loc =>
      if loc.hasCoords = false then .none
      else if loc.countryCenter then .estimate
      else if (classifyLocation (some loc)).2 = .precise then .route
      else if (classifyLocation (some loc)).2 = .approximate ∧
          (locationView (some loc)).city.isSome then
        if isDestination then .route else .estimate
      else .none

theorem classifyLocation_approximate {loc : Location} (hcity : (nonEmpty loc.city).isNone) :
    (classifyLocation (some loc)).2 = .approximate := by
  unfold classifyLocation
  by_cases hcoords : loc.hasCoords = false
  · simp [hcoords]
  · simp [hcoords, hcity]

theorem locationView_of_approximate {loc : Location} (hcity : nonEmpty loc.positionCity = none)
    (happrox : (classifyLocation (some loc)).2 ≠ .precise) :
    locationView (some loc) =
      ⟨none, nonEmpty loc.country, if (nonEmpty loc.country).isSome then .country else .none⟩ := by
  unfold locationView
  simp only [happrox, if_false, hcity]

/-- Only a location without a city of its own is shown as its country. -/
theorem precision_eq_country {loc : Location}
    (hcountry : (locationView (some loc)).precision = .country) :
    (classifyLocation (some loc)).2 ≠ .precise ∧ nonEmpty loc.positionCity = none ∧
      (nonEmpty loc.country).isSome := by
  unfold locationView at hcountry
  by_cases hprecise : (classifyLocation (some loc)).2 = .precise
  · simp [hprecise] at hcountry
  · cases hcity : nonEmpty loc.positionCity with
    | some city => simp [hprecise, hcity] at hcountry
    | none =>
        simp only [hprecise, if_false, hcity, ite_eq_left_iff, reduceCtorEq, imp_false,
          Bool.not_eq_true, Bool.not_eq_false] at hcountry
        exact ⟨hprecise, rfl, hcountry⟩

theorem mapLocation_of_country {lookups : Lookups} {loc : Location}
    (hcountry : (locationView (some loc)).precision = .country) :
    mapLocation lookups (some loc) =
      some (((lookups.countryCenter (loc.country.getD [])).map loc.atCenter).getD loc) := by
  simp only [mapLocation, hcountry, ne_eq, not_true_eq_false, if_false]
  cases lookups.countryCenter (loc.country.getD []) <;> rfl

theorem mapLocation_of_not_country {lookups : Lookups} {loc : Location}
    (hcountry : (locationView (some loc)).precision ≠ .country) :
    mapLocation lookups (some loc) = some loc := by
  simp only [mapLocation, ne_eq, hcountry, not_false_eq_true, if_true]

theorem precision_atCenter {loc : Location} {center : ℚ × ℚ}
    (hcountry : (nonEmpty loc.country).isSome) :
    (locationView (some (loc.atCenter center))).precision = .country := by
  have happrox := classifyLocation_approximate (show (nonEmpty (loc.atCenter center).city).isNone
    from rfl)
  rw [locationView_of_approximate rfl (by rw [happrox]; decide)]
  exact if_pos hcountry

theorem mapLocation_some (lookups : Lookups) (loc : Location) :
    ∃ projected, mapLocation lookups (some loc) = some projected := by
  by_cases hcountry : (locationView (some loc)).precision = .country
  · exact ⟨_, mapLocation_of_country hcountry⟩
  · exact ⟨_, mapLocation_of_not_country hcountry⟩

/-- A second projection changes nothing. -/
theorem mapLocation_mapLocation (lookups : Lookups) (loc : Option Location) :
    mapLocation lookups (mapLocation lookups loc) = mapLocation lookups loc := by
  cases loc with
  | none => rfl
  | some loc =>
      by_cases hcountry : (locationView (some loc)).precision = .country
      · rw [mapLocation_of_country hcountry]
        cases hcenter : lookups.countryCenter (loc.country.getD []) with
        | none =>
            rw [Option.map_none, Option.getD_none, mapLocation_of_country hcountry, hcenter]
            rfl
        | some center =>
            rw [Option.map_some, Option.getD_some,
              mapLocation_of_country (precision_atCenter (precision_eq_country hcountry).2.2),
              show (loc.atCenter center).country = loc.country from rfl, hcenter]
            rfl
      · rw [mapLocation_of_not_country hcountry, mapLocation_of_not_country hcountry]

@[simp] theorem mapRole_none (destination : Bool) : mapRole none destination = .none := rfl

theorem mapRole_eq_none_of_hasCoords {loc : Location} {destination : Bool}
    (hcoords : loc.hasCoords = false) : mapRole (some loc) destination = .none := by
  simp [mapRole, hcoords]

/-- A location that calls itself approximate is. -/
theorem classifyLocation_of_accuracyClass {loc : Location}
    (hclass : loc.accuracyClass = some .approximate) :
    (classifyLocation (some loc)).2 = .approximate := by
  unfold classifyLocation
  simp only [hclass]
  split
  · rfl
  · split
    · rfl
    · rfl

end Justup.Geo
