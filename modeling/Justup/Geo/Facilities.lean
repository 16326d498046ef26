import Justup.Geo.PopCandidates
import Justup.Geo.PopLookup
import Justup.Lib.Grouping

/-!
# Import of a facility snapshot

Facility records are grouped by city, each group becomes a row of city evidence, and all rows are
written in one transaction.  Coordinates are exact numbers, but sums are taken in the order of the
code by an addition that may round.
-/

namespace Justup.Geo.Facilities

open Store Lib

/-! ## Records -/

/-- A JSON value where a text should be; `str` of something else may raise. -/
inductive Field where
  | text (text : Text)
  | other (raises : Bool)
  deriving DecidableEq, Repr

/-- A JSON value where a number should be; a truth value is a number. -/
inductive Number where
  | finite (value : ℚ)
  | nonFinite
  /-- An integer that no float can hold. -/
  | huge
  | text (text : Text)
  | other
  deriving DecidableEq, Repr

inductive Facility where
  | dict (city country : Field) (latitude longitude : Number)
  | other
  deriving DecidableEq, Repr

/-- How `float(value)` ends. -/
inductive FloatResult where
  | number (value : ℚ)
  | nonFinite
  | notNumeric
  | raised
  deriving DecidableEq, Repr

/-- The functions of the text library, of float arithmetic and the two tables of curated codes. -/
structure Tools where
  strip : Text → Text
  lower : Text → Text
  upper : Text → Text
  title : Text → Text
  casefold : Text → Text
  isWord : Char → Bool
  isSpace : Char → Bool
  readFloat : Text → FloatResult
  cityToPopCode : Text → Option Text
  seedCountries : Text → Option Text
  add : ℚ → ℚ → ℚ
  divide : ℚ → ℕ → ℚ
  round5 : ℚ → ℚ
  /-- `_facility_distance_km` -/
  distanceKm : ℚ × ℚ → ℚ × ℚ → ℚ

/-- A record that is valid. -/
structure Validated where
  canonicalCode : Text
  aliasCode : Text
  city : Text
  country : Text
  lat : ℚ
  lon : ℚ
  deriving DecidableEq, Repr

def maxAliasLength : ℕ := 10
def maxCityLength : ℕ := 100
def maxCountryLength : ℕ := 5
def maxRecordsPerRun : ℕ := 50000
def maxCityGroupsPerRun : ℕ := 5000
def maxFacilitySpreadKm : ℚ := 50

/-- `CONTROL_CHAR_PATTERN` -/
def isControl (c : Char) : Bool :=
  decide (c.val ≤ 0x1f) || (decide (0x7f ≤ c.val) && decide (c.val ≤ 0x9f))

/-- `POP_CODE_PATTERN` -/
def isPopCode : Text → Bool := Pop.isRun 2 5 fun c => c.isLower || c.isDigit

namespace Tools

variable (tools : Tools)

def float : Number → FloatResult
  | .finite value => .number value
  | .nonFinite => .nonFinite
  | .huge => .raised
  | .text text => tools.readFloat text
  | .other => .notNumeric

/-- `SAFE_PLACE_NAME_PATTERN` -/
def isSafePlaceName (text : Text) : Bool :=
  !text.isEmpty && text.all fun c =>
    tools.isWord c || tools.isSpace c || "-.,'()".toList.contains c ||
      (decide (0xC0 ≤ c.val) && decide (c.val ≤ 0x24F))

/-- The checks of `validate_pop_record` on texts and coordinates; `none` is an invalid record. -/
def validateRead (canonicalCode aliasCode city country : Text) (lat lon : ℚ) : Option Validated :=
  let canonicalCode := tools.strip (tools.lower canonicalCode)
  let aliasCode := tools.strip (tools.lower aliasCode)
  let city := tools.strip city
  let country := tools.strip (tools.upper country)
  if ¬ ([canonicalCode, aliasCode, city, country].any fun field => field.any isControl) ∧
      tools.isSafePlaceName city ∧ tools.isSafePlaceName country ∧
      canonicalCode.length ≤ maxAliasLength ∧ aliasCode.length ≤ maxAliasLength ∧
      city.length ≤ maxCityLength ∧ country.length ≤ maxCountryLength ∧
      isPopCode canonicalCode ∧ isPopCode aliasCode ∧
      -90 ≤ lat ∧ lat ≤ 90 ∧ -180 ≤ lon ∧ lon ≤ 180 then
    some ⟨canonicalCode, aliasCode, city, country, lat, lon⟩
  else none

/-- What `validate_pop_record` says of a record; it may raise. -/
inductive Validation where
  | valid (record : Validated)
  | invalid
  | raised
  deriving DecidableEq, Repr

/-- `validate_pop_record` of texts; what the coordinates are is asked first. -/
def validatePopRecord (canonicalCode aliasCode city country : Text) (lat lon : Number) :
    Validation :=
  match tools.float lat with
  | .raised => .raised
  | .notNumeric => .invalid
  | .number latitude =>
      match tools.float lon with
      | .raised => .raised
      | .notNumeric | .nonFinite => .invalid
      | .number longitude =>
          match tools.validateRead canonicalCode aliasCode city country latitude longitude with
          | some record => .valid record
          | none => .invalid
  | .nonFinite =>
      match tools.float lon with
      | .raised => .raised
      | _ => .invalid

def normalizeCity (city : Text) : Text := if city = [] then [] else tools.title (tools.strip city)

def normalizeCountry (country : Text) : Text :=
  if country = [] then [] else tools.upper (tools.strip country)

/-- `_lookup_pop_code_by_city` -/
def lookupPopCodeByCity (city : Text) : Option Text :=
  if city = [] then none else tools.cityToPopCode (tools.casefold (tools.normalizeCity city))

def cityCodeForCountry (city country : Text) : Option Text :=
  match tools.lookupPopCodeByCity city with
  | some (c :: code) =>
      if tools.seedCountries (c :: code) = some (tools.normalizeCountry country) then
        some (c :: code)
      else none
  | _ => none

end Tools

/-! ## Groups -/

/-- The code of the city and its country. -/
abbrev Key := Text ×ₗ Text

/-- What becomes of one record. -/
inductive Verdict where
  | skipped
  | invalid
  | accepted (key : Key) (record : Validated)
  | raised
  deriving DecidableEq

variable (tools : Tools)

def verdict : Facility → Verdict
  | .other => .invalid
  | .dict (.text city) (.text country) latitude longitude =>
      match tools.cityCodeForCountry city country with
      | none => .skipped
      | some code =>
          match tools.validatePopRecord code code city country latitude longitude with
          | .valid record => .accepted (toLex (code, tools.normalizeCountry country)) record
          | .invalid => .invalid
          | .raised => .raised
  | .dict city country _ _ =>
      if city = .other true ∨ country = .other true then .raised else .skipped

def Verdict.item : Verdict → Option (Key × Validated)
  | .accepted key record => some (key, record)
  | _ => none

/-- `groups`, `skipped` and `validation_errors`.  The groups are only counted and read in the
order of their keys. -/
structure Grouped where
  groups : List (Key × List Validated)
  skipped : ℕ
  validationErrors : ℕ

/-- `_group_facilities`; it ends with the first record that raises. -/
def groupFacilities (facilities : List Facility) : Option Grouped :=
  let verdicts := facilities.map (verdict tools)
  if Verdict.raised ∈ verdicts then none
  else some
    { groups := Dict.group (verdicts.filterMap Verdict.item)
      skipped := verdicts.count .skipped
      validationErrors := verdicts.count .invalid }

/-! ## The position of a group -/

/-- `sorted((record.lat, record.lon) for record in records)` -/
def coords (records : List Validated) : List (ℚ × ℚ) :=
  ((records.map fun record => toLex (record.lat, record.lon)).insertionSort (· ≤ ·)).map ofLex

def sum (values : List ℚ) : ℚ := values.foldl tools.add 0

def centroid (records : List Validated) : ℚ × ℚ :=
  let points := coords records
  (tools.divide (sum tools (points.map Prod.fst)) points.length,
    tools.divide (sum tools (points.map Prod.snd)) points.length)

/-- The facilities lie too far apart. -/
def spread (records : List Validated) : Bool :=
  (coords records).any fun point =>
    decide (maxFacilitySpreadKm / 2 < tools.distanceKm point (centroid tools records))

/-- `min(record.city for record in records)` -/
def firstCity (records : List Validated) : Text := ((records.map Validated.city).min?).getD []

/-- `=` under `COLLATE NOCASE`. -/
def sameNoCase (first second : Text) : Bool :=
  decide (first.map PopLookup.foldCase = second.map PopLookup.foldCase)

def isAnchor (key : Key) (city : Text) (row : Pop.LocationRow) : Bool :=
  decide (row.country = (ofLex key).2) && Pop.protectedSources.contains row.source &&
    !row.retired &&
    (decide (row.canonicalCode = (ofLex key).1) || decide (row.aliasCode = (ofLex key).1) ||
      sameNoCase row.city city)

/-- `ORDER BY` of the anchors. -/
def anchorOrder (row : Pop.LocationRow) : ℕ ×ₗ ℕ ×ₗ Text :=
  toLex (if row.source = "manual".toList then 0 else 1, toLex (row.priority, row.aliasCode))

def anchors (locations : List Pop.LocationRow) (key : Key) (city : Text) :
    List Pop.LocationRow :=
  (locations.filter (isAnchor key city)).insertionSort fun a b => anchorOrder a ≤ anchorOrder b

/-- A row of `pop_city_evidence`, apart from its key and `updated_at`. -/
structure Row where
  city : Text
  lat : ℚ
  lon : ℚ
  facilityCount : ℕ
  positionSource : Text
  deriving DecidableEq, Repr

/-- The row of a group; none if a curated position conflicts with the facilities. -/
def position (locations : List Pop.LocationRow) (key : Key) (records : List Validated) :
    Option Row :=
  let middle := centroid tools records
  match anchors locations key (firstCity records) with
  | [] =>
      some ⟨firstCity records, tools.round5 middle.1, tools.round5 middle.2, records.length,
        "facility-centroid".toList⟩
  | first :: rest =>
      if (first :: rest).any fun item =>
          decide (maxFacilitySpreadKm < tools.distanceKm (item.lat, item.lon) middle) ||
            decide (maxFacilitySpreadKm <
              tools.distanceKm (item.lat, item.lon) (first.lat, first.lon)) then none
      else some ⟨first.city, first.lat, first.lon, records.length, first.source⟩

/-! ## The transaction -/

/-- The statements that may fail. -/
inductive Statement where
  | start
  | connect
  | anchors (key : Key)
  | existed (key : Key)
  | upsert (key : Key)
  | commit
  | finish
  deriving DecidableEq

structure Counters where
  processed : ℕ := 0
  inserted : ℕ := 0
  updated : ℕ := 0
  skipped : ℕ := 0
  validationErrors : ℕ := 0
  deriving DecidableEq, Repr

/-- The table by its primary key, each row with its `updated_at`. -/
abbrev Evidence := Key → Option (Row × Text)

/-- What the open transaction has, and the counters. -/
structure Progress where
  evidence : Evidence
  counters : Counters

namespace Progress

def skip (count : ℕ) (p : Progress) : Progress :=
  { p with counters := { p.counters with skipped := p.counters.skipped + count } }

def process (count : ℕ) (p : Progress) : Progress :=
  { p with counters := { p.counters with processed := p.counters.processed + count } }

/-- `INSERT … ON CONFLICT … DO UPDATE … WHERE` something differs. -/
def upsert (key : Key) (row : Row) (now : Text) (p : Progress) : Progress :=
  match p.evidence key with
  | none =>
      { evidence := Function.update p.evidence key (some (row, now))
        counters := { p.counters with inserted := p.counters.inserted + 1 } }
  | some (old, _) =>
      if old = row then p
      else
        { evidence := Function.update p.evidence key (some (row, now))
          counters := { p.counters with updated := p.counters.updated + 1 } }

end Progress

variable (faults : Statement → Bool) (clock : Key → Text) (locations : List Pop.LocationRow)

/-- One round of the loop; a statement that fails raises and leaves the counters. -/
def importGroup (p : Progress) (entry : Key × List Validated) : Except Counters Progress :=
  if spread tools entry.2 then .ok (p.skip entry.2.length)
  else if faults (.anchors entry.1) then .error p.counters
  else
    match position tools locations entry.1 entry.2 with
    | none => .ok (p.skip entry.2.length)
    | some row =>
        if faults (.existed entry.1) || faults (.upsert entry.1) then .error p.counters
        else .ok ((p.upsert entry.1 row (clock entry.1)).process entry.2.length)

def importGroups : Progress → List (Key × List Validated) → Except Counters Progress
  | p, [] => .ok p
  | p, entry :: rest =>
      match importGroup tools faults clock locations p entry with
      | .error counters => .error counters
      | .ok next => importGroups next rest

inductive Failure where
  | tooManyRecords
  | tooManyGroups
  /-- The message of what was raised. -/
  | raised
  deriving DecidableEq, Repr

/-- A row of `pop_import_runs`, whose key is its place. -/
structure Run where
  counters : Counters := {}
  error : Option Failure := none
  finished : Bool := false
  deriving DecidableEq, Repr

structure Db where
  locations : List Pop.LocationRow
  evidence : Evidence
  runs : List Run

/-- What the `try` of `_apply_peeringdb_snapshot` leaves: the committed evidence, the counters and
what went wrong.  A transaction that raises is rolled back. -/
structure Processed where
  evidence : Evidence
  counters : Counters
  error : Option Failure

def process (db : Db) (facilities : List Facility) : Processed :=
  if maxRecordsPerRun < facilities.length then ⟨db.evidence, {}, some .tooManyRecords⟩
  else
    match groupFacilities tools facilities with
    | none => ⟨db.evidence, {}, some .raised⟩
    | some grouped =>
        let counters : Counters :=
          { skipped := grouped.skipped, validationErrors := grouped.validationErrors }
        if maxCityGroupsPerRun < grouped.groups.length then
          ⟨db.evidence, counters, some .tooManyGroups⟩
        else if faults .connect then ⟨db.evidence, counters, some .raised⟩
        else
          match importGroups tools faults clock db.locations ⟨db.evidence, counters⟩
              grouped.groups with
          | .error counters => ⟨db.evidence, counters, some .raised⟩
          | .ok p =>
              if faults .commit then ⟨db.evidence, p.counters, some .raised⟩
              else ⟨p.evidence, p.counters, none⟩

/-- `PopRefreshResult`; nothing is ever retired. -/
structure Result where
  counters : Counters
  retired : ℕ := 0
  error : Option Failure
  deriving DecidableEq, Repr

/-- `_apply_peeringdb_snapshot`, and none where it raises itself: the run is recorded in
statements of its own before and after. -/
def applySnapshot (db : Db) (facilities : List Facility) : Db × Option Result :=
  if faults .start then (db, none)
  else
    let processed := process tools faults clock db facilities
    let later := { db with evidence := processed.evidence, runs := db.runs ++ [{}] }
    if faults .finish then (later, none)
    else
      ({ later with runs := db.runs ++ [⟨processed.counters, processed.error, true⟩] },
        some ⟨processed.counters, 0, processed.error⟩)

end Justup.Geo.Facilities
