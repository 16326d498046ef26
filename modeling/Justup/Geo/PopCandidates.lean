import Justup.Geo.Location
import Justup.Lib.Table

/-!
# Learning PoP locations

Observations of routes make candidates for new aliases, a review turns a
candidate into a productive location row and back, and imports write location
rows of their own.  The text functions of the standard library, the reading of
an address, the hash and the distance of two points are parameters.
-/

namespace Justup.Geo.Pop

open Justup.Lib Store

/-! ## The tables -/

inductive ProposalSource where
  | geolite2Coarse
  | geolite2CityCuratedCode
  deriving DecidableEq, Repr

inductive Status where
  | pending
  | conflict
  | approved
  | revoked
  | rejected
  deriving DecidableEq, Repr

inductive Action where
  | approve
  | reject
  | revoke
  deriving DecidableEq, Repr

/-- A row of `pop_alias_candidates`. -/
structure Candidate where
  id : ℕ
  aliasCode : Text
  canonicalGuess : Option Text
  cityGuess : Option Text
  countryGuess : Option Text
  seenCount : ℕ
  lastSeen : ℤ
  reviewed : Bool
  createdAt : ℤ
  hostname : Text
  publicIp : Text
  parserContext : Text
  proposalSource : Option ProposalSource
  proposalLat : Option ℚ
  proposalLon : Option ℚ
  independentCount : ℕ := 0
  conflictCount : ℕ := 0
  qualityScore : ℕ := 0
  status : Status := .pending
  reviewedAt : Option ℤ := none
  reviewedBy : Option Text := none
  reviewEvidence : Option Text := none
  approvedLocationId : Option ℕ := none
  deriving DecidableEq, Repr

/-- A row of `pop_candidate_observations`. -/
structure Observation where
  candidateId : ℕ
  measurementKey : Text
  contextKey : Text
  observedAt : ℤ
  deriving DecidableEq, Repr

/-- A row of `pop_candidate_reviews`. -/
structure Review where
  candidateId : ℕ
  action : Action
  actor : Text
  evidence : Text
  reviewedAt : ℤ
  locationId : Option ℕ
  deriving DecidableEq, Repr

/-- A row of `pop_locations`. -/
structure LocationRow where
  id : ℕ
  canonicalCode : Text
  aliasCode : Text
  city : Text
  country : Text
  lat : ℚ
  lon : ℚ
  source : Text
  confidence : ℕ
  priority : ℕ
  createdAt : ℤ
  updatedAt : ℤ
  lastSeenAt : Option ℤ := none
  importRunId : Option Text := none
  retired : Bool := false
  deriving DecidableEq, Repr

/-- The tables, and the next ids that `AUTOINCREMENT` gives out. -/
structure Db where
  candidates : List Candidate
  nextCandidate : ℕ
  observations : List Observation
  reviews : List Review
  locations : List LocationRow
  nextLocation : ℕ
  deriving DecidableEq, Repr

/-- An address as far as `observe` looks at it: its text, `is_global` and the text of
its `/24` or `/48` network. -/
structure Address where
  text : Text
  isGlobal : Bool
  network : Text

structure Tools where
  lower : Text → Text
  upper : Text → Text
  title : Text → Text
  isPrintable : Text → Bool
  sha256 : Text → Text
  ipAddress : Text → Option Address
  /-- `_facility_distance_km`. -/
  distanceKm : ℚ × ℚ → ℚ × ℚ → ℚ

def maxCandidates : ℕ := 5000

def maxObservationsPerCandidate : ℕ := 20

def learned : Text := "learned".toList

/-- `_PROTECTED_SOURCES`. -/
def protectedSources : List Text := ["manual".toList, "seed".toList]

/-! ## Formats -/

/-- `_CODE`. -/
def isCode : Text → Bool
  | [] => false
  | c :: rest => c.isLower && decide (1 ≤ rest.length) && decide (rest.length ≤ 4) &&
      rest.all fun c => c.isLower || c.isDigit

/-- A text of so many characters of a kind. -/
def isRun (least most : ℕ) (kind : Char → Bool) (text : Text) : Bool :=
  decide (least ≤ text.length) && decide (text.length ≤ most) && text.all kind

/-- `_HOST`. -/
def isHost : Text → Bool :=
  isRun 1 253 fun c => c.isLower || c.isDigit || c == '.' || c == '-'

def isProvider : Text → Bool :=
  isRun 1 40 fun c => c.isLower || c.isDigit || c == '_' || c == '-'

def isMeasurementKey : Text → Bool :=
  isRun 64 64 fun c => c.isDigit || (decide ('a' ≤ c) && decide (c ≤ 'f'))

def isCountry : Text → Bool := isRun 2 2 Char.isUpper

/-- Two numbers that are coordinates. -/
def coordinates : Option Value → Option Value → Option (ℚ × ℚ)
  | some (.number lat), some (.number lon) =>
      if -90 ≤ lat ∧ lat ≤ 90 ∧ -180 ≤ lon ∧ lon ≤ 180 then some (lat, lon) else none
  | _, _ => none

section Model

variable (tools : Tools)

/-! ## `observe` -/

/-- The dict of a proposal; a missing key is `none`. -/
structure Proposal where
  country : Option Text := none
  city : Option Text := none
  lat : Option Value := none
  lon : Option Value := none
  canonicalGuess : Option Text := none

structure ObserveInput where
  code : Text
  hostname : Text
  publicIp : Text
  provider : Text
  measurementKey : Text
  proposal : Proposal

/-- What `observe` has read before it opens its transaction. -/
structure Observed where
  code : Text
  hostname : Text
  address : Address
  provider : Text
  measurementKey : Text
  contextKey : Text
  country : Text
  city : Text
  position : Option (ℚ × ℚ)
  source : Option ProposalSource
  canonicalGuess : Option Text

/-- The checks of `observe`. -/
def readObservation (input : ObserveInput) : Option Observed :=
  let code := tools.lower (strip input.code)
  let hostname := (tools.lower (strip input.hostname)).rdropWhile (· = '.')
  if !(isCode code && isHost hostname && isProvider input.provider) then none
  else
    match tools.ipAddress input.publicIp with
    | none => none
    | some address =>
        if !(address.isGlobal && isMeasurementKey input.measurementKey) then none
        else
          let country := (tools.upper (input.proposal.country.getD [])).take 5
          let city := (strip (input.proposal.city.getD [])).take 64
          let country := if isCountry country then country else []
          let city := if tools.isPrintable city then city else []
          let position := coordinates input.proposal.lat input.proposal.lon
          let located := decide (city ≠ []) && decide (country ≠ []) && position.isSome
          let guess := if located then input.proposal.canonicalGuess.filter isCode else none
          some
            { code := code
              hostname := hostname
              address := address
              provider := input.provider
              measurementKey := input.measurementKey
              contextKey := tools.sha256 address.network
              country := country
              city := city
              position := position
              source := if guess.isSome then some .geolite2CityCuratedCode
                else if located then some .geolite2Coarse else none
              canonicalGuess := guess }

/-- A text that is not empty. -/
def nonempty (text : Text) : Option Text := if text = [] then none else some text

/-- The row that `observe` inserts. -/
def Observed.candidate (observed : Observed) (id : ℕ) (now : ℤ) : Candidate where
  id := id
  aliasCode := observed.code
  canonicalGuess := observed.canonicalGuess
  cityGuess := nonempty observed.city
  countryGuess := nonempty observed.country
  seenCount := 0
  lastSeen := now
  reviewed := false
  createdAt := now
  hostname := observed.hostname
  publicIp := observed.address.text
  parserContext := observed.provider
  proposalSource := observed.source
  proposalLat := observed.position.map Prod.fst
  proposalLon := observed.position.map Prod.snd

/-- The conflict of an observation with what the candidate says. -/
def conflictWith (observed : Observed) (candidate : Candidate) : ℕ :=
  let country := decide (observed.country ≠ []) &&
    candidate.countryGuess.any fun prior => decide (prior ≠ []) && decide (observed.country ≠ prior)
  let position := match observed.position, candidate.proposalLat, candidate.proposalLon with
    | some position, some lat, some lon => decide (250 < tools.distanceKm position (lat, lon))
    | _, _, _ => false
  if country || position then 1 else 0

/-- The observations of a candidate. -/
def Db.observationsOf (id : ℕ) (db : Db) : List Observation :=
  db.observations.filter fun observation => observation.candidateId = id

/-- `COUNT(DISTINCT context_key)`. -/
def Db.independent (id : ℕ) (db : Db) : ℕ :=
  ((db.observationsOf id).map Observation.contextKey).dedup.length

/-- The `UPDATE` of `observe`. -/
def Candidate.observed (candidate : Candidate) (observed : Observed) (now : ℤ)
    (independent conflicts quality : ℕ) : Candidate :=
  { candidate with
    seenCount := candidate.seenCount + 1
    lastSeen := now
    hostname := observed.hostname
    publicIp := observed.address.text
    parserContext := observed.provider
    independentCount := independent
    conflictCount := conflicts
    qualityScore := quality
    canonicalGuess := candidate.canonicalGuess.or observed.canonicalGuess
    cityGuess := candidate.cityGuess.or (nonempty observed.city)
    countryGuess := candidate.countryGuess.or (nonempty observed.country)
    proposalSource := candidate.proposalSource.or observed.source
    proposalLat := candidate.proposalLat.or (observed.position.map Prod.fst)
    proposalLon := candidate.proposalLon.or (observed.position.map Prod.snd)
    status := if 0 < conflicts ∧ candidate.status = .pending then .conflict else candidate.status }

/-- `observe` from the count of the observations on. -/
def Db.record (observed : Observed) (now : ℤ) (candidate : Candidate) (conflict : ℕ)
    (priorSource : Option ProposalSource) (db : Db) : Bool × Db :=
  if maxObservationsPerCandidate ≤ (db.observationsOf candidate.id).length then (false, db)
  else if (db.observationsOf candidate.id).any fun observation =>
      decide (observation.measurementKey = observed.measurementKey) then (false, db)
  else
    let db : Db := { db with
      observations := db.observations ++
        [⟨candidate.id, observed.measurementKey, observed.contextKey, now⟩] }
    let independent := db.independent candidate.id
    let conflicts := candidate.conflictCount + conflict
    let quality := if 2 ≤ independent ∧ conflicts = 0 then 70 else 40
    let quality := if observed.source = none ∧ priorSource = none then 0 else quality
    (true, { db with
      candidates := Table.update Candidate.id candidate.id
        (fun row => row.observed observed now independent conflicts quality) db.candidates })

def Db.candidate? (code : Text) (db : Db) : Option Candidate :=
  Table.row? Candidate.aliasCode code db.candidates

/-- `observe` in its transaction. -/
def Db.observeRead (observed : Observed) (now : ℤ) (db : Db) : Bool × Db :=
  match db.candidate? observed.code with
  | some candidate => db.record observed now candidate (conflictWith tools observed candidate)
      candidate.proposalSource
  | none =>
      if maxCandidates ≤ db.candidates.length then (false, db)
      else
        let candidate := observed.candidate db.nextCandidate now
        Db.record observed now candidate 0 none { db with
          candidates := db.candidates ++ [candidate]
          nextCandidate := db.nextCandidate + 1 }

def observe (input : ObserveInput) (now : ℤ) (db : Db) : Bool × Db :=
  match readObservation tools input with
  | none => (false, db)
  | some observed => db.observeRead tools observed now

/-! ## `review` -/

structure ReviewInput where
  code : Text
  action : Action
  actor : Text
  evidence : Text
  canonical : Option Text := none
  city : Option Text := none
  country : Option Text := none
  lat : Option Value := none
  lon : Option Value := none

/-- The location that a review approves. -/
structure Approval where
  chosenCode : Text
  city : Text
  country : Text
  lat : ℚ
  lon : ℚ

/-- The checks of an approval. -/
def approval (input : ReviewInput) (code : Text) (candidate : Candidate) (db : Db) :
    Except String Approval :=
  if candidate.status ≠ .pending ∨ candidate.independentCount < 2 ∨ candidate.conflictCount ≠ 0 ∨
      candidate.qualityScore < 70 then
    .error "Candidate needs two independent, non-conflicting observations"
  else if input.city.getD [] = [] ∨ input.country.getD [] = [] ∨ input.lat = none ∨
      input.lon = none then
    .error "Reviewed city, country and coordinates are required"
  else
    let city := strip (input.city.getD [])
    let country := tools.upper (strip (input.country.getD []))
    match coordinates input.lat input.lon with
    | none => .error "Reviewed location conflicts with the observed country or coordinates"
    | some (lat, lon) =>
        if some country ≠ candidate.countryGuess ∨ isCountry country = false ∨
            isRun 1 64 (fun _ => true) city = false ∨ tools.isPrintable city = false then
          .error "Reviewed location conflicts with the observed country or coordinates"
        else if (match candidate.proposalLat, candidate.proposalLon with
            | some lat', some lon' => decide (250 < tools.distanceKm (lat, lon) (lat', lon'))
            | _, _ => false) then
          .error "Reviewed coordinates conflict with the observed location"
        else if db.locations.any fun row => decide (row.aliasCode = code) && !row.retired then
          .error "An active location already owns this alias"
        else
          let chosen := match input.canonical with
            | none => code
            | some canonical => if canonical = [] then code else canonical
          let chosen := tools.lower (strip chosen)
          if isCode chosen = false then .error "Reviewed canonical code is invalid"
          else if chosen = code then .ok ⟨chosen, city, country, lat, lon⟩
          else if some chosen ≠ candidate.canonicalGuess then
            .error "Reviewed canonical code must match the documented proposal"
          else
            let anchors := db.locations.filter fun row =>
              decide (row.canonicalCode = chosen) && decide (row.country = country) &&
                decide (row.source ∈ protectedSources) && !row.retired
            if anchors = [] ∨ anchors.any fun row =>
                decide (50 < tools.distanceKm (lat, lon) (row.lat, row.lon)) then
              .error "Reviewed canonical location lacks a nearby curated anchor"
            else .ok ⟨chosen, city, country, lat, lon⟩

/-- The row of an approved candidate. -/
def Approval.row (approval : Approval) (id : ℕ) (code : Text) (now : ℤ) : LocationRow where
  id := id
  canonicalCode := approval.chosenCode
  aliasCode := code
  city := approval.city
  country := approval.country
  lat := approval.lat
  lon := approval.lon
  source := learned
  confidence := 70
  priority := 10
  createdAt := now
  updatedAt := now

/-- Whether a row has the unique codes of another one. -/
def LocationRow.hasCodes (canonicalCode aliasCode : Text) (row : LocationRow) : Bool :=
  decide (row.aliasCode = aliasCode) && decide (row.canonicalCode = canonicalCode)

/-- The last two statements of `review`. -/
def Db.reviewed (input : ReviewInput) (now : ℤ) (candidate : Candidate) (status : Status)
    (locationId : Option ℕ) (db : Db) : Db :=
  { db with
    candidates := Table.update Candidate.id candidate.id (fun row => { row with
      status := status
      reviewed := true
      reviewedAt := some now
      reviewedBy := some (strip input.actor)
      reviewEvidence := some (strip input.evidence)
      approvedLocationId := locationId }) db.candidates
    reviews := db.reviews ++
      [⟨candidate.id, input.action, strip input.actor, strip input.evidence, now, locationId⟩] }

def Db.approve (input : ReviewInput) (now : ℤ) (code : Text) (candidate : Candidate) (db : Db) :
    Except String Db := do
  let approval ← approval tools input code candidate db
  if db.locations.any (LocationRow.hasCodes approval.chosenCode code) then
    .error "UNIQUE constraint failed: pop_locations.alias_code, pop_locations.canonical_code"
  else .ok (Db.reviewed input now candidate .approved (some db.nextLocation) { db with
    locations := db.locations ++ [approval.row db.nextLocation code now]
    nextLocation := db.nextLocation + 1 })

/-- The row that a revocation of a location retires. -/
def LocationRow.revocable (id : ℕ) (row : LocationRow) : Bool :=
  decide (row.id = id) && decide (row.source = learned) && !row.retired

def Db.revoke (input : ReviewInput) (now : ℤ) (candidate : Candidate) (db : Db) :
    Except String Db :=
  match decide (candidate.status = .approved), candidate.approvedLocationId with
  | true, some id =>
      if (db.locations.filter (LocationRow.revocable id)).length ≠ 1 then
        .error "Approved location was changed; no revocation performed"
      else .ok (Db.reviewed input now candidate .revoked (some id) { db with
        locations := db.locations.map fun row =>
          if row.revocable id then { row with retired := true, updatedAt := now } else row })
  | _, _ => .error "Only an approved candidate can be revoked"

def Db.reject (input : ReviewInput) (now : ℤ) (candidate : Candidate) (db : Db) :
    Except String Db :=
  if candidate.status ≠ .pending ∧ candidate.status ≠ .conflict then
    .error "Only unresolved candidates can be rejected"
  else .ok (db.reviewed input now candidate .rejected candidate.approvedLocationId)

/-- The checks of `review` on its own arguments. -/
def ReviewInput.valid (input : ReviewInput) : Bool :=
  isCode (tools.lower (strip input.code)) && isRun 1 80 (fun _ => true) (strip input.actor) &&
    isRun 1 500 (fun _ => true) (strip input.evidence) && tools.isPrintable (strip input.actor) &&
      tools.isPrintable (strip input.evidence)

def review (input : ReviewInput) (now : ℤ) (db : Db) : Except String Db :=
  let code := tools.lower (strip input.code)
  if !input.valid tools then .error "Valid code, actor and review evidence are required"
  else
    match db.candidate? code with
    | none => .error "Candidate not found"
    | some candidate =>
        match input.action with
        | .approve => db.approve tools input now code candidate
        | .revoke => db.revoke input now candidate
        | .reject => db.reject input now candidate

/-! ## `upsert_pop_location` -/

structure UpsertInput where
  canonicalCode : Text
  aliasCode : Text
  city : Text
  country : Text
  lat : ℚ
  lon : ℚ
  source : Text
  confidence : ℤ
  priority : ℤ
  importRunId : Option Text := none

/-- The row as it is to be inserted. -/
def UpsertInput.row (input : UpsertInput) (id : ℕ) (now : ℤ) : LocationRow where
  id := id
  canonicalCode := strip (tools.lower input.canonicalCode)
  aliasCode := strip (tools.lower input.aliasCode)
  city := if input.city = [] then [] else tools.title (strip input.city)
  country := if input.country = [] then [] else tools.upper (strip input.country)
  lat := max (-90) (min 90 input.lat)
  lon := max (-180) (min 180 input.lon)
  source := input.source
  confidence := (max 0 (min 100 input.confidence)).toNat
  priority := (max 0 input.priority).toNat
  createdAt := now
  updatedAt := now
  lastSeenAt := some now
  importRunId := input.importRunId

/-- The length checks of the table. -/
def LocationRow.fits (row : LocationRow) : Bool :=
  decide (row.canonicalCode.length ≤ 8) && decide (row.aliasCode.length ≤ 8) &&
    decide (row.city.length ≤ 64) && decide (row.country.length ≤ 5)

/-- What the upsert takes over from the excluded row. -/
def LocationRow.overwritten (row excluded : LocationRow) : LocationRow :=
  { excluded with
    id := row.id, canonicalCode := row.canonicalCode, aliasCode := row.aliasCode,
    createdAt := row.createdAt }

def upsertPopLocation (input : UpsertInput) (now : ℤ) (db : Db) : Bool × Db :=
  let row := input.row tools db.nextLocation now
  match db.locations.find? (LocationRow.hasCodes row.canonicalCode row.aliasCode) with
  | some existing =>
      if existing.source ∈ protectedSources then
        if input.importRunId.getD [] = [] then (false, db)
        else (false, { db with
          locations := db.locations.map fun old =>
            if old.hasCodes row.canonicalCode row.aliasCode then
              { old with lastSeenAt := some now, importRunId := input.importRunId }
            else old })
      else if row.fits then
        (true, { db with
          locations := db.locations.map fun old =>
            if old.hasCodes row.canonicalCode row.aliasCode then old.overwritten row else old })
      else (false, db)
  | none =>
      if row.fits then
        (true, { db with
          locations := db.locations ++ [row]
          nextLocation := db.nextLocation + 1 })
      else (false, db)

/-! ## Runs -/

inductive Act where
  | observe (input : ObserveInput) (now : ℤ)
  | review (input : ReviewInput) (now : ℤ)
  | upsert (input : UpsertInput) (now : ℤ)

/-- One call; a call that raises leaves the tables as they are. -/
def step (db : Db) : Act → Option Db
  | .observe input now => some (observe tools input now db).2
  | .review input now => some (match review tools input now db with
      | .error _ => db
      | .ok next => next)
  | .upsert input now => some (upsertPopLocation tools input now db).2

end Model

end Justup.Geo.Pop
