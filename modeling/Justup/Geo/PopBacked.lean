import Justup.Geo.PopCandidates
import Justup.Lib.Transition

/-!
# Learned locations are backed by a review

What the calls do to the tables, and what every sequence of calls keeps.  An
approved candidate owns a learned row as long as no import takes the row over.
-/

namespace Justup.Geo.Pop

open Justup.Lib Store

variable {tools : Tools} {db next : Db}

/-! ## What a call can do -/

/-- The key of an observation is the one of a public address. -/
def IsContext (tools : Tools) (contextKey : Text) : Prop :=
  ∃ text address, tools.ipAddress text = some address ∧ address.isGlobal = true ∧
    contextKey = tools.sha256 address.network

/-- The rows after an observation was recorded. -/
def Db.recorded (observed : Observed) (now : ℤ) (id conflicts quality : ℕ) (db : Db) : Db :=
  let observations := db.observations ++
    [⟨id, observed.measurementKey, observed.contextKey, now⟩]
  { db with
    observations := observations
    candidates := Table.update Candidate.id id
      (fun row => row.observed observed now
        (Db.independent id { db with observations := observations }) conflicts quality)
      db.candidates }

/-- What `observe` and `review` do to the tables. -/
inductive Change (tools : Tools) (db : Db) : Db → Prop where
  | same : Change tools db db
  | started (observed : Observed) (now : ℤ) (hnew : db.candidate? observed.code = none)
      (hroom : db.candidates.length < maxCandidates) :
      Change tools db { db with
        candidates := db.candidates ++ [observed.candidate db.nextCandidate now]
        nextCandidate := db.nextCandidate + 1 }
  | recorded (observed : Observed) (now : ℤ) {candidate : Candidate}
      (hcandidate : candidate ∈ db.candidates)
      (hcount : (db.observationsOf candidate.id).length < maxObservationsPerCandidate)
      (hcontext : IsContext tools observed.contextKey) (conflicts quality : ℕ) :
      Change tools db (db.recorded observed now candidate.id conflicts quality)
  | approved (input : ReviewInput) (now : ℤ) {candidate : Candidate} {approval : Approval}
      (hcandidate : candidate ∈ db.candidates) (htwo : 2 ≤ candidate.independentCount)
      (hfresh : ∀ row ∈ db.locations,
        row.hasCodes approval.chosenCode candidate.aliasCode = false) :
      Change tools db (Db.reviewed input now candidate .approved (some db.nextLocation) { db with
        locations := db.locations ++ [approval.row db.nextLocation candidate.aliasCode now]
        nextLocation := db.nextLocation + 1 })
  | revoked (input : ReviewInput) (now : ℤ) {candidate : Candidate} {id : ℕ}
      (hcandidate : candidate ∈ db.candidates) (happroved : candidate.status = .approved)
      (hid : candidate.approvedLocationId = some id) :
      Change tools db (Db.reviewed input now candidate .revoked (some id) { db with
        locations := db.locations.map fun row =>
          if row.revocable id then { row with retired := true, updatedAt := now } else row })
  | rejected (input : ReviewInput) (now : ℤ) {candidate : Candidate}
      (hcandidate : candidate ∈ db.candidates) :
      Change tools db (db.reviewed input now candidate .rejected candidate.approvedLocationId)

theorem mem_of_candidate? {code : Text} {candidate : Candidate}
    (hfound : db.candidate? code = some candidate) :
    candidate ∈ db.candidates ∧ candidate.aliasCode = code :=
  Table.mem_of_row? hfound

theorem record_change {observed : Observed} {now : ℤ} {candidate : Candidate} {conflict : ℕ}
    {priorSource : Option ProposalSource} (hcandidate : candidate ∈ db.candidates)
    (hcontext : IsContext tools observed.contextKey) :
    Change tools db (db.record observed now candidate conflict priorSource).2 := by
  unfold Db.record
  by_cases hfull : maxObservationsPerCandidate ≤ (db.observationsOf candidate.id).length
  · rw [if_pos hfull]
    exact .same
  rw [if_neg hfull]
  split
  · exact .same
  · exact .recorded observed now hcandidate (not_le.mp hfull) hcontext _ _

theorem isContext_of_readObservation {input : ObserveInput} {observed : Observed}
    (hread : readObservation tools input = some observed) :
    IsContext tools observed.contextKey := by
  simp only [readObservation] at hread
  split at hread
  · simp at hread
  · split at hread
    · simp at hread
    · rename_i address haddress
      split at hread
      · simp at hread
      · rename_i hglobal
        obtain rfl := Option.some.inj hread
        exact ⟨_, address, haddress, by simp_all, rfl⟩

/-- `observe` starts a candidate, records an observation, or does both. -/
theorem observe_changes (tools : Tools) (input : ObserveInput) (now : ℤ) (db : Db) :
    ∃ middle, Change tools db middle ∧ Change tools middle (observe tools input now db).2 := by
  unfold observe
  cases hread : readObservation tools input with
  | none => exact ⟨db, .same, .same⟩
  | some observed =>
      have hcontext := isContext_of_readObservation hread
      dsimp only [Db.observeRead]
      cases hfound : db.candidate? observed.code with
      | some candidate =>
          exact ⟨db, .same, record_change (mem_of_candidate? hfound).1 hcontext⟩
      | none =>
          dsimp only
          split_ifs with hfull
          · exact ⟨db, .same, .same⟩
          · exact ⟨_, .started observed now hfound (not_le.mp hfull),
              record_change (List.mem_append_right _ (List.mem_singleton.mpr rfl)) hcontext⟩

/-- A candidate is approved on independent observations without a conflict. -/
theorem approval_ok {input : ReviewInput} {code : Text} {candidate : Candidate}
    {found : Approval} (happroval : approval tools input code candidate db = .ok found) :
    candidate.status = .pending ∧ 2 ≤ candidate.independentCount ∧
      candidate.conflictCount = 0 := by
  unfold approval at happroval
  split at happroval
  · cases happroval
  · rename_i hguard
    simp only [not_or, not_not, not_lt] at hguard
    exact ⟨hguard.1, hguard.2.1, hguard.2.2.1⟩

theorem approve_change {input : ReviewInput} {now : ℤ} {code : Text} {candidate : Candidate}
    (hcandidate : candidate ∈ db.candidates) (hcode : candidate.aliasCode = code)
    (happrove : db.approve tools input now code candidate = .ok next) :
    Change tools db next := by
  subst hcode
  unfold Db.approve at happrove
  cases hfound : approval tools input candidate.aliasCode candidate db with
  | error reason => simp [hfound, Bind.bind, Except.bind] at happrove
  | ok found =>
      simp only [hfound, Bind.bind, Except.bind] at happrove
      split_ifs at happrove with hcodes
      obtain rfl := Except.ok.inj happrove
      refine .approved input now hcandidate (approval_ok hfound).2.1 fun row hrow => ?_
      by_contra hhas
      exact hcodes (List.any_eq_true.mpr ⟨row, hrow, Bool.not_eq_false _ ▸ hhas⟩)

theorem revoke_change {input : ReviewInput} {now : ℤ} {candidate : Candidate}
    (hcandidate : candidate ∈ db.candidates)
    (hrevoke : db.revoke input now candidate = .ok next) : Change tools db next := by
  unfold Db.revoke at hrevoke
  split at hrevoke
  · rename_i id happroved hid
    split_ifs at hrevoke
    obtain rfl := Except.ok.inj hrevoke
    exact .revoked input now hcandidate (of_decide_eq_true happroved) hid
  · cases hrevoke

theorem reject_change {input : ReviewInput} {now : ℤ} {candidate : Candidate}
    (hcandidate : candidate ∈ db.candidates)
    (hreject : db.reject input now candidate = .ok next) : Change tools db next := by
  unfold Db.reject at hreject
  split_ifs at hreject
  obtain rfl := Except.ok.inj hreject
  exact .rejected input now hcandidate

theorem review_change {input : ReviewInput} {now : ℤ}
    (hreview : review tools input now db = .ok next) : Change tools db next := by
  simp only [review] at hreview
  split_ifs at hreview
  split at hreview
  · cases hreview
  · rename_i candidate hfound
    obtain ⟨hcandidate, hcode⟩ := mem_of_candidate? hfound
    split at hreview
    · exact approve_change hcandidate hcode hreview
    · exact revoke_change hcandidate hreview
    · exact reject_change hcandidate hreview

/-- What an import does to the locations. -/
inductive Upserted (db : Db) (row : LocationRow) : Db → Prop where
  | same : Upserted db row db
  | touched (now : ℤ) (importRunId : Option Text) : Upserted db row { db with
      locations := db.locations.map fun old =>
        if old.hasCodes row.canonicalCode row.aliasCode then
          { old with lastSeenAt := some now, importRunId := importRunId }
        else old }
  | overwritten {existing : LocationRow} (hexisting : existing ∈ db.locations)
      (hcodes : existing.hasCodes row.canonicalCode row.aliasCode = true)
      (hopen : existing.source ∉ protectedSources) (hfits : row.fits = true) :
      Upserted db row { db with
        locations := db.locations.map fun old =>
          if old.hasCodes row.canonicalCode row.aliasCode then old.overwritten row else old }
  | inserted (hfresh : ∀ old ∈ db.locations, old.hasCodes row.canonicalCode row.aliasCode = false) :
      Upserted db row { db with
        locations := db.locations ++ [row]
        nextLocation := db.nextLocation + 1 }

theorem upsert_upserted (tools : Tools) (input : UpsertInput) (now : ℤ) (db : Db) :
    Upserted db (input.row tools db.nextLocation now)
      (upsertPopLocation tools input now db).2 := by
  simp only [upsertPopLocation]
  split
  · rename_i existing hfound
    have hexisting := List.mem_of_find?_eq_some hfound
    have hcodes := List.find?_some hfound
    split_ifs with hprotected hrun hfits
    · exact .same
    · exact .touched now input.importRunId
    · exact .overwritten hexisting hcodes hprotected hfits
    · exact .same
  · rename_i hnone
    have hfresh := List.find?_eq_none.mp hnone
    split_ifs
    · exact .inserted fun old hold => Bool.eq_false_iff.mpr (hfresh old hold)
    · exact .same

/-! ## The tables are sound -/

/-- What every call keeps of the tables. -/
structure Sound (tools : Tools) (db : Db) : Prop where
  ids : Table.Keyed Candidate.id db.candidates
  codes : Table.Keyed Candidate.aliasCode db.candidates
  issued : ∀ candidate ∈ db.candidates, candidate.id < db.nextCandidate
  observed : ∀ observation ∈ db.observations, observation.candidateId < db.nextCandidate
  contexts : ∀ observation ∈ db.observations, IsContext tools observation.contextKey
  room : db.candidates.length ≤ maxCandidates
  limit : ∀ candidate ∈ db.candidates,
    (db.observationsOf candidate.id).length ≤ maxObservationsPerCandidate
  independent : ∀ candidate ∈ db.candidates,
    candidate.independentCount = db.independent candidate.id
  backed : ∀ candidate ∈ db.candidates, candidate.status = .approved →
    2 ≤ candidate.independentCount
  locationIds : Table.Keyed LocationRow.id db.locations
  locationCodes : Table.Keyed (fun row => (row.canonicalCode, row.aliasCode)) db.locations
  locationIssued : ∀ row ∈ db.locations, row.id < db.nextLocation

/-- A database without candidates. -/
structure Fresh (db : Db) : Prop where
  candidates : db.candidates = []
  observations : db.observations = []
  locationIds : Table.Keyed LocationRow.id db.locations
  locationCodes : Table.Keyed (fun row => (row.canonicalCode, row.aliasCode)) db.locations
  locationIssued : ∀ row ∈ db.locations, row.id < db.nextLocation

theorem Fresh.sound (hfresh : Fresh db) : Sound tools db where
  ids := by simp [hfresh.candidates, Table.keyed_nil]
  codes := by simp [hfresh.candidates, Table.keyed_nil]
  issued := by simp [hfresh.candidates]
  observed := by simp [hfresh.observations]
  contexts := by simp [hfresh.observations]
  room := by simp [hfresh.candidates]
  limit := by simp [hfresh.candidates]
  independent := by simp [hfresh.candidates]
  backed := by simp [hfresh.candidates]
  locationIds := hfresh.locationIds
  locationCodes := hfresh.locationCodes
  locationIssued := hfresh.locationIssued

/-- The candidate after a change of its review. -/
structure SameCandidate (old new : Candidate) : Prop where
  id : new.id = old.id
  aliasCode : new.aliasCode = old.aliasCode
  independentCount : new.independentCount = old.independentCount

/-- A review changes no more of the candidates than their review. -/
theorem mem_reviewed {input : ReviewInput} {now : ℤ} {candidate new : Candidate} {status : Status}
    {locationId : Option ℕ} (hnew : new ∈ (db.reviewed input now candidate status
      locationId).candidates) :
    ∃ old ∈ db.candidates, SameCandidate old new ∧
      (old.id ≠ candidate.id ∧ new = old ∨ old.id = candidate.id ∧ new.status = status ∧
        new.approvedLocationId = locationId) := by
  obtain ⟨old, hold, rfl⟩ := Table.mem_update.mp hnew
  refine ⟨old, hold, ?_, ?_⟩
  · split_ifs
    · exact ⟨rfl, rfl, rfl⟩
    · exact ⟨rfl, rfl, rfl⟩
  · split_ifs with hid
    · exact Or.inr ⟨hid, rfl, rfl⟩
    · exact Or.inl ⟨hid, rfl⟩

/-- A review keeps what is said of the candidates. -/
theorem Sound.reviewed (hsound : Sound tools db) (input : ReviewInput) (now : ℤ)
    {candidate : Candidate} (status : Status) (locationId : Option ℕ)
    (hbacked : status = .approved → ∀ old ∈ db.candidates, old.id = candidate.id →
      2 ≤ old.independentCount) {locations : List LocationRow} {nextLocation : ℕ}
    (hids : Table.Keyed LocationRow.id locations)
    (hcodes : Table.Keyed (fun row => (row.canonicalCode, row.aliasCode)) locations)
    (hissued : ∀ row ∈ locations, row.id < nextLocation) :
    Sound tools (Db.reviewed input now candidate status locationId
      { db with locations := locations, nextLocation := nextLocation }) where
  ids := hsound.ids.map fun row => by split <;> rfl
  codes := hsound.codes.map fun row => by split <;> rfl
  issued := by
    intro new hnew
    obtain ⟨old, hold, hsame, -⟩ := mem_reviewed hnew
    exact hsame.id ▸ hsound.issued old hold
  observed := hsound.observed
  contexts := hsound.contexts
  room := by
    have hlength := hsound.room
    simpa [Db.reviewed, Table.update] using hlength
  limit := by
    intro new hnew
    obtain ⟨old, hold, hsame, -⟩ := mem_reviewed hnew
    exact hsame.id ▸ hsound.limit old hold
  independent := by
    intro new hnew
    obtain ⟨old, hold, hsame, -⟩ := mem_reviewed hnew
    rw [hsame.independentCount, hsame.id]
    exact hsound.independent old hold
  backed := by
    intro new hnew happroved
    obtain ⟨old, hold, hsame, ⟨-, rfl⟩ | ⟨hid, hstatus, -⟩⟩ := mem_reviewed hnew
    · exact hsound.backed new hold happroved
    · rw [hsame.independentCount]
      exact hbacked (hstatus.symm.trans happroved) old hold hid
  locationIds := hids
  locationCodes := hcodes
  locationIssued := hissued

theorem observationsOf_snoc (observation : Observation) (id : ℕ) (db : Db) :
    Db.observationsOf id { db with observations := db.observations ++ [observation] } =
      db.observationsOf id ++ if observation.candidateId = id then [observation] else [] := by
  unfold Db.observationsOf
  rw [List.filter_append]
  by_cases hid : observation.candidateId = id <;> simp [hid]

theorem observationsOf_recorded (observed : Observed) (now : ℤ) (id conflicts quality other : ℕ) :
    (db.recorded observed now id conflicts quality).observationsOf other =
      db.observationsOf other ++ if id = other then
        [⟨id, observed.measurementKey, observed.contextKey, now⟩] else [] :=
  observationsOf_snoc ⟨id, observed.measurementKey, observed.contextKey, now⟩ other db

theorem independent_le_of_append {id : ℕ} {later : Db} {more : List Observation}
    (hmore : later.observationsOf id = db.observationsOf id ++ more) :
    db.independent id ≤ later.independent id := by
  rw [Db.independent, Db.independent, hmore, ← List.card_toFinset, ← List.card_toFinset]
  refine Finset.card_le_card fun contextKey hkey => ?_
  rw [List.mem_toFinset] at hkey ⊢
  rw [List.map_append]
  exact List.mem_append_left _ hkey

/-- The candidates after an observation was recorded. -/
theorem mem_recorded {observed : Observed} {now : ℤ} {id conflicts quality : ℕ} {new : Candidate}
    (hnew : new ∈ (db.recorded observed now id conflicts quality).candidates) :
    ∃ old ∈ db.candidates, new.id = old.id ∧ new.aliasCode = old.aliasCode ∧
      new.approvedLocationId = old.approvedLocationId ∧
      (new.status = .approved ↔ old.status = .approved) ∧
      new.independentCount = if old.id = id then
        (db.recorded observed now id conflicts quality).independent id
        else old.independentCount := by
  obtain ⟨old, hold, rfl⟩ := Table.mem_update.mp hnew
  refine ⟨old, hold, ?_⟩
  split_ifs
  · refine ⟨rfl, rfl, rfl, ?_, rfl⟩
    simp only [Candidate.observed]
    split_ifs with hconflict
    · simp [hconflict.2]
    · exact Iff.rfl
  · exact ⟨rfl, rfl, rfl, Iff.rfl, rfl⟩

theorem Sound.recorded (hsound : Sound tools db) {observed : Observed} (now : ℤ)
    {candidate : Candidate} (hcandidate : candidate ∈ db.candidates)
    (hcount : (db.observationsOf candidate.id).length < maxObservationsPerCandidate)
    (hcontext : IsContext tools observed.contextKey) (conflicts quality : ℕ) :
    Sound tools (db.recorded observed now candidate.id conflicts quality) := by
  have hgrown : ∀ id, db.independent id ≤
      (db.recorded observed now candidate.id conflicts quality).independent id := fun id =>
    independent_le_of_append (observationsOf_recorded observed now candidate.id conflicts quality id)
  have hadded : ∀ {observation}, observation ∈
      (db.recorded observed now candidate.id conflicts quality).observations →
        observation ∈ db.observations ∨
          observation = ⟨candidate.id, observed.measurementKey, observed.contextKey, now⟩ :=
    fun hmem => (List.mem_append.mp hmem).imp id List.mem_singleton.mp
  exact
    { ids := hsound.ids.map fun row => by split <;> rfl
      codes := hsound.codes.map fun row => by split <;> rfl
      issued := by
        intro new hnew
        obtain ⟨old, hold, hid, -⟩ := mem_recorded hnew
        exact hid ▸ hsound.issued old hold
      observed := by
        intro observation hmem
        rcases hadded hmem with hold | rfl
        · exact hsound.observed observation hold
        · exact hsound.issued candidate hcandidate
      contexts := by
        intro observation hmem
        rcases hadded hmem with hold | rfl
        · exact hsound.contexts observation hold
        · exact hcontext
      room := by
        have hlength := hsound.room
        simpa [Db.recorded, Table.update] using hlength
      limit := by
        intro new hnew
        obtain ⟨old, hold, hid, -⟩ := mem_recorded hnew
        rw [hid, observationsOf_recorded]
        have hlimit := hsound.limit old hold
        split_ifs with hsame
        · rw [hsame] at hcount
          rw [List.length_append, List.length_singleton]
          exact hcount
        · simpa using hlimit
      independent := by
        intro new hnew
        obtain ⟨old, hold, hid, -, -, -, hindependent⟩ := mem_recorded hnew
        rw [hindependent, hid]
        split_ifs with hsame
        · rw [hsame]
        · rw [hsound.independent old hold, Db.independent, Db.independent, observationsOf_recorded,
            if_neg (Ne.symm hsame), List.append_nil]
      backed := by
        intro new hnew happroved
        obtain ⟨old, hold, -, -, -, hstatus, hindependent⟩ := mem_recorded hnew
        have hbacked := hsound.backed old hold (hstatus.mp happroved)
        rw [hindependent]
        split_ifs with hsame
        · rw [hsound.independent old hold, hsame] at hbacked
          exact hbacked.trans (hgrown candidate.id)
        · exact hbacked
      locationIds := hsound.locationIds
      locationCodes := hsound.locationCodes
      locationIssued := hsound.locationIssued }

theorem Sound.started (hsound : Sound tools db) {observed : Observed} (now : ℤ)
    (hnew : db.candidate? observed.code = none)
    (hroom : db.candidates.length < maxCandidates) :
    Sound tools { db with
      candidates := db.candidates ++ [observed.candidate db.nextCandidate now]
      nextCandidate := db.nextCandidate + 1 } := by
  have hadded : ∀ {candidate}, candidate ∈
      db.candidates ++ [observed.candidate db.nextCandidate now] → candidate ∈ db.candidates ∨
        candidate = observed.candidate db.nextCandidate now :=
    fun hmem => (List.mem_append.mp hmem).imp id List.mem_singleton.mp
  have hempty : db.observationsOf db.nextCandidate = [] :=
    List.filter_eq_nil_iff.mpr fun observation hmem => by
      have hless := hsound.observed observation hmem
      simpa using hless.ne
  exact
    { hsound with
      ids := hsound.ids.snoc fun row hrow => (hsound.issued row hrow).ne
      codes := hsound.codes.snoc fun row hrow => by
        have hne := List.find?_eq_none.mp hnew row hrow
        change row.aliasCode ≠ observed.code
        simpa using hne
      issued := by
        intro candidate hmem
        rcases hadded hmem with hold | rfl
        · exact (hsound.issued candidate hold).trans (Nat.lt_succ_self _)
        · exact Nat.lt_succ_self _
      observed := fun observation hmem =>
        (hsound.observed observation hmem).trans (Nat.lt_succ_self _)
      room := by simpa using hroom
      limit := by
        intro candidate hmem
        rcases hadded hmem with hold | rfl
        · exact hsound.limit candidate hold
        · change (db.observationsOf db.nextCandidate).length ≤ _
          rw [hempty]
          exact Nat.zero_le _
      independent := by
        intro candidate hmem
        rcases hadded hmem with hold | rfl
        · exact hsound.independent candidate hold
        · change 0 = db.independent db.nextCandidate
          rw [Db.independent, hempty]
          rfl
      backed := by
        intro candidate hmem happroved
        rcases hadded hmem with hold | rfl
        · exact hsound.backed candidate hold happroved
        · cases happroved }

theorem Sound.change (hsound : Sound tools db) (hchange : Change tools db next) :
    Sound tools next := by
  cases hchange with
  | same => exact hsound
  | started observed now hnew hroom => exact hsound.started now hnew hroom
  | recorded observed now hcandidate hcount hcontext conflicts quality =>
      exact hsound.recorded now hcandidate hcount hcontext conflicts quality
  | @approved input now candidate approval hcandidate htwo hfresh =>
      refine hsound.reviewed input now .approved _ (fun _ old hold hid => ?_) ?_ ?_ ?_
      · rwa [hsound.ids.eq_of_mem hold hcandidate hid]
      · exact hsound.locationIds.snoc fun row hrow => (hsound.locationIssued row hrow).ne
      · refine hsound.locationCodes.snoc fun row hrow hcodes => ?_
        obtain ⟨hcanonical, halias⟩ := Prod.mk.inj hcodes
        have hhas := hfresh row hrow
        simp [LocationRow.hasCodes, hcanonical, halias, Approval.row] at hhas
      · intro row hrow
        rcases List.mem_append.mp hrow with hold | hnew
        · exact (hsound.locationIssued row hold).trans (Nat.lt_succ_self _)
        · rw [List.mem_singleton.mp hnew]
          exact Nat.lt_succ_self _
  | @revoked input now candidate id hcandidate happroved hid =>
      refine hsound.reviewed input now .revoked _ (fun hstatus => by cases hstatus) ?_ ?_ ?_
      · exact hsound.locationIds.map fun row => by split <;> rfl
      · exact hsound.locationCodes.map fun row => by split <;> rfl
      · intro row hrow
        obtain ⟨old, hold, rfl⟩ := List.mem_map.mp hrow
        have hissued := hsound.locationIssued old hold
        split_ifs <;> exact hissued
  | rejected input now hcandidate =>
      exact hsound.reviewed input now .rejected _ (fun hstatus => by cases hstatus)
        hsound.locationIds hsound.locationCodes hsound.locationIssued

theorem Sound.upserted (hsound : Sound tools db) {row : LocationRow}
    (hid : row.id = db.nextLocation) (hupserted : Upserted db row next) : Sound tools next := by
  cases hupserted with
  | same => exact hsound
  | touched now importRunId =>
      refine { hsound with locationIds := ?_, locationCodes := ?_, locationIssued := ?_ }
      · exact hsound.locationIds.map fun old => by split <;> rfl
      · exact hsound.locationCodes.map fun old => by split <;> rfl
      · intro new hnew
        obtain ⟨old, hold, rfl⟩ := List.mem_map.mp hnew
        have hissued := hsound.locationIssued old hold
        split_ifs <;> exact hissued
  | overwritten hexisting hcodes hopen hfits =>
      refine { hsound with locationIds := ?_, locationCodes := ?_, locationIssued := ?_ }
      · exact hsound.locationIds.map fun old => by split <;> rfl
      · exact hsound.locationCodes.map fun old => by split <;> rfl
      · intro new hnew
        obtain ⟨old, hold, rfl⟩ := List.mem_map.mp hnew
        have hissued := hsound.locationIssued old hold
        split_ifs <;> exact hissued
  | inserted hfresh =>
      refine { hsound with locationIds := ?_, locationCodes := ?_, locationIssued := ?_ }
      · exact hsound.locationIds.snoc fun old hold => by
          rw [hid]
          exact (hsound.locationIssued old hold).ne
      · refine hsound.locationCodes.snoc fun old hold hcodes => ?_
        obtain ⟨hcanonical, halias⟩ := Prod.mk.inj hcodes
        have hhas := hfresh old hold
        simp [LocationRow.hasCodes, hcanonical, halias] at hhas
      · intro new hnew
        rcases List.mem_append.mp hnew with hold | hlast
        · exact (hsound.locationIssued new hold).trans (Nat.lt_succ_self _)
        · rw [List.mem_singleton.mp hlast, hid]
          exact Nat.lt_succ_self _

/-! ## Protected rows -/

/-- The row but for the times and the run of the last import. -/
def LocationRow.KeptAs (row later : LocationRow) : Prop :=
  later = { row with lastSeenAt := later.lastSeenAt, importRunId := later.importRunId }

/-- Manual and seed rows stay as they are. -/
def Protects (db later : Db) : Prop :=
  ∀ row ∈ db.locations, row.source ∈ protectedSources → ∃ row' ∈ later.locations, row.KeptAs row'

theorem protects_refl (db : Db) : Protects db db := fun row hrow _ => ⟨row, hrow, rfl⟩

theorem LocationRow.KeptAs.source {row later : LocationRow} (hkept : row.KeptAs later) :
    later.source = row.source := by
  rw [hkept]

theorem LocationRow.KeptAs.trans {first second third : LocationRow} (hfirst : first.KeptAs second)
    (hsecond : second.KeptAs third) : first.KeptAs third := by
  rw [LocationRow.KeptAs, hsecond, hfirst]

theorem Protects.trans {first second third : Db} (hfirst : Protects first second)
    (hsecond : Protects second third) : Protects first third := by
  intro row hrow hprotected
  obtain ⟨middle, hmiddle, hkept⟩ := hfirst row hrow hprotected
  obtain ⟨last, hlast, hkept'⟩ := hsecond middle hmiddle (hkept.source ▸ hprotected)
  exact ⟨last, hlast, hkept.trans hkept'⟩

theorem learned_notMem : learned ∉ protectedSources := by decide

theorem revocable_of_protected {row : LocationRow} (hprotected : row.source ∈ protectedSources)
    (id : ℕ) : row.revocable id = false := by
  have hne : row.source ≠ learned := fun heq => learned_notMem (heq ▸ hprotected)
  simp [LocationRow.revocable, hne]

theorem Protects.change (hchange : Change tools db next) : Protects db next := by
  intro row hrow hprotected
  cases hchange with
  | same => exact ⟨row, hrow, rfl⟩
  | started => exact ⟨row, hrow, rfl⟩
  | recorded => exact ⟨row, hrow, rfl⟩
  | approved => exact ⟨row, List.mem_append_left _ hrow, rfl⟩
  | @revoked input now candidate id =>
      refine ⟨row, List.mem_map.mpr ⟨row, hrow, ?_⟩, rfl⟩
      rw [revocable_of_protected hprotected]
      rfl
  | rejected => exact ⟨row, hrow, rfl⟩

theorem hasCodes_iff {canonicalCode aliasCode : Text} {row : LocationRow} :
    row.hasCodes canonicalCode aliasCode = true ↔
      row.aliasCode = aliasCode ∧ row.canonicalCode = canonicalCode := by
  simp [LocationRow.hasCodes]

/-- Rows with the same codes are one row. -/
theorem Sound.eq_of_hasCodes (hsound : Sound tools db) {first second : LocationRow}
    {canonicalCode aliasCode : Text} (hfirst : first ∈ db.locations)
    (hsecond : second ∈ db.locations) (hcodes : first.hasCodes canonicalCode aliasCode = true)
    (hcodes' : second.hasCodes canonicalCode aliasCode = true) : first = second := by
  obtain ⟨halias, hcanonical⟩ := hasCodes_iff.mp hcodes
  obtain ⟨halias', hcanonical'⟩ := hasCodes_iff.mp hcodes'
  exact hsound.locationCodes.eq_of_mem hfirst hsecond (by simp [halias, halias', hcanonical,
    hcanonical'])

theorem Protects.upserted (hsound : Sound tools db) {row : LocationRow}
    (hupserted : Upserted db row next) : Protects db next := by
  intro old hold hprotected
  cases hupserted with
  | same => exact ⟨old, hold, rfl⟩
  | touched now importRunId =>
      refine ⟨_, List.mem_map_of_mem hold, ?_⟩
      split_ifs <;> rfl
  | overwritten hexisting hcodes hopen hfits =>
      refine ⟨old, List.mem_map.mpr ⟨old, hold, if_neg fun hhas => ?_⟩, rfl⟩
      exact hopen (hsound.eq_of_hasCodes hexisting hold hcodes hhas ▸ hprotected)
  | inserted => exact ⟨old, List.mem_append_left _ hold, rfl⟩

/-! ## Ownership -/

/-- The active learned row of an approved candidate. -/
structure Owns (db : Db) (candidate : Candidate) (row : LocationRow) : Prop where
  mem : row ∈ db.locations
  id : candidate.approvedLocationId = some row.id
  source : row.source = learned
  active : row.retired = false
  aliasCode : row.aliasCode = candidate.aliasCode

def Owned (db : Db) : Prop :=
  ∀ candidate ∈ db.candidates, candidate.status = .approved → ∃ row, Owns db candidate row

theorem Owned.change (hsound : Sound tools db) (howned : Owned db)
    (hchange : Change tools db next) : Owned next := by
  intro new hnew happroved
  cases hchange with
  | same => exact howned new hnew happroved
  | started observed now =>
      rcases List.mem_append.mp hnew with hold | hlast
      · obtain ⟨row, hrow⟩ := howned new hold happroved
        exact ⟨row, hrow.mem, hrow.id, hrow.source, hrow.active, hrow.aliasCode⟩
      · rw [List.mem_singleton.mp hlast] at happroved
        cases happroved
  | recorded observed now hcandidate hcount hcontext conflicts quality =>
      obtain ⟨old, hold, -, halias, hlocation, hstatus, -⟩ := mem_recorded hnew
      obtain ⟨row, hrow⟩ := howned old hold (hstatus.mp happroved)
      exact ⟨row, hrow.mem, hlocation.trans hrow.id, hrow.source, hrow.active,
        hrow.aliasCode.trans halias.symm⟩
  | @approved input now candidate approval hcandidate =>
      obtain ⟨old, hold, hsame, ⟨-, rfl⟩ | ⟨hid, -, hlocation⟩⟩ := mem_reviewed hnew
      · obtain ⟨row, hrow⟩ := howned new hold happroved
        exact ⟨row, List.mem_append_left _ hrow.mem, hrow.id, hrow.source, hrow.active,
          hrow.aliasCode⟩
      · refine ⟨_, List.mem_append_right _ (List.mem_singleton.mpr rfl), hlocation, rfl, rfl, ?_⟩
        rw [hsame.aliasCode, hsound.ids.eq_of_mem hold hcandidate hid]
        rfl
  | @revoked input now candidate id hcandidate hwas hid =>
      obtain ⟨old, hold, -, ⟨hne, rfl⟩ | ⟨-, hstatus, -⟩⟩ := mem_reviewed hnew
      · obtain ⟨row, hrow⟩ := howned new hold happroved
        obtain ⟨own, hown⟩ := howned candidate hcandidate hwas
        -- The revoked row is the one of its own candidate, and codes tell the candidates apart.
        have hother : row.id ≠ id := by
          rintro rfl
          have hsame : row = own := hsound.locationIds.eq_of_mem hrow.mem hown.mem
            (Option.some.inj (hid.symm.trans hown.id))
          have hcodes : new.aliasCode = candidate.aliasCode := by
            rw [← hrow.aliasCode, hsame, hown.aliasCode]
          exact hne (congrArg Candidate.id (hsound.codes.eq_of_mem hold hcandidate hcodes))
        refine ⟨row, List.mem_map.mpr ⟨row, hrow.mem, ?_⟩, hrow.id, hrow.source, hrow.active,
          hrow.aliasCode⟩
        simp [LocationRow.revocable, hother]
      · cases hstatus.symm.trans happroved
  | rejected input now hcandidate =>
      obtain ⟨old, hold, -, ⟨-, rfl⟩ | ⟨-, hstatus, -⟩⟩ := mem_reviewed hnew
      · obtain ⟨row, hrow⟩ := howned new hold happroved
        exact ⟨row, hrow.mem, hrow.id, hrow.source, hrow.active, hrow.aliasCode⟩
      · cases hstatus.symm.trans happroved

/-- An import takes over the row of an approved candidate. -/
def TakesOver (db : Db) (row : LocationRow) : Prop :=
  row.fits = true ∧ row.source ≠ learned ∧ ∃ candidate ∈ db.candidates,
    candidate.status = .approved ∧ ∃ old ∈ db.locations,
      candidate.approvedLocationId = some old.id ∧
        old.hasCodes row.canonicalCode row.aliasCode = true

theorem Owned.upserted (howned : Owned db) {row : LocationRow}
    (hactive : row.retired = false) (hleaves : ¬ TakesOver db row)
    (hupserted : Upserted db row next) : Owned next := by
  intro candidate hcandidate happroved
  cases hupserted with
  | same => exact howned candidate hcandidate happroved
  | touched now importRunId =>
      obtain ⟨own, hown⟩ := howned candidate hcandidate happroved
      refine ⟨_, List.mem_map_of_mem hown.mem, ?_, ?_, ?_, ?_⟩
      · split_ifs <;> exact hown.id
      · split_ifs <;> exact hown.source
      · split_ifs <;> exact hown.active
      · split_ifs <;> exact hown.aliasCode
  | overwritten hexisting hcodes hopen hfits =>
      obtain ⟨own, hown⟩ := howned candidate hcandidate happroved
      refine ⟨_, List.mem_map_of_mem hown.mem, ?_, ?_, ?_, ?_⟩
      · split_ifs <;> exact hown.id
      · split_ifs with hhas
        · by_contra hsource
          exact hleaves ⟨hfits, hsource, candidate, hcandidate, happroved, own, hown.mem, hown.id,
            hhas⟩
        · exact hown.source
      · split_ifs
        · exact hactive
        · exact hown.active
      · split_ifs <;> exact hown.aliasCode
  | inserted hfresh =>
      obtain ⟨own, hown⟩ := howned candidate hcandidate happroved
      exact ⟨own, List.mem_append_left _ hown.mem, hown.id, hown.source, hown.active,
        hown.aliasCode⟩

/-! ## Runs -/

/-- The call leaves the rows of approved candidates alone. -/
def LeavesLearned (tools : Tools) (db : Db) : Act → Prop
  | .upsert input now => ¬ TakesOver db (input.row tools db.nextLocation now)
  | _ => True

/-- Every call keeps the tables sound and the protected rows. -/
theorem sound_step (hsound : Sound tools db) {act : Act} (hstep : step tools db act = some next) :
    Sound tools next ∧ Protects db next := by
  cases act with
  | observe input now =>
      obtain rfl := Option.some.inj hstep
      obtain ⟨middle, hfirst, hsecond⟩ := observe_changes tools input now db
      exact ⟨(hsound.change hfirst).change hsecond,
        (Protects.change hfirst).trans (Protects.change hsecond)⟩
  | review input now =>
      obtain rfl := Option.some.inj hstep
      cases hreview : review tools input now db with
      | error reason => exact ⟨hsound, protects_refl db⟩
      | ok next => exact ⟨hsound.change (review_change hreview),
          Protects.change (review_change hreview)⟩
  | upsert input now =>
      obtain rfl := Option.some.inj hstep
      have hupserted := upsert_upserted tools input now db
      exact ⟨hsound.upserted rfl hupserted, Protects.upserted hsound hupserted⟩

theorem owned_step (hsound : Sound tools db) (howned : Owned db) {act : Act}
    (hleaves : LeavesLearned tools db act) (hstep : step tools db act = some next) :
    Owned next := by
  cases act with
  | observe input now =>
      obtain rfl := Option.some.inj hstep
      obtain ⟨middle, hfirst, hsecond⟩ := observe_changes tools input now db
      exact Owned.change (hsound.change hfirst) (howned.change hsound hfirst) hsecond
  | review input now =>
      obtain rfl := Option.some.inj hstep
      cases hreview : review tools input now db with
      | error reason => exact howned
      | ok next => exact howned.change hsound (review_change hreview)
  | upsert input now =>
      obtain rfl := Option.some.inj hstep
      exact howned.upserted rfl hleaves (upsert_upserted tools input now db)

/-! ## What every state keeps -/

/-- Two observations of a candidate were made from different public networks. -/
def TwoNetworks (tools : Tools) (db : Db) (id : ℕ) : Prop :=
  ∃ first ∈ db.observationsOf id, ∃ second ∈ db.observationsOf id, ∃ here there : Address,
    here.isGlobal = true ∧ there.isGlobal = true ∧
      first.contextKey = tools.sha256 here.network ∧
        second.contextKey = tools.sha256 there.network ∧ here.network ≠ there.network

theorem Sound.twoNetworks (hsound : Sound tools db) {id : ℕ} (htwo : 2 ≤ db.independent id) :
    TwoNetworks tools db id := by
  unfold Db.independent at htwo
  have hnodup := List.nodup_dedup ((db.observationsOf id).map Observation.contextKey)
  have hmem : ∀ contextKey ∈ ((db.observationsOf id).map Observation.contextKey).dedup,
      ∃ observation ∈ db.observationsOf id, observation.contextKey = contextKey := fun _ hkey =>
    List.mem_map.mp (List.mem_dedup.mp hkey)
  match hkeys : ((db.observationsOf id).map Observation.contextKey).dedup with
  | [] => simp [hkeys] at htwo
  | [_] => simp [hkeys] at htwo
  | one :: two :: rest =>
      rw [hkeys] at hnodup hmem
      obtain ⟨first, hfirst, hone⟩ := hmem one (List.mem_cons_self ..)
      obtain ⟨second, hsecond, htwo⟩ := hmem two (List.mem_cons_of_mem _ (List.mem_cons_self ..))
      obtain ⟨_, here, -, hglobal, hcontext⟩ := hsound.contexts first (List.mem_of_mem_filter hfirst)
      obtain ⟨_, there, -, hglobal', hcontext'⟩ :=
        hsound.contexts second (List.mem_of_mem_filter hsecond)
      refine ⟨first, hfirst, second, hsecond, here, there, hglobal, hglobal', hcontext, hcontext',
        fun hsame => ?_⟩
      have hne : one ≠ two := by
        rintro rfl
        simp at hnodup
      exact hne (by rw [← hone, ← htwo, hcontext, hcontext', hsame])

/-- What holds in every state that is reached. -/
structure Backed (tools : Tools) (db : Db) : Prop where
  room : db.candidates.length ≤ maxCandidates
  limit : ∀ candidate ∈ db.candidates,
    (db.observationsOf candidate.id).length ≤ maxObservationsPerCandidate
  repeated : ∀ input now observed, readObservation tools input = some observed →
    ∀ candidate ∈ db.candidates, candidate.aliasCode = observed.code →
      (∃ observation ∈ db.observationsOf candidate.id,
        observation.measurementKey = observed.measurementKey) →
          observe tools input now db = (false, db)
  approves : ∀ input now next, input.action = .approve →
    review tools input now db = .ok next → ∃ candidate ∈ db.candidates,
      candidate.aliasCode = tools.lower (strip input.code) ∧ candidate.conflictCount = 0 ∧
        TwoNetworks tools db candidate.id
  approved : ∀ candidate ∈ db.candidates, candidate.status = .approved →
    TwoNetworks tools db candidate.id
  protects : ∀ acts later, Transition.run (step tools) db acts = some later → Protects db later

/-- The row is the only one of its id, and revoking the candidate retires it. -/
structure OwnsRevocable (tools : Tools) (db : Db) (candidate : Candidate) (row : LocationRow) : Prop
    extends Owns db candidate row where
  only : ∀ other ∈ db.locations, candidate.approvedLocationId = some other.id → other = row
  revoke : ∀ input now, input.valid tools = true → input.action = .revoke →
    tools.lower (strip input.code) = candidate.aliasCode →
      ∃ next, review tools input now db = .ok next ∧
        ∃ later ∈ next.locations, later.id = row.id ∧ later.retired = true

theorem Sound.observe_repeated (hsound : Sound tools db) {input : ObserveInput} {now : ℤ}
    {observed : Observed} (hread : readObservation tools input = some observed)
    {candidate : Candidate} (hcandidate : candidate ∈ db.candidates)
    (hcode : candidate.aliasCode = observed.code)
    (hrepeated : ∃ observation ∈ db.observationsOf candidate.id,
      observation.measurementKey = observed.measurementKey) :
    observe tools input now db = (false, db) := by
  have hfound : db.candidate? observed.code = some candidate :=
    hcode ▸ Table.row?_of_mem hsound.codes hcandidate
  have hany : ((db.observationsOf candidate.id).any fun observation =>
      decide (observation.measurementKey = observed.measurementKey)) = true := by
    obtain ⟨observation, hmem, hkey⟩ := hrepeated
    exact List.any_eq_true.mpr ⟨observation, hmem, decide_eq_true hkey⟩
  simp only [observe, hread, Db.observeRead, hfound, Db.record, hany, if_true]
  split <;> rfl

theorem Sound.approves (hsound : Sound tools db) {input : ReviewInput} {now : ℤ}
    (haction : input.action = .approve) (hreview : review tools input now db = .ok next) :
    ∃ candidate ∈ db.candidates, candidate.aliasCode = tools.lower (strip input.code) ∧
      candidate.conflictCount = 0 ∧ TwoNetworks tools db candidate.id := by
  simp only [review, haction] at hreview
  split_ifs at hreview
  split at hreview
  · cases hreview
  · rename_i candidate hfound
    obtain ⟨hcandidate, hcode⟩ := mem_of_candidate? hfound
    cases hfound : approval tools input (tools.lower (strip input.code)) candidate db with
    | error reason => simp [Db.approve, hfound, Bind.bind, Except.bind] at hreview
    | ok found =>
        obtain ⟨-, htwo, hconflict⟩ := approval_ok hfound
        rw [hsound.independent candidate hcandidate] at htwo
        exact ⟨candidate, hcandidate, hcode, hconflict, hsound.twoNetworks htwo⟩

theorem Sound.ownsRevocable (hsound : Sound tools db) {candidate : Candidate}
    (hcandidate : candidate ∈ db.candidates) (happroved : candidate.status = .approved)
    {row : LocationRow} (howns : Owns db candidate row) :
    OwnsRevocable tools db candidate row := by
  have honly : ∀ other ∈ db.locations, other.id = row.id → other = row := fun other hother hid =>
    hsound.locationIds.eq_of_mem hother howns.mem hid
  refine { howns with only := fun other hother hid => ?_, revoke := ?_ }
  · exact honly other hother (Option.some.inj (hid.symm.trans howns.id))
  · intro input now hvalid haction hcode
    have hfound : db.candidate? (tools.lower (strip input.code)) = some candidate :=
      hcode ▸ Table.row?_of_mem hsound.codes hcandidate
    have hrevocable : row.revocable row.id = true := by
      simp [LocationRow.revocable, howns.source, howns.active]
    have hone : (db.locations.filter (LocationRow.revocable row.id)).length = 1 := by
      rw [← List.countP_eq_length_filter]
      refine (hsound.locationIds.countP_eq_one_iff (k := row.id) fun other _ hother => ?_).mpr
        ⟨row, howns.mem, hrevocable⟩
      simp only [LocationRow.revocable, Bool.and_eq_true, decide_eq_true_iff] at hother
      exact hother.1.1
    simp only [review, hvalid, Bool.not_true, Bool.false_eq_true, if_false, hfound, haction,
      Db.revoke, happroved, decide_true, howns.id, hone, ne_eq, not_true_eq_false]
    exact ⟨_, rfl, { row with retired := true, updatedAt := now },
      List.mem_map.mpr ⟨row, howns.mem, by rw [hrevocable]; rfl⟩, rfl, rfl⟩

theorem Sound.backed_state (hsound : Sound tools db) : Backed tools db where
  room := hsound.room
  limit := hsound.limit
  repeated _ _ _ hread _ hcandidate hcode hrepeated :=
    hsound.observe_repeated hread hcandidate hcode hrepeated
  approves _ _ _ haction hreview := hsound.approves haction hreview
  approved candidate hcandidate happroved := by
    have htwo := hsound.backed candidate hcandidate happroved
    rw [hsound.independent candidate hcandidate] at htwo
    exact hsound.twoNetworks htwo
  protects := by
    intro acts later hlater
    have hkept : ∀ {state : Db} {act : Act} {next : Db}, Sound tools state ∧ Protects db state →
        step tools state act = some next → Sound tools next ∧ Protects db next := by
      intro state act next hinv hstep
      obtain ⟨hnext, hprotects⟩ := sound_step hinv.1 hstep
      exact ⟨hnext, hinv.2.trans hprotects⟩
    exact (Transition.run_invariant hkept ⟨hsound, protects_refl db⟩ hlater).2

/-- Learned locations are backed by a review in every state, and stay revocable as
long as no import takes them over. -/
theorem learned_locations_are_backed (tools : Tools) {start db : Db} {acts : List Act}
    (hfresh : Fresh start) (hrun : Transition.run (step tools) start acts = some db) :
    Backed tools db ∧ (Transition.RunOk (step tools) (LeavesLearned tools) start acts →
      ∀ candidate ∈ db.candidates, candidate.status = .approved →
        ∃ row, OwnsRevocable tools db candidate row) := by
  have hsound : Sound tools db :=
    Transition.run_invariant (fun hsound hstep => (sound_step hsound hstep).1) hfresh.sound hrun
  refine ⟨hsound.backed_state, fun hleaves candidate hcandidate happroved => ?_⟩
  have hkept : ∀ {state : Db} {act : Act} {next : Db}, Sound tools state ∧ Owned state →
      LeavesLearned tools state act → step tools state act = some next →
        Sound tools next ∧ Owned next := by
    intro state act next hinv hok hstep
    exact ⟨(sound_step hinv.1 hstep).1, owned_step hinv.1 hinv.2 hok hstep⟩
  have howned : Owned start := by
    intro candidate hcandidate
    rw [hfresh.candidates] at hcandidate
    cases hcandidate
  obtain ⟨row, hrow⟩ := (Transition.run_invariant_of hkept hleaves ⟨hfresh.sound, howned⟩
    hrun).2 candidate hcandidate happroved
  exact ⟨row, hsound.ownsRevocable hcandidate happroved hrow⟩

/-! ## A row that is taken over -/

/-- Plain texts, two addresses and one place. -/
def plainTools : Tools where
  lower := id
  upper := id
  title := id
  isPrintable _ := true
  sha256 := id
  ipAddress text :=
    if text = "8.8.8.8".toList then some ⟨text, true, "8.8.8.0/24".toList⟩
    else if text = "1.1.1.1".toList then some ⟨text, true, "1.1.1.0/24".toList⟩
    else none
  distanceKm _ _ := 0

def seen (address : String) (mark : Char) : Act :=
  .observe
    { code := "xyz".toList
      hostname := "xyz.example.net".toList
      publicIp := address.toList
      provider := "generic".toList
      measurementKey := List.replicate 64 mark
      proposal :=
        { city := some "Frankfurt".toList
          country := some "DE".toList
          lat := some (.number 50)
          lon := some (.number 8) } } 0

def reviewOf (action : Action) : ReviewInput where
  code := "xyz".toList
  action := action
  actor := "alice".toList
  evidence := "route".toList
  city := some "Frankfurt".toList
  country := some "DE".toList
  lat := some (.number 50)
  lon := some (.number 8)

def imported : Act :=
  .upsert
    { canonicalCode := "xyz".toList
      aliasCode := "xyz".toList
      city := "Elsewhere".toList
      country := "DE".toList
      lat := 48
      lon := 9
      source := "peeringdb".toList
      confidence := 100
      priority := 10 } 3

def emptyDb : Db := ⟨[], 1, [], [], [], 1⟩

theorem fresh_emptyDb : Fresh emptyDb :=
  ⟨rfl, rfl, Table.keyed_nil, Table.keyed_nil, by simp [emptyDb]⟩

def approvedDb : Db :=
  (Transition.run (step plainTools) emptyDb
    [seen "8.8.8.8" 'a', seen "1.1.1.1" 'b', .review (reviewOf .approve) 2]).getD emptyDb

theorem learned_locations_are_backed_once : Backed plainTools approvedDb :=
  (@learned_locations_are_backed plainTools emptyDb approvedDb
    [seen "8.8.8.8" 'a', seen "1.1.1.1" 'b', .review (reviewOf .approve) 2] fresh_emptyDb
    (by decide +kernel)).1

def takenActs : List Act :=
  [seen "8.8.8.8" 'a', seen "1.1.1.1" 'b', .review (reviewOf .approve) 2, imported]

def takenDb : Db := (Transition.run (step plainTools) emptyDb takenActs).getD emptyDb

/-- An import takes the row of an approved candidate, which cannot be revoked any more. -/
theorem import_takes_learned_row :
    Transition.run (step plainTools) emptyDb takenActs = some takenDb ∧
      ∃ candidate ∈ takenDb.candidates, candidate.status = .approved ∧
        (∀ row, ¬ Owns takenDb candidate row) ∧
          review plainTools (reviewOf .revoke) 4 takenDb =
            .error "Approved location was changed; no revocation performed" := by
  have happroved : (takenDb.candidates.any fun candidate =>
      decide (candidate.status = .approved)) = true := by decide +kernel
  have hrows : ∀ row ∈ takenDb.locations, row.source ≠ learned := by decide +kernel
  obtain ⟨candidate, hcandidate, hstatus⟩ := List.any_eq_true.mp happroved
  refine ⟨by decide +kernel, candidate, hcandidate, of_decide_eq_true hstatus,
    fun row howns => hrows row howns.mem howns.source, ?_⟩
  decide +kernel

end Justup.Geo.Pop
