import Justup.Geo.Facilities

/-!
# A facility import does not depend on the order

What the import makes of a group depends on its records as a collection, so another order of the
snapshot gives the same rows.  An import that fails leaves nothing, and one that is repeated finds
every row as it would write it.
-/

namespace Justup.Geo.Facilities

open Store Lib

variable {tools : Tools} {faults faults' : Statement → Bool} {clock clock' : Key → Text}
  {locations : List Pop.LocationRow}

/-! ## Records in another order -/

section Order

variable {records other : List Validated}

theorem coords_perm (hperm : records.Perm other) : coords records = coords other := by
  unfold coords
  congr 1
  have hsorted := (hperm.map fun record => toLex (record.lat, record.lon))
  refine ((List.perm_insertionSort _ _).trans (hsorted.trans
    (List.perm_insertionSort (· ≤ ·) _).symm)).eq_of_pairwise (fun a b _ _ => le_antisymm) ?_ ?_
  · exact List.pairwise_insertionSort _ _
  · exact List.pairwise_insertionSort _ _

theorem firstCity_perm (hperm : records.Perm other) : firstCity records = firstCity other := by
  unfold firstCity
  congr 1
  have hcities := hperm.map Validated.city
  cases hleast : (other.map Validated.city).min? with
  | none =>
      rw [List.min?_eq_none_iff] at hleast ⊢
      exact List.Perm.eq_nil (hleast ▸ hcities)
  | some city =>
      rw [List.min?_eq_some_iff] at hleast ⊢
      exact ⟨hcities.mem_iff.mpr hleast.1, fun b hb => hleast.2 b (hcities.mem_iff.mp hb)⟩

theorem centroid_perm (hperm : records.Perm other) :
    centroid tools records = centroid tools other := by
  simp only [centroid, coords_perm hperm]

theorem spread_perm (hperm : records.Perm other) : spread tools records = spread tools other := by
  simp only [spread, coords_perm hperm, centroid_perm hperm]

theorem position_perm (hperm : records.Perm other) (key : Key) :
    position tools locations key records = position tools locations key other := by
  simp only [position, centroid_perm hperm, firstCity_perm hperm, hperm.length_eq]

end Order

/-- The groups of both have the same keys, each with the same records in some order. -/
def SameGroups (first second : List (Key × List Validated)) : Prop :=
  List.Forall₂ (fun a b => a.1 = b.1 ∧ a.2.Perm b.2) first second

theorem groupFacilities_perm {facilities other : List Facility} (hperm : facilities.Perm other) :
    match groupFacilities tools facilities, groupFacilities tools other with
    | none, none => True
    | some first, some second => SameGroups first.groups second.groups ∧
        first.skipped = second.skipped ∧ first.validationErrors = second.validationErrors
    | _, _ => False := by
  have hverdicts := hperm.map (verdict tools)
  by_cases hraised : Verdict.raised ∈ facilities.map (verdict tools)
  · have hother := hverdicts.mem_iff.mp hraised
    simp only [groupFacilities, if_pos hraised, if_pos hother]
  · have hother := fun hmem => hraised (hverdicts.mem_iff.mpr hmem)
    simp only [groupFacilities, if_neg hraised, if_neg hother]
    exact ⟨Dict.forall₂_group_of_perm (hverdicts.filterMap _), hverdicts.count_eq _,
      hverdicts.count_eq _⟩

/-! ## The loop -/

/-- The rows apart from their timestamps. -/
def rows (evidence : Evidence) (key : Key) : Option Row := (evidence key).map Prod.fst

theorem rows_update (evidence : Evidence) (key other : Key) (row : Row) (now : Text) :
    rows (Function.update evidence key (some (row, now))) other =
      if other = key then some row else rows evidence other := by
  by_cases hother : other = key
  · subst hother
    simp [rows]
  · simp [rows, hother]

structure Progress.Same (p q : Progress) : Prop where
  rows : ∀ key, rows p.evidence key = rows q.evidence key
  counters : p.counters = q.counters

namespace Progress.Same

variable {p q : Progress}

theorem skip (hsame : p.Same q) (count : ℕ) : (p.skip count).Same (q.skip count) :=
  ⟨hsame.rows, by simp only [Progress.skip, hsame.counters]⟩

theorem process (hsame : p.Same q) (count : ℕ) : (p.process count).Same (q.process count) :=
  ⟨hsame.rows, by simp only [Progress.process, hsame.counters]⟩

/-- Whether a row is new, other or the same does not depend on when it was written. -/
theorem upsert (hsame : p.Same q) (key : Key) (row : Row) (now now' : Text) :
    (p.upsert key row now).Same (q.upsert key row now') := by
  have hrow := hsame.rows key
  cases hp : p.evidence key with
  | none =>
      cases hq : q.evidence key with
      | some old => simp [Facilities.rows, hp, hq] at hrow
      | none =>
          simp only [Progress.upsert, hp, hq]
          exact ⟨fun other => by rw [rows_update, rows_update, hsame.rows], by rw [hsame.counters]⟩
  | some old =>
      obtain ⟨old, stamp⟩ := old
      cases hq : q.evidence key with
      | none => simp [Facilities.rows, hp, hq] at hrow
      | some old' =>
          obtain ⟨old', stamp'⟩ := old'
          obtain rfl : old = old' := by simpa [Facilities.rows, hp, hq] using hrow
          simp only [Progress.upsert, hp, hq]
          split
          · exact hsame
          · exact ⟨fun other => by rw [rows_update, rows_update, hsame.rows],
              by rw [hsame.counters]⟩

end Progress.Same

/-- Both end alike. -/
def SameOutcome : Except Counters Progress → Except Counters Progress → Prop
  | .error first, .error second => first = second
  | .ok first, .ok second => first.Same second
  | _, _ => False

theorem importGroup_same {p q : Progress} (hsame : p.Same q) {entry entry' : Key × List Validated}
    (hkey : entry.1 = entry'.1) (hperm : entry.2.Perm entry'.2) :
    SameOutcome (importGroup tools faults clock locations p entry)
      (importGroup tools faults clock' locations q entry') := by
  simp only [importGroup, spread_perm hperm, position_perm hperm, hkey, hperm.length_eq]
  split
  · exact hsame.skip _
  · split
    · exact hsame.counters
    · split
      · exact hsame.skip _
      · split
        · exact hsame.counters
        · exact (hsame.upsert _ _ _ _).process _

theorem importGroups_same {groups groups' : List (Key × List Validated)}
    (hgroups : SameGroups groups groups') {p q : Progress} (hsame : p.Same q) :
    SameOutcome (importGroups tools faults clock locations p groups)
      (importGroups tools faults clock' locations q groups') := by
  induction hgroups generalizing p q with
  | nil => exact hsame
  | @cons entry entry' rest rest' hhead _ ih =>
      have hstep : SameOutcome (importGroup tools faults clock locations p entry)
          (importGroup tools faults clock' locations q entry') :=
        importGroup_same hsame hhead.1 hhead.2
      unfold importGroups
      cases hfirst : importGroup tools faults clock locations p entry with
      | error counters =>
          cases hsecond : importGroup tools faults clock' locations q entry' with
          | error counters' => simpa only [hfirst, hsecond] using hstep
          | ok q' => simp only [hfirst, hsecond, SameOutcome] at hstep
      | ok p' =>
          cases hsecond : importGroup tools faults clock' locations q entry' with
          | error counters' => simp only [hfirst, hsecond, SameOutcome] at hstep
          | ok q' =>
              rw [hfirst, hsecond] at hstep
              exact ih hstep

/-- What was processed is the same, apart from the timestamps. -/
structure Processed.Same (first second : Processed) : Prop where
  rows : ∀ key, rows first.evidence key = rows second.evidence key
  counters : first.counters = second.counters
  error : first.error = second.error

theorem process_perm {db : Db} {facilities other : List Facility} (hperm : facilities.Perm other) :
    (process tools faults clock db facilities).Same (process tools faults clock' db other) := by
  have hgrouped := @groupFacilities_perm tools facilities other hperm
  simp only [process, hperm.length_eq]
  split
  · exact ⟨fun _ => rfl, rfl, rfl⟩
  · cases hfirst : groupFacilities tools facilities with
    | none =>
        cases hsecond : groupFacilities tools other with
        | none => exact ⟨fun _ => rfl, rfl, rfl⟩
        | some second => simp only [hfirst, hsecond] at hgrouped
    | some first =>
        cases hsecond : groupFacilities tools other with
        | none => simp only [hfirst, hsecond] at hgrouped
        | some second =>
            rw [hfirst, hsecond] at hgrouped
            obtain ⟨hgroups, hskipped, herrors⟩ := hgrouped
            have hloop : SameOutcome
                (importGroups tools faults clock db.locations
                  ⟨db.evidence, { skipped := second.skipped
                                  validationErrors := second.validationErrors }⟩ first.groups)
                (importGroups tools faults clock' db.locations
                  ⟨db.evidence, { skipped := second.skipped
                                  validationErrors := second.validationErrors }⟩ second.groups) :=
              importGroups_same hgroups ⟨fun _ => rfl, rfl⟩
            simp only [hskipped, herrors, hgroups.length_eq]
            split
            · exact ⟨fun _ => rfl, rfl, rfl⟩
            · split
              · exact ⟨fun _ => rfl, rfl, rfl⟩
              · revert hloop
                generalize importGroups tools faults clock db.locations _ first.groups = one
                generalize importGroups tools faults clock' db.locations _ second.groups = two
                intro hloop
                cases one with
                | error counters =>
                    cases two with
                    | error counters' => exact ⟨fun _ => rfl, hloop, rfl⟩
                    | ok p' => exact hloop.elim
                | ok p =>
                    cases two with
                    | error counters' => exact hloop.elim
                    | ok p' =>
                        have hsame : p.Same p' := hloop
                        dsimp only
                        split
                        · exact ⟨fun _ => rfl, hsame.counters, rfl⟩
                        · exact ⟨hsame.rows, hsame.counters, rfl⟩

/-! ## All or nothing -/

theorem process_of_error {db : Db} {facilities : List Facility}
    (herror : (process tools faults clock db facilities).error ≠ none) :
    (process tools faults clock db facilities).evidence = db.evidence := by
  have hcases : (process tools faults clock db facilities).error = none ∨
      (process tools faults clock db facilities).evidence = db.evidence := by
    simp only [process]
    split
    · exact .inr rfl
    · split
      · exact .inr rfl
      · split
        · exact .inr rfl
        · split
          · exact .inr rfl
          · split
            · exact .inr rfl
            · split
              · exact .inr rfl
              · exact .inl rfl
  exact hcases.resolve_left herror

/-! ## A second time -/

/-- Every group that gets a row has it already. -/
def Settled (tools : Tools) (locations : List Pop.LocationRow) (evidence : Evidence)
    (groups : List (Key × List Validated)) : Prop :=
  ∀ entry ∈ groups, ∀ row, spread tools entry.2 = false →
    position tools locations entry.1 entry.2 = some row → rows evidence entry.1 = some row

theorem upsert_rows (p : Progress) (key : Key) (row : Row) (now : Text) (other : Key) :
    rows (p.upsert key row now).evidence other =
      if other = key then some row else rows p.evidence other := by
  unfold Progress.upsert
  split
  · exact rows_update ..
  · rename_i old stamp hold
    split
    · rename_i hsame
      split
      · rename_i hother
        rw [hother, rows, hold, hsame]
        rfl
      · rfl
    · exact rows_update ..

theorem upsert_of_rows {p : Progress} {key : Key} {row : Row}
    (hrow : rows p.evidence key = some row) (now : Text) : p.upsert key row now = p := by
  obtain ⟨⟨old, stamp⟩, hold, rfl⟩ := Option.map_eq_some_iff.mp hrow
  simp [Progress.upsert, hold]

/-- A round of the loop leaves the rows of the other groups, and its own group with its row. -/
theorem importGroup_rows {p q : Progress} {entry : Key × List Validated}
    (hstep : importGroup tools faults clock locations p entry = .ok q) :
    (∀ key, key ≠ entry.1 → rows q.evidence key = rows p.evidence key) ∧
      ∀ row, spread tools entry.2 = false → position tools locations entry.1 entry.2 = some row →
        rows q.evidence entry.1 = some row := by
  unfold importGroup at hstep
  split at hstep
  · rename_i hspread
    cases hstep
    exact ⟨fun _ _ => rfl, fun row hnot => by simp [hspread] at hnot⟩
  · split at hstep
    · cases hstep
    · split at hstep
      · rename_i hposition
        cases hstep
        exact ⟨fun _ _ => rfl, fun row _ hrow => by simp [hposition] at hrow⟩
      · rename_i row hposition
        split at hstep
        · cases hstep
        · cases hstep
          refine ⟨fun key hkey => ?_, fun row' _ hrow => ?_⟩
          · exact (upsert_rows p entry.1 row _ key).trans (if_neg hkey)
          · obtain rfl : row = row' := Option.some.inj (hposition.symm.trans hrow)
            exact (upsert_rows p entry.1 row _ entry.1).trans (if_pos rfl)

theorem importGroups_rows {groups : List (Key × List Validated)} {p q : Progress}
    (hloop : importGroups tools faults clock locations p groups = .ok q) :
    ∀ key, key ∉ groups.map Prod.fst → rows q.evidence key = rows p.evidence key := by
  induction groups generalizing p with
  | nil =>
      cases hloop
      exact fun _ _ => rfl
  | cons entry rest ih =>
      unfold importGroups at hloop
      split at hloop
      · cases hloop
      · rename_i next hstep
        intro key hkey
        simp only [List.map_cons, List.mem_cons, not_or] at hkey
        rw [ih hloop key hkey.2, (importGroup_rows hstep).1 key hkey.1]

theorem importGroups_settled {groups : List (Key × List Validated)} {p q : Progress}
    (hnodup : (groups.map Prod.fst).Nodup)
    (hloop : importGroups tools faults clock locations p groups = .ok q) :
    Settled tools locations q.evidence groups := by
  induction groups generalizing p with
  | nil => exact fun entry hentry => (nomatch hentry)
  | cons entry rest ih =>
      obtain ⟨hnot, hrest⟩ := List.nodup_cons.mp hnodup
      unfold importGroups at hloop
      split at hloop
      · cases hloop
      · rename_i next hstep
        intro other hother row hspread hrow
        obtain rfl | hother := List.mem_cons.mp hother
        · rw [importGroups_rows hloop _ hnot]
          exact (importGroup_rows hstep).2 row hspread hrow
        · exact ih hrest hloop other hother row hspread hrow

/-- A round that finds its row writes nothing. -/
theorem importGroup_of_settled {p q : Progress} {entry : Key × List Validated}
    (hsettled : Settled tools locations p.evidence [entry])
    (hstep : importGroup tools faults clock locations p entry = .ok q) :
    q.evidence = p.evidence := by
  unfold importGroup at hstep
  split at hstep
  · cases hstep
    rfl
  · rename_i hspread
    split at hstep
    · cases hstep
    · split at hstep
      · cases hstep
        rfl
      · rename_i row hposition
        split at hstep
        · cases hstep
        · cases hstep
          have hrow := hsettled entry List.mem_cons_self row (by simpa using hspread) hposition
          rw [upsert_of_rows hrow]
          rfl

theorem importGroups_of_settled {groups : List (Key × List Validated)} {p q : Progress}
    (hsettled : Settled tools locations p.evidence groups)
    (hloop : importGroups tools faults clock locations p groups = .ok q) :
    q.evidence = p.evidence := by
  induction groups generalizing p with
  | nil =>
      cases hloop
      rfl
  | cons entry rest ih =>
      unfold importGroups at hloop
      split at hloop
      · cases hloop
      · rename_i next hstep
        have hsame : next.evidence = p.evidence := importGroup_of_settled
          (fun other hother => hsettled other (by simp_all)) hstep
        refine (ih ?_ hloop).trans hsame
        rw [hsame]
        exact fun other hother => hsettled other (List.mem_cons_of_mem _ hother)

/-- What a run that succeeds went through. -/
theorem process_ok {db : Db} {facilities : List Facility}
    (hok : (process tools faults clock db facilities).error = none) :
    ∃ grouped counters p, groupFacilities tools facilities = some grouped ∧
      importGroups tools faults clock db.locations ⟨db.evidence, counters⟩ grouped.groups = .ok p ∧
      (process tools faults clock db facilities).evidence = p.evidence := by
  revert hok
  simp only [process]
  split
  · exact fun hok => (nomatch hok)
  · split
    · exact fun hok => (nomatch hok)
    · rename_i grouped hgrouped
      split
      · exact fun hok => (nomatch hok)
      · split
        · exact fun hok => (nomatch hok)
        · split
          · exact fun hok => (nomatch hok)
          · rename_i p hloop
            split
            · exact fun hok => (nomatch hok)
            · exact fun _ => ⟨grouped, _, p, hgrouped, hloop, rfl⟩

theorem nodup_groups {facilities : List Facility} {grouped : Grouped}
    (hgrouped : groupFacilities tools facilities = some grouped) :
    (grouped.groups.map Prod.fst).Nodup := by
  simp only [groupFacilities] at hgrouped
  split at hgrouped
  · cases hgrouped
  · cases hgrouped
    exact Dict.nodup_keys_group _

/-- Behind a run that succeeded the same snapshot writes nothing. -/
theorem process_again {db later : Db} {facilities : List Facility}
    (hok : (process tools faults clock db facilities).error = none)
    (hlocations : later.locations = db.locations)
    (hevidence : later.evidence = (process tools faults clock db facilities).evidence) :
    (process tools faults' clock' later facilities).evidence = later.evidence := by
  by_cases hagain : (process tools faults' clock' later facilities).error = none
  · obtain ⟨grouped, counters, p, hgrouped, hloop, hrows⟩ := process_ok hok
    obtain ⟨grouped', counters', p', hgrouped', hloop', hrows'⟩ := process_ok hagain
    obtain rfl : grouped = grouped' := Option.some.inj (hgrouped.symm.trans hgrouped')
    have hsettled := importGroups_settled (nodup_groups hgrouped) hloop
    rw [← hrows, ← hevidence, ← hlocations] at hsettled
    rw [hrows']
    exact importGroups_of_settled (p := ⟨later.evidence, counters'⟩) hsettled hloop'
  · exact process_of_error hagain

/-- Without a fault the loop ends. -/
theorem importGroups_of_noFaults (hfaults : ∀ statement, faults statement = false)
    (groups : List (Key × List Validated)) (p : Progress) :
    ∃ q, importGroups tools faults clock locations p groups = .ok q := by
  induction groups generalizing p with
  | nil => exact ⟨p, rfl⟩
  | cons entry rest ih =>
      have hstep : ∃ next, importGroup tools faults clock locations p entry = .ok next := by
        unfold importGroup
        simp only [hfaults, Bool.or_false, if_false, Bool.false_eq_true]
        split
        · exact ⟨_, rfl⟩
        · split <;> exact ⟨_, rfl⟩
      obtain ⟨next, hnext⟩ := hstep
      simpa only [importGroups, hnext] using ih next

/-- What fails without a fault fails again, whatever happens then. -/
theorem process_error_of_noFaults (hfaults : ∀ statement, faults statement = false)
    {db : Db} {facilities : List Facility}
    (herror : (process tools faults clock db facilities).error ≠ none) (later : Db) :
    (process tools faults' clock' later facilities).error ≠ none := by
  revert herror
  simp only [process, hfaults]
  split
  · exact fun _ => by simp
  · split
    · exact fun _ => by simp
    · rename_i grouped hgrouped
      split
      · exact fun _ => by simp
      · obtain ⟨q, hq⟩ := @importGroups_of_noFaults tools faults clock db.locations hfaults
          grouped.groups ⟨db.evidence,
            { skipped := grouped.skipped, validationErrors := grouped.validationErrors }⟩
        simp [hq]

/-! ## The result -/

section Apply

variable {db : Db} {facilities : List Facility}

/-- The run is recorded around what is processed. -/
theorem applySnapshot_eq :
    (applySnapshot tools faults clock db facilities).1.locations = db.locations ∧
      (applySnapshot tools faults clock db facilities).1.evidence =
        if faults .start = true then db.evidence
        else (process tools faults clock db facilities).evidence := by
  unfold applySnapshot
  split
  · exact ⟨rfl, rfl⟩
  · dsimp only
    split <;> exact ⟨rfl, rfl⟩

theorem evidence_of_error (herror : (process tools faults clock db facilities).error ≠ none) :
    (applySnapshot tools faults clock db facilities).1.evidence = db.evidence := by
  rw [applySnapshot_eq.2]
  split
  · rfl
  · exact process_of_error herror

theorem error_of_limit
    (hlimit : maxRecordsPerRun < facilities.length ∨
      ∃ grouped, groupFacilities tools facilities = some grouped ∧
        maxCityGroupsPerRun < grouped.groups.length) :
    (process tools faults clock db facilities).error ≠ none := by
  simp only [process]
  split
  · simp
  · rename_i hrecords
    obtain ⟨grouped, hgrouped, hgroups⟩ := hlimit.resolve_left hrecords
    simp [hgrouped, hgroups]

theorem applySnapshot_perm {other : List Facility} (hperm : facilities.Perm other) :
    (∀ key, rows (applySnapshot tools faults clock db facilities).1.evidence key =
        rows (applySnapshot tools faults clock' db other).1.evidence key) ∧
      (applySnapshot tools faults clock db facilities).2 =
        (applySnapshot tools faults clock' db other).2 := by
  have hsame : (process tools faults clock db facilities).Same
      (process tools faults clock' db other) := process_perm hperm
  refine ⟨fun key => ?_, ?_⟩
  · rw [applySnapshot_eq.2, applySnapshot_eq.2]
    split
    · rfl
    · exact hsame.rows key
  · unfold applySnapshot
    simp only [hsame.counters, hsame.error]
    split
    · rfl
    · split <;> rfl

theorem applySnapshot_again
    (hfirst : faults .start = false ∧ (process tools faults clock db facilities).error = none ∨
      ∀ statement, faults statement = false) :
    (applySnapshot tools faults' clock' (applySnapshot tools faults clock db facilities).1
        facilities).1.evidence =
      (applySnapshot tools faults clock db facilities).1.evidence := by
  have hstart : faults .start = false := hfirst.elim And.left fun hfaults => hfaults .start
  have hevidence : (applySnapshot tools faults clock db facilities).1.evidence =
      (process tools faults clock db facilities).evidence := by
    rw [applySnapshot_eq.2, hstart]
    rfl
  rw [applySnapshot_eq.2]
  split
  · rfl
  · by_cases hok : (process tools faults clock db facilities).error = none
    · exact process_again hok applySnapshot_eq.1 hevidence
    · have hfaults := hfirst.resolve_left fun hfirst => hok hfirst.2
      exact process_of_error (process_error_of_noFaults hfaults hok _)

end Apply

/-- The order of the records does not matter; a limit or a failure leaves the evidence; a second
time writes no row; and the locations stay. -/
theorem facility_import_is_orderless_and_atomic (tools : Tools) (faults : Statement → Bool)
    (clock : Key → Text) (db : Db) (facilities : List Facility) :
    (∀ other clock', facilities.Perm other →
        (∀ key, rows (applySnapshot tools faults clock db facilities).1.evidence key =
          rows (applySnapshot tools faults clock' db other).1.evidence key) ∧
        (applySnapshot tools faults clock db facilities).2 =
          (applySnapshot tools faults clock' db other).2) ∧
      ((maxRecordsPerRun < facilities.length ∨
          (∃ grouped, groupFacilities tools facilities = some grouped ∧
            maxCityGroupsPerRun < grouped.groups.length) ∨
          (process tools faults clock db facilities).error ≠ none) →
        (applySnapshot tools faults clock db facilities).1.evidence = db.evidence) ∧
      ((faults .start = false ∧ (process tools faults clock db facilities).error = none ∨
          ∀ statement, faults statement = false) →
        ∀ faults' clock',
          (applySnapshot tools faults' clock' (applySnapshot tools faults clock db facilities).1
            facilities).1.evidence =
          (applySnapshot tools faults clock db facilities).1.evidence) ∧
      (applySnapshot tools faults clock db facilities).1.locations = db.locations := by
  refine ⟨fun other clock' hperm => applySnapshot_perm hperm, fun hstops => ?_,
    fun hfirst faults' clock' => applySnapshot_again hfirst, applySnapshot_eq.1⟩
  rw [← or_assoc] at hstops
  exact hstops.elim (fun hlimit => evidence_of_error (error_of_limit hlimit)) evidence_of_error

/-- Tools that know one city. -/
def berlinTools : Tools where
  strip := id
  lower := id
  upper := id
  title := id
  casefold := id
  isWord := Char.isAlpha
  isSpace := Char.isWhitespace
  readFloat := fun _ => .notNumeric
  cityToPopCode := fun city => if city = "Berlin".toList then some "ber".toList else none
  seedCountries := fun code => if code = "ber".toList then some "DE".toList else none
  add := fun first second => first + second
  divide := fun total count => total / count
  round5 := id
  distanceKm := fun first second => if first = second then 0 else 1000

/-- Two facilities at one place, one with a country that is not that of the city, and one without
coordinates. -/
def berlinFacilities : List Facility :=
  [.dict (.text "Berlin".toList) (.text "DE".toList) (.finite 52) (.finite 13),
    .dict (.text "Berlin".toList) (.text "US".toList) (.finite 44) (.finite (-71)),
    .dict (.text "Berlin".toList) (.text "DE".toList) (.finite 52) (.finite 13),
    .dict (.text "Berlin".toList) (.text "DE".toList) .other (.finite 13)]

theorem facility_import_is_orderless_and_atomic_berlin :
    let db : Db := ⟨[], fun _ => none, []⟩
    let first := applySnapshot berlinTools (fun _ => false) (fun _ => "t".toList) db
      berlinFacilities
    let second := applySnapshot berlinTools (fun _ => false) (fun _ => "u".toList) first.1
      berlinFacilities
    first.2 = some ⟨⟨2, 1, 0, 1, 1⟩, 0, none⟩ ∧ second.1.evidence = first.1.evidence ∧
      (∀ key, rows first.1.evidence key =
        rows (applySnapshot berlinTools (fun _ => false) (fun _ => "u".toList) db
          berlinFacilities.reverse).1.evidence key) := by
  have hall := facility_import_is_orderless_and_atomic berlinTools (fun _ => false)
    (fun _ => "t".toList) ⟨[], fun _ => none, []⟩ berlinFacilities
  refine ⟨by decide +kernel, hall.2.2.1 (.inr fun _ => rfl) _ _, ?_⟩
  exact (hall.1 _ _ (List.reverse_perm berlinFacilities).symm).1

end Justup.Geo.Facilities
