import Mathlib.Data.Prod.Lex
import Mathlib.Data.Rat.Floor
import Justup.Lib.Ranking

/-!
# The location of one address

The selection among the location claims of the local databases and the online
services.  The distance between two claims is a parameter, in kilometres.
-/

namespace Justup.Geo.Resolver

open Justup.Lib

/-! ## The model -/

inductive Source where
  | geolite2
  | pop
  | ipApiPro
  | ipwho
  deriving DecidableEq, Repr

/-- The text of a source. -/
def Source.text : Source → String
  | .geolite2 => "geolite2"
  | .pop => "pop"
  | .ipApiPro => "ip-api-pro"
  | .ipwho => "ipwho.is"

def sourcePriority : List Source := [.geolite2, .pop, .ipApiPro, .ipwho]

def maxCityRadiusKm : ℚ := 25

def popVerifiedConfidence : ℚ := 85

def contradictionKm : ℚ := 250

def localSources : List Source := [.geolite2, .pop]

inductive AccuracyClass where
  | precise
  | approximate
  | unknown
  deriving DecidableEq, Repr

inductive Quality where
  | high
  | limited
  | unevidenced
  | coarse
  | veryCoarse
  | unusable
  deriving DecidableEq, Repr

def levelNone : ℕ := 0

def levelCountry : ℕ := 1

def levelRegion : ℕ := 2

def levelCity : ℕ := 3

structure GeoCandidate where
  source : Source
  latitude : ℚ
  longitude : ℚ
  city : Option String := none
  countryCode : Option String := none
  accuracyRadiusKm : Option ℚ := none
  cityIsRegion : Bool := false
  confidence : Option ℚ := none
  evidence : Option String := none
  deriving DecidableEq, Repr

structure GeoDecision where
  selected : Option GeoCandidate
  accuracyClass : AccuracyClass
  selectionReason : String
  isFallback : Bool
  sourcesConsidered : List Source
  sourcesSucceeded : List Source
  contradictions : List String := []
  place : Option GeoCandidate := none
  deriving DecidableEq, Repr

/-- `place_name`. -/
def GeoDecision.placeName (decision : GeoDecision) : Option String :=
  match decision.place with
  | some place => place.city
  | none => decision.selected.bind GeoCandidate.city

/-- A text that is there and not empty. -/
def given : Option String → Bool
  | none => false
  | some text => decide (text ≠ "")

namespace GeoCandidate

def dataLevel (candidate : GeoCandidate) : ℕ :=
  if given candidate.city && !candidate.cityIsRegion && given candidate.countryCode then levelCity
  else if given candidate.city then levelRegion
  else if given candidate.countryCode then levelCountry
  else levelNone

def isVerifiedPop (candidate : GeoCandidate) : Bool :=
  decide (candidate.source = .pop) &&
    (match candidate.confidence with
    | none => false
    | some confidence => decide (popVerifiedConfidence ≤ confidence)) &&
    decide (candidate.dataLevel = levelCity)

def geolite2Quality : Option GeoCandidate → Quality
  | none => .unusable
  | some candidate =>
      if candidate.dataLevel = levelCity then
        match candidate.accuracyRadiusKm with
        | none => .unevidenced
        | some radius => if radius ≤ maxCityRadiusKm then .high else .limited
      else if candidate.dataLevel = levelRegion then .coarse
      else .veryCoarse

def evidenceRank (candidate : GeoCandidate) : ℕ :=
  match candidate.source with
  | .pop => if candidate.isVerifiedPop then 4 else 2
  | .geolite2 =>
      match candidate.accuracyRadiusKm with
      | none => 1
      | some _ => if geolite2Quality (some candidate) = .high then 4 else 3
  | .ipApiPro | .ipwho => 1

/-- `source_quality` of `quality_key`. -/
def sourceQuality (candidate : GeoCandidate) : ℕ :=
  if candidate.source = .geolite2 && candidate.accuracyRadiusKm.isSome || candidate.isVerifiedPop
  then 1 else 0

/-- The first three parts of `quality_key`. -/
def quality (candidate : GeoCandidate) : ℕ × ℕ × ℕ :=
  (candidate.evidenceRank, candidate.dataLevel, candidate.sourceQuality)

def qualityKey (candidate : GeoCandidate) : ℕ ×ₗ ℕ ×ₗ ℕ ×ₗ ℤ :=
  toLex (candidate.evidenceRank, toLex (candidate.dataLevel, toLex (candidate.sourceQuality,
    -(sourcePriority.idxOf candidate.source : ℤ))))

def isLocal (candidate : GeoCandidate) : Bool := decide (candidate.source ∈ localSources)

end GeoCandidate

/-- The text of a distance without decimals, the nearest integer and of two the even one. -/
def wholeKm (distance : ℚ) : String :=
  let low := ⌊distance⌋
  let rest := distance - low
  toString (if rest < 1 / 2 ∨ rest = 1 / 2 ∧ low % 2 = 0 then low else low + 1)

section Select

variable (distanceKm : GeoCandidate → GeoCandidate → ℚ)

/-- Whether `other` may name the place of `winner`: the body of the loop of `_text_upgrade`. -/
def namesPlace (winner other : GeoCandidate) : Bool :=
  decide (other ≠ winner) && decide (levelCity ≤ other.dataLevel) &&
    !(given winner.countryCode && decide (other.countryCode ≠ winner.countryCode)) &&
    decide (distanceKm winner other ≤ max contradictionKm (winner.accuracyRadiusKm.getD 0))

/-- `_text_upgrade`. -/
def textUpgrade (winner : GeoCandidate) (ranked : List GeoCandidate) : Option GeoCandidate :=
  if levelCity ≤ winner.dataLevel then none else ranked.find? (namesPlace distanceKm winner)

/-- The candidates other than the selected one that are too far from it. -/
def farFrom (selected : GeoCandidate) (ranked : List GeoCandidate) : List GeoCandidate :=
  ranked.filter fun other =>
    decide (other ≠ selected) && decide (contradictionKm < distanceKm selected other)

def preciseRivals (selected : GeoCandidate) (ranked : List GeoCandidate) : List GeoCandidate :=
  (farFrom distanceKm selected ranked).filter fun other => decide (4 ≤ other.evidenceRank)

/-- The reason of the choice of `winner` from `pool`, without its additions. -/
def poolReason (winner : GeoCandidate) (second : Option GeoCandidate) (onlineLeft : Bool) :
    String :=
  if second.any fun other => decide (other.quality = winner.quality) then
    winner.source.text ++ " wins the tie on equal quality by source priority"
  else if onlineLeft then
    winner.source.text ++ " kept: online sources have no evidenced accuracy"
  else winner.source.text ++ " has the best-evidenced candidate"

/-- The decision for a winner among the ranked candidates. -/
def decisionOf (winner : GeoCandidate) (second : Option GeoCandidate) (onlineLeft : Bool)
    (ranked : List GeoCandidate) (considered succeeded : List Source) : GeoDecision :=
  let place := textUpgrade distanceKm winner ranked
  let rivals := preciseRivals distanceKm winner ranked
  let precise := decide (4 ≤ winner.evidenceRank) && rivals.isEmpty
  let named := match place with
    | none => ""
    | some place => "; place name from " ++ place.source.text ++
        " (text only, position unchanged)"
  let downgraded := if rivals.isEmpty then ""
    else "; contradictory precise claims, position downgraded to approximate"
  { selected := some winner
    accuracyClass := if precise then .precise else .approximate
    selectionReason := poolReason winner second onlineLeft ++ named ++ downgraded
    isFallback := decide (winner.source = .geolite2) &&
      considered.any fun source => decide (source ≠ .geolite2 ∧ source ∉ succeeded)
    sourcesConsidered := considered
    sourcesSucceeded := succeeded
    contradictions := (farFrom distanceKm winner ranked).map fun other =>
      winner.source.text ++ " vs " ++ other.source.text ++ ": " ++
        wholeKm (distanceKm winner other) ++ " km apart"
    place := place }

/-- The candidates that may be selected: the local ones, if there are any. -/
def pool (ranked : List GeoCandidate) : List GeoCandidate :=
  let ofLocal := ranked.filter GeoCandidate.isLocal
  if ofLocal = [] then ranked else ofLocal

def select (candidates : List GeoCandidate) (considered : List Source) : GeoDecision :=
  let ranked := Ranking.rankBy GeoCandidate.qualityKey candidates
  let consideredT := sourcePriority.filter fun source => decide (source ∈ considered)
  let succeeded := sourcePriority.filter fun source =>
    ranked.any fun candidate => decide (candidate.source = source)
  match pool ranked with
  | [] => ⟨none, .unknown, "no usable location from any source", false, consideredT, succeeded,
      [], none⟩
  | winner :: rest =>
      let ofLocal := ranked.filter GeoCandidate.isLocal
      decisionOf distanceKm winner rest.head?
        (!ofLocal.isEmpty && decide (ofLocal.length < ranked.length)) ranked consideredT succeeded

end Select

/-! ## The ranking -/

namespace GeoCandidate

theorem dataLevel_le (candidate : GeoCandidate) : candidate.dataLevel ≤ levelCity := by
  unfold dataLevel
  split_ifs <;> decide

theorem evidenceRank_le (candidate : GeoCandidate) : candidate.evidenceRank ≤ 4 := by
  unfold evidenceRank
  cases candidate.source with
  | pop =>
      dsimp only
      split <;> omega
  | geolite2 =>
      cases candidate.accuracyRadiusKm with
      | none => simp
      | some radius =>
          dsimp only
          split <;> omega
  | ipApiPro => simp
  | ipwho => simp

/-- The accuracy of an online claim is unproven. -/
theorem evidenceRank_online {candidate : GeoCandidate} (honline : candidate.isLocal = false) :
    candidate.evidenceRank = 1 := by
  unfold evidenceRank
  cases hsource : candidate.source with
  | geolite2 => simp [isLocal, hsource, localSources] at honline
  | pop => simp [isLocal, hsource, localSources] at honline
  | ipApiPro => rfl
  | ipwho => rfl

theorem source_eq_of_qualityKey_eq {first second : GeoCandidate}
    (hkey : first.qualityKey = second.qualityKey) : first.source = second.source := by
  have hindex : sourcePriority.idxOf first.source = sourcePriority.idxOf second.source := by
    have hlast := congrArg (fun key => (ofLex (ofLex (ofLex key).2).2).2) hkey
    exact Int.ofNat.inj (neg_inj.mp hlast)
  have hlisted : ∀ source : Source, source ∈ sourcePriority := by
    intro source
    cases source <;> decide
  exact (List.idxOf_inj (hlisted first.source)).mp hindex

theorem nodup_qualityKey {candidates : List GeoCandidate}
    (hsources : (candidates.map source).Nodup) : (candidates.map qualityKey).Nodup := by
  rw [List.Nodup, List.pairwise_map] at hsources ⊢
  exact hsources.imp fun hne hkey => hne (source_eq_of_qualityKey_eq hkey)

theorem evidenceRank_le_of_qualityKey_le {first second : GeoCandidate}
    (hkey : first.qualityKey ≤ second.qualityKey) : first.evidenceRank ≤ second.evidenceRank := by
  rcases Prod.Lex.le_iff.mp hkey with hlt | heq
  · exact hlt.le
  · exact heq.1.le

end GeoCandidate

open GeoCandidate

section Decision

variable {distanceKm : GeoCandidate → GeoCandidate → ℚ} {candidates : List GeoCandidate}

/-- The order of the candidates does not matter. -/
theorem select_eq_of_perm {other : List GeoCandidate} (hsources : (candidates.map source).Nodup)
    (hperm : candidates.Perm other) (considered : List Source) :
    select distanceKm candidates considered = select distanceKm other considered := by
  unfold select
  rw [Ranking.rankBy_eq_of_perm (nodup_qualityKey hsources) hperm]

theorem pool_subset {ranked : List GeoCandidate} {candidate : GeoCandidate}
    (hmem : candidate ∈ pool ranked) : candidate ∈ ranked := by
  unfold pool at hmem
  dsimp only at hmem
  split_ifs at hmem with hlocal
  · exact hmem
  · exact List.mem_of_mem_filter hmem

/-- What may be selected, when there is a local candidate: the ranked local ones. -/
theorem pool_rankBy (hsources : (candidates.map source).Nodup)
    (hlocal : ∃ candidate ∈ candidates, candidate.isLocal = true) :
    pool (Ranking.rankBy qualityKey candidates) =
      Ranking.rankBy qualityKey (candidates.filter isLocal) := by
  obtain ⟨candidate, hmem, hislocal⟩ := hlocal
  have hne : (Ranking.rankBy qualityKey candidates).filter isLocal ≠ [] :=
    List.ne_nil_of_mem (List.mem_filter.mpr ⟨Ranking.mem_rankBy.mpr hmem, hislocal⟩)
  unfold pool
  rw [if_neg hne, Ranking.filter_rankBy (nodup_qualityKey hsources)]

/-- Only local claims contradict a precise position. -/
theorem mem_preciseRivals_iff {winner other : GeoCandidate} {ranked : List GeoCandidate} :
    other ∈ preciseRivals distanceKm winner ranked ↔
      other ∈ ranked ∧ other ≠ winner ∧ contradictionKm < distanceKm winner other ∧
        other.evidenceRank = 4 := by
  have hle := other.evidenceRank_le
  simp only [preciseRivals, farFrom, List.mem_filter, Bool.and_eq_true, decide_eq_true_iff]
  constructor
  · rintro ⟨⟨hmem, hne, hfar⟩, hrank⟩
    exact ⟨hmem, hne, hfar, by omega⟩
  · rintro ⟨hmem, hne, hfar, hrank⟩
    exact ⟨⟨hmem, hne, hfar⟩, by omega⟩

/-- The decision, by the winner. -/
theorem select_of_pool {winner : GeoCandidate} {rest : List GeoCandidate}
    (hpool : pool (Ranking.rankBy qualityKey candidates) = winner :: rest)
    (considered : List Source) : ∃ onlineLeft succeeded,
      select distanceKm candidates considered =
        decisionOf distanceKm winner rest.head? onlineLeft
          (Ranking.rankBy qualityKey candidates)
          (sourcePriority.filter fun source => decide (source ∈ considered)) succeeded := by
  simp only [select, hpool]
  exact ⟨_, _, rfl⟩

/-- The winner is the first of the pool. -/
theorem selected_eq_head (considered : List Source) :
    (select distanceKm candidates considered).selected =
      (pool (Ranking.rankBy qualityKey candidates)).head? := by
  cases hpool : pool (Ranking.rankBy qualityKey candidates) with
  | nil => simp [select, hpool]
  | cons winner rest =>
      obtain ⟨onlineLeft, succeeded, hselect⟩ := select_of_pool hpool considered
      rw [hselect]
      rfl

theorem select_of_selected {winner : GeoCandidate} {considered : List Source}
    (hselected : (select distanceKm candidates considered).selected = some winner) :
    ∃ second onlineLeft succeeded, select distanceKm candidates considered =
      decisionOf distanceKm winner second onlineLeft (Ranking.rankBy qualityKey candidates)
        (sourcePriority.filter fun source => decide (source ∈ considered)) succeeded := by
  rw [selected_eq_head] at hselected
  obtain ⟨rest, hpool⟩ := List.head?_eq_some_iff.mp hselected
  obtain ⟨onlineLeft, succeeded, hselect⟩ := select_of_pool hpool considered
  exact ⟨_, onlineLeft, succeeded, hselect⟩

/-- The class is precise when the winner is evidenced and nothing evidenced contradicts it. -/
theorem accuracyClass_decisionOf {winner : GeoCandidate} {second : Option GeoCandidate}
    {onlineLeft : Bool} {considered succeeded : List Source} :
    (decisionOf distanceKm winner second onlineLeft (Ranking.rankBy qualityKey candidates)
      considered succeeded).accuracyClass = .precise ↔ winner.evidenceRank = 4 ∧
        ∀ other ∈ candidates, other ≠ winner → other.evidenceRank = 4 →
          distanceKm winner other ≤ contradictionKm := by
  have hle := winner.evidenceRank_le
  have hrivals : preciseRivals distanceKm winner (Ranking.rankBy qualityKey candidates) = [] ↔
      ∀ other ∈ candidates, other ≠ winner → other.evidenceRank = 4 →
        distanceKm winner other ≤ contradictionKm := by
    simp only [List.eq_nil_iff_forall_not_mem, mem_preciseRivals_iff, Ranking.mem_rankBy]
    constructor
    · intro hnone other hmem hne hrank
      exact not_lt.mp fun hfar => hnone other ⟨hmem, hne, hfar, hrank⟩
    · rintro hnear other ⟨hmem, hne, hfar, hrank⟩
      exact absurd hfar (not_lt.mpr (hnear other hmem hne hrank))
  rw [← hrivals]
  have hiff : (decisionOf distanceKm winner second onlineLeft
      (Ranking.rankBy qualityKey candidates) considered succeeded).accuracyClass = .precise ↔
      (decide (4 ≤ winner.evidenceRank) &&
        (preciseRivals distanceKm winner (Ranking.rankBy qualityKey candidates)).isEmpty) =
          true := by
    simp only [decisionOf]
    split <;> simp_all
  rw [hiff, Bool.and_eq_true, decide_eq_true_iff, List.isEmpty_iff]
  constructor
  · rintro ⟨hrank, hnone⟩
    exact ⟨by omega, hnone⟩
  · rintro ⟨hrank, hnone⟩
    exact ⟨by omega, hnone⟩

theorem accuracyClass_decisionOf_ne {winner : GeoCandidate} {second : Option GeoCandidate}
    {onlineLeft : Bool} {ranked : List GeoCandidate} {considered succeeded : List Source} :
    (decisionOf distanceKm winner second onlineLeft ranked considered succeeded).accuracyClass ≠
      .unknown := by
  simp only [decisionOf]
  split <;> simp

/-- What names the place of the selected candidate. -/
theorem place_decisionOf {winner place : GeoCandidate} {second : Option GeoCandidate}
    {onlineLeft : Bool} {considered succeeded : List Source}
    (hplace : (decisionOf distanceKm winner second onlineLeft
      (Ranking.rankBy qualityKey candidates) considered succeeded).place = some place) :
    winner.dataLevel < levelCity ∧ place ∈ candidates ∧ place.dataLevel = levelCity ∧
      (given winner.countryCode = true → place.countryCode = winner.countryCode) ∧
        distanceKm winner place ≤ max contradictionKm (winner.accuracyRadiusKm.getD 0) := by
  have hupgrade : textUpgrade distanceKm winner (Ranking.rankBy qualityKey candidates) =
      some place := hplace
  unfold textUpgrade at hupgrade
  split_ifs at hupgrade with hlevel
  have hmem := List.mem_of_find?_eq_some hupgrade
  have hnames := List.find?_some hupgrade
  simp only [namesPlace, Bool.and_eq_true, decide_eq_true_iff, Bool.not_eq_true',
    Bool.and_eq_false_iff, decide_eq_false_iff_not, not_not] at hnames
  obtain ⟨⟨⟨-, hcity⟩, hcountry⟩, hnear⟩ := hnames
  refine ⟨not_le.mp hlevel, Ranking.mem_rankBy.mp hmem,
    le_antisymm place.dataLevel_le hcity, fun hgiven => ?_, hnear⟩
  exact hcountry.resolve_left (by simp [hgiven])

theorem place_decisionOf_city {winner : GeoCandidate} {second : Option GeoCandidate}
    {onlineLeft : Bool} {ranked : List GeoCandidate} {considered succeeded : List Source}
    (hlevel : levelCity ≤ winner.dataLevel) :
    (decisionOf distanceKm winner second onlineLeft ranked considered succeeded).placeName =
      winner.city := by
  have hplace : (decisionOf distanceKm winner second onlineLeft ranked considered
      succeeded).place = none := if_pos hlevel
  unfold GeoDecision.placeName
  rw [hplace]
  rfl

/-! ## Independence of online data -/

theorem mem_pool_iff {candidate : GeoCandidate} :
    candidate ∈ pool (Ranking.rankBy qualityKey candidates) ↔ candidate ∈ candidates ∧
      (candidate.isLocal = true ∨ ∀ other ∈ candidates, other.isLocal = false) := by
  unfold pool
  dsimp only
  split_ifs with hlocal
  · have hnone : ∀ other ∈ candidates, other.isLocal = false := by
      simpa [List.filter_eq_nil_iff] using hlocal
    rw [Ranking.mem_rankBy]
    exact ⟨fun hmem => ⟨hmem, Or.inr hnone⟩, And.left⟩
  · obtain ⟨other, hother⟩ := List.exists_mem_of_ne_nil _ hlocal
    rw [List.mem_filter, Ranking.mem_rankBy] at hother
    rw [List.mem_filter, Ranking.mem_rankBy]
    refine and_congr_right fun _ => ⟨Or.inl, fun hcase => hcase.resolve_right fun hnone => ?_⟩
    simp [hnone other hother.1] at hother

/-- The winner has the best evidence of what may be selected. -/
theorem evidenceRank_le_selected {winner : GeoCandidate} {considered : List Source}
    (hselected : (select distanceKm candidates considered).selected = some winner)
    {other : GeoCandidate} (hother : other ∈ pool (Ranking.rankBy qualityKey candidates)) :
    other.evidenceRank ≤ winner.evidenceRank := by
  rw [selected_eq_head] at hselected
  obtain ⟨rest, hpool⟩ := List.head?_eq_some_iff.mp hselected
  have hsub : (pool (Ranking.rankBy qualityKey candidates)).Sublist
      (Ranking.rankBy qualityKey candidates) := by
    unfold pool
    dsimp only
    split_ifs
    · exact List.Sublist.refl _
    · exact List.filter_sublist
  have hsorted := (Ranking.rankBy_pairwise qualityKey candidates).sublist hsub
  rw [hpool] at hsorted hother
  exact evidenceRank_le_of_qualityKey_le (Ranking.le_head hsorted hother)

/-- The winner is the same for all candidates with the same local ones. -/
theorem selected_eq_of_local {other : List GeoCandidate}
    (hsources : (candidates.map source).Nodup) (hsources' : (other.map source).Nodup)
    (hlocal : ∃ candidate ∈ candidates, candidate.isLocal = true)
    (hperm : (candidates.filter isLocal).Perm (other.filter isLocal))
    (considered considered' : List Source) :
    (select distanceKm candidates considered).selected =
      (select distanceKm other considered').selected := by
  have hlocal' : ∃ candidate ∈ other, candidate.isLocal = true := by
    obtain ⟨candidate, hmem, hislocal⟩ := hlocal
    have hother := hperm.mem_iff.mp (List.mem_filter.mpr ⟨hmem, hislocal⟩)
    exact ⟨candidate, (List.mem_filter.mp hother).1, hislocal⟩
  have hkeys : ((candidates.filter isLocal).map qualityKey).Nodup :=
    (nodup_qualityKey hsources).sublist (List.filter_sublist.map _)
  rw [selected_eq_head, selected_eq_head, pool_rankBy hsources hlocal,
    pool_rankBy hsources' hlocal', Ranking.rankBy_eq_of_perm hkeys hperm]

theorem isLocal_of_evidenceRank {candidate : GeoCandidate} (hrank : candidate.evidenceRank = 4) :
    candidate.isLocal = true := by
  by_contra honline
  have hone := evidenceRank_online (Bool.eq_false_iff.mpr honline)
  omega

/-- Whether the class is precise depends on the local candidates. -/
theorem accuracyClass_eq_of_local {other : List GeoCandidate} {winner : GeoCandidate}
    {considered considered' : List Source}
    (hperm : (candidates.filter isLocal).Perm (other.filter isLocal))
    (hselected : (select distanceKm candidates considered).selected = some winner)
    (hselected' : (select distanceKm other considered').selected = some winner) :
    (select distanceKm candidates considered).accuracyClass =
      (select distanceKm other considered').accuracyClass := by
  obtain ⟨second, onlineLeft, succeeded, hselect⟩ := select_of_selected hselected
  obtain ⟨second', onlineLeft', succeeded', hselect'⟩ := select_of_selected hselected'
  have hsame : ∀ rival, rival.evidenceRank = 4 → (rival ∈ candidates ↔ rival ∈ other) := by
    intro rival hrank
    have hmem := hperm.mem_iff (a := rival)
    simpa [List.mem_filter, isLocal_of_evidenceRank hrank] using hmem
  have hiff : (select distanceKm candidates considered).accuracyClass = .precise ↔
      (select distanceKm other considered').accuracyClass = .precise := by
    rw [hselect, hselect', accuracyClass_decisionOf, accuracyClass_decisionOf]
    refine and_congr_right fun _ => ⟨fun hnear rival hmem hne hrank => ?_,
      fun hnear rival hmem hne hrank => ?_⟩
    · exact hnear rival ((hsame rival hrank).mpr hmem) hne hrank
    · exact hnear rival ((hsame rival hrank).mp hmem) hne hrank
  have hknown : (select distanceKm candidates considered).accuracyClass ≠ .unknown :=
    hselect ▸ accuracyClass_decisionOf_ne
  have hknown' : (select distanceKm other considered').accuracyClass ≠ .unknown :=
    hselect' ▸ accuracyClass_decisionOf_ne
  cases hclass : (select distanceKm candidates considered).accuracyClass with
  | precise => exact (hiff.mp hclass).symm
  | approximate =>
      cases hclass' : (select distanceKm other considered').accuracyClass with
      | precise => exact absurd (hiff.mpr hclass') (by simp [hclass])
      | approximate => rfl
      | unknown => exact absurd hclass' hknown'
  | unknown => exact absurd hclass hknown

/-- How a location decision rests on the evidence. -/
structure DecidedByEvidence (distanceKm : GeoCandidate → GeoCandidate → ℚ)
    (candidates : List GeoCandidate) (considered : List Source) : Prop where
  order : ∀ other, candidates.Perm other →
    select distanceKm other considered = select distanceKm candidates considered
  online : (∃ candidate ∈ candidates, candidate.isLocal = true) →
    ∀ other considered', (other.map source).Nodup →
      (candidates.filter isLocal).Perm (other.filter isLocal) →
        ∃ winner, (select distanceKm candidates considered).selected = some winner ∧
          (select distanceKm other considered').selected = some winner ∧
          (select distanceKm other considered').accuracyClass =
            (select distanceKm candidates considered).accuracyClass ∧
          (levelCity ≤ winner.dataLevel →
            (select distanceKm other considered').placeName =
              (select distanceKm candidates considered).placeName)
  place : ∀ place, (select distanceKm candidates considered).place = some place →
    place ∈ candidates ∧ place.dataLevel = levelCity ∧
      ∃ winner, (select distanceKm candidates considered).selected = some winner ∧
        winner.dataLevel < levelCity ∧
        (given winner.countryCode = true → place.countryCode = winner.countryCode) ∧
        distanceKm winner place ≤ max contradictionKm (winner.accuracyRadiusKm.getD 0)
  precise : (select distanceKm candidates considered).accuracyClass = .precise ↔
    ∃ winner, (select distanceKm candidates considered).selected = some winner ∧
      winner.evidenceRank = 4 ∧ ∀ other ∈ candidates, other ≠ winner → other.evidenceRank = 4 →
        distanceKm winner other ≤ contradictionKm
  best : ∀ winner, (select distanceKm candidates considered).selected = some winner →
    winner ∈ candidates ∧ ∀ other ∈ candidates,
      (other.isLocal = true ∨ ∀ candidate ∈ candidates, candidate.isLocal = false) →
        other.evidenceRank ≤ winner.evidenceRank

theorem select_none {considered : List Source}
    (hselected : (select distanceKm candidates considered).selected = none) :
    (select distanceKm candidates considered).accuracyClass = .unknown ∧
      (select distanceKm candidates considered).place = none := by
  rw [selected_eq_head, List.head?_eq_none_iff] at hselected
  simp [select, hselected]

/-- The location decision depends on the evidence, for every distance. -/
theorem location_is_decided_by_evidence (distanceKm : GeoCandidate → GeoCandidate → ℚ)
    {candidates : List GeoCandidate} (hsources : (candidates.map source).Nodup)
    (considered : List Source) : DecidedByEvidence distanceKm candidates considered := by
  constructor
  · exact fun other hperm => (select_eq_of_perm hsources hperm considered).symm
  · intro hlocal other considered' hsources' hperm
    have heq : (select distanceKm candidates considered).selected =
        (select distanceKm other considered').selected :=
      selected_eq_of_local hsources hsources' hlocal hperm considered considered'
    cases hselected : (select distanceKm candidates considered).selected with
    | none =>
        obtain ⟨candidate, hmem, hislocal⟩ := hlocal
        rw [selected_eq_head, List.head?_eq_none_iff] at hselected
        have hin := mem_pool_iff.mpr ⟨hmem, Or.inl hislocal⟩
        simp [hselected] at hin
    | some winner =>
        have hselected' := heq.symm.trans hselected
        refine ⟨winner, rfl, hselected', ?_, fun hlevel => ?_⟩
        · exact (accuracyClass_eq_of_local hperm hselected hselected').symm
        · obtain ⟨second, onlineLeft, succeeded, hselect⟩ := select_of_selected hselected
          obtain ⟨second', onlineLeft', succeeded', hselect'⟩ := select_of_selected hselected'
          rw [hselect, hselect', place_decisionOf_city hlevel, place_decisionOf_city hlevel]
  · intro place hplace
    cases hselected : (select distanceKm candidates considered).selected with
    | none => simp [(select_none hselected).2] at hplace
    | some winner =>
        obtain ⟨second, onlineLeft, succeeded, hselect⟩ := select_of_selected hselected
        rw [hselect] at hplace
        obtain ⟨hlevel, hmem, hcity, hcountry, hnear⟩ := place_decisionOf hplace
        exact ⟨hmem, hcity, winner, rfl, hlevel, hcountry, hnear⟩
  · cases hselected : (select distanceKm candidates considered).selected with
    | none => simp [(select_none hselected).1]
    | some winner =>
        obtain ⟨second, onlineLeft, succeeded, hselect⟩ := select_of_selected hselected
        rw [hselect, accuracyClass_decisionOf]
        simp
  · intro winner hselected
    have hpooled : winner ∈ pool (Ranking.rankBy qualityKey candidates) := by
      rw [selected_eq_head] at hselected
      exact List.mem_of_mem_head? hselected
    refine ⟨(mem_pool_iff.mp hpooled).1, fun other hmem hcase => ?_⟩
    exact evidenceRank_le_selected hselected (mem_pool_iff.mpr ⟨hmem, hcase⟩)

end Decision

def geolite : GeoCandidate where
  source := .geolite2
  latitude := 48
  longitude := 9
  accuracyRadiusKm := some 500

def online : GeoCandidate where
  source := .ipwho
  latitude := 48
  longitude := 13
  city := some "Linz"
  countryCode := some "AT"

/-- Two claims are 300 km apart when they differ. -/
def farApart (first second : GeoCandidate) : ℚ := if first = second then 0 else 300

theorem location_is_decided_by_evidence_pair :
    DecidedByEvidence farApart [geolite, online] sourcePriority :=
  location_is_decided_by_evidence farApart (by decide) sourcePriority

/-- An online claim farther away than the contradiction distance, and of a country where the
selected claim has none, names the place. -/
theorem online_names_place_far_away :
    (select farApart [geolite] sourcePriority).placeName = none ∧
      (select farApart [geolite, online] sourcePriority).selected = some geolite ∧
      (select farApart [geolite, online] sourcePriority).placeName = some "Linz" ∧
      online.countryCode ≠ geolite.countryCode ∧
      contradictionKm < farApart geolite online := by
  decide +kernel

end Justup.Geo.Resolver
