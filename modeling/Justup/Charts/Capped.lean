import Justup.Charts.StepLine
import Justup.Lib.Increasing

/-!
# Capping the step line

`_limit_availability_points` groups the outages with their neighbours into
episodes and keeps the newest episodes that fit.
-/

namespace Justup.Charts

open Justup.Lib

/-! ## The model -/

/-- The positions `i` of the points that are not up, in ascending order. -/
def outagePositions (points : List Entry) : List ℕ :=
  (points.zipIdx.filter fun numbered => numbered.1.isOutage).map Prod.snd

/-- One turn of the first loop: the outage at `i` extends the newest episode or
begins one.  Episodes are pairs `(lo, hi)`, the newest first. -/
def addEpisode (last : ℕ) (episodes : List (ℕ × ℕ)) (i : ℕ) : List (ℕ × ℕ) :=
  let lo := i - 1
  let hi := min (i + 1) last
  match episodes with
  | [] => [(lo, hi)]
  | newest :: older =>
      if lo ≤ newest.2 + 1 then (newest.1, hi) :: older else (lo, hi) :: newest :: older

/-- The second loop: every episode is kept while the budget lasts. -/
def spend (budget : ℕ) (keep : Finset ℕ) : List (ℕ × ℕ) → Finset ℕ
  | [] => keep
  | (lo, hi) :: older =>
      let size := hi + 1 - lo
      let free := budget - keep.card
      if free = 0 then keep
      -- an oversized episode keeps its newest points
      else if free < size then spend budget (keep ∪ Finset.Icc (max lo (hi + 1 - free)) hi) older
      else spend budget (keep ∪ Finset.Icc lo hi) older

/-- `episodes` after the first loop. -/
def episodesOf (points : List Entry) : List (ℕ × ℕ) :=
  (outagePositions points).foldl (addEpisode (points.length - 1)) []

/-- `keep` before the second loop: the last point, unless an episode ends there. -/
def newestOutside (last : ℕ) (episodes : List (ℕ × ℕ)) : Finset ℕ :=
  if episodes.head?.map Prod.snd = some last then ∅ else {last}

/-- `max(int(limit), 1)`. -/
def budgetOf (limit : ℤ) : ℕ := (max limit 1).toNat

/-- `_limit_availability_points`. -/
def limitAvailabilityPoints (points : List Entry) (limit : ℤ) : List Entry :=
  if points.length ≤ budgetOf limit then points
  else
    let episodes := episodesOf points
    let keep := newestOutside (points.length - 1) episodes
    entriesAt points (spend (budgetOf limit) keep episodes)

/-! ## Episodes -/

/-- The positions that the episodes cover. -/
def covered : List (ℕ × ℕ) → Finset ℕ
  | [] => ∅
  | (lo, hi) :: older => Finset.Icc lo hi ∪ covered older

@[simp]
theorem covered_nil : covered [] = ∅ := rfl

@[simp]
theorem mem_covered_cons {episode : ℕ × ℕ} {older : List (ℕ × ℕ)} {j : ℕ} :
    j ∈ covered (episode :: older) ↔ (episode.1 ≤ j ∧ j ≤ episode.2) ∨ j ∈ covered older := by
  simp [covered]

theorem mem_covered {episodes : List (ℕ × ℕ)} {j : ℕ} :
    j ∈ covered episodes ↔ ∃ episode ∈ episodes, episode.1 ≤ j ∧ j ≤ episode.2 := by
  induction episodes with
  | nil => simp
  | cons episode older ih => simp [ih]

/-- Every episode begins two positions or more behind the end of the older ones. -/
def Separated (episodes : List (ℕ × ℕ)) : Prop :=
  episodes.Pairwise fun newer older => older.2 + 1 < newer.1

/-- `j` is the position `i` of an outage or next to it. -/
def Near (last i j : ℕ) : Prop := i ≤ j + 1 ∧ j ≤ i + 1 ∧ j ≤ last

theorem near_iff {last i j : ℕ} : Near last i j ↔ i - 1 ≤ j ∧ j ≤ min (i + 1) last := by
  unfold Near
  omega

theorem exists_near_snoc {last i j : ℕ} {seen : List ℕ} :
    (∃ k ∈ seen ++ [i], Near last k j) ↔ (∃ k ∈ seen, Near last k j) ∨ Near last i j := by
  simp [or_and_right, exists_or]

/-- What the episodes are after the outages at the positions `seen`. -/
structure EpisodesOf (last : ℕ) (seen : List ℕ) (episodes : List (ℕ × ℕ)) : Prop where
  separated : Separated episodes
  begins : ∀ episode ∈ episodes, ∃ i ∈ seen, episode.1 = i - 1
  nonempty : ∀ episode ∈ episodes, episode.1 ≤ episode.2
  covers : ∀ j, j ∈ covered episodes ↔ ∃ i ∈ seen, Near last i j

theorem EpisodesOf.ends_le {last : ℕ} {seen : List ℕ} {episodes : List (ℕ × ℕ)}
    (hepisodes : EpisodesOf last seen episodes) {episode : ℕ × ℕ} (hmem : episode ∈ episodes) :
    ∃ i ∈ seen, episode.2 ≤ i + 1 ∧ episode.2 ≤ last := by
  have hcovered : episode.2 ∈ covered episodes :=
    mem_covered.mpr ⟨episode, hmem, hepisodes.nonempty episode hmem, le_rfl⟩
  obtain ⟨i, hi, -, hle, hlast⟩ := (hepisodes.covers _).mp hcovered
  exact ⟨i, hi, hle, hlast⟩

theorem episodesOf_nil (last : ℕ) : EpisodesOf last [] [] where
  separated := List.Pairwise.nil
  begins := by simp
  nonempty := by simp
  covers := by simp

/-- One more outage, behind all those seen so far. -/
theorem EpisodesOf.add {last : ℕ} {seen : List ℕ} {episodes : List (ℕ × ℕ)}
    (hepisodes : EpisodesOf last seen episodes) {i : ℕ} (hnewer : ∀ k ∈ seen, k < i)
    (hlast : i ≤ last) : EpisodesOf last (seen ++ [i]) (addEpisode last episodes i) := by
  cases episodes with
  | nil =>
      refine ⟨List.pairwise_singleton _ _, ?_, ?_, fun j => ?_⟩
      · simp [addEpisode]
      · simp only [addEpisode, List.mem_singleton, forall_eq]
        omega
      · rw [exists_near_snoc, ← hepisodes.covers j]
        simp [addEpisode, near_iff]
  | cons newest older =>
      obtain ⟨first, hfirst, hlo⟩ := hepisodes.begins newest (List.mem_cons_self ..)
      obtain ⟨latest, hlatest, hhi, hhilast⟩ := hepisodes.ends_le (List.mem_cons_self ..)
      have hbefore := hnewer first hfirst
      have hafter := hnewer latest hlatest
      have hnonempty := hepisodes.nonempty newest (List.mem_cons_self ..)
      obtain ⟨hapart, holder⟩ := List.pairwise_cons.mp hepisodes.separated
      unfold addEpisode
      simp only
      split
      next hmerge =>
        refine ⟨List.pairwise_cons.mpr ⟨hapart, holder⟩, ?_, ?_, fun j => ?_⟩
        · rintro episode (_ | ⟨_, hmem⟩)
          · exact ⟨first, by simp [hfirst], hlo⟩
          · obtain ⟨k, hk, heq⟩ := hepisodes.begins episode (List.mem_cons_of_mem _ hmem)
            exact ⟨k, by simp [hk], heq⟩
        · rintro episode (_ | ⟨_, hmem⟩)
          · change newest.1 ≤ min (i + 1) last
            omega
          · exact hepisodes.nonempty episode (List.mem_cons_of_mem _ hmem)
        · -- the merged episode covers the newest one and the neighbours of `i`
          have hsplit : (newest.1 ≤ j ∧ j ≤ min (i + 1) last) ↔
              (newest.1 ≤ j ∧ j ≤ newest.2) ∨ Near last i j := by
            unfold Near
            omega
          rw [exists_near_snoc, ← hepisodes.covers j, mem_covered_cons, mem_covered_cons, hsplit]
          exact or_right_comm
      next hapart' =>
        refine ⟨List.pairwise_cons.mpr ⟨?_, hepisodes.separated⟩, ?_, ?_, fun j => ?_⟩
        · rintro episode (_ | ⟨_, hmem⟩)
          · change newest.2 + 1 < i - 1
            omega
          · have := hapart episode hmem
            change episode.2 + 1 < i - 1
            omega
        · rintro episode (_ | ⟨_, hmem⟩)
          · exact ⟨i, by simp, rfl⟩
          · obtain ⟨k, hk, heq⟩ := hepisodes.begins episode hmem
            exact ⟨k, by simp [hk], heq⟩
        · rintro episode (_ | ⟨_, hmem⟩)
          · change i - 1 ≤ min (i + 1) last
            omega
          · exact hepisodes.nonempty episode hmem
        · rw [exists_near_snoc, ← hepisodes.covers j, mem_covered_cons, near_iff]
          exact or_comm

theorem episodesOf_foldl {last : ℕ} {seen coming : List ℕ} {episodes : List (ℕ × ℕ)}
    (hepisodes : EpisodesOf last seen episodes) (hsorted : (seen ++ coming).Pairwise (· < ·))
    (hlast : ∀ i ∈ coming, i ≤ last) :
    EpisodesOf last (seen ++ coming) (coming.foldl (addEpisode last) episodes) := by
  induction coming generalizing seen episodes with
  | nil => simpa using hepisodes
  | cons i coming ih =>
      have hnewer : ∀ k ∈ seen, k < i := fun k hk =>
        (List.pairwise_append.mp hsorted).2.2 k hk i (List.mem_cons_self ..)
      rw [List.append_cons] at hsorted ⊢
      exact ih (hepisodes.add hnewer (hlast i (List.mem_cons_self ..))) hsorted
        fun k hk => hlast k (List.mem_cons_of_mem _ hk)

/-! ## Positions of a list -/

theorem pairwise_zipIdx (points : List Entry) :
    points.zipIdx.Pairwise fun earlier later => earlier.2 < later.2 := by
  refine List.pairwise_iff_getElem.mpr fun i j hi hj hij => ?_
  simpa using hij

theorem mem_outagePositions {points : List Entry} {i : ℕ} :
    i ∈ outagePositions points ↔ ∃ entry, points[i]? = some entry ∧ entry.isOutage := by
  simp only [outagePositions, List.mem_map, List.mem_filter, Prod.exists, exists_eq_right,
    List.mk_mem_zipIdx_iff_getElem?]

theorem episodesOf_spec (points : List Entry) :
    EpisodesOf (points.length - 1) (outagePositions points) (episodesOf points) := by
  refine episodesOf_foldl (episodesOf_nil _) ?_ fun i hi => ?_
  · exact (List.pairwise_map.mpr ((pairwise_zipIdx points).filter _))
  · obtain ⟨entry, hentry, -⟩ := mem_outagePositions.mp hi
    obtain ⟨hlt, -⟩ := List.getElem?_eq_some_iff.mp hentry
    omega

theorem zipIdx_map_fst_filter (points : List Entry) (p : Entry → Bool) :
    (points.zipIdx.filter fun numbered => p numbered.1).map Prod.fst = points.filter p := by
  conv_rhs => rw [← List.zipIdx_map_fst 0 points, List.filter_map]
  rfl

theorem entriesAt_sublist (points : List Entry) (keep : Finset ℕ) :
    (entriesAt points keep).Sublist points := by
  conv_rhs => rw [← List.zipIdx_map_fst 0 points]
  exact List.filter_sublist.map Prod.fst

theorem entriesAt_range (points : List Entry) :
    entriesAt points (Finset.range points.length) = points := by
  have hall : ∀ numbered ∈ points.zipIdx,
      decide (numbered.2 ∈ Finset.range points.length) = true := by
    rintro ⟨entry, i⟩ hmem
    rw [List.mk_mem_zipIdx_iff_getElem?] at hmem
    obtain ⟨hlt, -⟩ := List.getElem?_eq_some_iff.mp hmem
    exact decide_eq_true (Finset.mem_range.mpr hlt)
  rw [entriesAt, List.filter_eq_self.mpr hall, List.zipIdx_map_fst]

theorem length_entriesAt_le (points : List Entry) (keep : Finset ℕ) :
    (entriesAt points keep).length ≤ keep.card := by
  set positions := (points.zipIdx.filter fun numbered => decide (numbered.2 ∈ keep)).map Prod.snd
    with hpositions
  have hnodup : positions.Nodup :=
    (List.pairwise_map.mpr ((pairwise_zipIdx points).filter _)).imp Nat.ne_of_lt
  have hsub : positions.toFinset ⊆ keep := by
    intro i hi
    obtain ⟨numbered, hnumbered, rfl⟩ := List.mem_map.mp (List.mem_toFinset.mp hi)
    exact of_decide_eq_true (List.mem_filter.mp hnumbered).2
  calc (entriesAt points keep).length = positions.length := by simp [entriesAt, positions]
    _ = positions.toFinset.card := (List.toFinset_card_of_nodup hnodup).symm
    _ ≤ keep.card := Finset.card_le_card hsub

theorem getLast?_entriesAt {points : List Entry} {keep : Finset ℕ}
    (hkept : points.length - 1 ∈ keep) : (entriesAt points keep).getLast? = points.getLast? := by
  induction points using List.reverseRecOn with
  | nil => rfl
  | append_singleton points entry =>
      have hlast : points.length ∈ keep := by simpa using hkept
      simp [entriesAt, List.zipIdx_append, hlast]

/-- The outages among the kept entries, when these are the outages from a
position on. -/
theorem filter_entriesAt {points : List Entry} {keep : Finset ℕ} {threshold : ℕ}
    (hkeep : ∀ i ∈ outagePositions points, i ∈ keep ↔ threshold ≤ i) :
    (entriesAt points keep).filter Entry.isOutage =
      ((points.zipIdx.filter fun numbered => numbered.1.isOutage).filter
        fun numbered => decide (threshold ≤ numbered.2)).map Prod.fst := by
  rw [entriesAt, List.filter_map, List.filter_filter, List.filter_filter]
  congr 1
  refine List.filter_congr fun numbered hnumbered => ?_
  by_cases houtage : numbered.1.isOutage = true
  · have hmem : numbered.2 ∈ outagePositions points :=
      List.mem_map_of_mem (List.mem_filter.mpr ⟨hnumbered, houtage⟩)
    simp [houtage, hkeep numbered.2 hmem]
  · simp [houtage]

theorem filter_entriesAt_suffix {points : List Entry} {keep : Finset ℕ} {threshold : ℕ}
    (hkeep : ∀ i ∈ outagePositions points, i ∈ keep ↔ threshold ≤ i) :
    (entriesAt points keep).filter Entry.isOutage <:+ points.filter Entry.isOutage := by
  rw [filter_entriesAt hkeep, ← zipIdx_map_fst_filter]
  set outages := points.zipIdx.filter fun numbered => numbered.1.isOutage with houtages
  have hcut : outages.filter (fun numbered => decide (numbered.2 < threshold)) ++
      outages.filter (fun numbered => !decide (numbered.2 < threshold)) = outages := by
    refine Increasing.filter_append_filter_not (fun a b hab hba => Nat.lt_asymm hab hba)
      ((pairwise_zipIdx points).filter _) _ fun a _ b _ hearly hlate => ?_
    simp only [decide_eq_true_eq, decide_eq_false_iff_not] at hearly hlate
    omega
  refine List.IsSuffix.map Prod.fst
    ⟨outages.filter fun numbered => decide (numbered.2 < threshold), ?_⟩
  conv_rhs => rw [← hcut]
  congr 1
  refine List.filter_congr fun numbered _ => ?_
  rw [← decide_not]
  exact decide_eq_decide.mpr Nat.not_lt.symm

/-! ## Spending the budget -/

theorem subset_spend (budget : ℕ) (keep : Finset ℕ) (episodes : List (ℕ × ℕ)) :
    keep ⊆ spend budget keep episodes := by
  induction episodes generalizing keep with
  | nil => exact Finset.Subset.refl _
  | cons episode older ih =>
      unfold spend
      simp only
      split
      · exact Finset.Subset.refl _
      · split
        · exact Finset.subset_union_left.trans (ih _)
        · exact Finset.subset_union_left.trans (ih _)

/-- Nothing is added to a set that fills the budget. -/
theorem spend_of_full {budget : ℕ} {keep : Finset ℕ} (hfull : budget ≤ keep.card)
    (episodes : List (ℕ × ℕ)) : spend budget keep episodes = keep := by
  cases episodes with
  | nil => rfl
  | cons episode older =>
      unfold spend
      simp only
      rw [if_pos (Nat.sub_eq_zero_of_le hfull)]

theorem Separated.lt_of_mem {lo hi : ℕ} {older : List (ℕ × ℕ)}
    (hseparated : Separated ((lo, hi) :: older)) {j : ℕ} (hmem : j ∈ covered older) : j < lo := by
  obtain ⟨episode, hepisode, -, hle⟩ := mem_covered.mp hmem
  have hapart := (List.pairwise_cons.mp hseparated).1 episode hepisode
  omega

/-- What one episode adds, the whole of it or its newest points, is apart from what is kept. -/
theorem card_union_Icc {keep : Finset ℕ} {lo hi : ℕ}
    (hdisjoint : ∀ j ∈ keep, ¬ (lo ≤ j ∧ j ≤ hi)) :
    (keep ∪ Finset.Icc lo hi).card = keep.card + (hi + 1 - lo) := by
  rw [Finset.card_union_of_disjoint, Nat.card_Icc]
  refine Finset.disjoint_left.mpr fun j hj hmem => hdisjoint j hj ?_
  simpa using hmem

/-- The budget goes to the newest positions of the episodes: what is kept of them
is all that lies at or above a threshold, and it is at most the budget. -/
structure Spent (budget : ℕ) (keep : Finset ℕ) (episodes : List (ℕ × ℕ)) : Prop where
  newest : ∃ threshold, ∀ j,
    j ∈ spend budget keep episodes ↔ j ∈ keep ∨ (j ∈ covered episodes ∧ threshold ≤ j)
  atMost : keep.card ≤ budget → (spend budget keep episodes).card ≤ budget
  whole : (keep ∪ covered episodes).card ≤ budget →
    spend budget keep episodes = keep ∪ covered episodes
  head : keep.card < budget → ∀ episode ∈ episodes.head?, episode.2 ∈ spend budget keep episodes

theorem spent {budget : ℕ} {keep : Finset ℕ} {episodes : List (ℕ × ℕ)}
    (hseparated : Separated episodes) (hnonempty : ∀ episode ∈ episodes, episode.1 ≤ episode.2)
    (hdisjoint : ∀ j ∈ keep, j ∉ covered episodes) : Spent budget keep episodes := by
  induction episodes generalizing keep with
  | nil => exact ⟨⟨0, by simp [spend]⟩, id, fun _ => by simp [spend], by simp⟩
  | cons episode older ih =>
      obtain ⟨lo, hi⟩ := episode
      have hlo : lo ≤ hi := hnonempty (lo, hi) (List.mem_cons_self ..)
      have hbelow : ∀ j ∈ covered older, j < lo := fun j hj => hseparated.lt_of_mem hj
      have hapart : ∀ j ∈ keep, ¬ (lo ≤ j ∧ j ≤ hi) := fun j hj hin =>
        hdisjoint j hj (mem_covered_cons.mpr (Or.inl hin))
      by_cases hfull : budget ≤ keep.card
      · have hspend := spend_of_full hfull ((lo, hi) :: older)
        refine ⟨⟨hi + 1, fun j => ?_⟩, fun hle => ?_, fun hle => ?_, fun hlt => ?_⟩
        · rw [hspend, mem_covered_cons]
          have := hbelow j
          constructor
          · exact Or.inl
          · rintro (hkeep | ⟨hin | holder, hle⟩)
            · exact hkeep
            · omega
            · have := hbelow j holder
              omega
        · rwa [hspend]
        · rw [hspend]
          exact Finset.eq_of_subset_of_card_le Finset.subset_union_left (hle.trans hfull)
        · omega
      · have hfree : ¬ budget - keep.card = 0 := by omega
        by_cases hsize : budget - keep.card < hi + 1 - lo
        · -- the episode is cut, and the budget is used up
          set from_ := max lo (hi + 1 - (budget - keep.card)) with hfrom
          have hcard : (keep ∪ Finset.Icc from_ hi).card = budget := by
            rw [card_union_Icc fun j hj hin => hapart j hj (by omega)]
            omega
          have hspend : spend budget keep ((lo, hi) :: older) = keep ∪ Finset.Icc from_ hi := by
            rw [← spend_of_full hcard.ge older, spend, if_neg hfree, if_pos hsize]
          refine ⟨⟨from_, fun j => ?_⟩, fun _ => ?_, fun hle => ?_, fun _ => ?_⟩
          · rw [hspend, mem_covered_cons, Finset.mem_union, Finset.mem_Icc]
            have := hbelow j
            constructor
            · rintro (hkeep | hin)
              · exact Or.inl hkeep
              · exact Or.inr ⟨Or.inl (by omega), hin.1⟩
            · rintro (hkeep | ⟨hin | holder, hle⟩)
              · exact Or.inl hkeep
              · exact Or.inr ⟨hle, hin.2⟩
              · have := hbelow j holder
                omega
          · rw [hspend, hcard]
          · -- the whole of it does not fit
            have hsub : keep ∪ Finset.Icc lo hi ⊆ keep ∪ covered ((lo, hi) :: older) :=
              Finset.union_subset_union_right Finset.subset_union_left
            have := Finset.card_le_card hsub
            rw [card_union_Icc hapart] at this
            omega
          · rintro episode ⟨⟩
            rw [hspend]
            simp only [Finset.mem_union, Finset.mem_Icc]
            omega
        · have hspend : spend budget keep ((lo, hi) :: older) =
              spend budget (keep ∪ Finset.Icc lo hi) older := by
            rw [spend, if_neg hfree, if_neg hsize]
          have hcard := card_union_Icc hapart
          have hrest : Spent budget (keep ∪ Finset.Icc lo hi) older := by
            refine ih (List.pairwise_cons.mp hseparated).2
              (fun episode hmem => hnonempty episode (List.mem_cons_of_mem _ hmem)) ?_
            intro j hj holder
            rcases Finset.mem_union.mp hj with hkeep | hin
            · exact hdisjoint j hkeep (mem_covered_cons.mpr (Or.inr holder))
            · have := hbelow j holder
              simp only [Finset.mem_Icc] at hin
              omega
          obtain ⟨threshold, hnewest⟩ := hrest.newest
          refine ⟨⟨min threshold lo, fun j => ?_⟩, fun _ => ?_, fun hle => ?_, fun _ => ?_⟩
          · rw [hspend, hnewest, mem_covered_cons, Finset.mem_union, Finset.mem_Icc]
            constructor
            · rintro ((hkeep | hin) | ⟨holder, hle⟩)
              · exact Or.inl hkeep
              · exact Or.inr ⟨Or.inl hin, by omega⟩
              · exact Or.inr ⟨Or.inr holder, by omega⟩
            · rintro (hkeep | ⟨hin | holder, hle⟩)
              · exact Or.inl (Or.inl hkeep)
              · exact Or.inl (Or.inr hin)
              · have := hbelow j holder
                exact Or.inr ⟨holder, by omega⟩
          · rw [hspend]
            exact hrest.atMost (by omega)
          · rw [hspend, hrest.whole (by rwa [Finset.union_assoc])]
            exact Finset.union_assoc ..
          · rintro episode ⟨⟩
            rw [hspend]
            refine subset_spend budget _ older ?_
            simp only [Finset.mem_union, Finset.mem_Icc]
            omega

/-! ## The kept positions -/

/-- The positions of the points that `_limit_availability_points` returns. -/
def keptPositions (points : List Entry) (limit : ℤ) : Finset ℕ :=
  if points.length ≤ budgetOf limit then Finset.range points.length
  else
    spend (budgetOf limit) (newestOutside (points.length - 1) (episodesOf points))
      (episodesOf points)

theorem limitAvailabilityPoints_eq (points : List Entry) (limit : ℤ) :
    limitAvailabilityPoints points limit = entriesAt points (keptPositions points limit) := by
  unfold limitAvailabilityPoints keptPositions
  split
  · exact (entriesAt_range points).symm
  · rfl

/-- The positions of the outages and their neighbours: what the merged episodes cover. -/
def outageNeighbours (points : List Entry) : Finset ℕ :=
  (Finset.range points.length).filter fun j =>
    ∃ i ∈ outagePositions points, i ≤ j + 1 ∧ j ≤ i + 1

theorem mem_outageNeighbours {points : List Entry} (hne : points ≠ []) {j : ℕ} :
    j ∈ outageNeighbours points ↔ j ∈ covered (episodesOf points) := by
  have hlength := List.length_pos_iff.mpr hne
  rw [(episodesOf_spec points).covers, outageNeighbours, Finset.mem_filter, Finset.mem_range]
  constructor
  · rintro ⟨hlt, i, hi, hbelow, habove⟩
    exact ⟨i, hi, hbelow, habove, by omega⟩
  · rintro ⟨i, hi, hbelow, habove, hle⟩
    exact ⟨by omega, i, hi, hbelow, habove⟩

theorem newestOutside_disjoint (points : List Entry) :
    ∀ j ∈ newestOutside (points.length - 1) (episodesOf points),
      j ∉ covered (episodesOf points) := by
  intro j hj hcovered
  have hspec := episodesOf_spec points
  obtain ⟨episode, hepisode, -, hle⟩ := mem_covered.mp hcovered
  obtain ⟨-, -, -, hend⟩ := hspec.ends_le hepisode
  unfold newestOutside at hj
  split at hj
  · simp at hj
  next hhead =>
    obtain rfl := Finset.mem_singleton.mp hj
    -- the newest episode ends at or behind the last point
    cases hepisodes : episodesOf points with
    | nil => simp [hepisodes] at hepisode
    | cons newest older =>
        rw [hepisodes] at hhead hepisode
        obtain ⟨-, -, -, hnewest⟩ := hspec.ends_le (hepisodes ▸ List.mem_cons_self ..)
        have hends : newest.2 ≠ points.length - 1 := by simpa using hhead
        rcases List.mem_cons.mp hepisode with rfl | holder
        · omega
        · have hseparated := hepisodes ▸ hspec.separated
          have hapart := (List.pairwise_cons.mp hseparated).1 episode holder
          have hnonempty := hspec.nonempty newest (hepisodes ▸ List.mem_cons_self ..)
          omega

theorem newestOutside_card_le (points : List Entry) :
    (newestOutside (points.length - 1) (episodesOf points)).card ≤ 1 := by
  unfold newestOutside
  split <;> simp

theorem one_le_budgetOf (limit : ℤ) : 1 ≤ budgetOf limit := by
  unfold budgetOf
  omega

theorem spent_episodesOf (points : List Entry) (limit : ℤ) :
    Spent (budgetOf limit) (newestOutside (points.length - 1) (episodesOf points))
      (episodesOf points) :=
  spent (episodesOf_spec points).separated (episodesOf_spec points).nonempty
    (newestOutside_disjoint points)

theorem card_keptPositions_le (points : List Entry) (limit : ℤ) :
    (keptPositions points limit).card ≤ budgetOf limit := by
  unfold keptPositions
  split
  · simpa
  · exact (spent_episodesOf points limit).atMost
      ((newestOutside_card_le points).trans (one_le_budgetOf limit))

theorem last_mem_keptPositions {points : List Entry} (hne : points ≠ []) (limit : ℤ) :
    points.length - 1 ∈ keptPositions points limit := by
  have hlength := List.length_pos_iff.mpr hne
  unfold keptPositions
  split
  · rw [Finset.mem_range]
    omega
  · by_cases hhead : (episodesOf points).head?.map Prod.snd = some (points.length - 1)
    · obtain ⟨episode, hepisode, hend⟩ := Option.map_eq_some_iff.mp hhead
      have hroom : (newestOutside (points.length - 1) (episodesOf points)).card <
          budgetOf limit := by
        rw [newestOutside, if_pos hhead, Finset.card_empty]
        exact one_le_budgetOf limit
      exact hend ▸ (spent_episodesOf points limit).head hroom episode hepisode
    · refine subset_spend _ _ _ ?_
      rw [newestOutside, if_neg hhead]
      exact Finset.mem_singleton_self _

/-- An outage is covered by the episodes. -/
theorem covered_of_outage {points : List Entry} {i : ℕ} (hi : i ∈ outagePositions points) :
    i ∈ covered (episodesOf points) := by
  obtain ⟨entry, hentry, -⟩ := mem_outagePositions.mp hi
  obtain ⟨hlt, -⟩ := List.getElem?_eq_some_iff.mp hentry
  exact ((episodesOf_spec points).covers i).mpr ⟨i, hi, by omega, by omega, by omega⟩

/-- The kept outages are those from some position on. -/
theorem exists_threshold (points : List Entry) (limit : ℤ) :
    ∃ threshold, ∀ i ∈ outagePositions points,
      i ∈ keptPositions points limit ↔ threshold ≤ i := by
  unfold keptPositions
  split
  · refine ⟨0, fun i hi => ?_⟩
    obtain ⟨entry, hentry, -⟩ := mem_outagePositions.mp hi
    obtain ⟨hlt, -⟩ := List.getElem?_eq_some_iff.mp hentry
    simp [hlt]
  · obtain ⟨threshold, hnewest⟩ := (spent_episodesOf points limit).newest
    refine ⟨threshold, fun i hi => ?_⟩
    have hcovered := covered_of_outage hi
    have houtside : i ∉ newestOutside (points.length - 1) (episodesOf points) := fun hmem =>
      newestOutside_disjoint points i hmem hcovered
    rw [hnewest]
    simp [hcovered, houtside]

/-- The episodes and the last point are kept whole where they fit. -/
theorem outage_mem_keptPositions {points : List Entry} {limit : ℤ}
    (hfits : (insert (points.length - 1) (outageNeighbours points)).card ≤ budgetOf limit)
    {i : ℕ} (hi : i ∈ outagePositions points) : i ∈ keptPositions points limit := by
  obtain ⟨entry, hentry, -⟩ := mem_outagePositions.mp hi
  obtain ⟨hlt, -⟩ := List.getElem?_eq_some_iff.mp hentry
  have hne : points ≠ [] := by
    rintro rfl
    simp at hlt
  unfold keptPositions
  split
  · exact Finset.mem_range.mpr hlt
  · rw [(spent_episodesOf points limit).whole]
    · exact Finset.mem_union_right _ (covered_of_outage hi)
    · refine (Finset.card_le_card fun j hj => ?_).trans hfits
      rcases Finset.mem_union.mp hj with houtside | hcovered
      · unfold newestOutside at houtside
        split at houtside
        · simp at houtside
        · exact Finset.mem_insert.mpr (Or.inl (Finset.mem_singleton.mp houtside))
      · exact Finset.mem_insert_of_mem ((mem_outageNeighbours hne).mpr hcovered)

/-! ## The result -/

/-- What capping does to a step line. -/
structure CapsOldestFirst (points : List Entry) (limit : ℤ) : Prop where
  sublist : (limitAvailabilityPoints points limit).Sublist points
  atMost : ((limitAvailabilityPoints points limit).length : ℤ) ≤ max limit 1
  itself : (points.length : ℤ) ≤ max limit 1 → limitAvailabilityPoints points limit = points
  newest : (limitAvailabilityPoints points limit).getLast? = points.getLast?
  /-- No outage is dropped while an older one is kept. -/
  positions : ∃ keep, limitAvailabilityPoints points limit = entriesAt points keep ∧
    ∀ i ∈ outagePositions points, ∀ j ∈ outagePositions points, i ≤ j → i ∈ keep → j ∈ keep
  outages : (limitAvailabilityPoints points limit).filter Entry.isOutage <:+
    points.filter Entry.isOutage
  whole : ((insert (points.length - 1) (outageNeighbours points)).card : ℤ) ≤ max limit 1 →
    (limitAvailabilityPoints points limit).filter Entry.isOutage = points.filter Entry.isOutage

theorem capped_line_drops_oldest_outages_first (points : List Entry) (limit : ℤ) :
    CapsOldestFirst points limit := by
  have hbudget : ((budgetOf limit : ℕ) : ℤ) = max limit 1 := by
    unfold budgetOf
    omega
  have hkept := limitAvailabilityPoints_eq points limit
  obtain ⟨threshold, hthreshold⟩ := exists_threshold points limit
  refine ⟨?_, ?_, fun hfits => ?_, ?_, ⟨_, hkept, fun i hi j hj hle hmem => ?_⟩, ?_,
    fun hfits => ?_⟩
  · rw [hkept]
    exact entriesAt_sublist points _
  · rw [hkept, ← hbudget]
    exact_mod_cast (length_entriesAt_le points _).trans (card_keptPositions_le points limit)
  · rw [limitAvailabilityPoints, if_pos]
    omega
  · by_cases hne : points = []
    · subst hne
      rw [hkept]
      rfl
    · rw [hkept]
      exact getLast?_entriesAt (last_mem_keptPositions hne limit)
  · rw [hthreshold j hj]
    exact ((hthreshold i hi).mp hmem).trans hle
  · rw [hkept]
    exact filter_entriesAt_suffix hthreshold
  · rw [hkept]
    rw [← hbudget] at hfits
    have hall : ∀ i ∈ outagePositions points, i ∈ keptPositions points limit ↔ 0 ≤ i :=
      fun i hi => by simpa using outage_mem_keptPositions (by exact_mod_cast hfits) hi
    rw [filter_entriesAt hall, ← zipIdx_map_fst_filter]
    simp

end Justup.Charts
