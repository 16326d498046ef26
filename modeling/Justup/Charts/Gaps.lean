import Justup.Charts.Transitions
import Justup.Store.JsonLine

/-!
# When the step line shows a gap

The line always shows the observed states.  A gap is measured against the
shortest spacing that has been seen, not against the check interval.
-/

namespace Justup.Charts

open Justup.Store

variable {V : Type*}

/-- The raw source of a chart. -/
def rawSource (now since until_ : ℤ) : Source :=
  ⟨.raw, max since (now - Resolution.raw.retention * day), until_, none⟩

/-- Nothing in the window comes from a rollup. -/
def RawOnly (format : LineFormat V) (asInt : V → Option ℤ) (series : Resolution → Series)
    (now since until_ : ℤ) : Prop :=
  ∀ source ∈ sourcesOf now since until_, source.resolution ≠ .raw →
    observations format asInt now series source = []

instance (format : LineFormat V) (asInt : V → Option ℤ) (series : Resolution → Series)
    (now since until_ : ℤ) : Decidable (RawOnly format asInt series now since until_) :=
  inferInstanceAs (Decidable (∀ source ∈ sourcesOf now since until_, source.resolution ≠ .raw →
    observations format asInt now series source = []))

/-- What is wanted of the line: it is in time order, at every observed time it
gives the observed state, and there is an unknown state between two consecutive
observations exactly if they are more than three check intervals apart. -/
structure ShowsObservations (check : ℤ) (obs : List (Point ℤ)) (result : List Entry) : Prop where
  ordered : result.Pairwise fun earlier later => earlier.ts ≤ later.ts
  states : ∀ point ∈ obs, stateAt result point.ts = some (some point.value)
  gaps : ∀ entry ∈ result, entry.up = none → ∃ i first next,
    obs[i]? = some first ∧ obs[i + 1]? = some next ∧ first.ts < entry.ts ∧ entry.ts ≤ next.ts ∧
      check * second * 3 < next.ts - first.ts
  pauses : ∀ i first next, obs[i]? = some first → obs[i + 1]? = some next →
    check * second * 3 < next.ts - first.ts →
      ∃ entry ∈ result, entry.up = none ∧ first.ts < entry.ts ∧ entry.ts ≤ next.ts

/-- Once two consecutive observations were at most three check intervals apart,
no later spacing lies between three times the shortest spacing before it and
three check intervals. -/
def SpacingsAgree (check : ℤ) (obs : List (Point ℤ)) : Prop :=
  ∀ i first next, obs[i]? = some first → obs[i + 1]? = some next →
    ∀ shortest ∈ (spacings (obs.take (i + 1))).min?, shortest ≤ check * second * 3 →
      (shortest * 3 < next.ts - first.ts ↔ check * second * 3 < next.ts - first.ts)

/-! ## The loop over raw observations -/

theorem availabilityTransitions_of_rawOnly {format : LineFormat V} {asInt : V → Option ℤ}
    {series : Resolution → Series} {now since until_ : ℤ}
    (hraw : RawOnly format asInt series now since until_) (check : ℤ) :
    availabilityTransitions format asInt series now since until_ check =
      ((observations format asInt now series (rawSource now since until_)).foldl
        (observe check none) {}).finish := by
  have hhour := hraw _ (List.mem_cons_self ..) (by simp)
  have hfive := hraw _ (List.mem_cons_of_mem _ (List.mem_cons_self ..)) (by simp)
  simp only [availabilityTransitions, sourcesOf, List.foldl_cons, List.foldl_nil, hhour, hfive]
  rfl

/-- The entries written for all the observations, if there is one. -/
theorem shown_finish (check : ℤ) {obs : List (Point ℤ)} (hne : obs ≠ [])
    (hincreasing : obs.Pairwise fun earlier later => earlier.ts < later.ts) :
    ∃ seen last, obs = seen ++ [last] ∧
      Shown check seen last (obs.foldl (observe check none) {}).finish := by
  obtain ⟨first, rest, rfl⟩ := List.exists_cons_of_ne_nil hne
  obtain ⟨seen, last, hsplit, htracks⟩ :=
    tracks_foldl [] rest (tracks_first check first) hincreasing
  rw [List.nil_append] at hsplit
  refine ⟨seen, last, hsplit, ?_⟩
  have hbefore : ∀ point ∈ seen, point.ts < last.ts := fun point hmem => by
    rw [hsplit] at hincreasing
    exact (List.pairwise_append.mp hincreasing).2.2 point hmem last (List.mem_singleton_self last)
  rw [List.foldl_cons, Tracking.finish, htracks.previousTs, htracks.previousUp]
  exact htracks.shown.closeAt hbefore

/-- A time lies between two consecutive observations in one place only. -/
theorem index_unique {obs : List (Point ℤ)}
    (hincreasing : obs.Pairwise fun earlier later => earlier.ts < later.ts) {i j : ℕ}
    {first next first' next' : Point ℤ} {ts : ℤ} (hfirst : obs[i]? = some first)
    (hnext : obs[i + 1]? = some next) (hfirst' : obs[j]? = some first')
    (hnext' : obs[j + 1]? = some next') (hbetween : first.ts < ts ∧ ts ≤ next.ts)
    (hbetween' : first'.ts < ts ∧ ts ≤ next'.ts) : i = j := by
  have hmono : ∀ {k l : ℕ} {a b : Point ℤ}, obs[k]? = some a → obs[l]? = some b → k ≤ l →
      a.ts ≤ b.ts := by
    intro k l a b ha hb hle
    obtain ⟨hk, rfl⟩ := List.getElem?_eq_some_iff.mp ha
    obtain ⟨hl, rfl⟩ := List.getElem?_eq_some_iff.mp hb
    rcases hle.eq_or_lt with rfl | hlt
    · exact le_rfl
    · exact (List.pairwise_iff_getElem.mp hincreasing k l hk hl hlt).le
  rcases lt_trichotomy i j with hlt | heq | hgt
  · have := hmono hnext hfirst' hlt
    omega
  · exact heq
  · have := hmono hnext' hfirst hgt
    omega

theorem ts_lt_next {obs : List (Point ℤ)}
    (hincreasing : obs.Pairwise fun earlier later => earlier.ts < later.ts) {i : ℕ}
    {first next : Point ℤ} (hfirst : obs[i]? = some first) (hnext : obs[i + 1]? = some next) :
    first.ts < next.ts := by
  obtain ⟨hi, rfl⟩ := List.getElem?_eq_some_iff.mp hfirst
  obtain ⟨hi', rfl⟩ := List.getElem?_eq_some_iff.mp hnext
  exact List.pairwise_iff_getElem.mp hincreasing i (i + 1) hi hi' (Nat.lt_succ_self i)

/-- A gap follows an observation if and only if it is cut apart from the next one. -/
theorem cut_iff_exists_gap {check : ℤ} {seen : List (Point ℤ)} {last : Point ℤ}
    {result : List Entry} (hshown : Shown check seen last result)
    (hincreasing : (seen ++ [last]).Pairwise fun earlier later => earlier.ts < later.ts) {i : ℕ}
    {first next : Point ℤ} (hfirst : (seen ++ [last])[i]? = some first)
    (hnext : (seen ++ [last])[i + 1]? = some next) :
    Cut check (seen ++ [last]) i first next ↔
      ∃ entry ∈ result, entry.up = none ∧ first.ts < entry.ts ∧ entry.ts ≤ next.ts := by
  constructor
  · intro hcut
    obtain ⟨entry, hentry, hup, hts⟩ := hshown.cuts i first next hcut
    have := ts_lt_next hincreasing hfirst hnext
    exact ⟨entry, hentry, hup, by omega, by omega⟩
  · rintro ⟨entry, hentry, hup, hbetween⟩
    obtain ⟨j, first', next', hcut, hts⟩ := hshown.gaps entry hentry hup
    have := ts_lt_next hincreasing hcut.1 hcut.2.1
    obtain rfl := index_unique hincreasing hfirst hnext hcut.1 hcut.2.1 hbetween
      ⟨by omega, by omega⟩
    obtain rfl := Option.some.inj (hfirst.symm.trans hcut.1)
    obtain rfl := Option.some.inj (hnext.symm.trans hcut.2.1)
    exact hcut

/-- The shortest spacing and the check interval give the same verdict. -/
theorem cut_iff_late {check : ℤ} {obs : List (Point ℤ)} {i : ℕ} {first next : Point ℤ}
    (hfirst : obs[i]? = some first) (hnext : obs[i + 1]? = some next) :
    (Cut check obs i first next ↔ check * second * 3 < next.ts - first.ts) ↔
      ∀ shortest ∈ (spacings (obs.take (i + 1))).min?, shortest ≤ check * second * 3 →
        (shortest * 3 < next.ts - first.ts ↔ check * second * 3 < next.ts - first.ts) := by
  unfold Cut
  simp only [hfirst, hnext, true_and]
  obtain ⟨shortest, hmin, hle⟩ | hall := learned_cases check (spacings (obs.take (i + 1)))
  · rw [learned_of_le hmin hle, expectedInterval_some, hmin]
    simp [hle]
  · rw [learned_of_lt hall, expectedInterval_none]
    simp only [true_iff]
    intro shortest hmem hle
    exact absurd hle (not_le.mpr (hall shortest hmem))

theorem showsObservations_iff {check : ℤ} {obs : List (Point ℤ)}
    (hincreasing : obs.Pairwise fun earlier later => earlier.ts < later.ts) :
    ShowsObservations check obs (obs.foldl (observe check none) {}).finish ↔
      SpacingsAgree check obs := by
  by_cases hne : obs = []
  · subst hne
    refine ⟨fun _ i first next hfirst => by simp at hfirst, fun _ => ?_⟩
    exact ⟨List.Pairwise.nil, by simp, by simp [Tracking.finish], by simp⟩
  · obtain ⟨seen, last, hsplit, hshown⟩ := shown_finish check hne hincreasing
    set result := (obs.foldl (observe check none) {}).finish
    rw [hsplit] at hincreasing ⊢
    constructor
    · intro hshows i first next hfirst hnext
      refine (cut_iff_late hfirst hnext).mp ?_
      rw [cut_iff_exists_gap hshown hincreasing hfirst hnext]
      constructor
      · rintro ⟨entry, hentry, hup, hbetween⟩
        obtain ⟨j, first', next', hfirst', hnext', hafter, hbefore, hlate⟩ :=
          hshows.gaps entry hentry hup
        obtain rfl := index_unique hincreasing hfirst hnext hfirst' hnext' hbetween
          ⟨hafter, hbefore⟩
        obtain rfl := Option.some.inj (hfirst.symm.trans hfirst')
        obtain rfl := Option.some.inj (hnext.symm.trans hnext')
        exact hlate
      · exact hshows.pauses i first next hfirst hnext
    · intro hagree
      refine ⟨hshown.ordered, hshown.states, fun entry hentry hup => ?_,
        fun i first next hfirst hnext hlate => ?_⟩
      · obtain ⟨i, first, next, hcut, hts⟩ := hshown.gaps entry hentry hup
        have hverdict := (cut_iff_late hcut.1 hcut.2.1).mpr (hagree i first next hcut.1 hcut.2.1)
        have hlt := ts_lt_next hincreasing hcut.1 hcut.2.1
        exact ⟨i, first, next, hcut.1, hcut.2.1, by omega, by omega, hverdict.mp hcut⟩
      · have hverdict := (cut_iff_late hfirst hnext).mpr (hagree i first next hfirst hnext)
        exact (cut_iff_exists_gap hshown hincreasing hfirst hnext).mp (hverdict.mpr hlate)

/-! ## The result -/

variable {format : LineFormat V} {asInt : V → Option ℤ} {series : Resolution → Series}

/-- A raw series with values at the given seconds after the first day. -/
def checksAt (checks : List (ℤ × Fin 10)) : Resolution → Series
  | .raw => checks.foldl (fun s check =>
      appendPoint JsonLine.format (day + check.1 * second) check.2 s) Series.empty
  | _ => Series.empty

def digitAsInt (value : Fin 10) : Option ℤ := some value.val

end Justup.Charts
