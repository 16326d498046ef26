import Justup.Charts.StepLine
import Justup.Store.Housekeeping

/-!
# The availability step line

`_availability_transitions`: an entry for every change of the state, and a gap
where the next observation is late.
-/

namespace Justup.Charts

open Justup.Store

variable {V : Type*} (format : LineFormat V)

/-! ## The model -/

/-- A source of the chart: a resolution with its window and, for rollups, the
length of a bucket. -/
structure Source where
  resolution : Resolution
  from_ : ℤ
  until_ : ℤ
  bucket : Option ℤ
  deriving DecidableEq, Repr

/-- `sources`: one hour, then five minutes, then raw. -/
def sourcesOf (now since until_ : ℤ) : List Source :=
  let rawCutoff := now - Resolution.raw.retention * day
  let rollupCutoff := now - Resolution.fiveMinute.retention * day
  [⟨.hour, since, min until_ (rollupCutoff - 1), some (hourSeconds * second)⟩,
    ⟨.fiveMinute, max since rollupCutoff, min until_ (rawCutoff - 1),
      some (fiveMinuteSeconds * second)⟩,
    ⟨.raw, max since rawCutoff, until_, none⟩]

/-- The observations of a source, that is the points of its window whose value
`int(float(value))` is 0 or 1; `asInt` is `none` where that raises an exception. -/
def observations (asInt : V → Option ℤ) (now : ℤ) (series : Resolution → Series)
    (source : Source) : List (Point ℤ) :=
  if source.until_ < source.from_ then []
  else if !seriesExists (series source.resolution) then []
  else
    (points format (some source.from_) (some source.until_)
      (iterSeriesLines source.resolution now (some source.from_) (some source.until_)
        (series source.resolution))).filterMap fun point =>
      (asInt point.value).bind fun up => if up = 0 ∨ up = 1 then some ⟨point.ts, up⟩ else none

/-- The variables of the loop. -/
structure Tracking where
  result : List Entry := []
  previousTs : Option ℤ := none
  previousUp : Option ℤ := none
  interval : Option ℤ := none
  deriving DecidableEq, Repr

/-- The last observation of a state gets an entry of its own, unless the last
entry is of that time. -/
def closeAt (ts : ℤ) (up : Option ℤ) (result : List Entry) : List Entry :=
  if up.isSome ∧ result.getLast?.map Entry.ts ≠ some ts then result ++ [{ ts := ts, up := up }]
  else result

/-- `rollup_interval or interval or check_interval_seconds`; the two intervals are
never 0. -/
def expectedInterval (check : ℤ) (bucket interval : Option ℤ) : ℤ :=
  (bucket.or interval).getD (check * second)

/-- What is done with the time since the previous observation. -/
def measureGap (check : ℤ) (bucket : Option ℤ) (ts previous : ℤ) (st : Tracking) : Tracking :=
  let delta := ts - previous
  if expectedInterval check bucket st.interval * 3 < delta then
    let closed := closeAt previous st.previousUp st.result
    { st with
      result := if st.previousUp.isSome then closed ++ [{ ts := previous + 1, up := none }]
        else closed
      previousUp := none }
  else if bucket.isNone ∧ 0 < delta then
    { st with interval := some ((st.interval.map (min · delta)).getD delta) }
  else st

/-- One turn of the loop. -/
def observe (check : ℤ) (bucket : Option ℤ) (st : Tracking) (point : Point ℤ) : Tracking :=
  let st := (st.previousTs.map fun previous => measureGap check bucket point.ts previous st).getD st
  if bucket.isSome ∧ point.value = 0 then
    { st with
      result := st.result ++
        [{ ts := point.ts, up := some 0, observed := true }, { ts := point.ts + 1, up := none }]
      previousUp := none
      previousTs := some point.ts }
  else
    { st with
      result := if st.previousUp ≠ some point.value then
          st.result ++ [{ ts := point.ts, up := some point.value }]
        else st.result
      previousUp := some point.value
      previousTs := some point.ts }

/-- The last observation is shown as well. -/
def Tracking.finish (st : Tracking) : List Entry :=
  (st.previousTs.map fun previous => closeAt previous st.previousUp st.result).getD st.result

/-- `_availability_transitions`. -/
def availabilityTransitions (asInt : V → Option ℤ) (series : Resolution → Series)
    (now since until_ check : ℤ) : List Entry :=
  ((sourcesOf now since until_).foldl (fun st source =>
    (observations format asInt now series source).foldl (observe check source.bucket) st)
    {}).finish

/-! ## Spacings -/

/-- The times between consecutive observations. -/
def spacings : List (Point ℤ) → List ℤ
  | first :: next :: rest => (next.ts - first.ts) :: spacings (next :: rest)
  | _ => []

/-- The interval that has been learned from some spacings: the shortest of them,
once one was no gap. -/
def learned (check : ℤ) (earlier : List ℤ) : Option ℤ :=
  earlier.min?.filter fun shortest => decide (shortest ≤ check * second * 3)

@[simp]
theorem spacings_singleton (point : Point ℤ) : spacings [point] = [] := rfl

theorem spacings_snoc (seen : List (Point ℤ)) (last point : Point ℤ) :
    spacings (seen ++ [last] ++ [point]) = spacings (seen ++ [last]) ++ [point.ts - last.ts] := by
  induction seen with
  | nil => rfl
  | cons first rest ih =>
      cases rest with
      | nil => rfl
      | cons next rest => exact congrArg ((next.ts - first.ts) :: ·) ih

theorem spacings_pos {obs : List (Point ℤ)}
    (hincreasing : obs.Pairwise fun earlier later => earlier.ts < later.ts) :
    ∀ spacing ∈ spacings obs, 0 < spacing := by
  induction obs with
  | nil => simp [spacings]
  | cons first rest ih =>
      obtain ⟨hfirst, hrest⟩ := List.pairwise_cons.mp hincreasing
      cases rest with
      | nil => simp
      | cons next rest =>
          intro spacing hmem
          rcases List.mem_cons.mp hmem with rfl | hmem
          · exact sub_pos.mpr (hfirst next (List.mem_cons_self ..))
          · exact ih hrest spacing hmem

theorem min?_snoc (list : List ℤ) (x : ℤ) :
    (list ++ [x]).min? = some ((list.min?.map (min · x)).getD x) := by
  cases list with
  | nil => rfl
  | cons first rest =>
      rw [List.cons_append, List.min?_cons', List.min?_cons', List.foldl_append]
      rfl

@[simp]
theorem expectedInterval_none (check : ℤ) : expectedInterval check none none = check * second := rfl

@[simp]
theorem expectedInterval_some (check interval : ℤ) :
    expectedInterval check none (some interval) = interval := rfl

theorem learned_of_le {check shortest : ℤ} {earlier : List ℤ}
    (hmin : earlier.min? = some shortest) (hle : shortest ≤ check * second * 3) :
    learned check earlier = some shortest := by
  simp [learned, hmin, hle]

theorem learned_of_lt {check : ℤ} {earlier : List ℤ}
    (hlt : ∀ shortest ∈ earlier.min?, check * second * 3 < shortest) :
    learned check earlier = none := by
  cases hmin : earlier.min? with
  | none => simp [learned, hmin]
  | some shortest => simp [learned, hmin, Option.filter, hlt shortest hmin]

/-- Either something has been learned or all spacings were gaps. -/
theorem learned_cases (check : ℤ) (earlier : List ℤ) :
    (∃ shortest, earlier.min? = some shortest ∧ shortest ≤ check * second * 3) ∨
      ∀ shortest ∈ earlier.min?, check * second * 3 < shortest := by
  cases hmin : earlier.min? with
  | none => simp
  | some shortest =>
      by_cases hle : shortest ≤ check * second * 3
      · exact Or.inl ⟨shortest, rfl, hle⟩
      · refine Or.inr ?_
        rintro _ ⟨⟩
        exact not_le.mp hle

/-- The interval after a spacing that is a gap. -/
theorem learned_snoc_gap {check : ℤ} {earlier : List ℤ} (hpos : ∀ spacing ∈ earlier, 0 < spacing)
    {spacing : ℤ} (hgap : expectedInterval check none (learned check earlier) * 3 < spacing) :
    learned check (earlier ++ [spacing]) = learned check earlier := by
  obtain ⟨shortest, hmin, hle⟩ | hall := learned_cases check earlier
  · have hshortest := hpos shortest (List.min?_mem hmin)
    rw [learned_of_le hmin hle, expectedInterval_some] at hgap
    rw [learned_of_le hmin hle]
    refine learned_of_le ?_ hle
    rw [min?_snoc, hmin, Option.map_some, Option.getD_some, min_eq_left (by omega)]
  · rw [learned_of_lt hall, expectedInterval_none] at hgap
    rw [learned_of_lt hall]
    refine learned_of_lt fun shortest hmem => ?_
    rw [min?_snoc] at hmem
    cases hmin : earlier.min? with
    | none =>
        simp only [hmin, Option.map_none, Option.getD_none, Option.mem_some_iff] at hmem
        omega
    | some old =>
        have hold := hall old hmin
        simp only [hmin, Option.map_some, Option.getD_some, Option.mem_some_iff] at hmem
        omega

/-- The interval after a spacing that is no gap. -/
theorem learned_snoc_near {check : ℤ} {earlier : List ℤ} {spacing : ℤ}
    (hnear : ¬ expectedInterval check none (learned check earlier) * 3 < spacing) :
    learned check (earlier ++ [spacing]) =
      some (((learned check earlier).map (min · spacing)).getD spacing) := by
  obtain ⟨shortest, hmin, hle⟩ | hall := learned_cases check earlier
  · rw [learned_of_le hmin hle, Option.map_some, Option.getD_some]
    refine learned_of_le ?_ ((min_le_left _ _).trans hle)
    rw [min?_snoc, hmin, Option.map_some, Option.getD_some]
  · rw [learned_of_lt hall, expectedInterval_none, not_lt] at hnear
    rw [learned_of_lt hall, Option.map_none, Option.getD_none]
    refine learned_of_le ?_ hnear
    rw [min?_snoc]
    cases hmin : earlier.min? with
    | none => rfl
    | some old =>
        have hold := hall old hmin
        rw [Option.map_some, Option.getD_some, min_eq_right (by omega)]

/-! ## Reading the line -/

/-- The state at a time: that of the last entry at or before it. -/
def stateAt (result : List Entry) (ts : ℤ) : Option (Option ℤ) :=
  (result.filter fun entry => decide (entry.ts ≤ ts)).getLast?.map Entry.up

theorem stateAt_append_later {result extra : List Entry} {ts : ℤ}
    (hlater : ∀ entry ∈ extra, ts < entry.ts) :
    stateAt (result ++ extra) ts = stateAt result ts := by
  have hnone : (extra.filter fun entry => decide (entry.ts ≤ ts)) = [] := by
    refine List.filter_eq_nil_iff.mpr fun entry hmem => ?_
    simpa using hlater entry hmem
  rw [stateAt, List.filter_append, hnone, List.append_nil, stateAt]

theorem stateAt_snoc {result : List Entry} {entry : Entry} {ts : ℤ} (hle : entry.ts ≤ ts) :
    stateAt (result ++ [entry]) ts = some entry.up := by
  simp [stateAt, List.filter_append, hle]

theorem stateAt_of_le {result : List Entry} {ts : ℤ} (hle : ∀ entry ∈ result, entry.ts ≤ ts) :
    stateAt result ts = result.getLast?.map Entry.up := by
  rw [stateAt, List.filter_eq_self.mpr fun entry hmem => decide_eq_true (hle entry hmem)]

/-- The observation at `i` is cut apart from the next one. -/
def Cut (check : ℤ) (obs : List (Point ℤ)) (i : ℕ) (first next : Point ℤ) : Prop :=
  obs[i]? = some first ∧ obs[i + 1]? = some next ∧
    expectedInterval check none (learned check (spacings (obs.take (i + 1)))) * 3 <
      next.ts - first.ts

theorem cut_snoc {check : ℤ} {seen : List (Point ℤ)} {last point first next : Point ℤ} {i : ℕ} :
    Cut check (seen ++ [last] ++ [point]) i first next ↔
      Cut check (seen ++ [last]) i first next ∨
        (i = seen.length ∧ first = last ∧ next = point ∧
          expectedInterval check none (learned check (spacings (seen ++ [last]))) * 3 <
            point.ts - last.ts) := by
  unfold Cut
  rcases lt_trichotomy i seen.length with hlt | rfl | hgt
  · have htake : (seen ++ [last] ++ [point]).take (i + 1) = (seen ++ [last]).take (i + 1) :=
      List.take_append_of_le_length (by simp; omega)
    have hfirst : (seen ++ [last] ++ [point])[i]? = (seen ++ [last])[i]? :=
      List.getElem?_append_left (by simp; omega)
    have hnext : (seen ++ [last] ++ [point])[i + 1]? = (seen ++ [last])[i + 1]? :=
      List.getElem?_append_left (by simp; omega)
    rw [htake, hfirst, hnext]
    simp [hlt.ne]
  · have htake : (seen ++ [last] ++ [point]).take (seen.length + 1) = seen ++ [last] :=
      List.take_left' (by simp)
    have hlast : (seen ++ [last] ++ [point])[seen.length]? = some last := by simp
    have hpoint : (seen ++ [last] ++ [point])[seen.length + 1]? = some point := by simp
    have hnone : (seen ++ [last])[seen.length + 1]? = none := by simp
    rw [htake, hlast, hpoint, hnone]
    constructor
    · rintro ⟨⟨⟩, ⟨⟩, hlate⟩
      exact Or.inr ⟨rfl, rfl, rfl, hlate⟩
    · rintro (⟨-, ⟨⟩, -⟩ | ⟨-, rfl, rfl, hlate⟩)
      exact ⟨rfl, rfl, hlate⟩
  · have hnone : (seen ++ [last] ++ [point])[i + 1]? = none :=
      List.getElem?_eq_none (by simp; omega)
    have hnone' : (seen ++ [last])[i + 1]? = none := List.getElem?_eq_none (by simp; omega)
    rw [hnone, hnone']
    simp [hgt.ne']

/-! ## What the loop keeps -/

/-- The entries written so far show the observations up to `last`. -/
structure Shown (check : ℤ) (seen : List (Point ℤ)) (last : Point ℤ) (result : List Entry) :
    Prop where
  ordered : result.Pairwise fun earlier later => earlier.ts ≤ later.ts
  newest : result.getLast?.map Entry.up = some (some last.value)
  upTo : ∀ entry ∈ result, entry.ts ≤ last.ts
  states : ∀ point ∈ seen ++ [last], stateAt result point.ts = some (some point.value)
  gaps : ∀ entry ∈ result, entry.up = none →
    ∃ i first next, Cut check (seen ++ [last]) i first next ∧ entry.ts = first.ts + 1
  cuts : ∀ i first next, Cut check (seen ++ [last]) i first next →
    ∃ entry ∈ result, entry.up = none ∧ entry.ts = first.ts + 1

theorem shown_first (check : ℤ) (point : Point ℤ) :
    Shown check [] point [{ ts := point.ts, up := some point.value }] where
  ordered := List.pairwise_singleton _ _
  newest := rfl
  upTo := by simp
  states := by simp [stateAt]
  gaps := by simp
  cuts := by simp [Cut]

/-- The last observation may get one more entry. -/
theorem Shown.repeat_ {check : ℤ} {seen : List (Point ℤ)} {last : Point ℤ} {result : List Entry}
    (hshown : Shown check seen last result) (hbefore : ∀ point ∈ seen, point.ts < last.ts) :
    Shown check seen last (result ++ [{ ts := last.ts, up := some last.value }]) where
  ordered := List.pairwise_append.mpr
    ⟨hshown.ordered, List.pairwise_singleton _ _, by simpa using hshown.upTo⟩
  newest := by simp
  upTo := by
    intro entry hmem
    rcases List.mem_append.mp hmem with hmem | hmem
    · exact hshown.upTo entry hmem
    · rw [List.mem_singleton.mp hmem]
  states := by
    intro point hmem
    rcases List.mem_append.mp hmem with hseen | hlast
    · rw [stateAt_append_later (by simpa using hbefore point hseen)]
      exact hshown.states point hmem
    · obtain rfl := List.mem_singleton.mp hlast
      exact stateAt_snoc le_rfl
  gaps := by
    intro entry hmem hnone
    rcases List.mem_append.mp hmem with hmem | hmem
    · exact hshown.gaps entry hmem hnone
    · simp [List.mem_singleton.mp hmem] at hnone
  cuts := by
    intro i first next hcut
    obtain ⟨entry, hentry, hgap⟩ := hshown.cuts i first next hcut
    exact ⟨entry, List.mem_append_left _ hentry, hgap⟩

theorem Shown.closeAt {check : ℤ} {seen : List (Point ℤ)} {last : Point ℤ} {result : List Entry}
    (hshown : Shown check seen last result) (hbefore : ∀ point ∈ seen, point.ts < last.ts) :
    Shown check seen last (closeAt last.ts (some last.value) result) := by
  unfold Charts.closeAt
  split
  · exact hshown.repeat_ hbefore
  · exact hshown

/-- The entries that are added for one more observation lie behind the last one. -/
theorem Shown.next {check : ℤ} {seen : List (Point ℤ)} {last point : Point ℤ}
    {result extra : List Entry} (hshown : Shown check seen last result)
    (hbefore : ∀ earlier ∈ seen, earlier.ts < last.ts) (hlater : last.ts < point.ts)
    (hordered : extra.Pairwise fun earlier later => earlier.ts ≤ later.ts)
    (hextra : ∀ entry ∈ extra, last.ts < entry.ts ∧ entry.ts ≤ point.ts)
    (hnewest : (result ++ extra).getLast?.map Entry.up = some (some point.value))
    (hgap : ∀ entry ∈ extra, entry.up = none → entry.ts = last.ts + 1 ∧
      expectedInterval check none (learned check (spacings (seen ++ [last]))) * 3 <
        point.ts - last.ts)
    (hcut : expectedInterval check none (learned check (spacings (seen ++ [last]))) * 3 <
        point.ts - last.ts → ∃ entry ∈ extra, entry.up = none ∧ entry.ts = last.ts + 1) :
    Shown check (seen ++ [last]) point (result ++ extra) where
  ordered := List.pairwise_append.mpr ⟨hshown.ordered, hordered, fun old hold new hnew =>
    (hshown.upTo old hold).trans (hextra new hnew).1.le⟩
  newest := hnewest
  upTo := by
    intro entry hmem
    rcases List.mem_append.mp hmem with hmem | hmem
    · exact (hshown.upTo entry hmem).trans hlater.le
    · exact (hextra entry hmem).2
  states := by
    intro other hmem
    rcases List.mem_append.mp hmem with hold | hnew
    · have hle : other.ts ≤ last.ts := by
        rcases List.mem_append.mp hold with hseen | hlast
        · exact (hbefore other hseen).le
        · rw [List.mem_singleton.mp hlast]
      rw [stateAt_append_later fun entry hentry => hle.trans_lt (hextra entry hentry).1]
      exact hshown.states other hold
    · obtain rfl := List.mem_singleton.mp hnew
      rw [stateAt_of_le, hnewest]
      intro entry hentry
      rcases List.mem_append.mp hentry with hentry | hentry
      · exact (hshown.upTo entry hentry).trans hlater.le
      · exact (hextra entry hentry).2
  gaps := by
    intro entry hmem hnone
    rcases List.mem_append.mp hmem with hmem | hmem
    · obtain ⟨i, first, next, hold, hts⟩ := hshown.gaps entry hmem hnone
      exact ⟨i, first, next, cut_snoc.mpr (Or.inl hold), hts⟩
    · obtain ⟨hts, hlate⟩ := hgap entry hmem hnone
      exact ⟨_, last, point, cut_snoc.mpr (Or.inr ⟨rfl, rfl, rfl, hlate⟩), hts⟩
  cuts := by
    intro i first next hnext
    rcases cut_snoc.mp hnext with hold | ⟨-, rfl, rfl, hlate⟩
    · obtain ⟨entry, hentry, hup⟩ := hshown.cuts i first next hold
      exact ⟨entry, List.mem_append_left _ hentry, hup⟩
    · obtain ⟨entry, hentry, hup⟩ := hcut hlate
      exact ⟨entry, List.mem_append_right _ hentry, hup⟩

/-- The variables after the observations up to `last`. -/
structure Tracks (check : ℤ) (seen : List (Point ℤ)) (last : Point ℤ) (st : Tracking) : Prop where
  previousTs : st.previousTs = some last.ts
  previousUp : st.previousUp = some last.value
  interval : st.interval = learned check (spacings (seen ++ [last]))
  shown : Shown check seen last st.result

theorem tracks_first (check : ℤ) (point : Point ℤ) :
    Tracks check [] point (observe check none {} point) where
  previousTs := rfl
  previousUp := rfl
  interval := rfl
  shown := shown_first check point

theorem Tracks.next {check : ℤ} {seen : List (Point ℤ)} {last point : Point ℤ} {st : Tracking}
    (htracks : Tracks check seen last st)
    (hincreasing : (seen ++ [last] ++ [point]).Pairwise
      fun earlier later => earlier.ts < later.ts) :
    Tracks check (seen ++ [last]) point (observe check none st point) := by
  obtain ⟨hfront, -, hpoint⟩ := List.pairwise_append.mp hincreasing
  have hbefore : ∀ earlier ∈ seen, earlier.ts < last.ts := fun earlier hmem =>
    (List.pairwise_append.mp hfront).2.2 earlier hmem last (List.mem_singleton_self last)
  have hlater : last.ts < point.ts :=
    hpoint last (by simp) point (List.mem_singleton_self point)
  have hpos := spacings_pos hfront
  have hspacings := spacings_snoc seen last point
  have hstep : observe check none st point =
      { measureGap check none point.ts last.ts st with
        result := if (measureGap check none point.ts last.ts st).previousUp ≠ some point.value then
            (measureGap check none point.ts last.ts st).result ++
              [{ ts := point.ts, up := some point.value }]
          else (measureGap check none point.ts last.ts st).result
        previousUp := some point.value
        previousTs := some point.ts } := by
    simp [observe, htracks.previousTs]
  have hshown := htracks.shown
  by_cases hgap : expectedInterval check none (learned check (spacings (seen ++ [last]))) * 3 <
      point.ts - last.ts
  · -- the previous state is forgotten behind the gap
    have hmeasure : measureGap check none point.ts last.ts st =
        { st with
          result := Charts.closeAt last.ts (some last.value) st.result ++
            [{ ts := last.ts + 1, up := none }]
          previousUp := none } := by
      simp [measureGap, htracks.interval, htracks.previousUp, hgap]
    rw [hstep, hmeasure]
    refine ⟨rfl, rfl, ?_, ?_⟩
    · change st.interval = _
      rw [htracks.interval, hspacings, learned_snoc_gap hpos hgap]
    · have hclosed := hshown.closeAt hbefore
      rw [if_pos (by simp), List.append_assoc]
      refine hclosed.next hbefore hlater ?_ ?_ (by simp) ?_ fun _ => ?_
      · simp
        omega
      · simp
        omega
      · simp [hgap]
      · exact ⟨_, List.mem_cons_self .., rfl, rfl⟩
  · have hmeasure : measureGap check none point.ts last.ts st =
        { st with interval := learned check (spacings (seen ++ [last] ++ [point])) } := by
      rw [hspacings, learned_snoc_near hgap]
      simp [measureGap, htracks.interval, hgap, hlater]
    rw [hstep, hmeasure]
    refine ⟨rfl, rfl, rfl, ?_⟩
    by_cases hsame : st.previousUp = some point.value
    · have hnone : Shown check (seen ++ [last]) point (st.result ++ []) :=
        hshown.next hbefore hlater List.Pairwise.nil (by simp) ?_ (by simp)
          fun hcut => absurd hcut hgap
      · simpa [hsame] using hnone
      · rw [List.append_nil, hshown.newest, ← htracks.previousUp, hsame]
    · rw [if_pos hsame]
      refine hshown.next hbefore hlater (List.pairwise_singleton _ _) ?_ (by simp) (by simp)
        fun hcut => absurd hcut hgap
      simp [hlater]

theorem tracks_foldl {check : ℤ} (seen coming : List (Point ℤ)) {last : Point ℤ} {st : Tracking}
    (htracks : Tracks check seen last st)
    (hincreasing : (seen ++ last :: coming).Pairwise fun earlier later => earlier.ts < later.ts) :
    ∃ before newest, seen ++ last :: coming = before ++ [newest] ∧
      Tracks check before newest (coming.foldl (observe check none) st) := by
  induction coming generalizing seen last st with
  | nil => exact ⟨seen, last, rfl, htracks⟩
  | cons point coming ih =>
      have hsplit : seen ++ last :: point :: coming = seen ++ [last] ++ point :: coming := by simp
      rw [hsplit] at hincreasing ⊢
      refine ih (seen ++ [last]) (htracks.next ?_) hincreasing
      exact hincreasing.sublist (by simp)

end Justup.Charts
