import Justup.Charts.Partition
import Justup.Lib.MaximalRuns

/-!
# Downtime periods

`query_downtime_periods` walks over the merged timeline of the checks with the
last known state of each, and collects the periods in which a check is down.
Durations are exact.
-/

namespace Justup.Charts

open Justup.Lib Justup.Lib.MaximalRuns Justup.Store

/-! ## The model -/

/-- The series that are looked at. -/
inductive Metric where
  | http
  | ping
  | tcp
  deriving DecidableEq, Repr

namespace Metric

/-- `metric_labels`. -/
def label : Metric → Text
  | http => "HTTP".toList
  | ping => "Ping".toList
  | tcp => "TCP".toList

def all : List Metric := [http, ping, tcp]

theorem mem_all (metric : Metric) : metric ∈ all := by
  cases metric <;> decide

instance : Fintype Metric := ⟨⟨all, by decide⟩, mem_all⟩

end Metric

/-- `DowntimePeriod`. -/
structure DowntimePeriod where
  start : ℤ
  end_ : Option ℤ
  durationSeconds : Option ℤ
  failedServices : List Text
  deriving DecidableEq, Repr

/-- `sorted([metric_labels[m] for m in failed])`; the metrics are listed in the
order of their labels. -/
def labels (failed : Finset Metric) : List Text :=
  (Metric.all.filter fun metric => decide (metric ∈ failed)).map Metric.label

/-- The labels of all the metrics are in order. -/
example : (Metric.all.map Metric.label).Pairwise fun first second => first ≤ second := by decide

/-- `_ALL_POINTS_LIMIT`. -/
def allPointsLimit : ℕ := 2 ^ 63 - 1

/-- The known states of the metrics. -/
abbrev States := Metric → Option Bool

/-- The variables of the loop over the timeline, besides the known states. -/
structure Scan where
  downtimeStart : Option ℤ := none
  currentFailed : Finset Metric := ∅
  periods : List DowntimePeriod := []
  deriving DecidableEq

/-- `{m for m, is_up in last_state.items() if not is_up}`. -/
def failedNow (states : States) : Finset Metric :=
  Finset.univ.filter fun metric => states metric = some false

/-- What is done at a time, when the failing metrics are known. -/
def Scan.note (minDuration : ℤ) (scan : Scan) (ts : ℤ) (failing : Finset Metric) : Scan :=
  match scan.downtimeStart with
  | none =>
      if failing.Nonempty then { scan with downtimeStart := some ts, currentFailed := failing }
      else scan
  | some start =>
      if failing.Nonempty then { scan with currentFailed := scan.currentFailed ∪ failing }
      else
        let duration := (ts - start).tdiv second
        { downtimeStart := none
          currentFailed := ∅
          periods := if minDuration ≤ duration then
              scan.periods ++ [⟨start, some ts, some duration, labels scan.currentFailed⟩]
            else scan.periods }

/-- An ongoing downtime is always included. -/
def Scan.finish (scan : Scan) : List DowntimePeriod :=
  scan.periods ++
    (scan.downtimeStart.map fun start => ⟨start, none, none, labels scan.currentFailed⟩).toList

/-- One turn of the loop. -/
def follow (minDuration : ℤ) (known : States × Scan) (entry : ℤ × States) : States × Scan :=
  let states : States := fun metric => (entry.2 metric).or (known.1 metric)
  (states, known.2.note minDuration entry.1 (failedNow states))

/-- `periods[:limit]`. -/
def firstPeriods (limit : ℤ) (periods : List DowntimePeriod) : List DowntimePeriod :=
  if 0 ≤ limit then periods.take limit.toNat
  else periods.take (periods.length - limit.natAbs)

section Query

variable {V : Type*} (format : LineFormat V) (isUp : V → Bool) (now : ℤ) (series : Metric → Series)

/-- The points of the window of a metric with their states; `isUp` is
`point.value == 1 or point.value is True`. -/
def metricStates (since until_ : Option ℤ) (metric : Metric) : List (ℤ × Metric × Bool) :=
  (query format .raw now since until_ allPointsLimit false (series metric) []).1.map fun point =>
    (point.ts, metric, isUp point.value)

/-- `timeline`, in the order of its keys. -/
def timeline (since until_ : Option ℤ) : List (ℤ × States) :=
  Dict.fill Prod.fst
    (fun old item => Function.update (old.getD fun _ => none) item.2.1 (some item.2.2))
    (Metric.all.flatMap (metricStates format isUp now series since until_)) []

/-- `last_state` before the loop: the last states at or before `since`. -/
def preStates (since : Option ℤ) : States := fun metric =>
  since.bind fun low =>
    (query format .raw now none (some low) 1 true (series metric) []).1.head?.map fun point =>
      isUp point.value

/-- `query_downtime_periods`. -/
def queryDowntimePeriods (since until_ : Option ℤ) (limit minDuration : ℤ) :
    List DowntimePeriod :=
  let entries := timeline format isUp now series since until_
  if entries.isEmpty then []
  else
    let known := entries.foldl (follow minDuration) (preStates format isUp now series since, {})
    firstPeriods limit known.2.finish.reverse

end Query

/-! ## What the periods are to be -/

/-- The newest state among some points at or before a time. -/
def newestState {V : Type*} (isUp : V → Bool) (points : List (Point V)) (ts : ℤ) : Option Bool :=
  (points.filter fun point => decide (point.ts ≤ ts)).getLast?.map fun point => isUp point.value

section Declared

variable {V : Type*} (format : LineFormat V) (isUp : V → Bool) (series : Metric → Series)

/-- The metrics that are down at a time. -/
def downAt (ts : ℤ) : Finset Metric :=
  failedNow fun metric => newestState isUp (allPoints format (series metric)) ts

/-- The times in the window at which a metric has been observed. -/
def observedTimes (since until_ : Option ℤ) : List ℤ :=
  (Finset.univ.biUnion fun metric =>
    (((allPoints format (series metric)).filter (inWindow since until_)).map
      Point.ts).toFinset).sort

end Declared

/-- Some metric is down. -/
def isDown (down : ℤ → Finset Metric) (ts : ℤ) : Bool := decide (down ts).Nonempty

/-- The period of a run of times, up to the time behind it. -/
def periodOf (down : ℤ → Finset Metric) (run : List ℤ) (next : Option ℤ) : DowntimePeriod where
  start := run.head?.getD 0
  end_ := next
  durationSeconds := next.map fun ts => (ts - run.head?.getD 0).tdiv second
  failedServices := labels (run.toFinset.biUnion down)

/-- The first period ends before the second one starts. -/
def EndsBefore (first second : DowntimePeriod) : Prop := ∃ ts ∈ first.end_, ts < second.start

/-- The periods are those of the maximal runs of times at which some metric is
down, except for those that have ended too early; the newest comes first. -/
structure AreDowntimes (down : ℤ → Finset Metric) (minDuration : ℤ) (times : List ℤ)
    (periods : List DowntimePeriod) : Prop where
  mem_iff : ∀ period, period ∈ periods ↔ ∃ run next, MaximalRun (isDown down) times run next ∧
    period = periodOf down run next ∧ ∀ ts ∈ next, minDuration * second ≤ ts - period.start
  newestFirst : periods.Pairwise fun newer older => EndsBefore older newer

/-! ## The loop over times -/

section Loop

variable {down : ℤ → Finset Metric} {minDuration : ℤ}

/-- What is known after some times. -/
structure Kept (down : ℤ → Finset Metric) (minDuration : ℤ) (seen : List ℤ) (scan : Scan) :
    Prop where
  start : scan.downtimeStart = (seen.rtakeWhile (isDown down)).head?
  failed : scan.currentFailed = (seen.rtakeWhile (isDown down)).toFinset.biUnion down
  closed : ∀ period, period ∈ scan.periods ↔ ∃ run next,
    MaximalRun (isDown down) seen run (some next) ∧ period = periodOf down run (some next) ∧
      minDuration * second ≤ next - period.start
  ordered : scan.periods.Pairwise EndsBefore

theorem kept_nil : Kept down minDuration [] {} where
  start := rfl
  failed := rfl
  closed := by
    intro period
    refine ⟨fun hmem => by simp at hmem, ?_⟩
    rintro ⟨run, next, hrun, -⟩
    obtain ⟨front, back, hsplit, hback, -⟩ := hrun.split
    simp_all
  ordered := List.Pairwise.nil

/-- Whole seconds reach a number of seconds when the time does. -/
theorem le_tdiv_second_iff {ts : ℤ} (hts : 0 ≤ ts) :
    minDuration ≤ ts.tdiv second ↔ minDuration * second ≤ ts := by
  rw [Int.tdiv_eq_ediv_of_nonneg hts, Int.le_ediv_iff_mul_le (by decide)]

/-- A time at which a metric is down closes no run. -/
theorem closed_of_down {seen : List ℤ} {scan : Scan} (hkept : Kept down minDuration seen scan)
    {ts : ℤ} (hdown : isDown down ts = true) (period : DowntimePeriod) :
    period ∈ scan.periods ↔ ∃ run next,
      MaximalRun (isDown down) (seen ++ [ts]) run (some next) ∧
        period = periodOf down run (some next) ∧ minDuration * second ≤ next - period.start := by
  rw [hkept.closed]
  refine exists_congr fun run => exists_congr fun next => and_congr_left fun _ => ?_
  rw [maximalRun_snoc_iff]
  refine ⟨Or.inl, ?_⟩
  rintro (hrun | ⟨-, hup, -⟩)
  · exact hrun
  · rw [hdown] at hup
    cases hup

/-- A run goes on, or a new one begins. -/
theorem Kept.note_down {seen : List ℤ} {scan : Scan} (hkept : Kept down minDuration seen scan)
    {ts : ℤ} (hdown : isDown down ts = true) :
    Kept down minDuration (seen ++ [ts]) (scan.note minDuration ts (down ts)) := by
  have hnonempty : (down ts).Nonempty := of_decide_eq_true hdown
  have hrun := List.rtakeWhile_concat_pos _ seen ts hdown
  cases hstart : scan.downtimeStart with
  | none =>
      have hnil : seen.rtakeWhile (isDown down) = [] := by
        rw [← List.head?_eq_none_iff, ← hkept.start, hstart]
      have hnote : scan.note minDuration ts (down ts) =
          { scan with downtimeStart := some ts, currentFailed := down ts } := by
        simp [Scan.note, hstart, hnonempty]
      rw [hnil, List.nil_append] at hrun
      rw [hnote]
      refine ⟨?_, ?_, closed_of_down hkept hdown, hkept.ordered⟩
      · rw [hrun]
        rfl
      · rw [hrun]
        simp
  | some start =>
      have hnote : scan.note minDuration ts (down ts) =
          { scan with currentFailed := scan.currentFailed ∪ down ts } := by
        simp [Scan.note, hstart, hnonempty]
      rw [hnote]
      refine ⟨?_, ?_, closed_of_down hkept hdown, hkept.ordered⟩
      · rw [hrun, List.head?_append, ← hkept.start, hstart]
        rfl
      · change scan.currentFailed ∪ down ts = _
        rw [hrun, hkept.failed, List.toFinset_append, Finset.union_biUnion]
        simp

/-- Everything that has ended ended before the run at the end began. -/
theorem Kept.endsBefore {seen : List ℤ} {scan : Scan} (hkept : Kept down minDuration seen scan)
    (hincreasing : seen.Pairwise (· < ·)) {start : ℤ} (hstart : scan.downtimeStart = some start) :
    ∀ older ∈ scan.periods, ∃ ts ∈ older.end_, ts < start := by
  intro older holder
  obtain ⟨run, next, hrun, rfl, -⟩ := (hkept.closed older).mp holder
  obtain ⟨hmem, hup⟩ := hrun.of_next
  refine ⟨next, rfl, ?_⟩
  rw [hkept.start] at hstart
  have hlast := List.mem_of_mem_head? hstart
  have hsplit : seen.rdropWhile (isDown down) ++ seen.rtakeWhile (isDown down) = seen :=
    List.rdropWhile_append_rtakeWhile
  rw [← hsplit] at hmem hincreasing
  rcases List.mem_append.mp hmem with hfront | hback
  · exact (List.pairwise_append.mp hincreasing).2.2 next hfront start hlast
  · rw [List.mem_rtakeWhile_imp hback] at hup
    cases hup

/-- The run at the end is closed, if there is one. -/
theorem Kept.note_up {seen : List ℤ} {scan : Scan} (hkept : Kept down minDuration seen scan)
    {ts : ℤ} (hlater : ∀ old ∈ seen, old < ts) (hincreasing : seen.Pairwise (· < ·))
    (hup : isDown down ts = false) :
    Kept down minDuration (seen ++ [ts]) (scan.note minDuration ts (down ts)) := by
  have hempty : ¬ (down ts).Nonempty := of_decide_eq_false hup
  have hnil : (seen ++ [ts]).rtakeWhile (isDown down) = [] :=
    List.rtakeWhile_concat_neg _ seen ts (by simp [hup])
  cases hstart : scan.downtimeStart with
  | none =>
      have hrun : seen.rtakeWhile (isDown down) = [] := by
        rw [← List.head?_eq_none_iff, ← hkept.start, hstart]
      have hnote : scan.note minDuration ts (down ts) = scan := by
        simp [Scan.note, hstart, hempty]
      rw [hnote]
      refine ⟨?_, ?_, fun period => ?_, hkept.ordered⟩
      · rw [hnil, hstart]
        rfl
      · rw [hnil, hkept.failed, hrun]
      · rw [hkept.closed]
        refine exists_congr fun run => exists_congr fun next => and_congr_left fun _ => ?_
        rw [maximalRun_snoc_iff]
        refine ⟨Or.inl, ?_⟩
        rintro (hold | ⟨-, -, rfl, hne⟩)
        · exact hold
        · exact absurd hrun hne
  | some start =>
      have hhead : (seen.rtakeWhile (isDown down)).head? = some start := by
        rw [← hkept.start, hstart]
      have hmem : start ∈ seen :=
        (List.rtakeWhile_suffix _ seen).subset (List.mem_of_mem_head? hhead)
      have hwhole : minDuration ≤ (ts - start).tdiv second ↔
          minDuration * second ≤ ts - start :=
        le_tdiv_second_iff (sub_nonneg.mpr (hlater start hmem).le)
      have hperiod : (⟨start, some ts, some ((ts - start).tdiv second),
          labels scan.currentFailed⟩ : DowntimePeriod) =
            periodOf down (seen.rtakeWhile (isDown down)) (some ts) := by
        simp [periodOf, hhead, hkept.failed]
      have hnote : scan.note minDuration ts (down ts) =
          { periods := if minDuration * second ≤ ts - start then
              scan.periods ++ [periodOf down (seen.rtakeWhile (isDown down)) (some ts)]
            else scan.periods } := by
        simp [Scan.note, hstart, hempty, hperiod, hwhole]
      rw [hnote]
      refine ⟨?_, ?_, fun period => ?_, ?_⟩
      · rw [hnil]
        rfl
      · rw [hnil]
        rfl
      · -- the period is kept when it is long enough
        have hnew : (∃ run next, (next = ts ∧ isDown down ts = false ∧
            run = seen.rtakeWhile (isDown down) ∧ run ≠ []) ∧
              period = periodOf down run (some next) ∧
                minDuration * second ≤ next - period.start) ↔
            period = periodOf down (seen.rtakeWhile (isDown down)) (some ts) ∧
              minDuration * second ≤ ts - start := by
          constructor
          · rintro ⟨_, _, ⟨rfl, -, rfl, -⟩, rfl, hlong⟩
            rw [periodOf, hhead] at hlong
            exact ⟨rfl, hlong⟩
          · rintro ⟨rfl, hlong⟩
            refine ⟨_, ts, ⟨rfl, hup, rfl, fun hnone => ?_⟩, rfl, ?_⟩
            · simp [hnone] at hhead
            · rw [periodOf, hhead]
              exact hlong
        simp only [maximalRun_snoc_iff, or_and_right, exists_or]
        rw [hnew, ← hkept.closed]
        split_ifs with hlong
        · simp [hlong]
        · simp [hlong]
      · change (ite _ _ _ : List DowntimePeriod).Pairwise EndsBefore
        split_ifs with hlong
        · refine List.pairwise_append.mpr ⟨hkept.ordered, List.pairwise_singleton _ _, ?_⟩
          intro older holder newer hnewer
          obtain ⟨next, hnext, hlt⟩ := hkept.endsBefore hincreasing hstart older holder
          rw [List.mem_singleton.mp hnewer]
          refine ⟨next, hnext, ?_⟩
          rw [periodOf, hhead]
          exact hlt
        · exact hkept.ordered

theorem Kept.note {seen : List ℤ} {scan : Scan} (hkept : Kept down minDuration seen scan)
    {ts : ℤ} (hlater : ∀ old ∈ seen, old < ts) (hincreasing : seen.Pairwise (· < ·)) :
    Kept down minDuration (seen ++ [ts]) (scan.note minDuration ts (down ts)) := by
  cases hcase : isDown down ts with
  | true => exact hkept.note_down hcase
  | false => exact hkept.note_up hlater hincreasing hcase

theorem kept_foldl {times : List ℤ} (hincreasing : times.Pairwise (· < ·)) :
    Kept down minDuration times
      (times.foldl (fun scan ts => scan.note minDuration ts (down ts)) {}) := by
  induction times using List.reverseRecOn with
  | nil => exact kept_nil
  | append_singleton seen ts ih =>
      obtain ⟨hseen, -, hlater⟩ := List.pairwise_append.mp hincreasing
      rw [List.foldl_append]
      exact (ih hseen).note (fun old hold => hlater old hold ts (List.mem_singleton_self ts)) hseen

/-- The periods of all the maximal runs, also of one at the end. -/
theorem Kept.finish {times : List ℤ} {scan : Scan} (hkept : Kept down minDuration times scan)
    (hincreasing : times.Pairwise (· < ·)) :
    AreDowntimes down minDuration times scan.finish.reverse := by
  have hopen : (scan.downtimeStart.map fun start =>
      (⟨start, none, none, labels scan.currentFailed⟩ : DowntimePeriod)) =
        if times.rtakeWhile (isDown down) = [] then none
        else some (periodOf down (times.rtakeWhile (isDown down)) none) := by
    rw [hkept.start, hkept.failed]
    cases hrun : times.rtakeWhile (isDown down) with
    | nil => rfl
    | cons start rest => rfl
  rw [Scan.finish, hopen]
  constructor
  · intro period
    rw [List.mem_reverse, List.mem_append, hkept.closed]
    constructor
    · rintro (⟨run, next, hrun, hperiod, hlong⟩ | hmem)
      · refine ⟨run, some next, hrun, hperiod, ?_⟩
        rintro _ ⟨⟩
        exact hlong
      · split_ifs at hmem with hnil
        · simp at hmem
        · exact ⟨_, none, maximalRun_none_iff.mpr ⟨rfl, hnil⟩, by simpa using hmem, by simp⟩
    · rintro ⟨run, next, hrun, hperiod, hlong⟩
      cases next with
      | none =>
          obtain ⟨rfl, hne⟩ := maximalRun_none_iff.mp hrun
          exact Or.inr (by simp [hne, hperiod])
      | some next => exact Or.inl ⟨run, next, hrun, hperiod, hlong next rfl⟩
  · rw [List.pairwise_reverse]
    refine List.pairwise_append.mpr ⟨hkept.ordered, ?_, ?_⟩
    · split_ifs
      · exact List.Pairwise.nil
      · exact List.pairwise_singleton _ _
    · intro older holder newer hnewer
      split_ifs at hnewer with hnil
      · simp at hnewer
      · obtain ⟨start, rest, hrun⟩ := List.exists_cons_of_ne_nil hnil
        have hstart : scan.downtimeStart = some start := by
          rw [hkept.start, hrun]
          rfl
        obtain ⟨next, hnext, hlt⟩ := hkept.endsBefore hincreasing hstart older holder
        rw [hrun] at hnewer
        rw [show newer = periodOf down (start :: rest) none by simpa using hnewer]
        exact ⟨next, hnext, hlt⟩

end Loop

/-! ## The timeline -/

section Timeline

variable {V : Type*} {format : LineFormat V} {isUp : V → Bool} {now : ℤ}
  {series : Metric → Series} {since until_ : Option ℤ}

/-- The stored points of the window of a metric. -/
def windowPoints (format : LineFormat V) (series : Metric → Series) (since until_ : Option ℤ)
    (metric : Metric) : List (Point V) :=
  (allPoints format (series metric)).filter (inWindow since until_)

/-- There are fewer times than the limit. -/
theorem length_le_allPointsLimit {points : List (Point V)}
    (hincreasing : points.Pairwise fun earlier later => earlier.ts < later.ts)
    (htimes : ∀ point ∈ points, JsonLine.representable point.ts = true) :
    points.length ≤ allPointsLimit := by
  have hnodup : (points.map Point.ts).Nodup :=
    (List.pairwise_map.mpr hincreasing).imp ne_of_lt
  have hrange : (points.map Point.ts).toFinset ⊆
      Finset.Ico (startOfDay 1) (startOfDay 3652060) := by
    intro ts hts
    obtain ⟨point, hpoint, rfl⟩ := List.mem_map.mp (List.mem_toFinset.mp hts)
    obtain ⟨hlow, hhigh⟩ : 1 ≤ yearOf (ordinalOf point.ts) ∧
        yearOf (ordinalOf point.ts) ≤ 9999 := by
      simpa [JsonLine.representable] using htimes point hpoint
    obtain ⟨hfirst, hlast⟩ := yearOf_spec (ordinalOf point.ts)
    have hbegin := (daysBeforeYear_mono hlow).trans_lt hfirst
    have hend := hlast.trans (daysBeforeYear_mono (Int.add_le_add_right hhigh 1))
    exact Finset.mem_Ico.mpr ⟨startOfDay_le_of_le hbegin,
      lt_startOfDay_of_lt (hend.trans_lt (by decide))⟩
  have hcard := Finset.card_le_card hrange
  rw [List.toFinset_card_of_nodup hnodup, List.length_map, Int.card_Ico] at hcard
  exact hcard.trans (by decide)

theorem metricStates_eq (isUp : V → Bool) (since until_ : Option ℤ)
    (hstored : ∀ metric, Stored format .raw now (series metric))
    (hincreasing : ∀ metric, (allPoints format (series metric)).Pairwise
      fun earlier later => earlier.ts < later.ts)
    (htimes : ∀ metric, ∀ point ∈ allPoints format (series metric),
      JsonLine.representable point.ts = true)
    (metric : Metric) :
    metricStates format isUp now series since until_ metric =
      (windowPoints format series since until_ metric).map fun point =>
        (point.ts, metric, isUp point.value) := by
  have hvisible := visible_of_placed (hstored metric).placed (hstored metric).closed
  have hlength : (windowPoints format series since until_ metric).length ≤ allPointsLimit :=
    (List.length_filter_le ..).trans
      (length_le_allPointsLimit (hincreasing metric) (htimes metric))
  rw [metricStates, query_eq_of_bounded hvisible (by decide) rfl, if_neg Bool.false_ne_true,
    points_window, ← allPoints, ← windowPoints, List.take_of_length_le hlength]

theorem preStates_eq (hstored : ∀ metric, Stored format .raw now (series metric)) :
    preStates format isUp now series since = fun metric =>
      since.bind (newestState isUp (allPoints format (series metric))) := by
  funext metric
  cases since with
  | none => rfl
  | some low =>
      have hvisible := visible_of_placed (hstored metric).placed (hstored metric).closed
      have hwindow : (inWindow none (some low) : Point V → Bool) = fun point =>
          decide (point.ts ≤ low) := by
        funext point
        rw [Bool.eq_iff_iff]
        simp [inWindow]
      rw [preStates, Option.bind_some, Option.bind_some,
        query_eq_of_bounded hvisible one_ne_zero (by simp), if_pos rfl, points_window, ← allPoints,
        hwindow, Tail.head?_rtake_one, newestState]

/-- All the items that are put into the timeline. -/
theorem filter_metric (window : Metric → List (Point V)) (metric : Metric) :
    (Metric.all.flatMap fun other => (window other).map fun point =>
      (point.ts, other, isUp point.value)).filter (fun item => decide (item.2.1 = metric)) =
        (window metric).map fun point => (point.ts, metric, isUp point.value) := by
  cases metric <;> simp [Metric.all, List.filter_map, Function.comp_def]

/-- The last state of every metric stays. -/
theorem foldl_update (items : List (ℤ × Metric × Bool)) (states : States) (metric : Metric) :
    (items.foldl (fun (states : States) item =>
      Function.update states item.2.1 (some item.2.2)) states) metric =
        ((items.filter fun item => decide (item.2.1 = metric)).getLast?.map fun item =>
          item.2.2).or (states metric) := by
  induction items using List.reverseRecOn with
  | nil => rfl
  | append_singleton items item ih =>
      rw [List.foldl_append, List.foldl_cons, List.foldl_nil, List.filter_append]
      by_cases hmetric : item.2.1 = metric
      · simp [hmetric]
      · rw [Function.update_of_ne (Ne.symm hmetric), ih]
        simp [hmetric]

/-- What the timeline holds, when the windows are known. -/
theorem get?_timeline (window : Metric → List (Point V))
    (hwindow : ∀ metric, metricStates format isUp now series since until_ metric =
      (window metric).map fun point => (point.ts, metric, isUp point.value)) (ts : ℤ) :
    Dict.get? ts (timeline format isUp now series since until_) =
      if ∀ metric, ∀ point ∈ window metric, point.ts ≠ ts then none
      else some fun metric => ((window metric).filter fun point =>
        decide (point.ts = ts)).getLast?.map fun point => isUp point.value := by
  have hitems : Metric.all.flatMap (metricStates format isUp now series since until_) =
      Metric.all.flatMap fun other => (window other).map fun point =>
        (point.ts, other, isUp point.value) :=
    List.flatMap_congr fun metric _ => hwindow metric
  have hget := Dict.get?_fill_getD Prod.fst (fun _ => none : States)
    (fun states item => Function.update states item.2.1 (some item.2.2))
    (Metric.all.flatMap (metricStates format isUp now series since until_)) ts
  have hnone : (Metric.all.flatMap (metricStates format isUp now series since until_)).filter
      (fun item => decide (ts = item.1)) = [] ↔
        ∀ metric, ∀ point ∈ window metric, point.ts ≠ ts := by
    rw [hitems, List.filter_eq_nil_iff]
    simp only [List.mem_flatMap, List.mem_map, decide_eq_true_eq]
    constructor
    · rintro hall metric point hpoint rfl
      exact hall _ ⟨metric, Metric.mem_all metric, point, hpoint, rfl⟩ rfl
    · rintro hall _ ⟨metric, -, point, hpoint, rfl⟩ rfl
      exact hall metric point hpoint rfl
  rw [timeline, hget, if_congr hnone rfl rfl]
  congr 2
  funext metric
  rw [foldl_update, Option.or_none, List.filter_comm, hitems, filter_metric, List.filter_map]
  simp [Function.comp_def, eq_comm]

theorem mem_observedTimes {ts : ℤ} :
    ts ∈ observedTimes format series since until_ ↔
      ∃ metric, ∃ point ∈ windowPoints format series since until_ metric, point.ts = ts := by
  simp [observedTimes, windowPoints]

theorem ordered_timeline (format : LineFormat V) (isUp : V → Bool) (now : ℤ)
    (series : Metric → Series) (since until_ : Option ℤ) :
    Dict.Ordered (timeline format isUp now series since until_) :=
  Dict.Ordered.fill _ Dict.ordered_nil

/-- The times of the timeline are those that have been observed. -/
theorem map_fst_timeline
    (hwindow : ∀ metric, metricStates format isUp now series since until_ metric =
      (windowPoints format series since until_ metric).map fun point =>
        (point.ts, metric, isUp point.value)) :
    (timeline format isUp now series since until_).map Prod.fst =
      observedTimes format series since until_ := by
  have hordered := ordered_timeline format isUp now series since until_
  have hkeys : ((timeline format isUp now series since until_).map Prod.fst).Pairwise (· < ·) :=
    List.pairwise_map.mpr hordered
  refine Increasing.eq_of_mem_iff (fun a b => lt_asymm) hkeys
    (Finset.sortedLT_sort _).pairwise fun ts => ?_
  rw [mem_observedTimes]
  have hget := get?_timeline (windowPoints format series since until_) hwindow ts
  constructor
  · intro hmem
    obtain ⟨entry, hentry, rfl⟩ := List.mem_map.mp hmem
    rw [Dict.get?_of_mem hordered hentry] at hget
    split_ifs at hget with hnone
    push Not at hnone
    exact hnone
  · rintro ⟨metric, point, hpoint, hts⟩
    rw [if_neg fun hnone => hnone metric point hpoint hts] at hget
    exact List.mem_map_of_mem (f := Prod.fst) (Dict.mem_of_get? hget)

/-- The newest state at a time: that of the point of this time, if there is one,
else what was known before. -/
theorem newestState_eq {points : List (Point V)}
    (hincreasing : points.Pairwise fun earlier later => earlier.ts < later.ts)
    {before : Option ℤ} {ts : ℤ} (hbefore : ∀ old ∈ before, old ≤ ts)
    (hcover : ∀ point ∈ points, point.ts ≤ ts → point.ts = ts ∨ ∃ old ∈ before, point.ts ≤ old) :
    newestState isUp points ts =
      (((points.filter fun point => decide (point.ts = ts)).getLast?).map fun point =>
        isUp point.value).or (before.bind (newestState isUp points)) := by
  have hsplit : (points.filter fun point => decide (point.ts ≤ ts)) =
      (points.filter fun point => decide (point.ts < ts)) ++
        points.filter fun point => decide (point.ts = ts) := by
    rw [← Increasing.filter_append_filter_not
      (fun earlier later hlt => lt_asymm hlt) (hincreasing.filter fun point =>
        decide (point.ts ≤ ts)) (fun point => decide (point.ts < ts)) ?_]
    · rw [List.filter_filter, List.filter_filter]
      congr 1
      · refine List.filter_congr fun point _ => ?_
        rw [Bool.eq_iff_iff]
        simpa using le_of_lt
      · refine List.filter_congr fun point _ => ?_
        rw [Bool.eq_iff_iff]
        simp only [Bool.and_eq_true, Bool.not_eq_true', decide_eq_true_eq, decide_eq_false_iff_not]
        omega
    · intro a _ b _ hearly hlate
      simp only [decide_eq_true_eq, decide_eq_false_iff_not, not_lt] at hearly hlate
      exact hearly.trans_le hlate
  by_cases hat : (points.filter fun point => decide (point.ts = ts)) = []
  · -- nothing has been observed at this time
    have hnone : ∀ point ∈ points, point.ts ≠ ts := by
      simpa [List.filter_eq_nil_iff] using hat
    rw [hat, List.getLast?_nil, Option.map_none, Option.none_or]
    cases before with
    | none =>
        have hempty : (points.filter fun point => decide (point.ts ≤ ts)) = [] := by
          refine List.filter_eq_nil_iff.mpr fun point hpoint hle => ?_
          rcases hcover point hpoint (of_decide_eq_true hle) with heq | ⟨old, hold, -⟩
          · exact hnone point hpoint heq
          · cases hold
        rw [newestState, hempty]
        rfl
    | some old =>
        rw [Option.bind_some, newestState, newestState]
        congr 2
        refine List.filter_congr fun point hpoint => decide_eq_decide.mpr ⟨fun hle => ?_, fun hle =>
          hle.trans (hbefore old rfl)⟩
        rcases hcover point hpoint hle with heq | ⟨_, ⟨⟩, hold⟩
        · exact absurd heq (hnone point hpoint)
        · exact hold
  · rw [newestState, hsplit, List.getLast?_append, List.getLast?_eq_some_getLast hat]
    rfl

/-- The loop over the timeline works with the newest states. -/
theorem follow_foldl (isUp : V → Bool) (minDuration : ℤ)
    (hincreasing : ∀ metric, (allPoints format (series metric)).Pairwise
      fun earlier later => earlier.ts < later.ts)
    (entries : List (ℤ × States)) {before : Option ℤ} (known : States × Scan)
    (hknown : known.1 = fun metric =>
      before.bind (newestState isUp (allPoints format (series metric))))
    (hentries : ∀ entry ∈ entries, entry.2 = fun metric =>
      ((allPoints format (series metric)).filter fun point =>
        decide (point.ts = entry.1)).getLast?.map fun point => isUp point.value)
    (hordered : (entries.map Prod.fst).Pairwise (· < ·))
    (hbefore : ∀ old ∈ before, ∀ entry ∈ entries, old ≤ entry.1)
    (hcover : ∀ metric, ∀ point ∈ allPoints format (series metric), ∀ entry ∈ entries,
      point.ts ≤ entry.1 → point.ts ∈ entries.map Prod.fst ∨ ∃ old ∈ before, point.ts ≤ old) :
    (entries.foldl (follow minDuration) known).2 =
      (entries.map Prod.fst).foldl
        (fun scan ts => scan.note minDuration ts (downAt format isUp series ts)) known.2 := by
  induction entries generalizing before known with
  | nil => rfl
  | cons entry rest ih =>
      rw [List.map_cons, List.pairwise_cons] at hordered
      obtain ⟨hfirst, hrest⟩ := hordered
      have hstates : (fun metric => (entry.2 metric).or (known.1 metric)) = fun metric =>
          newestState isUp (allPoints format (series metric)) entry.1 := by
        funext metric
        rw [hentries entry (List.mem_cons_self ..), hknown]
        refine (newestState_eq (hincreasing metric)
          (fun old hold => hbefore old hold entry (List.mem_cons_self ..))
          fun point hpoint hle => ?_).symm
        refine (hcover metric point hpoint entry (List.mem_cons_self ..) hle).imp_left
          fun hmem => ?_
        rcases List.mem_cons.mp hmem with heq | hlater
        · exact heq
        · exact absurd (hfirst _ hlater) hle.not_gt
      rw [List.foldl_cons, List.map_cons, List.foldl_cons, @ih (some entry.1)]
      · rw [follow, hstates]
        rfl
      · rw [follow, hstates]
        rfl
      · exact fun other hother => hentries other (List.mem_cons_of_mem _ hother)
      · exact hrest
      · rintro _ ⟨⟩ other hother
        exact (hfirst _ (List.mem_map_of_mem hother)).le
      · intro metric point hpoint other hother hle
        rcases hcover metric point hpoint other (List.mem_cons_of_mem _ hother) hle with
          hmem | ⟨old, hold, hle⟩
        · rcases List.mem_cons.mp hmem with heq | hlater
          · exact Or.inr ⟨entry.1, rfl, heq.le⟩
          · exact Or.inl hlater
        · exact Or.inr ⟨entry.1, rfl, hle.trans (hbefore old hold entry (List.mem_cons_self ..))⟩

end Timeline

/-! ## The periods that are returned -/

theorem firstPeriods_of_le {limit : ℤ} {periods : List DowntimePeriod}
    (hlimit : (periods.length : ℤ) ≤ limit) : firstPeriods limit periods = periods := by
  rw [firstPeriods, if_pos (by omega), List.take_of_length_le (by omega)]

/-- The downtime periods of any window are those of the maximal runs of observed
times at which the newest state of some metric is down, the newest first; a limit
that has room for them cuts nothing. -/
theorem downtime_periods_are_the_runs {V : Type*} {format : LineFormat V} (isUp : V → Bool)
    {now : ℤ} {series : Metric → Series} (since until_ : Option ℤ) (minDuration : ℤ)
    (hstored : ∀ metric, Stored format .raw now (series metric))
    (hincreasing : ∀ metric, (allPoints format (series metric)).Pairwise
      fun earlier later => earlier.ts < later.ts)
    (htimes : ∀ metric, ∀ point ∈ allPoints format (series metric),
      JsonLine.representable point.ts = true) :
    ∃ periods, AreDowntimes (downAt format isUp series) minDuration
        (observedTimes format series since until_) periods ∧
      ∀ limit : ℤ, periods.length ≤ limit →
        queryDowntimePeriods format isUp now series since until_ limit minDuration = periods := by
  have hwindow := metricStates_eq isUp since until_ hstored hincreasing htimes
  have hkeys := map_fst_timeline hwindow
  have hordered : (observedTimes format series since until_).Pairwise (· < ·) :=
    (Finset.sortedLT_sort _).pairwise
  have hin : ∀ entry ∈ timeline format isUp now series since until_,
      (∀ low ∈ since, low ≤ entry.1) ∧ ∀ high ∈ until_, entry.1 ≤ high := by
    intro entry hentry
    obtain ⟨metric, point, hpoint, hts⟩ :=
      mem_observedTimes.mp (hkeys ▸ List.mem_map_of_mem hentry)
    rw [← hts]
    exact inWindow_iff.mp (List.mem_filter.mp hpoint).2
  have hfold := follow_foldl isUp minDuration hincreasing
    (timeline format isUp now series since until_) (preStates format isUp now series since, {})
    (preStates_eq hstored) ?_ ?_ ?_ ?_
  · refine ⟨_, (kept_foldl hordered).finish hordered, fun limit hlimit => ?_⟩
    rw [queryDowntimePeriods]
    dsimp only
    split_ifs with hempty
    · rw [← hkeys, List.isEmpty_iff.mp hempty]
      rfl
    · rw [hfold, hkeys, firstPeriods_of_le hlimit]
  · intro entry hentry
    have hget := get?_timeline (windowPoints format series since until_) hwindow entry.1
    rw [Dict.get?_of_mem (ordered_timeline ..) hentry] at hget
    split_ifs at hget
    rw [Option.some.inj hget]
    funext metric
    rw [windowPoints, List.filter_filter]
    congr 2
    refine List.filter_congr fun point _ => ?_
    by_cases hts : point.ts = entry.1
    · have hinside : inWindow since until_ point = true := inWindow_iff.mpr (hts ▸ hin entry hentry)
      simp [hts, hinside]
    · simp [hts]
  · rw [hkeys]
    exact hordered
  · exact fun low hlow entry hentry => (hin entry hentry).1 low hlow
  · intro metric point hpoint entry hentry hle
    by_cases hearly : ∀ low ∈ since, low ≤ point.ts
    · refine Or.inl ?_
      rw [hkeys]
      refine mem_observedTimes.mpr ⟨metric, point, List.mem_filter.mpr ⟨hpoint, ?_⟩, rfl⟩
      exact inWindow_iff.mpr ⟨hearly, fun high hhigh =>
        hle.trans ((hin entry hentry).2 high hhigh)⟩
    · push Not at hearly
      obtain ⟨low, hlow, hlt⟩ := hearly
      exact Or.inr ⟨low, hlow, hlt.le⟩

/-- The values of a check that passed and of one that failed. -/
def passed : Fin 10 := Fin.castAdd 8 (Fin.last 1)
def failed : Fin 10 := Fin.castAdd 9 (Fin.last 0)

/-- HTTP is down for a minute while ping answers late, and ping fails at the end. -/
def troubled : Metric → Series
  | .http => activeSeries
      [(1000 * second, passed), (1060 * second, failed), (1120 * second, passed)]
  | .ping => activeSeries [(1001 * second, passed), (1061 * second, failed),
      (1121 * second, passed), (1181 * second, failed)]
  | .tcp => Series.empty

theorem downtime_periods_are_the_runs_troubled :
    ∃ periods, AreDowntimes (downAt JsonLine.format (· == 1) troubled) 60
        (observedTimes JsonLine.format troubled (some (1000 * second)) none) periods ∧
      ∀ limit : ℤ, periods.length ≤ limit →
        queryDowntimePeriods JsonLine.format (· == 1) day troubled (some (1000 * second)) none limit
          60 = periods := by
  refine downtime_periods_are_the_runs (· == 1) (some (1000 * second)) none 60 (fun metric => ?_)
    (by decide +kernel) (by decide +kernel)
  exact stored_of_segments_nil _ _ _ (by cases metric <;> rfl)

example : queryDowntimePeriods JsonLine.format (· == 1) day troubled (some (1000 * second)) none 20
    60 = [⟨1181 * second, none, none, ["Ping".toList]⟩,
      ⟨1060 * second, some (1121 * second), some 61, ["HTTP".toList, "Ping".toList]⟩] := by
  decide +kernel

end Justup.Charts
