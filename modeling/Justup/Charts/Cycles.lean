import Justup.Charts.Availability

/-!
# One sample per check cycle

A cycle is told apart from the one before if it begins more than two seconds
later or if its first point is of a metric that the one before has, too.
-/

namespace Justup.Charts

open Justup.Lib Justup.Store

/-! ## Check cycles -/

/-- A check cycle: the time stamp of the point of each metric that has one.  The
scheduler stamps all of them alike; older points were stamped one by one. -/
abbrev Cycle := Text → Option ℤ

/-- The points that a cycle adds to the stream of a metric. -/
def Cycle.points (cycle : Cycle) (metric : Text) : List (ℤ × Text) :=
  ((cycle metric).map fun ts => (ts, metric)).toList

/-- The points of a cycle in the order of the merge. -/
def pointsOf (metrics : List Text) (cycle : Cycle) : List (ℤ × Text) :=
  Merge.mergeAll Prod.fst (metrics.map cycle.points)

/-- The time stamp of a cycle, that of its first point. -/
def startOf (metrics : List Text) (cycle : Cycle) : ℤ := ((metrics.filterMap cycle).min?).getD 0

/-- Every metric of the cycle is up. -/
def allUp (metrics : List Text) (up : ℤ → Text → Bool) (cycle : Cycle) : Bool :=
  metrics.all fun metric => (cycle metric).all fun ts => up ts metric

/-- The stream of a metric. -/
def streamOf (up : ℤ → Text → Bool) (cycles : List Cycle) (metric : Text) : List Event :=
  eventsOf up (cycles.flatMap fun cycle => cycle.points metric)

/-- Cycles one after another: each has a point of some metric, its points lie
within two seconds of the first one, and they all come before those of the next. -/
structure Timetable (metrics : List Text) (cycles : List Cycle) : Prop where
  present : ∀ cycle ∈ cycles, ∃ metric ∈ metrics, (cycle metric).isSome
  together : ∀ cycle ∈ cycles, ∀ metric ∈ metrics, ∀ ts ∈ cycle metric,
    ts ≤ startOf metrics cycle + cycleWindow
  apart : cycles.Pairwise fun before after => ∀ metric ∈ metrics, ∀ other ∈ metrics,
    ∀ ts ∈ before metric, ∀ ts' ∈ after other, ts < ts'

/-- The cycle begins more than two seconds after the one before, or its first point
is of a metric that the one before has as well. -/
def ToldApart (metrics : List Text) (before after : Cycle) : Prop :=
  startOf metrics before + cycleWindow < startOf metrics after ∨
    ∃ first ∈ (pointsOf metrics after).head?, (before first.2).isSome

/-! ## The points of a cycle -/

section Points

variable {metrics : List Text} {cycle : Cycle}

theorem mem_points {metric : Text} {point : ℤ × Text} :
    point ∈ cycle.points metric ↔ point.2 = metric ∧ cycle metric = some point.1 := by
  obtain ⟨ts, other⟩ := point
  simp only [Cycle.points, Option.mem_toList, Option.map_eq_some_iff, Prod.mk.injEq]
  constructor
  · rintro ⟨ts', hts, rfl, rfl⟩
    exact ⟨rfl, hts⟩
  · rintro ⟨rfl, hts⟩
    exact ⟨ts, hts, rfl, rfl⟩

theorem mem_pointsOf {point : ℤ × Text} :
    point ∈ pointsOf metrics cycle ↔ point.2 ∈ metrics ∧ cycle point.2 = some point.1 := by
  simp only [pointsOf, Merge.mem_mergeAll, List.mem_map]
  constructor
  · rintro ⟨_, ⟨metric, hmetric, rfl⟩, hpoint⟩
    obtain ⟨rfl, hts⟩ := mem_points.mp hpoint
    exact ⟨hmetric, hts⟩
  · rintro ⟨hmetric, hts⟩
    exact ⟨_, ⟨_, hmetric, rfl⟩, mem_points.mpr ⟨rfl, hts⟩⟩

theorem ordered_pointsOf (metrics : List Text) (cycle : Cycle) :
    (pointsOf metrics cycle).Pairwise fun earlier later => earlier.1 ≤ later.1 := by
  refine Merge.pairwise_mergeAll fun stream hstream => ?_
  obtain ⟨metric, -, rfl⟩ := List.mem_map.mp hstream
  unfold Cycle.points
  cases cycle metric <;> simp

theorem map_snd_flatten_points (metrics : List Text) (cycle : Cycle) :
    ((metrics.map cycle.points).flatten.map Prod.snd) =
      metrics.filter fun metric => (cycle metric).isSome := by
  induction metrics with
  | nil => rfl
  | cons metric metrics ih =>
      rw [List.map_cons, List.flatten_cons, List.map_append, ih]
      cases hcycle : cycle metric <;> simp [Cycle.points, hcycle]

theorem nodup_pointsOf (hnodup : metrics.Nodup) :
    ((pointsOf metrics cycle).map Prod.snd).Nodup := by
  have hperm := (Merge.perm_flatten Prod.fst (metrics.map cycle.points)).map Prod.snd
  rw [map_snd_flatten_points] at hperm
  exact hperm.nodup_iff.mpr (hnodup.filter _)

theorem map_fst_flatten_points (metrics : List Text) (cycle : Cycle) :
    (metrics.map cycle.points).flatten.map Prod.fst = metrics.filterMap cycle := by
  induction metrics with
  | nil => rfl
  | cons metric metrics ih =>
      rw [List.map_cons, List.flatten_cons, List.map_append, ih]
      cases hcycle : cycle metric <;> simp [Cycle.points, hcycle]

theorem map_fst_pointsOf_perm (metrics : List Text) (cycle : Cycle) :
    ((pointsOf metrics cycle).map Prod.fst).Perm (metrics.filterMap cycle) := by
  rw [← map_fst_flatten_points]
  exact (Merge.perm_flatten Prod.fst (metrics.map cycle.points)).map Prod.fst

/-- The first point carries the time stamp of the cycle. -/
theorem blockStart_pointsOf (metrics : List Text) (cycle : Cycle) :
    blockStart (pointsOf metrics cycle) = startOf metrics cycle := by
  have hperm := map_fst_pointsOf_perm metrics cycle
  have hordered := ordered_pointsOf metrics cycle
  unfold blockStart startOf
  cases hpoints : pointsOf metrics cycle with
  | nil =>
      rw [hpoints, List.map_nil] at hperm
      rw [hperm.symm.eq_nil]
      rfl
  | cons first rest =>
      rw [hpoints] at hperm hordered
      have hleast : (metrics.filterMap cycle).min? = some first.1 := by
        refine List.min?_eq_some_iff.mpr
          ⟨hperm.mem_iff.mp (List.mem_cons_self ..), fun ts hts => ?_⟩
        obtain ⟨point, hpoint, rfl⟩ := List.mem_map.mp (hperm.mem_iff.mpr hts)
        rcases List.mem_cons.mp hpoint with rfl | hrest
        · exact le_rfl
        · exact (List.pairwise_cons.mp hordered).1 point hrest
      rw [hleast]
      rfl

/-- The group of a cycle gives the wanted sample. -/
theorem sample_blockGroup (metrics : List Text) (up : ℤ → Text → Bool) (cycle : Cycle) :
    (blockGroup up (pointsOf metrics cycle)).sample =
      (startOf metrics cycle, allUp metrics up cycle) := by
  refine Prod.ext (blockStart_pointsOf metrics cycle) ?_
  change ((pointsOf metrics cycle).map fun point => (point.2, up point.1 point.2)).all Prod.snd = _
  rw [Bool.eq_iff_iff, List.all_eq_true, allUp, List.all_eq_true]
  constructor
  · intro hall metric hmetric
    rw [Option.all_eq_true]
    intro ts hts
    exact hall (metric, up ts metric)
      (List.mem_map.mpr ⟨(ts, metric), mem_pointsOf.mpr ⟨hmetric, hts⟩, rfl⟩)
  · intro hall entry hentry
    obtain ⟨point, hpoint, rfl⟩ := List.mem_map.mp hentry
    obtain ⟨hmetric, hts⟩ := mem_pointsOf.mp hpoint
    have hmetricUp := hall point.2 hmetric
    rw [Option.all_eq_true] at hmetricUp
    exact hmetricUp point.1 hts

end Points

/-! ## Timetables -/

section Timetables

variable {metrics : List Text} {cycles : List Cycle}

theorem isBlock_pointsOf (hnodup : metrics.Nodup) (htable : Timetable metrics cycles)
    {cycle : Cycle} (hcycle : cycle ∈ cycles) : IsBlock (pointsOf metrics cycle) where
  ne_nil := by
    obtain ⟨metric, hmetric, hsome⟩ := htable.present cycle hcycle
    obtain ⟨ts, hts⟩ := Option.isSome_iff_exists.mp hsome
    have hpoint : (ts, metric) ∈ pointsOf metrics cycle := mem_pointsOf.mpr ⟨hmetric, hts⟩
    exact List.ne_nil_of_mem hpoint
  nodup := nodup_pointsOf hnodup
  close := fun point hpoint => by
    obtain ⟨hmetric, hts⟩ := mem_pointsOf.mp hpoint
    rw [blockStart_pointsOf]
    exact htable.together cycle hcycle point.2 hmetric point.1 hts

/-- The streams are merged cycle by cycle. -/
theorem mergeAll_streamOf (htable : Timetable metrics cycles) (up : ℤ → Text → Bool) :
    Merge.mergeAll Event.ts (metrics.map (streamOf up cycles)) =
      eventsOf up (cycles.map (pointsOf metrics)).flatten := by
  have hapart : Merge.Apart Prod.fst cycles
      (metrics.map fun metric (cycle : Cycle) => cycle.points metric) := by
    refine htable.apart.imp fun hbefore f hf g hg a ha b hb => ?_
    obtain ⟨metric, hmetric, rfl⟩ := List.mem_map.mp hf
    obtain ⟨other, hother, rfl⟩ := List.mem_map.mp hg
    exact hbefore metric hmetric other hother a.1 (mem_points.mp ha).2 b.1 (mem_points.mp hb).2
  have hrows := Merge.mergeAll_flatMap hapart
  rw [List.map_map] at hrows
  have hmap := @Merge.mergeAll_map _ _ _ _ Prod.fst Event.ts
    (fun point : ℤ × Text => ⟨point.1, point.2, up point.1 point.2⟩) (fun _ => rfl)
    (metrics.map fun metric => cycles.flatMap fun cycle => cycle.points metric)
  rw [List.map_map] at hmap
  refine hmap.trans ?_
  rw [eventsOf, ← List.flatMap_def]
  refine congrArg _ (hrows.trans ?_)
  simp only [List.map_map]
  rfl

theorem parted_iff {before after : Cycle} (hmetrics : ∀ point ∈ pointsOf metrics after,
    point.2 ∈ metrics) :
    Parted (pointsOf metrics before) (pointsOf metrics after) ↔ ToldApart metrics before after := by
  unfold Parted ToldApart
  rw [blockStart_pointsOf, blockStart_pointsOf]
  refine or_congr Iff.rfl (exists_congr fun first => and_congr_right fun hfirst => ?_)
  have hmetric := hmetrics first (List.mem_of_head? hfirst)
  rw [List.mem_map, Option.isSome_iff_exists]
  constructor
  · rintro ⟨point, hpoint, heq⟩
    exact ⟨point.1, heq ▸ (mem_pointsOf.mp hpoint).2⟩
  · rintro ⟨ts, hts⟩
    exact ⟨(ts, first.2), mem_pointsOf.mpr ⟨hmetric, hts⟩, rfl⟩

/-- The samples are those of the cycles if and only if the cycles are told apart. -/
theorem combineAvailability_streams_iff (hnodup : metrics.Nodup)
    (htable : Timetable metrics cycles) :
    (∀ up, combineAvailability (Merge.mergeAll Event.ts (metrics.map (streamOf up cycles))) =
        cycles.map fun cycle => (startOf metrics cycle, allUp metrics up cycle)) ↔
      cycles.IsChain (ToldApart metrics) := by
  have hblocks : ∀ block ∈ cycles.map (pointsOf metrics), IsBlock block := by
    intro block hblock
    obtain ⟨cycle, hcycle, rfl⟩ := List.mem_map.mp hblock
    exact isBlock_pointsOf hnodup htable hcycle
  have hchain : (cycles.map (pointsOf metrics)).IsChain Parted ↔
      cycles.IsChain (ToldApart metrics) := by
    rw [List.isChain_map]
    have hiff : ∀ before after, Parted (pointsOf metrics before) (pointsOf metrics after) ↔
        ToldApart metrics before after := fun before after =>
      parted_iff fun point hpoint => (mem_pointsOf.mp hpoint).1
    exact ⟨fun h => h.imp fun before after => (hiff before after).mp,
      fun h => h.imp fun before after => (hiff before after).mpr⟩
  rw [← hchain, ← combineAvailability_eq_samplesOf_iff hblocks]
  refine forall_congr' fun up => ?_
  rw [mergeAll_streamOf htable, samplesOf, List.map_map]
  have hsamples :
      cycles.map ((fun block => (blockGroup up block).sample) ∘ pointsOf metrics) =
      cycles.map fun cycle => (startOf metrics cycle, allUp metrics up cycle) :=
    List.map_congr_left fun cycle _ => sample_blockGroup metrics up cycle
  rw [hsamples]

end Timetables

/-! ## Counting -/

section Counts

variable {V : Type*} {format : LineFormat V} {asBit : V → Option Bool} {now : ℤ}
  {since until_ : Option ℤ} {metrics : List Text} {cycles : List Cycle}

/-- The stored points of a metric in the window are those of the cycles. -/
def Holds (format : LineFormat V) (asBit : V → Option Bool) (now : ℤ) (since until_ : Option ℤ)
    (up : ℤ → Text → Bool) (cycles : List Cycle) (metric : Text) (s : Series) : Prop :=
  binaryPoints format asBit now since until_ s = cycles.flatMap fun cycle =>
    (cycle.points metric).map fun point => ⟨point.1, up point.1 point.2⟩

theorem binaryPoints_of_not_exists {s : Series} (hexists : seriesExists s = false) :
    binaryPoints format asBit now since until_ s = [] := by
  obtain ⟨hactive, hsegments⟩ : s.active = none ∧ s.segments = [] := by
    simpa [seriesExists] using hexists
  simp [binaryPoints, iterSeriesLines, openSnapshot, hactive, hsegments, points]

/-- With one metric every cycle is a point of it. -/
theorem countBinaryPoints_eq {metric : Text} {up : ℤ → Text → Bool} {s : Series}
    (hpresent : ∀ cycle ∈ cycles, (cycle metric).isSome)
    (hholds : Holds format asBit now since until_ up cycles metric s) :
    countBinaryPoints format asBit now since until_ s =
      (cycles.countP (allUp [metric] up), cycles.length) := by
  have hpoints : ∀ list : List Cycle, (∀ cycle ∈ list, (cycle metric).isSome) →
      (list.flatMap fun cycle => (cycle.points metric).map fun point =>
        (⟨point.1, up point.1 point.2⟩ : Point Bool)).countP Point.value =
          list.countP (allUp [metric] up) ∧
      (list.flatMap fun cycle => (cycle.points metric).map fun point =>
        (⟨point.1, up point.1 point.2⟩ : Point Bool)).length = list.length := by
    intro list hlist
    induction list with
    | nil => exact ⟨rfl, rfl⟩
    | cons cycle list ih =>
        obtain ⟨hcount, hlength⟩ :=
          ih fun other hother => hlist other (List.mem_cons_of_mem _ hother)
        obtain ⟨ts, hts⟩ := Option.isSome_iff_exists.mp (hlist cycle (List.mem_cons_self ..))
        simp only [List.flatMap_cons, Cycle.points, hts, Option.map_some, Option.toList_some,
          List.map_cons, List.map_nil, List.cons_append, List.nil_append, List.countP_cons,
          List.length_cons]
        exact ⟨by rw [← hcount]; simp [allUp, hts, Cycle.points], by rw [← hlength]; rfl⟩
  unfold countBinaryPoints
  cases hexists : seriesExists s with
  | true =>
      simp only [Bool.not_true, Bool.false_eq_true, if_false]
      rw [hholds, (hpoints cycles hpresent).1, (hpoints cycles hpresent).2]
  | false =>
      have hnil := (binaryPoints_of_not_exists hexists).symm.trans hholds
      have hzero := (hpoints cycles hpresent).2
      rw [← hnil] at hzero
      rw [List.length_eq_zero_iff.mp hzero.symm]
      rfl

/-- The streams that `count_availability` merges. -/
theorem mergeAll_binaryPoints {up : ℤ → Text → Bool} {series : Text → Series}
    (hholds : ∀ metric ∈ metrics,
      Holds format asBit now since until_ up cycles metric (series metric)) :
    Merge.mergeAll Event.ts ((metrics.filter fun metric => seriesExists (series metric)).map
        fun metric => (binaryPoints format asBit now since until_ (series metric)).map
          fun point => (⟨point.ts, metric, point.value⟩ : Event)) =
      Merge.mergeAll Event.ts (metrics.map (streamOf up cycles)) := by
  rw [Merge.mergeAll_filter _ _ _ _ fun metric _ hexists => by
    rw [binaryPoints_of_not_exists hexists, List.map_nil]]
  refine congrArg _ (List.map_congr_left fun metric hmetric => ?_)
  rw [hholds metric hmetric, streamOf, eventsOf, List.map_flatMap, List.map_flatMap]
  refine List.flatMap_congr fun cycle _ => ?_
  rw [List.map_map]
  refine List.map_congr_left fun point hpoint => ?_
  obtain ⟨rfl, -⟩ := mem_points.mp hpoint
  rfl

/-- What is wanted: one sample per cycle, with its time stamp, that is up if and
only if all its metrics are; and the counts of these samples. -/
structure OneSamplePerCycle (format : LineFormat V) (asBit : V → Option Bool) (now : ℤ)
    (since until_ : Option ℤ) (metrics : List Text) (cycles : List Cycle) : Prop where
  samples : ∀ up,
    combineAvailability (Merge.mergeAll Event.ts (metrics.map (streamOf up cycles))) =
      cycles.map fun cycle => (startOf metrics cycle, allUp metrics up cycle)
  counts : ∀ (up : ℤ → Text → Bool) (series : Text → Series),
    (∀ metric ∈ metrics, Holds format asBit now since until_ up cycles metric (series metric)) →
      countAvailability format asBit now since until_ series metrics =
        (cycles.countP (allUp metrics up), cycles.length)

/-- Every check cycle has one sample, whatever the states of its checks, if and
only if each cycle is told apart from the one before. -/
theorem one_sample_per_cycle_iff (format : LineFormat V) (asBit : V → Option Bool) (now : ℤ)
    (since until_ : Option ℤ) (hnodup : metrics.Nodup) (htable : Timetable metrics cycles) :
    OneSamplePerCycle format asBit now since until_ metrics cycles ↔
      cycles.IsChain (ToldApart metrics) := by
  refine ⟨fun hone => (combineAvailability_streams_iff hnodup htable).mp hone.samples,
    fun hchain => ?_⟩
  have hsamples := (combineAvailability_streams_iff hnodup htable).mpr hchain
  refine ⟨hsamples, fun up series hholds => ?_⟩
  unfold countAvailability
  split
  next metric =>
    refine countBinaryPoints_eq (fun cycle hcycle => ?_) (hholds metric (by simp))
    obtain ⟨other, hother, hsome⟩ := htable.present cycle hcycle
    rwa [List.mem_singleton.mp hother] at hsome
  next =>
    simp only
    rw [mergeAll_binaryPoints hholds, hsamples up, List.countP_map, List.length_map]
    rfl

end Counts

/-! ## Two timetables -/

/-- A cycle whose metrics all have the same time stamp, in seconds. -/
def sharedCycle (seconds : ℤ) (metrics : List Text) : Cycle := fun metric =>
  if metric ∈ metrics then some (seconds * second) else none

def ping : Text := "ping_up".toList
def http : Text := "http_up".toList

/-- A cycle of both checks, one of older points, stamped 1.9 seconds apart, and one
that follows within two seconds. -/
def steadyCycles : List Cycle :=
  [sharedCycle 0 [http, ping],
    fun metric => if metric = http then some (30 * second)
      else if metric = ping then some (30 * second + 1900000) else none,
    sharedCycle 32 [http]]

theorem one_sample_per_cycle_steady :
    OneSamplePerCycle JsonLine.format (fun value => some (value == 1)) 0 none none [http, ping]
      steadyCycles := by
  refine (one_sample_per_cycle_iff _ _ 0 none none (by decide) ⟨?_, ?_, ?_⟩).mpr ?_
  · decide
  · decide
  · decide
  · refine List.IsChain.cons_cons (Or.inl (by decide)) (List.IsChain.cons_cons (Or.inr ?_) ?_)
    · refine ⟨(32 * second, http), ?_, rfl⟩
      simp [pointsOf, Merge.mergeAll, Merge.merge, Cycle.points, sharedCycle, ping, http]
    · exact List.IsChain.singleton _

/-- A cycle of one check, and within two seconds one of both: its first point is
counted in the cycle before. -/
theorem cycle_counted_in_the_one_before :
    ¬ OneSamplePerCycle JsonLine.format (fun value => some (value == 1)) 0 none none [http, ping]
      [sharedCycle 0 [ping], sharedCycle 1 [http, ping]] := by
  intro hone
  have hsamples := hone.samples fun ts metric => decide ((ts, metric) ≠ (1 * second, http))
  have hmerged : Merge.mergeAll Event.ts ([http, ping].map
      (streamOf (fun ts metric => decide ((ts, metric) ≠ (1 * second, http)))
        [sharedCycle 0 [ping], sharedCycle 1 [http, ping]])) =
          [⟨0, ping, true⟩, ⟨1 * second, http, false⟩, ⟨1 * second, ping, true⟩] := by
    simp [Merge.mergeAll, Merge.merge, streamOf, eventsOf, Cycle.points, sharedCycle, ping, http,
      second]
  rw [hmerged] at hsamples
  revert hsamples
  decide

end Justup.Charts
