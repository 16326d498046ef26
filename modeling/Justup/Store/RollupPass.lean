import Justup.Lib.Grouping
import Justup.Lib.Rollup
import Justup.Store.Orderly
import Justup.Store.Rollup

/-!
# One downsampling pass

`downsample_series` between two series in order: it writes the aggregates of the
complete buckets behind the watermark, and nothing else.
-/

namespace Justup.Store

open Justup.Lib Justup.Lib.Rollup

variable {V Q : Type*}

/-! ## Points as timed values -/

/-- The finite samples among some points. -/
def samples (finite : V → Option Q) (list : List (Point V)) : List (Int × Q) :=
  list.filterMap fun point => (finite point.value).map fun number => (point.ts, number)

/-- Points with their values as they are. -/
def timed (list : List (Point V)) : List (Int × V) :=
  list.map fun point => (point.ts, point.value)

theorem samples_append (finite : V → Option Q) (first second : List (Point V)) :
    samples finite (first ++ second) = samples finite first ++ samples finite second :=
  List.filterMap_append

theorem mem_samples {finite : V → Option Q} {list : List (Point V)} {sample : Int × Q} :
    sample ∈ samples finite list ↔
      ∃ point ∈ list, point.ts = sample.1 ∧ finite point.value = some sample.2 := by
  obtain ⟨ts, number⟩ := sample
  simp only [samples, List.mem_filterMap, Option.map_eq_some_iff, Prod.mk.injEq]
  constructor
  · rintro ⟨point, hpoint, value, hvalue, hts, rfl⟩
    exact ⟨point, hpoint, hts, hvalue⟩
  · rintro ⟨point, hpoint, hts, hvalue⟩
    exact ⟨point, hpoint, number, hvalue, hts, rfl⟩

/-- A condition on the time holds of a sample when it holds of its point. -/
theorem samples_filter (finite : V → Option Q) (keep : Int → Bool) (list : List (Point V)) :
    samples finite (list.filter fun point => keep point.ts) =
      (samples finite list).filter fun sample => keep sample.1 := by
  rw [samples, samples, List.filterMap_filter, List.filter_filterMap]
  refine List.filterMap_congr fun point _ => ?_
  cases finite point.value with
  | none => simp
  | some number => cases hkeep : keep point.ts <;> simp [Option.filter, hkeep]

theorem timed_filter (keep : Int → Bool) (list : List (Point V)) :
    timed (list.filter fun point => keep point.ts) =
      (timed list).filter fun item => keep item.1 := by
  rw [timed, timed, List.filter_map]
  rfl

theorem timed_append (first second : List (Point V)) :
    timed (first ++ second) = timed first ++ timed second := List.map_append

/-- Items written as points are read as they were. -/
theorem timed_map (items : List (Int × V)) :
    timed (items.map fun item => (⟨item.1, item.2⟩ : Point V)) = items := by
  rw [timed, List.map_map]
  exact List.map_id' items

theorem timed_pairwise {list : List (Point V)} :
    (timed list).Pairwise (fun first second => first.1 < second.1) ↔ Chronological list := by
  rw [timed, List.pairwise_map]
  rfl

theorem getLast?_timed (list : List (Point V)) :
    (timed list).getLast?.map Prod.fst = list.getLast?.map Point.ts := by
  rw [timed, List.getLast?_map, Option.map_map]
  rfl

theorem Chronological.samples_nodup {finite : V → Option Q} {list : List (Point V)}
    (hlist : Chronological list) : (samples finite list).Nodup := by
  rw [samples, List.Nodup, List.pairwise_filterMap]
  refine hlist.imp fun {first second} hlt sample hsample other hother heq => ?_
  obtain ⟨number, -, rfl⟩ := Option.map_eq_some_iff.mp hsample
  obtain ⟨number', -, rfl⟩ := Option.map_eq_some_iff.mp hother
  exact hlt.ne (Prod.mk.inj heq).1

theorem retains_samples {finite : V → Option Q} {cutoff : Int} {before after : List (Point V)}
    (hretains : Retains Point.ts cutoff before after) :
    Retains Prod.fst cutoff (samples finite before) (samples finite after) where
  sublist := hretains.sublist.filterMap _
  keeps := by
    intro sample hsample hle
    obtain ⟨point, hpoint, hts, hvalue⟩ := mem_samples.mp hsample
    exact mem_samples.mpr ⟨point, hretains.keeps point hpoint (hts ▸ hle), hts, hvalue⟩

/-! ## Bucket starts -/

theorem dvd_bucketKey (seconds ts : Int) : seconds * second ∣ bucketKey seconds ts := by
  rw [bucketKey, mul_assoc]
  exact dvd_mul_left _ _

/-- From the epoch on, the start of a bucket is found by rounding down. -/
theorem bucketKey_eq_bucket (seconds : Int) {ts : Int} (hts : 0 ≤ ts) :
    bucketKey seconds ts = bucket (seconds * second) ts := by
  have hsecond : 0 ≤ second := by decide
  rw [bucketKey, bucket, Int.tdiv_eq_ediv_of_nonneg hts, Int.ediv_ediv_of_nonneg hsecond,
    mul_comm second seconds, mul_assoc]

theorem bucketKey_nonpos {seconds ts : Int} (hseconds : 0 < seconds) (hts : ts ≤ 0) :
    bucketKey seconds ts ≤ 0 := by
  have hcut : ts.tdiv second ≤ 0 := by
    rw [← neg_nonneg, ← Int.neg_tdiv]
    exact Int.tdiv_nonneg (by omega) (by decide)
  have hquot : ts.tdiv second / seconds ≤ 0 := by
    have hle := Int.ediv_le_ediv hseconds hcut
    rwa [Int.zero_ediv] at hle
  have hbucket : ts.tdiv second / seconds * seconds ≤ 0 :=
    mul_nonpos_of_nonpos_of_nonneg hquot hseconds.le
  exact mul_nonpos_of_nonpos_of_nonneg hbucket (by decide)

/-! ## The watermark -/

section Watermark

variable {format : LineFormat V} {resolution : Resolution}

/-- The newest point of a list in order. -/
theorem Chronological.max?_ts {list : List (Point V)} (hlist : Chronological list) :
    (list.map Point.ts).max? = list.getLast?.map Point.ts := by
  rcases List.eq_nil_or_concat list with rfl | ⟨front, last, rfl⟩
  · rfl
  · rw [List.concat_eq_append] at hlist ⊢
    rw [List.getLast?_concat, Option.map_some, List.max?_eq_some_iff]
    refine ⟨by simp, fun ts hts => ?_⟩
    obtain ⟨point, hpoint, rfl⟩ := List.mem_map.mp hts
    rcases List.mem_append.mp hpoint with hfront | hend
    · exact ((List.pairwise_append.mp hlist).2.2 point hfront last (by simp)).le
    · rw [List.mem_singleton.mp hend]

/-- The newest timestamp of the newest segment that has one. -/
theorem head?_newest (segments : List (PeriodKey × Segment))
    (hsegments : Chronological (segmentPoints format segments)) :
    (segments.reverse.filterMap fun entry =>
        (segmentInfo format entry.2.content).2).head? =
      (segmentPoints format segments).getLast?.map Point.ts := by
  induction segments using List.reverseRecOn with
  | nil => rfl
  | append_singleton front entry ih =>
      have hsplit : segmentPoints format (front ++ [entry]) =
          segmentPoints format front ++ points format none none (rawLines entry.2.content) := by
        simp [segmentPoints]
      rw [hsplit] at hsegments ⊢
      obtain ⟨hfront, hentry, -⟩ := List.pairwise_append.mp hsegments
      have hnewest : (segmentInfo format entry.2.content).2 =
          (points format none none (rawLines entry.2.content)).getLast?.map Point.ts := by
        rw [segmentInfo, filterMap_lineTs]
        exact Chronological.max?_ts hentry
      rw [List.reverse_append, List.reverse_singleton, List.singleton_append,
        List.getLast?_append]
      cases hlast : (points format none none (rawLines entry.2.content)).getLast? with
      | none =>
          rw [hlast, Option.map_none] at hnewest
          simp only [List.filterMap_cons, hnewest]
          rw [ih hfront, Option.none_or]
      | some last =>
          rw [hlast, Option.map_some] at hnewest
          simp only [List.filterMap_cons, hnewest]
          rfl

/-- `_last_ts_locked` of a series in order is the time of its last point. -/
theorem Orderly.lastTs {bound : Int} {sys : System}
    (horderly : Orderly format resolution bound sys) :
    lastTs format sys.series = (allPoints format sys.series).getLast?.map Point.ts := by
  have hsplit := horderly.chronological
  rw [allPoints_eq] at hsplit
  obtain ⟨hsegments, hactive, -⟩ := List.pairwise_append.mp hsplit
  have htail : tailActive format sys.series.active 8 =
      (points format none none (rawLines sys.series.activeContent)).rtake 8 := by
    rw [← points_rtake horderly.valid]
    unfold tailActive Series.activeContent
    cases sys.series.active with
    | none => simp [points, List.rtake]
    | some file => exact tailLines_eq file.content 8
  rw [Store.lastTs, htail, allPoints_eq, List.getLast?_append]
  rcases List.eq_nil_or_concat
    (points format none none (rawLines sys.series.activeContent)) with hnil | ⟨front, last, hlast⟩
  · rw [hnil]
    exact head?_newest _ hsegments
  · have hnewest : ((front ++ [last]).rtake 8).getLast? = some last := by
      rw [List.rtake_concat_succ, List.getLast?_concat]
    have hchron : Chronological ((front ++ [last]).rtake 8) := by
      rw [← List.concat_eq_append, ← hlast]
      exact hactive.sublist (List.drop_sublist _ _)
    rw [hlast, List.concat_eq_append, List.getLast?_concat]
    have hne : ((front ++ [last]).rtake 8).isEmpty = false := by
      rw [List.rtake_concat_succ]
      simp
    rw [hne, hchron.max?_ts, hnewest]
    rfl

end Watermark

/-! ## The pass -/

section Pass

variable [LinearOrder Q] {format : LineFormat V} {numbers : Numbers V Q}
  {resolution : Resolution}

/-- The value that is written for some samples. -/
def bucketValue (numbers : Numbers V Q) (binary : Bool) (values : List Q) : Option V :=
  (aggregate numbers.half binary values).map numbers.write

theorem isSome_computeMedian (half : Q → Q → Q) {values : List Q} (hne : values ≠ []) :
    (computeMedian half values).isSome := by
  have hlength : 0 < (values.mergeSort fun a b => decide (a ≤ b)).length := by
    rw [List.length_mergeSort]
    exact List.length_pos_iff.mpr hne
  unfold computeMedian
  dsimp only
  rw [List.getElem?_eq_getElem (by omega), List.getElem?_eq_getElem (by omega)]
  rfl

theorem isSome_bucketValue (numbers : Numbers V Q) (binary : Bool) (values : List Q)
    (hne : values ≠ []) : (bucketValue numbers binary values).isSome := by
  rw [bucketValue, Option.isSome_map, aggregate]
  split_ifs
  · cases values with
    | nil => exact absurd rfl hne
    | cons value rest => rfl
  · exact isSome_computeMedian numbers.half hne

omit [LinearOrder Q] in
/-- What is collected from the lines of a series in order. -/
theorem collectBuckets_eq {bound now : Int} {source : System}
    (hsource : Orderly format resolution bound source) (hnow : bound ≤ hotStart now)
    (hnonneg : ∀ point ∈ allPoints format source.series, 0 ≤ point.ts)
    (finite : V → Option Q) (seconds lo hi : Int) :
    collectBuckets format finite seconds lo hi
        (iterSeriesLines resolution now (some lo) (some hi) source.series) =
      Dict.fill Prod.fst (fun old item => old.getD [] ++ [item.2])
        (((samples finite (allPoints format source.series)).filter fun sample =>
            decide (lo ≤ sample.1) && decide (sample.1 < hi)).map fun sample =>
          (bucket (seconds * second) sample.1, sample.2)) [] := by
  have hread := hsource.points_iterSeriesLines hnow lo hi
  rw [points] at hread
  rw [collectBuckets, hread,
    ← samples_filter finite (fun ts => decide (lo ≤ ts) && decide (ts < hi))]
  congr 1
  rw [samples, List.map_filterMap]
  refine List.filterMap_congr fun point hpoint => ?_
  rw [Option.map_map, bucketKey_eq_bucket seconds (hnonneg point (List.mem_filter.mp hpoint).1)]
  rfl

/-- Where `downsample_series` begins. -/
theorem rollupStart_eq {seconds : Int} {list : List (Point V)}
    (hnonneg : ∀ point ∈ list, 0 ≤ point.ts) :
    rollupStart seconds 0 (list.getLast?.map Point.ts) =
      passStart (seconds * second) (timed list) := by
  have hzero : ceilToBucket seconds 0 = 0 := by simp [ceilToBucket, bucketKey]
  unfold rollupStart passStart
  rw [timed, List.getLast?_map, hzero]
  cases hlast : list.getLast? with
  | none => rfl
  | some last =>
      simp only [Option.map_some]
      rw [bucketKey_eq_bucket seconds (hnonneg last (List.mem_of_getLast? hlast))]

/-- What `downsample_series` offers to its locked part. -/
theorem dueBuckets_pass (numbers : Numbers V Q) {bound now : Int} {source : System}
    (hsource : Orderly format resolution bound source) (hnow : bound ≤ hotStart now)
    (hnonneg : ∀ point ∈ allPoints format source.series, 0 ≤ point.ts)
    (binary : Bool) {seconds : Int} (hseconds : 0 < seconds) (until_ : Int)
    {target : List (Point V)} (htarget : ∀ point ∈ target, 0 ≤ point.ts) :
    Rollup.Pass (bucketValue numbers binary) (seconds * second)
      (passStart (seconds * second) (timed target)) (bucketKey seconds until_)
      (samples numbers.finite (allPoints format source.series))
      (dueBuckets format numbers resolution binary seconds now 0 until_ source.series
        (target.getLast?.map Point.ts)) := by
  have hwidth : 0 < seconds * second := mul_pos hseconds (by decide)
  have hlow := dvd_passStart (seconds * second) (timed target)
  have hhigh := dvd_bucketKey seconds until_
  unfold dueBuckets
  dsimp only
  rw [rollupStart_eq htarget, collectBuckets_eq hsource hnow hnonneg]
  generalize passStart (seconds * second) (timed target) = lo at *
  generalize bucketKey seconds until_ = hi at *
  generalize samples numbers.finite (allPoints format source.series) = all
  split_ifs with hempty
  · exact ⟨List.Pairwise.nil, fun start value => by simp; omega⟩
  · have hordered : Dict.Ordered (Dict.fill Prod.fst (fun old item => old.getD [] ++ [item.2])
        ((all.filter fun sample => decide (lo ≤ sample.1) && decide (sample.1 < hi)).map
          fun sample => (bucket (seconds * second) sample.1, sample.2))
        ([] : List (Int × List Q))) := Dict.Ordered.fill _ Dict.ordered_nil
    constructor
    · rw [List.pairwise_filterMap]
      refine hordered.imp fun {first second} hlt point hpoint other hother => ?_
      obtain ⟨value, -, rfl⟩ := Option.map_eq_some_iff.mp hpoint
      obtain ⟨value', -, rfl⟩ := Option.map_eq_some_iff.mp hother
      exact hlt
    · intro start value
      -- the samples of a bucket that is complete are all in the window
      have hvalues : lo ≤ start → start < hi → seconds * second ∣ start →
          ((((all.filter fun sample => decide (lo ≤ sample.1) && decide (sample.1 < hi)).map
            fun sample => (bucket (seconds * second) sample.1, sample.2)).filter
              fun item => decide (item.1 = start)).map Prod.snd) =
            samplesOf (seconds * second) start all := by
        intro hle hlt hdvd
        rw [List.filter_map, List.map_map, List.filter_filter, samplesOf]
        refine congrArg _ (List.filter_congr fun sample _ => ?_)
        simp only [Function.comp_apply, ← Bool.decide_and]
        refine decide_eq_decide.mpr ⟨fun h => h.1, fun hstart => ⟨hstart, ?_, ?_⟩⟩
        · exact (le_bucket_iff hwidth hlow sample.1).mp (hstart ▸ hle)
        · exact (bucket_lt_iff hwidth hhigh sample.1).mp (hstart ▸ hlt)
      simp only [List.mem_filterMap, Option.map_eq_some_iff, Prod.mk.injEq, Prod.exists]
      constructor
      · rintro ⟨start', values, hmem, value', hvalue, rfl, rfl⟩
        obtain ⟨hne, hvaluesOf⟩ := Dict.mem_group.mp hmem
        obtain ⟨item, hitem, hstart⟩ : ∃ item ∈ (all.filter fun sample =>
            decide (lo ≤ sample.1) && decide (sample.1 < hi)),
              bucket (seconds * second) item.1 = start' := by
          by_contra hnone
          refine hne (hvaluesOf.trans ?_)
          rw [List.map_eq_nil_iff, List.filter_eq_nil_iff]
          intro item hitem
          obtain ⟨sample, hsample, rfl⟩ := List.mem_map.mp hitem
          simpa using fun hstart => hnone ⟨sample, hsample, hstart⟩
        have hwindow := (List.mem_filter.mp hitem).2
        rw [Bool.and_eq_true, decide_eq_true_eq, decide_eq_true_eq] at hwindow
        have hdvd : seconds * second ∣ start' := hstart ▸ dvd_bucket _ _
        have hle : lo ≤ start' := hstart ▸ (le_bucket_iff hwidth hlow item.1).mpr hwindow.1
        have hlt : start' < hi := hstart ▸ (bucket_lt_iff hwidth hhigh item.1).mpr hwindow.2
        rw [hvalues hle hlt hdvd] at hvaluesOf
        refine ⟨hle, hlt, hdvd, hvaluesOf ▸ hne, ?_⟩
        rw [← hvaluesOf, bucketValue, hvalue]
        rfl
      · rintro ⟨hle, hlt, hdvd, hne, hvalue⟩
        obtain ⟨value', haggregate, rfl⟩ := Option.map_eq_some_iff.mp hvalue
        refine ⟨start, _, Dict.mem_group.mpr ⟨?_, rfl⟩, value', ?_, rfl, rfl⟩
        · rw [hvalues hle hlt hdvd]
          exact hne
        · rw [hvalues hle hlt hdvd]
          exact haggregate

/-- Buckets behind the watermark are all new. -/
theorem newBuckets_eq {newest : Option Int} {buckets : List (Int × V)}
    (hbuckets : ∀ bucket ∈ buckets, ∀ ts ∈ newest, ts < bucket.1) :
    newBuckets newest buckets = buckets := by
  refine List.filter_eq_self.mpr fun bucket hbucket => ?_
  cases newest with
  | none => rfl
  | some ts => simpa using hbuckets bucket hbucket ts rfl

/-- `downsample_series` appends to the target what is due, in order. -/
theorem downsampleSeries_spec {bound now : Int} {source target : System}
    (hsource : Orderly format resolution bound source) {targetResolution : Resolution}
    (htarget : Orderly format targetResolution bound target) (hnow : bound ≤ hotStart now)
    (hnonneg : ∀ point ∈ allPoints format source.series, 0 ≤ point.ts)
    (htargetNonneg : ∀ point ∈ allPoints format target.series, 0 ≤ point.ts)
    (binary : Bool) {seconds : Int} (hseconds : 0 < seconds) (until_ : Int) :
    ∃ added : List (Int × V),
      Rollup.Pass (bucketValue numbers binary) (seconds * second)
        (passStart (seconds * second) (timed (allPoints format target.series)))
        (bucketKey seconds until_) (samples numbers.finite (allPoints format source.series)) added ∧
      (downsampleSeries format numbers resolution binary seconds now 0 until_ source.series
        target.series).2 = added.length ∧
      timed (allPoints format (downsampleSeries format numbers resolution binary seconds now 0
        until_ source.series target.series).1) =
          timed (allPoints format target.series) ++ added ∧
      Orderly format targetResolution bound { target with
        series := (downsampleSeries format numbers resolution binary seconds now 0 until_
          source.series target.series).1 } := by
  have hpass := dueBuckets_pass numbers hsource hnow hnonneg binary hseconds until_
    htargetNonneg
  have hwidth : 0 < seconds * second := mul_pos hseconds (by decide)
  have hordered := hpass.increasing_append hwidth (timed_pairwise.mpr htarget.chronological)
  rw [← htarget.lastTs] at hpass hordered
  unfold downsampleSeries
  generalize dueBuckets format numbers resolution binary seconds now 0 until_ source.series
    (lastTs format target.series) = added at *
  have hnew : newBuckets (lastTs format target.series) added = added := by
    refine newBuckets_eq fun bucket hbucket ts hts => ?_
    rw [htarget.lastTs, ← getLast?_timed, Option.mem_def, Option.map_eq_some_iff] at hts
    obtain ⟨last, hlast, rfl⟩ := hts
    exact (List.pairwise_append.mp hordered).2.2 last (List.mem_of_getLast? hlast) bucket hbucket
  refine ⟨added, hpass, ?_⟩
  dsimp only
  split_ifs with hempty
  · rw [List.isEmpty_iff.mp hempty]
    exact ⟨rfl, (List.append_nil _).symm, htarget⟩
  · have hitems : Chronological (allPoints format target.series ++
        added.map fun item => ⟨item.1, item.2⟩) := by
      rw [← timed_pairwise, timed_append, timed_map]
      exact hordered
    obtain ⟨horderly, hpoints⟩ := htarget.append hitems
    have hwritten : writeBuckets format added target.series = target.series.append
        (added.map fun item => recordLine format item.1 item.2).flatten := by
      rw [writeBuckets, hnew]
      rfl
    refine ⟨by rw [hnew], ?_, ?_⟩
    · rw [hwritten, hpoints, timed_append, timed_map]
    · rw [hwritten]
      exact horderly

end Pass

end Justup.Store
