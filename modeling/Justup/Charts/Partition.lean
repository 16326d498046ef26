import Justup.Charts.Display
import Justup.Store.JsonLine
import Justup.Store.RollupPass

/-!
# Display buckets partition the stored points

Every stored point of the three windows is counted in one bucket, that of its
time.  Status codes are counted from raw checks only.
-/

namespace Justup.Charts

open Justup.Lib Justup.Store

variable {V : Type*}

/-! ## What is stored -/

/-- A series as it is kept: every segment, damaged or not, holds records of its
period, and they are older than today. -/
structure Stored (format : LineFormat V) (resolution : Resolution) (now : ℤ) (s : Series) :
    Prop where
  placed : ∀ entry ∈ s.segments, ∀ line ∈ rawLines entry.2.content,
    ∀ ts ∈ lineTs format line, periodKey resolution ts = entry.1
  closed : ∀ line ∈ archived format s, ∀ ts ∈ lineTs format line, ts < hotStart now

/-- The samples among the stored points of the windows of a metric. -/
def storedSamples (format : LineFormat V) (finite : V → Option ℚ) (metric : Text)
    (now since until_ : ℤ) (series : Resolution → Series) : List Sample :=
  (displaySources metric now since until_).flatMap fun source =>
    ((allPoints format (series source.resolution)).filter
      (inWindow (some source.from_) (some source.until_))).filterMap fun point =>
        ((finite point.value).filter (accepted metric)).map fun value =>
          ⟨point.ts, value, decide (source.resolution ≠ .raw)⟩

/-- The samples that are read are those that are stored. -/
theorem samplesRead_eq {format : LineFormat V} (finite : V → Option ℚ) (metric : Text)
    {now since until_ : ℤ} {series : Resolution → Series}
    (hstored : ∀ resolution, Stored format resolution now (series resolution)) :
    samplesRead format finite metric now since until_ series =
      storedSamples format finite metric now since until_ series := by
  refine List.flatMap_congr fun source _ => ?_
  obtain ⟨hplaced, hclosed⟩ := hstored source.resolution
  have hpoints := points_iterSeriesLines (visible_of_placed hplaced hclosed) (some source.from_)
    (some source.until_)
  rw [points_window _ _ (records format _), ← allPoints] at hpoints
  unfold samplesFrom
  split_ifs with hempty hexists
  · -- an empty window
    have hnone : (allPoints format (series source.resolution)).filter
        (inWindow (some source.from_) (some source.until_)) = [] := by
      refine List.filter_eq_nil_iff.mpr fun point _ hin => ?_
      obtain ⟨hlow, hhigh⟩ := inWindow_iff.mp hin
      have hlow := hlow _ rfl
      have hhigh := hhigh _ rfl
      omega
    rw [hnone]
    rfl
  · -- no files
    obtain ⟨hactive, hsegments⟩ : (series source.resolution).active = none ∧
        (series source.resolution).segments = [] := by
      simpa [seriesExists] using hexists
    have hnone : allPoints format (series source.resolution) = [] := by
      simp [allPoints, records, hsegments, Series.activeContent, hactive, points, validLines]
    rw [hnone]
    rfl
  · rw [hpoints]

/-- Every time of the window belongs to the window of one source. -/
theorem exists_source {now since until_ ts : ℤ} (hsince : since ≤ ts) (huntil : ts ≤ until_) :
    ∃! source, source ∈ sourcesOf now since until_ ∧ source.from_ ≤ ts ∧ ts ≤ source.until_ := by
  have hcutoffs : now - Resolution.fiveMinute.retention * day ≤
      now - Resolution.raw.retention * day := Int.sub_le_sub_left (by decide) now
  unfold sourcesOf
  simp only [List.mem_cons, List.not_mem_nil, or_false]
  rcases lt_or_ge ts (now - Resolution.fiveMinute.retention * day) with hold | hnew
  · refine ⟨_, ⟨Or.inl rfl, hsince, by simp only; omega⟩, ?_⟩
    rintro source ⟨rfl | rfl | rfl, hfrom, hto⟩
    · rfl
    · simp only at hfrom
      omega
    · simp only at hfrom
      omega
  · rcases lt_or_ge ts (now - Resolution.raw.retention * day) with hmiddle | hraw
    · refine ⟨_, ⟨Or.inr (Or.inl rfl), by simp only; omega, by simp only; omega⟩, ?_⟩
      rintro source ⟨rfl | rfl | rfl, hfrom, hto⟩
      · simp only at hto
        omega
      · rfl
      · simp only at hfrom
        omega
    · refine ⟨_, ⟨Or.inr (Or.inr rfl), by simp only; omega, huntil⟩, ?_⟩
      rintro source ⟨rfl | rfl | rfl, hfrom, hto⟩
      · simp only at hto
        omega
      · simp only at hto
        omega
      · rfl

/-! ## Buckets -/

/-- The bucket is that of a time. -/
def DisplayBucket.Covers (bucketSeconds : ℤ) (bucket : DisplayBucket) (ts : ℤ) : Prop :=
  bucket.ts ≤ ts ∧ ts < bucket.ts + bucketSeconds * second

/-- The index of a time counts the whole buckets before it. -/
theorem bucketIndex_eq_iff {since bucketSeconds ts : ℤ} (hpos : 1 ≤ bucketSeconds)
    (hsince : since ≤ ts) {index : ℤ} :
    bucketIndex since bucketSeconds ts = index ↔
      since + index * bucketSeconds * second ≤ ts ∧
        ts < since + index * bucketSeconds * second + bucketSeconds * second := by
  have hwidth : 0 < bucketSeconds * second := mul_pos (by omega) (by decide)
  rw [bucketIndex, Int.tdiv_eq_ediv_of_nonneg (by omega), Int.ediv_ediv_of_nonneg (by decide),
    mul_comm second, Int.ediv_eq_iff_of_pos hwidth, mul_assoc]
  constructor
  · rintro ⟨hlow, hhigh⟩
    constructor <;> linarith
  · rintro ⟨hlow, hhigh⟩
    constructor <;> linarith

/-- A median lies between two of the values. -/
theorem computeMedian_between {values : List ℚ} {value : ℚ}
    (hmedian : computeMedian (fun a b => (a + b) / 2) values = some value) :
    ∃ low ∈ values, ∃ high ∈ values, low ≤ value ∧ value ≤ high := by
  unfold computeMedian at hmedian
  simp only at hmedian
  split at hmedian
  next low high hlow hhigh =>
    have hlowMem := List.mem_mergeSort.mp (List.mem_of_getElem? hlow)
    have hhighMem := List.mem_mergeSort.mp (List.mem_of_getElem? hhigh)
    split_ifs at hmedian
    · obtain rfl := Option.some.inj hmedian
      rcases le_total low high with hle | hle
      · exact ⟨low, hlowMem, high, hhighMem, by linarith, by linarith⟩
      · exact ⟨high, hhighMem, low, hlowMem, by linarith, by linarith⟩
    · obtain rfl := Option.some.inj hmedian
      exact ⟨high, hhighMem, high, hhighMem, le_rfl, le_rfl⟩
  next => simp at hmedian

/-- The worst code is one of the codes. -/
theorem worstCode_mem {values : List ℚ} {code : ℚ} (hworst : worstCode values = some code) :
    code ∈ values := by
  cases values with
  | nil => simp [worstCode] at hworst
  | cons first rest =>
      obtain rfl := Option.some.inj hworst
      clear hworst
      induction rest generalizing first with
      | nil => simp
      | cons other rest ih =>
          rw [List.foldl_cons]
          split
          · exact List.mem_cons_of_mem _ (ih other)
          · rcases List.mem_cons.mp (ih first) with heq | hmem
            · rw [heq]
              exact List.mem_cons_self ..
            · exact List.mem_cons_of_mem _ (List.mem_cons_of_mem _ hmem)

theorem displayValue_between {metric : Text} {values : List ℚ} {value : ℚ}
    (hvalue : displayValue metric values = some value) :
    ∃ low ∈ values, ∃ high ∈ values, low ≤ value ∧ value ≤ high := by
  unfold displayValue at hvalue
  split_ifs at hvalue
  · exact ⟨value, worstCode_mem hvalue, value, worstCode_mem hvalue, le_rfl, le_rfl⟩
  · exact ⟨value, List.min?_mem hvalue, value, List.min?_mem hvalue, le_rfl, le_rfl⟩
  · exact computeMedian_between hvalue

theorem isSome_displayValue (metric : Text) {values : List ℚ} (hne : values ≠ []) :
    (displayValue metric values).isSome := by
  unfold displayValue
  split_ifs
  · cases values with
    | nil => exact absurd rfl hne
    | cons value rest => rfl
  · exact List.isSome_min?_of_ne_nil hne
  · exact isSome_computeMedian _ hne

theorem ts_of_mem_storedSamples {format : LineFormat V} {finite : V → Option ℚ} {metric : Text}
    {now since until_ : ℤ} {series : Resolution → Series} {sample : Sample}
    (hsample : sample ∈ storedSamples format finite metric now since until_ series) :
    since ≤ sample.ts := by
  obtain ⟨source, hsource, hsample⟩ := List.mem_flatMap.mp hsample
  obtain ⟨point, hpoint, hsample⟩ := List.mem_filterMap.mp hsample
  obtain ⟨value, -, rfl⟩ := Option.map_eq_some_iff.mp hsample
  have hlow := (inWindow_iff.mp (List.mem_filter.mp hpoint).2).1 _ rfl
  have hfrom : since ≤ source.from_ := by
    have hmem : source ∈ sourcesOf now since until_ := by
      unfold displaySources at hsource
      split_ifs at hsource
      · exact (List.mem_filter.mp hsource).1
      · exact hsource
    unfold sourcesOf at hmem
    simp only [List.mem_cons, List.not_mem_nil, or_false] at hmem
    rcases hmem with rfl | rfl | rfl
    · exact le_rfl
    · exact le_max_left _ _
    · exact le_max_left _ _
  exact hfrom.trans hlow

/-! ## The result -/

/-- What is wanted of the buckets for some samples: they are in strictly increasing
time order and disjoint, each sample is in exactly one of them and counted there,
values lie between those of the samples, and the flag tells the rollups. -/
structure Partitions (metric : Text) (bucketSeconds : ℤ) (samples : List Sample)
    (buckets : List DisplayBucket) : Prop where
  increasing : buckets.Pairwise fun before after =>
    before.ts < after.ts ∧ before.bucketEnd ≤ after.ts
  located : ∀ sample ∈ samples, ∃! bucket, bucket ∈ buckets ∧ bucket.Covers bucketSeconds sample.ts
  counts : ∀ bucket ∈ buckets, ∀ covered,
    (∀ sample, covered sample = true ↔ bucket.Covers bucketSeconds sample.ts) →
      bucket.count = samples.countP covered
  total : (buckets.map DisplayBucket.count).sum = samples.length
  values : ∀ bucket ∈ buckets, ∃ value, bucket.value = some value ∧
    ∃ low ∈ samples, ∃ high ∈ samples, bucket.Covers bucketSeconds low.ts ∧
      bucket.Covers bucketSeconds high.ts ∧ low.value ≤ value ∧ value ≤ high.value
  binary : isBinaryMetric metric = true → ∀ bucket ∈ buckets, ∀ value ∈ bucket.value,
    ∀ sample ∈ samples, bucket.Covers bucketSeconds sample.ts → value ≤ sample.value
  rollup : ∀ bucket ∈ buckets, bucket.rollup = true ↔
    ∃ sample ∈ samples, sample.rollup = true ∧ bucket.Covers bucketSeconds sample.ts

section Buckets

variable {metric : Text} {since until_ bucketSeconds : ℤ} {samples : List Sample}

/-- The items that are grouped. -/
def indexed (since bucketSeconds : ℤ) (samples : List Sample) : List (ℤ × ℚ) :=
  samples.map fun sample => (bucketIndex since bucketSeconds sample.ts, sample.value)

theorem covers_displayBucket (hpos : 1 ≤ bucketSeconds) {rolled : List ℤ} {entry : ℤ × List ℚ}
    {sample : Sample} (hsince : since ≤ sample.ts) :
    (displayBucket metric since until_ bucketSeconds rolled entry).Covers bucketSeconds sample.ts ↔
      bucketIndex since bucketSeconds sample.ts = entry.1 :=
  (bucketIndex_eq_iff hpos hsince).symm

theorem mem_values_of_group {entry : ℤ × List ℚ}
    (hentry : entry ∈ Dict.group (indexed since bucketSeconds samples)) {value : ℚ} :
    value ∈ entry.2 ↔ ∃ sample ∈ samples,
      bucketIndex since bucketSeconds sample.ts = entry.1 ∧ sample.value = value := by
  obtain ⟨index, values⟩ := entry
  obtain ⟨-, rfl⟩ := Dict.mem_group.mp hentry
  simp only [indexed, List.mem_map, List.mem_filter, decide_eq_true_eq]
  constructor
  · rintro ⟨item, ⟨⟨sample, hsample, rfl⟩, hindex⟩, rfl⟩
    exact ⟨sample, hsample, hindex, rfl⟩
  · rintro ⟨sample, hsample, hindex, rfl⟩
    exact ⟨_, ⟨⟨sample, hsample, rfl⟩, hindex⟩, rfl⟩

theorem partitions_displayBuckets (metric : Text) (until_ : ℤ) (hpos : 1 ≤ bucketSeconds)
    (hsince : ∀ sample ∈ samples, since ≤ sample.ts) :
    Partitions metric bucketSeconds samples
      (displayBuckets metric since until_ bucketSeconds samples) := by
  have hwidth : 0 < bucketSeconds * second := mul_pos (by omega) (by decide)
  have hordered := Dict.ordered_group (indexed since bucketSeconds samples)
  have hbucket : ∀ {bucket}, bucket ∈ displayBuckets metric since until_ bucketSeconds samples →
      ∃ entry ∈ Dict.group (indexed since bucketSeconds samples), bucket =
        displayBucket metric since until_ bucketSeconds (rolledIndices since bucketSeconds samples)
          entry := fun hmem => by
    obtain ⟨entry, hentry, rfl⟩ := List.mem_map.mp hmem
    exact ⟨entry, hentry, rfl⟩
  have hsteps : ∀ i j : ℤ, i < j →
      since + i * bucketSeconds * second + bucketSeconds * second ≤
        since + j * bucketSeconds * second := by
    intro i j hlt
    have hle : (i + 1) * (bucketSeconds * second) ≤ j * (bucketSeconds * second) :=
      mul_le_mul_of_nonneg_right (by omega) hwidth.le
    linarith
  refine ⟨?_, fun sample hsample => ?_, fun bucket hmem covered hcovered => ?_, ?_,
    fun bucket hmem => ?_, fun hbinary bucket hmem value hvalue sample hsample hcovers => ?_,
    fun bucket hmem => ?_⟩
  · refine List.pairwise_map.mpr (hordered.imp fun {before after} hlt => ?_)
    have hstep := hsteps before.1 after.1 hlt
    refine ⟨?_, (min_le_right _ _).trans hstep⟩
    change since + before.1 * bucketSeconds * second < since + after.1 * bucketSeconds * second
    omega
  · -- the bucket of the index of the sample
    have hkey : bucketIndex since bucketSeconds sample.ts ∈
        (Dict.group (indexed since bucketSeconds samples)).map Prod.fst := by
      rw [Dict.mem_keys_group, indexed, List.map_map]
      exact List.mem_map_of_mem hsample
    obtain ⟨entry, hentry, hindex⟩ := List.mem_map.mp hkey
    refine ⟨_, ⟨List.mem_map_of_mem hentry,
      (covers_displayBucket hpos (hsince sample hsample)).mpr hindex.symm⟩, ?_⟩
    rintro bucket ⟨hmem, hcovers⟩
    obtain ⟨other, hother, rfl⟩ := hbucket hmem
    rw [covers_displayBucket hpos (hsince sample hsample), ← hindex] at hcovers
    have hsame : other = entry := by
      have hget := Dict.get?_of_mem hordered hother
      rw [← hcovers, Dict.get?_of_mem hordered hentry] at hget
      exact Prod.ext hcovers.symm (Option.some.inj hget).symm
    rw [hsame]
  · obtain ⟨entry, hentry, rfl⟩ := hbucket hmem
    obtain ⟨-, hvalues⟩ := Dict.mem_group.mp (hentry : (entry.1, entry.2) ∈ Dict.group _)
    change entry.2.length = _
    rw [hvalues, List.length_map, indexed, List.filter_map, List.length_map,
      List.countP_eq_length_filter]
    refine congrArg List.length (List.filter_congr fun sample hsample => ?_)
    rw [Bool.eq_iff_iff, hcovered, covers_displayBucket hpos (hsince sample hsample)]
    simp
  · have hsum := Dict.sum_length_group (indexed since bucketSeconds samples)
    rw [indexed, List.length_map] at hsum
    rw [← hsum, displayBuckets, List.map_map]
    rfl
  · obtain ⟨entry, hentry, rfl⟩ := hbucket hmem
    obtain ⟨hne, -⟩ := Dict.mem_group.mp (hentry : (entry.1, entry.2) ∈ Dict.group _)
    obtain ⟨value, hvalue⟩ := Option.isSome_iff_exists.mp (isSome_displayValue metric hne)
    obtain ⟨low, hlow, high, hhigh, hle, hge⟩ := displayValue_between hvalue
    obtain ⟨first, hfirst, hindex, rfl⟩ := (mem_values_of_group hentry).mp hlow
    obtain ⟨second, hsecond, hindex', rfl⟩ := (mem_values_of_group hentry).mp hhigh
    exact ⟨value, hvalue, first, hfirst, second, hsecond,
      (covers_displayBucket hpos (hsince first hfirst)).mpr hindex,
      (covers_displayBucket hpos (hsince second hsecond)).mpr hindex', hle, hge⟩
  · obtain ⟨entry, hentry, rfl⟩ := hbucket hmem
    have hmetric : metric ≠ httpStatus := by
      rintro rfl
      revert hbinary
      decide
    change displayValue metric entry.2 = some value at hvalue
    rw [displayValue, if_neg hmetric, if_pos hbinary] at hvalue
    refine (List.min?_eq_some_iff.mp hvalue).2 sample.value ((mem_values_of_group hentry).mpr ?_)
    exact ⟨sample, hsample, (covers_displayBucket hpos (hsince sample hsample)).mp hcovers, rfl⟩
  · obtain ⟨entry, hentry, rfl⟩ := hbucket hmem
    change (rolledIndices since bucketSeconds samples).contains entry.1 = true ↔ _
    rw [List.contains_iff_mem, rolledIndices]
    simp only [List.mem_map, List.mem_filter]
    constructor
    · rintro ⟨sample, ⟨hsample, hrollup⟩, hindex⟩
      exact ⟨sample, hsample, hrollup,
        (covers_displayBucket hpos (hsince sample hsample)).mpr hindex⟩
    · rintro ⟨sample, hsample, hrollup, hcovers⟩
      exact ⟨sample, ⟨hsample, hrollup⟩,
        (covers_displayBucket hpos (hsince sample hsample)).mp hcovers⟩

end Buckets

/-- All the finite points of the three windows. -/
def finiteSamples (format : LineFormat V) (finite : V → Option ℚ) (now since until_ : ℤ)
    (series : Resolution → Series) : List Sample :=
  (sourcesOf now since until_).flatMap fun source =>
    ((allPoints format (series source.resolution)).filter
      (inWindow (some source.from_) (some source.until_))).filterMap fun point =>
        (finite point.value).map fun value => ⟨point.ts, value, decide (source.resolution ≠ .raw)⟩

/-- What is wanted of a chart: every time belongs to one source, the points of the
sources are looked at (of status codes the raw ones that are codes), and the
buckets partition them. -/
structure DisplaysStored (format : LineFormat V) (finite : V → Option ℚ)
    (series : Resolution → Series) (metric : Text) (now since until_ bucketSeconds : ℤ) : Prop where
  windows : ∀ ts, since ≤ ts → ts ≤ until_ → ∃! source,
    source ∈ sourcesOf now since until_ ∧ source.from_ ≤ ts ∧ ts ≤ source.until_
  looksAt : metric ≠ httpStatus →
    storedSamples format finite metric now since until_ series =
      finiteSamples format finite now since until_ series
  partitions : Partitions metric bucketSeconds
    (storedSamples format finite metric now since until_ series)
    (queryDisplaySeries format finite series metric now since until_ bucketSeconds).points

/-- A series without segments, with values at the given times. -/
def activeSeries (items : List (ℤ × Fin 10)) : Series :=
  ⟨[], some ⟨0, (items.map fun item => recordLine JsonLine.format item.1 item.2).flatten⟩, 1⟩

def seriesOf (raw five : List (ℤ × Fin 10)) : Resolution → Series
  | .raw => activeSeries raw
  | .fiveMinute => activeSeries five
  | .hour => Series.empty

def digitAsRat (value : Fin 10) : Option ℚ := some value.val

theorem stored_of_segments_nil (format : LineFormat V) (resolution : Resolution) (now : ℤ)
    {s : Series} (hsegments : s.segments = []) : Stored format resolution now s := by
  refine ⟨by simp [hsegments], fun line hline => ?_⟩
  obtain ⟨entry, hentry, -⟩ := mem_archived.mp hline
  rw [hsegments] at hentry
  simp at hentry

theorem stored_seriesOf (raw five : List (ℤ × Fin 10)) (now : ℤ) (resolution : Resolution) :
    Stored JsonLine.format resolution now (seriesOf raw five resolution) :=
  stored_of_segments_nil _ _ _ (by cases resolution <;> rfl)

end Justup.Charts
