import Justup.Lib.Grouping
import Justup.Store.Rollup

/-!
# Resampling for charts

`_resample_points`: the points of a window in at most so many buckets of time.
The value of a point is the number that `float` makes of it, if it makes one;
quotients of floats are exact.
-/

namespace Justup.Charts

open Justup.Lib Justup.Store

/-! ## The model -/

/-- A stored point with its number. -/
abbrev Reading := Point (Option ℚ)

/-- `bucket_seconds`. -/
def bucketSeconds (since until_ : ℤ) (maxPoints : ℕ) : ℤ :=
  max 1 ⌈((max second (until_ - since) : ℤ) : ℚ) / ((second * maxPoints : ℤ) : ℚ)⌉

def byTime (points : List Reading) : List Reading :=
  points.mergeSort fun a b => decide (a.ts ≤ b.ts)

/-- Every `len(points) / max_points`-th point, as `int(i * step)` finds it. -/
def evenly (maxPoints : ℕ) (points : List Reading) : List Reading :=
  (List.range maxPoints).filterMap fun i => points[i * points.length / maxPoints]?

/-- The sampling of the metrics that are not aggregated. -/
def sampleEvenly (maxPoints : ℕ) (points : List Reading) : List Reading :=
  match points.head?, points.getLast? with
  | some first, some last =>
      byTime (((evenly maxPoints points).set 0 first).set (maxPoints - 1) last)
  | _, _ => []

/-- The fallback for points without numbers. -/
def subsample (maxPoints : ℕ) (points : List Reading) : List Reading :=
  match points.head?, points.getLast? with
  | some first, some last =>
      let step := max 1 ((points.length + maxPoints - 1) / maxPoints)
      let inner := (List.range (points.length - 1)).filterMap fun i =>
        if step ≤ i ∧ i % step = 0 then points[i]? else none
      if points.length = 1 then points
      else (byTime (first :: inner ++ [last])).take maxPoints
  | _, _ => []

/-- `buckets`, sorted by their starts. -/
def bucketsOf (seconds : ℤ) (points : List Reading) : List (ℤ × List ℚ) :=
  Dict.group (points.filterMap fun point =>
    point.value.map fun number => (bucketKey seconds point.ts, number))

/-- One point for every bucket. -/
def aggregated (binary : Bool) (buckets : List (ℤ × List ℚ)) : List Reading :=
  buckets.filterMap fun bucket =>
    (aggregate (fun a b => (a + b) / 2) binary bucket.2).map fun number => ⟨bucket.1, some number⟩

/-- A point of the first and of the last time is added where its bucket is missing. -/
def withEndpoints (seconds : ℤ) (points resampled : List Reading) : List Reading :=
  match points.head?, points.getLast? with
  | some first, some last =>
      let front :=
        if resampled.head?.map Point.ts ≠ some (bucketKey seconds first.ts) ∧ first.value.isSome
        then [first] else []
      let back :=
        if resampled.getLast?.map Point.ts ≠ some (bucketKey seconds last.ts) ∧ last.value.isSome
        then [last] else []
      if resampled.isEmpty then resampled else front ++ resampled ++ back
  | _, _ => resampled

/-- `_resample_points`; a negative `max_points` is like 0. -/
def resamplePoints (metric : Text) (since until_ : ℤ) (maxPoints : ℕ) (points : List Reading) :
    List Reading :=
  if maxPoints = 0 then points
  else if points.length ≤ maxPoints then points
  else if nonResampleMetrics.contains (baseMetric metric) then sampleEvenly maxPoints points
  else
    let seconds := bucketSeconds since until_ maxPoints
    let buckets := bucketsOf seconds points
    if buckets.isEmpty then subsample maxPoints points
    else
      let resampled := byTime (withEndpoints seconds points
        (aggregated (isBinaryMetric (baseMetric metric)) buckets))
      if maxPoints < resampled.length then evenly maxPoints resampled else resampled

/-! ## The grid -/

/-- The number of the bucket of a time. -/
def cell (seconds ts : ℤ) : ℤ := ts.tdiv second / seconds

theorem bucketKey_eq (seconds ts : ℤ) :
    bucketKey seconds ts = cell seconds ts * (seconds * second) := by
  rw [bucketKey, cell, mul_assoc]

theorem bucketKey_eq_iff {seconds : ℤ} (hseconds : 0 < seconds) {ts ts' : ℤ} :
    bucketKey seconds ts = bucketKey seconds ts' ↔ cell seconds ts = cell seconds ts' := by
  have hwidth : seconds * second ≠ 0 := by
    unfold second
    omega
  rw [bucketKey_eq, bucketKey_eq, mul_left_inj' hwidth]

/-- `int` cuts towards the epoch. -/
theorem tdiv_second (ts : ℤ) :
    ts.tdiv second = if 0 ≤ ts then ts / 1000000 else -(-ts / 1000000) := by
  split
  next hts => exact Int.tdiv_eq_ediv_of_nonneg hts
  next hts =>
    rw [← Int.tdiv_eq_ediv_of_nonneg (by omega), Int.neg_tdiv, neg_neg]
    rfl

theorem tdiv_mono {ts ts' : ℤ} (hle : ts ≤ ts') : ts.tdiv second ≤ ts'.tdiv second := by
  rw [tdiv_second, tdiv_second]
  split <;> split <;> omega

theorem cell_mono {seconds : ℤ} (hseconds : 0 < seconds) {ts ts' : ℤ} (hle : ts ≤ ts') :
    cell seconds ts ≤ cell seconds ts' :=
  Int.ediv_le_ediv hseconds (tdiv_mono hle)

theorem bucketKey_mono {seconds : ℤ} (hseconds : 0 < seconds) {ts ts' : ℤ} (hle : ts ≤ ts') :
    bucketKey seconds ts ≤ bucketKey seconds ts' := by
  rw [bucketKey_eq, bucketKey_eq]
  exact mul_le_mul_of_nonneg_right (cell_mono hseconds hle) (mul_nonneg hseconds.le (by decide))

/-- The start of a bucket lies in that bucket. -/
theorem cell_bucketKey {seconds : ℤ} (hseconds : 0 < seconds) (ts : ℤ) :
    cell seconds (bucketKey seconds ts) = cell seconds ts := by
  rw [bucketKey, cell, Int.mul_tdiv_cancel _ (by decide), Int.mul_ediv_cancel _ hseconds.ne']
  rfl

theorem bucketSeconds_pos (since until_ : ℤ) (maxPoints : ℕ) :
    0 < bucketSeconds since until_ maxPoints := by
  unfold bucketSeconds
  omega

/-- The buckets of the asked number are as long as the window. -/
theorem window_le (since until_ : ℤ) {maxPoints : ℕ} (hpos : 0 < maxPoints) :
    until_ - since ≤ bucketSeconds since until_ maxPoints * maxPoints * second := by
  have hceil := Int.le_ceil
    (((max second (until_ - since) : ℤ) : ℚ) / ((second * maxPoints : ℤ) : ℚ))
  have hdenominator : (0 : ℚ) < ((second * maxPoints : ℤ) : ℚ) := by
    have : (0 : ℤ) < second * maxPoints := mul_pos (by decide) (by exact_mod_cast hpos)
    exact_mod_cast this
  rw [div_le_iff₀ hdenominator] at hceil
  have hwindow : max second (until_ - since) ≤
      ⌈((max second (until_ - since) : ℤ) : ℚ) / ((second * maxPoints : ℤ) : ℚ)⌉ *
        (second * maxPoints) := by exact_mod_cast hceil
  calc until_ - since ≤ max second (until_ - since) := le_max_right _ _
    _ ≤ _ := hwindow
    _ ≤ bucketSeconds since until_ maxPoints * (second * maxPoints) :=
        mul_le_mul_of_nonneg_right (le_max_right _ _) (mul_nonneg (by decide) (by omega))
    _ = bucketSeconds since until_ maxPoints * maxPoints * second := by ring

/-- The window reaches over at most one bucket more than asked. -/
theorem cell_until_le (since until_ : ℤ) {maxPoints : ℕ} (hpos : 0 < maxPoints) :
    cell (bucketSeconds since until_ maxPoints) until_ ≤
      cell (bucketSeconds since until_ maxPoints) since + maxPoints := by
  have hwindow := window_le since until_ hpos
  have hseconds := bucketSeconds_pos since until_ maxPoints
  generalize bucketSeconds since until_ maxPoints = seconds at *
  have hcut : until_.tdiv second ≤ since.tdiv second + maxPoints * seconds := by
    have hwidth : 0 ≤ seconds * (maxPoints : ℤ) := mul_nonneg hseconds.le (by omega)
    rw [mul_comm (maxPoints : ℤ)]
    generalize seconds * (maxPoints : ℤ) = width at hwindow hwidth ⊢
    rw [tdiv_second, tdiv_second]
    unfold second at hwindow
    split <;> split <;> omega
  calc cell seconds until_ ≤ (since.tdiv second + maxPoints * seconds) / seconds :=
        Int.ediv_le_ediv hseconds hcut
    _ = cell seconds since + maxPoints := Int.add_mul_ediv_right _ _ hseconds.ne'

/-! ## The buckets of a binary metric -/

/-- The points of a chart of a binary metric: in time order, all of them inside
the window, and each with the value 0 or 1. -/
structure BinaryPoints (since until_ : ℤ) (points : List Reading) : Prop where
  ordered : points.Pairwise fun earlier later => earlier.ts ≤ later.ts
  inside : ∀ point ∈ points, since ≤ point.ts ∧ point.ts ≤ until_
  binary : ∀ point ∈ points, point.value = some 0 ∨ point.value = some 1

instance (since until_ : ℤ) (points : List Reading) :
    Decidable (BinaryPoints since until_ points) :=
  decidable_of_iff
    ((points.Pairwise fun earlier later => earlier.ts ≤ later.ts) ∧
      (∀ point ∈ points, since ≤ point.ts ∧ point.ts ≤ until_) ∧
        ∀ point ∈ points, point.value = some 0 ∨ point.value = some 1)
    ⟨fun h => ⟨h.1, h.2.1, h.2.2⟩, fun h => ⟨h.1, h.2, h.3⟩⟩

/-- The different buckets that some points fall into. -/
def bucketStarts (seconds : ℤ) (points : List Reading) : Finset ℤ :=
  (points.map fun point => bucketKey seconds point.ts).toFinset

section Binary

variable {since until_ seconds : ℤ} {points : List Reading}

theorem isSome_value (hbinary : BinaryPoints since until_ points) {point : Reading}
    (hpoint : point ∈ points) : point.value.isSome := by
  rcases hbinary.binary point hpoint with hvalue | hvalue <;> simp [hvalue]

theorem exists_bucket_iff (hbinary : BinaryPoints since until_ points) {start : ℤ} :
    start ∈ (bucketsOf seconds points).map Prod.fst ↔ start ∈ bucketStarts seconds points := by
  rw [bucketsOf, Dict.mem_keys_group, bucketStarts, List.mem_toFinset]
  simp only [List.mem_map, List.mem_filterMap, Option.map_eq_some_iff]
  constructor
  · rintro ⟨item, ⟨point, hpoint, number, -, rfl⟩, rfl⟩
    exact ⟨point, hpoint, rfl⟩
  · rintro ⟨point, hpoint, rfl⟩
    obtain ⟨number, hnumber⟩ := Option.isSome_iff_exists.mp (isSome_value hbinary hpoint)
    exact ⟨_, ⟨point, hpoint, number, hnumber, rfl⟩, rfl⟩

theorem length_bucketsOf (hbinary : BinaryPoints since until_ points) :
    (bucketsOf seconds points).length = (bucketStarts seconds points).card := by
  have hkeys : ((bucketsOf seconds points).map Prod.fst).toFinset =
      bucketStarts seconds points := by
    ext start
    rw [List.mem_toFinset, exists_bucket_iff hbinary]
  have hnodup : ((bucketsOf seconds points).map Prod.fst).Nodup := Dict.nodup_keys_group _
  rw [← hkeys, List.toFinset_card_of_nodup hnodup, List.length_map]

/-- There is at most one bucket more than asked. -/
theorem card_bucketStarts_le {maxPoints : ℕ} (hpos : 0 < maxPoints)
    (hbinary : BinaryPoints since until_ points) :
    (bucketStarts (bucketSeconds since until_ maxPoints) points).card ≤ maxPoints + 1 := by
  have hseconds := bucketSeconds_pos since until_ maxPoints
  have hcells := cell_until_le since until_ hpos
  generalize bucketSeconds since until_ maxPoints = seconds at *
  have hsub : bucketStarts seconds points ⊆
      (Finset.Icc (cell seconds since) (cell seconds since + maxPoints)).image
        fun number => number * (seconds * second) := by
    intro start hstart
    obtain ⟨point, hpoint, rfl⟩ := List.mem_map.mp (List.mem_toFinset.mp hstart)
    obtain ⟨hsince, huntil⟩ := hbinary.inside point hpoint
    refine Finset.mem_image.mpr ⟨cell seconds point.ts, Finset.mem_Icc.mpr ⟨?_, ?_⟩,
      (bucketKey_eq seconds point.ts).symm⟩
    · exact cell_mono hseconds hsince
    · exact (cell_mono hseconds huntil).trans hcells
  calc (bucketStarts seconds points).card ≤ _ := Finset.card_le_card hsub
    _ ≤ (Finset.Icc (cell seconds since) (cell seconds since + maxPoints)).card :=
        Finset.card_image_le
    _ = maxPoints + 1 := by
        rw [Int.card_Icc]
        omega

/-- The values of a bucket are those of its points. -/
theorem mem_values {start : ℤ} {values : List ℚ}
    (hbucket : (start, values) ∈ bucketsOf seconds points) {number : ℚ} :
    number ∈ values ↔
      ∃ point ∈ points, bucketKey seconds point.ts = start ∧ point.value = some number := by
  obtain ⟨-, rfl⟩ := Dict.mem_group.mp hbucket
  simp only [List.mem_map, List.mem_filter, List.mem_filterMap, Option.map_eq_some_iff,
    decide_eq_true_eq]
  constructor
  · rintro ⟨item, ⟨⟨point, hpoint, value, hvalue, rfl⟩, rfl⟩, rfl⟩
    exact ⟨point, hpoint, rfl, hvalue⟩
  · rintro ⟨point, hpoint, rfl, hvalue⟩
    exact ⟨_, ⟨⟨point, hpoint, number, hvalue, rfl⟩, rfl⟩, rfl⟩

/-- The aggregated points: one for each bucket, with the least value. -/
def bucketPoints (seconds : ℤ) (points : List Reading) : List Reading :=
  (bucketsOf seconds points).map fun bucket => ⟨bucket.1, bucket.2.min?⟩

theorem aggregated_eq :
    aggregated true (bucketsOf seconds points) = bucketPoints seconds points := by
  rw [aggregated, bucketPoints, ← List.filterMap_eq_map]
  refine List.filterMap_congr fun bucket hbucket => ?_
  obtain ⟨hne, -⟩ := Dict.mem_group.mp (hbucket : (bucket.1, bucket.2) ∈ bucketsOf seconds points)
  obtain ⟨least, hleast⟩ := Option.isSome_iff_exists.mp (List.isSome_min?_of_ne_nil hne)
  simp [aggregate, hleast]

theorem ordered_bucketPoints (seconds : ℤ) (points : List Reading) :
    (bucketPoints seconds points).Pairwise fun earlier later => earlier.ts < later.ts :=
  List.pairwise_map.mpr (Dict.ordered_group _)

theorem length_bucketPoints (seconds : ℤ) (hbinary : BinaryPoints since until_ points) :
    (bucketPoints seconds points).length = (bucketStarts seconds points).card := by
  rw [bucketPoints, List.length_map, length_bucketsOf hbinary]

theorem exists_bucketPoint (seconds : ℤ) (hbinary : BinaryPoints since until_ points)
    {point : Reading} (hpoint : point ∈ points) :
    ∃ out ∈ bucketPoints seconds points, out.ts = bucketKey seconds point.ts ∧
      (point.value = some 0 → out.value = some 0) := by
  have hstart : bucketKey seconds point.ts ∈ bucketStarts seconds points :=
    List.mem_toFinset.mpr (List.mem_map_of_mem hpoint)
  obtain ⟨⟨start, values⟩, hbucket, hkey⟩ :=
    List.mem_map.mp ((exists_bucket_iff hbinary).mpr hstart)
  refine ⟨_, List.mem_map_of_mem hbucket, hkey, fun hzero => ?_⟩
  refine List.min?_eq_some_iff.mpr ⟨?_, fun number hnumber => ?_⟩
  · exact (mem_values hbucket).mpr ⟨point, hpoint, hkey.symm, hzero⟩
  · obtain ⟨other, hother, -, hvalue⟩ := (mem_values hbucket).mp hnumber
    rcases hbinary.binary other hother with hbit | hbit
    · rw [hbit] at hvalue
      exact (Option.some.inj hvalue).le
    · rw [hbit] at hvalue
      rw [← Option.some.inj hvalue]
      exact zero_le_one

theorem ts_mem_bucketStarts (hbinary : BinaryPoints since until_ points) {out : Reading}
    (hout : out ∈ bucketPoints seconds points) : out.ts ∈ bucketStarts seconds points := by
  obtain ⟨bucket, hbucket, rfl⟩ := List.mem_map.mp hout
  exact (exists_bucket_iff hbinary).mp (List.mem_map_of_mem hbucket)

theorem le_of_head? {out : Reading} (hbinary : BinaryPoints since until_ points)
    (hout : out ∈ bucketPoints seconds points) (hseconds : 0 < seconds) {first : Reading}
    (hfirst : points.head? = some first) : bucketKey seconds first.ts ≤ out.ts := by
  obtain ⟨point, hpoint, hts⟩ :=
    List.mem_map.mp (List.mem_toFinset.mp (ts_mem_bucketStarts hbinary hout))
  rw [← hts]
  refine bucketKey_mono hseconds ?_
  cases points with
  | nil => simp at hpoint
  | cons head rest =>
      obtain rfl := Option.some.inj hfirst
      rcases List.mem_cons.mp hpoint with rfl | hrest
      · exact le_rfl
      · exact (List.pairwise_cons.mp hbinary.ordered).1 point hrest

theorem le_of_getLast? {out : Reading} (hbinary : BinaryPoints since until_ points)
    (hout : out ∈ bucketPoints seconds points) (hseconds : 0 < seconds) {last : Reading}
    (hlast : points.getLast? = some last) : out.ts ≤ bucketKey seconds last.ts := by
  obtain ⟨point, hpoint, hts⟩ :=
    List.mem_map.mp (List.mem_toFinset.mp (ts_mem_bucketStarts hbinary hout))
  rw [← hts]
  refine bucketKey_mono hseconds ?_
  obtain ⟨front, rfl⟩ := List.getLast?_eq_some_iff.mp hlast
  rcases List.mem_append.mp hpoint with hfront | hpoint
  · exact (List.pairwise_append.mp hbinary.ordered).2.2 point hfront last (by simp)
  · rw [List.mem_singleton.mp hpoint]

/-- The first bucket is that of the first point. -/
theorem head?_bucketPoints (hbinary : BinaryPoints since until_ points) (hseconds : 0 < seconds)
    {first : Reading} (hfirst : points.head? = some first) :
    (bucketPoints seconds points).head?.map Point.ts = some (bucketKey seconds first.ts) := by
  obtain ⟨out, hout, hts, -⟩ :=
    exists_bucketPoint seconds hbinary (List.mem_of_head? hfirst)
  obtain ⟨head, rest, hsplit⟩ := List.exists_cons_of_ne_nil (List.ne_nil_of_mem hout)
  have hle := le_of_head? hbinary (hsplit ▸ List.mem_cons_self ..) hseconds hfirst
  have hordered := hsplit ▸ ordered_bucketPoints seconds points
  rw [hsplit, List.head?_cons, Option.map_some]
  rw [hsplit] at hout
  congr 1
  rcases List.mem_cons.mp hout with rfl | hrest
  · exact hts
  · have hlt := (List.pairwise_cons.mp hordered).1 out hrest
    omega

/-- The last bucket is that of the last point. -/
theorem getLast?_bucketPoints (hbinary : BinaryPoints since until_ points) (hseconds : 0 < seconds)
    {last : Reading} (hlast : points.getLast? = some last) :
    (bucketPoints seconds points).getLast?.map Point.ts = some (bucketKey seconds last.ts) := by
  obtain ⟨out, hout, hts, -⟩ :=
    exists_bucketPoint seconds hbinary (List.mem_of_getLast? hlast)
  obtain ⟨front, newest, hsplit⟩ :=
    (List.eq_nil_or_concat' (bucketPoints seconds points)).resolve_left (List.ne_nil_of_mem hout)
  have hnewest : newest ∈ bucketPoints seconds points := by simp [hsplit]
  have hle := le_of_getLast? hbinary hnewest hseconds hlast
  have hordered := hsplit ▸ ordered_bucketPoints seconds points
  rw [hsplit, List.getLast?_concat, Option.map_some]
  rw [hsplit] at hout
  congr 1
  rcases List.mem_append.mp hout with hfront | hnewest
  · have hlt := (List.pairwise_append.mp hordered).2.2 out hfront newest (by simp)
    omega
  · rw [← List.mem_singleton.mp hnewest, hts]

/-- Nothing is added at the ends. -/
theorem withEndpoints_bucketPoints (hbinary : BinaryPoints since until_ points)
    (hseconds : 0 < seconds) :
    withEndpoints seconds points (bucketPoints seconds points) = bucketPoints seconds points := by
  cases hfirst : points.head? with
  | none => simp [withEndpoints, hfirst]
  | some first =>
      cases hlast : points.getLast? with
      | none => simp [withEndpoints, hfirst, hlast]
      | some last =>
          simp [withEndpoints, hfirst, hlast, head?_bucketPoints hbinary hseconds hfirst,
            getLast?_bucketPoints hbinary hseconds hlast]

theorem byTime_of_ordered {list : List Reading}
    (hordered : list.Pairwise fun earlier later => earlier.ts < later.ts) : byTime list = list :=
  List.mergeSort_of_pairwise (hordered.imp fun hlt => decide_eq_true hlt.le)

end Binary

theorem filterMap_getElem?_range {α : Type*} (list : List α) (n : ℕ) :
    (List.range n).filterMap (fun i => list[i]?) = list.take n := by
  induction n with
  | zero => simp
  | succ n ih =>
      rw [List.range_succ, List.filterMap_append, ih, List.take_add_one]
      cases hentry : list[n]? with
      | none => simp [hentry]
      | some entry => simp [hentry]

/-- Of one entry too many the last is dropped. -/
theorem evenly_eq_take {maxPoints : ℕ} {list : List Reading}
    (hlength : list.length = maxPoints + 1) :
    evenly maxPoints list = list.take maxPoints := by
  have hindex : ∀ i ∈ List.range maxPoints, list[i * list.length / maxPoints]? = list[i]? := by
    intro i hi
    rw [List.mem_range] at hi
    have hquotient : i * list.length / maxPoints = i := by
      rw [hlength]
      refine Nat.div_eq_of_lt_le ?_ ?_
      · exact Nat.mul_le_mul_left i (Nat.le_succ _)
      · rw [Nat.mul_succ, Nat.succ_mul]
        omega
    rw [hquotient]
  rw [evenly, List.filterMap_congr hindex, filterMap_getElem?_range]

/-- What is wanted of a resampled chart: it has at most the asked number of
points, in time order, it shows every outage, and it ends in the newest bucket. -/
structure KeepsOutages (seconds : ℤ) (maxPoints : ℕ) (points out : List Reading) : Prop where
  atMost : out.length ≤ maxPoints
  ordered : out.Pairwise fun earlier later => earlier.ts ≤ later.ts
  outages : ∀ point ∈ points, point.value = some 0 →
    ∃ shown ∈ out, shown.value = some 0 ∧ bucketKey seconds shown.ts = bucketKey seconds point.ts
  newest : ∀ last ∈ points.getLast?,
    ∃ shown ∈ out, bucketKey seconds shown.ts = bucketKey seconds last.ts

/-! ## The result -/

/-- A binary metric is one that is aggregated. -/
theorem not_nonResample {metric : Text} (hmetric : isBinaryMetric (baseMetric metric) = true) :
    nonResampleMetrics.contains (baseMetric metric) = false := by
  rw [Bool.eq_false_iff]
  intro hcontains
  have hstatus : baseMetric metric = "http_status".toList := by
    simpa [nonResampleMetrics] using hcontains
  rw [hstatus] at hmetric
  revert hmetric
  decide

/-- What is returned for too many points of a binary metric. -/
theorem resamplePoints_eq {metric : Text} (hmetric : isBinaryMetric (baseMetric metric) = true)
    {since until_ : ℤ} {maxPoints : ℕ} {points : List Reading} (hpos : 0 < maxPoints)
    (hlong : maxPoints < points.length) (hbinary : BinaryPoints since until_ points) :
    resamplePoints metric since until_ maxPoints points =
      (bucketPoints (bucketSeconds since until_ maxPoints) points).take maxPoints := by
  have hseconds := bucketSeconds_pos since until_ maxPoints
  have hcard := card_bucketStarts_le hpos hbinary
  rw [← length_bucketPoints _ hbinary] at hcard
  have hne : (bucketsOf (bucketSeconds since until_ maxPoints) points).isEmpty = false := by
    rw [List.isEmpty_eq_false_iff_exists_mem]
    obtain ⟨point, hpoint⟩ := List.exists_mem_of_length_pos (by omega : 0 < points.length)
    obtain ⟨out, hout, -⟩ :=
      exists_bucketPoint (bucketSeconds since until_ maxPoints) hbinary hpoint
    obtain ⟨bucket, hbucket, -⟩ := List.mem_map.mp hout
    exact ⟨bucket, hbucket⟩
  have hordered := ordered_bucketPoints (bucketSeconds since until_ maxPoints) points
  unfold resamplePoints
  rw [if_neg hpos.ne', if_neg (by omega), not_nonResample hmetric, if_neg Bool.false_ne_true]
  simp only [hne, Bool.false_eq_true, if_false, hmetric, aggregated_eq,
    withEndpoints_bucketPoints hbinary hseconds, byTime_of_ordered hordered]
  split
  · exact evenly_eq_take (by omega)
  · exact (List.take_of_length_le (by omega)).symm

/-- A chart of a binary metric keeps the outages and the newest bucket if and only
if its points lie in at most the asked number of buckets. -/
theorem resampling_keeps_outages_iff {metric : Text}
    (hmetric : isBinaryMetric (baseMetric metric) = true) {since until_ : ℤ} {maxPoints : ℕ}
    {points : List Reading} (hpos : 0 < maxPoints) (hlong : maxPoints < points.length)
    (hbinary : BinaryPoints since until_ points) :
    KeepsOutages (bucketSeconds since until_ maxPoints) maxPoints points
        (resamplePoints metric since until_ maxPoints points) ↔
      (bucketStarts (bucketSeconds since until_ maxPoints) points).card ≤ maxPoints := by
  have hseconds := bucketSeconds_pos since until_ maxPoints
  rw [resamplePoints_eq hmetric hpos hlong hbinary]
  generalize bucketSeconds since until_ maxPoints = seconds at *
  have hlength := length_bucketPoints seconds hbinary
  have hordered := ordered_bucketPoints seconds points
  have hstart : ∀ out ∈ bucketPoints seconds points, bucketKey seconds out.ts = out.ts := by
    intro out hout
    obtain ⟨point, -, hts⟩ :=
      List.mem_map.mp (List.mem_toFinset.mp (ts_mem_bucketStarts hbinary hout))
    rw [← hts, bucketKey_eq_iff hseconds, cell_bucketKey hseconds]
  constructor
  · intro hkeeps
    by_contra hmany
    -- the newest bucket is the one that is dropped
    obtain ⟨last, hlast⟩ : ∃ last, points.getLast? = some last :=
      Option.isSome_iff_exists.mp (by simp; rintro rfl; simp at hlong)
    obtain ⟨shown, hshown, hbucket⟩ := hkeeps.newest last hlast
    rw [hstart shown (List.mem_of_mem_take hshown)] at hbucket
    obtain ⟨out, hout, hts, -⟩ :=
      exists_bucketPoint seconds hbinary (List.mem_of_getLast? hlast)
    obtain ⟨front, newest, hsplit⟩ :=
      (List.eq_nil_or_concat' (bucketPoints seconds points)).resolve_left (List.ne_nil_of_mem hout)
    have hend := getLast?_bucketPoints hbinary hseconds hlast
    rw [hsplit, List.getLast?_concat, Option.map_some, Option.some.injEq] at hend
    rw [hsplit, List.length_append, List.length_singleton] at hlength
    rw [hsplit] at hordered
    have hfront : shown ∈ front := by
      rw [hsplit, List.take_append_of_le_length (by omega)] at hshown
      exact List.mem_of_mem_take hshown
    have hlt := (List.pairwise_append.mp hordered).2.2 shown hfront newest (by simp)
    omega
  · intro hfew
    rw [List.take_of_length_le (by omega)]
    refine ⟨by omega, hordered.imp le_of_lt, fun point hpoint hzero => ?_, fun last hlast => ?_⟩
    · obtain ⟨out, hout, hts, hvalue⟩ := exists_bucketPoint seconds hbinary hpoint
      exact ⟨out, hout, hvalue hzero, (hstart out hout).trans hts⟩
    · obtain ⟨out, hout, hts, -⟩ :=
        exists_bucketPoint seconds hbinary (List.mem_of_getLast? hlast)
      exact ⟨out, hout, (hstart out hout).trans hts⟩

/-- Points at the given seconds. -/
def readingsAt (readings : List (ℤ × ℚ)) : List Reading :=
  readings.map fun reading => ⟨reading.1 * second, some reading.2⟩

/-- A window that begins with a bucket. -/
theorem resampling_keeps_outages_aligned :
    KeepsOutages (bucketSeconds 0 (10 * second) 2) 2
      (readingsAt [(0, 1), (3, 0), (9, 1)])
      (resamplePoints "http_up".toList 0 (10 * second) 2 (readingsAt [(0, 1), (3, 0), (9, 1)])) :=
  (resampling_keeps_outages_iff (by decide +kernel) (by decide) (by decide) (by decide +kernel)).mpr
    (by decide +kernel)

/-- A window that begins between two bucket starts: an outage in the newest of
three buckets is not shown. -/
theorem resampling_loses_newest_outage :
    ¬ KeepsOutages (bucketSeconds (3 * second) (13 * second) 2) 2
      (readingsAt [(3, 1), (7, 1), (12, 0)])
      (resamplePoints "http_up".toList (3 * second) (13 * second) 2
        (readingsAt [(3, 1), (7, 1), (12, 0)])) := by
  have hout : ∀ shown ∈ resamplePoints "http_up".toList (3 * second) (13 * second) 2
      (readingsAt [(3, 1), (7, 1), (12, 0)]), shown.value ≠ some 0 := by
    rw [resamplePoints_eq (by decide +kernel) (by decide) (by decide) (by decide +kernel)]
    decide +kernel
  intro hkeeps
  obtain ⟨shown, hshown, hzero, -⟩ := hkeeps.outages ⟨12 * second, some 0⟩ (by decide +kernel) rfl
  exact hout shown hshown hzero

end Justup.Charts
