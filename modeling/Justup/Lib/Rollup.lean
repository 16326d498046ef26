import Justup.Lib.Retention

/-!
# Rolling up samples into buckets

Samples arrive in the order of their times, a pass aggregates the complete
buckets that the target does not have yet, and old elements are dropped on both
sides.  `Tier` is what source and target keep over any number of such steps.
-/

namespace Justup.Lib.Rollup

variable {Q A : Type*}

/-! ## Buckets -/

/-- The start of the bucket of a time. -/
def bucket (width ts : Int) : Int := ts / width * width

theorem dvd_bucket (width ts : Int) : width ∣ bucket width ts := dvd_mul_left width _

/-- Different bucket starts are a width apart. -/
theorem add_le_of_lt {width first second : Int} (hfirst : width ∣ first)
    (hsecond : width ∣ second) (hlt : first < second) : first + width ≤ second := by
  have hle := Int.le_of_dvd (sub_pos.mpr hlt) (dvd_sub hsecond hfirst)
  omega

section Bucket

variable {width : Int} (hwidth : 0 < width)

include hwidth

theorem bucket_le (ts : Int) : bucket width ts ≤ ts := Int.ediv_mul_le ts hwidth.ne'

theorem lt_bucket_add (ts : Int) : ts < bucket width ts + width := by
  have hlt := Int.lt_ediv_add_one_mul_self ts hwidth
  rwa [Int.add_mul, Int.one_mul] at hlt

theorem le_bucket_iff {start : Int} (hstart : width ∣ start) (ts : Int) :
    start ≤ bucket width ts ↔ start ≤ ts := by
  constructor
  · exact fun hle => hle.trans (bucket_le hwidth ts)
  · intro hle
    by_contra hlt
    have hadd := add_le_of_lt (dvd_bucket width ts) hstart (not_le.mp hlt)
    have hts := lt_bucket_add hwidth ts
    omega

theorem bucket_lt_iff {start : Int} (hstart : width ∣ start) (ts : Int) :
    bucket width ts < start ↔ ts < start := by
  rw [← not_le, le_bucket_iff hwidth hstart, not_le]

theorem bucket_mono {first second : Int} (hle : first ≤ second) :
    bucket width first ≤ bucket width second :=
  (le_bucket_iff hwidth (dvd_bucket width first) second).mpr
    ((bucket_le hwidth first).trans hle)

end Bucket

/-! ## The samples of a bucket -/

/-- The values of the samples in a bucket, in their order. -/
def samplesOf (width start : Int) (samples : List (Int × Q)) : List Q :=
  (samples.filter fun sample => decide (bucket width sample.1 = start)).map Prod.snd

theorem samplesOf_append (width start : Int) (first second : List (Int × Q)) :
    samplesOf width start (first ++ second) =
      samplesOf width start first ++ samplesOf width start second := by
  simp [samplesOf]

theorem samplesOf_ne_nil {width start : Int} {samples : List (Int × Q)} :
    samplesOf width start samples ≠ [] ↔ ∃ sample ∈ samples, bucket width sample.1 = start := by
  simp [samplesOf]

/-- The samples of a bucket from `bound` on are among the samples from `bound` on. -/
theorem samplesOf_filter {width : Int} (hwidth : 0 < width) {start bound : Int}
    (hbound : bound ≤ start) (samples : List (Int × Q)) :
    samplesOf width start (samples.filter fun sample => decide (bound ≤ sample.1)) =
      samplesOf width start samples := by
  rw [samplesOf, samplesOf, List.filter_filter]
  congr 1
  refine List.filter_congr fun sample _ => ?_
  by_cases hstart : bucket width sample.1 = start
  · have hle := bucket_le hwidth sample.1
    simp [hstart, show bound ≤ sample.1 by omega]
  · simp [hstart]

/-- Samples behind a bucket are not in it. -/
theorem samplesOf_of_le {width : Int} (hwidth : 0 < width) {start bound : Int}
    (hbound : width ∣ bound) (hlt : start < bound) {samples : List (Int × Q)}
    (hsamples : ∀ sample ∈ samples, bound ≤ sample.1) : samplesOf width start samples = [] := by
  by_contra hne
  obtain ⟨sample, hsample, hbucket⟩ := samplesOf_ne_nil.mp hne
  have hle := (le_bucket_iff hwidth hbound sample.1).mpr (hsamples sample hsample)
  omega

/-! ## Lists of timed elements -/

theorem filter_filter_le {bound later : Int} (hle : bound ≤ later) (list : List (Int × Q)) :
    (list.filter fun item => decide (bound ≤ item.1)).filter
        (fun item => decide (later ≤ item.1)) =
      list.filter fun item => decide (later ≤ item.1) := by
  rw [List.filter_filter]
  refine List.filter_congr fun item _ => ?_
  by_cases hlater : later ≤ item.1
  · simp [hlater, hle.trans hlater]
  · simp [hlater]

/-- In an increasing list a time occurs once. -/
theorem filter_fst_eq_singleton {list : List (Int × A)}
    (hlist : list.Pairwise fun first second => first.1 < second.1) {item : Int × A}
    (hitem : item ∈ list) :
    list.filter (fun other => decide (other.1 = item.1)) = [item] := by
  induction list with
  | nil => cases hitem
  | cons head rest ih =>
      obtain ⟨hhead, hrest⟩ := List.pairwise_cons.mp hlist
      rcases List.mem_cons.mp hitem with heq | hmem
      · rw [heq, List.filter_cons_of_pos (by simp), List.filter_eq_nil_iff.mpr]
        intro other hother
        have hlt := hhead other hother
        simp only [decide_eq_true_eq]
        omega
      · have hlt := hhead item hmem
        have hne : ¬ head.1 = item.1 := by omega
        rw [List.filter_cons_of_neg (by simp [hne])]
        exact ih hrest hmem

/-! ## Passes -/

/-- What one pass adds to the target: every complete bucket between `lo` and `hi`
that has samples, with its aggregate. -/
structure Pass (aggregate : List Q → Option A) (width lo hi : Int) (source : List (Int × Q))
    (added : List (Int × A)) : Prop where
  increasing : added.Pairwise fun first second => first.1 < second.1
  mem : ∀ start value, (start, value) ∈ added ↔ lo ≤ start ∧ start < hi ∧ width ∣ start ∧
    samplesOf width start source ≠ [] ∧ aggregate (samplesOf width start source) = some value

/-- Where a pass begins: behind the bucket of the newest point of the target. -/
def passStart (width : Int) (target : List (Int × A)) : Int :=
  match target.getLast? with
  | none => 0
  | some last => max 0 (bucket width last.1 + width)

theorem dvd_passStart (width : Int) (target : List (Int × A)) :
    width ∣ passStart width target := by
  unfold passStart
  cases target.getLast? with
  | none => exact dvd_zero width
  | some last =>
      dsimp only
      rcases max_choice 0 (bucket width last.1 + width) with hmax | hmax
      · rw [hmax]
        exact dvd_zero width
      · rw [hmax]
        exact dvd_add (dvd_bucket width _) (dvd_refl width)

/-- In an increasing list the last element has the greatest time. -/
theorem le_of_getLast? {target : List (Int × A)}
    (htarget : target.Pairwise fun first second => first.1 < second.1) {last : Int × A}
    (hlast : target.getLast? = some last) {point : Int × A} (hpoint : point ∈ target) :
    point.1 ≤ last.1 := by
  obtain ⟨front, rfl⟩ := List.getLast?_eq_some_iff.mp hlast
  rcases List.mem_append.mp hpoint with hfront | hend
  · exact ((List.pairwise_append.mp htarget).2.2 point hfront last (by simp)).le
  · rw [List.mem_singleton.mp hend]

theorem lt_passStart {width : Int} (hwidth : 0 < width) {target : List (Int × A)}
    (htarget : target.Pairwise fun first second => first.1 < second.1) {point : Int × A}
    (hpoint : point ∈ target) : point.1 < passStart width target := by
  cases hlast : target.getLast? with
  | none =>
      rw [List.getLast?_eq_none_iff] at hlast
      simp [hlast] at hpoint
  | some last =>
      have hle := le_of_getLast? htarget hlast hpoint
      have hlt := lt_bucket_add hwidth last.1
      rw [passStart, hlast]
      exact lt_max_of_lt_right (by omega)

/-- A pass begins at the latest where all points of the target lie before. -/
theorem passStart_le {width : Int} (hwidth : 0 < width) {target : List (Int × A)} {bound : Int}
    (hbound : width ∣ bound) (hzero : 0 ≤ bound) (hbelow : ∀ point ∈ target, point.1 < bound) :
    passStart width target ≤ bound := by
  unfold passStart
  cases hlast : target.getLast? with
  | none => exact hzero
  | some last =>
      have hlt := hbelow last (List.mem_of_getLast? hlast)
      exact max_le hzero (add_le_of_lt (dvd_bucket width last.1) hbound
        ((bucket_lt_iff hwidth hbound last.1).mpr hlt))

/-- The target stays in order. -/
theorem Pass.increasing_append {aggregate : List Q → Option A} {width hi : Int}
    (hwidth : 0 < width) {source : List (Int × Q)} {target added : List (Int × A)}
    (hpass : Pass aggregate width (passStart width target) hi source added)
    (htarget : target.Pairwise fun first second => first.1 < second.1) :
    (target ++ added).Pairwise fun first second => first.1 < second.1 := by
  refine List.pairwise_append.mpr ⟨htarget, hpass.increasing, fun point hpoint new hnew => ?_⟩
  exact (lt_passStart hwidth htarget hpoint).trans_le ((hpass.mem new.1 new.2).mp hnew).1

/-- A second pass up to the same end adds nothing. -/
theorem Pass.nil_of_again {aggregate : List Q → Option A} {width hi : Int} (hwidth : 0 < width)
    {source : List (Int × Q)} {target added again : List (Int × A)}
    (hpass : Pass aggregate width (passStart width target) hi source added)
    (htarget : target.Pairwise fun first second => first.1 < second.1)
    (hagain : Pass aggregate width (passStart width (target ++ added)) hi source again) :
    again = [] := by
  refine List.eq_nil_iff_forall_not_mem.mpr fun point hpoint => ?_
  obtain ⟨hlow, hhigh, hdvd, hne, hvalue⟩ := (hagain.mem point.1 point.2).mp hpoint
  have hordered := hpass.increasing_append hwidth htarget
  have hstart : passStart width target ≤ point.1 := by
    refine le_trans ?_ hlow
    unfold passStart
    cases htail : target.getLast? with
    | none =>
        cases (target ++ added).getLast? with
        | none => exact le_refl _
        | some last => exact le_max_left _ _
    | some last =>
        obtain ⟨front, rfl⟩ := List.getLast?_eq_some_iff.mp htail
        cases hboth : (front ++ [last] ++ added).getLast? with
        | none => simp at hboth
        | some newest =>
            have hmem : last ∈ front ++ [last] ++ added := by simp
            have hle := bucket_mono hwidth (le_of_getLast? hordered hboth hmem)
            exact max_le_max_left 0 (by omega)
  have hmem : (point.1, point.2) ∈ added := (hpass.mem _ _).mpr ⟨hstart, hhigh, hdvd, hne, hvalue⟩
  have hlt := lt_passStart hwidth hordered (List.mem_append_right target hmem)
  exact absurd hlow (not_le.mpr hlt)

/-! ## Tiers -/

/-- What holds between all samples, those of them that the source still has, and
the target, when all buckets that end by `rolled` are rolled up.  Below `floor`
nothing is promised: elements of that age may have been dropped on either side. -/
structure Tier (aggregate : List Q → Option A) (width : Int) (all source : List (Int × Q))
    (target : List (Int × A)) (rolled floor : Int) : Prop where
  nonneg : ∀ sample ∈ all, 0 ≤ sample.1
  subset : source ⊆ all
  aligned : width ∣ rolled
  start : 0 ≤ rolled
  tail : source.filter (fun sample => decide (max rolled floor ≤ sample.1)) =
    all.filter fun sample => decide (max rolled floor ≤ sample.1)
  complete : ∀ start, width ∣ start → floor ≤ start → start < rolled → ∀ value,
    samplesOf width start all ≠ [] → aggregate (samplesOf width start all) = some value →
      (start, value) ∈ target
  sound : ∀ point ∈ target, floor ≤ point.1 → width ∣ point.1 ∧
    samplesOf width point.1 all ≠ [] ∧ aggregate (samplesOf width point.1 all) = some point.2
  below : ∀ point ∈ target, point.1 < rolled
  increasing : target.Pairwise fun first second => first.1 < second.1
  settled : ∀ sample ∈ source, sample.1 < rolled →
    ∃ point ∈ target, bucket width sample.1 ≤ point.1

namespace Tier

variable {aggregate : List Q → Option A} {width : Int} {all source : List (Int × Q)}
  {target : List (Int × A)} {rolled floor : Int}

theorem empty (aggregate : List Q → Option A) (width : Int) :
    Tier aggregate width [] [] [] 0 0 where
  nonneg := by simp
  subset := List.Subset.refl _
  aligned := dvd_zero width
  start := le_refl 0
  tail := rfl
  complete := fun _ _ _ _ _ hne => absurd rfl hne
  sound := by simp
  below := by simp
  increasing := List.Pairwise.nil
  settled := by simp

/-- A bucket above both bounds has all its samples in the source. -/
theorem samplesOf_eq (htier : Tier aggregate width all source target rolled floor)
    (hwidth : 0 < width) {start : Int} (hrolled : rolled ≤ start) (hfloor : floor ≤ start) :
    samplesOf width start source = samplesOf width start all := by
  have hbound := max_le hrolled hfloor
  rw [← samplesOf_filter hwidth hbound source, htier.tail, samplesOf_filter hwidth hbound]

/-- New samples lie in buckets that are not rolled up. -/
theorem append (htier : Tier aggregate width all source target rolled floor)
    (hwidth : 0 < width) {samples : List (Int × Q)}
    (hsamples : ∀ sample ∈ samples, rolled ≤ sample.1) :
    Tier aggregate width (all ++ samples) (source ++ samples) target rolled floor where
  nonneg := by
    intro sample hsample
    rcases List.mem_append.mp hsample with hold | hnew
    · exact htier.nonneg sample hold
    · exact htier.start.trans (hsamples sample hnew)
  subset := List.append_subset.mpr
    ⟨fun _ hold => List.mem_append_left _ (htier.subset hold), List.subset_append_right _ _⟩
  aligned := htier.aligned
  start := htier.start
  tail := by rw [List.filter_append, List.filter_append, htier.tail]
  complete := by
    intro start hdvd hfloor hlt value hne hvalue
    rw [samplesOf_append, samplesOf_of_le hwidth htier.aligned hlt hsamples, List.append_nil]
      at hne hvalue
    exact htier.complete start hdvd hfloor hlt value hne hvalue
  sound := by
    intro point hpoint hfloor
    rw [samplesOf_append, samplesOf_of_le hwidth htier.aligned (htier.below point hpoint) hsamples,
      List.append_nil]
    exact htier.sound point hpoint hfloor
  below := htier.below
  increasing := htier.increasing
  settled := by
    intro sample hsample hlt
    rcases List.mem_append.mp hsample with hold | hnew
    · exact htier.settled sample hold hlt
    · exact absurd hlt (not_lt.mpr (hsamples sample hnew))

/-- Old samples are dropped from the source. -/
theorem retain (htier : Tier aggregate width all source target rolled floor)
    (hnodup : source.Nodup) {cutoff : Int} {left : List (Int × Q)}
    (hretains : Retains Prod.fst cutoff source left) :
    Tier aggregate width all left target rolled (max floor cutoff) where
  nonneg := htier.nonneg
  subset := fun _ hleft => htier.subset (hretains.sublist.subset hleft)
  aligned := htier.aligned
  start := htier.start
  tail := by
    have hle : max rolled floor ≤ max rolled (max floor cutoff) :=
      max_le_max_left rolled (le_max_left floor cutoff)
    rw [hretains.filter_eq hnodup ((le_max_right floor cutoff).trans (le_max_right _ _)),
      ← filter_filter_le hle source, ← filter_filter_le hle all, htier.tail]
  complete := fun start hdvd hfloor => htier.complete start hdvd ((le_max_left _ _).trans hfloor)
  sound := fun point hpoint hfloor => htier.sound point hpoint ((le_max_left _ _).trans hfloor)
  below := htier.below
  increasing := htier.increasing
  settled := fun sample hsample => htier.settled sample (hretains.sublist.subset hsample)

/-- Expired elements are dropped on both sides; those of the source are rolled up
and younger than those of the target. -/
theorem prune (htier : Tier aggregate width all source target rolled floor)
    (hwidth : 0 < width) {cutoff expiry : Int} (hcutoff : cutoff ≤ rolled)
    (hexpiry : expiry + width ≤ cutoff) :
    Tier aggregate width all (source.filter fun sample => decide (cutoff ≤ sample.1))
      (target.filter fun point => decide (expiry ≤ point.1)) rolled (max floor expiry) where
  nonneg := htier.nonneg
  subset := fun _ hleft => htier.subset (List.mem_filter.mp hleft).1
  aligned := htier.aligned
  start := htier.start
  tail := by
    have hle : max rolled floor ≤ max rolled (max floor expiry) :=
      max_le_max_left rolled (le_max_left floor expiry)
    rw [filter_filter_le (hcutoff.trans (le_max_left _ _)), ← filter_filter_le hle source,
      ← filter_filter_le hle all, htier.tail]
  complete := by
    intro start hdvd hfloor hlt value hne hvalue
    refine List.mem_filter.mpr
      ⟨htier.complete start hdvd ((le_max_left _ _).trans hfloor) hlt value hne hvalue, ?_⟩
    exact decide_eq_true ((le_max_right _ _).trans hfloor)
  sound := fun point hpoint hfloor =>
    htier.sound point (List.mem_filter.mp hpoint).1 ((le_max_left _ _).trans hfloor)
  below := fun point hpoint => htier.below point (List.mem_filter.mp hpoint).1
  increasing := htier.increasing.filter _
  settled := by
    intro sample hsample hlt
    obtain ⟨hmem, hage⟩ := List.mem_filter.mp hsample
    obtain ⟨point, hpoint, hle⟩ := htier.settled sample hmem hlt
    refine ⟨point, List.mem_filter.mpr ⟨hpoint, decide_eq_true ?_⟩, hle⟩
    have hage := of_decide_eq_true hage
    have hbucket := lt_bucket_add hwidth sample.1
    omega

/-- What a pass adds lies behind everything that is rolled up. -/
theorem rolled_le_of_pass (htier : Tier aggregate width all source target rolled floor)
    (hwidth : 0 < width) {until_ : Int} {added : List (Int × A)}
    (hpass : Pass aggregate width (passStart width target) until_ source added)
    {point : Int × A} (hpoint : point ∈ added) : rolled ≤ point.1 := by
  by_contra hlt
  obtain ⟨hlow, -, hdvd, hne, -⟩ := (hpass.mem point.1 point.2).mp hpoint
  obtain ⟨sample, hsample, hbucket⟩ := samplesOf_ne_nil.mp hne
  -- the bucket has a sample left, so the target has come past it
  have hrolled := (bucket_lt_iff hwidth htier.aligned sample.1).mp (by rw [hbucket]; omega)
  obtain ⟨old, hold, hle⟩ := htier.settled sample hsample hrolled
  obtain ⟨last, hlast⟩ : ∃ last, target.getLast? = some last := by
    cases hlast : target.getLast? with
    | none =>
        rw [List.getLast?_eq_none_iff] at hlast
        simp [hlast] at hold
    | some last => exact ⟨last, rfl⟩
  have hnewest := (le_bucket_iff hwidth hdvd last.1).mpr
    ((hbucket ▸ hle).trans (le_of_getLast? htier.increasing hlast hold))
  rw [passStart, hlast] at hlow
  have hbehind := (le_max_right _ _).trans hlow
  omega

/-- A pass up to a later end. -/
theorem pass (htier : Tier aggregate width all source target rolled floor)
    (hwidth : 0 < width) {until_ : Int} (hdvd : width ∣ until_) (hle : rolled ≤ until_)
    (hsome : ∀ values, values ≠ [] → (aggregate values).isSome) {added : List (Int × A)}
    (hpass : Pass aggregate width (passStart width target) until_ source added) :
    Tier aggregate width all source (target ++ added) until_ floor where
  nonneg := htier.nonneg
  subset := htier.subset
  aligned := hdvd
  start := htier.start.trans hle
  tail := by
    have hbound : max rolled floor ≤ max until_ floor := max_le_max_right floor hle
    rw [← filter_filter_le hbound source, ← filter_filter_le hbound all, htier.tail]
  complete := by
    intro start hstart hfloor hlt value hne hvalue
    rcases lt_or_ge start rolled with hold | hnew
    · exact List.mem_append_left _ (htier.complete start hstart hfloor hold value hne hvalue)
    · rw [← htier.samplesOf_eq hwidth hnew hfloor] at hne hvalue
      have hlow := (passStart_le hwidth htier.aligned htier.start htier.below).trans hnew
      exact List.mem_append_right _ ((hpass.mem start value).mpr ⟨hlow, hlt, hstart, hne, hvalue⟩)
  sound := by
    intro point hpoint hfloor
    rcases List.mem_append.mp hpoint with hold | hnew
    · exact htier.sound point hold hfloor
    · have hrolled := htier.rolled_le_of_pass hwidth hpass hnew
      obtain ⟨-, -, hstart, hne, hvalue⟩ := (hpass.mem point.1 point.2).mp hnew
      rw [htier.samplesOf_eq hwidth hrolled hfloor] at hne hvalue
      exact ⟨hstart, hne, hvalue⟩
  below := by
    intro point hpoint
    rcases List.mem_append.mp hpoint with hold | hnew
    · exact (htier.below point hold).trans_le hle
    · exact ((hpass.mem point.1 point.2).mp hnew).2.1
  increasing := hpass.increasing_append hwidth htier.increasing
  settled := by
    intro sample hsample hlt
    rcases lt_or_ge sample.1 rolled with hold | hnew
    · obtain ⟨point, hpoint, hbucket⟩ := htier.settled sample hsample hold
      exact ⟨point, List.mem_append_left _ hpoint, hbucket⟩
    · have hrolled := (le_bucket_iff hwidth htier.aligned sample.1).mpr hnew
      have hne : samplesOf width (bucket width sample.1) source ≠ [] :=
        samplesOf_ne_nil.mpr ⟨sample, hsample, rfl⟩
      obtain ⟨value, hvalue⟩ := Option.isSome_iff_exists.mp (hsome _ hne)
      have hlow := (passStart_le hwidth htier.aligned htier.start htier.below).trans hrolled
      have hmem := (hpass.mem (bucket width sample.1) value).mpr
        ⟨hlow, (bucket_lt_iff hwidth hdvd sample.1).mpr hlt, dvd_bucket width _, hne, hvalue⟩
      exact ⟨_, List.mem_append_right _ hmem, le_refl _⟩

/-- A sample that was dropped from the source while its bucket is above the floor
is represented by exactly one point. -/
theorem represented (htier : Tier aggregate width all source target rolled floor)
    (hwidth : 0 < width) (hsome : ∀ values, values ≠ [] → (aggregate values).isSome)
    {sample : Int × Q} (hsample : sample ∈ all) (hrolled : sample.1 < rolled)
    (hfloor : floor ≤ bucket width sample.1) :
    ∃ value, aggregate (samplesOf width (bucket width sample.1) all) = some value ∧
      target.filter (fun point => decide (point.1 = bucket width sample.1)) =
        [(bucket width sample.1, value)] := by
  have hne : samplesOf width (bucket width sample.1) all ≠ [] :=
    samplesOf_ne_nil.mpr ⟨sample, hsample, rfl⟩
  obtain ⟨value, hvalue⟩ := Option.isSome_iff_exists.mp (hsome _ hne)
  have hmem := htier.complete _ (dvd_bucket width _) hfloor
    ((bucket_lt_iff hwidth htier.aligned sample.1).mpr hrolled) value hne hvalue
  exact ⟨value, hvalue, filter_fst_eq_singleton htier.increasing hmem⟩

end Tier

end Justup.Lib.Rollup
