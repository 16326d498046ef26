import Justup.Charts.Gaps
import Mathlib

/-!
# The uptime figure

`_availability_seconds` integrates the entries of the step line over a window.
Times are in microseconds and the arithmetic is exact.  A time that counts as
known is one at which the line, read as a step function, has a value; on the line
of a series it lies between two consecutive observations.
-/

namespace Justup.Charts

open Justup.Store

/-! ## The model -/

/-- The end of what an entry says: the next entry, or the time after which it is stale. -/
def endOf (until_ stale : ℤ) (point : Entry) (rest : List Entry) : ℤ :=
  match rest with
  | [] => min until_ (point.ts + stale)
  | next :: _ => next.ts

/-- The part of the window that an entry takes. -/
def duration (since until_ stale : ℤ) (point : Entry) (rest : List Entry) : ℤ :=
  max 0 (min until_ (endOf until_ stale point rest) - max since point.ts)

/-- `_availability_seconds`: the time that is up and the time that is known. -/
def availabilitySeconds (since until_ stale : ℤ) : List Entry → ℤ × ℤ
  | [] => (0, 0)
  | point :: rest =>
      let (up, known) := availabilitySeconds since until_ stale rest
      match point.up with
      | some value =>
          if value = 0 ∨ value = 1 then
            (duration since until_ stale point rest * value + up,
              duration since until_ stale point rest + known)
          else (up, known)
      | none => (up, known)

/-! ## The line as a step function -/

/-- The value of the line at a time: that of the last entry at or before it, which at the end of
the line holds for `stale` at most. -/
def lineAt (stale : ℤ) (entries : List Entry) (ts : ℤ) : Option ℤ :=
  if ∀ last ∈ entries.getLast?, last.ts ≤ ts → ts < last.ts + stale then
    (stateAt entries ts).join
  else none

/-- How long the value of the line is one of the given ones within the window. -/
noncomputable def coverage (since until_ stale : ℤ) (values : Finset ℤ) (entries : List Entry) : ℕ :=
  ((Finset.Ico since until_).filter fun ts => ∃ value ∈ values,
    lineAt stale entries ts = some value).card

theorem stateAt_before {entries : List Entry} {ts : ℤ} (hbefore : ∀ entry ∈ entries, ts < entry.ts) :
    stateAt entries ts = none := by
  have hnone : (entries.filter fun entry => decide (entry.ts ≤ ts)) = [] :=
    List.filter_eq_nil_iff.mpr fun entry hmem => by simpa using hbefore entry hmem
  rw [stateAt, hnone]
  rfl

theorem lineAt_before {stale : ℤ} {entries : List Entry} {ts : ℤ}
    (hbefore : ∀ entry ∈ entries, ts < entry.ts) : lineAt stale entries ts = none := by
  rw [lineAt, stateAt_before hbefore]
  simp

theorem stateAt_cons_of_later {point : Entry} {rest : List Entry} {ts : ℤ}
    (hlater : ∃ entry ∈ rest, entry.ts ≤ ts) : stateAt (point :: rest) ts = stateAt rest ts := by
  obtain ⟨entry, hentry, hle⟩ := hlater
  have hne : (rest.filter fun entry => decide (entry.ts ≤ ts)) ≠ [] :=
    List.ne_nil_of_mem (List.mem_filter.mpr ⟨hentry, decide_eq_true hle⟩)
  rw [stateAt, stateAt, ← List.singleton_append, List.filter_append,
    List.getLast?_append_of_ne_nil _ hne]

/-- The last entry is in force until it is stale. -/
theorem lineAt_singleton (stale : ℤ) (point : Entry) (ts : ℤ) :
    lineAt stale [point] ts =
      if point.ts ≤ ts ∧ ts < point.ts + stale then point.up else none := by
  unfold lineAt stateAt
  by_cases hle : point.ts ≤ ts
  · by_cases hfresh : ts < point.ts + stale
    · simp [hle, hfresh]
    · simp [hle, hfresh]
  · simp [hle]

/-- An entry is in force until the next one. -/
theorem lineAt_cons (stale : ℤ) {point next : Entry} {rest : List Entry}
    (hordered : (point :: next :: rest).Pairwise fun earlier later => earlier.ts ≤ later.ts)
    (ts : ℤ) : lineAt stale (point :: next :: rest) ts =
      if ts < next.ts then if point.ts ≤ ts then point.up else none
      else lineAt stale (next :: rest) ts := by
  obtain ⟨-, hrest⟩ := List.pairwise_cons.mp hordered
  have hnext : ∀ entry ∈ next :: rest, next.ts ≤ entry.ts := by
    intro entry hentry
    rcases List.mem_cons.mp hentry with rfl | hentry
    · exact le_rfl
    · exact (List.pairwise_cons.mp hrest).1 entry hentry
  have hlast : (point :: next :: rest).getLast? = (next :: rest).getLast? :=
    List.getLast?_cons_cons
  -- only behind the next entry the line can be stale
  have hstale : (¬∀ last ∈ (next :: rest).getLast?, last.ts ≤ ts → ts < last.ts + stale) →
      next.ts ≤ ts := by
    intro hstale
    push Not at hstale
    obtain ⟨last, hmem, hle, -⟩ := hstale
    exact (hnext last (List.mem_of_getLast? hmem)).trans hle
  unfold lineAt
  rw [hlast]
  split_ifs with hfresh hlt hle
  · have hlater : ∀ entry ∈ next :: rest, ts < entry.ts := fun entry hentry =>
      hlt.trans_le (hnext entry hentry)
    rw [← List.singleton_append, stateAt_append_later hlater]
    simp [stateAt, hle]
  · have hlater : ∀ entry ∈ point :: next :: rest, ts < entry.ts := by
      intro entry hentry
      rcases List.mem_cons.mp hentry with rfl | hentry
      · exact not_le.mp hle
      · exact hlt.trans_le (hnext entry hentry)
    rw [stateAt_before hlater]
    rfl
  · rw [stateAt_cons_of_later ⟨next, List.mem_cons_self, not_lt.mp hlt⟩]
  · exact absurd (hstale hfresh) (not_le.mpr ‹_›)
  · exact absurd (hstale hfresh) (not_le.mpr ‹_›)
  · rfl

/-! ## The integral -/

/-- The times of the window at which one entry has the value of the line. -/
theorem card_inForce (since until_ stale : ℤ) (point : Entry) (rest : List Entry) :
    ((Finset.Ico since until_).filter fun ts =>
      point.ts ≤ ts ∧ ts < endOf until_ stale point rest).card =
        duration since until_ stale point rest := by
  have hset : ((Finset.Ico since until_).filter fun ts =>
      point.ts ≤ ts ∧ ts < endOf until_ stale point rest) =
        Finset.Ico (max since point.ts) (min until_ (endOf until_ stale point rest)) := by
    ext ts
    simp only [Finset.mem_filter, Finset.mem_Ico, max_le_iff, lt_min_iff]
    tauto
  rw [hset, Int.card_Ico, duration, Int.toNat_eq_max, max_comm]

theorem coverage_nil (since until_ stale : ℤ) (values : Finset ℤ) :
    coverage since until_ stale values [] = 0 := by
  rw [coverage, Finset.card_eq_zero, Finset.filter_eq_empty_iff]
  rintro ts - ⟨value, -, hvalue⟩
  rw [lineAt_before fun entry hentry => absurd hentry List.not_mem_nil] at hvalue
  cases hvalue

/-- One entry and the line behind it. -/
theorem coverage_cons (since until_ stale : ℤ) (values : Finset ℤ) {point : Entry}
    {rest : List Entry}
    (hordered : (point :: rest).Pairwise fun earlier later => earlier.ts ≤ later.ts) :
    (coverage since until_ stale values (point :: rest) : ℤ) =
      (if ∃ value ∈ values, point.up = some value then duration since until_ stale point rest
        else 0) + coverage since until_ stale values rest := by
  have hnext : ∀ next tail, rest = next :: tail → ∀ entry ∈ rest, next.ts ≤ entry.ts := by
    rintro next tail rfl entry hentry
    rcases List.mem_cons.mp hentry with rfl | hentry
    · exact le_rfl
    · exact (List.pairwise_cons.mp (List.pairwise_cons.mp hordered).2).1 entry hentry
  have hsplit : ∀ ts ∈ Finset.Ico since until_, lineAt stale (point :: rest) ts =
      if point.ts ≤ ts ∧ ts < endOf until_ stale point rest then point.up
      else lineAt stale rest ts := by
    intro ts hts
    cases rest with
    | nil =>
        have hwindow := (Finset.mem_Ico.mp hts).2
        rw [lineAt_singleton, lineAt_before fun entry hentry => absurd hentry List.not_mem_nil]
        simp [endOf, hwindow]
    | cons next rest =>
        rw [lineAt_cons stale hordered]
        show _ = if point.ts ≤ ts ∧ ts < next.ts then _ else _
        by_cases hlt : ts < next.ts
        · by_cases hle : point.ts ≤ ts
          · rw [if_pos hlt, if_pos hle, if_pos ⟨hle, hlt⟩]
          · rw [if_pos hlt, if_neg hle, if_neg fun h => hle h.1,
              lineAt_before fun entry hentry => hlt.trans_le (hnext next rest rfl entry hentry)]
        · rw [if_neg hlt, if_neg fun h => hlt h.2]
  have hbehind : ∀ ts, ts < endOf until_ stale point rest → lineAt stale rest ts = none := by
    intro ts hts
    refine lineAt_before fun entry hentry => ?_
    cases rest with
    | nil => exact absurd hentry List.not_mem_nil
    | cons next rest => exact lt_of_lt_of_le hts (hnext next rest rfl entry hentry)
  rw [coverage, coverage, ← card_inForce]
  split_ifs with hvalue
  · rw [← Nat.cast_add, ← Finset.card_union_of_disjoint]
    · congr 2
      ext ts
      rw [Finset.mem_union, Finset.mem_filter, Finset.mem_filter, Finset.mem_filter, ← and_or_left]
      refine and_congr_right fun hts => ?_
      rw [hsplit ts hts]
      split_ifs with hforce
      · exact iff_of_true hvalue (.inl hforce)
      · exact (or_iff_right hforce).symm
    · refine Finset.disjoint_filter.mpr ?_
      rintro ts - ⟨-, hlt⟩ ⟨value, -, hline⟩
      rw [hbehind ts hlt] at hline
      cases hline
  · rw [zero_add]
    congr 2
    refine Finset.filter_congr fun ts hts => ?_
    rw [hsplit ts hts]
    split_ifs with hforce
    · rw [hbehind ts hforce.2]
      exact iff_of_false hvalue fun ⟨_, _, hline⟩ => nomatch hline
    · exact Iff.rfl

/-- The two totals are the times at which the line is up and at which it has a value. -/
theorem availabilitySeconds_eq (since until_ stale : ℤ) {entries : List Entry}
    (hordered : entries.Pairwise fun earlier later => earlier.ts ≤ later.ts) :
    availabilitySeconds since until_ stale entries =
      (↑(coverage since until_ stale {1} entries),
        ↑(coverage since until_ stale {0, 1} entries)) := by
  induction entries with
  | nil => simp [availabilitySeconds, coverage_nil]
  | cons point rest ih =>
      have hrest := ih (List.pairwise_cons.mp hordered).2
      rw [coverage_cons _ _ _ _ hordered, coverage_cons _ _ _ _ hordered]
      simp only [availabilitySeconds, hrest]
      cases hup : point.up with
      | none => simp
      | some value =>
          by_cases hzero : value = 0
          · simp [hzero]
          · by_cases hone : value = 1
            · simp [hone]
            · simp [hzero, hone]

theorem coverage_le (since until_ stale : ℤ) (values : Finset ℤ) (entries : List Entry) :
    (coverage since until_ stale values entries : ℤ) ≤ max 0 (until_ - since) := by
  have hcard := Finset.card_filter_le (Finset.Ico since until_) fun ts =>
    ∃ value ∈ values, lineAt stale entries ts = some value
  rw [Int.card_Ico] at hcard
  rw [coverage]
  omega

theorem coverage_mono (since until_ stale : ℤ) {values values' : Finset ℤ} (h : values ⊆ values')
    (entries : List Entry) :
    coverage since until_ stale values entries ≤ coverage since until_ stale values' entries := by
  refine Finset.card_le_card (Finset.monotone_filter_right _ fun ts _ => ?_)
  rintro ⟨value, hvalue, hline⟩
  exact ⟨value, h hvalue, hline⟩

/-! ## What the entries come from -/

/-- Every entry with a value is an observation, every other one stands right behind one. -/
structure FromObservations (obs : List (Point ℤ)) (entries : List Entry) : Prop where
  ordered : entries.Pairwise fun earlier later => earlier.ts ≤ later.ts
  observed : ∀ entry ∈ entries, ∀ up, entry.up = some up → ⟨entry.ts, up⟩ ∈ obs
  gaps : ∀ entry ∈ entries, entry.up = none → ∃ point ∈ obs, entry.ts = point.ts + 1

theorem fromObservations_nil (obs : List (Point ℤ)) : FromObservations obs [] where
  ordered := .nil
  observed _ hentry := absurd hentry List.not_mem_nil
  gaps _ hentry := absurd hentry List.not_mem_nil

/-- One more entry at the end. -/
theorem FromObservations.snoc {obs : List (Point ℤ)} {entries : List Entry} {entry : Entry}
    (h : FromObservations obs entries) (hlast : ∀ earlier ∈ entries, earlier.ts ≤ entry.ts)
    (hvalue : ∀ up, entry.up = some up → ⟨entry.ts, up⟩ ∈ obs)
    (hgap : entry.up = none → ∃ point ∈ obs, entry.ts = point.ts + 1) :
    FromObservations obs (entries ++ [entry]) where
  ordered := List.pairwise_append.mpr ⟨h.ordered, List.pairwise_singleton _ _,
    fun earlier hearlier later hlater => List.mem_singleton.mp hlater ▸ hlast earlier hearlier⟩
  observed other hother := by
    rcases List.mem_append.mp hother with hother | hother
    · exact h.observed other hother
    · exact List.mem_singleton.mp hother ▸ hvalue
  gaps other hother := by
    rcases List.mem_append.mp hother with hother | hother
    · exact h.gaps other hother
    · exact List.mem_singleton.mp hother ▸ hgap

theorem FromObservations.mono {obs obs' : List (Point ℤ)} {entries : List Entry}
    (h : FromObservations obs entries) (hsub : obs ⊆ obs') : FromObservations obs' entries where
  ordered := h.ordered
  observed entry hentry up hup := hsub (h.observed entry hentry up hup)
  gaps entry hentry hup := by
    obtain ⟨point, hpoint, hts⟩ := h.gaps entry hentry hup
    exact ⟨point, hsub hpoint, hts⟩

/-- The variables after the observations up to `last`; only a gap stands behind the last one. -/
structure Follows (seen : List (Point ℤ)) (last : Point ℤ) (st : Tracking) : Prop where
  previousTs : st.previousTs = some last.ts
  previousUp : ∀ up, st.previousUp = some up →
    up = last.value ∧ ∀ entry ∈ st.result, entry.ts ≤ last.ts
  upTo : ∀ entry ∈ st.result, entry.ts ≤ last.ts + 1
  entries : FromObservations (seen ++ [last]) st.result

theorem Follows.last_mem (seen : List (Point ℤ)) (last : Point ℤ) : last ∈ seen ++ [last] := by simp

/-- The last observation may get an entry of its own. -/
theorem Follows.closeAt {seen : List (Point ℤ)} {last : Point ℤ} {st : Tracking}
    (h : Follows seen last st) :
    FromObservations (seen ++ [last]) (closeAt last.ts st.previousUp st.result) ∧
      ∀ entry ∈ Charts.closeAt last.ts st.previousUp st.result, st.previousUp.isSome →
        entry.ts ≤ last.ts := by
  unfold Charts.closeAt
  split_ifs with hclose
  · obtain ⟨up, hup⟩ := Option.isSome_iff_exists.mp hclose.1
    obtain ⟨rfl, hbefore⟩ := h.previousUp up hup
    refine ⟨h.entries.snoc hbefore ?_ (by simp [hup]), fun entry hentry _ => ?_⟩
    · rintro value hvalue
      rw [hup] at hvalue
      obtain rfl := Option.some.inj hvalue
      exact Follows.last_mem seen last
    · rcases List.mem_append.mp hentry with hentry | hentry
      · exact hbefore entry hentry
      · exact (List.mem_singleton.mp hentry ▸ le_rfl)
  · refine ⟨h.entries, fun entry hentry hsome => ?_⟩
    obtain ⟨up, hup⟩ := Option.isSome_iff_exists.mp hsome
    exact (h.previousUp up hup).2 entry hentry

theorem Follows.measureGap {check : ℤ} {bucket : Option ℤ} {ts : ℤ} {seen : List (Point ℤ)}
    {last : Point ℤ} {st : Tracking} (h : Follows seen last st) :
    Follows seen last (measureGap check bucket ts last.ts st) := by
  unfold Charts.measureGap
  dsimp only
  split_ifs with hlate hsome hnear
  · obtain ⟨hentries, hupTo⟩ := h.closeAt
    have hle : ∀ entry ∈ Charts.closeAt last.ts st.previousUp st.result, entry.ts ≤ last.ts :=
      fun entry hentry => hupTo entry hentry hsome
    refine ⟨h.previousTs, (fun up hup => nomatch hup), fun entry hentry => ?_, ?_⟩
    · rcases List.mem_append.mp hentry with hentry | hentry
      · have hbefore := hle entry hentry
        omega
      · exact (List.mem_singleton.mp hentry ▸ le_rfl)
    · refine hentries.snoc (fun earlier hearlier => ?_) (fun up hup => nomatch hup)
        fun _ => ⟨last, Follows.last_mem seen last, rfl⟩
      have hbefore := hle earlier hearlier
      dsimp only
      omega
  · have hnone : st.previousUp = none := by simpa using hsome
    refine ⟨h.previousTs, (fun up hup => nomatch hup), ?_, ?_⟩
    · simpa [Charts.closeAt, hnone] using h.upTo
    · simpa [Charts.closeAt, hnone] using h.entries
  · exact ⟨h.previousTs, h.previousUp, h.upTo, h.entries⟩
  · exact h

/-- What one more observation adds, `st` being the variables after the time before it was
judged. -/
theorem follows_observe {bucket : Option ℤ} {before : List (Point ℤ)} {point : Point ℤ}
    {st : Tracking} (hentries : FromObservations before st.result)
    (hle : ∀ entry ∈ st.result, entry.ts ≤ point.ts) :
    Follows before point
      (if bucket.isSome ∧ point.value = 0 then
        { st with
          result := st.result ++
            [{ ts := point.ts, up := some 0, observed := true }, { ts := point.ts + 1, up := none }]
          previousUp := none
          previousTs := some point.ts }
      else
        { st with
          result := if st.previousUp ≠ some point.value then
              st.result ++ [{ ts := point.ts, up := some point.value }]
            else st.result
          previousUp := some point.value
          previousTs := some point.ts }) := by
  have hmem : point ∈ before ++ [point] := Follows.last_mem before point
  have hgrown := hentries.mono (List.subset_append_left before [point])
  split_ifs with hdown hsame
  · have hzero : (⟨point.ts, 0⟩ : Point ℤ) ∈ before ++ [point] := by
      rw [← hdown.2]
      exact hmem
    have hfirst : FromObservations (before ++ [point])
        (st.result ++ [{ ts := point.ts, up := some 0, observed := true }]) :=
      hgrown.snoc hle (fun up hup => Option.some.inj hup ▸ hzero) fun hup => nomatch hup
    have hsecond : FromObservations (before ++ [point])
        (st.result ++ [{ ts := point.ts, up := some 0, observed := true }] ++
          [{ ts := point.ts + 1, up := none }]) := by
      refine hfirst.snoc (fun earlier hearlier => ?_) (fun up hup => nomatch hup)
        fun _ => ⟨point, hmem, rfl⟩
      dsimp only
      rcases List.mem_append.mp hearlier with hearlier | hearlier
      · have hbefore := hle earlier hearlier
        omega
      · obtain rfl := List.mem_singleton.mp hearlier
        show point.ts ≤ point.ts + 1
        omega
    rw [List.append_assoc] at hsecond
    refine ⟨rfl, (fun up hup => nomatch hup), fun entry hentry => ?_, hsecond⟩
    rcases List.mem_append.mp hentry with hentry | hentry
    · have hbefore := hle entry hentry
      omega
    · rcases List.mem_cons.mp hentry with rfl | hentry
      · dsimp only
        omega
      · exact (List.mem_singleton.mp hentry ▸ le_rfl)
  · have hadded : FromObservations (before ++ [point])
        (st.result ++ [{ ts := point.ts, up := some point.value }]) :=
      hgrown.snoc hle (fun up hup => Option.some.inj hup ▸ hmem) fun hup => nomatch hup
    have hupTo : ∀ entry ∈ st.result ++ [{ ts := point.ts, up := some point.value }],
        entry.ts ≤ point.ts := by
      intro entry hentry
      rcases List.mem_append.mp hentry with hentry | hentry
      · exact hle entry hentry
      · exact (List.mem_singleton.mp hentry ▸ le_rfl)
    refine ⟨rfl, fun up hup => ⟨(Option.some.inj hup).symm, hupTo⟩, fun entry hentry => ?_, hadded⟩
    have hbefore := hupTo entry hentry
    omega
  · refine ⟨rfl, fun up hup => ⟨(Option.some.inj hup).symm, hle⟩, fun entry hentry => ?_, hgrown⟩
    have hbefore := hle entry hentry
    omega

theorem follows_first (check : ℤ) (bucket : Option ℤ) (point : Point ℤ) :
    Follows [] point (observe check bucket {} point) :=
  follows_observe (fromObservations_nil []) fun _ hentry => absurd hentry List.not_mem_nil

theorem Follows.next {check : ℤ} {bucket : Option ℤ} {seen : List (Point ℤ)} {last point : Point ℤ}
    {st : Tracking} (h : Follows seen last st) (hlater : last.ts < point.ts) :
    Follows (seen ++ [last]) point (observe check bucket st point) := by
  have hmeasured : Follows seen last (Charts.measureGap check bucket point.ts last.ts st) :=
    h.measureGap
  unfold observe
  rw [h.previousTs]
  exact follows_observe hmeasured.entries fun entry hentry =>
    (hmeasured.upTo entry hentry).trans hlater

/-- A run over observations, each with the length of its bucket. -/
theorem Follows.foldl {check : ℤ} (coming : List (Option ℤ × Point ℤ)) {seen : List (Point ℤ)}
    {last : Point ℤ} {st : Tracking} (h : Follows seen last st)
    (hincreasing : (seen ++ last :: coming.map Prod.snd).Pairwise
      fun earlier later => earlier.ts < later.ts) :
    ∃ before newest, seen ++ last :: coming.map Prod.snd = before ++ [newest] ∧
      Follows before newest (coming.foldl (fun st item => observe check item.1 st item.2) st) := by
  induction coming generalizing seen last st with
  | nil => exact ⟨seen, last, rfl, h⟩
  | cons item coming ih =>
      obtain ⟨bucket, point⟩ := item
      have hsplit : seen ++ last :: ((bucket, point) :: coming).map Prod.snd =
          seen ++ [last] ++ point :: coming.map Prod.snd := by simp
      rw [hsplit] at hincreasing ⊢
      refine ih (h.next ?_) hincreasing
      exact (List.pairwise_append.mp hincreasing).2.2 last (Follows.last_mem seen last) point
        List.mem_cons_self

theorem Follows.finish {seen : List (Point ℤ)} {last : Point ℤ} {st : Tracking}
    (h : Follows seen last st) : FromObservations (seen ++ [last]) st.finish := by
  rw [Tracking.finish, h.previousTs]
  exact h.closeAt.1

variable {V : Type*} {format : LineFormat V} {asInt : V → Option ℤ} {series : Resolution → Series}

/-- The observations of all sources. -/
def seriesObservations (format : LineFormat V) (asInt : V → Option ℤ)
    (series : Resolution → Series) (now since until_ : ℤ) : List (Point ℤ) :=
  (sourcesOf now since until_).flatMap (observations format asInt now series)

theorem observations_window {now : ℤ} {source : Source} {point : Point ℤ}
    (hpoint : point ∈ observations format asInt now series source) :
    source.from_ ≤ point.ts ∧ point.ts ≤ source.until_ := by
  unfold observations at hpoint
  split_ifs at hpoint
  · exact absurd hpoint List.not_mem_nil
  · exact absurd hpoint List.not_mem_nil
  · obtain ⟨read, hread, hbit⟩ := List.mem_filterMap.mp hpoint
    obtain ⟨line, -, hparse⟩ := List.mem_filterMap.mp hread
    rw [parsePoint_window, Option.filter_eq_some_iff] at hparse
    obtain ⟨up, -, hup⟩ := Option.bind_eq_some_iff.mp hbit
    split_ifs at hup
    obtain rfl := Option.some.inj hup
    simpa [inWindow] using hparse.2

/-- The windows of the sources follow each other. -/
theorem sources_apart (now since until_ : ℤ) :
    (sourcesOf now since until_).Pairwise fun source next => source.until_ < next.from_ := by
  have hretention : Resolution.raw.retention * day ≤ Resolution.fiveMinute.retention * day := by
    decide
  simp only [sourcesOf, List.pairwise_cons, List.mem_cons, List.not_mem_nil, or_false,
    forall_eq_or_imp, forall_eq, List.Pairwise.nil, and_true, false_implies, implies_true]
  omega

theorem increasing_seriesObservations {now since until_ : ℤ}
    (hincreasing : ∀ source ∈ sourcesOf now since until_,
      (observations format asInt now series source).Pairwise
        fun earlier later => earlier.ts < later.ts) :
    (seriesObservations format asInt series now since until_).Pairwise
      fun earlier later => earlier.ts < later.ts := by
  refine List.pairwise_flatMap.mpr ⟨hincreasing, (sources_apart now since until_).imp ?_⟩
  intro source next hapart earlier hearlier later hlater
  have hfirst := (observations_window hearlier).2
  have hsecond := (observations_window hlater).1
  omega

theorem fromObservations_availabilityTransitions {now since until_ : ℤ} (check : ℤ)
    (hincreasing : ∀ source ∈ sourcesOf now since until_,
      (observations format asInt now series source).Pairwise
        fun earlier later => earlier.ts < later.ts) :
    FromObservations (seriesObservations format asInt series now since until_)
      (availabilityTransitions format asInt series now since until_ check) := by
  -- the two loops as one over the observations with the buckets of their sources
  let tagged := (sourcesOf now since until_).flatMap fun source =>
    (observations format asInt now series source).map fun point => (source.bucket, point)
  have hpoints : tagged.map Prod.snd = seriesObservations format asInt series now since until_ := by
    simp [tagged, seriesObservations, List.map_flatMap]
  have hfold : (sourcesOf now since until_).foldl (fun st source =>
      (observations format asInt now series source).foldl (observe check source.bucket) st) {} =
        tagged.foldl (fun st item => observe check item.1 st item.2) {} := by
    simp only [tagged, List.foldl_flatMap, List.foldl_map]
  have hordered := increasing_seriesObservations hincreasing
  rw [availabilityTransitions, hfold, ← hpoints]
  rw [← hpoints] at hordered
  cases htagged : tagged with
  | nil => exact fromObservations_nil []
  | cons item coming =>
      obtain ⟨bucket, point⟩ := item
      rw [htagged] at hordered
      obtain ⟨before, newest, hsplit, hfollows⟩ := Follows.foldl coming
        (follows_first check bucket point) hordered
      rw [List.nil_append] at hsplit
      rw [List.map_cons, hsplit]
      exact hfollows.finish

/-! ## The result -/

/-- The value in force comes from the last entry at or before the time. -/
theorem exists_of_stateAt {entries : List Entry}
    (hordered : entries.Pairwise fun earlier later => earlier.ts ≤ later.ts) {ts : ℤ}
    {up : Option ℤ} (hstate : stateAt entries ts = some up) :
    ∃ entry ∈ entries, entry.ts ≤ ts ∧ entry.up = up ∧
      ∀ other ∈ entries, other.ts ≤ ts → other.ts ≤ entry.ts := by
  obtain ⟨entry, hlast, rfl⟩ := Option.map_eq_some_iff.mp hstate
  obtain ⟨before, hsplit⟩ := List.getLast?_eq_some_iff.mp hlast
  have hmem : ∀ other, other ∈ entries ∧ other.ts ≤ ts ↔ other ∈ before ++ [entry] := by
    intro other
    rw [← hsplit, List.mem_filter, decide_eq_true_eq]
  obtain ⟨hentry, hle⟩ := (hmem entry).mpr (by simp)
  refine ⟨entry, hentry, hle, rfl, fun other hother hotherLe => ?_⟩
  have hfiltered := hordered.sublist
    (List.filter_sublist (p := fun entry : Entry => decide (entry.ts ≤ ts)))
  rw [hsplit] at hfiltered
  rcases List.mem_append.mp ((hmem other).mp ⟨hother, hotherLe⟩) with hother | hother
  · exact (List.pairwise_append.mp hfiltered).2.2 other hother entry (by simp)
  · rw [List.mem_singleton.mp hother]

/-- The observations around a time. -/
theorem exists_consecutive {obs : List (Point ℤ)}
    (hincreasing : obs.Pairwise fun earlier later => earlier.ts < later.ts) {ts : ℤ}
    (hbefore : ∃ point ∈ obs, point.ts ≤ ts) (hafter : ∃ point ∈ obs, ts < point.ts) :
    ∃ i first next, obs[i]? = some first ∧ obs[i + 1]? = some next ∧ first.ts ≤ ts ∧ ts < next.ts ∧
      ∀ point ∈ obs, point.ts ≤ first.ts ∨ next.ts ≤ point.ts := by
  induction obs with
  | nil =>
      obtain ⟨point, hpoint, -⟩ := hbefore
      exact absurd hpoint List.not_mem_nil
  | cons first rest ih =>
      obtain ⟨hfirst, hrest⟩ := List.pairwise_cons.mp hincreasing
      have hle : first.ts ≤ ts := by
        obtain ⟨point, hpoint, hle⟩ := hbefore
        rcases List.mem_cons.mp hpoint with rfl | hpoint
        · exact hle
        · exact (hfirst point hpoint).le.trans hle
      have hlater : ∃ point ∈ rest, ts < point.ts := by
        obtain ⟨point, hpoint, hlt⟩ := hafter
        rcases List.mem_cons.mp hpoint with rfl | hpoint
        · exact absurd hle (not_le.mpr hlt)
        · exact ⟨point, hpoint, hlt⟩
      cases rest with
      | nil =>
          obtain ⟨point, hpoint, -⟩ := hlater
          exact absurd hpoint List.not_mem_nil
      | cons next rest =>
          by_cases hnext : next.ts ≤ ts
          · obtain ⟨i, before, after, hb, ha, hble, hlt, hnone⟩ :=
              ih hrest ⟨next, List.mem_cons_self, hnext⟩ hlater
            refine ⟨i + 1, before, after, hb, ha, hble, hlt, fun point hpoint => ?_⟩
            rcases List.mem_cons.mp hpoint with rfl | hpoint
            · exact .inl (hfirst before (List.mem_of_getElem? hb)).le
            · exact hnone point hpoint
          · refine ⟨0, first, next, rfl, rfl, hle, not_le.mp hnext, fun point hpoint => ?_⟩
            rcases List.mem_cons.mp hpoint with rfl | hpoint
            · exact .inl le_rfl
            · rcases List.mem_cons.mp hpoint with rfl | hpoint
              · exact .inr le_rfl
              · exact .inr ((List.pairwise_cons.mp hrest).1 point hpoint).le

/-- A time that is known, not behind the last entry and not that of an observation, lies between
two observations that no entry without a value separates. -/
theorem FromObservations.between {obs : List (Point ℤ)} {entries : List Entry}
    (h : FromObservations obs entries)
    (hincreasing : obs.Pairwise fun earlier later => earlier.ts < later.ts) {ts up : ℤ}
    (hknown : stateAt entries ts = some (some up)) (hlast : ∃ entry ∈ entries, ts < entry.ts)
    (hobs : ∀ point ∈ obs, point.ts ≠ ts) :
    ∃ i first next, obs[i]? = some first ∧ obs[i + 1]? = some next ∧ first.ts < ts ∧ ts < next.ts ∧
      ∀ entry ∈ entries, entry.up = none → ¬(first.ts < entry.ts ∧ entry.ts ≤ next.ts) := by
  obtain ⟨current, hcurrent, hle, hup, hnewest⟩ := exists_of_stateAt h.ordered hknown
  have hvalue := h.observed current hcurrent up hup
  -- an entry behind the time comes from an observation behind it
  have hafter : ∃ point ∈ obs, ts < point.ts := by
    obtain ⟨entry, hentry, hlt⟩ := hlast
    cases hentryUp : entry.up with
    | some value => exact ⟨_, h.observed entry hentry value hentryUp, hlt⟩
    | none =>
        obtain ⟨point, hpoint, hts⟩ := h.gaps entry hentry hentryUp
        have hne := hobs point hpoint
        exact ⟨point, hpoint, by omega⟩
  obtain ⟨i, first, next, hfirst, hnext, hfirstLe, hlt, hnone⟩ :=
    exists_consecutive hincreasing ⟨_, hvalue, hle⟩ hafter
  have hbefore : first.ts < ts :=
    lt_of_le_of_ne hfirstLe (hobs first (List.mem_of_getElem? hfirst))
  refine ⟨i, first, next, hfirst, hnext, hbefore, hlt, fun entry hentry hentryUp hbetween => ?_⟩
  obtain ⟨point, hpoint, hts⟩ := h.gaps entry hentry hentryUp
  -- the gap begins right behind the first of the two, so the line has no value at the time
  have hgap : entry.ts ≤ current.ts := by
    have hside := hnone point hpoint
    exact hnewest entry hentry (by omega)
  have hside := hnone _ hvalue
  dsimp only at hside
  omega

/-- What the uptime figure is made of. -/
structure InventsNoTime (obs : List (Point ℤ)) (entries : List Entry) (since until_ stale : ℤ) :
    Prop where
  bounds : 0 ≤ (availabilitySeconds since until_ stale entries).1 ∧
    (availabilitySeconds since until_ stale entries).1 ≤
      (availabilitySeconds since until_ stale entries).2 ∧
    (availabilitySeconds since until_ stale entries).2 ≤ max 0 (until_ - since)
  known : (availabilitySeconds since until_ stale entries).2 =
    ((Finset.Ico since until_).filter fun ts =>
      lineAt stale entries ts = some 0 ∨ lineAt stale entries ts = some 1).card
  up : (availabilitySeconds since until_ stale entries).1 =
    ((Finset.Ico since until_).filter fun ts => lineAt stale entries ts = some 1).card
  observed : ∀ ts, (lineAt stale entries ts = some 0 ∨ lineAt stale entries ts = some 1) →
    (∀ last ∈ entries.getLast?, ts < last.ts) → (∀ point ∈ obs, point.ts ≠ ts) →
      ∃ i first next, obs[i]? = some first ∧ obs[i + 1]? = some next ∧ first.ts < ts ∧
        ts < next.ts ∧
          ∀ entry ∈ entries, entry.up = none → ¬(first.ts < entry.ts ∧ entry.ts ≤ next.ts)

theorem FromObservations.inventsNoTime {obs : List (Point ℤ)} {entries : List Entry}
    (h : FromObservations obs entries)
    (hincreasing : obs.Pairwise fun earlier later => earlier.ts < later.ts)
    (since until_ stale : ℤ) : InventsNoTime obs entries since until_ stale := by
  have htotals := availabilitySeconds_eq since until_ stale h.ordered
  refine ⟨?_, ?_, ?_, fun ts hline hlast hobs => ?_⟩
  · rw [htotals]
    refine ⟨Int.natCast_nonneg _, ?_, coverage_le since until_ stale _ entries⟩
    exact Int.ofNat_le.mpr (coverage_mono since until_ stale (by decide) entries)
  · rw [htotals]
    simp [coverage]
  · rw [htotals]
    simp [coverage]
  · obtain ⟨value, hvalue⟩ : ∃ value, stateAt entries ts = some (some value) := by
      unfold lineAt at hline
      split_ifs at hline
      · rcases hline with hline | hline
        · exact ⟨0, Option.join_eq_some_iff.mp hline⟩
        · exact ⟨1, Option.join_eq_some_iff.mp hline⟩
      · simp at hline
    obtain ⟨current, hcurrent, -⟩ := exists_of_stateAt h.ordered hvalue
    obtain ⟨last, hmem⟩ : ∃ last, entries.getLast? = some last :=
      Option.isSome_iff_exists.mp (by simpa using List.ne_nil_of_mem hcurrent)
    exact h.between hincreasing hvalue
      ⟨last, List.mem_of_getLast? hmem, hlast last hmem⟩ hobs

/-- On the line of a series the uptime figure counts only time that the line covers, and that
lies between two consecutive observations without a gap. -/
theorem uptime_figure_invents_no_time (format : LineFormat V) (asInt : V → Option ℤ)
    (series : Resolution → Series) (now since until_ check stale : ℤ)
    (hincreasing : ∀ source ∈ sourcesOf now since until_,
      (observations format asInt now series source).Pairwise
        fun earlier later => earlier.ts < later.ts) :
    InventsNoTime (seriesObservations format asInt series now since until_)
      (availabilityTransitions format asInt series now since until_ check) since until_ stale :=
  (fromObservations_availabilityTransitions check hincreasing).inventsNoTime
    (increasing_seriesObservations hincreasing) since until_ stale

/-- Checks at 0, 60, 125 and 1000 seconds, the second of them down: the pause counts for the
microsecond in which it begins. -/
theorem uptime_figure_invents_no_time_outage :
    InventsNoTime
        (seriesObservations JsonLine.format digitAsInt
          (checksAt [(0, 1), (60, 0), (125, 1), (1000, 1)]) (2 * day) 0 (2 * day))
        (availabilityTransitions JsonLine.format digitAsInt
          (checksAt [(0, 1), (60, 0), (125, 1), (1000, 1)]) (2 * day) 0 (2 * day) 60)
        0 (2 * day) (180 * second) ∧
      availabilitySeconds 0 (2 * day) (180 * second)
        (availabilityTransitions JsonLine.format digitAsInt
          (checksAt [(0, 1), (60, 0), (125, 1), (1000, 1)]) (2 * day) 0 (2 * day) 60) =
        (240000001, 305000001) :=
  ⟨uptime_figure_invents_no_time _ _ _ _ _ _ _ _ (by decide +kernel), by decide +kernel⟩

end Justup.Charts
