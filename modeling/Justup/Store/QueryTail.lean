import Justup.Store.Query
import Justup.Store.JsonLine

/-!
# The newest points

What the fast path of `query` returns, whatever the block size does to the lines
and whatever the cache remembers, compared with the stream of all lines.
-/

namespace Justup.Store

open Justup.Lib

variable {V : Type*} {format : LineFormat V} {resolution : Resolution}

/-! ## Blocks -/

theorem parsePoint_chomp {text line : Text} (hline : line ∈ rawLines text)
    (since until_ : Option Int) :
    parsePoint format since until_ (Lines.chomp '\n' line) =
      parsePoint format since until_ line := by
  rcases (Lines.mem_rawLines hline).2 with hends | hnot
  · obtain ⟨body, hbody, rfl⟩ := hends
    rw [Lines.chomp_isLine hbody, parsePoint_snoc_newline]
  · rw [Lines.chomp_of_notMem hnot]

theorem length_splitLines (text : Text) : (splitLines text).length = (rawLines text).length :=
  List.length_map _

/-- A back with more lines than are wanted has the last lines of the whole text:
only its first line can be cut. -/
theorem rtake_splitLines (front : Text) {back : Text} {limit : Nat}
    (hlimit : limit < (splitLines back).length) :
    (splitLines (front ++ back)).rtake limit = (splitLines back).rtake limit := by
  have htail : ∀ text : Text, limit < (rawLines text).length →
      (rawLines text).rtake limit = (rawLines text).tail.rtake limit := by
    intro text hlength
    cases hlines : rawLines text with
    | nil => simp [hlines] at hlength
    | cons first rest =>
        rw [hlines, List.length_cons] at hlength
        exact Tail.rtake_append_of_le [first] (Nat.lt_succ_iff.mp hlength)
  have hsuffix : (rawLines back).tail <:+ (rawLines (front ++ back)).tail :=
    Lines.rawLines_suffix front back
  rw [length_splitLines] at hlimit
  have hback : limit ≤ (rawLines back).tail.length := by
    rw [List.length_tail]
    exact Nat.le_sub_one_of_lt hlimit
  have hall : limit < (rawLines (front ++ back)).length := by
    have hne : rawLines (front ++ back) ≠ [] := by
      intro hnil
      have hback : back = [] := (List.append_eq_nil_iff.mp
        ((Lines.rawLines_eq_nil_iff _).mp hnil)).2
      simp [hback] at hlimit
    have hle := hback.trans hsuffix.length_le
    rw [List.length_tail] at hle
    have hpos := List.length_pos_iff.mpr hne
    omega
  rw [splitLines, splitLines, Tail.rtake_map, Tail.rtake_map, htail _ hall, htail _ hlimit,
    Tail.rtake_of_suffix hsuffix hback]

theorem tailLoop_spec {content : Text} {limit : Nat} (fuel pos : Nat) (buffer : Text)
    (chunks : List Text) (hfuel : pos ≤ fuel) (hbuffer : buffer = content.drop pos)
    (hchunks : chunks = splitLines buffer) :
    (tailLoop content limit fuel pos buffer chunks).rtake limit =
      (splitLines content).rtake limit := by
  induction fuel generalizing pos buffer chunks with
  | zero =>
      rw [Nat.le_zero.mp hfuel, List.drop_zero] at hbuffer
      rw [tailLoop, hchunks, hbuffer]
  | succ fuel ih =>
      rw [tailLoop]
      split_ifs with hmore
      · have hstep : 0 < min tailBlock pos := Nat.lt_min.mpr ⟨by decide, hmore.1⟩
        refine ih _ _ _ (by omega) ?_ rfl
        have hback : content.drop pos =
            (content.drop (pos - min tailBlock pos)).drop (min tailBlock pos) := by
          rw [List.drop_drop]
          congr 1
          omega
        rw [hbuffer, hback, List.take_append_drop]
      · rcases Nat.eq_zero_or_pos pos with hzero | hpos
        · rw [hzero, List.drop_zero] at hbuffer
          rw [hchunks, hbuffer]
        · have hlimit : limit < (splitLines buffer).length := by
            rw [← hchunks]
            omega
          rw [hchunks, ← rtake_splitLines (content.take pos) hlimit, hbuffer,
            List.take_append_drop]

/-- `_tail_lines` gives the points of the last raw lines. -/
theorem tailLines_eq (content : Text) (limit : Nat) :
    tailLines format content limit = points format none none ((rawLines content).rtake limit) := by
  rw [tailLines, tailLoop_spec _ _ [] [] (le_refl _) (by simp) (by rfl), splitLines, Tail.rtake_map,
    List.filterMap_map, points]
  refine List.filterMap_congr fun line hline => ?_
  exact parsePoint_chomp (List.mem_of_mem_drop hline) none none

/-! ## The cache -/

/-- What the cache holds of the segments that are there is what is read from
them.  Segments never change once published, so this holds of every entry under
the signature of a segment. -/
def Coherent (segments : List (PeriodKey × Segment)) (cache : TailCache) : Prop :=
  ∀ item ∈ cache, ∀ entry ∈ segments, item.1 = (entry.1, entry.2.sig) → item.2 = tailEntry entry.2

theorem lines_tailEntry (segment : Segment) :
    (tailEntry segment).lines = (rawLines segment.content).rtake tailCacheLines := by
  rw [tailEntry]

theorem whole_tailEntry {segment : Segment} :
    (tailEntry segment).whole = true ↔ (rawLines segment.content).length ≤ tailCacheLines := by
  rw [tailEntry, decide_eq_true_eq]

theorem coherent_nil (segments : List (PeriodKey × Segment)) : Coherent segments [] := by
  simp [Coherent]

theorem mem_cacheSet {key : PeriodKey × Nat} {entry : TailEntry} {cache : TailCache}
    {item : (PeriodKey × Nat) × TailEntry} (hitem : item ∈ cacheSet key entry cache) :
    item ∈ cache ∨ item = (key, entry) := by
  induction cache with
  | nil => exact Or.inr (List.mem_singleton.mp hitem)
  | cons head rest ih =>
      rw [cacheSet] at hitem
      split_ifs at hitem
      · rcases List.mem_cons.mp hitem with hnew | hold
        · exact Or.inr hnew
        · exact Or.inl (List.mem_cons_of_mem _ hold)
      · rcases List.mem_cons.mp hitem with hhead | hold
        · exact Or.inl (hhead ▸ List.mem_cons_self)
        · exact (ih hold).imp_left (List.mem_cons_of_mem _)

section Cache

variable {segments : List (PeriodKey × Segment)} {cache : TailCache}
  {entry : PeriodKey × Segment}

theorem readTail_spec (hordered : Dict.Ordered segments) (hcache : Coherent segments cache)
    (hentry : entry ∈ segments) (need : Nat) :
    (readTail entry.1 entry.2 need cache).1 = (rawLines entry.2.content).rtake need ∧
      Coherent segments (readTail entry.1 entry.2 need cache).2 := by
  have hwindow : (rawLines entry.2.content).foldl (Tail.push (max tailCacheLines need)) [] =
      (rawLines entry.2.content).rtake (max tailCacheLines need) := by
    rw [Tail.foldl_push _ _ [] (Nat.zero_le _), List.nil_append]
  constructor
  · simp only [readTail, hwindow]
    rw [Tail.rtake_rtake, min_eq_left (le_max_right _ _)]
  · simp only [readTail, hwindow]
    rw [Tail.rtake_rtake, min_eq_left (le_max_left _ _)]
    intro item hitem other hother hkey
    rcases mem_cacheSet hitem with hold | rfl
    · refine hcache item ?_ other hother hkey
      split_ifs at hold
      · exact List.mem_of_mem_tail hold
      · exact hold
    · -- the segment of this period with this signature is the one that was read
      have hperiod : entry.1 = other.1 := (Prod.mk.inj hkey).1
      have hsame := Dict.get?_of_mem hordered hother
      rw [← hperiod, Dict.get?_of_mem hordered hentry] at hsame
      rw [← Option.some.inj hsame]
      rfl

/-- `_segment_tail` gives the newest lines, with or without the cache. -/
theorem segmentTail_spec (hordered : Dict.Ordered segments) (hcache : Coherent segments cache)
    (hentry : entry ∈ segments) (need : Nat) :
    (segmentTail entry.1 entry.2 need cache).1 = (rawLines entry.2.content).rtake need ∧
      Coherent segments (segmentTail entry.1 entry.2 need cache).2 := by
  have hread := readTail_spec hordered hcache hentry need
  rw [segmentTail]
  cases hlookup : cache.lookup (entry.1, entry.2.sig) with
  | none => exact hread
  | some cached =>
      dsimp only
      split_ifs with husable
      · refine ⟨?_, hcache⟩
        have hmem : ((entry.1, entry.2.sig), cached) ∈ cache := by
          obtain ⟨front, back, hsplit, -⟩ := List.lookup_eq_some_iff.mp hlookup
          simp [hsplit]
        have hcached : cached = tailEntry entry.2 := hcache _ hmem entry hentry rfl
        rw [hcached, Bool.or_eq_true, whole_tailEntry, decide_eq_true_eq, lines_tailEntry,
          Tail.length_rtake] at husable
        rw [hcached, lines_tailEntry, Tail.rtake_rtake]
        rcases husable with hwhole | hneed
        · rcases le_total need tailCacheLines with hle | hle
          · rw [min_eq_left hle]
          · rw [min_eq_right hle, Tail.rtake_of_length_le hwhole,
              Tail.rtake_of_length_le (hwhole.trans hle)]
        · rw [min_eq_left (hneed.trans (min_le_left _ _))]
      · exact hread

end Cache

/-! ## Segments -/

/-- The points of some segments. -/
def segmentPoints (format : LineFormat V) (segments : List (PeriodKey × Segment)) :
    List (Point V) :=
  segments.flatMap fun entry => points format none none (rawLines entry.2.content)

theorem points_flatMap (segments : List (PeriodKey × Segment)) :
    points format none none (segments.flatMap fun entry => rawLines entry.2.content) =
      segmentPoints format segments := by
  rw [points, segmentPoints, List.filterMap_flatMap]
  rfl

theorem isSome_parsePoint {line : Text} (hline : (lineTs format line).isSome) :
    (parsePoint format none none line).isSome := by
  rw [lineTs_eq_parsePoint] at hline
  simpa using hline

/-- Lines that are all records: the last lines give the last points. -/
theorem points_rtake {lines : List Text} (hlines : ∀ line ∈ lines, (lineTs format line).isSome)
    (n : Nat) :
    points format none none (lines.rtake n) = (points format none none lines).rtake n :=
  Tail.filterMap_rtake (fun line hline => isSome_parsePoint (hlines line hline)) n

theorem tailSegmentsLoop_spec {all : List (PeriodKey × Segment)} (hordered : Dict.Ordered all)
    (hvalid : ∀ entry ∈ all, ∀ line ∈ rawLines entry.2.content, (lineTs format line).isSome)
    (need : Nat) (newest : List (PeriodKey × Segment)) (hnewest : ∀ entry ∈ newest, entry ∈ all)
    (collected : List (Point V)) (hcollected : collected.length < need) {cache : TailCache}
    (hcache : Coherent all cache) :
    (tailSegmentsLoop format need newest collected cache).1.rtake need =
        (segmentPoints format newest.reverse ++ collected).rtake need ∧
      Coherent all (tailSegmentsLoop format need newest collected cache).2 := by
  induction newest generalizing collected cache with
  | nil => exact ⟨rfl, hcache⟩
  | cons entry older ih =>
      obtain ⟨htail, hcoherent⟩ := segmentTail_spec hordered hcache (hnewest entry (by simp))
        (need - collected.length)
      have hpoints : segmentPoints format (entry :: older).reverse =
          segmentPoints format older.reverse ++
            points format none none (rawLines entry.2.content) := by
        simp [segmentPoints]
      have hlines : (segmentTail entry.1 entry.2 (need - collected.length) cache).1.filterMap
          (parsePoint format none none) =
            (points format none none (rawLines entry.2.content)).rtake
              (need - collected.length) := by
        rw [htail]
        exact points_rtake (hvalid entry (hnewest entry (by simp))) _
      have hwhole : ((points format none none (rawLines entry.2.content)).rtake
          (need - collected.length) ++ collected) =
            (points format none none (rawLines entry.2.content) ++ collected).rtake need :=
        (Tail.rtake_append _ hcollected.le).symm
      rw [tailSegmentsLoop]
      simp only [hlines, hpoints, List.append_assoc, hwhole]
      by_cases hfull : need ≤ (points format none none (rawLines entry.2.content) ++
        collected).length
      · rw [if_pos (by rw [Tail.length_rtake]; omega)]
        refine ⟨?_, hcoherent⟩
        rw [Tail.rtake_rtake, min_self, Tail.rtake_append_of_le _ hfull]
      · have hshort := (not_le.mp hfull).le
        rw [if_neg (by rw [Tail.length_rtake]; omega),
          Tail.rtake_of_length_le hshort]
        exact ih (fun other hother => hnewest other (by simp [hother])) _ (not_le.mp hfull)
          hcoherent

/-- `_tail_segments` gives the newest points of the segments. -/
theorem tailSegments_spec {segments : List (PeriodKey × Segment)}
    (hordered : Dict.Ordered segments)
    (hvalid : ∀ entry ∈ segments, ∀ line ∈ rawLines entry.2.content,
      (lineTs format line).isSome)
    {need : Nat} (hneed : 0 < need) {cache : TailCache} (hcache : Coherent segments cache) :
    (tailSegments format segments need cache).1 = (segmentPoints format segments).rtake need ∧
      Coherent segments (tailSegments format segments need cache).2 := by
  have hloop := tailSegmentsLoop_spec hordered hvalid need segments.reverse
    (fun entry hentry => List.mem_reverse.mp hentry) [] hneed hcache
  rw [List.reverse_reverse, List.append_nil] at hloop
  exact hloop

/-! ## The fast path -/

theorem openSnapshot_none (now : Int) (s : Series) :
    openSnapshot resolution now none none s = ⟨s.segments, s.active⟩ := by
  simp [openSnapshot, overlaps]

/-- The points that the fast path reads from the active file. -/
def recentPoints (format : LineFormat V) (limit : Nat) (s : Series) : List (Point V) :=
  points format none none ((rawLines s.activeContent).rtake limit)

/-- The points of the active file that stand before the lines it reads. -/
def olderPoints (format : LineFormat V) (limit : Nat) (s : Series) : List (Point V) :=
  points format none none
    ((rawLines s.activeContent).take ((rawLines s.activeContent).length - limit))

theorem length_recentPoints_le (format : LineFormat V) (limit : Nat) (s : Series) :
    (recentPoints format limit s).length ≤ limit :=
  (List.length_filterMap_le _ _).trans
    ((Tail.length_rtake _ _).le.trans (min_le_left _ _))

theorem older_append_recent (limit : Nat) (s : Series) :
    olderPoints format limit s ++ recentPoints format limit s =
      points format none none (rawLines s.activeContent) := by
  rw [olderPoints, recentPoints, ← points_append, List.rtake, List.take_append_drop]

theorem queryTail_eq (s : PeriodSeries format resolution) (now : Int) (limit : Nat)
    {cache : TailCache} (hcache : Coherent s.val.segments cache) :
    (queryTail format resolution now limit s.val cache).1 =
      (segmentPoints format s.val.segments ++ recentPoints format limit s.val).rtake limit := by
  have hrecent : tailActive format s.val.active limit = recentPoints format limit s.val := by
    unfold tailActive recentPoints Series.activeContent
    cases s.val.active with
    | none => simp [points, List.rtake]
    | some file => exact tailLines_eq file.content limit
  have hlength := length_recentPoints_le format limit s.val
  rw [queryTail]
  simp only [openSnapshot_none, hrecent]
  rw [Tail.rtake_append _ hlength]
  split_ifs with hshort
  · have htail := (tailSegments_spec s.property.ordered s.property.valid
      (Nat.sub_pos_of_lt hshort) hcache).1
    simp only [htail]
  · have hfull : limit - (recentPoints format limit s.val).length = 0 := by omega
    rw [hfull, List.rtake_zero, List.nil_append]

/-! ## The stream -/

/-- The newest points of all the lines of a series, read one by one. -/
def newestPoints (format : LineFormat V) (limit : Nat) (s : Series) : List (Point V) :=
  (points format none none
    (s.segments.flatMap (fun entry => rawLines entry.2.content) ++
      rawLines s.activeContent)).rtake limit

theorem newestPoints_eq (limit : Nat) (s : Series) :
    newestPoints format limit s =
      (segmentPoints format s.segments ++ olderPoints format limit s ++
        recentPoints format limit s).rtake limit := by
  rw [newestPoints, points_append, points_flatMap, List.append_assoc, older_append_recent]

/-- The fast path leaves out the older points of the active file.  Either it
needs none, because all the lines it reads are records, or there are none, or
without them the newest points are by chance the same. -/
def TailSuffices (format : LineFormat V) (limit : Nat) (s : Series) : Prop :=
  let missing := limit - (recentPoints format limit s).length
  missing = 0 ∨ olderPoints format limit s = [] ∨
    (segmentPoints format s.segments ++ olderPoints format limit s).rtake missing =
      (segmentPoints format s.segments).rtake missing

theorem rtake_eq_iff_tailSuffices (limit : Nat) (s : Series) :
    (segmentPoints format s.segments ++ recentPoints format limit s).rtake limit =
      newestPoints format limit s ↔ TailSuffices format limit s := by
  have hlength := length_recentPoints_le format limit s
  rw [newestPoints_eq, Tail.rtake_append _ hlength, Tail.rtake_append _ hlength,
    List.append_cancel_right_eq, TailSuffices]
  constructor
  · exact fun heq => Or.inr (Or.inr heq.symm)
  · rintro (hzero | hnil | heq)
    · rw [hzero, List.rtake_zero, List.rtake_zero]
    · rw [hnil, List.append_nil]
    · exact heq.symm

theorem iterSeriesLines_of_overlaps {now : Int} {since until_ : Option Int} {s : Series}
    (hall : ∀ entry ∈ s.segments, overlaps resolution now since until_ entry.1 = true) :
    iterSeriesLines resolution now since until_ s =
      s.segments.flatMap (fun entry => rawLines entry.2.content) ++ rawLines s.activeContent := by
  have hopen : openSnapshot resolution now since until_ s = ⟨s.segments, s.active⟩ := by
    rw [openSnapshot, List.filter_eq_self.mpr hall]
  rw [iterSeriesLines, hopen, Series.activeContent]
  cases s.active <;> rfl

/-- A lower bound that excludes nothing gives the plain stream. -/
theorem queryStream_of_since {now since : Int} {s : Series} (limit : Nat)
    (hall : ∀ entry ∈ s.segments, overlaps resolution now (some since) none entry.1 = true)
    (hsince : ∀ point ∈ points format none none
      (s.segments.flatMap (fun entry => rawLines entry.2.content) ++ rawLines s.activeContent),
        since ≤ point.ts) :
    queryStream format resolution now (some since) none limit true s =
      newestPoints format limit s := by
  rw [queryStream, iterSeriesLines_of_overlaps hall, if_pos rfl, collectTail_eq, newestPoints,
    points_window, List.filter_eq_self.mpr]
  intro point hpoint
  rw [inWindow_iff]
  simpa using hsince point hpoint

theorem newestPoints_of_empty (format : LineFormat V) {s : Series} (hsegments : s.segments = [])
    (hactive : s.active = none) (limit : Nat) : newestPoints format limit s = [] := by
  simp [newestPoints, hsegments, Series.activeContent, hactive, points]

/-- `query(latest=True)` without bounds returns the newest points of the stream
exactly when the tail of the active file suffices; with a lower bound that
excludes nothing it always does. -/
theorem query_latest_eq_newest_iff (s : PeriodSeries format resolution) (now : Int)
    (limit : Nat) (hlimit : 1 ≤ limit) (cache : TailCache)
    (hcache : Coherent s.val.segments cache) :
    ((query format resolution now none none limit true s.val cache).1 =
      newestPoints format limit s.val ↔ TailSuffices format limit s.val) ∧
    ∀ since, (∀ entry ∈ s.val.segments,
        overlaps resolution now (some since) none entry.1 = true) →
      (∀ point ∈ points format none none
        (s.val.segments.flatMap (fun entry => rawLines entry.2.content) ++
          rawLines s.val.activeContent), since ≤ point.ts) →
        (query format resolution now (some since) none limit true s.val cache).1 =
          newestPoints format limit s.val := by
  have hpos : limit ≠ 0 := by omega
  by_cases hempty : (s.val.segments.isEmpty && s.val.active.isNone) = true
  · obtain ⟨hsegments, hactive⟩ : s.val.segments = [] ∧ s.val.active = none := by
      simpa using hempty
    have hnewest := newestPoints_of_empty format hsegments hactive limit
    have holder : olderPoints format limit s.val = [] := by
      simp [olderPoints, points, Series.activeContent, hactive]
    simp only [query, hempty, if_true, hnewest, true_iff]
    exact ⟨Or.inr (Or.inl holder), fun _ _ _ => trivial⟩
  · constructor
    · simp only [query, hempty, if_neg hpos]
      rw [← rtake_eq_iff_tailSuffices, ← queryTail_eq s now limit hcache]
      rfl
    · intro since hall hsince
      simp only [query, hempty, if_neg hpos]
      exact queryStream_of_since limit hall hsince

/-- A record and a line that was cut off after twelve characters. -/
def tornSeries : PeriodSeries JsonLine.format .raw :=
  ⟨(Series.empty.append (recordLine JsonLine.format 0 1)).append
      ((recordLine JsonLine.format 60000000 2).take 12),
    (wf_empty.append _).append _⟩

/-- The newest point of the series is asked for and none is returned. -/
theorem query_latest_misses_point :
    (query JsonLine.format .raw 86400000000 none none 1 true tornSeries.val []).1 = [] ∧
      newestPoints JsonLine.format 1 tornSeries.val = [⟨0, 1⟩] := by
  decide +kernel

/-- With the limit 2 the read lines go back to the record. -/
theorem query_latest_two_lines :
    (query JsonLine.format .raw 86400000000 none none 2 true tornSeries.val []).1 =
      newestPoints JsonLine.format 2 tornSeries.val :=
  (query_latest_eq_newest_iff tornSeries 86400000000 2 (by decide) []
    (coherent_nil _)).1.mpr (Or.inr (Or.inl (by decide +kernel)))

/-- With increasing timestamps nothing is the same by chance. -/
theorem tailSuffices_iff_of_increasing {limit : Nat} {s : Series}
    (hpoints : (segmentPoints format s.segments ++ olderPoints format limit s).Pairwise
      fun first second => first.ts < second.ts) :
    TailSuffices format limit s ↔
      (recentPoints format limit s).length = limit ∨ olderPoints format limit s = [] := by
  have hlength := length_recentPoints_le format limit s
  unfold TailSuffices
  dsimp only
  constructor
  · rintro (hzero | hnil | heq)
    · exact Or.inl (by omega)
    · exact Or.inr hnil
    · by_contra hneither
      obtain ⟨hshort, hne⟩ := not_or.mp hneither
      obtain ⟨missing, hmissing⟩ : ∃ missing, limit - (recentPoints format limit s).length =
          missing + 1 := ⟨limit - (recentPoints format limit s).length - 1, by omega⟩
      rcases List.eq_nil_or_concat (olderPoints format limit s) with hnil | ⟨front, last, hlast⟩
      · exact hne hnil
      · -- the last of the older points would also be a point of a segment
        rw [hmissing, hlast, List.concat_eq_append, ← List.append_assoc,
          List.rtake_concat_succ] at heq
        have hmem : last ∈ segmentPoints format s.segments :=
          List.mem_of_mem_drop (heq ▸ List.mem_append_right _ (List.mem_singleton_self last))
        have hlt := (List.pairwise_append.mp hpoints).2.2 last hmem last (by simp [hlast])
        exact lt_irrefl _ hlt
  · rintro (hfull | hnil)
    · exact Or.inl (by omega)
    · exact Or.inr (Or.inl hnil)

end Justup.Store
