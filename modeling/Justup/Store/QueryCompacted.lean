import Justup.Store.CompactCrash
import Justup.Store.QueryTail

/-!
# Reading a compacted series

Readers get from a compacted series what they get from the same records in one
file.  The bounds of a segment are tightened by the start of the reader's day,
which is right because every archived record is older than that.
-/

namespace Justup.Store

open Justup.Lib

variable {V : Type*} {format : LineFormat V} {resolution : Resolution}

/-! ## What the segment filter skips -/

/-- No segment with a point in the window is skipped. -/
def Visible (format : LineFormat V) (resolution : Resolution) (now : Int) (s : Series) : Prop :=
  ∀ since until_, ∀ entry ∈ s.segments, ∀ line ∈ rawLines entry.2.content,
    ∀ point ∈ parsePoint format since until_ line,
      overlaps resolution now since until_ entry.1 = true

/-- A segment whose records are older than the reader's day is opened whenever
one of them is in the window. -/
theorem visible_of_placed {s : Series} {now : Int}
    (hplaced : ∀ entry ∈ s.segments, ∀ line ∈ rawLines entry.2.content,
      ∀ ts ∈ lineTs format line, periodKey resolution ts = entry.1)
    (hold : ∀ line ∈ archived format s, ∀ ts ∈ lineTs format line, ts < hotStart now) :
    Visible format resolution now s := by
  intro since until_ entry hentry line hline point hpoint
  rw [Option.mem_def, parsePoint_window, Option.filter_eq_some_iff, inWindow_iff] at hpoint
  obtain ⟨hparse, hsince, huntil⟩ := hpoint
  have hts : lineTs format line = some point.ts := by
    rw [lineTs_eq_parsePoint, hparse]
    rfl
  have hvalid : line ∈ validLines format entry.2.content :=
    mem_validLines.mpr ⟨hline, by rw [hts]; rfl⟩
  have hlt := hold line (mem_archived.mpr ⟨entry, hentry, hvalid⟩) point.ts hts
  have hbounds := periodBounds_contains resolution point.ts
  rw [hplaced entry hentry line hline point.ts hts] at hbounds
  have hlow : ∀ low ∈ since, ¬ min (periodBounds resolution entry.1).2 (hotStart now) ≤ low := by
    intro low hlow
    have hle := hsince low hlow
    omega
  have hhigh : ∀ high ∈ until_, ¬ high < (periodBounds resolution entry.1).1 := by
    intro high hhigh
    have hle := huntil high hhigh
    omega
  unfold overlaps
  cases since <;> cases until_ <;> simp_all

theorem visible_of_lt {s : Series} (hwf : s.WF format resolution) {now : Int}
    (hold : ∀ line ∈ archived format s, ∀ ts ∈ lineTs format line, ts < hotStart now) :
    Visible format resolution now s :=
  visible_of_placed hwf.placed hold

theorem flatMap_filter_of_nil {α β : Type*} (keep : α → Bool) (f : α → List β) (list : List α)
    (hnil : ∀ a ∈ list, keep a = false → f a = []) :
    (list.filter keep).flatMap f = list.flatMap f := by
  induction list with
  | nil => rfl
  | cons a rest ih =>
      have hrest := ih fun b hb => hnil b (by simp [hb])
      cases hkeep : keep a with
      | true => rw [List.filter_cons_of_pos hkeep, List.flatMap_cons, List.flatMap_cons, hrest]
      | false =>
          rw [List.filter_cons_of_neg (by simp [hkeep]), List.flatMap_cons, hrest,
            hnil a (by simp) hkeep, List.nil_append]

theorem points_records (since until_ : Option Int) (s : Series) :
    points format since until_ (records format s) =
      s.segments.flatMap (fun entry => points format since until_ (rawLines entry.2.content)) ++
        points format since until_ (rawLines s.activeContent) := by
  rw [records, points_append, validLines, points_filter_valid, points, List.filterMap_flatMap]
  congr 2
  funext entry
  exact points_filter_valid since until_ _

/-- The stream that readers filter holds every record in the window. -/
theorem points_iterSeriesLines {s : Series} {now : Int}
    (hvisible : Visible format resolution now s) (since until_ : Option Int) :
    points format since until_ (iterSeriesLines resolution now since until_ s) =
      points format since until_ (records format s) := by
  have hopened : points format since until_ (iterSeriesLines resolution now since until_ s) =
      (s.segments.filter fun entry => overlaps resolution now since until_ entry.1).flatMap
          (fun entry => points format since until_ (rawLines entry.2.content)) ++
        points format since until_ (rawLines s.activeContent) := by
    rw [iterSeriesLines, points_append, points, List.filterMap_flatMap, openSnapshot,
      Series.activeContent]
    cases s.active <;> rfl
  rw [points_records, hopened, flatMap_filter_of_nil]
  intro entry hentry hskipped
  rw [points, List.filterMap_eq_nil_iff]
  intro line hline
  cases hpoint : parsePoint format since until_ line with
  | none => rfl
  | some point =>
      rw [hvisible since until_ entry hentry line hline point hpoint] at hskipped
      cases hskipped

/-! ## Queries of series without invalid lines -/

theorem tailSuffices_of_valid {s : Series}
    (hactive : ∀ line ∈ rawLines s.activeContent, (lineTs format line).isSome) (limit : Nat) :
    TailSuffices format limit s := by
  unfold TailSuffices recentPoints olderPoints
  rcases le_total limit (rawLines s.activeContent).length with hle | hle
  · refine Or.inl ?_
    rw [points_rtake hactive, Tail.length_rtake, points, List.length_filterMap_eq_countP,
      List.countP_eq_length.mpr fun line hline => isSome_parsePoint (hactive line hline)]
    omega
  · refine Or.inr (Or.inl ?_)
    rw [Nat.sub_eq_zero_of_le hle]
    rfl

theorem newestPoints_eq_records (limit : Nat) (s : Series) :
    newestPoints format limit s = (points format none none (records format s)).rtake limit := by
  rw [newestPoints, points_records, points_append, points_flatMap]
  rfl

/-- A series without files has no records. -/
theorem records_of_empty {s : Series} (hempty : (s.segments.isEmpty && s.active.isNone) = true) :
    records format s = [] := by
  obtain ⟨hsegments, hnone⟩ : s.segments = [] ∧ s.active = none := by simpa using hempty
  simp [records, hsegments, Series.activeContent, hnone]

/-- The general path filters the records. -/
theorem queryStream_eq {s : Series} {now : Int} (hvisible : Visible format resolution now s)
    (since until_ : Option Int) {limit : Nat} (hpos : limit ≠ 0) (latest : Bool) :
    queryStream format resolution now since until_ limit latest s =
      if latest then (points format since until_ (records format s)).rtake limit
      else (points format since until_ (records format s)).take limit := by
  dsimp only [queryStream]
  cases latest with
  | true => rw [if_pos rfl, if_pos rfl, collectTail_eq, points_iterSeriesLines hvisible]
  | false =>
      rw [if_neg Bool.false_ne_true, if_neg Bool.false_ne_true,
        collectHead_eq since until_ _ [] (Nat.pos_of_ne_zero hpos), List.nil_append,
        points_iterSeriesLines hvisible]

/-- A query with a bound, or of the oldest points, filters the records. -/
theorem query_eq_of_bounded {s : Series} {now : Int} (hvisible : Visible format resolution now s)
    {since until_ : Option Int} {limit : Nat} (hpos : limit ≠ 0) {latest : Bool}
    (hbounded : (latest && since.isNone && until_.isNone) = false) (cache : TailCache) :
    (query format resolution now since until_ limit latest s cache).1 =
      if latest then (points format since until_ (records format s)).rtake limit
      else (points format since until_ (records format s)).take limit := by
  rw [query, if_neg hpos, hbounded, if_neg Bool.false_ne_true]
  by_cases hempty : (s.segments.isEmpty && s.active.isNone) = true
  · rw [if_pos hempty, records_of_empty hempty]
    simp [points]
  · rw [if_neg hempty]
    exact queryStream_eq hvisible since until_ hpos latest

/-- What `query` returns depends on the records only, if no segment with a point
in the window is skipped and the active file has no invalid line. -/
theorem query_eq_of_visible (s : PeriodSeries format resolution) {now : Int}
    (hvisible : Visible format resolution now s.val)
    (hactive : ∀ line ∈ rawLines s.val.activeContent, (lineTs format line).isSome)
    {cache : TailCache} (hcache : Coherent s.val.segments cache) (since until_ : Option Int)
    (limit : Nat) (latest : Bool) :
    (query format resolution now since until_ limit latest s.val cache).1 =
      if limit = 0 then []
      else if latest then (points format since until_ (records format s.val)).rtake limit
      else (points format since until_ (records format s.val)).take limit := by
  by_cases hempty : (s.val.segments.isEmpty && s.val.active.isNone) = true
  · simp [query, hempty, records_of_empty hempty, points]
  · rw [query, if_neg hempty]
    by_cases hzero : limit = 0
    · rw [if_pos hzero, if_pos hzero]
    · rw [if_neg hzero, if_neg hzero]
      by_cases htail : (latest && since.isNone && until_.isNone) = true
      · obtain ⟨⟨hlatest, hsince⟩, huntil⟩ : (latest = true ∧ since = none) ∧ until_ = none := by
          simpa using htail
        subst hsince
        subst huntil
        rw [if_pos htail, queryTail_eq s now limit hcache,
          (rtake_eq_iff_tailSuffices limit s.val).mpr (tailSuffices_of_valid hactive limit),
          newestPoints_eq_records, if_pos hlatest]
      · rw [if_neg htail, queryStream_eq hvisible since until_ hzero]

/-! ## Runs without interruptions -/

/-- Every attempt comes to its end. -/
def NoInterrupt (acts : List (Act V)) : Prop :=
  ∀ act ∈ acts, ∀ published, act ≠ .interrupt published

/-- All the data of the series is in one file, which holds records only. -/
structure SingleFile (format : LineFormat V) (s : Series) : Prop where
  segments : s.segments = []
  lines : ∀ line ∈ rawLines s.activeContent,
    Lines.IsLine '\n' line ∧ (lineTs format line).isSome

theorem SingleFile.append {s : Series} (hs : SingleFile format s) (ts : Int) (value : V) :
    SingleFile format (appendPoint format ts value s) where
  segments := by rw [appendPoint, segments_append, hs.segments]
  lines := by
    have hcomplete : Lines.Complete '\n' s.activeContent := by
      rw [← Lines.rawLines_flatten '\n' s.activeContent]
      exact Lines.complete_flatten fun line hline => (hs.lines line hline).1
    intro line hline
    rw [appendPoint, activeContent_append, rawLines, Lines.rawLines_append hcomplete,
      Lines.rawLines_line (isLine_recordLine format ts value)] at hline
    rcases List.mem_append.mp hline with hold | hnew
    · exact hs.lines line hold
    · rw [List.mem_singleton.mp hnew, lineTs_recordLine]
      exact ⟨isLine_recordLine format ts value, rfl⟩

theorem SingleFile.writersOnly {s : Series} (hs : SingleFile format s) {acts : List (Act V)}
    (hacts : AppendsOnly acts) :
    SingleFile format (writersOnly format resolution acts s) := by
  induction acts generalizing s with
  | nil => exact hs
  | cons act rest ih =>
      have hrest : AppendsOnly rest := fun other hother => hacts other (by simp [hother])
      cases act with
      | write write =>
          obtain ⟨ts, value, rfl⟩ := hacts _ (by simp) write rfl
          exact ih (hs.append ts value) hrest
      | _ => exact ih hs hrest

/-- What has left the active file is archived, nothing else is, and all of it is
older than `bound`. -/
structure Moved (format : LineFormat V) (bound : Int) (plain : Series) (sys : System) : Prop where
  front : ∃ front, Replica format plain front sys.series ∧
    (∀ line ∈ archived format sys.series, line ∈ front) ∧
      ∀ line ∈ front, ∀ ts ∈ lineTs format line, ts < bound
  attempt : ∀ st ∈ sys.attempt.stat?, st.hotStart ≤ bound

theorem moved_step {bound : Int} {plain : Series} {sys next : System} {act : Act V}
    (hsystem : SystemInv format resolution sys) (hinv : Moved format bound plain sys)
    (hact : ∀ write, act = .write write → ∃ ts value, write = .append ts value)
    (hinterrupt : ∀ published, act ≠ .interrupt published)
    (hbound : ∀ hotStart, act = .stat hotStart → hotStart ≤ bound)
    (hstep : step format resolution sys act = some next) :
    Moved format bound (writersOnly format resolution [act] plain) next := by
  obtain ⟨⟨front, hreplica, harchived, hold⟩, hattempt⟩ := hinv
  rcases step_cases hstep with ⟨write, rfl, rfl⟩ | ⟨published, heq, -⟩ | ⟨hwrite, hadvance⟩
  · obtain ⟨ts, value, rfl⟩ := hact write rfl
    refine ⟨⟨front, hreplica.append _, fun line hline => harchived line ?_, hold⟩, hattempt⟩
    rwa [Write.apply, appendPoint, archived_append] at hline
  · exact absurd heq (hinterrupt published)
  · have hplain : writersOnly format resolution [act] plain = plain := by
      cases act with
      | write write => exact absurd rfl (hwrite write)
      | _ => rfl
    rw [hplain]
    rcases advance_cases hadvance with ⟨hotStart, rfl, -, hseries, hstat⟩ |
      ⟨-, -, hseries, hstat, -⟩ | ⟨st, plans, remainder, moved, rfl, hstaged, hmay, rfl⟩
    · refine ⟨⟨front, hseries ▸ hreplica, hseries ▸ harchived, hold⟩, fun st hst => ?_⟩
      rw [(hstat st hst).1]
      exact hbound hotStart rfl
    · exact ⟨⟨front, hseries ▸ hreplica, hseries ▸ harchived, hold⟩,
        fun st hst => hattempt st (hstat st hst)⟩
    · obtain ⟨closed, hcommit⟩ := committable (hstaged ▸ hsystem.attempt) hmay
      have hhot : st.hotStart ≤ bound := hattempt st (by rw [hstaged]; rfl)
      refine ⟨⟨front ++ closed, hreplica.commit hsystem.wf hcommit, fun line hline => ?_,
        fun line hline ts hts => ?_⟩, fun other hother => by cases hother⟩
      · rcases (hcommit.mem_archived hsystem.wf).mp hline with hmem | ⟨hmem, -⟩
        · exact List.mem_append_left _ (harchived line hmem)
        · exact List.mem_append_right _ hmem
      · rcases List.mem_append.mp hline with hmem | hmem
        · exact hold line hmem ts hts
        · exact ((hcommit.isClosed line hmem).2 ts hts).trans_le hhot

theorem moved_run {bound : Int} {plain : Series} {sys final : System} {acts : List (Act V)}
    (hsystem : SystemInv format resolution sys) (hinv : Moved format bound plain sys)
    (hacts : AppendsOnly acts) (hinterrupt : NoInterrupt acts)
    (hbound : ∀ hotStart ∈ hotStarts acts, hotStart ≤ bound)
    (hrun : Transition.run (step format resolution) sys acts = some final) :
    Moved format bound (writersOnly format resolution acts plain) final := by
  induction acts generalizing plain sys with
  | nil =>
      cases hrun
      exact hinv
  | cons act rest ih =>
      obtain ⟨next, hnext, hrest⟩ := Transition.run_cons hrun
      have hone := moved_step hsystem hinv (hacts act (by simp)) (hinterrupt act (by simp))
        (fun hotStart heq => hbound hotStart (by subst heq; simp [hotStarts])) hnext
      exact ih (step_inv hsystem hnext) hone (fun other hother => hacts other (by simp [hother]))
        (fun other hother => hinterrupt other (by simp [hother]))
        (fun hotStart hmem => hbound hotStart (by
          cases act <;> simp_all [hotStarts])) hrest

/-- A compacted series holds the same sequence of records as the single file. -/
theorem Moved.records_eq {bound : Int} {plain : Series} {sys : System}
    (hinv : Moved format bound plain sys) (hplain : SingleFile format plain)
    (hwf : sys.series.WF format resolution)
    (hsegments : SegmentsIncreasing format sys.series)
    (hrecords : Increasing format (records format plain)) :
    records format sys.series = records format plain := by
  obtain ⟨front, hreplica, harchived, -⟩ := hinv.front
  have hnone : archived format plain = [] := by simp [archived, hplain.segments]
  have hsplit : records format plain =
      front.filter (fun line => (lineTs format line).isSome) ++
        validLines format sys.series.activeContent := by
    rw [Store.records_eq, hnone, List.nil_append, hreplica.validLines_active]
  rw [Store.records_eq, hsplit]
  congr 1
  refine Increasing.eq_of_mem_iff lineBefore_asymm (increasing_archived hwf hsegments)
    (List.pairwise_append.mp (hsplit ▸ hrecords)).1 fun line => ?_
  rw [List.mem_filter]
  constructor
  · intro hline
    obtain ⟨entry, -, hentry⟩ := mem_archived.mp hline
    exact ⟨harchived line hline, (mem_validLines.mp hentry).2⟩
  · exact fun hline => hreplica.kept line (Or.inr hline)

/-- Compaction is transparent to readers: whatever attempts have run on the
series, at any starts that are not behind the reader's day, the filtered stream
and `query` give what they give on the same records in one file, and no segment
with a point in the window is skipped. -/
theorem compaction_is_transparent (s : PeriodSeries format resolution)
    (hs : SingleFile format s.val) (acts : List (Act V)) (sys : System)
    (hrun : Transition.run (step format resolution) (System.start s.val) acts = some sys)
    (hacts : AppendsOnly acts) (hinterrupt : NoInterrupt acts)
    (hrecords : Increasing format (records format (writersOnly format resolution acts s.val)))
    (now : Int) (hnow : ∀ start ∈ hotStarts acts, start ≤ hotStart now) :
    let plain := writersOnly format resolution acts s.val
    (∀ since until_, points format since until_
        (iterSeriesLines resolution now since until_ sys.series) =
      points format since until_ (iterSeriesLines resolution now since until_ plain)) ∧
    (∀ since until_ limit latest cache plainCache, Coherent sys.series.segments cache →
      (query format resolution now since until_ limit latest sys.series cache).1 =
        (query format resolution now since until_ limit latest plain plainCache).1) ∧
    Visible format resolution now sys.series := by
  intro plain
  have hsystem := run_inv (start_inv s.property) hrun
  have hplain : SingleFile format plain := hs.writersOnly hacts
  have hmoved : Moved format (hotStart now) plain sys := by
    refine moved_run (start_inv s.property) ⟨⟨[], .refl s.val, ?_, by simp⟩, fun st hst => by cases hst⟩
      hacts hinterrupt hnow hrun
    simp [System.start, archived, hs.segments]
  obtain ⟨_, hcrash⟩ := crash_run (.start s.property False 0) hacts (fun h => h.elim) hrun
  have hsame : records format sys.series = records format plain :=
    hmoved.records_eq hplain hsystem.wf
      (hcrash.ordered (hrecords.sublist (wholeRecords_sublist _))) hrecords
  obtain ⟨front, hreplica, harchived, hold⟩ := hmoved.front
  have hvisible : Visible format resolution now sys.series :=
    visible_of_lt hsystem.wf fun line hline ts hts => hold line (harchived line hline) ts hts
  have hplainVisible : Visible format resolution now plain := by
    intro since until_ entry hentry
    rw [hplain.segments] at hentry
    simp at hentry
  have hplainWf : plain.WF format resolution := s.property.writersOnly acts
  have hactive : ∀ line ∈ rawLines sys.series.activeContent, (lineTs format line).isSome := by
    intro line hline
    refine (hplain.lines line ?_).2
    rw [hreplica.content, rawLines, Lines.rawLines_append (Lines.complete_flatten hreplica.lines)]
    exact List.mem_append_right _ hline
  refine ⟨fun since until_ => ?_, fun since until_ limit latest cache plainCache hcache => ?_,
    hvisible⟩
  · rw [points_iterSeriesLines hvisible, points_iterSeriesLines hplainVisible, hsame]
  · rw [query_eq_of_visible ⟨sys.series, hsystem.wf⟩ hvisible hactive hcache,
      query_eq_of_visible ⟨plain, hplainWf⟩ hplainVisible
        (fun line hline => (hplain.lines line hline).2)
        (by rw [hplain.segments]; exact fun _ _ entry hentry => by simp at hentry), hsame]

/-- One day compacted, one day active, and the window of the first day. -/
theorem compaction_is_transparent_two_days :
    ∃ sys, Transition.run (step JsonLine.format .raw) (System.start Series.empty)
        [.write (.append 0 1), .write (.append 90000000000 2), .stat 86400000000, .scan, .plan,
          .stage, .commit] = some sys ∧
      (query JsonLine.format .raw 100000000000 (some 0) (some 86400000000) 10 false
        sys.series []).1 = [⟨0, 1⟩] := by
  have hsome : (Transition.run (step JsonLine.format .raw) (System.start Series.empty)
      [.write (.append 0 1), .write (.append 90000000000 2), .stat 86400000000, .scan, .plan,
        .stage, .commit]).isSome = true := by decide +kernel
  obtain ⟨sys, hrun⟩ := Option.isSome_iff_exists.mp hsome
  have hacts : AppendsOnly ([.write (.append 0 1), .write (.append 90000000000 2),
      .stat 86400000000, .scan, .plan, .stage, .commit] : List (Act (Fin 10))) := by
    intro act hact write hwrite
    subst hwrite
    simp only [List.mem_cons, Act.write.injEq, reduceCtorEq, List.not_mem_nil, or_false] at hact
    rcases hact with rfl | rfl <;> exact ⟨_, _, rfl⟩
  obtain ⟨-, hquery, -⟩ := compaction_is_transparent ⟨Series.empty, wf_empty⟩
    ⟨rfl, by simp [Series.empty, Series.activeContent]⟩ _ sys hrun hacts
    (by intro act hact published; rintro rfl; simp at hact) (by decide +kernel) 100000000000
    (by decide)
  refine ⟨sys, hrun, ?_⟩
  rw [hquery _ _ _ _ [] [] (coherent_nil _)]
  decide +kernel

end Justup.Store
