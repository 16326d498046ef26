import Justup.Store.SeriesView

/-!
# Series in order

A series whose points were appended in the order of their times is the list of
its points: an append adds one at the end, a prune drops those below the cutoff,
a compaction changes nothing, and readers of a window get the points in it.
-/

namespace Justup.Store

open Justup.Lib

variable {V : Type*} {format : LineFormat V} {resolution : Resolution}

/-- The times of the points increase. -/
def Chronological (list : List (Point V)) : Prop :=
  list.Pairwise fun first second => first.ts < second.ts

theorem Chronological.nodup {list : List (Point V)} (hlist : Chronological list) :
    list.Nodup :=
  hlist.imp fun {first second} hlt heq => absurd hlt (by rw [heq]; exact lt_irrefl _)

/-- Records are in order when their points are. -/
theorem increasing_iff_chronological {lines : List Text}
    (hlines : ∀ line ∈ lines, (lineTs format line).isSome) :
    Increasing format lines ↔ Chronological (points format none none lines) := by
  rw [Increasing, Chronological, points, List.pairwise_filterMap]
  apply List.Pairwise.iff_of_mem
  intro first second hfirst hsecond
  obtain ⟨point, hpoint⟩ := Option.isSome_iff_exists.mp (isSome_parsePoint (hlines first hfirst))
  obtain ⟨other, hother⟩ := Option.isSome_iff_exists.mp (isSome_parsePoint (hlines second hsecond))
  rw [LineBefore, lineTs_of_parsePoint hpoint, lineTs_of_parsePoint hother, hpoint, hother]
  simp

theorem valid_of_mem_records {s : Series} {line : Text} (hline : line ∈ records format s) :
    (lineTs format line).isSome := by
  rcases mem_records.mp hline with ⟨entry, -, hmem⟩ | hmem
  · exact (mem_validLines.mp hmem).2
  · exact (mem_validLines.mp hmem).2

/-! ## Prunes of series in order -/

/-- The timestamps that a scan finds are those of the points. -/
theorem filterMap_lineTs (lines : List Text) :
    lines.filterMap (lineTs format) = (points format none none lines).map Point.ts := by
  rw [points, List.map_filterMap]
  exact List.filterMap_congr fun line _ => lineTs_eq_parsePoint format line

theorem Chronological.filter_eq_self {list : List (Point V)} (hlist : Chronological list)
    {cutoff : Int} (hhead : ∀ first ∈ list.head?, cutoff ≤ first.ts) :
    list.filter (fun point => decide (cutoff ≤ point.ts)) = list := by
  refine List.filter_eq_self.mpr fun point hpoint => decide_eq_true ?_
  cases list with
  | nil => cases hpoint
  | cons first rest =>
      have hfirst := hhead first rfl
      rcases List.mem_cons.mp hpoint with heq | hrest
      · rw [heq]
        exact hfirst
      · exact hfirst.trans ((List.pairwise_cons.mp hlist).1 point hrest).le

/-- A trimmed segment passes its verification. -/
theorem verifySegment_unexpired (format : LineFormat V) (cutoff : Int) {content : Text}
    (hcontent : Lines.Complete '\n' content) :
    verifySegment format (writeMember (unexpired format cutoff content))
      (unexpired format cutoff content).length
      ((unexpired format cutoff content).filterMap (lineTs format)).max? = true := by
  have hlength : ((unexpired format cutoff content).filterMap (lineTs format)).length =
      (unexpired format cutoff content).length := by
    rw [List.length_filterMap_eq_countP, List.countP_eq_length]
    intro line hline
    obtain ⟨-, ts, hts, -⟩ := mem_unexpired.mp hline
    rw [Option.mem_def.mp hts]
    rfl
  simp [verifySegment, segmentInfo, rawLines_writeMember_unexpired cutoff hcontent, hlength]

/-- A segment in order is trimmed exactly. -/
theorem trimSegment_exact (cutoff : Int) {key : PeriodKey} {segment : Segment}
    (hcomplete : Lines.Complete '\n' segment.content)
    (hplaced : ∀ line ∈ rawLines segment.content, ∀ ts ∈ lineTs format line,
      periodKey resolution ts = key)
    (hchron : Chronological (points format none none (rawLines segment.content)))
    (hundamaged : segment.damaged = false) :
    trimSegment format resolution cutoff key segment ≠ .fail ∧
      trimPoints format segment (trimSegment format resolution cutoff key segment) =
        (points format none none (rawLines segment.content)).filter fun point =>
          decide (cutoff ≤ point.ts) := by
  have hverify := verifySegment_unexpired format cutoff hcomplete
  have hunexpired := points_unexpired format cutoff segment.content
  have hhead : firstTs format segment.content =
      (points format none none (rawLines segment.content)).head?.map Point.ts := by
    rw [firstTs, filterMap_lineTs, List.head?_map]
  have hdelete : (periodBounds resolution key).2 ≤ cutoff →
      (points format none none (rawLines segment.content)).filter
        (fun point => decide (cutoff ≤ point.ts)) = [] := by
    intro hend
    refine List.filter_eq_nil_iff.mpr fun point hpoint => ?_
    have hlt := (bounds_of_placed hplaced hpoint).2
    simp only [decide_eq_true_eq]
    omega
  have hkeep : cutoff ≤ (periodBounds resolution key).1 →
      (points format none none (rawLines segment.content)).filter
        (fun point => decide (cutoff ≤ point.ts)) =
          points format none none (rawLines segment.content) := fun hstart =>
    List.filter_eq_self.mpr fun point hpoint =>
      decide_eq_true (hstart.trans (bounds_of_placed hplaced hpoint).1)
  unfold trimSegment
  cases hfirst : firstTs format segment.content with
  | none =>
      rw [hhead, Option.map_eq_none_iff, List.head?_eq_none_iff] at hfirst
      dsimp only
      split_ifs with hend hstart
      · exact ⟨by simp, (hdelete hend).symm⟩
      · exact ⟨by simp, (hkeep hstart).symm⟩
      · refine ⟨by simp, ?_⟩
        rw [trimPoints, hfirst]
        rfl
  | some first =>
      rw [hhead] at hfirst
      simp only [hundamaged, Bool.false_eq_true, if_false, hverify, if_true]
      split_ifs with hend hstart hnew hempty
      · exact ⟨by simp, (hdelete hend).symm⟩
      · exact ⟨by simp, (hkeep hstart).symm⟩
      · refine ⟨by simp, ?_⟩
        rw [trimPoints, hchron.filter_eq_self]
        intro point hpoint
        rw [Option.mem_def.mp hpoint, Option.map_some, Option.some.injEq] at hfirst
        omega
      · refine ⟨by simp, ?_⟩
        rw [trimPoints, ← hunexpired, List.isEmpty_iff.mp hempty]
        rfl
      · refine ⟨by simp, ?_⟩
        rw [trimPoints, rawLines_writeMember_unexpired cutoff hcomplete, hunexpired]

theorem pruneSegments_exact (cutoff : Int) {segments : List (PeriodKey × Segment)}
    (hcomplete : ∀ entry ∈ segments, Lines.Complete '\n' entry.2.content)
    (hplaced : ∀ entry ∈ segments, ∀ line ∈ rawLines entry.2.content,
      ∀ ts ∈ lineTs format line, periodKey resolution ts = entry.1)
    (hchron : Chronological (segmentPoints format segments))
    (hundamaged : ∀ entry ∈ segments, entry.2.damaged = false) (stamp : Nat) :
    (pruneSegments format resolution cutoff segments stamp).2.2 = true ∧
      (∀ entry ∈ (pruneSegments format resolution cutoff segments stamp).1,
        entry.2.damaged = false) ∧
      segmentPoints format (pruneSegments format resolution cutoff segments stamp).1 =
        (segmentPoints format segments).filter fun point => decide (cutoff ≤ point.ts) := by
  induction segments generalizing stamp with
  | nil => exact ⟨rfl, by simp [pruneSegments], rfl⟩
  | cons head rest ih =>
      obtain ⟨key, segment⟩ := head
      have hsplit : segmentPoints format ((key, segment) :: rest) =
          points format none none (rawLines segment.content) ++ segmentPoints format rest := rfl
      obtain ⟨hfirst, hlater, -⟩ := List.pairwise_append.mp (hsplit ▸ hchron)
      have hdamaged := hundamaged (key, segment) (by simp)
      obtain ⟨hok, hpoints⟩ := trimSegment_exact cutoff (hcomplete (key, segment) (by simp))
        (hplaced (key, segment) (by simp)) hfirst hdamaged
      have hrest := ih (fun entry hentry => hcomplete entry (by simp [hentry]))
        (fun entry hentry => hplaced entry (by simp [hentry])) hlater
        (fun entry hentry => hundamaged entry (by simp [hentry]))
      rw [hsplit, List.filter_append, ← hpoints, pruneSegments]
      cases htrim : trimSegment format resolution cutoff key segment with
      | fail => exact absurd htrim hok
      | keep =>
          obtain ⟨hdone, hkept, hleft⟩ := hrest stamp
          refine ⟨hdone, ?_, ?_⟩
          · exact List.forall_mem_cons.mpr ⟨hdamaged, hkept⟩
          · rw [← hleft]
            rfl
      | delete =>
          obtain ⟨hdone, hkept, hleft⟩ := hrest stamp
          exact ⟨hdone, hkept, hleft⟩
      | rewrite content =>
          obtain ⟨hdone, hkept, hleft⟩ := hrest (stamp + 1)
          refine ⟨hdone, ?_, ?_⟩
          · exact List.forall_mem_cons.mpr ⟨rfl, hkept⟩
          · rw [← hleft]
            rfl

/-- The first point of a file in order that has no expired head is not expired. -/
theorem le_of_hasExpiredHead {cutoff : Int} {content : Text}
    (hhead : hasExpiredHead format cutoff content = false) {first : Point V}
    (hfirst : first ∈ (points format none none (rawLines content)).head?) : cutoff ≤ first.ts := by
  have hsplit : points format none none (rawLines content) =
      points format none none ((rawLines content).take probeLines) ++
        points format none none ((rawLines content).drop probeLines) := by
    rw [← points_append, List.take_append_drop]
  rw [hasExpiredHead, filterMap_lineTs] at hhead
  cases hprobe : points format none none ((rawLines content).take probeLines) with
  | nil =>
      rw [hprobe] at hhead
      have hempty : content = [] := by simpa using hhead
      rw [hempty] at hfirst
      cases hfirst
  | cons point rest =>
      rw [hsplit, hprobe] at hfirst
      rw [hprobe] at hhead
      cases hfirst
      simpa using hhead

/-- An active file in order is pruned exactly. -/
theorem pruneActive_exact (cutoff : Int) {s : Series}
    (hchron : Chronological (points format none none (rawLines s.activeContent))) :
    points format none none (rawLines (pruneActive format cutoff s).activeContent) =
      (points format none none (rawLines s.activeContent)).filter fun point =>
        decide (cutoff ≤ point.ts) := by
  unfold pruneActive
  cases hactive : s.active with
  | none =>
      dsimp only
      rw [Series.activeContent, hactive]
      rfl
  | some file =>
      have hcontent : s.activeContent = file.content := by rw [Series.activeContent, hactive]
      rw [hcontent] at hchron ⊢
      dsimp only
      split_ifs with hhead hsame hnone
      · rw [hcontent, hchron.filter_eq_self]
        exact fun first hfirst => le_of_hasExpiredHead (by simpa using hhead) hfirst
      · rw [hcontent, List.filter_eq_self.mpr]
        intro point hpoint
        obtain ⟨line, hline, hparse⟩ := List.mem_filterMap.mp hpoint
        rw [keptLines, List.length_map, List.length_filter_eq_length_iff] at hsame
        have hkept := hsame line hline
        rw [lineTs_strip, lineTs_of_parsePoint hparse] at hkept
        simpa using hkept
      · rw [← points_keptLines, List.isEmpty_iff.mp hnone]
        rfl
      · exact points_keptLines cutoff file.content

/-! ## Systems in order -/

theorem undamaged_foldl_publish (plans : List Plan) {s : Series}
    (hs : ∀ entry ∈ s.segments, entry.2.damaged = false) :
    ∀ entry ∈ (plans.foldl publish s).segments, entry.2.damaged = false := by
  induction plans generalizing s with
  | nil => exact hs
  | cons plan rest ih =>
      refine ih fun entry hentry => ?_
      rcases Dict.mem_alter hentry with hold | ⟨-, hnew | ⟨old, -, hnew⟩⟩
      · exact hs entry hold
      · rw [hnew]
      · rw [hnew]

theorem mem_segmentPoints {s : Series} {point : Point V} :
    point ∈ segmentPoints format s.segments ↔
      ∃ line ∈ archived format s, parsePoint format none none line = some point := by
  rw [← points_flatMap, ← points_filter_valid, List.filter_flatMap, points, List.mem_filterMap]
  rfl

/-- A series in order with the attempt at work on it; everything older than
`bound` may have been archived. -/
structure Orderly (format : LineFormat V) (resolution : Resolution) (bound : Int)
    (sys : System) : Prop where
  system : SystemInv format resolution sys
  chronological : Chronological (allPoints format sys.series)
  complete : Lines.Complete '\n' sys.series.activeContent
  valid : ∀ line ∈ rawLines sys.series.activeContent, (lineTs format line).isSome
  undamaged : ∀ entry ∈ sys.series.segments, entry.2.damaged = false
  archived : ∀ point ∈ segmentPoints format sys.series.segments, point.ts < bound
  attempt : ∀ st ∈ sys.attempt.stat?, st.hotStart ≤ bound

namespace Orderly

variable {bound : Int} {sys next : System}

theorem empty (bound : Int) : Orderly format resolution bound (System.start Series.empty) where
  system := start_inv wf_empty
  chronological := List.Pairwise.nil
  complete := Lines.complete_nil
  valid := by simp [System.start, Series.empty, Series.activeContent]
  undamaged := by simp [System.start, Series.empty]
  archived := by simp [System.start, Series.empty, segmentPoints]
  attempt := by simp [System.start, Attempt.stat?]

theorem mono {later : Int} (horderly : Orderly format resolution bound sys)
    (hle : bound ≤ later) : Orderly format resolution later sys :=
  { horderly with
    archived := fun point hpoint => (horderly.archived point hpoint).trans_le hle
    attempt := fun st hst => (horderly.attempt st hst).trans hle }

/-- Appending later points. -/
theorem append (horderly : Orderly format resolution bound sys) {items : List (Int × V)}
    (hitems : Chronological (allPoints format sys.series ++
      items.map fun item => ⟨item.1, item.2⟩)) :
    Orderly format resolution bound { sys with
      series := sys.series.append
        (items.map fun item => recordLine format item.1 item.2).flatten } ∧
      allPoints format (sys.series.append
        (items.map fun item => recordLine format item.1 item.2).flatten) =
        allPoints format sys.series ++ items.map fun item => ⟨item.1, item.2⟩ := by
  have hlines : ∀ line ∈ items.map (fun item => recordLine format item.1 item.2),
      Lines.IsLine '\n' line ∧ (lineTs format line).isSome := by
    intro line hline
    obtain ⟨item, -, rfl⟩ := List.mem_map.mp hline
    rw [lineTs_recordLine]
    exact ⟨isLine_recordLine format item.1 item.2, rfl⟩
  have hpoints : allPoints format (sys.series.append
      (items.map fun item => recordLine format item.1 item.2).flatten) =
      allPoints format sys.series ++ items.map fun item => ⟨item.1, item.2⟩ := by
    rw [allPoints_append horderly.complete, points_recordLines]
  refine ⟨{ system := systemInv_append horderly.system _
            chronological := by rw [hpoints]; exact hitems
            complete := ?_
            valid := ?_
            undamaged := by simpa using horderly.undamaged
            archived := by simpa using horderly.archived
            attempt := horderly.attempt }, hpoints⟩
  · rw [activeContent_append]
    exact horderly.complete.append (Lines.complete_flatten fun line hline => (hlines line hline).1)
  · intro line hline
    rw [activeContent_append, rawLines, Lines.rawLines_append horderly.complete,
      Lines.rawLines_flatten_of_lines fun line hline => (hlines line hline).1] at hline
    rcases List.mem_append.mp hline with hold | hnew
    · exact horderly.valid line hold
    · exact (hlines line hnew).2

/-- The prune on the append path. -/
theorem prune (horderly : Orderly format resolution bound sys) (cutoff : Int) :
    Orderly format resolution bound
      { sys with series := pruneActive format cutoff sys.series } where
  system := @step_inv _ _ _ _ _ (.write (.prune cutoff)) horderly.system rfl
  chronological := horderly.chronological.sublist (retains_pruneActive cutoff _).sublist
  complete := complete_pruneActive horderly.complete cutoff
  valid := valid_pruneActive horderly.valid cutoff
  undamaged := by simpa using horderly.undamaged
  archived := by simpa using horderly.archived
  attempt := horderly.attempt

/-- `prune_series` drops exactly the expired points. -/
theorem pruneSeries (horderly : Orderly format resolution bound sys) (cutoff : Int) :
    Orderly format resolution bound
      { sys with series := pruneSeries format resolution cutoff sys.series } ∧
      allPoints format (Store.pruneSeries format resolution cutoff sys.series) =
        (allPoints format sys.series).filter fun point => decide (cutoff ≤ point.ts) := by
  have hwf := horderly.system.wf
  have hsplit := horderly.chronological
  rw [allPoints_eq] at hsplit
  obtain ⟨hsegments, hactive, -⟩ := List.pairwise_append.mp hsplit
  obtain ⟨hdone, hundamaged, hleft⟩ := pruneSegments_exact cutoff hwf.complete hwf.placed
    hsegments horderly.undamaged sys.series.stamp
  have hseries : Store.pruneSeries format resolution cutoff sys.series =
      pruneActive format cutoff (trimmed format resolution cutoff sys.series) := by
    rw [Store.pruneSeries, if_pos hdone]
  have htrimmed : (trimmed format resolution cutoff sys.series).activeContent =
      sys.series.activeContent := rfl
  have hpoints : allPoints format (Store.pruneSeries format resolution cutoff sys.series) =
      (allPoints format sys.series).filter fun point => decide (cutoff ≤ point.ts) := by
    have hleftActive := @pruneActive_exact _ format cutoff
      (trimmed format resolution cutoff sys.series) hactive
    rw [allPoints_eq, segments_pruneSeries, hleft, hseries, hleftActive, htrimmed,
      ← List.filter_append, ← allPoints_eq]
  refine ⟨{ system := @step_inv _ _ _ _ _ (.write (.pruneSeries cutoff)) horderly.system rfl
            chronological := by rw [hpoints]; exact horderly.chronological.filter _
            complete := ?_
            valid := ?_
            undamaged := by rw [segments_pruneSeries]; exact hundamaged
            archived := ?_
            attempt := horderly.attempt }, hpoints⟩
  · rw [hseries]
    exact complete_pruneActive (htrimmed ▸ horderly.complete) cutoff
  · rw [hseries]
    exact valid_pruneActive (htrimmed ▸ horderly.valid) cutoff
  · intro point hpoint
    rw [segments_pruneSeries, hleft] at hpoint
    exact horderly.archived point (List.mem_filter.mp hpoint).1

/-- A step of a compaction changes no point. -/
theorem compact (horderly : Orderly format resolution bound sys) {act : Act V}
    (hwrite : ∀ write, act ≠ .write write) (hinterrupt : ∀ published, act ≠ .interrupt published)
    (hstat : ∀ hotStart, act = .stat hotStart → hotStart ≤ bound)
    (hstep : step format resolution sys act = some next) :
    Orderly format resolution bound next ∧
      allPoints format next.series = allPoints format sys.series := by
  have hsystem := step_inv horderly.system hstep
  have hquiet : next.series = sys.series → (∀ st ∈ next.attempt.stat?, st.hotStart ≤ bound) →
      Orderly format resolution bound next ∧
        allPoints format next.series = allPoints format sys.series := by
    intro hseries hattempt
    exact ⟨⟨hsystem, hseries ▸ horderly.chronological, hseries ▸ horderly.complete,
      hseries ▸ horderly.valid, hseries ▸ horderly.undamaged, hseries ▸ horderly.archived,
      hattempt⟩, by rw [hseries]⟩
  rcases step_cases hstep with ⟨write, hact, -⟩ | ⟨published, hact, -⟩ | ⟨-, hadvance⟩
  · exact absurd hact (hwrite write)
  · exact absurd hact (hinterrupt published)
  · rcases advance_cases hadvance with ⟨hotStart, hact, -, hseries, hnoted⟩ |
      ⟨-, -, hseries, hnoted, -⟩ | ⟨st, plans, remainder, moved, -, hattempt, hmay, rfl⟩
    · exact hquiet hseries fun st hst => (hnoted st hst).1 ▸ hstat hotStart hact
    · exact hquiet hseries fun st hst => horderly.attempt st (hnoted st hst)
    · obtain ⟨closed, hcommit⟩ := committable (hattempt ▸ horderly.system.attempt) hmay
      have hhot : st.hotStart ≤ bound := horderly.attempt st (by rw [hattempt]; rfl)
      have hincreasing := (increasing_iff_chronological (fun line hline =>
        valid_of_mem_records hline)).mpr horderly.chronological
      have hpoints : allPoints format (commitSeries plans remainder st.size sys.series) =
          allPoints format sys.series := by
        rw [allPoints, hcommit.records_of_increasing horderly.system.wf hincreasing, ← allPoints]
      have hcontent := hcommit.active
      refine ⟨{ system := hsystem
                chronological := hpoints ▸ horderly.chronological
                complete := ?_
                valid := ?_
                undamaged := ?_
                archived := ?_
                attempt := fun st hst => by cases hst }, hpoints⟩
      · have hold := horderly.complete
        rw [hcontent] at hold
        exact hold.of_append
      · intro line hline
        refine horderly.valid line ?_
        rw [hcontent, rawLines, Lines.rawLines_append
          (Lines.complete_flatten fun line hline => (hcommit.isClosed line hline).1)]
        exact List.mem_append_right _ hline
      · exact undamaged_foldl_publish plans horderly.undamaged
      · intro point hpoint
        obtain ⟨line, hline, hparse⟩ := mem_segmentPoints.mp hpoint
        rcases (hcommit.mem_archived horderly.system.wf).mp hline with hold | ⟨hmem, -⟩
        · exact horderly.archived point (mem_segmentPoints.mpr ⟨line, hold, hparse⟩)
        · exact ((hcommit.isClosed line hmem).2 point.ts
            (lineTs_of_parsePoint hparse)).trans_le hhot

/-- What readers of a window get. -/
theorem points_iterSeriesLines (horderly : Orderly format resolution bound sys) {now : Int}
    (hnow : bound ≤ hotStart now) (lo hi : Int) :
    points format (some lo) (some (hi - 1))
        (iterSeriesLines resolution now (some lo) (some hi) sys.series) =
      (allPoints format sys.series).filter fun point =>
        decide (lo ≤ point.ts) && decide (point.ts < hi) := by
  have hvisible : Visible format resolution now sys.series := by
    refine visible_of_lt horderly.system.wf fun line hline ts hts => ?_
    obtain ⟨point, hparse⟩ := Option.isSome_iff_exists.mp
      (isSome_parsePoint (by rw [Option.mem_def.mp hts]; rfl : (lineTs format line).isSome))
    have hlt := horderly.archived point (mem_segmentPoints.mpr ⟨line, hline, hparse⟩)
    rw [lineTs_of_parsePoint hparse] at hts
    cases hts
    exact hlt.trans_le hnow
  have hinner : ∀ lines, points format (some lo) (some (hi - 1)) lines =
      (points format (some lo) (some hi) lines).filter (inWindow (some lo) (some (hi - 1))) := by
    intro lines
    rw [points_window, points_window (some lo) (some hi), List.filter_filter]
    refine List.filter_congr fun point _ => ?_
    simp only [inWindow, Option.any_some]
    by_cases hhigh : hi - 1 < point.ts
    · simp [hhigh]
    · simp [hhigh, show ¬ hi < point.ts by omega]
  rw [hinner, Store.points_iterSeriesLines hvisible, ← hinner, points_window, ← allPoints]
  refine List.filter_congr fun point _ => ?_
  simp only [inWindow, Option.any_some, ← decide_not, ← Bool.decide_and]
  exact decide_eq_decide.mpr (by omega)

end Orderly

end Justup.Store
