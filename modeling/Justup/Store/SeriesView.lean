import Justup.Lib.Retention
import Justup.Store.QueryCompacted

/-!
# The points of a series

A series seen as the list of its points: what `query` without bounds returns,
and what appends, prunes and compactions make of it.
-/

namespace Justup.Store

open Justup.Lib

variable {V : Type*} {format : LineFormat V} {resolution : Resolution}

/-- The points of all the records of a series. -/
def allPoints (format : LineFormat V) (s : Series) : List (Point V) :=
  points format none none (records format s)

theorem allPoints_eq (s : Series) :
    allPoints format s =
      segmentPoints format s.segments ++ points format none none (rawLines s.activeContent) := by
  rw [allPoints, points_records]
  rfl

theorem mem_allPoints {s : Series} {point : Point V} :
    point ∈ allPoints format s ↔
      ∃ line ∈ records format s, parsePoint format none none line = some point := by
  rw [allPoints, points, List.mem_filterMap]

@[simp]
theorem allPoints_empty : allPoints format Series.empty = [] := rfl

/-- `query` without bounds and with room for all of them returns the points. -/
theorem query_allPoints (now : Int) {limit : Nat} {s : Series}
    (hlimit : (allPoints format s).length ≤ limit) (cache : TailCache) :
    (query format resolution now none none limit false s cache).1 = allPoints format s := by
  have hlines : iterSeriesLines resolution now none none s =
      s.segments.flatMap (fun entry => rawLines entry.2.content) ++ rawLines s.activeContent :=
    iterSeriesLines_of_overlaps fun entry _ => by simp [overlaps]
  have hpoints : points format none none (iterSeriesLines resolution now none none s) =
      allPoints format s := by
    rw [hlines, points_append, points_flatMap, allPoints_eq]
  have hzero : limit = 0 → allPoints format s = [] := by
    intro heq
    exact List.eq_nil_of_length_eq_zero (by omega)
  unfold query
  split_ifs with hempty hlimit0 hlatest
  · obtain ⟨hsegments, hactive⟩ : s.segments = [] ∧ s.active = none := by simpa using hempty
    rw [allPoints_eq, hsegments, Series.activeContent, hactive]
    rfl
  · exact (hzero hlimit0).symm
  · simp at hlatest
  · dsimp only [queryStream]
    rw [if_neg Bool.false_ne_true, collectHead_eq none none _ [] (Nat.pos_of_ne_zero hlimit0),
      List.nil_append, hpoints, List.take_of_length_le hlimit]

/-! ## Appends -/

theorem systemInv_append {sys : System} (hinv : SystemInv format resolution sys) (text : Text) :
    SystemInv format resolution { sys with series := sys.series.append text } :=
  ⟨hinv.wf.append text, hinv.attempt.disturbed (disturbed_append text _)⟩

/-- Every record ends with a line end. -/
def Terminated (format : LineFormat V) (content : Text) : Prop :=
  ∀ line ∈ validLines format content, Lines.IsLine '\n' line

theorem terminated_of_complete {content : Text} (hcontent : Lines.Complete '\n' content) :
    Terminated format content :=
  fun _ hline => Lines.isLine_of_mem_rawLines hcontent (mem_validLines.mp hline).1

theorem allPoints_append {s : Series} (hcomplete : Lines.Complete '\n' s.activeContent)
    (text : Text) :
    allPoints format (s.append text) =
      allPoints format s ++ points format none none (rawLines text) := by
  rw [allPoints_eq, allPoints_eq, segments_append, activeContent_append, rawLines,
    Lines.rawLines_append hcomplete, points_append, List.append_assoc]

/-- The points of lines as they are written. -/
theorem points_recordLines (format : LineFormat V) (items : List (Int × V)) :
    points format none none
        (rawLines (items.map fun item => recordLine format item.1 item.2).flatten) =
      items.map fun item => ⟨item.1, item.2⟩ := by
  have hlines : ∀ line ∈ items.map (fun item => recordLine format item.1 item.2),
      Lines.IsLine '\n' line := by
    intro line hline
    obtain ⟨item, -, rfl⟩ := List.mem_map.mp hline
    exact isLine_recordLine format item.1 item.2
  rw [rawLines, Lines.rawLines_flatten_of_lines hlines, points, List.filterMap_map,
    ← List.filterMap_eq_map]
  refine List.filterMap_congr fun item _ => ?_
  exact parsePoint_recordLine format item.1 item.2

theorem allPoints_appendPoint {s : Series} (hcomplete : Lines.Complete '\n' s.activeContent)
    (ts : Int) (value : V) :
    allPoints format (appendPoint format ts value s) = allPoints format s ++ [⟨ts, value⟩] := by
  have hline := points_recordLines format [(ts, value)]
  rw [List.map_singleton, List.flatten_singleton] at hline
  rw [appendPoint, allPoints_append hcomplete, hline]
  rfl

/-- A text behind terminated records leaves them readable. -/
theorem mem_allPoints_append {s : Series} (hterminated : Terminated format s.activeContent)
    (text : Text) {point : Point V} (hpoint : point ∈ allPoints format s) :
    point ∈ allPoints format (s.append text) := by
  obtain ⟨line, hline, hparse⟩ := mem_allPoints.mp hpoint
  refine mem_allPoints.mpr ⟨line, ?_, hparse⟩
  rw [records_eq, List.mem_append] at hline ⊢
  refine hline.imp (fun harchived => ?_) fun hactive => ?_
  · rw [archived, segments_append]
    exact harchived
  · obtain ⟨hmem, hvalid⟩ := mem_validLines.mp hactive
    have hwhole := Lines.mem_wholeLines.mpr ⟨hmem, hterminated line hactive⟩
    have hgrown := (Lines.wholeLines_isPrefix_append s.activeContent text).subset hwhole
    rw [activeContent_append]
    exact mem_validLines.mpr ⟨(Lines.mem_wholeLines.mp hgrown).1, hvalid⟩

/-! ## Prunes -/

theorem points_keptLines (cutoff : Int) (content : Text) :
    points format none none (rawLines (keptLines format cutoff content).flatten) =
      (points format none none (rawLines content)).filter fun point =>
        decide (cutoff ≤ point.ts) := by
  rw [rawLines_keptLines, keptLines, points, List.filterMap_map, List.filterMap_filter, points, ← List.filterMap_eq_filter, List.filterMap_filterMap]
  refine List.filterMap_congr fun line _ => ?_
  rw [Function.comp_apply, parsePoint_snoc_newline, parsePoint_strip, lineTs_strip,
    lineTs_eq_parsePoint]
  cases parsePoint format none none line with
  | none => rfl
  | some point =>
      by_cases hlt : point.ts < cutoff
      · simp [Option.guard, hlt]
      · simp [Option.guard, hlt, not_lt.mp hlt]

/-- The prune of the active file drops expired points of it only. -/
theorem allPoints_pruneActive_cases (format : LineFormat V) (cutoff : Int) (s : Series) :
    allPoints format (pruneActive format cutoff s) = allPoints format s ∨
      allPoints format (pruneActive format cutoff s) = segmentPoints format s.segments ++
        (points format none none (rawLines s.activeContent)).filter fun point =>
          decide (cutoff ≤ point.ts) := by
  unfold pruneActive
  cases hactive : s.active with
  | none => exact Or.inl rfl
  | some file =>
      have hcontent : s.activeContent = file.content := by rw [Series.activeContent, hactive]
      dsimp only
      split_ifs with hhead hsame hnone
      · exact Or.inl rfl
      · exact Or.inl rfl
      · refine Or.inr ?_
        rw [allPoints_eq, hcontent, ← points_keptLines, List.isEmpty_iff.mp hnone]
        rfl
      · refine Or.inr ?_
        rw [allPoints_eq, hcontent, ← points_keptLines]
        rfl

theorem retains_pruneActive (cutoff : Int) (s : Series) :
    Retains Point.ts cutoff (allPoints format s)
      (allPoints format (pruneActive format cutoff s)) := by
  rcases allPoints_pruneActive_cases format cutoff s with hsame | hfilter
  · rw [hsame]
    exact Retains.refl _ _ _
  · rw [hfilter, allPoints_eq]
    exact (Retains.refl _ _ _).append (Retains.filter _ _ _)

/-- A point of a line has the timestamp of the line. -/
theorem lineTs_of_parsePoint {line : Text} {point : Point V}
    (hparse : parsePoint format none none line = some point) :
    lineTs format line = some point.ts := by
  rw [lineTs_eq_parsePoint, hparse]
  rfl

/-- The points of a segment lie in its period. -/
theorem bounds_of_placed {key : PeriodKey} {content : Text}
    (hplaced : ∀ line ∈ rawLines content, ∀ ts ∈ lineTs format line,
      periodKey resolution ts = key)
    {point : Point V} (hpoint : point ∈ points format none none (rawLines content)) :
    (periodBounds resolution key).1 ≤ point.ts ∧ point.ts < (periodBounds resolution key).2 := by
  obtain ⟨line, hline, hparse⟩ := List.mem_filterMap.mp hpoint
  rw [← hplaced line hline point.ts (lineTs_of_parsePoint hparse)]
  exact periodBounds_contains resolution point.ts

theorem points_unexpired (format : LineFormat V) (cutoff : Int) (content : Text) :
    points format none none (unexpired format cutoff content) =
      (points format none none (rawLines content)).filter fun point =>
        decide (cutoff ≤ point.ts) := by
  rw [unexpired, points, List.filterMap_filter, points, ← List.filterMap_eq_filter,
    List.filterMap_filterMap]
  refine List.filterMap_congr fun line _ => ?_
  rw [lineTs_eq_parsePoint]
  cases parsePoint format none none line with
  | none => rfl
  | some point =>
      by_cases hle : cutoff ≤ point.ts
      · simp [Option.guard, hle]
      · simp [Option.guard, hle]

/-- The points that a trim leaves of a segment. -/
def trimPoints (format : LineFormat V) (segment : Segment) : Trim → List (Point V)
  | .keep => points format none none (rawLines segment.content)
  | .fail => points format none none (rawLines segment.content)
  | .delete => []
  | .rewrite content => points format none none (rawLines content)

theorem retains_trimSegment (cutoff : Int) {key : PeriodKey} {segment : Segment}
    (hcomplete : Lines.Complete '\n' segment.content)
    (hplaced : ∀ line ∈ rawLines segment.content, ∀ ts ∈ lineTs format line,
      periodKey resolution ts = key) :
    Retains Point.ts cutoff (points format none none (rawLines segment.content))
      (trimPoints format segment (trimSegment format resolution cutoff key segment)) := by
  cases htrim : trimSegment format resolution cutoff key segment with
  | keep => exact Retains.refl _ _ _
  | fail => exact Retains.refl _ _ _
  | rewrite content =>
      rw [trimPoints, trimSegment_rewrite htrim, rawLines_writeMember_unexpired cutoff hcomplete,
        points_unexpired]
      exact Retains.filter _ _ _
  | delete =>
      have hexpired : (periodBounds resolution key).2 ≤ cutoff → Retains Point.ts cutoff
          (points format none none (rawLines segment.content)) [] :=
        fun hend => Retains.nil fun point hpoint =>
          (bounds_of_placed hplaced hpoint).2.trans_le hend
      unfold trimSegment at htrim
      cases hfirst : firstTs format segment.content with
      | none =>
          simp only [hfirst] at htrim
          split_ifs at htrim with hend
          exact hexpired hend
      | some first =>
          simp only [hfirst] at htrim
          split_ifs at htrim with hend hstart hnew hdamaged hempty
          · exact hexpired hend
          · -- no line is left
            have hnone := points_unexpired format cutoff segment.content
            rw [List.isEmpty_iff.mp hempty] at hnone
            rw [trimPoints, show [] = _ from hnone]
            exact Retains.filter _ _ _

theorem retains_pruneSegments (cutoff : Int) {segments : List (PeriodKey × Segment)}
    (hcomplete : ∀ entry ∈ segments, Lines.Complete '\n' entry.2.content)
    (hplaced : ∀ entry ∈ segments, ∀ line ∈ rawLines entry.2.content,
      ∀ ts ∈ lineTs format line, periodKey resolution ts = entry.1) (stamp : Nat) :
    Retains Point.ts cutoff (segmentPoints format segments)
      (segmentPoints format (pruneSegments format resolution cutoff segments stamp).1) := by
  induction segments generalizing stamp with
  | nil => exact Retains.refl _ _ _
  | cons head rest ih =>
      obtain ⟨key, segment⟩ := head
      have hhead := retains_trimSegment cutoff
        (hcomplete (key, segment) (by simp)) (hplaced (key, segment) (by simp))
      have hrest := ih (fun entry hentry => hcomplete entry (by simp [hentry]))
        (fun entry hentry => hplaced entry (by simp [hentry]))
      rw [pruneSegments]
      cases htrim : trimSegment format resolution cutoff key segment with
      | keep => exact (Retains.refl _ _ _).append (hrest stamp)
      | fail => exact Retains.refl _ _ _
      | delete =>
          rw [htrim] at hhead
          exact hhead.append (hrest stamp)
      | rewrite content =>
          rw [htrim] at hhead
          exact hhead.append (hrest (stamp + 1))

/-- `prune_series` drops expired points only. -/
theorem retains_pruneSeries {s : Series} (hwf : s.WF format resolution) (cutoff : Int) :
    Retains Point.ts cutoff (allPoints format s)
      (allPoints format (pruneSeries format resolution cutoff s)) := by
  have htrimmed : Retains Point.ts cutoff (allPoints format s)
      (allPoints format (trimmed format resolution cutoff s)) := by
    rw [allPoints_eq, allPoints_eq]
    exact (retains_pruneSegments cutoff hwf.complete hwf.placed s.stamp).append (Retains.refl _ _ _)
  unfold pruneSeries
  split_ifs
  · exact htrimmed.trans (retains_pruneActive cutoff _)
  · exact htrimmed

/-! ## Compactions -/

theorem allPoints_subset {s s' : Series}
    (hrecords : ∀ line ∈ records format s, line ∈ records format s') :
    allPoints format s ⊆ allPoints format s' := by
  intro point hpoint
  obtain ⟨line, hline, hparse⟩ := mem_allPoints.mp hpoint
  exact mem_allPoints.mpr ⟨line, hrecords line hline, hparse⟩

theorem records_interrupted {s : Series} (hwf : s.WF format resolution) {attempt : Attempt}
    (hinv : AttemptInv format resolution s attempt) (published : Nat) {line : Text}
    (hline : line ∈ records format s) :
    line ∈ records format (interrupted published s attempt) := by
  cases attempt with
  | staged st plans remainder moved =>
      rw [interrupted]
      split_ifs with hmay
      · obtain ⟨closed, hcommit⟩ := committable hinv hmay
        rw [records_eq, List.mem_append] at hline ⊢
        rw [activeContent_foldl_publish,
          (hcommit.ready.take published).mem_archived_foldl hwf]
        exact hline.imp_left Or.inl
      · exact hline
  | idle => exact hline
  | statted st => exact hline
  | planning st consumed todo plans moved => exact hline

/-- No step of a compaction drops a point. -/
theorem allPoints_subset_step {sys next : System} {act : Act V}
    (hinv : SystemInv format resolution sys) (hact : ∀ write, act ≠ .write write)
    (hstep : step format resolution sys act = some next) :
    allPoints format sys.series ⊆ allPoints format next.series := by
  rcases step_cases hstep with ⟨write, hwrite, -⟩ | ⟨published, -, -, rfl⟩ | ⟨-, hadvance⟩
  · exact absurd hwrite (hact write)
  · exact allPoints_subset fun line hline =>
      records_interrupted hinv.wf hinv.attempt published hline
  · rcases advance_cases hadvance with ⟨_, -, -, hsame, -⟩ | ⟨-, -, hsame, -⟩ |
      ⟨st, plans, remainder, moved, -, hattempt, hmay, rfl⟩
    · rw [hsame]
      exact List.Subset.refl _
    · rw [hsame]
      exact List.Subset.refl _
    · obtain ⟨closed, hcommit⟩ := committable (hattempt ▸ hinv.attempt) hmay
      exact allPoints_subset fun line hline => (hcommit.mem_records hinv.wf).mpr hline

end Justup.Store
