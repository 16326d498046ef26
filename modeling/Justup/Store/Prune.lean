import Justup.Store.Segment

/-!
# Retention

The append path prunes the active file only; housekeeping prunes the segments
first.  A rewritten file is a new file.
-/

namespace Justup.Store

open Justup.Lib

variable {V : Type*} (format : LineFormat V) (resolution : Resolution)

/-! ## Pruning the active file -/

/-- `_PROBE_LINES`. -/
def probeLines : Nat := 64

/-- `_has_expired_head`: only the first valid line decides; a file whose first
lines are all invalid is rewritten. -/
def hasExpiredHead (cutoff : Int) (content : Text) : Bool :=
  match ((rawLines content).take probeLines).filterMap (lineTs format) with
  | [] => !content.isEmpty
  | ts :: _ => decide (ts < cutoff)

/-- The lines that `_prune_active_locked` keeps, as it writes them. -/
def keptLines (cutoff : Int) (content : Text) : List Text :=
  ((rawLines content).filter fun line =>
    (lineTs format (strip line)).any fun ts => !decide (ts < cutoff)).map fun line =>
      strip line ++ ['\n']

/-- `_prune_active_locked`: rewrite the active file without expired or invalid
lines.  The rewritten file is a new one; a file of which nothing is left is
removed.  (Where a strict decoder fails on the text, the call raises and leaves
the file as it was.) -/
def pruneActive (cutoff : Int) (s : Series) : Series :=
  match s.active with
  | none => s
  | some file =>
      if !hasExpiredHead format cutoff file.content then s
      else if (keptLines format cutoff file.content).length =
          (rawLines file.content).length then s
      else if (keptLines format cutoff file.content).isEmpty then { s with active := none }
      else
        { s with
          active := some ⟨s.stamp, (keptLines format cutoff file.content).flatten⟩
          stamp := s.stamp + 1 }

/-! ## Pruning the segments -/

/-- What becomes of one segment. -/
inductive Trim where
  | keep
  | delete
  | rewrite (content : Text)
  | fail
  deriving DecidableEq, Repr

/-- The lines that the trimmed segment keeps. -/
def unexpired (cutoff : Int) (content : Text) : List Text :=
  (rawLines content).filter fun line =>
    (lineTs format line).any fun ts => decide (cutoff ≤ ts)

/-- The body of the loop of `_prune_segments_locked`; a damaged segment is left
untrimmed. -/
def trimSegment (cutoff : Int) (key : PeriodKey) (segment : Segment) : Trim :=
  if (periodBounds resolution key).2 ≤ cutoff then .delete
  else if cutoff ≤ (periodBounds resolution key).1 then .keep
  else
    match firstTs format segment.content with
    | none => .keep
    | some first =>
        if cutoff ≤ first then .keep
        else if segment.damaged then .keep
        else
          let kept := unexpired format cutoff segment.content
          if kept.isEmpty then .delete
          else if verifySegment format (writeMember kept) kept.length
              (kept.filterMap (lineTs format)).max? then .rewrite (writeMember kept)
          else .fail

/-- The loop of `_prune_segments_locked`: the segments left, the next unused
number, and whether the loop came to its end. -/
def pruneSegments (cutoff : Int) :
    List (PeriodKey × Segment) → Nat → List (PeriodKey × Segment) × Nat × Bool
  | [], stamp => ([], stamp, true)
  | (key, segment) :: rest, stamp =>
      match trimSegment format resolution cutoff key segment with
      | .fail => ((key, segment) :: rest, stamp, false)
      | .delete => pruneSegments cutoff rest stamp
      | .keep =>
          let (left, next, done) := pruneSegments cutoff rest stamp
          ((key, segment) :: left, next, done)
      | .rewrite content =>
          let (left, next, done) := pruneSegments cutoff rest (stamp + 1)
          ((key, ⟨content, false, stamp⟩) :: left, next, done)

/-- A series after `_prune_segments_locked`. -/
def trimmed (cutoff : Int) (s : Series) : Series :=
  { s with
    segments := (pruneSegments format resolution cutoff s.segments s.stamp).1
    stamp := (pruneSegments format resolution cutoff s.segments s.stamp).2.1 }

/-- `prune_series` under the exclusive lock: the segments, then the active file. -/
def pruneSeries (cutoff : Int) (s : Series) : Series :=
  if (pruneSegments format resolution cutoff s.segments s.stamp).2.2 then
    pruneActive format cutoff (trimmed format resolution cutoff s)
  else trimmed format resolution cutoff s

/-! ## What a prune leaves -/

section Facts

variable {format resolution}

@[simp]
theorem segments_pruneActive (cutoff : Int) (s : Series) :
    (pruneActive format cutoff s).segments = s.segments := by
  unfold pruneActive
  cases s.active with
  | none => rfl
  | some file =>
      dsimp only
      split_ifs <;> rfl

theorem stamp_le_pruneActive (cutoff : Int) (s : Series) :
    s.stamp ≤ (pruneActive format cutoff s).stamp := by
  unfold pruneActive
  cases s.active with
  | none => exact le_refl _
  | some file =>
      dsimp only
      split_ifs <;> simp

/-- A prune leaves the active file alone, removes it or replaces it by a new one. -/
theorem active_pruneActive (format : LineFormat V) (cutoff : Int) (s : Series) :
    (pruneActive format cutoff s).active = s.active ∨
      ∀ file ∈ (pruneActive format cutoff s).active,
        file.ino = s.stamp ∧ s.stamp < (pruneActive format cutoff s).stamp := by
  unfold pruneActive
  cases hactive : s.active with
  | none => exact Or.inl hactive
  | some file =>
      dsimp only
      split_ifs
      · exact Or.inl hactive
      · exact Or.inl hactive
      · exact Or.inr (by simp)
      · exact Or.inr (by simp)

theorem Series.WF.pruneActive {s : Series} (hwf : s.WF format resolution) (cutoff : Int) :
    (pruneActive format cutoff s).WF format resolution where
  ordered := by simpa using hwf.ordered
  complete := by simpa using hwf.complete
  valid := by simpa using hwf.valid
  placed := by simpa using hwf.placed
  sig_lt := by
    intro entry hentry
    exact (hwf.sig_lt entry (by simpa using hentry)).trans_le (stamp_le_pruneActive cutoff s)
  ino_lt := by
    intro file hfile
    rcases active_pruneActive format cutoff s with hsame | hnew
    · exact (hwf.ino_lt file (hsame ▸ hfile)).trans_le (stamp_le_pruneActive cutoff s)
    · obtain ⟨hino, hlt⟩ := hnew file hfile
      exact hino ▸ hlt

theorem stamp_le_pruneSegments (cutoff : Int) (segments : List (PeriodKey × Segment))
    (stamp : Nat) : stamp ≤ (pruneSegments format resolution cutoff segments stamp).2.1 := by
  induction segments generalizing stamp with
  | nil => exact le_refl stamp
  | cons head rest ih =>
      obtain ⟨key, segment⟩ := head
      rw [pruneSegments]
      cases trimSegment format resolution cutoff key segment with
      | keep => exact ih stamp
      | delete => exact ih stamp
      | rewrite content => exact (Nat.le_succ stamp).trans (ih (stamp + 1))
      | fail => exact le_refl stamp

/-- What the loop leaves: a segment as it was, or a rewritten one of the same
period with a new signature. -/
theorem mem_pruneSegments {cutoff : Int} {segments : List (PeriodKey × Segment)} {stamp : Nat}
    {entry : PeriodKey × Segment}
    (hmem : entry ∈ (pruneSegments format resolution cutoff segments stamp).1) :
    entry ∈ segments ∨
      ∃ old, (entry.1, old) ∈ segments ∧
        trimSegment format resolution cutoff entry.1 old = .rewrite entry.2.content ∧
        stamp ≤ entry.2.sig ∧
        entry.2.sig < (pruneSegments format resolution cutoff segments stamp).2.1 := by
  induction segments generalizing stamp with
  | nil => simp [pruneSegments] at hmem
  | cons head rest ih =>
      obtain ⟨key, segment⟩ := head
      rw [pruneSegments] at hmem ⊢
      cases htrim : trimSegment format resolution cutoff key segment with
      | keep =>
          simp only [htrim] at hmem ⊢
          rcases List.mem_cons.mp hmem with rfl | hmem
          · exact Or.inl (by simp)
          · exact (ih hmem).imp (List.mem_cons_of_mem _)
              fun ⟨old, hold, hrest⟩ => ⟨old, List.mem_cons_of_mem _ hold, hrest⟩
      | delete =>
          simp only [htrim] at hmem ⊢
          exact (ih hmem).imp (List.mem_cons_of_mem _)
            fun ⟨old, hold, hrest⟩ => ⟨old, List.mem_cons_of_mem _ hold, hrest⟩
      | rewrite content =>
          simp only [htrim] at hmem ⊢
          rcases List.mem_cons.mp hmem with rfl | hmem
          · refine Or.inr ⟨segment, by simp, htrim, le_refl stamp, ?_⟩
            exact stamp_le_pruneSegments cutoff rest (stamp + 1)
          · exact (ih hmem).imp (List.mem_cons_of_mem _)
              fun ⟨old, hold, hnew, hle, hlt⟩ =>
                ⟨old, List.mem_cons_of_mem _ hold, hnew, (Nat.le_succ stamp).trans hle, hlt⟩
      | fail =>
          simp only [htrim] at hmem
          exact Or.inl hmem

/-- No period is new, so the segments stay in the order of their periods. -/
theorem ordered_pruneSegments (cutoff : Int) {segments : List (PeriodKey × Segment)}
    (hsegments : Dict.Ordered segments) (stamp : Nat) :
    Dict.Ordered (pruneSegments format resolution cutoff segments stamp).1 := by
  induction segments generalizing stamp with
  | nil => exact Dict.ordered_nil
  | cons head rest ih =>
      obtain ⟨key, segment⟩ := head
      obtain ⟨hhead, hrest⟩ := List.pairwise_cons.mp hsegments
      have hkeys : ∀ stamp, ∀ entry ∈ (pruneSegments format resolution cutoff rest stamp).1,
          key < entry.1 := by
        intro stamp entry hentry
        rcases mem_pruneSegments hentry with hmem | ⟨old, hold, -⟩
        · exact hhead entry hmem
        · exact hhead (entry.1, old) hold
      rw [pruneSegments]
      cases trimSegment format resolution cutoff key segment with
      | keep => exact List.pairwise_cons.mpr ⟨hkeys stamp, ih hrest stamp⟩
      | delete => exact ih hrest stamp
      | rewrite content =>
          exact List.pairwise_cons.mpr ⟨hkeys (stamp + 1), ih hrest (stamp + 1)⟩
      | fail => exact hsegments

theorem trimSegment_rewrite {cutoff : Int} {key : PeriodKey} {segment : Segment}
    {content : Text}
    (htrim : trimSegment format resolution cutoff key segment = .rewrite content) :
    content = writeMember (unexpired format cutoff segment.content) := by
  unfold trimSegment at htrim
  cases hfirst : firstTs format segment.content with
  | none =>
      simp only [hfirst] at htrim
      split_ifs at htrim
  | some first =>
      simp only [hfirst] at htrim
      split_ifs at htrim
      exact (Trim.rewrite.inj htrim).symm

theorem mem_unexpired {cutoff : Int} {content line : Text} :
    line ∈ unexpired format cutoff content ↔
      line ∈ rawLines content ∧ ∃ ts ∈ lineTs format line, cutoff ≤ ts := by
  simp [unexpired, Option.any_eq_true]

/-- A complete segment is rewritten with the lines it keeps, unchanged. -/
theorem rawLines_writeMember_unexpired (cutoff : Int) {content : Text}
    (hcontent : Lines.Complete '\n' content) :
    rawLines (writeMember (unexpired format cutoff content)) =
      unexpired format cutoff content := by
  have hlines : ∀ line ∈ unexpired format cutoff content, Lines.IsLine '\n' line :=
    fun line hline => Lines.isLine_of_mem_rawLines hcontent (mem_unexpired.mp hline).1
  rw [writeMember_of_lines hlines, rawLines, Lines.rawLines_flatten_of_lines hlines]

theorem Series.WF.trimmed {s : Series} (hwf : s.WF format resolution) (cutoff : Int) :
    (trimmed format resolution cutoff s).WF format resolution where
  ordered := ordered_pruneSegments cutoff hwf.ordered s.stamp
  complete := by
    intro entry hentry
    rcases mem_pruneSegments hentry with hold | ⟨old, -, htrim, -⟩
    · exact hwf.complete entry hold
    · rw [trimSegment_rewrite htrim]
      exact complete_writeMember _
  valid := by
    intro entry hentry line hline
    rcases mem_pruneSegments hentry with hold | ⟨old, hold, htrim, -⟩
    · exact hwf.valid entry hold line hline
    · rw [trimSegment_rewrite htrim,
        rawLines_writeMember_unexpired cutoff (hwf.complete _ hold)] at hline
      obtain ⟨-, ts, hts, -⟩ := mem_unexpired.mp hline
      rw [Option.mem_def.mp hts]
      rfl
  placed := by
    intro entry hentry line hline ts hts
    rcases mem_pruneSegments hentry with hold | ⟨old, hold, htrim, -⟩
    · exact hwf.placed entry hold line hline ts hts
    · rw [trimSegment_rewrite htrim,
        rawLines_writeMember_unexpired cutoff (hwf.complete _ hold)] at hline
      exact hwf.placed _ hold line (mem_unexpired.mp hline).1 ts hts
  sig_lt := by
    intro entry hentry
    rcases mem_pruneSegments hentry with hold | ⟨old, -, -, -, hlt⟩
    · exact (hwf.sig_lt entry hold).trans_le (stamp_le_pruneSegments cutoff _ _)
    · exact hlt
  ino_lt := fun file hfile =>
    (hwf.ino_lt file hfile).trans_le (stamp_le_pruneSegments cutoff _ _)

theorem Series.WF.pruneSeries {s : Series} (hwf : s.WF format resolution) (cutoff : Int) :
    (pruneSeries format resolution cutoff s).WF format resolution := by
  unfold Store.pruneSeries
  split_ifs
  · exact (hwf.trimmed cutoff).pruneActive cutoff
  · exact hwf.trimmed cutoff

/-- A period has after the prune the segment it had, none, or a new one. -/
theorem get?_pruneSegments {s : Series} (hwf : s.WF format resolution) (cutoff : Int)
    (key : PeriodKey) :
    let left := (pruneSegments format resolution cutoff s.segments s.stamp).1
    Dict.get? key left = none ∨ Dict.get? key left = Dict.get? key s.segments ∨
      ∃ segment, Dict.get? key left = some segment ∧ s.stamp ≤ segment.sig := by
  intro left
  cases hleft : Dict.get? key left with
  | none => exact Or.inl rfl
  | some segment =>
      rcases mem_pruneSegments (Dict.mem_of_get? hleft) with hold | ⟨old, -, -, hle, -⟩
      · exact Or.inr (Or.inl (Dict.get?_of_mem hwf.ordered hold).symm)
      · exact Or.inr (Or.inr ⟨segment, rfl, hle⟩)

theorem stamp_le_pruneSeries (cutoff : Int) (s : Series) :
    s.stamp ≤ (pruneSeries format resolution cutoff s).stamp := by
  have hstamp : s.stamp ≤ (trimmed format resolution cutoff s).stamp :=
    stamp_le_pruneSegments cutoff s.segments s.stamp
  unfold pruneSeries
  split_ifs
  · exact hstamp.trans (stamp_le_pruneActive cutoff _)
  · exact hstamp

theorem segments_pruneSeries (cutoff : Int) (s : Series) :
    (pruneSeries format resolution cutoff s).segments =
      (pruneSegments format resolution cutoff s.segments s.stamp).1 := by
  unfold pruneSeries
  split_ifs
  · rw [segments_pruneActive]
    rfl
  · rfl

/-- The active file after a prune is the one before, or a new one. -/
theorem active_pruneSeries (format : LineFormat V) (resolution : Resolution) (cutoff : Int)
    (s : Series) :
    (pruneSeries format resolution cutoff s).active = s.active ∨
      ∀ file ∈ (pruneSeries format resolution cutoff s).active, s.stamp ≤ file.ino := by
  unfold pruneSeries
  split_ifs
  · rcases active_pruneActive format cutoff (trimmed format resolution cutoff s) with
      hsame | hnew
    · exact Or.inl hsame
    · refine Or.inr fun file hfile => ?_
      rw [(hnew file hfile).1]
      exact stamp_le_pruneSegments cutoff s.segments s.stamp
  · exact Or.inl rfl

/-! ## The lines of a pruned file -/

theorem isLine_keptLines {cutoff : Int} {content line : Text}
    (hline : line ∈ keptLines format cutoff content) : Lines.IsLine '\n' line := by
  obtain ⟨raw, hraw, rfl⟩ := List.mem_map.mp hline
  refine ⟨strip raw, ?_, rfl⟩
  rcases (Lines.mem_rawLines (List.mem_filter.mp hraw).1).2 with ⟨body, hbody, rfl⟩ | hnot
  · rw [strip_snoc_newline]
    exact newline_notMem_of_strip hbody
  · exact newline_notMem_of_strip hnot

theorem rawLines_keptLines (cutoff : Int) (content : Text) :
    rawLines (keptLines format cutoff content).flatten = keptLines format cutoff content :=
  Lines.rawLines_flatten_of_lines fun _ hline => isLine_keptLines hline

theorem valid_keptLines {cutoff : Int} {content line : Text}
    (hline : line ∈ keptLines format cutoff content) : (lineTs format line).isSome := by
  obtain ⟨raw, hraw, rfl⟩ := List.mem_map.mp hline
  obtain ⟨ts, hts, -⟩ := Option.any_eq_true .. |>.mp (List.mem_filter.mp hraw).2
  rw [lineTs_snoc_newline, hts]
  rfl

theorem complete_pruneActive {s : Series} (hs : Lines.Complete '\n' s.activeContent)
    (cutoff : Int) : Lines.Complete '\n' (pruneActive format cutoff s).activeContent := by
  unfold pruneActive
  cases hactive : s.active with
  | none => exact hs
  | some file =>
      dsimp only
      split_ifs
      · exact hs
      · exact hs
      · exact Lines.complete_nil
      · exact Lines.complete_flatten fun _ hline => isLine_keptLines hline

/-- A prune leaves no invalid line behind where there was none. -/
theorem valid_pruneActive {s : Series}
    (hs : ∀ line ∈ rawLines s.activeContent, (lineTs format line).isSome) (cutoff : Int) :
    ∀ line ∈ rawLines (pruneActive format cutoff s).activeContent,
      (lineTs format line).isSome := by
  unfold pruneActive
  cases hactive : s.active with
  | none => exact hs
  | some file =>
      dsimp only
      split_ifs
      · exact hs
      · exact hs
      · simp [Series.activeContent]
      · intro line hline
        have hkept : line ∈ rawLines (keptLines format cutoff file.content).flatten := hline
        rw [rawLines_keptLines] at hkept
        exact valid_keptLines hkept

end Facts

end Justup.Store
