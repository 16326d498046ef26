import Justup.Store.CompactInvariant
import Justup.Store.JsonLine

/-!
# Compaction among writers

A commit moves closed records into the segments of their periods and leaves the
sequence of all records as it was.  An attempt that loses a race changes nothing.
-/

namespace Justup.Store

open Justup.Lib

variable {V : Type*} {format : LineFormat V} {resolution : Resolution}

/-! ## The commit -/

section Commit

variable {s : Series} {st : Stat} {plans : List Plan} {remainder : Text} {closed : List Text}

theorem Committable.mem_records (hwf : s.WF format resolution)
    (hcommit : Committable format resolution s st plans remainder closed) {line : Text} :
    line ∈ records format (commitSeries plans remainder st.size s) ↔
      line ∈ records format s := by
  rw [records_eq, records_eq, List.mem_append, List.mem_append, hcommit.mem_archived hwf,
    hcommit.validLines_active, List.mem_append, List.mem_filter, or_assoc]

/-- Records in order are the same sequence before and after the commit. -/
theorem Committable.records_of_increasing (hwf : s.WF format resolution)
    (hcommit : Committable format resolution s st plans remainder closed)
    (hrecords : Increasing format (records format s)) :
    records format (commitSeries plans remainder st.size s) = records format s := by
  let next := commitSeries plans remainder st.size s
  have hsplit : records format s = archived format s ++
      (closed.filter (fun line => (lineTs format line).isSome) ++
        validLines format next.activeContent) := by
    rw [records_eq, hcommit.validLines_active]
  have hall : ∀ line ∈ closed, (lineTs format line).isSome → line ∈ records format s := by
    intro line hline hsome
    rw [hsplit]
    simp [hline, hsome]
  obtain ⟨-, hactive, hcross⟩ := List.pairwise_append.mp (hsplit ▸ hrecords)
  obtain ⟨hclosed, hrest, hbefore⟩ := List.pairwise_append.mp hactive
  have harchived : Increasing format (archived format next) := by
    refine increasing_archived (hcommit.wf hwf) (hcommit.segmentsIncreasing hwf
      (SegmentsIncreasing.of_records hrecords) hclosed hrecords.oneLinePerStamp ?_ hall)
    intro line hline
    rw [hsplit]
    exact List.mem_append_left _ hline
  -- the records that stay in the active file are newer than all the others
  have hnext : Increasing format (records format next) := by
    refine List.pairwise_append.mpr ⟨harchived, hrest, ?_⟩
    intro line hline other hother
    rcases (hcommit.mem_archived hwf).mp hline with hold | ⟨hmem, hsome⟩
    · exact hcross line hold other (List.mem_append_right _ hother)
    · exact hbefore line (List.mem_filter.mpr ⟨hmem, hsome⟩) other hother
  exact Increasing.eq_of_mem_iff lineBefore_asymm hnext hrecords
    fun line => hcommit.mem_records hwf

end Commit

/-! ## Attempts that do not commit -/

/-- What the writers among some steps make of a series. -/
def writersOnly (format : LineFormat V) (resolution : Resolution) (acts : List (Act V))
    (s : Series) : Series :=
  acts.foldl (fun s act =>
    match act with
    | .write write => write.apply format resolution s
    | _ => s) s

theorem Series.WF.writersOnly {s : Series} (hwf : s.WF format resolution)
    (acts : List (Act V)) : (writersOnly format resolution acts s).WF format resolution := by
  induction acts generalizing s with
  | nil => exact hwf
  | cons act rest ih =>
      cases act with
      | write write => exact ih (Write.wf hwf write)
      | _ => exact ih hwf

/-- No attempt begins. -/
def NoStat (acts : List (Act V)) : Prop := ∀ act ∈ acts, ∀ hotStart, act ≠ .stat hotStart

/-- While an attempt goes on, only writers change the series. -/
theorem series_of_going_on {sys next : System} {act : Act V}
    (hact : ∀ hotStart, act ≠ .stat hotStart) (hgoing : next.attempt ≠ .idle)
    (hstep : step format resolution sys act = some next) :
    sys.attempt ≠ .idle ∧ next.series = writersOnly format resolution [act] sys.series := by
  rcases step_cases hstep with ⟨write, rfl, rfl⟩ | ⟨published, -, -, rfl⟩ | ⟨hwrite, hadvance⟩
  · exact ⟨hgoing, rfl⟩
  · exact absurd rfl hgoing
  · rcases advance_cases hadvance with
      ⟨hotStart, hstat, -⟩ | ⟨hattempt, -, hsame, -⟩ | ⟨st, plans, remainder, moved, -, -, -, rfl⟩
    · exact absurd hstat (hact hotStart)
    · refine ⟨hattempt, ?_⟩
      cases act with
      | write write => exact absurd rfl (hwrite write)
      | _ => exact hsame
    · exact absurd rfl hgoing

theorem run_series_of_going_on {sys final : System} {acts : List (Act V)} (hacts : NoStat acts)
    (hgoing : final.attempt ≠ .idle)
    (hrun : Transition.run (step format resolution) sys acts = some final) :
    sys.attempt ≠ .idle ∧ final.series = writersOnly format resolution acts sys.series := by
  induction acts generalizing sys with
  | nil =>
      cases hrun
      exact ⟨hgoing, rfl⟩
  | cons act rest ih =>
      obtain ⟨next, hnext, hrest⟩ := Transition.run_cons hrun
      obtain ⟨hnextGoing, hseries⟩ := ih (fun other hother => hacts other (by simp [hother])) hrest
      obtain ⟨hsysGoing, hone⟩ := series_of_going_on (hacts act (by simp)) hnextGoing hnext
      refine ⟨hsysGoing, ?_⟩
      rw [hseries, hone]
      rfl

/-- The step that ends an attempt as raced changes nothing. -/
theorem series_of_raced {sys next : System} {act : Act V} (hgoing : sys.attempt ≠ .idle)
    (hidle : next.attempt = .idle) (hraced : next.outcome = some .raced)
    (hstep : step format resolution sys act = some next) : next.series = sys.series := by
  rcases step_cases hstep with ⟨write, -, rfl⟩ | ⟨published, -, -, rfl⟩ | ⟨-, hadvance⟩
  · exact absurd hidle hgoing
  · cases hraced
  · rcases advance_cases hadvance with
      ⟨hotStart, -, -, hsame, -⟩ | ⟨-, -, hsame, -⟩ | ⟨st, plans, remainder, moved, -, -, -, rfl⟩
    · exact hsame
    · exact hsame
    · cases hraced

/-- The step that ends an attempt with records moved. -/
theorem commit_of_moved {sys next : System} {moved : Nat}
    (hmoved : next.outcome = some (.moved moved))
    (hstep : step format resolution sys .commit = some next) :
    ∃ st plans remainder, sys.attempt = .staged st plans remainder moved ∧
      mayCommit st plans sys.series = true ∧
        next.series = commitSeries plans remainder st.size sys.series := by
  rcases step_cases hstep with ⟨write, hact, -⟩ | ⟨published, hact, -, -⟩ | ⟨-, hadvance⟩
  · cases hact
  · cases hact
  · rcases advance_cases hadvance with
      ⟨hotStart, hact, -⟩ | ⟨-, -, -, -, hraced⟩ | ⟨st, plans, remainder, m, -, hattempt, hmay, rfl⟩
    · cases hact
    · rw [hraced rfl] at hmoved
      cases hmoved
    · cases hmoved
      exact ⟨st, plans, remainder, hattempt, hmay, rfl⟩

/-- `_compact_series` among writers.  When it commits, the records of the series
stay the same, in the same order if they were in order, and every record of a
segment belongs to the period of the segment.  When it ends as raced, the
series is what the writers alone have made of it. -/
theorem compaction_keeps_records (s : PeriodSeries format resolution) (acts : List (Act V))
    (sys : System)
    (hrun : Transition.run (step format resolution) (System.start s.val) acts = some sys) :
    (∀ next moved, step format resolution sys .commit = some next →
      next.outcome = some (.moved moved) →
        (Increasing format (records format sys.series) →
          records format next.series = records format sys.series) ∧
        (∀ line, line ∈ records format next.series ↔ line ∈ records format sys.series) ∧
        ∀ entry ∈ next.series.segments, ∀ line ∈ validLines format entry.2.content,
          ∀ ts ∈ lineTs format line,
            (periodBounds resolution entry.1).1 ≤ ts ∧ ts < (periodBounds resolution entry.1).2) ∧
    ∀ hotStart begun during going act next,
      step format resolution sys (.stat hotStart) = some begun → NoStat during →
      Transition.run (step format resolution) begun during = some going →
      going.attempt ≠ .idle → step format resolution going act = some next →
      next.attempt = .idle → next.outcome = some .raced →
        next.series = writersOnly format resolution during sys.series := by
  have hinv := run_inv (start_inv s.property) hrun
  constructor
  · intro next moved hstep hmoved
    have hnext := step_inv hinv hstep
    obtain ⟨st, plans, remainder, hattempt, hmay, hseries⟩ := commit_of_moved hmoved hstep
    obtain ⟨closed, hcommit⟩ := committable (hattempt ▸ hinv.attempt) hmay
    refine ⟨fun hrecords => ?_, fun line => ?_, fun entry hentry line hline ts hts => ?_⟩
    · rw [hseries]
      exact hcommit.records_of_increasing hinv.wf hrecords
    · rw [hseries]
      exact hcommit.mem_records hinv.wf
    · rw [← hnext.wf.placed entry hentry line (mem_validLines.mp hline).1 ts hts]
      exact periodBounds_contains resolution ts
  · intro hotStart begun during going act next hstat hduring hrunning hgoing hstep hidle hraced
    have hbegun : begun.series = sys.series := by
      rcases step_cases hstat with ⟨write, hact, -⟩ | ⟨published, hact, -, -⟩ | ⟨-, hadvance⟩
      · cases hact
      · cases hact
      · rcases advance_cases hadvance with
          ⟨_, -, -, hsame, -⟩ | ⟨-, -, hsame, -⟩ | ⟨st, plans, remainder, moved, hact, -⟩
        · exact hsame
        · exact hsame
        · cases hact
    rw [series_of_raced hgoing hidle hraced hstep,
      (run_series_of_going_on hduring hgoing hrunning).2, hbegun]

/-- A record of the first day moves while one of the second day is appended. -/
theorem compaction_keeps_records_two_days :
    ∃ sys next, Transition.run (step JsonLine.format .raw) (System.start Series.empty)
        [.write (.append 0 1), .write (.append 90000000000 2), .stat 86400000000, .scan,
          .write (.append 90000000001 3), .plan, .stage] = some sys ∧
      step JsonLine.format .raw sys .commit = some next ∧ next.outcome = some (.moved 1) ∧
        records JsonLine.format next.series = records JsonLine.format sys.series := by
  have hany : (Transition.run (step JsonLine.format .raw) (System.start Series.empty)
      [.write (.append 0 1), .write (.append 90000000000 2), .stat 86400000000, .scan,
        .write (.append 90000000001 3), .plan, .stage]).any (fun sys =>
      decide (Increasing JsonLine.format (records JsonLine.format sys.series)) &&
        (step JsonLine.format .raw sys .commit).any fun next =>
          decide (next.outcome = some (.moved 1))) = true := by decide +kernel
  obtain ⟨sys, hrun, hsys⟩ := (Option.any_eq_true ..).mp hany
  rw [Bool.and_eq_true, decide_eq_true_eq] at hsys
  obtain ⟨next, hstep, hmoved⟩ := (Option.any_eq_true ..).mp hsys.2
  have hmoved : next.outcome = some (.moved 1) := of_decide_eq_true hmoved
  have hkeep := compaction_keeps_records ⟨Series.empty, wf_empty⟩ _ sys hrun
  exact ⟨sys, next, hrun, hstep, hmoved, (hkeep.1 next 1 hstep hmoved).1 hsys.1⟩

end Justup.Store
