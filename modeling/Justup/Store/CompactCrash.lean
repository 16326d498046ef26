import Justup.Store.CompactSafe

/-!
# Compaction attempts that stop half way

A series whose compaction was interrupted any number of times is compared with
the same series without any compaction.  Both hold the same records at any time,
and after the next commit in the same sequence.
-/

namespace Justup.Store

open Justup.Lib

variable {V : Type*} {format : LineFormat V} {resolution : Resolution}

/-! ## The series without compaction -/

/-- Appends are the only writes. -/
def AppendsOnly (acts : List (Act V)) : Prop :=
  ∀ act ∈ acts, ∀ write, act = .write write → ∃ ts value, write = .append ts value

/-- The lines that some steps append. -/
def appendedLines (format : LineFormat V) (acts : List (Act V)) : List Text :=
  acts.filterMap fun act =>
    match act with
    | .write (.append ts value) => some (recordLine format ts value)
    | _ => none

/-- The starts of the attempts. -/
def hotStarts (acts : List (Act V)) : List Int :=
  acts.filterMap fun act =>
    match act with
    | .stat hotStart => some hotStart
    | _ => none

/-- The records of a series that end with a line end. -/
def wholeRecords (format : LineFormat V) (s : Series) : List Text :=
  archived format s ++
    (Lines.wholeLines '\n' s.activeContent).filter fun line => (lineTs format line).isSome

theorem mem_wholeRecords {s : Series} {line : Text} :
    line ∈ wholeRecords format s ↔ line ∈ archived format s ∨
      line ∈ Lines.wholeLines '\n' s.activeContent ∧ (lineTs format line).isSome := by
  rw [wholeRecords, List.mem_append, List.mem_filter]

theorem wholeRecords_sublist (s : Series) :
    (wholeRecords format s).Sublist (records format s) :=
  (List.Sublist.refl _).append ((Lines.wholeLines_isPrefix _).sublist.filter _)

theorem archived_append (text : Text) (s : Series) :
    archived format (s.append text) = archived format s := by
  rw [archived, segments_append, archived]

theorem wholeRecords_append (text : Text) (s : Series) :
    (wholeRecords format s).Sublist (wholeRecords format (s.append text)) := by
  rw [wholeRecords, wholeRecords, archived_append, activeContent_append]
  exact (List.Sublist.refl _).append ((Lines.wholeLines_isPrefix_append _ _).sublist.filter _)

/-! ## What a compacted series is -/

/-- `s` is `plain` after some compaction: the lines `front` have left the active
file, they are archived, and nothing else is that `plain` does not hold. -/
structure Replica (format : LineFormat V) (plain : Series) (front : List Text) (s : Series) :
    Prop where
  content : plain.activeContent = front.flatten ++ s.activeContent
  lines : ∀ line ∈ front, Lines.IsLine '\n' line
  kept : ∀ line, line ∈ archived format plain ∨ line ∈ front ∧ (lineTs format line).isSome →
    line ∈ archived format s
  known : ∀ line ∈ archived format s, line ∈ wholeRecords format plain

theorem Replica.refl (s : Series) : Replica format s [] s where
  content := rfl
  lines := by simp
  kept := by
    rintro line (hline | ⟨hline, -⟩)
    · exact hline
    · simp at hline
  known := fun line hline => mem_wholeRecords.mpr (Or.inl hline)

section Replica

variable {plain s : Series} {front : List Text}

theorem Replica.validLines_active (hreplica : Replica format plain front s) :
    validLines format plain.activeContent =
      front.filter (fun line => (lineTs format line).isSome) ++
        validLines format s.activeContent := by
  rw [hreplica.content, validLines_append (Lines.complete_flatten hreplica.lines),
    validLines_flatten hreplica.lines]

/-- Both hold the same records. -/
theorem Replica.mem_records (hreplica : Replica format plain front s) {line : Text} :
    line ∈ records format s ↔ line ∈ records format plain := by
  rw [records_eq, records_eq, List.mem_append, List.mem_append, hreplica.validLines_active,
    List.mem_append, List.mem_filter]
  constructor
  · rintro (harchived | hactive)
    · have hrecords := (wholeRecords_sublist plain).subset (hreplica.known line harchived)
      rwa [records_eq, List.mem_append, hreplica.validLines_active, List.mem_append,
        List.mem_filter] at hrecords
    · exact Or.inr (Or.inr hactive)
  · rintro (harchived | hfront | hactive)
    · exact Or.inl (hreplica.kept line (Or.inl harchived))
    · exact Or.inl (hreplica.kept line (Or.inr hfront))
    · exact Or.inr hactive

theorem Replica.append (hreplica : Replica format plain front s) (text : Text) :
    Replica format (plain.append text) front (s.append text) where
  content := by
    rw [activeContent_append, activeContent_append, hreplica.content, List.append_assoc]
  lines := hreplica.lines
  kept := by
    rw [archived_append, archived_append]
    exact hreplica.kept
  known := by
    rw [archived_append]
    exact fun line hline =>
      (wholeRecords_append text plain).subset (hreplica.known line hline)

/-- The closed lines of an attempt stand behind `front` in the plain series. -/
theorem Replica.prefix_wholeLines (hreplica : Replica format plain front s)
    {closed : List Text} (hlines : ∀ line ∈ closed, Lines.IsLine '\n' line)
    (hbegin : closed.flatten <+: s.activeContent) :
    front ++ closed <+: Lines.wholeLines '\n' plain.activeContent := by
  refine Lines.prefix_wholeLines (fun line hline => ?_) ?_
  · rcases List.mem_append.mp hline with hline | hline
    · exact hreplica.lines line hline
    · exact hlines line hline
  · rw [hreplica.content, List.flatten_append]
    exact (List.prefix_append_right_inj _).mpr hbegin

theorem Replica.mem_wholeRecords (hreplica : Replica format plain front s)
    {closed : List Text} (hlines : ∀ line ∈ closed, Lines.IsLine '\n' line)
    (hbegin : closed.flatten <+: s.activeContent) {line : Text} (hline : line ∈ closed)
    (hsome : (lineTs format line).isSome) : line ∈ wholeRecords format plain :=
  Store.mem_wholeRecords.mpr (Or.inr ⟨(hreplica.prefix_wholeLines hlines hbegin).subset
    (List.mem_append_right front hline), hsome⟩)

variable {closed : List Text} {st : Stat} {plans : List Plan} {remainder : Text}

/-- Some of the segments of an attempt are published. -/
theorem Replica.publish (hreplica : Replica format plain front s)
    (hwf : s.WF format resolution)
    (hcommit : Committable format resolution s st plans remainder closed) (published : Nat) :
    Replica format plain front ((plans.take published).foldl publish s) where
  content := by
    rw [activeContent_foldl_publish]
    exact hreplica.content
  lines := hreplica.lines
  kept := fun line hline => ((hcommit.ready.take published).mem_archived_foldl hwf).mpr
    (Or.inl (hreplica.kept line hline))
  known := by
    intro line hline
    rcases ((hcommit.ready.take published).mem_archived_foldl hwf).mp hline with
      hold | ⟨plan, -, hperiod⟩
    · exact hreplica.known line hold
    · obtain ⟨hmem, ts, hts, -⟩ := mem_periodLines.mp hperiod
      exact hreplica.mem_wholeRecords (fun line hline => (hcommit.isClosed line hline).1)
        hcommit.beginning hmem (by rw [Option.mem_def.mp hts]; rfl)

/-- An attempt commits. -/
theorem Replica.commit (hreplica : Replica format plain front s)
    (hwf : s.WF format resolution)
    (hcommit : Committable format resolution s st plans remainder closed) :
    Replica format plain (front ++ closed) (commitSeries plans remainder st.size s) where
  content := by
    rw [List.flatten_append, List.append_assoc, ← hcommit.active]
    exact hreplica.content
  lines := by
    intro line hline
    rcases List.mem_append.mp hline with hline | hline
    · exact hreplica.lines line hline
    · exact (hcommit.isClosed line hline).1
  kept := by
    intro line hline
    rw [hcommit.mem_archived hwf]
    rcases hline with hplain | ⟨hline, hsome⟩
    · exact Or.inl (hreplica.kept line (Or.inl hplain))
    · rcases List.mem_append.mp hline with hfront | hclosed
      · exact Or.inl (hreplica.kept line (Or.inr ⟨hfront, hsome⟩))
      · exact Or.inr ⟨hclosed, hsome⟩
  known := by
    intro line hline
    rcases (hcommit.mem_archived hwf).mp hline with hold | ⟨hmem, hsome⟩
    · exact hreplica.known line hold
    · exact hreplica.mem_wholeRecords (fun line hline => (hcommit.isClosed line hline).1)
        hcommit.beginning hmem hsome

theorem Replica.increasing_closed (hreplica : Replica format plain front s)
    (hcommit : Committable format resolution s st plans remainder closed)
    (hplain : Increasing format (wholeRecords format plain)) :
    Increasing format (closed.filter fun line => (lineTs format line).isSome) := by
  have hsub : (closed.filter fun line => (lineTs format line).isSome).Sublist
      ((Lines.wholeLines '\n' plain.activeContent).filter fun line =>
        (lineTs format line).isSome) :=
    ((List.sublist_append_right front closed).trans
      (hreplica.prefix_wholeLines (fun line hline => (hcommit.isClosed line hline).1)
        hcommit.beginning).sublist).filter _
  exact hplain.sublist (hsub.trans (List.sublist_append_right _ _))

end Replica

/-! ## The invariant of a run with interruptions -/

/-- What interrupted attempts have archived too early are lines at the beginning
of the active file, which every later attempt will find closed. -/
structure Settled (format : LineFormat V) (latest : Int) (plain : Series) (front early : List Text)
    (sys : System) : Prop where
  isClosed : ∀ line ∈ early, Closed format latest line
  beginning : early.flatten <+: sys.series.activeContent
  archived : ∀ line ∈ archived format sys.series,
    line ∈ Store.archived format plain ∨ line ∈ front ∨ line ∈ early
  attempt : ∀ st ∈ sys.attempt.stat?,
    st.hotStart = latest ∧ early.flatten.length ≤ st.size

/-- The system compared with the series without compaction.  `latest` is the
start of the last attempt; `clocked` says that these starts never decrease. -/
structure CrashInv (format : LineFormat V) (resolution : Resolution) (clocked : Prop)
    (latest : Int) (plain : Series) (sys : System) : Prop where
  system : SystemInv format resolution sys
  replica : ∃ front, Replica format plain front sys.series ∧
    (clocked → ∃ early, Settled format latest plain front early sys)
  ordered : Increasing format (wholeRecords format plain) →
    SegmentsIncreasing format sys.series

/-- The start of the last attempt after one more step. -/
def later (latest : Int) : Act V → Int
  | .stat hotStart => hotStart
  | _ => latest

theorem Closed.mono {hotStart hotStart' : Int} (hle : hotStart ≤ hotStart') {line : Text}
    (hclosed : Closed format hotStart line) : Closed format hotStart' line :=
  ⟨hclosed.1, fun ts hts => (hclosed.2 ts hts).trans_le hle⟩

section Steps

variable {clocked : Prop} {latest : Int} {plain : Series} {sys next : System}
  {front early closed : List Text} {st : Stat} {plans : List Plan} {remainder : Text}

/-- What an attempt finds closed contains what was archived too early. -/
theorem Settled.early_isPrefix (hsettled : Settled format latest plain front early sys)
    (hst : st ∈ sys.attempt.stat?)
    (hcommit : Committable format resolution sys.series st plans remainder closed) :
    early <+: closed := by
  obtain ⟨hlatest, hlength⟩ := hsettled.attempt st hst
  exact hcommit.maximal early (fun line hline => hlatest ▸ hsettled.isClosed line hline) hlength
    hsettled.beginning

theorem CrashInv.append (hinv : CrashInv format resolution clocked latest plain sys)
    (ts : Int) (value : V) :
    CrashInv format resolution clocked latest (appendPoint format ts value plain)
      { sys with series := appendPoint format ts value sys.series } where
  system := @step_inv _ _ _ _ _ (.write (.append ts value)) hinv.system rfl
  replica := by
    obtain ⟨front, hreplica, hsettled⟩ := hinv.replica
    refine ⟨front, hreplica.append _, fun hclock => ?_⟩
    obtain ⟨early, hclosed, hbegin, harchived, hattempt⟩ := hsettled hclock
    refine ⟨early, hclosed, ?_, ?_, hattempt⟩
    · rw [appendPoint, activeContent_append]
      exact hbegin.trans (List.prefix_append _ _)
    · simp only [appendPoint, archived_append]
      exact harchived
  ordered := by
    intro hplain
    have hsegments := hinv.ordered (hplain.sublist (wholeRecords_append _ _))
    intro entry hentry
    rw [appendPoint, segments_append] at hentry
    exact hsegments entry hentry

/-- An attempt stops after some renames. -/
theorem CrashInv.interrupt (hinv : CrashInv format resolution clocked latest plain sys)
    (hst : st ∈ sys.attempt.stat?)
    (hcommit : Committable format resolution sys.series st plans remainder closed)
    (published : Nat)
    (hsystem : SystemInv format resolution
      { sys.finish .failed with series := (plans.take published).foldl publish sys.series }) :
    CrashInv format resolution clocked latest plain
      { sys.finish .failed with series := (plans.take published).foldl publish sys.series } where
  system := hsystem
  replica := by
    have hwf := hinv.system.wf
    obtain ⟨front, hreplica, hsettled⟩ := hinv.replica
    refine ⟨front, hreplica.publish hwf hcommit published, fun hclock => ?_⟩
    obtain ⟨early, hearly⟩ := hsettled hclock
    refine ⟨closed, (hearly.attempt st hst).1 ▸ hcommit.isClosed, ?_, fun line hline => ?_, ?_⟩
    · rw [activeContent_foldl_publish]
      exact hcommit.beginning
    · rcases ((hcommit.ready.take published).mem_archived_foldl hwf).mp hline with
        hold | ⟨plan, -, hperiod⟩
      · exact (hearly.archived line hold).imp_right fun hmem =>
          hmem.imp_right fun hmem => (hearly.early_isPrefix hst hcommit).subset hmem
      · exact Or.inr (Or.inr (mem_periodLines.mp hperiod).1)
    · intro other hother
      cases hother
  ordered := by
    intro hplain
    obtain ⟨front, hreplica, -⟩ := hinv.replica
    exact (hcommit.ready.take published).segmentsIncreasing_foldl hinv.system.wf
      (hinv.ordered hplain) (hreplica.increasing_closed hcommit hplain) hplain.oneLinePerStamp
      hreplica.known fun line hline hsome => hreplica.mem_wholeRecords
        (fun line hline => (hcommit.isClosed line hline).1) hcommit.beginning hline hsome

/-- After a commit nothing is archived too early any more. -/
theorem Settled.commit (hsettled : Settled format latest plain front early sys)
    (hwf : sys.series.WF format resolution) (hst : st ∈ sys.attempt.stat?)
    (hcommit : Committable format resolution sys.series st plans remainder closed)
    {line : Text}
    (hline : line ∈ Store.archived format (commitSeries plans remainder st.size sys.series)) :
    line ∈ Store.archived format plain ∨ line ∈ front ++ closed := by
  rcases (hcommit.mem_archived hwf).mp hline with hold | ⟨hmem, -⟩
  · rcases hsettled.archived line hold with hplain | hfront | hearly
    · exact Or.inl hplain
    · exact Or.inr (List.mem_append_left _ hfront)
    · exact Or.inr (List.mem_append_right _
        ((hsettled.early_isPrefix hst hcommit).subset hearly))
  · exact Or.inr (List.mem_append_right _ hmem)

theorem CrashInv.commit (hinv : CrashInv format resolution clocked latest plain sys)
    (hst : st ∈ sys.attempt.stat?)
    (hcommit : Committable format resolution sys.series st plans remainder closed)
    (moved : Nat) :
    CrashInv format resolution clocked latest plain
      { sys.finish (.moved moved) with
        series := commitSeries plans remainder st.size sys.series } where
  system := ⟨hcommit.wf hinv.system.wf, trivial⟩
  replica := by
    obtain ⟨front, hreplica, hsettled⟩ := hinv.replica
    refine ⟨front ++ closed, hreplica.commit hinv.system.wf hcommit, fun hclock => ?_⟩
    obtain ⟨early, hearly⟩ := hsettled hclock
    refine ⟨[], by simp, List.nil_prefix, fun line hline => ?_, fun other hother => ?_⟩
    · exact (hearly.commit hinv.system.wf hst hcommit hline).imp_right Or.inl
    · cases hother
  ordered := by
    intro hplain
    obtain ⟨front, hreplica, -⟩ := hinv.replica
    exact hcommit.segmentsIncreasing hinv.system.wf
      (hinv.ordered hplain) (hreplica.increasing_closed hcommit hplain) hplain.oneLinePerStamp
      hreplica.known fun line hline hsome => hreplica.mem_wholeRecords
        (fun line hline => (hcommit.isClosed line hline).1) hcommit.beginning hline hsome

/-- A step of an attempt that leaves the series alone. -/
theorem CrashInv.quiet {latest' : Int}
    (hinv : CrashInv format resolution clocked latest plain sys)
    (hsystem : SystemInv format resolution next) (hseries : next.series = sys.series)
    (hclock : clocked → latest ≤ latest')
    (hattempt : ∀ st ∈ next.attempt.stat?,
      st.hotStart = latest' ∧ st.size = sys.series.activeContent.length ∨
        latest' = latest ∧ st ∈ sys.attempt.stat?) :
    CrashInv format resolution clocked latest' plain next where
  system := hsystem
  replica := by
    obtain ⟨front, hreplica, hsettled⟩ := hinv.replica
    refine ⟨front, hseries ▸ hreplica, fun hclocked => ?_⟩
    obtain ⟨early, hearly⟩ := hsettled hclocked
    refine ⟨early, fun line hline => (hearly.isClosed line hline).mono (hclock hclocked),
      hseries ▸ hearly.beginning, hseries ▸ hearly.archived, fun st hst => ?_⟩
    rcases hattempt st hst with ⟨hlatest, hsize⟩ | ⟨rfl, hold⟩
    · exact ⟨hlatest, hsize ▸ hearly.beginning.length_le⟩
    · exact hearly.attempt st hold
  ordered := hseries ▸ hinv.ordered

theorem crash_step {act : Act V} (hinv : CrashInv format resolution clocked latest plain sys)
    (hact : ∀ write, act = .write write → ∃ ts value, write = .append ts value)
    (hclock : clocked → latest ≤ later latest act)
    (hstep : step format resolution sys act = some next) :
    CrashInv format resolution clocked (later latest act)
      (writersOnly format resolution [act] plain) next := by
  have hsystem := step_inv hinv.system hstep
  rcases step_cases hstep with
    ⟨write, rfl, rfl⟩ | ⟨published, rfl, -, rfl⟩ | ⟨hwrite, hadvance⟩
  · obtain ⟨ts, value, rfl⟩ := hact write rfl
    exact hinv.append ts value
  · -- interrupt
    cases hattempt : sys.attempt with
    | staged st plans remainder moved =>
        rw [hattempt] at hsystem
        simp only [interrupted] at hsystem ⊢
        split_ifs with hmay
        · rw [if_pos hmay] at hsystem
          obtain ⟨closed, hcommit⟩ := committable (hattempt ▸ hinv.system.attempt) hmay
          exact hinv.interrupt (by rw [hattempt]; rfl) hcommit published hsystem
        · rw [if_neg hmay] at hsystem
          exact hinv.quiet hsystem rfl (fun _ => le_refl _) fun st hst => by cases hst
    | _ =>
        rw [hattempt] at hsystem
        exact hinv.quiet hsystem rfl (fun _ => le_refl _) fun st hst => by cases hst
  · have hplain : writersOnly format resolution [act] plain = plain := by
      cases act with
      | write write => exact absurd rfl (hwrite write)
      | _ => rfl
    rw [hplain]
    rcases advance_cases hadvance with ⟨hotStart, rfl, -, hseries, hstat⟩ |
      ⟨-, hnostat, hseries, hstat, -⟩ | ⟨st, plans, remainder, moved, rfl, hattempt, hmay, rfl⟩
    · exact hinv.quiet hsystem hseries hclock fun st hst => Or.inl (hstat st hst)
    · have hlater : later latest act = latest := by
        cases act with
        | stat hotStart => exact absurd rfl (hnostat hotStart)
        | _ => rfl
      rw [hlater]
      exact hinv.quiet hsystem hseries (fun _ => le_refl _) fun st hst =>
        Or.inr ⟨rfl, hstat st hst⟩
    · obtain ⟨closed, hcommit⟩ := committable (hattempt ▸ hinv.system.attempt) hmay
      exact hinv.commit (by rw [hattempt]; rfl) hcommit moved

end Steps

/-- The starts of the attempts, from `latest` on, never decrease. -/
def Clocked (latest : Int) (acts : List (Act V)) : Prop :=
  (latest :: hotStarts acts).Pairwise (· ≤ ·)

theorem Clocked.cons {latest : Int} {act : Act V} {rest : List (Act V)}
    (hclocked : Clocked latest (act :: rest)) :
    latest ≤ later latest act ∧ Clocked (later latest act) rest := by
  cases act with
  | stat hotStart =>
      obtain ⟨hfirst, hrest⟩ := List.pairwise_cons.mp hclocked
      exact ⟨hfirst hotStart (by simp [hotStarts]), hrest⟩
  | _ => exact ⟨le_refl _, hclocked⟩

theorem exists_clocked {acts : List (Act V)} (hclock : (hotStarts acts).Pairwise (· ≤ ·)) :
    ∃ first, Clocked first acts := by
  unfold Clocked
  cases hstarts : hotStarts acts with
  | nil => exact ⟨0, by simp⟩
  | cons first rest =>
      rw [hstarts] at hclock
      refine ⟨first, List.pairwise_cons.mpr ⟨fun other hother => ?_, hclock⟩⟩
      rcases List.mem_cons.mp hother with rfl | hother
      · exact le_refl _
      · exact (List.pairwise_cons.mp hclock).1 other hother

theorem crash_run {clocked : Prop} {latest : Int} {plain : Series} {sys final : System}
    {acts : List (Act V)} (hinv : CrashInv format resolution clocked latest plain sys)
    (hacts : AppendsOnly acts) (hclocked : clocked → Clocked latest acts)
    (hrun : Transition.run (step format resolution) sys acts = some final) :
    ∃ latest', CrashInv format resolution clocked latest'
      (writersOnly format resolution acts plain) final := by
  induction acts generalizing latest plain sys with
  | nil =>
      cases hrun
      exact ⟨latest, hinv⟩
  | cons act rest ih =>
      obtain ⟨next, hnext, hrest⟩ := Transition.run_cons hrun
      have hone := crash_step hinv (hacts act (by simp)) (fun h => (hclocked h).cons.1) hnext
      exact ih hone (fun other hother => hacts other (by simp [hother]))
        (fun h => (hclocked h).cons.2) hrest

theorem CrashInv.start {s : Series} (hwf : s.WF format resolution) (clocked : Prop)
    (latest : Int) :
    CrashInv format resolution clocked latest s (System.start s) where
  system := start_inv hwf
  replica := ⟨[], .refl s, fun _ => ⟨[], by simp, List.nil_prefix, fun _ hline => Or.inl hline,
    fun st hst => by cases hst⟩⟩
  ordered := fun hplain entry hentry => by
    have harchived : Increasing format (archived format s) :=
      (List.pairwise_append.mp hplain).1
    exact (List.pairwise_flatMap.mp harchived).1 entry hentry

/-- A commit restores the sequence of the records. -/
theorem CrashInv.records_commit {latest : Int} {plain : Series} {sys : System}
    (hinv : CrashInv format resolution True latest plain sys) {st : Stat} {plans : List Plan}
    {remainder : Text} {closed : List Text} (hst : st ∈ sys.attempt.stat?)
    (hcommit : Committable format resolution sys.series st plans remainder closed)
    (hplain : Increasing format (records format plain)) :
    records format (commitSeries plans remainder st.size sys.series) =
      records format plain := by
  have hwf := hinv.system.wf
  obtain ⟨front, hreplica, hsettled⟩ := hinv.replica
  obtain ⟨early, hearly⟩ := hsettled trivial
  have hnext := hreplica.commit hwf hcommit
  have hsegments := (hinv.commit hst hcommit 0).ordered (hplain.sublist (wholeRecords_sublist _))
  rw [records_eq, records_eq, hnext.validLines_active, ← List.append_assoc]
  congr 1
  refine Increasing.eq_of_mem_iff lineBefore_asymm
    (increasing_archived (hcommit.wf hwf) hsegments) ?_ fun line => ?_
  · rw [records_eq, hnext.validLines_active, ← List.append_assoc] at hplain
    exact (List.pairwise_append.mp hplain).1
  · rw [List.mem_append, List.mem_filter]
    constructor
    · intro hline
      have hvalid : (lineTs format line).isSome := by
        obtain ⟨entry, -, hentry⟩ := mem_archived.mp hline
        exact (mem_validLines.mp hentry).2
      exact (hearly.commit hwf hst hcommit hline).imp_right fun hmem => ⟨hmem, hvalid⟩
    · exact hnext.kept line

theorem records_writersOnly {s : Series} {acts : List (Act V)} (hacts : AppendsOnly acts)
    (hcomplete : Lines.Complete '\n' s.activeContent) :
    records format (writersOnly format resolution acts s) =
      records format s ++ appendedLines format acts := by
  induction acts generalizing s with
  | nil => simp [writersOnly, appendedLines]
  | cons act rest ih =>
      have hrest : AppendsOnly rest := fun other hother => hacts other (by simp [hother])
      cases act with
      | write write =>
          obtain ⟨ts, value, rfl⟩ := hacts _ (by simp) write rfl
          have hline := isLine_recordLine format ts value
          have hwhole : Lines.Complete '\n' (appendPoint format ts value s).activeContent := by
            rw [appendPoint, activeContent_append]
            exact hcomplete.append hline.complete
          have hnext := ih hrest hwhole
          have hrecords : records format (appendPoint format ts value s) =
              records format s ++ [recordLine format ts value] := by
            rw [records_eq, records_eq, appendPoint, archived_append, activeContent_append,
              validLines_append hcomplete, validLines_recordLine, List.append_assoc]
          rw [hrecords, List.append_assoc] at hnext
          exact hnext
      | _ => exact ih hrest hcomplete

/-- `_compact_series` interrupted at any point, any number of times, with
appends in between, compared with the same appends to a series that is never
compacted.  Both hold the same records at any time.  If the starts of the
attempts never decrease and the records are in order, then a commit leaves them
in the same sequence. -/
theorem compaction_survives_interrupts (s : PeriodSeries format resolution)
    (acts : List (Act V)) (sys : System)
    (hrun : Transition.run (step format resolution) (System.start s.val) acts = some sys)
    (hacts : AppendsOnly acts) :
    let plain := writersOnly format resolution acts s.val
    (Lines.Complete '\n' s.val.activeContent →
      records format plain = records format s.val ++ appendedLines format acts) ∧
    (∀ line, line ∈ records format sys.series ↔ line ∈ records format plain) ∧
    ((hotStarts acts).Pairwise (· ≤ ·) → Increasing format (records format plain) →
      ∀ next moved, step format resolution sys .commit = some next →
        next.outcome = some (.moved moved) →
          records format next.series = records format plain) := by
  intro plain
  refine ⟨records_writersOnly hacts, fun line => ?_, ?_⟩
  · obtain ⟨latest, hinv⟩ := crash_run (.start s.property False 0) hacts (fun h => h.elim) hrun
    obtain ⟨front, hreplica, -⟩ := hinv.replica
    exact hreplica.mem_records
  · intro hclock hplain next moved hstep hmoved
    obtain ⟨first, hfirst⟩ := exists_clocked hclock
    obtain ⟨latest, hinv⟩ := crash_run (.start s.property True first) hacts (fun _ => hfirst) hrun
    obtain ⟨st, plans, remainder, hattempt, hmay, hseries⟩ := commit_of_moved hmoved hstep
    obtain ⟨closed, hcommit⟩ := committable (hattempt ▸ hinv.system.attempt) hmay
    rw [hseries]
    exact hinv.records_commit (by rw [hattempt]; rfl) hcommit hplain

/-- Two days, an interruption behind the rename of their segment, a third day and
a commit. -/
theorem compaction_survives_interrupts_once :
    ∃ sys next, Transition.run (step JsonLine.format .raw) (System.start Series.empty)
        [.write (.append 0 1), .write (.append 90000000000 2), .stat 172800000000, .scan, .plan,
          .stage, .interrupt 1, .write (.append 180000000000 3), .stat 259200000000, .scan,
          .plan, .stage] = some sys ∧
      step JsonLine.format .raw sys .commit = some next ∧ next.outcome = some (.moved 3) ∧
        records JsonLine.format next.series =
          [recordLine JsonLine.format 0 1, recordLine JsonLine.format 90000000000 2,
            recordLine JsonLine.format 180000000000 3] := by
  have hany : (Transition.run (step JsonLine.format .raw) (System.start Series.empty)
      [.write (.append 0 1), .write (.append 90000000000 2), .stat 172800000000, .scan, .plan,
        .stage, .interrupt 1, .write (.append 180000000000 3), .stat 259200000000, .scan,
        .plan, .stage]).any (fun sys => (step JsonLine.format .raw sys .commit).any fun next =>
          decide (next.outcome = some (.moved 3))) = true := by decide +kernel
  obtain ⟨sys, hrun, hsys⟩ := (Option.any_eq_true ..).mp hany
  obtain ⟨next, hstep, hmoved⟩ := (Option.any_eq_true ..).mp hsys
  have hmoved : next.outcome = some (.moved 3) := of_decide_eq_true hmoved
  have hacts : AppendsOnly ([.write (.append 0 1), .write (.append 90000000000 2),
      .stat 172800000000, .scan, .plan, .stage, .interrupt 1, .write (.append 180000000000 3),
      .stat 259200000000, .scan, .plan, .stage] : List (Act (Fin 10))) := by
    intro act hact write hwrite
    subst hwrite
    simp only [List.mem_cons, Act.write.injEq, reduceCtorEq, List.not_mem_nil, false_or,
      or_false] at hact
    rcases hact with rfl | rfl | rfl <;> exact ⟨_, _, rfl⟩
  obtain ⟨-, -, hcommit⟩ := compaction_survives_interrupts ⟨Series.empty, wf_empty⟩ _ sys hrun
    hacts
  refine ⟨sys, next, hrun, hstep, hmoved, ?_⟩
  rw [hcommit (by decide) (by decide +kernel) next 3 hstep hmoved]
  decide +kernel

/-- An attempt is interrupted behind the rename of the segment of two days, and
the next one starts with a clock that has gone back by a day: the record of the
second day stays in the active file and in the segment. -/
theorem compaction_repeats_record_when_clock_goes_back :
    ∃ sys next, Transition.run (step JsonLine.format .raw) (System.start Series.empty)
        [.write (.append 0 1), .write (.append 90000000000 2), .stat 172800000000, .scan, .plan,
          .stage, .interrupt 1, .stat 86400000000, .scan, .plan, .stage] = some sys ∧
      step JsonLine.format .raw sys .commit = some next ∧ next.outcome = some (.moved 1) ∧
        records JsonLine.format next.series =
          [recordLine JsonLine.format 0 1, recordLine JsonLine.format 90000000000 2,
            recordLine JsonLine.format 90000000000 2] := by
  have hany : (Transition.run (step JsonLine.format .raw) (System.start Series.empty)
      [.write (.append 0 1), .write (.append 90000000000 2), .stat 172800000000, .scan, .plan,
        .stage, .interrupt 1, .stat 86400000000, .scan, .plan, .stage]).any (fun sys =>
          (step JsonLine.format .raw sys .commit).any fun next =>
            decide (next.outcome = some (.moved 1)) &&
              decide (records JsonLine.format next.series =
                [recordLine JsonLine.format 0 1, recordLine JsonLine.format 90000000000 2,
                  recordLine JsonLine.format 90000000000 2])) = true := by decide +kernel
  obtain ⟨sys, hrun, hsys⟩ := (Option.any_eq_true ..).mp hany
  obtain ⟨next, hstep, hnext⟩ := (Option.any_eq_true ..).mp hsys
  rw [Bool.and_eq_true, decide_eq_true_eq, decide_eq_true_eq] at hnext
  exact ⟨sys, next, hrun, hstep, hnext.1, hnext.2⟩

end Justup.Store
