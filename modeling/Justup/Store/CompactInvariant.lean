import Justup.Store.CompactRun

/-!
# The invariant of an attempt

Between its steps an attempt relies on three things only: the file it has
statted grows at its end as long as it is the active file, what it has scanned
are the first lines of that file, and a segment with the signature it has noted
is the segment it has read.
-/

namespace Justup.Store

open Justup.Lib

variable {V : Type*} {format : LineFormat V} {resolution : Resolution}

/-! ## What writers can do -/

/-- The effect of a writer, as far as an attempt can notice it. -/
structure Disturbed (s s' : Series) : Prop where
  stamp : s.stamp ≤ s'.stamp
  active : ∀ file ∈ s'.active, s.stamp ≤ file.ino ∨
    ∃ old ∈ s.active, old.ino = file.ino ∧ old.content <+: file.content
  segments : ∀ key, Dict.get? key s'.segments = none ∨
    Dict.get? key s'.segments = Dict.get? key s.segments ∨
      ∃ segment, Dict.get? key s'.segments = some segment ∧ s.stamp ≤ segment.sig

theorem disturbed_of_active {s s' : Series} (hsegments : s'.segments = s.segments)
    (hstamp : s.stamp ≤ s'.stamp)
    (hactive : s'.active = s.active ∨ ∀ file ∈ s'.active, s.stamp ≤ file.ino) :
    Disturbed s s' where
  stamp := hstamp
  active := by
    intro file hfile
    rcases hactive with hsame | hnew
    · exact Or.inr ⟨file, hsame ▸ hfile, rfl, List.prefix_rfl⟩
    · exact Or.inl (hnew file hfile)
  segments := fun key => Or.inr (Or.inl (by rw [hsegments]))

theorem disturbed_append (text : Text) (s : Series) : Disturbed s (s.append text) where
  stamp := stamp_le_append text s
  active := by
    intro file hfile
    obtain ⟨file', hfile', ⟨old, hold, heq⟩ | ⟨-, heq, -⟩⟩ := active_append text s
    · rw [hfile', Option.mem_some_iff] at hfile
      subst hfile
      subst heq
      exact Or.inr ⟨old, hold, rfl, List.prefix_append _ _⟩
    · rw [hfile', Option.mem_some_iff] at hfile
      subst hfile
      subst heq
      exact Or.inl (le_refl _)
  segments := fun key => Or.inr (Or.inl (by rw [segments_append]))

theorem Write.disturbed {s : Series} (hwf : s.WF format resolution) (write : Write V) :
    Disturbed s (write.apply format resolution s) := by
  cases write with
  | append ts value => exact disturbed_append _ s
  | prune cutoff =>
      refine disturbed_of_active (segments_pruneActive cutoff s) (stamp_le_pruneActive cutoff s) ?_
      exact (active_pruneActive format cutoff s).imp_right fun hnew file hfile =>
        (hnew file hfile).1.ge
  | pruneSeries cutoff =>
      refine ⟨stamp_le_pruneSeries cutoff s, fun file hfile => ?_, fun key => ?_⟩
      · rcases active_pruneSeries format resolution cutoff s with
          hsame | hnew
        · exact Or.inr ⟨file, hsame ▸ hfile, rfl, List.prefix_rfl⟩
        · exact Or.inl (hnew file hfile)
      · have hget := get?_pruneSegments hwf cutoff key
        rw [← segments_pruneSeries] at hget
        exact hget

theorem Write.wf {s : Series} (hwf : s.WF format resolution) (write : Write V) :
    (write.apply format resolution s).WF format resolution := by
  cases write with
  | append ts value => exact hwf.append _
  | prune cutoff => exact hwf.pruneActive cutoff
  | pruneSeries cutoff => exact hwf.pruneSeries cutoff

/-! ## The invariant -/

/-- What the scan has found is the longest beginning of closed lines in the
statted part of the file, as long as the file is there. -/
structure Scanned (format : LineFormat V) (st : Stat) (consumed : Nat) (closed : List Text)
    (s : Series) : Prop where
  isClosed : ∀ line ∈ closed, Closed format st.hotStart line
  length : consumed = closed.flatten.length
  le : consumed ≤ st.size
  grown : ∀ file ∈ s.active, file.ino = st.ino →
    st.size ≤ file.content.length ∧ closed.flatten <+: file.content
  maximal : ∀ file ∈ s.active, file.ino = st.ino → ∀ lines,
    (∀ line ∈ lines, Closed format st.hotStart line) → lines.flatten.length ≤ st.size →
      lines.flatten <+: file.content → lines <+: closed

/-- A plan replaces the segment whose signature it has noted. -/
def Based (format : LineFormat V) (resolution : Resolution) (closed : List Text) (s : Series)
    (plan : Plan) : Prop :=
  ∃ old, Replaces format resolution closed old plan ∧
    (∀ sig ∈ plan.expectedSig, sig < s.stamp) ∧
      ((Dict.get? plan.key s.segments).map Segment.sig = plan.expectedSig →
        Dict.get? plan.key s.segments = old)

/-- The periods of the closed lines, oldest first. -/
def periods (format : LineFormat V) (resolution : Resolution) (closed : List Text) :
    List PeriodKey :=
  (fillChunks resolution (stamped format closed) []).map Prod.fst

def AttemptInv (format : LineFormat V) (resolution : Resolution) (s : Series) :
    Attempt → Prop
  | .idle => True
  | .statted st =>
      st.ino < s.stamp ∧
        ∀ file ∈ s.active, file.ino = st.ino → st.size ≤ file.content.length
  | .planning st consumed todo plans _ =>
      st.ino < s.stamp ∧ ∃ closed, Scanned format st consumed closed s ∧
        (∀ entry ∈ todo, entry.2 = periodChunk format resolution closed entry.1) ∧
          plans.map Plan.key ++ todo.map Prod.fst = periods format resolution closed ∧
            ∀ plan ∈ plans, Based format resolution closed s plan
  | .staged st plans remainder _ =>
      st.ino < s.stamp ∧ ∃ consumed closed, Scanned format st consumed closed s ∧
        (∀ file ∈ s.active, file.ino = st.ino →
          remainder = stageRemainder consumed st.size file.content) ∧
          plans.map Plan.key = periods format resolution closed ∧
            ∀ plan ∈ plans, Based format resolution closed s plan

/-- The invariant of the system. -/
structure SystemInv (format : LineFormat V) (resolution : Resolution) (sys : System) : Prop where
  wf : sys.series.WF format resolution
  attempt : AttemptInv format resolution sys.series sys.attempt

/-! ## Writers keep it -/

section Writers

variable {s s' : Series}

/-- The statted file, if it is still there, is the old one with more at its end. -/
theorem Disturbed.file (hdisturbed : Disturbed s s') {st : Stat} (hino : st.ino < s.stamp)
    {file : File} (hfile : file ∈ s'.active) (hsame : file.ino = st.ino) :
    ∃ old ∈ s.active, old.ino = st.ino ∧ old.content <+: file.content := by
  rcases hdisturbed.active file hfile with hnew | ⟨old, hold, hsameOld, hbegins⟩
  · omega
  · exact ⟨old, hold, hsameOld.trans hsame, hbegins⟩

theorem Scanned.disturbed {st : Stat} {consumed : Nat} {closed : List Text}
    (hscanned : Scanned format st consumed closed s) (hino : st.ino < s.stamp)
    (hdisturbed : Disturbed s s') : Scanned format st consumed closed s' where
  isClosed := hscanned.isClosed
  length := hscanned.length
  le := hscanned.le
  grown := by
    intro file hfile hsame
    obtain ⟨old, hold, hsameOld, hbegins⟩ := hdisturbed.file hino hfile hsame
    obtain ⟨hsize, hclosed⟩ := hscanned.grown old hold hsameOld
    exact ⟨hsize.trans hbegins.length_le, hclosed.trans hbegins⟩
  maximal := by
    intro file hfile hsame lines hlines hlength hbegin
    obtain ⟨old, hold, hsameOld, hbegins⟩ := hdisturbed.file hino hfile hsame
    obtain ⟨hsize, -⟩ := hscanned.grown old hold hsameOld
    exact hscanned.maximal old hold hsameOld lines hlines hlength
      (List.prefix_of_prefix_length_le hbegin hbegins (hlength.trans hsize))

theorem Based.disturbed {closed : List Text} {plan : Plan}
    (hplan : Based format resolution closed s plan) (hdisturbed : Disturbed s s') :
    Based format resolution closed s' plan := by
  obtain ⟨old, hreplaces, hsig, hsame⟩ := hplan
  refine ⟨old, hreplaces, fun sig hmem => (hsig sig hmem).trans_le hdisturbed.stamp, ?_⟩
  intro hmatch
  rcases hdisturbed.segments plan.key with hnone | hkept | ⟨segment, hnew, hle⟩
  · -- a plan built against no segment stays right when there is none
    rw [hnone, Option.map_none, hreplaces.sig, eq_comm, Option.map_eq_none_iff] at hmatch
    rw [hnone, hmatch]
  · rw [hkept] at hmatch ⊢
    exact hsame hmatch
  · rw [hnew, Option.map_some] at hmatch
    have hlt := hsig segment.sig hmatch.symm
    omega

/-- The bytes that were staged have not changed. -/
theorem stageRemainder_of_isPrefix {consumed size : Nat} {old new : Text}
    (hsize : size ≤ old.length) (hbegins : old <+: new) :
    stageRemainder consumed size new = stageRemainder consumed size old := by
  obtain ⟨more, rfl⟩ := hbegins
  unfold stageRemainder
  rcases le_total consumed old.length with hle | hle
  · rw [List.drop_append_of_le_length hle, List.take_append_of_le_length]
    rw [List.length_drop]
    omega
  · have hzero : size - consumed = 0 := by omega
    rw [hzero, List.take_zero, List.take_zero]

theorem AttemptInv.disturbed {attempt : Attempt}
    (hinv : AttemptInv format resolution s attempt) (hdisturbed : Disturbed s s') :
    AttemptInv format resolution s' attempt := by
  cases attempt with
  | idle => trivial
  | statted st =>
      obtain ⟨hino, hsize⟩ := hinv
      refine ⟨hino.trans_le hdisturbed.stamp, fun file hfile hsame => ?_⟩
      obtain ⟨old, hold, hsameOld, hbegins⟩ := hdisturbed.file hino hfile hsame
      exact (hsize old hold hsameOld).trans hbegins.length_le
  | planning st consumed todo plans moved =>
      obtain ⟨hino, closed, hscanned, htodo, hkeys, hplans⟩ := hinv
      exact ⟨hino.trans_le hdisturbed.stamp, closed, hscanned.disturbed hino hdisturbed, htodo,
        hkeys, fun plan hplan => (hplans plan hplan).disturbed hdisturbed⟩
  | staged st plans remainder moved =>
      obtain ⟨hino, consumed, closed, hscanned, hremainder, hkeys, hplans⟩ := hinv
      refine ⟨hino.trans_le hdisturbed.stamp, consumed, closed,
        hscanned.disturbed hino hdisturbed, fun file hfile hsame => ?_, hkeys,
        fun plan hplan => (hplans plan hplan).disturbed hdisturbed⟩
      obtain ⟨old, hold, hsameOld, hbegins⟩ := hdisturbed.file hino hfile hsame
      rw [stageRemainder_of_isPrefix (hscanned.grown old hold hsameOld).1 hbegins]
      exact hremainder old hold hsameOld

end Writers

/-! ## The attempt keeps it -/

theorem ordered_fillChunks (items : List (Text × Int)) :
    Dict.Ordered (fillChunks resolution items []) :=
  Dict.Ordered.fill _ Dict.ordered_nil

theorem chunk_of_mem {closed : List Text} {entry : PeriodKey × Chunk}
    (hentry : entry ∈ fillChunks resolution (stamped format closed) []) :
    entry.2 = periodChunk format resolution closed entry.1 := by
  have hget := Dict.get?_of_mem (ordered_fillChunks (stamped format closed)) hentry
  rw [get?_fillChunks] at hget
  split_ifs at hget
  exact (Option.some.inj hget).symm

theorem pairwise_periods (format : LineFormat V) (resolution : Resolution) (closed : List Text) :
    (periods format resolution closed).Pairwise (· < ·) :=
  List.pairwise_map.mpr (ordered_fillChunks _)

theorem mem_periods (resolution : Resolution) {closed : List Text} {line : Text} (hline : line ∈ closed) {ts : Int}
    (hts : ts ∈ lineTs format line) :
    periodKey resolution ts ∈ periods format resolution closed := by
  have hitem : (line, ts) ∈ (stamped format closed).filter
      fun item => periodKey resolution ts = periodKey resolution item.2 :=
    List.mem_filter.mpr ⟨mem_stamped.mpr ⟨hline, hts⟩, by simp⟩
  have hget := get?_fillChunks resolution (stamped format closed)
    (periodKey resolution ts)
  rw [if_neg (List.ne_nil_of_mem hitem)] at hget
  exact List.mem_map.mpr ⟨_, Dict.mem_of_get? hget, rfl⟩

theorem scan_inv (resolution : Resolution) {st : Stat} {s : Series} {file : File} (hfile : s.active = some file)
    (hsize : st.size ≤ file.content.length) :
    ∃ consumed closed, Scanned format st consumed closed s ∧
      scanClosedPrefix format resolution st.hotStart st.size file.content =
        (consumed, fillChunks resolution (stamped format closed) []) := by
  obtain ⟨closed, rest, hsplit, hclosed, hbound, hmaximal, hscan⟩ :=
    scanClosedPrefix_spec format resolution st.hotStart st.size
      file.content
  have hlines : ∀ line ∈ closed, Lines.IsLine '\n' line := fun line hline => (hclosed line hline).1
  have hactive : ∀ other ∈ s.active, other = file := fun other hother =>
    (Option.some.inj (hfile.symm.trans hother)).symm
  refine ⟨_, closed, ⟨hclosed, rfl, hbound, ?_, ?_⟩, hscan⟩
  · intro other hother _
    rw [hactive other hother]
    exact ⟨hsize, (Lines.prefix_rawLines_iff hlines).mp ⟨rest, hsplit.symm⟩⟩
  · intro other hother _ lines hall hlength hbegin
    rw [hactive other hother] at hbegin
    obtain ⟨more, hmore⟩ :=
      (Lines.prefix_rawLines_iff fun line hline => (hall line hline).1).mpr hbegin
    exact hmaximal lines more hmore.symm hall hlength

theorem plan_inv {s : Series} (hwf : s.WF format resolution) {st : Stat} {consumed : Nat}
    {closed : List Text} (hscanned : Scanned format st consumed closed s) {key : PeriodKey}
    {plan : Plan}
    (hplan : planSegment format s.segments key (periodChunk format resolution closed key) =
      some plan) : plan.key = key ∧ Based format resolution closed s plan := by
  obtain ⟨hkey, hreplaces⟩ := planSegment_spec
    (fun line hline => (hscanned.isClosed line hline).1)
    (fun segment hsegment => hwf.complete _ (Dict.mem_of_get? hsegment)) hplan
  refine ⟨hkey, _, hreplaces, fun sig hsig => ?_, fun _ => by rw [hkey]⟩
  rw [hreplaces.sig, Option.mem_def, Option.map_eq_some_iff] at hsig
  obtain ⟨segment, hsegment, rfl⟩ := hsig
  exact hwf.sig_lt _ (Dict.mem_of_get? hsegment)

theorem mayCommit_iff {st : Stat} {plans : List Plan} {s : Series} :
    mayCommit st plans s = true ↔
      ∃ file, s.active = some file ∧ file.ino = st.ino ∧ st.size ≤ file.content.length ∧
        ∀ plan ∈ plans,
          (Dict.get? plan.key s.segments).map Segment.sig = plan.expectedSig := by
  unfold mayCommit signaturesMatch
  cases s.active with
  | none => simp
  | some file => simp [and_assoc]

/-- What the checks of the locked part establish. -/
structure Committable (format : LineFormat V) (resolution : Resolution) (s : Series)
    (st : Stat) (plans : List Plan) (remainder : Text) (closed : List Text) : Prop where
  isClosed : ∀ line ∈ closed, Closed format st.hotStart line
  beginning : closed.flatten <+: s.activeContent
  maximal : ∀ lines, (∀ line ∈ lines, Closed format st.hotStart line) →
    lines.flatten.length ≤ st.size → lines.flatten <+: s.activeContent → lines <+: closed
  size : st.size ≤ s.activeContent.length
  le : closed.flatten.length ≤ st.size
  remainder : remainder = stageRemainder closed.flatten.length st.size s.activeContent
  ready : AllReady format resolution closed s plans
  covers : Covers format resolution closed plans

theorem committable {s : Series} {st : Stat} {plans : List Plan} {remainder : Text} {moved : Nat}
    (hinv : AttemptInv format resolution s (.staged st plans remainder moved))
    (hcommit : mayCommit st plans s = true) :
    ∃ closed, Committable format resolution s st plans remainder closed := by
  obtain ⟨-, consumed, closed, hscanned, hremainder, hkeys, hplans⟩ := hinv
  obtain ⟨file, hfile, hsame, hsize, hmatch⟩ := mayCommit_iff.mp hcommit
  have hcontent : s.activeContent = file.content := by rw [Series.activeContent, hfile]
  have hdistinct : plans.Pairwise fun plan other => plan.key ≠ other.key := by
    have hpairwise := pairwise_periods format resolution closed
    rw [← hkeys, List.pairwise_map] at hpairwise
    exact hpairwise.imp fun hlt => hlt.ne
  refine ⟨closed, ?_⟩
  exact {
    isClosed := hscanned.isClosed
    beginning := hcontent ▸ (hscanned.grown file hfile hsame).2
    maximal := hcontent ▸ hscanned.maximal file hfile hsame
    size := hcontent ▸ hsize
    le := hscanned.length ▸ hscanned.le
    remainder := by
      rw [hcontent, ← hscanned.length]
      exact hremainder file hfile hsame
    ready := ⟨hdistinct, fun plan hplan => by
      obtain ⟨old, hreplaces, -, hsameSegment⟩ := hplans plan hplan
      rw [Ready, hsameSegment (hmatch plan hplan)]
      exact hreplaces⟩
    covers := fun line hline ts hts => by
      have hmem := mem_periods resolution hline hts
      rw [← hkeys] at hmem
      exact List.mem_map.mp hmem }

section Commit

variable {s : Series} {st : Stat} {plans : List Plan} {remainder : Text} {closed : List Text}

theorem Committable.wf (hwf : s.WF format resolution)
    (hcommit : Committable format resolution s st plans remainder closed) :
    (commitSeries plans remainder st.size s).WF format resolution :=
  hcommit.ready.wf_commitSeries hwf

/-- The segments gain the closed records. -/
theorem Committable.mem_archived (hwf : s.WF format resolution)
    (hcommit : Committable format resolution s st plans remainder closed) {line : Text} :
    line ∈ archived format (commitSeries plans remainder st.size s) ↔
      line ∈ archived format s ∨ line ∈ closed ∧ (lineTs format line).isSome := by
  rw [archived_commitSeries, hcommit.ready.mem_archived_foldl hwf, hcommit.covers.mem_iff]

/-- The active file loses the closed lines. -/
theorem Committable.active
    (hcommit : Committable format resolution s st plans remainder closed) :
    s.activeContent =
      closed.flatten ++ (commitSeries plans remainder st.size s).activeContent := by
  rw [activeContent_commitSeries hcommit.le hcommit.remainder]
  obtain ⟨rest, hrest⟩ := hcommit.beginning
  rw [← hrest, List.drop_left]

theorem Committable.validLines_active
    (hcommit : Committable format resolution s st plans remainder closed) :
    validLines format s.activeContent =
      closed.filter (fun line => (lineTs format line).isSome) ++
        validLines format (commitSeries plans remainder st.size s).activeContent := by
  have hlines : ∀ line ∈ closed, Lines.IsLine '\n' line := fun line hline =>
    (hcommit.isClosed line hline).1
  conv =>
    lhs
    rw [hcommit.active]
  rw [validLines_append (Lines.complete_flatten hlines), validLines_flatten hlines]

theorem Committable.segmentsIncreasing (hwf : s.WF format resolution)
    (hcommit : Committable format resolution s st plans remainder closed)
    (hsegments : SegmentsIncreasing format s)
    (hclosed : Increasing format (closed.filter fun line => (lineTs format line).isSome))
    {all : List Text} (hone : OneLinePerStamp format all)
    (harchived : ∀ line ∈ archived format s, line ∈ all)
    (hall : ∀ line ∈ closed, (lineTs format line).isSome → line ∈ all) :
    SegmentsIncreasing format (commitSeries plans remainder st.size s) :=
  hcommit.ready.segmentsIncreasing_foldl hwf hsegments hclosed hone harchived hall

end Commit

/-! ## Every step keeps it -/

theorem advance_inv {sys next : System} {attempt : Attempt} {act : Act V}
    (hinv : SystemInv format resolution sys) (hattempt : sys.attempt = attempt)
    (hstep : advance format resolution sys attempt act = some next) :
    SystemInv format resolution next := by
  obtain ⟨hwf, hinv⟩ := hinv
  rw [hattempt] at hinv
  have hfinish : ∀ outcome, SystemInv format resolution (sys.finish outcome) :=
    fun outcome => ⟨hwf, trivial⟩
  unfold advance at hstep
  split at hstep
  · -- stat
    cases hactive : sys.series.active with
    | none =>
        simp only [hactive, Option.some.injEq] at hstep
        exact hstep ▸ hfinish _
    | some file =>
        simp only [hactive, Option.some.injEq] at hstep
        subst hstep
        refine ⟨hwf, hwf.ino_lt file hactive, fun other hother _ => ?_⟩
        rw [Option.some.inj (hactive.symm.trans hother)]
  · -- scan
    rename_i st
    cases hactive : sys.series.active with
    | none =>
        simp only [hactive, Option.some.injEq] at hstep
        exact hstep ▸ hfinish _
    | some file =>
        simp only [hactive] at hstep
        by_cases hino : file.ino ≠ st.ino
        · rw [if_pos hino] at hstep
          exact (Option.some.inj hstep) ▸ hfinish _
        · rw [if_neg hino] at hstep
          obtain ⟨consumed, closed, hscanned, hscan⟩ :=
            scan_inv resolution hactive
              (hinv.2 file hactive (not_not.mp hino))
          rw [hscan] at hstep
          split_ifs at hstep with hzero
          · exact (Option.some.inj hstep) ▸ hfinish _
          · cases hstep
            exact ⟨hwf, hinv.1, closed, hscanned, fun entry hentry => chunk_of_mem hentry, rfl,
              by simp⟩
  · -- plan
    rename_i st consumed key chunk todo plans moved
    obtain ⟨hino, closed, hscanned, htodo, hkeys, hplans⟩ := hinv
    cases hplan : planSegment format sys.series.segments key chunk with
    | none =>
        simp only [hplan, Option.some.injEq] at hstep
        exact hstep ▸ hfinish _
    | some plan =>
        simp only [hplan, Option.some.injEq] at hstep
        subst hstep
        have hchunk : chunk = periodChunk format resolution closed key :=
          htodo (key, chunk) (by simp)
        rw [hchunk] at hplan
        obtain ⟨hkey, hbased⟩ := plan_inv hwf hscanned hplan
        refine ⟨hwf, hino, closed, hscanned, fun entry hentry => htodo entry (by simp [hentry]),
          ?_, fun other hother => ?_⟩
        · simpa [hkey] using hkeys
        · rcases List.mem_append.mp hother with hother | hother
          · exact hplans other hother
          · rw [List.mem_singleton.mp hother]
            exact hbased
  · -- stage
    rename_i st consumed plans moved
    obtain ⟨hino, closed, hscanned, htodo, hkeys, hplans⟩ := hinv
    cases hactive : sys.series.active with
    | none =>
        simp only [hactive, Option.some.injEq] at hstep
        exact hstep ▸ hfinish _
    | some file =>
        simp only [hactive] at hstep
        split_ifs at hstep with hsame
        · exact (Option.some.inj hstep) ▸ hfinish _
        · cases hstep
          refine ⟨hwf, hino, consumed, closed, hscanned, fun other hother _ => ?_,
            by simpa using hkeys, hplans⟩
          rw [Option.some.inj (hactive.symm.trans hother)]
  · -- commit
    split_ifs at hstep with hcommit
    · cases hstep
      obtain ⟨closed, hcommittable⟩ := committable hinv hcommit
      exact ⟨hcommittable.wf hwf, trivial⟩
    · exact (Option.some.inj hstep) ▸ hfinish _
  · cases hstep

theorem interrupted_wf {s : Series} (hwf : s.WF format resolution) {attempt : Attempt}
    (hinv : AttemptInv format resolution s attempt) (published : Nat) :
    (interrupted published s attempt).WF format resolution := by
  cases attempt with
  | staged st plans remainder moved =>
      rw [interrupted]
      split_ifs with hcommit
      · obtain ⟨closed, hcommittable⟩ := committable hinv hcommit
        exact (hcommittable.ready.take published).wf_foldl hwf
      · exact hwf
  | idle => exact hwf
  | statted st => exact hwf
  | planning st consumed todo plans moved => exact hwf

/-- What one step leaves of the attempt and the series is again consistent. -/
theorem step_inv {sys next : System} {act : Act V} (hinv : SystemInv format resolution sys)
    (hstep : step format resolution sys act = some next) :
    SystemInv format resolution next := by
  unfold step at hstep
  split at hstep
  · cases hstep
    exact ⟨Write.wf hinv.wf _, hinv.attempt.disturbed (Write.disturbed hinv.wf _)⟩
  · split at hstep
    · cases hstep
    · cases hstep
      exact ⟨interrupted_wf hinv.wf hinv.attempt _, trivial⟩
  · exact advance_inv hinv rfl hstep

theorem run_inv {sys final : System} {acts : List (Act V)}
    (hinv : SystemInv format resolution sys)
    (hrun : Transition.run (step format resolution) sys acts = some final) :
    SystemInv format resolution final :=
  Transition.run_invariant (fun hinv hstep => step_inv hinv hstep) hinv hrun

theorem start_inv {s : Series} (hwf : s.WF format resolution) :
    SystemInv format resolution (System.start s) := ⟨hwf, trivial⟩

end Justup.Store
