import Justup.Store.CompactPlan

/-!
# Putting replacement segments into place

Publishing a plan adds the closed records of its period to the segments and
changes nothing else.
-/

namespace Justup.Store

open Justup.Lib

variable {V : Type*} {format : LineFormat V} {resolution : Resolution}

/-- The records in the segments of a series. -/
def archived (format : LineFormat V) (s : Series) : List Text :=
  s.segments.flatMap fun entry => validLines format entry.2.content

theorem records_eq (s : Series) :
    records format s = archived format s ++ validLines format s.activeContent := rfl

theorem mem_archived {s : Series} {line : Text} :
    line ∈ archived format s ↔
      ∃ entry ∈ s.segments, line ∈ validLines format entry.2.content := by
  simp [archived, List.mem_flatMap]

theorem mem_archived_iff_get? {s : Series} (hwf : s.WF format resolution) {line : Text} :
    line ∈ archived format s ↔
      ∃ key, ∃ segment ∈ Dict.get? key s.segments, line ∈ validLines format segment.content := by
  rw [mem_archived]
  constructor
  · rintro ⟨entry, hentry, hline⟩
    exact ⟨entry.1, entry.2, Dict.get?_of_mem hwf.ordered hentry, hline⟩
  · rintro ⟨key, segment, hsegment, hline⟩
    exact ⟨(key, segment), Dict.mem_of_get? hsegment, hline⟩

/-- The records of every segment are in strict order. -/
def SegmentsIncreasing (format : LineFormat V) (s : Series) : Prop :=
  ∀ entry ∈ s.segments, Increasing format (validLines format entry.2.content)

/-- Segments in order hold together records in order: the periods are disjoint. -/
theorem increasing_archived {s : Series} (hwf : s.WF format resolution)
    (hsegments : SegmentsIncreasing format s) : Increasing format (archived format s) := by
  refine List.pairwise_flatMap.mpr ⟨hsegments, ?_⟩
  refine hwf.ordered.imp_of_mem fun {entry other} hentry hother hlt => ?_
  intro line hline line' hline'
  obtain ⟨hmem, hsome⟩ := mem_validLines.mp hline
  obtain ⟨hmem', hsome'⟩ := mem_validLines.mp hline'
  obtain ⟨ts, hts⟩ := Option.isSome_iff_exists.mp hsome
  obtain ⟨ts', hts'⟩ := Option.isSome_iff_exists.mp hsome'
  refine ⟨ts, hts, ts', hts', ?_⟩
  have hkey := hwf.placed entry hentry line hmem ts hts
  have hkey' := hwf.placed other hother line' hmem' ts' hts'
  by_contra hle
  have hmono := periodKey_mono resolution (not_lt.mp hle)
  rw [hkey, hkey'] at hmono
  exact hmono.not_gt hlt

theorem SegmentsIncreasing.of_records {s : Series}
    (hrecords : Increasing format (records format s)) : SegmentsIncreasing format s := by
  intro entry hentry
  exact (List.pairwise_flatMap.mp (List.pairwise_append.mp hrecords).1).1 entry hentry

/-! ## One plan -/

/-- The plan was built against the segment that is there. -/
def Ready (format : LineFormat V) (resolution : Resolution) (closed : List Text) (s : Series)
    (plan : Plan) : Prop :=
  Replaces format resolution closed (Dict.get? plan.key s.segments) plan

theorem get?_publish {s : Series} (hwf : s.WF format resolution) (plan : Plan)
    (key : PeriodKey) :
    Dict.get? key (publish s plan).segments =
      if key = plan.key then some ⟨plan.final, false, s.stamp⟩
      else Dict.get? key s.segments :=
  Dict.get?_alter hwf.ordered plan.key key _

/-- Publishing one plan does not touch the others. -/
theorem Ready.publish {closed : List Text} {s : Series} (hwf : s.WF format resolution)
    {plan other : Plan} (hplan : Ready format resolution closed s plan)
    (hne : plan.key ≠ other.key) : Ready format resolution closed (publish s other) plan := by
  unfold Ready at *
  rwa [get?_publish hwf, if_neg hne]

/-- All the records of a replacement are of its period. -/
theorem Ready.placed {closed : List Text} {s : Series} (hwf : s.WF format resolution)
    {plan : Plan} (hplan : Ready format resolution closed s plan) {line : Text} {ts : Int}
    (hline : line ∈ rawLines plan.final) (hts : ts ∈ lineTs format line) :
    periodKey resolution ts = plan.key := by
  have hvalid : line ∈ validLines format plan.final :=
    mem_validLines.mpr ⟨hline, by rw [Option.mem_def.mp hts]; rfl⟩
  rcases (hplan.mem line).mp hvalid with ⟨segment, hsegment, hold⟩ | hperiod
  · exact hwf.placed _ (Dict.mem_of_get? hsegment) line (mem_validLines.mp hold).1 ts hts
  · obtain ⟨-, ts', hts', hkey⟩ := mem_periodLines.mp hperiod
    have heq : ts = ts' := Option.some.inj (hts.symm.trans hts')
    rw [heq, hkey]

/-- A replacement holds records only. -/
theorem Ready.valid {closed : List Text} {s : Series} (hwf : s.WF format resolution)
    {plan : Plan} (hplan : Ready format resolution closed s plan) {line : Text}
    (hline : line ∈ rawLines plan.final) : (lineTs format line).isSome :=
  Replaces.valid hplan (fun _ hsegment => hwf.valid _ (Dict.mem_of_get? hsegment)) line
    hline

theorem Ready.wf_publish {closed : List Text} {s : Series} (hwf : s.WF format resolution)
    {plan : Plan} (hplan : Ready format resolution closed s plan) :
    (Store.publish s plan).WF format resolution where
  ordered := hwf.ordered.alter plan.key _
  complete := by
    intro entry hentry
    rcases Dict.mem_alter hentry with hold | ⟨-, hnew | ⟨_, -, hnew⟩⟩
    · exact hwf.complete entry hold
    · rw [hnew]
      exact hplan.complete
    · rw [hnew]
      exact hplan.complete
  valid := by
    intro entry hentry line hline
    rcases Dict.mem_alter hentry with hold | ⟨-, hnew | ⟨_, -, hnew⟩⟩
    · exact hwf.valid entry hold line hline
    · rw [hnew] at hline
      exact hplan.valid hwf hline
    · rw [hnew] at hline
      exact hplan.valid hwf hline
  placed := by
    intro entry hentry line hline ts hts
    rcases Dict.mem_alter hentry with hold | ⟨hkey, hnew | ⟨_, -, hnew⟩⟩
    · exact hwf.placed entry hold line hline ts hts
    · rw [hnew] at hline
      exact (hplan.placed hwf hline hts).trans hkey.symm
    · rw [hnew] at hline
      exact (hplan.placed hwf hline hts).trans hkey.symm
  sig_lt := by
    intro entry hentry
    rcases Dict.mem_alter hentry with hold | ⟨-, hnew | ⟨_, -, hnew⟩⟩
    · exact (hwf.sig_lt entry hold).trans (Nat.lt_succ_self _)
    · rw [hnew]
      exact Nat.lt_succ_self _
    · rw [hnew]
      exact Nat.lt_succ_self _
  ino_lt := fun file hfile => (hwf.ino_lt file hfile).trans (Nat.lt_succ_self _)

/-- Publishing adds the closed records of one period. -/
theorem Ready.mem_archived_publish {closed : List Text} {s : Series}
    (hwf : s.WF format resolution) {plan : Plan}
    (hplan : Ready format resolution closed s plan) {line : Text} :
    line ∈ archived format (Store.publish s plan) ↔
      line ∈ archived format s ∨ line ∈ periodLines format resolution plan.key closed := by
  rw [mem_archived_iff_get? (hplan.wf_publish hwf), mem_archived_iff_get? hwf]
  constructor
  · rintro ⟨key, segment, hsegment, hline⟩
    rw [Option.mem_def, get?_publish hwf] at hsegment
    split_ifs at hsegment with hkey
    · cases hsegment
      rcases (hplan.mem line).mp hline with ⟨old, hold, hline⟩ | hperiod
      · exact Or.inl ⟨plan.key, old, hold, hline⟩
      · exact Or.inr hperiod
    · exact Or.inl ⟨key, segment, hsegment, hline⟩
  · intro hline
    have hnew : Dict.get? plan.key (Store.publish s plan).segments =
        some ⟨plan.final, false, s.stamp⟩ := by rw [get?_publish hwf, if_pos rfl]
    rcases hline with ⟨key, segment, hsegment, hline⟩ | hperiod
    · by_cases hkey : key = plan.key
      · subst hkey
        exact ⟨plan.key, _, hnew, (hplan.mem line).mpr (Or.inl ⟨segment, hsegment, hline⟩)⟩
      · exact ⟨key, segment, by rw [Option.mem_def, get?_publish hwf, if_neg hkey]; exact hsegment,
          hline⟩
    · exact ⟨plan.key, _, hnew, (hplan.mem line).mpr (Or.inr hperiod)⟩

theorem Ready.segmentsIncreasing_publish {closed : List Text} {s : Series} {plan : Plan}
    (hplan : Ready format resolution closed s plan)
    (hsegments : SegmentsIncreasing format s)
    (hclosed : Increasing format (periodLines format resolution plan.key closed))
    (hone : OneLinePerStamp format (validLines format plan.final)) :
    SegmentsIncreasing format (Store.publish s plan) := by
  have hfinal : Increasing format (validLines format plan.final) :=
    hplan.increasing
      (fun segment hsegment => hsegments _ (Dict.mem_of_get? hsegment)) hclosed hone
  intro entry hentry
  rcases Dict.mem_alter hentry with hold | ⟨-, hnew | ⟨_, -, hnew⟩⟩
  · exact hsegments entry hold
  · rw [hnew]
    exact hfinal
  · rw [hnew]
    exact hfinal

/-! ## Several plans -/

/-- Plans of different periods, each built against the segment that is there. -/
structure AllReady (format : LineFormat V) (resolution : Resolution) (closed : List Text)
    (s : Series) (plans : List Plan) : Prop where
  keys : plans.Pairwise fun plan other => plan.key ≠ other.key
  ready : ∀ plan ∈ plans, Ready format resolution closed s plan

theorem AllReady.tail {closed : List Text} {s : Series} (hwf : s.WF format resolution)
    {plan : Plan} {plans : List Plan}
    (hplans : AllReady format resolution closed s (plan :: plans)) :
    AllReady format resolution closed (Store.publish s plan) plans := by
  obtain ⟨hhead, htail⟩ := List.pairwise_cons.mp hplans.keys
  refine ⟨htail, fun other hother => ?_⟩
  exact (hplans.ready other (by simp [hother])).publish hwf (hhead other hother).symm

theorem AllReady.take {closed : List Text} {s : Series} {plans : List Plan}
    (hplans : AllReady format resolution closed s plans) (k : Nat) :
    AllReady format resolution closed s (plans.take k) :=
  ⟨hplans.keys.sublist (List.take_sublist k plans),
    fun plan hplan => hplans.ready plan (List.mem_of_mem_take hplan)⟩

theorem active_foldl_publish (plans : List Plan) (s : Series) :
    (plans.foldl publish s).active = s.active := by
  induction plans generalizing s with
  | nil => rfl
  | cons plan rest ih => exact ih (publish s plan)

theorem activeContent_foldl_publish (plans : List Plan) (s : Series) :
    (plans.foldl publish s).activeContent = s.activeContent := by
  rw [Series.activeContent, active_foldl_publish, Series.activeContent]

theorem stamp_le_foldl_publish (plans : List Plan) (s : Series) :
    s.stamp ≤ (plans.foldl publish s).stamp := by
  induction plans generalizing s with
  | nil => exact le_refl _
  | cons plan rest ih => exact (Nat.le_succ s.stamp).trans (ih (publish s plan))

theorem AllReady.wf_foldl {closed : List Text} {s : Series} (hwf : s.WF format resolution)
    {plans : List Plan} (hplans : AllReady format resolution closed s plans) :
    (plans.foldl publish s).WF format resolution := by
  induction plans generalizing s with
  | nil => exact hwf
  | cons plan rest ih =>
      exact ih ((hplans.ready plan (by simp)).wf_publish hwf) (hplans.tail hwf)

theorem AllReady.mem_archived_foldl {closed : List Text} {s : Series}
    (hwf : s.WF format resolution) {plans : List Plan}
    (hplans : AllReady format resolution closed s plans) {line : Text} :
    line ∈ archived format (plans.foldl publish s) ↔
      line ∈ archived format s ∨
        ∃ plan ∈ plans, line ∈ periodLines format resolution plan.key closed := by
  induction plans generalizing s with
  | nil => simp
  | cons plan rest ih =>
      have hplan := hplans.ready plan (by simp)
      rw [List.foldl_cons, ih (hplan.wf_publish hwf) (hplans.tail hwf),
        hplan.mem_archived_publish hwf]
      simp [or_assoc]

/-- In order before, in order after, if all the lines concerned have different
timestamps. -/
theorem AllReady.segmentsIncreasing_foldl {closed : List Text} {s : Series}
    (hwf : s.WF format resolution) {plans : List Plan}
    (hplans : AllReady format resolution closed s plans)
    (hsegments : SegmentsIncreasing format s)
    (hclosed : Increasing format (closed.filter fun line => (lineTs format line).isSome))
    {all : List Text} (hone : OneLinePerStamp format all)
    (harchived : ∀ line ∈ archived format s, line ∈ all)
    (hall : ∀ line ∈ closed, (lineTs format line).isSome → line ∈ all) :
    SegmentsIncreasing format (plans.foldl publish s) := by
  induction plans generalizing s with
  | nil => exact hsegments
  | cons plan rest ih =>
      have hplan := hplans.ready plan (by simp)
      have hperiod : ∀ line ∈ periodLines format resolution plan.key closed, line ∈ all := by
        intro line hline
        obtain ⟨hmem, ts, hts, -⟩ := mem_periodLines.mp hline
        exact hall line hmem (by rw [Option.mem_def.mp hts]; rfl)
      refine ih (hplan.wf_publish hwf) (hplans.tail hwf) ?_ ?_
      · refine hplan.segmentsIncreasing_publish hsegments (hclosed.sublist ?_) ?_
        · exact List.monotone_filter_right _ fun line hline => by
            obtain ⟨ts, hts, -⟩ := (Option.any_eq_true ..).mp hline
            rw [hts]
            rfl
        · refine hone.subset fun line hline => ?_
          rcases (hplan.mem line).mp hline with ⟨segment, hsegment, hold⟩ | hline
          · exact harchived line ((mem_archived_iff_get? hwf).mpr
              ⟨plan.key, segment, hsegment, hold⟩)
          · exact hperiod line hline
      · intro line hline
        rcases (hplan.mem_archived_publish hwf).mp hline with hline | hline
        · exact harchived line hline
        · exact hperiod line hline

/-! ## The commit -/

theorem stageRemainder_append_drop {consumed size : Nat} (hle : consumed ≤ size)
    (content : Text) :
    stageRemainder consumed size content ++ content.drop size = content.drop consumed := by
  have hdrop : content.drop size = (content.drop consumed).drop (size - consumed) := by
    rw [List.drop_drop, Nat.add_sub_cancel' hle]
  rw [stageRemainder, hdrop, List.take_append_drop]

/-- The plans cover the periods of all closed records. -/
def Covers (format : LineFormat V) (resolution : Resolution) (closed : List Text)
    (plans : List Plan) : Prop :=
  ∀ line ∈ closed, ∀ ts ∈ lineTs format line, ∃ plan ∈ plans, plan.key = periodKey resolution ts

theorem Covers.mem_iff {closed : List Text} {plans : List Plan}
    (hcovers : Covers format resolution closed plans) {line : Text} :
    (∃ plan ∈ plans, line ∈ periodLines format resolution plan.key closed) ↔
      line ∈ closed ∧ (lineTs format line).isSome := by
  constructor
  · rintro ⟨plan, -, hline⟩
    obtain ⟨hmem, ts, hts, -⟩ := mem_periodLines.mp hline
    exact ⟨hmem, by rw [Option.mem_def.mp hts]; rfl⟩
  · rintro ⟨hmem, hsome⟩
    obtain ⟨ts, hts⟩ := Option.isSome_iff_exists.mp hsome
    obtain ⟨plan, hplan, hkey⟩ := hcovers line hmem ts hts
    exact ⟨plan, hplan, mem_periodLines.mpr ⟨hmem, ts, hts, hkey⟩⟩

section Commit

variable {closed : List Text} {s : Series} {plans : List Plan} {remainder : Text} {size : Nat}

theorem segments_commitSeries :
    (commitSeries plans remainder size s).segments = (plans.foldl publish s).segments := rfl

theorem archived_commitSeries :
    archived format (commitSeries plans remainder size s) =
      archived format (plans.foldl publish s) := rfl

/-- The active file is left with what follows the closed lines. -/
theorem activeContent_commitSeries {consumed : Nat} (hle : consumed ≤ size)
    (hremainder : remainder = stageRemainder consumed size s.activeContent) :
    (commitSeries plans remainder size s).activeContent = s.activeContent.drop consumed := by
  rw [hremainder]
  exact stageRemainder_append_drop hle s.activeContent

theorem AllReady.wf_commitSeries (hwf : s.WF format resolution)
    (hplans : AllReady format resolution closed s plans) :
    (commitSeries plans remainder size s).WF format resolution where
  ordered := (hplans.wf_foldl hwf).ordered
  complete := (hplans.wf_foldl hwf).complete
  valid := (hplans.wf_foldl hwf).valid
  placed := (hplans.wf_foldl hwf).placed
  sig_lt := fun entry hentry =>
    ((hplans.wf_foldl hwf).sig_lt entry hentry).trans (Nat.lt_succ_self _)
  ino_lt := by
    intro file hfile
    cases hfile
    exact Nat.lt_succ_self _

end Commit

end Justup.Store
