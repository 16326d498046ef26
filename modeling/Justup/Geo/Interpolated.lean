import Justup.Geo.Interpolate
import Justup.Lib.MaximalRuns

/-!
# Interpolation invents nothing

The blocks are the maximal runs of timeouts, known by their numbers.  In a list with increasing
numbers a number leads back to the position, and the anchors of a block are the hops on either
side of the run that responded.
-/

namespace Justup.Geo.Interpolate

open Store Lib.Bisect Lib.MaximalRuns

variable {Hint Rest : Type}

/-! ## The blocks -/

/-- The block of a run of timeouts. -/
def IsBlock (run : List (ℤ × Hop Hint Rest)) (block : Block) : Prop :=
  ∃ first last, run.head? = some first ∧ run.getLast? = some last ∧ block = ⟨first.1, last.1⟩

/-- What the detection knows after some hops. -/
structure Detected (seen : List (ℤ × Hop Hint Rest)) (d : Detection) : Prop where
  start : d.blockStart = (seen.rtakeWhile isTimeout).head?.map Prod.fst
  last : ∀ entry, (seen.rtakeWhile isTimeout).getLast? = some entry →
    d.lastTimeoutHop = some entry.1
  closed : ∀ block, block ∈ d.blocks ↔
    ∃ run next, MaximalRun isTimeout seen run (some next) ∧ IsBlock run block

theorem detected_nil : Detected ([] : List (ℤ × Hop Hint Rest)) {} where
  start := rfl
  last := by simp
  closed := by
    intro block
    refine ⟨fun hmem => (nomatch hmem), ?_⟩
    rintro ⟨run, next, hrun, -⟩
    exact absurd hrun.of_next.1 List.not_mem_nil

section Note

variable {seen : List (ℤ × Hop Hint Rest)} {d : Detection} {entry : ℤ × Hop Hint Rest}

/-- A block begins or goes on. -/
theorem Detected.note_timeout (hd : Detected seen d) (htimeout : isTimeout entry = true) :
    Detected (seen ++ [entry]) (d.note entry) := by
  have hrun := List.rtakeWhile_concat_pos _ seen entry htimeout
  simp only [Detection.note, htimeout, if_true]
  refine ⟨?_, ?_, ?_⟩
  · rw [hrun, List.head?_append, hd.start]
    cases (seen.rtakeWhile isTimeout).head? <;> rfl
  · intro last hlast
    rw [hrun, List.getLast?_concat, Option.some.injEq] at hlast
    rw [hlast]
  · intro block
    rw [hd.closed]
    refine exists_congr fun run => exists_congr fun next => and_congr_left fun _ => ?_
    rw [maximalRun_snoc_iff]
    refine ⟨.inl, ?_⟩
    rintro (hrun | ⟨-, hnot, -⟩)
    · exact hrun
    · rw [htimeout] at hnot
      cases hnot

/-- The run at the end is closed, if there is one. -/
theorem Detected.note_other (hd : Detected seen d) (hother : isTimeout entry = false) :
    Detected (seen ++ [entry]) (d.note entry) := by
  have hnil : (seen ++ [entry]).rtakeWhile isTimeout = [] :=
    List.rtakeWhile_concat_neg _ seen entry (by simp [hother])
  have hclosed : ∀ block, (∃ run next, MaximalRun isTimeout (seen ++ [entry]) run (some next) ∧
      IsBlock run block) ↔ block ∈ d.blocks ∨ IsBlock (seen.rtakeWhile isTimeout) block := by
    intro block
    rw [hd.closed]
    constructor
    · rintro ⟨run, next, hrun, hblock⟩
      obtain hrun | ⟨-, -, rfl, -⟩ := maximalRun_snoc_iff.mp hrun
      · exact .inl ⟨run, next, hrun, hblock⟩
      · exact .inr hblock
    · rintro (⟨run, next, hrun, hblock⟩ | hblock)
      · exact ⟨run, next, maximalRun_snoc_iff.mpr (.inl hrun), hblock⟩
      · refine ⟨_, entry, maximalRun_snoc_iff.mpr (.inr ⟨rfl, hother, rfl, ?_⟩), hblock⟩
        obtain ⟨first, -, hfirst, -⟩ := hblock
        rintro hempty
        simp [hempty] at hfirst
  cases hhead : (seen.rtakeWhile isTimeout).head? with
  | none =>
      have hstart : d.blockStart = none := by rw [hd.start, hhead]; rfl
      have hnote : d.note entry = d := by simp [Detection.note, hother, hstart]
      rw [hnote]
      refine ⟨by rw [hnil, hstart]; rfl, by simp [hnil], fun block => ?_⟩
      rw [hclosed]
      refine ⟨.inl, ?_⟩
      rintro (hmem | ⟨first, -, hfirst, -⟩)
      · exact hmem
      · rw [hhead] at hfirst
        cases hfirst
  | some first =>
      have hne : seen.rtakeWhile isTimeout ≠ [] := by
        rintro hempty
        simp [hempty] at hhead
      have hlast := List.getLast?_eq_some_getLast hne
      have hstart : d.blockStart = some first.1 := by rw [hd.start, hhead]; rfl
      have hnote : d.note entry =
          { d with
            blocks := d.blocks ++ [⟨first.1, ((seen.rtakeWhile isTimeout).getLast hne).1⟩]
            blockStart := none } := by
        simp [Detection.note, hother, hstart, hd.last _ hlast]
      rw [hnote]
      refine ⟨by rw [hnil]; rfl, by simp [hnil], fun block => ?_⟩
      rw [hclosed, List.mem_append, List.mem_singleton]
      refine or_congr_right ⟨fun heq => ⟨first, _, hhead, hlast, heq⟩, ?_⟩
      rintro ⟨first', last', hfirst', hlast', rfl⟩
      rw [hhead, Option.some.injEq] at hfirst'
      rw [hlast, Option.some.injEq] at hlast'
      rw [hfirst', hlast']

end Note

theorem detected_foldl (entries : List (ℤ × Hop Hint Rest)) :
    Detected entries (entries.foldl (fun d entry => Detection.note entry d) {}) := by
  induction entries using List.reverseRecOn with
  | nil => exact detected_nil
  | append_singleton seen entry ih =>
      rw [List.foldl_append]
      cases hentry : isTimeout entry with
      | true => exact ih.note_timeout hentry
      | false => exact ih.note_other hentry

/-- The blocks before any is left out are those of the maximal runs of timeouts. -/
theorem mem_finish_iff {entries : List (ℤ × Hop Hint Rest)} {d : Detection}
    (hd : Detected entries d) (block : Block) :
    block ∈ d.finish ↔ ∃ run next, MaximalRun isTimeout entries run next ∧ IsBlock run block := by
  have hsplit : (∃ run next, MaximalRun isTimeout entries run next ∧ IsBlock run block) ↔
      block ∈ d.blocks ∨ IsBlock (entries.rtakeWhile isTimeout) block := by
    rw [hd.closed]
    constructor
    · rintro ⟨run, next, hrun, hblock⟩
      cases next with
      | none =>
          obtain ⟨rfl, -⟩ := maximalRun_none_iff.mp hrun
          exact .inr hblock
      | some next => exact .inl ⟨run, next, hrun, hblock⟩
    · rintro (⟨run, next, hrun, hblock⟩ | hblock)
      · exact ⟨run, some next, hrun, hblock⟩
      · refine ⟨_, none, maximalRun_none_iff.mpr ⟨rfl, ?_⟩, hblock⟩
        obtain ⟨first, -, hfirst, -⟩ := hblock
        rintro hempty
        simp [hempty] at hfirst
  rw [hsplit]
  cases hlast : (entries.rtakeWhile isTimeout).getLast? with
  | none =>
      have hempty := List.getLast?_eq_none_iff.mp hlast
      have hstart : d.blockStart = none := by rw [hd.start, hempty]; rfl
      simp [Detection.finish, hstart, IsBlock, hempty]
  | some last =>
      have hne : entries.rtakeWhile isTimeout ≠ [] := by
        rintro hempty
        simp [hempty] at hlast
      have hhead := List.head?_eq_some_head hne
      have hstart : d.blockStart = some ((entries.rtakeWhile isTimeout).head hne).1 := by
        rw [hd.start, hhead]
        rfl
      simp only [Detection.finish, hstart, hd.last _ hlast, List.mem_append, List.mem_singleton]
      refine or_congr_right ⟨fun heq => ⟨_, last, hhead, hlast, heq⟩, ?_⟩
      rintro ⟨first', last', hfirst', hlast', rfl⟩
      rw [hhead, Option.some.injEq] at hfirst'
      rw [hlast, Option.some.injEq] at hlast'
      rw [hfirst', hlast']

/-! ## Anchors -/

/-- The latencies that were measured, in order. -/
def measured (entries : List (ℤ × Hop Hint Rest)) : List ℚ :=
  entries.filterMap fun entry => entry.2.answered

/-- The latency of the nearest responding hop before, or nothing. -/
def before (entries : List (ℤ × Hop Hint Rest)) : ℚ := (measured entries).getLast?.getD 0

/-- The latency of the nearest responding hop behind, if any. -/
def after (entries : List (ℤ × Hop Hint Rest)) : Option ℚ := (measured entries).head?

def Increasing (entries : List (ℤ × Hop Hint Rest)) : Prop :=
  entries.Pairwise fun a b => a.1 < b.1

theorem map_answeredAt (entries : List (ℤ × Hop Hint Rest)) :
    (entries.filterMap answeredAt).map Prod.snd = measured entries := by
  rw [List.map_filterMap]
  refine List.filterMap_congr fun entry _ => ?_
  simp only [answeredAt, Option.map_map]
  exact Option.map_id' ..

theorem mem_answeredAt {entries : List (ℤ × Hop Hint Rest)} {answer : ℤ × ℚ}
    (hanswer : answer ∈ entries.filterMap answeredAt) : ∃ entry ∈ entries, entry.1 = answer.1 := by
  obtain ⟨entry, hentry, hsome⟩ := List.mem_filterMap.mp hanswer
  obtain ⟨latency, -, rfl⟩ := Option.map_eq_some_iff.mp hsome
  exact ⟨entry, hentry, rfl⟩

theorem answered_of_timeout {entry : ℤ × Hop Hint Rest} (hentry : isTimeout entry = true) :
    entry.2.answered = none := by
  have hstatus : entry.2.status = .timeout := of_decide_eq_true hentry
  simp [Hop.answered, hstatus]

theorem measured_of_timeouts {run : List (ℤ × Hop Hint Rest)}
    (hrun : ∀ entry ∈ run, isTimeout entry = true) : measured run = [] :=
  List.filterMap_eq_nil_iff.mpr fun entry hentry => answered_of_timeout (hrun entry hentry)

@[simp] theorem measured_append (first second : List (ℤ × Hop Hint Rest)) :
    measured (first ++ second) = measured first ++ measured second :=
  List.filterMap_append

theorem responding_eq {entries : List (ℤ × Hop Hint Rest)} (hincreasing : Increasing entries) :
    responding entries = entries.filterMap answeredAt := by
  refine List.Pairwise.insertionSort_eq (List.pairwise_filterMap.mpr (hincreasing.imp ?_))
  rintro a b hlt answer hanswer other hother
  obtain ⟨latency, -, rfl⟩ := Option.map_eq_some_iff.mp hanswer
  obtain ⟨latency', -, rfl⟩ := Option.map_eq_some_iff.mp hother
  exact hlt.le

section Run

variable {front run back : List (ℤ × Hop Hint Rest)} {block : Block}

/-- The numbers of a run lie between those on either side. -/
structure Around (front run back : List (ℤ × Hop Hint Rest)) (block : Block) : Prop where
  front : ∀ entry ∈ front, entry.1 < block.start
  run : ∀ entry ∈ run, block.start ≤ entry.1 ∧ entry.1 ≤ block.stop
  back : ∀ entry ∈ back, block.stop < entry.1
  le : block.start ≤ block.stop

theorem around_of_isBlock (hincreasing : Increasing (front ++ run ++ back))
    (hblock : IsBlock run block) : Around front run back block := by
  obtain ⟨first, last, hfirst, hlast, rfl⟩ := hblock
  obtain ⟨hboth, -, hacross⟩ := List.pairwise_append.mp hincreasing
  obtain ⟨-, hrun, hbefore⟩ := List.pairwise_append.mp hboth
  have hfirstMem := List.mem_of_mem_head? hfirst
  have hlastMem := List.mem_of_getLast? hlast
  have hinside : ∀ entry ∈ run, first.1 ≤ entry.1 ∧ entry.1 ≤ last.1 := by
    intro entry hentry
    obtain ⟨rest, rfl⟩ := List.head?_eq_some_iff.mp hfirst
    obtain ⟨init, hinit⟩ := List.getLast?_eq_some_iff.mp hlast
    constructor
    · obtain rfl | hrest := List.mem_cons.mp hentry
      · exact le_refl _
      · exact ((List.pairwise_cons.mp hrun).1 entry hrest).le
    · rw [hinit] at hentry hrun
      obtain hmem | hmem := List.mem_append.mp hentry
      · exact ((List.pairwise_append.mp hrun).2.2 entry hmem last (by simp)).le
      · rw [List.mem_singleton.mp hmem]
  exact
    { front := fun entry hentry => hbefore entry hentry first hfirstMem
      run := hinside
      back := fun entry hentry => hacross last (List.mem_append_right _ hlastMem) entry hentry
      le := (hinside first hfirstMem).2 }

/-- Only the hops on either side of a run responded. -/
theorem answeredAt_around (htimeouts : ∀ entry ∈ run, isTimeout entry = true) :
    (front ++ run ++ back).filterMap answeredAt =
      front.filterMap answeredAt ++ back.filterMap answeredAt := by
  have hrun : run.filterMap answeredAt = [] :=
    List.filterMap_eq_nil_iff.mpr fun entry hentry => by
      rw [answeredAt, answered_of_timeout (htimeouts entry hentry)]
      rfl
  rw [List.filterMap_append, List.filterMap_append, hrun, List.append_nil]

theorem getElem?_around (htimeouts : ∀ entry ∈ run, isTimeout entry = true) (index : ℕ) :
    ((front ++ run ++ back).filterMap answeredAt)[index]?.map Prod.snd =
      (measured front ++ measured back)[index]? := by
  rw [answeredAt_around htimeouts, ← List.getElem?_map, List.map_append, map_answeredAt,
    map_answeredAt]

variable (haround : Around front run back block)
  (htimeouts : ∀ entry ∈ run, isTimeout entry = true)

include haround htimeouts

theorem bisectLeft_around :
    bisectLeft (((front ++ run ++ back).filterMap answeredAt).map Prod.fst) block.start =
      (measured front).length := by
  rw [answeredAt_around htimeouts, List.map_append, bisectLeft_append, ← map_answeredAt,
    List.length_map, List.length_map]
  · rintro number hnumber
    obtain ⟨answer, hanswer, rfl⟩ := List.mem_map.mp hnumber
    obtain ⟨entry, hentry, heq⟩ := mem_answeredAt hanswer
    exact heq ▸ haround.front entry hentry
  · rintro number hnumber
    obtain ⟨answer, hanswer, rfl⟩ := List.mem_map.mp hnumber
    obtain ⟨entry, hentry, heq⟩ := mem_answeredAt hanswer
    exact heq ▸ (haround.le.trans_lt (haround.back entry hentry)).le

theorem bisectRight_around :
    bisectRight (((front ++ run ++ back).filterMap answeredAt).map Prod.fst) block.stop =
      (measured front).length := by
  rw [answeredAt_around htimeouts, List.map_append, bisectRight_append, ← map_answeredAt,
    List.length_map, List.length_map]
  · rintro number hnumber
    obtain ⟨answer, hanswer, rfl⟩ := List.mem_map.mp hnumber
    obtain ⟨entry, hentry, heq⟩ := mem_answeredAt hanswer
    exact heq ▸ ((haround.front entry hentry).trans_le haround.le).le
  · rintro number hnumber
    obtain ⟨answer, hanswer, rfl⟩ := List.mem_map.mp hnumber
    obtain ⟨entry, hentry, heq⟩ := mem_answeredAt hanswer
    exact heq ▸ haround.back entry hentry

/-- The anchor before a run. -/
theorem startLat_around :
    startLat ((front ++ run ++ back).filterMap answeredAt) block = before front := by
  rw [startLat, bisectLeft_around haround htimeouts, before]
  cases hlength : (measured front).length with
  | zero => rw [List.length_eq_zero_iff.mp hlength]; rfl
  | succ index =>
      simp only [getElem?_around htimeouts]
      rw [List.getElem?_append_left (by omega), List.getLast?_eq_getElem?, hlength]
      rfl

/-- The anchor behind a run, if there is one. -/
theorem endLat_around {latency : ℚ} (hafter : after back = some latency) :
    endLat ((front ++ run ++ back).filterMap answeredAt) block = latency := by
  rw [endLat, bisectRight_around haround htimeouts, getElem?_around htimeouts,
    List.getElem?_append_right (le_refl _), Nat.sub_self, ← List.head?_eq_getElem?]
  exact congrArg (Option.getD · _) hafter

/-- A block stays when a responding hop follows it. -/
theorem bisectRight_lt_iff_around :
    bisectRight (((front ++ run ++ back).filterMap answeredAt).map Prod.fst) block.stop <
      ((front ++ run ++ back).filterMap answeredAt).length ↔ after back ≠ none := by
  rw [bisectRight_around haround htimeouts, answeredAt_around htimeouts,
    List.length_append, ← map_answeredAt, List.length_map, after, ← map_answeredAt]
  cases back.filterMap answeredAt with
  | nil => simp
  | cons first rest => simp

end Run

/-! ## From the number of a hop to its block -/

section Hop

variable {entries pre post : List (ℤ × Hop Hint Rest)} {entry : ℤ × Hop Hint Rest}

theorem Increasing.nodup (hincreasing : Increasing entries) : entries.Nodup :=
  hincreasing.imp fun hlt heq => absurd (congrArg Prod.fst heq) hlt.ne

/-- A block has the number of a hop when its run has the hop. -/
theorem covers_iff_mem {run : List (ℤ × Hop Hint Rest)} {next : Option (ℤ × Hop Hint Rest)}
    {block : Block} (hincreasing : Increasing entries)
    (hrun : MaximalRun isTimeout entries run next)
    (hblock : IsBlock run block) (hentry : entry ∈ entries) :
    block.covers entry.1 = true ↔ entry ∈ run := by
  obtain ⟨front, back, rfl, -⟩ := hrun.split
  have haround := around_of_isBlock hincreasing hblock
  rw [Block.covers, decide_eq_true_iff]
  refine ⟨fun hcovers => ?_, haround.run entry⟩
  obtain hboth | hback := List.mem_append.mp hentry
  · obtain hfront | hmem := List.mem_append.mp hboth
    · exact absurd (haround.front entry hfront) hcovers.1.not_gt
    · exact hmem
  · exact absurd (haround.back entry hback) hcovers.2.not_gt

/-- What a block that is kept says of a hop it covers. -/
structure Anchors (entries pre post : List (ℤ × Hop Hint Rest)) (number : ℤ) (block : Block) :
    Prop where
  covers : block.start ≤ number ∧ number ≤ block.stop
  start : startLat (responding entries) block = before pre
  after : ∃ latency, after post = some latency ∧ endLat (responding entries) block = latency

/-- The anchors of a run are those of each of its hops. -/
theorem anchors_of_run (hincreasing : Increasing entries) (hat : entries = pre ++ entry :: post)
    {run : List (ℤ × Hop Hint Rest)} {next : Option (ℤ × Hop Hint Rest)} {block : Block}
    (hrun : MaximalRun isTimeout entries run next) (hblock : IsBlock run block)
    (hentry : entry ∈ run) :
    (bisectRight ((responding entries).map Prod.fst) block.stop < (responding entries).length ↔
        after post ≠ none) ∧
      ∀ latency, after post = some latency →
        Anchors entries pre post entry.1 block := by
  obtain ⟨front, back, hsplit, -⟩ := hrun.split
  obtain ⟨first, second, hcut⟩ := List.append_of_mem hentry
  have htimeouts : ∀ entry ∈ run, isTimeout entry = true := hrun.all
  have hnodup := hincreasing.nodup
  rw [hat] at hnodup
  have hnot := (List.nodup_middle.mp hnodup).notMem
  rw [List.mem_append, not_or] at hnot
  have hsame : pre ++ entry :: post = (front ++ first) ++ entry :: (second ++ back) := by
    rw [← hat, hsplit, hcut]
    simp
  obtain ⟨hpre, -, hpost⟩ := (List.append_cons_inj_of_notMem hnot.1 hnot.2).mp hsame
  have hfirst : measured first = [] :=
    measured_of_timeouts fun entry hmem => htimeouts entry (by simp [hcut, hmem])
  have hsecond : measured second = [] :=
    measured_of_timeouts fun entry hmem => htimeouts entry (by simp [hcut, hmem])
  have hbefore : before pre = before front := by simp [before, hpre, hfirst]
  have hafter : after post = after back := by simp [after, hpost, hsecond]
  have haround := around_of_isBlock (hsplit ▸ hincreasing) hblock
  have hresponding : responding entries = (front ++ run ++ back).filterMap answeredAt := by
    rw [responding_eq hincreasing, hsplit]
  rw [hresponding, hafter]
  refine ⟨bisectRight_lt_iff_around haround htimeouts, fun latency hlatency => ?_⟩
  refine ⟨haround.run entry hentry, ?_, latency, hafter.trans hlatency, ?_⟩
  · rw [hresponding, startLat_around haround htimeouts, hbefore]
  · rw [hresponding, endLat_around haround htimeouts hlatency]

/-- A timeout is in a block that is kept exactly if a hop behind it responded. -/
theorem hopToBlock_detectedBlocks (hincreasing : Increasing entries)
    (hat : entries = pre ++ entry :: post) (htimeout : isTimeout entry = true) :
    match hopToBlock (detectedBlocks entries) entry.1 with
    | none => after post = none
    | some block => Anchors entries pre post entry.1 block := by
  have hmem : entry ∈ entries := by simp [hat]
  have hfinish := mem_finish_iff (detected_foldl entries)
  split
  · rename_i hnone
    by_contra hafter
    obtain ⟨run, next, hrun, hentry⟩ := exists_maximalRun hat htimeout
    have hblock : IsBlock run ⟨(run.head hrun.ne_nil).1, (run.getLast hrun.ne_nil).1⟩ :=
      ⟨_, _, List.head?_eq_some_head _, List.getLast?_eq_some_getLast _, rfl⟩
    have hkept := (anchors_of_run hincreasing hat hrun hblock hentry).1.mpr hafter
    have hcovers := (covers_iff_mem hincreasing hrun hblock hmem).mpr hentry
    have hempty := List.getLast?_eq_none_iff.mp hnone
    refine List.ne_nil_of_mem (List.mem_filter.mpr ⟨?_, hcovers⟩) hempty
    exact List.mem_filter.mpr ⟨(hfinish _).mpr ⟨run, next, hrun, hblock⟩, decide_eq_true hkept⟩
  · rename_i block hsome
    obtain ⟨hkept, hcovers⟩ := List.mem_filter.mp (List.mem_of_getLast? hsome)
    obtain ⟨hfound, hfollowed⟩ := List.mem_filter.mp hkept
    obtain ⟨run, next, hrun, hblock⟩ := (hfinish block).mp hfound
    have hentry := (covers_iff_mem hincreasing hrun hblock hmem).mp hcovers
    have hanchors := anchors_of_run hincreasing hat hrun hblock hentry
    obtain ⟨latency, hlatency⟩ :=
      Option.ne_none_iff_exists'.mp (hanchors.1.mp (of_decide_eq_true hfollowed))
    exact hanchors.2 latency hlatency

/-- Timeouts with nothing but timeouts between them are in the same block. -/
theorem hopToBlock_eq {mid : List (ℤ × Hop Hint Rest)} {later : ℤ × Hop Hint Rest}
    (hincreasing : Increasing entries) (hat : entries = pre ++ entry :: mid ++ later :: post)
    (hstretch : ∀ other ∈ entry :: (mid ++ [later]), isTimeout other = true) :
    hopToBlock (detectedBlocks entries) entry.1 = hopToBlock (detectedBlocks entries) later.1 := by
  unfold hopToBlock
  congr 1
  refine List.filter_congr fun block hkept => Bool.eq_iff_iff.mpr ?_
  obtain ⟨run, next, hrun, hblock⟩ :=
    (mem_finish_iff (detected_foldl entries) block).mp (List.mem_of_mem_filter hkept)
  rw [covers_iff_mem hincreasing hrun hblock (by simp [hat]),
    covers_iff_mem hincreasing hrun hblock (by simp [hat])]
  exact hrun.mem_iff_of_stretch hincreasing.nodup hat hstretch

end Hop

/-! ## Rounding and the line between the anchors -/

theorem roundHalfEven_mono : Monotone roundHalfEven := by
  intro a b hab
  have hfloor : ⌊a⌋ ≤ ⌊b⌋ := Int.floor_le_floor hab
  obtain heq | hlt := hfloor.eq_or_lt
  · simp only [roundHalfEven, heq]
    split_ifs <;> first | omega | linarith
  · have hupper : roundHalfEven a ≤ ⌊a⌋ + 1 := by
      simp only [roundHalfEven]
      split_ifs <;> omega
    have hlower : ⌊b⌋ ≤ roundHalfEven b := by
      simp only [roundHalfEven]
      split_ifs <;> omega
    omega

theorem abs_roundHalfEven_sub_le (value : ℚ) : |(roundHalfEven value : ℚ) - value| ≤ 1 / 2 := by
  have hle := Int.floor_le value
  have hlt := Int.lt_floor_add_one value
  rw [abs_le]
  simp only [roundHalfEven]
  split_ifs <;> push_cast <;> constructor <;> linarith

theorem round1_mono : Monotone round1 := by
  intro a b hab
  have hscaled : roundHalfEven (a * 10) ≤ roundHalfEven (b * 10) :=
    roundHalfEven_mono (by linarith)
  have hcast : (roundHalfEven (a * 10) : ℚ) ≤ roundHalfEven (b * 10) := by exact_mod_cast hscaled
  simp only [round1]
  linarith

/-- Rounding moves a latency by a twentieth at most. -/
theorem abs_round1_sub_le (value : ℚ) : |round1 value - value| ≤ 1 / 20 := by
  have hround := abs_le.mp (abs_roundHalfEven_sub_le (value * 10))
  rw [abs_le]
  simp only [round1]
  constructor <;> linarith

/-- The part of the way to the anchor behind a block. -/
def progress (block : Block) (number : ℤ) : ℚ :=
  ((number - block.start + 1 : ℤ) / (block.length + 1 : ℤ))

theorem progress_nonneg {block : Block} {number : ℤ}
    (hcovers : block.start ≤ number ∧ number ≤ block.stop) : 0 ≤ progress block number := by
  have hposition : 0 ≤ number - block.start + 1 := by omega
  have hlength : 0 ≤ block.length + 1 := by simp only [Block.length]; omega
  exact div_nonneg (by exact_mod_cast hposition) (by exact_mod_cast hlength)

theorem progress_le_one {block : Block} {number : ℤ}
    (hcovers : block.start ≤ number ∧ number ≤ block.stop) : progress block number ≤ 1 := by
  have hposition : number - block.start + 1 ≤ block.length + 1 := by
    simp only [Block.length]
    omega
  have hlength : 0 < block.length + 1 := by simp only [Block.length]; omega
  have hpositive : (0 : ℚ) < (block.length + 1 : ℤ) := by exact_mod_cast hlength
  exact (div_le_one hpositive).mpr (by exact_mod_cast hposition)

theorem progress_mono {block : Block} {number later : ℤ}
    (hcovers : block.start ≤ number ∧ number ≤ block.stop) (hle : number ≤ later) :
    progress block number ≤ progress block later := by
  have hlength : 0 < block.length + 1 := by simp only [Block.length]; omega
  have hpositive : (0 : ℚ) < (block.length + 1 : ℤ) := by exact_mod_cast hlength
  refine (div_le_div_iff_of_pos_right hpositive).mpr ?_
  exact_mod_cast (by omega : number - block.start + 1 ≤ later - block.start + 1)

theorem exactLatency_eq (answers : List (ℤ × ℚ)) (block : Block) (number : ℤ) :
    exactLatency answers block number = startLat answers block +
      (endLat answers block - startLat answers block) * progress block number := rfl

/-! ## Hop by hop -/

/-- The latency of the nearest hop before that responded, else nothing. -/
def latencyBefore (hops : List (Hop Hint Rest)) (index : ℕ) : ℚ :=
  ((hops.take index).filterMap Hop.answered).getLast?.getD 0

def latencyAfter (hops : List (Hop Hint Rest)) (index : ℕ) : Option ℚ :=
  ((hops.drop (index + 1)).filterMap Hop.answered).head?

section Position

variable {hops : List (Hop Hint Rest)} {index : ℕ} {hop : Hop Hint Rest}

theorem map_snd_numbered (hops : List (Hop Hint Rest)) : (numbered hops).map Prod.snd = hops := by
  rw [numbered, List.map_map]
  exact List.zipIdx_map_fst 0 hops

theorem getElem?_numbered (hops : List (Hop Hint Rest)) (index : ℕ) :
    (numbered hops)[index]? = hops[index]?.map fun hop => (hop.numberAt index, hop) := by
  simp [numbered, List.getElem?_zipIdx, Function.comp_def]

theorem measured_eq (entries : List (ℤ × Hop Hint Rest)) :
    measured entries = (entries.map Prod.snd).filterMap Hop.answered := by
  rw [List.filterMap_map]
  rfl

theorem before_take (hops : List (Hop Hint Rest)) (index : ℕ) :
    before ((numbered hops).take index) = latencyBefore hops index := by
  rw [before, measured_eq, List.map_take, map_snd_numbered, latencyBefore]

theorem after_drop (hops : List (Hop Hint Rest)) (index : ℕ) :
    after ((numbered hops).drop (index + 1)) = latencyAfter hops index := by
  rw [after, measured_eq, List.map_drop, map_snd_numbered, latencyAfter]

theorem numbered_split (hat : hops[index]? = some hop) :
    numbered hops = (numbered hops).take index ++
      (hop.numberAt index, hop) :: (numbered hops).drop (index + 1) := by
  have hentry : (numbered hops)[index]? = some (hop.numberAt index, hop) := by
    rw [getElem?_numbered, hat]
    rfl
  obtain ⟨hlt, hget⟩ := List.getElem?_eq_some_iff.mp hentry
  rw [← hget, List.getElem_cons_drop, List.take_append_drop]

theorem getElem?_interpolateRoute (destinationGeo : Option Hint) (hops : List (Hop Hint Rest))
    (index : ℕ) :
    (interpolateRoute destinationGeo hops)[index]? = hops[index]?.map fun hop =>
      (replacement destinationGeo (numbered hops) (hop.numberAt index, hop)).getD hop := by
  rw [interpolateRoute, List.getElem?_map, getElem?_numbered, Option.map_map]
  rfl

theorem replacement_of_other {destinationGeo : Option Hint} {entries : List (ℤ × Hop Hint Rest)}
    {entry : ℤ × Hop Hint Rest} (hother : entry.2.status ≠ .timeout) :
    replacement destinationGeo entries entry = none := by
  simp [replacement, isTimeout, hother]

theorem replacement_of_block {destinationGeo : Option Hint} {entries : List (ℤ × Hop Hint Rest)}
    {number : ℤ} {block : Block} (htimeout : hop.status = .timeout)
    (hblock : hopToBlock (detectedBlocks entries) number = some block)
    (hle : block.start ≤ block.stop) :
    replacement destinationGeo entries (number, hop) = some (hop.interpolate destinationGeo
      (some (round1 (exactLatency (responding entries) block number)))) := by
  have hlength : 0 < block.length := by
    simp only [Block.length]
    omega
  have htrue : isTimeout (number, hop) = true := decide_eq_true htimeout
  simp only [replacement, htrue, if_true, hblock, Option.map_some, if_pos hlength]

/-- What becomes of a timeout. -/
theorem replacement_of_timeout (hincreasing : Increasing (numbered hops))
    (hat : hops[index]? = some hop) (htimeout : hop.status = .timeout) :
    match latencyAfter hops index with
    | none => hopToBlock (detectedBlocks (numbered hops)) (hop.numberAt index) = none
    | some latency => ∃ block,
        hopToBlock (detectedBlocks (numbered hops)) (hop.numberAt index) = some block ∧
        (block.start ≤ hop.numberAt index ∧ hop.numberAt index ≤ block.stop) ∧
        startLat (responding (numbered hops)) block = latencyBefore hops index ∧
        endLat (responding (numbered hops)) block = latency := by
  have htrue : isTimeout (hop.numberAt index, hop) = true := decide_eq_true htimeout
  have hanchors := hopToBlock_detectedBlocks hincreasing (numbered_split hat) htrue
  rw [after_drop] at hanchors
  cases hblock : hopToBlock (detectedBlocks (numbered hops)) (hop.numberAt index) with
  | none =>
      rw [hblock] at hanchors
      simp only [hanchors]
  | some block =>
      rw [hblock] at hanchors
      obtain ⟨latency, hafter, hend⟩ := hanchors.after
      rw [after_drop] at hafter
      simp only [hafter]
      exact ⟨block, rfl, hanchors.covers, (before_take hops index) ▸ hanchors.start, hend⟩

end Position

/-- What `interpolate_route` makes of a hop list, hop by hop. -/
structure Interpolates (destinationGeo : Option Hint) (hops result : List (Hop Hint Rest)) :
    Prop where
  length : result.length = hops.length
  kept : ∀ index hop, hops[index]? = some hop → hop.status ≠ .timeout ∨
    latencyAfter hops index = none → result[index]? = some hop
  filled : ∀ index hop latency, hops[index]? = some hop → hop.status = .timeout →
    latencyAfter hops index = some latency → ∃ exact,
      result[index]? = some (hop.interpolate destinationGeo (some (round1 exact))) ∧
      |round1 exact - exact| ≤ 1 / 20 ∧ min (latencyBefore hops index) latency ≤ exact ∧
      exact ≤ max (latencyBefore hops index) latency
  monotone : ∀ first last latency, first ≤ last →
    (∀ index, first ≤ index → index ≤ last → ∃ hop, hops[index]? = some hop ∧
      hop.status = .timeout) →
    latencyAfter hops first = some latency → ∃ hop avg later avg',
      result[first]? = some (Hop.interpolate destinationGeo (some avg) hop) ∧
      result[last]? = some (Hop.interpolate destinationGeo (some avg') later) ∧
      (latencyBefore hops first ≤ latency → avg ≤ avg') ∧
      (latency ≤ latencyBefore hops first → avg' ≤ avg)

section Interpolation

variable (destinationGeo : Option Hint) {hops : List (Hop Hint Rest)}

/-- A hop between two positions of the numbered list. -/
theorem numbered_split₂ {first last : ℕ} {hop later : Hop Hint Rest} (hlt : first < last)
    (hfirst : hops[first]? = some hop) (hlast : hops[last]? = some later) :
    numbered hops = (numbered hops).take first ++ (hop.numberAt first, hop) ::
      ((numbered hops).drop (first + 1)).take (last - (first + 1)) ++
        (later.numberAt last, later) :: (numbered hops).drop (last + 1) := by
  have hrest : ((numbered hops).drop (first + 1))[last - (first + 1)]? =
      some (later.numberAt last, later) := by
    rw [List.getElem?_drop, Nat.add_sub_cancel' hlt, getElem?_numbered, hlast]
    rfl
  obtain ⟨hbound, hget⟩ := List.getElem?_eq_some_iff.mp hrest
  have hdrop : (numbered hops).drop (last + 1) =
      ((numbered hops).drop (first + 1)).drop (last - (first + 1) + 1) := by
    rw [List.drop_drop]
    congr 1
    omega
  rw [hdrop, ← hget, List.append_assoc, List.cons_append, List.getElem_cons_drop,
    List.take_append_drop]
  exact numbered_split hfirst

theorem exactLatency_between {answers : List (ℤ × ℚ)} {block : Block} {number : ℤ}
    (hcovers : block.start ≤ number ∧ number ≤ block.stop) :
    min (startLat answers block) (endLat answers block) ≤ exactLatency answers block number ∧
      exactLatency answers block number ≤ max (startLat answers block) (endLat answers block) := by
  have hnonneg := progress_nonneg hcovers
  have hle := progress_le_one hcovers
  rw [exactLatency_eq]
  obtain hup | hdown := le_total (startLat answers block) (endLat answers block)
  · rw [min_eq_left hup, max_eq_right hup]
    constructor <;> nlinarith
  · rw [min_eq_right hdown, max_eq_left hdown]
    constructor <;> nlinarith

theorem interpolates (hincreasing : Increasing (numbered hops)) :
    Interpolates destinationGeo hops (interpolateRoute destinationGeo hops) where
  length := by simp [interpolateRoute, numbered]
  kept index hop hat hkept := by
    rw [getElem?_interpolateRoute, hat, Option.map_some, Option.some.injEq]
    by_cases htimeout : hop.status = .timeout
    · have hnone := hkept.resolve_left (not_not_intro htimeout)
      have hspec := replacement_of_timeout hincreasing hat htimeout
      rw [hnone] at hspec
      simp only [replacement, hspec, Option.map_none, ite_self, Option.getD_none]
    · rw [replacement_of_other htimeout]
      rfl
  filled index hop latency hat htimeout hafter := by
    have hspec := replacement_of_timeout hincreasing hat htimeout
    rw [hafter] at hspec
    obtain ⟨block, hblock, hcovers, hstart, hend⟩ := hspec
    refine ⟨exactLatency (responding (numbered hops)) block (hop.numberAt index), ?_,
      abs_round1_sub_le _, ?_⟩
    · rw [getElem?_interpolateRoute, hat, Option.map_some,
        replacement_of_block htimeout hblock (hcovers.1.trans hcovers.2), Option.getD_some]
    · rw [← hstart, ← hend]
      exact exactLatency_between hcovers
  monotone first last latency hle htimeouts hafter := by
    obtain ⟨hop, hat, htimeout⟩ := htimeouts first (le_refl first) hle
    obtain ⟨later, hlater, htimeout'⟩ := htimeouts last hle (le_refl last)
    have hspec := replacement_of_timeout hincreasing hat htimeout
    rw [hafter] at hspec
    obtain ⟨block, hblock, hcovers, hstart, hend⟩ := hspec
    have hstop := hcovers.1.trans hcovers.2
    -- Both positions are in one run, so the second hop has the same block.
    have hsame : hopToBlock (detectedBlocks (numbered hops)) (later.numberAt last) = some block ∧
        hop.numberAt first ≤ later.numberAt last := by
      obtain rfl | hlt := hle.eq_or_lt
      · obtain rfl : hop = later := Option.some.inj (hat.symm.trans hlater)
        exact ⟨hblock, le_refl _⟩
      · have hsplit := numbered_split₂ hlt hat hlater
        refine ⟨(hopToBlock_eq hincreasing hsplit ?_).symm.trans hblock, ?_⟩
        · intro other hother
          obtain rfl | hother := List.mem_cons.mp hother
          · exact decide_eq_true htimeout
          obtain hmid | hend := List.mem_append.mp hother
          · obtain ⟨index, hindex⟩ := List.mem_iff_getElem?.mp hmid
            obtain ⟨hbound, hindex⟩ := Option.ite_none_right_eq_some.mp
              (List.getElem?_take.symm.trans hindex)
            rw [List.getElem?_drop, getElem?_numbered] at hindex
            obtain ⟨between, hbetween, rfl⟩ := Option.map_eq_some_iff.mp hindex
            obtain ⟨found, hfound, hsilent⟩ := htimeouts (first + 1 + index) (by omega) (by omega)
            obtain rfl : between = found := Option.some.inj (hbetween.symm.trans hfound)
            exact decide_eq_true hsilent
          · rw [List.mem_singleton.mp hend]
            exact decide_eq_true htimeout'
        · rw [hsplit, List.append_assoc] at hincreasing
          have hrest := (List.pairwise_append.mp hincreasing).2.1
          exact ((List.pairwise_cons.mp hrest).1 (later.numberAt last, later) (by simp)).le
    have hprogress := progress_mono hcovers hsame.2
    refine ⟨hop, round1 (exactLatency (responding (numbered hops)) block (hop.numberAt first)),
      later, round1 (exactLatency (responding (numbered hops)) block (later.numberAt last)), ?_, ?_,
      fun hup => round1_mono ?_, fun hdown => round1_mono ?_⟩
    · rw [getElem?_interpolateRoute, hat, Option.map_some,
        replacement_of_block htimeout hblock hstop, Option.getD_some]
    · rw [getElem?_interpolateRoute, hlater, Option.map_some,
        replacement_of_block htimeout' hsame.1 hstop, Option.getD_some]
    · rw [exactLatency_eq, exactLatency_eq, hstart, hend]
      nlinarith
    · rw [exactLatency_eq, exactLatency_eq, hstart, hend]
      nlinarith

/-! ## A second application -/

/-- An interpolated hop has the number of the hop it replaces, and did not respond either. -/
theorem numberAt_replaced (entries : List (ℤ × Hop Hint Rest)) (number : ℤ) (hop : Hop Hint Rest) :
    ((replacement destinationGeo entries (number, hop)).getD hop).hop = hop.hop := by
  cases hreplaced : replacement destinationGeo entries (number, hop) with
  | none => rfl
  | some copy =>
      simp only [replacement] at hreplaced
      obtain ⟨-, hreplaced⟩ := Option.ite_none_right_eq_some.mp hreplaced
      obtain ⟨block, -, rfl⟩ := Option.map_eq_some_iff.mp hreplaced
      rfl

theorem answered_replaced (entries : List (ℤ × Hop Hint Rest)) (number : ℤ)
    (hop : Hop Hint Rest) :
    ((replacement destinationGeo entries (number, hop)).getD hop).answered = hop.answered := by
  cases hreplaced : replacement destinationGeo entries (number, hop) with
  | none => rfl
  | some copy =>
      simp only [replacement] at hreplaced
      obtain ⟨htimeout, hreplaced⟩ := Option.ite_none_right_eq_some.mp hreplaced
      obtain ⟨block, -, rfl⟩ := Option.map_eq_some_iff.mp hreplaced
      have hsilent : (number, hop).2.answered = none := answered_of_timeout htimeout
      rw [Option.getD_some]
      refine Eq.trans ?_ hsilent.symm
      simp [Hop.answered, Hop.interpolate]

theorem map_interpolateRoute {β : Type} (f : Hop Hint Rest → β)
    (hf : ∀ entries number hop,
      f ((replacement destinationGeo entries (number, hop)).getD hop) = f hop) :
    (interpolateRoute destinationGeo hops).map f = hops.map f := by
  refine List.ext_getElem? fun index => ?_
  rw [List.getElem?_map, List.getElem?_map, getElem?_interpolateRoute, Option.map_map]
  exact congrArg (fun g => hops[index]?.map g) (funext fun hop => hf _ _ hop)

theorem numbers_interpolateRoute :
    (numbered (interpolateRoute destinationGeo hops)).map Prod.fst =
      (numbered hops).map Prod.fst := by
  refine List.ext_getElem? fun index => ?_
  rw [List.getElem?_map, List.getElem?_map, getElem?_numbered, getElem?_numbered,
    getElem?_interpolateRoute, Option.map_map, Option.map_map, Option.map_map]
  refine congrArg (fun g => hops[index]?.map g) (funext fun hop => ?_)
  simp only [Function.comp_apply, Hop.numberAt, numberAt_replaced destinationGeo]

theorem latencyAfter_interpolateRoute (index : ℕ) :
    latencyAfter (interpolateRoute destinationGeo hops) index = latencyAfter hops index := by
  have hsame : (interpolateRoute destinationGeo hops).map Hop.answered = hops.map Hop.answered :=
    map_interpolateRoute destinationGeo Hop.answered (answered_replaced destinationGeo)
  have hfilter : ∀ list : List (Hop Hint Rest),
      list.filterMap Hop.answered = (list.map Hop.answered).filterMap id := fun list => by
    rw [List.filterMap_map]
    rfl
  rw [latencyAfter, latencyAfter, hfilter, hfilter, List.map_drop, List.map_drop, hsame]

theorem interpolateRoute_idem (hincreasing : Increasing (numbered hops)) :
    interpolateRoute destinationGeo (interpolateRoute destinationGeo hops) =
      interpolateRoute destinationGeo hops := by
  have hagain : Increasing (numbered (interpolateRoute destinationGeo hops)) := by
    have hnumbers := List.pairwise_map.mpr hincreasing
    rw [← numbers_interpolateRoute destinationGeo] at hnumbers
    exact List.pairwise_map.mp hnumbers
  refine List.ext_getElem? fun index => ?_
  cases hat : hops[index]? with
  | none => simp only [getElem?_interpolateRoute, hat, Option.map_none]
  | some hop =>
      have hfirst := interpolates destinationGeo hincreasing
      have hsecond := interpolates destinationGeo hagain
      by_cases hkept : hop.status ≠ .timeout ∨ latencyAfter hops index = none
      · have hresult := hfirst.kept index hop hat hkept
        rw [hresult]
        refine hsecond.kept index hop hresult (hkept.imp_right fun hnone => ?_)
        exact (latencyAfter_interpolateRoute destinationGeo index).trans hnone
      · rw [not_or, not_ne_iff] at hkept
        obtain ⟨latency, hafter⟩ := Option.ne_none_iff_exists'.mp hkept.2
        obtain ⟨exact', hresult, -⟩ := hfirst.filled index hop latency hat hkept.1 hafter
        rw [hresult]
        exact hsecond.kept index _ hresult (.inl (by simp [Hop.interpolate]))

end Interpolation

/-! ## References -/

theorem rewrite_spec (change : ℤ × Hop Hint Rest → Option (Hop Hint Rest))
    (heap : List (Hop Hint Rest)) (refs : List (ℕ × ℕ))
    (hvalid : ∀ ref ∈ refs, ref.1 < heap.length) :
    (∃ fresh, (rewrite change heap refs).1 = heap ++ fresh) ∧
      (∀ ref ∈ (rewrite change heap refs).2, ref < (rewrite change heap refs).1.length) ∧
      ((rewrite change heap refs).2.map fun ref => (rewrite change heap refs).1[ref]?) =
        refs.map fun ref => heap[ref.1]?.map fun hop =>
          (change (hop.numberAt ref.2, hop)).getD hop := by
  induction refs generalizing heap with
  | nil => exact ⟨⟨[], (List.append_nil heap).symm⟩, by simp [rewrite], rfl⟩
  | cons ref rest ih =>
      obtain ⟨ref, index⟩ := ref
      have href : ref < heap.length := hvalid (ref, index) List.mem_cons_self
      have hget : heap[ref]? = some heap[ref] := List.getElem?_eq_getElem href
      simp only [rewrite, hget, Option.bind_some, List.map_cons, Option.map_some]
      cases hchange : change (heap[ref].numberAt index, heap[ref]) with
      | none =>
          obtain ⟨⟨fresh, hfresh⟩, hrefs, hhops⟩ :=
            ih heap fun other hother => hvalid other (List.mem_cons_of_mem _ hother)
          refine ⟨⟨fresh, hfresh⟩, ?_, ?_⟩
          · intro other hother
            obtain rfl | hother := List.mem_cons.mp hother
            · rw [hfresh, List.length_append]
              omega
            · exact hrefs other hother
          · rw [List.map_cons, hhops, hfresh, List.getElem?_append_left href, hget]
            rfl
      | some copy =>
          obtain ⟨⟨fresh, hfresh⟩, hrefs, hhops⟩ := ih (heap ++ [copy]) fun other hother => by
            have hold := hvalid other (List.mem_cons_of_mem _ hother)
            rw [List.length_append]
            omega
          refine ⟨⟨copy :: fresh, by rw [hfresh, List.append_assoc]; rfl⟩, ?_, ?_⟩
          · intro other hother
            obtain rfl | hother := List.mem_cons.mp hother
            · rw [hfresh, List.length_append, List.length_append]
              simp only [List.length_singleton]
              omega
            · exact hrefs other hother
          · rw [List.map_cons, hhops, hfresh]
            congr 1
            · rw [List.append_assoc, List.getElem?_append_right (le_refl _), Nat.sub_self]
              rfl
            · refine List.map_congr_left fun other hother => ?_
              rw [List.getElem?_append_left (hvalid other (List.mem_cons_of_mem _ hother))]

end Justup.Geo.Interpolate
