import Justup.Store.Rollup
import Justup.Store.SeriesView

/-!
# Interrupted appends

A full disk or a crash can leave any beginning of what was being appended.  The
next append goes on in the same line.
-/

namespace Justup.Store

open Justup.Lib

variable {V : Type*}

/-- The steps of a series whose writers can be interrupted.  `rollup` is the
locked part of `downsample_series`; of the text of an interrupted write the
first `length` characters are in the file. -/
inductive LogAct (V : Type*) where
  | act (inner : Act V)
  | rollup (buckets : List (Int × V))
  | tornAppend (ts : Int) (value : V) (length : Nat)
  | tornRollup (buckets : List (Int × V)) (length : Nat)

/-- A series and the points that its readers are owed: what was readable or
acknowledged before and is not expired. -/
structure Log (V : Type*) where
  sys : System
  owed : List (Point V)

variable (format : LineFormat V) (resolution : Resolution)

/-- The lines of the buckets that are written to a series. -/
def rollupText (buckets : List (Int × V)) (s : Series) : Text :=
  (bucketLines format (newBuckets (lastTs format s) buckets)).flatten

/-- The text that a step adds to the active file. -/
def LogAct.text (s : Series) : LogAct V → Text
  | .act (.write (.append ts value)) => recordLine format ts value
  | .act _ => []
  | .rollup buckets => rollupText format buckets s
  | .tornAppend ts value length => (recordLine format ts value).take length
  | .tornRollup buckets length => (rollupText format buckets s).take length

/-- The points that a step reports as written: `append_point` returns, or
`downsample_series` counts them as created. -/
def LogAct.acknowledged (s : Series) : LogAct V → List (Point V)
  | .act (.write (.append ts value)) => [⟨ts, value⟩]
  | .rollup buckets =>
      (newBuckets (lastTs format s) buckets).map fun bucket => ⟨bucket.1, bucket.2⟩
  | _ => []

/-- What retention takes away in a step. -/
def LogAct.expires : LogAct V → Point V → Bool
  | .act (.write (.prune cutoff)), point => decide (point.ts < cutoff)
  | .act (.write (.pruneSeries cutoff)), point => decide (point.ts < cutoff)
  | _, _ => false

/-- What a step makes of the series and the attempt at work on it. -/
def LogAct.perform (sys : System) : LogAct V → Option System
  | .act inner => step format resolution sys inner
  | .rollup buckets => some { sys with series := writeBuckets format buckets sys.series }
  | .tornAppend ts value length =>
      some { sys with series := sys.series.append ((recordLine format ts value).take length) }
  | .tornRollup buckets length =>
      some { sys with
        series := sys.series.append ((rollupText format buckets sys.series).take length) }

/-- One step, and what is owed after it. -/
def Log.step (log : Log V) (act : LogAct V) : Option (Log V) :=
  (act.perform format resolution log.sys).map fun sys =>
    ⟨sys, ((log.owed ++ allPoints format log.sys.series).filter fun point => !act.expires point) ++
      act.acknowledged format log.sys.series⟩

/-- What a step finds when it adds to the active file: whole lines or, if it is
interrupted, at least no record in an unterminated line. -/
def Sealed (log : Log V) (act : LogAct V) : Prop :=
  act.text format log.sys.series = [] ∨ Lines.Complete '\n' log.sys.series.activeContent ∨
    act.acknowledged format log.sys.series = [] ∧
      Terminated format log.sys.series.activeContent

section Facts

variable {format resolution} {sys next : System} {act : LogAct V}

/-- A step adds its text, or drops expired points, or is one of a compaction. -/
theorem perform_cases (hperform : act.perform format resolution sys = some next) :
    next = { sys with series := sys.series.append (act.text format sys.series) } ∨
    act.acknowledged format sys.series = [] ∧
      ((∃ cutoff, (∀ point, act.expires point = decide (point.ts < cutoff)) ∧
        (next = { sys with series := pruneActive format cutoff sys.series } ∨
          next = { sys with series := pruneSeries format resolution cutoff sys.series })) ∨
      ∃ inner, (∀ write, inner ≠ .write write) ∧
        step format resolution sys inner = some next) := by
  cases act with
  | rollup buckets => exact Or.inl (Option.some.inj hperform).symm
  | tornAppend ts value length => exact Or.inl (Option.some.inj hperform).symm
  | tornRollup buckets length => exact Or.inl (Option.some.inj hperform).symm
  | act inner =>
      have hinner : step format resolution sys inner = some next := hperform
      cases inner with
      | write write =>
          have hnext := (Option.some.inj hperform).symm
          cases write with
          | append ts value => exact Or.inl hnext
          | prune cutoff => exact Or.inr ⟨rfl, Or.inl ⟨cutoff, fun _ => rfl, Or.inl hnext⟩⟩
          | pruneSeries cutoff => exact Or.inr ⟨rfl, Or.inl ⟨cutoff, fun _ => rfl, Or.inr hnext⟩⟩
      | _ => exact Or.inr ⟨rfl, Or.inr ⟨_, fun write => by simp, hinner⟩⟩

/-- What a step acknowledges are the points of its text. -/
theorem points_text {s : Series} (hne : act.acknowledged format s ≠ []) :
    points format none none (rawLines (act.text format s)) = act.acknowledged format s := by
  cases act with
  | act inner =>
      cases inner with
      | write write =>
          cases write with
          | append ts value =>
              have hline := points_recordLines format [(ts, value)]
              rw [List.map_singleton, List.flatten_singleton] at hline
              exact hline
          | prune cutoff => exact absurd rfl hne
          | pruneSeries cutoff => exact absurd rfl hne
      | _ => exact absurd rfl hne
  | rollup buckets => exact points_recordLines format _
  | tornAppend ts value length => exact absurd rfl hne
  | tornRollup buckets length => exact absurd rfl hne

theorem systemInv_perform (hinv : SystemInv format resolution sys)
    (hperform : act.perform format resolution sys = some next) :
    SystemInv format resolution next := by
  cases act with
  | act inner => exact step_inv hinv hperform
  | rollup buckets =>
      cases hperform
      exact systemInv_append hinv _
  | tornAppend ts value length =>
      cases hperform
      exact systemInv_append hinv _
  | tornRollup buckets length =>
      cases hperform
      exact systemInv_append hinv _

/-- A sealed append leaves every point readable. -/
theorem Sealed.mem_append {log : Log V} (hsealed : Sealed format log act) {point : Point V}
    (hpoint : point ∈ allPoints format log.sys.series) :
    point ∈ allPoints format (log.sys.series.append (act.text format log.sys.series)) := by
  rcases hsealed with hnothing | hcomplete | ⟨-, hterminated⟩
  · rw [allPoints_eq, segments_append, activeContent_append, hnothing, List.append_nil,
      ← allPoints_eq]
    exact hpoint
  · exact mem_allPoints_append (terminated_of_complete hcomplete) _ hpoint
  · exact mem_allPoints_append hterminated _ hpoint

/-- What a sealed append acknowledges is readable. -/
theorem Sealed.acknowledged {log : Log V} (hsealed : Sealed format log act) {point : Point V}
    (hpoint : point ∈ act.acknowledged format log.sys.series) :
    point ∈ allPoints format (log.sys.series.append (act.text format log.sys.series)) := by
  have htext := points_text (List.ne_nil_of_mem hpoint)
  rcases hsealed with hnothing | hcomplete | ⟨hnone, -⟩
  · rw [hnothing] at htext
    rw [← htext] at hpoint
    cases hpoint
  · rw [allPoints_append hcomplete, htext]
    exact List.mem_append_right _ hpoint
  · rw [hnone] at hpoint
    cases hpoint

/-- One step: what is owed stays readable. -/
theorem owed_step {log later : Log V}
    (hinv : SystemInv format resolution log.sys ∧ log.owed ⊆ allPoints format log.sys.series)
    (hsealed : Sealed format log act)
    (hstep : log.step format resolution act = some later) :
    SystemInv format resolution later.sys ∧
      later.owed ⊆ allPoints format later.sys.series := by
  obtain ⟨hsystem, howed⟩ := hinv
  obtain ⟨next, hperform, rfl⟩ := Option.map_eq_some_iff.mp hstep
  refine ⟨systemInv_perform hsystem hperform, ?_⟩
  have hcovered : log.owed ++ allPoints format log.sys.series ⊆
      allPoints format log.sys.series :=
    List.append_subset.mpr ⟨howed, List.Subset.refl _⟩
  rcases perform_cases hperform with rfl | ⟨hnone, ⟨cutoff, hexpires, hnext⟩ | ⟨inner, hwrite, hinner⟩⟩
  · intro point hpoint
    rcases List.mem_append.mp hpoint with hkept | hnew
    · exact hsealed.mem_append (hcovered (List.mem_filter.mp hkept).1)
    · exact hsealed.acknowledged hnew
  · have hretains : Retains Point.ts cutoff (allPoints format log.sys.series)
        (allPoints format next.series) := by
      rcases hnext with rfl | rfl
      · exact retains_pruneActive cutoff _
      · exact retains_pruneSeries hsystem.wf cutoff
    intro point hpoint
    rw [hnone, List.append_nil] at hpoint
    obtain ⟨hkept, hfresh⟩ := List.mem_filter.mp hpoint
    rw [hexpires, Bool.not_eq_true', decide_eq_false_iff_not, not_lt] at hfresh
    exact hretains.keeps point (hcovered hkept) hfresh
  · intro point hpoint
    rw [hnone, List.append_nil] at hpoint
    exact allPoints_subset_step hsystem hwrite hinner
      (hcovered (List.mem_filter.mp hpoint).1)

/-- In every run whose steps find a sealed file, `query` without bounds returns
every point that was acknowledged or readable before and is not expired. -/
theorem acknowledged_is_readable (s : PeriodSeries format resolution) (acts : List (LogAct V))
    (log : Log V)
    (hrun : Transition.run (Log.step format resolution) ⟨System.start s.val, []⟩ acts = some log)
    (hsealed : Transition.RunOk (Log.step format resolution) (Sealed format)
      ⟨System.start s.val, []⟩ acts)
    (now : Int) (limit : Nat) (hlimit : (allPoints format log.sys.series).length ≤ limit)
    (cache : TailCache) :
    ∀ point ∈ log.owed,
      point ∈ (query format resolution now none none limit false log.sys.series cache).1 := by
  obtain ⟨-, howed⟩ := Transition.run_invariant_of
    (fun hinv hok hstep => owed_step hinv hok hstep) hsealed
    ⟨start_inv s.property, List.nil_subset _⟩ hrun
  rw [query_allPoints now hlimit cache]
  exact howed

end Facts

/-- A record and an interrupted append behind it. -/
theorem acknowledged_is_readable_before_torn_line :
    ∃ log, Transition.run (Log.step JsonLine.format .raw) ⟨System.start Series.empty, []⟩
        [.act (.write (.append 0 1)), .tornAppend 60000000 2 12] = some log ∧
      (⟨0, 1⟩ : Point (Fin 10)) ∈ (query JsonLine.format .raw 86400000000 none none 10 false
        log.sys.series []).1 := by
  have hany : (Transition.run (Log.step JsonLine.format .raw) ⟨System.start Series.empty, []⟩
      [.act (.write (.append 0 1)), .tornAppend 60000000 2 12]).any (fun log =>
        decide ((⟨0, 1⟩ : Point (Fin 10)) ∈ log.owed) &&
          decide ((allPoints JsonLine.format log.sys.series).length ≤ 10)) = true := by
    decide +kernel
  obtain ⟨log, hrun, hlog⟩ := (Option.any_eq_true ..).mp hany
  rw [Bool.and_eq_true, decide_eq_true_eq, decide_eq_true_eq] at hlog
  have hsealed : Transition.RunOk (Log.step JsonLine.format .raw) (Sealed JsonLine.format)
      ⟨System.start Series.empty, []⟩
      [.act (.write (.append 0 1)), .tornAppend 60000000 2 12] := by
    refine ⟨Or.inr (Or.inl Lines.complete_nil), fun next hnext => ⟨Or.inr (Or.inl ?_),
      fun _ _ => trivial⟩⟩
    cases hnext
    exact (isLine_recordLine JsonLine.format 0 1).complete
  exact ⟨log, hrun, acknowledged_is_readable ⟨Series.empty, wf_empty⟩ _ log hrun hsealed
    86400000000 10 hlog.2 [] _ hlog.1⟩

/-- An append goes on in a line that was cut off after twelve characters: it
returns, and the record is never read.  The same happens to the first point of a
rollup, and the newest of its points keeps the bucket from being rolled up again. -/
theorem append_behind_torn_line_is_lost :
    (∃ log, Transition.run (Log.step JsonLine.format .raw) ⟨System.start Series.empty, []⟩
        [.tornAppend 0 1 12, .act (.write (.append 60000000 2))] = some log ∧
      (⟨60000000, 2⟩ : Point (Fin 10)) ∈ log.owed ∧
      (query JsonLine.format .raw 86400000000 none none 10 false log.sys.series []).1 = []) ∧
    ∃ log, Transition.run (Log.step JsonLine.format .fiveMinute)
        ⟨System.start Series.empty, []⟩
        [.tornRollup [(0, 1)] 12, .rollup [(0, 1), (300000000, 2)]] = some log ∧
      (⟨0, 1⟩ : Point (Fin 10)) ∈ log.owed ∧
      (query JsonLine.format .fiveMinute 86400000000 none none 10 false log.sys.series []).1 =
        [⟨300000000, 2⟩] ∧
      newBuckets (lastTs JsonLine.format log.sys.series) [((0 : Int), (1 : Fin 10))] = [] := by
  have happend : (Transition.run (Log.step JsonLine.format .raw) ⟨System.start Series.empty, []⟩
      [.tornAppend 0 1 12, .act (.write (.append 60000000 2))]).any (fun log =>
        decide ((⟨60000000, 2⟩ : Point (Fin 10)) ∈ log.owed) &&
          decide ((query JsonLine.format .raw 86400000000 none none 10 false log.sys.series
            []).1 = [])) = true := by decide +kernel
  have hrollup : (Transition.run (Log.step JsonLine.format .fiveMinute)
      ⟨System.start Series.empty, []⟩
      [.tornRollup [(0, 1)] 12, .rollup [(0, 1), (300000000, 2)]]).any (fun log =>
        decide ((⟨0, 1⟩ : Point (Fin 10)) ∈ log.owed) &&
          decide ((query JsonLine.format .fiveMinute 86400000000 none none 10 false
            log.sys.series []).1 = [⟨300000000, 2⟩]) &&
          decide (newBuckets (lastTs JsonLine.format log.sys.series)
            [((0 : Int), (1 : Fin 10))] = [])) = true := by decide +kernel
  obtain ⟨log, hrun, hlog⟩ := (Option.any_eq_true ..).mp happend
  obtain ⟨log', hrun', hlog'⟩ := (Option.any_eq_true ..).mp hrollup
  simp only [Bool.and_eq_true, decide_eq_true_eq] at hlog hlog'
  exact ⟨⟨log, hrun, hlog.1, hlog.2⟩, log', hrun', hlog'.1.1, hlog'.1.2, hlog'.2⟩

end Justup.Store
