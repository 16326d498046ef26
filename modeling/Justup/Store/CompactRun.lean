import Justup.Lib.Transition
import Justup.Store.CompactPublish
import Justup.Store.Prune

/-!
# Compaction attempts among writers

`_compact_series` as a sequence of steps, between which appends and prunes take
place under the lock.  One attempt runs at a time.
-/

namespace Justup.Store

open Justup.Lib

variable {V : Type*} (format : LineFormat V) (resolution : Resolution)

/-- What a writer does under the exclusive lock: `append_point`, the prune on
the append path, `prune_series`. -/
inductive Write (V : Type*) where
  | append (ts : Int) (value : V)
  | prune (cutoff : Int)
  | pruneSeries (cutoff : Int)

def Write.apply : Write V → Series → Series
  | .append ts value, s => appendPoint format ts value s
  | .prune cutoff, s => pruneActive format cutoff s
  | .pruneSeries cutoff, s => Store.pruneSeries format resolution cutoff s

/-- The argument of an attempt and what it notes of the active file. -/
structure Stat where
  hotStart : Int
  ino : Nat
  size : Nat
  deriving DecidableEq, Repr

/-- How far an attempt has come. -/
inductive Attempt where
  | idle
  | statted (st : Stat)
  | planning (st : Stat) (consumed : Nat) (todo : List (PeriodKey × Chunk))
      (plans : List Plan) (moved : Nat)
  | staged (st : Stat) (plans : List Plan) (remainder : Text) (moved : Nat)
  deriving DecidableEq, Repr

/-- How an attempt ends: with 0, -1, an exception, or the records moved. -/
inductive Outcome where
  | nothing
  | raced
  | failed
  | moved (count : Nat)
  deriving DecidableEq, Repr

/-- A series, the attempt at work on it and the end of the last one. -/
structure System where
  series : Series
  attempt : Attempt
  outcome : Option Outcome
  deriving DecidableEq, Repr

/-- No attempt has run yet. -/
def System.start (s : Series) : System := ⟨s, .idle, none⟩

def System.finish (sys : System) (outcome : Outcome) : System :=
  { sys with attempt := .idle, outcome := some outcome }

inductive Act (V : Type*) where
  | write (write : Write V)
  | stat (hotStart : Int)
  | scan
  | plan
  | stage
  | commit
  /-- The process stops, or an exception leaves `_compact_series`; if that is in
  the locked part, `published` segments have been renamed. -/
  | interrupt (published : Nat)

/-- The checks of the locked part. -/
def mayCommit (st : Stat) (plans : List Plan) (s : Series) : Bool :=
  match s.active with
  | none => false
  | some file =>
      decide (file.ino = st.ino) && decide (st.size ≤ file.content.length) &&
        signaturesMatch s plans

/-- One step of an attempt. -/
def advance (sys : System) : Attempt → Act V → Option System
  | .idle, .stat hotStart =>
      match sys.series.active with
      | none => some (sys.finish .nothing)
      | some file =>
          some { sys with
            attempt := .statted ⟨hotStart, file.ino, file.content.length⟩
            outcome := none }
  | .statted st, .scan =>
      match sys.series.active with
      | none => some (sys.finish .failed)
      | some file =>
          if file.ino ≠ st.ino then some (sys.finish .raced)
          else
            let (consumed, chunks) :=
              scanClosedPrefix format resolution st.hotStart st.size file.content
            if consumed = 0 then some (sys.finish .nothing)
            else
              some { sys with
                attempt := .planning st consumed chunks []
                  (chunks.map fun entry => entry.2.count).sum }
  | .planning st consumed ((key, chunk) :: todo) plans moved, .plan =>
      match planSegment format sys.series.segments key chunk with
      | none => some (sys.finish .failed)
      | some plan =>
          some { sys with attempt := .planning st consumed todo (plans ++ [plan]) moved }
  | .planning st consumed [] plans moved, .stage =>
      match sys.series.active with
      | none => some (sys.finish .failed)
      | some file =>
          if file.ino ≠ st.ino then some (sys.finish .raced)
          else
            some { sys with
              attempt := .staged st plans (stageRemainder consumed st.size file.content) moved }
  | .staged st plans remainder moved, .commit =>
      if mayCommit st plans sys.series then
        some { sys.finish (.moved moved) with
          series := commitSeries plans remainder st.size sys.series }
      else some (sys.finish .raced)
  | _, _ => none

/-- What an interruption leaves of the segments. -/
def interrupted (published : Nat) (s : Series) : Attempt → Series
  | .staged st plans _ _ =>
      if mayCommit st plans s then (plans.take published).foldl publish s else s
  | _ => s

/-- One step of the system; `none` where the step is not possible. -/
def step (sys : System) : Act V → Option System
  | .write write => some { sys with series := write.apply format resolution sys.series }
  | .interrupt published =>
      match sys.attempt with
      | .idle => none
      | attempt =>
          some { sys.finish .failed with series := interrupted published sys.series attempt }
  | act => advance format resolution sys sys.attempt act

/-! ## What one step does -/

/-- What the attempt has noted, while it goes on. -/
def Attempt.stat? : Attempt → Option Stat
  | .idle => none
  | .statted st => some st
  | .planning st _ _ _ _ => some st
  | .staged st _ _ _ => some st

section Cases

variable {format resolution} {sys next : System} {act : Act V}

/-- A step of the attempt itself begins it, goes on with it or ends it without a
change of the series, or commits. -/
theorem advance_cases {attempt : Attempt}
    (hstep : advance format resolution sys attempt act = some next) :
    (∃ hotStart, act = .stat hotStart ∧ attempt = .idle ∧ next.series = sys.series ∧
      ∀ st ∈ next.attempt.stat?,
        st.hotStart = hotStart ∧ st.size = sys.series.activeContent.length) ∨
    (attempt ≠ .idle ∧ (∀ hotStart, act ≠ .stat hotStart) ∧ next.series = sys.series ∧
      (∀ st ∈ next.attempt.stat?, st ∈ attempt.stat?) ∧
        (act = .commit → next.outcome = some .raced)) ∨
    ∃ st plans remainder moved, act = .commit ∧
      attempt = .staged st plans remainder moved ∧ mayCommit st plans sys.series = true ∧
        next = { sys.finish (.moved moved) with
          series := commitSeries plans remainder st.size sys.series } := by
  have hidle : ∀ outcome, ∀ st ∈ (sys.finish outcome).attempt.stat?, st ∈ attempt.stat? := by
    intro outcome st hst
    cases hst
  unfold advance at hstep
  split at hstep
  · -- stat
    rename_i hotStart
    cases hactive : sys.series.active with
    | none =>
        simp only [hactive, Option.some.injEq] at hstep
        subst hstep
        exact Or.inl ⟨hotStart, rfl, rfl, rfl, by simp [System.finish, Attempt.stat?]⟩
    | some file =>
        simp only [hactive, Option.some.injEq] at hstep
        subst hstep
        refine Or.inl ⟨hotStart, rfl, rfl, rfl, fun st hst => ?_⟩
        cases hst
        exact ⟨rfl, by simp [Series.activeContent, hactive]⟩
  · -- scan
    refine Or.inr (Or.inl ⟨by simp, by simp, ?_⟩)
    cases hactive : sys.series.active with
    | none =>
        simp only [hactive, Option.some.injEq] at hstep
        exact hstep ▸ ⟨rfl, hidle _, by simp⟩
    | some file =>
        simp only [hactive] at hstep
        split_ifs at hstep
        · exact Option.some.inj hstep ▸ ⟨rfl, hidle _, by simp⟩
        · exact Option.some.inj hstep ▸ ⟨rfl, hidle _, by simp⟩
        · exact Option.some.inj hstep ▸ ⟨rfl, fun st hst => hst, by simp⟩
  · -- plan
    rename_i key chunk todo plans moved
    refine Or.inr (Or.inl ⟨by simp, by simp, ?_⟩)
    cases hplan : planSegment format sys.series.segments key chunk with
    | none =>
        simp only [hplan, Option.some.injEq] at hstep
        exact hstep ▸ ⟨rfl, hidle _, by simp⟩
    | some plan =>
        simp only [hplan, Option.some.injEq] at hstep
        exact hstep ▸ ⟨rfl, fun st hst => hst, by simp⟩
  · -- stage
    refine Or.inr (Or.inl ⟨by simp, by simp, ?_⟩)
    cases hactive : sys.series.active with
    | none =>
        simp only [hactive, Option.some.injEq] at hstep
        exact hstep ▸ ⟨rfl, hidle _, by simp⟩
    | some file =>
        simp only [hactive] at hstep
        split_ifs at hstep
        · exact Option.some.inj hstep ▸ ⟨rfl, hidle _, by simp⟩
        · exact Option.some.inj hstep ▸ ⟨rfl, fun st hst => hst, by simp⟩
  · -- commit
    split_ifs at hstep with hcommit
    · exact Or.inr (Or.inr ⟨_, _, _, _, rfl, rfl, hcommit, (Option.some.inj hstep).symm⟩)
    · exact Or.inr (Or.inl ⟨by simp, by simp,
        Option.some.inj hstep ▸ ⟨rfl, hidle _, fun _ => rfl⟩⟩)
  · cases hstep

/-- The steps of the system. -/
theorem step_cases (hstep : step format resolution sys act = some next) :
    (∃ write, act = .write write ∧
      next = { sys with series := write.apply format resolution sys.series }) ∨
    (∃ published, act = .interrupt published ∧ sys.attempt ≠ .idle ∧
      next = { sys.finish .failed with
        series := interrupted published sys.series sys.attempt }) ∨
    (∀ write, act ≠ .write write) ∧
      advance format resolution sys sys.attempt act = some next := by
  unfold step at hstep
  split at hstep
  · exact Or.inl ⟨_, rfl, (Option.some.inj hstep).symm⟩
  · split at hstep
    · cases hstep
    · rename_i hgoing
      exact Or.inr (Or.inl ⟨_, rfl, fun hidle => hgoing hidle, (Option.some.inj hstep).symm⟩)
  · rename_i hwrite _
    exact Or.inr (Or.inr ⟨hwrite, hstep⟩)

end Cases

end Justup.Store
