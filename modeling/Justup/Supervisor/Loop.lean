import Justup.Lib.Transition
import Justup.Supervisor.Service
import Mathlib

/-!
# The supervising task of a service

`_supervise`, `_run_once` and `_wait_until_ended`, step by step from one `await`
to the next.  Between two steps time passes, the run ends or ignores its
cancellation, other tasks report failures and successes or ask for a snapshot,
maintenance begins and ends, and the application shuts down.
-/

namespace Justup.Supervisor

open Lib.Transition

/-- What the supervising task awaits. -/
inductive Phase where
  /-- The head of the loop in `_supervise`.  Only a task that did not begin yet waits here; the
  other times the code goes on at once, and the model has more runs than the code. -/
  | top
  /-- `_wait_for_maintenance`, with the state to return to. -/
  | pausing (previous : ServiceState) (wake : Int)
  /-- The wait of `_run_once`; without a deadline only the end of the run ends it. -/
  | waiting (started : Int) (deadline : Option Int)
  /-- A hung run was cancelled. -/
  | reaping (started : Int) (deadline : Int)
  /-- A hung run ignores its cancellation. -/
  | holding (started : Int) (deadline : Int)
  /-- The restart delay. -/
  | sleeping (wake : Int)
  /-- The supervising task was cancelled and waits for its run. -/
  | cancelling (deadline : Int)
  | stopped
  deriving DecidableEq, Repr

/-- A run is supervised. -/
def Phase.active : Phase → Bool
  | .waiting .. | .reaping .. | .holding .. => true
  | _ => false

/-- The latest run: `some none` while it runs, then how it ended. -/
abbrev Task := Option (Option RunEnd)

structure System where
  clock : Int
  maintenance : Bool
  stopping : Bool
  /-- `stop` cancelled the supervising task, which did not notice yet. -/
  cancelRequested : Bool
  svc : Service
  phase : Phase
  task : Task
  /-- Not in the code: how many runs have not ended, and how many ended without counting. -/
  running : Nat
  interrupted : Nat
  deriving DecidableEq, Repr

inductive SupAct where
  | tick (delay : Nat)
  | beginMaintenance
  | endMaintenance
  | beginShutdown
  | cancelSupervisor
  | endRun (exc : RunEnd)
  | heartbeat
  | reportFailure (excType : String)
  | reportSuccess
  | snapshot
  | resume (draw : Int)
  | throwCancelled
  deriving DecidableEq, Repr

/-- The supervising task is resumed. -/
def SupAct.resumes : SupAct → Bool
  | .resume _ => true
  | _ => false

namespace System

variable (cfg : Config)

def initial (clock : Int) : System where
  clock := clock
  maintenance := false
  stopping := false
  cancelRequested := false
  svc := { lastBeat := clock }
  phase := .top
  task := none
  running := 0
  interrupted := 0

def stop (s : System) : System :=
  { s with phase := .stopped, svc := { s.svc with state := .stopped } }

/-- `asyncio.wait` of the loop in `_run_once`. -/
def await (started : Int) (s : System) : System :=
  let deadline := if s.svc.watching cfg then some (s.clock + cfg.policy.checkInterval) else none
  { s with phase := .waiting started deadline }

/-- A new run: the rest of the loop in `_supervise` up to the first wait. -/
def start (s : System) : System :=
  let svc := { s.svc with
    starts := s.svc.starts + 1
    failStreak := 0
    failSince := none
    okSince := none
    lastBeat := s.clock
    state := if s.svc.state = .degraded then .degraded else .running }
  { s with svc := svc, task := some none, running := s.running + 1 }.await cfg s.clock

/-- `_supervise` after `_run_once` saw the end of the run. -/
def observe (started draw : Int) (exc : RunEnd) (s : System) : System :=
  if s.stopping then s.stop
  else if exc = .maintenanceActive ∨ s.maintenance = true then
    { s with phase := .top, interrupted := s.interrupted + 1 }
  else
    let delay := (s.svc.recordCrash cfg s.clock (s.clock - started) exc).nextDelay cfg s.clock draw
    { s with svc := delay.2, phase := .sleeping (s.clock + delay.1) }

/-- One turn of the loop in `_run_once` after a wait that timed out. -/
def turn (started : Int) (s : System) : System :=
  let s := { s with svc := s.svc.evaluate cfg s.clock started }
  if cfg.heartbeatTimeout.any fun timeout => decide (timeout < s.clock - s.svc.lastBeat) then
    { s with phase := .reaping started (s.clock + cfg.policy.cancelTimeout) }
  else s.await cfg started

/-- The end of the run that the supervising task sees when it is resumed. -/
def observed (s : System) : Option RunEnd :=
  match s.phase, s.task with
  | .waiting _ _, some (some exc) => some exc
  | .reaping _ _, some (some _) => some .hung
  | .holding _ _, some (some _) => some .hung
  | _, _ => none

def resume (draw : Int) (s : System) : Option System :=
  match s.phase with
  | .top =>
      if s.stopping then some s.stop
      else if s.maintenance then
        some { s with
          phase := .pausing s.svc.state (s.clock + cfg.policy.maintenancePoll)
          svc := { s.svc with state := .paused } }
      else some (s.start cfg)
  | .pausing previous wake =>
      if s.clock < wake then none
      else if s.maintenance && !s.stopping then
        some { s with phase := .pausing previous (s.clock + cfg.policy.maintenancePoll) }
      else if s.stopping then some s.stop
      else some ({ s with svc := { s.svc with state := previous } }.start cfg)
  | .waiting started deadline =>
      match s.observed with
      | some exc => some (s.observe cfg started draw exc)
      | none => if deadline.any (· ≤ s.clock) then some (s.turn cfg started) else none
  | .reaping started deadline =>
      match s.observed with
      | some exc => some (s.observe cfg started draw exc)
      | none =>
          if s.clock < deadline then none
          else
            let s := { s with svc := s.svc.degrade cfg .hangNotCancellable }
            if s.stopping then some s.stop
            else some { s with phase := .holding started (s.clock + cfg.policy.cancelTimeout) }
  | .holding started deadline =>
      match s.observed with
      | some exc => some (s.observe cfg started draw exc)
      | none =>
          if s.clock < deadline then none
          else if s.stopping then some s.stop
          else some { s with phase := .holding started (s.clock + cfg.policy.cancelTimeout) }
  | .sleeping wake => if s.clock < wake then none else some { s with phase := .top }
  | .cancelling deadline =>
      if s.clock < deadline ∧ s.task = some none then none else some s.stop
  | .stopped => none

/-- `CancelledError` at the `await` of the supervising task. -/
def throwCancelled (s : System) : Option System :=
  if s.cancelRequested = false then none
  else
    let s := { s with cancelRequested := false }
    match s.phase with
    | .stopped => none
    -- nothing is awaited here; a task that did not begin yet never does
    | .top => if s.svc.starts = 0 then some { s with phase := .stopped } else none
    | .waiting .. | .reaping .. | .holding .. =>
        some { s with phase := .cancelling (s.clock + cfg.policy.cancelTimeout) }
    | .pausing .. | .sleeping _ | .cancelling _ => some s.stop

def step (s : System) : SupAct → Option System
  | .tick delay => some { s with clock := s.clock + delay }
  | .beginMaintenance => some { s with maintenance := true }
  | .endMaintenance => some { s with maintenance := false }
  | .beginShutdown => some { s with stopping := true }
  | .cancelSupervisor => some { s with cancelRequested := true }
  | .endRun exc =>
      match s.task with
      | some none => some { s with task := some (some exc), running := s.running - 1 }
      | _ => none
  | .heartbeat => some { s with svc := { s.svc with lastBeat := s.clock } }
  | .reportFailure excType =>
      -- intended stops and restores are no failures
      if s.stopping || s.maintenance then some s
      else some { s with svc := s.svc.reportFailure cfg s.clock excType }
  | .reportSuccess => some { s with svc := s.svc.reportSuccess s.clock }
  | .snapshot => some { s with svc := s.svc.pruneHangs cfg s.clock }
  | .resume draw => s.resume cfg draw
  | .throwCancelled => s.throwCancelled cfg

/-! ## What a step can do -/

/-- What the supervising task does when it is resumed. -/
inductive Resumed (s : System) (draw : Int) : System → Prop where
  | stopped (degraded : Bool) (hobserved : s.observed = none) : Resumed s draw
      { s with svc := if degraded then s.svc.degrade cfg .hangNotCancellable else s.svc }.stop
  | paused (hphase : s.phase = .top) (hstopping : s.stopping = false) : Resumed s draw
      { s with
        phase := .pausing s.svc.state (s.clock + cfg.policy.maintenancePoll)
        svc := { s.svc with state := .paused } }
  | pausedAgain (previous : ServiceState) (wake : Int) (hphase : s.phase = .pausing previous wake) :
      Resumed s draw
        { s with phase := .pausing previous (s.clock + cfg.policy.maintenancePoll) }
  | started (state : ServiceState)
      (hphase : s.phase = .top ∧ state = s.svc.state ∨ ∃ wake, s.phase = .pausing state wake)
      (hstopping : s.stopping = false) (hmaintenance : s.maintenance = false) :
      Resumed s draw ({ s with svc := { s.svc with state := state } }.start cfg)
  | observed (started : Int) (exc : RunEnd) (hphase : s.phase.active = true)
      (hobserved : s.observed = some exc) : Resumed s draw (s.observe cfg started draw exc)
  | turned (started : Int) (deadline : Option Int) (hphase : s.phase = .waiting started deadline)
      (hobserved : s.observed = none) : Resumed s draw (s.turn cfg started)
  | held (started deadline : Int) (hphase : s.phase = .reaping started deadline)
      (hobserved : s.observed = none) : Resumed s draw
      { s with
        svc := s.svc.degrade cfg .hangNotCancellable
        phase := .holding started (s.clock + cfg.policy.cancelTimeout) }
  | heldAgain (started deadline : Int) (hphase : s.phase = .holding started deadline)
      (hobserved : s.observed = none) :
      Resumed s draw { s with phase := .holding started (s.clock + cfg.policy.cancelTimeout) }
  | woke (wake : Int) (hphase : s.phase = .sleeping wake) (hwake : wake ≤ s.clock) :
      Resumed s draw { s with phase := .top }

variable {cfg} {s later : System} {draw : Int}

theorem observed_eq_none (hactive : s.phase.active = false) : s.observed = none := by
  unfold observed
  split <;> simp_all [Phase.active]

/-- The start of the run that an evaluation would look at. -/
def evaluated (s : System) : Option Int :=
  match s.phase with
  | .waiting started _ => if s.observed = none then some started else none
  | _ => none

theorem evaluated_waiting {started : Int} {deadline : Option Int}
    (hphase : s.phase = .waiting started deadline) (hobserved : s.observed = none) :
    s.evaluated = some started := by
  simp [evaluated, hphase, hobserved]

theorem resume_cases (hstep : s.resume cfg draw = some later) : Resumed cfg s draw later := by
  have hstop : s.observed = none → Resumed cfg s draw s.stop := Resumed.stopped false
  unfold resume at hstep
  split at hstep
  next hphase =>
    split_ifs at hstep with hstopping hmaintenance
    · cases hstep
      exact hstop (observed_eq_none (by rw [hphase]; rfl))
    · cases hstep
      exact .paused hphase (Bool.eq_false_iff.mpr hstopping)
    · cases hstep
      exact .started s.svc.state (.inl ⟨hphase, rfl⟩) (Bool.eq_false_iff.mpr hstopping)
        (Bool.eq_false_iff.mpr hmaintenance)
  next previous wake hphase =>
    split_ifs at hstep with hwake hmaintenance hstopping
    · cases hstep
      exact .pausedAgain previous wake hphase
    · cases hstep
      exact hstop (observed_eq_none (by rw [hphase]; rfl))
    · cases hstep
      have hoff : s.stopping = false := Bool.eq_false_iff.mpr hstopping
      refine .started previous (.inr ⟨wake, hphase⟩) hoff ?_
      simpa [hoff] using hmaintenance
  next started deadline hphase =>
    have hactive : s.phase.active = true := by rw [hphase]; rfl
    split at hstep
    next exc hobserved =>
      cases hstep
      exact .observed started exc hactive hobserved
    next hobserved =>
      split_ifs at hstep
      cases hstep
      exact .turned started deadline hphase hobserved
  next started deadline hphase =>
    have hactive : s.phase.active = true := by rw [hphase]; rfl
    split at hstep
    next exc hobserved =>
      cases hstep
      exact .observed started exc hactive hobserved
    next hobserved =>
      dsimp only at hstep
      split_ifs at hstep
      · cases hstep
        exact .stopped true hobserved
      · cases hstep
        exact .held started deadline hphase hobserved
  next started deadline hphase =>
    have hactive : s.phase.active = true := by rw [hphase]; rfl
    split at hstep
    next exc hobserved =>
      cases hstep
      exact .observed started exc hactive hobserved
    next hobserved =>
      split_ifs at hstep
      · cases hstep
        exact hstop hobserved
      · cases hstep
        exact .heldAgain started deadline hphase hobserved
  next wake hphase =>
    split_ifs at hstep with hwake
    cases hstep
    exact .woke wake hphase (Int.not_lt.mp hwake)
  next deadline hphase =>
    split_ifs at hstep
    cases hstep
    exact hstop (observed_eq_none (by rw [hphase]; rfl))
  · cases hstep

/-- What `CancelledError` does. -/
theorem throwCancelled_cases (hstep : s.throwCancelled cfg = some later) :
    (later.phase = .stopped ∨
        s.phase.active = true ∧ ∃ deadline, later.phase = .cancelling deadline) ∧
      (later.svc = s.svc ∨ later.svc = { s.svc with state := .stopped }) ∧
      later.clock = s.clock ∧ later.maintenance = s.maintenance ∧ later.stopping = s.stopping ∧
      later.task = s.task ∧ later.running = s.running ∧ later.interrupted = s.interrupted := by
  unfold throwCancelled at hstep
  split_ifs at hstep
  dsimp only at hstep
  split at hstep
  · cases hstep
  · split_ifs at hstep
    cases hstep
    exact ⟨.inl rfl, .inl rfl, rfl, rfl, rfl, rfl, rfl, rfl⟩
  all_goals
    cases hstep
    simp_all [Phase.active, stop]

end System

end Justup.Supervisor
