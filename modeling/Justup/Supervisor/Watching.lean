import Justup.Supervisor.Snapshot

/-!
# A degraded service is watched until it recovers

Three reasons keep a service degraded: its crashes, a failure series and its
hangs.  Three defects lose the last of them: a series that ends while the loop
waits without a deadline, a read that drops the last hang, and the end of a run
held as not cancellable that maintenance explains.  Otherwise a reason is there
as long as the service is degraded, and the loop looks at it again in time.
-/

namespace Justup.Supervisor

open Lib.Transition

/-- When the wait of a supervised run times out. -/
def Phase.deadline : Phase → Option Int
  | .waiting _ deadline => deadline
  | .reaping _ deadline | .holding _ deadline => some deadline
  | _ => none

/-- The wait of `_run_once` has no deadline. -/
def Phase.unwatched : Phase → Bool
  | .waiting _ none => true
  | _ => false

def Phase.held : Phase → Bool
  | .holding .. => true
  | _ => false

def SupAct.failure : SupAct → Bool
  | .reportFailure _ => true
  | _ => false

variable {cfg : Config}

namespace Service

variable {svc : Service} {now started : Int}

def NeedsWatch (svc : Service) : Prop :=
  0 < svc.attempt ∨ svc.needsRecoveryLog = true ∨ svc.failDegraded = true ∨ svc.hangs ≠ []

/-- Something that the stability checks clear with an announced recovery. -/
def HasReason (svc : Service) : Prop :=
  svc.needsRecoveryLog = true ∨ svc.failDegraded = true ∨ svc.hangs ≠ []

instance : Decidable svc.NeedsWatch := inferInstanceAs (Decidable (_ ∨ _))

instance : Decidable svc.HasReason := inferInstanceAs (Decidable (_ ∨ _))

/-- Crashes are marked for recovery, and a degraded service has a reason. -/
structure Reasoned (svc : Service) : Prop where
  crashed : svc.crashes ≠ [] → svc.needsRecoveryLog = true
  reason : svc.state = .degraded → svc.HasReason

theorem hangs_ne_nil_of_limit {hangs : List Int} (hlimit : 0 < cfg.policy.hangLimit)
    (hmany : ¬ hangs.length < cfg.policy.hangLimit) : hangs ≠ [] := by
  rintro rfl
  exact hmany hlimit

theorem reasoned_checkStable (hlimit : 0 < cfg.policy.hangLimit) (hreasoned : svc.Reasoned) :
    (svc.checkStable cfg now started).Reasoned := by
  unfold checkStable markStable
  split
  swap
  · exact hreasoned
  split
  · exact hreasoned
  dsimp only
  split
  next hfail => exact ⟨fun hsome => absurd rfl hsome, fun _ => .inr (.inl hfail)⟩
  split
  next hfail hneeds =>
    split
    next => exact ⟨fun hsome => absurd rfl hsome, fun hdegraded => by cases hdegraded⟩
    next hmany =>
      exact ⟨fun hsome => absurd rfl hsome, fun _ =>
        .inr (.inr (hangs_ne_nil_of_limit hlimit hmany))⟩
  next hfail hneeds =>
    split
    · exact ⟨fun hsome => absurd rfl hsome, hreasoned.reason⟩
    · exact ⟨fun hsome => absurd rfl hsome, hreasoned.reason⟩

theorem reasoned_checkSeries (hlimit : 0 < cfg.policy.hangLimit) (hreasoned : svc.Reasoned) :
    (svc.checkSeries cfg now).Reasoned := by
  unfold checkSeries clearFailureSeries
  split
  swap
  · exact hreasoned
  dsimp only
  split
  next hdegraded =>
    split
    next => exact ⟨hreasoned.crashed, fun hstate => by cases hstate⟩
    next hmany =>
      exact ⟨hreasoned.crashed, fun _ => .inr (.inr (hangs_ne_nil_of_limit hlimit hmany))⟩
  next hother =>
    refine ⟨hreasoned.crashed, fun hstate => .inl (hreasoned.crashed fun hnone => ?_)⟩
    exact hother ⟨hstate, hnone⟩

theorem reasoned_checkHangs (hreasoned : svc.Reasoned) :
    (svc.checkHangs cfg now started).Reasoned := by
  unfold checkHangs clearHangs
  split
  swap
  · exact hreasoned
  dsimp only
  split
  next => exact ⟨hreasoned.crashed, fun hstate => by cases hstate⟩
  next hother =>
    refine ⟨hreasoned.crashed, fun hstate => ?_⟩
    by_cases hfail : svc.failDegraded = true
    · exact .inr (.inl hfail)
    · refine .inl (hreasoned.crashed fun hnone => ?_)
      exact hother ⟨hstate, hnone, Bool.eq_false_iff.mpr hfail⟩

theorem reasoned_evaluate (hlimit : 0 < cfg.policy.hangLimit) (hreasoned : svc.Reasoned) :
    (svc.evaluate cfg now started).Reasoned :=
  reasoned_checkHangs (reasoned_checkSeries hlimit (reasoned_checkStable hlimit hreasoned))

/-! ## The evaluation of a long quiet run -/

/-- The check of the crashes leaves the failure series alone and, when the service is still
degraded, an empty crash history and one of the other reasons. -/
theorem checkStable_quiet (hlimit : 0 < cfg.policy.hangLimit)
    (hstable : cfg.policy.stableAfter ≤ now - started) (hstreak : svc.failStreak = 0)
    (hreasoned : svc.Reasoned) :
    (svc.checkStable cfg now started).failDegraded = svc.failDegraded ∧
      (svc.checkStable cfg now started).okSince = svc.okSince ∧
      ((svc.checkStable cfg now started).state = .degraded →
        (svc.checkStable cfg now started).crashes = [] ∧
          (svc.failDegraded = true ∨ (svc.checkStable cfg now started).hangs ≠ [])) := by
  have hquiet : svc.needsRecoveryLog = false → svc.state = .degraded →
      svc.crashes = [] ∧ (svc.failDegraded = true ∨ svc.hangs ≠ []) := by
    intro hneeds hstate
    refine ⟨?_, ?_⟩
    · by_contra hsome
      simp [hreasoned.crashed hsome] at hneeds
    · obtain hmarked | hother := hreasoned.reason hstate
      · simp [hmarked] at hneeds
      · exact hother
  unfold checkStable markStable
  split
  swap
  next hdues =>
    refine ⟨rfl, rfl, hquiet ?_⟩
    simp only [duesStable, hstable, decide_true, Bool.and_true, Bool.or_eq_true, not_or] at hdues
    exact Bool.eq_false_iff.mpr hdues.1.2
  split
  next hfailing => omega
  dsimp only
  split
  next hfail => exact ⟨rfl, rfl, fun _ => ⟨rfl, .inl hfail⟩⟩
  split
  next hfail hneeds =>
    split
    next => exact ⟨rfl, rfl, fun hstate => by cases hstate⟩
    next hmany => exact ⟨rfl, rfl, fun _ => ⟨rfl, .inr (hangs_ne_nil_of_limit hlimit hmany)⟩⟩
  next hfail hneeds =>
    have hrest := hquiet (Bool.eq_false_iff.mpr hneeds)
    split
    · exact ⟨rfl, rfl, fun hstate => ⟨rfl, (hrest hstate).2⟩⟩
    · exact ⟨rfl, rfl, fun hstate => ⟨rfl, (hrest hstate).2⟩⟩

/-- The check of the series leaves only the hangs as a reason. -/
theorem checkSeries_quiet (hlimit : 0 < cfg.policy.hangLimit)
    (hover : svc.failDegraded = true → ∃ since, svc.okSince = some since ∧
      cfg.policy.stableAfter ≤ now - since)
    (hreason : svc.state = .degraded →
      svc.crashes = [] ∧ (svc.failDegraded = true ∨ svc.hangs ≠ []))
    (hstate : (svc.checkSeries cfg now).state = .degraded) :
    (svc.checkSeries cfg now).crashes = [] ∧ (svc.checkSeries cfg now).failDegraded = false ∧
      (svc.checkSeries cfg now).hangs ≠ [] := by
  unfold checkSeries clearFailureSeries at hstate ⊢
  split at hstate
  next hseries =>
    rw [if_pos hseries]
    dsimp only at hstate ⊢
    split at hstate
    next hdegraded =>
      rw [if_pos hdegraded]
      split at hstate
      · cases hstate
      next hmany =>
        rw [if_neg hmany]
        exact ⟨hdegraded.2, rfl, hangs_ne_nil_of_limit hlimit hmany⟩
    next hother => exact absurd ⟨hstate, (hreason hstate).1⟩ hother
  next hseries =>
    rw [if_neg hseries]
    obtain ⟨hcrashes, hrest⟩ := hreason hstate
    have hfail : svc.failDegraded = false := by
      by_contra hnot
      have hfail : svc.failDegraded = true := by simpa using hnot
      obtain ⟨since, hsince, hlong⟩ := hover hfail
      refine hseries ?_
      simp [seriesOver, hsince, hlong, hfail]
    refine ⟨hcrashes, hfail, hrest.resolve_left (by simp [hfail])⟩

/-- After a long quiet run the service is not degraded. -/
theorem evaluate_recovers (hlimit : 0 < cfg.policy.hangLimit)
    (horder : cfg.policy.stableAfter ≤ cfg.policy.hangRecoveryAfter) (hreasoned : svc.Reasoned)
    (hlong : cfg.policy.hangRecoveryAfter ≤ now - started) (hstreak : svc.failStreak = 0)
    (hover : svc.failDegraded = true → ∃ since, svc.okSince = some since ∧
      cfg.policy.stableAfter ≤ now - since) :
    (svc.evaluate cfg now started).state ≠ .degraded := by
  obtain ⟨hfail, hok, hreason⟩ :=
    checkStable_quiet hlimit (horder.trans hlong) hstreak hreasoned
  have hseries := @checkSeries_quiet cfg (svc.checkStable cfg now started) now hlimit
    (by rw [hfail, hok]; exact hover) (by rw [hfail]; exact hreason)
  unfold evaluate checkHangs clearHangs
  intro hstate
  split at hstate
  next hhangs =>
    dsimp only at hstate
    split at hstate
    · cases hstate
    next hother =>
      obtain ⟨hcrashes, hfail, -⟩ := hseries hstate
      exact hother ⟨hstate, hcrashes, hfail⟩
  next hhangs => exact hhangs ⟨(hseries hstate).2.2, hlong⟩

end Service

/-! ## Runs of the supervising task -/

namespace System

variable {s later : System} {draw : Int}

/-- The state in which the service goes on; a held run ends in a crash or in a pause. -/
def resting (s : System) : Option ServiceState :=
  match s.phase with
  | .pausing previous _ => some previous
  | .holding .. | .cancelling _ | .stopped => none
  | _ => some s.svc.state

/-- A failure completes a series while nothing watches for its end. -/
def LosesSeries (cfg : Config) (s : System) (act : SupAct) : Prop :=
  act.failure = true ∧ s.phase.unwatched = true ∧ s.stopping = false ∧ s.maintenance = false ∧
    s.svc.SeriesDue cfg s.clock

/-- Maintenance explains the end of a held run, which leaves no reason. -/
def LosesHang (s : System) (act : SupAct) : Prop :=
  act.resumes = true ∧ s.phase.held = true ∧ s.observed ≠ none ∧ s.stopping = false ∧
    s.maintenance = true ∧ ¬ s.svc.HasReason

instance (cfg : Config) (s : System) (act : SupAct) : Decidable (s.LosesSeries cfg act) :=
  inferInstanceAs (Decidable (_ ∧ _))

instance (s : System) (act : SupAct) : Decidable (s.LosesHang act) :=
  inferInstanceAs (Decidable (_ ∧ _))

/-- The step loses no reason for which the service is to be watched. -/
def KeepsReason (cfg : Config) (s : System) (act : SupAct) : Prop :=
  s.KeepsHang cfg act ∧ ¬ s.LosesSeries cfg act ∧ ¬ s.LosesHang act

instance (cfg : Config) (s : System) (act : SupAct) : Decidable (s.KeepsReason cfg act) :=
  inferInstanceAs (Decidable (_ ∧ _))

structure Watched (s : System) : Prop where
  crashed : s.svc.crashes ≠ [] → s.svc.needsRecoveryLog = true
  reason : s.resting = some .degraded → s.svc.HasReason
  unwatched : s.phase.unwatched = true → ¬ s.svc.NeedsWatch

theorem watched_initial (clock : Int) : (initial clock).Watched where
  crashed := by simp [initial]
  reason := by simp [initial, resting]
  unwatched := by simp [initial, Phase.unwatched]

theorem watched_await {started : Int} (hreasoned : s.svc.Reasoned) :
    (s.await cfg started).Watched where
  crashed := hreasoned.crashed
  reason := by
    intro hresting
    exact hreasoned.reason (Option.some.inj hresting)
  unwatched := by
    intro hunwatched hneeds
    dsimp only [await] at hunwatched hneeds
    split at hunwatched
    · cases hunwatched
    next hwatching =>
      refine hwatching ?_
      obtain hattempt | hmark | hfail | hhangs := hneeds
      · simp [Service.watching, hattempt]
      · simp [Service.watching, hmark]
      · simp [Service.watching, hfail]
      · simp [Service.watching, hhangs]

/-- The state and the reasons of the service, from the phase in which it is looked at. -/
theorem Watched.reasoned (hwatched : s.Watched) (hresting : s.resting = some s.svc.state) :
    s.svc.Reasoned :=
  ⟨hwatched.crashed, fun hstate => hwatched.reason (by rw [hresting, hstate])⟩

theorem watched_start {state : ServiceState} (hwatched : s.Watched)
    (hresting : s.resting = some state) :
    (System.start cfg { s with svc := { s.svc with state := state } }).Watched := by
  refine watched_await ⟨hwatched.crashed, fun hstate => ?_⟩
  refine hwatched.reason (hresting.trans ?_)
  dsimp only at hstate
  split at hstate
  next hdegraded => rw [hdegraded]
  next => cases hstate

/-- A crash leaves its mark. -/
theorem needsRecoveryLog_crash (svc : Service) (now ranFor : Int) (exc : RunEnd) :
    ((svc.recordCrash cfg now ranFor exc).nextDelay cfg now draw).2.needsRecoveryLog = true := by
  unfold Service.nextDelay Service.degrade
  dsimp only
  split
  · split <;> rfl
  · rfl

/-- Nothing is asked of the reasons where no evaluation follows. -/
theorem watched_of_gone (hcrashed : s.svc.crashes ≠ [] → s.svc.needsRecoveryLog = true)
    (hresting : s.resting = none) (hphase : s.phase.unwatched = false) : s.Watched where
  crashed := hcrashed
  reason := fun hsome => by simp [hresting] at hsome
  unwatched := fun hoff => by simp [hphase] at hoff

theorem watched_observe {started : Int} {exc : RunEnd} (hwatched : s.Watched)
    (hreason : s.stopping = false → s.maintenance = true ∨ exc = .maintenanceActive →
      s.svc.state = .degraded → s.svc.HasReason) :
    (s.observe cfg started draw exc).Watched := by
  unfold observe
  split
  next => exact watched_of_gone hwatched.crashed rfl rfl
  next hstopping =>
    split
    next hexcused =>
      refine ⟨hwatched.crashed, fun hresting => ?_, fun hoff => by cases hoff⟩
      exact hreason (Bool.eq_false_iff.mpr hstopping) hexcused.symm (Option.some.inj hresting)
    next =>
      have hmark := @needsRecoveryLog_crash cfg draw s.svc s.clock
        (s.clock - started) exc
      exact ⟨fun _ => hmark, fun _ => .inl hmark, fun hoff => by cases hoff⟩

theorem eq_hung_of_held {exc : RunEnd} (hheld : s.phase.held = true)
    (hobserved : s.observed = some exc) : exc = .hung := by
  unfold observed at hobserved
  split at hobserved <;> simp_all [Phase.held]

theorem degrade_crashed {svc : Service} {reason : AlertReason}
    (hcrashed : svc.crashes ≠ [] → svc.needsRecoveryLog = true) :
    (svc.degrade cfg reason).crashes ≠ [] → (svc.degrade cfg reason).needsRecoveryLog = true := by
  unfold Service.degrade
  split <;> exact hcrashed

theorem watched_resume (hlimit : 0 < cfg.policy.hangLimit) (hwatched : s.Watched)
    (hkeeps : s.KeepsReason cfg (.resume draw)) (hstep : s.resume cfg draw = some later) :
    later.Watched := by
  cases resume_cases hstep with
  | stopped degraded hobserved =>
      refine watched_of_gone ?_ rfl rfl
      cases degraded
      · exact hwatched.crashed
      · exact degrade_crashed hwatched.crashed
  | paused hphase hstopping =>
      refine ⟨hwatched.crashed, fun hresting => hwatched.reason ?_, fun hoff => by cases hoff⟩
      simpa [resting, hphase] using hresting
  | pausedAgain previous wake hphase =>
      refine ⟨hwatched.crashed, fun hresting => hwatched.reason ?_, fun hoff => by cases hoff⟩
      simpa [resting, hphase] using hresting
  | started state hphase hstopping hmaintenance =>
      refine watched_start hwatched ?_
      obtain ⟨hphase, rfl⟩ | ⟨wake, hphase⟩ := hphase <;> simp [resting, hphase]
  | observed started exc hphase hobserved =>
      refine watched_observe hwatched fun hstopping hexcused hstate => ?_
      by_cases hheld : s.phase.held = true
      · have hhung := eq_hung_of_held hheld hobserved
        have hmaintenance := hexcused.resolve_right (by simp [hhung])
        by_contra hnone
        exact hkeeps.2.2 ⟨rfl, hheld, by simp [hobserved], hstopping, hmaintenance, hnone⟩
      · refine hwatched.reason ?_
        rw [← hstate]
        cases hwhere : s.phase <;> simp_all [resting, Phase.held, Phase.active]
  | turned started deadline hphase hobserved =>
      have hreasoned := hwatched.reasoned (by simp [resting, hphase])
      have hevaluated :=
        @Service.reasoned_evaluate cfg s.svc s.clock started hlimit hreasoned
      unfold turn
      dsimp only
      split
      · refine ⟨hevaluated.crashed, fun hresting => ?_, fun hoff => by cases hoff⟩
        exact hevaluated.reason (Option.some.inj hresting)
      · exact watched_await hevaluated
  | held started deadline hphase hobserved =>
      exact watched_of_gone (degrade_crashed hwatched.crashed) rfl rfl
  | heldAgain started deadline hphase hobserved =>
      exact watched_of_gone hwatched.crashed rfl rfl
  | woke wake hphase hwake =>
      refine ⟨hwatched.crashed, fun hresting => hwatched.reason ?_, fun hoff => by cases hoff⟩
      simpa [resting, hphase] using hresting

/-- A step of another task that changes neither the state nor a reason. -/
theorem Watched.same (hwatched : s.Watched) (hphase : later.phase = s.phase)
    (hstate : later.svc.state = s.svc.state) (hcrashes : later.svc.crashes = s.svc.crashes)
    (hneeds : later.svc.needsRecoveryLog = s.svc.needsRecoveryLog)
    (hattempt : later.svc.attempt = s.svc.attempt)
    (hfail : later.svc.failDegraded = s.svc.failDegraded)
    (hhangs : later.svc.hangs = [] ↔ s.svc.hangs = []) : later.Watched where
  crashed := by rw [hcrashes, hneeds]; exact hwatched.crashed
  reason := by
    have hresting : later.resting = s.resting := by unfold resting; rw [hphase, hstate]
    rw [hresting, Service.HasReason, hneeds, hfail, ne_eq, hhangs]
    exact hwatched.reason
  unwatched := by
    rw [hphase, Service.NeedsWatch, hneeds, hfail, hattempt, ne_eq, hhangs]
    exact hwatched.unwatched

theorem watched_reportFailure {excType : String} (hwatched : s.Watched)
    (hseries : s.phase.unwatched = true → ¬ s.svc.SeriesDue cfg s.clock) :
    Watched { s with svc := s.svc.reportFailure cfg s.clock excType } := by
  rw [Service.reportFailure_eq]
  split
  next hdue =>
    have hwatching : s.phase.unwatched = false := by
      by_contra hoff
      exact hseries (by simpa using hoff) hdue
    refine ⟨degrade_crashed hwatched.crashed, fun _ => .inr (.inl ?_), fun hoff => ?_⟩
    · unfold Service.degrade
      split <;> rfl
    · simp [hwatching] at hoff
  next => exact hwatched.same rfl rfl rfl rfl rfl rfl Iff.rfl

theorem watched_step {act : SupAct} (hlimit : 0 < cfg.policy.hangLimit) (hwatched : s.Watched)
    (hkeeps : s.KeepsReason cfg act) (hstep : s.step cfg act = some later) : later.Watched := by
  cases act with
  | resume draw => exact watched_resume hlimit hwatched hkeeps hstep
  | throwCancelled =>
      obtain ⟨hphase, hsvc, -⟩ := throwCancelled_cases hstep
      have hcrashed : later.svc.crashes ≠ [] → later.svc.needsRecoveryLog = true := by
        obtain hsvc | hsvc := hsvc <;> rw [hsvc] <;> exact hwatched.crashed
      obtain hphase | ⟨-, deadline, hphase⟩ := hphase
      · exact watched_of_gone hcrashed (by simp [resting, hphase]) (by rw [hphase]; rfl)
      · exact watched_of_gone hcrashed (by simp [resting, hphase]) (by rw [hphase]; rfl)
  | endRun exc =>
      simp only [step] at hstep
      split at hstep
      · cases hstep
        exact hwatched.same rfl rfl rfl rfl rfl rfl Iff.rfl
      · cases hstep
  | reportFailure excType =>
      simp only [step] at hstep
      split at hstep
      next =>
        cases hstep
        exact hwatched
      next hquiet =>
        cases hstep
        simp only [Bool.or_eq_true, not_or, Bool.not_eq_true] at hquiet
        exact watched_reportFailure hwatched fun hoff hdue =>
          hkeeps.2.1 ⟨rfl, hoff, hquiet.1, hquiet.2, hdue⟩
  | snapshot =>
      cases hstep
      refine hwatched.same rfl rfl rfl rfl rfl rfl ⟨fun hnone => ?_, fun hnone => ?_⟩
      · by_contra hsome
        exact hkeeps.1 rfl hsome hnone
      · simp [Service.pruneHangs, Service.withinWindow, hnone]
  | _ =>
      cases hstep
      exact hwatched.same rfl rfl rfl rfl rfl rfl Iff.rfl

/-! ## The promise -/

/-- What is promised of a state that a run reaches. -/
structure Recovers (cfg : Config) (clock : Int) (acts : List SupAct) (s : System) : Prop where
  /-- The supervised run is looked at again while something is to be cleared. -/
  watched : s.phase.active = true → s.svc.NeedsWatch → s.phase.deadline.isSome = true
  /-- An evaluation after a long quiet run leaves the service not degraded. -/
  recovers : ∀ draw later started, s.evaluated = some started → s.resume cfg draw = some later →
    cfg.policy.hangRecoveryAfter ≤ s.clock - started → s.svc.failStreak = 0 →
    (s.svc.failDegraded = true → ∃ since, s.svc.okSince = some since ∧
      cfg.policy.stableAfter ≤ s.clock - since) → later.svc.state ≠ .degraded
  /-- The reads of the run change nothing but which hangs outside the window are kept. -/
  unseen : ∃ full, run (step cfg) (initial clock)
    (acts.filter fun act => decide (act ≠ .snapshot)) = some full ∧ s.Trimmed cfg full

theorem Watched.deadline (hwatched : s.Watched) (hactive : s.phase.active = true)
    (hneeds : s.svc.NeedsWatch) : s.phase.deadline.isSome = true := by
  have hoff : s.phase.unwatched = false := by
    by_contra hoff
    exact hwatched.unwatched (by simpa using hoff) hneeds
  cases hphase : s.phase with
  | waiting started deadline =>
      cases deadline with
      | none => simp [hphase, Phase.unwatched] at hoff
      | some deadline => rfl
  | reaping | holding => rfl
  | _ => simp [hphase, Phase.active] at hactive

theorem phase_of_evaluated {started : Int} (hevaluated : s.evaluated = some started) :
    s.observed = none ∧ ∃ deadline, s.phase = .waiting started deadline := by
  unfold evaluated at hevaluated
  split at hevaluated
  next started' deadline hphase =>
    split at hevaluated
    next hobserved =>
      cases hevaluated
      exact ⟨hobserved, deadline, hphase⟩
    · cases hevaluated
  · cases hevaluated

/-- The next resumption is the evaluation. -/
theorem resume_evaluated {started : Int} (hevaluated : s.evaluated = some started)
    (hstep : s.resume cfg draw = some later) :
    later.svc = s.svc.evaluate cfg s.clock started := by
  obtain ⟨hobserved, deadline, hphase⟩ := phase_of_evaluated hevaluated
  unfold resume at hstep
  rw [hphase] at hstep
  dsimp only at hstep
  rw [hobserved] at hstep
  dsimp only at hstep
  split at hstep
  · cases hstep
    unfold turn
    dsimp only
    split <;> rfl
  · cases hstep

/-- As long as no step loses a reason for which a service is to be watched, a degraded
service is watched and recovers, and reading its health changes nothing. -/
theorem degraded_service_recovers {clock : Int} {acts : List SupAct}
    (hlimit : 0 < cfg.policy.hangLimit)
    (horder : cfg.policy.stableAfter ≤ cfg.policy.hangRecoveryAfter)
    (hok : RunOk (step cfg) (KeepsReason cfg) (initial clock) acts)
    (hrun : run (step cfg) (initial clock) acts = some s) : Recovers cfg clock acts s := by
  have hwatched : s.Watched :=
    run_invariant_of (watched_step hlimit) hok (watched_initial clock) hrun
  have hreads := hok.mono fun hkeeps : KeepsReason cfg _ _ => hkeeps.1
  refine ⟨hwatched.deadline, ?_, snapshot_unseen hreads hrun⟩
  intro draw later started hevaluated hstep hlong hstreak hover
  obtain ⟨-, deadline, hphase⟩ := phase_of_evaluated hevaluated
  rw [resume_evaluated hevaluated hstep]
  exact Service.evaluate_recovers hlimit horder (hwatched.reasoned (by simp [resting, hphase]))
    hlong hstreak hover

/-- A service with a heartbeat is degraded by a failure series and recovers. -/
def watchedSeries : List SupAct :=
  [.resume 0, .reportFailure "OSError", .tick 130000000, .reportFailure "OSError",
    .reportFailure "OSError", .reportFailure "OSError", .reportFailure "OSError", .snapshot,
    .reportSuccess, .heartbeat, .tick 60000000, .resume 0]

theorem degraded_service_recovers_watchedSeries :
    ∃ s, run (step { heartbeatTimeout := some 90000000 }) (initial 0) watchedSeries = some s ∧
      s.svc.alerts.map Alert.kind = [.degraded, .recovered] ∧
      Recovers { heartbeatTimeout := some 90000000 } 0 watchedSeries s := by
  have hok : RunOk (step { heartbeatTimeout := some 90000000 })
      (KeepsReason { heartbeatTimeout := some 90000000 }) (initial 0) watchedSeries := by
    decide +kernel
  have hany : (run (step { heartbeatTimeout := some 90000000 }) (initial 0) watchedSeries).any
      (fun s => decide (s.svc.alerts.map Alert.kind = [.degraded, .recovered])) = true := by
    decide +kernel
  obtain ⟨s, hrun, hkinds⟩ := (Option.any_eq_true ..).mp hany
  exact ⟨s, hrun, of_decide_eq_true hkinds,
    degraded_service_recovers (by decide) (by decide) hok hrun⟩

/-- Without a heartbeat nobody looks at a settled service, and the series ends unseen. -/
def unwatchedSeries : List SupAct :=
  [.resume 0, .tick 60000000, .resume 0, .reportFailure "OSError", .tick 130000000,
    .reportFailure "OSError", .reportFailure "OSError", .reportFailure "OSError",
    .reportFailure "OSError"]

theorem failure_series_unwatched :
    ∃ s, run (step {}) (initial 0) unwatchedSeries = some s ∧
      ¬ Recovers {} 0 unwatchedSeries s := by
  have hany : (run (step {}) (initial 0) unwatchedSeries).any (fun s => decide
      (s.phase.active = true ∧ s.svc.NeedsWatch ∧ s.phase.deadline.isSome = false)) = true := by
    decide +kernel
  obtain ⟨s, hrun, hend⟩ := (Option.any_eq_true ..).mp hany
  obtain ⟨hactive, hneeds, hdeadline⟩ := of_decide_eq_true hend
  refine ⟨s, hrun, fun hrecovers => ?_⟩
  simp [hrecovers.watched hactive hneeds] at hdeadline

end System

end Justup.Supervisor
