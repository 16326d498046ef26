import Justup.Supervisor.Loop

/-!
# Never two instances, never a restart that must not happen

A run is only started from the head of the supervising loop or at the end of a
maintenance pause, and the supervising task only gets there once it has seen the
end of the run before.
-/

namespace Justup.Supervisor

open Lib.Transition

variable {cfg : Config}

/-! ## What the routines leave alone -/

namespace Service

variable {svc : Service}

/-- The counters of runs and crashes are as before. -/
def SameCounters (svc later : Service) : Prop :=
  later.starts = svc.starts ∧ later.crashesTotal = svc.crashesTotal

theorem SameCounters.trans {middle later : Service} (hfirst : svc.SameCounters middle)
    (hsecond : middle.SameCounters later) : svc.SameCounters later :=
  ⟨hsecond.1.trans hfirst.1, hsecond.2.trans hfirst.2⟩

theorem sameCounters_degrade (svc : Service) (reason : AlertReason) :
    svc.SameCounters (svc.degrade cfg reason) := by
  unfold degrade
  split <;> exact ⟨rfl, rfl⟩

theorem sameCounters_checkStable (svc : Service) (now started : Int) :
    svc.SameCounters (svc.checkStable cfg now started) := by
  unfold checkStable markStable
  split
  swap
  · exact ⟨rfl, rfl⟩
  split
  · exact ⟨rfl, rfl⟩
  dsimp only
  split
  · exact ⟨rfl, rfl⟩
  split
  · split <;> exact ⟨rfl, rfl⟩
  · split <;> exact ⟨rfl, rfl⟩

theorem sameCounters_checkSeries (svc : Service) (now : Int) :
    svc.SameCounters (svc.checkSeries cfg now) := by
  unfold checkSeries clearFailureSeries
  split
  swap
  · exact ⟨rfl, rfl⟩
  dsimp only
  split
  · split <;> exact ⟨rfl, rfl⟩
  · exact ⟨rfl, rfl⟩

theorem sameCounters_checkHangs (svc : Service) (now started : Int) :
    svc.SameCounters (svc.checkHangs cfg now started) := by
  unfold checkHangs clearHangs
  split
  swap
  · exact ⟨rfl, rfl⟩
  dsimp only
  split <;> exact ⟨rfl, rfl⟩

theorem sameCounters_evaluate (svc : Service) (now started : Int) :
    svc.SameCounters (svc.evaluate cfg now started) :=
  (sameCounters_checkStable svc now started).trans
    ((sameCounters_checkSeries _ now).trans (sameCounters_checkHangs _ now started))

theorem sameCounters_reportFailure (svc : Service) (now : Int) (excType : String) :
    svc.SameCounters (svc.reportFailure cfg now excType) := by
  rw [reportFailure_eq]
  split
  · exact sameCounters_degrade { svc.failed now excType with failDegraded := true } _
  · exact ⟨rfl, rfl⟩

/-- A crash is counted once, and the delay changes no counter. -/
theorem counters_crash (svc : Service) (now ranFor draw : Int) (exc : RunEnd) :
    ((svc.recordCrash cfg now ranFor exc).nextDelay cfg now draw).2.starts = svc.starts ∧
      ((svc.recordCrash cfg now ranFor exc).nextDelay cfg now draw).2.crashesTotal =
        svc.crashesTotal + 1 := by
  have hcrash : (svc.recordCrash cfg now ranFor exc).starts = svc.starts ∧
      (svc.recordCrash cfg now ranFor exc).crashesTotal = svc.crashesTotal + 1 := by
    unfold recordCrash
    dsimp only
    split <;> exact ⟨rfl, rfl⟩
  have hdelay : (svc.recordCrash cfg now ranFor exc).SameCounters
      ((svc.recordCrash cfg now ranFor exc).nextDelay cfg now draw).2 := by
    unfold nextDelay
    dsimp only
    split
    · exact sameCounters_degrade _ _
    · exact ⟨rfl, rfl⟩
  exact ⟨hdelay.1.trans hcrash.1, hdelay.2.trans hcrash.2⟩

/-- The restart delay is the long one or a backoff of the attempt. -/
theorem nextDelay_delay (svc : Service) (now draw : Int) :
    (svc.nextDelay cfg now draw).1 = cfg.policy.degradedRetry ∨
      ∃ jitter, (svc.nextDelay cfg now draw).1 =
        backoff cfg.policy (svc.nextDelay cfg now draw).2.attempt jitter := by
  unfold nextDelay
  dsimp only
  split
  · exact .inl rfl
  · exact .inr ⟨draw, rfl⟩

end Service

/-! ## Runs of the supervising task -/

/-- The supervising task was stopped, or is about to be. -/
def Phase.leaving : Phase → Bool
  | .cancelling _ | .stopped => true
  | _ => false

theorem Phase.not_active_of_leaving {phase : Phase} (hleaving : phase.leaving = true) :
    phase.active = false := by
  cases phase <;> first | rfl | cases hleaving

namespace System

variable {s later : System} {draw : Int}

/-- One run at a time, and every run is under supervision, counted as a crash or known
to have been interrupted by maintenance. -/
structure Single (s : System) : Prop where
  running : s.running = if s.task = some none then 1 else 0
  ended : s.phase.active = false → s.phase.leaving = false → s.task ≠ some none
  counted : s.phase.leaving = false →
    s.svc.starts = s.svc.crashesTotal + s.interrupted + (if s.phase.active then 1 else 0)

theorem single_initial (clock : Int) : (initial clock).Single where
  running := rfl
  ended := fun _ _ => by simp [initial]
  counted := fun _ => rfl

/-- Once the supervising task leaves, only the number of running tasks matters. -/
theorem Single.leave (hsingle : s.Single) (hphase : later.phase.leaving = true)
    (htask : later.task = s.task) (hrunning : later.running = s.running) : later.Single where
  running := by rw [hrunning, htask, hsingle.running]
  ended := fun _ hstay => by simp [hphase] at hstay
  counted := fun hstay => by simp [hphase] at hstay

/-- A step that keeps the supervising task where it is, or among the phases of its kind. -/
theorem Single.stay (hsingle : s.Single) (hactive : later.phase.active = s.phase.active)
    (hleaving : later.phase.leaving = s.phase.leaving) (htask : later.task = s.task)
    (hrunning : later.running = s.running) (hinterrupted : later.interrupted = s.interrupted)
    (hcounters : s.svc.SameCounters later.svc) : later.Single where
  running := by rw [hrunning, htask, hsingle.running]
  ended := by rw [hactive, hleaving, htask]; exact hsingle.ended
  counted := by
    rw [hactive, hleaving, hinterrupted, hcounters.1, hcounters.2]
    exact hsingle.counted

/-- The run ends. -/
theorem Single.endRun (hsingle : s.Single) (htask : s.task = some none) (exc : RunEnd) :
    Single { s with task := some (some exc), running := s.running - 1 } where
  running := by simp [hsingle.running, htask]
  ended := fun _ _ => by simp
  counted := hsingle.counted

theorem ended_of_observed {exc : RunEnd} (hobserved : s.observed = some exc) :
    s.task ≠ some none := by
  intro htask
  unfold observed at hobserved
  rw [htask] at hobserved
  split at hobserved <;> simp_all

/-- What the supervising task does after it saw the end of a run. -/
theorem observe_cases (started draw : Int) (exc : RunEnd) (s : System) :
    s.stopping = true ∧ s.observe cfg started draw exc = s.stop ∨
      s.stopping = false ∧ (exc = .maintenanceActive ∨ s.maintenance = true) ∧
        s.observe cfg started draw exc =
          { s with phase := .top, interrupted := s.interrupted + 1 } ∨
      s.stopping = false ∧ exc ≠ .maintenanceActive ∧ s.maintenance = false ∧
        s.observe cfg started draw exc = { s with
          svc := ((s.svc.recordCrash cfg s.clock (s.clock - started) exc).nextDelay cfg
            s.clock draw).2
          phase := .sleeping (s.clock + ((s.svc.recordCrash cfg s.clock (s.clock - started)
            exc).nextDelay cfg s.clock draw).1) } := by
  unfold observe
  split_ifs with hstopping hmaintenance
  · exact .inl ⟨hstopping, rfl⟩
  · exact .inr (.inl ⟨Bool.eq_false_iff.mpr hstopping, hmaintenance, rfl⟩)
  · rw [not_or] at hmaintenance
    exact .inr (.inr ⟨Bool.eq_false_iff.mpr hstopping, hmaintenance.1,
      Bool.eq_false_iff.mpr hmaintenance.2, rfl⟩)

theorem single_observe {started : Int} {exc : RunEnd} (hsingle : s.Single)
    (hactive : s.phase.active = true) (hended : s.task ≠ some none) :
    (s.observe cfg started draw exc).Single := by
  have hstay : s.phase.leaving = false := by
    cases hphase : s.phase <;> first | rfl | simp [hphase, Phase.active] at hactive
  have hcounted := hsingle.counted hstay
  rw [if_pos hactive] at hcounted
  obtain ⟨-, heq⟩ | ⟨-, -, heq⟩ | ⟨-, -, -, heq⟩ := @observe_cases cfg started draw exc s
  · rw [heq]
    exact hsingle.leave rfl rfl rfl
  · rw [heq]
    exact ⟨hsingle.running, fun _ _ => hended, fun _ => by simpa [Phase.active] using by omega⟩
  · rw [heq]
    obtain ⟨hstarts, hcrashes⟩ :=
      @Service.counters_crash cfg s.svc s.clock (s.clock - started) draw exc
    exact ⟨hsingle.running, fun _ _ => hended, fun _ => by
      simp only [hstarts, hcrashes, Phase.active, Bool.false_eq_true, if_false]
      omega⟩

theorem single_start {state : ServiceState} (hsingle : s.Single)
    (hactive : s.phase.active = false) (hstay : s.phase.leaving = false) :
    (System.start cfg { s with svc := { s.svc with state := state } }).Single := by
  have hidle := hsingle.ended hactive hstay
  have hcounted := hsingle.counted hstay
  have hrunning := hsingle.running
  rw [if_neg hidle] at hrunning
  rw [hactive] at hcounted
  refine ⟨?_, fun hoff => ?_, fun _ => ?_⟩
  · simp [start, await, hrunning]
  · cases hoff
  · simp only [start, await, Phase.active, if_true]
    simpa using hcounted

theorem single_resume (hsingle : s.Single) (hstep : s.resume cfg draw = some later) :
    later.Single := by
  cases resume_cases hstep with
  | stopped degraded hobserved => exact hsingle.leave rfl rfl rfl
  | paused hphase hstopping =>
      exact hsingle.stay (by rw [hphase]; rfl) (by rw [hphase]; rfl) rfl rfl rfl ⟨rfl, rfl⟩
  | pausedAgain previous wake hphase =>
      exact hsingle.stay (by rw [hphase]; rfl) (by rw [hphase]; rfl) rfl rfl rfl ⟨rfl, rfl⟩
  | started state hphase hstopping hmaintenance =>
      obtain ⟨hphase, -⟩ | ⟨wake, hphase⟩ := hphase
      · exact single_start hsingle (by rw [hphase]; rfl) (by rw [hphase]; rfl)
      · exact single_start hsingle (by rw [hphase]; rfl) (by rw [hphase]; rfl)
  | observed started exc hphase hobserved =>
      exact single_observe hsingle hphase (ended_of_observed hobserved)
  | turned started deadline hphase hobserved =>
      have hcounters := @Service.sameCounters_evaluate cfg s.svc s.clock started
      unfold turn
      dsimp only
      split
      · exact hsingle.stay (by rw [hphase]; rfl) (by rw [hphase]; rfl) rfl rfl rfl hcounters
      · exact hsingle.stay (by rw [hphase]; rfl) (by rw [hphase]; rfl) rfl rfl rfl hcounters
  | held started deadline hphase hobserved =>
      exact hsingle.stay (by rw [hphase]; rfl) (by rw [hphase]; rfl) rfl rfl rfl
        (Service.sameCounters_degrade s.svc _)
  | heldAgain started deadline hphase hobserved =>
      exact hsingle.stay (by rw [hphase]; rfl) (by rw [hphase]; rfl) rfl rfl rfl ⟨rfl, rfl⟩
  | woke wake hphase hwake =>
      exact hsingle.stay (by rw [hphase]; rfl) (by rw [hphase]; rfl) rfl rfl rfl ⟨rfl, rfl⟩

theorem single_throwCancelled (hsingle : s.Single) (hstep : s.throwCancelled cfg = some later) :
    later.Single := by
  obtain ⟨hphase, -, -, -, -, htask, hrunning, -⟩ := throwCancelled_cases hstep
  refine hsingle.leave ?_ htask hrunning
  obtain hphase | ⟨-, deadline, hphase⟩ := hphase <;> rw [hphase] <;> rfl

theorem single_step {act : SupAct} (hsingle : s.Single) (hstep : s.step cfg act = some later) :
    later.Single := by
  cases act with
  | resume draw => exact single_resume hsingle hstep
  | throwCancelled => exact single_throwCancelled hsingle hstep
  | endRun exc =>
      simp only [step] at hstep
      split at hstep
      next htask =>
        cases hstep
        exact hsingle.endRun htask exc
      · cases hstep
  | reportFailure excType =>
      simp only [step] at hstep
      split at hstep
      · cases hstep
        exact hsingle
      · cases hstep
        exact hsingle.stay rfl rfl rfl rfl rfl
          (Service.sameCounters_reportFailure s.svc s.clock excType)
  | _ =>
      cases hstep
      exact hsingle.stay rfl rfl rfl rfl rfl ⟨rfl, rfl⟩

theorem single_run {clock : Int} {acts : List SupAct}
    (hrun : run (step cfg) (initial clock) acts = some s) : s.Single :=
  run_invariant single_step (single_initial clock) hrun

/-! ## One step -/

/-- The end of a run that is a crash: neither shutdown nor maintenance explains it. -/
def Crashed (s : System) (act : SupAct) : Prop :=
  ∃ draw exc, act = .resume draw ∧ s.observed = some exc ∧ s.stopping = false ∧
    exc ≠ .maintenanceActive ∧ s.maintenance = false

/-- What a step may do to the runs of the service. -/
structure SafeStep (cfg : Config) (s : System) (act : SupAct) (later : System) : Prop where
  /-- A run is only started alone, outside shutdown and maintenance. -/
  start : later.svc.starts = s.svc.starts ∧ later.running ≤ s.running ∨
    later.svc.starts = s.svc.starts + 1 ∧ s.running = 0 ∧ later.running = 1 ∧
      s.stopping = false ∧ s.maintenance = false ∧ s.phase.leaving = false
  shutdown : s.stopping = true → later.stopping = true
  leaving : s.phase.leaving = true → later.phase.leaving = true
  /-- Maintenance explains the end of a run. -/
  interrupted : ∀ draw exc, act = .resume draw → s.observed = some exc →
    exc = .maintenanceActive ∨ s.maintenance = true →
      later.svc.crashesTotal = s.svc.crashesTotal ∧ later.svc.attempt = s.svc.attempt ∧
        later.svc.crashes = s.svc.crashes ∧ later.svc.hangs = s.svc.hangs
  crashed : Crashed s act →
    later.svc.crashesTotal = s.svc.crashesTotal + 1 ∧
      ∃ delay, later.phase = .sleeping (s.clock + delay) ∧ (delay = cfg.policy.degradedRetry ∨
        ∃ draw, delay = Service.backoff cfg.policy later.svc.attempt draw)
  uncounted : ¬ Crashed s act → later.svc.crashesTotal = s.svc.crashesTotal
  /-- The restart delay is waited out. -/
  delayed : ∀ wake, s.phase = .sleeping wake →
    later.phase = .sleeping wake ∨ later.phase.leaving = true ∨
      later.phase = .top ∧ wake ≤ s.clock

/-- Other tasks start no run and count no crash. -/
theorem safeStep_other {act : SupAct} (hact : ∀ draw, act ≠ .resume draw)
    (hstarts : later.svc.starts = s.svc.starts) (hrunning : later.running ≤ s.running)
    (hcrashes : later.svc.crashesTotal = s.svc.crashesTotal)
    (hstopping : s.stopping = true → later.stopping = true)
    (hphase : later.phase = s.phase ∨ later.phase.leaving = true) :
    SafeStep cfg s act later where
  start := .inl ⟨hstarts, hrunning⟩
  shutdown := hstopping
  leaving := by
    intro hleaving
    obtain hphase | hphase := hphase
    · rw [hphase, hleaving]
    · exact hphase
  interrupted := fun draw _ hresume => absurd hresume (hact draw)
  crashed := by
    rintro ⟨draw, _, hresume, _⟩
    exact absurd hresume (hact draw)
  uncounted := fun _ => hcrashes
  delayed := by
    intro wake hsleeping
    obtain hphase | hphase := hphase
    · exact .inl (hphase.trans hsleeping)
    · exact .inr (.inl hphase)

/-- The supervising task goes on without having seen the end of a run. -/
theorem safeStep_unobserved (hobserved : s.observed = none)
    (hstart : later.svc.starts = s.svc.starts ∧ later.running ≤ s.running ∨
      later.svc.starts = s.svc.starts + 1 ∧ s.running = 0 ∧ later.running = 1 ∧
        s.stopping = false ∧ s.maintenance = false ∧ s.phase.leaving = false)
    (hcrashes : later.svc.crashesTotal = s.svc.crashesTotal)
    (hstopping : s.stopping = true → later.stopping = true)
    (hleaving : s.phase.leaving = true → later.phase.leaving = true)
    (hdelayed : ∀ wake, s.phase = .sleeping wake →
      later.phase.leaving = true ∨ later.phase = .top ∧ wake ≤ s.clock) :
    SafeStep cfg s (.resume draw) later where
  start := hstart
  shutdown := hstopping
  leaving := hleaving
  interrupted := fun _ _ _ hsome => by simp [hobserved] at hsome
  crashed := by
    rintro ⟨_, _, _, hsome, _⟩
    simp [hobserved] at hsome
  uncounted := fun _ => hcrashes
  delayed := fun wake hsleeping => .inr (hdelayed wake hsleeping)

theorem active_of_observed {exc : RunEnd} (hobserved : s.observed = some exc) :
    s.phase.active = true := by
  by_contra hoff
  simp [observed_eq_none (Bool.eq_false_iff.mpr hoff)] at hobserved

/-- The end of a run was seen. -/
theorem safeStep_observe {started : Int} {exc : RunEnd} (hactive : s.phase.active = true)
    (hobserved : s.observed = some exc) :
    SafeStep cfg s (.resume draw) (s.observe cfg started draw exc) := by
  have hstay : ∀ {phase : Phase}, phase.active = true → phase.leaving = false := by
    intro phase hactive
    cases phase <;> first | rfl | cases hactive
  have hawake : ∀ wake, s.phase ≠ .sleeping wake := by
    intro wake hsleeping
    simp [hsleeping, Phase.active] at hactive
  have hsame : ∀ {seen : RunEnd}, s.observed = some seen → seen = exc := fun hseen => by
    rw [hobserved] at hseen
    exact (Option.some.inj hseen).symm
  obtain ⟨hstopping, heq⟩ | ⟨hstopping, hexcused, heq⟩ | ⟨hstopping, hexc, hmaintenance, heq⟩ :=
    @observe_cases cfg started draw exc s
  · rw [heq]
    exact {
      start := .inl ⟨rfl, le_rfl⟩
      shutdown := id
      leaving := fun _ => rfl
      interrupted := fun _ _ _ _ _ => ⟨rfl, rfl, rfl, rfl⟩
      crashed := by
        rintro ⟨_, _, _, _, hoff, _⟩
        simp [hstopping] at hoff
      uncounted := fun _ => rfl
      delayed := fun wake hsleeping => absurd hsleeping (hawake wake) }
  · rw [heq]
    exact {
      start := .inl ⟨rfl, le_rfl⟩
      shutdown := id
      leaving := fun hleaving => by simp [hstay hactive] at hleaving
      interrupted := fun _ _ _ _ _ => ⟨rfl, rfl, rfl, rfl⟩
      crashed := by
        rintro ⟨_, seen, _, hseen, _, hother, hoff⟩
        obtain hexcused | hexcused := hexcused
        · exact absurd ((hsame hseen).trans hexcused) hother
        · simp [hexcused] at hoff
      uncounted := fun _ => rfl
      delayed := fun wake hsleeping => absurd hsleeping (hawake wake) }
  · rw [heq]
    obtain ⟨hstarts, hcrashes⟩ :=
      @Service.counters_crash cfg s.svc s.clock (s.clock - started) draw exc
    exact {
      start := .inl ⟨hstarts, le_rfl⟩
      shutdown := id
      leaving := fun hleaving => by simp [hstay hactive] at hleaving
      interrupted := fun _ seen _ hseen hexcused => by
        obtain hexcused | hexcused := hexcused
        · exact absurd ((hsame hseen).symm.trans hexcused) hexc
        · simp [hmaintenance] at hexcused
      crashed := fun _ => ⟨hcrashes, _, rfl, Service.nextDelay_delay _ _ _⟩
      uncounted := fun hquiet =>
        absurd ⟨draw, exc, rfl, hobserved, hstopping, hexc, hmaintenance⟩ hquiet
      delayed := fun wake hsleeping => absurd hsleeping (hawake wake) }

theorem safeStep_start {state : ServiceState} (hsingle : s.Single)
    (hactive : s.phase.active = false) (hstay : s.phase.leaving = false)
    (hawake : ∀ wake, s.phase ≠ .sleeping wake) (hstopping : s.stopping = false)
    (hmaintenance : s.maintenance = false) :
    SafeStep cfg s (.resume draw)
      (System.start cfg { s with svc := { s.svc with state := state } }) := by
  have hrunning := hsingle.running
  rw [if_neg (hsingle.ended hactive hstay)] at hrunning
  refine safeStep_unobserved (observed_eq_none hactive)
    (.inr ⟨rfl, hrunning, ?_, hstopping, hmaintenance, hstay⟩) rfl id (fun hleaving => ?_)
    fun wake hsleeping => absurd hsleeping (hawake wake)
  · simp [start, await, hrunning]
  · simp [hstay] at hleaving

theorem safeStep_resume (hsingle : s.Single) (hstep : s.resume cfg draw = some later) :
    SafeStep cfg s (.resume draw) later := by
  cases resume_cases hstep with
  | stopped degraded hobserved =>
      refine safeStep_unobserved hobserved (.inl ⟨?_, le_rfl⟩) ?_ id (fun _ => rfl)
        fun _ _ => .inl rfl
      · cases degraded
        · rfl
        · exact (Service.sameCounters_degrade s.svc _).1
      · cases degraded
        · rfl
        · exact (Service.sameCounters_degrade s.svc _).2
  | paused hphase hstopping =>
      refine safeStep_unobserved (observed_eq_none (by rw [hphase]; rfl)) (.inl ⟨rfl, le_rfl⟩) rfl
        id ?_ ?_ <;> simp [hphase, Phase.leaving]
  | pausedAgain previous wake hphase =>
      refine safeStep_unobserved (observed_eq_none (by rw [hphase]; rfl)) (.inl ⟨rfl, le_rfl⟩) rfl
        id ?_ ?_ <;> simp [hphase, Phase.leaving]
  | started state hphase hstopping hmaintenance =>
      obtain ⟨hphase, -⟩ | ⟨wake, hphase⟩ := hphase
      · exact safeStep_start hsingle (by rw [hphase]; rfl) (by rw [hphase]; rfl)
          (by simp [hphase]) hstopping hmaintenance
      · exact safeStep_start hsingle (by rw [hphase]; rfl) (by rw [hphase]; rfl)
          (by simp [hphase]) hstopping hmaintenance
  | observed started exc hactive hobserved => exact safeStep_observe hactive hobserved
  | turned started deadline hphase hobserved =>
      obtain ⟨hstarts, hcrashes⟩ :=
        @Service.sameCounters_evaluate cfg s.svc s.clock started
      unfold turn
      dsimp only
      split
      · refine safeStep_unobserved hobserved (.inl ⟨hstarts, le_rfl⟩) hcrashes id ?_ ?_ <;>
          simp [hphase, Phase.leaving]
      · refine safeStep_unobserved hobserved (.inl ⟨hstarts, le_rfl⟩) hcrashes id ?_ ?_ <;>
          simp [hphase, Phase.leaving]
  | held started deadline hphase hobserved =>
      obtain ⟨hstarts, hcrashes⟩ :=
        @Service.sameCounters_degrade cfg s.svc .hangNotCancellable
      refine safeStep_unobserved hobserved (.inl ⟨hstarts, le_rfl⟩) hcrashes id ?_ ?_ <;>
        simp [hphase, Phase.leaving]
  | heldAgain started deadline hphase hobserved =>
      refine safeStep_unobserved hobserved (.inl ⟨rfl, le_rfl⟩) rfl id ?_ ?_ <;>
        simp [hphase, Phase.leaving]
  | woke wake hphase hwake =>
      refine safeStep_unobserved (observed_eq_none (by rw [hphase]; rfl)) (.inl ⟨rfl, le_rfl⟩) rfl
        id (by simp [hphase, Phase.leaving]) ?_
      intro asked hsleeping
      rw [hphase] at hsleeping
      cases hsleeping
      exact .inr ⟨rfl, hwake⟩

theorem safeStep {act : SupAct} (hsingle : s.Single) (hstep : s.step cfg act = some later) :
    SafeStep cfg s act later := by
  cases act with
  | resume draw => exact safeStep_resume hsingle hstep
  | throwCancelled =>
      obtain ⟨hphase, hsvc, -, -, hstopping, -, hrunning, -⟩ := throwCancelled_cases hstep
      have hcounters : s.svc.SameCounters later.svc := by
        obtain hsvc | hsvc := hsvc <;> rw [hsvc] <;> exact ⟨rfl, rfl⟩
      refine safeStep_other (by simp) hcounters.1 hrunning.le hcounters.2
        (by rw [hstopping]; exact id) (.inr ?_)
      obtain hphase | ⟨-, deadline, hphase⟩ := hphase <;> rw [hphase] <;> rfl
  | endRun exc =>
      simp only [step] at hstep
      split at hstep
      · cases hstep
        exact safeStep_other (by simp) rfl (Nat.sub_le _ _) rfl id (.inl rfl)
      · cases hstep
  | reportFailure excType =>
      obtain ⟨hstarts, hcrashes⟩ :=
        @Service.sameCounters_reportFailure cfg s.svc s.clock excType
      simp only [step] at hstep
      split at hstep
      · cases hstep
        exact safeStep_other (by simp) rfl le_rfl rfl id (.inl rfl)
      · cases hstep
        exact safeStep_other (by simp) hstarts le_rfl hcrashes id (.inl rfl)
  | beginShutdown =>
      cases hstep
      exact safeStep_other (by simp) rfl le_rfl rfl (fun _ => rfl) (.inl rfl)
  | _ =>
      cases hstep
      exact safeStep_other (by simp) rfl le_rfl rfl id (.inl rfl)

/-- In every run at most one instance runs, every step from the state reached keeps to the
rules, and every start is accounted for by a crash, by maintenance or by the instance
that is supervised. -/
theorem restarts_are_safe {clock : Int} {acts : List SupAct}
    (hrun : run (step cfg) (initial clock) acts = some s) :
    s.running ≤ 1 ∧
      (s.phase.leaving = false → s.svc.starts =
        s.svc.crashesTotal + s.interrupted + (if s.phase.active then 1 else 0)) ∧
      ∀ act later, s.step cfg act = some later → SafeStep cfg s act later := by
  have hsingle := single_run hrun
  refine ⟨?_, hsingle.counted, fun act later hstep => safeStep hsingle hstep⟩
  rw [hsingle.running]
  split <;> decide

/-- A service that crashes once and is started again. -/
def crashOnce : List SupAct :=
  [.resume 0, .endRun (.raised "ValueError"), .resume 0, .tick 1000000, .resume 0, .resume 0]

theorem restarts_are_safe_crashOnce :
    ∃ s, run (step {}) (initial 0) crashOnce = some s ∧ s.svc.starts = 2 ∧ s.running ≤ 1 ∧
      ∀ act later, s.step {} act = some later → SafeStep {} s act later := by
  have hany : (run (step {}) (initial 0) crashOnce).any
      (fun s => decide (s.svc.starts = 2)) = true := by decide +kernel
  obtain ⟨s, hrun, hstarts⟩ := (Option.any_eq_true ..).mp hany
  obtain ⟨hrunning, -, hsafe⟩ := restarts_are_safe hrun
  exact ⟨s, hrun, of_decide_eq_true hstarts, hrunning, hsafe⟩

end System

end Justup.Supervisor
