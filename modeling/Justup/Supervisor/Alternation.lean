import Justup.Supervisor.Loop

/-!
# Disturbances and recoveries alternate

A recovery is announced from three places.  Two of them leave the mark set that
makes the third one announce it again: this is the defect.  Where no evaluation
finds such a mark, the alerts alternate.
-/

namespace Justup.Supervisor

open Lib.Transition

/-! ## The alerts of a service -/

/-- What an administrator may rely on.  The one alert that closes the incident of a previous
process stands outside the order. -/
structure Alternating (alerts : List Alert) : Prop where
  between : (alerts.filter fun alert => !alert.initial).IsChain
    fun first second => first.kind = .recovered → second.kind ≠ .recovered
  initial : (alerts.filter fun alert => alert.initial).length ≤ 1
  degraded : ∀ alert ∈ alerts, alert.kind = .degraded →
    alert.before ≠ .degraded ∧ alert.state = .degraded
  running : ∀ alert ∈ alerts, alert.kind = .recovered → alert.initial = false →
    alert.state = .running

/-- A disturbance was announced and its end was not. -/
def disturbed (alerts : List Alert) : Bool :=
  (alerts.filter fun alert => !alert.initial).getLast?.any fun alert =>
    decide (alert.kind ≠ .recovered)

theorem disturbed_snoc (alerts : List Alert) {alert : Alert} (hinitial : alert.initial = false) :
    disturbed (alerts ++ [alert]) = decide (alert.kind ≠ .recovered) := by
  simp [disturbed, List.filter_append, hinitial]

theorem disturbed_snoc_initial (alerts : List Alert) {alert : Alert}
    (hinitial : alert.initial = true) : disturbed (alerts ++ [alert]) = disturbed alerts := by
  simp [disturbed, List.filter_append, hinitial]

namespace Alternating

variable {alerts : List Alert} {alert : Alert}

/-- Only a recovery must follow a disturbance. -/
theorem snoc (halternating : Alternating alerts) (hinitial : alert.initial = false)
    (hbetween : alert.kind = .recovered → disturbed alerts = true)
    (hdegraded : alert.kind = .degraded → alert.before ≠ .degraded ∧ alert.state = .degraded)
    (hrunning : alert.kind = .recovered → alert.state = .running) :
    Alternating (alerts ++ [alert]) where
  between := by
    simp only [List.filter_append, List.filter_cons, hinitial, Bool.not_false, if_true,
      List.filter_nil]
    refine halternating.between.append (.singleton _) ?_
    intro last hlast next hnext hrecovered hagain
    simp only [List.head?_cons, Option.mem_def, Option.some.injEq] at hnext
    subst hnext
    have hdisturbed := hbetween hagain
    rw [disturbed, Option.mem_def.mp hlast] at hdisturbed
    exact of_decide_eq_true hdisturbed hrecovered
  initial := by simpa [List.filter_append, hinitial] using halternating.initial
  degraded := by
    intro other hmem hkind
    obtain hmem | hmem := List.mem_append.mp hmem
    · exact halternating.degraded other hmem hkind
    · rw [List.mem_singleton.mp hmem] at hkind ⊢
      exact hdegraded hkind
  running := by
    intro other hmem hkind hother
    obtain hmem | hmem := List.mem_append.mp hmem
    · exact halternating.running other hmem hkind hother
    · rw [List.mem_singleton.mp hmem] at hkind ⊢
      exact hrunning hkind

theorem snoc_initial (halternating : Alternating alerts) (hinitial : alert.initial = true)
    (hkind : alert.kind = .recovered) (hfirst : ∀ other ∈ alerts, other.initial = false) :
    Alternating (alerts ++ [alert]) where
  between := by simpa [List.filter_append, hinitial] using halternating.between
  initial := by
    have hnone : (alerts.filter fun other => other.initial) = [] := by
      simpa [List.filter_eq_nil_iff] using hfirst
    simp [List.filter_append, hnone, hinitial]
  degraded := by
    intro other hmem hdegraded
    obtain hmem | hmem := List.mem_append.mp hmem
    · exact halternating.degraded other hmem hdegraded
    · rw [List.mem_singleton.mp hmem, hkind] at hdegraded
      cases hdegraded
  running := by
    intro other hmem hrecovered hother
    obtain hmem | hmem := List.mem_append.mp hmem
    · exact halternating.running other hmem hrecovered hother
    · rw [List.mem_singleton.mp hmem, hinitial] at hother
      cases hother

end Alternating

/-! ## What the routines announce -/

variable {cfg : Config}

namespace Service

variable {svc later : Service}

/-- Without an open disturbance the service is not degraded, and a run that is still marked
for the announcement of its recovery has its crashes before it. -/
def Calm (svc : Service) : Prop :=
  svc.state ≠ .degraded ∧ (svc.needsRecoveryLog = true → svc.crashes = [])

structure Announced (cfg : Config) (svc : Service) : Prop where
  alternating : Alternating svc.alerts
  unsettled : svc.settled = false → ∀ alert ∈ svc.alerts, alert.initial = false
  calm : cfg.notifier = true → disturbed svc.alerts = false → svc.Calm

/-- A change that is not announced. -/
theorem Announced.quiet (hannounced : svc.Announced cfg) (halerts : later.alerts = svc.alerts)
    (hsettled : later.settled = false → svc.settled = false) (hcalm : svc.Calm → later.Calm) :
    later.Announced cfg where
  alternating := by rw [halerts]; exact hannounced.alternating
  unsettled := by rw [halerts]; exact fun hoff => hannounced.unsettled (hsettled hoff)
  calm := by rw [halerts]; exact fun hon hnot => hcalm (hannounced.calm hon hnot)

theorem announced_snoc {alert : Alert} (hannounced : svc.Announced cfg)
    (hinitial : alert.initial = false) (hkind : alert.kind ≠ .recovered)
    (hdegraded : alert.kind = .degraded → alert.before ≠ .degraded ∧ alert.state = .degraded)
    (halerts : later.alerts = if cfg.notifier then svc.alerts ++ [alert] else svc.alerts)
    (hsettled : later.settled = false → svc.settled = false) : later.Announced cfg where
  alternating := by
    rw [halerts]
    split
    · exact hannounced.alternating.snoc hinitial (fun h => absurd h hkind) hdegraded
        fun h => absurd h hkind
    · exact hannounced.alternating
  unsettled := by
    rw [halerts]
    intro hoff other hmem
    have hold := hannounced.unsettled (hsettled hoff) other
    split at hmem
    · obtain hmem | hmem := List.mem_append.mp hmem
      · exact hold hmem
      · rw [List.mem_singleton.mp hmem]
        exact hinitial
    · exact hold hmem
  calm := by
    intro hon hnot
    rw [halerts, if_pos hon, disturbed_snoc _ hinitial, decide_eq_false_iff_not] at hnot
    exact absurd hkind hnot

/-- A degradation is announced once, when it begins. -/
theorem announced_degrade (hannounced : svc.Announced cfg) (reason : AlertReason) :
    (svc.degrade cfg reason).Announced cfg := by
  unfold degrade
  split
  next => exact hannounced
  next hstate =>
    exact @announced_snoc cfg svc _ ⟨.degraded, reason, .degraded, svc.lastExcType,
      svc.crashesTotal, svc.state, false⟩ hannounced rfl (by simp) (fun _ => ⟨hstate, rfl⟩) rfl id

/-- A recovery may be announced when a disturbance is open. -/
theorem announced_recovered (halternating : Alternating svc.alerts)
    (hunsettled : svc.settled = false → ∀ alert ∈ svc.alerts, alert.initial = false)
    (hdisturbed : cfg.notifier = true → disturbed svc.alerts = true)
    (hrest : svc.needsRecoveryLog = true → svc.crashes = []) :
    (svc.recovered cfg).Announced cfg := by
  have halerts : (svc.recovered cfg).alerts = if cfg.notifier then svc.alerts ++
      [⟨.recovered, .none, .running, svc.lastExcType, svc.crashesTotal, svc.state, false⟩]
      else svc.alerts := rfl
  constructor
  case alternating =>
    rw [halerts]
    split
    next hon => exact halternating.snoc rfl (fun _ => hdisturbed hon) (by simp) fun _ => rfl
    next => exact halternating
  case unsettled =>
    rw [halerts]
    intro hoff other hmem
    split at hmem
    · obtain hmem | hmem := List.mem_append.mp hmem
      · exact hunsettled hoff other hmem
      · rw [List.mem_singleton.mp hmem]
    · exact hunsettled hoff other hmem
  case calm => exact fun _ _ => ⟨by simp [recovered, notify], hrest⟩

/-- The first stable run of the process closes the incident of a previous one. -/
theorem announced_initial (hannounced : svc.Announced cfg) (hsettled : svc.settled = false) :
    ({ svc with attempt := 0, crashes := [], settled := true }.notify cfg .recovered .none
      svc.state true).Announced cfg := by
  have hfirst := hannounced.unsettled hsettled
  constructor
  case alternating =>
    dsimp only [notify]
    split
    · exact hannounced.alternating.snoc_initial rfl rfl hfirst
    · exact hannounced.alternating
  case unsettled => simp [notify]
  case calm =>
    intro hon hnot
    dsimp only [notify] at hnot
    rw [if_pos hon, disturbed_snoc_initial _ rfl] at hnot
    exact ⟨(hannounced.calm hon hnot).1, fun _ => rfl⟩

/-- The service is degraded: its disturbance is still open. -/
theorem Announced.disturbed (hannounced : svc.Announced cfg) (hstate : svc.state = .degraded)
    (hon : cfg.notifier = true) : disturbed svc.alerts = true := by
  by_contra hnot
  exact (hannounced.calm hon (Bool.eq_false_iff.mpr hnot)).1 hstate

/-- A degradation leaves a disturbance open. -/
theorem disturbed_degrade (reason : AlertReason) (hon : cfg.notifier = true)
    (hnot : disturbed (svc.degrade cfg reason).alerts = false) :
    disturbed svc.alerts = false := by
  unfold degrade at hnot
  split at hnot
  · exact hnot
  · simp [notify, hon, disturbed_snoc] at hnot

theorem disturbed_reportFailure {now : Int} {excType : String} (hon : cfg.notifier = true)
    (hnot : disturbed (svc.reportFailure cfg now excType).alerts = false) :
    disturbed svc.alerts = false := by
  rw [reportFailure_eq] at hnot
  split at hnot
  · have hopen := @disturbed_degrade cfg { svc.failed now excType with failDegraded := true }
    exact hopen _ hon hnot
  · exact hnot

theorem announced_reportFailure (hannounced : svc.Announced cfg) (now : Int)
    (excType : String) : (svc.reportFailure cfg now excType).Announced cfg := by
  rw [reportFailure_eq]
  split
  · have hfailed : Announced cfg { svc.failed now excType with failDegraded := true } :=
      hannounced.quiet rfl id id
    exact announced_degrade hfailed _
  · exact hannounced.quiet rfl id id

/-- The mark that a recovery is to be announced was left over by the recovery before:
the crashes are cleared already, and the service is not degraded. -/
def StaleMark (cfg : Config) (now started : Int) (svc : Service) : Prop :=
  cfg.policy.stableAfter ≤ now - started ∧ svc.failStreak = 0 ∧ svc.failDegraded = false ∧
    svc.needsRecoveryLog = true ∧ svc.crashes = [] ∧ svc.state ≠ .degraded ∧
    (svc.pruneHangs cfg now).hangs.length < cfg.policy.hangLimit

instance (cfg : Config) (now started : Int) (svc : Service) :
    Decidable (svc.StaleMark cfg now started) :=
  inferInstanceAs (Decidable (_ ∧ _))

theorem announced_markStable {now started : Int} (hannounced : svc.Announced cfg)
    (hstable : cfg.policy.stableAfter ≤ now - started) (hmark : ¬ svc.StaleMark cfg now started) :
    (svc.markStable cfg now).Announced cfg := by
  unfold markStable
  split
  next => exact hannounced
  next hstreak =>
    dsimp only
    split
    next => exact hannounced.quiet rfl id fun hcalm => ⟨hcalm.1, fun _ => rfl⟩
    next hfail =>
      split
      next hneeds =>
        split
        next hfew =>
          refine announced_recovered hannounced.alternating (by simp [pruneHangs]) ?_
            fun _ => rfl
          intro hon
          by_contra hnot
          obtain ⟨hstate, hcrashes⟩ := hannounced.calm hon (Bool.eq_false_iff.mpr hnot)
          exact hmark ⟨hstable, Nat.eq_zero_of_not_pos hstreak, Bool.eq_false_iff.mpr hfail,
            hneeds, hcrashes hneeds, hstate, hfew⟩
        next =>
          exact hannounced.quiet rfl (by simp [pruneHangs]) fun hcalm => ⟨hcalm.1, fun _ => rfl⟩
      next =>
        split
        next hsettled =>
          exact announced_initial hannounced hsettled
        next => exact hannounced.quiet rfl id fun hcalm => ⟨hcalm.1, fun _ => rfl⟩

theorem announced_clearFailureSeries {now : Int} (hannounced : svc.Announced cfg) :
    (svc.clearFailureSeries cfg now).Announced cfg := by
  unfold clearFailureSeries
  dsimp only
  split
  next hdegraded =>
    split
    next =>
      exact announced_recovered hannounced.alternating hannounced.unsettled
        (hannounced.disturbed hdegraded.1) fun _ => hdegraded.2
    next => exact hannounced.quiet rfl id id
  next => exact hannounced.quiet rfl id id

theorem announced_clearHangs (hannounced : svc.Announced cfg) :
    (svc.clearHangs cfg).Announced cfg := by
  unfold clearHangs
  dsimp only
  split
  next hdegraded =>
    exact announced_recovered hannounced.alternating hannounced.unsettled
      (hannounced.disturbed hdegraded.1) fun _ => hdegraded.2.1
  next => exact hannounced.quiet rfl id id

theorem announced_evaluate {now started : Int} (hannounced : svc.Announced cfg)
    (hmark : ¬ svc.StaleMark cfg now started) : (svc.evaluate cfg now started).Announced cfg := by
  have hstable : (svc.checkStable cfg now started).Announced cfg := by
    unfold checkStable
    split
    next hdues =>
      simp only [duesStable, Bool.and_eq_true, decide_eq_true_eq] at hdues
      exact announced_markStable hannounced hdues.2 hmark
    next => exact hannounced
  have hseries : ((svc.checkStable cfg now started).checkSeries cfg now).Announced cfg := by
    unfold checkSeries
    split
    · exact announced_clearFailureSeries hstable
    · exact hstable
  unfold evaluate checkHangs
  split
  · exact announced_clearHangs hseries
  · exact hseries

theorem announced_recordCrash (hannounced : svc.Announced cfg) (now ranFor : Int) (exc : RunEnd) :
    (svc.recordCrash cfg now ranFor exc).Announced cfg := by
  have hcrashed := @announced_snoc cfg svc (svc.recordCrash cfg now ranFor exc) ⟨.crashed, .none,
    if svc.state = .degraded then .degraded else .backoff, some exc.excType,
    svc.crashesTotal + 1, svc.state, false⟩ hannounced rfl (by simp) (by simp)
  refine hcrashed ?_ ?_
  · unfold recordCrash
    dsimp only
    split <;> rfl
  · simp [recordCrash, notify]

theorem announced_nextDelay (hannounced : svc.Announced cfg) (now draw : Int) :
    (svc.nextDelay cfg now draw).2.Announced cfg := by
  have hpruned : (svc.pruneHangs cfg now).Announced cfg := hannounced.quiet rfl id id
  unfold nextDelay
  dsimp only
  split
  · exact announced_degrade hpruned _
  · exact hpruned

end Service

/-! ## Runs of the supervising task -/

namespace System

variable {s later : System} {draw : Int}

/-- The state to which a pause returns is as calm as the state of the service. -/
structure Announced (cfg : Config) (s : System) : Prop where
  svc : s.svc.Announced cfg
  previous : ∀ previous wake, s.phase = .pausing previous wake → cfg.notifier = true →
    disturbed s.svc.alerts = false → previous ≠ .degraded

/-- No evaluation finds a mark that was left over. -/
def NoStaleMark (cfg : Config) (s : System) (act : SupAct) : Prop :=
  act.resumes = true → ∀ started ∈ s.evaluated, ¬ s.svc.StaleMark cfg s.clock started

instance (cfg : Config) (s : System) (act : SupAct) : Decidable (s.NoStaleMark cfg act) :=
  inferInstanceAs (Decidable (_ → ∀ started ∈ s.evaluated, ¬ _))

theorem announced_initial (clock : Int) : (initial clock).Announced cfg where
  svc := {
    alternating := ⟨.nil, by simp [initial], by simp [initial], by simp [initial]⟩
    unsettled := by simp [initial]
    calm := fun _ _ => ⟨by simp [initial], by simp [initial]⟩ }
  previous := by simp [initial]

/-- Outside a pause there is nothing to return to. -/
theorem Announced.of_svc (hsvc : later.svc.Announced cfg)
    (hphase : ∀ previous wake, later.phase ≠ .pausing previous wake) : later.Announced cfg :=
  ⟨hsvc, fun previous wake hpausing => absurd hpausing (hphase previous wake)⟩

theorem announced_start {state : ServiceState} (hannounced : s.svc.Announced cfg)
    (hstate : cfg.notifier = true → disturbed s.svc.alerts = false → state ≠ .degraded) :
    (System.start cfg { s with svc := { s.svc with state := state } }).Announced cfg := by
  refine .of_svc ⟨hannounced.alternating, hannounced.unsettled, fun hon hnot => ?_⟩
    (by simp [start, await])
  refine ⟨?_, (hannounced.calm hon hnot).2⟩
  simp [start, await, hstate hon hnot]

theorem announced_observe {started : Int} {exc : RunEnd} (hannounced : s.svc.Announced cfg) :
    (s.observe cfg started draw exc).Announced cfg := by
  unfold observe
  split
  · exact .of_svc (hannounced.quiet rfl id fun hcalm => ⟨by simp [stop], hcalm.2⟩)
      (by simp [stop])
  split
  · exact .of_svc hannounced (by simp)
  · exact .of_svc (Service.announced_nextDelay (Service.announced_recordCrash hannounced _ _ _) _ _)
      (by simp)

theorem announced_resume (hannounced : s.Announced cfg)
    (hmark : s.NoStaleMark cfg (.resume draw)) (hstep : s.resume cfg draw = some later) :
    later.Announced cfg := by
  cases resume_cases hstep with
  | stopped degraded hobserved =>
      refine .of_svc ?_ (by simp [stop])
      have hsvc : (if degraded then s.svc.degrade cfg .hangNotCancellable
          else s.svc).Announced cfg := by
        split
        · exact Service.announced_degrade hannounced.svc _
        · exact hannounced.svc
      exact hsvc.quiet rfl id fun hcalm => ⟨by simp [stop], hcalm.2⟩
  | paused hphase hstopping =>
      refine ⟨hannounced.svc.quiet rfl id fun hcalm => ⟨by simp, hcalm.2⟩, ?_⟩
      intro previous wake hpausing hon hnot
      cases hpausing
      exact (hannounced.svc.calm hon hnot).1
  | pausedAgain previous wake hphase =>
      refine ⟨hannounced.svc, ?_⟩
      intro _ _ hpausing
      cases hpausing
      exact hannounced.previous previous wake hphase
  | started state hphase hstopping hmaintenance =>
      refine announced_start hannounced.svc fun hon hnot => ?_
      obtain ⟨-, rfl⟩ | ⟨wake, hphase⟩ := hphase
      · exact (hannounced.svc.calm hon hnot).1
      · exact hannounced.previous state wake hphase hon hnot
  | observed started exc hphase hobserved => exact announced_observe hannounced.svc
  | turned started deadline hphase hobserved =>
      have hsvc := Service.announced_evaluate hannounced.svc
        (hmark rfl started (evaluated_waiting hphase hobserved))
      unfold turn
      dsimp only
      split
      · exact .of_svc hsvc (by simp)
      · exact .of_svc hsvc (by simp [await])
  | held started deadline hphase hobserved =>
      exact .of_svc (Service.announced_degrade hannounced.svc _) (by simp)
  | heldAgain started deadline hphase hobserved => exact .of_svc hannounced.svc (by simp)
  | woke wake hphase hwake => exact .of_svc hannounced.svc (by simp)

theorem announced_step {act : SupAct} (hannounced : s.Announced cfg) (hmark : s.NoStaleMark cfg act)
    (hstep : s.step cfg act = some later) : later.Announced cfg := by
  cases act with
  | resume draw => exact announced_resume hannounced hmark hstep
  | throwCancelled =>
      obtain ⟨hphase, hsvc, -⟩ := throwCancelled_cases hstep
      refine .of_svc ?_ ?_
      · obtain hsvc | hsvc := hsvc
        · rw [hsvc]
          exact hannounced.svc
        · rw [hsvc]
          exact hannounced.svc.quiet rfl id fun hcalm => ⟨by simp, hcalm.2⟩
      · obtain hphase | ⟨-, deadline, hphase⟩ := hphase <;> simp [hphase]
  | endRun exc =>
      simp only [step] at hstep
      split at hstep
      · cases hstep
        exact ⟨hannounced.svc, hannounced.previous⟩
      · cases hstep
  | reportFailure excType =>
      simp only [step] at hstep
      split at hstep
      · cases hstep
        exact hannounced
      · cases hstep
        refine ⟨Service.announced_reportFailure hannounced.svc _ _, ?_⟩
        intro previous wake hphase hon hnot
        exact hannounced.previous previous wake hphase hon
          (Service.disturbed_reportFailure hon hnot)
  | _ =>
      cases hstep
      exact ⟨hannounced.svc.quiet rfl id id, hannounced.previous⟩

/-- Where no evaluation finds a mark that an earlier recovery left over, the alerts alternate
in every state reached. -/
theorem alerts_alternate {clock : Int} {acts : List SupAct}
    (hok : RunOk (step cfg) (NoStaleMark cfg) (initial clock) acts)
    (hrun : run (step cfg) (initial clock) acts = some s) : Alternating s.svc.alerts :=
  (run_invariant_of announced_step hok (announced_initial clock) hrun).svc.alternating

/-- A crash, and the recovery that is announced once. -/
def recoveredOnce : List SupAct :=
  [.resume 0, .endRun (.raised "ValueError"), .resume 0, .tick 1000000, .resume 0, .resume 0,
    .tick 60000000, .resume 0, .tick 1000000]

theorem alerts_alternate_recoveredOnce :
    ∃ s, run (step {}) (initial 0) recoveredOnce = some s ∧
      s.svc.alerts.map Alert.kind = [.crashed, .recovered] ∧ Alternating s.svc.alerts := by
  have hok : RunOk (step {}) (NoStaleMark {}) (initial 0) recoveredOnce := by decide +kernel
  have hany : (run (step {}) (initial 0) recoveredOnce).any
      (fun s => decide (s.svc.alerts.map Alert.kind = [.crashed, .recovered])) = true := by
    decide +kernel
  obtain ⟨s, hrun, hkinds⟩ := (Option.any_eq_true ..).mp hany
  exact ⟨s, hrun, of_decide_eq_true hkinds, alerts_alternate hok hrun⟩

/-- A failure series degrades the service and then ends its run; after the restart the end of
the series and, one check later, the mark of the crash both announce the recovery. -/
def recoveredTwice : List SupAct :=
  [.resume 0, .reportFailure "OSError", .tick 130000000, .reportFailure "OSError",
    .reportFailure "OSError", .reportFailure "OSError", .reportFailure "OSError",
    .endRun (.raised "OSError"), .resume 0, .tick 300000000, .resume 0, .resume 0, .reportSuccess,
    .tick 60000000, .resume 0, .tick 1000000, .resume 0]

theorem recovered_twice_in_a_row :
    ∃ s, run (step {}) (initial 0) recoveredTwice = some s ∧ ¬ Alternating s.svc.alerts := by
  have hany : (run (step {}) (initial 0) recoveredTwice).any (fun s => decide
      (¬ (s.svc.alerts.filter fun alert => !alert.initial).IsChain
        fun first second => first.kind = .recovered → second.kind ≠ .recovered)) = true := by
    decide +kernel
  obtain ⟨s, hrun, hchain⟩ := (Option.any_eq_true ..).mp hany
  exact ⟨s, hrun, fun halternating => of_decide_eq_true hchain halternating.between⟩

end System

end Justup.Supervisor
