import Justup.Supervisor.Loop

/-!
# Reading the health of a service

`snapshot` counts the recent hangs, and the count drops the hangs that left the
window.  Every other routine drops them as well before it counts, and otherwise
only asks whether there is a hang: a read that leaves a hang changes nothing.
-/

namespace Justup.Supervisor

open Lib.Transition

variable {cfg : Config}

namespace Service

variable {svc full : Service} {now : Int}

/-- The service without some hangs that left the window, but not without its last one. -/
def Trimmed (cfg : Config) (now : Int) (svc full : Service) : Prop :=
  ∃ dropped, (∀ time ∈ dropped, cfg.policy.hangWindow < now - time) ∧
    (svc.hangs = [] → dropped = []) ∧ full = { svc with hangs := dropped ++ svc.hangs }

theorem Trimmed.refl (svc : Service) : svc.Trimmed cfg now svc :=
  ⟨[], by simp, fun _ => rfl, rfl⟩

theorem withinWindow_append {window : Int} {dropped : List Int}
    (hexpired : ∀ time ∈ dropped, window < now - time) (times : List Int) :
    withinWindow window now (dropped ++ times) = withinWindow window now times :=
  List.dropWhile_append_of_pos fun time hmem => decide_eq_true (hexpired time hmem)

/-- What a read drops. -/
theorem trimmed_pruneHangs (hleft : svc.hangs ≠ [] → (svc.pruneHangs cfg now).hangs ≠ []) :
    (svc.pruneHangs cfg now).Trimmed cfg now svc := by
  refine ⟨svc.hangs.takeWhile fun time => decide (cfg.policy.hangWindow < now - time), ?_, ?_, ?_⟩
  · intro time hmem
    have hexpired := List.mem_takeWhile_imp hmem
    exact of_decide_eq_true hexpired
  · intro hnone
    by_contra hsome
    refine hleft ?_ hnone
    rintro heq
    simp [heq] at hsome
  · simp [pruneHangs, withinWindow]

theorem Trimmed.trans {middle : Service} (hfirst : svc.Trimmed cfg now middle)
    (hsecond : middle.Trimmed cfg now full) : svc.Trimmed cfg now full := by
  obtain ⟨first, hfirst, hsome, rfl⟩ := hfirst
  obtain ⟨second, hsecond, hsome', rfl⟩ := hsecond
  refine ⟨second ++ first, ?_, ?_, by simp⟩
  · intro time hmem
    obtain hmem | hmem := List.mem_append.mp hmem
    · exact hsecond time hmem
    · exact hfirst time hmem
  · intro hnone
    have hempty := hsome hnone
    simp [hempty, hsome' (by simp [hempty, hnone])]

/-- Hangs that left the window stay outside. -/
theorem Trimmed.later {now' : Int} (htrimmed : svc.Trimmed cfg now full) (hnow : now ≤ now') :
    svc.Trimmed cfg now' full := by
  obtain ⟨dropped, hexpired, hsome, rfl⟩ := htrimmed
  exact ⟨dropped, fun time hmem => by have := hexpired time hmem; omega, hsome, rfl⟩

/-! ## No routine sees the difference -/

/-- A change that neither reads the hangs nor changes them. -/
theorem Trimmed.map (change : Service → Service) (htrimmed : svc.Trimmed cfg now full)
    (hkeeps : (change svc).hangs = svc.hangs)
    (hblind : ∀ hangs, change { svc with hangs := hangs } = { change svc with hangs := hangs }) :
    (change svc).Trimmed cfg now (change full) := by
  obtain ⟨dropped, hexpired, hsome, rfl⟩ := htrimmed
  exact ⟨dropped, hexpired, by rwa [hkeeps], by rw [hblind, hkeeps]⟩

theorem Trimmed.pruneHangs_eq (htrimmed : svc.Trimmed cfg now full) :
    full.pruneHangs cfg now = svc.pruneHangs cfg now := by
  obtain ⟨dropped, hexpired, -, rfl⟩ := htrimmed
  simp only [pruneHangs, withinWindow_append hexpired]

/-- Both have a hang or neither has. -/
theorem Trimmed.hangs_eq_nil (htrimmed : svc.Trimmed cfg now full) :
    full.hangs = [] ↔ svc.hangs = [] := by
  obtain ⟨dropped, -, hsome, rfl⟩ := htrimmed
  refine ⟨fun hnone => (List.append_eq_nil_iff.mp hnone).2, fun hnone => ?_⟩
  simp [hsome hnone, hnone]

theorem trimmed_degrade (htrimmed : svc.Trimmed cfg now full) (reason : AlertReason) :
    (svc.degrade cfg reason).Trimmed cfg now (full.degrade cfg reason) := by
  refine htrimmed.map (degrade cfg reason) ?_ fun hangs => ?_
  · unfold degrade
    split <;> rfl
  · unfold degrade
    dsimp only
    split <;> rfl

theorem trimmed_reportFailure (htrimmed : svc.Trimmed cfg now full) (excType : String) :
    (svc.reportFailure cfg now excType).Trimmed cfg now (full.reportFailure cfg now excType) := by
  have hfailed := htrimmed.map (failed now excType) rfl fun hangs => rfl
  have hdue : full.SeriesDue cfg now ↔ svc.SeriesDue cfg now := by
    obtain ⟨dropped, -, -, rfl⟩ := htrimmed
    exact Iff.rfl
  rw [reportFailure_eq, reportFailure_eq, if_congr hdue rfl rfl]
  split
  · exact trimmed_degrade (hfailed.map (fun svc => { svc with failDegraded := true }) rfl
      fun hangs => rfl) _
  · exact hfailed

theorem trimmed_markStable (htrimmed : svc.Trimmed cfg now full) :
    (svc.markStable cfg now).Trimmed cfg now (full.markStable cfg now) := by
  have hpruned := htrimmed.pruneHangs_eq
  obtain ⟨dropped, hexpired, hsome, rfl⟩ := htrimmed
  unfold markStable
  dsimp only
  split
  · exact ⟨dropped, hexpired, hsome, rfl⟩
  split
  · exact ⟨dropped, hexpired, hsome, rfl⟩
  split
  · -- both count the same hangs
    have hcount : ({ svc with
        hangs := dropped ++ svc.hangs
        attempt := 0
        crashes := []
        needsRecoveryLog := false
        settled := true } : Service).pruneHangs cfg now =
        ({ svc with
          attempt := 0
          crashes := []
          needsRecoveryLog := false
          settled := true } : Service).pruneHangs cfg now := by
      simp only [pruneHangs, withinWindow_append hexpired]
    rw [hcount]
    exact .refl _
  split
  · exact ⟨dropped, hexpired, hsome, rfl⟩
  · exact ⟨dropped, hexpired, hsome, rfl⟩

theorem trimmed_checkStable (htrimmed : svc.Trimmed cfg now full) (started : Int) :
    (svc.checkStable cfg now started).Trimmed cfg now (full.checkStable cfg now started) := by
  have hdues : full.duesStable cfg now started = svc.duesStable cfg now started := by
    obtain ⟨dropped, -, -, rfl⟩ := htrimmed
    rfl
  unfold checkStable
  rw [hdues]
  split
  · exact trimmed_markStable htrimmed
  · exact htrimmed

theorem trimmed_checkSeries (htrimmed : svc.Trimmed cfg now full) :
    (svc.checkSeries cfg now).Trimmed cfg now (full.checkSeries cfg now) := by
  obtain ⟨dropped, hexpired, hsome, rfl⟩ := htrimmed
  have hover : ({ svc with hangs := dropped ++ svc.hangs } : Service).seriesOver cfg now =
      svc.seriesOver cfg now := rfl
  unfold checkSeries
  rw [hover]
  split
  swap
  · exact ⟨dropped, hexpired, hsome, rfl⟩
  unfold clearFailureSeries
  dsimp only
  split
  · have hcount : ({ svc with
        hangs := dropped ++ svc.hangs
        failDegraded := false
        okSince := none } : Service).pruneHangs cfg now =
        ({ svc with failDegraded := false, okSince := none } : Service).pruneHangs cfg now := by
      simp only [pruneHangs, withinWindow_append hexpired]
    rw [hcount]
    exact .refl _
  · exact ⟨dropped, hexpired, hsome, rfl⟩

theorem trimmed_checkHangs (htrimmed : svc.Trimmed cfg now full) (started : Int) :
    (svc.checkHangs cfg now started).Trimmed cfg now (full.checkHangs cfg now started) := by
  have hnone := htrimmed.hangs_eq_nil
  unfold checkHangs
  simp only [ne_eq, hnone]
  split
  · -- the history is cleared in both
    have hclear : full.clearHangs cfg = svc.clearHangs cfg := by
      obtain ⟨dropped, -, -, rfl⟩ := htrimmed
      rfl
    rw [hclear]
    exact .refl _
  · exact htrimmed

theorem trimmed_evaluate (htrimmed : svc.Trimmed cfg now full) (started : Int) :
    (svc.evaluate cfg now started).Trimmed cfg now (full.evaluate cfg now started) :=
  trimmed_checkHangs (trimmed_checkSeries (trimmed_checkStable htrimmed started)) started

theorem Trimmed.watching_eq (htrimmed : svc.Trimmed cfg now full) :
    full.watching cfg = svc.watching cfg := by
  have hnone := htrimmed.hangs_eq_nil
  obtain ⟨dropped, -, -, rfl⟩ := htrimmed
  have hempty : (dropped ++ svc.hangs).isEmpty = svc.hangs.isEmpty := by
    rw [Bool.eq_iff_iff, List.isEmpty_iff, List.isEmpty_iff]
    exact hnone
  simp only [watching, hempty]

/-- A crash is counted together with the hangs of the window. -/
theorem nextDelay_recordCrash_eq (htrimmed : svc.Trimmed cfg now full) (ranFor draw : Int)
    (exc : RunEnd) :
    (full.recordCrash cfg now ranFor exc).nextDelay cfg now draw =
      (svc.recordCrash cfg now ranFor exc).nextDelay cfg now draw := by
  obtain ⟨dropped, hexpired, -, rfl⟩ := htrimmed
  have hcrash : ({ svc with hangs := dropped ++ svc.hangs } : Service).recordCrash cfg now ranFor
      exc = { svc.recordCrash cfg now ranFor exc with
        hangs := dropped ++ (svc.recordCrash cfg now ranFor exc).hangs } := by
    unfold recordCrash
    dsimp only
    split
    · by_cases hhung : exc = .hung <;> simp [notify, hhung]
    · by_cases hhung : exc = .hung <;> simp [notify, hhung]
  have hcount : pruneHangs cfg now (({ svc with
      hangs := dropped ++ svc.hangs } : Service).recordCrash cfg now ranFor exc) =
      (svc.recordCrash cfg now ranFor exc).pruneHangs cfg now := by
    rw [hcrash]
    simp only [pruneHangs, withinWindow_append hexpired]
  unfold nextDelay
  rw [hcount]

end Service

/-! ## No step sees the difference -/

namespace System

variable {s full later : System} {draw : Int}

/-- The systems differ in hangs that left the window. -/
def Trimmed (cfg : Config) (s full : System) : Prop :=
  s.svc.Trimmed cfg s.clock full.svc ∧ full = { s with svc := full.svc }

theorem Trimmed.refl (s : System) : s.Trimmed cfg s :=
  ⟨.refl s.svc, rfl⟩

theorem trimmed_stop (htrimmed : s.Trimmed cfg full) : s.stop.Trimmed cfg full.stop := by
  obtain ⟨hsvc, hfull⟩ := htrimmed
  refine ⟨?_, ?_⟩
  · rw [hfull]
    exact hsvc.map (fun svc => { svc with state := .stopped }) rfl fun hangs => rfl
  rw [hfull]
  rfl

theorem trimmed_await (htrimmed : s.Trimmed cfg full) (started : Int) :
    (s.await cfg started).Trimmed cfg (full.await cfg started) := by
  obtain ⟨hsvc, hfull⟩ := htrimmed
  refine ⟨hsvc, ?_⟩
  rw [hfull]
  simp only [await, hsvc.watching_eq]

theorem trimmed_start (htrimmed : s.Trimmed cfg full) :
    (s.start cfg).Trimmed cfg (full.start cfg) := by
  obtain ⟨hsvc, hfull⟩ := htrimmed
  unfold start
  rw [hfull]
  refine trimmed_await ⟨?_, rfl⟩ s.clock
  exact hsvc.map (fun svc => { svc with
    starts := svc.starts + 1
    failStreak := 0
    failSince := none
    okSince := none
    lastBeat := s.clock
    state := if svc.state = .degraded then .degraded else .running }) rfl fun hangs => rfl

theorem trimmed_observe (htrimmed : s.Trimmed cfg full) (started : Int) (exc : RunEnd) :
    (s.observe cfg started draw exc).Trimmed cfg (full.observe cfg started draw exc) := by
  have hstop := trimmed_stop htrimmed
  obtain ⟨hsvc, hfull⟩ := htrimmed
  have hdelay := Service.nextDelay_recordCrash_eq hsvc (s.clock - started) draw exc
  unfold observe
  rw [hfull] at hstop ⊢
  dsimp only
  split_ifs
  · exact hstop
  · exact ⟨hsvc, rfl⟩
  · rw [hdelay]
    exact .refl _

theorem trimmed_turn (htrimmed : s.Trimmed cfg full) (started : Int) :
    (s.turn cfg started).Trimmed cfg (full.turn cfg started) := by
  obtain ⟨hsvc, hfull⟩ := htrimmed
  have hevaluated := Service.trimmed_evaluate hsvc started
  have hbeat : (full.svc.evaluate cfg s.clock started).lastBeat =
      (s.svc.evaluate cfg s.clock started).lastBeat := by
    obtain ⟨_, -, -, heq⟩ := hevaluated
    rw [heq]
  unfold turn
  rw [hfull]
  dsimp only
  rw [hbeat]
  split_ifs
  · exact ⟨hevaluated, rfl⟩
  · exact trimmed_await ⟨hevaluated, rfl⟩ started

theorem trimmed_resume (htrimmed : s.Trimmed cfg full) :
    Option.Rel (Trimmed cfg) (s.resume cfg draw) (full.resume cfg draw) := by
  have hstop := trimmed_stop htrimmed
  have hobserve := fun started exc => @trimmed_observe cfg s full draw htrimmed started exc
  have hturn := trimmed_turn htrimmed
  have hstart := trimmed_start htrimmed
  obtain ⟨hsvc, hfull⟩ := htrimmed
  rw [hfull] at hstop hobserve hturn hstart ⊢
  have hobserved : ({ s with svc := full.svc } : System).observed = s.observed := rfl
  unfold resume
  rw [hobserved]
  dsimp only
  have hstate : full.svc.state = s.svc.state := by
    obtain ⟨_, -, -, heq⟩ := hsvc
    rw [heq]
  have hmoved (phase : Phase) : Trimmed cfg { s with phase := phase }
      { s with svc := full.svc, phase := phase } := ⟨hsvc, rfl⟩
  cases hphase : s.phase with
  | top =>
      dsimp only
      rw [hstate]
      split_ifs
      · exact .some hstop
      · exact .some
          ⟨hsvc.map (fun svc => { svc with state := .paused }) rfl fun hangs => rfl, rfl⟩
      · exact .some hstart
  | pausing previous wake =>
      have hback : Trimmed cfg { s with svc := { s.svc with state := previous } }
          { s with svc := { full.svc with state := previous } } :=
        ⟨hsvc.map (fun svc => { svc with state := previous }) rfl fun hangs => rfl, rfl⟩
      have hresumed := trimmed_start hback
      dsimp only
      split_ifs
      · exact .none
      · exact .some (hmoved _)
      · exact .some hstop
      · exact .some hresumed
  | waiting started deadline =>
      cases s.observed with
      | some exc => exact .some (hobserve started exc)
      | none =>
          dsimp only
          split_ifs
          · exact .some (hturn started)
          · exact .none
  | reaping started deadline =>
      cases s.observed with
      | some exc => exact .some (hobserve started exc)
      | none =>
          have hdegraded := Service.trimmed_degrade hsvc .hangNotCancellable
          dsimp only
          split_ifs
          · exact .none
          · exact .some (trimmed_stop ⟨hdegraded, rfl⟩)
          · exact .some ⟨hdegraded, rfl⟩
  | holding started deadline =>
      cases s.observed with
      | some exc => exact .some (hobserve started exc)
      | none =>
          dsimp only
          split_ifs
          · exact .none
          · exact .some hstop
          · exact .some (hmoved _)
  | sleeping wake =>
      dsimp only
      split_ifs
      · exact .none
      · exact .some (hmoved _)
  | cancelling deadline =>
      dsimp only
      split_ifs
      · exact .none
      · exact .some hstop
  | stopped => exact .none

theorem trimmed_throwCancelled (htrimmed : s.Trimmed cfg full) :
    Option.Rel (Trimmed cfg) (s.throwCancelled cfg) (full.throwCancelled cfg) := by
  obtain ⟨hsvc, hfull⟩ := htrimmed
  have hstarts : full.svc.starts = s.svc.starts := by
    obtain ⟨_, -, -, heq⟩ := hsvc
    rw [heq]
  have hstop : Trimmed cfg (stop { s with cancelRequested := false })
      (stop { s with cancelRequested := false, svc := full.svc }) := trimmed_stop ⟨hsvc, rfl⟩
  rw [hfull]
  unfold throwCancelled
  dsimp only
  rw [hstarts]
  split
  · exact .none
  cases s.phase with
  | top =>
      dsimp only
      split_ifs
      · exact .some ⟨hsvc, rfl⟩
      · exact .none
  | waiting | reaping | holding => exact .some ⟨hsvc, rfl⟩
  | stopped => exact .none
  | _ => exact .some hstop

/-- A read is seen when it drops the last hang. -/
def KeepsHang (cfg : Config) (s : System) (act : SupAct) : Prop :=
  act = .snapshot → s.svc.hangs ≠ [] → (s.svc.pruneHangs cfg s.clock).hangs ≠ []

instance (cfg : Config) (s : System) (act : SupAct) : Decidable (s.KeepsHang cfg act) :=
  inferInstanceAs (Decidable (_ → _ → _))

theorem trimmed_snapshot (htrimmed : s.Trimmed cfg full) (hkeeps : s.KeepsHang cfg .snapshot)
    (hstep : s.step cfg .snapshot = some later) : later.Trimmed cfg full := by
  obtain ⟨hsvc, hfull⟩ := htrimmed
  cases hstep
  exact ⟨(Service.trimmed_pruneHangs (hkeeps rfl)).trans hsvc, hfull⟩

theorem exists_of_rel {step step' : Option System} (hrel : Option.Rel (Trimmed cfg) step step')
    (hstep : step = some later) : ∃ later', step' = some later' ∧ later.Trimmed cfg later' := by
  cases hrel with
  | none => cases hstep
  | some hlater =>
      cases hstep
      exact ⟨_, rfl, hlater⟩

theorem trimmed_step {act : SupAct} (htrimmed : s.Trimmed cfg full) (hact : act ≠ .snapshot)
    (hstep : s.step cfg act = some later) :
    ∃ later', full.step cfg act = some later' ∧ later.Trimmed cfg later' := by
  have hresume (draw : Int) := @trimmed_resume cfg s full draw htrimmed
  have hthrow := trimmed_throwCancelled htrimmed
  obtain ⟨hsvc, hfull⟩ := htrimmed
  rw [hfull] at hresume hthrow ⊢
  cases act with
  | resume draw => exact exists_of_rel (hresume draw) hstep
  | throwCancelled => exact exists_of_rel hthrow hstep
  | snapshot => exact absurd rfl hact
  | tick delay =>
      cases hstep
      exact ⟨_, rfl, hsvc.later (Int.le_add_of_nonneg_right (Int.natCast_nonneg delay)), rfl⟩
  | endRun exc =>
      simp only [step] at hstep ⊢
      split at hstep
      · cases hstep
        exact ⟨_, rfl, hsvc, rfl⟩
      · cases hstep
  | heartbeat =>
      cases hstep
      have hbeat := hsvc.map (fun svc => { svc with lastBeat := s.clock }) rfl fun hangs => rfl
      exact ⟨_, rfl, hbeat, rfl⟩
  | reportFailure excType =>
      simp only [step] at hstep ⊢
      split at hstep
      next hquiet =>
        cases hstep
        exact ⟨_, if_pos hquiet, hsvc, rfl⟩
      next hquiet =>
        cases hstep
        exact ⟨_, if_neg hquiet, Service.trimmed_reportFailure hsvc excType, rfl⟩
  | reportSuccess =>
      cases hstep
      exact ⟨_, rfl, hsvc.map (Service.reportSuccess s.clock) rfl fun hangs => rfl, rfl⟩
  | beginMaintenance | endMaintenance | beginShutdown | cancelSupervisor =>
      cases hstep
      exact ⟨_, rfl, hsvc, rfl⟩

/-- The run without the reads ends in the same state, up to hangs that left the window. -/
theorem snapshot_unseen {clock : Int} {acts : List SupAct}
    (hok : RunOk (step cfg) (KeepsHang cfg) (initial clock) acts)
    (hrun : run (step cfg) (initial clock) acts = some s) :
    ∃ full, run (step cfg) (initial clock) (acts.filter fun act => decide (act ≠ .snapshot)) =
      some full ∧ s.Trimmed cfg full := by
  refine run_visible ?_ ?_ hok (Trimmed.refl _) hrun
  · intro s full act later htrimmed hkeeps hhidden hstep
    obtain rfl : act = .snapshot := by simpa using hhidden
    exact trimmed_snapshot htrimmed hkeeps hstep
  · intro s full act later htrimmed hkeeps hvisible hstep
    exact trimmed_step htrimmed (of_decide_eq_true hvisible) hstep

end System

end Justup.Supervisor
