import Justup.Restore.Gates

/-!
# A restore excludes live work

What the steps of the other threads keep and what the steps of the swap do,
and from it the state of the gates, the directories and the generation at every
phase of `_quiesced_swap`.
-/

namespace Justup.Restore

open Lib Lib.Transition

variable {T : Type*} {own : Nat} {files : Files String T} {generation : Nat}

namespace System

variable {s s' : System T}

/-- The counters agree with what is really running, and every open handle is
registered or about to be. -/
structure Counted (s : System T) : Prop where
  inflight : s.gate.inflight = s.sections.length
  pending : s.registry.pending = s.connecting.length + s.opened.length
  registered : ∀ id ∈ s.handles, id ∈ s.registry.openConnections ∨ id ∈ s.opened

/-- What a step of another thread leaves alone: it passes no closed gate. -/
structure Spares (own : Nat) (s s' : System T) : Prop where
  phase : s'.phase = s.phase
  files : s'.files = s.files
  active : s'.gate.active = s.gate.active
  generation : s'.gate.generation = s.gate.generation
  quiesced : s'.registry.quiesced = s.registry.quiesced
  drained : s.gate.active = true → s.gate.inflight = 0 → s'.gate.inflight = 0
  settled : s.registry.quiesced = true → s.registry.Settled own → s'.registry.Settled own

theorem Spares.refl (s : System T) : Spares own s s :=
  ⟨rfl, rfl, rfl, rfl, rfl, fun _ h => h, fun _ h => h⟩

theorem Counted.nothing_pending (hcounted : s.Counted) (hsettled : s.registry.Settled own) :
    s.connecting = [] ∧ s.opened = [] := by
  have hpending := hcounted.pending
  rw [hsettled.1] at hpending
  exact ⟨List.length_eq_zero_iff.mp (by omega), List.length_eq_zero_iff.mp (by omega)⟩

theorem threadStep_counted {action : Action T} (hcounted : s.Counted)
    (hstep : s.threadStep action = some s') : s'.Counted := by
  obtain ⟨hinflight, hpending, hregistered⟩ := hcounted
  cases action with
  | enterSection expected =>
      simp only [threadStep, Gate.workSection] at hstep
      split at hstep
      · cases hstep
        exact ⟨hinflight, hpending, hregistered⟩
      · rename_i gate hgate
        split at hgate
        · cases hgate
        split at hgate
        · cases hgate
        cases hgate
        cases hstep
        exact ⟨by simp [hinflight], hpending, hregistered⟩
  | leaveSection expected =>
      simp only [threadStep, Option.ite_none_right_eq_some] at hstep
      obtain ⟨hmem, hstep⟩ := hstep
      cases hstep
      refine ⟨?_, hpending, hregistered⟩
      simp [Gate.leaveSection, hinflight, List.length_erase_of_mem hmem]
  | admitConnect =>
      simp only [threadStep, Registry.admission] at hstep
      split at hstep
      · cases hstep
        exact ⟨hinflight, hpending, hregistered⟩
      · rename_i registry hadmit
        simp only [Option.ite_none_left_eq_some] at hadmit
        cases hadmit.2
        cases hstep
        exact ⟨hinflight, by simp [hpending]; omega, hregistered⟩
  | openHandle id =>
      simp only [threadStep, Option.ite_none_right_eq_some] at hstep
      obtain ⟨hmem, hstep⟩ := hstep
      cases hstep
      have hlen := List.length_erase_of_mem hmem
      have hpos := List.length_pos_of_mem hmem
      refine ⟨hinflight, ?_, ?_⟩
      · simp only [List.length_cons]
        omega
      · intro other hother
        rcases List.mem_cons.mp hother with rfl | hother
        · exact .inr List.mem_cons_self
        · exact (hregistered other hother).imp_right (List.mem_cons_of_mem _)
  | registerConnection id =>
      simp only [threadStep, Option.ite_none_right_eq_some] at hstep
      obtain ⟨hmem, hstep⟩ := hstep
      cases hstep
      have hlen := List.length_erase_of_mem hmem
      have hpos := List.length_pos_of_mem hmem
      refine ⟨hinflight, ?_, ?_⟩
      · simp only [Registry.register]
        omega
      · intro other hother
        by_cases hsame : other = id
        · exact .inl (by simp [Registry.register, hsame])
        · rcases hregistered other hother with hopen | hopened
          · exact .inl (List.mem_cons_of_mem _ hopen)
          · exact .inr ((List.mem_erase_of_ne hsame).mpr hopened)
  | failConnect id =>
      simp only [threadStep] at hstep
      split at hstep
      · rename_i hmem
        cases hstep
        have hlen := List.length_erase_of_mem hmem
        have hpos := List.length_pos_of_mem hmem
        refine ⟨hinflight, ?_, ?_⟩
        · simp only [Registry.abandon]
          omega
        · intro other hother
          obtain ⟨hother, hne⟩ := List.mem_filter.mp hother
          have hne : other ≠ id := by simpa using hne
          exact (hregistered other hother).imp_right (List.mem_erase_of_ne hne).mpr
      · simp only [Option.ite_none_right_eq_some] at hstep
        obtain ⟨hmem, hstep⟩ := hstep
        cases hstep
        have hlen := List.length_erase_of_mem hmem
        have hpos := List.length_pos_of_mem hmem
        refine ⟨hinflight, ?_, hregistered⟩
        simp only [Registry.abandon]
        omega
  | closeHandle id =>
      simp only [threadStep, Option.ite_none_left_eq_some] at hstep
      cases hstep.2
      exact ⟨hinflight, hpending, fun other hother => hregistered other (List.mem_filter.mp hother).1⟩
  | deregister id =>
      simp only [threadStep, Option.some.injEq] at hstep
      subst hstep
      refine ⟨hinflight, ?_, ?_⟩
      · simp only [Registry.deregisterIfClosed]
        split <;> exact hpending
      · intro other hother
        simp only [Registry.deregisterIfClosed]
        split
        · exact hregistered other hother
        · rename_i hclosed
          have hne : other ≠ id := fun heq => hclosed (heq ▸ hother)
          exact (hregistered other hother).imp_left fun hopen =>
            List.mem_filter.mpr ⟨hopen, by simpa using hne⟩
  | _ => cases hstep

theorem threadStep_spares {action : Action T} (hcounted : s.Counted)
    (hstep : s.threadStep action = some s') : Spares own s s' := by
  cases action with
  | enterSection expected =>
      simp only [threadStep, Gate.workSection] at hstep
      split at hstep
      · cases hstep
        exact Spares.refl s
      · rename_i gate hgate
        split at hgate
        · cases hgate
        rename_i hactive
        split at hgate
        · cases hgate
        cases hgate
        cases hstep
        exact ⟨rfl, rfl, rfl, rfl, rfl, fun h _ => absurd h hactive, fun _ h => h⟩
  | leaveSection expected =>
      simp only [threadStep, Option.ite_none_right_eq_some] at hstep
      cases hstep.2
      refine ⟨rfl, rfl, rfl, rfl, rfl, fun _ hdrained => ?_, fun _ h => h⟩
      simp [Gate.leaveSection, hdrained]
  | admitConnect =>
      simp only [threadStep, Registry.admission] at hstep
      split at hstep
      · cases hstep
        exact Spares.refl s
      · rename_i registry hadmit
        simp only [Option.ite_none_left_eq_some] at hadmit
        cases hadmit.2
        cases hstep
        exact ⟨rfl, rfl, rfl, rfl, rfl, fun _ h => h, fun h _ => absurd h hadmit.1⟩
  | openHandle id =>
      simp only [threadStep, Option.ite_none_right_eq_some] at hstep
      cases hstep.2
      exact ⟨rfl, rfl, rfl, rfl, rfl, fun _ h => h, fun _ h => h⟩
  | registerConnection id =>
      simp only [threadStep, Option.ite_none_right_eq_some] at hstep
      obtain ⟨hmem, hstep⟩ := hstep
      cases hstep
      refine ⟨rfl, rfl, rfl, rfl, rfl, fun _ h => h, fun _ hsettled => ?_⟩
      rw [(hcounted.nothing_pending hsettled).2] at hmem
      cases hmem
  | failConnect id =>
      simp only [threadStep] at hstep
      split at hstep
      · rename_i hmem
        cases hstep
        refine ⟨rfl, rfl, rfl, rfl, rfl, fun _ h => h, fun _ hsettled => ?_⟩
        rw [(hcounted.nothing_pending hsettled).2] at hmem
        cases hmem
      · simp only [Option.ite_none_right_eq_some] at hstep
        obtain ⟨hmem, hstep⟩ := hstep
        cases hstep
        refine ⟨rfl, rfl, rfl, rfl, rfl, fun _ h => h, fun _ hsettled => ?_⟩
        rw [(hcounted.nothing_pending hsettled).1] at hmem
        cases hmem
  | closeHandle id =>
      simp only [threadStep, Option.ite_none_left_eq_some] at hstep
      cases hstep.2
      exact ⟨rfl, rfl, rfl, rfl, rfl, fun _ h => h, fun _ h => h⟩
  | deregister id =>
      simp only [threadStep, Option.some.injEq] at hstep
      subst hstep
      refine ⟨rfl, rfl, rfl, rfl, ?_, fun _ h => h, fun _ hsettled => ?_⟩
      · simp only [Registry.deregisterIfClosed]
        split <;> rfl
      · simp only [Registry.deregisterIfClosed]
        split
        · exact hsettled
        · exact ⟨hsettled.1, fun other hother => hsettled.2 other (List.mem_filter.mp hother).1⟩
  | _ => cases hstep

/-! ## The phases of the swap -/

/-- Every planned directory is replaced, the others are as they were. -/
def Replaced (files : Files String T) (s : System T) : Prop :=
  ∃ plan, restorePlan files.extracted backupDirectories = some plan ∧
    ∀ name, s.files.data name = if name ∈ plan then files.extracted name else files.data name

/-- The directories and the generation are as they were. -/
def Kept (files : Files String T) (generation : Nat) (s : System T) : Prop :=
  s.files.data = files.data ∧ s.gate.generation = generation

/-- Both gates are closed and nothing is left inside. -/
structure Emptied (own : Nat) (s : System T) : Prop where
  active : s.gate.active = true
  drained : s.gate.inflight = 0
  quiesced : s.registry.quiesced = true
  settled : s.registry.Settled own

/-- The gates, the directories and the generation at each phase of the swap. -/
def AtPhase (own : Nat) (files : Files String T) (generation : Nat) (s : System T) : Prop :=
  match s.phase with
  | .beginMaintenance =>
      s.gate.active = false ∧ s.registry.quiesced = false ∧ s.files = files ∧
        s.gate.generation = generation
  | .draining =>
      s.gate.active = true ∧ s.registry.quiesced = false ∧ s.files = files ∧
        s.gate.generation = generation
  | .beginQuiesce =>
      s.gate.active = true ∧ s.gate.inflight = 0 ∧ s.registry.quiesced = false ∧
        s.files = files ∧ s.gate.generation = generation
  | .polling | .waiting =>
      s.gate.active = true ∧ s.gate.inflight = 0 ∧ s.registry.quiesced = true ∧
        s.files = files ∧ s.gate.generation = generation
  | .closeOwn | .applying => Emptied own s ∧ s.files = files ∧ s.gate.generation = generation
  | .confirming => Emptied own s ∧ Replaced files s ∧ s.gate.generation = generation
  | .endQuiesce outcome =>
      outcome = .failed ∧ s.gate.active = true ∧ s.registry.quiesced = true ∧
        Kept files generation s
  | .endMaintenance outcome =>
      (outcome = .busy ∨ outcome = .failed) ∧ s.gate.active = true ∧
        s.registry.quiesced = false ∧ Kept files generation s
  | .done .busy | .done .failed =>
      s.gate.active = false ∧ s.registry.quiesced = false ∧ Kept files generation s
  | .done .rollbackFailed => Emptied own s ∧ s.gate.generation = generation
  | .done .restored => Emptied own s ∧ Replaced files s ∧ s.gate.generation = generation + 1

theorem Emptied.spares (hempty : Emptied own s) (hspares : Spares own s s') : Emptied own s' where
  active := hspares.active.trans hempty.active
  drained := hspares.drained hempty.active hempty.drained
  quiesced := hspares.quiesced.trans hempty.quiesced
  settled := hspares.settled hempty.quiesced hempty.settled

theorem AtPhase.spares (hphase : AtPhase own files generation s) (hspares : Spares own s s') :
    AtPhase own files generation s' := by
  have hempty : Emptied own s → Emptied own s' := fun hempty => hempty.spares hspares
  have hactive := hspares.active
  have hdrained := hspares.drained
  simp only [AtPhase, Replaced, Kept, hspares.phase, hspares.files, hspares.generation,
    hspares.quiesced, hactive] at hphase ⊢
  split at hphase <;> tauto

theorem closeOwn_counted (outcome : CloseOutcome) (hcounted : s.Counted) :
    (s.closeOwn own outcome).Counted := by
  obtain ⟨hinflight, hpending, hregistered⟩ := hcounted
  cases outcome with
  | raised => exact ⟨hinflight, hpending, hregistered⟩
  | stillOpen => exact ⟨hinflight, hpending, hregistered⟩
  | closed =>
      have hgone : own ∉ s.handles.filter (· ≠ own) := by simp
      refine ⟨hinflight, ?_, ?_⟩
      · simpa [closeOwn, Registry.deregisterIfClosed, hgone] using hpending
      · intro other hother
        obtain ⟨hother, hne⟩ := List.mem_filter.mp hother
        simp only [closeOwn, Registry.deregisterIfClosed, hgone, if_false]
        exact (hregistered other hother).imp_left fun hopen => List.mem_filter.mpr ⟨hopen, hne⟩

theorem closeOwn_atPhase (outcome : CloseOutcome) (hempty : Emptied own s) (hfiles : s.files = files)
    (hgeneration : s.gate.generation = generation) :
    AtPhase own files generation (s.closeOwn own outcome) := by
  cases outcome with
  | raised =>
      exact ⟨rfl, hempty.active, hempty.quiesced, congrArg Files.data hfiles, hgeneration⟩
  | stillOpen =>
      exact ⟨⟨hempty.active, hempty.drained, hempty.quiesced, hempty.settled⟩, hfiles, hgeneration⟩
  | closed =>
      have hgone : own ∉ s.handles.filter (· ≠ own) := by simp
      refine ⟨⟨hempty.active, hempty.drained, ?_, ?_⟩, hfiles, hgeneration⟩
      · simpa [closeOwn, Registry.deregisterIfClosed, hgone] using hempty.quiesced
      · simp only [closeOwn, Registry.deregisterIfClosed, hgone, if_false]
        exact ⟨hempty.settled.1, fun id hid => hempty.settled.2 id (List.mem_filter.mp hid).1⟩

theorem applyRestore_counted (faults : Faults String T) (hcounted : s.Counted) :
    (s.applyRestore faults).Counted := by
  obtain ⟨hinflight, hpending, hregistered⟩ := hcounted
  simp only [applyRestore]
  split <;> exact ⟨hinflight, hpending, hregistered⟩

theorem applyRestore_atPhase (faults : Faults String T) (hempty : Emptied own s)
    (hfiles : s.files = files) (hgeneration : s.gate.generation = generation) :
    AtPhase own files generation (s.applyRestore faults) := by
  have hspec := applyRestore_spec backupDirectories_nodup faults files
  have hstill : ∀ {s' : System T}, s'.gate = s.gate → s'.registry = s.registry → Emptied own s' :=
    fun hgate hregistry => ⟨hgate ▸ hempty.active, hgate ▸ hempty.drained,
      hregistry ▸ hempty.quiesced, hregistry ▸ hempty.settled⟩
  simp only [applyRestore, hfiles]
  cases hresult : (Restore.applyRestore backupDirectories faults files).1 with
  | restored =>
      rw [hresult] at hspec
      exact ⟨hstill rfl rfl, hspec, hgeneration⟩
  | rollbackFailed => exact ⟨hstill rfl rfl, hgeneration⟩
  | refused =>
      rw [hresult] at hspec
      exact ⟨rfl, hempty.active, hempty.quiesced, hspec, hgeneration⟩
  | rolledBack =>
      rw [hresult] at hspec
      exact ⟨rfl, hempty.active, hempty.quiesced, hspec, hgeneration⟩

theorem prune_counted (hcounted : s.Counted) (phase : SwapPhase) :
    ({ s with registry := s.registry.prune s.handles, phase := phase } : System T).Counted := by
  obtain ⟨hinflight, hpending, hregistered⟩ := hcounted
  refine ⟨hinflight, hpending, fun id hid => ?_⟩
  exact (hregistered id hid).imp_left fun hopen =>
    List.mem_filter.mpr ⟨hopen, by simpa using hid⟩

/-- A step of the swap keeps the counters and leads to the next phase. -/
theorem swapStep_sound {action : Action T} (hcounted : s.Counted)
    (hphase : AtPhase own files generation s) (hstep : s.swapStep own s.phase action = some s') :
    s'.Counted ∧ AtPhase own files generation s' := by
  obtain ⟨hinflight, hpending, hregistered⟩ := id hcounted
  unfold AtPhase at hphase
  cases hat : s.phase with
  | beginMaintenance =>
      rw [hat] at hphase hstep
      obtain ⟨hactive, hquiesced, hfiles, hgeneration⟩ := hphase
      cases action with
      | beginMaintenance =>
          simp only [swapStep, Gate.beginMaintenance, hactive, Bool.false_eq_true, if_false,
            Option.some.injEq] at hstep
          subst hstep
          exact ⟨⟨hinflight, hpending, hregistered⟩, rfl, hquiesced, hfiles, hgeneration⟩
      | _ => cases hstep
  | draining =>
      rw [hat] at hphase hstep
      obtain ⟨hactive, hquiesced, hfiles, hgeneration⟩ := hphase
      cases action with
      | drained =>
          simp only [swapStep, Option.ite_none_right_eq_some] at hstep
          obtain ⟨hdrained, hstep⟩ := hstep
          cases hstep
          exact ⟨⟨hinflight, hpending, hregistered⟩, hactive, hdrained, hquiesced, hfiles,
            hgeneration⟩
      | drainTimeout =>
          simp only [swapStep, Option.ite_none_right_eq_some] at hstep
          cases hstep.2
          exact ⟨⟨hinflight, hpending, hregistered⟩, rfl, hquiesced,
            congrArg Files.data hfiles, hgeneration⟩
      | _ => cases hstep
  | beginQuiesce =>
      rw [hat] at hphase hstep
      obtain ⟨hactive, hdrained, hquiesced, hfiles, hgeneration⟩ := hphase
      cases action with
      | beginQuiesce =>
          simp only [swapStep, Registry.beginQuiesce, hquiesced, Bool.false_eq_true, if_false,
            Option.some.injEq] at hstep
          subst hstep
          exact ⟨⟨hinflight, hpending, hregistered⟩, hactive, hdrained, rfl, hfiles, hgeneration⟩
      | _ => cases hstep
  | polling =>
      rw [hat] at hphase hstep
      obtain ⟨hactive, hdrained, hquiesced, hfiles, hgeneration⟩ := hphase
      cases action with
      | poll =>
          simp only [swapStep, Option.some.injEq] at hstep
          subst hstep
          refine ⟨prune_counted hcounted _, ?_⟩
          by_cases hsettled : (s.registry.prune s.handles).Settled own
          · simp only [AtPhase, hsettled, if_true]
            exact ⟨⟨hactive, hdrained, hquiesced, hsettled⟩, hfiles, hgeneration⟩
          · simp only [AtPhase, hsettled, if_false]
            exact ⟨hactive, hdrained, hquiesced, hfiles, hgeneration⟩
      | _ => cases hstep
  | waiting =>
      rw [hat] at hphase hstep
      obtain ⟨hactive, hdrained, hquiesced, hfiles, hgeneration⟩ := hphase
      cases action with
      | sleep =>
          cases hstep
          exact ⟨⟨hinflight, hpending, hregistered⟩, hactive, hdrained, hquiesced, hfiles,
            hgeneration⟩
      | quiesceTimeout =>
          cases hstep
          exact ⟨⟨hinflight, hpending, hregistered⟩, .inl rfl, hactive, rfl,
            congrArg Files.data hfiles, hgeneration⟩
      | _ => cases hstep
  | closeOwn =>
      rw [hat] at hphase hstep
      obtain ⟨hempty, hfiles, hgeneration⟩ := hphase
      cases action with
      | closeOwn outcome =>
          cases hstep
          exact ⟨closeOwn_counted outcome hcounted,
            closeOwn_atPhase outcome hempty hfiles hgeneration⟩
      | _ => cases hstep
  | applying =>
      rw [hat] at hphase hstep
      obtain ⟨hempty, hfiles, hgeneration⟩ := hphase
      cases action with
      | applyRestore faults =>
          cases hstep
          exact ⟨applyRestore_counted faults hcounted,
            applyRestore_atPhase faults hempty hfiles hgeneration⟩
      | _ => cases hstep
  | confirming =>
      rw [hat] at hphase hstep
      obtain ⟨hempty, hreplaced, hgeneration⟩ := hphase
      cases action with
      | confirmDataReplaced =>
          -- maintenance is active here, so the confirmation cannot fail
          simp only [swapStep, Gate.confirmDataReplaced, hempty.active, if_true,
            Option.some.injEq] at hstep
          subst hstep
          refine ⟨⟨hinflight, hpending, hregistered⟩, ?_, hreplaced, congrArg (· + 1) hgeneration⟩
          exact ⟨rfl, hempty.drained, hempty.quiesced, hempty.settled⟩
      | _ => cases hstep
  | endQuiesce outcome =>
      rw [hat] at hphase hstep
      obtain ⟨rfl, hactive, hquiesced, hkept⟩ := hphase
      cases action with
      | endQuiesce =>
          cases hstep
          exact ⟨⟨hinflight, hpending, hregistered⟩, .inr rfl, hactive, rfl, hkept⟩
      | _ => cases hstep
  | endMaintenance outcome =>
      rw [hat] at hphase hstep
      obtain ⟨houtcome, hactive, hquiesced, hkept⟩ := hphase
      cases action with
      | endMaintenance =>
          cases hstep
          refine ⟨⟨hinflight, hpending, hregistered⟩, ?_⟩
          rcases houtcome with rfl | rfl <;> exact ⟨rfl, hquiesced, hkept⟩
      | _ => cases hstep
  | done outcome =>
      rw [hat] at hstep
      cases action <;> cases hstep

/-- The invariant of a run of the system. -/
structure Sound (own : Nat) (files : Files String T) (generation : Nat) (s : System T) : Prop where
  counted : s.Counted
  phase : AtPhase own files generation s

theorem initial_sound (own : Nat) (files : Files String T) (generation : Nat) :
    Sound own files generation (initial files generation) where
  counted := ⟨rfl, rfl, by simp [initial]⟩
  phase := ⟨rfl, rfl, rfl, rfl⟩

theorem step_sound {action : Action T} (hsound : Sound own files generation s)
    (hstep : s.step own action = some s') : Sound own files generation s' := by
  rcases Option.or_eq_some_iff.mp hstep with hthread | ⟨-, hswap⟩
  · exact ⟨threadStep_counted hsound.counted hthread,
      hsound.phase.spares (threadStep_spares hsound.counted hthread)⟩
  · obtain ⟨hcounted, hphase⟩ := swapStep_sound hsound.counted hsound.phase hswap
    exact ⟨hcounted, hphase⟩

theorem run_sound {acts : List (Action T)} (hsound : Sound own files generation s)
    (hrun : run (step own) s acts = some s') : Sound own files generation s' :=
  run_invariant (fun hsound hnext => step_sound hsound hnext) hsound hrun

/-! ## What holds of a restore -/

/-- Nothing but the request's own connection uses the data. -/
def NoLiveWork (own : Nat) (s : System T) : Prop :=
  s.sections = [] ∧ s.connecting = [] ∧ s.opened = [] ∧ ∀ id ∈ s.handles, id = own

/-- Every new section and every new connection is refused. -/
def GatesClosed (s : System T) : Prop :=
  (∀ expected, s.gate.workSection expected = .error .maintenanceActive) ∧ s.registry.admission = none

/-- The phases from the closing of the second gate to the lifting of the first. -/
def HoldsGates : SwapPhase → Prop
  | .polling | .waiting | .closeOwn | .applying | .confirming | .endQuiesce _
  | .done .restored | .done .rollbackFailed => True
  | _ => False

/-- No gate refuses anybody, but for stale work. -/
def GatesLifted (s : System T) : Prop := s.gate.active = false ∧ s.registry.quiesced = false

/-- The original directories are in place and the restore left no trace. -/
def NothingRestored (files : Files String T) (generation : Nat) (s : System T) : Prop :=
  s.files.data = files.data ∧ GatesLifted s ∧ s.gate.generation = generation

/-- The planned directories are replaced and the process awaits its restart. -/
def DataReplaced (files : Files String T) (generation : Nat) (s : System T) : Prop :=
  Replaced files s ∧ GatesClosed s ∧ s.gate.generation = generation + 1

/-- The roll back failed and the process stays closed. -/
def RollbackLost (generation : Nat) (s : System T) : Prop :=
  s.phase = .done .rollbackFailed ∧ GatesClosed s ∧ s.gate.generation = generation

theorem Emptied.noLiveWork (hempty : Emptied own s) (hcounted : s.Counted) : NoLiveWork own s := by
  obtain ⟨hconnecting, hopened⟩ := hcounted.nothing_pending hempty.settled
  have hsections : s.sections.length = 0 := hcounted.inflight.symm.trans hempty.drained
  refine ⟨List.length_eq_zero_iff.mp hsections, hconnecting, hopened, fun id hid => ?_⟩
  rcases hcounted.registered id hid with hopen | hmem
  · exact hempty.settled.2 id hopen
  · rw [hopened] at hmem
    cases hmem

theorem gatesClosed_of (hactive : s.gate.active = true) (hquiesced : s.registry.quiesced = true) :
    GatesClosed s :=
  ⟨fun expected => by simp [Gate.workSection, hactive], by simp [Registry.admission, hquiesced]⟩

theorem Emptied.gatesClosed (hempty : Emptied own s) : GatesClosed s :=
  gatesClosed_of hempty.active hempty.quiesced

theorem GatesClosed.not_lifted (hclosed : GatesClosed s) : ¬ GatesLifted s := by
  rintro ⟨-, hquiesced⟩
  have hadmit := hclosed.2
  simp [Registry.admission, hquiesced] at hadmit

/-- Exactly one of three conditions holds. -/
def ExactlyOne (p q r : Prop) : Prop := (p ∧ ¬ q ∧ ¬ r) ∨ (¬ p ∧ q ∧ ¬ r) ∨ (¬ p ∧ ¬ q ∧ r)

theorem Sound.outcome (hsound : Sound own files generation s) {outcome : SwapOutcome}
    (hdone : s.phase = .done outcome) :
    ExactlyOne (NothingRestored files generation s) (DataReplaced files generation s)
      (RollbackLost generation s) := by
  have hphase := hsound.phase
  unfold AtPhase at hphase
  rw [hdone] at hphase
  have hkept : GatesLifted s → Kept files generation s →
      ExactlyOne (NothingRestored files generation s) (DataReplaced files generation s)
        (RollbackLost generation s) := fun hlifted hkept =>
    .inl ⟨⟨hkept.1, hlifted, hkept.2⟩, fun h => h.2.1.not_lifted hlifted,
      fun h => h.2.1.not_lifted hlifted⟩
  cases outcome with
  | busy => exact hkept ⟨hphase.1, hphase.2.1⟩ hphase.2.2
  | failed => exact hkept ⟨hphase.1, hphase.2.1⟩ hphase.2.2
  | rollbackFailed =>
      obtain ⟨hempty, hgeneration⟩ := hphase
      refine .inr (.inr ⟨fun h => hempty.gatesClosed.not_lifted h.2.1, fun h => ?_,
        hdone, hempty.gatesClosed, hgeneration⟩)
      have := h.2.2
      omega
  | restored =>
      obtain ⟨hempty, hreplaced, hgeneration⟩ := hphase
      refine .inr (.inl ⟨fun h => hempty.gatesClosed.not_lifted h.2.1,
        ⟨hreplaced, hempty.gatesClosed, hgeneration⟩, fun h => ?_⟩)
      have := h.2.2
      omega

/-- The generation grows only when the restore is confirmed. -/
theorem Sound.generation_of_not_restored (hsound : Sound own files generation s)
    (hnot : s.phase ≠ .done .restored) : s.gate.generation = generation := by
  have hphase := hsound.phase
  unfold AtPhase at hphase
  cases hat : s.phase with
  | done outcome =>
      rw [hat] at hphase hnot
      cases outcome with
      | restored => exact absurd rfl hnot
      | busy => exact hphase.2.2.2
      | failed => exact hphase.2.2.2
      | rollbackFailed => exact hphase.2
  | beginMaintenance => rw [hat] at hphase; exact hphase.2.2.2
  | draining => rw [hat] at hphase; exact hphase.2.2.2
  | beginQuiesce => rw [hat] at hphase; exact hphase.2.2.2.2
  | polling => rw [hat] at hphase; exact hphase.2.2.2.2
  | waiting => rw [hat] at hphase; exact hphase.2.2.2.2
  | closeOwn => rw [hat] at hphase; exact hphase.2.2
  | applying => rw [hat] at hphase; exact hphase.2.2
  | confirming => rw [hat] at hphase; exact hphase.2.2
  | endQuiesce outcome => rw [hat] at hphase; exact hphase.2.2.2.2
  | endMaintenance outcome => rw [hat] at hphase; exact hphase.2.2.2.2

theorem Sound.gatesClosed (hsound : Sound own files generation s) (hholds : HoldsGates s.phase) :
    GatesClosed s := by
  have hphase := hsound.phase
  unfold AtPhase at hphase
  cases hat : s.phase with
  | polling => rw [hat] at hphase; exact gatesClosed_of hphase.1 hphase.2.2.1
  | waiting => rw [hat] at hphase; exact gatesClosed_of hphase.1 hphase.2.2.1
  | closeOwn => rw [hat] at hphase; exact hphase.1.gatesClosed
  | applying => rw [hat] at hphase; exact hphase.1.gatesClosed
  | confirming => rw [hat] at hphase; exact hphase.1.gatesClosed
  | endQuiesce outcome => rw [hat] at hphase; exact gatesClosed_of hphase.2.1 hphase.2.2.1
  | done outcome =>
      rw [hat] at hphase hholds
      cases outcome with
      | restored => exact hphase.1.gatesClosed
      | rollbackFailed => exact hphase.1.gatesClosed
      | busy => exact hholds.elim
      | failed => exact hholds.elim
  | beginMaintenance => rw [hat] at hholds; exact hholds.elim
  | draining => rw [hat] at hholds; exact hholds.elim
  | beginQuiesce => rw [hat] at hholds; exact hholds.elim
  | endMaintenance outcome => rw [hat] at hholds; exact hholds.elim

theorem Sound.emptied_of_applying (hsound : Sound own files generation s)
    (happlying : s.phase = .applying) : Emptied own s := by
  have hphase := hsound.phase
  unfold AtPhase at hphase
  rw [happlying] at hphase
  exact hphase.1

/-- In every run of the sections, the connections and one `_quiesced_swap`:
the directories are swapped while nothing else uses the data and nothing can
start to, the swap ends in exactly one of three ways, and work read before the
data was replaced is never admitted after it, were the gates lifted or not. -/
theorem restore_excludes_live_work (own : Nat) (files : Files String T) (generation : Nat)
    (acts : List (Action T)) (hrun : run (step own) (initial files generation) acts = some s) :
    (s.phase = .applying → NoLiveWork own s) ∧
      (HoldsGates s.phase → GatesClosed s) ∧
      (∀ outcome, s.phase = .done outcome →
        ExactlyOne (NothingRestored files generation s) (DataReplaced files generation s)
          (RollbackLost generation s)) ∧
      ∀ first second earlier, acts = first ++ second →
        run (step own) (initial files generation) first = some earlier →
          earlier.phase ≠ .done .restored → s.phase = .done .restored →
            ∀ lifted, ∃ refusal,
              ({ s.gate with active := lifted } : Gate).workSection
                (some earlier.gate.generation) = .error refusal := by
  have hsound := run_sound (initial_sound own files generation) hrun
  refine ⟨fun happlying => ?_, hsound.gatesClosed, fun outcome hdone => hsound.outcome hdone, ?_⟩
  · exact (hsound.emptied_of_applying happlying).noLiveWork hsound.counted
  · intro first second earlier _ hfirst hnot hdone lifted
    have hsoundEarlier := run_sound (initial_sound own files generation) hfirst
    have hearlier := hsoundEarlier.generation_of_not_restored hnot
    have hphase := hsound.phase
    unfold AtPhase at hphase
    rw [hdone] at hphase
    have hgrew : s.gate.generation = generation + 1 := hphase.2.2
    cases lifted with
    | true => exact ⟨.maintenanceActive, rfl⟩
    | false => exact ⟨.staleWork, by simp [Gate.workSection, hearlier, hgrew]⟩

/-- An archive with one directory, and data with the same one. -/
def oneDirectory : Files String Nat where
  extracted name := if name = "tsdb" then some (.directory 2) else none
  data name := if name = "tsdb" then some (.directory 1) else none
  rollback _ := none

def noFaults : Faults String Nat where
  prepare := false
  away _ := false
  into _ := false
  remove _ := false
  leftover _ := none
  back _ := false
  clear _ := false

/-- The swap waits for a probe, refuses a late connection, closes the request's
own and replaces the directory. -/
theorem restore_excludes_live_work_replaced :
    ∃ s : System Nat,
      run (step 0) (initial oneDirectory 7)
        [.admitConnect, .openHandle 0, .registerConnection 0, .enterSection (some 7),
          .beginMaintenance, .leaveSection (some 7), .drained, .beginQuiesce, .admitConnect, .poll,
          .closeOwn .closed, .applyRestore noFaults, .confirmDataReplaced] = some s ∧
      s.phase = .done .restored ∧
      ExactlyOne (NothingRestored oneDirectory 7 s) (DataReplaced oneDirectory 7 s)
        (RollbackLost 7 s) := by
  have hany : (run (step 0) (initial oneDirectory 7)
      [.admitConnect, .openHandle 0, .registerConnection 0, .enterSection (some 7),
        .beginMaintenance, .leaveSection (some 7), .drained, .beginQuiesce, .admitConnect, .poll,
        .closeOwn .closed, .applyRestore noFaults, .confirmDataReplaced]).any
      (fun s => decide (s.phase = .done .restored)) = true := by decide +kernel
  obtain ⟨s, hrun, hphase⟩ := (Option.any_eq_true ..).mp hany
  have hdone : s.phase = .done .restored := of_decide_eq_true hphase
  exact ⟨s, hrun, hdone, (restore_excludes_live_work 0 oneDirectory 7 _ hrun).2.2.1 _ hdone⟩

end System

end Justup.Restore
