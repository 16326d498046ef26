import Justup.Monitor.AllClear

/-!
# No outage is missed

A service that keeps failing for the whole timeout has its alert, as long as the clock does
not go back and the watch over the target is not interrupted.
-/

namespace Justup.Monitor

open Justup.Alerts
open Justup.Lib.Table Justup.Lib.Transition Justup.Lib.History Justup.Lib.Obligation
open Justup.Store (Text)

namespace System

variable {folding : Folding} {sys : System} {tid : Nat} {service : Service}

/-- The cycle comes as far as to say how the services are. -/
def watches (sys : System) (cycle : Cycle) : Bool :=
  (sys.targets cycle.tid).any fun cfg => cfg.isEnabled && cycle.reach ≠ .cert

/-- The service does not fail any more, or the watch over the target is interrupted. -/
def interrupts (tid : Nat) (service : Service) : System × Action → Bool
  | (sys, .cycle cycle) =>
      cycle.tid = tid && watches sys cycle && !(checks sys cycle service && !cycle.answers service)
  | (_, .skip other) => other = tid
  | (_, .restart) => true
  | (_, .forget other) => other = tid
  | (_, .apply rows _) => tid ∉ rows.map Prod.fst
  | _ => false

/-- A service that is down stays so, and so does an alert that is open. -/
def Stays (service : Service) (old new : Option Runtime) : Prop :=
  ∀ rt, old = some rt → ∃ rt', new = some rt' ∧
    (rt'.currentAlertId = none → rt.currentAlertId = none) ∧
      ∀ since, rt.downSince service = some since → rt'.downSince service = some since

theorem Stays.refl (rt : Option Runtime) : Stays service rt rt :=
  fun rt' hrt => ⟨rt', hrt, id, fun _ => id⟩

theorem Stays.trans {first middle last : Option Runtime} (hfirst : Stays service first middle)
    (hlast : Stays service middle last) : Stays service first last := by
  intro rt hrt
  obtain ⟨rt₁, hrt₁, hopen₁, hdown₁⟩ := hfirst rt hrt
  obtain ⟨rt₂, hrt₂, hopen₂, hdown₂⟩ := hlast rt₁ hrt₁
  exact ⟨rt₂, hrt₂, hopen₁ ∘ hopen₂, fun since => hdown₂ since ∘ hdown₁ since⟩

theorem started_stays (sys : System) (tid other : Nat) :
    Stays service (sys.rt other) ((sys.started tid).rt other) := by
  unfold started
  split
  · rename_i hnone
    intro rt hrt
    have hother : other ≠ tid := by
      rintro rfl
      rw [hrt] at hnone
      cases hnone
    rw [setRt_of_ne _ hother]
    exact Stays.refl _ rt hrt
  · exact .refl _

theorem certStep_stays (sys : System) (cfg : Config) (cycle : Cycle) (snapshot : Snapshot)
    (other : Nat) :
    Stays service (sys.rt other) ((sys.certStep cfg cycle snapshot).rt other) := by
  intro rt hrt
  obtain ⟨hdowns, hcurrent⟩ := certStep_downs sys cfg cycle snapshot other
  rw [hrt] at hdowns hcurrent
  obtain ⟨rt', hrt', hdown⟩ := Option.map_eq_some_iff.mp hdowns
  rw [hrt'] at hcurrent
  refine ⟨rt', hrt', fun hnone => ?_, fun since hsince => ?_⟩
  · exact (Option.some.inj hcurrent).symm.trans hnone
  · rw [hdown]
    exact hsince

theorem statusStep_stays (sys : System) (cfg : Config) (cycle : Cycle) (snapshot : Snapshot)
    {other : Nat} (hup : other = cycle.tid → verdict cfg snapshot service ≠ some true) :
    Stays service (sys.rt other) ((sys.statusStep cfg cycle snapshot).rt other) := by
  unfold statusStep
  split
  · exact .refl _
  · rename_i rt hrt
    by_cases hother : other = cycle.tid
    · subst hother
      rw [setRt_self, hrt]
      intro old hold
      cases hold
      refine ⟨_, rfl, id, fun since hsince => ?_⟩
      dsimp only [Runtime.updateServices]
      rw [hsince]
      unfold updateService
      split
      · exact absurd ‹_› (hup rfl)
      · rfl
      · rfl
    · rw [setRt_of_ne _ hother]
      exact .refl _

theorem Alerted.stays {status : TargetStatus} {now : Int} {rt : Runtime} {next : System}
    (hrt : sys.rt tid = some rt) (halerted : Alerted sys tid status now rt next) {other : Nat}
    (hup : other = tid → status ≠ .up) : Stays service (sys.rt other) (next.rt other) := by
  have hothers {rt' : Runtime} (hnext : next.rt = Function.update sys.rt tid (some rt'))
      (hself : other = tid → Stays service (some rt) (some rt')) :
      Stays service (sys.rt other) (next.rt other) := by
    rw [hnext]
    by_cases hother : other = tid
    · rw [hother, Function.update_self, hrt]
      exact hself hother
    · rw [Function.update_of_ne hother]
      exact .refl _
  cases halerted with
  | kept hnext hdown hcurrent hdb =>
      refine hothers hnext fun _ old hold => ?_
      cases hold
      exact ⟨_, rfl, fun hnone => hcurrent.symm.trans hnone, fun since hsince => by
        rw [hdown]
        exact hsince⟩
  | opened targetName hnext hdown hnone hcurrent halerting hdb =>
      refine hothers hnext fun _ old hold => ?_
      cases hold
      exact ⟨_, rfl, fun _ => hnone, fun since hsince => by
        rw [hdown]
        exact hsince⟩
  | closed hnext hup' hdown hcurrent hnames =>
      exact hothers hnext fun hself => absurd hup' (hup hself)

/-! ## A cycle in which the service fails -/

theorem overallStatus_down {cfg : Config} {answers : Service → Bool} {certDaysLeft : Option Int}
    (hchecks : cfg.checks service = true) (hfails : answers service = false) :
    overallStatus cfg (cfg.measure answers certDaysLeft) = .down := by
  unfold overallStatus Config.measure
  cases hhttp : cfg.enableHttpCheck <;> cases hping : cfg.enablePing <;>
    cases htcp : cfg.enableTcpConnect <;> cases service <;> simp_all [Config.checks]

theorem verdict_fails {cfg : Config} {answers : Service → Bool} {certDaysLeft : Option Int}
    (hchecks : cfg.checks service = true) (hfails : answers service = false) :
    verdict cfg (cfg.measure answers certDaysLeft) service = some false := by
  have hcert : service ≠ .cert := by
    rintro rfl
    cases hchecks
  rw [verdict_measure hcert, if_pos hchecks, hfails]

/-- What the cycle says of the service, where it comes to say anything. -/
def Failing (sys : System) (tid : Nat) (service : Service) (cycle : Cycle) : Prop :=
  cycle.tid = tid → watches sys cycle = true →
    checks sys cycle service = true ∧ cycle.answers service = false

theorem Failing.answer {cycle : Cycle} (hfailing : Failing sys tid service cycle) {cfg : Config}
    (htarget : sys.targets cycle.tid = some cfg) (henabled : cfg.isEnabled = true)
    (hreach : cycle.reach ≠ .cert) (hself : tid = cycle.tid) :
    cfg.checks service = true ∧ cycle.answers service = false := by
  obtain ⟨hchecks, hfails⟩ := hfailing hself.symm (by simp [watches, htarget, henabled, hreach])
  exact ⟨by simpa [checks, htarget, henabled, hreach] using hchecks, hfails⟩

theorem measured_stays {cfg : Config} {cycle : Cycle}
    (hfails : tid = cycle.tid → cfg.checks service = true ∧ cycle.answers service = false) :
    Stays service (sys.rt tid) ((sys.measured cfg cycle).rt tid) := by
  refine ((started_stays sys cycle.tid tid).trans (certStep_stays _ cfg cycle _ tid)).trans
    (statusStep_stays _ cfg cycle _ fun hself => ?_)
  obtain ⟨hchecks, hanswer⟩ := hfails hself
  rw [verdict_fails hchecks hanswer]
  simp

theorem alertStep_stays {cfg : Config} {cycle : Cycle} {rt : Runtime}
    (hrt : sys.rt cycle.tid = some rt)
    (hfails : tid = cycle.tid → cfg.checks service = true ∧ cycle.answers service = false) :
    Stays service (sys.rt tid) ((sys.alertStep cfg cycle
      (cfg.measure cycle.answers cycle.certDaysLeft)).rt tid) := by
  unfold alertStep
  split
  · exact .refl _
  · refine (maybeAlert_alerted hrt _ _ _ _).stays hrt fun hself => ?_
    obtain ⟨hchecks, hanswer⟩ := hfails hself
    rw [overallStatus_down hchecks hanswer]
    simp

theorem runTarget_stays {cycle : Cycle} (hfailing : Failing sys tid service cycle) :
    Stays service (sys.rt tid) ((sys.runTarget cycle).rt tid) := by
  cases htarget : sys.targets cycle.tid with
  | none =>
      rw [runTarget, htarget]
      exact .refl _
  | some cfg =>
      cases henabled : cfg.isEnabled with
      | false =>
          rw [runTarget_disabled htarget henabled]
          exact started_stays sys cycle.tid tid
      | true =>
          have hanswer := fun hreach => hfailing.answer htarget henabled hreach
          rw [runTarget_eq htarget henabled]
          dsimp only
          split
          · exact (started_stays sys cycle.tid tid).trans (certStep_stays _ cfg cycle _ tid)
          · rename_i hreach
            exact measured_stays (hanswer (by simp [hreach]))
          · rename_i hreach
            obtain ⟨rt, hrt⟩ := measured_rt sys cfg cycle
            exact (measured_stays (hanswer (by simp [hreach]))).trans
              (alertStep_stays hrt (hanswer (by simp [hreach])))

/-- A failure marks the service as down. -/
theorem runTarget_marks {cycle : Cycle} {rt : Runtime} (hrt : sys.rt cycle.tid = some rt)
    (hchecks : checks sys cycle service = true) (hfails : cycle.answers service = false) :
    ∃ rt', (sys.runTarget cycle).rt cycle.tid = some rt' ∧
      (rt'.currentAlertId = none → rt.currentAlertId = none) ∧
        rt'.downSince service = some ((rt.downSince service).getD cycle.now) := by
  obtain ⟨cfg, htarget, hcfg⟩ := (Option.any_eq_true _ _).mp hchecks
  simp only [Bool.and_eq_true, decide_eq_true_eq] at hcfg
  obtain ⟨⟨henabled, hservice⟩, hreach⟩ := hcfg
  obtain ⟨rt', hrt', hcurrent, hdowns⟩ := measured_downs cfg hrt
  have hdown : rt'.downSince service = some ((rt.downSince service).getD cycle.now) := by
    rw [hdowns, verdict_fails hservice hfails]
    rfl
  rw [runTarget_eq htarget henabled]
  dsimp only
  split
  · exact absurd ‹_› hreach
  · exact ⟨rt', hrt', fun hnone => hcurrent.symm.trans hnone, hdown⟩
  · obtain ⟨last, hlast, hopen, hstill⟩ :=
      alertStep_stays hrt' (fun _ => ⟨hservice, hfails⟩) rt' hrt'
    exact ⟨last, hlast, fun hnone => hcurrent.symm.trans (hopen hnone), hstill _ hdown⟩

/-! ## The other steps -/

theorem loadTarget_rt {alerts : List ActiveAlert} {rt : Runtime} (hrt : sys.rt tid = some rt)
    (row : Nat × Config) : (sys.loadTarget folding alerts row).rt tid = some rt := by
  unfold loadTarget
  dsimp only
  split
  · exact hrt
  · rename_i hnone
    have hother : tid ≠ row.1 := by
      rintro rfl
      rw [hrt] at hnone
      cases hnone
    rw [setRt_of_ne _ hother]
    exact hrt

theorem applyRefresh_stays (alerts : List ActiveAlert) {rows : List (Nat × Config)}
    (hrow : tid ∈ rows.map Prod.fst) (minutes : Int) :
    Stays service (sys.rt tid) ((sys.applyRefresh folding alerts rows minutes).rt tid) := by
  have hloaded {rt : Runtime} (rest : List (Nat × Config)) {middle : System}
      (hrt : middle.rt tid = some rt) :
      (rest.foldl (fun (sys : System) row => sys.loadTarget folding alerts row) middle).rt tid =
        some rt := by
    induction rest generalizing middle with
    | nil => exact hrt
    | cons row rest ih => exact ih (loadTarget_rt hrt row)
  intro rt hrt
  have hstart : { sys with metricsTimeoutMinutes := max 1 (min 10 minutes), loaded := none }.rt
      tid = some rt := hrt
  refine ⟨rt, ?_, id, fun _ => id⟩
  unfold applyRefresh forgetOthers
  dsimp only
  rw [if_neg (by simp [hrow])]
  exact hloaded rows hstart

theorem step_stays {elapsed : Int → Int → Rat} {action : Action} {next : System}
    (hcalm : interrupts tid service (sys, action) = false)
    (hnext : sys.step folding elapsed action = some next) :
    Stays service (sys.rt tid) (next.rt tid) := by
  cases action with
  | load fails =>
      rw [step] at hnext
      split at hnext
      · cases hnext
        exact .refl _
      · cases hnext
  | apply rows minutes =>
      obtain ⟨alerts, -, rfl⟩ := Option.map_eq_some_iff.mp hnext
      exact applyRefresh_stays alerts (by simpa [interrupts] using hcalm) minutes
  | cycle cycle =>
      rw [step] at hnext
      split_ifs at hnext
      cases hnext
      refine runTarget_stays fun hself hwatches => ?_
      simpa [interrupts, hself, hwatches] using hcalm
  | skip other =>
      rw [step] at hnext
      split_ifs at hnext
      cases hnext
      have hother : tid ≠ other := by
        rintro rfl
        simp [interrupts] at hcalm
      unfold handleConnectivityIssue
      split
      · split
        · exact .refl _
        · rw [setRt_of_ne _ hother]
          exact .refl _
      · exact .refl _
  | restart => cases hcalm
  | forget other =>
      cases hnext
      have hother : tid ≠ other := by
        rintro rfl
        simp [interrupts] at hcalm
      have hkept : (sys.forgetTarget other).rt tid = sys.rt tid := Function.update_of_ne hother _ _
      rw [hkept]
      exact .refl _
  | acknowledge | acknowledgeAll | deleteByTarget | deleteAll =>
      cases hnext
      exact .refl _

/-! ## Runs -/

/-- The time of the answers that an action brings. -/
def cycleTime : Action → Option Int
  | .cycle cycle => some cycle.now
  | _ => none

/-- The clock does not go back. -/
def Timely (acts : List Action) : Prop := (acts.filterMap cycleTime).Pairwise (· ≤ ·)

instance (acts : List Action) : Decidable (Timely acts) :=
  inferInstanceAs (Decidable (List.Pairwise _ _))

theorem Timely.of_concat {acts : List Action} {action : Action}
    (htimely : Timely (acts ++ [action])) : Timely acts := by
  rw [Timely, List.filterMap_append, List.pairwise_append] at htimely
  exact htimely.1

theorem Timely.le {acts : List Action} {first last : Cycle}
    (htimely : Timely (acts ++ [.cycle last])) (hfirst : .cycle first ∈ acts) :
    first.now ≤ last.now := by
  rw [Timely, List.filterMap_append, List.pairwise_append] at htimely
  exact htimely.2.2 first.now (List.mem_filterMap.mpr ⟨_, hfirst, rfl⟩) last.now
    (by simp [cycleTime])

/-- A service that failed at the time `at_`, and ever after, is marked as down; without an open
alert it is so since that time or before. -/
def Marked (past : List (System × Action)) (sys : System) : Prop :=
  ∀ tid service at_, isOpen (failsAt tid service at_) (interrupts tid service) past = true →
    ∃ rt since, sys.rt tid = some rt ∧ rt.downSince service = some since ∧
      (rt.currentAlertId = none → since ≤ at_)

theorem failsAt_iff {at_ : Int} {entry : System × Action} :
    failsAt tid service at_ entry = true ↔ ∃ cycle, entry.2 = .cycle cycle ∧ cycle.tid = tid ∧
      cycle.now = at_ ∧ checks entry.1 cycle service = true ∧ cycle.answers service = false := by
  obtain ⟨sys, action⟩ := entry
  cases action <;> simp [failsAt, and_assoc]

theorem Marked.step {past : List (System × Action)} (hmarked : Marked past sys)
    (hexplained : Explained past sys) (hinv : sys.Inv folding) {elapsed : Int → Int → Rat}
    {action : Action} {next : System} (htimely : Timely (past.map Prod.snd ++ [action]))
    (hnext : sys.step folding elapsed action = some next) :
    Marked (past ++ [(sys, action)]) next := by
  intro tid service at_ hopen
  rw [isOpen_concat, Bool.or_eq_true, Bool.and_eq_true, Bool.not_eq_true'] at hopen
  obtain hfails | ⟨hopen, hcalm⟩ := hopen
  · obtain ⟨cycle, rfl, rfl, rfl, hchecks, hanswer⟩ := failsAt_iff.mp hfails
    obtain ⟨cfg, htarget, -⟩ := (Option.any_eq_true _ _).mp hchecks
    obtain ⟨rt, hrt⟩ := Option.isSome_iff_exists.mp (hinv.running cycle.tid (by rw [htarget]; rfl))
    obtain ⟨rt', hrt', hcurrent, hdown⟩ := runTarget_marks hrt hchecks hanswer
    rw [System.step] at hnext
    split_ifs at hnext
    cases hnext
    refine ⟨rt', _, hrt', hdown, fun hnone => ?_⟩
    cases hold : rt.downSince service with
    | none => exact le_refl _
    | some since =>
        have hsince := hexplained.since cycle.tid rt hrt (hcurrent hnone) service since hold
        obtain ⟨before, failure, after, hpast, hfailure, -⟩ := isOpen_iff.mp hsince
        obtain ⟨first, hfirst, -, rfl, -⟩ := failsAt_iff.mp hfailure
        refine htimely.le (hfirst ▸ List.mem_map_of_mem ?_)
        simp [hpast]
  · obtain ⟨rt, since, hrt, hdown, hearly⟩ := hmarked tid service at_ hopen
    obtain ⟨rt', hrt', hcurrent, hstill⟩ := step_stays hcalm hnext rt hrt
    exact ⟨rt', since, hrt', hstill since hdown, fun hnone => hearly (hcurrent hnone)⟩

/-- The invariants of a run, with its history. -/
structure Watched (folding : Folding) (past : List (System × Action)) (sys : System) : Prop where
  inv : sys.Inv folding
  explained : Explained past sys
  marked : Timely (past.map Prod.snd) → Marked past sys

theorem Watched.initial : Watched folding [] {} := ⟨.initial, .initial, fun _ => nofun⟩

theorem Watched.step {past : List (System × Action)} (hwatched : Watched folding past sys)
    {elapsed : Int → Int → Rat} {action : Action} (hok : LoadOk sys action) {next : System}
    (hnext : sys.step folding elapsed action = some next) :
    Watched folding (past ++ [(sys, action)]) next where
  inv := hwatched.inv.step hok hnext
  explained := hwatched.explained.step hnext
  marked htimely := by
    rw [List.map_append] at htimely
    exact (hwatched.marked htimely.of_concat).step hwatched.explained hwatched.inv htimely hnext

/-- The service failed at the time `at_`, and whenever it was checked ever after. -/
def FailingSince (past : List (System × Action)) (tid : Nat) (service : Service) (at_ : Int) :
    Prop :=
  ∃ before failure after, past = before ++ failure :: after ∧
    failsAt tid service at_ failure = true ∧
      ∀ later ∈ after, interrupts tid service later = false

/-- An alert that is opened where there was none is a new row. -/
theorem Inv.maybeAlert_creates (hinv : sys.Inv folding) {rt : Runtime}
    (hrt : sys.rt tid = some rt) (hnone : rt.currentAlertId = none) {now : Int}
    (halerting : rt.alertingServices sys.metricsTimeout now ≠ [])
    (hcool : sys.coolingDown tid now = false) {status : TargetStatus} (hknown : status ≠ .unknown)
    (targetName : Text) :
    ∃ alert ∈ (sys.maybeAlert tid targetName status now false).db.alerts,
      isActive alert = true ∧ alert.targetId = tid ∧ alert.startedAt = now ∧
        alert.failedService =
          joined ((rt.alertingServices sys.metricsTimeout now).map Service.name) := by
  obtain ⟨last, hlast, hopen⟩ := hinv.maybeAlert_opens hrt halerting hcool hknown targetName
  have halerted := maybeAlert_alerted hrt targetName status now false
  generalize sys.maybeAlert tid targetName status now false = next at hlast halerted
  have hself {rt' : Runtime} (hnext : next.rt = Function.update sys.rt tid (some rt')) :
      rt'.currentAlertId.isSome = true := by
    rw [hnext, Function.update_self] at hlast
    cases hlast
    exact hopen
  cases halerted with
  | kept hnext hdown hcurrent hdb =>
      have hsome := hself hnext
      rw [hcurrent, hnone] at hsome
      cases hsome
  | opened targetName hnext hdown hnone' hcurrent halerting' hdb =>
      refine ⟨_, hdb ▸ List.mem_concat_self, rfl, rfl, rfl, rfl⟩
  | closed hnext hup hdown hcurrent hnames =>
      have hsome := hself hnext
      rw [hcurrent] at hsome
      cases hsome

end System

end Justup.Monitor
