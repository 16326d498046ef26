import Justup.Monitor.Outage

/-!
# A cycle in which every check succeeds

It ends the alert of the target, unless a service is still marked as down whose check has
been disabled since: nothing clears the mark then.
-/

namespace Justup.Monitor

open Justup.Alerts
open Justup.Lib.Table Justup.Lib.Transition
open Justup.Store (Text)

namespace System

variable {folding : Folding} {sys : System} {tid : Nat}

/-- The writes succeed, the cycle comes to its end, and every check that is enabled succeeds. -/
structure AllUp (cfg : Config) (cycle : Cycle) : Prop where
  reach : cycle.reach = .alert
  stored : cycle.alertFails = false
  up : ∀ service, cfg.checks service = true → cycle.answers service = true

theorem overallStatus_up {cfg : Config} {answers : Service → Bool} {certDaysLeft : Option Int}
    (hup : ∀ service, cfg.checks service = true → answers service = true)
    (hsome : ∃ service, cfg.checks service = true) :
    overallStatus cfg (cfg.measure answers certDaysLeft) = .up := by
  have hhttp := hup .http
  have hping := hup .ping
  have htcp := hup .tcp
  simp only [Config.checks] at hhttp hping htcp
  obtain ⟨service, hservice⟩ := hsome
  unfold overallStatus Config.measure
  cases hcheckHttp : cfg.enableHttpCheck <;> cases hcheckPing : cfg.enablePing <;>
    cases hcheckTcp : cfg.enableTcpConnect <;>
      simp_all [Config.checks]
  cases service <;> simp_all

/-! ## The alert step -/

/-- An id that no alert has. -/
theorem Inv.insertAlert (hinv : sys.Inv folding) (tid : Nat) (targetName failedService : Text)
    (now : Int) :
    ∃ db, sys.insertAlert tid targetName failedService now false = some db := by
  have hfree : ¬ (sys.db.alerts.any fun old => old.id = sys.nextId) = true := by
    rw [List.any_eq_true]
    rintro ⟨old, hold, hsame⟩
    exact absurd (hinv.ids old hold) (by simp [of_decide_eq_true hsame])
  unfold System.insertAlert createAlert
  exact ⟨_, if_neg hfree⟩

/-- Services that have been down for the whole timeout: an alert is open afterwards. -/
theorem Inv.maybeAlert_opens (hinv : sys.Inv folding) {rt : Runtime} (hrt : sys.rt tid = some rt)
    {now : Int} (halerting : rt.alertingServices sys.metricsTimeout now ≠ [])
    (hcool : sys.coolingDown tid now = false) {status : TargetStatus} (hknown : status ≠ .unknown)
    (targetName : Text) :
    ∃ rt', (sys.maybeAlert tid targetName status now false).rt tid = some rt' ∧
      rt'.currentAlertId.isSome = true := by
  have hopen (counted : Runtime) : ∃ rt', (sys.openAlert tid targetName now
      (rt.alertingServices sys.metricsTimeout now) false counted).rt tid = some rt' ∧
        rt'.currentAlertId.isSome = true := by
    obtain ⟨db, hdb⟩ := hinv.insertAlert tid targetName
      (joined ((rt.alertingServices sys.metricsTimeout now).map Service.name)) now
    unfold System.openAlert
    dsimp only
    split
    · rename_i id hid
      exact ⟨_, setRt_self _, by rw [hid]; rfl⟩
    · rw [hdb]
      exact ⟨_, setRt_self _, rfl⟩
  unfold System.maybeAlert
  rw [hrt]
  dsimp only [Option.getD_some]
  rw [if_neg hknown, if_neg (by simp [halerting])]
  split
  · rw [if_neg halerting, hcool]
    exact hopen _
  · rw [if_neg halerting, hcool]
    exact hopen _

/-- The target is up and nothing is alerting: no alert is open afterwards. -/
theorem maybeAlert_closes {rt : Runtime} (hrt : sys.rt tid = some rt) {now : Int}
    (halerting : rt.alertingServices sys.metricsTimeout now = []) (targetName : Text) :
    ∃ rt', (sys.maybeAlert tid targetName .up now false).rt tid = some rt' ∧
      rt'.currentAlertId = none := by
  unfold maybeAlert
  rw [hrt]
  dsimp only [Option.getD_some]
  rw [if_neg (by simp), if_neg (by simp), halerting]
  split
  · rename_i hnone
    exact ⟨_, setRt_self _, hnone⟩
  · rw [if_pos rfl, closeAlert]
    dsimp only
    rw [if_neg (by simp)]
    split <;> exact ⟨_, setRt_self _, rfl⟩

/-! ## The cycle -/

/-- What is down when the alert step comes. -/
theorem measured_downs (cfg : Config) {cycle : Cycle} {rt : Runtime}
    (hrt : sys.rt cycle.tid = some rt) :
    ∃ rt', (sys.measured cfg cycle).rt cycle.tid = some rt' ∧
      rt'.currentAlertId = rt.currentAlertId ∧
      ∀ service, rt'.downSince service = updateService cycle.now
        (verdict cfg (cfg.measure cycle.answers cycle.certDaysLeft) service)
          (rt.downSince service) := by
  have hstarted : sys.started cycle.tid = sys := by
    rw [started, hrt]
  obtain ⟨hdowns, hcurrent⟩ := certStep_downs sys cfg cycle
    (cfg.measure cycle.answers cycle.certDaysLeft) cycle.tid
  rw [hrt] at hdowns hcurrent
  obtain ⟨rt', hrt', hdown⟩ := Option.map_eq_some_iff.mp hdowns
  rw [hrt'] at hcurrent
  unfold measured statusStep
  dsimp only
  rw [hstarted, hrt']
  exact ⟨_, setRt_self _, Option.some.inj hcurrent, fun service => by
    rw [← hdown]
    rfl⟩

theorem Inv.measured (hinv : sys.Inv folding) (hloaded : sys.loaded = none) {cfg : Config}
    {cycle : Cycle} {rt : Runtime} (hrt : sys.rt cycle.tid = some rt) :
    (sys.measured cfg cycle).Inv folding := by
  have hstarted : sys.started cycle.tid = sys := by
    rw [started, hrt]
  unfold System.measured
  dsimp only
  rw [hstarted]
  exact (hinv.certStep hloaded cfg cycle _).statusStep cfg cycle _

theorem runTarget_allUp {cfg : Config} {cycle : Cycle} (htarget : sys.targets cycle.tid = some cfg)
    (henabled : cfg.isEnabled = true) (hsome : ∃ service, cfg.checks service = true)
    (hup : AllUp cfg cycle) :
    sys.runTarget cycle = (sys.measured cfg cycle).maybeAlert cycle.tid cfg.name .up
      cycle.alertNow false := by
  rw [runTarget_eq htarget henabled, hup.reach]
  dsimp only [alertStep]
  rw [overallStatus_up hup.up hsome, if_neg (by simp), hup.stored]

/-- Without a stale mark nothing is down after the checks. -/
theorem measured_allUp {cfg : Config} {cycle : Cycle} {rt : Runtime}
    (hrt : sys.rt cycle.tid = some rt) (hcert : rt.downSince .cert = none)
    (hup : AllUp cfg cycle)
    (hmarks : ∀ service, (rt.downSince service).isSome → cfg.checks service = true) (now : Int) :
    ∃ rt', (sys.measured cfg cycle).rt cycle.tid = some rt' ∧
      rt'.alertingServices (sys.measured cfg cycle).metricsTimeout now = [] := by
  obtain ⟨rt', hrt', -, hdowns⟩ := measured_downs cfg hrt
  refine ⟨rt', hrt', List.filter_eq_nil_iff.mpr fun service _ => ?_⟩
  have hnone : rt'.downSince service = none := by
    rw [hdowns]
    by_cases hself : service = .cert
    · rw [hself, hcert]
      obtain hverdict | hverdict := verdict_cert cfg
        (cfg.measure cycle.answers cycle.certDaysLeft) <;> rw [hverdict] <;> rfl
    · rw [verdict_measure hself]
      split_ifs with hchecks
      · rw [hup.up service hchecks]
        rfl
      · exact Option.not_isSome_iff_eq_none.mp fun hdown => hchecks (hmarks service hdown)
  simp [hnone]

/-- A stale mark: late enough a cycle in which everything succeeds leaves an alert open. -/
theorem Inv.stale_alert (hinv : sys.Inv folding) (hloaded : sys.loaded = none) {cfg : Config}
    {cycle : Cycle} (htarget : sys.targets cycle.tid = some cfg) (henabled : cfg.isEnabled = true)
    (hsome : ∃ service, cfg.checks service = true) (hup : AllUp cfg cycle) {rt : Runtime}
    (hrt : sys.rt cycle.tid = some rt) {service : Service} {since : Int}
    (hdown : rt.downSince service = some since) (hstale : cfg.checks service = false)
    (hlong : sys.metricsTimeout ≤ cycle.alertNow - since)
    (hcool : sys.coolingDown cycle.tid cycle.alertNow = false) :
    ∃ rt', (sys.runTarget cycle).rt cycle.tid = some rt' ∧ rt'.currentAlertId.isSome = true := by
  have hkeeps := measured_keeps sys cfg cycle
  obtain ⟨rt', hrt', -, hdowns⟩ := measured_downs cfg hrt
  have hstill : rt'.downSince service = some since := by
    have hself : service ≠ .cert := by
      rintro rfl
      rw [hinv.uncertified cycle.tid rt hrt] at hdown
      cases hdown
    rw [hdowns, verdict_measure hself, hstale, hdown]
    rfl
  rw [runTarget_allUp htarget henabled hsome hup]
  refine (hinv.measured hloaded hrt).maybeAlert_opens hrt' ?_ ?_ (by simp) cfg.name
  · refine List.ne_nil_of_mem (List.mem_filter.mpr ⟨Service.mem_all service, ?_⟩)
    rw [hstill, Option.any_some, decide_eq_true_eq, metricsTimeout, hkeeps.minutes]
    exact hlong
  · rw [coolingDown, hkeeps.lastAlertAt]
    exact hcool

/-- A cycle at the time `now` in which everything succeeds. -/
def upCycle (tid : Nat) (now : Int) : Cycle where
  tid := tid
  now := 0
  answers := fun _ => true
  certDaysLeft := none
  certHost := []
  certNow := 0
  certFails := false
  alertNow := now
  alertFails := false
  reach := .alert

theorem exists_late (sys : System) (tid : Nat) (since : Int) :
    ∃ now, sys.metricsTimeout ≤ now - since ∧ sys.coolingDown tid now = false := by
  cases hlast : sys.lastAlertAt tid with
  | none => exact ⟨since + sys.metricsTimeout, by omega, by rw [coolingDown, hlast]; rfl⟩
  | some last =>
      refine ⟨max (since + sys.metricsTimeout) (last + alertCooldown), by omega, ?_⟩
      rw [coolingDown, hlast, Option.any_some, decide_eq_false_iff_not]
      omega

/-- The cycle leaves no availability alert of the target open. -/
def AllClear (folding : Folding) (tid : Nat) (next : System) : Prop :=
  (∀ rt, next.rt tid = some rt → rt.currentAlertId = none) ∧
    ∀ alert ∈ next.db.alerts, isActive alert = true → alert.targetId = tid →
      isCert folding alert.failedService = true

theorem Inv.allClear (hinv : sys.Inv folding) {rt : Runtime} (hrt : sys.rt tid = some rt)
    (hnone : rt.currentAlertId = none) : sys.AllClear folding tid := by
  refine ⟨fun rt' hrt' => ?_, fun alert halert hactive htarget => ?_⟩
  · cases hrt.symm.trans hrt'
    exact hnone
  · have hknows := hinv.known tid rt hrt alert halert hactive htarget
    by_contra hkind
    rw [Knows, if_neg hkind, hnone] at hknows
    cases hknows

end System

/-- The web check fails once, and then it is disabled for a ping. -/
def disabledWhileDown : List Action :=
  firstMinutes ++ [.load false, .apply [(1, { name := ['a'], enablePing := true })] 5]

end Justup.Monitor
