import Justup.Lib.History
import Justup.Monitor.OneIncident

/-!
# Alerts tell of outages

A new availability alert names services whose checks failed a whole timeout ago and have not
succeeded since, while nothing interrupted the watch over the target.
-/

namespace Justup.Monitor

open Justup.Alerts
open Justup.Lib.Table Justup.Lib.Transition Justup.Lib.History Justup.Lib.Obligation
open Justup.Store (Text)

namespace System

variable {folding : Folding} {sys : System} {tid : Nat}

/-! ## What the alert step can do -/

/-- What no step changes of an alert. -/
def named (alert : Alert) : Nat × Text := (alert.id, alert.failedService)

theorem named_update (id : Nat) {f : Alert → Alert} (hf : ∀ alert, named (f alert) = named alert)
    (alerts : List Alert) : (update Alert.id id f alerts).map named = alerts.map named := by
  rw [update, List.map_map]
  refine List.map_congr_left fun alert _ => ?_
  dsimp only [Function.comp]
  split_ifs
  · exact hf alert
  · rfl

/-- The alert step at `now` in the state `sys`, where `rt` is the runtime state of the target. -/
inductive Alerted (sys : System) (tid : Nat) (status : TargetStatus) (now : Int) (rt : Runtime) :
    System → Prop
  | kept {next : System} {rt' : Runtime} (hrt : next.rt = Function.update sys.rt tid (some rt'))
      (hdown : rt'.downSince = rt.downSince) (hcurrent : rt'.currentAlertId = rt.currentAlertId)
      (hdb : next.db = sys.db) : Alerted sys tid status now rt next
  | opened {next : System} {rt' : Runtime} (targetName : Text)
      (hrt : next.rt = Function.update sys.rt tid (some rt'))
      (hdown : rt'.downSince = rt.downSince) (hnone : rt.currentAlertId = none)
      (hcurrent : rt'.currentAlertId = some sys.nextId)
      (halerting : rt.alertingServices sys.metricsTimeout now ≠ [])
      (hdb : next.db.alerts = sys.db.alerts ++ [newAlert sys.nextId tid targetName
        (joined ((rt.alertingServices sys.metricsTimeout now).map Service.name)) now]) :
      Alerted sys tid status now rt next
  | closed {next : System} {rt' : Runtime} (hrt : next.rt = Function.update sys.rt tid (some rt'))
      (hup : status = .up) (hdown : ∀ service, rt'.downSince service = none)
      (hcurrent : rt'.currentAlertId = none)
      (hnames : next.db.alerts.map named = sys.db.alerts.map named) :
      Alerted sys tid status now rt next

theorem createAlert_alerts {now : Int} {alert : Alert} {dispatch : Bool} {db next : AlertDb}
    (hcreate : createAlert now alert dispatch db = some next) :
    next.alerts = db.alerts ++ [alert] := by
  unfold createAlert at hcreate
  split_ifs at hcreate <;> cases hcreate <;> rfl

theorem openAlert_alerted {now : Int} {rt : Runtime} {targetName : Text} {alerting : List Service}
    {fails : Bool} {status : TargetStatus} {counted : Runtime}
    (hdown : counted.downSince = rt.downSince)
    (hcurrent : counted.currentAlertId = rt.currentAlertId)
    (halerting : rt.alertingServices sys.metricsTimeout now = alerting) (hsome : alerting ≠ []) :
    Alerted sys tid status now rt (sys.openAlert tid targetName now alerting fails counted) := by
  unfold openAlert
  dsimp only
  split
  · exact .kept rfl hdown hcurrent rfl
  · rename_i hnone
    split
    · exact .kept rfl hdown hcurrent rfl
    · rename_i db hinsert
      unfold insertAlert at hinsert
      split_ifs at hinsert
      refine .opened targetName (Function.update_idem _ _ _) hdown (hcurrent.symm.trans hnone) rfl
        (halerting ▸ hsome) ?_
      rw [halerting]
      exact createAlert_alerts hinsert

theorem closeAlert_alerted {now : Int} {rt : Runtime} {targetName : Text} {id : Nat} {fails : Bool}
    {counted : Runtime} (hdown : counted.downSince = rt.downSince)
    (hcurrent : counted.currentAlertId = rt.currentAlertId) :
    Alerted sys tid .up now rt (sys.closeAlert tid targetName now id fails counted) := by
  unfold closeAlert
  dsimp only
  split
  · exact .kept rfl hdown hcurrent rfl
  split
  · refine .closed rfl rfl (fun _ => rfl) rfl ?_
    dsimp only [send]
    unfold resolveAlert
    split
    · rfl
    · exact named_update id (f := resolved now) (fun _ => rfl) _
  · refine .closed rfl rfl (fun _ => rfl) rfl (named_update id (fun alert => ?_) _)
    unfold deactivated
    split_ifs <;> rfl

theorem count_keeps (now : Int) (alerting : List Service) (rt : Runtime) :
    ((rt.trimFailures now).count now alerting).downSince = rt.downSince ∧
      ((rt.trimFailures now).count now alerting).currentAlertId = rt.currentAlertId := by
  unfold Runtime.count
  split <;> exact ⟨rfl, rfl⟩

theorem maybeAlert_alerted {rt : Runtime} (hrt : sys.rt tid = some rt) (targetName : Text)
    (status : TargetStatus) (now : Int) (fails : Bool) :
    Alerted sys tid status now rt (sys.maybeAlert tid targetName status now fails) := by
  unfold maybeAlert
  rw [hrt]
  dsimp only [Option.getD_some]
  obtain ⟨hdown, hcurrent⟩ := count_keeps now (rt.alertingServices sys.metricsTimeout now) rt
  generalize halerting : rt.alertingServices sys.metricsTimeout now = alerting at hdown hcurrent
  split
  · exact .kept rfl rfl rfl rfl
  split
  · exact .kept rfl rfl rfl rfl
  rename_i hends
  split
  · split_ifs with hnothing
    · exact .kept rfl hdown hcurrent rfl
    · exact .kept rfl hdown hcurrent rfl
    · exact openAlert_alerted hdown hcurrent halerting hnothing
  · rename_i id hopen
    split_ifs with hnothing
    · have hup : status = .up := by
        have hid : rt.currentAlertId = some id := hcurrent.symm.trans hopen
        simpa [Runtime.trimFailures, hid, hnothing] using hends
      rw [hup]
      exact closeAlert_alerted hdown hcurrent
    · exact .kept rfl hdown hcurrent rfl
    · exact openAlert_alerted hdown hcurrent halerting hnothing

/-! ## What happened before -/

/-- The services that are down without an alert were so before. -/
def Calm (old new : Option Runtime) : Prop :=
  ∀ rt', new = some rt' → rt'.currentAlertId = none → ∀ service since,
    rt'.downSince service = some since →
      ∃ rt, old = some rt ∧ rt.currentAlertId = none ∧ rt.downSince service = some since

theorem Calm.refl (rt : Option Runtime) : Calm rt rt :=
  fun rt' hrt hnone _ _ hdown => ⟨rt', hrt, hnone, hdown⟩

theorem Calm.of_eq {old new : Option Runtime} (hsame : new.map Runtime.downSince =
    old.map Runtime.downSince) (hcurrent : new.map Runtime.currentAlertId =
    old.map Runtime.currentAlertId) : Calm old new := by
  rintro rt' rfl hnone service since hdown
  obtain ⟨rt, hold, hrt⟩ := Option.map_eq_some_iff.mp hsame.symm
  subst hold
  refine ⟨rt, rfl, ?_, ?_⟩
  · exact (Option.some.inj hcurrent).symm.trans hnone
  · rw [hrt]
    exact hdown

theorem Alerted.calm {status : TargetStatus} {now : Int} {rt : Runtime} {next : System}
    (hrt : sys.rt tid = some rt) (halerted : Alerted sys tid status now rt next) (other : Nat) :
    Calm (sys.rt other) (next.rt other) := by
  have hothers {rt' : Runtime} (hnext : next.rt = Function.update sys.rt tid (some rt'))
      (hself : Calm (some rt) (some rt')) : Calm (sys.rt other) (next.rt other) := by
    rw [hnext]
    by_cases hother : other = tid
    · rw [hother, Function.update_self, hrt]
      exact hself
    · rw [Function.update_of_ne hother]
      exact .refl _
  cases halerted with
  | kept hnext hdown hcurrent hdb =>
      exact hothers hnext (.of_eq (congrArg some hdown) (congrArg some hcurrent))
  | opened targetName hnext hdown hnone hcurrent halerting hdb =>
      refine hothers hnext fun rt' hrt' hnone' => ?_
      cases hrt'
      rw [hcurrent] at hnone'
      cases hnone'
  | closed hnext hup hdown hcurrent hnames =>
      refine hothers hnext fun rt' hrt' _ service since hsince => ?_
      cases hrt'
      rw [hdown] at hsince
      cases hsince

/-- The certificate alert leaves the availability of every target alone. -/
theorem certStep_downs (sys : System) (cfg : Config) (cycle : Cycle) (snapshot : Snapshot)
    (other : Nat) :
    ((sys.certStep cfg cycle snapshot).rt other).map Runtime.downSince =
        (sys.rt other).map Runtime.downSince ∧
      ((sys.certStep cfg cycle snapshot).rt other).map Runtime.currentAlertId =
        (sys.rt other).map Runtime.currentAlertId := by
  have hset {rt rt' : Runtime} (hrt : sys.rt cycle.tid = some rt)
      (hdown : rt'.downSince = rt.downSince) (hcurrent : rt'.currentAlertId = rt.currentAlertId) :
      (Function.update sys.rt cycle.tid (some rt') other).map Runtime.downSince =
          (sys.rt other).map Runtime.downSince ∧
        (Function.update sys.rt cycle.tid (some rt') other).map Runtime.currentAlertId =
          (sys.rt other).map Runtime.currentAlertId := by
    by_cases hother : other = cycle.tid
    · rw [hother, Function.update_self, hrt]
      exact ⟨congrArg some hdown, congrArg some hcurrent⟩
    · rw [Function.update_of_ne hother]
      exact ⟨rfl, rfl⟩
  unfold certStep
  split
  · exact ⟨rfl, rfl⟩
  unfold maybeCertAlert
  split
  · exact ⟨rfl, rfl⟩
  rename_i rt hrt
  split
  · split
    · split
      · exact ⟨rfl, rfl⟩
      · exact hset hrt rfl rfl
    · exact hset hrt rfl rfl
  split
  · exact ⟨rfl, rfl⟩
  · dsimp only
    split
    · exact ⟨rfl, rfl⟩
    · exact hset hrt rfl rfl

/-- The rows that the certificate alert adds are certificate alerts. -/
theorem certStep_alerts (folding : Folding) (sys : System) (cfg : Config) (cycle : Cycle)
    (snapshot : Snapshot) :
    ∀ alert ∈ (sys.certStep cfg cycle snapshot).db.alerts,
      (∃ old ∈ sys.db.alerts, old.id = alert.id) ∨ isCert folding alert.failedService = true := by
  have hids {alerts : List Alert} (hsame : alerts.map Alert.id = sys.db.alerts.map Alert.id) :
      ∀ alert ∈ alerts, (∃ old ∈ sys.db.alerts, old.id = alert.id) ∨
        isCert folding alert.failedService = true := fun alert halert => by
    have hmem : alert.id ∈ sys.db.alerts.map Alert.id := hsame ▸ List.mem_map_of_mem halert
    exact .inl (List.mem_map.mp hmem)
  unfold certStep
  split
  · exact hids rfl
  unfold maybeCertAlert
  split
  · exact hids rfl
  split
  · split
    · split
      · exact hids rfl
      · refine hids ?_
        unfold resolveAlert
        split
        · rfl
        · exact ids_update _ (f := resolved cycle.certNow) (fun _ => rfl) _
    · exact hids rfl
  split
  · exact hids rfl
  dsimp only
  split
  · exact hids rfl
  · rename_i daysLeft _ _ _ _ db hinsert
    unfold insertAlert at hinsert
    split_ifs at hinsert
    intro alert halert
    have hrows : db.alerts = _ := createAlert_alerts hinsert
    dsimp only [send] at halert
    rw [hrows] at halert
    obtain hold | hnew := List.mem_append.mp halert
    · exact .inl ⟨alert, hold, rfl⟩
    · rw [List.mem_singleton.mp hnew]
      exact .inr (isCert_certService folding _ _)

/-! ## The watch over a service -/

/-- The cycle checks the service, and comes as far as to say so. -/
def checks (sys : System) (cycle : Cycle) (service : Service) : Bool :=
  (sys.targets cycle.tid).any fun cfg =>
    cfg.isEnabled && cfg.checks service && cycle.reach ≠ .cert

/-- The check of the service fails at the time `at_`. -/
def failsAt (tid : Nat) (service : Service) (at_ : Int) : System × Action → Bool
  | (sys, .cycle cycle) =>
      cycle.tid = tid && cycle.now = at_ && checks sys cycle service && !cycle.answers service
  | _ => false

/-- The service is up, or the watch over the target is interrupted. -/
def clears (tid : Nat) (service : Service) : System × Action → Bool
  | (sys, .cycle cycle) => cycle.tid = tid && checks sys cycle service && cycle.answers service
  | (_, .skip other) => other = tid
  | (_, .restart) => true
  | (_, .forget other) => other = tid
  | (_, .apply rows _) => tid ∉ rows.map Prod.fst
  | _ => false

/-- While no alert is open, a service that is down has failed then, and was not up since. -/
structure Explained (past : List (System × Action)) (sys : System) : Prop where
  monitored : ∀ tid, (sys.rt tid).isSome → (sys.targets tid).isSome
  since : ∀ tid rt, sys.rt tid = some rt → rt.currentAlertId = none → ∀ service since,
    rt.downSince service = some since →
      isOpen (failsAt tid service since) (clears tid service) past = true

variable {past : List (System × Action)}

theorem Explained.initial : Explained [] {} := ⟨nofun, nofun⟩

theorem Explained.calm (hexplained : Explained past sys) {next : System}
    (hmonitored : ∀ tid, (next.rt tid).isSome → (next.targets tid).isSome)
    (hcalm : ∀ tid, Calm (sys.rt tid) (next.rt tid)) : Explained past next where
  monitored := hmonitored
  since tid rt' hrt' hnone service since hdown := by
    obtain ⟨rt, hrt, hnone, hdown⟩ := hcalm tid rt' hrt' hnone service since hdown
    exact hexplained.since tid rt hrt hnone service since hdown

/-- One more entry: it clears nothing that is still down. -/
theorem Explained.concat (hexplained : Explained past sys) {entry : System × Action}
    (hclears : ∀ tid rt, sys.rt tid = some rt → rt.currentAlertId = none → ∀ service,
      (rt.downSince service).isSome → clears tid service entry = false) :
    Explained (past ++ [entry]) sys where
  monitored := hexplained.monitored
  since tid rt hrt hnone service since hdown := by
    rw [isOpen_concat, hexplained.since tid rt hrt hnone service since hdown,
      hclears tid rt hrt hnone service (by rw [hdown]; rfl)]
    simp

theorem verdict_measure {cfg : Config} {service : Service} (hcert : service ≠ .cert)
    (answers : Service → Bool) (certDaysLeft : Option Int) :
    verdict cfg (cfg.measure answers certDaysLeft) service =
      if cfg.checks service then some (answers service) else none := by
  cases service with
  | cert => exact absurd rfl hcert
  | http => cases hon : cfg.enableHttpCheck <;> simp [verdict, Config.measure, Config.checks, hon]
  | ping => cases hon : cfg.enablePing <;> simp [verdict, Config.measure, Config.checks, hon]
  | tcp => cases hon : cfg.enableTcpConnect <;> simp [verdict, Config.measure, Config.checks, hon]

theorem verdict_cert (cfg : Config) (snapshot : Snapshot) :
    verdict cfg snapshot .cert = some true ∨ verdict cfg snapshot .cert = none := by
  rw [verdict]
  split_ifs
  · exact .inl rfl
  · exact .inr rfl

/-- What the answer of a cycle makes of the time since when a service is down. -/
theorem updateService_measure {cfg : Config} {answers : Service → Bool} {certDaysLeft : Option Int}
    {service : Service} {now since : Int} {old : Option Int}
    (hdown : updateService now (verdict cfg (cfg.measure answers certDaysLeft) service) old =
      some since) :
    (cfg.checks service && answers service) = false ∧ (old = some since ∨
      old = none ∧ since = now ∧ cfg.checks service = true ∧ answers service = false) := by
  by_cases hcert : service = .cert
  · subst hcert
    refine ⟨rfl, .inl ?_⟩
    obtain hup | hnothing := verdict_cert cfg (cfg.measure answers certDaysLeft)
    · rw [hup] at hdown
      cases hdown
    · rw [hnothing] at hdown
      exact hdown
  · rw [verdict_measure hcert] at hdown
    cases hchecks : cfg.checks service with
    | false =>
        rw [hchecks] at hdown
        exact ⟨rfl, .inl hdown⟩
    | true =>
        rw [hchecks, if_pos rfl] at hdown
        cases hanswer : answers service with
        | true =>
            rw [hanswer] at hdown
            cases hdown
        | false =>
            rw [hanswer] at hdown
            refine ⟨rfl, ?_⟩
            cases old with
            | none => exact .inr ⟨rfl, (Option.some.inj hdown).symm, rfl, rfl⟩
            | some at_ => exact .inl hdown

/-- The state of the services after a cycle of checks. -/
theorem Explained.statusStep {middle : System} {cfg : Config} {cycle : Cycle}
    (hexplained : Explained past middle) (htarget : sys.targets cycle.tid = some cfg)
    (henabled : cfg.isEnabled = true) (hreach : cycle.reach ≠ .cert) :
    Explained (past ++ [(sys, .cycle cycle)])
      (middle.statusStep cfg cycle (cfg.measure cycle.answers cycle.certDaysLeft)) := by
  have hchecks (service : Service) : checks sys cycle service = cfg.checks service := by
    simp [checks, htarget, henabled, hreach]
  have hothers {other : Nat} (hother : other ≠ cycle.tid) (service : Service) :
      clears other service (sys, .cycle cycle) = false := by
    simp [clears, hother.symm]
  unfold System.statusStep
  cases hmiddle : middle.rt cycle.tid with
  | none =>
      refine hexplained.concat fun tid rt hrt _ service _ => hothers (fun hself => ?_) service
      rw [hself, hmiddle] at hrt
      cases hrt
  | some rt =>
      refine ⟨fun tid htid => ?_, fun tid rt' hrt' hnone service since hdown => ?_⟩
      · by_cases hself : tid = cycle.tid
        · rw [hself]
          exact hexplained.monitored cycle.tid (by rw [hmiddle]; rfl)
        · rw [setRt_of_ne _ hself] at htid
          exact hexplained.monitored tid htid
      · rw [isOpen_concat]
        by_cases hself : tid = cycle.tid
        · subst hself
          rw [setRt_self] at hrt'
          cases hrt'
          obtain ⟨hkept, hold | ⟨-, rfl, hon, hfails⟩⟩ := updateService_measure hdown
          · rw [hexplained.since cycle.tid rt hmiddle hnone service since hold]
            simp [clears, hchecks, hkept]
          · simp [failsAt, hchecks, hon, hfails]
        · rw [setRt_of_ne _ hself] at hrt'
          rw [hexplained.since tid rt' hrt' hnone service since hdown, hothers hself]
          simp

/-! ## A cycle of checks -/

/-- The runtime state that a cycle starts from. -/
def started (sys : System) (tid : Nat) : System :=
  match sys.rt tid with
  | none => sys.setRt tid {}
  | some _ => sys

theorem started_keeps (sys : System) (tid : Nat) :
    Keeps sys (sys.started tid) ∧ (sys.started tid).db = sys.db ∧
      ((sys.started tid).rt tid).isSome := by
  unfold started
  split
  · exact ⟨⟨rfl, rfl, rfl, rfl⟩, rfl, by rw [setRt_self]; rfl⟩
  · rename_i rt hrt
    exact ⟨⟨rfl, rfl, rfl, rfl⟩, rfl, by rw [hrt]; rfl⟩

theorem started_calm (sys : System) (tid other : Nat) :
    Calm (sys.rt other) ((sys.started tid).rt other) := by
  unfold started
  split
  · by_cases hother : other = tid
    · rw [hother, setRt_self]
      intro rt' hrt' _ service since hdown
      cases hrt'
      cases hdown
    · rw [setRt_of_ne _ hother]
      exact .refl _
  · exact .refl _

/-- The state of the services is known in a cycle; the alert step comes next. -/
def measured (sys : System) (cfg : Config) (cycle : Cycle) : System :=
  let snapshot := cfg.measure cycle.answers cycle.certDaysLeft
  ((sys.started cycle.tid).certStep cfg cycle snapshot).statusStep cfg cycle snapshot

theorem runTarget_eq {cfg : Config} {cycle : Cycle} (htarget : sys.targets cycle.tid = some cfg)
    (henabled : cfg.isEnabled = true) :
    sys.runTarget cycle =
      let snapshot := cfg.measure cycle.answers cycle.certDaysLeft
      match cycle.reach with
      | .cert => (sys.started cycle.tid).certStep cfg cycle snapshot
      | .status => sys.measured cfg cycle
      | .alert => (sys.measured cfg cycle).alertStep cfg cycle snapshot := by
  simp only [runTarget, htarget, henabled, Bool.not_true, Bool.false_eq_true, if_false]
  rfl

theorem runTarget_disabled {cfg : Config} {cycle : Cycle}
    (htarget : sys.targets cycle.tid = some cfg) (henabled : cfg.isEnabled = false) :
    sys.runTarget cycle = sys.started cycle.tid := by
  simp only [runTarget, htarget, henabled, Bool.not_false, if_true]
  rfl

theorem measured_keeps (sys : System) (cfg : Config) (cycle : Cycle) :
    Keeps sys (sys.measured cfg cycle) := by
  have hstarted := (started_keeps sys cycle.tid).1
  have hcert := certStep_keeps (sys.started cycle.tid) cfg cycle
    (cfg.measure cycle.answers cycle.certDaysLeft)
  have hstatus := statusStep_keeps ((sys.started cycle.tid).certStep cfg cycle
    (cfg.measure cycle.answers cycle.certDaysLeft)) cfg cycle
    (cfg.measure cycle.answers cycle.certDaysLeft)
  exact ⟨hstatus.loaded.trans (hcert.loaded.trans hstarted.loaded),
    hstatus.targets.trans (hcert.targets.trans hstarted.targets),
    hstatus.minutes.trans (hcert.minutes.trans hstarted.minutes),
    hstatus.lastAlertAt.trans (hcert.lastAlertAt.trans hstarted.lastAlertAt)⟩

theorem isSome_of_downs {old new : Option Runtime}
    (hsame : new.map Runtime.downSince = old.map Runtime.downSince) : new.isSome = old.isSome := by
  simpa using congrArg Option.isSome hsame

theorem measured_rt (sys : System) (cfg : Config) (cycle : Cycle) :
    ∃ rt, (sys.measured cfg cycle).rt cycle.tid = some rt := by
  refine Option.isSome_iff_exists.mp ?_
  have hcert := isSome_of_downs (certStep_downs (sys.started cycle.tid) cfg cycle
    (cfg.measure cycle.answers cycle.certDaysLeft) cycle.tid).1
  rw [(started_keeps sys cycle.tid).2.2] at hcert
  unfold measured statusStep
  dsimp only
  split
  · exact hcert
  · rw [setRt_self]
    rfl

/-- The rows that come before the alert step. -/
theorem measured_alerts (folding : Folding) (sys : System) (cfg : Config) (cycle : Cycle) :
    ∀ alert ∈ (sys.measured cfg cycle).db.alerts,
      (∃ old ∈ sys.db.alerts, old.id = alert.id) ∨ isCert folding alert.failedService = true := by
  intro alert halert
  have hmem : alert ∈ ((sys.started cycle.tid).certStep cfg cycle
      (cfg.measure cycle.answers cycle.certDaysLeft)).db.alerts := by
    unfold measured statusStep at halert
    dsimp only at halert
    split at halert <;> exact halert
  have hrows := certStep_alerts folding _ cfg cycle _ alert hmem
  rw [(started_keeps sys cycle.tid).2.1] at hrows
  exact hrows

theorem Explained.started (hexplained : Explained past sys) {tid : Nat} {cfg : Config}
    (htarget : sys.targets tid = some cfg) : Explained past (sys.started tid) := by
  refine hexplained.calm (fun other hother => ?_) (started_calm sys tid)
  rw [(started_keeps sys tid).1.targets]
  by_cases hself : other = tid
  · rw [hself, htarget]
    rfl
  · unfold System.started at hother
    split at hother
    · rw [setRt_of_ne _ hself] at hother
      exact hexplained.monitored other hother
    · exact hexplained.monitored other hother

theorem Explained.certStep (hexplained : Explained past sys) (cfg : Config) (cycle : Cycle)
    (snapshot : Snapshot) : Explained past (sys.certStep cfg cycle snapshot) := by
  refine hexplained.calm (fun tid htid => ?_) fun tid => ?_
  · rw [isSome_of_downs (certStep_downs sys cfg cycle snapshot tid).1] at htid
    rw [(certStep_keeps sys cfg cycle snapshot).targets]
    exact hexplained.monitored tid htid
  · obtain ⟨hdowns, hcurrent⟩ := certStep_downs sys cfg cycle snapshot tid
    exact .of_eq hdowns hcurrent

theorem Explained.measured (hexplained : Explained past sys) {cfg : Config} {cycle : Cycle}
    (htarget : sys.targets cycle.tid = some cfg) (henabled : cfg.isEnabled = true)
    (hreach : cycle.reach ≠ .cert) :
    Explained (past ++ [(sys, .cycle cycle)]) (sys.measured cfg cycle) :=
  ((hexplained.started htarget).certStep cfg cycle _).statusStep htarget henabled hreach

theorem maybeAlert_targets (targetName : Text) (status : TargetStatus) (now : Int) (fails : Bool) :
    (sys.maybeAlert tid targetName status now fails).targets = sys.targets := by
  have hopen (alerting : List Service) (rt : Runtime) :
      (sys.openAlert tid targetName now alerting fails rt).targets = sys.targets := by
    unfold openAlert
    dsimp only
    split
    · rfl
    · split <;> rfl
  have hclose (id : Nat) (rt : Runtime) :
      (sys.closeAlert tid targetName now id fails rt).targets = sys.targets := by
    unfold closeAlert
    dsimp only
    split
    · rfl
    · split <;> rfl
  unfold maybeAlert
  dsimp only
  split
  · rfl
  split
  · rfl
  split
  · split_ifs
    · rfl
    · rfl
    · exact hopen _ _
  · split_ifs
    · exact hclose _ _
    · rfl
    · exact hopen _ _

theorem Alerted.rt_isSome {status : TargetStatus} {now : Int} {rt : Runtime} {next : System}
    (halerted : Alerted sys tid status now rt next) {other : Nat}
    (hother : (next.rt other).isSome) :
    (sys.rt other).isSome ∨ other = tid := by
  have hothers {rt' : Runtime} (hnext : next.rt = Function.update sys.rt tid (some rt')) :
      (sys.rt other).isSome ∨ other = tid := by
    by_cases hself : other = tid
    · exact .inr hself
    · rw [hnext, Function.update_of_ne hself] at hother
      exact .inl hother
  cases halerted with
  | kept hnext => exact hothers hnext
  | opened _ hnext => exact hothers hnext
  | closed hnext => exact hothers hnext

theorem Explained.alertStep (hexplained : Explained past sys) {cfg : Config} {cycle : Cycle}
    {rt : Runtime} (hrt : sys.rt cycle.tid = some rt) (snapshot : Snapshot) :
    Explained past (sys.alertStep cfg cycle snapshot) := by
  unfold System.alertStep
  split
  · exact hexplained
  · have halerted := maybeAlert_alerted hrt cfg.name (overallStatus cfg snapshot) cycle.alertNow
      cycle.alertFails
    refine hexplained.calm (fun other hother => ?_) (halerted.calm hrt)
    rw [maybeAlert_targets]
    obtain hother | rfl := halerted.rt_isSome hother
    · exact hexplained.monitored other hother
    · exact hexplained.monitored cycle.tid (by rw [hrt]; rfl)

theorem Explained.runTarget (hexplained : Explained past sys) (cycle : Cycle) :
    Explained (past ++ [(sys, .cycle cycle)]) (sys.runTarget cycle) := by
  have hunchecked (hnone : ∀ service, checks sys cycle service = false) {next : System}
      (hnext : Explained past next) : Explained (past ++ [(sys, .cycle cycle)]) next :=
    hnext.concat fun tid rt _ _ service _ => by simp [clears, hnone]
  cases htarget : sys.targets cycle.tid with
  | none =>
      rw [System.runTarget, htarget]
      exact hunchecked (fun _ => by simp [checks, htarget]) hexplained
  | some cfg =>
      cases henabled : cfg.isEnabled with
      | false =>
          rw [runTarget_disabled htarget henabled]
          exact hunchecked (fun _ => by simp [checks, htarget, henabled])
            (hexplained.started htarget)
      | true =>
          rw [runTarget_eq htarget henabled]
          dsimp only
          split
          · rename_i hreach
            exact hunchecked (fun _ => by simp [checks, hreach])
              ((hexplained.started htarget).certStep cfg cycle _)
          · rename_i hreach
            exact hexplained.measured htarget henabled (by simp [hreach])
          · rename_i hreach
            obtain ⟨rt, hrt⟩ := measured_rt sys cfg cycle
            exact (hexplained.measured htarget henabled (by simp [hreach])).alertStep hrt _

/-! ## Runs -/

/-- A restored availability alert is remembered; otherwise nothing is down. -/
theorem restored_calm (cfg : Config) (rows : List ActiveAlert) (old : Option Runtime) :
    Calm old (some (rows.foldl (restore folding cfg) {})) := by
  intro rt' hrt' hnone service since hdown
  cases hrt'
  exfalso
  induction rows using List.reverseRecOn with
  | nil => cases hdown
  | append_singleton rows row ih =>
      rw [List.foldl_concat] at hnone hdown
      unfold restore at hnone hdown
      split at hnone
      · rename_i hcert
        rw [if_pos hcert] at hdown
        exact ih hnone hdown
      · cases hnone

theorem Explained.loadTarget (hexplained : Explained past sys) (alerts : List ActiveAlert)
    (row : Nat × Config) : Explained past (sys.loadTarget folding alerts row) := by
  have htarget {rts : Nat → Option Runtime}
      (hrts : ∀ tid, (rts tid).isSome → (sys.rt tid).isSome ∨ tid = row.1) (tid : Nat)
      (hsome : (rts tid).isSome) :
      (Function.update sys.targets row.1 (some row.2) tid).isSome := by
    by_cases hself : tid = row.1
    · rw [hself, Function.update_self]
      rfl
    · rw [Function.update_of_ne hself]
      exact hexplained.monitored tid ((hrts tid hsome).resolve_right hself)
  unfold System.loadTarget
  dsimp only
  split
  · exact hexplained.calm (htarget fun _ h => .inl h) fun _ => .refl _
  · refine hexplained.calm (htarget fun tid hsome => ?_) fun tid => ?_
    · by_cases hself : tid = row.1
      · exact .inr hself
      · rw [setRt_of_ne _ hself] at hsome
        exact .inl hsome
    · by_cases hself : tid = row.1
      · subst hself
        rw [setRt_self]
        exact restored_calm _ _ _
      · rw [setRt_of_ne _ hself]
        exact .refl _

theorem Explained.forgetOthers (hexplained : Explained past sys) {before : System}
    (rows : List (Nat × Config)) (minutes : Int) :
    Explained (past ++ [(before, .apply rows minutes)]) (sys.forgetOthers rows) := by
  have hkept {tid : Nat} {rt : Runtime} (hrt : (sys.forgetOthers rows).rt tid = some rt) :
      sys.rt tid = some rt ∧
        (sys.forgetOthers rows).targets tid = sys.targets tid ∧ tid ∈ rows.map Prod.fst := by
    simp only [System.forgetOthers] at hrt ⊢
    split_ifs at hrt with hgone
    have hmonitored := hexplained.monitored tid (by rw [hrt]; rfl)
    exact ⟨hrt, if_neg hgone, by simpa [hmonitored] using hgone⟩
  have hnext : Explained past (sys.forgetOthers rows) := by
    refine hexplained.calm (fun tid htid => ?_) fun tid rt hrt hnone service since hdown => ?_
    · obtain ⟨rt, hrt⟩ := Option.isSome_iff_exists.mp htid
      obtain ⟨hold, htargets, -⟩ := hkept hrt
      rw [htargets]
      exact hexplained.monitored tid (by rw [hold]; rfl)
    · exact ⟨rt, (hkept hrt).1, hnone, hdown⟩
  refine hnext.concat fun tid rt hrt _ service _ => ?_
  simpa [clears] using (hkept hrt).2.2

theorem Explained.applyRefresh (hexplained : Explained past sys) (alerts : List ActiveAlert)
    (rows : List (Nat × Config)) (minutes : Int) :
    Explained (past ++ [(sys, .apply rows minutes)])
      (sys.applyRefresh folding alerts rows minutes) := by
  have hloaded (rest : List (Nat × Config)) {middle : System} (hmiddle : Explained past middle) :
      Explained past
        (rest.foldl (fun (sys : System) row => sys.loadTarget folding alerts row) middle) := by
    induction rest generalizing middle with
    | nil => exact hmiddle
    | cons row rest ih => exact ih (hmiddle.loadTarget alerts row)
  have hstart : Explained past { sys with
      metricsTimeoutMinutes := max 1 (min 10 minutes), loaded := none } :=
    ⟨hexplained.monitored, hexplained.since⟩
  exact (hloaded rows hstart).forgetOthers rows minutes

theorem Explained.handleConnectivityIssue (hexplained : Explained past sys) (tid : Nat) :
    Explained (past ++ [(sys, .skip tid)]) (sys.handleConnectivityIssue tid) := by
  have hothers (other : Nat) (hother : other ≠ tid) (service : Service) :
      clears other service (sys, .skip tid) = false := by
    simpa [clears] using Ne.symm hother
  unfold System.handleConnectivityIssue
  split
  · rename_i cfg rt htarget hrt
    split
    · rename_i hopen
      refine hexplained.concat fun other rt' hrt' hnone service _ => ?_
      refine hothers other (fun hself => ?_) service
      subst hself
      cases hrt.symm.trans hrt'
      rw [hnone] at hopen
      cases hopen
    · have hnext : Explained past (sys.setRt tid { rt with
          downSince := fun _ => none
          failTimestamps := []
          consecutiveFailures := 0
          consecutiveSuccesses := 0 }) := by
        refine hexplained.calm (fun other hother => ?_) fun other => ?_
        · by_cases hself : other = tid
          · rw [hself]
            exact hexplained.monitored tid (by rw [hrt]; rfl)
          · rw [setRt_of_ne _ hself] at hother
            exact hexplained.monitored other hother
        · by_cases hself : other = tid
          · rw [hself, setRt_self]
            intro rt' hrt' _ service since hdown
            cases hrt'
            cases hdown
          · rw [setRt_of_ne _ hself]
            exact .refl _
      refine hnext.concat fun other rt' hrt' _ service hdown => ?_
      refine hothers other (fun hself => ?_) service
      subst hself
      rw [setRt_self] at hrt'
      cases hrt'
      cases hdown
  · rename_i hnothing
    refine hexplained.concat fun other rt' hrt' _ service _ => ?_
    refine hothers other (fun hself => ?_) service
    subst hself
    obtain ⟨cfg, htarget⟩ := Option.isSome_iff_exists.mp
      (hexplained.monitored other (by rw [hrt']; rfl))
    exact hnothing cfg rt' htarget hrt'

theorem Explained.forgetTarget (hexplained : Explained past sys) (tid : Nat) :
    Explained (past ++ [(sys, .forget tid)]) (sys.forgetTarget tid) := by
  have hkept {other : Nat} {rt : Runtime} (hrt : (sys.forgetTarget tid).rt other = some rt) :
      other ≠ tid ∧ sys.rt other = some rt := by
    simp only [System.forgetTarget, Function.update_apply] at hrt
    split_ifs at hrt with hself
    exact ⟨hself, hrt⟩
  have hnext : Explained past (sys.forgetTarget tid) := by
    refine hexplained.calm (fun other hother => ?_) fun other rt hrt hnone service since hdown =>
      ⟨rt, (hkept hrt).2, hnone, hdown⟩
    obtain ⟨rt, hrt⟩ := Option.isSome_iff_exists.mp hother
    obtain ⟨hself, hold⟩ := hkept hrt
    have htargets : (sys.forgetTarget tid).targets other = sys.targets other :=
      Function.update_of_ne hself _ _
    rw [htargets]
    exact hexplained.monitored other (by rw [hold]; rfl)
  refine hnext.concat fun other rt hrt _ service _ => ?_
  simpa [clears] using Ne.symm (hkept hrt).1

theorem Explained.step (hexplained : Explained past sys) {elapsed : Int → Int → Rat}
    {action : Action} {next : System} (hnext : sys.step folding elapsed action = some next) :
    Explained (past ++ [(sys, action)]) next := by
  have hsame {action : Action} (hclears : ∀ tid service, clears tid service (sys, action) = false)
      {next : System} (hrt : next.rt = sys.rt) (htargets : next.targets = sys.targets) :
      Explained (past ++ [(sys, action)]) next := by
    have hother : Explained past next :=
      ⟨by rw [hrt, htargets]; exact hexplained.monitored, hrt ▸ hexplained.since⟩
    exact hother.concat fun tid rt _ _ service _ => hclears tid service
  cases action with
  | load fails =>
      rw [System.step] at hnext
      split at hnext
      · cases hnext
        exact hsame (fun _ _ => rfl) rfl rfl
      · cases hnext
  | apply rows minutes =>
      obtain ⟨alerts, -, rfl⟩ := Option.map_eq_some_iff.mp hnext
      exact hexplained.applyRefresh alerts rows minutes
  | cycle cycle =>
      rw [System.step] at hnext
      split_ifs at hnext
      cases hnext
      exact hexplained.runTarget cycle
  | skip tid =>
      rw [System.step] at hnext
      split_ifs at hnext
      cases hnext
      exact hexplained.handleConnectivityIssue tid
  | restart =>
      cases hnext
      refine ⟨fun tid hrt => ?_, fun tid rt hrt => ?_⟩ <;> cases hrt
  | forget tid =>
      cases hnext
      exact hexplained.forgetTarget tid
  | acknowledge | acknowledgeAll | deleteByTarget | deleteAll =>
      cases hnext
      exact hsame (fun _ _ => rfl) rfl rfl

/-- A new row that is no certificate alert comes from the alert step. -/
theorem runTarget_new {cycle : Cycle} {alert : Alert}
    (halert : alert ∈ (sys.runTarget cycle).db.alerts)
    (hnew : ∀ old ∈ sys.db.alerts, old.id ≠ alert.id)
    (hkind : isCert folding alert.failedService = false) :
    ∃ cfg rt targetName, sys.targets cycle.tid = some cfg ∧ cfg.isEnabled = true ∧
      cycle.reach = .alert ∧ (sys.measured cfg cycle).rt cycle.tid = some rt ∧
      rt.currentAlertId = none ∧
      rt.alertingServices sys.metricsTimeout cycle.alertNow ≠ [] ∧
      alert = newAlert (sys.measured cfg cycle).nextId cycle.tid targetName
        (joined ((rt.alertingServices sys.metricsTimeout cycle.alertNow).map Service.name))
        cycle.alertNow := by
  have hold {rows : List Alert} (hrows : ∀ row ∈ rows,
      (∃ old ∈ sys.db.alerts, old.id = row.id) ∨ isCert folding row.failedService = true)
      {row : Alert} (hrow : row ∈ rows) (hnamed : named row = named alert) : False := by
    obtain ⟨hid, hname⟩ := Prod.mk.inj hnamed
    obtain ⟨old, hmem, hsame⟩ | hcert := hrows row hrow
    · exact hnew old hmem (hsame.trans hid)
    · rw [hname, hkind] at hcert
      cases hcert
  have hsame : ∀ row ∈ sys.db.alerts,
      (∃ old ∈ sys.db.alerts, old.id = row.id) ∨ isCert folding row.failedService = true :=
    fun row hrow => .inl ⟨row, hrow, rfl⟩
  cases htarget : sys.targets cycle.tid with
  | none =>
      rw [runTarget, htarget] at halert
      exact (hold hsame halert rfl).elim
  | some cfg =>
      cases henabled : cfg.isEnabled with
      | false =>
          rw [runTarget_disabled htarget henabled, (started_keeps sys cycle.tid).2.1] at halert
          exact (hold hsame halert rfl).elim
      | true =>
          rw [runTarget_eq htarget henabled] at halert
          dsimp only at halert
          split at halert
          · have hrows := certStep_alerts folding (sys.started cycle.tid) cfg cycle
              (cfg.measure cycle.answers cycle.certDaysLeft)
            rw [(started_keeps sys cycle.tid).2.1] at hrows
            exact (hold hrows halert rfl).elim
          · exact (hold (measured_alerts folding sys cfg cycle) halert rfl).elim
          · rename_i hreach
            obtain ⟨rt, hrt⟩ := measured_rt sys cfg cycle
            unfold alertStep at halert
            split at halert
            · exact (hold (measured_alerts folding sys cfg cycle) halert rfl).elim
            have halerted := maybeAlert_alerted hrt cfg.name
              (overallStatus cfg (cfg.measure cycle.answers cycle.certDaysLeft)) cycle.alertNow
              cycle.alertFails
            generalize (sys.measured cfg cycle).maybeAlert _ _ _ _ _ = next at halert halerted
            have htimeout : (sys.measured cfg cycle).metricsTimeout = sys.metricsTimeout := by
              rw [metricsTimeout, (measured_keeps sys cfg cycle).minutes]
              rfl
            cases halerted with
            | kept _ _ _ hdb =>
                rw [hdb] at halert
                exact (hold (measured_alerts folding sys cfg cycle) halert rfl).elim
            | closed _ _ _ _ hnames =>
                have hmem : named alert ∈ (sys.measured cfg cycle).db.alerts.map named :=
                  hnames ▸ List.mem_map_of_mem halert
                obtain ⟨row, hrow, hnamed⟩ := List.mem_map.mp hmem
                exact (hold (measured_alerts folding sys cfg cycle) hrow hnamed).elim
            | opened targetName _ _ hnone _ halerting hdb =>
                rw [htimeout] at halerting hdb
                rw [hdb] at halert
                obtain hrow | hlast := List.mem_append.mp halert
                · exact (hold (measured_alerts folding sys cfg cycle) hrow rfl).elim
                · exact ⟨cfg, rt, targetName, rfl, henabled, hreach, hrt, hnone, halerting,
                    List.mem_singleton.mp hlast⟩

/-- The service failed at the time `since`, and was watched without an end ever after. -/
def DownSince (past : List (System × Action)) (tid : Nat) (service : Service) (since : Int) :
    Prop :=
  ∃ before failure after, past = before ++ failure :: after ∧
    failsAt tid service since failure = true ∧
      ∀ later ∈ after, clears tid service later = false

theorem alertingServices_since {rt : Runtime} {timeout now : Int} {service : Service}
    (hservice : service ∈ rt.alertingServices timeout now) :
    ∃ since, rt.downSince service = some since ∧ timeout ≤ now - since := by
  obtain ⟨-, hany⟩ := List.mem_filter.mp hservice
  obtain ⟨since, hdown, hlong⟩ := Option.any_eq_true _ _ |>.mp hany
  exact ⟨since, hdown, of_decide_eq_true hlong⟩

end System

/-- The web check of a target, `minutes` after its first cycle. -/
def webCheck (minutes : Int) (up : Bool) : Cycle :=
  { tid := 1, now := minutes * 60 * second, answers := fun _ => up, certDaysLeft := none
    certHost := [], certNow := 0, certFails := false, alertNow := minutes * 60 * second
    alertFails := false, reach := .alert }

def firstMinutes : List Action :=
  [.load false, .apply [(1, { name := ['a'], enableHttpCheck := true })] 5,
    .cycle (webCheck 0 false)]

def firstFailure : System :=
  (run (System.step asciiFolding fun _ _ => 0) {} firstMinutes).get (by decide)

def secondFailure : System :=
  (firstFailure.step asciiFolding (fun _ _ => 0) (.cycle (webCheck 6 false))).get (by decide)

end Justup.Monitor
