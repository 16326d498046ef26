import Justup.Monitor.Runtime

/-!
# The alerts of the scheduler

The alert step of a check cycle, the certificate alert, the skipped cycles, the refresh of
the targets with the open alerts, restarts, and what users do to alerts in between.  A
write that fails leaves the database as it was.
-/

namespace Justup.Monitor

open Justup.Alerts
open Justup.Lib.Table
open Justup.Store (Text)

/-- How Python folds texts: `upper` character by character, and `fold` as `strip().lower()`. -/
structure Folding where
  upper : Char → Text
  fold : Text → Text
  upper_ascii : ∀ c : Char, c.toNat < 128 → upper c = [c.toUpper]

/-- `AlertPayload` -/
structure Payload where
  alertId : Nat
  targetId : Nat
  targetName : Text
  failedService : Text
  status : AlertStatus
  startedAt : Int
  endedAt : Option Int
  durationSeconds : Option Int
  deriving DecidableEq

/-- A row of `list_active_alerts`. -/
structure ActiveAlert where
  targetId : Nat
  alertId : Nat
  startedAt : Int
  failedService : Text
  deriving DecidableEq

def listActiveAlerts (db : AlertDb) : List ActiveAlert :=
  (db.alerts.filter fun alert => alert.status = .open && alert.activeIncident).map fun alert =>
    ⟨alert.targetId, alert.id, alert.startedAt, alert.failedService⟩

/-- `MonitorScheduler` with its database; `nextId` stands for the next `uuid4`, `loaded` are the
open alerts of a refresh that is under way. -/
structure System where
  metricsTimeoutMinutes : Int := 5
  targets : Nat → Option Config := fun _ => none
  rt : Nat → Option Runtime := fun _ => none
  lastAlertAt : Nat → Option Int := fun _ => none
  loaded : Option (List ActiveAlert) := none
  db : AlertDb := ⟨[], []⟩
  nextId : Nat := 0
  payloads : List Payload := []

namespace System

variable (sys : System) (tid : Nat)

def setRt (rt : Runtime) : System := { sys with rt := Function.update sys.rt tid (some rt) }

def metricsTimeout : Int := max 1 sys.metricsTimeoutMinutes * 60 * second

def send (payload : Payload) : System := { sys with payloads := sys.payloads ++ [payload] }

/-- `create_alert` with a fresh id; `none` where the write fails. -/
def insertAlert (targetName failedService : Text) (now : Int) (fails : Bool) : Option AlertDb :=
  if fails then none
  else createAlert now (newAlert sys.nextId tid targetName failedService now) true sys.db

/-! ## `_maybe_alert` -/

def coolingDown (now : Int) : Bool :=
  (sys.lastAlertAt tid).any fun last => now - last < alertCooldown

/-- The earliest time since when a service is down. -/
def earliestDown (rt : Runtime) : Option Int :=
  (Service.all.filterMap rt.downSince).min?

/-- Services are alerting: a new alert, unless there is one. -/
def openAlert (targetName : Text) (now : Int) (alerting : List Service) (fails : Bool)
    (rt : Runtime) : System :=
  let names := alerting.map Service.name
  let rt := { rt with failedServices := names }
  match rt.currentAlertId with
  | some _ => sys.setRt tid rt
  | none =>
      let id := sys.nextId
      let tried := { sys.setRt tid rt with nextId := id + 1 }
      match sys.insertAlert tid targetName (joined names) now fails with
      | none => tried
      | some db =>
          { tried.setRt tid { rt with currentAlertId := some id } with
            db := db
            lastAlertAt := Function.update sys.lastAlertAt tid (some now) }.send
          { alertId := id
            targetId := tid
            targetName := targetName
            failedService := joined names
            status := .open
            startedAt := (earliestDown rt).getD now
            endedAt := none
            durationSeconds := none }

/-- The target has recovered while the alert `id` was open. -/
def closeAlert (targetName : Text) (now : Int) (id : Nat) (fails : Bool) (rt : Runtime) :
    System :=
  if fails then sys.setRt tid rt
  else
    let autoClose := ((sys.targets tid).map Config.autoCloseAlert).getD true
    let startedAt := ((row? Alert.id id sys.db.alerts).map Alert.startedAt).getD now
    let closed := sys.setRt tid { rt with
      currentAlertId := none
      failedServices := []
      downSince := fun _ => none }
    if autoClose then
      { closed with db := resolveAlert now id now true sys.db }.send
        { alertId := id
          targetId := tid
          targetName := targetName
          failedService := if rt.failedServices = [] then "unknown".toList
            else joined rt.failedServices
          status := .resolved
          startedAt := startedAt
          endedAt := some now
          durationSeconds := some (wholeSeconds (now - startedAt)) }
    else { closed with db := deactivateAlert id sys.db }

/-- `_maybe_alert`; `fails` tells whether its write fails. -/
def maybeAlert (targetName : Text) (status : TargetStatus) (now : Int) (fails : Bool) : System :=
  let rt := (sys.rt tid).getD { lastOverallOk := some (status = .up) }
  if status = .unknown then sys.setRt tid rt
  else
    let alerting := rt.alertingServices sys.metricsTimeout now
    let rt := rt.trimFailures now
    if rt.currentAlertId.isSome && alerting = [] && status ≠ .up then
      sys.setRt tid { rt with consecutiveSuccesses := 0, lastOverallOk := some false }
    else
      let rt := rt.count now alerting
      match rt.currentAlertId with
      | none =>
          if alerting = [] then sys.setRt tid rt
          else
            let rt := { rt with lastOverallOk := some false }
            if sys.coolingDown tid now then sys.setRt tid rt
            else sys.openAlert tid targetName now alerting fails rt
      | some id =>
          if alerting = [] then
            sys.closeAlert tid targetName now id fails { rt with lastOverallOk := some true }
          else
            let rt := { rt with
              failedServices := alerting.map Service.name
              lastOverallOk := some false }
            if sys.coolingDown tid now then sys.setRt tid rt
            else sys.openAlert tid targetName now alerting fails rt

/-! ## `_maybe_cert_alert` -/

def certWord : Text := ['C', 'E', 'R', 'T']

/-- The name of a certificate alert: `cert_severity` and the host. -/
def certService (daysLeft : Int) (certHost : Text) : Text :=
  let days := (toString daysLeft).toList
  if daysLeft < 0 then certWord ++ " EXPIRED - ".toList ++ certHost
  else if daysLeft ≤ 3 then certWord ++ " CRITICAL (".toList ++ days ++ "d) - ".toList ++ certHost
  else certWord ++ " WARNING (".toList ++ days ++ "d) - ".toList ++ certHost

/-- `_maybe_cert_alert`; a write that fails is only logged. -/
def maybeCertAlert (targetName : Text) (daysLeft : Int) (certHost : Text) (now : Int)
    (fails : Bool) : System :=
  match sys.rt tid with
  | none => sys
  | some rt =>
      if certExpiryAlertDays < daysLeft then
        match rt.certAlertSent, rt.certAlertId with
        | true, some id =>
            if fails then sys
            else { sys.setRt tid { rt with certAlertId := none, certAlertSent := false } with
              db := resolveAlert now id now true sys.db }
        | _, _ => sys.setRt tid { rt with certAlertSent := false }
      else if rt.certAlertSent then sys
      else
        let id := sys.nextId
        match sys.insertAlert tid targetName (certService daysLeft certHost) now fails with
        | none => { sys with nextId := id + 1 }
        | some db =>
            { sys.setRt tid { rt with certAlertSent := true, certAlertId := some id } with
              db := db
              nextId := id + 1 }.send
            { alertId := id
              targetId := tid
              targetName := targetName
              failedService := certService daysLeft certHost
              status := .open
              startedAt := now
              endedAt := none
              durationSeconds := none }

/-! ## Cycles, refreshes and restarts -/

/-- `_handle_connectivity_issue` -/
def handleConnectivityIssue : System :=
  match sys.targets tid, sys.rt tid with
  | some _, some rt =>
      if rt.currentAlertId.isSome then sys
      else sys.setRt tid { rt with
        downSince := fun _ => none
        failTimestamps := []
        consecutiveFailures := 0
        consecutiveSuccesses := 0 }
  | _, _ => sys

variable (folding : Folding)

/-- `"CERT" in failed_service.upper()` -/
def isCert (failedService : Text) : Bool :=
  decide (certWord <:+: failedService.flatMap folding.upper)

/-- `_restorable_services` -/
def restorableServices (cfg : Config) (failedService : Text) : List Service :=
  let enabled := [Service.http, .ping, .tcp].filter cfg.checks
  let named := (failedService.splitOn ',').map folding.fold
  let both := enabled.filter fun service => service.name ∈ named
  if both = [] then enabled else both

/-- An open alert is restored after a restart. -/
def restore (cfg : Config) (rt : Runtime) (alert : ActiveAlert) : Runtime :=
  if isCert folding alert.failedService then
    { rt with certAlertSent := true, certAlertId := some alert.alertId }
  else { rt with
    currentAlertId := some alert.alertId
    downSince := fun service =>
      if service ∈ restorableServices folding cfg alert.failedService then some alert.startedAt
      else rt.downSince service
    failedServices := if alert.failedService = [] then [] else [alert.failedService] }

/-- One row of `_apply_target_refresh_snapshot`. -/
def loadTarget (alerts : List ActiveAlert) (row : Nat × Config) : System :=
  let loaded := { sys with targets := Function.update sys.targets row.1 (some row.2) }
  match sys.rt row.1 with
  | some _ => loaded
  | none =>
      loaded.setRt row.1
        ((alerts.filter fun alert => alert.targetId = row.1).foldl (restore folding row.2) {})

/-- `forget_target` -/
def forgetTarget : System :=
  { sys with
    targets := Function.update sys.targets tid none
    rt := Function.update sys.rt tid none
    lastAlertAt := Function.update sys.lastAlertAt tid none }

/-- `forget_target`, for every target that is not among the rows -/
def forgetOthers (rows : List (Nat × Config)) : System :=
  let gone := fun tid => (sys.targets tid).isSome && tid ∉ rows.map Prod.fst
  { sys with
    targets := fun tid => if gone tid then none else sys.targets tid
    rt := fun tid => if gone tid then none else sys.rt tid
    lastAlertAt := fun tid => if gone tid then none else sys.lastAlertAt tid }

/-- `_apply_target_refresh_snapshot` -/
def applyRefresh (alerts : List ActiveAlert) (rows : List (Nat × Config)) (minutes : Int) :
    System :=
  let sys := { sys with metricsTimeoutMinutes := max 1 (min 10 minutes), loaded := none }
  (rows.foldl (fun sys row => sys.loadTarget folding alerts row) sys).forgetOthers rows

end System

/-- How far a cycle of checks gets: the target may change under it, and a restore may begin. -/
inductive Reach where
  | cert
  | status
  | alert
  deriving DecidableEq

/-- What a cycle of a target brings: the answers of its checks, and what becomes of its
writes. -/
structure Cycle where
  tid : Nat
  now : Int
  answers : Service → Bool
  certDaysLeft : Option Int
  certHost : Text
  certNow : Int
  certFails : Bool
  alertNow : Int
  alertFails : Bool
  reach : Reach

namespace System

variable (folding : Folding) (sys : System)

/-- The certificate alert of a cycle. -/
def certStep (cfg : Config) (cycle : Cycle) (snapshot : Snapshot) : System :=
  match snapshot.certDaysLeft with
  | none => sys
  | some daysLeft =>
      sys.maybeCertAlert cycle.tid cfg.name daysLeft cycle.certHost cycle.certNow cycle.certFails

/-- The times since when the services are down. -/
def statusStep (cfg : Config) (cycle : Cycle) (snapshot : Snapshot) : System :=
  match sys.rt cycle.tid with
  | none => sys
  | some rt => sys.setRt cycle.tid (rt.updateServices cfg snapshot cycle.now)

/-- The alert step, which a target without enabled checks does not reach. -/
def alertStep (cfg : Config) (cycle : Cycle) (snapshot : Snapshot) : System :=
  if overallStatus cfg snapshot = .disabled then sys
  else sys.maybeAlert cycle.tid cfg.name (overallStatus cfg snapshot) cycle.alertNow
    cycle.alertFails

/-- `_run_target`, once the lock is held and the measurements are stored -/
def runTarget (cycle : Cycle) : System :=
  match sys.targets cycle.tid with
  | none => sys
  | some cfg =>
      let sys := match sys.rt cycle.tid with
        | none => sys.setRt cycle.tid {}
        | some _ => sys
      if !cfg.isEnabled then sys
      else
        let snapshot := cfg.measure cycle.answers cycle.certDaysLeft
        let sys := sys.certStep cfg cycle snapshot
        match cycle.reach with
        | .cert => sys
        | .status => sys.statusStep cfg cycle snapshot
        | .alert => (sys.statusStep cfg cycle snapshot).alertStep cfg cycle snapshot

end System

/-- What happens to the scheduler and to the alerts; the last five are what users do. -/
inductive Action where
  | load (fails : Bool)
  | apply (rows : List (Nat × Config)) (minutes : Int)
  | cycle (cycle : Cycle)
  | skip (tid : Nat)
  | restart
  | forget (tid : Nat)
  | acknowledge (now : Int) (alertId : Nat) (by_ : Text)
  | acknowledgeAll (now : Int) (by_ : Text)
  | deleteByTarget (tid : Nat)
  | deleteAll

namespace System

variable (folding : Folding) (elapsed : Int → Int → Rat)

/-- The scheduler runs no cycle while it refreshes its targets. -/
def step (sys : System) : Action → Option System
  | .load fails =>
      if sys.loaded = none then
        some { sys with loaded := some (if fails then [] else listActiveAlerts sys.db) }
      else none
  | .apply rows minutes => sys.loaded.map fun alerts =>
      sys.applyRefresh folding alerts rows minutes
  | .cycle cycle => if sys.loaded = none then some (sys.runTarget cycle) else none
  | .skip tid => if sys.loaded = none then some (sys.handleConnectivityIssue tid) else none
  | .restart => some { db := sys.db, nextId := sys.nextId, payloads := sys.payloads }
  | .forget tid => some (sys.forgetTarget tid)
  | .acknowledge now alertId by_ => some { sys with db := acknowledgeAlert now alertId by_ sys.db }
  | .acknowledgeAll now by_ =>
      some { sys with db := acknowledgeAllOpenAlerts elapsed now by_ sys.db }
  | .deleteByTarget tid => some { sys with db := { sys.db with
      alerts := sys.db.alerts.filter fun alert => alert.targetId ≠ tid } }
  | .deleteAll => some { sys with db := { sys.db with alerts := [] } }

end System

end Justup.Monitor
