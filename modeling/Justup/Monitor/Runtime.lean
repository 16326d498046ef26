import Mathlib.Logic.Function.Basic
import Justup.Alerts.Alert

/-!
# The runtime state of a target

What one check cycle found, the overall status that follows from it, and the times since
when the services are down.  Times are microseconds.
-/

namespace Justup.Monitor

open Justup.Store (Text)

/-- The services of a target, in the order of their names. -/
inductive Service where
  | cert
  | http
  | ping
  | tcp
  deriving DecidableEq, Repr

namespace Service

def name : Service → Text
  | cert => ['c', 'e', 'r', 't']
  | http => ['h', 't', 't', 'p']
  | ping => ['p', 'i', 'n', 'g']
  | tcp => ['t', 'c', 'p']

def all : List Service := [cert, http, ping, tcp]

theorem mem_all (service : Service) : service ∈ all := by cases service <;> decide

end Service

/-- `", ".join(names)` -/
def joined (names : List Text) : Text := (names.intersperse [',', ' ']).flatten

/-- What the scheduler reads of the configuration of a target. -/
structure Config where
  name : Text
  isEnabled : Bool := true
  enablePing : Bool := false
  enableHttpCheck : Bool := false
  enableTcpConnect : Bool := false
  enableCertExpiration : Bool := false
  autoCloseAlert : Bool := true
  deriving DecidableEq

/-- The checks of the availability that are enabled. -/
def Config.checks (cfg : Config) : Service → Bool
  | .cert => false
  | .http => cfg.enableHttpCheck
  | .ping => cfg.enablePing
  | .tcp => cfg.enableTcpConnect

inductive TargetStatus where
  | up
  | down
  | unknown
  | disabled
  deriving DecidableEq

/-- What is read of the snapshot of a cycle. -/
structure Snapshot where
  pingUp : Option Bool
  httpUp : Option Bool
  tcpUp : Option Bool
  certDaysLeft : Option Int
  deriving DecidableEq

/-- The snapshot that the checks leave: `none` where a check is not enabled. -/
def Config.measure (cfg : Config) (answers : Service → Bool) (certDaysLeft : Option Int) :
    Snapshot where
  pingUp := if cfg.enablePing then some (answers .ping) else none
  httpUp := if cfg.enableHttpCheck then some (answers .http) else none
  tcpUp := if cfg.enableTcpConnect then some (answers .tcp) else none
  certDaysLeft := if cfg.enableCertExpiration then certDaysLeft else none

/-- `_overall_status_from_snapshot` -/
def overallStatus (cfg : Config) (snapshot : Snapshot) : TargetStatus :=
  let checks :=
    (if cfg.enableHttpCheck then [snapshot.httpUp] else []) ++
      (if cfg.enablePing then [snapshot.pingUp] else []) ++
        if cfg.enableTcpConnect then [snapshot.tcpUp] else []
  if checks = [] then .disabled
  else if none ∈ checks then .unknown
  else if some false ∈ checks then .down
  else .up

/-- `TargetRuntime` -/
structure Runtime where
  lastOverallOk : Option Bool := none
  downSince : Service → Option Int := fun _ => none
  currentAlertId : Option Nat := none
  failedServices : List Text := []
  certAlertSent : Bool := false
  certAlertId : Option Nat := none
  consecutiveFailures : Nat := 0
  consecutiveSuccesses : Nat := 0
  failTimestamps : List Int := []

/-- What a cycle tells of a service: nothing of one that is not enabled. -/
def verdict (cfg : Config) (snapshot : Snapshot) : Service → Option Bool
  | .http => if cfg.enableHttpCheck then snapshot.httpUp else none
  | .ping => if cfg.enablePing then snapshot.pingUp else none
  | .tcp => if cfg.enableTcpConnect then snapshot.tcpUp else none
  | .cert => if cfg.enableCertExpiration && snapshot.certDaysLeft.isSome then some true else none

/-- `_update_service` -/
def updateService (now : Int) (isOk : Option Bool) (since : Option Int) : Option Int :=
  match isOk with
  | some true => none
  | some false => some (since.getD now)
  | none => since

/-- The calls of `_update_service` in one cycle. -/
def Runtime.updateServices (cfg : Config) (snapshot : Snapshot) (now : Int) (rt : Runtime) :
    Runtime :=
  { rt with downSince := fun service =>
      updateService now (verdict cfg snapshot service) (rt.downSince service) }

/-- The services that have been down for the whole timeout. -/
def Runtime.alertingServices (timeout now : Int) (rt : Runtime) : List Service :=
  Service.all.filter fun service => (rt.downSince service).any fun since => timeout ≤ now - since

def second : Int := 1000000

def failWindow : Int := 300 * second
def failThreshold : Nat := 3
def alertCooldown : Int := 300 * second
def certExpiryAlertDays : Int := 7

/-- The window of the failures that is kept for the counters. -/
def Runtime.trimFailures (now : Int) (rt : Runtime) : Runtime :=
  { rt with failTimestamps := rt.failTimestamps.dropWhile fun at_ => failWindow < now - at_ }

/-- The counters of a cycle in which some services are alerting, or none. -/
def Runtime.count (now : Int) (alerting : List Service) (rt : Runtime) : Runtime :=
  if alerting = [] then
    { rt with
      failTimestamps := []
      consecutiveFailures := 0
      consecutiveSuccesses := rt.consecutiveSuccesses + 1 }
  else
    let stamps := (rt.failTimestamps ++ [now]).rtake (failThreshold * 2)
    { rt with
      failTimestamps := stamps
      consecutiveSuccesses := 0
      consecutiveFailures := stamps.length }

end Justup.Monitor
