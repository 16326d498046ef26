import Justup.Lib.Table
import Justup.Store.Line

/-!
# Alerts and their dispatch outbox

The rows of `alerts` and `alert_dispatch_outbox` and the operations on them.
Each operation is one transaction; times are microseconds.  The inbox rows that
some of them add are not modelled.
-/

namespace Justup.Alerts

open Justup.Lib.Table
open Justup.Store (Text)

inductive AlertStatus
  | «open»
  | resolved
deriving DecidableEq

inductive EventType
  | «open»
  | resolved
deriving DecidableEq

structure Alert where
  id : Nat
  targetId : Nat
  targetName : Text
  failedService : Text
  status : AlertStatus
  activeIncident : Bool
  startedAt : Int
  endedAt : Option Int
  durationSeconds : Option Int
  isAcknowledged : Bool
  acknowledgedBy : Option Text
  acknowledgedAt : Option Int
deriving DecidableEq

inductive DispatchStatus
  | pending
  | completed
deriving DecidableEq

/-- A row of `alert_dispatch_outbox`. -/
structure OutboxEntry where
  alertId : Nat
  eventType : EventType
  targetId : Nat
  targetName : Text
  failedService : Text
  startedAt : Int
  endedAt : Option Int
  durationSeconds : Option Int
  status : DispatchStatus
  attempts : Nat
  lastError : Option Text
  nextAttemptAt : Int
  createdAt : Int
deriving DecidableEq

structure AlertDb where
  alerts : List Alert
  outbox : List OutboxEntry

/-- The unique key of the outbox. -/
def OutboxEntry.key (entry : OutboxEntry) : Nat × EventType := (entry.alertId, entry.eventType)

/-- `int(delta.total_seconds())`: the fraction is cut off. -/
def wholeSeconds (micros : Int) : Int := micros.tdiv 1000000

/-- `enqueue_alert_dispatch`: `INSERT OR IGNORE`. -/
def enqueueAlertDispatch (now : Int) (event : EventType) (alert : Alert) (endedAt : Option Int)
    (durationSeconds : Option Int) (outbox : List OutboxEntry) : List OutboxEntry :=
  if outbox.any fun entry => entry.key = (alert.id, event) then outbox
  else outbox ++ [{
    alertId := alert.id, eventType := event, targetId := alert.targetId
    targetName := alert.targetName, failedService := alert.failedService
    startedAt := alert.startedAt, endedAt := endedAt, durationSeconds := durationSeconds
    status := .pending, attempts := 0, lastError := none, nextAttemptAt := now, createdAt := now }]

/-- The row that `create_alert` inserts. -/
def newAlert (id targetId : Nat) (targetName failedService : Text) (startedAt : Int) : Alert where
  id := id
  targetId := targetId
  targetName := targetName
  failedService := failedService
  status := .open
  activeIncident := true
  startedAt := startedAt
  endedAt := none
  durationSeconds := none
  isAcknowledged := false
  acknowledgedBy := none
  acknowledgedAt := none

/-- `create_alert`; a second row with the id is refused and nothing is kept. -/
def createAlert (now : Int) (alert : Alert) (dispatchOutbox : Bool) (db : AlertDb) :
    Option AlertDb :=
  if db.alerts.any fun old => old.id = alert.id then none
  else some {
    alerts := db.alerts ++ [alert]
    outbox := if dispatchOutbox then enqueueAlertDispatch now .open alert none none db.outbox
      else db.outbox }

/-- The columns that `resolve_alert` sets, whatever they were. -/
def resolved (endedAt : Int) (alert : Alert) : Alert :=
  { alert with
    status := .resolved
    activeIncident := false
    endedAt := some endedAt
    durationSeconds := some (wholeSeconds (endedAt - alert.startedAt)) }

/-- `resolve_alert`. -/
def resolveAlert (now : Int) (id : Nat) (endedAt : Int) (dispatchOutbox : Bool) (db : AlertDb) :
    AlertDb :=
  match row? Alert.id id db.alerts with
  | none => db
  | some alert => {
      alerts := update Alert.id id (resolved endedAt) db.alerts
      outbox :=
        if dispatchOutbox then
          enqueueAlertDispatch now .resolved alert (some endedAt)
            (some (wholeSeconds (endedAt - alert.startedAt))) db.outbox
        else db.outbox }

/-- `deactivate_alert`: only an open alert. -/
def deactivated (alert : Alert) : Alert :=
  if alert.status = .open then { alert with activeIncident := false } else alert

def deactivateAlert (id : Nat) (db : AlertDb) : AlertDb :=
  { db with alerts := update Alert.id id deactivated db.alerts }

/-- The columns that both acknowledgements set: the end and the duration only
where there is none yet (`COALESCE`). -/
def acknowledged (now duration : Int) (by_ : Text) (alert : Alert) : Alert :=
  { alert with
    status := .resolved
    activeIncident := false
    endedAt := some (alert.endedAt.getD now)
    durationSeconds := some (alert.durationSeconds.getD duration)
    isAcknowledged := true
    acknowledgedBy := some by_
    acknowledgedAt := some now }

/-- `acknowledge_alert`: an alert that is not acknowledged yet. -/
def acknowledgeOne (now : Int) (by_ : Text) (alert : Alert) : Alert :=
  if alert.isAcknowledged then alert
  else acknowledged now (wholeSeconds (now - alert.startedAt)) by_ alert

def acknowledgeAlert (now : Int) (id : Nat) (by_ : Text) (db : AlertDb) : AlertDb :=
  { db with alerts := update Alert.id id (acknowledgeOne now by_) db.alerts }

/-- `CAST(x AS INTEGER)` of a number of seconds: the fraction is cut off. -/
def castInteger (seconds : Rat) : Int := seconds.num.tdiv seconds.den

/-- `acknowledge_all_open_alerts`; `elapsed now started` is the value of
`(julianday(now) - julianday(started_at)) * 86400`. -/
def acknowledgeOpen (elapsed : Int → Int → Rat) (now : Int) (by_ : Text) (alert : Alert) : Alert :=
  if alert.status = .open ∧ alert.isAcknowledged = false then
    acknowledged now (castInteger (elapsed now alert.startedAt)) by_ alert
  else alert

def acknowledgeAllOpenAlerts (elapsed : Int → Int → Rat) (now : Int) (by_ : Text) (db : AlertDb) :
    AlertDb :=
  { db with alerts := db.alerts.map (acknowledgeOpen elapsed now by_) }

end Justup.Alerts
