import Mathlib

/-!
# A supervised service

What the supervisor remembers of a service and the routines that change it:
failure series, hang history, recovery and crash bookkeeping.  Times are
microseconds of the monotonic clock.  The alerts that were handed to the
notifier are kept in order; a failing notifier changes nothing else.
-/

namespace Justup.Supervisor

inductive ServiceState where
  | starting
  | running
  | backoff
  | degraded
  | paused
  | stopped
  deriving DecidableEq, Repr

/-- Restart tuning; every time value is in microseconds, `jitter` in millionths. -/
structure SupervisionPolicy where
  backoffInitial : Int := 1000000
  backoffMax : Int := 60000000
  backoffFactor : Int := 2
  jitter : Int := 250000
  crashWindow : Int := 300000000
  crashLimit : Nat := 5
  degradedRetry : Int := 300000000
  stableAfter : Int := 60000000
  hangWindow : Int := 86400000000
  hangLimit : Nat := 3
  hangRecoveryAfter : Int := 3600000000
  failureLimit : Nat := 5
  failureMinSpan : Int := 120000000
  maintenancePoll : Int := 500000
  checkInterval : Int := 1000000
  cancelTimeout : Int := 10000000

/-- The policy, what a `ServiceSpec` says, and whether there is a notifier. -/
structure Config where
  policy : SupervisionPolicy := {}
  heartbeatTimeout : Option Int := none
  failureLimit : Option Nat := none
  notifier : Bool := true

/-- `svc.spec.failure_limit or self._policy.failure_limit` -/
def Config.failLimit (cfg : Config) : Nat :=
  match cfg.failureLimit with
  | none => cfg.policy.failureLimit
  | some limit => if limit = 0 then cfg.policy.failureLimit else limit

inductive AlertKind where
  | crashed
  | degraded
  | recovered
  deriving DecidableEq, Repr

inductive AlertReason where
  | crashLoop
  | hangs
  | failureSeries
  | hangNotCancellable
  | none
  deriving DecidableEq, Repr

/-- A `ServiceAlert`.  The state before the transition is not in the code; nor is the
mark of the alert that closes the incident of a previous process. -/
structure Alert where
  kind : AlertKind
  reason : AlertReason
  state : ServiceState
  excType : Option String
  crashesTotal : Nat
  before : ServiceState
  initial : Bool
  deriving DecidableEq, Repr

/-- How a run ended. -/
inductive RunEnd where
  | exited
  | cancelled
  | hung
  | maintenanceActive
  | raised (excType : String)
  deriving DecidableEq, Repr

def RunEnd.excType : RunEnd → String
  | .exited => "ServiceExitedError"
  | .cancelled => "CancelledError"
  | .hung => "ServiceHungError"
  | .maintenanceActive => "MaintenanceActiveError"
  | .raised excType => excType

structure Service where
  state : ServiceState := .starting
  attempt : Nat := 0
  starts : Nat := 0
  crashesTotal : Nat := 0
  /-- Oldest first, as is `hangs`. -/
  crashes : List Int := []
  hangs : List Int := []
  lastExcType : Option String := none
  lastBeat : Int := 0
  needsRecoveryLog : Bool := false
  settled : Bool := false
  failStreak : Nat := 0
  failSince : Option Int := none
  failDegraded : Bool := false
  okSince : Option Int := none
  alerts : List Alert := []
  deriving DecidableEq, Repr

namespace Service

/-- `_notify`, after the state was set; `before` is what it was. -/
def notify (cfg : Config) (kind : AlertKind) (reason : AlertReason) (before : ServiceState)
    (initial : Bool) (svc : Service) : Service :=
  let alert : Alert :=
    ⟨kind, reason, svc.state, svc.lastExcType, svc.crashesTotal, before, initial⟩
  { svc with alerts := if cfg.notifier then svc.alerts ++ [alert] else svc.alerts }

/-- `_recovered` -/
def recovered (cfg : Config) (svc : Service) : Service :=
  { svc with state := .running }.notify cfg .recovered .none svc.state false

/-- The degradation of a service that is not degraded already. -/
def degrade (cfg : Config) (reason : AlertReason) (svc : Service) : Service :=
  if svc.state = .degraded then svc
  else { svc with state := .degraded }.notify cfg .degraded reason svc.state false

/-- The times that lie within the window. -/
def withinWindow (window now : Int) (times : List Int) : List Int :=
  times.dropWhile fun t => window < now - t

/-- `_recent_hangs`: the history without the hangs that left the window. -/
def pruneHangs (cfg : Config) (now : Int) (svc : Service) : Service :=
  { svc with hangs := withinWindow cfg.policy.hangWindow now svc.hangs }

/-! ## Reports of a running service -/

def reportFailure (cfg : Config) (now : Int) (excType : String) (svc : Service) : Service :=
  let since := if svc.failStreak = 0 then some now else svc.failSince
  let svc := { svc with
    failSince := since
    failStreak := svc.failStreak + 1
    okSince := none
    lastExcType := some excType }
  let span := now - since.getD now
  if cfg.failLimit ≤ svc.failStreak ∧ cfg.policy.failureMinSpan ≤ span ∧
      svc.failDegraded = false then
    { svc with failDegraded := true }.degrade cfg .failureSeries
  else svc

/-- The next failure completes a series. -/
def SeriesDue (cfg : Config) (now : Int) (svc : Service) : Prop :=
  cfg.failLimit ≤ svc.failStreak + 1 ∧
    cfg.policy.failureMinSpan ≤
      now - (if svc.failStreak = 0 then some now else svc.failSince).getD now ∧
    svc.failDegraded = false

instance (cfg : Config) (now : Int) (svc : Service) : Decidable (svc.SeriesDue cfg now) :=
  inferInstanceAs (Decidable (_ ∧ _))

/-- What every failure is remembered by. -/
def failed (now : Int) (excType : String) (svc : Service) : Service :=
  { svc with
    failSince := if svc.failStreak = 0 then some now else svc.failSince
    failStreak := svc.failStreak + 1
    okSince := none
    lastExcType := some excType }

theorem reportFailure_eq (cfg : Config) (now : Int) (excType : String) (svc : Service) :
    svc.reportFailure cfg now excType =
      if svc.SeriesDue cfg now then
        { svc.failed now excType with failDegraded := true }.degrade cfg .failureSeries
      else svc.failed now excType :=
  if_congr Iff.rfl rfl rfl

def reportSuccess (now : Int) (svc : Service) : Service :=
  { svc with
    failStreak := 0
    failSince := none
    okSince := if svc.failDegraded ∧ svc.okSince = none then some now else svc.okSince }

/-! ## Recovery -/

def markStable (cfg : Config) (now : Int) (svc : Service) : Service :=
  if 0 < svc.failStreak then svc
  else
    let svc := { svc with attempt := 0, crashes := [] }
    if svc.failDegraded then svc
    else if svc.needsRecoveryLog then
      let svc := { svc with needsRecoveryLog := false, settled := true }.pruneHangs cfg now
      -- repeated hangs keep the service degraded until the long error-free window passes
      if svc.hangs.length < cfg.policy.hangLimit then svc.recovered cfg else svc
    else if svc.settled = false then
      { svc with settled := true }.notify cfg .recovered .none svc.state true
    else svc

def clearFailureSeries (cfg : Config) (now : Int) (svc : Service) : Service :=
  let svc := { svc with failDegraded := false, okSince := none }
  if svc.state = .degraded ∧ svc.crashes = [] then
    let svc := svc.pruneHangs cfg now
    if svc.hangs.length < cfg.policy.hangLimit then svc.recovered cfg else svc
  else svc

def clearHangs (cfg : Config) (svc : Service) : Service :=
  let svc := { svc with hangs := [] }
  if svc.state = .degraded ∧ svc.crashes = [] ∧ svc.failDegraded = false then svc.recovered cfg
  else svc

/-- The run counts as stable and something waits for that. -/
def duesStable (cfg : Config) (now started : Int) (svc : Service) : Bool :=
  (decide (0 < svc.attempt) || svc.needsRecoveryLog || (cfg.notifier && !svc.settled)) &&
    decide (cfg.policy.stableAfter ≤ now - started)

/-- The failure series ended long enough ago. -/
def seriesOver (cfg : Config) (now : Int) (svc : Service) : Bool :=
  svc.failDegraded && svc.okSince.any fun since => decide (cfg.policy.stableAfter ≤ now - since)

/-! The stability checks of one turn of the loop in `_run_once`. -/

def checkStable (cfg : Config) (now started : Int) (svc : Service) : Service :=
  if svc.duesStable cfg now started then svc.markStable cfg now else svc

def checkSeries (cfg : Config) (now : Int) (svc : Service) : Service :=
  if svc.seriesOver cfg now then svc.clearFailureSeries cfg now else svc

def checkHangs (cfg : Config) (now started : Int) (svc : Service) : Service :=
  if svc.hangs ≠ [] ∧ cfg.policy.hangRecoveryAfter ≤ now - started then svc.clearHangs cfg else svc

def evaluate (cfg : Config) (now started : Int) (svc : Service) : Service :=
  ((svc.checkStable cfg now started).checkSeries cfg now).checkHangs cfg now started

/-- The loop has something to watch for. -/
def watching (cfg : Config) (svc : Service) : Bool :=
  cfg.heartbeatTimeout.isSome || svc.needsRecoveryLog || decide (0 < svc.attempt) ||
    !svc.hangs.isEmpty || svc.failDegraded || (cfg.notifier && !svc.settled)

/-! ## Crashes -/

def recordCrash (cfg : Config) (now ranFor : Int) (exc : RunEnd) (svc : Service) : Service :=
  let svc :=
    if cfg.policy.stableAfter ≤ ranFor then { svc with attempt := 0, crashes := [] } else svc
  let crashed : Service := { svc with
    attempt := svc.attempt + 1
    crashesTotal := svc.crashesTotal + 1
    lastExcType := some exc.excType
    crashes := withinWindow cfg.policy.crashWindow now (svc.crashes ++ [now])
    hangs := if exc = .hung then svc.hangs ++ [now] else svc.hangs
    needsRecoveryLog := true
    settled := true
    -- degraded is sticky until a run turns out stable
    state := if svc.state = .degraded then .degraded else .backoff }
  crashed.notify cfg .crashed .none svc.state false

/-- The delay before the jitter. -/
def backoffBase (policy : SupervisionPolicy) (attempt : Nat) : Int :=
  min policy.backoffMax (policy.backoffInitial * policy.backoffFactor ^ min (attempt - 1) 64)

/-- `_backoff`; `draw` is the jitter drawn, in millionths. -/
def backoff (policy : SupervisionPolicy) (attempt : Nat) (draw : Int) : Int :=
  let draw := max (-policy.jitter) (min policy.jitter draw)
  let delay := backoffBase policy attempt * (1000000 + draw) / 1000000
  max 0 (min policy.backoffMax delay)

/-- `_next_delay`: the delay, and the service with what it changed. -/
def nextDelay (cfg : Config) (now draw : Int) (svc : Service) : Int × Service :=
  let svc := svc.pruneHangs cfg now
  let hangDegraded := cfg.policy.hangLimit ≤ svc.hangs.length
  if cfg.policy.crashLimit ≤ svc.crashes.length ∨ hangDegraded ∨ svc.state = .degraded then
    (cfg.policy.degradedRetry, svc.degrade cfg (if hangDegraded then .hangs else .crashLoop))
  else (backoff cfg.policy svc.attempt draw, svc)

end Service

end Justup.Supervisor
