import Justup.Incidents.Recovery
import Justup.Supervisor.Service

/-!
# The sink of the supervisor's alerts

`ServiceAlertSink` keeps alerts in a bounded queue and writes them one by one.
It takes an alert for stored when the incident of its service is open, or closed,
after the write.  Between two steps of the draining task further alerts arrive.
`aclose` takes no alert from the queue and is left out.
-/

namespace Justup.Incidents

open Lib.Fallible Lib.Transition Supervisor

def maxPending : Nat := 50
def maxAttempts : Nat := 30
def retryInitialSeconds : Nat := 1
def retryMaxSeconds : Nat := 60

/-- A `ServiceAlert`; what the supervisor says of the service is in `alert`. -/
structure ServiceAlert where
  service : String
  label : String
  time : Int
  alert : Alert
  deriving DecidableEq, Repr

/-! ## Texts -/

def incidentName (service : String) : String := "supervisor." ++ service

def isLetter (char : Char) : Bool :=
  (65 ≤ char.toNat && char.toNat ≤ 90) || (97 ≤ char.toNat && char.toNat ≤ 122) || char == '_'

/-- `_EXC_TYPE`; its `$` also matches before a newline at the end. -/
def isExcType (text : String) : Bool :=
  let chars := text.toList
  let chars := if chars.getLast? = some '\n' then chars.dropLast else chars
  match chars with
  | [] => false
  | first :: rest => isLetter first && rest.length ≤ 59 &&
      rest.all fun char => isLetter char || (48 ≤ char.toNat && char.toNat ≤ 57) || char == '.'

def excName (excType : Option String) : String :=
  match excType with
  | none => "Error"
  | some text => if isExcType text then text else "Error"

/-- `_CAUSES`, with the default of the lookup. -/
def cause : AlertReason → String
  | .crashLoop => "repeated crashes"
  | .hangs => "repeated hangs"
  | .failureSeries => "repeated failures"
  | .hangNotCancellable | .none => "repeated errors"

def twoDigits (number : Nat) : String :=
  if number < 10 then "0" ++ toString number else toString number

/-- `f"{alert.at:%H:%M} UTC"` -/
def clockTime (time : Int) : String :=
  twoDigits (time / 3600000000 % 24).toNat ++ ":" ++ twoDigits (time / 60000000 % 60).toNat ++ " UTC"

namespace ServiceAlert

def name (a : ServiceAlert) : String := incidentName a.service

def degraded (a : ServiceAlert) : Bool :=
  decide (a.alert.kind = .degraded) || decide (a.alert.state = .degraded)

def title (a : ServiceAlert) : String :=
  if a.degraded then a.label ++ " degraded" else a.label ++ " crashed"

def body (a : ServiceAlert) : String :=
  if a.degraded then
    "Status: degraded · " ++ cause a.alert.reason ++ " · last error " ++ excName a.alert.excType ++
      " · " ++ toString a.alert.crashesTotal ++ " crash(es) · " ++ clockTime a.time
  else
    "Restarting automatically · " ++ excName a.alert.excType ++ " · " ++
      toString a.alert.crashesTotal ++ " crash(es) since start · " ++ clockTime a.time

def severity (a : ServiceAlert) : Severity := if a.degraded then .error else .warning

def report (a : ServiceAlert) : Report where
  title := a.title
  body := a.body
  severity := a.severity
  now := a.time
  category := .activity
  resourceType := none

def recoveredBody (a : ServiceAlert) : String :=
  "Running stably again · " ++ toString a.alert.crashesTotal ++ " crash(es) since start · " ++
    clockTime a.time

end ServiceAlert

/-! ## One write -/

structure WriteFaults where
  connect : Bool := false
  block : BlockFaults := {}
  /-- The incident is read before and after the helper was called. -/
  peek : Bool := false
  check : Bool := false
  report : ReportFaults := {}
  update : UpdateFaults := {}
  resolve : ResolveFaults := {}
  deriving DecidableEq, Repr

/-- A degradation rewrites the row of an incident that is open. -/
def escalates (faults : WriteFaults) (a : ServiceAlert) : Prog Inbox Bool :=
  if a.alert.kind = .degraded then do
    let state ← getIncident faults.peek a.name
    pure state.isSome
  else pure false

/-- What `_apply` calls `persisted`. -/
def persisted (faults : WriteFaults) (a : ServiceAlert) : Prog Inbox Bool :=
  if a.alert.kind = .recovered then do
    let _ ← resolveIncident false faults.resolve a.name (a.label ++ " recovered") a.recoveredBody
      a.time
    let state ← getIncident faults.check a.name
    pure state.isNone
  else do
    let escalates ← escalates faults a
    if escalates then updateIncident false faults.update a.name a.title a.body a.severity true
    else do
      let _ ← reportIncident false faults.report a.name a.report
      let state ← getIncident faults.check a.name
      pure state.isSome

/-- `_apply`; the inbox helpers swallow storage errors. -/
def apply (faults : WriteFaults) (a : ServiceAlert) : Prog Inbox Unit := do
  let persisted ← persisted faults a
  if persisted then pure () else raise

/-- `write`, with a connection of its own. -/
def write (faults : WriteFaults) (a : ServiceAlert) : Prog Inbox Unit :=
  if faults.connect then raise else owned faults.block (apply faults a)

/-! ## The queue -/

/-- What the draining task does. -/
inductive SinkPhase where
  | idle
  /-- The task was created and did not begin. -/
  | created
  | writing (number : Nat) (alert : ServiceAlert)
  | sleeping
  deriving DecidableEq, Repr

/-- Every alert that arrives is one object, told apart here by its number. -/
structure Sink where
  inbox : Inbox
  pending : List (Nat × ServiceAlert)
  arrived : Nat
  attempts : Nat
  delay : Nat
  phase : SinkPhase
  /-- Not in the code: how many writes of the alert failed. -/
  failures : Nat → Nat

inductive SinkAct where
  | alert (alert : ServiceAlert)
  | begin
  | finish (faults : WriteFaults)
  | wake
  deriving DecidableEq, Repr

namespace Sink

/-- The head of the loop in `_drain`. -/
def next (sink : Sink) : Sink :=
  match sink.pending with
  | [] => { sink with phase := .idle }
  | (number, alert) :: _ => { sink with phase := .writing number alert }

/-- `_discard` -/
def discard (number : Nat) (sink : Sink) : Sink :=
  { sink with pending :=
      if sink.pending.head?.map Prod.fst = some number then sink.pending.tail else sink.pending }

def settle (sink : Sink) : Sink := { sink with attempts := 0, delay := retryInitialSeconds }

/-- The rest of the turn of `_drain` after the write raised. -/
def failed (limit number : Nat) (sink : Sink) : Sink :=
  let sink := { sink with
    attempts := sink.attempts + 1
    failures := Function.update sink.failures number (sink.failures number + 1) }
  if limit ≤ sink.attempts then (sink.discard number).settle.next
  else { sink with phase := .sleeping }

def step (limit : Nat) (sink : Sink) : SinkAct → Option Sink
  | .alert alert =>
      let kept := if sink.pending.length = maxPending then sink.pending.tail else sink.pending
      some { sink with
        pending := kept ++ [(sink.arrived, alert)]
        arrived := sink.arrived + 1
        phase := if sink.phase = .idle then .created else sink.phase }
  | .begin => if sink.phase = .created then some sink.settle.next else none
  | .finish faults =>
      match sink.phase with
      | .writing number alert =>
          match write faults alert sink.inbox with
          | (none, later) => some ({ sink with inbox := later }.failed limit number)
          | (some _, later) =>
              some (({ sink with inbox := later }.discard number).settle.next)
      | _ => none
  | .wake =>
      if sink.phase = .sleeping then
        some { sink with delay := min (sink.delay * 2) retryMaxSeconds }.next
      else none

end Sink

end Justup.Incidents
