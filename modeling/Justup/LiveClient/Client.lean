import Justup.Lib.Obligation

/-!
# The client of the live updates

The state machine of one tab.  A handler runs as a whole; timers, answers and the
browser's events come in any order.  How long a timer runs is left out: an armed one may
fire at any time.  Subscribers and listeners do not call the client back.
-/

namespace Justup.LiveClient

open Lib

def fallbackAfterAttempts : ℕ := 3
def offlineAfterProbeFailures : ℕ := 2

/-- `EVENT_TYPES` -/
inductive EventType where
  | targetMeasurement
  | targetStatus
  | alertChanged
  | notificationChanged
  | targetChanged
  | systemHeartbeat
  | systemResync
  | systemAuthLost
  deriving DecidableEq

/-- What is read of the data of a message; a value that is not truthy is none. -/
structure Data where
  targetId : Option String := none
  version : Option String := none
  deriving DecidableEq

structure Event where
  type : EventType
  data : Data
  deriving DecidableEq

/-- `domNames` -/
def domNames (type : EventType) (data : Data) : List String :=
  let own := (data.targetId.map fun id => "justup-target-" ++ id).toList
  match type with
  | .targetStatus | .targetMeasurement => ["justup-status-summary", "justup-target-list"] ++ own
  | .alertChanged => ["justup-status-summary"] ++ own
  | .targetChanged => ["justup-target-list", "justup-status-summary"] ++ own
  | _ => []

/-! ## Subscribers -/

/-- What concerns a subscriber, in the order in which it happens. -/
inductive Mark where
  /-- An event of its types was delivered while the tab was hidden. -/
  | missed
  /-- The stream was torn down. -/
  | interrupted
  /-- The stream is back after an interruption. -/
  | reconnected (hidden : Bool)
  | resynced
  /-- The end of a notification in a visible tab. -/
  | visible
  | handled (batch : List Event)
  deriving DecidableEq

namespace Mark

def isMissed : Mark → Bool
  | missed => true
  | _ => false

def isInterrupted : Mark → Bool
  | interrupted => true
  | _ => false

def isReconnected : Mark → Bool
  | reconnected _ => true
  | _ => false

/-- The stream came back in a tab that was not hidden. -/
def isReconnectedInView : Mark → Bool
  | reconnected hidden => !hidden
  | _ => false

def isResynced : Mark → Bool
  | resynced => true
  | _ => false

def isVisible : Mark → Bool
  | visible => true
  | _ => false

/-- After it the components may show what is no longer true. -/
def isStale (mark : Mark) : Bool := mark.isMissed || mark.isReconnected

end Mark

/-- A subscriber is in the list of the client as long as it is `active`; `log` is a record
that only the marks of the log itself read. -/
structure Sub where
  id : ℕ
  types : List EventType
  hasResync : Bool
  pending : List Event := []
  timer : Bool := false
  dirty : Bool := false
  log : List Mark := []
  deriving DecidableEq

namespace Sub

variable (sub : Sub)

def note (mark : Mark) : Sub := { sub with log := sub.log ++ [mark] }

def callResync : Sub := sub.note .resynced

/-- `flushSub` -/
def flush : Sub :=
  let flushed := { sub with timer := false, pending := [] }
  if sub.pending = [] then flushed else flushed.note (.handled sub.pending)

/-- `deliver`, for one subscriber -/
def deliver (hidden : Bool) (event : Event) : Sub :=
  if event.type ∉ sub.types then sub
  else if hidden then { sub with dirty := true }.note .missed
  else { sub with pending := sub.pending ++ [event], timer := true }

/-- `resyncAll`, for one subscriber -/
def resyncIn (hidden : Bool) : Sub :=
  if !sub.hasResync then sub
  else if hidden then { sub with dirty := true }
  else sub.callResync

/-- `notifyVisible`, for one subscriber -/
def notifyVisible : Sub :=
  let shown :=
    if !sub.dirty then sub
    else
      let clean := { sub with dirty := false }
      if sub.hasResync then clean.callResync else clean
  shown.note .visible

/-- Whether the stream has been torn down and has not come back since. -/
def isInterrupted : Bool := Obligation.isOpen Mark.isInterrupted Mark.isReconnected sub.log

/-- The stream is connected: it has come back when it was interrupted. -/
def connected (hidden : Bool) : Sub :=
  if sub.isInterrupted then sub.note (.reconnected hidden) else sub

end Sub

/-! ## The state of the client -/

inductive State where
  | connected
  | reconnecting
  | fallback
  | offline
  | authenticationLost
  deriving DecidableEq

/-- What a chain of recovery waits for; `busy` is the answer of `probe` while another probe
is under way. -/
inductive Request where
  | busy
  | health
  | session (wasOffline : Bool)
  deriving DecidableEq

/-- Which timers are armed. -/
structure Timers where
  heartbeat : Bool := false
  step : Bool := false
  fallback : Bool := false
  safety : Bool := false
  dom : Bool := false
  deriving DecidableEq

/-- What the client asks of the page. -/
inductive Call where
  | dispatchDom (name : String)
  | reload
  | goLogin
  deriving DecidableEq

/-- The variables of `createLiveClient`.  A source is known by the number of those constructed
before it; `opened`, `heard` and `calls` are records that nothing reads. -/
structure Client where
  hasEventSource : Bool
  isHidden : Bool := false
  state : State := .reconnecting
  es : Option ℕ := none
  closed : Bool := false
  recovering : Bool := false
  attempts : ℕ := 0
  probeFailures : ℕ := 0
  probing : Bool := false
  hadProblem : Bool := false
  version : Option String := none
  subs : List Sub := []
  subscribed : ℕ := 0
  timers : Timers := {}
  domPending : List String := []
  domDirty : Bool := false
  requests : List Request := []
  sources : ℕ := 0
  /-- The sources that have been constructed and not been closed. -/
  opened : List ℕ := []
  /-- The source of the last message. -/
  heard : Option ℕ := none
  calls : List Call := []
  deriving DecidableEq

namespace Client

variable (client : Client)

/-- A state that is neither connected, nor lost, nor closed. -/
def isActive : Bool :=
  !client.closed && client.state ≠ .connected && client.state ≠ .authenticationLost

def call (call : Call) : Client := { client with calls := client.calls ++ [call] }

/-- `setState` with `startFallbackTicks` -/
def setState (next : State) : Client :=
  if next = client.state then client
  else { client with
    state := next
    timers.fallback := next = .reconnecting || next = .fallback }

/-! ## Component fan-out -/

def bridge (type : EventType) (data : Data) : Client :=
  let names := domNames type data
  if names = [] then client
  else if client.isHidden then { client with domDirty := true }
  else { client with
    domPending := names.foldl (fun pending name =>
      if name ∈ pending then pending else pending ++ [name]) client.domPending
    timers.dom := true }

def flushDom : Client :=
  { client with domPending := [], calls := client.calls ++ client.domPending.map .dispatchDom }

def deliver (type : EventType) (data : Data) : Client :=
  let client : Client :=
    { client with subs := client.subs.map fun sub => sub.deliver client.isHidden ⟨type, data⟩ }
  client.bridge type data

def resyncAll : Client :=
  let resynced : Client :=
    { client with subs := client.subs.map fun sub => sub.resyncIn client.isHidden }
  if client.isHidden then { resynced with domDirty := true }
  else resynced.call (.dispatchDom "justup-live-sync")

/-! ## The connection -/

def armHeartbeat : Client := { client with timers.heartbeat := true }

def armStep : Client := { client with timers.step := true }

def teardown : Client :=
  let client := { client with timers.heartbeat := false }
  match client.es with
  | none => client
  | some source => { client with
      es := none
      opened := client.opened.filter (· ≠ source)
      subs := client.subs.map fun sub => sub.note .interrupted }

def probe : Client :=
  if client.probing then { client with requests := client.requests ++ [.busy] }
  else { client with probing := true, requests := client.requests ++ [.health] }

def step : Client :=
  if client.isActive then client.probe else { client with recovering := false }

def recover : Client :=
  if client.recovering || client.closed then client
  else { client with recovering := true }.step

def lost : Client :=
  if client.closed || client.state = .authenticationLost then client
  else
    let client := { client with hadProblem := true, timers.safety := false }
    (if client.state = .connected then client.setState .reconnecting else client).recover

/-- `connect`; `constructs` tells whether the constructor returns. -/
def connect (constructs : Bool) : Client :=
  if client.closed || client.es.isSome || !client.hasEventSource ||
      client.state = .authenticationLost then client
  else if !constructs then client.lost
  else { client with
    es := some client.sources
    sources := client.sources + 1
    opened := client.opened ++ [client.sources] }.armHeartbeat

def onConnected : Client :=
  let up : Client := { client with
    attempts := 0
    probeFailures := 0
    timers.step := false
    recovering := false
    hadProblem := false
    subs := client.subs.map fun sub => sub.connected client.isHidden }
  let up := { up.setState .connected with timers.safety := true }
  if client.hadProblem then up.resyncAll else up

/-- What a message does once the client is connected. -/
def handle (type : EventType) (data : Data) : Client :=
  match type with
  | .systemHeartbeat =>
      match data.version with
      | none => client
      | some version =>
          if client.version.isSome && client.version ≠ some version then client.call .reload
          else { client with version := some version }
  | .systemResync => client.resyncAll
  | .systemAuthLost => client.teardown.lost
  | _ => client.deliver type data

def onMessage (type : EventType) (data : Data) : Client :=
  let client := client.armHeartbeat
  (if client.state = .connected then client else client.onConnected).handle type data

/-! ## Recovery -/

def authLost : Client :=
  let client := { client.teardown with
    recovering := false
    timers.step := false
    timers.fallback := false
    timers.safety := false }
  (client.setState .authenticationLost).call .goLogin

/-- The answer of `probe` arrives in `step`. -/
def probed (ok : Option Bool) : Client :=
  if !client.isActive then { client with recovering := false }
  else match ok with
  | none => client.armStep
  | some false =>
      let client := { client with probeFailures := client.probeFailures + 1 }
      (if client.probeFailures ≥ offlineAfterProbeFailures then client.setState .offline
        else client).armStep
  | some true => { client with
      probeFailures := 0
      requests := client.requests ++ [.session (client.state = .offline)] }

/-- The answer of `fetchSession` arrives in `step`; a failure has status 0. -/
def sessionAnswered (wasOffline : Bool) (status : ℕ) (constructs : Bool) : Client :=
  if client.closed then client
  else if status = 401 || status = 403 then client.authLost
  else
    let client := { client with attempts := client.attempts + 1 }
    let client := client.setState
      (if client.attempts ≥ fallbackAfterAttempts || !client.hasEventSource then .fallback
        else .reconnecting)
    let client := if wasOffline then client.resyncAll else client
    (client.connect constructs).armStep

/-! ## The timers -/

def fireFallback : Client :=
  let client := { client with timers.fallback := false }
  if client.state = .reconnecting || client.state = .fallback then
    { (if client.isHidden then client else client.resyncAll) with timers.fallback := true }
  else client

def fireSafety : Client :=
  let client := { client with timers.safety := false }
  if client.state = .connected then
    { (if client.isHidden then client else client.resyncAll) with timers.safety := true }
  else client

/-! ## The public functions -/

def start (constructs : Bool) : Client :=
  if !client.hasEventSource then ({ client with hadProblem := true }.setState .fallback).recover
  else client.connect constructs

def subscribe (types : List EventType) (hasResync : Bool) : Client :=
  { client with
    subs := client.subs ++ [{ id := client.subscribed, types, hasResync }]
    subscribed := client.subscribed + 1 }

def unsubscribe (id : ℕ) : Client := { client with subs := client.subs.filter (·.id ≠ id) }

def notifyVisible : Client :=
  if client.isHidden then client
  else
    let shown := { client with domDirty := false, subs := client.subs.map Sub.notifyVisible }
    if client.domDirty then shown.call (.dispatchDom "justup-live-sync") else shown

def notifyBrowserOffline : Client := client.teardown.lost

def notifyBrowserOnline : Client :=
  if client.state = .connected then client
  else { client with attempts := 0, timers.step := false, recovering := false }.recover

def reportHttpFailure : Client := if client.state = .connected then client else client.recover

def close : Client := { { client with closed := true }.teardown with timers := {}, subs := [] }

end Client

/-! ## Runs -/

inductive Timer where
  | heartbeat
  | step
  | fallback
  | safety
  | dom
  deriving DecidableEq

inductive Action where
  | visibility (hidden : Bool)
  | subscribe (types : List EventType) (hasResync : Bool)
  | unsubscribe (id : ℕ)
  | message (source : ℕ) (type : EventType) (data : Data)
  | errored (source : ℕ)
  | fire (timer : Timer)
  | flush (id : ℕ)
  | busyAnswer
  | healthAnswer (ok : Bool)
  | sessionAnswer (wasOffline : Bool) (status : ℕ) (constructs : Bool)
  | notifyVisible
  | notifyBrowserOffline
  | notifyBrowserOnline
  | reportHttpFailure
  | close
  deriving DecidableEq

/-- The status of an answer to a session request. -/
def Action.sessionStatus? : Action → Option ℕ
  | .sessionAnswer _ status _ => some status
  | _ => none

namespace Client

variable (client : Client)

/-- The listeners of a source, which look whether it is the current one. -/
def onSource (source : ℕ) (f : Client → Client) : Client :=
  if client.es = some source then f client else client

/-- An armed timer fires. -/
def fired : Timer → Option Client
  | .heartbeat =>
      if client.timers.heartbeat then
        some { client with timers.heartbeat := false }.teardown.lost
      else none
  | .step =>
      if client.timers.step then some { client with timers.step := false }.step else none
  | .fallback => if client.timers.fallback then some client.fireFallback else none
  | .safety => if client.timers.safety then some client.fireSafety else none
  | .dom => if client.timers.dom then some { client with timers.dom := false }.flushDom else none

/-- A pending request is answered. -/
def answered (request : Request) (f : Client → Client) : Option Client :=
  if request ∈ client.requests then
    some (f { client with requests := client.requests.erase request })
  else none

def next : Action → Option Client
  | .visibility hidden => some { client with isHidden := hidden }
  | .subscribe types hasResync => some (client.subscribe types hasResync)
  | .unsubscribe id => some (client.unsubscribe id)
  | .message source type data => some (client.onSource source fun client =>
      { client with heard := some source }.onMessage type data)
  | .errored source => some (client.onSource source fun client => client.teardown.lost)
  | .fire timer => client.fired timer
  | .flush id =>
      if client.subs.any fun sub => sub.id = id && sub.timer then
        some { client with
          subs := client.subs.map fun sub => if sub.id = id then sub.flush else sub }
      else none
  | .busyAnswer => client.answered .busy fun client => client.probed none
  | .healthAnswer ok => client.answered .health fun client =>
      { client with probing := false }.probed (some ok)
  | .sessionAnswer wasOffline status constructs => client.answered (.session wasOffline)
      fun client => client.sessionAnswered wasOffline status constructs
  | .notifyVisible => some client.notifyVisible
  | .notifyBrowserOffline => some client.notifyBrowserOffline
  | .notifyBrowserOnline => some client.notifyBrowserOnline
  | .reportHttpFailure => some client.reportHttpFailure
  | .close => some client.close

end Client

/-- `createLiveClient` -/
def createLiveClient (hasEventSource isHidden : Bool) : Client :=
  { hasEventSource := hasEventSource, isHidden := isHidden }

/-- The script that creates a client subscribes to it and starts it, before anything else
can happen. -/
def launch (hasEventSource isHidden constructs : Bool) (setup : List (List EventType × Bool)) :
    Client :=
  (setup.foldl (fun client sub => client.subscribe sub.1 sub.2)
    (createLiveClient hasEventSource isHidden)).start constructs

end Justup.LiveClient
