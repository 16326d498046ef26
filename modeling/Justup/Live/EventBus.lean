import Justup.Lib.Transition
import Mathlib

/-!
# The live event bus

`event_bus.py`: any thread publishes, the event loop delivers to bounded
buffers, clients take from their buffer with `next`.  A publish call has three
steps that other threads interleave with: its checks, the count under the lock,
and the hand-over to the loop.  A delivery takes the lost flag under the lock
and then serves the subscriptions; the loop does nothing else in between.
-/

namespace Justup.Live

open Lib.Transition

variable {D : Type*}

def eventTypes : List String :=
  ["target.measurement", "target.status", "alert.changed", "notification.changed",
    "target.changed", "system.heartbeat", "system.resync"]

/-- `MAX_PENDING_PUBLISHES` -/
def maxPendingPublishes : Nat := 2000

structure LiveEvent (D : Type*) where
  type : String
  data : D
  userIds : Option (List Int)
  adminOnly : Bool
  adminsToo : Bool
  deriving DecidableEq

def LiveEvent.visibleTo (userId : Int) (isAdmin : Bool) (event : LiveEvent D) : Bool :=
  match event.userIds with
  | none => isAdmin || !event.adminOnly
  | some ids => ids.contains userId || (event.adminsToo && isAdmin)

/-! ## Subscriptions -/

/-- What `next` returned: a resync, with the number of events published until then, or
an event with its number. -/
inductive Returned (D : Type*) where
  | resync (published : Nat)
  | event (item : Nat × LiveEvent D)
  deriving DecidableEq

/-- One turn of the loop in `next`. -/
inductive Turn (D : Type*) where
  | returns (value : Returned D)
  | stopIteration
  | waits

/-- The buffer of a client.  Two fields are not in the code: what `next` returned so
far, and how many events were published before the client subscribed. -/
structure Subscription (D : Type*) where
  userId : Int
  isAdmin : Bool
  size : Nat
  items : List (Nat × LiveEvent D)
  wakeup : Bool
  resync : Bool
  closed : Bool
  joined : Nat
  returned : List (Returned D)
  deriving DecidableEq

namespace Subscription

def offer (item : Nat × LiveEvent D) (sub : Subscription D) : Subscription D :=
  if sub.closed || sub.resync then sub
  else if sub.size ≤ sub.items.length then { sub with items := [], resync := true, wakeup := true }
  else { sub with items := sub.items ++ [item], wakeup := true }

def forceResync (sub : Subscription D) : Subscription D :=
  if sub.closed then sub else { sub with items := [], resync := true, wakeup := true }

def close (sub : Subscription D) : Subscription D :=
  { sub with closed := true, items := [], wakeup := true }

/-- What `_deliver` does to one subscription. -/
def deliver (item : Nat × LiveEvent D) (lost : Bool) (sub : Subscription D) : Subscription D :=
  let sub := if lost then sub.forceResync else sub
  if item.2.visibleTo sub.userId sub.isAdmin then sub.offer item else sub

/-- One turn of `next`; `published` counts the events published so far. -/
def next (published : Nat) (sub : Subscription D) : Turn D × Subscription D :=
  if sub.resync then
    let value := Returned.resync published
    (.returns value, { sub with resync := false, returned := sub.returned ++ [value] })
  else
    match sub.items with
    | item :: rest =>
        let value := Returned.event item
        (.returns value, { sub with items := rest, returned := sub.returned ++ [value] })
    | [] =>
        if sub.closed then (.stopIteration, sub) else (.waits, { sub with wakeup := false })

end Subscription

/-! ## The bus, the loop and the publishing threads -/

inductive Callback (D : Type*) where
  | deliver (item : Nat × LiveEvent D)
  | closeNow
  deriving DecidableEq

structure EventBus where
  queueSize : Nat
  maxSubscribers : Nat
  /-- `_loop` is set. -/
  started : Bool
  pending : Nat
  backlogLost : Bool
  closed : Bool

/-- The bus with what surrounds it.  An event gets its number when it is handed to the
loop or dropped; `published` holds these events in order.  `_subs` are the
subscriptions that are not closed: both ways to close one remove it there. -/
structure System (D : Type*) where
  bus : EventBus
  subs : List (Subscription D)
  /-- Publish calls that passed the checks. -/
  passed : List (LiveEvent D)
  /-- Publish calls that counted themselves and did not reach `call_soon_threadsafe` yet. -/
  reserved : List (LiveEvent D)
  callbacks : List (Callback D)
  /-- The delivery that has taken the lost flag. -/
  delivering : Option ((Nat × LiveEvent D) × Bool)
  loopClosed : Bool
  published : List (LiveEvent D)

inductive BusAct (D : Type*) where
  | start
  | publish (event : LiveEvent D)
  | reserve (call : Nat)
  | schedule (call : Nat)
  | runCallback
  | fanOut
  | subscribe (userId : Int) (isAdmin : Bool)
  | closeSubscription (index : Nat)
  | next (index : Nat)
  | close
  | closeThreadsafe
  | closeLoop

namespace System

def initial (queueSize maxSubscribers : Nat) : System D where
  bus := ⟨queueSize, maxSubscribers, false, 0, false, false⟩
  subs := []
  passed := []
  reserved := []
  callbacks := []
  delivering := none
  loopClosed := false
  published := []

/-- The loop can start something. -/
def loopFree (system : System D) : Bool := !system.loopClosed && system.delivering.isNone

def reserve (call : Nat) (event : LiveEvent D) (system : System D) : System D :=
  let system := { system with passed := system.passed.eraseIdx call }
  if maxPendingPublishes ≤ system.bus.pending then
    { system with
      bus := { system.bus with backlogLost := true }
      published := system.published ++ [event] }
  else
    { system with
      bus := { system.bus with pending := system.bus.pending + 1 }
      reserved := system.reserved ++ [event] }

def schedule (call : Nat) (event : LiveEvent D) (system : System D) : System D :=
  let system := { system with reserved := system.reserved.eraseIdx call }
  if system.loopClosed then
    { system with bus := { system.bus with pending := system.bus.pending - 1 } }
  else
    { system with
      callbacks := system.callbacks ++ [.deliver (system.published.length, event)]
      published := system.published ++ [event] }

def closeNow (system : System D) : System D :=
  { system with
    bus := { system.bus with closed := true }
    subs := system.subs.map Subscription.close }

def runCallback (system : System D) : Option (System D) :=
  match system.callbacks with
  | [] => none
  | .closeNow :: rest => some { system with callbacks := rest }.closeNow
  | .deliver item :: rest =>
      some { system with
        callbacks := rest
        delivering := some (item, system.bus.backlogLost)
        bus := { system.bus with pending := system.bus.pending - 1, backlogLost := false } }

def subscribe (userId : Int) (isAdmin : Bool) (system : System D) : System D :=
  if system.bus.closed || !system.bus.started ||
      decide (system.bus.maxSubscribers ≤ (system.subs.filter (!·.closed)).length) then system
  else
    { system with
      subs := system.subs ++
        [⟨userId, isAdmin, system.bus.queueSize, [], false, false, false, system.published.length,
          []⟩] }

def step (system : System D) : BusAct D → Option (System D)
  | .start => some { system with bus := { system.bus with started := true, closed := false } }
  | .publish event =>
      if !system.bus.started || system.bus.closed || !eventTypes.contains event.type then
        some system
      else some { system with passed := system.passed ++ [event] }
  | .reserve call => (system.passed[call]?).map fun event => system.reserve call event
  | .schedule call => (system.reserved[call]?).map fun event => system.schedule call event
  | .runCallback => if system.loopFree then system.runCallback else none
  | .fanOut =>
      match system.delivering with
      | none => none
      | some (item, lost) =>
          some { system with
            delivering := none
            subs := system.subs.map (Subscription.deliver item lost) }
  | .subscribe userId isAdmin =>
      if system.loopFree then some (system.subscribe userId isAdmin) else none
  | .closeSubscription index =>
      if system.loopFree then
        some { system with subs := system.subs.modify index Subscription.close }
      else none
  | .next index =>
      if system.loopFree then
        some { system with
          subs := system.subs.modify index fun sub => (sub.next system.published.length).2 }
      else none
  | .close => if system.loopFree then some system.closeNow else none
  | .closeThreadsafe =>
      if !system.bus.started || system.bus.closed || system.loopClosed then some system
      else some { system with callbacks := system.callbacks ++ [.closeNow] }
  | .closeLoop => if system.loopFree then some { system with loopClosed := true } else none

end System

end Justup.Live
