import Justup.Alerts.Alert
import Justup.Spool.Policy

/-!
# The notification queue

The rows of `notification_queue`, the state of the send paths and the delivery
events of the inbox, with the operations of `NotificationSpooler` on them.
Every operation is one immediate transaction and reads the clock once.
-/

namespace Justup.Spool

open Lib Lib.Table Store
open Alerts (EventType)

inductive NotificationType where
  | welcome
  | alert
  | test
  deriving DecidableEq

inductive QueueStatus where
  | pending
  | processing
  | sent
  | failed
  deriving DecidableEq

/-- What the queue reads of a payload, and the fields that only a sender reads. -/
structure Payload where
  alertId : Option Nat
  alertEvent : Option EventType
  sender : Option Text
  fields : List (Text × Text)
  deriving DecidableEq

/-- A row of the queue; its payload is `none` when it is not valid JSON. -/
structure Row where
  id : Nat
  notificationType : NotificationType
  channelType : ChannelType
  recipientId : Option Nat
  recipientAddress : Text
  payload : Option Payload
  status : QueueStatus
  retryCount : Nat
  limitedAttempts : Nat
  nextRetryAt : Int
  lastError : Option Text
  createdAt : Int
  updatedAt : Int
  targetId : Option Nat
  deriving DecidableEq

/-- How the inbox reports the end of a message. -/
structure Delivery where
  queueId : Nat
  channel : ChannelType
  sent : Bool
  targetId : Option Nat
  reason : Text
  deriving DecidableEq

structure Queue where
  rows : List Row
  nextId : Nat
  paths : SendPath → PathState
  deliveries : List Delivery

def Queue.empty : Queue := ⟨[], 1, fun _ => {}, []⟩

/-! ## Rows -/

namespace Row

/-- Pending or processing. -/
def isOpen (row : Row) : Bool := row.status = .pending ∨ row.status = .processing

def isFinal (row : Row) : Bool := row.status = .sent ∨ row.status = .failed

/-- `_CHANNEL_KEY_SQL` of the row. -/
def sqlKey (row : Row) : SendPath :=
  sqlChannelKey row.channelType (row.payload.bind Payload.sender)

/-- `_item_key` -/
def itemKey (row : Row) : SendPath :=
  channelKey row.channelType (row.payload.bind Payload.sender)

/-- `_ALERT_KEY_SQL` -/
def alertId (row : Row) : Option Nat := row.payload.bind Payload.alertId

/-- `_ALERT_EVENT_SQL`; a payload without the field counts as the open phase. -/
def alertEvent (row : Row) : Option EventType :=
  row.payload.map fun payload => payload.alertEvent.getD .open

/-- Two rows are about one alert, recipient and channel. -/
def sameAlert (first second : Row) : Bool :=
  first.notificationType = .alert ∧ second.notificationType = .alert ∧
    first.channelType = second.channelType ∧ first.recipientId = second.recipientId ∧
    first.alertId.isSome ∧ first.alertId = second.alertId

/-- `_HELD_BEHIND_OPEN_SQL` -/
def heldBehindOpen (rows : List Row) (row : Row) : Bool :=
  row.alertEvent = some .resolved ∧
    rows.any fun other =>
      other.id < row.id ∧ other.isOpen ∧ other.sameAlert row ∧ other.alertEvent = some .open

/-- A test message that had an attempt (`TEST_FINAL_SQL`). -/
def retriedTest (row : Row) : Bool := row.notificationType = .test ∧ 0 < row.retryCount

end Row

/-! ## Errors -/

def truncated (error : Text) : Text :=
  if 500 < error.length then error.take 497 ++ "...".toList else error

/-- `_expired_error` -/
def expiredError (lastError : Option Text) : Text :=
  let base := "[EXPIRED] not delivered within 24 h".toList
  match lastError with
  | none | some [] => base
  | some error => base ++ "; last error: ".toList ++ error

def permanentError (error : Text) : Text := "[PERMANENT] ".toList ++ error

def uncertainError (error : Text) : Text := "[UNCERTAIN] ".toList ++ error

/-- What crash recovery makes of the last error. -/
def recoveredError (lastError : Option Text) : Text :=
  let error := lastError.getD []
  if 1000 < error.length then
    "[...] ".toList ++ error.drop (error.length - 400) ++ " [RECOVERED]".toList
  else error ++ " [RECOVERED]".toList

/-- The reason that the inbox gives for a failure. -/
def failureReason (lastError : Option Text) : Text :=
  let error := lastError.getD []
  if "[EXPIRED]".toList.isPrefixOf error then "not handed over within 24 h".toList
  else if "[PERMANENT]".toList.isPrefixOf error then "rejected by the server".toList
  else "not handed over after all retries".toList

namespace Queue

def row? (id : Nat) (queue : Queue) : Option Row := Table.row? Row.id id queue.rows

def change (id : Nat) (f : Row → Row) (queue : Queue) : Queue :=
  { queue with rows := Table.update Row.id id f queue.rows }

/-! ## The inbox -/

/-- The event of one row.  A failure is an event once for each queue row. -/
def deliver (sent : Bool) (deliveries : List Delivery) (row : Row) : List Delivery :=
  let event : Delivery :=
    ⟨row.id, row.channelType, sent, row.targetId,
      if sent then [] else failureReason row.lastError⟩
  if sent = false ∧ deliveries.any (fun old => old.queueId = row.id ∧ old.sent = false) then
    deliveries
  else deliveries ++ [event]

/-- `_record_delivery` -/
def recordDelivery (id : Nat) (sent : Bool) (queue : Queue) : Queue :=
  match queue.row? id with
  | none => queue
  | some row => { queue with deliveries := deliver sent queue.deliveries row }

/-! ## Enqueueing -/

/-- The arguments of `enqueue` that it stores. -/
structure Message where
  notificationType : NotificationType
  channelType : ChannelType
  recipientId : Option Nat
  recipientAddress : Text
  payload : Payload
  error : Option Text
  immediate : Bool
  targetId : Option Nat
  deriving DecidableEq

/-- The row that makes an alert message idempotent. -/
def alertDuplicate (message : Message) (queue : Queue) : Option Row :=
  if message.notificationType = .alert ∧ message.payload.alertId.isSome then
    queue.rows.reverse.find? fun row =>
      row.notificationType = .alert ∧ row.channelType = message.channelType ∧
        message.recipientId.isSome ∧ row.recipientId = message.recipientId ∧
        row.alertId = message.payload.alertId ∧
        row.alertEvent = some (message.payload.alertEvent.getD .open)
  else none

def isSignalTest (message : Message) : Bool :=
  message.channelType = .signal ∧ message.notificationType = .test

/-- The Signal test message that still waits with the same content. -/
def testDuplicate (message : Message) (queue : Queue) : Option Row :=
  if isSignalTest message then
    queue.rows.reverse.find? fun row =>
      row.channelType = .signal ∧ row.notificationType = .test ∧
        row.recipientAddress = message.recipientAddress ∧ row.payload = some message.payload ∧
        row.isOpen
  else none

/-- The abuse limits of Signal test messages. -/
def testLimitReached (now : Int) (message : Message) (queue : Queue) : Bool :=
  let tests := queue.rows.filter fun row =>
    row.channelType = .signal ∧ row.notificationType = .test
  let lastHour := tests.filter fun row => now - seconds 3600 ≤ row.createdAt
  30 ≤ lastHour.length ∨
    5 ≤ lastHour.countP (fun row =>
      row.recipientAddress = message.recipientAddress ∧ now - seconds 600 ≤ row.createdAt) ∨
    50 ≤ tests.countP Row.isOpen

/-- `SignalQueueLimitError` -/
inductive EnqueueError where
  | signalQueueLimit
  deriving DecidableEq

def newRow (now nextRetryAt : Int) (message : Message) (id : Nat) : Row where
  id := id
  notificationType := message.notificationType
  channelType := message.channelType
  recipientId := message.recipientId
  recipientAddress := message.recipientAddress
  payload := some message.payload
  status := .pending
  retryCount := 0
  limitedAttempts := 0
  nextRetryAt := nextRetryAt
  lastError := message.error
  createdAt := now
  updatedAt := now
  targetId := message.targetId

def enqueue (now jitter : Int) (message : Message) (queue : Queue) :
    Except EnqueueError (Nat × Queue) :=
  match queue.alertDuplicate message with
  | some row => .ok (row.id, queue)
  | none =>
      match queue.testDuplicate message with
      | some row => .ok (row.id, queue)
      | none =>
          if isSignalTest message && queue.testLimitReached now message then
            .error .signalQueueLimit
          else
            let nextRetry := if message.immediate then now else calculateNextRetry now 0 jitter
            .ok (queue.nextId, { queue with
              rows := queue.rows ++ [newRow now nextRetry message queue.nextId]
              nextId := queue.nextId + 1 })

/-! ## Claims and their outcomes -/

/-- `mark_processing`: whatever the status is. -/
def markProcessing (now : Int) (id : Nat) (queue : Queue) : Queue :=
  queue.change id fun row => { row with status := .processing, updatedAt := now }

def markSent (now : Int) (id : Nat) (queue : Queue) : Queue :=
  match queue.row? id with
  | none => queue
  | some row =>
      if row.isOpen then
        (queue.change id fun row => { row with status := .sent, updatedAt := now }).recordDelivery
          id true
      else queue

/-- `renew_lease`: the new stamp, or `none` when the claim was lost. -/
def renewLease (now : Int) (id : Nat) (held : Int) (queue : Queue) : Option Int × Queue :=
  match queue.row? id with
  | none => (none, queue)
  | some row =>
      if row.status = .processing ∧ row.updatedAt = held then
        (some now, queue.change id fun row => { row with updatedAt := now })
      else (none, queue)

def release (now : Int) (id : Nat) (queue : Queue) : Bool × Queue :=
  match queue.row? id with
  | none => (false, queue)
  | some row =>
      if row.status = .processing then
        (true, queue.change id fun row => { row with status := .pending, updatedAt := now })
      else (false, queue)

/-- The counters after a failed attempt. -/
def counted (transient : Bool) (row : Row) : Row :=
  { row with
    retryCount := row.retryCount + 1
    limitedAttempts := row.limitedAttempts + if transient then 0 else 1 }

/-- The options of `mark_retry`. -/
structure Retry where
  error : Text
  delaySeconds : Option Nat
  uncertain : Bool
  transient : Bool
  deriving DecidableEq

/-- When a row that had `row`'s counters is tried again. -/
def nextAttempt (now jitter : Int) (retry : Retry) (row : Row) : Int :=
  match retry.delaySeconds with
  | some (count + 1) => now + seconds (count + 1)
  | _ =>
      calculateNextRetry now
        ((if retry.transient then row.retryCount else row.limitedAttempts) - 1) jitter

def retryError (retry : Retry) : Text :=
  truncated (if retry.uncertain then uncertainError retry.error else retry.error)

/-- The message is as old as its validity. -/
def expired (now : Int) (row : Row) : Bool := messageValidity ≤ now - row.createdAt

def markRetry (now jitter : Int) (id : Nat) (retry : Retry) (queue : Queue) : Bool × Queue :=
  match queue.row? id with
  | none => (false, queue)
  | some row =>
      if row.isOpen then
        let error := retryError retry
        let row := counted retry.transient row
        if expired now row ∨ maxRetries < row.limitedAttempts then
          let final := if expired now row then expiredError (some error) else error
          let failed := queue.change id fun row =>
            { counted retry.transient row with
              status := .failed, lastError := some (final.take 500), updatedAt := now }
          (false, failed.recordDelivery id false)
        else
          (true, queue.change id fun old =>
            { counted retry.transient old with
              status := .pending
              nextRetryAt := nextAttempt now jitter retry row
              lastError := some error
              updatedAt := now })
      else (false, queue)

def markFailedPermanent (now : Int) (id : Nat) (error : Text) (queue : Queue) : Queue :=
  match queue.row? id with
  | none => queue
  | some row =>
      if row.isOpen then
        (queue.change id fun row =>
          { row with
            status := .failed
            lastError := some (permanentError (truncated error))
            updatedAt := now }).recordDelivery id false
      else queue

/-- The write for a claimed row that cannot be parsed: whatever its status is. -/
def failUnparsable (now : Int) (id : Nat) (error : Text) (queue : Queue) : Queue :=
  (queue.change id fun row =>
    { row with
      status := .failed
      lastError := some ("Parse error: ".toList ++ error)
      updatedAt := now }).recordDelivery id false

/-! ## The send paths -/

def changePath (path : SendPath) (f : PathState → PathState) (queue : Queue) : Queue :=
  { queue with paths := Function.update queue.paths path (f (queue.paths path)) }

def recordAttempt (now : Int) (path : SendPath) (queue : Queue) : Queue :=
  queue.changePath path (PathState.recordAttempt now)

def setCooldown (now : Int) (path : SendPath) (count : Nat) (reason : Text) (queue : Queue) :
    Queue :=
  queue.changePath path (PathState.setCooldown now count reason)

end Queue

end Justup.Spool
