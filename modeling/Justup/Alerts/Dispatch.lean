import Justup.Spool.Workers

/-!
# Dispatching alerts

`dispatch_alert` makes one queue row for each recipient and channel, and the
outbox of the scheduler repeats it for an event until a round succeeds.  A round
reads the recipients, the settings and the rendered texts once; every enqueue
and the record of the outcome are transactions of their own.
-/

namespace Justup.Alerts

open Lib Lib.Table Lib.Transition Spool
open Store (Text)

/-! ## A round -/

structure RecipientInfo where
  id : Nat
  phone : Option Text
  email : Option Text
  isEnabled : Bool
  deriving DecidableEq

/-- The event of an alert that is dispatched. -/
structure AlertPayload where
  alertId : Nat
  eventType : EventType
  targetId : Nat
  deriving DecidableEq

def OutboxEntry.payload (entry : OutboxEntry) : AlertPayload :=
  ⟨entry.alertId, entry.eventType, entry.targetId⟩

/-- What a round reads and renders; an error carries the name of the exception. -/
structure Rendering where
  signalEnabled : Bool
  signalMessage : Except Text Text
  signalSender : Except Text (Option Text)
  smtpEnabled : Bool
  emailContent : Except Text (Text × Text)

/-- An optional text that is there and not empty. -/
def given (text : Option Text) : Option Text := text.filter fun text => text ≠ []

structure SendResult where
  success : Bool
  channelType : ChannelType
  channelAddress : Text
  error : Option Text
  skipped : Bool
  queueId : Option Nat
  deriving DecidableEq

def SendResult.failure (channel : ChannelType) (address : Text) (error : Option Text) :
    SendResult :=
  ⟨false, channel, address, error, false, none⟩

/-- What a round does for one recipient and channel. -/
inductive Job where
  | refused (result : SendResult)
  | enqueue (message : Queue.Message)
  deriving DecidableEq

/-- The Signal message, its sender and the error that keeps it from being queued. -/
def renderSignal (rendering : Rendering) (recipients : List RecipientInfo) :
    Option Text × Option Text × Option Text :=
  if rendering.signalEnabled ∧
      recipients.any (fun recipient => (given recipient.phone).isSome ∧ recipient.isEnabled) then
    let (message, sender, error) :=
      match rendering.signalMessage with
      | .error name => (none, none, some name)
      | .ok message =>
          match rendering.signalSender with
          | .error name => (some message, none, some name)
          | .ok sender => (some message, given sender, none)
    if (given message).isSome ∧ sender.isNone then
      (message, sender, some "MissingSender".toList)
    else (message, sender, error)
  else (none, none, none)

/-- The subject, the HTML body and the error of the mail. -/
def renderEmail (rendering : Rendering) (recipients : List RecipientInfo) :
    Option Text × Option Text × Option Text :=
  if rendering.smtpEnabled ∧
      recipients.any (fun recipient => (given recipient.email).isSome ∧ recipient.isEnabled) then
    match rendering.emailContent with
    | .error name => (none, none, some name)
    | .ok (subject, html) => (some subject, some html, none)
  else (none, none, none)

/-- The message for the queue; its payload has the fields that a sender reads. -/
def alertMessage (alert : AlertPayload) (recipient : RecipientInfo) (channel : ChannelType)
    (address : Text) (sender : Option Text) (fields : List (Text × Text)) : Queue.Message where
  notificationType := .alert
  channelType := channel
  recipientId := some recipient.id
  recipientAddress := address
  payload := ⟨some alert.alertId, some alert.eventType, sender, fields⟩
  error := none
  immediate := true
  targetId := some alert.targetId

def signalJobs (alert : AlertPayload) (rendering : Rendering) (recipients : List RecipientInfo)
    (recipient : RecipientInfo) : List Job :=
  let (message, sender, error) := renderSignal rendering recipients
  match given recipient.phone with
  | none => []
  | some phone =>
      if rendering.signalEnabled ∧ error.isSome then [.refused (.failure .signal phone error)]
      else
        match given message, given sender with
        | some message, some sender =>
            [.enqueue (alertMessage alert recipient .signal phone (some sender)
              [("message".toList, message)])]
        | _, _ => []

def emailJobs (alert : AlertPayload) (rendering : Rendering) (recipients : List RecipientInfo)
    (recipient : RecipientInfo) : List Job :=
  let (subject, html, error) := renderEmail rendering recipients
  match given recipient.email with
  | none => []
  | some email =>
      if rendering.smtpEnabled ∧ error.isSome then [.refused (.failure .email email error)]
      else
        match given subject, given html with
        | some subject, some html =>
            [.enqueue (alertMessage alert recipient .email email none
              [("subject".toList, subject), ("text_body".toList, []),
                ("html_body".toList, html)])]
        | _, _ => []

/-- The loop of `dispatch_alert` over the recipients. -/
def dispatchJobs (alert : AlertPayload) (rendering : Rendering)
    (recipients : List RecipientInfo) : List Job :=
  recipients.flatMap fun recipient =>
    if recipient.isEnabled then
      signalJobs alert rendering recipients recipient ++
        emailJobs alert rendering recipients recipient
    else []

/-- A round in progress; `entry` is the row of the outbox that it was started for, and a
round that raised before the loop is `raised`. -/
structure Round where
  alert : AlertPayload
  entry : Option OutboxEntry
  rendering : Rendering
  raised : Bool
  todo : List Job
  results : List SendResult

namespace Round

def channelsAttempted (round : Round) : Nat :=
  round.results.countP fun result => !result.skipped

def channelsSucceeded (round : Round) : Nat :=
  round.results.countP fun result => result.success && !result.skipped

/-- `DispatchResult.all_succeeded` -/
def allSucceeded (round : Round) : Bool :=
  0 < round.channelsAttempted ∧ round.channelsSucceeded = round.channelsAttempted

/-- How the outbox judges the round. -/
def succeeded (round : Round) : Bool :=
  !round.raised && (round.channelsAttempted = 0 || round.allSucceeded)

/-- The jobs that are done, one more. -/
def done (rest : List Job) (result : SendResult) (round : Round) : Round :=
  { round with todo := rest, results := round.results ++ [result] }

end Round

/-! ## The outbox -/

def outboxMaxBackoffSeconds : Nat := 300

def retryDelaySeconds (attempts : Nat) : Nat :=
  min (5 * 2 ^ min attempts 6) outboxMaxBackoffSeconds

/-- `record_alert_dispatch_attempt` -/
def recordAttempt (now : Int) (key : Nat × EventType) (succeeded : Bool) (retryDelay : Nat)
    (error : Option Text) (outbox : List OutboxEntry) : List OutboxEntry :=
  outbox.map fun entry =>
    if entry.key = key ∧ entry.status = .pending then
      { entry with
        status := if succeeded then .completed else .pending
        attempts := entry.attempts + 1
        lastError := if succeeded then none else error
        nextAttemptAt := now + seconds retryDelay }
    else entry

/-- `list_pending_alert_dispatches`; the rows are in the order of their ids. -/
def listPending (now : Int) (limit : Nat) (outbox : List OutboxEntry) : List OutboxEntry :=
  ((outbox.filter fun entry => entry.status = .pending ∧ entry.nextAttemptAt ≤ now).insertionSort
    fun first second => first.createdAt ≤ second.createdAt).take limit

/-! ## The system -/

/-- A pass of the outbox over the entries it listed, or a direct dispatch. -/
structure Dispatcher where
  listed : List OutboxEntry
  round : Option Round

def Dispatcher.idle : Dispatcher := ⟨[], none⟩

inductive DispatcherAct where
  | list
  | start (rendering : Rendering)
  | raise (rendering : Rendering)
  | direct (alert : AlertPayload) (rendering : Rendering)
  | next (jitter : Int) (failure : Option Text)
  | finish (error : Text)
  | crash

structure Desk where
  clock : Int
  queue : Queue
  outbox : List OutboxEntry
  dispatchers : Nat → Dispatcher

/-- The spooler and everybody else may do anything to the queue but delete. -/
inductive DeskAct where
  | tick (delay : Nat)
  | spool (act : QueueAct)
  | report (event : EventType) (alert : Alert) (endedAt : Option Int)
      (durationSeconds : Option Int)
  | dispatch (name : Nat) (act : DispatcherAct)

namespace Desk

def start (clock : Int) : Desk := ⟨clock, Queue.empty, [], fun _ => Dispatcher.idle⟩

/-- The result of an enqueue, which may raise. -/
def enqueueResult (now jitter : Int) (message : Queue.Message) (failure : Option Text)
    (queue : Queue) : SendResult × Queue :=
  match failure with
  | some error => (.failure message.channelType message.recipientAddress (some error), queue)
  | none =>
      match queue.enqueue now jitter message with
      | .ok (id, queue) =>
          (⟨true, message.channelType, message.recipientAddress, none, false, some id⟩, queue)
      | .error .signalQueueLimit =>
          (.failure message.channelType message.recipientAddress
            (some "SignalQueueLimitError".toList), queue)

/-- One step of a dispatcher. -/
def dispatcherStep (recipients : Nat → List RecipientInfo) (desk : Desk) (dispatcher : Dispatcher) :
    DispatcherAct → Option (Queue × List OutboxEntry × Dispatcher)
  | .list =>
      match dispatcher.listed, dispatcher.round with
      | [], none =>
          some (desk.queue, desk.outbox, ⟨listPending desk.clock 20 desk.outbox, none⟩)
      | _, _ => none
  | .start rendering =>
      match dispatcher.listed, dispatcher.round with
      | entry :: _, none =>
          some (desk.queue, desk.outbox, { dispatcher with round := some {
            alert := entry.payload, entry := some entry, rendering := rendering, raised := false
            todo := dispatchJobs entry.payload rendering (recipients entry.targetId)
            results := [] } })
      | _, _ => none
  | .raise rendering =>
      match dispatcher.listed, dispatcher.round with
      | entry :: _, none =>
          some (desk.queue, desk.outbox, { dispatcher with round := some {
            alert := entry.payload, entry := some entry, rendering := rendering, raised := true
            todo := [], results := [] } })
      | _, _ => none
  | .direct alert rendering =>
      match dispatcher.listed, dispatcher.round with
      | [], none =>
          some (desk.queue, desk.outbox, { dispatcher with round := some {
            alert := alert, entry := none, rendering := rendering, raised := false
            todo := dispatchJobs alert rendering (recipients alert.targetId)
            results := [] } })
      | _, _ => none
  | .next jitter failure =>
      match dispatcher.round with
      | none => none
      | some round =>
          match round.todo with
          | [] => none
          | .refused result :: rest =>
              some (desk.queue, desk.outbox,
                { dispatcher with round := some (round.done rest result) })
          | .enqueue message :: rest =>
              let (result, queue) := enqueueResult desk.clock jitter message failure desk.queue
              some (queue, desk.outbox,
                { dispatcher with round := some (round.done rest result) })
  | .finish error =>
      match dispatcher.round with
      | none => none
      | some round =>
          match round.todo with
          | _ :: _ => none
          | [] =>
              match round.entry with
              | none => some (desk.queue, desk.outbox, ⟨dispatcher.listed, none⟩)
              | some entry =>
                  let delay := if round.succeeded then 0 else retryDelaySeconds entry.attempts
                  let reason := if round.raised then error else "DispatchIncomplete".toList
                  some (desk.queue,
                    recordAttempt desk.clock entry.key round.succeeded delay (some reason)
                      desk.outbox,
                    ⟨dispatcher.listed.tail, none⟩)
  | .crash => some (desk.queue, desk.outbox, Dispatcher.idle)

def step (recipients : Nat → List RecipientInfo) (desk : Desk) : DeskAct → Option Desk
  | .tick delay => some { desk with clock := desk.clock + delay }
  | .spool act => some { desk with queue := act.perform desk.clock desk.queue }
  | .report event alert endedAt durationSeconds =>
      some { desk with
        outbox := enqueueAlertDispatch desk.clock event alert endedAt durationSeconds desk.outbox }
  | .dispatch name act =>
      match desk.dispatcherStep recipients (desk.dispatchers name) act with
      | none => none
      | some (queue, outbox, dispatcher) =>
          some ⟨desk.clock, queue, outbox, Function.update desk.dispatchers name dispatcher⟩

end Desk

end Justup.Alerts
