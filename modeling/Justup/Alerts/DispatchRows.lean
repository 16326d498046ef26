import Justup.Alerts.Dispatch

/-!
# The rows of a round

The queue finds an alert message that it has, so no second row is added for it;
and a round that succeeds has seen the row of each of its jobs.
-/

namespace Justup.Alerts

open Lib Lib.Table Lib.Transition Spool
open Store (Text)

/-- The row is the message of the alert for the recipient on the channel. -/
structure Carries (alert : AlertPayload) (recipient : Nat) (channel : ChannelType) (row : Row) :
    Prop where
  notificationType : row.notificationType = .alert
  channelType : row.channelType = channel
  recipientId : row.recipientId = some recipient
  alertId : row.alertId = some alert.alertId
  alertEvent : row.alertEvent = some alert.eventType

variable {alert : AlertPayload} {recipient : Nat} {channel : ChannelType}

theorem Carries.of_kept {row later : Row} (hkept : row.Kept later) :
    Carries alert recipient channel later ↔ Carries alert recipient channel row := by
  have hid : later.alertId = row.alertId := by rw [Row.alertId, Row.alertId, hkept.payload]
  have hevent : later.alertEvent = row.alertEvent := by
    rw [Row.alertEvent, Row.alertEvent, hkept.payload]
  constructor
  · rintro ⟨htype, hchannel, hrecipient, halert, hphase⟩
    exact ⟨hkept.notificationType ▸ htype, hkept.channelType ▸ hchannel,
      hkept.recipientId ▸ hrecipient, hid ▸ halert, hevent ▸ hphase⟩
  · rintro ⟨htype, hchannel, hrecipient, halert, hphase⟩
    exact ⟨hkept.notificationType.trans htype, hkept.channelType.trans hchannel,
      hkept.recipientId.trans hrecipient, hid.trans halert, hevent.trans hphase⟩

/-! ## The rows of the queue -/

/-- No row goes, and a new alert message is one that the queue did not have. -/
inductive Evolves (queue queue' : Queue) : Prop where
  | moved (move : Row → Row) (hrows : queue'.rows = queue.rows.map move)
      (hkept : ∀ row : Row, row.Kept (move row))
  | added (now nextRetry : Int) (message : Queue.Message)
      (hnew : queue.alertDuplicate message = none)
      (hrows : queue'.rows = queue.rows ++ [Queue.newRow now nextRetry message queue.nextId])

theorem Evolves.of_rows {queue queue' : Queue} (hrows : queue'.rows = queue.rows) :
    Evolves queue queue' :=
  .moved id (by simpa using hrows) fun row => .refl row

theorem Evolves.of_change {queue queue' : Queue} {id : Nat} {f : Row → Row}
    (hrows : queue'.rows = (queue.change id f).rows) (hf : ∀ row : Row, row.Kept (f row)) :
    Evolves queue queue' := by
  refine .moved _ hrows fun row => ?_
  split
  · exact hf row
  · exact .refl row

theorem Evolves.of_write {now : Int} {id : Nat} {queue : Queue} {write : Queue.Write} :
    Evolves queue (queue.write now id write) := by
  obtain ⟨-, -, hrows | ⟨row, f, -, -, hf, hrows⟩⟩ := Queue.written_write now id queue write
  · exact .of_rows hrows
  · exact .of_change hrows fun row => (hf row).1

theorem evolves_enqueue (now jitter : Int) (message : Queue.Message) (queue : Queue) :
    Evolves queue ((QueueAct.enqueue jitter message).perform now queue) := by
  cases hduplicate : queue.alertDuplicate message with
  | some row =>
      refine .of_rows ?_
      simp [QueueAct.perform, Queue.enqueue, hduplicate]
  | none =>
      rcases Queue.perform_enqueue now jitter message queue with hqueue | ⟨nextRetry, hqueue⟩
      · exact .of_rows (by rw [hqueue])
      · exact .added now nextRetry message hduplicate (by rw [hqueue])

theorem evolves_perform (now : Int) (queue : Queue) (act : QueueAct) :
    Evolves queue (act.perform now queue) := by
  cases act with
  | enqueue jitter message => exact evolves_enqueue now jitter message queue
  | ensureTable =>
      refine .moved _ rfl fun row => ?_
      split
      · exact ⟨rfl, rfl, rfl, rfl, rfl, rfl⟩
      · exact .refl row
  | getPendingItems limit =>
      exact .moved _ (Queue.rows_getPendingItems now limit queue)
        (Queue.claimChange_kept now limit queue)
  | markProcessing id => exact .of_change rfl fun row => ⟨rfl, rfl, rfl, rfl, rfl, rfl⟩
  | markSent id => exact @Evolves.of_write now id queue .sent
  | renewLease id held =>
      simp only [QueueAct.perform, Queue.renewLease]
      split
      · exact .of_rows rfl
      · split
        · exact .of_change rfl fun row => ⟨rfl, rfl, rfl, rfl, rfl, rfl⟩
        · exact .of_rows rfl
  | release id => exact @Evolves.of_write now id queue .release
  | markRetry jitter id retry => exact @Evolves.of_write now id queue (.retry jitter retry)
  | markFailedPermanent id error => exact @Evolves.of_write now id queue (.permanent error)
  | failUnparsable id error =>
      exact .of_change (Queue.rows_recordDelivery _ _ _).1
        fun row => ⟨rfl, rfl, rfl, rfl, rfl, rfl⟩
  | recordAttempt path => exact .of_rows rfl
  | setCooldown path count reason => exact .of_rows rfl

/-- Every alert message has one row. -/
def Single (queue : Queue) : Prop :=
  ∀ first ∈ queue.rows, ∀ second ∈ queue.rows, ∀ alert recipient channel,
    Carries alert recipient channel first → Carries alert recipient channel second →
      first.id = second.id

/-- A row that the queue did not find carries another message. -/
theorem not_carries_of_new {now nextRetry : Int} {message : Queue.Message} {queue : Queue}
    {row : Row} {id : Nat} (hnew : queue.alertDuplicate message = none) (hrow : row ∈ queue.rows)
    (hcarries : Carries alert recipient channel (Queue.newRow now nextRetry message id)) :
    ¬ Carries alert recipient channel row := by
  intro hold
  have htype : message.notificationType = .alert := hcarries.notificationType
  have hchannel : message.channelType = channel := hcarries.channelType
  have hrecipient : message.recipientId = some recipient := hcarries.recipientId
  have halert : message.payload.alertId = some alert.alertId := hcarries.alertId
  have hevent : message.payload.alertEvent.getD .open = alert.eventType :=
    Option.some.inj hcarries.alertEvent
  simp only [Queue.alertDuplicate, htype, halert, Option.isSome_some, and_self, if_true,
    List.find?_eq_none, List.mem_reverse] at hnew
  refine hnew row hrow ?_
  simp [hold.notificationType, hold.channelType, hold.recipientId, hold.alertId,
    hold.alertEvent, hchannel, hrecipient, hevent]

theorem Evolves.single {queue queue' : Queue} (hevolves : Evolves queue queue')
    (hsingle : Single queue) : Single queue' := by
  intro first hfirst second hsecond alert recipient channel hcarries hcarries'
  cases hevolves with
  | moved move hrows hkept =>
      rw [hrows] at hfirst hsecond
      obtain ⟨old, hold, rfl⟩ := List.mem_map.mp hfirst
      obtain ⟨old', hold', rfl⟩ := List.mem_map.mp hsecond
      rw [(hkept old).id, (hkept old').id]
      exact hsingle old hold old' hold' alert recipient channel
        ((Carries.of_kept (hkept old)).mp hcarries)
        ((Carries.of_kept (hkept old')).mp hcarries')
  | added now nextRetry message hnew hrows =>
      rw [hrows] at hfirst hsecond
      rcases List.mem_append.mp hfirst with hfirst | hfirst
      · rcases List.mem_append.mp hsecond with hsecond | hsecond
        · exact hsingle first hfirst second hsecond alert recipient channel hcarries hcarries'
        · rw [List.mem_singleton.mp hsecond] at hcarries'
          exact absurd hcarries (not_carries_of_new hnew hfirst hcarries')
      · rcases List.mem_append.mp hsecond with hsecond | hsecond
        · rw [List.mem_singleton.mp hfirst] at hcarries
          exact absurd hcarries' (not_carries_of_new hnew hsecond hcarries)
        · rw [List.mem_singleton.mp hfirst, List.mem_singleton.mp hsecond]

/-- A message that has a row keeps it. -/
theorem Evolves.carries {queue queue' : Queue} (hevolves : Evolves queue queue')
    (hrow : ∃ row ∈ queue.rows, Carries alert recipient channel row) :
    ∃ row ∈ queue'.rows, Carries alert recipient channel row := by
  obtain ⟨row, hmem, hcarries⟩ := hrow
  cases hevolves with
  | moved move hrows hkept =>
      refine ⟨move row, ?_, (Carries.of_kept (hkept row)).mpr hcarries⟩
      rw [hrows]
      exact List.mem_map_of_mem hmem
  | added now nextRetry message hnew hrows =>
      refine ⟨row, ?_, hcarries⟩
      rw [hrows]
      exact List.mem_append_left _ hmem

/-- An enqueue that succeeds leaves a row for the message. -/
theorem carries_of_enqueue {now jitter : Int} {target : RecipientInfo} {address : Text}
    {sender : Option Text} {fields : List (Text × Text)} {queue queue' : Queue} {id : Nat}
    (henqueue : queue.enqueue now jitter
      (alertMessage alert target channel address sender fields) = .ok (id, queue')) :
    ∃ row ∈ queue'.rows, Carries alert target.id channel row := by
  simp only [Queue.enqueue] at henqueue
  split at henqueue
  · rename_i row hduplicate
    cases henqueue
    simp only [Queue.alertDuplicate, alertMessage, Option.isSome_some, and_self, if_true]
      at hduplicate
    have hmem := List.mem_of_find?_eq_some hduplicate
    have hfound := List.find?_some hduplicate
    simp only [true_and, Option.getD_some, decide_eq_true_eq] at hfound
    exact ⟨row, List.mem_reverse.mp hmem, hfound.1, hfound.2.1, hfound.2.2.1, hfound.2.2.2.1,
      hfound.2.2.2.2⟩
  · simp only [Queue.testDuplicate, Queue.isSignalTest, alertMessage] at henqueue
    simp only [reduceCtorEq, and_false, decide_false, Bool.false_eq_true, if_false,
      Bool.false_and] at henqueue
    cases henqueue
    exact ⟨_, List.mem_append_right _ (List.mem_singleton_self _), rfl, rfl, rfl, rfl, rfl⟩

/-! ## The jobs of a round -/

def RecipientInfo.address (target : RecipientInfo) : ChannelType → Option Text
  | .signal => given target.phone
  | .email => given target.email

def Rendering.enabled (rendering : Rendering) : ChannelType → Bool
  | .signal => rendering.signalEnabled
  | .email => rendering.smtpEnabled

/-- The text of the channel was rendered, without an error, and is empty. -/
def Rendering.blank (rendering : Rendering) : ChannelType → Bool
  | .signal =>
      match rendering.signalMessage, rendering.signalSender with
      | .ok [], .ok _ => true
      | _, _ => false
  | .email =>
      match rendering.emailContent with
      | .ok (subject, html) => subject = [] ∨ html = []
      | .error _ => false

/-- An enabled recipient has an address on the channel. -/
def addressed (channel : ChannelType) (targets : List RecipientInfo) : Bool :=
  targets.any fun target => (target.address channel).isSome ∧ target.isEnabled

/-- A job refuses, or enqueues the message of the alert for one recipient. -/
def Job.Sound (alert : AlertPayload) : Job → Prop
  | .refused result => result.success = false ∧ result.skipped = false
  | .enqueue message => ∃ target channel address sender fields,
      message = alertMessage alert target channel address sender fields

theorem sound_dispatchJobs {rendering : Rendering} {targets : List RecipientInfo} {job : Job}
    (hjob : job ∈ dispatchJobs alert rendering targets) : job.Sound alert := by
  obtain ⟨target, -, hjob⟩ := List.mem_flatMap.mp hjob
  split at hjob
  · rcases List.mem_append.mp hjob with hjob | hjob
    · simp only [signalJobs] at hjob
      split at hjob
      · cases hjob
      · split at hjob
        · rw [List.mem_singleton.mp hjob]
          exact ⟨rfl, rfl⟩
        · split at hjob
          · rw [List.mem_singleton.mp hjob]
            exact ⟨target, .signal, _, _, _, rfl⟩
          · cases hjob
    · simp only [emailJobs] at hjob
      split at hjob
      · cases hjob
      · split at hjob
        · rw [List.mem_singleton.mp hjob]
          exact ⟨rfl, rfl⟩
        · split at hjob
          · rw [List.mem_singleton.mp hjob]
            exact ⟨target, .email, _, _, _, rfl⟩
          · cases hjob
  · cases hjob

theorem given_eq_some {text : Option Text} {value : Text} (hvalue : given text = some value) :
    text = some value ∧ value ≠ [] := by
  simpa [given, Option.filter_eq_some_iff] using hvalue

theorem given_of_ne_nil {value : Text} (hvalue : value ≠ []) : given (some value) = some value := by
  simp [given, hvalue]

/-- Signal has an error, or a message and a sender. -/
theorem renderSignal_cases {rendering : Rendering} {targets : List RecipientInfo}
    (hneeded : rendering.signalEnabled = true ∧
      targets.any (fun target => (given target.phone).isSome ∧ target.isEnabled) = true)
    (hblank : rendering.blank .signal = false) :
    (renderSignal rendering targets).2.2.isSome = true ∨
      ∃ message sender, given (renderSignal rendering targets).1 = some message ∧
        given (renderSignal rendering targets).2.1 = some sender := by
  simp only [renderSignal, if_pos hneeded]
  cases hmessage : rendering.signalMessage with
  | error name => simp [given]
  | ok message =>
      cases hsender : rendering.signalSender with
      | error name =>
          simp only [Option.isNone_none, and_true]
          split <;> simp
      | ok sender =>
          have hfull : message ≠ [] := by
            rintro rfl
            simp [Rendering.blank, hmessage, hsender] at hblank
          simp only [given_of_ne_nil hfull, Option.isSome_some, true_and]
          cases hgiven : given sender with
          | none => simp
          | some value =>
              have hvalue := given_of_ne_nil (given_eq_some hgiven).2
              simp [given_of_ne_nil hfull, hvalue]

/-- The mail has an error, or a subject and a body. -/
theorem renderEmail_cases {rendering : Rendering} {targets : List RecipientInfo}
    (hneeded : rendering.smtpEnabled = true ∧
      targets.any (fun target => (given target.email).isSome ∧ target.isEnabled) = true)
    (hblank : rendering.blank .email = false) :
    (renderEmail rendering targets).2.2.isSome = true ∨
      ∃ subject html, given (renderEmail rendering targets).1 = some subject ∧
        given (renderEmail rendering targets).2.1 = some html := by
  simp only [renderEmail, if_pos hneeded]
  cases hcontent : rendering.emailContent with
  | error name => simp
  | ok content =>
      obtain ⟨subject, html⟩ := content
      have hfull : subject ≠ [] ∧ html ≠ [] := by
        simpa [Rendering.blank, hcontent] using hblank
      exact .inr ⟨subject, html, given_of_ne_nil hfull.1, given_of_ne_nil hfull.2⟩

/-- A channel that is enabled and not blank gives every addressed recipient a job. -/
theorem exists_job {rendering : Rendering} {targets : List RecipientInfo} {target : RecipientInfo}
    {address : Text} (htarget : target ∈ targets) (hactive : target.isEnabled = true)
    (henabled : rendering.enabled channel = true) (hblank : rendering.blank channel = false)
    (haddress : target.address channel = some address) :
    ∃ job ∈ dispatchJobs alert rendering targets,
      (∃ result, job = .refused result) ∨
        ∃ sender fields, job =
          .enqueue (alertMessage alert target channel address sender fields) := by
  have hjobs : ∀ job, job ∈ signalJobs alert rendering targets target ++
      emailJobs alert rendering targets target →
      job ∈ dispatchJobs alert rendering targets := fun job hjob =>
    List.mem_flatMap.mpr ⟨target, htarget, by rw [if_pos hactive]; exact hjob⟩
  have hneeded : ∀ text : RecipientInfo → Option Text, given (text target) = some address →
      targets.any (fun target => (given (text target)).isSome ∧ target.isEnabled) = true := by
    intro text htext
    exact List.any_eq_true.mpr ⟨target, htarget, by simp [htext, hactive]⟩
  cases channel with
  | signal =>
      have hsignal : rendering.signalEnabled = true := henabled
      have hphone : given target.phone = some address := haddress
      rcases renderSignal_cases ⟨hsignal, hneeded RecipientInfo.phone hphone⟩ hblank with
        herror | ⟨message, sender, hmessage, hsender⟩
      · refine ⟨.refused (.failure .signal address (renderSignal rendering targets).2.2),
          hjobs _ (List.mem_append_left _ ?_), .inl ⟨_, rfl⟩⟩
        simp [signalJobs, hphone, hsignal, herror]
      · by_cases herror : (renderSignal rendering targets).2.2.isSome = true
        · refine ⟨.refused (.failure .signal address (renderSignal rendering targets).2.2),
            hjobs _ (List.mem_append_left _ ?_), .inl ⟨_, rfl⟩⟩
          simp [signalJobs, hphone, hsignal, herror]
        · have hjob : signalJobs alert rendering targets target =
              [.enqueue (alertMessage alert target .signal address (some sender)
                [("message".toList, message)])] := by
            simp [signalJobs, hphone, herror, hmessage, hsender]
          exact ⟨_, hjobs _ (List.mem_append_left _ (hjob ▸ List.mem_singleton_self _)),
            .inr ⟨_, _, rfl⟩⟩
  | email =>
      have hsmtp : rendering.smtpEnabled = true := henabled
      have hemail : given target.email = some address := haddress
      rcases renderEmail_cases ⟨hsmtp, hneeded RecipientInfo.email hemail⟩ hblank with
        herror | ⟨subject, html, hsubject, hhtml⟩
      · refine ⟨.refused (.failure .email address (renderEmail rendering targets).2.2),
          hjobs _ (List.mem_append_right _ ?_), .inl ⟨_, rfl⟩⟩
        simp [emailJobs, hemail, hsmtp, herror]
      · by_cases herror : (renderEmail rendering targets).2.2.isSome = true
        · refine ⟨.refused (.failure .email address (renderEmail rendering targets).2.2),
            hjobs _ (List.mem_append_right _ ?_), .inl ⟨_, rfl⟩⟩
          simp [emailJobs, hemail, hsmtp, herror]
        · have hjob : emailJobs alert rendering targets target =
              [.enqueue (alertMessage alert target .email address none
                [("subject".toList, subject), ("text_body".toList, []),
                  ("html_body".toList, html)])] := by
            simp [emailJobs, hemail, herror, hsubject, hhtml]
          exact ⟨_, hjobs _ (List.mem_append_right _ (hjob ▸ List.mem_singleton_self _)),
            .inr ⟨_, _, rfl⟩⟩

/-! ## Rounds -/

/-- A refused or failed job of the round. -/
def Round.Failed (round : Round) : Prop :=
  ∃ result ∈ round.results, result.success = false ∧ result.skipped = false

/-- Every job of the round is still to do, or the round has failed, or its row is there. -/
structure Round.Covered (recipients : Nat → List RecipientInfo) (queue : Queue) (round : Round) :
    Prop where
  sound : ∀ job ∈ round.todo, job.Sound round.alert
  covered : round.raised = false →
    ∀ job ∈ dispatchJobs round.alert round.rendering (recipients round.alert.targetId),
      job ∈ round.todo ∨ round.Failed ∨
        ∃ target channel address sender fields,
          job = .enqueue (alertMessage round.alert target channel address sender fields) ∧
            ∃ row ∈ queue.rows, Carries round.alert target.id channel row

variable {recipients : Nat → List RecipientInfo} {queue queue' : Queue} {round : Round}

theorem Round.Covered.evolves (hcovered : round.Covered recipients queue)
    (hevolves : Evolves queue queue') : round.Covered recipients queue' where
  sound := hcovered.sound
  covered hraised job hjob := by
    rcases hcovered.covered hraised job hjob with htodo | hfailed | hrow
    · exact .inl htodo
    · exact .inr (.inl hfailed)
    · obtain ⟨target, channel, address, sender, fields, hmessage, hfound⟩ := hrow
      exact .inr (.inr ⟨target, channel, address, sender, fields, hmessage,
        hevolves.carries hfound⟩)

/-- A round that succeeds has no failed job. -/
theorem Round.not_failed_of_succeeded (hsucceeded : round.succeeded = true) : ¬ round.Failed := by
  rintro ⟨result, hresult, hsuccess, hskipped⟩
  obtain ⟨before, after, hresults⟩ := List.append_of_mem hresult
  have hle : ∀ results : List SendResult,
      results.countP (fun result => result.success && !result.skipped) ≤
        results.countP fun result => !result.skipped := fun results =>
    List.countP_mono_left fun result _ hboth => (Bool.and_eq_true _ _ ▸ hboth).2
  have hbefore := hle before
  have hafter := hle after
  have hattempted : round.channelsAttempted = before.countP (fun result => !result.skipped) +
      (after.countP (fun result => !result.skipped) + 1) := by
    simp [channelsAttempted, hresults, hskipped]
  have hcount : round.channelsSucceeded =
      before.countP (fun result => result.success && !result.skipped) +
        after.countP (fun result => result.success && !result.skipped) := by
    simp [channelsSucceeded, hresults, hsuccess]
  simp only [succeeded, allSucceeded, Bool.and_eq_true, Bool.or_eq_true, decide_eq_true_eq]
    at hsucceeded
  rcases hsucceeded.2 with hnone | hall
  · omega
  · omega

/-- What an enqueue of a round leaves: a failed job, or the row of the message. -/
theorem enqueueResult_cases (now jitter : Int) (message : Queue.Message) (failure : Option Text)
    (queue : Queue) :
    Evolves queue (Desk.enqueueResult now jitter message failure queue).2 ∧
      ((Desk.enqueueResult now jitter message failure queue).1.success = false ∧
          (Desk.enqueueResult now jitter message failure queue).1.skipped = false ∨
        ∃ id, queue.enqueue now jitter message =
          .ok (id, (Desk.enqueueResult now jitter message failure queue).2)) := by
  cases failure with
  | some error => exact ⟨.of_rows rfl, .inl ⟨rfl, rfl⟩⟩
  | none =>
      have hevolves := evolves_enqueue now jitter message queue
      simp only [QueueAct.perform] at hevolves
      simp only [Desk.enqueueResult]
      cases henqueue : queue.enqueue now jitter message with
      | ok result =>
          obtain ⟨id, queue'⟩ := result
          rw [henqueue] at hevolves
          exact ⟨hevolves, .inr ⟨id, rfl⟩⟩
      | error name => exact ⟨.of_rows rfl, .inl ⟨rfl, rfl⟩⟩

/-- The next job of a round, done. -/
theorem Round.Covered.refuse {result : SendResult} {rest : List Job}
    (hcovered : round.Covered recipients queue) (htodo : round.todo = .refused result :: rest) :
    (round.done rest result).Covered recipients queue := by
  have hresult : result.success = false ∧ result.skipped = false :=
    hcovered.sound (.refused result) (by rw [htodo]; exact List.mem_cons_self ..)
  refine ⟨fun job hjob => hcovered.sound job (by rw [htodo]; exact List.mem_cons_of_mem _ hjob),
    fun _ _ _ => .inr (.inl ⟨result, ?_, hresult⟩)⟩
  exact List.mem_append_right _ (List.mem_singleton_self result)

theorem Round.Covered.enqueue {now jitter : Int} {message : Queue.Message} {failure : Option Text}
    {rest : List Job} (hcovered : round.Covered recipients queue)
    (htodo : round.todo = .enqueue message :: rest) :
    (round.done rest (Desk.enqueueResult now jitter message failure queue).1).Covered recipients
      (Desk.enqueueResult now jitter message failure queue).2 := by
  obtain ⟨hevolves, hcase⟩ := enqueueResult_cases now jitter message failure queue
  refine ⟨fun job hjob => hcovered.sound job (by rw [htodo]; exact List.mem_cons_of_mem _ hjob),
    fun hraised job hjob => ?_⟩
  rcases hcase with hfailure | ⟨id, henqueue⟩
  · exact .inr (.inl ⟨_, List.mem_append_right _ (List.mem_singleton_self _), hfailure⟩)
  · obtain ⟨target, channel, address, sender, fields, rfl⟩ : Job.Sound round.alert (.enqueue message) :=
      hcovered.sound _ (by rw [htodo]; exact List.mem_cons_self ..)
    rcases hcovered.covered hraised job hjob with hold | ⟨result, hresult, hfailed⟩ | hrow
    · rw [htodo] at hold
      rcases List.mem_cons.mp hold with rfl | hrest
      · exact .inr (.inr ⟨target, channel, address, sender, fields, rfl,
          carries_of_enqueue henqueue⟩)
      · exact .inl hrest
    · exact .inr (.inl ⟨result, List.mem_append_left _ hresult, hfailed⟩)
    · obtain ⟨target', channel', address', sender', fields', hmessage, hfound⟩ := hrow
      exact .inr (.inr ⟨target', channel', address', sender', fields', hmessage,
        hevolves.carries hfound⟩)

/-- A round that ends well has a row for every addressed recipient of an enabled channel. -/
theorem Round.Covered.rows {target : RecipientInfo}
    (hcovered : round.Covered recipients queue) (hdone : round.todo = [])
    (hsucceeded : round.succeeded = true) (htarget : target ∈ recipients round.alert.targetId)
    (hactive : target.isEnabled = true) (henabled : round.rendering.enabled channel = true)
    (hblank : round.rendering.blank channel = false)
    (haddress : (target.address channel).isSome = true) :
    ∃ row ∈ queue.rows, Carries round.alert target.id channel row := by
  obtain ⟨address, haddress⟩ := Option.isSome_iff_exists.mp haddress
  have hraised : round.raised = false := by
    have hboth := hsucceeded
    rw [succeeded, Bool.and_eq_true] at hboth
    simpa using hboth.1
  obtain ⟨job, hjob, hkind⟩ :=
    @exists_job round.alert _ _ _ _ _ htarget hactive henabled hblank haddress
  rcases hcovered.covered hraised job hjob with htodo | hfailed | hrow
  · rw [hdone] at htodo
    cases htodo
  · exact absurd hfailed (not_failed_of_succeeded hsucceeded)
  · obtain ⟨target', channel', address', sender', fields', rfl, row, hrow, hcarries⟩ := hrow
    rcases hkind with ⟨result, hrefused⟩ | ⟨sender, fields, hmessage⟩
    · cases hrefused
    · have hsame := Job.enqueue.inj hmessage
      have hid : target'.id = target.id :=
        Option.some.inj (congrArg Queue.Message.recipientId hsame)
      have hchannel : channel' = channel := congrArg Queue.Message.channelType hsame
      rw [hid, hchannel] at hcarries
      exact ⟨row, hrow, hcarries⟩

end Justup.Alerts
