import Justup.Alerts.DispatchRows

/-!
# Every alert message is enqueued once

Any number of dispatchers work on one queue and one outbox.  An entry of the
outbox is completed by the end of a round, and the rows of that round are there.
-/

namespace Justup.Alerts

open Lib Lib.Table Lib.Transition Spool
open Store (Text)

variable {recipients : Nat → List RecipientInfo} {queue : Queue}

/-! ## The outbox -/

theorem key_of_payload {entry stored : OutboxEntry} (hpayload : stored.payload = entry.payload) :
    stored.key = entry.key := by
  rw [OutboxEntry.key, OutboxEntry.key]
  exact Prod.ext (congrArg AlertPayload.alertId hpayload) (congrArg AlertPayload.eventType hpayload)

/-- What a record leaves of an entry. -/
theorem recordAttempt_entry {now : Int} {key : Nat × EventType} {succeeded : Bool} {delay : Nat}
    {error : Option Text} {outbox : List OutboxEntry} {entry : OutboxEntry}
    (hentry : entry ∈ recordAttempt now key succeeded delay error outbox) :
    ∃ old ∈ outbox, entry.payload = old.payload ∧
      (entry = old ∧ ¬ (old.key = key ∧ old.status = .pending) ∨
        old.key = key ∧ old.status = .pending ∧ entry.status = (if succeeded then .completed else .pending) ∧
          entry.nextAttemptAt = now + seconds delay) := by
  obtain ⟨old, hold, rfl⟩ := List.mem_map.mp hentry
  refine ⟨old, hold, ?_⟩
  by_cases hkey : old.key = key ∧ old.status = .pending
  · rw [if_pos hkey]
    exact ⟨rfl, .inr ⟨hkey.1, hkey.2, rfl, rfl⟩⟩
  · rw [if_neg hkey]
    exact ⟨rfl, .inl ⟨rfl, hkey⟩⟩

theorem payload_recordAttempt (now : Int) (key : Nat × EventType) (succeeded : Bool) (delay : Nat)
    (error : Option Text) (outbox : List OutboxEntry) :
    (recordAttempt now key succeeded delay error outbox).map OutboxEntry.payload =
      outbox.map OutboxEntry.payload := by
  rw [recordAttempt, List.map_map]
  refine List.map_congr_left fun entry _ => ?_
  simp only [Function.comp_apply]
  split <;> rfl

theorem keyed_of_payloads {outbox outbox' : List OutboxEntry}
    (hpayloads : outbox'.map OutboxEntry.payload = outbox.map OutboxEntry.payload)
    (hkeyed : Keyed OutboxEntry.key outbox) : Keyed OutboxEntry.key outbox' := by
  let key : AlertPayload → Nat × EventType := fun payload => (payload.alertId, payload.eventType)
  have hkeys : outbox'.map OutboxEntry.key = outbox.map OutboxEntry.key := by
    have hmapped := congrArg (List.map key) hpayloads
    rwa [List.map_map, List.map_map] at hmapped
  rw [Keyed, hkeys]
  exact hkeyed

/-- What a step does to the outbox. -/
inductive OutboxMove (now : Int) (outbox : List OutboxEntry) : List OutboxEntry → Prop
  | same : OutboxMove now outbox outbox
  | reported (event : EventType) (alert : Alert) (endedAt duration : Option Int) :
      OutboxMove now outbox (enqueueAlertDispatch now event alert endedAt duration outbox)
  | recorded (key : Nat × EventType) (succeeded : Bool) (delay : Nat) (error : Option Text) :
      OutboxMove now outbox (recordAttempt now key succeeded delay error outbox)

theorem OutboxMove.keyed {now : Int} {outbox outbox' : List OutboxEntry}
    (hmove : OutboxMove now outbox outbox') (hkeyed : Keyed OutboxEntry.key outbox) :
    Keyed OutboxEntry.key outbox' := by
  cases hmove with
  | same => exact hkeyed
  | reported event alert endedAt duration =>
      simp only [enqueueAlertDispatch]
      split
      · exact hkeyed
      · rename_i hnew
        refine hkeyed.snoc fun entry hentry hsame => hnew ?_
        exact List.any_eq_true.mpr ⟨entry, hentry, decide_eq_true hsame⟩
  | recorded key succeeded delay error =>
      exact keyed_of_payloads (payload_recordAttempt _ _ _ _ _ _) hkeyed

theorem OutboxMove.known {now : Int} {outbox outbox' : List OutboxEntry} {payload : AlertPayload}
    (hmove : OutboxMove now outbox outbox')
    (hknown : ∃ stored ∈ outbox, stored.payload = payload) :
    ∃ stored ∈ outbox', stored.payload = payload := by
  cases hmove with
  | same => exact hknown
  | reported event alert endedAt duration =>
      obtain ⟨stored, hstored, hpayload⟩ := hknown
      refine ⟨stored, ?_, hpayload⟩
      simp only [enqueueAlertDispatch]
      split
      · exact hstored
      · exact List.mem_append_left _ hstored
  | recorded key succeeded delay error =>
      have hmem : payload ∈ outbox.map OutboxEntry.payload := List.mem_map.mpr hknown
      rw [← payload_recordAttempt now key succeeded delay error] at hmem
      exact List.mem_map.mp hmem

/-- No entry goes, and a completed one stays as it is. -/
theorem OutboxMove.kept {now : Int} {outbox outbox' : List OutboxEntry} {old : OutboxEntry}
    (hmove : OutboxMove now outbox outbox') (hold : old ∈ outbox) :
    ∃ entry ∈ outbox', entry.payload = old.payload ∧ (old.status = .completed → entry = old) := by
  cases hmove with
  | same => exact ⟨old, hold, rfl, fun _ => rfl⟩
  | reported event alert endedAt duration =>
      refine ⟨old, ?_, rfl, fun _ => rfl⟩
      simp only [enqueueAlertDispatch]
      split
      · exact hold
      · exact List.mem_append_left _ hold
  | recorded key succeeded delay error =>
      refine ⟨_, List.mem_map_of_mem hold, ?_, fun hcompleted => ?_⟩
      · split <;> rfl
      · simp [hcompleted]

/-! ## The system -/

namespace Desk

/-- The texts of the enabled channels that a round of the outbox needs are not empty. -/
def Renders (recipients : Nat → List RecipientInfo) (desk : Desk) (act : DeskAct) : Prop :=
  match act with
  | .dispatch name (.start rendering) =>
      match (desk.dispatchers name).listed with
      | entry :: _ =>
          [ChannelType.signal, ChannelType.email].all (fun channel =>
            !(rendering.enabled channel && addressed channel (recipients entry.targetId) &&
              rendering.blank channel)) = true
      | [] => True
  | _ => True

instance (desk : Desk) (act : DeskAct) : Decidable (Renders recipients desk act) := by
  unfold Renders
  split
  · split <;> infer_instance
  · infer_instance

/-- What a step of a dispatcher can do. -/
inductive Step (recipients : Nat → List RecipientInfo) (desk : Desk) (dispatcher : Dispatcher) :
    DispatcherAct → Queue → List OutboxEntry → Dispatcher → Prop
  | list : Step recipients desk dispatcher .list desk.queue desk.outbox
      ⟨listPending desk.clock 20 desk.outbox, none⟩
  | start {entry : OutboxEntry} {rest : List OutboxEntry} {rendering : Rendering}
      (hlisted : dispatcher.listed = entry :: rest) :
      Step recipients desk dispatcher (.start rendering) desk.queue desk.outbox
        { dispatcher with round := some {
          alert := entry.payload, entry := some entry, rendering := rendering, raised := false
          todo := dispatchJobs entry.payload rendering (recipients entry.targetId)
          results := [] } }
  | raise {entry : OutboxEntry} {rest : List OutboxEntry} {rendering : Rendering}
      (hlisted : dispatcher.listed = entry :: rest) :
      Step recipients desk dispatcher (.raise rendering) desk.queue desk.outbox
        { dispatcher with round := some {
          alert := entry.payload, entry := some entry, rendering := rendering, raised := true
          todo := [], results := [] } }
  | direct {alert : AlertPayload} {rendering : Rendering} :
      Step recipients desk dispatcher (.direct alert rendering) desk.queue desk.outbox
        { dispatcher with round := some {
          alert := alert, entry := none, rendering := rendering, raised := false
          todo := dispatchJobs alert rendering (recipients alert.targetId), results := [] } }
  | refuse {round : Round} {result : SendResult} {rest : List Job} {jitter : Int}
      {failure : Option Text} (hround : dispatcher.round = some round)
      (htodo : round.todo = .refused result :: rest) :
      Step recipients desk dispatcher (.next jitter failure) desk.queue desk.outbox
        { dispatcher with round := some (round.done rest result) }
  | enqueue {round : Round} {message : Queue.Message} {rest : List Job} {jitter : Int}
      {failure : Option Text} (hround : dispatcher.round = some round)
      (htodo : round.todo = .enqueue message :: rest) :
      Step recipients desk dispatcher (.next jitter failure)
        (enqueueResult desk.clock jitter message failure desk.queue).2 desk.outbox
        { dispatcher with round := some (round.done rest
          (enqueueResult desk.clock jitter message failure desk.queue).1) }
  | finishDirect {round : Round} {error : Text} (hround : dispatcher.round = some round)
      (hentry : round.entry = none) :
      Step recipients desk dispatcher (.finish error) desk.queue desk.outbox
        ⟨dispatcher.listed, none⟩
  | finish {round : Round} {entry : OutboxEntry} {error : Text} {reason : Option Text}
      (hround : dispatcher.round = some round) (hdone : round.todo = [])
      (hentry : round.entry = some entry) :
      Step recipients desk dispatcher (.finish error) desk.queue
        (recordAttempt desk.clock entry.key round.succeeded
          (if round.succeeded then 0 else retryDelaySeconds entry.attempts) reason desk.outbox)
        ⟨dispatcher.listed.tail, none⟩
  | crash : Step recipients desk dispatcher .crash desk.queue desk.outbox Dispatcher.idle

variable {desk next : Desk} {name : Nat}

theorem step_dispatch {act : DispatcherAct}
    (hstep : desk.step recipients (.dispatch name act) = some next) :
    ∃ queue outbox dispatcher,
      Step recipients desk (desk.dispatchers name) act queue outbox dispatcher ∧
        next = ⟨desk.clock, queue, outbox, Function.update desk.dispatchers name dispatcher⟩ := by
  simp only [step] at hstep
  cases hwork : desk.dispatcherStep recipients (desk.dispatchers name) act with
  | none => simp [hwork] at hstep
  | some result =>
      obtain ⟨queue, outbox, dispatcher⟩ := result
      rw [hwork] at hstep
      cases hstep
      refine ⟨queue, outbox, dispatcher, ?_, rfl⟩
      cases act with
      | list =>
          simp only [dispatcherStep] at hwork
          split at hwork
          · cases hwork
            exact .list
          · cases hwork
      | start rendering =>
          simp only [dispatcherStep] at hwork
          split at hwork
          · rename_i hlisted hround
            cases hwork
            exact .start hlisted
          · cases hwork
      | raise rendering =>
          simp only [dispatcherStep] at hwork
          split at hwork
          · rename_i hlisted hround
            cases hwork
            exact .raise hlisted
          · cases hwork
      | direct alert rendering =>
          simp only [dispatcherStep] at hwork
          split at hwork
          · cases hwork
            exact .direct
          · cases hwork
      | next jitter failure =>
          simp only [dispatcherStep] at hwork
          split at hwork
          · cases hwork
          · rename_i round hround
            split at hwork
            · cases hwork
            · rename_i result rest htodo
              cases hwork
              exact .refuse hround htodo
            · rename_i message rest htodo
              cases hwork
              exact .enqueue hround htodo
      | finish error =>
          simp only [dispatcherStep] at hwork
          split at hwork
          · cases hwork
          · rename_i round hround
            split at hwork
            · cases hwork
            · rename_i hdone
              split at hwork
              · rename_i hentry
                cases hwork
                exact .finishDirect hround hentry
              · rename_i entry hentry
                cases hwork
                exact .finish hround hdone hentry
      | crash =>
          cases hwork
          exact .crash

/-- The entry that the dispatcher works on, or will. -/
def Listed (dispatcher : Dispatcher) (entry : OutboxEntry) : Prop :=
  entry ∈ dispatcher.listed ∨
    ∃ round, dispatcher.round = some round ∧ round.entry = some entry

structure Dispatched (recipients : Nat → List RecipientInfo) (desk : Desk) : Prop where
  single : Single desk.queue
  keyed : Keyed OutboxEntry.key desk.outbox
  covered : ∀ name round, (desk.dispatchers name).round = some round →
    round.Covered recipients desk.queue
  started : ∀ name round entry, (desk.dispatchers name).round = some round →
    round.entry = some entry → round.alert = entry.payload
  known : ∀ name entry, Listed (desk.dispatchers name) entry →
    ∃ stored ∈ desk.outbox, stored.payload = entry.payload
  rendered : ∀ name round entry, (desk.dispatchers name).round = some round →
    round.entry = some entry → round.raised = false →
    ∀ channel, round.rendering.enabled channel = true →
      addressed channel (recipients round.alert.targetId) = true →
      round.rendering.blank channel = false

/-- Every step evolves the queue and moves the outbox. -/
theorem step_moves {act : DeskAct} (hstep : desk.step recipients act = some next) :
    Evolves desk.queue next.queue ∧ OutboxMove desk.clock desk.outbox next.outbox := by
  cases act with
  | tick delay =>
      cases hstep
      exact ⟨.of_rows rfl, .same⟩
  | spool act =>
      cases hstep
      exact ⟨evolves_perform desk.clock desk.queue act, .same⟩
  | report event alert endedAt duration =>
      cases hstep
      exact ⟨.of_rows rfl, .reported event alert endedAt duration⟩
  | dispatch name act =>
      obtain ⟨queue, outbox, dispatcher, hwork, rfl⟩ := step_dispatch hstep
      cases hwork with
      | enqueue hround htodo =>
          exact ⟨(enqueueResult_cases _ _ _ _ _).1, .same⟩
      | finish hround hdone hentry => exact ⟨.of_rows rfl, .recorded _ _ _ _⟩
      | list => exact ⟨.of_rows rfl, .same⟩
      | start hlisted => exact ⟨.of_rows rfl, .same⟩
      | raise hlisted => exact ⟨.of_rows rfl, .same⟩
      | direct => exact ⟨.of_rows rfl, .same⟩
      | refuse hround htodo => exact ⟨.of_rows rfl, .same⟩
      | finishDirect hround hentry => exact ⟨.of_rows rfl, .same⟩
      | crash => exact ⟨.of_rows rfl, .same⟩

/-- A dispatcher is as before, or it took a step of its own. -/
theorem dispatcher_step {act : DeskAct} (hstep : desk.step recipients act = some next)
    (name : Nat) : next.dispatchers name = desk.dispatchers name ∨
      ∃ act' queue outbox, act = .dispatch name act' ∧
        Step recipients desk (desk.dispatchers name) act' queue outbox (next.dispatchers name) ∧
        next.queue = queue := by
  cases act with
  | tick delay =>
      cases hstep
      exact .inl rfl
  | spool act =>
      cases hstep
      exact .inl rfl
  | report event alert endedAt duration =>
      cases hstep
      exact .inl rfl
  | dispatch other act =>
      obtain ⟨queue, outbox, dispatcher, hwork, rfl⟩ := step_dispatch hstep
      by_cases hname : name = other
      · subst hname
        simp only [Function.update_self]
        exact .inr ⟨act, queue, outbox, rfl, hwork, rfl⟩
      · exact .inl (by simp [hname])

/-- What a dispatcher works on was listed before, or is pending now. -/
theorem listed_step {dispatcher dispatcher' : Dispatcher} {act : DispatcherAct}
    {outbox : List OutboxEntry} {entry : OutboxEntry}
    (hwork : Step recipients desk dispatcher act queue outbox dispatcher')
    (hlisted : Listed dispatcher' entry) : Listed dispatcher entry ∨ entry ∈ desk.outbox := by
  cases hwork with
  | list =>
      rcases hlisted with hmem | ⟨round, hround, -⟩
      · have hsorted := List.mem_of_mem_take hmem
        rw [List.mem_insertionSort] at hsorted
        exact .inr (List.mem_filter.mp hsorted).1
      · cases hround
  | start hhead =>
      rcases hlisted with hmem | ⟨round, hround, hentry⟩
      · exact .inl (.inl hmem)
      · cases hround
        cases hentry
        exact .inl (.inl (by rw [hhead]; exact List.mem_cons_self ..))
  | raise hhead =>
      rcases hlisted with hmem | ⟨round, hround, hentry⟩
      · exact .inl (.inl hmem)
      · cases hround
        cases hentry
        exact .inl (.inl (by rw [hhead]; exact List.mem_cons_self ..))
  | direct =>
      rcases hlisted with hmem | ⟨round, hround, hentry⟩
      · exact .inl (.inl hmem)
      · cases hround
        cases hentry
  | refuse hold htodo =>
      rcases hlisted with hmem | ⟨round, hround, hentry⟩
      · exact .inl (.inl hmem)
      · cases hround
        exact .inl (.inr ⟨_, hold, hentry⟩)
  | enqueue hold htodo =>
      rcases hlisted with hmem | ⟨round, hround, hentry⟩
      · exact .inl (.inl hmem)
      · cases hround
        exact .inl (.inr ⟨_, hold, hentry⟩)
  | finishDirect hold hnone =>
      rcases hlisted with hmem | ⟨round, hround, hentry⟩
      · exact .inl (.inl hmem)
      · cases hround
  | finish hold hdone hsome =>
      rcases hlisted with hmem | ⟨round, hround, hentry⟩
      · exact .inl (.inl (List.mem_of_mem_tail hmem))
      · cases hround
  | crash =>
      rcases hlisted with hmem | ⟨round, hround, hentry⟩
      · cases hmem
      · cases hround

/-- A round that a step begins or goes on with. -/
theorem round_step {dispatcher dispatcher' : Dispatcher} {act : DispatcherAct}
    {outbox : List OutboxEntry} {round : Round}
    (hwork : Step recipients desk dispatcher act queue outbox dispatcher')
    (hround : dispatcher'.round = some round) :
    (round.results = [] ∧ (round.raised = true ∧ round.todo = [] ∨
        round.todo = dispatchJobs round.alert round.rendering
          (recipients round.alert.targetId)) ∧
      ∀ entry, round.entry = some entry → round.alert = entry.payload ∧
        (round.raised = false →
          ∃ rest, dispatcher.listed = entry :: rest ∧ act = .start round.rendering)) ∨
    ∃ old, dispatcher.round = some old ∧ round.alert = old.alert ∧ round.entry = old.entry ∧
      round.rendering = old.rendering ∧ round.raised = old.raised ∧
      (old.Covered recipients desk.queue → round.Covered recipients queue) := by
  cases hwork with
  | list => cases hround
  | @start entry rest rendering hlisted =>
      cases hround
      refine .inl ⟨rfl, .inr rfl, fun listed hentry => ?_⟩
      cases hentry
      exact ⟨rfl, fun _ => ⟨rest, hlisted, rfl⟩⟩
  | raise hlisted =>
      cases hround
      refine .inl ⟨rfl, .inl ⟨rfl, rfl⟩, fun listed hentry => ?_⟩
      cases hentry
      exact ⟨rfl, fun h => by cases h⟩
  | direct =>
      cases hround
      refine .inl ⟨rfl, .inr rfl, fun listed hentry => ?_⟩
      cases hentry
  | refuse hold htodo =>
      cases hround
      exact .inr ⟨_, hold, rfl, rfl, rfl, rfl, fun hcovered => hcovered.refuse htodo⟩
  | enqueue hold htodo =>
      cases hround
      exact .inr ⟨_, hold, rfl, rfl, rfl, rfl, fun hcovered => hcovered.enqueue htodo⟩
  | finishDirect hold hentry => cases hround
  | finish hold hdone hentry => cases hround
  | crash => cases hround

theorem Dispatched.of_start (clock : Int) : Dispatched recipients (start clock) where
  single := by simp [Single, start, Queue.empty]
  keyed := keyed_nil
  covered name round hround := by cases hround
  started name round entry hround := by cases hround
  known name entry hlisted := by
    rcases hlisted with hmem | ⟨round, hround, -⟩
    · cases hmem
    · cases hround
  rendered name round entry hround := by cases hround

theorem Dispatched.step {act : DeskAct} (hdispatched : Dispatched recipients desk)
    (hrenders : Renders recipients desk act) (hstep : desk.step recipients act = some next) :
    Dispatched recipients next := by
  obtain ⟨hevolves, hmove⟩ := step_moves hstep
  refine ⟨hevolves.single hdispatched.single, hmove.keyed hdispatched.keyed, ?_, ?_, ?_, ?_⟩
  · intro name round hround
    rcases dispatcher_step hstep name with hsame | ⟨act', queue, outbox, rfl, hwork, hqueue⟩
    · rw [hsame] at hround
      exact (hdispatched.covered name round hround).evolves hevolves
    · rw [hqueue]
      rcases round_step hwork hround with
        ⟨hresults, htodo, -⟩ | ⟨old, hold, -, -, -, -, hcovered⟩
      · refine ⟨fun job hjob => ?_, fun hraised job hjob => ?_⟩
        · rcases htodo with ⟨-, hnone⟩ | htodo
          · rw [hnone] at hjob
            cases hjob
          · rw [htodo] at hjob
            exact sound_dispatchJobs hjob
        · rcases htodo with ⟨htrue, -⟩ | htodo
          · rw [hraised] at htrue
            cases htrue
          · exact .inl (htodo ▸ hjob)
      · exact hcovered (hdispatched.covered name old hold)
  · intro name round entry hround hentry
    rcases dispatcher_step hstep name with hsame | ⟨act', queue, outbox, rfl, hwork, -⟩
    · rw [hsame] at hround
      exact hdispatched.started name round entry hround hentry
    · rcases round_step hwork hround with
        ⟨-, -, hfirst⟩ | ⟨old, hold, halert, hsameEntry, -⟩
      · exact (hfirst entry hentry).1
      · rw [halert]
        exact hdispatched.started name old entry hold (hsameEntry ▸ hentry)
  · intro name entry hlisted
    refine hmove.known ?_
    rcases dispatcher_step hstep name with hsame | ⟨act', queue, outbox, rfl, hwork, -⟩
    · rw [hsame] at hlisted
      exact hdispatched.known name entry hlisted
    · rcases listed_step hwork hlisted with hold | hstored
      · exact hdispatched.known name entry hold
      · exact ⟨entry, hstored, rfl⟩
  · intro name round entry hround hentry hraised channel henabled haddressed
    rcases dispatcher_step hstep name with hsame | ⟨act', queue, outbox, rfl, hwork, -⟩
    · rw [hsame] at hround
      exact hdispatched.rendered name round entry hround hentry hraised channel henabled haddressed
    · rcases round_step hwork hround with
        ⟨-, -, hfirst⟩ | ⟨old, hold, halert, hsameEntry, hrendering, hsameRaised, -⟩
      · obtain ⟨halert, hstart⟩ := hfirst entry hentry
        obtain ⟨rest, hlisted, rfl⟩ := hstart hraised
        have htarget : entry.targetId = round.alert.targetId := by
          rw [halert]
          rfl
        have hall : ∀ channel ∈ [ChannelType.signal, ChannelType.email],
            (!(round.rendering.enabled channel &&
              addressed channel (recipients entry.targetId) &&
              round.rendering.blank channel)) = true := by
          have hcondition := hrenders
          simp only [Renders, hlisted] at hcondition
          exact List.all_eq_true.mp hcondition
        have hmem : channel ∈ [ChannelType.signal, ChannelType.email] := by
          cases channel <;> simp
        have hchannel := hall channel hmem
        rw [htarget] at hchannel
        simpa [henabled, haddressed] using hchannel
      · rw [halert] at haddressed
        rw [hrendering] at henabled ⊢
        exact hdispatched.rendered name old entry hold (hsameEntry ▸ hentry)
          (hsameRaised ▸ hraised) channel henabled haddressed

/-- Every enabled recipient of the entry has its row on each channel that the round found
enabled and that it has an address for. -/
def Enqueued (recipients : Nat → List RecipientInfo) (rendering : Rendering) (queue : Queue)
    (entry : OutboxEntry) : Prop :=
  ∀ target ∈ recipients entry.targetId, target.isEnabled = true →
    ∀ channel, rendering.enabled channel = true → (target.address channel).isSome = true →
      ∃ row ∈ queue.rows, Carries entry.payload target.id channel row

/-- A record of a round is the end of a round that has nothing left to do. -/
theorem finish_cases {error : Text}
    (hstep : desk.step recipients (.dispatch name (.finish error)) = some next) :
    ∃ round, (desk.dispatchers name).round = some round ∧ next.queue = desk.queue ∧
      (round.entry = none ∧ next.outbox = desk.outbox ∨
        ∃ listed reason, round.entry = some listed ∧ round.todo = [] ∧
          next.outbox = recordAttempt desk.clock listed.key round.succeeded
            (if round.succeeded then 0 else retryDelaySeconds listed.attempts) reason
            desk.outbox) := by
  obtain ⟨queue, outbox, dispatcher, hwork, rfl⟩ := step_dispatch hstep
  cases hwork with
  | finishDirect hround hentry => exact ⟨_, hround, rfl, .inl ⟨hentry, rfl⟩⟩
  | finish hround hdone hentry => exact ⟨_, hround, rfl, .inr ⟨_, _, hentry, hdone, rfl⟩⟩

/-- Only the end of a round completes an entry. -/
theorem completed_step {act : DeskAct} {entry : OutboxEntry}
    (hstep : desk.step recipients act = some next) (hentry : entry ∈ next.outbox)
    (hcompleted : entry.status = .completed) :
    entry ∈ desk.outbox ∨ ∃ name error, act = .dispatch name (.finish error) := by
  cases act with
  | tick delay =>
      cases hstep
      exact .inl hentry
  | spool act =>
      cases hstep
      exact .inl hentry
  | report event alert endedAt duration =>
      cases hstep
      simp only [enqueueAlertDispatch] at hentry
      split at hentry
      · exact .inl hentry
      · rcases List.mem_append.mp hentry with hold | hnew
        · exact .inl hold
        · rw [List.mem_singleton.mp hnew] at hcompleted
          cases hcompleted
  | dispatch name act =>
      obtain ⟨queue, outbox, dispatcher, hwork, rfl⟩ := step_dispatch hstep
      cases hwork with
      | finish hround hdone hsome => exact .inr ⟨name, _, rfl⟩
      | list => exact .inl hentry
      | start hlisted => exact .inl hentry
      | raise hlisted => exact .inl hentry
      | direct => exact .inl hentry
      | refuse hround htodo => exact .inl hentry
      | enqueue hround htodo => exact .inl hentry
      | finishDirect hround hnone => exact .inl hentry
      | crash => exact .inl hentry

/-- A round that completes an entry found every row. -/
theorem Dispatched.enqueued {listed entry : OutboxEntry} {round : Round}
    (hdispatched : Dispatched recipients desk) (hround : (desk.dispatchers name).round = some round)
    (hlisted : round.entry = some listed) (hdone : round.todo = [])
    (hsucceeded : round.succeeded = true) (hpayload : entry.payload = listed.payload) :
    Enqueued recipients round.rendering desk.queue entry := by
  intro target htarget hactive channel henabled haddress
  have halert : round.alert = entry.payload :=
    (hdispatched.started name round listed hround hlisted).trans hpayload.symm
  have htargetId : round.alert.targetId = entry.targetId := by
    rw [halert]
    rfl
  have hraised : round.raised = false := by
    have hboth := hsucceeded
    rw [Round.succeeded, Bool.and_eq_true] at hboth
    simpa using hboth.1
  have haddressed : addressed channel (recipients round.alert.targetId) = true := by
    rw [htargetId]
    exact List.any_eq_true.mpr ⟨target, htarget, by simp [haddress, hactive]⟩
  have hblank := hdispatched.rendered name round listed hround hlisted hraised channel henabled
    haddressed
  rw [← halert]
  exact (hdispatched.covered name round hround).rows hdone hsucceeded (htargetId ▸ htarget)
    hactive henabled hblank haddress

theorem retryDelay_pos (attempts : Nat) : 0 < seconds (retryDelaySeconds attempts) := by
  have hpower : 0 < 2 ^ min attempts 6 := Nat.two_pow_pos _
  have hdelay : 0 < retryDelaySeconds attempts := by
    simp only [retryDelaySeconds, outboxMaxBackoffSeconds]
    omega
  simp only [seconds]
  omega

/-- In every run whose rounds render no empty text for a channel they need: an alert
message has at most one row; an entry is completed only by a round after which every
row of it is there; a round that does not complete its entry leaves it pending with the
next attempt in the future; and no entry is lost. -/
theorem alert_messages_enqueued_once {clock : Int} {acts : List DeskAct} {act : DeskAct}
    {before after : Desk}
    (hok : RunOk (step recipients) (Renders recipients) (start clock) (acts ++ [act]))
    (hrun : run (step recipients) (start clock) acts = some before)
    (hstep : before.step recipients act = some after) :
    Single after.queue ∧
    (∀ entry ∈ after.outbox, entry.status = .completed → entry ∈ before.outbox ∨
      ∃ name error round listed, act = .dispatch name (.finish error) ∧
        (before.dispatchers name).round = some round ∧ round.entry = some listed ∧
        listed.payload = entry.payload ∧
        Enqueued recipients round.rendering after.queue entry) ∧
    (∀ name error round listed, act = .dispatch name (.finish error) →
      (before.dispatchers name).round = some round → round.entry = some listed →
      ∀ entry ∈ after.outbox, entry.key = listed.key →
        entry.status = .completed ∨ before.clock < entry.nextAttemptAt) ∧
    ∀ old ∈ before.outbox, ∃ entry ∈ after.outbox, entry.payload = old.payload ∧
      (old.status = .completed → entry = old) := by
  obtain ⟨hokActs, hokStep⟩ := hok.split hrun
  have hbefore : Dispatched recipients before :=
    run_invariant_of (fun hdispatched hrenders hnext => hdispatched.step hrenders hnext) hokActs
      (.of_start clock) hrun
  obtain ⟨hevolves, hmove⟩ := step_moves hstep
  refine ⟨hevolves.single hbefore.single, ?_, ?_, ?_⟩
  · intro entry hentry hcompleted
    rcases completed_step hstep hentry hcompleted with hold | ⟨name, error, rfl⟩
    · exact .inl hold
    obtain ⟨round, hround, hqueue, ⟨-, houtbox⟩ | ⟨listed, reason, hlisted, hdone, houtbox⟩⟩ :=
      finish_cases hstep
    · exact .inl (houtbox ▸ hentry)
    rw [houtbox] at hentry
    obtain ⟨old, hold, hpayload, ⟨hsame, -⟩ | ⟨hkey, -, hstatus, -⟩⟩ := recordAttempt_entry hentry
    · exact .inl (hsame ▸ hold)
    have hsucceeded : round.succeeded = true := by
      by_contra hfailed
      rw [if_neg hfailed, hcompleted] at hstatus
      cases hstatus
    -- the entry of the round is the entry that is stored under its key
    obtain ⟨stored, hstored, hsamePayload⟩ :=
      hbefore.known name listed (.inr ⟨round, hround, hlisted⟩)
    obtain rfl := hbefore.keyed.eq_of_mem hstored hold
      ((key_of_payload hsamePayload).trans hkey.symm)
    have hentryPayload : entry.payload = listed.payload := hpayload.trans hsamePayload
    refine .inr ⟨name, error, round, listed, rfl, hround, hlisted, hentryPayload.symm, ?_⟩
    rw [hqueue]
    exact hbefore.enqueued hround hlisted hdone hsucceeded hentryPayload
  · rintro name error round listed rfl hround hlisted entry hentry hkey
    obtain ⟨found, hfound, -, hcase⟩ := finish_cases hstep
    rw [hround] at hfound
    cases hfound
    rcases hcase with ⟨hnone, -⟩ | ⟨listed', reason, hlisted', -, houtbox⟩
    · rw [hlisted] at hnone
      cases hnone
    rw [hlisted] at hlisted'
    cases hlisted'
    rw [houtbox] at hentry
    obtain ⟨old, hold, -, ⟨rfl, hother⟩ | ⟨-, -, hstatus, hnext⟩⟩ := recordAttempt_entry hentry
    · cases hstatus : entry.status with
      | completed => exact .inl rfl
      | pending => exact absurd ⟨hkey, hstatus⟩ hother
    · by_cases hsucceeded : round.succeeded = true
      · rw [if_pos hsucceeded] at hstatus
        exact .inl hstatus
      · rw [if_neg hsucceeded] at hnext
        have hdelay := retryDelay_pos listed.attempts
        exact .inr (by omega)
  · intro old hold
    exact hmove.kept hold

/-! ## Two rounds -/

def oneRecipient (_ : Nat) : List RecipientInfo :=
  [⟨1, some "+49".toList, some "a@b".toList, true⟩]

def openAlert : Alert := newAlert 7 3 "web".toList "HTTP".toList 0

def mailRendering : Rendering where
  signalEnabled := false
  signalMessage := .ok []
  signalSender := .ok none
  smtpEnabled := true
  emailContent := .ok ("DOWN".toList, "web is down".toList)

/-- A template of an unknown placeholder renders to nothing. -/
def blankRendering : Rendering where
  signalEnabled := true
  signalMessage := .ok []
  signalSender := .ok (some "+41".toList)
  smtpEnabled := false
  emailContent := .ok ("DOWN".toList, "web is down".toList)

def isCompleted (desk : Desk) : Bool := desk.outbox.any fun entry => entry.status = .completed

/-- A round enqueues a mail and completes its entry. -/
theorem alert_messages_enqueued_once_mail :
    ∃ after : Desk, Single after.queue ∧
      ∃ entry ∈ after.outbox, entry.status = .completed ∧
        ∃ rendering, Enqueued oneRecipient rendering after.queue entry := by
  let acts : List DeskAct :=
    [.report .open openAlert none none, .dispatch 0 .list, .dispatch 0 (.start mailRendering),
      .dispatch 0 (.next 0 none)]
  let act : DeskAct := .dispatch 0 (.finish [])
  have hany : (run (step oneRecipient) (start 0) acts).any (fun before =>
      (before.step oneRecipient act).any fun after =>
        !isCompleted before && isCompleted after) = true := by
    decide +kernel
  obtain ⟨before, hrun, hbefore⟩ := (Option.any_eq_true ..).mp hany
  obtain ⟨after, hstep, hafter⟩ := (Option.any_eq_true ..).mp hbefore
  obtain ⟨hpending, hcompleted⟩ := Bool.and_eq_true _ _ ▸ hafter
  obtain ⟨entry, hentry, hstatus⟩ := List.any_eq_true.mp hcompleted
  have hok : RunOk (step oneRecipient) (Renders oneRecipient) (start 0) (acts ++ [act]) := by
    decide +kernel
  obtain ⟨hsingle, hrounds, -, -⟩ := alert_messages_enqueued_once hok hrun hstep
  rcases hrounds entry hentry (of_decide_eq_true hstatus) with
    hold | ⟨name, error, round, listed, -, -, -, -, henqueued⟩
  · have hearlier : isCompleted before = true := List.any_eq_true.mpr ⟨entry, hold, hstatus⟩
    rw [hearlier] at hpending
    cases hpending
  · exact ⟨after, hsingle, entry, hentry, of_decide_eq_true hstatus, round.rendering, henqueued⟩

/-- An entry whose Signal text is empty is completed without a row. -/
theorem blank_text_completes_entry :
    ¬ ∀ (acts : List DeskAct) (act : DeskAct) (before after : Desk),
      run (step oneRecipient) (start 0) acts = some before →
      before.step oneRecipient act = some after →
      ∀ entry ∈ after.outbox, entry.status = .completed → entry ∈ before.outbox ∨
        ∃ name error round listed, act = .dispatch name (.finish error) ∧
          (before.dispatchers name).round = some round ∧ round.entry = some listed ∧
          listed.payload = entry.payload ∧
          Enqueued oneRecipient round.rendering after.queue entry := by
  intro hclaim
  let acts : List DeskAct :=
    [.report .open openAlert none none, .dispatch 0 .list, .dispatch 0 (.start blankRendering)]
  let act : DeskAct := .dispatch 0 (.finish [])
  have hany : (run (step oneRecipient) (start 0) acts).any (fun before =>
      (before.step oneRecipient act).any fun after =>
        !isCompleted before && isCompleted after &&
          ((before.dispatchers 0).round.all fun round => round.rendering.signalEnabled) &&
          decide (after.queue.rows = [])) = true := by
    decide +kernel
  obtain ⟨before, hrun, hbefore⟩ := (Option.any_eq_true ..).mp hany
  obtain ⟨after, hstep, hafter⟩ := (Option.any_eq_true ..).mp hbefore
  simp only [Bool.and_eq_true] at hafter
  obtain ⟨⟨⟨hpending, hcompleted⟩, hsignal⟩, hempty⟩ := hafter
  obtain ⟨entry, hentry, hstatus⟩ := List.any_eq_true.mp hcompleted
  rcases hclaim acts act before after hrun hstep entry hentry (of_decide_eq_true hstatus) with
    hold | ⟨name, error, round, listed, hact, hround, -, -, henqueued⟩
  · have hearlier : isCompleted before = true := List.any_eq_true.mpr ⟨entry, hold, hstatus⟩
    rw [hearlier] at hpending
    cases hpending
  · obtain rfl : 0 = name := by injection hact
    rw [hround] at hsignal
    obtain ⟨row, hrow, -⟩ := henqueued _ (List.mem_singleton_self _) rfl .signal hsignal rfl
    rw [of_decide_eq_true hempty] at hrow
    cases hrow

end Desk

end Justup.Alerts
