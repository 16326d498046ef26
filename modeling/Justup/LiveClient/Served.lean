import Justup.LiveClient.Steady

/-!
# The subscribers of the client

What a subscriber is owed: a resync after an event that it missed, and after every
interruption of the stream.
-/

namespace Justup.LiveClient

open Lib

namespace Sub

/-- What the log of a subscriber with a resync callback tells: an event that was missed and
a stream that came back are followed by a resync before the next notification in a
visible tab has ended, and at once when the stream came back in view. -/
structure Kept (sub : Sub) : Prop where
  told : Obligation.Met Mark.isStale Mark.isResynced Mark.isVisible sub.log
  inView : Obligation.isOpen Mark.isReconnectedInView Mark.isResynced sub.log = false

/-- The same, with what the client remembers of what is owed. -/
structure Sound (problem : Prop) (sub : Sub) : Prop extends sub.Kept where
  dirty : Obligation.isOpen Mark.isStale Mark.isResynced sub.log = true → sub.dirty = true
  known : sub.isInterrupted = true → problem

variable {problem : Prop} {sub : Sub}

theorem Sound.imp {problem' : Prop} (hsound : sub.Sound problem) (himp : problem → problem') :
    sub.Sound problem' := { hsound with known := fun h => himp (hsound.known h) }

/-- A mark of which no obligation takes notice. -/
theorem Sound.handled (hsound : sub.Sound problem) (batch : List Event) :
    (sub.note (.handled batch)).Sound problem where
  told := hsound.told.concat nofun
  inView := by
    simpa [note, Mark.isReconnectedInView, Mark.isResynced] using hsound.inView
  dirty := by
    simpa [note, Mark.isStale, Mark.isMissed, Mark.isReconnected, Mark.isResynced]
      using hsound.dirty
  known := by
    simpa [note, isInterrupted, Mark.isInterrupted, Mark.isReconnected] using hsound.known

theorem Sound.interrupted (hsound : sub.Sound problem) : (sub.note .interrupted).Sound True where
  told := hsound.told.concat nofun
  inView := by
    simpa [note, Mark.isReconnectedInView, Mark.isResynced] using hsound.inView
  dirty := by
    simpa [note, Mark.isStale, Mark.isMissed, Mark.isReconnected, Mark.isResynced]
      using hsound.dirty
  known _ := trivial

/-- A resync pays what is owed. -/
theorem sound_callResync
    (htold : Obligation.Met Mark.isStale Mark.isResynced Mark.isVisible sub.log)
    (hknown : sub.isInterrupted = true → problem) : sub.callResync.Sound problem where
  told := htold.concat nofun
  inView := by simp [Sub.callResync, note, Mark.isReconnectedInView, Mark.isResynced]
  dirty := by
    simp [Sub.callResync, note, Mark.isStale, Mark.isMissed, Mark.isReconnected, Mark.isResynced]
  known := by
    simpa [Sub.callResync, note, isInterrupted, Mark.isInterrupted, Mark.isReconnected]
      using hknown

theorem Sound.flush (hsound : sub.Sound problem) : sub.flush.Sound problem := by
  have hflushed : Sound problem { sub with timer := false, pending := [] } := { hsound with }
  unfold Sub.flush
  dsimp only
  split_ifs
  · exact hflushed
  · exact hflushed.handled sub.pending

theorem Sound.deliver (hsound : sub.Sound problem) (hidden : Bool) (event : Event) :
    (sub.deliver hidden event).Sound problem := by
  unfold Sub.deliver
  split_ifs
  · exact {
      told := hsound.told.concat nofun
      inView := by simpa [note, Mark.isReconnectedInView, Mark.isResynced] using hsound.inView
      dirty := fun _ => rfl
      known := by
        simpa [note, isInterrupted, Mark.isInterrupted, Mark.isReconnected] using hsound.known }
  · exact { hsound with }
  · exact hsound

theorem Sound.resyncIn (hsound : sub.Sound problem) (hidden : Bool) :
    (sub.resyncIn hidden).Sound problem := by
  unfold Sub.resyncIn
  split_ifs
  · exact hsound
  · exact { hsound with dirty := fun _ => rfl }
  · exact sound_callResync hsound.told hsound.known

/-- A notification ends with nothing owed. -/
theorem Sound.notifyVisible (hsound : sub.Sound problem) (hresync : sub.hasResync = true) :
    sub.notifyVisible.Sound problem := by
  have hend {shown : Sub} (hshown : shown.Sound problem)
      (hpaid : Obligation.isOpen Mark.isStale Mark.isResynced shown.log = false) :
      (shown.note .visible).Sound problem := {
    told := hshown.told.concat fun _ => hpaid
    inView := by simpa [note, Mark.isReconnectedInView, Mark.isResynced] using hshown.inView
    dirty := by
      simp [note, Mark.isStale, Mark.isMissed, Mark.isReconnected, Mark.isResynced, hpaid]
    known := by
      simpa [note, isInterrupted, Mark.isInterrupted, Mark.isReconnected] using hshown.known }
  unfold Sub.notifyVisible
  dsimp only
  rw [if_pos hresync]
  split_ifs with hclean
  · refine hend hsound ?_
    by_contra howed
    rw [hsound.dirty (by simpa using howed)] at hclean
    cases hclean
  · have hpaid : Obligation.isOpen Mark.isStale Mark.isResynced
        (Sub.callResync { sub with dirty := false }).log = false := by
      simp [Sub.callResync, note, Mark.isStale, Mark.isMissed, Mark.isReconnected,
        Mark.isResynced]
    exact hend (sound_callResync hsound.told hsound.known) hpaid

/-- The stream connects: with the problem known, an interruption is answered. -/
theorem Sound.connected (hsound : sub.Sound problem) (hresync : sub.hasResync = true)
    (hidden : Bool) [Decidable problem] :
    (if problem then (sub.connected hidden).resyncIn hidden
      else sub.connected hidden).Sound False := by
  by_cases hinterrupted : sub.isInterrupted = true
  · rw [if_pos (hsound.known hinterrupted), Sub.connected, if_pos hinterrupted, Sub.resyncIn]
    rw [if_neg (by simp [note, hresync])]
    have htold : Obligation.Met Mark.isStale Mark.isResynced Mark.isVisible
        (sub.note (.reconnected hidden)).log := hsound.told.concat nofun
    have hknown : (sub.note (.reconnected hidden)).isInterrupted = false := by
      simp [note, isInterrupted, Mark.isInterrupted, Mark.isReconnected]
    split_ifs with hhidden
    · subst hhidden
      exact {
        told := htold
        inView := by simpa [note, Mark.isReconnectedInView, Mark.isResynced] using hsound.inView
        dirty := fun _ => rfl
        known := fun h => by
          have hsame : (sub.note (.reconnected true)).isInterrupted = true := h
          rw [hknown] at hsame
          cases hsame }
    · exact sound_callResync htold fun h => by rw [hknown] at h; cases h
  · have hfree : sub.Sound False := { hsound with known := fun h => absurd h hinterrupted }
    rw [Sub.connected, if_neg hinterrupted]
    split_ifs
    · exact hfree.resyncIn hidden
    · exact hfree

end Sub

/-! ## All subscribers -/

/-- Every subscriber with a resync callback. -/
def AllSound (problem : Prop) (subs : List Sub) : Prop :=
  ∀ sub ∈ subs, sub.hasResync = true → sub.Sound problem

theorem AllSound.imp {problem problem' : Prop} {subs : List Sub} (hall : AllSound problem subs)
    (himp : problem → problem') : AllSound problem' subs :=
  fun sub hsub hresync => (hall sub hsub hresync).imp himp

theorem AllSound.map {problem problem' : Prop} {subs : List Sub} (hall : AllSound problem subs)
    {f : Sub → Sub} (hresync : ∀ sub, (f sub).hasResync = sub.hasResync)
    (hf : ∀ sub, sub.hasResync = true → sub.Sound problem → (f sub).Sound problem') :
    AllSound problem' (subs.map f) := by
  intro sub hsub hsubResync
  obtain ⟨old, hold, rfl⟩ := List.mem_map.mp hsub
  rw [hresync] at hsubResync
  exact hf old hsubResync (hall old hold hsubResync)

namespace Client

variable {client : Client}

/-- What is still owed for an interruption is known, until the session has ended. -/
def Served (client : Client) : Prop :=
  AllSound (client.hadProblem = true ∨ client.state = .authenticationLost) client.subs

theorem hasResync_resyncIn (hidden : Bool) (sub : Sub) :
    (sub.resyncIn hidden).hasResync = sub.hasResync := by
  unfold Sub.resyncIn
  split_ifs <;> rfl

theorem hasResync_connected (hidden : Bool) (sub : Sub) :
    (sub.connected hidden).hasResync = sub.hasResync := by
  unfold Sub.connected
  split_ifs <;> rfl

theorem Served.resyncAll (hserved : client.Served) : client.resyncAll.Served := by
  have hall := hserved.map (hasResync_resyncIn client.isHidden)
    fun sub _ hsound => hsound.resyncIn client.isHidden
  unfold Client.resyncAll
  dsimp only
  split_ifs <;> exact hall

theorem Served.deliver (hserved : client.Served) (type : EventType) (data : Data) :
    (client.deliver type data).Served := by
  have hall := hserved.map (f := fun sub => sub.deliver client.isHidden ⟨type, data⟩)
    (fun sub => by unfold Sub.deliver; split_ifs <;> rfl)
    fun sub _ hsound => hsound.deliver client.isHidden ⟨type, data⟩
  unfold Client.deliver bridge
  dsimp only
  split_ifs <;> exact hall

theorem Served.notifyVisible (hserved : client.Served) : client.notifyVisible.Served := by
  have hall := hserved.map (f := Sub.notifyVisible)
    (fun sub => by unfold Sub.notifyVisible; dsimp only; split_ifs <;> rfl)
    fun sub hresync hsound => hsound.notifyVisible hresync
  unfold Client.notifyVisible
  dsimp only
  split_ifs
  · exact hserved
  · exact hall
  · exact hall

theorem Served.step (hserved : client.Served) : client.step.Served := by
  obtain ⟨recovering, probing, requests, hstep⟩ := client.step_eq
  rw [hstep]
  exact hserved

theorem Served.recover (hserved : client.Served) : client.recover.Served := by
  obtain ⟨recovering, probing, requests, hrecover⟩ := client.recover_eq
  rw [hrecover]
  exact hserved

theorem Served.lost (hserved : client.Served) : client.lost.Served := by
  by_cases hgoes : (client.closed || client.state = .authenticationLost) = true
  · rw [Client.lost, if_pos hgoes]
    exact hserved
  · obtain ⟨state, fallback, heq, -⟩ := lost_eq hgoes
    rw [heq]
    refine Served.recover ?_
    exact hserved.imp fun _ => .inl rfl

/-- An interruption is known as soon as it is given up for lost. -/
theorem Served.drop (hserved : client.Served) (hwired : client.Wired) :
    client.teardown.lost.Served := by
  obtain ⟨opened, hteardown, -⟩ := client.teardown_eq
  by_cases hes : client.es = none
  · refine Served.lost ?_
    rw [hteardown, if_pos hes]
    exact hserved
  · have hgoes :
        ¬(client.teardown.closed || client.teardown.state = .authenticationLost) = true := by
      rw [hteardown, Bool.or_eq_true, decide_eq_true_eq]
      rintro (hclosed | hlost)
      · exact hes (hwired.closed hclosed)
      · exact hes (hwired.authLost hlost)
    obtain ⟨state, fallback, heq, -⟩ := lost_eq hgoes
    rw [heq]
    refine Served.recover (AllSound.imp ?_ fun _ : True => .inl rfl)
    rw [hteardown]
    dsimp only
    rw [if_neg hes]
    exact hserved.map (fun _ => rfl) fun sub _ hsound => hsound.interrupted

theorem Served.connect (hserved : client.Served) (constructs : Bool) :
    (client.connect constructs).Served := by
  unfold Client.connect
  split_ifs
  · exact hserved
  · exact hserved.lost
  · exact hserved

/-- The stream connects, and no interruption is owed any more. -/
theorem Served.onConnected (hserved : client.Served)
    (hlost : client.state ≠ .authenticationLost) : client.onConnected.Served := by
  have hproblem : AllSound (client.hadProblem = true) client.subs :=
    hserved.imp (·.resolve_right hlost)
  have hall : AllSound False (client.subs.map fun sub =>
      if client.hadProblem = true then (sub.connected client.isHidden).resyncIn client.isHidden
      else sub.connected client.isHidden) := by
    refine hproblem.map (fun sub => ?_) fun sub hresync hsound =>
      hsound.connected hresync client.isHidden
    split_ifs
    · rw [hasResync_resyncIn, hasResync_connected]
    · rw [hasResync_connected]
  unfold Client.onConnected
  dsimp only
  obtain ⟨fallback, hset⟩ := { client with
    attempts := 0
    probeFailures := 0
    timers.step := false
    recovering := false
    hadProblem := false
    subs := client.subs.map fun sub : Sub => sub.connected client.isHidden }.setState_eq .connected
  rw [hset]
  by_cases hhad : client.hadProblem = true
  · rw [if_pos hhad]
    simp only [if_pos hhad] at hall
    unfold Client.resyncAll
    dsimp only
    have hresynced : AllSound False ((client.subs.map fun sub =>
        sub.connected client.isHidden).map fun sub => sub.resyncIn client.isHidden) := by
      simpa only [List.map_map, Function.comp_def] using hall
    split_ifs <;> exact hresynced.imp False.elim
  · rw [if_neg hhad]
    simp only [if_neg hhad] at hall
    exact hall.imp False.elim

theorem Served.handle (hserved : client.Served) (hwired : client.Wired) (type : EventType)
    (data : Data) : (client.handle type data).Served := by
  cases type with
  | systemHeartbeat =>
      unfold Client.handle
      dsimp only
      split
      · exact hserved
      · split_ifs <;> exact hserved
  | systemResync => exact hserved.resyncAll
  | systemAuthLost => exact hserved.drop hwired
  | _ =>
      unfold Client.handle
      exact hserved.deliver _ data

theorem Served.signOut (hserved : client.Served) : client.authLost.Served := by
  have hall : AllSound True client.teardown.subs := by
    obtain ⟨opened, hteardown, -⟩ := client.teardown_eq
    rw [hteardown]
    dsimp only
    split_ifs
    · exact hserved.imp fun _ => trivial
    · exact hserved.map (fun _ => rfl) fun sub _ hsound => hsound.interrupted
  unfold Client.authLost
  dsimp only
  obtain ⟨fallback, hset⟩ := { client.teardown with
    recovering := false
    timers.step := false
    timers.fallback := false
    timers.safety := false }.setState_eq .authenticationLost
  rw [hset]
  exact hall.imp fun _ => .inr rfl

theorem Served.probed (hserved : client.Served) (ok : Option Bool) :
    (client.probed ok).Served := by
  unfold Client.probed
  by_cases hactive : client.isActive = true
  · rw [if_neg (by simpa using hactive)]
    match ok with
    | none => exact hserved
    | some true => exact hserved
    | some false =>
        dsimp only
        split_ifs
        · obtain ⟨fallback, hset⟩ := { client with
            probeFailures := client.probeFailures + 1 }.setState_eq .offline
          rw [hset]
          exact hserved.imp fun h => .inl (h.resolve_right (isActive_iff.mp hactive).2.2)
        · exact hserved
  · rw [if_pos (by simpa using hactive)]
    exact hserved

theorem Served.sessionAnswered (hserved : client.Served) (wasOffline : Bool) (status : ℕ)
    (constructs : Bool)
    (hok : client.closed = true ∨ status = 401 ∨ status = 403 ∨ client.isActive = true) :
    (client.sessionAnswered wasOffline status constructs).Served := by
  by_cases hclosed : client.closed = true
  · rw [Client.sessionAnswered, if_pos hclosed]
    exact hserved
  by_cases hover : (status = 401 || status = 403) = true
  · rw [Client.sessionAnswered, if_neg hclosed, if_pos hover]
    exact hserved.signOut
  have hactive := active_of_sessionOk hok hclosed hover
  obtain ⟨state, fallback, -, -, heq⟩ := sessionAnswered_eq constructs hclosed hover
  rw [heq]
  have htold : Served { client with
      state := state
      attempts := client.attempts + 1
      timers := { client.timers with fallback := fallback } } :=
    hserved.imp fun h => .inl (h.resolve_right (isActive_iff.mp hactive).2.2)
  split_ifs
  · exact htold.resyncAll.connect constructs
  · exact htold.connect constructs

theorem Served.onMessage (hserved : client.Served) (halive : client.Alive) {source : ℕ}
    (hes : client.es = some source) (type : EventType) (data : Data) :
    ({ client with heard := some source }.onMessage type data).Served := by
  refine Served.handle ?_ (halive.hear hes).1.toWired type data
  split_ifs with hstate
  · exact hserved
  · have hsame : Served { client with heard := some source }.armHeartbeat := hserved
    refine hsame.onConnected fun hlost => ?_
    simp [halive.authLost hlost] at hes

theorem Served.fired (hserved : client.Served) (halive : client.Alive) {timer : Timer}
    {next : Client} (hfired : client.fired timer = some next) : next.Served := by
  cases timer <;>
    simp only [Client.fired, Option.ite_none_right_eq_some, Option.some.injEq] at hfired <;>
    obtain ⟨-, rfl⟩ := hfired
  case heartbeat => exact hserved.drop halive.toWired
  case step =>
    have hsame : Served { client with timers.step := false } := hserved
    exact hsame.step
  case fallback =>
    have hsame : Served { client with timers.fallback := false } := hserved
    unfold fireFallback
    dsimp only
    split_ifs
    · exact hserved
    · exact hsame.resyncAll
    · exact hserved
  case safety =>
    have hsame : Served { client with timers.safety := false } := hserved
    unfold fireSafety
    dsimp only
    split_ifs
    · exact hserved
    · exact hsame.resyncAll
    · exact hserved
  case dom => exact hserved

theorem Served.subscribe (hserved : client.Served) (types : List EventType) (hasResync : Bool) :
    (client.subscribe types hasResync).Served := by
  intro sub hsub hresync
  obtain hold | hnew := List.mem_append.mp hsub
  · exact hserved sub hold hresync
  · obtain rfl := List.mem_singleton.mp hnew
    exact {
      told := Obligation.met_nil
      inView := rfl
      dirty := nofun
      known := nofun }

theorem Served.start (hserved : client.Served) (constructs : Bool) :
    (client.start constructs).Served := by
  unfold Client.start
  by_cases hsource : client.hasEventSource = true
  · rw [if_neg (by simp [hsource])]
    exact hserved.connect constructs
  · rw [if_pos (by simpa using hsource)]
    obtain ⟨fallback, hset⟩ := { client with hadProblem := true }.setState_eq .fallback
    rw [hset]
    refine Served.recover ?_
    exact hserved.imp fun _ => .inl rfl

/-- What every handler keeps of the subscribers. -/
theorem Served.next (hserved : client.Served) (halive : client.Alive) {action : Action}
    (hok : client.SessionOk action) {next : Client} (hnext : client.next action = some next) :
    next.Served := by
  cases action with
  | visibility hidden =>
      cases hnext
      exact hserved
  | subscribe types hasResync =>
      cases hnext
      exact hserved.subscribe types hasResync
  | unsubscribe id =>
      cases hnext
      exact fun sub hsub => hserved sub (List.mem_filter.mp hsub).1
  | message source type data =>
      simp only [Client.next, onSource, Option.some.injEq] at hnext
      subst hnext
      split_ifs with hes
      · exact hserved.onMessage halive hes type data
      · exact hserved
  | errored source =>
      simp only [Client.next, onSource, Option.some.injEq] at hnext
      subst hnext
      split_ifs
      · exact hserved.drop halive.toWired
      · exact hserved
  | fire timer => exact hserved.fired halive hnext
  | flush id =>
      simp only [Client.next, Option.ite_none_right_eq_some, Option.some.injEq] at hnext
      obtain ⟨-, rfl⟩ := hnext
      refine hserved.map (fun sub => ?_) fun sub _ hsound => ?_
      · unfold Sub.flush
        dsimp only
        split_ifs <;> rfl
      · dsimp only
        split_ifs
        · exact hsound.flush
        · exact hsound
  | busyAnswer =>
      simp only [Client.next, answered, Option.ite_none_right_eq_some, Option.some.injEq] at hnext
      obtain ⟨-, rfl⟩ := hnext
      have hsame : Served { client with requests := client.requests.erase .busy } := hserved
      exact hsame.probed none
  | healthAnswer ok =>
      simp only [Client.next, answered, Option.ite_none_right_eq_some, Option.some.injEq] at hnext
      obtain ⟨-, rfl⟩ := hnext
      have hsame : Served { client with
        requests := client.requests.erase .health, probing := false } := hserved
      exact hsame.probed (some ok)
  | sessionAnswer wasOffline status constructs =>
      simp only [Client.next, answered, Option.ite_none_right_eq_some, Option.some.injEq] at hnext
      obtain ⟨-, rfl⟩ := hnext
      have hsame : Served { client with
        requests := client.requests.erase (.session wasOffline) } := hserved
      exact hsame.sessionAnswered wasOffline status constructs (hok status rfl)
  | notifyVisible =>
      cases hnext
      exact hserved.notifyVisible
  | notifyBrowserOffline =>
      cases hnext
      exact hserved.drop halive.toWired
  | notifyBrowserOnline =>
      cases hnext
      unfold Client.notifyBrowserOnline
      split_ifs
      · exact hserved
      · have hsame : Served { client with
          attempts := 0, timers.step := false, recovering := false } := hserved
        exact hsame.recover
  | reportHttpFailure =>
      cases hnext
      unfold Client.reportHttpFailure
      split_ifs
      · exact hserved
      · exact hserved.recover
  | close =>
      cases hnext
      exact fun sub hsub => absurd hsub List.not_mem_nil

end Client

end Justup.LiveClient
