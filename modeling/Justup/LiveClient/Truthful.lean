import Justup.Lib.Transition
import Justup.LiveClient.Served

/-!
# The client tells the truth

What holds in every state of a run, and what is told in the end stays told.
-/

namespace Justup.LiveClient

open Lib Transition

namespace Client

/-- A probe or a session request is pending, or a timer that tries again is armed. -/
def Waits (client : Client) : Prop := client.Pursues ∨ client.timers.heartbeat = true

/-- The truth in one state. -/
structure Truthful (client : Client) : Prop where
  one : client.opened.length ≤ 1
  hears : client.Hears → client.state = .connected
  waits : client.isActive = true → client.Waits
  kept : ∀ sub ∈ client.subs, sub.hasResync = true → sub.Kept

variable {client : Client}

theorem Alive.truthful (halive : client.Alive) (hserved : client.Served) : client.Truthful where
  one := by
    rw [halive.opened]
    cases client.es <;> simp
  hears := halive.hears
  waits hactive := (halive.waits hactive).symm.imp_right halive.heartbeat
  kept sub hsub hresync := (hserved sub hsub hresync).toKept

/-! ## The end of the session -/

theorem lost_of_signedOut (hstate : client.state = .authenticationLost) : client.lost = client := by
  rw [lost, if_pos (by simp [hstate])]

theorem step_state : client.step.state = client.state := by
  obtain ⟨recovering, probing, requests, hstep⟩ := client.step_eq
  rw [hstep]

theorem recover_state : client.recover.state = client.state := by
  obtain ⟨recovering, probing, requests, hrecover⟩ := client.recover_eq
  rw [hrecover]

theorem drop_of_signedOut (hstate : client.state = .authenticationLost) :
    client.teardown.lost.state = .authenticationLost := by
  obtain ⟨opened, hteardown, -⟩ := client.teardown_eq
  have hsame : client.teardown.state = .authenticationLost := by
    rw [hteardown]
    exact hstate
  rw [lost_of_signedOut hsame, hsame]

theorem not_active_of_signedOut (hstate : client.state = .authenticationLost) :
    ¬client.isActive = true := fun hactive => (isActive_iff.mp hactive).2.2 hstate

theorem probed_of_signedOut (hstate : client.state = .authenticationLost) (ok : Option Bool) :
    (client.probed ok).state = .authenticationLost := by
  unfold probed
  rw [if_pos (by simpa using not_active_of_signedOut hstate)]
  exact hstate

/-- Once the session has ended it stays so. -/
theorem Alive.stays (halive : client.Alive) {action : Action} (hok : client.SessionOk action)
    {next : Client} (hnext : client.next action = some next)
    (hstate : client.state = .authenticationLost) : next.state = .authenticationLost := by
  have hes := halive.authLost hstate
  cases action with
  | visibility hidden | subscribe types hasResync | unsubscribe id =>
      cases hnext
      exact hstate
  | message source type data | errored source =>
      simp only [Client.next, onSource, Option.some.injEq] at hnext
      subst hnext
      rw [if_neg (by simp [hes])]
      exact hstate
  | fire timer =>
      cases timer <;>
        simp only [Client.next, Client.fired, Option.ite_none_right_eq_some,
          Option.some.injEq] at hnext <;>
        obtain ⟨-, rfl⟩ := hnext
      case heartbeat =>
        have hsame : { client with timers.heartbeat := false }.state = .authenticationLost := hstate
        exact drop_of_signedOut hsame
      case step =>
        rw [step_state]
        exact hstate
      case fallback => rw [alike_fireFallback.state, hstate]
      case safety => rw [alike_fireSafety.state, hstate]
      case dom => exact hstate
  | flush id =>
      simp only [Client.next, Option.ite_none_right_eq_some, Option.some.injEq] at hnext
      obtain ⟨-, rfl⟩ := hnext
      exact hstate
  | busyAnswer =>
      simp only [Client.next, answered, Option.ite_none_right_eq_some, Option.some.injEq] at hnext
      obtain ⟨-, rfl⟩ := hnext
      have hsame : { client with
        requests := client.requests.erase .busy }.state = .authenticationLost := hstate
      exact probed_of_signedOut hsame none
  | healthAnswer ok =>
      simp only [Client.next, answered, Option.ite_none_right_eq_some, Option.some.injEq] at hnext
      obtain ⟨-, rfl⟩ := hnext
      have hsame : { client with
        requests := client.requests.erase .health
        probing := false }.state = .authenticationLost := hstate
      exact probed_of_signedOut hsame (some ok)
  | sessionAnswer wasOffline status constructs =>
      simp only [Client.next, answered, Option.ite_none_right_eq_some, Option.some.injEq] at hnext
      obtain ⟨-, rfl⟩ := hnext
      unfold Client.sessionAnswered
      by_cases hclosed : client.closed = true
      · rw [if_pos hclosed]
        exact hstate
      rw [if_neg hclosed]
      by_cases hover : (status = 401 || status = 403) = true
      · rw [if_pos hover]
        exact (halive.toSteady.erase (.session wasOffline) (by simp)).signOut.2
      · exact absurd (active_of_sessionOk (hok status rfl) hclosed hover)
          (not_active_of_signedOut hstate)
  | notifyVisible =>
      cases hnext
      rw [alike_notifyVisible.state, hstate]
  | notifyBrowserOffline =>
      cases hnext
      exact drop_of_signedOut hstate
  | notifyBrowserOnline =>
      cases hnext
      unfold Client.notifyBrowserOnline
      rw [if_neg (by simp [hstate]), recover_state]
      exact hstate
  | reportHttpFailure =>
      cases hnext
      unfold Client.reportHttpFailure
      rw [if_neg (by simp [hstate]), recover_state]
      exact hstate
  | close =>
      cases hnext
      obtain ⟨opened, hteardown, -⟩ := { client with closed := true }.teardown_eq
      unfold Client.close
      rw [hteardown]
      exact hstate

/-! ## The other way -/

/-- A client that says it is connected has heard its stream. -/
def Up (client : Client) : Prop :=
  client.closed = false → client.state = .connected → client.Hears

theorem Up.alike {other : Client} (hup : client.Up) (halike : client.Alike other) : other.Up := by
  simp only [Up, Hears, halike.closed, halike.state, halike.es, halike.heard]
  exact hup

theorem Up.step (hup : client.Up) : client.step.Up := by
  obtain ⟨recovering, probing, requests, hstep⟩ := client.step_eq
  rw [hstep]
  exact hup

theorem Up.recover (hup : client.Up) : client.recover.Up := by
  obtain ⟨recovering, probing, requests, hrecover⟩ := client.recover_eq
  rw [hrecover]
  exact hup

/-- After a loss the client does not say that it is connected. -/
theorem up_lost : client.lost.Up := by
  by_cases hgoes : (client.closed || client.state = .authenticationLost) = true
  · rw [lost, if_pos hgoes]
    intro hopen hconnected
    simp [hopen, hconnected] at hgoes
  · obtain ⟨state, fallback, heq, hstate, -⟩ := lost_eq hgoes
    rw [heq]
    exact Up.recover fun _ hconnected => absurd hconnected hstate

theorem up_connect (hstate : client.state ≠ .connected) (constructs : Bool) :
    (client.connect constructs).Up := by
  unfold connect
  split_ifs
  · exact fun _ h => absurd h hstate
  · exact up_lost
  · exact fun _ h => absurd h hstate

theorem Up.handle (hup : client.Up) (type : EventType) (data : Data) :
    (client.handle type data).Up := by
  cases type with
  | systemHeartbeat =>
      unfold Client.handle
      dsimp only
      split
      · exact hup
      · split_ifs <;> exact hup
  | systemResync => exact hup.alike alike_resyncAll
  | systemAuthLost => exact up_lost
  | _ =>
      unfold Client.handle
      exact hup.alike (alike_deliver _ _)

theorem Up.probed (hup : client.Up) (ok : Option Bool) : (client.probed ok).Up := by
  unfold Client.probed
  split_ifs
  · exact hup
  · match ok with
    | none => exact hup
    | some true => exact hup
    | some false =>
        dsimp only
        split_ifs
        · obtain ⟨fallback, hset⟩ := { client with
            probeFailures := client.probeFailures + 1 }.setState_eq .offline
          rw [hset]
          exact fun _ h => by cases h
        · exact hup

theorem hears_first {source : ℕ} (hes : client.es = some source) :
    let heard := { client with heard := some source }.armHeartbeat
    (if heard.state = .connected then heard else heard.onConnected).Hears := by
  dsimp only
  split_ifs
  · exact ⟨source, hes, rfl⟩
  · obtain ⟨fallback, halike⟩ := { client with heard := some source }.armHeartbeat.onConnected_eq
    exact ⟨source, halike.es.trans hes, halike.heard⟩

/-- A session answer after which the client does not say that it is connected, nor that the
session is over. -/
theorem state_sessionAnswered {wasOffline : Bool} {status : ℕ} (constructs : Bool)
    (hclosed : ¬client.closed = true) (hover : ¬(status = 401 || status = 403) = true) :
    (client.sessionAnswered wasOffline status constructs).state ≠ .connected ∧
      (client.sessionAnswered wasOffline status constructs).state ≠ .authenticationLost ∧
      (client.es.isSome = true → client.Hears →
        (client.sessionAnswered wasOffline status constructs).Hears) := by
  obtain ⟨state, fallback, hconnected, hlost, heq⟩ := sessionAnswered_eq constructs hclosed hover
  rw [heq]
  generalize htold : { client with
    state := state
    attempts := client.attempts + 1
    timers := { client.timers with fallback := fallback } } = told
  have halike : told.Alike (if wasOffline then told.resyncAll else told) := by
    split_ifs
    · exact alike_resyncAll
    · constructor <;> rfl
  generalize (if wasOffline then told.resyncAll else told) = other at halike
  have hstate : other.state = state := halike.state.trans (by rw [← htold])
  have hes : other.es = client.es := halike.es.trans (by rw [← htold])
  have hheard : other.heard = client.heard := halike.heard.trans (by rw [← htold])
  have hsame : (other.connect constructs).state = state := by
    unfold connect
    split_ifs with hstays
    · exact hstate
    · have hgoes : ¬(other.closed || other.state = .authenticationLost) = true := by
        simp only [Bool.or_eq_true, not_or] at hstays ⊢
        exact ⟨hstays.1.1.1, hstays.2⟩
      obtain ⟨state', fallback', heq, -, -, hkept⟩ := lost_eq hgoes
      rw [heq, recover_state]
      exact (hkept (hstate ▸ hconnected)).trans hstate
    · exact hstate
  refine ⟨fun h => hconnected (hsame.symm.trans h), fun h => hlost (hsame.symm.trans h), ?_⟩
  rintro hsome ⟨source, hsource, hlast⟩
  have hstays : other.connect constructs = other := by
    rw [connect, if_pos (by simp [hes, hsome])]
  rw [hstays]
  exact ⟨source, hes.trans hsource, hheard.trans hlast⟩

theorem Steady.up_sessionAnswered (hsteady : client.Steady) (hup : client.Up) (wasOffline : Bool)
    (status : ℕ) (constructs : Bool) :
    (client.sessionAnswered wasOffline status constructs).Up := by
  by_cases hclosed : client.closed = true
  · rw [Client.sessionAnswered, if_pos hclosed]
    exact hup
  by_cases hover : (status = 401 || status = 403) = true
  · rw [Client.sessionAnswered, if_neg hclosed, if_pos hover]
    intro _ hconnected
    rw [hsteady.signOut.2] at hconnected
    cases hconnected
  exact fun _ hconnected =>
    absurd hconnected (state_sessionAnswered constructs hclosed hover).1

theorem Alive.next_up (halive : client.Alive) (hup : client.Up) {action : Action}
    {next : Client} (hnext : client.next action = some next) : next.Up := by
  cases action with
  | visibility hidden | subscribe types hasResync | unsubscribe id =>
      cases hnext
      exact hup
  | message source type data =>
      simp only [Client.next, onSource, Option.some.injEq] at hnext
      subst hnext
      split_ifs with hes
      · exact Up.handle (fun _ _ => hears_first hes) type data
      · exact hup
  | errored source =>
      simp only [Client.next, onSource, Option.some.injEq] at hnext
      subst hnext
      split_ifs
      · exact up_lost
      · exact hup
  | fire timer =>
      cases timer <;>
        simp only [Client.next, Client.fired, Option.ite_none_right_eq_some,
          Option.some.injEq] at hnext <;>
        obtain ⟨-, rfl⟩ := hnext
      case heartbeat => exact up_lost
      case step =>
        have hsame : Up { client with timers.step := false } := hup
        exact hsame.step
      case fallback => exact hup.alike alike_fireFallback
      case safety => exact hup.alike alike_fireSafety
      case dom => exact hup
  | flush id =>
      simp only [Client.next, Option.ite_none_right_eq_some, Option.some.injEq] at hnext
      obtain ⟨-, rfl⟩ := hnext
      exact hup
  | busyAnswer =>
      simp only [Client.next, answered, Option.ite_none_right_eq_some, Option.some.injEq] at hnext
      obtain ⟨-, rfl⟩ := hnext
      have hsame : Up { client with requests := client.requests.erase .busy } := hup
      exact hsame.probed none
  | healthAnswer ok =>
      simp only [Client.next, answered, Option.ite_none_right_eq_some, Option.some.injEq] at hnext
      obtain ⟨-, rfl⟩ := hnext
      have hsame : Up { client with
        requests := client.requests.erase .health, probing := false } := hup
      exact hsame.probed (some ok)
  | sessionAnswer wasOffline status constructs =>
      simp only [Client.next, answered, Option.ite_none_right_eq_some, Option.some.injEq] at hnext
      obtain ⟨-, rfl⟩ := hnext
      have hsame : Up { client with
        requests := client.requests.erase (.session wasOffline) } := hup
      exact (halive.toSteady.erase (.session wasOffline) (by simp)).up_sessionAnswered hsame wasOffline
        status constructs
  | notifyVisible =>
      cases hnext
      exact hup.alike alike_notifyVisible
  | notifyBrowserOffline =>
      cases hnext
      exact up_lost
  | notifyBrowserOnline =>
      cases hnext
      unfold Client.notifyBrowserOnline
      split_ifs
      · exact hup
      · have hsame : Up { client with
          attempts := 0, timers.step := false, recovering := false } := hup
        exact hsame.recover
  | reportHttpFailure =>
      cases hnext
      unfold Client.reportHttpFailure
      split_ifs
      · exact hup
      · exact hup.recover
  | close =>
      cases hnext
      obtain ⟨opened, hteardown, -⟩ := { client with closed := true }.teardown_eq
      intro hopen
      have hclosed : client.close.closed = true := by
        unfold Client.close
        rw [hteardown]
      rw [hclosed] at hopen
      cases hopen

end Client

/-! ## Runs -/

/-- What is set up before the start. -/
structure Fresh (client : Client) : Prop where
  steady : client.Steady
  served : client.Served
  es : client.es = none
  idle : client.recovering = false
  state : client.state = .reconnecting

theorem fresh_setup (hasEventSource isHidden : Bool) (setup : List (List EventType × Bool)) :
    Fresh (setup.foldl (fun client sub => client.subscribe sub.1 sub.2)
      (createLiveClient hasEventSource isHidden)) := by
  induction setup using List.reverseRecOn with
  | nil =>
      exact {
        steady := {
          opened := rfl
          current := nofun
          earlier := nofun
          hears := fun hhears => absurd hhears (Client.not_hears_of_none rfl)
          heartbeat := nofun
          authLost := nofun
          closed := nofun
          probing := nofun
          idle := fun _ => rfl }
        served := fun sub hsub => absurd hsub List.not_mem_nil
        es := rfl
        idle := rfl
        state := rfl }
  | append_singleton setup sub ih =>
      rw [List.foldl_concat]
      exact {
        steady := { ih.steady with }
        served := ih.served.subscribe sub.1 sub.2
        es := ih.es
        idle := ih.idle
        state := ih.state }

theorem Fresh.up_start {client : Client} (hfresh : Fresh client) (constructs : Bool) :
    (client.start constructs).Up := by
  unfold Client.start
  by_cases hsource : client.hasEventSource = true
  · rw [if_neg (by simp [hsource])]
    exact Client.up_connect (by rw [hfresh.state]; exact nofun) constructs
  · rw [if_pos (by simpa using hsource)]
    obtain ⟨fallback, hset⟩ := { client with hadProblem := true }.setState_eq .fallback
    rw [hset]
    exact Client.Up.recover fun _ h => by cases h

/-- What holds between any two handlers of a client that has told the truth so far. -/
structure Inv (client : Client) : Prop where
  alive : client.Alive
  served : client.Served
  up : client.Up

theorem Inv.next {client : Client} {action : Action} {next : Client} (hinv : Inv client)
    (hok : client.SessionOk action) (hnext : client.next action = some next) : Inv next where
  alive := hinv.alive.next hok hnext
  served := hinv.served.next hinv.alive hok hnext
  up := hinv.alive.next_up hinv.up hnext

theorem inv_launch (hasEventSource isHidden constructs : Bool)
    (setup : List (List EventType × Bool)) :
    Inv (launch hasEventSource isHidden constructs setup) := by
  have hfresh := fresh_setup hasEventSource isHidden setup
  unfold launch
  exact {
    alive := hfresh.steady.start hfresh.es hfresh.idle constructs
    served := hfresh.served.start constructs
    up := hfresh.up_start constructs }

/-- The truth from `client` on: in every state that is reached, and the end of the session is
told for good. -/
def Tells (client : Client) (acts : List Action) : Prop :=
  ∀ first second third middle final, acts = first ++ second ++ third →
    run Client.next client first = some middle → run Client.next middle second = some final →
      final.Truthful ∧
        (middle.state = .authenticationLost → final.state = .authenticationLost)

theorem Inv.tells {client : Client} (hinv : Inv client) {acts : List Action}
    (hok : RunOk Client.next Client.SessionOk client acts) : Tells client acts := by
  rintro first second third middle final rfl hfirst hsecond
  rw [List.append_assoc] at hok
  obtain ⟨hokFirst, hokRest⟩ := hok.split hfirst
  have hmiddle : Inv middle := run_invariant_of Inv.next hokFirst hinv hfirst
  have hokSecond := (hokRest.split hsecond).1
  have hfinal : Inv final := run_invariant_of Inv.next hokSecond hmiddle hsecond
  refine ⟨hfinal.alive.truthful hfinal.served, fun hstate => ?_⟩
  have hstays : ∀ {client : Client} {action : Action} {next : Client},
      Inv client ∧ client.state = .authenticationLost → client.SessionOk action →
        client.next action = some next → Inv next ∧ next.state = .authenticationLost :=
    fun hinv hok hnext => ⟨hinv.1.next hok hnext, hinv.1.alive.stays hok hnext hinv.2⟩
  exact (run_invariant_of hstays hokSecond ⟨hmiddle, hstate⟩ hsecond).2

/-- An answer that comes too late breaks the truth. -/
theorem Inv.sessionOk_of_tells {client : Client} (hinv : Inv client) {action : Action}
    {next : Client} (hnext : client.next action = some next) (htruthful : next.Truthful)
    (hstays : client.state = .authenticationLost → next.state = .authenticationLost) :
    client.SessionOk action := by
  intro status hstatus
  cases action with
  | sessionAnswer wasOffline answer constructs =>
      cases hstatus
      by_contra hlate
      simp only [not_or] at hlate
      obtain ⟨hclosed, hexpired, hforbidden, hactive⟩ := hlate
      simp only [Client.next, Client.answered, Option.ite_none_right_eq_some,
        Option.some.injEq] at hnext
      obtain ⟨-, rfl⟩ := hnext
      have hover : ¬(status = 401 || status = 403) = true := by simp [hexpired, hforbidden]
      obtain ⟨hconnected, hlost, hhears⟩ := @Client.state_sessionAnswered
        { client with requests := client.requests.erase (.session wasOffline) } wasOffline status
        constructs hclosed hover
      have hopen : client.closed = false := by simpa using hclosed
      by_cases hstate : client.state = .connected
      · obtain ⟨source, hsource, hlast⟩ := hinv.up hopen hstate
        refine hconnected (htruthful.hears (hhears ?_ ⟨source, hsource, hlast⟩))
        simp [hsource]
      · refine hactive (Client.isActive_iff.mpr ⟨hopen, hstate, fun hover => ?_⟩)
        exact hlost (hstays hover)
  | _ => cases hstatus

/-- A client tells the truth in every state of a run if and only if no session request is
answered, with anything but the end of the session, while it is connected or signed out. -/
theorem live_client_tells_the_truth_iff (hasEventSource isHidden constructs : Bool)
    (setup : List (List EventType × Bool)) (acts : List Action) (final : Client)
    (hrun : run Client.next (launch hasEventSource isHidden constructs setup) acts =
      some final) :
    Tells (launch hasEventSource isHidden constructs setup) acts ↔
      RunOk Client.next Client.SessionOk (launch hasEventSource isHidden constructs setup)
        acts := by
  have hinv := inv_launch hasEventSource isHidden constructs setup
  refine ⟨fun htells => ?_, hinv.tells⟩
  generalize launch hasEventSource isHidden constructs setup = client at hrun htells hinv
  induction acts generalizing client with
  | nil => trivial
  | cons action rest ih =>
      obtain ⟨next, hnext, hrest⟩ := run_cons hrun
      have hone : run Client.next client [action] = some next := by simp [run, hnext]
      obtain ⟨htruthful, hstays⟩ := htells [] [action] rest client next rfl rfl hone
      have hok := hinv.sessionOk_of_tells hnext htruthful hstays
      refine ⟨hok, fun other hother => ?_⟩
      obtain rfl := Option.some.inj (hnext.symm.trans hother)
      refine ih next hrest ?_ (hinv.next hok hnext)
      rintro first second third middle last rfl hfirst hsecond
      refine htells (action :: first) second third middle last rfl ?_ hsecond
      simpa [run, hnext] using hfirst

/-- A stream is lost and found again in a hidden tab, and the components are reloaded when the
tab is shown. -/
theorem live_client_tells_the_truth_iff_hidden :
    ∃ final, run Client.next (launch true false true [([.alertChanged], true)])
        [.message 0 .systemHeartbeat {}, .visibility true, .errored 0, .healthAnswer true,
          .sessionAnswer false 200 true, .message 1 .alertChanged {}, .visibility false,
          .notifyVisible] = some final ∧
      Tells (launch true false true [([.alertChanged], true)])
        [.message 0 .systemHeartbeat {}, .visibility true, .errored 0, .healthAnswer true,
          .sessionAnswer false 200 true, .message 1 .alertChanged {}, .visibility false,
          .notifyVisible] ∧
      final.subs.map Sub.log = [[.interrupted, .reconnected true, .missed, .resynced, .visible]] :=
  ⟨_, rfl, (live_client_tells_the_truth_iff true false true [([.alertChanged], true)] _ _ rfl).mpr
    (by decide), by decide⟩

/-- An answer that comes when the stream is back takes the client out of the connected state
while its stream is heard. -/
example :
    (run Client.next (launch true false true []) [.reportHttpFailure, .healthAnswer true,
      .message 0 .systemHeartbeat {}, .sessionAnswer false 200 true]).map
        (fun client => (client.es, client.heard, client.state)) =
      some (some 0, some 0, .reconnecting) := by decide

end Justup.LiveClient
