import Justup.LiveClient.Client

/-!
# The streams and the recovery of the client

What holds of the stream, the state and the chains of recovery between any two
handlers.
-/

namespace Justup.LiveClient

namespace Client

variable (client : Client)

/-- A message has arrived on the current stream. -/
def Hears : Prop := ∃ source, client.es = some source ∧ client.heard = some source

/-- A probe or a session request is pending, or the next step is. -/
def Pursues : Prop :=
  .health ∈ client.requests ∨ (∃ wasOffline, .session wasOffline ∈ client.requests) ∨
    client.timers.step = true

structure Wired : Prop where
  opened : client.opened = client.es.toList
  current : ∀ source, client.es = some source → source < client.sources
  earlier : ∀ source, client.heard = some source → source < client.sources
  hears : client.Hears → client.state = .connected
  heartbeat : client.es.isSome = true → client.timers.heartbeat = true
  authLost : client.state = .authenticationLost → client.es = none
  closed : client.closed = true → client.es = none
  probing : client.probing = true → .health ∈ client.requests

structure Steady : Prop extends client.Wired where
  idle : client.state = .connected → client.recovering = false

/-- A chain of recovery that runs is pursued. -/
def Chained : Prop := client.recovering = true → client.isActive = true → client.Pursues

/-- In an active state the client has a stream or pursues one. -/
structure Alive : Prop extends client.Steady where
  chain : client.Chained
  waits : client.isActive = true → client.es.isSome = true ∨ client.Pursues

/-- The same variables of the connection and of the recovery. -/
structure Alike (client other : Client) : Prop where
  state : other.state = client.state
  es : other.es = client.es
  closed : other.closed = client.closed
  recovering : other.recovering = client.recovering
  probing : other.probing = client.probing
  hadProblem : other.hadProblem = client.hadProblem
  heartbeat : other.timers.heartbeat = client.timers.heartbeat
  step : other.timers.step = client.timers.step
  requests : other.requests = client.requests
  sources : other.sources = client.sources
  opened : other.opened = client.opened
  heard : other.heard = client.heard

variable {client : Client} {other : Client}

theorem isActive_iff : client.isActive = true ↔
    client.closed = false ∧ client.state ≠ .connected ∧ client.state ≠ .authenticationLost := by
  simp [isActive, and_assoc]

namespace Alike

theorem trans {third : Client} (hfirst : client.Alike other) (hsecond : other.Alike third) :
    client.Alike third where
  state := hsecond.state.trans hfirst.state
  es := hsecond.es.trans hfirst.es
  closed := hsecond.closed.trans hfirst.closed
  recovering := hsecond.recovering.trans hfirst.recovering
  probing := hsecond.probing.trans hfirst.probing
  hadProblem := hsecond.hadProblem.trans hfirst.hadProblem
  heartbeat := hsecond.heartbeat.trans hfirst.heartbeat
  step := hsecond.step.trans hfirst.step
  requests := hsecond.requests.trans hfirst.requests
  sources := hsecond.sources.trans hfirst.sources
  opened := hsecond.opened.trans hfirst.opened
  heard := hsecond.heard.trans hfirst.heard

theorem isActive (halike : client.Alike other) : other.isActive = client.isActive := by
  simp only [Client.isActive, halike.state, halike.closed]

theorem pursues (halike : client.Alike other) (hpursues : client.Pursues) : other.Pursues := by
  simpa only [Pursues, halike.requests, halike.step] using hpursues

theorem wired (halike : client.Alike other) (hwired : client.Wired) : other.Wired where
  opened := by rw [halike.opened, halike.es, hwired.opened]
  current := by rw [halike.es, halike.sources]; exact hwired.current
  earlier := by rw [halike.heard, halike.sources]; exact hwired.earlier
  hears := by
    simp only [Hears, halike.es, halike.heard, halike.state]
    exact hwired.hears
  heartbeat := by rw [halike.es, halike.heartbeat]; exact hwired.heartbeat
  authLost := by rw [halike.state, halike.es]; exact hwired.authLost
  closed := by rw [halike.closed, halike.es]; exact hwired.closed
  probing := by rw [halike.probing, halike.requests]; exact hwired.probing

theorem steady (halike : client.Alike other) (hsteady : client.Steady) : other.Steady where
  toWired := halike.wired hsteady.toWired
  idle := by rw [halike.state, halike.recovering]; exact hsteady.idle

theorem alive (halike : client.Alike other) (halive : client.Alive) : other.Alive where
  toSteady := halike.steady halive.toSteady
  chain hrecovering hactive :=
    halike.pursues (halive.chain (halike.recovering ▸ hrecovering) (halike.isActive ▸ hactive))
  waits hactive := by
    rw [halike.es]
    exact (halive.waits (halike.isActive ▸ hactive)).imp_right halike.pursues

end Alike

/-! ## What the fan-out leaves alone -/

theorem alike_bridge (type : EventType) (data : Data) : client.Alike (client.bridge type data) := by
  unfold bridge
  dsimp only
  split_ifs <;> constructor <;> rfl

theorem alike_deliver (type : EventType) (data : Data) :
    client.Alike (client.deliver type data) :=
  Alike.trans (by constructor <;> rfl) (alike_bridge type data)

theorem alike_resyncAll : client.Alike client.resyncAll := by
  unfold resyncAll
  dsimp only
  split_ifs <;> constructor <;> rfl

theorem alike_notifyVisible : client.Alike client.notifyVisible := by
  unfold notifyVisible
  dsimp only
  split_ifs <;> constructor <;> rfl

theorem alike_fireFallback : client.Alike client.fireFallback := by
  unfold fireFallback
  dsimp only
  split_ifs
  · constructor <;> rfl
  · have hresync : ({ client with timers.fallback := false }).Alike
        { client with timers.fallback := false }.resyncAll := alike_resyncAll
    refine Alike.trans (Alike.trans ?_ hresync) ?_ <;> constructor <;> rfl
  · constructor <;> rfl

theorem alike_fireSafety : client.Alike client.fireSafety := by
  unfold fireSafety
  dsimp only
  split_ifs
  · constructor <;> rfl
  · have hresync : ({ client with timers.safety := false }).Alike
        { client with timers.safety := false }.resyncAll := alike_resyncAll
    refine Alike.trans (Alike.trans ?_ hresync) ?_ <;> constructor <;> rfl
  · constructor <;> rfl

/-! ## What a handler of the connection changes -/

theorem setState_eq (next : State) : ∃ fallback, client.setState next =
    { client with state := next, timers.fallback := fallback } := by
  unfold setState
  split_ifs with hsame
  · subst hsame
    exact ⟨client.timers.fallback, rfl⟩
  · exact ⟨_, rfl⟩

theorem teardown_eq : ∃ opened, client.teardown = { client with
    timers.heartbeat := false
    es := none
    opened := opened
    subs := if client.es = none then client.subs
      else client.subs.map fun sub => sub.note .interrupted } ∧
      (client.opened = client.es.toList → opened = []) := by
  unfold teardown
  dsimp only
  split
  · rename_i hes
    refine ⟨client.opened, ?_, fun hopened => hopened.trans (by rw [hes]; rfl)⟩
    rw [if_pos hes, ← hes]
  · rename_i source hes
    refine ⟨client.opened.filter (· ≠ source), ?_, fun hopened => ?_⟩
    · rw [if_neg (by simp [hes])]
    · rw [hopened, hes]
      simp

theorem step_eq : ∃ recovering probing requests, client.step =
    { client with recovering := recovering, probing := probing, requests := requests } := by
  unfold step probe
  split_ifs <;> exact ⟨_, _, _, rfl⟩

theorem recover_eq : ∃ recovering probing requests, client.recover =
    { client with recovering := recovering, probing := probing, requests := requests } := by
  unfold recover
  split_ifs
  · exact ⟨_, _, _, rfl⟩
  · obtain ⟨recovering, probing, requests, hstep⟩ := { client with recovering := true }.step_eq
    exact ⟨recovering, probing, requests, hstep⟩

/-! ## Stream and chains -/

theorem Pursues.mono (hpursues : client.Pursues) (hrequests : client.requests ⊆ other.requests)
    (hstep : client.timers.step = true → other.timers.step = true) : other.Pursues := by
  obtain hhealth | ⟨wasOffline, hsession⟩ | htimer := hpursues
  · exact Or.inl (hrequests hhealth)
  · exact Or.inr (Or.inl ⟨wasOffline, hrequests hsession⟩)
  · exact Or.inr (Or.inr (hstep htimer))

/-- Without a stream nothing is heard. -/
theorem not_hears_of_none (hes : client.es = none) : ¬client.Hears := by
  rintro ⟨source, hsource, -⟩
  rw [hes] at hsource
  cases hsource

theorem Wired.setState (hwired : client.Wired) {next : State}
    (hhears : client.Hears → next = .connected)
    (hlost : next = .authenticationLost → client.es = none) : (client.setState next).Wired := by
  obtain ⟨fallback, hset⟩ := client.setState_eq next
  rw [hset]
  exact { hwired with hears := hhears, authLost := hlost }

theorem Steady.teardown (hsteady : client.Steady) :
    client.teardown.Steady ∧ (client.Chained → client.teardown.Chained) := by
  obtain ⟨opened, hteardown, hopened⟩ := client.teardown_eq
  rw [hteardown]
  exact ⟨{ hsteady with
    opened := hopened hsteady.opened
    current := fun source hes => by cases hes
    hears := fun hhears => absurd hhears (not_hears_of_none rfl)
    heartbeat := fun hes => by cases hes
    authLost := fun _ => rfl
    closed := fun _ => rfl }, fun hchain => hchain⟩

theorem teardown_es : client.teardown.es = none := by
  obtain ⟨opened, hteardown, -⟩ := client.teardown_eq
  rw [hteardown]

/-- A step is pursued, or it ends the chain. -/
theorem Wired.step (hwired : client.Wired) :
    client.step.Steady ∧ (client.isActive = true → client.step.Pursues) := by
  unfold Client.step
  split_ifs with hactive
  · obtain ⟨-, hconnected, -⟩ := isActive_iff.mp hactive
    unfold probe
    split_ifs with hprobing
    · have hhealth : Request.health ∈ client.requests ++ [.busy] :=
        List.mem_append_left _ (hwired.probing hprobing)
      exact ⟨{ hwired with
        probing := fun _ => hhealth
        idle := fun hstate => absurd hstate hconnected }, fun _ => Or.inl hhealth⟩
    · have hhealth : Request.health ∈ client.requests ++ [.health] := by simp
      exact ⟨{ hwired with
        probing := fun _ => hhealth
        idle := fun hstate => absurd hstate hconnected }, fun _ => Or.inl hhealth⟩
  · exact ⟨{ hwired with idle := fun _ => rfl }, fun h => absurd h hactive⟩

theorem Steady.recover (hsteady : client.Steady) : client.recover.Steady ∧
    (client.Chained → client.isActive = true → client.recover.Pursues) := by
  unfold Client.recover
  split_ifs with hrunning
  · refine ⟨hsteady, fun hchain hactive => ?_⟩
    obtain hrecovering | hclosed := Bool.or_eq_true_iff.mp hrunning
    · exact hchain hrecovering hactive
    · exact absurd hclosed (by simp [(isActive_iff.mp hactive).1])
  · have hwired : { client with recovering := true }.Wired := { hsteady.toWired with }
    exact ⟨hwired.step.1, fun _ => hwired.step.2⟩

theorem recover_isActive : client.recover.isActive = client.isActive := by
  obtain ⟨recovering, probing, requests, hrecover⟩ := client.recover_eq
  rw [hrecover]
  rfl

theorem lost_eq (hgoes : ¬(client.closed || client.state = .authenticationLost) = true) :
    ∃ state fallback, client.lost = { client with
      state := state
      hadProblem := true
      timers := { client.timers with safety := false, fallback := fallback } }.recover ∧
        state ≠ .connected ∧ state ≠ .authenticationLost ∧
        (client.state ≠ .connected → state = client.state) := by
  unfold Client.lost
  rw [if_neg hgoes]
  dsimp only
  split_ifs with hconnected
  · obtain ⟨fallback, hset⟩ := { client with
      hadProblem := true, timers.safety := false }.setState_eq .reconnecting
    rw [hset]
    exact ⟨.reconnecting, fallback, rfl, nofun, nofun, fun h => absurd hconnected h⟩
  · simp only [Bool.or_eq_true, decide_eq_true_eq, not_or] at hgoes
    exact ⟨client.state, client.timers.fallback, rfl, hconnected, hgoes.2, fun _ => rfl⟩

/-- A stream that was lost is pursued. -/
theorem Steady.lost (hsteady : client.Steady) (hes : client.es = none) : client.lost.Steady ∧
    (client.Chained → client.lost.isActive = true → client.lost.Pursues) := by
  by_cases hgoes : (client.closed || client.state = .authenticationLost) = true
  · rw [Client.lost, if_pos hgoes]
    refine ⟨hsteady, fun _ hactive => ?_⟩
    obtain ⟨hclosed, -, hlost⟩ := isActive_iff.mp hactive
    simp [hclosed, hlost] at hgoes
  · obtain ⟨state, fallback, heq, hconnected, hlost, hsame⟩ := lost_eq hgoes
    have hlosing : Steady { client with
        state := state
        hadProblem := true
        timers := { client.timers with safety := false, fallback := fallback } } := { hsteady with
      hears := fun hhears => absurd hhears (not_hears_of_none hes)
      authLost := fun hstate => absurd hstate hlost
      idle := fun hstate => absurd hstate hconnected }
    rw [heq, recover_isActive]
    refine ⟨hlosing.recover.1, fun hchain => hlosing.recover.2 fun hrecovering hactive => ?_⟩
    by_cases hstate : client.state = .connected
    · have hidle := hsteady.idle hstate
      rw [hidle] at hrecovering
      cases hrecovering
    · rw [hsame hstate] at hactive
      exact hchain hrecovering hactive

/-- A chain that is pursued keeps the client alive. -/
theorem Steady.alive (hsteady : client.Steady)
    (hpursues : client.isActive = true → client.Pursues) : client.Alive where
  toSteady := hsteady
  chain _ := hpursues
  waits hactive := .inr (hpursues hactive)

/-- The stream ends and is given up for lost. -/
theorem Alive.drop (halive : client.Alive) : client.teardown.lost.Alive := by
  obtain ⟨hsteady, hchain⟩ := halive.toSteady.teardown
  obtain ⟨hlost, hpursues⟩ := hsteady.lost teardown_es
  exact hlost.alive (hpursues (hchain halive.chain))

theorem Steady.connect (hsteady : client.Steady) (constructs : Bool) :
    (client.connect constructs).Steady ∧ (client.Chained → client.hasEventSource = true →
      (client.connect constructs).Alive) := by
  unfold Client.connect
  split_ifs with hstays hthrows
  · refine ⟨hsteady, fun hchain hsource => ⟨hsteady, hchain, fun hactive => ?_⟩⟩
    obtain ⟨hclosed, -, hlost⟩ := isActive_iff.mp hactive
    simp only [hclosed, hsource, hlost, Bool.or_eq_true, Bool.not_true, decide_false] at hstays
    exact .inl (by simpa using hstays)
  all_goals
    simp only [Bool.or_eq_true, decide_eq_true_eq, Bool.not_eq_true', not_or, Bool.not_eq_true,
      Option.isSome_eq_false_iff, Option.isNone_iff_eq_none] at hstays
    obtain ⟨⟨⟨hclosed, hes⟩, -⟩, hlost⟩ := hstays
  · have hlosing := hsteady.lost hes
    exact ⟨hlosing.1, fun hchain _ => hlosing.1.alive (hlosing.2 hchain)⟩
  · have hopen : Steady { client with
        es := some client.sources
        sources := client.sources + 1
        opened := client.opened ++ [client.sources]
        timers.heartbeat := true } := { hsteady with
      opened := by rw [hsteady.opened, hes]; rfl
      current := fun source hsource => by cases hsource; exact Nat.lt_succ_self _
      earlier := fun source hheard => Nat.lt_succ_of_lt (hsteady.earlier source hheard)
      hears := by
        rintro ⟨source, hsource, hheard⟩
        cases hsource
        exact absurd (hsteady.earlier _ hheard) (Nat.lt_irrefl _)
      heartbeat := fun _ => rfl
      authLost := fun h => absurd h hlost
      closed := fun h => by rw [hclosed] at h; cases h }
    exact ⟨hopen, fun hchain _ => ⟨hopen, hchain, fun _ => .inl rfl⟩⟩

/-! ## The handlers -/

theorem alike_call (call : Call) : client.Alike (client.call call) := by constructor <;> rfl

/-- A first message connects the client. -/
theorem onConnected_eq : ∃ fallback, Alike { client with
    state := .connected
    recovering := false
    hadProblem := false
    timers := { client.timers with step := false, fallback := fallback } } client.onConnected := by
  unfold onConnected
  dsimp only
  obtain ⟨fallback, hset⟩ := { client with
    attempts := 0
    probeFailures := 0
    timers.step := false
    recovering := false
    hadProblem := false
    subs := client.subs.map fun sub : Sub => sub.connected client.isHidden }.setState_eq .connected
  rw [hset]
  refine ⟨fallback, ?_⟩
  split_ifs
  · refine Alike.trans ?_ alike_resyncAll
    constructor <;> rfl
  · constructor <;> rfl

theorem Alive.handle (halive : client.Alive) (type : EventType) (data : Data) :
    (client.handle type data).Alive := by
  cases type with
  | systemHeartbeat =>
      unfold Client.handle
      dsimp only
      split
      · exact halive
      · split_ifs
        · exact (alike_call _).alive halive
        · exact { halive with }
  | systemResync => exact alike_resyncAll.alive halive
  | systemAuthLost => exact halive.drop
  | _ =>
      unfold Client.handle
      exact (alike_deliver _ _).alive halive

/-- The client that handles a message of the current stream is connected. -/
theorem Alive.hear (halive : client.Alive) {source : ℕ} (hes : client.es = some source) :
    let heard := { client with heard := some source }.armHeartbeat
    let up := if heard.state = .connected then heard else heard.onConnected
    up.Alive ∧ up.state = .connected := by
  have hearlier : ∀ other, some source = some other → other < client.sources := by
    rintro other ⟨⟩
    exact halive.current source hes
  dsimp only
  split_ifs with hconnected
  · exact ⟨{ halive with
      earlier := hearlier
      hears := fun _ => hconnected
      heartbeat := fun _ => rfl }, hconnected⟩
  · obtain ⟨fallback, halike⟩ := { client with heard := some source }.armHeartbeat.onConnected_eq
    refine ⟨halike.alive ?_, halike.state⟩
    exact { halive with
      earlier := hearlier
      hears := fun _ => rfl
      heartbeat := fun _ => rfl
      authLost := fun h => by cases h
      idle := fun _ => rfl
      chain := fun h => by cases h
      waits := fun hactive => absurd rfl (isActive_iff.mp hactive).2.1 }

theorem Alive.onMessage (halive : client.Alive) {source : ℕ} (hes : client.es = some source)
    (type : EventType) (data : Data) :
    ({ client with heard := some source }.onMessage type data).Alive :=
  (halive.hear hes).1.handle type data

theorem Steady.signOut (hsteady : client.Steady) :
    client.authLost.Alive ∧ client.authLost.state = .authenticationLost := by
  unfold Client.authLost
  dsimp only
  obtain ⟨fallback, hset⟩ := { client.teardown with
    recovering := false
    timers.step := false
    timers.fallback := false
    timers.safety := false }.setState_eq .authenticationLost
  rw [hset]
  refine ⟨(alike_call _).alive ?_, rfl⟩
  exact { hsteady.teardown.1 with
    hears := fun hhears => absurd hhears (not_hears_of_none teardown_es)
    heartbeat := hsteady.teardown.1.heartbeat
    authLost := fun _ => teardown_es
    idle := fun h => by cases h
    chain := fun h => by cases h
    waits := fun hactive => absurd rfl (isActive_iff.mp hactive).2.2 }

/-- Without a message a stream says nothing of the state. -/
theorem Wired.not_hears (hwired : client.Wired) (hactive : client.isActive = true) :
    ¬client.Hears := fun hhears => (isActive_iff.mp hactive).2.1 (hwired.hears hhears)

theorem Steady.probed (hsteady : client.Steady) (ok : Option Bool) : (client.probed ok).Alive := by
  unfold Client.probed
  by_cases hactive : client.isActive = true
  · rw [if_neg (by simpa using hactive)]
    obtain ⟨-, hconnected, hlost⟩ := isActive_iff.mp hactive
    match ok with
    | none => exact Steady.alive { hsteady with } fun _ => .inr (.inr rfl)
    | some false =>
        dsimp only
        split_ifs
        · obtain ⟨fallback, hset⟩ := { client with
            probeFailures := client.probeFailures + 1 }.setState_eq .offline
          rw [hset]
          exact Steady.alive { hsteady with
            hears := fun hhears => absurd hhears (hsteady.not_hears hactive)
            authLost := fun h => by cases h
            idle := fun h => by cases h } fun _ => .inr (.inr rfl)
        · exact Steady.alive { hsteady with } fun _ => .inr (.inr rfl)
    | some true =>
        refine Steady.alive { hsteady with
          probing := fun hprobing => List.mem_append_left _ (hsteady.probing hprobing) } fun _ => ?_
        exact .inr (.inl ⟨_, List.mem_append_right _ (List.mem_singleton_self _)⟩)
  · rw [if_pos (by simpa using hactive)]
    exact { hsteady with
      idle := fun _ => rfl
      chain := fun h => by cases h
      waits := fun h => absurd h hactive }

theorem active_of_sessionOk {status : ℕ}
    (hok : client.closed = true ∨ status = 401 ∨ status = 403 ∨ client.isActive = true)
    (hclosed : ¬client.closed = true) (hover : ¬(status = 401 || status = 403) = true) :
    client.isActive = true := by
  simp only [Bool.or_eq_true, decide_eq_true_eq, not_or] at hover
  obtain h | h | h | h := hok
  · exact absurd h hclosed
  · exact absurd h hover.1
  · exact absurd h hover.2
  · exact h

/-- An answer that does not end the session. -/
theorem sessionAnswered_eq {wasOffline : Bool} {status : ℕ} (constructs : Bool)
    (hclosed : ¬client.closed = true) (hover : ¬(status = 401 || status = 403) = true) :
    ∃ state fallback, state ≠ .connected ∧ state ≠ .authenticationLost ∧
      let told := { client with
        state := state
        attempts := client.attempts + 1
        timers := { client.timers with fallback := fallback } }
      client.sessionAnswered wasOffline status constructs =
        ((if wasOffline then told.resyncAll else told).connect constructs).armStep := by
  unfold sessionAnswered
  rw [if_neg hclosed, if_neg hover]
  dsimp only
  generalize hstate : (if decide (client.attempts + 1 ≥ fallbackAfterAttempts) ||
    !client.hasEventSource then State.fallback else State.reconnecting) = state
  obtain ⟨fallback, hset⟩ := { client with attempts := client.attempts + 1 }.setState_eq state
  rw [hset]
  refine ⟨state, fallback, ?_, ?_, rfl⟩ <;>
  · rw [← hstate]
    split_ifs <;> exact nofun

/-- The answer to a session request, in an active state or that the session is over. -/
theorem Steady.sessionAnswered (hsteady : client.Steady) (wasOffline : Bool) (status : ℕ)
    (constructs : Bool)
    (hok : client.closed = true ∨ status = 401 ∨ status = 403 ∨ client.isActive = true) :
    (client.sessionAnswered wasOffline status constructs).Alive := by
  by_cases hclosed : client.closed = true
  · rw [Client.sessionAnswered, if_pos hclosed]
    refine hsteady.alive fun hactive => ?_
    rw [(isActive_iff.mp hactive).1] at hclosed
    cases hclosed
  by_cases hover : (status = 401 || status = 403) = true
  · rw [Client.sessionAnswered, if_neg hclosed, if_pos hover]
    exact hsteady.signOut.1
  have hactive := active_of_sessionOk hok hclosed hover
  obtain ⟨state, fallback, hconnected, hlost, heq⟩ := sessionAnswered_eq constructs hclosed hover
  rw [heq]
  have htold : Steady { client with
      state := state
      attempts := client.attempts + 1
      timers := { client.timers with fallback := fallback } } := { hsteady with
    hears := fun hhears => absurd hhears (hsteady.not_hears hactive)
    authLost := fun h => absurd h hlost
    idle := fun h => absurd h hconnected }
  have harm {other : Client} (hother : other.Steady) : (other.connect constructs).armStep.Alive :=
    Steady.alive { (hother.connect constructs).1 with } fun _ => .inr (.inr rfl)
  split_ifs
  · exact harm (alike_resyncAll.steady htold)
  · exact harm htold

theorem Alive.notifyBrowserOnline (halive : client.Alive) : client.notifyBrowserOnline.Alive := by
  unfold Client.notifyBrowserOnline
  split_ifs with hconnected
  · exact halive
  · have hfresh : Steady { client with
      attempts := 0, timers.step := false, recovering := false } := { halive with
        idle := fun _ => rfl }
    refine hfresh.recover.1.alive fun hactive => hfresh.recover.2 (fun h => by cases h) ?_
    rwa [recover_isActive] at hactive

theorem Alive.close (halive : client.Alive) : client.close.Alive := by
  have hclosing : Steady { client with closed := true }.teardown := by
    obtain ⟨opened, hteardown, hopened⟩ := { client with closed := true }.teardown_eq
    rw [hteardown]
    exact { halive with
      opened := hopened halive.opened
      current := fun source hes => by cases hes
      hears := fun hhears => absurd hhears (not_hears_of_none rfl)
      heartbeat := fun hes => by cases hes
      authLost := fun _ => rfl
      closed := fun _ => rfl }
  have hclosed : { client with closed := true }.teardown.closed = true := by
    obtain ⟨opened, hteardown, -⟩ := { client with closed := true }.teardown_eq
    rw [hteardown]
  have hend : client.close.isActive = false := by
    simp [Client.close, isActive, hclosed]
  refine Steady.alive { hclosing with
    heartbeat := fun hes => ?_ } fun hactive => absurd hactive (by rw [hend]; exact nofun)
  have hnone : client.close.es = none := { client with closed := true }.teardown_es
  rw [hnone] at hes
  cases hes

theorem Alive.reportHttpFailure (halive : client.Alive) : client.reportHttpFailure.Alive := by
  unfold Client.reportHttpFailure
  split_ifs with hconnected
  · exact halive
  · refine halive.toSteady.recover.1.alive fun hactive => halive.toSteady.recover.2 halive.chain ?_
    rwa [recover_isActive] at hactive

/-- A client that is started has a stream, or pursues one. -/
theorem Steady.start (hsteady : client.Steady) (hes : client.es = none)
    (hidle : client.recovering = false) (constructs : Bool) :
    (client.start constructs).Alive := by
  have hchain : client.Chained := fun h => by rw [hidle] at h; cases h
  unfold Client.start
  by_cases hsource : client.hasEventSource = true
  · rw [if_neg (by simp [hsource])]
    exact (hsteady.connect constructs).2 hchain hsource
  · rw [if_pos (by simpa using hsource)]
    obtain ⟨fallback, hset⟩ := { client with hadProblem := true }.setState_eq .fallback
    rw [hset]
    have hpolls : Steady { client with
        state := .fallback
        hadProblem := true
        timers := { client.timers with fallback := fallback } } := { hsteady with
      hears := fun hhears => absurd hhears (not_hears_of_none hes)
      authLost := fun h => by cases h
      idle := fun h => by cases h }
    refine hpolls.recover.1.alive fun hactive => hpolls.recover.2 (fun h => ?_) ?_
    · rw [hidle] at h
      cases h
    · rwa [recover_isActive] at hactive

theorem Alive.fired (halive : client.Alive) {timer : Timer} {next : Client}
    (hfired : client.fired timer = some next) : next.Alive := by
  cases timer with
  | heartbeat =>
      simp only [Client.fired, Option.ite_none_right_eq_some, Option.some.injEq] at hfired
      obtain ⟨-, rfl⟩ := hfired
      have hsame : { client with timers.heartbeat := false }.teardown = client.teardown := by
        unfold Client.teardown
        rfl
      rw [hsame]
      exact halive.drop
  | step =>
      simp only [Client.fired, Option.ite_none_right_eq_some, Option.some.injEq] at hfired
      obtain ⟨-, rfl⟩ := hfired
      have hwired : { client with timers.step := false }.Wired := { halive.toWired with }
      refine hwired.step.1.alive fun hactive => hwired.step.2 ?_
      obtain ⟨recovering, probing, requests, hstep⟩ := { client with timers.step := false }.step_eq
      rw [hstep] at hactive
      exact hactive
  | fallback =>
      simp only [Client.fired, Option.ite_none_right_eq_some, Option.some.injEq] at hfired
      obtain ⟨-, rfl⟩ := hfired
      exact alike_fireFallback.alive halive
  | safety =>
      simp only [Client.fired, Option.ite_none_right_eq_some, Option.some.injEq] at hfired
      obtain ⟨-, rfl⟩ := hfired
      exact alike_fireSafety.alive halive
  | dom =>
      simp only [Client.fired, Option.ite_none_right_eq_some, Option.some.injEq] at hfired
      obtain ⟨-, rfl⟩ := hfired
      have halike : client.Alike { client with timers.dom := false }.flushDom := by
        constructor <;> rfl
      exact halike.alive halive

/-- A session request is answered in an active state, or with the end of the session. -/
def SessionOk (client : Client) (action : Action) : Prop :=
  ∀ status ∈ action.sessionStatus?,
    client.closed = true ∨ status = 401 ∨ status = 403 ∨ client.isActive = true

instance (client : Client) (action : Action) : Decidable (client.SessionOk action) :=
  inferInstanceAs (Decidable (∀ _ ∈ _, _))

theorem Steady.erase (hsteady : client.Steady) (request : Request) (hne : request ≠ .health) :
    Steady { client with requests := client.requests.erase request } := { hsteady with
  probing := fun hprobing => (List.mem_erase_of_ne hne.symm).mpr (hsteady.probing hprobing) }

/-- Every handler keeps the client alive. -/
theorem Alive.next (halive : client.Alive) {action : Action} (hok : client.SessionOk action)
    {next : Client} (hnext : client.next action = some next) : next.Alive := by
  cases action with
  | visibility hidden =>
      cases hnext
      exact { halive with }
  | subscribe types hasResync =>
      cases hnext
      exact { halive with }
  | unsubscribe id =>
      cases hnext
      exact { halive with }
  | message source type data =>
      simp only [Client.next, onSource, Option.some.injEq] at hnext
      subst hnext
      split_ifs with hes
      · exact halive.onMessage hes type data
      · exact halive
  | errored source =>
      simp only [Client.next, onSource, Option.some.injEq] at hnext
      subst hnext
      split_ifs
      · exact halive.drop
      · exact halive
  | fire timer => exact halive.fired hnext
  | flush id =>
      simp only [Client.next, Option.ite_none_right_eq_some, Option.some.injEq] at hnext
      obtain ⟨-, rfl⟩ := hnext
      exact { halive with }
  | busyAnswer =>
      simp only [Client.next, answered, Option.ite_none_right_eq_some, Option.some.injEq] at hnext
      obtain ⟨-, rfl⟩ := hnext
      exact (halive.toSteady.erase .busy nofun).probed none
  | healthAnswer ok =>
      simp only [Client.next, answered, Option.ite_none_right_eq_some, Option.some.injEq] at hnext
      obtain ⟨-, rfl⟩ := hnext
      have hsteady : Steady { client with
        requests := client.requests.erase .health, probing := false } := { halive.toSteady with
          probing := nofun }
      exact hsteady.probed (some ok)
  | sessionAnswer wasOffline status constructs =>
      simp only [Client.next, answered, Option.ite_none_right_eq_some, Option.some.injEq] at hnext
      obtain ⟨-, rfl⟩ := hnext
      exact (halive.toSteady.erase (.session wasOffline) nofun).sessionAnswered wasOffline status
        constructs
        (hok status rfl)
  | notifyVisible =>
      cases hnext
      exact alike_notifyVisible.alive halive
  | notifyBrowserOffline =>
      cases hnext
      exact halive.drop
  | notifyBrowserOnline =>
      cases hnext
      exact halive.notifyBrowserOnline
  | reportHttpFailure =>
      cases hnext
      exact halive.reportHttpFailure
  | close =>
      cases hnext
      exact halive.close

end Client

end Justup.LiveClient
