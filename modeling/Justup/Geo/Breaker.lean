import Justup.Geo.Provider
import Justup.Lib.Transition

/-!
# A throttled provider is left alone

The breaker is read before a request and written after it.  What holds of the
shared state in any order of steps comes first; then the law of the breaker,
for the orders in which no lookup acts on a lock it did not see.
-/

namespace Justup.Geo

open Lib.Transition

variable {Payload Info : Type} {env : Env Payload Info}

/-! ## What a step does -/

/-- `put` alone changes the lookups. -/
theorem State.put_lookups (id : Nat) (lookup : Lookup Payload Info) (phase : Phase Payload Info)
    (s : State Payload Info) (other : Nat) :
    (s.put id lookup phase).lookups other =
      if other = id then some ⟨lookup.key, lookup.now, phase⟩ else s.lookups other := by
  simp [State.put, Function.update_apply]

inductive Stepped (env : Env Payload Info) (s : State Payload Info) :
    Action Payload → State Payload Info → Prop where
  | tick (duration : Nat) : Stepped env s (.tick duration) { s with clock := s.clock + duration }
  | start {id : Nat} {source : Source} {ip apiKey : String} {ttlSeconds : Int} {key : Key}
      (hfresh : s.lookups id = none) (hkey : key = env.key source ip apiKey ttlSeconds) :
      Stepped env s (.start id source ip apiKey ttlSeconds)
        (s.put id ⟨key, s.clock, .starting⟩ .starting)
  | hit {id : Nat} {key : Key} {now : Int} {cache : List (Key × Cached Info)}
      {entry : Cached Info} (hat : s.lookups id = some ⟨key, now, .starting⟩)
      (hcache : cache ⊆ s.cache) (hentry : s.cached key = some entry) :
      Stepped env s (.consult id)
        ({ s with cache := cache }.put id ⟨key, now, .starting⟩ (.hit entry.result))
  | wait {id : Nat} {key : Key} {now : Int} {cache : List (Key × Cached Info)} {leader : Nat}
      (hat : s.lookups id = some ⟨key, now, .starting⟩) (hcache : cache ⊆ s.cache)
      (hmarker : s.inflight key = some leader) :
      Stepped env s (.consult id)
        ({ s with cache := cache }.put id ⟨key, now, .starting⟩ (.waiting leader s.clock))
  | lead {id : Nat} {key : Key} {now : Int} {cache : List (Key × Cached Info)}
      (hat : s.lookups id = some ⟨key, now, .starting⟩) (hcache : cache ⊆ s.cache)
      (hmarker : s.inflight key = none) :
      Stepped env s (.consult id)
        ({ s with cache := cache, inflight := Function.update s.inflight key (some id) }.put id
          ⟨key, now, .starting⟩ .leading)
  | locked {id : Nat} {key : Key} {now : Int} (hat : s.lookups id = some ⟨key, now, .leading⟩) :
      Stepped env s (.check id) (s.put id ⟨key, now, .leading⟩ (.leaving none))
  | clear {id : Nat} {key : Key} {now : Int} (hat : s.lookups id = some ⟨key, now, .leading⟩)
      (hopen : ∀ lock, s.breaker key.account = some lock → lock.1 ≤ now) :
      Stepped env s (.check id) (s.put id ⟨key, now, .leading⟩ (.cleared s.history.length))
  | request {id : Nat} {key : Key} {now : Int} {seen : Nat}
      (hat : s.lookups id = some ⟨key, now, .cleared seen⟩) :
      Stepped env s (.request id) (s.request id ⟨key, now, .cleared seen⟩)
  | receive {id : Nat} {key : Key} {now : Int} {since : Nat} {reply : Reply Payload}
      (hat : s.lookups id = some ⟨key, now, .requesting since⟩) :
      Stepped env s (.receive id reply)
        (s.put id ⟨key, now, .requesting since⟩ (.replied since reply))
  | skip {id : Nat} {key : Key} {now : Int} {since : Nat} {reply : Reply Payload}
      (hat : s.lookups id = some ⟨key, now, .replied since reply⟩) :
      Stepped env s (.record id) (s.put id ⟨key, now, .replied since reply⟩ reply.next)
  | record {id : Nat} {key : Key} {now : Int} {since : Nat} {reply : Reply Payload}
      {new : Option Lock} (hat : s.lookups id = some ⟨key, now, .replied since reply⟩)
      (hnew : recordOutcome (s.breaker key.account) now reply = some new) :
      Stepped env s (.record id)
        ({ s with
          breaker := Function.update s.breaker key.account new
          history := s.history ++
            [Event.recorded id key.account reply.throttles (s.breaker key.account) new] }.put id
          ⟨key, now, .replied since reply⟩ reply.next)
  | drop {id : Nat} {key : Key} {now : Int} {data : Payload}
      (hat : s.lookups id = some ⟨key, now, .filling data⟩) :
      Stepped env s (.fill id) (s.put id ⟨key, now, .filling data⟩ (.leaving none))
  | fill {id : Nat} {key : Key} {now : Int} {data : Payload} {result : Option Info}
      {cache : List (Key × Cached Info)} {expiry : Int}
      (hat : s.lookups id = some ⟨key, now, .filling data⟩)
      (hcache : ∀ entry ∈ cache, entry ∈ s.cache ∨ entry = (key, ⟨expiry, result, id⟩)) :
      Stepped env s (.fill id)
        ({ s with cache := cache }.put id ⟨key, now, .filling data⟩ (.leaving result))
  | leave {id : Nat} {key : Key} {now : Int} {result : Option Info}
      (hat : s.lookups id = some ⟨key, now, .leaving result⟩) :
      Stepped env s (.leave id) (s.leave id ⟨key, now, .leaving result⟩ result)
  | signal {id : Nat} {key : Key} {now : Int} {result : Option Info}
      (hat : s.lookups id = some ⟨key, now, .signalling result⟩) :
      Stepped env s (.signal id)
        (s.put id ⟨key, now, .signalling result⟩ (.finished result))
  | wake {id : Nat} {key : Key} {now : Int} {leader : Nat} {since : Int}
      (hat : s.lookups id = some ⟨key, now, .waiting leader since⟩) :
      Stepped env s (.wake id)
        (s.put id ⟨key, now, .waiting leader since⟩ (.woken leader (s.answer key)))

section

variable {s next : State Payload Info} {id : Nat} {key : Key} {now : Int}

theorem stepped_join {cache : List (Key × Cached Info)}
    (hat : s.lookups id = some ⟨key, now, .starting⟩) (hcache : cache ⊆ s.cache) :
    Stepped env s (.consult id)
      ({ s with cache := cache }.join id ⟨key, now, .starting⟩) := by
  cases hmarker : s.inflight key with
  | none => simpa only [State.join, hmarker] using Stepped.lead hat hcache hmarker
  | some leader => simpa only [State.join, hmarker] using Stepped.wait hat hcache hmarker

theorem stepped_consult (hat : s.lookups id = some ⟨key, now, .starting⟩) :
    Stepped env s (.consult id) (s.consult id ⟨key, now, .starting⟩) := by
  cases hentry : s.cached key with
  | none => simpa only [State.consult, hentry] using stepped_join hat (List.Subset.refl _)
  | some entry =>
      simp only [State.consult, hentry]
      split
      · refine .hit hat ?_ hentry
        simp only [List.append_subset]
        exact ⟨List.filter_sublist.subset, List.filter_sublist.subset⟩
      · exact stepped_join hat List.filter_sublist.subset

theorem stepped_check (hat : s.lookups id = some ⟨key, now, .leading⟩) :
    Stepped env s (.check id) (s.check id ⟨key, now, .leading⟩) := by
  simp only [State.check]
  split
  · exact .locked hat
  · rename_i hopen
    refine .clear hat ?_
    rintro lock hlock
    simpa [blocked, hlock] using hopen

theorem stepped_record {since : Nat} {reply : Reply Payload}
    (hat : s.lookups id = some ⟨key, now, .replied since reply⟩) :
    Stepped env s (.record id) (s.record id ⟨key, now, .replied since reply⟩ reply) := by
  cases hnew : recordOutcome (s.breaker key.account) now reply with
  | none => simpa only [State.record, hnew] using Stepped.skip hat
  | some new => simpa only [State.record, hnew] using Stepped.record hat hnew

theorem stepped_fill {data : Payload} (hat : s.lookups id = some ⟨key, now, .filling data⟩) :
    Stepped env s (.fill id) (s.fill env id ⟨key, now, .filling data⟩ data) := by
  cases hresult : env.normalize key.source key.ip data with
  | none => simpa only [State.fill, hresult] using Stepped.drop hat
  | some result =>
      simp only [State.fill, hresult]
      refine @Stepped.fill _ _ _ _ _ _ _ _ result _ (State.expiry ⟨key, now, .filling data⟩ result)
        hat fun entry hentry => ?_
      obtain hold | hnew := List.mem_append.mp (List.mem_of_mem_drop hentry)
      · exact .inl (List.mem_of_mem_filter hold)
      · exact .inr (List.mem_singleton.mp hnew)

theorem stepped_of_step {act : Action Payload} (hstep : step env s act = some next) :
    Stepped env s act next := by
  cases act with
  | tick duration =>
      cases hstep
      exact .tick duration
  | start id source ip apiKey ttlSeconds =>
      simp only [step] at hstep
      split at hstep
      · cases hstep
      · cases hstep
        exact .start ‹_› rfl
  | wake id =>
      simp only [step] at hstep
      split at hstep
      · split at hstep
        · cases hstep
          exact .wake ‹_›
        · cases hstep
      · cases hstep
  | consult id | check id | request id | receive id reply | record id | fill id | leave id
  | signal id =>
      simp only [step] at hstep
      split at hstep
      · cases hstep
        first
          | exact stepped_consult ‹_›
          | exact stepped_check ‹_›
          | exact .request ‹_›
          | exact .receive ‹_›
          | exact stepped_record ‹_›
          | exact stepped_fill ‹_›
          | exact .leave ‹_›
          | exact .signal ‹_›
      · cases hstep

end

/-! ## The shared state in any order of steps -/

namespace Phase

/-- The lookup owns the marker of its key. -/
def leads : Phase Payload Info → Bool
  | .leading | .cleared _ | .requesting _ | .replied _ _ | .filling _ | .leaving _ => true
  | _ => false

/-- The result of a leader. -/
def result : Phase Payload Info → Option (Option Info)
  | .leaving result | .signalling result | .finished result => some result
  | _ => none

/-- No request was sent yet. -/
def fresh : Phase Payload Info → Bool
  | .starting | .leading | .cleared _ => true
  | _ => false

/-- The length of the history when the request was on its way. -/
def since : Phase Payload Info → Option Nat
  | .requesting since | .replied since _ => some since
  | _ => none

@[simp] theorem leads_next (reply : Reply Payload) :
    (reply.next : Phase Payload Info).leads = true := by cases reply <;> rfl

@[simp] theorem fresh_next (reply : Reply Payload) :
    (reply.next : Phase Payload Info).fresh = false := by cases reply <;> rfl

@[simp] theorem since_next (reply : Reply Payload) :
    (reply.next : Phase Payload Info).since = none := by cases reply <;> rfl

end Phase

/-- How a phase may follow another. -/
structure Phase.Precedes (before after : Phase Payload Info) : Prop where
  result : ∀ result, before.result = some result → after.result = some result
  fresh : after.fresh = true → before.fresh = true

theorem Phase.Precedes.refl (phase : Phase Payload Info) : phase.Precedes phase :=
  ⟨fun _ h => h, fun h => h⟩

/-- A lookup remains, and its phase moves on. -/
def State.Precedes (s later : State Payload Info) : Prop :=
  ∀ id lookup, s.lookups id = some lookup → ∃ phase, lookup.phase.Precedes phase ∧
    later.lookups id = some ⟨lookup.key, lookup.now, phase⟩

section

variable {s next : State Payload Info} {act : Action Payload}

theorem precedes_put {s' : State Payload Info} (hsame : s'.lookups = s.lookups) {id : Nat}
    {key : Key} {now : Int} {before after : Phase Payload Info}
    (hat : s.lookups id = some ⟨key, now, before⟩) (hphase : before.Precedes after) :
    s.Precedes (s'.put id ⟨key, now, before⟩ after) := by
  intro other lookup hlookup
  rw [State.put_lookups, hsame]
  by_cases hid : other = id
  · subst hid
    obtain rfl : _ = lookup := Option.some.inj (hat.symm.trans hlookup)
    exact ⟨after, hphase, by simp⟩
  · exact ⟨lookup.phase, .refl _, by simp [hid, hlookup]⟩

theorem Stepped.precedes (hstep : Stepped env s act next) : s.Precedes next := by
  cases hstep with
  | tick duration => exact fun id lookup hlookup => ⟨_, .refl _, hlookup⟩
  | start hfresh hkey =>
      intro other lookup hlookup
      rw [State.put_lookups, if_neg (by rintro rfl; simp [hfresh] at hlookup)]
      exact ⟨_, .refl _, hlookup⟩
  | skip hat => exact precedes_put rfl hat ⟨by simp [Phase.result], by simp⟩
  | record hat hnew => exact precedes_put rfl hat ⟨by simp [Phase.result], by simp⟩
  | hit hat | wait hat | lead hat | locked hat | clear hat | request hat | receive hat
  | drop hat | fill hat | leave hat | signal hat | wake hat =>
      exact precedes_put rfl hat ⟨by simp [Phase.result], by simp [Phase.fresh]⟩

end

/-- The requests with their accounts, as far as the history tells. -/
def Event.requests (id : Nat) : Event → Bool
  | .requested other _ _ => decide (other = id)
  | .recorded .. => false

/-- The lookup leads for the key and has not left yet. -/
def State.Owns (s : State Payload Info) (id : Nat) (key : Key) : Prop :=
  ∃ lookup, s.lookups id = some lookup ∧ lookup.key = key ∧ lookup.phase.leads = true

/-- The markers, the cache and the history fit the lookups. -/
structure State.Sound (s : State Payload Info) : Prop where
  started : ∀ id lookup, s.lookups id = some lookup → lookup.now ≤ s.clock
  marker : ∀ key id, s.inflight key = some id ↔ s.Owns id key
  filled : ∀ entry ∈ s.cache, ∃ lookup, s.lookups entry.2.filler = some lookup ∧
    lookup.phase.result = some entry.2.result
  asked : ∀ id account time, Event.requested id account time ∈ s.history →
    time ≤ s.clock ∧ ∃ lookup, s.lookups id = some lookup ∧ lookup.phase.fresh = false
  once : s.history.Pairwise fun first second =>
    ∀ id, first.requests id = true → second.requests id = false
  since : ∀ id lookup since, s.lookups id = some lookup → lookup.phase.since = some since →
    ∃ before time after, since = before.length + 1 ∧
      s.history = before ++ .requested id lookup.key.account time :: after

theorem sound_initial (clock : Int) : (State.initial clock : State Payload Info).Sound where
  started := by simp [State.initial]
  marker := by simp [State.initial, State.Owns]
  filled := by simp [State.initial]
  asked := by simp [State.initial]
  once := List.Pairwise.nil
  since := by simp [State.initial]

namespace Stepped

variable {s next : State Payload Info} {act : Action Payload}

/-- The lookups of the later state: one that is new, one that moved, or one of the earlier. -/
theorem lookup_cases (hstep : Stepped env s act next) {id : Nat} {lookup : Lookup Payload Info}
    (hlookup : next.lookups id = some lookup) :
    lookup.now = s.clock ∧ lookup.phase = .starting ∧ s.lookups id = none ∨
      ∃ before, s.lookups id = some ⟨lookup.key, lookup.now, before⟩ := by
  cases hstep with
  | tick duration => exact .inr ⟨_, hlookup⟩
  | @start id' source ip apiKey ttlSeconds key hfresh hkey =>
      rw [State.put_lookups] at hlookup
      split at hlookup
      · rename_i hid
        cases hlookup
        exact .inl ⟨rfl, rfl, hid ▸ hfresh⟩
      · exact .inr ⟨_, hlookup⟩
  | hit hat | wait hat | lead hat | locked hat | clear hat | request hat | receive hat
  | skip hat | record hat | drop hat | fill hat | leave hat | signal hat | wake hat =>
      simp only [State.request, State.leave, State.put_lookups] at hlookup
      split at hlookup
      · rename_i hid
        cases hlookup
        exact .inr ⟨_, hid ▸ hat⟩
      · exact .inr ⟨_, hlookup⟩

theorem clock_le (hstep : Stepped env s act next) : s.clock ≤ next.clock := by
  cases hstep with
  | tick duration => exact Int.le_add_of_nonneg_right (Int.natCast_nonneg duration)
  | _ => exact le_rfl

theorem started (hstep : Stepped env s act next) (hsound : s.Sound) :
    ∀ id lookup, next.lookups id = some lookup → lookup.now ≤ next.clock := by
  intro id lookup hlookup
  obtain ⟨hnow, -⟩ | ⟨before, hbefore⟩ := hstep.lookup_cases hlookup
  · exact hnow.le.trans hstep.clock_le
  · exact (hsound.started id _ hbefore).trans hstep.clock_le

theorem filled (hstep : Stepped env s act next) (hsound : s.Sound) :
    ∀ entry ∈ next.cache, ∃ lookup, next.lookups entry.2.filler = some lookup ∧
      lookup.phase.result = some entry.2.result := by
  have hold : ∀ entry ∈ s.cache, ∃ lookup, next.lookups entry.2.filler = some lookup ∧
      lookup.phase.result = some entry.2.result := by
    intro entry hentry
    obtain ⟨lookup, hlookup, hresult⟩ := hsound.filled entry hentry
    obtain ⟨phase, hphase, hlater⟩ := hstep.precedes _ _ hlookup
    exact ⟨_, hlater, hphase.result _ hresult⟩
  intro entry hentry
  cases hstep with
  | fill hat hcache =>
      obtain hentry | rfl := hcache entry hentry
      · exact hold entry hentry
      · exact ⟨_, State.put_lookups .. |>.trans (if_pos rfl), rfl⟩
  | hit hat hcache | wait hat hcache | lead hat hcache => exact hold entry (hcache hentry)
  | tick | start | locked | clear | request | receive | skip | record | drop | leave | signal
  | wake => exact hold entry hentry

/-- What a step adds to the history. -/
theorem history_cases (hstep : Stepped env s act next) :
    next.history = s.history ∨
      (∃ id lookup, s.lookups id = some lookup ∧ lookup.phase.fresh = true ∧
        next.history = s.history ++ [.requested id lookup.key.account s.clock] ∧
        ∃ later, next.lookups id = some later ∧ later.phase.fresh = false) ∨
      ∃ id account throttled old new,
        next.history = s.history ++ [.recorded id account throttled old new] := by
  cases hstep with
  | request hat =>
      exact .inr (.inl ⟨_, _, hat, rfl, rfl, _, State.put_lookups .. |>.trans (if_pos rfl), rfl⟩)
  | record hat hnew => exact .inr (.inr ⟨_, _, _, _, _, rfl⟩)
  | _ => exact .inl rfl

theorem asked (hstep : Stepped env s act next) (hsound : s.Sound) :
    ∀ id account time, Event.requested id account time ∈ next.history →
      time ≤ next.clock ∧ ∃ lookup, next.lookups id = some lookup ∧ lookup.phase.fresh = false := by
  intro id account time hmem
  have hold : Event.requested id account time ∈ s.history → time ≤ next.clock ∧
      ∃ lookup, next.lookups id = some lookup ∧ lookup.phase.fresh = false := by
    intro hmem
    obtain ⟨htime, lookup, hlookup, hfresh⟩ := hsound.asked id account time hmem
    obtain ⟨phase, hphase, hlater⟩ := hstep.precedes _ _ hlookup
    refine ⟨htime.trans hstep.clock_le, _, hlater, ?_⟩
    by_contra hnot
    simp [hphase.fresh (by simpa using hnot)] at hfresh
  obtain heq | ⟨id', lookup, hat, hfresh, heq, hlater⟩ | ⟨id', account', mark, old, new, heq⟩ :=
    hstep.history_cases
  · exact hold (heq ▸ hmem)
  · rw [heq] at hmem
    obtain hmem | hnew := List.mem_append.mp hmem
    · exact hold hmem
    · cases List.mem_singleton.mp hnew
      exact ⟨hstep.clock_le, hlater⟩
  · rw [heq] at hmem
    obtain hmem | hnew := List.mem_append.mp hmem
    · exact hold hmem
    · cases List.mem_singleton.mp hnew

theorem once (hstep : Stepped env s act next) (hsound : s.Sound) :
    next.history.Pairwise fun first second =>
      ∀ id, first.requests id = true → second.requests id = false := by
  obtain heq | ⟨id', lookup, hat, hfresh, heq, -⟩ | ⟨id', account', throttled, old, new, heq⟩ :=
    hstep.history_cases
  · rw [heq]
    exact hsound.once
  · rw [heq]
    refine List.pairwise_append.mpr ⟨hsound.once, List.pairwise_singleton _ _, ?_⟩
    intro first hfirst second hsecond id hrequests
    rw [List.mem_singleton.mp hsecond]
    cases first with
    | recorded => cases hrequests
    | requested other account time =>
        -- the lookup that sent the first request is past it
        obtain ⟨-, lookup', hlookup', hfresh'⟩ := hsound.asked _ _ _ hfirst
        refine decide_eq_false ?_
        rintro rfl
        obtain rfl : other = id' := of_decide_eq_true hrequests
        cases hat.symm.trans hlookup'
        simp [hfresh] at hfresh'
  · rw [heq]
    refine List.pairwise_append.mpr ⟨hsound.once, List.pairwise_singleton _ _, ?_⟩
    intro first hfirst second hsecond id hrequests
    rw [List.mem_singleton.mp hsecond]
    rfl

/-- Where the length of the history that a lookup remembers comes from. -/
theorem since_cases (hstep : Stepped env s act next) {id since : Nat}
    {lookup : Lookup Payload Info} (hlookup : next.lookups id = some lookup)
    (hsince : lookup.phase.since = some since) :
    (∃ before, s.lookups id = some ⟨lookup.key, lookup.now, before⟩ ∧ before.since = some since) ∨
      since = s.history.length + 1 ∧
        next.history = s.history ++ [.requested id lookup.key.account s.clock] := by
  cases hstep with
  | tick duration => exact .inl ⟨_, hlookup, hsince⟩
  | start | hit | wait | lead | locked | clear | drop | fill | leave | signal | wake =>
      simp only [State.leave, State.put_lookups] at hlookup
      split at hlookup
      · cases hlookup
        cases hsince
      · exact .inl ⟨_, hlookup, hsince⟩
  | skip | record =>
      rw [State.put_lookups] at hlookup
      split at hlookup
      · cases hlookup
        simp at hsince
      · exact .inl ⟨_, hlookup, hsince⟩
  | request hat =>
      simp only [State.request, State.put_lookups] at hlookup
      split at hlookup
      · rename_i hid
        subst hid
        cases hlookup
        cases hsince
        exact .inr ⟨rfl, rfl⟩
      · exact .inl ⟨_, hlookup, hsince⟩
  | receive hat =>
      rw [State.put_lookups] at hlookup
      split at hlookup
      · rename_i hid
        subst hid
        cases hlookup
        exact .inl ⟨_, hat, hsince⟩
      · exact .inl ⟨_, hlookup, hsince⟩

/-- The history only grows. -/
theorem history_grows (hstep : Stepped env s act next) :
    ∃ added, next.history = s.history ++ added := by
  obtain heq | ⟨_, _, _, _, heq, _⟩ | ⟨_, _, _, _, _, heq⟩ := hstep.history_cases
  · exact ⟨[], by rw [heq, List.append_nil]⟩
  · exact ⟨_, heq⟩
  · exact ⟨_, heq⟩

theorem since (hstep : Stepped env s act next) (hsound : s.Sound) :
    ∀ id lookup since, next.lookups id = some lookup → lookup.phase.since = some since →
      ∃ before time after, since = before.length + 1 ∧
        next.history = before ++ .requested id lookup.key.account time :: after := by
  intro id lookup since hlookup hsince
  obtain ⟨phase, hat, hphase⟩ | ⟨hlength, heq⟩ := hstep.since_cases hlookup hsince
  · obtain ⟨before, time, after, hlength, heq⟩ := hsound.since id _ since hat hphase
    obtain ⟨added, hadded⟩ := hstep.history_grows
    exact ⟨before, time, after ++ added, hlength, by simp [hadded, heq]⟩
  · exact ⟨s.history, s.clock, [], hlength, heq⟩

end Stepped

section

variable {s next : State Payload Info} {act : Action Payload} {id : Nat} {key : Key} {now : Int}
  {before after : Phase Payload Info}

theorem owns_put {s' : State Payload Info} (hsame : s'.lookups = s.lookups) (other : Nat)
    (key' : Key) :
    (s'.put id ⟨key, now, before⟩ after).Owns other key' ↔
      if other = id then key = key' ∧ after.leads = true else s.Owns other key' := by
  unfold State.Owns
  rw [State.put_lookups, hsame]
  split
  · simp
  · rfl

/-- A lookup that leads neither before nor after, or both, keeps its marker. -/
theorem owns_put_of_leads {s' : State Payload Info} (hsame : s'.lookups = s.lookups)
    (hat : s.lookups id = some ⟨key, now, before⟩) (hleads : after.leads = before.leads)
    (other : Nat) (key' : Key) :
    (s'.put id ⟨key, now, before⟩ after).Owns other key' ↔ s.Owns other key' := by
  rw [owns_put hsame]
  split
  · rename_i hid
    rw [hid, hleads, State.Owns, hat]
    simp
  · rfl

theorem Stepped.marker (hstep : Stepped env s act next) (hsound : s.Sound) :
    ∀ key id, next.inflight key = some id ↔ next.Owns id key := by
  intro key' other
  have hold := hsound.marker key' other
  cases hstep with
  | tick duration => exact hold
  | start hfresh hkey =>
      rw [owns_put rfl]
      split
      · rename_i hid
        have hnot : ¬ s.Owns other key' := by
          rintro ⟨lookup, hlookup, -⟩
          simp [hid, hfresh] at hlookup
        exact iff_of_false (mt hold.mp hnot) (by simp [Phase.leads])
      · exact hold
  | @lead id key now cache hat hcache hmarker =>
      rw [owns_put rfl]
      change Function.update s.inflight key (some id) key' = some other ↔ _
      rw [Function.update_apply]
      by_cases hkey : key' = key
      · subst hkey
        rw [if_pos rfl, Option.some.injEq]
        split
        · rename_i hid
          simp [hid, Phase.leads]
        · rename_i hid
          rw [hmarker] at hold
          exact iff_of_false (Ne.symm hid) (mt hold.mpr (by simp))
      · rw [if_neg hkey, hold]
        split
        · rename_i hid
          rw [hid, State.Owns, hat]
          simp [Phase.leads, Ne.symm hkey]
        · rfl
  | @leave id key now result hat =>
      rw [State.leave, owns_put rfl]
      change Function.update s.inflight key none key' = some other ↔ _
      have howner : s.inflight key = some id := (hsound.marker key id).mpr ⟨_, hat, rfl, rfl⟩
      rw [Function.update_apply]
      by_cases hkey : key' = key
      · subst hkey
        rw [if_pos rfl]
        split
        · simp [Phase.leads]
        · rename_i hid
          rw [howner, Option.some.injEq] at hold
          exact iff_of_false (by simp) (mt hold.mpr (Ne.symm hid))
      · rw [if_neg hkey, hold]
        split
        · rename_i hid
          rw [hid, State.Owns, hat]
          simp [Phase.leads, Ne.symm hkey]
        · rfl
  | skip hat | record hat hnew =>
      refine hold.trans (owns_put_of_leads ?_ hat ?_ other key').symm
      · rfl
      · rw [Phase.leads_next]
        rfl
  | hit hat | wait hat | locked hat | clear hat | request hat | receive hat | drop hat | fill hat
  | signal hat | wake hat =>
      refine hold.trans (owns_put_of_leads ?_ hat ?_ other key').symm
      · rfl
      · rfl

/-- The shared state stays sound, in any order of steps. -/
theorem State.Sound.step (hsound : s.Sound) (hstep : Stepped env s act next) : next.Sound where
  started := hstep.started hsound
  marker := hstep.marker hsound
  filled := hstep.filled hsound
  asked := hstep.asked hsound
  once := hstep.once hsound
  since := hstep.since hsound

end

end Justup.Geo
