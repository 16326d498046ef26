import Mathlib

/-!
# Lookups at a provider

Threads that look up an address share a cache, the markers of the requests in
flight and the breaker of every account.  A lookup is a series of steps; all
times are microseconds of the monotonic clock, and a lookup uses the time it
read at its start throughout.
-/

namespace Justup.Geo

inductive Source where
  | ipApiPro
  | ipwho
  deriving DecidableEq, Repr

/-- The key of the breaker. -/
structure Account where
  source : Source
  fingerprint : String
  deriving DecidableEq, Repr

/-- The key of the cache and of the requests in flight. -/
structure Key where
  source : Source
  ip : String
  fingerprint : String
  ttlSeconds : Int
  deriving DecidableEq, Repr

def Key.account (key : Key) : Account := ⟨key.source, key.fingerprint⟩

/-- The digest of the API keys, and what becomes of an answer; the latter may raise. -/
structure Env (Payload Info : Type) where
  sha256hex : String → String
  normalize : Source → String → Payload → Option (Option Info)

variable {Payload Info : Type}

/-- `_fingerprint` -/
def Env.fingerprint (env : Env Payload Info) (source : Source) (apiKey : String) : String :=
  if source = .ipApiPro then String.ofList ((env.sha256hex apiKey).toList.take 16) else ""

def Env.key (env : Env Payload Info) (source : Source) (ip apiKey : String) (ttlSeconds : Int) :
    Key :=
  ⟨source, ip, env.fingerprint source apiKey, ttlSeconds⟩

def cacheSize : Nat := 2048
def negativeTtlSeconds : Int := 300
def waitTimeout : Int := 4000000
def retryAfterDefault : Int := 60000000
def retryAfterMax : Int := 900000000
def backoffBase : Int := 15000000
def backoffMax : Int := 300000000

/-! ## The breaker -/

/-- `(blocked_until, failures)` -/
abbrev Lock := Int × Nat

/-- How `_fetch_json` ends.  A throttled request may name a period. -/
inductive Reply (Payload : Type) where
  | throttled (retryAfter : Option Int)
  | failed
  | payload (data : Payload)
  | raised
  deriving DecidableEq, Repr

/-- `_parse_retry_after` of a period that could be read, else the default. -/
def lockPeriod (retryAfter : Option Int) : Int :=
  match retryAfter with
  | none => retryAfterDefault
  | some period => min (max period 0) retryAfterMax

/-- The backoff after so many failures.  The power is converted to a float, which raises from
`2 ** 1024` on. -/
def backoff (failures : Nat) : Option Int :=
  if failures - 1 < 1024 then some (min (backoffBase * 2 ^ (failures - 1)) backoffMax) else none

def failures (old : Option Lock) : Nat := (old.map Prod.snd).getD 0

/-- `_blocked` -/
def blocked (old : Option Lock) (now : Int) : Bool := old.any fun lock => decide (now < lock.1)

/-- `_record_outcome`: the entry that replaces the old one; `none` where nothing is recorded. -/
def recordOutcome (old : Option Lock) (now : Int) : Reply Payload → Option (Option Lock)
  | .throttled retryAfter => some (some (now + lockPeriod retryAfter, failures old))
  | .failed => (backoff (failures old + 1)).map fun delay => some (now + delay, failures old + 1)
  | .payload _ => some none
  | .raised => none

/-! ## The state -/

/-- A lookup that leads makes the request; it ends in `finished`.  One that waits for a leader
ends in `woken`, one that finds its answer in the cache in `hit`. -/
inductive Phase (Payload Info : Type) where
  | starting
  | leading
  | cleared (seen : Nat)
  | requesting (since : Nat)
  | replied (since : Nat) (reply : Reply Payload)
  | filling (data : Payload)
  | leaving (result : Option Info)
  | signalling (result : Option Info)
  | finished (result : Option Info)
  | waiting (leader : Nat) (since : Int)
  | woken (leader : Nat) (result : Option Info)
  | hit (result : Option Info)
  deriving DecidableEq, Repr

def Reply.throttles : Reply Payload → Bool
  | .throttled _ => true
  | _ => false

/-- Where the lookup goes on from its reply. -/
def Reply.next : Reply Payload → Phase Payload Info
  | .payload data => .filling data
  | _ => .leaving none

structure Lookup (Payload Info : Type) where
  key : Key
  now : Int
  phase : Phase Payload Info

/-- The lookup that filled the entry is not in the code. -/
structure Cached (Info : Type) where
  expiry : Int
  result : Option Info
  filler : Nat

/-- What happened at the providers: a request was sent, or an outcome replaced a breaker entry. -/
inductive Event where
  | requested (id : Nat) (account : Account) (time : Int)
  | recorded (id : Nat) (account : Account) (throttled : Bool) (old new : Option Lock)
  deriving DecidableEq, Repr

/-- The history is not in the code.  An event in `_inflight` goes by the lookup that made it. -/
structure State (Payload Info : Type) where
  clock : Int
  /-- Least recently used first. -/
  cache : List (Key × Cached Info) := []
  inflight : Key → Option Nat := fun _ => none
  breaker : Account → Option Lock := fun _ => none
  lookups : Nat → Option (Lookup Payload Info) := fun _ => none
  history : List Event := []

namespace State

def initial (clock : Int) : State Payload Info := { clock := clock }

def cached (s : State Payload Info) (key : Key) : Option (Cached Info) :=
  (s.cache.find? fun entry => decide (entry.1 = key)).map Prod.snd

/-- The lookup moves on to the phase. -/
def put (id : Nat) (lookup : Lookup Payload Info) (phase : Phase Payload Info)
    (s : State Payload Info) : State Payload Info :=
  { s with lookups := Function.update s.lookups id (some { lookup with phase := phase }) }

/-- `del _cache[key]` -/
def uncache (key : Key) (s : State Payload Info) : State Payload Info :=
  { s with cache := s.cache.filter fun entry => decide (entry.1 ≠ key) }

/-- `_cache.move_to_end(key)` -/
def touch (key : Key) (s : State Payload Info) : State Payload Info :=
  { s with
    cache := (s.cache.filter fun entry => decide (entry.1 ≠ key)) ++
      s.cache.filter fun entry => decide (entry.1 = key) }

/-- `_cache[key] = (expiry, result)`, with the eviction of the least recently used. -/
def fillCache (key : Key) (entry : Cached Info) (s : State Payload Info) : State Payload Info :=
  let cache := (s.cache.filter fun entry => decide (entry.1 ≠ key)) ++ [(key, entry)]
  { s with cache := cache.drop (cache.length - cacheSize) }

/-- Wait for the request in flight, or lead one. -/
def join (id : Nat) (lookup : Lookup Payload Info) (s : State Payload Info) :
    State Payload Info :=
  match s.inflight lookup.key with
  | some leader => s.put id lookup (.waiting leader s.clock)
  | none =>
      { s with inflight := Function.update s.inflight lookup.key (some id) }.put id lookup .leading

/-- The first section under `_cache_lock`. -/
def consult (id : Nat) (lookup : Lookup Payload Info) (s : State Payload Info) :
    State Payload Info :=
  match s.cached lookup.key with
  | none => s.join id lookup
  | some entry =>
      if lookup.now < entry.expiry then
        (s.touch lookup.key).put id lookup (.hit entry.result)
      else (s.uncache lookup.key).join id lookup

def check (id : Nat) (lookup : Lookup Payload Info) (s : State Payload Info) :
    State Payload Info :=
  if blocked (s.breaker lookup.key.account) lookup.now then s.put id lookup (.leaving none)
  else s.put id lookup (.cleared s.history.length)

def request (id : Nat) (lookup : Lookup Payload Info) (s : State Payload Info) :
    State Payload Info :=
  { s with history := s.history ++ [Event.requested id lookup.key.account s.clock] }.put id lookup
    (.requesting (s.history.length + 1))

def record (id : Nat) (lookup : Lookup Payload Info) (reply : Reply Payload)
    (s : State Payload Info) : State Payload Info :=
  let account := lookup.key.account
  match recordOutcome (s.breaker account) lookup.now reply with
  | none => s.put id lookup reply.next
  | some new =>
      { s with
        breaker := Function.update s.breaker account new
        history := s.history ++
          [Event.recorded id account reply.throttles (s.breaker account) new] }.put id lookup
        reply.next

def expiry (lookup : Lookup Payload Info) (result : Option Info) : Int :=
  lookup.now + 1000000 *
    if result.isSome then lookup.key.ttlSeconds else min lookup.key.ttlSeconds negativeTtlSeconds

def fill (env : Env Payload Info) (id : Nat) (lookup : Lookup Payload Info) (data : Payload)
    (s : State Payload Info) : State Payload Info :=
  match env.normalize lookup.key.source lookup.key.ip data with
  | none => s.put id lookup (.leaving none)
  | some result =>
      (s.fillCache lookup.key ⟨expiry lookup result, result, id⟩).put id lookup (.leaving result)

/-- `_inflight.pop(key, None)` -/
def leave (id : Nat) (lookup : Lookup Payload Info) (result : Option Info)
    (s : State Payload Info) : State Payload Info :=
  { s with inflight := Function.update s.inflight lookup.key none }.put id lookup
    (.signalling result)

/-- What a waiter returns. -/
def answer (key : Key) (s : State Payload Info) : Option Info :=
  (s.cached key).bind Cached.result

/-- The event of the leader is set. -/
def signalled (leader : Nat) (s : State Payload Info) : Bool :=
  match s.lookups leader with
  | some ⟨_, _, .finished _⟩ => true
  | _ => false

end State

/-! ## Steps -/

inductive Action (Payload : Type) where
  | tick (duration : Nat)
  | start (id : Nat) (source : Source) (ip apiKey : String) (ttlSeconds : Int)
  | consult (id : Nat)
  | check (id : Nat)
  | request (id : Nat)
  | receive (id : Nat) (reply : Reply Payload)
  | record (id : Nat)
  | fill (id : Nat)
  | leave (id : Nat)
  | signal (id : Nat)
  | wake (id : Nat)

def step (env : Env Payload Info) (s : State Payload Info) :
    Action Payload → Option (State Payload Info)
  | .tick duration => some { s with clock := s.clock + duration }
  | .start id source ip apiKey ttlSeconds =>
      match s.lookups id with
      | some _ => none
      | none =>
          some (s.put id ⟨env.key source ip apiKey ttlSeconds, s.clock, .starting⟩ .starting)
  | .consult id =>
      match s.lookups id with
      | some ⟨key, now, .starting⟩ => some (s.consult id ⟨key, now, .starting⟩)
      | _ => none
  | .check id =>
      match s.lookups id with
      | some ⟨key, now, .leading⟩ => some (s.check id ⟨key, now, .leading⟩)
      | _ => none
  | .request id =>
      match s.lookups id with
      | some ⟨key, now, .cleared seen⟩ => some (s.request id ⟨key, now, .cleared seen⟩)
      | _ => none
  | .receive id reply =>
      match s.lookups id with
      | some ⟨key, now, .requesting since⟩ =>
          some (s.put id ⟨key, now, .requesting since⟩ (.replied since reply))
      | _ => none
  | .record id =>
      match s.lookups id with
      | some ⟨key, now, .replied since reply⟩ =>
          some (s.record id ⟨key, now, .replied since reply⟩ reply)
      | _ => none
  | .fill id =>
      match s.lookups id with
      | some ⟨key, now, .filling data⟩ => some (s.fill env id ⟨key, now, .filling data⟩ data)
      | _ => none
  | .leave id =>
      match s.lookups id with
      | some ⟨key, now, .leaving result⟩ =>
          some (s.leave id ⟨key, now, .leaving result⟩ result)
      | _ => none
  | .signal id =>
      match s.lookups id with
      | some ⟨key, now, .signalling result⟩ =>
          some (s.put id ⟨key, now, .signalling result⟩ (.finished result))
      | _ => none
  | .wake id =>
      match s.lookups id with
      | some ⟨key, now, .waiting leader since⟩ =>
          -- the event was set, or the wait timed out
          if s.signalled leader ∨ since + waitTimeout ≤ s.clock then
            some (s.put id ⟨key, now, .waiting leader since⟩ (.woken leader (s.answer key)))
          else none
      | _ => none

end Justup.Geo
