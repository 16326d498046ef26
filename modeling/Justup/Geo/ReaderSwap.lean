import Justup.Geo.Location
import Justup.Lib.Locks
import Justup.Lib.Transition

/-!
# Lookups in a database file that may be replaced

Any number of threads look up addresses while the file is replaced under them.  A reader is
named by its place among the readers that were opened; the file it was opened from stays with it.
What one lock guards from beginning to end is one step, unless another thread reads it without
that lock.
-/

namespace Justup.Geo.Reader

open Store

/-! ## Records -/

/-- The plain values that `_read_record` copies. -/
structure Record where
  lat : Option Value
  lon : Option Value
  accuracyRadius : Option Value
  city : Option Text
  country : Option Text
  subdivision : Option Text
  deriving DecidableEq, Repr

structure GeoLocation where
  lat : ℚ
  lon : ℚ
  city : Option Text
  country : Option Text
  accuracyRadiusKm : Option ℚ
  cityIsRegion : Bool
  deriving DecidableEq, Repr

/-- `isinstance(value, (int, float))`; a truth value is an integer. -/
def asNumber : Option Value → Option ℚ
  | some (.number value) => some value
  | some (.flag value) => some (if value then 1 else 0)
  | some .other | none => none

/-- `city or subdivision` -/
def placeName (city subdivision : Option Text) : Option Text :=
  match city with
  | some (c :: cs) => some (c :: cs)
  | some [] | none => subdivision

def radiusKm : Option Value → Option ℚ
  | some (.number radius) => if 0 ≤ radius then some radius else none
  | _ => none

/-- `_to_geo_location` -/
def toGeoLocation (record : Record) : Option GeoLocation :=
  match asNumber record.lat, asNumber record.lon with
  | some lat, some lon =>
      if -90 ≤ lat ∧ lat ≤ 90 ∧ -180 ≤ lon ∧ lon ≤ 180 then
        some
          { lat := lat
            lon := lon
            city := placeName record.city record.subdivision
            country := record.country
            accuracyRadiusKm := radiusKm record.accuracyRadius
            cityIsRegion := record.city.isNone && record.subdivision.isSome }
      else none
  | _, _ => none

/-- What the database says about an address. -/
abbrev Content := Text → Option Record

/-- The definitive answer of a database. -/
def Content.answer (content : Content) (ip : Text) : Option GeoLocation :=
  (content ip).bind toGeoLocation

/-! ## The state -/

/-- `(mtime_ns, inode, size)` -/
abbrev Stamp := Int × Int × Int

structure File where
  stamp : Stamp
  content : Content

/-- A swap under way: the reader before, the one just opened, and the stamp it goes with. -/
structure Swap where
  previous : Option Nat
  fresh : Nat
  stamp : Option Stamp
  deriving DecidableEq, Repr

/-- Where a call stands. -/
inductive Phase where
  /-- `_reader is not None` -/
  | entering
  | stating
  | comparing (stamp : Option Stamp)
  /-- `return _reader` without a lock -/
  | returning
  /-- `with _reader_lock` -/
  | waiting
  | checking
  | looking
  | stamping
  | opening (stamp : Option Stamp)
  /-- `with _geo_cache_lock`, for the swap -/
  | swapping (swap : Swap)
  | replacing (swap : Swap)
  | marking (swap : Swap)
  | clearing (swap : Swap)
  /-- `with _reader_query_lock`, to close the reader before -/
  | retiring (previous : Nat)
  | closing (previous : Nat)
  | leaving
  | got (reader : Option Nat)
  /-- `if ip in _geo_cache` -/
  | consulting (reader : Nat)
  /-- `with _reader_query_lock`, to query -/
  | queueing (reader : Nat)
  | verifying (reader : Nat)
  /-- `reader.city(ip)` is running -/
  | querying (reader generation : Nat)
  /-- `_cache_put` -/
  | storing (reader generation : Nat) (result : Option GeoLocation)
  deriving DecidableEq, Repr

/-- The reader that was current when the call began is not in the code. -/
structure Call where
  ip : Text
  since : Option Nat
  attempt : Nat
  phase : Phase
  deriving DecidableEq, Repr

/-- The reader a value was read from is not in the code. -/
structure Entry where
  value : Option GeoLocation
  origin : Nat
  deriving DecidableEq, Repr

/-- A call that returned; an answer that no database gave has no origin. -/
structure Answer where
  ip : Text
  since : Option Nat
  value : Option GeoLocation
  origin : Option Nat
  deriving DecidableEq, Repr

/-- The readers that were opened and closed, and the answers, are not in the code. -/
structure State where
  file : Option File := none
  opened : List Content := []
  closed : List Nat := []
  reader : Option Nat := none
  readerStamp : Option Stamp := none
  generation : Nat := 0
  cache : List (Text × Entry) := []
  readerLock : Option Nat := none
  queryLock : Option Nat := none
  cacheLock : Option Nat := none
  calls : Nat → Option Call := fun _ => none
  returned : List Answer := []

/-- Which addresses are routable, and whether the library could be imported. -/
structure Env where
  hasGeoip : Bool
  routable : Text → Bool

def cacheMaxSize : Nat := 512
def maxReaderAttempts : Nat := 3

namespace State

/-- The call moves on to the phase. -/
def put (thread : Nat) (call : Call) (phase : Phase) (s : State) : State :=
  { s with calls := Function.update s.calls thread (some { call with phase := phase }) }

/-- The call returns. -/
def finish (thread : Nat) (call : Call) (value : Option GeoLocation) (origin : Option Nat)
    (s : State) : State :=
  { s with
    calls := Function.update s.calls thread none
    returned := s.returned ++ [⟨call.ip, call.since, value, origin⟩] }

/-- `_db_stamp`; a file that is there may fail to be read. -/
def dbStamp (fails : Bool) (s : State) : Option Stamp :=
  if fails then none else s.file.map File.stamp

/-- What a reader answers. -/
def answer (s : State) (reader : Nat) (ip : Text) : Option GeoLocation :=
  (s.opened[reader]?).bind fun content => content.answer ip

def cached (s : State) (ip : Text) : Option Entry :=
  (s.cache.find? fun entry => decide (entry.1 = ip)).map Prod.snd

/-! ### `_get_reader` -/

def enter (env : Env) (thread : Nat) (call : Call) (s : State) : State :=
  if env.hasGeoip then
    s.put thread call (if s.reader.isSome then .stating else .waiting)
  else s.put thread call (.got none)

/-- The check under the lock, where nobody else writes what it reads. -/
def recheck (thread : Nat) (call : Call) (fails : Bool) (s : State) : State :=
  if s.reader.isSome ∧ s.dbStamp fails = s.readerStamp then
    { s with readerLock := none }.put thread call (.got s.reader)
  else s.put thread call .looking

def look (thread : Nat) (call : Call) (s : State) : State :=
  if s.file.isSome then s.put thread call .stamping
  else { s with readerLock := none }.put thread call (.got s.reader)

/-- `geoip2.database.Reader(str(db_path))` -/
def openReader (thread : Nat) (call : Call) (stamp : Option Stamp) (fails : Bool) (s : State) :
    State :=
  match s.file, fails with
  | some file, false =>
      { s with opened := s.opened ++ [file.content] }.put thread call
        (.swapping ⟨s.reader, s.opened.length, stamp⟩)
  | _, _ => { s with readerLock := none }.put thread call (.got s.reader)

def clear (thread : Nat) (call : Call) (swap : Swap) (s : State) : State :=
  { s with generation := s.generation + 1, cache := [], cacheLock := none }.put thread call
    (match swap.previous with
     | some previous => .retiring previous
     | none => .leaving)

/-- Closing is best effort. -/
def close (thread : Nat) (call : Call) (previous : Nat) (fails : Bool) (s : State) : State :=
  { s with
    closed := if fails then s.closed else previous :: s.closed
    queryLock := none }.put thread call .leaving

/-! ### `geolocate_ip` -/

def consult (thread : Nat) (call : Call) (reader : Nat) (s : State) : State :=
  match s.cached call.ip with
  | some entry => s.finish thread call entry.value (some entry.origin)
  | none => s.put thread call (.queueing reader)

/-- A reader that was swapped meanwhile is fetched anew, a few times at most. -/
def verify (thread : Nat) (call : Call) (reader : Nat) (s : State) : State :=
  if s.reader.isSome ∧ s.reader ≠ some reader then
    if call.attempt + 1 < maxReaderAttempts then
      { s with queryLock := none }.put thread { call with attempt := call.attempt + 1 } .entering
    else { s with queryLock := none }.finish thread call none none
  else s.put thread call (.querying reader s.generation)

def query (thread : Nat) (call : Call) (reader generation : Nat) (fails : Bool) (s : State) :
    State :=
  if fails then { s with queryLock := none }.finish thread call none none
  else
    { s with queryLock := none }.put thread call
      (.storing reader generation (s.answer reader call.ip))

/-- `_cache_put`, then the return. -/
def store (thread : Nat) (call : Call) (reader generation : Nat) (result : Option GeoLocation)
    (s : State) : State :=
  (if generation = s.generation ∧ s.cache.length < cacheMaxSize then
      { s with
        cache := (s.cache.filter fun entry => decide (entry.1 ≠ call.ip)) ++
          [(call.ip, ⟨result, reader⟩)] }
    else s).finish thread call result (some reader)

end State

/-! ## Steps -/

/-- The file is replaced or removed, a call begins, or a thread takes its next step; `fails` lets
the operation of that step fail. -/
inductive Action where
  | replace (file : Option File)
  | call (thread : Nat) (ip : Text)
  | step (thread : Nat) (fails : Bool)

/-- The next step of a call; `none` while it waits for a lock. -/
def advance (env : Env) (thread : Nat) (call : Call) (fails : Bool) (s : State) : Option State :=
  match call.phase with
  | .entering => some (s.enter env thread call)
  | .stating => some (s.put thread call (.comparing (s.dbStamp fails)))
  | .comparing stamp =>
      some (s.put thread call (if stamp = s.readerStamp then .returning else .waiting))
  | .returning => some (s.put thread call (.got s.reader))
  | .waiting =>
      if s.readerLock = none then
        some ({ s with readerLock := some thread }.put thread call .checking)
      else none
  | .checking => some (s.recheck thread call fails)
  | .looking => some (s.look thread call)
  | .stamping => some (s.put thread call (.opening (s.dbStamp fails)))
  | .opening stamp => some (s.openReader thread call stamp fails)
  | .swapping swap =>
      if s.cacheLock = none then
        some ({ s with cacheLock := some thread }.put thread call (.replacing swap))
      else none
  | .replacing swap =>
      some ({ s with reader := some swap.fresh }.put thread call (.marking swap))
  | .marking swap =>
      some ({ s with readerStamp := swap.stamp }.put thread call (.clearing swap))
  | .clearing swap => some (s.clear thread call swap)
  | .retiring previous =>
      if s.queryLock = none then
        some ({ s with queryLock := some thread }.put thread call (.closing previous))
      else none
  | .closing previous => some (s.close thread call previous fails)
  | .leaving => some ({ s with readerLock := none }.put thread call .returning)
  | .got none => some (s.finish thread call none none)
  | .got (some reader) => some (s.put thread call (.consulting reader))
  | .consulting reader => if s.cacheLock = none then some (s.consult thread call reader) else none
  | .queueing reader =>
      if s.queryLock = none then
        some ({ s with queryLock := some thread }.put thread call (.verifying reader))
      else none
  | .verifying reader => if s.cacheLock = none then some (s.verify thread call reader) else none
  | .querying reader generation => some (s.query thread call reader generation fails)
  | .storing reader generation result =>
      if s.cacheLock = none then some (s.store thread call reader generation result) else none

def step (env : Env) (s : State) : Action → Option State
  | .replace file => some { s with file := file }
  | .call thread ip =>
      match s.calls thread with
      | some _ => none
      | none =>
          if env.routable ip then
            some { s with
              calls := Function.update s.calls thread (some ⟨ip, s.reader, 0, .entering⟩) }
          else some (s.finish thread ⟨ip, s.reader, 0, .entering⟩ none none)
  | .step thread fails =>
      match s.calls thread with
      | none => none
      | some call => advance env thread call fails s

end Justup.Geo.Reader
