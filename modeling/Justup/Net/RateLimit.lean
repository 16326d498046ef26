import Justup.Lib.Table

/-!
# The rate limiter

`SlidingWindow` of `utils/rate_limit.py`: a table of the times of admitted calls,
one deque for each key.  Times and windows are exact seconds.
-/

namespace Justup.Net

open Justup.Lib

/-! ## The model -/

/-- `_SWEEP_INTERVAL`. -/
def sweepInterval : ℚ := 1

/-- An entry of `_hits`: the times of the admitted calls of a key, oldest first. -/
structure Bucket (K : Type*) where
  key : K
  stamps : List ℚ
  deriving DecidableEq, Repr

structure SlidingWindow (K : Type*) where
  limit : ℤ
  window : ℚ
  maxKeys : ℤ
  hits : List (Bucket K) := []
  lastSweep : ℚ := -sweepInterval
  deriving DecidableEq, Repr

/-- The arguments of `hit`, with the time that the clock gives. -/
structure Call (K : Type*) where
  key : K
  now : ℚ
  limit : Option ℤ := none
  window : Option ℚ := none
  deriving DecidableEq, Repr

/-- What `hit` answers: `None`, the seconds to wait, or an exception. -/
inductive Answer where
  | admitted
  | wait (seconds : ℚ)
  | capacityExhausted
  | indexError
  deriving DecidableEq, Repr

namespace SlidingWindow

variable {K : Type*}

/-- `__init__`. -/
def create (limit : ℤ) (window : ℚ) (maxKeys : ℤ) : SlidingWindow K where
  limit := limit
  window := window
  maxKeys := maxKeys

/-- `_sweep`. -/
def sweep (now : ℚ) (counter : SlidingWindow K) : SlidingWindow K :=
  { counter with
    hits := counter.hits.filter fun bucket =>
      bucket.stamps.getLast?.any fun newest => decide (now - counter.window < newest)
    lastSweep := now }

/-- `len(self._hits) >= self._max_keys`. -/
def isFull (counter : SlidingWindow K) : Bool :=
  decide (counter.maxKeys ≤ (counter.hits.length : ℤ))

/-- A full table is swept, unless that has just been done. -/
def isSweepDue (now : ℚ) (counter : SlidingWindow K) : Bool :=
  counter.isFull && decide (sweepInterval ≤ now - counter.lastSweep)

variable [DecidableEq K]

/-- `self._hits[key] = stamps`. -/
def store (key : K) (stamps : List ℚ) (counter : SlidingWindow K) : SlidingWindow K :=
  { counter with hits := Table.replace Bucket.key ⟨key, stamps⟩ counter.hits }

/-- The end of `hit`: expired stamps are dropped, and the others are counted. -/
def count (limit : ℤ) (now : ℚ) (bucket : Bucket K) (counter : SlidingWindow K) :
    Answer × SlidingWindow K :=
  let stamps := bucket.stamps.dropWhile fun stamp => decide (stamp ≤ now - counter.window)
  if limit ≤ stamps.length then
    (match stamps[((stamps.length : ℤ) - limit).toNat]? with
      | some stamp => .wait (max 0 (stamp + counter.window - now))
      | none => .indexError,
    counter.store bucket.key stamps)
  else (.admitted, counter.store bucket.key (stamps ++ [now]))

/-- The table in which a new key is looked for room. -/
def makeRoom (now : ℚ) (counter : SlidingWindow K) : SlidingWindow K :=
  if counter.isSweepDue now then counter.sweep now else counter

/-- `hit`. -/
def hit (call : Call K) (counter : SlidingWindow K) : Answer × SlidingWindow K :=
  let limit := call.limit.getD counter.limit
  let counter := { counter with window := call.window.getD counter.window }
  match Table.row? Bucket.key call.key counter.hits with
  | some bucket => counter.count limit call.now bucket
  | none =>
      let counter := counter.makeRoom call.now
      if counter.isFull then (.capacityExhausted, counter)
      else counter.count limit call.now ⟨call.key, []⟩

end SlidingWindow

/-! ## Runs -/

/-- A call that has been answered, with the limit and the window that were applied
to it, and whether it swept the table. -/
structure Hit (K : Type*) where
  key : K
  now : ℚ
  limit : ℤ
  window : ℚ
  swept : Bool
  answer : Answer
  deriving DecidableEq, Repr

namespace SlidingWindow

variable {K : Type*} [DecidableEq K]

/-- The call sweeps the table. -/
def sweeps (call : Call K) (counter : SlidingWindow K) : Bool :=
  (Table.row? Bucket.key call.key counter.hits).isNone && counter.isSweepDue call.now

/-- What is noted of a call. -/
def record (call : Call K) (counter : SlidingWindow K) : Hit K where
  key := call.key
  now := call.now
  limit := call.limit.getD counter.limit
  window := call.window.getD counter.window
  swept := counter.sweeps call
  answer := (counter.hit call).1

/-- The calls with their answers, one after another. -/
def history : SlidingWindow K → List (Call K) → List (Hit K)
  | _, [] => []
  | counter, call :: calls => counter.record call :: history (counter.hit call).2 calls

/-- The counter after some calls. -/
def after (counter : SlidingWindow K) (calls : List (Call K)) : SlidingWindow K :=
  calls.foldl (fun counter call => (counter.hit call).2) counter

theorem history_append (counter : SlidingWindow K) (first second : List (Call K)) :
    counter.history (first ++ second) =
      counter.history first ++ (counter.after first).history second := by
  induction first generalizing counter with
  | nil => rfl
  | cons call rest ih => exact congrArg (counter.record call :: ·) (ih _)

theorem after_append (counter : SlidingWindow K) (first second : List (Call K)) :
    counter.after (first ++ second) = (counter.after first).after second :=
  List.foldl_append

theorem exists_call_of_mem_history {counter : SlidingWindow K} {calls : List (Call K)}
    {hit : Hit K} (hmem : hit ∈ counter.history calls) : ∃ call ∈ calls, hit.now = call.now := by
  induction calls generalizing counter with
  | nil => cases hmem
  | cons call rest ih =>
      rcases List.mem_cons.mp hmem with rfl | hrest
      · exact ⟨call, List.mem_cons_self .., rfl⟩
      · obtain ⟨other, hother, heq⟩ := ih hrest
        exact ⟨other, List.mem_cons_of_mem _ hother, heq⟩

/-- A call of a history, with what came before and what came after. -/
theorem split_history {counter : SlidingWindow K} {calls : List (Call K)}
    {before later : List (Hit K)} {hit : Hit K}
    (hsplit : counter.history calls = before ++ hit :: later) :
    ∃ first call second, calls = first ++ call :: second ∧ before = counter.history first ∧
      hit = (counter.after first).record call ∧
      later = ((counter.after first).hit call).2.history second := by
  induction before generalizing counter calls with
  | nil =>
      cases calls with
      | nil => cases hsplit
      | cons call rest =>
          obtain ⟨rfl, rfl⟩ := List.cons.inj hsplit
          exact ⟨[], call, rest, rfl, rfl, rfl, rfl⟩
  | cons head before ih =>
      cases calls with
      | nil => cases hsplit
      | cons call rest =>
          obtain ⟨rfl, hrest⟩ := List.cons.inj hsplit
          obtain ⟨first, other, second, rfl, rfl, hhit, hlater⟩ := ih hrest
          exact ⟨call :: first, other, second, rfl, rfl, hhit, hlater⟩

end SlidingWindow

end Justup.Net
