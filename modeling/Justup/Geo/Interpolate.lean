import Justup.Geo.MapPoints
import Justup.Lib.Bisect

/-!
# Interpolation of silent hops

A hop list is a list of references to dicts, which the interpolation must not modify; those it
changes are copied.  Latencies are exact numbers.
-/

namespace Justup.Geo.Interpolate

open Store Lib.Bisect

/-- `latency_ms` -/
inductive Latency where
  | missing
  | number (value : ℚ)
  | dict (avg min max : Option ℚ) (interpolated : Bool)
  | other
  deriving DecidableEq, Repr

/-- The keys that no function here reads are in `rest`. -/
structure Hop (Hint Rest : Type) where
  hop : Option ℤ
  status : HopStatus
  latencyMs : Latency
  lossPct : Option ℚ
  interpolated : Bool
  geoHint : Option Hint
  rest : Rest
  deriving DecidableEq

variable {Hint Rest : Type}

/-- `h.get("hop", i + 1)` -/
def Hop.numberAt (index : ℕ) (hop : Hop Hint Rest) : ℤ := hop.hop.getD (index + 1)

def numbered (hops : List (Hop Hint Rest)) : List (ℤ × Hop Hint Rest) :=
  hops.zipIdx.map fun entry => (entry.1.numberAt entry.2, entry.1)

def isTimeout (entry : ℤ × Hop Hint Rest) : Bool := decide (entry.2.status = .timeout)

/-! ## Anchors -/

/-- The latency of a hop that responded. -/
def Hop.answered (hop : Hop Hint Rest) : Option ℚ :=
  if hop.status = .ok ∨ hop.status = .partially then
    match hop.latencyMs with
    | .dict avg _ _ _ => avg
    | .number value => some value
    | .missing | .other => none
  else none

def answeredAt (entry : ℤ × Hop Hint Rest) : Option (ℤ × ℚ) :=
  entry.2.answered.map fun latency => (entry.1, latency)

/-- `responding`, sorted by the number. -/
def responding (entries : List (ℤ × Hop Hint Rest)) : List (ℤ × ℚ) :=
  (entries.filterMap answeredAt).insertionSort fun a b => a.1 ≤ b.1

/-- The first and the last number of a run of timeouts. -/
structure Block where
  start : ℤ
  stop : ℤ
  deriving DecidableEq, Repr

/-- The state of the loop that detects the blocks. -/
structure Detection where
  blocks : List Block := []
  blockStart : Option ℤ := none
  lastTimeoutHop : Option ℤ := none

def Detection.note (entry : ℤ × Hop Hint Rest) (d : Detection) : Detection :=
  if isTimeout entry then
    { d with
      blockStart := some (d.blockStart.getD entry.1)
      lastTimeoutHop := some entry.1 }
  else
    match d.blockStart, d.lastTimeoutHop with
    | some start, some last => { d with blocks := d.blocks ++ [⟨start, last⟩], blockStart := none }
    | _, _ => d

def Detection.finish (d : Detection) : List Block :=
  match d.blockStart, d.lastTimeoutHop with
  | some start, some last => d.blocks ++ [⟨start, last⟩]
  | _, _ => d.blocks

/-- `detected_blocks`, without one that no responding hop follows. -/
def detectedBlocks (entries : List (ℤ × Hop Hint Rest)) : List Block :=
  let answers := responding entries
  (entries.foldl (fun d entry => Detection.note entry d) {}).finish.filter fun block =>
    decide (bisectRight (answers.map Prod.fst) block.stop < answers.length)

/-- `block_anchors` -/
def startLat (answers : List (ℤ × ℚ)) (block : Block) : ℚ :=
  match bisectLeft (answers.map Prod.fst) block.start with
  | 0 => 0
  | index + 1 => (answers[index]?.map Prod.snd).getD 0

def endLat (answers : List (ℤ × ℚ)) (block : Block) : ℚ :=
  (answers[bisectRight (answers.map Prod.fst) block.stop]?.map Prod.snd).getD
    (startLat answers block)

def Block.covers (number : ℤ) (block : Block) : Bool :=
  decide (block.start ≤ number ∧ number ≤ block.stop)

/-- `hop_to_block`: of the blocks that write a number, the last one stays. -/
def hopToBlock (blocks : List Block) (number : ℤ) : Option Block :=
  (blocks.filter (Block.covers number)).getLast?

/-! ## Applying the interpolation -/

/-- `round(value, 1)` -/
def round1 (value : ℚ) : ℚ := roundHalfEven (value * 10) / 10

def Block.length (block : Block) : ℤ := block.stop - block.start + 1

/-- Linear between the anchors; the position counts from one. -/
def exactLatency (answers : List (ℤ × ℚ)) (block : Block) (number : ℤ) : ℚ :=
  startLat answers block + (endLat answers block - startLat answers block) *
    ((number - block.start + 1 : ℤ) / (block.length + 1 : ℤ))

/-- The copy of a hop that gets an interpolated latency. -/
def Hop.interpolate (destinationGeo : Option Hint) (avg : Option ℚ) (hop : Hop Hint Rest) :
    Hop Hint Rest :=
  { hop with
    status := .interpolated
    interpolated := true
    lossPct := some 100
    latencyMs := .dict avg none none true
    geoHint := destinationGeo.or hop.geoHint }

/-- The copy that replaces a hop, if one does. -/
def replacement (destinationGeo : Option Hint) (entries : List (ℤ × Hop Hint Rest))
    (entry : ℤ × Hop Hint Rest) : Option (Hop Hint Rest) :=
  if isTimeout entry then
    (hopToBlock (detectedBlocks entries) entry.1).map fun block =>
      entry.2.interpolate destinationGeo
        (if 0 < block.length then some (round1 (exactLatency (responding entries) block entry.1))
         else none)
  else none

/-- The values of the hops that `interpolate_route` returns. -/
def interpolateRoute (destinationGeo : Option Hint) (hops : List (Hop Hint Rest)) :
    List (Hop Hint Rest) :=
  (numbered hops).map fun entry =>
    (replacement destinationGeo (numbered hops) entry).getD entry.2

/-! ## References -/

/-- A hop list as the caller holds it: references to dicts. -/
structure Route (Hint Rest : Type) where
  heap : List (Hop Hint Rest)
  refs : List ℕ
  valid : ∀ ref ∈ refs, ref < heap.length

def Route.hops (route : Route Hint Rest) : List (Hop Hint Rest) :=
  route.refs.filterMap fun ref => route.heap[ref]?

/-- The loop over the hops: a hop that changes is copied, and the list refers to the copy. -/
def rewrite (change : ℤ × Hop Hint Rest → Option (Hop Hint Rest)) :
    List (Hop Hint Rest) → List (ℕ × ℕ) → List (Hop Hint Rest) × List ℕ
  | heap, [] => (heap, [])
  | heap, (ref, index) :: rest =>
      match heap[ref]?.bind fun hop => change (hop.numberAt index, hop) with
      | none =>
          let (heap, refs) := rewrite change heap rest
          (heap, ref :: refs)
      | some copy =>
          let (heap', refs) := rewrite change (heap ++ [copy]) rest
          (heap', heap.length :: refs)

/-- `interpolate_route`: the heap behind it, and the references it returns. -/
def interpolateRouteRefs (destinationGeo : Option Hint) (route : Route Hint Rest) :
    List (Hop Hint Rest) × List ℕ :=
  rewrite (replacement destinationGeo (numbered route.hops)) route.heap route.refs.zipIdx

end Justup.Geo.Interpolate
