import Justup.Store.Segment

/-!
# Moving closed days into segments

The functions that `_compact_series` is made of: the scan of the closed prefix
into one chunk for each period, the replacement segment of one period, the
staging of the remainder, and the commit.
-/

namespace Justup.Store

open Justup.Lib

/-- Closed lines of one period, as `_Chunk` collects them. -/
structure Chunk where
  text : Text
  count : Nat
  first : Option Int
  last : Option Int
  ordered : Bool
  deriving DecidableEq, Repr

/-- `_open_chunk`. -/
def Chunk.empty : Chunk := ⟨[], 0, none, none, true⟩

/-- `_Chunk.add`. -/
def Chunk.add (chunk : Chunk) (line : Text) (ts : Int) : Chunk where
  text := chunk.text ++ (Lines.chomp '\n' line ++ ['\n'])
  count := chunk.count + 1
  ordered := if chunk.last.any (fun last => decide (ts ≤ last)) then false else chunk.ordered
  first := match chunk.first with
    | none => some ts
    | some first => if ts < first then some ts else some first
  last := match chunk.last with
    | none => some ts
    | some last => if last < ts then some ts else some last

/-- A built and verified replacement for one period segment; `expectedSig` is
the signature of the segment it was built against.  (The copy of a damaged
segment that is set aside is not modelled: no reader sees it.) -/
structure Plan where
  key : PeriodKey
  final : Text
  expectedSig : Option Nat
  deriving DecidableEq, Repr

variable {V : Type*} (format : LineFormat V) (resolution : Resolution)

/-! ## The scan -/

/-- The loop of `_scan_closed_prefix` over the lines of the active file. -/
def scanLines (hotStart : Int) (size : Nat) :
    List Text → Nat → List (PeriodKey × Chunk) → Nat × List (PeriodKey × Chunk)
  | [], consumed, chunks => (consumed, chunks)
  | raw :: rest, consumed, chunks =>
      if size < consumed + raw.length ∨ raw.getLast? ≠ some '\n' then (consumed, chunks)
      else
        match lineTs format raw with
        | none =>
            -- invalid lines are consumed (dropped), as pruning always did
            scanLines hotStart size rest (consumed + raw.length) chunks
        | some ts =>
            if hotStart ≤ ts then (consumed, chunks)
            else
              scanLines hotStart size rest (consumed + raw.length)
                (Dict.alter (periodKey resolution ts)
                  (fun chunk => (chunk.getD .empty).add raw ts) chunks)

/-- `_scan_closed_prefix`: the consumed length and the chunks, in the order of
their keys, in which `_compact_series` goes through them. -/
def scanClosedPrefix (hotStart : Int) (size : Nat) (content : Text) :
    Nat × List (PeriodKey × Chunk) :=
  scanLines format resolution hotStart size (rawLines content) 0 []

/-! ## The replacement of one segment -/

/-- Only byte-identical repeats collapse. -/
def addDistinct (bucket : List Text) (text : Text) : List Text :=
  if text ∈ bucket then bucket else bucket ++ [text]

/-- The dictionary `merged`: the different texts of every timestamp. -/
def mergeByStamp (lines : List Text) : List (Int × List Text) :=
  Dict.fill Prod.fst (fun bucket item => addDistinct (bucket.getD []) item.2)
    (lines.filterMap fun line =>
      (lineTs format line).map fun ts => (ts, Lines.chomp '\n' line)) []

/-- `_plan_segment`: the verified content of the replacement, `none` where the
verification fails and the attempt is given up. -/
def planSegment (segments : List (PeriodKey × Segment)) (key : PeriodKey) (chunk : Chunk) :
    Option Plan :=
  match Dict.get? key segments with
  | none =>
      if verifySegment format chunk.text chunk.count chunk.last then
        some ⟨key, chunk.text, none⟩
      else none
  | some segment =>
      let (count, newestOld) := segmentInfo format segment.content
      let newer := newestOld.all fun newest =>
        chunk.first.any fun first => decide (newest < first)
      if !segment.damaged && chunk.ordered && newer then
        -- a new closed day: the old bytes and one more member
        let final := segment.content ++ chunk.text
        if verifySegment format final (count + chunk.count) chunk.last then
          some ⟨key, final, some segment.sig⟩
        else none
      else
        -- crash leftovers, stragglers or a damaged archive: merge by timestamp
        let merged := mergeByStamp format (rawLines segment.content ++ rawLines chunk.text)
        let ordered := merged.flatMap Prod.snd
        let final := writeMember ordered
        if verifySegment format final ordered.length (merged.map Prod.fst).max? then
          some ⟨key, final, some segment.sig⟩
        else none

/-! ## The remainder and the commit -/

/-- `_stage_remainder`: the bytes from `consumed` up to the scanned size. -/
def stageRemainder (consumed size : Nat) (content : Text) : Text :=
  (content.drop consumed).take (size - consumed)

/-- Rename one built segment into place. -/
def publish (s : Series) (plan : Plan) : Series :=
  { s with
    segments := Dict.alter plan.key (fun _ => ⟨plan.final, false, s.stamp⟩) s.segments
    stamp := s.stamp + 1 }

/-- The segments are still the ones the plans were built against. -/
def signaturesMatch (s : Series) (plans : List Plan) : Bool :=
  plans.all fun plan =>
    decide ((Dict.get? plan.key s.segments).map Segment.sig = plan.expectedSig)

/-- The locked part of `_compact_series` when no check fails: the lines
appended since the scan join the remainder, the segments are renamed into place
and the remainder replaces the active file. -/
def commitSeries (plans : List Plan) (remainder : Text) (size : Nat) (s : Series) : Series :=
  let published := plans.foldl publish s
  { published with
    active := some ⟨published.stamp, remainder ++ s.activeContent.drop size⟩
    stamp := published.stamp + 1 }

end Justup.Store
