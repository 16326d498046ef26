import Justup.Lib.Tail
import Justup.Store.Series

/-!
# Reading a series

`_open_snapshot`, the stream of lines, the reading of tails with the cache of
the tails of segments, and `query`, for a series that does not change meanwhile.
-/

namespace Justup.Store

open Justup.Lib

variable {V : Type*} (format : LineFormat V) (resolution : Resolution)

/-! ## The stream -/

/-- The segments that `_open_snapshot` opens. -/
def overlaps (now : Int) (since until_ : Option Int) (key : PeriodKey) : Bool :=
  !since.any (fun low => decide (min (periodBounds resolution key).2 (hotStart now) ≤ low)) &&
    !until_.any fun high => decide (high < (periodBounds resolution key).1)

/-- `_Snapshot`: the opened segments and the active file. -/
structure Snapshot where
  segments : List (PeriodKey × Segment)
  active : Option File
  deriving DecidableEq, Repr

/-- `_open_snapshot`. -/
def openSnapshot (now : Int) (since until_ : Option Int) (s : Series) : Snapshot where
  segments := s.segments.filter fun entry => overlaps resolution now since until_ entry.1
  active := s.active

/-- `_iter_series_lines`: a damaged segment is read up to the damage. -/
def iterSeriesLines (now : Int) (since until_ : Option Int) (s : Series) : List Text :=
  let snap := openSnapshot resolution now since until_ s
  snap.segments.flatMap (fun entry => rawLines entry.2.content) ++
    match snap.active with
    | none => []
    | some file => rawLines file.content

/-! ## The tail of the active file -/

/-- The block size of `_tail_lines`. -/
def tailBlock : Nat := 8192

/-- `buffer.splitlines()`. -/
def splitLines (buffer : Text) : List Text := (rawLines buffer).map (Lines.chomp '\n')

/-- The loop of `_tail_lines`, which reads the content backwards from `pos`;
every turn lowers `pos`, so `fuel` turns are enough when `pos ≤ fuel`. -/
def tailLoop (content : Text) (limit : Nat) : Nat → Nat → Text → List Text → List Text
  | 0, _, _, chunks => chunks
  | fuel + 1, pos, buffer, chunks =>
      if 0 < pos ∧ chunks.length ≤ limit then
        let step := min tailBlock pos
        let buffer := (content.drop (pos - step)).take step ++ buffer
        tailLoop content limit fuel (pos - step) buffer (splitLines buffer)
      else chunks

/-- `_tail_lines`: the points of the last `limit` raw lines. -/
def tailLines (content : Text) (limit : Nat) : List (Point V) :=
  let chunks := tailLoop content limit content.length content.length [] []
  (chunks.rtake limit).filterMap (parsePoint format none none)

/-- The part of the active file, if there is one. -/
def tailActive (active : Option File) (limit : Nat) : List (Point V) :=
  match active with
  | none => []
  | some file => tailLines format file.content limit

/-! ## The tails of the segments -/

/-- `_TAIL_CACHE_LINES` and `_TAIL_CACHE_SEGMENTS`. -/
def tailCacheLines : Nat := 2000
def tailCacheSegments : Nat := 32

/-- What is remembered of a segment: its newest lines, whether these are all its
readable lines, and whether it is damaged. -/
structure TailEntry where
  lines : List Text
  whole : Bool
  damaged : Bool
  deriving DecidableEq, Repr

/-- `_tail_cache`: the entries by period and signature, oldest first. -/
abbrev TailCache := List ((PeriodKey × Nat) × TailEntry)

/-- `_tail_cache[key] = entry`. -/
def cacheSet (key : PeriodKey × Nat) (entry : TailEntry) : TailCache → TailCache
  | [] => [(key, entry)]
  | (other, old) :: rest =>
      if other = key then (key, entry) :: rest else (other, old) :: cacheSet key entry rest

/-- What `_segment_tail` remembers of a segment it has read. -/
def tailEntry (segment : Segment) : TailEntry where
  lines := (rawLines segment.content).rtake tailCacheLines
  whole := decide ((rawLines segment.content).length ≤ tailCacheLines)
  damaged := segment.damaged

/-- `_segment_tail` without a usable entry: read the whole segment. -/
def readTail (key : PeriodKey) (segment : Segment) (need : Nat) (cache : TailCache) :
    List Text × TailCache :=
  let window := (rawLines segment.content).foldl (Tail.push (max tailCacheLines need)) []
  let total := (rawLines segment.content).length
  let entry : TailEntry :=
    ⟨window.rtake tailCacheLines, decide (total ≤ tailCacheLines), segment.damaged⟩
  let kept := if tailCacheSegments ≤ cache.length then cache.tail else cache
  (window.rtake need, cacheSet (key, segment.sig) entry kept)

/-- `_segment_tail`. -/
def segmentTail (key : PeriodKey) (segment : Segment) (need : Nat) (cache : TailCache) :
    List Text × TailCache :=
  match cache.lookup (key, segment.sig) with
  | some entry =>
      if entry.whole || decide (need ≤ entry.lines.length) then (entry.lines.rtake need, cache)
      else readTail key segment need cache
  | none => readTail key segment need cache

/-- The loop of `_tail_segments`, newest segment first. -/
def tailSegmentsLoop (need : Nat) :
    List (PeriodKey × Segment) → List (Point V) → TailCache → List (Point V) × TailCache
  | [], collected, cache => (collected, cache)
  | (key, segment) :: older, collected, cache =>
      let (lines, cache) := segmentTail key segment (need - collected.length) cache
      let collected := lines.filterMap (parsePoint format none none) ++ collected
      if need ≤ collected.length then (collected, cache)
      else tailSegmentsLoop need older collected cache

/-- `_tail_segments`. -/
def tailSegments (segments : List (PeriodKey × Segment)) (need : Nat) (cache : TailCache) :
    List (Point V) × TailCache :=
  let (collected, cache) := tailSegmentsLoop format need segments.reverse [] cache
  (collected.rtake need, cache)

/-! ## Queries -/

/-- The general path with `latest`: a bounded queue of the points. -/
def collectTail (since until_ : Option Int) (limit : Nat) (lines : List Text) : List (Point V) :=
  lines.foldl (fun tail line =>
    match parsePoint format since until_ line with
    | none => tail
    | some point => Tail.push limit tail point) []

/-- The general path without `latest`: it stops when `head` is full. -/
def collectHead (since until_ : Option Int) (limit : Nat) :
    List Text → List (Point V) → List (Point V)
  | [], head => head
  | line :: rest, head =>
      match parsePoint format since until_ line with
      | none => collectHead since until_ limit rest head
      | some point =>
          if limit ≤ (head ++ [point]).length then head ++ [point]
          else collectHead since until_ limit rest (head ++ [point])

/-- The general path of `query`. -/
def queryStream (now : Int) (since until_ : Option Int) (limit : Nat) (latest : Bool)
    (s : Series) : List (Point V) :=
  let lines := iterSeriesLines resolution now since until_ s
  if latest then collectTail format since until_ limit lines
  else collectHead format since until_ limit lines []

/-- The fast path of `query`. -/
def queryTail (now : Int) (limit : Nat) (s : Series) (cache : TailCache) :
    List (Point V) × TailCache :=
  let snap := openSnapshot resolution now none none s
  let points := tailActive format snap.active limit
  if points.length < limit then
    let (older, cache) := tailSegments format snap.segments (limit - points.length) cache
    (older ++ points, cache)
  else (points, cache)

/-- `query`; a negative limit is like 0. -/
def query (now : Int) (since until_ : Option Int) (limit : Nat) (latest : Bool) (s : Series)
    (cache : TailCache) : List (Point V) × TailCache :=
  if s.segments.isEmpty && s.active.isNone then ([], cache)
  else if limit = 0 then ([], cache)
  else if latest && since.isNone && until_.isNone then
    queryTail format resolution now limit s cache
  else (queryStream format resolution now since until_ limit latest s, cache)

/-! ## The stream is filtered -/

section Facts

variable {format resolution}

/-- The points of a series in a window. -/
def points (format : LineFormat V) (since until_ : Option Int) (lines : List Text) :
    List (Point V) :=
  lines.filterMap (parsePoint format since until_)

theorem points_append (since until_ : Option Int) (first second : List Text) :
    points format since until_ (first ++ second) =
      points format since until_ first ++ points format since until_ second :=
  List.filterMap_append

/-- Lines that are no records have no points. -/
theorem points_filter_valid (since until_ : Option Int) (lines : List Text) :
    points format since until_ (lines.filter fun line => (lineTs format line).isSome) =
      points format since until_ lines := by
  rw [points, points, List.filterMap_filter]
  refine List.filterMap_congr fun line _ => ?_
  split_ifs with hvalid
  · rfl
  · rw [parsePoint_window, lineTs_eq_parsePoint] at *
    cases hpoint : parsePoint format none none line with
    | none => rfl
    | some point => simp [hpoint] at hvalid

theorem points_window (since until_ : Option Int) (lines : List Text) :
    points format since until_ lines =
      (points format none none lines).filter (inWindow since until_) := by
  rw [points, points, ← List.filterMap_eq_filter, List.filterMap_filterMap]
  refine List.filterMap_congr fun line _ => ?_
  rw [parsePoint_window]
  cases parsePoint format none none line with
  | none => rfl
  | some point => rfl

theorem collectTail_eq (since until_ : Option Int) (limit : Nat) (lines : List Text) :
    collectTail format since until_ limit lines = (points format since until_ lines).rtake limit := by
  have hfold : ∀ queue : List (Point V), lines.foldl (fun tail line =>
      match parsePoint format since until_ line with
      | none => tail
      | some point => Tail.push limit tail point) queue =
        (points format since until_ lines).foldl (Tail.push limit) queue := by
    induction lines with
    | nil => exact fun _ => rfl
    | cons line rest ih =>
        intro queue
        rw [List.foldl_cons, ih, points, points]
        cases hpoint : parsePoint format since until_ line with
        | none => rw [List.filterMap_cons_none hpoint]
        | some point => rw [List.filterMap_cons_some hpoint, List.foldl_cons]
  rw [collectTail, hfold, Tail.foldl_push limit _ [] (Nat.zero_le _), List.nil_append]

theorem collectHead_eq (since until_ : Option Int) {limit : Nat} (lines : List Text)
    (head : List (Point V)) (hhead : head.length < limit) :
    collectHead format since until_ limit lines head =
      (head ++ points format since until_ lines).take limit := by
  induction lines generalizing head with
  | nil => rw [collectHead, points, List.filterMap_nil, List.append_nil, List.take_of_length_le hhead.le]
  | cons line rest ih =>
      rw [collectHead, points]
      cases hpoint : parsePoint format since until_ line with
      | none =>
          rw [List.filterMap_cons_none hpoint]
          exact ih head hhead
      | some point =>
          have hlist : head ++ point :: rest.filterMap (parsePoint format since until_) =
              (head ++ [point]) ++ points format since until_ rest := by simp [points]
          rw [List.filterMap_cons_some hpoint, hlist]
          dsimp only
          split_ifs with hfull
          · rw [List.take_append_of_le_length hfull, List.take_of_length_le]
            simp only [List.length_append, List.length_singleton]
            omega
          · exact ih _ (not_le.mp hfull)

end Facts

end Justup.Store
