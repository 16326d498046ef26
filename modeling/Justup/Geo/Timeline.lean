import Justup.Geo.Interpolated

/-!
# Regrouping the hops of a route

Interpolated hops are collapsed into summary rows and expanded again; the nodes of the timeline
are grouped.  Neither pass loses a hop, and a group does not reach over a gap in the numbers.
-/

namespace Justup.Geo.Interpolate

variable {Hint Rest : Type}

/-- `str` of a hop number, or of its absence. -/
def showNumber : Option ℤ → String
  | some number => toString number
  | none => "None"

def noReplyLabel : String := "No reply"

/-- `no_reply_run_label` -/
def noReplyRunLabel (count : ℕ) : String := toString count ++ " hops without reply"

/-! ## Summary rows -/

structure Summary (Hint Rest : Type) where
  hopDisplay : String
  ipDisplay : String := "—"
  hostnameDisplay : String
  latencyDisplay : String := "—"
  lossDisplay : String := "—"
  status : HopStatus := .interpolated
  statusDisplay : HopStatus := .timeout
  collapsed : Bool := true
  interpolated : Bool := true
  rawHops : List (Hop Hint Rest)
  deriving DecidableEq

inductive Row (Hint Rest : Type) where
  | hop (hop : Hop Hint Rest)
  | summary (summary : Summary Hint Rest)
  deriving DecidableEq

/-- `_make_collapsed_summary` -/
def makeCollapsedSummary (batch : List (Hop Hint Rest)) : Summary Hint Rest :=
  let first := showNumber (batch.head?.bind Hop.hop)
  let last := showNumber (batch.getLast?.bind Hop.hop)
  { hopDisplay := if batch.length = 1 then first else first ++ " - " ++ last
    hostnameDisplay := if batch.length = 1 then noReplyLabel else noReplyRunLabel batch.length
    rawHops := batch }

/-- The state of the loop that collapses. -/
structure Collapsing (Hint Rest : Type) where
  out : List (Row Hint Rest) := []
  batch : List (Hop Hint Rest) := []

namespace Collapsing

def flush (c : Collapsing Hint Rest) : Collapsing Hint Rest :=
  if c.batch.isEmpty then c else ⟨c.out ++ [.summary (makeCollapsedSummary c.batch)], []⟩

def note (c : Collapsing Hint Rest) (hop : Hop Hint Rest) : Collapsing Hint Rest :=
  if hop.status = .interpolated then { c with batch := c.batch ++ [hop] }
  else { c.flush with out := c.flush.out ++ [.hop hop] }

end Collapsing

def collapseInterpolatedHops (hops : List (Hop Hint Rest)) : List (Row Hint Rest) :=
  (hops.foldl Collapsing.note {}).flush.out

/-- The rows that a row stands for. -/
def Row.expand : Row Hint Rest → List (Row Hint Rest)
  | .hop single => [.hop single]
  | .summary row =>
      if row.collapsed && !row.rawHops.isEmpty then row.rawHops.map .hop else [.summary row]

def expandSequenceHops (rows : List (Row Hint Rest)) : List (Row Hint Rest) :=
  rows.flatMap Row.expand

def Row.count : Row Hint Rest → ℕ
  | .hop _ => 1
  | .summary row => if row.collapsed && !row.rawHops.isEmpty then row.rawHops.length else 1

def logicalHopCount (rows : List (Row Hint Rest)) : ℕ := (rows.map Row.count).sum

@[simp] theorem expandSequenceHops_append (first second : List (Row Hint Rest)) :
    expandSequenceHops (first ++ second) = expandSequenceHops first ++ expandSequenceHops second :=
  List.flatMap_append

theorem length_expand (row : Row Hint Rest) : row.expand.length = row.count := by
  cases row with
  | hop hop => rfl
  | summary summary =>
      simp only [Row.expand, Row.count]
      split <;> simp

/-- The count is that of the expanded rows. -/
theorem length_expandSequenceHops (rows : List (Row Hint Rest)) :
    (expandSequenceHops rows).length = logicalHopCount rows := by
  simp only [expandSequenceHops, List.length_flatMap, logicalHopCount, length_expand]

theorem expand_flush (c : Collapsing Hint Rest) :
    c.flush.batch = [] ∧
      expandSequenceHops c.flush.out = expandSequenceHops c.out ++ c.batch.map .hop := by
  obtain ⟨out, batch⟩ := c
  cases batch with
  | nil => exact ⟨rfl, (List.append_nil _).symm⟩
  | cons first rest =>
      refine ⟨rfl, ?_⟩
      simp [Collapsing.flush, expandSequenceHops, Row.expand, makeCollapsedSummary]

/-- Nothing is lost on the way: what was put out and what waits are the hops seen. -/
theorem expand_foldl_note (hops : List (Hop Hint Rest)) :
    expandSequenceHops (hops.foldl Collapsing.note {}).out ++
      (hops.foldl Collapsing.note {}).batch.map .hop = hops.map .hop := by
  induction hops using List.reverseRecOn with
  | nil => rfl
  | append_singleton seen hop ih =>
      rw [List.foldl_append, List.map_append, ← ih]
      simp only [List.foldl_cons, List.foldl_nil, Collapsing.note]
      split
      · simp
      · obtain ⟨hbatch, hout⟩ := expand_flush (seen.foldl Collapsing.note {})
        simp only [hbatch, hout, expandSequenceHops_append, List.map_nil, List.append_nil]
        rfl

theorem expand_collapse (hops : List (Hop Hint Rest)) :
    expandSequenceHops (collapseInterpolatedHops hops) = hops.map .hop := by
  rw [collapseInterpolatedHops, (expand_flush _).2, expand_foldl_note]

theorem logicalHopCount_collapse (hops : List (Hop Hint Rest)) :
    logicalHopCount (collapseInterpolatedHops hops) = hops.length := by
  rw [← length_expandSequenceHops, expand_collapse, List.length_map]

/-! ## Timeline groups -/

inductive NodeKind where
  | hop
  | first
  | destination
  | single
  deriving DecidableEq, Repr

inductive Measurement where
  | measured
  | timeout
  | unreached
  deriving DecidableEq, Repr

/-- `TIMELINE_MEASUREMENTS`, without the icons. -/
def timelineMeasurements : List (Measurement × String) :=
  [(.measured, "Measured"), (.timeout, noReplyLabel), (.unreached, "Not reached, no reply")]

/-- The keys that the grouping does not read are in `rest`. -/
structure Node (Rest : Type) where
  kind : NodeKind
  firstHop : Option ℤ
  lastHop : Option ℤ
  measurement : Measurement
  measurementLabel : String
  mapped : Bool
  rest : Rest
  deriving DecidableEq

structure Group (Rest : Type) where
  id : String
  firstHop : Option ℤ
  lastHop : Option ℤ
  label : String
  title : String
  subtitle : String
  summary : String
  /-- None when it is mixed. -/
  measurement : Option Measurement
  mapped : Bool
  members : List (Node Rest)
  count : ℕ
  ariaLabel : String
  detail : String
  deriving DecidableEq

inductive Entry (Rest : Type) where
  | node (node : Node Rest)
  | group (group : Group Rest)
  deriving DecidableEq

def timelineGroupKey (node : Node Rest) : Option String :=
  if node.kind ≠ .hop then none
  else if node.measurement = .timeout then some "no_reply"
  else if node.mapped then none else some "unlocated"

def timelineGroup (members : List (Node Rest)) (key : String) : Group Rest :=
  let first := members.head?.bind Node.firstHop
  let last := members.getLast?.bind Node.lastHop
  let count := members.length
  let tally name := (members.filter fun member => decide (member.measurement = name)).length
  let counts := (timelineMeasurements.filter fun entry => decide (tally entry.1 ≠ 0)).map
    fun entry => toString (tally entry.1) ++ " " ++ entry.2.map Char.toLower
  let mixed := decide (1 < counts.length)
  let title :=
    if key = "unlocated" then toString count ++ " hops without map location"
    else if key = "no_reply" then noReplyRunLabel count
    else toString count ++ " hops"
  let span :=
    if first ≠ last then showNumber first ++ "–" ++ showNumber last else showNumber first
  let summary := ", ".intercalate counts
  { id := "tr-group-" ++ showNumber first ++ "-" ++ showNumber last
    firstHop := first
    lastHop := last
    label := span
    title := title
    subtitle :=
      if mixed then "Mixed probe states" else (members.head?.map Node.measurementLabel).getD ""
    summary := summary
    measurement := if mixed then none else members.head?.map Node.measurement
    mapped := decide (key ≠ "unlocated" ∧ key ≠ "no_reply")
    members := members
    count := count
    ariaLabel :=
      "Hops " ++ showNumber first ++ " to " ++ showNumber last ++ ", " ++ title ++ ", " ++ summary
    detail := "Hops " ++ span ++ " · " ++ title ++ " · " ++ summary }

/-- The hop number goes on from one node to the next. -/
def numberFollows (last node : Node Rest) : Bool :=
  match last.lastHop, node.firstHop with
  | some number, some next => decide (next = number + 1)
  | _, _ => false

/-- The state of the loop that groups. -/
structure Grouping (Rest : Type) where
  out : List (Entry Rest) := []
  run : List (Node Rest) := []
  runKey : Option String := none

namespace Grouping

def flush (minRun : ℕ) (g : Grouping Rest) : Grouping Rest :=
  match g.runKey with
  | some key =>
      if minRun ≤ g.run.length then { out := g.out ++ [.group (timelineGroup g.run key)] }
      else { out := g.out ++ g.run.map .node }
  | none => { out := g.out ++ g.run.map .node }

def contiguous (g : Grouping Rest) (node : Node Rest) : Bool :=
  g.run.getLast?.any fun last => numberFollows last node

def note (keyFn : Node Rest → Option String) (minRun : ℕ) (g : Grouping Rest) (node : Node Rest) :
    Grouping Rest :=
  let key := keyFn node
  let g := if key = none ∨ key ≠ g.runKey ∨ g.contiguous node = false then g.flush minRun else g
  match key with
  | none => { g with out := g.out ++ [.node node] }
  | some key => { g with run := g.run ++ [node], runKey := some key }

end Grouping

def groupTimelineNodes (keyFn : Node Rest → Option String) (minRun : ℕ) (nodes : List (Node Rest)) :
    List (Entry Rest) :=
  ((nodes.foldl (Grouping.note keyFn minRun) {}).flush minRun).out

def Entry.members : Entry Rest → List (Node Rest)
  | .node single => [single]
  | .group joined => joined.members

/-- A group of nodes whose numbers follow one another, named by the first and the last. -/
structure Group.Consecutive (group : Group Rest) : Prop where
  ne_nil : group.members ≠ []
  follows : group.members.IsChain fun last node => numberFollows last node = true
  first : group.firstHop = group.members.head?.bind Node.firstHop
  last : group.lastHop = group.members.getLast?.bind Node.lastHop
  count : group.count = group.members.length

/-- What the grouping knows after some nodes. -/
structure Grouped (seen : List (Node Rest)) (g : Grouping Rest) : Prop where
  flatten : g.out.flatMap Entry.members ++ g.run = seen
  run : g.run.IsChain fun last node => numberFollows last node = true
  key : g.runKey ≠ none → g.run ≠ []
  groups : ∀ group, Entry.group group ∈ g.out → group.Consecutive

section Grouping

variable {seen : List (Node Rest)} {g : Grouping Rest} {keyFn : Node Rest → Option String}
  {minRun : ℕ}

theorem flatMap_map_node (nodes : List (Node Rest)) :
    (nodes.map Entry.node).flatMap Entry.members = nodes := by
  rw [List.flatMap_map]
  exact List.flatMap_singleton' nodes

theorem Grouped.flush (hg : Grouped seen g) :
    (g.flush minRun).run = [] ∧ Grouped seen (g.flush minRun) := by
  have hapart : Grouped seen ({ out := g.out ++ g.run.map .node } : Grouping Rest) :=
    { flatten := by rw [List.flatMap_append, flatMap_map_node, List.append_nil, hg.flatten]
      run := .nil
      key := fun hkey => absurd rfl hkey
      groups := fun group hmem => by
        obtain hold | hnew := List.mem_append.mp hmem
        · exact hg.groups group hold
        · obtain ⟨node, -, hnode⟩ := List.mem_map.mp hnew
          cases hnode }
  cases hkey : g.runKey with
  | none => simpa only [Grouping.flush, hkey, true_and] using hapart
  | some key =>
      simp only [Grouping.flush, hkey]
      split
      · refine ⟨rfl, ?_, .nil, fun hkey => absurd rfl hkey, fun group hmem => ?_⟩
        · rw [List.flatMap_append, List.append_nil, ← hg.flatten]
          exact congrArg _ (List.flatMap_singleton ..)
        · obtain hold | hnew := List.mem_append.mp hmem
          · exact hg.groups group hold
          · obtain rfl := Entry.group.inj (List.mem_singleton.mp hnew)
            exact ⟨hg.key (by rw [hkey]; simp), hg.run, rfl, rfl, rfl⟩
      · exact ⟨rfl, hapart⟩

/-- A node joins the run when its number follows, or begins a new one. -/
theorem Grouped.join (hg : Grouped seen g) {node : Node Rest} {key : String}
    (hlast : ∀ last, g.run.getLast? = some last → numberFollows last node = true) :
    Grouped (seen ++ [node]) { g with run := g.run ++ [node], runKey := some key } where
  flatten := by rw [← List.append_assoc, hg.flatten]
  run := by
    refine hg.run.append (.singleton node) ?_
    rintro last hmem next ⟨⟩
    exact hlast last hmem
  key _ := by simp
  groups := hg.groups

theorem Grouped.note (hg : Grouped seen g) (node : Node Rest) :
    Grouped (seen ++ [node]) (g.note keyFn minRun node) := by
  obtain ⟨hempty, hflushed⟩ := @Grouped.flush _ _ _ minRun hg
  simp only [Grouping.note]
  cases hkey : keyFn node with
  | none =>
      simp only [true_or, if_true]
      refine ⟨?_, ?_, ?_, fun group hmem => ?_⟩
      · have hflat := hflushed.flatten
        rw [hempty, List.append_nil] at hflat
        rw [hempty, List.flatMap_append, List.append_nil, hflat]
        exact congrArg _ (List.flatMap_singleton ..)
      · exact hflushed.run
      · exact hflushed.key
      · obtain hold | hnew := List.mem_append.mp hmem
        · exact hflushed.groups group hold
        · cases List.mem_singleton.mp hnew
  | some key =>
      by_cases hends : some key = none ∨ some key ≠ g.runKey ∨ g.contiguous node = false
      · rw [if_pos hends]
        exact hflushed.join fun last hlast => by simp [hempty] at hlast
      · rw [if_neg hends]
        refine hg.join fun last hlast => ?_
        simp only [not_or, Bool.not_eq_false] at hends
        simpa [Grouping.contiguous, hlast] using hends.2.2

theorem grouped_foldl (nodes : List (Node Rest)) :
    Grouped nodes (nodes.foldl (Grouping.note keyFn minRun) {}) := by
  induction nodes using List.reverseRecOn with
  | nil => exact ⟨rfl, .nil, fun hkey => absurd rfl hkey, fun group hmem => (nomatch hmem)⟩
  | append_singleton seen node ih =>
      rw [List.foldl_append]
      exact ih.note node

end Grouping

/-- Grouping loses no node, and a group covers consecutive numbers. -/
theorem groupTimelineNodes_spec (keyFn : Node Rest → Option String) (minRun : ℕ)
    (nodes : List (Node Rest)) :
    (groupTimelineNodes keyFn minRun nodes).flatMap Entry.members = nodes ∧
      ∀ group, Entry.group group ∈ groupTimelineNodes keyFn minRun nodes →
        group.Consecutive := by
  obtain ⟨hempty, hgrouped⟩ := @Grouped.flush _ _ _ minRun (@grouped_foldl _ keyFn minRun nodes)
  have hflat := hgrouped.flatten
  rw [hempty, List.append_nil] at hflat
  exact ⟨hflat, hgrouped.groups⟩

/-! ## The result -/

theorem map_some_hops (route : Route Hint Rest) :
    route.hops.map some = route.refs.map fun ref => route.heap[ref]? := by
  have hvalid : ∀ refs : List ℕ, (∀ ref ∈ refs, ref < route.heap.length) →
      (refs.filterMap fun ref => route.heap[ref]?).map some =
        refs.map fun ref => route.heap[ref]? := by
    intro refs hrefs
    induction refs with
    | nil => rfl
    | cons ref rest ih =>
        have hget := List.getElem?_eq_getElem (hrefs ref List.mem_cons_self)
        rw [List.filterMap_cons_some hget, List.map_cons, List.map_cons, hget,
          ih fun other hother => hrefs other (List.mem_cons_of_mem _ hother)]
  exact hvalid route.refs route.valid

/-- The references returned lead to the interpolated hops; the dicts of the caller stay. -/
theorem interpolateRouteRefs_spec (destinationGeo : Option Hint) (route : Route Hint Rest) :
    (∃ fresh, (interpolateRouteRefs destinationGeo route).1 = route.heap ++ fresh) ∧
      ((interpolateRouteRefs destinationGeo route).2.map fun ref =>
        (interpolateRouteRefs destinationGeo route).1[ref]?) =
          (interpolateRoute destinationGeo route.hops).map some := by
  have hvalid : ∀ ref ∈ route.refs.zipIdx, ref.1 < route.heap.length := fun ref href =>
    route.valid ref.1 (List.fst_mem_of_mem_zipIdx href)
  obtain ⟨hheap, -, hrefs⟩ :=
    rewrite_spec (replacement destinationGeo (numbered route.hops)) route.heap _ hvalid
  refine ⟨hheap, hrefs.trans (List.ext_getElem? fun index => ?_)⟩
  have hhop : route.hops[index]?.map some = route.refs[index]?.map fun ref => route.heap[ref]? := by
    rw [← List.getElem?_map, map_some_hops, List.getElem?_map]
  rw [List.getElem?_map, List.getElem?_map, getElem?_interpolateRoute, List.getElem?_zipIdx]
  cases href : route.refs[index]? with
  | none =>
      rw [href, Option.map_none, Option.map_eq_none_iff] at hhop
      rw [hhop]
      rfl
  | some ref =>
      rw [href, Option.map_some] at hhop
      obtain ⟨hop, hat, hget⟩ := Option.map_eq_some_iff.mp hhop
      rw [hat]
      simp [← hget]

/-- Interpolation keeps what was measured and lies between it; no later pass loses a hop. -/
theorem interpolation_invents_nothing (destinationGeo : Option Hint) (route : Route Hint Rest)
    (hincreasing : Increasing (numbered route.hops)) :
    let refs := interpolateRouteRefs destinationGeo route
    let result := interpolateRoute destinationGeo route.hops
    ((∃ fresh, refs.1 = route.heap ++ fresh) ∧
        (refs.2.map fun ref => refs.1[ref]?) = result.map some) ∧
      Interpolates destinationGeo route.hops result ∧
      interpolateRoute destinationGeo result = result ∧
      expandSequenceHops (collapseInterpolatedHops result) = result.map .hop ∧
      logicalHopCount (collapseInterpolatedHops result) = result.length ∧
      ∀ (NodeRest : Type) (keyFn : Node NodeRest → Option String) (minRun : ℕ)
        (nodes : List (Node NodeRest)),
        (groupTimelineNodes keyFn minRun nodes).flatMap Entry.members = nodes ∧
          ∀ group, Entry.group group ∈ groupTimelineNodes keyFn minRun nodes →
            group.Consecutive :=
  ⟨interpolateRouteRefs_spec destinationGeo route, interpolates destinationGeo hincreasing,
    interpolateRoute_idem destinationGeo hincreasing, expand_collapse _, logicalHopCount_collapse _,
    fun _ => groupTimelineNodes_spec⟩

/-- Two silent hops with a gap in the numbers between answers, and one behind them. -/
def gappedRoute : Route Unit Unit where
  heap :=
    [⟨some 1, .ok, .number 10, none, false, none, ()⟩,
      ⟨some 2, .timeout, .missing, none, false, none, ()⟩,
      ⟨some 4, .timeout, .missing, none, false, none, ()⟩,
      ⟨some 7, .partially, .dict (some 20) none none false, none, false, none, ()⟩,
      ⟨some 8, .timeout, .missing, none, false, none, ()⟩]
  refs := [0, 1, 2, 3, 4]
  valid := by decide

theorem interpolation_invents_nothing_gap :
    (interpolateRoute none gappedRoute.hops).map Hop.latencyMs =
        [.number 10, .dict (some (25 / 2)) none none true, .dict (some (35 / 2)) none none true,
          .dict (some 20) none none false, .missing] ∧
      Interpolates none gappedRoute.hops (interpolateRoute none gappedRoute.hops) := by
  have hincreasing : Increasing (numbered gappedRoute.hops) := by
    unfold Increasing
    decide
  exact ⟨by decide +kernel, (interpolation_invents_nothing none gappedRoute hincreasing).2.1⟩

end Justup.Geo.Interpolate
