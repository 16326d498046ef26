import Mathlib
import Justup.Geo.Chain
import Justup.Geo.HopRanges

/-!
# The measured path

Each point of the chain is linked to the next by what lies between them.  A merge
keeps the order and what is covered.  But the style of a link is that of the two
hops it joins, and the accuracy of a merged point that of all its hops.
-/

namespace Justup.Geo

open Store Lib.Runs

/-- The hop numbers in the note of the segment that leaves a point. -/
def Point.noted (point : Point) : List ℤ :=
  (point.segmentNote.getD []).flatMap fun range => hopsBetween range.1 range.2

/-- What a point and the segment that leaves it account for. -/
def Point.accounted (point : Point) : List ℤ :=
  hopsBetween point.firstHop point.lastHop ++ point.noted

/-- A hop number of a station at a place. -/
def Mapped (stations : List Station) (number : ℤ) (place : ℤ × ℤ) : Prop :=
  ∃ station ∈ stations, station.hop = number ∧ station.place = place

/-- The hops with the destination's address. -/
def occurrences (hops : List Hop) (destinationIp : Option Text) : ℕ :=
  hops.countP fun hop => isDestination destinationIp hop.ip

/-- The points claim no path that was not measured. -/
structure MeasuredPath (stations : List Station) (occurrences : ℕ) (points : List Point) :
    Prop where
  inOrder : points.IsChain fun point next => point.lastHop < next.firstHop
  noted : points.IsChain fun point next =>
    point.noted = hopsBetween (point.lastHop + 1) (next.firstHop - 1)
  covered : ∀ first ∈ points.head?, ∀ last ∈ points.getLast?,
    points.flatMap Point.accounted = hopsBetween first.firstHop last.lastHop
  atPlace : ∀ point ∈ points, ∀ number, point.Covers number → Mapped stations number point.key
  solid : points.IsChain fun point next => point.segmentToNext = some .solid →
    point.approximate = false ∧ next.approximate = false ∧ next.firstHop = point.lastHop + 1
  terminal : occurrences ≤ 1 → ∀ point ∈ points.dropLast, point.terminal = false

/-- Two precise hops that follow one another are in groups of precise hops only. -/
def PreciseGroups (stations : List Station) : Prop :=
  (groups stations).IsChain fun group next =>
    ∀ last ∈ group.getLast?, ∀ first ∈ next.head?,
      last.approximate = false → first.approximate = false → first.hop = last.hop + 1 →
        ∀ station ∈ group ++ next, station.approximate = false

/-- Only the last group is represented by the destination. -/
def DestinationLast (stations : List Station) : Prop :=
  ∀ station ∈ (representatives (groups stations)).dropLast, station.destination = false

/-- How a point is linked to the next one. -/
structure Linked (point next : Point) : Prop where
  hop : point.hop < next.hop
  segment : point.segmentToNext = some (if next.hop = point.hop + 1 ∧ point.approximate = false ∧
    next.approximate = false then .solid else .dashed)
  note : point.segmentNote =
    if next.hop = point.hop + 1 then none else some [(point.hop + 1, next.hop - 1)]

variable {lookups : Lookups} {destinationIp : Option Text} {destinationGeo : Option Location}
  {hops : List Hop}

/-- The tail waits for the next point: what was met since is skipped. -/
structure Waiting (tail : Point) (gap : Bool) (skipped : List ℤ) (reached : ℤ) : Prop where
  le : tail.hop ≤ reached
  segment : tail.segmentToNext = some .solid
  note : tail.segmentNote = none
  gap : gap = decide (tail.hop < reached)
  skipped : skipped = hopsBetween (tail.hop + 1) reached

/-- What holds of the walk after a hop. -/
structure WalkOk (walk : Walk) : Prop where
  linked : walk.points.IsChain Linked
  empty : walk.tail = none → walk.placed = []
  waiting : ∀ tail ∈ walk.tail, ∃ reached, walk.prevHop = some reached ∧
    Waiting tail walk.gap walk.skipped reached

/-- The tail that waited is linked to the point that comes next. -/
theorem Waiting.link {tail point : Point} {gap : Bool} {skipped : List ℤ}
    (hwaiting : Waiting tail gap skipped (point.hop - 1)) :
    Linked (tail.link gap point.approximate skipped) point := by
  obtain ⟨hle, hsegment, hnote, rfl, rfl⟩ := hwaiting
  by_cases hnext : point.hop = tail.hop + 1
  · refine ⟨?_, ?_, ?_⟩
    · change tail.hop < point.hop
      omega
    · simp only [Point.link, hsegment, hnext]
      cases tail.approximate <;> cases point.approximate <;> simp
    · simp [Point.link, hsegment, hnote, hnext, hopsBetween_of_lt]
  · have hlt : tail.hop < point.hop - 1 := by omega
    refine ⟨?_, ?_, ?_⟩
    · change tail.hop < point.hop
      omega
    · simp [Point.link, hnext, hlt]
    · have hempty : ¬ point.hop - 1 < tail.hop + 1 := by omega
      simp only [Point.link, hopsBetween_isEmpty, hempty, decide_false, hnext, if_false,
        Bool.false_eq_true]
      rw [hopRanges_hopsBetween (by omega)]

/-- A hop number after the last one: what lies between is skipped. -/
theorem Waiting.reach {walk : Walk} {tail : Point} {reached number : ℤ}
    (hwaiting : Waiting tail walk.gap walk.skipped reached) (hprev : walk.prevHop = some reached)
    (hlt : reached < number) :
    Waiting tail (walk.reach number).gap (walk.reach number).skipped (number - 1) := by
  obtain ⟨hle, hsegment, hnote, hgap, hskipped⟩ := hwaiting
  by_cases hnext : reached + 1 < number
  · have hreach : walk.reach number =
        { walk with
          gap := true
          skipped := walk.skipped ++ hopsBetween (reached + 1) (number - 1)
          prevHop := some number } := by
      simp [Walk.reach, hprev, hnext]
    rw [hreach]
    have hopen : tail.hop < number - 1 := by omega
    refine ⟨by omega, hsegment, hnote, by simp [hopen], ?_⟩
    simp only
    rw [hskipped, hopsBetween_append (by omega) (by omega)]
  · have hreach : walk.reach number = { walk with prevHop := some number } := by
      simp [Walk.reach, hprev, hnext]
    obtain rfl : number = reached + 1 := by omega
    rw [hreach, add_sub_cancel_right]
    exact ⟨hle, hsegment, hnote, hgap, hskipped⟩

theorem Waiting.skip {tail : Point} {gap : Bool} {skipped : List ℤ} {number : ℤ}
    (hwaiting : Waiting tail gap skipped (number - 1)) :
    Waiting tail true (skipped ++ [number]) number := by
  obtain ⟨hle, hsegment, hnote, _, rfl⟩ := hwaiting
  refine ⟨by omega, hsegment, hnote, ?_, ?_⟩
  · rw [eq_comm, decide_eq_true_eq]
    omega
  · have hconcat := @hopsBetween_concat (tail.hop + 1) (number - 1) (by omega)
    rwa [sub_add_cancel] at hconcat

theorem Walk.reach_eq (walk : Walk) (number : ℤ) :
    (walk.reach number).placed = walk.placed ∧ (walk.reach number).tail = walk.tail ∧
      (walk.reach number).prevHop = some number := by
  unfold Walk.reach
  split
  · exact ⟨rfl, rfl, rfl⟩
  · split
    · exact ⟨rfl, rfl, rfl⟩
    · exact ⟨rfl, rfl, rfl⟩

/-- A link changes neither the hop nor the accuracy of the tail. -/
theorem Linked.of_next {point tail : Point} (hlinked : Linked point tail) {other : Point}
    (hhop : other.hop = tail.hop) (happrox : other.approximate = tail.approximate) :
    Linked point other := by
  obtain ⟨hlt, hsegment, hnote⟩ := hlinked
  exact ⟨by rw [hhop]; exact hlt, by rw [hhop, happrox]; exact hsegment, by rw [hhop]; exact hnote⟩

/-- The last point of a chain may change what its links do not tell. -/
theorem isChain_linked_concat {placed : List Point} {tail other : Point}
    (hchain : (placed ++ [tail]).IsChain Linked) (hhop : other.hop = tail.hop)
    (happrox : other.approximate = tail.approximate) : (placed ++ [other]).IsChain Linked := by
  rw [List.isChain_append] at hchain ⊢
  refine ⟨hchain.1, .singleton other, fun last hlast next hnext => ?_⟩
  obtain rfl : other = next := by simpa using hnext
  exact (hchain.2.2 last hlast tail rfl).of_next hhop happrox

/-- The next point is linked to the chain. -/
theorem isChain_linked_place {walk : Walk} {point : Point}
    (hchain : walk.points.IsChain Linked)
    (hwaiting : ∀ tail ∈ walk.tail, Waiting tail walk.gap walk.skipped (point.hop - 1))
    (hempty : walk.tail = none → walk.placed = []) :
    (walk.linked point.approximate ++ [point]).IsChain Linked := by
  unfold Walk.linked
  unfold Walk.points at hchain
  cases htail : walk.tail with
  | none =>
      rw [hempty htail]
      exact .singleton point
  | some tail =>
      rw [htail] at hchain
      have hlinked := @isChain_linked_concat walk.placed tail
        (tail.link walk.gap point.approximate walk.skipped) hchain rfl rfl
      refine hlinked.append (.singleton point) fun last hlast next hnext => ?_
      obtain rfl : point = next := by simpa using hnext
      obtain rfl : tail.link walk.gap point.approximate walk.skipped = last := by simpa using hlast
      exact (hwaiting tail htail).link

/-- One turn of the loop keeps the chain linked. -/
theorem walkOk_walkHop {walk : Walk} {hop : Hop} (hok : WalkOk walk)
    (hlt : ∀ prev ∈ walk.prevHop, prev < hop.number) :
    WalkOk (walkHop lookups destinationIp destinationGeo walk hop) ∧
      (walkHop lookups destinationIp destinationGeo walk hop).prevHop = some hop.number := by
  obtain ⟨hplaced, htail, hprev⟩ := walk.reach_eq hop.number
  have hwaiting : ∀ tail ∈ walk.tail,
      Waiting tail (walk.reach hop.number).gap (walk.reach hop.number).skipped (hop.number - 1) := by
    intro tail hmem
    obtain ⟨reached, hreached, hwaiting⟩ := hok.waiting tail hmem
    exact hwaiting.reach hreached (hlt reached hreached)
  unfold walkHop
  cases hpoint : hopPoint lookups destinationIp destinationGeo hop with
  | none =>
      refine ⟨⟨?_, ?_, ?_⟩, hprev⟩
      · change ((walk.reach hop.number).points).IsChain Linked
        rw [Walk.points_reach]
        exact hok.linked
      · change (walk.reach hop.number).tail = none → (walk.reach hop.number).placed = []
        rw [htail, hplaced]
        exact hok.empty
      · change ∀ tail ∈ (walk.reach hop.number).tail, _
        rw [htail]
        exact fun tail hmem => ⟨hop.number, hprev, (hwaiting tail hmem).skip⟩
  | some point =>
      have hnumber := hop_of_hopPoint hpoint
      refine ⟨⟨?_, ?_, ?_⟩, hprev⟩
      · change ((walk.reach hop.number).linked point.approximate ++ [point]).IsChain Linked
        refine isChain_linked_place ?_ ?_ ?_
        · rw [Walk.points_reach]
          exact hok.linked
        · rw [htail, hnumber]
          exact hwaiting
        · rw [htail, hplaced]
          exact hok.empty
      · exact fun hnone => nomatch hnone
      · rintro tail hmem
        obtain rfl : point = tail := by simpa [Walk.place] using hmem
        refine ⟨hop.number, hprev, ?_⟩
        obtain ⟨_, loc, _, _, rfl⟩ := hopPoint_eq_some hpoint
        exact ⟨le_rfl, rfl, rfl, by simp [Walk.place, locatedPoint],
          (hopsBetween_of_lt (by simp [locatedPoint])).symm⟩

/-- The whole loop does; it ends at the last hop. -/
theorem walkOk_walk {walk : Walk} (hok : WalkOk walk) (hincreasing : Increasing hops)
    (hlt : ∀ prev ∈ walk.prevHop, ∀ hop ∈ hops, prev < hop.number) :
    WalkOk (hops.foldl (walkHop lookups destinationIp destinationGeo) walk) ∧
      (hops.foldl (walkHop lookups destinationIp destinationGeo) walk).prevHop =
        (hops.getLast?.map Hop.number).or walk.prevHop := by
  induction hops generalizing walk with
  | nil => exact ⟨hok, rfl⟩
  | cons hop rest ih =>
      obtain ⟨hhop, hrest⟩ := List.pairwise_cons.mp hincreasing
      obtain ⟨hokNext, hprev⟩ := @walkOk_walkHop lookups destinationIp destinationGeo walk hop hok
        fun prev hmem => hlt prev hmem hop List.mem_cons_self
      obtain ⟨hokRest, hlast⟩ := ih hokNext hrest (by
        rw [hprev]
        rintro prev ⟨⟩ next hnext
        exact hhop next hnext)
      refine ⟨hokRest, ?_⟩
      rw [List.foldl_cons, hlast, hprev]
      cases rest with
      | nil => rfl
      | cons next rest =>
          rw [List.getLast?_cons_cons, List.getLast?_eq_some_getLast (List.cons_ne_nil next rest)]
          rfl

theorem walkOk_nil : WalkOk {} where
  linked := .nil
  empty := fun _ => rfl
  waiting := fun _ htail => nomatch htail

/-- The last hop has the highest number. -/
theorem lastHop_eq (hincreasing : Increasing hops) {last : Hop} (hlast : hops.getLast? = some last) :
    (destinationDisposition hops destinationIp).1 = last.number := by
  have hmax : (hops.map Hop.number).max? = some last.number := by
    rw [List.max?_eq_some_iff]
    refine ⟨List.mem_map_of_mem (List.mem_of_getLast? hlast), ?_⟩
    intro number hnumber
    obtain ⟨hop, hhop, rfl⟩ := List.mem_map.mp hnumber
    obtain ⟨front, rfl⟩ := List.getLast?_eq_some_iff.mp hlast
    obtain hfront | hhop := List.mem_append.mp hhop
    · exact le_of_lt ((List.pairwise_append.mp hincreasing).2.2 hop hfront last
        (List.mem_singleton_self last))
    · rw [List.mem_singleton.mp hhop]
  simp [destinationDisposition, hmax]

theorem Point.finish_fields (point : Point) :
    (point.finish destinationIp).hop = point.hop ∧
      (point.finish destinationIp).approximate = point.approximate ∧
      (point.finish destinationIp).segmentNote = point.segmentNote := by
  unfold Point.finish
  split
  · exact ⟨rfl, rfl, rfl⟩
  · exact ⟨rfl, rfl, rfl⟩

/-- The end of the loop keeps the chain linked. -/
theorem isChain_linked_finish {walk : Walk} (hok : WalkOk walk) :
    ((walk.finish destinationIp).points).IsChain Linked ∧
      ∀ last ∈ (walk.finish destinationIp).points.getLast?, last.segmentNote = none := by
  have hlinked := hok.linked
  unfold Walk.points at hlinked
  unfold Walk.finish Walk.points
  cases htail : walk.tail with
  | none => simp [hok.empty htail]
  | some tail =>
      obtain ⟨hhop, happrox, hnote⟩ := @Point.finish_fields destinationIp tail
      obtain ⟨_, _, hwaiting⟩ := hok.waiting tail htail
      rw [htail] at hlinked
      refine ⟨isChain_linked_concat hlinked hhop happrox, fun last hlast => ?_⟩
      obtain rfl : tail.finish destinationIp = last := by simpa using hlast
      rw [hnote, hwaiting.note]

/-- The end of the loop changes nothing when the last point is not the destination. -/
theorem finish_of_not_destination {walk : Walk}
    (hnone : (walk.finish destinationIp).points.any Point.destination = false) :
    walk.finish destinationIp = walk := by
  unfold Walk.finish Walk.points at hnone
  unfold Walk.finish
  cases htail : walk.tail with
  | none => rw [Option.map_none, ← htail]
  | some tail =>
      have hmark : (tail.finish destinationIp).destination = false := by
        rw [htail] at hnone
        simpa using List.any_eq_false.mp hnone (tail.finish destinationIp) (by simp)
      have hfinish : tail.finish destinationIp = tail := by
        unfold Point.finish at hmark ⊢
        split at hmark
        · cases hmark
        · exact if_neg ‹_›
      rw [Option.map_some, hfinish, ← htail]

/-- Nothing leaves the chain unlinked. -/
theorem isChain_linked_chainPoints (hincreasing : Increasing hops) :
    (chainPoints lookups hops destinationIp destinationGeo).IsChain Linked ∧
      ∀ last ∈ (chainPoints lookups hops destinationIp destinationGeo).getLast?,
        last.segmentNote = none := by
  obtain ⟨hok, hprev⟩ := @walkOk_walk lookups destinationIp destinationGeo hops {} walkOk_nil
    hincreasing (fun prev hmem => nomatch hmem)
  simp only [chainPoints]
  cases hadded : addedDestination hops destinationIp destinationGeo
      ((hops.foldl (walkHop lookups destinationIp destinationGeo) {}).finish
        destinationIp).points with
  | none => exact isChain_linked_finish hok
  | some point =>
      obtain ⟨hsome, hnone, geo, _, _, rfl⟩ := addedDestination_eq_some hadded
      refine ⟨?_, by simp [destinationPoint]⟩
      simp only [finish_of_not_destination hnone]
      refine isChain_linked_place hok.linked ?_ hok.empty
      intro tail htail
      obtain ⟨reached, hreached, hwaiting⟩ := hok.waiting tail htail
      rw [hprev] at hreached
      cases hlast : hops.getLast? with
      | none => simp [hlast] at hreached
      | some last =>
          obtain rfl : last.number = reached := by simpa [hlast] using hreached
          have hhop : (destinationPoint hops destinationIp geo).hop - 1 = last.number := by
            simp [destinationPoint, lastHop_eq hincreasing hlast]
          rwa [hhop]

/-- How a point is drawn that stands for a run of linked hops. -/
structure DrawnFor (run : List Point) (point : Point) : Prop extends StandsFor run point where
  ne_nil : run ≠ []
  approximate : point.approximate = run.any Point.approximate
  segment : ∀ member ∈ run.getLast?, member.segmentToNext.isSome →
    point.segmentToNext = member.segmentToNext
  note : ∀ member ∈ run.getLast?, point.segmentNote = member.segmentNote
  terminal : point.terminal = point.destination

theorem standFor_links (point : Point) {run : List Point} (hlength : ¬ run.length ≤ 1) :
    (point.standFor run).segmentToNext =
        (run.getLast?.bind Point.segmentToNext).or point.segmentToNext ∧
      (point.standFor run).segmentNote =
        (run.getLast?.bind Point.segmentNote).or point.segmentNote := by
  unfold Point.standFor
  rw [if_neg hlength]
  simp only
  split
  · exact ⟨rfl, rfl⟩
  · exact ⟨rfl, rfl⟩

theorem standFor_approximate (point : Point) {run : List Point} (hlength : ¬ run.length ≤ 1) :
    (point.standFor run).approximate = (run.any Point.isApproximate || point.approximate) := by
  unfold Point.standFor
  rw [if_neg hlength]
  simp only
  cases hany : run.any Point.isApproximate with
  | true =>
      obtain ⟨member, hmember, happrox⟩ := List.any_eq_true.mp hany
      have hnonempty : ¬ (run.filter Point.isApproximate).isEmpty = true := by
        rw [List.isEmpty_iff]
        exact List.ne_nil_of_mem (List.mem_filter.mpr ⟨hmember, happrox⟩)
      rw [if_neg hnonempty]
      rfl
  | false =>
      have hempty : (run.filter Point.isApproximate).isEmpty = true := by
        rw [List.isEmpty_iff, List.filter_eq_nil_iff]
        exact List.any_eq_false.mp hany
      rw [if_pos hempty]
      rfl

theorem Point.Plain.isApproximate {point : Point} (hplain : point.Plain destinationIp) :
    point.isApproximate = point.approximate := by
  unfold Point.isApproximate
  cases happrox : point.approximate with
  | true => rfl
  | false =>
      rw [Bool.false_or, decide_eq_false_iff_not]
      intro hclass
      rw [hplain.approximate hclass] at happrox
      cases happrox

/-- The inner links of a run have no note. -/
theorem IsGroup.note {first : Point} {others : List Point} (hgroup : IsGroup (first :: others))
    (hlinked : (first :: others).IsChain Linked) :
    ∀ member ∈ first :: others,
      member = (first :: others).getLast (List.cons_ne_nil _ _) ∨ member.segmentNote = none := by
  have hfollows := hgroup.follows
  clear hgroup
  induction others generalizing first with
  | nil => simp
  | cons next rest ih =>
      obtain ⟨hnext, hrest⟩ := List.isChain_cons_cons.mp hfollows
      obtain ⟨hlink, hlinks⟩ := List.isChain_cons_cons.mp hlinked
      simp only [Geo.follows, Bool.and_eq_true, decide_eq_true_eq] at hnext
      intro member hmember
      obtain rfl | hmember := List.mem_cons.mp hmember
      · exact .inr (by rw [hlink.note, if_pos hnext.2])
      · rw [List.getLast_cons (List.cons_ne_nil next rest)]
        exact ih hlinks hrest member hmember

/-- Everything but the accuracy is that of the last member. -/
theorem standFor_leaving {run : List Point} {member last : Point} (hgroup : IsGroup run)
    (hlinked : run.IsChain Linked) (hmember : member ∈ run) (hlast : run.getLast? = some last) :
    (member.standFor run).segmentNote = last.segmentNote ∧
      (last.segmentToNext.isSome → (member.standFor run).segmentToNext = last.segmentToNext) := by
  obtain ⟨first, others, rfl⟩ := List.exists_cons_of_ne_nil hgroup.ne_nil
  cases others with
  | nil =>
      obtain rfl := List.mem_singleton.mp hmember
      obtain rfl : member = last := by simpa using hlast
      exact ⟨rfl, fun _ => rfl⟩
  | cons next rest =>
      obtain ⟨hsegment, hnote⟩ := standFor_links member
        (show ¬ (first :: next :: rest).length ≤ 1 by simp)
      rw [hsegment, hnote, hlast]
      refine ⟨?_, fun hsome => ?_⟩
      · rw [List.getLast?_eq_some_getLast (List.cons_ne_nil _ _), Option.some.injEq] at hlast
        obtain hmember | hnone := hgroup.note hlinked member hmember
        · rw [hmember, hlast]
          exact Option.or_self
        · rw [hnone]
          exact Option.or_none
      · obtain ⟨style, hstyle⟩ := Option.isSome_iff_exists.mp hsome
        rw [Option.bind_some, hstyle]
        rfl

/-- A merged point is approximate when one of its hops is. -/
theorem standFor_approximate_eq {run : List Point} {member : Point}
    (hplain : ∀ member ∈ run, member.Plain destinationIp) (hmember : member ∈ run) :
    (member.standFor run).approximate = run.any Point.approximate := by
  have hany : run.any Point.isApproximate = run.any Point.approximate := by
    rw [Bool.eq_iff_iff, List.any_eq_true, List.any_eq_true]
    refine exists_congr fun other => and_congr_right fun hother => ?_
    rw [(hplain other hother).isApproximate]
  by_cases hlength : run.length ≤ 1
  · obtain ⟨first, others, rfl⟩ := List.exists_cons_of_ne_nil (List.ne_nil_of_mem hmember)
    obtain rfl : others = [] := List.length_eq_zero_iff.mp (by simpa using hlength)
    obtain rfl := List.mem_singleton.mp hmember
    simp [Point.standFor]
  · rw [standFor_approximate member hlength, hany]
    cases happrox : member.approximate with
    | false => exact Bool.or_false _
    | true => rw [Bool.or_true, List.any_eq_true.mpr ⟨member, hmember, happrox⟩]

theorem drawnFor_standFor {run : List Point} {member : Point} (hgroup : IsGroup run)
    (hlinked : run.IsChain Linked) (hplain : ∀ member ∈ run, member.Plain destinationIp)
    (hmember : member ∈ run) : DrawnFor run (member.standFor run) where
  toStandsFor := standsFor_standFor hgroup hmember (hplain member hmember).hopRange
  ne_nil := hgroup.ne_nil
  approximate := standFor_approximate_eq hplain hmember
  segment := fun _ hlast => (standFor_leaving hgroup hlinked hmember hlast).2
  note := fun _ hlast => (standFor_leaving hgroup hlinked hmember hlast).1
  terminal := by
    obtain ⟨_, _, _, hdestination, hterminal⟩ := standFor_fields member run
    rw [hdestination, hterminal, (hplain member hmember).terminal]

theorem DrawnFor.withMapRadius {run : List Point} {point : Point} (hpoint : DrawnFor run point) :
    DrawnFor run point.withMapRadius := by
  have hstands := hpoint.toStandsFor.withMapRadius
  rw [point.withMapRadius_eq] at hstands ⊢
  exact ⟨hstands, hpoint.ne_nil, hpoint.approximate, hpoint.segment, hpoint.note, hpoint.terminal⟩

/-- The last hop of one run is linked to the first of the next. -/
def Between (run next : List Point) : Prop :=
  ∀ last ∈ run.getLast?, ∀ first ∈ next.head?, Linked last first

/-- Two points that follow one another on the map. -/
theorem DrawnFor.between {run next : List Point} {point other : Point} (hpoint : DrawnFor run point)
    (hother : DrawnFor next other) (hbetween : Between run next) :
    ∃ last first, run.getLast? = some last ∧ next.head? = some first ∧ Linked last first ∧
      point.lastHop = last.hop ∧ other.firstHop = first.hop ∧
      point.segmentToNext = last.segmentToNext ∧ point.segmentNote = last.segmentNote := by
  have hlast := List.getLast?_eq_some_getLast hpoint.ne_nil
  have hfirst := List.head?_eq_some_head hother.ne_nil
  have hlinked := hbetween _ hlast _ hfirst
  exact ⟨_, _, hlast, hfirst, hlinked, hpoint.last _ hlast, hother.first _ hfirst,
    hpoint.segment _ hlast (by rw [hlinked.segment]; rfl), hpoint.note _ hlast⟩

theorem Linked.noted {point next : Point} (hlinked : Linked point next) :
    point.noted = hopsBetween (point.hop + 1) (next.hop - 1) := by
  obtain ⟨hlt, _, hnote⟩ := hlinked
  unfold Point.noted
  rw [hnote]
  split
  · rw [hopsBetween_of_lt (by omega)]
    rfl
  · simp

theorem noted_of_segmentNote {point other : Point}
    (hnote : point.segmentNote = other.segmentNote) : point.noted = other.noted := by
  unfold Point.noted
  rw [hnote]

/-- Points and notes that follow one another leave no hop number out. -/
theorem flatMap_accounted {points : List Point} {first : Point}
    (hlast : ∀ last ∈ (first :: points).getLast?, last.noted = [])
    (hcovers : ∀ point ∈ first :: points, point.firstHop ≤ point.lastHop)
    (horder : (first :: points).IsChain fun point next => point.lastHop < next.firstHop)
    (hnoted : (first :: points).IsChain fun point next =>
      point.noted = hopsBetween (point.lastHop + 1) (next.firstHop - 1)) :
    first.firstHop ≤ ((first :: points).getLast (List.cons_ne_nil _ _)).lastHop ∧
      (first :: points).flatMap Point.accounted = hopsBetween first.firstHop
        ((first :: points).getLast (List.cons_ne_nil _ _)).lastHop := by
  induction points generalizing first with
  | nil =>
      have hnone := hlast first rfl
      exact ⟨hcovers first List.mem_cons_self, by simp [Point.accounted, hnone]⟩
  | cons next rest ih =>
      obtain ⟨hlt, horder⟩ := List.isChain_cons_cons.mp horder
      obtain ⟨hnote, hnoted⟩ := List.isChain_cons_cons.mp hnoted
      obtain ⟨hle, hrest⟩ := ih (by simpa using hlast)
        (fun point hpoint => hcovers point (List.mem_cons_of_mem _ hpoint)) horder hnoted
      have hfirst := hcovers first List.mem_cons_self
      rw [List.getLast_cons (List.cons_ne_nil next rest), List.flatMap_cons, hrest]
      refine ⟨by omega, ?_⟩
      unfold Point.accounted
      rw [hnote, hopsBetween_append (by omega) (by omega)]
      have happend := @hopsBetween_append first.firstHop (next.firstHop - 1)
        ((next :: rest).getLast (List.cons_ne_nil next rest)).lastHop (by omega) (by omega)
      rwa [sub_add_cancel] at happend

/-- The points of the map, and the runs of linked hops that they stand for. -/
theorem forall₂_drawnFor (hincreasing : Increasing hops) (hhops : hops ≠ []) :
    List.Forall₂ DrawnFor
        (mergedRuns (chainPoints lookups hops destinationIp (mapLocation lookups destinationGeo)))
        (mtrHopsToGeoPoints lookups hops destinationIp destinationGeo) ∧
      (mergedRuns (chainPoints lookups hops destinationIp
        (mapLocation lookups destinationGeo))).IsChain Between := by
  set points := chainPoints lookups hops destinationIp (mapLocation lookups destinationGeo)
    with hpoints
  have hmerging := merging_mergedRuns points
  have hchain : (mergedRuns points).flatten.IsChain Linked := by
    rw [hmerging.flatten]
    exact (isChain_linked_chainPoints hincreasing).1
  rw [List.isChain_flatten fun hnil => (hmerging.isGroup hnil).ne_nil rfl] at hchain
  refine ⟨forall₂_mtrHopsToGeoPoints hhops fun run hrun hgroup hplain member hmember => ?_, hchain.2⟩
  exact (drawnFor_standFor hgroup (hchain.1 run hrun) hplain hmember).withMapRadius

/-- A solid segment joins precise points, exactly when the groups of its ends are precise. -/
theorem solid_iff {run next : List Point} {point other : Point} (hpoint : DrawnFor run point)
    (hother : DrawnFor next other) (hbetween : Between run next) :
    (∀ last ∈ (run.map Point.station).getLast?, ∀ first ∈ (next.map Point.station).head?,
        last.approximate = false → first.approximate = false → first.hop = last.hop + 1 →
          ∀ station ∈ run.map Point.station ++ next.map Point.station,
            station.approximate = false) ↔
      (point.segmentToNext = some .solid →
        point.approximate = false ∧ other.approximate = false ∧
          other.firstHop = point.lastHop + 1) := by
  obtain ⟨last, first, hlast, hfirst, hlinked, hlastHop, hfirstHop, hsegment, _⟩ :=
    hpoint.between hother hbetween
  rw [hsegment, hlinked.segment, hlastHop, hfirstHop, hpoint.approximate, hother.approximate,
    List.getLast?_map, List.head?_map, hlast, hfirst]
  have hprecise : (∀ station ∈ run.map Point.station ++ next.map Point.station,
      station.approximate = false) ↔
      run.any Point.approximate = false ∧ next.any Point.approximate = false := by
    rw [List.any_eq_false, List.any_eq_false, List.forall_mem_append, List.forall_mem_map,
      List.forall_mem_map]
    simp only [Bool.not_eq_true]
    rfl
  simp only [Option.map_some, Option.mem_some_iff, forall_eq', hprecise]
  change (last.approximate = false → first.approximate = false → first.hop = last.hop + 1 → _) ↔ _
  by_cases hsolid : first.hop = last.hop + 1 ∧ last.approximate = false ∧ first.approximate = false
  · rw [if_pos hsolid]
    obtain ⟨hnext, hlastPrecise, hfirstPrecise⟩ := hsolid
    simp [hnext, hlastPrecise, hfirstPrecise]
  · rw [if_neg hsolid]
    refine iff_of_true (fun hlastPrecise hfirstPrecise hnext => ?_) (fun hdashed => nomatch hdashed)
    exact absurd ⟨hnext, hlastPrecise, hfirstPrecise⟩ hsolid

/-- The marks of the representatives, in the order of the map. -/
theorem map_destination (hhops : hops ≠ []) :
    (mtrHopsToGeoPoints lookups hops destinationIp destinationGeo).map Point.destination =
      (representatives (groups (stations lookups hops destinationIp
        (mapLocation lookups destinationGeo)))).map Station.destination :=
  map_mtrHopsToGeoPoints hhops (fun point => by rw [point.withMapRadius_eq]) fun point run =>
    (standFor_fields point run).2.2.2.1

/-- What the map covers, it covers at the place of a station. -/
theorem mapped_of_covers (hincreasing : Increasing hops) (hhops : hops ≠ []) {point : Point}
    (hpoint : point ∈ mtrHopsToGeoPoints lookups hops destinationIp destinationGeo) {number : ℤ}
    (hcovers : point.Covers number) :
    Mapped (stations lookups hops destinationIp (mapLocation lookups destinationGeo)) number
      point.key := by
  obtain ⟨run, hrun, hdrawn⟩ := exists_of_mem_forall₂
    (@forall₂_drawnFor lookups destinationIp destinationGeo hops hincreasing hhops).1 hpoint
  obtain ⟨member, hmember, rfl⟩ := (hdrawn.covers number).mp hcovers
  refine ⟨member.station, ?_, rfl, (hdrawn.place member hmember).symm⟩
  rw [← station_chainPoints, ← (merging_mergedRuns (chainPoints lookups hops destinationIp
    (mapLocation lookups destinationGeo))).flatten]
  exact List.mem_map_of_mem (List.mem_flatten_of_mem hrun hmember)

/-- The order and the notes of the points, whatever is merged. -/
theorem isChain_measured (hincreasing : Increasing hops) (hhops : hops ≠ []) :
    (mtrHopsToGeoPoints lookups hops destinationIp destinationGeo).IsChain
        (fun point next => point.lastHop < next.firstHop) ∧
      (mtrHopsToGeoPoints lookups hops destinationIp destinationGeo).IsChain
        fun point next => point.noted = hopsBetween (point.lastHop + 1) (next.firstHop - 1) := by
  obtain ⟨hdrawn, hbetween⟩ :=
    @forall₂_drawnFor lookups destinationIp destinationGeo hops hincreasing hhops
  constructor
  · refine isChain_of_forall₂ (fun run next point other hpoint hother hlink => ?_) hdrawn hbetween
    obtain ⟨last, first, _, _, hlinked, hlastHop, hfirstHop, _, _⟩ := hpoint.between hother hlink
    rw [hlastHop, hfirstHop]
    exact hlinked.hop
  · refine isChain_of_forall₂ (fun run next point other hpoint hother hlink => ?_) hdrawn hbetween
    obtain ⟨last, first, _, _, hlinked, hlastHop, hfirstHop, _, hnote⟩ := hpoint.between hother hlink
    rw [hlastHop, hfirstHop, noted_of_segmentNote hnote]
    exact hlinked.noted

/-- Every hop number from the first to the last point is accounted for once. -/
theorem flatMap_accounted_mtrHopsToGeoPoints (hincreasing : Increasing hops) (hhops : hops ≠ [])
    {first last : Point}
    (hfirst : (mtrHopsToGeoPoints lookups hops destinationIp destinationGeo).head? = some first)
    (hlast : (mtrHopsToGeoPoints lookups hops destinationIp destinationGeo).getLast? = some last) :
    (mtrHopsToGeoPoints lookups hops destinationIp destinationGeo).flatMap Point.accounted =
      hopsBetween first.firstHop last.lastHop := by
  obtain ⟨horder, hnoted⟩ :=
    @isChain_measured lookups destinationIp destinationGeo hops hincreasing hhops
  obtain ⟨hdrawn, _⟩ := @forall₂_drawnFor lookups destinationIp destinationGeo hops hincreasing hhops
  have hcovers : ∀ point ∈ mtrHopsToGeoPoints lookups hops destinationIp destinationGeo,
      point.firstHop ≤ point.lastHop := by
    intro point hpoint
    obtain ⟨run, _, hrun⟩ := exists_of_mem_forall₂ hdrawn hpoint
    have hmember := (hrun.covers _).mpr ⟨run.head hrun.ne_nil, List.head_mem hrun.ne_nil, rfl⟩
    exact hmember.1.trans hmember.2
  have hnone : ∀ point ∈ (mtrHopsToGeoPoints lookups hops destinationIp destinationGeo).getLast?,
      point.noted = [] := by
    intro point hpoint
    obtain ⟨run, hrun, hstands⟩ := getLast?_of_forall₂ hdrawn hpoint
    have hmember := List.getLast?_eq_some_getLast hstands.ne_nil
    obtain ⟨front, hfront⟩ := List.getLast?_eq_some_iff.mp hrun
    have hflatten := (merging_mergedRuns (chainPoints lookups hops destinationIp
      (mapLocation lookups destinationGeo))).flatten
    rw [hfront, List.flatten_concat] at hflatten
    have hlastMember := (@isChain_linked_chainPoints lookups destinationIp
      (mapLocation lookups destinationGeo) hops hincreasing).2
    rw [← hflatten, List.getLast?_append, hmember] at hlastMember
    unfold Point.noted
    rw [hstands.note _ hmember, hlastMember _ rfl]
    rfl
  generalize mtrHopsToGeoPoints lookups hops destinationIp destinationGeo = points at *
  obtain ⟨rest, rfl⟩ := List.head?_eq_some_iff.mp hfirst
  rw [List.getLast?_eq_some_getLast (List.cons_ne_nil first rest), Option.some.injEq] at hlast
  rw [← hlast]
  exact (flatMap_accounted hnone hcovers horder hnoted).2

/-- The path on the map is measured, exactly when the merged hops are alike and the destination
is the last point. -/
theorem map_claims_only_the_measured_path_iff (hincreasing : Increasing hops) :
    MeasuredPath (stations lookups hops destinationIp (mapLocation lookups destinationGeo))
        (occurrences hops destinationIp)
        (mtrHopsToGeoPoints lookups hops destinationIp destinationGeo) ↔
      hops = [] ∨
        PreciseGroups (stations lookups hops destinationIp (mapLocation lookups destinationGeo)) ∧
          (occurrences hops destinationIp ≤ 1 →
            DestinationLast
              (stations lookups hops destinationIp (mapLocation lookups destinationGeo))) := by
  by_cases hhops : hops = []
  · subst hhops
    refine iff_of_true ⟨.nil, .nil, ?_, ?_, .nil, ?_⟩ (.inl rfl)
    · simp [mtrHopsToGeoPoints]
    · simp [mtrHopsToGeoPoints]
    · simp [mtrHopsToGeoPoints]
  rw [or_iff_right hhops]
  obtain ⟨hdrawn, hbetween⟩ :=
    @forall₂_drawnFor lookups destinationIp destinationGeo hops hincreasing hhops
  obtain ⟨horder, hnoted⟩ :=
    @isChain_measured lookups destinationIp destinationGeo hops hincreasing hhops
  have hsolid : PreciseGroups (stations lookups hops destinationIp
      (mapLocation lookups destinationGeo)) ↔
        (mtrHopsToGeoPoints lookups hops destinationIp destinationGeo).IsChain fun point next =>
          point.segmentToNext = some .solid → point.approximate = false ∧
            next.approximate = false ∧ next.firstHop = point.lastHop + 1 := by
    unfold PreciseGroups
    rw [← station_chainPoints, ← station_mergedRuns, List.isChain_map]
    exact @isChain_iff_of_forall₂ _ _ Between _ _ DrawnFor
      (fun _ _ _ _ hpoint hother hlink => solid_iff hpoint hother hlink) _ _ hdrawn hbetween
  have hterminal : DestinationLast (stations lookups hops destinationIp
      (mapLocation lookups destinationGeo)) ↔
        ∀ point ∈ (mtrHopsToGeoPoints lookups hops destinationIp destinationGeo).dropLast,
          point.terminal = false := by
    have hmarks := congrArg List.dropLast
      (@map_destination lookups destinationIp destinationGeo hops hhops)
    rw [← List.map_dropLast, ← List.map_dropLast] at hmarks
    have hterminal : ∀ point ∈
        (mtrHopsToGeoPoints lookups hops destinationIp destinationGeo).dropLast,
        point.terminal = point.destination := fun point hpoint =>
      (exists_of_mem_forall₂ hdrawn (List.mem_of_mem_dropLast hpoint)).elim
        fun _ hrun => hrun.2.terminal
    have hnone : (∀ mark ∈ (mtrHopsToGeoPoints lookups hops destinationIp
          destinationGeo).dropLast.map Point.destination, mark = false) ↔
        ∀ mark ∈ (representatives (groups (stations lookups hops destinationIp
          (mapLocation lookups destinationGeo)))).dropLast.map Station.destination,
          mark = false := by rw [hmarks]
    rw [List.forall_mem_map, List.forall_mem_map] at hnone
    unfold DestinationLast
    rw [← hnone]
    exact forall₂_congr fun point hpoint => by rw [hterminal point hpoint]
  rw [hsolid, hterminal]
  constructor
  · intro hpath
    exact ⟨hpath.solid, hpath.terminal⟩
  · rintro ⟨hpath, hlast⟩
    exact {
      inOrder := horder
      noted := hnoted
      covered := fun first hfirst last hlast =>
        flatMap_accounted_mtrHopsToGeoPoints hincreasing hhops hfirst hlast
      atPlace := fun point hpoint number => mapped_of_covers hincreasing hhops hpoint
      solid := hpath
      terminal := hlast }

namespace SamplePath

def paris : Location where
  lat := some (.number 48)
  lon := some (.number 2)
  city := some "Paris".toList
  confidence := some .hostname

def berlin : Location where
  lat := some (.number 52)
  lon := some (.number 13)
  city := some "Berlin".toList
  positionCity := some "Berlin".toList
  confidence := some .hostname

/-- The same coordinates, but not evidenced. -/
def aroundBerlin : Location := { berlin with accuracyClass := some .approximate }

def toBerlin : Lookups where
  geolocate := fun ip _ => if ip = some "198.51.100.1".toList then some paris else some berlin
  publicIp := fun _ => true
  countryCenter := fun _ => none

def target : Option Text := some "203.0.113.9".toList

def threeHops : List Hop :=
  [{ number := 1, ip := some "198.51.100.1".toList }, { number := 2, ip := some "192.0.2.1".toList },
    { number := 3, ip := target }]

end SamplePath

open SamplePath in
/-- Three precise hops, the last two of them merged. -/
theorem map_claims_only_the_measured_path_threeHops :
    MeasuredPath (stations toBerlin threeHops target (mapLocation toBerlin (some berlin)))
      (occurrences threeHops target)
      (mtrHopsToGeoPoints toBerlin threeHops target (some berlin)) := by
  refine (map_claims_only_the_measured_path_iff (by unfold Increasing; decide)).mpr
    (.inr ⟨?_, fun _ => ?_⟩)
  · unfold PreciseGroups
    decide +kernel
  · unfold DestinationLast
    decide +kernel

open SamplePath in
/-- The destination is only known approximately, but the segment to it is solid. -/
theorem map_claims_a_path_to_an_estimate :
    ¬ ∀ (lookups : Lookups) (hops : List Hop) (destinationIp : Option Text)
        (destinationGeo : Option Location), Increasing hops →
      MeasuredPath (stations lookups hops destinationIp (mapLocation lookups destinationGeo))
        (occurrences hops destinationIp)
        (mtrHopsToGeoPoints lookups hops destinationIp destinationGeo) := by
  intro hmeasured
  have hsolid := (hmeasured toBerlin threeHops target (some aroundBerlin)
    (by unfold Increasing; decide)).solid
  revert hsolid
  decide +kernel

end Justup.Geo
