import Justup.Lib.Merge
import Justup.Store.Housekeeping
import Justup.Store.JsonLine

/-!
# Availability samples

`combine_availability` folds the merged points of several metrics into one
sample for each check cycle; `count_availability` counts the samples.
-/

namespace Justup.Charts

open Justup.Lib Justup.Store

/-! ## The model -/

/-- One element of the merged stream. -/
structure Event where
  ts : ℤ
  metric : Text
  up : Bool
  deriving DecidableEq, Repr

/-- `_CYCLE_WINDOW`. -/
def cycleWindow : ℤ := 2 * second

/-- The variables of the fold while `start` is set. -/
structure Group where
  start : ℤ
  seen : List (Text × Bool)
  deriving DecidableEq, Repr

/-- The sample of a group: up only if all it has seen is up. -/
def Group.sample (group : Group) : ℤ × Bool := (group.start, group.seen.all Prod.snd)

/-- The loop of `combine_availability`. -/
def combineFrom : Option Group → List Event → List (ℤ × Bool)
  | none, [] => []
  | some group, [] => [group.sample]
  | none, event :: events => combineFrom (some ⟨event.ts, [(event.metric, event.up)]⟩) events
  | some group, event :: events =>
      if event.metric ∈ group.seen.map Prod.fst ∨ cycleWindow < event.ts - group.start then
        group.sample :: combineFrom (some ⟨event.ts, [(event.metric, event.up)]⟩) events
      else
        combineFrom (some { group with seen := group.seen ++ [(event.metric, event.up)] }) events

/-- `combine_availability`. -/
def combineAvailability (events : List Event) : List (ℤ × Bool) := combineFrom none events

section Counts

variable {V : Type*} (format : LineFormat V) (asBit : V → Option Bool)

/-- The points of a series in the window whose value is 0 or 1. -/
def binaryPoints (now : ℤ) (since until_ : Option ℤ) (s : Series) : List (Point Bool) :=
  (points format since until_ (iterSeriesLines .raw now since until_ s)).filterMap fun point =>
    (asBit point.value).map fun up => ⟨point.ts, up⟩

/-- `count_binary_points`. -/
def countBinaryPoints (now : ℤ) (since until_ : Option ℤ) (s : Series) : ℕ × ℕ :=
  if !seriesExists s then (0, 0)
  else
    let bits := binaryPoints format asBit now since until_ s
    (bits.countP Point.value, bits.length)

/-- `count_availability`: the number of samples that are up, and of all samples. -/
def countAvailability (now : ℤ) (since until_ : Option ℤ) (series : Text → Series)
    (metrics : List Text) : ℕ × ℕ :=
  match metrics with
  | [metric] => countBinaryPoints format asBit now since until_ (series metric)
  | metrics =>
      let streams := (metrics.filter fun metric => seriesExists (series metric)).map fun metric =>
        (binaryPoints format asBit now since until_ (series metric)).map fun point =>
          (⟨point.ts, metric, point.value⟩ : Event)
      let samples := combineAvailability (Merge.mergeAll Event.ts streams)
      (samples.countP Prod.snd, samples.length)

end Counts

/-! ## The fold over one cycle -/

/-- The times and metrics of some points, with the states they have. -/
def eventsOf (up : ℤ → Text → Bool) (block : List (ℤ × Text)) : List Event :=
  block.map fun point => ⟨point.1, point.2, up point.1 point.2⟩

def blockStart (block : List (ℤ × Text)) : ℤ := (block.head?.map Prod.fst).getD 0

/-- The group that holds the points of one cycle and no others. -/
def blockGroup (up : ℤ → Text → Bool) (block : List (ℤ × Text)) : Group :=
  ⟨blockStart block, block.map fun point => (point.2, up point.1 point.2)⟩

/-- The points of one cycle: each metric once, and none later than two seconds
after the first. -/
structure IsBlock (block : List (ℤ × Text)) : Prop where
  ne_nil : block ≠ []
  nodup : (block.map Prod.snd).Nodup
  close : ∀ point ∈ block, point.1 ≤ blockStart block + cycleWindow

/-- The first point of a cycle shows that it is not part of the cycle before. -/
def Parted (before after : List (ℤ × Text)) : Prop :=
  blockStart before + cycleWindow < blockStart after ∨
    ∃ first ∈ after.head?, first.2 ∈ before.map Prod.snd

theorem combineFrom_absorb {up : ℤ → Text → Bool} {group : Group} {rest : List (ℤ × Text)}
    (hfresh : ∀ point ∈ rest, point.2 ∉ group.seen.map Prod.fst)
    (hnodup : (rest.map Prod.snd).Nodup)
    (hclose : ∀ point ∈ rest, point.1 ≤ group.start + cycleWindow) (events : List Event) :
    combineFrom (some group) (eventsOf up rest ++ events) =
      combineFrom (some { group with
        seen := group.seen ++ rest.map fun point => (point.2, up point.1 point.2) }) events := by
  induction rest generalizing group with
  | nil => simp [eventsOf]
  | cons point rest ih =>
      obtain ⟨hpoint, hrest⟩ := List.nodup_cons.mp hnodup
      have hstay : ¬ (point.2 ∈ group.seen.map Prod.fst ∨ cycleWindow < point.1 - group.start) := by
        have := hclose point (List.mem_cons_self ..)
        rintro (hseen | hlate)
        · exact hfresh point (List.mem_cons_self ..) hseen
        · omega
      have hnext := @ih { group with seen := group.seen ++ [(point.2, up point.1 point.2)] }
        (fun other hother => ?_) hrest
        fun other hother => hclose other (List.mem_cons_of_mem _ hother)
      · rw [eventsOf, List.map_cons, List.cons_append, combineFrom, if_neg hstay]
        rw [eventsOf] at hnext
        rw [hnext, List.map_cons]
        simp
      · have hold := hfresh other (List.mem_cons_of_mem _ hother)
        have hne : other.2 ≠ point.2 := fun heq => hpoint (heq ▸ List.mem_map_of_mem hother)
        simpa using ⟨by simpa using hold, hne⟩

/-- A group that has been begun with the first point of a cycle takes the others. -/
theorem combineFrom_begun {up : ℤ → Text → Bool} {first : ℤ × Text} {rest : List (ℤ × Text)}
    (hblock : IsBlock (first :: rest)) (events : List Event) :
    combineFrom (some ⟨first.1, [(first.2, up first.1 first.2)]⟩) (eventsOf up rest ++ events) =
      combineFrom (some (blockGroup up (first :: rest))) events := by
  obtain ⟨hfirst, hrest⟩ := List.nodup_cons.mp hblock.nodup
  rw [combineFrom_absorb (fun point hpoint => ?_) hrest
    fun point hpoint => hblock.close point (List.mem_cons_of_mem _ hpoint)]
  · rfl
  · simp only [List.map_cons, List.map_nil, List.mem_singleton]
    exact fun heq => hfirst (heq ▸ List.mem_map_of_mem hpoint)

theorem combineFrom_none {up : ℤ → Text → Bool} {block : List (ℤ × Text)} (hblock : IsBlock block)
    (events : List Event) :
    combineFrom none (eventsOf up block ++ events) =
      combineFrom (some (blockGroup up block)) events := by
  obtain ⟨first, rest, rfl⟩ := List.exists_cons_of_ne_nil hblock.ne_nil
  exact combineFrom_begun hblock events

/-- A cycle that parts from the one before closes its group. -/
theorem combineFrom_parted {up : ℤ → Text → Bool} {before after : List (ℤ × Text)}
    (hafter : IsBlock after) (hparted : Parted before after) (events : List Event) :
    combineFrom (some (blockGroup up before)) (eventsOf up after ++ events) =
      (blockGroup up before).sample :: combineFrom (some (blockGroup up after)) events := by
  obtain ⟨first, rest, rfl⟩ := List.exists_cons_of_ne_nil hafter.ne_nil
  have hclose : first.2 ∈ (blockGroup up before).seen.map Prod.fst ∨
      cycleWindow < first.1 - (blockGroup up before).start := by
    rcases hparted with hlate | ⟨_, ⟨⟩, hseen⟩
    · refine Or.inr ?_
      change blockStart before + cycleWindow < first.1 at hlate
      change cycleWindow < first.1 - blockStart before
      omega
    · exact Or.inl (by simpa [blockGroup] using hseen)
  rw [← combineFrom_begun hafter events]
  change combineFrom (some (blockGroup up before))
    (⟨first.1, first.2, up first.1 first.2⟩ :: (eventsOf up rest ++ events)) = _
  rw [combineFrom, if_pos hclose]

/-- Whatever follows, the next sample is that of the open group, and it is up only
if all that has been seen is up. -/
theorem combineFrom_head (group : Group) (events : List Event) :
    ∃ up samples, combineFrom (some group) events = (group.start, up) :: samples ∧
      (up = true → group.seen.all Prod.snd = true) := by
  induction events generalizing group with
  | nil => exact ⟨_, [], rfl, id⟩
  | cons event events ih =>
      rw [combineFrom]
      split
      · exact ⟨_, _, rfl, id⟩
      · obtain ⟨up, samples, heq, hup⟩ := ih { group with
          seen := group.seen ++ [(event.metric, event.up)] }
        refine ⟨up, samples, heq, fun htrue => ?_⟩
        have hall := hup htrue
        rw [List.all_append, Bool.and_eq_true] at hall
        exact hall.1

/-- The first point of a cycle that does not part from the one before is counted
in the sample of that one. -/
theorem combineFrom_not_parted {up : ℤ → Text → Bool} {before : List (ℤ × Text)}
    {first : ℤ × Text} {rest : List (ℤ × Text)} (hparted : ¬ Parted before (first :: rest))
    (hdown : up first.1 first.2 = false) (events : List Event) :
    ∃ samples, combineFrom (some (blockGroup up before)) (eventsOf up (first :: rest) ++ events) =
      (blockStart before, false) :: samples := by
  have hstay : ¬ (first.2 ∈ (blockGroup up before).seen.map Prod.fst ∨
      cycleWindow < first.1 - (blockGroup up before).start) := by
    rintro (hseen | hlate)
    · exact hparted (Or.inr ⟨first, rfl, by simpa [blockGroup] using hseen⟩)
    · refine hparted (Or.inl ?_)
      change blockStart before + cycleWindow < first.1
      change cycleWindow < first.1 - blockStart before at hlate
      omega
  obtain ⟨sample, samples, heq, hsample⟩ := combineFrom_head { blockGroup up before with
    seen := (blockGroup up before).seen ++ [(first.2, up first.1 first.2)] }
      (eventsOf up rest ++ events)
  refine ⟨samples, ?_⟩
  change combineFrom (some (blockGroup up before))
    (⟨first.1, first.2, up first.1 first.2⟩ :: (eventsOf up rest ++ events)) = _
  rw [combineFrom, if_neg hstay, heq]
  cases sample with
  | false => rfl
  | true =>
      have hall := hsample rfl
      simp [hdown] at hall

/-- The samples of some cycles. -/
def samplesOf (up : ℤ → Text → Bool) (blocks : List (List (ℤ × Text))) : List (ℤ × Bool) :=
  blocks.map fun block => (blockGroup up block).sample

/-- Every cycle has its own sample, whatever the states, if and only if every
cycle parts from the one before. -/
theorem combineFrom_eq_samplesOf_iff {block : List (ℤ × Text)} {blocks : List (List (ℤ × Text))}
    (hblocks : ∀ other ∈ blocks, IsBlock other) :
    (∀ up, combineFrom (some (blockGroup up block)) (eventsOf up blocks.flatten) =
        samplesOf up (block :: blocks)) ↔
      (block :: blocks).IsChain Parted := by
  induction blocks generalizing block with
  | nil => simp [samplesOf, eventsOf, combineFrom]
  | cons next blocks ih =>
      have hnext := hblocks next (List.mem_cons_self ..)
      have hsplit : ∀ up, eventsOf up (next :: blocks).flatten =
          eventsOf up next ++ eventsOf up blocks.flatten := fun up => by
        rw [eventsOf, List.flatten_cons, List.map_append]
        rfl
      rw [List.isChain_cons_cons,
        ← ih fun other hother => hblocks other (List.mem_cons_of_mem _ hother)]
      constructor
      · intro hall
        have hparted : Parted block next := by
          by_contra hparted
          obtain ⟨first, rest, rfl⟩ := List.exists_cons_of_ne_nil hnext.ne_nil
          -- only the first point of the next cycle is down
          set up : ℤ → Text → Bool := fun ts metric => decide ((ts, metric) ≠ first) with hup
          have hdown : up first.1 first.2 = false := by simp [hup]
          obtain ⟨samples, heq⟩ := combineFrom_not_parted hparted hdown (eventsOf up blocks.flatten)
          have hsame := hall up
          rw [hsplit, heq] at hsame
          have hsample := (List.cons.inj hsame).1
          have hseen : (blockGroup up block).seen.all Prod.snd = true := by
            rw [List.all_eq_true]
            intro entry hentry
            obtain ⟨point, hpoint, rfl⟩ := List.mem_map.mp hentry
            refine decide_eq_true fun heq => hparted (Or.inr ⟨first, rfl, ?_⟩)
            rw [← heq]
            exact List.mem_map_of_mem hpoint
          have hbit : false = (blockGroup up block).seen.all Prod.snd := congrArg Prod.snd hsample
          rw [hseen] at hbit
          exact Bool.false_ne_true hbit
        refine ⟨hparted, fun up => ?_⟩
        have hsame := hall up
        rw [hsplit, combineFrom_parted hnext hparted] at hsame
        exact (List.cons.inj hsame).2
      · rintro ⟨hparted, hrest⟩ up
        rw [hsplit, combineFrom_parted hnext hparted, hrest up]
        rfl

theorem combineAvailability_eq_samplesOf_iff {blocks : List (List (ℤ × Text))}
    (hblocks : ∀ block ∈ blocks, IsBlock block) :
    (∀ up, combineAvailability (eventsOf up blocks.flatten) = samplesOf up blocks) ↔
      blocks.IsChain Parted := by
  cases blocks with
  | nil => simp [combineAvailability, combineFrom, eventsOf, samplesOf]
  | cons block blocks =>
      rw [← combineFrom_eq_samplesOf_iff
        fun other hother => hblocks other (List.mem_cons_of_mem _ hother)]
      have hsplit : ∀ up, combineAvailability (eventsOf up (block :: blocks).flatten) =
          combineFrom (some (blockGroup up block)) (eventsOf up blocks.flatten) := fun up => by
        rw [← combineFrom_none (hblocks block (List.mem_cons_self ..)), combineAvailability,
          eventsOf, List.flatten_cons, List.map_append]
        rfl
      simp only [hsplit]

end Justup.Charts
