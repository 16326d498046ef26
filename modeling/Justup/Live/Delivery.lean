import Justup.Live.EventBus

/-!
# Live events are delivered or replaced by a resync

Every event that was published after a client subscribed and that the client may
see is either with the client, or replaced by a resync, or on its way: handed to
the loop, or dropped under a lost flag that the next delivery takes.
-/

namespace Justup.Live

open Lib.Transition

variable {D : Type*}

def Returned.item? : Returned D → Option (Nat × LiveEvent D)
  | .resync _ => none
  | .event item => some item

def Callback.item? : Callback D → Option (Nat × LiveEvent D)
  | .deliver item => some item
  | .closeNow => none

/-! ## One subscription -/

namespace Subscription

def returnedItems (sub : Subscription D) : List (Nat × LiveEvent D) :=
  sub.returned.filterMap Returned.item?

/-- The `k`-th event was returned or is in the buffer, or a resync is pending or was
returned after the event was published. -/
def Holds (sub : Subscription D) (k : Nat) : Prop :=
  (∃ event, Returned.event (k, event) ∈ sub.returned) ∨ (∃ event, (k, event) ∈ sub.items) ∨
    sub.resync = true ∨ ∃ published, Returned.resync published ∈ sub.returned ∧ k < published

/-- The buffer is bounded, what was returned, what is buffered and what is on its way
follow each other in the order of publication, and all of it may be seen. -/
structure Sound (published : List (LiveEvent D)) (flight : List (Nat × LiveEvent D))
    (sub : Subscription D) : Prop where
  bounded : sub.items.length ≤ sub.size
  ordered : ((sub.returnedItems ++ sub.items ++ flight).map Prod.fst).Pairwise (· < ·)
  genuine : ∀ item ∈ sub.returnedItems ++ sub.items,
    published[item.1]? = some item.2 ∧ item.2.visibleTo sub.userId sub.isAdmin = true

variable {sub : Subscription D} {published : List (LiveEvent D)}
variable {flight rest : List (Nat × LiveEvent D)} {item : Nat × LiveEvent D}

/-- A buffer that is emptied. -/
theorem Sound.emptied (hsound : sub.Sound published flight) (resync wakeup closed : Bool) :
    Sound published flight
      { sub with items := [], resync := resync, wakeup := wakeup, closed := closed } where
  bounded := Nat.zero_le _
  ordered := by
    refine hsound.ordered.sublist (List.Sublist.map _ ?_)
    simp [returnedItems]
  genuine other hother := by
    refine hsound.genuine other ?_
    simp only [List.append_nil] at hother
    exact List.mem_append_left _ hother

/-- What is on its way may arrive without being seen. -/
theorem Sound.skip (hsound : sub.Sound published (item :: rest)) : sub.Sound published rest where
  bounded := hsound.bounded
  ordered := hsound.ordered.sublist
    (((List.sublist_cons_self item rest).append_left _).map _)
  genuine := hsound.genuine

theorem Sound.forceResync (hsound : sub.Sound published flight) :
    sub.forceResync.Sound published flight := by
  unfold Subscription.forceResync
  split
  · exact hsound
  · exact hsound.emptied true true sub.closed

theorem Sound.offer (hsound : sub.Sound published (item :: rest))
    (hitem : published[item.1]? = some item.2)
    (hvisible : item.2.visibleTo sub.userId sub.isAdmin = true) :
    (sub.offer item).Sound published rest := by
  unfold Subscription.offer
  split
  · exact hsound.skip
  split
  · exact hsound.skip.emptied true true sub.closed
  next hroom =>
    refine ⟨?_, ?_, ?_⟩
    · simp only [List.length_append, List.length_singleton]
      omega
    · have hordered := hsound.ordered
      simpa [returnedItems] using hordered
    · intro other hother
      rw [← List.append_assoc] at hother
      rcases List.mem_append.mp hother with hold | hnew
      · exact hsound.genuine other hold
      · rw [List.mem_singleton.mp hnew]
        exact ⟨hitem, hvisible⟩

theorem Sound.deliver (hsound : sub.Sound published (item :: rest))
    (hitem : published[item.1]? = some item.2) (lost : Bool) :
    (sub.deliver item lost).Sound published rest := by
  obtain ⟨forced, hforced⟩ : ∃ forced, forced = if lost then sub.forceResync else sub := ⟨_, rfl⟩
  have hsoundForced : forced.Sound published (item :: rest) := by
    rw [hforced]
    split
    · exact hsound.forceResync
    · exact hsound
  rw [Subscription.deliver, ← hforced]
  by_cases hvisible : item.2.visibleTo forced.userId forced.isAdmin = true
  · rw [if_pos hvisible]
    exact hsoundForced.offer hitem hvisible
  · rw [if_neg hvisible]
    exact hsoundForced.skip

theorem Sound.next (hsound : sub.Sound published flight) :
    (sub.next published.length).2.Sound published flight := by
  unfold Subscription.next
  split
  · have hreturned : (sub.returned ++ [Returned.resync published.length]).filterMap Returned.item? =
        sub.returnedItems := by
      simp [returnedItems, Returned.item?]
    refine ⟨hsound.bounded, ?_, ?_⟩
    · rw [returnedItems, hreturned]
      exact hsound.ordered
    · rw [returnedItems, hreturned]
      exact hsound.genuine
  split
  next item rest hitems =>
    have hbounded := hsound.bounded
    refine ⟨?_, ?_, ?_⟩
    · rw [hitems] at hbounded
      exact Nat.le_of_succ_le hbounded
    · have hordered := hsound.ordered
      simpa [returnedItems, Returned.item?, hitems] using hordered
    · have hgenuine := hsound.genuine
      simpa [returnedItems, Returned.item?, hitems] using hgenuine
  · split <;> exact ⟨hsound.bounded, hsound.ordered, hsound.genuine⟩

/-- One more event is published; `flight'` may have it at its end. -/
theorem Sound.publish (hsound : sub.Sound published flight)
    (hflight : ∀ item ∈ flight, published[item.1]? = some item.2) (event : LiveEvent D) :
    sub.Sound (published ++ [event]) flight ∧
      sub.Sound (published ++ [event]) (flight ++ [(published.length, event)]) := by
  have hgenuine : ∀ item ∈ sub.returnedItems ++ sub.items,
      (published ++ [event])[item.1]? = some item.2 ∧
        item.2.visibleTo sub.userId sub.isAdmin = true := by
    intro item hitem
    obtain ⟨hpublished, hvisible⟩ := hsound.genuine item hitem
    exact ⟨List.getElem?_append_left (List.getElem?_eq_some_iff.mp hpublished).1 ▸ hpublished,
      hvisible⟩
  refine ⟨⟨hsound.bounded, hsound.ordered, hgenuine⟩, hsound.bounded, ?_, hgenuine⟩
  rw [← List.append_assoc, List.map_append, List.pairwise_append]
  refine ⟨hsound.ordered, List.pairwise_singleton _ _, ?_⟩
  intro k hk last hlast
  obtain ⟨item, hitem, rfl⟩ := List.mem_map.mp hk
  rw [List.mem_singleton.mp hlast]
  have hpublished : published[item.1]? = some item.2 := by
    rcases List.mem_append.mp hitem with hold | hnew
    · exact (hsound.genuine item hold).1
    · exact hflight item hnew
  exact (List.getElem?_eq_some_iff.mp hpublished).1

/-! ### What a subscription holds -/

theorem Holds.of_resync {k : Nat} (hresync : sub.resync = true) : sub.Holds k :=
  .inr (.inr (.inl hresync))

theorem forceResync_holds (hclosed : sub.closed = false) (k : Nat) : sub.forceResync.Holds k := by
  refine Holds.of_resync ?_
  simp [forceResync, hclosed]

/-- An offer leaves what is held, and adds the event that is offered. -/
theorem offer_holds (hclosed : sub.closed = false) {k : Nat}
    (hholds : sub.Holds k ∨ k = item.1) : (sub.offer item).Holds k := by
  unfold offer
  split
  next hpending =>
    refine Holds.of_resync ?_
    simpa [hclosed] using hpending
  split
  · exact Holds.of_resync rfl
  · rcases hholds with (hreturned | ⟨event, hitem⟩ | hresync | hafter) | rfl
    · exact .inl hreturned
    · exact .inr (.inl ⟨event, List.mem_append_left _ hitem⟩)
    · exact .inr (.inr (.inl hresync))
    · exact .inr (.inr (.inr hafter))
    · exact .inr (.inl ⟨item.2, List.mem_append_right _ (List.mem_singleton.mpr rfl)⟩)

theorem deliver_holds (hclosed : sub.closed = false) {lost : Bool} {k : Nat}
    (hholds : sub.Holds k ∨ lost = true ∨
      k = item.1 ∧ item.2.visibleTo sub.userId sub.isAdmin = true) :
    (sub.deliver item lost).Holds k := by
  unfold deliver
  dsimp only
  cases lost with
  | true =>
      have hforced := forceResync_holds hclosed k
      have hopen : sub.forceResync.closed = false := by simp [forceResync, hclosed]
      simp only [if_true]
      split
      · exact offer_holds hopen (.inl hforced)
      · exact hforced
  | false =>
      simp only [Bool.false_eq_true, if_false, false_or] at hholds ⊢
      split
      · exact offer_holds hclosed (hholds.imp_right And.left)
      next hhidden =>
        rcases hholds with hold | ⟨-, hvisible⟩
        · exact hold
        · exact absurd hvisible hhidden

theorem deliver_frame (item : Nat × LiveEvent D) (lost : Bool) (sub : Subscription D) :
    (sub.deliver item lost).closed = sub.closed ∧ (sub.deliver item lost).joined = sub.joined ∧
      (sub.deliver item lost).userId = sub.userId ∧
      (sub.deliver item lost).isAdmin = sub.isAdmin := by
  unfold deliver offer forceResync
  cases lost <;> cases hclosed : sub.closed <;> simp only [Bool.false_eq_true, if_false, if_true] <;>
    repeat' split <;> simp_all

theorem next_holds {count k : Nat} (hk : k < count) (hholds : sub.Holds k) :
    (sub.next count).2.Holds k := by
  unfold next
  split
  · exact .inr (.inr (.inr ⟨count, by simp, hk⟩))
  next hnone =>
    split
    next first rest hitems =>
      rcases hholds with ⟨event, hreturned⟩ | ⟨event, hitem⟩ | hresync | ⟨n, hafter, hlt⟩
      · exact .inl ⟨event, List.mem_append_left _ hreturned⟩
      · rw [hitems] at hitem
        rcases List.mem_cons.mp hitem with rfl | hitem
        · exact .inl ⟨event, by simp⟩
        · exact .inr (.inl ⟨event, hitem⟩)
      · exact absurd hresync hnone
      · exact .inr (.inr (.inr ⟨n, List.mem_append_left _ hafter, hlt⟩))
    · split
      · exact hholds
      · exact hholds

end Subscription

/-! ## The whole system -/

namespace System

/-- The events that were handed to the loop and did not reach the subscriptions yet. -/
def flight (system : System D) : List (Nat × LiveEvent D) :=
  (system.delivering.map Prod.fst).toList ++ system.callbacks.filterMap Callback.item?

/-- The deliveries that are scheduled on the loop. -/
def deliveries (system : System D) : List (Nat × LiveEvent D) :=
  system.callbacks.filterMap Callback.item?

/-- Every subscription is about to be told to resync, or the loop is gone. -/
def LostSoon (system : System D) : Prop :=
  system.bus.backlogLost = true ∨ (system.delivering.map Prod.snd) = some true ∨
    system.loopClosed = true

/-- What a client may see of what was published since it subscribed is with it,
replaced by a resync, or on its way. -/
def Covers (system : System D) (sub : Subscription D) : Prop :=
  sub.closed = false → ∀ k event, sub.joined ≤ k → system.published[k]? = some event →
    event.visibleTo sub.userId sub.isAdmin = true →
      sub.Holds k ∨ k ∈ system.flight.map Prod.fst ∨ system.LostSoon

structure Sound (system : System D) : Prop where
  counted : system.bus.pending = system.deliveries.length + system.reserved.length
  lost : system.bus.backlogLost = true → 0 < system.bus.pending ∨ system.loopClosed = true
  numbered : ∀ item ∈ system.flight, system.published[item.1]? = some item.2
  flight_ordered : (system.flight.map Prod.fst).Pairwise (· < ·)
  sound : ∀ sub ∈ system.subs, sub.Sound system.published system.flight
  covered : ∀ sub ∈ system.subs, system.Covers sub

variable {system later : System D}

/-- A step that publishes nothing, delivers nothing and touches no subscription. -/
theorem Sound.quiet (hsound : system.Sound)
    (hpending : later.bus.pending = later.deliveries.length + later.reserved.length)
    (hlost : later.bus.backlogLost = true → 0 < later.bus.pending ∨ later.loopClosed = true)
    (hpublished : later.published = system.published) (hflight : later.flight = system.flight)
    (hsubs : later.subs = system.subs) (hsoon : system.LostSoon → later.LostSoon) : later.Sound where
  counted := hpending
  lost := hlost
  numbered := by
    rw [hpublished, hflight]
    exact hsound.numbered
  flight_ordered := by
    rw [hflight]
    exact hsound.flight_ordered
  sound := by
    rw [hpublished, hflight, hsubs]
    exact hsound.sound
  covered sub hsub hclosed k event hjoined hevent hvisible := by
    rw [hsubs] at hsub
    rw [hpublished] at hevent
    rw [hflight]
    exact (hsound.covered sub hsub hclosed k event hjoined hevent hvisible).imp_right
      (Or.imp_right hsoon)

/-- A step that publishes one event: it is handed to the loop or it raises the flag. -/
theorem Sound.publish (hsound : system.Sound) (event : LiveEvent D)
    (hpending : later.bus.pending = later.deliveries.length + later.reserved.length)
    (hlost : later.bus.backlogLost = true → 0 < later.bus.pending ∨ later.loopClosed = true)
    (hpublished : later.published = system.published ++ [event])
    (hflight : later.flight = system.flight ∧ later.LostSoon ∨
      later.flight = system.flight ++ [(system.published.length, event)])
    (hsubs : later.subs = system.subs) (hsoon : system.LostSoon → later.LostSoon) : later.Sound where
  counted := hpending
  lost := hlost
  numbered := by
    have hold : ∀ item ∈ system.flight, later.published[item.1]? = some item.2 := by
      intro item hitem
      have hnumbered := hsound.numbered item hitem
      rw [hpublished, List.getElem?_append_left (List.getElem?_eq_some_iff.mp hnumbered).1]
      exact hnumbered
    intro item hitem
    rcases hflight with ⟨hsame, -⟩ | hnew
    · exact hold item (hsame ▸ hitem)
    · rw [hnew] at hitem
      rcases List.mem_append.mp hitem with hitem | hitem
      · exact hold item hitem
      · rw [List.mem_singleton.mp hitem, hpublished]
        simp
  flight_ordered := by
    rcases hflight with ⟨hsame, -⟩ | hnew
    · rw [hsame]
      exact hsound.flight_ordered
    · rw [hnew, List.map_append, List.pairwise_append]
      refine ⟨hsound.flight_ordered, List.pairwise_singleton _ _, ?_⟩
      intro k hk last hlast
      obtain ⟨item, hitem, rfl⟩ := List.mem_map.mp hk
      rw [List.mem_singleton.mp hlast]
      exact (List.getElem?_eq_some_iff.mp (hsound.numbered item hitem)).1
  sound sub hsub := by
    rw [hsubs] at hsub
    have hboth := (hsound.sound sub hsub).publish hsound.numbered event
    rw [hpublished]
    rcases hflight with ⟨hsame, -⟩ | hnew
    · rw [hsame]
      exact hboth.1
    · rw [hnew]
      exact hboth.2
  covered sub hsub hclosed k seen hjoined hseen hvisible := by
    rw [hsubs] at hsub
    rcases hflight with ⟨hsame, hdropped⟩ | hnew
    · exact .inr (.inr hdropped)
    · rw [hpublished] at hseen
      rw [hnew]
      by_cases hk : k < system.published.length
      · rw [List.getElem?_append_left hk] at hseen
        rcases hsound.covered sub hsub hclosed k seen hjoined hseen hvisible with
          hholds | hflying | hold
        · exact .inl hholds
        · refine .inr (.inl ?_)
          rw [List.map_append]
          exact List.mem_append_left _ hflying
        · exact .inr (.inr (hsoon hold))
      · have hlast : k = system.published.length := by
          have hlt := (List.getElem?_eq_some_iff.mp hseen).1
          simp only [List.length_append, List.length_singleton] at hlt
          omega
        refine .inr (.inl ?_)
        simp [hlast]

/-- A step of the loop that changes subscriptions only. -/
theorem Sound.change (hsound : system.Sound) (hbus : later.bus.pending = system.bus.pending)
    (hlost : later.bus.backlogLost = system.bus.backlogLost)
    (hrest : later.callbacks = system.callbacks ∧ later.reserved = system.reserved ∧
      later.delivering = system.delivering ∧ later.published = system.published ∧
      later.loopClosed = system.loopClosed)
    (hsubs : ∀ sub ∈ later.subs, sub.Sound system.published system.flight ∧ system.Covers sub) :
    later.Sound := by
  obtain ⟨hcallbacks, hreserved, hdelivering, hpublished, hloop⟩ := hrest
  have hflight : later.flight = system.flight := by rw [flight, flight, hdelivering, hcallbacks]
  have hsoon : later.LostSoon ↔ system.LostSoon := by
    rw [LostSoon, LostSoon, hlost, hdelivering, hloop]
  refine ⟨?_, ?_, ?_, ?_, ?_, ?_⟩
  · rw [hbus, hreserved, deliveries, hcallbacks]
    exact hsound.counted
  · rw [hbus, hlost, hloop]
    exact hsound.lost
  · rw [hpublished, hflight]
    exact hsound.numbered
  · rw [hflight]
    exact hsound.flight_ordered
  · intro sub hsub
    rw [hpublished, hflight]
    exact (hsubs sub hsub).1
  · intro sub hsub hclosed k event hjoined hevent hvisible
    rw [hpublished] at hevent
    rw [hflight, hsoon]
    exact (hsubs sub hsub).2 hclosed k event hjoined hevent hvisible

/-! ### The steps -/

theorem Covers.closed {sub : Subscription D} (hclosed : sub.closed = true) :
    system.Covers sub := by
  intro hopen
  rw [hclosed] at hopen
  cases hopen

theorem Covers.next {sub : Subscription D} (hcovers : system.Covers sub) :
    system.Covers (sub.next system.published.length).2 := by
  have hframe : ∀ n, (sub.next n).2.closed = sub.closed ∧ (sub.next n).2.joined = sub.joined ∧
      (sub.next n).2.userId = sub.userId ∧ (sub.next n).2.isAdmin = sub.isAdmin := by
    intro n
    unfold Subscription.next
    split
    · exact ⟨rfl, rfl, rfl, rfl⟩
    · split
      · exact ⟨rfl, rfl, rfl, rfl⟩
      · split <;> exact ⟨rfl, rfl, rfl, rfl⟩
  obtain ⟨hclosed, hjoined, huser, hadmin⟩ := hframe system.published.length
  intro hopen k event hk hevent hvisible
  rw [hclosed] at hopen
  rw [hjoined] at hk
  rw [huser, hadmin] at hvisible
  exact (hcovers hopen k event hk hevent hvisible).imp_left
    (Subscription.next_holds (List.getElem?_eq_some_iff.mp hevent).1)

/-- What holds of all subscriptions holds after one of them was changed. -/
theorem forall_mem_modify {α : Type*} {p : α → Prop} {f : α → α} {l : List α} (index : Nat)
    (hall : ∀ x ∈ l, p x) (hchange : ∀ x ∈ l, p (f x)) : ∀ x ∈ l.modify index f, p x := by
  intro x hx
  obtain ⟨i, hi, rfl⟩ := List.mem_iff_getElem.mp hx
  rw [List.length_modify] at hi
  rw [List.getElem_modify]
  split
  · exact hchange _ (List.getElem_mem hi)
  · exact hall _ (List.getElem_mem hi)

theorem length_eraseIdx_add_one {α : Type*} {l : List α} {index : Nat} {x : α}
    (hx : l[index]? = some x) : (l.eraseIdx index).length + 1 = l.length := by
  have hlt := (List.getElem?_eq_some_iff.mp hx).1
  rw [List.length_eraseIdx, if_pos hlt]
  omega

theorem Sound.reserve (hsound : system.Sound) (call : Nat) (event : LiveEvent D) :
    (system.reserve call event).Sound := by
  unfold System.reserve
  dsimp only
  split
  next hfull =>
    have hpending : 0 < system.bus.pending := Nat.lt_of_lt_of_le (by decide) hfull
    exact hsound.publish event hsound.counted (fun _ => .inl hpending) rfl (.inl ⟨rfl, .inl rfl⟩)
      rfl fun _ => .inl rfl
  · refine hsound.quiet ?_ (fun _ => .inl (Nat.succ_pos _)) rfl rfl rfl id
    have hcounted := hsound.counted
    simp only [List.length_append, List.length_singleton, deliveries] at hcounted ⊢
    omega

theorem Sound.schedule (hsound : system.Sound) {call : Nat} {event : LiveEvent D}
    (hcall : system.reserved[call]? = some event) : (system.schedule call event).Sound := by
  have hcounted := hsound.counted
  have hlength := length_eraseIdx_add_one hcall
  unfold System.schedule
  dsimp only
  split
  next hgone =>
    refine hsound.quiet ?_ (fun _ => .inr hgone) rfl rfl rfl id
    simp only [deliveries] at hcounted ⊢
    omega
  · refine hsound.publish event ?_ hsound.lost rfl (.inr ?_) rfl id
    · simp only [deliveries, List.filterMap_append, List.length_append] at hcounted ⊢
      simp only [List.filterMap_cons, Callback.item?, List.filterMap_nil, List.length_singleton]
      omega
    · simp [flight, Callback.item?]

theorem Sound.closeNow (hsound : system.Sound) : system.closeNow.Sound := by
  refine hsound.change rfl rfl ⟨rfl, rfl, rfl, rfl, rfl⟩ ?_
  intro sub hsub
  obtain ⟨old, hold, rfl⟩ := List.mem_map.mp hsub
  exact ⟨(hsound.sound old hold).emptied old.resync true true, Covers.closed rfl⟩

theorem Sound.runCallback (hsound : system.Sound) (hfree : system.loopFree = true)
    (hstep : system.runCallback = some later) : later.Sound := by
  have hcounted := hsound.counted
  have hidle : system.delivering = none := by
    simp only [loopFree, Bool.and_eq_true, Option.isNone_iff_eq_none] at hfree
    exact hfree.2
  unfold System.runCallback at hstep
  split at hstep
  · cases hstep
  next rest hcallbacks =>
    cases hstep
    have hrest : ({ system with callbacks := rest } : System D).Sound := by
      refine hsound.quiet ?_ hsound.lost rfl ?_ rfl id
      · simp only [deliveries, hcallbacks, List.filterMap_cons, Callback.item?] at hcounted ⊢
        exact hcounted
      · simp only [flight, hcallbacks, List.filterMap_cons, Callback.item?]
    exact hrest.closeNow
  next item rest hcallbacks =>
    cases hstep
    refine hsound.quiet ?_ (fun hflag => by cases hflag) rfl ?_ rfl ?_
    · simp only [deliveries, hcallbacks, List.filterMap_cons, Callback.item?,
        List.length_cons] at hcounted ⊢
      omega
    · simp [flight, hcallbacks, hidle, Callback.item?]
    · rintro (hlost | hdelivering | hgone)
      · exact .inr (.inl (by simp [hlost]))
      · rw [hidle] at hdelivering
        cases hdelivering
      · exact .inr (.inr hgone)

/-- A delivery reaches every subscription. -/
theorem Sound.fanOut (hsound : system.Sound) {item : Nat × LiveEvent D} {lost : Bool}
    (hdelivering : system.delivering = some (item, lost)) :
    ({ system with
        delivering := none
        subs := system.subs.map (Subscription.deliver item lost) } : System D).Sound := by
  have hflight : system.flight = item :: system.deliveries := by
    simp [flight, deliveries, hdelivering]
  have hnumbered := hsound.numbered item (by simp [hflight])
  have hordered := hsound.flight_ordered
  rw [hflight, List.map_cons, List.pairwise_cons] at hordered
  refine ⟨hsound.counted, hsound.lost, ?_, hordered.2, ?_, ?_⟩
  · intro other hother
    exact hsound.numbered other (hflight ▸ List.mem_cons_of_mem _ hother)
  · intro sub hsub
    obtain ⟨old, hold, rfl⟩ := List.mem_map.mp hsub
    have hold := hsound.sound old hold
    rw [hflight] at hold
    exact hold.deliver hnumbered lost
  · intro sub hsub
    obtain ⟨old, hold, rfl⟩ := List.mem_map.mp hsub
    intro hclosed k event hjoined hevent hvisible
    obtain ⟨hclosedEq, hjoinedEq, huser, hadmin⟩ := Subscription.deliver_frame item lost old
    rw [hclosedEq] at hclosed
    rw [hjoinedEq] at hjoined
    rw [huser, hadmin] at hvisible
    rcases hsound.covered old hold hclosed k event hjoined hevent hvisible with
      hholds | hflying | hsoon
    · exact .inl (Subscription.deliver_holds hclosed (.inl hholds))
    · rw [hflight, List.map_cons, List.mem_cons] at hflying
      rcases hflying with rfl | hlater
      · have hsame : item.2 = event := Option.some.inj (hnumbered.symm.trans hevent)
        exact .inl (Subscription.deliver_holds hclosed (.inr (.inr ⟨rfl, hsame ▸ hvisible⟩)))
      · exact .inr (.inl hlater)
    · rcases hsoon with hflag | hflag | hgone
      · exact .inr (.inr (.inl hflag))
      · have hlost : lost = true := by simpa [hdelivering] using hflag
        exact .inl (Subscription.deliver_holds hclosed (.inr (.inl hlost)))
      · exact .inr (.inr (.inr (.inr hgone)))

theorem Sound.subscribe (hsound : system.Sound) (userId : Int) (isAdmin : Bool) :
    (system.subscribe userId isAdmin).Sound := by
  unfold System.subscribe
  split
  · exact hsound
  refine hsound.change rfl rfl ⟨rfl, rfl, rfl, rfl, rfl⟩ ?_
  intro sub hsub
  rcases List.mem_append.mp hsub with hold | hnew
  · exact ⟨hsound.sound sub hold, hsound.covered sub hold⟩
  · rw [List.mem_singleton.mp hnew]
    refine ⟨⟨Nat.zero_le _, ?_, ?_⟩, ?_⟩
    · exact hsound.flight_ordered
    · intro item hitem
      cases hitem
    · intro _ k event hjoined hevent _
      exact absurd (List.getElem?_eq_some_iff.mp hevent).1 (Nat.not_lt.mpr hjoined)

theorem Sound.step {act : BusAct D} (hsound : system.Sound)
    (hstep : system.step act = some later) : later.Sound := by
  cases act with
  | start =>
      cases hstep
      exact hsound.quiet hsound.counted hsound.lost rfl rfl rfl id
  | publish event =>
      simp only [System.step] at hstep
      split at hstep <;> cases hstep
      · exact hsound
      · exact hsound.quiet hsound.counted hsound.lost rfl rfl rfl id
  | reserve call =>
      obtain ⟨event, -, rfl⟩ := Option.map_eq_some_iff.mp hstep
      exact hsound.reserve call event
  | schedule call =>
      obtain ⟨event, hcall, rfl⟩ := Option.map_eq_some_iff.mp hstep
      exact hsound.schedule hcall
  | runCallback =>
      simp only [System.step] at hstep
      split at hstep
      next hfree => exact hsound.runCallback hfree hstep
      · cases hstep
  | fanOut =>
      simp only [System.step] at hstep
      split at hstep
      · cases hstep
      next item lost hdelivering =>
        cases hstep
        exact hsound.fanOut hdelivering
  | subscribe userId isAdmin =>
      simp only [System.step] at hstep
      split at hstep <;> cases hstep
      exact hsound.subscribe userId isAdmin
  | closeSubscription index =>
      simp only [System.step] at hstep
      split at hstep <;> cases hstep
      refine hsound.change rfl rfl ⟨rfl, rfl, rfl, rfl, rfl⟩ (forall_mem_modify index ?_ ?_)
      · exact fun sub hsub => ⟨hsound.sound sub hsub, hsound.covered sub hsub⟩
      · intro sub hsub
        exact ⟨(hsound.sound sub hsub).emptied sub.resync true true, Covers.closed rfl⟩
  | next index =>
      simp only [System.step] at hstep
      split at hstep <;> cases hstep
      refine hsound.change rfl rfl ⟨rfl, rfl, rfl, rfl, rfl⟩ (forall_mem_modify index ?_ ?_)
      · exact fun sub hsub => ⟨hsound.sound sub hsub, hsound.covered sub hsub⟩
      · exact fun sub hsub => ⟨(hsound.sound sub hsub).next, (hsound.covered sub hsub).next⟩
  | close =>
      simp only [System.step] at hstep
      split at hstep <;> cases hstep
      exact hsound.closeNow
  | closeThreadsafe =>
      simp only [System.step] at hstep
      split at hstep <;> cases hstep
      · exact hsound
      · refine hsound.quiet ?_ hsound.lost rfl ?_ rfl id
        · have hsame : (system.callbacks ++ [Callback.closeNow]).filterMap Callback.item? =
              system.callbacks.filterMap Callback.item? := by
            simp [Callback.item?]
          rw [deliveries, hsame]
          exact hsound.counted
        · simp [flight, Callback.item?]
  | closeLoop =>
      simp only [System.step] at hstep
      split at hstep <;> cases hstep
      exact hsound.quiet hsound.counted (fun _ => .inr rfl) rfl rfl rfl fun _ => .inr (.inr rfl)

theorem sound_initial (queueSize maxSubscribers : Nat) :
    (initial queueSize maxSubscribers : System D).Sound where
  counted := rfl
  lost hlost := by cases hlost
  numbered item hitem := by cases hitem
  flight_ordered := List.Pairwise.nil
  sound sub hsub := by cases hsub
  covered sub hsub := by cases hsub

/-- Nothing is lost behind the back of a client whose loop lives once no delivery is on
its way: the flag of a full backlog is only up while deliveries are. -/
theorem Sound.not_lostSoon (hsound : system.Sound) (hflight : system.flight = [])
    (hreserved : system.reserved = []) (hloop : system.loopClosed = false) :
    ¬ system.LostSoon := by
  have hdelivering : system.delivering = none ∧ system.deliveries = [] := by
    simpa [flight, deliveries] using hflight
  rintro (hlost | hdeliver | hgone)
  · have hcounted := hsound.counted
    simp only [hdelivering.2, hreserved, List.length_nil] at hcounted
    rcases hsound.lost hlost with hpending | hgone
    · omega
    · rw [hloop] at hgone
      cases hgone
  · rw [hdelivering.1] at hdeliver
    cases hdeliver
  · rw [hloop] at hgone
    cases hgone

/-- In every run of the bus, its loop, the publishing threads and the clients: the
counter is the number of deliveries that are scheduled or counted by a publish call that
is about to schedule; no buffer exceeds its size; what `next` returned are events the
client may see, in the order of publication and each once; and once no delivery is on its
way, an open subscription holds every event published since it subscribed that its client
may see, or was or will be told to resync after it. -/
theorem live_events_delivered_or_resync {queueSize maxSubscribers : Nat} {acts : List (BusAct D)}
    {final : System D} (hrun : run step (initial queueSize maxSubscribers) acts = some final) :
    final.bus.pending = final.deliveries.length + final.reserved.length ∧
      ∀ sub ∈ final.subs,
        sub.items.length ≤ sub.size ∧ (sub.returnedItems.map Prod.fst).Pairwise (· < ·) ∧
        (∀ item ∈ sub.returnedItems, final.published[item.1]? = some item.2 ∧
          item.2.visibleTo sub.userId sub.isAdmin = true) ∧
        (sub.closed = false → final.flight = [] → final.reserved = [] →
          final.loopClosed = false → ∀ k event, sub.joined ≤ k →
            final.published[k]? = some event →
            event.visibleTo sub.userId sub.isAdmin = true → sub.Holds k) := by
  have hsound : final.Sound :=
    run_invariant (fun hsound hstep => hsound.step hstep) (sound_initial _ _) hrun
  refine ⟨hsound.counted, fun sub hsub => ?_⟩
  have hsub' := hsound.sound sub hsub
  refine ⟨hsub'.bounded, ?_, ?_, ?_⟩
  · refine hsub'.ordered.sublist (List.Sublist.map _ ?_)
    rw [List.append_assoc]
    exact List.sublist_append_left _ _
  · exact fun item hitem => hsub'.genuine item (List.mem_append_left _ hitem)
  · intro hclosed hflight hreserved hloop k event hjoined hevent hvisible
    have hnothing := hsound.not_lostSoon hflight hreserved hloop
    rcases hsound.covered sub hsub hclosed k event hjoined hevent hvisible with
      hholds | hflying | hsoon
    · exact hholds
    · rw [hflight] at hflying
      cases hflying
    · exact absurd hsoon hnothing

/-- An event for everyone. -/
def heartbeat : LiveEvent Unit := ⟨"system.heartbeat", (), none, false, false⟩

/-- A client that was told to resync. -/
def resynced : Subscription Unit := ⟨7, false, 1, [], true, false, false, 0, [.resync 2]⟩

/-- Two events meet a buffer of one: both are replaced by one resync. -/
theorem live_events_delivered_or_resync_overflow :
    ∃ final : System Unit,
      run step (initial 1 200)
        [.start, .subscribe 7 false, .publish heartbeat, .publish heartbeat, .reserve 0, .reserve 0,
          .schedule 1, .schedule 0, .runCallback, .fanOut, .runCallback, .fanOut, .next 0] =
          some final ∧
      final.subs = [resynced] ∧ resynced.Holds 0 ∧ resynced.Holds 1 := by
  have hany : (run step (initial 1 200)
      [.start, .subscribe 7 false, .publish heartbeat, .publish heartbeat, .reserve 0, .reserve 0,
        .schedule 1, .schedule 0, .runCallback, .fanOut, .runCallback, .fanOut, .next 0]).any
      (fun final => decide (final.subs = [resynced] ∧ final.flight = [] ∧ final.reserved = [] ∧
        final.loopClosed = false ∧ final.published = [heartbeat, heartbeat])) = true := by
    decide +kernel
  obtain ⟨final, hrun, hfinal⟩ := (Option.any_eq_true ..).mp hany
  obtain ⟨hsubs, hflight, hreserved, hloop, hpublished⟩ := of_decide_eq_true hfinal
  have hmem : resynced ∈ final.subs := by simp [hsubs]
  have hholds := ((live_events_delivered_or_resync hrun).2 resynced hmem).2.2.2 rfl hflight
    hreserved hloop
  rw [hpublished] at hholds
  exact ⟨final, hrun, hsubs, hholds 0 heartbeat (Nat.zero_le _) rfl rfl,
    hholds 1 heartbeat (Nat.zero_le _) rfl rfl⟩

/-- A publish call counts itself before it reaches the loop: in between the counter is
one more than the number of scheduled deliveries. -/
theorem pending_counted_before_scheduled :
    ∃ final : System Unit,
      run step (initial 64 200) [.start, .publish heartbeat, .reserve 0] = some final ∧
      final.bus.pending = 1 ∧ final.deliveries = [] :=
  ⟨_, rfl, rfl, rfl⟩

end System

end Justup.Live
