import Justup.Lib.Increasing
import Justup.Net.RateLimit

/-!
# The budget of the rate limiter

A call is admitted when fewer calls of its key than its limit were admitted in its
window.  The counter forgets an admitted call when a later call has a window that
does not reach back to it; a call with a longer window then gets a fresh budget.
-/

namespace Justup.Net

open Justup.Lib

variable {K : Type*} [DecidableEq K]

/-! ## What is admitted -/

/-- The window of a call begins after this time. -/
def Hit.start (hit : Hit K) : ℚ := hit.now - hit.window

/-- The call was admitted for the key. -/
def Hit.admits (key : K) (hit : Hit K) : Bool := decide (hit.answer = .admitted ∧ hit.key = key)

/-- The time is in the window of the call. -/
def Hit.covers (hit : Hit K) (ts : ℚ) : Bool := decide (hit.start < ts ∧ ts ≤ hit.now)

/-- The admitted calls of the key that are in the window of a call. -/
def counted (before : List (Hit K)) (hit : Hit K) : List (Hit K) :=
  before.filter fun old => old.admits hit.key && hit.covers old.now

/-- The keys with an admitted call in the window of a call. -/
def activeKeys (before : List (Hit K)) (hit : Hit K) : List K :=
  ((before.filter fun old => old.admits old.key && hit.covers old.now).map Hit.key).dedup

/-- The limiter admits exactly its budget: every call of the history is admitted or
told how long to wait, or finds the table full. -/
structure AdmitsBudget (maxKeys : ℤ) (history : List (Hit K)) : Prop where
  answers : ∀ before hit later, history = before ++ hit :: later → hit.answer ≠ .indexError
  budget : ∀ before hit later, history = before ++ hit :: later →
    hit.answer ≠ .capacityExhausted →
      (hit.answer = .admitted ↔ ((counted before hit).length : ℤ) < hit.limit)
  capacity : ∀ before hit later, history = before ++ hit :: later →
    hit.answer = .capacityExhausted → counted before hit = [] ∧
      (maxKeys ≤ ((activeKeys before hit).length : ℤ) ∨
        ∃ old ∈ before, old.swept = true ∧ hit.now - old.now < sweepInterval)
  retries : ∀ before hit between retry later,
    history = before ++ hit :: (between ++ retry :: later) →
      ∀ seconds, hit.answer = .wait seconds → (∀ other ∈ between, other.answer ≠ .admitted) →
        retry.key = hit.key → retry.limit = hit.limit → retry.window = hit.window →
          (retry.answer = .admitted ↔ hit.now + seconds ≤ retry.now)

/-- The limit of the call is positive and its time not negative, and every admitted
call of the key in its window has been in the windows of all the calls since then
that were of the same key or have swept the table. -/
structure Hit.Meets (before : List (Hit K)) (hit : Hit K) : Prop where
  limit : 1 ≤ hit.limit
  clock : 0 ≤ hit.now
  remembered : ∀ front old between, before = front ++ old :: between →
    old.admits hit.key = true → hit.start < old.now →
      ∀ other ∈ between, other.key = hit.key ∨ other.swept = true → other.start < old.now

/-! ## One call -/

namespace SlidingWindow

/-- The stamps that are kept for a key. -/
def stampsOf (key : K) (counter : SlidingWindow K) : List ℚ :=
  ((Table.row? Bucket.key key counter.hits).map Bucket.stamps).getD []

@[simp]
theorem stampsOf_store (key other : K) (stamps : List ℚ) (counter : SlidingWindow K) :
    (counter.store key stamps).stampsOf other =
      if other = key then stamps else counter.stampsOf other := by
  rw [stampsOf, store, Table.row?_replace]
  split_ifs <;> rfl

/-- The table in which a call finds its key or not. -/
def opened (call : Call K) (counter : SlidingWindow K) : SlidingWindow K :=
  let counter' := { counter with window := call.window.getD counter.window }
  if counter.sweeps call then counter'.sweep call.now else counter'

/-- The call does not find its key, and no room for it either. -/
def crowded (call : Call K) (counter : SlidingWindow K) : Bool :=
  (Table.row? Bucket.key call.key counter.hits).isNone && (counter.opened call).isFull

/-- What `hit` does, in one line. -/
theorem hit_eq (call : Call K) (counter : SlidingWindow K) :
    counter.hit call =
      if counter.crowded call then (.capacityExhausted, counter.opened call)
      else (counter.opened call).count (call.limit.getD counter.limit) call.now
        ⟨call.key, (counter.opened call).stampsOf call.key⟩ := by
  cases hrow : Table.row? Bucket.key call.key counter.hits with
  | some bucket =>
      have hsweeps : counter.sweeps call = false := by simp [sweeps, hrow]
      have hcrowded : counter.crowded call = false := by simp [crowded, hrow]
      have hbucket : (⟨call.key, bucket.stamps⟩ : Bucket K) = bucket := by
        rw [← (Table.mem_of_row? hrow).2]
      rw [hcrowded, if_neg Bool.false_ne_true, opened, hsweeps, if_neg Bool.false_ne_true]
      simp only [stampsOf, hrow, Option.map_some, Option.getD_some, hbucket]
      simp only [hit, hrow]
  | none =>
      have hsweeps : counter.sweeps call = counter.isSweepDue call.now := by simp [sweeps, hrow]
      have hstamps : (counter.opened call).stampsOf call.key = [] := by
        have hnone : Table.row? Bucket.key call.key (counter.opened call).hits = none := by
          refine List.find?_eq_none.mpr fun bucket hbucket => ?_
          refine List.find?_eq_none.mp hrow bucket ?_
          rw [opened] at hbucket
          split_ifs at hbucket
          · exact (List.mem_filter.mp hbucket).1
          · exact hbucket
        rw [stampsOf, hnone]
        rfl
      have hopened : counter.opened call =
          { counter with window := call.window.getD counter.window }.makeRoom call.now := by
        rw [opened, makeRoom, hsweeps]
        rfl
      rw [hstamps, crowded, hrow, hopened]
      simp only [hit, hrow, Option.isNone_none, Bool.true_and]

/-- The stamps that are counted for a call. -/
def kept (call : Call K) (counter : SlidingWindow K) : List ℚ :=
  ((counter.opened call).stampsOf call.key).dropWhile fun stamp =>
    decide (stamp ≤ (counter.record call).start)

@[simp]
theorem opened_window (call : Call K) (counter : SlidingWindow K) :
    (counter.opened call).window = call.window.getD counter.window := by
  unfold opened
  dsimp only
  split <;> rfl

/-- A crowded table answers with an exception, and else the kept stamps decide. -/
theorem hit_cases (call : Call K) (counter : SlidingWindow K) :
    (counter.crowded call = true ∧ (counter.record call).answer = .capacityExhausted ∧
      (counter.hit call).2 = counter.opened call) ∨
    (counter.crowded call = false ∧ (counter.record call).answer = .admitted ∧
      ((counter.kept call).length : ℤ) < (counter.record call).limit ∧
      (counter.hit call).2 =
        (counter.opened call).store call.key (counter.kept call ++ [call.now])) ∨
    (counter.crowded call = false ∧ (counter.record call).limit ≤ (counter.kept call).length ∧
      (counter.record call).answer =
        (match (counter.kept call)[((counter.kept call).length -
            (counter.record call).limit).toNat]? with
        | some stamp => .wait (max 0 (stamp + (counter.record call).window - call.now))
        | none => .indexError) ∧
      (counter.hit call).2 = (counter.opened call).store call.key (counter.kept call)) := by
  have hkept : ((counter.opened call).stampsOf call.key).dropWhile (fun stamp =>
      decide (stamp ≤ call.now - call.window.getD counter.window)) = counter.kept call := rfl
  have hanswer : (counter.record call).answer = (counter.hit call).1 := rfl
  have hlimit : (counter.record call).limit = call.limit.getD counter.limit := rfl
  have hwindow : (counter.record call).window = call.window.getD counter.window := rfl
  rw [hanswer, hlimit, hwindow, hit_eq]
  cases hcrowded : counter.crowded call with
  | true => exact Or.inl ⟨rfl, rfl, rfl⟩
  | false =>
      rw [if_neg Bool.false_ne_true, count]
      simp only [opened_window, hkept]
      by_cases hroom : call.limit.getD counter.limit ≤ ((counter.kept call).length : ℤ)
      · rw [if_pos hroom]
        exact Or.inr (Or.inr ⟨trivial, hroom, rfl, rfl⟩)
      · rw [if_neg hroom]
        exact Or.inr (Or.inl ⟨trivial, rfl, not_le.mp hroom, rfl⟩)

@[simp]
theorem stampsOf_window (key : K) (window : ℚ) (counter : SlidingWindow K) :
    { counter with window := window }.stampsOf key = counter.stampsOf key := rfl

theorem opened_of_sweeps {call : Call K} {counter : SlidingWindow K}
    (hsweeps : counter.sweeps call = true) : counter.opened call =
      { counter with window := call.window.getD counter.window }.sweep call.now := by
  rw [opened, hsweeps, if_pos rfl]

theorem opened_of_not_sweeps {call : Call K} {counter : SlidingWindow K}
    (hsweeps : counter.sweeps call = false) : counter.opened call =
      { counter with window := call.window.getD counter.window } := by
  rw [opened, hsweeps, if_neg Bool.false_ne_true]

theorem hits_opened (call : Call K) (counter : SlidingWindow K) :
    (counter.opened call).hits.Sublist counter.hits := by
  cases hsweeps : counter.sweeps call with
  | true =>
      rw [opened_of_sweeps hsweeps]
      exact List.filter_sublist
  | false => rw [opened_of_not_sweeps hsweeps]

@[simp]
theorem maxKeys_opened (call : Call K) (counter : SlidingWindow K) :
    (counter.opened call).maxKeys = counter.maxKeys := by
  unfold opened
  split <;> rfl

/-- Opening the table does not take the key of the call away. -/
theorem row?_opened_eq_none_iff {call : Call K} {counter : SlidingWindow K} :
    Table.row? Bucket.key call.key (counter.opened call).hits = none ↔
      Table.row? Bucket.key call.key counter.hits = none := by
  cases hrow : Table.row? Bucket.key call.key counter.hits with
  | none =>
      refine iff_of_true (List.find?_eq_none.mpr fun bucket hbucket => ?_) rfl
      exact List.find?_eq_none.mp hrow bucket ((hits_opened call counter).subset hbucket)
  | some bucket =>
      rw [opened_of_not_sweeps (by simp [sweeps, hrow]), hrow]

/-- A call without its key in the table has no stamps. -/
theorem kept_of_row?_eq_none {call : Call K} {counter : SlidingWindow K}
    (hnone : Table.row? Bucket.key call.key counter.hits = none) : counter.kept call = [] := by
  rw [kept, stampsOf, row?_opened_eq_none_iff.mpr hnone]
  rfl

/-- The table holds each key once, and no more keys than it may. -/
structure Tidy (counter : SlidingWindow K) : Prop where
  keyed : Table.Keyed Bucket.key counter.hits
  size : counter.hits ≠ [] → (counter.hits.length : ℤ) ≤ counter.maxKeys

theorem Tidy.opened {counter : SlidingWindow K} (htidy : counter.Tidy) (call : Call K) :
    (counter.opened call).Tidy where
  keyed := htidy.keyed.sublist (hits_opened call counter)
  size := fun hne => by
    have hsub := hits_opened call counter
    rw [maxKeys_opened]
    refine le_trans ?_ (htidy.size fun hnil => hne ?_)
    · exact_mod_cast hsub.length_le
    · exact List.sublist_nil.mp (hnil ▸ hsub)

/-- There is room for a key that is stored. -/
theorem Tidy.store {counter : SlidingWindow K} (htidy : counter.Tidy) {call : Call K}
    (hcrowded : counter.crowded call = false) (stamps : List ℚ) :
    ((counter.opened call).store call.key stamps).Tidy where
  keyed := (htidy.opened call).keyed.replace _
  size := fun _ => by
    obtain ⟨hkeyed, hsize⟩ := htidy.opened call
    rw [SlidingWindow.store, Table.length_replace hkeyed]
    split_ifs with hrow
    · refine hsize fun hnil => ?_
      rw [hnil] at hrow
      cases hrow
    · have hnone := row?_opened_eq_none_iff.mp (Option.not_isSome_iff_eq_none.mp hrow)
      have hroom : ¬ (counter.opened call).maxKeys ≤ ((counter.opened call).hits.length : ℤ) := by
        simpa [crowded, hnone, isFull] using hcrowded
      push_cast
      omega

theorem Tidy.hit {counter : SlidingWindow K} (htidy : counter.Tidy) (call : Call K) :
    (counter.hit call).2.Tidy := by
  rcases hit_cases call counter with ⟨-, -, hnext⟩ | ⟨hcrowded, -, -, hnext⟩ |
    ⟨hcrowded, -, -, hnext⟩
  · exact hnext ▸ htidy.opened call
  · exact hnext ▸ htidy.store hcrowded _
  · exact hnext ▸ htidy.store hcrowded _

/-- A sweep forgets all of a key or nothing of it. -/
theorem stampsOf_sweep (counter : SlidingWindow K)
    (hkeyed : Table.Keyed Bucket.key counter.hits) (now : ℚ) (key : K) :
    (counter.sweep now).stampsOf key =
      if (counter.stampsOf key).getLast?.any (fun newest => decide (now - counter.window < newest))
      then counter.stampsOf key else [] := by
  unfold stampsOf sweep
  dsimp only
  rw [Table.row?_filter hkeyed]
  cases Table.row? Bucket.key key counter.hits with
  | none => rfl
  | some bucket =>
      rw [Option.filter_some, Option.map_some, Option.getD_some]
      split_ifs <;> rfl

end SlidingWindow

/-! ## What is forgotten -/

/-- After the call there was one, of the key or sweeping the table, whose window the
call was not in. -/
def Forgotten (past : List (Hit K)) (key : K) (old : Hit K) : Prop :=
  ∃ front between, past = front ++ old :: between ∧
    ∃ other ∈ between, (other.key = key ∨ other.swept = true) ∧ old.now ≤ other.start

section Forgotten

omit [DecidableEq K]

variable {past : List (Hit K)} {key : K} {old : Hit K}

theorem Forgotten.snoc (hold : Forgotten past key old) (hit : Hit K) :
    Forgotten (past ++ [hit]) key old := by
  obtain ⟨front, between, rfl, other, hother, hforgets⟩ := hold
  exact ⟨front, between ++ [hit], by simp, other, List.mem_append_left _ hother, hforgets⟩

theorem forgotten_of_mem (hold : old ∈ past) {hit : Hit K}
    (hkey : hit.key = key ∨ hit.swept = true) (hleft : old.now ≤ hit.start) :
    Forgotten (past ++ [hit]) key old := by
  obtain ⟨front, between, rfl⟩ := List.append_of_mem hold
  exact ⟨front, between ++ [hit], by simp, hit, by simp, hkey, hleft⟩

end Forgotten

/-- The table holds the last admitted calls of every key, and the others have been
forgotten. -/
structure Sound (past : List (Hit K)) (counter : SlidingWindow K) : Prop where
  tidy : counter.Tidy
  ordered : past.Pairwise fun earlier later => earlier.now ≤ later.now
  stamps : ∀ key, ∃ front back, past.filter (Hit.admits key) = front ++ back ∧
    counter.stampsOf key = back.map Hit.now ∧ ∀ old ∈ front, Forgotten past key old
  swept : counter.lastSweep = -sweepInterval ∨
    ∃ old ∈ past, old.swept = true ∧ counter.lastSweep = old.now

theorem sound_nil (limit : ℤ) (window : ℚ) (maxKeys : ℤ) :
    Sound [] (SlidingWindow.create limit window maxKeys : SlidingWindow K) where
  tidy := ⟨Table.keyed_nil, fun hne => absurd rfl hne⟩
  ordered := List.Pairwise.nil
  stamps := fun _ => ⟨[], [], rfl, rfl, by simp⟩
  swept := Or.inl rfl

section Step

variable {past : List (Hit K)} {counter : SlidingWindow K}

/-- Opening the table for a call forgets keys that are not in its window. -/
theorem Sound.opened (hsound : Sound past counter) (call : Call K) (key : K) :
    ∃ front back, past.filter (Hit.admits key) = front ++ back ∧
      (counter.opened call).stampsOf key = back.map Hit.now ∧
        ∀ old ∈ front, Forgotten (past ++ [counter.record call]) key old := by
  obtain ⟨front, back, hsplit, hstamps, hfront⟩ := hsound.stamps key
  have hforgotten : ∀ old ∈ front, Forgotten (past ++ [counter.record call]) key old :=
    fun old hold => (hfront old hold).snoc _
  cases hsweeps : counter.sweeps call with
  | false =>
      have hopened : (counter.opened call).stampsOf key = counter.stampsOf key := by
        simp [SlidingWindow.opened, hsweeps]
      rw [hopened]
      exact ⟨front, back, hsplit, hstamps, hforgotten⟩
  | true =>
      have hopened : (counter.opened call).stampsOf key =
          if (back.map Hit.now).getLast?.any (fun newest =>
            decide ((counter.record call).start < newest))
          then back.map Hit.now else [] := by
        rw [SlidingWindow.opened, hsweeps, if_pos rfl, ← hstamps]
        exact SlidingWindow.stampsOf_sweep
          { counter with window := call.window.getD counter.window } hsound.tidy.keyed call.now key
      rw [hopened]
      split_ifs with hnewest
      · exact ⟨front, back, hsplit, rfl, hforgotten⟩
      · refine ⟨front ++ back, [], by rw [hsplit, List.append_nil], rfl, fun old hold => ?_⟩
        rcases List.mem_append.mp hold with hold | hold
        · exact hforgotten old hold
        · have hback : back.Sublist past :=
            (List.sublist_append_right front back).trans (hsplit ▸ List.filter_sublist)
          refine forgotten_of_mem (hback.subset hold) (Or.inr hsweeps) ?_
          -- the newest of the calls is not in the window, and this one is not newer
          obtain ⟨others, newest, rfl⟩ := List.eq_nil_or_concat' back |>.resolve_left
            (List.ne_nil_of_mem hold)
          have hleft : newest.now ≤ (counter.record call).start := by simpa using hnewest
          rcases List.mem_append.mp hold with hother | hlast
          · have hle := (List.pairwise_append.mp (hsound.ordered.sublist hback)).2.2 old hother
              newest (List.mem_singleton_self newest)
            exact hle.trans hleft
          · rw [List.mem_singleton.mp hlast]
            exact hleft

/-- What is counted for a call, and what has been forgotten. -/
theorem Sound.kept (hsound : Sound past counter) (call : Call K) :
    ∃ front back, past.filter (Hit.admits call.key) = front ++ back ∧
      counter.kept call = back.map Hit.now ∧
        (∀ old ∈ front, Forgotten (past ++ [counter.record call]) call.key old) ∧
          ∀ old ∈ back, (counter.record call).start < old.now := by
  obtain ⟨front, back, hsplit, hstamps, hfront⟩ := hsound.opened call call.key
  have hback : back.Sublist past :=
    (List.sublist_append_right front back).trans (hsplit ▸ List.filter_sublist)
  have hleft : ∀ old ∈ back.takeWhile fun old => decide (old.now ≤ (counter.record call).start),
      old.now ≤ (counter.record call).start := fun old hold => by
    simpa using List.mem_takeWhile_imp hold
  refine ⟨front ++ back.takeWhile fun old => decide (old.now ≤ (counter.record call).start),
    back.dropWhile fun old => decide (old.now ≤ (counter.record call).start), ?_, ?_, ?_, ?_⟩
  · rw [hsplit, List.append_assoc, List.takeWhile_append_dropWhile]
  · rw [SlidingWindow.kept, hstamps, List.dropWhile_map]
    rfl
  · intro old hold
    rcases List.mem_append.mp hold with hold | hold
    · exact hfront old hold
    · exact forgotten_of_mem (hback.subset ((List.takeWhile_sublist _).subset hold)) (Or.inl rfl)
        (hleft old hold)
  · exact Increasing.lt_of_mem_dropWhile (hsound.ordered.sublist hback) _

theorem Sound.swept_opened (hsound : Sound past counter) (call : Call K) :
    (counter.opened call).lastSweep = -sweepInterval ∨
      ∃ old ∈ past ++ [counter.record call], old.swept = true ∧
        (counter.opened call).lastSweep = old.now := by
  cases hsweeps : counter.sweeps call with
  | true =>
      rw [SlidingWindow.opened_of_sweeps hsweeps]
      exact Or.inr ⟨counter.record call, by simp, hsweeps, rfl⟩
  | false =>
      rw [SlidingWindow.opened_of_not_sweeps hsweeps]
      refine hsound.swept.imp_right ?_
      rintro ⟨old, hold, hold'⟩
      exact ⟨old, List.mem_append_left _ hold, hold'⟩

theorem Sound.ordered_snoc (hsound : Sound past counter) {call : Call K}
    (hclock : ∀ old ∈ past, old.now ≤ call.now) :
    (past ++ [counter.record call]).Pairwise fun earlier later => earlier.now ≤ later.now := by
  refine List.pairwise_append.mpr ⟨hsound.ordered, List.pairwise_singleton _ _, ?_⟩
  intro old hold hit hhit
  rw [List.mem_singleton.mp hhit]
  exact hclock old hold

theorem filter_admits_snoc {key : K} {hit : Hit K} (hadmits : hit.admits key = false) :
    (past ++ [hit]).filter (Hit.admits key) = past.filter (Hit.admits key) := by
  rw [List.filter_append, List.filter_cons_of_neg (by simp [hadmits])]
  simp

/-- The stamps of the key of a call are stored. -/
theorem Sound.store (hsound : Sound past counter) {call : Call K}
    (hclock : ∀ old ∈ past, old.now ≤ call.now) (hcrowded : counter.crowded call = false)
    {front back : List (Hit K)}
    (hsplit : (past ++ [counter.record call]).filter (Hit.admits call.key) = front ++ back)
    (hfront : ∀ old ∈ front, Forgotten (past ++ [counter.record call]) call.key old) :
    Sound (past ++ [counter.record call])
      ((counter.opened call).store call.key (back.map Hit.now)) where
  tidy := hsound.tidy.store hcrowded _
  ordered := hsound.ordered_snoc hclock
  stamps := fun key => by
    rw [SlidingWindow.stampsOf_store]
    by_cases hkey : key = call.key
    · rw [if_pos hkey, hkey]
      exact ⟨front, back, hsplit, rfl, hfront⟩
    · have hother : (counter.record call).admits key = false :=
        decide_eq_false fun hadmits => hkey hadmits.2.symm
      rw [if_neg hkey, filter_admits_snoc hother]
      exact hsound.opened call key
  swept := hsound.swept_opened call

/-- One more call is noted. -/
theorem Sound.hit (hsound : Sound past counter) {call : Call K}
    (hclock : ∀ old ∈ past, old.now ≤ call.now) :
    Sound (past ++ [counter.record call]) (counter.hit call).2 := by
  obtain ⟨front, back, hsplit, hkept, hfront, -⟩ := hsound.kept call
  rcases SlidingWindow.hit_cases call counter with ⟨-, hanswer, hnext⟩ |
    ⟨hcrowded, hanswer, -, hnext⟩ | ⟨hcrowded, -, hanswer, hnext⟩
  · rw [hnext]
    refine ⟨hsound.tidy.opened call, hsound.ordered_snoc hclock, fun key => ?_,
      hsound.swept_opened call⟩
    have hother : (counter.record call).admits key = false := by simp [Hit.admits, hanswer]
    rw [filter_admits_snoc hother]
    exact hsound.opened call key
  · have hadmits : (counter.record call).admits call.key = true :=
      decide_eq_true ⟨hanswer, rfl⟩
    have hstored : counter.kept call ++ [call.now] =
        (back ++ [counter.record call]).map Hit.now := by
      rw [hkept, List.map_append]
      rfl
    rw [hnext, hstored]
    refine hsound.store hclock hcrowded ?_ hfront
    rw [List.filter_append, hsplit, List.filter_cons_of_pos hadmits, List.append_assoc]
    rfl
  · have hother : (counter.record call).admits call.key = false := by
      refine decide_eq_false fun hadmits => ?_
      rw [hanswer] at hadmits
      split at hadmits <;> exact absurd hadmits.1 (by simp)
    rw [hnext, hkept]
    exact hsound.store hclock hcrowded (by rw [filter_admits_snoc hother, hsplit]) hfront

theorem sound_after (limit : ℤ) (window : ℚ) (maxKeys : ℤ) {calls : List (Call K)}
    (hclock : calls.Pairwise fun earlier later => earlier.now ≤ later.now) :
    Sound ((SlidingWindow.create limit window maxKeys).history calls)
      ((SlidingWindow.create limit window maxKeys).after calls) := by
  induction calls using List.reverseRecOn with
  | nil => exact sound_nil limit window maxKeys
  | append_singleton calls call ih =>
      obtain ⟨hcalls, -, hlast⟩ := List.pairwise_append.mp hclock
      rw [SlidingWindow.history_append, SlidingWindow.after_append]
      refine (ih hcalls).hit fun old hold => ?_
      obtain ⟨other, hother, heq⟩ := SlidingWindow.exists_call_of_mem_history hold
      rw [heq]
      exact hlast other hother call (List.mem_singleton_self call)

/-- What is counted for a call is what the table still holds. -/
theorem Sound.counted_eq (hsound : Sound past counter) {call : Call K}
    (hclock : ∀ old ∈ past, old.now ≤ call.now) (hmeets : (counter.record call).Meets past) :
    (counted past (counter.record call)).map Hit.now = counter.kept call := by
  obtain ⟨front, back, hsplit, hkept, hfront, hback⟩ := hsound.kept call
  have hcovers : ∀ old ∈ past, (counter.record call).covers old.now =
      decide ((counter.record call).start < old.now) := by
    intro old hold
    have hle : old.now ≤ (counter.record call).now := hclock old hold
    simp [Hit.covers, hle]
  have hadmitted : ∀ old ∈ front ++ back, old ∈ past ∧ old.admits call.key = true := by
    intro old hold
    rw [← hsplit] at hold
    exact List.mem_filter.mp hold
  have hfrontNone : (front.filter fun old => (counter.record call).covers old.now) = [] := by
    refine List.filter_eq_nil_iff.mpr fun old hold hcover => ?_
    obtain ⟨hmem, hadmits⟩ := hadmitted old (List.mem_append_left _ hold)
    rw [hcovers old hmem, decide_eq_true_eq] at hcover
    -- the call that forgets it is this one or one that had to reach back to it
    obtain ⟨first, between, hpast, other, hother, hkey, hleft⟩ := hfront old hold
    rcases List.eq_nil_or_concat' between with rfl | ⟨between, last, rfl⟩
    · cases hother
    · rw [← List.cons_append, ← List.append_assoc] at hpast
      obtain ⟨hbefore, hlast⟩ := List.append_inj' hpast rfl
      obtain rfl : counter.record call = last := by simpa using hlast
      rcases List.mem_append.mp hother with hbetween | hsame
      · exact hleft.not_gt (hmeets.remembered first old between hbefore hadmits hcover other
          hbetween hkey)
      · rw [List.mem_singleton.mp hsame] at hleft
        exact hleft.not_gt hcover
  have hbackAll : (back.filter fun old => (counter.record call).covers old.now) = back := by
    refine List.filter_eq_self.mpr fun old hold => ?_
    rw [hcovers old (hadmitted old (List.mem_append_right _ hold)).1]
    exact decide_eq_true (hback old hold)
  have hcounted : counted past (counter.record call) =
      (past.filter (Hit.admits call.key)).filter fun old =>
        (counter.record call).covers old.now := by
    rw [List.filter_filter]
    exact List.filter_congr fun old _ => Bool.and_comm ..
  rw [hcounted, hsplit, List.filter_append, hfrontNone, hbackAll, List.nil_append, hkept]

/-- After a sweep every key of the table has a call in the window. -/
theorem Sound.le_activeKeys (hsound : Sound past counter) {call : Call K}
    (hclock : ∀ old ∈ past, old.now ≤ call.now) (hsweeps : counter.sweeps call = true)
    (hfull : (counter.opened call).isFull = true) :
    counter.maxKeys ≤ ((activeKeys past (counter.record call)).length : ℤ) := by
  have hactive : (counter.opened call).hits.map Bucket.key ⊆
      activeKeys past (counter.record call) := by
    intro key hkey
    obtain ⟨bucket, hbucket, rfl⟩ := List.mem_map.mp hkey
    rw [SlidingWindow.opened_of_sweeps hsweeps] at hbucket
    obtain ⟨hmem, hnewest⟩ := List.mem_filter.mp hbucket
    obtain ⟨newest, hlast, hcover⟩ : ∃ newest, bucket.stamps.getLast? = some newest ∧
        (counter.record call).start < newest := by
      simpa [Option.any_eq_true] using! hnewest
    obtain ⟨front, back, hsplit, hstamps, -⟩ := hsound.stamps bucket.key
    have hback : bucket.stamps = back.map Hit.now := by
      rw [← hstamps, SlidingWindow.stampsOf, Table.row?_of_mem hsound.tidy.keyed hmem]
      rfl
    obtain ⟨old, hold, rfl⟩ : ∃ old ∈ back, old.now = newest := by
      have hin := List.mem_of_getLast? hlast
      rw [hback] at hin
      exact List.mem_map.mp hin
    have hadmitted : old ∈ past ∧ old.admits bucket.key = true := by
      have hin : old ∈ front ++ back := List.mem_append_right _ hold
      rw [← hsplit] at hin
      exact List.mem_filter.mp hin
    have hkey : old.key = bucket.key := (of_decide_eq_true hadmitted.2).2
    have hle : old.now ≤ (counter.record call).now := hclock old hadmitted.1
    refine List.mem_dedup.mpr (List.mem_map.mpr ⟨old, List.mem_filter.mpr ⟨hadmitted.1, ?_⟩, hkey⟩)
    rw [hkey, hadmitted.2]
    simp [Hit.covers, hcover, hle]
  have hlength : (counter.opened call).hits.length ≤
      (activeKeys past (counter.record call)).length := by
    rw [← List.length_map (f := Bucket.key)]
    exact (List.subperm_of_subset (hsound.tidy.opened call).keyed hactive).length_le
  have hmax : counter.maxKeys ≤ ((counter.opened call).hits.length : ℤ) := by
    simpa [SlidingWindow.isFull] using hfull
  exact hmax.trans (by exact_mod_cast hlength)

/-- A call that finds the table full is new, and the table has just been swept or
holds keys of its window only. -/
theorem Sound.capacity (hsound : Sound past counter) {call : Call K}
    (hclock : ∀ old ∈ past, old.now ≤ call.now) (hmeets : (counter.record call).Meets past)
    (hcrowded : counter.crowded call = true) :
    counted past (counter.record call) = [] ∧
      (counter.maxKeys ≤ ((activeKeys past (counter.record call)).length : ℤ) ∨
        ∃ old ∈ past, old.swept = true ∧
          (counter.record call).now - old.now < sweepInterval) := by
  obtain ⟨hnew, hfull⟩ : Table.row? Bucket.key call.key counter.hits = none ∧
      (counter.opened call).isFull = true := by
    simpa [SlidingWindow.crowded] using hcrowded
  refine ⟨?_, ?_⟩
  · have hkept := SlidingWindow.kept_of_row?_eq_none hnew
    rw [← hsound.counted_eq hclock hmeets] at hkept
    exact List.map_eq_nil_iff.mp hkept
  · cases hsweeps : counter.sweeps call with
    | true => exact Or.inl (hsound.le_activeKeys hclock hsweeps hfull)
    | false =>
        rw [SlidingWindow.opened_of_not_sweeps hsweeps] at hfull
        have hrecent : (counter.record call).now - counter.lastSweep < sweepInterval := by
          have hfull' : counter.isFull = true := hfull
          have hdue : counter.isSweepDue call.now = false := by
            simpa [SlidingWindow.sweeps, hnew] using hsweeps
          change call.now - counter.lastSweep < sweepInterval
          simpa [SlidingWindow.isSweepDue, hfull'] using hdue
        rcases hsound.swept with hnever | ⟨old, hold, hswept, hlast⟩
        · have hpositive := hmeets.clock
          rw [hnever] at hrecent
          linarith
        · exact Or.inr ⟨old, hold, hswept, hlast ▸ hrecent⟩

end Step

/-! ## A retry -/

namespace SlidingWindow

/-- The key is in the table, or there is room for it. -/
def HasRoom (key : K) (counter : SlidingWindow K) : Prop :=
  (Table.row? Bucket.key key counter.hits).isSome ∨
    (counter.hits.length : ℤ) < counter.maxKeys

theorem HasRoom.not_crowded {counter : SlidingWindow K} {call : Call K}
    (hroom : counter.HasRoom call.key) : counter.crowded call = false := by
  rcases hroom with hsome | hlt
  · simp [crowded, Option.isNone_eq_false_iff.mpr hsome]
  · have hle := (hits_opened call counter).length_le
    have hfull : (counter.opened call).isFull = false := by
      simp only [isFull, maxKeys_opened, decide_eq_false_iff_not, not_le]
      omega
    simp [crowded, hfull]

/-- A call that is not admitted takes no room away. -/
theorem HasRoom.hit {counter : SlidingWindow K} {key : K} (hroom : counter.HasRoom key)
    (htidy : counter.Tidy) {call : Call K} (hlimit : 1 ≤ (counter.record call).limit)
    (hanswer : (counter.record call).answer ≠ .admitted) : (counter.hit call).2.HasRoom key := by
  rcases hit_cases call counter with ⟨hcrowded, -, hnext⟩ | ⟨-, hadmitted, -, -⟩ |
    ⟨-, hlength, -, hnext⟩
  · rw [hnext]
    obtain ⟨hnone, hfull⟩ : Table.row? Bucket.key call.key counter.hits = none ∧
        (counter.opened call).isFull = true := by
      simpa [crowded] using hcrowded
    -- nothing has been swept out of a table that is still full
    have hhits : (counter.opened call).hits = counter.hits := by
      refine (hits_opened call counter).eq_of_length_le ?_
      by_cases hnil : counter.hits = []
      · simp [hnil]
      · have hsize := htidy.size hnil
        simp only [isFull, maxKeys_opened, decide_eq_true_eq] at hfull
        omega
    rw [HasRoom, hhits, maxKeys_opened]
    exact hroom
  · exact absurd hadmitted hanswer
  · have hsome : (Table.row? Bucket.key call.key counter.hits).isSome := by
      by_contra hnone
      rw [kept_of_row?_eq_none (Option.not_isSome_iff_eq_none.mp hnone)] at hlength
      exact absurd (hlimit.trans hlength) (by simp)
    have hopened : (counter.opened call).hits = counter.hits := by
      have hsweeps : counter.sweeps call = false := by
        simp [sweeps, Option.isNone_eq_false_iff.mpr hsome]
      rw [opened_of_not_sweeps hsweeps]
    rw [hnext, HasRoom]
    refine hroom.imp (fun hkey => ?_) fun hlt => ?_
    · rw [store, Table.row?_replace, hopened]
      split
      · rfl
      · exact hkey
    · rw [store, Table.length_replace (hopened ▸ htidy.keyed), hopened, if_pos hsome,
        maxKeys_opened]
      exact hlt

theorem HasRoom.after {counter : SlidingWindow K} {key : K} (hroom : counter.HasRoom key)
    (htidy : counter.Tidy) {calls : List (Call K)}
    (hcalls : ∀ hit ∈ counter.history calls, 1 ≤ hit.limit ∧ hit.answer ≠ .admitted) :
    (counter.after calls).HasRoom key := by
  induction calls generalizing counter with
  | nil => exact hroom
  | cons call rest ih =>
      obtain ⟨hlimit, hanswer⟩ := hcalls (counter.record call) (List.mem_cons_self ..)
      exact ih (hroom.hit htidy hlimit hanswer) (htidy.hit call)
        fun hit hmem => hcalls hit (List.mem_cons_of_mem _ hmem)

end SlidingWindow

/-- What is counted for a later call without admissions in between. -/
theorem counted_retry {before between : List (Hit K)} {hit retry : Hit K}
    (hclock : ∀ old ∈ before, old.now ≤ hit.now) (hlater : hit.now ≤ retry.now)
    (hhit : hit.answer ≠ .admitted) (hbetween : ∀ other ∈ between, other.answer ≠ .admitted)
    (hkey : retry.key = hit.key) (hwindow : retry.window = hit.window) :
    counted (before ++ hit :: between) retry =
      (counted before hit).filter fun old => decide (retry.start < old.now) := by
  have hnone : ((hit :: between).filter fun old =>
      old.admits retry.key && retry.covers old.now) = [] := by
    refine List.filter_eq_nil_iff.mpr fun old hold hadmits => ?_
    have hanswer : old.answer = .admitted :=
      (of_decide_eq_true (Bool.and_eq_true_iff.mp hadmits).1).1
    rcases List.mem_cons.mp hold with rfl | hold
    · exact hhit hanswer
    · exact hbetween old hold hanswer
  have hstart : hit.start ≤ retry.start := by
    rw [Hit.start, Hit.start, hwindow]
    linarith
  rw [counted, List.filter_append, hnone, List.append_nil, counted, List.filter_filter]
  refine List.filter_congr fun old hold => ?_
  have hle := hclock old hold
  rw [hkey, Bool.eq_iff_iff]
  simp only [Hit.covers, Bool.and_eq_true, decide_eq_true_eq]
  constructor
  · rintro ⟨hadmits, hafter, -⟩
    exact ⟨hafter, hadmits, hstart.trans_lt hafter, hle⟩
  · rintro ⟨hafter, hadmits, -⟩
    exact ⟨hadmits, hafter, hle.trans hlater⟩

/-- The answer to a call that finds room: it is admitted when too few calls are
counted, and else waits until enough of them have left. -/
theorem Sound.answer {past : List (Hit K)} {counter : SlidingWindow K}
    (hsound : Sound past counter) {call : Call K} (hclock : ∀ old ∈ past, old.now ≤ call.now)
    (hmeets : (counter.record call).Meets past) (hcrowded : counter.crowded call = false) :
    ((counter.record call).answer = .admitted ∧
      ((counted past (counter.record call)).length : ℤ) < (counter.record call).limit) ∨
    ∃ stamp, (counter.record call).limit ≤ ((counted past (counter.record call)).length : ℤ) ∧
      ((counted past (counter.record call)).map Hit.now)[
        (counted past (counter.record call)).length - (counter.record call).limit.toNat]? =
          some stamp ∧
      (counter.record call).answer =
        .wait (stamp + (counter.record call).window - call.now) := by
  have hcounted := hsound.counted_eq hclock hmeets
  have hlength : (counter.kept call).length = (counted past (counter.record call)).length := by
    rw [← hcounted, List.length_map]
  have hlimit := hmeets.limit
  rcases SlidingWindow.hit_cases call counter with ⟨hfull, -⟩ | ⟨-, hanswer, hfew, -⟩ |
    ⟨-, hmany, hanswer, -⟩
  · rw [hcrowded] at hfull
    cases hfull
  · rw [hlength] at hfew
    exact Or.inl ⟨hanswer, hfew⟩
  · rw [hlength] at hmany hanswer
    have hindex : (((counted past (counter.record call)).length : ℤ) -
        (counter.record call).limit).toNat = (counted past (counter.record call)).length -
          (counter.record call).limit.toNat := by omega
    have hlt : (counted past (counter.record call)).length -
        (counter.record call).limit.toNat < (counter.kept call).length := by omega
    obtain ⟨stamp, hstamp⟩ : ∃ stamp, (counter.kept call)[
        (counted past (counter.record call)).length - (counter.record call).limit.toNat]? =
          some stamp := ⟨_, List.getElem?_eq_getElem hlt⟩
    rw [hindex, hstamp] at hanswer
    refine Or.inr ⟨stamp, hmany, by rw [hcounted, hstamp], ?_⟩
    -- the stamp is in the window, so that the time to wait is positive
    have hmem := List.mem_of_getElem? hstamp
    rw [← hcounted] at hmem
    obtain ⟨old, hold, rfl⟩ := List.mem_map.mp hmem
    have hcover := (Bool.and_eq_true_iff.mp (List.mem_filter.mp hold).2).2
    have hafter : (counter.record call).now - (counter.record call).window < old.now :=
      (of_decide_eq_true hcover).1
    have hnow : (counter.record call).now = call.now := rfl
    rw [hnow] at hafter
    rw [hanswer]
    dsimp only
    rw [max_eq_right (by linarith)]

namespace SlidingWindow

variable {counter : SlidingWindow K} {call : Call K}

/-- A call that has to wait has its key in the table. -/
theorem hasRoom_of_wait {seconds : ℚ} (hwait : (counter.record call).answer = .wait seconds) :
    (counter.hit call).2.HasRoom call.key := by
  rcases hit_cases call counter with ⟨-, hanswer, -⟩ | ⟨-, hanswer, -, -⟩ | ⟨-, -, -, hnext⟩
  · rw [hwait] at hanswer
    cases hanswer
  · rw [hwait] at hanswer
    cases hanswer
  · refine Or.inl ?_
    rw [hnext, store, Table.row?_replace, if_pos rfl]
    rfl

theorem crowded_iff : counter.crowded call = true ↔
    (counter.record call).answer = .capacityExhausted := by
  rcases hit_cases call counter with ⟨hcrowded, hanswer, -⟩ | ⟨hcrowded, hanswer, -, -⟩ |
    ⟨hcrowded, -, hanswer, -⟩
  · simp [hcrowded, hanswer]
  · simp [hcrowded, hanswer]
  · rw [hcrowded, hanswer]
    split <;> simp

@[simp]
theorem maxKeys_hit (call : Call K) (counter : SlidingWindow K) :
    (counter.hit call).2.maxKeys = counter.maxKeys := by
  rcases hit_cases call counter with ⟨-, -, hnext⟩ | ⟨-, -, -, hnext⟩ | ⟨-, -, -, hnext⟩ <;>
    rw [hnext] <;> exact maxKeys_opened call counter

theorem maxKeys_after (calls : List (Call K)) (counter : SlidingWindow K) :
    (counter.after calls).maxKeys = counter.maxKeys := by
  induction calls generalizing counter with
  | nil => rfl
  | cons call rest ih => exact (ih _).trans (maxKeys_hit call counter)

end SlidingWindow

/-- The state before a call of a run. -/
theorem sound_split {limit : ℤ} {window : ℚ} {maxKeys : ℤ} {calls : List (Call K)}
    (hclock : calls.Pairwise fun earlier later => earlier.now ≤ later.now)
    {before later : List (Hit K)} {hit : Hit K}
    (hsplit : (SlidingWindow.create limit window maxKeys).history calls =
      before ++ hit :: later) :
    ∃ (counter : SlidingWindow K) (call : Call K), Sound before counter ∧
      counter.maxKeys = maxKeys ∧ hit = counter.record call ∧ (∀ old ∈ before, old.now ≤ call.now) ∧
        ∃ rest, later = (counter.hit call).2.history rest := by
  obtain ⟨first, call, second, rfl, rfl, hhit, hlater⟩ := SlidingWindow.split_history hsplit
  obtain ⟨hfirst, -, hcross⟩ := List.pairwise_append.mp hclock
  refine ⟨_, call, sound_after limit window maxKeys hfirst, SlidingWindow.maxKeys_after .., hhit,
    fun old hold => ?_, second, hlater⟩
  obtain ⟨other, hother, heq⟩ := SlidingWindow.exists_call_of_mem_history hold
  rw [heq]
  exact hcross other hother call (List.mem_cons_self ..)

/-- The time to wait is exact, when nothing is admitted in between. -/
theorem Sound.retry {past between : List (Hit K)} {counter counter' : SlidingWindow K}
    {call call' : Call K} (hsound : Sound past counter)
    (hclock : ∀ old ∈ past, old.now ≤ call.now) (hmeets : (counter.record call).Meets past)
    {seconds : ℚ} (hwait : (counter.record call).answer = .wait seconds)
    (hbetween : ∀ other ∈ between, other.answer ≠ .admitted)
    (hroom : counter'.HasRoom call'.key)
    (hsound' : Sound (past ++ counter.record call :: between) counter')
    (hclock' : ∀ old ∈ past ++ counter.record call :: between, old.now ≤ call'.now)
    (hmeets' : (counter'.record call').Meets (past ++ counter.record call :: between))
    (hkey : (counter'.record call').key = (counter.record call).key)
    (hlimit : (counter'.record call').limit = (counter.record call).limit)
    (hwindow : (counter'.record call').window = (counter.record call).window) :
    (counter'.record call').answer = .admitted ↔ call.now + seconds ≤ call'.now := by
  have hcrowded : counter.crowded call = false := by
    cases hcase : counter.crowded call with
    | false => rfl
    | true =>
        rw [SlidingWindow.crowded_iff.mp hcase] at hwait
        cases hwait
  obtain ⟨hanswer, -⟩ | ⟨stamp, hmany, hstamp, hanswer⟩ := hsound.answer hclock hmeets hcrowded
  · rw [hanswer] at hwait
    cases hwait
  rw [hanswer] at hwait
  obtain rfl : stamp + (counter.record call).window - call.now = seconds :=
    Answer.wait.inj hwait
  have hcounted := counted_retry hclock (hclock' _ (by simp)) (by rw [hanswer]; simp) hbetween
    hkey hwindow
  -- the stamps of the counted calls are in order
  have hordered : ((counted past (counter.record call)).map Hit.now).Pairwise (· ≤ ·) :=
    List.pairwise_map.mpr (hsound.ordered.sublist List.filter_sublist)
  have hfew := Increasing.length_filter_lt_iff hordered
    (n := (counter.record call).limit.toNat) (by rw [List.length_map]; omega)
    (by rw [List.length_map]; exact hstamp) (counter'.record call').start
  rw [List.filter_map, List.length_map] at hfew
  have hlength : (counted (past ++ counter.record call :: between)
      (counter'.record call')).length < (counter.record call).limit.toNat ↔
        stamp ≤ (counter'.record call').start := by
    rw [hcounted]
    exact hfew
  have hstart : stamp ≤ (counter'.record call').start ↔
      call.now + (stamp + (counter.record call).window - call.now) ≤ call'.now := by
    have hnow : (counter'.record call').start =
        call'.now - (counter.record call).window := by rw [← hwindow]; rfl
    rw [hnow]
    constructor <;> intro hle <;> linarith
  have hpositive := hmeets.limit
  rw [← hstart, ← hlength]
  rcases hsound'.answer hclock' hmeets' hroom.not_crowded with
    ⟨hadmitted, hless⟩ | ⟨_, hmore, -, hwaits⟩
  · exact iff_of_true hadmitted (by omega)
  · exact iff_of_false (by rw [hwaits]; simp) (by omega)

/-- The condition is met when no window begins before an earlier one, as with a
setting that does not change. -/
theorem meets_of_starts {history : List (Hit K)}
    (hstarts : history.Pairwise fun earlier later => earlier.start ≤ later.start)
    (hhits : ∀ hit ∈ history, 1 ≤ hit.limit ∧ 0 ≤ hit.now) {before later : List (Hit K)}
    {hit : Hit K} (hsplit : history = before ++ hit :: later) : hit.Meets before := by
  subst hsplit
  obtain ⟨hlimit, hnow⟩ := hhits hit (by simp)
  refine ⟨hlimit, hnow, ?_⟩
  rintro front old between rfl - hcover other hother -
  have hle := (List.pairwise_append.mp hstarts).2.2 other (by simp [hother]) hit
    (List.mem_cons_self ..)
  exact hle.trans_lt hcover

/-- Two calls a minute, also of another key, and a limit that is lowered. -/
def steadyCalls : List (Call ℕ) :=
  [⟨7, 0, none, none⟩, ⟨7, 1, none, none⟩, ⟨8, 2, none, none⟩, ⟨7, 3, some 1, none⟩,
    ⟨7, 61, some 1, none⟩]

/-- A setting of two calls an hour is changed for a moment to two calls a minute. -/
def changedCalls : List (Call ℕ) :=
  [⟨7, 0, some 2, some 3600⟩, ⟨7, 1, some 2, some 3600⟩, ⟨7, 100, some 2, some 60⟩,
    ⟨7, 101, some 2, some 3600⟩]

end Justup.Net
