import Mathlib.Order.Basic
import Mathlib.Order.Lattice
import Mathlib.Order.MinMax

/-!
# Tilings of time by keyed periods

Every time has a key and every key a half-open interval.  The intervals tile
time when each time lies in that of its key and in no other's.
-/

namespace Justup.Lib.Tiling

variable {T K : Type*} [LinearOrder T]

structure Tiles (key : T → K) (bounds : K → T × T) : Prop where
  contains : ∀ t, (bounds (key t)).1 ≤ t ∧ t < (bounds (key t)).2
  same : ∀ t u, (bounds (key t)).1 ≤ u → u < (bounds (key t)).2 → key u = key t

variable {key : T → K} {bounds : K → T × T}

/-- Two times have one key exactly when one lies in the period of the other. -/
theorem Tiles.key_eq_iff (htiles : Tiles key bounds) (t u : T) :
    key u = key t ↔ (bounds (key t)).1 ≤ u ∧ u < (bounds (key t)).2 := by
  constructor
  · intro hkey
    rw [← hkey]
    exact htiles.contains u
  · rintro ⟨hlow, hhigh⟩
    exact htiles.same t u hlow hhigh

/-- Periods that share a time are the same period. -/
theorem Tiles.key_eq_of_overlap (htiles : Tiles key bounds) {t u : T}
    (hfirst : (bounds (key t)).1 < (bounds (key u)).2)
    (hsecond : (bounds (key u)).1 < (bounds (key t)).2) : key t = key u := by
  have ht := htiles.contains t
  have hu := htiles.contains u
  obtain ⟨shared, hshared⟩ : ∃ shared, shared = max (bounds (key t)).1 (bounds (key u)).1 :=
    ⟨_, rfl⟩
  have hleft : key shared = key t := by
    refine htiles.same t shared (hshared ▸ le_max_left _ _) ?_
    rw [hshared]
    exact max_lt (ht.1.trans_lt ht.2) hsecond
  have hright : key shared = key u := by
    refine htiles.same u shared (hshared ▸ le_max_right _ _) ?_
    rw [hshared]
    exact max_lt hfirst (hu.1.trans_lt hu.2)
  exact hleft.symm.trans hright

/-- Different periods are disjoint. -/
theorem Tiles.disjoint (htiles : Tiles key bounds) {t u : T} (hkey : key t ≠ key u) :
    (bounds (key t)).2 ≤ (bounds (key u)).1 ∨ (bounds (key u)).2 ≤ (bounds (key t)).1 := by
  by_contra hover
  rw [not_or, not_le, not_le] at hover
  exact hkey (htiles.key_eq_of_overlap hover.2 hover.1)

/-- The next period starts where a period ends. -/
theorem Tiles.next_start (htiles : Tiles key bounds) (t : T) :
    (bounds (key (bounds (key t)).2)).1 = (bounds (key t)).2 := by
  have hnext := htiles.contains (bounds (key t)).2
  refine hnext.1.antisymm (le_of_not_gt fun hbefore => ?_)
  have ht := htiles.contains t
  have hkey := htiles.key_eq_of_overlap ((ht.1.trans_lt ht.2).trans hnext.2) hbefore
  have hinside := (htiles.key_eq_iff t _).mp hkey.symm
  exact lt_irrefl _ hinside.2

end Justup.Lib.Tiling
