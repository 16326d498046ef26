import Mathlib.Data.List.MinMax
import Mathlib.Data.List.Sort
import Mathlib.Order.Basic

/-!
# Ranking by a key

The elements of a list in descending order of a key, elements of one key in the
order of the list.  Where no two elements share a key, the ranking depends on
the elements alone.
-/

namespace Justup.Lib.Ranking

variable {α β : Type*} [LinearOrder β]

def rankBy (key : α → β) (items : List α) : List α :=
  items.insertionSort fun first second => key second ≤ key first

variable {key : α → β} {items : List α}

theorem rankBy_perm (key : α → β) (items : List α) : (rankBy key items).Perm items :=
  List.perm_insertionSort _ _

@[simp]
theorem mem_rankBy {item : α} : item ∈ rankBy key items ↔ item ∈ items :=
  (rankBy_perm key items).mem_iff

theorem rankBy_pairwise (key : α → β) (items : List α) :
    (rankBy key items).Pairwise fun first second => key second ≤ key first := by
  have htotal : Std.Total fun first second : α => key second ≤ key first :=
    ⟨fun first second => le_total (key second) (key first)⟩
  have htrans : IsTrans α fun first second => key second ≤ key first :=
    ⟨fun _ _ _ hfirst hsecond => hsecond.trans hfirst⟩
  exact List.pairwise_insertionSort _ items

/-- Two lists in descending order with the same elements are the same, when no two elements
share a key. -/
theorem eq_of_perm {first second : List α} (hkeys : (first.map key).Nodup)
    (hfirst : first.Pairwise fun a b => key b ≤ key a)
    (hsecond : second.Pairwise fun a b => key b ≤ key a) (hperm : first.Perm second) :
    first = second := by
  refine hperm.eq_of_pairwise (fun a b ha hb hba hab => ?_) hfirst hsecond
  exact List.inj_on_of_nodup_map hkeys ha (hperm.mem_iff.mpr hb) (le_antisymm hab hba)

theorem nodup_map_rankBy (hkeys : (items.map key).Nodup) : ((rankBy key items).map key).Nodup :=
  ((rankBy_perm key items).map key).nodup_iff.mpr hkeys

theorem rankBy_eq_of_perm {other : List α} (hkeys : (items.map key).Nodup)
    (hperm : items.Perm other) : rankBy key items = rankBy key other :=
  eq_of_perm (nodup_map_rankBy hkeys) (rankBy_pairwise key items) (rankBy_pairwise key other)
    (((rankBy_perm key items).trans hperm).trans (rankBy_perm key other).symm)

/-- Selecting commutes with ranking. -/
theorem filter_rankBy (hkeys : (items.map key).Nodup) (select : α → Bool) :
    (rankBy key items).filter select = rankBy key (items.filter select) := by
  have hsub : ((rankBy key items).filter select).Sublist (rankBy key items) :=
    List.filter_sublist
  exact eq_of_perm ((nodup_map_rankBy hkeys).sublist (hsub.map key))
    ((rankBy_pairwise key items).sublist hsub) (rankBy_pairwise key _)
    (((rankBy_perm key items).filter select).trans (rankBy_perm key _).symm)

/-- The head of a list in descending order has the greatest key. -/
theorem le_head {best : α} {rest : List α}
    (hsorted : (best :: rest).Pairwise fun first second => key second ≤ key first) {item : α}
    (hitem : item ∈ best :: rest) : key item ≤ key best := by
  rcases List.mem_cons.mp hitem with rfl | hrest
  · exact le_rfl
  · exact (List.pairwise_cons.mp hsorted).1 item hrest

/-- The least element does not depend on the order, when no two elements share a key. -/
theorem argmin_eq_of_perm {other : List α}
    (hkeys : ∀ first ∈ items, ∀ second ∈ items, key first = key second → first = second)
    (hperm : items.Perm other) : items.argmin key = other.argmin key := by
  cases hleast : items.argmin key with
  | none =>
      rw [List.argmin_eq_none] at hleast
      subst hleast
      rw [List.nil_perm.mp hperm]
      rfl
  | some least =>
      have hmem := List.argmin_mem hleast
      cases hother : other.argmin key with
      | none =>
          rw [List.argmin_eq_none] at hother
          subst hother
          simp [List.perm_nil.mp hperm] at hmem
      | some least' =>
          have hmem' := hperm.mem_iff.mpr (List.argmin_mem hother)
          have hle := List.le_of_mem_argmin hmem' hleast
          have hge := List.le_of_mem_argmin (hperm.mem_iff.mp hmem) hother
          rw [hkeys least hmem least' hmem' (le_antisymm hle hge)]

end Justup.Lib.Ranking
