import Mathlib.Data.List.TakeWhile
import Mathlib.Order.Lattice

/-!
# Insertion points

Where a value belongs in a sorted list, before or behind the members it equals, and what is found
on either side of a stretch of values that the list does not have.
-/

namespace Justup.Lib.Bisect

variable {α : Type*} [LinearOrder α]

def bisectLeft (list : List α) (value : α) : ℕ :=
  (list.takeWhile fun a => decide (a < value)).length

def bisectRight (list : List α) (value : α) : ℕ :=
  (list.takeWhile fun a => decide (a ≤ value)).length

variable {front back : List α} {low high : α}

theorem bisectLeft_append (hfront : ∀ a ∈ front, a < low) (hback : ∀ a ∈ back, low ≤ a) :
    bisectLeft (front ++ back) low = front.length := by
  have hall : front.takeWhile (fun a => decide (a < low)) = front :=
    List.takeWhile_eq_self_iff.mpr fun a ha => decide_eq_true (hfront a ha)
  rw [bisectLeft, List.takeWhile_append, if_pos (by rw [hall])]
  cases back with
  | nil => simp
  | cons first rest =>
      have hfirst : ¬ first < low := not_lt.mpr (hback first List.mem_cons_self)
      simp [hfirst]

theorem bisectRight_append (hfront : ∀ a ∈ front, a ≤ high) (hback : ∀ a ∈ back, high < a) :
    bisectRight (front ++ back) high = front.length := by
  have hall : front.takeWhile (fun a => decide (a ≤ high)) = front :=
    List.takeWhile_eq_self_iff.mpr fun a ha => decide_eq_true (hfront a ha)
  rw [bisectRight, List.takeWhile_append, if_pos (by rw [hall])]
  cases back with
  | nil => simp
  | cons first rest =>
      have hfirst : ¬ first ≤ high := not_le.mpr (hback first List.mem_cons_self)
      simp [hfirst]

end Justup.Lib.Bisect
