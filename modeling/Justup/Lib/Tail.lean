import Mathlib.Data.List.DropRight

/-!
# The end of a list

`List.rtake n` gives the last `n` elements.  A queue of bounded length that is
filled from one end holds the last elements of what was put into it.
-/

namespace Justup.Lib.Tail

variable {α β : Type*}

theorem rtake_of_length_le {list : List α} {n : Nat} (hle : list.length ≤ n) :
    list.rtake n = list := by
  rw [List.rtake, Nat.sub_eq_zero_of_le hle, List.drop_zero]

@[simp]
theorem length_rtake (list : List α) (n : Nat) : (list.rtake n).length = min n list.length := by
  rw [List.rtake, List.length_drop]
  omega

theorem head?_rtake_one (list : List α) : (list.rtake 1).head? = list.getLast? := by
  rw [List.rtake, List.head?_drop, List.getLast?_eq_getElem?]

/-- A back that is long enough gives all the last elements. -/
theorem rtake_append_of_le {n : Nat} (front : List α) {back : List α} (hle : n ≤ back.length) :
    (front ++ back).rtake n = back.rtake n := by
  have hlength : (front ++ back).length - n = front.length + (back.length - n) := by
    rw [List.length_append]
    omega
  rw [List.rtake, List.rtake, hlength, List.drop_append]
  simp

/-- A back that is too short is filled up from the front. -/
theorem rtake_append {n : Nat} (front : List α) {back : List α} (hle : back.length ≤ n) :
    (front ++ back).rtake n = front.rtake (n - back.length) ++ back := by
  have hlength : (front ++ back).length - n = front.length - (n - back.length) := by
    rw [List.length_append]
    omega
  rw [List.rtake, List.rtake, hlength, List.drop_append_of_le_length (by omega)]

theorem rtake_rtake (list : List α) (m n : Nat) : (list.rtake n).rtake m = list.rtake (min m n) := by
  rw [List.rtake, List.rtake, List.rtake, List.drop_drop, List.length_drop]
  congr 1
  omega

theorem rtake_map (f : α → β) (list : List α) (n : Nat) :
    (list.map f).rtake n = (list.rtake n).map f := by
  rw [List.rtake, List.rtake, List.length_map, List.map_drop]

/-- A suffix that is long enough has the same last elements. -/
theorem rtake_of_suffix {list back : List α} {n : Nat} (hsuffix : back <:+ list)
    (hle : n ≤ back.length) : list.rtake n = back.rtake n := by
  obtain ⟨front, rfl⟩ := hsuffix
  exact rtake_append_of_le front hle

/-- Where nothing is dropped, the last elements are mapped to the last results. -/
theorem filterMap_rtake {f : α → Option β} {list : List α}
    (hall : ∀ a ∈ list, (f a).isSome) (n : Nat) :
    (list.rtake n).filterMap f = (list.filterMap f).rtake n := by
  induction list using List.reverseRecOn generalizing n with
  | nil => simp
  | append_singleton front a ih =>
      obtain ⟨b, hb⟩ := Option.isSome_iff_exists.mp (hall a (by simp))
      have hfront := ih (fun x hx => hall x (by simp [hx]))
      have hsingle : (front ++ [a]).filterMap f = front.filterMap f ++ [b] := by simp [hb]
      cases n with
      | zero => simp
      | succ n =>
          rw [List.rtake_concat_succ, hsingle, List.rtake_concat_succ, List.filterMap_append,
            hfront n]
          simp [hb]

/-- Put an element at the end of a queue of at most `n` elements. -/
def push (n : Nat) (queue : List α) (a : α) : List α := (queue ++ [a]).rtake n

theorem push_rtake (n : Nat) (list : List α) (a : α) :
    push n (list.rtake n) a = (list ++ [a]).rtake n := by
  cases n with
  | zero => simp [push]
  | succ n =>
      rw [push, List.rtake_concat_succ, List.rtake_concat_succ, rtake_rtake,
        min_eq_left (Nat.le_succ n)]

/-- The queue holds the last elements that were put into it. -/
theorem foldl_push (n : Nat) (items queue : List α) (hle : queue.length ≤ n) :
    items.foldl (push n) queue = (queue ++ items).rtake n := by
  induction items using List.reverseRecOn with
  | nil => rw [List.foldl_nil, List.append_nil, rtake_of_length_le hle]
  | append_singleton front a ih =>
      rw [List.foldl_append, List.foldl_cons, List.foldl_nil, ih, push_rtake, List.append_assoc]

end Justup.Lib.Tail
