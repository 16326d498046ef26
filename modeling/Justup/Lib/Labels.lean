import Mathlib.Data.List.Basic

/-!
# The pieces between separators

A sequence that is framed by a separator on both sides contains each of its
pieces between two separators, and what follows a separator begins a piece.
-/

namespace Justup.Lib.Labels

variable {α : Type*} {s : α}

theorem cons_intercalate (first : List α) (rest : List (List α)) :
    s :: [s].intercalate (first :: rest) = (first :: rest).flatMap (s :: ·) := by
  induction rest generalizing first with
  | nil => simp [List.intercalate]
  | cons second rest ih =>
      have hstep : [s].intercalate (first :: second :: rest) =
          first ++ s :: [s].intercalate (second :: rest) := by
        simp [List.intercalate, List.intersperse]
      rw [hstep, ih second]
      simp

variable [DecidableEq α] {items piece : List α}

/-- What stands between two separators is a piece. -/
theorem mem_splitOn_of_between (hpiece : s ∉ piece) (front back : List α) :
    piece ∈ (front ++ s :: (piece ++ s :: back)).splitOn s := by
  rw [List.splitOn_append_cons_self, List.splitOn_append_cons_self_of_not_mem hpiece]
  exact List.mem_append_right _ (List.mem_cons_self ..)

/-- What stands at the start begins the first piece. -/
theorem exists_head_splitOn (hpiece : s ∉ piece) (back : List α) :
    ∃ first rest, (piece ++ back).splitOn s = first :: rest ∧ piece <+: first := by
  induction piece with
  | nil =>
      obtain ⟨first, rest, hsplit⟩ := List.exists_cons_of_ne_nil (List.splitOn_ne_nil s back)
      exact ⟨first, rest, hsplit, List.nil_prefix⟩
  | cons item piece ih =>
      obtain ⟨hitem, hrest⟩ := not_or.mp (List.mem_cons.not.mp hpiece)
      obtain ⟨first, rest, hsplit, hfirst⟩ := ih hrest
      refine ⟨item :: first, rest, ?_, List.cons_prefix_cons.mpr ⟨rfl, hfirst⟩⟩
      rw [List.cons_append, List.splitOn_cons_eq_if_modifyHead,
        if_neg (by simpa using Ne.symm hitem), hsplit, List.modifyHead_cons]

/-- What follows a separator begins a piece. -/
theorem exists_mem_splitOn_of_after (hpiece : s ∉ piece) (front back : List α) :
    ∃ label ∈ (front ++ s :: (piece ++ back)).splitOn s, piece <+: label := by
  obtain ⟨first, rest, hsplit, hfirst⟩ := exists_head_splitOn hpiece back
  refine ⟨first, ?_, hfirst⟩
  rw [List.splitOn_append_cons_self, hsplit]
  exact List.mem_append_right _ (List.mem_cons_self ..)

/-- A framed sequence contains its pieces between separators. -/
theorem exists_between_of_mem_splitOn (hpiece : piece ∈ items.splitOn s) :
    ∃ front back, s :: (items ++ [s]) = front ++ s :: (piece ++ s :: back) := by
  obtain ⟨first, rest, hsplit⟩ := List.exists_cons_of_ne_nil (List.splitOn_ne_nil s items)
  obtain ⟨before, after, hlabels⟩ := List.append_of_mem hpiece
  have hframed : s :: (items ++ [s]) = (items.splitOn s).flatMap (s :: ·) ++ [s] := by
    rw [hsplit, ← cons_intercalate, ← hsplit, List.intercalate_splitOn, List.cons_append]
  have hafter : ∃ back, after.flatMap (s :: ·) ++ [s] = s :: back := by
    cases after with
    | nil => exact ⟨[], rfl⟩
    | cons next after => exact ⟨_, rfl⟩
  obtain ⟨back, hback⟩ := hafter
  refine ⟨before.flatMap (s :: ·), back, ?_⟩
  rw [hframed, hlabels, List.flatMap_append, List.flatMap_cons, List.append_assoc,
    List.append_assoc, hback, List.cons_append]

/-- The pieces of a framed sequence are its own, but for empty ones. -/
theorem mem_splitOn_framed_iff (hne : piece ≠ []) :
    piece ∈ (s :: (items ++ [s])).splitOn s ↔ piece ∈ items.splitOn s := by
  have hfirst := List.splitOn_append_cons_self (a := s) [] (items ++ [s])
  have hlast := List.splitOn_append_cons_self (a := s) items []
  rw [List.nil_append] at hfirst
  rw [hfirst, hlast]
  simp [hne]

end Justup.Lib.Labels
