import Mathlib.Data.List.Perm.Basic
import Mathlib.Data.List.Nodup
import Mathlib.Order.Lattice

/-!
# Lists in strictly increasing order

Lists whose members stand pairwise in an asymmetric relation are determined by
the set of their members.
-/

namespace Justup.Lib.Increasing

variable {α : Type*} {before : α → α → Prop}

theorem nodup_of_pairwise (hasymm : ∀ a b, before a b → ¬ before b a) {list : List α}
    (hlist : list.Pairwise before) : list.Nodup :=
  hlist.imp fun {a b} hbefore heq => by
    subst heq
    exact hasymm a a hbefore hbefore

/-- Any two members are in one of the two orders. -/
theorem before_or_before {list : List α} (hlist : list.Pairwise before) {a b : α}
    (ha : a ∈ list) (hb : b ∈ list) (hne : a ≠ b) : before a b ∨ before b a := by
  induction list with
  | nil => simp at ha
  | cons head rest ih =>
      obtain ⟨hhead, hrest⟩ := List.pairwise_cons.mp hlist
      rcases List.mem_cons.mp ha with heq | hrestA
      · rcases List.mem_cons.mp hb with heq' | hrestB
        · exact absurd (heq.trans heq'.symm) hne
        · exact Or.inl (heq ▸ hhead b hrestB)
      · rcases List.mem_cons.mp hb with heq' | hrestB
        · exact Or.inr (heq' ▸ hhead a hrestA)
        · exact ih hrest hrestA hrestB

/-- Two increasing lists with the same members are the same list. -/
theorem eq_of_mem_iff (hasymm : ∀ a b, before a b → ¬ before b a) {first second : List α}
    (hfirst : first.Pairwise before) (hsecond : second.Pairwise before)
    (hmem : ∀ a, a ∈ first ↔ a ∈ second) : first = second := by
  have hperm : first.Perm second :=
    (List.perm_ext_iff_of_nodup (nodup_of_pairwise hasymm hfirst)
      (nodup_of_pairwise hasymm hsecond)).mpr hmem
  exact hperm.eq_of_pairwise
    (fun a b _ _ hab hba => absurd hba (hasymm a b hab)) hfirst hsecond

/-- An increasing list is cut in two by a set of members that are before all
the others. -/
theorem filter_append_filter_not (hasymm : ∀ a b, before a b → ¬ before b a)
    {list : List α} (hlist : list.Pairwise before) (early : α → Bool)
    (hearly : ∀ a ∈ list, ∀ b ∈ list, early a = true → early b = false → before a b) :
    list.filter early ++ list.filter (fun a => !early a) = list := by
  refine eq_of_mem_iff hasymm ?_ hlist fun a => ?_
  · refine List.pairwise_append.mpr ⟨hlist.filter _, hlist.filter _, ?_⟩
    intro a ha b hb
    obtain ⟨hmemA, hearlyA⟩ := List.mem_filter.mp ha
    obtain ⟨hmemB, hearlyB⟩ := List.mem_filter.mp hb
    exact hearly a hmemA b hmemB hearlyA (by simpa using hearlyB)
  · cases hcase : early a <;> simp [hcase]

/-! ## Cut points -/

section Cut

variable {β : Type*} [LinearOrder β] {f : α → β}

/-- What is left of a list in order behind its small members is not small. -/
theorem lt_of_mem_dropWhile {list : List α}
    (hlist : list.Pairwise fun earlier later => f earlier ≤ f later) (bound : β) :
    ∀ a ∈ list.dropWhile fun a => decide (f a ≤ bound), bound < f a := by
  induction list with
  | nil => simp
  | cons head rest ih =>
      obtain ⟨hhead, hrest⟩ := List.pairwise_cons.mp hlist
      by_cases hle : f head ≤ bound
      · simpa [hle] using ih hrest
      · intro a ha
        rw [List.dropWhile_cons_of_neg (by simpa using hle)] at ha
        rcases List.mem_cons.mp ha with rfl | ha
        · exact not_le.mp hle
        · exact (not_le.mp hle).trans_le (hhead a ha)

/-- Fewer than `n` members of a list in order are behind a bound when the `n`-th
last one is not. -/
theorem length_filter_lt_iff {list : List β} (hlist : list.Pairwise (· ≤ ·)) {n : Nat}
    (hn : n ≤ list.length) {member : β} (hmember : list[list.length - n]? = some member) (bound : β) :
    (list.filter fun a => decide (bound < a)).length < n ↔ member ≤ bound := by
  obtain ⟨hindex, rfl⟩ := List.getElem?_eq_some_iff.mp hmember
  have hsplit := List.take_append_drop (list.length - n) list
  have hdrop := List.drop_eq_getElem_cons hindex
  have hlength : (list.drop (list.length - n)).length = n := by
    rw [List.length_drop]
    omega
  rw [← hsplit, List.pairwise_append] at hlist
  obtain ⟨-, hback, hcross⟩ := hlist
  constructor
  · intro hfew
    by_contra hlt
    -- all of the last `n` members are behind the bound
    have hall : ∀ a ∈ list.drop (list.length - n), bound < a := by
      rw [hdrop] at hback ⊢
      intro a ha
      rcases List.mem_cons.mp ha with rfl | ha
      · exact not_le.mp hlt
      · exact (not_le.mp hlt).trans_le ((List.pairwise_cons.mp hback).1 a ha)
    rw [← hsplit, List.filter_append, List.length_append, List.filter_eq_self.mpr
      fun a ha => decide_eq_true (hall a ha), hlength] at hfew
    omega
  · intro hle
    have hfront : (list.take (list.length - n)).filter (fun a => decide (bound < a)) = [] := by
      refine List.filter_eq_nil_iff.mpr fun a ha hlt => ?_
      have hmem : list[list.length - n] ∈ list.drop (list.length - n) := by
        rw [hdrop]
        exact List.mem_cons_self ..
      exact ((hcross a ha _ hmem).trans hle).not_gt (of_decide_eq_true hlt)
    rw [← hsplit, List.filter_append, hfront, List.nil_append, hdrop,
      List.filter_cons_of_neg (by simpa using hle)]
    refine Nat.lt_of_le_of_lt (List.length_filter_le ..) ?_
    rw [List.length_drop]
    omega

end Cut

end Justup.Lib.Increasing
