import Mathlib

/-!
# Lists from which old elements are dropped

`Retains key cutoff before after` says that `after` is `before` without some of
the elements whose key lies below the cutoff.
-/

namespace Justup.Lib

variable {α τ : Type*} [LinearOrder τ]

/-- Only elements below the cutoff are gone, and the others are in their order. -/
structure Retains (key : α → τ) (cutoff : τ) (before after : List α) : Prop where
  sublist : after.Sublist before
  keeps : ∀ a ∈ before, cutoff ≤ key a → a ∈ after

namespace Retains

variable {key : α → τ} {cutoff : τ} {before middle after : List α}

theorem refl (key : α → τ) (cutoff : τ) (list : List α) : Retains key cutoff list list :=
  ⟨List.Sublist.refl list, fun _ ha _ => ha⟩

theorem trans (hfirst : Retains key cutoff before middle)
    (hsecond : Retains key cutoff middle after) : Retains key cutoff before after :=
  ⟨hsecond.sublist.trans hfirst.sublist,
    fun a ha hle => hsecond.keeps a (hfirst.keeps a ha hle) hle⟩

theorem append {before' after' : List α} (hfirst : Retains key cutoff before after)
    (hsecond : Retains key cutoff before' after') :
    Retains key cutoff (before ++ before') (after ++ after') where
  sublist := hfirst.sublist.append hsecond.sublist
  keeps := by
    intro a ha hle
    rcases List.mem_append.mp ha with hmem | hmem
    · exact List.mem_append_left _ (hfirst.keeps a hmem hle)
    · exact List.mem_append_right _ (hsecond.keeps a hmem hle)

/-- Dropping everything below the cutoff. -/
theorem filter (key : α → τ) (cutoff : τ) (list : List α) :
    Retains key cutoff list (list.filter fun a => decide (cutoff ≤ key a)) where
  sublist := List.filter_sublist
  keeps := fun _ ha hle => List.mem_filter.mpr ⟨ha, decide_eq_true hle⟩

/-- A list that lies below the cutoff can be dropped. -/
theorem nil (hbefore : ∀ a ∈ before, key a < cutoff) : Retains key cutoff before [] where
  sublist := List.nil_sublist before
  keeps := fun a ha hle => absurd (hbefore a ha) (not_lt.mpr hle)

theorem mono {later : τ} (hle : cutoff ≤ later) (hretains : Retains key cutoff before after) :
    Retains key later before after :=
  ⟨hretains.sublist, fun a ha hlater => hretains.keeps a ha (hle.trans hlater)⟩

/-- Above the cutoff nothing has changed. -/
theorem filter_eq (hretains : Retains key cutoff before after) (hnodup : before.Nodup)
    {bound : τ} (hle : cutoff ≤ bound) :
    after.filter (fun a => decide (bound ≤ key a)) =
      before.filter fun a => decide (bound ≤ key a) := by
  have hsub := hretains.sublist.filter fun a => decide (bound ≤ key a)
  refine hsub.eq_of_length_le ?_
  have hbefore := hnodup.filter fun a => decide (bound ≤ key a)
  apply (List.subperm_of_subset hbefore ?_).length_le
  intro a ha
  obtain ⟨hmem, hbound⟩ := List.mem_filter.mp ha
  exact List.mem_filter.mpr
    ⟨hretains.keeps a hmem (hle.trans (of_decide_eq_true hbound)), hbound⟩

end Retains

end Justup.Lib
