import Mathlib.Data.List.Lex
import Mathlib.Order.Compare
import Mathlib.Order.Lattice

/-!
# Sequences compared at a common width

Sequences of different lengths are compared after filling them up to a common
width.  Which width is taken does not matter.  The comparison is given as a
number: negative, zero or positive.
-/

namespace Justup.Lib.Padded

variable {α : Type*}

def pad (fill : α) (width : ℕ) (items : List α) : List α :=
  items ++ List.replicate (width - items.length) fill

variable {fill : α} {width wider : ℕ} {items other : List α}

theorem length_pad (hwidth : items.length ≤ width) : (pad fill width items).length = width := by
  simp [pad, hwidth]

theorem pad_wider (hwidth : items.length ≤ width) (hwider : width ≤ wider) :
    pad fill wider items = pad fill width items ++ List.replicate (wider - width) fill := by
  have hsplit : wider - items.length = (width - items.length) + (wider - width) := by omega
  rw [pad, pad, hsplit, List.replicate_add, List.append_assoc]

theorem pad_eq_iff (fill : α) (hitems : items.length ≤ width) (hother : other.length ≤ width)
    (hwider : width ≤ wider) :
    pad fill wider items = pad fill wider other ↔ pad fill width items = pad fill width other := by
  rw [pad_wider hitems hwider, pad_wider hother hwider, List.append_left_inj]

section Order

variable [LinearOrder α]

theorem append_lt_append_iff {first second : List α} (hlength : first.length = second.length)
    (tail : List α) : first ++ tail < second ++ tail ↔ first < second := by
  induction first generalizing second with
  | nil =>
      rw [List.length_eq_zero_iff.mp hlength.symm]
      simp
  | cons item rest ih =>
      cases second with
      | nil => simp at hlength
      | cons item' rest' =>
          have hrest : rest.length = rest'.length := by simpa using hlength
          rw [List.cons_append, List.cons_append, List.cons_lt_cons_iff, List.cons_lt_cons_iff,
            ih hrest]

theorem pad_lt_iff (fill : α) (hitems : items.length ≤ width) (hother : other.length ≤ width)
    (hwider : width ≤ wider) :
    pad fill wider items < pad fill wider other ↔ pad fill width items < pad fill width other := by
  rw [pad_wider hitems hwider, pad_wider hother hwider]
  exact append_lt_append_iff ((length_pad hitems).trans (length_pad hother).symm) _

end Order

/-- Filling up a sequence that ends in the filling. -/
theorem pad_append_replicate (count : ℕ) (hwidth : items.length + count ≤ width) :
    pad fill width (items ++ List.replicate count fill) = pad fill width items := by
  have hsplit : width - items.length = count + (width - (items.length + count)) := by omega
  rw [pad, pad, List.length_append, List.length_replicate, List.append_assoc, hsplit,
    List.replicate_add]

/-- The sign of a comparison. -/
def sign [LinearOrder α] (first second : α) : ℤ :=
  if first < second then -1 else if second < first then 1 else 0

section Sign

variable [LinearOrder α] {first second : α}

@[simp]
theorem sign_self : sign first first = 0 := by simp [sign]

theorem sign_swap (first second : α) : sign second first = -sign first second := by
  rcases lt_trichotomy first second with hlt | rfl | hlt
  · simp [sign, hlt, hlt.not_gt]
  · simp
  · simp [sign, hlt, hlt.not_gt]

theorem sign_nonpos_iff : sign first second ≤ 0 ↔ first ≤ second := by
  rcases lt_trichotomy first second with hlt | rfl | hlt
  · simp [sign, hlt, hlt.le]
  · simp
  · simp [sign, hlt, hlt.not_gt, hlt.not_ge]

theorem sign_eq_neg_one_iff : sign first second = -1 ↔ first < second := by
  rcases lt_trichotomy first second with hlt | rfl | hlt
  · simp [sign, hlt]
  · simp
  · simp [sign, hlt, hlt.not_gt]

end Sign

end Justup.Lib.Padded
