import Mathlib
import Justup.Geo.MapPoints

/-!
# Ranges of hop numbers

The hop numbers that a segment crosses follow one another, so they make one range.
-/

namespace Justup.Geo

theorem mem_hopsBetween {first last number : ℤ} :
    number ∈ hopsBetween first last ↔ first ≤ number ∧ number ≤ last := by
  unfold hopsBetween
  rw [List.mem_map]
  constructor
  · rintro ⟨i, hi, rfl⟩
    rw [List.mem_range] at hi
    omega
  · rintro ⟨hfirst, hlast⟩
    refine ⟨(number - first).toNat, ?_, by omega⟩
    rw [List.mem_range]
    omega

theorem hopsBetween_of_lt {first last : ℤ} (hlt : last < first) : hopsBetween first last = [] := by
  rw [List.eq_nil_iff_forall_not_mem]
  intro number hnumber
  rw [mem_hopsBetween] at hnumber
  omega

theorem hopsBetween_isEmpty (first last : ℤ) :
    (hopsBetween first last).isEmpty = decide (last < first) := by
  rw [Bool.eq_iff_iff, List.isEmpty_iff, decide_eq_true_eq]
  refine ⟨fun hnil => ?_, hopsBetween_of_lt⟩
  by_contra hle
  have hmem : first ∈ hopsBetween first last := mem_hopsBetween.mpr ⟨le_rfl, by omega⟩
  rw [hnil] at hmem
  exact List.not_mem_nil hmem

@[simp] theorem hopsBetween_self (number : ℤ) : hopsBetween number number = [number] := by
  have hone : (number + 1 - number).toNat = 1 := by omega
  simp [hopsBetween, hone]

theorem hopsBetween_append {first middle last : ℤ} (hfirst : first ≤ middle + 1)
    (hlast : middle ≤ last) :
    hopsBetween first middle ++ hopsBetween (middle + 1) last = hopsBetween first last := by
  unfold hopsBetween
  have hlength : (last + 1 - first).toNat =
      (middle + 1 - first).toNat + (last + 1 - (middle + 1)).toNat := by omega
  rw [hlength, List.range_add, List.map_append, List.map_map]
  congr 1
  refine List.map_congr_left fun i _ => ?_
  simp only [Function.comp_apply, Nat.cast_add]
  omega

theorem hopsBetween_concat {first last : ℤ} (hle : first ≤ last + 1) :
    hopsBetween first last ++ [last + 1] = hopsBetween first (last + 1) := by
  rw [← hopsBetween_append hle (by omega : last ≤ last + 1), hopsBetween_self]

theorem pairwise_hopsBetween (first last : ℤ) : (hopsBetween first last).Pairwise (· < ·) := by
  unfold hopsBetween
  rw [List.pairwise_map]
  refine List.pairwise_lt_range.imp fun {i j} hlt => ?_
  omega

/-- Adding the numbers of one range makes one range. -/
theorem foldl_addToRanges {first last : ℤ} (hle : first ≤ last) :
    (hopsBetween first last).foldl addToRanges [] = [(first, last)] := by
  induction last, hle using Int.le_induction with
  | base => simp [addToRanges]
  | succ last hle ih =>
      rw [← hopsBetween_concat (by omega), List.foldl_concat, ih]
      simp [addToRanges]

/-- The numbers of one range are one range. -/
theorem hopRanges_hopsBetween {first last : ℤ} (hle : first ≤ last) :
    hopRanges (hopsBetween first last) = [(first, last)] := by
  have hpairwise := pairwise_hopsBetween first last
  have hsorted : (hopsBetween first last).Pairwise fun a b => decide (a ≤ b) = true :=
    hpairwise.imp fun hlt => by simpa using le_of_lt hlt
  unfold hopRanges
  have hnodup : (hopsBetween first last).Nodup := hpairwise.imp fun hlt => ne_of_lt hlt
  rw [List.dedup_eq_self.mpr hnodup, List.mergeSort_of_pairwise hsorted,
    foldl_addToRanges hle]
  rfl

end Justup.Geo
