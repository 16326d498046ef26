import Mathlib.Data.Int.Order.Basic
import Mathlib.Data.List.Induction
import Mathlib.Order.Lattice
import Mathlib.Order.Basic

/-!
# Sets of integers as lists of spans

A span is a pair of its first and its last integer.  Spans that come in the order
of their first integers are merged into spans that neither overlap nor touch, and
such a list is determined by the integers it covers.
-/

namespace Justup.Lib.Spans

abbrev Span := ℤ × ℤ

def Span.Contains (span : Span) (n : ℤ) : Prop := span.1 ≤ n ∧ n ≤ span.2

def Covers (spans : List Span) (n : ℤ) : Prop := ∃ span ∈ spans, span.Contains n

/-- The spans ascend, and between two of them at least one integer is missing. -/
structure Separated (spans : List Span) : Prop where
  nonempty : ∀ span ∈ spans, span.1 ≤ span.2
  gaps : spans.Pairwise fun span other => span.2 + 1 < other.1

/-- One more span: it grows the last one when it overlaps or touches it. -/
def mergeSpan (merged : List Span) (span : Span) : List Span :=
  match merged.getLast? with
  | none => [span]
  | some last =>
      if span.1 ≤ last.2 + 1 then merged.dropLast ++ [(last.1, max last.2 span.2)]
      else merged ++ [span]

def merge (spans : List Span) : List Span := spans.foldl mergeSpan []

theorem covers_append {spans others : List Span} {n : ℤ} :
    Covers (spans ++ others) n ↔ Covers spans n ∨ Covers others n := by
  simp only [Covers, List.mem_append, or_and_right, exists_or]

theorem covers_cons {span : Span} {spans : List Span} {n : ℤ} :
    Covers (span :: spans) n ↔ span.Contains n ∨ Covers spans n := by
  simp [Covers]

theorem covers_singleton {span : Span} {n : ℤ} : Covers [span] n ↔ span.Contains n := by
  simp [Covers]

theorem Separated.tail {span : Span} {spans : List Span} (h : Separated (span :: spans)) :
    Separated spans where
  nonempty other hother := h.nonempty other (List.mem_cons_of_mem _ hother)
  gaps := (List.pairwise_cons.mp h.gaps).2

/-- What was merged so far covers the spans that came, and no span of it begins after all of them. -/
structure Merged (spans merged : List Span) : Prop where
  separated : Separated merged
  covers : ∀ n, Covers merged n ↔ Covers spans n
  starts : ∀ span ∈ merged, ∃ other ∈ spans, other.1 = span.1

theorem merged_nil : Merged [] [] where
  separated := ⟨fun _ hspan => absurd hspan List.not_mem_nil, .nil⟩
  covers _ := Iff.rfl
  starts _ hspan := absurd hspan List.not_mem_nil

/-- The last span grows by one that begins within it or right behind it. -/
theorem Merged.grow {spans before : List Span} {last span : Span}
    (h : Merged spans (before ++ [last])) (hspan : span.1 ≤ span.2) (hlow : last.1 ≤ span.1)
    (htouch : span.1 ≤ last.2 + 1) :
    Merged (spans ++ [span]) (before ++ [(last.1, max last.2 span.2)]) where
  separated := by
    obtain ⟨hbefore, -, hgap⟩ := List.pairwise_append.mp h.separated.gaps
    refine ⟨fun other hother => ?_, List.pairwise_append.mpr ⟨hbefore, List.pairwise_singleton _ _,
      fun other hother grown hgrown => ?_⟩⟩
    · rcases List.mem_append.mp hother with hother | hother
      · exact h.separated.nonempty other (List.mem_append_left _ hother)
      · obtain rfl := List.mem_singleton.mp hother
        exact hlow.trans (hspan.trans (le_max_right _ _))
    · obtain rfl := List.mem_singleton.mp hgrown
      exact hgap other hother last (List.mem_singleton_self last)
  covers n := by
    have hall := h.covers n
    have hlast := h.separated.nonempty last (by simp)
    rw [covers_append, covers_singleton] at hall ⊢
    rw [covers_append, covers_singleton, ← hall, or_assoc]
    refine or_congr_right ?_
    unfold Span.Contains
    have hmax : n ≤ max last.2 span.2 ↔ n ≤ last.2 ∨ n ≤ span.2 := by omega
    simp only [hmax]
    omega
  starts other hother := by
    rcases List.mem_append.mp hother with hother | hother
    · obtain ⟨first, hfirst, heq⟩ := h.starts other (List.mem_append_left _ hother)
      exact ⟨first, List.mem_append_left _ hfirst, heq⟩
    · obtain rfl := List.mem_singleton.mp hother
      obtain ⟨first, hfirst, heq⟩ := h.starts last (by simp)
      exact ⟨first, List.mem_append_left _ hfirst, heq⟩

/-- A span behind all others is added. -/
theorem Merged.add {spans merged : List Span} {span : Span} (h : Merged spans merged)
    (hspan : span.1 ≤ span.2) (hgap : ∀ other ∈ merged, other.2 + 1 < span.1) :
    Merged (spans ++ [span]) (merged ++ [span]) where
  separated := by
    refine ⟨fun other hother => ?_, List.pairwise_append.mpr ⟨h.separated.gaps,
      List.pairwise_singleton _ _, fun other hother added hadded => ?_⟩⟩
    · rcases List.mem_append.mp hother with hother | hother
      · exact h.separated.nonempty other hother
      · rwa [List.mem_singleton.mp hother]
    · rw [List.mem_singleton.mp hadded]
      exact hgap other hother
  covers n := by rw [covers_append, covers_append, h.covers n]
  starts other hother := by
    rcases List.mem_append.mp hother with hother | hother
    · obtain ⟨first, hfirst, heq⟩ := h.starts other hother
      exact ⟨first, List.mem_append_left _ hfirst, heq⟩
    · exact ⟨span, by simp, by rw [List.mem_singleton.mp hother]⟩

theorem Merged.mergeSpan {spans merged : List Span} {span : Span} (h : Merged spans merged)
    (hspan : span.1 ≤ span.2) (hsorted : ∀ other ∈ spans, other.1 ≤ span.1) :
    Merged (spans ++ [span]) (mergeSpan merged span) := by
  unfold Spans.mergeSpan
  rcases List.eq_nil_or_concat merged with rfl | ⟨before, last, rfl⟩
  · simpa using h.add hspan (fun other hother => absurd hother List.not_mem_nil)
  · rw [List.concat_eq_append] at h ⊢
    rw [List.getLast?_concat, List.dropLast_concat]
    dsimp only
    split
    next htouch =>
      obtain ⟨first, hfirst, heq⟩ := h.starts last (by simp)
      exact h.grow hspan (heq ▸ hsorted first hfirst) htouch
    next htouch =>
      refine h.add hspan fun other hother => ?_
      rcases List.mem_append.mp hother with hother | hother
      · have hbefore := (List.pairwise_append.mp h.separated.gaps).2.2 other hother last (by simp)
        have hlast := h.separated.nonempty last (by simp)
        omega
      · rw [List.mem_singleton.mp hother]
        omega

/-- Merging spans in the order of their first integers. -/
theorem merged_merge {spans : List Span} (hspans : ∀ span ∈ spans, span.1 ≤ span.2)
    (hsorted : spans.Pairwise fun span other => span.1 ≤ other.1) : Merged spans (merge spans) := by
  induction spans using List.reverseRecOn with
  | nil => exact merged_nil
  | append_singleton spans span ih =>
      obtain ⟨hbefore, -, hlast⟩ := List.pairwise_append.mp hsorted
      rw [merge, List.foldl_append]
      exact (ih (fun other hother => hspans other (List.mem_append_left _ hother)) hbefore).mergeSpan
        (hspans span (by simp)) fun other hother => hlast other hother span (by simp)

/-- The first integer of the first span is the least that is covered. -/
theorem Separated.first_le {span : Span} {spans : List Span} (h : Separated (span :: spans)) {n : ℤ}
    (hn : Covers (span :: spans) n) : span.1 ≤ n := by
  rcases covers_cons.mp hn with hn | ⟨other, hother, hn⟩
  · exact hn.1
  · have hgap := (List.pairwise_cons.mp h.gaps).1 other hother
    have hspan := h.nonempty span List.mem_cons_self
    have hlow := hn.1
    omega

/-- Up to the end of the first span and one further the other spans cover nothing. -/
theorem Separated.lt_of_covers_tail {span : Span} {spans : List Span}
    (h : Separated (span :: spans)) {n : ℤ} (hn : Covers spans n) : span.2 + 1 < n := by
  obtain ⟨other, hother, hn⟩ := hn
  have hgap := (List.pairwise_cons.mp h.gaps).1 other hother
  have hlow := hn.1
  omega

theorem Separated.covers_tail_iff {span : Span} {spans : List Span} (h : Separated (span :: spans))
    (n : ℤ) : Covers spans n ↔ Covers (span :: spans) n ∧ span.2 < n := by
  rw [covers_cons]
  constructor
  · intro hn
    have hlt := h.lt_of_covers_tail hn
    exact ⟨.inr hn, by omega⟩
  · rintro ⟨hn | hn, hlt⟩
    · exact absurd hn.2 (not_le.mpr hlt)
    · exact hn

/-- The end of the first span is not before that of another list that covers the same. -/
theorem Separated.last_le {span other : Span} {spans others : List Span}
    (h : Separated (span :: spans))
    (hsame : ∀ n, Covers (span :: spans) n ↔ Covers (other :: others) n)
    (hfirst : span.1 = other.1) : other.2 ≤ span.2 := by
  by_contra hlt
  have hspan := h.nonempty span List.mem_cons_self
  have hcovered : Covers (span :: spans) (span.2 + 1) :=
    (hsame _).mpr (covers_cons.mpr (.inl ⟨by omega, by omega⟩))
  rcases covers_cons.mp hcovered with hn | hn
  · exact absurd hn.2 (by omega)
  · exact absurd (h.lt_of_covers_tail hn) (by omega)

/-- Separated spans are determined by what they cover. -/
theorem Separated.eq_of_covers {spans others : List Span} (h : Separated spans)
    (h' : Separated others) (hsame : ∀ n, Covers spans n ↔ Covers others n) : spans = others := by
  have hfirst : ∀ {span : Span} {spans : List Span}, Separated (span :: spans) →
      Covers (span :: spans) span.1 := fun h =>
    covers_cons.mpr (.inl ⟨le_rfl, h.nonempty _ List.mem_cons_self⟩)
  induction spans generalizing others with
  | nil =>
      cases others with
      | nil => rfl
      | cons other others =>
          obtain ⟨span, hspan, -⟩ := (hsame _).mpr (hfirst h')
          exact absurd hspan List.not_mem_nil
  | cons span spans ih =>
      cases others with
      | nil =>
          obtain ⟨other, hother, -⟩ := (hsame _).mp (hfirst h)
          exact absurd hother List.not_mem_nil
      | cons other others =>
          have hstart : span.1 = other.1 :=
            le_antisymm (h.first_le ((hsame _).mpr (hfirst h')))
              (h'.first_le ((hsame _).mp (hfirst h)))
          have hend : span.2 = other.2 :=
            le_antisymm (h'.last_le (fun n => (hsame n).symm) hstart.symm) (h.last_le hsame hstart)
          obtain rfl : span = other := Prod.ext hstart hend
          rw [ih h.tail h'.tail fun n => by
            rw [h.covers_tail_iff, h'.covers_tail_iff, hsame n]]

end Justup.Lib.Spans
