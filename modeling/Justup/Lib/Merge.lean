import Mathlib

/-!
# Merging streams by a key

The merge of several streams takes the head with the least key, of equal keys
that of the first stream.  Where the streams come in rows whose keys do not
overlap, the merge goes row by row.
-/

namespace Justup.Lib.Merge

variable {α β ι ν τ : Type*} [LinearOrder τ]

/-- Merge two streams; of equal keys the first stream goes first. -/
def merge (key : α → τ) (first second : List α) : List α :=
  first.merge second fun a b => decide (key a ≤ key b)

/-- Merge any number of streams. -/
def mergeAll (key : α → τ) (streams : List (List α)) : List α := streams.foldr (merge key) []

@[simp]
theorem mergeAll_cons (key : α → τ) (stream : List α) (streams : List (List α)) :
    mergeAll key (stream :: streams) = merge key stream (mergeAll key streams) := rfl

theorem mem_mergeAll {key : α → τ} {streams : List (List α)} {a : α} :
    a ∈ mergeAll key streams ↔ ∃ stream ∈ streams, a ∈ stream := by
  induction streams with
  | nil => simp [mergeAll]
  | cons stream streams ih => simp [merge, List.mem_merge, ih]

theorem perm_flatten (key : α → τ) (streams : List (List α)) :
    (mergeAll key streams).Perm streams.flatten := by
  induction streams with
  | nil => exact List.Perm.refl _
  | cons stream streams ih =>
      have hperm : (merge key stream (mergeAll key streams)).Perm
          (stream ++ mergeAll key streams) := List.merge_perm_append _
      exact hperm.trans (ih.append_left stream)

/-- The merge of sorted streams is sorted. -/
theorem pairwise_mergeAll {key : α → τ} {streams : List (List α)}
    (hsorted : ∀ stream ∈ streams, stream.Pairwise fun a b => key a ≤ key b) :
    (mergeAll key streams).Pairwise fun a b => key a ≤ key b := by
  induction streams with
  | nil => exact List.Pairwise.nil
  | cons stream streams ih =>
      have hfirst := hsorted stream (List.mem_cons_self ..)
      have hrest := ih fun other hother => hsorted other (List.mem_cons_of_mem _ hother)
      have hmerge : (merge key stream (mergeAll key streams)).Pairwise
          fun a b => decide (key a ≤ key b) = true := by
        refine List.pairwise_merge (fun a b c hab hbc => ?_) (fun a b => ?_) _ _
          (hfirst.imp decide_eq_true) (hrest.imp decide_eq_true)
        · exact decide_eq_true ((of_decide_eq_true hab).trans (of_decide_eq_true hbc))
        · simpa using le_total (key a) (key b)
      exact hmerge.imp of_decide_eq_true

/-- Streams without members change nothing. -/
theorem mergeAll_filter (key : α → τ) (names : List ν) (stream : ν → List α) (keep : ν → Bool)
    (hempty : ∀ name ∈ names, keep name = false → stream name = []) :
    mergeAll key ((names.filter keep).map stream) = mergeAll key (names.map stream) := by
  induction names with
  | nil => rfl
  | cons name names ih =>
      have hrest := ih fun other hother => hempty other (List.mem_cons_of_mem _ hother)
      cases hkeep : keep name with
      | true => simp [hkeep, hrest]
      | false =>
          have hnil := hempty name (List.mem_cons_self ..) hkeep
          simp [hkeep, hrest, hnil, merge]

/-- Merging keeps away from what is mapped beside the keys. -/
theorem mergeAll_map {key : α → τ} {key' : β → τ} {f : α → β} (hkey : ∀ a, key' (f a) = key a)
    (streams : List (List α)) :
    mergeAll key' (streams.map (List.map f)) = (mergeAll key streams).map f := by
  induction streams with
  | nil => rfl
  | cons stream streams ih =>
      rw [List.map_cons, mergeAll_cons, mergeAll_cons, ih]
      exact (List.map_merge fun a _ b _ => by rw [hkey, hkey]).symm

/-- Two streams are cut at the same time. -/
theorem merge_append {key : α → τ} {first first' second second' : List α}
    (hfirst : ∀ a ∈ first, ∀ b ∈ second', key a < key b)
    (hsecond : ∀ b ∈ second, ∀ a ∈ first', key b < key a) :
    merge key (first ++ first') (second ++ second') =
      merge key first second ++ merge key first' second' := by
  unfold merge
  induction first generalizing second with
  | nil =>
      induction second with
      | nil => simp
      | cons b second ih =>
          have hrest := ih fun b' hb' => hsecond b' (List.mem_cons_of_mem _ hb')
          rw [List.nil_append, List.nil_merge] at hrest ⊢
          cases first' with
          | nil => simp
          | cons a first' =>
              have hlt := hsecond b (List.mem_cons_self ..) a (List.mem_cons_self ..)
              rw [List.cons_append, List.cons_merge_cons_neg _ _ _ (by simpa using hlt), hrest]
              rfl
  | cons a first ih =>
      induction second with
      | nil =>
          have hrest := @ih [] (fun a' ha' => hfirst a' (List.mem_cons_of_mem _ ha')) (by simp)
          rw [List.nil_append, List.merge_right] at hrest ⊢
          cases second' with
          | nil => simp
          | cons b second' =>
              have hlt := hfirst a (List.mem_cons_self ..) b (List.mem_cons_self ..)
              rw [List.cons_append, List.cons_merge_cons_pos _ _ _ (by simpa using hlt.le), hrest]
              rfl
      | cons b second ih' =>
          rw [List.cons_append, List.cons_append, List.cons_merge_cons, List.cons_merge_cons]
          split
          · have hrest := ih (fun a' ha' => hfirst a' (List.mem_cons_of_mem _ ha')) hsecond
            rw [List.cons_append] at hrest
            rw [hrest]
            rfl
          · have hrest := ih' fun b' hb' => hsecond b' (List.mem_cons_of_mem _ hb')
            rw [List.cons_append] at hrest
            rw [hrest]
            rfl

/-- The rows of some streams do not overlap. -/
def Apart (key : α → τ) (rows : List ι) (streams : List (ι → List α)) : Prop :=
  rows.Pairwise fun i j => ∀ f ∈ streams, ∀ g ∈ streams, ∀ a ∈ f i, ∀ b ∈ g j, key a < key b

/-- Streams whose rows do not overlap are merged row by row. -/
theorem mergeAll_flatMap {key : α → τ} {rows : List ι} {streams : List (ι → List α)}
    (hapart : Apart key rows streams) :
    mergeAll key (streams.map fun stream => rows.flatMap stream) =
      rows.flatMap fun i => mergeAll key (streams.map fun stream => stream i) := by
  induction rows with
  | nil =>
      have hnil : ∀ n : ℕ, mergeAll key (List.replicate n ([] : List α)) = [] := by
        intro n
        refine List.eq_nil_iff_forall_not_mem.mpr fun a ha => ?_
        obtain ⟨stream, hstream, ha⟩ := mem_mergeAll.mp ha
        rw [List.eq_of_mem_replicate hstream] at ha
        simp at ha
      simpa using hnil streams.length
  | cons i rows ih =>
      obtain ⟨hfirst, hrest⟩ := List.pairwise_cons.mp hapart
      rw [List.flatMap_cons, ← ih hrest]
      clear ih
      induction streams with
      | nil => rfl
      | cons stream streams ih =>
          have hless := ih (hapart.imp fun h f hf g hg =>
              h f (List.mem_cons_of_mem _ hf) g (List.mem_cons_of_mem _ hg))
            (fun j hj f hf g hg => hfirst j hj f (List.mem_cons_of_mem _ hf) g
              (List.mem_cons_of_mem _ hg))
            (hrest.imp fun h f hf g hg =>
              h f (List.mem_cons_of_mem _ hf) g (List.mem_cons_of_mem _ hg))
          simp only [List.map_cons, mergeAll_cons, List.flatMap_cons] at hless ⊢
          rw [hless]
          refine merge_append (fun a ha b hb => ?_) fun b hb a ha => ?_
          · obtain ⟨other, hother, hb⟩ := mem_mergeAll.mp hb
            obtain ⟨g, hg, rfl⟩ := List.mem_map.mp hother
            obtain ⟨j, hj, hb⟩ := List.mem_flatMap.mp hb
            exact hfirst j hj stream (List.mem_cons_self ..) g (List.mem_cons_of_mem _ hg) a ha b hb
          · obtain ⟨other, hother, hb⟩ := mem_mergeAll.mp hb
            obtain ⟨g, hg, rfl⟩ := List.mem_map.mp hother
            obtain ⟨j, hj, ha⟩ := List.mem_flatMap.mp ha
            exact hfirst j hj g (List.mem_cons_of_mem _ hg) stream (List.mem_cons_self ..) b hb a ha

end Justup.Lib.Merge
