import Mathlib.Data.List.DropRight
import Mathlib.Data.List.Nodup

/-!
# Maximal runs

The maximal runs of elements with a property in a list, each with the element
behind it, and what one more element at the end does to them.
-/

namespace Justup.Lib.MaximalRuns

variable {α : Type*}

/-- `run` is a maximal run in `list`, and `next` is the element behind it, if any. -/
structure MaximalRun (p : α → Bool) (list run : List α) (next : Option α) : Prop where
  ne_nil : run ≠ []
  all : ∀ a ∈ run, p a = true
  split : ∃ front back, list = front ++ run ++ back ∧ back.head? = next ∧
    (∀ last ∈ front.getLast?, p last = false) ∧ ∀ first ∈ next, p first = false

variable {p : α → Bool} {list run : List α}

/-- The run at the end of a list. -/
theorem rtakeWhile_append {front : List α} (hall : ∀ a ∈ run, p a = true)
    (hfront : ∀ last ∈ front.getLast?, p last = false) : (front ++ run).rtakeWhile p = run := by
  induction run using List.reverseRecOn with
  | nil =>
      rw [List.append_nil, List.rtakeWhile_eq_nil_iff]
      intro hne
      rw [hfront _ (List.getLast?_eq_some_getLast hne)]
      exact Bool.false_ne_true
  | append_singleton run a ih =>
      have hlast := hall a (by simp)
      rw [← List.append_assoc, List.rtakeWhile_concat_pos _ _ _ hlast,
        ih fun b hb => hall b (by simp [hb])]

theorem getLast?_rdropWhile (p : α → Bool) (list : List α) :
    ∀ last ∈ (list.rdropWhile p).getLast?, p last = false := by
  intro last hlast
  have hne : list.rdropWhile p ≠ [] := by
    intro hnil
    simp [hnil] at hlast
  have hnot := List.rdropWhile_last_not p list hne
  rw [List.getLast?_eq_some_getLast hne, Option.mem_some_iff] at hlast
  rw [← hlast]
  simpa using hnot

/-- The element behind a run is in the list and not like the run. -/
theorem MaximalRun.of_next {next : α} (hrun : MaximalRun p list run (some next)) :
    next ∈ list ∧ p next = false := by
  obtain ⟨front, back, rfl, hback, -, hnext⟩ := hrun.split
  exact ⟨List.mem_append_right _ (List.mem_of_mem_head? hback), hnext next rfl⟩

/-- Every element with the property is in a maximal run. -/
theorem exists_maximalRun {a : α} {front back : List α} (hlist : list = front ++ a :: back)
    (ha : p a = true) : ∃ run next, MaximalRun p list run next ∧ a ∈ run := by
  have hmem : a ∈ front.rtakeWhile p ++ a :: back.takeWhile p :=
    List.mem_append_right _ List.mem_cons_self
  refine ⟨front.rtakeWhile p ++ a :: back.takeWhile p, (back.dropWhile p).head?,
    ⟨List.ne_nil_of_mem hmem, ?_, front.rdropWhile p, back.dropWhile p, ?_, rfl,
      getLast?_rdropWhile p front, ?_⟩, hmem⟩
  · intro b hb
    obtain hb | hb := List.mem_append.mp hb
    · exact List.mem_rtakeWhile_imp hb
    · obtain rfl | hb := List.mem_cons.mp hb
      · exact ha
      · exact List.mem_takeWhile_imp hb
  · rw [hlist, ← List.append_assoc, List.rdropWhile_append_rtakeWhile, List.append_assoc,
      List.cons_append, List.takeWhile_append_dropWhile]
  · intro first hfirst
    have hnot := List.head?_dropWhile_not p back
    rw [Option.mem_def.mp hfirst] at hnot
    exact hnot

/-- A stretch with the property is in one run, or in none of it. -/
theorem MaximalRun.mem_iff_of_stretch {next : Option α} (hrun : MaximalRun p list run next)
    (hnodup : list.Nodup) {a b : α} {front mid back : List α}
    (hlist : list = front ++ a :: mid ++ b :: back)
    (hstretch : ∀ x ∈ a :: (mid ++ [b]), p x = true) : a ∈ run ↔ b ∈ run := by
  obtain ⟨before, behind, hsplit, hnext, hbefore, hbehind⟩ := hrun.split
  constructor
  · intro ha
    obtain ⟨first, second, rfl⟩ := List.append_of_mem ha
    have hboth : front ++ a :: (mid ++ b :: back) =
        (before ++ first) ++ a :: (second ++ behind) := by
      simpa [hlist] using hsplit
    rw [hlist, List.append_assoc, List.cons_append] at hnodup
    have hnot := (List.nodup_middle.mp hnodup).notMem
    rw [List.mem_append, not_or] at hnot
    obtain ⟨rfl, -, htail⟩ := (List.append_cons_inj_of_notMem hnot.1 hnot.2).mp hboth
    obtain ⟨rest, rfl, hrest⟩ | ⟨rest, rfl, rfl⟩ := List.append_eq_append_iff.mp htail
    · cases rest with
      | nil =>
          have hfalse := hbehind b (by rw [← hnext, ← List.nil_append behind, ← hrest]; rfl)
          rw [hstretch b (by simp)] at hfalse
          cases hfalse
      | cons x rest =>
          obtain ⟨rfl, -⟩ := List.cons.inj hrest
          simp
    · cases rest with
      | nil =>
          have hfalse := hbehind b (by rw [← hnext]; rfl)
          rw [hstretch b (by simp)] at hfalse
          cases hfalse
      | cons x rest =>
          have hfalse := hbehind x (by rw [← hnext]; rfl)
          rw [hstretch x (by simp)] at hfalse
          cases hfalse
  · intro hb
    obtain ⟨first, second, rfl⟩ := List.append_of_mem hb
    have hboth : (front ++ a :: mid) ++ b :: back =
        (before ++ first) ++ b :: (second ++ behind) := by
      simpa [hlist] using hsplit
    rw [hlist] at hnodup
    have hnot := (List.nodup_middle.mp hnodup).notMem
    rw [List.mem_append, not_or] at hnot
    obtain ⟨hhead, -, -⟩ := (List.append_cons_inj_of_notMem hnot.1 hnot.2).mp hboth
    obtain ⟨rest, hrest, htail⟩ | ⟨rest, rfl, hrest⟩ := List.append_eq_append_iff.mp hhead
    · rcases List.eq_nil_or_concat' rest with rfl | ⟨init, x, rfl⟩
      · rw [List.nil_append] at htail
        simp [← htail]
      · have hfalse := hbefore x (by rw [hrest, ← List.append_assoc, List.getLast?_concat]; rfl)
        have hx : x ∈ a :: mid := by rw [htail]; simp
        rw [hstretch x (by simp only [List.mem_cons, List.mem_append] at hx ⊢; tauto)] at hfalse
        cases hfalse
    · simp [hrest]

/-- A run that nothing follows is the run at the end. -/
theorem maximalRun_none_iff :
    MaximalRun p list run none ↔ run = list.rtakeWhile p ∧ run ≠ [] := by
  constructor
  · rintro ⟨hne, hall, front, back, rfl, hback, hfront, -⟩
    rw [List.head?_eq_none_iff.mp hback, List.append_nil, rtakeWhile_append hall hfront]
    exact ⟨rfl, hne⟩
  · rintro ⟨rfl, hne⟩
    refine ⟨hne, fun a ha => List.mem_rtakeWhile_imp ha, list.rdropWhile p, [], ?_, rfl,
      getLast?_rdropWhile p list, by simp⟩
    rw [List.append_nil, List.rdropWhile_append_rtakeWhile]

/-- One more element may close the run at the end. -/
theorem maximalRun_snoc_iff {x next : α} :
    MaximalRun p (list ++ [x]) run (some next) ↔ MaximalRun p list run (some next) ∨
      (next = x ∧ p x = false ∧ run = list.rtakeWhile p ∧ run ≠ []) := by
  constructor
  · rintro ⟨hne, hall, front, back, hsplit, hback, hfront, hnext⟩
    rcases List.eq_nil_or_concat' back with rfl | ⟨rest, last, rfl⟩
    · simp at hback
    · rw [← List.append_assoc] at hsplit
      obtain ⟨hlist, hlast⟩ := List.append_inj' hsplit rfl
      obtain rfl : x = last := by simpa using hlast
      cases rest with
      | nil =>
          obtain rfl : x = next := by simpa using hback
          rw [List.append_nil] at hlist
          subst hlist
          rw [rtakeWhile_append hall hfront]
          exact Or.inr ⟨rfl, hnext x rfl, rfl, hne⟩
      | cons first rest =>
          exact Or.inl ⟨hne, hall, front, first :: rest, hlist, hback, hfront, hnext⟩
  · rintro (⟨hne, hall, front, back, rfl, hback, hfront, hnext⟩ | ⟨rfl, hfalse, hrun, hne⟩)
    · refine ⟨hne, hall, front, back ++ [x], by simp, ?_, hfront, hnext⟩
      rw [List.head?_append, hback]
      rfl
    · obtain ⟨-, hall, front, back, hsplit, hback, hfront, -⟩ := maximalRun_none_iff.mpr ⟨hrun, hne⟩
      rw [List.head?_eq_none_iff.mp hback, List.append_nil] at hsplit
      refine ⟨hne, hall, front, [next], by rw [hsplit], rfl, hfront, ?_⟩
      rintro first ⟨⟩
      exact hfalse

end Justup.Lib.MaximalRuns
