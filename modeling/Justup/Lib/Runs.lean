import Mathlib.Data.List.Chain

/-!
# Runs of neighbours

A list is cut into runs from the left: an element joins the run that is being
collected when it resembles the first element of the run and may follow its
last one.
-/

namespace Justup.Lib.Runs

variable {α : Type*} (same next : α → α → Bool)

/-- Collect the run that begins with `first`. -/
def runsFrom (first : α) (others : List α) : List α → List (List α)
  | [] => [first :: others]
  | x :: rest =>
      if same first x && next ((first :: others).getLast (List.cons_ne_nil _ _)) x then
        runsFrom first (others ++ [x]) rest
      else (first :: others) :: runsFrom x [] rest

def runs : List α → List (List α)
  | [] => []
  | x :: rest => runsFrom same next x [] rest

/-- A run: it is not empty, its elements resemble the first, and each may follow the one before. -/
structure IsRun (run : List α) : Prop where
  ne_nil : run ≠ []
  same : ∀ first rest, run = first :: rest → ∀ x ∈ rest, same first x = true
  next : run.IsChain fun x y => next x y = true

variable {same next}

theorem isRun_singleton (x : α) : IsRun same next [x] where
  ne_nil := List.cons_ne_nil _ _
  same := by
    rintro first rest ⟨⟩
    simp
  next := .singleton x

theorem IsRun.snoc {first x : α} {others : List α} (hrun : IsRun same next (first :: others))
    (hsame : same first x = true)
    (hnext : next ((first :: others).getLast (List.cons_ne_nil _ _)) x = true) :
    IsRun same next (first :: (others ++ [x])) where
  ne_nil := List.cons_ne_nil _ _
  same := by
    rintro first' rest ⟨⟩ y hy
    obtain hy | rfl := List.mem_append.mp hy |>.imp_right List.mem_singleton.mp
    · exact hrun.same first others rfl y hy
    · exact hsame
  next := by
    refine hrun.next.append (.singleton x) ?_
    intro last hlast y hy
    rw [List.getLast?_eq_some_getLast (List.cons_ne_nil first others), Option.mem_some_iff] at hlast
    obtain rfl : x = y := by simpa using hy
    rwa [← hlast]

theorem flatten_runsFrom (first : α) (others rest : List α) :
    (runsFrom same next first others rest).flatten = first :: others ++ rest := by
  induction rest generalizing first others with
  | nil => simp [runsFrom]
  | cons x rest ih =>
      unfold runsFrom
      split
      · rw [ih]
        simp
      · rw [List.flatten_cons, ih]
        simp

theorem flatten_runs (list : List α) : (runs same next list).flatten = list := by
  cases list with
  | nil => rfl
  | cons x rest => exact flatten_runsFrom x [] rest

theorem isRun_of_mem_runsFrom {first : α} {others rest run : List α}
    (hfirst : IsRun same next (first :: others))
    (hrun : run ∈ runsFrom same next first others rest) : IsRun same next run := by
  induction rest generalizing first others with
  | nil =>
      rw [runsFrom, List.mem_singleton] at hrun
      exact hrun ▸ hfirst
  | cons x rest ih =>
      unfold runsFrom at hrun
      split at hrun
      · rename_i hjoins
        rw [Bool.and_eq_true] at hjoins
        exact ih (hfirst.snoc hjoins.1 hjoins.2) hrun
      · obtain rfl | hrun := List.mem_cons.mp hrun
        · exact hfirst
        · exact ih (isRun_singleton x) hrun

theorem isRun_of_mem_runs {list run : List α} (hrun : run ∈ runs same next list) :
    IsRun same next run := by
  cases list with
  | nil => cases hrun
  | cons x rest => exact isRun_of_mem_runsFrom (isRun_singleton x) hrun

section Map

variable {β : Type*} {same' next' : β → β → Bool} {f : α → β}

theorem map_runsFrom (hsame : ∀ x y, same' (f x) (f y) = same x y)
    (hnext : ∀ x y, next' (f x) (f y) = next x y) (first : α) (others rest : List α) :
    (runsFrom same next first others rest).map (List.map f) =
      runsFrom same' next' (f first) (others.map f) (rest.map f) := by
  induction rest generalizing first others with
  | nil => simp [runsFrom]
  | cons x rest ih =>
      have hlast : ((f first :: others.map f).getLast (List.cons_ne_nil _ _)) =
          f ((first :: others).getLast (List.cons_ne_nil _ _)) :=
        List.getLast_map (l := first :: others) (f := f) (List.cons_ne_nil _ _)
      unfold runsFrom
      rw [List.map_cons]
      simp only [hlast, hsame, hnext]
      split
      · rw [ih, List.map_append]
        rfl
      · rw [List.map_cons, ih]
        rfl

/-- The runs do not depend on what the elements hold besides. -/
theorem map_runs (hsame : ∀ x y, same' (f x) (f y) = same x y)
    (hnext : ∀ x y, next' (f x) (f y) = next x y) (list : List α) :
    (runs same next list).map (List.map f) = runs same' next' (list.map f) := by
  cases list with
  | nil => rfl
  | cons x rest => exact map_runsFrom hsame hnext x [] rest

end Map

/-- The element that stands for each run: the first one, but of the last run the last. -/
def representatives : List (List α) → List α
  | [] => []
  | [run] => run.getLast?.toList
  | run :: rest => run.head?.toList ++ representatives rest

theorem mem_of_mem_representatives {lists : List (List α)} {member : α}
    (hmember : member ∈ representatives lists) : member ∈ lists.flatten := by
  induction lists with
  | nil => exact hmember
  | cons run rest ih =>
      cases rest with
      | nil =>
          have hrun := List.mem_of_getLast? (Option.mem_toList.mp hmember)
          simpa using hrun
      | cons next rest =>
          rw [List.flatten_cons, List.mem_append]
          obtain hhead | hrest := List.mem_append.mp hmember
          · exact .inl (List.mem_of_mem_head? (Option.mem_toList.mp hhead))
          · exact .inr (ih hrest)

/-- Neighbours on one side are neighbours on the other. -/
theorem isChain_of_forall₂ {β : Type*} {R : α → α → Prop} {S : β → β → Prop} {T : α → β → Prop}
    (hnext : ∀ a b c d, T a c → T b d → R a b → S c d) {list : List α} {other : List β}
    (hforall : List.Forall₂ T list other) (hchain : list.IsChain R) : other.IsChain S := by
  induction hforall with
  | nil => exact .nil
  | cons hhead hrest ih =>
      cases hrest with
      | nil => exact .singleton _
      | cons hsecond hrest =>
          rw [List.isChain_cons_cons] at hchain ⊢
          exact ⟨hnext _ _ _ _ hhead hsecond hchain.1, ih hchain.2⟩

theorem isChain_iff_of_forall₂ {β : Type*} {B R : α → α → Prop} {S : β → β → Prop}
    {T : α → β → Prop} (hnext : ∀ a b c d, T a c → T b d → B a b → (R a b ↔ S c d))
    {list : List α} {other : List β} (hforall : List.Forall₂ T list other)
    (hchain : list.IsChain B) : list.IsChain R ↔ other.IsChain S := by
  induction hforall with
  | nil => exact iff_of_true .nil .nil
  | cons hhead hrest ih =>
      cases hrest with
      | nil => exact iff_of_true (.singleton _) (.singleton _)
      | cons hsecond hrest =>
          rw [List.isChain_cons_cons] at hchain ⊢
          rw [List.isChain_cons_cons]
          exact and_congr (hnext _ _ _ _ hhead hsecond hchain.1) (ih hchain.2)

theorem exists_of_mem_forall₂ {β : Type*} {T : α → β → Prop} {list : List α} {other : List β}
    (hforall : List.Forall₂ T list other) {y : β} (hy : y ∈ other) : ∃ x ∈ list, T x y := by
  induction hforall with
  | nil => cases hy
  | cons hhead _ ih =>
      obtain rfl | hy := List.mem_cons.mp hy
      · exact ⟨_, List.mem_cons_self, hhead⟩
      · obtain ⟨x, hx, hxy⟩ := ih hy
        exact ⟨x, List.mem_cons_of_mem _ hx, hxy⟩

theorem getLast?_of_forall₂ {β : Type*} {T : α → β → Prop} {list : List α} {other : List β}
    (hforall : List.Forall₂ T list other) {y : β} (hy : other.getLast? = some y) :
    ∃ x, list.getLast? = some x ∧ T x y := by
  induction hforall with
  | nil => cases hy
  | cons hhead hrest ih =>
      cases hrest with
      | nil =>
          obtain rfl : _ = y := by simpa using hy
          exact ⟨_, rfl, hhead⟩
      | cons hsecond hrest =>
          rw [List.getLast?_cons_cons] at hy ⊢
          exact ih hy

end Justup.Lib.Runs
