import Mathlib.Data.List.Basic

/-!
# Runs of a partial labelled transition function

A system is a function `step : σ → α → Option σ`; `none` says that the action
is not enabled.  An invariant is proved for one step and lifted here to every
run, also when it is kept only by the steps that meet a condition.
-/

namespace Justup.Lib.Transition

variable {σ α : Type*}

/-- Perform the actions one after another; every one of them must be enabled. -/
def run (step : σ → α → Option σ) : σ → List α → Option σ
  | state, [] => some state
  | state, action :: rest =>
      match step state action with
      | none => none
      | some next => run step next rest

/-- Every action of the run meets `ok` in the state in which it is performed. -/
def RunOk (step : σ → α → Option σ) (ok : σ → α → Prop) : σ → List α → Prop
  | _, [] => True
  | state, action :: rest =>
      ok state action ∧ ∀ next, step state action = some next → RunOk step ok next rest

instance decidableRunOk (step : σ → α → Option σ) (ok : σ → α → Prop)
    [∀ state action, Decidable (ok state action)] :
    ∀ state acts, Decidable (RunOk step ok state acts)
  | _, [] => isTrue trivial
  | state, action :: rest =>
      match hstep : step state action with
      | none => decidable_of_iff (ok state action) (by simp [RunOk, hstep])
      | some next =>
          have := decidableRunOk step ok next rest
          decidable_of_iff (ok state action ∧ RunOk step ok next rest) (by simp [RunOk, hstep])

variable {step : σ → α → Option σ}

theorem run_cons {state final : σ} {action : α} {rest : List α}
    (hrun : run step state (action :: rest) = some final) :
    ∃ next, step state action = some next ∧ run step next rest = some final := by
  cases hstep : step state action with
  | none => simp [run, hstep] at hrun
  | some next => exact ⟨next, rfl, by simpa [run, hstep] using hrun⟩

theorem run_append (state : σ) (first second : List α) :
    run step state (first ++ second) =
      (run step state first).bind fun middle => run step middle second := by
  induction first generalizing state with
  | nil => rfl
  | cons action rest ih =>
      simp only [List.cons_append, run]
      cases step state action with
      | none => rfl
      | some next => exact ih next

theorem run_snoc {state final : σ} {acts : List α} {action : α}
    (hrun : run step state (acts ++ [action]) = some final) :
    ∃ middle, run step state acts = some middle ∧ step middle action = some final := by
  rw [run_append, Option.bind_eq_some_iff] at hrun
  obtain ⟨middle, hfirst, hlast⟩ := hrun
  obtain ⟨next, hstep, hdone⟩ := run_cons hlast
  cases hdone
  exact ⟨middle, hfirst, hstep⟩

/-- Every condition holds of a run without conditions. -/
theorem runOk_of_forall {ok : σ → α → Prop} (hok : ∀ state action, ok state action)
    (state : σ) (acts : List α) : RunOk step ok state acts := by
  induction acts generalizing state with
  | nil => trivial
  | cons action rest ih => exact ⟨hok state action, fun next _ => ih next⟩

theorem RunOk.mono {ok ok' : σ → α → Prop} (hweaker : ∀ {state action}, ok state action →
    ok' state action) {state : σ} {acts : List α} (hok : RunOk step ok state acts) :
    RunOk step ok' state acts := by
  induction acts generalizing state with
  | nil => trivial
  | cons action rest ih => exact ⟨hweaker hok.1, fun next hnext => ih (hok.2 next hnext)⟩

/-- What every step that meets `ok` preserves, every run of such steps preserves. -/
theorem run_invariant_of {inv : σ → Prop} {ok : σ → α → Prop}
    (hstep : ∀ {state action next}, inv state → ok state action →
      step state action = some next → inv next)
    {state final : σ} {acts : List α} (hok : RunOk step ok state acts)
    (hinv : inv state) (hrun : run step state acts = some final) : inv final := by
  induction acts generalizing state with
  | nil => cases hrun; exact hinv
  | cons action rest ih =>
      obtain ⟨next, hnext, hrest⟩ := run_cons hrun
      exact ih (hok.2 next hnext) (hstep hinv hok.1 hnext) hrest

/-- What every step preserves, every run preserves. -/
theorem run_invariant {inv : σ → Prop}
    (hstep : ∀ {state action next}, inv state → step state action = some next → inv next)
    {state final : σ} {acts : List α} (hinv : inv state)
    (hrun : run step state acts = some final) : inv final :=
  have hok : RunOk step (fun _ _ => True) state acts :=
    runOk_of_forall (fun _ _ => trivial) state acts
  run_invariant_of (fun hinv _ hnext => hstep hinv hnext) hok hinv hrun

/-- A relation between states that is reflexive, transitive and holds across
every step holds across every run. -/
theorem run_relation {rel : σ → σ → Prop} (hrefl : ∀ state, rel state state)
    (htrans : ∀ {first middle last}, rel first middle → rel middle last → rel first last)
    (hstep : ∀ {state action next}, step state action = some next → rel state next)
    {state final : σ} {acts : List α} (hrun : run step state acts = some final) :
    rel state final :=
  @run_invariant _ _ _ (rel state) (fun hrel hnext => htrans hrel (hstep hnext))
    _ _ _ (hrefl state) hrun

/-- Hidden actions keep a relation to a state that does not move, and visible ones are matched:
the run without the hidden actions ends in a related state. -/
theorem run_visible {rel : σ → σ → Prop} {ok : σ → α → Prop} {visible : α → Bool}
    (hhidden : ∀ {state other action next}, rel state other → ok state action →
      visible action = false → step state action = some next → rel next other)
    (hvisible : ∀ {state other action next}, rel state other → ok state action →
      visible action = true → step state action = some next →
        ∃ next', step other action = some next' ∧ rel next next')
    {state other final : σ} {acts : List α} (hok : RunOk step ok state acts)
    (hrel : rel state other) (hrun : run step state acts = some final) :
    ∃ final', run step other (acts.filter visible) = some final' ∧ rel final final' := by
  induction acts generalizing state other with
  | nil =>
      cases hrun
      exact ⟨other, rfl, hrel⟩
  | cons action rest ih =>
      obtain ⟨next, hnext, hrest⟩ := run_cons hrun
      cases hshown : visible action with
      | false =>
          rw [List.filter_cons_of_neg (by simp [hshown])]
          exact ih (hok.2 next hnext) (hhidden hrel hok.1 hshown hnext) hrest
      | true =>
          obtain ⟨next', hnext', hrel'⟩ := hvisible hrel hok.1 hshown hnext
          obtain ⟨final', hfinal, hend⟩ := ih (hok.2 next hnext) hrel' hrest
          refine ⟨final', ?_, hend⟩
          rw [List.filter_cons_of_pos hshown]
          simpa only [run, hnext'] using hfinal

/-! ## Conditions along a run -/

theorem RunOk.split {ok : σ → α → Prop} {state middle : σ} {first second : List α}
    (hok : RunOk step ok state (first ++ second)) (hfirst : run step state first = some middle) :
    RunOk step ok state first ∧ RunOk step ok middle second := by
  induction first generalizing state with
  | nil =>
      cases hfirst
      exact ⟨trivial, hok⟩
  | cons action rest ih =>
      obtain ⟨next, hnext, hrest⟩ := run_cons hfirst
      have hinner := ih (hok.2 next hnext) hrest
      refine ⟨⟨hok.1, ?_⟩, hinner.2⟩
      intro next' hnext'
      obtain rfl : next = next' := Option.some.inj (hnext.symm.trans hnext')
      exact hinner.1

/-- Two conditions that agree in the states that satisfy an invariant agree
along the runs from such a state. -/
theorem runOk_congr {inv : σ → Prop} {ok ok' : σ → α → Prop}
    (hstep : ∀ {state action next}, inv state → step state action = some next → inv next)
    (hiff : ∀ {state action}, inv state → (ok state action ↔ ok' state action))
    {state : σ} (hinv : inv state) (acts : List α) :
    RunOk step ok state acts ↔ RunOk step ok' state acts := by
  induction acts generalizing state with
  | nil => exact Iff.rfl
  | cons action rest ih =>
      refine and_congr (hiff hinv) (forall_congr' fun next => ?_)
      exact forall_congr' fun hnext => ih (hstep hinv hnext)

/-- A transitive relation that is reflexive on the states that satisfy an
invariant holds between any two states of a run, the earlier and the later,
when it holds across each of its steps. -/
theorem runOk_iff_between {inv : σ → Prop} {rel : σ → σ → Prop}
    (hstep : ∀ {state action next}, inv state → step state action = some next → inv next)
    (hrefl : ∀ {state}, inv state → rel state state)
    (htrans : ∀ {first middle last}, rel first middle → rel middle last → rel first last)
    {state : σ} (hinv : inv state) (acts : List α) :
    RunOk step (fun state action => ∀ next, step state action = some next → rel state next)
        state acts ↔
      ∀ first second third middle last, acts = first ++ second ++ third →
        run step state first = some middle → run step middle second = some last →
          rel middle last := by
  constructor
  · rintro hok first second third middle last rfl hfirst hsecond
    rw [List.append_assoc] at hok
    have hrest := (hok.split hfirst).2
    have hmiddle := (hrest.split hsecond).1
    have hinvMiddle : inv middle := run_invariant hstep hinv hfirst
    refine run_invariant_of ?_ hmiddle (hrefl hinvMiddle) hsecond
    intro state action next hrel hkeeps hnext
    exact htrans hrel (hkeeps next hnext)
  · intro hbetween
    induction acts generalizing state with
    | nil => trivial
    | cons action rest ih =>
        refine ⟨?_, ?_⟩
        · intro next hnext
          have hone : run step state [action] = some next := by simp [run, hnext]
          exact hbetween [] [action] rest state next rfl rfl hone
        · intro next hnext
          refine ih (hstep hinv hnext) ?_
          rintro first second third middle last rfl hfirst hsecond
          refine hbetween (action :: first) second third middle last rfl ?_ hsecond
          simp [run, hnext, hfirst]

end Justup.Lib.Transition
