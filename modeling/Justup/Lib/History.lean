import Justup.Lib.Obligation
import Justup.Lib.Transition

/-!
# The history of a run

The actions of a run, each with the state in which it is performed.  What an invariant says
of the past is proved for one step, and lifted here to every run.
-/

namespace Justup.Lib.History

open Justup.Lib.Transition

variable {σ α : Type*}

def history (step : σ → α → Option σ) : σ → List α → List (σ × α)
  | _, [] => []
  | state, action :: rest =>
      (state, action) :: ((step state action).map fun next => history step next rest).getD []

variable {step : σ → α → Option σ} {state final : σ} {acts : List α}

theorem history_concat (hrun : run step state acts = some final) (action : α) :
    history step state (acts ++ [action]) = history step state acts ++ [(final, action)] := by
  induction acts generalizing state with
  | nil =>
      cases hrun
      simp only [List.nil_append, history]
      cases step final action <;> rfl
  | cons first rest ih =>
      obtain ⟨next, hnext, hrest⟩ := run_cons hrun
      simp only [List.cons_append, history, hnext, Option.map_some, Option.getD_some, ih hrest]

/-- An invariant of the state and of what happened before it, kept by the steps that meet a
condition. -/
theorem run_history_of {inv : List (σ × α) → σ → Prop} {ok : σ → α → Prop}
    (hstep : ∀ {past state action next}, inv past state → ok state action →
      step state action = some next → inv (past ++ [(state, action)]) next)
    (hok : RunOk step ok state acts) (hinv : inv [] state)
    (hrun : run step state acts = some final) : inv (history step state acts) final := by
  induction acts using List.reverseRecOn generalizing final with
  | nil =>
      cases hrun
      exact hinv
  | append_singleton acts action ih =>
      obtain ⟨middle, hfirst, hlast⟩ := run_snoc hrun
      obtain ⟨hokFirst, hokLast⟩ := hok.split hfirst
      rw [history_concat hfirst]
      exact hstep (ih hokFirst hfirst) hokLast.1 hlast

/-- An invariant of the state and of what happened before it. -/
theorem run_history {inv : List (σ × α) → σ → Prop}
    (hstep : ∀ {past state action next}, inv past state → step state action = some next →
      inv (past ++ [(state, action)]) next)
    (hinv : inv [] state) (hrun : run step state acts = some final) :
    inv (history step state acts) final :=
  have hok : RunOk step (fun _ _ => True) state acts := runOk_of_forall (fun _ _ => trivial) _ _
  run_history_of (fun hinv _ hnext => hstep hinv hnext) hok hinv hrun

theorem history_actions (hrun : run step state acts = some final) :
    (history step state acts).map Prod.snd = acts := by
  induction acts using List.reverseRecOn generalizing final with
  | nil => rfl
  | append_singleton acts action ih =>
      obtain ⟨middle, hfirst, -⟩ := run_snoc hrun
      rw [history_concat hfirst, List.map_append, ih hfirst]
      rfl

end Justup.Lib.History
