import Mathlib.Data.List.Basic

/-!
# Programs that raise

A program works on a state and returns a value or raises; what it did to the
state stays either way.  `Ends` is the postcondition of a program from a given
state: of its outcome and of the state it leaves.
-/

namespace Justup.Lib.Raising

universe u v w

variable {ε : Type w} {σ : Type u} {α β : Type v}

def Prog (ε : Type w) (σ : Type u) (α : Type v) := σ → Except ε α × σ

instance : Monad (Prog ε σ) where
  pure value state := (.ok value, state)
  bind first rest state :=
    match first state with
    | (.error error, later) => (.error error, later)
    | (.ok value, later) => rest value later

def raise (error : ε) : Prog ε σ α := fun state => (.error error, state)

/-- A value read off the state. -/
def reads (f : σ → α) : Prog ε σ α := fun state => (.ok (f state), state)

def modify (f : σ → σ) : Prog ε σ Unit := fun state => (.ok ⟨⟩, f state)

/-- `try … except`: the handler says for which errors it is meant. -/
def handle (body : Prog ε σ α) (handler : ε → Option (Prog ε σ α)) : Prog ε σ α := fun state =>
  match body state with
  | (.ok value, later) => (.ok value, later)
  | (.error error, later) =>
      match handler error with
      | none => (.error error, later)
      | some program => program later

/-- `try … finally`: an error of the last part takes the place of the outcome. -/
def ensure (body : Prog ε σ α) (last : Prog ε σ Unit) : Prog ε σ α := fun state =>
  match body state with
  | (outcome, later) =>
      match last later with
      | (.ok _, final) => (outcome, final)
      | (.error error, final) => (.error error, final)

/-! ## Postconditions -/

def Ends (program : Prog ε σ α) (state : σ) (post : Except ε α → σ → Prop) : Prop :=
  post (program state).1 (program state).2

variable {program : Prog ε σ α} {state : σ} {post post' : Except ε α → σ → Prop}

theorem Ends.imp (hends : Ends program state post)
    (himp : ∀ outcome later, post outcome later → post' outcome later) :
    Ends program state post' :=
  himp _ _ hends

theorem ends_pure {value : α} (hpost : post (.ok value) state) :
    Ends (pure value) state post := hpost

theorem ends_raise {error : ε} (hpost : post (.error error) state) :
    Ends (raise error) state post := hpost

theorem ends_reads {f : σ → α} (hpost : post (.ok (f state)) state) :
    Ends (reads f) state post := hpost

theorem ends_modify {f : σ → σ} {post : Except ε Unit → σ → Prop}
    (hpost : post (.ok ⟨⟩) (f state)) : Ends (modify f) state post := hpost

theorem ends_bind {rest : α → Prog ε σ β} {post : Except ε β → σ → Prop}
    (hfirst : Ends program state fun outcome later =>
      match outcome with
      | .error error => post (.error error) later
      | .ok value => Ends (rest value) later post) : Ends (program >>= rest) state post := by
  have hrun : (program >>= rest) state = match program state with
      | (.error error, later) => (.error error, later)
      | (.ok value, later) => rest value later := rfl
  unfold Ends at hfirst ⊢
  rw [hrun]
  rcases hprogram : program state with ⟨error | value, later⟩
  · rw [hprogram] at hfirst
    exact hfirst
  · rw [hprogram] at hfirst
    exact hfirst

/-- A first part whose run is known. -/
theorem ends_bind_of_run {rest : α → Prog ε σ β} {post : Except ε β → σ → Prop} {value : α}
    {later : σ} (hrun : program state = (.ok value, later))
    (hrest : Ends (rest value) later post) : Ends (program >>= rest) state post := by
  refine ends_bind ?_
  unfold Ends
  rw [hrun]
  exact hrest

theorem ends_ite {condition : Prop} [Decidable condition] {yes no : Prog ε σ α}
    (hyes : condition → Ends yes state post) (hno : ¬ condition → Ends no state post) :
    Ends (if condition then yes else no) state post := by
  split
  next h => exact hyes h
  next h => exact hno h

theorem ends_handle {handler : ε → Option (Prog ε σ α)}
    (hbody : Ends program state fun outcome later =>
      match outcome with
      | .ok value => post (.ok value) later
      | .error error =>
          match handler error with
          | none => post (.error error) later
          | some program => Ends program later post) :
    Ends (handle program handler) state post := by
  unfold Ends handle at *
  rcases hprogram : program state with ⟨error | value, later⟩
  · rw [hprogram] at hbody
    dsimp only at hbody ⊢
    cases hhandler : handler error with
    | none => simpa only [hhandler] using hbody
    | some other => simpa only [hhandler] using hbody
  · rw [hprogram] at hbody
    exact hbody

theorem ends_ensure {last : Prog ε σ Unit}
    (hbody : Ends program state fun outcome later =>
      Ends last later fun closing final =>
        match closing with
        | .ok _ => post outcome final
        | .error error => post (.error error) final) :
    Ends (ensure program last) state post := by
  unfold Ends ensure at *
  rcases hprogram : program state with ⟨outcome, later⟩
  rw [hprogram] at hbody
  dsimp only at hbody ⊢
  rcases hlast : last later with ⟨error | value, final⟩ <;>
    · rw [hlast] at hbody
      exact hbody

end Justup.Lib.Raising
