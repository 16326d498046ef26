import Mathlib.Data.List.Basic

/-!
# Programs whose statements may fail

A program works on data that a transaction holds.  A statement that fails has no
effect and raises; what was done before it stays until a block undoes it.  A
nested block sets a savepoint, the outermost one begins and commits the
transaction.  `Meets` is the postcondition of a program on given data: of its
value, `none` when it raised, and of the data it leaves.
-/

namespace Justup.Lib.Fallible

universe u v

variable {D : Type u} {α β : Type v}

def Prog (D : Type u) (α : Type v) := D → Option α × D

instance : Monad (Prog D) where
  pure value data := (some value, data)
  bind first rest data :=
    match first data with
    | (none, later) => (none, later)
    | (some value, later) => rest value later

def raise : Prog D α := fun data => (none, data)

def statement (fails : Bool) (effect : D → α × D) : Prog D α := fun data =>
  if fails then (none, data) else (some (effect data).1, (effect data).2)

/-- The program, with a value instead of an error. -/
def attempt (fallback : α) (program : Prog D α) : Prog D α := fun data =>
  match program data with
  | (none, later) => (some fallback, later)
  | (some value, later) => (some value, later)

/-- Which statements of its own a block is refused. -/
structure BlockFaults where
  opening : Bool := false
  closing : Bool := false
  rollingBack : Bool := false
  deriving DecidableEq, Repr

/-- A block inside a transaction: an error undoes what the block did, but not when the savepoint
cannot be released or rolled back to. -/
def nested (faults : BlockFaults) (body : Prog D α) : Prog D α := fun data =>
  if faults.opening then (none, data)
  else
    match body data with
    | (none, later) => (none, if faults.rollingBack then later else data)
    | (some value, later) => (if faults.closing then none else some value, later)

/-- The block that begins and commits the transaction. -/
def owned (faults : BlockFaults) (body : Prog D α) : Prog D α := fun data =>
  if faults.opening then (none, data)
  else
    match body data with
    | (none, _) => (none, data)
    | (some value, later) => if faults.closing then (none, data) else (some value, later)

def block (own : Bool) (faults : BlockFaults) (body : Prog D α) : Prog D α :=
  if own then owned faults body else nested faults body

/-! ## Postconditions -/

def Meets (program : Prog D α) (data : D) (post : Option α → D → Prop) : Prop :=
  post (program data).1 (program data).2

variable {program : Prog D α} {data : D} {post post' : Option α → D → Prop}

theorem Meets.imp (hmeets : Meets program data post)
    (himp : ∀ result later, post result later → post' result later) : Meets program data post' :=
  himp _ _ hmeets

theorem meets_of_forall (hpost : ∀ result later, post result later) : Meets program data post :=
  hpost _ _

theorem meets_pure {value : α} (hpost : post (some value) data) :
    Meets (pure value) data post := hpost

theorem meets_raise (hpost : post none data) : Meets raise data post := hpost

theorem meets_bind {rest : α → Prog D β} {post : Option β → D → Prop}
    (hfirst : Meets program data fun result later =>
      match result with
      | none => post none later
      | some value => Meets (rest value) later post) : Meets (program >>= rest) data post := by
  change post (match program data with
    | (none, later) => ((none : Option β), later)
    | (some value, later) => rest value later).1 (match program data with
    | (none, later) => ((none : Option β), later)
    | (some value, later) => rest value later).2
  unfold Meets at hfirst
  rcases hprogram : program data with ⟨_ | value, later⟩
  · rw [hprogram] at hfirst
    exact hfirst
  · rw [hprogram] at hfirst
    exact hfirst

theorem meets_statement {fails : Bool} {effect : D → α × D} (hfails : fails = true → post none data)
    (hworks : fails = false → post (some (effect data).1) (effect data).2) :
    Meets (statement fails effect) data post := by
  unfold Meets statement
  cases fails
  · exact hworks rfl
  · exact hfails rfl

theorem meets_attempt {fallback : α} (hprogram : Meets program data fun result later =>
      post (some (result.getD fallback)) later) : Meets (attempt fallback program) data post := by
  unfold Meets attempt at *
  rcases hresult : program data with ⟨_ | value, later⟩ <;> rw [hresult] at hprogram <;>
    exact hprogram

theorem meets_nested {faults : BlockFaults} (hopening : faults.opening = true → post none data)
    (hbody : faults.opening = false → Meets program data fun result later =>
      match result with
      | none => post none (if faults.rollingBack then later else data)
      | some value => post (if faults.closing then none else some value) later) :
    Meets (nested faults program) data post := by
  unfold Meets nested at *
  split
  next hrefused => exact hopening hrefused
  next hrefused =>
    have hbody := hbody (Bool.eq_false_iff.mpr hrefused)
    rcases hresult : program data with ⟨_ | value, later⟩ <;> rw [hresult] at hbody <;>
      exact hbody

theorem meets_owned {faults : BlockFaults} (hopening : faults.opening = true → post none data)
    (hbody : faults.opening = false → Meets program data fun result later =>
      match result with
      | none => post none data
      | some value => if faults.closing then post none data else post (some value) later) :
    Meets (owned faults program) data post := by
  unfold Meets owned at *
  split
  next hrefused => exact hopening hrefused
  next hrefused =>
    have hbody := hbody (Bool.eq_false_iff.mpr hrefused)
    rcases hresult : program data with ⟨_ | value, later⟩
    · rw [hresult] at hbody
      exact hbody
    · rw [hresult] at hbody
      dsimp only at hbody ⊢
      split
      next hclosing => simpa [hclosing] using hbody
      next hclosing => simpa [hclosing] using hbody

theorem meets_ite {condition : Prop} [Decidable condition] {yes no : Prog D α}
    (hyes : condition → Meets yes data post) (hno : ¬ condition → Meets no data post) :
    Meets (if condition then yes else no) data post := by
  split
  next h => exact hyes h
  next h => exact hno h

end Justup.Lib.Fallible
