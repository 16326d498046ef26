import Mathlib.Logic.Function.Basic

/-!
# Locks and the sections they guard

A lock names the thread that holds it.  It fits the threads when the one it names is the only
one inside the section it guards; every move of a thread keeps, takes or gives up the lock.
-/

namespace Justup.Lib.Locks

variable {Thread Local : Type*}

/-- A thread is inside exactly if it holds the lock. -/
def Held (lock : Option Thread) (inside : Local → Bool) (threads : Thread → Local) : Prop :=
  ∀ thread, inside (threads thread) = true ↔ lock = some thread

namespace Held

variable {lock : Option Thread} {inside : Local → Bool} {threads : Thread → Local}

theorem eq_of_inside (hheld : Held lock inside threads) {first second : Thread}
    (hfirst : inside (threads first) = true) (hsecond : inside (threads second) = true) :
    first = second :=
  Option.some.inj (((hheld first).mp hfirst).symm.trans ((hheld second).mp hsecond))

theorem outside (hheld : Held lock inside threads) {first second : Thread}
    (hfirst : inside (threads first) = true) (hne : second ≠ first) :
    inside (threads second) = false := by
  refine Bool.eq_false_iff.mpr fun hsecond => ?_
  exact hne (hheld.eq_of_inside hsecond hfirst)

variable [DecidableEq Thread] {thread : Thread} {after : Local}

/-- A move that does not cross the border of the section. -/
theorem keep (hheld : Held lock inside threads) (hsame : inside after = inside (threads thread)) :
    Held lock inside (Function.update threads thread after) := by
  intro other
  by_cases hother : other = thread
  · subst hother
    rw [Function.update_self, hsame]
    exact hheld other
  · rw [Function.update_of_ne hother]
    exact hheld other

/-- A thread enters while the lock is free. -/
theorem acquire (hheld : Held none inside threads) (hafter : inside after = true) :
    Held (some thread) inside (Function.update threads thread after) := by
  intro other
  by_cases hother : other = thread
  · subst hother
    simp [hafter]
  · rw [Function.update_of_ne hother, hheld other]
    simp [Ne.symm hother]

/-- The thread inside leaves. -/
theorem release (hheld : Held lock inside threads) (hbefore : inside (threads thread) = true)
    (hafter : inside after = false) :
    Held none inside (Function.update threads thread after) := by
  intro other
  by_cases hother : other = thread
  · subst hother
    simp [hafter]
  · rw [Function.update_of_ne hother, hheld.outside hbefore hother]
    simp

end Held

/-- What a move does to a lock, if it goes from inside or outside to inside or outside. -/
inductive Turn (thread : Thread) (lock : Option Thread) (before : Bool) :
    Option Thread → Bool → Prop where
  | keep : Turn thread lock before lock before
  | acquire (hfree : lock = none) : Turn thread lock before (some thread) true
  | release (hbefore : before = true) : Turn thread lock before none false

theorem Held.turn [DecidableEq Thread] {lock lock' : Option Thread} {inside : Local → Bool}
    {threads : Thread → Local} {thread : Thread} {after : Local}
    (hheld : Held lock inside threads)
    (hturn : Turn thread lock (inside (threads thread)) lock' (inside after)) :
    Held lock' inside (Function.update threads thread after) := by
  generalize hafter : inside after = entered at hturn
  cases hturn with
  | keep => exact hheld.keep hafter
  | acquire hfree =>
      subst hfree
      exact hheld.acquire hafter
  | release hbefore => exact hheld.release hbefore hafter

end Justup.Lib.Locks
