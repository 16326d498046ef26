import Mathlib.Data.List.Basic

/-!
# Savepoints of a transaction

An open transaction is its working copy of the data and the savepoints set in
it, the latest first.  Releasing a savepoint forgets it and the later ones;
rolling back to it restores the copy taken there and keeps the savepoint.
-/

namespace Justup.Lib.Savepoint

variable {N D : Type*}

structure Tx (N D : Type*) where
  work : D
  savepoints : List (N × D)

/-- A transaction that was just begun. -/
def Tx.start (data : D) : Tx N D := ⟨data, []⟩

def Tx.change (f : D → D) (tx : Tx N D) : Tx N D := { tx with work := f tx.work }

def Tx.savepoint (name : N) (tx : Tx N D) : Tx N D :=
  { tx with savepoints := (name, tx.work) :: tx.savepoints }

variable [DecidableEq N]

/-- The copy kept by the latest savepoint of a name, and the savepoints below it. -/
def locate (name : N) : List (N × D) → Option (D × List (N × D))
  | [] => none
  | entry :: below => if entry.1 = name then some (entry.2, below) else locate name below

/-- `RELEASE name`; refused when there is no such savepoint. -/
def Tx.release (name : N) (tx : Tx N D) : Option (Tx N D) :=
  (locate name tx.savepoints).map fun found => { tx with savepoints := found.2 }

/-- `ROLLBACK TO name`; refused when there is no such savepoint. -/
def Tx.rollbackTo (name : N) (tx : Tx N D) : Option (Tx N D) :=
  (locate name tx.savepoints).map fun found => ⟨found.1, (name, found.1) :: found.2⟩

/-- Savepoints of other names do not hide the one looked for. -/
theorem locate_append {name : N} {later : List (N × D)} (hlater : ∀ entry ∈ later, entry.1 ≠ name)
    (saved : D) (below : List (N × D)) :
    locate name (later ++ (name, saved) :: below) = some (saved, below) := by
  induction later with
  | nil => simp [locate]
  | cons entry rest ih =>
      have hentry : entry.1 ≠ name := hlater entry (by simp)
      have hrest := ih fun other hother => hlater other (by simp [hother])
      simpa [locate, hentry] using hrest

theorem Tx.release_of_later {name : N} {tx : Tx N D} {later below : List (N × D)} {saved : D}
    (hstack : tx.savepoints = later ++ (name, saved) :: below)
    (hlater : ∀ entry ∈ later, entry.1 ≠ name) :
    tx.release name = some { tx with savepoints := below } := by
  simp [Tx.release, hstack, locate_append hlater]

theorem Tx.rollbackTo_of_later {name : N} {tx : Tx N D} {later below : List (N × D)} {saved : D}
    (hstack : tx.savepoints = later ++ (name, saved) :: below)
    (hlater : ∀ entry ∈ later, entry.1 ≠ name) :
    tx.rollbackTo name = some ⟨saved, (name, saved) :: below⟩ := by
  simp [Tx.rollbackTo, hstack, locate_append hlater]

end Justup.Lib.Savepoint
