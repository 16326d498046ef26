import Justup.Lib.Savepoint
import Mathlib

/-!
# Nested transaction blocks

`transaction(conn)` as a program transformer.  A client program executes
statements, registers callbacks, raises, catches, and opens blocks; its meaning
is a function on the connection and the bookkeeping of the outermost block.
SQLite may refuse the statement that opens a block or the one that closes it.
-/

namespace Justup.Db.Transaction

open Lib.Savepoint

variable {S C D α : Type*}

inductive Outcome where
  | normal
  | raised
  deriving DecidableEq, Repr

/-- Which statements of its own a block is refused: the one that opens it
(`BEGIN` or `SAVEPOINT`) and the one that closes it (`COMMIT` or `RELEASE`). -/
structure Refused where
  opening : Bool := false
  closing : Bool := false
  deriving DecidableEq, Repr

/-- What a client does inside a block. -/
inductive Act (S C : Type*) where
  | statement (s : S)
  | runAfterCommit (callback : C)

/-- Client programs.  `attempt body handler` runs the handler when the body raised. -/
inductive Prog (S C : Type*) where
  | skip
  | act (a : Act S C)
  | raise
  | seq (first second : Prog S C)
  | attempt (body handler : Prog S C)
  | transaction (immediate : Bool) (refused : Refused) (body : Prog S C)

/-! ## The code -/

structure TxState (C : Type*) where
  savepoints : Nat := 0
  afterCommit : List C := []
  foreign : Bool := false

structure Conn (D : Type*) where
  committed : D
  tx : Option (Tx String D)

/-- A connection, the entry of `_TX_STATES` for it, and the callbacks that were
run, each with the committed data it saw. -/
structure Session (D C : Type*) where
  conn : Conn D
  state : Option (TxState C)
  called : List (C × D)

def Conn.commit (conn : Conn D) : Conn D :=
  match conn.tx with
  | none => conn
  | some tx => ⟨tx.work, none⟩

def Conn.rollback (conn : Conn D) : Conn D := { conn with tx := none }

namespace Session

/-- Execute a statement; one outside a transaction begins one implicitly. -/
def execute (f : D → D) (session : Session D C) : Session D C :=
  let tx := session.conn.tx.getD (Tx.start session.conn.committed)
  { session with conn := { session.conn with tx := some (tx.change f) } }

def call (callbacks : List C) (session : Session D C) : Session D C :=
  { session with
    called := session.called ++ callbacks.map fun callback => (callback, session.conn.committed) }

def runAfterCommit (callback : C) (session : Session D C) : Session D C :=
  match session.state with
  | none => session.call [callback]
  | some state =>
      { session with state := some { state with afterCommit := state.afterCommit ++ [callback] } }

/-- A statement about savepoints, when SQLite does not refuse it. -/
def sql (refused : Bool) (change : Tx String D → Option (Tx String D)) (session : Session D C) :
    Option (Session D C) :=
  if refused then none
  else
    (session.conn.tx.bind change).map fun tx =>
      { session with conn := { session.conn with tx := some tx } }

/-- `del state.after_commit[mark:]` -/
def truncate (mark : Nat) (session : Session D C) : Session D C :=
  { session with
    state := session.state.map fun state =>
      { state with afterCommit := state.afterCommit.take mark } }

end Session

def savepointName (number : Nat) : String := "justup_sp_" ++ number.repr

/-- `_savepoint(conn, state)` around a body. -/
def savepoint (state : TxState C) (refused : Refused)
    (body : Session D C → Outcome × Session D C) (session : Session D C) :
    Outcome × Session D C :=
  let state := { state with savepoints := state.savepoints + 1 }
  let name := savepointName state.savepoints
  let mark := state.afterCommit.length
  let session := { session with state := some state }
  match session.sql refused.opening (fun tx => some (tx.savepoint name)) with
  | none => (.raised, session)
  | some session =>
      match body session with
      | (.raised, session) =>
          match session.sql false (Tx.rollbackTo name) with
          | none => (.raised, session)
          | some session =>
              match session.sql refused.closing (Tx.release name) with
              | none => (.raised, session)
              | some session => (.raised, session.truncate mark)
      | (.normal, session) =>
          -- this RELEASE stands outside the try: nothing is undone when it is refused
          match session.sql refused.closing (Tx.release name) with
          | none => (.raised, session)
          | some session => (.normal, session)

/-- The block that begins and commits the transaction itself. -/
def ownBlock (refused : Refused) (body : Session D C → Outcome × Session D C)
    (session : Session D C) : Outcome × Session D C :=
  if refused.opening then (.raised, session)
  else
    let conn := { session.conn with tx := some (Tx.start session.conn.committed) }
    match body { session with conn := conn, state := some {} } with
    | (.raised, session) =>
        (.raised, { session with conn := session.conn.rollback, state := none })
    | (.normal, session) =>
        if refused.closing then
          (.raised, { session with conn := session.conn.rollback, state := none })
        else
          let callbacks := session.state.elim [] TxState.afterCommit
          let session := { session with conn := session.conn.commit, state := none }
          (.normal, session.call callbacks)

/-- `transaction(conn, immediate=…)` around a body: a savepoint inside a managed
block, a savepoint inside a transaction of the caller, or a transaction of its own. -/
def block (immediate : Bool) (refused : Refused) (body : Session D C → Outcome × Session D C)
    (session : Session D C) : Outcome × Session D C :=
  match session.state with
  | some state => savepoint state refused body session
  | none =>
      if session.conn.tx.isSome then
        if immediate then (.raised, session)
        else
          let state : TxState C := { foreign := true }
          let result := savepoint state refused body { session with state := some state }
          (result.1, { result.2 with state := none })
      else ownBlock refused body session

/-- Run a client program; `apply` is what a statement does to the data. -/
def exec (apply : S → D → D) : Prog S C → Session D C → Outcome × Session D C
  | .skip, session => (.normal, session)
  | .act (.statement s), session => (.normal, session.execute (apply s))
  | .act (.runAfterCommit callback), session => (.normal, session.runAfterCommit callback)
  | .raise, session => (.raised, session)
  | .seq first second, session =>
      match exec apply first session with
      | (.raised, session) => (.raised, session)
      | (.normal, session) => exec apply second session
  | .attempt body handler, session =>
      match exec apply body session with
      | (.raised, session) => exec apply handler session
      | (.normal, session) => (.normal, session)
  | .transaction immediate refused body, session =>
      block immediate refused (exec apply body) session

/-! ## What the blocks mean -/

def Act.statement? : Act S C → Option S
  | .statement s => some s
  | .runAfterCommit _ => none

def Act.callback? : Act S C → Option C
  | .statement _ => none
  | .runAfterCommit callback => some callback

/-- How a program ends.  A block that is refused one of its own statements raises. -/
def Prog.outcome : Prog S C → Outcome
  | .skip | .act _ => .normal
  | .raise => .raised
  | .seq first second => if first.outcome = .normal then second.outcome else .raised
  | .attempt body handler => if body.outcome = .raised then handler.outcome else .normal
  | .transaction _ refused body =>
      if refused.opening ∨ refused.closing then .raised else body.outcome

/-- The acts of a kind, in program order, whose block and all enclosing blocks
ended normally. -/
def Prog.meant (pick : Act S C → Option α) : Prog S C → List α
  | .skip | .raise => []
  | .act a => (pick a).toList
  | .seq first second =>
      first.meant pick ++ if first.outcome = .normal then second.meant pick else []
  | .attempt body handler =>
      body.meant pick ++ if body.outcome = .raised then handler.meant pick else []
  | .transaction _ refused body =>
      if refused.opening ∨ refused.closing ∨ body.outcome = .raised then []
      else body.meant pick

/-! ## What the code leaves of a block -/

/-- The acts of a kind that a program leaves behind in the transaction.
`byRollback` says that `ROLLBACK TO` alone takes them back; the callbacks of a
block are only dropped after its savepoint was released as well. -/
def Prog.left (pick : Act S C → Option α) (byRollback : Bool) : Prog S C → List α
  | .skip | .raise => []
  | .act a => (pick a).toList
  | .seq first second =>
      first.left pick byRollback ++
        if first.outcome = .normal then second.left pick byRollback else []
  | .attempt body handler =>
      body.left pick byRollback ++
        if body.outcome = .raised then handler.left pick byRollback else []
  | .transaction _ refused body =>
      if refused.opening ∨ body.outcome = .raised ∧ (byRollback ∨ ¬ refused.closing) then []
      else body.left pick byRollback

/-- No block ends with an exception and leaves acts of the kind behind, unless an
enclosing block takes them back. -/
def Prog.Clean (pick : Act S C → Option α) (byRollback : Bool) : Prog S C → Prop
  | .skip | .raise | .act _ => True
  | .seq first second =>
      first.Clean pick byRollback ∧ (first.outcome = .normal → second.Clean pick byRollback)
  | .attempt body handler =>
      body.Clean pick byRollback ∧ (body.outcome = .raised → handler.Clean pick byRollback)
  | .transaction _ refused body =>
      refused.opening ∨ body.outcome = .raised ∧ (byRollback ∨ ¬ refused.closing) ∨
        if refused.closing then body.left pick byRollback = [] else body.Clean pick byRollback

theorem Outcome.ne_raised {outcome : Outcome} : outcome ≠ .raised ↔ outcome = .normal := by
  cases outcome <;> simp

theorem Prog.meant_sublist_left (pick : Act S C → Option α) (byRollback : Bool) (p : Prog S C) :
    (p.meant pick).Sublist (p.left pick byRollback) := by
  induction p with
  | skip => exact List.Sublist.refl _
  | raise => exact List.Sublist.refl _
  | act a => exact List.Sublist.refl _
  | seq first second ihFirst ihSecond =>
      refine ihFirst.append ?_
      split
      · exact ihSecond
      · exact List.Sublist.refl _
  | attempt body handler ihBody ihHandler =>
      refine ihBody.append ?_
      split
      · exact ihHandler
      · exact List.Sublist.refl _
  | transaction immediate refused body ih =>
      simp only [meant, left]
      split
      · exact List.nil_sublist _
      · rename_i hends
        rw [if_neg fun hundone => hends (by tauto)]
        exact ih

theorem append_eq_append_of_sublist {xs xs' ys ys' : List α} (hx : xs.Sublist xs')
    (hy : ys.Sublist ys') : xs' ++ ys' = xs ++ ys ↔ xs' = xs ∧ ys' = ys := by
  constructor
  · intro heq
    have hlen := congrArg List.length heq
    simp only [List.length_append] at hlen
    have hxlen := hx.length_le
    exact List.append_inj heq (by have := hy.length_le; omega)
  · rintro ⟨rfl, rfl⟩
    rfl

/-- What is left is what is meant exactly when no block leaves more. -/
theorem Prog.left_eq_meant_iff (pick : Act S C → Option α) (byRollback : Bool) (p : Prog S C) :
    p.left pick byRollback = p.meant pick ↔ p.Clean pick byRollback := by
  induction p with
  | skip => simp [left, meant, Clean]
  | raise => simp [left, meant, Clean]
  | act a => simp [left, meant, Clean]
  | seq first second ihFirst ihSecond =>
      have hfirst := first.meant_sublist_left pick byRollback
      have hsecond := second.meant_sublist_left pick byRollback
      by_cases hends : first.outcome = .normal
      · simp [left, meant, Clean, hends, append_eq_append_of_sublist hfirst hsecond, ihFirst,
          ihSecond]
      · simp [left, meant, Clean, hends, ihFirst]
  | attempt body handler ihBody ihHandler =>
      have hbody := body.meant_sublist_left pick byRollback
      have hhandler := handler.meant_sublist_left pick byRollback
      by_cases hends : body.outcome = .raised
      · simp [left, meant, Clean, hends, append_eq_append_of_sublist hbody hhandler, ihBody,
          ihHandler]
      · simp [left, meant, Clean, hends, ihBody]
  | transaction immediate refused body ih =>
      simp only [left, meant, Clean]
      by_cases hopening : refused.opening = true
      · simp [hopening]
      by_cases hclosing : refused.closing = true
      · by_cases hundone : body.outcome = .raised ∧ byRollback = true
        · simp [hundone]
        · simp [hopening, hclosing, hundone]
      · by_cases hraised : body.outcome = .raised
        · simp [hclosing, hraised]
        · simp [hopening, hclosing, hraised, ih]

/-! ## One block inside a managed transaction -/

/-- The session while a block runs. -/
def Session.inside (committed : D) (called : List (C × D)) (state : TxState C)
    (tx : Tx String D) : Session D C :=
  ⟨⟨committed, some tx⟩, some state, called⟩

/-- What running a program inside a block has added to the transaction. -/
structure Grown (apply : S → D → D) (statements : List S) (callbacks : List C)
    (state state' : TxState C) (tx tx' : Tx String D) : Prop where
  work : tx'.work = statements.foldl (fun data s => apply s data) tx.work
  afterCommit : state'.afterCommit = state.afterCommit ++ callbacks
  numbers : state.savepoints ≤ state'.savepoints
  /-- Savepoints that were not released stay above the ones set before. -/
  savepoints : ∃ later, tx'.savepoints = later ++ tx.savepoints ∧
    ∀ entry ∈ later, ∃ number, state.savepoints < number ∧ entry.1 = savepointName number

variable {apply : S → D → D} {state state' state'' : TxState C} {tx tx' tx'' : Tx String D}
  {statements statements' : List S} {callbacks callbacks' : List C}

theorem Grown.refl : Grown apply [] [] state state tx tx where
  work := rfl
  afterCommit := by simp
  numbers := le_refl _
  savepoints := ⟨[], by simp⟩

theorem Grown.trans (hfirst : Grown apply statements callbacks state state' tx tx')
    (hsecond : Grown apply statements' callbacks' state' state'' tx' tx'') :
    Grown apply (statements ++ statements') (callbacks ++ callbacks') state state'' tx tx'' where
  work := by rw [hsecond.work, hfirst.work, List.foldl_append]
  afterCommit := by rw [hsecond.afterCommit, hfirst.afterCommit, List.append_assoc]
  numbers := hfirst.numbers.trans hsecond.numbers
  savepoints := by
    obtain ⟨later, hlater, hnames⟩ := hfirst.savepoints
    obtain ⟨later', hlater', hnames'⟩ := hsecond.savepoints
    refine ⟨later' ++ later, by rw [hlater', hlater, List.append_assoc], ?_⟩
    intro entry hentry
    rcases List.mem_append.mp hentry with hentry | hentry
    · obtain ⟨number, hnumber, hname⟩ := hnames' entry hentry
      exact ⟨number, hfirst.numbers.trans_lt hnumber, hname⟩
    · exact hnames entry hentry

theorem savepointName_inj {number number' : Nat} (hname : savepointName number = savepointName number') :
    number = number' :=
  Nat.repr_injective ((String.append_right_inj _).mp hname)

/-- The bookkeeping of a block that has set its savepoint. -/
def TxState.opened (state : TxState C) : TxState C :=
  { state with savepoints := state.savepoints + 1 }

/-- A transaction in which a block has set its savepoint. -/
def openedTx (state : TxState C) (tx : Tx String D) : Tx String D :=
  tx.savepoint (savepointName state.opened.savepoints)

theorem TxState.savepoints_opened (state : TxState C) :
    state.opened.savepoints = state.savepoints + 1 := rfl

section Block

variable (hbody : Grown apply statements callbacks state.opened state' (openedTx state tx) tx')

include hbody

/-- The savepoint of a block is found below those its body left. -/
theorem Grown.stack :
    ∃ later, tx'.savepoints =
        later ++ (savepointName state.opened.savepoints, tx.work) :: tx.savepoints ∧
      ∀ entry ∈ later, entry.1 ≠ savepointName state.opened.savepoints := by
  obtain ⟨later, hlater, hnames⟩ := hbody.savepoints
  refine ⟨later, hlater, ?_⟩
  intro entry hentry hname
  obtain ⟨number, hnumber, hentryName⟩ := hnames entry hentry
  have hsame : number = state.opened.savepoints := savepointName_inj (hentryName.symm.trans hname)
  omega

theorem Grown.numbers_opened : state.savepoints ≤ state'.savepoints := by
  have hnumbers := hbody.numbers
  rw [TxState.savepoints_opened] at hnumbers
  omega

/-- The block whose `RELEASE` is refused after its body ended normally. -/
theorem Grown.kept : Grown apply statements callbacks state state' tx tx' where
  work := hbody.work
  afterCommit := hbody.afterCommit
  numbers := hbody.numbers_opened
  savepoints := by
    obtain ⟨later, hlater, hnames⟩ := hbody.savepoints
    refine ⟨later ++ [(savepointName state.opened.savepoints, tx.work)], ?_, ?_⟩
    · rw [hlater, List.append_assoc]
      rfl
    · intro entry hentry
      rcases List.mem_append.mp hentry with hentry | hentry
      · obtain ⟨number, hnumber, hname⟩ := hnames entry hentry
        rw [TxState.savepoints_opened] at hnumber
        exact ⟨number, by omega, hname⟩
      · obtain rfl := List.mem_singleton.mp hentry
        exact ⟨state.opened.savepoints, Nat.lt_succ_self _, rfl⟩

theorem Grown.released :
    tx'.release (savepointName state.opened.savepoints) =
        some { tx' with savepoints := tx.savepoints } ∧
      Grown apply statements callbacks state state' tx { tx' with savepoints := tx.savepoints } := by
  obtain ⟨later, hstack, hlater⟩ := hbody.stack
  refine ⟨Tx.release_of_later hstack hlater, ?_⟩
  exact ⟨hbody.work, hbody.afterCommit, hbody.numbers_opened, [], by simp⟩

/-- The block whose body raised, after `ROLLBACK TO`. -/
theorem Grown.rolledBack :
    tx'.rollbackTo (savepointName state.opened.savepoints) = some (openedTx state tx) ∧
      Grown apply [] callbacks state state' tx (openedTx state tx) := by
  obtain ⟨later, hstack, hlater⟩ := hbody.stack
  refine ⟨Tx.rollbackTo_of_later hstack hlater, ?_⟩
  refine ⟨rfl, hbody.afterCommit, hbody.numbers_opened, ?_⟩
  refine ⟨[(savepointName state.opened.savepoints, tx.work)], rfl, ?_⟩
  intro entry hentry
  obtain rfl := List.mem_singleton.mp hentry
  exact ⟨state.opened.savepoints, Nat.lt_succ_self _, rfl⟩

/-- The block whose body raised, after its savepoint is gone as well. -/
theorem Grown.undone :
    (openedTx state tx).release (savepointName state.opened.savepoints) = some tx ∧
      Grown apply [] [] state
        { state' with afterCommit := state'.afterCommit.take state.afterCommit.length } tx tx := by
  have hstack : (openedTx state tx).savepoints =
      [] ++ (savepointName state.opened.savepoints, tx.work) :: tx.savepoints := rfl
  refine ⟨Tx.release_of_later hstack (by simp), ?_⟩
  refine ⟨rfl, ?_, hbody.numbers_opened, [], by simp⟩
  have hafter : state'.afterCommit = state.afterCommit ++ callbacks := hbody.afterCommit
  simp [hafter]

end Block

/-- What a block does when its body, run inside it, does what is left of `p`. -/
def Performs (apply : S → D → D) (p : Prog S C) (body : Session D C → Outcome × Session D C)
    (session : Session D C) (committed : D) (called : List (C × D)) (state : TxState C)
    (tx : Tx String D) : Prop :=
  ∃ state' tx', body session = (p.outcome, .inside committed called state' tx') ∧
    Grown apply (p.left Act.statement? true) (p.left Act.callback? false) state state' tx tx'

theorem savepoint_performs {body : Session D C → Outcome × Session D C} {p : Prog S C}
    {committed : D} {called : List (C × D)} (immediate : Bool) (refused : Refused)
    (hbody : Performs apply p body (.inside committed called state.opened (openedTx state tx))
      committed called state.opened (openedTx state tx)) (old : TxState C) :
    Performs apply (.transaction immediate refused p) (savepoint state refused body)
      (.inside committed called old tx) committed called state tx := by
  obtain ⟨opening, closing⟩ := refused
  cases opening with
  | true =>
      refine ⟨state.opened, tx, rfl, ?_⟩
      exact ⟨rfl, by simp [Prog.left, TxState.opened], Nat.le_succ _, [], by simp⟩
  | false =>
      obtain ⟨state', tx', hrun, hgrown⟩ := hbody
      have hopen : savepoint state ⟨false, closing⟩ body (.inside committed called old tx) =
          match body (.inside committed called state.opened (openedTx state tx)) with
          | (.raised, session) =>
              match session.sql false (Tx.rollbackTo (savepointName state.opened.savepoints)) with
              | none => (.raised, session)
              | some session =>
                  match session.sql closing (Tx.release (savepointName state.opened.savepoints)) with
                  | none => (.raised, session)
                  | some session => (.raised, session.truncate state.afterCommit.length)
          | (.normal, session) =>
              match session.sql closing (Tx.release (savepointName state.opened.savepoints)) with
              | none => (.raised, session)
              | some session => (.normal, session) := rfl
      rw [Performs, hopen, hrun]
      cases houtcome : p.outcome with
      | raised =>
          obtain ⟨hrollback, hgrownRaised⟩ := hgrown.rolledBack
          cases closing with
          | true =>
              refine ⟨state', openedTx state tx, ?_, ?_⟩
              · simp [Session.inside, Session.sql, hrollback, Prog.outcome]
              · simpa [Prog.left, houtcome] using hgrownRaised
          | false =>
              obtain ⟨hrelease, hgrownUndone⟩ := hgrown.undone
              refine ⟨_, _, ?_, by simpa [Prog.left, houtcome] using hgrownUndone⟩
              simp [Session.inside, Session.sql, Session.truncate, hrollback, hrelease,
                Prog.outcome, houtcome]
      | normal =>
          cases closing with
          | true =>
              refine ⟨state', tx', ?_, ?_⟩
              · simp [Session.inside, Session.sql, Prog.outcome]
              · simpa [Prog.left, houtcome] using hgrown.kept
          | false =>
              obtain ⟨hrelease, hgrownReleased⟩ := hgrown.released
              refine ⟨_, _, ?_, by simpa [Prog.left, houtcome] using hgrownReleased⟩
              simp [Session.inside, Session.sql, hrelease, Prog.outcome, houtcome]

/-- A program inside a block ends as it should, and adds to the transaction what
is left of it; the committed data and the callbacks run are as before. -/
theorem exec_performs (p : Prog S C) (committed : D) (called : List (C × D)) (state : TxState C)
    (tx : Tx String D) :
    Performs apply p (exec apply p) (.inside committed called state tx) committed called state
      tx := by
  induction p generalizing state tx with
  | skip => exact ⟨state, tx, rfl, Grown.refl⟩
  | raise => exact ⟨state, tx, rfl, Grown.refl⟩
  | act a =>
      cases a with
      | statement s => exact ⟨state, tx.change (apply s), rfl, rfl, by simp [Prog.left, Act.callback?],
          le_refl _, [], by simp [Tx.change]⟩
      | runAfterCommit callback =>
          exact ⟨{ state with afterCommit := state.afterCommit ++ [callback] }, tx, rfl, rfl, rfl,
            le_refl _, [], by simp⟩
  | seq first second ihFirst ihSecond =>
      obtain ⟨state', tx', hrun, hgrown⟩ := ihFirst state tx
      cases houtcome : first.outcome with
      | raised =>
          refine ⟨state', tx', ?_, by simpa [Prog.left, houtcome] using hgrown⟩
          simp [exec, hrun, houtcome, Prog.outcome]
      | normal =>
          obtain ⟨state'', tx'', hrun', hgrown'⟩ := ihSecond state' tx'
          refine ⟨state'', tx'', ?_, by simpa [Prog.left, houtcome] using hgrown.trans hgrown'⟩
          simp [exec, hrun, hrun', houtcome, Prog.outcome]
  | attempt body handler ihBody ihHandler =>
      obtain ⟨state', tx', hrun, hgrown⟩ := ihBody state tx
      cases houtcome : body.outcome with
      | normal =>
          refine ⟨state', tx', ?_, by simpa [Prog.left, houtcome] using hgrown⟩
          simp [exec, hrun, houtcome, Prog.outcome]
      | raised =>
          obtain ⟨state'', tx'', hrun', hgrown'⟩ := ihHandler state' tx'
          refine ⟨state'', tx'', ?_, by simpa [Prog.left, houtcome] using hgrown.trans hgrown'⟩
          simp [exec, hrun, hrun', houtcome, Prog.outcome]
  | transaction immediate refused body ih =>
      exact savepoint_performs immediate refused (ih state.opened (openedTx state tx)) state

/-! ## The outermost block -/

/-- The session of a connection on which no `transaction` block is active. -/
def Session.idle (committed : D) (owner : Option (Tx String D)) (called : List (C × D)) :
    Session D C :=
  ⟨⟨committed, owner⟩, none, called⟩

/-- The outermost block commits exactly what is meant, and then runs the
callbacks that are meant, in order, once each. -/
def CommitsMeant (apply : S → D → D) (immediate : Bool) (refused : Refused) (body : Prog S C)
    (committed : D) (called : List (C × D)) : Prop :=
  let root := Prog.transaction immediate refused body
  let data := (root.meant Act.statement?).foldl (fun data s => apply s data) committed
  exec apply root (.idle committed none called) =
    (root.outcome, .idle data none
      (called ++ (root.meant Act.callback?).map fun callback => (callback, data)))

/-- Inside a transaction of the caller the outermost block adds what is meant to
the caller's work, and neither commits it, nor takes anything of it back, nor
runs a callback. -/
def LeavesToOwner (apply : S → D → D) (immediate : Bool) (refused : Refused) (body : Prog S C)
    (committed : D) (owner : Tx String D) (called : List (C × D)) : Prop :=
  let root := if immediate then Prog.raise else Prog.transaction immediate refused body
  ∃ later, exec apply (.transaction immediate refused body) (.idle committed (some owner) called) =
    (root.outcome, .idle committed
      (some ⟨(root.meant Act.statement?).foldl (fun data s => apply s data) owner.work,
        later ++ owner.savepoints⟩) called)

/-- What the outermost block does when it begins its own transaction. -/
theorem exec_own (immediate : Bool) (refused : Refused) (body : Prog S C) (committed : D)
    (called : List (C × D)) :
    let root := Prog.transaction immediate refused body
    let data := if root.outcome = .raised then committed
      else (body.left Act.statement? true).foldl (fun data s => apply s data) committed
    exec apply root (.idle committed none called) =
      (root.outcome, .idle data none
        (called ++ if root.outcome = .raised then []
          else (body.left Act.callback? false).map fun callback => (callback, data))) := by
  obtain ⟨opening, closing⟩ := refused
  obtain ⟨state', tx', hrun, hgrown⟩ :=
    @exec_performs _ _ _ apply body committed called {} (Tx.start committed)
  have hwork : tx'.work =
      (body.left Act.statement? true).foldl (fun data s => apply s data) committed := hgrown.work
  have hafter : state'.afterCommit = body.left Act.callback? false := by
    simpa using hgrown.afterCommit
  have hblock : exec apply (.transaction immediate ⟨opening, closing⟩ body)
        (.idle committed none called) =
      if opening then (.raised, .idle committed none called)
      else
        match exec apply body (.inside committed called {} (Tx.start committed)) with
        | (.raised, session) =>
            (.raised, { session with conn := session.conn.rollback, state := none })
        | (.normal, session) =>
            if closing then
              (.raised, { session with conn := session.conn.rollback, state := none })
            else
              (.normal, Session.call (session.state.elim [] TxState.afterCommit)
                { session with conn := session.conn.commit, state := none }) := rfl
  simp only [hblock, hrun]
  cases opening with
  | true => simp [Prog.outcome]
  | false =>
      cases houtcome : body.outcome with
      | raised => simp [Prog.outcome, houtcome, Session.inside, Session.idle, Conn.rollback]
      | normal =>
          cases closing with
          | true => simp [Prog.outcome, Session.inside, Session.idle, Conn.rollback]
          | false =>
              simp [Prog.outcome, houtcome, Session.inside, Session.idle, Conn.commit,
                Session.call, hwork, hafter]

/-- What the outermost block does inside a transaction of the caller. -/
theorem exec_foreign (refused : Refused) (body : Prog S C) (committed : D)
    (owner : Tx String D) (called : List (C × D)) :
    let root := Prog.transaction false refused body
    ∃ later, exec apply root (.idle committed (some owner) called) =
      (root.outcome, .idle committed
        (some ⟨(root.left Act.statement? true).foldl (fun data s => apply s data) owner.work,
          later ++ owner.savepoints⟩) called) := by
  intro root
  have hbody := @exec_performs _ _ _ apply body committed called
    ({ foreign := true } : TxState C).opened (openedTx ({ foreign := true } : TxState C) owner)
  obtain ⟨state', tx', hrun, hgrown⟩ :=
    savepoint_performs false refused hbody { foreign := true }
  obtain ⟨later, hlater, -⟩ := hgrown.savepoints
  have hblock : exec apply root (.idle committed (some owner) called) =
      ((savepoint { foreign := true } refused (exec apply body)
          (.inside committed called { foreign := true } owner)).1,
        { (savepoint { foreign := true } refused (exec apply body)
          (.inside committed called { foreign := true } owner)).2 with state := none }) := rfl
  refine ⟨later, ?_⟩
  rw [hblock, hrun, ← hgrown.work, ← hlater]
  rfl

/-! ## When the blocks mean what they say -/

/-- SQLite refuses no `RELEASE SAVEPOINT` of the program. -/
def Prog.Closes : Prog S C → Prop
  | .skip | .raise | .act _ => True
  | .seq first second => first.Closes ∧ second.Closes
  | .attempt body handler => body.Closes ∧ handler.Closes
  | .transaction _ refused body => refused.closing = false ∧ body.Closes

/-- A program all of whose savepoints can be released leaves what is meant. -/
theorem Prog.Closes.clean {p : Prog S C} (hp : p.Closes) (pick : Act S C → Option α)
    (byRollback : Bool) : p.Clean pick byRollback := by
  induction p with
  | skip => trivial
  | raise => trivial
  | act a => trivial
  | seq first second ihFirst ihSecond => exact ⟨ihFirst hp.1, fun _ => ihSecond hp.2⟩
  | attempt body handler ihBody ihHandler => exact ⟨ihBody hp.1, fun _ => ihHandler hp.2⟩
  | transaction immediate refused body ih =>
      obtain ⟨hclosing, hbody⟩ := hp
      refine .inr (.inr ?_)
      rw [hclosing]
      exact ih hbody

theorem outcome_eq_raised_iff (immediate : Bool) (refused : Refused) (body : Prog S C) :
    (Prog.transaction immediate refused body).outcome = .raised ↔
      refused.opening ∨ refused.closing ∨ body.outcome = .raised := by
  simp only [Prog.outcome]
  split <;> tauto

/-- The acts of an outermost block that are meant, by how it ends. -/
theorem meant_root (pick : Act S C → Option α) (immediate : Bool) (refused : Refused)
    (body : Prog S C) :
    (Prog.transaction immediate refused body).meant pick =
      if (Prog.transaction immediate refused body).outcome = .raised then []
      else body.meant pick := by
  simp only [Prog.meant, outcome_eq_raised_iff]

theorem foldl_journal (journal statements : List S) :
    statements.foldl (fun data s => data ++ [s]) journal = journal ++ statements := by
  induction statements generalizing journal with
  | nil => simp
  | cons s rest ih => simp [ih]

theorem commitsMeant_of_raised {immediate : Bool} {refused : Refused} {body : Prog S C}
    (hroot : (Prog.transaction immediate refused body).outcome = .raised) (committed : D)
    (called : List (C × D)) : CommitsMeant apply immediate refused body committed called := by
  have hexec := @exec_own _ _ _ apply immediate refused body committed called
  simp only [hroot, if_true, List.append_nil] at hexec
  simp only [CommitsMeant, meant_root, hroot, if_true, hexec, List.foldl_nil, List.map_nil,
    List.append_nil]

theorem commitsMeant_iff {immediate : Bool} {refused : Refused} {body : Prog S C}
    (hroot : (Prog.transaction immediate refused body).outcome ≠ .raised) (committed : D)
    (called : List (C × D)) :
    CommitsMeant apply immediate refused body committed called ↔
      (body.left Act.statement? true).foldl (fun data s => apply s data) committed =
          (body.meant Act.statement?).foldl (fun data s => apply s data) committed ∧
        body.left Act.callback? false = body.meant Act.callback? := by
  have hexec := @exec_own _ _ _ apply immediate refused body committed called
  simp only [hroot, if_false] at hexec
  simp only [CommitsMeant, meant_root, hroot, if_false, hexec]
  constructor
  · intro hmeans
    simp only [Session.idle, Prod.mk.injEq, true_and, Session.mk.injEq, Conn.mk.injEq, and_true,
      List.append_cancel_left_eq] at hmeans
    obtain ⟨hdata, hcalls⟩ := hmeans
    rw [hdata] at hcalls
    refine ⟨hdata, List.map_injective_iff.mpr ?_ hcalls⟩
    exact fun _ _ heq => (Prod.mk.inj heq).1
  · rintro ⟨hdata, hcalls⟩
    rw [hdata, hcalls]

theorem leavesToOwner_iff (refused : Refused) (body : Prog S C) (committed : D)
    (owner : Tx String D) (called : List (C × D)) :
    LeavesToOwner apply false refused body committed owner called ↔
      ((Prog.transaction false refused body).left Act.statement? true).foldl
          (fun data s => apply s data) owner.work =
        ((Prog.transaction false refused body).meant Act.statement?).foldl
          (fun data s => apply s data) owner.work := by
  obtain ⟨later, hexec⟩ := @exec_foreign _ _ _ apply refused body committed owner called
  simp only [LeavesToOwner, hexec, Bool.false_eq_true, if_false]
  constructor
  · rintro ⟨later', hleaves⟩
    simp only [Session.idle, Prod.mk.injEq, true_and, Session.mk.injEq, Conn.mk.injEq, and_true,
      Option.some.injEq, Tx.mk.injEq] at hleaves
    exact hleaves.1
  · intro hdata
    exact ⟨later, by rw [hdata]⟩

universe u v

end Justup.Db.Transaction
