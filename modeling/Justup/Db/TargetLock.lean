import Justup.Lib.Table
import Justup.Lib.Transition
import Justup.Db.Stamp

/-!
# Target locks

The lock table has one row for each target.  Every operation is one
transaction at the time it reads from the clock; times are compared by their
stored texts.  Beside the table the state keeps what the callers know: until
when a run was given a target, and every acquisition so far.
-/

namespace Justup.Db

open Justup.Lib Justup.Lib.Table Justup.Store.JsonLine

/-- A row of `target_locks`; the times are stored by `adaptDatetime`. -/
structure Lock (T R : Type*) where
  targetId : T
  runId : R
  lockedAt : Int
  expiresAt : Int
deriving DecidableEq

/-- `first < second` on two stored times. -/
def storedBefore (first second : Int) : Bool := adaptDatetime first < adaptDatetime second

/-- `now + timedelta(seconds=ttl_seconds)`, which overflows after the year 9999. -/
def addSeconds (now ttl : Int) : Option Int :=
  if representable (now + ttl * 1000000) then some (now + ttl * 1000000) else none

variable {T R : Type*}

/-- `DELETE FROM target_locks WHERE expires_at < ?`. -/
def deleteExpired (now : Int) (locks : List (Lock T R)) : List (Lock T R) :=
  locks.filter fun lock => !storedBefore lock.expiresAt now

variable [DecidableEq T] [DecidableEq R]

/-- `INSERT OR REPLACE INTO target_locks`: the target is the primary key. -/
def insertOrReplace (lock : Lock T R) (locks : List (Lock T R)) : List (Lock T R) :=
  replace Lock.targetId lock locks

/-- `SELECT run_id FROM target_locks WHERE target_id = ? AND expires_at >= ?`. -/
def existingLock (now : Int) (target : T) (locks : List (Lock T R)) : Option (Lock T R) :=
  locks.find? fun lock => lock.targetId = target && !storedBefore lock.expiresAt now

/-- `try_lock_target`. -/
def tryLockTarget (now : Int) (target : T) (run : R) (expires : Int) (locks : List (Lock T R)) :
    List (Lock T R) × Bool :=
  let remaining := deleteExpired now locks
  if ∀ lock ∈ existingLock now target remaining, lock.runId = run then
    (insertOrReplace ⟨target, run, now, expires⟩ remaining, true)
  else (remaining, false)

/-- The rows that `renew_target_lock` updates. -/
def renewable (now : Int) (target : T) (run : R) (lock : Lock T R) : Bool :=
  lock.targetId = target ∧ lock.runId = run ∧ storedBefore lock.expiresAt now = false

/-- `renew_target_lock`. -/
def renewTargetLock (now : Int) (target : T) (run : R) (expires : Int) (locks : List (Lock T R)) :
    List (Lock T R) × Bool :=
  (locks.map fun lock =>
      if renewable now target run lock then { lock with expiresAt := expires } else lock,
    (locks.countP (renewable now target run)) = 1)

/-- `release_target_lock`. -/
def releaseTargetLock (target : T) (run : R) (locks : List (Lock T R)) : List (Lock T R) :=
  locks.filter fun lock => ¬ (lock.targetId = target ∧ lock.runId = run)

/-! ## Runs of several schedulers -/

inductive LockAct (T R : Type*)
  | tick (now : Int)
  | tryLock (target : T) (run : R) (ttl : Int)
  | renew (target : T) (run : R) (ttl : Int)
  | release (target : T) (run : R)
  | prune

structure Registry (T R : Type*) where
  clock : Int
  locks : List (Lock T R)
  /-- Until when a run was last given a target that it has not released. -/
  granted : T → R → Option Int
  acquired : List (T × R)

def Registry.start (now : Int) : Registry T R := ⟨now, [], fun _ _ => none, []⟩

def Registry.grant (reg : Registry T R) (target : T) (run : R) (until_ : Option Int) :
    T → R → Option Int :=
  fun target' run' => if target' = target ∧ run' = run then until_ else reg.granted target' run'

/-- One call, or time that passes.  The hourly retention deletes expired rows
as well. -/
def Registry.step (reg : Registry T R) : LockAct T R → Option (Registry T R)
  | .tick now =>
      if reg.clock ≤ now ∧ representable now then some { reg with clock := now } else none
  | .tryLock target run ttl =>
      if 0 < ttl then
        (addSeconds reg.clock ttl).map fun expires =>
          let result := tryLockTarget reg.clock target run expires reg.locks
          if result.2 then
            { reg with
              locks := result.1
              granted := reg.grant target run (some expires)
              acquired := reg.acquired ++ [(target, run)] }
          else { reg with locks := result.1 }
      else none
  | .renew target run ttl =>
      if 0 < ttl then
        (addSeconds reg.clock ttl).map fun expires =>
          let result := renewTargetLock reg.clock target run expires reg.locks
          if result.2 then
            { reg with locks := result.1, granted := reg.grant target run (some expires) }
          else { reg with locks := result.1 }
      else none
  | .release target run =>
      some { reg with
        locks := releaseTargetLock target run reg.locks
        granted := reg.grant target run none }
  | .prune => some { reg with locks := deleteExpired reg.clock reg.locks }

/-- The run that acquired the target last. -/
def lastAcquirer (target : T) (acquired : List (T × R)) : Option R :=
  ((acquired.filter fun entry => entry.1 = target).getLast?).map Prod.snd

/-- A run was given the target for a time that has not passed, and has not
released it. -/
def Registry.Holds (reg : Registry T R) (target : T) (run : R) : Prop :=
  ∃ expires, reg.granted target run = some expires ∧ reg.clock ≤ expires

/-- No row counts as expired before its time: on a whole second none expires
later within that second. -/
def Registry.NoneEarly (reg : Registry T R) : Prop :=
  ∀ lock ∈ reg.locks, ¬ (microOf reg.clock = 0 ∧ reg.clock < lock.expiresAt ∧
    lock.expiresAt / 1000000 = reg.clock / 1000000)

/-- The calls that delete expired rows are not made at such a time. -/
def LockAct.NoneEarly (reg : Registry T R) : LockAct T R → Prop
  | .tryLock .. => reg.NoneEarly
  | .prune => reg.NoneEarly
  | _ => True

/-! ## One row for each target, the last acquirer's -/

structure Registry.Fenced (reg : Registry T R) : Prop where
  onePerTarget : Keyed Lock.targetId reg.locks
  byLastAcquirer : ∀ lock ∈ reg.locks,
    lastAcquirer lock.targetId reg.acquired = some lock.runId

omit [DecidableEq R] in
theorem lastAcquirer_snoc (target target' : T) (run : R) (acquired : List (T × R)) :
    lastAcquirer target (acquired ++ [(target', run)]) =
      if target' = target then some run else lastAcquirer target acquired := by
  by_cases h : target' = target <;> simp [lastAcquirer, List.filter_append, h]

omit [DecidableEq T] [DecidableEq R] in
theorem mem_deleteExpired {now : Int} {lock : Lock T R} {locks : List (Lock T R)} :
    lock ∈ deleteExpired now locks ↔ lock ∈ locks ∧ storedBefore lock.expiresAt now = false := by
  simp [deleteExpired]

omit [DecidableEq R] in
/-- The row of a target that has not expired is the one that is found. -/
theorem existingLock_of_mem {now : Int} {lock : Lock T R} {locks : List (Lock T R)}
    (hlocks : Keyed Lock.targetId locks) (hlock : lock ∈ deleteExpired now locks) :
    existingLock now lock.targetId (deleteExpired now locks) = some lock := by
  cases hfind : existingLock now lock.targetId (deleteExpired now locks) with
  | none =>
      have hnone := List.find?_eq_none.mp hfind lock hlock
      simp [(mem_deleteExpired.mp hlock).2] at hnone
  | some existing =>
      have hmem := List.mem_of_find?_eq_some hfind
      have htarget : existing.targetId = lock.targetId := by
        have hpred := List.find?_some hfind
        simp only [Bool.and_eq_true, decide_eq_true_eq] at hpred
        exact hpred.1
      rw [(hlocks.filter _).eq_of_mem hmem hlock htarget]

/-- `try_lock_target` deletes the expired rows and then acquires, or finds
another run's lock and changes nothing more. -/
theorem tryLockTarget_cases (now : Int) (target : T) (run : R) (expires : Int)
    {locks : List (Lock T R)} (hlocks : Keyed Lock.targetId locks) :
    tryLockTarget now target run expires locks = (deleteExpired now locks, false) ∨
      tryLockTarget now target run expires locks =
          (insertOrReplace ⟨target, run, now, expires⟩ (deleteExpired now locks), true) ∧
        ∀ lock ∈ deleteExpired now locks, lock.targetId = target → lock.runId = run := by
  unfold tryLockTarget
  by_cases hfree : ∀ lock ∈ existingLock now target (deleteExpired now locks), lock.runId = run
  · refine Or.inr ⟨if_pos hfree, ?_⟩
    rintro lock hlock rfl
    exact hfree lock (existingLock_of_mem hlocks hlock)
  · exact Or.inl (if_neg hfree)

theorem renewable_iff {now : Int} {target : T} {run : R} {lock : Lock T R} :
    renewable now target run lock = true ↔
      lock.targetId = target ∧ lock.runId = run ∧ storedBefore lock.expiresAt now = false := by
  simp [renewable]

/-- `renew_target_lock` returns whether there is a row to update. -/
theorem renewTargetLock_snd {now : Int} {target : T} {run : R} {expires : Int}
    {locks : List (Lock T R)} (hlocks : Keyed Lock.targetId locks) :
    (renewTargetLock now target run expires locks).2 = true ↔
      ∃ lock ∈ locks, renewable now target run lock = true := by
  rw [← hlocks.countP_eq_one_iff fun lock _ hlock => (renewable_iff.mp hlock).1]
  simp [renewTargetLock]

/-- A renewal changes no target and no run. -/
theorem mem_renewTargetLock {now : Int} {target : T} {run : R} {expires : Int} {lock : Lock T R}
    {locks : List (Lock T R)} :
    lock ∈ (renewTargetLock now target run expires locks).1 ↔
      ∃ old ∈ locks, (if renewable now target run old then { old with expiresAt := expires }
        else old) = lock := by
  simp [renewTargetLock]

theorem keyed_renewTargetLock {now : Int} {target : T} {run : R} {expires : Int}
    {locks : List (Lock T R)} (hlocks : Keyed Lock.targetId locks) :
    Keyed Lock.targetId (renewTargetLock now target run expires locks).1 := by
  refine hlocks.map ?_
  intro lock
  split <;> rfl

instance (reg : Registry T R) : Decidable reg.NoneEarly :=
  inferInstanceAs (Decidable (∀ lock ∈ reg.locks, ¬ (microOf reg.clock = 0 ∧
    reg.clock < lock.expiresAt ∧ lock.expiresAt / 1000000 = reg.clock / 1000000)))

instance (reg : Registry T R) : ∀ action : LockAct T R, Decidable (action.NoneEarly reg)
  | .tryLock .. => inferInstanceAs (Decidable reg.NoneEarly)
  | .prune => inferInstanceAs (Decidable reg.NoneEarly)
  | .tick _ => isTrue trivial
  | .renew .. => isTrue trivial
  | .release .. => isTrue trivial

/-- What a call can do to the table and to what the callers know; `ok` is
what is asked of the calls that delete expired rows. -/
inductive Registry.Effect (reg : Registry T R) (ok : Prop) : Registry T R → Prop
  | passed (now : Int) (hle : reg.clock ≤ now) (hnow : representable now = true) :
      Effect reg ok { reg with clock := now }
  | pruned (hearly : ok → reg.NoneEarly) :
      Effect reg ok { reg with locks := deleteExpired reg.clock reg.locks }
  | acquired (target : T) (run : R) (expires : Int) (hexpires : representable expires = true)
      (hearly : ok → reg.NoneEarly)
      (hfree : ∀ lock ∈ deleteExpired reg.clock reg.locks,
        lock.targetId = target → lock.runId = run) :
      Effect reg ok { reg with
        locks := insertOrReplace ⟨target, run, reg.clock, expires⟩
          (deleteExpired reg.clock reg.locks)
        granted := reg.grant target run (some expires)
        acquired := reg.acquired ++ [(target, run)] }
  | renewed (target : T) (run : R) (expires : Int) (hexpires : representable expires = true)
      (lock : Lock T R) (hlock : lock ∈ reg.locks)
      (hrenewable : renewable reg.clock target run lock = true) :
      Effect reg ok { reg with
        locks := (renewTargetLock reg.clock target run expires reg.locks).1
        granted := reg.grant target run (some expires) }
  | unchanged : Effect reg ok reg
  | released (target : T) (run : R) :
      Effect reg ok { reg with
        locks := releaseTargetLock target run reg.locks
        granted := reg.grant target run none }

theorem renewTargetLock_of_none {now : Int} {target : T} {run : R} {expires : Int}
    {locks : List (Lock T R)} (hnone : ¬ ∃ lock ∈ locks, renewable now target run lock = true) :
    (renewTargetLock now target run expires locks).1 = locks := by
  have hid : ∀ lock ∈ locks, (if renewable now target run lock then
      { lock with expiresAt := expires } else lock) = lock := by
    intro lock hlock
    exact if_neg fun hrenewable => hnone ⟨lock, hlock, hrenewable⟩
  exact (List.map_congr_left hid).trans (List.map_id locks)

theorem representable_of_addSeconds {now ttl expires : Int}
    (hadd : addSeconds now ttl = some expires) : representable expires = true := by
  unfold addSeconds at hadd
  split_ifs at hadd with hfits
  cases hadd
  exact hfits

theorem Registry.effect_of_step {reg next : Registry T R} {action : LockAct T R}
    (hkeyed : Keyed Lock.targetId reg.locks) (hstep : reg.step action = some next) :
    reg.Effect (action.NoneEarly reg) next := by
  cases action with
  | tick now =>
      simp only [Registry.step] at hstep
      split_ifs at hstep with hnow
      cases hstep
      exact .passed now hnow.1 hnow.2
  | tryLock target run ttl =>
      simp only [Registry.step] at hstep
      split_ifs at hstep
      obtain ⟨expires, hadd, hnext⟩ := Option.map_eq_some_iff.mp hstep
      rcases tryLockTarget_cases reg.clock target run expires hkeyed with hfail | ⟨hdone, hfree⟩
      · rw [hfail, if_neg Bool.false_ne_true] at hnext
        exact hnext ▸ .pruned id
      · rw [hdone, if_pos rfl] at hnext
        exact hnext ▸ .acquired target run expires (representable_of_addSeconds hadd) id hfree
  | renew target run ttl =>
      simp only [Registry.step] at hstep
      split_ifs at hstep
      obtain ⟨expires, hadd, hnext⟩ := Option.map_eq_some_iff.mp hstep
      by_cases hrow : ∃ lock ∈ reg.locks, renewable reg.clock target run lock = true
      · rw [if_pos ((renewTargetLock_snd hkeyed).mpr hrow)] at hnext
        obtain ⟨lock, hlock, hrenewable⟩ := hrow
        exact hnext ▸ .renewed target run expires (representable_of_addSeconds hadd) lock hlock
          hrenewable
      · rw [if_neg fun hdone => hrow ((renewTargetLock_snd hkeyed).mp hdone),
          renewTargetLock_of_none hrow] at hnext
        exact hnext ▸ .unchanged
  | release target run =>
      cases hstep
      exact .released target run
  | prune =>
      cases hstep
      exact .pruned id

/-- Every step keeps one row for each target, with the run that acquired it
last. -/
theorem Registry.Fenced.step {reg next : Registry T R} {action : LockAct T R}
    (hfenced : reg.Fenced) (hstep : reg.step action = some next) : next.Fenced := by
  obtain ⟨hkeyed, hlast⟩ := hfenced
  cases Registry.effect_of_step hkeyed hstep with
  | passed now hle hnow => exact ⟨hkeyed, hlast⟩
  | pruned hearly =>
      refine ⟨hkeyed.filter _, ?_⟩
      intro lock hlock
      exact hlast lock (mem_deleteExpired.mp hlock).1
  | acquired target run expires hexpires hearly hfree =>
      refine ⟨(hkeyed.filter _).replace _, ?_⟩
      intro lock hlock
      rw [lastAcquirer_snoc]
      rcases mem_replace.mp hlock with ⟨hold, hne⟩ | rfl
      · rw [if_neg (Ne.symm hne)]
        exact hlast lock (mem_deleteExpired.mp hold).1
      · rw [if_pos rfl]
  | renewed target run expires hexpires lock hlock hrenewable =>
      refine ⟨keyed_renewTargetLock hkeyed, ?_⟩
      intro lock hlock
      obtain ⟨old, hold, rfl⟩ := mem_renewTargetLock.mp hlock
      have hsame := hlast old hold
      split <;> exact hsame
  | unchanged => exact ⟨hkeyed, hlast⟩
  | released target run =>
      refine ⟨hkeyed.filter _, ?_⟩
      intro lock hlock
      exact hlast lock (List.mem_filter.mp hlock).1

omit [DecidableEq R] in
theorem Registry.fenced_start (now : Int) : (Registry.start now : Registry T R).Fenced where
  onePerTarget := keyed_nil
  byLastAcquirer := by simp [Registry.start]

/-- A renewal that succeeds is by the run that acquired the target last. -/
theorem Registry.Fenced.renew {reg : Registry T R} (hfenced : reg.Fenced) {target : T} {run : R}
    {expires : Int}
    (hrenew : (renewTargetLock reg.clock target run expires reg.locks).2 = true) :
    lastAcquirer target reg.acquired = some run := by
  obtain ⟨lock, hlock, hrenewable⟩ := (renewTargetLock_snd hfenced.onePerTarget).mp hrenew
  obtain ⟨rfl, rfl, -⟩ := renewable_iff.mp hrenewable
  exact hfenced.byLastAcquirer lock hlock

/-! ## What is held is in the table -/

/-- Beside the table: the clock and the rows hold times that have a text. -/
structure Registry.Held (reg : Registry T R) : Prop where
  fenced : reg.Fenced
  clock : representable reg.clock = true
  expires : ∀ lock ∈ reg.locks, representable lock.expiresAt = true
  inTable : ∀ target run expires, reg.granted target run = some expires → reg.clock ≤ expires →
    ∃ lock ∈ reg.locks, lock.targetId = target ∧ lock.runId = run ∧ lock.expiresAt = expires

theorem storedBefore_iff {first second : Int} (hfirst : representable first = true)
    (hsecond : representable second = true) :
    storedBefore first second = true ↔
      first / 1000000 < second / 1000000 ∨ first / 1000000 = second / 1000000 ∧
        microOf first ≠ 0 ∧ (microOf second = 0 ∨ microOf first < microOf second) := by
  rw [storedBefore, decide_eq_true_eq, adaptDatetime_lt_iff hfirst hsecond]

omit [DecidableEq T] [DecidableEq R] in
/-- A row that is deleted as expired has expired. -/
theorem lt_clock_of_storedBefore {reg : Registry T R} (hnone : reg.NoneEarly)
    (hclock : representable reg.clock = true) {lock : Lock T R} (hlock : lock ∈ reg.locks)
    (hexpires : representable lock.expiresAt = true)
    (hbefore : storedBefore lock.expiresAt reg.clock = true) : lock.expiresAt < reg.clock := by
  have hearly := hnone lock hlock
  have hmicro := microOf_eq lock.expiresAt
  have hmicro' := microOf_eq reg.clock
  rw [storedBefore_iff hexpires hclock] at hbefore
  omega

theorem grant_eq_some {reg : Registry T R} {target target' : T} {run run' : R}
    {until_ expires : Option Int} (hgrant : reg.grant target run until_ target' run' = expires) :
    target' = target ∧ run' = run ∧ until_ = expires ∨
      ¬ (target' = target ∧ run' = run) ∧ reg.granted target' run' = expires := by
  unfold Registry.grant at hgrant
  split_ifs at hgrant with hsame
  · exact Or.inl ⟨hsame.1, hsame.2, hgrant⟩
  · exact Or.inr ⟨hsame, hgrant⟩

/-- As long as nothing expires early, a lock that is held stays in the table. -/
theorem Registry.Held.step {reg next : Registry T R} {action : LockAct T R} (hheld : reg.Held)
    (hok : action.NoneEarly reg) (hstep : reg.step action = some next) : next.Held := by
  have hfenced := hheld.fenced.step hstep
  obtain ⟨⟨hkeyed, -⟩, hclock, hexpires, hinTable⟩ := hheld
  -- a lock that is held survives the deletion of the expired rows
  have hkept : reg.NoneEarly → ∀ lock ∈ reg.locks, reg.clock ≤ lock.expiresAt →
      lock ∈ deleteExpired reg.clock reg.locks := by
    intro hearly lock hlock hle
    refine mem_deleteExpired.mpr ⟨hlock, ?_⟩
    by_contra hbefore
    rw [Bool.not_eq_false] at hbefore
    have := lt_clock_of_storedBefore hearly hclock hlock (hexpires lock hlock) hbefore
    omega
  cases Registry.effect_of_step hkeyed hstep with
  | passed now hle hnow =>
      refine ⟨hfenced, hnow, hexpires, ?_⟩
      intro target run expires hgranted hafter
      exact hinTable target run expires hgranted (hle.trans hafter)
  | pruned hearly =>
      refine ⟨hfenced, hclock, fun lock hlock => hexpires lock (mem_deleteExpired.mp hlock).1, ?_⟩
      intro target run expires hgranted hafter
      obtain ⟨lock, hlock, htarget, hrun, rfl⟩ := hinTable target run expires hgranted hafter
      exact ⟨lock, hkept (hearly hok) lock hlock hafter, htarget, hrun, rfl⟩
  | acquired target run expires hfits hearly hfree =>
      refine ⟨hfenced, hclock, ?_, ?_⟩
      · intro lock hlock
        rcases mem_replace.mp hlock with ⟨hold, -⟩ | rfl
        · exact hexpires lock (mem_deleteExpired.mp hold).1
        · exact hfits
      · intro target' run' expires' hgranted hafter
        rcases grant_eq_some hgranted with ⟨rfl, rfl, hsame⟩ | ⟨hother, hgranted⟩
        · cases hsame
          exact ⟨_, mem_replace.mpr (Or.inr rfl), rfl, rfl, rfl⟩
        · obtain ⟨lock, hlock, rfl, rfl, rfl⟩ := hinTable target' run' expires' hgranted hafter
          have hmem := hkept (hearly hok) lock hlock hafter
          refine ⟨lock, mem_replace.mpr (Or.inl ⟨hmem, ?_⟩), rfl, rfl, rfl⟩
          intro htarget
          exact hother ⟨htarget, hfree lock hmem htarget⟩
  | renewed target run expires hfits renewed hrenewed hrenewable =>
      obtain ⟨htarget, hrun, -⟩ := renewable_iff.mp hrenewable
      refine ⟨hfenced, hclock, ?_, ?_⟩
      · intro lock hlock
        obtain ⟨old, hold, rfl⟩ := mem_renewTargetLock.mp hlock
        split
        · exact hfits
        · exact hexpires old hold
      · intro target' run' expires' hgranted hafter
        rcases grant_eq_some hgranted with ⟨rfl, rfl, hsame⟩ | ⟨hother, hgranted⟩
        · cases hsame
          refine ⟨_, mem_renewTargetLock.mpr ⟨renewed, hrenewed, rfl⟩, ?_⟩
          rw [if_pos hrenewable]
          exact ⟨htarget, hrun, rfl⟩
        · obtain ⟨lock, hlock, rfl, rfl, rfl⟩ := hinTable target' run' expires' hgranted hafter
          refine ⟨_, mem_renewTargetLock.mpr ⟨lock, hlock, rfl⟩, ?_⟩
          rw [if_neg fun hsame => hother ⟨(renewable_iff.mp hsame).1, (renewable_iff.mp hsame).2.1⟩]
          exact ⟨rfl, rfl, rfl⟩
  | unchanged => exact ⟨hfenced, hclock, hexpires, hinTable⟩
  | released target run =>
      refine ⟨hfenced, hclock, fun lock hlock => hexpires lock (List.mem_filter.mp hlock).1, ?_⟩
      intro target' run' expires' hgranted hafter
      rcases grant_eq_some hgranted with ⟨-, -, hnone⟩ | ⟨hother, hgranted⟩
      · cases hnone
      · obtain ⟨lock, hlock, rfl, rfl, rfl⟩ := hinTable target' run' expires' hgranted hafter
        exact ⟨lock, List.mem_filter.mpr ⟨hlock, decide_eq_true hother⟩, rfl, rfl, rfl⟩

omit [DecidableEq R] in
/-- Two runs that hold a target are one. -/
theorem Registry.Held.exclusive {reg : Registry T R} (hheld : reg.Held) {target : T}
    {first second : R} (hfirst : reg.Holds target first) (hsecond : reg.Holds target second) :
    first = second := by
  obtain ⟨expires, hgranted, hafter⟩ := hfirst
  obtain ⟨expires', hgranted', hafter'⟩ := hsecond
  obtain ⟨lock, hlock, htarget, rfl, -⟩ := hheld.inTable target first expires hgranted hafter
  obtain ⟨lock', hlock', htarget', rfl, -⟩ := hheld.inTable target second expires' hgranted' hafter'
  rw [hheld.fenced.onePerTarget.eq_of_mem hlock hlock' (htarget.trans htarget'.symm)]

omit [DecidableEq R] in
theorem Registry.held_start {now : Int} (hnow : representable now = true) :
    (Registry.start now : Registry T R).Held where
  fenced := Registry.fenced_start now
  clock := hnow
  expires := by simp [Registry.start]
  inTable := by simp [Registry.start]

/-- In every run a renewal succeeds only for the run that acquired the target
last, and as long as no lock expires early two runs never hold one target. -/
theorem target_locks_fence {now : Int} (hnow : representable now = true)
    {acts : List (LockAct T R)} {final : Registry T R}
    (hrun : Transition.run Registry.step (Registry.start now) acts = some final) :
    (∀ target run expires,
      (renewTargetLock final.clock target run expires final.locks).2 = true →
        lastAcquirer target final.acquired = some run) ∧
    (Transition.RunOk Registry.step (fun reg action => action.NoneEarly reg)
        (Registry.start now) acts →
      ∀ target first second, final.Holds target first → final.Holds target second →
        first = second) := by
  constructor
  · intro target run expires hrenew
    have hfenced : final.Fenced := by
      refine Transition.run_invariant ?_ (Registry.fenced_start now) hrun
      intro reg action next hreg hstep
      exact hreg.step hstep
    exact hfenced.renew hrenew
  · intro hok target first second hfirst hsecond
    have hheld : final.Held := by
      refine Transition.run_invariant_of ?_ hok (Registry.held_start hnow) hrun
      intro reg action next hreg haction hstep
      exact hreg.step haction hstep
    exact hheld.exclusive hfirst hsecond

/-- The clock of the runs below: half a second after noon on 2026-01-01. -/
def noonAndAHalf : Int := 1767268800500000

/-- Run 1 is locked out, takes the target over once run 0 has let it expire,
and gives it back; then run 0 cannot renew. -/
theorem target_locks_fence_takeover :
    ∃ final : Registry Nat Nat,
      Transition.run Registry.step (Registry.start noonAndAHalf)
        [.tryLock 7 0 10, .tryLock 7 1 10, .tick (noonAndAHalf + 11000000), .tryLock 7 1 10,
          .release 7 1] = some final ∧
      lastAcquirer 7 final.acquired = some 1 ∧
      (∀ target run expires,
        (renewTargetLock final.clock target run expires final.locks).2 = true →
          lastAcquirer target final.acquired = some run) ∧
      ∀ target first second, final.Holds target first → final.Holds target second →
        first = second := by
  obtain ⟨acts, hacts⟩ : ∃ acts : List (LockAct Nat Nat), acts = [.tryLock 7 0 10,
      .tryLock 7 1 10, .tick (noonAndAHalf + 11000000), .tryLock 7 1 10, .release 7 1] := ⟨_, rfl⟩
  have hany : (Transition.run Registry.step (Registry.start noonAndAHalf) acts).any (fun final =>
      decide (lastAcquirer 7 final.acquired = some 1)) = true := by
    rw [hacts]
    decide +kernel
  have hok : Transition.RunOk Registry.step (fun reg action => action.NoneEarly reg)
      (Registry.start noonAndAHalf) acts := by
    rw [hacts]
    decide +kernel
  obtain ⟨final, hrun, hfinal⟩ := (Option.any_eq_true ..).mp hany
  have hnow : representable noonAndAHalf = true := by decide +kernel
  rw [← hacts]
  exact ⟨final, hrun, of_decide_eq_true hfinal, (target_locks_fence hnow hrun).1,
    (target_locks_fence hnow hrun).2 hok⟩

/-- At twelve o'clock and ten seconds sharp the lock that expires half a second
later counts as expired: both runs hold the target. -/
theorem whole_second_grants_twice :
    ∃ final : Registry Nat Nat,
      Transition.run Registry.step (Registry.start noonAndAHalf)
        [.tryLock 7 0 10, .tick (noonAndAHalf + 9500000), .tryLock 7 1 10] = some final ∧
      final.Holds 7 0 ∧ final.Holds 7 1 := by
  have hany : (Transition.run Registry.step (Registry.start noonAndAHalf)
      ([.tryLock 7 0 10, .tick (noonAndAHalf + 9500000), .tryLock 7 1 10] :
        List (LockAct Nat Nat))).any (fun final =>
          decide (final.clock = noonAndAHalf + 9500000) &&
            decide (final.granted 7 0 = some (noonAndAHalf + 10000000)) &&
            decide (final.granted 7 1 = some (noonAndAHalf + 19500000))) = true := by
    decide +kernel
  obtain ⟨final, hrun, hfinal⟩ := (Option.any_eq_true ..).mp hany
  simp only [Bool.and_eq_true, decide_eq_true_eq] at hfinal
  obtain ⟨⟨hclock, hfirst⟩, hsecond⟩ := hfinal
  exact ⟨final, hrun, ⟨_, hfirst, by omega⟩, ⟨_, hsecond, by omega⟩⟩

end Justup.Db
