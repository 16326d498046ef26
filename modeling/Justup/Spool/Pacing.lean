import Justup.Spool.Ownership

/-!
# Pacing and cooldown across workers

A worker reads the wait of a send path, sleeps, and records its attempt later.
What it read carries over to the record as long as nobody else recorded an
attempt on the path in between.
-/

namespace Justup.Spool

open Lib Lib.Table Lib.Transition

namespace System

/-- The attempt is recorded on the last attempt that the worker read. -/
def ReadStands (system : System) (act : SystemAct) : Prop :=
  match act with
  | .work name .recordAttempt =>
      match (system.workers name).stage, (system.workers name).items with
      | .leased _ read, item :: _ =>
          (system.queue.paths item.itemKey).lastAttemptAt = read.lastAttemptAt
      | _, _ => True
  | _ => True

/-- The comparison of an attempt, by the phase of the worker and its items. -/
instance decidableAttemptStands (paths : SendPath → PathState) :
    ∀ (stage : Stage) (items : List Row), Decidable (match stage, items with
      | .leased _ read, item :: _ => (paths item.itemKey).lastAttemptAt = read.lastAttemptAt
      | _, _ => True)
  | .leased _ _, _ :: _ => inferInstanceAs (Decidable (_ = _))
  | .leased _ _, [] => isTrue trivial
  | .ready, _ => isTrue trivial
  | .waiting _ _, _ => isTrue trivial
  | .sending, _ => isTrue trivial
  | .finishing _, _ => isTrue trivial
  | .marking _, _ => isTrue trivial

instance (system : System) : ∀ act : SystemAct, Decidable (ReadStands system act)
  | .work name .recordAttempt =>
      decidableAttemptStands system.queue.paths (system.workers name).stage
        (system.workers name).items
  | .work _ .claim => isTrue trivial
  | .work _ (.failUnparsable _ _) => isTrue trivial
  | .work _ (.defer _) => isTrue trivial
  | .work _ .readWait => isTrue trivial
  | .work _ .renew => isTrue trivial
  | .work _ (.answer _) => isTrue trivial
  | .work _ .coolDown => isTrue trivial
  | .work _ (.write _) => isTrue trivial
  | .work _ .drop => isTrue trivial
  | .work _ .crash => isTrue trivial
  | .tick _ => isTrue trivial
  | .enqueue _ _ => isTrue trivial
  | .ensureTable => isTrue trivial

/-- What a worker read of the path of its first item, with the end of its wait. -/
def readOf (worker : Worker) : Option (SendPath × Int × PathState) :=
  match worker.stage, worker.items with
  | .waiting wake read, item :: _ => some (item.itemKey, wake, read)
  | .leased wake read, item :: _ => some (item.itemKey, wake, read)
  | _, _ => none

/-- Two attempts on one path keep its distance. -/
def Spaced (first second : SendPath × Int) : Prop :=
  first.1 = second.1 → first.2 + first.1.minInterval ≤ second.2

structure Paced (system : System) : Prop where
  spaced : system.recorded.Pairwise Spaced
  past : ∀ entry ∈ system.recorded, entry.2 ≤ system.clock
  stored : ∀ entry ∈ system.recorded,
    ∃ last, (system.queue.paths entry.1).lastAttemptAt = some last ∧ entry.2 ≤ last
  reading : ∀ name path wake read, readOf (system.workers name) = some (path, wake, read) →
    (∀ last, read.lastAttemptAt = some last → last + path.minInterval ≤ wake) ∧
      read.inCooldown wake = false
  slept : ∀ name wake read, (system.workers name).stage = .leased wake read → wake ≤ system.clock

variable {system next : System} {name : Nat}

/-- A worker reads the state of a path in one step only. -/
theorem readOf_step {now : Int} {queue queue' : Queue} {worker worker' : Worker} {act : WorkerAct}
    (hwork : Worker.Step now queue worker act queue' worker') :
    readOf worker' = none ∨ readOf worker' = readOf worker ∨
      act = .readWait ∧ ∃ path wait, (queue.paths path).pacingWait path now = some wait ∧
        readOf worker' = some (path, now + wait, queue.paths path) := by
  cases hwork with
  | claim hfree => exact .inl rfl
  | failUnparsable hrows => exact .inr (.inl rfl)
  | skipUnparsable hrows => exact .inr (.inl rfl)
  | defer hact => exact .inl rfl
  | @readWait item rest wait hready hitems hwait =>
      exact .inr (.inr ⟨rfl, item.itemKey, wait, hwait, by simp [readOf, hitems]⟩)
  | @renew item row rest wake read hwaiting hitems hwake hrow hprocessing hheld =>
      refine .inr (.inl ?_)
      simp [readOf, hwaiting, hitems, Row.itemKey]
  | lost hitems => exact .inl rfl
  | recordAttempt hleased hitems => exact .inl rfl
  | answer hsending => exact .inl rfl
  | coolDown hfinishing hitems => exact .inl rfl
  | write hmarking hitems => exact .inl rfl
  | drop hitems => exact .inl rfl
  | crash => exact .inl rfl

/-- A lease is taken when the wait is over. -/
theorem leased_step {now : Int} {queue queue' : Queue} {worker worker' : Worker} {act : WorkerAct}
    {wake : Int} {read : PathState} (hwork : Worker.Step now queue worker act queue' worker')
    (hleased : worker'.stage = .leased wake read) :
    worker.stage = .leased wake read ∨ wake ≤ now := by
  cases hwork with
  | failUnparsable hrows => exact .inl hleased
  | skipUnparsable hrows => exact .inl hleased
  | renew hwaiting hitems hwake hrow hprocessing hheld =>
      cases hleased
      exact .inr hwake
  | claim hfree => cases hleased
  | defer hact => cases hleased
  | readWait hready hitems hwait => cases hleased
  | lost hitems => cases hleased
  | recordAttempt hstage hitems => cases hleased
  | answer hsending => cases hleased
  | coolDown hfinishing hitems => cases hleased
  | write hmarking hitems => cases hleased
  | drop hitems => cases hleased
  | crash => cases hleased

/-- What a step can make of the state of a path. -/
inductive PathMove (system : System) (act : SystemAct) (path : SendPath) : PathState → Prop
  | same : PathMove system act path (system.queue.paths path)
  | cooled (count : Nat) (reason : Store.Text) :
      PathMove system act path
        ((system.queue.paths path).setCooldown system.clock count reason)
  | attempted {name : Nat} {item : Row} {rest : List Row} (hact : act = .work name .recordAttempt)
      (hitems : (system.workers name).items = item :: rest) (hpath : item.itemKey = path) :
      PathMove system act path ((system.queue.paths path).recordAttempt system.clock)

theorem PathMove.of_eq {act : SystemAct} {path : SendPath} {state : PathState}
    (hsame : state = system.queue.paths path) : PathMove system act path state :=
  hsame ▸ .same

theorem path_step {act : SystemAct} (hstep : system.step act = some next) (path : SendPath) :
    PathMove system act path (next.queue.paths path) := by
  cases act with
  | tick delay =>
      cases hstep
      exact .same
  | enqueue jitter message =>
      cases hstep
      rcases Queue.perform_enqueue system.clock jitter message system.queue with
        hqueue | ⟨nextRetry, hqueue⟩
      · exact .of_eq (by simp only [hqueue])
      · exact .of_eq (by simp only [hqueue])
  | ensureTable =>
      cases hstep
      exact .same
  | work name act =>
      obtain ⟨queue, worker, hwork, rfl⟩ := step_work hstep
      cases hwork with
      | claim hfree => exact .same
      | failUnparsable hrows =>
          exact .of_eq (congrFun (Queue.rows_recordDelivery _ _ _).2.2 path)
      | skipUnparsable hrows => exact .same
      | defer hact => exact .same
      | readWait hready hitems hwait => exact .same
      | renew hwaiting hitems hwake hrow hprocessing hheld => exact .same
      | lost hitems => exact .same
      | @recordAttempt item rest wake read hleased hitems =>
          by_cases hpath : item.itemKey = path
          · subst hpath
            have hafter : (system.queue.recordAttempt system.clock item.itemKey).paths
                item.itemKey = (system.queue.paths item.itemKey).recordAttempt system.clock := by
              simp [Queue.recordAttempt, Queue.changePath]
            simp only [worked, hafter]
            exact .attempted rfl hitems rfl
          · refine .of_eq ?_
            simp [worked, Queue.recordAttempt, Queue.changePath, Ne.symm hpath]
      | answer hsending => exact .same
      | @coolDown item rest result hfinishing hitems =>
          simp only [worked, Queue.coolDown]
          split
          · rename_i count hcooldown
            by_cases hpath : item.itemKey = path
            · subst hpath
              simp only [Queue.setCooldown, Queue.changePath, Function.update_self]
              exact .cooled _ _
            · refine .of_eq ?_
              simp [Queue.setCooldown, Queue.changePath, Ne.symm hpath]
          · exact .same
      | write hmarking hitems => exact .of_eq (congrFun (Queue.written_write _ _ _ _).2.1 path)
      | drop hitems => exact .same
      | crash => exact .same

/-- A step records nothing, or the attempt of a worker whose lease is taken. -/
theorem recorded_step {act : SystemAct} (hstep : system.step act = some next) :
    next.recorded = system.recorded ∨
      ∃ name item rest wake read, act = .work name .recordAttempt ∧
        (system.workers name).stage = .leased wake read ∧
        (system.workers name).items = item :: rest ∧
        next.recorded = system.recorded ++ [(item.itemKey, system.clock)] ∧
        (next.queue.paths item.itemKey).lastAttemptAt = some system.clock := by
  cases act with
  | tick delay =>
      cases hstep
      exact .inl rfl
  | enqueue jitter message =>
      cases hstep
      exact .inl rfl
  | ensureTable =>
      cases hstep
      exact .inl rfl
  | work name act =>
      obtain ⟨queue, worker, hwork, rfl⟩ := step_work hstep
      have hnone : recordedBy system.clock act (system.workers name) = none →
          (system.worked name act queue worker).recorded = system.recorded := by
        intro hrecorded
        simp [worked, hrecorded]
      cases hwork with
      | @recordAttempt item rest wake read hleased hitems =>
          refine .inr ⟨name, item, rest, wake, read, rfl, hleased, hitems, ?_, ?_⟩
          · simp [worked, recordedBy, hitems]
          · simp [worked, Queue.recordAttempt, Queue.changePath, PathState.recordAttempt]
      | defer hact =>
          refine .inl (hnone ?_)
          rcases hact with rfl | rfl <;> rfl
      | claim hfree => exact .inl (hnone rfl)
      | failUnparsable hrows => exact .inl (hnone rfl)
      | skipUnparsable hrows => exact .inl (hnone rfl)
      | readWait hready hitems hwait => exact .inl (hnone rfl)
      | renew hwaiting hitems hwake hrow hprocessing hheld => exact .inl (hnone rfl)
      | lost hitems => exact .inl (hnone rfl)
      | answer hsending => exact .inl (hnone rfl)
      | coolDown hfinishing hitems => exact .inl (hnone rfl)
      | write hmarking hitems => exact .inl (hnone rfl)
      | drop hitems => exact .inl (hnone rfl)
      | crash => exact .inl (hnone rfl)

theorem lastAttemptAt_setCooldown (now : Int) (count : Nat) (reason : Store.Text)
    (state : PathState) : (state.setCooldown now count reason).lastAttemptAt =
      state.lastAttemptAt := by
  simp only [PathState.setCooldown]
  split <;> rfl

/-! ## The invariant -/

theorem clock_step {act : SystemAct} (hstep : system.step act = some next) :
    system.clock ≤ next.clock := by
  cases act with
  | tick delay =>
      cases hstep
      simp
  | enqueue jitter message =>
      cases hstep
      exact le_refl _
  | ensureTable =>
      cases hstep
      exact le_refl _
  | work name act =>
      obtain ⟨queue, worker, hwork, rfl⟩ := step_work hstep
      exact le_refl _

/-- A step changes one worker only, and that by a step of its own. -/
theorem worker_step {act : SystemAct} (hstep : system.step act = some next) (name : Nat) :
    next.workers name = system.workers name ∨
      ∃ act' queue, act = .work name act' ∧
        Worker.Step system.clock system.queue (system.workers name) act' queue
          (next.workers name) := by
  cases act with
  | tick delay =>
      cases hstep
      exact .inl rfl
  | enqueue jitter message =>
      cases hstep
      exact .inl rfl
  | ensureTable =>
      cases hstep
      exact .inl rfl
  | work other act =>
      obtain ⟨queue, worker, hwork, rfl⟩ := step_work hstep
      rw [workers_worked]
      split
      · rename_i hname
        subst hname
        exact .inr ⟨act, queue, rfl, hwork⟩
      · exact .inl rfl

theorem Paced.of_start (clock : Int) (queue : Queue) : (start clock queue).Paced where
  spaced := .nil
  past := by simp [start]
  stored := by simp [start]
  reading name path wake read hread := by cases hread
  slept name wake read hleased := by cases hleased

theorem not_inCooldown_mono {now later : Int} {state : PathState} (hle : now ≤ later)
    (hfree : state.inCooldown now = false) : state.inCooldown later = false := by
  cases hcooldown : state.cooldownUntil with
  | none => simp [PathState.inCooldown, hcooldown]
  | some until_ =>
      simp only [PathState.inCooldown, hcooldown, Option.any_some, decide_eq_false_iff_not,
        not_lt] at hfree ⊢
      omega

theorem Paced.step {act : SystemAct} (hpaced : system.Paced) (hstands : ReadStands system act)
    (hstep : system.step act = some next) : next.Paced := by
  have hclock := clock_step hstep
  -- what a worker read, and that it slept, holds of every step
  have hreading : ∀ name path wake read, readOf (next.workers name) = some (path, wake, read) →
      (∀ last, read.lastAttemptAt = some last → last + path.minInterval ≤ wake) ∧
        read.inCooldown wake = false := by
    intro name path wake read hread
    rcases worker_step hstep name with hsame | ⟨act', queue, rfl, hwork⟩
    · rw [hsame] at hread
      exact hpaced.reading name path wake read hread
    · rcases readOf_step hwork with hnone | hsame | ⟨-, key, wait, hwait, hnew⟩
      · rw [hnone] at hread
        cases hread
      · rw [hsame] at hread
        exact hpaced.reading name path wake read hread
      · rw [hnew] at hread
        cases hread
        have hnonneg := PathState.pacingWait_nonneg hwait
        exact ⟨fun last hlast => PathState.le_of_pacingWait hwait hlast,
          not_inCooldown_mono (by omega) (PathState.not_inCooldown_of_pacingWait hwait)⟩
  have hslept : ∀ name wake read, (next.workers name).stage = .leased wake read →
      wake ≤ next.clock := by
    intro name wake read hleased
    rcases worker_step hstep name with hsame | ⟨act', queue, rfl, hwork⟩
    · rw [hsame] at hleased
      exact (hpaced.slept name wake read hleased).trans hclock
    · rcases leased_step hwork hleased with hold | hover
      · exact (hpaced.slept name wake read hold).trans hclock
      · exact hover.trans hclock
  -- the last attempt that is stored for a path does not go back
  have hlast : ∀ path last, (system.queue.paths path).lastAttemptAt = some last →
      (∃ later, (next.queue.paths path).lastAttemptAt = some later ∧ last ≤ later) ∨
        system.clock < last ∧ (next.queue.paths path).lastAttemptAt = some system.clock := by
    intro path last hlast
    have hmove := path_step hstep path
    generalize next.queue.paths path = state at hmove
    cases hmove with
    | same => exact .inl ⟨last, hlast, le_refl _⟩
    | cooled count reason =>
        exact .inl ⟨last, (lastAttemptAt_setCooldown _ _ _ _).trans hlast, le_refl _⟩
    | attempted hact hitems hpath =>
        by_cases hle : last ≤ system.clock
        · exact .inl ⟨system.clock, rfl, hle⟩
        · exact .inr ⟨by omega, rfl⟩
  have hkept : ∀ entry ∈ system.recorded,
      ∃ last, (next.queue.paths entry.1).lastAttemptAt = some last ∧ entry.2 ≤ last := by
    intro entry hentry
    obtain ⟨last, hstored, hle⟩ := hpaced.stored entry hentry
    rcases hlast entry.1 last hstored with ⟨later, hlater, hle'⟩ | ⟨-, hnow⟩
    · exact ⟨later, hlater, hle.trans hle'⟩
    · exact ⟨system.clock, hnow, hpaced.past entry hentry⟩
  rcases recorded_step hstep with
    hsame | ⟨name, item, rest, wake, read, rfl, hleased, hitems, hnew, hstored⟩
  · exact ⟨hsame ▸ hpaced.spaced, fun entry hentry =>
      (hpaced.past entry (hsame ▸ hentry)).trans hclock, fun entry hentry =>
      hkept entry (hsame ▸ hentry), hreading, hslept⟩
  · have hread : readOf (system.workers name) = some (item.itemKey, wake, read) := by
      simp [readOf, hleased, hitems]
    have hstill : (system.queue.paths item.itemKey).lastAttemptAt = read.lastAttemptAt := by
      simpa [ReadStands, hleased, hitems] using hstands
    have hwake := hpaced.slept name wake read hleased
    refine ⟨?_, ?_, ?_, hreading, hslept⟩
    · rw [hnew, List.pairwise_append]
      refine ⟨hpaced.spaced, List.pairwise_singleton _ _, ?_⟩
      intro entry hentry newest hnewest hpath
      rw [List.mem_singleton.mp hnewest] at hpath ⊢
      obtain ⟨last, hlastStored, hle⟩ := hpaced.stored entry hentry
      rw [hpath, hstill] at hlastStored
      have hwait := (hpaced.reading name _ wake read hread).1 last hlastStored
      rw [hpath]
      dsimp only at hwait ⊢
      omega
    · intro entry hentry
      rw [hnew] at hentry
      rcases List.mem_append.mp hentry with hentry | hentry
      · exact (hpaced.past entry hentry).trans hclock
      · rw [List.mem_singleton.mp hentry]
        exact hclock
    · intro entry hentry
      rw [hnew] at hentry
      rcases List.mem_append.mp hentry with hentry | hentry
      · exact hkept entry hentry
      · rw [List.mem_singleton.mp hentry]
        exact ⟨system.clock, hstored, le_refl _⟩

/-- A cooldown is never shortened. -/
def CooldownsKept (before after : System) : Prop :=
  ∀ path until_, (before.queue.paths path).cooldownUntil = some until_ →
    ∃ later, (after.queue.paths path).cooldownUntil = some later ∧ until_ ≤ later

theorem cooldownsKept_step {act : SystemAct} (hstep : system.step act = some next) :
    CooldownsKept system next := by
  intro path until_ hstored
  have hmove := path_step hstep path
  generalize next.queue.paths path = state at hmove
  cases hmove with
  | same => exact ⟨until_, hstored, le_refl _⟩
  | cooled count reason => exact PathState.cooldown_le_setCooldown hstored
  | attempted hact hitems hpath => exact ⟨until_, hstored, le_refl _⟩

theorem cooldownsKept_run {acts : List SystemAct} (hrun : run System.step system acts = some next) :
    CooldownsKept system next := by
  have hrefl : ∀ state : System, CooldownsKept state state :=
    fun state path until_ hstored => ⟨until_, hstored, le_refl _⟩
  have htrans : ∀ {first middle last : System}, CooldownsKept first middle →
      CooldownsKept middle last → CooldownsKept first last := by
    intro first middle last hfirst hsecond path until_ hstored
    obtain ⟨later, hlater, hle⟩ := hfirst path until_ hstored
    obtain ⟨final, hfinal, hle'⟩ := hsecond path later hlater
    exact ⟨final, hfinal, hle.trans hle'⟩
  have hkept : ∀ {state : System} {act : SystemAct} {next : System},
      state.step act = some next → CooldownsKept state next := cooldownsKept_step
  exact run_relation hrefl htrans hkept hrun

/-- Until the worker reads again, what it goes by is what it read. -/
theorem readOf_run {acts : List SystemAct} {state final : System} {seen : SendPath → PathState}
    (hread : ∀ path wake read, readOf (state.workers name) = some (path, wake, read) →
      read = seen path)
    (hacts : ∀ act ∈ acts, act ≠ .work name .readWait)
    (hrun : run System.step state acts = some final) :
    ∀ path wake read, readOf (final.workers name) = some (path, wake, read) → read = seen path := by
  induction acts generalizing state with
  | nil =>
      cases hrun
      exact hread
  | cons act rest ih =>
      obtain ⟨next, hstep, hrest⟩ := run_cons hrun
      refine ih ?_ (fun act hact => hacts act (List.mem_cons_of_mem _ hact)) hrest
      intro path wake read hnext
      rcases worker_step hstep name with hsame | ⟨act', queue, rfl, hwork⟩
      · rw [hsame] at hnext
        exact hread path wake read hnext
      · rcases readOf_step hwork with hnone | hsame | ⟨rfl, -⟩
        · rw [hnone] at hnext
          cases hnext
        · rw [hsame] at hnext
          exact hread path wake read hnext
        · exact absurd rfl (hacts _ (List.mem_cons_self ..))

/-- A cooldown that was stored when the worker read the wait is over when it records. -/
theorem Paced.free_of_cooldown {rest : List SystemAct} {middle last after : System}
    {path : SendPath} (hlast : last.Paced)
    (hrun : run System.step middle (.work name .readWait :: rest) = some last)
    (hrest : ∀ act ∈ rest, act ≠ .work name .readWait)
    (hstep : last.step (.work name .recordAttempt) = some after)
    (hrecorded : after.recorded = last.recorded ++ [(path, last.clock)]) :
    (middle.queue.paths path).inCooldown last.clock = false := by
  obtain ⟨read, hreadStep, hrunRest⟩ := run_cons hrun
  have hseen : ∀ path wake state, readOf (read.workers name) = some (path, wake, state) →
      state = middle.queue.paths path := by
    intro path wake state hread
    obtain ⟨queue, worker, hwork, rfl⟩ := step_work hreadStep
    rw [workers_worked, if_pos rfl] at hread
    cases hwork with
    | defer hact => cases hread
    | @readWait item rest wait hready hitems hwait =>
        simp only [readOf, hitems, Option.some.injEq, Prod.mk.injEq] at hread
        obtain ⟨rfl, -, rfl⟩ := hread
        rfl
  rcases recorded_step hstep with
    hsame | ⟨name', item, tail, wake, state, hact, hleased, hitems, hnew, -⟩
  · rw [hsame] at hrecorded
    simpa using congrArg List.length hrecorded
  · cases hact
    rw [hnew] at hrecorded
    obtain rfl : item.itemKey = path := by simpa using List.append_cancel_left hrecorded
    have hread : readOf (last.workers name) = some (item.itemKey, wake, state) := by
      simp [readOf, hleased, hitems]
    rw [← readOf_run hseen hrest hrunRest _ _ _ hread]
    exact not_inCooldown_mono (hlast.slept name wake state hleased)
      (hlast.reading name _ wake state hread).2

/-- In every run in which no attempt on the path comes between a worker's read of the
wait and its record: recorded attempts on one path keep its distance, a cooldown never
decreases, and none is recorded against a cooldown stored before the wait was read. -/
theorem pacing_and_cooldown_hold {clock : Int} {queue : Queue} {first second : List SystemAct}
    {middle last : System}
    (hok : RunOk System.step ReadStands (start clock queue) (first ++ second))
    (hfirst : run System.step (start clock queue) first = some middle)
    (hsecond : run System.step middle second = some last) :
    last.recorded.Pairwise Spaced ∧
      (∀ path until_, (middle.queue.paths path).cooldownUntil = some until_ →
        ∃ later, (last.queue.paths path).cooldownUntil = some later ∧ until_ ≤ later) ∧
      ∀ name rest after path, second = .work name .readWait :: rest →
        (∀ act ∈ rest, act ≠ .work name .readWait) →
        last.step (.work name .recordAttempt) = some after →
        after.recorded = last.recorded ++ [(path, last.clock)] →
        (middle.queue.paths path).inCooldown last.clock = false := by
  have hwhole : run System.step (start clock queue) (first ++ second) = some last := by
    rw [run_append, hfirst]
    exact hsecond
  have hlast : last.Paced :=
    run_invariant_of (fun hpaced hstands hstep => hpaced.step hstands hstep) hok
      (.of_start clock queue) hwhole
  refine ⟨hlast.spaced, cooldownsKept_run hsecond, ?_⟩
  rintro name rest after path rfl hrest hstep hrecorded
  exact hlast.free_of_cooldown hsecond hrest hstep hrecorded

/-- A worker sends two mails, the second after the interval of its path. -/
theorem pacing_and_cooldown_hold_two_mails :
    ∃ middle last after : System, after.recorded = last.recorded ++ [(.email, last.clock)] ∧
      last.recorded = [(.email, 0)] ∧ last.recorded.Pairwise Spaced ∧
      (middle.queue.paths .email).inCooldown last.clock = false := by
  let first : List SystemAct :=
    [.enqueue 0 openMessage, .enqueue 0 { openMessage with recipientId := some 2 },
      .work 0 .claim, .work 0 .readWait, .work 0 .renew, .work 0 .recordAttempt,
      .work 0 (.answer ⟨.sent, [], none, false, none⟩), .work 0 .coolDown, .work 0 (.write 0)]
  let rest : List SystemAct := [.tick 2500000, .work 0 .renew]
  let second : List SystemAct := .work 0 .readWait :: rest
  have hany : (run System.step (start 0 Queue.empty) first).any (fun middle =>
      (run System.step middle second).any fun last =>
        (last.step (.work 0 .recordAttempt)).any fun after =>
          decide (after.recorded = last.recorded ++ [(.email, last.clock)] ∧
            last.recorded = [(.email, 0)])) = true := by
    decide +kernel
  obtain ⟨middle, hfirst, hmiddle⟩ := (Option.any_eq_true ..).mp hany
  obtain ⟨last, hsecond, hlast⟩ := (Option.any_eq_true ..).mp hmiddle
  obtain ⟨after, hstep, hafter⟩ := (Option.any_eq_true ..).mp hlast
  obtain ⟨hrecorded, hold⟩ := of_decide_eq_true hafter
  have hok : RunOk System.step ReadStands (start 0 Queue.empty) (first ++ second) := by
    decide +kernel
  obtain ⟨hspaced, -, hfree⟩ := pacing_and_cooldown_hold hok hfirst hsecond
  have hrest : ∀ act ∈ rest, act ≠ .work 0 .readWait := by simp [rest]
  exact ⟨middle, last, after, hrecorded, hold, hspaced,
    hfree 0 rest after .email rfl hrest hstep hrecorded⟩

/-- Two workers read the wait of one path before either records its attempt. -/
theorem two_workers_read_one_wait :
    ¬ ∀ (acts : List SystemAct) (final : System),
      run System.step (start 0 Queue.empty) acts = some final →
      final.recorded.Pairwise Spaced := by
  intro hclaim
  let acts : List SystemAct :=
    [.enqueue 0 openMessage, .work 0 .claim,
      .enqueue 0 { openMessage with recipientId := some 2 }, .work 1 .claim,
      .work 0 .readWait, .work 1 .readWait, .work 0 .renew, .work 0 .recordAttempt,
      .work 1 .renew, .work 1 .recordAttempt]
  have hany : (run System.step (start 0 Queue.empty) acts).any (fun final =>
      decide (final.recorded = [(.email, 0), (.email, 0)])) = true := by
    decide +kernel
  obtain ⟨final, hrun, hfinal⟩ := (Option.any_eq_true ..).mp hany
  have hspaced := hclaim acts final hrun
  rw [of_decide_eq_true hfinal] at hspaced
  have hpair := (List.pairwise_cons.mp hspaced).1 _ (List.mem_singleton_self _) rfl
  exact absurd hpair (by decide)

end System

end Justup.Spool
