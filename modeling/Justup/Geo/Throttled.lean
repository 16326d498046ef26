import Justup.Geo.Breaker

/-!
# No lookup acts on a lock it did not see

A lookup may send its request after another one recorded a lock, and its
outcome may replace a lock that was recorded while the request was on its way:
this is the defect.  Where neither happens, a throttled provider is left alone.
-/

namespace Justup.Geo

open Lib.Transition

variable {Payload Info : Type} {env : Env Payload Info}

/-! ## The law -/

/-- The lock of an HTTP 429: its account and its end. -/
def Event.lock? : Event → Option (Account × Int)
  | .recorded _ account true _ (some lock) => some (account, lock.1)
  | _ => none

def Event.outcomeOf (account : Account) : Event → Bool
  | .recorded _ other _ _ _ => decide (other = account)
  | .requested .. => false

/-- The later event does not disregard the lock of the earlier one. -/
def Event.Spares (first second : Event) : Prop :=
  ∀ account ends id time, first.lock? = some (account, ends) →
    second = .requested id account time → ends ≤ time

/-- A lock is neither cleared nor shortened. -/
def KeptBy (old new : Option Lock) : Prop :=
  ∀ lock, old = some lock → ∃ lock', new = some lock' ∧ lock.1 ≤ lock'.1

/-- An outcome keeps what was recorded while its request was on its way. -/
def Kept (history : List Event) : Prop :=
  ∀ before id account time between throttled old new after,
    history = before ++ .requested id account time :: between ++
      .recorded id account throttled old new :: after →
    (∃ event ∈ between, event.outcomeOf account = true) → KeptBy old new

structure State.LeavesAlone (s : State Payload Info) : Prop where
  alone : s.history.Pairwise Event.Spares
  kept : Kept s.history
  single : ∀ id other lookup lookup' since since',
    s.lookups id = some lookup → lookup.phase = .requesting since →
    s.lookups other = some lookup' → lookup'.phase = .requesting since' →
    lookup.key = lookup'.key → id = other
  served : ∀ id lookup leader result lookup' final,
    s.lookups id = some lookup → lookup.phase = .woken leader result →
    s.lookups leader = some lookup' → lookup'.phase = .finished final →
    result = none ∨ result = final
  removed : ∀ key id, s.inflight key = some id → s.Owns id key

/-! ## The condition -/

/-- No lock of an HTTP 429 recorded since then is running. -/
def State.Unlocked (s : State Payload Info) (account : Account) (seen : Nat) : Prop :=
  ∀ event ∈ s.history.drop seen, ∀ lock ∈ event.lock?, lock.1 = account → lock.2 ≤ s.clock

/-- The outcome of a lookup that started at `now` does not fall behind the lock. -/
def Reply.Reaches (now : Int) (lock : Lock) : Reply Payload → Prop
  | .throttled retryAfter => lock.1 ≤ now + lockPeriod retryAfter
  | .failed => ∀ delay ∈ backoff (lock.2 + 1), lock.1 ≤ now + delay
  | .payload _ => False
  | .raised => True

/-- What was recorded since then is not set back by the outcome. -/
def State.Heeds (s : State Payload Info) (account : Account) (since : Nat) (now : Int)
    (reply : Reply Payload) : Prop :=
  (∃ event ∈ s.history.drop since, event.outcomeOf account = true) →
    ∀ lock ∈ s.breaker account, reply.Reaches now lock

/-- A lookup acts on a lock that was recorded after its check, and a waiter takes the entry of
its own leader. -/
def Orderly (s : State Payload Info) : Action Payload → Prop
  | .request id =>
      match s.lookups id with
      | some ⟨key, _, .cleared seen⟩ => s.Unlocked key.account seen
      | _ => True
  | .record id =>
      match s.lookups id with
      | some ⟨key, now, .replied since reply⟩ => s.Heeds key.account since now reply
      | _ => True
  | .wake id =>
      match s.lookups id with
      | some ⟨key, _, .waiting leader _⟩ => ∀ entry ∈ s.cached key, entry.filler = leader
      | _ => True
  | _ => True

instance (s : State Payload Info) (account : Account) (seen : Nat) :
    Decidable (s.Unlocked account seen) :=
  inferInstanceAs (Decidable (∀ event ∈ s.history.drop seen, _))

instance (now : Int) (lock : Lock) (reply : Reply Payload) :
    Decidable (reply.Reaches now lock) :=
  match reply with
  | .throttled _ => inferInstanceAs (Decidable (_ ≤ _))
  | .failed => inferInstanceAs (Decidable (∀ delay ∈ backoff (lock.2 + 1), _))
  | .payload _ => inferInstanceAs (Decidable False)
  | .raised => inferInstanceAs (Decidable True)

instance (s : State Payload Info) (account : Account) (since : Nat) (now : Int)
    (reply : Reply Payload) : Decidable (s.Heeds account since now reply) :=
  inferInstanceAs (Decidable ((∃ event ∈ s.history.drop since, _) → _))

instance (s : State Payload Info) (act : Action Payload) : Decidable (Orderly s act) := by
  unfold Orderly
  split <;> first | infer_instance | (split <;> infer_instance)

/-! ## The run -/

/-- What is known of the locks besides the law. -/
structure State.Respected (s : State Payload Info) : Prop where
  alone : s.history.Pairwise Event.Spares
  kept : Kept s.history
  cleared : ∀ id lookup seen, s.lookups id = some lookup → lookup.phase = .cleared seen →
    seen ≤ s.history.length ∧ ∀ event ∈ s.history.take seen, ∀ ends,
      event.lock? = some (lookup.key.account, ends) → ends ≤ s.clock
  locks : ∀ event ∈ s.history, ∀ account ends, event.lock? = some (account, ends) →
    ends ≤ s.clock ∨ ∃ lock, s.breaker account = some lock ∧ ends ≤ lock.1
  woken : ∀ id lookup leader result, s.lookups id = some lookup →
    lookup.phase = .woken leader result →
    result = none ∨ ∃ lookup', s.lookups leader = some lookup' ∧
      lookup'.phase.result = some result

theorem respected_initial (clock : Int) :
    (State.initial clock : State Payload Info).Respected where
  alone := List.Pairwise.nil
  kept := by simp [Kept, State.initial]
  cleared := by simp [State.initial]
  locks := by simp [State.initial]
  woken := by simp [State.initial]

/-- The outcome that is recorded keeps the lock that it reaches. -/
theorem keptBy_recordOutcome {old new : Option Lock} {now : Int} {reply : Reply Payload}
    (hreaches : ∀ lock ∈ old, reply.Reaches now lock)
    (hnew : recordOutcome old now reply = some new) : KeptBy old new := by
  rintro lock rfl
  have hlock := hreaches lock rfl
  cases reply with
  | throttled retryAfter =>
      cases hnew
      exact ⟨_, rfl, hlock⟩
  | failed =>
      obtain ⟨delay, hdelay, rfl⟩ := Option.map_eq_some_iff.mp hnew
      exact ⟨_, rfl, hlock delay hdelay⟩
  | payload data => exact hlock.elim
  | raised => cases hnew

/-- One event more keeps the law when its own request is followed by what it keeps. -/
theorem Kept.snoc {history : List Event} (hkept : Kept history) {event : Event}
    (hevent : ∀ before id account time between throttled old new,
      history = before ++ .requested id account time :: between →
      event = .recorded id account throttled old new →
      (∃ event ∈ between, event.outcomeOf account = true) → KeptBy old new) :
    Kept (history ++ [event]) := by
  intro before id account time between throttled old new after heq hbetween
  obtain rfl | ⟨after', last, rfl⟩ := List.eq_nil_or_concat after
  · obtain ⟨hhistory, hlast⟩ := List.append_inj' heq rfl
    exact hevent _ _ _ _ _ _ _ _ hhistory (List.singleton_inj.mp hlast) hbetween
  · rw [List.concat_eq_append, ← List.cons_append, ← List.append_assoc] at heq
    exact hkept _ _ _ _ _ _ _ _ _ (List.append_inj' heq rfl).1 hbetween

/-- A request is sent once, so the history divides at it in one way. -/
theorem divides_once {history before before' after after' : List Event} {id : Nat}
    {first second : Event}
    (honce : history.Pairwise fun first second =>
      ∀ id, first.requests id = true → second.requests id = false)
    (hfirst : first.requests id = true) (hsecond : second.requests id = true)
    (heq : history = before ++ first :: after) (heq' : history = before' ++ second :: after') :
    before = before' ∧ after = after' := by
  subst heq
  obtain ⟨-, hafter, hbefore⟩ := List.pairwise_append.mp honce
  have hnotBefore : second ∉ before := by
    intro hmem
    have hlater := hbefore second hmem first (by simp) id hsecond
    simp [hfirst] at hlater
  have hnotAfter : second ∉ after := by
    intro hmem
    have hlater := (List.pairwise_cons.mp hafter).1 second hmem id hfirst
    simp [hsecond] at hlater
  obtain ⟨hsame, -, hrest⟩ := (List.append_cons_inj_of_notMem hnotBefore hnotAfter).mp heq'
  exact ⟨hsame, hrest⟩

theorem lock?_recorded {id : Nat} {account account' : Account} {throttled : Bool}
    {old new : Option Lock} {ends : Int}
    (hlock : (Event.recorded id account throttled old new).lock? = some (account', ends)) :
    account = account' ∧ ∃ lock, new = some lock ∧ ends = lock.1 := by
  cases throttled with
  | false => cases hlock
  | true =>
      cases new with
      | none => cases hlock
      | some lock =>
          cases hlock
          exact ⟨rfl, lock, rfl, rfl⟩

theorem outcomeOf_of_lock? {event : Event} {account : Account} {ends : Int}
    (hlock : event.lock? = some (account, ends)) : event.outcomeOf account = true := by
  cases event with
  | requested => cases hlock
  | recorded => exact decide_eq_true (lock?_recorded hlock).1

/-- A lock that still runs was recorded while the request was on its way. -/
theorem State.Sound.recorded_meanwhile {s : State Payload Info} (hsound : s.Sound)
    (hrespected : s.Respected) {id since : Nat} {key : Key} {now : Int} {reply : Reply Payload}
    (hat : s.lookups id = some ⟨key, now, .replied since reply⟩) {event : Event}
    (hevent : event ∈ s.history) {ends : Int}
    (hlock : event.lock? = some (key.account, ends)) (hrunning : ¬ ends ≤ s.clock) :
    ∃ event ∈ s.history.drop since, event.outcomeOf key.account = true := by
  obtain ⟨before, time, after, rfl, heq⟩ := hsound.since id _ since hat rfl
  refine ⟨event, ?_, outcomeOf_of_lock? hlock⟩
  rw [heq, List.append_cons, List.drop_left' (by simp)]
  have hmem : event ∈ before ∨ event ∈ .requested id key.account time :: after :=
    List.mem_append.mp (heq ▸ hevent)
  obtain hbefore | hafter := hmem
  · -- the request was sent after the end of such a lock
    have halone := hrespected.alone
    rw [heq] at halone
    have hended : ends ≤ time := (List.pairwise_append.mp halone).2.2 event hbefore _
      List.mem_cons_self key.account ends id time hlock rfl
    have htime := (hsound.asked id key.account time (by simp [heq])).1
    exact absurd (hended.trans htime) hrunning
  · obtain rfl | hafter := List.mem_cons.mp hafter
    · cases hlock
    · exact hafter

namespace Stepped

variable {s next : State Payload Info} {act : Action Payload}

theorem alone (hstep : Stepped env s act next) (hrespected : s.Respected)
    (hok : Orderly s act) : next.history.Pairwise Event.Spares := by
  cases hstep with
  | @request id key now seen hat =>
      refine List.pairwise_append.mpr ⟨hrespected.alone, List.pairwise_singleton _ _, ?_⟩
      intro first hfirst second hsecond account ends id' time hlock heq
      rw [List.mem_singleton.mp hsecond] at heq
      cases heq
      -- the check has ruled out the locks before it, the condition those after it
      rw [← List.take_append_drop seen s.history] at hfirst
      obtain hbefore | hafter := List.mem_append.mp hfirst
      · exact (hrespected.cleared id _ seen hat rfl).2 first hbefore ends hlock
      · simp only [Orderly, hat] at hok
        exact hok first hafter _ hlock rfl
  | record hat hnew =>
      refine List.pairwise_append.mpr ⟨hrespected.alone, List.pairwise_singleton _ _, ?_⟩
      intro first hfirst second hsecond account ends id' time hlock heq
      rw [List.mem_singleton.mp hsecond] at heq
      cases heq
  | _ => exact hrespected.alone

/-- An outcome that meets the condition keeps what was recorded since its request. -/
theorem keeps {id since : Nat} {key : Key} {now : Int} {reply : Reply Payload}
    {new : Option Lock} (hok : Orderly s (.record id))
    (hat : s.lookups id = some ⟨key, now, .replied since reply⟩)
    (hnew : recordOutcome (s.breaker key.account) now reply = some new)
    (hrecorded : ∃ event ∈ s.history.drop since, event.outcomeOf key.account = true) :
    KeptBy (s.breaker key.account) new := by
  simp only [Orderly, hat] at hok
  exact keptBy_recordOutcome (hok hrecorded) hnew

theorem kept (hstep : Stepped env s act next) (hsound : s.Sound) (hrespected : s.Respected)
    (hok : Orderly s act) : Kept next.history := by
  cases hstep with
  | request hat =>
      refine hrespected.kept.snoc ?_
      intro before id account time between throttled old new hhistory hevent
      cases hevent
  | @record id key now since reply new hat hnew =>
      refine hrespected.kept.snoc ?_
      intro before id' account time between throttled old new' hhistory hevent hbetween
      cases hevent
      obtain ⟨before', time', after, rfl, hhistory'⟩ := hsound.since id _ _ hat rfl
      have hsent : ∀ account time, (Event.requested id account time).requests id = true :=
        fun _ _ => decide_eq_true rfl
      obtain ⟨rfl, rfl⟩ : before = before' ∧ between = after :=
        divides_once hsound.once (hsent _ _) (hsent _ _) hhistory hhistory'
      refine keeps hok hat hnew ?_
      rwa [hhistory, List.append_cons, List.drop_left' (by simp)]
  | _ => exact hrespected.kept

/-- The lookups past their check: from it, or from before. -/
theorem cleared_cases (hstep : Stepped env s act next) {id seen : Nat}
    {lookup : Lookup Payload Info} (hlookup : next.lookups id = some lookup)
    (hphase : lookup.phase = .cleared seen) :
    s.lookups id = some lookup ∨
      s.lookups id = some ⟨lookup.key, lookup.now, .leading⟩ ∧ seen = s.history.length ∧
        next.history = s.history ∧
        ∀ lock, s.breaker lookup.key.account = some lock → lock.1 ≤ lookup.now := by
  cases hstep with
  | tick duration => exact .inl hlookup
  | clear hat hopen =>
      rw [State.put_lookups] at hlookup
      split at hlookup
      · rename_i hid
        subst hid
        cases hlookup
        cases hphase
        exact .inr ⟨hat, rfl, rfl, hopen⟩
      · exact .inl hlookup
  | @skip _ _ _ _ reply | @record _ _ _ _ reply =>
      rw [State.put_lookups] at hlookup
      split at hlookup
      · cases hlookup
        cases reply <;> cases hphase
      · exact .inl hlookup
  | start | hit | wait | lead | locked | request | receive | drop | fill | leave | signal | wake =>
      simp only [State.request, State.leave, State.put_lookups] at hlookup
      split at hlookup
      · cases hlookup
        cases hphase
      · exact .inl hlookup

theorem cleared (hstep : Stepped env s act next) (hsound : s.Sound) (hrespected : s.Respected) :
    ∀ id lookup seen, next.lookups id = some lookup → lookup.phase = .cleared seen →
      seen ≤ next.history.length ∧ ∀ event ∈ next.history.take seen, ∀ ends,
        event.lock? = some (lookup.key.account, ends) → ends ≤ next.clock := by
  intro id lookup seen hlookup hphase
  obtain hold | ⟨hat, rfl, heq, hopen⟩ := hstep.cleared_cases hlookup hphase
  · obtain ⟨hlength, hlocks⟩ := hrespected.cleared id lookup seen hold hphase
    obtain ⟨added, hadded⟩ := hstep.history_grows
    rw [hadded, List.take_append_of_le_length hlength, List.length_append]
    refine ⟨hlength.trans (Nat.le_add_right _ _), fun event hevent ends hlock => ?_⟩
    exact (hlocks event hevent ends hlock).trans hstep.clock_le
  · rw [heq]
    refine ⟨le_rfl, fun event hevent ends hlock => le_trans ?_ hstep.clock_le⟩
    -- a lock that still runs would have been seen
    obtain hended | ⟨lock, hbreaker, hends⟩ :=
      hrespected.locks event (List.mem_of_mem_take hevent) _ ends hlock
    · exact hended
    · exact (hends.trans (hopen lock hbreaker)).trans (hsound.started id ⟨_, _, .leading⟩ hat)

theorem locks (hstep : Stepped env s act next) (hsound : s.Sound) (hrespected : s.Respected)
    (hok : Orderly s act) :
    ∀ event ∈ next.history, ∀ account ends, event.lock? = some (account, ends) →
      ends ≤ next.clock ∨ ∃ lock, next.breaker account = some lock ∧ ends ≤ lock.1 := by
  intro event hevent account ends hlock
  have hkept : next.breaker account = s.breaker account → event ∈ s.history →
      ends ≤ next.clock ∨ ∃ lock, next.breaker account = some lock ∧ ends ≤ lock.1 := by
    intro hbreaker hold
    rw [hbreaker]
    exact (hrespected.locks event hold account ends hlock).imp_left fun h => h.trans hstep.clock_le
  cases hstep with
  | request hat =>
      obtain hold | hnew := List.mem_append.mp hevent
      · exact hkept rfl hold
      · rw [List.mem_singleton.mp hnew] at hlock
        cases hlock
  | @record id key now since reply new hat hnew =>
      by_cases haccount : account = key.account
      · subst haccount
        change _ ∨ ∃ lock, Function.update s.breaker key.account new key.account = _ ∧ _
        rw [Function.update_self]
        obtain hold | hlast := List.mem_append.mp hevent
        · refine or_iff_not_imp_left.mpr fun hrunning => ?_
          obtain hended | ⟨lock, hbreaker, hends⟩ := hrespected.locks event hold _ ends hlock
          · exact absurd hended hrunning
          · have hmeanwhile := hsound.recorded_meanwhile hrespected hat hold hlock hrunning
            obtain ⟨lock', hlock', hle⟩ := keeps hok hat hnew hmeanwhile lock hbreaker
            exact ⟨lock', hlock', hends.trans hle⟩
        · rw [List.mem_singleton.mp hlast] at hlock
          obtain ⟨-, lock, hnew', hends⟩ := lock?_recorded hlock
          exact .inr ⟨lock, hnew', hends.le⟩
      · refine hkept (Function.update_of_ne haccount _ _) ?_
        obtain hold | hlast := List.mem_append.mp hevent
        · exact hold
        · rw [List.mem_singleton.mp hlast] at hlock
          exact absurd (lock?_recorded hlock).1.symm haccount
  | _ => exact hkept rfl hevent

/-- The waiters that woke up: just now, or before. -/
theorem woken_cases (hstep : Stepped env s act next) {id leader : Nat}
    {lookup : Lookup Payload Info} {result : Option Info}
    (hlookup : next.lookups id = some lookup) (hphase : lookup.phase = .woken leader result) :
    s.lookups id = some lookup ∨ act = .wake id ∧ result = s.answer lookup.key ∧
      ∃ since, s.lookups id = some ⟨lookup.key, lookup.now, .waiting leader since⟩ := by
  cases hstep with
  | tick duration => exact .inl hlookup
  | wake hat =>
      rw [State.put_lookups] at hlookup
      split at hlookup
      · rename_i hid
        subst hid
        cases hlookup
        cases hphase
        exact .inr ⟨rfl, rfl, _, hat⟩
      · exact .inl hlookup
  | @skip _ _ _ _ reply | @record _ _ _ _ reply =>
      rw [State.put_lookups] at hlookup
      split at hlookup
      · cases hlookup
        cases reply <;> cases hphase
      · exact .inl hlookup
  | start | hit | wait | lead | locked | clear | request | receive | drop | fill | leave | signal =>
      simp only [State.request, State.leave, State.put_lookups] at hlookup
      split at hlookup
      · cases hlookup
        cases hphase
      · exact .inl hlookup

theorem woken (hstep : Stepped env s act next) (hsound : s.Sound) (hrespected : s.Respected)
    (hok : Orderly s act) :
    ∀ id lookup leader result, next.lookups id = some lookup →
      lookup.phase = .woken leader result →
      result = none ∨ ∃ lookup', next.lookups leader = some lookup' ∧
        lookup'.phase.result = some result := by
  intro id lookup leader result hlookup hphase
  have hlater : (∃ lookup', s.lookups leader = some lookup' ∧
      lookup'.phase.result = some result) → ∃ lookup', next.lookups leader = some lookup' ∧
        lookup'.phase.result = some result := by
    rintro ⟨lookup', hlookup', hresult⟩
    obtain ⟨phase, hprecedes, hnext⟩ := hstep.precedes _ _ hlookup'
    exact ⟨_, hnext, hprecedes.result _ hresult⟩
  obtain hold | ⟨rfl, rfl, since, hat⟩ := hstep.woken_cases hlookup hphase
  · exact (hrespected.woken id lookup leader result hold hphase).imp_right hlater
  · simp only [Orderly, hat] at hok
    cases hentry : s.cached lookup.key with
    | none => exact .inl (by simp [State.answer, hentry])
    | some entry =>
        obtain rfl := hok entry hentry
        obtain ⟨pair, hfind, rfl⟩ := Option.map_eq_some_iff.mp hentry
        refine .inr (hlater ?_)
        simpa [State.answer, hentry] using hsound.filled pair (List.mem_of_find?_eq_some hfind)

end Stepped

section

variable {s next : State Payload Info} {act : Action Payload}

theorem State.Respected.step (hrespected : s.Respected) (hsound : s.Sound)
    (hok : Orderly s act) (hstep : Stepped env s act next) : next.Respected where
  alone := hstep.alone hrespected hok
  kept := hstep.kept hsound hrespected hok
  cleared := hstep.cleared hsound hrespected
  locks := hstep.locks hsound hrespected hok
  woken := hstep.woken hsound hrespected hok

/-- Requests with one key are made by the owner of its marker. -/
theorem State.Sound.single (hsound : s.Sound) {id other since since' : Nat}
    {lookup lookup' : Lookup Payload Info} (hlookup : s.lookups id = some lookup)
    (hphase : lookup.phase = .requesting since) (hlookup' : s.lookups other = some lookup')
    (hphase' : lookup'.phase = .requesting since') (hkey : lookup.key = lookup'.key) :
    id = other := by
  have howner : s.inflight lookup.key = some id :=
    (hsound.marker _ _).mpr ⟨lookup, hlookup, rfl, by rw [hphase]; rfl⟩
  have howner' : s.inflight lookup.key = some other :=
    (hsound.marker _ _).mpr ⟨lookup', hlookup', hkey.symm, by rw [hphase']; rfl⟩
  exact Option.some.inj (howner.symm.trans howner')

theorem State.Respected.leavesAlone (hrespected : s.Respected) (hsound : s.Sound) :
    s.LeavesAlone where
  alone := hrespected.alone
  kept := hrespected.kept
  single := by
    intro id other lookup lookup' since since' hlookup hphase hlookup' hphase' hkey
    exact hsound.single hlookup hphase hlookup' hphase' hkey
  served := by
    intro id lookup leader result lookup' final hlookup hphase hlookup' hfinal
    refine (hrespected.woken id lookup leader result hlookup hphase).imp_right ?_
    rintro ⟨other, hother, hresult⟩
    obtain rfl : other = lookup' := Option.some.inj (hother.symm.trans hlookup')
    rw [hfinal] at hresult
    exact (Option.some.inj hresult).symm
  removed := fun key id => (hsound.marker key id).mp

end

/-! ## The claim about every run -/

/-- In a run in which no request is sent after a running lock was recorded that its check did not
see, no outcome sets back what was recorded while its request was on its way, and no waiter finds
the entry of another leader, the provider is left alone. -/
theorem throttled_provider_is_left_alone (env : Env Payload Info) (clock : Int)
    (acts : List (Action Payload)) {last : State Payload Info}
    (hok : RunOk (step env) Orderly (State.initial clock) acts)
    (hrun : run (step env) (State.initial clock) acts = some last) : last.LeavesAlone := by
  have hkeeps : ∀ {s act next}, s.Sound ∧ s.Respected → Orderly s act →
      step env s act = some next → next.Sound ∧ next.Respected := by
    rintro s act next ⟨hsound, hrespected⟩ horderly hnext
    have hstep := stepped_of_step hnext
    exact ⟨hsound.step hstep, hrespected.step hsound horderly hstep⟩
  obtain ⟨hsound, hrespected⟩ : last.Sound ∧ last.Respected :=
    @run_invariant_of _ _ _ (fun s => s.Sound ∧ s.Respected) _ hkeeps _ _ _ hok
      ⟨sound_initial clock, respected_initial clock⟩ hrun
  exact hrespected.leavesAlone hsound

def plainEnv : Env Nat Nat := ⟨id, fun _ _ data => some (some data)⟩

/-- A lookup of the address up to its request. -/
def ask (id : Nat) (ip : String) : List (Action Nat) :=
  [.start id .ipwho ip "" 86400, .consult id, .check id, .request id]

/-- The first lookup is throttled, and the second waits for it; the third, after the lock, gets an
answer. -/
def patientRun : List (Action Nat) :=
  ask 0 "8.8.8.8" ++ [.start 1 .ipwho "8.8.8.8" "" 86400, .consult 1,
    .receive 0 (.throttled (some 30000000)), .record 0, .leave 0, .signal 0, .wake 1,
    .tick 31000000] ++ ask 2 "9.9.9.9" ++ [.receive 2 (.payload 7), .record 2, .fill 2, .leave 2,
    .signal 2]

theorem throttled_provider_is_left_alone_patientRun :
    ∃ last, run (step plainEnv) (State.initial 5) patientRun = some last ∧
      last.history.length = 4 ∧ last.LeavesAlone := by
  have hany : (run (step plainEnv) (State.initial 5) patientRun).any
      (fun last => decide (last.history.length = 4)) = true := by decide +kernel
  obtain ⟨last, hrun, hlength⟩ := (Option.any_eq_true ..).mp hany
  have hok : RunOk (step plainEnv) Orderly (State.initial 5) patientRun := by decide +kernel
  exact ⟨last, hrun, of_decide_eq_true hlength,
    throttled_provider_is_left_alone plainEnv 5 patientRun hok hrun⟩

/-- Two requests overlap; the success of the second clears the lock of the first, and a third
request is sent at once. -/
def impatientRun : List (Action Nat) :=
  ask 0 "8.8.8.8" ++ ask 1 "9.9.9.9" ++ [.receive 0 (.throttled none), .record 0,
    .receive 1 (.payload 7), .record 1] ++ ask 2 "1.1.1.1"

theorem throttled_provider_is_not_left_alone :
    ∃ last, run (step plainEnv) (State.initial 0) impatientRun = some last ∧
      ¬ last.LeavesAlone := by
  have hany : (run (step plainEnv) (State.initial 0) impatientRun).any (fun last =>
      decide (last.history =
        [.requested 0 ⟨.ipwho, ""⟩ 0, .requested 1 ⟨.ipwho, ""⟩ 0,
          .recorded 0 ⟨.ipwho, ""⟩ true none (some (60000000, 0)),
          .recorded 1 ⟨.ipwho, ""⟩ false (some (60000000, 0)) none,
          .requested 2 ⟨.ipwho, ""⟩ 0])) = true := by decide +kernel
  obtain ⟨last, hrun, hhistory⟩ := (Option.any_eq_true ..).mp hany
  refine ⟨last, hrun, fun hleaves => ?_⟩
  have halone := hleaves.alone
  rw [of_decide_eq_true hhistory] at halone
  -- the lock of the first lookup, and the request of the third
  have hspares := List.pairwise_iff_getElem.mp halone 2 4 (by decide) (by decide) (by decide)
  have hended : (60000000 : Int) ≤ 0 := hspares _ _ _ _ rfl rfl
  exact absurd hended (by decide)


end Justup.Geo
