import Justup.Lib.Transition
import Justup.Spool.Claim

/-!
# How queued messages end

Every operation of the spooler may be called by anybody at any time.  The
ledger carries beside the queue what each row was charged with: its limited
failures and the recoveries from a crash.
-/

namespace Justup.Spool

open Lib Lib.Table Lib.Transition

inductive QueueAct where
  | enqueue (jitter : Int) (message : Queue.Message)
  | ensureTable
  | getPendingItems (limit : Nat)
  | markProcessing (id : Nat)
  | markSent (id : Nat)
  | renewLease (id : Nat) (held : Int)
  | release (id : Nat)
  | markRetry (jitter : Int) (id : Nat) (retry : Queue.Retry)
  | markFailedPermanent (id : Nat) (error : Store.Text)
  | failUnparsable (id : Nat) (error : Store.Text)
  | recordAttempt (path : SendPath)
  | setCooldown (path : SendPath) (count : Nat) (reason : Store.Text)

namespace QueueAct

def perform (now : Int) (queue : Queue) : QueueAct → Queue
  | .enqueue jitter message =>
      match queue.enqueue now jitter message with
      | .ok (_, queue) => queue
      | .error _ => queue
  | .ensureTable => queue.finalizeRetriedTests now
  | .getPendingItems limit => (queue.getPendingItems now limit).2
  | .markProcessing id => queue.markProcessing now id
  | .markSent id => queue.markSent now id
  | .renewLease id held => (queue.renewLease now id held).2
  | .release id => (queue.release now id).2
  | .markRetry jitter id retry => (queue.markRetry now jitter id retry).2
  | .markFailedPermanent id error => queue.markFailedPermanent now id error
  | .failUnparsable id error => queue.failUnparsable now id error
  | .recordAttempt path => queue.recordAttempt now path
  | .setCooldown path count reason => queue.setCooldown now path count reason

/-- The rows that an operation charges with a limited failure or a crash. -/
def charged (now : Int) (queue : Queue) : QueueAct → List Nat
  | .markRetry _ id retry =>
      if retry.transient = false ∧ (queue.row? id).any Row.isOpen then [id] else []
  | .getPendingItems limit => queue.stuckIds now limit
  | _ => []

end QueueAct

structure Ledger where
  queue : Queue
  charges : List Nat

def Ledger.empty : Ledger := ⟨Queue.empty, []⟩

/-- One call, with the clock it reads. -/
def Ledger.step (ledger : Ledger) (call : Int × QueueAct) : Option Ledger :=
  some ⟨call.2.perform call.1 ledger.queue,
    ledger.charges ++ call.2.charged call.1 ledger.queue⟩

def eventCount (deliveries : List Delivery) (id : Nat) (sent : Bool) : Nat :=
  deliveries.countP fun event => event.queueId = id ∧ event.sent = sent

/-- The events of the inbox about the end of a row. -/
def Queue.events (queue : Queue) (id : Nat) (sent : Bool) : Nat :=
  eventCount queue.deliveries id sent

/-- The call writes no status over a message that was sent, takes none that has
ended back to processing, and finds no test message to close without an event. -/
def QueueAct.Guarded (ledger : Ledger) (call : Int × QueueAct) : Prop :=
  match call.2 with
  | .markProcessing id => (ledger.queue.row? id).all Row.isOpen = true
  | .failUnparsable id _ => (ledger.queue.row? id).all (fun row => row.status ≠ .sent) = true
  | .ensureTable | .getPendingItems _ =>
      ledger.queue.rows.all (fun row => !row.isRetriedTest) = true
  | _ => True

instance (ledger : Ledger) (call : Int × QueueAct) : Decidable (QueueAct.Guarded ledger call) := by
  unfold QueueAct.Guarded
  split <;> infer_instance

/-! ## The events of the inbox -/

theorem eventCount_deliver (sent sent' : Bool) (deliveries : List Delivery) (row : Row)
    (id : Nat) :
    eventCount (Queue.deliver sent deliveries row) id sent' = eventCount deliveries id sent' +
      if row.id = id ∧ sent = sent' ∧ (sent = true ∨ eventCount deliveries row.id false = 0)
      then 1 else 0 := by
  have hany : deliveries.any (fun old => old.queueId = row.id ∧ old.sent = false) = true ↔
      eventCount deliveries row.id false ≠ 0 := by
    rw [eventCount, ← Nat.pos_iff_ne_zero, List.countP_pos_iff, List.any_eq_true]
  by_cases hold : sent = false ∧
      deliveries.any (fun old => old.queueId = row.id ∧ old.sent = false) = true
  · have hcount := hany.mp hold.2
    have hkept : Queue.deliver sent deliveries row = deliveries := if_pos hold
    rw [hkept]
    simp [hold.1, hcount]
  · have hnew : sent = true ∨ eventCount deliveries row.id false = 0 := by
      cases sent with
      | true => exact .inl rfl
      | false =>
          refine .inr (Classical.byContradiction fun hcount => hold ⟨rfl, hany.mpr hcount⟩)
    simp only [Queue.deliver, hold, if_false, hnew, and_true]
    rw [eventCount, List.countP_append, List.countP_singleton]
    simp [eventCount]

/-- The failures of rows with different ids are reported once each. -/
theorem eventCount_foldl_deliver (rows : List Row) (hkeyed : Keyed Row.id rows)
    (deliveries : List Delivery) (id : Nat) (sent : Bool) :
    eventCount (rows.foldl (Queue.deliver false) deliveries) id sent =
      eventCount deliveries id sent +
        if sent = false ∧ id ∈ rows.map Row.id ∧ eventCount deliveries id false = 0
        then 1 else 0 := by
  induction rows generalizing deliveries with
  | nil => simp
  | cons row rest ih =>
      obtain ⟨hnew, hrest⟩ := List.nodup_cons.mp hkeyed
      rw [List.foldl_cons, ih hrest, eventCount_deliver, eventCount_deliver]
      by_cases hid : row.id = id
      · subst hid
        cases sent <;> simp [hnew]
      · have hid' : id ≠ row.id := fun heq => hid heq.symm
        simp [hid, hid', List.mem_cons]

theorem Queue.row?_change {queue : Queue} {f : Row → Row} (hf : ∀ row, (f row).id = row.id)
    (id : Nat) : (queue.change id f).row? id = (queue.row? id).map f := by
  have hrow := row?_update hf id id queue.rows
  rwa [if_pos rfl] at hrow

theorem Queue.events_recordDelivery {queue : Queue} {id : Nat} {row : Row}
    (hrow : queue.row? id = some row) (sent : Bool) (id' : Nat) (sent' : Bool) :
    (queue.recordDelivery id sent).events id' sent' = queue.events id' sent' +
      if id = id' ∧ sent = sent' ∧ (sent = true ∨ queue.events id false = 0) then 1 else 0 := by
  obtain ⟨-, hid⟩ := mem_of_row? hrow
  simp only [Queue.events, Queue.recordDelivery, hrow, eventCount_deliver, hid]
  exact congrArg _ (if_congr Iff.rfl rfl rfl)

/-! ## The invariant -/

/-- The events of a row and its counters agree with its status. -/
structure Ledger.Settled (ledger : Ledger) (row : Row) : Prop where
  sent : ledger.queue.events row.id true = if row.status = .sent then 1 else 0
  failed : ledger.queue.events row.id false = if row.status = .failed then 1 else 0
  limited : row.limitedAttempts ≤ row.retryCount
  charged : row.limitedAttempts = ledger.charges.count row.id
  spent : maxRetries < row.limitedAttempts → row.status = .failed

structure Ledger.Fated (ledger : Ledger) : Prop where
  keyed : Keyed Row.id ledger.queue.rows
  fresh : ∀ row ∈ ledger.queue.rows, row.id < ledger.queue.nextId
  unborn : ∀ id, ledger.queue.nextId ≤ id →
    (∀ sent, ledger.queue.events id sent = 0) ∧ ledger.charges.count id = 0
  settled : ∀ row ∈ ledger.queue.rows, ledger.Settled row

/-- A message that has ended is not taken up again, nor ended in the other way. -/
def Ledger.KeepsEnded (before after : Ledger) : Prop :=
  ∀ row ∈ before.queue.rows, row.isFinal = true →
    ∃ later ∈ after.queue.rows, later.id = row.id ∧ later.status = row.status

theorem Ledger.KeepsEnded.refl (ledger : Ledger) : ledger.KeepsEnded ledger :=
  fun row hrow _ => ⟨row, hrow, rfl, rfl⟩

theorem Ledger.KeepsEnded.trans {first middle last : Ledger} (hfirst : first.KeepsEnded middle)
    (hsecond : middle.KeepsEnded last) : first.KeepsEnded last := by
  intro row hrow hfinal
  obtain ⟨mid, hmid, hid, hstatus⟩ := hfirst row hrow hfinal
  have hfinalMid : mid.isFinal = true := by
    rw [Row.isFinal, hstatus]
    exact hfinal
  obtain ⟨later, hlater, hid', hstatus'⟩ := hsecond mid hmid hfinalMid
  exact ⟨later, hlater, hid'.trans hid, hstatus'.trans hstatus⟩

theorem Ledger.empty_fated : Ledger.empty.Fated where
  keyed := keyed_nil
  fresh := by simp [Ledger.empty, Queue.empty]
  unborn id _ := ⟨fun sent => rfl, rfl⟩
  settled := by simp [Ledger.empty, Queue.empty]

theorem Row.isOpen_iff_not_isFinal (row : Row) : row.isOpen = true ↔ ¬ row.isFinal = true := by
  cases hstatus : row.status <;> simp [Row.isOpen, Row.isFinal, hstatus]

/-- The budget of a message that has not ended is not spent. -/
theorem Ledger.Settled.limited_le {ledger : Ledger} {row : Row} (hsettled : ledger.Settled row)
    (hopen : row.isOpen = true) : row.limitedAttempts ≤ maxRetries := by
  by_contra hspent
  have hfailed := hsettled.spent (by omega)
  simp [Row.isOpen, hfailed] at hopen

/-- A message that has not ended has no event. -/
theorem Ledger.Settled.no_event {ledger : Ledger} {row : Row} (hsettled : ledger.Settled row)
    (hopen : row.isOpen = true) (sent : Bool) : ledger.queue.events row.id sent = 0 := by
  have hnotSent : row.status ≠ .sent := fun h => by simp [Row.isOpen, h] at hopen
  have hnotFailed : row.status ≠ .failed := fun h => by simp [Row.isOpen, h] at hopen
  cases sent with
  | true => simpa [hnotSent] using hsettled.sent
  | false => simpa [hnotFailed] using hsettled.failed

/-- An open row fails, with its first event. -/
theorem Ledger.Settled.ends {ledger later : Ledger} {row next : Row}
    (hsettled : ledger.Settled row) (hopen : row.isOpen = true) (hid : next.id = row.id)
    (hfailed : next.status = .failed)
    (hevents : ∀ sent, later.queue.events row.id sent =
      ledger.queue.events row.id sent + if sent then 0 else 1)
    (hlimited : next.limitedAttempts ≤ next.retryCount)
    (hcharged : next.limitedAttempts = later.charges.count row.id) : later.Settled next := by
  have hno := hsettled.no_event hopen
  refine ⟨?_, ?_, hlimited, by rw [hid]; exact hcharged, fun _ => hfailed⟩
  · rw [hid, hevents, hno]
    simp [hfailed]
  · rw [hid, hevents, hno]
    simp [hfailed]

/-- An open row stays open, without an event. -/
theorem Ledger.Settled.goes {ledger later : Ledger} {row next : Row}
    (hsettled : ledger.Settled row) (hopen : row.isOpen = true) (hid : next.id = row.id)
    (hopen' : next.isOpen = true)
    (hevents : ∀ sent, later.queue.events row.id sent = ledger.queue.events row.id sent)
    (hlimited : next.limitedAttempts ≤ next.retryCount)
    (hcharged : next.limitedAttempts = later.charges.count row.id)
    (hleft : next.limitedAttempts ≤ maxRetries) : later.Settled next := by
  have hno := hsettled.no_event hopen
  have hnotSent : next.status ≠ .sent := fun h => by simp [Row.isOpen, h] at hopen'
  have hnotFailed : next.status ≠ .failed := fun h => by simp [Row.isOpen, h] at hopen'
  refine ⟨?_, ?_, hlimited, by rw [hid]; exact hcharged, fun hover => absurd hover (by omega)⟩
  · rw [hid, hevents, hno, if_neg hnotSent]
  · rw [hid, hevents, hno, if_neg hnotFailed]

section Steps

variable {ledger : Ledger} {queue' : Queue} {charges' : List Nat}

/-- An operation that changes rows in place, by what it makes of each. -/
theorem Ledger.Fated.map (hfated : ledger.Fated) {g : Row → Row} (hg : ∀ row, (g row).id = row.id)
    (hrows : queue'.rows = ledger.queue.rows.map g) (hnext : queue'.nextId = ledger.queue.nextId)
    (hunborn : ∀ id, ledger.queue.nextId ≤ id →
      (∀ sent, queue'.events id sent = 0) ∧ charges'.count id = 0)
    (hsettled : ∀ row ∈ ledger.queue.rows, ledger.Settled row →
      Ledger.Settled ⟨queue', charges'⟩ (g row)) :
    Ledger.Fated ⟨queue', charges'⟩ where
  keyed := by
    rw [show (Ledger.mk queue' charges').queue.rows = _ from hrows]
    exact hfated.keyed.map hg
  fresh row hrow := by
    rw [show (Ledger.mk queue' charges').queue.rows = _ from hrows] at hrow
    obtain ⟨old, hold, rfl⟩ := List.mem_map.mp hrow
    rw [hg]
    exact (hfated.fresh old hold).trans_eq hnext.symm
  unborn id hid := hunborn id (hnext ▸ hid)
  settled row hrow := by
    rw [show (Ledger.mk queue' charges').queue.rows = _ from hrows] at hrow
    obtain ⟨old, hold, rfl⟩ := List.mem_map.mp hrow
    exact hsettled old hold (hfated.settled old hold)

theorem Ledger.KeepsEnded.of_map {g : Row → Row} (hg : ∀ row, (g row).id = row.id)
    (hrows : queue'.rows = ledger.queue.rows.map g)
    (hkept : ∀ row ∈ ledger.queue.rows, row.isFinal = true → (g row).status = row.status) :
    ledger.KeepsEnded ⟨queue', charges'⟩ := by
  intro row hrow hfinal
  refine ⟨g row, ?_, hg row, hkept row hrow hfinal⟩
  rw [show (Ledger.mk queue' charges').queue.rows = _ from hrows]
  exact List.mem_map_of_mem hrow

/-- The row with an id, for the ledger. -/
theorem Ledger.Fated.settled_row (hfated : ledger.Fated) {id : Nat} {row : Row}
    (hrow : ledger.queue.row? id = some row) : row ∈ ledger.queue.rows ∧ row.id = id ∧
      ledger.Settled row ∧ id < ledger.queue.nextId := by
  obtain ⟨hmem, hid⟩ := mem_of_row? hrow
  exact ⟨hmem, hid, hfated.settled row hmem, hid ▸ hfated.fresh row hmem⟩

/-- An operation that changes one row, and what it must leave of the row. -/
theorem Ledger.Fated.change (hfated : ledger.Fated) {id : Nat} {row : Row} {f : Row → Row}
    (hrow : ledger.queue.row? id = some row) (hf : ∀ row, (f row).id = row.id)
    (hrows : queue'.rows = (ledger.queue.change id f).rows)
    (hnext : queue'.nextId = ledger.queue.nextId)
    (hevents : ∀ other, other ≠ id → ∀ sent, queue'.events other sent = ledger.queue.events other sent)
    (hcharges : ∀ other, other ≠ id → charges'.count other = ledger.charges.count other)
    (hsettled : Ledger.Settled ⟨queue', charges'⟩ (f row))
    (hkept : row.isFinal = true → (f row).status = row.status) :
    Ledger.Fated ⟨queue', charges'⟩ ∧ ledger.KeepsEnded ⟨queue', charges'⟩ := by
  obtain ⟨hmem, hid, -, hlt⟩ := hfated.settled_row hrow
  have hunique : ∀ other ∈ ledger.queue.rows, other.id = id → other = row := fun other hother h =>
    hfated.keyed.eq_of_mem hother hmem (h.trans hid.symm)
  constructor
  · refine hfated.map (key_update hf) hrows hnext ?_ ?_
    · intro other hother
      have hne : other ≠ id := by omega
      obtain ⟨hnone, hcount⟩ := hfated.unborn other hother
      exact ⟨fun sent => (hevents other hne sent).trans (hnone sent),
        (hcharges other hne).trans hcount⟩
    · intro other hother hsettledOther
      by_cases hsame : other.id = id
      · rw [if_pos hsame, hunique other hother hsame]
        exact hsettled
      · rw [if_neg hsame]
        exact ⟨(hevents _ hsame true).trans hsettledOther.sent,
          (hevents _ hsame false).trans hsettledOther.failed, hsettledOther.limited,
          hsettledOther.charged.trans (hcharges _ hsame).symm, hsettledOther.spent⟩
  · refine Ledger.KeepsEnded.of_map (key_update hf) hrows ?_
    intro other hother hfinal
    by_cases hsame : other.id = id
    · rw [if_pos hsame, hunique other hother hsame]
      rw [hunique other hother hsame] at hfinal
      exact hkept hfinal
    · rw [if_neg hsame]

/-- A message that has not ended ends, with its event. -/
theorem Ledger.Fated.finish (hfated : ledger.Fated) {id : Nat} {row : Row} {f : Row → Row}
    {sent : Bool} (hrow : ledger.queue.row? id = some row) (hopen : row.isOpen = true)
    (hf : ∀ row, (f row).id = row.id) (hstatus : (f row).status = if sent then .sent else .failed)
    (hlimited : (f row).limitedAttempts ≤ (f row).retryCount)
    (hcharged : (f row).limitedAttempts = charges'.count id)
    (hcharges : ∀ other, other ≠ id → charges'.count other = ledger.charges.count other)
    (hspent : sent = true → (f row).limitedAttempts ≤ maxRetries) :
    Ledger.Fated ⟨(ledger.queue.change id f).recordDelivery id sent, charges'⟩ ∧
      ledger.KeepsEnded ⟨(ledger.queue.change id f).recordDelivery id sent, charges'⟩ := by
  obtain ⟨-, hid, hsettled, -⟩ := hfated.settled_row hrow
  have hnone := hsettled.no_event hopen
  rw [hid] at hnone
  have hafter : (ledger.queue.change id f).row? id = some (f row) := by
    rw [Queue.row?_change hf, hrow]
    rfl
  have hrecorded := Queue.events_recordDelivery hafter sent
  have hbefore : ∀ other sent', (ledger.queue.change id f).events other sent' =
      ledger.queue.events other sent' := fun _ _ => rfl
  have hqueue : (ledger.queue.change id f).recordDelivery id sent =
      { ledger.queue.change id f with
        deliveries := Queue.deliver sent (ledger.queue.change id f).deliveries (f row) } := by
    simp [Queue.recordDelivery, hafter]
  have hfid : (f row).id = id := (hf row).trans hid
  refine hfated.change hrow hf (by rw [hqueue]) (by rw [hqueue]; rfl) ?_ hcharges ?_ ?_
  · intro other hother sent'
    rw [hrecorded, hbefore, if_neg fun h => hother h.1.symm, Nat.add_zero]
  · cases sent with
    | true =>
        have hnotFailed : (f row).status ≠ .failed := by simp [hstatus]
        refine ⟨?_, ?_, hlimited, hcharged.trans (by rw [hfid]), fun h => ?_⟩
        · rw [hfid, hrecorded, hbefore, hnone true]
          simp [hstatus]
        · rw [hfid, hrecorded, hbefore, hnone false]
          simp [hnotFailed]
        · have := hspent rfl
          omega
    | false =>
        have hfailed : (f row).status = .failed := by simp [hstatus]
        refine ⟨?_, ?_, hlimited, hcharged.trans (by rw [hfid]), fun _ => hfailed⟩
        · rw [hfid, hrecorded, hbefore, hnone true]
          simp [hfailed]
        · rw [hfid, hrecorded, hbefore, hnone false]
          simp [hfailed]
  · intro hfinal
    exact absurd hfinal ((Row.isOpen_iff_not_isFinal row).mp hopen)

/-- A message that has not ended goes on. -/
theorem Ledger.Fated.goOn (hfated : ledger.Fated) {id : Nat} {row : Row} {f : Row → Row}
    (hrow : ledger.queue.row? id = some row) (hopen : row.isOpen = true)
    (hf : ∀ row, (f row).id = row.id) (hopen' : (f row).isOpen = true)
    (hlimited : (f row).limitedAttempts ≤ (f row).retryCount)
    (hcharged : (f row).limitedAttempts = charges'.count id)
    (hcharges : ∀ other, other ≠ id → charges'.count other = ledger.charges.count other)
    (hspent : (f row).limitedAttempts ≤ maxRetries) :
    Ledger.Fated ⟨ledger.queue.change id f, charges'⟩ ∧
      ledger.KeepsEnded ⟨ledger.queue.change id f, charges'⟩ := by
  obtain ⟨-, hid, hsettled, -⟩ := hfated.settled_row hrow
  have hevents : ∀ other sent, (ledger.queue.change id f).events other sent =
      ledger.queue.events other sent := fun _ _ => rfl
  refine hfated.change hrow hf rfl rfl (fun other _ sent => hevents other sent) hcharges ?_ ?_
  · exact hsettled.goes hopen (hf row) hopen' (hevents _) hlimited (by rw [hid]; exact hcharged)
      hspent
  · intro hfinal
    exact absurd hfinal ((Row.isOpen_iff_not_isFinal row).mp hopen)

theorem Ledger.Fated.unchanged (hfated : ledger.Fated) :
    Ledger.Fated ⟨ledger.queue, ledger.charges⟩ ∧
      ledger.KeepsEnded ⟨ledger.queue, ledger.charges⟩ :=
  ⟨hfated, Ledger.KeepsEnded.refl ledger⟩

/-- An operation that leaves the rows, the events and the charges alone. -/
theorem Ledger.Fated.same (hfated : ledger.Fated) (hrows : queue'.rows = ledger.queue.rows)
    (hnext : queue'.nextId = ledger.queue.nextId)
    (hdeliveries : queue'.deliveries = ledger.queue.deliveries) :
    Ledger.Fated ⟨queue', ledger.charges⟩ ∧ ledger.KeepsEnded ⟨queue', ledger.charges⟩ := by
  have hevents : ∀ id sent, queue'.events id sent = ledger.queue.events id sent := by
    intro id sent
    simp only [Queue.events, hdeliveries]
  constructor
  · refine @Ledger.Fated.map _ _ _ hfated id (fun _ => rfl) (by simpa using hrows) hnext ?_ ?_
    · intro id hid
      exact ⟨fun sent => (hevents id sent).trans ((hfated.unborn id hid).1 sent),
        (hfated.unborn id hid).2⟩
    · intro row _ hsettled
      exact ⟨(hevents _ _).trans hsettled.sent, (hevents _ _).trans hsettled.failed,
        hsettled.limited, hsettled.charged, hsettled.spent⟩
  · exact @Ledger.KeepsEnded.of_map _ _ _ id (fun _ => rfl) (by simpa using hrows) fun _ _ _ => rfl

/-- A message that is enqueued. -/
theorem Ledger.Fated.add (hfated : ledger.Fated) {row : Row} (hid : row.id = ledger.queue.nextId)
    (hopen : row.isOpen = true) (hlimited : row.limitedAttempts = 0)
    (hrows : queue'.rows = ledger.queue.rows ++ [row])
    (hnext : queue'.nextId = ledger.queue.nextId + 1)
    (hdeliveries : queue'.deliveries = ledger.queue.deliveries) :
    Ledger.Fated ⟨queue', ledger.charges⟩ ∧ ledger.KeepsEnded ⟨queue', ledger.charges⟩ := by
  have hevents : ∀ id sent, queue'.events id sent = ledger.queue.events id sent := by
    intro id sent
    simp only [Queue.events, hdeliveries]
  obtain ⟨hnone, hcount⟩ := hfated.unborn row.id hid.ge
  have hnotSent : row.status ≠ .sent := fun h => by simp [Row.isOpen, h] at hopen
  have hnotFailed : row.status ≠ .failed := fun h => by simp [Row.isOpen, h] at hopen
  refine ⟨⟨?_, ?_, ?_, ?_⟩, ?_⟩
  · rw [show (Ledger.mk queue' ledger.charges).queue.rows = _ from hrows]
    refine hfated.keyed.snoc fun other hother => ?_
    have := hfated.fresh other hother
    omega
  · intro other hother
    rw [show (Ledger.mk queue' ledger.charges).queue.rows = _ from hrows] at hother
    have hbound : other.id < ledger.queue.nextId + 1 := by
      rcases List.mem_append.mp hother with hother | hother
      · exact (hfated.fresh other hother).trans (Nat.lt_succ_self _)
      · rw [List.mem_singleton.mp hother, hid]
        exact Nat.lt_succ_self _
    exact hbound.trans_eq hnext.symm
  · intro id hle
    have hle' : ledger.queue.nextId ≤ id := (Nat.le_succ _).trans (hnext.symm.trans_le hle)
    exact ⟨fun sent => (hevents id sent).trans ((hfated.unborn id hle').1 sent),
      (hfated.unborn id hle').2⟩
  · intro other hother
    rw [show (Ledger.mk queue' ledger.charges).queue.rows = _ from hrows] at hother
    rcases List.mem_append.mp hother with hother | hother
    · have hsettled := hfated.settled other hother
      exact ⟨(hevents _ _).trans hsettled.sent, (hevents _ _).trans hsettled.failed,
        hsettled.limited, hsettled.charged, hsettled.spent⟩
    · obtain rfl := List.mem_singleton.mp hother
      refine ⟨?_, ?_, by omega, hlimited.trans hcount.symm, by omega⟩
      · rw [if_neg hnotSent]
        exact (hevents _ _).trans (hnone true)
      · rw [if_neg hnotFailed]
        exact (hevents _ _).trans (hnone false)
  · intro other hother _
    refine ⟨other, ?_, rfl, rfl⟩
    rw [show (Ledger.mk queue' ledger.charges).queue.rows = _ from hrows]
    exact List.mem_append_left _ hother

end Steps

/-! ## The operations -/

variable {ledger : Ledger} {now : Int}

theorem fated_enqueue (hfated : ledger.Fated) (jitter : Int) (message : Queue.Message) :
    let next := (QueueAct.enqueue jitter message).perform now ledger.queue
    Ledger.Fated ⟨next, ledger.charges⟩ ∧ ledger.KeepsEnded ⟨next, ledger.charges⟩ := by
  have hsame := hfated.unchanged
  simp only [QueueAct.perform, Queue.enqueue]
  cases ledger.queue.alertDuplicate message with
  | some row => exact hsame
  | none =>
      cases ledger.queue.testDuplicate message with
      | some row => exact hsame
      | none =>
          cases Queue.isSignalTest message && ledger.queue.testLimitReached now message with
          | true => exact hsame
          | false => exact hfated.add rfl rfl rfl rfl rfl rfl

theorem fated_markProcessing (hfated : ledger.Fated) {id : Nat}
    (hguard : (ledger.queue.row? id).all Row.isOpen = true) :
    Ledger.Fated ⟨ledger.queue.markProcessing now id, ledger.charges⟩ ∧
      ledger.KeepsEnded ⟨ledger.queue.markProcessing now id, ledger.charges⟩ := by
  cases hrow : ledger.queue.row? id with
  | none =>
      exact hfated.same (update_of_row?_eq_none hrow _) rfl rfl
  | some row =>
      have hopen : row.isOpen = true := by simpa [hrow] using hguard
      obtain ⟨-, hid, hsettled, -⟩ := hfated.settled_row hrow
      exact hfated.goOn hrow hopen (fun _ => rfl) rfl hsettled.limited (hid ▸ hsettled.charged)
        (fun _ _ => rfl) (hsettled.limited_le hopen)

theorem fated_markSent (hfated : ledger.Fated) (id : Nat) :
    Ledger.Fated ⟨ledger.queue.markSent now id, ledger.charges⟩ ∧
      ledger.KeepsEnded ⟨ledger.queue.markSent now id, ledger.charges⟩ := by
  have hsame := hfated.unchanged
  simp only [Queue.markSent]
  cases hrow : ledger.queue.row? id with
  | none => exact hsame
  | some row =>
      by_cases hopen : row.isOpen = true
      · obtain ⟨-, hid, hsettled, -⟩ := hfated.settled_row hrow
        simp only [hopen, if_true]
        exact hfated.finish hrow hopen (fun _ => rfl) rfl hsettled.limited (hid ▸ hsettled.charged)
          (fun _ _ => rfl) fun _ => hsettled.limited_le hopen
      · simp only [hopen]
        exact hsame

theorem fated_renewLease (hfated : ledger.Fated) (id : Nat) (held : Int) :
    Ledger.Fated ⟨(ledger.queue.renewLease now id held).2, ledger.charges⟩ ∧
      ledger.KeepsEnded ⟨(ledger.queue.renewLease now id held).2, ledger.charges⟩ := by
  have hsame := hfated.unchanged
  simp only [Queue.renewLease]
  cases hrow : ledger.queue.row? id with
  | none => exact hsame
  | some row =>
      by_cases hheld : row.status = .processing ∧ row.updatedAt = held
      · have hopen : row.isOpen = true := by simp [Row.isOpen, hheld.1]
        obtain ⟨-, hid, hsettled, -⟩ := hfated.settled_row hrow
        simp only [hheld, and_self, if_true]
        exact hfated.goOn hrow hopen (fun _ => rfl) hopen hsettled.limited (hid ▸ hsettled.charged)
          (fun _ _ => rfl) (hsettled.limited_le hopen)
      · simp only [hheld, if_false]
        exact hsame

theorem fated_release (hfated : ledger.Fated) (id : Nat) :
    Ledger.Fated ⟨(ledger.queue.release now id).2, ledger.charges⟩ ∧
      ledger.KeepsEnded ⟨(ledger.queue.release now id).2, ledger.charges⟩ := by
  have hsame := hfated.unchanged
  simp only [Queue.release]
  cases hrow : ledger.queue.row? id with
  | none => exact hsame
  | some row =>
      by_cases hprocessing : row.status = .processing
      · have hopen : row.isOpen = true := by simp [Row.isOpen, hprocessing]
        obtain ⟨-, hid, hsettled, -⟩ := hfated.settled_row hrow
        simp only [hprocessing, if_true]
        exact hfated.goOn hrow hopen (fun _ => rfl) rfl hsettled.limited (hid ▸ hsettled.charged)
          (fun _ _ => rfl) (hsettled.limited_le hopen)
      · simp only [hprocessing, if_false]
        exact hsame

theorem fated_markFailedPermanent (hfated : ledger.Fated) (id : Nat) (error : Store.Text) :
    Ledger.Fated ⟨ledger.queue.markFailedPermanent now id error, ledger.charges⟩ ∧
      ledger.KeepsEnded ⟨ledger.queue.markFailedPermanent now id error, ledger.charges⟩ := by
  have hsame := hfated.unchanged
  simp only [Queue.markFailedPermanent]
  cases hrow : ledger.queue.row? id with
  | none => exact hsame
  | some row =>
      by_cases hopen : row.isOpen = true
      · obtain ⟨-, hid, hsettled, -⟩ := hfated.settled_row hrow
        simp only [hopen, if_true]
        exact hfated.finish hrow hopen (fun _ => rfl) rfl hsettled.limited (hid ▸ hsettled.charged)
          (fun _ _ => rfl) fun h => absurd h (by decide)
      · simp only [hopen]
        exact hsame

/-- The write for an unparsable row ends it, unless it has failed already. -/
theorem fated_failUnparsable (hfated : ledger.Fated) {id : Nat} (error : Store.Text)
    (hguard : (ledger.queue.row? id).all (fun row => row.status ≠ .sent) = true) :
    Ledger.Fated ⟨ledger.queue.failUnparsable now id error, ledger.charges⟩ ∧
      ledger.KeepsEnded ⟨ledger.queue.failUnparsable now id error, ledger.charges⟩ := by
  let f : Row → Row := fun row =>
    { row with
      status := .failed
      lastError := some ("Parse error: ".toList ++ error)
      updatedAt := now }
  have hqueue : ledger.queue.failUnparsable now id error =
      (ledger.queue.change id f).recordDelivery id false := rfl
  have hf : ∀ row, (f row).id = row.id := fun _ => rfl
  rw [hqueue]
  cases hrow : ledger.queue.row? id with
  | none =>
      have hafter : (ledger.queue.change id f).row? id = none := by
        rw [Queue.row?_change hf, hrow]
        rfl
      have hnothing : (ledger.queue.change id f).recordDelivery id false =
          ledger.queue.change id f := by
        simp [Queue.recordDelivery, hafter]
      rw [hnothing]
      exact hfated.same (update_of_row?_eq_none hrow _) rfl rfl
  | some row =>
      obtain ⟨-, hid, hsettled, -⟩ := hfated.settled_row hrow
      have hnotSent : row.status ≠ .sent := by simpa [hrow] using hguard
      by_cases hopen : row.isOpen = true
      · exact hfated.finish hrow hopen hf rfl hsettled.limited (hid ▸ hsettled.charged)
          (fun _ _ => rfl) fun h => absurd h (by decide)
      · have hfailed : row.status = .failed := by
          cases hstatus : row.status with
          | failed => rfl
          | sent => exact absurd hstatus hnotSent
          | pending => simp [Row.isOpen, hstatus] at hopen
          | processing => simp [Row.isOpen, hstatus] at hopen
        have hafter : (ledger.queue.change id f).row? id = some (f row) := by
          rw [Queue.row?_change hf, hrow]
          rfl
        have hreported : ledger.queue.events id false = 1 := by
          rw [← hid, hsettled.failed, if_pos hfailed]
        have hbefore : ∀ other sent, (ledger.queue.change id f).events other sent =
            ledger.queue.events other sent := fun _ _ => rfl
        have hevents : ∀ other sent,
            ((ledger.queue.change id f).recordDelivery id false).events other sent =
              ledger.queue.events other sent := by
          intro other sent
          rw [Queue.events_recordDelivery hafter, hbefore, hbefore, hreported]
          simp
        have hrecorded : (ledger.queue.change id f).recordDelivery id false =
            { ledger.queue.change id f with
              deliveries := Queue.deliver false (ledger.queue.change id f).deliveries (f row) } := by
          simp [Queue.recordDelivery, hafter]
        refine hfated.change hrow hf (by rw [hrecorded]) (by rw [hrecorded]; rfl)
          (fun other _ sent => hevents other sent) (fun _ _ => rfl) ?_ fun _ => hfailed.symm
        refine ⟨?_, ?_, hsettled.limited, hsettled.charged, fun _ => rfl⟩
        · exact (hevents _ _).trans (hsettled.sent.trans (by simp [hfailed, f]))
        · exact (hevents _ _).trans (hsettled.failed.trans (by simp [hfailed, f]))

theorem fated_markRetry (hfated : ledger.Fated) (jitter : Int) (id : Nat) (retry : Queue.Retry) :
    let charges := ledger.charges ++ (QueueAct.markRetry jitter id retry).charged now ledger.queue
    Ledger.Fated ⟨(ledger.queue.markRetry now jitter id retry).2, charges⟩ ∧
      ledger.KeepsEnded ⟨(ledger.queue.markRetry now jitter id retry).2, charges⟩ := by
  have hsame := hfated.unchanged
  simp only [Queue.markRetry, QueueAct.charged]
  cases hrow : ledger.queue.row? id with
  | none => simpa using hsame
  | some row =>
      by_cases hopen : row.isOpen = true
      · obtain ⟨-, hid, hsettled, -⟩ := hfated.settled_row hrow
        have hlimited : (Queue.counted retry.transient row).limitedAttempts ≤
            (Queue.counted retry.transient row).retryCount := by
          have hold := hsettled.limited
          cases htransient : retry.transient <;> simp [Queue.counted] <;> omega
        have hcharged : (Queue.counted retry.transient row).limitedAttempts =
            (ledger.charges ++ if retry.transient = false then [id] else []).count id := by
          have hold := hsettled.charged
          rw [hid] at hold
          cases htransient : retry.transient <;> simp [Queue.counted, hold]
        have hothers : ∀ other, other ≠ id →
            (ledger.charges ++ if retry.transient = false then [id] else []).count other =
              ledger.charges.count other := by
          intro other hother
          cases htransient : retry.transient <;> simp [List.count_append, hother.symm]
        simp only [hopen, if_true, Option.any_some, and_true]
        split
        · exact hfated.finish hrow hopen (fun _ => rfl) rfl hlimited hcharged hothers
            fun h => absurd h (by decide)
        · rename_i hleft
          exact hfated.goOn hrow hopen (fun _ => rfl) rfl hlimited hcharged hothers (by
            rw [not_or] at hleft
            exact not_lt.mp hleft.2)
      · simp only [hopen, Option.any_some]
        simpa using hsame

/-! ## The claim -/

theorem keyed_chosen {limit : Nat} {queue : Queue} (hkeyed : Keyed Row.id queue.rows) :
    Keyed Row.id (queue.chosen now limit) := by
  have hranked : ∀ channel : ChannelType,
      Keyed Row.id (Queue.ranked channel (queue.rows.filter (queue.isCandidate now))) := by
    intro channel
    have hsorted : Keyed Row.id (((queue.rows.filter (queue.isCandidate now)).filter fun row =>
        row.channelType = channel).insertionSort Row.before) :=
      ((List.perm_insertionSort _ _).map Row.id).nodup_iff.mpr ((hkeyed.filter _).filter _)
    exact hsorted.sublist (List.take_sublist _ _)
  have hmem : ∀ {channel : ChannelType} {row : Row},
      row ∈ Queue.ranked channel (queue.rows.filter (queue.isCandidate now)) →
        row ∈ queue.rows ∧ row.channelType = channel := by
    intro channel row hrow
    have hsorted := List.mem_of_mem_take hrow
    rw [List.mem_insertionSort, List.mem_filter, decide_eq_true_iff] at hsorted
    exact ⟨(List.mem_filter.mp hsorted.1).1, hsorted.2⟩
  have hboth : Keyed Row.id (Queue.ranked .signal (queue.rows.filter (queue.isCandidate now)) ++
      Queue.ranked .email (queue.rows.filter (queue.isCandidate now))) := by
    rw [Keyed, List.map_append, List.nodup_append]
    refine ⟨hranked .signal, hranked .email, ?_⟩
    intro first hfirst second hsecond hsame
    obtain ⟨signalRow, hsignal, rfl⟩ := List.mem_map.mp hfirst
    obtain ⟨emailRow, hemail, rfl⟩ := List.mem_map.mp hsecond
    obtain ⟨hsignalMem, hsignalChannel⟩ := hmem hsignal
    obtain ⟨hemailMem, hemailChannel⟩ := hmem hemail
    obtain rfl := hkeyed.eq_of_mem hsignalMem hemailMem hsame
    rw [hsignalChannel] at hemailChannel
    cases hemailChannel
  have hsorted : Keyed Row.id ((Queue.ranked .signal
      (queue.rows.filter (queue.isCandidate now)) ++ Queue.ranked .email
        (queue.rows.filter (queue.isCandidate now))).insertionSort Row.before) :=
    ((List.perm_insertionSort _ _).map Row.id).nodup_iff.mpr hboth
  exact hsorted.sublist (List.take_sublist _ _)

theorem nodup_stuckIds {limit : Nat} {queue : Queue} (hkeyed : Keyed Row.id queue.rows) :
    (queue.stuckIds now limit).Nodup :=
  (keyed_chosen (Queue.keyed_expiredQueue hkeyed)).filter _

/-- Without a retried test message there is nothing to close. -/
theorem finalizeRetriedTests_eq {queue : Queue}
    (hnone : queue.rows.all (fun row => !row.isRetriedTest) = true) :
    queue.finalizeRetriedTests now = queue := by
  have hrows : (queue.rows.map fun row => if row.isRetriedTest then row.closedTest now else row) =
      queue.rows := by
    conv_rhs => rw [← List.map_id queue.rows]
    refine List.map_congr_left fun row hrow => ?_
    have hnew : row.isRetriedTest = false := by simpa using List.all_eq_true.mp hnone row hrow
    simp [hnew]
  rw [Queue.finalizeRetriedTests, hrows]

/-- The failures that a claim reports: what expired, and what recovery failed. -/
theorem events_getPendingItems {queue : Queue} (hkeyed : Keyed Row.id queue.rows)
    (hnone : queue.rows.all (fun row => !row.isRetriedTest) = true) (limit id : Nat)
    (sent : Bool) :
    (queue.getPendingItems now limit).2.events id sent = queue.events id sent +
      if sent = false ∧ queue.events id false = 0 ∧
        (id ∈ (queue.rows.filter (Row.isStale now)).map Row.id ∨ id ∈ queue.spentIds now limit)
      then 1 else 0 := by
  have hexpired : ((queue.rows.filter (Row.isStale now)).map (Row.expiredRow now)).map Row.id =
      (queue.rows.filter (Row.isStale now)).map Row.id := by
    rw [List.map_map]
    exact List.map_congr_left fun row _ => rfl
  have hkeyedExpired : Keyed Row.id
      ((queue.rows.filter (Row.isStale now)).map (Row.expiredRow now)) := by
    rw [Keyed, hexpired]
    exact hkeyed.filter _
  have hkeyedSpent : Keyed Row.id
      ((queue.expiredQueue now).recoverStuck now (queue.stuckIds now limit)).1 := by
    have hrows := (@Queue.keyed_expiredQueue now queue hkeyed).map
      (Queue.id_recoverRow now (queue.stuckIds now limit))
    rw [← Queue.rows_recoverStuck] at hrows
    exact hrows.filter _
  have hdeliveries : (queue.getPendingItems now limit).2.deliveries =
      (((queue.expiredQueue now).recoverStuck now (queue.stuckIds now limit)).1).foldl
        (Queue.deliver false)
        (((queue.rows.filter (Row.isStale now)).map (Row.expiredRow now)).foldl
          (Queue.deliver false) queue.deliveries) := by
    have hafter : (queue.getPendingItems now limit).2.deliveries =
        (((queue.expiredQueue now).recoverStuck now (queue.stuckIds now limit)).1).foldl
          (Queue.deliver false) (queue.expiredQueue now).deliveries := rfl
    rw [hafter, Queue.expiredQueue, finalizeRetriedTests_eq hnone]
    rfl
  rw [Queue.events, Queue.events, hdeliveries, eventCount_foldl_deliver _ hkeyedSpent,
    eventCount_foldl_deliver _ hkeyedExpired, eventCount_foldl_deliver _ hkeyedExpired, hexpired]
  rw [show Queue.events queue id false = eventCount queue.deliveries id false from rfl]
  by_cases hcount : eventCount queue.deliveries id false = 0
  · by_cases hstale : id ∈ (queue.rows.filter (Row.isStale now)).map Row.id
    · cases sent <;> simp [hcount, hstale]
    · by_cases hspent : id ∈ queue.spentIds now limit
      · have hspent' := hspent
        rw [Queue.spentIds] at hspent'
        cases sent <;> simp [hcount, hstale, hspent, hspent']
      · have hspent' := hspent
        rw [Queue.spentIds] at hspent'
        cases sent <;> simp [hcount, hstale, hspent, hspent']
  · simp [hcount]

theorem mem_staleIds {ledger : Ledger} (hfated : ledger.Fated) {row : Row}
    (hrow : row ∈ ledger.queue.rows) :
    row.id ∈ (ledger.queue.rows.filter (Row.isStale now)).map Row.id ↔
      row.isStale now = true := by
  rw [List.mem_map]
  constructor
  · rintro ⟨other, hother, hid⟩
    obtain ⟨hmem, hstale⟩ := List.mem_filter.mp hother
    rwa [hfated.keyed.eq_of_mem hmem hrow hid] at hstale
  · exact fun hstale => ⟨row, List.mem_filter.mpr ⟨hrow, hstale⟩, rfl⟩

theorem count_stuckIds {queue : Queue} (hkeyed : Keyed Row.id queue.rows) (limit id : Nat) :
    (queue.stuckIds now limit).count id = if id ∈ queue.stuckIds now limit then 1 else 0 :=
  (nodup_stuckIds hkeyed).count

/-- A claim does not touch a message that has ended. -/
theorem Queue.status_claimChange_of_final {limit : Nat} {queue : Queue}
    (hkeyed : Keyed Row.id queue.rows) {row : Row} (hrow : row ∈ queue.rows)
    (hfinal : row.isFinal = true) : (queue.claimChange now limit row).status = row.status := by
  have hnotPending : row.status ≠ .pending := fun h => by simp [Row.isFinal, h] at hfinal
  have hnotProcessing : row.status ≠ .processing := fun h => by simp [Row.isFinal, h] at hfinal
  cases @Queue.passage now limit queue hkeyed row hrow with
  | left hclaim hspent hstuck hnext =>
      rw [hnext]
      simp [Row.early, Row.isRetriedTest, Row.isStale, hnotPending]
  | exhausted hclaim hspent hstuck hout hlimit hnext =>
      simp [Row.timedOut, hnotProcessing] at hout
  | recovered hspent hstuck hout hlimit hcandidate hnext =>
      simp [Row.timedOut, hnotProcessing] at hout
  | pending hspent hstuck hpending hdue hnew hfresh hcandidate hnext =>
      exact absurd hpending hnotPending

theorem fated_getPendingItems (hfated : ledger.Fated) (limit : Nat)
    (hnone : ledger.queue.rows.all (fun row => !row.isRetriedTest) = true) :
    let charges := ledger.charges ++ ledger.queue.stuckIds now limit
    Ledger.Fated ⟨(ledger.queue.getPendingItems now limit).2, charges⟩ ∧
      ledger.KeepsEnded ⟨(ledger.queue.getPendingItems now limit).2, charges⟩ := by
  intro charges
  have hevents := @events_getPendingItems now ledger.queue hfated.keyed hnone limit
  have hcount : ∀ id, charges.count id = ledger.charges.count id +
      if id ∈ ledger.queue.stuckIds now limit then 1 else 0 := fun id => by
    rw [List.count_append, count_stuckIds hfated.keyed]
  have hknown : ∀ id, ledger.queue.nextId ≤ id → ∀ row ∈ ledger.queue.rows, row.id ≠ id := by
    intro id hid row hrow hsame
    have := hfated.fresh row hrow
    omega
  have hstuckKnown : ∀ id, ledger.queue.nextId ≤ id → id ∉ ledger.queue.stuckIds now limit := by
    intro id hid hstuck
    obtain ⟨row, hchosen, -, hsame⟩ := Queue.mem_stuckIds.mp hstuck
    have hrow := (Queue.mem_chosen hchosen).1
    rw [Queue.rows_expiredQueue] at hrow
    obtain ⟨old, hold, rfl⟩ := List.mem_map.mp hrow
    exact hknown id hid old hold ((Row.id_early now old).symm.trans hsame)
  constructor
  · refine hfated.map (Queue.id_claimChange now limit ledger.queue)
      (Queue.rows_getPendingItems now limit ledger.queue) rfl ?_ ?_
    · intro id hid
      obtain ⟨hno, hzero⟩ := hfated.unborn id hid
      refine ⟨fun sent => ?_, ?_⟩
      · rw [hevents, hno, if_neg]
        rintro ⟨-, -, hstale | hspent⟩
        · obtain ⟨row, hrow, hsame⟩ := List.mem_map.mp hstale
          exact hknown id hid row (List.mem_filter.mp hrow).1 hsame
        · obtain ⟨row, -, -, hstuck, hsame⟩ := Queue.mem_recoverFailed_ids.mp hspent
          exact hstuckKnown id hid (hsame ▸ hstuck)
      · rw [hcount, hzero, if_neg (hstuckKnown id hid)]
    · intro row hrow hsettled
      have hnew : row.isRetriedTest = false := by simpa using List.all_eq_true.mp hnone row hrow
      have hcharge := hcount row.id
      have hcharged := hsettled.charged
      have hafter : ∀ sent, (Ledger.mk (ledger.queue.getPendingItems now limit).2
          charges).queue.events row.id sent = ledger.queue.events row.id sent +
            if sent = false ∧ ledger.queue.events row.id false = 0 ∧
              (row.isStale now = true ∨ row.id ∈ ledger.queue.spentIds now limit)
            then 1 else 0 := fun sent =>
        (hevents row.id sent).trans (congrArg _ (if_congr (by rw [mem_staleIds hfated hrow]) rfl rfl))
      have hfails : row.isOpen = true →
          (row.isStale now = true ∨ row.id ∈ ledger.queue.spentIds now limit) → ∀ sent,
          (Ledger.mk (ledger.queue.getPendingItems now limit).2 charges).queue.events row.id sent =
            ledger.queue.events row.id sent + if sent then 0 else 1 := by
        intro hopen hcause sent
        rw [hafter, hsettled.no_event hopen false]
        cases sent <;> simp [hcause]
      have hquiet : row.isStale now = false → row.id ∉ ledger.queue.spentIds now limit → ∀ sent,
          (Ledger.mk (ledger.queue.getPendingItems now limit).2 charges).queue.events row.id sent =
            ledger.queue.events row.id sent := by
        intro hfresh hspent sent
        rw [hafter]
        simp [hfresh, hspent]
      cases @Queue.passage now limit ledger.queue hfated.keyed row hrow with
      | left hclaim hspent hstuck hnext =>
          rw [if_neg hstuck, Nat.add_zero] at hcharge
          rw [hnext]
          by_cases hold : row.isStale now = true
          · have hpending : row.status = .pending := by
              simpa using (by simpa [Row.isStale] using hold : _ ∧ _).1
            have hopen : row.isOpen = true := by simp [Row.isOpen, hpending]
            have hearly : row.early now = row.expiredRow now := by simp [Row.early, hnew, hold]
            rw [hearly]
            exact hsettled.ends hopen rfl rfl (hfails hopen (.inl hold)) hsettled.limited
              (hcharged.trans hcharge.symm)
          · have hfresh : row.isStale now = false := by simpa using hold
            have hearly : row.early now = row := by simp [Row.early, hnew, hfresh]
            rw [hearly]
            have hno := hquiet hfresh hspent
            exact ⟨(hno true).trans hsettled.sent, (hno false).trans hsettled.failed,
              hsettled.limited, hcharged.trans hcharge.symm, hsettled.spent⟩
      | exhausted hclaim hspent hstuck hout hlimit hnext =>
          rw [if_pos hstuck] at hcharge
          rw [hnext]
          have hopen : row.isOpen = true := by
            simp [Row.isOpen, (by simpa [Row.timedOut] using hout : _ ∧ _).1]
          exact hsettled.ends hopen rfl rfl (hfails hopen (.inr hspent))
            (Nat.succ_le_succ hsettled.limited) (by rw [hcharge, ← hcharged]; rfl)
      | recovered hspent hstuck hout hlimit hcandidate hnext =>
          rw [if_pos hstuck] at hcharge
          rw [hnext]
          have hprocessing : row.status = .processing :=
            (by simpa [Row.timedOut] using hout : _ ∧ _).1
          have hfresh : row.isStale now = false := by simp [Row.isStale, hprocessing]
          exact hsettled.goes (by simp [Row.isOpen, hprocessing]) rfl rfl (hquiet hfresh hspent)
            (Nat.succ_le_succ hsettled.limited) (by rw [hcharge, ← hcharged]; rfl) hlimit
      | pending hspent hstuck hpending hdue hnew hfresh hcandidate hnext =>
          rw [if_neg hstuck, Nat.add_zero] at hcharge
          rw [hnext]
          have hopen : row.isOpen = true := by simp [Row.isOpen, hpending]
          exact hsettled.goes hopen rfl rfl (hquiet hfresh hspent) hsettled.limited
            (hcharged.trans hcharge.symm) (hsettled.limited_le hopen)
  · refine Ledger.KeepsEnded.of_map (Queue.id_claimChange now limit ledger.queue)
      (Queue.rows_getPendingItems now limit ledger.queue) ?_
    intro row hrow hfinal
    exact Queue.status_claimChange_of_final hfated.keyed hrow hfinal

theorem fated_step {call : Int × QueueAct} {next : Ledger} (hfated : ledger.Fated)
    (hguard : QueueAct.Guarded ledger call) (hstep : ledger.step call = some next) :
    next.Fated ∧ ledger.KeepsEnded next := by
  obtain ⟨now, act⟩ := call
  obtain rfl := Option.some.inj hstep
  have hplain : ∀ queue' : Queue, act.charged now ledger.queue = [] →
      act.perform now ledger.queue = queue' →
      Ledger.Fated ⟨queue', ledger.charges⟩ ∧ ledger.KeepsEnded ⟨queue', ledger.charges⟩ →
      Ledger.Fated ⟨act.perform now ledger.queue,
          ledger.charges ++ act.charged now ledger.queue⟩ ∧
        ledger.KeepsEnded ⟨act.perform now ledger.queue,
          ledger.charges ++ act.charged now ledger.queue⟩ := by
    intro queue' hcharged hqueue hnext
    rw [hcharged, hqueue, List.append_nil]
    exact hnext
  cases act with
  | enqueue jitter message => exact hplain _ rfl rfl (fated_enqueue hfated jitter message)
  | ensureTable =>
      refine hplain ledger.queue rfl (finalizeRetriedTests_eq hguard) hfated.unchanged
  | getPendingItems limit => exact fated_getPendingItems hfated limit hguard
  | markProcessing id => exact hplain _ rfl rfl (fated_markProcessing hfated hguard)
  | markSent id => exact hplain _ rfl rfl (fated_markSent hfated id)
  | renewLease id held => exact hplain _ rfl rfl (fated_renewLease hfated id held)
  | release id => exact hplain _ rfl rfl (fated_release hfated id)
  | markRetry jitter id retry => exact fated_markRetry hfated jitter id retry
  | markFailedPermanent id error => exact hplain _ rfl rfl (fated_markFailedPermanent hfated id error)
  | failUnparsable id error => exact hplain _ rfl rfl (fated_failUnparsable hfated error hguard)
  | recordAttempt path => exact hplain _ rfl rfl (hfated.same rfl rfl rfl)
  | setCooldown path count reason => exact hplain _ rfl rfl (hfated.same rfl rfl rfl)

theorem fated_run {ledger last : Ledger} {calls : List (Int × QueueAct)} (hfated : ledger.Fated)
    (hok : RunOk Ledger.step QueueAct.Guarded ledger calls)
    (hrun : run Ledger.step ledger calls = some last) :
    last.Fated ∧ ledger.KeepsEnded last := by
  refine @run_invariant_of _ _ _ (fun state => state.Fated ∧ ledger.KeepsEnded state)
    QueueAct.Guarded ?_ _ _ _ hok ⟨hfated, Ledger.KeepsEnded.refl ledger⟩ hrun
  intro state call next hstate hguard hstep
  obtain ⟨hnext, hkept⟩ := fated_step hstate.1 hguard hstep
  exact ⟨hnext, hstate.2.trans hkept⟩

/-- In every run of guarded calls a message ends at most once: what has ended stays,
every row has the one event of its end and no other, and its budget is charged with
its limited failures and its recoveries only. -/
theorem queued_messages_end_once {first second : List (Int × QueueAct)} {middle last : Ledger}
    (hok : RunOk Ledger.step QueueAct.Guarded Ledger.empty (first ++ second))
    (hfirst : run Ledger.step Ledger.empty first = some middle)
    (hsecond : run Ledger.step middle second = some last) :
    middle.KeepsEnded last ∧
      ∀ row ∈ last.queue.rows,
        last.queue.events row.id true = (if row.status = .sent then 1 else 0) ∧
        last.queue.events row.id false = (if row.status = .failed then 1 else 0) ∧
        row.limitedAttempts ≤ row.retryCount ∧
        row.limitedAttempts = last.charges.count row.id ∧
        (maxRetries + 1 ≤ last.charges.count row.id → row.status = .failed) := by
  obtain ⟨hokFirst, hokSecond⟩ := hok.split hfirst
  have hmiddle := (fated_run Ledger.empty_fated hokFirst hfirst).1
  obtain ⟨hlast, hkept⟩ := fated_run hmiddle hokSecond hsecond
  refine ⟨hkept, fun row hrow => ?_⟩
  have hsettled := hlast.settled row hrow
  exact ⟨hsettled.sent, hsettled.failed, hsettled.limited, hsettled.charged,
    fun hspent => hsettled.spent (hsettled.charged ▸ hspent)⟩

/-! ## Two runs -/

def openMessage : Queue.Message where
  notificationType := .alert
  channelType := .email
  recipientId := some 1
  recipientAddress := "a@b".toList
  payload := ⟨some 7, some .open, none, []⟩
  error := none
  immediate := true
  targetId := some 3

/-- A message is claimed, fails once, is claimed again and sent. -/
theorem queued_messages_end_once_sent :
    ∃ middle last : Ledger, (∃ row ∈ middle.queue.rows, row.status = .sent) ∧
      middle.KeepsEnded last ∧
      ∀ row ∈ last.queue.rows,
        last.queue.events row.id true = (if row.status = .sent then 1 else 0) ∧
        last.queue.events row.id false = (if row.status = .failed then 1 else 0) ∧
        row.limitedAttempts ≤ row.retryCount ∧
        row.limitedAttempts = last.charges.count row.id ∧
        (maxRetries + 1 ≤ last.charges.count row.id → row.status = .failed) := by
  let first : List (Int × QueueAct) :=
    [(0, .enqueue 0 openMessage), (1, .getPendingItems 20),
      (2, .markRetry 0 1 ⟨"busy".toList, none, false, false⟩),
      (seconds 100, .getPendingItems 20), (seconds 101, .markSent 1)]
  let second : List (Int × QueueAct) := [(seconds 102, .release 1), (seconds 103, .markSent 1)]
  have hany : (run Ledger.step Ledger.empty first).any (fun middle =>
      middle.queue.rows.any (fun row => row.status = .sent) &&
        (run Ledger.step middle second).isSome) = true := by
    decide +kernel
  obtain ⟨middle, hfirst, hmiddle⟩ := (Option.any_eq_true ..).mp hany
  rw [Bool.and_eq_true, List.any_eq_true] at hmiddle
  obtain ⟨⟨row, hrow, hsent⟩, hsome⟩ := hmiddle
  obtain ⟨last, hsecond⟩ := Option.isSome_iff_exists.mp hsome
  have hok : RunOk Ledger.step QueueAct.Guarded Ledger.empty (first ++ second) := by
    decide +kernel
  exact ⟨middle, last, ⟨row, hrow, by simpa using hsent⟩,
    queued_messages_end_once hok hfirst hsecond⟩

/-- A late `mark_processing` takes a sent message up again, and it is sent twice. -/
theorem sent_message_taken_up_again :
    ¬ ∀ (first second : List (Int × QueueAct)) (middle last : Ledger),
      run Ledger.step Ledger.empty first = some middle →
      run Ledger.step middle second = some last →
      middle.KeepsEnded last ∧
        ∀ row ∈ last.queue.rows,
          last.queue.events row.id true = (if row.status = .sent then 1 else 0) := by
  intro hclaim
  let first : List (Int × QueueAct) :=
    [(0, .enqueue 0 openMessage), (1, .getPendingItems 20), (2, .markSent 1)]
  let second : List (Int × QueueAct) := [(3, .markProcessing 1), (4, .markSent 1)]
  have hany : (run Ledger.step Ledger.empty (first ++ second)).any (fun last =>
      last.queue.rows.any fun row => decide (row.id = 1 ∧ last.queue.events 1 true = 2)) = true := by
    decide +kernel
  obtain ⟨last, hrun, hlast⟩ := (Option.any_eq_true ..).mp hany
  rw [run_append, Option.bind_eq_some_iff] at hrun
  obtain ⟨middle, hfirst, hsecond⟩ := hrun
  obtain ⟨row, hrow, htwice⟩ := List.any_eq_true.mp hlast
  obtain ⟨hid, htwice⟩ := of_decide_eq_true htwice
  have honce := (hclaim first second middle last hfirst hsecond).2 row hrow
  rw [hid, htwice] at honce
  split at honce <;> cases honce

end Justup.Spool
