import Justup.Spool.Fate

/-!
# Spooler workers

`process_queue_sync`, by any number of workers on one queue.  A worker claims a
batch and takes its items in order: it reads the wait of the send path, sleeps,
renews its lease, records the attempt, sends, and writes the outcome.  Each
access to the database is a step of its own, and time passes between steps.
-/

namespace Justup.Spool

open Lib Lib.Table Lib.Transition

/-! ## Outcomes -/

inductive ResultKind where
  | sent
  | transient
  | rateLimited
  | retry
  | permanent
  | deferred
  deriving DecidableEq

structure DeliveryResult where
  kind : ResultKind
  error : Store.Text
  delaySeconds : Option Nat
  uncertain : Bool
  cooldownSeconds : Option Nat
  deriving DecidableEq

def DeliveryResult.deferred (reason : Store.Text) : DeliveryResult :=
  ⟨.deferred, reason, none, false, none⟩

namespace Queue

/-- The write that an outcome stands for, by the operation that makes it. -/
inductive Write where
  | sent
  | permanent (error : Store.Text)
  | release
  | retry (jitter : Int) (retry : Retry)

/-- `_apply_result`, after the cooldown: a test message is never tried again. -/
def outcomeWrite (item : Row) (result : DeliveryResult) (jitter : Int) : Write :=
  match result.kind with
  | .sent => .sent
  | .permanent => .permanent result.error
  | .deferred => .release
  | kind =>
      if item.notificationType = .test then
        .permanent (if result.uncertain then uncertainError result.error else result.error)
      else
        .retry jitter ⟨result.error, result.delaySeconds, result.uncertain,
          kind = .transient ∨ kind = .rateLimited⟩

def write (now : Int) (id : Nat) (queue : Queue) : Write → Queue
  | .sent => queue.markSent now id
  | .permanent error => queue.markFailedPermanent now id error
  | .release => (queue.release now id).2
  | .retry jitter retry => (queue.markRetry now jitter id retry).2

/-- The cooldown of an outcome, if it has one. -/
def coolDown (now : Int) (path : SendPath) (result : DeliveryResult) (queue : Queue) : Queue :=
  match result.cooldownSeconds with
  | some (count + 1) => queue.setCooldown now path (count + 1) result.error
  | _ => queue

end Queue

/-! ## A worker -/

/-- Where a worker is with the first of its items. -/
inductive Stage where
  | ready
  | waiting (wake : Int) (read : PathState)
  | leased (wake : Int) (read : PathState)
  | sending
  | finishing (result : DeliveryResult)
  | marking (result : DeliveryResult)

/-- The claimed rows that a worker has not dealt with.  An item carries the stamp that
the worker gave its row last: no code reads it after the lease was renewed. -/
structure Worker where
  unparsable : List Row
  items : List Row
  cooled : List SendPath
  stage : Stage

def Worker.idle : Worker := ⟨[], [], [], .ready⟩

inductive WorkerAct where
  | claim
  | failUnparsable (written : Bool) (error : Store.Text)
  | defer (reason : Store.Text)
  | readWait
  | renew
  | recordAttempt
  | answer (result : DeliveryResult)
  | coolDown
  | write (jitter : Int)
  | drop
  | crash

namespace Worker

/-- The claimed rows, in the order of the batch. -/
def claimed (rows : List Row) : Worker where
  unparsable := rows.filter fun row => row.payload.isNone
  items := rows.filter fun row => row.payload.isSome
  cooled := []
  stage := .ready

/-- One step of a worker; the write for an unparsable row can fail. -/
def step (now : Int) (queue : Queue) (worker : Worker) : WorkerAct → Option (Queue × Worker)
  | .claim =>
      match worker.stage, worker.unparsable, worker.items with
      | .ready, [], [] =>
          let claim := queue.getPendingItems now processBatchSize
          some (claim.2, claimed claim.1)
      | _, _, _ => none
  | .failUnparsable written error =>
      match worker.unparsable with
      | row :: rest =>
          some (if written then queue.failUnparsable row.updatedAt row.id error else queue,
            { worker with unparsable := rest })
      | [] => none
  | .defer reason =>
      match worker.stage, worker.unparsable, worker.items with
      | .ready, [], _ :: _ => some (queue, { worker with stage := .finishing (.deferred reason) })
      | .waiting wake _, _, _ =>
          if wake ≤ now then
            some (queue, { worker with stage := .finishing (.deferred reason) })
          else none
      | _, _, _ => none
  | .readWait =>
      match worker.stage, worker.unparsable, worker.items with
      | .ready, [], item :: _ =>
          if item.itemKey ∈ worker.cooled then none
          else
            let read := queue.paths item.itemKey
            match read.pacingWait item.itemKey now with
            | none =>
                some (queue, { worker with stage := .finishing (.deferred "cooldown".toList) })
            | some wait => some (queue, { worker with stage := .waiting (now + wait) read })
      | _, _, _ => none
  | .renew =>
      match worker.stage, worker.items with
      | .waiting wake read, item :: rest =>
          if wake ≤ now then
            match queue.renewLease now item.id item.updatedAt with
            | (some lease, queue) =>
                some (queue, { worker with
                  items := { item with updatedAt := lease } :: rest, stage := .leased wake read })
            | (none, queue) => some (queue, { worker with items := rest, stage := .ready })
          else none
      | _, _ => none
  | .recordAttempt =>
      match worker.stage, worker.items with
      | .leased _ _, item :: _ =>
          some (queue.recordAttempt now item.itemKey, { worker with stage := .sending })
      | _, _ => none
  | .answer result =>
      match worker.stage, worker.items with
      | .sending, item :: _ =>
          some (queue, { worker with
            cooled := if result.cooldownSeconds.any (0 < ·) then item.itemKey :: worker.cooled
              else worker.cooled
            stage := .finishing result })
      | _, _ => none
  | .coolDown =>
      match worker.stage, worker.items with
      | .finishing result, item :: _ =>
          some (queue.coolDown now item.itemKey result, { worker with stage := .marking result })
      | _, _ => none
  | .write jitter =>
      match worker.stage, worker.items with
      | .marking result, item :: rest =>
          some (queue.write now item.id (Queue.outcomeWrite item result jitter),
            { worker with items := rest, stage := .ready })
      | _, _ => none
  | .drop =>
      match worker.stage, worker.items with
      | .finishing _, _ :: rest => some (queue, { worker with items := rest, stage := .ready })
      | _, _ => none
  | .crash => some (queue, idle)

/-- What a step of a worker can do. -/
inductive Step (now : Int) (queue : Queue) (worker : Worker) : WorkerAct → Queue → Worker → Prop
  | claim (hfree : worker.unparsable = [] ∧ worker.items = []) :
      Step now queue worker .claim (queue.getPendingItems now processBatchSize).2
        (claimed (queue.getPendingItems now processBatchSize).1)
  | failUnparsable {row : Row} {rest : List Row} {error : Store.Text}
      (hrows : worker.unparsable = row :: rest) :
      Step now queue worker (.failUnparsable true error)
        (queue.failUnparsable row.updatedAt row.id error) { worker with unparsable := rest }
  | skipUnparsable {row : Row} {rest : List Row} {error : Store.Text}
      (hrows : worker.unparsable = row :: rest) :
      Step now queue worker (.failUnparsable false error) queue { worker with unparsable := rest }
  | defer {reason : Store.Text} {act : WorkerAct} (hact : act = .defer reason ∨ act = .readWait) :
      Step now queue worker act queue { worker with stage := .finishing (.deferred reason) }
  | readWait {item : Row} {rest : List Row} {wait : Int} (hready : worker.stage = .ready)
      (hitems : worker.items = item :: rest)
      (hwait : (queue.paths item.itemKey).pacingWait item.itemKey now = some wait) :
      Step now queue worker .readWait queue
        { worker with stage := .waiting (now + wait) (queue.paths item.itemKey) }
  | renew {item row : Row} {rest : List Row} {wake : Int} {read : PathState}
      (hwaiting : worker.stage = .waiting wake read) (hitems : worker.items = item :: rest)
      (hwake : wake ≤ now) (hrow : queue.row? item.id = some row)
      (hprocessing : row.status = .processing) (hheld : row.updatedAt = item.updatedAt) :
      Step now queue worker .renew
        (queue.change item.id fun row => { row with updatedAt := now })
        { worker with items := { item with updatedAt := now } :: rest, stage := .leased wake read }
  | lost {item : Row} {rest : List Row} (hitems : worker.items = item :: rest) :
      Step now queue worker .renew queue { worker with items := rest, stage := .ready }
  | recordAttempt {item : Row} {rest : List Row} {wake : Int} {read : PathState}
      (hleased : worker.stage = .leased wake read) (hitems : worker.items = item :: rest) :
      Step now queue worker .recordAttempt (queue.recordAttempt now item.itemKey)
        { worker with stage := .sending }
  | answer {result : DeliveryResult} {cooled : List SendPath} (hsending : worker.stage = .sending) :
      Step now queue worker (.answer result) queue
        { worker with cooled := cooled, stage := .finishing result }
  | coolDown {item : Row} {rest : List Row} {result : DeliveryResult}
      (hfinishing : worker.stage = .finishing result) (hitems : worker.items = item :: rest) :
      Step now queue worker .coolDown (queue.coolDown now item.itemKey result)
        { worker with stage := .marking result }
  | write {item : Row} {rest : List Row} {result : DeliveryResult} {jitter : Int}
      (hmarking : worker.stage = .marking result) (hitems : worker.items = item :: rest) :
      Step now queue worker (.write jitter)
        (queue.write now item.id (Queue.outcomeWrite item result jitter))
        { worker with items := rest, stage := .ready }
  | drop {item : Row} {rest : List Row} (hitems : worker.items = item :: rest) :
      Step now queue worker .drop queue { worker with items := rest, stage := .ready }
  | crash : Step now queue worker .crash queue idle

theorem step_cases {now : Int} {queue queue' : Queue} {worker worker' : Worker} {act : WorkerAct}
    (hstep : worker.step now queue act = some (queue', worker')) :
    Step now queue worker act queue' worker' := by
  cases act with
  | claim =>
      simp only [step] at hstep
      split at hstep
      · cases hstep
        exact .claim ⟨by assumption, by assumption⟩
      · cases hstep
  | failUnparsable written error =>
      simp only [step] at hstep
      split at hstep
      · rename_i row rest hrows
        cases hstep
        cases written with
        | true => exact .failUnparsable hrows
        | false => exact .skipUnparsable hrows
      · cases hstep
  | defer reason =>
      simp only [step] at hstep
      split at hstep
      · cases hstep
        exact .defer (.inl rfl)
      · split at hstep
        · cases hstep
          exact .defer (.inl rfl)
        · cases hstep
      · cases hstep
  | readWait =>
      simp only [step] at hstep
      split at hstep
      · rename_i item rest hready hparsed hitems
        split at hstep
        · cases hstep
        · split at hstep
          · cases hstep
            exact .defer (.inr rfl)
          · rename_i wait hwait
            cases hstep
            exact .readWait hready hitems hwait
      · cases hstep
  | renew =>
      simp only [step] at hstep
      split at hstep
      · rename_i wake read item rest hwaiting hitems
        split at hstep
        · rename_i hwake
          simp only [Queue.renewLease] at hstep
          cases hrow : queue.row? item.id with
          | none =>
              simp only [hrow] at hstep
              cases hstep
              exact .lost hitems
          | some row =>
              simp only [hrow] at hstep
              by_cases hheld : row.status = .processing ∧ row.updatedAt = item.updatedAt
              · simp only [hheld, and_self, if_true] at hstep
                cases hstep
                exact .renew hwaiting hitems hwake hrow hheld.1 hheld.2
              · simp only [hheld, if_false] at hstep
                cases hstep
                exact .lost hitems
        · cases hstep
      · cases hstep
  | recordAttempt =>
      simp only [step] at hstep
      split at hstep
      · rename_i wake read item rest hleased hitems
        cases hstep
        exact .recordAttempt hleased hitems
      · cases hstep
  | answer result =>
      simp only [step] at hstep
      split at hstep
      · cases hstep
        exact .answer (by assumption)
      · cases hstep
  | coolDown =>
      simp only [step] at hstep
      split at hstep
      · rename_i result item rest hfinishing hitems
        cases hstep
        exact .coolDown hfinishing hitems
      · cases hstep
  | write jitter =>
      simp only [step] at hstep
      split at hstep
      · rename_i result item rest hmarking hitems
        cases hstep
        exact .write hmarking hitems
      · cases hstep
  | drop =>
      simp only [step] at hstep
      split at hstep
      · rename_i result item rest hfinishing hitems
        cases hstep
        exact .drop hitems
      · cases hstep
  | crash =>
      cases hstep
      exact .crash

/-- The rows that a worker has claimed and not dealt with, with its stamps. -/
def held (worker : Worker) : List Row := worker.unparsable ++ worker.items

end Worker

/-! ## All workers -/

/-- The database, the workers and the clock.  The last three fields only record: who
claimed or renewed a row last, which rows were leased for a send, and which
attempts were recorded. -/
structure System where
  clock : Int
  queue : Queue
  workers : Nat → Worker
  holder : Nat → Option Nat
  attempts : List Nat
  recorded : List (SendPath × Int)

inductive SystemAct where
  | tick (delay : Nat)
  | enqueue (jitter : Int) (message : Queue.Message)
  | ensureTable
  | work (name : Nat) (act : WorkerAct)

namespace System

def start (clock : Int) (queue : Queue) : System where
  clock := clock
  queue := queue
  workers := fun _ => Worker.idle
  holder := fun _ => none
  attempts := []
  recorded := []

/-- The row that the step leased for a send. -/
def leasedBy (act : WorkerAct) (after : Worker) : Option Nat :=
  match act, after.stage with
  | .renew, .leased _ _ => after.items.head?.map Row.id
  | _, _ => none

/-- The rows that the step claimed or renewed. -/
def takenBy (act : WorkerAct) (after : Worker) : List Nat :=
  match act with
  | .claim => after.held.map Row.id
  | _ => (leasedBy act after).toList

/-- The attempt that the step recorded. -/
def recordedBy (clock : Int) (act : WorkerAct) (before : Worker) : Option (SendPath × Int) :=
  match act with
  | .recordAttempt => before.items.head?.map fun item => (item.itemKey, clock)
  | _ => none

/-- The system after a step of one worker. -/
def worked (system : System) (name : Nat) (act : WorkerAct) (queue : Queue) (worker : Worker) :
    System where
  clock := system.clock
  queue := queue
  workers := Function.update system.workers name worker
  holder := fun id => if id ∈ takenBy act worker then some name else system.holder id
  attempts := system.attempts ++ (leasedBy act worker).toList
  recorded := system.recorded ++ (recordedBy system.clock act (system.workers name)).toList

def step (system : System) : SystemAct → Option System
  | .tick delay => some { system with clock := system.clock + delay }
  | .enqueue jitter message =>
      some { system with
        queue := (QueueAct.enqueue jitter message).perform system.clock system.queue }
  | .ensureTable => some { system with queue := system.queue.finalizeRetriedTests system.clock }
  | .work name act =>
      match (system.workers name).step system.clock system.queue act with
      | none => none
      | some (queue, worker) => some (system.worked name act queue worker)

theorem step_work {system next : System} {name : Nat} {act : WorkerAct}
    (hstep : system.step (.work name act) = some next) :
    ∃ queue worker,
      Worker.Step system.clock system.queue (system.workers name) act queue worker ∧
        next = system.worked name act queue worker := by
  simp only [step] at hstep
  cases hwork : (system.workers name).step system.clock system.queue act with
  | none => simp [hwork] at hstep
  | some result =>
      rw [hwork] at hstep
      cases hstep
      exact ⟨result.1, result.2, Worker.step_cases hwork, rfl⟩

end System

/-! ## What a step does to a row -/

/-- The part of a row that says what the message is. -/
structure Row.Kept (row next : Row) : Prop where
  id : next.id = row.id
  notificationType : next.notificationType = row.notificationType
  channelType : next.channelType = row.channelType
  recipientId : next.recipientId = row.recipientId
  payload : next.payload = row.payload
  createdAt : next.createdAt = row.createdAt

theorem Row.Kept.refl (row : Row) : row.Kept row := ⟨rfl, rfl, rfl, rfl, rfl, rfl⟩

theorem Row.Kept.trans {first second third : Row} (hfirst : first.Kept second)
    (hsecond : second.Kept third) : first.Kept third :=
  ⟨hsecond.id.trans hfirst.id, hsecond.notificationType.trans hfirst.notificationType,
    hsecond.channelType.trans hfirst.channelType, hsecond.recipientId.trans hfirst.recipientId,
    hsecond.payload.trans hfirst.payload, hsecond.createdAt.trans hfirst.createdAt⟩

theorem Row.early_kept (now : Int) (row : Row) : row.Kept (row.early now) := by
  unfold Row.early
  split
  · exact ⟨rfl, rfl, rfl, rfl, rfl, rfl⟩
  · split <;> exact ⟨rfl, rfl, rfl, rfl, rfl, rfl⟩

namespace Queue

/-- The ids are the keys of the table, and new rows get new ids. -/
structure Sound (queue : Queue) : Prop where
  keyed : Keyed Row.id queue.rows
  fresh : ∀ row ∈ queue.rows, row.id < queue.nextId

/-- The statuses that the operation lets through. -/
def Write.admits (row : Row) : Write → Bool
  | .release => row.status = .processing
  | _ => row.isOpen

theorem rows_recordDelivery (id : Nat) (sent : Bool) (queue : Queue) :
    (queue.recordDelivery id sent).rows = queue.rows ∧
      (queue.recordDelivery id sent).nextId = queue.nextId ∧
      (queue.recordDelivery id sent).paths = queue.paths := by
  unfold recordDelivery
  split <;> exact ⟨rfl, rfl, rfl⟩

/-- An outcome that is written changes its row, and keeps what the message is. -/
def Written (now : Int) (id : Nat) (queue : Queue) (write : Write) (queue' : Queue) : Prop :=
  queue'.nextId = queue.nextId ∧ queue'.paths = queue.paths ∧
    (queue'.rows = queue.rows ∨
      ∃ (row : Row) (f : Row → Row), queue.row? id = some row ∧ write.admits row = true ∧
        (∀ row, row.Kept (f row) ∧ (f row).updatedAt = now) ∧ queue'.rows = (queue.change id f).rows)

section Written

variable {now : Int} {id : Nat} {queue queue' : Queue} {write : Write} {row : Row} {f : Row → Row}

theorem Written.same : Written now id queue write queue := ⟨rfl, rfl, .inl rfl⟩

theorem Written.change (hqueue : queue' = queue.change id f) (hrow : queue.row? id = some row)
    (hadmits : write.admits row = true) (hf : ∀ row, row.Kept (f row) ∧ (f row).updatedAt = now) :
    Written now id queue write queue' := by
  subst hqueue
  exact ⟨rfl, rfl, .inr ⟨row, f, hrow, hadmits, hf, rfl⟩⟩

theorem Written.finish {sent : Bool} (hqueue : queue' = (queue.change id f).recordDelivery id sent)
    (hrow : queue.row? id = some row) (hadmits : write.admits row = true)
    (hf : ∀ row, row.Kept (f row) ∧ (f row).updatedAt = now) :
    Written now id queue write queue' := by
  subst hqueue
  obtain ⟨hrows, hnext, hpaths⟩ := rows_recordDelivery id sent (queue.change id f)
  exact ⟨hnext, hpaths, .inr ⟨row, f, hrow, hadmits, hf, hrows⟩⟩

end Written

theorem written_write (now : Int) (id : Nat) (queue : Queue) (write : Write) :
    Written now id queue write (queue.write now id write) := by
  cases write with
  | sent =>
      simp only [Queue.write, markSent]
      split
      · exact .same
      · rename_i row hrow
        split
        · exact .finish rfl hrow (by assumption) fun _ => ⟨⟨rfl, rfl, rfl, rfl, rfl, rfl⟩, rfl⟩
        · exact .same
  | permanent error =>
      simp only [Queue.write, markFailedPermanent]
      split
      · exact .same
      · rename_i row hrow
        split
        · exact .finish rfl hrow (by assumption) fun _ => ⟨⟨rfl, rfl, rfl, rfl, rfl, rfl⟩, rfl⟩
        · exact .same
  | release =>
      simp only [Queue.write, release]
      split
      · exact .same
      · rename_i row hrow
        split
        · rename_i hprocessing
          exact .change rfl hrow (by simpa [Write.admits] using hprocessing)
            fun _ => ⟨⟨rfl, rfl, rfl, rfl, rfl, rfl⟩, rfl⟩
        · exact .same
  | retry jitter retry =>
      simp only [Queue.write, markRetry]
      split
      · exact .same
      · rename_i row hrow
        split
        · split
          · exact .finish rfl hrow (by assumption) fun _ => ⟨⟨rfl, rfl, rfl, rfl, rfl, rfl⟩, rfl⟩
          · exact .change rfl hrow (by assumption) fun _ => ⟨⟨rfl, rfl, rfl, rfl, rfl, rfl⟩, rfl⟩
        · exact .same

/-- Enqueueing finds the message in the queue, is refused, or adds a row. -/
theorem perform_enqueue (now jitter : Int) (message : Message) (queue : Queue) :
    (QueueAct.enqueue jitter message).perform now queue = queue ∨
      ∃ nextRetry, (QueueAct.enqueue jitter message).perform now queue =
        { queue with
          rows := queue.rows ++ [newRow now nextRetry message queue.nextId]
          nextId := queue.nextId + 1 } := by
  simp only [QueueAct.perform, enqueue]
  cases queue.alertDuplicate message with
  | some row => exact .inl rfl
  | none =>
      cases queue.testDuplicate message with
      | some row => exact .inl rfl
      | none =>
          cases isSignalTest message && queue.testLimitReached now message with
          | true => exact .inl rfl
          | false => exact .inr ⟨_, rfl⟩

theorem claimChange_kept (now : Int) (limit : Nat) (queue : Queue) (row : Row) :
    row.Kept (queue.claimChange now limit row) := by
  have hrecover : ∀ (stuck : List Nat) (old : Row), old.Kept (recoverRow now stuck old) := by
    intro stuck old
    simp only [recoverRow]
    split <;> split <;> exact ⟨rfl, rfl, rfl, rfl, rfl, rfl⟩
  refine (Row.early_kept now row).trans ((hrecover (queue.stuckIds now limit) _).trans ?_)
  simp only [claimChange]
  split <;> exact ⟨rfl, rfl, rfl, rfl, rfl, rfl⟩

end Queue

namespace System

/-- What a step can make of a row that is there. -/
inductive RowMove (system : System) (act : SystemAct) (row : Row) : Row → Prop
  | same : RowMove system act row row
  | closed (hact : act = .ensureTable) (htest : row.isRetriedTest = true) :
      RowMove system act row (row.closedTest system.clock)
  | claimed {name : Nat} (hact : act = .work name .claim) :
      RowMove system act row (system.queue.claimChange system.clock processBatchSize row)
  | renewed {name : Nat} {item : Row} {rest : List Row} (hact : act = .work name .renew)
      (hitems : (system.workers name).items = item :: rest) (hid : item.id = row.id)
      (hprocessing : row.status = .processing) (hheld : row.updatedAt = item.updatedAt) :
      RowMove system act row { row with updatedAt := system.clock }
  | wrote {name : Nat} {jitter : Int} {item next : Row} {rest : List Row}
      {result : DeliveryResult} (hact : act = .work name (.write jitter))
      (hmarking : (system.workers name).stage = .marking result)
      (hitems : (system.workers name).items = item :: rest) (hid : item.id = row.id)
      (hadmits : (Queue.outcomeWrite item result jitter).admits row = true) (hkept : row.Kept next)
      (hstamp : next.updatedAt = system.clock) : RowMove system act row next
  | unparsed {name : Nat} {error : Store.Text} {item : Row} {rest : List Row}
      (hact : act = .work name (.failUnparsable true error))
      (hrows : (system.workers name).unparsable = item :: rest) (hid : item.id = row.id) :
      RowMove system act row
        { row with
          status := .failed
          lastError := some ("Parse error: ".toList ++ error)
          updatedAt := item.updatedAt }

theorem RowMove.kept {system : System} {act : SystemAct} {row next : Row}
    (hmove : RowMove system act row next) : row.Kept next := by
  cases hmove with
  | same => exact .refl row
  | closed hact htest => exact ⟨rfl, rfl, rfl, rfl, rfl, rfl⟩
  | claimed hact => exact Queue.claimChange_kept _ _ _ _
  | renewed hact hitems hid hprocessing hheld => exact ⟨rfl, rfl, rfl, rfl, rfl, rfl⟩
  | wrote hact hmarking hitems hid hadmits hkept hstamp => exact hkept
  | unparsed hact hrows hid => exact ⟨rfl, rfl, rfl, rfl, rfl, rfl⟩

/-- The rows after a step: those that were there, moved, or one more at the end. -/
theorem step_rows {system next : System} {act : SystemAct} (hsound : system.queue.Sound)
    (hstep : system.step act = some next) :
    (next.queue.nextId = system.queue.nextId ∧
      ∃ move : Row → Row, next.queue.rows = system.queue.rows.map move ∧
        ∀ row ∈ system.queue.rows, RowMove system act row (move row)) ∨
    (∃ jitter message nextRetry,
      act = .enqueue jitter message ∧ next.queue.nextId = system.queue.nextId + 1 ∧
        next.queue.rows = system.queue.rows ++
          [Queue.newRow system.clock nextRetry message system.queue.nextId]) := by
  have hsame : next.queue.nextId = system.queue.nextId → next.queue.rows = system.queue.rows →
      next.queue.nextId = system.queue.nextId ∧
        ∃ move : Row → Row, next.queue.rows = system.queue.rows.map move ∧
          ∀ row ∈ system.queue.rows, RowMove system act row (move row) := fun hnext hrows =>
    ⟨hnext, fun row => row, by simpa using hrows, fun row _ => .same⟩
  -- a change of the row with an id, whose other rows stay
  have hchange : ∀ {id : Nat} {row : Row} {f : Row → Row}, system.queue.row? id = some row →
      RowMove system act row (f row) → next.queue.nextId = system.queue.nextId →
      next.queue.rows = (system.queue.change id f).rows →
      next.queue.nextId = system.queue.nextId ∧
        ∃ move : Row → Row, next.queue.rows = system.queue.rows.map move ∧
          ∀ row ∈ system.queue.rows, RowMove system act row (move row) := by
    intro id row f hrow hmove hnext hrows
    refine ⟨hnext, _, hrows, fun other hother => ?_⟩
    obtain ⟨hmem, hid⟩ := mem_of_row? hrow
    by_cases hsameId : other.id = id
    · rw [if_pos hsameId, hsound.keyed.eq_of_mem hother hmem (hsameId.trans hid.symm)]
      exact hmove
    · rw [if_neg hsameId]
      exact .same
  cases act with
  | tick delay =>
      cases hstep
      exact .inl (hsame rfl rfl)
  | enqueue jitter message =>
      cases hstep
      rcases Queue.perform_enqueue system.clock jitter message system.queue with
        hqueue | ⟨nextRetry, hqueue⟩
      · exact .inl (hsame (by rw [hqueue]) (by rw [hqueue]))
      · exact .inr ⟨jitter, message, nextRetry, rfl, by rw [hqueue], by rw [hqueue]⟩
  | ensureTable =>
      cases hstep
      refine .inl ⟨rfl, _, rfl, fun row _ => ?_⟩
      split
      · exact .closed rfl (by assumption)
      · exact .same
  | work name act =>
      obtain ⟨queue, worker, hwork, rfl⟩ := step_work hstep
      left
      cases hwork with
      | claim hfree =>
          exact ⟨rfl, _, Queue.rows_getPendingItems _ _ _, fun row _ => .claimed rfl⟩
      | @failUnparsable item rest error hrows =>
          let f : Row → Row := fun row =>
            { row with
              status := .failed
              lastError := some ("Parse error: ".toList ++ error)
              updatedAt := item.updatedAt }
          obtain ⟨hqueue, hnext, -⟩ := Queue.rows_recordDelivery item.id false
            (system.queue.change item.id f)
          obtain hnone | ⟨row, hrow⟩ := (system.queue.row? item.id).eq_none_or_eq_some
          · exact hsame hnext (hqueue.trans (update_of_row?_eq_none hnone f))
          · exact hchange hrow (.unparsed rfl hrows (mem_of_row? hrow).2.symm) hnext hqueue
      | skipUnparsable hrows => exact hsame rfl rfl
      | defer hact => exact hsame rfl rfl
      | readWait hready hitems hwait => exact hsame rfl rfl
      | @renew item row rest wake read hwaiting hitems hwake hrow hprocessing hheld =>
          exact hchange hrow
            (.renewed rfl hitems (mem_of_row? hrow).2.symm hprocessing hheld) rfl rfl
      | lost hitems => exact hsame rfl rfl
      | recordAttempt hleased hitems => exact hsame rfl rfl
      | answer hsending => exact hsame rfl rfl
      | @coolDown item rest result hfinishing hitems =>
          have hqueue : (system.queue.coolDown system.clock item.itemKey result).rows =
              system.queue.rows ∧
              (system.queue.coolDown system.clock item.itemKey result).nextId =
                system.queue.nextId := by
            unfold Queue.coolDown
            split <;> exact ⟨rfl, rfl⟩
          exact hsame hqueue.2 hqueue.1
      | @write item rest result jitter hmarking hitems =>
          obtain ⟨hnext, -, hrows | ⟨row, f, hrow, hadmits, hf, hrows⟩⟩ :=
            Queue.written_write system.clock item.id system.queue
              (Queue.outcomeWrite item result jitter)
          · exact hsame hnext hrows
          · exact hchange hrow (.wrote rfl hmarking hitems (mem_of_row? hrow).2.symm hadmits
              (hf row).1 (hf row).2) hnext hrows
      | drop hitems => exact hsame rfl rfl
      | crash => exact hsame rfl rfl

theorem sound_step {system next : System} {act : SystemAct} (hsound : system.queue.Sound)
    (hstep : system.step act = some next) : next.queue.Sound := by
  rcases step_rows hsound hstep with ⟨hnext, move, hrows, hmove⟩ | ⟨_, message, _, _, hnext, hrows⟩
  · have hid : system.queue.rows.map Row.id = next.queue.rows.map Row.id := by
      rw [hrows, List.map_map]
      exact List.map_congr_left fun row hrow => (hmove row hrow).kept.id.symm
    refine ⟨?_, fun row hrow => ?_⟩
    · rw [Keyed, ← hid]
      exact hsound.keyed
    · rw [hrows] at hrow
      obtain ⟨old, hold, rfl⟩ := List.mem_map.mp hrow
      rw [(hmove old hold).kept.id, hnext]
      exact hsound.fresh old hold
  · constructor
    · rw [hrows]
      refine hsound.keyed.snoc fun row hrow => ?_
      have := hsound.fresh row hrow
      exact this.ne
    · intro row hrow
      rw [hrows] at hrow
      rw [hnext]
      rcases List.mem_append.mp hrow with hrow | hrow
      · exact (hsound.fresh row hrow).trans (Nat.lt_succ_self _)
      · rw [List.mem_singleton.mp hrow]
        exact Nat.lt_succ_self _

end System

end Justup.Spool
