import Justup.Spool.Queue

/-!
# Claiming pending items

`get_pending_items`: close retried tests, expire old messages, choose what is
due, count the recovery of rows left in processing, and claim.  Rows are found
by their id, so a step on some of them is a map over all.
-/

namespace Justup.Spool

open Lib Lib.Table

namespace Row

/-- A pending test message that had an attempt, closed. -/
def closedTest (now : Int) (row : Row) : Row :=
  { row with
    status := .failed
    lastError := some (row.lastError.getD [] ++
      " [PERMANENT] test message is never retried".toList)
    updatedAt := now }

def isRetriedTest (row : Row) : Bool := row.status = .pending ∧ row.retriedTest

/-- A pending message older than its validity. -/
def isStale (now : Int) (row : Row) : Bool :=
  row.status = .pending ∧ row.createdAt < now - messageValidity

def expiredRow (now : Int) (row : Row) : Row :=
  { row with
    status := .failed
    lastError := some ((expiredError row.lastError).take 500)
    updatedAt := now }

/-- The claim of the row has timed out. -/
def timedOut (now : Int) (row : Row) : Bool :=
  row.status = .processing ∧ row.updatedAt < now - processingTimeout

def due (now : Int) (row : Row) : Bool :=
  row.status = .pending ∧ row.nextRetryAt ≤ now ∨ row.timedOut now

/-- The order in which rows are sent. -/
def before (first second : Row) : Prop :=
  first.nextRetryAt < second.nextRetryAt ∨
    first.nextRetryAt = second.nextRetryAt ∧ first.id ≤ second.id

instance : DecidableRel before := fun first second => by
  unfold before
  infer_instance

/-- A row left in processing, with the attempt of its former worker counted. -/
def recovered (row : Row) : Row :=
  { row with
    retryCount := row.retryCount + 1
    limitedAttempts := row.limitedAttempts + 1
    lastError := some (recoveredError row.lastError) }

def exhausted (now : Int) (row : Row) : Row :=
  { row with
    status := .failed
    updatedAt := now
    lastError := some (row.lastError.getD [] ++ " [MAX RETRIES EXCEEDED after recovery]".toList) }

def claimed (now : Int) (row : Row) : Row :=
  { row with status := .processing, updatedAt := now }

end Row

namespace Queue

/-- `_finalize_retried_tests` -/
def finalizeRetriedTests (now : Int) (queue : Queue) : Queue :=
  { queue with
    rows := queue.rows.map fun row => if row.isRetriedTest then row.closedTest now else row }

/-- `_expire_stale` -/
def expireStale (now : Int) (queue : Queue) : Queue :=
  { queue with
    rows := queue.rows.map fun row => if row.isStale now then row.expiredRow now else row
    deliveries :=
      ((queue.rows.filter (Row.isStale now)).map (Row.expiredRow now)).foldl (deliver false)
        queue.deliveries }

/-- What may be claimed: due, on a path that is not blocked, not held back. -/
def isCandidate (now : Int) (queue : Queue) (row : Row) : Bool :=
  row.due now ∧ ¬ (queue.paths row.sqlKey).blocked row.sqlKey now ∧
    ¬ Row.heldBehindOpen queue.rows row

/-- The first rows of a channel, as many as its batch limit allows. -/
def ranked (channel : ChannelType) (candidates : List Row) : List Row :=
  ((candidates.filter fun row => row.channelType = channel).insertionSort Row.before).take
    (channelPolicy channel).batchLimit

def chosen (now : Int) (limit : Nat) (queue : Queue) : List Row :=
  let candidates := queue.rows.filter (queue.isCandidate now)
  ((ranked .signal candidates ++ ranked .email candidates).insertionSort Row.before).take limit

/-- Count the recovery of the stuck rows and fail the exhausted ones; returns these. -/
def recoverStuck (now : Int) (stuck : List Nat) (queue : Queue) : List Row × Queue :=
  let rows := queue.rows.map fun row => if row.id ∈ stuck then row.recovered else row
  let rows := rows.map fun row =>
    if row.id ∈ stuck ∧ maxRetries < row.limitedAttempts then row.exhausted now else row
  let failed := rows.filter fun row => row.id ∈ stuck ∧ row.status = .failed
  (failed, { queue with
    rows := rows, deliveries := failed.foldl (deliver false) queue.deliveries })

def claimRows (now : Int) (ids : List Nat) (queue : Queue) : Queue :=
  { queue with
    rows := queue.rows.map fun row =>
      if row.id ∈ ids ∧ row.due now then row.claimed now else row }

/-- `get_pending_items`, up to the parsing of the claimed rows. -/
def getPendingItems (now : Int) (limit : Nat) (queue : Queue) : List Row × Queue :=
  let queue := (queue.finalizeRetriedTests now).expireStale now
  let chosen := queue.chosen now limit
  let stuck := (chosen.filter fun row => row.status = .processing).map Row.id
  let recovery := queue.recoverStuck now stuck
  let ids := (chosen.map Row.id).filter fun id => id ∉ recovery.1.map Row.id
  let queue := recovery.2.claimRows now ids
  ((queue.rows.filter fun row => row.id ∈ ids).insertionSort
    fun first second => first.nextRetryAt ≤ second.nextRetryAt, queue)

end Queue

/-! ## What a claim does to a row -/

namespace Row

/-- How a row is claimed. -/
inductive TakenStep (now : Int) (row : Row) : Row → Prop where
  | recovered (hout : row.timedOut now = true) (hleft : row.limitedAttempts + 1 ≤ maxRetries) :
      TakenStep now row (row.recovered.claimed now)
  | pending (hpending : row.status = .pending) (hdue : row.nextRetryAt ≤ now)
      (hnew : row.isRetriedTest = false) (hfresh : row.isStale now = false) :
      TakenStep now row (row.claimed now)

/-- What `get_pending_items` can do to a row. -/
inductive ClaimStep (now : Int) (row : Row) : Row → Prop where
  | same : ClaimStep now row row
  | closed (hclosed : row.isRetriedTest = true) : ClaimStep now row (row.closedTest now)
  | expired (hstale : row.isStale now = true) : ClaimStep now row (row.expiredRow now)
  | exhausted (hout : row.timedOut now = true) (hspent : maxRetries < row.limitedAttempts + 1) :
      ClaimStep now row (row.recovered.exhausted now)
  | taken {next : Row} (htaken : TakenStep now row next) : ClaimStep now row next

/-- The row after the messages that can no longer be sent were failed. -/
def early (now : Int) (row : Row) : Row :=
  if row.isRetriedTest then row.closedTest now
  else if row.isStale now then row.expiredRow now else row

theorem id_early (now : Int) (row : Row) : (row.early now).id = row.id := by
  unfold early
  split
  · rfl
  · split <;> rfl

theorem early_step (now : Int) (row : Row) : ClaimStep now row (row.early now) := by
  unfold early
  split
  · exact .closed (by assumption)
  · split
    · exact .expired (by assumption)
    · exact .same

/-- A row that is due was not failed before. -/
theorem early_eq_of_due {now : Int} {row : Row} (hdue : (row.early now).due now = true) :
    row.early now = row ∧ row.isRetriedTest = false ∧ row.isStale now = false := by
  unfold early at hdue ⊢
  by_cases hclosed : row.isRetriedTest = true
  · simp [hclosed, due, timedOut, closedTest] at hdue
  · by_cases hstale : row.isStale now = true
    · simp [hclosed, hstale, due, timedOut, expiredRow] at hdue
    · simp [hclosed, hstale]

end Row

namespace Queue

variable {now : Int} {limit : Nat} {queue : Queue}

/-- The queue in which the candidates are looked for. -/
def expiredQueue (now : Int) (queue : Queue) : Queue :=
  (queue.finalizeRetriedTests now).expireStale now

theorem rows_expiredQueue (now : Int) (queue : Queue) :
    (queue.expiredQueue now).rows = queue.rows.map (Row.early now) := by
  simp only [expiredQueue, expireStale, finalizeRetriedTests, List.map_map]
  refine List.map_congr_left fun row _ => ?_
  by_cases hclosed : row.isRetriedTest = true
  · simp [Row.early, hclosed, Row.isStale, Row.closedTest]
  · simp [Row.early, hclosed]

theorem keyed_expiredQueue (hkeyed : Keyed Row.id queue.rows) :
    Keyed Row.id (queue.expiredQueue now).rows := by
  rw [rows_expiredQueue]
  exact hkeyed.map (Row.id_early now)

theorem mem_chosen {row : Row} (hrow : row ∈ queue.chosen now limit) :
    row ∈ queue.rows ∧ queue.isCandidate now row = true := by
  have hsorted := List.mem_of_mem_take hrow
  rw [List.mem_insertionSort, List.mem_append] at hsorted
  have hranked : ∀ {channel : ChannelType},
      row ∈ ranked channel (queue.rows.filter (queue.isCandidate now)) →
        row ∈ queue.rows ∧ queue.isCandidate now row = true := by
    intro channel hmem
    have hinner := List.mem_of_mem_take hmem
    rw [List.mem_insertionSort] at hinner
    exact List.mem_filter.mp (List.mem_filter.mp hinner).1
  exact hsorted.elim hranked hranked

/-- The ids of the chosen rows that were left in processing. -/
def stuckIds (now : Int) (limit : Nat) (queue : Queue) : List Nat :=
  (((queue.expiredQueue now).chosen now limit).filter fun row => row.status = .processing).map
    Row.id

/-- The row after its recovery was counted. -/
def recoverRow (now : Int) (stuck : List Nat) (row : Row) : Row :=
  let row := if row.id ∈ stuck then row.recovered else row
  if row.id ∈ stuck ∧ maxRetries < row.limitedAttempts then row.exhausted now else row

theorem rows_recoverStuck (now : Int) (stuck : List Nat) (queue : Queue) :
    (queue.recoverStuck now stuck).2.rows = queue.rows.map (recoverRow now stuck) := by
  simp only [recoverStuck, List.map_map]
  rfl

theorem id_recoverRow (now : Int) (stuck : List Nat) (row : Row) :
    (recoverRow now stuck row).id = row.id := by
  simp only [recoverRow]
  split <;> split <;> rfl

/-- The ids that are claimed. -/
def claimIds (now : Int) (limit : Nat) (queue : Queue) : List Nat :=
  (((queue.expiredQueue now).chosen now limit).map Row.id).filter fun id =>
    id ∉ ((queue.expiredQueue now).recoverStuck now (queue.stuckIds now limit)).1.map Row.id

/-- What a call of `get_pending_items` makes of a row. -/
def claimChange (now : Int) (limit : Nat) (queue : Queue) (row : Row) : Row :=
  let row := recoverRow now (queue.stuckIds now limit) (row.early now)
  if row.id ∈ queue.claimIds now limit ∧ row.due now then row.claimed now else row

theorem rows_getPendingItems (now : Int) (limit : Nat) (queue : Queue) :
    (queue.getPendingItems now limit).2.rows = queue.rows.map (queue.claimChange now limit) := by
  have hrows : (queue.getPendingItems now limit).2.rows =
      ((queue.expiredQueue now).recoverStuck now (queue.stuckIds now limit)).2.rows.map fun row =>
        if row.id ∈ queue.claimIds now limit ∧ row.due now then row.claimed now else row := rfl
  rw [hrows, rows_recoverStuck, rows_expiredQueue, List.map_map, List.map_map]
  rfl

theorem mem_getPendingItems {row : Row} :
    row ∈ (queue.getPendingItems now limit).1 ↔
      row ∈ (queue.getPendingItems now limit).2.rows ∧ row.id ∈ queue.claimIds now limit := by
  have hitems : (queue.getPendingItems now limit).1 =
      ((queue.getPendingItems now limit).2.rows.filter fun row =>
        row.id ∈ queue.claimIds now limit).insertionSort
          fun first second => first.nextRetryAt ≤ second.nextRetryAt := rfl
  rw [hitems, List.mem_insertionSort, List.mem_filter, decide_eq_true_iff]

theorem mem_stuckIds {id : Nat} :
    id ∈ queue.stuckIds now limit ↔
      ∃ row ∈ (queue.expiredQueue now).chosen now limit, row.status = .processing ∧ row.id = id := by
  simp [stuckIds, and_assoc]

/-- The rows that recovery fails. -/
theorem mem_recoverFailed {row : Row} :
    row ∈ ((queue.expiredQueue now).recoverStuck now (queue.stuckIds now limit)).1 ↔
      ∃ old ∈ (queue.expiredQueue now).rows,
        recoverRow now (queue.stuckIds now limit) old = row ∧
          row.id ∈ queue.stuckIds now limit ∧ row.status = .failed := by
  have hlist : ((queue.expiredQueue now).recoverStuck now (queue.stuckIds now limit)).1 =
      ((queue.expiredQueue now).recoverStuck now (queue.stuckIds now limit)).2.rows.filter
        fun row => row.id ∈ queue.stuckIds now limit ∧ row.status = .failed := rfl
  rw [hlist, rows_recoverStuck, List.mem_filter, List.mem_map, decide_eq_true_iff]
  constructor
  · rintro ⟨⟨old, hold, rfl⟩, hstuck⟩
    exact ⟨old, hold, rfl, hstuck⟩
  · rintro ⟨old, hold, rfl, hstuck⟩
    exact ⟨⟨old, hold, rfl⟩, hstuck⟩

theorem mem_recoverFailed_ids {id : Nat} :
    id ∈ ((queue.expiredQueue now).recoverStuck now (queue.stuckIds now limit)).1.map Row.id ↔
      ∃ row ∈ (queue.expiredQueue now).rows,
        (recoverRow now (queue.stuckIds now limit) row).status = .failed ∧
          row.id ∈ queue.stuckIds now limit ∧ row.id = id := by
  rw [List.mem_map]
  constructor
  · rintro ⟨row, hrow, hid⟩
    obtain ⟨old, hold, rfl, hstuck, hstatus⟩ := mem_recoverFailed.mp hrow
    rw [id_recoverRow] at hstuck hid
    exact ⟨old, hold, hstatus, hstuck, hid⟩
  · rintro ⟨row, hrow, hstatus, hstuck, hid⟩
    refine ⟨_, mem_recoverFailed.mpr ⟨row, hrow, rfl, ?_, hstatus⟩, ?_⟩
    · rw [id_recoverRow]
      exact hstuck
    · rw [id_recoverRow]
      exact hid

/-- The ids of the rows that recovery fails. -/
def spentIds (now : Int) (limit : Nat) (queue : Queue) : List Nat :=
  ((queue.expiredQueue now).recoverStuck now (queue.stuckIds now limit)).1.map Row.id

theorem mem_claimIds {id : Nat} :
    id ∈ queue.claimIds now limit ↔
      (∃ row ∈ (queue.expiredQueue now).chosen now limit, row.id = id) ∧
        id ∉ queue.spentIds now limit := by
  rw [claimIds, List.mem_filter, decide_eq_true_iff, List.mem_map]
  rfl

/-- The four ways a row can go through a call of `get_pending_items`. -/
inductive Passage (now : Int) (limit : Nat) (queue : Queue) (row : Row) : Prop where
  | left (hclaim : row.id ∉ queue.claimIds now limit) (hspent : row.id ∉ queue.spentIds now limit)
      (hstuck : row.id ∉ queue.stuckIds now limit)
      (hnext : queue.claimChange now limit row = row.early now)
  | exhausted (hclaim : row.id ∉ queue.claimIds now limit)
      (hspent : row.id ∈ queue.spentIds now limit) (hstuck : row.id ∈ queue.stuckIds now limit)
      (hout : row.timedOut now = true) (hlimit : maxRetries < row.limitedAttempts + 1)
      (hnext : queue.claimChange now limit row = row.recovered.exhausted now)
  | recovered (hspent : row.id ∉ queue.spentIds now limit)
      (hstuck : row.id ∈ queue.stuckIds now limit) (hout : row.timedOut now = true)
      (hlimit : row.limitedAttempts + 1 ≤ maxRetries)
      (hcandidate : (queue.expiredQueue now).isCandidate now row = true)
      (hnext : queue.claimChange now limit row = row.recovered.claimed now)
  | pending (hspent : row.id ∉ queue.spentIds now limit)
      (hstuck : row.id ∉ queue.stuckIds now limit) (hpending : row.status = .pending)
      (hdue : row.nextRetryAt ≤ now) (hnew : row.isRetriedTest = false)
      (hfresh : row.isStale now = false)
      (hcandidate : (queue.expiredQueue now).isCandidate now row = true)
      (hnext : queue.claimChange now limit row = row.claimed now)

/-- Every row takes one of the four ways. -/
theorem passage (hkeyed : Keyed Row.id queue.rows) {row : Row} (hrow : row ∈ queue.rows) :
    Passage now limit queue row := by
  have hkeyedEarly : Keyed Row.id (queue.expiredQueue now).rows := keyed_expiredQueue hkeyed
  have hmemEarly : row.early now ∈ (queue.expiredQueue now).rows := by
    rw [rows_expiredQueue]
    exact List.mem_map_of_mem hrow
  -- the chosen row with this id is this row
  have hsame : ∀ other ∈ (queue.expiredQueue now).chosen now limit, other.id = row.id →
      other = row.early now := fun other hother hid =>
    hkeyedEarly.eq_of_mem (mem_chosen hother).1 hmemEarly (hid.trans (Row.id_early now row).symm)
  have hspentStuck : row.id ∈ queue.spentIds now limit → row.id ∈ queue.stuckIds now limit := by
    intro hspent
    obtain ⟨other, -, -, hstuck, hid⟩ := mem_recoverFailed_ids.mp hspent
    exact hid ▸ hstuck
  by_cases hchosen : row.early now ∈ (queue.expiredQueue now).chosen now limit
  · obtain ⟨-, hcandidate⟩ := mem_chosen hchosen
    have hparts := hcandidate
    simp only [isCandidate, Bool.decide_and, Bool.and_eq_true, decide_eq_true_eq] at hparts
    have hdue := hparts.1
    obtain ⟨hearly, hnew, hfresh⟩ := Row.early_eq_of_due hdue
    rw [hearly] at hchosen hcandidate hdue hsame hmemEarly
    by_cases hprocessing : row.status = .processing
    · have hstuck : row.id ∈ queue.stuckIds now limit :=
        mem_stuckIds.mpr ⟨row, hchosen, hprocessing, rfl⟩
      have hout : row.timedOut now = true := by
        simpa [Row.due, hprocessing] using hdue
      by_cases hlimit : maxRetries < row.limitedAttempts + 1
      · have hchange : recoverRow now (queue.stuckIds now limit) row =
            row.recovered.exhausted now := by
          simp [recoverRow, hstuck, Row.recovered, hlimit]
        have hspent : row.id ∈ queue.spentIds now limit :=
          mem_recoverFailed_ids.mpr ⟨row, hmemEarly, by rw [hchange]; rfl, hstuck, rfl⟩
        have hclaim : row.id ∉ queue.claimIds now limit := fun hclaimed =>
          (mem_claimIds.mp hclaimed).2 hspent
        have hid : (row.recovered.exhausted now).id = row.id := rfl
        refine .exhausted hclaim hspent hstuck hout hlimit ?_
        simp only [claimChange, hearly, hchange, hid, hclaim, false_and, if_false]
      · have hchange : recoverRow now (queue.stuckIds now limit) row = row.recovered := by
          simp [recoverRow, hstuck, Row.recovered, hlimit]
        have hspent : row.id ∉ queue.spentIds now limit := by
          intro hspent
          obtain ⟨other, hother, hstatus, -, hid⟩ := mem_recoverFailed_ids.mp hspent
          obtain rfl := hkeyedEarly.eq_of_mem hother hmemEarly hid
          rw [hchange] at hstatus
          simp [Row.recovered, hprocessing] at hstatus
        have hclaimed : row.id ∈ queue.claimIds now limit :=
          mem_claimIds.mpr ⟨⟨row, hchosen, rfl⟩, hspent⟩
        have hdueRecovered : row.recovered.due now = true := hdue
        have hid : row.recovered.id = row.id := rfl
        refine .recovered hspent hstuck hout (by omega) hcandidate ?_
        simp [claimChange, hearly, hchange, hid, hclaimed, hdueRecovered]
    · have hpending : row.status = .pending ∧ row.nextRetryAt ≤ now := by
        simpa [Row.due, Row.timedOut, hprocessing] using hdue
      have hstuck : row.id ∉ queue.stuckIds now limit := by
        intro hstuck
        obtain ⟨other, hother, hstatus, hid⟩ := mem_stuckIds.mp hstuck
        rw [hsame other hother hid] at hstatus
        exact hprocessing hstatus
      have hspent : row.id ∉ queue.spentIds now limit := fun hspent => hstuck (hspentStuck hspent)
      have hchange : recoverRow now (queue.stuckIds now limit) row = row := by
        simp [recoverRow, hstuck]
      have hclaimed : row.id ∈ queue.claimIds now limit :=
        mem_claimIds.mpr ⟨⟨row, hchosen, rfl⟩, hspent⟩
      refine .pending hspent hstuck hpending.1 hpending.2 hnew hfresh hcandidate ?_
      simp [claimChange, hearly, hchange, hclaimed, hdue]
  · have hnone : ∀ other ∈ (queue.expiredQueue now).chosen now limit, other.id ≠ row.id :=
      fun other hother hid => hchosen (hsame other hother hid ▸ hother)
    have hstuck : row.id ∉ queue.stuckIds now limit := by
      intro hstuck
      obtain ⟨other, hother, -, hid⟩ := mem_stuckIds.mp hstuck
      exact hnone other hother hid
    have hclaim : row.id ∉ queue.claimIds now limit := by
      intro hclaimed
      obtain ⟨other, hother, hid⟩ := (mem_claimIds.mp hclaimed).1
      exact hnone other hother hid
    refine .left hclaim (fun hspent => hstuck (hspentStuck hspent)) hstuck ?_
    simp [claimChange, recoverRow, Row.id_early, hstuck, hclaim]

/-- A row that is claimed was free to be, and it is claimed now. -/
structure Taken (now : Int) (queue : Queue) (row next : Row) : Prop where
  step : Row.TakenStep now row next
  unblocked : (queue.paths row.sqlKey).blocked row.sqlKey now = false
  free : Row.heldBehindOpen (queue.expiredQueue now).rows row = false

theorem isCandidate_expiredQueue {row : Row}
    (hcandidate : (queue.expiredQueue now).isCandidate now row = true) :
    (queue.paths row.sqlKey).blocked row.sqlKey now = false ∧
      Row.heldBehindOpen (queue.expiredQueue now).rows row = false := by
  have hpaths : (queue.expiredQueue now).paths = queue.paths := rfl
  simp only [isCandidate, Bool.not_eq_true, Bool.decide_and, Bool.and_eq_true,
    decide_eq_true_eq, hpaths] at hcandidate
  exact hcandidate.2

/-- What a call of `get_pending_items` does to a row, and when the row is claimed. -/
theorem claimChange_step (hkeyed : Keyed Row.id queue.rows) {row : Row} (hrow : row ∈ queue.rows) :
    Row.ClaimStep now row (queue.claimChange now limit row) ∧
      (row.id ∈ queue.claimIds now limit →
        Taken now queue row (queue.claimChange now limit row)) := by
  cases @passage now limit queue hkeyed row hrow with
  | left hclaim hspent hstuck hnext =>
      rw [hnext]
      exact ⟨Row.early_step now row, fun hclaimed => absurd hclaimed hclaim⟩
  | exhausted hclaim hspent hstuck hout hlimit hnext =>
      rw [hnext]
      exact ⟨.exhausted hout hlimit, fun hclaimed => absurd hclaimed hclaim⟩
  | recovered hspent hstuck hout hlimit hcandidate hnext =>
      obtain ⟨hunblocked, hfree⟩ := isCandidate_expiredQueue hcandidate
      have htaken : Row.TakenStep now row (row.recovered.claimed now) := .recovered hout hlimit
      rw [hnext]
      exact ⟨.taken htaken, fun _ => ⟨htaken, hunblocked, hfree⟩⟩
  | pending hspent hstuck hpending hdue hnew hfresh hcandidate hnext =>
      obtain ⟨hunblocked, hfree⟩ := isCandidate_expiredQueue hcandidate
      have htaken : Row.TakenStep now row (row.claimed now) := .pending hpending hdue hnew hfresh
      rw [hnext]
      exact ⟨.taken htaken, fun _ => ⟨htaken, hunblocked, hfree⟩⟩

theorem id_claimChange (now : Int) (limit : Nat) (queue : Queue) (row : Row) :
    (queue.claimChange now limit row).id = row.id := by
  have hinner : (recoverRow now (queue.stuckIds now limit) (row.early now)).id = row.id := by
    rw [id_recoverRow, Row.id_early]
  simp only [claimChange]
  split
  · exact hinner
  · exact hinner

theorem keyed_getPendingItems (hkeyed : Keyed Row.id queue.rows) :
    Keyed Row.id (queue.getPendingItems now limit).2.rows := by
  rw [rows_getPendingItems]
  exact hkeyed.map (id_claimChange now limit queue)

/-- Every row of the result is a row of the queue that was claimed. -/
theorem getPendingItems_taken (hkeyed : Keyed Row.id queue.rows) {item : Row}
    (hitem : item ∈ (queue.getPendingItems now limit).1) :
    ∃ row ∈ queue.rows, Taken now queue row item := by
  obtain ⟨hmem, hid⟩ := mem_getPendingItems.mp hitem
  rw [rows_getPendingItems] at hmem
  obtain ⟨row, hrow, rfl⟩ := List.mem_map.mp hmem
  rw [id_claimChange] at hid
  exact ⟨row, hrow, (claimChange_step hkeyed hrow).2 hid⟩

theorem nodup_items (hkeyed : Keyed Row.id queue.rows) :
    ((queue.getPendingItems now limit).1.map Row.id).Nodup := by
  have hperm : ((queue.getPendingItems now limit).1).Perm
      ((queue.getPendingItems now limit).2.rows.filter fun row =>
        row.id ∈ queue.claimIds now limit) := List.perm_insertionSort _ _
  exact (hperm.map Row.id).nodup_iff.mpr ((keyed_getPendingItems hkeyed).filter _)

/-! ## The limits of a run -/

theorem countP_chosen_le (channel : ChannelType) :
    (queue.chosen now limit).countP (fun row => row.channelType = channel) ≤
      (channelPolicy channel).batchLimit := by
  have hlength : ∀ other : ChannelType,
      (ranked other (queue.rows.filter (queue.isCandidate now))).length ≤
        (channelPolicy other).batchLimit := fun other => List.length_take_le _ _
  have hchannel : ∀ other : ChannelType,
      ∀ row ∈ ranked other (queue.rows.filter (queue.isCandidate now)), row.channelType = other := by
    intro other row hrow
    have hsorted := List.mem_of_mem_take hrow
    rw [List.mem_insertionSort] at hsorted
    simpa using (List.mem_filter.mp hsorted).2
  have hnone : ∀ other : ChannelType, other ≠ channel →
      (ranked other (queue.rows.filter (queue.isCandidate now))).countP
        (fun row => row.channelType = channel) = 0 := by
    intro other hother
    rw [List.countP_eq_zero]
    intro row hrow hsame
    exact hother ((hchannel other row hrow).symm.trans (by simpa using hsame))
  refine ((List.take_sublist _ _).countP_le).trans ?_
  rw [(List.perm_insertionSort _ _).countP_eq, List.countP_append]
  cases channel with
  | signal =>
      rw [hnone .email (by decide), Nat.add_zero]
      exact (List.countP_le_length).trans (hlength .signal)
  | email =>
      rw [hnone .signal (by decide), Nat.zero_add]
      exact (List.countP_le_length).trans (hlength .email)

theorem channelType_claimChange (now : Int) (limit : Nat) (queue : Queue) (row : Row) :
    (queue.claimChange now limit row).channelType = row.channelType := by
  have hearly : (row.early now).channelType = row.channelType := by
    unfold Row.early
    split
    · rfl
    · split <;> rfl
  have hinner : (recoverRow now (queue.stuckIds now limit) (row.early now)).channelType =
      row.channelType := by
    simp only [recoverRow]
    split <;> split <;> exact hearly
  simp only [claimChange]
  split
  · exact hinner
  · exact hinner

/-- A run takes no more rows of a channel than its batch limit. -/
theorem countP_items_le (hkeyed : Keyed Row.id queue.rows) (channel : ChannelType) :
    ((queue.getPendingItems now limit).1).countP (fun row => row.channelType = channel) ≤
      (channelPolicy channel).batchLimit := by
  have hsubset : (((queue.getPendingItems now limit).1.filter fun row =>
        row.channelType = channel).map Row.id) ⊆
      (((queue.expiredQueue now).chosen now limit).filter fun row =>
        row.channelType = channel).map Row.id := by
    intro id hid
    obtain ⟨item, hitem, rfl⟩ := List.mem_map.mp hid
    obtain ⟨hitem, hitemChannel⟩ := List.mem_filter.mp hitem
    obtain ⟨hmem, hclaimed⟩ := mem_getPendingItems.mp hitem
    obtain ⟨⟨chosenRow, hchosen, hsameId⟩, -⟩ := mem_claimIds.mp hclaimed
    rw [rows_getPendingItems] at hmem
    obtain ⟨row, hrow, rfl⟩ := List.mem_map.mp hmem
    rw [id_claimChange] at hsameId ⊢
    rw [channelType_claimChange] at hitemChannel
    have hearly := (mem_chosen hchosen).1
    rw [rows_expiredQueue] at hearly
    obtain ⟨old, hold, rfl⟩ := List.mem_map.mp hearly
    rw [Row.id_early] at hsameId
    obtain rfl := hkeyed.eq_of_mem hold hrow hsameId
    refine List.mem_map.mpr ⟨old.early now, List.mem_filter.mpr ⟨hchosen, ?_⟩, Row.id_early now old⟩
    have hdue := (mem_chosen hchosen).2
    simp only [isCandidate, Bool.decide_and, Bool.and_eq_true, decide_eq_true_eq] at hdue
    rw [(Row.early_eq_of_due hdue.1).1]
    exact hitemChannel
  have hnodup : (((queue.getPendingItems now limit).1.filter fun row =>
      row.channelType = channel).map Row.id).Nodup :=
    (nodup_items hkeyed).sublist (List.filter_sublist.map Row.id)
  have hlength := (List.subperm_of_subset hnodup hsubset).length_le
  rw [List.length_map, List.length_map, ← List.countP_eq_length_filter,
    ← List.countP_eq_length_filter] at hlength
  exact hlength.trans (countP_chosen_le channel)

theorem length_items_le (hkeyed : Keyed Row.id queue.rows) :
    (queue.getPendingItems now limit).1.length ≤ limit := by
  have hsubset : ((queue.getPendingItems now limit).1.map Row.id) ⊆
      ((queue.expiredQueue now).chosen now limit).map Row.id := by
    intro id hid
    obtain ⟨item, hitem, rfl⟩ := List.mem_map.mp hid
    obtain ⟨⟨row, hrow, hsame⟩, -⟩ := mem_claimIds.mp (mem_getPendingItems.mp hitem).2
    exact hsame ▸ List.mem_map_of_mem hrow
  have hlength := (List.subperm_of_subset (nodup_items hkeyed) hsubset).length_le
  rw [List.length_map, List.length_map] at hlength
  exact hlength.trans (List.length_take_le _ _)

end Queue

end Justup.Spool
