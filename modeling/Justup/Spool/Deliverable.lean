import Justup.Spool.Precedence

/-!
# What is claimed can still be delivered

The expiry of old messages and the end of retried tests look at pending rows
only.  A row that a crash left in processing goes to recovery, which looks at
neither.
-/

namespace Justup.Spool

open Lib Lib.Table Lib.Transition

namespace Row

/-- The message is as old as its validity. -/
def outOfDate (now : Int) (row : Row) : Bool := messageValidity ≤ now - row.createdAt

/-- A row left in processing that recovery must not hand out again. -/
def unfitForRecovery (now : Int) (row : Row) : Bool :=
  row.timedOut now ∧ (row.outOfDate now ∨ row.notificationType = .test)

end Row

namespace System

/-- A claim finds no row left in processing that is out of date or a test, no pending
row exactly as old as the validity, and due rows whose key is the same in SQL. -/
def ClaimSafe (system : System) (act : SystemAct) : Prop :=
  match act with
  | .work _ .claim =>
      system.queue.rows.all (fun row =>
        !row.unfitForRecovery system.clock &&
          !(row.status = .pending && system.clock - row.createdAt = messageValidity) &&
          (!row.due system.clock || row.sqlKey = row.itemKey)) = true
  | _ => True

instance (system : System) (act : SystemAct) : Decidable (ClaimSafe system act) := by
  unfold ClaimSafe
  split <;> infer_instance

/-- The condition on a step: the writes are a holder's own and claims are safe. -/
def Careful (system : System) (act : SystemAct) : Prop :=
  WritesOwn system act ∧ ClaimSafe system act

instance (system : System) (act : SystemAct) : Decidable (Careful system act) :=
  inferInstanceAs (Decidable (_ ∧ _))

variable {system next : System} {name : Nat}

theorem ClaimSafe.of_mem {row : Row} (hsafe : ClaimSafe system (.work name .claim))
    (hrow : row ∈ system.queue.rows) :
    row.unfitForRecovery system.clock = false ∧
      (row.status = .pending → system.clock - row.createdAt ≠ messageValidity) ∧
      (row.due system.clock = true → row.sqlKey = row.itemKey) := by
  have hall := List.all_eq_true.mp hsafe row hrow
  simp only [Bool.and_eq_true, Bool.not_eq_true', Bool.or_eq_true, decide_eq_true_eq,
    Bool.and_eq_false_iff, decide_eq_false_iff_not] at hall
  obtain ⟨⟨hfit, hage⟩, hkey⟩ := hall
  refine ⟨hfit, fun hpending hexact => ?_, fun hdue => ?_⟩
  · rcases hage with hage | hage
    · exact hage hpending
    · exact hage hexact
  · rcases hkey with hkey | hkey
    · rw [hdue] at hkey
      cases hkey
    · exact hkey

/-- A row that may be claimed and is taken is young and no test that was tried. -/
theorem young_of_taken {now : Int} {row item : Row} (htaken : Row.TakenStep now row item)
    (hfit : row.unfitForRecovery now = false)
    (hage : row.status = .pending → now - row.createdAt ≠ messageValidity) :
    now - item.createdAt < messageValidity ∧ item.retriedTest = false := by
  cases htaken with
  | recovered hout hleft =>
      have hparts : ¬ messageValidity ≤ now - row.createdAt ∧ row.notificationType ≠ .test := by
        simpa [Row.unfitForRecovery, Row.outOfDate, hout] using hfit
      refine ⟨not_le.mp hparts.1, ?_⟩
      simp [Row.retriedTest, Row.claimed, Row.recovered, hparts.2]
  | pending hpending hdue hnew hfresh =>
      have hrecent : ¬ row.createdAt < now - messageValidity := by
        simpa [Row.isStale, hpending] using hfresh
      have hexact := hage hpending
      refine ⟨?_, ?_⟩
      · change now - row.createdAt < messageValidity
        omega
      · have htest : row.retriedTest = false := by simpa [Row.isRetriedTest, hpending] using hnew
        exact htest

theorem due_of_taken {now : Int} {row item : Row} (htaken : Row.TakenStep now row item) :
    row.due now = true := by
  cases htaken with
  | recovered hout hleft => simp [Row.due, hout]
  | pending hpending hdue hnew hfresh => simp [Row.due, hpending, hdue]

theorem taken_kept {now : Int} {row item : Row} (htaken : Row.TakenStep now row item) :
    row.Kept item := by
  cases htaken with
  | recovered hout hleft => exact ⟨rfl, rfl, rfl, rfl, rfl, rfl⟩
  | pending hpending hdue hnew hfresh => exact ⟨rfl, rfl, rfl, rfl, rfl, rfl⟩

/-- A pending or abandoned row that must not be sent any more fails. -/
theorem failed_of_unfit {now : Int} {limit : Nat} {queue : Queue} {row : Row}
    (hkeyed : Keyed Row.id queue.rows) (hrow : row ∈ queue.rows)
    (hstatus : row.status = .pending ∨ row.timedOut now = true)
    (hunfit : row.outOfDate now = true ∨ row.retriedTest = true)
    (hfit : row.unfitForRecovery now = false)
    (hage : row.status = .pending → now - row.createdAt ≠ messageValidity) :
    (queue.claimChange now limit row).status = .failed := by
  -- a row left in processing is fit, so the row is pending
  have hpending : row.status = .pending := by
    rcases hstatus with hpending | hout
    · exact hpending
    · have hparts : ¬ row.outOfDate now = true ∧ row.notificationType ≠ .test := by
        simpa [Row.unfitForRecovery, hout] using hfit
      rcases hunfit with hold | htest
      · exact absurd hold hparts.1
      · exact absurd (by simpa [Row.retriedTest] using htest : _ ∧ _).1 hparts.2
  have hfails : row.isRetriedTest = true ∨ row.isStale now = true := by
    rcases hunfit with hold | htest
    · have hlong : messageValidity ≤ now - row.createdAt := by simpa [Row.outOfDate] using hold
      have hexact := hage hpending
      refine .inr ?_
      simp only [Row.isStale, hpending, true_and, decide_eq_true_eq]
      omega
    · exact .inl (by simp [Row.isRetriedTest, hpending, htest])
  have hprocessing : row.timedOut now = false := by simp [Row.timedOut, hpending]
  cases @Queue.passage now limit queue hkeyed row hrow with
  | left hclaim hspent hstuck hchange =>
      rw [hchange, Row.early]
      rcases hfails with hclosed | hstale
      · rw [if_pos hclosed]
        rfl
      · rw [if_pos hstale]
        split <;> rfl
  | exhausted hclaim hspent hstuck hout hlimit hchange =>
      rw [hprocessing] at hout
      cases hout
  | recovered hspent hstuck hout hlimit hcandidate hchange =>
      rw [hprocessing] at hout
      cases hout
  | pending hspent hstuck hstill hdue hnew hfresh hcandidate hchange =>
      rcases hfails with hclosed | hstale
      · rw [hnew] at hclosed
        cases hclosed
      · rw [hfresh] at hstale
        cases hstale

theorem careful_owned {clock : Int} {queue : Queue} {acts : List SystemAct} {final : System}
    (hsound : queue.Sound) (hok : RunOk System.step Careful (start clock queue) acts)
    (hrun : run System.step (start clock queue) acts = some final) : final.Owned :=
  run_invariant_of (fun howned hcareful hstep => howned.step hcareful.1 hstep) hok
    (.of_start hsound) hrun

/-- What another worker still holds is claimed only after its claim has timed out. -/
theorem Owned.lapsed_of_taken {row item theirs : Row} {other : Nat} (howned : system.Owned)
    (hrow : row ∈ system.queue.rows) (htaken : Row.TakenStep system.clock row item)
    (htheirs : theirs ∈ (system.workers other).held) (hid : theirs.id = item.id) :
    theirs.updatedAt + processingTimeout < system.clock := by
  have hfound : system.queue.row? theirs.id = some row := by
    rw [hid, (taken_kept htaken).id]
    exact row?_of_mem howned.sound.keyed hrow
  rcases (howned.holding other theirs htheirs).of_row hfound with
    ⟨hprocessing, hstamp, -⟩ | ⟨hlapsed, -⟩
  · cases htaken with
    | recovered hout hleft =>
        have hlate := (by simpa [Row.timedOut] using hout : _ ∧ _).2
        omega
    | pending hpending hdue hnew hfresh =>
        rw [hpending] at hprocessing
        cases hprocessing
  · exact hlapsed

/-- In every run of careful steps: what a worker claims is younger than the validity, no
test message that was tried, on no path in cooldown and held by no other worker
whose claim is in force; a run keeps the batch limits; and a pending or abandoned
message that is out of date or a retried test fails. -/
theorem claimed_items_are_deliverable {clock : Int} {queue : Queue} {acts : List SystemAct}
    {name : Nat} {before after : System} (hsound : queue.Sound)
    (hok : RunOk System.step Careful (start clock queue) (acts ++ [.work name .claim]))
    (hrun : run System.step (start clock queue) acts = some before)
    (hstep : before.step (.work name .claim) = some after) :
    (∀ item ∈ (after.workers name).held,
      before.clock - item.createdAt < messageValidity ∧ item.retriedTest = false ∧
      (before.queue.paths item.itemKey).inCooldown before.clock = false ∧
      ∀ other, ∀ theirs ∈ (before.workers other).held, theirs.id = item.id →
        theirs.updatedAt + processingTimeout < before.clock) ∧
    (∀ channel : ChannelType, (after.workers name).held.countP
      (fun item => item.channelType = channel) ≤ (channelPolicy channel).batchLimit) ∧
    (after.workers name).held.length ≤ processBatchSize ∧
    ∀ row ∈ before.queue.rows, row.status = .pending ∨ row.timedOut before.clock = true →
      row.outOfDate before.clock = true ∨ row.retriedTest = true →
      ∃ failed ∈ after.queue.rows, failed.id = row.id ∧ failed.status = .failed := by
  obtain ⟨hokActs, hokStep⟩ := hok.split hrun
  have howned := careful_owned hsound hokActs hrun
  have hsafe : ClaimSafe before (.work name .claim) := hokStep.1.2
  have hkeyed := howned.sound.keyed
  obtain ⟨queue', worker, hwork, rfl⟩ := step_work hstep
  rw [workers_worked, if_pos rfl]
  cases hwork with
  | defer hact => rcases hact with hact | hact <;> cases hact
  | claim hfree =>
      refine ⟨fun item hitem => ?_, fun channel => ?_, ?_, fun row hrow hstatus hunfit => ?_⟩
      · obtain ⟨row, hrow, htaken⟩ :=
          Queue.getPendingItems_taken hkeyed (mem_held_claimed.mp hitem)
        obtain ⟨hfit, hage, hkey⟩ := hsafe.of_mem hrow
        obtain ⟨hyoung, htest⟩ := young_of_taken htaken.step hfit hage
        refine ⟨hyoung, htest, ?_, fun other theirs htheirs hid =>
          howned.lapsed_of_taken hrow htaken.step htheirs hid⟩
        have hkept := taken_kept htaken.step
        have hpath : item.itemKey = row.sqlKey := by
          rw [hkey (due_of_taken htaken.step), Row.itemKey, Row.itemKey, hkept.channelType,
            hkept.payload]
        have hunblocked := htaken.unblocked
        rw [PathState.blocked, Bool.or_eq_false_iff] at hunblocked
        rw [hpath]
        exact hunblocked.1
      · rw [(perm_held_claimed _).countP_eq]
        exact Queue.countP_items_le hkeyed channel
      · rw [(perm_held_claimed _).length_eq]
        exact Queue.length_items_le hkeyed
      · obtain ⟨hfit, hage, -⟩ := hsafe.of_mem hrow
        refine ⟨before.queue.claimChange before.clock processBatchSize row, ?_,
          Queue.id_claimChange _ _ _ _,
          failed_of_unfit hkeyed hrow hstatus hunfit hfit hage⟩
        change _ ∈ (before.queue.getPendingItems before.clock processBatchSize).2.rows
        rw [Queue.rows_getPendingItems]
        exact List.mem_map_of_mem hrow

/-- A day-old message fails, and a fresh one is claimed. -/
theorem claimed_items_are_deliverable_day_later :
    ∃ before after : System, (after.workers 0).held.map Row.id = [2] ∧
      (∀ item ∈ (after.workers 0).held,
        before.clock - item.createdAt < messageValidity ∧ item.retriedTest = false) ∧
      ∃ failed ∈ after.queue.rows, failed.id = 1 ∧ failed.status = .failed := by
  let acts : List SystemAct :=
    [.enqueue 0 openMessage, .tick 90000000000,
      .enqueue 0 { openMessage with recipientId := some 2 }]
  have hany : (run System.step (start 0 Queue.empty) acts).any (fun before =>
      (before.step (.work 0 .claim)).any fun after =>
        before.queue.rows.any fun row =>
          decide (row.id = 1 ∧ row.status = .pending ∧ row.outOfDate before.clock = true ∧
            (after.workers 0).held.map Row.id = [2])) = true := by
    decide +kernel
  obtain ⟨before, hrun, hbefore⟩ := (Option.any_eq_true ..).mp hany
  obtain ⟨after, hstep, hafter⟩ := (Option.any_eq_true ..).mp hbefore
  obtain ⟨row, hrow, hrest⟩ := List.any_eq_true.mp hafter
  obtain ⟨hid, hpending, hold, hheld⟩ := of_decide_eq_true hrest
  have hok : RunOk System.step Careful (start 0 Queue.empty) (acts ++ [.work 0 .claim]) := by
    decide +kernel
  obtain ⟨hitems, -, -, hfails⟩ := claimed_items_are_deliverable sound_empty hok hrun hstep
  obtain ⟨failed, hfailed, hsame, hstatus⟩ := hfails row hrow (.inl hpending) (.inl hold)
  exact ⟨before, after, hheld, fun item hitem => ⟨(hitems item hitem).1, (hitems item hitem).2.1⟩,
    failed, hfailed, hsame.trans hid, hstatus⟩

/-- A worker crashed with a message, and the next claim a day later hands it out. -/
theorem abandoned_message_outlives_validity :
    ¬ ∀ (acts : List SystemAct) (name : Nat) (before after : System),
      run System.step (start 0 Queue.empty) acts = some before →
      before.step (.work name .claim) = some after →
      ∀ item ∈ (after.workers name).held, before.clock - item.createdAt < messageValidity := by
  intro hclaim
  let acts : List SystemAct :=
    [.enqueue 0 openMessage, .work 0 .claim, .work 0 .crash, .tick 90000000000]
  have hany : (run System.step (start 0 Queue.empty) acts).any (fun before =>
      (before.step (.work 0 .claim)).any fun after =>
        (after.workers 0).held.any fun item =>
          decide (¬ before.clock - item.createdAt < messageValidity)) = true := by
    decide +kernel
  obtain ⟨before, hrun, hbefore⟩ := (Option.any_eq_true ..).mp hany
  obtain ⟨after, hstep, hafter⟩ := (Option.any_eq_true ..).mp hbefore
  obtain ⟨item, hitem, hold⟩ := List.any_eq_true.mp hafter
  exact of_decide_eq_true hold (hclaim acts 0 before after hrun hstep item hitem)

end System

end Justup.Spool
