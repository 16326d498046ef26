import Justup.Spool.Pacing

/-!
# Open before resolved

A claim passes over a resolved message as long as the open message of the same
alert, recipient and channel with a smaller row id is pending or processing.
The row ids tell which message was enqueued first.
-/

namespace Justup.Spool

open Lib Lib.Table Lib.Transition
open Alerts (EventType)

namespace System

/-- The second row reports that the alert of the first one is over. -/
structure Follows (opened resolved : Row) : Prop where
  sameAlert : opened.sameAlert resolved = true
  opened : opened.alertEvent = some .open
  resolved : resolved.alertEvent = some .resolved

/-- No open message is enqueued when the resolved message of its alert, recipient and
channel is in the queue already. -/
def OpenFirst (system : System) (act : SystemAct) : Prop :=
  match act with
  | .enqueue _ message =>
      system.queue.alertDuplicate message = none →
        system.queue.rows.all (fun row =>
          !((Queue.newRow system.clock system.clock message system.queue.nextId).sameAlert row &&
            (message.payload.alertEvent.getD .open = .open) &&
            (row.alertEvent = some .resolved))) = true
  | _ => True

instance (system : System) (act : SystemAct) : Decidable (OpenFirst system act) := by
  unfold OpenFirst
  split <;> infer_instance

/-- A worker took the row at some time, and still has it or leased it for a send. -/
def Started (system : System) (id : Nat) : Prop :=
  (∃ name, ∃ item ∈ (system.workers name).held, item.id = id) ∨ id ∈ system.attempts

structure Ordered (system : System) : Prop where
  sound : system.queue.Sound
  known : ∀ id, system.Started id → id < system.queue.nextId
  order : ∀ opened ∈ system.queue.rows, ∀ resolved ∈ system.queue.rows,
    Follows opened resolved → opened.id < resolved.id
  ended : ∀ opened ∈ system.queue.rows, ∀ resolved ∈ system.queue.rows,
    Follows opened resolved → system.Started resolved.id → opened.isFinal = true
  attempts : system.attempts.Pairwise fun first second =>
    ¬ ∃ resolved ∈ system.queue.rows, ∃ opened ∈ system.queue.rows,
      resolved.id = first ∧ opened.id = second ∧ Follows opened resolved

variable {system next : System} {name : Nat}

/-! ## Rows through a step -/

theorem alertId_kept {row later : Row} (hkept : row.Kept later) : later.alertId = row.alertId := by
  rw [Row.alertId, Row.alertId, hkept.payload]

theorem alertEvent_kept {row later : Row} (hkept : row.Kept later) :
    later.alertEvent = row.alertEvent := by
  rw [Row.alertEvent, Row.alertEvent, hkept.payload]

theorem follows_kept {opened resolved opened' resolved' : Row} (hopened : opened.Kept opened')
    (hresolved : resolved.Kept resolved') :
    Follows opened' resolved' ↔ Follows opened resolved := by
  have hsame : opened'.sameAlert resolved' = opened.sameAlert resolved := by
    simp only [Row.sameAlert, alertId_kept hopened, alertId_kept hresolved,
      hopened.notificationType, hresolved.notificationType, hopened.channelType,
      hresolved.channelType, hopened.recipientId, hresolved.recipientId]
  constructor
  · rintro ⟨hsame', hopen, hclosed⟩
    exact ⟨hsame ▸ hsame', (alertEvent_kept hopened) ▸ hopen,
      (alertEvent_kept hresolved) ▸ hclosed⟩
  · rintro ⟨hsame', hopen, hclosed⟩
    exact ⟨hsame.trans hsame', (alertEvent_kept hopened).trans hopen,
      (alertEvent_kept hresolved).trans hclosed⟩

theorem RowMove.final {act : SystemAct} {row later : Row} (hsound : system.queue.Sound)
    (hrow : row ∈ system.queue.rows) (hmove : RowMove system act row later)
    (hfinal : row.isFinal = true) : later.isFinal = true := by
  have hnotOpen : ¬ row.isOpen = true := fun hopen =>
    (Row.isOpen_iff_not_isFinal row).mp hopen hfinal
  cases hmove with
  | same => exact hfinal
  | closed hact htest => rfl
  | claimed hact =>
      rw [Row.isFinal, Queue.status_claimChange_of_final hsound.keyed hrow hfinal]
      exact hfinal
  | renewed hact hitems hid hprocessing hheld =>
      exact absurd (by simp [Row.isOpen, hprocessing]) hnotOpen
  | wrote hact hmarking hitems hid hadmits hkept hstamp =>
      exact absurd (isOpen_of_admits hadmits) hnotOpen
  | unparsed hact hrows hid => rfl

/-- A row that is claimed has its open message behind it. -/
theorem final_of_claim {now : Int} {limit : Nat} {queue : Queue} {opened resolved : Row}
    (hkeyed : Keyed Row.id queue.rows) (hopened : opened ∈ queue.rows)
    (hresolved : resolved ∈ queue.rows) (hfollows : Follows opened resolved)
    (hlt : opened.id < resolved.id) (hclaimed : resolved.id ∈ queue.claimIds now limit) :
    (queue.claimChange now limit opened).isFinal = true := by
  have hfree := ((Queue.claimChange_step hkeyed hresolved).2 hclaimed).free
  have hearly : (opened.early now).isOpen = false := by
    have hmem : opened.early now ∈ (queue.expiredQueue now).rows := by
      rw [Queue.rows_expiredQueue]
      exact List.mem_map_of_mem hopened
    have hkept := Row.early_kept now opened
    have hfollows' := (follows_kept hkept (.refl resolved)).mpr hfollows
    have hnone : ∀ other ∈ (queue.expiredQueue now).rows, ¬ (other.id < resolved.id ∧
        other.isOpen = true ∧ other.sameAlert resolved = true ∧ other.alertEvent = some .open) := by
      simpa [Row.heldBehindOpen, hfollows.resolved] using hfree
    by_contra hopen
    exact hnone _ hmem ⟨hkept.id ▸ hlt, by simpa using hopen, hfollows'.sameAlert,
      hfollows'.opened⟩
  have hsame : opened.isOpen = true → opened.early now ≠ opened := by
    intro hopen heq
    rw [heq, hopen] at hearly
    cases hearly
  cases @Queue.passage now limit queue hkeyed opened hopened with
  | left hclaim hspent hstuck hchange =>
      rw [hchange]
      by_contra hfinal
      rw [(Row.isOpen_iff_not_isFinal _).mpr hfinal] at hearly
      cases hearly
  | exhausted hclaim hspent hstuck hout hlimit hchange =>
      rw [hchange]
      rfl
  | recovered hspent hstuck hout hlimit hcandidate hchange =>
      have hprocessing : opened.status = .processing :=
        (by simpa [Row.timedOut] using hout : _ ∧ _).1
      refine absurd ?_ (hsame (by simp [Row.isOpen, hprocessing]))
      simp [Row.early, Row.isRetriedTest, Row.isStale, hprocessing]
  | pending hspent hstuck hpending hdue hnew hfresh hcandidate hchange =>
      refine absurd ?_ (hsame (by simp [Row.isOpen, hpending]))
      simp [Row.early, hnew, hfresh]

/-! ## Rows that were taken -/

theorem held_step {now : Int} {queue queue' : Queue} {worker worker' : Worker} {act : WorkerAct}
    (hwork : Worker.Step now queue worker act queue' worker') {item : Row}
    (hitem : item ∈ worker'.held) :
    (∃ old ∈ worker.held, old.id = item.id) ∨
      act = .claim ∧ item.id ∈ queue.claimIds now processBatchSize := by
  have hold : worker'.held ⊆ worker.held → (∃ old ∈ worker.held, old.id = item.id) ∨
      act = .claim ∧ item.id ∈ queue.claimIds now processBatchSize :=
    fun hsubset => .inl ⟨item, hsubset hitem, rfl⟩
  cases hwork with
  | claim hfree =>
      exact .inr ⟨rfl, (Queue.mem_getPendingItems.mp (mem_held_claimed.mp hitem)).2⟩
  | failUnparsable hrows => exact hold (by simp [Worker.held, hrows])
  | skipUnparsable hrows => exact hold (by simp [Worker.held, hrows])
  | defer hact => exact hold (List.Subset.refl _)
  | readWait hready hitems hwait => exact hold (List.Subset.refl _)
  | @renew mine row rest wake read hwaiting hitems hwake hrow hprocessing hheld =>
      rcases List.mem_append.mp hitem with hitem | hitem
      · exact .inl ⟨item, List.mem_append_left _ hitem, rfl⟩
      · rcases List.mem_cons.mp hitem with rfl | hitem
        · exact .inl ⟨mine, mem_held_of_items hitems, rfl⟩
        · refine .inl ⟨item, List.mem_append_right _ ?_, rfl⟩
          rw [hitems]
          exact List.mem_cons_of_mem _ hitem
  | lost hitems => exact hold (by simp [Worker.held, hitems])
  | recordAttempt hleased hitems => exact hold (List.Subset.refl _)
  | answer hsending => exact hold (List.Subset.refl _)
  | coolDown hfinishing hitems => exact hold (List.Subset.refl _)
  | write hmarking hitems => exact hold (by simp [Worker.held, hitems])
  | drop hitems => exact hold (by simp [Worker.held, hitems])
  | crash => exact hold (by simp [Worker.held, Worker.idle])

/-- A step leases nothing, or the row of an item that is in processing. -/
theorem attempts_step {act : SystemAct} (hstep : system.step act = some next) :
    next.attempts = system.attempts ∨
      ∃ name item row, item ∈ (system.workers name).held ∧
        system.queue.row? item.id = some row ∧ row.status = .processing ∧
        next.attempts = system.attempts ++ [item.id] := by
  cases act with
  | tick delay =>
      cases hstep
      exact .inl rfl
  | enqueue jitter message =>
      cases hstep
      exact .inl rfl
  | ensureTable =>
      cases hstep
      exact .inl rfl
  | work name act =>
      obtain ⟨queue, worker, hwork, rfl⟩ := step_work hstep
      have hnone : leasedBy act worker = none →
          (system.worked name act queue worker).attempts = system.attempts := by
        intro hleased
        simp [worked, hleased]
      cases hwork with
      | @renew item row rest wake read hwaiting hitems hwake hrow hprocessing hheld =>
          exact .inr ⟨name, item, row, mem_held_of_items hitems, hrow, hprocessing, rfl⟩
      | defer hact =>
          refine .inl (hnone ?_)
          rcases hact with rfl | rfl <;> rfl
      | claim hfree => exact .inl (hnone rfl)
      | failUnparsable hrows => exact .inl (hnone rfl)
      | skipUnparsable hrows => exact .inl (hnone rfl)
      | readWait hready hitems hwait => exact .inl (hnone rfl)
      | lost hitems => exact .inl (hnone rfl)
      | recordAttempt hleased hitems => exact .inl (hnone rfl)
      | answer hsending => exact .inl (hnone rfl)
      | coolDown hfinishing hitems => exact .inl (hnone rfl)
      | write hmarking hitems => exact .inl (hnone rfl)
      | drop hitems => exact .inl (hnone rfl)
      | crash => exact .inl (hnone rfl)

/-- A row is taken by a claim only. -/
theorem started_step {act : SystemAct} {id : Nat} (hstep : system.step act = some next)
    (hstarted : next.Started id) :
    system.Started id ∨ (∃ name, act = .work name .claim) ∧
      id ∈ system.queue.claimIds system.clock processBatchSize := by
  rcases hstarted with ⟨name, item, hitem, rfl⟩ | hattempt
  · rcases worker_step hstep name with hsame | ⟨act', queue, rfl, hwork⟩
    · rw [hsame] at hitem
      exact .inl (.inl ⟨name, item, hitem, rfl⟩)
    · rcases held_step hwork hitem with ⟨old, hold, hid⟩ | ⟨rfl, hclaimed⟩
      · exact .inl (.inl ⟨name, old, hold, hid⟩)
      · exact .inr ⟨⟨name, rfl⟩, hclaimed⟩
  · rcases attempts_step hstep with hsame | ⟨name, item, row, hitem, -, -, hnew⟩
    · rw [hsame] at hattempt
      exact .inl (.inr hattempt)
    · rw [hnew] at hattempt
      rcases List.mem_append.mp hattempt with hattempt | hattempt
      · exact .inl (.inr hattempt)
      · rw [List.mem_singleton.mp hattempt]
        exact .inl (.inl ⟨name, item, hitem, rfl⟩)

/-! ## The invariant -/

theorem Ordered.of_start (clock : Int) : (start clock Queue.empty).Ordered where
  sound := sound_empty
  known id hstarted := by
    rcases hstarted with ⟨name, item, hitem, -⟩ | hattempt
    · simp [start, Worker.idle, Worker.held] at hitem
    · simp [start] at hattempt
  order := by simp [start, Queue.empty]
  ended := by simp [start, Queue.empty]
  attempts := .nil

/-- The leases, for rows that a step leaves what they are. -/
theorem Ordered.attempts_next {act : SystemAct} (hordered : system.Ordered)
    (hstep : system.step act = some next)
    (hback : ∀ row ∈ next.queue.rows, row.id < system.queue.nextId →
      ∃ old ∈ system.queue.rows, old.Kept row) :
    next.attempts.Pairwise fun first second =>
      ¬ ∃ resolved ∈ next.queue.rows, ∃ opened ∈ next.queue.rows,
        resolved.id = first ∧ opened.id = second ∧ Follows opened resolved := by
  have hold : system.attempts.Pairwise fun first second =>
      ¬ ∃ resolved ∈ next.queue.rows, ∃ opened ∈ next.queue.rows,
        resolved.id = first ∧ opened.id = second ∧ Follows opened resolved := by
    refine hordered.attempts.imp_of_mem ?_
    rintro first second hfirst hsecond hnone ⟨resolved, hresolved, opened, hopened, rfl, rfl, hfollows⟩
    obtain ⟨resolved', hresolved', hkept'⟩ := hback _ hresolved (hordered.known _ (.inr hfirst))
    obtain ⟨opened', hopened', hkept⟩ := hback _ hopened (hordered.known _ (.inr hsecond))
    exact hnone ⟨resolved', hresolved', opened', hopened', hkept'.id.symm, hkept.id.symm,
      (follows_kept hkept hkept').mp hfollows⟩
  rcases attempts_step hstep with hsame | ⟨name, item, row, hitem, hrow, hprocessing, hnew⟩
  · rw [hsame]
    exact hold
  · rw [hnew, List.pairwise_append]
    refine ⟨hold, List.pairwise_singleton _ _, ?_⟩
    rintro first hfirst second hsecond ⟨resolved, hresolved, opened, hopened, rfl, hid, hfollows⟩
    rw [List.mem_singleton.mp hsecond] at hid
    obtain ⟨hmem, hrowId⟩ := mem_of_row? hrow
    have hknown : item.id < system.queue.nextId :=
      hordered.known _ (.inl ⟨name, item, hitem, rfl⟩)
    obtain ⟨resolved', hresolved', hkept'⟩ := hback _ hresolved (hordered.known _ (.inr hfirst))
    obtain ⟨opened', hopened', hkept⟩ := hback _ hopened (hid ▸ hknown)
    -- the open message in processing cannot have ended
    obtain rfl := hordered.sound.keyed.eq_of_mem hopened' hmem
      (hkept.id.symm.trans (hid.trans hrowId.symm))
    have hfinal := hordered.ended opened' hopened' resolved' hresolved'
      ((follows_kept hkept hkept').mp hfollows) (.inr (hkept'.id ▸ hfirst))
    simp [Row.isFinal, hprocessing] at hfinal

theorem Ordered.step {act : SystemAct} (hordered : system.Ordered) (hfirst : OpenFirst system act)
    (hstep : system.step act = some next) : next.Ordered := by
  have hsound := sound_step hordered.sound hstep
  rcases step_rows hordered.sound hstep with
    ⟨hnext, move, hrows, hmove⟩ | ⟨jitter, message, nextRetry, rfl, hnext, hrows⟩
  · have hback : ∀ row ∈ next.queue.rows, ∃ old ∈ system.queue.rows,
        old.Kept row ∧ RowMove system act old row := by
      intro row hrow
      rw [hrows] at hrow
      obtain ⟨old, hold, rfl⟩ := List.mem_map.mp hrow
      exact ⟨old, hold, (hmove old hold).kept, hmove old hold⟩
    refine ⟨hsound, ?_, ?_, ?_, ?_⟩
    · intro id hstarted
      rw [hnext]
      rcases started_step hstep hstarted with hold | ⟨-, hclaimed⟩
      · exact hordered.known id hold
      · obtain ⟨row, hchosen, rfl⟩ := (Queue.mem_claimIds.mp hclaimed).1
        have hmem := (Queue.mem_chosen hchosen).1
        rw [Queue.rows_expiredQueue] at hmem
        obtain ⟨old, hold, rfl⟩ := List.mem_map.mp hmem
        rw [Row.id_early]
        exact hordered.sound.fresh old hold
    · intro opened hopened resolved hresolved hfollows
      obtain ⟨opened', hopened', hkept, -⟩ := hback opened hopened
      obtain ⟨resolved', hresolved', hkept', -⟩ := hback resolved hresolved
      rw [hkept.id, hkept'.id]
      exact hordered.order opened' hopened' resolved' hresolved'
        ((follows_kept hkept hkept').mp hfollows)
    · intro opened hopened resolved hresolved hfollows hstarted
      obtain ⟨opened', hopened', hkept, hmoved⟩ := hback opened hopened
      obtain ⟨resolved', hresolved', hkept', -⟩ := hback resolved hresolved
      have hfollows' := (follows_kept hkept hkept').mp hfollows
      rw [hkept'.id] at hstarted
      rcases started_step hstep hstarted with hold | ⟨⟨name, rfl⟩, hclaimed⟩
      · exact hmoved.final hordered.sound hopened'
          (hordered.ended opened' hopened' resolved' hresolved' hfollows' hold)
      · have hfinal := final_of_claim hordered.sound.keyed hopened' hresolved' hfollows'
          (hordered.order opened' hopened' resolved' hresolved' hfollows') hclaimed
        have hclaim : next.queue.rows = system.queue.rows.map
            (system.queue.claimChange system.clock processBatchSize) := by
          obtain ⟨queue, worker, hwork, rfl⟩ := step_work hstep
          cases hwork with
          | claim hfree => exact Queue.rows_getPendingItems _ _ _
          | defer hact => rcases hact with hact | hact <;> cases hact
        have hmem : system.queue.claimChange system.clock processBatchSize opened' ∈
            next.queue.rows := hclaim ▸ List.mem_map_of_mem hopened'
        rwa [hsound.keyed.eq_of_mem hopened hmem
          (hkept.id.trans (Queue.id_claimChange _ _ _ _).symm)]
    · exact hordered.attempts_next hstep fun row hrow _ =>
        (hback row hrow).imp fun old hold => ⟨hold.1, hold.2.1⟩
  · let new := Queue.newRow system.clock nextRetry message system.queue.nextId
    have hcases : ∀ row ∈ next.queue.rows, row ∈ system.queue.rows ∨ row = new := by
      intro row hrow
      rw [hrows] at hrow
      rcases List.mem_append.mp hrow with hold | hnew
      · exact .inl hold
      · exact .inr (List.mem_singleton.mp hnew)
    have hstarted : ∀ id, next.Started id → system.Started id := by
      intro id hnow
      rcases started_step hstep hnow with hold | ⟨⟨name, hact⟩, -⟩
      · exact hold
      · cases hact
    -- the new row is not the open message of a row that is there
    have hlate : ∀ resolved ∈ system.queue.rows, ¬ Follows new resolved := by
      intro resolved hresolved hfollows
      cases hduplicate : system.queue.alertDuplicate message with
      | some row =>
          cases hstep
          simp only [QueueAct.perform, Queue.enqueue, hduplicate] at hrows
          simpa using congrArg List.length hrows
      | none =>
          have hnone := List.all_eq_true.mp (hfirst hduplicate) resolved hresolved
          have hopen : message.payload.alertEvent.getD .open = .open :=
            Option.some.inj hfollows.opened
          have hsame : (Queue.newRow system.clock system.clock message
              system.queue.nextId).sameAlert resolved = true := hfollows.sameAlert
          simp [hsame, hopen, hfollows.resolved] at hnone
    have hself : ¬ Follows new new := by
      intro hfollows
      have hclash := hfollows.opened.symm.trans hfollows.resolved
      cases hclash
    refine ⟨hsound, ?_, ?_, ?_, ?_⟩
    · intro id hnow
      rw [hnext]
      exact (hordered.known id (hstarted id hnow)).trans (Nat.lt_succ_self _)
    · intro opened hopened resolved hresolved hfollows
      rcases hcases opened hopened with hold | rfl
      · rcases hcases resolved hresolved with hold' | rfl
        · exact hordered.order opened hold resolved hold' hfollows
        · exact hordered.sound.fresh opened hold
      · rcases hcases resolved hresolved with hold' | rfl
        · exact absurd hfollows (hlate resolved hold')
        · exact absurd hfollows hself
    · intro opened hopened resolved hresolved hfollows hnow
      have hknown := hordered.known _ (hstarted _ hnow)
      rcases hcases resolved hresolved with hold' | rfl
      · rcases hcases opened hopened with hold | rfl
        · exact hordered.ended opened hold resolved hold' hfollows (hstarted _ hnow)
        · exact absurd hfollows (hlate resolved hold')
      · exact absurd hknown (lt_irrefl _)
    · refine hordered.attempts_next hstep fun row hrow hlt => ?_
      rcases hcases row hrow with hold | rfl
      · exact ⟨row, hold, .refl row⟩
      · exact absurd hlt (lt_irrefl _)

def resolvedMessage : Queue.Message :=
  { openMessage with payload := ⟨some 7, some .resolved, none, []⟩ }

def sentResult : DeliveryResult := ⟨.sent, [], none, false, none⟩

end System

end Justup.Spool
