import Justup.Spool.Workers

/-!
# Claims as leases

The stamp that a worker put on a row is its lease.  While it has not timed out
the row is the worker's; afterwards another worker may have taken the row, which
then carries a later stamp.
-/

namespace Justup.Spool

open Lib Lib.Table Lib.Transition

namespace System

/-- The claim on an item is in force, or it has timed out and nobody can mistake it. -/
def Holding (system : System) (name : Nat) (item : Row) : Prop :=
  ∃ row, system.queue.row? item.id = some row ∧
    (row.status = .processing ∧ row.updatedAt = item.updatedAt ∧
        system.holder item.id = some name ∨
      item.updatedAt + processingTimeout < system.clock ∧
        (row.isFinal = true ∨ item.updatedAt + processingTimeout < row.updatedAt))

structure Owned (system : System) : Prop where
  sound : system.queue.Sound
  nodup : ∀ name, ((system.workers name).held.map Row.id).Nodup
  holding : ∀ name, ∀ item ∈ (system.workers name).held, system.Holding name item

/-- A write of an outcome that the status lets through finds the stamp that its worker
put on the row last; so does the write for an unparsable row that has not failed. -/
def WritesOwn (system : System) (act : SystemAct) : Prop :=
  match act with
  | .work name (.write jitter) =>
      match (system.workers name).stage, (system.workers name).items with
      | .marking result, item :: _ =>
          (system.queue.row? item.id).all (fun row =>
            !(Queue.outcomeWrite item result jitter).admits row ||
              row.updatedAt = item.updatedAt) = true
      | _, _ => True
  | .work name (.failUnparsable true _) =>
      match (system.workers name).unparsable with
      | item :: _ =>
          (system.queue.row? item.id).all (fun row =>
            row.status = .failed ∨
              row.status = .processing ∧ row.updatedAt = item.updatedAt) = true
      | [] => True
  | _ => True

instance (system : System) (act : SystemAct) : Decidable (WritesOwn system act) := by
  unfold WritesOwn
  split
  · split <;> infer_instance
  · split <;> infer_instance
  · infer_instance

variable {system next : System} {name other : Nat} {item : Row}

/-! ## What keeps a claim -/

theorem Holding.of_row {row : Row} (hholding : system.Holding name item)
    (hrow : system.queue.row? item.id = some row) :
    row.status = .processing ∧ row.updatedAt = item.updatedAt ∧
        system.holder item.id = some name ∨
      item.updatedAt + processingTimeout < system.clock ∧
        (row.isFinal = true ∨ item.updatedAt + processingTimeout < row.updatedAt) := by
  obtain ⟨found, hfound, hcase⟩ := hholding
  rw [hrow] at hfound
  cases hfound
  exact hcase

theorem Holding.frame (hholding : system.Holding name item)
    (hrow : next.queue.row? item.id = system.queue.row? item.id)
    (hclock : system.clock ≤ next.clock)
    (hholder : next.holder item.id = system.holder item.id) : next.Holding name item := by
  obtain ⟨row, hfound, hcase⟩ := hholding
  refine ⟨row, hrow.trans hfound, ?_⟩
  rw [hholder]
  rcases hcase with hcase | ⟨hlapsed, hcase⟩
  · exact .inl hcase
  · exact .inr ⟨by omega, hcase⟩

/-- A claim that timed out stays so when the row is written now, or ends. -/
theorem Holding.lapsed {row : Row} (hrow : next.queue.row? item.id = some row)
    (hlapsed : item.updatedAt + processingTimeout < next.clock)
    (hcase : row.isFinal = true ∨ item.updatedAt + processingTimeout < row.updatedAt) :
    next.Holding name item :=
  ⟨row, hrow, .inr ⟨hlapsed, hcase⟩⟩

/-- The worker whose stamp is on an open row is the one that claimed it last; for
every other the claim has timed out. -/
theorem Owned.holder_of_stamp {mine theirs row : Row} (howned : system.Owned)
    (hmine : mine ∈ (system.workers name).held) (hrow : system.queue.row? mine.id = some row)
    (hopen : row.isOpen = true) (hstamp : row.updatedAt = mine.updatedAt)
    (htheirs : theirs ∈ (system.workers other).held) (hid : theirs.id = mine.id) :
    system.holder mine.id = some name ∧ row.status = .processing ∧
      (other = name ∨ theirs.updatedAt + processingTimeout < system.clock) := by
  rcases (howned.holding name mine hmine).of_row hrow with
    ⟨hprocessing, -, hholder⟩ | ⟨-, hfinal | hlater⟩
  · refine ⟨hholder, hprocessing, ?_⟩
    rw [← hid] at hrow hholder
    rcases (howned.holding other theirs htheirs).of_row hrow with
      ⟨-, -, hholder'⟩ | ⟨hlapsed, -⟩
    · rw [hholder] at hholder'
      exact .inl (Option.some.inj hholder').symm
    · exact .inr hlapsed
  · exact absurd hfinal ((Row.isOpen_iff_not_isFinal row).mp hopen)
  · have htimeout : 0 < processingTimeout := by decide
    omega

theorem row?_change_ne {queue : Queue} {f : Row → Row} (hf : ∀ row, (f row).id = row.id)
    {id id' : Nat} (hne : id' ≠ id) : (queue.change id f).row? id' = queue.row? id' := by
  have hrow := row?_update hf id id' queue.rows
  rwa [if_neg hne] at hrow

/-! ## Steps -/

section Steps

variable {act : WorkerAct} {queue : Queue} {worker : Worker}

theorem workers_worked :
    (system.worked name act queue worker).workers other =
      if other = name then worker else system.workers other := by
  simp only [worked, Function.update_apply]

/-- A step that claims and renews nothing, by what it leaves of the claims. -/
theorem Owned.shrink (howned : system.Owned) (hsound : queue.Sound)
    (hheld : worker.held.Sublist (system.workers name).held) (htaken : takenBy act worker = [])
    (hholding : ∀ other, ∀ item ∈ (system.workers other).held,
      (other = name → item ∈ worker.held) →
      (system.worked name act queue worker).holder item.id = system.holder item.id →
      system.Holding other item → (system.worked name act queue worker).Holding other item) :
    (system.worked name act queue worker).Owned where
  sound := hsound
  nodup other := by
    rw [workers_worked]
    split
    · exact (howned.nodup name).sublist (hheld.map Row.id)
    · exact howned.nodup other
  holding other item hitem := by
    have hholder : (system.worked name act queue worker).holder item.id =
        system.holder item.id := by
      simp [worked, htaken]
    rw [workers_worked] at hitem
    split at hitem
    · rename_i hname
      subst hname
      have hold := hheld.subset hitem
      exact hholding other item hold (fun _ => hitem) hholder (howned.holding other item hold)
    · rename_i hname
      exact hholding other item hitem (fun h => absurd h hname) hholder
        (howned.holding other item hitem)

/-- A step that leaves the rows alone. -/
theorem Owned.quiet (howned : system.Owned) (hsound : queue.Sound)
    (hrows : queue.rows = system.queue.rows)
    (hheld : worker.held.Sublist (system.workers name).held) (htaken : takenBy act worker = []) :
    (system.worked name act queue worker).Owned := by
  refine howned.shrink hsound hheld htaken fun other item hitem _ hholder hholding => ?_
  refine hholding.frame ?_ (le_refl _) hholder
  simp only [worked, Queue.row?, hrows]

/-- A step that writes the row of an item which the worker then lets go. -/
theorem Owned.settle {mine : Row} {f : Row → Row} {before after : List Row}
    (howned : system.Owned) (hsound : queue.Sound) (hf : ∀ row, (f row).id = row.id)
    (hrows : queue.rows = (system.queue.change mine.id f).rows)
    (hbefore : (system.workers name).held = before ++ mine :: after)
    (hafter : worker.held = before ++ after) (htaken : takenBy act worker = [])
    (hlapsed : ∀ other, other ≠ name → ∀ item ∈ (system.workers other).held, item.id = mine.id →
      ∀ row, system.queue.row? mine.id = some row →
      item.updatedAt + processingTimeout < system.clock ∧
        ((f row).isFinal = true ∨ item.updatedAt + processingTimeout < (f row).updatedAt)) :
    (system.worked name act queue worker).Owned := by
  have hperm : (system.workers name).held.Perm (mine :: (before ++ after)) := by
    rw [hbefore]
    exact List.perm_middle
  have hnodup := (hperm.map Row.id).nodup_iff.mp (howned.nodup name)
  have hrowOf : ∀ id, (system.worked name act queue worker).queue.row? id =
      (system.queue.change mine.id f).row? id := by
    intro id
    simp only [worked, Queue.row?, hrows]
  refine howned.shrink hsound ?_ htaken fun other item hitem hstays hholder hholding => ?_
  · rw [hbefore, hafter]
    exact (List.Sublist.refl before).append (List.sublist_cons_self mine after)
  by_cases hid : item.id = mine.id
  · by_cases hname : other = name
    · have hheld := hstays hname
      rw [hafter] at hheld
      exact absurd (hid ▸ List.mem_map_of_mem hheld) (List.nodup_cons.mp hnodup).1
    · obtain ⟨row, hrow, -⟩ := hholding
      rw [hid] at hrow
      obtain ⟨hout, hcase⟩ := hlapsed other hname item hitem hid row hrow
      refine .lapsed ?_ hout hcase
      rw [hrowOf, hid, Queue.row?_change hf, hrow]
      rfl
  · refine hholding.frame ?_ (le_refl _) hholder
    rw [hrowOf, row?_change_ne hf hid]

theorem perm_held_claimed (rows : List Row) : (Worker.claimed rows).held.Perm rows := by
  have hsplit := List.filter_append_perm (fun row : Row => row.payload.isNone) rows
  have hother : (rows.filter fun row => !row.payload.isNone) =
      rows.filter fun row => row.payload.isSome :=
    List.filter_congr fun row _ => by cases row.payload <;> rfl
  rw [hother] at hsplit
  exact hsplit

theorem mem_held_claimed {rows : List Row} : item ∈ (Worker.claimed rows).held ↔ item ∈ rows :=
  (perm_held_claimed rows).mem_iff

/-- A row that is returned was put into processing now. -/
theorem item_stamp {now : Int} {limit : Nat} {queue : Queue} (hkeyed : Keyed Row.id queue.rows)
    (hitem : item ∈ (queue.getPendingItems now limit).1) :
    item.status = .processing ∧ item.updatedAt = now := by
  obtain ⟨row, -, htaken⟩ := Queue.getPendingItems_taken hkeyed hitem
  cases htaken.step with
  | recovered hout hleft => exact ⟨rfl, rfl⟩
  | pending hpending hdue hnew hfresh => exact ⟨rfl, rfl⟩

theorem early_cases (now : Int) (row : Row) :
    row.early now = row ∨ row.status = .pending ∧ (row.early now).isFinal = true := by
  unfold Row.early
  by_cases hclosed : row.isRetriedTest = true
  · refine .inr ⟨by simpa using (by simpa [Row.isRetriedTest] using hclosed : _ ∧ _).1, ?_⟩
    rw [if_pos hclosed]
    rfl
  · by_cases hstale : row.isStale now = true
    · refine .inr ⟨by simpa using (by simpa [Row.isStale] using hstale : _ ∧ _).1, ?_⟩
      rw [if_neg hclosed, if_pos hstale]
      rfl
    · rw [if_neg hclosed, if_neg hstale]
      exact .inl rfl

/-- A claim on a row goes on through the claims of others, or has timed out. -/
theorem Owned.claim (howned : system.Owned) (name : Nat) :
    let claim := system.queue.getPendingItems system.clock processBatchSize
    (system.worked name .claim claim.2 (Worker.claimed claim.1)).Owned := by
  intro claim
  have hkeyed := howned.sound.keyed
  have hkeyed' : Keyed Row.id claim.2.rows := Queue.keyed_getPendingItems hkeyed
  have hrows : claim.2.rows =
      system.queue.rows.map (system.queue.claimChange system.clock processBatchSize) :=
    Queue.rows_getPendingItems _ _ _
  have htaken : ∀ {id : Nat}, id ∈ takenBy .claim (Worker.claimed claim.1) →
      id ∈ system.queue.claimIds system.clock processBatchSize := by
    intro id hid
    obtain ⟨row, hrow, rfl⟩ := List.mem_map.mp hid
    exact (Queue.mem_getPendingItems.mp (mem_held_claimed.mp hrow)).2
  constructor
  · refine ⟨hkeyed', fun row hrow => ?_⟩
    change row ∈ claim.2.rows at hrow
    rw [hrows] at hrow
    obtain ⟨old, hold, rfl⟩ := List.mem_map.mp hrow
    rw [Queue.id_claimChange]
    exact howned.sound.fresh old hold
  · intro other
    rw [workers_worked]
    split
    · exact ((perm_held_claimed _).map Row.id).nodup_iff.mpr (Queue.nodup_items hkeyed)
    · exact howned.nodup other
  · intro other item hitem
    rw [workers_worked] at hitem
    split at hitem
    · rename_i hname
      have hmem := mem_held_claimed.mp hitem
      obtain ⟨hprocessing, hstamp⟩ := item_stamp hkeyed hmem
      refine ⟨item, row?_of_mem hkeyed' (Queue.mem_getPendingItems.mp hmem).1,
        .inl ⟨hprocessing, rfl, ?_⟩⟩
      have hid : item.id ∈ takenBy .claim (Worker.claimed claim.1) := List.mem_map_of_mem hitem
      simp only [worked, hid, if_true, hname]
    · have hholding := howned.holding other item hitem
      obtain ⟨row, hrow, hcase⟩ := id hholding
      obtain ⟨hmem, hid⟩ := mem_of_row? hrow
      have hnext : (system.worked name .claim claim.2 (Worker.claimed claim.1)).queue.row?
          item.id = some (system.queue.claimChange system.clock processBatchSize row) := by
        change Table.row? Row.id item.id claim.2.rows = _
        rw [hrows, row?_map (Queue.id_claimChange _ _ _)]
        exact congrArg _ hrow
      -- the claim has timed out when another worker takes or fails the row
      have hout : row.timedOut system.clock = true →
          item.updatedAt + processingTimeout < system.clock := by
        intro hout
        rcases hcase with ⟨-, hstamp, -⟩ | ⟨hlapsed, -⟩
        · have hlate := (by simpa [Row.timedOut] using hout : _ ∧ _).2
          omega
        · exact hlapsed
      cases @Queue.passage system.clock processBatchSize system.queue hkeyed row hmem with
      | left hclaim hspent hstuck hchange =>
          rw [hchange] at hnext
          have hholder : (system.worked name .claim claim.2
              (Worker.claimed claim.1)).holder item.id = system.holder item.id := by
            have hnot : item.id ∉ takenBy .claim (Worker.claimed claim.1) :=
              fun h => hclaim (hid ▸ htaken h)
            simp only [worked, hnot, if_false]
          rcases early_cases system.clock row with hsame | ⟨hpending, hfinal⟩
          · rw [hsame, ← hrow] at hnext
            exact hholding.frame hnext (le_refl _) hholder
          · rcases hcase with ⟨hprocessing, -, -⟩ | ⟨hlapsed, -⟩
            · rw [hpending] at hprocessing
              cases hprocessing
            · exact .lapsed hnext hlapsed (.inl hfinal)
      | exhausted hclaim hspent hstuck htimeout hlimit hchange =>
          rw [hchange] at hnext
          exact .lapsed hnext (hout htimeout) (.inl rfl)
      | recovered hspent hstuck htimeout hlimit hcandidate hchange =>
          rw [hchange] at hnext
          exact .lapsed hnext (hout htimeout) (.inr (hout htimeout))
      | pending hspent hstuck hpending hdue hnew hfresh hcandidate hchange =>
          rw [hchange] at hnext
          rcases hcase with ⟨hprocessing, -, -⟩ | ⟨hlapsed, -⟩
          · rw [hpending] at hprocessing
            cases hprocessing
          · exact .lapsed hnext hlapsed (.inr hlapsed)

/-- A renewal moves the stamp of the row and of the item. -/
theorem Owned.renew {mine row : Row} {rest : List Row} {wake : Int} {read : PathState}
    (howned : system.Owned) (hitems : (system.workers name).items = mine :: rest)
    (hrow : system.queue.row? mine.id = some row) (hprocessing : row.status = .processing)
    (hstamp : row.updatedAt = mine.updatedAt) :
    (system.worked name .renew
      (system.queue.change mine.id fun row => { row with updatedAt := system.clock })
      { system.workers name with
        items := { mine with updatedAt := system.clock } :: rest
        stage := .leased wake read }).Owned := by
  let f : Row → Row := fun row => { row with updatedAt := system.clock }
  have hf : ∀ row, (f row).id = row.id := fun _ => rfl
  have hopen : row.isOpen = true := by simp [Row.isOpen, hprocessing]
  have hmine : mine ∈ (system.workers name).held := by
    simp [Worker.held, hitems]
  have hbefore : (system.workers name).held = (system.workers name).unparsable ++ mine :: rest := by
    rw [Worker.held, hitems]
  have hperm : (system.workers name).held.Perm
      (mine :: ((system.workers name).unparsable ++ rest)) := by
    rw [hbefore]
    exact List.perm_middle
  have hnodup := (hperm.map Row.id).nodup_iff.mp (howned.nodup name)
  have hchanged : (system.queue.change mine.id f).row? mine.id = some (f row) := by
    rw [Queue.row?_change hf, hrow]
    rfl
  have hframe : ∀ other, ∀ item ∈ (system.workers other).held, item.id ≠ mine.id →
      (system.worked name .renew (system.queue.change mine.id f)
        { system.workers name with
          items := { mine with updatedAt := system.clock } :: rest
          stage := .leased wake read }).Holding other item := by
    intro other item hitem hid
    refine (howned.holding other item hitem).frame (row?_change_ne hf hid) (le_refl _) ?_
    simp [worked, takenBy, leasedBy, hid]
  constructor
  · refine ⟨howned.sound.keyed.update hf _, fun next hnext => ?_⟩
    obtain ⟨old, hold, rfl⟩ := List.mem_map.mp hnext
    rw [key_update hf]
    exact howned.sound.fresh old hold
  · intro other
    rw [workers_worked]
    split
    · have hsame : ((system.workers name).held.map Row.id) =
          ((system.workers name).unparsable ++
            { mine with updatedAt := system.clock } :: rest).map Row.id := by
        rw [hbefore, List.map_append, List.map_append]
        rfl
      have hold := howned.nodup name
      rw [hsame] at hold
      exact hold
    · exact howned.nodup other
  · intro other item hitem
    rw [workers_worked] at hitem
    split at hitem
    · rename_i hname
      subst hname
      rcases List.mem_append.mp hitem with hitem | hitem
      · have hmem : item ∈ (system.workers other).unparsable ++ rest :=
          List.mem_append_left _ hitem
        exact hframe other item (hperm.symm.subset (List.mem_cons_of_mem _ hmem)) fun hid =>
          (List.nodup_cons.mp hnodup).1 (hid ▸ List.mem_map_of_mem hmem)
      · rcases List.mem_cons.mp hitem with rfl | hitem
        · refine ⟨f row, ?_, .inl ⟨hprocessing, rfl, by simp [worked, takenBy, leasedBy]⟩⟩
          exact hchanged
        · have hmem : item ∈ (system.workers other).unparsable ++ rest :=
            List.mem_append_right _ hitem
          exact hframe other item (hperm.symm.subset (List.mem_cons_of_mem _ hmem)) fun hid =>
            (List.nodup_cons.mp hnodup).1 (hid ▸ List.mem_map_of_mem hmem)
    · rename_i hname
      by_cases hid : item.id = mine.id
      · obtain ⟨-, -, hsame | hlapsed⟩ :=
          howned.holder_of_stamp hmine hrow hopen hstamp hitem hid
        · exact absurd hsame hname
        · have hnext : (system.queue.change mine.id f).row? item.id = some (f row) := by
            rw [hid]
            exact hchanged
          exact .lapsed hnext hlapsed (.inr hlapsed)
      · exact hframe other item hitem hid

end Steps

theorem Owned.of_start {clock : Int} {queue : Queue} (hsound : queue.Sound) :
    (start clock queue).Owned where
  sound := hsound
  nodup _ := List.nodup_nil
  holding _ item hitem := by simp [start, Worker.idle, Worker.held] at hitem

/-- The condition on a write, for the row that it changes. -/
theorem WritesOwn.stamp {jitter : Int} {result : DeliveryResult} {mine row : Row}
    {rest : List Row} (hown : WritesOwn system (.work name (.write jitter)))
    (hmarking : (system.workers name).stage = .marking result)
    (hitems : (system.workers name).items = mine :: rest)
    (hrow : system.queue.row? mine.id = some row)
    (hadmits : (Queue.outcomeWrite mine result jitter).admits row = true) :
    row.updatedAt = mine.updatedAt := by
  simpa [WritesOwn, hmarking, hitems, hrow, hadmits] using hown

theorem WritesOwn.stamp_unparsable {error : Store.Text} {mine row : Row} {rest : List Row}
    (hown : WritesOwn system (.work name (.failUnparsable true error)))
    (hrows : (system.workers name).unparsable = mine :: rest)
    (hrow : system.queue.row? mine.id = some row) :
    row.status = .failed ∨ row.status = .processing ∧ row.updatedAt = mine.updatedAt := by
  simpa [WritesOwn, hrows, hrow] using hown

theorem isOpen_of_admits {write : Queue.Write} {row : Row} (hadmits : write.admits row = true) :
    row.isOpen = true := by
  cases write with
  | release => simp [Row.isOpen, (by simpa [Queue.Write.admits] using hadmits :
      row.status = .processing)]
  | sent => exact hadmits
  | permanent error => exact hadmits
  | retry jitter retry => exact hadmits

theorem Owned.step {act : SystemAct} (howned : system.Owned) (hown : WritesOwn system act)
    (hstep : system.step act = some next) : next.Owned := by
  have hsound := sound_step howned.sound hstep
  cases act with
  | tick delay =>
      cases hstep
      refine ⟨hsound, howned.nodup, fun name item hitem => ?_⟩
      exact (howned.holding name item hitem).frame rfl (by simp) rfl
  | enqueue jitter message =>
      cases hstep
      refine ⟨hsound, howned.nodup, fun name item hitem => ?_⟩
      have hholding := howned.holding name item hitem
      obtain ⟨row, hrow, -⟩ := id hholding
      refine hholding.frame ?_ (le_refl _) rfl
      rcases Queue.perform_enqueue system.clock jitter message system.queue with
        hqueue | ⟨nextRetry, hqueue⟩
      · simp only [hqueue]
      · simp only [hqueue]
        rw [hrow]
        change Table.row? Row.id item.id (system.queue.rows ++ _) = _
        rw [row?_snoc, show Table.row? Row.id item.id system.queue.rows = some row from hrow]
        rfl
  | ensureTable =>
      cases hstep
      refine ⟨hsound, howned.nodup, fun name item hitem => ?_⟩
      have hholding := howned.holding name item hitem
      obtain ⟨row, hrow, hcase⟩ := id hholding
      let g : Row → Row := fun row =>
        if row.isRetriedTest then row.closedTest system.clock else row
      have hg : ∀ row, (g row).id = row.id := by
        intro row
        simp only [g]
        split <;> rfl
      have hnext : Table.row? Row.id item.id (system.queue.rows.map g) = some (g row) := by
        rw [row?_map hg]
        exact congrArg _ hrow
      by_cases htest : row.isRetriedTest = true
      · rcases hcase with ⟨hprocessing, -, -⟩ | ⟨hlapsed, -⟩
        · simp [Row.isRetriedTest, hprocessing] at htest
        · refine .lapsed hnext hlapsed (.inl ?_)
          simp only [g, htest, if_true]
          rfl
      · have hsame : g row = row := by simp only [g, htest]; rfl
        rw [hsame, ← hrow] at hnext
        exact hholding.frame hnext (le_refl _) rfl
  | work name act =>
      obtain ⟨queue, worker, hwork, rfl⟩ := step_work hstep
      cases hwork with
      | claim hfree => exact howned.claim name
      | @failUnparsable mine rest error hrows =>
          let f : Row → Row := fun row =>
            { row with
              status := .failed
              lastError := some ("Parse error: ".toList ++ error)
              updatedAt := mine.updatedAt }
          have hf : ∀ row, (f row).id = row.id := fun _ => rfl
          have hmine : mine ∈ (system.workers name).held := by simp [Worker.held, hrows]
          refine @Owned.settle _ _ _ _ _ mine f [] (rest ++ (system.workers name).items) howned
            hsound hf (Queue.rows_recordDelivery _ _ _).1 (by simp [Worker.held, hrows])
            (by simp [Worker.held]) rfl ?_
          intro other hother item hitem hid row hrow
          rcases hown.stamp_unparsable hrows hrow with hfailed | ⟨hprocessing, hstamp⟩
          · rcases (howned.holding other item hitem).of_row (hid ▸ hrow) with
              ⟨hprocessing, -, -⟩ | ⟨hlapsed, -⟩
            · rw [hfailed] at hprocessing
              cases hprocessing
            · exact ⟨hlapsed, .inl rfl⟩
          · obtain ⟨-, -, hsame | hlapsed⟩ := howned.holder_of_stamp hmine hrow
              (by simp [Row.isOpen, hprocessing]) hstamp hitem hid
            · exact absurd hsame hother
            · exact ⟨hlapsed, .inl rfl⟩
      | skipUnparsable hrows =>
          exact howned.quiet hsound rfl (by simp [Worker.held, hrows]) rfl
      | defer hact =>
          exact howned.quiet hsound rfl (List.Sublist.refl _) (by rcases hact with rfl | rfl <;> rfl)
      | readWait hready hitems hwait => exact howned.quiet hsound rfl (List.Sublist.refl _) rfl
      | renew hwaiting hitems hwake hrow hprocessing hheld =>
          exact howned.renew hitems hrow hprocessing hheld
      | lost hitems => exact howned.quiet hsound rfl (by simp [Worker.held, hitems]) rfl
      | recordAttempt hleased hitems => exact howned.quiet hsound rfl (List.Sublist.refl _) rfl
      | answer hsending => exact howned.quiet hsound rfl (List.Sublist.refl _) rfl
      | coolDown hfinishing hitems =>
          refine howned.quiet hsound ?_ (List.Sublist.refl _) rfl
          unfold Queue.coolDown
          split <;> rfl
      | @write mine rest result jitter hmarking hitems =>
          have hmine : mine ∈ (system.workers name).held := by simp [Worker.held, hitems]
          obtain ⟨-, -, hrows | ⟨found, f, hfound, hadmits, hf, hrows⟩⟩ :=
            Queue.written_write system.clock mine.id system.queue
              (Queue.outcomeWrite mine result jitter)
          · exact howned.quiet hsound hrows (by simp [Worker.held, hitems]) rfl
          · refine @Owned.settle _ _ _ _ _ mine f (system.workers name).unparsable rest howned
              hsound (fun row => (hf row).1.id) hrows (by simp [Worker.held, hitems])
              (by simp [Worker.held]) rfl ?_
            intro other hother item hitem hid row hrow
            obtain rfl : found = row := by
              rw [hfound] at hrow
              exact Option.some.inj hrow
            obtain ⟨-, -, hsame | hlapsed⟩ := howned.holder_of_stamp hmine hfound
              (isOpen_of_admits hadmits) (hown.stamp hmarking hitems hfound hadmits) hitem hid
            · exact absurd hsame hother
            · exact ⟨hlapsed, .inr (by rw [(hf found).2]; exact hlapsed)⟩
      | drop hitems => exact howned.quiet hsound rfl (by simp [Worker.held, hitems]) rfl
      | crash =>
          exact howned.quiet hsound rfl (by simp [Worker.held, Worker.idle]) rfl

theorem owned_run {clock : Int} {queue : Queue} {acts : List SystemAct} {final : System}
    (hsound : queue.Sound) (hok : RunOk System.step WritesOwn (start clock queue) acts)
    (hrun : run System.step (start clock queue) acts = some final) : final.Owned :=
  run_invariant_of (fun howned hown hstep => howned.step hown hstep) hok (.of_start hsound) hrun

/-! ## Former workers -/

/-- The status, the counters and the time of the next attempt are as before. -/
structure SameFate (row later : Row) : Prop where
  status : later.status = row.status
  retryCount : later.retryCount = row.retryCount
  limitedAttempts : later.limitedAttempts = row.limitedAttempts
  nextRetryAt : later.nextRetryAt = row.nextRetryAt

theorem SameFate.refl (row : Row) : SameFate row row := ⟨rfl, rfl, rfl, rfl⟩

/-- The item whose send is in progress, from the renewal of its lease to the answer. -/
def sendOf (worker : Worker) : Option Row :=
  match worker.stage, worker.items with
  | .leased _ _, item :: _ => some item
  | .sending, item :: _ => some item
  | _, _ => none

theorem mem_held_of_items {worker : Worker} {rest : List Row}
    (hitems : worker.items = item :: rest) : item ∈ worker.held := by
  simp [Worker.held, hitems]

theorem mem_held_of_unparsable {worker : Worker} {rest : List Row}
    (hrows : worker.unparsable = item :: rest) : item ∈ worker.held := by
  simp [Worker.held, hrows]

theorem mem_held_of_sendOf {worker : Worker} (hsend : sendOf worker = some item) :
    item ∈ worker.held := by
  unfold sendOf at hsend
  split at hsend
  · cases hsend
    exact mem_held_of_items (by assumption)
  · cases hsend
    exact mem_held_of_items (by assumption)
  · cases hsend

/-- The worker whose stamp an open row carries is the last that claimed it. -/
theorem Owned.holder_eq {row : Row} (howned : system.Owned)
    (hitem : item ∈ (system.workers name).held) (hrow : system.queue.row? item.id = some row)
    (hopen : row.isOpen = true) (hstamp : row.updatedAt = item.updatedAt) :
    system.holder item.id = some name :=
  (howned.holder_of_stamp hitem hrow hopen hstamp hitem rfl).1

/-- Two sends of one row are in progress only when a lease has timed out. -/
theorem Owned.sends_once {first second : Nat} {item item' : Row} (howned : system.Owned)
    (hne : first ≠ second) (hfirst : sendOf (system.workers first) = some item)
    (hsecond : sendOf (system.workers second) = some item') (hid : item.id = item'.id) :
    item.updatedAt + processingTimeout < system.clock ∨
      item'.updatedAt + processingTimeout < system.clock := by
  obtain ⟨row, hrow, hcase⟩ := howned.holding first item (mem_held_of_sendOf hfirst)
  rcases hcase with ⟨-, -, hholder⟩ | ⟨hlapsed, -⟩
  · rcases (howned.holding second item' (mem_held_of_sendOf hsecond)).of_row (hid ▸ hrow) with
      ⟨-, -, hholder'⟩ | ⟨hlapsed, -⟩
    · rw [hid, hholder'] at hholder
      exact absurd (Option.some.inj hholder).symm hne
    · exact .inr hlapsed
  · exact .inl hlapsed

/-- A step of a worker that is not the last that claimed the row. -/
theorem Owned.former_step {act : WorkerAct} {id : Nat} {row : Row} (howned : system.Owned)
    (hown : WritesOwn system (.work name act)) (hstep : system.step (.work name act) = some next)
    (hact : act ≠ .claim) (hrow : system.queue.row? id = some row)
    (hformer : system.holder id ≠ some name) :
    ∃ later, next.queue.row? id = some later ∧ SameFate row later := by
  obtain ⟨hmem, hid⟩ := mem_of_row? hrow
  rcases step_rows howned.sound hstep with
    ⟨-, move, hrows, hmove⟩ | ⟨jitter, message, nextRetry, henqueue, -⟩
  · have hafter : next.queue.row? id = some (move row) := by
      have hfound := row?_of_mem (sound_step howned.sound hstep).keyed
        (hrows ▸ List.mem_map_of_mem hmem : move row ∈ next.queue.rows)
      rwa [(hmove row hmem).kept.id, hid] at hfound
    have hmoved := hmove row hmem
    generalize move row = later at hafter hmoved
    refine ⟨later, hafter, ?_⟩
    cases hmoved with
    | same => exact .refl row
    | closed hother htest => cases hother
    | claimed hother =>
        cases hother
        exact absurd rfl hact
    | @renewed name' item rest hother hitems hitemId hprocessing hheld =>
        cases hother
        have hfound : system.queue.row? item.id = some row := by rw [hitemId, hid]; exact hrow
        have hholder := howned.holder_eq (mem_held_of_items hitems) hfound
          (by simp [Row.isOpen, hprocessing]) hheld
        rw [hitemId, hid] at hholder
        exact absurd hholder hformer
    | @wrote name' jitter item later rest result hother hmarking hitems hitemId hadmits hkept
        hstamp =>
        cases hother
        have hfound : system.queue.row? item.id = some row := by rw [hitemId, hid]; exact hrow
        have hholder := howned.holder_eq (mem_held_of_items hitems) hfound
          (isOpen_of_admits hadmits) (hown.stamp hmarking hitems hfound hadmits)
        rw [hitemId, hid] at hholder
        exact absurd hholder hformer
    | @unparsed name' error item rest hother hitems hitemId =>
        cases hother
        have hfound : system.queue.row? item.id = some row := by rw [hitemId, hid]; exact hrow
        rcases hown.stamp_unparsable hitems hfound with hfailed | ⟨hprocessing, hstamp⟩
        · exact ⟨hfailed.symm, rfl, rfl, rfl⟩
        · have hholder := howned.holder_eq (mem_held_of_unparsable hitems) hfound
            (by simp [Row.isOpen, hprocessing]) hstamp
          rw [hitemId, hid] at hholder
          exact absurd hholder hformer
  · cases henqueue

/-- A lease is renewed by the last worker that claimed the row. -/
theorem Owned.lease_of_holder {act : WorkerAct} {id : Nat} (howned : system.Owned)
    (hstep : system.step (.work name act) = some next)
    (hleased : leasedBy act (next.workers name) = some id) : system.holder id = some name := by
  obtain ⟨queue, worker, hwork, rfl⟩ := step_work hstep
  rw [workers_worked, if_pos rfl] at hleased
  cases hwork with
  | @renew mine row rest wake read hwaiting hitems hwake hrow hprocessing hheld =>
      obtain rfl : mine.id = id := Option.some.inj hleased
      exact howned.holder_eq (mem_held_of_items hitems) hrow
        (by simp [Row.isOpen, hprocessing]) hheld
  | defer hact => rcases hact with rfl | rfl <;> cases hleased
  | claim hfree => cases hleased
  | failUnparsable hrows => cases hleased
  | skipUnparsable hrows => cases hleased
  | readWait hready hitems hwait => cases hleased
  | lost hitems => cases hleased
  | recordAttempt hstage hitems => cases hleased
  | answer hsending => cases hleased
  | coolDown hfinishing hitems => cases hleased
  | write hmarking hitems => cases hleased
  | drop hitems => cases hleased
  | crash => cases hleased

theorem sound_empty : Queue.empty.Sound := ⟨keyed_nil, by simp [Queue.empty]⟩

end System

end Justup.Spool
