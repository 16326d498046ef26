import Justup.Recipients.Kept

/-!
# Runs of requests

Any number of requests in any order of their steps, with what each step did on
record.  Beside the invariant of the tables, a request that was refused or
failed has changed nothing, or nothing of what it wrote is left.
-/

namespace Justup.Recipients

open Store Lib

/-! ## The system -/

/-- A step on record. -/
structure Entry where
  request : ℕ
  phase : Phase
  before : Db
  after : Db

/-- The tables and the requests.  `edited` has a target and a recipient when the list of the target
was edited since the flag of the recipient was set. -/
structure System where
  db : Db
  phases : List Phase := []
  edited : List (ℕ × ℕ) := []
  history : List Entry := []

inductive Act where
  | request (phase : Phase)
  | advance (request : ℕ) (fails : Bool)

/-- The edited lists behind a step. -/
def Phase.editedNext (db : Db) (edited : List (ℕ × ℕ)) (phase next : Phase) : List (ℕ × ℕ) :=
  match phase, next with
  | .updateWrite id update, .updated _ => editedAfter edited id update
  | .editWrite target _, .done 200 => edited ++ db.recipients.map fun row => (target, row.id)
  | _, _ => edited

section

variable (isDigit : Char → Bool)

def System.step (system : System) : Act → Option System
  | .request phase =>
      if phase.isInitial then some { system with phases := system.phases ++ [phase] } else none
  | .advance request fails =>
      system.phases[request]?.map fun phase =>
        let result := phase.step isDigit fails system.db
        { db := result.2
          phases := system.phases.set request result.1
          edited := phase.editedNext system.db system.edited result.1
          history := system.history ++ [⟨request, phase, system.db, result.2⟩] }

end

/-! ## One step -/

/-- Whether the transaction of a request is yet to come. -/
def Phase.early : Phase → Bool
  | .created _ | .updated _ | .done _ => false
  | _ => true

/-- What a step of a request can do. -/
inductive Does (db : Db) (edited : List (ℕ × ℕ)) :
    Phase → Phase → Db → List (ℕ × ℕ) → Prop where
  /-- It reads, or its transaction is refused or fails. -/
  | reads {phase next : Phase} (h : phase.early = true) : Does db edited phase next db edited
  /-- It reads back what it wrote. -/
  | answers {phase : Phase} {id status : ℕ} (h : phase = .created id ∨ phase = .updated id)
      (hstatus : status < 400) : Does db edited phase (.done status) db edited
  /-- What it wrote is gone. -/
  | misses {phase : Phase} {id : ℕ} (h : phase = .created id ∨ phase = .updated id)
      (hgone : db.getRecipient id = none) : Does db edited phase (.done 500) db edited
  | stays (status : ℕ) : Does db edited (.done status) (.done status) db edited
  | created {new : Recipient} {db' : Db} {id : ℕ} (h : Created db new db' id) :
      Does db edited (.createWrite new) (.created id) db' edited
  | updated {id : ℕ} {update : Update} {db' : Db} (h : Updated db id update db') :
      Does db edited (.updateWrite id update) (.updated id) db' (editedAfter edited id update)
  | deleted (id : ℕ) : Does db edited (.deleteWrite id) (.done 204) (db.deleteRecipient id) edited
  | targetCreated {recipients : List ℕ} {db' : Db} (h : TargetCreated db db') :
      Does db edited (.createTarget recipients) (.done 201) db' edited
  | targetDeleted (target : ℕ) :
      Does db edited (.deleteTargetWrite target) (.done 204) (db.deleteTarget target) edited
  | targetEdited {target : ℕ} {recipients : List ℕ} {db' : Db}
      (h : Edited db target recipients db') :
      Does db edited (.editWrite target recipients) (.done 200) db'
        (edited ++ db.recipients.map fun row => (target, row.id))

theorem does_readBack {db : Db} {edited : List (ℕ × ℕ)} {phase : Phase} {id status : ℕ}
    (h : phase = .created id ∨ phase = .updated id) (hstatus : status < 400) :
    Does db edited phase (.done (if (db.getRecipient id).isSome then status else 500)) db
      edited := by
  cases hget : db.getRecipient id with
  | none => exact .misses h hget
  | some row => exact .answers h hstatus

theorem does_step (isDigit : Char → Bool) (fails : Bool) (db : Db) (edited : List (ℕ × ℕ))
    (phase : Phase) :
    Does db edited phase (phase.step isDigit fails db).1 (phase.step isDigit fails db).2
      (phase.editedNext db edited (phase.step isDigit fails db).1) := by
  cases phase with
  | createRecipient payload => exact .reads rfl
  | createWrite new =>
      unfold Phase.step
      cases fails with
      | true => exact .reads rfl
      | false =>
          simp only [Bool.false_eq_true, if_false]
          cases hwrite : db.createRecipient new with
          | ok result => exact .created (created_of_createRecipient hwrite)
          | error e => cases e <;> exact .reads rfl
  | created id => exact does_readBack (.inl rfl) (by decide)
  | updateRecipient id payload => exact .reads rfl
  | updateCheck id existing payload phone =>
      unfold Phase.step
      simp only
      split_ifs
      · exact .reads rfl
      · exact .reads rfl
  | updateWrite id update =>
      unfold Phase.step
      cases fails with
      | true => exact .reads rfl
      | false =>
          simp only [Bool.false_eq_true, if_false]
          cases hwrite : db.updateRecipient id update with
          | ok db' => exact .updated (updated_of_updateRecipient hwrite)
          | error e => cases e <;> exact .reads rfl
  | updated id => exact does_readBack (.inr rfl) (by decide)
  | deleteRecipient id => exact .reads rfl
  | deleteWrite id =>
      cases fails with
      | true => exact .reads rfl
      | false => exact .deleted id
  | createTarget recipients =>
      unfold Phase.step
      cases fails with
      | true => exact .reads rfl
      | false =>
          simp only [Bool.false_eq_true, if_false]
          cases hwrite : db.createTarget recipients with
          | some db' => exact .targetCreated (targetCreated_of_createTarget hwrite)
          | none => exact .reads rfl
  | deleteTarget target => exact .reads rfl
  | deleteTargetWrite target =>
      cases fails with
      | true => exact .reads rfl
      | false => exact .targetDeleted target
  | editTarget target recipients => exact .reads rfl
  | editCheck target recipients unchecked =>
      cases unchecked <;> exact .reads rfl
  | editWrite target recipients =>
      unfold Phase.step
      cases fails with
      | true => exact .reads rfl
      | false =>
          simp only [Bool.false_eq_true, if_false]
          cases hwrite : db.setTargetRecipients target recipients with
          | some db' => exact .targetEdited (edited_of_setTargetRecipients hwrite)
          | none => exact .reads rfl
  | done status => exact .stays status

/-- The tables stay sound. -/
theorem Does.sound {start db db' : Db} {edited edited' : List (ℕ × ℕ)} {phase next : Phase}
    (h : Does db edited phase next db' edited') (hsound : Sound start edited db) :
    Sound start edited' db' := by
  cases h with
  | reads _ => exact hsound
  | answers _ _ => exact hsound
  | misses _ _ => exact hsound
  | stays _ => exact hsound
  | created h => exact hsound.createRecipient h
  | updated h => exact hsound.updateRecipient h
  | deleted id => exact hsound.deleteRecipient id
  | targetCreated h => exact hsound.createTarget h
  | targetDeleted target => exact hsound.deleteTarget target
  | targetEdited h => exact hsound.setTargetRecipients h

/-- Ids are given once: what is gone stays gone. -/
theorem Does.ids {db db' : Db} {edited edited' : List (ℕ × ℕ)} {phase next : Phase}
    (h : Does db edited phase next db' edited') {id : ℕ} (hid : id ≤ db.lastRecipient) :
    id ≤ db'.lastRecipient ∧
      ((∀ row ∈ db.recipients, row.id ≠ id) → ∀ row ∈ db'.recipients, row.id ≠ id) := by
  cases h with
  | reads _ => exact ⟨hid, fun h => h⟩
  | answers _ _ => exact ⟨hid, fun h => h⟩
  | misses _ _ => exact ⟨hid, fun h => h⟩
  | stays _ => exact ⟨hid, fun h => h⟩
  | created h =>
      have hnew := h.fresh
      refine ⟨by rw [h.last]; omega, fun hgone row hrow => ?_⟩
      rw [h.recipients, List.mem_append, List.mem_singleton] at hrow
      obtain hrow | rfl := hrow
      · exact hgone row hrow
      · simp only
        omega
  | updated h =>
      refine ⟨h.last ▸ hid, fun hgone row hrow => ?_⟩
      rw [h.recipients] at hrow
      obtain ⟨old, hold, rfl⟩ := List.mem_map.mp hrow
      split_ifs with hsame
      · exact hgone old hold
      · exact hgone old hold
  | deleted id => exact ⟨hid, fun hgone row hrow => hgone row (List.mem_of_mem_filter hrow)⟩
  | targetCreated h => exact ⟨h.last ▸ hid, fun hgone => h.recipients ▸ hgone⟩
  | targetDeleted target => exact ⟨hid, fun h => h⟩
  | targetEdited h => exact ⟨h.last ▸ hid, fun hgone => h.recipients ▸ hgone⟩

/-! ## What a request wrote -/

/-- The request has changed nothing. -/
def System.Unwritten (system : System) (request : ℕ) : Prop :=
  ∀ entry ∈ system.history, entry.request = request → entry.after = entry.before

/-- The request has changed this recipient and its assignments at most. -/
def System.Wrote (system : System) (request id : ℕ) : Prop :=
  id ≤ system.db.lastRecipient ∧ ∀ entry ∈ system.history, entry.request = request →
    entry.after = entry.before ∨ SameBut id entry.before entry.after

/-- What a request wrote, by where it is. -/
def System.Ledger (system : System) (request : ℕ) : Phase → Prop
  | .created id | .updated id => system.Unwritten request ∨ system.Wrote request id
  | .done status =>
      status < 400 ∨ system.Unwritten request ∨
        ∃ id, system.Wrote request id ∧ ∀ row ∈ system.db.recipients, row.id ≠ id
  | _ => system.Unwritten request

theorem ledger_of_unwritten {system : System} {request : ℕ} (h : system.Unwritten request)
    (phase : Phase) : system.Ledger request phase := by
  cases phase with
  | created id => exact .inl h
  | updated id => exact .inl h
  | done status => exact .inr (.inl h)
  | _ => exact h

theorem unwritten_of_early {system : System} {request : ℕ} {phase : Phase}
    (h : system.Ledger request phase) (hearly : phase.early = true) :
    system.Unwritten request := by
  cases phase with
  | created id => cases hearly
  | updated id => cases hearly
  | done status => cases hearly
  | _ => exact h

/-- What a step does besides: the flag that goes off takes all assignments along, and the edit of a
list leaves the others alone. -/
structure Entry.Kept (entry : Entry) : Prop where
  off : ∀ row ∈ entry.before.recipients, row.enableForAllTargets = true →
    ∀ row' ∈ entry.after.recipients, row'.id = row.id → row'.enableForAllTargets = false →
    ∀ pair ∈ entry.after.assigned, pair.2 ≠ row.id
  edit : ∀ target recipients, entry.phase = .editWrite target recipients →
    entry.after.recipients = entry.before.recipients ∧
      ∀ pair, pair.1 ≠ target → (pair ∈ entry.after.assigned ↔ pair ∈ entry.before.assigned)

theorem Does.off {start db db' : Db} {edited edited' : List (ℕ × ℕ)} {phase next : Phase}
    (h : Does db edited phase next db' edited') (hsound : Sound start edited db) {row : Recipient}
    (hrow : row ∈ db.recipients) (hon : row.enableForAllTargets = true) {row' : Recipient}
    (hrow' : row' ∈ db'.recipients) (hid : row'.id = row.id)
    (hoff : row'.enableForAllTargets = false) : ∀ pair ∈ db'.assigned, pair.2 ≠ row.id := by
  -- a row that stays as it is keeps its flag
  have hstays : row' ∉ db.recipients := by
    intro hmem
    rw [hsound.keyed.eq_of_mem hmem hrow hid, hon] at hoff
    cases hoff
  cases h with
  | reads _ => exact absurd hrow' hstays
  | answers _ _ => exact absurd hrow' hstays
  | misses _ _ => exact absurd hrow' hstays
  | stays _ => exact absurd hrow' hstays
  | created h =>
      rw [h.recipients, List.mem_append, List.mem_singleton] at hrow'
      obtain rfl := hrow'.resolve_left hstays
      have hfresh := h.fresh
      have hold := hsound.fresh row hrow
      simp only at hid
      omega
  | @updated id update _ h =>
      rw [h.recipients] at hrow'
      obtain ⟨old, hold, rfl⟩ := List.mem_map.mp hrow'
      by_cases hsame : old.id = id
      · rw [if_pos hsame] at hid hoff
        have hrowOld : old = row := hsound.keyed.eq_of_mem hold hrow hid
        subst hrowOld
        have hget := getRecipient_of_mem hsound.keyed hold
        rw [hsame] at hget ⊢
        refine h.off ?_ old hget hon
        simp only [Update.apply] at hoff
        cases hflag : update.enableForAllTargets with
        | none => rw [hflag, Option.getD_none, hon] at hoff; cases hoff
        | some flag => rw [hflag, Option.getD_some] at hoff; rw [hoff]
      · rw [if_neg hsame] at hstays
        exact absurd hold hstays
  | deleted _ => exact absurd (List.mem_of_mem_filter hrow') hstays
  | targetCreated h => exact absurd (h.recipients ▸ hrow') hstays
  | targetDeleted _ => exact absurd hrow' hstays
  | targetEdited h => exact absurd (h.recipients ▸ hrow') hstays

theorem Does.edit {db db' : Db} {edited edited' : List (ℕ × ℕ)} {phase next : Phase}
    (h : Does db edited phase next db' edited') {target : ℕ} {recipients : List ℕ}
    (hphase : phase = .editWrite target recipients) :
    db'.recipients = db.recipients ∧
      ∀ pair, pair.1 ≠ target → (pair ∈ db'.assigned ↔ pair ∈ db.assigned) := by
  cases h with
  | targetEdited h =>
      cases hphase
      exact ⟨h.recipients, h.others⟩
  | reads _ => exact ⟨rfl, fun _ _ => .rfl⟩
  | answers _ _ => exact ⟨rfl, fun _ _ => .rfl⟩
  | misses _ _ => exact ⟨rfl, fun _ _ => .rfl⟩
  | _ => cases hphase

/-! ## Runs -/

structure System.Inv (start : Db) (system : System) : Prop where
  sound : Sound start system.edited system.db
  ledger : ∀ request phase, system.phases[request]? = some phase → system.Ledger request phase
  known : ∀ entry ∈ system.history, entry.request < system.phases.length
  kept : ∀ entry ∈ system.history, entry.Kept

section

variable {start : Db} {system : System} {request : ℕ} {phase next : Phase} {db : Db}
  {edited : List (ℕ × ℕ)}

/-- The system behind a step of a request. -/
def System.after (system : System) (request : ℕ) (phase next : Phase) (db : Db)
    (edited : List (ℕ × ℕ)) : System where
  db := db
  phases := system.phases.set request next
  edited := edited
  history := system.history ++ [⟨request, phase, system.db, db⟩]

theorem unwritten_after_same (h : system.Unwritten request) :
    (system.after request phase next system.db edited).Unwritten request := by
  intro entry hentry hrequest
  obtain hentry | hentry := List.mem_append.mp hentry
  · exact h entry hentry hrequest
  · rw [List.mem_singleton.mp hentry]

theorem wrote_after (h : system.Unwritten request) {id : ℕ} (hid : id ≤ db.lastRecipient)
    (hsame : SameBut id system.db db) :
    (system.after request phase next db edited).Wrote request id := by
  refine ⟨hid, fun entry hentry hrequest => ?_⟩
  obtain hentry | hentry := List.mem_append.mp hentry
  · exact .inl (h entry hentry hrequest)
  · rw [List.mem_singleton.mp hentry]
    exact .inr hsame

theorem wrote_after_same {id : ℕ} (h : system.Wrote request id) :
    (system.after request phase next system.db edited).Wrote request id := by
  refine ⟨h.1, fun entry hentry hrequest => ?_⟩
  obtain hentry | hentry := List.mem_append.mp hentry
  · exact h.2 entry hentry hrequest
  · rw [List.mem_singleton.mp hentry]
    exact .inl rfl

/-- The step of another request leaves the ledger of a request. -/
theorem ledger_after_other (hdoes : Does system.db system.edited phase next db edited)
    {other : ℕ} (hne : other ≠ request) {place : Phase} (h : system.Ledger other place) :
    (system.after request phase next db edited).Ledger other place := by
  have hold : ∀ entry ∈ (system.after request phase next db edited).history,
      entry.request = other → entry ∈ system.history := by
    intro entry hentry hrequest
    refine (List.mem_append.mp hentry).resolve_right fun hnew => hne ?_
    rw [← hrequest, List.mem_singleton.mp hnew]
  have hunwritten : system.Unwritten other →
      (system.after request phase next db edited).Unwritten other :=
    fun h entry hentry hrequest => h entry (hold entry hentry hrequest) hrequest
  have hwrote : ∀ id, system.Wrote other id →
      (system.after request phase next db edited).Wrote other id :=
    fun id h => ⟨(hdoes.ids h.1).1,
      fun entry hentry hrequest => h.2 entry (hold entry hentry hrequest) hrequest⟩
  cases place with
  | created id => exact h.imp hunwritten (hwrote id)
  | updated id => exact h.imp hunwritten (hwrote id)
  | done status =>
      refine h.imp_right (Or.imp hunwritten ?_)
      rintro ⟨id, hid, hgone⟩
      exact ⟨id, hwrote id hid, (hdoes.ids hid.1).2 hgone⟩
  | _ => exact hunwritten h

theorem ledger_of_writtenBack {id : ℕ} (hphase : phase = .created id ∨ phase = .updated id)
    (h : system.Ledger request phase) : system.Unwritten request ∨ system.Wrote request id := by
  obtain rfl | rfl := hphase
  · exact h
  · exact h

theorem ledger_after (hsound : Sound start system.edited system.db)
    (h : system.Ledger request phase)
    (hdoes : Does system.db system.edited phase next db edited) :
    (system.after request phase next db edited).Ledger request next := by
  cases hdoes with
  | reads hearly =>
      exact ledger_of_unwritten (unwritten_after_same (unwritten_of_early h hearly)) _
  | answers _ hstatus => exact .inl hstatus
  | misses hphase hgone =>
      refine .inr ((ledger_of_writtenBack hphase h).imp unwritten_after_same fun hwrote => ?_)
      refine ⟨_, wrote_after_same hwrote, fun row hrow hid => ?_⟩
      have := List.find?_eq_none.mp hgone row hrow
      simp [hid] at this
  | stays status =>
      refine h.imp_right (Or.imp unwritten_after_same ?_)
      rintro ⟨id, hid, hgone⟩
      exact ⟨id, wrote_after_same hid, hgone⟩
  | created hcreated =>
      exact .inr (wrote_after (unwritten_of_early h rfl) hcreated.last.ge hcreated.sameBut)
  | @updated id update _ hupdated =>
      have hunwritten : system.Unwritten request := unwritten_of_early h rfl
      cases hget : system.db.getRecipient id with
      | none =>
          rw [hupdated.absent hget]
          exact .inl (unwritten_after_same hunwritten)
      | some row =>
          obtain ⟨hrow, hid⟩ := getRecipient_eq_some hget
          have hle := hsound.fresh row hrow
          refine .inr (wrote_after hunwritten ?_ hupdated.sameBut)
          rw [hupdated.last, ← hid]
          exact hle
  | deleted _ => exact .inl (by decide)
  | targetCreated _ => exact .inl (by decide)
  | targetDeleted _ => exact .inl (by decide)
  | targetEdited _ => exact .inl (by decide)

theorem System.Inv.after (hinv : system.Inv start) (hphase : system.phases[request]? = some phase)
    (hdoes : Does system.db system.edited phase next db edited) :
    (system.after request phase next db edited).Inv start where
  sound := hdoes.sound hinv.sound
  ledger other place hat := by
    by_cases hother : other = request
    · subst hother
      have hlength := (List.getElem?_eq_some_iff.mp hphase).1
      have hnext : place = next := by
        rw [System.after, List.getElem?_set_self hlength] at hat
        exact (Option.some.inj hat).symm
      rw [hnext]
      exact ledger_after hinv.sound (hinv.ledger other phase hphase) hdoes
    · refine ledger_after_other hdoes hother (hinv.ledger other place ?_)
      rwa [System.after, List.getElem?_set_ne (Ne.symm hother)] at hat
  known entry hentry := by
    rw [System.after, List.length_set]
    obtain hentry | hentry := List.mem_append.mp hentry
    · exact hinv.known entry hentry
    · rw [List.mem_singleton.mp hentry]
      exact (List.getElem?_eq_some_iff.mp hphase).1
  kept entry hentry := by
    obtain hentry | hentry := List.mem_append.mp hentry
    · exact hinv.kept entry hentry
    · rw [List.mem_singleton.mp hentry]
      exact ⟨fun row hrow hon row' hrow' hid hoff => hdoes.off hinv.sound hrow hon hrow' hid hoff,
        fun target recipients hedit => hdoes.edit hedit⟩

theorem System.Inv.step {isDigit : Char → Bool} {act : Act} {system' : System}
    (hinv : system.Inv start) (h : system.step isDigit act = some system') :
    system'.Inv start := by
  cases act with
  | request phase =>
      obtain ⟨-, hsystem⟩ := Option.ite_none_right_eq_some.mp h
      cases hsystem
      refine ⟨hinv.sound, fun other place hat => ?_, fun entry hentry => ?_, hinv.kept⟩
      · rw [List.getElem?_append] at hat
        split_ifs at hat with hold
        · exact hinv.ledger other place hat
        · -- nothing is on record for a new request
          refine ledger_of_unwritten (fun entry hentry hrequest => ?_) place
          exact absurd (hrequest ▸ hinv.known entry hentry) hold
      · rw [List.length_append]
        exact Nat.lt_add_right _ (hinv.known entry hentry)
  | advance request fails =>
      obtain ⟨phase, hphase, hsystem⟩ := Option.map_eq_some_iff.mp h
      cases hsystem
      exact hinv.after hphase (does_step isDigit fails system.db system.edited phase)

end

/-- No recipient drops out: in every run of requests each recipient can be reached, a number is held
twice only where it was from the start, the recipients of all targets have every target whose list
was not edited, a flag that goes off and the edit of a list touch what they should, and of a
request that was refused or failed nothing is left. -/
theorem no_recipient_drops_out (isDigit : Char → Bool) (start : Db) (edited : List (ℕ × ℕ))
    (hstart : Sound start edited start) (acts : List Act) (final : System)
    (hrun : Transition.run (System.step isDigit) ⟨start, [], edited, []⟩ acts = some final) :
    (∀ row ∈ final.db.recipients, row.phone.isSome = true ∨ row.email.isSome = true) ∧
    (∀ a ∈ final.db.recipients, ∀ b ∈ final.db.recipients, a.id ≠ b.id → ∀ phone,
      a.phone = some phone → b.phone = some phone →
        start.Holds a.id phone ∧ start.Holds b.id phone) ∧
    (∀ row ∈ final.db.recipients, row.enableForAllTargets = true → ∀ target ∈ final.db.targets,
      (target, row.id) ∉ final.edited → (target, row.id) ∈ final.db.assigned) ∧
    (∀ entry ∈ final.history, entry.Kept) ∧
    ∀ request status, final.phases[request]? = some (.done status) → 400 ≤ status →
      final.Unwritten request ∨
        ∃ id, final.Wrote request id ∧ (∀ row ∈ final.db.recipients, row.id ≠ id) ∧
          ∀ pair ∈ final.db.assigned, pair.2 ≠ id := by
  have hfirst : System.Inv start ⟨start, [], edited, []⟩ :=
    ⟨hstart, fun _ _ h => by simp at h, fun _ h => by simp at h, fun _ h => by simp at h⟩
  have hinv : final.Inv start :=
    Transition.run_invariant (fun hinv hstep => hinv.step hstep) hfirst hrun
  have hsound := hinv.sound
  refine ⟨fun row hrow => ?_, hsound.held, hsound.flagged, hinv.kept,
    fun request status hphase hstatus => ?_⟩
  · exact (Bool.or_eq_true _ _).mp (hsound.contact row hrow)
  · obtain hok | hunwritten | ⟨id, hwrote, hgone⟩ := hinv.ledger request _ hphase
    · omega
    · exact .inl hunwritten
    · refine .inr ⟨id, hwrote, hgone, fun pair hpair hid => ?_⟩
      obtain ⟨row, hrow, hrowId⟩ := hsound.known pair hpair
      exact hgone row hrow (hrowId.trans hid)

theorem sound_empty : Sound {} [] {} where
  keyed := Table.keyed_nil
  contact _ h := by cases h
  fresh _ h := by cases h
  held _ h := by cases h
  flagged _ h := by cases h
  known _ h := by cases h

/-- A recipient of all targets, a target, and a second recipient with the same number. -/
def flaggedRun : List Act :=
  [.request (.createRecipient ⟨"a".toList, some "0151 2345678".toList, none, true, true⟩),
    .request (.createRecipient ⟨"b".toList, some "+491512345678".toList, none, true, false⟩),
    .request (.createTarget []), .advance 0 false, .advance 1 false, .advance 0 false,
    .advance 2 false, .advance 1 false, .advance 0 false]

theorem isSome_flaggedRun :
    (Transition.run (System.step Char.isDigit) ⟨{}, [], [], []⟩ flaggedRun).isSome = true := by
  decide +kernel

theorem no_recipient_drops_out_flagged :
    (((Transition.run (System.step Char.isDigit) ⟨{}, [], [], []⟩ flaggedRun).get
      isSome_flaggedRun).db.recipients.all fun row => row.phone.isSome || row.email.isSome) =
      true := by
  have hkept := (no_recipient_drops_out Char.isDigit {} [] sound_empty flaggedRun _
    (Option.some_get isSome_flaggedRun).symm).1
  exact List.all_eq_true.mpr fun row hrow => (Bool.or_eq_true _ _).mpr (hkept row hrow)

end Justup.Recipients
