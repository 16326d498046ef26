import Justup.Incidents.Incident
import Justup.Lib.Transition

/-!
# An incident is closed with its recovery row

`resolve_incident` deletes the incident and has `emit` store the recovery row;
`emit` swallows its storage error, and the incident is closed without the row:
this is the defect.  Every other pattern of errors leaves the incident open or
closes it together with the row.
-/

namespace Justup.Incidents

open Lib.Fallible Lib.Transition

variable {name : String} {inbox later : Inbox}

/-! ## Keys -/

theorem recoveredKey_inj {id id' : Nat} (hkey : recoveredKey name id = recoveredKey name id') :
    id = id' :=
  Nat.repr_injective ((String.append_right_inj _).mp hkey)

theorem draft_key_ne_recoveredKey (report : Report) (id : Nat) :
    (report.draft name).idempotencyKey ≠ recoveredKey name id := by
  intro hkey
  unfold Report.draft recoveredKey at hkey
  dsimp only at hkey
  rw [String.append_assoc, String.append_assoc, String.append_assoc, String.append_assoc,
    String.append_right_inj, String.append_right_inj] at hkey
  have hchars := congrArg String.toList hkey
  simp [String.toList_append] at hchars

/-! ## The inbox between two statements -/

namespace Inbox

def keys (inbox : Inbox) : List String := inbox.notices.keys

def ids (inbox : Inbox) : List Nat := inbox.notices.ids

/-- The inbox with a new row. -/
def added (draft : Draft) (inbox : Inbox) (hfresh : draft.idempotencyKey ∉ inbox.keys) : Inbox :=
  { inbox with notices := inbox.notices.add draft hfresh }

@[simp] theorem keys_added {draft : Draft} {inbox : Inbox}
    (hfresh : draft.idempotencyKey ∉ inbox.keys) :
    (inbox.added draft hfresh).keys = inbox.keys ++ [draft.idempotencyKey] := by
  simp [added, keys, Notices.keys, Notices.add]

@[simp] theorem ids_added {draft : Draft} {inbox : Inbox}
    (hfresh : draft.idempotencyKey ∉ inbox.keys) :
    (inbox.added draft hfresh).ids = inbox.ids ++ [inbox.notices.lastId + 1] := by
  simp [added, ids, Notices.ids, Notices.add]

@[simp] theorem keys_rewriteRow (id : Nat) (title body : String) (severity : Severity)
    (inbox : Inbox) : (inbox.rewriteRow id title body severity).keys = inbox.keys := by
  unfold keys rewriteRow Notices.keys Notices.update
  rw [List.map_map]
  exact List.map_congr_left fun row _ => Notice.key_rewrite id title body severity row

@[simp] theorem ids_rewriteRow (id : Nat) (title body : String) (severity : Severity)
    (inbox : Inbox) : (inbox.rewriteRow id title body severity).ids = inbox.ids := by
  unfold ids rewriteRow Notices.ids Notices.update
  rw [List.map_map]
  exact List.map_congr_left fun row _ => Notice.id_rewrite id title body severity row

@[simp] theorem incidents_setIncident (name : String) (state : Option IncidentState)
    (inbox : Inbox) : (inbox.setIncident name state).incidents name = state := by
  simp [setIncident]

theorem insert_of_fresh {draft : Draft} {inbox : Inbox} (hfresh : draft.idempotencyKey ∉ inbox.keys) :
    inbox.insert draft = (some (inbox.notices.lastId + 1), inbox.added draft hfresh) := by
  have hinsert : inbox.notices.insert draft =
      (some (inbox.notices.lastId + 1), inbox.notices.add draft hfresh) := dif_neg hfresh
  rw [insert, hinsert]
  rfl

theorem insert_of_known {draft : Draft} {inbox : Inbox} (hknown : draft.idempotencyKey ∈ inbox.keys) :
    inbox.insert draft = (none, inbox) := by
  have hinsert : inbox.notices.insert draft = (none, inbox.notices) := dif_pos hknown
  rw [insert, hinsert]

theorem le_lastId_of_mem {inbox : Inbox} {id : Nat} (hid : id ∈ inbox.ids) :
    id ≤ inbox.notices.lastId := by
  obtain ⟨row, hrow, rfl⟩ := List.mem_map.mp hid
  exact inbox.notices.numbered row hrow

end Inbox

/-- An open incident owns a row, and its recovery row is still to come. -/
structure Sound (name : String) (inbox : Inbox) : Prop where
  past : ∀ id, recoveredKey name id ∈ inbox.keys → id ≤ inbox.notices.lastId
  owned : ∀ state, inbox.incidents name = some state → state.notificationId ∈ inbox.ids ∧
    recoveredKey name state.notificationId ∉ inbox.keys

namespace Sound

/-- Only the keys, the ids and the incident matter. -/
theorem congr (hsound : Sound name inbox) (hkeys : later.keys = inbox.keys)
    (hids : later.ids = inbox.ids) (hlast : later.notices.lastId = inbox.notices.lastId)
    (hincident : later.incidents name = inbox.incidents name) : Sound name later where
  past := by rw [hkeys, hlast]; exact hsound.past
  owned := by rw [hincident, hids, hkeys]; exact hsound.owned

theorem setIncident (hsound : Sound name inbox) {state : Option IncidentState}
    (howned : ∀ open', state = some open' → open'.notificationId ∈ inbox.ids ∧
      recoveredKey name open'.notificationId ∉ inbox.keys) :
    Sound name (inbox.setIncident name state) where
  past := hsound.past
  owned := by
    intro open' hopen
    rw [Inbox.incidents_setIncident] at hopen
    exact howned open' hopen

/-- A new row that is not the recovery of the open incident. -/
theorem added {draft : Draft} (hsound : Sound name inbox)
    (hfresh : draft.idempotencyKey ∉ inbox.keys)
    (hpast : ∀ id, draft.idempotencyKey = recoveredKey name id → id ≤ inbox.notices.lastId)
    (howned : ∀ state, inbox.incidents name = some state →
      draft.idempotencyKey ≠ recoveredKey name state.notificationId) :
    Sound name (inbox.added draft hfresh) where
  past := by
    intro id hkey
    rw [Inbox.keys_added, List.mem_append, List.mem_singleton] at hkey
    obtain hkey | hkey := hkey
    · exact (hsound.past id hkey).trans (Nat.le_succ _)
    · exact (hpast id hkey.symm).trans (Nat.le_succ _)
  owned := by
    intro state hstate
    obtain ⟨hid, hkey⟩ := hsound.owned state hstate
    rw [Inbox.ids_added, Inbox.keys_added, List.mem_append, List.mem_append]
    refine ⟨.inl hid, fun hmem => ?_⟩
    obtain hmem | hmem := hmem
    · exact hkey hmem
    · exact howned state hstate (List.mem_singleton.mp hmem).symm

end Sound

/-- No row is lost, and an incident stays open under its notification or has its recovery row. -/
structure Carries (name : String) (inbox later : Inbox) : Prop where
  kept : ∀ key ∈ inbox.keys, key ∈ later.keys
  closed : ∀ state, inbox.incidents name = some state →
    (∃ state', later.incidents name = some state' ∧
      state'.notificationId = state.notificationId) ∨
    recoveredKey name state.notificationId ∈ later.keys

namespace Carries

theorem refl (name : String) (inbox : Inbox) : Carries name inbox inbox :=
  ⟨fun _ hkey => hkey, fun state hstate => .inl ⟨state, hstate, rfl⟩⟩

theorem trans {middle : Inbox} (hfirst : Carries name inbox middle)
    (hsecond : Carries name middle later) : Carries name inbox later where
  kept := fun key hkey => hsecond.kept key (hfirst.kept key hkey)
  closed := by
    intro state hstate
    obtain ⟨state', hmiddle, hid⟩ | hrow := hfirst.closed state hstate
    · rw [← hid]
      exact hsecond.closed state' hmiddle
    · exact .inr (hsecond.kept _ hrow)

/-- The incident stays as it was. -/
theorem of_incident (hkept : ∀ key ∈ inbox.keys, key ∈ later.keys)
    (hincident : later.incidents name = inbox.incidents name) : Carries name inbox later :=
  ⟨hkept, fun state hstate => .inl ⟨state, hincident.trans hstate, rfl⟩⟩

theorem added {draft : Draft} (hfresh : draft.idempotencyKey ∉ inbox.keys) :
    Carries name inbox (inbox.added draft hfresh) :=
  of_incident (fun key hkey => by simp [hkey]) rfl

end Carries

/-! ## Routines -/

/-- What `emit` can do with a row: it may be stored without its id being returned. -/
inductive Emitted (faults : EmitFaults) (row : Draft) (inbox : Inbox) : Option Nat → Inbox → Prop
  | stored (hfresh : row.idempotencyKey ∉ inbox.keys) :
      Emitted faults row inbox (some (inbox.notices.lastId + 1)) (inbox.added row hfresh)
  | unseen (hfresh : row.idempotencyKey ∉ inbox.keys) :
      Emitted faults row inbox none (inbox.added row hfresh)
  | known (hknown : row.idempotencyKey ∈ inbox.keys) : Emitted faults row inbox none inbox
  | failed (hfault : faults.block.opening = true ∨ faults.insert = true) :
      Emitted faults row inbox none inbox

theorem emit_spec (faults : EmitFaults) (draft : Draft) (inbox : Inbox) :
    Meets (emit faults draft) inbox fun result later =>
      ∃ id, result = some id ∧ Emitted faults draft.cleaned inbox id later := by
  refine meets_attempt (meets_nested (fun hopening => ⟨none, rfl, .failed (.inl hopening)⟩)
    fun _ => meets_statement (fun hinsert => ?_) fun _ => ?_)
  · dsimp only
    split <;> exact ⟨none, rfl, .failed (.inr hinsert)⟩
  · by_cases hknown : draft.cleaned.idempotencyKey ∈ inbox.keys
    · rw [Inbox.insert_of_known hknown]
      dsimp only
      split <;> exact ⟨none, rfl, .known hknown⟩
    · rw [Inbox.insert_of_fresh hknown]
      dsimp only
      split
      · exact ⟨none, rfl, .unseen hknown⟩
      · exact ⟨_, rfl, .stored hknown⟩

/-- Any program whose statements all keep a property keeps it as a block. -/
theorem meets_block_of_keeps {α : Type} {own : Bool} {faults : BlockFaults}
    {body : Prog Inbox α} {keeps : Inbox → Prop} (hinbox : keeps inbox)
    (hbody : Meets body inbox fun _ later => keeps later) :
    Meets (block own faults body) inbox fun _ later => keeps later := by
  cases own
  · refine meets_nested (fun _ => hinbox) fun _ => hbody.imp fun result later hlater => ?_
    cases result with
    | none =>
        dsimp only
        split
        · exact hlater
        · exact hinbox
    | some value => exact hlater
  · refine meets_owned (fun _ => hinbox) fun _ => hbody.imp fun result later hlater => ?_
    cases result with
    | none => exact hinbox
    | some value =>
        dsimp only
        split
        · exact hinbox
        · exact hlater

/-- What every step of a routine is to keep, from the inbox in which the routine began. -/
def Keeps (name : String) (inbox later : Inbox) : Prop :=
  Sound name later ∧ Carries name inbox later

theorem Keeps.trans {middle : Inbox} (hfirst : Keeps name inbox middle)
    (hsecond : Keeps name middle later) : Keeps name inbox later :=
  ⟨hsecond.1, hfirst.2.trans hsecond.2⟩

theorem keeps_refl (hsound : Sound name inbox) : Keeps name inbox inbox :=
  ⟨hsound, .refl name inbox⟩

/-- The same rows under the same keys, and the same incidents. -/
structure SameRows (inbox later : Inbox) : Prop where
  keys : later.keys = inbox.keys
  ids : later.ids = inbox.ids
  lastId : later.notices.lastId = inbox.notices.lastId
  incidents : later.incidents = inbox.incidents

theorem SameRows.keeps (hsame : SameRows inbox later) (hsound : Sound name inbox) :
    Keeps name inbox later :=
  ⟨hsound.congr hsame.keys hsame.ids hsame.lastId (congrFun hsame.incidents name),
    .of_incident (fun key hkey => by rwa [hsame.keys]) (congrFun hsame.incidents name)⟩

theorem rewriteIncidentRow_spec (faults : RewriteFaults) (state : IncidentState)
    (title body : String) (severity : Severity) (renotify : Bool) (inbox : Inbox) :
    Meets (rewriteIncidentRow faults state title body severity renotify) inbox
      fun _ later => SameRows inbox later := by
  have hrewritten : SameRows inbox (inbox.rewriteRow state.notificationId title body severity) :=
    ⟨by simp, by simp, rfl, rfl⟩
  unfold rewriteIncidentRow
  refine meets_bind (meets_statement (fun _ => ⟨rfl, rfl, rfl, rfl⟩) fun _ => ?_)
  dsimp only
  split
  · refine meets_bind (meets_statement (fun _ => hrewritten) fun _ => ?_)
    exact meets_statement (fun _ => ⟨hrewritten.keys, hrewritten.ids, rfl, rfl⟩)
      fun _ => ⟨hrewritten.keys, hrewritten.ids, rfl, rfl⟩
  · exact meets_pure hrewritten

/-- A row that is emitted while no incident is open. -/
theorem keeps_emitted {faults : EmitFaults} {row : Draft} {id : Option Nat}
    (hsound : Sound name inbox) (hnone : inbox.incidents name = none)
    (hpast : ∀ id, row.idempotencyKey = recoveredKey name id → id ≤ inbox.notices.lastId)
    (hemitted : Emitted faults row inbox id later) : Keeps name inbox later := by
  have hadded (hfresh : row.idempotencyKey ∉ inbox.keys) :
      Keeps name inbox (inbox.added row hfresh) :=
    ⟨hsound.added hfresh hpast fun state hstate => by simp [hnone] at hstate, .added hfresh⟩
  cases hemitted with
  | stored hfresh => exact hadded hfresh
  | unseen hfresh => exact hadded hfresh
  | known | failed => exact keeps_refl hsound

/-- The incident is set under a notification that it may own. -/
theorem keeps_setIncident (hsound : Sound name inbox) {state : IncidentState}
    (hid : state.notificationId ∈ inbox.ids)
    (hkey : recoveredKey name state.notificationId ∉ inbox.keys)
    (hsame : ∀ open', inbox.incidents name = some open' →
      state.notificationId = open'.notificationId) :
    Keeps name inbox (inbox.setIncident name (some state)) := by
  refine ⟨hsound.setIncident ?_, fun _ hold => hold, ?_⟩
  · rintro _ ⟨⟩
    exact ⟨hid, hkey⟩
  · intro open' hopen
    exact .inl ⟨state, by simp, hsame open' hopen⟩

theorem keeps_reportIncident (hsound : Sound name inbox) (own : Bool) (faults : ReportFaults)
    (report : Report) :
    Meets (reportIncident own faults name report) inbox fun _ later => Keeps name inbox later := by
  refine meets_attempt (meets_block_of_keeps (keeps_refl hsound) ?_)
  refine meets_bind (meets_statement (fun _ => keeps_refl hsound) fun _ => ?_)
  dsimp only
  cases hincident : inbox.incidents name with
  | none =>
      have hpast : ∀ id, (report.draft name).cleaned.idempotencyKey = recoveredKey name id →
          id ≤ inbox.notices.lastId := fun id hkey => absurd hkey (draft_key_ne_recoveredKey report id)
      refine meets_bind ((emit_spec _ _ _).imp ?_)
      rintro _ later ⟨id, rfl, hemitted⟩
      have hkeeps := keeps_emitted hsound hincident hpast hemitted
      cases hemitted with
      | stored hfresh =>
          refine meets_bind (meets_statement (fun _ => hkeeps) fun _ => meets_pure ?_)
          refine hkeeps.trans (keeps_setIncident hkeeps.1 (by simp) ?_ fun open' hopen => ?_)
          · intro hkey
            rw [Inbox.keys_added, List.mem_append, List.mem_singleton] at hkey
            obtain hkey | hkey := hkey
            · exact absurd (hsound.past _ hkey) (Nat.not_succ_le_self _)
            · exact draft_key_ne_recoveredKey report _ hkey.symm
          · simp [Inbox.added, hincident] at hopen
      | unseen | known | failed => exact meets_pure hkeeps
  | some state =>
      obtain ⟨hid, hkey⟩ := hsound.owned state hincident
      have hset {later : Inbox} (hsame : SameRows inbox later) {state' : IncidentState}
          (hstate' : state'.notificationId = state.notificationId) :
          Keeps name inbox (later.setIncident name (some state')) := by
        have hkeeps := hsame.keeps hsound
        refine hkeeps.trans (keeps_setIncident hkeeps.1 ?_ ?_ ?_)
        · rwa [hstate', hsame.ids]
        · rwa [hstate', hsame.keys]
        · intro open' hopen
          rw [hsame.incidents, hincident] at hopen
          rw [hstate', ← Option.some.inj hopen]
      have hrefl : SameRows inbox inbox := ⟨rfl, rfl, rfl, rfl⟩
      dsimp only
      split
      · refine meets_bind ((rewriteIncidentRow_spec _ _ _ _ _ _ _).imp fun result later hsame => ?_)
        cases result with
        | none => exact hsame.keeps hsound
        | some _ =>
            exact meets_bind (meets_statement (fun _ => hsame.keeps hsound) fun _ =>
              meets_pure (hset hsame rfl))
      · exact meets_bind (meets_statement (fun _ => keeps_refl hsound) fun _ =>
          meets_pure (hset hrefl rfl))

theorem keeps_updateIncident (hsound : Sound name inbox) (own : Bool) (faults : UpdateFaults)
    (title body : String) (severity : Severity) (renotify : Bool) :
    Meets (updateIncident own faults name title body severity renotify) inbox
      fun _ later => Keeps name inbox later := by
  refine meets_attempt (meets_block_of_keeps (keeps_refl hsound) ?_)
  refine meets_bind (meets_statement (fun _ => keeps_refl hsound) fun _ => ?_)
  dsimp only
  split
  · exact meets_pure (keeps_refl hsound)
  · refine meets_bind ((rewriteIncidentRow_spec _ _ _ _ _ _ _).imp fun result later hsame => ?_)
    cases result with
    | none => exact hsame.keeps hsound
    | some _ => exact meets_pure (hsame.keeps hsound)

/-! ## Closing -/

/-- The statement that deletes the incident is executed. -/
def ResolveFaults.deletes (faults : ResolveFaults) : Bool :=
  !faults.block.opening && !faults.select && !faults.delete.block.opening && !faults.delete.delete

/-- The deletion stays although the recovery row is not stored: the error of `emit` is swallowed
and the transaction goes on, or the savepoint that would undo the deletion is not rolled back
to. -/
def LosesRecovery (own : Bool) (faults : ResolveFaults) (name : String) (inbox : Inbox) : Prop :=
  inbox.incidents name ≠ none ∧ faults.deletes = true ∧
    (faults.delete.block.closing = true ∧ own = false ∧ faults.block.rollingBack = true ∨
      faults.delete.block.closing = false ∧
        (faults.emit.block.opening = true ∨ faults.emit.insert = true) ∧
        ¬ (own = true ∧ faults.block.closing = true))

instance (own : Bool) (faults : ResolveFaults) (name : String) (inbox : Inbox) :
    Decidable (LosesRecovery own faults name inbox) :=
  inferInstanceAs (Decidable (_ ∧ _))

/-- What the body of `resolve_incident` can do: it raises before the deletion or when it cannot
release the savepoint of the deletion, and otherwise has `emit` store the row. -/
inductive Resolved (faults : ResolveFaults) (name title body : String) (now : Int)
    (inbox : Inbox) : Option (Option Nat) → Inbox → Prop
  | untouched : Resolved faults name title body now inbox none inbox
  | raised (later : Inbox) (hopen : inbox.incidents name ≠ none) (hdeletes : faults.deletes = true)
      (hclosing : faults.delete.block.closing = true) :
      Resolved faults name title body now inbox none later
  | closed (hclosed : inbox.incidents name = none) :
      Resolved faults name title body now inbox (some none) inbox
  | emitted (state : IncidentState) (hopen : inbox.incidents name = some state)
      (hdeletes : faults.deletes = true) (hclosing : faults.delete.block.closing = false)
      (id : Option Nat) (later : Inbox) (hemitted : Emitted faults.emit
        (recoveredDraft name title body now state).cleaned (inbox.setIncident name none) id later) :
      Resolved faults name title body now inbox (some id) later

theorem resolveBody_spec (faults : ResolveFaults) (title body : String) (now : Int)
    (hopening : faults.block.opening = false) :
    Meets (do
      let state ← getIncident faults.select name
      match state with
      | none => pure none
      | some state =>
          deleteSetting faults.delete name
          emit faults.emit (recoveredDraft name title body now state)) inbox
      (Resolved faults name title body now inbox) := by
  refine meets_bind (meets_statement (fun _ => .untouched) fun hselect => ?_)
  dsimp only
  cases hincident : inbox.incidents name with
  | none => exact meets_pure (.closed hincident)
  | some state =>
      refine meets_bind (meets_nested (fun _ => .untouched) fun hdelete => ?_)
      refine meets_statement (fun _ => ?_) fun hdeleted => ?_
      · dsimp only
        split <;> exact .untouched
      have hdeletes : faults.deletes = true := by
        simp [ResolveFaults.deletes, hopening, hselect, hdelete, hdeleted]
      cases hclosing : faults.delete.block.closing with
      | true => exact .raised _ (by simp [hincident]) hdeletes hclosing
      | false =>
        refine (emit_spec _ _ _).imp ?_
        rintro _ later ⟨id, rfl, hemitted⟩
        exact .emitted state hincident hdeletes hclosing id later hemitted

/-- With its incident deleted, only the stored row makes up for it. -/
theorem keeps_recovered {faults : EmitFaults} {title body : String} {now : Int} {id : Option Nat}
    {state : IncidentState} (hsound : Sound name inbox) (hincident : inbox.incidents name = some state)
    (hemitted : Emitted faults (recoveredDraft name title body now state).cleaned
      (inbox.setIncident name none) id later)
    (hstored : ¬ (faults.block.opening = true ∨ faults.insert = true)) :
    Keeps name inbox later := by
  obtain ⟨hid, hkey⟩ := hsound.owned state hincident
  have hgone : Sound name (inbox.setIncident name none) := hsound.setIncident (by simp)
  have hadded (hfresh : (recoveredDraft name title body now state).cleaned.idempotencyKey ∉
      (inbox.setIncident name none).keys) :
      Keeps name inbox ((inbox.setIncident name none).added _ hfresh) := by
    refine ⟨hgone.added hfresh (fun id hsame => ?_) (by simp), fun key hkey => ?_, ?_⟩
    · rw [← recoveredKey_inj hsame]
      exact Inbox.le_lastId_of_mem hid
    · rw [Inbox.keys_added]
      exact List.mem_append_left _ hkey
    · intro open' hopen
      rw [hincident] at hopen
      rw [Inbox.keys_added, ← Option.some.inj hopen]
      exact .inr (List.mem_append_right _ (List.mem_singleton.mpr rfl))
  cases hemitted with
  | stored hfresh => exact hadded hfresh
  | unseen hfresh => exact hadded hfresh
  | known hknown => exact absurd hknown hkey
  | failed hfault => exact absurd hfault hstored

theorem keeps_resolveIncident (hsound : Sound name inbox) (own : Bool) (faults : ResolveFaults)
    (title body : String) (now : Int) (hkeeps : ¬ LosesRecovery own faults name inbox) :
    Meets (resolveIncident own faults name title body now) inbox
      fun _ later => Keeps name inbox later := by
  refine meets_attempt ?_
  have hrefl := keeps_refl hsound
  cases own with
  | false =>
      refine meets_nested (fun _ => hrefl) fun hopening => ?_
      refine (resolveBody_spec faults title body now hopening).imp fun result later h => ?_
      cases h with
      | untouched =>
          dsimp only
          split <;> exact hrefl
      | raised _ hopen hdeletes hclosing =>
          dsimp only
          split
          next hrollback =>
            exact absurd ⟨hopen, hdeletes, .inl ⟨hclosing, rfl, hrollback⟩⟩ hkeeps
          next => exact hrefl
      | closed => exact hrefl
      | emitted state hopen hdeletes hclosing id _ hemitted =>
          refine keeps_recovered hsound hopen hemitted fun hfault => hkeeps ?_
          exact ⟨by simp [hopen], hdeletes, .inr ⟨hclosing, hfault, by simp⟩⟩
  | true =>
      refine meets_owned (fun _ => hrefl) fun hopening => ?_
      refine (resolveBody_spec faults title body now hopening).imp fun result later h => ?_
      cases h with
      | untouched | raised => exact hrefl
      | closed =>
          dsimp only
          split <;> exact hrefl
      | emitted state hopen hdeletes hclosing id _ hemitted =>
          dsimp only
          split
          next => exact hrefl
          next hcommit =>
            refine keeps_recovered hsound hopen hemitted fun hfault => hkeeps ?_
            exact ⟨by simp [hopen], hdeletes, .inr ⟨hclosing, hfault, by simp [hcommit]⟩⟩

/-! ## Sequences of calls -/

inductive Call where
  | report (faults : ReportFaults) (args : Report)
  | update (faults : UpdateFaults) (title body : String) (severity : Severity) (renotify : Bool)
  | resolve (faults : ResolveFaults) (title body : String) (now : Int)

/-- The inbox after the call, whatever it returned. -/
def Call.perform (own : Bool) (name : String) : Call → Inbox → Inbox
  | .report faults args, inbox => (reportIncident own faults name args inbox).2
  | .update faults title body severity renotify, inbox =>
      (updateIncident own faults name title body severity renotify inbox).2
  | .resolve faults title body now, inbox =>
      (resolveIncident own faults name title body now inbox).2

/-- What is committed, and the working copy of a transaction that the caller opened. -/
structure Session where
  committed : Inbox
  tx : Option Inbox

def Session.current (s : Session) : Inbox := s.tx.getD s.committed

inductive Act where
  | begin
  | call (call : Call)
  | commit
  /-- Also the end of a transaction whose `COMMIT` failed. -/
  | rollback

/-- An inbox in which the incident was never opened. -/
structure Fresh (name : String) (inbox : Inbox) : Prop where
  closed : inbox.incidents name = none
  unused : ∀ id, recoveredKey name id ∉ inbox.keys

namespace Session

variable {s next : Session}

def step (name : String) (s : Session) : Act → Option Session
  | .begin => if s.tx.isSome then none else some { s with tx := some s.committed }
  | .call call =>
      match s.tx with
      | none => some { s with committed := call.perform true name s.committed }
      | some working => some { s with tx := some (call.perform false name working) }
  | .commit => s.tx.map fun working => ⟨working, none⟩
  | .rollback => if s.tx.isSome then some { s with tx := none } else none

/-- The call of the action loses no recovery row. -/
def KeepsRecovery (name : String) (s : Session) : Act → Prop
  | .call (.resolve faults _ _ _) => ¬ LosesRecovery s.tx.isNone faults name s.current
  | _ => True

instance decidableKeepsRecovery (name : String) (s : Session) :
    ∀ act, Decidable (s.KeepsRecovery name act)
  | .call (.resolve ..) => inferInstanceAs (Decidable (¬ _))
  | .call (.report ..) | .call (.update ..) | .begin | .commit | .rollback => isTrue trivial

structure Consistent (name : String) (s : Session) : Prop where
  committed : Sound name s.committed
  working : ∀ working, s.tx = some working → Keeps name s.committed working

theorem keeps_perform (own : Bool) (call : Call) (hsound : Sound name inbox)
    (hkeeps : ∀ faults title body now, call = .resolve faults title body now →
      ¬ LosesRecovery own faults name inbox) : Keeps name inbox (call.perform own name inbox) := by
  cases call with
  | report faults args => exact keeps_reportIncident hsound own faults args
  | update faults title body severity renotify =>
      exact keeps_updateIncident hsound own faults title body severity renotify
  | resolve faults title body now =>
      exact keeps_resolveIncident hsound own faults title body now (hkeeps _ _ _ _ rfl)

/-- One step keeps what is committed consistent, and the next inbox carries the one before. -/
theorem consistent_step {act : Act} (hconsistent : s.Consistent name)
    (hkeeps : s.KeepsRecovery name act) (hstep : s.step name act = some next) :
    next.Consistent name ∧ Carries name s.committed next.committed := by
  obtain ⟨hcommitted, hworking⟩ := hconsistent
  cases act with
  | begin =>
      simp only [step] at hstep
      split at hstep
      · cases hstep
      · cases hstep
        refine ⟨⟨hcommitted, ?_⟩, .refl name s.committed⟩
        rintro _ ⟨⟩
        exact keeps_refl hcommitted
  | call call =>
      simp only [step] at hstep
      split at hstep
      next htx =>
        cases hstep
        have hcall : Keeps name s.committed (call.perform true name s.committed) := by
          refine keeps_perform true call hcommitted ?_
          rintro faults title body now rfl
          simpa [KeepsRecovery, current, htx] using hkeeps
        exact ⟨⟨hcall.1, by simp [htx]⟩, hcall.2⟩
      next working htx =>
        cases hstep
        have hkept := hworking working htx
        have hcall : Keeps name working (call.perform false name working) := by
          refine keeps_perform false call hkept.1 ?_
          rintro faults title body now rfl
          simpa [KeepsRecovery, current, htx] using hkeeps
        refine ⟨⟨hcommitted, ?_⟩, .refl name s.committed⟩
        rintro _ ⟨⟩
        exact hkept.trans hcall
  | commit =>
      obtain ⟨working, htx, rfl⟩ := Option.map_eq_some_iff.mp hstep
      have hkept := hworking working htx
      exact ⟨⟨hkept.1, by simp⟩, hkept.2⟩
  | rollback =>
      simp only [step] at hstep
      split at hstep
      · cases hstep
        exact ⟨⟨hcommitted, by simp⟩, .refl name s.committed⟩
      · cases hstep

theorem consistent_of_fresh {inbox : Inbox} (hfresh : Fresh name inbox) :
    Consistent name ⟨inbox, none⟩ where
  committed := {
    past := fun id hkey => absurd hkey (hfresh.unused id)
    owned := by simp [hfresh.closed] }
  working := by simp

/-- What is promised of the committed inbox. -/
structure Accounted (name : String) (s : Session) : Prop where
  /-- The open incident owns exactly one row. -/
  owns : ∀ state, s.committed.incidents name = some state →
    s.committed.ids.count state.notificationId = 1
  /-- The next step closes the incident only together with its one recovery row. -/
  closes : ∀ act next, s.KeepsRecovery name act → s.step name act = some next →
    ∀ state, s.committed.incidents name = some state →
      (∀ state', next.committed.incidents name = some state' →
        state'.notificationId ≠ state.notificationId) →
      s.committed.keys.count (recoveredKey name state.notificationId) = 0 ∧
        next.committed.keys.count (recoveredKey name state.notificationId) = 1

theorem Consistent.accounted (hconsistent : s.Consistent name) : s.Accounted name where
  owns := fun state hstate => List.count_eq_one_of_mem s.committed.notices.keyed
    (hconsistent.committed.owned state hstate).1
  closes := by
    intro act next hkeeps hstep state hstate hother
    obtain ⟨-, hcarries⟩ := consistent_step hconsistent hkeeps hstep
    refine ⟨List.count_eq_zero.mpr (hconsistent.committed.owned state hstate).2, ?_⟩
    obtain ⟨state', hstate', hid⟩ | hrow := hcarries.closed state hstate
    · exact absurd hid (hother state' hstate')
    · exact List.count_eq_one_of_mem next.committed.notices.unique hrow

/-- As long as no call loses a recovery row, an incident is never closed silently. -/
theorem incidents_accounted {inbox : Inbox} {acts : List Act} (hfresh : Fresh name inbox)
    (hok : RunOk (step name) (KeepsRecovery name) ⟨inbox, none⟩ acts)
    (hrun : run (step name) ⟨inbox, none⟩ acts = some s) : s.Accounted name :=
  (run_invariant_of (fun hconsistent hkeeps hstep => (consistent_step hconsistent hkeeps hstep).1)
    hok (consistent_of_fresh hfresh) hrun).accounted

end Session

end Justup.Incidents
