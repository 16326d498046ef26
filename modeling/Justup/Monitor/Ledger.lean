import Justup.Monitor.Scheduler

/-!
# The ledger of the alerts

Every alert has its events in the outbox, one for the opening and one for a recovery, and
the operations on alerts keep it so.  What is active was active before, or is new.
-/

namespace Justup.Monitor

open Justup.Alerts
open Justup.Lib.Table
open Justup.Store (Text)

/-- An open alert of an incident that goes on. -/
def isActive (alert : Alert) : Bool := alert.status = .open && alert.activeIncident

/-- What is active was active before, in the same row. -/
def Shrinks (db next : AlertDb) : Prop :=
  ∀ alert ∈ next.alerts, isActive alert = true → alert ∈ db.alerts

theorem shrinks_of_map {db next : AlertDb} {f : Alert → Alert}
    (hrows : next.alerts = db.alerts.map f)
    (hf : ∀ alert, f alert = alert ∨ isActive (f alert) = false) : Shrinks db next := by
  intro alert halert hactive
  rw [hrows] at halert
  obtain ⟨old, hold, rfl⟩ := List.mem_map.mp halert
  obtain hsame | hended := hf old
  · rw [hsame]
    exact hold
  · rw [hended] at hactive
    cases hactive

/-- The events of the alerts: one for the opening, one for a recovery. -/
structure Ledger (db : AlertDb) : Prop where
  alerts : Keyed Alert.id db.alerts
  outbox : Keyed OutboxEntry.key db.outbox
  opened : ∀ alert ∈ db.alerts, ∃ entry ∈ db.outbox, entry.key = (alert.id, .open)
  ended : ∀ alert ∈ db.alerts, (∃ entry ∈ db.outbox, entry.key = (alert.id, .resolved)) →
    alert.status = .resolved
  told : ∀ alert ∈ db.alerts, alert.status = .resolved → alert.isAcknowledged = false →
    ∃ entry ∈ db.outbox, entry.key = (alert.id, .resolved)

/-- A change of the rows that tells nothing: what is resolved stays so, and what becomes
resolved is acknowledged. -/
theorem Ledger.map {db : AlertDb} (hledger : Ledger db) {f : Alert → Alert}
    (hid : ∀ alert, (f alert).id = alert.id)
    (hended : ∀ alert, alert.status = .resolved → (f alert).status = .resolved)
    (htold : ∀ alert, (f alert).status = .resolved → (f alert).isAcknowledged = false →
      alert.status = .resolved ∧ alert.isAcknowledged = false) :
    Ledger { db with alerts := db.alerts.map f } where
  alerts := hledger.alerts.map hid
  outbox := hledger.outbox
  opened alert halert := by
    obtain ⟨old, hold, rfl⟩ := List.mem_map.mp halert
    rw [hid]
    exact hledger.opened old hold
  ended alert halert hevent := by
    obtain ⟨old, hold, rfl⟩ := List.mem_map.mp halert
    rw [hid] at hevent
    exact hended old (hledger.ended old hold hevent)
  told alert halert hresolved hquiet := by
    obtain ⟨old, hold, rfl⟩ := List.mem_map.mp halert
    rw [hid]
    obtain ⟨holdResolved, holdQuiet⟩ := htold old hresolved hquiet
    exact hledger.told old hold holdResolved holdQuiet

theorem Ledger.sublist {db : AlertDb} (hledger : Ledger db) {alerts : List Alert}
    (hsub : alerts.Sublist db.alerts) : Ledger { db with alerts := alerts } where
  alerts := hledger.alerts.sublist hsub
  outbox := hledger.outbox
  opened alert halert := hledger.opened alert (hsub.subset halert)
  ended alert halert := hledger.ended alert (hsub.subset halert)
  told alert halert := hledger.told alert (hsub.subset halert)

/-- An event is there after it was enqueued, and nothing else is new. -/
theorem enqueue_spec (now : Int) (event : EventType) (alert : Alert) (endedAt duration : Option Int)
    {outbox : List OutboxEntry} (hkeyed : Keyed OutboxEntry.key outbox) :
    Keyed OutboxEntry.key (enqueueAlertDispatch now event alert endedAt duration outbox) ∧
      (∃ entry ∈ enqueueAlertDispatch now event alert endedAt duration outbox,
        entry.key = (alert.id, event)) ∧
      ∀ key, (∃ entry ∈ enqueueAlertDispatch now event alert endedAt duration outbox,
        entry.key = key) ↔ (∃ entry ∈ outbox, entry.key = key) ∨ key = (alert.id, event) := by
  unfold enqueueAlertDispatch
  split_ifs with hthere
  · obtain ⟨entry, hentry, hkey⟩ := List.any_eq_true.mp hthere
    have hkey := of_decide_eq_true hkey
    refine ⟨hkeyed, ⟨entry, hentry, hkey⟩, fun key => ⟨.inl, ?_⟩⟩
    rintro (hold | rfl)
    · exact hold
    · exact ⟨entry, hentry, hkey⟩
  · refine ⟨hkeyed.snoc fun entry hentry hkey => ?_, ⟨_, List.mem_concat_self, rfl⟩,
      fun key => ⟨?_, ?_⟩⟩
    · exact hthere (List.any_eq_true.mpr ⟨entry, hentry, decide_eq_true hkey⟩)
    · rintro ⟨entry, hentry, rfl⟩
      obtain hold | hnew := List.mem_append.mp hentry
      · exact .inl ⟨entry, hold, rfl⟩
      · rw [List.mem_singleton.mp hnew]
        exact .inr rfl
    · rintro (⟨entry, hentry, rfl⟩ | rfl)
      · exact ⟨entry, List.mem_append_left _ hentry, rfl⟩
      · exact ⟨_, List.mem_concat_self, rfl⟩

/-- The row that `create_alert` adds under a new id. -/
structure Creates (db next : AlertDb) (alert : Alert) : Prop where
  alerts : next.alerts = db.alerts ++ [alert]
  ledger : Ledger next
  ids : ∀ key, (∃ entry ∈ next.outbox, entry.key = key) ↔
    (∃ entry ∈ db.outbox, entry.key = key) ∨ key = (alert.id, .open)

theorem Ledger.create {db next : AlertDb} (hledger : Ledger db) {now : Int} {id targetId : Nat}
    {targetName failedService : Text} {startedAt : Int}
    (hnew : ∀ entry ∈ db.outbox, entry.alertId ≠ id)
    (hcreate : createAlert now (newAlert id targetId targetName failedService startedAt) true db =
      some next) :
    Creates db next (newAlert id targetId targetName failedService startedAt) := by
  unfold createAlert at hcreate
  by_cases hthere : (db.alerts.any fun old =>
      old.id = (newAlert id targetId targetName failedService startedAt).id) = true
  · rw [if_pos hthere] at hcreate
    cases hcreate
  rw [if_neg hthere, if_pos rfl] at hcreate
  cases hcreate
  generalize halert : newAlert id targetId targetName failedService startedAt = alert at *
  have hid : alert.id = id := by rw [← halert]; rfl
  have hopen : alert.status = .open := by rw [← halert]; rfl
  obtain ⟨hkeyed, hevent, hkeys⟩ :=
    enqueue_spec now .open alert none none hledger.outbox
  have hfresh : ∀ old ∈ db.alerts, old.id ≠ alert.id := fun old hold hsame =>
    hthere (List.any_eq_true.mpr ⟨old, hold, decide_eq_true hsame⟩)
  have hkept {key : Nat × EventType} (hkey : key.2 = .resolved) :
      (∃ entry ∈ enqueueAlertDispatch now .open alert none none db.outbox, entry.key = key) ↔
        ∃ entry ∈ db.outbox, entry.key = key := by
    rw [hkeys]
    refine or_iff_left fun hsame => ?_
    rw [hsame] at hkey
    cases hkey
  refine ⟨rfl, ⟨hledger.alerts.snoc hfresh, hkeyed, ?_, ?_, ?_⟩, hkeys⟩
  · intro other hother
    obtain hold | hlast := List.mem_append.mp hother
    · exact (hkeys _).mpr (.inl (hledger.opened other hold))
    · rw [List.mem_singleton.mp hlast]
      exact hevent
  · intro other hother hresolved
    obtain hold | hlast := List.mem_append.mp hother
    · exact hledger.ended other hold ((hkept rfl).mp hresolved)
    · obtain ⟨entry, hentry, hkey⟩ := (hkept rfl).mp hresolved
      rw [List.mem_singleton.mp hlast] at hkey
      exact absurd ((congrArg Prod.fst hkey).trans hid) (hnew entry hentry)
  · intro other hother hresolved hquiet
    obtain hold | hlast := List.mem_append.mp hother
    · exact (hkept rfl).mpr (hledger.told other hold hresolved hquiet)
    · rw [List.mem_singleton.mp hlast, hopen] at hresolved
      cases hresolved

/-- What a closing does: the row ends, and no other row becomes active. -/
structure Closes (db next : AlertDb) (id : Nat) : Prop where
  ledger : Ledger next
  shrinks : Shrinks db next
  ended : ∀ alert ∈ next.alerts, alert.id = id → isActive alert = false
  ids : next.alerts.map Alert.id = db.alerts.map Alert.id
  keys : ∀ entry ∈ next.outbox, (∃ old ∈ db.outbox, old.key = entry.key) ∨
    ∃ alert ∈ db.alerts, alert.id = entry.alertId

theorem ids_update (id : Nat) {f : Alert → Alert} (hf : ∀ alert, (f alert).id = alert.id)
    (alerts : List Alert) :
    (update Alert.id id f alerts).map Alert.id = alerts.map Alert.id := by
  rw [update, List.map_map]
  exact List.map_congr_left fun alert _ => key_update hf alert

theorem Ledger.resolve {db : AlertDb} (hledger : Ledger db) (now : Int) (id : Nat)
    (endedAt : Int) : Closes db (resolveAlert now id endedAt true db) id := by
  unfold resolveAlert
  cases hrow : row? Alert.id id db.alerts with
  | none =>
      refine ⟨hledger, fun alert halert _ => halert, fun alert halert hid => ?_, rfl,
        fun entry hentry => .inl ⟨entry, hentry, rfl⟩⟩
      exact absurd hid (by simpa using List.find?_eq_none.mp hrow alert halert)
  | some row =>
      obtain ⟨hmem, rfl⟩ := mem_of_row? hrow
      dsimp only
      rw [if_pos rfl]
      obtain ⟨hkeyed, hevent, hkeys⟩ := enqueue_spec now .resolved row (some endedAt)
        (some (wholeSeconds (endedAt - row.startedAt))) hledger.outbox
      have hchange : ∀ alert : Alert, (resolved endedAt alert).id = alert.id := fun _ => rfl
      have hother {alert : Alert} (hkept : alert.id ≠ row.id) (key : EventType) :
          (∃ entry ∈ enqueueAlertDispatch now .resolved row (some endedAt)
            (some (wholeSeconds (endedAt - row.startedAt))) db.outbox,
              entry.key = (alert.id, key)) ↔ ∃ entry ∈ db.outbox, entry.key = (alert.id, key) := by
        rw [hkeys]
        exact or_iff_left fun hsame => hkept (congrArg Prod.fst hsame)
      refine ⟨⟨hledger.alerts.update hchange _, hkeyed, ?_, ?_, ?_⟩, ?_, ?_,
        ids_update _ hchange _, ?_⟩
      · intro alert halert
        obtain ⟨old, hold, rfl⟩ := mem_update.mp halert
        rw [key_update hchange]
        exact (hkeys _).mpr (.inl (hledger.opened old hold))
      · intro alert halert hresolved
        obtain ⟨old, hold, rfl⟩ := mem_update.mp halert
        split_ifs at hresolved ⊢ with hsame
        · rfl
        · exact hledger.ended old hold ((hother hsame .resolved).mp hresolved)
      · intro alert halert hresolved hquiet
        obtain ⟨old, hold, rfl⟩ := mem_update.mp halert
        split_ifs at hresolved hquiet ⊢ with hsame
        · have hid : (resolved endedAt old).id = row.id := hsame
          rw [hid]
          exact hevent
        · exact (hother hsame .resolved).mpr (hledger.told old hold hresolved hquiet)
      · refine shrinks_of_map rfl fun alert => ?_
        split_ifs
        · exact .inr rfl
        · exact .inl rfl
      · intro alert halert hid
        obtain ⟨old, hold, rfl⟩ := mem_update.mp halert
        rw [key_update hchange] at hid
        rw [if_pos hid]
        rfl
      · intro entry hentry
        obtain ⟨old, hold, hkey⟩ | hkey := (hkeys entry.key).mp ⟨entry, hentry, rfl⟩
        · exact .inl ⟨old, hold, hkey⟩
        · exact .inr ⟨row, hmem, (congrArg Prod.fst hkey).symm⟩

theorem Ledger.deactivate {db : AlertDb} (hledger : Ledger db) (id : Nat) :
    Closes db (deactivateAlert id db) id := by
  have hchange : ∀ alert, (deactivated alert).id = alert.id := fun alert => by
    unfold deactivated
    split_ifs <;> rfl
  have hstatus : ∀ alert, (deactivated alert).status = alert.status ∧
      (deactivated alert).isAcknowledged = alert.isAcknowledged := fun alert => by
    unfold deactivated
    split_ifs <;> exact ⟨rfl, rfl⟩
  have hinactive : ∀ alert, isActive (deactivated alert) = false := fun alert => by
    unfold deactivated isActive
    split_ifs with hopen
    · simp
    · simp [hopen]
  refine ⟨hledger.map (key_update hchange) ?_ ?_, shrinks_of_map rfl ?_, ?_,
    ids_update _ hchange _, fun entry hentry => .inl ⟨entry, hentry, rfl⟩⟩
  · intro alert hresolved
    split_ifs
    · exact (hstatus alert).1.trans hresolved
    · exact hresolved
  · intro alert hresolved hquiet
    split_ifs at hresolved hquiet
    · exact ⟨(hstatus alert).1.symm.trans hresolved, (hstatus alert).2.symm.trans hquiet⟩
    · exact ⟨hresolved, hquiet⟩
  · intro alert
    split_ifs
    · exact .inr (hinactive alert)
    · exact .inl rfl
  · intro alert halert hid
    obtain ⟨old, hold, rfl⟩ := mem_update.mp halert
    rw [key_update hchange] at hid
    rw [if_pos hid]
    exact hinactive old

/-- An acknowledgement leaves a row alone, or ends it and says so. -/
def Acknowledges (f : Alert → Alert) : Prop :=
  ∀ alert, f alert = alert ∨
    (f alert).id = alert.id ∧ (f alert).status = .resolved ∧ (f alert).isAcknowledged = true

theorem Ledger.acknowledge {db : AlertDb} (hledger : Ledger db) {f : Alert → Alert}
    (hf : Acknowledges f) :
    Ledger { db with alerts := db.alerts.map f } ∧
      Shrinks db { db with alerts := db.alerts.map f } := by
  have hid : ∀ alert, (f alert).id = alert.id := fun alert => by
    obtain hsame | ⟨hsame, -⟩ := hf alert
    · rw [hsame]
    · exact hsame
  refine ⟨hledger.map hid ?_ ?_, shrinks_of_map rfl ?_⟩
  · intro alert hresolved
    obtain hsame | ⟨-, hended, -⟩ := hf alert
    · rw [hsame, hresolved]
    · exact hended
  · intro alert hresolved hquiet
    obtain hsame | ⟨-, -, hacknowledged⟩ := hf alert
    · rw [hsame] at hresolved hquiet
      exact ⟨hresolved, hquiet⟩
    · rw [hacknowledged] at hquiet
      cases hquiet
  · intro alert
    obtain hsame | ⟨-, hended, -⟩ := hf alert
    · exact .inl hsame
    · exact .inr (by simp [isActive, hended])

theorem acknowledges_one (now : Int) (id : Nat) (by_ : Text) :
    Acknowledges fun alert => if alert.id = id then acknowledgeOne now by_ alert else alert := by
  intro alert
  dsimp only
  unfold acknowledgeOne
  split_ifs
  · exact .inl rfl
  · exact .inr ⟨rfl, rfl, rfl⟩
  · exact .inl rfl

theorem acknowledges_all (elapsed : Int → Int → Rat) (now : Int) (by_ : Text) :
    Acknowledges (acknowledgeOpen elapsed now by_) := by
  intro alert
  unfold acknowledgeOpen
  split_ifs
  · exact .inr ⟨rfl, rfl, rfl⟩
  · exact .inl rfl

end Justup.Monitor
