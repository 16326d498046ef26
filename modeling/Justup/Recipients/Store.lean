import Justup.Store.Line

/-!
# Recipients and their assignments

The tables of recipients, targets and assignments with the writing transactions
of recipients and of the list of a target.  A transaction that raises leaves the
tables as they were.
-/

namespace Justup.Recipients

open Store

/-! ## Tables -/

/-- A phone number or an email address: a text that is not empty. -/
abbrev Contact := { text : Text // text ≠ [] }

structure Recipient where
  id : ℕ
  name : Text
  phone : Option Contact
  email : Option Contact
  isEnabled : Bool
  enableForAllTargets : Bool
  deriving DecidableEq

/-- The rows, and the last ids of `sqlite_sequence`: an id is never given twice. -/
structure Db where
  recipients : List Recipient := []
  targets : List ℕ := []
  /-- `target_recipients`: a target and a recipient -/
  assigned : List (ℕ × ℕ) := []
  lastRecipient : ℕ := 0
  lastTarget : ℕ := 0
  deriving DecidableEq

/-- `get_recipient` -/
def Db.getRecipient (db : Db) (id : ℕ) : Option Recipient :=
  db.recipients.find? fun row => row.id = id

/-- `get_recipient_by_phone` -/
def Db.getRecipientByPhone (db : Db) (phone : Contact) : Option Recipient :=
  db.recipients.find? fun row => row.phone = some phone

inductive WriteError where
  | duplicatePhone
  | integrity
  deriving DecidableEq

/-- The condition of `_assert_phone_free`. -/
def Db.phoneFree (db : Db) (phone : Contact) (exclude : Option ℕ) : Bool :=
  db.recipients.all fun row => row.phone ≠ some phone || some row.id = exclude

/-- The `CHECK` of a recipient. -/
def Recipient.checked (row : Recipient) : Bool := row.phone.isSome || row.email.isSome

/-- `INSERT OR IGNORE` of distinct assignments. -/
def insertOrIgnore (assigned new : List (ℕ × ℕ)) : List (ℕ × ℕ) :=
  assigned ++ new.filter fun pair => pair ∉ assigned

/-- `_assign_to_all_targets` -/
def Db.assignToAllTargets (db : Db) (recipient : ℕ) : Db :=
  { db with
    assigned := insertOrIgnore db.assigned (db.targets.map fun target => (target, recipient)) }

/-- `assign_flagged_recipients` -/
def Db.assignFlagged (db : Db) (target : ℕ) : Db :=
  { db with
    assigned := insertOrIgnore db.assigned
      ((db.recipients.filter Recipient.enableForAllTargets).map fun row => (target, row.id)) }

/-! ## Recipients -/

/-- `create_recipient`; the id of the new row is not looked at. -/
def Db.createRecipient (db : Db) (new : Recipient) : Except WriteError (Db × ℕ) :=
  if new.phone.any fun phone => !db.phoneFree phone none then .error .duplicatePhone
  else if !new.checked then .error .integrity
  else
    let id := db.lastRecipient + 1
    let db := { db with recipients := db.recipients ++ [{ new with id := id }], lastRecipient := id }
    .ok (if new.enableForAllTargets then db.assignToAllTargets id else db, id)

/-- The arguments of `update_recipient`. -/
structure Update where
  name : Option Text
  phone : Option Contact
  email : Option Contact
  isEnabled : Option Bool
  enableForAllTargets : Option Bool
  clearPhone : Bool
  clearEmail : Bool

/-- The `UPDATE` of a row. -/
def Update.apply (update : Update) (row : Recipient) : Recipient where
  id := row.id
  name := update.name.getD row.name
  phone := if update.clearPhone then none else update.phone.or row.phone
  email := if update.clearEmail then none else update.email.or row.email
  isEnabled := update.isEnabled.getD row.isEnabled
  enableForAllTargets := update.enableForAllTargets.getD row.enableForAllTargets

/-- The `UPDATE` of the row with this id. -/
def Db.updateRow (db : Db) (id : ℕ) (update : Update) : Db :=
  { db with recipients := db.recipients.map fun row => if row.id = id then update.apply row else row }

/-- `DELETE FROM target_recipients WHERE recipient_id = ?` -/
def Db.unassign (db : Db) (recipient : ℕ) : Db :=
  { db with assigned := db.assigned.filter fun pair => pair.2 ≠ recipient }

/-- `update_recipient` -/
def Db.updateRecipient (db : Db) (id : ℕ) (update : Update) : Except WriteError Db :=
  let previous := db.getRecipient id
  -- an unchanged number stays, even while it is held twice
  let duplicate := update.phone.any fun phone =>
    previous.bind Recipient.phone ≠ some phone && !db.phoneFree phone (some id)
  let changed := db.updateRow id update
  if duplicate then .error .duplicatePhone
  else if previous.any fun row => !(update.apply row).checked then .error .integrity
  else
    match update.enableForAllTargets, previous with
    | some true, some _ => .ok (changed.assignToAllTargets id)
    | some false, some row => .ok (if row.enableForAllTargets then changed.unassign id else changed)
    | _, _ => .ok changed

/-- `delete_recipient`; the assignments go with the row. -/
def Db.deleteRecipient (db : Db) (id : ℕ) : Db :=
  { db.unassign id with recipients := db.recipients.filter fun row => row.id ≠ id }

/-! ## Targets -/

/-- `set_target_recipients`: none for an `IntegrityError`. -/
def Db.setTargetRecipients (db : Db) (target : ℕ) (recipients : List ℕ) : Option Db :=
  if recipients.Nodup ∧ (recipients.all fun id => (db.getRecipient id).isSome) ∧
      (recipients = [] ∨ target ∈ db.targets) then
    some { db with
      assigned := (db.assigned.filter fun pair => pair.1 ≠ target) ++
        recipients.map fun id => (target, id) }
  else none

/-- The transaction of the creation of a target: none for an unknown recipient or an
`IntegrityError`. -/
def Db.createTarget (db : Db) (recipients : List ℕ) : Option Db :=
  if recipients.all fun id => (db.getRecipient id).isSome then
    let target := db.lastTarget + 1
    let db := { db with targets := db.targets ++ [target], lastTarget := target }
    (if recipients = [] then some db else db.setTargetRecipients target recipients.eraseDups).map
      fun db => db.assignFlagged target
  else none

/-- `delete_target`; the assignments go with the row. -/
def Db.deleteTarget (db : Db) (target : ℕ) : Db :=
  { db with
    targets := db.targets.filter fun id => id ≠ target
    assigned := db.assigned.filter fun pair => pair.1 ≠ target }

end Justup.Recipients
