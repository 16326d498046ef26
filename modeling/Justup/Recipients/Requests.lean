import Justup.Recipients.Store

/-!
# Requests on recipients and targets

Each request of the API as the steps that it takes: its reads, its checks and
its writing transaction are steps of their own, so other requests come between
them.  The payloads are those that passed the models of the requests.
-/

namespace Justup.Recipients

open Store

/-! ## Phone numbers -/

section

-- `isDigit` is `str.isdigit` of a character
variable (isDigit : Char → Bool)

def isAsciiDigit (c : Char) : Bool := '0' ≤ c && c ≤ '9'

/-- `_E164_RE.fullmatch` -/
def e164 (text : Text) : Option Contact :=
  match text with
  | '+' :: first :: rest =>
      if '1' ≤ first && first ≤ '9' && 7 ≤ rest.length && rest.length ≤ 14 &&
          rest.all isAsciiDigit then
        some ⟨'+' :: first :: rest, List.cons_ne_nil _ _⟩
      else none
  | _ => none

/-- `normalize_phone`, none for a `ValueError`. -/
def normalizePhone (phone : Text) : Option Contact :=
  if phone = [] then none
  else if phone.any fun c => isDigit c && !decide (c.toNat < 128) then none
  else
    let p := (strip phone).filter fun c => isAsciiDigit c || c == '+'
    if p.count '+' > 1 ∨ ('+' ∈ p ∧ p.head? ≠ some '+') then none
    else
      let p := if "00".toList.isPrefixOf p then '+' :: p.drop 2 else p
      let p :=
        if p.head? = some '+' then p else "+49".toList ++ p.dropWhile (· == '0')
      e164 p

/-! ## Payloads -/

structure RecipientCreate where
  name : Text
  phone : Option Text
  email : Option Contact
  isEnabled : Bool
  enableForAllTargets : Bool

/-- The fields that are set; a field may be set to null. -/
structure RecipientUpdate where
  name : Option (Option Text)
  phone : Option (Option Text)
  email : Option (Option Contact)
  isEnabled : Option (Option Bool)
  enableForAllTargets : Option (Option Bool)

/-- Whether any field is set. -/
def RecipientUpdate.any (payload : RecipientUpdate) : Bool :=
  payload.name.isSome || payload.phone.isSome || payload.email.isSome ||
    payload.isEnabled.isSome || payload.enableForAllTargets.isSome

/-- The update of a payload, with its number normalized. -/
def RecipientUpdate.update (payload : RecipientUpdate) (phone : Option Contact) : Update where
  name := payload.name.join
  phone := phone
  email := payload.email.join
  isEnabled := payload.isEnabled.join
  enableForAllTargets := payload.enableForAllTargets.join
  clearPhone := payload.phone.isSome && phone.isNone
  clearEmail := payload.email.any Option.isNone

/-! ## Requests -/

/-- Where a request is.  What it does next is one step. -/
inductive Phase where
  | createRecipient (payload : RecipientCreate)
  | createWrite (new : Recipient)
  | created (id : ℕ)
  | updateRecipient (id : ℕ) (payload : RecipientUpdate)
  | updateCheck (id : ℕ) (existing : Recipient) (payload : RecipientUpdate) (phone : Contact)
  | updateWrite (id : ℕ) (update : Update)
  | updated (id : ℕ)
  | deleteRecipient (id : ℕ)
  | deleteWrite (id : ℕ)
  | createTarget (recipients : List ℕ)
  | deleteTarget (target : ℕ)
  | deleteTargetWrite (target : ℕ)
  | editTarget (target : ℕ) (recipients : List ℕ)
  | editCheck (target : ℕ) (recipients unchecked : List ℕ)
  | editWrite (target : ℕ) (recipients : List ℕ)
  /-- The status of the response. -/
  | done (status : ℕ)

/-- A request that has come in. -/
def Phase.isInitial : Phase → Bool
  | .createRecipient _ | .updateRecipient _ _ | .deleteRecipient _ | .createTarget _
  | .deleteTarget _ | .editTarget _ _ => true
  | _ => false

/-- `create_recipient` of the API up to its transaction. -/
def startCreate (db : Db) (payload : RecipientCreate) : Phase :=
  let write := fun phone =>
    Phase.createWrite
      ⟨0, payload.name, phone, payload.email, payload.isEnabled, payload.enableForAllTargets⟩
  match payload.phone.filter (· ≠ []) with
  | none => if payload.email.isNone then .done 400 else write none
  | some text =>
      match normalizePhone isDigit text with
      | none => .done 400
      | some phone => if (db.getRecipientByPhone phone).isSome then .done 409 else write (some phone)

/-- The last check of `update_recipient`, with the number of the payload normalized. -/
def finishCheck (id : ℕ) (existing : Recipient) (payload : RecipientUpdate)
    (phone : Option Contact) : Phase :=
  let update := payload.update phone
  if (update.apply existing).checked then
    if payload.any then .updateWrite id update else .updated id
  else .done 400

/-- `update_recipient` of the API up to the first look for the number. -/
def startUpdate (db : Db) (id : ℕ) (payload : RecipientUpdate) : Phase :=
  match db.getRecipient id with
  | none => .done 404
  | some existing =>
      match payload.phone.join.filter (· ≠ []) with
      | none => finishCheck id existing payload none
      | some text =>
          match normalizePhone isDigit text with
          | none => .done 400
          | some phone =>
              if existing.phone = some phone then finishCheck id existing payload (some phone)
              else .updateCheck id existing payload phone

/-- One step of a request, with what the tables become.  With `fails` a transaction raises for
another reason: a locked database, a collision of targets, leftover files, too many tasks. -/
def Phase.step (fails : Bool) (db : Db) : Phase → Phase × Db
  | .createRecipient payload => (startCreate isDigit db payload, db)
  | .createWrite new =>
      if fails then (.done 500, db)
      else
        match db.createRecipient new with
        | .ok (db', id) => (.created id, db')
        | .error .duplicatePhone => (.done 409, db)
        | .error .integrity => (.done 500, db)
  | .created id => (.done (if (db.getRecipient id).isSome then 201 else 500), db)
  | .updateRecipient id payload => (startUpdate isDigit db id payload, db)
  | .updateCheck id existing payload phone =>
      if (db.getRecipientByPhone phone).any fun other => other.id ≠ id then (.done 409, db)
      else (finishCheck id existing payload (some phone), db)
  | .updateWrite id update =>
      if fails then (.done 500, db)
      else
        match db.updateRecipient id update with
        | .ok db' => (.updated id, db')
        | .error .duplicatePhone => (.done 409, db)
        | .error .integrity => (.done 500, db)
  | .updated id => (.done (if (db.getRecipient id).isSome then 200 else 500), db)
  | .deleteRecipient id =>
      (if (db.getRecipient id).isSome then .deleteWrite id else .done 404, db)
  | .deleteWrite id => if fails then (.done 500, db) else (.done 204, db.deleteRecipient id)
  | .createTarget recipients =>
      if fails then (.done 409, db)
      else
        match db.createTarget recipients with
        | some db' => (.done 201, db')
        | none => (.done 422, db)
  | .deleteTarget target =>
      (if target ∈ db.targets then .deleteTargetWrite target else .done 404, db)
  | .deleteTargetWrite target =>
      if fails then (.done 500, db) else (.done 204, db.deleteTarget target)
  | .editTarget target recipients =>
      (if target ∈ db.targets then .editCheck target recipients recipients else .done 404, db)
  | .editCheck target recipients (id :: unchecked) =>
      (if (db.getRecipient id).isSome then .editCheck target recipients unchecked else .done 400, db)
  | .editCheck target recipients [] =>
      (if fails then .done 429 else .editWrite target recipients, db)
  | .editWrite target recipients =>
      if fails then (.done 500, db)
      else
        match db.setTargetRecipients target recipients with
        | some db' => (.done 200, db')
        | none => (.done 500, db)
  | .done status => (.done status, db)

end

end Justup.Recipients
