import Justup.Lib.Table
import Justup.Targets.Identity

/-!
# Targets in the database

`create_target`, `update_target` and `delete_target`.  The values of a request
say of every column whether it was sent, and a value that was sent may be null.
A call that raises leaves what it wrote before, unless it owns its transaction.
-/

namespace Justup.Targets

open Lib Store

/-- Not sent, null, or a value. -/
abbrev Sent (α : Type) := Option (Option α)

/-- `values.get(key)` -/
def Sent.get {α : Type} (value : Sent α) : Option α := value.join

/-- `1 if values.get(key, default) else 0` -/
def Sent.flag (value : Sent Bool) (default : Bool) : Bool := (value.getD (some default)).getD false

/-- The value that an update leaves. -/
def Sent.over {α : Type} (value : Sent α) (old : Option α) : Option α := value.getD old

/-- Null was sent. -/
def Sent.isNull {α : Type} (value : Sent α) : Bool := value.any Option.isNone

/-- The value that an update of a `NOT NULL` column leaves. -/
def Sent.overRequired {α : Type} (value : Sent α) (old : α) : α := value.get.getD old

theorem Sent.over_some {α : Type} {value : Sent α} (hnull : value.isNull = false) (old : α) :
    value.over (some old) = some (value.overRequired old) := by
  match value, hnull with
  | none, _ => rfl
  | some (some _), _ => rfl

inductive Failure where
  | duplicate (conflicts : List Conflict)
  | raised
deriving DecidableEq

structure Db where
  targets : List Target := []
  /-- The names of the groups. -/
  groups : List Text := []
  nextId : Nat := 1
deriving DecidableEq

namespace Db

def target? (id : Nat) (db : Db) : Option Target := Table.row? Target.id id db.targets

/-- `_resolve_group_id`: a group that is unknown is created. -/
def resolveGroup (name : Option Text) (db : Db) : Db :=
  match orText name none with
  | none => db
  | some name => if name ∈ db.groups then db else { db with groups := db.groups ++ [name] }

theorem resolveGroup_targets (name : Option Text) (db : Db) :
    (db.resolveGroup name).targets = db.targets ∧ (db.resolveGroup name).nextId = db.nextId := by
  unfold resolveGroup
  split
  · exact ⟨rfl, rfl⟩
  · split <;> exact ⟨rfl, rfl⟩

/-- The rows that the duplicate check reads. -/
def candidates (signature : Text) (db : Db) : List Target :=
  db.targets.filter fun row =>
    decide (row.identitySignature = some signature) || row.identitySignature.isNone

/-- `_assert_no_exact_duplicate`: what it raises. -/
def assertNoExactDuplicate (unicode : Unicode) (data : Checks) (excludeId : Option Nat)
    (db : Db) : Option Failure :=
  match identitySignature unicode data with
  | none => some .raised
  | some none => none
  | some (some signature) =>
      match classifyConflicts unicode data (db.candidates signature) excludeId with
      | none => some .raised
      | some conflicts =>
          if exactConflicts conflicts = [] then none
          else some (.duplicate (exactConflicts conflicts))

end Db

/-! ## Creating a target -/

def defaultTcpPorts : Text := "80".toList

/-- The values that `create_target` reads. -/
structure CreateValues where
  name : Option Text
  group : Option Text := none
  isEnabled : Sent Bool := none
  intervalSeconds : Int
  retentionDays : Int
  enablePing : Sent Bool := none
  enableHttpCheck : Sent Bool := none
  enableCertExpiration : Sent Bool := none
  enableTcpConnect : Sent Bool := none
  host : Option Text
  pingHost : Option Text := none
  httpUrl : Option Text := none
  httpUsername : Option Text := none
  httpPassword : Option Text := none
  httpPreferHead : Sent Bool := none
  httpBasicAuthEnabled : Sent Bool := none
  httpSuccessCodes : Option Text := none
  httpPort : Option Int := none
  certHost : Option Text := none
  certPort : Option Int := none
  ignoreCertErrors : Sent Bool := none
  tcpHost : Option Text := none
  tcpPorts : Option Text := none
  maxRetries : Sent Int := none
  pingTimeoutMinutes : Sent Int := none
  autoCloseAlert : Sent Bool := none
  slaEnabled : Sent Bool := none
  slaAvailabilityPct : Option ℚ := none
  slaResponseTimeMs : Option ℚ := none
  slaPingLatencyMs : Option ℚ := none

namespace CreateValues

def checks (values : CreateValues) : Checks where
  host := values.host
  enablePing := values.enablePing.flag false
  pingHost := values.pingHost
  enableHttpCheck := values.enableHttpCheck.flag false
  httpUrl := values.httpUrl
  httpPort := values.httpPort
  enableTcpConnect := values.enableTcpConnect.flag false
  tcpHost := values.tcpHost
  tcpPorts := values.tcpPorts

/-- `int(port) if port else None` -/
def portColumn (port : Option Int) : Option Int := if port = some 0 then none else port

/-- The row that is inserted; `none` where a conversion or a `NOT NULL` raises. -/
def row (values : CreateValues) (id : Nat) (now : Int) (signature : Option Text) :
    Option Target := do
  let name ← values.name
  let host ← values.host
  let maxRetries ← values.maxRetries.getD (some 5)
  let pingTimeoutMinutes ← values.pingTimeoutMinutes.getD (some 5)
  some {
    id := id
    name := name
    group := orText values.group none
    isEnabled := values.isEnabled.flag true
    intervalSeconds := values.intervalSeconds
    retentionDays := values.retentionDays
    enablePing := values.enablePing.flag false
    enableHttpCheck := values.enableHttpCheck.flag false
    enableCertExpiration := values.enableCertExpiration.flag false
    enableTcpConnect := values.enableTcpConnect.flag false
    host := host
    pingHost := values.pingHost
    httpUrl := values.httpUrl
    httpUsername := values.httpUsername
    httpPassword := values.httpPassword
    httpPreferHead := values.httpPreferHead.flag true
    httpBasicAuthEnabled := values.httpBasicAuthEnabled.flag false
    httpSuccessCodes := values.httpSuccessCodes
    httpPort := portColumn values.httpPort
    certHost := values.certHost
    certPort := portColumn values.certPort
    ignoreCertErrors := values.ignoreCertErrors.flag false
    tcpHost := values.tcpHost
    tcpPorts := some ((orText values.tcpPorts none).getD defaultTcpPorts)
    maxRetries := maxRetries
    pingTimeoutMinutes := pingTimeoutMinutes
    autoCloseAlert := values.autoCloseAlert.flag true
    slaEnabled := values.slaEnabled.flag false
    slaAvailabilityPct := values.slaAvailabilityPct
    slaResponseTimeMs := values.slaResponseTimeMs
    slaPingLatencyMs := values.slaPingLatencyMs
    identitySignature := signature
    createdAt := now
    updatedAt := now }

end CreateValues

/-- A result and the database that is left. -/
abbrev Outcome (α : Type) := Except Failure α × Db

/-- `with transaction(conn)`, or the body alone. -/
def transaction {α : Type} (manage : Bool) (body : Db → Outcome α) (db : Db) : Outcome α :=
  match body db with
  | (.error failure, later) => (.error failure, if manage then db else later)
  | (.ok value, later) => (.ok value, later)

def createBody (unicode : Unicode) (now : Int) (values : CreateValues) (db : Db) : Outcome Nat :=
  match db.assertNoExactDuplicate unicode values.checks none with
  | some failure => (.error failure, db)
  | none =>
      let db := db.resolveGroup values.group
      let signature := (identitySignature unicode values.checks).join
      match values.row db.nextId now signature with
      | none => (.error .raised, db)
      | some row =>
          if row.checked then
            (.ok row.id, { db with targets := db.targets ++ [row], nextId := db.nextId + 1 })
          else (.error .raised, db)

/-- `create_target` -/
def createTarget (unicode : Unicode) (now : Int) (manage : Bool) (values : CreateValues) :
    Db → Outcome Nat :=
  transaction manage (createBody unicode now values)

/-! ## Changing a target -/

/-- A patch of the columns that `update_target` allows, and the group. -/
structure Patch where
  name : Sent Text := none
  group : Sent Text := none
  isEnabled : Sent Bool := none
  intervalSeconds : Sent Int := none
  retentionDays : Sent Int := none
  enablePing : Sent Bool := none
  enableHttpCheck : Sent Bool := none
  enableCertExpiration : Sent Bool := none
  enableTcpConnect : Sent Bool := none
  host : Sent Text := none
  pingHost : Sent Text := none
  httpUrl : Sent Text := none
  httpUsername : Sent Text := none
  httpPassword : Sent Text := none
  httpPreferHead : Sent Bool := none
  httpBasicAuthEnabled : Sent Bool := none
  httpSuccessCodes : Sent Text := none
  httpPort : Sent Int := none
  certHost : Sent Text := none
  certPort : Sent Int := none
  ignoreCertErrors : Sent Bool := none
  tcpHost : Sent Text := none
  tcpPorts : Sent Text := none
  maxRetries : Sent Int := none
  pingTimeoutMinutes : Sent Int := none
  autoCloseAlert : Sent Bool := none
  slaEnabled : Sent Bool := none
  slaAvailabilityPct : Sent ℚ := none
  slaResponseTimeMs : Sent ℚ := none
  slaPingLatencyMs : Sent ℚ := none
deriving DecidableEq

namespace Patch

/-- The identities are those of the row with the patch. -/
def checks (patch : Patch) (old : Target) : Checks where
  host := patch.host.over (some old.host)
  enablePing := (patch.enablePing.over (some old.enablePing)).getD false
  pingHost := patch.pingHost.over old.pingHost
  enableHttpCheck := (patch.enableHttpCheck.over (some old.enableHttpCheck)).getD false
  httpUrl := patch.httpUrl.over old.httpUrl
  httpPort := patch.httpPort.over old.httpPort
  enableTcpConnect := (patch.enableTcpConnect.over (some old.enableTcpConnect)).getD false
  tcpHost := patch.tcpHost.over old.tcpHost
  tcpPorts := patch.tcpPorts.over old.tcpPorts

/-- A column that is `NOT NULL` is set to null. -/
def nulls (patch : Patch) : Bool :=
  patch.name.isNull || patch.isEnabled.isNull || patch.intervalSeconds.isNull ||
    patch.retentionDays.isNull || patch.enablePing.isNull || patch.enableHttpCheck.isNull ||
    patch.enableCertExpiration.isNull || patch.enableTcpConnect.isNull || patch.host.isNull ||
    patch.httpPreferHead.isNull || patch.httpBasicAuthEnabled.isNull ||
    patch.ignoreCertErrors.isNull || patch.maxRetries.isNull ||
    patch.pingTimeoutMinutes.isNull || patch.autoCloseAlert.isNull || patch.slaEnabled.isNull

/-- The row that the `UPDATE` leaves. -/
def row (patch : Patch) (old : Target) (now : Int) (signature : Option Text) : Target where
  id := old.id
  name := patch.name.overRequired old.name
  group := (patch.group.map fun name => orText name none).getD old.group
  isEnabled := patch.isEnabled.overRequired old.isEnabled
  intervalSeconds := patch.intervalSeconds.overRequired old.intervalSeconds
  retentionDays := patch.retentionDays.overRequired old.retentionDays
  enablePing := patch.enablePing.overRequired old.enablePing
  enableHttpCheck := patch.enableHttpCheck.overRequired old.enableHttpCheck
  enableCertExpiration := patch.enableCertExpiration.overRequired old.enableCertExpiration
  enableTcpConnect := patch.enableTcpConnect.overRequired old.enableTcpConnect
  host := patch.host.overRequired old.host
  pingHost := patch.pingHost.over old.pingHost
  httpUrl := patch.httpUrl.over old.httpUrl
  httpUsername := patch.httpUsername.over old.httpUsername
  httpPassword := patch.httpPassword.over old.httpPassword
  httpPreferHead := patch.httpPreferHead.overRequired old.httpPreferHead
  httpBasicAuthEnabled := patch.httpBasicAuthEnabled.overRequired old.httpBasicAuthEnabled
  httpSuccessCodes := patch.httpSuccessCodes.over old.httpSuccessCodes
  httpPort := patch.httpPort.over old.httpPort
  certHost := patch.certHost.over old.certHost
  certPort := patch.certPort.over old.certPort
  ignoreCertErrors := patch.ignoreCertErrors.overRequired old.ignoreCertErrors
  tcpHost := patch.tcpHost.over old.tcpHost
  tcpPorts := patch.tcpPorts.over old.tcpPorts
  maxRetries := patch.maxRetries.overRequired old.maxRetries
  pingTimeoutMinutes := patch.pingTimeoutMinutes.overRequired old.pingTimeoutMinutes
  autoCloseAlert := patch.autoCloseAlert.overRequired old.autoCloseAlert
  slaEnabled := patch.slaEnabled.overRequired old.slaEnabled
  slaAvailabilityPct := patch.slaAvailabilityPct.over old.slaAvailabilityPct
  slaResponseTimeMs := patch.slaResponseTimeMs.over old.slaResponseTimeMs
  slaPingLatencyMs := patch.slaPingLatencyMs.over old.slaPingLatencyMs
  identitySignature := signature
  createdAt := old.createdAt
  updatedAt := now

end Patch

def updateBody (unicode : Unicode) (now : Int) (targetId : Nat) (patch : Patch) (db : Db) :
    Outcome Unit :=
  let existing := db.target? targetId
  let db := if patch.group.isSome then db.resolveGroup patch.group.get else db
  match existing with
  | none => (.ok (), db)
  | some old =>
      match db.assertNoExactDuplicate unicode (patch.checks old) (some targetId) with
      | some failure => (.error failure, db)
      | none =>
          let signature := (identitySignature unicode (patch.checks old)).join
          let row := patch.row old now signature
          if patch.nulls = false ∧ row.checked = true then
            (.ok (), { db with
              targets := Table.update Target.id targetId (fun _ => row) db.targets })
          else (.error .raised, db)

/-- `update_target` -/
def updateTarget (unicode : Unicode) (now : Int) (manage : Bool) (targetId : Nat) (patch : Patch)
    (db : Db) : Outcome Unit :=
  if patch = {} then (.ok (), db) else transaction manage (updateBody unicode now targetId patch) db

/-- `delete_target` -/
def deleteTarget (targetId : Nat) (db : Db) : Db :=
  { db with targets := db.targets.filter fun row => decide (row.id ≠ targetId) }

/-! ## Calls -/

inductive Call where
  | create (values : CreateValues)
  | update (targetId : Nat) (patch : Patch)
  | delete (targetId : Nat)

def perform (unicode : Unicode) (now : Int) (manage : Bool) (db : Db) : Call → Outcome Unit
  | .create values =>
      match createTarget unicode now manage values db with
      | (.ok _, later) => (.ok (), later)
      | (.error failure, later) => (.error failure, later)
  | .update targetId patch => updateTarget unicode now manage targetId patch db
  | .delete targetId => (.ok (), deleteTarget targetId db)

end Justup.Targets
