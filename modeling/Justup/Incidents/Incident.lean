import Justup.Lib.Fallible
import Mathlib

/-!
# Incidents of the notification inbox

`emit` and the three routines that open, refresh, rewrite and close the incident
of a name.  Each runs in a transaction of its own or in a savepoint of the
caller's, and every statement may fail.  Times are microseconds since 1970.

The live events that `_publish_after_commit` schedules change no table and are
left out, as are the columns that are empty in the rows written here.
-/

namespace Justup.Incidents

open Lib.Fallible

inductive Category where
  | monitoring
  | reports
  | delivery
  | security
  | activity
  deriving DecidableEq, Repr

inductive Severity where
  | info
  | success
  | warning
  | error
  deriving DecidableEq, Repr

inductive ResourceType where
  | target
  | alert
  | reportJob
  | queue
  deriving DecidableEq, Repr

inductive Audience where
  | admins
  | user
  | target
  deriving DecidableEq, Repr

def titleMax : Nat := 120
def bodyMax : Nat := 240

/-- `INCIDENT_UPDATE_MIN_SECONDS` -/
def incidentUpdateMinSeconds : Int := 1800

/-! ## Texts -/

/-- `_CONTROL_CHARS`; tab and newline are kept. -/
def isControl (char : Char) : Bool :=
  char.toNat ≤ 8 || (11 ≤ char.toNat && char.toNat ≤ 31) || char.toNat == 127

/-- What `str.strip` takes for white space. -/
def isSpace (char : Char) : Bool :=
  (9 ≤ char.toNat && char.toNat ≤ 13) || (28 ≤ char.toNat && char.toNat ≤ 32) ||
    (8192 ≤ char.toNat && char.toNat ≤ 8202) ||
    [133, 160, 5760, 8232, 8233, 8239, 8287, 12288].contains char.toNat

def rstrip (text : List Char) : List Char := (text.reverse.dropWhile isSpace).reverse

def strip (text : List Char) : List Char := rstrip (text.dropWhile isSpace)

/-- `_clean` -/
def clean (value : String) (limit : Nat) : String :=
  let text := strip (value.toList.map fun char => if isControl char then ' ' else char)
  if text.length ≤ limit then String.ofList text
  else String.ofList (rstrip (text.take (limit - 1)) ++ ['…'])

/-! ## Tables -/

/-- What `emit` is asked to store. -/
structure Draft where
  eventType : String
  category : Category
  severity : Severity
  title : String
  body : String
  createdAt : Int
  resourceType : Option ResourceType
  audience : Audience
  idempotencyKey : String
  deriving DecidableEq, Repr

/-- A row of `notifications`. -/
structure Notice extends Draft where
  id : Nat
  deriving DecidableEq, Repr

/-- The payload stored under the key of the incident. -/
structure IncidentState where
  since : Int
  notificationId : Nat
  lastUpdate : Int
  count : Nat
  category : Category
  resourceType : Option ResourceType
  deriving DecidableEq, Repr

/-- The table `notifications`, with what its schema guarantees. -/
structure Notices where
  rows : List Notice
  /-- The last id that `AUTOINCREMENT` gave. -/
  lastId : Nat
  unique : (rows.map fun row => row.idempotencyKey).Nodup
  keyed : (rows.map fun row => row.id).Nodup
  numbered : ∀ row ∈ rows, row.id ≤ lastId

namespace Notices

def keys (table : Notices) : List String := table.rows.map fun row => row.idempotencyKey

def ids (table : Notices) : List Nat := table.rows.map fun row => row.id

/-- A new row under a new key. -/
def add (draft : Draft) (table : Notices) (hfresh : draft.idempotencyKey ∉ table.keys) :
    Notices where
  rows := table.rows ++ [{ draft with id := table.lastId + 1 }]
  lastId := table.lastId + 1
  unique := by
    rw [List.map_append, List.nodup_append]
    refine ⟨table.unique, by simp, ?_⟩
    rintro key hkey other hother rfl
    obtain rfl := List.mem_singleton.mp hother
    exact hfresh hkey
  keyed := by
    rw [List.map_append, List.nodup_append]
    refine ⟨table.keyed, by simp, ?_⟩
    rintro id hid other hother rfl
    obtain rfl := List.mem_singleton.mp hother
    obtain ⟨row, hrow, hsame⟩ := List.mem_map.mp hid
    have hle := table.numbered row hrow
    dsimp only at hsame
    omega
  numbered := by
    intro row hrow
    obtain hrow | hrow := List.mem_append.mp hrow
    · exact (table.numbered row hrow).trans (Nat.le_succ _)
    · rw [List.mem_singleton.mp hrow]

/-- `INSERT … ON CONFLICT(idempotency_key) DO NOTHING`, with the new id if a row was written. -/
def insert (draft : Draft) (table : Notices) : Option Nat × Notices :=
  if hknown : draft.idempotencyKey ∈ table.keys then (none, table)
  else (some (table.lastId + 1), table.add draft hknown)

/-- Change rows, but neither their keys nor their ids. -/
def update (change : Notice → Notice) (hkey : ∀ row, (change row).idempotencyKey =
    row.idempotencyKey) (hid : ∀ row, (change row).id = row.id) (table : Notices) : Notices where
  rows := table.rows.map change
  lastId := table.lastId
  unique := by simpa [List.map_map, Function.comp_def, hkey] using table.unique
  keyed := by simpa [List.map_map, Function.comp_def, hid] using table.keyed
  numbered := by
    intro row hrow
    obtain ⟨old, hold, rfl⟩ := List.mem_map.mp hrow
    rw [hid]
    exact table.numbered old hold

end Notices

structure Inbox where
  notices : Notices
  /-- Notification and user, in `notification_reads` and in `notification_dismissals`. -/
  reads : List (Nat × Nat)
  dismissals : List (Nat × Nat)
  /-- The setting `inbox_incident.{name}` of every name. -/
  incidents : String → Option IncidentState

def Inbox.empty : Inbox where
  notices := ⟨[], 0, List.nodup_nil, List.nodup_nil, by simp⟩
  reads := []
  dismissals := []
  incidents := fun _ => none

def Inbox.insert (draft : Draft) (inbox : Inbox) : Option Nat × Inbox :=
  ((inbox.notices.insert draft).1, { inbox with notices := (inbox.notices.insert draft).2 })

def Inbox.setIncident (name : String) (state : Option IncidentState) (inbox : Inbox) : Inbox :=
  { inbox with incidents := Function.update inbox.incidents name state }

/-- The row of the id with new texts. -/
def Notice.rewrite (id : Nat) (title body : String) (severity : Severity) (row : Notice) : Notice :=
  if row.id = id then { row with
    title := clean title titleMax
    body := clean body bodyMax
    severity := severity }
  else row

theorem Notice.key_rewrite (id : Nat) (title body : String) (severity : Severity) (row : Notice) :
    (row.rewrite id title body severity).idempotencyKey = row.idempotencyKey := by
  unfold Notice.rewrite
  split <;> rfl

theorem Notice.id_rewrite (id : Nat) (title body : String) (severity : Severity) (row : Notice) :
    (row.rewrite id title body severity).id = row.id := by
  unfold Notice.rewrite
  split <;> rfl

/-- The first statement of `_rewrite_incident_row`. -/
def Inbox.rewriteRow (id : Nat) (title body : String) (severity : Severity) (inbox : Inbox) :
    Inbox where
  notices := inbox.notices.update (Notice.rewrite id title body severity)
    (Notice.key_rewrite id title body severity) (Notice.id_rewrite id title body severity)
  reads := inbox.reads
  dismissals := inbox.dismissals
  incidents := inbox.incidents

/-- The other two: everybody sees the row again as a new one. -/
def Inbox.deleteReads (id : Nat) (inbox : Inbox) : Inbox :=
  { inbox with reads := inbox.reads.filter fun read => read.1 ≠ id }

def Inbox.deleteDismissals (id : Nat) (inbox : Inbox) : Inbox :=
  { inbox with dismissals := inbox.dismissals.filter fun dismissal => dismissal.1 ≠ id }

/-! ## Storage errors

Each routine executes each of its statements at most once. -/

structure EmitFaults where
  block : BlockFaults := {}
  insert : Bool := false
  deriving DecidableEq, Repr

structure RewriteFaults where
  update : Bool := false
  reads : Bool := false
  dismissals : Bool := false
  deriving DecidableEq, Repr

structure ReportFaults where
  block : BlockFaults := {}
  select : Bool := false
  emit : EmitFaults := {}
  rewrite : RewriteFaults := {}
  upsert : Bool := false
  deriving DecidableEq, Repr

structure UpdateFaults where
  block : BlockFaults := {}
  select : Bool := false
  rewrite : RewriteFaults := {}
  deriving DecidableEq, Repr

structure DeleteFaults where
  block : BlockFaults := {}
  delete : Bool := false
  deriving DecidableEq, Repr

structure ResolveFaults where
  block : BlockFaults := {}
  select : Bool := false
  delete : DeleteFaults := {}
  emit : EmitFaults := {}
  deriving DecidableEq, Repr

/-! ## Routines -/

/-- The texts as they are stored. -/
def Draft.cleaned (draft : Draft) : Draft :=
  { draft with title := clean draft.title titleMax, body := clean draft.body bodyMax }

/-- The error of a statement is swallowed: `none` also says that the row exists. -/
def emit (faults : EmitFaults) (draft : Draft) : Prog Inbox (Option Nat) :=
  attempt none (nested faults.block (statement faults.insert (Inbox.insert draft.cleaned)))

/-- `get_incident` -/
def getIncident (fails : Bool) (name : String) : Prog Inbox (Option IncidentState) :=
  statement fails fun inbox => (inbox.incidents name, inbox)

/-- `set_setting` of the incident, without a transaction of its own. -/
def setSetting (fails : Bool) (name : String) (state : IncidentState) : Prog Inbox Unit :=
  statement fails fun inbox => ((), inbox.setIncident name (some state))

/-- `delete_setting` of the incident. -/
def deleteSetting (faults : DeleteFaults) (name : String) : Prog Inbox Unit :=
  nested faults.block (statement faults.delete fun inbox => ((), inbox.setIncident name none))

def rewriteIncidentRow (faults : RewriteFaults) (state : IncidentState) (title body : String)
    (severity : Severity) (renotify : Bool) : Prog Inbox Unit := do
  statement faults.update fun inbox =>
    ((), inbox.rewriteRow state.notificationId title body severity)
  if renotify then
    statement faults.reads fun inbox => ((), inbox.deleteReads state.notificationId)
    statement faults.dismissals fun inbox => ((), inbox.deleteDismissals state.notificationId)

/-- The arguments of `report_incident`. -/
structure Report where
  title : String
  body : String
  severity : Severity := .warning
  now : Int
  updateAfterSeconds : Int := incidentUpdateMinSeconds
  category : Category := .delivery
  resourceType : Option ResourceType := some .queue
  deriving DecidableEq, Repr

/-- `int(now.timestamp())`, in decimal. -/
def seconds (now : Int) : String := toString (now.tdiv 1000000)

def Report.draft (name : String) (report : Report) : Draft where
  eventType := "incident." ++ name
  category := report.category
  severity := report.severity
  title := report.title
  body := report.body
  createdAt := report.now
  resourceType := report.resourceType
  audience := .admins
  idempotencyKey := "incident." ++ name ++ ":" ++ seconds report.now

/-- `own`: the call begins and commits the transaction itself. -/
def reportIncident (own : Bool) (faults : ReportFaults) (name : String) (report : Report) :
    Prog Inbox (Option Nat) :=
  attempt none <| block own faults.block do
    let state ← getIncident faults.select name
    match state with
    | none =>
        let newId ← emit faults.emit (report.draft name)
        match newId with
        | none => pure none
        | some id =>
            setSetting faults.upsert name {
              since := report.now
              notificationId := id
              lastUpdate := report.now
              count := 1
              category := report.category
              resourceType := report.resourceType }
            pure (some id)
    | some state =>
        let counted := { state with count := state.count + 1 }
        if report.updateAfterSeconds * 1000000 ≤ report.now - state.lastUpdate then
          rewriteIncidentRow faults.rewrite counted report.title report.body report.severity false
          setSetting faults.upsert name { counted with lastUpdate := report.now }
        else setSetting faults.upsert name counted
        pure none

def updateIncident (own : Bool) (faults : UpdateFaults) (name title body : String)
    (severity : Severity) (renotify : Bool) : Prog Inbox Bool :=
  attempt false <| block own faults.block do
    let state ← getIncident faults.select name
    match state with
    | none => pure false
    | some state =>
        rewriteIncidentRow faults.rewrite state title body severity renotify
        pure true

/-- The key of the one recovery row of a notification. -/
def recoveredKey (name : String) (notificationId : Nat) : String :=
  "incident." ++ name ++ ".recovered:" ++ toString notificationId

/-- The row that closes the incident. -/
def recoveredDraft (name title body : String) (now : Int) (state : IncidentState) : Draft where
  eventType := "incident." ++ name ++ ".recovered"
  category := state.category
  severity := .success
  title := title
  body := body
  createdAt := now
  resourceType := state.resourceType
  audience := .admins
  idempotencyKey := recoveredKey name state.notificationId

def resolveIncident (own : Bool) (faults : ResolveFaults) (name title body : String) (now : Int) :
    Prog Inbox (Option Nat) :=
  attempt none <| block own faults.block do
    let state ← getIncident faults.select name
    match state with
    | none => pure none
    | some state =>
        deleteSetting faults.delete name
        emit faults.emit (recoveredDraft name title body now state)

end Justup.Incidents
