import Justup.Lib.Transition
import Justup.Restore.ApplyRestore

/-!
# The gates of a restore

Work sections pass the maintenance gate, database connections the connection
registry.  One `_quiesced_swap` closes both, waits until they are empty, swaps
the directories and lifts the gates again unless the data was replaced or could
not be rolled back.  Other threads act between any two of its steps.
-/

namespace Justup.Restore

open Lib

variable {T : Type*}

/-- `BACKUP_DIRECTORIES` -/
def backupDirectories : List String := ["sqlite", "tsdb", "pdf_reports"]

theorem backupDirectories_nodup : backupDirectories.Nodup := by decide

/-! ## The two gates -/

structure Gate where
  active : Bool
  inflight : Nat
  generation : Nat

inductive SectionRefused where
  | maintenanceActive
  | staleWork

namespace Gate

def workSection (expected : Option Nat) (gate : Gate) : Except SectionRefused Gate :=
  if gate.active then .error .maintenanceActive
  else if expected.any (· ≠ gate.generation) then .error .staleWork
  else .ok { gate with inflight := gate.inflight + 1 }

def leaveSection (gate : Gate) : Gate := { gate with inflight := gate.inflight - 1 }

/-- The refusal of new work with which `begin_maintenance` starts. -/
def beginMaintenance (gate : Gate) : Option Gate :=
  if gate.active then none else some { gate with active := true }

def endMaintenance (gate : Gate) : Gate := { gate with active := false }

def confirmDataReplaced (gate : Gate) : Option Gate :=
  if gate.active then some { gate with generation := gate.generation + 1 } else none

end Gate

/-- Connections are named by the `connect` call that made them. -/
structure Registry where
  quiesced : Bool
  pending : Nat
  openConnections : List Nat

namespace Registry

/-- The admission of a `connect` call. -/
def admission (registry : Registry) : Option Registry :=
  if registry.quiesced then none else some { registry with pending := registry.pending + 1 }

def register (id : Nat) (registry : Registry) : Registry :=
  { registry with
    openConnections := id :: registry.openConnections
    pending := registry.pending - 1 }

def abandon (registry : Registry) : Registry := { registry with pending := registry.pending - 1 }

/-- `_deregister_if_closed`, by the handles that are open. -/
def deregisterIfClosed (handles : List Nat) (id : Nat) (registry : Registry) : Registry :=
  if id ∈ handles then registry
  else { registry with openConnections := registry.openConnections.filter (· ≠ id) }

/-- `_prune_closed_connections` -/
def prune (handles : List Nat) (registry : Registry) : Registry :=
  { registry with openConnections := registry.openConnections.filter (· ∈ handles) }

def beginQuiesce (registry : Registry) : Option Registry :=
  if registry.quiesced then none else some { registry with quiesced := true }

def endQuiesce (registry : Registry) : Registry := { registry with quiesced := false }

/-- What `begin_quiesce` waits for; `own` is the connection of the caller. -/
def Settled (own : Nat) (registry : Registry) : Prop :=
  registry.pending = 0 ∧ ∀ id ∈ registry.openConnections, id = own

instance (own : Nat) (registry : Registry) : Decidable (registry.Settled own) := by
  unfold Settled
  infer_instance

end Registry

/-! ## The swap and the other threads -/

/-- How `_quiesced_swap` ended. -/
inductive SwapOutcome where
  | busy
  | failed
  | rollbackFailed
  | restored
  deriving DecidableEq, Repr

/-- Where `_quiesced_swap` stands: the step it performs next. -/
inductive SwapPhase where
  | beginMaintenance
  /-- in `begin_maintenance`, waiting for the running sections -/
  | draining
  | beginQuiesce
  /-- in `begin_quiesce`, before a look at the registry -/
  | polling
  /-- in `begin_quiesce`, after a look that found users -/
  | waiting
  | closeOwn
  | applying
  | confirming
  | endQuiesce (outcome : SwapOutcome)
  | endMaintenance (outcome : SwapOutcome)
  | done (outcome : SwapOutcome)
  deriving DecidableEq, Repr

structure System (T : Type*) where
  gate : Gate
  registry : Registry
  /-- The generation each running section was entered with. -/
  sections : List (Option Nat)
  /-- Calls of `connect` that were admitted and have no handle yet. -/
  connecting : List Nat
  /-- Calls of `connect` whose handle is open and not registered. -/
  opened : List Nat
  /-- The SQLite handles that are open. -/
  handles : List Nat
  nextConnect : Nat
  files : Files String T
  phase : SwapPhase

inductive CloseOutcome where
  | closed
  | stillOpen
  | raised
  deriving DecidableEq, Repr

inductive Action (T : Type*) where
  | enterSection (expected : Option Nat)
  | leaveSection (expected : Option Nat)
  | admitConnect
  | openHandle (id : Nat)
  | registerConnection (id : Nat)
  | failConnect (id : Nat)
  | closeHandle (id : Nat)
  | deregister (id : Nat)
  /-- `begin_maintenance` starts, or finds maintenance active. -/
  | beginMaintenance
  | drained
  | drainTimeout
  | beginQuiesce
  | poll
  | sleep
  | quiesceTimeout
  | closeOwn (outcome : CloseOutcome)
  | applyRestore (faults : Faults String T)
  | confirmDataReplaced
  | endQuiesce
  | endMaintenance

namespace System

/-- A step of a thread that uses the data. -/
def threadStep (s : System T) : Action T → Option (System T)
  | .enterSection expected =>
      match s.gate.workSection expected with
      | .error _ => some s
      | .ok gate => some { s with gate := gate, sections := expected :: s.sections }
  | .leaveSection expected =>
      if expected ∈ s.sections then
        some { s with gate := s.gate.leaveSection, sections := s.sections.erase expected }
      else none
  | .admitConnect =>
      match s.registry.admission with
      | none => some s
      | some registry =>
          some { s with
            registry := registry
            connecting := s.nextConnect :: s.connecting
            nextConnect := s.nextConnect + 1 }
  | .openHandle id =>
      if id ∈ s.connecting then
        some { s with
          connecting := s.connecting.erase id
          opened := id :: s.opened
          handles := id :: s.handles }
      else none
  | .registerConnection id =>
      if id ∈ s.opened then
        some { s with opened := s.opened.erase id, registry := s.registry.register id }
      else none
  | .failConnect id =>
      if id ∈ s.opened then
        some { s with
          opened := s.opened.erase id
          handles := s.handles.filter (· ≠ id)
          registry := s.registry.abandon }
      else if id ∈ s.connecting then
        some { s with connecting := s.connecting.erase id, registry := s.registry.abandon }
      else none
  | .closeHandle id =>
      if id ∈ s.opened then none else some { s with handles := s.handles.filter (· ≠ id) }
  | .deregister id => some { s with registry := s.registry.deregisterIfClosed s.handles id }
  | _ => none

/-- The call of `close_connection` for the request's own connection. -/
def closeOwn (own : Nat) (outcome : CloseOutcome) (s : System T) : System T :=
  match outcome with
  | .raised => { s with phase := .endQuiesce .failed }
  | .stillOpen => { s with phase := .applying }
  | .closed =>
      let handles := s.handles.filter (· ≠ own)
      { s with
        handles := handles
        registry := s.registry.deregisterIfClosed handles own
        phase := .applying }

/-- The return of `apply_restore`. -/
def applyRestore (faults : Faults String T) (s : System T) : System T :=
  let result := Restore.applyRestore backupDirectories faults s.files
  let s := { s with files := result.2 }
  match result.1 with
  | .restored => { s with phase := .confirming }
  | .rollbackFailed => { s with phase := .done .rollbackFailed }
  | .refused | .rolledBack => { s with phase := .endQuiesce .failed }

/-- A step of `_quiesced_swap`; `own` is the connection of its request. -/
def swapStep (own : Nat) (s : System T) : SwapPhase → Action T → Option (System T)
  | .beginMaintenance, .beginMaintenance =>
      match s.gate.beginMaintenance with
      | none => some { s with phase := .done .busy }
      | some gate => some { s with gate := gate, phase := .draining }
  | .draining, .drained => if s.gate.inflight = 0 then some { s with phase := .beginQuiesce } else none
  | .draining, .drainTimeout =>
      if 0 < s.gate.inflight then
        some { s with gate := s.gate.endMaintenance, phase := .done .busy }
      else none
  | .beginQuiesce, .beginQuiesce =>
      match s.registry.beginQuiesce with
      | none => some { s with phase := .endMaintenance .busy }
      | some registry => some { s with registry := registry, phase := .polling }
  | .polling, .poll =>
      let registry := s.registry.prune s.handles
      some { s with
        registry := registry
        phase := if registry.Settled own then .closeOwn else .waiting }
  | .waiting, .sleep => some { s with phase := .polling }
  | .waiting, .quiesceTimeout =>
      some { s with registry := s.registry.endQuiesce, phase := .endMaintenance .busy }
  | .closeOwn, .closeOwn outcome => some (s.closeOwn own outcome)
  | .applying, .applyRestore faults => some (s.applyRestore faults)
  | .confirming, .confirmDataReplaced =>
      match s.gate.confirmDataReplaced with
      | none => some { s with phase := .endQuiesce .failed }
      | some gate => some { s with gate := gate, phase := .done .restored }
  | .endQuiesce outcome, .endQuiesce =>
      some { s with registry := s.registry.endQuiesce, phase := .endMaintenance outcome }
  | .endMaintenance outcome, .endMaintenance =>
      some { s with gate := s.gate.endMaintenance, phase := .done outcome }
  | _, _ => none

def step (own : Nat) (s : System T) (action : Action T) : Option (System T) :=
  (s.threadStep action).or (s.swapStep own s.phase action)

/-- A process that has just started. -/
def initial (files : Files String T) (generation : Nat) : System T where
  gate := ⟨false, 0, generation⟩
  registry := ⟨false, 0, []⟩
  sections := []
  connecting := []
  opened := []
  handles := []
  nextConnect := 0
  files := files
  phase := .beginMaintenance

end System

end Justup.Restore
