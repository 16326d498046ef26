import Mathlib.Logic.Function.Basic
import Justup.Lib.Transition
import Justup.Routes.Storage

/-!
# The loaders of a scope

The tabs of one browser, each with a loader for the same user, target and build.
A handler runs as a whole; a scan lock, a response and a timer are answered later, in any
order.  What a tab displays is recorded.
-/

namespace Justup.Routes

open Store Storage

def autoRetryBackoffMs : ℤ := 300000

/-- A display of `html`: of an entry that was read or of a response. -/
inductive Display where
  | stored (entry : Entry)
  | response (html : Html) (measuredAt : Option ℤ)
  deriving DecidableEq

def Display.measuredAt : Display → Option ℤ
  | .stored entry => some entry.measuredAt
  | .response _ measuredAt => measuredAt

inductive Timer where
  | retry
  | expiry
  | lease
  deriving DecidableEq

/-- A loader; `isShown` is a visible page with the active tab, `displays` is a record that
nothing reads. -/
structure Tab where
  hasLocks : Bool := true
  isShown : Bool := true
  isClosed : Bool := false
  loaded : Bool := false
  renderedAt : Option ℤ := none
  inFlight : Bool := false
  timer : Option (Timer × ℤ) := none
  autoBlockedUntil : ℤ := 0
  manualBlockedUntil : ℤ := 0
  destroyed : Bool := false
  displays : List Display := []

/-- `scheduleExpiry` -/
def Tab.scheduleExpiry (now : ℤ) (tab : Tab) : Tab :=
  match tab.renderedAt with
  | none => { tab with timer := none }
  | some renderedAt =>
      let delay := max (renderedAt + ttlMs - now) 0 + 1000
      { tab with timer := if tab.destroyed then none else some (.expiry, now + delay) }

/-- `scheduleRetry` -/
def Tab.scheduleRetry (now retryAfterMs : ℤ) (tab : Tab) : Tab :=
  if tab.destroyed then tab
  else
    let until_ := now + max retryAfterMs autoRetryBackoffMs
    { tab with autoBlockedUntil := until_, timer := some (.retry, until_) }

/-- The tasks that run under the scan lock. -/
inductive Task where
  | auto
  | first
  deriving DecidableEq

inductive Guard where
  | lock
  | lease
  deriving DecidableEq

/-- What a loader waits for: the lock, or the response to a request. -/
inductive Job where
  | waiting (task : Task)
  | request (task : Task) (guard : Guard)
  | manual
  deriving DecidableEq

def Job.isRequest : Job → Bool
  | .waiting _ => false
  | _ => true

def Job.isFirst : Job → Bool
  | .waiting task | .request task _ => task = .first
  | .manual => false

structure System where
  now : ℤ
  storage : Storage
  /-- The tab that holds the scan lock. -/
  holder : Option ℕ
  jobs : List (ℕ × Job)
  tabs : ℕ → Tab

namespace System

variable (scope : Scope) (length : Entry → ℕ) (sys : System) (i : ℕ)

def change (f : Tab → Tab) : System :=
  { sys with tabs := Function.update sys.tabs i (f (sys.tabs i)) }

/-! ## What the handlers share -/

def display (shown : Display) : System :=
  sys.change i fun tab => { tab with
    loaded := true, renderedAt := shown.measuredAt, displays := tab.displays ++ [shown] }

def scheduleExpiry : System := sys.change i (Tab.scheduleExpiry sys.now)

def scheduleRetry (retryAfterMs : ℤ) : System :=
  sys.change i (Tab.scheduleRetry sys.now retryAfterMs)

def read : Option Entry × System :=
  let result := sys.storage.read sys.now scope
  (result.1, { sys with storage := result.2 })

/-- `fresh` -/
def isFresh (entry : Entry) : Bool :=
  !entry.expired sys.now && (sys.tabs i).renderedAt.getD (-1) < entry.measuredAt

/-- The end of a scan: the guard is given back and `inFlight` cleared. -/
def finish (guard : Option Guard) : System :=
  let freed := sys.change i fun tab => { tab with inFlight := false }
  match guard with
  | none => freed
  | some .lock => { freed with holder := none }
  | some .lease => { freed with storage := freed.storage.releaseLease scope i }

/-- A request is sent, or the lock is asked for. -/
def await (job : Job) : System :=
  let waiting := sys.change i fun tab => { tab with inFlight := true }
  { waiting with jobs := waiting.jobs ++ [(i, job)] }

/-- A task of `withScanLock`: what another tab has measured is shown, else a request is sent. -/
def runTask (task : Task) (guard : Guard) : System :=
  let (current, sys) := sys.read scope
  match current.filter fun entry => task = .first || sys.isFresh i entry with
  | some entry => ((sys.display i (.stored entry)).scheduleExpiry i).finish scope i (some guard)
  | none => sys.await i (.request task guard)

/-- `withScanLock` without locks. -/
def withLease (task : Task) (refusals : Refusals) : System :=
  let (acquired, storage) := sys.storage.acquireLease sys.now scope i refusals
  let sys := { sys with storage := storage }
  if acquired then sys.runTask scope i task .lease
  else sys.change i fun tab => { tab with
    inFlight := false, timer := some (.lease, sys.now + leaseMs + 1000) }

/-- `withScanLock` -/
def withScanLock (task : Task) (refusals : Refusals) : System :=
  if (sys.tabs i).hasLocks then sys.await i (.waiting task)
  else sys.withLease scope i task refusals

/-! ## The operations of a loader -/

def autoScan (refusals : Refusals) : System :=
  let tab := sys.tabs i
  if tab.inFlight || !tab.isShown || sys.now < tab.autoBlockedUntil then sys
  else sys.withScanLock scope i .auto refusals

/-- A newer result of another tab is shown. -/
def showNewer (entry : Option Entry) : System :=
  match entry.filter (sys.isFresh i) with
  | some entry => sys.display i (.stored entry)
  | none => sys

def checkExpiry (refusals : Refusals) : System :=
  if !(sys.tabs i).loaded || (sys.tabs i).inFlight then sys
  else
    let (entry, sys) := sys.read scope
    let sys := sys.showNewer i entry
    match (sys.tabs i).renderedAt with
    | none => sys.autoScan scope i refusals
    | some renderedAt =>
        if sys.now - renderedAt < ttlMs then sys.scheduleExpiry i
        else sys.autoScan scope i refusals

def show_ (refusals : Refusals) : System :=
  if (sys.tabs i).inFlight then sys
  else if (sys.tabs i).loaded then sys.checkExpiry scope i refusals
  else
    let (entry, sys) := sys.read scope
    match entry with
    | none => sys.withScanLock scope i .first refusals
    | some entry =>
        let sys := (sys.display i (.stored entry)).scheduleExpiry i
        if entry.expired sys.now then sys.autoScan scope i refusals else sys

def recheck (refusals : Refusals) : System :=
  if (sys.tabs i).inFlight then sys
  else if (sys.tabs i).loaded then sys.checkExpiry scope i refusals
  else sys.show_ scope i refusals

def refresh : System :=
  if (sys.tabs i).inFlight || sys.now < (sys.tabs i).manualBlockedUntil then sys
  else sys.await i .manual

/-! ## Responses -/

/-- The response to a request; a failed fetch has the status 0. -/
inductive Outcome where
  | redirected
  | failed (status : ℕ) (retryAfterMs : ℤ)
  | ok (html : Html) (measuredAt : Option ℕ)
  deriving DecidableEq

/-- The stamp of a response by the client's clock. -/
def clampStamp (now : ℤ) (stamp : ℕ) : ℤ :=
  if now + clockSkewMs < stamp then now else min stamp now

/-- `commit`: none when it returns false. -/
def commit (html : Html) (measuredAt : Option ℤ) (refusals : Refusals) : Option System :=
  match measuredAt with
  | none => none
  | some stamp =>
      if stamp ≤ (sys.tabs i).renderedAt.getD (-1) then none
      else
        let storage := sys.storage.write sys.now length scope html stamp refusals
        some (({ sys with storage := storage }.display i (.response html stamp)).scheduleExpiry i)

/-- The rest of a task under the lock. -/
def endTask (task : Task) (outcome : Outcome) (refusals : Refusals) : System :=
  match outcome with
  | .redirected => sys
  | .failed _ retryAfterMs => sys.scheduleRetry i retryAfterMs
  | .ok html stamp =>
      match sys.commit scope length i html (stamp.map (clampStamp sys.now)) refusals with
      | some sys => sys
      | none =>
          match task with
          | .auto => sys.scheduleRetry i 0
          | .first => (sys.display i (.response html none)).scheduleRetry i 0

/-- The rest of a manual scan. -/
def endManual (outcome : Outcome) (refusals : Refusals) : System :=
  match outcome with
  | .redirected => sys
  | .failed status retryAfterMs =>
      if status = 429 then
        let blocked := if retryAfterMs = 0 then 15000 else retryAfterMs
        sys.change i fun tab => { tab with manualBlockedUntil := sys.now + blocked }
      else sys
  | .ok html stamp =>
      (sys.commit scope length i html (stamp.map (clampStamp sys.now)) refusals).getD sys

/-! ## Steps -/

inductive Act where
  | tick (ms : ℕ)
  | setShown (tab : ℕ) (isShown : Bool)
  | show_ (tab : ℕ) (refusals : Refusals)
  | refresh (tab : ℕ)
  | checkExpiry (tab : ℕ) (refusals : Refusals)
  | recheck (tab : ℕ) (refusals : Refusals)
  | fire (tab : ℕ) (refusals : Refusals)
  /-- The lock is granted to a job that waits for it, or its request fails. -/
  | grant (job : ℕ)
  | refuse (job : ℕ) (refusals : Refusals)
  | respond (job : ℕ) (outcome : Outcome) (refusals : Refusals)
  | destroy (tab : ℕ)
  | close (tab : ℕ)
  | prune
  | purge (predicate : Text → Bool)
  /-- A loader of another user or target writes. -/
  | writeOther (scope : Scope) (html : Html) (measuredAt : ℤ) (refusals : Refusals)

/-- The tab can run a handler. -/
def ifOpen (next : System) : Option System := if (sys.tabs i).isClosed then none else some next

/-- The n-th job is taken from the list. -/
def takeJob (n : ℕ) : Option (ℕ × Job × System) :=
  (sys.jobs[n]?).map fun job => (job.1, job.2, { sys with jobs := sys.jobs.eraseIdx n })

def closeTab : System :=
  { (sys.change i fun tab => { tab with isClosed := true, inFlight := false, timer := none }) with
    jobs := sys.jobs.filter fun job => job.1 ≠ i
    holder := if sys.holder = some i then none else sys.holder }

def step : Act → Option System
  | .tick ms => some { sys with now := sys.now + ms }
  | .setShown i isShown => sys.ifOpen i (sys.change i fun tab => { tab with isShown := isShown })
  | .show_ i refusals => sys.ifOpen i (sys.show_ scope i refusals)
  | .refresh i => sys.ifOpen i (sys.refresh i)
  | .checkExpiry i refusals => sys.ifOpen i (sys.checkExpiry scope i refusals)
  | .recheck i refusals => sys.ifOpen i (sys.recheck scope i refusals)
  | .fire i refusals =>
      match (sys.tabs i).timer with
      | none => none
      | some (timer, due) =>
          if sys.now < due then none
          else
            let sys := sys.change i fun tab => { tab with timer := none }
            match timer with
            | .retry => some (if (sys.tabs i).isShown then sys.recheck scope i refusals else sys)
            | .expiry => some (sys.checkExpiry scope i refusals)
            | .lease => some (sys.recheck scope i refusals)
  | .grant n =>
      match sys.takeJob n with
      | some (i, .waiting task, sys) =>
          if sys.holder = none then
            some ({ sys with holder := some i }.runTask scope i task .lock)
          else none
      | _ => none
  | .refuse n refusals =>
      match sys.takeJob n with
      | some (i, .waiting task, sys) => some (sys.withLease scope i task refusals)
      | _ => none
  | .respond n outcome refusals =>
      match sys.takeJob n with
      | some (i, .request task guard, sys) =>
          some ((sys.endTask scope length i task outcome refusals).finish scope i (some guard))
      | some (i, .manual, sys) =>
          some ((sys.endManual scope length i outcome refusals).finish scope i none)
      | _ => none
  | .destroy i =>
      sys.ifOpen i (sys.change i fun tab => { tab with destroyed := true, timer := none })
  | .close i => some (sys.closeTab i)
  | .prune => some { sys with storage := sys.storage.prune sys.now }
  | .purge predicate => some { sys with storage := sys.storage.purge predicate }
  | .writeOther other html measuredAt refusals =>
      if other.key = scope.key then none
      else some { sys with
        storage := sys.storage.write sys.now length other html measuredAt refusals }

end System

end Justup.Routes
