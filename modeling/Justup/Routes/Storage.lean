import Mathlib.Data.List.Sort
import Justup.Lib.Table
import Justup.Store.Line

/-!
# The browser's store of route measurements

The entries and leases that the tabs of one browser share: reading checks and
removes, writing frees stale data once when the browser refuses.
-/

namespace Justup.Routes

open Lib Lib.Table Store

def ttlMs : ℤ := 86400000
def currentSchema : ℤ := 2
def maxEntries : ℕ := 12
def maxHtmlChars : ℕ := 262144
def retentionMs : ℤ := 7 * ttlMs
def clockSkewMs : ℤ := 300000
def leaseMs : ℤ := 30000

/-- `ID_PATTERN` -/
def isId (id : Text) : Bool :=
  1 ≤ id.length && id.length ≤ 64 && id.all fun c => c.isAlphanum || c = '_' || c = '-'

structure Scope where
  user : Text
  target : Text
  build : Text
  deriving DecidableEq

def Scope.isScope (scope : Scope) : Bool := isId scope.user && isId scope.target && isId scope.build

/-- UTF-16 code units. -/
abbrev Html := List UInt16

structure Entry where
  schemaVersion : ℤ
  user : Text
  target : Text
  build : Text
  measuredAt : ℤ
  html : Html
  deriving DecidableEq

/-- The text of an item: its length, and its entry unless it is no object with fields of
these types. -/
structure Item where
  length : ℕ
  entry : Option Entry
  deriving DecidableEq

structure Lease where
  owner : ℕ
  until_ : ℤ
  deriving DecidableEq

/-- User and target; their ids have no point, which separates them in the key. -/
abbrev Key := Text × Text

def Scope.key (scope : Scope) : Key := (scope.user, scope.target)

structure Storage where
  entries : List (Key × Item)
  /-- A lease is none when its text cannot be read. -/
  leases : List (Key × Option Lease)
  keyed : Keyed Prod.fst entries
  deriving DecidableEq

/-! ## Entries -/

def Entry.isOf (scope : Scope) (entry : Entry) : Bool :=
  entry.user = scope.user && entry.target = scope.target && entry.build = scope.build

/-- The conditions of `parseEntry`. -/
def Entry.isValid (now : ℤ) (scope : Option Scope) (entry : Entry) : Bool :=
  entry.schemaVersion = currentSchema && isId entry.user && isId entry.target &&
    isId entry.build && (scope.all fun scope => entry.isOf scope) &&
    entry.measuredAt ≤ now + clockSkewMs && now - entry.measuredAt ≤ retentionMs &&
    0 < entry.html.length && entry.html.length ≤ maxHtmlChars

def Item.valid? (now : ℤ) (scope : Option Scope) (item : Item) : Option Entry :=
  if item.length ≤ maxHtmlChars + 1024 then item.entry.filter (Entry.isValid now scope) else none

/-- `expired` in what `read` returns -/
def Entry.expired (now : ℤ) (entry : Entry) : Bool := ttlMs ≤ now - entry.measuredAt

namespace Storage

variable (storage : Storage) (now : ℤ)

def removeEntry (key : Key) : Storage where
  entries := storage.entries.filter fun item => item.1 ≠ key
  leases := storage.leases
  keyed := storage.keyed.filter _

/-- `parseEntry`: what is not valid is removed. -/
def parseEntry (key : Key) (scope : Option Scope) : Option Entry × Storage :=
  match row? Prod.fst key storage.entries with
  | none => (none, storage)
  | some item =>
      match item.2.valid? now scope with
      | none => (none, storage.removeEntry key)
      | some entry => (some entry, storage)

def read (scope : Scope) : Option Entry × Storage :=
  if scope.isScope then storage.parseEntry now scope.key (some scope) else (none, storage)

/-- The keys of the oldest of the valid entries, as many as there are too many. -/
def surplus : List Key :=
  let live := storage.entries.filterMap fun item =>
    (item.2.valid? now none).map fun entry => (item.1, entry.measuredAt)
  let oldestFirst := live.insertionSort fun first second => first.2 ≤ second.2
  (oldestFirst.take (live.length - maxEntries)).map Prod.fst

def prune : Storage where
  entries := storage.entries.filter fun item =>
    (item.2.valid? now none).isSome && item.1 ∉ storage.surplus now
  leases := storage.leases.filter fun item =>
    item.2.any fun lease => now < lease.until_ && lease.until_ ≤ now + leaseMs
  keyed := storage.keyed.filter _

def putEntry (key : Key) (item : Item) : Storage where
  entries := replace Prod.fst (key, item) storage.entries
  leases := storage.leases
  keyed := storage.keyed.replace _

/-- Whether the browser refuses a write: the lease, the first and the second try of an
entry. -/
structure Refusals where
  lease : Bool := false
  first : Bool := false
  second : Bool := false
  deriving DecidableEq

variable (length : Entry → ℕ)

/-- One try of `write`. -/
def tryWrite (key : Key) (entry : Entry) : Storage :=
  let written := storage.putEntry key ⟨length entry, some entry⟩
  if maxEntries < written.entries.length then written.prune now else written

/-- `write`, for the length of the text of an entry -/
def write (scope : Scope) (html : Html) (measuredAt : ℤ) (refusals : Refusals) : Storage :=
  if !scope.isScope || html = [] || maxHtmlChars < html.length then storage
  else
    let entry : Entry := ⟨currentSchema, scope.user, scope.target, scope.build, measuredAt, html⟩
    if !refusals.first then storage.tryWrite now length scope.key entry
    else
      let pruned := storage.prune now
      if !refusals.second then pruned.tryWrite now length scope.key entry else pruned.prune now

/-- `purge`: what belongs to such users is removed. -/
def purge (predicate : Text → Bool) : Storage where
  entries := storage.entries.filter fun item => !predicate item.1.1
  leases := storage.leases.filter fun item => !predicate item.1.1
  keyed := storage.keyed.filter _

def lease? (key : Key) : Option Lease := (row? Prod.fst key storage.leases).bind Prod.snd

/-- `acquireLease` -/
def acquireLease (scope : Scope) (owner : ℕ) (refusals : Refusals) : Bool × Storage :=
  if !scope.isScope then (false, storage)
  else if (storage.lease? scope.key).any fun held => held.owner ≠ owner && now < held.until_ then
    (false, storage)
  else if refusals.lease then (true, storage)
  else (true, { storage with
    leases := replace Prod.fst (scope.key, some ⟨owner, now + leaseMs⟩) storage.leases })

def releaseLease (scope : Scope) (owner : ℕ) : Storage :=
  if (storage.lease? scope.key).any fun held => held.owner = owner then
    { storage with leases := storage.leases.filter fun item => item.1 ≠ scope.key }
  else storage

end Storage

/-! ## What becomes of the entry of a scope -/

namespace Storage

variable {storage later last : Storage} {now : ℤ} {scope : Scope}

/-- The entry of a scope, whatever its age. -/
def stored (storage : Storage) (scope : Scope) : Option Entry :=
  (row? Prod.fst scope.key storage.entries).bind fun item =>
    item.2.entry.filter (Entry.isOf scope)

/-- Entries were only removed. -/
def Fades (storage later : Storage) : Prop := later.entries.Sublist storage.entries

theorem Fades.refl (storage : Storage) : storage.Fades storage := List.Sublist.refl _

theorem Fades.trans (hfirst : storage.Fades later) (hlast : later.Fades last) :
    storage.Fades last := List.Sublist.trans hlast hfirst

theorem Fades.stored (hfades : storage.Fades later) {entry : Entry}
    (hentry : later.stored scope = some entry) : storage.stored scope = some entry := by
  unfold Storage.stored at hentry ⊢
  obtain ⟨item, hitem, hfilter⟩ := Option.bind_eq_some_iff.mp hentry
  obtain ⟨hmem, hkey⟩ := mem_of_row? hitem
  rw [Option.bind_eq_some_iff]
  exact ⟨item, (row?_eq_some_iff storage.keyed).mpr ⟨hfades.subset hmem, hkey⟩, hfilter⟩

theorem fades_parseEntry (storage : Storage) (now : ℤ) (key : Key) (scope : Option Scope) :
    storage.Fades (storage.parseEntry now key scope).2 := by
  unfold parseEntry
  split
  next => exact .refl _
  next =>
    split
    next => exact List.filter_sublist
    next => exact .refl _

theorem fades_read (storage : Storage) (now : ℤ) (scope : Scope) :
    storage.Fades (storage.read now scope).2 := by
  unfold read
  split
  next => exact fades_parseEntry _ _ _ _
  next => exact .refl _

theorem fades_prune (storage : Storage) (now : ℤ) : storage.Fades (storage.prune now) :=
  List.filter_sublist

theorem fades_purge (storage : Storage) (predicate : Text → Bool) :
    storage.Fades (storage.purge predicate) := List.filter_sublist

theorem fades_acquireLease (storage : Storage) (now : ℤ) (scope : Scope) (owner : ℕ)
    (refusals : Refusals) : storage.Fades (storage.acquireLease now scope owner refusals).2 := by
  unfold acquireLease
  split
  next => exact .refl _
  next =>
    split
    next => exact .refl _
    next => split <;> exact .refl _

theorem fades_releaseLease (storage : Storage) (scope : Scope) (owner : ℕ) :
    storage.Fades (storage.releaseLease scope owner) := by
  unfold releaseLease
  split <;> exact .refl _

/-- An entry that is read is valid and of the scope. -/
theorem read_isOf {entry : Entry} (hread : (storage.read now scope).1 = some entry) :
    entry.isOf scope = true ∧ storage.stored scope = some entry := by
  unfold read at hread
  split at hread
  next =>
    unfold parseEntry at hread
    split at hread
    next => cases hread
    next item hitem =>
      split at hread
      next => cases hread
      next found hvalid =>
        obtain rfl := Option.some.inj hread
        unfold Item.valid? at hvalid
        split at hvalid
        next =>
          obtain ⟨hentry, hchecks⟩ := Option.filter_eq_some_iff.mp hvalid
          have hof : found.isOf scope = true := by
            simp only [Entry.isValid, Bool.and_eq_true, Option.all_some] at hchecks
            exact hchecks.1.1.1.1.2
          refine ⟨hof, ?_⟩
          rw [stored, hitem]
          exact Option.filter_eq_some_iff.mpr ⟨hentry, hof⟩
        next => cases hvalid
  next => cases hread

/-- After a write the entry under its key is the new one, and no other entry is new. -/
theorem stored_tryWrite {length : Entry → ℕ} {key : Key} {new entry : Entry}
    (hentry : (storage.tryWrite now length key new).stored scope = some entry) :
    if scope.key = key then entry = new else storage.stored scope = some entry := by
  have hput : (storage.putEntry key ⟨length new, some new⟩).stored scope = some entry := by
    unfold tryWrite at hentry
    dsimp only at hentry
    split at hentry
    next => exact (fades_prune _ now).stored hentry
    next => exact hentry
  unfold Storage.stored putEntry at hput
  rw [row?_replace] at hput
  split
  next hkey =>
    rw [if_pos hkey, Option.bind_some, Option.filter_eq_some_iff] at hput
    exact (Option.some.inj hput.1).symm
  next hkey =>
    rw [if_neg hkey] at hput
    exact hput

theorem stored_write {length : Entry → ℕ} {written : Scope} {html : Html} {measuredAt : ℤ}
    {refusals : Refusals} {entry : Entry}
    (hentry : (storage.write now length written html measuredAt refusals).stored scope =
      some entry) :
    storage.stored scope = some entry ∨
      scope.key = written.key ∧ entry.measuredAt = measuredAt := by
  have htry (before : Storage) (hfades : storage.Fades before) (new : Entry)
      (hnew : new.measuredAt = measuredAt)
      (hwritten : (before.tryWrite now length written.key new).stored scope = some entry) :
      storage.stored scope = some entry ∨
        scope.key = written.key ∧ entry.measuredAt = measuredAt := by
    have hcases := stored_tryWrite hwritten
    split at hcases
    next hkey => exact .inr ⟨hkey, hcases ▸ hnew⟩
    next => exact .inl (hfades.stored hcases)
  unfold write at hentry
  split at hentry
  next => exact .inl hentry
  next =>
    dsimp only at hentry
    split at hentry
    next => exact htry _ (.refl _) _ rfl hentry
    next =>
      split at hentry
      next => exact htry _ (fades_prune _ now) _ rfl hentry
      next => exact .inl ((fades_prune _ now).trans (fades_prune _ now) |>.stored hentry)

end Storage

end Justup.Routes
