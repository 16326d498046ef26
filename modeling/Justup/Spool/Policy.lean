import Mathlib
import Justup.Store.Line

/-!
# The delivery policy

Retry timing, message validity, pacing and cooldown of the notification
spooler.  Times are microseconds; the stored texts compare as they do, see
`isoformat_lt_iff`.
-/

namespace Justup.Spool

open Store

def seconds (count : Nat) : Int := count * 1000000

/-- `MESSAGE_VALIDITY_SECONDS` -/
def messageValidity : Int := seconds 86400

def maxRetries : Nat := 5

/-- `PROCESSING_TIMEOUT_SECONDS` -/
def processingTimeout : Int := seconds 600

def processBatchSize : Nat := 20

def maxCooldownSeconds : Nat := 86400

/-- `MAX_PACING_WAIT_SECONDS` -/
def maxPacingWait : Int := seconds 3

/-! ## Retry timing -/

def baseDelaySeconds : Nat := 60

def maxDelaySeconds : Nat := 900

/-- `backoff_delay_seconds`; `jitter` is the random part of at most a quarter of the delay. -/
def backoffDelay (attempt : Nat) (jitter : Int) : Int :=
  max (seconds baseDelaySeconds)
    (seconds (min (baseDelaySeconds * 2 ^ min attempt 16) maxDelaySeconds) + jitter)

def calculateNextRetry (now : Int) (retryCount : Nat) (jitter : Int) : Int :=
  now + backoffDelay retryCount jitter

/-! ## Send paths -/

inductive ChannelType where
  | signal
  | email
  deriving DecidableEq, Repr

structure ChannelPolicy where
  minInterval : Int
  batchLimit : Nat

def channelPolicy : ChannelType → ChannelPolicy
  | .email => ⟨2500000, 4⟩
  | .signal => ⟨seconds 10, 1⟩

/-- The key of a send path; the database spells `signal account` as `signal:account`. -/
inductive SendPath where
  | email
  | signal (account : Text)
  deriving DecidableEq, Repr

def SendPath.channel : SendPath → ChannelType
  | .email => .email
  | .signal _ => .signal

def SendPath.minInterval (path : SendPath) : Int := (channelPolicy path.channel).minInterval

theorem SendPath.minInterval_nonneg (path : SendPath) : 0 ≤ path.minInterval := by
  cases path with
  | email => decide
  | signal account =>
      change 0 ≤ seconds 10
      decide

/-- `channel_key` -/
def channelKey (channel : ChannelType) (sender : Option Text) : SendPath :=
  match channel with
  | .signal => .signal (strip (sender.getD []))
  | .email => .email

/-- SQLite's `TRIM`, which takes off blanks only. -/
def trimBlanks (text : Text) : Text := (text.dropWhile (· == ' ')).rdropWhile (· == ' ')

/-- `_CHANNEL_KEY_SQL` -/
def sqlChannelKey (channel : ChannelType) (sender : Option Text) : SendPath :=
  match channel with
  | .signal => .signal (trimBlanks (sender.getD []))
  | .email => .email

/-! ## Pacing and cooldown -/

/-- A row of `notification_channel_state`; a path without a row has none of these. -/
structure PathState where
  lastAttemptAt : Option Int := none
  cooldownUntil : Option Int := none
  cooldownReason : Option Text := none
  deriving DecidableEq, Repr

namespace PathState

def inCooldown (now : Int) (state : PathState) : Bool :=
  state.cooldownUntil.any fun until_ => now < until_

/-- `_blocked_keys`, for one path. -/
def blocked (path : SendPath) (now : Int) (state : PathState) : Bool :=
  state.inCooldown now ||
    state.lastAttemptAt.any fun last => maxPacingWait < last + path.minInterval - now

/-- `pacing_wait_seconds` -/
def pacingWait (path : SendPath) (now : Int) (state : PathState) : Option Int :=
  if state.inCooldown now then none
  else some (state.lastAttemptAt.elim 0 fun last => max 0 (last + path.minInterval - now))

def recordAttempt (now : Int) (state : PathState) : PathState :=
  { state with lastAttemptAt := some now }

/-- `set_cooldown`; a longer cooldown already stored is kept. -/
def setCooldown (now : Int) (count : Nat) (reason : Text) (state : PathState) : PathState :=
  let until_ := now + seconds (min count maxCooldownSeconds)
  if state.cooldownUntil.all fun stored => stored < until_ then
    { state with cooldownUntil := some until_, cooldownReason := some (reason.take 200) }
  else state

/-- A stored cooldown is never shortened. -/
theorem cooldown_le_setCooldown {now : Int} {count : Nat} {reason : Text} {state : PathState}
    {until_ : Int} (hstored : state.cooldownUntil = some until_) :
    ∃ later, (state.setCooldown now count reason).cooldownUntil = some later ∧ until_ ≤ later := by
  by_cases hshorter : until_ < now + seconds (min count maxCooldownSeconds)
  · exact ⟨now + seconds (min count maxCooldownSeconds), by simp [setCooldown, hstored, hshorter],
      hshorter.le⟩
  · exact ⟨until_, by simp [setCooldown, hstored, hshorter], le_refl _⟩

/-- The wait that was read ends when the interval since the last attempt has passed. -/
theorem le_of_pacingWait {path : SendPath} {now wait last : Int} {state : PathState}
    (hwait : state.pacingWait path now = some wait) (hlast : state.lastAttemptAt = some last) :
    last + path.minInterval ≤ now + wait := by
  simp only [pacingWait] at hwait
  split at hwait
  · cases hwait
  · cases hwait
    rw [hlast]
    simp only [Option.elim]
    omega

theorem not_inCooldown_of_pacingWait {path : SendPath} {now wait : Int} {state : PathState}
    (hwait : state.pacingWait path now = some wait) : state.inCooldown now = false := by
  simp only [pacingWait] at hwait
  split at hwait
  · cases hwait
  · simpa using ‹¬ state.inCooldown now = true›

theorem pacingWait_nonneg {path : SendPath} {now wait : Int} {state : PathState}
    (hwait : state.pacingWait path now = some wait) : 0 ≤ wait := by
  simp only [pacingWait] at hwait
  split at hwait
  · cases hwait
  · cases hwait
    cases state.lastAttemptAt with
    | none => exact le_refl _
    | some last => exact le_max_left _ _

end PathState

end Justup.Spool
