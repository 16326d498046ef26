import Mathlib.Data.List.Basic

/-!
# Failures of a send

The exceptions that reach the spooler from a send and their classes.  The texts
of exceptions are left out; what the policy reads of them is kept.
-/

namespace Justup.Smtp

abbrev Bytes := List UInt8

def asciiBytes (text : String) : Bytes := text.toList.map fun c => UInt8.ofNat c.toNat

/-- `OSError`s that are no `SMTPException`s. -/
inductive NetError where
  | timeout
  | connectionRefused
  | connectionReset
  | connectionAborted
  | brokenPipe
  | ssl
  | os
  deriving DecidableEq, Repr

/-- Subclasses of `ConnectionError`. -/
def NetError.isConnection : NetError → Bool
  | .connectionRefused | .connectionReset | .connectionAborted | .brokenPipe => true
  | _ => false

inductive EnvelopeFault where
  | implicitRecipients
  | notOneFrom
  | notOneTo
  deriving DecidableEq, Repr

inductive EncryptionFault where
  | noStarttls
  | credentialsInClear
  deriving DecidableEq, Repr

/-- An exception with what is read of it: reply codes and their texts, the error
that it was raised from. -/
inductive Exc where
  | signalRateLimited (retryAfterSeconds : Int)
  | signalRecipientInvalid
  | signalNotRegistered
  | signalNotInstalled
  | signalTimeout
  | signalUnavailable
  | signalSendFailed
  | configuration
  | encryption (fault : EncryptionFault)
  | envelope (fault : EnvelopeFault)
  | partialRefusal (refused : List (Int × Bytes))
  | acceptanceUnknown (cause : Exc)
  | notAccepted (cause : Exc)
  | notSupported
  | authentication (code : Int) (text : Bytes)
  | connect (code : Int) (text : Bytes)
  | helo (code : Int) (text : Bytes)
  | senderRefused (code : Int) (text : Bytes)
  | data (code : Int) (text : Bytes)
  /-- `SMTPResponseException` itself. -/
  | response (code : Int) (text : Bytes)
  | recipientsRefused (refused : List (Int × Bytes))
  | serverDisconnected
  /-- `SMTPException` itself. -/
  | smtp
  | net (error : NetError)
  /-- No `OSError` and no error of the Signal client. -/
  | other
  deriving DecidableEq, Repr

/-! ## Classes -/

inductive FailureKind where
  | transient
  | rateLimited
  | limited
  | permanent
  deriving DecidableEq, Repr

structure Failure where
  kind : FailureKind
  cooldownSeconds : Option Int := none
  /-- The provider may have accepted the message. -/
  uncertain : Bool := false
  deriving DecidableEq, Repr

def maxCooldownSeconds : Int := 24 * 3600

def smtpRateLimitCooldownSeconds : Int := 900

def signalRateLimitFallbackSeconds : Int := 3600

/-- `_RATE_WORDS` -/
def rateWords : List Bytes :=
  ["rate", "throttl", "too many", "limit", "quota", "slow down", "exceed"].map asciiBytes

/-- `_SMTP_THROTTLE_CODES` -/
def throttleCodes : List Int := [421, 450, 451, 452]

def asciiLower (byte : UInt8) : UInt8 := if 65 ≤ byte ∧ byte ≤ 90 then byte + 32 else byte

/-- `word in text.lower()`, for a word of ASCII letters and blanks. -/
def mentions (text word : Bytes) : Bool :=
  (text.map asciiLower).tails.any fun rest => word.isPrefixOf rest

/-- `_smtp_response_failure` -/
def smtpResponseFailure (code : Int) (text : Bytes) : Failure :=
  if 500 ≤ code then { kind := .permanent }
  else if code ∈ throttleCodes ∧ rateWords.any (mentions text) then
    { kind := .rateLimited, cooldownSeconds := some smtpRateLimitCooldownSeconds }
  else { kind := .transient }

/-- `min(codes) >= 500`, for codes of at least one recipient. -/
def allPermanent (refused : List (Int × Bytes)) : Bool :=
  !refused.isEmpty && refused.all fun entry => 500 ≤ entry.1

/-- `classify_failure` -/
def classifyFailure : Exc → Failure
  | .signalRateLimited seconds =>
      { kind := .rateLimited
        cooldownSeconds := some (min (if 0 < seconds then seconds
          else signalRateLimitFallbackSeconds) maxCooldownSeconds) }
  | .signalRecipientInvalid | .signalNotRegistered => { kind := .permanent }
  | .signalNotInstalled => { kind := .limited }
  | .signalTimeout => { kind := .transient, uncertain := true }
  | .signalUnavailable | .signalSendFailed => { kind := .transient }
  | .configuration | .encryption _ | .notSupported => { kind := .limited }
  | .authentication _ _ => { kind := .limited }
  | .partialRefusal _ | .envelope _ => { kind := .permanent }
  | .acceptanceUnknown _ => { kind := .transient, uncertain := true }
  | .notAccepted _ => { kind := .transient }
  | .connect code text | .helo code text =>
      if 500 ≤ code then { kind := .limited } else smtpResponseFailure code text
  | .recipientsRefused refused =>
      { kind := if allPermanent refused then .permanent else .transient }
  | .senderRefused code text =>
      if 500 ≤ code then { kind := .limited } else smtpResponseFailure code text
  | .data code text | .response code text => smtpResponseFailure code text
  | .serverDisconnected => { kind := .transient, uncertain := true }
  | .smtp => { kind := .transient }
  | .net .ssl => { kind := .limited }
  | .net .timeout | .net .connectionReset | .net .brokenPipe =>
      { kind := .transient, uncertain := true }
  | .net _ => { kind := .transient }
  | .other => { kind := .limited }

theorem smtpResponseFailure_certain (code : Int) (text : Bytes) :
    (smtpResponseFailure code text).uncertain = false := by
  unfold smtpResponseFailure
  split
  next => rfl
  next => split <;> rfl

/-- `isinstance(exc, OSError)` -/
def Exc.isOSError : Exc → Bool
  | .configuration | .encryption _ | .envelope _ | .partialRefusal _ | .acceptanceUnknown _
  | .notAccepted _ | .notSupported | .authentication _ _ | .connect _ _ | .helo _ _
  | .senderRefused _ _ | .data _ _ | .response _ _ | .recipientsRefused _ | .serverDisconnected
  | .smtp | .net _ => true
  | _ => false

/-- `isinstance(exc, SMTPException) and not isinstance(exc, SMTPServerDisconnected)` -/
def Exc.explicitReply (exc : Exc) : Bool :=
  match exc with
  | .net _ | .serverDisconnected => false
  | _ => exc.isOSError

end Justup.Smtp
