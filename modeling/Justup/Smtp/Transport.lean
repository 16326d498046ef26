import Justup.Smtp.Client

/-!
# The hardened transport

The one place that opens an SMTP connection for a mail: the envelope check, the
three ways to connect, the hand-off and what a failure is reported as.
-/

namespace Justup.Smtp

open Lib.Raising Store

/-- `IMPLICIT_TLS_PORT` -/
def implicitTlsPort : ℕ := 465

structure Config where
  host : Option Text
  port : ℕ
  user : Option Text
  password : Option Text
  useTls : Bool
  deriving DecidableEq

/-! ## The envelope -/

/-- `[^\\s,;<>"()\[\]\\]` -/
def isAddrChar (c : Char) : Bool :=
  !isSpace c && c ∉ [',', ';', '<', '>', '"', '(', ')', '[', ']', '\\']

/-- `_ADDR_SPEC.fullmatch`: an `@` with a character before and one after it. -/
def isAddrSpec (address : Text) : Bool :=
  address.all isAddrChar && (address.drop 1).dropLast.any (· = '@')

variable (getaddresses : List Text → List (Text × Text))

/-- `_single_address` -/
def singleAddress (values : List HeaderValue) (fault : EnvelopeFault) : Except Exc Text :=
  match values, getaddresses (values.map HeaderValue.text) with
  | [value], [entry] =>
      if !value.defects && isAddrSpec entry.2 then .ok entry.2 else .error (.envelope fault)
  | _, _ => .error (.envelope fault)

/-- `_envelope` -/
def envelope (message : Message) : Except Exc (Text × List Text) :=
  if message.implicit ≠ [] then .error (.envelope .implicitRecipients)
  else do
    let sender ← singleAddress getaddresses message.sender .notOneFrom
    let recipient ← singleAddress getaddresses message.recipient .notOneTo
    pure (sender, [recipient])

/-- `_credentials` -/
def credentials (config : Config) : Except Exc Bool :=
  let hasUser := decide (strip (config.user.getD []) ≠ [])
  let hasPassword := decide (config.password.getD [] ≠ [])
  if hasUser = hasPassword then .ok hasUser else .error .configuration

/-! ## The hand-off -/

variable (server : Server) (client : Client)

/-- `_Phase.submit` -/
def submit (message : Message) (address : Text × List Text) : SmtpProg Unit := do
  modify fun conn => { conn with watched := true }
  let refused ← sendMessageTo server client message address.1 address.2
  if refused = [] then pure ⟨⟩ else raise (.partialRefusal refused.replies)

/-- `_close_quietly` -/
def closeQuietly : SmtpProg Unit :=
  ensure (handle (quit server) fun error => if error.isOSError then some (pure ⟨⟩) else none)
    (modify Conn.close)

/-- The login of a configuration with credentials. -/
def loginIf (hasCredentials : Bool) : SmtpProg Unit :=
  if hasCredentials then login server client else pure ⟨⟩

/-- `_deliver` -/
def deliver (message : Message) (config : Config) (address : Text × List Text) :
    SmtpProg Unit :=
  match credentials config with
  | .error error => raise error
  | .ok hasCredentials =>
      if config.port = implicitTlsPort then
        match client.tlsContext with
        | some fault => raise fault.exc
        | none => do
            connectTo server true config.host
            ensure (do
                loginIf server client hasCredentials
                submit server client message address)
              (closeQuietly server)
      else do
        connectTo server false config.host
        ensure (do
            ehloOrHeloIfNeeded server client
            if config.useTls then do
              let advertised ← reads (Conn.hasExtn "starttls")
              if advertised then
                match client.tlsContext with
                | some fault => raise fault.exc
                | none => do
                    starttls server client
                    let _ ← ehlo server client
                    loginIf server client hasCredentials
                    submit server client message address
              else raise (.encryption .noStarttls)
            else if hasCredentials then raise (.encryption .credentialsInClear)
            else submit server client message address)
          (closeQuietly server)

/-- What `send_message` raises for an exception of `_deliver`. -/
def reported (error : Exc) (phase : Phase) : Exc :=
  if error.isOSError then
    if error.explicitReply || phase = .accepted then error
    else if phase = .content then .acceptanceUnknown error
    else
      match error with
      | .net fault => if fault = .timeout ∨ fault.isConnection then .notAccepted error else error
      | .serverDisconnected => .notAccepted error
      | _ => error
  else error

/-- `send_message` -/
def sendMessage (message : Message) (config : Config) : Except Exc Unit × Conn :=
  match envelope getaddresses message with
  | .error error => (.error error, {})
  | .ok address =>
      match deliver server client message config address {} with
      | (.ok value, conn) => (.ok value, conn)
      | (.error error, conn) => (.error (reported error conn.phase), conn)

end Justup.Smtp
