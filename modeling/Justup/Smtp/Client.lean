import Justup.Lib.Raising
import Justup.Smtp.Errors
import Justup.Store.Line

/-!
# The SMTP client

The client of the standard library as far as a send uses it: the greeting, EHLO and
HELO, STARTTLS, the login and the transaction of one message.  A server is
what it answers and which writes fail; the phase of the DATA exchange follows
the writes and replies once it watches them.
-/

namespace Justup.Smtp

open Lib.Raising Store

/-! ## Servers -/

/-- What one `readline` gives; no bytes are the end of the stream. -/
abbrev Line := Except NetError Bytes

/-- A failure while connecting or in a handshake. -/
inductive IoFault where
  | net (error : NetError)
  | other
  deriving DecidableEq, Repr

def IoFault.exc : IoFault → Exc
  | .net error => .net error
  | .other => .other

/-- The behaviour of a server and of the network: each reply is the lines that
come in while it is read.  At most one message is sent, and the reply to its
content stands apart. -/
structure Server where
  connect : Option IoFault
  handshake : Option IoFault
  writes : ℕ → Option NetError
  replies : ℕ → List Line
  contentReply : List Line

inductive Mechanism where
  | cramMd5
  | plain
  | login
  deriving DecidableEq, Repr

/-- What comes from the system and from the encoders of the standard library. -/
structure Client where
  localHostname : Text
  /-- `ssl.create_default_context` -/
  tlsContext : Option IoFault
  quoteaddr : Text → Text
  /-- The `authobject` of a mechanism, encoded: none when it raises.  It is given the challenge
  and the number of challenges so far. -/
  respond : Mechanism → Option Bytes → ℕ → Option Bytes

/-! ## Connections -/

/-- What is handed to the socket. -/
inductive Payload where
  | command (text : Text)
  /-- A command or line that carries the user name or the password. -/
  | credentials (response : Bytes)
  | content (bytes : Bytes)
  deriving DecidableEq, Repr

/-- A `sendall`; when it fails any part of the payload may have left. -/
structure Sent where
  tls : Bool
  payload : Payload
  succeeded : Bool
  deriving DecidableEq, Repr

/-- `_Phase.state` -/
inductive Phase where
  | idle
  | command
  | ready
  | content
  | accepted
  deriving DecidableEq, Repr

/-- The client object.  `opened`, `wire` and `finalReply` are a record that
nothing reads: the connections opened, what was handed to the socket and the code of
the reply to the content. -/
structure Conn where
  /-- The open socket, and whether it is a TLS one. -/
  sock : Option Bool := none
  heloResp : Option Bytes := none
  ehloResp : Option Bytes := none
  doesEsmtp : Bool := false
  features : List (Text × Text) := []
  utf8 : Bool := false
  writes : ℕ := 0
  reads : ℕ := 0
  watched : Bool := false
  phase : Phase := .idle
  opened : ℕ := 0
  wire : List Sent := []
  finalReply : Option Int := none
  deriving DecidableEq

abbrev SmtpProg := Prog Exc Conn

def Conn.close (conn : Conn) : Conn := { conn with sock := none }

def text (chars : String) : Text := chars.toList

/-- A `str` that starts with `data`, in either case. -/
def Payload.isData : Payload → Bool
  | .command chars => (text "data").isPrefixOf (chars.map Char.toLower)
  | _ => false

/-- The commands that every encoding has bytes for. -/
def Payload.isAscii : Payload → Bool
  | .command chars => chars.all fun c => c.toNat < 128
  | _ => true

/-- What `tracked_send` does before it sends. -/
def Conn.onSend (payload : Payload) (conn : Conn) : Conn :=
  if conn.watched then
    { conn with phase :=
        if conn.phase = .idle ∧ payload.isData then .command
        else if conn.phase = .ready then .content
        else conn.phase }
  else conn

/-- What `tracked_getreply` does with a code. -/
def Conn.onReply (code : Int) (conn : Conn) : Conn :=
  if conn.watched then
    match conn.phase with
    | .command => { conn with phase := if code = 354 then .ready else .idle }
    | .content =>
        { conn with
          phase := if 200 ≤ code ∧ code < 300 then .accepted else .idle
          finalReply := some code }
    | _ => conn
  else conn

/-! ## Replies -/

def maxLine : ℕ := 8192

def isBlankByte (byte : UInt8) : Bool := byte = 32 || byte = 9 || byte = 13 || byte = 10

/-- `strip(b' \t\r\n')` -/
def stripBytes (bytes : Bytes) : Bytes := (bytes.dropWhile isBlankByte).rdropWhile isBlankByte

def isDigitByte (byte : UInt8) : Bool := 48 ≤ byte && byte ≤ 57

/-- The digits after the first one; an underscore may stand between two. -/
def digitsFrom (value : ℕ) (gap : Bool) : Bytes → Option ℕ
  | [] => if gap then none else some value
  | byte :: rest =>
      if isDigitByte byte then digitsFrom (10 * value + (byte.toNat - 48)) false rest
      else if byte = 95 ∧ ¬ gap then digitsFrom value true rest
      else none

/-- `int` of bytes. -/
def pyInt (bytes : Bytes) : Option Int :=
  let isSpace (byte : UInt8) := isBlankByte byte || byte = 11 || byte = 12
  let trimmed := (bytes.dropWhile isSpace).rdropWhile isSpace
  let unsigned (digits : Bytes) : Option ℕ :=
    match digits with
    | [] => none
    | byte :: rest => if isDigitByte byte then digitsFrom (byte.toNat - 48) false rest else none
  match trimmed with
  | 45 :: digits => (unsigned digits).map fun value => -(value : Int)
  | 43 :: digits => (unsigned digits).map fun value => (value : Int)
  | digits => (unsigned digits).map fun value => (value : Int)

inductive Reply where
  | reply (code : Int) (text : Bytes)
  | lost
  | tooLong
  deriving DecidableEq, Repr

def joinLines (lines : List Bytes) : Bytes := List.intercalate [10] lines

/-- The loop of `getreply`; a code that cannot be read is -1. -/
def readReply (resp : List Bytes) : List Line → Reply
  | [] => .lost
  | .error _ :: _ => .lost
  | .ok line :: rest =>
      if line = [] then .lost
      else if line.length > maxLine then .tooLong
      else
        let resp := resp ++ [stripBytes (line.drop 4)]
        match pyInt (line.take 3) with
        | none => .reply (-1) (joinLines resp)
        | some code =>
            if (line.drop 3).head? = some 45 then readReply resp rest
            else .reply code (joinLines resp)

def lineTooLong : Bytes := asciiBytes "Line too long."

/-- `getreply` -/
def getreply (lines : List Line) : SmtpProg (Int × Bytes) := fun conn =>
  match readReply [] lines with
  | .lost => (.error .serverDisconnected, conn.close)
  | .tooLong => (.error (.response 500 lineTooLong), conn.close)
  | .reply code text => (.ok (code, text), conn.onReply code)

/-! ## Commands -/

variable (server : Server)

/-- `sock.sendall`, with what `send` makes of an error. -/
def sendall (payload : Payload) : SmtpProg Unit := fun conn =>
  match conn.sock with
  | none => (.error .serverDisconnected, conn)
  | some tls =>
      let fault := server.writes conn.writes
      let sent : Conn := { conn with
        writes := conn.writes + 1
        wire := conn.wire ++ [⟨tls, payload, fault.isNone⟩] }
      match fault with
      | none => (.ok ⟨⟩, sent)
      | some _ => (.error .serverDisconnected, sent.close)

/-- `send`; a command that its encoding has no bytes for raises on an open socket. -/
def send (payload : Payload) : SmtpProg Unit := do
  modify (Conn.onSend payload)
  let encodable ← reads fun conn => conn.sock.isNone || conn.utf8 || payload.isAscii
  if encodable then sendall server payload else raise .other

/-- `getreply` after a command. -/
def nextReply : SmtpProg (Int × Bytes) := do
  let count ← reads Conn.reads
  modify fun conn => { conn with reads := conn.reads + 1 }
  getreply (server.replies count)

def hasNewline (chars : Text) : Bool := chars.any fun c => c = '\r' || c = '\n'

def crlf : Text := ['\r', '\n']

/-- `docmd`, the command with its arguments -/
def docmd (command : Text) : SmtpProg (Int × Bytes) :=
  if hasNewline command then raise .other
  else do
    send server (.command (command ++ crlf))
    nextReply server

/-- A `docmd` of a response to AUTH. -/
def docredentials (response : Bytes) : SmtpProg (Int × Bytes) := do
  send server (.credentials response)
  nextReply server

/-- `rset`, and the internal `_rset` -/
def rset : SmtpProg Unit := do
  modify fun conn => { conn with utf8 := false }
  let _ ← docmd server (text "rset")

def innerRset : SmtpProg Unit :=
  handle (rset server) fun error =>
    if error = .serverDisconnected then some (pure ⟨⟩) else none

/-! ## Greetings -/

variable (client : Client)

def helo : SmtpProg (Int × Bytes) := do
  let reply ← docmd server (text "helo " ++ client.localHostname)
  modify fun conn => { conn with heloResp := some reply.2 }
  pure reply

def isAlnum (c : Char) : Bool := c.isAlphanum

/-- `esmtp_features[name]` with more text. -/
def addFeature (name params : Text) (append : Bool) (features : List (Text × Text)) :
    List (Text × Text) :=
  let old := (features.find? fun entry => entry.1 = name).map Prod.snd
  let value := if append then old.getD [] ++ ' ' :: params else params
  features.filter (fun entry => entry.1 ≠ name) ++ [(name, value)]

/-- One line of the answer to EHLO. -/
def readFeature (features : List (Text × Text)) (line : Text) : List (Text × Text) :=
  if (text "auth=").isPrefixOf (line.map Char.toLower) then
    addFeature (text "auth") (line.drop 5) true features
  else
    match line with
    | [] => features
    | first :: _ =>
        if isAlnum first then
          let name := (line.takeWhile fun c => isAlnum c || c = '-').map Char.toLower
          let params := strip (line.dropWhile fun c => isAlnum c || c = '-')
          addFeature name params (name = text "auth") features
        else features

/-- The text of bytes in Latin-1. -/
def latin1 (bytes : Bytes) : Text := bytes.map fun byte => Char.ofNat byte.toNat

def readFeatures (response : Bytes) : List (Text × Text) :=
  ((latin1 response).splitOn '\n').tail.foldl readFeature []

def ehlo : SmtpProg (Int × Bytes) := do
  modify fun conn => { conn with features := [] }
  let reply ← docmd server (text "ehlo " ++ client.localHostname)
  if reply.1 = -1 ∧ reply.2 = [] then do
    modify Conn.close
    raise .serverDisconnected
  else do
    modify fun conn => { conn with ehloResp := some reply.2 }
    if reply.1 = 250 then do
      modify fun conn => { conn with doesEsmtp := true, features := readFeatures reply.2 }
      pure reply
    else pure reply

def isSuccess (code : Int) : Bool := 200 ≤ code && code ≤ 299

def ehloOrHeloIfNeeded : SmtpProg Unit := do
  let needed ← reads fun conn => conn.heloResp.isNone && conn.ehloResp.isNone
  if needed then do
    let first ← ehlo server client
    if isSuccess first.1 then pure ⟨⟩
    else do
      let second ← helo server client
      if isSuccess second.1 then pure ⟨⟩ else raise (.helo second.1 second.2)
  else pure ⟨⟩

def Conn.hasExtn (name : String) (conn : Conn) : Bool :=
  conn.features.any fun entry => entry.1 = text name

/-- The constructors of `SMTP` and `SMTP_SSL`; without a host there is no connection. -/
def connectTo (tls : Bool) (host : Option Text) : SmtpProg Unit :=
  if host.getD [] = [] then pure ⟨⟩
  else do
    modify fun conn => { conn with opened := conn.opened + 1 }
    match server.connect with
    | some fault => raise fault.exc
    | none =>
        match if tls then server.handshake else none with
        | some fault => raise fault.exc
        | none => do
            modify fun conn => { conn with sock := some tls }
            let reply ← nextReply server
            if reply.1 = 220 then pure ⟨⟩
            else do
              modify Conn.close
              raise (.connect reply.1 reply.2)

def starttls : SmtpProg Unit := do
  ehloOrHeloIfNeeded server client
  let advertised ← reads (Conn.hasExtn "starttls")
  if advertised then do
    let reply ← docmd server (text "STARTTLS")
    if reply.1 = 220 then
      match server.handshake with
      | some fault => raise fault.exc
      | none =>
          modify fun conn => { conn with
            sock := conn.sock.map fun _ => true
            heloResp := none
            ehloResp := none
            features := []
            doesEsmtp := false }
    else raise (.response reply.1 reply.2)
  else raise .notSupported

/-! ## Login -/

def Mechanism.name : Mechanism → Text
  | .cramMd5 => text "CRAM-MD5"
  | .plain => text "PLAIN"
  | .login => text "LOGIN"

/-- The response of the `authobject`, which may raise. -/
def respond (mechanism : Mechanism) (challenge : Option Bytes) (count : ℕ) : SmtpProg Bytes :=
  match client.respond mechanism challenge count with
  | none => raise .other
  | some response => pure response

/-- `_MAXCHALLENGE` -/
def maxChallenge : ℕ := 5

/-- The challenges of `auth`: after `left` more of them something is wrong. -/
def challenges (mechanism : Mechanism) : ℕ → Int × Bytes → SmtpProg (Int × Bytes)
  | 0, reply => if reply.1 = 334 then raise .smtp else pure reply
  | left + 1, reply =>
      if reply.1 = 334 then do
        let response ← respond client mechanism (some reply.2) (maxChallenge + 1 - left)
        let next ← docredentials server response
        if left = 0 then raise .smtp else challenges mechanism left next
      else pure reply

/-- The exchange of `auth`: PLAIN and LOGIN begin with a response. -/
def authReply (mechanism : Mechanism) : SmtpProg (Int × Bytes) :=
  if mechanism = .cramMd5 then do
    let first ← docmd server (text "AUTH " ++ mechanism.name)
    challenges server client mechanism (maxChallenge + 1) first
  else do
    let response ← respond client mechanism none 0
    let first ← docredentials server response
    challenges server client mechanism maxChallenge first

/-- `auth` -/
def auth (mechanism : Mechanism) : SmtpProg Unit := do
  let reply ← authReply server client mechanism
  if reply.1 = 235 ∨ reply.1 = 503 then pure ⟨⟩ else raise (.authentication reply.1 reply.2)

/-- The methods one after another; a refusal leads on to the next. -/
def tryAuth (lastError : Exc) : List Mechanism → SmtpProg Unit
  | [] => raise lastError
  | mechanism :: rest =>
      handle (auth server client mechanism) fun error =>
        match error with
        | .authentication _ _ => some (tryAuth error rest)
        | _ => none

/-- The methods that the client prefers, out of the advertised ones. -/
def authList (advertised : Text) : List Mechanism :=
  let names := advertised.splitOnP isSpace
  [Mechanism.cramMd5, .plain, .login].filter fun mechanism => mechanism.name ∈ names

def login : SmtpProg Unit := do
  ehloOrHeloIfNeeded server client
  let advertised ← reads fun conn =>
    (conn.features.find? fun entry => entry.1 = text "auth").map Prod.snd
  match advertised with
  | none => raise .notSupported
  | some names =>
      if authList names = [] then raise .smtp else tryAuth server client .smtp (authList names)

/-! ## The transaction -/

def mail (sender : Text) (options : List Text) : SmtpProg (Int × Bytes) := do
  let extended ← reads fun conn => !options.isEmpty && conn.doesEsmtp
  let utf8 ← reads (Conn.hasExtn "smtputf8")
  let wanted := extended && options.any fun option => option.map Char.toLower = text "smtputf8"
  if wanted && !utf8 then raise .notSupported
  else do
    modify fun conn => { conn with utf8 := conn.utf8 || wanted }
    let optionList := if extended then ' ' :: List.intercalate [' '] options else []
    docmd server (text "mail FROM:" ++ client.quoteaddr sender ++ optionList)

def rcpt (recipient : Text) : SmtpProg (Int × Bytes) :=
  docmd server (text "rcpt TO:" ++ client.quoteaddr recipient)

/-- `_quote_periods`: a period at the start of a line is doubled. -/
def quotePeriods (atStart : Bool) : Bytes → Bytes
  | [] => []
  | byte :: rest =>
      if atStart ∧ byte = 46 then 46 :: 46 :: quotePeriods false rest
      else byte :: quotePeriods (byte = 10) rest

/-- The content as `data` sends it. -/
def dataContent (message : Bytes) : Bytes :=
  let quoted := quotePeriods true message
  let ended := if quoted.drop (quoted.length - 2) = [13, 10] then quoted else quoted ++ [13, 10]
  ended ++ [46, 13, 10]

def data (message : Bytes) : SmtpProg (Int × Bytes) := do
  let reply ← docmd server (text "data")
  if reply.1 = 354 then do
    send server (.content (dataContent message))
    getreply server.contentReply
  else raise (.data reply.1 reply.2)

/-- The refused recipients with their replies. -/
abbrev Refused := List (Text × (Int × Bytes))

/-- `senderrs[each] = (code, resp)` -/
def Refused.put (refused : Refused) (recipient : Text) (reply : Int × Bytes) : Refused :=
  refused.filter (fun entry => entry.1 ≠ recipient) ++ [(recipient, reply)]

def Refused.replies (refused : Refused) : List (Int × Bytes) := refused.map Prod.snd

def rcptAll (refused : Refused) : List Text → SmtpProg Refused
  | [] => pure refused
  | recipient :: rest => do
      let reply ← rcpt server client recipient
      let refused := if reply.1 ≠ 250 ∧ reply.1 ≠ 251 then refused.put recipient reply else refused
      if reply.1 = 421 then do
        modify Conn.close
        raise (.recipientsRefused refused.replies)
      else rcptAll refused rest

/-- What follows a refusal: the connection is closed or reset. -/
def afterRefusal (code : Int) : SmtpProg Unit :=
  if code = 421 then modify Conn.close else innerRset server

def sendmail (sender : Text) (recipients : List Text) (message : Bytes)
    (mailOptions : List Text) : SmtpProg Refused := do
  ehloOrHeloIfNeeded server client
  let options ← reads fun conn =>
    if conn.doesEsmtp then
      (if conn.hasExtn "size" then [text s!"size={message.length}"] else []) ++ mailOptions
    else []
  let first ← mail server client sender options
  if first.1 = 250 then do
    let refused ← rcptAll server client [] recipients
    if refused.length = recipients.length then do
      innerRset server
      raise (.recipientsRefused refused.replies)
    else do
      let last ← data server message
      if last.1 = 250 then pure refused
      else do
        afterRefusal server last.1
        raise (.data last.1 last.2)
  else do
    afterRefusal server first.1
    raise (.senderRefused first.1 first.2)

/-- A header as the message holds it: its text and whether its parser found defects. -/
structure HeaderValue where
  text : Text
  defects : Bool
  deriving DecidableEq, Repr

/-- What is read of a message; `flatten` gives its bytes, with UTF-8 headers or without,
unless the generator raises. -/
structure Message where
  sender : List HeaderValue
  recipient : List HeaderValue
  /-- Cc, Bcc, Resent-To, Resent-Cc and Resent-Bcc -/
  implicit : List HeaderValue
  resentDates : ℕ
  flatten : Bool → Option Bytes

/-- `send_message` of the client, for given addresses. -/
def sendMessageTo (message : Message) (sender : Text) (recipients : List Text) :
    SmtpProg Refused := do
  ehloOrHeloIfNeeded server client
  if 1 < message.resentDates then raise .other
  else do
    let international := !(sender :: recipients).all fun address =>
      address.all fun c => c.toNat < 128
    let utf8 ← reads (Conn.hasExtn "smtputf8")
    if international && !utf8 then raise .notSupported
    else
      match message.flatten international with
      | none => raise .other
      | some bytes =>
          sendmail server client sender recipients bytes
            (if international then [text "SMTPUTF8", text "BODY=8BITMIME"] else [])

def quit : SmtpProg Unit := do
  let _ ← docmd server (text "quit")
  modify fun conn => { conn with
    ehloResp := none, heloResp := none, features := [], doesEsmtp := false, sock := none }

end Justup.Smtp
