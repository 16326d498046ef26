import Justup.Targets.Url

/-!
# What a target monitors

The semantic identities of the enabled checks of a target, the signature that is
stored with it and the search for conflicts.  A set of identities is the list of
its members in ascending order.
-/

namespace Justup.Targets

open Store Net

/-! ## Rows -/

/-- A row of `targets`, with the name of its group.  Times are microseconds. -/
structure Target where
  id : Nat
  name : Text
  group : Option Text
  isEnabled : Bool
  intervalSeconds : Int
  retentionDays : Int
  enablePing : Bool
  enableHttpCheck : Bool
  enableCertExpiration : Bool
  enableTcpConnect : Bool
  host : Text
  pingHost : Option Text
  httpUrl : Option Text
  httpUsername : Option Text
  httpPassword : Option Text
  httpPreferHead : Bool
  httpBasicAuthEnabled : Bool
  httpSuccessCodes : Option Text
  httpPort : Option Int
  certHost : Option Text
  certPort : Option Int
  ignoreCertErrors : Bool
  tcpHost : Option Text
  tcpPorts : Option Text
  maxRetries : Int
  pingTimeoutMinutes : Int
  autoCloseAlert : Bool
  slaEnabled : Bool
  slaAvailabilityPct : Option ℚ
  slaResponseTimeMs : Option ℚ
  slaPingLatencyMs : Option ℚ
  identitySignature : Option Text
  createdAt : Int
  updatedAt : Int
deriving DecidableEq

/-- The `CHECK` constraints of the table. -/
def Target.checked (row : Target) : Bool :=
  decide (0 < row.intervalSeconds) && decide (0 < row.retentionDays) &&
    row.httpPort.all (fun port => decide (1 ≤ port ∧ port ≤ 65535)) &&
    row.certPort.all (fun port => decide (1 ≤ port ∧ port ≤ 65535)) &&
    decide (0 ≤ row.maxRetries) && decide (0 < row.pingTimeoutMinutes) &&
    row.slaAvailabilityPct.all fun pct => decide (0 ≤ pct ∧ pct ≤ 100)

/-! ## Identities -/

/-- What `check_identities` reads of a row or of the values of a request. -/
structure Checks where
  host : Option Text
  enablePing : Bool
  pingHost : Option Text
  enableHttpCheck : Bool
  httpUrl : Option Text
  httpPort : Option Int
  enableTcpConnect : Bool
  tcpHost : Option Text
  tcpPorts : Option Text
deriving DecidableEq

def Target.checks (row : Target) : Checks where
  host := some row.host
  enablePing := row.enablePing
  pingHost := row.pingHost
  enableHttpCheck := row.enableHttpCheck
  httpUrl := row.httpUrl
  httpPort := row.httpPort
  enableTcpConnect := row.enableTcpConnect
  tcpHost := row.tcpHost
  tcpPorts := row.tcpPorts

/-- A kind of check and its endpoint. -/
abbrev Identity := Text × Text

/-- The order of tuples of texts. -/
def before (x y : Identity) : Bool := decide (x.1 < y.1) || decide (x.1 = y.1) && decide (x.2 < y.2)

/-- `result.add(x)` -/
def add (x : Identity) : List Identity → List Identity
  | [] => [x]
  | y :: rest =>
      if x = y then y :: rest else if before x y then x :: y :: rest else y :: add x rest

/-- `first or second` of texts that may be missing. -/
def orText (first second : Option Text) : Option Text :=
  match first with
  | none | some [] => second
  | some text => some text

theorem orText_none_eq_some {text : Option Text} {found : Text}
    (hfound : orText text none = some found) : text = some found := by
  match text, hfound with
  | some (_ :: _), rfl => rfl

/-- `int(text)`: `none` where it raises. -/
def readInt (unicode : Unicode) (text : Text) : Option Int := do
  let text := strip text
  let negative := text.head? = some '-'
  let digits := if negative ∨ text.head? = some '+' then text.drop 1 else text
  let groups := digits.splitOn '_'
  if groups.any List.isEmpty then none
  else
    let values ← groups.flatten.mapM unicode.decimal
    if 4300 < values.length then none
    else
      let number : Int := values.foldl (fun number value => 10 * number + value) (0 : Nat)
      some (if negative then -number else number)

/-- The loop over the ports. -/
def addPorts (unicode : Unicode) (tcpHost : Text) :
    List Text → List Identity → Option (List Identity)
  | [], result => some result
  | port :: rest, result =>
      if strip port = [] then addPorts unicode tcpHost rest result
      else do
        let number ← readInt unicode port
        let identity := ("tcp".toList, tcpHost ++ ':' :: decimalText number)
        addPorts unicode tcpHost rest (add identity result)

def addPing (unicode : Unicode) (data : Checks) (host : Option Text) (result : List Identity) :
    Option (List Identity) :=
  if data.enablePing then do
    let own ← normalizeHost unicode data.pingHost
    some (add ("ping".toList, (orText own host).getD []) result)
  else some result

def addHttp (unicode : Unicode) (data : Checks) (result : List Identity) :
    Option (List Identity) :=
  match data.enableHttpCheck, orText data.httpUrl none with
  | true, some url => do
      let url ← normalizeUrl unicode url data.httpPort
      some (add (http, url) result)
  | _, _ => some result

def addTcp (unicode : Unicode) (data : Checks) (host : Option Text) (result : List Identity) :
    Option (List Identity) :=
  if data.enableTcpConnect then do
    let own ← normalizeHost unicode data.tcpHost
    addPorts unicode ((orText own host).getD []) ((data.tcpPorts.getD []).splitOn ',') result
  else some result

/-- `check_identities`: `none` where it raises. -/
def checkIdentities (unicode : Unicode) (data : Checks) : Option (List Identity) := do
  let host ← normalizeHost unicode data.host
  let result ← addPing unicode data host []
  let result ← addHttp unicode data result
  addTcp unicode data host result

/-! ## Signatures -/

def hex4 (n : Nat) : Text := ((Nat.toDigits 16 (n % 65536 + 65536)).drop 1)

/-- One character in a JSON text that is ASCII only. -/
def escapeChar (c : Char) : Text :=
  let n := c.toNat
  if c = '"' then ['\\', '"']
  else if c = '\\' then ['\\', '\\']
  else if 32 ≤ n ∧ n ≤ 126 then [c]
  else if n = 10 then ['\\', 'n']
  else if n = 13 then ['\\', 'r']
  else if n = 9 then ['\\', 't']
  else if n = 12 then ['\\', 'f']
  else if n = 8 then ['\\', 'b']
  else if n < 65536 then '\\' :: 'u' :: hex4 n
  else
    let n := n - 65536
    '\\' :: 'u' :: hex4 (0xD800 + n / 1024) ++ '\\' :: 'u' :: hex4 (0xDC00 + n % 1024)

def jsonText (text : Text) : Text := '"' :: text.flatMap escapeChar ++ ['"']

/-- `json.dumps(identities, separators=(",", ":"))` -/
def dumps (identities : List Identity) : Text :=
  '[' :: [','].intercalate (identities.map fun x =>
    '[' :: jsonText x.1 ++ ',' :: jsonText x.2 ++ [']']) ++ [']']

def signatureOf (identities : List Identity) : Option Text :=
  if identities = [] then none else some (dumps identities)

/-- `identity_signature` -/
def identitySignature (unicode : Unicode) (data : Checks) : Option (Option Text) :=
  (checkIdentities unicode data).map signatureOf

/-! ## Conflicts -/

inductive Classification where
  | exact
  | overlap
  | related
deriving DecidableEq, Repr

structure Conflict where
  id : Nat
  name : Text
  classification : Classification
  checkType : Text
deriving DecidableEq

def checkType (identities : List Identity) : Text :=
  ", ".toList.intercalate (identities.map Prod.fst).dedup

/-- One row of the loop in `classify_conflicts`, with what it adds. -/
def classify (unicode : Unicode) (incoming : List Identity) (host : Option Text)
    (excludeId : Option Nat) (row : Target) : Option (List Conflict) :=
  if excludeId = some row.id then some []
  else do
    let current ← checkIdentities unicode row.checks
    let rowHost ← normalizeHost unicode (some row.host)
    let common := incoming.any current.contains
    if common || decide (host = rowHost) then
      let classification : Classification :=
        if incoming = current ∧ incoming ≠ [] then .exact
        else if common then .overlap else .related
      some [⟨row.id, row.name, classification, checkType current⟩]
    else some []

/-- `classify_conflicts`: `none` where it raises. -/
def classifyConflicts (unicode : Unicode) (data : Checks) (targets : List Target)
    (excludeId : Option Nat) : Option (List Conflict) := do
  let incoming ← checkIdentities unicode data
  let host ← normalizeHost unicode data.host
  let conflicts ← targets.mapM (classify unicode incoming host excludeId)
  some conflicts.flatten

def exactConflicts (conflicts : List Conflict) : List Conflict :=
  conflicts.filter fun conflict => decide (conflict.classification = .exact)

end Justup.Targets
