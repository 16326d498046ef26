import Justup.Lib.Scanner
import Justup.Net.AddressText

/-!
# The address of the client behind trusted proxies

The resolver of a request (`resolve_trusted_client_ip`): the headers of proxies
count only when the peer is in a trusted network, and a chain of addresses is
walked from the right past the trusted ones.  `none` is an exception.
-/

namespace Justup.Net

open Lib Store

/-! ## One address -/

/-- `text.strip(chars)` -/
def stripChars (chars text : Text) : Text :=
  (text.dropWhile (chars.contains ·)).rdropWhile (chars.contains ·)

/-- `_is_trusted`: an IPv4-mapped IPv6 address matches as IPv4. -/
def isTrusted (networks : List Network) (addr : Address) : Bool :=
  let addr := match addr with
    | .v4 x => .v4 x
    | .v6 x =>
        match x.ipv4Mapped with
        | some mapped => .v4 mapped
        | none => .v6 x
  networks.any fun network => network.contains addr

/-- `_valid_ip` -/
def validIp (value : Text) : Option Text :=
  (ipAddress (stripChars ['[', ']'] (strip value))).map Address.str

/-! ## The elements of a Forwarded header -/

/-- The loop state of `_split_quoted`. -/
structure SplitState where
  parts : List Text := []
  buf : Text := []
  inQuotes : Bool := false
  escaped : Bool := false

def SplitState.read (sep : Char) (state : SplitState) (ch : Char) : SplitState :=
  if state.escaped then { state with buf := state.buf ++ [ch], escaped := false }
  else if state.inQuotes && ch == '\\' then { state with buf := state.buf ++ [ch], escaped := true }
  else if ch == '"' then { state with buf := state.buf ++ [ch], inQuotes := !state.inQuotes }
  else if ch == sep && !state.inQuotes then
    { state with parts := state.parts ++ [state.buf], buf := [] }
  else { state with buf := state.buf ++ [ch] }

/-- `_split_quoted`: split outside quoted strings. -/
def splitQuoted (text : Text) (sep : Char) : List Text :=
  let state := text.foldl (SplitState.read sep) {}
  state.parts ++ [state.buf]

/-- `re.sub(r"\\(.)", r"\1", text)`; the dot does not match a newline. -/
def unescape : Text → Text
  | '\\' :: c :: rest => if c = '\n' then '\\' :: '\n' :: unescape rest else c :: unescape rest
  | c :: rest => c :: unescape rest
  | [] => []

/-- `_unquote` -/
def unquote (value : Text) : Text :=
  let value := strip value
  if 2 ≤ value.length ∧ value.head? = some '"' ∧ value.getLast? = some '"' then
    unescape value.tail.dropLast
  else value

def isObfuscatedPortChar (c : Char) : Bool := c.isAlphanum || c == '.' || c == '_' || c == '-'

/-- `_NODE_PORT_RE.fullmatch` -/
def isNodePort (text : Text) : Bool :=
  match text with
  | ':' :: '_' :: rest => !rest.isEmpty && rest.all isObfuscatedPortChar
  | ':' :: digits => !digits.isEmpty && decide (digits.length ≤ 5) && digits.all Char.isDigit
  | _ => false

/-- `_node_ip` -/
def nodeIp (node : Text) : Option Text :=
  if node.head? = some '[' then
    match partition ']' node.tail with
    | (_, none) => none
    | (host, some rest) => if rest ≠ [] ∧ isNodePort rest = false then none else validIp host
  else if node.count ':' = 1 then
    let (host, port) := partition ':' node
    if isNodePort (':' :: port.getD []) = false then none else validIp host
  else validIp node

/-- `name.strip().lower() == "for"` -/
def isFor (name : Text) : Bool := (strip name).map Char.toLower == ['f', 'o', 'r']

/-- The value of the first `for` pair. -/
def forValue : List Text → Option Text
  | [] => none
  | pair :: rest =>
      match partition '=' pair with
      | (name, some raw) => if isFor name then some raw else forValue rest
      | (_, none) => forValue rest

/-- The entry of one element: its `for` address, if it is usable. -/
def elementEntry (element : Text) : Option Text :=
  (forValue (splitQuoted element ';')).bind fun raw => nodeIp (unquote raw)

def isBlank (text : Text) : Bool := (strip text).isEmpty

/-- `_forwarded_for_entries` -/
def forwardedForEntries (header : Text) : List (Option Text) :=
  ((splitQuoted header ',').filter fun element => !isBlank element).map elementEntry

/-! ## The chain -/

section

variable (networks : List Network)

/-- The loop of `_client_from_chain`, from the last entry to the first. -/
def walkChain : Option Text → List (Option Text) → Option (Option Text)
  | candidate, [] => some candidate
  | _, none :: _ => some none
  | _, some candidate :: rest =>
      match ipAddress candidate with
      | none => none
      | some addr =>
          if isTrusted networks addr then walkChain (some candidate) rest
          else some (some candidate)

/-- `_client_from_chain` -/
def clientFromChain (entries : List (Option Text)) : Option (Option Text) :=
  walkChain networks none entries.reverse

/-- The entries of `_client_from_xff`. -/
def xffEntries (header : Text) : List (Option Text) :=
  ((header.splitOn ',').filter fun part => !isBlank part).map validIp

/-- `_client_from_xff` -/
def clientFromXff (header : Text) : Option (Option Text) :=
  clientFromChain networks (xffEntries header)

/-! ## The request -/

/-- What the resolver reads of a request.  The names of the headers are in lower case. -/
structure Request where
  host : Option Text
  headers : List (Text × Text)

/-- `request.headers.getlist` -/
def Request.getlist (request : Request) (name : Text) : List Text :=
  (request.headers.filter fun header => header.1 == name).map Prod.snd

/-- `request.headers.get` -/
def Request.get (request : Request) (name : Text) : Option Text := (request.getlist name).head?

def xForwardedFor : Text := "x-forwarded-for".toList
def xRealIp : Text := "x-real-ip".toList
def forwarded : Text := "forwarded".toList

/-- The address of the connection, `"unknown"` when it is missing. -/
def Request.peer (request : Request) : Text :=
  match request.host with
  | some host => if host = [] then "unknown".toList else host
  | none => "unknown".toList

/-- `client or fallback` -/
def orElse (client : Option Text) (fallback : Text) : Text :=
  match client with
  | some client => if client = [] then fallback else client
  | none => fallback

/-- `resolve_trusted_client_ip` -/
def resolveTrustedClientIp (request : Request) : Option Text :=
  match ipAddress request.peer with
  | none => some request.peer
  | some peerIp =>
      if isTrusted networks peerIp = false then some peerIp.str
      else if request.getlist xForwardedFor ≠ [] then
        -- an unusable chain never falls through to weaker headers
        (clientFromXff networks ([','].intercalate (request.getlist xForwardedFor))).map
          fun client => orElse client peerIp.str
      else
        match (request.get xRealIp).bind validIp with
        | some candidate => some candidate
        | none =>
            if request.getlist forwarded ≠ [] then
              (clientFromChain networks
                (forwardedForEntries ([','].intercalate (request.getlist forwarded)))).map
                fun client => orElse client peerIp.str
            else some peerIp.str

end

/-! ## Chains -/

section

variable {networks : List Network} {entries : List (Option Text)} {addr : Address}

/-- The address that a trusted hop passes on is the last one that is not trusted. -/
theorem clientFromChain_append_untrusted (haddr : isTrusted networks addr = false)
    {hops : List Address} (hhops : ∀ hop ∈ hops, isTrusted networks hop = true) :
    clientFromChain networks (entries ++ some addr.str :: hops.map fun hop => some hop.str) =
      some (some addr.str) := by
  have hwalk : ∀ candidate (hops : List Address), (∀ hop ∈ hops, isTrusted networks hop = true) →
      walkChain networks candidate
        ((hops.map fun hop => some hop.str) ++ some addr.str :: entries.reverse) =
        some (some addr.str) := by
    intro candidate hops hhops
    induction hops generalizing candidate with
    | nil => simp [walkChain, ipAddress_str, haddr]
    | cons hop rest ih =>
        have hhop := hhops hop List.mem_cons_self
        rw [List.map_cons, List.cons_append, walkChain, ipAddress_str]
        dsimp only
        rw [if_pos hhop]
        exact ih _ fun other hother => hhops other (List.mem_cons_of_mem hop hother)
  unfold clientFromChain
  rw [List.reverse_append, List.reverse_cons, ← List.map_reverse, List.append_assoc]
  exact hwalk none hops.reverse fun hop hhop => hhops hop (List.mem_reverse.mp hhop)

end

end Justup.Net
