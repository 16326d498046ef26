import Justup.Net.Ipaddress

/-!
# The parts of a URL

`urlsplit` and the parts of its result that are read.  Where Python raises a
`ValueError`, a part is `none`.  What depends on the Unicode tables is taken
from a `Unicode`.
-/

namespace Justup.Targets

open Store Net

/-- `str.lower`, `str.encode("idna")`, the check of a network location that is not ASCII, and the
value of a decimal digit. -/
structure Unicode where
  lower : Text → Text
  idna : Text → Option Text
  netlocOk : Text → Bool
  decimal : Char → Option Nat

structure SplitResult where
  scheme : Text
  netloc : Text
  path : Text
  query : Text
deriving DecidableEq

/-- The control characters and the blank. -/
def isControlOrSpace (c : Char) : Bool := c.toNat ≤ 32

def isUnsafeUrlChar (c : Char) : Bool := c == '\t' || c == '\r' || c == '\n'

def isSchemeChar (c : Char) : Bool := c.isAlphanum || c == '+' || c == '-' || c == '.'

/-- `text.partition(sep)` with the empty text for a part that is missing. -/
def partitionText (sep : Char) (text : Text) : Text × Text :=
  ((partition sep text).1, (partition sep text).2.getD [])

/-- The scheme, and the text behind it. -/
def splitScheme (url : Text) : Text × Text :=
  match url, partition ':' url with
  | first :: _, (scheme, some rest) =>
      if first.isAlpha && scheme.all isSchemeChar then (scheme.map Char.toLower, rest)
      else ([], url)
  | _, _ => ([], url)

/-- `_splitnetloc` behind the two slashes. -/
def splitNetloc (text : Text) : Text × Text :=
  text.span fun c => c != '/' && c != '?' && c != '#'

/-- `rpartition('@')[2]` -/
def hostInfo (netloc : Text) : Text := netloc.rtakeWhile (· != '@')

/-- `_check_bracketed_host` -/
def bracketedHostOk (hostname : Text) : Bool :=
  match hostname with
  | 'v' :: rest =>
      match partition '.' rest with
      | (digits, some name) =>
          !digits.isEmpty && digits.all (fun c => (hexDigit c).isSome) && !name.isEmpty &&
            !name.contains '\n'
      | (_, none) => false
  | _ =>
      match ipAddress hostname with
      | some (.v6 _) => true
      | _ => false

/-- The checks of the brackets in `urlsplit` and `_check_bracketed_netloc`. -/
def bracketsOk (netloc : Text) : Bool :=
  match netloc.contains '[', netloc.contains ']' with
  | false, false => true
  | true, true =>
      match partition '[' (hostInfo netloc) with
      | (before, some bracketed) =>
          let (hostname, port) := partitionText ']' bracketed
          before.isEmpty && (port.isEmpty || port.head? == some ':') && bracketedHostOk hostname
      | (_, none) => bracketedHostOk (partition ':' (hostInfo netloc)).1
  | _, _ => false

def isAscii (text : Text) : Bool := text.all fun c => c.toNat < 128

/-- `urlsplit`, without the fragment. -/
def urlsplit (unicode : Unicode) (url : Text) : Option SplitResult :=
  let url := (url.dropWhile isControlOrSpace).filter fun c => !isUnsafeUrlChar c
  let (scheme, rest) := splitScheme url
  let (netloc, rest) :=
    match rest with
    | '/' :: '/' :: text => splitNetloc text
    | _ => ([], rest)
  let (path, query) := partitionText '?' (partition '#' rest).1
  if bracketsOk netloc && (isAscii netloc || unicode.netlocOk netloc) then
    some ⟨scheme, netloc, path, query⟩
  else none

namespace SplitResult

/-- `_hostinfo` -/
def hostAndPort (parts : SplitResult) : Text × Text :=
  match partition '[' (hostInfo parts.netloc) with
  | (_, some bracketed) =>
      let (hostname, port) := partitionText ']' bracketed
      (hostname, (partitionText ':' port).2)
  | (_, none) => partitionText ':' (hostInfo parts.netloc)

/-- `hostname`: lower case but for a zone. -/
def hostname (unicode : Unicode) (parts : SplitResult) : Option Text :=
  match parts.hostAndPort.1 with
  | [] => none
  | hostname =>
      match partition '%' hostname with
      | (name, none) => some (unicode.lower name)
      | (name, some zone) => some (unicode.lower name ++ '%' :: zone)

/-- `port`: `none` where reading it raises. -/
def port (parts : SplitResult) : Option (Option Nat) :=
  match parts.hostAndPort.2 with
  | [] => some none
  | text =>
      if text.all Char.isDigit then
        let port := Nat.ofDigitChars 10 text 0
        if port ≤ 65535 then some (some port) else none
      else none

end SplitResult

/-! ## Hosts and URLs of a target -/

/-- `text.rstrip(".")` -/
def rstripDots (text : Text) : Text := text.rdropWhile (· == '.')

/-- `normalize_host`: `none` where it raises. -/
def normalizeHost (unicode : Unicode) (value : Option Text) : Option (Option Text) :=
  match value with
  | none | some [] => some none
  | some value =>
      let host := unicode.lower (rstripDots (strip value))
      match ipAddress host with
      | some address => some (some address.str)
      | none => if host = [] then some none else (unicode.idna host).map some

def http : Text := "http".toList
def https : Text := "https".toList

def decimalText (n : Int) : Text := (toString n).toList

/-- `normalize_url`: `none` where it raises. -/
def normalizeUrl (unicode : Unicode) (value : Text) (portOverride : Option Int) : Option Text := do
  let parts ← urlsplit unicode value
  let host ← normalizeHost unicode (parts.hostname unicode)
  let host ← host
  if parts.scheme = http ∨ parts.scheme = https then
    let own ← parts.port
    let port := (own.map Int.ofNat).or portOverride
    let defaultPort : Int := if parts.scheme = https then 443 else 80
    let authority := if host.contains ':' then '[' :: host ++ [']'] else host
    let authority :=
      match port with
      | none => authority
      | some port => if port = defaultPort then authority else authority ++ ':' :: decimalText port
    let path := if parts.path = [] then ['/'] else parts.path
    let query := if parts.query = [] then [] else '?' :: parts.query
    some (parts.scheme ++ "://".toList ++ authority ++ path ++ query)
  else none

end Justup.Targets
