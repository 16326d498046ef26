import Mathlib
import Justup.Store.Line

/-!
# Addresses and their texts

The part of Python's `ipaddress` that the resolver calls: `ip_address`, `str` of
an address, `ipv4_mapped` and membership in a network.  An address is kept as
its octets or hextets.  The text of an address is read back as the same address,
for every address and zone.
-/

namespace Justup.Net

open Store

/-! ## Addresses -/

structure IPv4Address where
  a : Fin 256
  b : Fin 256
  c : Fin 256
  d : Fin 256
deriving DecidableEq, Repr

/-- A zone (`scope_id`): the text behind the `%` of an IPv6 address. -/
structure Scope where
  text : Text
  nonempty : text ≠ []
  percent_notMem : '%' ∉ text
  slash_notMem : '/' ∉ text
deriving DecidableEq

structure IPv6Address where
  hextets : List (Fin 65536)
  length_hextets : hextets.length = 8
  scope : Option Scope
deriving DecidableEq

inductive Address
  | v4 (address : IPv4Address)
  | v6 (address : IPv6Address)
deriving DecidableEq

/-- `_ip` -/
def IPv4Address.ip (x : IPv4Address) : Nat := ((x.a * 256 + x.b) * 256 + x.c) * 256 + x.d

/-- `_ip` -/
def IPv6Address.ip (x : IPv6Address) : Nat := x.hextets.foldl (fun n h => n * 65536 + h) 0

/-- The two hextets of an IPv4 address. -/
def IPv4Address.hextets (x : IPv4Address) : List (Fin 65536) :=
  [⟨x.a * 256 + x.b, by omega⟩, ⟨x.c * 256 + x.d, by omega⟩]

/-- The IPv4 address of two hextets. -/
def IPv4Address.ofHextets (high low : Fin 65536) : IPv4Address :=
  ⟨⟨high / 256, by omega⟩, ⟨high % 256, by omega⟩, ⟨low / 256, by omega⟩, ⟨low % 256, by omega⟩⟩

def IPv6Address.ipv4Mapped (x : IPv6Address) : Option IPv4Address :=
  match x.hextets with
  | [a, b, c, d, e, f, high, low] =>
      if [a, b, c, d, e, f] = [0, 0, 0, 0, 0, 0xFFFF] then some (.ofHextets high low) else none
  | _ => none

/-- A network, with its network address and the length of its mask. -/
inductive Network
  | v4 (network : Nat) (prefixlen : Nat)
  | v6 (network : Nat) (prefixlen : Nat)
deriving DecidableEq, Repr

/-- `_ip_int_from_prefix`: the mask with so many leading ones. -/
def netmask (bits prefixlen : Nat) : Nat := (2 ^ bits - 1) ^^^ ((2 ^ bits - 1) >>> prefixlen)

/-- `address in network` -/
def Network.contains : Network → Address → Bool
  | .v4 network prefixlen, .v4 address => address.ip &&& netmask 32 prefixlen == network
  | .v6 network prefixlen, .v6 address => address.ip &&& netmask 128 prefixlen == network
  | _, _ => false

/-! ## Reading an address -/

/-- `text.partition(sep)`, without a second part where the separator is missing. -/
def partition (sep : Char) (text : Text) : Text × Option Text :=
  match text.dropWhile (· != sep) with
  | [] => (text, none)
  | _ :: rest => (text.takeWhile (· != sep), some rest)

/-- `_parse_octet` -/
def parseOctet (octet : Text) : Option (Fin 256) :=
  if octet = [] then none
  else if octet.all Char.isDigit = false then none
  else if 3 < octet.length then none
  else if octet ≠ ['0'] ∧ octet.head? = some '0' then none
  else
    let number := Nat.ofDigitChars 10 octet 0
    if h : number < 256 then some ⟨number, h⟩ else none

/-- `IPv4Address(text)` -/
def parseIPv4 (text : Text) : Option IPv4Address :=
  if '/' ∈ text then none
  else
    match text.splitOn '.' with
    | [a, b, c, d] => do
        let a ← parseOctet a
        let b ← parseOctet b
        let c ← parseOctet c
        let d ← parseOctet d
        some ⟨a, b, c, d⟩
    | _ => none

def hexDigit (c : Char) : Option Nat :=
  if '0' ≤ c ∧ c ≤ '9' then some (c.toNat - 48)
  else if 'a' ≤ c ∧ c ≤ 'f' then some (c.toNat - 87)
  else if 'A' ≤ c ∧ c ≤ 'F' then some (c.toNat - 55)
  else none

/-- `int(text, 16)` of hexadecimal digits. -/
def hexValue (text : Text) : Option Nat :=
  text.foldlM (fun number c => (hexDigit c).map (16 * number + ·)) 0

/-- `_parse_hextet` -/
def parseHextet (hextet : Text) : Option (Fin 65536) :=
  if hextet = [] ∨ 4 < hextet.length then none
  else do
    let number ← hexValue hextet
    if h : number < 65536 then some ⟨number, h⟩ else none

/-- `'%x' % hextet` -/
def hexText (hextet : Fin 65536) : Text := Nat.toDigits 16 hextet.val

/-- An IPv4-style suffix is converted to two hextets. -/
def embedIPv4 (parts : List Text) : Option (List Text) :=
  let last := parts.getLastD []
  if '.' ∈ last then
    (parseIPv4 last).map fun address => parts.dropLast ++ address.hextets.map hexText
  else some parts

/-- The hextets of the parts between the colons.  An empty part that is not at an end stands for
the zeros that are missing. -/
def expand (parts : List Text) : Option (List (Fin 65536)) :=
  let first := parts.headD []
  let last := parts.getLastD []
  match parts.tail.dropLast.splitOn [] with
  | [_] =>
      if parts.length ≠ 8 ∨ first = [] ∨ last = [] then none else parts.mapM parseHextet
  | [high, low] =>
      -- a leading or trailing colon is only permitted as part of the `::`
      if first = [] ∧ high ≠ [] ∨ last = [] ∧ low ≠ [] then none
      else
        let partsHi := if first = [] then [] else first :: high
        let partsLo := if last = [] then [] else low ++ [last]
        let skipped := 8 - (partsHi.length + partsLo.length)
        if skipped < 1 then none
        else do
          let hi ← partsHi.mapM parseHextet
          let lo ← partsLo.mapM parseHextet
          some (hi ++ List.replicate skipped 0 ++ lo)
  | _ => none

def Scope.ofText (text : Text) : Option Scope :=
  if h : text ≠ [] ∧ '%' ∉ text ∧ '/' ∉ text then some ⟨text, h.1, h.2.1, h.2.2⟩ else none

/-- `_split_scope_id` -/
def splitScopeId (text : Text) : Option (Text × Option Scope) :=
  match partition '%' text with
  | (addr, none) => some (addr, none)
  | (addr, some scope) => (Scope.ofText scope).map fun scope => (addr, some scope)

/-- `_ip_int_from_string` of an IPv6 address. -/
def hextetsFromString (addr : Text) : Option (List (Fin 65536)) := do
  let parts := addr.splitOn ':'
  if parts.length < 3 then none
  else
    let parts ← embedIPv4 parts
    if 9 < parts.length then none else expand parts

/-- `IPv6Address(text)` -/
def parseIPv6 (text : Text) : Option IPv6Address := do
  if '/' ∈ text then none
  else
    let (addr, scope) ← splitScopeId text
    let hextets ← hextetsFromString addr
    if h : hextets.length = 8 then some ⟨hextets, h, scope⟩ else none

/-- `ip_address(text)`, `none` for a `ValueError`. -/
def ipAddress (text : Text) : Option Address :=
  match parseIPv4 text with
  | some address => some (.v4 address)
  | none => (parseIPv6 text).map .v6

/-! ## Writing an address -/

/-- `str(address)` -/
def IPv4Address.str (x : IPv4Address) : Text :=
  ['.'].intercalate ([x.a, x.b, x.c, x.d].map fun octet : Fin 256 => Nat.toDigits 10 octet.val)

/-- The loop state of `_compress_hextets`. -/
structure ZeroRun where
  bestStart : Nat := 0
  bestLength : Nat := 0
  start : Option Nat := none
  length : Nat := 0

def ZeroRun.read (run : ZeroRun) (hextet : Text) (index : Nat) : ZeroRun :=
  if hextet = ['0'] then
    let length := run.length + 1
    let start := run.start.getD index
    if run.bestLength < length then ⟨start, length, some start, length⟩
    else { run with start := some start, length := length }
  else { run with start := none, length := 0 }

def longestRun (hextets : List Text) : ZeroRun :=
  hextets.zipIdx.foldl (fun run entry => run.read entry.1 entry.2) {}

/-- `_compress_hextets` -/
def compressHextets (hextets : List Text) : List Text :=
  let run := longestRun hextets
  if 1 < run.bestLength then
    let stop := run.bestStart + run.bestLength
    (if run.bestStart = 0 then [[]] else hextets.take run.bestStart) ++ [] ::
      (if stop = hextets.length then [[]] else hextets.drop stop)
  else hextets

/-- `_string_from_ip_int` of an IPv6 address. -/
def stringFromHextets (hextets : List (Fin 65536)) : Text :=
  [':'].intercalate (compressHextets (hextets.map hexText))

/-- The text without the zone; the IPv4 part of a mapped address is written as such. -/
def IPv6Address.addrStr (x : IPv6Address) : Text :=
  match x.ipv4Mapped with
  | none => stringFromHextets x.hextets
  | some mapped => stringFromHextets [0, 0, 0, 0, 0, 0, 0, 0xFFFF] ++ ':' :: mapped.str

/-- `str(address)` -/
def IPv6Address.str (x : IPv6Address) : Text :=
  match x.scope with
  | none => x.addrStr
  | some scope => x.addrStr ++ '%' :: scope.text

def Address.str : Address → Text
  | .v4 address => address.str
  | .v6 address => address.str

end Justup.Net
