import Mathlib.Data.List.Infix
import Mathlib.Data.Nat.Notation

/-!
# Reading JSON

A recursive-descent reader of RFC 8259 texts.  Objects keep all their members in
order, so that readers which take the first and which take the last of two equal
names can both be described.  With `constants` the reader also takes `NaN`,
`Infinity` and `-Infinity`, as many implementations do: it is then a reader of
more texts, and reads the others in the same way.

A string with a surrogate that is not one of a pair is not read: it is no
sequence of characters.
-/

namespace Justup.Lib

inductive Json where
  | null
  | bool (value : Bool)
  | number (text : List Char)
  | string (text : List Char)
  | array (items : List Json)
  | object (members : List (List Char × Json))

namespace Json

/-! ## Tokens -/

/-- The white space of JSON. -/
def isSpace (c : Char) : Bool := c == ' ' || c == '\t' || c == '\n' || c == '\r'

def skipSpace (text : List Char) : List Char := text.dropWhile isSpace

def hexValue (c : Char) : Option ℕ :=
  if '0' ≤ c ∧ c ≤ '9' then some (c.toNat - 48)
  else if 'a' ≤ c ∧ c ≤ 'f' then some (c.toNat - 87)
  else if 'A' ≤ c ∧ c ≤ 'F' then some (c.toNat - 55)
  else none

/-- The number of four hexadecimal digits. -/
def hex4 (a b c d : Char) : Option ℕ := do
  let a ← hexValue a
  let b ← hexValue b
  let c ← hexValue c
  let d ← hexValue d
  some (((a * 16 + b) * 16 + c) * 16 + d)

def isHighSurrogate (unit : ℕ) : Bool := 0xD800 ≤ unit && unit ≤ 0xDBFF

def isLowSurrogate (unit : ℕ) : Bool := 0xDC00 ≤ unit && unit ≤ 0xDFFF

/-- The character of a simple escape. -/
def unescape (c : Char) : Option Char :=
  match c with
  | '"' => some '"'
  | '\\' => some '\\'
  | '/' => some '/'
  | 'b' => some '\x08'
  | 'f' => some '\x0c'
  | 'n' => some '\n'
  | 'r' => some '\r'
  | 't' => some '\t'
  | _ => none

/-- A string behind its opening quote, and what follows. -/
def readString : List Char → Option (List Char × List Char)
  | [] => none
  | '"' :: rest => some ([], rest)
  | '\\' :: 'u' :: a :: b :: c :: d :: rest => do
      let unit ← hex4 a b c d
      if isHighSurrogate unit then
        match rest with
        | '\\' :: 'u' :: e :: f :: g :: h :: rest =>
            let low ← hex4 e f g h
            if isLowSurrogate low then do
              let (text, rest) ← readString rest
              some (Char.ofNat (0x10000 + (unit - 0xD800) * 0x400 + (low - 0xDC00)) :: text, rest)
            else none
        | _ => none
      else if isLowSurrogate unit then none
      else do
        let (text, rest) ← readString rest
        some (Char.ofNat unit :: text, rest)
  | '\\' :: c :: rest => do
      let c ← unescape c
      let (text, rest) ← readString rest
      some (c :: text, rest)
  | c :: rest =>
      if c.toNat < 0x20 then none
      else do
        let (text, rest) ← readString rest
        some (c :: text, rest)

/-- `int [ frac ] [ exp ]` behind the sign. -/
def readUnsigned (text : List Char) : Option (List Char × List Char) :=
  let whole := if text.head? = some '0' then ['0'] else text.takeWhile Char.isDigit
  let rest := text.drop whole.length
  if whole = [] then none
  else
    let fraction :=
      match rest with
      | '.' :: digits =>
          let digits := digits.takeWhile Char.isDigit
          if digits = [] then [] else '.' :: digits
      | _ => []
    let rest := rest.drop fraction.length
    let exponent :=
      match rest with
      | e :: sign :: digits =>
          if e = 'e' ∨ e = 'E' then
            let signed := if sign = '+' ∨ sign = '-' then [sign] else []
            let digits := (if signed = [] then sign :: digits else digits).takeWhile Char.isDigit
            if digits = [] then [] else e :: (signed ++ digits)
          else []
      | _ => []
    some (whole ++ fraction ++ exponent, rest.drop exponent.length)

def readNumber (text : List Char) : Option (Json × List Char) :=
  match text with
  | '-' :: rest => (readUnsigned rest).map fun (digits, rest) => (.number ('-' :: digits), rest)
  | text => (readUnsigned text).map fun (digits, rest) => (.number digits, rest)

def names : List (List Char × Json) :=
  [("null".toList, .null), ("true".toList, .bool true), ("false".toList, .bool false)]

/-- The names that RFC 8259 does not have. -/
def constantNames : List (List Char × Json) :=
  ["NaN", "Infinity", "-Infinity"].map fun name => (name.toList, .number name.toList)

def readName (constants : Bool) (text : List Char) : Option (Json × List Char) :=
  (names ++ if constants then constantNames else []).findSome? fun (name, value) =>
    if name.isPrefixOf text then some (value, text.drop name.length) else none

/-! ## Values -/

mutual

/-- A value, and what follows.  The first argument bounds the depth of the recursion. -/
def readValue (constants : Bool) : ℕ → List Char → Option (Json × List Char)
  | 0, _ => none
  | fuel + 1, text =>
      match skipSpace text with
      | [] => none
      | c :: rest =>
          if c = '"' then (readString rest).map fun (text, rest) => (.string text, rest)
          else if c = '[' then
            if (skipSpace rest).head? = some ']' then some (.array [], (skipSpace rest).tail)
            else (readItems constants fuel rest).map fun (items, rest) => (.array items, rest)
          else if c = '\x7b' then
            if (skipSpace rest).head? = some '\x7d' then some (.object [], (skipSpace rest).tail)
            else
              (readMembers constants fuel rest).map fun (members, rest) => (.object members, rest)
          else (readNumber (c :: rest)).or (readName constants (c :: rest))

/-- The items of an array that is not empty, with the closing bracket. -/
def readItems (constants : Bool) : ℕ → List Char → Option (List Json × List Char)
  | 0, _ => none
  | fuel + 1, text => do
      let (item, rest) ← readValue constants fuel text
      match skipSpace rest with
      | [] => none
      | c :: rest =>
          if c = ']' then some ([item], rest)
          else if c = ',' then do
            let (items, rest) ← readItems constants fuel rest
            some (item :: items, rest)
          else none

/-- The members of an object that is not empty, with the closing brace. -/
def readMembers (constants : Bool) : ℕ → List Char → Option (List (List Char × Json) × List Char)
  | 0, _ => none
  | fuel + 1, text =>
      match skipSpace text with
      | [] => none
      | quote :: rest =>
          if quote = '"' then do
            let (name, rest) ← readString rest
            match skipSpace rest with
            | [] => none
            | colon :: rest =>
                if colon = ':' then do
                  let (value, rest) ← readValue constants fuel rest
                  match skipSpace rest with
                  | [] => none
                  | c :: rest =>
                      if c = '\x7d' then some ([(name, value)], rest)
                      else if c = ',' then do
                        let (members, rest) ← readMembers constants fuel rest
                        some ((name, value) :: members, rest)
                      else none
                else none
          else none

end

/-- The value of a whole text.  At most two calls are made at one place of the text, so the fuel
never runs out. -/
def read (constants : Bool) (text : List Char) : Option Json := do
  let (value, rest) ← readValue constants (2 * text.length + 2) text
  if skipSpace rest = [] then some value else none

example : (read false "[NaN]".toList).isNone ∧ (read true "[NaN]".toList).isSome := by
  decide +kernel

/-! ## The readers agree -/

section

variable {text : List Char}

theorem readName_constants {result : Json × List Char}
    (hread : readName false text = some result) : readName true text = some result := by
  unfold readName at hread ⊢
  rw [if_neg (by simp), List.append_nil] at hread
  rw [if_pos rfl, List.findSome?_append, hread]
  rfl

/-- `small` reads a part of what `large` reads, and reads it in the same way. -/
def Extends {α : Type} (small large : List Char → Option (α × List Char)) : Prop :=
  ∀ text result, small text = some result → large text = some result

theorem readValue_extends {fuel : ℕ} (hitems : Extends (readItems false fuel) (readItems true fuel))
    (hmembers : Extends (readMembers false fuel) (readMembers true fuel)) :
    Extends (readValue false (fuel + 1)) (readValue true (fuel + 1)) := by
  intro text result hread
  rw [readValue] at hread ⊢
  split at hread
  · cases hread
  next c rest _ =>
    by_cases hquote : c = '"'
    · rwa [if_pos hquote] at hread ⊢
    rw [if_neg hquote] at hread ⊢
    by_cases hbracket : c = '['
    · rw [if_pos hbracket] at hread ⊢
      split at hread
      next hempty => rwa [if_pos hempty]
      next hempty =>
        obtain ⟨items, hsmall, rfl⟩ := Option.map_eq_some_iff.mp hread
        rw [if_neg hempty, hitems _ _ hsmall]
        rfl
    rw [if_neg hbracket] at hread ⊢
    by_cases hbrace : c = '\x7b'
    · rw [if_pos hbrace] at hread ⊢
      split at hread
      next hempty => rwa [if_pos hempty]
      next hempty =>
        obtain ⟨members, hsmall, rfl⟩ := Option.map_eq_some_iff.mp hread
        rw [if_neg hempty, hmembers _ _ hsmall]
        rfl
    rw [if_neg hbrace] at hread ⊢
    cases hnumber : readNumber (c :: rest) with
    | some number => rwa [hnumber] at hread
    | none =>
        rw [hnumber, Option.none_or] at hread
        rw [Option.none_or, readName_constants hread]

theorem readItems_extends {fuel : ℕ} (hvalue : Extends (readValue false fuel) (readValue true fuel))
    (hitems : Extends (readItems false fuel) (readItems true fuel)) :
    Extends (readItems false (fuel + 1)) (readItems true (fuel + 1)) := by
  intro text result hread
  rw [readItems] at hread ⊢
  rw [Option.bind_eq_bind, Option.bind_eq_some_iff] at hread
  obtain ⟨⟨item, rest⟩, hitem, hread⟩ := hread
  rw [hvalue _ _ hitem]
  dsimp only [Option.bind_eq_bind, Option.bind_some] at hread ⊢
  split at hread
  · cases hread
  next c rest _ =>
    split at hread
    next hclose => rwa [if_pos hclose]
    next hclose =>
      rw [if_neg hclose]
      split at hread
      next hcomma =>
        rw [if_pos hcomma]
        obtain ⟨⟨items, rest⟩, hsmall, hread⟩ := Option.bind_eq_some_iff.mp hread
        rw [hitems _ _ hsmall]
        exact hread
      next => cases hread

theorem readMembers_extends {fuel : ℕ}
    (hvalue : Extends (readValue false fuel) (readValue true fuel))
    (hmembers : Extends (readMembers false fuel) (readMembers true fuel)) :
    Extends (readMembers false (fuel + 1)) (readMembers true (fuel + 1)) := by
  intro text result hread
  rw [readMembers] at hread ⊢
  split at hread
  · cases hread
  next quote rest _ =>
    split at hread
    next hquote =>
      rw [if_pos hquote]
      rw [Option.bind_eq_bind, Option.bind_eq_some_iff] at hread
      obtain ⟨⟨name, rest⟩, hname, hread⟩ := hread
      rw [hname]
      dsimp only [Option.bind_eq_bind, Option.bind_some] at hread ⊢
      split at hread
      · cases hread
      next colon rest _ =>
        split at hread
        next hcolon =>
          rw [if_pos hcolon]
          obtain ⟨⟨value, rest⟩, hsmall, hread⟩ := Option.bind_eq_some_iff.mp hread
          rw [hvalue _ _ hsmall]
          dsimp only [Option.bind_some] at hread ⊢
          split at hread
          · cases hread
          next c rest _ =>
            split at hread
            next hclose => rwa [if_pos hclose]
            next hclose =>
              rw [if_neg hclose]
              split at hread
              next hcomma =>
                rw [if_pos hcomma]
                obtain ⟨⟨members, rest⟩, hsmall, hread⟩ := Option.bind_eq_some_iff.mp hread
                rw [hmembers _ _ hsmall]
                exact hread
              next => cases hread
        next => cases hread
    next => cases hread

theorem readers_extend (fuel : ℕ) :
    Extends (readValue false fuel) (readValue true fuel) ∧
      Extends (readItems false fuel) (readItems true fuel) ∧
      Extends (readMembers false fuel) (readMembers true fuel) := by
  induction fuel with
  | zero =>
      refine ⟨?_, ?_, ?_⟩ <;> intro text result hread <;>
        simp [readValue, readItems, readMembers] at hread
  | succ fuel ih =>
      obtain ⟨hvalue, hitems, hmembers⟩ := ih
      exact ⟨readValue_extends hitems hmembers, readItems_extends hvalue hitems,
        readMembers_extends hvalue hmembers⟩

/-- With the constants every text of RFC 8259 is read in the same way. -/
theorem read_constants {value : Json} (hread : read false text = some value) :
    read true text = some value := by
  unfold read at hread ⊢
  obtain ⟨⟨value, rest⟩, hsmall, hread⟩ := Option.bind_eq_some_iff.mp hread
  rw [(readers_extend _).1 _ _ hsmall]
  exact hread

end

end Json

end Justup.Lib
