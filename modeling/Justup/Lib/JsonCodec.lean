import Justup.Lib.CodePoints
import Mathlib.Data.List.Sort
import Mathlib.Data.List.Lex
import Mathlib.Data.Fin.Basic

/-!
# Writing JSON and reading it back

The values that `json` reads and writes, with `dumps` as it writes them under
`sort_keys`, the separators without blanks and `ensure_ascii`, and `loads` with a
hook that rejects objects with equal names.  What is written is read back with the
names of every object in order, so two values are written alike only if they are
equal up to the order of names.
-/

namespace Justup.Lib

namespace JsonCodec

open Json CodePoint Str

/-! ## String literals -/

def hexDigit (n : ℕ) : Char := if n < 10 then Char.ofNat (48 + n) else Char.ofNat (87 + n)

/-- `\uXXXX` -/
def escapeUnit (unit : CodePoint) : List Char :=
  ['\\', 'u', hexDigit (unit.val / 4096), hexDigit (unit.val / 256 % 16),
    hexDigit (unit.val / 16 % 16), hexDigit (unit.val % 16)]

/-- A code point within a string literal of ASCII characters. -/
def escape (c : CodePoint) : List Char :=
  match c.val with
  | 34 => ['\\', '"']
  | 92 => ['\\', '\\']
  | 8 => ['\\', 'b']
  | 9 => ['\\', 't']
  | 10 => ['\\', 'n']
  | 12 => ['\\', 'f']
  | 13 => ['\\', 'r']
  | n => if 32 ≤ n ∧ n ≤ 126 then [Char.ofNat n] else (units c).flatMap escapeUnit

def writeString (s : Str) : List Char := '"' :: (s.flatMap escape ++ ['"'])

/-- Some units before those that are read. -/
def prepend (us : List CodePoint) (result : Option (List CodePoint × List Char)) :
    Option (List CodePoint × List Char) :=
  result.map fun (vs, rest) => (us ++ vs, rest)

/-- The units of a string behind its opening quote, and what follows. -/
def readUnits : List Char → Option (List CodePoint × List Char)
  | [] => none
  | '"' :: rest => some ([], rest)
  | '\\' :: 'u' :: a :: b :: c :: d :: rest =>
      (hex4 a b c d).bind fun unit => prepend [ofNat unit] (readUnits rest)
  | '\\' :: c :: rest => (unescape c).bind fun c => prepend [ofChar c] (readUnits rest)
  | c :: rest => if c.toNat < 0x20 then none else prepend [ofChar c] (readUnits rest)

def readString (text : List Char) : Option (Str × List Char) :=
  (readUnits text).map fun (us, rest) => (joinUnits us, rest)

theorem unpaired_readString {text rest : List Char} {s : Str}
    (hread : readString text = some (s, rest)) : Unpaired s := by
  obtain ⟨⟨us, _⟩, -, heq⟩ := Option.map_eq_some_iff.mp hread
  obtain ⟨rfl, -⟩ := Prod.mk.inj heq
  exact unpaired_joinUnits us

theorem hexValue_hexDigit {n : ℕ} (h : n < 16) : hexValue (hexDigit n) = some n := by
  have hall : ∀ n : Fin 16, hexValue (hexDigit n.val) = some n.val := by decide
  exact hall ⟨n, h⟩

theorem readUnits_escapeUnit {unit : CodePoint} (hunit : unit.val < 0x10000) (rest : List Char) :
    readUnits (escapeUnit unit ++ rest) = prepend [unit] (readUnits rest) := by
  have hnumber : (((unit.val / 4096) * 16 + unit.val / 256 % 16) * 16 + unit.val / 16 % 16) * 16 +
      unit.val % 16 = unit.val := by omega
  have hhex : hex4 (hexDigit (unit.val / 4096)) (hexDigit (unit.val / 256 % 16))
      (hexDigit (unit.val / 16 % 16)) (hexDigit (unit.val % 16)) = some unit.val := by
    simp only [hex4, hexValue_hexDigit (show unit.val / 4096 < 16 by omega),
      hexValue_hexDigit (Nat.mod_lt _ (show 0 < 16 by decide)), Option.bind_eq_bind,
      Option.bind_some, hnumber]
  have hunit : ofNat unit.val = unit := Fin.ext (val_ofNat unit.isLt)
  rw [escapeUnit]
  simp only [List.cons_append, List.nil_append, readUnits, hhex, Option.bind_some, hunit]

theorem prepend_prepend (us vs : List CodePoint) (result : Option (List CodePoint × List Char)) :
    prepend us (prepend vs result) = prepend (us ++ vs) result := by
  cases result <;> simp [prepend]

theorem readUnits_plain {c : Char} (hquote : c ≠ '"') (hslash : c ≠ '\\') (hc : 0x20 ≤ c.toNat)
    (rest : List Char) : readUnits (c :: rest) = prepend [ofChar c] (readUnits rest) := by
  rw [readUnits.eq_def]
  split
  next h => cases h
  next h => exact absurd (List.cons.inj h).1 hquote
  next h => exact absurd (List.cons.inj h).1 hslash
  next h => exact absurd (List.cons.inj h).1 hslash
  next h =>
    obtain ⟨rfl, rfl⟩ := List.cons.inj h
    rw [if_neg (Nat.not_lt.mpr hc)]

theorem readUnits_units (c : CodePoint) (rest : List Char) :
    readUnits ((units c).flatMap escapeUnit ++ rest) = prepend (units c) (readUnits rest) := by
  have hc := c.isLt
  unfold units
  split
  next hsmall => simpa using readUnits_escapeUnit hsmall rest
  next hlarge =>
    have hhigh : (ofNat (0xD800 + (c.val - 0x10000) / 0x400)).val < 0x10000 := by
      rw [val_ofNat (by omega)]
      omega
    have hlow : (ofNat (0xDC00 + (c.val - 0x10000) % 0x400)).val < 0x10000 := by
      rw [val_ofNat (by omega)]
      omega
    rw [List.flatMap_cons, List.flatMap_cons, List.flatMap_nil, List.append_nil, List.append_assoc,
      readUnits_escapeUnit hhigh, readUnits_escapeUnit hlow, prepend_prepend]
    rfl

theorem readUnits_escape (c : CodePoint) (rest : List Char) :
    readUnits (escape c ++ rest) = prepend (units c) (readUnits rest) := by
  have hunits : ∀ n : ℕ, c.val = n → n < 0x10000 → units c = [ofNat n] := by
    rintro n rfl h
    rw [units, if_pos h]
    exact congrArg (· :: []) (Fin.ext (val_ofNat c.isLt).symm)
  unfold escape
  split
  next h => rw [hunits _ h (by decide)]; rfl
  next h => rw [hunits _ h (by decide)]; rfl
  next h => rw [hunits _ h (by decide)]; rfl
  next h => rw [hunits _ h (by decide)]; rfl
  next h => rw [hunits _ h (by decide)]; rfl
  next h => rw [hunits _ h (by decide)]; rfl
  next h => rw [hunits _ h (by decide)]; rfl
  next hquote hslash _ _ _ _ _ =>
    split
    next hplain =>
      have hvalid : c.val.isValidChar := .inl (by omega)
      have hval : (Char.ofNat c.val).toNat = c.val := by
        rw [Char.ofNat, dif_pos hvalid]
        rfl
      have hself : ofChar (Char.ofNat c.val) = c := by
        apply Fin.ext
        rw [val_ofChar, hval]
      rw [List.singleton_append, readUnits_plain, hself, units, if_pos (by omega)]
      · intro h
        exact hquote (hval ▸ congrArg Char.toNat h)
      · intro h
        exact hslash (hval ▸ congrArg Char.toNat h)
      · omega
    next => exact readUnits_units c rest

theorem readUnits_write (s : Str) (rest : List Char) :
    readUnits (s.flatMap escape ++ '"' :: rest) = some (s.flatMap units, rest) := by
  induction s with
  | nil => rfl
  | cons c s ih =>
      rw [List.flatMap_cons, List.append_assoc, readUnits_escape, ih, List.flatMap_cons]
      rfl

/-- What is written of a string is read as the string. -/
theorem readString_write {s : Str} (hs : Unpaired s) (rest : List Char) :
    readString (s.flatMap escape ++ '"' :: rest) = some (s, rest) := by
  rw [readString, readUnits_write, Option.map_some]
  exact congrArg (fun read => some (read, rest)) (joinUnits_units hs)

/-! ## Values -/

/-- The values of Python that JSON has.  A `float` stands as the text that is written of it. -/
inductive Value where
  | null
  | bool (value : Bool)
  | int (value : ℤ)
  | float (repr : List Char)
  | string (text : Str)
  | list (items : List Value)
  | dict (members : List (Str × Value))

/-- `sys.get_int_max_str_digits()`: `int` reads and writes no more digits. -/
def intMaxStrDigits : ℕ := 4300

/-- `int.__repr__` -/
def decimal (n : ℤ) : List Char :=
  if n < 0 then '-' :: Nat.toDigits 10 n.natAbs else Nat.toDigits 10 n.natAbs

mutual

/-- The text of a value, with the names of every object in their order. -/
def write : Value → List Char
  | .null => "null".toList
  | .bool true => "true".toList
  | .bool false => "false".toList
  | .int value => decimal value
  | .float repr => repr
  | .string text => writeString text
  | .list items => '[' :: ([','].intercalate (writeItems items) ++ [']'])
  | .dict members => '\x7b' :: ([','].intercalate (writeMembers members) ++ ['\x7d'])

def writeItems : List Value → List (List Char)
  | [] => []
  | item :: items => write item :: writeItems items

def writeMembers : List (Str × Value) → List (List Char)
  | [] => []
  | (name, value) :: members => (writeString name ++ ':' :: write value) :: writeMembers members

end

def writeMember (m : Str × Value) : List Char := writeString m.1 ++ ':' :: write m.2

theorem writeItems_eq_map (items : List Value) : writeItems items = items.map write := by
  induction items with
  | nil => rw [writeItems, List.map_nil]
  | cons item items ih => rw [writeItems, ih, List.map_cons]

theorem writeMembers_eq_map (members : List (Str × Value)) :
    writeMembers members = members.map writeMember := by
  induction members with
  | nil => rw [writeMembers, List.map_nil]
  | cons m members ih =>
      obtain ⟨name, value⟩ := m
      rw [writeMembers, ih, List.map_cons, writeMember]

/-- Members in the order of their names. -/
def byName (members : List (Str × Value)) : List (Str × Value) :=
  members.insertionSort fun m n => m.1 ≤ n.1

mutual

/-- The names of every object in order. -/
def sortKeys : Value → Value
  | .list items => .list (sortItems items)
  | .dict members => .dict (byName (sortMembers members))
  | .null => .null
  | .bool value => .bool value
  | .int value => .int value
  | .float repr => .float repr
  | .string text => .string text

def sortItems : List Value → List Value
  | [] => []
  | item :: items => sortKeys item :: sortItems items

def sortMembers : List (Str × Value) → List (Str × Value)
  | [] => []
  | (name, value) :: members => (name, sortKeys value) :: sortMembers members

end

theorem sortItems_eq_map (items : List Value) : sortItems items = items.map sortKeys := by
  induction items with
  | nil => rw [sortItems, List.map_nil]
  | cons item items ih => rw [sortItems, ih, List.map_cons]

theorem sortMembers_eq_map (members : List (Str × Value)) :
    sortMembers members = members.map fun m => (m.1, sortKeys m.2) := by
  induction members with
  | nil => rw [sortMembers, List.map_nil]
  | cons m members ih =>
      obtain ⟨name, value⟩ := m
      rw [sortMembers, ih, List.map_cons]

/-- `json.dumps(value, sort_keys=True, separators=(",", ":"), ensure_ascii=True)` -/
def dumps (value : Value) : List Char := write (sortKeys value)

/-- Equal values: the order of the names of an object does not count. -/
def Same (v w : Value) : Prop := sortKeys v = sortKeys w

/-! ## Reading -/

/-- The hooks of a `JSONDecoder`; a `float` is the text that is written of it. -/
structure Decoder where
  parseFloat : List Char → List Char
  objectPairsHook : List (Str × Value) → Option (List (Str × Value))

/-- `int` or `float` of the digits of a number. -/
def Decoder.number (d : Decoder) (sign digits : List Char) : Option Value :=
  if digits.all Char.isDigit then
    if digits.length ≤ intMaxStrDigits then
      let value : ℤ := Nat.ofDigitChars 10 digits 0
      some (.int (if sign = [] then value else -value))
    else none
  else some (.float (d.parseFloat (sign ++ digits)))

def Decoder.readNumber (d : Decoder) (text : List Char) : Option (Value × List Char) :=
  match text with
  | '-' :: rest =>
      (readUnsigned rest).bind fun (digits, rest) => (d.number ['-'] digits).map fun v => (v, rest)
  | text =>
      (readUnsigned text).bind fun (digits, rest) => (d.number [] digits).map fun v => (v, rest)

/-- The names of values; `json` reads `NaN` and the infinities too. -/
def constants : List (List Char × Value) :=
  [("null".toList, .null), ("true".toList, .bool true), ("false".toList, .bool false),
    ("NaN".toList, .float "NaN".toList), ("Infinity".toList, .float "Infinity".toList),
    ("-Infinity".toList, .float "-Infinity".toList)]

def readName (text : List Char) : Option (Value × List Char) :=
  constants.findSome? fun (name, value) =>
    if name.isPrefixOf text then some (value, text.drop name.length) else none

mutual

/-- A value, and what follows.  The first argument bounds the depth of the recursion. -/
def readValue (d : Decoder) : ℕ → List Char → Option (Value × List Char)
  | 0, _ => none
  | fuel + 1, text =>
      match skipSpace text with
      | [] => none
      | c :: rest =>
          if c = '"' then (readString rest).map fun (text, rest) => (.string text, rest)
          else if c = '[' then
            if (skipSpace rest).head? = some ']' then some (.list [], (skipSpace rest).tail)
            else (readItems d fuel rest).map fun (items, rest) => (.list items, rest)
          else if c = '\x7b' then
            if (skipSpace rest).head? = some '\x7d' then
              (d.objectPairsHook []).map fun members => (.dict members, (skipSpace rest).tail)
            else
              (readMembers d fuel rest).bind fun (members, rest) =>
                (d.objectPairsHook members).map fun members => (.dict members, rest)
          else (d.readNumber (c :: rest)).or (readName (c :: rest))

/-- The items of a list that is not empty, with the closing bracket. -/
def readItems (d : Decoder) : ℕ → List Char → Option (List Value × List Char)
  | 0, _ => none
  | fuel + 1, text =>
      (readValue d fuel text).bind fun (item, rest) =>
        match skipSpace rest with
        | [] => none
        | c :: rest =>
            if c = ']' then some ([item], rest)
            else if c = ',' then
              (readItems d fuel rest).map fun (items, rest) => (item :: items, rest)
            else none

/-- The members of an object that is not empty, with the closing brace. -/
def readMembers (d : Decoder) : ℕ → List Char → Option (List (Str × Value) × List Char)
  | 0, _ => none
  | fuel + 1, text =>
      match skipSpace text with
      | [] => none
      | quote :: rest =>
          if quote = '"' then
            (readString rest).bind fun (name, rest) =>
              match skipSpace rest with
              | [] => none
              | colon :: rest =>
                  if colon = ':' then
                    (readValue d fuel rest).bind fun (value, rest) =>
                      match skipSpace rest with
                      | [] => none
                      | c :: rest =>
                          if c = '\x7d' then some ([(name, value)], rest)
                          else if c = ',' then
                            (readMembers d fuel rest).map fun (members, rest) =>
                              ((name, value) :: members, rest)
                          else none
                  else none
          else none

end

/-- `json.loads(text)`, none for a `ValueError`.  At most two calls are made at one place of the
text, so the fuel never runs out. -/
def loads (d : Decoder) (text : List Char) : Option Value :=
  (readValue d (2 * text.length + 2) text).bind fun (value, rest) =>
    if skipSpace rest = [] then some value else none

/-! ## Sound values -/

/-- A value that reading can give, and with `floats = false` one that is read back as it was
written: its strings are unpaired, its integers are not too long and the names of an object differ. -/
inductive Sound (floats : Bool) : Value → Prop where
  | null : Sound floats .null
  | bool (value : Bool) : Sound floats (.bool value)
  | int {value : ℤ} (hlength : (Nat.toDigits 10 value.natAbs).length ≤ intMaxStrDigits) :
      Sound floats (.int value)
  | float (hfloats : floats = true) (repr : List Char) : Sound floats (.float repr)
  | string {text : Str} (htext : Unpaired text) : Sound floats (.string text)
  | list {items : List Value} (hitems : ∀ item ∈ items, Sound floats item) :
      Sound floats (.list items)
  | dict {members : List (Str × Value)} (hnames : (members.map Prod.fst).Nodup)
      (htexts : ∀ m ∈ members, Unpaired m.1) (hvalues : ∀ m ∈ members, Sound floats m.2) :
      Sound floats (.dict members)

theorem byName_perm (members : List (Str × Value)) : (byName members).Perm members :=
  List.perm_insertionSort _ _

theorem byName_byName (members : List (Str × Value)) : byName (byName members) = byName members := by
  have htotal : Std.Total fun m n : Str × Value => m.1 ≤ n.1 := ⟨fun m n => le_total m.1 n.1⟩
  have htrans : IsTrans (Str × Value) fun m n => m.1 ≤ n.1 := ⟨fun _ _ _ h h' => h.trans h'⟩
  exact (List.pairwise_insertionSort _ members).insertionSort_eq

/-- Only the names decide the order. -/
theorem byName_map (f : Value → Value) (members : List (Str × Value)) :
    byName (members.map fun m => (m.1, f m.2)) = (byName members).map fun m => (m.1, f m.2) :=
  (List.map_insertionSort (fun m n : Str × Value => m.1 ≤ n.1)
    (fun m n : Str × Value => m.1 ≤ n.1) (fun m : Str × Value => (m.1, f m.2)) members
    fun _ _ _ _ => Iff.rfl).symm

section

variable {floats : Bool} {v w : Value}

theorem Sound.sortKeys (hv : Sound floats v) : Sound floats (sortKeys v) := by
  induction hv with
  | null => exact .null
  | bool value => exact .bool value
  | int hlength => exact .int hlength
  | float hfloats repr => exact .float hfloats repr
  | string htext => exact .string htext
  | list hitems ih =>
      rw [JsonCodec.sortKeys, sortItems_eq_map]
      refine .list fun item hitem => ?_
      obtain ⟨before, hbefore, rfl⟩ := List.mem_map.mp hitem
      exact ih before hbefore
  | @dict members hnames htexts hvalues ih =>
      rw [JsonCodec.sortKeys, sortMembers_eq_map]
      have hperm := byName_perm (members.map fun m => (m.1, JsonCodec.sortKeys m.2))
      have hmem : ∀ m ∈ byName (members.map fun m => (m.1, JsonCodec.sortKeys m.2)),
          ∃ before ∈ members, (before.1, JsonCodec.sortKeys before.2) = m :=
        fun m hm => List.mem_map.mp (hperm.mem_iff.mp hm)
      refine .dict ?_ (fun m hm => ?_) fun m hm => ?_
      · rw [(hperm.map Prod.fst).nodup_iff, List.map_map]
        exact hnames
      · obtain ⟨before, hbefore, rfl⟩ := hmem m hm
        exact htexts before hbefore
      · obtain ⟨before, hbefore, rfl⟩ := hmem m hm
        exact ih before hbefore

theorem Sound.sortKeys_sortKeys (hv : Sound floats v) :
    JsonCodec.sortKeys (JsonCodec.sortKeys v) = JsonCodec.sortKeys v := by
  induction hv with
  | null | bool _ | int _ | float _ _ | string _ => simp only [JsonCodec.sortKeys]
  | list hitems ih =>
      simp only [JsonCodec.sortKeys, sortItems_eq_map, List.map_map]
      exact congrArg Value.list (List.map_congr_left ih)
  | @dict members hnames htexts hvalues ih =>
      simp only [JsonCodec.sortKeys, sortMembers_eq_map]
      have hmembers : (members.map fun m => (m.1, JsonCodec.sortKeys m.2)).map
          (fun m => (m.1, JsonCodec.sortKeys m.2)) =
            members.map fun m => (m.1, JsonCodec.sortKeys m.2) := by
        rw [List.map_map]
        exact List.map_congr_left fun m hm => Prod.ext rfl (ih m hm)
      rw [← byName_map, hmembers, byName_byName]

theorem Sound.same_sortKeys (hv : Sound floats v) : Same (JsonCodec.sortKeys v) v :=
  hv.sortKeys_sortKeys

/-- Sorting the names first changes nothing that is written. -/
theorem Sound.dumps_sortKeys (hv : Sound floats v) : dumps (JsonCodec.sortKeys v) = dumps v := by
  rw [dumps, hv.sortKeys_sortKeys, dumps]

end

/-! ## Numbers -/

/-- No number goes on here. -/
def Stops (rest : List Char) : Prop :=
  ∀ c ∈ rest.head?, c.isDigit = false ∧ c ≠ '.' ∧ c ≠ 'e' ∧ c ≠ 'E'

theorem isDigit_of_mem_toDigits {n : ℕ} {c : Char} (hc : c ∈ Nat.toDigits 10 n) :
    c.isDigit = true :=
  Nat.isDigit_of_mem_toDigits (by decide) (by decide) hc

/-- A number does not begin with a zero, 0 apart. -/
theorem head_toDigits (n : ℕ) : (Nat.toDigits 10 n).head? = some '0' → n = 0 := by
  induction n using Nat.strongRecOn with
  | _ n ih =>
      intro hhead
      by_cases hsmall : n < 10
      · have hall : ∀ n : Fin 10, (Nat.toDigits 10 n.val).head? = some '0' → n.val = 0 := by decide
        exact hall ⟨n, hsmall⟩ hhead
      · rw [Nat.toDigits_of_base_le (by decide) (by omega),
          List.head?_append_of_ne_nil _ Nat.toDigits_ne_nil] at hhead
        have hzero := ih (n / 10) (by omega) hhead
        omega

theorem readUnsigned_toDigits (n : ℕ) {rest : List Char} (hrest : Stops rest) :
    readUnsigned (Nat.toDigits 10 n ++ rest) = some (Nat.toDigits 10 n, rest) := by
  have hwhole : (if (Nat.toDigits 10 n ++ rest).head? = some '0' then ['0']
      else (Nat.toDigits 10 n ++ rest).takeWhile Char.isDigit) = Nat.toDigits 10 n := by
    rw [List.head?_append_of_ne_nil _ Nat.toDigits_ne_nil]
    split
    next hhead => rw [head_toDigits n hhead]; rfl
    next =>
      rw [List.takeWhile_append_of_pos fun c hc => isDigit_of_mem_toDigits hc]
      cases rest with
      | nil => simp
      | cons c rest => simp [(hrest c rfl).1]
  unfold readUnsigned
  simp only [hwhole, List.drop_left, Nat.toDigits_ne_nil, if_false]
  split
  next => exact absurd rfl (hrest '.' rfl).2.1
  next =>
    simp only [List.length_nil, List.drop_zero, List.append_nil]
    split
    next e _ _ _ =>
      obtain ⟨-, -, hsmall, hcapital⟩ := hrest e rfl
      rw [if_neg (not_or.mpr ⟨hsmall, hcapital⟩)]
      simp
    next => simp

variable {d : Decoder}

theorem Decoder.number_toDigits (sign : List Char) {n : ℕ}
    (hlength : (Nat.toDigits 10 n).length ≤ intMaxStrDigits) :
    d.number sign (Nat.toDigits 10 n) = some (.int (if sign = [] then n else -n)) := by
  have hdigits : (Nat.toDigits 10 n).all Char.isDigit = true :=
    List.all_eq_true.mpr fun c hc => isDigit_of_mem_toDigits hc
  rw [Decoder.number, if_pos hdigits, if_pos hlength, Nat.ofDigitChars_ten_toDigits]

theorem Decoder.readNumber_decimal {n : ℤ}
    (hlength : (Nat.toDigits 10 n.natAbs).length ≤ intMaxStrDigits) {rest : List Char}
    (hrest : Stops rest) : d.readNumber (decimal n ++ rest) = some (.int n, rest) := by
  unfold decimal
  split
  next hneg =>
    have hvalue : -(n.natAbs : ℤ) = n := by omega
    generalize n.natAbs = m at hlength hvalue
    rw [List.cons_append, Decoder.readNumber, readUnsigned_toDigits _ hrest]
    simp [Decoder.number_toDigits _ hlength, hvalue]
  next hpos =>
    have hvalue : (n.natAbs : ℤ) = n := by omega
    generalize n.natAbs = m at hlength hvalue
    rw [Decoder.readNumber.eq_def]
    split
    next text tail htext =>
      have hminus : '-' ∈ Nat.toDigits 10 m := by
        cases hdigits : Nat.toDigits 10 m with
        | nil => exact absurd hdigits Nat.toDigits_ne_nil
        | cons c digits =>
            rw [hdigits] at htext
            exact (List.cons.inj htext).1 ▸ List.mem_cons_self
      exact absurd (isDigit_of_mem_toDigits hminus) (by decide)
    next =>
      rw [readUnsigned_toDigits _ hrest]
      simp [Decoder.number_toDigits _ hlength, hvalue]

/-! ## What is written is read back -/

theorem readString_writeString {s : Str} (hs : Unpaired s) (rest : List Char) :
    readString ((writeString s ++ rest).tail) = some (s, rest) := by
  have htail : (writeString s ++ rest).tail = s.flatMap escape ++ '"' :: rest := by
    simp [writeString]
  rw [htail, readString_write hs]

/-- A value is written with a first character that says what follows is a value. -/
def Opens (text : List Char) : Prop := ∃ c rest, text = c :: rest ∧ isSpace c = false ∧ c ≠ ']'

theorem opens_decimal (n : ℤ) : Opens (decimal n) := by
  unfold decimal
  split
  · exact ⟨'-', _, rfl, by decide, by decide⟩
  · obtain ⟨c, rest, hcons⟩ := List.exists_cons_of_ne_nil (Nat.toDigits_ne_nil (b := 10)
      (n := n.natAbs))
    have hdigit : c.isDigit = true := isDigit_of_mem_toDigits (hcons ▸ List.mem_cons_self)
    refine ⟨c, rest, hcons, ?_, ?_⟩
    · rw [isSpace]
      simp only [Bool.or_eq_false_iff, beq_eq_false_iff_ne]
      refine ⟨⟨⟨?_, ?_⟩, ?_⟩, ?_⟩ <;> rintro rfl <;> revert hdigit <;> decide
    · rintro rfl
      revert hdigit
      decide

theorem Sound.opens {v : Value} (hv : Sound false v) : Opens (write v) := by
  cases hv with
  | null => exact ⟨'n', _, rfl, by decide, by decide⟩
  | bool value => cases value <;> exact ⟨_, _, rfl, by decide, by decide⟩
  | int _ => exact opens_decimal _
  | float hfloats _ => cases hfloats
  | string _ => exact ⟨'"', _, rfl, by decide, by decide⟩
  | list _ => exact ⟨'[', _, rfl, by decide, by decide⟩
  | dict _ _ _ => exact ⟨'\x7b', _, rfl, by decide, by decide⟩

theorem skipSpace_cons {c : Char} (hc : isSpace c = false) (rest : List Char) :
    skipSpace (c :: rest) = c :: rest := by
  rw [skipSpace, List.dropWhile_cons_of_neg (by simp [hc])]

theorem stops_cons {c : Char} (hc : c = ',' ∨ c = ']' ∨ c = '\x7d') (rest : List Char) :
    Stops (c :: rest) := by
  rintro d hd
  obtain rfl : c = d := by simpa using hd
  rcases hc with rfl | rfl | rfl <;> decide

/-- The value is read back, whatever follows, if the depth suffices. -/
def ReadBack (d : Decoder) (v : Value) : Prop :=
  ∀ rest fuel, Stops rest → 2 * (write v).length ≤ fuel →
    readValue d fuel (write v ++ rest) = some (v, rest)

theorem readItems_write {items : List Value} (hne : items ≠ [])
    (hitems : ∀ item ∈ items, ReadBack d item) (rest : List Char) (fuel : ℕ)
    (hfuel : 2 * (([','].intercalate (items.map write)).length + 1) ≤ fuel) :
    readItems d fuel ([','].intercalate (items.map write) ++ ']' :: rest) = some (items, rest) := by
  induction items generalizing fuel with
  | nil => exact absurd rfl hne
  | cons item items ih =>
      obtain ⟨fuel, rfl⟩ : ∃ n, fuel = n + 1 := ⟨fuel - 1, by omega⟩
      cases items with
      | nil =>
          simp only [List.map_cons, List.map_nil, List.intercalate_singleton] at hfuel ⊢
          rw [readItems, hitems item List.mem_cons_self _ _ (stops_cons (.inr (.inl rfl)) rest)
            (by omega), Option.bind_some]
          simp [skipSpace_cons (show isSpace ']' = false by decide)]
      | cons second items =>
          rw [List.map_cons, List.map_cons, List.intercalate_cons_cons, ← List.map_cons] at hfuel ⊢
          simp only [List.length_append, List.length_cons, List.length_nil] at hfuel
          have hrest := ih (by simp)
            (fun other hother => hitems other (List.mem_cons_of_mem _ hother)) fuel (by omega)
          rw [List.append_assoc, List.append_assoc, readItems, List.singleton_append,
            hitems item List.mem_cons_self _ _ (stops_cons (.inl rfl) _) (by omega),
            Option.bind_some]
          simpa [skipSpace_cons (show isSpace ',' = false by decide)] using hrest

theorem readMembers_write {members : List (Str × Value)} (hne : members ≠ [])
    (htexts : ∀ m ∈ members, Unpaired m.1) (hvalues : ∀ m ∈ members, ReadBack d m.2)
    (rest : List Char) (fuel : ℕ)
    (hfuel : 2 * (([','].intercalate (members.map writeMember)).length + 1) ≤ fuel) :
    readMembers d fuel ([','].intercalate (members.map writeMember) ++ '\x7d' :: rest) =
      some (members, rest) := by
  induction members generalizing fuel with
  | nil => exact absurd rfl hne
  | cons m members ih =>
      obtain ⟨fuel, rfl⟩ : ∃ n, fuel = n + 1 := ⟨fuel - 1, by omega⟩
      obtain ⟨name, value⟩ := m
      have hname : Unpaired name := htexts _ List.mem_cons_self
      have hvalue : ReadBack d value := hvalues _ List.mem_cons_self
      have hopen : ∀ tail, skipSpace (writeString name ++ tail) =
          '"' :: (name.flatMap escape ++ '"' :: tail) := by
        intro tail
        rw [writeString, List.cons_append, List.append_assoc, List.singleton_append,
          skipSpace_cons (by decide)]
      cases members with
      | nil =>
          simp only [List.map_cons, List.map_nil, List.intercalate_singleton, writeMember,
            List.length_append, List.length_cons] at hfuel ⊢
          rw [List.append_assoc, List.cons_append, readMembers, hopen]
          simp only [if_true, readString_write hname, Option.bind_some,
            skipSpace_cons (show isSpace ':' = false by decide)]
          rw [hvalue _ _ (stops_cons (.inr (.inr rfl)) rest) (by omega)]
          simp [skipSpace_cons (show isSpace '\x7d' = false by decide)]
      | cons second members =>
          rw [List.map_cons, List.map_cons, List.intercalate_cons_cons, ← List.map_cons] at hfuel ⊢
          simp only [List.length_append, List.length_cons, List.length_nil, writeMember] at hfuel
          have hrest := ih (by simp)
            (fun other hother => htexts other (List.mem_cons_of_mem _ hother))
            (fun other hother => hvalues other (List.mem_cons_of_mem _ hother)) fuel (by omega)
          rw [writeMember, List.append_assoc, List.append_assoc, List.append_assoc,
            List.cons_append, readMembers, hopen]
          simp only [if_true, readString_write hname, Option.bind_some,
            skipSpace_cons (show isSpace ':' = false by decide)]
          rw [List.singleton_append, hvalue _ _ (stops_cons (.inl rfl) _) (by omega)]
          simpa [skipSpace_cons (show isSpace ',' = false by decide)] using hrest

/-- The hook lets every object pass as it is unless two of its names are equal. -/
def Decoder.RejectsDuplicates (d : Decoder) : Prop :=
  ∀ members kept, d.objectPairsHook members = some kept ↔
    kept = members ∧ (members.map Prod.fst).Nodup

theorem length_pos_of_opens {text : List Char} (h : Opens text) : 0 < text.length := by
  obtain ⟨c, rest, rfl, -⟩ := h
  exact Nat.succ_pos _

/-- The first item of a list that is not empty is not its end. -/
theorem head_intercalate {text : List Char} (h : Opens text) (texts : List (List Char))
    (rest : List Char) : ∃ c tail, isSpace c = false ∧ c ≠ ']' ∧ c ∈ text.head? ∧
      [','].intercalate (text :: texts) ++ rest = c :: tail := by
  obtain ⟨c, tail, rfl, hspace, hclose⟩ := h
  cases texts with
  | nil => exact ⟨c, _, hspace, hclose, rfl, by rw [List.intercalate_singleton, List.cons_append]⟩
  | cons second texts =>
      refine ⟨c, tail ++ ([','] ++ ([','].intercalate (second :: texts) ++ rest)), hspace, hclose,
        rfl, ?_⟩
      rw [List.intercalate_cons_cons, List.append_assoc, List.append_assoc, List.cons_append]

theorem Sound.readBack (hd : d.RejectsDuplicates) {v : Value} (hv : Sound false v) :
    ReadBack d v := by
  induction hv with
  | null =>
      intro rest fuel _ hfuel
      obtain ⟨fuel, rfl⟩ : ∃ n, fuel = n + 1 := ⟨fuel - 1, by simp [write] at hfuel; omega⟩
      rfl
  | bool value =>
      intro rest fuel _ hfuel
      obtain ⟨fuel, rfl⟩ : ∃ n, fuel = n + 1 :=
        ⟨fuel - 1, by cases value <;> simp [write] at hfuel <;> omega⟩
      cases value <;> rfl
  | @int n hlength =>
      intro rest fuel hrest hfuel
      rw [write] at hfuel ⊢
      have hpos := length_pos_of_opens (opens_decimal n)
      obtain ⟨fuel, rfl⟩ : ∃ n, fuel = n + 1 := ⟨fuel - 1, by omega⟩
      obtain ⟨c, tail, htext, hspace, -⟩ := opens_decimal n
      have hnumber := Decoder.readNumber_decimal (d := d) hlength hrest
      rw [htext, List.cons_append] at hnumber ⊢
      have hother : c ≠ '"' ∧ c ≠ '[' ∧ c ≠ '\x7b' := by
        refine ⟨?_, ?_, ?_⟩ <;> rintro rfl <;>
          simp [Decoder.readNumber, readUnsigned] at hnumber
      rw [readValue, skipSpace_cons hspace]
      simp only [hother.1, hother.2.1, hother.2.2, if_false, hnumber, Option.some_or]
  | float hfloats _ => cases hfloats
  | @string text htext =>
      intro rest fuel _ hfuel
      rw [write] at hfuel ⊢
      obtain ⟨fuel, rfl⟩ : ∃ n, fuel = n + 1 := ⟨fuel - 1, by simp [writeString] at hfuel; omega⟩
      rw [writeString, List.cons_append, readValue, skipSpace_cons (by decide)]
      simp only [if_true, List.append_assoc, List.singleton_append, readString_write htext,
        Option.map_some]
  | @list items hitems ih =>
      intro rest fuel _ hfuel
      rw [write, writeItems_eq_map] at hfuel ⊢
      simp only [List.length_cons, List.length_append, List.length_nil] at hfuel
      obtain ⟨fuel, rfl⟩ : ∃ n, fuel = n + 1 := ⟨fuel - 1, by omega⟩
      rw [List.cons_append, List.append_assoc, List.singleton_append, readValue,
        skipSpace_cons (by decide)]
      cases items with
      | nil => rfl
      | cons item items =>
          obtain ⟨c, tail, hspace, hclose, -, htext⟩ := head_intercalate
            (hitems item List.mem_cons_self).opens (items.map write) (']' :: rest)
          have hread := readItems_write (by simp) ih rest fuel (by omega)
          have hfirst : (skipSpace ([','].intercalate ((item :: items).map write) ++
              ']' :: rest)).head? ≠ some ']' := by
            rw [List.map_cons, htext, skipSpace_cons hspace]
            simpa using hclose
          simp only [show ('[' = '"') = False by decide, if_false, if_true, if_neg hfirst, hread,
            Option.map_some]
  | @dict members hnames htexts hvalues ih =>
      intro rest fuel _ hfuel
      rw [write, writeMembers_eq_map] at hfuel ⊢
      simp only [List.length_cons, List.length_append, List.length_nil] at hfuel
      obtain ⟨fuel, rfl⟩ : ∃ n, fuel = n + 1 := ⟨fuel - 1, by omega⟩
      rw [List.cons_append, List.append_assoc, List.singleton_append, readValue,
        skipSpace_cons (by decide)]
      have hhook : d.objectPairsHook members = some members :=
        (hd members members).mpr ⟨rfl, hnames⟩
      cases members with
      | nil =>
          simp only [show ('\x7b' = '"') = False by decide, show ('\x7b' = '[') = False by decide,
            if_false, if_true]
          simp [skipSpace_cons (show isSpace '\x7d' = false by decide), hhook]
      | cons m members =>
          have hopens : Opens (writeMember m) := ⟨'"', _, rfl, by decide, by decide⟩
          obtain ⟨c, tail, hspace, -, hhead, htext⟩ := head_intercalate hopens
            (members.map writeMember) ('\x7d' :: rest)
          have hread := readMembers_write (by simp) htexts ih rest fuel (by omega)
          have hquote : '"' = c := by simpa [writeMember, writeString] using hhead
          have hfirst : (skipSpace ([','].intercalate ((m :: members).map writeMember) ++
              '\x7d' :: rest)).head? ≠ some '\x7d' := by
            rw [List.map_cons, htext, skipSpace_cons hspace, ← hquote]
            simp
          simp only [show ('\x7b' = '"') = False by decide, show ('\x7b' = '[') = False by decide,
            if_false, if_true, if_neg hfirst, hread, Option.bind_some, hhook, Option.map_some]

/-- What is written of a sound value is read as that value with its names in order. -/
theorem loads_dumps (hd : d.RejectsDuplicates) {v : Value} (hv : Sound false v) {tail : List Char}
    (htail : skipSpace tail = []) : loads d (dumps v ++ tail) = some (sortKeys v) := by
  have hstops : Stops tail := by
    intro c hc
    obtain ⟨rest, rfl⟩ := List.head?_eq_some_iff.mp hc
    have hspace : isSpace c = true := by
      by_contra hspace
      rw [skipSpace_cons (by simpa using hspace)] at htail
      cases htail
    rw [isSpace] at hspace
    simp only [Bool.or_eq_true, beq_iff_eq] at hspace
    rcases hspace with ((rfl | rfl) | rfl) | rfl <;> decide
  have hfuel : 2 * (dumps v).length ≤ 2 * (dumps v ++ tail).length + 2 := by
    rw [List.length_append]
    omega
  have hread : readValue d (2 * (dumps v ++ tail).length + 2) (dumps v ++ tail) =
      some (sortKeys v, tail) := Sound.readBack hd hv.sortKeys tail _ hstops hfuel
  rw [loads, hread, Option.bind_some]
  exact if_pos htail

/-- Sound values that are written alike are equal. -/
theorem same_of_dumps_eq {v w : Value} (hv : Sound false v) (hw : Sound false w)
    (heq : dumps v = dumps w) : Same v w := by
  -- any decoder reads both back
  let d : Decoder := ⟨id, fun members => if (members.map Prod.fst).Nodup then some members else none⟩
  have hd : d.RejectsDuplicates := by
    intro members kept
    show (if (members.map Prod.fst).Nodup then some members else none) = some kept ↔ _
    split_ifs with hnames
    · rw [Option.some_inj]
      exact ⟨fun h => ⟨h.symm, hnames⟩, fun h => h.1.symm⟩
    · exact iff_of_false (fun h => nomatch h) fun h => hnames h.2
  have hreadv : loads d (dumps v ++ []) = some (sortKeys v) := loads_dumps hd hv rfl
  have hreadw : loads d (dumps w ++ []) = some (sortKeys w) := loads_dumps hd hw rfl
  rw [heq, hreadw] at hreadv
  exact (Option.some.inj hreadv).symm

/-! ## What is read is sound -/

theorem length_toDigits_le {digits : List Char} (hdigits : digits.all Char.isDigit = true)
    (hne : digits ≠ []) : (Nat.toDigits 10 (Nat.ofDigitChars 10 digits 0)).length ≤ digits.length := by
  refine (Nat.length_toDigits_le_iff (by decide) (List.length_pos_iff.mpr hne)).mpr ?_
  clear hne
  induction digits using List.reverseRecOn with
  | nil => decide
  | append_singleton digits c ih =>
      rw [List.all_append, Bool.and_eq_true] at hdigits
      have hc : c.isDigit = true := by simpa using hdigits.2
      have hval : c.toNat - '0'.toNat < 10 := by
        rw [Char.isDigit, Bool.and_eq_true, decide_eq_true_eq, decide_eq_true_eq] at hc
        have hhigh : c.toNat ≤ 57 := hc.2
        have hzero : '0'.toNat = 48 := rfl
        omega
      have hbefore := ih hdigits.1
      rw [Nat.ofDigitChars_append, Nat.ofDigitChars_cons, Nat.ofDigitChars_nil,
        List.length_append, List.length_singleton, Nat.pow_succ]
      omega

theorem readUnsigned_ne_nil {text digits rest : List Char}
    (hread : readUnsigned text = some (digits, rest)) : digits ≠ [] := by
  unfold readUnsigned at hread
  extract_lets whole after fraction at hread
  split at hread
  · cases hread
  next hwhole =>
    obtain ⟨rfl, -⟩ := Prod.mk.inj (Option.some.inj hread)
    rw [List.append_assoc]
    exact List.append_ne_nil_of_left_ne_nil hwhole _

theorem Decoder.sound_number {sign digits : List Char} {v : Value} (hne : digits ≠ [])
    (hread : d.number sign digits = some v) : Sound true v := by
  unfold Decoder.number at hread
  split at hread
  next hdigits =>
    split at hread
    next hlength =>
      obtain rfl := Option.some.inj hread
      have hshort := (length_toDigits_le hdigits hne).trans hlength
      refine .int ?_
      split <;> simpa using hshort
    next => cases hread
  next =>
    obtain rfl := Option.some.inj hread
    exact .float rfl _

theorem Decoder.sound_readNumber {text rest : List Char} {v : Value}
    (hread : d.readNumber text = some (v, rest)) : Sound true v := by
  unfold Decoder.readNumber at hread
  split at hread <;>
  · obtain ⟨⟨digits, after⟩, hdigits, hread⟩ := Option.bind_eq_some_iff.mp hread
    obtain ⟨number, hnumber, heq⟩ := Option.map_eq_some_iff.mp hread
    obtain ⟨rfl, -⟩ := Prod.mk.inj heq
    exact Decoder.sound_number (readUnsigned_ne_nil hdigits) hnumber

theorem sound_readName {text rest : List Char} {v : Value}
    (hread : readName text = some (v, rest)) : Sound true v := by
  obtain ⟨⟨name, value⟩, hmem, hvalue⟩ := List.exists_of_findSome?_eq_some hread
  dsimp only at hvalue
  split at hvalue
  · obtain ⟨rfl, -⟩ := Prod.mk.inj (Option.some.inj hvalue)
    simp only [constants, List.mem_cons, Prod.mk.injEq, List.not_mem_nil, or_false] at hmem
    rcases hmem with ⟨-, rfl⟩ | ⟨-, rfl⟩ | ⟨-, rfl⟩ | ⟨-, rfl⟩ | ⟨-, rfl⟩ | ⟨-, rfl⟩
    · exact .null
    · exact .bool true
    · exact .bool false
    · exact .float rfl _
    · exact .float rfl _
    · exact .float rfl _
  · cases hvalue

/-- What the readers of one depth give is sound. -/
structure SoundReaders (d : Decoder) (fuel : ℕ) : Prop where
  value : ∀ text v rest, readValue d fuel text = some (v, rest) → Sound true v
  items : ∀ text items rest, readItems d fuel text = some (items, rest) →
    ∀ item ∈ items, Sound true item
  members : ∀ text members rest, readMembers d fuel text = some (members, rest) →
    ∀ m ∈ members, Unpaired m.1 ∧ Sound true m.2

theorem sound_dict (hd : d.RejectsDuplicates) {members kept : List (Str × Value)}
    (hmembers : ∀ m ∈ members, Unpaired m.1 ∧ Sound true m.2)
    (hhook : d.objectPairsHook members = some kept) : Sound true (.dict kept) := by
  obtain ⟨rfl, hnames⟩ := (hd members kept).mp hhook
  exact .dict hnames (fun m hm => (hmembers m hm).1) fun m hm => (hmembers m hm).2

theorem soundReaders (hd : d.RejectsDuplicates) (fuel : ℕ) : SoundReaders d fuel := by
  induction fuel with
  | zero =>
      refine ⟨?_, ?_, ?_⟩ <;> intro text result rest hread <;>
        simp [readValue, readItems, readMembers] at hread
  | succ fuel ih =>
      refine ⟨fun text v rest hread => ?_, fun text items rest hread => ?_,
        fun text members rest hread => ?_⟩
      · rw [readValue] at hread
        split at hread
        · cases hread
        next c after _ =>
          split_ifs at hread
          · obtain ⟨⟨s, after⟩, hs, heq⟩ := Option.map_eq_some_iff.mp hread
            obtain ⟨rfl, -⟩ := Prod.mk.inj heq
            exact .string (unpaired_readString hs)
          · obtain ⟨rfl, -⟩ := Prod.mk.inj (Option.some.inj hread)
            exact .list fun item hitem => nomatch hitem
          · obtain ⟨⟨items, after⟩, hitems, heq⟩ := Option.map_eq_some_iff.mp hread
            obtain ⟨rfl, -⟩ := Prod.mk.inj heq
            exact .list (ih.items _ _ _ hitems)
          · obtain ⟨kept, hhook, heq⟩ := Option.map_eq_some_iff.mp hread
            obtain ⟨rfl, -⟩ := Prod.mk.inj heq
            exact sound_dict hd (fun m hm => absurd hm List.not_mem_nil) hhook
          · obtain ⟨⟨members, after⟩, hmembers, hread⟩ := Option.bind_eq_some_iff.mp hread
            obtain ⟨kept, hhook, heq⟩ := Option.map_eq_some_iff.mp hread
            obtain ⟨rfl, -⟩ := Prod.mk.inj heq
            exact sound_dict hd (ih.members _ _ _ hmembers) hhook
          · rcases Option.or_eq_some_iff.mp hread with hnumber | ⟨-, hname⟩
            · exact Decoder.sound_readNumber hnumber
            · exact sound_readName hname
      · rw [readItems] at hread
        obtain ⟨⟨item, after⟩, hitem, hread⟩ := Option.bind_eq_some_iff.mp hread
        have hsound := ih.value _ _ _ hitem
        dsimp only at hread
        split at hread
        · cases hread
        · split_ifs at hread
          · obtain ⟨rfl, -⟩ := Prod.mk.inj (Option.some.inj hread)
            simpa using hsound
          · obtain ⟨⟨others, after⟩, hothers, heq⟩ := Option.map_eq_some_iff.mp hread
            obtain ⟨rfl, -⟩ := Prod.mk.inj heq
            exact List.forall_mem_cons.mpr ⟨hsound, ih.items _ _ _ hothers⟩
      · rw [readMembers] at hread
        split at hread
        · cases hread
        · split_ifs at hread
          obtain ⟨⟨name, after⟩, hname, hread⟩ := Option.bind_eq_some_iff.mp hread
          dsimp only at hread
          split at hread
          · cases hread
          · split_ifs at hread
            obtain ⟨⟨value, after⟩, hvalue, hread⟩ := Option.bind_eq_some_iff.mp hread
            have hsound := And.intro (unpaired_readString hname) (ih.value _ _ _ hvalue)
            dsimp only at hread
            split at hread
            · cases hread
            · split_ifs at hread
              · obtain ⟨rfl, -⟩ := Prod.mk.inj (Option.some.inj hread)
                simpa using hsound
              · obtain ⟨⟨others, after⟩, hothers, heq⟩ := Option.map_eq_some_iff.mp hread
                obtain ⟨rfl, -⟩ := Prod.mk.inj heq
                exact List.forall_mem_cons.mpr ⟨hsound, ih.members _ _ _ hothers⟩

theorem sound_of_loads (hd : d.RejectsDuplicates) {text : List Char} {v : Value}
    (hread : loads d text = some v) : Sound true v := by
  obtain ⟨⟨value, rest⟩, hvalue, hread⟩ := Option.bind_eq_some_iff.mp hread
  dsimp only at hread
  split_ifs at hread
  obtain rfl := Option.some.inj hread
  exact (soundReaders hd _).value _ _ _ hvalue

end JsonCodec

end Justup.Lib
