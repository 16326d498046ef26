import Justup.Net.ClientIp

/-!
# What the trusted proxies append

A proxy adds one element to the header: behind a comma on the last line, or as a
line of its own.  An element of `X-Forwarded-For` is an address; an element of
`Forwarded` is one of RFC 7239, and names the address in its `for` pair.
-/

namespace Justup.Net

open Lib Store

/-! ## White space -/

section

variable {p : Char → Bool} {core : Text} {c : Char}

theorem trim_of_forall (hcore : ∀ c ∈ core, p c = false) :
    (core.dropWhile p).rdropWhile p = core := by
  have hhead : core.dropWhile p = core := by
    cases core with
    | nil => rfl
    | cons c rest => exact List.dropWhile_cons_of_neg (by simp [hcore c])
  rw [hhead, List.rdropWhile_eq_self_iff]
  intro hne
  simp [hcore _ (List.getLast_mem hne)]

/-- The padding is taken off. -/
theorem trim_append {leading trailing : Text} (hleading : ∀ c ∈ leading, p c = true)
    (htrailing : ∀ c ∈ trailing, p c = true) (hhead : ∀ c ∈ core.head?, p c = false)
    (hlast : ∀ c ∈ core.getLast?, p c = false) (hne : core ≠ []) :
    ((leading ++ core ++ trailing).dropWhile p).rdropWhile p = core := by
  obtain ⟨c, rest, rfl⟩ := List.exists_cons_of_ne_nil hne
  have hfirst : p c = false := hhead c rfl
  rw [List.append_assoc, List.dropWhile_append_of_pos hleading, List.cons_append,
    List.dropWhile_cons_of_neg (by simp [hfirst]), ← List.cons_append, List.rdropWhile,
    List.reverse_append, List.dropWhile_append_of_pos fun c hc => htrailing c (by simpa using hc)]
  change (c :: rest).rdropWhile p = c :: rest
  rw [List.rdropWhile_eq_self_iff]
  intro hne
  rw [hlast _ (List.getLast_mem_getLast? hne)]
  decide

theorem mem_dropWhile (hc : c ∈ core) (hp : p c = false) : c ∈ core.dropWhile p := by
  rw [← @List.takeWhile_append_dropWhile _ p core] at hc
  obtain hc | hc := List.mem_append.mp hc
  · have htrue := List.mem_takeWhile_imp hc
    simp [hp] at htrue
  · exact hc

theorem mem_trim (hc : c ∈ core) (hp : p c = false) :
    c ∈ (core.dropWhile p).rdropWhile p := by
  have hrest := mem_dropWhile hc hp
  rw [List.rdropWhile]
  exact List.mem_reverse.mpr (mem_dropWhile (List.mem_reverse.mpr hrest) hp)

end

/-! ## The quote-aware splitter as an automaton -/

/-- Where the splitter is. -/
structure Quotes where
  inQuotes : Bool := false
  escaped : Bool := false
deriving DecidableEq

def Quotes.next (quotes : Quotes) (ch : Char) : Quotes :=
  if quotes.escaped then { quotes with escaped := false }
  else if quotes.inQuotes && ch == '\\' then { quotes with escaped := true }
  else if ch == '"' then { quotes with inQuotes := !quotes.inQuotes }
  else quotes

def quoted (sep : Char) : Scanner Quotes Char where
  next := Quotes.next
  cuts quotes ch := !quotes.escaped && !quotes.inQuotes && ch != '"' && ch == sep

/-- The state behind a text; it does not depend on the separator. -/
def quotesAfter (text : Text) : Quotes := text.foldl Quotes.next {}

/-- Every quoted string that the text opens is closed in it. -/
def Balanced (text : Text) : Prop := (quotesAfter text).inQuotes = false

instance (text : Text) : Decidable (Balanced text) := inferInstanceAs (Decidable (_ = false))

theorem after_quoted (sep : Char) (text : Text) : (quoted sep).after {} text = quotesAfter text :=
  rfl

/-- A character is escaped only inside a quoted string. -/
theorem inQuotes_of_escaped (text : Text) :
    (quotesAfter text).escaped = true → (quotesAfter text).inQuotes = true := by
  induction text using List.reverseRecOn with
  | nil => simp [quotesAfter]
  | append_singleton text ch ih =>
      have hsnoc : quotesAfter (text ++ [ch]) = (quotesAfter text).next ch := by
        simp [quotesAfter]
      rw [hsnoc]
      unfold Quotes.next
      split
      · simp
      · split
        next hescape =>
          simp only [Bool.and_eq_true] at hescape
          exact fun _ => hescape.1
        next =>
          split
          · simp_all
          · exact ih

theorem balanced_iff (text : Text) : Balanced text ↔ quotesAfter text = {} := by
  refine ⟨fun hbalanced => ?_, fun h => by rw [Balanced, h]⟩
  have hescaped : (quotesAfter text).escaped = false := by
    by_contra h
    have hin := inQuotes_of_escaped text (by simpa using h)
    rw [Balanced] at hbalanced
    simp [hbalanced] at hin
  cases hstate : quotesAfter text with
  | mk inQuotes escaped =>
      rw [Balanced, hstate] at hbalanced
      rw [hstate] at hescaped
      simp only at hbalanced hescaped
      rw [hbalanced, hescaped]

theorem cuts_quoted {sep ch : Char} {quotes : Quotes} : (quoted sep).cuts quotes ch = true ↔
    quotes = {} ∧ ch ≠ '"' ∧ ch = sep := by
  obtain ⟨inQuotes, escaped⟩ := quotes
  simp only [quoted, Bool.and_eq_true, Bool.not_eq_true', bne_iff_ne, ne_eq, beq_iff_eq,
    Quotes.mk.injEq]
  tauto

theorem next_of_cuts {sep ch : Char} {quotes : Quotes}
    (hcut : (quoted sep).cuts quotes ch = true) : (quoted sep).next quotes ch = {} := by
  obtain ⟨rfl, hquote, -⟩ := cuts_quoted.mp hcut
  simp [quoted, Quotes.next, hquote]

def SplitState.quotes (state : SplitState) : Quotes := ⟨state.inQuotes, state.escaped⟩

theorem read_of_cuts {sep ch : Char} {state : SplitState}
    (hcut : (quoted sep).cuts state.quotes ch = true) :
    state.read sep ch = ⟨state.parts ++ [state.buf], [], false, false⟩ := by
  obtain ⟨parts, buf, inQuotes, escaped⟩ := state
  obtain ⟨hquotes, hquote, rfl⟩ := cuts_quoted.mp hcut
  simp only [SplitState.quotes, Quotes.mk.injEq] at hquotes
  obtain ⟨rfl, rfl⟩ := hquotes
  simp [SplitState.read, hquote]

theorem read_of_not_cuts {sep ch : Char} {state : SplitState}
    (hcut : ¬ (quoted sep).cuts state.quotes ch = true) :
    state.read sep ch = ⟨state.parts, state.buf ++ [ch], (state.quotes.next ch).inQuotes,
      (state.quotes.next ch).escaped⟩ := by
  obtain ⟨parts, buf, inQuotes, escaped⟩ := state
  rw [cuts_quoted] at hcut
  unfold SplitState.read Quotes.next SplitState.quotes
  cases escaped <;> cases inQuotes <;> grind [SplitState.quotes]

theorem modifyHead_nil_append (pieces : List Text) :
    pieces.modifyHead (([] : Text) ++ ·) = pieces := by
  cases pieces <;> rfl

/-- The loop of `_split_quoted` runs the automaton. -/
theorem foldl_read (sep : Char) (text : Text) (state : SplitState) :
    (text.foldl (SplitState.read sep) state).parts ++
        [(text.foldl (SplitState.read sep) state).buf] =
      state.parts ++ ((quoted sep).split state.quotes text).modifyHead (state.buf ++ ·) := by
  induction text generalizing state with
  | nil => simp
  | cons ch rest ih =>
      rw [List.foldl_cons, ih]
      by_cases hcut : (quoted sep).cuts state.quotes ch = true
      · rw [read_of_cuts hcut, Scanner.split_cons, if_pos hcut, next_of_cuts hcut,
          modifyHead_nil_append]
        simp [SplitState.quotes]
      · obtain ⟨piece, pieces, hpieces, hcons⟩ := @Scanner.exists_split_cons _ _ _ _ rest ch hcut
        rw [read_of_not_cuts hcut, hcons]
        change state.parts ++
          ((quoted sep).split ((quoted sep).next state.quotes ch) rest).modifyHead
            ((state.buf ++ [ch]) ++ ·) = _
        rw [hpieces]
        simp

theorem splitQuoted_eq (text : Text) (sep : Char) :
    splitQuoted text sep = (quoted sep).split {} text := by
  have hfold := foldl_read sep text {}
  rw [List.nil_append, modifyHead_nil_append] at hfold
  exact hfold

/-! ## The elements -/

/-- A text that a proxy appends, and the address that it names. -/
structure ProxyElement where
  text : Text
  address : Address

/-- An element of `X-Forwarded-For`: an address, perhaps in brackets and with white space around
it. -/
def XffElement (element : ProxyElement) : Prop :=
  ',' ∉ element.text ∧ ipAddress (stripChars ['[', ']'] (strip element.text)) = some element.address

/-- `tchar` -/
def isTchar (c : Char) : Bool := c.isAlphanum || "!#$%&'*+-.^_`|~".toList.contains c

/-- `OWS` -/
def isOws (c : Char) : Bool := c == ' ' || c == '\t'

/-- `qdtext`: everything but the quote, the backslash and the control characters. -/
def isQdtext (c : Char) : Bool :=
  c == '\t' || decide (32 ≤ c.toNat) && c != '"' && c != '\\' && decide (c.toNat ≠ 127)

/-- The second character of a `quoted-pair`. -/
def isQuotable (c : Char) : Bool :=
  c == '\t' || decide (32 ≤ c.toNat) && decide (c.toNat ≠ 127)

structure Token where
  text : Text
  nonempty : text ≠ []
  tchars : ∀ c ∈ text, isTchar c = true

inductive QuotedItem
  | qdtext (c : Char) (hc : isQdtext c = true)
  | quotedPair (c : Char) (hc : isQuotable c = true)

def QuotedItem.text : QuotedItem → Text
  | .qdtext c _ => [c]
  | .quotedPair c _ => ['\\', c]

/-- The character that the item stands for. -/
def QuotedItem.char : QuotedItem → Char
  | .qdtext c _ => c
  | .quotedPair c _ => c

/-- `value = token / quoted-string` -/
inductive PairValue
  | token (value : Token)
  | quotedString (items : List QuotedItem)

def PairValue.text : PairValue → Text
  | .token value => value.text
  | .quotedString items => '"' :: (items.flatMap QuotedItem.text ++ ['"'])

/-- The text that the value stands for. -/
def PairValue.content : PairValue → Text
  | .token value => value.text
  | .quotedString items => items.map QuotedItem.char

/-- `forwarded-pair = token "=" value` -/
structure ForwardedPair where
  name : Token
  value : PairValue

def ForwardedPair.text (pair : ForwardedPair) : Text := pair.name.text ++ '=' :: pair.value.text

/-- Parameter names are case-insensitive. -/
def ForwardedPair.isFor (pair : ForwardedPair) : Prop :=
  pair.name.text.map Char.toLower = ['f', 'o', 'r']

/-- What stands between two semicolons.  It may be empty, and there may be white space around
it. -/
structure ForwardedPart where
  leading : Text
  pair : Option ForwardedPair
  trailing : Text
  leading_ows : ∀ c ∈ leading, isOws c = true
  trailing_ows : ∀ c ∈ trailing, isOws c = true

def ForwardedPart.text (part : ForwardedPart) : Text :=
  match part.pair with
  | none => part.leading ++ part.trailing
  | some pair => part.leading ++ pair.text ++ part.trailing

/-- `node = nodename [ ":" node-port ]`, with an IPv6 address in brackets. -/
inductive IsNode : Text → Address → Prop
  | ipv4 (text port : Text) (x : IPv4Address) (htext : ipAddress text = some (.v4 x))
      (hport : port = [] ∨ isNodePort port = true) : IsNode (text ++ port) (.v4 x)
  | ipv6 (text port : Text) (x : IPv6Address) (htext : ipAddress text = some (.v6 x))
      (hchars : ∀ c ∈ text, c = ':' ∨ c = '.' ∨ (hexDigit c).isSome)
      (hport : port = [] ∨ isNodePort port = true) : IsNode ('[' :: text ++ ']' :: port) (.v6 x)

/-- `forwarded-element`, of which the first `for` pair names an address. -/
structure ForwardedElement where
  before : List ForwardedPart
  part : ForwardedPart
  after : List ForwardedPart
  pair : ForwardedPair
  part_pair : part.pair = some pair
  isFor : pair.isFor
  before_not_isFor : ∀ other ∈ before, ∀ pair ∈ other.pair, ¬ pair.isFor
  address : Address
  isNode : IsNode pair.value.content address

def ForwardedElement.text (element : ForwardedElement) : Text :=
  [';'].intercalate
    ((element.before ++ element.part :: element.after).map ForwardedPart.text)

/-- An element of `Forwarded`. -/
def Rfc7239Element (element : ProxyElement) : Prop :=
  ∃ parsed : ForwardedElement, element.text = parsed.text ∧ element.address = parsed.address

/-! ## The splitter passes over an element -/

section

variable {sep c : Char} {text : Text}

theorem isAlphanum_bounds (hc : c.isAlphanum = true) :
    48 ≤ c.toNat ∧ c.toNat ≤ 57 ∨ 65 ≤ c.toNat ∧ c.toNat ≤ 90 ∨ 97 ≤ c.toNat ∧ c.toNat ≤ 122 := by
  simp only [Char.isAlphanum, Char.isAlpha, Char.isUpper, Char.isLower, Char.isDigit,
    Bool.or_eq_true, Bool.and_eq_true, decide_eq_true_eq, ge_iff_le, UInt32.le_iff_toNat_le] at hc
  change (65 ≤ c.toNat ∧ c.toNat ≤ 90 ∨ 97 ≤ c.toNat ∧ c.toNat ≤ 122) ∨
    48 ≤ c.toNat ∧ c.toNat ≤ 57 at hc
  omega

theorem isSpace_of_isTchar (hc : isTchar c = true) : isSpace c = false := by
  obtain h | h := Bool.or_eq_true _ _ ▸ hc
  · have hbounds := isAlphanum_bounds h
    simp only [isSpace, Bool.or_eq_false_iff, Bool.and_eq_false_iff, decide_eq_false_iff_not,
      beq_eq_false_iff_ne]
    omega
  · have hall : ("!#$%&'*+-.^_`|~".toList.all fun c => !isSpace c) = true := by decide +kernel
    simpa using List.all_eq_true.mp hall c (by simpa using h)

theorem ne_of_isTchar (hc : isTchar c = true) {d : Char} (hd : isTchar d = false) : c ≠ d := by
  rintro rfl
  simp [hc] at hd

theorem isSpace_of_isOws (hc : isOws c = true) : isSpace c = true := by
  have hcases : c = ' ' ∨ c = '\t' := by simpa [isOws] using hc
  obtain rfl | rfl := hcases <;> decide

theorem ne_of_isOws (hc : isOws c = true) {d : Char} (hd : isOws d = false) : c ≠ d := by
  rintro rfl
  simp [hc] at hd

/-- Outside quoted strings only the separator and the quote matter. -/
theorem quiet_of_ne (hsep : ∀ c ∈ text, c ≠ sep) (hquote : ∀ c ∈ text, c ≠ '"') :
    (quoted sep).Quiet {} text := by
  refine Scanner.quiet_of_forall (fun c hc => ?_) fun c hc => ?_
  · simp [quoted, hsep c hc]
  · simp [quoted, Quotes.next, hquote c hc]

theorem quiet_ows (htext : ∀ c ∈ text, isOws c = true) (hsep : isOws sep = false) :
    (quoted sep).Quiet {} text :=
  quiet_of_ne (fun c hc => ne_of_isOws (htext c hc) hsep)
    fun c hc => ne_of_isOws (htext c hc) (by decide)

theorem quiet_token (token : Token) (hsep : isTchar sep = false) :
    (quoted sep).Quiet {} token.text :=
  quiet_of_ne (fun c hc => ne_of_isTchar (token.tchars c hc) hsep)
    fun c hc => ne_of_isTchar (token.tchars c hc) (by decide)

theorem quiet_item (item : QuotedItem) : (quoted sep).Quiet ⟨true, false⟩ item.text := by
  cases item with
  | qdtext c hc =>
      have hquote : c ≠ '"' := by
        rintro rfl
        exact absurd hc (by decide)
      have hbackslash : c ≠ '\\' := by
        rintro rfl
        exact absurd hc (by decide)
      refine Scanner.quiet_of_forall (fun d hd => by simp [quoted]) fun d hd => ?_
      rw [List.mem_singleton.mp hd]
      simp [quoted, Quotes.next, hquote, hbackslash]
  | quotedPair c hc =>
      exact ⟨⟨by simp [quoted], by simp [quoted, Quotes.next], trivial⟩,
        by simp [QuotedItem.text, quoted, Quotes.next]⟩

theorem quiet_quotedString (items : List QuotedItem) :
    (quoted sep).Quiet {} ('"' :: (items.flatMap QuotedItem.text ++ ['"'])) := by
  obtain ⟨huncut, hafter⟩ :=
    @Scanner.quiet_flatMap _ _ (quoted sep) ⟨true, false⟩ _ items _ fun item _ => quiet_item item
  have hopen : (quoted sep).next {} '"' = ⟨true, false⟩ := by simp [quoted, Quotes.next]
  refine ⟨⟨by simp [quoted], ?_⟩, ?_⟩
  · rw [hopen, Scanner.uncut_append, hafter]
    exact ⟨huncut, by simp [quoted], trivial⟩
  · rw [Scanner.after_cons, hopen, Scanner.after_append, hafter]
    simp [quoted, Quotes.next]

theorem quiet_value (value : PairValue) (hsep : isTchar sep = false) :
    (quoted sep).Quiet {} value.text := by
  cases value with
  | token token => exact quiet_token token hsep
  | quotedString items => exact quiet_quotedString items

theorem quiet_part (part : ForwardedPart) (htchar : isTchar sep = false) (hows : isOws sep = false)
    (hequals : sep ≠ '=') : (quoted sep).Quiet {} part.text := by
  have hleading := quiet_ows part.leading_ows hows
  have htrailing := quiet_ows part.trailing_ows hows
  unfold ForwardedPart.text
  split
  · exact hleading.append htrailing
  next pair _ =>
    refine (hleading.append ((quiet_token pair.name htchar).append ?_)).append htrailing
    have hsign : (quoted sep).Quiet {} ['='] :=
      quiet_of_ne (fun c hc => by rw [List.mem_singleton.mp hc]; exact hequals.symm)
        fun c hc => by rw [List.mem_singleton.mp hc]; decide
    exact hsign.append (quiet_value pair.value htchar)

theorem quiet_element (element : ForwardedElement) : (quoted ',').Quiet {} element.text := by
  refine Scanner.quiet_intercalate (quiet_of_ne (by simp) (by simp)) ?_
  intro text htext
  obtain ⟨part, -, rfl⟩ := List.mem_map.mp htext
  exact quiet_part part (by decide) (by decide) (by decide)

/-- The pairs of an element are found again. -/
theorem splitQuoted_element (element : ForwardedElement) : splitQuoted element.text ';' =
    (element.before ++ element.part :: element.after).map ForwardedPart.text := by
  rw [splitQuoted_eq]
  refine Scanner.split_intercalate (by simp [quoted]) (by simp [quoted, Quotes.next]) ?_ (by simp)
  intro text htext
  obtain ⟨part, -, rfl⟩ := List.mem_map.mp htext
  exact quiet_part part (by decide) (by decide) (by decide)

end

/-! ## The entry of an element -/

section

variable {text : Text} {address : Address}

theorem validIp_of_chars (hspace : ∀ c ∈ text, isSpace c = false)
    (hbrackets : ∀ c ∈ text, c ≠ '[' ∧ c ≠ ']') :
    validIp text = (ipAddress text).map Address.str := by
  have hchars : ∀ c ∈ text, (['[', ']'] : Text).contains c = false := fun c hc => by
    simpa using hbrackets c hc
  unfold validIp stripChars strip
  rw [trim_of_forall hspace, trim_of_forall hchars]

theorem ipAddress_blank (h : isBlank text = true) :
    ipAddress (stripChars ['[', ']'] (strip text)) = none := by
  have hempty : strip text = [] := by simpa [isBlank] using h
  rw [hempty]
  decide

/-- The entry of an element of `X-Forwarded-For`. -/
theorem xffEntry {element : ProxyElement} (helement : XffElement element) :
    isBlank element.text = false ∧ validIp element.text = some element.address.str := by
  obtain ⟨-, hparse⟩ := helement
  refine ⟨?_, by simp [validIp, hparse]⟩
  by_contra hblank
  have hnone := ipAddress_blank (by simpa using hblank)
  simp [hparse] at hnone

/-! ### The pair -/

theorem isFor_leading {leading : Text} (hleading : ∀ c ∈ leading, isOws c = true) (name : Token) :
    isFor (leading ++ name.text) = true ↔ name.text.map Char.toLower = ['f', 'o', 'r'] := by
  have hspace : ∀ c ∈ name.text, isSpace c = false := fun c hc =>
    isSpace_of_isTchar (name.tchars c hc)
  have hstrip : strip (leading ++ name.text) = name.text := by
    have htrim := @trim_append isSpace name.text leading []
      (fun c hc => isSpace_of_isOws (hleading c hc)) (by simp)
      (fun c hc => hspace c (List.mem_of_mem_head? hc))
      (fun c hc => hspace c (List.mem_of_mem_getLast? hc)) name.nonempty
    rwa [List.append_nil] at htrim
  simp [isFor, hstrip]

theorem equals_notMem_ows (htext : ∀ c ∈ text, isOws c = true) : '=' ∉ text := fun hc =>
  ne_of_isOws (htext _ hc) (by decide) rfl

theorem equals_notMem_token (token : Token) : '=' ∉ token.text := fun hc =>
  ne_of_isTchar (token.tchars _ hc) (by decide) rfl

theorem partition_part (part : ForwardedPart) : partition '=' part.text =
    match part.pair with
    | none => (part.leading ++ part.trailing, none)
    | some pair => (part.leading ++ pair.name.text, some (pair.value.text ++ part.trailing)) := by
  have hleading := equals_notMem_ows part.leading_ows
  have htrailing := equals_notMem_ows part.trailing_ows
  unfold ForwardedPart.text
  split
  · exact partition_of_notMem (by simp [hleading, htrailing])
  next pair _ =>
    have htext : part.leading ++ pair.text ++ part.trailing =
        (part.leading ++ pair.name.text) ++ '=' :: (pair.value.text ++ part.trailing) := by
      simp [ForwardedPair.text]
    rw [htext, partition_append_cons (by simp [hleading, equals_notMem_token pair.name])]

theorem forValue_cons (pair : Text) (rest : List Text) : forValue (pair :: rest) =
    match partition '=' pair with
    | (name, some raw) => if isFor name then some raw else forValue rest
    | (_, none) => forValue rest := rfl

theorem forValue_skip {part : ForwardedPart} (hpart : ∀ pair ∈ part.pair, ¬ pair.isFor)
    (rest : List Text) : forValue (part.text :: rest) = forValue rest := by
  rw [forValue_cons, partition_part]
  cases hpair : part.pair with
  | none => rfl
  | some pair =>
      have hnot : isFor (part.leading ++ pair.name.text) = false := by
        rw [Bool.eq_false_iff]
        exact fun h => hpart pair hpair ((isFor_leading part.leading_ows pair.name).mp h)
      simp [hnot]

/-- The `for` value of an element, with the white space behind it. -/
theorem forValue_element (element : ForwardedElement) :
    forValue (splitQuoted element.text ';') =
      some (element.pair.value.text ++ element.part.trailing) := by
  rw [splitQuoted_element, List.map_append, List.map_cons]
  have hfor := (isFor_leading element.part.leading_ows element.pair.name).mpr element.isFor
  have hhead : forValue (element.part.text :: element.after.map ForwardedPart.text) =
      some (element.pair.value.text ++ element.part.trailing) := by
    rw [forValue_cons, partition_part, element.part_pair]
    simp [hfor]
  have hbefore := element.before_not_isFor
  generalize element.before = before at hbefore ⊢
  induction before with
  | nil => exact hhead
  | cons part rest ih =>
      rw [List.map_cons, List.cons_append, forValue_skip (hbefore part List.mem_cons_self)]
      exact ih fun other hother => hbefore other (List.mem_cons_of_mem part hother)

/-! ### The value -/

theorem unescape_items (items : List QuotedItem) :
    unescape (items.flatMap QuotedItem.text) = items.map QuotedItem.char := by
  induction items with
  | nil => rfl
  | cons item rest ih =>
      cases item with
      | qdtext c hc =>
          have hbackslash : c ≠ '\\' := by
            rintro rfl
            exact absurd hc (by decide)
          rw [List.flatMap_cons, List.map_cons, ← ih]
          change unescape (c :: rest.flatMap QuotedItem.text) = c :: _
          rw [unescape]
          rintro d tail rfl
          exact absurd rfl hbackslash
      | quotedPair c hc =>
          have hnewline : c ≠ '\n' := by
            rintro rfl
            exact absurd hc (by decide)
          rw [List.flatMap_cons, List.map_cons, ← ih]
          change unescape ('\\' :: c :: rest.flatMap QuotedItem.text) = c :: _
          rw [unescape, if_neg hnewline]

/-- A value stands for its content, whatever white space follows. -/
theorem unquote_value (value : PairValue) {trailing : Text}
    (htrailing : ∀ c ∈ trailing, isOws c = true) :
    unquote (value.text ++ trailing) = value.content := by
  have hspace : ∀ c ∈ trailing, isSpace c = true := fun c hc => isSpace_of_isOws (htrailing c hc)
  unfold unquote
  cases value with
  | token token =>
      have htchar : ∀ c ∈ token.text, isSpace c = false := fun c hc =>
        isSpace_of_isTchar (token.tchars c hc)
      have hstrip : strip (token.text ++ trailing) = token.text :=
        @trim_append isSpace token.text [] trailing (by simp) hspace
          (fun c hc => htchar c (List.mem_of_mem_head? hc))
          (fun c hc => htchar c (List.mem_of_mem_getLast? hc)) token.nonempty
      have hquote : token.text.head? ≠ some '"' := fun h =>
        ne_of_isTchar (token.tchars _ (List.mem_of_mem_head? h)) (by decide) rfl
      dsimp only [PairValue.text]
      rw [hstrip, if_neg fun h => hquote h.2.1]
      rfl
  | quotedString items =>
      have hstrip : strip ('"' :: (items.flatMap QuotedItem.text ++ ['"']) ++ trailing) =
          '"' :: (items.flatMap QuotedItem.text ++ ['"']) := by
        refine @trim_append isSpace _ [] trailing (by simp) hspace ?_ ?_ (by simp)
        · intro c hc
          obtain rfl : '"' = c := by simpa using hc
          decide
        · intro c hc
          rw [← List.cons_append, List.getLast?_concat] at hc
          obtain rfl : '"' = c := by simpa using hc
          decide
      dsimp only [PairValue.text]
      rw [hstrip, if_pos]
      · simp [PairValue.content, unescape_items]
      · refine ⟨by simp, rfl, ?_⟩
        rw [← List.cons_append, List.getLast?_concat]

/-! ### The node -/

theorem cases_of_isNodePort {port : Text} (hport : isNodePort port = true) :
    ∃ rest, port = ':' :: rest ∧ ∀ c ∈ rest, isObfuscatedPortChar c = true := by
  unfold isNodePort at hport
  split at hport
  next rest =>
    refine ⟨'_' :: rest, rfl, ?_⟩
    simp only [Bool.and_eq_true, List.all_eq_true] at hport
    intro c hc
    obtain rfl | hc := List.mem_cons.mp hc
    · decide
    · exact hport.2 c hc
  next digits _ =>
    refine ⟨digits, rfl, ?_⟩
    simp only [Bool.and_eq_true, List.all_eq_true] at hport
    intro c hc
    have hdigit := hport.2 c hc
    simp [isObfuscatedPortChar, Char.isAlphanum, hdigit]
  next => cases hport

theorem colon_notMem_port {rest : Text} (hrest : ∀ c ∈ rest, isObfuscatedPortChar c = true) :
    ':' ∉ rest := fun hc => absurd (hrest ':' hc) (by decide)

theorem parseIPv4_of_ipAddress {x : IPv4Address} (htext : ipAddress text = some (.v4 x)) :
    parseIPv4 text = some x := by
  unfold ipAddress at htext
  split at htext
  next address hparse =>
    cases htext
    exact hparse
  next => simp at htext

theorem validIp_ipv4 {x : IPv4Address} (htext : ipAddress text = some (.v4 x)) :
    validIp text = some (Address.v4 x).str := by
  have hchars := isDigit_of_parseIPv4 (parseIPv4_of_ipAddress htext)
  rw [validIp_of_chars, htext]
  · rfl
  · intro c hc
    obtain rfl | hdigit := hchars c hc
    · decide
    · exact isSpace_of_isTchar (by simp [isTchar, Char.isAlphanum, hdigit])
  · intro c hc
    obtain rfl | hdigit := hchars c hc
    · decide
    · refine ⟨?_, ?_⟩ <;> rintro rfl <;> exact absurd hdigit (by decide)

theorem nodeIp_ipv4 {port : Text} {x : IPv4Address} (htext : ipAddress text = some (.v4 x))
    (hport : port = [] ∨ isNodePort port = true) :
    nodeIp (text ++ port) = some (Address.v4 x).str := by
  have hchars := isDigit_of_parseIPv4 (parseIPv4_of_ipAddress htext)
  have hcolon : ':' ∉ text := fun hc => by
    obtain h | h := hchars ':' hc <;> exact absurd h (by decide)
  have hhead : (text ++ port).head? ≠ some '[' := by
    cases text with
    | nil => simp [ipAddress_nil] at htext
    | cons c rest =>
        intro h
        obtain rfl : c = '[' := by simpa using h
        obtain h | h := hchars '[' List.mem_cons_self <;> exact absurd h (by decide)
  unfold nodeIp
  rw [if_neg hhead]
  obtain rfl | hport := hport
  · rw [List.append_nil, List.count_eq_zero_of_not_mem hcolon, if_neg (by decide)]
    exact validIp_ipv4 htext
  · obtain ⟨rest, rfl, hrest⟩ := cases_of_isNodePort hport
    have hcount : (text ++ ':' :: rest).count ':' = 1 := by
      rw [List.count_append, List.count_eq_zero_of_not_mem hcolon, List.count_cons_self,
        List.count_eq_zero_of_not_mem (colon_notMem_port hrest)]
    rw [if_pos hcount, partition_append_cons hcolon]
    simp [hport, validIp_ipv4 htext]

theorem isAlphanum_of_hexDigit {c : Char} (hc : (hexDigit c).isSome) : c.isAlphanum = true := by
  unfold hexDigit at hc
  simp only [Char.isAlphanum, Char.isAlpha, Char.isUpper, Char.isLower, Char.isDigit,
    Bool.or_eq_true, Bool.and_eq_true, decide_eq_true_eq, ge_iff_le]
  simp only [Char.le_def, UInt32.le_iff_toNat_le] at hc ⊢
  split at hc
  next h => exact .inr h
  next =>
    split at hc
    next h => exact .inl (.inr ⟨h.1, h.2.trans (by decide)⟩)
    next =>
      split at hc
      next h => exact .inl (.inl ⟨h.1, h.2.trans (by decide)⟩)
      next => cases hc

theorem nodeIp_ipv6 {port : Text} {x : IPv6Address} (htext : ipAddress text = some (.v6 x))
    (hchars : ∀ c ∈ text, c = ':' ∨ c = '.' ∨ (hexDigit c).isSome)
    (hport : port = [] ∨ isNodePort port = true) :
    nodeIp ('[' :: text ++ ']' :: port) = some (Address.v6 x).str := by
  have hne : ∀ c ∈ text, ∀ d, d ≠ ':' → d ≠ '.' → hexDigit d = none → c ≠ d := by
    rintro c hc d hcolon hpoint hnone rfl
    obtain h | h | h := hchars c hc
    · exact hcolon h
    · exact hpoint h
    · simp [hnone] at h
  have hbracket : ']' ∉ text := fun hc => hne _ hc ']' (by decide) (by decide) (by decide) rfl
  have hvalid : validIp text = some (Address.v6 x).str := by
    rw [validIp_of_chars, htext]
    · rfl
    · intro c hc
      obtain rfl | rfl | hhex := hchars c hc
      · decide
      · decide
      · exact isSpace_of_isTchar (by simp [isTchar, isAlphanum_of_hexDigit hhex])
    · exact fun c hc => ⟨hne c hc '[' (by decide) (by decide) (by decide),
        hne c hc ']' (by decide) (by decide) (by decide)⟩
  unfold nodeIp
  rw [if_pos (by simp)]
  have htail : ('[' :: text ++ ']' :: port).tail = text ++ ']' :: port := rfl
  rw [htail, partition_append_cons hbracket]
  obtain rfl | hport := hport
  · simp [hvalid]
  · simp [hport, hvalid]

theorem nodeIp_isNode {node : Text} (hnode : IsNode node address) :
    nodeIp node = some address.str := by
  cases hnode with
  | ipv4 text port x htext hport => exact nodeIp_ipv4 htext hport
  | ipv6 text port x htext hchars hport => exact nodeIp_ipv6 htext hchars hport

/-- The entry of an element of `Forwarded`. -/
theorem elementEntry_element (element : ForwardedElement) :
    elementEntry element.text = some element.address.str := by
  unfold elementEntry
  rw [forValue_element, Option.bind_some, unquote_value _ element.part.trailing_ows,
    nodeIp_isNode element.isNode]

theorem elementEntry_blank (h : isBlank text = true) : elementEntry text = none := by
  have hspace : ∀ c ∈ text, isSpace c = true := by
    intro c hc
    by_contra hc'
    have hmem := mem_trim hc (by simpa using hc')
    have hempty : strip text = [] := by simpa [isBlank] using h
    unfold strip at hempty
    simp [hempty] at hmem
  have hsplit : splitQuoted text ';' = [text] := by
    rw [splitQuoted_eq]
    refine Scanner.split_of_uncut (quiet_of_ne ?_ ?_).1
    · rintro c hc rfl
      exact absurd (hspace _ hc) (by decide)
    · rintro c hc rfl
      exact absurd (hspace _ hc) (by decide)
  have hequals : '=' ∉ text := fun hc => absurd (hspace _ hc) (by decide)
  unfold elementEntry
  rw [hsplit, forValue_cons, partition_of_notMem hequals]
  rfl

theorem not_isBlank_element (element : ForwardedElement) : isBlank element.text = false := by
  by_contra hblank
  have hnone := elementEntry_blank (by simpa using hblank)
  simp [elementEntry_element element] at hnone

end

end Justup.Net
