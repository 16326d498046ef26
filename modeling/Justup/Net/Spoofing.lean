import Justup.Net.ProxyChain

/-!
# A client cannot choose its own address

What the client writes into the header of the proxies stands before what they
append.  `X-Forwarded-For` is cut at every comma, so it makes no difference there.
`Forwarded` is cut outside quoted strings only: the elements of the proxies are
read as such exactly when the client's part closes the quoted strings that it
opens.
-/

namespace Justup.Net

open Lib Store

/-! ## Appending an element -/

/-- Where a proxy puts its element. -/
inductive Placement
  | sameLine
  | newLine
deriving DecidableEq, Repr

/-- An element with its place. -/
structure Appended where
  place : Placement
  element : ProxyElement

/-- The lines of the header behind the proxy. -/
def appendTo (lines : List Text) (appended : Appended) : List Text :=
  match appended.place, lines.getLast? with
  | .sameLine, some last => lines.dropLast ++ [last ++ ',' :: appended.element.text]
  | _, _ => lines ++ [appended.element.text]

/-- The header that the resolver reads. -/
def joined (lines : List Text) : Text := [','].intercalate lines

theorem joined_snoc {lines : List Text} (hne : lines ≠ []) (line : Text) :
    joined (lines ++ [line]) = joined lines ++ ',' :: line := by
  unfold joined
  induction lines with
  | nil => exact absurd rfl hne
  | cons first rest ih =>
      cases rest with
      | nil => simp [List.intercalate_cons_cons]
      | cons next rest =>
          have hrest := ih (by simp)
          rw [List.cons_append, List.cons_append, List.intercalate_cons_cons,
            ← List.cons_append, hrest, List.intercalate_cons_cons]
          simp

theorem joined_appendTo {lines : List Text} (hne : lines ≠ []) (appended : Appended) :
    joined (appendTo lines appended) = joined lines ++ ',' :: appended.element.text := by
  obtain ⟨front, last, rfl⟩ := (List.eq_nil_or_concat' lines).resolve_left hne
  unfold appendTo
  split
  next last' _ hlast =>
    obtain rfl : last = last' := by simpa using hlast
    rw [List.dropLast_concat]
    by_cases hfront : front = []
    · simp [hfront, joined]
    · rw [joined_snoc hfront, joined_snoc hfront]
      simp
  next => exact joined_snoc hne _

theorem appendTo_nil (appended : Appended) : appendTo [] appended = [appended.element.text] := by
  unfold appendTo
  split
  next h => simp at h
  next => rfl

theorem appendTo_ne_nil (lines : List Text) (appended : Appended) :
    appendTo lines appended ≠ [] := by
  unfold appendTo
  split <;> simp

/-- How a header is read, element by element.  `Good` is what a text must keep for the elements
behind it to be read. -/
structure Reads (entries : Text → List (Option Text)) (WellFormed : ProxyElement → Prop)
    (Good : Text → Prop) : Prop where
  nothing : entries [] = []
  alone : ∀ {element}, WellFormed element →
    Good element.text ∧ entries element.text = [some element.address.str]
  appended : ∀ {text element}, Good text → WellFormed element →
    Good (text ++ ',' :: element.text) ∧
      entries (text ++ ',' :: element.text) = entries text ++ [some element.address.str]

section

variable {entries : Text → List (Option Text)} {WellFormed : ProxyElement → Prop}
  {Good : Text → Prop} {lines : List Text}

theorem Reads.appendTo (hreads : Reads entries WellFormed Good) (hgood : Good (joined lines))
    {appended : Appended} (hwell : WellFormed appended.element) :
    Good (joined (appendTo lines appended)) ∧
      entries (joined (Net.appendTo lines appended)) =
        entries (joined lines) ++ [some appended.element.address.str] := by
  by_cases hne : lines = []
  · obtain ⟨hkept, hentries⟩ := hreads.alone hwell
    rw [hne, appendTo_nil]
    have hnothing : entries (joined []) = [] := hreads.nothing
    rw [hnothing]
    exact ⟨by simpa [joined] using hkept, by simpa [joined] using hentries⟩
  · rw [joined_appendTo hne]
    exact hreads.appended hgood hwell

/-- All that the proxies append is read. -/
theorem Reads.foldl (hreads : Reads entries WellFormed Good) (hgood : Good (joined lines))
    {all : List Appended} (hwell : ∀ appended ∈ all, WellFormed appended.element) :
    entries (joined (all.foldl Net.appendTo lines)) =
      entries (joined lines) ++ all.map fun appended => some appended.element.address.str := by
  induction all generalizing lines with
  | nil => simp
  | cons appended rest ih =>
      obtain ⟨hkept, hentries⟩ := hreads.appendTo hgood (hwell appended List.mem_cons_self)
      rw [List.foldl_cons, ih hkept fun other hother => hwell other
        (List.mem_cons_of_mem appended hother), hentries]
      simp

end

/-! ## The two headers -/

theorem xffEntries_nil : xffEntries [] = [] := by decide

theorem xffEntries_append (text later : Text) :
    xffEntries (text ++ ',' :: later) = xffEntries text ++ xffEntries later := by
  unfold xffEntries
  rw [List.splitOn_append_cons_self, List.filter_append, List.map_append]

/-- `X-Forwarded-For` is read as it is appended, whatever stands before. -/
theorem reads_xff : Reads xffEntries XffElement fun _ => True := by
  have halone : ∀ {element}, XffElement element →
      xffEntries element.text = [some element.address.str] := by
    intro element helement
    obtain ⟨hblank, hvalid⟩ := xffEntry helement
    unfold xffEntries
    rw [List.splitOn_eq_singleton helement.1]
    simp [hblank, hvalid]
  refine ⟨xffEntries_nil, fun helement => ⟨trivial, halone helement⟩, ?_⟩
  intro text element _ helement
  rw [xffEntries_append, halone helement]
  exact ⟨trivial, rfl⟩

theorem forwardedForEntries_nil : forwardedForEntries [] = [] := by decide

theorem quotesAfter_append (text later : Text) :
    quotesAfter (text ++ later) = later.foldl Quotes.next (quotesAfter text) :=
  List.foldl_append

/-- Behind a balanced text the splitter cuts at the comma. -/
theorem forwardedForEntries_append {text : Text} (hbalanced : Balanced text) (later : Text) :
    forwardedForEntries (text ++ ',' :: later) =
      forwardedForEntries text ++ forwardedForEntries later := by
  have hafter : (quoted ',').after {} text = {} := (balanced_iff text).mp hbalanced
  have hcut : (quoted ',').cuts ((quoted ',').after {} text) ',' = true := by
    rw [hafter]
    decide
  unfold forwardedForEntries
  rw [splitQuoted_eq, splitQuoted_eq, splitQuoted_eq, Scanner.split_append_cons hcut, hafter,
    List.filter_append, List.map_append]
  rfl

/-- `Forwarded` is read as it is appended behind a balanced text. -/
theorem reads_forwarded : Reads forwardedForEntries Rfc7239Element Balanced := by
  have halone : ∀ {element}, Rfc7239Element element → Balanced element.text ∧
      forwardedForEntries element.text = [some element.address.str] := by
    rintro ⟨text, address⟩ ⟨parsed, rfl, rfl⟩
    obtain ⟨huncut, hafter⟩ := quiet_element parsed
    refine ⟨(balanced_iff _).mpr hafter, ?_⟩
    unfold forwardedForEntries
    rw [splitQuoted_eq, Scanner.split_of_uncut huncut]
    simp [not_isBlank_element, elementEntry_element]
  refine ⟨forwardedForEntries_nil, halone, ?_⟩
  intro text element hbalanced helement
  obtain ⟨hkept, hentries⟩ := halone helement
  refine ⟨?_, by rw [forwardedForEntries_append hbalanced, hentries]⟩
  rw [balanced_iff] at hbalanced hkept ⊢
  rw [quotesAfter_append, hbalanced]
  exact hkept

/-! ## Requests through trusted proxies -/

/-- What the trusted proxies append: first the address of the client, then their own. -/
structure Chain (networks : List Network) (WellFormed : ProxyElement → Prop) where
  client : Appended
  hops : List Appended
  wellFormed : ∀ appended ∈ client :: hops, WellFormed appended.element
  client_untrusted : isTrusted networks client.element.address = false
  hops_trusted : ∀ hop ∈ hops, isTrusted networks hop.element.address = true

/-- The lines of the header that arrive when the client wrote some lines. -/
def Chain.lines {networks : List Network} {WellFormed : ProxyElement → Prop}
    (chain : Chain networks WellFormed) (client : List Text) : List Text :=
  (chain.client :: chain.hops).foldl appendTo client

/-- The address of the peer, when it is trusted. -/
def Request.FromTrusted (networks : List Network) (request : Request) : Prop :=
  ∃ addr, ipAddress request.peer = some addr ∧ isTrusted networks addr = true

/-- The request has no other header of a proxy. -/
def Request.UsesForwarded (request : Request) (lines : List Text) : Prop :=
  request.getlist xForwardedFor = [] ∧ request.getlist xRealIp = [] ∧
    request.getlist forwarded = lines

section

variable {networks : List Network} {WellFormed : ProxyElement → Prop}
  {entries : Text → List (Option Text)} {Good : Text → Prop} {request : Request}

theorem Chain.lines_ne_nil (chain : Chain networks WellFormed) (client : List Text) :
    chain.lines client ≠ [] := by
  unfold Chain.lines
  have hfoldl : ∀ (all : List Appended) (lines : List Text), lines ≠ [] →
      all.foldl appendTo lines ≠ [] := by
    intro all
    induction all with
    | nil => exact fun lines h => h
    | cons appended rest ih => exact fun lines _ => ih _ (appendTo_ne_nil lines appended)
  exact hfoldl chain.hops _ (appendTo_ne_nil client chain.client)

/-- The walk stops at the address of the client. -/
theorem Chain.resolves (chain : Chain networks WellFormed)
    (hreads : Reads entries WellFormed Good) {client : List Text} (hgood : Good (joined client)) :
    clientFromChain networks (entries (joined (chain.lines client))) =
      some (some chain.client.element.address.str) := by
  unfold Chain.lines
  rw [hreads.foldl hgood chain.wellFormed, List.map_cons]
  have hwalk := @clientFromChain_append_untrusted networks (entries (joined client)) _
    chain.client_untrusted (chain.hops.map fun hop => hop.element.address) (by
      intro address haddress
      obtain ⟨hop, hhop, rfl⟩ := List.mem_map.mp haddress
      exact chain.hops_trusted hop hhop)
  rw [List.map_map] at hwalk
  exact hwalk

theorem orElse_str (address : Address) (fallback : Text) :
    orElse (some address.str) fallback = address.str := if_neg (str_ne_nil address)

theorem resolve_xff (hpeer : request.FromTrusted networks)
    (hlines : request.getlist xForwardedFor ≠ []) :
    ∃ fallback, resolveTrustedClientIp networks request =
      (clientFromChain networks (xffEntries (joined (request.getlist xForwardedFor)))).map
        fun client => orElse client fallback := by
  obtain ⟨addr, hparse, htrusted⟩ := hpeer
  refine ⟨addr.str, ?_⟩
  unfold resolveTrustedClientIp
  rw [hparse]
  dsimp only
  rw [if_neg (by simp [htrusted]), if_pos hlines]
  rfl

theorem resolve_forwarded {addr : Address} (hparse : ipAddress request.peer = some addr)
    (htrusted : isTrusted networks addr = true) {lines : List Text}
    (huses : request.UsesForwarded lines) (hlines : lines ≠ []) :
    resolveTrustedClientIp networks request =
      (clientFromChain networks (forwardedForEntries (joined lines))).map
        fun client => orElse client addr.str := by
  obtain ⟨hxff, hreal, rfl⟩ := huses
  unfold resolveTrustedClientIp Request.get
  rw [hparse, hxff, hreal]
  dsimp only
  rw [if_neg (by simp [htrusted]), if_neg (by simp)]
  simp only [List.head?_nil, Option.bind_none]
  rw [if_pos hlines]
  rfl

end

/-- Whatever the proxies append behind these lines, the client that they name is found. -/
def ForwardedSafe (networks : List Network) (client : List Text) : Prop :=
  ∀ (request : Request) (chain : Chain networks Rfc7239Element), request.FromTrusted networks →
    request.UsesForwarded (chain.lines client) →
    resolveTrustedClientIp networks request = some chain.client.element.address.str

theorem forwardedSafe_of_balanced {networks : List Network} {client : List Text}
    (hbalanced : Balanced (joined client)) : ForwardedSafe networks client := by
  rintro request chain ⟨addr, hparse, htrusted⟩ huses
  rw [resolve_forwarded hparse htrusted huses (chain.lines_ne_nil client),
    chain.resolves reads_forwarded hbalanced, Option.map_some, orElse_str]

/-! ## Behind an open quoted string -/

/-- An address that RFC 7239 can write: it has no zone. -/
def Address.Plain : Address → Prop
  | .v4 _ => True
  | .v6 x => x.scope = none

def nodeText : Address → Text
  | .v4 x => x.str
  | .v6 x => '[' :: x.str ++ [']']

/-- The element `for="node"`. -/
def quotedElement (address : Address) : ProxyElement :=
  ⟨['f', 'o', 'r', '='] ++ '"' :: (nodeText address ++ ['"']), address⟩

theorem mem_str_plain {x : IPv6Address} (hplain : x.scope = none) {c : Char} (hc : c ∈ x.str) :
    c = ':' ∨ c = '.' ∨ (hexDigit c).isSome := by
  rw [IPv6Address.str, hplain] at hc
  exact mem_addrStr hc

theorem mem_nodeText {address : Address} (hplain : address.Plain) {c : Char}
    (hc : c ∈ nodeText address) :
    c = '[' ∨ c = ']' ∨ c = ':' ∨ c = '.' ∨ (hexDigit c).isSome := by
  cases address with
  | v4 x =>
      obtain h | h := isDigit_of_mem_str hc
      · exact .inr (.inr (.inr (.inl h)))
      · exact .inr (.inr (.inr (.inr (hexDigit_of_isDigit h))))
  | v6 x =>
      obtain h | hc := List.mem_cons.mp hc
      · exact .inl h
      · obtain hc | hc := List.mem_append.mp hc
        · exact .inr (.inr (mem_str_plain hplain hc))
        · exact .inr (.inl (List.mem_singleton.mp hc))

theorem ne_of_mem_nodeText {address : Address} (hplain : address.Plain) {c d : Char}
    (hc : c ∈ nodeText address) (hd : d ∉ ['[', ']', ':', '.']) (hnone : hexDigit d = none) :
    c ≠ d := by
  rintro rfl
  simp only [List.mem_cons, List.not_mem_nil, or_false, not_or] at hd
  obtain h | h | h | h | h := mem_nodeText hplain hc
  · exact hd.1 h
  · exact hd.2.1 h
  · exact hd.2.2.1 h
  · exact hd.2.2.2 h
  · simp [hnone] at h

theorem isQdtext_of_mem_nodeText {address : Address} (hplain : address.Plain) {c : Char}
    (hc : c ∈ nodeText address) : isQdtext c = true := by
  obtain rfl | rfl | rfl | rfl | h := mem_nodeText hplain hc
  · decide
  · decide
  · decide
  · decide
  · have halphanum := isAlphanum_of_hexDigit h
    have hquote : c ≠ '"' := ne_of_mem_nodeText hplain hc (by decide) (by decide)
    have hbackslash : c ≠ '\\' := ne_of_mem_nodeText hplain hc (by decide) (by decide)
    have hbounds := isAlphanum_bounds halphanum
    simp only [isQdtext, Bool.or_eq_true, Bool.and_eq_true, bne_iff_ne, ne_eq, decide_eq_true_eq,
      hquote, hbackslash, not_false_eq_true, and_true]
    omega

theorem isNode_nodeText {address : Address} (hplain : address.Plain) :
    IsNode (nodeText address) address := by
  have hread := ipAddress_str address
  cases address with
  | v4 x =>
      have hnode := IsNode.ipv4 x.str [] x hread (.inl rfl)
      rwa [List.append_nil] at hnode
  | v6 x => exact IsNode.ipv6 x.str [] x hread (fun c hc => mem_str_plain hplain hc) (.inl rfl)

/-- Characters of a quoted string that are not escaped. -/
def qdtexts (text : Text) (htext : ∀ c ∈ text, isQdtext c = true) : List QuotedItem :=
  text.pmap QuotedItem.qdtext htext

theorem flatMap_qdtexts {text : Text} (htext : ∀ c ∈ text, isQdtext c = true) :
    (qdtexts text htext).flatMap QuotedItem.text = text := by
  induction text with
  | nil => rfl
  | cons c rest ih =>
      have hrest := ih fun d hd => htext d (List.mem_cons_of_mem c hd)
      rw [qdtexts, List.pmap_cons, List.flatMap_cons]
      exact congrArg (c :: ·) hrest

theorem map_char_qdtexts {text : Text} (htext : ∀ c ∈ text, isQdtext c = true) :
    (qdtexts text htext).map QuotedItem.char = text := by
  induction text with
  | nil => rfl
  | cons c rest ih =>
      have hrest := ih fun d hd => htext d (List.mem_cons_of_mem c hd)
      rw [qdtexts, List.pmap_cons, List.map_cons]
      exact congrArg (c :: ·) hrest

/-- The element is one of RFC 7239. -/
theorem rfc7239_quotedElement {address : Address} (hplain : address.Plain) :
    Rfc7239Element (quotedElement address) := by
  have hchars : ∀ c ∈ nodeText address, isQdtext c = true := fun c hc =>
    isQdtext_of_mem_nodeText hplain hc
  have htchars : ['f', 'o', 'r'].all isTchar = true := by decide
  let name : Token := ⟨['f', 'o', 'r'], by simp, fun c hc => List.all_eq_true.mp htchars c hc⟩
  let pair : ForwardedPair := ⟨name, .quotedString (qdtexts (nodeText address) hchars)⟩
  let part : ForwardedPart := ⟨[], some pair, [], by simp, by simp⟩
  have hnode : IsNode pair.value.content address := by
    change IsNode ((qdtexts (nodeText address) hchars).map QuotedItem.char) address
    rw [map_char_qdtexts]
    exact isNode_nodeText hplain
  have hfor : ['f', 'o', 'r'].map Char.toLower = ['f', 'o', 'r'] := by decide
  let parsed : ForwardedElement := ⟨[], part, [], pair, rfl, hfor, by simp, address, hnode⟩
  have htext := flatMap_qdtexts hchars
  refine ⟨parsed, ?_, rfl⟩
  simp [quotedElement, parsed, part, pair, name, ForwardedElement.text, ForwardedPart.text,
    ForwardedPair.text, PairValue.text, htext]

/-- What a proxy adds to a line that is not empty. -/
def later (address : Address) : Text := ',' :: (quotedElement address).text

/-- Inside a quoted string the comma and the pair name are passed over; the node stands outside
of it, and behind the node a quoted string is open again. -/
theorem uncut_later {address : Address} (hplain : address.Plain) {sep : Char}
    (hsep : sep = ',' ∨ sep = ';') (escaped : Bool) :
    (quoted sep).Uncut ⟨true, escaped⟩ (later address) := by
  have hlater : later address = [',', 'f', 'o', 'r', '=', '"'] ++ (nodeText address ++ ['"']) := by
    simp [later, quotedElement]
  have hopen : (quoted sep).Uncut ⟨true, escaped⟩ [',', 'f', 'o', 'r', '=', '"'] ∧
      (quoted sep).after ⟨true, escaped⟩ [',', 'f', 'o', 'r', '=', '"'] = {} := by
    cases escaped <;> simp [Scanner.Uncut, Scanner.after, quoted, Quotes.next]
  have hnode : (quoted sep).Quiet {} (nodeText address) := by
    refine quiet_of_ne (fun c hc => ?_) fun c hc =>
      ne_of_mem_nodeText hplain hc (by decide) (by decide)
    obtain rfl | rfl := hsep
    · exact ne_of_mem_nodeText hplain hc (by decide) (by decide)
    · exact ne_of_mem_nodeText hplain hc (by decide) (by decide)
  rw [hlater, Scanner.uncut_append, hopen.2, Scanner.uncut_append, hnode.2]
  exact ⟨hopen.1, hnode.1, by simp [quoted], trivial⟩

theorem quotes_of_open {text : Text} (hopen : ¬ Balanced text) :
    quotesAfter text = ⟨true, (quotesAfter text).escaped⟩ := by
  have hin : (quotesAfter text).inQuotes = true := by simpa [Balanced] using hopen
  cases hstate : quotesAfter text with
  | mk inQuotes escaped =>
      rw [hstate] at hin
      simp only at hin
      rw [hin]

/-- The last part of an open text takes in what follows, and is itself open. -/
theorem splitQuoted_later {text : Text} (hopen : ¬ Balanced text) {sep : Char}
    (hsep : sep = ',' ∨ sep = ';') : ∃ front last, ¬ Balanced last ∧
      ∀ address : Address, address.Plain →
        splitQuoted (text ++ later address) sep = front ++ [last ++ later address] := by
  obtain ⟨front, last, hsplit⟩ : ∃ front last, (quoted sep).split {} text = front ++ [last] :=
    (List.eq_nil_or_concat' _).resolve_left (Scanner.split_ne_nil text _)
  have hlast := @Scanner.after_getLast _ _ (quoted sep) {} text {} front last
    (fun _ _ hcut => next_of_cuts hcut) hsplit
  rw [ite_self, after_quoted, after_quoted] at hlast
  refine ⟨front, last, by rwa [Balanced, hlast], fun address hplain => ?_⟩
  rw [splitQuoted_eq]
  refine Scanner.split_append_of_uncut ?_ hsplit
  rw [after_quoted, quotes_of_open hopen]
  exact uncut_later hplain hsep _

theorem forValue_append (first second : List Text) :
    forValue (first ++ second) = (forValue first).or (forValue second) := by
  induction first with
  | nil => rfl
  | cons pair rest ih =>
      rw [List.cons_append, forValue_cons, forValue_cons, ih]
      split
      · split <;> rfl
      · rfl

/-- The value of a pair that goes over the end of the open text contains a `=`. -/
theorem equals_mem_value {pair raw : Text} {address : Address}
    (hvalue : forValue [pair ++ later address] = some raw) : '=' ∈ raw := by
  rw [forValue_cons] at hvalue
  by_cases hequals : '=' ∈ pair
  · obtain ⟨name, value, rfl, hname⟩ := List.eq_append_cons_of_mem hequals
    rw [List.append_assoc, List.cons_append, partition_append_cons hname] at hvalue
    dsimp only at hvalue
    split at hvalue
    · obtain rfl := Option.some.inj hvalue
      simp [later, quotedElement]
    · cases hvalue
  · have htext : pair ++ later address = (pair ++ [',', 'f', 'o', 'r']) ++ '=' ::
        ('"' :: (nodeText address ++ ['"'])) := by simp [later, quotedElement]
    have hnot : isFor (pair ++ [',', 'f', 'o', 'r']) = false := by
      rw [Bool.eq_false_iff]
      intro hfor
      have hcomma : ',' ∈ strip (pair ++ [',', 'f', 'o', 'r']) :=
        mem_trim (by simp) (by decide)
      have hmap := List.mem_map_of_mem (f := Char.toLower) hcomma
      rw [eq_of_beq hfor] at hmap
      exact absurd hmap (by decide)
    rw [htext, partition_append_cons (by simp [hequals])] at hvalue
    dsimp only at hvalue
    rw [hnot] at hvalue
    cases hvalue

theorem mem_unescape {text : Text} (hc : '=' ∈ text) : '=' ∈ unescape text := by
  induction text using unescape.induct with
  | case1 rest ih =>
      rw [unescape, if_pos rfl]
      simp only [List.mem_cons] at hc ⊢
      rcases hc with h | h | h
      · exact .inl h
      · exact .inr (.inl h)
      · exact .inr (.inr (ih h))
  | case2 c rest hnewline ih =>
      rw [unescape, if_neg hnewline]
      simp only [List.mem_cons] at hc ⊢
      rcases hc with h | h | h
      · exact absurd h (by decide)
      · exact .inl h
      · exact .inr (ih h)
  | case3 c rest hnot ih =>
      rw [unescape]
      · simp only [List.mem_cons] at hc ⊢
        rcases hc with h | h
        · exact .inl h
        · exact .inr (ih h)
      · exact hnot
  | case4 => simp at hc

theorem mem_unquote {value : Text} (hc : '=' ∈ value) : '=' ∈ unquote value := by
  have hstrip : '=' ∈ strip value := mem_trim hc (by decide)
  unfold unquote
  dsimp only
  split
  next hquoted =>
    obtain ⟨-, hhead, hlast⟩ := hquoted
    refine mem_unescape ?_
    generalize strip value = text at *
    obtain ⟨first, rest, rfl⟩ := List.exists_cons_of_ne_nil (List.ne_nil_of_mem hstrip)
    obtain rfl : first = '"' := by simpa using hhead
    have hrest : '=' ∈ rest := by simpa using hstrip
    obtain ⟨middle, last, rfl⟩ :=
      (List.eq_nil_or_concat' rest).resolve_left (List.ne_nil_of_mem hrest)
    rw [← List.cons_append, List.getLast?_concat] at hlast
    obtain rfl := Option.some.inj hlast
    simpa using hrest
  next => exact hstrip

/-- A node with a `=` in it is no address, or one with a zone. -/
theorem nodeIp_ne {node : Text} (hc : '=' ∈ node) {address : Address} (hplain : address.Plain) :
    nodeIp node ≠ some address.str := by
  have hvalid : ∀ {text : Text}, '=' ∈ text → validIp text ≠ some address.str := by
    intro text hmem hsome
    obtain ⟨other, hparse, hstr⟩ := Option.map_eq_some_iff.mp hsome
    have hmem : '=' ∈ stripChars ['[', ']'] (strip text) :=
      mem_trim (mem_trim hmem (by decide)) (by decide)
    obtain ⟨x, rfl, hscope⟩ :=
      scope_of_mem hparse hmem (by decide) (by decide) (by decide)
    rw [← str_injective hstr] at hplain
    exact hscope hplain
  have hport : ∀ {rest : Text}, '=' ∈ rest → isNodePort rest = false := by
    intro rest hmem
    rw [Bool.eq_false_iff]
    intro h
    obtain ⟨port, rfl, hall⟩ := cases_of_isNodePort h
    have hmem : '=' ∈ port := by simpa using hmem
    exact absurd (hall _ hmem) (by decide)
  unfold nodeIp
  split
  next hhead =>
    have htail : '=' ∈ node.tail := by
      cases node with
      | nil => simp at hc
      | cons first rest =>
          obtain rfl : first = '[' := by simpa using hhead
          simpa using hc
    by_cases hbracket : ']' ∈ node.tail
    · obtain ⟨host, rest, hnode, hhost⟩ := List.eq_append_cons_of_mem hbracket
      rw [hnode] at htail ⊢
      rw [partition_append_cons hhost]
      dsimp only
      have hside : '=' ∈ host ∨ '=' ∈ rest := by simpa using htail
      split
      · simp
      next hrest =>
        obtain h | h := hside
        · exact hvalid h
        · exact absurd ⟨List.ne_nil_of_mem h, hport h⟩ hrest
    · rw [partition_of_notMem hbracket]
      simp
  next =>
    split
    next hcount =>
      have hcolon : ':' ∈ node := List.count_pos_iff.mp (by omega)
      obtain ⟨host, rest, rfl, hhost⟩ := List.eq_append_cons_of_mem hcolon
      rw [partition_append_cons hhost]
      have hside : '=' ∈ host ∨ '=' ∈ rest := by simpa using hc
      dsimp only [Option.getD_some]
      split
      · simp
      next hrest =>
        obtain h | h := hside
        · exact hvalid h
        · exact absurd (hport (List.mem_cons_of_mem ':' h)) hrest
    next => exact hvalid hc

/-- The entry of an open element does not depend on what follows, or is not the address that
follows. -/
theorem elementEntry_later {last : Text} (hopen : ¬ Balanced last) :
    (∃ entry, ∀ address : Address, address.Plain →
      elementEntry (last ++ later address) = entry) ∨
    ∀ address : Address, address.Plain →
      elementEntry (last ++ later address) ≠ some address.str := by
  obtain ⟨pairs, pair, -, hsplit⟩ := splitQuoted_later hopen (.inr rfl)
  cases hvalue : forValue pairs with
  | some raw =>
      refine .inl ⟨nodeIp (unquote raw), fun address hplain => ?_⟩
      unfold elementEntry
      rw [hsplit address hplain, forValue_append, hvalue]
      rfl
  | none =>
      refine .inr fun address hplain hsome => ?_
      unfold elementEntry at hsome
      rw [hsplit address hplain, forValue_append, hvalue, Option.none_or,
        Option.bind_eq_some_iff] at hsome
      obtain ⟨raw, hraw, hnode⟩ := hsome
      exact nodeIp_ne (mem_unquote (equals_mem_value hraw)) hplain hnode

theorem isBlank_of_comma {text : Text} (hcomma : ',' ∈ text) : isBlank text = false := by
  have hmem : ',' ∈ strip text := mem_trim hcomma (by decide)
  rw [isBlank, List.isEmpty_eq_false_iff]
  exact List.ne_nil_of_mem hmem

theorem forwardedForEntries_later {text : Text} (hopen : ¬ Balanced text) :
    ∃ early last, ¬ Balanced last ∧ ∀ address : Address, address.Plain →
      forwardedForEntries (text ++ later address) =
        early ++ [elementEntry (last ++ later address)] := by
  obtain ⟨front, last, hlast, hsplit⟩ := splitQuoted_later hopen (.inl rfl)
  refine ⟨(front.filter fun element => !isBlank element).map elementEntry, last, hlast, ?_⟩
  intro address hplain
  have hblank : isBlank (last ++ later address) = false :=
    isBlank_of_comma (by simp [later])
  unfold forwardedForEntries
  rw [hsplit address hplain, List.filter_append, List.map_append]
  simp [hblank]

/-! ## The exact condition -/

/-- There is a trusted peer, and more than one client could be behind it. -/
def CanTell (networks : List Network) : Prop :=
  (∃ peer, isTrusted networks peer = true) ∧
    ∃ a b : Address, a.Plain ∧ b.Plain ∧ a ≠ b ∧
      isTrusted networks a = false ∧ isTrusted networks b = false

section

variable {networks : List Network}

theorem walkChain_cons (candidate candidate' : Option Text) (entry : Option Text)
    (rest : List (Option Text)) :
    walkChain networks candidate (entry :: rest) =
      walkChain networks candidate' (entry :: rest) := by
  cases entry <;> rfl

/-- When the entry is not the address that is found, what is found stands before it. -/
theorem walk_before {early : List (Option Text)} {entry : Option Text} {address : Address}
    (hwalk : walkChain networks none (entry :: early) = some (some address.str))
    (hentry : entry ≠ some address.str) :
    early ≠ [] ∧ walkChain networks none early = some (some address.str) := by
  cases entry with
  | none => cases hwalk
  | some candidate =>
      rw [walkChain] at hwalk
      split at hwalk
      · cases hwalk
      · split at hwalk
        · cases early with
          | nil => exact absurd (Option.some.inj hwalk) hentry
          | cons next rest =>
              rw [walkChain_cons _ none] at hwalk
              exact ⟨by simp, hwalk⟩
        · exact absurd (Option.some.inj hwalk) hentry

theorem walk_of_resolved {entries : List (Option Text)} {peer address : Address}
    (hresolved : (clientFromChain networks entries).map (fun client => orElse client peer.str) =
      some address.str) (hne : address ≠ peer) :
    walkChain networks none entries.reverse = some (some address.str) := by
  unfold clientFromChain at hresolved
  cases hwalk : walkChain networks none entries.reverse with
  | none => simp [hwalk] at hresolved
  | some client =>
      rw [hwalk, Option.map_some, Option.some.injEq] at hresolved
      cases client with
      | none => exact absurd (str_injective hresolved).symm hne
      | some client =>
          unfold orElse at hresolved
          dsimp only at hresolved
          split at hresolved
          · exact absurd (str_injective hresolved).symm hne
          · rw [hresolved]

/-- Behind an open text at most one client is found. -/
theorem address_unique {text : Text} (hopen : ¬ Balanced text) : ∃ found : Text,
    ∀ address peer : Address, address.Plain → address ≠ peer →
      (clientFromChain networks (forwardedForEntries (text ++ later address))).map
        (fun client => orElse client peer.str) = some address.str → address.str = found := by
  obtain ⟨early, last, hlast, hentries⟩ := forwardedForEntries_later hopen
  obtain ⟨entry, hentry⟩ | hentry := elementEntry_later hlast
  · have hsame : ∀ address : Address, address.Plain →
        forwardedForEntries (text ++ later address) = early ++ [entry] := fun address hplain => by
      rw [hentries address hplain, hentry address hplain]
    refine ⟨((walkChain networks none (early ++ [entry]).reverse).getD none).getD [], ?_⟩
    intro address peer hplain hne hresolved
    rw [hsame address hplain] at hresolved
    rw [walk_of_resolved hresolved hne]
    rfl
  · refine ⟨((walkChain networks none early.reverse).getD none).getD [], ?_⟩
    intro address peer hplain hne hresolved
    rw [hentries address hplain] at hresolved
    have hwalk := walk_of_resolved hresolved hne
    rw [List.reverse_append, List.reverse_singleton, List.singleton_append] at hwalk
    rw [(walk_before hwalk (hentry address hplain)).2]
    rfl

/-- The request of a client that the first proxy names in a line of its own. -/
def viaProxy (peer : Address) (client : List Text) (address : Address) : Request where
  host := some peer.str
  headers := (client ++ [(quotedElement address).text]).map fun line => (forwarded, line)

def viaChain {address : Address} (hplain : address.Plain)
    (haddress : isTrusted networks address = false) : Chain networks Rfc7239Element where
  client := ⟨.newLine, quotedElement address⟩
  hops := []
  wellFormed := by simpa using rfc7239_quotedElement hplain
  client_untrusted := haddress
  hops_trusted := by simp

theorem lines_viaChain {address : Address} (hplain : address.Plain)
    (haddress : isTrusted networks address = false) (client : List Text) :
    (viaChain hplain haddress).lines client = client ++ [(quotedElement address).text] := rfl

theorem peer_viaProxy (peer : Address) (client : List Text) (address : Address) :
    (viaProxy peer client address).peer = peer.str := if_neg (str_ne_nil peer)

theorem viaProxy_usesForwarded (peer : Address) (client : List Text) (address : Address) :
    (viaProxy peer client address).UsesForwarded (client ++ [(quotedElement address).text]) := by
  have hnone : ∀ (lines : List Text) (name : Text), (forwarded == name) = false →
      (((lines.map fun line => (forwarded, line)).filter fun header => header.1 == name).map
        Prod.snd) = [] := by
    intro lines name hname
    rw [List.map_eq_nil_iff, List.filter_eq_nil_iff]
    intro header hheader
    obtain ⟨line, -, rfl⟩ := List.mem_map.mp hheader
    simp [hname]
  have hall : ∀ lines : List Text, (((lines.map fun line => (forwarded, line)).filter
      fun header => header.1 == forwarded).map Prod.snd) = lines := by
    intro lines
    induction lines with
    | nil => rfl
    | cons line rest ih =>
        rw [List.map_cons, List.filter_cons_of_pos (by simp), List.map_cons, ih]
  exact ⟨hnone _ _ (by decide), hnone _ _ (by decide), hall _⟩

theorem balanced_of_forwardedSafe (htell : CanTell networks) {client : List Text}
    (hsafe : ForwardedSafe networks client) : Balanced (joined client) := by
  by_contra hopen
  obtain ⟨⟨peer, hpeer⟩, a, b, haplain, hbplain, hne, ha, hb⟩ := htell
  obtain ⟨found, hfound⟩ := @address_unique networks _ hopen
  have hlines : client ≠ [] := by
    rintro rfl
    exact hopen rfl
  have heach : ∀ address : Address, address.Plain → isTrusted networks address = false →
      address.str = found := by
    intro address hplain haddress
    have huses := viaProxy_usesForwarded peer client address
    have hparse : ipAddress (viaProxy peer client address).peer = some peer := by
      rw [peer_viaProxy, ipAddress_str]
    have hresolved := hsafe _ (viaChain hplain haddress) ⟨peer, hparse, hpeer⟩ huses
    rw [resolve_forwarded hparse hpeer huses (by simp), joined_snoc hlines] at hresolved
    refine hfound address peer hplain ?_ hresolved
    rintro rfl
    simp [hpeer] at haddress
  exact hne (str_injective ((heach a haplain ha).trans (heach b hbplain hb).symm))

end

/-- From an untrusted peer no header counts. -/
theorem resolve_untrusted {networks : List Network} {request : Request}
    (hpeer : ¬ request.FromTrusted networks) (headers : List (Text × Text)) :
    resolveTrustedClientIp networks { request with headers := headers } =
      resolveTrustedClientIp networks request := by
  have heach : ∀ request : Request, ¬ request.FromTrusted networks →
      resolveTrustedClientIp networks request =
        some ((ipAddress request.peer).elim request.peer Address.str) := by
    intro request hpeer
    unfold resolveTrustedClientIp
    cases hparse : ipAddress request.peer with
    | none => rfl
    | some addr =>
        have huntrusted : isTrusted networks addr = false := by
          by_contra h
          exact hpeer ⟨addr, hparse, by simpa using h⟩
        simp [huntrusted]
  rw [heach request hpeer]
  exact heach ⟨request.host, headers⟩ hpeer

/-- A client behind trusted proxies cannot choose its address with `X-Forwarded-For`; with
`Forwarded` alone it cannot exactly when its part closes the quoted strings that it opens. -/
theorem client_cannot_choose_its_address (networks : List Network) :
    (∀ (request : Request) (client : List Text) (chain : Chain networks XffElement),
      request.FromTrusted networks → request.getlist xForwardedFor = chain.lines client →
      resolveTrustedClientIp networks request = some chain.client.element.address.str) ∧
    (∀ client, Balanced (joined client) → ForwardedSafe networks client) ∧
    (CanTell networks → ∀ client, ForwardedSafe networks client → Balanced (joined client)) ∧
    (∀ request headers, ¬ request.FromTrusted networks →
      resolveTrustedClientIp networks { request with headers := headers } =
        resolveTrustedClientIp networks request) := by
  refine ⟨?_, fun client => forwardedSafe_of_balanced, fun htell client =>
    balanced_of_forwardedSafe htell, fun request headers hpeer => resolve_untrusted hpeer headers⟩
  intro request client chain hpeer hlines
  obtain ⟨fallback, hresolve⟩ := resolve_xff hpeer (by
    rw [hlines]
    exact chain.lines_ne_nil client)
  rw [hresolve, hlines, chain.resolves reads_xff trivial, Option.map_some, orElse_str]

/-- The networks and addresses of the examples: 10.0.0.0/8 is trusted. -/
def tenNetwork : List Network := [.v4 (10 * 2 ^ 24) 8]

def proxyAddress : Address := .v4 ⟨10, 0, 0, 1⟩

def clientAddress : Address := .v4 ⟨203, 0, 113, 7⟩

def otherAddress : Address := .v4 ⟨6, 6, 6, 6⟩

theorem clientAddress_untrusted : isTrusted tenNetwork clientAddress = false := by decide +kernel

/-- The proxy adds the address of its client to the line of the client. -/
def xffChain : Chain tenNetwork XffElement where
  client := ⟨.sameLine, ⟨" 203.0.113.7".toList, clientAddress⟩⟩
  hops := []
  wellFormed := by
    have helement : XffElement ⟨" 203.0.113.7".toList, clientAddress⟩ :=
      ⟨by decide +kernel, by decide +kernel⟩
    simpa using helement
  client_untrusted := clientAddress_untrusted
  hops_trusted := by simp

def xffRequest : Request where
  host := some proxyAddress.str
  headers := [(xForwardedFor, "6.6.6.6, 203.0.113.7".toList)]

theorem client_cannot_choose_its_address_example :
    resolveTrustedClientIp tenNetwork xffRequest = some clientAddress.str ∧
      ForwardedSafe tenNetwork ["for=6.6.6.6".toList] ∧
      (¬ ForwardedSafe tenNetwork ["for=6.6.6.6;x=\"".toList]) ∧
      resolveTrustedClientIp tenNetwork ⟨some clientAddress.str, xffRequest.headers⟩ =
        resolveTrustedClientIp tenNetwork ⟨some clientAddress.str, []⟩ := by
  obtain ⟨hxff, hbalanced, htell, huntrusted⟩ := client_cannot_choose_its_address tenNetwork
  have hpeer : xffRequest.FromTrusted tenNetwork :=
    ⟨proxyAddress, by decide +kernel, by decide +kernel⟩
  have hcan : CanTell tenNetwork := by
    refine ⟨⟨proxyAddress, by decide +kernel⟩, clientAddress, otherAddress, trivial, trivial, ?_⟩
    decide +kernel
  refine ⟨hxff xffRequest ["6.6.6.6".toList] xffChain hpeer (by decide +kernel),
    hbalanced _ (by decide +kernel), fun hsafe => ?_, ?_⟩
  · exact absurd (htell hcan _ hsafe) (by decide +kernel)
  · refine huntrusted ⟨some clientAddress.str, []⟩ _ ?_
    rintro ⟨addr, hparse, htrusted⟩
    have hclient : ipAddress (Request.peer ⟨some clientAddress.str, []⟩) = some clientAddress := by
      decide +kernel
    rw [hclient] at hparse
    obtain rfl := Option.some.inj hparse
    simp [clientAddress_untrusted] at htrusted

/-- The client opens a quoted string and swallows the element of the proxy. -/
theorem client_chooses_its_address :
    ∃ (request : Request) (chain : Chain tenNetwork Rfc7239Element),
      request.FromTrusted tenNetwork ∧
      request.UsesForwarded (chain.lines ["for=6.6.6.6;x=\"".toList]) ∧
      chain.client.element.address = clientAddress ∧
      resolveTrustedClientIp tenNetwork request = some otherAddress.str := by
  refine ⟨viaProxy proxyAddress ["for=6.6.6.6;x=\"".toList] clientAddress,
    @viaChain _ clientAddress trivial clientAddress_untrusted, ⟨proxyAddress, ?_, ?_⟩,
    viaProxy_usesForwarded _ _ _, rfl, ?_⟩
  · decide +kernel
  · decide +kernel
  · decide +kernel

end Justup.Net
