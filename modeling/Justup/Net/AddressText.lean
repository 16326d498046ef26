import Justup.Net.Ipaddress

/-!
# The text of an address names that address

`ip_address(str(address))` is the address again.  For IPv6 this says that what
`_compress_hextets` leaves out is what the reader fills in: the cut run consists
of zeros, and is longer than one.
-/

namespace Justup.Net

open Store

/-! ## Characters -/

/-- The digits that numbers are written with. -/
def isHexText (text : Text) : Prop := ∀ c ∈ text, (hexDigit c).isSome

theorem notMem_of_isHexText {text : Text} (htext : isHexText text) {c : Char}
    (hc : hexDigit c = none) : c ∉ text := by
  intro hmem
  have hsome := htext c hmem
  simp [hc] at hsome

theorem isHexText_toDigits (n : Nat) : isHexText (Nat.toDigits 16 n) := by
  induction n using Nat.strong_induction_on with
  | _ n ih =>
    have hdigit : ∀ d : Fin 16, (hexDigit d.val.digitChar).isSome := by decide
    by_cases hlt : n < 16
    · rw [Nat.toDigits_of_lt_base hlt]
      intro c hc
      rw [List.mem_singleton.mp hc]
      exact hdigit ⟨n, hlt⟩
    · rw [Nat.toDigits_of_base_le (by decide) (by omega)]
      intro c hc
      obtain hc | hc := List.mem_append.mp hc
      · exact ih (n / 16) (by omega) c hc
      · rw [List.mem_singleton.mp hc]
        exact hdigit ⟨n % 16, Nat.mod_lt n (by decide)⟩

theorem hexDigit_of_isDigit {c : Char} (hc : c.isDigit = true) : (hexDigit c).isSome := by
  have hdigit : '0' ≤ c ∧ c ≤ '9' := by simpa [Char.isDigit, Char.le_def] using hc
  unfold hexDigit
  rw [if_pos hdigit]
  rfl

/-- A character of the text that is not the separator is in one of the parts. -/
theorem mem_of_mem_intercalate {sep c : Char} {parts : List Text}
    (hc : c ∈ [sep].intercalate parts) (hne : c ≠ sep) : ∃ part ∈ parts, c ∈ part := by
  induction parts with
  | nil => simp at hc
  | cons part rest ih =>
      cases rest with
      | nil =>
          rw [List.intercalate_singleton] at hc
          exact ⟨part, List.mem_cons_self, hc⟩
      | cons next rest =>
          rw [List.intercalate_cons_cons, List.mem_append, List.mem_append,
            List.mem_singleton] at hc
          obtain (h | h) | h := hc
          · exact ⟨part, List.mem_cons_self, h⟩
          · exact absurd h hne
          · obtain ⟨other, hother, hmem⟩ := ih h
            exact ⟨other, List.mem_cons_of_mem part hother, hmem⟩

theorem hexValue_toDigits (n : Nat) : hexValue (Nat.toDigits 16 n) = some n := by
  induction n using Nat.strong_induction_on with
  | _ n ih =>
    have hdigit : ∀ d : Fin 16, hexDigit d.val.digitChar = some d.val := by decide
    by_cases hlt : n < 16
    · rw [Nat.toDigits_of_lt_base hlt, hexValue, List.foldlM_cons, hdigit ⟨n, hlt⟩]
      simp
    · have hrest := ih (n / 16) (by omega)
      unfold hexValue at hrest ⊢
      rw [Nat.toDigits_of_base_le (by decide) (by omega), List.foldlM_append, hrest]
      simp only [Option.bind_eq_bind, Option.bind_some, List.foldlM_cons, List.foldlM_nil,
        hdigit ⟨n % 16, Nat.mod_lt n (by decide)⟩]
      simp only [Option.map_some, Option.bind_some, Option.pure_def, Option.some.injEq]
      omega

theorem hexText_ne_nil (hextet : Fin 65536) : hexText hextet ≠ [] := Nat.toDigits_ne_nil

theorem isHexText_hexText (hextet : Fin 65536) : isHexText (hexText hextet) :=
  isHexText_toDigits hextet

@[simp]
theorem parseHextet_hexText (hextet : Fin 65536) : parseHextet (hexText hextet) = some hextet := by
  have hlength : (hexText hextet).length ≤ 4 :=
    (Nat.length_toDigits_le_iff (by decide) (by decide)).mpr hextet.isLt
  unfold parseHextet
  rw [if_neg (by simp [hexText_ne_nil, hlength]), hexText, hexValue_toDigits]
  simp

theorem hexText_injective : Function.Injective hexText := by
  intro x y h
  have hparse := congrArg parseHextet h
  simpa using hparse

@[simp]
theorem hexText_zero : hexText 0 = ['0'] := by decide

/-! ## IPv4 -/

theorem parseOctet_toDigits (octet : Fin 256) :
    parseOctet (Nat.toDigits 10 octet) = some octet := by
  have hall : ∀ octet : Fin 256, parseOctet (Nat.toDigits 10 octet) = some octet := by
    decide +kernel
  exact hall octet

theorem isDigit_of_mem_str {x : IPv4Address} {c : Char} (hc : c ∈ x.str) :
    c = '.' ∨ c.isDigit = true := by
  by_cases hpoint : c = '.'
  · exact .inl hpoint
  · obtain ⟨part, hpart, hmem⟩ := mem_of_mem_intercalate hc hpoint
    obtain ⟨octet, -, rfl⟩ := List.mem_map.mp hpart
    exact .inr (Nat.isDigit_of_mem_toDigits (by decide) (by decide) hmem)

theorem notMem_str {x : IPv4Address} {c : Char} (hpoint : c ≠ '.') (hdigit : c.isDigit = false) :
    c ∉ x.str := by
  intro hc
  obtain h | h := isDigit_of_mem_str hc
  · exact hpoint h
  · simp [hdigit] at h

theorem splitOn_str (x : IPv4Address) :
    x.str.splitOn '.' =
      [x.a, x.b, x.c, x.d].map fun octet : Fin 256 => Nat.toDigits 10 octet.val := by
  refine List.splitOn_intercalate _ ?_ (by simp)
  intro text htext
  obtain ⟨octet, -, rfl⟩ := List.mem_map.mp htext
  intro hmem
  have hdigit := Nat.isDigit_of_mem_toDigits (by decide) (by decide) hmem
  exact absurd hdigit (by decide)

theorem parseIPv4_str (x : IPv4Address) : parseIPv4 x.str = some x := by
  unfold parseIPv4
  rw [if_neg (notMem_str (by decide) (by decide)), splitOn_str]
  simp [parseOctet_toDigits]

theorem isDigit_of_parseOctet {text : Text} {octet : Fin 256}
    (hparse : parseOctet text = some octet) : ∀ c ∈ text, c.isDigit = true := by
  unfold parseOctet at hparse
  split at hparse
  · cases hparse
  · split at hparse
    · cases hparse
    next hdigits => simpa using hdigits

/-- An IPv4 address is written with digits and points. -/
theorem isDigit_of_parseIPv4 {text : Text} {x : IPv4Address} (hparse : parseIPv4 text = some x) :
    ∀ c ∈ text, c = '.' ∨ c.isDigit = true := by
  unfold parseIPv4 at hparse
  split at hparse
  · cases hparse
  · split at hparse
    next a b c d hparts =>
      simp only [Option.bind_eq_bind, Option.bind_eq_some_iff] at hparse
      obtain ⟨_, ha, _, hb, _, hc, _, hd, -⟩ := hparse
      intro char hchar
      rw [← @List.intercalate_splitOn _ text _ _ '.', hparts] at hchar
      simp only [List.intercalate_cons_cons, List.intercalate_singleton, List.mem_append,
        List.mem_singleton] at hchar
      rcases hchar with (h | h) | (h | h) | (h | h) | h
      · exact .inr (isDigit_of_parseOctet ha char h)
      · exact .inl h
      · exact .inr (isDigit_of_parseOctet hb char h)
      · exact .inl h
      · exact .inr (isDigit_of_parseOctet hc char h)
      · exact .inl h
      · exact .inr (isDigit_of_parseOctet hd char h)
    · cases hparse

theorem parseIPv4_eq_none {text : Text} {c : Char} (hc : c ∈ text) (hpoint : c ≠ '.')
    (hdigit : c.isDigit = false) : parseIPv4 text = none := by
  cases hparse : parseIPv4 text with
  | none => rfl
  | some x =>
      obtain h | h := isDigit_of_parseIPv4 hparse c hc
      · exact absurd h hpoint
      · simp [hdigit] at h

/-! ## The run of zeros that is left out -/

/-- The texts that were read end with the current run, and the best run is among them. -/
structure ZeroRun.Inv (texts : List Text) (run : ZeroRun) : Prop where
  best : ∃ front back, texts = front ++ List.replicate run.bestLength ['0'] ++ back ∧
    front.length = run.bestStart
  current : ∃ front, texts = front ++ List.replicate run.length ['0'] ∧
    (run.start = some front.length ∨ run.start = none ∧ run.length = 0)

theorem ZeroRun.inv_read {texts : List Text} {run : ZeroRun} (hinv : run.Inv texts)
    (text : Text) : (run.read text texts.length).Inv (texts ++ [text]) := by
  obtain ⟨front, back, htexts, hfront⟩ := hinv.best
  obtain ⟨before, hcurrent, hstart⟩ := hinv.current
  have hbest : ∃ front back, texts ++ [text] =
      front ++ List.replicate run.bestLength ['0'] ++ back ∧ front.length = run.bestStart :=
    ⟨front, back ++ [text], by simp [htexts], hfront⟩
  unfold ZeroRun.read
  split
  next hzero =>
    have hstart : run.start.getD texts.length = before.length := by
      rcases hstart with h | ⟨h, hlength⟩
      · rw [h, Option.getD_some]
      · rw [h, Option.getD_none, hcurrent, hlength]
        simp
    have hlonger : texts ++ [text] = before ++ List.replicate (run.length + 1) ['0'] := by
      rw [hzero, List.replicate_succ', ← List.append_assoc, ← hcurrent]
    dsimp only
    rw [hstart]
    split
    · exact ⟨⟨before, [], by simpa using hlonger, rfl⟩, ⟨before, hlonger, .inl rfl⟩⟩
    · exact ⟨hbest, ⟨before, hlonger, .inl rfl⟩⟩
  next => exact ⟨hbest, ⟨texts ++ [text], by simp, .inr ⟨rfl, rfl⟩⟩⟩

theorem ZeroRun.inv_longestRun (texts : List Text) : (longestRun texts).Inv texts := by
  induction texts using List.reverseRecOn with
  | nil => exact ⟨⟨[], [], rfl, rfl⟩, ⟨[], rfl, .inr ⟨rfl, rfl⟩⟩⟩
  | append_singleton texts text ih =>
      have hread : longestRun (texts ++ [text]) = (longestRun texts).read text texts.length := by
        simp [longestRun, List.zipIdx_append]
      rw [hread]
      exact ZeroRun.inv_read ih text

/-- The text is whole, or a run of more than one zero is left out. -/
theorem compressHextets_cases (texts : List Text) : compressHextets texts = texts ∨
    ∃ front count back, texts = front ++ List.replicate count ['0'] ++ back ∧ 1 < count ∧
      compressHextets texts =
        (if front = [] then [[]] else front) ++ [] :: (if back = [] then [[]] else back) := by
  obtain ⟨front, back, htexts, hfront⟩ := (ZeroRun.inv_longestRun texts).best
  unfold compressHextets
  dsimp only
  split
  next hlong =>
    refine .inr ⟨front, _, back, htexts, hlong, ?_⟩
    have hstart : (longestRun texts).bestStart = 0 ↔ front = [] := by
      rw [← hfront, List.length_eq_zero_iff]
    have hstop : (longestRun texts).bestStart + (longestRun texts).bestLength = texts.length ↔
        back = [] := by
      rw [← hfront]
      have hlength := congrArg List.length htexts
      simp only [List.length_append, List.length_replicate] at hlength
      rw [← List.length_eq_zero_iff]
      omega
    have htake : texts.take (longestRun texts).bestStart = front := by
      rw [← hfront, htexts, List.append_assoc, List.take_left']
      rfl
    have hdrop : texts.drop ((longestRun texts).bestStart + (longestRun texts).bestLength) =
        back := by
      rw [← hfront]
      have hlength : front.length + (longestRun texts).bestLength =
          (front ++ List.replicate (longestRun texts).bestLength ['0']).length := by simp
      rw [hlength]
      nth_rewrite 2 [htexts]
      exact List.drop_left
    simp only [hstart, hstop, htake, hdrop]
  next => exact .inl rfl

/-! ## IPv6 -/

theorem mapM_parseHextet (hextets : List (Fin 65536)) :
    (hextets.map hexText).mapM parseHextet = some hextets := by
  induction hextets with
  | nil => rfl
  | cons hextet rest ih => simp [List.mapM_cons, ih]

/-- The parts on the two sides of a `::`. -/
theorem splitOn_interior {high low : List Text} (hhigh : high ≠ []) (hlow : low ≠ [])
    (hhighEmpty : [] ∉ high.tail) (hlowEmpty : [] ∉ low.dropLast) :
    (high ++ [] :: low).tail.dropLast.splitOn [] = [high.tail, low.dropLast] := by
  rw [List.tail_append_of_ne_nil hhigh, List.dropLast_append_of_ne_nil (by simp),
    List.dropLast_cons_of_ne_nil hlow, List.splitOn_append_cons_self,
    List.splitOn_eq_singleton hhighEmpty, List.splitOn_eq_singleton hlowEmpty]
  rfl

theorem nil_notMem_map_hexText (hextets : List (Fin 65536)) : [] ∉ hextets.map hexText := by
  intro hmem
  obtain ⟨hextet, -, hnil⟩ := List.mem_map.mp hmem
  exact hexText_ne_nil hextet hnil

/-- The part of the text that stands on one side of the `::`. -/
def side (texts : List Text) : List Text := if texts = [] then [[]] else texts

theorem side_ne_nil (texts : List Text) : side texts ≠ [] := by
  unfold side
  split <;> simp_all

theorem nil_notMem_tail_side {texts : List Text} (htexts : [] ∉ texts) :
    [] ∉ (side texts).tail := by
  unfold side
  split
  · simp
  · exact fun hmem => htexts (List.mem_of_mem_tail hmem)

theorem nil_notMem_dropLast_side {texts : List Text} (htexts : [] ∉ texts) :
    [] ∉ (side texts).dropLast := by
  unfold side
  split
  · simp
  · exact fun hmem => htexts (List.mem_of_mem_dropLast hmem)

theorem headD_side_append {texts later : List Text} (htexts : [] ∉ texts) :
    ((side texts ++ later).headD [] = [] ↔ texts = []) ∧
      ((side texts ++ later).headD [] = [] → (side texts).tail = []) ∧
      (texts ≠ [] → (side texts ++ later).headD [] :: (side texts).tail = texts) := by
  unfold side
  cases texts with
  | nil => simp
  | cons text rest =>
      have hne : text ≠ [] := fun h => htexts (by simp [h])
      simp [hne]

theorem getLastD_append_side {texts before : List Text} (htexts : [] ∉ texts) :
    ((before ++ side texts).getLastD [] = [] ↔ texts = []) ∧
      ((before ++ side texts).getLastD [] = [] → (side texts).dropLast = []) ∧
      (texts ≠ [] → (side texts).dropLast ++ [(before ++ side texts).getLastD []] = texts) := by
  unfold side
  induction texts using List.reverseRecOn with
  | nil => simp
  | append_singleton rest text _ =>
      have hne : text ≠ [] := fun h => htexts (by simp [h])
      rw [if_neg (by simp), ← List.append_assoc]
      simp [hne]

/-- What `_compress_hextets` leaves out is filled in. -/
theorem expand_sides {front back : List (Fin 65536)} {count : Nat} (hcount : 1 < count)
    (hlength : (front ++ List.replicate count 0 ++ back).length = 8) :
    expand (side (front.map hexText) ++ [] :: side (back.map hexText)) =
      some (front ++ List.replicate count 0 ++ back) := by
  have hfront := nil_notMem_map_hexText front
  have hback := nil_notMem_map_hexText back
  obtain ⟨hhead, hheadTail, hheadCons⟩ :=
    @headD_side_append _ ([] :: side (back.map hexText)) hfront
  obtain ⟨hlast, hlastInit, hlastSnoc⟩ :=
    @getLastD_append_side _ (side (front.map hexText) ++ [[]]) hback
  rw [List.append_assoc, List.singleton_append] at hlast hlastInit hlastSnoc
  unfold expand
  rw [splitOn_interior (side_ne_nil _) (side_ne_nil _) (nil_notMem_tail_side hfront)
    (nil_notMem_dropLast_side hback)]
  dsimp only
  have hhi : (if (side (front.map hexText) ++ [] :: side (back.map hexText)).headD [] = [] then []
      else (side (front.map hexText) ++ [] :: side (back.map hexText)).headD [] ::
        (side (front.map hexText)).tail) = front.map hexText := by
    split
    next h => exact (hhead.mp h).symm
    next h => exact hheadCons fun hnil => h (hhead.mpr hnil)
  have hlo : (if (side (front.map hexText) ++ [] :: side (back.map hexText)).getLastD [] = []
      then [] else (side (back.map hexText)).dropLast ++
        [(side (front.map hexText) ++ [] :: side (back.map hexText)).getLastD []]) =
      back.map hexText := by
    split
    next h => exact (hlast.mp h).symm
    next h => exact hlastSnoc fun hnil => h (hlast.mpr hnil)
  rw [hhi, hlo, mapM_parseHextet, mapM_parseHextet]
  simp only [List.length_append, List.length_replicate] at hlength
  have hskipped : 8 - ((front.map hexText).length + (back.map hexText).length) = count := by
    simp only [List.length_map]
    omega
  rw [hskipped, if_neg, if_neg (by omega)]
  · rfl
  · rintro (⟨hnil, htail⟩ | ⟨hnil, hinit⟩)
    · exact htail (hheadTail hnil)
    · exact hinit (hlastInit hnil)

theorem expand_hexTexts {hextets : List (Fin 65536)} (hlength : hextets.length = 8) :
    expand (hextets.map hexText) = some hextets := by
  have hnil := nil_notMem_map_hexText hextets
  obtain ⟨first, rest, rfl⟩ : ∃ first rest, hextets = first :: rest :=
    List.exists_cons_of_ne_nil (by rintro rfl; simp at hlength)
  obtain ⟨middle, last, rfl⟩ : ∃ middle last, rest = middle ++ [last] :=
    (List.eq_nil_or_concat' rest).resolve_left (by rintro rfl; simp at hlength)
  have hinterior : ((first :: (middle ++ [last])).map hexText).tail.dropLast =
      middle.map hexText := by simp
  have hsplit : (middle.map hexText).splitOn [] = [middle.map hexText] :=
    List.splitOn_eq_singleton (nil_notMem_map_hexText middle)
  unfold expand
  rw [hinterior, hsplit]
  dsimp only
  rw [if_neg, mapM_parseHextet]
  rintro (h | h | h)
  · rw [List.length_map] at h
    exact h hlength
  · exact hexText_ne_nil first (by simpa using h)
  · rw [← List.cons_append, List.map_append, List.map_singleton, List.getLastD_concat] at h
    exact hexText_ne_nil last h

/-- The parts of the text of an address are read as its hextets. -/
theorem expand_compressHextets {hextets : List (Fin 65536)} (hlength : hextets.length = 8) :
    expand (compressHextets (hextets.map hexText)) = some hextets := by
  obtain hwhole | ⟨front, count, back, htexts, hcount, hcompress⟩ :=
    compressHextets_cases (hextets.map hexText)
  · rw [hwhole, expand_hexTexts hlength]
  · obtain ⟨hfront, hback', rfl, hleft, hright⟩ := List.map_eq_append_iff.mp htexts
    obtain ⟨hbefore, hzeros, rfl, hfrontText, hzerosText⟩ := List.map_eq_append_iff.mp hleft
    have hzero : hzeros = List.replicate count 0 := by
      refine List.map_injective_iff.mpr hexText_injective ?_
      rw [hzerosText, List.map_replicate, hexText_zero]
    rw [hcompress, ← hfrontText, ← hright, hzero]
    rw [hzero] at hlength
    exact expand_sides hcount hlength

theorem isHexText_of_mem_compressHextets {hextets : List (Fin 65536)} {text : Text}
    (htext : text ∈ compressHextets (hextets.map hexText)) : isHexText text := by
  have hmap : ∀ text ∈ hextets.map hexText, isHexText text := by
    intro text htext
    obtain ⟨hextet, -, rfl⟩ := List.mem_map.mp htext
    exact isHexText_hexText hextet
  have hnil : isHexText [] := by simp [isHexText]
  obtain hwhole | ⟨front, count, back, htexts, -, hcompress⟩ :=
    compressHextets_cases (hextets.map hexText)
  · rw [hwhole] at htext
    exact hmap text htext
  · rw [hcompress] at htext
    obtain hleft | hright := List.mem_append.mp htext
    · split at hleft
      · rw [List.mem_singleton.mp hleft]
        exact hnil
      · exact hmap text (by simp [htexts, hleft])
    · obtain rfl | hright := List.mem_cons.mp hright
      · exact hnil
      · split at hright
        · rw [List.mem_singleton.mp hright]
          exact hnil
        · exact hmap text (by simp [htexts, hright])

theorem length_compressHextets {hextets : List (Fin 65536)} (hlength : hextets.length = 8) :
    3 ≤ (compressHextets (hextets.map hexText)).length ∧
      (compressHextets (hextets.map hexText)).length ≤ 9 := by
  obtain hwhole | ⟨front, count, back, htexts, hcount, hcompress⟩ :=
    compressHextets_cases (hextets.map hexText)
  · rw [hwhole, List.length_map, hlength]
    decide
  · have htotal := congrArg List.length htexts
    simp only [List.length_map, hlength, List.length_append, List.length_replicate] at htotal
    have hside : ∀ texts : List Text, 1 ≤ (if texts = [] then [[]] else texts).length ∧
        (if texts = [] then [[]] else texts).length ≤ texts.length + 1 := by
      intro texts
      cases texts <;> simp
    have hfront := hside front
    have hback := hside back
    rw [hcompress, List.length_append, List.length_cons]
    omega

theorem splitOn_stringFromHextets {hextets : List (Fin 65536)} (hlength : hextets.length = 8) :
    (stringFromHextets hextets).splitOn ':' = compressHextets (hextets.map hexText) := by
  refine List.splitOn_intercalate _ ?_ ?_
  · exact fun text htext =>
      notMem_of_isHexText (isHexText_of_mem_compressHextets htext) (by decide)
  · intro hnil
    have hshort := (length_compressHextets hlength).1
    simp [hnil] at hshort

theorem hextetsFromString_stringFromHextets {hextets : List (Fin 65536)}
    (hlength : hextets.length = 8) :
    hextetsFromString (stringFromHextets hextets) = some hextets := by
  obtain ⟨hshort, hlong⟩ := length_compressHextets hlength
  have hpoint : '.' ∉ (compressHextets (hextets.map hexText)).getLastD [] := by
    have hne : compressHextets (hextets.map hexText) ≠ [] := by
      intro hnil
      simp [hnil] at hshort
    rw [List.getLastD_eq_getLast?, List.getLast?_eq_some_getLast hne, Option.getD_some]
    exact notMem_of_isHexText
      (isHexText_of_mem_compressHextets (List.getLast_mem hne)) (by decide)
  unfold hextetsFromString
  rw [splitOn_stringFromHextets hlength, if_neg (by omega), embedIPv4,
    if_neg hpoint]
  simp only [Option.bind_eq_bind, Option.bind_some]
  rw [if_neg (by omega), expand_compressHextets hlength]

theorem hextets_ofHextets (high low : Fin 65536) :
    (IPv4Address.ofHextets high low).hextets = [high, low] := by
  simp only [IPv4Address.ofHextets, IPv4Address.hextets, List.cons.injEq, and_true, Fin.ext_iff]
  omega

theorem hextets_of_ipv4Mapped {x : IPv6Address} {mapped : IPv4Address}
    (hmapped : x.ipv4Mapped = some mapped) :
    x.hextets = [0, 0, 0, 0, 0, 0xFFFF] ++ mapped.hextets := by
  unfold IPv6Address.ipv4Mapped at hmapped
  split at hmapped
  next a b c d e f high low hhextets =>
    split at hmapped
    next hzeros =>
      cases hmapped
      rw [hhextets, hextets_ofHextets, ← hzeros]
      rfl
    next => cases hmapped
  next => cases hmapped

theorem hextetsFromString_mapped (mapped : IPv4Address) :
    hextetsFromString (stringFromHextets [0, 0, 0, 0, 0, 0, 0, 0xFFFF] ++ ':' :: mapped.str) =
      some ([0, 0, 0, 0, 0, 0xFFFF] ++ mapped.hextets) := by
  have hconst : (stringFromHextets [0, 0, 0, 0, 0, 0, 0, 0xFFFF]).splitOn ':' =
      [[], [], hexText 0xFFFF] := by decide +kernel
  have hpoint : '.' ∈ mapped.str := by simp [IPv4Address.str]
  have hparts : (stringFromHextets [0, 0, 0, 0, 0, 0, 0, 0xFFFF] ++ ':' :: mapped.str).splitOn ':' =
      [[], [], hexText 0xFFFF, mapped.str] := by
    rw [List.splitOn_append_cons_self, hconst,
      List.splitOn_eq_singleton (notMem_str (by decide) (by decide))]
    rfl
  have hembed : embedIPv4 [[], [], hexText 0xFFFF, mapped.str] =
      some (side (([] : List (Fin 65536)).map hexText) ++ [] ::
        side ((0xFFFF :: mapped.hextets).map hexText)) := by
    unfold embedIPv4
    rw [List.getLastD_cons, if_pos (by simpa using hpoint)]
    simp [parseIPv4_str, side]
  unfold hextetsFromString
  rw [hparts, if_neg (by simp), hembed]
  exact @expand_sides [] (0xFFFF :: mapped.hextets) 5 (by decide) (by
    simp [IPv4Address.hextets])

theorem hextetsFromString_addrStr (x : IPv6Address) :
    hextetsFromString x.addrStr = some x.hextets := by
  unfold IPv6Address.addrStr
  split
  next => exact hextetsFromString_stringFromHextets x.length_hextets
  next mapped hmapped => rw [hextetsFromString_mapped, hextets_of_ipv4Mapped hmapped]

theorem mem_stringFromHextets {hextets : List (Fin 65536)} {c : Char}
    (hc : c ∈ stringFromHextets hextets) : c = ':' ∨ (hexDigit c).isSome := by
  by_cases hcolon : c = ':'
  · exact .inl hcolon
  · obtain ⟨part, hpart, hmem⟩ := mem_of_mem_intercalate hc hcolon
    exact .inr (isHexText_of_mem_compressHextets hpart c hmem)

theorem mem_addrStr {x : IPv6Address} {c : Char} (hc : c ∈ x.addrStr) :
    c = ':' ∨ c = '.' ∨ (hexDigit c).isSome := by
  unfold IPv6Address.addrStr at hc
  split at hc
  next =>
    obtain h | h := mem_stringFromHextets hc
    · exact .inl h
    · exact .inr (.inr h)
  next =>
    obtain hc | hc := List.mem_append.mp hc
    · obtain h | h := mem_stringFromHextets hc
      · exact .inl h
      · exact .inr (.inr h)
    · obtain rfl | hc := List.mem_cons.mp hc
      · exact .inl rfl
      · obtain h | h := isDigit_of_mem_str hc
        · exact .inr (.inl h)
        · exact .inr (.inr (hexDigit_of_isDigit h))

theorem notMem_addrStr {x : IPv6Address} {c : Char} (hcolon : c ≠ ':') (hpoint : c ≠ '.')
    (hdigit : hexDigit c = none) : c ∉ x.addrStr := by
  intro hc
  obtain h | h | h := mem_addrStr hc
  · exact hcolon h
  · exact hpoint h
  · simp [hdigit] at h

theorem colon_mem_addrStr (x : IPv6Address) : ':' ∈ x.addrStr := by
  by_contra hcolon
  have hread := hextetsFromString_addrStr x
  unfold hextetsFromString at hread
  rw [List.splitOn_eq_singleton hcolon] at hread
  simp at hread

/-! ## The round trip -/

theorem bne_of_notMem {sep : Char} {text : Text} (hsep : sep ∉ text) :
    ∀ c ∈ text, (c != sep) = true := by
  intro c hc
  have hne : c ≠ sep := by
    rintro rfl
    exact hsep hc
  simpa using hne

theorem partition_of_notMem {sep : Char} {text : Text} (hsep : sep ∉ text) :
    partition sep text = (text, none) := by
  unfold partition
  rw [List.dropWhile_eq_nil_iff.mpr (bne_of_notMem hsep)]

theorem partition_append_cons {sep : Char} {text rest : Text} (hsep : sep ∉ text) :
    partition sep (text ++ sep :: rest) = (text, some rest) := by
  have hall := bne_of_notMem hsep
  unfold partition
  rw [List.dropWhile_append_of_pos hall, List.takeWhile_append_of_pos hall,
    List.dropWhile_cons_of_neg (by simp), List.takeWhile_cons_of_neg (by simp)]
  simp

theorem Scope.ofText_text (scope : Scope) : Scope.ofText scope.text = some scope := by
  unfold Scope.ofText
  rw [dif_pos ⟨scope.nonempty, scope.percent_notMem, scope.slash_notMem⟩]

theorem parseIPv6_str (x : IPv6Address) : parseIPv6 x.str = some x := by
  have hpercent : '%' ∉ x.addrStr := notMem_addrStr (by decide) (by decide) (by decide)
  have hslash : '/' ∉ x.addrStr := notMem_addrStr (by decide) (by decide) (by decide)
  have hread := hextetsFromString_addrStr x
  cases hscope : x.scope with
  | none =>
      have hstr : x.str = x.addrStr := by simp [IPv6Address.str, hscope]
      have hsplit : splitScopeId x.str = some (x.addrStr, none) := by
        rw [splitScopeId, hstr, partition_of_notMem hpercent]
      unfold parseIPv6
      rw [if_neg (by rwa [hstr]), hsplit]
      simp [hread, x.length_hextets, ← hscope]
  | some scope =>
      have hstr : x.str = x.addrStr ++ '%' :: scope.text := by simp [IPv6Address.str, hscope]
      have hsplit : splitScopeId x.str = some (x.addrStr, some scope) := by
        rw [splitScopeId, hstr, partition_append_cons hpercent]
        simp [Scope.ofText_text]
      unfold parseIPv6
      rw [if_neg (by simp [hstr, hslash, scope.slash_notMem]), hsplit]
      simp [hread, x.length_hextets, ← hscope]

/-- The text of an address names that address. -/
theorem ipAddress_str (address : Address) : ipAddress address.str = some address := by
  cases address with
  | v4 x => simp [ipAddress, Address.str, parseIPv4_str]
  | v6 x =>
      have hcolon : ':' ∈ x.str := by
        unfold IPv6Address.str
        split
        · exact colon_mem_addrStr x
        · exact List.mem_append_left _ (colon_mem_addrStr x)
      simp [ipAddress, Address.str, parseIPv4_eq_none hcolon, parseIPv6_str]

theorem str_injective : Function.Injective Address.str := by
  intro x y h
  have hread := congrArg ipAddress h
  simpa [ipAddress_str] using hread

theorem ipAddress_nil : ipAddress [] = none := by decide

theorem str_ne_nil (address : Address) : address.str ≠ [] := by
  intro hnil
  have hread := ipAddress_str address
  rw [hnil, ipAddress_nil] at hread
  cases hread

/-! ## What a text of an address is made of -/

theorem isHexText_of_foldlM {text : Text} {start number : Nat}
    (hread : text.foldlM (fun number c => (hexDigit c).map (16 * number + ·)) start =
      some number) : isHexText text := by
  induction text generalizing start with
  | nil => simp [isHexText]
  | cons c rest ih =>
      rw [List.foldlM_cons, Option.bind_eq_bind, Option.bind_eq_some_iff] at hread
      obtain ⟨next, hhead, hrest⟩ := hread
      intro d hd
      obtain rfl | hd := List.mem_cons.mp hd
      · rw [Option.map_eq_some_iff] at hhead
        obtain ⟨digit, hdigit, -⟩ := hhead
        simp [hdigit]
      · exact ih hrest d hd

theorem isHexText_of_parseHextet {text : Text} {hextet : Fin 65536}
    (hparse : parseHextet text = some hextet) : isHexText text := by
  unfold parseHextet at hparse
  split at hparse
  · cases hparse
  · rw [Option.bind_eq_bind, Option.bind_eq_some_iff] at hparse
    obtain ⟨number, hvalue, -⟩ := hparse
    exact isHexText_of_foldlM hvalue

theorem isHexText_of_mapM {parts : List Text} {hextets : List (Fin 65536)}
    (hparse : parts.mapM parseHextet = some hextets) : ∀ part ∈ parts, isHexText part := by
  induction parts generalizing hextets with
  | nil => simp
  | cons part rest ih =>
      simp only [List.mapM_cons, Option.bind_eq_bind, Option.bind_eq_some_iff] at hparse
      obtain ⟨hextet, hhead, others, hrest, -⟩ := hparse
      intro other hother
      obtain rfl | hother := List.mem_cons.mp hother
      · exact isHexText_of_parseHextet hhead
      · exact ih hrest other hother

theorem isHexText_of_expand {parts : List Text} {hextets : List (Fin 65536)}
    (hlength : 2 ≤ parts.length) (hexpand : expand parts = some hextets) :
    ∀ part ∈ parts, isHexText part := by
  obtain ⟨first, rest, rfl⟩ : ∃ first rest, parts = first :: rest :=
    List.exists_cons_of_ne_nil (by rintro rfl; simp at hlength)
  obtain ⟨interior, last, rfl⟩ : ∃ interior last, rest = interior ++ [last] :=
    (List.eq_nil_or_concat' rest).resolve_left (by rintro rfl; simp at hlength)
  have hnil : isHexText [] := by simp [isHexText]
  unfold expand at hexpand
  rw [List.tail_cons, List.dropLast_concat] at hexpand
  split at hexpand
  next =>
    dsimp only at hexpand
    split at hexpand
    · cases hexpand
    · exact isHexText_of_mapM hexpand
  next high low hsplit =>
    have hinterior : interior = high ++ [] :: low := by
      rw [← @List.intercalate_splitOn _ interior _ _ [], hsplit]
      simp [List.intercalate_cons_cons]
    rw [List.headD_cons, ← List.cons_append, List.getLastD_concat] at hexpand
    dsimp only at hexpand
    split at hexpand
    · cases hexpand
    next hcolons =>
      simp only [not_or, not_and, ne_eq, not_not] at hcolons
      generalize hpartsHi : (if first = [] then [] else first :: high) = partsHi at hexpand
      generalize hpartsLo : (if last = [] then [] else low ++ [last]) = partsLo at hexpand
      split at hexpand
      · cases hexpand
      · simp only [Option.bind_eq_bind, Option.bind_eq_some_iff] at hexpand
        obtain ⟨hi, hhi, lo, hlo, -⟩ := hexpand
        have hhi := isHexText_of_mapM hhi
        have hlo := isHexText_of_mapM hlo
        intro part hpart
        simp only [hinterior, List.mem_cons, List.mem_append, List.not_mem_nil, or_false] at hpart
        grind
  next => cases hexpand

/-- Without a zone, an IPv6 address is written with digits, colons and points. -/
theorem chars_of_hextetsFromString {addr : Text} {hextets : List (Fin 65536)}
    (hread : hextetsFromString addr = some hextets) :
    ∀ c ∈ addr, c = ':' ∨ c = '.' ∨ (hexDigit c).isSome := by
  unfold hextetsFromString at hread
  simp only at hread
  split at hread
  · cases hread
  next hshort =>
    rw [Option.bind_eq_bind, Option.bind_eq_some_iff] at hread
    obtain ⟨parts, hembed, hexpand⟩ := hread
    split at hexpand
    · cases hexpand
    next hlong =>
      have hparts : ∀ part ∈ addr.splitOn ':', ∀ c ∈ part, c = '.' ∨ (hexDigit c).isSome := by
        unfold embedIPv4 at hembed
        dsimp only at hembed
        split at hembed
        next =>
          rw [Option.map_eq_some_iff] at hembed
          obtain ⟨x, hx, rfl⟩ := hembed
          have hhex := isHexText_of_expand (by
            simp [IPv4Address.hextets]) hexpand
          intro part hpart c hc
          have hne : addr.splitOn ':' ≠ [] := List.splitOn_ne_nil _ _
          rw [← List.dropLast_append_getLast hne] at hpart
          obtain hpart | hpart := List.mem_append.mp hpart
          · exact .inr (hhex part (List.mem_append_left _ hpart) c hc)
          · rw [List.mem_singleton.mp hpart] at hc
            rw [List.getLastD_eq_getLast?, List.getLast?_eq_some_getLast hne,
              Option.getD_some] at hx
            obtain h | h := isDigit_of_parseIPv4 hx c hc
            · exact .inl h
            · exact .inr (hexDigit_of_isDigit h)
        next =>
          cases hembed
          have hhex := isHexText_of_expand (by omega) hexpand
          exact fun part hpart c hc => .inr (hhex part hpart c hc)
      intro c hc
      rw [← @List.intercalate_splitOn _ addr _ _ ':'] at hc
      by_cases hcolon : c = ':'
      · exact .inl hcolon
      · obtain ⟨part, hpart, hmem⟩ := mem_of_mem_intercalate hc hcolon
        exact .inr (hparts part hpart c hmem)

/-- A character that no address is written with can only be in a zone. -/
theorem scope_of_mem {text : Text} {address : Address} {c : Char}
    (hparse : ipAddress text = some address) (hc : c ∈ text) (hcolon : c ≠ ':') (hpoint : c ≠ '.')
    (hdigit : hexDigit c = none) :
    ∃ x, address = .v6 x ∧ x.scope ≠ none := by
  have hdecimal : c.isDigit = false := by
    by_contra h
    have hsome := hexDigit_of_isDigit (Bool.not_eq_false _ ▸ h)
    simp [hdigit] at hsome
  unfold ipAddress at hparse
  rw [parseIPv4_eq_none hc hpoint hdecimal] at hparse
  obtain ⟨x, hx, rfl⟩ := Option.map_eq_some_iff.mp hparse
  refine ⟨x, rfl, fun hnone => ?_⟩
  unfold parseIPv6 at hx
  split at hx
  · cases hx
  · simp only [Option.bind_eq_bind, Option.bind_eq_some_iff] at hx
    obtain ⟨⟨addr, scope⟩, hsplit, hextets, hread, hx⟩ := hx
    split at hx
    next =>
      cases hx
      obtain rfl : scope = none := hnone
      unfold splitScopeId at hsplit
      cases hdrop : text.dropWhile (· != '%') with
      | nil =>
          have hpartition : partition '%' text = (text, none) := by
            unfold partition
            rw [hdrop]
          rw [hpartition] at hsplit
          cases hsplit
          obtain h | h | h := chars_of_hextetsFromString hread c hc
          · exact hcolon h
          · exact hpoint h
          · simp [hdigit] at h
      | cons d rest =>
          have hpartition : partition '%' text = (text.takeWhile (· != '%'), some rest) := by
            unfold partition
            rw [hdrop]
          rw [hpartition] at hsplit
          obtain ⟨_, -, h⟩ := Option.map_eq_some_iff.mp hsplit
          cases h
    next => cases hx

end Justup.Net
