import Mathlib.Data.List.Sort
import Mathlib.Data.Prod.Lex
import Justup.Lib.Spans
import Justup.Restore.Releases

/-!
# Status code specifications

Which response codes of an HTTP check count as UP.  A specification is split into
tokens, each token is read as a range of codes and the ranges are merged.  As in
the comparison of releases the value of a decimal digit is a parameter.
-/

namespace Justup.Net.HttpStatus

open Justup.Lib.Spans Justup.Store Justup.Restore

/-! ## The model -/

/-- `MAX_TOKENS` -/
def maxTokens : ℕ := 50

/-- A character of `[,\s]`. -/
def isSeparator (c : Char) : Bool := c == ',' || isSpace c

/-- The pieces of `_TOKEN_SPLIT_RE.split` that are not empty. -/
def tokens (spec : Text) : List Text := (spec.splitOnP isSeparator).filter fun t => !t.isEmpty

/-- `x` under `re.IGNORECASE`. -/
def isX (c : Char) : Bool := c == 'x' || c == 'X'

/-- A character of `[1-5]` and its value. -/
def classDigit (c : Char) : Option ℕ :=
  if '1' ≤ c ∧ c ≤ '5' then some (c.toNat - '0'.toNat) else none

/-- `_CLASS_RANGE_RE.match` -/
def classRangeRe : Text → Option (ℕ × ℕ)
  | [a, x₁, x₂, '-', b, x₃, x₄] =>
      if isX x₁ && isX x₂ && isX x₃ && isX x₄ then do
        let a ← classDigit a
        let b ← classDigit b
        some (a, b)
      else none
  | _ => none

/-- `_CLASS_RE.match` -/
def classRe : Text → Option ℕ
  | [a, x₁, x₂] => if isX x₁ && isX x₂ then classDigit a else none
  | _ => none

/-- `_NUM_RE.match` and `int` of its group. -/
def numRe (decimal : Decimal) (t : Text) : Option ℕ :=
  if t.length = 3 ∧ t.all decimal.isDigit then some (decimal.numberOf t) else none

/-- `_NUM_RANGE_RE.match` and `int` of its groups. -/
def numRangeRe (decimal : Decimal) (t : Text) : Option (ℕ × ℕ) :=
  if t.length = 7 ∧ t[3]? = some '-' then do
    let start ← numRe decimal (t.take 3)
    let stop ← numRe decimal (t.drop 4)
    some (start, stop)
  else none

/-- The text of a `ValueError`. -/
abbrev Message := String

def invalid (what : String) (t : Text) : Message := what ++ ": " ++ String.ofList t

/-- One turn of the loop over the tokens. -/
def readToken (decimal : Decimal) (t : Text) : Except Message Span :=
  match classRangeRe t with
  | some (a, b) =>
      if a > b then .error (invalid "invalid class range" t) else .ok (a * 100, b * 100 + 99)
  | none =>
      match classRe t with
      | some a => .ok (a * 100, a * 100 + 99)
      | none =>
          match numRangeRe decimal t with
          | some (start, stop) =>
              if start > stop then .error (invalid "invalid range" t)
              else if start < 100 ∨ stop > 599 then
                .error (invalid "status code out of range" t)
              else .ok (start, stop)
          | none =>
              match numRe decimal t with
              | some code =>
                  if code < 100 ∨ code > 599 then
                    .error (invalid "status code out of range" (toString code).toList)
                  else .ok (code, code)
              | none => .error (invalid "invalid token" t)

/-- `_merge_ranges` -/
def mergeRanges (ranges : List Span) : Except Message (List Span) :=
  if ranges = [] then .error "no codes specified"
  else .ok (merge (ranges.insertionSort fun r s => toLex r ≤ toLex s))

/-- `parse_status_code_spec`; the cache returns what was computed for the same text. -/
def parseStatusCodeSpec (decimal : Decimal) (spec : Text) : Except Message (List Span) :=
  let spec := strip spec
  if spec = [] then .error "empty spec"
  else if (tokens spec).length > maxTokens then
    .error ("too many tokens (" ++ toString (tokens spec).length ++ " > " ++ toString maxTokens ++ ")")
  else do
    let ranges ← (tokens spec).mapM (readToken decimal)
    mergeRanges ranges

/-- `is_status_code_allowed` for an integer. -/
def isStatusCodeAllowed (decimal : Decimal) (code : ℤ) (spec : Text) : Except Message Bool := do
  let ranges ← parseStatusCodeSpec decimal spec
  return ranges.any fun (start, stop) => start ≤ code ∧ code ≤ stop

/-! ## What a token says -/

/-- Three digits and their number. -/
def CodeText (decimal : Decimal) (t : Text) (n : ℕ) : Prop :=
  (t.length = 3 ∧ t.all decimal.isDigit = true) ∧ decimal.numberOf t = n

/-- A digit from 1 to 5 before two letters x. -/
def ClassText (t : Text) (k : ℕ) : Prop :=
  ∃ d x y, t = [d, x, y] ∧ isX x = true ∧ isX y = true ∧ classDigit d = some k

/-- The first and the last code that a token admits. -/
inductive Denotes (decimal : Decimal) : Text → Span → Prop where
  | code {t : Text} {n : ℕ} (ht : CodeText decimal t n) (hlow : 100 ≤ n) (hhigh : n ≤ 599) :
      Denotes decimal t (n, n)
  | codeClass {t : Text} {k : ℕ} (ht : ClassText t k) : Denotes decimal t (k * 100, k * 100 + 99)
  | codeRange {s t : Text} {m n : ℕ} (hs : CodeText decimal s m) (ht : CodeText decimal t n)
      (hlow : 100 ≤ m) (hmn : m ≤ n) (hhigh : n ≤ 599) : Denotes decimal (s ++ '-' :: t) (m, n)
  | classRange {s t : Text} {j k : ℕ} (hs : ClassText s j) (ht : ClassText t k) (hjk : j ≤ k) :
      Denotes decimal (s ++ '-' :: t) (j * 100, k * 100 + 99)

variable {decimal : Decimal} {t : Text}

theorem numRe_eq_some {n : ℕ} : numRe decimal t = some n ↔ CodeText decimal t n := by
  unfold numRe CodeText
  split_ifs with hdigits
  · rw [Option.some_inj]
    exact ⟨fun h => ⟨hdigits, h⟩, fun h => h.2⟩
  · exact iff_of_false (fun h => nomatch h) fun h => hdigits h.1

theorem classRe_eq_some {k : ℕ} : classRe t = some k ↔ ClassText t k := by
  unfold classRe
  constructor
  · intro hclass
    split at hclass
    next d x y =>
      split_ifs at hclass with hx
      rw [Bool.and_eq_true] at hx
      exact ⟨d, x, y, rfl, hx.1, hx.2, hclass⟩
    next => cases hclass
  · rintro ⟨d, x, y, rfl, hx, hy, hd⟩
    simp [hx, hy, hd]

theorem ClassText.length_eq {k : ℕ} (h : ClassText t k) : t.length = 3 := by
  obtain ⟨d, x, y, rfl, -⟩ := h
  rfl

theorem classRangeRe_eq_some {j k : ℕ} : classRangeRe t = some (j, k) ↔
    ∃ s u, t = s ++ '-' :: u ∧ ClassText s j ∧ ClassText u k := by
  unfold classRangeRe
  constructor
  · intro hrange
    split at hrange
    next a x₁ x₂ b x₃ x₄ =>
      split_ifs at hrange with hx
      simp only [Bool.and_eq_true] at hx
      obtain ⟨⟨⟨hx₁, hx₂⟩, hx₃⟩, hx₄⟩ := hx
      rw [Option.bind_eq_bind, Option.bind_eq_some_iff] at hrange
      obtain ⟨first, hfirst, hrange⟩ := hrange
      obtain ⟨last, hlast, heq⟩ := Option.bind_eq_some_iff.mp hrange
      obtain ⟨rfl, rfl⟩ := Prod.mk.inj (Option.some.inj heq)
      exact ⟨[a, x₁, x₂], [b, x₃, x₄], rfl, ⟨a, x₁, x₂, rfl, hx₁, hx₂, hfirst⟩,
        ⟨b, x₃, x₄, rfl, hx₃, hx₄, hlast⟩⟩
    next => cases hrange
  · rintro ⟨_, _, rfl, ⟨a, x₁, x₂, rfl, hx₁, hx₂, ha⟩, ⟨b, x₃, x₄, rfl, hx₃, hx₄, hb⟩⟩
    simp [hx₁, hx₂, hx₃, hx₄, ha, hb]

theorem numRangeRe_eq_some {m n : ℕ} : numRangeRe decimal t = some (m, n) ↔
    ∃ s u, t = s ++ '-' :: u ∧ CodeText decimal s m ∧ CodeText decimal u n := by
  unfold numRangeRe
  constructor
  · intro hrange
    split_ifs at hrange with hshape
    rw [Option.bind_eq_bind, Option.bind_eq_some_iff] at hrange
    obtain ⟨start, hstart, hrange⟩ := hrange
    obtain ⟨stop, hstop, heq⟩ := Option.bind_eq_some_iff.mp hrange
    obtain ⟨rfl, rfl⟩ := Prod.mk.inj (Option.some.inj heq)
    refine ⟨t.take 3, t.drop 4, ?_, numRe_eq_some.mp hstart, numRe_eq_some.mp hstop⟩
    obtain ⟨hlt, hdash⟩ := List.getElem?_eq_some_iff.mp hshape.2
    rw [← hdash, List.getElem_cons_drop, List.take_append_drop]
  · rintro ⟨s, u, rfl, hs, hu⟩
    have hlength := hs.1.1
    have hdash : (s ++ '-' :: u)[3]? = some '-' := by
      rw [List.getElem?_append_right (by omega), hlength]
      rfl
    have htake : (s ++ '-' :: u).take 3 = s := List.take_left' hlength
    have hdrop : (s ++ '-' :: u).drop 4 = u := by
      rw [List.append_cons, List.drop_left' (by simp [hlength])]
    have hwhole : (s ++ '-' :: u).length = 7 := by
      rw [List.length_append, List.length_cons, hlength, hu.1.1]
    rw [if_pos ⟨hwhole, hdash⟩, htake, hdrop, numRe_eq_some.mpr hs, numRe_eq_some.mpr hu]
    rfl

/-- No digit is an x. -/
theorem CodeText.not_classText {n k : ℕ} (hcode : CodeText decimal t n) : ¬ClassText t k := by
  rintro ⟨d, x, y, rfl, hx, -, -⟩
  have hdigit : decimal.isDigit x = true := by
    have hall := hcode.1.2
    simp only [List.all_cons, Bool.and_eq_true] at hall
    exact hall.2.1
  have hascii : x = 'x' ∨ x = 'X' := by simpa [isX] using hx
  rcases hascii with rfl | rfl
  · rw [Decimal.isDigit, decimal.ascii _ (by decide)] at hdigit
    cases hdigit
  · rw [Decimal.isDigit, decimal.ascii _ (by decide)] at hdigit
    cases hdigit

theorem classRe_of_codeText {n : ℕ} (hcode : CodeText decimal t n) : classRe t = none := by
  cases hclass : classRe t with
  | none => rfl
  | some k => exact absurd (classRe_eq_some.mp hclass) hcode.not_classText

/-- A range is longer than a single code or class. -/
theorem classRangeRe_of_length (hlength : t.length = 3) : classRangeRe t = none := by
  cases hrange : classRangeRe t with
  | none => rfl
  | some range =>
      obtain ⟨s, u, rfl, hs, hu⟩ := classRangeRe_eq_some.mp hrange
      have hboth := hs.length_eq
      simp [hboth] at hlength

theorem numRangeRe_of_length (hlength : t.length = 3) : numRangeRe decimal t = none := by
  rw [numRangeRe, if_neg (by omega)]

theorem classRe_of_length (hlength : t.length = 7) : classRe t = none := by
  cases hclass : classRe t with
  | none => rfl
  | some k =>
      have hshort := (classRe_eq_some.mp hclass).length_eq
      omega

theorem classRangeRe_of_code {s : Text} {m : ℕ} (hs : CodeText decimal s m) (u : Text) :
    classRangeRe (s ++ '-' :: u) = none := by
  cases hrange : classRangeRe (s ++ '-' :: u) with
  | none => rfl
  | some range =>
      obtain ⟨s', u', heq, hs', -⟩ := classRangeRe_eq_some.mp hrange
      obtain ⟨rfl, -⟩ := List.append_inj heq (hs.1.1.trans hs'.length_eq.symm)
      exact absurd hs' hs.not_classText

theorem readToken_eq_ok_iff {span : Span} :
    readToken decimal t = .ok span ↔ Denotes decimal t span := by
  constructor
  · intro hread
    unfold readToken at hread
    split at hread
    next a b hrange =>
      obtain ⟨s, u, rfl, hs, hu⟩ := classRangeRe_eq_some.mp hrange
      split_ifs at hread with hlt
      obtain rfl := Except.ok.inj hread
      exact .classRange hs hu (Nat.le_of_not_lt hlt)
    next =>
      split at hread
      next a hclass =>
        obtain rfl := Except.ok.inj hread
        exact .codeClass (classRe_eq_some.mp hclass)
      next =>
        split at hread
        next start stop hrange =>
          obtain ⟨s, u, rfl, hs, hu⟩ := numRangeRe_eq_some.mp hrange
          split_ifs at hread with hlt hbounds
          obtain rfl := Except.ok.inj hread
          exact .codeRange hs hu (by omega) (by omega) (by omega)
        next =>
          split at hread
          next code hcode =>
            split_ifs at hread with hbounds
            obtain rfl := Except.ok.inj hread
            exact .code (numRe_eq_some.mp hcode) (by omega) (by omega)
          next => cases hread
  · intro hdenotes
    unfold readToken
    cases hdenotes with
    | @code _ n ht hlow hhigh =>
        simp only [classRangeRe_of_length ht.1.1, classRe_of_codeText ht,
          numRangeRe_of_length ht.1.1, numRe_eq_some.mpr ht]
        rw [if_neg (by omega)]
    | codeClass ht => simp only [classRangeRe_of_length ht.length_eq, classRe_eq_some.mpr ht]
    | codeRange hs ht hlow hmn hhigh =>
        have hlength : ∀ {s u : Text}, s.length = 3 → u.length = 3 → (s ++ '-' :: u).length = 7 := by
          intro s u hs hu
          rw [List.length_append, List.length_cons, hs, hu]
        simp only [classRangeRe_of_code hs, classRe_of_length (hlength hs.1.1 ht.1.1),
          numRangeRe_eq_some.mpr ⟨_, _, rfl, hs, ht⟩]
        rw [if_neg (by omega), if_neg (by omega)]
    | classRange hs ht hjk =>
        simp only [classRangeRe_eq_some.mpr ⟨_, _, rfl, hs, ht⟩]
        rw [if_neg (by omega)]

theorem Denotes.le {span : Span} (h : Denotes decimal t span) : span.1 ≤ span.2 := by
  cases h with
  | code => exact le_rfl
  | codeClass => omega
  | codeRange _ _ _ hmn _ => exact Int.ofNat_le.mpr hmn
  | classRange _ _ hjk => omega

/-! ## Tokens -/

@[simp]
theorem tokens_nil : tokens [] = [] := rfl

theorem tokens_append {c : Char} (hc : isSeparator c = true) (front back : Text) :
    tokens (front ++ c :: back) = tokens front ++ tokens back := by
  rw [tokens, List.splitOnP_append_cons _ _ hc, List.filter_append, tokens, tokens]

theorem isSeparator_of_isSpace {c : Char} (hc : isSpace c = true) : isSeparator c = true := by
  rw [isSeparator, hc, Bool.or_true]

theorem tokens_dropWhile (text : Text) : tokens (text.dropWhile isSpace) = tokens text := by
  induction text with
  | nil => rfl
  | cons c rest ih =>
      by_cases hc : isSpace c = true
      · have hsplit := tokens_append (isSeparator_of_isSpace hc) [] rest
        rw [List.dropWhile_cons_of_pos hc, ih]
        simpa using hsplit.symm
      · rw [List.dropWhile_cons_of_neg hc]

theorem tokens_rdropWhile (text : Text) : tokens (text.rdropWhile isSpace) = tokens text := by
  induction text using List.reverseRecOn with
  | nil => rfl
  | append_singleton front c ih =>
      by_cases hc : isSpace c = true
      · have hsplit := tokens_append (isSeparator_of_isSpace hc) front []
        rw [List.rdropWhile_concat_pos _ _ _ hc, ih, hsplit, tokens_nil, List.append_nil]
      · rw [List.rdropWhile_concat_neg _ _ _ hc]

/-- White space at the ends separates nothing. -/
theorem tokens_strip (text : Text) : tokens (strip text) = tokens text := by
  rw [strip, tokens_rdropWhile, tokens_dropWhile]

/-! ## Parsing -/

theorem mapM_readToken_eq_ok_iff {ts : List Text} {spans : List Span} :
    ts.mapM (readToken decimal) = .ok spans ↔ List.Forall₂ (Denotes decimal) ts spans := by
  induction ts generalizing spans with
  | nil =>
      rw [List.mapM_nil, List.forall₂_nil_left_iff]
      exact ⟨fun h => (Except.ok.inj h).symm, fun h => h ▸ rfl⟩
  | cons t ts ih =>
      rw [List.mapM_cons, List.forall₂_cons_left_iff]
      constructor
      · intro hread
        cases hfirst : readToken decimal t with
        | error message =>
            rw [hfirst] at hread
            cases hread
        | ok span =>
            cases hrest : ts.mapM (readToken decimal) with
            | error message =>
                rw [hfirst, hrest] at hread
                cases hread
            | ok others =>
                rw [hfirst, hrest] at hread
                exact ⟨span, others, readToken_eq_ok_iff.mp hfirst, ih.mp hrest,
                  (Except.ok.inj hread).symm⟩
      · rintro ⟨span, others, hfirst, hrest, rfl⟩
        rw [readToken_eq_ok_iff.mpr hfirst, ih.mpr hrest]
        rfl

/-- The ranges in the order in which they are merged. -/
def inOrder (ranges : List Span) : List Span := ranges.insertionSort fun r s => toLex r ≤ toLex s

theorem inOrder_perm (ranges : List Span) : (inOrder ranges).Perm ranges :=
  List.perm_insertionSort _ _

theorem inOrder_pairwise (ranges : List Span) :
    (inOrder ranges).Pairwise fun r s => r.1 ≤ s.1 := by
  have htotal : Std.Total fun r s : Span => toLex r ≤ toLex s :=
    ⟨fun r s => le_total (toLex r) (toLex s)⟩
  have htrans : IsTrans Span fun r s => toLex r ≤ toLex s := ⟨fun _ _ _ h h' => h.trans h'⟩
  refine (List.pairwise_insertionSort _ ranges).imp fun hle => ?_
  rcases Prod.Lex.toLex_le_toLex.mp hle with hlt | ⟨heq, -⟩
  · exact hlt.le
  · exact heq.le

/-- What a specification that is read comes to. -/
structure Parsed (decimal : Decimal) (spec : Text) (ranges : List Span) : Prop where
  separated : Separated ranges
  covers : ∀ c, Covers ranges c ↔ ∃ t ∈ tokens spec, ∃ span, Denotes decimal t span ∧ span.Contains c

theorem covers_of_forall₂ {ts : List Text} {spans : List Span}
    (h : List.Forall₂ (Denotes decimal) ts spans) (c : ℤ) :
    Covers spans c ↔ ∃ t ∈ ts, ∃ span, Denotes decimal t span ∧ span.Contains c := by
  induction h with
  | nil => simp [Covers]
  | @cons t span ts spans hfirst _ ih =>
      have hunique : ∀ other, Denotes decimal t other → other = span := fun other hother =>
        Except.ok.inj ((readToken_eq_ok_iff.mpr hother).symm.trans (readToken_eq_ok_iff.mpr hfirst))
      rw [covers_cons, ih, List.exists_mem_cons_iff]
      refine or_congr_left ⟨fun hc => ⟨span, hfirst, hc⟩, ?_⟩
      rintro ⟨other, hother, hc⟩
      exact hunique other hother ▸ hc

theorem parsed_merge {spec : Text} {spans : List Span}
    (h : List.Forall₂ (Denotes decimal) (tokens spec) spans) :
    Parsed decimal spec (merge (inOrder spans)) := by
  have hle : ∀ span ∈ inOrder spans, span.1 ≤ span.2 := by
    intro span hspan
    obtain ⟨i, hi, rfl⟩ := List.mem_iff_getElem.mp ((inOrder_perm spans).mem_iff.mp hspan)
    have hi' : i < (tokens spec).length := h.length_eq ▸ hi
    exact (h.get hi' hi).le
  have hmerged := merged_merge hle (inOrder_pairwise spans)
  refine ⟨hmerged.separated, fun c => ?_⟩
  rw [hmerged.covers, ← covers_of_forall₂ h]
  simp only [Covers, (inOrder_perm spans).mem_iff]

theorem parse_eq_ok_iff {spec : Text} {ranges : List Span} :
    parseStatusCodeSpec decimal spec = .ok ranges ↔
      tokens spec ≠ [] ∧ (tokens spec).length ≤ maxTokens ∧
        ∃ spans, List.Forall₂ (Denotes decimal) (tokens spec) spans ∧
          ranges = merge (inOrder spans) := by
  have hstrip := tokens_strip spec
  unfold parseStatusCodeSpec
  dsimp only
  rw [hstrip]
  split_ifs with hempty hmany
  · refine iff_of_false (fun h => nomatch h) fun h => h.1 ?_
    rw [← hstrip, hempty, tokens_nil]
  · exact iff_of_false (fun h => nomatch h) fun h => absurd h.2.1 (not_le.mpr hmany)
  · constructor
    · intro hread
      cases hspans : (tokens spec).mapM (readToken decimal) with
      | error message =>
          rw [hspans] at hread
          cases hread
      | ok spans =>
          have hforall := mapM_readToken_eq_ok_iff.mp hspans
          rw [hspans] at hread
          have hmerge : mergeRanges spans = .ok ranges := hread
          unfold mergeRanges at hmerge
          split_ifs at hmerge with hnil
          refine ⟨fun htokens => hnil ?_, not_lt.mp hmany, spans, hforall,
            (Except.ok.inj hmerge).symm⟩
          rw [htokens] at hforall
          exact List.forall₂_nil_left_iff.mp hforall
    · rintro ⟨hne, -, spans, hforall, rfl⟩
      have hnil : spans ≠ [] := by
        rintro rfl
        exact hne (List.forall₂_nil_right_iff.mp hforall)
      rw [mapM_readToken_eq_ok_iff.mpr hforall]
      show mergeRanges spans = _
      rw [mergeRanges, if_neg hnil, inOrder]

theorem exists_forall₂_iff {ts : List Text} :
    (∃ spans, List.Forall₂ (Denotes decimal) ts spans) ↔ ∀ t ∈ ts, ∃ span, Denotes decimal t span := by
  induction ts with
  | nil => exact ⟨fun _ t ht => absurd ht List.not_mem_nil, fun _ => ⟨[], .nil⟩⟩
  | cons t ts ih =>
      rw [List.forall_mem_cons, ← ih]
      constructor
      · rintro ⟨_, hspans⟩
        cases hspans with
        | cons hfirst hrest => exact ⟨⟨_, hfirst⟩, _, hrest⟩
      · rintro ⟨⟨span, hfirst⟩, spans, hrest⟩
        exact ⟨span :: spans, .cons hfirst hrest⟩

theorem parsed_of_ok {spec : Text} {ranges : List Span}
    (h : parseStatusCodeSpec decimal spec = .ok ranges) : Parsed decimal spec ranges := by
  obtain ⟨-, -, spans, hspans, rfl⟩ := parse_eq_ok_iff.mp h
  exact parsed_merge hspans

theorem parses_iff (decimal : Decimal) (spec : Text) :
    (∃ ranges, parseStatusCodeSpec decimal spec = .ok ranges) ↔
      1 ≤ (tokens spec).length ∧ (tokens spec).length ≤ maxTokens ∧
        ∀ t ∈ tokens spec, ∃ span, Denotes decimal t span := by
  simp only [parse_eq_ok_iff, ← exists_forall₂_iff]
  constructor
  · rintro ⟨_, hne, hmany, spans, hspans, -⟩
    exact ⟨List.length_pos_iff.mpr hne, hmany, spans, hspans⟩
  · rintro ⟨hne, hmany, spans, hspans⟩
    exact ⟨_, List.length_pos_iff.mp hne, hmany, spans, hspans, rfl⟩

theorem isStatusCodeAllowed_of_ok {spec : Text} {ranges : List Span}
    (h : parseStatusCodeSpec decimal spec = .ok ranges) (code : ℤ) :
    ∃ allowed, isStatusCodeAllowed decimal code spec = .ok allowed ∧
      (allowed = true ↔ Covers ranges code) := by
  refine ⟨ranges.any fun (start, stop) => start ≤ code ∧ code ≤ stop, ?_, ?_⟩
  · rw [isStatusCodeAllowed, h]
    rfl
  · rw [List.any_eq_true]
    simp only [Covers, Span.Contains, decide_eq_true_eq]

/-- A specification is read exactly when it has 1 to `MAX_TOKENS` tokens that each denote a
range of codes; its ranges are separated, a code is allowed exactly when a token admits it, and
only the set of the tokens counts. -/
theorem specifications_mean_their_tokens (decimal : Decimal) (spec : Text) :
    ((∃ ranges, parseStatusCodeSpec decimal spec = .ok ranges) ↔
      1 ≤ (tokens spec).length ∧ (tokens spec).length ≤ maxTokens ∧
        ∀ t ∈ tokens spec, ∃ span, Denotes decimal t span) ∧
    ∀ ranges, parseStatusCodeSpec decimal spec = .ok ranges →
      Separated ranges ∧
      (∀ code, ∃ allowed, isStatusCodeAllowed decimal code spec = .ok allowed ∧
        (allowed = true ↔
          ∃ t ∈ tokens spec, ∃ span, Denotes decimal t span ∧ span.Contains code)) ∧
      ∀ other, (∀ t, t ∈ tokens other ↔ t ∈ tokens spec) → (tokens other).length ≤ maxTokens →
        parseStatusCodeSpec decimal other = .ok ranges := by
  refine ⟨parses_iff decimal spec, fun ranges hranges => ?_⟩
  have hparsed := parsed_of_ok hranges
  refine ⟨hparsed.separated, fun code => ?_, fun other hsame hmany => ?_⟩
  · obtain ⟨allowed, hallowed, hcovers⟩ := isStatusCodeAllowed_of_ok hranges code
    exact ⟨allowed, hallowed, hcovers.trans (hparsed.covers code)⟩
  · obtain ⟨hpos, -, hdenotes⟩ := (parses_iff decimal spec).mp ⟨ranges, hranges⟩
    obtain ⟨t, ht⟩ := List.exists_mem_of_length_pos hpos
    obtain ⟨ranges', hranges'⟩ := (parses_iff decimal other).mpr
      ⟨List.length_pos_of_mem ((hsame t).mpr ht), hmany, fun t ht => hdenotes t ((hsame t).mp ht)⟩
    have hparsed' := parsed_of_ok hranges'
    rw [hranges', hparsed'.separated.eq_of_covers hparsed.separated fun c => by
      rw [hparsed'.covers, hparsed.covers]
      simp only [hsame]]

/-- `"2xx, 204-302\n404"` and its tokens in another order, one of them twice. -/
theorem specifications_mean_their_tokens_overlapping :
    parseStatusCodeSpec asciiDecimal "2xx, 204-302\n404".toList = .ok [(200, 302), (404, 404)] ∧
      parseStatusCodeSpec asciiDecimal "404,2xx,204-302,404".toList =
        .ok [(200, 302), (404, 404)] := by
  have hspec : parseStatusCodeSpec asciiDecimal "2xx, 204-302\n404".toList =
      .ok [(200, 302), (404, 404)] := by decide +kernel
  refine ⟨hspec, ?_⟩
  refine ((specifications_mean_their_tokens asciiDecimal _).2 _ hspec).2.2 _ (fun t => ?_)
    (by decide +kernel)
  have htokens : tokens "2xx, 204-302\n404".toList =
      ["2xx".toList, "204-302".toList, "404".toList] := by decide +kernel
  have htokens' : tokens "404,2xx,204-302,404".toList =
      ["404".toList, "2xx".toList, "204-302".toList, "404".toList] := by decide +kernel
  rw [htokens, htokens']
  simp only [List.mem_cons, List.not_mem_nil, or_false]
  tauto

end Justup.Net.HttpStatus
