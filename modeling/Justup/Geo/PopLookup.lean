import Mathlib.Data.Char
import Mathlib.Data.List.DropRight
import Mathlib.Data.List.Lex
import Mathlib.Data.Prod.Lex
import Justup.Lib.Labels
import Justup.Lib.Ranking
import Justup.Store.Line

/-!
# Looking a hostname up among the POP locations

The lookup by hostname asks an index for the prefixes of the labels.  It finds
what a scan of the table finds.  Lower case and the rounding of coordinates are
parameters.
-/

namespace Justup.Geo.PopLookup

open Justup.Lib Store

/-! ## The texts of SQLite -/

/-- `LIKE` reads a text up to the first NUL. -/
def cString (text : Text) : Text := text.takeWhile (· ≠ '\x00')

/-- `LIKE` does not distinguish the case of ASCII letters. -/
def foldCase (c : Char) : Char := if c.isUpper then c.toLower else c

def likePattern : Text → Text → Bool
  | [], text => text.isEmpty
  | c :: pattern, text =>
      if c = '%' then text.tails.any (likePattern pattern)
      else
        match text with
        | [] => false
        | d :: rest => (decide (c = '_') || decide (foldCase c = foldCase d)) &&
            likePattern pattern rest

/-- `text LIKE pattern`. -/
def like (text pattern : Text) : Bool := likePattern (cString pattern) (cString text)

/-- `instr`: where the first occurrence begins, from one; 0 when there is none. -/
def instr (text part : Text) : ℕ :=
  match text.tails.findIdx? part.isPrefixOf with
  | none => 0
  | some index => index + 1

/-! ## The model -/

/-- `str.lower`. -/
structure Lowercase where
  lower : Text → Text
  lower_nil : lower [] = []
  noUpper : ∀ text, ∀ c ∈ lower text, c.isUpper = false

structure PopRow (C : Type*) where
  canonicalCode : Text
  aliasCode : Text
  city : Text
  country : Text
  lat : Option C
  lon : Option C
  source : Text
  confidence : ℕ
  priority : ℕ
  retired : Bool

/-- A letter or digit of an alias. -/
def isAliasChar (c : Char) : Bool := c.isLower || c.isDigit

/-- `_MAX_ALIAS_LEN`. -/
def maxAliasLen : ℕ := 8

structure PopTable (C : Type*) where
  rows : List (PopRow C)
  unique : ∀ first ∈ rows, ∀ second ∈ rows, first.canonicalCode = second.canonicalCode →
    first.aliasCode = second.aliasCode → first = second
  alias_length : ∀ row ∈ rows, 1 ≤ row.aliasCode.length ∧ row.aliasCode.length ≤ maxAliasLen
  alias_chars : ∀ row ∈ rows, ∀ c ∈ row.aliasCode, isAliasChar c = true

inductive ConfidenceLabel where
  | high
  | medium
  | low
  deriving DecidableEq, Repr

/-- What the lookup returns. -/
structure Found (C : Type*) where
  canonicalCode : Text
  aliasCode : Text
  city : Text
  country : Text
  lat : Option C
  lon : Option C
  source : Text
  confidence : ConfidenceLabel
  priority : ℕ
  matchType : String
  deriving DecidableEq

/-- `_cl`. -/
def confidenceLabel (confidence : ℕ) : ConfidenceLabel :=
  if 100 ≤ confidence then .high else if 70 ≤ confidence then .medium else .low

section Lookup

variable {C : Type*} [DecidableEq C] (lowercase : Lowercase) (round4 : C → C)

def normalizePopCode (code : Text) : Text := strip (lowercase.lower code)

/-- `_n`. -/
def normalizeToken (code : Text) : Text :=
  if code = [] then [] else normalizePopCode lowercase code

/-- `_same_site`. -/
def sameSite (first second : PopRow C) : Bool :=
  if normalizeToken lowercase first.canonicalCode =
      normalizeToken lowercase second.canonicalCode then true
  else
    match first.lat, first.lon, second.lat, second.lon with
    | some lat, some lon, some lat', some lon' =>
        decide (round4 lat = round4 lat') && decide (round4 lon = round4 lon')
    | _, _, _, _ => false

/-- `_alias_candidates`, as a set. -/
def aliasCandidates (hostnamePad : Text) : List Text :=
  ((hostnamePad.splitOn '.').filter (· ≠ [])).flatMap fun label =>
    label :: (List.range' 1 (min label.length maxAliasLen)).map label.take

/-- `hostname_norm`. -/
def hostnameNorm (hostname : Text) : Text :=
  (((strip (lowercase.lower hostname)).dropWhile (· = '.')).rdropWhile (· = '.')).map fun c =>
    if c = '-' ∨ c = '_' then '.' else c

/-- `hostname_pad`. -/
def hostnamePad (hostname : Text) : Text := '.' :: (hostnameNorm lowercase hostname ++ ['.'])

/-- `alias_code GLOB '*[0-9]*'`. -/
def hasDigit (aliasCode : Text) : Bool := aliasCode.any Char.isDigit

/-- The condition on the alias in the `WHERE` clause. -/
def matchesHost (pad aliasCode : Text) : Bool :=
  like pad ('%' :: '.' :: (aliasCode ++ ['.', '%'])) ||
    hasDigit aliasCode && like pad ('%' :: '.' :: (aliasCode ++ ['%']))

def matchPos (pad aliasCode : Text) : ℕ :=
  if 0 < instr pad ('.' :: (aliasCode ++ ['.'])) then instr pad ('.' :: (aliasCode ++ ['.']))
  else instr pad ('.' :: aliasCode)

/-- The key of the `ORDER BY` clause. -/
def orderKey (pad : Text) (row : PopRow C) : ℕ ×ₗ ℤ ×ₗ ℕ ×ₗ ℤ :=
  toLex (matchPos pad row.aliasCode, toLex (-(row.aliasCode.length : ℤ),
    toLex (row.priority, -(row.confidence : ℤ))))

def orderBy (pad : Text) (rows : List (PopRow C)) : List (PopRow C) :=
  rows.insertionSort fun first second => orderKey pad first ≤ orderKey pad second

/-- `_rank`. -/
def rank (pad : Text) (row : PopRow C) : ℕ × ℕ × ℕ × ℕ :=
  (matchPos pad row.aliasCode, row.aliasCode.length, row.priority, row.confidence)

def PopRow.found (row : PopRow C) : Found C where
  canonicalCode := row.canonicalCode
  aliasCode := row.aliasCode
  city := row.city
  country := row.country
  lat := row.lat
  lon := row.lon
  source := row.source
  confidence := confidenceLabel row.confidence
  priority := row.priority
  matchType := "hostname"

/-- The key of `min`. -/
def PopRow.codes (row : PopRow C) : Text ×ₗ Text := toLex (row.canonicalCode, row.aliasCode)

/-- What `lkp_h` makes of the rows of its query. -/
def decideRow (pad : Text) : List (PopRow C) → Option (Found C)
  | [] => none
  | row :: rest =>
      let tied := (row :: rest).filter fun other => decide (rank pad other = rank pad row)
      if 1 < tied.length then
        if tied.all fun first => tied.all fun second => sameSite lowercase round4 first second then
          (tied.argmin PopRow.codes).map PopRow.found
        else none
      else some row.found

/-- `lkp_h`. -/
def lkpH (rows : List (PopRow C)) (hostname : Text) : Option (Found C) :=
  if hostname = [] then none
  else
    let pad := hostnamePad lowercase hostname
    let candidates := aliasCandidates pad
    if candidates = [] then none
    else decideRow lowercase round4 pad (orderBy pad (rows.filter fun row =>
      !row.retired && decide (row.aliasCode ∈ candidates) && matchesHost pad row.aliasCode))

/-- The active rows that match. -/
def matching (rows : List (PopRow C)) (hostname : Text) : List (PopRow C) :=
  rows.filter fun row => !row.retired && matchesHost (hostnamePad lowercase hostname) row.aliasCode

/-- The lookup by a scan of the table. -/
def scanH (rows : List (PopRow C)) (hostname : Text) : Option (Found C) :=
  decideRow lowercase round4 (hostnamePad lowercase hostname)
    (orderBy (hostnamePad lowercase hostname) (matching lowercase rows hostname))

end Lookup

/-! ## Matching texts -/

theorem likePattern_percent {pattern text : Text} : likePattern ('%' :: pattern) text = true ↔
    ∃ front back, text = front ++ back ∧ likePattern pattern back = true := by
  simp only [likePattern, if_true, List.any_eq_true, List.mem_tails]
  constructor
  · rintro ⟨back, ⟨front, rfl⟩, hback⟩
    exact ⟨front, back, rfl, hback⟩
  · rintro ⟨front, back, rfl, hback⟩
    exact ⟨back, ⟨front, rfl⟩, hback⟩

theorem likePattern_any (text : Text) : likePattern ['%'] text = true :=
  likePattern_percent.mpr ⟨text, [], (List.append_nil _).symm, rfl⟩

/-- A character of a pattern that stands for itself. -/
def Plain (c : Char) : Prop := c ≠ '%' ∧ c ≠ '_' ∧ c.isUpper = false

/-- A pattern that begins with plain characters matches texts that begin with them. -/
theorem likePattern_append {word pattern text : Text} (hword : ∀ c ∈ word, Plain c)
    (htext : ∀ c ∈ text, c.isUpper = false) : likePattern (word ++ pattern) text = true ↔
      ∃ back, text = word ++ back ∧ likePattern pattern back = true := by
  induction word generalizing text with
  | nil => simp
  | cons c word ih =>
      obtain ⟨hpercent, hany, hupper⟩ := hword c (List.mem_cons_self ..)
      have hrest := fun other hother => hword other (List.mem_cons_of_mem _ hother)
      rw [List.cons_append]
      cases text with
      | nil => simp [likePattern, hpercent]
      | cons d text =>
          have hfold : (foldCase c = foldCase d) = (c = d) := by
            simp [foldCase, hupper, htext d (List.mem_cons_self ..)]
          have htail := fun other hother => htext other (List.mem_cons_of_mem _ hother)
          simp only [likePattern, if_neg hpercent, hany, decide_false, Bool.false_or, hfold, Bool.and_eq_true, decide_eq_true_iff,
            ih hrest htail, List.cons_append, List.cons.injEq]
          constructor
          · rintro ⟨rfl, back, rfl, hback⟩
            exact ⟨back, ⟨rfl, rfl⟩, hback⟩
          · rintro ⟨back, ⟨rfl, rfl⟩, hback⟩
            exact ⟨rfl, back, rfl, hback⟩

theorem cString_append (text : Text) : ∃ rest, text = cString text ++ rest :=
  ⟨text.dropWhile (· ≠ '\x00'), List.takeWhile_append_dropWhile.symm⟩

theorem cString_eq {text : Text} (hnul : '\x00' ∉ text) : cString text = text :=
  List.takeWhile_eq_self_iff.mpr fun c hc => by
    have hne : c ≠ '\x00' := fun heq => hnul (heq ▸ hc)
    simpa using hne

/-- A text contains a word behind a dot. -/
theorem like_iff {text word : Text} (htext : ∀ c ∈ text, c.isUpper = false)
    (hword : ∀ c ∈ word, Plain c ∧ c ≠ '\x00') :
    like text ('%' :: '.' :: (word ++ ['%'])) = true ↔
      ∃ front back, cString text = front ++ '.' :: (word ++ back) := by
  have hpattern : cString ('%' :: '.' :: (word ++ ['%'])) = '%' :: '.' :: (word ++ ['%']) := by
    refine cString_eq fun hnul => ?_
    rcases List.mem_cons.mp hnul with h | h
    · exact absurd h (by decide)
    rcases List.mem_cons.mp h with h | h
    · exact absurd h (by decide)
    rcases List.mem_append.mp h with h | h
    · exact (hword _ h).2 rfl
    · exact absurd h (by decide)
  have hupper : ∀ c ∈ cString text, c.isUpper = false := fun c hc =>
    htext c (List.takeWhile_subset _ hc)
  have hplain : ∀ c ∈ '.' :: word, Plain c := by
    rintro c (_ | ⟨_, hc⟩)
    · exact ⟨by decide, by decide, by decide⟩
    · exact (hword c hc).1
  rw [like, hpattern, likePattern_percent]
  constructor
  · rintro ⟨front, back, hsplit, hback⟩
    have hbackUpper : ∀ c ∈ back, c.isUpper = false := fun c hc =>
      hupper c (hsplit ▸ List.mem_append_right _ hc)
    obtain ⟨rest, rfl, -⟩ := (likePattern_append hplain hbackUpper).mp hback
    exact ⟨front, rest, hsplit⟩
  · rintro ⟨front, back, hsplit⟩
    have hbackUpper : ∀ c ∈ '.' :: (word ++ back), c.isUpper = false := fun c hc =>
      hupper c (hsplit ▸ List.mem_append_right _ hc)
    exact ⟨front, '.' :: (word ++ back), hsplit,
      (likePattern_append hplain hbackUpper).mpr ⟨back, rfl, likePattern_any back⟩⟩

/-! ## Candidates -/

theorem isAliasChar_plain {c : Char} (hchar : isAliasChar c = true) :
    (Plain c ∧ c ≠ '\x00') ∧ c ≠ '.' := by
  have hmarks : isAliasChar '%' = false ∧ isAliasChar '_' = false ∧ isAliasChar '\x00' = false ∧
      isAliasChar '.' = false := by decide
  have hne : ∀ {d : Char}, isAliasChar d = false → c ≠ d := by
    rintro d hd rfl
    simp [hchar] at hd
  refine ⟨⟨⟨hne hmarks.1, hne hmarks.2.1, ?_⟩, hne hmarks.2.2.1⟩, hne hmarks.2.2.2⟩
  by_contra hupper
  have hlower : c.isLower = (decide ('a'.val ≤ c.val) && decide (c.val ≤ 'z'.val)) := rfl
  have hisUpper : c.isUpper = decide ('A'.val ≤ c.val ∧ c.val ≤ 'Z'.val) := rfl
  simp only [isAliasChar, Bool.or_eq_true, hlower, Char.isDigit, Bool.and_eq_true,
    decide_eq_true_eq, ge_iff_le, UInt32.le_iff_toNat_le] at hchar
  simp only [Bool.not_eq_false, hisUpper, decide_eq_true_eq, UInt32.le_iff_toNat_le] at hupper
  have hletters : 'a'.val.toNat = 97 ∧ 'A'.val.toNat = 65 ∧ 'Z'.val.toNat = 90 := ⟨rfl, rfl, rfl⟩
  have hnine : '9'.val.toNat = 57 := rfl
  omega

section Match

variable {lowercase : Lowercase} {hostname aliasCode pad : Text}

theorem noUpper_hostnamePad : ∀ c ∈ hostnamePad lowercase hostname, c.isUpper = false := by
  intro c hc
  rcases List.mem_cons.mp hc with rfl | hc
  · decide
  rcases List.mem_append.mp hc with hc | hc
  · obtain ⟨d, hd, rfl⟩ := List.mem_map.mp hc
    split_ifs
    · decide
    · have hinner := (List.dropWhile_sublist _).subset ((List.rdropWhile_prefix _ _).subset hd)
      have hstripped := (List.dropWhile_sublist _).subset
        ((List.rdropWhile_prefix _ _).subset hinner)
      exact lowercase.noUpper hostname d hstripped
  · rw [List.mem_singleton.mp hc]
    decide

/-- The condition of the query, by what the text contains behind a dot. -/
theorem matchesHost_iff (hpad : ∀ c ∈ pad, c.isUpper = false)
    (halias : ∀ c ∈ aliasCode, isAliasChar c = true) : matchesHost pad aliasCode = true ↔
      (∃ front back, cString pad = front ++ '.' :: (aliasCode ++ '.' :: back)) ∨
        hasDigit aliasCode = true ∧
          ∃ front back, cString pad = front ++ '.' :: (aliasCode ++ back) := by
  have hplain : ∀ c ∈ aliasCode, Plain c ∧ c ≠ '\x00' := fun c hc =>
    (isAliasChar_plain (halias c hc)).1
  have hdotted : ∀ c ∈ aliasCode ++ ['.'], Plain c ∧ c ≠ '\x00' := by
    intro c hc
    rcases List.mem_append.mp hc with hc | hc
    · exact hplain c hc
    · rw [List.mem_singleton.mp hc]
      exact ⟨⟨by decide, by decide, by decide⟩, by decide⟩
  have hpattern : aliasCode ++ ['.', '%'] = (aliasCode ++ ['.']) ++ ['%'] := by simp
  rw [matchesHost, Bool.or_eq_true, Bool.and_eq_true, hpattern, like_iff hpad hdotted,
    like_iff hpad hplain]
  simp only [List.append_assoc, List.cons_append, List.nil_append]

/-- The prefixes of a label are candidates. -/
theorem mem_aliasCandidates {label : Text} (hlabel : label ∈ pad.splitOn '.')
    (hbegins : aliasCode <+: label) (hmin : 1 ≤ aliasCode.length)
    (hmax : aliasCode.length ≤ maxAliasLen) : aliasCode ∈ aliasCandidates pad := by
  have hlength := hbegins.length_le
  have hne : label ≠ [] := by
    rintro rfl
    simp at hlength
    simp [hlength] at hmin
  refine List.mem_flatMap.mpr ⟨label, List.mem_filter.mpr ⟨hlabel, by simpa using hne⟩, ?_⟩
  refine List.mem_cons_of_mem _ (List.mem_map.mpr ⟨aliasCode.length, ?_, ?_⟩)
  · rw [List.mem_range'_1]
    omega
  · exact (List.prefix_iff_eq_take.mp hbegins).symm

/-- Every alias that matches is a candidate. -/
theorem mem_aliasCandidates_of_matchesHost (hpad : ∀ c ∈ pad, c.isUpper = false)
    (halias : ∀ c ∈ aliasCode, isAliasChar c = true) (hmin : 1 ≤ aliasCode.length)
    (hmax : aliasCode.length ≤ maxAliasLen) (hmatches : matchesHost pad aliasCode = true) :
    aliasCode ∈ aliasCandidates pad := by
  have hdot : '.' ∉ aliasCode := fun hdot => (isAliasChar_plain (halias _ hdot)).2 rfl
  have hafter : ∃ front back, pad = front ++ '.' :: (aliasCode ++ back) := by
    obtain ⟨rest, hrest⟩ := cString_append pad
    rcases (matchesHost_iff hpad halias).mp hmatches with
      ⟨front, back, hsplit⟩ | ⟨-, front, back, hsplit⟩
    · exact ⟨front, '.' :: back ++ rest, by rw [hrest, hsplit]; simp⟩
    · exact ⟨front, back ++ rest, by rw [hrest, hsplit]; simp⟩
  obtain ⟨front, back, hsplit⟩ := hafter
  obtain ⟨label, hlabel, hbegins⟩ := Labels.exists_mem_splitOn_of_after hdot front back
  exact mem_aliasCandidates (hsplit ▸ hlabel) hbegins hmin hmax

/-- What matches: a whole label, or with a digit the beginning of one. -/
theorem matchesHost_iff_label (hnul : '\x00' ∉ hostnameNorm lowercase hostname)
    (halias : ∀ c ∈ aliasCode, isAliasChar c = true) (hmin : 1 ≤ aliasCode.length) :
    matchesHost (hostnamePad lowercase hostname) aliasCode = true ↔
      aliasCode ∈ (hostnameNorm lowercase hostname).splitOn '.' ∨ hasDigit aliasCode = true ∧
        ∃ label ∈ (hostnameNorm lowercase hostname).splitOn '.', aliasCode <+: label := by
  have hdot : '.' ∉ aliasCode := fun hdot => (isAliasChar_plain (halias _ hdot)).2 rfl
  have hne : aliasCode ≠ [] := List.length_pos_iff.mp hmin
  have hwhole : cString (hostnamePad lowercase hostname) = hostnamePad lowercase hostname := by
    refine cString_eq fun hmem => ?_
    rcases List.mem_cons.mp hmem with h | h
    · exact absurd h (by decide)
    rcases List.mem_append.mp h with h | h
    · exact hnul h
    · exact absurd h (by decide)
  rw [matchesHost_iff noUpper_hostnamePad halias, hwhole]
  refine or_congr ⟨?_, fun hlabel => ?_⟩ (and_congr_right fun _ => ⟨?_, ?_⟩)
  · rintro ⟨front, back, hsplit⟩
    have hlabel := Labels.mem_splitOn_of_between hdot front back
    rw [← hsplit] at hlabel
    exact (Labels.mem_splitOn_framed_iff hne).mp hlabel
  · exact Labels.exists_between_of_mem_splitOn hlabel
  · rintro ⟨front, back, hsplit⟩
    obtain ⟨label, hlabel, hbegins⟩ := Labels.exists_mem_splitOn_of_after hdot front back
    rw [← hsplit] at hlabel
    have hlabelNe : label ≠ [] := fun hnil => hne (List.prefix_nil.mp (hnil ▸ hbegins))
    exact ⟨label, (Labels.mem_splitOn_framed_iff hlabelNe).mp hlabel, hbegins⟩
  · rintro ⟨label, hlabel, rest, rfl⟩
    obtain ⟨front, back, hsplit⟩ := Labels.exists_between_of_mem_splitOn hlabel
    exact ⟨front, rest ++ '.' :: back, by rw [← List.append_assoc]; exact hsplit⟩

end Match

/-! ## Deciding among the rows -/

section Decide

variable {C : Type*} {pad : Text} {rows other : List (PopRow C)}

theorem orderBy_perm (pad : Text) (rows : List (PopRow C)) : (orderBy pad rows).Perm rows :=
  List.perm_insertionSort _ _

/-- The first row has the least key. -/
theorem orderKey_le_of_orderBy {row : PopRow C} {rest : List (PopRow C)}
    (hsorted : orderBy pad rows = row :: rest) :
    row ∈ rows ∧ ∀ other ∈ rows, orderKey pad row ≤ orderKey pad other := by
  have htotal : Std.Total fun first second : PopRow C => orderKey pad first ≤ orderKey pad second :=
    ⟨fun first second => le_total (orderKey pad first) (orderKey pad second)⟩
  have htrans : IsTrans (PopRow C) fun first second => orderKey pad first ≤ orderKey pad second :=
    ⟨fun _ _ _ hfirst hsecond => hfirst.trans hsecond⟩
  have hperm := orderBy_perm pad rows
  have hpairwise := List.pairwise_insertionSort
    (fun first second : PopRow C => orderKey pad first ≤ orderKey pad second) rows
  change (orderBy pad rows).Pairwise _ at hpairwise
  rw [hsorted] at hperm hpairwise
  refine ⟨hperm.mem_iff.mp (List.mem_cons_self ..), fun other hother => ?_⟩
  rcases List.mem_cons.mp (hperm.mem_iff.mpr hother) with rfl | hrest
  · exact le_rfl
  · exact (List.pairwise_cons.mp hpairwise).1 other hrest

/-- `_rank` tells rows apart as the order does. -/
theorem rank_eq_iff {first second : PopRow C} :
    rank pad first = rank pad second ↔ orderKey pad first = orderKey pad second := by
  simp only [rank, orderKey, Prod.mk.injEq, toLex_inj, Int.neg_inj, Int.natCast_inj]

theorem codes_inj {first second : PopRow C} (hcodes : first.codes = second.codes) :
    first.canonicalCode = second.canonicalCode ∧ first.aliasCode = second.aliasCode :=
  Prod.mk.inj (toLex_inj.mp hcodes)

/-- The codes tell the rows apart. -/
def Unique (rows : List (PopRow C)) : Prop :=
  ∀ first ∈ rows, ∀ second ∈ rows, first.codes = second.codes → first = second

/-- The row has the least key of all. -/
def First (pad : Text) (rows : List (PopRow C)) (row : PopRow C) : Prop :=
  row ∈ rows ∧ ∀ other ∈ rows, orderKey pad row ≤ orderKey pad other

section Table

variable {lowercase : Lowercase} (table : PopTable C)

theorem PopTable.mem_aliasCandidates {hostname : Text} {row : PopRow C}
    (hrow : row ∈ table.rows)
    (hmatches : matchesHost (hostnamePad lowercase hostname) row.aliasCode = true) :
    row.aliasCode ∈ aliasCandidates (hostnamePad lowercase hostname) :=
  mem_aliasCandidates_of_matchesHost noUpper_hostnamePad (table.alias_chars row hrow)
    (table.alias_length row hrow).1 (table.alias_length row hrow).2 hmatches

theorem matching_eq_nil {hostname : Text}
    (hcandidates : aliasCandidates (hostnamePad lowercase hostname) = []) :
    matching lowercase table.rows hostname = [] := by
  refine List.filter_eq_nil_iff.mpr fun row hrow hmatch => ?_
  have hin := table.mem_aliasCandidates hrow (Bool.and_eq_true_iff.mp hmatch).2
  simp [hcandidates] at hin

theorem aliasCandidates_nil : aliasCandidates (hostnamePad lowercase []) = [] := by
  have hpad : hostnamePad lowercase [] = ['.', '.'] := by
    simp [hostnamePad, hostnameNorm, lowercase.lower_nil, strip]
  rw [hpad]
  decide

theorem PopTable.unique_matching (hostname : Text) :
    Unique (matching lowercase table.rows hostname) := by
  intro first hfirst second hsecond hcodes
  obtain ⟨hcanonical, halias⟩ := codes_inj hcodes
  exact table.unique first (List.mem_of_mem_filter hfirst) second (List.mem_of_mem_filter hsecond)
    hcanonical halias

end Table

variable [DecidableEq C] {lowercase : Lowercase} {round4 : C → C}

/-- The order of the rows does not matter. -/
theorem decideRow_eq_of_perm (hunique : Unique rows) (hperm : rows.Perm other) :
    decideRow lowercase round4 pad (orderBy pad rows) =
      decideRow lowercase round4 pad (orderBy pad other) := by
  have hsorted := (orderBy_perm pad rows).trans (hperm.trans (orderBy_perm pad other).symm)
  cases hrows : orderBy pad rows with
  | nil =>
      rw [hrows] at hsorted
      rw [List.nil_perm.mp hsorted]
  | cons row rest =>
      cases hother : orderBy pad other with
      | nil =>
          rw [hrows, hother] at hsorted
          simp [List.perm_nil.mp hsorted]
      | cons row' rest' =>
          obtain ⟨hmem, hleast⟩ := orderKey_le_of_orderBy hrows
          obtain ⟨hmem', hleast'⟩ := orderKey_le_of_orderBy hother
          have hrank : rank pad row = rank pad row' :=
            rank_eq_iff.mpr (le_antisymm (hleast row' (hperm.mem_iff.mpr hmem'))
              (hleast' row (hperm.mem_iff.mp hmem)))
          rw [hrows, hother] at hsorted
          have htied := hsorted.filter fun other => decide (rank pad other = rank pad row)
          have hcodes : ∀ first ∈ (row :: rest).filter fun other =>
              decide (rank pad other = rank pad row), ∀ second ∈ (row :: rest).filter fun other =>
              decide (rank pad other = rank pad row), first.codes = second.codes →
                first = second := by
            intro first hfirst second hsecond
            have hin : ∀ {entry}, entry ∈ (row :: rest).filter (fun other =>
                decide (rank pad other = rank pad row)) → entry ∈ rows := fun hentry =>
              (orderBy_perm pad rows).mem_iff.mp (hrows ▸ List.mem_of_mem_filter hentry)
            exact hunique first (hin hfirst) second (hin hsecond)
          have hall : ∀ {first second : List (PopRow C)}, first.Perm second →
              (first.all fun a => first.all fun b => sameSite lowercase round4 a b) =
                second.all fun a => second.all fun b => sameSite lowercase round4 a b := by
            intro first second hperm
            rw [Bool.eq_iff_iff]
            simp only [List.all_eq_true, hperm.mem_iff]
          simp only [decideRow, ← hrank]
          rw [htied.length_eq, hall htied, Ranking.argmin_eq_of_perm hcodes htied]
          split_ifs with hmany
          · rfl
          · rfl
          · -- Only one row is tied, so that it is the first of both.
            have hin : row ∈ (row :: rest).filter fun other =>
                decide (rank pad other = rank pad row) := by simp
            have hin' : row' ∈ (row' :: rest').filter fun other =>
                decide (rank pad other = rank pad row) := by simp [hrank]
            have hlength : ((row' :: rest').filter fun other =>
                decide (rank pad other = rank pad row)).length = 1 :=
              le_antisymm (not_lt.mp hmany) (List.length_pos_of_mem hin')
            obtain ⟨only, honly⟩ := List.length_eq_one_iff.mp hlength
            rw [honly, List.mem_singleton] at hin'
            have honce := htied.mem_iff.mp hin
            rw [honly, List.mem_singleton] at honce
            rw [honce, hin']

theorem sameSite_self (row : PopRow C) : sameSite lowercase round4 row row = true := by
  simp [sameSite]

/-- There is no answer without rows and when the tied rows denote different sites. -/
theorem decideRow_eq_none_iff : decideRow lowercase round4 pad (orderBy pad rows) = none ↔
    rows = [] ∨ ∃ first second, First pad rows first ∧ First pad rows second ∧
      sameSite lowercase round4 first second = false := by
  have hperm := orderBy_perm pad rows
  cases hrows : orderBy pad rows with
  | nil =>
      rw [hrows] at hperm
      simp [decideRow, List.nil_perm.mp hperm]
  | cons row rest =>
      obtain ⟨hmem, hleast⟩ := orderKey_le_of_orderBy hrows
      rw [hrows] at hperm
      have hne : rows ≠ [] := List.ne_nil_of_mem hmem
      have htied : ∀ entry, entry ∈ (row :: rest).filter (fun other =>
          decide (rank pad other = rank pad row)) ↔ First pad rows entry := by
        intro entry
        rw [List.mem_filter, hperm.mem_iff, decide_eq_true_iff, rank_eq_iff]
        constructor
        · rintro ⟨hentry, hkey⟩
          exact ⟨hentry, fun other hother => hkey ▸ hleast other hother⟩
        · rintro ⟨hentry, hfirst⟩
          exact ⟨hentry, le_antisymm (hfirst row hmem) (hleast entry hentry)⟩
      rw [or_iff_right hne]
      simp only [decideRow]
      split_ifs with hmany hsame
      · refine iff_of_false (fun hnone => ?_) ?_
        · rw [Option.map_eq_none_iff, List.argmin_eq_none] at hnone
          simp [hnone] at hmany
        · rintro ⟨first, second, hfirst, hsecond, hdiffer⟩
          have hpair := List.all_eq_true.mp (List.all_eq_true.mp hsame first
            ((htied first).mpr hfirst)) second ((htied second).mpr hsecond)
          simp [hdiffer] at hpair
      · refine iff_of_true rfl ?_
        simp only [List.all_eq_true, not_forall, Bool.not_eq_true] at hsame
        obtain ⟨first, hfirst, second, hsecond, hdiffer⟩ := hsame
        exact ⟨first, second, (htied first).mp hfirst, (htied second).mp hsecond, hdiffer⟩
      · refine iff_of_false (by simp) ?_
        rintro ⟨first, second, hfirst, hsecond, hdiffer⟩
        have hlength := le_antisymm (not_lt.mp hmany)
          (List.length_pos_of_mem ((htied first).mpr hfirst))
        obtain ⟨only, honly⟩ := List.length_eq_one_iff.mp hlength
        have hfirstOnly := (htied first).mpr hfirst
        have hsecondOnly := (htied second).mpr hsecond
        rw [honly, List.mem_singleton] at hfirstOnly hsecondOnly
        rw [hfirstOnly, hsecondOnly, sameSite_self] at hdiffer
        simp at hdiffer

/-! ## The lookup by the index -/

/-- The lookup by hostname finds what a scan of the table finds. -/
structure IndexIsScan (lowercase : Lowercase) (round4 : C → C) (table : PopTable C)
    (hostname : Text) : Prop where
  scan : lkpH lowercase round4 table.rows hostname = scanH lowercase round4 table.rows hostname
  labels : '\x00' ∉ hostnameNorm lowercase hostname → ∀ row ∈ table.rows,
    matchesHost (hostnamePad lowercase hostname) row.aliasCode = true ↔
      row.aliasCode ∈ (hostnameNorm lowercase hostname).splitOn '.' ∨
        hasDigit row.aliasCode = true ∧
          ∃ label ∈ (hostnameNorm lowercase hostname).splitOn '.', row.aliasCode <+: label
  order : ∀ other : PopTable C, table.rows.Perm other.rows →
    lkpH lowercase round4 other.rows hostname = lkpH lowercase round4 table.rows hostname
  none : lkpH lowercase round4 table.rows hostname = none ↔
    matching lowercase table.rows hostname = [] ∨ ∃ first second,
      First (hostnamePad lowercase hostname) (matching lowercase table.rows hostname) first ∧
        First (hostnamePad lowercase hostname) (matching lowercase table.rows hostname) second ∧
          sameSite lowercase round4 first second = false

theorem lkpH_eq_scanH (table : PopTable C) (hostname : Text) :
    lkpH lowercase round4 table.rows hostname = scanH lowercase round4 table.rows hostname := by
  have hscan : aliasCandidates (hostnamePad lowercase hostname) = [] →
      scanH lowercase round4 table.rows hostname = none := by
    intro hcandidates
    rw [scanH, matching_eq_nil table hcandidates]
    rfl
  simp only [lkpH]
  split_ifs with hempty hcandidates
  · subst hempty
    exact (hscan aliasCandidates_nil).symm
  · exact (hscan hcandidates).symm
  · have hsame : (table.rows.filter fun row => !row.retired &&
        decide (row.aliasCode ∈ aliasCandidates (hostnamePad lowercase hostname)) &&
          matchesHost (hostnamePad lowercase hostname) row.aliasCode) =
        matching lowercase table.rows hostname := by
      refine List.filter_congr fun row hrow => ?_
      cases hmatches : matchesHost (hostnamePad lowercase hostname) row.aliasCode with
      | false => simp
      | true => simp [table.mem_aliasCandidates hrow hmatches]
    rw [hsame]
    rfl

end Decide

end Justup.Geo.PopLookup
