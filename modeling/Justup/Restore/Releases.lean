import Mathlib.Data.Prod.Lex
import Mathlib.Order.BooleanAlgebra.Defs
import Justup.Lib.Padded
import Justup.Store.Line

/-!
# Comparing releases

The order of release texts by which a backup of a newer release is refused.  The
value of a decimal digit is a parameter, since `\d` and `int` accept the digits of
every script; of the ASCII characters they accept `0` to `9`.
-/

namespace Justup.Restore

open Lib Lib.Padded Store

/-! ## The model -/

/-- `int` refuses a text with more digits. -/
def intMaxStrDigits : ℕ := 4300

inductive ValueError where
  | tooManyDigits
  deriving DecidableEq, Repr

/-- The decimal digits and their values. -/
structure Decimal where
  value : Char → Option ℕ
  ascii : ∀ c : Char, c.toNat < 128 →
    value c = if c.isDigit then some (c.toNat - '0'.toNat) else none

namespace Decimal

variable (decimal : Decimal)

def isDigit (c : Char) : Bool := (decimal.value c).isSome

/-- `\d` at the start. -/
def startsWithDigit (text : Text) : Bool := text.head?.any decimal.isDigit

/-- The group `numbers`, as long as possible: the digits of the component that is being
read, the components after it and the rest of the text. -/
def readNumbers : Text → Text × List Text × Text
  | [] => ([], [], [])
  | c :: text =>
      let (first, more, rest) := readNumbers text
      if decimal.isDigit c then (c :: first, more, rest)
      else if c = '.' ∧ decimal.startsWithDigit text then ([], first :: more, rest)
      else ([], [], c :: text)

/-- The tags of the group `pre`. -/
def preTags : List Text :=
  ["alpha", "beta", "preview", "pre", "rc", "dev", "a", "b", "c"].map String.toList

/-- Without the `[-._]?` at the start. -/
def dropSeparator : Text → Text
  | [] => []
  | c :: rest => if c = '-' ∨ c = '.' ∨ c = '_' then rest else c :: rest

/-- Whether the group `pre` matches to the end. -/
def isPre (text : Text) : Bool :=
  preTags.any fun tag =>
    tag.isPrefixOf (dropSeparator text) &&
      (dropSeparator ((dropSeparator text).drop tag.length)).all decimal.isDigit

/-- A character of `[0-9A-Za-z._-]`. -/
def isBuildChar (c : Char) : Bool :=
  c.isDigit || c.isUpper || c.isLower || c = '.' || c = '_' || c = '-'

/-- Whether the build metadata matches to the end. -/
def isBuild : Text → Bool
  | '+' :: rest => !rest.isEmpty && rest.all isBuildChar
  | _ => false

end Decimal

/-- A match of `_RELEASE_RE`: the components of `numbers` and whether `pre` is there. -/
structure Match where
  numbers : List Text
  pre : Bool
  deriving DecidableEq, Repr

/-- The components as numbers. -/
structure Release where
  parts : List ℕ
  pre : Bool
  deriving DecidableEq, Repr

namespace Decimal

variable (decimal : Decimal)

/-- `_RELEASE_RE.match`. -/
def releaseRe (text : Text) : Option Match :=
  let (first, more, rest) := decimal.readNumbers text
  if first = [] then none
  else if rest = [] then some ⟨first :: more, false⟩
  else if decimal.isPre rest then some ⟨first :: more, true⟩
  else if isBuild rest then some ⟨first :: more, false⟩
  else none

/-- The number of a text of digits. -/
def numberOf (text : Text) : ℕ :=
  text.foldl (fun number c => 10 * number + (decimal.value c).getD 0) 0

/-- `int` of a text of digits. -/
def int (text : Text) : Except ValueError ℕ :=
  if intMaxStrDigits < text.length then .error .tooManyDigits else .ok (decimal.numberOf text)

def partsOf (numbers : List Text) : Except ValueError (List ℕ) := numbers.mapM decimal.int

end Decimal

/-- The comparison of two releases that were read. -/
def Release.order (backup installed : Release) : Option ℤ :=
  let width := max backup.parts.length installed.parts.length
  let backupParts := pad 0 width backup.parts
  let installedParts := pad 0 width installed.parts
  if backupParts ≠ installedParts then some (if backupParts < installedParts then -1 else 1)
  else if backup.pre && installed.pre then none
  else if backup.pre ≠ installed.pre then some (if backup.pre then -1 else 1)
  else some 0

/-- `_compare_releases`. -/
def compareReleases (decimal : Decimal) (backupVersion installedVersion : Text) :
    Except ValueError (Option ℤ) :=
  if backupVersion = installedVersion then .ok (some 0)
  else
    match decimal.releaseRe backupVersion, decimal.releaseRe installedVersion with
    | some backup, some installed => do
        let backupParts ← decimal.partsOf backup.numbers
        let installedParts ← decimal.partsOf installed.numbers
        .ok (Release.order ⟨backupParts, backup.pre⟩ ⟨installedParts, installed.pre⟩)
    | _, _ => .ok none

/-! ## The order of the releases -/

namespace Release

/-- What the order depends on, at a width that is enough: a pre-release comes before the
final releases of the same numbers. -/
def key (width : ℕ) (release : Release) : List ℕ ×ₗ Bool :=
  toLex (pad 0 width release.parts, !release.pre)

variable {width : ℕ} {first second third : Release}

theorem key_lt_iff : first.key width < second.key width ↔
    pad 0 width first.parts < pad 0 width second.parts ∨
      pad 0 width first.parts = pad 0 width second.parts ∧
        first.pre = true ∧ second.pre = false := by
  rw [key, key, Prod.Lex.toLex_lt_toLex]
  cases first.pre <;> cases second.pre <;> simp

theorem key_eq_iff : first.key width = second.key width ↔
    pad 0 width first.parts = pad 0 width second.parts ∧ first.pre = second.pre := by
  rw [key, key, toLex_inj, Prod.mk.injEq, Bool.not_inj_iff]

/-- The order is the one of the keys, but two pre-releases of one version have none. -/
theorem order_eq (hfirst : first.parts.length ≤ width) (hsecond : second.parts.length ≤ width) :
    first.order second = if first.key width = second.key width ∧ first.pre then none
      else some (sign (first.key width) (second.key width)) := by
  have hwidth : max first.parts.length second.parts.length ≤ width := max_le hfirst hsecond
  have hlt := pad_lt_iff 0 (le_max_left first.parts.length second.parts.length)
    (le_max_right _ _) hwidth
  have heq := pad_eq_iff 0 (le_max_left first.parts.length second.parts.length)
    (le_max_right _ _) hwidth
  simp only [order, sign, key_lt_iff, key_eq_iff, ← hlt, ← heq, ne_eq]
  rcases lt_trichotomy (pad 0 width first.parts) (pad 0 width second.parts) with hl | he | hg
  · simp [hl, hl.ne]
  · cases first.pre <;> cases second.pre <;> simp [he]
  · simp [hg, hg.ne', hg.not_gt]

theorem order_swap (first second : Release) :
    second.order first = (first.order second).map Neg.neg := by
  have hfirst := le_max_left first.parts.length second.parts.length
  have hsecond := le_max_right first.parts.length second.parts.length
  rw [order_eq hsecond hfirst, order_eq hfirst hsecond]
  by_cases hkey : first.key (max first.parts.length second.parts.length) =
      second.key (max first.parts.length second.parts.length)
  · have hpre := (key_eq_iff.mp hkey).2
    simp only [hkey, hpre, true_and]
    split <;> simp
  · rw [if_neg (fun hboth => hkey hboth.1.symm), if_neg (fun hboth => hkey hboth.1),
      Option.map_some, sign_swap]

theorem order_trans {x y z : ℤ} (hfirst : first.order second = some x) (hx : x ≤ 0)
    (hsecond : second.order third = some y) (hy : y ≤ 0) (hthird : first.order third = some z) :
    z ≤ 0 := by
  set width := max first.parts.length (max second.parts.length third.parts.length) with hwidth
  have hsign : ∀ {p q : Release} {w : ℤ}, p.parts.length ≤ width → q.parts.length ≤ width →
      p.order q = some w → w = sign (p.key width) (q.key width) := by
    intro p q w hp hq horder
    rw [order_eq hp hq] at horder
    split at horder
    · exact absurd horder (by simp)
    · exact (Option.some.inj horder).symm
  have h₁ : first.parts.length ≤ width := by omega
  have h₂ : second.parts.length ≤ width := by omega
  have h₃ : third.parts.length ≤ width := by omega
  have hle := (Padded.sign_nonpos_iff.mp (hsign h₁ h₂ hfirst ▸ hx)).trans
    (Padded.sign_nonpos_iff.mp (hsign h₂ h₃ hsecond ▸ hy))
  rw [hsign h₁ h₃ hthird]
  exact Padded.sign_nonpos_iff.mpr hle

theorem order_self {release : Release} (hpre : release.pre = false) :
    release.order release = some 0 := by
  rw [order_eq le_rfl le_rfl]
  simp [hpre]

/-- Final releases are ordered by what their numbers fill up to. -/
theorem order_congr (hpre : first.pre = second.pre) (hfirst : first.parts.length ≤ width)
    (hsecond : second.parts.length ≤ width)
    (hparts : pad 0 width first.parts = pad 0 width second.parts) (other : Release) :
    first.order other = second.order other := by
  have hwide := le_max_left width other.parts.length
  have hkey : first.key (max width other.parts.length) =
      second.key (max width other.parts.length) :=
    key_eq_iff.mpr ⟨(pad_eq_iff 0 hfirst hsecond hwide).mpr hparts, hpre⟩
  rw [order_eq (hfirst.trans hwide) (le_max_right _ _),
    order_eq (hsecond.trans hwide) (le_max_right _ _), hkey, hpre]

/-- A pre-release lies between the final releases of lower versions and its own one. -/
theorem order_pre {parts : List ℕ} :
    (Release.mk parts true).order ⟨parts, false⟩ = some (-1) ∧
      ∀ lower : Release, lower.pre = false → lower.order ⟨parts, false⟩ = some (-1) →
        lower.order ⟨parts, true⟩ = some (-1) := by
  have hown : (Release.mk parts true).key parts.length <
      (Release.mk parts false).key parts.length :=
    key_lt_iff.mpr (Or.inr ⟨rfl, rfl, rfl⟩)
  refine ⟨?_, fun lower hfinal hlower => ?_⟩
  · have horder := @order_eq parts.length ⟨parts, true⟩ ⟨parts, false⟩ le_rfl le_rfl
    rw [horder, if_neg (fun hboth => hown.ne hboth.1), Padded.sign_eq_neg_one_iff.mpr hown]
  · have hl := le_max_left lower.parts.length parts.length
    have hr := le_max_right lower.parts.length parts.length
    rw [order_eq hl hr, if_neg (by simp [hfinal]), Option.some_inj, Padded.sign_eq_neg_one_iff,
      key_lt_iff] at hlower
    have hlt := hlower.resolve_right (by simp [hfinal])
    have hkey : lower.key (max lower.parts.length parts.length) <
        (Release.mk parts true).key (max lower.parts.length parts.length) :=
      key_lt_iff.mpr (Or.inl hlt)
    rw [order_eq hl hr, if_neg (by simp [hfinal]), Padded.sign_eq_neg_one_iff.mpr hkey]

end Release

/-! ## Reading a release -/

/-- The components of a text that `numbers` matches. -/
structure Numbers (decimal : Decimal) where
  first : Text
  more : List Text
  digits : ∀ part ∈ first :: more, part ≠ [] ∧ ∀ c ∈ part, decimal.isDigit c = true

/-- What may follow the numbers. -/
inductive Suffix (decimal : Decimal) where
  | bare
  | pre (text : Text) (matches_ : decimal.isPre text = true)
  | build (text : Text) (matches_ : Decimal.isBuild text = true)

section Reading

variable {decimal : Decimal}

def Numbers.parts (numbers : Numbers decimal) : List Text := numbers.first :: numbers.more

def Numbers.text (numbers : Numbers decimal) : Text :=
  numbers.first ++ numbers.more.flatMap ('.' :: ·)

def Suffix.text : Suffix decimal → Text
  | .bare => []
  | .pre text _ => text
  | .build text _ => text

def Suffix.isPre : Suffix decimal → Bool
  | .pre _ _ => true
  | _ => false

theorem Decimal.isDigit_of_ascii {c : Char} (hascii : c.toNat < 128) :
    decimal.isDigit c = c.isDigit := by
  rw [Decimal.isDigit, decimal.ascii c hascii]
  split <;> simp_all

/-- Neither the digits nor the components go on. -/
def Ends (decimal : Decimal) (text : Text) : Prop :=
  decimal.startsWithDigit text = false ∧
    ∀ rest, text = '.' :: rest → decimal.startsWithDigit rest = false

theorem readNumbers_of_ends {text : Text} (hends : Ends decimal text) :
    decimal.readNumbers text = ([], [], text) := by
  cases text with
  | nil => rfl
  | cons c rest =>
      have hdigit : decimal.isDigit c = false := by simpa [Decimal.startsWithDigit] using hends.1
      have hdot : ¬ (c = '.' ∧ decimal.startsWithDigit rest = true) := by
        rintro ⟨rfl, hstarts⟩
        simp [hends.2 rest rfl] at hstarts
      simp [Decimal.readNumbers, hdigit, hdot]

theorem readNumbers_digits {digits : Text} (hdigits : ∀ c ∈ digits, decimal.isDigit c = true)
    (text : Text) : decimal.readNumbers (digits ++ text) =
      (digits ++ (decimal.readNumbers text).1, (decimal.readNumbers text).2) := by
  induction digits with
  | nil => rfl
  | cons c digits ih =>
      have hrest := ih fun other hother => hdigits other (List.mem_cons_of_mem _ hother)
      simp [Decimal.readNumbers, hrest, hdigits c (List.mem_cons_self ..)]

theorem readNumbers_components {more : List Text} {text : Text}
    (hdigits : ∀ part ∈ more, part ≠ [] ∧ ∀ c ∈ part, decimal.isDigit c = true)
    (hends : Ends decimal text) :
    decimal.readNumbers (more.flatMap ('.' :: ·) ++ text) = ([], more, text) := by
  induction more with
  | nil => exact readNumbers_of_ends hends
  | cons part more ih =>
      have hrest := ih fun other hother => hdigits other (List.mem_cons_of_mem _ hother)
      obtain ⟨hne, hpart⟩ := hdigits part (List.mem_cons_self ..)
      have hdot : decimal.isDigit '.' = false := Decimal.isDigit_of_ascii (by decide)
      have hstarts : decimal.startsWithDigit
          (part ++ (more.flatMap ('.' :: ·) ++ text)) = true := by
        obtain ⟨c, digits, rfl⟩ := List.exists_cons_of_ne_nil hne
        simpa [Decimal.startsWithDigit] using hpart c (List.mem_cons_self ..)
      have hread := readNumbers_digits hpart (more.flatMap ('.' :: ·) ++ text)
      rw [hrest] at hread
      simp only [List.flatMap_cons, List.cons_append, List.append_assoc, Decimal.readNumbers, hdot,
        Bool.false_eq_true, if_false, hstarts, and_self, if_true, hread, List.append_nil]

theorem Numbers.readNumbers_text (numbers : Numbers decimal) {text : Text}
    (hends : Ends decimal text) :
    decimal.readNumbers (numbers.text ++ text) = (numbers.first, numbers.more, text) := by
  obtain ⟨-, hfirst⟩ := numbers.digits numbers.first (List.mem_cons_self ..)
  rw [Numbers.text, List.append_assoc, readNumbers_digits hfirst, readNumbers_components
    (fun part hpart => numbers.digits part (List.mem_cons_of_mem _ hpart)) hends, List.append_nil]

/-- A pre-release tag begins with a letter, after a separator at most. -/
theorem isPre_letter {text : Text} (hpre : decimal.isPre text = true) :
    ∃ c rest, Decimal.dropSeparator text = c :: rest ∧ c ∈ "abprdc".toList := by
  obtain ⟨tag, htag, hmatch⟩ := List.any_eq_true.mp hpre
  have hhead : ∀ tag ∈ Decimal.preTags, tag.head? ∈ "abprdc".toList.map some := by decide +kernel
  obtain ⟨c, hletter, hfirst⟩ := List.mem_map.mp (hhead tag htag)
  obtain ⟨rest, rfl⟩ := List.head?_eq_some_iff.mp hfirst.symm
  rw [Bool.and_eq_true] at hmatch
  obtain ⟨after, hafter⟩ := List.isPrefixOf_iff_prefix.mp hmatch.1
  exact ⟨c, rest ++ after, hafter.symm, hletter⟩

/-- The digits beyond ASCII do not matter where only ASCII can stand. -/
theorem isDigit_eq_false {marks : Text} {c : Char} (hc : c ∈ marks)
    (hmarks : (marks.all fun c => decide (c.toNat < 128) && !c.isDigit) = true) :
    decimal.isDigit c = false := by
  have hmark := List.all_eq_true.mp hmarks c hc
  rw [Bool.and_eq_true, decide_eq_true_eq, Bool.not_eq_true'] at hmark
  rw [Decimal.isDigit_of_ascii hmark.1]
  exact hmark.2

theorem letter_not_digit {c : Char} (hletter : c ∈ "abprdc".toList) :
    decimal.isDigit c = false :=
  isDigit_eq_false hletter (by decide +kernel)

theorem Suffix.ends (suffix : Suffix decimal) : Ends decimal suffix.text := by
  have hmarks : ∀ c ∈ ['+', '-', '.', '_'], decimal.isDigit c = false :=
    fun c hc => isDigit_eq_false hc (by decide)
  cases suffix with
  | bare => exact ⟨rfl, by simp [Suffix.text]⟩
  | pre text hpre =>
      obtain ⟨letter, after, hdrop, hletter⟩ := isPre_letter hpre
      cases text with
      | nil => simp [Decimal.dropSeparator] at hdrop
      | cons c rest =>
          rw [Decimal.dropSeparator] at hdrop
          split_ifs at hdrop with hseparator
          · refine ⟨?_, fun rest' hrest' => ?_⟩
            · have hmark := hmarks c (by rcases hseparator with rfl | rfl | rfl <;> decide)
              simpa [Suffix.text, Decimal.startsWithDigit] using hmark
            · obtain ⟨-, rfl⟩ := List.cons.inj hrest'
              simpa [hdrop, Decimal.startsWithDigit] using letter_not_digit hletter
          · obtain ⟨rfl, rfl⟩ := List.cons.inj hdrop
            refine ⟨?_, fun rest' hrest' => ?_⟩
            · simpa [Suffix.text, Decimal.startsWithDigit] using letter_not_digit hletter
            · exact absurd (Or.inr (Or.inl (List.cons.inj hrest').1)) hseparator
  | build text hbuild =>
      unfold Decimal.isBuild at hbuild
      split at hbuild
      · refine ⟨?_, fun rest' hrest' => ?_⟩
        · simpa [Suffix.text, Decimal.startsWithDigit] using hmarks '+' (by decide)
        · simp [Suffix.text] at hrest'
      · simp at hbuild

/-- The texts that match. -/
theorem releaseRe_text (numbers : Numbers decimal) (suffix : Suffix decimal) :
    decimal.releaseRe (numbers.text ++ suffix.text) = some ⟨numbers.parts, suffix.isPre⟩ := by
  obtain ⟨hfirst, -⟩ := numbers.digits numbers.first (List.mem_cons_self ..)
  simp only [Decimal.releaseRe, numbers.readNumbers_text suffix.ends, if_neg hfirst]
  cases suffix with
  | bare => simp [Suffix.text, Suffix.isPre, Numbers.parts]
  | pre text hpre =>
      have hne : text ≠ [] := by
        rintro rfl
        obtain ⟨c, rest, hdrop, -⟩ := isPre_letter hpre
        simp [Decimal.dropSeparator] at hdrop
      simp [Suffix.text, Suffix.isPre, Numbers.parts, hne, hpre]
  | build text hbuild =>
      have hpre : decimal.isPre text = false := by
        by_contra hpre
        obtain ⟨c, rest, hdrop, hletter⟩ := isPre_letter (Bool.not_eq_false _ ▸ hpre)
        unfold Decimal.isBuild at hbuild
        split at hbuild
        · obtain ⟨rfl, -⟩ : '+' = c ∧ _ = rest := by simpa [Decimal.dropSeparator] using hdrop
          exact absurd hletter (by decide)
        · simp at hbuild
      have hne : text ≠ [] := by
        rintro rfl
        simp [Decimal.isBuild] at hbuild
      simp [Suffix.text, Suffix.isPre, Numbers.parts, hne, hpre, hbuild]

/-- What the numbers of a text are. -/
theorem readNumbers_spec (text : Text) :
    (∀ c ∈ (decimal.readNumbers text).1, decimal.isDigit c = true) ∧
      (∀ part ∈ (decimal.readNumbers text).2.1,
        part ≠ [] ∧ ∀ c ∈ part, decimal.isDigit c = true) ∧
      text = (decimal.readNumbers text).1 ++
        ((decimal.readNumbers text).2.1.flatMap ('.' :: ·) ++ (decimal.readNumbers text).2.2) ∧
      (decimal.startsWithDigit text = true → (decimal.readNumbers text).1 ≠ []) := by
  induction text with
  | nil => simp [Decimal.readNumbers, Decimal.startsWithDigit]
  | cons c text ih =>
      obtain ⟨hfirst, hmore, htext, hstarts⟩ := ih
      simp only [Decimal.readNumbers]
      split_ifs with hdigit hdot
      · refine ⟨?_, hmore, congrArg (c :: ·) htext, fun _ => List.cons_ne_nil _ _⟩
        rintro other (_ | ⟨_, hother⟩)
        · exact hdigit
        · exact hfirst other hother
      · refine ⟨by simp, ?_, ?_, by simp [Decimal.startsWithDigit, hdigit]⟩
        · rintro part (_ | ⟨_, hpart⟩)
          · exact ⟨hstarts hdot.2, hfirst⟩
          · exact hmore part hpart
        · rw [List.nil_append, List.flatMap_cons, List.append_assoc, List.cons_append, ← htext,
            hdot.1]
      · exact ⟨by simp, by simp, by simp, by simp [Decimal.startsWithDigit, hdigit]⟩

theorem releaseRe_isSome_iff (text : Text) : (decimal.releaseRe text).isSome = true ↔
    ∃ (numbers : Numbers decimal) (suffix : Suffix decimal),
      text = numbers.text ++ suffix.text := by
  constructor
  · intro hsome
    obtain ⟨hfirst, hmore, htext, -⟩ := @readNumbers_spec decimal text
    unfold Decimal.releaseRe at hsome
    dsimp only at hsome
    split_ifs at hsome with hempty hbare hpre hbuild
    · simp at hsome
    all_goals
      have hdigits : ∀ part ∈ (decimal.readNumbers text).1 :: (decimal.readNumbers text).2.1,
          part ≠ [] ∧ ∀ c ∈ part, decimal.isDigit c = true := by
        rintro part (_ | ⟨_, hpart⟩)
        · exact ⟨hempty, hfirst⟩
        · exact hmore part hpart
    · refine ⟨⟨_, _, hdigits⟩, .bare, ?_⟩
      rwa [hbare, ← List.append_assoc] at htext
    · exact ⟨⟨_, _, hdigits⟩, .pre _ hpre, by rwa [← List.append_assoc] at htext⟩
    · exact ⟨⟨_, _, hdigits⟩, .build _ hbuild, by rwa [← List.append_assoc] at htext⟩
    · simp at hsome
  · rintro ⟨numbers, suffix, rfl⟩
    simp [releaseRe_text]

/-- `int` converts every component. -/
def Convertible (numbers : List Text) : Prop := ∀ part ∈ numbers, part.length ≤ intMaxStrDigits

theorem partsOf_eq {numbers : List Text} (hconvertible : Convertible numbers) :
    decimal.partsOf numbers = .ok (numbers.map decimal.numberOf) := by
  induction numbers with
  | nil => rfl
  | cons part numbers ih =>
      have hpart := hconvertible part (List.mem_cons_self ..)
      have hrest := ih fun other hother => hconvertible other (List.mem_cons_of_mem _ hother)
      unfold Decimal.partsOf at hrest ⊢
      simp [Decimal.int, not_lt.mpr hpart, hrest, Bind.bind, Except.bind, pure, Except.pure]

end Reading

/-! ## The comparison -/

section Comparison

variable {decimal : Decimal}

/-- A text that is read as a release. -/
def Reads (decimal : Decimal) (text : Text) (release : Release) : Prop :=
  ∃ numbers, decimal.releaseRe text = some ⟨numbers, release.pre⟩ ∧
    decimal.partsOf numbers = .ok release.parts

theorem Reads.unique {text : Text} {first second : Release} (hfirst : Reads decimal text first)
    (hsecond : Reads decimal text second) : first = second := by
  obtain ⟨numbers, hmatch, hparts⟩ := hfirst
  obtain ⟨numbers', hmatch', hparts'⟩ := hsecond
  obtain ⟨rfl, hpre⟩ := Match.mk.inj (Option.some.inj (hmatch.symm.trans hmatch'))
  have hsame := Except.ok.inj (hparts.symm.trans hparts')
  cases first
  cases second
  simp_all

theorem compareReleases_self (text : Text) :
    compareReleases decimal text text = .ok (some 0) := by
  simp [compareReleases]

theorem compareReleases_of_reads {backup installed : Text} {first second : Release}
    (hne : backup ≠ installed) (hfirst : Reads decimal backup first)
    (hsecond : Reads decimal installed second) :
    compareReleases decimal backup installed = .ok (first.order second) := by
  obtain ⟨numbers, hmatch, hparts⟩ := hfirst
  obtain ⟨numbers', hmatch', hparts'⟩ := hsecond
  simp [compareReleases, hne, hmatch, hmatch', hparts, hparts', Bind.bind, Except.bind]

/-- Texts with an order are equal or are both read as releases. -/
theorem reads_of_compareReleases {backup installed : Text} {ordering : ℤ}
    (hcompare : compareReleases decimal backup installed = .ok (some ordering))
    (hne : backup ≠ installed) : ∃ first second, Reads decimal backup first ∧
      Reads decimal installed second ∧ first.order second = some ordering := by
  rw [compareReleases, if_neg hne] at hcompare
  cases hmatch : decimal.releaseRe backup with
  | none => simp [hmatch] at hcompare
  | some found =>
      cases hmatch' : decimal.releaseRe installed with
      | none => simp [hmatch, hmatch'] at hcompare
      | some found' =>
          cases hparts : decimal.partsOf found.numbers with
          | error => simp [hmatch, hmatch', hparts, Bind.bind, Except.bind] at hcompare
          | ok parts =>
              cases hparts' : decimal.partsOf found'.numbers with
              | error =>
                  simp [hmatch, hmatch', hparts, hparts', Bind.bind, Except.bind] at hcompare
              | ok parts' =>
                  simp only [hmatch, hmatch', hparts, hparts', Bind.bind, Except.bind,
                    Except.ok.injEq] at hcompare
                  exact ⟨⟨parts, found.pre⟩, ⟨parts', found'.pre⟩, ⟨_, hmatch, hparts⟩,
                    ⟨_, hmatch', hparts'⟩, hcompare⟩

/-- The other way round the comparison is negated. -/
theorem compareReleases_swap (first second : Text) :
    compareReleases decimal second first =
      (compareReleases decimal first second).map (Option.map Neg.neg) := by
  by_cases heq : first = second
  · subst heq
    simp [compareReleases_self, Except.map]
  · rw [compareReleases, if_neg (Ne.symm heq), compareReleases, if_neg heq]
    cases decimal.releaseRe first with
    | none => cases decimal.releaseRe second <;> rfl
    | some found =>
        cases decimal.releaseRe second with
        | none => rfl
        | some found' =>
            dsimp only
            cases decimal.partsOf found.numbers with
            | error refused =>
                cases refused
                cases decimal.partsOf found'.numbers with
                | error refused' => cases refused'; rfl
                | ok parts' => rfl
            | ok parts =>
                cases decimal.partsOf found'.numbers with
                | error refused' => rfl
                | ok parts' =>
                    simp only [Bind.bind, Except.bind, Except.map]
                    rw [Release.order_swap]

theorem compareReleases_trans {first second third : Text} {x y z : ℤ}
    (hfirst : compareReleases decimal first second = .ok (some x)) (hx : x ≤ 0)
    (hsecond : compareReleases decimal second third = .ok (some y)) (hy : y ≤ 0)
    (hthird : compareReleases decimal first third = .ok (some z)) : z ≤ 0 := by
  by_cases hfs : first = second
  · subst hfs
    obtain rfl : y = z := by simpa using hsecond.symm.trans hthird
    exact hy
  by_cases hst : second = third
  · subst hst
    obtain rfl : x = z := by simpa using hfirst.symm.trans hthird
    exact hx
  by_cases hft : first = third
  · subst hft
    obtain rfl : 0 = z := by simpa using (compareReleases_self first).symm.trans hthird
    exact le_rfl
  obtain ⟨p, q, hp, hq, hpq⟩ := reads_of_compareReleases hfirst hfs
  obtain ⟨q', r, hq', hr, hqr⟩ := reads_of_compareReleases hsecond hst
  obtain ⟨p', r', hp', hr', hpr⟩ := reads_of_compareReleases hthird hft
  obtain rfl := hq.unique hq'
  obtain rfl := hp.unique hp'
  obtain rfl := hr.unique hr'
  exact Release.order_trans hpq hx hqr hy hpr

/-- The comparison of a final release, also with itself. -/
theorem compareReleases_final {text : Text} {release : Release}
    (hreads : Reads decimal text release) (hfinal : release.pre = false) (other : Text) :
    compareReleases decimal text other =
      match decimal.releaseRe other with
      | none => .ok none
      | some found => (decimal.partsOf found.numbers).map fun parts =>
          release.order ⟨parts, found.pre⟩ := by
  by_cases heq : text = other
  · subst heq
    obtain ⟨numbers, hmatch, hparts⟩ := hreads
    have hself : release.order ⟨release.parts, release.pre⟩ = some 0 := Release.order_self hfinal
    simp [compareReleases_self, hmatch, hparts, hself, Except.map]
  · obtain ⟨numbers, hmatch, hparts⟩ := hreads
    rw [compareReleases, if_neg heq, hmatch]
    cases decimal.releaseRe other with
    | none => rfl
    | some found =>
        simp only [hparts, Bind.bind, Except.bind, Except.map]

/-! ## Spelling a final release -/

def Zeros (decimal : Decimal) (text : Text) : Prop := ∀ c ∈ text, decimal.value c = some 0

/-- The components with zeros in front of them, and zero components behind them. -/
def Respelled (decimal : Decimal) (parts parts' : List Text) : Prop :=
  ∃ front zeros, parts' = front ++ zeros ∧ (∀ zero ∈ zeros, Zeros decimal zero) ∧
    List.Forall₂ (fun part part' => ∃ leading, Zeros decimal leading ∧ part' = leading ++ part)
      parts front

theorem numberOf_zeros_append {zeros : Text} (hzeros : Zeros decimal zeros) (text : Text) :
    decimal.numberOf (zeros ++ text) = decimal.numberOf text := by
  induction zeros with
  | nil => rfl
  | cons c zeros ih =>
      have hrest := ih fun other hother => hzeros other (List.mem_cons_of_mem _ hother)
      rw [← hrest]
      simp [Decimal.numberOf, hzeros c (List.mem_cons_self ..)]

theorem map_numberOf_respelled {parts parts' : List Text}
    (hrespelled : Respelled decimal parts parts') : ∃ count,
      parts'.map decimal.numberOf = parts.map decimal.numberOf ++ List.replicate count 0 := by
  obtain ⟨front, zeros, rfl, hzeros, hfront⟩ := hrespelled
  have hsame : front.map decimal.numberOf = parts.map decimal.numberOf := by
    induction hfront with
    | nil => rfl
    | cons hpart _ ih =>
        obtain ⟨leading, hleading, rfl⟩ := hpart
        simp [ih, numberOf_zeros_append hleading]
  have htrailing : zeros.map decimal.numberOf = List.replicate zeros.length 0 := by
    refine List.eq_replicate_iff.mpr ⟨List.length_map _, fun number hnumber => ?_⟩
    obtain ⟨zero, hzero, rfl⟩ := List.mem_map.mp hnumber
    have hnil := numberOf_zeros_append (hzeros zero hzero) []
    rw [List.append_nil] at hnil
    exact hnil
  exact ⟨zeros.length, by rw [List.map_append, hsame, htrailing]⟩

theorem reads_text (numbers : Numbers decimal) (suffix : Suffix decimal)
    (hconvertible : Convertible numbers.parts) : Reads decimal (numbers.text ++ suffix.text)
      ⟨numbers.parts.map decimal.numberOf, suffix.isPre⟩ :=
  ⟨numbers.parts, releaseRe_text numbers suffix, partsOf_eq hconvertible⟩

theorem compareReleases_respelled {numbers numbers' : Numbers decimal}
    {suffix suffix' : Suffix decimal} (hfinal : suffix.isPre = false)
    (hfinal' : suffix'.isPre = false) (hconvertible : Convertible numbers.parts)
    (hconvertible' : Convertible numbers'.parts)
    (hrespelled : Respelled decimal numbers.parts numbers'.parts) (other : Text) :
    compareReleases decimal (numbers'.text ++ suffix'.text) other =
      compareReleases decimal (numbers.text ++ suffix.text) other := by
  obtain ⟨count, hparts⟩ := map_numberOf_respelled hrespelled
  have hsame : ∀ release : Release,
      Release.order ⟨numbers'.parts.map decimal.numberOf, suffix'.isPre⟩ release =
        Release.order ⟨numbers.parts.map decimal.numberOf, suffix.isPre⟩ release := by
    intro release
    have hwidth : (numbers.parts.map decimal.numberOf).length + count ≤
        (numbers'.parts.map decimal.numberOf).length := by simp [hparts]
    refine Release.order_congr (hfinal'.trans hfinal.symm) le_rfl
      ((Nat.le_add_right _ _).trans hwidth) ?_ release
    dsimp only
    rw [hparts] at hwidth ⊢
    exact pad_append_replicate count hwidth
  rw [compareReleases_final (reads_text numbers' suffix' hconvertible') hfinal',
    compareReleases_final (reads_text numbers suffix hconvertible) hfinal]
  simp only [hsame]

/-- A pre-release lies strictly between the final releases of lower versions and its own. -/
theorem compareReleases_pre {numbers : Numbers decimal} {pre final : Suffix decimal}
    (hpre : pre.isPre = true) (hfinal : final.isPre = false)
    (hconvertible : Convertible numbers.parts) :
    compareReleases decimal (numbers.text ++ pre.text) (numbers.text ++ final.text) =
        .ok (some (-1)) ∧
      ∀ lower parts, decimal.releaseRe lower = some ⟨parts, false⟩ →
        compareReleases decimal lower (numbers.text ++ final.text) = .ok (some (-1)) →
          compareReleases decimal lower (numbers.text ++ pre.text) = .ok (some (-1)) := by
  have hreadsPre := reads_text numbers pre hconvertible
  have hreadsFinal := reads_text numbers final hconvertible
  rw [hpre] at hreadsPre
  rw [hfinal] at hreadsFinal
  have horder := @Release.order_pre (numbers.parts.map decimal.numberOf)
  refine ⟨?_, fun lower parts hmatch hlower => ?_⟩
  · have hne : numbers.text ++ pre.text ≠ numbers.text ++ final.text := by
      intro heq
      have hunique := hreadsPre.unique (heq ▸ hreadsFinal)
      simp at hunique
    rw [compareReleases_of_reads hne hreadsPre hreadsFinal, horder.1]
  · have hne : lower ≠ numbers.text ++ final.text := by
      rintro rfl
      simp [compareReleases_self] at hlower
    obtain ⟨p, q, hp, hq, hpq⟩ := reads_of_compareReleases hlower hne
    obtain rfl := hq.unique hreadsFinal
    have hplain : p.pre = false := by
      obtain ⟨numbers', hmatch', -⟩ := hp
      simpa using (Match.mk.inj (Option.some.inj (hmatch'.symm.trans hmatch))).2
    have hnePre : lower ≠ numbers.text ++ pre.text := by
      rintro rfl
      have hunique := hp.unique hreadsPre
      simp [hunique] at hplain
    rw [compareReleases_of_reads hnePre hp hreadsPre, horder.2 p hplain hpq]

/-- How release texts are ordered; a comparison that `int` stops is not defined. -/
structure ConsistentOrder (decimal : Decimal) : Prop where
  releases : ∀ text, (decimal.releaseRe text).isSome = true ↔
    ∃ (numbers : Numbers decimal) (suffix : Suffix decimal), text = numbers.text ++ suffix.text
  swap : ∀ a b, compareReleases decimal b a = (compareReleases decimal a b).map (Option.map Neg.neg)
  self : ∀ a, compareReleases decimal a a = .ok (some 0)
  trans : ∀ a b c x y z, compareReleases decimal a b = .ok (some x) → x ≤ 0 →
    compareReleases decimal b c = .ok (some y) → y ≤ 0 →
      compareReleases decimal a c = .ok (some z) → z ≤ 0
  spelling : ∀ (numbers numbers' : Numbers decimal) (suffix suffix' : Suffix decimal),
    suffix.isPre = false → suffix'.isPre = false →
      Convertible numbers.parts → Convertible numbers'.parts →
        Respelled decimal numbers.parts numbers'.parts →
          ∀ other, compareReleases decimal (numbers'.text ++ suffix'.text) other =
            compareReleases decimal (numbers.text ++ suffix.text) other
  pre : ∀ (numbers : Numbers decimal) (pre final : Suffix decimal),
    pre.isPre = true → final.isPre = false → Convertible numbers.parts →
      compareReleases decimal (numbers.text ++ pre.text) (numbers.text ++ final.text) =
          .ok (some (-1)) ∧
        ∀ lower parts, decimal.releaseRe lower = some ⟨parts, false⟩ →
          compareReleases decimal lower (numbers.text ++ final.text) = .ok (some (-1)) →
            compareReleases decimal lower (numbers.text ++ pre.text) = .ok (some (-1))
  later : ∀ backup installed later x y,
    compareReleases decimal backup installed = .ok (some x) → x ≤ 0 →
      compareReleases decimal installed later = .ok (some y) → y ≤ 0 →
        compareReleases decimal backup later ≠ .ok (some 1)

end Comparison

/-- The digits `0` to `9` alone. -/
def asciiDecimal : Decimal where
  value c := if c.isDigit then some (c.toNat - '0'.toNat) else none
  ascii _ _ := rfl

example : compareReleases asciiDecimal "1.0.10".toList "1.0.9".toList = .ok (some 1) ∧
    compareReleases asciiDecimal "1.0.2-rc1".toList "1.0.2".toList = .ok (some (-1)) ∧
    compareReleases asciiDecimal "01.2.0".toList "1.2+build.7".toList = .ok (some 0) ∧
    compareReleases asciiDecimal "1.0.2.post1".toList "1.0.2".toList = .ok none := by
  decide +kernel

end Justup.Restore
