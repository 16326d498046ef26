import Justup.Lib.Json
import Mathlib.Data.Nat.Notation
import Mathlib.Data.List.Chain

/-!
# Strings of code points in JSON

A string of code points may hold a surrogate that is not one of a pair, which no
text of characters does.  JSON writes every code point beyond U+FFFF as a pair of
escaped surrogates and reads such a pair as the one code point: a string in which
a high surrogate stands right before a low one is therefore written, but read as
another string, and no string that was read is one of these.
-/

namespace Justup.Lib

/-- A code point, the surrogates included. -/
abbrev CodePoint := Fin 0x110000

abbrev Str := List CodePoint

namespace CodePoint

def ofNat (n : ℕ) : CodePoint := Fin.ofNat 0x110000 n

def ofChar (c : Char) : CodePoint := ofNat c.toNat

/-- The character; the replacement character stands for a surrogate. -/
def toChar (c : CodePoint) : Char := if c.val.isValidChar then Char.ofNat c.val else '\ufffd'

def IsHigh (c : CodePoint) : Prop := 0xD800 ≤ c.val ∧ c.val ≤ 0xDBFF

def IsLow (c : CodePoint) : Prop := 0xDC00 ≤ c.val ∧ c.val ≤ 0xDFFF

instance : DecidablePred IsHigh := fun _ => inferInstanceAs (Decidable (_ ∧ _))

instance : DecidablePred IsLow := fun _ => inferInstanceAs (Decidable (_ ∧ _))

@[simp]
theorem val_ofNat {n : ℕ} (h : n < 0x110000) : (ofNat n).val = n := Nat.mod_eq_of_lt h

theorem toNat_lt (c : Char) : c.toNat < 0x110000 := by
  rcases c.valid with h | h
  · exact Nat.lt_trans h (by decide)
  · exact h.2

@[simp]
theorem val_ofChar (c : Char) : (ofChar c).val = c.toNat := val_ofNat (toNat_lt c)

theorem ofChar_injective : Function.Injective ofChar := by
  intro c d h
  have hval := congrArg Fin.val h
  rw [val_ofChar, val_ofChar] at hval
  exact Char.toNat_inj.mp hval

@[simp]
theorem toChar_ofChar (c : Char) : (ofChar c).toChar = c := by
  have hvalid : c.toNat.isValidChar := c.valid
  rw [toChar, val_ofChar, if_pos hvalid, Char.ofNat_toNat]

theorem not_isHigh_ofChar (c : Char) : ¬(ofChar c).IsHigh := by
  rintro ⟨hlow, hhigh⟩
  rw [val_ofChar] at hlow hhigh
  rcases c.valid with h | h
  · exact absurd hlow (Nat.not_le.mpr h)
  · exact absurd (Nat.lt_of_lt_of_le h.1 hhigh) (by decide)

end CodePoint

namespace Str

open CodePoint

/-- The string of a text. -/
def ofText (text : List Char) : Str := text.map CodePoint.ofChar

def toText (s : Str) : List Char := s.map CodePoint.toChar

@[simp]
theorem toText_ofText (text : List Char) : toText (ofText text) = text := by
  rw [toText, ofText, List.map_map]
  exact List.map_id'' toChar_ofChar text

theorem ofText_injective : Function.Injective ofText :=
  List.map_injective_iff.mpr ofChar_injective

/-- No high surrogate stands right before a low one. -/
def Unpaired (s : Str) : Prop := s.IsChain fun c d => ¬(c.IsHigh ∧ d.IsLow)

theorem unpaired_ofText (text : List Char) : Unpaired (ofText text) := by
  refine (List.isChain_map _).mpr ?_
  induction text with
  | nil => exact .nil
  | cons c rest ih =>
      cases rest with
      | nil => exact .singleton c
      | cons d rest => exact .cons_cons (fun h => not_isHigh_ofChar c h.1) ih

/-! ## Units -/

/-- The code units of UTF-16. -/
def units (c : CodePoint) : List CodePoint :=
  if c.val < 0x10000 then [c]
  else [ofNat (0xD800 + (c.val - 0x10000) / 0x400), ofNat (0xDC00 + (c.val - 0x10000) % 0x400)]

/-- The code point of a pair of surrogates. -/
def pair (high low : CodePoint) : CodePoint :=
  ofNat (0x10000 + (high.val - 0xD800) * 0x400 + (low.val - 0xDC00))

/-- Each pair of surrogates becomes the code point it stands for. -/
def joinUnits : List CodePoint → Str
  | [] => []
  | [c] => [c]
  | c :: d :: rest =>
      if c.IsHigh ∧ d.IsLow then pair c d :: joinUnits rest else c :: joinUnits (d :: rest)

theorem val_pair {high low : CodePoint} (hhigh : high.IsHigh) (hlow : low.IsLow) :
    (pair high low).val = 0x10000 + (high.val - 0xD800) * 0x400 + (low.val - 0xDC00) := by
  obtain ⟨h₁, h₂⟩ := hhigh
  obtain ⟨h₃, h₄⟩ := hlow
  exact val_ofNat (by omega)

theorem not_surrogate_pair {high low : CodePoint} (hhigh : high.IsHigh) (hlow : low.IsLow) :
    ¬(pair high low).IsHigh ∧ ¬(pair high low).IsLow := by
  have hval := val_pair hhigh hlow
  unfold IsHigh IsLow
  omega

/-- A string of joined units begins with the first unit or with the code point of a pair. -/
theorem head_joinUnits {c : CodePoint} {rest : List CodePoint} {d : CodePoint}
    (hd : d ∈ (joinUnits (c :: rest)).head?) : d = c ∨ ¬d.IsLow := by
  cases rest with
  | nil => exact .inl (by simpa [joinUnits] using hd.symm)
  | cons e rest =>
      rw [joinUnits] at hd
      split at hd
      next hpair =>
        obtain rfl : pair c e = d := by simpa using hd
        exact .inr (not_surrogate_pair hpair.1 hpair.2).2
      next => exact .inl (by simpa using hd.symm)

theorem unpaired_joinUnits (us : List CodePoint) : Unpaired (joinUnits us) := by
  induction us using joinUnits.induct with
  | case1 => exact .nil
  | case2 c => exact .singleton c
  | case3 c d rest hpair ih =>
      rw [joinUnits, if_pos hpair]
      refine List.isChain_cons.mpr ⟨fun e _ h => ?_, ih⟩
      exact (not_surrogate_pair hpair.1 hpair.2).1 h.1
  | case4 c d rest hpair ih =>
      rw [joinUnits, if_neg hpair]
      refine List.isChain_cons.mpr ⟨fun e he h => ?_, ih⟩
      rcases head_joinUnits he with rfl | hlow
      · exact hpair h
      · exact hlow h.2

theorem joinUnits_cons {c : CodePoint} {us : List CodePoint}
    (h : ∀ d ∈ us.head?, ¬(c.IsHigh ∧ d.IsLow)) : joinUnits (c :: us) = c :: joinUnits us := by
  cases us with
  | nil => rfl
  | cons d rest => rw [joinUnits, if_neg (h d rfl)]

/-- The units of a code point begin with a low surrogate only when it is one. -/
theorem head_units {c d : CodePoint} (hd : d ∈ (units c).head?) (hlow : d.IsLow) : d = c := by
  unfold units at hd
  split at hd
  · simpa using hd.symm
  · obtain rfl : ofNat (0xD800 + (c.val - 0x10000) / 0x400) = d := by simpa using hd
    have hc := c.isLt
    have hval : (ofNat (0xD800 + (c.val - 0x10000) / 0x400)).val =
        0xD800 + (c.val - 0x10000) / 0x400 := val_ofNat (by omega)
    unfold IsLow at hlow
    omega

theorem joinUnits_units {s : Str} (hs : Unpaired s) : joinUnits (s.flatMap units) = s := by
  induction s with
  | nil => rfl
  | cons c rest ih =>
      obtain ⟨hhead, hrest⟩ := List.isChain_cons.mp hs
      rw [List.flatMap_cons]
      by_cases hsmall : c.val < 0x10000
      · rw [units, if_pos hsmall, List.singleton_append, joinUnits_cons, ih hrest]
        rintro d hd ⟨hhigh, hlow⟩
        cases rest with
        | nil => simp at hd
        | cons e rest =>
            have hfirst : d ∈ (units e).head? := by
              have hne : units e ≠ [] := by unfold units; split <;> simp
              rwa [List.flatMap_cons, List.head?_append_of_ne_nil _ hne] at hd
            exact hhead e rfl ⟨hhigh, head_units hfirst hlow ▸ hlow⟩
      · have hc := c.isLt
        have hhighVal : (ofNat (0xD800 + (c.val - 0x10000) / 0x400)).val =
            0xD800 + (c.val - 0x10000) / 0x400 := val_ofNat (by omega)
        have hlowVal : (ofNat (0xDC00 + (c.val - 0x10000) % 0x400)).val =
            0xDC00 + (c.val - 0x10000) % 0x400 := val_ofNat (by omega)
        have hhigh : (ofNat (0xD800 + (c.val - 0x10000) / 0x400)).IsHigh := by
          unfold IsHigh
          omega
        have hlow : (ofNat (0xDC00 + (c.val - 0x10000) % 0x400)).IsLow := by
          unfold IsLow
          omega
        have hpair : pair (ofNat (0xD800 + (c.val - 0x10000) / 0x400))
            (ofNat (0xDC00 + (c.val - 0x10000) % 0x400)) = c := by
          apply Fin.ext
          rw [val_pair hhigh hlow]
          omega
        rw [units, if_neg hsmall, List.cons_append, List.singleton_append, joinUnits,
          if_pos ⟨hhigh, hlow⟩, hpair, ih hrest]

end Str

end Justup.Lib
