import Mathlib.Data.List.Basic

/-!
# Substituting tokens in a text

How `re.sub` goes through a text: where a token begins it is replaced as a whole
and the search goes on behind it, every other character stays.  The text is thus
cut into pieces that do not depend on what the tokens are replaced with.
-/

namespace Justup.Lib.Substitute

variable {α τ : Type*}

/-- A character that stays, or a token with its text. -/
inductive Piece (α τ : Type*) where
  | literal (c : α)
  | token (t : τ) (source : List α)

def Piece.source : Piece α τ → List α
  | .literal c => [c]
  | .token _ source => source

/-- The piece with its token replaced. -/
def Piece.fill (replacement : τ → List α) : Piece α τ → List α
  | .literal c => [c]
  | .token t _ => replacement t

/-- The pieces of a text of which the first characters are already read; `find` gives the token
that begins the text and its length. -/
def piecesFrom (find : List α → Option (τ × ℕ)) : ℕ → List α → List (Piece α τ)
  | _, [] => []
  | skip + 1, _ :: rest => piecesFrom find skip rest
  | 0, c :: rest =>
      match find (c :: rest) with
      | some (t, length) => .token t ((c :: rest).take length) :: piecesFrom find (length - 1) rest
      | none => .literal c :: piecesFrom find 0 rest

def pieces (find : List α → Option (τ × ℕ)) (text : List α) : List (Piece α τ) :=
  piecesFrom find 0 text

/-- `re.sub` with a function of the token. -/
def sub (find : List α → Option (τ × ℕ)) (replacement : τ → List α) (text : List α) : List α :=
  (pieces find text).flatMap (Piece.fill replacement)

/-- Some pieces of a text: no token begins at a literal, and a token is found at its place. -/
inductive Scan (find : List α → Option (τ × ℕ)) : List α → List (Piece α τ) → Prop where
  | nil : Scan find [] []
  | literal {c : α} {rest : List α} {ps : List (Piece α τ)} (hnone : find (c :: rest) = none)
      (hrest : Scan find rest ps) : Scan find (c :: rest) (.literal c :: ps)
  | token {text source rest : List α} {t : τ} {ps : List (Piece α τ)}
      (htext : text = source ++ rest) (hfind : find text = some (t, source.length))
      (hrest : Scan find rest ps) : Scan find text (.token t source :: ps)

/-- A token is not empty and lies within the text. -/
def Fits (find : List α → Option (τ × ℕ)) : Prop :=
  ∀ text t length, find text = some (t, length) → 0 < length ∧ length ≤ text.length

variable {find : List α → Option (τ × ℕ)}

theorem piecesFrom_drop (skip : ℕ) (text : List α) :
    piecesFrom find skip text = piecesFrom find 0 (text.drop skip) := by
  induction text generalizing skip with
  | nil => cases skip <;> simp [piecesFrom]
  | cons c rest ih =>
      cases skip with
      | zero => rfl
      | succ skip => exact ih skip

theorem scan_pieces (hfits : Fits find) (text : List α) : Scan find text (pieces find text) := by
  induction hlength : text.length using Nat.strongRecOn generalizing text with
  | _ n ih =>
      subst hlength
      cases text with
      | nil => exact .nil
      | cons c rest =>
          rw [pieces, piecesFrom]
          split
          next t length hfind =>
            obtain ⟨hpos, hle⟩ := hfits _ _ _ hfind
            obtain ⟨before, rfl⟩ : ∃ n, length = n + 1 := ⟨length - 1, by omega⟩
            have htake : ((c :: rest).take (before + 1)).length = before + 1 :=
              List.length_take_of_le hle
            rw [Nat.add_sub_cancel, piecesFrom_drop]
            refine .token (List.take_append_drop (before + 1) _).symm (htake.symm ▸ hfind) ?_
            exact ih _ (by simp only [List.length_drop, List.length_cons]; omega) _ rfl
          next hnone => exact .literal hnone (ih _ (by simp) rest rfl)

theorem Scan.source {text : List α} {ps : List (Piece α τ)} (h : Scan find text ps) :
    ps.flatMap Piece.source = text := by
  induction h with
  | nil => rfl
  | literal hnone hrest ih => rw [List.flatMap_cons, ih, Piece.source, List.singleton_append]
  | token htext hfind hrest ih => rw [List.flatMap_cons, ih, Piece.source, htext]

/-- Where no token begins nothing is replaced. -/
theorem sub_eq_self {text : List α} (hnone : ∀ rest, rest <:+ text → find rest = none)
    (replacement : τ → List α) : sub find replacement text = text := by
  induction text with
  | nil => rfl
  | cons c rest ih =>
      have hrest := ih fun suffix hsuffix => hnone suffix (hsuffix.trans (List.suffix_cons c rest))
      rw [sub, pieces] at hrest ⊢
      rw [piecesFrom, hnone _ List.suffix_rfl]
      simp [Piece.fill, hrest]

/-- Replacements with the same marks leave the same marks in the text. -/
theorem filter_sub_congr (mark : α → Bool) {replacement replacement' : τ → List α}
    (h : ∀ t, (replacement t).filter mark = (replacement' t).filter mark) (text : List α) :
    (sub find replacement text).filter mark = (sub find replacement' text).filter mark := by
  rw [sub, sub, List.filter_flatMap, List.filter_flatMap]
  congr 1
  funext piece
  cases piece with
  | literal c => rfl
  | token t source => exact h t

end Justup.Lib.Substitute
