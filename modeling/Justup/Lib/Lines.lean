import Mathlib.Data.List.DropRight
import Mathlib.Data.List.Infix

/-!
# Texts as sequences of terminated lines

`rawLines nl` cuts a text behind every occurrence of the terminator `nl` and
keeps the terminators, so that only the last line can lack one.  A text is
complete when its last line does not.
-/

namespace Justup.Lib.Lines

variable {α : Type*} (nl : α)

/-- A line that ends with the terminator and has no other one. -/
def IsLine (line : List α) : Prop := ∃ body, nl ∉ body ∧ line = body ++ [nl]

/-- The last line, if there is one, is terminated. -/
def Complete (text : List α) : Prop := ∀ last ∈ text.getLast?, last = nl

variable {nl}

theorem complete_nil : Complete nl [] := by simp [Complete]

theorem complete_snoc (text : List α) : Complete nl (text ++ [nl]) := by
  simp [Complete]

theorem IsLine.complete {line : List α} (hline : IsLine nl line) : Complete nl line := by
  obtain ⟨body, -, rfl⟩ := hline
  exact complete_snoc body

/-- A complete text is empty or ends with the terminator. -/
theorem Complete.cases {text : List α} (htext : Complete nl text) :
    text = [] ∨ ∃ front, text = front ++ [nl] := by
  rcases List.eq_nil_or_concat text with hnil | ⟨front, last, hlast⟩
  · exact Or.inl hnil
  · refine Or.inr ⟨front, ?_⟩
    have heq : last = nl := htext last (by simp [hlast])
    rw [hlast, heq]
    simp

theorem Complete.append {first second : List α} (hfirst : Complete nl first)
    (hsecond : Complete nl second) : Complete nl (first ++ second) := by
  rcases hsecond.cases with rfl | ⟨front, rfl⟩
  · simpa using hfirst
  · rw [← List.append_assoc]
    exact complete_snoc _

theorem Complete.of_cons {head : α} {rest : List α} (htext : Complete nl (head :: rest)) :
    Complete nl rest := by
  intro last hlast
  refine htext last ?_
  cases rest with
  | nil => simp at hlast
  | cons next rest => simpa [List.getLast?_cons_cons] using hlast

theorem Complete.of_append {first second : List α} (htext : Complete nl (first ++ second)) :
    Complete nl second := by
  intro last hlast
  refine htext last ?_
  rw [Option.mem_def, List.getLast?_append, Option.mem_def.mp hlast, Option.some_or]

theorem complete_flatten {lines : List (List α)} (hlines : ∀ line ∈ lines, IsLine nl line) :
    Complete nl lines.flatten := by
  induction lines with
  | nil => exact complete_nil
  | cons line rest ih =>
      exact (hlines line (by simp)).complete.append
        (ih fun other hother => hlines other (by simp [hother]))

variable [DecidableEq α] (nl)

/-- The lines of a text, with their terminators. -/
def rawLines : List α → List (List α)
  | [] => []
  | first :: rest =>
      if first = nl then [first] :: rawLines rest
      else
        match rawLines rest with
        | [] => [[first]]
        | line :: lines => (first :: line) :: lines

/-- A line without its terminator. -/
def chomp (line : List α) : List α := line.rdropWhile (· = nl)

variable {nl}

@[simp]
theorem rawLines_nil : rawLines nl [] = [] := rfl

theorem rawLines_cons_nl (rest : List α) :
    rawLines nl (nl :: rest) = [nl] :: rawLines nl rest := by
  simp [rawLines]

theorem rawLines_cons_of_ne {first : α} (hne : first ≠ nl) (rest : List α) :
    rawLines nl (first :: rest) =
      (first :: (rawLines nl rest).headD []) :: (rawLines nl rest).tail := by
  rw [rawLines, if_neg hne]
  cases rawLines nl rest <;> rfl

/-- The lines are the text. -/
@[simp]
theorem rawLines_flatten (nl : α) (text : List α) : (rawLines nl text).flatten = text := by
  induction text with
  | nil => rfl
  | cons first rest ih =>
      by_cases hfirst : first = nl
      · subst hfirst
        rw [rawLines_cons_nl, List.flatten_cons, ih]
        rfl
      · rw [rawLines_cons_of_ne hfirst]
        cases hlines : rawLines nl rest with
        | nil =>
            rw [hlines] at ih
            simpa using ih
        | cons line lines =>
            rw [hlines] at ih
            simpa using ih

theorem rawLines_eq_nil_iff (text : List α) : rawLines nl text = [] ↔ text = [] := by
  constructor
  · intro hnil
    simpa [hnil] using (rawLines_flatten nl text).symm
  · rintro rfl
    rfl

/-- Behind a terminator the lines start anew. -/
theorem rawLines_append {first : List α} (hfirst : Complete nl first) (second : List α) :
    rawLines nl (first ++ second) = rawLines nl first ++ rawLines nl second := by
  induction first with
  | nil => rfl
  | cons head rest ih =>
      have hrest : Complete nl rest := hfirst.of_cons
      by_cases hhead : head = nl
      · subst hhead
        rw [List.cons_append, rawLines_cons_nl, rawLines_cons_nl, ih hrest,
          List.cons_append]
      · rw [List.cons_append, rawLines_cons_of_ne hhead, rawLines_cons_of_ne hhead,
          ih hrest]
        cases hlines : rawLines nl rest with
        | nil =>
            have hnil := (rawLines_eq_nil_iff rest).mp hlines
            subst hnil
            exact absurd (hfirst head (by simp)) hhead
        | cons line lines => simp

theorem rawLines_of_not_mem {body : List α} (hbody : nl ∉ body) (hne : body ≠ []) :
    rawLines nl body = [body] := by
  induction body with
  | nil => exact absurd rfl hne
  | cons head rest ih =>
      have hhead : head ≠ nl := fun heq => hbody (by simp [heq])
      rw [rawLines_cons_of_ne hhead]
      cases rest with
      | nil => rfl
      | cons next rest =>
          rw [ih (fun hmem => hbody (by simp [hmem])) (by simp)]
          rfl

theorem rawLines_line {line : List α} (hline : IsLine nl line) :
    rawLines nl line = [line] := by
  obtain ⟨body, hbody, rfl⟩ := hline
  induction body with
  | nil => simp [rawLines]
  | cons head rest ih =>
      have hhead : head ≠ nl := fun heq => hbody (by simp [heq])
      rw [List.cons_append, rawLines_cons_of_ne hhead,
        ih (fun hmem => hbody (by simp [hmem]))]
      rfl

/-- Writing lines and reading them again gives the lines. -/
theorem rawLines_flatten_of_lines {lines : List (List α)}
    (hlines : ∀ line ∈ lines, IsLine nl line) : rawLines nl lines.flatten = lines := by
  induction lines with
  | nil => rfl
  | cons line rest ih =>
      have hline := hlines line (by simp)
      rw [List.flatten_cons, rawLines_append hline.complete, rawLines_line hline,
        ih fun other hother => hlines other (by simp [hother])]
      rfl

/-- What is read is a terminated line or, as the last one, a line without end. -/
theorem mem_rawLines {text line : List α} (hmem : line ∈ rawLines nl text) :
    line ≠ [] ∧ (IsLine nl line ∨ nl ∉ line) := by
  induction text generalizing line with
  | nil => simp at hmem
  | cons first rest ih =>
      by_cases hfirst : first = nl
      · subst hfirst
        rw [rawLines_cons_nl] at hmem
        rcases List.mem_cons.mp hmem with rfl | hmem
        · exact ⟨by simp, Or.inl ⟨[], by simp, rfl⟩⟩
        · exact ih hmem
      · rw [rawLines_cons_of_ne hfirst] at hmem
        cases hlines : rawLines nl rest with
        | nil =>
            rw [hlines] at hmem
            simp only [List.headD_nil, List.tail_nil, List.mem_singleton] at hmem
            subst hmem
            exact ⟨by simp, Or.inr (by simpa using Ne.symm hfirst)⟩
        | cons head lines =>
            rw [hlines] at hmem ih
            simp only [List.headD_cons, List.tail_cons, List.mem_cons] at hmem
            rcases hmem with rfl | hmem
            · refine ⟨by simp, ?_⟩
              rcases (@ih head (by simp)).2 with ⟨body, hbody, rfl⟩ | hnot
              · exact Or.inl ⟨first :: body, by simp [hbody, Ne.symm hfirst], rfl⟩
              · exact Or.inr (by simp [hnot, Ne.symm hfirst])
            · exact ih (by simp [hmem])

/-- Every line of a complete text is terminated. -/
theorem isLine_of_mem_rawLines {text line : List α} (htext : Complete nl text)
    (hmem : line ∈ rawLines nl text) : IsLine nl line := by
  induction text generalizing line with
  | nil => simp at hmem
  | cons first rest ih =>
      have hrest : ∀ other ∈ rawLines nl rest, IsLine nl other :=
        fun _ hother => ih htext.of_cons hother
      by_cases hfirst : first = nl
      · subst hfirst
        rw [rawLines_cons_nl] at hmem
        rcases List.mem_cons.mp hmem with rfl | hmem
        · exact ⟨[], by simp, rfl⟩
        · exact hrest _ hmem
      · rw [rawLines_cons_of_ne hfirst] at hmem
        cases hlines : rawLines nl rest with
        | nil =>
            -- `first` would be an unterminated last line
            obtain rfl := (rawLines_eq_nil_iff rest).mp hlines
            exact absurd (htext first (by simp)) hfirst
        | cons head lines =>
            rw [hlines] at hmem
            simp only [List.headD_cons, List.tail_cons, List.mem_cons] at hmem
            rcases hmem with rfl | hmem
            · obtain ⟨body, hbody, rfl⟩ := hrest head (by simp [hlines])
              exact ⟨first :: body, by simp [hbody, Ne.symm hfirst], rfl⟩
            · exact hrest _ (by simp [hlines, hmem])

theorem isLine_of_getLast {text line : List α} (hmem : line ∈ rawLines nl text)
    (hend : line.getLast? = some nl) : IsLine nl line := by
  rcases (mem_rawLines hmem).2 with hline | hnot
  · exact hline
  · exact absurd (List.mem_of_getLast? hend) hnot

theorem chomp_isLine {body : List α} (hbody : nl ∉ body) :
    chomp nl (body ++ [nl]) = body := by
  rw [chomp, List.rdropWhile_concat_pos _ _ _ (by simp)]
  refine List.rdropWhile_eq_self_iff.mpr ?_
  intro hne hlast
  simp only [decide_eq_true_eq] at hlast
  exact hbody (hlast ▸ List.getLast_mem hne)

/-- Taking the terminator off a line and putting it back. -/
theorem chomp_of_notMem {line : List α} (hline : nl ∉ line) : chomp nl line = line :=
  List.rdropWhile_eq_self_iff.mpr fun hne hlast => by
    refine hline ?_
    rw [← (by simpa using hlast : line.getLast hne = nl)]
    exact List.getLast_mem hne

theorem chomp_snoc {line : List α} (hline : IsLine nl line) : chomp nl line ++ [nl] = line := by
  obtain ⟨body, hbody, rfl⟩ := hline
  rw [chomp_isLine hbody]

variable (nl) in
/-- The terminated lines of a text. -/
def wholeLines (text : List α) : List (List α) :=
  (rawLines nl text).filter fun line => line.getLast? = some nl

theorem mem_wholeLines {text line : List α} :
    line ∈ wholeLines nl text ↔ line ∈ rawLines nl text ∧ IsLine nl line := by
  rw [wholeLines, List.mem_filter, decide_eq_true_eq]
  constructor
  · rintro ⟨hmem, hend⟩
    exact ⟨hmem, isLine_of_getLast hmem hend⟩
  · rintro ⟨hmem, body, -, rfl⟩
    exact ⟨hmem, by simp⟩

/-- Only the last line can lack its end. -/
theorem wholeLines_isPrefix (text : List α) : wholeLines nl text <+: rawLines nl text := by
  induction text with
  | nil => exact List.prefix_rfl
  | cons first rest ih =>
      rw [wholeLines] at ih ⊢
      by_cases hfirst : first = nl
      · subst hfirst
        rw [rawLines_cons_nl, List.filter_cons_of_pos (by simp)]
        exact List.cons_prefix_cons.mpr ⟨rfl, ih⟩
      · rw [rawLines_cons_of_ne hfirst]
        cases hlines : rawLines nl rest with
        | nil => simp [hfirst]
        | cons head lines =>
            have hne : head ≠ [] := (mem_rawLines (hlines ▸ List.mem_cons_self)).1
            have hlast : (first :: head).getLast? = head.getLast? := by
              cases head with
              | nil => exact absurd rfl hne
              | cons => simp
            rw [hlines] at ih
            simp only [List.headD_cons, List.tail_cons]
            by_cases hend : head.getLast? = some nl
            · rw [List.filter_cons_of_pos (by simp [hend])] at ih
              rw [List.filter_cons_of_pos (by simp [hlast, hend])]
              exact List.cons_prefix_cons.mpr ⟨rfl, (List.cons_prefix_cons.mp ih).2⟩
            · rw [List.filter_cons_of_neg (by simp [hend])] at ih
              rw [List.filter_cons_of_neg (by simp [hlast, hend])]
              cases hkept : lines.filter fun line => line.getLast? = some nl with
              | nil => exact List.nil_prefix
              | cons other more =>
                  -- a terminated line behind this one would have to be this one
                  rw [hkept] at ih
                  have hother : other = head := (List.cons_prefix_cons.mp ih).1
                  have hmem : other ∈ lines.filter fun line => line.getLast? = some nl := by
                    rw [hkept]
                    exact List.mem_cons_self
                  exact absurd (of_decide_eq_true (List.mem_filter.mp hmem).2)
                    (by rw [hother]; exact hend)

/-- Complete lines are the first lines of a text when they are its beginning. -/
theorem prefix_rawLines_iff {lines : List (List α)} (hlines : ∀ line ∈ lines, IsLine nl line)
    {text : List α} : lines <+: rawLines nl text ↔ lines.flatten <+: text := by
  constructor
  · rintro ⟨rest, hrest⟩
    refine ⟨rest.flatten, ?_⟩
    rw [← List.flatten_append, hrest, rawLines_flatten]
  · rintro ⟨rest, rfl⟩
    rw [rawLines_append (complete_flatten hlines), rawLines_flatten_of_lines hlines]
    exact List.prefix_append lines _

/-- Complete lines at the beginning of a text are its first terminated lines. -/
theorem prefix_wholeLines {lines : List (List α)} (hlines : ∀ line ∈ lines, IsLine nl line)
    {text : List α} (hbegin : lines.flatten <+: text) : lines <+: wholeLines nl text := by
  have hsame : lines.filter (fun line => line.getLast? = some nl) = lines :=
    List.filter_eq_self.mpr fun line hline => by
      obtain ⟨body, -, rfl⟩ := hlines line hline
      simp
  rw [← hsame]
  exact ((prefix_rawLines_iff hlines).mpr hbegin).filter _

/-- Terminated lines stay when a text grows at its end. -/
theorem wholeLines_isPrefix_append (text more : List α) :
    wholeLines nl text <+: wholeLines nl (text ++ more) := by
  have hlines : ∀ line ∈ wholeLines nl text, IsLine nl line :=
    fun line hline => (mem_wholeLines.mp hline).2
  exact prefix_wholeLines hlines
    (((prefix_rawLines_iff hlines).mp (wholeLines_isPrefix text)).trans (List.prefix_append _ _))

/-- Without its first line, which a cut may have shortened, the end of a text
has the last lines of the whole text. -/
theorem rawLines_suffix (front back : List α) :
    (rawLines nl back).tail <:+ (rawLines nl (front ++ back)).tail := by
  induction front with
  | nil => exact List.suffix_refl _
  | cons head rest ih =>
      rw [List.cons_append]
      by_cases hhead : head = nl
      · subst hhead
        rw [rawLines_cons_nl, List.tail_cons]
        exact ih.trans (List.tail_suffix _)
      · rw [rawLines_cons_of_ne hhead, List.tail_cons]
        exact ih

end Justup.Lib.Lines
