import Mathlib.Data.List.Infix

/-!
# Cutting a sequence with an automaton

A scanner reads a sequence from left to right and decides from its state at
which symbols the sequence is cut; a symbol it cuts at is dropped.  What a later
part of the sequence is cut into depends on what stands before it only through
the state in which the scanner arrives there.
-/

namespace Justup.Lib

universe u v

/-- An automaton that cuts sequences. -/
structure Scanner (σ : Type u) (α : Type v) where
  next : σ → α → σ
  cuts : σ → α → Bool

variable {σ : Type u} {α : Type v} (scanner : Scanner σ α) {s : σ} {text later : List α} {c : α}

namespace Scanner

/-- The state behind a sequence. -/
def after (s : σ) (text : List α) : σ := text.foldl scanner.next s

/-- The pieces of a sequence. -/
def split : σ → List α → List (List α)
  | _, [] => [[]]
  | s, c :: rest =>
      if scanner.cuts s c then [] :: split (scanner.next s c) rest
      else (split (scanner.next s c) rest).modifyHead (c :: ·)

/-- No symbol of the sequence is cut at. -/
def Uncut : σ → List α → Prop
  | _, [] => True
  | s, c :: rest => scanner.cuts s c = false ∧ Uncut (scanner.next s c) rest

/-- The sequence is not cut and the scanner is back in the state. -/
def Quiet (s : σ) (text : List α) : Prop := scanner.Uncut s text ∧ scanner.after s text = s

variable {scanner}

@[simp]
theorem after_nil : scanner.after s [] = s := rfl

@[simp]
theorem after_cons : scanner.after s (c :: text) = scanner.after (scanner.next s c) text := rfl

theorem after_append : scanner.after s (text ++ later) =
    scanner.after (scanner.after s text) later := List.foldl_append

@[simp]
theorem split_nil : scanner.split s [] = [[]] := rfl

theorem split_cons : scanner.split s (c :: text) =
    if scanner.cuts s c then [] :: scanner.split (scanner.next s c) text
    else (scanner.split (scanner.next s c) text).modifyHead (c :: ·) := rfl

theorem split_ne_nil (text : List α) (s : σ) : scanner.split s text ≠ [] := by
  induction text generalizing s with
  | nil => simp
  | cons c rest ih =>
      rw [split_cons]
      split
      · simp
      · simpa using ih (scanner.next s c)

/-- The first piece of a sequence that is not cut at its head. -/
theorem exists_split_cons (hcut : ¬ scanner.cuts s c) : ∃ piece pieces,
    scanner.split (scanner.next s c) text = piece :: pieces ∧
    scanner.split s (c :: text) = (c :: piece) :: pieces := by
  rw [split_cons, if_neg hcut]
  cases hpieces : scanner.split (scanner.next s c) text with
  | nil => exact absurd hpieces (split_ne_nil _ _)
  | cons piece pieces => exact ⟨piece, pieces, rfl, rfl⟩

theorem uncut_append (text : List α) (s : σ) : scanner.Uncut s (text ++ later) ↔
    scanner.Uncut s text ∧ scanner.Uncut (scanner.after s text) later := by
  induction text generalizing s with
  | nil => simp [Uncut]
  | cons c rest ih => rw [List.cons_append, Uncut, Uncut, after_cons, ih, and_assoc]

theorem Quiet.append (htext : scanner.Quiet s text) (hlater : scanner.Quiet s later) :
    scanner.Quiet s (text ++ later) := by
  refine ⟨(uncut_append text s).mpr ⟨htext.1, ?_⟩, ?_⟩
  · rw [htext.2]
    exact hlater.1
  · rw [after_append, htext.2, hlater.2]

theorem quiet_nil : scanner.Quiet s [] := ⟨trivial, rfl⟩

theorem quiet_of_forall (hcuts : ∀ c ∈ text, scanner.cuts s c = false)
    (hnext : ∀ c ∈ text, scanner.next s c = s) : scanner.Quiet s text := by
  induction text with
  | nil => exact quiet_nil
  | cons c rest ih =>
      have hrest := ih (fun d hd => hcuts d (List.mem_cons_of_mem c hd))
        fun d hd => hnext d (List.mem_cons_of_mem c hd)
      have hhead := hnext c List.mem_cons_self
      refine ⟨⟨hcuts c List.mem_cons_self, ?_⟩, ?_⟩
      · rw [hhead]
        exact hrest.1
      · rw [after_cons, hhead]
        exact hrest.2

theorem quiet_flatMap {β : Type*} {items : List β} {f : β → List α}
    (hitems : ∀ item ∈ items, scanner.Quiet s (f item)) : scanner.Quiet s (items.flatMap f) := by
  induction items with
  | nil => exact quiet_nil
  | cons item rest ih =>
      rw [List.flatMap_cons]
      exact (hitems item List.mem_cons_self).append
        (ih fun other hother => hitems other (List.mem_cons_of_mem item hother))

theorem quiet_intercalate {separator : List α} {pieces : List (List α)}
    (hseparator : scanner.Quiet s separator) (hpieces : ∀ piece ∈ pieces, scanner.Quiet s piece) :
    scanner.Quiet s (separator.intercalate pieces) := by
  induction pieces with
  | nil => exact quiet_nil
  | cons piece rest ih =>
      have hhead := hpieces piece List.mem_cons_self
      have hrest := ih fun other hother => hpieces other (List.mem_cons_of_mem piece hother)
      cases rest with
      | nil => simpa using hhead
      | cons next rest =>
          rw [List.intercalate_cons_cons]
          exact (hhead.append hseparator).append hrest

/-! ## Where a sequence is cut -/

theorem split_of_uncut (huncut : scanner.Uncut s text) : scanner.split s text = [text] := by
  induction text generalizing s with
  | nil => rfl
  | cons c rest ih =>
      rw [split_cons, if_neg (by simp [huncut.1]), ih huncut.2]
      rfl

/-- Behind a cut the pieces are those of the rest. -/
theorem split_append_cons (hcut : scanner.cuts (scanner.after s text) c = true) :
    scanner.split s (text ++ c :: later) =
      scanner.split s text ++ scanner.split (scanner.next (scanner.after s text) c) later := by
  induction text generalizing s with
  | nil =>
      rw [after_nil] at hcut
      rw [List.nil_append, split_cons, if_pos hcut]
      rfl
  | cons d rest ih =>
      have hrest := ih hcut
      by_cases hhead : scanner.cuts s d = true
      · rw [List.cons_append, split_cons, if_pos hhead, split_cons, if_pos hhead, hrest]
        rfl
      · obtain ⟨piece, pieces, hpieces, hsplit⟩ := @exists_split_cons _ _ _ _ rest d hhead
        rw [List.cons_append, split_cons, if_neg hhead, hrest, hsplit, hpieces]
        rfl

/-- Quiet pieces are found again between the symbols that are cut at. -/
theorem split_intercalate {pieces : List (List α)} (hcut : scanner.cuts s c = true)
    (hnext : scanner.next s c = s) (hpieces : ∀ piece ∈ pieces, scanner.Quiet s piece)
    (hne : pieces ≠ []) : scanner.split s ([c].intercalate pieces) = pieces := by
  induction pieces with
  | nil => exact absurd rfl hne
  | cons piece rest ih =>
      obtain ⟨huncut, hafter⟩ := hpieces piece List.mem_cons_self
      cases rest with
      | nil =>
          rw [List.intercalate_singleton]
          exact split_of_uncut huncut
      | cons next rest =>
          have hrest := ih (fun other hother => hpieces other (List.mem_cons_of_mem piece hother))
            (by simp)
          rw [List.intercalate_cons_cons, List.append_assoc, List.singleton_append,
            split_append_cons (by rwa [hafter]), split_of_uncut huncut, hafter, hnext, hrest]
          rfl

/-- What follows without a cut belongs to the last piece. -/
theorem split_append_of_uncut {front : List (List α)} {last : List α}
    (huncut : scanner.Uncut (scanner.after s text) later)
    (hsplit : scanner.split s text = front ++ [last]) :
    scanner.split s (text ++ later) = front ++ [last ++ later] := by
  induction text generalizing s front last with
  | nil =>
      obtain ⟨rfl, hlast⟩ := List.append_eq_singleton_iff.mp hsplit.symm |>.resolve_right (by simp)
      obtain rfl := List.singleton_inj.mp hlast
      exact split_of_uncut huncut
  | cons c rest ih =>
      by_cases hhead : scanner.cuts s c = true
      · rw [split_cons, if_pos hhead] at hsplit
        rw [List.cons_append, split_cons, if_pos hhead]
        cases front with
        | nil => exact absurd (List.cons.inj hsplit).2 (split_ne_nil _ _)
        | cons piece front =>
            obtain ⟨rfl, hrest⟩ := List.cons.inj hsplit
            rw [ih huncut hrest]
            rfl
      · obtain ⟨piece, pieces, hpieces, hcons⟩ := @exists_split_cons _ _ _ _ rest c hhead
        rw [hcons] at hsplit
        rw [List.cons_append, split_cons, if_neg hhead]
        cases front with
        | nil =>
            obtain ⟨rfl, rfl⟩ := List.cons.inj hsplit
            rw [@ih _ [] piece huncut hpieces]
            rfl
        | cons first front =>
            obtain ⟨rfl, rfl⟩ := List.cons.inj hsplit
            rw [@ih _ (piece :: front) last huncut hpieces]
            rfl

/-- When every cut leads back to the state from which the scanner started, the last piece leads
from there to the state behind the sequence. -/
theorem after_getLast {start : σ} {front : List (List α)} {last : List α}
    (hreset : ∀ s c, scanner.cuts s c = true → scanner.next s c = start)
    (hsplit : scanner.split s text = front ++ [last]) :
    scanner.after (if front = [] then s else start) last = scanner.after s text := by
  induction text generalizing s front last with
  | nil =>
      obtain ⟨rfl, hlast⟩ := List.append_eq_singleton_iff.mp hsplit.symm |>.resolve_right (by simp)
      obtain rfl := List.singleton_inj.mp hlast
      rfl
  | cons c rest ih =>
      rw [after_cons]
      by_cases hhead : scanner.cuts s c = true
      · rw [split_cons, if_pos hhead] at hsplit
        cases front with
        | nil => exact absurd (List.cons.inj hsplit).2 (split_ne_nil _ _)
        | cons piece front =>
            obtain ⟨rfl, hrest⟩ := List.cons.inj hsplit
            have hlast := ih hrest
            rw [hreset s c hhead, ite_self] at hlast
            rw [if_neg (by simp), hreset s c hhead]
            exact hlast
      · obtain ⟨piece, pieces, hpieces, hcons⟩ := @exists_split_cons _ _ _ _ rest c hhead
        rw [hcons] at hsplit
        cases front with
        | nil =>
            obtain ⟨rfl, rfl⟩ := List.cons.inj hsplit
            exact @ih _ [] piece hpieces
        | cons first front =>
            obtain ⟨rfl, rfl⟩ := List.cons.inj hsplit
            have hlast := @ih _ (piece :: front) last hpieces
            simpa using hlast

end Scanner

end Justup.Lib
