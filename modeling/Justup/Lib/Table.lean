import Mathlib

/-!
# Tables with a key

A table is the list of its rows; a key function names each row once.  Rows are
found by their key, changed one by one without changing the key, filtered,
appended, or put in the place of the row with the same key.
-/

namespace Justup.Lib.Table

variable {α κ : Type*} {key : α → κ} {rows : List α}

/-- No two rows have the same key. -/
def Keyed (key : α → κ) (rows : List α) : Prop := (rows.map key).Nodup

theorem keyed_nil : Keyed key [] := List.nodup_nil

theorem Keyed.eq_of_mem (hrows : Keyed key rows) {a b : α} (ha : a ∈ rows) (hb : b ∈ rows)
    (hkey : key a = key b) : a = b :=
  List.inj_on_of_nodup_map hrows ha hb hkey

theorem Keyed.sublist {others : List α} (hrows : Keyed key rows) (hothers : others.Sublist rows) :
    Keyed key others :=
  List.Nodup.sublist (hothers.map key) hrows

theorem Keyed.filter (hrows : Keyed key rows) (keep : α → Bool) : Keyed key (rows.filter keep) :=
  hrows.sublist List.filter_sublist

theorem Keyed.map (hrows : Keyed key rows) {change : α → α}
    (hchange : ∀ row, key (change row) = key row) : Keyed key (rows.map change) := by
  have hkeys : (rows.map change).map key = rows.map key := by
    rw [List.map_map]
    exact List.map_congr_left fun row _ => hchange row
  rw [Keyed, hkeys]
  exact hrows

theorem Keyed.snoc (hrows : Keyed key rows) {new : α} (hnew : ∀ row ∈ rows, key row ≠ key new) :
    Keyed key (rows ++ [new]) := by
  rw [Keyed, List.map_append, List.nodup_append]
  refine ⟨hrows, by simp, ?_⟩
  intro k hk k' hk'
  obtain ⟨row, hrow, rfl⟩ := List.mem_map.mp hk
  obtain rfl : k' = key new := by simpa using hk'
  exact hnew row hrow

/-- A condition that fixes the key is met by at most one row. -/
theorem Keyed.countP_eq_one_iff (hrows : Keyed key rows) {p : α → Bool} {k : κ}
    (hkey : ∀ row ∈ rows, p row = true → key row = k) :
    rows.countP p = 1 ↔ ∃ row ∈ rows, p row = true := by
  induction rows with
  | nil => simp
  | cons row rest ih =>
      obtain ⟨hnew, hrest⟩ := List.nodup_cons.mp hrows
      have hinner := ih hrest fun other hother => hkey other (by simp [hother])
      by_cases hp : p row = true
      · have hnone : rest.countP p = 0 := by
          rw [List.countP_eq_zero]
          intro other hother hpother
          have hsame : key other = key row :=
            (hkey other (by simp [hother]) hpother).trans (hkey row (by simp) hp).symm
          exact hnew (hsame ▸ List.mem_map_of_mem hother)
        simp [hp, hnone]
      · simp [hp, hinner]

variable [DecidableEq κ]

/-- Insert a row, or put it in the place of the row with its key. -/
def replace (key : α → κ) (new : α) (rows : List α) : List α :=
  rows.filter (fun row => key row ≠ key new) ++ [new]

theorem mem_replace {new row : α} :
    row ∈ replace key new rows ↔ row ∈ rows ∧ key row ≠ key new ∨ row = new := by
  simp [replace]

theorem Keyed.replace (hrows : Keyed key rows) (new : α) :
    Keyed key (replace key new rows) := by
  refine (hrows.filter _).snoc ?_
  intro row hrow
  simpa using (List.mem_filter.mp hrow).2

/-- The row with a key. -/
def row? (key : α → κ) (k : κ) (rows : List α) : Option α := rows.find? fun row => key row = k

theorem mem_of_row? {k : κ} {row : α} (hrow : row? key k rows = some row) :
    row ∈ rows ∧ key row = k :=
  ⟨List.mem_of_find?_eq_some hrow, by simpa using List.find?_some hrow⟩

theorem row?_of_mem (hrows : Keyed key rows) {row : α} (hrow : row ∈ rows) :
    row? key (key row) rows = some row := by
  cases hfind : row? key (key row) rows with
  | none =>
      have hnone := List.find?_eq_none.mp hfind row hrow
      simp at hnone
  | some found =>
      obtain ⟨hmem, hkey⟩ := mem_of_row? hfind
      rw [hrows.eq_of_mem hmem hrow hkey]

theorem row?_eq_some_iff (hrows : Keyed key rows) {k : κ} {row : α} :
    row? key k rows = some row ↔ row ∈ rows ∧ key row = k := by
  constructor
  · exact mem_of_row?
  · rintro ⟨hmem, rfl⟩
    exact row?_of_mem hrows hmem

theorem row?_map {change : α → α} (hchange : ∀ row, key (change row) = key row) (k : κ)
    (rows : List α) : row? key k (rows.map change) = (row? key k rows).map change := by
  induction rows with
  | nil => rfl
  | cons row rest ih =>
      by_cases hkey : key row = k
      · simp [row?, hchange, hkey]
      · simp only [row?, List.map_cons, List.find?_cons, hchange, hkey, decide_false] at ih ⊢
        exact ih

theorem row?_snoc (new : α) (k : κ) (rows : List α) :
    row? key k (rows ++ [new]) =
      (row? key k rows).or (if key new = k then some new else none) := by
  rw [row?, List.find?_append]
  by_cases hkey : key new = k <;> simp [row?, hkey]

theorem row?_filter (hrows : Keyed key rows) (keep : α → Bool) (k : κ) :
    row? key k (rows.filter keep) = (row? key k rows).filter keep := by
  refine Option.ext fun row => ?_
  rw [row?_eq_some_iff (hrows.filter keep), Option.filter_eq_some_iff, row?_eq_some_iff hrows,
    List.mem_filter, and_right_comm]

theorem row?_filter_ne (k k' : κ) (rows : List α) :
    row? key k' (rows.filter fun row => key row ≠ k) = if k' = k then none else row? key k' rows := by
  rw [row?, List.find?_filter]
  split_ifs with hkey
  · rw [List.find?_eq_none]
    simp [hkey]
  · refine congrArg (List.find? · rows) (funext fun row => ?_)
    by_cases hrow : key row = k'
    · simp [hrow, hkey]
    · simp [hrow]

/-- What `replace` does to every key. -/
theorem row?_replace (new : α) (k : κ) (rows : List α) :
    row? key k (replace key new rows) = if k = key new then some new else row? key k rows := by
  rw [replace, row?_snoc, row?_filter_ne]
  by_cases hkey : k = key new
  · rw [if_pos hkey, if_pos hkey, if_pos hkey.symm]
    rfl
  · rw [if_neg hkey, if_neg hkey, if_neg (Ne.symm hkey), Option.or_none]

theorem length_replace (hrows : Keyed key rows) (new : α) :
    (replace key new rows).length =
      if (row? key (key new) rows).isSome then rows.length else rows.length + 1 := by
  rw [replace, List.length_append, List.length_singleton]
  induction rows with
  | nil => rfl
  | cons row rest ih =>
      obtain ⟨hrow, hrest⟩ := List.nodup_cons.mp hrows
      have hinner := ih hrest
      by_cases hkey : key row = key new
      · have hkeep : rest.filter (fun other => decide (key other ≠ key new)) = rest := by
          refine List.filter_eq_self.mpr fun other hother => decide_eq_true fun heq => ?_
          exact hrow (hkey.trans heq.symm ▸ List.mem_map_of_mem hother)
        have hfound : row? key (key new) (row :: rest) = some row :=
          List.find?_cons_of_pos (by simpa using hkey)
        rw [List.filter_cons_of_neg (by simp [hkey]), hkeep, hfound]
        rfl
      · have hskipped : row? key (key new) (row :: rest) = row? key (key new) rest :=
          List.find?_cons_of_neg (by simpa using hkey)
        rw [List.filter_cons_of_pos (by simp [hkey]), List.length_cons, hinner, hskipped,
          List.length_cons]
        split <;> rfl

/-- Change the row with a key. -/
def update (key : α → κ) (k : κ) (change : α → α) (rows : List α) : List α :=
  rows.map fun row => if key row = k then change row else row

theorem mem_update {k : κ} {change : α → α} {row : α} :
    row ∈ update key k change rows ↔
      ∃ old ∈ rows, (if key old = k then change old else old) = row := by
  simp [update]

theorem key_update {k : κ} {change : α → α} (hchange : ∀ row, key (change row) = key row)
    (row : α) : key (if key row = k then change row else row) = key row := by
  split
  · exact hchange row
  · rfl

theorem update_of_row?_eq_none {k : κ} (hnone : row? key k rows = none) (change : α → α) :
    update key k change rows = rows := by
  refine (List.map_congr_left fun row hrow => ?_).trans (List.map_id rows)
  have hkey := List.find?_eq_none.mp hnone row hrow
  rw [if_neg (by simpa using hkey)]
  rfl

theorem Keyed.update (hrows : Keyed key rows) {change : α → α}
    (hchange : ∀ row, key (change row) = key row) (k : κ) : Keyed key (update key k change rows) :=
  hrows.map (key_update hchange)

theorem row?_update {change : α → α} (hchange : ∀ row, key (change row) = key row) (k k' : κ)
    (rows : List α) :
    row? key k' (update key k change rows) =
      if k' = k then (row? key k' rows).map change else row? key k' rows := by
  rw [update, row?_map (key_update hchange)]
  cases hrow : row? key k' rows with
  | none => split <;> rfl
  | some row =>
      obtain ⟨-, rfl⟩ := mem_of_row? hrow
      by_cases hkey : key row = k <;> simp [hkey]

/-! Putting a row with the same key in the place of one that is there. -/

theorem row?_update_const {k : κ} {old new : α} (hold : row? key k rows = some old)
    (hnew : key new = k) : row? key k (update key k (fun _ => new) rows) = some new := by
  induction rows with
  | nil => cases hold
  | cons row rest ih =>
      by_cases hkey : key row = k
      · simp [row?, update, hkey, hnew]
      · simp only [row?, update, List.map_cons, List.find?_cons, hkey, decide_false,
          if_false] at hold ih ⊢
        exact ih hold

theorem Keyed.update_const (hrows : Keyed key rows) {k : κ} {new : α} (hnew : key new = k) :
    Keyed key (Lib.Table.update key k (fun _ => new) rows) := by
  have hkeys : (Lib.Table.update key k (fun _ => new) rows).map key = rows.map key := by
    rw [Lib.Table.update, List.map_map]
    refine List.map_congr_left fun row _ => ?_
    by_cases hkey : key row = k <;> simp [hkey, hnew]
  rw [Keyed, hkeys]
  exact hrows

theorem filter_update_const {k : κ} {new : α} (hnew : key new = k) (rows : List α) :
    (update key k (fun _ => new) rows).filter (fun row => key row ≠ k) =
      rows.filter fun row => key row ≠ k := by
  induction rows with
  | nil => rfl
  | cons row rest ih =>
      by_cases hkey : key row = k
      · simpa [update, hkey, hnew] using ih
      · simpa [update, hkey] using ih

end Justup.Lib.Table
