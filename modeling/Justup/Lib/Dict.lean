import Mathlib

/-!
# Dictionaries read in the order of their keys

A dictionary that is filled item by item and then iterated over its sorted keys
is a list of pairs kept in the order of the keys.  `alter` is the one way to
fill it: it replaces the value of a key by a function of the old one.
-/

namespace Justup.Lib.Dict

variable {K V X : Type*} [LinearOrder K]

/-- The value stored under a key. -/
def get? (key : K) : List (K × V) → Option V
  | [] => none
  | (other, value) :: rest => if key = other then some value else get? key rest

/-- Replace the value of a key by a function of the value it had, if any. -/
def alter (key : K) (change : Option V → V) : List (K × V) → List (K × V)
  | [] => [(key, change none)]
  | (other, value) :: rest =>
      if key < other then (key, change none) :: (other, value) :: rest
      else if key = other then (other, change (some value)) :: rest
      else (other, value) :: alter key change rest

/-- Put a list of items into a dictionary, each under its own key. -/
def fill (keyOf : X → K) (add : Option V → X → V) (items : List X)
    (dict : List (K × V)) : List (K × V) :=
  items.foldl (fun dict item => alter (keyOf item) (fun old => add old item) dict) dict

/-- The keys increase strictly. -/
def Ordered (dict : List (K × V)) : Prop := dict.Pairwise fun a b => a.1 < b.1

theorem ordered_nil : Ordered ([] : List (K × V)) := List.Pairwise.nil

theorem mem_alter {key : K} {change : Option V → V} {dict : List (K × V)} {entry : K × V}
    (hmem : entry ∈ alter key change dict) :
    entry ∈ dict ∨ entry.1 = key ∧
      (entry.2 = change none ∨ ∃ old, (key, old) ∈ dict ∧ entry.2 = change (some old)) := by
  induction dict with
  | nil =>
      simp only [alter, List.mem_singleton] at hmem
      subst hmem
      exact Or.inr ⟨rfl, Or.inl rfl⟩
  | cons head rest ih =>
      obtain ⟨other, value⟩ := head
      unfold alter at hmem
      split_ifs at hmem with hlt heq
      · rcases List.mem_cons.mp hmem with rfl | hmem
        · exact Or.inr ⟨rfl, Or.inl rfl⟩
        · exact Or.inl hmem
      · rcases List.mem_cons.mp hmem with rfl | hmem
        · exact Or.inr ⟨heq.symm, Or.inr ⟨value, by simp [heq], rfl⟩⟩
        · exact Or.inl (List.mem_cons_of_mem _ hmem)
      · rcases List.mem_cons.mp hmem with rfl | hmem
        · exact Or.inl (by simp)
        · rcases ih hmem with hold | ⟨hkey, hnew | ⟨old, hold, hvalue⟩⟩
          · exact Or.inl (List.mem_cons_of_mem _ hold)
          · exact Or.inr ⟨hkey, Or.inl hnew⟩
          · exact Or.inr ⟨hkey, Or.inr ⟨old, List.mem_cons_of_mem _ hold, hvalue⟩⟩

theorem mem_alter_key {key : K} {change : Option V → V} {dict : List (K × V)}
    {entry : K × V} (hmem : entry ∈ alter key change dict) :
    entry ∈ dict ∨ entry.1 = key :=
  (mem_alter hmem).imp_right And.left

theorem Ordered.alter {dict : List (K × V)} (hdict : Ordered dict) (key : K)
    (change : Option V → V) : Ordered (alter key change dict) := by
  induction dict with
  | nil => exact List.pairwise_singleton _ _
  | cons head rest ih =>
      obtain ⟨other, value⟩ := head
      obtain ⟨hhead, hrest⟩ := List.pairwise_cons.mp hdict
      unfold Dict.alter
      split_ifs with hlt heq
      · refine List.pairwise_cons.mpr ⟨?_, hdict⟩
        intro entry hentry
        rcases List.mem_cons.mp hentry with rfl | hentry
        · exact hlt
        · exact hlt.trans (hhead entry hentry)
      · exact List.pairwise_cons.mpr ⟨hhead, hrest⟩
      · refine List.pairwise_cons.mpr ⟨?_, ih hrest⟩
        intro entry hentry
        rcases mem_alter_key hentry with hold | hkey
        · exact hhead entry hold
        · rw [hkey]
          exact lt_of_le_of_ne (not_lt.mp hlt) (Ne.symm heq)

theorem Ordered.fill {keyOf : X → K} {add : Option V → X → V} (items : List X)
    {dict : List (K × V)} (hdict : Ordered dict) : Ordered (fill keyOf add items dict) := by
  induction items generalizing dict with
  | nil => exact hdict
  | cons item rest ih => exact ih (hdict.alter _ _)

/-- A key below all the keys of a dictionary has no value. -/
theorem get?_eq_none_of_lt {key : K} {dict : List (K × V)}
    (hlt : ∀ entry ∈ dict, key < entry.1) : get? key dict = none := by
  induction dict with
  | nil => rfl
  | cons head rest ih =>
      rw [get?, if_neg (hlt head (by simp)).ne]
      exact ih fun entry hentry => hlt entry (by simp [hentry])

theorem mem_of_get? {key : K} {value : V} {dict : List (K × V)}
    (hget : get? key dict = some value) : (key, value) ∈ dict := by
  induction dict with
  | nil => simp [get?] at hget
  | cons head rest ih =>
      rw [get?] at hget
      split_ifs at hget with heq
      · cases hget
        simp [heq]
      · exact List.mem_cons_of_mem _ (ih hget)

theorem get?_of_mem {dict : List (K × V)} (hdict : Ordered dict) {entry : K × V}
    (hmem : entry ∈ dict) : get? entry.1 dict = some entry.2 := by
  induction dict with
  | nil => simp at hmem
  | cons head rest ih =>
      obtain ⟨hhead, hrest⟩ := List.pairwise_cons.mp hdict
      rw [get?]
      rcases List.mem_cons.mp hmem with rfl | hmem
      · rw [if_pos rfl]
      · rw [if_neg (hhead entry hmem).ne']
        exact ih hrest hmem

theorem get?_cons_of_ne {key : K} {head : K × V} (hne : key ≠ head.1) (rest : List (K × V)) :
    get? key (head :: rest) = get? key rest := by
  rw [get?, if_neg hne]

/-- What `alter` does to every key. -/
theorem get?_alter {dict : List (K × V)} (hdict : Ordered dict) (key other : K)
    (change : Option V → V) :
    get? other (alter key change dict) =
      if other = key then some (change (get? key dict)) else get? other dict := by
  induction dict with
  | nil => simp [alter, get?]
  | cons head rest ih =>
      obtain ⟨hhead, hrest⟩ := List.pairwise_cons.mp hdict
      rcases lt_trichotomy key head.1 with hlt | heq | hgt
      · have hnone : get? key (head :: rest) = none :=
          get?_eq_none_of_lt fun entry hentry => by
            rcases List.mem_cons.mp hentry with rfl | hentry
            · exact hlt
            · exact hlt.trans (hhead entry hentry)
        rw [alter, if_pos hlt, hnone, get?]
      · subst heq
        by_cases hkey : other = head.1
        · simp [alter, get?, hkey]
        · simp [alter, get?, hkey]
      · rw [alter, if_neg hgt.le.not_gt, if_neg hgt.ne']
        by_cases hkey : other = key
        · subst hkey
          rw [if_pos rfl, get?_cons_of_ne hgt.ne', get?_cons_of_ne hgt.ne', ih hrest,
            if_pos rfl]
        · rw [if_neg hkey, get?, get?, ih hrest, if_neg hkey]

/-- The value of a key after a filling depends on the items of that key only. -/
theorem get?_fill {keyOf : X → K} {add : Option V → X → V} (items : List X)
    {dict : List (K × V)} (hdict : Ordered dict) (key : K) :
    get? key (fill keyOf add items dict) =
      (items.filter fun item => key = keyOf item).foldl
        (fun old item => some (add old item)) (get? key dict) := by
  induction items generalizing dict with
  | nil => rfl
  | cons item rest ih =>
      have hstep : fill keyOf add (item :: rest) dict =
          fill keyOf add rest (alter (keyOf item) (fun old => add old item) dict) := rfl
      rw [hstep, ih (hdict.alter _ _), get?_alter hdict]
      by_cases hkey : key = keyOf item
      · subst hkey
        simp
      · simp [hkey]

/-- Filling one key, when `add` starts from a default. -/
theorem foldl_some_getD {base : V} {add : V → X → V} (items : List X) (old : Option V) :
    items.foldl (fun old item => some (add (old.getD base) item)) old =
      if items = [] then old else some (items.foldl add (old.getD base)) := by
  induction items generalizing old with
  | nil => rfl
  | cons item rest ih =>
      rw [List.foldl_cons, ih]
      by_cases hrest : rest = []
      · simp [hrest]
      · simp [hrest]

/-- The value of a key when every value starts from a default: nothing for a key
without items, else the items of the key added to the default. -/
theorem get?_fill_getD (keyOf : X → K) (base : V) (add : V → X → V) (items : List X)
    (key : K) :
    get? key (fill keyOf (fun old item => add (old.getD base) item) items []) =
      if items.filter (fun item => key = keyOf item) = [] then none
      else some ((items.filter fun item => key = keyOf item).foldl add base) := by
  rw [get?_fill items ordered_nil, foldl_some_getD]
  rfl

end Justup.Lib.Dict
