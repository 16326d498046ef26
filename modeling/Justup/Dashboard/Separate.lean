import Mathlib.Data.List.Pairwise
import Mathlib.Data.List.Forall2
import Mathlib.Data.List.Nodup
import Mathlib.Order.Basic
import Justup.Dashboard.Grid

/-!
# Separating the entries of a layout

What `separateOverlaps` does with a layout: entries move down only, no two
visible ones overlap behind it, and a layout without overlaps stays as it is.
-/

namespace Justup.Dashboard

/-- Two entries that do not overlap. -/
def Apart (a b : Entry) : Prop := a.overlaps b = false

instance (a b : Entry) : Decidable (Apart a b) := inferInstanceAs (Decidable (_ = _))

theorem Apart.symm {a b : Entry} (h : Apart a b) : Apart b a := by
  simp only [Apart, Entry.overlaps, Bool.and_eq_false_iff, decide_eq_false_iff_not] at h ⊢
  omega

instance : Std.Symm Apart := ⟨fun _ _ => Apart.symm⟩

/-- What a separation may do to an entry. -/
structure Moved (entry moved : Entry) : Prop where
  eq : moved = { entry with y := moved.y }
  le : entry.y ≤ moved.y
  bound : moved.y = entry.y ∨ moved.y + moved.h ≤ MAX_Y

theorem Moved.refl (entry : Entry) : Moved entry entry := ⟨rfl, Int.le_refl _, .inl rfl⟩

theorem Moved.id {entry moved : Entry} (h : Moved entry moved) : moved.id = entry.id := by
  rw [h.eq]

theorem Moved.visible {entry moved : Entry} (h : Moved entry moved) :
    moved.visible = entry.visible := by
  rw [h.eq]

/-! ## One entry -/

theorem settle_spec {placed : List Entry} {entry moved : Entry}
    (h : settle placed entry = some moved) :
    Moved entry moved ∧ ∀ other ∈ placed, Apart moved other := by
  fun_induction settle placed entry with
  | case1 entry hfree =>
      obtain rfl : entry = moved := Option.some.inj h
      refine ⟨.refl entry, fun other hother => ?_⟩
      simpa [Apart] using List.find?_eq_none.mp hfree other hother
  | case2 => cases h
  | case3 entry blocker hblocker nextY hbound ih =>
      obtain ⟨hmoved, hapart⟩ := ih h
      obtain ⟨heq, hle, hlast⟩ := hmoved
      have hh : moved.h = entry.h := by rw [heq]
      rw [not_or] at hbound
      refine ⟨⟨heq, ?_, .inr ?_⟩, hapart⟩
      · exact Int.le_trans (Int.le_of_lt (Int.not_le.mp hbound.1)) hle
      · obtain hy | hy := hlast
        · rw [hy, hh]
          exact Int.not_lt.mp hbound.2
        · exact hy

theorem settle_eq_self {placed : List Entry} {entry : Entry}
    (h : ∀ other ∈ placed, Apart entry other) : settle placed entry = some entry := by
  have hfree : (placed.find? fun other => entry.overlaps other) = none :=
    List.find?_eq_none.mpr fun other hother => by simpa [Apart] using h other hother
  rw [settle, hfree]

/-! ## All entries -/

theorem placeAll_spec {placed rest result : List Entry} (h : placeAll placed rest = some result)
    (hplaced : placed.Pairwise Apart) :
    ∃ moved, result = placed ++ moved ∧ List.Forall₂ Moved rest moved ∧ result.Pairwise Apart := by
  induction rest generalizing placed with
  | nil =>
      cases h
      exact ⟨[], (List.append_nil _).symm, .nil, hplaced⟩
  | cons entry rest ih =>
      obtain ⟨first, hfirst, hrest⟩ := Option.bind_eq_some_iff.mp h
      obtain ⟨hmoved, hapart⟩ := settle_spec hfirst
      have hsnoc : (placed ++ [first]).Pairwise Apart := by
        refine List.pairwise_append.mpr ⟨hplaced, List.pairwise_singleton .., ?_⟩
        intro other hother last hlast
        rw [List.mem_singleton.mp hlast]
        exact (hapart other hother).symm
      obtain ⟨moved, rfl, hall, hpairwise⟩ := ih hrest hsnoc
      exact ⟨first :: moved, List.append_assoc .., .cons hmoved hall, hpairwise⟩

theorem placeAll_eq_self {placed rest : List Entry} (h : (placed ++ rest).Pairwise Apart) :
    placeAll placed rest = some (placed ++ rest) := by
  induction rest generalizing placed with
  | nil => rw [placeAll, List.append_nil]
  | cons entry rest ih =>
      have hentry : settle placed entry = some entry :=
        settle_eq_self fun other hother =>
          ((List.pairwise_append.mp h).2.2 other hother entry (List.mem_cons_self ..)).symm
      have hassoc : placed ++ entry :: rest = placed ++ [entry] ++ rest := by simp
      rw [placeAll, hentry, hassoc]
      exact ih (hassoc ▸ h)

/-! ## Layouts -/

/-- No two visible entries overlap. -/
def VisibleApart (layout : List Entry) : Prop :=
  layout.Pairwise fun a b => a.visible = true → b.visible = true → Apart a b

instance (layout : List Entry) : Decidable (VisibleApart layout) :=
  inferInstanceAs (Decidable (List.Pairwise _ _))

theorem eq_of_id_eq {layout : List Entry} (hids : (layout.map Entry.id).Nodup) {a b : Entry}
    (ha : a ∈ layout) (hb : b ∈ layout) (h : a.id = b.id) : a = b :=
  List.inj_on_of_nodup_map hids ha hb h

theorem mem_byPosition {layout : List Entry} {entry : Entry} :
    entry ∈ (layout.filter Entry.visible).mergeSort Entry.before ↔
      entry ∈ layout ∧ entry.visible = true := by
  rw [(List.mergeSort_perm _ _).mem_iff, List.mem_filter]

theorem separateOverlaps_spec {layout separated : List Entry}
    (hids : (layout.map Entry.id).Nodup) (h : separateOverlaps layout = some separated) :
    ∃ move : Entry → Entry, separated = layout.map move ∧
      (∀ entry ∈ layout, Moved entry (move entry)) ∧ VisibleApart separated := by
  obtain ⟨moved, hplaced, rfl⟩ := Option.map_eq_some_iff.mp h
  obtain ⟨_, rfl, hall, hapart⟩ := placeAll_spec hplaced .nil
  set move : Entry → Entry := fun entry =>
    (moved.find? fun other => other.id = entry.id).getD entry with hmove
  -- what is found under the id of an entry is that entry, moved
  have hfound : ∀ entry ∈ layout, ∀ other, (moved.find? fun other => other.id = entry.id) =
      some other → other ∈ moved ∧ Moved entry other := by
    intro entry hentry other hfind
    have hmem := List.mem_of_find?_eq_some hfind
    have hid : other.id = entry.id := by simpa using List.find?_some hfind
    obtain ⟨i, hi, rfl⟩ := List.mem_iff_getElem.mp hmem
    have hlength : i < ((layout.filter Entry.visible).mergeSort Entry.before).length :=
      hall.length_eq ▸ hi
    have hmoved := hall.get hlength hi
    have hsource := (mem_byPosition.mp (List.getElem_mem hlength)).1
    refine ⟨hmem, ?_⟩
    rwa [← eq_of_id_eq hids hsource hentry (hmoved.id.symm.trans hid)]
  have hmoves : ∀ entry ∈ layout, Moved entry (move entry) := by
    intro entry hentry
    simp only [hmove]
    cases hfind : moved.find? fun other => other.id = entry.id with
    | none => exact .refl entry
    | some other => exact (hfound entry hentry other hfind).2
  have hmem : ∀ entry ∈ layout, entry.visible = true → move entry ∈ moved := by
    intro entry hentry hvisible
    have hsorted := mem_byPosition.mpr ⟨hentry, hvisible⟩
    obtain ⟨i, hi, hget⟩ := List.mem_iff_getElem.mp hsorted
    have hlength : i < moved.length := hall.length_eq ▸ hi
    have hmoved := hall.get hi hlength
    simp only [hmove]
    cases hfind : moved.find? fun other => other.id = entry.id with
    | none =>
        have hno := List.find?_eq_none.mp hfind _ (List.getElem_mem hlength)
        simp only [List.get_eq_getElem] at hmoved
        rw [hget] at hmoved
        exact absurd hmoved.id (by simpa using hno)
    | some other => exact (hfound entry hentry other hfind).1
  refine ⟨move, rfl, hmoves, List.pairwise_map.mpr ?_⟩
  have hdistinct : layout.Pairwise fun a b => a.id ≠ b.id := List.pairwise_map.mp hids
  refine hdistinct.imp_of_mem fun {a b} ha hb hne hvisible hvisible' => ?_
  rw [(hmoves a ha).visible] at hvisible
  rw [(hmoves b hb).visible] at hvisible'
  refine hapart.forall (hmem a ha hvisible) (hmem b hb hvisible') fun heq => ?_
  exact hne ((hmoves a ha).id.symm.trans ((congrArg Entry.id heq).trans (hmoves b hb).id))

/-- A layout without overlaps is not changed. -/
theorem separateOverlaps_eq_self {layout : List Entry} (hids : (layout.map Entry.id).Nodup)
    (h : VisibleApart layout) : separateOverlaps layout = some layout := by
  have hvisible : (layout.filter Entry.visible).Pairwise Apart := by
    refine (h.filter _).imp_of_mem fun ha hb hapart => ?_
    exact hapart (List.of_mem_filter ha) (List.of_mem_filter hb)
  have hsorted : ((layout.filter Entry.visible).mergeSort Entry.before).Pairwise Apart :=
    ((List.mergeSort_perm _ _).pairwise_iff Apart.symm).mpr hvisible
  have hall : placeAll [] _ = some ([] ++ _) := placeAll_eq_self hsorted
  rw [List.nil_append] at hall
  rw [separateOverlaps, hall, Option.map_some]
  congr 1
  refine (List.map_congr_left fun entry hentry => ?_).trans (List.map_id layout)
  cases hfind : List.find? _ _ with
  | none => rfl
  | some other =>
      have hid : other.id = entry.id := by simpa using List.find?_some hfind
      have hother := (mem_byPosition.mp (List.mem_of_find?_eq_some hfind)).1
      exact eq_of_id_eq hids hother hentry hid

end Justup.Dashboard
