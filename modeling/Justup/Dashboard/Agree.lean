import Mathlib.Tactic.MkIffOfInductiveProp
import Mathlib.Data.List.Perm.Subperm
import Justup.Dashboard.Layouts
import Justup.Dashboard.Separate

/-!
# Client and server agree on layouts

What the client makes of any stored value is a layout that the server accepts,
and an accepted layout comes back through the table and the client as it was.
-/

namespace Justup.Dashboard

/-! ## The registry -/

/-- The bounds of an entry of a widget. -/
@[mk_iff]
structure Fits (d : WidgetDef) (entry : Entry) : Prop where
  id : entry.id = d.id
  x : 0 ≤ entry.x
  y : 0 ≤ entry.y
  minW : d.minW ≤ entry.w
  w : entry.w ≤ 12
  right : entry.x + entry.w ≤ 12
  minH : d.minH ≤ entry.h
  h : entry.h ≤ 100
  bottom : entry.y + entry.h ≤ MAX_Y

instance (d : WidgetDef) (entry : Entry) : Decidable (Fits d entry) :=
  decidable_of_iff _ (fits_iff d entry).symm

/-- A widget as both sides know it. -/
@[mk_iff]
structure Known (d : WidgetDef) : Prop where
  minSize : minSize d.id = some (d.minW, d.minH)
  minW : 1 ≤ d.minW ∧ d.minW ≤ 12
  minH : 1 ≤ d.minH ∧ d.minH ≤ 100
  id : 1 ≤ d.id.length ∧ d.id.length ≤ 64
  listed : d.id ∈ DASHBOARD_WIDGETS
  default : Fits d (defaultEntry d)

instance (d : WidgetDef) : Decidable (Known d) := decidable_of_iff _ (known_iff d).symm

theorem known_of_mem {isAdmin : Bool} {d : WidgetDef} (h : d ∈ forRole isAdmin) : Known d := by
  have hall : ((forRole isAdmin).all fun d => decide (Known d)) = true := by
    cases isAdmin <;> decide +kernel
  exact of_decide_eq_true (List.all_eq_true.mp hall d h)

theorem forRole_nodup (isAdmin : Bool) : ((forRole isAdmin).map WidgetDef.id).Nodup := by
  cases isAdmin <;> decide +kernel

theorem length_forRole_le (isAdmin : Bool) :
    (forRole isAdmin).length ≤ DASHBOARD_WIDGETS.length := by
  cases isAdmin <;> decide +kernel

theorem visibleApart_defaults (isAdmin : Bool) :
    VisibleApart ((forRole isAdmin).map defaultEntry) := by
  cases isAdmin <;> decide +kernel

theorem deliveryQueue_notMem : "delivery-queue" ∉ (forRole false).map WidgetDef.id := by
  decide +kernel

/-! ## What the client makes of a stored layout -/

theorem fits_hidden {d : WidgetDef} {entry : Entry} (h : Fits d entry) (visible : Bool) :
    Fits d { entry with visible := visible } :=
  ⟨h.id, h.x, h.y, h.minW, h.w, h.right, h.minH, h.h, h.bottom⟩

theorem fits_savedEntry {d : WidgetDef} (hknown : Known d) (saved : Value) :
    Fits d (savedEntry d saved) := by
  unfold savedEntry
  split
  next x y w h mode _ _ _ _ _ =>
    split
    · exact hknown.default
    next hvalid =>
      simp only [inRange, MAX_Y, Bool.not_eq_true', Bool.not_eq_false, Bool.and_eq_true,
        decide_eq_true_eq] at hvalid
      have hw := hknown.minW
      have hh := hknown.minH
      simp only
      split
      · exact hknown.default
      next hbottom =>
        refine ⟨rfl, ?_, ?_, ?_, ?_, ?_, ?_, ?_, ?_⟩ <;> simp only [MAX_Y] at hbottom ⊢ <;> omega
  next => exact hknown.default

/-- The entry that a widget gets before overlaps are resolved. -/
def mergedEntry (stored : Option Value) (d : WidgetDef) : Entry :=
  match storedWidgets stored with
  | none => defaultEntry d
  | some widgets =>
      match byId widgets d.id with
      | none => { defaultEntry d with visible := false }
      | some saved => savedEntry d saved

theorem merged_eq (isAdmin : Bool) (stored : Option Value) :
    merged isAdmin stored = (forRole isAdmin).map (mergedEntry stored) := rfl

theorem fits_mergedEntry {d : WidgetDef} (hknown : Known d) (stored : Option Value) :
    Fits d (mergedEntry stored d) := by
  unfold mergedEntry
  split
  · exact hknown.default
  · split
    · exact fits_hidden hknown.default false
    · exact fits_savedEntry hknown _

theorem fits_of_moved {d : WidgetDef} {entry moved : Entry} (hfits : Fits d entry)
    (h : Moved entry moved) : Fits d moved := by
  obtain ⟨heq, hle, hbound⟩ := h
  obtain ⟨hid, hx, hy, hminW, hw, hright, hminH, hh, hbottom⟩ := hfits
  rw [heq] at hbound ⊢
  exact ⟨hid, hx, hy.trans hle, hminW, hw, hright, hminH, hh,
    hbound.elim (fun hsame => hsame ▸ hbottom) fun hlast => hlast⟩

/-- One entry for each widget, within its bounds. -/
def Covers (isAdmin : Bool) (layout : List Entry) : Prop :=
  ∃ entryFor : WidgetDef → Entry, layout = (forRole isAdmin).map entryFor ∧
    ∀ d ∈ forRole isAdmin, Fits d (entryFor d)

theorem Covers.ids {isAdmin : Bool} {layout : List Entry} (h : Covers isAdmin layout) :
    layout.map Entry.id = (forRole isAdmin).map WidgetDef.id := by
  obtain ⟨entryFor, rfl, hfits⟩ := h
  rw [List.map_map]
  exact List.map_congr_left fun d hd => (hfits d hd).id

theorem Covers.fits {isAdmin : Bool} {layout : List Entry} (h : Covers isAdmin layout)
    {entry : Entry} (hentry : entry ∈ layout) : ∃ d ∈ forRole isAdmin, Fits d entry := by
  obtain ⟨entryFor, rfl, hfits⟩ := h
  obtain ⟨d, hd, rfl⟩ := List.mem_map.mp hentry
  exact ⟨d, hd, hfits d hd⟩

theorem covers_merged (isAdmin : Bool) (stored : Option Value) :
    Covers isAdmin (merged isAdmin stored) :=
  ⟨mergedEntry stored, merged_eq isAdmin stored,
    fun _ hd => fits_mergedEntry (known_of_mem hd) stored⟩

theorem Covers.nodup {isAdmin : Bool} {layout : List Entry} (h : Covers isAdmin layout) :
    (layout.map Entry.id).Nodup :=
  h.ids ▸ forRole_nodup isAdmin

theorem covers_of_separateOverlaps {isAdmin : Bool} {layout separated : List Entry}
    (hcovers : Covers isAdmin layout) (h : separateOverlaps layout = some separated) :
    Covers isAdmin separated ∧ VisibleApart separated := by
  obtain ⟨move, rfl, hmoved, hapart⟩ := separateOverlaps_spec hcovers.nodup h
  obtain ⟨entryFor, rfl, hfits⟩ := hcovers
  refine ⟨⟨fun d => move (entryFor d), List.map_map, fun d hd => ?_⟩, hapart⟩
  exact fits_of_moved (hfits d hd) (hmoved _ (List.mem_map_of_mem hd))

theorem covers_defaults (isAdmin : Bool) : Covers isAdmin ((forRole isAdmin).map defaultEntry) :=
  ⟨defaultEntry, rfl, fun _ hd => (known_of_mem hd).default⟩

theorem covers_mergeWithDefault (isAdmin : Bool) (stored : Option Value) :
    Covers isAdmin (mergeWithDefault isAdmin stored) ∧
      VisibleApart (mergeWithDefault isAdmin stored) := by
  unfold mergeWithDefault
  cases hseparated : separateOverlaps (merged isAdmin stored) with
  | some separated => exact covers_of_separateOverlaps (covers_merged isAdmin stored) hseparated
  | none =>
      have hdefaults := covers_defaults isAdmin
      have hself := separateOverlaps_eq_self hdefaults.nodup (visibleApart_defaults isAdmin)
      simp only [hself, Option.none_or, Option.getD_some]
      exact ⟨hdefaults, visibleApart_defaults isAdmin⟩

/-! ## What the server accepts -/

/-- A layout that `PUT` lets through to the table. -/
def Accepted (layout : Layout) : Prop :=
  layoutFields layout = true ∧ validateDashboardLayout layout = .ok ()

theorem forM_eq_ok_iff {α ε : Type} {f : α → Except ε Unit} {l : List α} :
    l.forM f = .ok () ↔ ∀ a ∈ l, f a = .ok () := by
  induction l with
  | nil => exact iff_of_true rfl fun _ h => nomatch h
  | cons a rest ih =>
      have hcons : (a :: rest).forM f = (f a).bind fun _ => rest.forM f := rfl
      rw [List.forall_mem_cons, ← ih, hcons]
      cases hfirst : f a with
      | error e => exact iff_of_false (fun h => nomatch h) fun h => nomatch h.1
      | ok _ => exact ⟨fun h => ⟨rfl, h⟩, fun h => h.2⟩

theorem unknown_eq_nil_iff {ids : List String} :
    (ids.filter fun id => id ∉ DASHBOARD_WIDGETS).dedup.insertionSort (· ≤ ·) = [] ↔
      ∀ id ∈ ids, id ∈ DASHBOARD_WIDGETS := by
  rw [← List.length_eq_zero_iff, List.length_insertionSort, List.length_eq_zero_iff,
    List.dedup_eq_nil, List.filter_eq_nil_iff]
  simp

theorem validateDashboardLayout_eq_ok_iff {layout : Layout} :
    validateDashboardLayout layout = .ok () ↔
      (∀ widget ∈ layout.widgets, widget.id ∈ DASHBOARD_WIDGETS) ∧
        (layout.widgets.map Entry.id).Nodup ∧
        ∀ widget ∈ layout.widgets, validateWidget widget = .ok () := by
  unfold validateDashboardLayout
  simp only
  split_ifs with hunknown hnodup
  · refine iff_of_false (fun h => nomatch h) fun h => hunknown (unknown_eq_nil_iff.mpr ?_)
    exact List.forall_mem_map.mpr h.1
  · rw [forM_eq_ok_iff]
    have hlisted := unknown_eq_nil_iff.mp (not_not.mp hunknown)
    exact ⟨fun h => ⟨List.forall_mem_map.mp hlisted, hnodup, h⟩, fun h => h.2.2⟩
  · exact iff_of_false (fun h => nomatch h) fun h => hnodup h.2.1

theorem validateWidget_of_fits {d : WidgetDef} {entry : Entry} (hknown : Known d)
    (h : Fits d entry) : validateWidget entry = .ok () := by
  have hminW := h.minW
  have hminH := h.minH
  have hright := h.right
  have hbottom := h.bottom
  have hmax : DASHBOARD_MAX_Y = MAX_Y := rfl
  unfold validateWidget
  rw [h.id, hknown.minSize]
  simp only
  split_ifs with hmin hcolumns hrows
  · omega
  · omega
  · omega
  · rfl

theorem fits_of_validateWidget {d : WidgetDef} {entry : Entry} (hknown : Known d)
    (hid : entry.id = d.id) (hfields : widgetFields entry = true)
    (h : validateWidget entry = .ok ()) : Fits d entry := by
  unfold validateWidget at h
  rw [hid, hknown.minSize] at h
  simp only at h
  split_ifs at h with hmin hright hbottom
  simp only [widgetFields, Bool.and_eq_true, decide_eq_true_eq] at hfields
  have hmax : DASHBOARD_MAX_Y = MAX_Y := rfl
  refine ⟨hid, ?_, ?_, ?_, ?_, ?_, ?_, ?_, ?_⟩ <;> omega

theorem widgetFields_of_fits {d : WidgetDef} {entry : Entry} (hknown : Known d)
    (h : Fits d entry) : widgetFields entry = true := by
  have hminW := hknown.minW
  have hminH := hknown.minH
  have hid := hknown.id
  obtain ⟨hentry, hx, hy, hw, hw', hright, hh, hh', hbottom⟩ := h
  have hmax : DASHBOARD_MAX_Y = MAX_Y := rfl
  simp only [widgetFields, hentry, Bool.and_eq_true, decide_eq_true_eq]
  omega

theorem widgetValid_of_fits {d : WidgetDef} {entry : Entry} (hknown : Known d)
    (h : Fits d entry) : widgetValid entry = true := by
  have hid := hknown.id
  obtain ⟨hentry, hx, hy, hw, hw', hright, hh, hh', hbottom⟩ := h
  have hmax : DASHBOARD_MAX_Y = MAX_Y := rfl
  simp only [widgetValid, hentry, hknown.minSize, Bool.and_eq_true, decide_eq_true_eq]
  omega

theorem accepted_of_covers {isAdmin : Bool} {widgets : List Entry} (h : Covers isAdmin widgets) :
    Accepted ⟨LAYOUT_VERSION, widgets⟩ := by
  refine ⟨?_, validateDashboardLayout_eq_ok_iff.mpr ⟨fun widget hwidget => ?_, h.nodup,
    fun widget hwidget => ?_⟩⟩
  · have hlength : widgets.length ≤ DASHBOARD_WIDGETS.length := by
      have := congrArg List.length h.ids
      rw [List.length_map, List.length_map] at this
      exact this ▸ length_forRole_le isAdmin
    have hall : widgets.all widgetFields = true := by
      refine List.all_eq_true.mpr fun widget hwidget => ?_
      obtain ⟨d, hd, hfits⟩ := h.fits hwidget
      exact widgetFields_of_fits (known_of_mem hd) hfits
    simp [layoutFields, LAYOUT_VERSION, hlength, hall]
  · obtain ⟨d, hd, hfits⟩ := h.fits hwidget
    exact hfits.id ▸ (known_of_mem hd).listed
  · obtain ⟨d, hd, hfits⟩ := h.fits hwidget
    exact validateWidget_of_fits (known_of_mem hd) hfits

/-- An accepted layout with an entry for each widget has each within its bounds. -/
theorem fits_of_accepted {isAdmin : Bool} {layout : Layout} (h : Accepted layout)
    (hids : (layout.widgets.map Entry.id).Perm ((forRole isAdmin).map WidgetDef.id))
    {entry : Entry} (hentry : entry ∈ layout.widgets) : ∃ d ∈ forRole isAdmin, Fits d entry := by
  obtain ⟨hfields, hvalidate⟩ := h
  simp only [layoutFields, Bool.and_eq_true, List.all_eq_true] at hfields
  obtain ⟨d, hd, hid⟩ := List.mem_map.mp (hids.mem_iff.mp (List.mem_map_of_mem hentry))
  refine ⟨d, hd, fits_of_validateWidget (known_of_mem hd) hid.symm (hfields.2 entry hentry) ?_⟩
  exact (validateDashboardLayout_eq_ok_iff.mp hvalidate).2.2 entry hentry

/-! ## The table -/

theorem foldlM_insertRow {rows : List Row} {table : Table}
    (hchecked : ∀ row ∈ rows, row.checked = true)
    (hfree : ∀ row ∈ rows, ∀ other ∈ table,
      ¬(other.userId = row.userId ∧ other.widgetId = row.widgetId))
    (hkeys : rows.Pairwise fun a b => ¬(a.userId = b.userId ∧ a.widgetId = b.widgetId)) :
    rows.foldlM insertRow table = some (table ++ rows) := by
  induction rows generalizing table with
  | nil => rw [List.foldlM_nil, List.append_nil]; rfl
  | cons row rest ih =>
      rw [List.pairwise_cons] at hkeys
      have hinsert : insertRow table row = some (table ++ [row]) := by
        refine if_pos (Bool.and_eq_true_iff.mpr ⟨hchecked row (List.mem_cons_self ..), ?_⟩)
        refine List.all_eq_true.mpr fun other hother => ?_
        simp only [Bool.not_eq_true', Bool.and_eq_false_iff, beq_eq_false_iff_ne]
        exact not_and_or.mp (hfree row (List.mem_cons_self ..) other hother)
      rw [List.foldlM_cons, hinsert]
      have hrest : rest.foldlM insertRow (table ++ [row]) = some (table ++ [row] ++ rest) := ih
        (fun next hnext => hchecked next (List.mem_cons_of_mem _ hnext))
        (fun next hnext other hother => by
          obtain hother | hother := List.mem_append.mp hother
          · exact hfree next (List.mem_cons_of_mem _ hnext) other hother
          · rw [List.mem_singleton.mp hother]
            exact hkeys.1 next hnext)
        hkeys.2
      rw [List.append_assoc, List.singleton_append] at hrest
      exact hrest

theorem checked_rowOf {entry : Entry} (h : widgetFields entry = true)
    (hright : entry.x + entry.w ≤ 12) (hbottom : entry.y + entry.h ≤ MAX_Y) (userId : ℤ)
    (position : ℕ) : (rowOf userId entry position).checked = true := by
  simp only [widgetFields, Bool.and_eq_true, decide_eq_true_eq] at h
  obtain ⟨⟨⟨⟨⟨⟨⟨⟨⟨hid, hid'⟩, hx⟩, hx'⟩, hy⟩, -⟩, hw⟩, hw'⟩, hh⟩, hh'⟩ := h
  cases hvisible : entry.visible <;>
    simp [Row.checked, rowOf, LAYOUT_VERSION, hvisible, hid, hid', hx, hx', hy, hw, hw', hh, hh',
      hright] <;> exact hbottom

theorem entryOf_rowOf (userId : ℤ) (entry : Entry) (position : ℕ) :
    entryOf (rowOf userId entry position) = entry := by
  obtain ⟨id, x, y, w, h, visible, mode⟩ := entry
  cases visible <;> rfl

/-- The rows of a layout. -/
def rowsOf (userId : ℤ) (widgets : List Entry) : List Row :=
  widgets.zipIdx.map fun (widget, position) => rowOf userId widget position

theorem mem_rowsOf {userId : ℤ} {widgets : List Entry} {row : Row}
    (h : row ∈ rowsOf userId widgets) :
    ∃ widget ∈ widgets, ∃ position, row = rowOf userId widget position := by
  obtain ⟨⟨widget, position⟩, hmem, rfl⟩ := List.mem_map.mp h
  exact ⟨widget, List.fst_mem_of_mem_zipIdx hmem, position, rfl⟩

theorem map_entryOf_rowsOf (userId : ℤ) (widgets : List Entry) :
    (rowsOf userId widgets).map entryOf = widgets := by
  have hfirst : widgets.zipIdx.map (fun pair => entryOf (rowOf userId pair.1 pair.2)) =
      widgets.zipIdx.map Prod.fst :=
    List.map_congr_left fun pair _ => entryOf_rowOf userId pair.1 pair.2
  rw [rowsOf, List.map_map]
  exact hfirst.trans (List.zipIdx_map_fst 0 widgets)

theorem rowsOf_positions (userId : ℤ) (widgets : List Entry) :
    (rowsOf userId widgets).Pairwise fun a b => a.position ≤ b.position := by
  have hrange : (widgets.zipIdx.map Prod.snd).Pairwise (· < ·) := by
    rw [List.zipIdx_map_snd]
    exact List.pairwise_lt_range'
  exact List.pairwise_map.mpr ((List.pairwise_map.mp hrange).imp Nat.le_of_lt)

theorem rowsOf_keys {userId : ℤ} {widgets : List Entry} (hids : (widgets.map Entry.id).Nodup) :
    (rowsOf userId widgets).Pairwise fun a b =>
      ¬(a.userId = b.userId ∧ a.widgetId = b.widgetId) := by
  have hdistinct : (widgets.zipIdx.map Prod.fst).Pairwise fun a b => a.id ≠ b.id := by
    rw [List.zipIdx_map_fst]
    exact List.pairwise_map.mp hids
  exact List.pairwise_map.mpr ((List.pairwise_map.mp hdistinct).imp fun hne h => hne h.2)

/-- What is stored of a layout with entries within their bounds. -/
theorem setDashboardLayout_eq {isAdmin : Bool} {layout : Layout} (table : Table) (userId : ℤ)
    (hversion : layout.version = LAYOUT_VERSION) (hids : (layout.widgets.map Entry.id).Nodup)
    (hfits : ∀ widget ∈ layout.widgets, ∃ d ∈ forRole isAdmin, Fits d widget) :
    setDashboardLayout table userId layout =
      .ok ((table.filter fun row => row.userId ≠ userId) ++ rowsOf userId layout.widgets) := by
  have hvalid : layout.widgets.all widgetValid = true := by
    refine List.all_eq_true.mpr fun widget hwidget => ?_
    obtain ⟨d, hd, h⟩ := hfits widget hwidget
    exact widgetValid_of_fits (known_of_mem hd) h
  have hinsert : (rowsOf userId layout.widgets).foldlM insertRow
      (table.filter fun row => row.userId ≠ userId) =
        some ((table.filter fun row => row.userId ≠ userId) ++ rowsOf userId layout.widgets) := by
    refine foldlM_insertRow (fun row hrow => ?_) (fun row hrow other hother hsame => ?_)
      (rowsOf_keys hids)
    · obtain ⟨widget, hwidget, position, rfl⟩ := mem_rowsOf hrow
      obtain ⟨d, hd, h⟩ := hfits widget hwidget
      exact checked_rowOf (widgetFields_of_fits (known_of_mem hd) h) h.right h.bottom ..
    · obtain ⟨widget, hwidget, position, rfl⟩ := mem_rowsOf hrow
      have hother := List.of_mem_filter hother
      exact of_decide_eq_true hother hsame.1
  unfold setDashboardLayout
  rw [if_neg (by simp [hversion, hvalid]), if_neg (not_not.mpr hids)]
  simp only
  rw [← rowsOf, hinsert]

theorem getDashboardLayout_eq {table : Table} {userId : ℤ} {widgets : List Entry}
    (hne : widgets ≠ []) :
    getDashboardLayout ((table.filter fun row => row.userId ≠ userId) ++ rowsOf userId widgets)
      userId = some ⟨LAYOUT_VERSION, widgets⟩ := by
  have hothers : ((table.filter fun row => row.userId ≠ userId).filter fun row =>
      row.userId = userId) = [] := by
    refine List.filter_eq_nil_iff.mpr fun row hrow => ?_
    simpa using List.of_mem_filter hrow
  have howns : ((rowsOf userId widgets).filter fun row => row.userId = userId) =
      rowsOf userId widgets := by
    refine List.filter_eq_self.mpr fun row hrow => ?_
    obtain ⟨widget, -, position, rfl⟩ := mem_rowsOf hrow
    exact decide_eq_true rfl
  have hsorted : ((rowsOf userId widgets).mergeSort fun a b => a.position ≤ b.position) =
      rowsOf userId widgets :=
    List.mergeSort_of_pairwise ((rowsOf_positions userId widgets).imp fun h => by simpa using h)
  have hentries := map_entryOf_rowsOf userId widgets
  unfold getDashboardLayout
  simp only [List.filter_append]
  rw [hothers, howns, List.nil_append, hsorted]
  cases hrows : rowsOf userId widgets with
  | nil =>
      rw [hrows, List.map_nil] at hentries
      exact absurd hentries.symm hne
  | cons row rest =>
      obtain ⟨widget, -, position, rfl⟩ :=
        mem_rowsOf (hrows ▸ List.mem_cons_self .. : row ∈ rowsOf userId widgets)
      rw [hrows] at hentries
      simp only [hentries]
      rfl

/-! ## There and back -/

theorem storedWidgets_json (widgets : List Entry) :
    storedWidgets (some (Layout.json ⟨LAYOUT_VERSION, widgets⟩)) =
      some (widgets.map Entry.json) := rfl

theorem byId_json {widgets : List Entry} (hids : (widgets.map Entry.id).Nodup) {entry : Entry}
    (hentry : entry ∈ widgets) : byId (widgets.map Entry.json) entry.id = some entry.json := by
  unfold byId
  rw [← List.map_reverse, List.find?_map]
  have hfind : widgets.reverse.find? (fun other => decide (other.id = entry.id)) = some entry := by
    cases hfind : widgets.reverse.find? fun other => decide (other.id = entry.id) with
    | none =>
        have := List.find?_eq_none.mp hfind entry (List.mem_reverse.mpr hentry)
        simp at this
    | some other =>
        have hid : other.id = entry.id := by simpa using List.find?_some hfind
        have hother := List.mem_reverse.mp (List.mem_of_find?_eq_some hfind)
        rw [eq_of_id_eq hids hother hentry hid]
  exact congrArg (Option.map Entry.json) hfind

theorem integer_cast (value : ℤ) : integer (some (.number (some (value : ℚ)))) = some value := by
  simp [integer]

theorem heightMode_text (mode : HeightMode) :
    heightMode (some (.string mode.text)) = some mode := by
  cases mode <;> rfl

/-- An entry within the bounds of its widget is read as it is. -/
theorem savedEntry_json {d : WidgetDef} (hknown : Known d) {entry : Entry} (h : Fits d entry) :
    savedEntry d entry.json = entry := by
  have hminW := hknown.minW
  have hminH := hknown.minH
  have hx : integer (entry.json.get "x") = some entry.x := integer_cast entry.x
  have hy : integer (entry.json.get "y") = some entry.y := integer_cast entry.y
  have hw : integer (entry.json.get "w") = some entry.w := integer_cast entry.w
  have hh : integer (entry.json.get "h") = some entry.h := integer_cast entry.h
  have hmode : heightMode (entry.json.get "height_mode") = some entry.heightMode :=
    heightMode_text entry.heightMode
  have hvisible : entry.json.get "visible" = some (.bool entry.visible) := rfl
  obtain ⟨hid, hx0, hy0, hw0, hw12, hright, hh0, hh100, hbottom⟩ := h
  unfold savedEntry
  rw [hx, hy, hw, hh, hmode, hvisible]
  simp only
  have hmaxW : max entry.w d.minW = entry.w := by omega
  have hmaxH : max entry.h d.minH = entry.h := by omega
  have hminX : min entry.x (12 - entry.w) = entry.x := by omega
  rw [if_neg, hmaxW, hmaxH, hminX, if_neg (by omega), ← hid]
  · obtain ⟨id, x, y, w, h, visible, mode⟩ := entry
    cases visible <;> rfl
  · simp only [inRange, Bool.not_eq_true', Bool.not_eq_false, Bool.and_eq_true, decide_eq_true_eq]
    omega

theorem mergedEntry_json {isAdmin : Bool} {widgets : List Entry}
    (hids : (widgets.map Entry.id).Nodup)
    (hfits : ∀ widget ∈ widgets, ∃ d ∈ forRole isAdmin, Fits d widget) {d : WidgetDef}
    (hd : d ∈ forRole isAdmin) {entry : Entry} (hentry : entry ∈ widgets) (hid : entry.id = d.id) :
    mergedEntry (some (Layout.json ⟨LAYOUT_VERSION, widgets⟩)) d = entry := by
  obtain ⟨d', hd', hfit⟩ := hfits entry hentry
  have hsame : d' = d :=
    List.inj_on_of_nodup_map (forRole_nodup isAdmin) hd' hd (hfit.id.symm.trans hid)
  subst hsame
  unfold mergedEntry
  rw [storedWidgets_json]
  simp only
  rw [← hid, byId_json hids hentry]
  exact savedEntry_json (known_of_mem hd) hfit

/-- What is read back of an accepted layout is merged into its own entries. -/
theorem mergeWithDefault_json {isAdmin : Bool} {widgets : List Entry}
    (hids : (widgets.map Entry.id).Perm ((forRole isAdmin).map WidgetDef.id))
    (hfits : ∀ widget ∈ widgets, ∃ d ∈ forRole isAdmin, Fits d widget)
    (hapart : VisibleApart widgets) :
    (mergeWithDefault isAdmin (some (Layout.json ⟨LAYOUT_VERSION, widgets⟩))).Perm widgets := by
  have hnodup : (widgets.map Entry.id).Nodup := hids.nodup_iff.mpr (forRole_nodup isAdmin)
  have hcovers := covers_merged isAdmin (some (Layout.json ⟨LAYOUT_VERSION, widgets⟩))
  have hperm : (merged isAdmin (some (Layout.json ⟨LAYOUT_VERSION, widgets⟩))).Perm widgets := by
    have hsubset : merged isAdmin (some (Layout.json ⟨LAYOUT_VERSION, widgets⟩)) ⊆ widgets := by
      intro entry hentry
      rw [merged_eq] at hentry
      obtain ⟨d, hd, rfl⟩ := List.mem_map.mp hentry
      obtain ⟨own, hown, hid⟩ := List.mem_map.mp (hids.symm.mem_iff.mp (List.mem_map_of_mem hd))
      rw [mergedEntry_json hnodup hfits hd hown hid]
      exact hown
    have hlength : widgets.length ≤
        (merged isAdmin (some (Layout.json ⟨LAYOUT_VERSION, widgets⟩))).length := by
      have hsame := hids.length_eq
      rw [List.length_map, List.length_map] at hsame
      rw [merged_eq, List.length_map, hsame]
    exact (List.subperm_of_subset hcovers.nodup.of_map hsubset).perm_of_length_le hlength
  have hmerged : VisibleApart (merged isAdmin (some (Layout.json ⟨LAYOUT_VERSION, widgets⟩))) := by
    refine (hperm.pairwise_iff fun hab hb ha => ?_).mpr hapart
    exact (hab ha hb).symm
  unfold mergeWithDefault
  rw [separateOverlaps_eq_self hcovers.nodup hmerged]
  exact hperm

/-- Client and server agree: what the client makes of any stored value is one entry for each
widget, apart where visible and accepted by the server; and an accepted layout of this kind is
stored, read and merged into the same entries. -/
theorem client_and_server_agree (isAdmin : Bool) :
    (∀ stored : Option Value,
      (mergeWithDefault isAdmin stored).map Entry.id = (forRole isAdmin).map WidgetDef.id ∧
      VisibleApart (mergeWithDefault isAdmin stored) ∧
      (∀ entry ∈ mergeWithDefault isAdmin stored, widgetValid entry = true) ∧
      Accepted ⟨LAYOUT_VERSION, mergeWithDefault isAdmin stored⟩ ∧
      ∀ table userId, ∃ table',
        putLayout isAdmin table userId ⟨LAYOUT_VERSION, mergeWithDefault isAdmin stored⟩ =
          .ok table') ∧
    ∀ (layout : Layout) (table : Table) (userId : ℤ), Accepted layout →
      (layout.widgets.map Entry.id).Perm ((forRole isAdmin).map WidgetDef.id) →
      VisibleApart layout.widgets →
      ∃ table' stored, setDashboardLayout table userId layout = .ok table' ∧
        getDashboardLayout table' userId = some stored ∧
        (mergeWithDefault isAdmin (some stored.json)).Perm layout.widgets := by
  constructor
  · intro stored
    obtain ⟨hcovers, hapart⟩ := covers_mergeWithDefault isAdmin stored
    have haccepted := accepted_of_covers hcovers
    refine ⟨hcovers.ids, hapart, fun entry hentry => ?_, haccepted, fun table userId => ?_⟩
    · obtain ⟨d, hd, hfits⟩ := hcovers.fits hentry
      exact widgetValid_of_fits (known_of_mem hd) hfits
    · let layout : Layout := ⟨LAYOUT_VERSION, mergeWithDefault isAdmin stored⟩
      have hset := @setDashboardLayout_eq isAdmin layout table userId rfl hcovers.nodup
        fun entry => hcovers.fits
      have hqueue : (!isAdmin && (mergeWithDefault isAdmin stored).any fun widget =>
          widget.id = "delivery-queue") = false := by
        cases isAdmin with
        | true => rfl
        | false =>
            refine List.any_eq_false.mpr fun entry hentry hid => deliveryQueue_notMem ?_
            rw [← hcovers.ids, ← of_decide_eq_true hid]
            exact List.mem_map_of_mem hentry
      unfold putLayout
      rw [haccepted.1, haccepted.2]
      simp only [Bool.not_true, Bool.false_eq_true, if_false, hqueue]
      exact ⟨_, by rw [hset]; rfl⟩
  · intro layout table userId haccepted hids hapart
    have hversion : layout.version = LAYOUT_VERSION := by
      have hfields := haccepted.1
      simp only [layoutFields, Bool.and_eq_true, beq_iff_eq] at hfields
      exact hfields.1.1
    have hfits : ∀ widget ∈ layout.widgets, ∃ d ∈ forRole isAdmin, Fits d widget :=
      fun widget => fits_of_accepted haccepted hids
    have hne : layout.widgets ≠ [] := by
      rintro hnil
      rw [hnil, List.map_nil] at hids
      cases isAdmin <;> exact absurd hids.length_eq (by decide +kernel)
    refine ⟨_, _, setDashboardLayout_eq table userId hversion ?_ hfits,
      getDashboardLayout_eq hne, mergeWithDefault_json hids hfits hapart⟩
    exact hids.nodup_iff.mpr (forRole_nodup isAdmin)

/-- The default layout of an administrator comes back as it was. -/
theorem client_and_server_agree_defaults : ∃ table' stored,
    setDashboardLayout [] 1 ⟨LAYOUT_VERSION, (forRole true).map defaultEntry⟩ = .ok table' ∧
      getDashboardLayout table' 1 = some stored ∧
      (mergeWithDefault true (some stored.json)).Perm ((forRole true).map defaultEntry) :=
  (client_and_server_agree true).2 ⟨LAYOUT_VERSION, (forRole true).map defaultEntry⟩ [] 1
    (accepted_of_covers (covers_defaults true))
    (List.Perm.of_eq (covers_defaults true).ids) (visibleApart_defaults true)

end Justup.Dashboard
