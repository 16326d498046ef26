import Mathlib.Data.List.Basic
import Mathlib.Data.Rat.Defs

/-!
# Dashboard layouts on the client

The registry of the widgets and `mergeWithDefault`, which makes one entry per
registered widget of whatever was received as the stored layout.
-/

namespace Justup.Dashboard

/-! ## Entries -/

inductive HeightMode where
  | auto
  | manual
  deriving DecidableEq

def HeightMode.text : HeightMode → String
  | .auto => "auto"
  | .manual => "manual"

/-- One widget of a layout, as client and server exchange it. -/
structure Entry where
  id : String
  x : ℤ
  y : ℤ
  w : ℤ
  h : ℤ
  visible : Bool
  heightMode : HeightMode
  deriving DecidableEq

/-- The last row of a widget. -/
def MAX_Y : ℤ := 1000

/-! ## The registry -/

structure WidgetDef where
  id : String
  label : String
  defaultX : ℤ
  defaultY : ℤ
  defaultW : ℤ
  defaultH : ℤ
  minW : ℤ
  minH : ℤ
  defaultVisible : Bool
  adminOnly : Bool

/-- `JuDashboardRegistry.registry` -/
def registry : List WidgetDef :=
  [⟨"status-online", "Online", 0, 0, 3, 2, 1, 2, true, false⟩,
    ⟨"status-offline", "Offline", 3, 0, 3, 2, 1, 2, true, false⟩,
    ⟨"status-disabled", "Disabled", 6, 0, 3, 2, 1, 2, true, false⟩,
    ⟨"status-total", "Total", 9, 0, 3, 2, 1, 2, true, false⟩,
    ⟨"quality", "Monitor quality", 0, 2, 3, 3, 2, 3, true, false⟩,
    ⟨"downtime", "Downtime overview (24h)", 3, 2, 6, 4, 3, 3, true, false⟩,
    ⟨"alerts-open", "Alerts", 9, 2, 3, 4, 3, 3, true, false⟩,
    ⟨"delivery-queue", "Delivery queue", 9, 2, 3, 3, 3, 3, true, true⟩,
    ⟨"uptime-day", "Uptime (24h)", 0, 10, 3, 2, 3, 2, false, false⟩,
    ⟨"cert-expiry", "Certificate expiry", 3, 10, 3, 4, 3, 3, false, false⟩,
    ⟨"slowest-monitors", "Slowest monitors (latest)", 0, 14, 6, 4, 4, 3, false, false⟩,
    ⟨"quality-trend", "Quality trend (24h)", 6, 14, 6, 4, 4, 3, false, false⟩,
    ⟨"stale-checks", "Stale checks", 6, 10, 3, 4, 3, 3, false, false⟩]

/-- `JuDashboardRegistry.forRole` -/
def forRole (isAdmin : Bool) : List WidgetDef :=
  (registry.filter fun entry => !entry.adminOnly || isAdmin).map fun entry =>
    if entry.id = "alerts-open" && isAdmin then
      { entry with defaultX := 9, defaultY := 5, defaultW := 3, defaultH := 3 }
    else entry

/-- `defaultEntry` -/
def defaultEntry (d : WidgetDef) : Entry :=
  ⟨d.id, d.defaultX, d.defaultY, d.defaultW, d.defaultH, d.defaultVisible, .auto⟩

/-! ## JSON values in JavaScript -/

/-- What `JSON.parse` gives; a number that is no rational is infinite. -/
inductive Value where
  | null
  | bool (value : Bool)
  | number (value : Option ℚ)
  | string (value : String)
  | array (items : List Value)
  | object (members : List (String × Value))

/-- A property, none for `undefined`; only objects have those that are asked for here, and of two
members with one name the last counts. -/
def Value.get (value : Value) (name : String) : Option Value :=
  match value with
  | .object members => (members.reverse.find? fun m => m.1 = name).map Prod.snd
  | _ => none

/-- The integer for which `Number.isInteger` holds. -/
def integer : Option Value → Option ℤ
  | some (.number (some value)) => if value.den = 1 then some value.num else none
  | _ => none

/-- The mode that `height_mode` names. -/
def heightMode : Option Value → Option HeightMode
  | some (.string text) =>
      if text = "auto" then some .auto else if text = "manual" then some .manual else none
  | _ => none

/-! ## Overlaps -/

/-- `overlaps` -/
def Entry.overlaps (a b : Entry) : Bool :=
  a.x < b.x + b.w && b.x < a.x + a.w && a.y < b.y + b.h && b.y < a.y + a.h

/-- The order of `byPosition`. -/
def Entry.before (a b : Entry) : Bool := a.y < b.y || (a.y == b.y && a.x ≤ b.x)

/-- The `while` loop: an entry moves down behind what it overlaps. -/
def settle (placed : List Entry) (entry : Entry) : Option Entry :=
  match placed.find? fun other => entry.overlaps other with
  | none => some entry
  | some blocker =>
      let nextY := blocker.y + blocker.h
      if nextY ≤ entry.y ∨ nextY + entry.h > MAX_Y then none
      else settle placed { entry with y := nextY }
termination_by (MAX_Y - entry.h - entry.y).toNat
decreasing_by omega

/-- The `for` loop over the entries by position. -/
def placeAll : List Entry → List Entry → Option (List Entry)
  | placed, [] => some placed
  | placed, entry :: rest =>
      (settle placed entry).bind fun entry => placeAll (placed ++ [entry]) rest

/-- `separateOverlaps`.  The source moves the entries in place; each is known by its id. -/
def separateOverlaps (layout : List Entry) : Option (List Entry) :=
  let byPosition := (layout.filter Entry.visible).mergeSort Entry.before
  (placeAll [] byPosition).map fun placed =>
    layout.map fun entry => (placed.find? fun other => other.id = entry.id).getD entry

/-! ## Merging -/

/-- The members of the stored widgets by id. -/
def storedWidgets (stored : Option Value) : Option (List Value) :=
  match stored with
  | some stored =>
      match stored.get "version", stored.get "widgets" with
      | some (.number (some 2)), some (.array widgets) => some widgets
      | _, _ => none
  | none => none

/-- `byId.get(id)`: the last widget with this id. -/
def byId (widgets : List Value) (id : String) : Option Value :=
  widgets.reverse.find? fun widget =>
    match widget.get "id" with
    | some (.string text) => text = id
    | _ => false

def inRange (value max : ℤ) : Bool := 0 ≤ value && value ≤ max

/-- The entry of a widget that is stored. -/
def savedEntry (d : WidgetDef) (saved : Value) : Entry :=
  match integer (saved.get "x"), integer (saved.get "y"), integer (saved.get "w"),
    integer (saved.get "h"), heightMode (saved.get "height_mode") with
  | some x, some y, some w, some h, some mode =>
      if !(inRange x 11 && inRange y MAX_Y && w ≥ 1 && w ≤ 12 && h ≥ 1 && h ≤ 100 &&
          x + w ≤ 12 && y + h ≤ MAX_Y) then defaultEntry d
      else
        let w := max w d.minW
        let h := max h d.minH
        if y + h > MAX_Y then defaultEntry d
        else
          let visible :=
            match saved.get "visible" with
            | some (.bool false) => false
            | _ => true
          ⟨d.id, min x (12 - w), y, w, h, visible, mode⟩
  | _, _, _, _, _ => defaultEntry d

/-- The entries before overlaps are resolved. -/
def merged (isAdmin : Bool) (stored : Option Value) : List Entry :=
  (forRole isAdmin).map fun d =>
    match storedWidgets stored with
    | none => defaultEntry d
    | some widgets =>
        match byId widgets d.id with
        | none => { defaultEntry d with visible := false }
        | some saved => savedEntry d saved

/-- `mergeWithDefault` -/
def mergeWithDefault (isAdmin : Bool) (stored : Option Value) : List Entry :=
  let defaults := (forRole isAdmin).map defaultEntry
  ((separateOverlaps (merged isAdmin stored)).or (separateOverlaps defaults)).getD defaults

end Justup.Dashboard
