import Mathlib.Data.List.Dedup
import Mathlib.Data.List.Sort
import Justup.Dashboard.Grid

/-!
# Dashboard layouts on the server

What `PUT /me/dashboard-layout` checks and stores and `get_dashboard_layout` reads
back.
-/

namespace Justup.Dashboard

/-! ## The table -/

structure Row where
  userId : ℤ
  widgetId : String
  position : ℕ
  x : ℤ
  y : ℤ
  w : ℤ
  h : ℤ
  visible : ℤ
  layoutVersion : ℤ
  heightMode : HeightMode

abbrev Table := List Row

/-- The `CHECK` constraints of `dashboard_layouts`. -/
def Row.checked (row : Row) : Bool :=
  1 ≤ row.widgetId.length && row.widgetId.length ≤ 64 && 0 ≤ row.x && row.x ≤ 11 && 0 ≤ row.y &&
    1 ≤ row.w && row.w ≤ 12 && 1 ≤ row.h && row.h ≤ 100 && (row.visible == 0 || row.visible == 1) &&
    row.layoutVersion == 2 && row.x + row.w ≤ 12 && row.y + row.h ≤ 1000

/-- An `INSERT`, none for an `IntegrityError`. -/
def insertRow (table : Table) (row : Row) : Option Table :=
  if row.checked && table.all fun other =>
      !(other.userId == row.userId && other.widgetId == row.widgetId) then some (table ++ [row])
  else none

/-! ## Layouts -/

/-- A layout of known fields with values of their types. -/
structure Layout where
  version : ℤ
  widgets : List Entry

def LAYOUT_VERSION : ℤ := 2

def DASHBOARD_MAX_Y : ℤ := 1000

def DASHBOARD_WIDGET_MIN_SIZES : List (String × ℤ × ℤ) :=
  [("status-online", 1, 2),
    ("status-offline", 1, 2),
    ("status-disabled", 1, 2),
    ("status-total", 1, 2),
    ("quality", 2, 3),
    ("downtime", 3, 3),
    ("alerts-open", 3, 3),
    ("delivery-queue", 3, 3),
    ("uptime-day", 3, 2),
    ("cert-expiry", 3, 3),
    ("slowest-monitors", 4, 3),
    ("quality-trend", 4, 3),
    ("stale-checks", 3, 3)]

def minSize (id : String) : Option (ℤ × ℤ) :=
  (DASHBOARD_WIDGET_MIN_SIZES.find? fun entry => entry.1 = id).map Prod.snd

/-- `_widget_valid` -/
def widgetValid (widget : Entry) : Bool :=
  1 ≤ widget.id.length && widget.id.length ≤ 64 &&
    match minSize widget.id with
    | none => false
    | some (minW, minH) =>
        0 ≤ widget.x && 0 ≤ widget.y && minW ≤ widget.w && widget.w ≤ 12 &&
          widget.x + widget.w ≤ 12 && minH ≤ widget.h && widget.h ≤ 100 &&
          widget.y + widget.h ≤ DASHBOARD_MAX_Y

/-- A row that is inserted. -/
def rowOf (userId : ℤ) (widget : Entry) (position : ℕ) : Row :=
  ⟨userId, widget.id, position, widget.x, widget.y, widget.w, widget.h,
    if widget.visible then 1 else 0, LAYOUT_VERSION, widget.heightMode⟩

inductive StoreError where
  | valueError (message : String)
  | integrityError
  deriving DecidableEq

/-- `set_dashboard_layout`; a failed transaction leaves the table as it was. -/
def setDashboardLayout (table : Table) (userId : ℤ) (layout : Layout) :
    Except StoreError Table :=
  if layout.version ≠ LAYOUT_VERSION ∨ !layout.widgets.all widgetValid then
    .error (.valueError "Invalid dashboard layout")
  else if ¬(layout.widgets.map Entry.id).Nodup then
    .error (.valueError "Duplicate widget id")
  else
    let cleared := table.filter fun row => row.userId ≠ userId
    let rows := layout.widgets.zipIdx.map fun (widget, position) => rowOf userId widget position
    match rows.foldlM insertRow cleared with
    | some table => .ok table
    | none => .error .integrityError

def entryOf (row : Row) : Entry :=
  ⟨row.widgetId, row.x, row.y, row.w, row.h, row.visible ≠ 0, row.heightMode⟩

/-- `get_dashboard_layout` -/
def getDashboardLayout (table : Table) (userId : ℤ) : Option Layout :=
  let rows := (table.filter fun row => row.userId = userId).mergeSort fun a b =>
    a.position ≤ b.position
  match rows with
  | [] => none
  | first :: _ => some ⟨first.layoutVersion, rows.map entryOf⟩

/-! ## The endpoint -/

def DASHBOARD_WIDGETS : List String :=
  ["status-online", "status-offline", "status-disabled", "status-total", "quality", "downtime",
    "alerts-open", "delivery-queue", "uptime-day", "cert-expiry", "slowest-monitors",
    "quality-trend", "stale-checks"]

/-- The constraints of the fields of `DashboardWidgetLayout`. -/
def widgetFields (widget : Entry) : Bool :=
  1 ≤ widget.id.length && widget.id.length ≤ 64 && 0 ≤ widget.x && widget.x ≤ 11 &&
    0 ≤ widget.y && widget.y ≤ DASHBOARD_MAX_Y && 1 ≤ widget.w && widget.w ≤ 12 &&
    1 ≤ widget.h && widget.h ≤ 100

/-- The constraints of the fields of `DashboardLayout`. -/
def layoutFields (layout : Layout) : Bool :=
  layout.version == 2 && layout.widgets.length ≤ DASHBOARD_WIDGETS.length &&
    layout.widgets.all widgetFields

/-- How a request is refused. -/
inductive Refusal where
  /-- The body is no `DashboardLayout`. -/
  | fields
  /-- An `HTTPException` -/
  | http (status : ℕ) (detail : String)
  /-- An exception that nothing catches. -/
  | unhandled

/-- The check of one widget in `validate_dashboard_layout`. -/
def validateWidget (widget : Entry) : Except Refusal Unit :=
  match minSize widget.id with
  | none => .error .unhandled
  | some (minW, minH) =>
      if widget.w < minW ∨ widget.h < minH then
        .error (.http 422 ("Widget " ++ widget.id ++ " is smaller than its minimum size (" ++
          toString minW ++ "x" ++ toString minH ++ ")"))
      else if widget.x + widget.w > 12 then
        .error (.http 422 ("Widget " ++ widget.id ++ " extends past the 12-column grid"))
      else if widget.y + widget.h > DASHBOARD_MAX_Y then
        .error (.http 422 ("Widget " ++ widget.id ++ " extends past the " ++
          toString DASHBOARD_MAX_Y ++ "-row vertical bound"))
      else .ok ()

/-- `validate_dashboard_layout` -/
def validateDashboardLayout (layout : Layout) : Except Refusal Unit :=
  let ids := layout.widgets.map Entry.id
  let unknown := (ids.filter fun id => id ∉ DASHBOARD_WIDGETS).dedup.insertionSort (· ≤ ·)
  if unknown ≠ [] then
    .error (.http 422 ("Unknown widget id(s): " ++ ", ".intercalate unknown))
  else if ¬ids.Nodup then .error (.http 422 "Duplicate widget id")
  else layout.widgets.forM validateWidget

/-- `put_layout` for a user of this role; the fields of the body are checked before it runs. -/
def putLayout (isAdmin : Bool) (table : Table) (userId : ℤ) (layout : Layout) :
    Except Refusal Table :=
  if !layoutFields layout then .error .fields
  else do
    validateDashboardLayout layout
    if !isAdmin && layout.widgets.any fun widget => widget.id = "delivery-queue" then
      .error (.http 403 "Delivery queue widget requires administrator access")
    else
      match setDashboardLayout table userId layout with
      | .ok table => .ok table
      | .error (.valueError _) => .error (.http 400 "Invalid dashboard layout")
      | .error .integrityError => .error .unhandled

/-! ## What is exchanged -/

/-- The JSON of an entry. -/
def Entry.json (entry : Entry) : Value :=
  .object [("id", .string entry.id), ("x", .number (some entry.x)), ("y", .number (some entry.y)),
    ("w", .number (some entry.w)), ("h", .number (some entry.h)),
    ("visible", .bool entry.visible), ("height_mode", .string entry.heightMode.text)]

/-- The JSON of a layout. -/
def Layout.json (layout : Layout) : Value :=
  .object [("version", .number (some layout.version)),
    ("widgets", .array (layout.widgets.map Entry.json))]

end Justup.Dashboard
