import Mathlib.Data.List.DropRight
import Mathlib.Data.Rat.Defs
import Justup.Alerts.MailTemplate

/-!
# The context of an alert mail

`build_alert_context`: what is known about an alert and its target as the texts
that a template can show.  The case of letters, reading and writing a datetime and
writing a number with two decimals are those of the standard library and come as
parameters.
-/

namespace Justup.Alerts.Mail

open Justup.Lib Justup.Store

/-! ## Parameters and data -/

/-- A `datetime`: its wall clock in microseconds and its distance from UTC, if it is aware. -/
structure Moment where
  wall : ℤ
  utcoffset : Option ℤ

structure Tools where
  upper : Text → Text
  lower : Text → Text
  /-- `datetime.fromisoformat`, none for a `ValueError` -/
  fromisoformat : Text → Option Moment
  /-- The wall clock of `astimezone(UTC)`, none for an `OverflowError` -/
  astimezoneUtc : ℤ → ℤ → Option ℤ
  /-- `strftime("%Y-%m-%d %H:%M:%S UTC")` -/
  strftime : ℤ → Text
  /-- `int(difference.total_seconds())` of a difference in microseconds -/
  totalSeconds : ℤ → ℤ
  /-- `f"{value:.2f}"` -/
  twoDecimals : ℚ → Text

/-- A value of a dict: its key may be missing. -/
inductive Field where
  | missing
  | none
  | text (value : Text)

/-- `data.get(key, default)` -/
def Field.get (default : Text) : Field → Option Text
  | .missing => some default
  | .none => Option.none
  | .text value => some value

/-- `str(value)` of a text or `None` -/
def str (value : Option Text) : Text := value.getD "None".toList

/-- A timestamp as it is passed. -/
inductive Stamp where
  | none
  | text (value : Text)
  | datetime (value : Moment)

def Stamp.truthy : Stamp → Bool
  | .none => false
  | .text value => !value.isEmpty
  | .datetime _ => true

inductive Sla where
  | none
  | number (value : ℚ)
  | text (value : Text)

structure AlertData where
  startedAt : Stamp
  resolvedAt : Stamp
  downtimeMinutes : Option ℤ
  slaThreshold : Sla
  slaActual : Sla
  status : Field
  reason : Field
  systemUrl : Field

structure TargetData where
  name : Field
  host : Field
  group : Field
  checkType : Field

/-! ## Times -/

/-- `datetime.fromisoformat(str(value))`; a `datetime` is written so that it is read back. -/
def Stamp.read (tools : Tools) : Stamp → Option Moment
  | .none => Option.none
  | .text value => tools.fromisoformat value
  | .datetime value => some value

/-- `int((last - first).total_seconds())`, none for the `TypeError` of an aware and a naive one. -/
def secondsBetween (tools : Tools) (first last : Moment) : Option ℤ :=
  match first.utcoffset, last.utcoffset with
  | some offset, some offset' =>
      some (tools.totalSeconds ((last.wall - offset') - (first.wall - offset)))
  | Option.none, Option.none => some (tools.totalSeconds (last.wall - first.wall))
  | _, _ => Option.none

/-- `format_duration` -/
def formatDuration (seconds : ℤ) : Text :=
  if seconds < 60 then (toString seconds).toList ++ ['s']
  else if seconds < 3600 then (toString (seconds / 60)).toList ++ ['m']
  else
    (toString (seconds / 3600)).toList ++ "h ".toList ++
      (toString (seconds % 3600 / 60)).toList ++ ['m']

/-- The text of `alert.duration`. -/
def durationText (tools : Tools) (now : ℤ) (startedAt resolvedAt : Stamp) : Text :=
  if startedAt.truthy && resolvedAt.truthy then
    match (do secondsBetween tools (← startedAt.read tools) (← resolvedAt.read tools)) with
    | some seconds => formatDuration seconds
    | Option.none => "N/A".toList
  else if startedAt.truthy then
    match (do secondsBetween tools (← startedAt.read tools) ⟨now, some 0⟩) with
    | some seconds => formatDuration seconds ++ " (ongoing)".toList
    | Option.none => "Ongoing".toList
  else "N/A".toList

/-- `_to_utc(value).strftime(…)` -/
def Moment.format (tools : Tools) (value : Moment) : Option Text :=
  match value.utcoffset with
  | Option.none => some (tools.strftime value.wall)
  | some offset => (tools.astimezoneUtc value.wall offset).map tools.strftime

/-- `_format_timestamp`; none for the exception that it lets through. -/
def formatTimestamp (tools : Tools) (fallback : String) : Stamp → Option Text
  | .none => some fallback.toList
  | .datetime value => value.format tools
  | .text value =>
      match tools.fromisoformat value with
      | some read => read.format tools
      | Option.none => some value

/-- `_format_sla` -/
def formatSla (tools : Tools) : Sla → Text
  | .none => "N/A".toList
  | .number value => tools.twoDecimals value ++ ['%']
  | .text value => value

/-! ## The status -/

structure StatusColor where
  background : String
  foreground : String
  text : String

/-- `STATUS_PALETTE` of the variants that an alert can have. -/
inductive Variant where
  | success
  | warning
  | danger
  | neutral

def Variant.palette : Variant → StatusColor
  | .success => ⟨"#198754", "#ffffff", "#146c43"⟩
  | .warning => ⟨"#ffc107", "#000000", "#8a5a00"⟩
  | .danger => ⟨"#dc3545", "#ffffff", "#b02a37"⟩
  | .neutral => ⟨"#6c757d", "#ffffff", "#5b6b7b"⟩

/-- A row of `STATUS_DISPLAY_MAP`, `_STATUS_VARIANTS` and `STATUS_LABEL_MAP`, which have the same
keys and give the text colour of the variant. -/
structure StatusDisplay where
  emoji : String
  variant : Variant
  text : String
  label : String

def unknownStatus : StatusDisplay := ⟨"⚪", .neutral, "Unknown", "UNKNOWN"⟩

def statusDisplays : List (String × StatusDisplay) :=
  [("DOWN", ⟨"🔴", .danger, "Service DOWN", "DOWN"⟩),
    ("OPEN", ⟨"🔴", .danger, "Service DOWN", "DOWN"⟩),
    ("UP", ⟨"🟢", .success, "Service UP", "UP"⟩),
    ("RESOLVED", ⟨"🟢", .success, "Service RESOLVED", "RESOLVED"⟩),
    ("WARN", ⟨"🟡", .warning, "Degraded", "WARNING"⟩),
    ("WARNING", ⟨"🟡", .warning, "Degraded", "WARNING"⟩),
    ("UNKNOWN", unknownStatus)]

def statusDisplay (status : Text) : StatusDisplay :=
  ((statusDisplays.find? fun entry => entry.1.toList = status).map Prod.snd).getD unknownStatus

/-! ## The check types -/

/-- A character of `[+,;\s]`. -/
def isTypeSeparator (c : Char) : Bool := c == '+' || c == ',' || c == ';' || isSpace c

/-- The check types that get a badge; none for an empty text, `None` and `N/A`. -/
def checkParts (tools : Tools) (checkType : Text) : List Text :=
  let raw := strip checkType
  if raw.isEmpty || tools.upper raw = "NONE".toList || tools.upper raw = "N/A".toList then []
  else
    ((raw.splitOnP isTypeSeparator).filter fun part => !(strip part).isEmpty).map fun part =>
      tools.upper (strip part)

/-- What stands before the text of a badge. -/
def badgeStart : Text :=
  ("<span class=\"badge-check\" style=\"display:inline-block;" ++
    "background-color:#6c757d;color:#ffffff;" ++
    "font-size:12px;font-weight:bold;line-height:1;" ++
    "padding:4px 10px;margin:0 4px 4px 0;" ++
    "border-radius:12px;" ++
    "mso-line-height-rule:exactly;\">").toList

def badge (check : Text) : Text := badgeStart ++ escape check ++ "</span>".toList

/-- `_render_check_badges` -/
def renderCheckBadges (tools : Tools) (checkType : Text) : Text :=
  let parts := checkParts tools checkType
  if parts = [] then "<span style='color:#5b6b7b;'>N/A</span>".toList
  else
    "<div style=\"line-height:1.8;\">".toList ++ ['\n'].intercalate (parts.map badge) ++
      "</div>".toList

/-! ## The reason -/

/-- `text.rstrip(".")` -/
def rstripDots (text : Text) : Text := text.rdropWhile (· == '.')

/-- `f"TCP {ports}" if ports else "TCP"` of what follows the colon. -/
def tcpPorts (after : Text) : Text :=
  let ports := strip (after.drop 1)
  if ports = [] then "TCP".toList else "TCP ".toList ++ ports

/-- The reason of a TCP check, `none` when it stays as it is. -/
def tcpReason (tools : Tools) (hostNorm rest : Text) : Option Text :=
  let restLower := rstripDots (tools.lower rest)
  if hostNorm ≠ [] ∧ (restLower = hostNorm ∨ (hostNorm ++ [':']).isPrefixOf restLower ∨
      (hostNorm ++ ['.']).isPrefixOf restLower) then
    let after :=
      if (hostNorm ++ ['.']).isPrefixOf restLower then strip (rest.drop (hostNorm.length + 1))
      else strip (rest.drop hostNorm.length)
    some (if after.head? = some ':' then tcpPorts after else "TCP".toList)
  else if rest.head? = some ':' then some (tcpPorts rest)
  else Option.none

/-- `_sanitize_reason` -/
def sanitizeReason (tools : Tools) (reason : Option Text) (targetHost checkType : Text) : Text :=
  let reason := strip (reason.getD [])
  if reason = [] then "N/A".toList
  else
    let checkTypeU := tools.upper (strip checkType)
    let hostNorm := rstripDots (tools.lower (strip targetHost))
    if "PING ".toList.isPrefixOf (tools.upper reason) then "PING".toList
    else
      let tcp :=
        if "TCP ".toList.isPrefixOf (tools.upper reason) then
          tcpReason tools hostNorm (strip (reason.drop 4))
        else Option.none
      match tcp with
      | some text => text
      | Option.none =>
          if checkTypeU ≠ [] ∧ hostNorm ≠ [] ∧
              tools.upper (strip reason) = tools.upper (checkTypeU ++ [' '] ++ hostNorm) then
            checkTypeU
          else reason

/-! ## The context -/

/-- `_CTA_URL_RE.match`; a long s matches an s when case is ignored. -/
def ctaUrlRe (url : Text) : Bool :=
  let isHttp := fun (text : Text) => text.length = 4 &&
    (text.map Char.toLower) = "http".toList
  let rest := url.drop 4
  let rest :=
    match rest with
    | c :: after => if c = 's' ∨ c = 'S' ∨ c = 'ſ' then after else rest
    | [] => rest
  isHttp (url.take 4) && "://".toList.isPrefixOf rest &&
    match rest.drop 3 with
    | first :: second :: after =>
        !(isSpace first || "/$.?#".toList.contains first) && second != '\n' &&
          after.all fun c => !isSpace c
    | _ => false

/-- `_is_valid_cta_url` -/
def isValidCtaUrl (url : Option Text) : Bool :=
  match url with
  | Option.none => false
  | some url => !url.isEmpty && ctaUrlRe (strip url)

/-- Whether the group has a row of its own. -/
def groupVisible (tools : Tools) (group : Option Text) : Bool :=
  match group with
  | Option.none => false
  | some group =>
      let plain := tools.lower (strip group)
      !group.isEmpty &&
        !(plain = [] || plain = "default".toList || plain = "n/a".toList)

/-- `target_data.get("check_type") or ""` -/
def TargetData.checkTypeRaw (target : TargetData) : Text := (target.checkType.get []).getD []

/-- `build_alert_context` at the time `now`; none for an exception. -/
def buildAlertContext (tools : Tools) (now : ℤ) (alert : AlertData) (target : TargetData) :
    Option Context := do
  let startedAt ← formatTimestamp tools "N/A" alert.startedAt
  let resolvedAt ← formatTimestamp tools "Ongoing" alert.resolvedAt
  let minutes := alert.downtimeMinutes.getD 0
  let slaThreshold := formatSla tools alert.slaThreshold
  let slaActual := formatSla tools alert.slaActual
  let slaHidden := decide (slaThreshold = "N/A".toList ∧ slaActual = "N/A".toList)
  let display := statusDisplay (tools.upper (str (alert.status.get "UNKNOWN".toList)))
  let palette := display.variant.palette
  let group := target.group.get "Default".toList
  let systemUrl := alert.systemUrl.get ['#']
  some {
    statusEmoji := display.emoji.toList
    statusColor := palette.text.toList
    statusAccentColor := palette.background.toList
    statusForegroundColor := palette.foreground.toList
    statusTextColor := palette.text.toList
    statusText := display.text.toList
    statusLabel := display.label.toList
    targetName := target.name.get "Unknown".toList
    targetHost := target.host.get "N/A".toList
    targetGroup := group
    targetCheckType := target.checkTypeRaw
    targetCheckBadges := renderCheckBadges tools target.checkTypeRaw
    alertStatus := alert.status.get "UNKNOWN".toList
    alertStartedAt := startedAt
    alertResolvedAt := resolvedAt
    alertDuration := durationText tools now alert.startedAt alert.resolvedAt
    alertReason := sanitizeReason tools (alert.reason.get "N/A".toList)
      (str (target.host.get [])) target.checkTypeRaw
    downtimeMinutes := (toString (if slaHidden then 0 else minutes)).toList
    downtimeHuman :=
      if slaHidden then "N/A".toList
      else if minutes > 0 then formatDuration (minutes * 60)
      else "None".toList
    slaThreshold := slaThreshold
    slaActual := slaActual
    systemName := "justUp".toList
    systemUrl := systemUrl
    systemTimestamp := tools.strftime now
    systemGithubUrl := "https://github.com/Gill-Bates/justup".toList
    logoUrl := "cid:justup-logo".toList
    flags := {
      sla := !slaHidden
      cta := isValidCtaUrl systemUrl
      resolved := alert.resolvedAt.truthy
      group := groupVisible tools group } }

end Justup.Alerts.Mail
