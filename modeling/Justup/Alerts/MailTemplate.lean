import Justup.Lib.Substitute
import Justup.Store.Line

/-!
# Rendering a mail template

`render_template` in its HTML mode: the conditional blocks of the template are
kept or dropped by their flags, then every placeholder is replaced by the value
that the context has for it.
-/

namespace Justup.Alerts.Mail

open Justup.Lib Justup.Store

/-! ## HTML -/

/-- One character of `html.escape`. -/
def escapeChar (c : Char) : Text :=
  if c = '&' then "&amp;".toList
  else if c = '<' then "&lt;".toList
  else if c = '>' then "&gt;".toList
  else if c = '"' then "&quot;".toList
  else if c = '\'' then "&#x27;".toList
  else [c]

/-- `html.escape` -/
def escape (text : Text) : Text := text.flatMap escapeChar

/-- A hexadecimal digit. -/
def isHex (c : Char) : Bool :=
  ('0' ≤ c && c ≤ '9') || ('a' ≤ c && c ≤ 'f') || ('A' ≤ c && c ≤ 'F')

/-- `re.fullmatch(r"#[0-9a-fA-F]{6}", text)` -/
def isColor : Text → Bool
  | '#' :: digits => digits.length = 6 && digits.all isHex
  | _ => false

/-! ## Tokens of the template -/

def openMark : Text := ['\x7b', '\x7b']

def closeMark : Text := ['\x7d', '\x7d']

/-- A character of `[a-zA-Z0-9_]`. -/
def isFlagChar (c : Char) : Bool := c.isAlphanum || c == '_'

/-- A character of `[a-zA-Z0-9_.]`. -/
def isNameChar (c : Char) : Bool := isFlagChar c || c == '.'

/-- `\s*` and the closing mark; what follows. -/
def closing (text : Text) : Option Text :=
  let after := text.dropWhile isSpace
  if closeMark.isPrefixOf after then some (after.drop 2) else none

/-- `_PLACEHOLDER_RE` at the start of a text: the name and the length of the match. -/
def findPlaceholder (text : Text) : Option (Text × ℕ) :=
  if openMark.isPrefixOf text then
    let inner := (text.drop 2).dropWhile isSpace
    let name := inner.takeWhile isNameChar
    if name = [] then none
    else (closing (inner.drop name.length)).map fun rest => (name, text.length - rest.length)
  else none

/-- The end of the block of a flag at the start of a text; what follows. -/
def blockEnd (name text : Text) : Option Text :=
  if (openMark ++ "/if".toList).isPrefixOf text then
    let rest := text.drop 5
    let inner := rest.dropWhile isSpace
    if inner.length < rest.length ∧ name.isPrefixOf inner then closing (inner.drop name.length)
    else none
  else none

/-- `.*?` up to the first end of the block: the body and what follows. -/
def findBlockEnd (name : Text) : Text → Option (Text × Text)
  | [] => (blockEnd name []).map fun rest => ([], rest)
  | c :: rest =>
      match blockEnd name (c :: rest) with
      | some after => some ([], after)
      | none => (findBlockEnd name rest).map fun (body, after) => (c :: body, after)

/-- A conditional block: its flag and its body. -/
structure Block where
  name : Text
  body : Text
  deriving DecidableEq

def blockMark : Text := openMark ++ "#if".toList

/-- `_CONDITIONAL_RE` at the start of a text: the block and the length of the match. -/
def findBlock (text : Text) : Option (Block × ℕ) :=
  if blockMark.isPrefixOf text then
    let rest := text.drop 5
    let inner := rest.dropWhile isSpace
    let name := inner.takeWhile isFlagChar
    if inner.length < rest.length ∧ name ≠ [] then
      (closing (inner.drop name.length)).bind fun inside =>
        (findBlockEnd name inside).map fun (body, after) =>
          (⟨name, body⟩, text.length - after.length)
    else none
  else none

/-! ## The context -/

/-- The flags of a context. -/
structure Flags where
  sla : Bool
  cta : Bool
  resolved : Bool
  group : Bool
  deriving DecidableEq

/-- The flag of a name of `CONDITIONAL_FLAGS`; an unknown one drops its block. -/
def Flags.get (flags : Flags) (name : Text) : Bool :=
  if name = "sla".toList then flags.sla
  else if name = "cta".toList then flags.cta
  else if name = "resolved".toList then flags.resolved
  else if name = "group".toList then flags.group
  else false

/-- What `build_alert_context` returns; a value may be `None`. -/
structure Context where
  statusEmoji : Text
  statusColor : Text
  statusAccentColor : Text
  statusForegroundColor : Text
  statusTextColor : Text
  statusText : Text
  statusLabel : Text
  targetName : Option Text
  targetHost : Option Text
  targetGroup : Option Text
  targetCheckType : Text
  targetCheckBadges : Text
  alertStatus : Option Text
  alertStartedAt : Text
  alertResolvedAt : Text
  alertDuration : Text
  alertReason : Text
  downtimeMinutes : Text
  downtimeHuman : Text
  slaThreshold : Text
  slaActual : Text
  systemName : Text
  systemUrl : Option Text
  systemTimestamp : Text
  systemGithubUrl : Text
  logoUrl : Text
  flags : Flags

/-- `ALLOWED_PLACEHOLDERS` -/
def allowedPlaceholders : List String :=
  ["target.name", "target.host", "target.group", "target.check_type", "target.check_badges",
    "alert.status", "alert.started_at", "alert.resolved_at", "alert.duration", "alert.reason",
    "status.emoji", "status.color", "status.accent_color", "status.foreground_color",
    "status.text_color", "status.text", "status.label", "downtime.minutes", "downtime.human",
    "sla.threshold", "sla.actual", "system.name", "system.url", "system.timestamp",
    "system.github_url", "logo_url"]

/-- The allowed placeholders, each with the value that the context has under its path. -/
def Context.values (context : Context) : List (String × Option Text) :=
  [("target.name", context.targetName),
    ("target.host", context.targetHost),
    ("target.group", context.targetGroup),
    ("target.check_type", context.targetCheckType),
    ("target.check_badges", context.targetCheckBadges),
    ("alert.status", context.alertStatus),
    ("alert.started_at", context.alertStartedAt),
    ("alert.resolved_at", context.alertResolvedAt),
    ("alert.duration", context.alertDuration),
    ("alert.reason", context.alertReason),
    ("status.emoji", context.statusEmoji),
    ("status.color", context.statusColor),
    ("status.accent_color", context.statusAccentColor),
    ("status.foreground_color", context.statusForegroundColor),
    ("status.text_color", context.statusTextColor),
    ("status.text", context.statusText),
    ("status.label", context.statusLabel),
    ("downtime.minutes", context.downtimeMinutes),
    ("downtime.human", context.downtimeHuman),
    ("sla.threshold", context.slaThreshold),
    ("sla.actual", context.slaActual),
    ("system.name", context.systemName),
    ("system.url", context.systemUrl),
    ("system.timestamp", context.systemTimestamp),
    ("system.github_url", context.systemGithubUrl),
    ("logo_url", context.logoUrl)]

/-- The colour that stands in for a value that is none. -/
def fallbackColors : List (String × String) :=
  [("status.color", "#6b7280"), ("status.accent_color", "#6c757d"),
    ("status.foreground_color", "#ffffff"), ("status.text_color", "#5b6b7b")]

/-- `_RAW_HTML_PLACEHOLDERS` -/
def rawHtmlPlaceholders : List String := ["target.check_badges"]

/-! ## Rendering -/

/-- What stands for an allowed placeholder with this value. -/
def insertValue (placeholder : String) (value : Option Text) : Text :=
  let raw := value.getD []
  if placeholder ∈ rawHtmlPlaceholders then raw
  else
    match fallbackColors.find? fun entry => entry.1 = placeholder with
    | some (_, fallback) => if isColor raw then raw else fallback.toList
    | none => escape raw

/-- `replace_placeholder` -/
def replacePlaceholder (context : Context) (name : Text) : Text :=
  match context.values.find? fun entry => entry.1.toList = name with
  | none => []
  | some (placeholder, value) => insertValue placeholder value

/-- `repl` of `_apply_conditionals` -/
def replaceBlock (flags : Flags) (block : Block) : Text :=
  if flags.get block.name then block.body else []

/-- `needle in text` -/
def contains (needle text : Text) : Bool := text.tails.any fun rest => needle.isPrefixOf rest

/-- `_apply_conditionals` -/
def applyConditionals (template : Text) (flags : Flags) : Text :=
  if !contains blockMark template then template
  else Substitute.sub findBlock (replaceBlock flags) template

/-- `render_template` -/
def renderTemplate (template : Text) (context : Context) : Text :=
  let template := applyConditionals template context.flags
  if !contains openMark template then template
  else Substitute.sub findPlaceholder (replacePlaceholder context) template

end Justup.Alerts.Mail
