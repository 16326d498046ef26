import Mathlib.Data.List.Nodup
import Justup.Alerts.MailContext

/-!
# The structure of an alert mail

What opens or closes a tag or an attribute stands in the template or in the
badges, never in a text of the monitored data: those texts are escaped, and the
places where they go are found before they are there.
-/

namespace Justup.Alerts.Mail

open Justup.Lib Justup.Lib.Substitute Justup.Store

/-! ## Marks -/

/-- A character that can change the structure of a mail. -/
def isMark (c : Char) : Bool := c == '<' || c == '>' || c == '"' || c == '\''

def marks (text : Text) : Text := text.filter isMark

@[simp]
theorem marks_nil : marks [] = [] := rfl

@[simp]
theorem marks_append (text other : Text) : marks (text ++ other) = marks text ++ marks other :=
  List.filter_append ..

theorem marks_escapeChar (c : Char) : marks (escapeChar c) = [] := by
  unfold escapeChar
  split_ifs with hamp hlt hgt hquote happo
  · rfl
  · rfl
  · rfl
  · rfl
  · rfl
  · simp [marks, isMark, hlt, hgt, hquote, happo]

theorem marks_escape (text : Text) : marks (escape text) = [] := by
  induction text with
  | nil => rfl
  | cons c rest ih =>
      have hcons : escape (c :: rest) = escapeChar c ++ escape rest := rfl
      rw [hcons, marks_append, marks_escapeChar, ih, List.append_nil]

theorem isMark_eq_false_of_isHex {c : Char} (h : isHex c) : isMark c = false := by
  by_contra hmark
  simp only [isMark, Bool.or_eq_true, beq_iff_eq, Bool.not_eq_false] at hmark
  obtain ((rfl | rfl) | rfl) | rfl := hmark <;> exact absurd h (by decide)

theorem marks_of_isColor {text : Text} (h : isColor text) : marks text = [] := by
  unfold isColor at h
  split at h
  next digits =>
    simp only [Bool.and_eq_true, List.all_eq_true] at h
    refine List.filter_eq_nil_iff.mpr fun c hc => ?_
    obtain rfl | hc := List.mem_cons.mp hc
    · decide
    · rw [isMark_eq_false_of_isHex (h.2 c hc)]
      exact Bool.false_ne_true
  next => cases h

/-! ## The badges -/

theorem marks_badge (check : Text) : marks (badge check) = marks (badge []) := by
  unfold badge
  rw [marks_append, marks_append, marks_append, marks_append, marks_escape, marks_escape]

theorem marks_badges (checks : List Text) :
    marks (['\n'].intercalate (checks.map badge)) =
      (List.replicate checks.length (marks (badge []))).flatten := by
  induction checks with
  | nil => rfl
  | cons check rest ih =>
      cases rest with
      | nil => simp [marks_badge check]
      | cons next rest =>
          have hcons : ['\n'].intercalate ((check :: next :: rest).map badge) =
              badge check ++ (['\n'] ++ ['\n'].intercalate ((next :: rest).map badge)) := by
            simp [List.intercalate]
          have hsep : marks ['\n'] = [] := rfl
          rw [hcons, marks_append, marks_append, ih, marks_badge, hsep, List.nil_append]
          rfl

/-- The tags of the badges are known from the number of the check types. -/
theorem marks_renderCheckBadges {tools : Tools} {checkType checkType' : Text}
    (h : (checkParts tools checkType).length = (checkParts tools checkType').length) :
    marks (renderCheckBadges tools checkType) = marks (renderCheckBadges tools checkType') := by
  have hnil : checkParts tools checkType = [] ↔ checkParts tools checkType' = [] := by
    rw [← List.length_eq_zero_iff, ← List.length_eq_zero_iff, h]
  unfold renderCheckBadges
  simp only [hnil]
  split
  · rfl
  · simp only [marks_append, marks_badges, h]

/-! ## What is inserted -/

theorem marks_insertValue {placeholder : String} (h : placeholder ∉ rawHtmlPlaceholders)
    (value : Option Text) : marks (insertValue placeholder value) = [] := by
  unfold insertValue
  rw [if_neg h]
  split
  next name fallback hfind =>
    split
    · exact marks_of_isColor ‹_›
    · have hmem := List.mem_of_find?_eq_some hfind
      have hall : (fallbackColors.all fun entry => marks entry.2.toList = []) = true := by decide
      simpa using List.all_eq_true.mp hall _ hmem
  next => exact marks_escape _

theorem insertValue_checkBadges (badges : Text) :
    insertValue "target.check_badges" (some badges) = badges := rfl

theorem isColor_insertValue {placeholder : String}
    (h : placeholder ∈ fallbackColors.map Prod.fst) (value : Option Text) :
    isColor (insertValue placeholder value) = true := by
  have hraw : placeholder ∉ rawHtmlPlaceholders := by
    intro hraw
    rw [List.mem_singleton.mp hraw] at h
    exact absurd h (by decide)
  unfold insertValue
  rw [if_neg hraw]
  split
  next name fallback hfind =>
    split
    · assumption
    · have hmem := List.mem_of_find?_eq_some hfind
      have hall : (fallbackColors.all fun entry => isColor entry.2.toList) = true := by decide
      exact List.all_eq_true.mp hall _ hmem
  next hfind =>
    obtain ⟨entry, hentry, rfl⟩ := List.mem_map.mp h
    have := List.find?_eq_none.mp hfind entry hentry
    simp at this

theorem values_keys (context : Context) : context.values.map Prod.fst = allowedPlaceholders := rfl

theorem allowedPlaceholders_nodup : (allowedPlaceholders.map String.toList).Nodup := by decide

theorem fallbackColors_allowed : fallbackColors.map Prod.fst ⊆ allowedPlaceholders := by decide

theorem replacePlaceholder_of_mem {context : Context} {placeholder : String} {value : Option Text}
    (h : (placeholder, value) ∈ context.values) :
    replacePlaceholder context placeholder.toList = insertValue placeholder value := by
  have hnodup : (context.values.map fun entry => entry.1.toList).Nodup := by
    have hkeys := allowedPlaceholders_nodup
    rwa [← values_keys context, List.map_map] at hkeys
  unfold replacePlaceholder
  cases hfind : context.values.find? fun entry => entry.1.toList = placeholder.toList with
  | none =>
      have := List.find?_eq_none.mp hfind _ h
      simp at this
  | some entry =>
      have hsame := List.find?_some hfind
      have hmem := List.mem_of_find?_eq_some hfind
      have hentry := List.inj_on_of_nodup_map hnodup hmem h (by simpa using hsame)
      rw [hentry]

theorem replacePlaceholder_of_notMem (context : Context) {name : Text}
    (h : name ∉ allowedPlaceholders.map String.toList) : replacePlaceholder context name = [] := by
  unfold replacePlaceholder
  rw [List.find?_eq_none.mpr]
  intro entry hentry hname
  rw [← values_keys context, List.map_map] at h
  exact h (List.mem_map.mpr ⟨entry, hentry, by simpa using hname⟩)

theorem targetCheckBadges_mem (context : Context) :
    ("target.check_badges", some context.targetCheckBadges) ∈ context.values := by
  simp [Context.values]

/-- Only the badges bring marks into a mail. -/
theorem marks_replacePlaceholder (context : Context) (name : Text) :
    marks (replacePlaceholder context name) =
      if name = "target.check_badges".toList then marks context.targetCheckBadges else [] := by
  split
  · subst name
    rw [replacePlaceholder_of_mem (targetCheckBadges_mem context), insertValue_checkBadges]
  next hname =>
    by_cases hmem : name ∈ allowedPlaceholders.map String.toList
    · rw [← values_keys context, List.map_map] at hmem
      obtain ⟨⟨placeholder, value⟩, hentry, rfl⟩ := List.mem_map.mp hmem
      rw [Function.comp_apply, replacePlaceholder_of_mem hentry]
      refine marks_insertValue (fun hraw => hname ?_) value
      rw [Function.comp_apply, List.mem_singleton.mp hraw]
    · rw [replacePlaceholder_of_notMem context hmem, marks_nil]

/-! ## Where tokens stand -/

theorem length_closing_lt {text rest : Text} (h : closing text = some rest) :
    rest.length < text.length := by
  unfold closing at h
  simp only [Option.ite_none_right_eq_some, Option.some.injEq] at h
  obtain ⟨hmark, rfl⟩ := h
  have hle := (List.dropWhile_suffix (p := isSpace) (l := text)).length_le
  have hmark := (List.isPrefixOf_iff_prefix.mp hmark).length_le
  simp only [List.length_drop]
  simp only [closeMark, List.length_cons, List.length_nil] at hmark
  omega

theorem length_blockEnd_le {name text rest : Text} (h : blockEnd name text = some rest) :
    rest.length ≤ text.length := by
  unfold blockEnd at h
  simp only [Option.ite_none_right_eq_some] at h
  obtain ⟨-, ⟨hspace, -⟩, hclosing⟩ := h
  have hlt := length_closing_lt hclosing
  simp only [List.length_drop] at hlt hspace
  omega

theorem length_findBlockEnd_le {name text body after : Text}
    (h : findBlockEnd name text = some (body, after)) : after.length ≤ text.length := by
  induction text generalizing body with
  | nil =>
      obtain ⟨rest, hend, hpair⟩ := Option.map_eq_some_iff.mp h
      cases hpair
      exact length_blockEnd_le hend
  | cons c rest ih =>
      unfold findBlockEnd at h
      split at h
      next behind hend =>
        cases h
        exact length_blockEnd_le hend
      next =>
        obtain ⟨⟨inner, behind⟩, hinner, hpair⟩ := Option.map_eq_some_iff.mp h
        cases hpair
        exact (ih hinner).trans (by simp)

theorem fits_findPlaceholder : Fits findPlaceholder := by
  intro text name length h
  unfold findPlaceholder at h
  simp only [Option.ite_none_right_eq_some, Option.ite_none_left_eq_some] at h
  obtain ⟨-, -, hmap⟩ := h
  obtain ⟨rest, hclosing, hpair⟩ := Option.map_eq_some_iff.mp hmap
  cases hpair
  have hlt := length_closing_lt hclosing
  have hle := (List.dropWhile_suffix (p := isSpace) (l := text.drop 2)).length_le
  simp only [List.length_drop] at hlt hle
  omega

theorem fits_findBlock : Fits findBlock := by
  intro text block length h
  unfold findBlock at h
  simp only [Option.ite_none_right_eq_some] at h
  obtain ⟨-, ⟨hspace, -⟩, hbind⟩ := h
  obtain ⟨inside, hclosing, hmap⟩ := Option.bind_eq_some_iff.mp hbind
  obtain ⟨⟨body, after⟩, hend, hpair⟩ := Option.map_eq_some_iff.mp hmap
  cases hpair
  have hlt := length_closing_lt hclosing
  have hafter : after.length ≤ inside.length := length_findBlockEnd_le hend
  simp only [List.length_drop] at hlt hspace ⊢
  omega

theorem not_isPrefixOf_of_not_contains {needle text : Text} (h : contains needle text = false) :
    ∀ rest, rest <:+ text → needle.isPrefixOf rest = false := by
  intro rest hsuffix
  exact Bool.eq_false_iff.mpr (List.any_eq_false.mp h rest ((List.mem_tails ..).mpr hsuffix))

/-- The early exit changes nothing. -/
theorem applyConditionals_eq (template : Text) (flags : Flags) :
    applyConditionals template flags = sub findBlock (replaceBlock flags) template := by
  unfold applyConditionals
  split
  next hnone =>
    refine (sub_eq_self (fun rest hsuffix => ?_) _).symm
    have hmark := not_isPrefixOf_of_not_contains (by simpa using hnone) rest hsuffix
    simp [findBlock, hmark]
  next => rfl

theorem renderTemplate_eq (template : Text) (context : Context) :
    renderTemplate template context =
      sub findPlaceholder (replacePlaceholder context)
        (sub findBlock (replaceBlock context.flags) template) := by
  unfold renderTemplate
  rw [applyConditionals_eq]
  simp only
  split
  next hnone =>
    refine (sub_eq_self (fun rest hsuffix => ?_) _).symm
    have hmark := not_isPrefixOf_of_not_contains (by simpa using hnone) rest hsuffix
    simp [findPlaceholder, hmark]
  next => rfl

/-! ## The mail of an alert -/

theorem targetCheckBadges_of_build {tools : Tools} {now : ℤ} {alert : AlertData}
    {target : TargetData} {context : Context}
    (h : buildAlertContext tools now alert target = some context) :
    context.targetCheckBadges = renderCheckBadges tools target.checkTypeRaw := by
  unfold buildAlertContext at h
  obtain ⟨startedAt, -, h⟩ := Option.bind_eq_some_iff.mp h
  obtain ⟨resolvedAt, -, h⟩ := Option.bind_eq_some_iff.mp h
  cases h
  rfl

/-- Two alerts with the same flags and the same number of check types give mails of one structure:
the places of the tokens are those of the template, and each allowed placeholder stands for the
escaped text of its own value, for a colour or for the badges. -/
theorem monitored_data_keeps_the_structure (tools : Tools) (template : Text) (now now' : ℤ)
    (alert alert' : AlertData) (target target' : TargetData) (context context' : Context)
    (hcontext : buildAlertContext tools now alert target = some context)
    (hcontext' : buildAlertContext tools now' alert' target' = some context')
    (hflags : context.flags = context'.flags)
    (hparts : (checkParts tools target.checkTypeRaw).length =
      (checkParts tools target'.checkTypeRaw).length) :
    marks (renderTemplate template context) = marks (renderTemplate template context') ∧
      (∃ blocks placeholders,
        Scan findBlock template blocks ∧
        Scan findPlaceholder (blocks.flatMap (Piece.fill (replaceBlock context.flags)))
          placeholders ∧
        renderTemplate template context =
          placeholders.flatMap (Piece.fill (replacePlaceholder context)) ∧
        renderTemplate template context' =
          placeholders.flatMap (Piece.fill (replacePlaceholder context'))) ∧
      (∀ placeholder value, (placeholder, value) ∈ context.values →
        replacePlaceholder context placeholder.toList = insertValue placeholder value) ∧
      (∀ name, name ∉ allowedPlaceholders.map String.toList →
        replacePlaceholder context name = []) ∧
      ∀ placeholder ∈ fallbackColors.map Prod.fst,
        isColor (replacePlaceholder context placeholder.toList) = true := by
  refine ⟨?_, ?_, fun placeholder value => replacePlaceholder_of_mem,
    fun name => replacePlaceholder_of_notMem context, ?_⟩
  · rw [renderTemplate_eq, renderTemplate_eq, hflags]
    refine filter_sub_congr isMark (fun name => ?_) _
    change marks _ = marks _
    rw [marks_replacePlaceholder, marks_replacePlaceholder, targetCheckBadges_of_build hcontext,
      targetCheckBadges_of_build hcontext', marks_renderCheckBadges hparts]
  · refine ⟨pieces findBlock template,
      pieces findPlaceholder (sub findBlock (replaceBlock context.flags) template),
      scan_pieces fits_findBlock template, scan_pieces fits_findPlaceholder _, ?_, ?_⟩
    · exact renderTemplate_eq template context
    · rw [renderTemplate_eq, ← hflags]
      rfl
  · intro placeholder hcolor
    have hallowed := fallbackColors_allowed hcolor
    rw [← values_keys context] at hallowed
    obtain ⟨⟨name, value⟩, hentry, rfl⟩ := List.mem_map.mp hallowed
    rw [replacePlaceholder_of_mem hentry]
    exact isColor_insertValue hcolor value

/-- The tools as they are on ASCII texts without times and percentages. -/
def asciiTools : Tools where
  upper text := text.map Char.toUpper
  lower text := text.map Char.toLower
  fromisoformat _ := none
  astimezoneUtc wall offset := some (wall - offset)
  strftime _ := "1970-01-01 00:00:00 UTC".toList
  totalSeconds difference := difference.tdiv 1000000
  twoDecimals _ := "0.00".toList

def taggedAlert : AlertData where
  startedAt := .none
  resolvedAt := .none
  downtimeMinutes := none
  slaThreshold := .none
  slaActual := .none
  status := .text "DOWN".toList
  reason := .text "<b>\x7b\x7btarget.name\x7d\x7d</b>".toList
  systemUrl := .missing

def taggedTarget : TargetData where
  name := .text "\x7b\x7b#if sla\x7d\x7d".toList
  host := .text "a\"b".toList
  group := .missing
  checkType := .text "http + ping".toList

def plainAlert : AlertData := { taggedAlert with status := .text "UP".toList, reason := .missing }

def plainTarget : TargetData :=
  { taggedTarget with name := .text "shop".toList, checkType := .text "TCP,icmp".toList }

def quotingTemplate : Text :=
  "<p title='\x7b\x7b target.name \x7d\x7d'>\x7b\x7btarget.check_badges\x7d\x7d</p>".toList

theorem isSome_tagged : (buildAlertContext asciiTools 0 taggedAlert taggedTarget).isSome := by
  decide +kernel

theorem isSome_plain : (buildAlertContext asciiTools 0 plainAlert plainTarget).isSome := by
  decide +kernel

/-- A name that is a conditional and a reason that is a tag stay texts. -/
theorem monitored_data_keeps_the_structure_tags :
    ∃ context context',
      buildAlertContext asciiTools 0 taggedAlert taggedTarget = some context ∧
      buildAlertContext asciiTools 0 plainAlert plainTarget = some context' ∧
      marks (renderTemplate quotingTemplate context) =
        marks (renderTemplate quotingTemplate context') := by
  have hcontext := (Option.some_get isSome_tagged).symm
  have hcontext' := (Option.some_get isSome_plain).symm
  exact ⟨_, _, hcontext, hcontext',
    (monitored_data_keeps_the_structure asciiTools quotingTemplate 0 0 _ _ _ _ _ _ hcontext
      hcontext' (by decide +kernel) (by decide +kernel)).1⟩

end Justup.Alerts.Mail
