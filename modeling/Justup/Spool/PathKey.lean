import Justup.Lib.Json
import Justup.Spool.Policy

/-!
# The key of a send path in SQL and in Python

`_CHANNEL_KEY_SQL` computes the key of a queue row from the text of its payload,
`_item_key` from the item that was read of it.  Pacing and cooldowns are stored
under the second and looked up under the first.  The two take off different
white space, and where a payload has two senders they take different ones.
-/

namespace Justup.Spool

open Lib Store

/-! ## Two ways of trimming -/

section

variable {α : Type*} (p q : α → Bool)

theorem dropWhile_rdropWhile_comm (text : List α) :
    (text.rdropWhile q).dropWhile p = (text.dropWhile p).rdropWhile q := by
  induction text using List.reverseRecOn with
  | nil => rfl
  | append_singleton text c ih =>
      by_cases hq : q c = true
      · rw [List.rdropWhile_concat_pos _ _ _ hq, ih, List.dropWhile_append]
        split
        next hempty =>
          rw [List.isEmpty_iff.mp hempty]
          by_cases hp : p c = true
          · simp [hp]
          · simp [hp, List.rdropWhile, hq]
        next => rw [List.rdropWhile_concat_pos _ _ _ hq]
      · rw [List.rdropWhile_concat_neg _ _ _ hq, List.dropWhile_append]
        split
        next hempty =>
          by_cases hp : p c = true
          · simp [hp]
          · simp [hp, List.rdropWhile, hq]
        next => rw [List.rdropWhile_concat_neg _ _ _ hq]

variable {p q}

theorem dropWhile_dropWhile_of_imp (himp : ∀ c, q c = true → p c = true) (text : List α) :
    (text.dropWhile q).dropWhile p = text.dropWhile p := by
  induction text with
  | nil => rfl
  | cons c rest ih =>
      by_cases hq : q c = true
      · rw [List.dropWhile_cons_of_pos hq, ih, List.dropWhile_cons_of_pos (himp c hq)]
      · rw [List.dropWhile_cons_of_neg hq]

theorem rdropWhile_rdropWhile_of_imp (himp : ∀ c, q c = true → p c = true) (text : List α) :
    (text.rdropWhile q).rdropWhile p = text.rdropWhile p := by
  rw [List.rdropWhile, List.rdropWhile, List.reverse_reverse, dropWhile_dropWhile_of_imp himp]
  rfl

end

theorem isSpace_of_blank (c : Char) (hc : (c == ' ') = true) : isSpace c = true := by
  rw [eq_of_beq hc]
  decide

/-- Stripping takes off the blanks as well. -/
theorem strip_trimBlanks (text : Text) : strip (trimBlanks text) = strip text := by
  unfold strip trimBlanks
  rw [dropWhile_rdropWhile_comm, dropWhile_dropWhile_of_imp isSpace_of_blank,
    rdropWhile_rdropWhile_of_imp isSpace_of_blank]

/-- The text has no white space but blanks around it. -/
def BlankPadded (text : Text) : Prop :=
  (∀ c ∈ (trimBlanks text).head?, isSpace c = false) ∧
    ∀ c ∈ (trimBlanks text).getLast?, isSpace c = false

theorem isSpace_getLast_strip {text : Text} {c : Char} (hc : c ∈ (strip text).getLast?) :
    isSpace c = false := by
  unfold strip at hc
  have hne : (text.dropWhile isSpace).rdropWhile isSpace ≠ [] := by
    intro hnil
    simp [hnil] at hc
  have hlast := List.rdropWhile_last_not isSpace (text.dropWhile isSpace) hne
  rw [List.getLast?_eq_some_getLast hne] at hc
  rw [← Option.some.inj hc]
  simpa using hlast

theorem strip_of_ends {text : Text} (hhead : ∀ c ∈ text.head?, isSpace c = false)
    (hlast : ∀ c ∈ text.getLast?, isSpace c = false) : strip text = text := by
  unfold strip
  have hdrop : text.dropWhile isSpace = text := by
    cases text with
    | nil => rfl
    | cons c rest => exact List.dropWhile_cons_of_neg (by simp [hhead c rfl])
  rw [hdrop, List.rdropWhile_eq_self_iff]
  intro hne
  simp [hlast _ (List.getLast_mem_getLast? hne)]

/-- SQL and Python see one account when the texts are the same but for the white space around
them, and SQL can take off what is there. -/
theorem trimBlanks_eq_strip_iff (first last : Text) :
    trimBlanks first = strip last ↔ strip first = strip last ∧ BlankPadded first := by
  constructor
  · intro h
    refine ⟨by rw [← strip_trimBlanks, h, strip_strip], ?_, ?_⟩
    · intro c hc
      rw [h] at hc
      cases hstrip : strip last with
      | nil => simp [hstrip] at hc
      | cons d rest =>
          rw [hstrip] at hc
          obtain rfl : d = c := by simpa using hc
          exact isSpace_head_strip hstrip
    · intro c hc
      rw [h] at hc
      exact isSpace_getLast_strip hc
  · rintro ⟨hstrip, hhead, hlast⟩
    rw [← hstrip, ← strip_trimBlanks, strip_of_ends hhead hlast]

/-! ## The two keys -/

/-- What a key is computed from: two columns of a queue row. -/
structure RowText where
  channelType : Text
  payload : Text

/-- A key as the database spells it. -/
def SendPath.text : SendPath → Text
  | .email => ['e', 'm', 'a', 'i', 'l']
  | .signal account => ['s', 'i', 'g', 'n', 'a', 'l', ':'] ++ account

theorem SendPath.text_injective : Function.Injective SendPath.text := by
  intro first second h
  cases first with
  | email =>
      cases second with
      | email => rfl
      | signal account => simp [SendPath.text] at h
  | signal account =>
      cases second with
      | email => simp [SendPath.text] at h
      | signal other => simpa [SendPath.text] using h

def senderName : Text := "sender".toList

/-- The members of an object with a name. -/
def membersNamed (name : Text) : Json → List Json
  | .object members => (members.filter fun member => member.1 == name).map Prod.snd
  | _ => []

/-- `ChannelType(text)` -/
def channelOf (text : Text) : Option ChannelType :=
  if text = "signal".toList then some .signal
  else if text = "email".toList then some .email
  else none

def isObject : Json → Bool
  | .object _ => true
  | _ => false

/-- A sender that is missing, null or a text; `none` for any other. -/
def senderText : Option Json → Option (Option Text)
  | none | some .null => some none
  | some (.string text) => some (some text)
  | _ => none

/-- `_item_key` of the item that is read of the row, `none` when there is no such item.  Of equal
names in the payload the last one counts. -/
def RowText.itemKey (row : RowText) : Option Text := do
  let channel ← channelOf row.channelType
  let payload ← Json.read true row.payload
  if isObject payload = false then none
  else
    match channel with
    | .email => some (channelKey .email none).text
    | .signal => do
        let sender ← senderText (membersNamed senderName payload).getLast?
        some (channelKey .signal sender).text

/-- `_CHANNEL_KEY_SQL`, `none` for a sender that is not a text.  A payload that is not valid JSON
has no sender, and of equal names the first one counts. -/
def RowText.sqlKey (row : RowText) : Option Text :=
  if row.channelType = "signal".toList then
    match Json.read false row.payload with
    | none => some (sqlChannelKey .signal none).text
    | some payload => do
        let sender ← senderText (membersNamed senderName payload).head?
        some (sqlChannelKey .signal sender).text
  else some row.channelType

def isNullOrText : Json → Bool
  | .null | .string _ => true
  | _ => false

/-- Every sender of the payload is null or a text. -/
def RowText.TextSenders (row : RowText) : Prop :=
  ((Json.read true row.payload).all fun payload =>
    (membersNamed senderName payload).all isNullOrText) = true

/-- The text of a sender; a missing one counts as empty. -/
def accountText (sender : Option Json) : Text :=
  ((senderText sender).getD none).getD []

/-- The first and the last sender of the payload are one account, and SQL can take off the white
space around it.  Where only Python reads the payload, there is no account. -/
def RowText.SameAccount (row : RowText) (payload : Json) : Prop :=
  match Json.read false row.payload with
  | some _ =>
      strip (accountText (membersNamed senderName payload).head?) =
          strip (accountText (membersNamed senderName payload).getLast?) ∧
        BlankPadded (accountText (membersNamed senderName payload).head?)
  | none => strip (accountText (membersNamed senderName payload).getLast?) = []

/-- The row names one path to SQL and to Python. -/
structure RowText.OnePath (row : RowText) : Prop where
  account : row.channelType = "signal".toList →
    ∀ payload ∈ Json.read true row.payload, row.SameAccount payload

section

variable {row : RowText} {payload : Json}

theorem senderText_isSome (hrow : row.TextSenders) (hread : Json.read true row.payload = some payload)
    {sender : Option Json} (hsender : ∀ value ∈ sender, value ∈ membersNamed senderName payload) :
    ∃ text, senderText sender = some text := by
  cases sender with
  | none => exact ⟨none, rfl⟩
  | some value =>
      rw [RowText.TextSenders, hread, Option.all_some, List.all_eq_true] at hrow
      have htext := hrow value (hsender value rfl)
      cases value with
      | null => exact ⟨none, rfl⟩
      | string text => exact ⟨some text, rfl⟩
      | bool | number | array | object => cases htext

theorem signal_text_inj {first second : Text} :
    (SendPath.signal first).text = (SendPath.signal second).text ↔ first = second := by
  rw [SendPath.text_injective.eq_iff, SendPath.signal.injEq]

/-- The keys of a Signal row. -/
theorem signal_keys_agree (hrow : row.TextSenders) (hchannel : row.channelType = "signal".toList)
    (hread : Json.read true row.payload = some payload) {key : Text}
    (hkey : row.itemKey = some key) : row.sqlKey = some key ↔ row.OnePath := by
  obtain ⟨last, hlast⟩ := senderText_isSome hrow hread fun value hvalue =>
    List.mem_of_getLast? hvalue
  obtain ⟨first, hfirst⟩ := senderText_isSome hrow hread fun value hvalue =>
    List.mem_of_head? hvalue
  have hitem : key = (SendPath.signal (strip (last.getD []))).text := by
    unfold RowText.itemKey at hkey
    rw [hchannel, hread] at hkey
    have hsignal : channelOf "signal".toList = some .signal := rfl
    rw [hsignal] at hkey
    dsimp only [Option.bind_eq_bind, Option.bind_some] at hkey
    split at hkey
    · cases hkey
    · rw [hlast] at hkey
      exact (Option.some.inj hkey).symm
  have hone : row.OnePath ↔ ∀ payload ∈ Json.read true row.payload, row.SameAccount payload :=
    ⟨fun h => h.account hchannel, fun h => ⟨fun _ => h⟩⟩
  unfold RowText.sqlKey
  rw [hone, if_pos hchannel, hitem]
  unfold RowText.SameAccount
  cases hstrict : Json.read false row.payload with
  | none =>
      simp only [sqlChannelKey, Option.getD_none, Option.some.injEq, signal_text_inj]
      constructor
      · intro h other hother
        rw [hread] at hother
        obtain rfl := Option.some.inj hother
        rw [accountText, hlast]
        exact h.symm
      · intro h
        have hblank := h payload hread
        rw [accountText, hlast] at hblank
        exact hblank.symm
  | some value =>
      obtain rfl : payload = value := by
        have hsame := Json.read_constants hstrict
        rw [hread] at hsame
        exact Option.some.inj hsame
      simp only [hfirst, Option.bind_eq_bind, Option.bind_some, sqlChannelKey, Option.some.injEq,
        signal_text_inj, trimBlanks_eq_strip_iff]
      constructor
      · intro h other hother
        rw [hread] at hother
        obtain rfl := Option.some.inj hother
        rw [accountText, accountText, hfirst, hlast]
        exact h
      · intro h
        have hsame := h payload hread
        rw [accountText, accountText, hfirst, hlast] at hsame
        exact hsame

/-- For a row that is read as an item, SQL computes the key of the item exactly when the row says
one path to both; a cooldown that is stored for a path then blocks exactly the rows of that path. -/
theorem path_keys_agree_iff (row : RowText) (key : Text) (hkey : row.itemKey = some key)
    (hrow : row.TextSenders) :
    (row.sqlKey = some key ↔ row.OnePath) ∧
      ((∀ stored, row.sqlKey = some stored ↔ row.itemKey = some stored) ↔ row.OnePath) := by
  have hagree : row.sqlKey = some key ↔ row.OnePath := by
    cases hread : Json.read true row.payload with
    | none =>
        simp [RowText.itemKey, hread] at hkey
    | some payload =>
        by_cases hchannel : row.channelType = "signal".toList
        · exact signal_keys_agree hrow hchannel hread hkey
        · have hone : row.OnePath := ⟨fun h => absurd h hchannel⟩
          refine iff_of_true ?_ hone
          unfold RowText.itemKey channelOf at hkey
          rw [if_neg hchannel] at hkey
          split at hkey
          next hemail =>
            rw [hread] at hkey
            dsimp only [Option.bind_eq_bind, Option.bind_some] at hkey
            split at hkey
            · cases hkey
            · rw [RowText.sqlKey, if_neg hchannel, hemail]
              exact hkey
          next => cases hkey
  refine ⟨hagree, ?_⟩
  rw [← hagree]
  constructor
  · intro h
    exact (h key).mpr hkey
  · intro h stored
    rw [h, hkey]

end

/-- Two rows of one account; in the second a tab follows it. -/
def plainRow : RowText := ⟨"signal".toList, "\x7b\"sender\": \" +49 \"\x7d".toList⟩

def tabRow : RowText := ⟨"signal".toList, "\x7b\"sender\": \"+49\\t\"\x7d".toList⟩

theorem path_keys_agree_iff_plainRow : plainRow.OnePath ∧
    ∀ stored, plainRow.sqlKey = some stored ↔ plainRow.itemKey = some stored := by
  have hrow : plainRow.TextSenders := by
    unfold RowText.TextSenders
    decide +kernel
  obtain ⟨hkey, hstored⟩ :=
    path_keys_agree_iff plainRow "signal:+49".toList (by decide +kernel) hrow
  have hone := hkey.mp (by decide +kernel)
  exact ⟨hone, hstored.mpr hone⟩

/-- The cooldown of the path does not block the row. -/
theorem path_keys_differ : tabRow.itemKey = some "signal:+49".toList ∧
    tabRow.sqlKey = some "signal:+49\t".toList ∧ tabRow.sqlKey ≠ tabRow.itemKey := by
  decide +kernel

end Justup.Spool
