import Justup.Lib.Dict
import Justup.Lib.Increasing
import Justup.Store.Calendar
import Justup.Store.Line

/-!
# A series on disk

The newest data of a series lives in its active file, closed days in period
segments.  A file that replaces another one gets a new inode, and a segment
that replaces another one a new signature (size and modification time); both
are numbers taken from one counter, so that no number is used twice.
-/

namespace Justup.Store

open Justup.Lib

/-- The active file of a series. -/
structure File where
  ino : Nat
  content : Text
  deriving DecidableEq, Repr

/-- One version of a segment file.  `content` is what it decompresses to, for a
damaged segment up to the damage. -/
structure Segment where
  content : Text
  damaged : Bool
  sig : Nat
  deriving DecidableEq, Repr

/-- The files of one series; `list_segments` lists the oldest period first. -/
structure Series where
  segments : List (PeriodKey × Segment)
  active : Option File
  stamp : Nat
  deriving DecidableEq, Repr

namespace Series

/-- What the active file holds. -/
def activeContent (s : Series) : Text :=
  match s.active with
  | none => []
  | some file => file.content

/-- A series without files. -/
def empty : Series := ⟨[], none, 0⟩

end Series

/-- The lines of a file, as Python iterates over them. -/
abbrev rawLines (content : Text) : List Text := Lines.rawLines '\n' content

variable {V : Type*} (format : LineFormat V) (resolution : Resolution)

/-- The lines of a file that are valid records. -/
def validLines (content : Text) : List Text :=
  (rawLines content).filter fun line => (lineTs format line).isSome

/-- The valid records of a series, segments oldest first, then active file. -/
def records (s : Series) : List Text :=
  s.segments.flatMap (fun entry => validLines format entry.2.content) ++
    validLines format s.activeContent

/-- One record is older than another. -/
def LineBefore (first second : Text) : Prop :=
  ∃ s ∈ lineTs format first, ∃ t ∈ lineTs format second, s < t

instance (first second : Text) : Decidable (LineBefore format first second) :=
  decidable_of_iff
    ((lineTs format first).any fun s => (lineTs format second).any fun t => decide (s < t))
    (by simp [LineBefore, Option.any_eq_true])

/-- The timestamps of a list of records increase strictly. -/
def Increasing (lines : List Text) : Prop := lines.Pairwise (LineBefore format)

instance (lines : List Text) : Decidable (Increasing format lines) :=
  inferInstanceAs (Decidable (lines.Pairwise (LineBefore format)))

/-- What every series on disk has: one segment for each period, which holds
complete lines only, all of them records of that period, and numbers not yet
used for new files. -/
structure Series.WF (s : Series) : Prop where
  ordered : Dict.Ordered s.segments
  complete : ∀ entry ∈ s.segments, Lines.Complete '\n' entry.2.content
  valid : ∀ entry ∈ s.segments, ∀ line ∈ rawLines entry.2.content,
    (lineTs format line).isSome
  placed : ∀ entry ∈ s.segments, ∀ line ∈ rawLines entry.2.content,
    ∀ ts ∈ lineTs format line, periodKey resolution ts = entry.1
  sig_lt : ∀ entry ∈ s.segments, entry.2.sig < s.stamp
  ino_lt : ∀ file ∈ s.active, file.ino < s.stamp

/-- A well-formed series of a resolution. -/
abbrev PeriodSeries : Type := { s : Series // s.WF format resolution }

/-! ## Appending -/

/-- Write at the end of the active file, which is created if there is none. -/
def Series.append (text : Text) (s : Series) : Series :=
  match s.active with
  | none => { s with active := some ⟨s.stamp, text⟩, stamp := s.stamp + 1 }
  | some file => { s with active := some { file with content := file.content ++ text } }

/-- The write of `append_point`, under the exclusive lock. -/
def appendPoint (ts : Int) (value : V) (s : Series) : Series :=
  s.append (recordLine format ts value)

/-! ## First facts -/

section Facts

variable {format resolution}

theorem lineBefore_asymm (first second : Text) (hbefore : LineBefore format first second) :
    ¬ LineBefore format second first := by
  rintro ⟨t, ht, s, hs, hlt⟩
  obtain ⟨s', hs', t', ht', hlt'⟩ := hbefore
  rw [Option.mem_def] at *
  have hs'' : s = s' := Option.some.inj (hs.symm.trans hs')
  have ht'' : t = t' := Option.some.inj (ht.symm.trans ht')
  omega

theorem lineBefore_trans {first second third : Text} (h : LineBefore format first second)
    (h' : LineBefore format second third) : LineBefore format first third := by
  obtain ⟨s, hs, t, ht, hlt⟩ := h
  obtain ⟨t', ht', u, hu, hlt'⟩ := h'
  have heq : t = t' := Option.some.inj (ht.symm.trans ht')
  exact ⟨s, hs, u, hu, by omega⟩

@[simp]
theorem validLines_nil : validLines format [] = [] := rfl

theorem mem_validLines {content line : Text} :
    line ∈ validLines format content ↔
      line ∈ rawLines content ∧ (lineTs format line).isSome := by
  simp [validLines]

theorem validLines_append {first : Text} (hfirst : Lines.Complete '\n' first)
    (second : Text) :
    validLines format (first ++ second) =
      validLines format first ++ validLines format second := by
  simp [validLines, Lines.rawLines_append hfirst]

theorem validLines_flatten {lines : List Text}
    (hlines : ∀ line ∈ lines, Lines.IsLine '\n' line) :
    validLines format lines.flatten = lines.filter fun line => (lineTs format line).isSome := by
  rw [validLines, rawLines, Lines.rawLines_flatten_of_lines hlines]

@[simp]
theorem validLines_recordLine (ts : Int) (value : V) :
    validLines format (recordLine format ts value) = [recordLine format ts value] := by
  rw [validLines, rawLines, Lines.rawLines_line (isLine_recordLine format ts value)]
  simp

theorem mem_records {s : Series} {line : Text} :
    line ∈ records format s ↔
      (∃ entry ∈ s.segments, line ∈ validLines format entry.2.content) ∨
        line ∈ validLines format s.activeContent := by
  simp [records, List.mem_flatMap]

theorem wf_empty : Series.empty.WF format resolution where
  ordered := Dict.ordered_nil
  complete := by simp [Series.empty]
  valid := by simp [Series.empty]
  placed := by simp [Series.empty]
  sig_lt := by simp [Series.empty]
  ino_lt := by simp [Series.empty]

@[simp]
theorem segments_append (text : Text) (s : Series) :
    (s.append text).segments = s.segments := by
  unfold Series.append
  cases s.active <;> rfl

@[simp]
theorem activeContent_append (text : Text) (s : Series) :
    (s.append text).activeContent = s.activeContent ++ text := by
  unfold Series.append Series.activeContent
  cases s.active <;> rfl

theorem stamp_le_append (text : Text) (s : Series) : s.stamp ≤ (s.append text).stamp := by
  unfold Series.append
  cases s.active <;> simp

/-- The active file after an append is the old one, longer, or a new one. -/
theorem active_append (text : Text) (s : Series) :
    ∃ file, (s.append text).active = some file ∧
      ((∃ old ∈ s.active, file = { old with content := old.content ++ text }) ∨
        s.active = none ∧ file = ⟨s.stamp, text⟩ ∧ s.stamp < (s.append text).stamp) := by
  unfold Series.append
  cases hactive : s.active with
  | none => exact ⟨_, rfl, Or.inr ⟨rfl, rfl, by simp⟩⟩
  | some file => exact ⟨_, rfl, Or.inl ⟨file, rfl, rfl⟩⟩

theorem Series.WF.append {s : Series} (hwf : s.WF format resolution) (text : Text) :
    (s.append text).WF format resolution where
  ordered := by simpa using hwf.ordered
  complete := by simpa using hwf.complete
  valid := by simpa using hwf.valid
  placed := by simpa using hwf.placed
  sig_lt := by
    intro entry hentry
    exact (hwf.sig_lt entry (by simpa using hentry)).trans_le (stamp_le_append text s)
  ino_lt := by
    obtain ⟨file, hfile, ⟨old, hold, rfl⟩ | ⟨-, rfl, hstamp⟩⟩ := active_append text s
    · intro file' hfile'
      rw [hfile, Option.mem_some_iff] at hfile'
      subst hfile'
      exact (hwf.ino_lt old hold).trans_le (stamp_le_append text s)
    · intro file' hfile'
      rw [hfile, Option.mem_some_iff] at hfile'
      subst hfile'
      exact hstamp

end Facts

end Justup.Store
