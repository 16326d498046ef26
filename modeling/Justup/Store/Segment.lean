import Justup.Store.Series

/-!
# Segment files

What is read from a segment and how a new one is written and verified.
-/

namespace Justup.Store

open Justup.Lib

variable {V : Type*} (format : LineFormat V)

/-- `segment_info`: the number of valid lines and the newest timestamp. -/
def segmentInfo (content : Text) : Nat × Option Int :=
  let stamps := (rawLines content).filterMap (lineTs format)
  (stamps.length, stamps.max?)

/-- `first_ts`: the timestamp of the first valid record. -/
def firstTs (content : Text) : Option Int :=
  ((rawLines content).filterMap (lineTs format)).head?

/-- `write_member`: each line with one line end. -/
def writeMember (lines : List Text) : Text :=
  (lines.map fun line => Lines.chomp '\n' line ++ ['\n']).flatten

/-- `verify_segment`, of a file that was just written and has no damage. -/
def verifySegment (content : Text) (expected : Nat) (newest : Option Int) : Bool :=
  (segmentInfo format content).1 == expected && (segmentInfo format content).2 == newest

section Facts

variable {format}

theorem isLine_chomp {text line : Text} (hmem : line ∈ rawLines text) :
    Lines.IsLine '\n' (Lines.chomp '\n' line ++ ['\n']) := by
  rcases (Lines.mem_rawLines hmem).2 with hline | hnot
  · rw [Lines.chomp_snoc hline]
    exact hline
  · have hbegins : Lines.chomp '\n' line <+: line := List.rdropWhile_prefix _ _
    exact ⟨_, fun hmem => hnot (hbegins.subset hmem), rfl⟩

/-- Taking off the line end does not change what a line says. -/
@[simp]
theorem lineTs_chomp_snoc {text line : Text} (hmem : line ∈ rawLines text) :
    lineTs format (Lines.chomp '\n' line ++ ['\n']) = lineTs format line := by
  rcases (Lines.mem_rawLines hmem).2 with hline | hnot
  · rw [Lines.chomp_snoc hline]
  · rw [Lines.chomp_of_notMem hnot, lineTs_snoc_newline]

theorem writeMember_of_lines {lines : List Text}
    (hlines : ∀ line ∈ lines, Lines.IsLine '\n' line) : writeMember lines = lines.flatten := by
  rw [writeMember, List.map_congr_left fun line hline => Lines.chomp_snoc (hlines line hline),
    List.map_id']

theorem complete_writeMember (lines : List Text) : Lines.Complete '\n' (writeMember lines) := by
  induction lines with
  | nil => exact Lines.complete_nil
  | cons line rest ih => exact (Lines.complete_snoc _).append ih

end Facts

end Justup.Store
