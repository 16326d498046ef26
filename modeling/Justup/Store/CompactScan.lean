import Justup.Store.Compact

/-!
# What the scan consumes

The scan consumes a prefix of complete closed lines, and the chunk of a period
holds the valid lines of that period in their order.
-/

namespace Justup.Store

open Justup.Lib

variable {V : Type*} {format : LineFormat V} {resolution : Resolution}

/-- The valid lines with their timestamps. -/
def stamped (format : LineFormat V) (lines : List Text) : List (Text × Int) :=
  lines.filterMap fun line => (lineTs format line).map fun ts => (line, ts)

/-- A complete line older than `hotStart`, if it is a record at all. -/
def Closed (format : LineFormat V) (hotStart : Int) (line : Text) : Prop :=
  Lines.IsLine '\n' line ∧ ∀ ts ∈ lineTs format line, ts < hotStart

/-- The valid lines of one period. -/
def periodLines (format : LineFormat V) (resolution : Resolution) (key : PeriodKey)
    (lines : List Text) : List Text :=
  lines.filter fun line => (lineTs format line).any fun ts => key = periodKey resolution ts

/-- Put stamped lines into the chunks of their periods. -/
def fillChunks (resolution : Resolution) (items : List (Text × Int))
    (chunks : List (PeriodKey × Chunk)) : List (PeriodKey × Chunk) :=
  Dict.fill (fun item : Text × Int => periodKey resolution item.2)
    (fun chunk item => (chunk.getD .empty).add item.1 item.2) items chunks

theorem mem_stamped {lines : List Text} {item : Text × Int} :
    item ∈ stamped format lines ↔ item.1 ∈ lines ∧ lineTs format item.1 = some item.2 := by
  obtain ⟨line, ts⟩ := item
  simp only [stamped, List.mem_filterMap, Option.map_eq_some_iff, Prod.mk.injEq]
  constructor
  · rintro ⟨line', hmem, ts', hts, rfl, rfl⟩
    exact ⟨hmem, hts⟩
  · rintro ⟨hmem, hts⟩
    exact ⟨line, hmem, ts, hts, rfl, rfl⟩

theorem stamped_append (first second : List Text) :
    stamped format (first ++ second) = stamped format first ++ stamped format second :=
  List.filterMap_append

theorem fillChunks_append (first second : List (Text × Int))
    (chunks : List (PeriodKey × Chunk)) :
    fillChunks resolution (first ++ second) chunks =
      fillChunks resolution second (fillChunks resolution first chunks) :=
  List.foldl_append

theorem mem_periodLines {key : PeriodKey} {lines : List Text} {line : Text} :
    line ∈ periodLines format resolution key lines ↔
      line ∈ lines ∧ ∃ ts ∈ lineTs format line, key = periodKey resolution ts := by
  simp [periodLines, Option.any_eq_true]

/-! ## The loop -/

/-- The loop goes through closed lines that lie below the scanned size. -/
theorem scanLines_append (resolution : Resolution) {hotStart : Int} (size : Nat)
    (lines rest : List Text) (consumed : Nat) (chunks : List (PeriodKey × Chunk))
    (hclosed : ∀ line ∈ lines, Closed format hotStart line)
    (hsize : consumed + lines.flatten.length ≤ size) :
    scanLines format resolution hotStart size (lines ++ rest) consumed chunks =
      scanLines format resolution hotStart size rest (consumed + lines.flatten.length)
        (fillChunks resolution (stamped format lines) chunks) := by
  induction lines generalizing consumed chunks with
  | nil => rfl
  | cons raw lines ih =>
      obtain ⟨⟨body, hbody, hraw⟩, hts⟩ := hclosed raw (by simp)
      rw [List.flatten_cons, List.length_append] at hsize
      have hgo : ¬ (size < consumed + raw.length ∨ raw.getLast? ≠ some '\n') := by
        rw [hraw] at hsize ⊢
        simp only [List.getLast?_append, List.getLast?_singleton, Option.some_or, ne_eq,
          not_true_eq_false, or_false, not_lt]
        omega
      rw [List.cons_append, scanLines, if_neg hgo]
      have hrest := ih (consumed + raw.length)
      cases hcase : lineTs format raw with
      | none =>
          have hskip : stamped format (raw :: lines) = stamped format lines := by
            simp [stamped, hcase]
          simp only [hskip]
          rw [hrest chunks (fun line hline => hclosed line (by simp [hline])) (by omega),
            List.flatten_cons, List.length_append, Nat.add_assoc]
      | some ts =>
          have hcons : stamped format (raw :: lines) = (raw, ts) :: stamped format lines := by
            simp [stamped, hcase]
          have hlt : ¬ hotStart ≤ ts := not_le.mpr (hts ts hcase)
          simp only [hcons, if_neg hlt]
          rw [hrest _ (fun line hline => hclosed line (by simp [hline])) (by omega),
            List.flatten_cons, List.length_append, Nat.add_assoc]
          rfl

/-- The scan of a list of lines consumes some prefix of closed lines. -/
theorem scanLines_spec (format : LineFormat V) (resolution : Resolution) (hotStart : Int)
    {size : Nat} (lines : List Text)
    (hlines : ∀ line ∈ lines, line.getLast? = some '\n' → Lines.IsLine '\n' line)
    (consumed : Nat) (chunks : List (PeriodKey × Chunk)) (hsize : consumed ≤ size) :
    ∃ closed rest, lines = closed ++ rest ∧
      (∀ line ∈ closed, Closed format hotStart line) ∧
      consumed + closed.flatten.length ≤ size ∧
      scanLines format resolution hotStart size lines consumed chunks =
        (consumed + closed.flatten.length,
          fillChunks resolution (stamped format closed) chunks) := by
  induction lines generalizing consumed chunks with
  | nil => exact ⟨[], [], rfl, by simp, by simpa using hsize, rfl⟩
  | cons raw lines ih =>
      by_cases hstop : size < consumed + raw.length ∨ raw.getLast? ≠ some '\n'
      · refine ⟨[], raw :: lines, rfl, by simp, by simpa using hsize, ?_⟩
        rw [scanLines, if_pos hstop]
        rfl
      · have hline : Lines.IsLine '\n' raw := by
          simp only [not_or, not_not] at hstop
          exact hlines raw (by simp) hstop.2
        by_cases hhot : ∃ ts ∈ lineTs format raw, hotStart ≤ ts
        · obtain ⟨ts, hts, hle⟩ := hhot
          refine ⟨[], raw :: lines, rfl, by simp, by simpa using hsize, ?_⟩
          rw [Option.mem_def] at hts
          simp only [scanLines, if_neg hstop, hts, if_pos hle]
          rfl
        · have hclosed : Closed format hotStart raw :=
            ⟨hline, fun ts hts => not_le.mp fun hle => hhot ⟨ts, hts, hle⟩⟩
          have hone := scanLines_append resolution size [raw] lines
            consumed chunks (by simpa using hclosed)
            (by simp only [not_or, not_lt] at hstop; simpa using hstop.1)
          simp only [List.singleton_append, List.flatten_singleton] at hone
          obtain ⟨closed, rest, hsplit, hall, hbound, hscan⟩ :=
            ih (fun line hmem => hlines line (by simp [hmem])) (consumed + raw.length)
              (fillChunks resolution (stamped format [raw]) chunks)
              (by simp only [not_or, not_lt] at hstop; exact hstop.1)
          refine ⟨raw :: closed, rest, by rw [hsplit, List.cons_append], ?_, ?_, ?_⟩
          · intro line hmem
            rcases List.mem_cons.mp hmem with rfl | hmem
            · exact hclosed
            · exact hall line hmem
          · rw [List.flatten_cons, List.length_append]
            omega
          · rw [hone, hscan, List.flatten_cons, List.length_append, ← Nat.add_assoc,
              ← fillChunks_append, ← stamped_append, List.singleton_append]

/-- What `_scan_closed_prefix` finds: a prefix of closed lines below the scanned
size, which contains every other such prefix. -/
theorem scanClosedPrefix_spec (format : LineFormat V) (resolution : Resolution) (hotStart : Int) (size : Nat) (content : Text) :
    ∃ closed rest, rawLines content = closed ++ rest ∧
      (∀ line ∈ closed, Closed format hotStart line) ∧
      closed.flatten.length ≤ size ∧
      (∀ lines more, rawLines content = lines ++ more →
        (∀ line ∈ lines, Closed format hotStart line) → lines.flatten.length ≤ size →
        lines <+: closed) ∧
      scanClosedPrefix format resolution hotStart size content =
        (closed.flatten.length, fillChunks resolution (stamped format closed) []) := by
  obtain ⟨closed, rest, hsplit, hclosed, hbound, hscan⟩ :=
    scanLines_spec format resolution hotStart (rawLines content)
      (fun line hmem hend => Lines.isLine_of_getLast hmem hend) 0 []
      (Nat.zero_le size)
  rw [Nat.zero_add] at hbound hscan
  refine ⟨closed, rest, hsplit, hclosed, hbound, ?_, hscan⟩
  intro lines more hlines hall hsize
  have hmore : ∀ line ∈ more, line.getLast? = some '\n' → Lines.IsLine '\n' line :=
    fun line hmem hend => Lines.isLine_of_getLast
      (hlines ▸ List.mem_append_right lines hmem) hend
  obtain ⟨next, -, -, -, -, hnext⟩ :=
    scanLines_spec format resolution hotStart more hmore lines.flatten.length
      (fillChunks resolution (stamped format lines) []) hsize
  have hthrough := scanLines_append resolution size lines more 0 [] hall
    (by omega)
  rw [Nat.zero_add, ← hlines, hscan, hnext] at hthrough
  have hlength := congrArg Prod.fst hthrough
  simp only at hlength
  have hfirst : lines <+: rawLines content := ⟨more, hlines.symm⟩
  have hsecond : closed <+: rawLines content := ⟨rest, hsplit.symm⟩
  rcases List.prefix_or_prefix_of_prefix hfirst hsecond with hle | ⟨extra, hextra⟩
  · exact hle
  · cases extra with
    | nil => exact ⟨[], by simpa using hextra.symm⟩
    | cons line extra =>
        -- a further line would have been consumed as well
        obtain ⟨⟨body, -, hline⟩, -⟩ := hall line (by simp [← hextra])
        rw [← hextra, hline] at hlength
        simp only [List.flatten_append, List.flatten_cons, List.length_append,
          List.length_singleton] at hlength
        omega

end Justup.Store
