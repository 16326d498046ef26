import Justup.Store.CompactScan

/-!
# What a replacement segment holds

Whichever branch `_plan_segment` takes, the replacement holds the records of the
old segment and the scanned records of the period, and nothing else.  It is in
order when its records have different timestamps.
-/

namespace Justup.Store

open Justup.Lib

variable {V : Type*} {format : LineFormat V} {resolution : Resolution}

/-! ## Chunks -/

/-- The chunk of some stamped lines. -/
def chunkOf (items : List (Text × Int)) : Chunk :=
  items.foldl (fun chunk item => chunk.add item.1 item.2) .empty

theorem text_foldl_add (items : List (Text × Int)) (chunk : Chunk)
    (hlines : ∀ item ∈ items, Lines.IsLine '\n' item.1) :
    (items.foldl (fun chunk item => chunk.add item.1 item.2) chunk).text =
      chunk.text ++ (items.map Prod.fst).flatten := by
  induction items generalizing chunk with
  | nil => simp
  | cons item rest ih =>
      rw [List.foldl_cons, ih _ fun other hother => hlines other (by simp [hother])]
      have hitem : Lines.chomp '\n' item.1 ++ ['\n'] = item.1 :=
        Lines.chomp_snoc (hlines item (by simp))
      simp only [Chunk.add, hitem, List.map_cons, List.flatten_cons, List.append_assoc]

theorem text_chunkOf {items : List (Text × Int)}
    (hlines : ∀ item ∈ items, Lines.IsLine '\n' item.1) :
    (chunkOf items).text = (items.map Prod.fst).flatten := by
  rw [chunkOf, text_foldl_add items .empty hlines]
  rfl

/-- `first` is not newer than any line of the chunk. -/
theorem first_foldl_add_le (items : List (Text × Int)) (chunk : Chunk) {first : Int}
    (hfirst : (items.foldl (fun chunk item => chunk.add item.1 item.2) chunk).first = some first) :
    (∀ old ∈ chunk.first, first ≤ old) ∧ ∀ item ∈ items, first ≤ item.2 := by
  induction items generalizing chunk with
  | nil =>
      refine ⟨fun old hold => ?_, by simp⟩
      rw [List.foldl_nil] at hfirst
      rw [Option.mem_def, hfirst] at hold
      exact (Option.some.inj hold).le
  | cons item rest ih =>
      obtain ⟨hchunk, hrest⟩ := ih _ hfirst
      cases hold : chunk.first with
      | none =>
          have hadd : (chunk.add item.1 item.2).first = some item.2 := by simp [Chunk.add, hold]
          refine ⟨by simp, fun other hother => ?_⟩
          rcases List.mem_cons.mp hother with rfl | hother
          · exact hchunk _ hadd
          · exact hrest other hother
      | some old =>
          have hadd : (chunk.add item.1 item.2).first = some (min item.2 old) := by
            simp only [Chunk.add, hold]
            split_ifs with hlt
            · rw [min_eq_left hlt.le]
            · rw [min_eq_right (not_lt.mp hlt)]
          have hle := hchunk _ hadd
          refine ⟨fun other hother => ?_, fun other hother => ?_⟩
          · cases hother
            exact hle.trans (min_le_right _ _)
          · rcases List.mem_cons.mp hother with rfl | hother
            · exact hle.trans (min_le_left _ _)
            · exact hrest other hother

/-- The chunk that the scan leaves for a period. -/
theorem get?_fillChunks (resolution : Resolution) (items : List (Text × Int)) (key : PeriodKey) :
    Dict.get? key (fillChunks resolution items []) =
      if items.filter (fun item => key = periodKey resolution item.2) = [] then none
      else some (chunkOf (items.filter fun item => key = periodKey resolution item.2)) :=
  Dict.get?_fill_getD (fun item : Text × Int => periodKey resolution item.2) Chunk.empty
    (fun chunk item => chunk.add item.1 item.2) items key

/-- The lines of a period among the stamped lines. -/
theorem map_fst_filter_stamped (key : PeriodKey) (lines : List Text) :
    ((stamped format lines).filter fun item => key = periodKey resolution item.2).map Prod.fst =
      periodLines format resolution key lines := by
  induction lines with
  | nil => rfl
  | cons line rest ih =>
      rw [stamped, periodLines] at *
      cases hts : lineTs format line with
      | none => simpa [hts] using ih
      | some ts =>
          by_cases hkey : key = periodKey resolution ts
          · simpa [hts, hkey] using ih
          · simpa [hts, hkey] using ih

/-! ## The merge -/

/-- Any two of the lines with one timestamp are the same line. -/
def OneLinePerStamp (format : LineFormat V) (lines : List Text) : Prop :=
  ∀ first ∈ lines, ∀ second ∈ lines, ∀ ts,
    lineTs format first = some ts → lineTs format second = some ts → first = second

theorem Increasing.oneLinePerStamp {lines : List Text} (hlines : Increasing format lines) :
    OneLinePerStamp format lines := by
  intro first hfirst second hsecond ts hts hts'
  by_contra hne
  rcases Increasing.before_or_before hlines hfirst hsecond hne with
    ⟨s, hs, t, ht, hlt⟩ | ⟨s, hs, t, ht, hlt⟩
  · rw [Option.mem_def, hts] at hs
    rw [Option.mem_def, hts'] at ht
    cases hs
    cases ht
    exact lt_irrefl _ hlt
  · rw [Option.mem_def, hts'] at hs
    rw [Option.mem_def, hts] at ht
    cases hs
    cases ht
    exact lt_irrefl _ hlt

theorem OneLinePerStamp.subset {few many : List Text} (hmany : OneLinePerStamp format many)
    (hsub : ∀ line ∈ few, line ∈ many) : OneLinePerStamp format few :=
  fun first hfirst second hsecond =>
    hmany first (hsub first hfirst) second (hsub second hsecond)

theorem mem_addDistinct {bucket : List Text} {text other : Text} :
    other ∈ addDistinct bucket text ↔ other ∈ bucket ∨ other = text := by
  unfold addDistinct
  split_ifs with hmem
  · constructor
    · exact Or.inl
    · rintro (hother | rfl)
      · exact hother
      · exact hmem
  · simp

theorem nodup_addDistinct {bucket : List Text} (hbucket : bucket.Nodup) (text : Text) :
    (addDistinct bucket text).Nodup := by
  unfold addDistinct
  split_ifs with hmem
  · exact hbucket
  · exact List.nodup_append.mpr ⟨hbucket, List.nodup_singleton text, by
      rintro other hother _ hlast rfl
      exact hmem (List.mem_singleton.mp hlast ▸ hother)⟩

theorem mem_foldl_addDistinct (items : List (Int × Text)) (bucket : List Text) {text : Text} :
    text ∈ items.foldl (fun bucket item => addDistinct bucket item.2) bucket ↔
      text ∈ bucket ∨ ∃ item ∈ items, text = item.2 := by
  induction items generalizing bucket with
  | nil => simp
  | cons item rest ih =>
      rw [List.foldl_cons, ih, mem_addDistinct]
      simp [or_assoc]

theorem nodup_foldl_addDistinct (items : List (Int × Text)) {bucket : List Text}
    (hbucket : bucket.Nodup) :
    (items.foldl (fun bucket item => addDistinct bucket item.2) bucket).Nodup := by
  induction items generalizing bucket with
  | nil => exact hbucket
  | cons item rest ih => exact ih (nodup_addDistinct hbucket item.2)

/-- The valid lines by timestamp, without their line ends. -/
def stampItems (format : LineFormat V) (lines : List Text) : List (Int × Text) :=
  lines.filterMap fun line => (lineTs format line).map fun ts => (ts, Lines.chomp '\n' line)

theorem mem_stampItems {lines : List Text} {item : Int × Text} :
    item ∈ stampItems format lines ↔
      ∃ line ∈ lines, lineTs format line = some item.1 ∧ item.2 = Lines.chomp '\n' line := by
  obtain ⟨ts, text⟩ := item
  simp only [stampItems, List.mem_filterMap, Option.map_eq_some_iff, Prod.mk.injEq]
  constructor
  · rintro ⟨line, hline, ts', hts, rfl, rfl⟩
    exact ⟨line, hline, hts, rfl⟩
  · rintro ⟨line, hline, hts, htext⟩
    exact ⟨line, hline, ts, hts, rfl, htext.symm⟩

theorem ordered_mergeByStamp (lines : List Text) :
    Dict.Ordered (mergeByStamp format lines) :=
  Dict.Ordered.fill _ Dict.ordered_nil

/-- The bucket of a timestamp holds its different texts. -/
theorem bucket_mergeByStamp {lines : List Text} {entry : Int × List Text}
    (hentry : entry ∈ mergeByStamp format lines) :
    entry.2.Nodup ∧ ∀ text, text ∈ entry.2 ↔
      ∃ line ∈ lines, lineTs format line = some entry.1 ∧ text = Lines.chomp '\n' line := by
  have hget : Dict.get? entry.1 (mergeByStamp format lines) = some entry.2 :=
    Dict.get?_of_mem (ordered_mergeByStamp lines) hentry
  rw [mergeByStamp, ← stampItems, Dict.get?_fill_getD Prod.fst []
    (fun bucket item => addDistinct bucket item.2)] at hget
  split_ifs at hget
  rw [← Option.some.inj hget]
  refine ⟨nodup_foldl_addDistinct _ List.nodup_nil, fun text => ?_⟩
  rw [mem_foldl_addDistinct]
  constructor
  · rintro (hnil | ⟨item, hitem, rfl⟩)
    · simp at hnil
    · obtain ⟨hmem, hts⟩ := List.mem_filter.mp hitem
      obtain ⟨line, hline, hstamp, htext⟩ := mem_stampItems.mp hmem
      exact ⟨line, hline, by rw [hstamp, of_decide_eq_true hts], htext⟩
  · rintro ⟨line, hline, hts, rfl⟩
    refine Or.inr ⟨(entry.1, Lines.chomp '\n' line), List.mem_filter.mpr ⟨?_, by simp⟩, rfl⟩
    exact mem_stampItems.mpr ⟨line, hline, hts, rfl⟩

/-- The merge keeps every text, and only texts of valid lines. -/
theorem mem_texts_mergeByStamp {lines : List Text} {text : Text} :
    text ∈ (mergeByStamp format lines).flatMap Prod.snd ↔
      ∃ line ∈ lines, (lineTs format line).isSome ∧ text = Lines.chomp '\n' line := by
  rw [List.mem_flatMap]
  constructor
  · rintro ⟨entry, hentry, htext⟩
    obtain ⟨line, hline, hts, htext⟩ := ((bucket_mergeByStamp hentry).2 text).mp htext
    exact ⟨line, hline, by rw [hts]; rfl, htext⟩
  · rintro ⟨line, hline, hsome, htext⟩
    obtain ⟨ts, hts⟩ := Option.isSome_iff_exists.mp hsome
    have hitem : (ts, text) ∈ stampItems format lines :=
      mem_stampItems.mpr ⟨line, hline, hts, htext⟩
    have hitems : (stampItems format lines).filter (fun item => ts = item.1) ≠ [] :=
      List.ne_nil_of_mem (List.mem_filter.mpr ⟨hitem, by simp⟩)
    have hget := Dict.get?_fill_getD Prod.fst []
      (fun bucket item => addDistinct bucket item.2) (stampItems format lines) ts
    rw [if_neg hitems] at hget
    have hentry := Dict.mem_of_get? hget
    exact ⟨_, hentry, ((bucket_mergeByStamp hentry).2 text).mpr ⟨line, hline, hts, htext⟩⟩

/-- With one line for each timestamp the merge is in strict order. -/
theorem pairwise_texts_mergeByStamp (format : LineFormat V) {lines : List Text}
    (hone : OneLinePerStamp format (lines.filter fun line => (lineTs format line).isSome))
    (hread : ∀ line ∈ lines, lineTs format (Lines.chomp '\n' line) = lineTs format line) :
    ((mergeByStamp format lines).flatMap Prod.snd).Pairwise (LineBefore format) := by
  rw [List.pairwise_flatMap]
  constructor
  · intro entry hentry
    obtain ⟨hnodup, hmem⟩ := bucket_mergeByStamp hentry
    refine hnodup.pairwise_of_forall_ne fun first hfirst second hsecond hne => ?_
    obtain ⟨line, hline, hts, rfl⟩ := (hmem first).mp hfirst
    obtain ⟨line', hline', hts', rfl⟩ := (hmem second).mp hsecond
    have heq : line = line' := hone line (by simp [hline, hts]) line' (by simp [hline', hts'])
      entry.1 hts hts'
    exact absurd (by rw [heq]) hne
  · refine (ordered_mergeByStamp lines).imp_of_mem fun {entry other} hentry hother hlt => ?_
    intro first hfirst second hsecond
    obtain ⟨line, hline, hts, rfl⟩ := ((bucket_mergeByStamp hentry).2 first).mp hfirst
    obtain ⟨line', hline', hts', rfl⟩ := ((bucket_mergeByStamp hother).2 second).mp hsecond
    exact ⟨entry.1, by rw [hread line hline]; exact hts, other.1,
      by rw [hread line' hline']; exact hts', hlt⟩

/-! ## The replacement -/

/-- A plan replaces the segment `old` of its period, adding the lines of the
period among `closed`. -/
structure Replaces (format : LineFormat V) (resolution : Resolution) (closed : List Text)
    (old : Option Segment) (plan : Plan) : Prop where
  sig : plan.expectedSig = old.map Segment.sig
  complete : Lines.Complete '\n' plan.final
  mem : ∀ line, line ∈ validLines format plan.final ↔
    (∃ segment ∈ old, line ∈ validLines format segment.content) ∨
      line ∈ periodLines format resolution plan.key closed
  valid : (∀ segment ∈ old, ∀ line ∈ rawLines segment.content, (lineTs format line).isSome) →
    ∀ line ∈ rawLines plan.final, (lineTs format line).isSome
  increasing : (∀ segment ∈ old, Increasing format (validLines format segment.content)) →
    Increasing format (periodLines format resolution plan.key closed) →
    OneLinePerStamp format (validLines format plan.final) →
    Increasing format (validLines format plan.final)

/-- The chunk that the scan of `closed` leaves for a period. -/
def periodChunk (format : LineFormat V) (resolution : Resolution) (closed : List Text)
    (key : PeriodKey) : Chunk :=
  chunkOf ((stamped format closed).filter fun item => key = periodKey resolution item.2)

theorem text_periodChunk {closed : List Text}
    (hclosed : ∀ line ∈ closed, Lines.IsLine '\n' line) (key : PeriodKey) :
    (periodChunk format resolution closed key).text =
      (periodLines format resolution key closed).flatten := by
  rw [periodChunk, text_chunkOf, map_fst_filter_stamped]
  intro item hitem
  exact hclosed item.1 (mem_stamped.mp (List.mem_filter.mp hitem).1).1

theorem rawLines_periodChunk {closed : List Text}
    (hclosed : ∀ line ∈ closed, Lines.IsLine '\n' line) (key : PeriodKey) :
    rawLines (periodChunk format resolution closed key).text =
      periodLines format resolution key closed := by
  rw [text_periodChunk hclosed, rawLines, Lines.rawLines_flatten_of_lines]
  exact fun line hline => hclosed line (mem_periodLines.mp hline).1

theorem validLines_periodChunk {closed : List Text}
    (hclosed : ∀ line ∈ closed, Lines.IsLine '\n' line) (key : PeriodKey) :
    validLines format (periodChunk format resolution closed key).text =
      periodLines format resolution key closed := by
  rw [validLines, rawLines_periodChunk hclosed]
  refine List.filter_eq_self.mpr fun line hline => ?_
  obtain ⟨-, ts, hts, -⟩ := mem_periodLines.mp hline
  rw [Option.mem_def.mp hts]
  rfl

theorem valid_of_mem_periodChunk {closed : List Text}
    (hclosed : ∀ line ∈ closed, Lines.IsLine '\n' line) {key : PeriodKey} {line : Text}
    (hline : line ∈ rawLines (periodChunk format resolution closed key).text) :
    (lineTs format line).isSome := by
  rw [rawLines_periodChunk hclosed] at hline
  obtain ⟨-, ts, hts, -⟩ := mem_periodLines.mp hline
  rw [Option.mem_def.mp hts]
  rfl

theorem complete_periodChunk {closed : List Text}
    (hclosed : ∀ line ∈ closed, Lines.IsLine '\n' line) (key : PeriodKey) :
    Lines.Complete '\n' (periodChunk format resolution closed key).text := by
  rw [text_periodChunk hclosed]
  exact Lines.complete_flatten fun line hline => hclosed line (mem_periodLines.mp hline).1

theorem first_periodChunk_le {closed : List Text} {key : PeriodKey} {first : Int}
    (hfirst : (periodChunk format resolution closed key).first = some first) {line : Text}
    {ts : Int} (hline : line ∈ periodLines format resolution key closed)
    (hts : lineTs format line = some ts) : first ≤ ts := by
  obtain ⟨hmem, ts', hts', hkey⟩ := mem_periodLines.mp hline
  refine (first_foldl_add_le _ _ hfirst).2 (line, ts) (List.mem_filter.mpr ⟨?_, ?_⟩)
  · exact mem_stamped.mpr ⟨hmem, hts⟩
  · rw [Option.mem_def, hts] at hts'
    cases hts'
    exact decide_eq_true hkey

/-- The newest timestamp of a segment. -/
theorem le_newest {content line : Text} {ts newest : Int}
    (hnewest : (segmentInfo format content).2 = some newest)
    (hline : line ∈ validLines format content) (hts : lineTs format line = some ts) :
    ts ≤ newest :=
  (List.max?_eq_some_iff.mp hnewest).2 ts
    (List.mem_filterMap.mpr ⟨line, (mem_validLines.mp hline).1, hts⟩)

/-- A first copy of the chunk. -/
theorem replaces_none {closed : List Text}
    (hclosed : ∀ line ∈ closed, Lines.IsLine '\n' line) (key : PeriodKey) :
    Replaces format resolution closed none
      ⟨key, (periodChunk format resolution closed key).text, none⟩ where
  sig := rfl
  complete := complete_periodChunk hclosed key
  mem := by
    intro line
    rw [validLines_periodChunk hclosed]
    simp
  valid := fun _ line hline => valid_of_mem_periodChunk hclosed hline
  increasing := by
    intro _ hperiod _
    rw [validLines_periodChunk hclosed]
    exact hperiod

/-- One more member behind the old ones: its records are newer. -/
theorem replaces_cat {closed : List Text}
    (hclosed : ∀ line ∈ closed, Lines.IsLine '\n' line) {key : PeriodKey} {segment : Segment}
    (hsegment : Lines.Complete '\n' segment.content)
    (hnewer : (segmentInfo format segment.content).2.all (fun newest =>
      (periodChunk format resolution closed key).first.any
        fun first => decide (newest < first)) = true) :
    Replaces format resolution closed (some segment)
      ⟨key, segment.content ++ (periodChunk format resolution closed key).text,
        some segment.sig⟩ where
  sig := rfl
  complete := hsegment.append (complete_periodChunk hclosed key)
  mem := by
    intro line
    rw [validLines_append hsegment, validLines_periodChunk hclosed]
    simp
  valid := by
    intro hold line hline
    rw [rawLines, Lines.rawLines_append hsegment] at hline
    rcases List.mem_append.mp hline with hline | hline
    · exact hold segment rfl line hline
    · exact valid_of_mem_periodChunk hclosed hline
  increasing := by
    intro hold hperiod _
    rw [validLines_append hsegment, validLines_periodChunk hclosed]
    refine List.pairwise_append.mpr ⟨hold segment rfl, hperiod, ?_⟩
    intro line hline other hother
    obtain ⟨ts, hts⟩ := Option.isSome_iff_exists.mp (mem_validLines.mp hline).2
    obtain ⟨-, ts', hts', -⟩ := mem_periodLines.mp hother
    refine ⟨ts, hts, ts', hts', ?_⟩
    cases hnewest : (segmentInfo format segment.content).2 with
    | none =>
        have hnil := List.max?_eq_none_iff.mp hnewest
        have hmem : ts ∈ (rawLines segment.content).filterMap (lineTs format) :=
          List.mem_filterMap.mpr ⟨line, (mem_validLines.mp hline).1, hts⟩
        rw [hnil] at hmem
        simp at hmem
    | some newest =>
        cases hfirst : (periodChunk format resolution closed key).first with
        | none => simp [hnewest, hfirst] at hnewer
        | some first =>
            have hlt : newest < first := by simpa [hnewest, hfirst] using hnewer
            have hle := le_newest hnewest hline hts
            have hge := first_periodChunk_le hfirst hother hts'
            omega

theorem lineTs_chomp {line : Text} (hline : Lines.IsLine '\n' line) :
    lineTs format (Lines.chomp '\n' line) = lineTs format line := by
  rw [← lineTs_snoc_newline, Lines.chomp_snoc hline]

/-- The file that the merge of some lines writes. -/
theorem rawLines_merge {lines : List Text} (hlines : ∀ line ∈ lines, Lines.IsLine '\n' line) :
    rawLines (writeMember ((mergeByStamp format lines).flatMap Prod.snd)) =
      ((mergeByStamp format lines).flatMap Prod.snd).map fun text => text ++ ['\n'] := by
  have hwrite : ∀ text ∈ (mergeByStamp format lines).flatMap Prod.snd,
      Lines.IsLine '\n' (text ++ ['\n']) ∧ Lines.chomp '\n' text = text := by
    intro text htext
    obtain ⟨line, hline, -, rfl⟩ := mem_texts_mergeByStamp.mp htext
    rw [Lines.chomp_snoc (hlines line hline)]
    exact ⟨hlines line hline, List.rdropWhile_idempotent _ _⟩
  rw [writeMember, List.map_congr_left fun text htext => by rw [(hwrite text htext).2]]
  refine Lines.rawLines_flatten_of_lines fun line hline => ?_
  obtain ⟨text, htext, rfl⟩ := List.mem_map.mp hline
  exact (hwrite text htext).1

theorem mem_validLines_merge {lines : List Text}
    (hlines : ∀ line ∈ lines, Lines.IsLine '\n' line) {line : Text} :
    line ∈ validLines format
        (writeMember ((mergeByStamp format lines).flatMap Prod.snd)) ↔
      line ∈ lines ∧ (lineTs format line).isSome := by
  rw [mem_validLines, rawLines_merge hlines, List.mem_map]
  constructor
  · rintro ⟨⟨text, htext, rfl⟩, hsome⟩
    obtain ⟨line, hline, -, rfl⟩ := mem_texts_mergeByStamp.mp htext
    rw [Lines.chomp_snoc (hlines line hline)] at hsome ⊢
    exact ⟨hline, hsome⟩
  · rintro ⟨hline, hsome⟩
    refine ⟨⟨Lines.chomp '\n' line, ?_, Lines.chomp_snoc (hlines line hline)⟩, hsome⟩
    exact mem_texts_mergeByStamp.mpr ⟨line, hline, hsome, rfl⟩

/-- The merge by timestamp. -/
theorem replaces_merge {closed : List Text}
    (hclosed : ∀ line ∈ closed, Lines.IsLine '\n' line) (key : PeriodKey) {segment : Segment}
    (hsegment : Lines.Complete '\n' segment.content) :
    Replaces format resolution closed (some segment)
      ⟨key, writeMember ((mergeByStamp format (rawLines segment.content ++
        rawLines (periodChunk format resolution closed key).text)).flatMap Prod.snd),
        some segment.sig⟩ := by
  rw [rawLines_periodChunk hclosed]
  have hlines : ∀ line ∈ rawLines segment.content ++ periodLines format resolution key closed,
      Lines.IsLine '\n' line := by
    intro line hline
    rcases List.mem_append.mp hline with hline | hline
    · exact Lines.isLine_of_mem_rawLines hsegment hline
    · exact hclosed line (mem_periodLines.mp hline).1
  refine ⟨rfl, complete_writeMember _, fun line => ?_, fun _ line hline => ?_, fun _ _ hone => ?_⟩
  · rw [mem_validLines_merge hlines, List.mem_append]
    constructor
    · rintro ⟨hline | hline, hsome⟩
      · exact Or.inl ⟨segment, rfl, mem_validLines.mpr ⟨hline, hsome⟩⟩
      · exact Or.inr hline
    · rintro (⟨_, ⟨rfl⟩, hline⟩ | hline)
      · exact ⟨Or.inl (mem_validLines.mp hline).1, (mem_validLines.mp hline).2⟩
      · obtain ⟨-, ts, hts, -⟩ := mem_periodLines.mp hline
        exact ⟨Or.inr hline, by rw [Option.mem_def.mp hts]; rfl⟩
  · rw [rawLines_merge hlines, List.mem_map] at hline
    obtain ⟨text, htext, rfl⟩ := hline
    obtain ⟨line, hline, hsome, rfl⟩ := mem_texts_mergeByStamp.mp htext
    rw [lineTs_snoc_newline, lineTs_chomp (hlines line hline)]
    exact hsome
  · refine List.Pairwise.filter _ ?_
    rw [rawLines_merge hlines, List.pairwise_map]
    have hpairwise := pairwise_texts_mergeByStamp format
      (hone.subset fun line hline => by
        obtain ⟨hmem, hsome⟩ := List.mem_filter.mp hline
        exact (mem_validLines_merge hlines).mpr ⟨hmem, hsome⟩)
      (fun line hline => lineTs_chomp (hlines line hline))
    refine hpairwise.imp fun {first second} hbefore => ?_
    unfold LineBefore
    rw [lineTs_snoc_newline, lineTs_snoc_newline]
    exact hbefore

/-- What `_plan_segment` builds. -/
theorem planSegment_spec {segments : List (PeriodKey × Segment)} {closed : List Text}
    (hclosed : ∀ line ∈ closed, Lines.IsLine '\n' line) {key : PeriodKey}
    (hold : ∀ segment ∈ Dict.get? key segments, Lines.Complete '\n' segment.content)
    {plan : Plan}
    (hplan : planSegment format segments key (periodChunk format resolution closed key) =
      some plan) :
    plan.key = key ∧
      Replaces format resolution closed (Dict.get? key segments) plan := by
  unfold planSegment at hplan
  cases hget : Dict.get? key segments with
  | none =>
      simp only [hget] at hplan
      split_ifs at hplan
      cases hplan
      exact ⟨rfl, replaces_none hclosed key⟩
  | some segment =>
      have hsegment := hold segment hget
      simp only [hget] at hplan
      split_ifs at hplan with hcat hverify hverify
      · cases hplan
        simp only [Bool.and_eq_true] at hcat
        exact ⟨rfl, replaces_cat hclosed hsegment hcat.2⟩
      · cases hplan
        exact ⟨rfl, replaces_merge hclosed key hsegment⟩

end Justup.Store
