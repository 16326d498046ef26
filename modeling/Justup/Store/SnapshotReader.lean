import Justup.Store.CompactCrash
import Justup.Store.Query

/-!
# Readers of opened files

A reader opens the segments and the active file of a series under the shared
lock and reads them afterwards without it, while writers append, prune and
compact.  A handle keeps the file it was opened on: appends to that file are
seen, a file that is renamed over it is not.
-/

namespace Justup.Store

open Justup.Lib

variable {V : Type*} (format : LineFormat V) (resolution : Resolution)

/-- `snapshot_tsdb` copies the active file up to the size noted at the open;
`_iter_series_lines` reads it to its end. -/
inductive ReaderKind where
  | copy
  | stream
  deriving DecidableEq, Repr

/-- A reader: what it has opened, the file its handle is on as it is now, what
it has read of it, and whether it has come to the end. -/
structure Reader where
  kind : ReaderKind
  snap : Snapshot
  held : Option File
  data : Text
  done : Bool
  deriving DecidableEq, Repr

/-- A system and a reader at work on its files. -/
structure World where
  sys : System
  reader : Option Reader
  deriving DecidableEq, Repr

inductive WorldAct (V : Type*) where
  | write (act : Act V)
  /-- `_open_snapshot`; a copy has no bounds. -/
  | openCopy (now : Int)
  | openStream (now : Int) (since until_ : Option Int)
  /-- `read` with a buffer of `size` characters. -/
  | read (size : Nat)

/-- The file of a handle after a step of the writers. -/
def follow (active : Option File) (held : File) : File :=
  match active with
  | none => held
  | some file => if file.ino = held.ino then file else held

/-- `_open_snapshot` as the first step of a reader; without an active file there
is nothing left to read. -/
def Reader.open_ (kind : ReaderKind) (snap : Snapshot) : Reader :=
  ⟨kind, snap, snap.active, [], snap.active.isNone⟩

/-- How much a `read` asks for: `_copy_exact` never wants more than the rest of
the noted size, and nothing when that is reached. -/
def Reader.wanted (reader : Reader) (opened : File) (size : Nat) : Nat :=
  match reader.kind with
  | .copy => min (opened.content.length - reader.data.length) size
  | .stream => size

/-- One `read` of the handle; the reader is done when it gets nothing. -/
def Reader.read (reader : Reader) (size : Nat) : Reader :=
  match reader.snap.active, reader.held with
  | some opened, some held =>
      let chunk := (held.content.drop reader.data.length).take (reader.wanted opened size)
      { reader with data := reader.data ++ chunk, done := chunk.isEmpty }
  | _, _ => reader

/-- One step of the writers or of the reader. -/
def World.step (world : World) : WorldAct V → Option World
  | .write act =>
      (Store.step format resolution world.sys act).map fun sys =>
        ⟨sys, world.reader.map fun reader =>
          { reader with held := reader.held.map (follow sys.series.active) }⟩
  | .openCopy now =>
      some { world with
        reader := some (.open_ .copy (openSnapshot resolution now none none world.sys.series)) }
  | .openStream now since until_ =>
      some { world with
        reader := some
          (.open_ .stream (openSnapshot resolution now since until_ world.sys.series)) }
  | .read size =>
      match world.reader with
      | none => none
      | some reader =>
          if reader.done || size == 0 then none
          else some { world with reader := some (reader.read size) }

/-- The lines that `_iter_series_lines` has yielded. -/
def Reader.lines (reader : Reader) : List Text :=
  reader.snap.segments.flatMap (fun entry => rawLines entry.2.content) ++ rawLines reader.data

/-- The series that `snapshot_tsdb` has written. -/
def Reader.copied (reader : Reader) : Series where
  segments := reader.snap.segments
  active := reader.snap.active.map fun file => { file with content := reader.data }
  stamp := 0

/-- What the writers among some steps do. -/
def writerActs (acts : List (WorldAct V)) : List (Act V) :=
  acts.filterMap fun act =>
    match act with
    | .write act => some act
    | _ => none

/-- No further reader is opened. -/
def NoOpen (acts : List (WorldAct V)) : Prop :=
  ∀ act ∈ acts, (∀ now, act ≠ .openCopy now) ∧ ∀ now since until_, act ≠ .openStream now since until_

section Facts

variable {format resolution}

/-! ## What a writer does to the active file -/

/-- The active file after a step is a new one, the old one, or the old one with
the record that was appended. -/
theorem active_step {sys next : System} {act : Act V}
    (hstep : Store.step format resolution sys act = some next) :
    ∀ file ∈ next.series.active, sys.series.stamp ≤ file.ino ∨
      ∃ old ∈ sys.series.active, old.ino = file.ino ∧
        (file.content = old.content ∨ ∃ ts value, act = .write (.append ts value) ∧
          file.content = old.content ++ recordLine format ts value) := by
  have hkept : next.series.active = sys.series.active → ∀ file ∈ next.series.active,
      sys.series.stamp ≤ file.ino ∨ ∃ old ∈ sys.series.active, old.ino = file.ino ∧
        (file.content = old.content ∨ ∃ ts value, act = .write (.append ts value) ∧
          file.content = old.content ++ recordLine format ts value) :=
    fun hsame file hfile => Or.inr ⟨file, hsame ▸ hfile, rfl, Or.inl rfl⟩
  rcases step_cases hstep with ⟨write, rfl, rfl⟩ | ⟨published, -, -, rfl⟩ | ⟨-, hadvance⟩
  · intro file hfile
    cases write with
    | append ts value =>
        obtain ⟨file', hfile', ⟨old, hold, heq⟩ | ⟨-, heq, -⟩⟩ :=
          active_append (recordLine format ts value) sys.series
        · rw [Option.some.inj (hfile.symm.trans hfile'), heq]
          exact Or.inr ⟨old, hold, rfl, Or.inr ⟨ts, value, rfl, rfl⟩⟩
        · rw [Option.some.inj (hfile.symm.trans hfile'), heq]
          exact Or.inl (le_refl _)
    | prune cutoff =>
        rcases active_pruneActive format cutoff sys.series with hsame | hnew
        · exact hkept hsame file hfile
        · exact Or.inl (hnew file hfile).1.ge
    | pruneSeries cutoff =>
        rcases active_pruneSeries format resolution cutoff sys.series with hsame | hnew
        · exact hkept hsame file hfile
        · exact Or.inl (hnew file hfile)
  · refine hkept ?_
    cases sys.attempt with
    | staged st plans remainder moved =>
        dsimp only [interrupted]
        split_ifs
        · exact active_foldl_publish _ _
        · rfl
    | _ => rfl
  · rcases advance_cases hadvance with ⟨_, -, -, hsame, -⟩ | ⟨-, -, hsame, -⟩ |
      ⟨st, plans, remainder, moved, -, -, -, rfl⟩
    · exact hkept (by rw [hsame])
    · exact hkept (by rw [hsame])
    · intro file hfile
      cases hfile
      exact Or.inl (stamp_le_foldl_publish plans sys.series)

/-! ## Whole lines -/

/-- Every step leaves whole lines in the active file. -/
theorem complete_step {sys next : System} {act : Act V}
    (hinv : SystemInv format resolution sys)
    (hcomplete : Lines.Complete '\n' sys.series.activeContent)
    (hstep : Store.step format resolution sys act = some next) :
    Lines.Complete '\n' next.series.activeContent := by
  rcases step_cases hstep with ⟨write, rfl, rfl⟩ | ⟨published, -, -, rfl⟩ | ⟨-, hadvance⟩
  · cases write with
    | append ts value =>
        rw [Write.apply, appendPoint, activeContent_append]
        exact hcomplete.append (isLine_recordLine format ts value).complete
    | prune cutoff => exact complete_pruneActive hcomplete cutoff
    | pruneSeries cutoff =>
        dsimp only [Write.apply, pruneSeries]
        split_ifs
        · have htrimmed : Lines.Complete '\n'
              (trimmed format resolution cutoff sys.series).activeContent := hcomplete
          exact complete_pruneActive htrimmed cutoff
        · exact hcomplete
  · cases sys.attempt with
    | staged st plans remainder moved =>
        dsimp only [interrupted]
        split_ifs
        · rw [activeContent_foldl_publish]
          exact hcomplete
        · exact hcomplete
    | _ => exact hcomplete
  · rcases advance_cases hadvance with ⟨_, -, -, hsame, -⟩ | ⟨-, -, hsame, -⟩ |
      ⟨st, plans, remainder, moved, -, hattempt, hmay, rfl⟩
    · rw [hsame]
      exact hcomplete
    · rw [hsame]
      exact hcomplete
    · obtain ⟨closed, hcommit⟩ := committable (hattempt ▸ hinv.attempt) hmay
      rw [hcommit.active] at hcomplete
      exact hcomplete.of_append

/-! ## The invariant of a reader -/

/-- What a reader has of the active file it has opened; `appended` are the lines
that have been appended to the series since. -/
structure Reading (format : LineFormat V) (opened : File) (appended : List Text)
    (series : Series) (reader : Reader) : Prop where
  held : ∃ file later, reader.held = some file ∧ file.ino = opened.ino ∧
    file.content = opened.content ++ later.flatten ∧ later.Sublist appended ∧
      (∀ active ∈ series.active, active.ino = opened.ino → active.content = file.content) ∧
        (reader.kind = .stream → reader.data <+: file.content ∧
          (reader.done = true → ∃ seen, seen <+: later ∧
            reader.data = opened.content ++ seen.flatten))
  ino : opened.ino < series.stamp
  copy : reader.kind = .copy → reader.data <+: opened.content ∧
    (reader.done = true → reader.data = opened.content)

theorem Reading.write {opened : File} {appended : List Text} {sys next : System}
    {reader : Reader} (hreading : Reading format opened appended sys.series reader)
    {act : Act V} (hstamp : sys.series.stamp ≤ next.series.stamp)
    (hstep : Store.step format resolution sys act = some next) :
    Reading format opened (appended ++ appendedLines format [act]) next.series
      { reader with held := reader.held.map (follow next.series.active) } where
  held := by
    obtain ⟨file, later, hheld, hino, hcontent, hlater, hactive, hstream⟩ := hreading.held
    have hmore : later.Sublist (appended ++ appendedLines format [act]) :=
      hlater.trans (List.sublist_append_left _ _)
    -- the handle stays on its file unless the active file is this file
    have hstay : (∀ active ∈ next.series.active, active.ino ≠ opened.ino) →
        follow next.series.active file = file := by
      intro hother
      unfold follow
      cases hnext : next.series.active with
      | none => rfl
      | some active => exact if_neg (hino ▸ hother active hnext)
    by_cases hsame : ∃ active ∈ next.series.active, active.ino = opened.ino
    · obtain ⟨active, hnext, hactiveIno⟩ := hsame
      have hfollow : follow next.series.active file = active := by
        unfold follow
        rw [Option.mem_def.mp hnext]
        exact if_pos (hactiveIno.trans hino.symm)
      rcases active_step hstep active hnext with hnew | ⟨old, hold, holdIno, hchange⟩
      · have hlt := hreading.ino
        omega
      · have holdContent := hactive old hold (holdIno.trans hactiveIno)
        rcases hchange with hkept | ⟨ts, value, rfl, hgrown⟩
        · refine ⟨active, later, by simp [hheld, hfollow], hactiveIno, by rw [hkept, holdContent,
            hcontent], hmore, fun other hother _ => ?_, fun hkind => ?_⟩
          · rw [Option.some.inj (hnext.symm.trans hother)]
          · rw [hkept, holdContent]
            exact hstream hkind
        · refine ⟨active, later ++ [recordLine format ts value], by simp [hheld, hfollow],
            hactiveIno, ?_, hlater.append (List.Sublist.refl _), fun other hother _ => ?_,
            fun hkind => ?_⟩
          · rw [hgrown, holdContent, hcontent]
            simp
          · rw [Option.some.inj (hnext.symm.trans hother)]
          · obtain ⟨hbegins, hdone⟩ := hstream hkind
            refine ⟨?_, fun hend => ?_⟩
            · rw [hgrown, holdContent]
              exact hbegins.trans (List.prefix_append _ _)
            · obtain ⟨seen, hseen, hdata⟩ := hdone hend
              exact ⟨seen, hseen.trans (List.prefix_append _ _), hdata⟩
    · have hother : ∀ active ∈ next.series.active, active.ino ≠ opened.ino :=
        fun active hnext heq => hsame ⟨active, hnext, heq⟩
      refine ⟨file, later, by simp [hheld, hstay hother], hino, hcontent, hmore,
        fun active hnext heq => absurd heq (hother active hnext), hstream⟩
  ino := hreading.ino.trans_le hstamp
  copy := hreading.copy

/-- Reading on from the end of a beginning gives a longer beginning. -/
theorem append_take_drop_isPrefix {data content : Text} (hbegins : data <+: content) (n : Nat) :
    data ++ (content.drop data.length).take n <+: content := by
  obtain ⟨rest, rfl⟩ := hbegins
  rw [List.drop_left]
  exact (List.prefix_append_right_inj data).mpr <| List.take_prefix n rest

/-- Nothing is read at the end only. -/
theorem eq_of_take_drop_nil {data content : Text} (hbegins : data <+: content) {n : Nat}
    (hn : 0 < n) (hnil : (content.drop data.length).take n = []) : data = content := by
  obtain ⟨rest, rfl⟩ := hbegins
  rw [List.drop_left, List.take_eq_nil_iff] at hnil
  rcases hnil with hzero | hnil
  · omega
  · rw [hnil, List.append_nil]

theorem Reader.read_eq {reader : Reader} {opened held : File}
    (hopened : reader.snap.active = some opened) (hheld : reader.held = some held) (size : Nat) :
    reader.read size =
      { reader with
        data := reader.data ++
          (held.content.drop reader.data.length).take (reader.wanted opened size)
        done := ((held.content.drop reader.data.length).take
          (reader.wanted opened size)).isEmpty } := by
  rw [Reader.read, hopened, hheld]

theorem Reading.read {opened : File} {appended : List Text} {series : Series}
    {reader : Reader} (hreading : Reading format opened appended series reader)
    (hopened : reader.snap.active = some opened) {size : Nat} (hsize : 0 < size) :
    Reading format opened appended series (reader.read size) := by
  obtain ⟨file, later, hheld, hino, hcontent, hlater, hactive, hstream⟩ := hreading.held
  rw [Reader.read_eq hopened hheld]
  refine ⟨⟨file, later, hheld, hino, hcontent, hlater, hactive, fun hkind => ?_⟩, hreading.ino,
    fun hkind => ?_⟩
  · obtain ⟨hbegins, -⟩ := hstream hkind
    have hkind : reader.kind = .stream := hkind
    have hwanted : reader.wanted opened size = size := by rw [Reader.wanted, hkind]
    simp only [hwanted]
    refine ⟨append_take_drop_isPrefix hbegins _, fun hdone => ⟨later, List.prefix_rfl, ?_⟩⟩
    have hnil : (file.content.drop reader.data.length).take size = [] := List.isEmpty_iff.mp hdone
    rw [hnil, List.append_nil, eq_of_take_drop_nil hbegins hsize hnil, hcontent]
  · obtain ⟨hbegins, -⟩ := hreading.copy hkind
    have hkind : reader.kind = .copy := hkind
    have hwanted : reader.wanted opened size =
        min (opened.content.length - reader.data.length) size := by rw [Reader.wanted, hkind]
    -- what is wanted lies in the part that was there at the open
    have hchunk : (file.content.drop reader.data.length).take (reader.wanted opened size) =
        (opened.content.drop reader.data.length).take (reader.wanted opened size) := by
      rw [hcontent, List.drop_append_of_le_length hbegins.length_le,
        List.take_append_of_le_length]
      rw [List.length_drop, hwanted]
      exact min_le_left _ _
    simp only [hchunk]
    refine ⟨append_take_drop_isPrefix hbegins _, fun hdone => ?_⟩
    have hnil := List.isEmpty_iff.mp hdone
    rw [hnil, List.append_nil]
    rcases Nat.eq_zero_or_pos (opened.content.length - reader.data.length) with hzero | hpos
    · exact hbegins.eq_of_length_le (Nat.le_of_sub_eq_zero hzero)
    · exact eq_of_take_drop_nil hbegins (hwanted ▸ Nat.lt_min.mpr ⟨hpos, hsize⟩) hnil

/-! ## Runs -/

/-- A reader among the writers, since its open. -/
structure ReaderInv (format : LineFormat V) (resolution : Resolution) (kind : ReaderKind)
    (snap : Snapshot) (appended : List Text) (world : World) : Prop where
  system : SystemInv format resolution world.sys
  reader : ∃ reader, world.reader = some reader ∧ reader.kind = kind ∧ reader.snap = snap ∧
    (snap.active = none → reader.data = []) ∧
      ∀ opened ∈ snap.active, Reading format opened appended world.sys.series reader

theorem stamp_le_step {sys next : System} {act : Act V}
    (hinv : SystemInv format resolution sys)
    (hstep : Store.step format resolution sys act = some next) :
    sys.series.stamp ≤ next.series.stamp := by
  rcases step_cases hstep with ⟨write, -, rfl⟩ | ⟨published, -, -, rfl⟩ | ⟨-, hadvance⟩
  · exact (Write.disturbed hinv.wf write).stamp
  · cases sys.attempt with
    | staged st plans remainder moved =>
        dsimp only [interrupted]
        split_ifs
        · exact stamp_le_foldl_publish _ _
        · exact le_refl _
    | _ => exact le_refl _
  · rcases advance_cases hadvance with ⟨_, -, -, hsame, -⟩ | ⟨-, -, hsame, -⟩ |
      ⟨st, plans, remainder, moved, -, -, -, rfl⟩
    · rw [hsame]
    · rw [hsame]
    · exact (stamp_le_foldl_publish plans sys.series).trans (Nat.le_succ _)

theorem reader_step {kind : ReaderKind} {snap : Snapshot} {appended : List Text}
    {world next : World} {act : WorldAct V}
    (hinv : ReaderInv format resolution kind snap appended world)
    (hcopy : ∀ now, act ≠ .openCopy now)
    (hstream : ∀ now since until_, act ≠ .openStream now since until_)
    (hstep : world.step format resolution act = some next) :
    ReaderInv format resolution kind snap
      (appended ++ appendedLines format (writerActs [act])) next := by
  obtain ⟨hsystem, reader, hreader, hkind, hsnap, hnone, hreading⟩ := hinv
  cases act with
  | write act =>
      rw [World.step, Option.map_eq_some_iff] at hstep
      obtain ⟨sys, hsys, rfl⟩ := hstep
      refine ⟨step_inv hsystem hsys,
        { reader with held := reader.held.map (follow sys.series.active) },
        by rw [hreader]; rfl, hkind, hsnap, hnone, fun opened hopened => ?_⟩
      exact (hreading opened hopened).write (stamp_le_step hsystem hsys) hsys
  | openCopy now => exact absurd rfl (hcopy now)
  | openStream now since until_ => exact absurd rfl (hstream now since until_)
  | read size =>
      have hnothing : appendedLines format (writerActs [(WorldAct.read size : WorldAct V)]) = [] :=
        rfl
      rw [hnothing, List.append_nil]
      simp only [World.step, hreader] at hstep
      split_ifs at hstep with hstop
      cases hstep
      have hsize : 0 < size := by
        simp only [Bool.or_eq_true, beq_iff_eq, not_or] at hstop
        omega
      have hkept : (reader.read size).kind = reader.kind ∧
          (reader.read size).snap = reader.snap := by
        unfold Reader.read
        split <;> exact ⟨rfl, rfl⟩
      refine ⟨hsystem, _, rfl, hkept.1.trans hkind, hkept.2.trans hsnap, fun hactive => ?_,
        fun opened hopened => ?_⟩
      · rw [Reader.read, hsnap, hactive]
        exact hnone hactive
      · exact (hreading opened hopened).read (hsnap ▸ hopened) hsize

theorem isLine_appendedLines {acts : List (Act V)} {line : Text}
    (hline : line ∈ appendedLines format acts) : Lines.IsLine '\n' line := by
  obtain ⟨act, -, hact⟩ := List.mem_filterMap.mp hline
  split at hact
  · cases hact
    exact isLine_recordLine format _ _
  · cases hact

theorem ReaderInv.run {kind : ReaderKind} {snap : Snapshot} {appended : List Text}
    {world final : World} {after : List (WorldAct V)}
    (hinv : ReaderInv format resolution kind snap appended world) (hafter : NoOpen after)
    (hrun : Transition.run (World.step format resolution) world after = some final) :
    ReaderInv format resolution kind snap
      (appended ++ appendedLines format (writerActs after)) final := by
  induction after generalizing world appended with
  | nil =>
      cases hrun
      have hnothing : appendedLines format (writerActs ([] : List (WorldAct V))) = [] := rfl
      rw [hnothing, List.append_nil]
      exact hinv
  | cons act rest ih =>
      obtain ⟨next, hstep, hrest⟩ := Transition.run_cons hrun
      obtain ⟨hcopy, hstream⟩ := hafter act (by simp)
      have hnext := ih (reader_step hinv hcopy hstream hstep)
        (fun other hother => hafter other (by simp [hother])) hrest
      have hsplit : appendedLines format (writerActs (act :: rest)) =
          appendedLines format (writerActs [act]) ++ appendedLines format (writerActs rest) := by
        rw [← List.singleton_append, writerActs, List.filterMap_append, appendedLines,
          List.filterMap_append]
        rfl
      rw [hsplit, ← List.append_assoc]
      exact hnext

/-- A step of the world is a step of its writers or leaves the series alone. -/
theorem world_step_cases {world next : World} {act : WorldAct V}
    (hstep : world.step format resolution act = some next) :
    (∃ write, Store.step format resolution world.sys write = some next.sys) ∨
      next.sys = world.sys := by
  cases act with
  | write write =>
      rw [World.step, Option.map_eq_some_iff] at hstep
      obtain ⟨sys, hsys, rfl⟩ := hstep
      exact Or.inl ⟨write, hsys⟩
  | openCopy now => cases hstep; exact Or.inr rfl
  | openStream now since until_ => cases hstep; exact Or.inr rfl
  | read size =>
      cases hreader : world.reader with
      | none => simp [World.step, hreader] at hstep
      | some reader =>
          simp only [World.step, hreader] at hstep
          split_ifs at hstep
          cases hstep
          exact Or.inr rfl

theorem systemInv_world_step {world next : World} {act : WorldAct V}
    (hinv : SystemInv format resolution world.sys)
    (hstep : world.step format resolution act = some next) :
    SystemInv format resolution next.sys := by
  rcases world_step_cases hstep with ⟨write, hsys⟩ | hsame
  · exact step_inv hinv hsys
  · exact hsame ▸ hinv

theorem complete_world_step {world next : World} {act : WorldAct V}
    (hinv : SystemInv format resolution world.sys ∧
      Lines.Complete '\n' world.sys.series.activeContent)
    (hstep : world.step format resolution act = some next) :
    SystemInv format resolution next.sys ∧
      Lines.Complete '\n' next.sys.series.activeContent := by
  refine ⟨systemInv_world_step hinv.1 hstep, ?_⟩
  rcases world_step_cases hstep with ⟨write, hsys⟩ | hsame
  · exact complete_step hinv.1 hinv.2 hsys
  · exact hsame ▸ hinv.2

/-- A reader that has just been opened. -/
theorem ReaderInv.open_ {world : World} (kind : ReaderKind) (snap : Snapshot)
    (hinv : SystemInv format resolution world.sys) (hactive : snap.active = world.sys.series.active) :
    ReaderInv format resolution kind snap []
      { world with reader := some (.open_ kind snap) } where
  system := hinv
  reader := by
    refine ⟨.open_ kind snap, rfl, rfl, rfl, fun _ => rfl, fun opened hopened => ?_⟩
    have hnotDone : (Reader.open_ kind snap).done = false := by
      rw [Reader.open_, Option.mem_def.mp hopened]
      rfl
    refine ⟨⟨opened, [], hopened, rfl, by simp, List.Sublist.refl _, fun active hsame _ => ?_,
      fun _ => .intro List.nil_prefix fun hdone => ?_⟩, ?_,
      fun _ => .intro List.nil_prefix fun hdone => ?_⟩
    · rw [← hactive] at hsame
      rw [Option.some.inj (hsame.symm.trans hopened)]
    · simp [hnotDone] at hdone
    · exact hinv.wf.ino_lt opened (hactive ▸ hopened)
    · simp [hnotDone] at hdone

/-- What a reader has in the end, when it was opened in some state of the series
and writers went on while it was reading.  A copy is the state at the open.  A
stream has the content at the open and after it lines that were appended later
to the file it has open; when the active file consists of whole lines, it yields
the lines of the state at the open and these. -/
theorem snapshot_is_consistent (s : PeriodSeries format resolution)
    (before after : List (WorldAct V)) (world final : World) (reader : Reader)
    (hbefore : Transition.run (World.step format resolution) ⟨System.start s.val, none⟩ before =
      some world)
    (hafter : NoOpen after) (hreader : final.reader = some reader) (hdone : reader.done = true) :
    (∀ now, Transition.run (World.step format resolution) world (.openCopy now :: after) =
        some final →
      reader.copied.segments = world.sys.series.segments ∧
        reader.copied.active = world.sys.series.active ∧
        records format reader.copied = records format world.sys.series ∧
        (Lines.Complete '\n' s.val.activeContent →
          Lines.Complete '\n' reader.copied.activeContent)) ∧
    ∀ now since until_,
      Transition.run (World.step format resolution) world (.openStream now since until_ :: after) =
        some final →
      ∃ later, later.Sublist (appendedLines format (writerActs after)) ∧
        (∀ opened ∈ world.sys.series.active, ∃ file ∈ reader.held, file.ino = opened.ino ∧
          reader.data = opened.content ++ later.flatten ∧ reader.data <+: file.content) ∧
        (Lines.Complete '\n' s.val.activeContent →
          reader.lines = iterSeriesLines resolution now since until_ world.sys.series ++ later) := by
  have hstart : SystemInv format resolution (System.start s.val) := start_inv s.property
  have hsystem : SystemInv format resolution world.sys :=
    @Transition.run_invariant _ _ _ (fun world : World => SystemInv format resolution world.sys)
      (fun hinv hstep => systemInv_world_step hinv hstep) _ _ _ hstart hbefore
  have hwhole : Lines.Complete '\n' s.val.activeContent →
      Lines.Complete '\n' world.sys.series.activeContent := fun hcomplete =>
    (Transition.run_invariant (fun hinv hstep => complete_world_step hinv hstep)
      ⟨hstart, hcomplete⟩ hbefore).2
  refine ⟨fun now hrun => ?_, fun now since until_ hrun => ?_⟩
  · obtain ⟨next, hopen, hrest⟩ := Transition.run_cons hrun
    cases hopen
    obtain ⟨-, reader', hreader', hkind, hsnap, -, hreading⟩ :=
      (ReaderInv.open_ .copy (openSnapshot resolution now none none world.sys.series) hsystem
        rfl).run
        hafter hrest
    cases Option.some.inj (hreader.symm.trans hreader')
    have hsegments : reader.copied.segments = world.sys.series.segments := by
      simp [Reader.copied, hsnap, openSnapshot, overlaps]
    have hactive : reader.copied.active = world.sys.series.active := by
      simp only [Reader.copied, hsnap, openSnapshot]
      cases hopened : world.sys.series.active with
      | none => rfl
      | some opened =>
          have hdata := ((hreading opened hopened).copy hkind).2 hdone
          rw [Option.map_some, hdata]
    have hcontent : reader.copied.activeContent = world.sys.series.activeContent := by
      rw [Series.activeContent, Series.activeContent, hactive]
    exact ⟨hsegments, hactive, by rw [records, records, hsegments, hcontent],
      fun hcomplete => hcontent ▸ hwhole hcomplete⟩
  · obtain ⟨next, hopen, hrest⟩ := Transition.run_cons hrun
    cases hopen
    obtain ⟨-, reader', hreader', hkind, hsnap, hnone, hreading⟩ :=
      (ReaderInv.open_ .stream (openSnapshot resolution now since until_ world.sys.series) hsystem
        rfl).run
        hafter hrest
    cases Option.some.inj (hreader.symm.trans hreader')
    cases hopened : world.sys.series.active with
    | none =>
        have hdata : reader.data = [] := hnone hopened
        refine ⟨[], List.nil_sublist _, by simp, fun _ => ?_⟩
        simp [Reader.lines, iterSeriesLines, hsnap, hdata, openSnapshot, hopened, rawLines]
    | some opened =>
        obtain ⟨file, later, hheld, hino, hcontent, hlater, -, hstream⟩ :=
          (hreading opened hopened).held
        obtain ⟨hbegins, hend⟩ := hstream hkind
        obtain ⟨seen, hseen, hdata⟩ := hend hdone
        refine ⟨seen, hseen.sublist.trans hlater, fun other hother => ?_, fun hcomplete => ?_⟩
        · cases hother
          exact ⟨file, hheld, hino, hdata, hbegins⟩
        · have hlines : ∀ line ∈ seen, Lines.IsLine '\n' line := fun line hline =>
            isLine_appendedLines (hlater.subset (hseen.subset hline))
          have hopenedWhole : Lines.Complete '\n' opened.content := by
            have hactive := hwhole hcomplete
            rwa [Series.activeContent, hopened] at hactive
          simp only [Reader.lines, iterSeriesLines, hsnap, openSnapshot, hopened, hdata, rawLines]
          rw [Lines.rawLines_append hopenedWhole, Lines.rawLines_flatten_of_lines hlines,
            List.append_assoc]

end Facts

/-- Two appends, an open, a third append, the commit of a compaction, an append
to the file it leaves, and the reads. -/
theorem snapshot_is_consistent_over_commit :
    ∃ world final reader,
      Transition.run (World.step JsonLine.format .raw) ⟨System.start Series.empty, none⟩
        [.write (.write (.append 0 1)), .write (.write (.append 90000000000 2))] = some world ∧
      Transition.run (World.step JsonLine.format .raw) world
        [.openStream 172800000000 none none, .read 7, .write (.write (.append 172800000000 3)),
          .write (.stat 172800000000), .write .scan, .write .plan, .write .stage, .write .commit,
          .write (.write (.append 172900000000 4)), .read 8192, .read 8192] = some final ∧
      final.reader = some reader ∧ reader.done = true ∧ final.sys.outcome = some (.moved 2) ∧
      ∃ later, later.Sublist [recordLine JsonLine.format 172800000000 3,
          recordLine JsonLine.format 172900000000 4] ∧
        reader.lines = [recordLine JsonLine.format 0 1,
          recordLine JsonLine.format 90000000000 2] ++ later := by
  have hany : (Transition.run (World.step JsonLine.format .raw) ⟨System.start Series.empty, none⟩
      [.write (.write (.append 0 1)), .write (.write (.append 90000000000 2))]).any
        (fun world => decide (iterSeriesLines .raw 172800000000 none none world.sys.series =
            [recordLine JsonLine.format 0 1, recordLine JsonLine.format 90000000000 2]) &&
          (Transition.run (World.step JsonLine.format .raw) world
            [.openStream 172800000000 none none, .read 7,
              .write (.write (.append 172800000000 3)), .write (.stat 172800000000),
              .write .scan, .write .plan, .write .stage, .write .commit,
              .write (.write (.append 172900000000 4)), .read 8192, .read 8192]).any
            fun final => final.reader.any (fun reader => reader.done) &&
              decide (final.sys.outcome = some (.moved 2))) = true := by decide +kernel
  obtain ⟨world, hbefore, hworld⟩ := (Option.any_eq_true ..).mp hany
  rw [Bool.and_eq_true, decide_eq_true_eq] at hworld
  obtain ⟨hlines, hworld⟩ := hworld
  obtain ⟨final, hrun, hfinal⟩ := (Option.any_eq_true ..).mp hworld
  rw [Bool.and_eq_true, decide_eq_true_eq] at hfinal
  obtain ⟨reader, hreader, hdone⟩ := (Option.any_eq_true ..).mp hfinal.1
  have hafter : NoOpen ([.read 7, .write (.write (.append 172800000000 3)),
      .write (.stat 172800000000), .write .scan, .write .plan, .write .stage, .write .commit,
      .write (.write (.append 172900000000 4)), .read 8192, .read 8192] :
        List (WorldAct (Fin 10))) := by
    intro act hact
    simp only [List.mem_cons, List.not_mem_nil, or_false] at hact
    rcases hact with h | h | h | h | h | h | h | h | h | h <;> subst h <;> simp
  obtain ⟨-, hstream⟩ := snapshot_is_consistent ⟨Series.empty, wf_empty⟩ _ _ world final reader
    hbefore hafter hreader hdone
  obtain ⟨later, hlater, -, hall⟩ := hstream _ _ _ hrun
  refine ⟨world, final, reader, hbefore, hrun, hreader, hdone, hfinal.2, later, hlater, ?_⟩
  rw [hall Lines.complete_nil, hlines]

end Justup.Store
