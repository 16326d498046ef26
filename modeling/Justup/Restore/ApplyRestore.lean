import Mathlib

/-!
# The directory swap of a restore

`apply_restore`: every planned directory is moved to a rollback directory and
the extracted one is renamed into its place; when a rename fails the planned
directories are rolled back in reverse order.  A rename happens whole or not at
all; which of the operations fail is given by `Faults`.  The rollback directory
is removed at the end unless an original could not be put back.
-/

namespace Justup.Restore

variable {N T : Type*} [DecidableEq N]

/-- What a path holds. -/
inductive Entry (T : Type*) where
  | directory (content : T)
  | other (content : T)

/-- The entries of a directory, by name. -/
abbrev Dir (N T : Type*) := N → Option (Entry T)

structure Files (N T : Type*) where
  /-- `extracted_data` -/
  extracted : Dir N T
  /-- `data_dir` -/
  data : Dir N T
  rollback : Dir N T

/-- The operations that fail, and what a removal that fails leaves behind. -/
structure Faults (N T : Type*) where
  prepare : Bool
  away : N → Bool
  into : N → Bool
  remove : N → Bool
  leftover : N → Option (Entry T)
  back : N → Bool
  /-- The entries that `rmtree(rollback_dir, ignore_errors=True)` leaves. -/
  clear : N → Bool

inductive RestoreResult where
  /-- An exception before anything was moved. -/
  | refused
  | rolledBack
  | rollbackFailed
  | restored
  deriving DecidableEq, Repr

/-- The directories to restore; `none` when the archive holds one that is no directory. -/
def restorePlan (extracted : Dir N T) : List N → Option (List N)
  | [] => some []
  | name :: rest =>
      match extracted name with
      | none => restorePlan extracted rest
      | some (.other _) => none
      | some (.directory _) => (restorePlan extracted rest).map (name :: ·)

structure Progress (N T : Type*) where
  files : Files N T
  /-- Originals that now live in the rollback directory. -/
  movedAway : List N
  /-- Targets that may hold restored data. -/
  attempted : List N

namespace Progress

/-- The original was renamed into the rollback directory. -/
def moveAway (name : N) (target : Entry T) (progress : Progress N T) : Progress N T :=
  { progress with
    files := { progress.files with
      data := Function.update progress.files.data name none
      rollback := Function.update progress.files.rollback name (some target) }
    movedAway := name :: progress.movedAway }

def attempt (name : N) (progress : Progress N T) : Progress N T :=
  { progress with attempted := name :: progress.attempted }

/-- The extracted directory was renamed into its place. -/
def place (name : N) (progress : Progress N T) : Progress N T :=
  { progress with
    files := { progress.files with
      data := Function.update progress.files.data name (progress.files.extracted name)
      extracted := Function.update progress.files.extracted name none } }

end Progress

def restoreOne (faults : Faults N T) (name : N) (progress : Progress N T) : Bool × Progress N T :=
  if faults.into name then (true, progress.attempt name)
  else (false, (progress.attempt name).place name)

/-- One turn of the swap loop; the flag says that a rename failed. -/
def swapOne (faults : Faults N T) (name : N) (progress : Progress N T) : Bool × Progress N T :=
  match progress.files.data name with
  | some target =>
      if faults.away name then (true, progress)
      else restoreOne faults name (progress.moveAway name target)
  | none => restoreOne faults name progress

def swapAll (faults : Faults N T) : List N → Progress N T → Bool × Progress N T
  | [], progress => (false, progress)
  | name :: rest, progress =>
      match swapOne faults name progress with
      | (true, progress) => (true, progress)
      | (false, progress) => swapAll faults rest progress

/-- Roll one directory back; the flag says that this failed. -/
def rollBackOne (faults : Faults N T) (progress : Progress N T) (name : N) (files : Files N T) :
    Bool × Files N T :=
  if name ∈ progress.attempted ∧ faults.remove name then
    (true, { files with data := Function.update files.data name (faults.leftover name) })
  else
    let files :=
      if name ∈ progress.attempted then { files with data := Function.update files.data name none }
      else files
    if name ∈ progress.movedAway then
      if faults.back name then (true, files)
      else
        (false, { files with
          data := Function.update files.data name (files.rollback name)
          rollback := Function.update files.rollback name none })
    else (false, files)

/-- Roll the directories back one after another, also after a failure. -/
def rollBackAll (faults : Faults N T) (progress : Progress N T) : List N → Files N T →
    Bool × Files N T
  | [], files => (false, files)
  | name :: rest, files =>
      let first := rollBackOne faults progress name files
      let others := rollBackAll faults progress rest first.2
      (first.1 || others.1, others.2)

/-- `shutil.rmtree(rollback_dir, ignore_errors=True)` -/
def Files.clearRollback (faults : Faults N T) (files : Files N T) : Files N T :=
  { files with rollback := fun name => if faults.clear name then files.rollback name else none }

/-- The rollback directory is a new one. -/
def Progress.fresh (files : Files N T) : Progress N T :=
  ⟨{ files with rollback := fun _ => none }, [], []⟩

def applyRestore (directories : List N) (faults : Faults N T) (files : Files N T) :
    RestoreResult × Files N T :=
  match restorePlan files.extracted directories with
  | none => (.refused, files)
  | some plan =>
      if faults.prepare then (.refused, files)
      else
        match swapAll faults plan (.fresh files) with
        | (false, progress) => (.restored, progress.files.clearRollback faults)
        | (true, progress) =>
            match rollBackAll faults progress plan.reverse progress.files with
            | (true, files) => (.rollbackFailed, files)
            | (false, files) => (.rolledBack, files.clearRollback faults)

/-! ## The plan -/

omit [DecidableEq N] in
theorem restorePlan_sublist {extracted : Dir N T} {directories plan : List N}
    (hplan : restorePlan extracted directories = some plan) :
    plan.Sublist directories := by
  induction directories generalizing plan with
  | nil =>
      cases hplan
      exact List.Sublist.refl _
  | cons name rest ih =>
      simp only [restorePlan] at hplan
      split at hplan
      · exact (ih hplan).cons name
      · cases hplan
      · obtain ⟨inner, hinner, rfl⟩ := Option.map_eq_some_iff.mp hplan
        exact (ih hinner).cons_cons name

/-! ## The swap -/

variable {faults : Faults N T} {start : Files N T} {progress : Progress N T} {name : N}

/-- What the swap loop keeps: every original is where the roll back looks for it. -/
structure Progress.Sound (start : Files N T) (progress : Progress N T) : Prop where
  untouched : ∀ n ∉ progress.attempted,
    progress.files.data n = start.data n ∧ progress.files.extracted n = start.extracted n
  kept : ∀ n ∈ progress.movedAway, progress.files.rollback n = start.data n
  absent : ∀ n ∈ progress.attempted, n ∉ progress.movedAway → start.data n = none
  moved : ∀ n ∈ progress.movedAway, n ∈ progress.attempted

/-- Every attempted target holds the extracted directory. -/
def Progress.Placed (start : Files N T) (progress : Progress N T) : Prop :=
  ∀ n ∈ progress.attempted, progress.files.data n = start.extracted n

omit [DecidableEq N] in
theorem Progress.Sound.attempt_absent (hsound : progress.Sound start)
    (hnew : name ∉ progress.attempted) (htarget : progress.files.data name = none) :
    (progress.attempt name).Sound start where
  untouched n hn := hsound.untouched n fun hattempted => hn (List.mem_cons_of_mem _ hattempted)
  kept := hsound.kept
  absent n hn hmoved := by
    rcases List.mem_cons.mp hn with rfl | hn
    · exact (hsound.untouched n hnew).1.symm.trans htarget
    · exact hsound.absent n hn hmoved
  moved n hn := List.mem_cons_of_mem _ (hsound.moved n hn)

theorem Progress.Sound.attempt_moved {target : Entry T} (hsound : progress.Sound start)
    (hnew : name ∉ progress.attempted) (htarget : progress.files.data name = some target) :
    ((progress.moveAway name target).attempt name).Sound start where
  untouched n hn := by
    obtain ⟨hne, hold⟩ := not_or.mp (mt List.mem_cons.mpr hn)
    simpa [Progress.attempt, Progress.moveAway, Function.update_of_ne hne] using
      hsound.untouched n hold
  kept n hn := by
    by_cases hname : n = name
    · simp [Progress.attempt, Progress.moveAway, hname, ← htarget, (hsound.untouched name hnew).1]
    · have hold := hsound.kept n ((List.mem_cons.mp hn).resolve_left hname)
      simpa [Progress.attempt, Progress.moveAway, Function.update_of_ne hname] using hold
  absent n hn hmoved := by
    obtain ⟨hne, hold⟩ := not_or.mp (mt List.mem_cons.mpr hmoved)
    exact hsound.absent n ((List.mem_cons.mp hn).resolve_left hne) hold
  moved n hn := by
    rcases List.mem_cons.mp hn with rfl | hn
    · exact List.mem_cons_self
    · exact List.mem_cons_of_mem _ (hsound.moved n hn)

theorem Progress.Sound.place (hsound : progress.Sound start) (hname : name ∈ progress.attempted) :
    (progress.place name).Sound start where
  untouched n hn := by
    have hne : n ≠ name := fun heq => hn (heq ▸ hname)
    simpa [Progress.place, Function.update_of_ne hne] using hsound.untouched n hn
  kept := hsound.kept
  absent := hsound.absent
  moved := hsound.moved

/-- How a turn of the loop ends. -/
theorem swapOne_cases (hsound : progress.Sound start) (hnew : name ∉ progress.attempted) :
    swapOne faults name progress = (true, progress) ∨
      ∃ tried : Progress N T, tried.Sound start ∧ tried.attempted = name :: progress.attempted ∧
        tried.files.extracted = progress.files.extracted ∧
        (∀ n, n ≠ name → tried.files.data n = progress.files.data n) ∧
        (swapOne faults name progress = (true, tried) ∨
          swapOne faults name progress = (false, tried.place name)) := by
  simp only [swapOne]
  cases htarget : progress.files.data name with
  | none =>
      refine .inr ⟨progress.attempt name, hsound.attempt_absent hnew htarget, rfl, rfl,
        fun _ _ => rfl, ?_⟩
      cases hinto : faults.into name <;> simp [restoreOne, hinto]
  | some target =>
      cases haway : faults.away name with
      | true => exact .inl (by simp)
      | false =>
          refine .inr ⟨(progress.moveAway name target).attempt name,
            hsound.attempt_moved hnew htarget, rfl, rfl, ?_, ?_⟩
          · intro n hn
            simp [Progress.attempt, Progress.moveAway, Function.update_of_ne hn]
          · cases hinto : faults.into name <;> simp [restoreOne, hinto]

/-- The loop keeps every original within reach, and when no rename fails every
planned directory is in place. -/
theorem swapAll_spec {plan : List N} (hnodup : plan.Nodup)
    (hnew : ∀ n ∈ plan, n ∉ progress.attempted) (hsound : progress.Sound start) :
    (swapAll faults plan progress).2.Sound start ∧
      (∀ n ∈ (swapAll faults plan progress).2.attempted, n ∈ progress.attempted ∨ n ∈ plan) ∧
      ((swapAll faults plan progress).1 = false →
        ∀ n, (swapAll faults plan progress).2.files.data n =
          if n ∈ plan then start.extracted n else progress.files.data n) := by
  induction plan generalizing progress with
  | nil => exact ⟨hsound, fun n hn => .inl hn, by simp [swapAll]⟩
  | cons name rest ih =>
      obtain ⟨hname, hrest⟩ := List.nodup_cons.mp hnodup
      have hfresh := hnew name (by simp)
      rcases @swapOne_cases _ _ _ faults start progress name hsound hfresh with
        hturn | ⟨tried, htried, hattempted, hextracted, hothers, hturn | hturn⟩
      · simp only [swapAll, hturn]
        exact ⟨hsound, fun n hn => .inl hn, by simp⟩
      · simp only [swapAll, hturn]
        refine ⟨htried, ?_, by simp⟩
        intro n hn
        rw [hattempted] at hn
        rcases List.mem_cons.mp hn with rfl | hn
        · exact .inr List.mem_cons_self
        · exact .inl hn
      · have hmem : name ∈ tried.attempted := hattempted ▸ List.mem_cons_self
        have hnewRest : ∀ n ∈ rest, n ∉ (tried.place name).attempted := by
          intro n hn hattemptedN
          have hattemptedN : n ∈ name :: progress.attempted := hattempted ▸ hattemptedN
          rcases List.mem_cons.mp hattemptedN with rfl | hold
          · exact hname hn
          · exact hnew n (List.mem_cons_of_mem _ hn) hold
        obtain ⟨hdone, hdoneAttempted, hdata⟩ := ih hrest hnewRest (htried.place hmem)
        simp only [swapAll, hturn]
        refine ⟨hdone, ?_, ?_⟩
        · intro n hn
          rcases hdoneAttempted n hn with hn | hn
          · have hn : n ∈ name :: progress.attempted := hattempted ▸ hn
            rcases List.mem_cons.mp hn with rfl | hn
            · exact .inr List.mem_cons_self
            · exact .inl hn
          · exact .inr (List.mem_cons_of_mem _ hn)
        · intro hflag n
          rw [hdata hflag n]
          by_cases hin : n ∈ rest
          · simp [hin]
          by_cases heq : n = name
          · subst heq
            simp [hin, Progress.place, hextracted, (hsound.untouched n hfresh).2]
          · simp [hin, heq, Progress.place, hothers n heq]

/-! ## The roll back -/

/-- Rolling one directory back puts the original in its place. -/
theorem rollBackOne_data {files after : Files N T}
    (hkept : name ∈ progress.movedAway → files.rollback name = start.data name)
    (habsent : name ∈ progress.attempted → name ∉ progress.movedAway → start.data name = none)
    (huntouched : name ∉ progress.attempted → files.data name = start.data name)
    (hmoved : name ∈ progress.movedAway → name ∈ progress.attempted)
    (hback : rollBackOne faults progress name files = (false, after)) :
    after.data = Function.update files.data name (start.data name) ∧
      ∀ n, n ≠ name → after.rollback n = files.rollback n := by
  simp only [rollBackOne] at hback
  split at hback
  · simp at hback
  by_cases hattempted : name ∈ progress.attempted
  · by_cases haway : name ∈ progress.movedAway
    · simp only [hattempted, haway, if_true] at hback
      split at hback
      · simp at hback
      · simp only [Prod.mk.injEq, true_and] at hback
        subst hback
        refine ⟨by simp [hkept haway], ?_⟩
        intro n hn
        simp [Function.update_of_ne hn]
    · simp only [hattempted, haway, if_true, if_false, Prod.mk.injEq, true_and] at hback
      subst hback
      simp [habsent hattempted haway]
  · have haway : name ∉ progress.movedAway := fun haway => hattempted (hmoved haway)
    simp only [hattempted, haway, if_false, Prod.mk.injEq, true_and] at hback
    subst hback
    refine ⟨?_, fun _ _ => rfl⟩
    rw [← huntouched hattempted, Function.update_eq_self]

/-- A roll back without a failure puts every original in its place. -/
theorem rollBackAll_data {names : List N} {files after : Files N T} (hnodup : names.Nodup)
    (hsound : progress.Sound start)
    (hkept : ∀ n ∈ names, n ∈ progress.movedAway → files.rollback n = start.data n)
    (huntouched : ∀ n ∈ names, n ∉ progress.attempted → files.data n = start.data n)
    (hback : rollBackAll faults progress names files = (false, after)) :
    ∀ n, after.data n = if n ∈ names then start.data n else files.data n := by
  induction names generalizing files with
  | nil =>
      cases hback
      simp
  | cons name rest ih =>
      obtain ⟨hname, hrest⟩ := List.nodup_cons.mp hnodup
      simp only [rollBackAll, Prod.mk.injEq, Bool.or_eq_false_iff] at hback
      obtain ⟨⟨hfirst, hothers⟩, hafter⟩ := hback
      obtain ⟨hdata, hrollback⟩ := rollBackOne_data (hkept name (by simp)) (hsound.absent name)
        (huntouched name (by simp)) (hsound.moved name)
        (Prod.ext hfirst rfl : rollBackOne faults progress name files = (false, _))
      have hne : ∀ n ∈ rest, n ≠ name := fun n hn heq => hname (heq ▸ hn)
      have hinner := ih hrest
        (fun n hn haway => (hrollback n (hne n hn)).trans (hkept n (by simp [hn]) haway))
        (fun n hn hnot => by
          rw [hdata, Function.update_of_ne (hne n hn)]
          exact huntouched n (by simp [hn]) hnot)
        (Prod.ext hothers hafter)
      intro n
      rw [hinner n, hdata]
      by_cases hin : n ∈ rest
      · simp [hin]
      by_cases heq : n = name
      · simp [heq]
      · simp [hin, heq]

/-- What `apply_restore` leaves: after a success every planned directory is
replaced and the others are as before, after a refusal or a roll back every
directory is as before. -/
theorem applyRestore_spec {directories : List N} (hdirectories : directories.Nodup)
    (faults : Faults N T) (files : Files N T) :
    match (applyRestore directories faults files).1 with
    | .restored => ∃ plan, restorePlan files.extracted directories = some plan ∧
        ∀ n, (applyRestore directories faults files).2.data n =
          if n ∈ plan then files.extracted n else files.data n
    | .refused | .rolledBack => (applyRestore directories faults files).2.data = files.data
    | .rollbackFailed => True := by
  cases hplan : restorePlan files.extracted directories with
  | none => simp [applyRestore, hplan]
  | some plan =>
      cases hprepare : faults.prepare with
      | true => simp [applyRestore, hplan, hprepare]
      | false =>
          have hnodup : plan.Nodup := (restorePlan_sublist hplan).nodup hdirectories
          have hfresh : (Progress.fresh files).Sound files :=
            ⟨fun _ _ => ⟨rfl, rfl⟩, by simp [Progress.fresh], by simp [Progress.fresh],
              by simp [Progress.fresh]⟩
          obtain ⟨hsound, hattempted, hplaced⟩ :=
            @swapAll_spec _ _ _ faults files (.fresh files) plan hnodup (by simp [Progress.fresh])
              hfresh
          simp only [applyRestore, hplan, hprepare, Bool.false_eq_true, if_false]
          cases hswap : swapAll faults plan (.fresh files) with
          | mk failed progress =>
              rw [hswap] at hsound hattempted hplaced
              cases failed with
              | false => exact ⟨plan, rfl, hplaced rfl⟩
              | true =>
                  cases hback : rollBackAll faults progress plan.reverse progress.files with
                  | mk failures after =>
                      cases failures with
                      | true => simp [hback]
                      | false =>
                          simp only [hback]
                          have hdata := rollBackAll_data (List.nodup_reverse.mpr hnodup) hsound
                            (fun n _ haway => hsound.kept n haway)
                            (fun n _ hnot => (hsound.untouched n hnot).1) hback
                          funext n
                          have huntouched : n ∉ plan → progress.files.data n = files.data n := by
                            intro hn
                            refine (hsound.untouched n fun hold => ?_).1
                            exact hn ((hattempted n hold).resolve_left (by simp [Progress.fresh]))
                          rw [show (after.clearRollback faults).data n = after.data n from rfl,
                            hdata n]
                          by_cases hin : n ∈ plan
                          · simp [hin]
                          · simp [hin, huntouched hin]

end Justup.Restore
