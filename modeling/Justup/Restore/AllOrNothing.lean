import Justup.Restore.Gates

/-!
# The swap is all or nothing

Rolling a directory back destroys no original: a target is only removed once
its original is in the rollback directory, and the rename back moves the
original whole.  So after a roll back with failures every original is found in
one of the two places.
-/

namespace Justup.Restore

variable {N T : Type*} [DecidableEq N]
variable {faults : Faults N T} {start : Files N T} {progress : Progress N T} {name : N}

/-- Every original is in its place or in the rollback directory. -/
def Files.Safe (start files : Files N T) : Prop :=
  ∀ n, start.data n ≠ none → files.data n = start.data n ∨ files.rollback n = start.data n

omit [DecidableEq N] in
/-- The swap loop leaves every original in one of the two places. -/
theorem Progress.Sound.safe (hsound : progress.Sound start) :
    Files.Safe start progress.files := by
  intro n horiginal
  by_cases hattempted : n ∈ progress.attempted
  · by_cases haway : n ∈ progress.movedAway
    · exact .inr (hsound.kept n haway)
    · exact absurd (hsound.absent n hattempted haway) horiginal
  · exact .inl (hsound.untouched n hattempted).1

/-- Rolling one directory back touches no other one. -/
theorem rollBackOne_others {files : Files N T} {n : N} (hne : n ≠ name) :
    (rollBackOne faults progress name files).2.data n = files.data n ∧
      (rollBackOne faults progress name files).2.rollback n = files.rollback n := by
  simp only [rollBackOne]
  split
  · simp [Function.update_of_ne hne]
  · split <;> split <;> simp [Function.update_of_ne hne] <;> split <;>
      simp [Function.update_of_ne hne]

/-- The original of the directory that is rolled back stays within reach. -/
theorem rollBackOne_safe {files : Files N T} (hsound : progress.Sound start)
    (hkept : name ∈ progress.movedAway → files.rollback name = start.data name)
    (hsafe : Files.Safe start files) :
    Files.Safe start (rollBackOne faults progress name files).2 := by
  intro n horiginal
  by_cases hname : n = name
  swap
  · obtain ⟨hdata, hrollback⟩ := @rollBackOne_others _ _ _ faults progress name files n hname
    rw [hdata, hrollback]
    exact hsafe n horiginal
  subst hname
  by_cases haway : n ∈ progress.movedAway
  · have hattempted := hsound.moved n haway
    simp only [rollBackOne, hattempted, haway, true_and, if_true]
    split
    · exact .inr (hkept haway)
    · split
      · exact .inr (hkept haway)
      · exact .inl (by simp [hkept haway])
  · have hattempted : n ∉ progress.attempted := fun hattempted =>
      horiginal (hsound.absent n hattempted haway)
    simp only [rollBackOne, hattempted, haway, false_and, if_false]
    exact hsafe n horiginal

theorem rollBackAll_safe {names : List N} {files : Files N T} (hnodup : names.Nodup)
    (hsound : progress.Sound start)
    (hkept : ∀ n ∈ names, n ∈ progress.movedAway → files.rollback n = start.data n)
    (hsafe : Files.Safe start files) :
    Files.Safe start (rollBackAll faults progress names files).2 := by
  induction names generalizing files with
  | nil => exact hsafe
  | cons name rest ih =>
      obtain ⟨hname, hrest⟩ := List.nodup_cons.mp hnodup
      refine ih hrest ?_ (rollBackOne_safe hsound (hkept name (by simp)) hsafe)
      intro n hn haway
      have hne : n ≠ name := fun heq => hname (heq ▸ hn)
      rw [(rollBackOne_others hne).2]
      exact hkept n (by simp [hn]) haway

/-- A roll back only fails where one of its own steps does. -/
theorem rollBackAll_failed {names : List N} {files : Files N T}
    (hfailed : (rollBackAll faults progress names files).1 = true) :
    ∃ n ∈ names, faults.remove n = true ∨ faults.back n = true := by
  induction names generalizing files with
  | nil => cases hfailed
  | cons name rest ih =>
      simp only [rollBackAll, Bool.or_eq_true] at hfailed
      rcases hfailed with hfirst | hothers
      · refine ⟨name, by simp, ?_⟩
        simp only [rollBackOne] at hfirst
        split at hfirst
        next hremove => exact .inl hremove.2
        split at hfirst
        · split at hfirst
          next hback => exact .inr hback
          · cases hfirst
        · cases hfirst
      · obtain ⟨n, hn, hfault⟩ := ih hothers
        exact ⟨n, by simp [hn], hfault⟩

/-! ## The plan and the backup -/

omit [DecidableEq N] in
/-- The plan of a valid archive holds the directories it contains. -/
theorem mem_restorePlan {extracted : Dir N T} {directories plan : List N}
    (hplan : restorePlan extracted directories = some plan) {n : N} :
    n ∈ plan ↔ n ∈ directories ∧ extracted n ≠ none := by
  induction directories generalizing plan with
  | nil =>
      cases hplan
      simp
  | cons name rest ih =>
      simp only [restorePlan] at hplan
      split at hplan
      next hnone =>
        rw [ih hplan, List.mem_cons]
        constructor
        · rintro ⟨hn, hsome⟩
          exact ⟨.inr hn, hsome⟩
        · rintro ⟨rfl | hn, hsome⟩
          · exact absurd hnone hsome
          · exact ⟨hn, hsome⟩
      · cases hplan
      next content hsome =>
        obtain ⟨inner, hinner, rfl⟩ := Option.map_eq_some_iff.mp hplan
        rw [List.mem_cons, ih hinner, List.mem_cons]
        constructor
        · rintro (rfl | ⟨hn, hpresent⟩)
          · exact ⟨.inl rfl, by simp [hsome]⟩
          · exact ⟨.inr hn, hpresent⟩
        · rintro ⟨rfl | hn, hpresent⟩
          · exact .inl rfl
          · exact .inr ⟨hn, hpresent⟩

omit [DecidableEq N] in
/-- The loop starts with every original in its place. -/
theorem sound_fresh (files : Files N T) : (Progress.fresh files).Sound files :=
  ⟨fun _ _ => ⟨rfl, rfl⟩, by simp [Progress.fresh], by simp [Progress.fresh],
    by simp [Progress.fresh]⟩

/-- What a failed roll back leaves: the original of every directory is within
reach, and one of its steps failed. -/
theorem applyRestore_rollbackFailed {directories : List N} (hdirectories : directories.Nodup)
    {files : Files N T} (hresult : (applyRestore directories faults files).1 = .rollbackFailed) :
    Files.Safe files (applyRestore directories faults files).2 ∧
      ∃ n ∈ directories, faults.remove n = true ∨ faults.back n = true := by
  revert hresult
  simp only [applyRestore]
  split
  · intro hresult
    cases hresult
  next plan hplan =>
    have hnodup : plan.Nodup := (restorePlan_sublist hplan).nodup hdirectories
    split
    · intro hresult
      cases hresult
    split
    · intro hresult
      cases hresult
    next progress hswap =>
      obtain ⟨hsound, -, -⟩ := @swapAll_spec _ _ _ faults files (.fresh files) plan hnodup
        (by simp [Progress.fresh]) (sound_fresh files)
      rw [hswap] at hsound
      split
      next after hback =>
        intro _
        have hfailed : (rollBackAll faults progress plan.reverse progress.files).1 = true := by
          rw [hback]
        obtain ⟨n, hn, hfault⟩ := rollBackAll_failed hfailed
        have hsafe : Files.Safe files
            (rollBackAll faults progress plan.reverse progress.files).2 :=
          rollBackAll_safe (List.nodup_reverse.mpr hnodup) hsound
            (fun n _ haway => hsound.kept n haway) hsound.safe
        rw [hback] at hsafe
        exact ⟨hsafe, n, (restorePlan_sublist hplan).subset (List.mem_reverse.mp hn), hfault⟩
      · intro hresult
        cases hresult

/-- After a success only what could not be removed is left of the rollback directory. -/
theorem applyRestore_cleared {directories : List N} {files : Files N T}
    (hresult : (applyRestore directories faults files).1 = .restored) {n : N}
    (hclear : faults.clear n = false) :
    (applyRestore directories faults files).2.rollback n = none := by
  revert hresult
  simp only [applyRestore]
  split
  · intro hresult
    cases hresult
  split
  · intro hresult
    cases hresult
  split
  · intro _
    simp [Files.clearRollback, hclear]
  · split <;> intro hresult <;> cases hresult

/-- Swapping in a backup: `apply_restore` returns with every directory of the
backup in place, the others untouched and nothing left of the replaced ones but
what could not be removed; it reports a roll back with the data directory as
before, and a failed roll back only when one of its steps failed, with every
original in its place or in the rollback directory; any other exception leaves
the data directory as before. -/
theorem restore_is_all_or_nothing (faults : Faults String T) (files : Files String T) :
    let after := (applyRestore backupDirectories faults files).2
    match (applyRestore backupDirectories faults files).1 with
    | .restored =>
        (∀ name, after.data name =
          if name ∈ backupDirectories ∧ (files.extracted name).isSome then files.extracted name
          else files.data name) ∧
        ∀ name, faults.clear name = false → after.rollback name = none
    | .rolledBack => after.data = files.data
    | .rollbackFailed =>
        (∃ name ∈ backupDirectories, faults.remove name = true ∨ faults.back name = true) ∧
        ∀ name, files.data name ≠ none →
          after.data name = files.data name ∨ after.rollback name = files.data name
    | .refused => after.data = files.data := by
  have hspec := applyRestore_spec backupDirectories_nodup faults files
  cases hresult : (applyRestore backupDirectories faults files).1 with
  | refused => simpa [hresult] using hspec
  | rolledBack => simpa [hresult] using hspec
  | rollbackFailed =>
      obtain ⟨hsafe, hfault⟩ := applyRestore_rollbackFailed backupDirectories_nodup hresult
      exact ⟨hfault, hsafe⟩
  | restored =>
      rw [hresult] at hspec
      obtain ⟨plan, hplan, hdata⟩ := hspec
      refine ⟨?_, fun name hclear => applyRestore_cleared hresult hclear⟩
      intro name
      rw [hdata name]
      simp only [mem_restorePlan hplan, Option.isSome_iff_ne_none]

end Justup.Restore
