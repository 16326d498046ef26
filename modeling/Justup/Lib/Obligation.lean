import Mathlib.Data.List.Induction

/-!
# Obligations along a log

An entry that asks is owed an answer; the answer has to come before the next
entry at which it is due.  A log grows at its end, one entry at a time.
-/

namespace Justup.Lib.Obligation

variable {μ : Type*} (asks answers due : μ → Bool)

/-- Whether an entry of the log still waits for its answer. -/
def isOpen (log : List μ) : Bool :=
  log.foldl (fun waiting entry => asks entry || (waiting && !answers entry)) false

/-- Every entry that asks has been answered before the next entry at which the answer is due. -/
def Met (log : List μ) : Prop :=
  ∀ before ask between deadline after, log = before ++ ask :: (between ++ deadline :: after) →
    asks ask = true → due deadline = true → ∃ entry ∈ between, answers entry = true

variable {asks answers due} {log : List μ} {entry : μ}

@[simp] theorem isOpen_nil : isOpen asks answers [] = false := rfl

@[simp] theorem isOpen_concat :
    isOpen asks answers (log ++ [entry]) =
      (asks entry || (isOpen asks answers log && !answers entry)) := by
  simp [isOpen]

theorem isOpen_iff :
    isOpen asks answers log = true ↔
      ∃ before ask between, log = before ++ ask :: between ∧ asks ask = true ∧
        ∀ entry ∈ between, answers entry = false := by
  induction log using List.reverseRecOn with
  | nil => simp
  | append_singleton log entry ih =>
      rw [isOpen_concat, Bool.or_eq_true, Bool.and_eq_true, Bool.not_eq_true', ih]
      constructor
      · rintro (hasks | ⟨⟨before, ask, between, rfl, hask, hbetween⟩, hanswers⟩)
        · exact ⟨log, entry, [], rfl, hasks, by simp⟩
        · refine ⟨before, ask, between ++ [entry], by simp, hask, ?_⟩
          intro other hother
          obtain hold | hlast := List.mem_append.mp hother
          · exact hbetween other hold
          · rw [List.mem_singleton.mp hlast]
            exact hanswers
      · rintro ⟨before, ask, between, hlog, hask, hbetween⟩
        obtain rfl | ⟨between, last, rfl⟩ := List.eq_nil_or_concat between
        · obtain ⟨rfl, hlast⟩ := List.append_inj' hlog rfl
          obtain rfl := List.singleton_inj.mp hlast
          exact Or.inl hask
        · rw [List.concat_eq_append] at hlog hbetween
          rw [← List.cons_append, ← List.append_assoc] at hlog
          obtain ⟨rfl, hlast⟩ := List.append_inj' hlog rfl
          obtain rfl := List.singleton_inj.mp hlast
          refine Or.inr ⟨⟨before, ask, between, rfl, hask, ?_⟩, hbetween entry (by simp)⟩
          exact fun other hother => hbetween other (List.mem_append_left _ hother)

theorem met_nil : Met asks answers due [] := by
  intro before ask between deadline after hlog
  simp at hlog

/-- A log that meets its obligations grows by an entry at which nothing open is due. -/
theorem Met.concat (hmet : Met asks answers due log)
    (hdue : due entry = true → isOpen asks answers log = false) :
    Met asks answers due (log ++ [entry]) := by
  intro before ask between deadline after hlog hask hdeadline
  obtain rfl | ⟨after, last, rfl⟩ := List.eq_nil_or_concat after
  · rw [← List.cons_append, ← List.append_assoc] at hlog
    obtain ⟨rfl, hlast⟩ := List.append_inj' hlog rfl
    obtain rfl := List.singleton_inj.mp hlast
    by_contra hnone
    have hopen : isOpen asks answers (before ++ ask :: between) = true := by
      refine isOpen_iff.mpr ⟨before, ask, between, rfl, hask, ?_⟩
      intro other hother
      by_contra hanswers
      exact hnone ⟨other, hother, by simpa using hanswers⟩
    rw [hdue hdeadline] at hopen
    cases hopen
  · have hsplit : log ++ [entry] = (before ++ ask :: (between ++ deadline :: after)) ++ [last] :=
      hlog.trans (by simp)
    have hshorter := (List.append_inj' hsplit rfl).1
    exact hmet before ask between deadline after hshorter hask hdeadline

end Justup.Lib.Obligation
