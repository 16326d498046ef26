import Justup.Routes.Loader

/-!
# A newer measurement is kept

What a loader shows and asks for, over every run of the tabs, and the condition
under which the stored measurement is not replaced by an older one.
-/

namespace Justup.Routes

open Lib Storage

variable {scope : Scope}

/-! ## What a tab displays -/

/-- Once a measurement is displayed, only later ones or the same one are. -/
def Rising (times : List (Option ℤ)) : Prop :=
  times.Pairwise fun earlier next => ∀ time, earlier = some time →
    ∃ time', next = some time' ∧ time ≤ time'

structure Tab.Sound (scope : Scope) (tab : Tab) : Prop where
  own : ∀ entry, Display.stored entry ∈ tab.displays → entry.isOf scope = true
  rising : Rising (tab.displays.map Display.measuredAt)
  rendered : tab.renderedAt = tab.displays.getLast?.bind Display.measuredAt
  loaded : tab.loaded = false → tab.displays = []

/-- A display that is not older than the last one. -/
theorem Tab.Sound.display {tab : Tab} (htab : tab.Sound scope) {shown : Display}
    (hown : ∀ entry, shown = .stored entry → entry.isOf scope = true)
    (hnewer : ∀ time, tab.renderedAt = some time →
      ∃ time', shown.measuredAt = some time' ∧ time ≤ time') :
    Tab.Sound scope { tab with
      loaded := true, renderedAt := shown.measuredAt, displays := tab.displays ++ [shown] } where
  own entry hentry := by
    obtain hold | hnew := List.mem_append.mp hentry
    · exact htab.own entry hold
    · exact hown entry (List.mem_singleton.mp hnew).symm
  rising := by
    simp only [List.map_append, List.map_cons, List.map_nil, Rising]
    rw [List.pairwise_append]
    refine ⟨htab.rising, List.pairwise_singleton _ _, ?_⟩
    intro earlier hearlier last hlast time htime
    obtain rfl := List.mem_singleton.mp hlast
    subst htime
    obtain hnil | ⟨before, last, hdisplays⟩ := List.eq_nil_or_concat tab.displays
    · rw [hnil] at hearlier
      cases hearlier
    · have hrendered := htab.rendered
      have hrising := htab.rising
      rw [hdisplays, List.concat_eq_append] at hrendered hrising hearlier
      rw [List.getLast?_concat, Option.bind_some] at hrendered
      rw [Rising, List.map_append, List.pairwise_append] at hrising
      rw [List.map_append, List.mem_append] at hearlier
      obtain hbefore | hlast := hearlier
      · obtain ⟨time', hlast, hle⟩ := hrising.2.2 _ hbefore _ (List.mem_singleton_self _) time rfl
        obtain ⟨time'', hshown, hle'⟩ := hnewer time' (hrendered.trans hlast)
        exact ⟨time'', hshown, hle.trans hle'⟩
      · exact hnewer time (hrendered.trans (List.mem_singleton.mp hlast).symm)
  rendered := by simp
  loaded h := by cases h

/-- A handler that leaves the displays of a tab alone. -/
theorem Tab.Sound.same {tab tab' : Tab} (htab : tab.Sound scope)
    (hdisplays : tab'.displays = tab.displays) (hrendered : tab'.renderedAt = tab.renderedAt)
    (hloaded : tab'.loaded = tab.loaded) : tab'.Sound scope where
  own := hdisplays ▸ htab.own
  rising := hdisplays ▸ htab.rising
  rendered := by rw [hrendered, hdisplays, htab.rendered]
  loaded h := hdisplays ▸ htab.loaded (hloaded ▸ h)

/-- What a timer does not touch. -/
structure Tab.Quiet (tab tab' : Tab) : Prop where
  displays : tab'.displays = tab.displays
  renderedAt : tab'.renderedAt = tab.renderedAt
  loaded : tab'.loaded = tab.loaded
  inFlight : tab'.inFlight = tab.inFlight

theorem Tab.Sound.quiet {tab tab' : Tab} (htab : tab.Sound scope) (hquiet : tab.Quiet tab') :
    tab'.Sound scope := htab.same hquiet.displays hquiet.renderedAt hquiet.loaded

theorem Tab.quiet_scheduleExpiry (now : ℤ) (tab : Tab) : tab.Quiet (tab.scheduleExpiry now) := by
  unfold Tab.scheduleExpiry
  split <;> exact ⟨rfl, rfl, rfl, rfl⟩

theorem Tab.quiet_scheduleRetry (now retryAfterMs : ℤ) (tab : Tab) :
    tab.Quiet (tab.scheduleRetry now retryAfterMs) := by
  unfold Tab.scheduleRetry
  split <;> exact ⟨rfl, rfl, rfl, rfl⟩

/-! ## The jobs of the tabs -/

namespace System

/-- A loader waits for one job when it is in flight, and for none else; a first load
comes before every display. -/
structure Sound (scope : Scope) (sys : System) : Prop where
  tabs : ∀ i, (sys.tabs i).Sound scope
  busy : ∀ i, sys.jobs.countP (fun job => job.1 = i) = if (sys.tabs i).inFlight then 1 else 0
  first : ∀ job ∈ sys.jobs, job.2.isFirst = true → (sys.tabs job.1).displays = []

/-- The same while a handler of a tab runs that waits for nothing. -/
structure Freed (scope : Scope) (i : ℕ) (sys : System) : Prop where
  tabs : ∀ j, (sys.tabs j).Sound scope
  busy : ∀ j, j ≠ i →
    sys.jobs.countP (fun job => job.1 = j) = if (sys.tabs j).inFlight then 1 else 0
  alone : ∀ job ∈ sys.jobs, job.1 ≠ i
  first : ∀ job ∈ sys.jobs, job.2.isFirst = true → (sys.tabs job.1).displays = []

variable {sys next : System} {i : ℕ}

theorem Sound.freed (hsound : sys.Sound scope) (hidle : (sys.tabs i).inFlight = false) :
    sys.Freed scope i where
  tabs := hsound.tabs
  busy j _ := hsound.busy j
  alone job hjob := by
    have hcount := hsound.busy i
    rw [hidle, if_neg Bool.false_ne_true, List.countP_eq_zero] at hcount
    simpa using hcount job hjob
  first := hsound.first

theorem Freed.sound (hfreed : sys.Freed scope i) (hidle : (sys.tabs i).inFlight = false) :
    sys.Sound scope where
  tabs := hfreed.tabs
  busy j := by
    by_cases hj : j = i
    · subst hj
      rw [hidle, if_neg Bool.false_ne_true, List.countP_eq_zero]
      simpa using hfreed.alone
    · exact hfreed.busy j hj
  first := hfreed.first

theorem Freed.congr (hfreed : sys.Freed scope i) (hjobs : next.jobs = sys.jobs)
    (htabs : next.tabs = sys.tabs) : next.Freed scope i where
  tabs := htabs ▸ hfreed.tabs
  busy := by rw [hjobs, htabs]; exact hfreed.busy
  alone := hjobs ▸ hfreed.alone
  first := by rw [hjobs, htabs]; exact hfreed.first

theorem Sound.congr (hsound : sys.Sound scope) (hjobs : next.jobs = sys.jobs)
    (htabs : next.tabs = sys.tabs) : next.Sound scope where
  tabs := htabs ▸ hsound.tabs
  busy := by rw [hjobs, htabs]; exact hsound.busy
  first := by rw [hjobs, htabs]; exact hsound.first

@[simp] theorem change_tabs_self (f : Tab → Tab) : (sys.change i f).tabs i = f (sys.tabs i) := by
  simp [change]

@[simp] theorem change_jobs (f : Tab → Tab) : (sys.change i f).jobs = sys.jobs := rfl

@[simp] theorem change_storage (f : Tab → Tab) : (sys.change i f).storage = sys.storage := rfl

theorem change_tabs_of_ne (f : Tab → Tab) {j : ℕ} (hj : j ≠ i) :
    (sys.change i f).tabs j = sys.tabs j := by
  simp [change, hj]

theorem Freed.change (hfreed : sys.Freed scope i) {f : Tab → Tab}
    (hf : (f (sys.tabs i)).Sound scope) : (sys.change i f).Freed scope i where
  tabs j := by
    by_cases hj : j = i
    · subst hj
      simpa using hf
    · rw [change_tabs_of_ne f hj]
      exact hfreed.tabs j
  busy j hj := by
    rw [change_tabs_of_ne f hj]
    exact hfreed.busy j hj
  alone := hfreed.alone
  first job hjob hfirst := by
    rw [change_tabs_of_ne f (hfreed.alone job hjob)]
    exact hfreed.first job hjob hfirst

/-- A change that no other handler sees. -/
theorem Sound.change (hsound : sys.Sound scope) {f : Tab → Tab}
    (hquiet : (sys.tabs i).Quiet (f (sys.tabs i))) : (sys.change i f).Sound scope where
  tabs j := by
    by_cases hj : j = i
    · subst hj
      simpa using (hsound.tabs j).quiet hquiet
    · rw [change_tabs_of_ne f hj]
      exact hsound.tabs j
  busy j := by
    by_cases hj : j = i
    · subst hj
      rw [change_tabs_self, hquiet.inFlight]
      exact hsound.busy j
    · rw [change_tabs_of_ne f hj]
      exact hsound.busy j
  first job hjob hfirst := by
    by_cases hj : job.1 = i
    · have hnone := hsound.first job hjob hfirst
      rw [hj] at hnone ⊢
      rw [change_tabs_self, hquiet.displays]
      exact hnone
    · rw [change_tabs_of_ne f hj]
      exact hsound.first job hjob hfirst

theorem Freed.await (hfreed : sys.Freed scope i) {job : Job}
    (hfirst : job.isFirst = true → (sys.tabs i).displays = []) : (sys.await i job).Sound scope := by
  have hflight : ((sys.change i fun tab => { tab with inFlight := true })).Freed scope i :=
    hfreed.change ((hfreed.tabs i).same rfl rfl rfl)
  refine ⟨hflight.tabs, fun j => ?_, ?_⟩
  · have hjobs : (sys.await i job).jobs = sys.jobs ++ [(i, job)] := rfl
    rw [hjobs, List.countP_append, List.countP_singleton]
    by_cases hj : j = i
    · subst hj
      have hnone : sys.jobs.countP (fun job => job.1 = j) = 0 := by
        rw [List.countP_eq_zero]
        simpa using hfreed.alone
      rw [hnone]
      simp [System.await]
    · rw [if_neg (by simpa using fun h => hj h.symm), add_zero]
      exact hflight.busy j hj
  · intro other hother hisFirst
    obtain hold | hnew := List.mem_append.mp hother
    · exact hflight.first other hold hisFirst
    · obtain rfl := List.mem_singleton.mp hnew
      simpa [System.await] using hfirst hisFirst

/-- A job that is taken frees its tab. -/
theorem Sound.takeJob (hsound : sys.Sound scope) {n : ℕ} {job : Job}
    (htake : sys.takeJob n = some (i, job, next)) :
    next.Freed scope i ∧ (job.isFirst = true → (next.tabs i).displays = []) ∧
      sys.jobs[n]? = some (i, job) ∧ next = { sys with jobs := next.jobs } := by
  obtain ⟨taken, htaken, heq⟩ := Option.map_eq_some_iff.mp htake
  obtain ⟨rfl, hrest⟩ := Prod.mk.inj heq
  obtain ⟨rfl, rfl⟩ := Prod.mk.inj hrest
  obtain ⟨hn, hget⟩ := List.getElem?_eq_some_iff.mp htaken
  have hperm := List.getElem_cons_eraseIdx_perm hn
  rw [hget] at hperm
  have hmem : taken ∈ sys.jobs := hget ▸ List.getElem_mem hn
  have hcount (j : ℕ) : (if taken.1 = j then 1 else 0) +
      (sys.jobs.eraseIdx n).countP (fun job => job.1 = j) =
        if (sys.tabs j).inFlight then 1 else 0 := by
    rw [← hsound.busy j, ← hperm.countP_eq, List.countP_cons, add_comm]
    simp
  refine ⟨⟨hsound.tabs, fun j hj => ?_, fun job hjob hi => ?_, fun job hjob => ?_⟩, ?_, htaken,
    rfl⟩
  · have := hcount j
    rw [if_neg (fun h => hj h.symm), zero_add] at this
    exact this
  · have hone := hcount taken.1
    have hpos : 0 < (sys.jobs.eraseIdx n).countP (fun job => job.1 = taken.1) :=
      List.countP_pos_iff.mpr ⟨job, hjob, by simpa using hi⟩
    rw [if_pos rfl] at hone
    split at hone <;> omega
  · exact hsound.first job (List.mem_of_mem_eraseIdx hjob)
  · exact hsound.first taken hmem

/-! ## The handlers -/

theorem Freed.display (hfreed : sys.Freed scope i) {shown : Display}
    (hown : ∀ entry, shown = .stored entry → entry.isOf scope = true)
    (hnewer : ∀ time, (sys.tabs i).renderedAt = some time →
      ∃ time', shown.measuredAt = some time' ∧ time ≤ time') :
    (sys.display i shown).Freed scope i :=
  hfreed.change ((hfreed.tabs i).display hown hnewer)

theorem Freed.scheduleExpiry (hfreed : sys.Freed scope i) :
    (sys.scheduleExpiry i).Freed scope i :=
  hfreed.change ((hfreed.tabs i).quiet (Tab.quiet_scheduleExpiry _ _))

theorem Freed.scheduleRetry (hfreed : sys.Freed scope i) (retryAfterMs : ℤ) :
    (sys.scheduleRetry i retryAfterMs).Freed scope i :=
  hfreed.change ((hfreed.tabs i).quiet (Tab.quiet_scheduleRetry _ _ _))

theorem Freed.finish (hfreed : sys.Freed scope i) (guard : Option Guard) :
    (sys.finish scope i guard).Sound scope := by
  have hidle : (sys.change i fun tab => { tab with inFlight := false }).Sound scope :=
    (hfreed.change ((hfreed.tabs i).same rfl rfl rfl)).sound (by simp)
  unfold System.finish
  dsimp only
  split
  next => exact hidle
  next => exact hidle.congr rfl rfl
  next => exact hidle.congr rfl rfl

theorem fades_finish (sys : System) (i : ℕ) (guard : Option Guard) :
    sys.storage.Fades (sys.finish scope i guard).storage := by
  unfold System.finish
  dsimp only
  split
  next => exact .refl _
  next => exact .refl _
  next => exact fades_releaseLease _ _ _

/-- A handler keeps the loaders sound and at most removes entries. -/
structure Handled (scope : Scope) (sys next : System) : Prop where
  sound : next.Sound scope
  fades : sys.storage.Fades next.storage

theorem Handled.after {middle : System} (hhandled : middle.Handled scope next)
    (hfades : sys.storage.Fades middle.storage) : sys.Handled scope next :=
  ⟨hhandled.sound, hfades.trans hhandled.fades⟩

/-- What is read is an entry of the scope; nothing else than the storage moves. -/
theorem read_cases (scope : Scope) (sys : System) : ∃ current storage,
    sys.read scope = (current, { sys with storage := storage }) ∧ sys.storage.Fades storage ∧
      ∀ entry, current = some entry → entry.isOf scope = true :=
  ⟨_, _, rfl, fades_read _ _ _, fun _ hentry => (read_isOf hentry).1⟩

theorem newer_of_isFresh {entry : Entry} (hfresh : sys.isFresh i entry = true) {time : ℤ}
    (hrendered : (sys.tabs i).renderedAt = some time) :
    ∃ time', (Display.stored entry).measuredAt = some time' ∧ time ≤ time' := by
  simp only [isFresh, hrendered, Option.getD_some, Bool.and_eq_true, decide_eq_true_eq] at hfresh
  exact ⟨_, rfl, hfresh.2.le⟩

theorem Freed.unrendered (hfreed : sys.Freed scope i) (hnone : (sys.tabs i).displays = [])
    {time : ℤ} (hrendered : (sys.tabs i).renderedAt = some time) {shown : Display} :
    ∃ time', shown.measuredAt = some time' ∧ time ≤ time' := by
  have hnothing := (hfreed.tabs i).rendered
  rw [hrendered, hnone] at hnothing
  cases hnothing

theorem Freed.runTask (hfreed : sys.Freed scope i) {task : Task}
    (hfirst : task = .first → (sys.tabs i).displays = []) (guard : Guard) :
    sys.Handled scope (sys.runTask scope i task guard) := by
  obtain ⟨current, storage, hread, hfades, hown⟩ := read_cases scope sys
  have hfreed' : Freed scope i { sys with storage := storage } := hfreed.congr rfl rfl
  unfold System.runTask
  rw [hread]
  dsimp only
  split
  next entry hentry =>
    obtain ⟨hcurrent, husable⟩ := Option.filter_eq_some_iff.mp hentry
    have hshown :
        (System.display { sys with storage := storage } i (.stored entry)).Freed scope i := by
      refine hfreed'.display ?_ fun time hrendered => ?_
      · rintro _ ⟨⟩
        exact hown entry hcurrent
      · obtain hisFirst | hfresh := (Bool.or_eq_true _ _).mp husable
        · exact hfreed.unrendered (hfirst (of_decide_eq_true hisFirst)) hrendered
        · exact newer_of_isFresh hfresh hrendered
    exact ⟨hshown.scheduleExpiry.finish _, hfades.trans (fades_finish _ i _)⟩
  next =>
    refine ⟨hfreed'.await fun hisFirst => ?_, hfades⟩
    exact hfirst (of_decide_eq_true hisFirst)

theorem Freed.withLease (hfreed : sys.Freed scope i) {task : Task}
    (hfirst : task = .first → (sys.tabs i).displays = []) (refusals : Refusals) :
    sys.Handled scope (sys.withLease scope i task refusals) := by
  have hfades := fades_acquireLease sys.storage sys.now scope i refusals
  unfold System.withLease
  generalize sys.storage.acquireLease sys.now scope i refusals = result at hfades ⊢
  obtain ⟨acquired, storage⟩ := result
  have hfreed' : Freed scope i { sys with storage := storage } := hfreed.congr rfl rfl
  dsimp only at hfades ⊢
  split
  next => exact (hfreed'.runTask hfirst .lease).after hfades
  next =>
    exact ⟨(hfreed'.change ((hfreed.tabs i).same rfl rfl rfl)).sound (by simp), hfades⟩

theorem Freed.withScanLock (hfreed : sys.Freed scope i) {task : Task}
    (hfirst : task = .first → (sys.tabs i).displays = []) (refusals : Refusals) :
    sys.Handled scope (sys.withScanLock scope i task refusals) := by
  unfold System.withScanLock
  split
  next => exact ⟨hfreed.await fun h => hfirst (of_decide_eq_true h), .refl _⟩
  next => exact hfreed.withLease hfirst refusals

theorem Sound.autoScan (hsound : sys.Sound scope) (refusals : Refusals) :
    sys.Handled scope (sys.autoScan scope i refusals) := by
  unfold System.autoScan
  dsimp only
  split
  next => exact ⟨hsound, .refl _⟩
  next hblocked =>
    have hidle : (sys.tabs i).inFlight = false := by
      simp only [Bool.or_eq_true, not_or, Bool.not_eq_true] at hblocked
      exact hblocked.1.1
    exact (hsound.freed hidle).withScanLock (fun h => by cases h) refusals

theorem Freed.showNewer (hfreed : sys.Freed scope i) (hidle : (sys.tabs i).inFlight = false)
    {current : Option Entry} (hown : ∀ entry, current = some entry → entry.isOf scope = true) :
    (sys.showNewer i current).Sound scope ∧ (sys.showNewer i current).storage = sys.storage := by
  unfold System.showNewer
  split
  next entry hentry =>
    obtain ⟨hcurrent, hfresh⟩ := Option.filter_eq_some_iff.mp hentry
    have hshown : (sys.display i (.stored entry)).Freed scope i := by
      refine hfreed.display ?_ fun time hrendered => newer_of_isFresh hfresh hrendered
      rintro _ ⟨⟩
      exact hown entry hcurrent
    exact ⟨hshown.sound (by simpa [System.display] using hidle), rfl⟩
  next => exact ⟨hfreed.sound hidle, rfl⟩

theorem Sound.checkExpiry (hsound : sys.Sound scope) (refusals : Refusals) :
    sys.Handled scope (sys.checkExpiry scope i refusals) := by
  unfold System.checkExpiry
  split
  next => exact ⟨hsound, .refl _⟩
  next hblocked =>
    have hidle : (sys.tabs i).inFlight = false := by
      simp only [Bool.or_eq_true, not_or, Bool.not_eq_true] at hblocked
      exact hblocked.2
    obtain ⟨current, storage, hread, hfades, hown⟩ := read_cases scope sys
    have hfreed : Freed scope i { sys with storage := storage } :=
      (hsound.freed hidle).congr rfl rfl
    rw [hread]
    dsimp only
    obtain ⟨hshown, hstorage⟩ := hfreed.showNewer hidle hown
    generalize System.showNewer { sys with storage := storage } i current = shown
      at hshown hstorage ⊢
    have hfades' : sys.storage.Fades shown.storage := hstorage ▸ hfades
    split
    next => exact (hshown.autoScan refusals).after hfades'
    next =>
      split
      next => exact ⟨hshown.change (Tab.quiet_scheduleExpiry _ _), hfades'⟩
      next => exact (hshown.autoScan refusals).after hfades'

theorem Sound.show_ (hsound : sys.Sound scope) (refusals : Refusals) :
    sys.Handled scope (sys.show_ scope i refusals) := by
  unfold System.show_
  split
  next => exact ⟨hsound, .refl _⟩
  next hidle =>
    rw [Bool.not_eq_true] at hidle
    split
    next => exact hsound.checkExpiry refusals
    next hloaded =>
      rw [Bool.not_eq_true] at hloaded
      have hnone := (hsound.tabs i).loaded hloaded
      obtain ⟨current, storage, hread, hfades, hown⟩ := read_cases scope sys
      have hfreed : Freed scope i { sys with storage := storage } :=
        (hsound.freed hidle).congr rfl rfl
      rw [hread]
      dsimp only
      split
      next => exact (hfreed.withScanLock (fun _ => hnone) refusals).after hfades
      next _ entry =>
        have hshown : ((System.display { sys with storage := storage } i
            (.stored entry)).scheduleExpiry i).Sound scope := by
          refine Freed.sound (Freed.scheduleExpiry (hfreed.display ?_ fun time hrendered => ?_)) ?_
          · rintro _ ⟨⟩
            exact hown entry rfl
          · exact hfreed.unrendered hnone hrendered
          · rw [System.scheduleExpiry, change_tabs_self, (Tab.quiet_scheduleExpiry _ _).inFlight,
              System.display, change_tabs_self]
            exact hidle
        split
        next => exact (hshown.autoScan refusals).after hfades
        next => exact ⟨hshown, hfades⟩

theorem Sound.recheck (hsound : sys.Sound scope) (refusals : Refusals) :
    sys.Handled scope (sys.recheck scope i refusals) := by
  unfold System.recheck
  split
  next => exact ⟨hsound, .refl _⟩
  next =>
    split
    next => exact hsound.checkExpiry refusals
    next => exact hsound.show_ refusals

theorem Sound.refresh (hsound : sys.Sound scope) : sys.Handled scope (sys.refresh i) := by
  unfold System.refresh
  split
  next => exact ⟨hsound, .refl _⟩
  next hblocked =>
    have hidle : (sys.tabs i).inFlight = false := by
      simp only [Bool.or_eq_true, not_or, Bool.not_eq_true] at hblocked
      exact hblocked.1
    exact ⟨(hsound.freed hidle).await (fun h => by cases h), .refl _⟩

/-! ## Responses -/

variable {length : Entry → ℕ}

/-- What a response leaves of the entry of the scope: the old entry, or its own measurement,
which is newer than what the tab had displayed. -/
def Answered (scope : Scope) (i : ℕ) (outcome : Outcome) (sys next : System) : Prop :=
  ∀ entry, next.storage.stored scope = some entry → sys.storage.stored scope = some entry ∨
    ∃ html stamp, outcome = .ok html (some stamp) ∧
      (sys.tabs i).renderedAt.getD (-1) < clampStamp sys.now stamp ∧
      entry.measuredAt = clampStamp sys.now stamp

theorem Answered.of_fades {outcome : Outcome} (hfades : sys.storage.Fades next.storage) :
    Answered scope i outcome sys next := fun _ hentry => .inl (hfades.stored hentry)

/-- A committed response is stored and displayed. -/
theorem Freed.commit (hfreed : sys.Freed scope i) {html : Html} {stamp : Option ℕ}
    {refusals : Refusals}
    (hcommit : sys.commit scope length i html (stamp.map (clampStamp sys.now)) refusals =
      some next) :
    next.Freed scope i ∧ Answered scope i (.ok html stamp) sys next := by
  cases stamp with
  | none => cases hcommit
  | some stamp =>
      simp only [Option.map_some, System.commit] at hcommit
      split at hcommit
      next => cases hcommit
      next hnewer =>
        obtain rfl := Option.some.inj hcommit
        rw [not_le] at hnewer
        have hstored : Freed scope i { sys with
            storage := sys.storage.write sys.now length scope html (clampStamp sys.now stamp)
              refusals } := hfreed.congr rfl rfl
        refine ⟨Freed.scheduleExpiry (hstored.display ?_ fun time hrendered => ?_), ?_⟩
        · rintro _ ⟨⟩
        · have hrendered' : (sys.tabs i).renderedAt = some time := hrendered
          rw [hrendered', Option.getD_some] at hnewer
          exact ⟨_, rfl, hnewer.le⟩
        · intro entry hentry
          have hwritten := stored_write hentry
          exact hwritten.imp id fun h => ⟨html, stamp, rfl, hnewer, h.2⟩

theorem Freed.endTask (hfreed : sys.Freed scope i) {task : Task}
    (hfirst : task = .first → (sys.tabs i).displays = []) (outcome : Outcome)
    (refusals : Refusals) :
    (sys.endTask scope length i task outcome refusals).Freed scope i ∧
      Answered scope i outcome sys (sys.endTask scope length i task outcome refusals) := by
  unfold System.endTask
  split
  next => exact ⟨hfreed, .of_fades (.refl _)⟩
  next => exact ⟨hfreed.scheduleRetry _, .of_fades (.refl _)⟩
  next html stamp =>
    split
    next hcommit => exact hfreed.commit hcommit
    next =>
      cases task with
      | auto => exact ⟨hfreed.scheduleRetry _, .of_fades (.refl _)⟩
      | first =>
          have hshown : (sys.display i (.response html none)).Freed scope i := by
            refine hfreed.display (fun _ h => by cases h) fun time hrendered => ?_
            exact hfreed.unrendered (hfirst rfl) hrendered
          exact ⟨hshown.scheduleRetry _, .of_fades (.refl _)⟩

theorem Freed.endManual (hfreed : sys.Freed scope i) (outcome : Outcome) (refusals : Refusals) :
    (sys.endManual scope length i outcome refusals).Freed scope i ∧
      Answered scope i outcome sys (sys.endManual scope length i outcome refusals) := by
  unfold System.endManual
  split
  next => exact ⟨hfreed, .of_fades (.refl _)⟩
  next =>
    split
    next => exact ⟨hfreed.change ((hfreed.tabs i).same rfl rfl rfl), .of_fades (.refl _)⟩
    next => exact ⟨hfreed, .of_fades (.refl _)⟩
  next html stamp =>
    cases hcommit : sys.commit scope length i html (stamp.map (clampStamp sys.now)) refusals with
    | none => exact ⟨hfreed, .of_fades (.refl _)⟩
    | some committed => exact hfreed.commit hcommit

/-! ## Runs -/

/-- The stored measurement of the scope is not replaced by an older one. -/
def KeepsNewer (scope : Scope) (sys next : System) : Prop :=
  ∀ entry entry', sys.storage.stored scope = some entry → next.storage.stored scope = some entry' →
    entry.measuredAt ≤ entry'.measuredAt

theorem keepsNewer_of_fades (hfades : sys.storage.Fades next.storage) :
    KeepsNewer scope sys next := by
  intro entry entry' hentry hentry'
  rw [hfades.stored hentry'] at hentry
  exact (congrArg Entry.measuredAt (Option.some.inj hentry)).ge

/-- A response that a tab takes for newer than what it displays is not older than the
stored entry. -/
def CommitsNewer (scope : Scope) (sys : System) : Act → Prop
  | .respond n (.ok _ (some stamp)) _ =>
      ∀ job ∈ sys.jobs[n]?, (sys.tabs job.1).renderedAt.getD (-1) < clampStamp sys.now stamp →
        ∀ entry ∈ sys.storage.stored scope, entry.measuredAt ≤ clampStamp sys.now stamp
  | _ => True

instance (scope : Scope) (sys : System) (act : Act) : Decidable (CommitsNewer scope sys act) := by
  unfold CommitsNewer
  split <;> infer_instance

theorem Answered.taken {outcome : Outcome} {taken : System}
    (hanswered : Answered scope i outcome taken next)
    (hsame : taken = { sys with jobs := taken.jobs }) : Answered scope i outcome sys next := by
  rw [hsame] at hanswered
  exact hanswered

theorem Answered.keepsNewer {n : ℕ} {outcome : Outcome} {refusals : Refusals} {job : ℕ × Job}
    {answered : System} (hanswered : Answered scope job.1 outcome sys answered)
    (hfades : answered.storage.Fades next.storage) (hjob : sys.jobs[n]? = some job)
    (hok : CommitsNewer scope sys (.respond n outcome refusals)) : KeepsNewer scope sys next := by
  intro entry entry' hentry hentry'
  obtain hsame | ⟨html, stamp, rfl, hnewer, htime⟩ := hanswered entry' (hfades.stored hentry')
  · rw [hsame] at hentry
    exact (congrArg Entry.measuredAt (Option.some.inj hentry)).ge
  · rw [htime]
    exact hok job hjob hnewer entry hentry

theorem ifOpen_eq_some {other : System} (h : sys.ifOpen i other = some next) : other = next := by
  unfold ifOpen at h
  split at h
  next => cases h
  next => exact Option.some.inj h

theorem Sound.closeTab (hsound : sys.Sound scope) (i : ℕ) : (sys.closeTab i).Sound scope := by
  have hclosed : (sys.closeTab i).tabs = (sys.change i fun tab => { tab with
      isClosed := true, inFlight := false, timer := none }).tabs := rfl
  have htabs (j : ℕ) (hj : j ≠ i) : (sys.closeTab i).tabs j = sys.tabs j := by
    rw [hclosed, change_tabs_of_ne _ hj]
  have hown : (sys.closeTab i).tabs i = { sys.tabs i with
      isClosed := true, inFlight := false, timer := none } := by
    rw [hclosed, change_tabs_self]
  refine ⟨fun j => ?_, fun j => ?_, fun job hjob hfirst => ?_⟩
  · by_cases hj : j = i
    · subst hj
      rw [hown]
      exact (hsound.tabs j).same rfl rfl rfl
    · rw [htabs j hj]
      exact hsound.tabs j
  · by_cases hj : j = i
    · subst hj
      rw [hown, if_neg Bool.false_ne_true, List.countP_eq_zero]
      intro job hjob
      simpa using (List.mem_filter.mp hjob).2
    · rw [htabs j hj, ← hsound.busy j, System.closeTab, List.countP_filter]
      refine List.countP_congr fun job _ => ?_
      by_cases hjob : job.1 = j <;> simp [hjob, hj]
  · obtain ⟨hmem, hne⟩ := List.mem_filter.mp hjob
    rw [htabs job.1 (by simpa using hne)]
    exact hsound.first job hmem hfirst

/-- Every step keeps the loaders sound, and the stored measurement when it commits only
newer ones. -/
theorem Sound.step (hsound : sys.Sound scope) {act : Act}
    (hstep : sys.step scope length act = some next) :
    next.Sound scope ∧ (CommitsNewer scope sys act → KeepsNewer scope sys next) := by
  have hhandled {next : System} (h : sys.Handled scope next) :
      next.Sound scope ∧ (CommitsNewer scope sys act → KeepsNewer scope sys next) :=
    ⟨h.sound, fun _ => keepsNewer_of_fades h.fades⟩
  cases act with
  | tick ms =>
      obtain rfl := Option.some.inj hstep
      exact hhandled ⟨hsound.congr rfl rfl, .refl _⟩
  | setShown i isShown =>
      obtain rfl := ifOpen_eq_some hstep
      exact hhandled ⟨hsound.change ⟨rfl, rfl, rfl, rfl⟩, .refl _⟩
  | show_ i refusals =>
      obtain rfl := ifOpen_eq_some hstep
      exact hhandled (hsound.show_ refusals)
  | refresh i =>
      obtain rfl := ifOpen_eq_some hstep
      exact hhandled hsound.refresh
  | checkExpiry i refusals =>
      obtain rfl := ifOpen_eq_some hstep
      exact hhandled (hsound.checkExpiry refusals)
  | recheck i refusals =>
      obtain rfl := ifOpen_eq_some hstep
      exact hhandled (hsound.recheck refusals)
  | fire i refusals =>
      have hcleared : (sys.change i fun tab => { tab with timer := none }).Sound scope :=
        hsound.change ⟨rfl, rfl, rfl, rfl⟩
      have hfades : sys.storage.Fades
          (sys.change i fun tab => { tab with timer := none }).storage := .refl _
      simp only [System.step] at hstep
      split at hstep
      next => cases hstep
      next timer due _ =>
        split at hstep
        next => cases hstep
        next =>
          cases timer with
          | retry =>
              obtain rfl := Option.some.inj hstep
              split
              next => exact hhandled ((hcleared.recheck refusals).after hfades)
              next => exact hhandled ⟨hcleared, hfades⟩
          | expiry =>
              obtain rfl := Option.some.inj hstep
              exact hhandled ((hcleared.checkExpiry refusals).after hfades)
          | lease =>
              obtain rfl := Option.some.inj hstep
              exact hhandled ((hcleared.recheck refusals).after hfades)
  | grant n =>
      simp only [System.step] at hstep
      split at hstep
      next i task taken htake =>
        split at hstep
        next =>
          obtain rfl := Option.some.inj hstep
          obtain ⟨hfreed, hfirst, -, hsame⟩ := hsound.takeJob htake
          have hholding : Freed scope i { taken with holder := some i } := hfreed.congr rfl rfl
          have hrun := hholding.runTask (fun h => hfirst (decide_eq_true h)) .lock
          exact hhandled (hrun.after (hsame ▸ Fades.refl _))
        next => cases hstep
      next => cases hstep
  | refuse n refusals =>
      simp only [System.step] at hstep
      split at hstep
      next i task taken htake =>
        obtain rfl := Option.some.inj hstep
        obtain ⟨hfreed, hfirst, -, hsame⟩ := hsound.takeJob htake
        have hrun := hfreed.withLease (fun h => hfirst (decide_eq_true h)) refusals
        exact hhandled (hrun.after (hsame ▸ Fades.refl _))
      next => cases hstep
  | respond n outcome refusals =>
      simp only [System.step] at hstep
      split at hstep
      next i task guard taken htake =>
        obtain rfl := Option.some.inj hstep
        obtain ⟨hfreed, hfirst, hjob, hsame⟩ := hsound.takeJob htake
        have hnone : task = .first → (taken.tabs i).displays = [] :=
          fun h => hfirst (decide_eq_true h)
        obtain ⟨hended, hanswered⟩ :=
          @Freed.endTask scope taken i length hfreed task hnone outcome refusals
        have hanswered' := hanswered.taken hsame
        exact ⟨hended.finish _, hanswered'.keepsNewer (fades_finish _ i _) hjob⟩
      next i taken htake =>
        obtain rfl := Option.some.inj hstep
        obtain ⟨hfreed, -, hjob, hsame⟩ := hsound.takeJob htake
        obtain ⟨hended, hanswered⟩ :=
          @Freed.endManual scope taken i length hfreed outcome refusals
        have hanswered' := hanswered.taken hsame
        exact ⟨hended.finish _, hanswered'.keepsNewer (fades_finish _ i _) hjob⟩
      next => cases hstep
  | destroy i =>
      obtain rfl := ifOpen_eq_some hstep
      exact hhandled ⟨hsound.change ⟨rfl, rfl, rfl, rfl⟩, .refl _⟩
  | close i =>
      obtain rfl := Option.some.inj hstep
      exact hhandled ⟨hsound.closeTab i, .refl _⟩
  | prune =>
      obtain rfl := Option.some.inj hstep
      exact hhandled ⟨hsound.congr rfl rfl, fades_prune _ _⟩
  | purge predicate =>
      obtain rfl := Option.some.inj hstep
      exact hhandled ⟨hsound.congr rfl rfl, fades_purge _ _⟩
  | writeOther other html measuredAt refusals =>
      simp only [System.step] at hstep
      split at hstep
      next => cases hstep
      next hother =>
        obtain rfl := Option.some.inj hstep
        refine ⟨hsound.congr rfl rfl, fun _ entry entry' hentry hentry' => ?_⟩
        obtain hsame | ⟨hkey, -⟩ := stored_write hentry'
        · rw [hsame] at hentry
          exact (congrArg Entry.measuredAt (Option.some.inj hentry)).ge
        · exact absurd hkey.symm hother

/-- New tabs over any storage. -/
structure IsStart (sys : System) : Prop where
  jobs : sys.jobs = []
  tabs : ∀ i, ∃ hasLocks isShown, sys.tabs i = { hasLocks := hasLocks, isShown := isShown }

theorem IsStart.sound (hstart : sys.IsStart) : sys.Sound scope where
  tabs i := by
    obtain ⟨hasLocks, isShown, htab⟩ := hstart.tabs i
    rw [htab]
    exact ⟨by simp, List.Pairwise.nil, rfl, fun _ => rfl⟩
  busy i := by
    obtain ⟨hasLocks, isShown, htab⟩ := hstart.tabs i
    rw [htab, hstart.jobs]
    rfl
  first job hjob := by
    rw [hstart.jobs] at hjob
    cases hjob

/-- The requests of a tab that are under way. -/
def requests (sys : System) (i : ℕ) : ℕ := sys.jobs.countP fun job => job.1 = i && job.2.isRequest

theorem Sound.requests_le (hsound : sys.Sound scope) (i : ℕ) : sys.requests i ≤ 1 := by
  have hle : sys.requests i ≤ sys.jobs.countP fun job => job.1 = i := by
    refine List.countP_mono_left fun job _ hjob => ?_
    exact (Bool.and_eq_true _ _).mp hjob |>.1
  rw [hsound.busy i] at hle
  split at hle <;> omega

/-- A newer measurement is never replaced by an older one: every tab displays rising
measurements of its own scope and waits for one response at most, and each step keeps the newer
stored measurement. -/
structure NewerIsKept (scope : Scope) (length : Entry → ℕ) (start : System) (acts : List Act)
    (last : System) : Prop where
  rising : ∀ i, Rising ((last.tabs i).displays.map Display.measuredAt)
  own : ∀ i entry, Display.stored entry ∈ (last.tabs i).displays → entry.isOf scope = true
  requests : ∀ i, last.requests i ≤ 1
  stored : Transition.RunOk (System.step scope length)
    (fun sys act => ∀ next, sys.step scope length act = some next → KeepsNewer scope sys next)
    start acts

theorem newer_is_kept {length : Entry → ℕ} {start last : System} (hstart : start.IsStart)
    {acts : List Act} (hrun : Transition.run (System.step scope length) start acts = some last)
    (hnewer : Transition.RunOk (System.step scope length) (CommitsNewer scope) start acts) :
    NewerIsKept scope length start acts last := by
  have hsound : start.Sound scope := hstart.sound
  have hlast : last.Sound scope :=
    Transition.run_invariant (fun hsound hstep => (Sound.step hsound hstep).1) hsound hrun
  refine ⟨fun i => (hlast.tabs i).rising, fun i => (hlast.tabs i).own, hlast.requests_le, ?_⟩
  clear hrun hlast hstart
  induction acts generalizing start with
  | nil => trivial
  | cons act rest ih =>
      refine ⟨fun next hstep => (hsound.step hstep).2 hnewer.1, fun next hstep => ?_⟩
      exact ih (hnewer.2 next hstep) (hsound.step hstep).1

/-! ## Two manual scans -/

namespace Crossed

def ownScope : Scope := ⟨"u1".toList, "t1".toList, "b1".toList⟩

def textLength (entry : Entry) : ℕ := entry.html.length + 100

def start : System where
  now := 1000000
  storage := ⟨[], [], Table.keyed_nil⟩
  holder := none
  jobs := []
  tabs := fun _ => {}

theorem start_isStart : start.IsStart := ⟨rfl, fun _ => ⟨true, true, rfl⟩⟩

/-- Two tabs scan; the response of the second comes first. -/
def answered : List Act :=
  [.refresh 0, .refresh 1, .respond 1 (.ok [120] (some 900000)) {}]

/-- The response of the first tab. -/
def late (stamp : ℕ) : Act := .respond 0 (.ok [120] (some stamp)) {}

end Crossed

theorem newer_is_kept_crossed :
    ∃ last, Transition.run (System.step Crossed.ownScope Crossed.textLength) Crossed.start
        (Crossed.answered ++ [Crossed.late 950000]) = some last ∧
      NewerIsKept Crossed.ownScope Crossed.textLength Crossed.start
        (Crossed.answered ++ [Crossed.late 950000]) last := by
  have hrun : (Transition.run (System.step Crossed.ownScope Crossed.textLength) Crossed.start
      (Crossed.answered ++ [Crossed.late 950000])).isSome = true := by decide +kernel
  obtain ⟨last, hlast⟩ := Option.isSome_iff_exists.mp hrun
  refine ⟨last, hlast, newer_is_kept Crossed.start_isStart hlast ?_⟩
  decide +kernel

/-- The older response of the first tab replaces the newer stored measurement. -/
theorem older_replaces_newer :
    ∃ last, Transition.run (System.step Crossed.ownScope Crossed.textLength) Crossed.start
        (Crossed.answered ++ [Crossed.late 800000]) = some last ∧
      ¬ NewerIsKept Crossed.ownScope Crossed.textLength Crossed.start
        (Crossed.answered ++ [Crossed.late 800000]) last := by
  have hstored : ((Transition.run (System.step Crossed.ownScope Crossed.textLength) Crossed.start
      Crossed.answered).bind fun middle =>
        (middle.storage.stored Crossed.ownScope).map Entry.measuredAt) = some 900000 := by
    decide +kernel
  have hreplaced : ((Transition.run (System.step Crossed.ownScope Crossed.textLength) Crossed.start
      (Crossed.answered ++ [Crossed.late 800000])).bind fun last =>
        (last.storage.stored Crossed.ownScope).map Entry.measuredAt) = some 800000 := by
    decide +kernel
  obtain ⟨middle, hmiddle, hentry⟩ := Option.bind_eq_some_iff.mp hstored
  obtain ⟨last, hlast, hentry'⟩ := Option.bind_eq_some_iff.mp hreplaced
  obtain ⟨entry, hnewer, htime⟩ := Option.map_eq_some_iff.mp hentry
  obtain ⟨entry', holder, htime'⟩ := Option.map_eq_some_iff.mp hentry'
  refine ⟨last, hlast, fun hkept => ?_⟩
  obtain ⟨middle', hmiddle', hstep⟩ := Transition.run_snoc hlast
  obtain rfl := Option.some.inj (hmiddle.symm.trans hmiddle')
  have hkeeps := (hkept.stored.split hmiddle).2.1 last hstep entry entry' hnewer holder
  omega

end System

end Justup.Routes
