import Justup.Reports.Told

/-!
# A report job ends once and its file is there

What requests, loops, writers and cleanup cycles hold about their jobs stays
true while the data goes on, so every run keeps the data in order.  The cleanup
reads the expired jobs by text; at a whole second it takes a job for expired
that expires later in that second.
-/

namespace Justup.Reports

open Lib.Transition
open Justup.Db (storedBefore microOf microOf_eq adaptDatetime_lt_iff)
open Justup.Store.JsonLine (representable)

/-! ## What the parties know of their jobs -/

/-- What a loop holds of its job. -/
structure Worker.Sound (data : Data) (worker : Worker) : Prop where
  known : data.Known worker.jobId
  pdf : ∀ pdf, worker.phase = .rendered pdf ∨ worker.phase = .ready pdf ∨
    worker.phase = .writing pdf → (worker.jobId, pdf) ∈ data.rendered
  written : worker.phase = .written → data.Kept worker.jobId

structure Writer.Sound (data : Data) (writer : Writer) : Prop where
  pdf : (writer.jobId, writer.pdf) ∈ data.rendered
  started : ∀ written mtime, writer.phase = .open written mtime →
    ∃ job ∈ data.everyJob, job.jobId = writer.jobId ∧ job.createdAt ≤ mtime
  known : data.Known writer.jobId
  replaced : writer.phase = .replaced → data.Kept writer.jobId

/-- The ids that a cycle holds are those of expired jobs, and a file as old as
its cutoff belongs to one. -/
def Cycle.Sound (data : Data) : Cycle → Prop
  | .removing expiredIds => ∀ jobId ∈ expiredIds, data.Expired jobId
  | .pruned => True
  | .sweeping cutoff => cutoff + minAge ≤ data.now
  | .unlinking cutoff jobId => cutoff + minAge ≤ data.now ∧ data.Expired jobId

structure State.Sound (state : State) : Prop where
  data : state.data.Sound []
  requests : ∀ jobId ∈ state.requests, state.data.Known jobId
  queue : ∀ jobId ∈ state.queue, state.data.Known jobId
  workers : ∀ worker ∈ state.workers, worker.Sound state.data
  writers : ∀ writer ∈ state.writers, writer.Sound state.data
  cycles : ∀ cycle ∈ state.cycles, cycle.Sound state.data

section Later

variable {data next : Data} (hlater : data.Later next)
include hlater

theorem Worker.Sound.later {worker : Worker} (hworker : worker.Sound data) :
    worker.Sound next where
  known := hlater.known hworker.known
  pdf pdf hphase := hlater.rendered _ (hworker.pdf pdf hphase)
  written hphase := hlater.kept (hworker.written hphase)

theorem Writer.Sound.later {writer : Writer} (hwriter : writer.Sound data) :
    writer.Sound next where
  pdf := hlater.rendered _ hwriter.pdf
  started written mtime hphase := by
    obtain ⟨job, hjob, hid, hle⟩ := hwriter.started written mtime hphase
    obtain ⟨job', hjob', hsame⟩ := hlater.jobs job hjob
    exact ⟨job', hjob', hsame.jobId.trans hid, hsame.createdAt.trans_le hle⟩
  known := hlater.known hwriter.known
  replaced hphase := hlater.kept (hwriter.replaced hphase)

theorem Cycle.Sound.later {cycle : Cycle} (hcycle : cycle.Sound data) : cycle.Sound next := by
  cases cycle with
  | removing expiredIds => exact fun jobId hid => hlater.expired (hcycle jobId hid)
  | pruned => trivial
  | sweeping cutoff => exact hcycle.trans hlater.now
  | unlinking cutoff jobId => exact ⟨hcycle.1.trans hlater.now, hlater.expired hcycle.2⟩

end Later

/-- The parties keep what they know when the data goes on. -/
theorem State.Sound.becomes {state : State} (hstate : state.Sound) {later : Data}
    (hbecomes : state.data.Becomes [] later) : State.Sound { state with data := later } where
  data := hbecomes.sound
  requests jobId hid := hbecomes.later.known (hstate.requests jobId hid)
  queue jobId hid := hbecomes.later.known (hstate.queue jobId hid)
  workers worker hworker := (hstate.workers worker hworker).later hbecomes.later
  writers writer hwriter := (hstate.writers writer hwriter).later hbecomes.later
  cycles cycle hcycle := Cycle.Sound.later hbecomes.later (hstate.cycles cycle hcycle)

theorem State.sound_start {now : Int} (hnow : representable now = true)
    (targets : List (ℕ × String)) : (State.start now targets).Sound where
  data := ⟨hnow, Lib.Table.keyed_nil, by simp [State.start, Data.everyJob],
    by simp [State.start, Data.everyJob], by simp [State.start, Data.everyJob],
    by simp [State.start], List.nodup_nil, by simp, by simp [State.start, Data.everyJob],
    by simp [State.start]⟩
  requests := by simp [State.start]
  queue := by simp [State.start]
  workers := by simp [State.start]
  writers := by simp [State.start]
  cycles := by simp [State.start]

/-! ## Loops, writers and cycles -/

theorem Worker.Sound.step {data next : Data} {writers : List Writer} {worker : Worker}
    {act : WorkAct} {worker' : Option Worker} {writer : Option Writer}
    (hworker : worker.Sound data) (hdata : data.Sound [])
    (hwriters : ∀ writer ∈ writers, writer.Sound data)
    (hstep : worker.step data writers act = some (next, worker', writer)) :
    data.Becomes [] next ∧ (∀ w ∈ worker', w.Sound next) ∧ ∀ w ∈ writer, w.Sound next := by
  have hsame : data.Becomes [] data := ⟨hdata, .refl data⟩
  cases act with
  | mark =>
      simp only [Worker.step] at hstep
      split at hstep
      next hphase =>
        cases hstep
        have hfits : JobUpdate.Fits
            { status := some .processing, progress := some progressProcessing } data worker.jobId :=
          ⟨by simp, by simp⟩
        have hbecomes := hdata.updateReportJob hfits
        refine ⟨hbecomes, ?_, by simp⟩
        rintro _ ⟨⟩
        exact ⟨hbecomes.later.known hworker.known, by simp, by simp⟩
      next => cases hstep
  | fetch =>
      simp only [Worker.step] at hstep
      split at hstep
      next hphase =>
        cases hstep
        have hfits : JobUpdate.Fits { progress := some progressMetricsFetched } data
            worker.jobId := ⟨by simp, by simp⟩
        have hbecomes := hdata.updateReportJob hfits
        refine ⟨hbecomes, ?_, by simp⟩
        rintro _ ⟨⟩
        exact ⟨hbecomes.later.known hworker.known, by simp, by simp⟩
      next => cases hstep
  | render pdf =>
      simp only [Worker.step] at hstep
      split at hstep
      next hphase =>
        cases hstep
        have hbecomes := hdata.render (worker.jobId, pdf)
        refine ⟨hbecomes, ?_, by simp⟩
        rintro _ ⟨⟩
        exact ⟨hbecomes.later.known hworker.known, by simp, by simp⟩
      next => cases hstep
  | progress =>
      simp only [Worker.step] at hstep
      split at hstep
      next pdf hphase =>
        cases hstep
        have hfits : JobUpdate.Fits { progress := some progressPdfRendered } data
            worker.jobId := ⟨by simp, by simp⟩
        have hbecomes := hdata.updateReportJob hfits
        have hpdf := hbecomes.later.rendered _ (hworker.pdf pdf (.inl hphase))
        refine ⟨hbecomes, ?_, by simp⟩
        rintro _ ⟨⟩
        exact ⟨hbecomes.later.known hworker.known, by simpa using hpdf, by simp⟩
      next => cases hstep
  | startWrite =>
      simp only [Worker.step] at hstep
      split at hstep
      next pdf hphase =>
        cases hstep
        have hpdf := hworker.pdf pdf (.inr (.inl hphase))
        obtain ⟨job, hjob, hid⟩ := hworker.known
        refine ⟨hsame, ?_, ?_⟩
        · rintro _ ⟨⟩
          exact ⟨hworker.known, by simpa using hpdf, by simp⟩
        · rintro _ ⟨⟩
          refine ⟨hpdf, ?_, hworker.known, by simp⟩
          rintro _ _ ⟨⟩
          exact ⟨job, hjob, hid, (hdata.dated job hjob).1⟩
      next => cases hstep
  | endWrite =>
      simp only [Worker.step] at hstep
      split at hstep
      next pdf hphase =>
        split at hstep
        next hwriter =>
          cases hstep
          have hkept := (hwriters _ hwriter).replaced rfl
          refine ⟨hsame, ?_, by simp⟩
          rintro _ ⟨⟩
          exact ⟨hworker.known, by simp, fun _ => hkept⟩
        next => cases hstep
      next => cases hstep
  | complete filename =>
      simp only [Worker.step] at hstep
      split at hstep
      next hphase =>
        cases hstep
        have hfits : JobUpdate.Fits
            { status := some .completed, progress := some progressDone,
              filename := some filename, completed := true } data worker.jobId :=
          ⟨by simp, fun _ => hworker.written hphase⟩
        exact ⟨hdata.updateReportJob hfits, by simp, by simp⟩
      next => cases hstep
  | fail message =>
      cases hstep
      have hfits : JobUpdate.Fits
          { status := some .failed, progress := some progressDone,
            error := some (errorDetail message), completed := true } data worker.jobId :=
        ⟨by simp, by simp⟩
      exact ⟨hdata.updateReportJob hfits, by simp, by simp⟩
  | cancel =>
      cases hstep
      exact ⟨hsame, by simp, by simp⟩

theorem Writer.Sound.step {data next : Data} {writer writer' : Writer} {act : WriteAct}
    (hwriter : writer.Sound data) (hdata : data.Sound [])
    (hstep : writer.step data act = some (next, writer')) :
    data.Becomes [] next ∧ writer'.Sound next := by
  have hsame : data.Becomes [] data := ⟨hdata, .refl data⟩
  cases act with
  | write count =>
      simp only [Writer.step] at hstep
      split at hstep
      next written mtime hphase =>
        cases hstep
        obtain ⟨job, hjob, hid⟩ := hwriter.known
        refine ⟨hsame, hwriter.pdf, ?_, hwriter.known, by simp⟩
        rintro _ _ ⟨⟩
        exact ⟨job, hjob, hid, (hdata.dated job hjob).1⟩
      next => cases hstep
  | replace =>
      simp only [Writer.step] at hstep
      split at hstep
      next written mtime hphase =>
        split at hstep
        next hlength =>
          cases hstep
          have hwhole : writer.pdf.take written = writer.pdf := by rw [hlength, List.take_length]
          rw [hwhole]
          have hbecomes : data.Becomes [] (data.putFile ⟨writer.jobId, writer.pdf, mtime⟩) :=
            hdata.putFile hwriter.pdf (hwriter.started written mtime hphase)
          refine ⟨hbecomes, hbecomes.later.rendered _ hwriter.pdf, by simp,
            hbecomes.later.known hwriter.known, fun _ => ?_⟩
          exact .inl ⟨_, List.mem_append_right _ (List.mem_singleton_self _), rfl⟩
        next => cases hstep
      next => cases hstep
  | raise =>
      simp only [Writer.step] at hstep
      split at hstep
      next written mtime hphase =>
        cases hstep
        exact ⟨hsame, hwriter.pdf, by simp, hwriter.known, by simp⟩
      next => cases hstep

/-- A file older than the cutoff belongs to a job that has expired. -/
theorem Data.Sound.expired_of_old {data : Data} (hdata : data.Sound []) {file : PdfFile}
    (hfile : file ∈ data.files) {cutoff : Int} (hcutoff : cutoff + minAge ≤ data.now)
    (hold : file.mtime ≤ cutoff) : data.Expired file.jobId := by
  obtain ⟨-, job, hjob, hid, hcreated⟩ := hdata.filed file hfile
  have hexpires := (hdata.dated job hjob).2.1
  exact ⟨job, hjob, hid, by omega⟩

theorem Cycle.Sound.step {data next : Data} {cycle : Cycle} {act : CleanAct}
    {cycle' : Option Cycle} (hcycle : cycle.Sound data) (hdata : data.Sound [])
    (hstep : cycle.step data act = some (next, cycle')) :
    data.Becomes [] next ∧ ∀ c ∈ cycle', c.Sound next := by
  have hsame : data.Becomes [] data := ⟨hdata, .refl data⟩
  have hunlink {jobId : String} (succeeds : Bool) (hexpired : data.Expired jobId) :
      data.Becomes [] (if succeeds then data.unlinkFile jobId else data) := by
    cases succeeds with
    | false => exact hsame
    | true => exact hdata.unlinkFile hexpired
  unfold Cycle.step at hstep
  split at hstep
  next jobId rest succeeds =>
    cases hstep
    have hbecomes := hunlink succeeds (hcycle jobId List.mem_cons_self)
    refine ⟨hbecomes, ?_⟩
    rintro _ ⟨⟩
    exact fun id hid => hbecomes.later.expired (hcycle id (List.mem_cons_of_mem _ hid))
  next =>
    cases hstep
    refine ⟨hdata.deleteJobs _, ?_⟩
    rintro _ ⟨⟩
    trivial
  next =>
    cases hstep
    refine ⟨hsame, ?_⟩
    rintro _ ⟨⟩
    exact (sub_add_cancel data.now minAge).le
  next cutoff jobId =>
    split at hstep
    next => cases hstep
    next file hfile =>
      split at hstep
      next hskip =>
        cases hstep
        refine ⟨hsame, ?_⟩
        rintro _ ⟨⟩
        exact hcycle
      next hcheck =>
        cases hstep
        refine ⟨hsame, ?_⟩
        rintro _ ⟨⟩
        obtain ⟨hmem, rfl⟩ := Lib.Table.mem_of_row? hfile
        have hold : file.mtime ≤ cutoff := le_of_not_gt fun h => hcheck (.inl h)
        exact ⟨hcycle, hdata.expired_of_old hmem hcycle hold⟩
  next cutoff jobId succeeds =>
    cases hstep
    have hbecomes := hunlink succeeds hcycle.2
    refine ⟨hbecomes, ?_⟩
    rintro _ ⟨⟩
    exact hcycle.1.trans hbecomes.later.now
  next =>
    cases hstep
    exact ⟨hsame, by simp⟩
  next => cases hstep

/-! ## One step -/

theorem mem_of_mem_putAt {α : Type*} {entries : List α} {index : ℕ} {new : Option α} {entry : α}
    (hentry : entry ∈ putAt entries index new) : entry ∈ entries ∨ entry ∈ new := by
  cases new with
  | none => exact .inl (List.mem_of_mem_eraseIdx hentry)
  | some new =>
      obtain hold | rfl := List.mem_or_eq_of_mem_set hentry
      · exact .inl hold
      · exact .inr rfl

/-- No job is taken for expired before its time: on a whole second none expires
later within that second. -/
def Data.NoneEarly (data : Data) : Prop :=
  ∀ job ∈ data.jobs, ¬ (microOf data.now = 0 ∧ data.now < job.expiresAt ∧
    job.expiresAt / 1000000 = data.now / 1000000)

instance (data : Data) : Decidable data.NoneEarly := by
  unfold Data.NoneEarly
  infer_instance

/-- A cleanup cycle does not read the expired jobs at such a time. -/
def Act.ReadsInTime (state : State) : Act → Prop
  | .cleanup => state.data.NoneEarly
  | _ => True

instance (state : State) (act : Act) : Decidable (act.ReadsInTime state) := by
  cases act <;> unfold Act.ReadsInTime <;> infer_instance

theorem Data.Sound.expired_of_mem {data : Data} (hdata : data.Sound []) (hearly : data.NoneEarly)
    {jobId : String} (hid : jobId ∈ data.getExpiredJobIds data.now) : data.Expired jobId := by
  obtain ⟨job, hjob, rfl⟩ := List.mem_map.mp hid
  obtain ⟨hjob, hbefore⟩ := List.mem_filter.mp hjob
  have hmem : job ∈ data.everyJob := List.mem_append_left _ hjob
  refine ⟨job, hmem, rfl, ?_⟩
  have htext : Db.adaptDatetime job.expiresAt < Db.adaptDatetime data.now := by
    simpa [storedBefore] using hbefore
  rw [adaptDatetime_lt_iff (hdata.dated job hmem).2.2 hdata.clock] at htext
  have hearly := hearly job hjob
  have hmicro := microOf_eq job.expiresAt
  have hmicro' := microOf_eq data.now
  omega

theorem State.Sound.step {state next : State} {act : Act} (hstate : state.Sound)
    (hread : act.ReadsInTime state) (hstep : step state act = some next) :
    next.Sound ∧ state.data.Later next.data := by
  cases act with
  | tick now =>
      simp only [Reports.step] at hstep
      split at hstep
      next hclock =>
        cases hstep
        have hbecomes := hstate.data.tick hclock.1 hclock.2
        exact ⟨hstate.becomes hbecomes, hbecomes.later⟩
      next => cases hstep
  | request jobId target user =>
      simp only [Reports.step] at hstep
      split at hstep
      next => cases hstep
      next hnew =>
        obtain ⟨data, hcreate, rfl⟩ := Option.map_eq_some_iff.mp hstep
        have hbecomes := hstate.data.createReportJob hnew hcreate
        have hnext := hstate.becomes hbecomes
        refine ⟨⟨hnext.data, ?_, hnext.queue, hnext.workers, hnext.writers, hnext.cycles⟩,
          hbecomes.later⟩
        intro id hid
        obtain rfl | hid := List.mem_cons.mp hid
        · exact known_of_createReportJob hcreate
        · exact hnext.requests id hid
  | submit jobId =>
      simp only [Reports.step] at hstep
      split at hstep
      next hmem =>
        cases hstep
        refine ⟨⟨hstate.data, ?_, ?_, hstate.workers, hstate.writers, hstate.cycles⟩, .refl _⟩
        · exact fun id hid => hstate.requests id (List.mem_of_mem_erase hid)
        · intro id hid
          obtain hid | hid := List.mem_append.mp hid
          · exact hstate.queue id hid
          · obtain rfl := List.mem_singleton.mp hid
            exact hstate.requests id hmem
      next => cases hstep
  | submitFails jobId =>
      simp only [Reports.step] at hstep
      split at hstep
      next hmem =>
        cases hstep
        have hfits : JobUpdate.Fits
            { status := some .failed, error := some queueFailedError, completed := true }
            state.data jobId := ⟨by simp, by simp⟩
        have hbecomes := hstate.data.updateReportJob hfits
        have hnext := hstate.becomes hbecomes
        refine ⟨⟨hnext.data, ?_, hnext.queue, hnext.workers, hnext.writers, hnext.cycles⟩,
          hbecomes.later⟩
        exact fun id hid => hnext.requests id (List.mem_of_mem_erase hid)
      next => cases hstep
  | take =>
      simp only [Reports.step] at hstep
      split at hstep
      next => cases hstep
      next jobId rest hqueue =>
        cases hstep
        have hknown (id : String) (hid : id ∈ jobId :: rest) : state.data.Known id :=
          hstate.queue id (hqueue ▸ hid)
        refine ⟨⟨hstate.data, hstate.requests, ?_, ?_, hstate.writers, hstate.cycles⟩, .refl _⟩
        · exact fun id hid => hknown id (List.mem_cons_of_mem _ hid)
        · intro worker hworker
          obtain hworker | hworker := List.mem_append.mp hworker
          · exact hstate.workers worker hworker
          · obtain rfl := List.mem_singleton.mp hworker
            exact ⟨hknown jobId List.mem_cons_self, by simp, by simp⟩
  | work index act =>
      obtain ⟨worker, hworker, hstep⟩ := Option.bind_eq_some_iff.mp hstep
      obtain ⟨⟨data, worker', writer⟩, hwork, rfl⟩ := Option.map_eq_some_iff.mp hstep
      have hmem : worker ∈ state.workers := List.mem_of_getElem? hworker
      obtain ⟨hbecomes, hworker', hwriter⟩ :=
        (hstate.workers worker hmem).step hstate.data hstate.writers hwork
      have hnext := hstate.becomes hbecomes
      refine ⟨⟨hnext.data, hnext.requests, hnext.queue, ?_, ?_, hnext.cycles⟩, hbecomes.later⟩
      · intro other hother
        obtain hold | hnew := mem_of_mem_putAt hother
        · exact hnext.workers other hold
        · exact hworker' other hnew
      · intro other hother
        obtain hold | hnew := List.mem_append.mp hother
        · exact hnext.writers other hold
        · exact hwriter other (Option.mem_toList.mp hnew)
  | write index act =>
      obtain ⟨writer, hwriter, hstep⟩ := Option.bind_eq_some_iff.mp hstep
      obtain ⟨⟨data, writer'⟩, hwrite, rfl⟩ := Option.map_eq_some_iff.mp hstep
      have hmem : writer ∈ state.writers := List.mem_of_getElem? hwriter
      obtain ⟨hbecomes, hwriter'⟩ := (hstate.writers writer hmem).step hstate.data hwrite
      have hnext := hstate.becomes hbecomes
      refine ⟨⟨hnext.data, hnext.requests, hnext.queue, hnext.workers, ?_, hnext.cycles⟩,
        hbecomes.later⟩
      intro other hother
      obtain hold | rfl := List.mem_or_eq_of_mem_set hother
      · exact hnext.writers other hold
      · exact hwriter'
  | lateWrite jobId processing progress =>
      cases hstep
      have hfits : JobUpdate.Fits
          { status := if processing then some .processing else none, progress := some progress }
          state.data jobId := by
        cases processing <;> exact ⟨by simp, by simp⟩
      have hbecomes := hstate.data.updateReportJob hfits
      exact ⟨hstate.becomes hbecomes, hbecomes.later⟩
  | startupSweep =>
      cases hstep
      have hbecomes := hstate.data.markStaleReportJobsFailed
      exact ⟨hstate.becomes hbecomes, hbecomes.later⟩
  | cleanup =>
      cases hstep
      refine ⟨⟨hstate.data, hstate.requests, hstate.queue, hstate.workers, hstate.writers, ?_⟩,
        .refl _⟩
      intro cycle hcycle
      obtain hcycle | hcycle := List.mem_append.mp hcycle
      · exact hstate.cycles cycle hcycle
      · obtain rfl := List.mem_singleton.mp hcycle
        exact fun id hid => hstate.data.expired_of_mem hread hid
  | clean index act =>
      obtain ⟨cycle, hcycle, hstep⟩ := Option.bind_eq_some_iff.mp hstep
      obtain ⟨⟨data, cycle'⟩, hclean, rfl⟩ := Option.map_eq_some_iff.mp hstep
      have hmem : cycle ∈ state.cycles := List.mem_of_getElem? hcycle
      obtain ⟨hbecomes, hcycle'⟩ := Cycle.Sound.step (hstate.cycles cycle hmem) hstate.data hclean
      have hnext := hstate.becomes hbecomes
      refine ⟨⟨hnext.data, hnext.requests, hnext.queue, hnext.workers, hnext.writers, ?_⟩,
        hbecomes.later⟩
      intro other hother
      obtain hold | hnew := mem_of_mem_putAt hother
      · exact hnext.cycles other hold
      · exact hcycle' other hnew
  | deleteTarget target =>
      cases hstep
      have hbecomes := hstate.data.deleteTarget target
      exact ⟨hstate.becomes hbecomes, hbecomes.later⟩
  | restart =>
      cases hstep
      exact ⟨⟨hstate.data, by simp, by simp, by simp, by simp, by simp⟩, .refl _⟩

/-! ## Runs -/

theorem State.sound_run {state final : State} {acts : List Act} (hstate : state.Sound)
    (hok : RunOk step (fun state act => act.ReadsInTime state) state acts)
    (hrun : run step state acts = some final) : final.Sound ∧ state.data.Later final.data := by
  have hinv : ∀ {middle act next}, middle.Sound ∧ state.data.Later middle.data →
      act.ReadsInTime middle → step middle act = some next →
      next.Sound ∧ state.data.Later next.data := by
    intro middle act next hmiddle hread hstep
    obtain ⟨hnext, hlater⟩ := hmiddle.1.step hread hstep
    exact ⟨hnext, hmiddle.2.trans hlater⟩
  exact run_invariant_of hinv hok ⟨hstate, .refl _⟩ hrun

/-- In every run whose cleanup cycles read the expired jobs in time: a status
only moves forward and ends once, a job has one result notification when it has
ended and none before, a completed job that has not expired has the whole file
that was rendered for it, and a file goes only when its job has expired. -/
theorem a_report_job_ends_once_with_its_file {now : Int} (hnow : representable now = true)
    (targets : List (ℕ × String)) {first second : List Act} {middle final : State}
    (hok : RunOk step (fun state act => act.ReadsInTime state) (State.start now targets)
      (first ++ second))
    (hfirst : run step (State.start now targets) first = some middle)
    (hsecond : run step middle second = some final) :
    (∀ job ∈ middle.data.jobs, ∀ later ∈ final.data.jobs, later.jobId = job.jobId →
      Forward job.status later.status) ∧
    (∀ job ∈ final.data.jobs,
      final.data.resultCount job.jobId = if job.status.isOpen then 0 else 1) ∧
    (∀ job ∈ final.data.jobs, job.status = .completed → final.data.now < job.expiresAt →
      ∃ file ∈ final.data.files, file.jobId = job.jobId ∧
        (job.jobId, file.content) ∈ final.data.rendered) ∧
    ∀ act next, step final act = some next → ∀ file ∈ final.data.files,
      (∀ left ∈ next.data.files, left.jobId ≠ file.jobId) → next.data.Expired file.jobId := by
  have hsplit := hok.split hfirst
  obtain ⟨hmiddle, -⟩ := State.sound_run (State.sound_start hnow targets) hsplit.1 hfirst
  obtain ⟨hfinal, hlater⟩ := State.sound_run hmiddle hsplit.2 hsecond
  have hmem (job : ReportJob) (hjob : job ∈ final.data.jobs) : job ∈ final.data.everyJob :=
    List.mem_append_left _ hjob
  refine ⟨?_, ?_, ?_, ?_⟩
  · intro job hjob later hlaterJob hid
    obtain ⟨job', hjob', hsame⟩ := hlater.jobs job (List.mem_append_left _ hjob)
    have hrow : later = job' :=
      hfinal.data.keyed.eq_of_mem (hmem later hlaterJob) hjob' (hid.trans hsame.jobId.symm)
    exact hrow ▸ hsame.status
  · intro job hjob
    have htold := hfinal.data.told job (hmem job hjob)
    simpa using htold
  · intro job hjob hcompleted hlive
    obtain ⟨file, hfile, hid⟩ | ⟨other, hother, hid, hexpired⟩ :=
      hfinal.data.kept job (hmem job hjob) hcompleted
    · exact ⟨file, hfile, hid, hid ▸ (hfinal.data.filed file hfile).1⟩
    · rw [hfinal.data.keyed.eq_of_mem hother (hmem job hjob) hid] at hexpired
      omega
  · intro act next hstep file hfile hgone
    have hread : act.ReadsInTime final ∨ next.data = final.data := by
      cases act with
      | cleanup =>
          cases hstep
          exact .inr rfl
      | _ => exact .inl trivial
    obtain hread | hsame := hread
    · obtain ⟨left, hleft, hid⟩ | hexpired := (hfinal.step hread hstep).2.files file hfile
      · exact absurd hid (hgone left hleft)
      · exact hexpired
    · exact absurd rfl (hgone file (hsame ▸ hfile))

/-- Half a second after noon on 2026-01-01. -/
def noonAndAHalf : Int := 1767268800500000

/-- A job from its request to its result. -/
def reportRun : List Act :=
  [.request "a" 1 7, .submit "a", .take, .work 0 .mark, .work 0 .fetch, .work 0 (.render [37, 80]),
    .work 0 .progress, .work 0 .startWrite, .write 0 (.write 2), .write 0 .replace,
    .work 0 .endWrite, .work 0 (.complete "host.pdf")]

/-- A second after the expiry a cycle takes the job for expired. -/
theorem a_report_job_ends_once_with_its_file_expired :
    ∃ middle final,
      run step (State.start noonAndAHalf [(1, "host")]) reportRun = some middle ∧
      run step middle [.tick (noonAndAHalf + 3601000000), .cleanup, .clean 0 (.remove true)] =
        some final ∧
      (∀ job ∈ middle.data.jobs, ∀ later ∈ final.data.jobs, later.jobId = job.jobId →
        Forward job.status later.status) ∧
      final.data.files = [] := by
  have hnow : representable noonAndAHalf = true := by decide +kernel
  obtain ⟨rest, hrest⟩ : ∃ rest : List Act, rest =
      [.tick (noonAndAHalf + 3601000000), .cleanup, .clean 0 (.remove true)] := ⟨_, rfl⟩
  have hok : RunOk step (fun state act => act.ReadsInTime state)
      (State.start noonAndAHalf [(1, "host")]) (reportRun ++ rest) := by
    rw [hrest]
    decide +kernel
  have hany : ((run step (State.start noonAndAHalf [(1, "host")]) reportRun).any fun middle =>
      (run step middle rest).any fun final => decide (final.data.files = [])) = true := by
    rw [hrest]
    decide +kernel
  obtain ⟨middle, hmiddle, hany⟩ := (Option.any_eq_true ..).mp hany
  obtain ⟨final, hfinal, hfiles⟩ := (Option.any_eq_true ..).mp hany
  rw [← hrest]
  exact ⟨middle, final, hmiddle, hfinal,
    (a_report_job_ends_once_with_its_file hnow _ hok hmiddle hfinal).1, of_decide_eq_true hfiles⟩

/-- On the whole second half a second before the expiry a cycle takes the job for
expired and deletes the file of a completed job. -/
theorem whole_second_loses_the_report :
    ∃ final, run step (State.start noonAndAHalf [(1, "host")])
        (reportRun ++ [.tick (noonAndAHalf + 3599500000), .cleanup, .clean 0 (.remove true)]) =
          some final ∧
      ∃ job ∈ final.data.jobs, job.status = .completed ∧ final.data.now < job.expiresAt ∧
        final.data.files = [] := by
  have hany : (run step (State.start noonAndAHalf [(1, "host")])
      (reportRun ++ [.tick (noonAndAHalf + 3599500000), .cleanup, .clean 0 (.remove true)])).any
        (fun final => final.data.jobs.any (fun job => decide (job.status = .completed) &&
          decide (final.data.now < job.expiresAt)) && decide (final.data.files = [])) = true := by
    decide +kernel
  obtain ⟨final, hrun, hfinal⟩ := (Option.any_eq_true ..).mp hany
  simp only [Bool.and_eq_true, List.any_eq_true, decide_eq_true_eq] at hfinal
  obtain ⟨⟨job, hjob, hcompleted, hlive⟩, hfiles⟩ := hfinal
  exact ⟨final, hrun, job, hjob, hcompleted, hlive, hfiles⟩

end Justup.Reports
