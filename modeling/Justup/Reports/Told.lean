import Justup.Lib.Table
import Justup.Reports.Worker

/-!
# What every transaction keeps

Every operation on the data takes the jobs forward only, tells of a job that
ends and of no other, and lets a file go only when its job has expired.
-/

namespace Justup.Reports

open Lib.Table
open Justup.Db (storedBefore addSeconds)
open Justup.Store.JsonLine (representable)

/-! ## What holds of the data -/

/-- The result notifications of a job. -/
def Data.resultCount (data : Data) (jobId : String) : ℕ :=
  data.notices.countP fun notice => notice.resourceId = jobId

def Data.Known (data : Data) (jobId : String) : Prop :=
  ∃ job ∈ data.everyJob, job.jobId = jobId

/-- The job has reached its expiry. -/
def Data.Expired (data : Data) (jobId : String) : Prop :=
  ∃ job ∈ data.everyJob, job.jobId = jobId ∧ job.expiresAt ≤ data.now

/-- The file of the job is there, or is not needed any more. -/
def Data.Kept (data : Data) (jobId : String) : Prop :=
  (∃ file ∈ data.files, file.jobId = jobId) ∨ data.Expired jobId

/-- The data is in order, except that the jobs `owed` have ended and are not
told of yet. -/
structure Data.Sound (data : Data) (owed : List String) : Prop where
  clock : representable data.now = true
  keyed : Keyed ReportJob.jobId data.everyJob
  dated : ∀ job ∈ data.everyJob, job.createdAt ≤ data.now ∧
    job.expiresAt = job.createdAt + minAge ∧ representable job.expiresAt = true
  owned : ∀ job ∈ data.everyJob, job.userId.isSome = true
  told : ∀ job ∈ data.everyJob, data.resultCount job.jobId =
    if job.status.isOpen ∨ job.jobId ∈ owed then 0 else 1
  named : ∀ notice ∈ data.notices, data.Known notice.resourceId ∧
    ∃ stage, notice.idempotencyKey = idempotencyKey stage notice.resourceId
  once : owed.Nodup
  ended : ∀ jobId ∈ owed, ∃ job ∈ data.jobs, job.jobId = jobId ∧ job.status.isOpen = false
  kept : ∀ job ∈ data.everyJob, job.status = .completed → data.Kept job.jobId
  filed : ∀ file ∈ data.files, (file.jobId, file.content) ∈ data.rendered ∧
    ∃ job ∈ data.everyJob, job.jobId = file.jobId ∧ job.createdAt ≤ file.mtime

/-- A status later in the life of a job: the same, or one further on. -/
def Forward (first later : Status) : Prop := later = first ∨ first.rank < later.rank

theorem Forward.refl (status : Status) : Forward status status := .inl rfl

theorem Forward.trans {first middle last : Status} (hfirst : Forward first middle)
    (hlast : Forward middle last) : Forward first last := by
  obtain rfl | hfirst := hfirst
  · exact hlast
  · obtain rfl | hlast := hlast
    · exact .inr hfirst
    · exact .inr (hfirst.trans hlast)

/-- The same job at a later time. -/
structure ReportJob.Later (job later : ReportJob) : Prop where
  jobId : later.jobId = job.jobId
  createdAt : later.createdAt = job.createdAt
  expiresAt : later.expiresAt = job.expiresAt
  userId : later.userId = job.userId
  status : Forward job.status later.status

theorem ReportJob.Later.refl (job : ReportJob) : job.Later job := ⟨rfl, rfl, rfl, rfl, .refl _⟩

theorem ReportJob.Later.trans {job later last : ReportJob} (hfirst : job.Later later)
    (hlast : later.Later last) : job.Later last where
  jobId := hlast.jobId.trans hfirst.jobId
  createdAt := hlast.createdAt.trans hfirst.createdAt
  expiresAt := hlast.expiresAt.trans hfirst.expiresAt
  userId := hlast.userId.trans hfirst.userId
  status := hfirst.status.trans hlast.status

/-- The same data at a later time. -/
structure Data.Later (data later : Data) : Prop where
  now : data.now ≤ later.now
  jobs : ∀ job ∈ data.everyJob, ∃ job' ∈ later.everyJob, job.Later job'
  rendered : ∀ entry ∈ data.rendered, entry ∈ later.rendered
  files : ∀ file ∈ data.files, later.Kept file.jobId

theorem Data.Later.known {data later : Data} (hlater : data.Later later) {jobId : String}
    (hknown : data.Known jobId) : later.Known jobId := by
  obtain ⟨job, hjob, hid⟩ := hknown
  obtain ⟨job', hjob', hsame⟩ := hlater.jobs job hjob
  exact ⟨job', hjob', hsame.jobId.trans hid⟩

theorem Data.Later.expired {data later : Data} (hlater : data.Later later) {jobId : String}
    (hexpired : data.Expired jobId) : later.Expired jobId := by
  obtain ⟨job, hjob, hid, hle⟩ := hexpired
  obtain ⟨job', hjob', hsame⟩ := hlater.jobs job hjob
  refine ⟨job', hjob', hsame.jobId.trans hid, ?_⟩
  rw [hsame.expiresAt]
  exact hle.trans hlater.now

theorem Data.Later.kept {data later : Data} (hlater : data.Later later) {jobId : String}
    (hkept : data.Kept jobId) : later.Kept jobId := by
  obtain ⟨file, hfile, rfl⟩ | hexpired := hkept
  · exact hlater.files file hfile
  · exact .inr (hlater.expired hexpired)

theorem Data.Later.refl (data : Data) : data.Later data where
  now := le_rfl
  jobs job hjob := ⟨job, hjob, .refl job⟩
  rendered _ hentry := hentry
  files file hfile := .inl ⟨file, hfile, rfl⟩

theorem Data.Later.trans {data later last : Data} (hfirst : data.Later later)
    (hlast : later.Later last) : data.Later last where
  now := hfirst.now.trans hlast.now
  jobs := by
    intro job hjob
    obtain ⟨job', hjob', hsame⟩ := hfirst.jobs job hjob
    obtain ⟨job'', hjob'', hsame'⟩ := hlast.jobs job' hjob'
    exact ⟨job'', hjob'', hsame.trans hsame'⟩
  rendered entry hentry := hlast.rendered entry (hfirst.rendered entry hentry)
  files file hfile := hlast.kept (hfirst.files file hfile)

/-- The data stays in order and is the later one. -/
structure Data.Becomes (data : Data) (owed : List String) (later : Data) : Prop where
  sound : later.Sound owed
  later : data.Later later

/-- A row in the table and a deleted one are two jobs. -/
theorem Data.Sound.ne_of_graves {data : Data} {owed : List String} (hsound : data.Sound owed)
    {job grave : ReportJob} (hjob : job ∈ data.jobs) (hgrave : grave ∈ data.graves) :
    job.jobId ≠ grave.jobId := by
  have hkeyed := hsound.keyed
  rw [Data.everyJob, Keyed, List.map_append, List.nodup_append] at hkeyed
  exact hkeyed.2.2 _ (List.mem_map_of_mem hjob) _ (List.mem_map_of_mem hgrave)

/-! ## Rows -/

section UpdateRows

variable {data : Data} {reached : ReportJob → Bool} {change : ReportJob → ReportJob}

/-- What an `UPDATE` may do to the rows it reaches. -/
structure Data.Allows (data : Data) (reached : ReportJob → Bool)
    (change : ReportJob → ReportJob) : Prop where
  isOpen : ∀ row ∈ data.jobs, reached row = true → row.status.isOpen = true
  later : ∀ row ∈ data.jobs, reached row = true → row.Later (change row)
  kept : ∀ row ∈ data.jobs, reached row = true → (change row).status = .completed →
    data.Kept row.jobId

theorem Data.Allows.later_if (hallows : data.Allows reached change) {row : ReportJob}
    (hrow : row ∈ data.jobs) : row.Later (if reached row then change row else row) := by
  split
  next hreached => exact hallows.later row hrow hreached
  next => exact .refl row

/-- A row after the `UPDATE` is a row before it. -/
theorem mem_updateRows {job : ReportJob} (hjob : job ∈ (data.updateRows reached change).everyJob) :
    (∃ row ∈ data.jobs, (if reached row then change row else row) = job) ∨ job ∈ data.graves := by
  obtain hjob | hjob := List.mem_append.mp hjob
  · exact .inl (List.mem_map.mp hjob)
  · exact .inr hjob

theorem Data.Allows.laterRows (hallows : data.Allows reached change) :
    data.Later (data.updateRows reached change) where
  now := le_rfl
  jobs := by
    intro job hjob
    obtain hjob | hjob := List.mem_append.mp hjob
    · exact ⟨_, List.mem_append_left _ (List.mem_map_of_mem hjob), hallows.later_if hjob⟩
    · exact ⟨job, List.mem_append_right _ hjob, .refl job⟩
  rendered _ hentry := hentry
  files file hfile := .inl ⟨file, hfile, rfl⟩

/-- The jobs that an `UPDATE` ends. -/
def Data.ended (data : Data) (reached : ReportJob → Bool) (change : ReportJob → ReportJob) :
    List String :=
  (data.jobs.filter fun row => reached row && !(change row).status.isOpen).map ReportJob.jobId

theorem mem_ended {jobId : String} : jobId ∈ data.ended reached change ↔
    ∃ row ∈ data.jobs, reached row = true ∧ (change row).status.isOpen = false ∧
      row.jobId = jobId := by
  simp [Data.ended, and_assoc]

theorem Data.Sound.updateRows (hsound : data.Sound []) (hallows : data.Allows reached change) :
    data.Becomes (data.ended reached change) (data.updateRows reached change) := by
  have hlater := hallows.laterRows
  have hids : (data.jobs.map fun row => if reached row then change row else row).map
      ReportJob.jobId = data.jobs.map ReportJob.jobId := by
    rw [List.map_map]
    exact List.map_congr_left fun row hrow => (hallows.later_if hrow).jobId
  refine ⟨⟨hsound.clock, ?_, ?_, ?_, ?_, ?_, ?_, ?_, ?_, ?_⟩, hlater⟩
  · have hkeyed := hsound.keyed
    rw [Data.everyJob, Keyed, List.map_append] at hkeyed ⊢
    exact hids ▸ hkeyed
  · intro job hjob
    obtain ⟨row, hrow, rfl⟩ | hgrave := mem_updateRows hjob
    · have hsame := hallows.later_if hrow
      rw [hsame.createdAt, hsame.expiresAt]
      exact hsound.dated row (List.mem_append_left _ hrow)
    · exact hsound.dated job (List.mem_append_right _ hgrave)
  · intro job hjob
    obtain ⟨row, hrow, rfl⟩ | hgrave := mem_updateRows hjob
    · rw [(hallows.later_if hrow).userId]
      exact hsound.owned row (List.mem_append_left _ hrow)
    · exact hsound.owned job (List.mem_append_right _ hgrave)
  · intro job hjob
    obtain ⟨row, hrow, rfl⟩ | hgrave := mem_updateRows hjob
    · have htold := hsound.told row (List.mem_append_left _ hrow)
      rw [(hallows.later_if hrow).jobId]
      refine htold.trans (if_congr ?_ rfl rfl)
      by_cases hreached : reached row = true
      · have hopen := hallows.isOpen row hrow hreached
        have hend : (change row).status.isOpen = false →
            row.jobId ∈ data.ended reached change :=
          fun hclosed => mem_ended.mpr ⟨row, hrow, hreached, hclosed, rfl⟩
        simp only [hopen, hreached, if_true, true_or, true_iff]
        cases hchanged : (change row).status.isOpen with
        | true => exact .inl rfl
        | false => exact .inr (hend hchanged)
      · have hnot : row.jobId ∉ data.ended reached change := by
          intro hmem
          obtain ⟨other, hother, hreached', -, hid⟩ := mem_ended.mp hmem
          have hrows := hsound.keyed.sublist (List.sublist_append_left data.jobs data.graves)
          rw [hrows.eq_of_mem hother hrow hid] at hreached'
          exact hreached hreached'
        simp [hreached, hnot]
    · have htold := hsound.told job (List.mem_append_right _ hgrave)
      have hnot : job.jobId ∉ data.ended reached change := by
        intro hmem
        obtain ⟨other, hother, -, -, hid⟩ := mem_ended.mp hmem
        exact hsound.ne_of_graves hother hgrave hid
      refine htold.trans (if_congr ?_ rfl rfl)
      simp [hnot]
  · intro notice hnotice
    obtain ⟨hknown, hkey⟩ := hsound.named notice hnotice
    exact ⟨hlater.known hknown, hkey⟩
  · have hrows := hsound.keyed.sublist (List.sublist_append_left data.jobs data.graves)
    exact hrows.filter _
  · intro jobId hended
    obtain ⟨row, hrow, hreached, hclosed, hid⟩ := mem_ended.mp hended
    refine ⟨change row, ?_, (hallows.later row hrow hreached).jobId.trans hid, hclosed⟩
    exact List.mem_map.mpr ⟨row, hrow, if_pos hreached⟩
  · intro job hjob hcompleted
    obtain ⟨row, hrow, rfl⟩ | hgrave := mem_updateRows hjob
    · rw [(hallows.later_if hrow).jobId]
      refine hlater.kept ?_
      by_cases hreached : reached row = true
      · rw [if_pos hreached] at hcompleted
        exact hallows.kept row hrow hreached hcompleted
      · rw [if_neg hreached] at hcompleted
        exact hsound.kept row (List.mem_append_left _ hrow) hcompleted
    · exact hlater.kept (hsound.kept job (List.mem_append_right _ hgrave) hcompleted)
  · intro file hfile
    obtain ⟨hrendered, job, hjob, hid, hle⟩ := hsound.filed file hfile
    obtain ⟨job', hjob', hsame⟩ := hlater.jobs job hjob
    exact ⟨hrendered, job', hjob', hsame.jobId.trans hid, hsame.createdAt.trans_le hle⟩

end UpdateRows

/-! ## Notifications -/

theorem idempotencyKey_inj {stage stage' : Stage} {jobId jobId' : String}
    (hkey : idempotencyKey stage jobId = idempotencyKey stage' jobId') : jobId = jobId' := by
  have hchars := congrArg String.toList hkey
  cases stage <;> cases stage' <;>
    simp [idempotencyKey, Stage.name, String.toList_inj] at hchars <;> exact hchars

theorem Data.Sound.notifyReportStage {data : Data} {jobId : String} {rest : List String}
    (hsound : data.Sound (jobId :: rest)) (stage : Stage) :
    data.Becomes rest (data.notifyReportStage stage jobId) := by
  obtain ⟨hnew, hrest⟩ := List.nodup_cons.mp hsound.once
  obtain ⟨row, hrow, hid, hclosed⟩ := hsound.ended jobId List.mem_cons_self
  have hnone : data.resultCount jobId = 0 := by
    have htold := hsound.told row (List.mem_append_left _ hrow)
    rwa [hid, if_pos (.inr List.mem_cons_self)] at htold
  obtain ⟨user, huser⟩ := Option.isSome_iff_exists.mp (hsound.owned row (List.mem_append_left _ hrow))
  have hrows := hsound.keyed.sublist (List.sublist_append_left data.jobs data.graves)
  have hget : data.getReportJob jobId = some row := hid ▸ row?_of_mem hrows hrow
  obtain ⟨notice, hnotice, hkey, hresource⟩ : ∃ notice : Notice,
      data.notifyReportStage stage jobId = data.emit notice ∧
        notice.idempotencyKey = idempotencyKey stage jobId ∧ notice.resourceId = jobId := by
    simp only [Data.notifyReportStage, hget, Data.notifyReport, huser]
    exact ⟨_, rfl, rfl, rfl⟩
  have hfresh : notice.idempotencyKey ∉ data.notices.map fun row => row.idempotencyKey := by
    intro hmem
    obtain ⟨other, hother, hsame⟩ := List.mem_map.mp hmem
    obtain ⟨-, stage', hkey'⟩ := hsound.named other hother
    have hresource' := idempotencyKey_inj (hkey'.symm.trans (hsame.trans hkey))
    exact absurd hresource' (by simpa using List.countP_eq_zero.mp hnone other hother)
  have hstored : data.notifyReportStage stage jobId =
      { data with notices := data.notices ++ [notice] } := by
    rw [hnotice, Data.emit, if_neg hfresh]
  rw [hstored]
  have hcount (id : String) : Data.resultCount { data with notices := data.notices ++ [notice] } id =
      data.resultCount id + if jobId = id then 1 else 0 := by
    simp [Data.resultCount, List.countP_append, hresource]
  refine ⟨⟨hsound.clock, hsound.keyed, hsound.dated, hsound.owned, ?_, ?_, hrest, ?_,
    hsound.kept, hsound.filed⟩, ?_⟩
  · intro job hjob
    rw [hcount, hsound.told job hjob]
    by_cases hsame : jobId = job.jobId
    · have hjobrow : job = row := hsound.keyed.eq_of_mem hjob (List.mem_append_left _ hrow)
        (hsame.symm.trans hid.symm)
      rw [hjobrow, hid]
      simp [hclosed, hnew]
    · have hother : job.jobId ≠ jobId := fun h => hsame h.symm
      simp [hsame, hother]
  · intro other hother
    obtain hother | hother := List.mem_append.mp hother
    · exact hsound.named other hother
    · obtain rfl := List.mem_singleton.mp hother
      exact ⟨hresource ▸ ⟨row, List.mem_append_left _ hrow, hid⟩, stage, hresource ▸ hkey⟩
  · intro id hmem
    exact hsound.ended id (List.mem_cons_of_mem _ hmem)
  · exact ⟨le_rfl, fun job hjob => ⟨job, hjob, .refl job⟩, fun _ hentry => hentry,
      fun file hfile => .inl ⟨file, hfile, rfl⟩⟩

/-- Telling of every job that is owed. -/
theorem Data.Sound.notifyAll {owed : List String} {data : Data} (hsound : data.Sound owed)
    (stage : Stage) :
    data.Becomes [] (owed.foldl (fun data jobId => data.notifyReportStage stage jobId) data) := by
  induction owed generalizing data with
  | nil => exact ⟨hsound, .refl data⟩
  | cons jobId rest ih =>
      have hfirst := hsound.notifyReportStage stage
      have hall := ih hfirst.sound
      exact ⟨hall.sound, hfirst.later.trans hall.later⟩

/-! ## Transactions -/

/-- The updates that the program makes of a job: it never goes back to pending,
and it is completed only with its file. -/
structure JobUpdate.Fits (update : JobUpdate) (data : Data) (jobId : String) : Prop where
  started : update.status ≠ some .pending
  kept : update.status = some .completed → data.Kept jobId

theorem reaches_iff {jobId : String} {row : ReportJob} :
    reaches jobId row = true ↔ row.jobId = jobId ∧ row.status.isOpen = true := by
  simp [reaches]

theorem JobUpdate.Fits.allows {update : JobUpdate} {data : Data} {jobId : String}
    (hfits : update.Fits data jobId) :
    data.Allows (reaches jobId) (update.apply data.now) where
  isOpen row _ hreached := (reaches_iff.mp hreached).2
  later row _ hreached := by
    refine ⟨rfl, rfl, rfl, rfl, ?_⟩
    have hopen := (reaches_iff.mp hreached).2
    have hstarted := hfits.started
    simp only [JobUpdate.apply]
    generalize row.status = old at hopen ⊢
    generalize update.status = new at hstarted ⊢
    cases new with
    | none => exact .refl old
    | some new =>
        revert hopen hstarted
        cases old <;> cases new <;> simp [Forward, Status.rank, Status.isOpen]
  kept row _ hreached hcompleted := by
    obtain ⟨hid, hopen⟩ := reaches_iff.mp hreached
    rw [hid]
    refine hfits.kept ?_
    revert hcompleted
    simp only [JobUpdate.apply]
    cases hstatus : update.status with
    | none =>
        intro hcompleted
        rw [Option.getD_none] at hcompleted
        simp [hcompleted, Status.isOpen] at hopen
    | some new => exact fun hcompleted => congrArg some hcompleted

theorem Status.stage?_isOpen (status : Status) : status.stage?.isSome = !status.isOpen := by
  cases status <;> rfl

theorem Data.Sound.updateReportJob {data : Data} {jobId : String} {update : JobUpdate}
    (hsound : data.Sound []) (hfits : update.Fits data jobId) :
    data.Becomes [] (data.updateReportJob jobId update) := by
  have hbecomes := hsound.updateRows hfits.allows
  cases hstage : update.status.bind Status.stage? with
  | none =>
      have hended : data.ended (reaches jobId) (update.apply data.now) = [] := by
        rw [List.eq_nil_iff_forall_not_mem]
        intro id hid
        obtain ⟨row, -, hreached, hclosed, -⟩ := mem_ended.mp hid
        have hopen := (reaches_iff.mp hreached).2
        cases hstatus : update.status with
        | none => simp [JobUpdate.apply, hstatus, hopen] at hclosed
        | some status =>
            rw [hstatus, Option.bind_some] at hstage
            have hsome := status.stage?_isOpen
            simp only [JobUpdate.apply, hstatus, Option.getD_some] at hclosed
            simp [hstage, hclosed] at hsome
      rw [Data.updateReportJob, hstage, ← hended]
      exact hbecomes
  | some stage =>
      obtain ⟨status, hstatus, hsome⟩ := Option.bind_eq_some_iff.mp hstage
      have hclosed : status.isOpen = false := by
        have hiff := status.stage?_isOpen
        rw [hsome] at hiff
        simpa using hiff
      have hmem (id : String) : id ∈ data.ended (reaches jobId) (update.apply data.now) ↔
          data.jobs.any (reaches jobId) = true ∧ id = jobId := by
        rw [mem_ended, List.any_eq_true]
        constructor
        · rintro ⟨row, hrow, hreached, -, rfl⟩
          exact ⟨⟨row, hrow, hreached⟩, (reaches_iff.mp hreached).1⟩
        · rintro ⟨⟨row, hrow, hreached⟩, rfl⟩
          have hchanged : (update.apply data.now row).status = status := by
            simp [JobUpdate.apply, hstatus]
          exact ⟨row, hrow, hreached, hchanged ▸ hclosed, (reaches_iff.mp hreached).1⟩
      simp only [Data.updateReportJob, hstage]
      split
      next hany =>
        have hone : data.ended (reaches jobId) (update.apply data.now) = [jobId] := by
          refine List.perm_singleton.mp ?_
          rw [List.perm_ext_iff_of_nodup hbecomes.sound.once (List.nodup_singleton jobId)]
          simp [hmem, hany]
        rw [hone] at hbecomes
        have htold := hbecomes.sound.notifyReportStage stage
        exact ⟨htold.sound, hbecomes.later.trans htold.later⟩
      next hany =>
        have hnil : data.ended (reaches jobId) (update.apply data.now) = [] := by
          rw [List.eq_nil_iff_forall_not_mem]
          exact fun id hid => hany ((hmem id).mp hid).1
        rwa [hnil] at hbecomes

theorem Data.Sound.markStaleReportJobsFailed {data : Data} (hsound : data.Sound []) :
    data.Becomes [] data.markStaleReportJobsFailed := by
  have hallows : data.Allows (fun row => row.status.isOpen) (markStale data.now) := by
    refine ⟨fun _ _ hopen => hopen, fun row _ hopen => ⟨rfl, rfl, rfl, rfl, .inr ?_⟩, ?_⟩
    · revert hopen
      simp only [markStale]
      cases row.status <;> simp [Status.isOpen, Status.rank]
    · exact fun _ _ _ hcompleted => Status.noConfusion hcompleted
  have hrows := hsound.updateRows hallows
  have hended : data.ended (fun row => row.status.isOpen) (markStale data.now) =
      (data.jobs.filter fun row => row.status.isOpen).map ReportJob.jobId := by
    simp [Data.ended, markStale, Status.isOpen]
  rw [hended] at hrows
  have htold := hrows.sound.notifyAll .failed
  exact ⟨htold.sound, hrows.later.trans htold.later⟩

theorem Data.Sound.tick {data : Data} (hsound : data.Sound []) {now : Int}
    (hle : data.now ≤ now) (hnow : representable now = true) :
    data.Becomes [] { data with now := now } := by
  have hlater : data.Later { data with now := now } :=
    ⟨hle, fun job hjob => ⟨job, hjob, .refl job⟩, fun _ hentry => hentry,
      fun file hfile => .inl ⟨file, hfile, rfl⟩⟩
  refine ⟨⟨hnow, hsound.keyed, ?_, hsound.owned, hsound.told, hsound.named, hsound.once,
    hsound.ended, ?_, hsound.filed⟩, hlater⟩
  · intro job hjob
    obtain ⟨hcreated, hrest⟩ := hsound.dated job hjob
    exact ⟨hcreated.trans hle, hrest⟩
  · exact fun job hjob hcompleted => hlater.kept (hsound.kept job hjob hcompleted)

theorem Data.Sound.render {data : Data} (hsound : data.Sound []) (entry : String × List UInt8) :
    data.Becomes [] { data with rendered := entry :: data.rendered } := by
  refine ⟨⟨hsound.clock, hsound.keyed, hsound.dated, hsound.owned, hsound.told, hsound.named,
    hsound.once, hsound.ended, hsound.kept, ?_⟩, ?_⟩
  · intro file hfile
    obtain ⟨hrendered, hjob⟩ := hsound.filed file hfile
    exact ⟨List.mem_cons_of_mem _ hrendered, hjob⟩
  · exact ⟨le_rfl, fun job hjob => ⟨job, hjob, .refl job⟩,
      fun _ hentry => List.mem_cons_of_mem _ hentry, fun file hfile => .inl ⟨file, hfile, rfl⟩⟩

theorem Data.Sound.createReportJob {data created : Data} (hsound : data.Sound [])
    {jobId : String} {target user : ℕ} (hnew : jobId ∉ data.everyJob.map ReportJob.jobId)
    (hcreate : data.createReportJob jobId target 1 (some user) = some created) :
    data.Becomes [] created := by
  unfold Data.createReportJob at hcreate
  split at hcreate
  next => cases hcreate
  next =>
    obtain ⟨expiresAt, hexpires, rfl⟩ := Option.map_eq_some_iff.mp hcreate
    obtain ⟨hdate, hvalue⟩ : representable expiresAt = true ∧ expiresAt = data.now + minAge := by
      unfold addSeconds at hexpires
      split at hexpires
      next hdate =>
        obtain rfl := Option.some.inj hexpires
        exact ⟨hdate, rfl⟩
      next => cases hexpires
    have hmem {job : ReportJob} {new : ReportJob} :
        job ∈ (data.jobs ++ [new]) ++ data.graves ↔ job = new ∨ job ∈ data.everyJob := by
      simp only [Data.everyJob, List.mem_append, List.mem_singleton]
      tauto
    obtain ⟨new, hrow⟩ : ∃ new, new = newReportJob data.now jobId target expiresAt (some user) :=
      ⟨_, rfl⟩
    rw [← hrow]
    have hid : new.jobId = jobId := hrow ▸ rfl
    have hlater : data.Later { data with jobs := data.jobs ++ [new] } :=
      ⟨le_rfl, fun job hjob => ⟨job, hmem.mpr (.inr hjob), .refl job⟩, fun _ hentry => hentry,
        fun file hfile => .inl ⟨file, hfile, rfl⟩⟩
    refine ⟨⟨hsound.clock, ?_, ?_, ?_, ?_, ?_, hsound.once, ?_, ?_, ?_⟩, hlater⟩
    · have hkeyed : Keyed ReportJob.jobId (new :: data.everyJob) :=
        List.nodup_cons.mpr ⟨hid ▸ hnew, hsound.keyed⟩
      refine (List.Perm.nodup_iff (List.Perm.map _ ?_)).mp hkeyed
      rw [Data.everyJob, Data.everyJob, List.append_assoc]
      exact List.perm_middle.symm
    · intro job hjob
      obtain rfl | hjob := hmem.mp hjob
      · rw [hrow]
        exact ⟨le_rfl, hvalue, hdate⟩
      · exact hsound.dated job hjob
    · intro job hjob
      obtain rfl | hjob := hmem.mp hjob
      · rw [hrow]
        rfl
      · exact hsound.owned job hjob
    · intro job hjob
      obtain rfl | hjob := hmem.mp hjob
      · have hpending : job.status.isOpen = true := hrow ▸ rfl
        rw [if_pos (.inl hpending)]
        refine List.countP_eq_zero.mpr fun notice hnotice => ?_
        obtain ⟨⟨row, hmem, hknown⟩, -⟩ := hsound.named notice hnotice
        simpa using fun hsame => hnew (List.mem_map.mpr ⟨row, hmem, hknown.trans (hsame.trans hid)⟩)
      · exact hsound.told job hjob
    · intro notice hnotice
      obtain ⟨hknown, hkey⟩ := hsound.named notice hnotice
      exact ⟨hlater.known hknown, hkey⟩
    · exact fun _ hid => absurd hid (List.not_mem_nil)
    · intro job hjob hcompleted
      obtain rfl | hjob := hmem.mp hjob
      · rw [hrow] at hcompleted
        cases hcompleted
      · exact hlater.kept (hsound.kept job hjob hcompleted)
    · intro file hfile
      obtain ⟨hrendered, job, hjob, hsame⟩ := hsound.filed file hfile
      exact ⟨hrendered, job, hmem.mpr (.inr hjob), hsame⟩

theorem known_of_createReportJob {data created : Data} {jobId : String} {target hours : ℕ}
    {userId : Option ℕ} (hcreate : data.createReportJob jobId target hours userId = some created) :
    created.Known jobId := by
  unfold Data.createReportJob at hcreate
  split at hcreate
  next => cases hcreate
  next =>
    obtain ⟨expiresAt, -, rfl⟩ := Option.map_eq_some_iff.mp hcreate
    exact ⟨newReportJob data.now jobId target expiresAt userId, by simp [Data.everyJob], rfl⟩

/-- A `DELETE` moves rows to the graves. -/
theorem Data.Sound.deleteJobs {data : Data} (hsound : data.Sound []) (gone : ReportJob → Bool) :
    data.Becomes [] (data.deleteJobs gone) := by
  have hperm : (data.deleteJobs gone).everyJob.Perm data.everyJob := by
    rw [Data.everyJob, Data.everyJob, Data.deleteJobs, ← List.append_assoc]
    refine List.Perm.append_right _ ?_
    exact List.perm_append_comm.trans (List.filter_append_perm gone data.jobs)
  have hlater : data.Later (data.deleteJobs gone) :=
    ⟨le_rfl, fun job hjob => ⟨job, hperm.mem_iff.mpr hjob, .refl job⟩, fun _ hentry => hentry,
      fun file hfile => .inl ⟨file, hfile, rfl⟩⟩
  refine ⟨⟨hsound.clock, ?_, ?_, ?_, ?_, ?_, hsound.once, ?_, ?_, ?_⟩, hlater⟩
  · exact (List.Perm.nodup_iff (hperm.map _)).mpr hsound.keyed
  · exact fun job hjob => hsound.dated job (hperm.mem_iff.mp hjob)
  · exact fun job hjob => hsound.owned job (hperm.mem_iff.mp hjob)
  · exact fun job hjob => hsound.told job (hperm.mem_iff.mp hjob)
  · intro notice hnotice
    obtain ⟨hknown, hkey⟩ := hsound.named notice hnotice
    exact ⟨hlater.known hknown, hkey⟩
  · exact fun _ hid => absurd hid (List.not_mem_nil)
  · exact fun job hjob hcompleted =>
      hlater.kept (hsound.kept job (hperm.mem_iff.mp hjob) hcompleted)
  · intro file hfile
    obtain ⟨hrendered, job, hjob, hsame⟩ := hsound.filed file hfile
    exact ⟨hrendered, job, hperm.mem_iff.mpr hjob, hsame⟩

theorem Data.Sound.deleteTarget {data : Data} (hsound : data.Sound []) (target : ℕ) :
    data.Becomes [] (data.deleteTarget target) := by
  have hjobs := hsound.deleteJobs fun row => row.targetId = target
  obtain ⟨⟨hclock, hkeyed, hdated, howned, htold, hnamed, honce, hended, hkept, hfiled⟩,
    ⟨hnow, hlater, hrendered, hfiles⟩⟩ := hjobs
  exact ⟨⟨hclock, hkeyed, hdated, howned, htold, hnamed, honce, hended, hkept, hfiled⟩,
    ⟨hnow, hlater, hrendered, hfiles⟩⟩

/-! ## Files -/

theorem Data.Sound.putFile {data : Data} (hsound : data.Sound []) {file : PdfFile}
    (hrendered : (file.jobId, file.content) ∈ data.rendered)
    (hjob : ∃ job ∈ data.everyJob, job.jobId = file.jobId ∧ job.createdAt ≤ file.mtime) :
    data.Becomes [] (data.putFile file) := by
  have hlater : data.Later (data.putFile file) := by
    refine ⟨le_rfl, fun job hjob => ⟨job, hjob, .refl job⟩, fun _ hentry => hentry, ?_⟩
    intro old hold
    by_cases hsame : old.jobId = file.jobId
    · exact .inl ⟨file, by simp [Data.putFile], hsame.symm⟩
    · exact .inl ⟨old, by simp [Data.putFile, hold, hsame], rfl⟩
  refine ⟨⟨hsound.clock, hsound.keyed, hsound.dated, hsound.owned, hsound.told, hsound.named,
    hsound.once, hsound.ended, ?_, ?_⟩, hlater⟩
  · exact fun job hjob hcompleted => hlater.kept (hsound.kept job hjob hcompleted)
  · intro other hother
    obtain hother | hother := List.mem_append.mp hother
    · exact hsound.filed other (List.mem_filter.mp hother).1
    · obtain rfl := List.mem_singleton.mp hother
      exact ⟨hrendered, hjob⟩

/-- The file of an expired job may go. -/
theorem Data.Sound.unlinkFile {data : Data} (hsound : data.Sound []) {jobId : String}
    (hexpired : data.Expired jobId) : data.Becomes [] (data.unlinkFile jobId) := by
  have hlater : data.Later (data.unlinkFile jobId) := by
    refine ⟨le_rfl, fun job hjob => ⟨job, hjob, .refl job⟩, fun _ hentry => hentry, ?_⟩
    intro old hold
    by_cases hsame : old.jobId = jobId
    · exact .inr (hsame ▸ hexpired)
    · exact .inl ⟨old, by simp [Data.unlinkFile, hold, hsame], rfl⟩
  refine ⟨⟨hsound.clock, hsound.keyed, hsound.dated, hsound.owned, hsound.told, hsound.named,
    hsound.once, hsound.ended, ?_, ?_⟩, hlater⟩
  · exact fun job hjob hcompleted => hlater.kept (hsound.kept job hjob hcompleted)
  · exact fun other hother => hsound.filed other (List.mem_filter.mp hother).1

end Justup.Reports
