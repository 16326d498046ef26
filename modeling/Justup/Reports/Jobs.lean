import Justup.Db.TargetLock
import Justup.Incidents.Incident

/-!
# Report jobs

The table of report jobs with its result notifications, and the directory of
the PDF files.  Times are microseconds since 1970; the database compares them
by their stored texts.
-/

namespace Justup.Reports

open Justup.Db (storedBefore addSeconds)
open Justup.Incidents (Draft clean titleMax bodyMax)

inductive Status where
  | pending
  | processing
  | completed
  | failed
  deriving DecidableEq, Repr

/-- How far a job is. -/
def Status.rank : Status → ℕ
  | .pending => 0
  | .processing => 1
  | .completed => 2
  | .failed => 2

/-- `status IN ('pending', 'processing')` -/
def Status.isOpen (status : Status) : Bool := status = .pending || status = .processing

structure ReportJob where
  jobId : String
  targetId : ℕ
  status : Status
  progress : ℕ
  filename : Option String
  error : Option String
  createdAt : Int
  completedAt : Option Int
  expiresAt : Int
  userId : Option ℕ
  deriving DecidableEq, Repr

/-- A row of `notifications` that reports on a job. -/
structure Notice extends Draft where
  recipientUserId : ℕ
  targetId : ℕ
  resourceId : String
  deriving DecidableEq, Repr

/-- `{job_id}.pdf` in the storage directory. -/
structure PdfFile where
  jobId : String
  content : List UInt8
  mtime : Int
  deriving DecidableEq, Repr

/-- The database and the storage directory.  `graves` are the rows that were
deleted and `rendered` is what `generate_pdf_report` returned so far, each with its job:
nothing reads them. -/
structure Data where
  now : Int
  /-- id and name -/
  targets : List (ℕ × String)
  jobs : List ReportJob
  notices : List Notice
  files : List PdfFile
  graves : List ReportJob
  rendered : List (String × List UInt8)
  deriving DecidableEq

/-- Every row there ever was. -/
def Data.everyJob (data : Data) : List ReportJob := data.jobs ++ data.graves

/-! ## Notifications -/

/-- The stages that `notify_report` has texts for. -/
inductive Stage where
  | completed
  | failed
  deriving DecidableEq, Repr

def Stage.name : Stage → String
  | .completed => "completed"
  | .failed => "failed"

/-- The stage of a terminal status. -/
def Status.stage? : Status → Option Stage
  | .completed => some .completed
  | .failed => some .failed
  | _ => none

/-- `first or second` of two texts. -/
def orText (first : Option String) (second : String) : String :=
  match first with
  | none => second
  | some text => if text = "" then second else text

/-- `INSERT … ON CONFLICT(idempotency_key) DO NOTHING` -/
def Data.emit (data : Data) (notice : Notice) : Data :=
  if notice.idempotencyKey ∈ data.notices.map fun row => row.idempotencyKey then data
  else { data with notices := data.notices ++ [notice] }

def idempotencyKey (stage : Stage) (jobId : String) : String :=
  "report." ++ stage.name ++ ":" ++ jobId

/-- The row that `notify_report` stores. -/
def reportNotice (now : Int) (stage : Stage) (jobId : String) (user target : ℕ)
    (targetName : String) (filename : Option String) : Notice where
  eventType := "report." ++ stage.name
  category := .reports
  severity :=
    match stage with
    | .completed => .success
    | .failed => .error
  title :=
    match stage with
    | .completed => clean "PDF ready" titleMax
    | .failed => clean "PDF failed" titleMax
  body :=
    match stage with
    | .completed => clean (orText filename targetName) bodyMax
    | .failed => clean targetName bodyMax
  createdAt := now
  resourceType := some .reportJob
  audience := .user
  idempotencyKey := idempotencyKey stage jobId
  recipientUserId := user
  targetId := target
  resourceId := jobId

/-- `notify_report`; a job without an owner notifies nobody. -/
def Data.notifyReport (data : Data) (stage : Stage) (jobId : String) (userId : Option ℕ)
    (target : ℕ) (targetName : String) (filename : Option String) : Data :=
  match userId with
  | none => data
  | some user => data.emit (reportNotice data.now stage jobId user target targetName filename)

/-- `get_report_job` -/
def Data.getReportJob (data : Data) (jobId : String) : Option ReportJob :=
  data.jobs.find? fun row => row.jobId = jobId

/-- The name that the `LEFT JOIN` finds. -/
def Data.targetName (data : Data) (target : ℕ) : Option String :=
  (data.targets.find? fun row => row.1 = target).map Prod.snd

/-- `_notify_report_stage` -/
def Data.notifyReportStage (data : Data) (stage : Stage) (jobId : String) : Data :=
  match data.getReportJob jobId with
  | none => data
  | some row =>
      data.notifyReport stage jobId row.userId row.targetId
        (orText (data.targetName row.targetId) "target") row.filename

/-! ## Rows -/

/-- The row that `create_report_job` inserts. -/
def newReportJob (now : Int) (jobId : String) (target : ℕ) (expiresAt : Int)
    (userId : Option ℕ) : ReportJob where
  jobId := jobId
  targetId := target
  status := .pending
  progress := 0
  filename := none
  error := none
  createdAt := now
  completedAt := none
  expiresAt := expiresAt
  userId := userId

/-- `create_report_job`: none for a job that exists, a target that does not, or
an expiry after the year 9999. -/
def Data.createReportJob (data : Data) (jobId : String) (target : ℕ) (expiresHours : ℕ := 1)
    (userId : Option ℕ := none) : Option Data :=
  if (data.getReportJob jobId).isSome ∨ target ∉ data.targets.map Prod.fst then none
  else
    (addSeconds data.now (expiresHours * 3600)).map fun expiresAt =>
      { data with jobs := data.jobs ++ [newReportJob data.now jobId target expiresAt userId] }

/-- The arguments of `update_report_job`. -/
structure JobUpdate where
  status : Option Status := none
  progress : Option ℕ := none
  filename : Option String := none
  error : Option String := none
  completed : Bool := false

/-- The columns that the `UPDATE` sets. -/
def JobUpdate.apply (update : JobUpdate) (now : Int) (row : ReportJob) : ReportJob :=
  { row with
    status := update.status.getD row.status
    progress := update.progress.getD row.progress
    filename := update.filename.or row.filename
    error := update.error.or row.error
    completedAt := if update.completed then some now else row.completedAt }

/-- The row that the `UPDATE` reaches: a finished job is never rewritten. -/
def reaches (jobId : String) (row : ReportJob) : Bool :=
  row.jobId = jobId && row.status.isOpen

/-- The rows after the `UPDATE`. -/
def Data.updateRows (data : Data) (reached : ReportJob → Bool)
    (change : ReportJob → ReportJob) : Data :=
  { data with jobs := data.jobs.map fun row => if reached row then change row else row }

/-- `update_report_job`; an update of no column changes no row. -/
def Data.updateReportJob (data : Data) (jobId : String) (update : JobUpdate) : Data :=
  let updated := data.updateRows (reaches jobId) (update.apply data.now)
  match update.status.bind Status.stage? with
  | some stage =>
      if data.jobs.any (reaches jobId) then updated.notifyReportStage stage jobId else updated
  | none => updated

/-- The row after `mark_stale_report_jobs_failed`. -/
def markStale (now : Int) (row : ReportJob) : ReportJob :=
  { row with
    status := .failed
    progress := 100
    error := some "Server restarted before job completed"
    completedAt := some now }

/-- `mark_stale_report_jobs_failed` -/
def Data.markStaleReportJobsFailed (data : Data) : Data :=
  let staleIds := (data.jobs.filter fun row => row.status.isOpen).map ReportJob.jobId
  staleIds.foldl (fun data staleId => data.notifyReportStage .failed staleId)
    (data.updateRows (fun row => row.status.isOpen) (markStale data.now))

/-- `get_expired_job_ids` -/
def Data.getExpiredJobIds (data : Data) (now : Int) : List String :=
  (data.jobs.filter fun row => storedBefore row.expiresAt now).map ReportJob.jobId

/-- A `DELETE` of rows. -/
def Data.deleteJobs (data : Data) (gone : ReportJob → Bool) : Data :=
  { data with
    jobs := data.jobs.filter fun row => !gone row
    graves := data.jobs.filter gone ++ data.graves }

/-- `prune_expired_report_jobs` -/
def Data.pruneExpiredReportJobs (data : Data) : Data :=
  data.deleteJobs fun row => storedBefore row.expiresAt data.now

/-- The target with its jobs: `ON DELETE CASCADE`. -/
def Data.deleteTarget (data : Data) (target : ℕ) : Data :=
  { data.deleteJobs fun row => row.targetId = target with
    targets := data.targets.filter fun row => row.1 ≠ target }

/-! ## Files -/

/-- `tmp_path.replace(pdf_path)`; the file keeps the time of its last write. -/
def Data.putFile (data : Data) (file : PdfFile) : Data :=
  { data with files := data.files.filter (fun old => old.jobId ≠ file.jobId) ++ [file] }

/-- `pdf_path.unlink()` -/
def Data.unlinkFile (data : Data) (jobId : String) : Data :=
  { data with files := data.files.filter fun old => old.jobId ≠ jobId }

/-- The file of the job. -/
def Data.pdfFile (data : Data) (jobId : String) : Option PdfFile :=
  data.files.find? fun file => file.jobId = jobId

end Justup.Reports
