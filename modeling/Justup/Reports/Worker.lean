import Justup.Lib.Transition
import Justup.Reports.Jobs
import Justup.Store.Line

/-!
# The PDF worker

Requests, worker loops, the threads that write files, the sweep at the start of
a process and the cleanup cycles, one transaction or file operation at a time.
A loop may be cancelled at any point; a thread that it waited for goes on.
-/

namespace Justup.Reports

open Lib.Transition

def progressProcessing : ℕ := 10
def progressMetricsFetched : ℕ := 40
def progressPdfRendered : ℕ := 90
def progressDone : ℕ := 100

/-- `_QUEUE_FAILED_ERROR` -/
def queueFailedError : String := "PDF job could not be queued"

/-- `min_age_seconds` of `sweep_orphan_pdfs`, in microseconds. -/
def minAge : Int := 3600 * 1000000

/-! ## Jobs in work -/

/-- How far a loop is with its job. -/
inductive WorkPhase where
  | taken
  | marked
  | fetched
  | rendered (pdf : List UInt8)
  | ready (pdf : List UInt8)
  | writing (pdf : List UInt8)
  | written
  deriving DecidableEq

structure Worker where
  jobId : String
  phase : WorkPhase
  deriving DecidableEq

/-- A call of `_atomic_write_bytes`: the temporary file with the number of bytes
in it and the time of the last write, or the end of the call. -/
inductive WritePhase where
  | open (written : ℕ) (mtime : Int)
  | replaced
  | raised
  deriving DecidableEq

structure Writer where
  jobId : String
  pdf : List UInt8
  phase : WritePhase
  deriving DecidableEq

/-- A cycle of `cleanup_loop`; while it sweeps it holds the cutoff. -/
inductive Cycle where
  | removing (expiredIds : List String)
  | pruned
  | sweeping (cutoff : Int)
  | unlinking (cutoff : Int) (jobId : String)
  deriving DecidableEq

structure State where
  data : Data
  /-- Requests between `create_report_job` and `submit`. -/
  requests : List String
  queue : List String
  workers : List Worker
  writers : List Writer
  cycles : List Cycle
  deriving DecidableEq

/-- A database without jobs. -/
def State.start (now : Int) (targets : List (ℕ × String)) : State where
  data := ⟨now, targets, [], [], [], [], []⟩
  requests := []
  queue := []
  workers := []
  writers := []
  cycles := []

/-! ## Actions -/

inductive WorkAct where
  | mark
  | fetch
  | render (pdf : List UInt8)
  | progress
  | startWrite
  | endWrite
  | complete (filename : String)
  /-- Any exception, with its text. -/
  | fail (message : String)
  | cancel

inductive WriteAct where
  /-- So many further bytes. -/
  | write (count : ℕ)
  | replace
  | raise

inductive CleanAct where
  /-- Unlink the file of the next id, which may fail. -/
  | remove (succeeds : Bool)
  | prune
  | sweep
  | examine (jobId : String)
  | unlink (succeeds : Bool)
  | stop

inductive Act where
  | tick (now : Int)
  | request (jobId : String) (target user : ℕ)
  | submit (jobId : String)
  | submitFails (jobId : String)
  | take
  | work (index : ℕ) (act : WorkAct)
  | write (index : ℕ) (act : WriteAct)
  /-- A write of a worker that is long gone. -/
  | lateWrite (jobId : String) (processing : Bool) (progress : ℕ)
  | startupSweep
  | cleanup
  | clean (index : ℕ) (act : CleanAct)
  | deleteTarget (target : ℕ)
  | restart

/-! ## Steps -/

/-- `error_detail`: the exception's text, at most 1000 characters of it. -/
def errorDetail (message : String) : String :=
  String.ofList ((Store.strip message.toList).take 1000)

/-- What the loop does with its job next, and the writer it starts; none for
the phase when it is done with the job. -/
def Worker.step (data : Data) (writers : List Writer) (worker : Worker) :
    WorkAct → Option (Data × Option Worker × Option Writer)
  | .mark =>
      match worker.phase with
      | .taken =>
          some (data.updateReportJob worker.jobId
              { status := some .processing, progress := some progressProcessing },
            some { worker with phase := .marked }, none)
      | _ => none
  | .fetch =>
      match worker.phase with
      | .marked =>
          some (data.updateReportJob worker.jobId { progress := some progressMetricsFetched },
            some { worker with phase := .fetched }, none)
      | _ => none
  | .render pdf =>
      match worker.phase with
      | .fetched =>
          some ({ data with rendered := (worker.jobId, pdf) :: data.rendered },
            some { worker with phase := .rendered pdf }, none)
      | _ => none
  | .progress =>
      match worker.phase with
      | .rendered pdf =>
          some (data.updateReportJob worker.jobId { progress := some progressPdfRendered },
            some { worker with phase := .ready pdf }, none)
      | _ => none
  | .startWrite =>
      match worker.phase with
      | .ready pdf =>
          some (data, some { worker with phase := .writing pdf },
            some ⟨worker.jobId, pdf, .open 0 data.now⟩)
      | _ => none
  | .endWrite =>
      match worker.phase with
      | .writing pdf =>
          if ⟨worker.jobId, pdf, .replaced⟩ ∈ writers then
            some (data, some { worker with phase := .written }, none)
          else none
      | _ => none
  | .complete filename =>
      match worker.phase with
      | .written =>
          some (data.updateReportJob worker.jobId
              { status := some .completed, progress := some progressDone,
                filename := some filename, completed := true },
            none, none)
      | _ => none
  | .fail message =>
      some (data.updateReportJob worker.jobId
          { status := some .failed, progress := some progressDone,
            error := some (errorDetail message), completed := true },
        none, none)
  | .cancel => some (data, none, none)

/-- `_atomic_write_bytes`: the file appears under its name only after the last
byte. -/
def Writer.step (data : Data) (writer : Writer) : WriteAct → Option (Data × Writer)
  | .write count =>
      match writer.phase with
      | .open written _ =>
          some (data, { writer with
            phase := .open (min (written + count) writer.pdf.length) data.now })
      | _ => none
  | .replace =>
      match writer.phase with
      | .open written mtime =>
          if written = writer.pdf.length then
            some (data.putFile ⟨writer.jobId, writer.pdf.take written, mtime⟩,
              { writer with phase := .replaced })
          else none
      | _ => none
  | .raise =>
      match writer.phase with
      | .open _ _ => some (data, { writer with phase := .raised })
      | _ => none

/-- `cleanup_loop` and `sweep_orphan_pdfs` after the expired ids are read; the
database is asked for the row again before each file of the sweep. -/
def Cycle.step (data : Data) : Cycle → CleanAct → Option (Data × Option Cycle)
  | .removing (jobId :: rest), .remove succeeds =>
      some (if succeeds then data.unlinkFile jobId else data, some (.removing rest))
  | .removing [], .prune => some (data.pruneExpiredReportJobs, some .pruned)
  | .pruned, .sweep => some (data, some (.sweeping (data.now - minAge)))
  | .sweeping cutoff, .examine jobId =>
      match data.pdfFile jobId with
      | none => none
      | some file =>
          if file.mtime > cutoff ∨ (data.getReportJob jobId).isSome then
            some (data, some (.sweeping cutoff))
          else some (data, some (.unlinking cutoff jobId))
  | .unlinking cutoff jobId, .unlink succeeds =>
      some (if succeeds then data.unlinkFile jobId else data, some (.sweeping cutoff))
  | _, .stop => some (data, none)
  | _, _ => none

/-- Put an entry in the place of the one at the index, or take that one out. -/
def putAt {α : Type*} (entries : List α) (index : ℕ) : Option α → List α
  | some entry => entries.set index entry
  | none => entries.eraseIdx index

def step (state : State) : Act → Option State
  | .tick now =>
      if state.data.now ≤ now ∧ Store.JsonLine.representable now then
        some { state with data := { state.data with now := now } }
      else none
  | .request jobId target user =>
      -- job ids are never given twice
      if jobId ∈ state.data.everyJob.map ReportJob.jobId then none
      else
        (state.data.createReportJob jobId target 1 (some user)).map fun data =>
          { state with data := data, requests := jobId :: state.requests }
  | .submit jobId =>
      if jobId ∈ state.requests then
        some { state with
          requests := state.requests.erase jobId
          queue := state.queue ++ [jobId] }
      else none
  | .submitFails jobId =>
      if jobId ∈ state.requests then
        some { state with
          data := state.data.updateReportJob jobId
            { status := some .failed, error := some queueFailedError, completed := true }
          requests := state.requests.erase jobId }
      else none
  | .take =>
      match state.queue with
      | [] => none
      | jobId :: rest =>
          some { state with queue := rest, workers := state.workers ++ [⟨jobId, .taken⟩] }
  | .work index act =>
      state.workers[index]?.bind fun worker =>
        (worker.step state.data state.writers act).map fun (data, next, writer) =>
          { state with
            data := data
            workers := putAt state.workers index next
            writers := state.writers ++ writer.toList }
  | .write index act =>
      state.writers[index]?.bind fun writer =>
        (writer.step state.data act).map fun (data, next) =>
          { state with data := data, writers := state.writers.set index next }
  | .lateWrite jobId processing progress =>
      some { state with
        data := state.data.updateReportJob jobId
          { status := if processing then some .processing else none, progress := some progress } }
  | .startupSweep => some { state with data := state.data.markStaleReportJobsFailed }
  | .cleanup =>
      some { state with
        cycles := state.cycles ++ [.removing (state.data.getExpiredJobIds state.data.now)] }
  | .clean index act =>
      state.cycles[index]?.bind fun cycle =>
        (cycle.step state.data act).map fun (data, next) =>
          { state with data := data, cycles := putAt state.cycles index next }
  | .deleteTarget target => some { state with data := state.data.deleteTarget target }
  | .restart =>
      some { state with requests := [], queue := [], workers := [], writers := [], cycles := [] }

end Justup.Reports
