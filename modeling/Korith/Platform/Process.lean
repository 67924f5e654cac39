import Korith.Lib.Exec
import Korith.Lib.Json
import Korith.Lib.Run
import Korith.Platform.Ledger
import Korith.Platform.SqliteQueue

/-!
# Processing a delivery

`ClusterWorker._process` marks the job as running, runs the adapter, records the run and the snapshot that the adapter
has left, and writes the final status. The loop of the worker acknowledges the job if `_process` returns, and gives it
back for a second if it raises; a worker that dies does neither, and the job comes back when its lease runs out. At
every place at which the code reads or writes files, or asks the adapter, it may raise, or the worker may die there.
Behind the status `RUNNING` the code also makes a `dict` of the job's `spec_cfg`, which nothing has checked before.
-/

namespace Korith.Process

open Ledger Exec

variable {J O K F W T P : Type} [DecidableEq J]

/-- A row of `snapshots`; the worker takes the id of the job for `snapshot_id`. -/
structure SnapshotRow (J O F : Type) where
  snapshotId : J
  orgId : O
  fingerprintHash : F

structure Store (J O K F : Type) where
  jobs : Jobs J O K F
  /-- the rows of `runs`, with their exit codes -/
  runs : List (J × Int)
  snapshots : Table J (SnapshotRow J O F) SnapshotRow.snapshotId
  /-- the jobs that have an `mf_snapshot` file -/
  files : List J

/-- The places at which a delivery may be cut off. -/
inductive Place
  | initJob
  | workerStart
  /-- behind the status `RUNNING`: the adapter is looked up, snapshots are resolved -/
  | setup
  | errorEvent
  /-- behind the status `FAILED` of an adapter that raises -/
  | errorLog
  /-- metrics, governance and the `WORKER_END` event -/
  | metrics
  /-- behind `insert_run` -/
  | runInserted
  /-- behind `insert_snapshot`: restore store, index and the `MF_SNAPSHOT` event -/
  | snapshotInserted
  /-- behind the final status -/
  | finish
  /-- behind `_process`, before the job is acknowledged -/
  | ack
  deriving DecidableEq

inductive Cut
  | pass
  | raise
  | crash
  deriving DecidableEq

inductive Adapter
  | raises (writesSnapshot : Bool)
  | returns (exitCode : Int) (writesSnapshot : Bool)

structure Behaviour where
  cut : Place → Cut
  adapter : Adapter

variable (b : Behaviour)

def Behaviour.Good : Prop :=
  (∀ p, b.cut p = .pass) ∧ ∃ exitCode writes, b.adapter = .returns exitCode writes

inductive Stop
  | raised
  | crashed
  deriving DecidableEq

structure Job (J O F : Type) where
  jobId : J
  orgId : O
  fingerprintHash : F
  specCfg : Json

/-- An item that `dict` takes for a key and a value: two elements, the first of which can be hashed. -/
def isPair : Json → Bool
  | .arr [.arr _, _] => false
  | .arr [.obj _, _] => false
  | .arr [_, _] => true
  | .str s => s.length == 2
  | .obj items => items.length == 2
  | _ => false

/-- Whether `dict(x or {})` returns; `null` is a field that is not there, too. -/
def dictReturns : Json → Bool
  | .null => true
  | .bool b => !b
  | .num repr => repr == pyStr "0" || repr == pyStr "0.0" || repr == pyStr "-0.0"
  | .str s => s.isEmpty
  | .arr items => items.all isPair
  | .obj _ => true

def Job.Readable (job : Job J O F) : Prop := dictReturns job.specCfg = true

abbrev Worker (J O K F α : Type) : Type := Exec (Store J O K F) Stop Empty α

def passes (p : Place) : Worker J O K F Unit :=
  match b.cut p with
  | .pass => pure ()
  | .raise => exit .raised
  | .crash => exit .crashed

def transact (f : Store J O K F → Except Error (Store J O K F)) : Worker J O K F Unit := fun s =>
  match f s with
  | .ok s' => ⟨.ok (), s', []⟩
  | .error _ => ⟨.error .raised, s, []⟩

def setJobStatus (jobId : J) (newStatus : JobStatus) : Worker J O K F Unit :=
  transact fun s => (updateStatus jobId newStatus s.jobs).map fun jobs => { s with jobs }

def insertRun (jobId : J) (exitCode : Int) : Worker J O K F Unit :=
  modify fun s => { s with runs := (jobId, exitCode) :: s.runs }

variable (job : Job J O F)

def insertSnapshot : Worker J O K F Unit :=
  transact fun s =>
    if (s.snapshots.find job.jobId).isSome then .error .integrityError
    else .ok { s with
      snapshots := s.snapshots.insertOrReplace ⟨job.jobId, job.orgId, job.fingerprintHash⟩ }

def writeSnapshot (jobId : J) (writes : Bool) : Worker J O K F Unit :=
  when writes (modify fun s => { s with files := jobId :: s.files })

/-- `Path(artifacts["mf_snapshot"]).exists()`, and what follows if it does. -/
def recordSnapshot : Worker J O K F Unit := do
  let s ← Exec.get
  when (decide (job.jobId ∈ s.files)) do
    insertSnapshot job
    passes b .snapshotInserted

def finalStatus (exitCode : Int) : JobStatus := if exitCode = 0 then .succeeded else .failed

def complete (exitCode : Int) : Worker J O K F Unit := do
  passes b .metrics
  insertRun job.jobId exitCode
  passes b .runInserted
  recordSnapshot b job
  setJobStatus job.jobId (finalStatus exitCode)
  passes b .finish

def failed (b : Behaviour) (job : Job J O F) : Worker J O K F Unit := do
  passes b .errorEvent
  setJobStatus job.jobId .failed
  passes b .errorLog

def runAdapter : Worker J O K F Unit :=
  match b.adapter with
  | .raises writes => do
    writeSnapshot job.jobId writes
    failed b job
  | .returns exitCode writes => do
    writeSnapshot job.jobId writes
    complete b job exitCode

def process : Worker J O K F Unit := do
  passes b .initJob
  passes b .workerStart
  setJobStatus job.jobId .running
  passes b .setup
  when (!dictReturns job.specCfg) (exit .raised)
  runAdapter b job

def attempt : Worker J O K F Unit := do
  process b job
  passes b .ack

/-! ### Deliveries -/

variable [DecidableEq W] [CommRing T] [LinearOrder T]

structure System (J O K F W T P : Type) where
  store : Store J O K F
  queue : Queue.SQLiteQueue J W T P

inductive Event (J O K F W T P : Type)
  /-- a job is inserted and enqueued -/
  | submit (row : JobRow J O K F) (payload : P) (now : T)
  /-- a worker takes the job at `now` and is done with it at `later` -/
  | delivery (worker : W) (job : Job J O F) (b : Behaviour) (now later : T)
  | reclaim (now later : T)

def settle (jobId : J) (later : T) (q : Queue.SQLiteQueue J W T P) : Except Stop Unit → Queue.SQLiteQueue J W T P
  | .ok () => Queue.ack jobId q
  | .error .raised => Queue.retry jobId 1 later q
  | .error .crashed => q

def step (cfg : Queue.Config W T P) (s : System J O K F W T P) : Event J O K F W T P → Option (System J O K F W T P)
  | .submit row payload now =>
    match insertJob row s.store.jobs with
    | .error _ => none
    | .ok jobs =>
      (Queue.step cfg s.queue (.enqueue row.jobId payload now)).map fun q =>
        ⟨{ s.store with jobs }, q⟩
  | .delivery worker job b now later =>
    (Queue.step cfg s.queue (.dequeue worker job.jobId now)).map fun q =>
      ⟨(attempt b job s.store).state, settle job.jobId later q (attempt b job s.store).res⟩
  | .reclaim now later => some { s with queue := Queue.reclaimStaleInflight cfg now later s.queue }

def start : System J O K F W T P := ⟨⟨Table.empty, [], Table.empty, []⟩, Table.empty⟩

end Korith.Process
