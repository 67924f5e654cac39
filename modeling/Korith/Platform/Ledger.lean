import Korith.Lib.Table

/-!
# The jobs of the ledger

`update_status` reads the status of a job, compares it with the new one by their places in `STATUS_ORDER`, and
writes the new one. The `SELECT` runs outside of a transaction: only the `UPDATE` opens one.
-/

namespace Korith.Ledger

inductive JobStatus
  | queued
  | running
  | succeeded
  | failed
  deriving DecidableEq

def statusOrder : List JobStatus := [.queued, .running, .succeeded, .failed]

def JobStatus.index (s : JobStatus) : Nat := statusOrder.idxOf s

inductive Error
  | valueError (message : String)
  /-- an `INSERT` of a key that is there -/
  | integrityError
  deriving DecidableEq

structure JobRow (J O K F : Type) where
  jobId : J
  createdAt : Nat
  orgId : O
  fingerprintHash : F
  idempotencyKey : Option K
  status : JobStatus
  deriving DecidableEq

abbrev Jobs (J O K F : Type) : Type := Table J (JobRow J O K F) JobRow.jobId

variable {J O K F : Type} [DecidableEq J] {jobs : Jobs J O K F} {newStatus : JobStatus}

def checkStatus (row : Option (JobRow J O K F)) (newStatus : JobStatus) : Except Error Bool :=
  match row with
  | none => .error (.valueError "job not found")
  | some row =>
    if row.status = newStatus then .ok false
    else if newStatus.index < row.status.index then .error (.valueError "status regression not allowed")
    else .ok true

def setStatus (jobId : J) (newStatus : JobStatus) (jobs : Jobs J O K F) : Jobs J O K F :=
  jobs.updateWhere (fun r => decide (r.jobId = jobId)) (fun r => { r with status := newStatus }) fun _ => rfl

def updateStatus (jobId : J) (newStatus : JobStatus) (jobs : Jobs J O K F) : Except Error (Jobs J O K F) :=
  match checkStatus (jobs.find jobId) newStatus with
  | .error e => .error e
  | .ok false => .ok jobs
  | .ok true => .ok (setStatus jobId newStatus jobs)

def insertJob (row : JobRow J O K F) (jobs : Jobs J O K F) : Except Error (Jobs J O K F) :=
  if (jobs.find row.jobId).isSome then .error .integrityError else .ok (jobs.insertOrReplace row)

def statusPlan (args : J × JobStatus) (jobs : Jobs J O K F) : Option (Jobs J O K F → Jobs J O K F) :=
  match checkStatus (jobs.find args.1) args.2 with
  | .ok true => some (setStatus args.1 args.2)
  | _ => none

theorem statusPlan_eq_some {args : J × JobStatus} {f : Jobs J O K F → Jobs J O K F}
    (h : statusPlan args jobs = some f) : f = setStatus args.1 args.2 := by
  simp only [statusPlan] at h
  split at h
  · exact (Option.some.inj h).symm
  · cases h

theorem find_setStatus {jobId j : J} : (setStatus jobId newStatus jobs).find j =
      if j = jobId then (jobs.find j).map fun r => { r with status := newStatus } else jobs.find j :=
  Table.find_updateKey

def status (jobs : Jobs J O K F) (jobId : J) : Option JobStatus := (jobs.find jobId).map JobRow.status

theorem status_setStatus {jobId j : J} : status (setStatus jobId newStatus jobs) j =
      if j = jobId then (status jobs j).map fun _ => newStatus else status jobs j := by
  unfold status
  rw [find_setStatus]
  split_ifs
  · rw [Option.map_map, Option.map_map]
    rfl
  · rfl

end Korith.Ledger
