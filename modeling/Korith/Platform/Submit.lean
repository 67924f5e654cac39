import Korith.Platform.Ledger
import Korith.Lib.Run

/-!
# Submitting jobs

`ClusterRouter.submit` looks for a job of the organization with the same idempotency key and returns its id if there
is one. Otherwise it inserts a row for the new job, creates the directory of its artifacts, appends two events to it,
enqueues the job and returns its id. Each of these steps may fail, which ends the call; steps of several calls
interleave.
-/

namespace Korith.Submit

open Ledger

variable {J O K F : Type} [DecidableEq J] [DecidableEq O] [DecidableEq K] [DecidableEq F]

inductive Phase
  | insertJob
  | initArtifacts
  | appendAccept
  | appendAssign
  | enqueue
  | return
  deriving DecidableEq

/-- A call behind its lookup. The job id is the one of the job spec or a new one. -/
structure Submission (J O K F : Type) where
  orgId : O
  idempotencyKey : Option K
  jobId : J
  createdAt : Nat
  fingerprintHash : F
  phase : Phase
  deriving DecidableEq

def Submission.row (c : Submission J O K F) : JobRow J O K F :=
  ⟨c.jobId, c.createdAt, c.orgId, c.fingerprintHash, c.idempotencyKey, .queued⟩

/-- An id that a call has returned, with the organization and the key of the call. -/
structure Answer (J O K : Type) where
  orgId : O
  idempotencyKey : Option K
  jobId : J
  deriving DecidableEq

structure State (J O K F : Type) where
  jobs : Jobs J O K F
  enqueued : List J
  returned : List (Answer J O K)
  calls : List (Submission J O K F)
  deriving DecidableEq

def start : State J O K F := ⟨Table.empty, [], [], []⟩

def Matches (orgId : O) (key : K) (r : JobRow J O K F) : Prop := r.idempotencyKey = some key ∧ r.orgId = orgId

instance (orgId : O) (key : K) (r : JobRow J O K F) : Decidable (Matches orgId key r) :=
  inferInstanceAs (Decidable (_ ∧ _))

/-- `find_job_by_idempotency` returns `found`: the newest of the rows, any of them if several are as new. Without a
key there is no lookup. -/
def Finds (jobs : Jobs J O K F) (orgId : O) (key : Option K) (found : Option J) : Prop :=
  match key, found with
  | none, found => found = none
  | some k, none => ∀ r ∈ jobs.rows, ¬ Matches orgId k r
  | some k, some j =>
    ∃ r ∈ jobs.rows, r.jobId = j ∧ Matches orgId k r ∧ ∀ r' ∈ jobs.rows, Matches orgId k r' → r'.createdAt ≤ r.createdAt

instance (jobs : Jobs J O K F) (orgId : O) (key : Option K) (found : Option J) :
    Decidable (Finds jobs orgId key found) :=
  match key, found with
  | none, found => inferInstanceAs (Decidable (found = none))
  | some k, none => inferInstanceAs (Decidable (∀ r ∈ jobs.rows, ¬ Matches orgId k r))
  | some k, some j =>
    inferInstanceAs (Decidable (∃ r ∈ jobs.rows, r.jobId = j ∧ Matches orgId k r ∧
      ∀ r' ∈ jobs.rows, Matches orgId k r' → r'.createdAt ≤ r.createdAt))

inductive Event (J O K F : Type)
  /-- a call begins, and its lookup gives `found` -/
  | lookup (c : Submission J O K F) (found : Option J)
  | advance (c : Submission J O K F)
  /-- the next step of the call raises, and the call with it -/
  | fail (c : Submission J O K F)

def State.proceed (s : State J O K F) (c : Submission J O K F) (phase : Phase) : State J O K F :=
  { s with calls := { c with phase } :: s.calls.erase c }

def State.leave (s : State J O K F) (c : Submission J O K F) : State J O K F :=
  { s with calls := s.calls.erase c }

def advance (s : State J O K F) (c : Submission J O K F) : State J O K F :=
  match c.phase with
  | .insertJob =>
    match insertJob c.row s.jobs with
    | .error _ => s.leave c
    | .ok jobs => { s.proceed c .initArtifacts with jobs }
  | .initArtifacts => s.proceed c .appendAccept
  | .appendAccept => s.proceed c .appendAssign
  | .appendAssign => s.proceed c .enqueue
  | .enqueue => { s.proceed c .return with enqueued := c.jobId :: s.enqueued }
  | .return => { s.leave c with returned := ⟨c.orgId, c.idempotencyKey, c.jobId⟩ :: s.returned }

def step (s : State J O K F) : Event J O K F → Option (State J O K F)
  | .lookup c found =>
    if c.phase = .insertJob ∧ Finds s.jobs c.orgId c.idempotencyKey found then
      match found with
      | some jobId => some { s with returned := ⟨c.orgId, c.idempotencyKey, jobId⟩ :: s.returned }
      | none => some { s with calls := c :: s.calls }
    else none
  | .advance c => if c ∈ s.calls then some (advance s c) else none
  | .fail c => if c ∈ s.calls then some (s.leave c) else none

end Korith.Submit
