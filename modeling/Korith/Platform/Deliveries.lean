import Korith.Platform.SqliteQueue
import Korith.Lib.Run

/-!
# Workers of the job queue

`ClusterWorker._loop` takes a job, processes it, and then calls `ack` or, behind an exception, `retry` with the id of
the job. A delivery is what one `dequeue` has handed out; the log of the deliveries is a ghost that tells those of one
job apart, which the queue does not.
-/

namespace Korith.Queue

variable {J W T P : Type} [DecidableEq J] [DecidableEq W] [CommRing T] [LinearOrder T]

structure Delivery (J W : Type) where
  number : Nat
  workerId : W
  jobId : J
  deriving DecidableEq

structure Workers (J W T P : Type) where
  queue : SQLiteQueue J W T P
  /-- all deliveries so far, the newest first -/
  deliveries : List (Delivery J W)
  /-- the items in the lanes of the workers -/
  working : List (Delivery J W)

inductive Act (J W T P : Type)
  | enqueue (jobId : J) (payload : P) (now : T)
  | reclaim (now later : T)
  | dequeue (worker : W) (jobId : J) (now : T)
  | ack (d : Delivery J W)
  | retry (d : Delivery J W) (delayS now : T)
  /-- a worker is gone, with the items in its lanes -/
  | crash (worker : W)

namespace Workers

def start : Workers J W T P := ⟨Table.empty, [], []⟩

def take (worker : W) (jobId : J) (s : Workers J W T P) (q : SQLiteQueue J W T P) : Workers J W T P :=
  let d : Delivery J W := ⟨s.deliveries.length, worker, jobId⟩
  ⟨q, d :: s.deliveries, d :: s.working⟩

def step (cfg : Config W T P) (s : Workers J W T P) : Act J W T P → Option (Workers J W T P)
  | .enqueue jobId payload now =>
    (Queue.step cfg s.queue (.enqueue jobId payload now)).map fun q => { s with queue := q }
  | .reclaim now later => (Queue.step cfg s.queue (.reclaim now later)).map fun q => { s with queue := q }
  | .dequeue worker jobId now => (Queue.step cfg s.queue (.dequeue worker jobId now)).map (s.take worker jobId)
  | .ack d =>
    if d ∈ s.working then
      (Queue.step cfg s.queue (.ack d.jobId)).map fun q => { s with queue := q, working := s.working.erase d }
    else none
  | .retry d delayS now =>
    if d ∈ s.working then
      (Queue.step cfg s.queue (.retry d.jobId delayS now)).map fun q =>
        { s with queue := q, working := s.working.erase d }
    else none
  | .crash worker => some { s with working := s.working.filter fun d => decide (d.workerId ≠ worker) }

def last (s : Workers J W T P) (jobId : J) : Option (Delivery J W) :=
  s.deliveries.find? fun d => decide (d.jobId = jobId)

/-- The job is in flight at the worker of `d`, and was not handed out after `d`. -/
def Holds (s : Workers J W T P) (d : Delivery J W) : Prop :=
  s.last d.jobId = some d ∧
    ∃ r, s.queue.find d.jobId = some r ∧ r.status = .inflight ∧ r.workerId = some d.workerId

instance (s : Workers J W T P) (d : Delivery J W) : Decidable (s.Holds d) :=
  have : Decidable (∃ r, s.queue.find d.jobId = some r ∧ r.status = .inflight ∧ r.workerId = some d.workerId) :=
    match s.queue.find d.jobId with
    | none => .isFalse fun ⟨_, h, _⟩ => by cases h
    | some r =>
      decidable_of_iff (r.status = .inflight ∧ r.workerId = some d.workerId)
        ⟨fun h => ⟨r, rfl, h⟩, fun ⟨_, hr, h⟩ => Option.some.inj hr ▸ h⟩
  inferInstanceAs (Decidable (_ ∧ _))

end Workers

def Act.settles : Act J W T P → Option (Delivery J W)
  | .ack d => some d
  | .retry d _ _ => some d
  | _ => none

end Korith.Queue
