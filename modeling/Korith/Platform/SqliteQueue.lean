import Korith.Lib.Run
import Korith.Lib.Table
import Mathlib.Algebra.Order.Ring.Defs

/-!
# The SQLite job queue

`SQLiteQueue` keeps its jobs in one table. Each method is one transaction, except that `dequeue` first reclaims the
jobs that have been in flight for too long, in a transaction of its own, and then takes the oldest job that its worker
may have. Transactions of all workers interleave.
-/

namespace Korith.Queue

variable {J W T P : Type} [DecidableEq J] [DecidableEq W] [CommRing T] [LinearOrder T]

inductive Status
  | queued
  | inflight
  deriving DecidableEq

structure Row (J W T P : Type) where
  jobId : J
  payload : P
  status : Status
  targetWorkerId : Option W
  workerId : Option W
  enqueuedAt : T
  availableAt : T
  attempts : Nat
  deriving DecidableEq

abbrev SQLiteQueue (J W T P : Type) : Type := Table J (Row J W T P) Row.jobId

/-- Whether jobs are reclaimed and after how many seconds, and how a payload names its worker. -/
structure Config (W T P : Type) where
  reclaimInflight : Bool
  inflightStaleS : T
  targetWorkerId : P → Option W

variable (cfg : Config W T P)

def Config.staleS : T := max 1 cfg.inflightStaleS

/-- The clock is read twice, for the cutoff and for the new `available_at`. -/
def reclaimStaleInflight (now later : T) (q : SQLiteQueue J W T P) : SQLiteQueue J W T P :=
  if cfg.reclaimInflight then
    q.updateWhere (fun r => decide (r.status = .inflight ∧ r.availableAt ≤ now - cfg.staleS))
      (fun r => { r with status := .queued, workerId := none, availableAt := later }) fun _ => rfl
  else q

def enqueue (jobId : J) (payload : P) (now : T) (q : SQLiteQueue J W T P) : SQLiteQueue J W T P :=
  q.insertOrReplace
    { jobId, payload, status := .queued, targetWorkerId := cfg.targetWorkerId payload, workerId := none,
      enqueuedAt := now, availableAt := now, attempts := 0 }

def Deliverable (worker : W) (now : T) (r : Row J W T P) : Prop :=
  r.status = .queued ∧ r.availableAt ≤ now ∧ (r.targetWorkerId = none ∨ r.targetWorkerId = some worker)

instance (worker : W) (now : T) (r : Row J W T P) : Decidable (Deliverable worker now r) :=
  inferInstanceAs (Decidable (_ ∧ _ ∧ _))

/-- `ORDER BY enqueued_at ASC LIMIT 1`. Among rows of the same age any may come first. -/
def Selects (worker : W) (now : T) (q : SQLiteQueue J W T P) (r : Row J W T P) : Prop :=
  Deliverable worker now r ∧ ∀ r' ∈ q.rows, Deliverable worker now r' → r.enqueuedAt ≤ r'.enqueuedAt

instance (worker : W) (now : T) (q : SQLiteQueue J W T P) (r : Row J W T P) : Decidable (Selects worker now q r) :=
  inferInstanceAs (Decidable (_ ∧ _))

def deliver (worker : W) (jobId : J) (q : SQLiteQueue J W T P) : SQLiteQueue J W T P :=
  q.updateWhere (fun r => decide (r.jobId = jobId)) (fun r => { r with status := .inflight, workerId := some worker })
    fun _ => rfl

def ack (jobId : J) (q : SQLiteQueue J W T P) : SQLiteQueue J W T P :=
  q.deleteWhere fun r => decide (r.jobId = jobId)

def retry (jobId : J) (delayS now : T) (q : SQLiteQueue J W T P) : SQLiteQueue J W T P :=
  q.updateWhere (fun r => decide (r.jobId = jobId))
    (fun r => { r with
      status := .queued, workerId := none, availableAt := now + delayS, attempts := r.attempts + 1 })
    fun _ => rfl

/-! ### What a transaction does to one row -/

section Find

set_option linter.unusedSectionVars false

variable {cfg : Config W T P} {q : SQLiteQueue J W T P} {j j' : J} {w : W} {t t' : T} {payload : P}

theorem find_enqueue : (enqueue cfg j payload t q).find j' =
    if j = j' then some ⟨j, payload, .queued, cfg.targetWorkerId payload, none, t, t, 0⟩ else q.find j' :=
  Table.find_insertOrReplace

theorem find_ack : (ack j q).find j' = if j' = j then none else q.find j' := Table.find_deleteKey

theorem find_retry : (retry j t t' q).find j' = if j' = j then (q.find j').map fun r => { r with
      status := .queued, workerId := none, availableAt := t' + t, attempts := r.attempts + 1 }
    else q.find j' := Table.find_updateKey

theorem find_deliver : (deliver w j q).find j' =
    if j' = j then (q.find j').map fun r => { r with status := .inflight, workerId := some w } else q.find j' :=
  Table.find_updateKey

def Stale (cfg : Config W T P) (now : T) (r : Row J W T P) : Prop :=
  cfg.reclaimInflight = true ∧ r.status = .inflight ∧ r.availableAt ≤ now - cfg.staleS
  deriving Decidable

theorem find_reclaim : (reclaimStaleInflight cfg t t' q).find j = (q.find j).map fun r =>
      if Stale cfg t r then { r with status := .queued, workerId := none, availableAt := t' } else r := by
  unfold reclaimStaleInflight
  split_ifs with hreclaim
  · rw [Table.find_updateWhere]
    simp only [Stale, hreclaim, true_and, decide_eq_true_eq]
  · simp [Stale, hreclaim]

end Find

/-! ### Interleavings -/

inductive Event (J W T P : Type)
  | enqueue (jobId : J) (payload : P) (now : T)
  | reclaim (now later : T)
  /-- the transaction of a `dequeue` that hands out `jobId` -/
  | dequeue (worker : W) (jobId : J) (now : T)
  | ack (jobId : J)
  | retry (jobId : J) (delayS now : T)

def Event.readings : Event J W T P → List T
  | enqueue _ _ now => [now]
  | reclaim now later => [now, later]
  | dequeue _ _ now => [now]
  | ack _ => []
  | retry _ _ now => [now]

/-- The effect of an event, if it can happen: a job id is fresh, and `dequeue` hands out what it selects. -/
def step (q : SQLiteQueue J W T P) : Event J W T P → Option (SQLiteQueue J W T P)
  | .enqueue jobId payload now => if q.find jobId = none then some (enqueue cfg jobId payload now q) else none
  | .reclaim now later => some (reclaimStaleInflight cfg now later q)
  | .dequeue worker jobId now =>
    match q.find jobId with
    | some r => if Selects worker now q r then some (deliver worker jobId q) else none
    | none => none
  | .ack jobId => some (ack jobId q)
  | .retry jobId delayS now => some (retry jobId delayS now q)

def run (cfg : Config W T P) : List (Event J W T P) → SQLiteQueue J W T P → Option (SQLiteQueue J W T P) :=
  Run.run (step cfg)

/-- The clock does not go back, and it starts from `now`. -/
def Clocked (now : T) (evs : List (Event J W T P)) : Prop :=
  (now :: evs.flatMap Event.readings).Pairwise (· ≤ ·)

def Event.Settles (jobId : J) : Event J W T P → Prop
  | .ack j => j = jobId
  | .retry j _ _ => j = jobId
  | _ => False

end Korith.Queue
