import Korith.Lib.Run
import Korith.Lib.Stream
import Korith.Platform.SqliteQueue

/-!
# The queue backends

Four classes implement `QueueBase`. `SQLiteQueue` keeps all it knows of a job in the row of the job; `InProcQueue` has
queues in memory, one for each worker and one for all; `RedisQueue` and `RedisStreamsQueue` add to the streams of a
Redis server, by the worker or by the node of the job, and remember in the process of the worker what it was handed.

A worker acknowledges a job or gives it back only after it was handed it, and no job id is enqueued twice.
-/

namespace Korith.Backends

variable {J T R : Type} [DecidableEq J] [DecidableEq R] [CommRing T] [LinearOrder T]

/-- What the router has put in, and the two keys that `RedisStreamsQueue.retry` writes. -/
structure Payload (T R : Type) where
  content : R
  attempts : Option Nat
  enqueuedAt : Option T
  deriving DecidableEq

structure Item (J T R : Type) where
  jobId : J
  payload : Payload T R
  enqueuedAt : T
  attempts : Nat
  deriving DecidableEq

structure Config (T R : Type) where
  /-- `payload.get("target_worker_id")` -/
  targetWorkerId : R → Option String
  /-- `str(payload.get("target_node_id", "") or "")` -/
  targetNodeId : R → String
  /-- the content of `{}` -/
  noContent : R
  strip : String → String
  /-- `_node_id` in the process of a worker -/
  nodeId : String → String
  reclaimInflight : Bool
  inflightStaleS : T

structure Backend (J T R : Type) where
  State : Type
  start : State
  enqueue : J → Payload T R → T → State → State
  /-- a `dequeue` of this worker at this time hands out the item -/
  dequeue : String → Item J T R → T → State → Option State
  ack : String → J → State → State
  /-- the job, the delay and the time of the call -/
  retry : String → J → T → T → State → State
  /-- when `retry` is done, from the delay and the time of the call -/
  returnsAt : T → T → T
  reclaim : T → T → State → State
  /-- the process of a worker ends -/
  crash : String → State → State
  /-- the lease of a worker that was handed the item -/
  Holds : State → String → Item J T R → Prop

/-! ### `SQLiteQueue` -/

def itemOf (r : Queue.Row J String T (Payload T R)) : Item J T R := ⟨r.jobId, r.payload, r.enqueuedAt, r.attempts⟩

variable (cfg : Config T R)

def Config.sqlite : Queue.Config String T (Payload T R) :=
  ⟨cfg.reclaimInflight, cfg.inflightStaleS, fun p => cfg.targetWorkerId p.content⟩

def sqlite (cfg : Config T R) : Backend J T R where
  State := Queue.SQLiteQueue J String T (Payload T R)
  start := Table.empty
  enqueue := Queue.enqueue cfg.sqlite
  dequeue w item now q :=
    match q.find item.jobId with
    | some r => if Queue.Selects w now q r ∧ itemOf r = item then some (Queue.deliver w item.jobId q) else none
    | none => none
  ack _ := Queue.ack
  retry _ := Queue.retry
  returnsAt _ now := now
  reclaim := Queue.reclaimStaleInflight cfg.sqlite
  crash _ q := q
  Holds q w item := ∃ r ∈ q.find item.jobId, r.status = .inflight ∧ r.workerId = some w ∧ itemOf r = item

/-! ### `InProcQueue` -/

/-- When a `retry` that begins with `time.sleep` is done; it raises at once if the delay is negative. -/
def afterSleep (delayS now : T) : T := if delayS < 0 then now else now + delayS

/-- `_q_any` is the queue `none`. `retry` sleeps and does nothing else. -/
def inProc : Backend J T R where
  State := Option String → List (Item J T R)
  start _ := []
  enqueue jobId payload now q :=
    Fifo.push ((cfg.targetWorkerId payload.content).filter fun w => decide (w ≠ "")) ⟨jobId, payload, now, 0⟩ q
  dequeue w item _ q :=
    match Fifo.pop [some w, none] q with
    | some (_, a, q') => if a = item then some q' else none
    | none => none
  ack _ _ q := q
  retry _ _ _ _ q := q
  returnsAt := afterSleep
  reclaim _ _ q := q
  crash _ q := q
  Holds _ _ _ := True

/-! ### Redis -/

/-- The streams of the server, and what the processes of the workers remember of the jobs they were handed. -/
structure Redis (J T R : Type) where
  streams : String → Stream (Item J T R)
  receipts : String → J → Option (String × Nat)
  payloads : String → J → Option (Payload T R)

namespace Redis

def start : Redis J T R := ⟨fun _ => .empty, fun _ _ => none, fun _ _ => none⟩

def add (stream : String) (item : Item J T R) (r : Redis J T R) : Redis J T R :=
  { r with streams := Function.update r.streams stream ((r.streams stream).add item) }

def read (names : List String) (w : String) (item : Item J T R) (r : Redis J T R) : Option (Redis J T R) :=
  match Stream.readFirst names r.streams with
  | some (stream, i, m, streams) =>
    if m = item then
      some ⟨streams, Function.update r.receipts w (Function.update (r.receipts w) m.jobId (some (stream, i))),
        Function.update r.payloads w (Function.update (r.payloads w) m.jobId (some m.payload))⟩
    else none
  | none => none

def settle (w : String) (jobId : J) (r : Redis J T R) : Redis J T R where
  streams :=
    match r.receipts w jobId with
    | some (stream, i) => Function.update r.streams stream ((r.streams stream).ack i)
    | none => r.streams
  receipts := Function.update r.receipts w (Function.update (r.receipts w) jobId none)
  payloads := Function.update r.payloads w (Function.update (r.payloads w) jobId none)

def payload (cfg : Config T R) (w : String) (jobId : J) (r : Redis J T R) : Payload T R :=
  (r.payloads w jobId).getD ⟨cfg.noContent, none, none⟩

def crash (w : String) (r : Redis J T R) : Redis J T R :=
  { r with
    receipts := Function.update r.receipts w fun _ => none
    payloads := Function.update r.payloads w fun _ => none }

end Redis

/-! ### `RedisQueue` -/

def workerStream (content : R) : String := (cfg.targetWorkerId content).getD "any"

def workerStreams (w : String) : List String := [w, "any"]

def redisEnqueue (jobId : J) (payload : Payload T R) (now : T) (r : Redis J T R) : Redis J T R :=
  r.add (workerStream cfg payload.content) ⟨jobId, payload, now, 0⟩

def redisRetry (w : String) (jobId : J) (delayS now : T) (r : Redis J T R) : Redis J T R :=
  if delayS < 0 then r
  else redisEnqueue cfg jobId (r.payload cfg w jobId) (now + delayS) (r.settle w jobId)

def redis : Backend J T R where
  State := Redis J T R
  start := Redis.start
  enqueue := redisEnqueue cfg
  dequeue w item _ r := r.read (workerStreams w) w item
  ack := Redis.settle
  retry := redisRetry cfg
  returnsAt := afterSleep
  reclaim _ _ r := r
  crash := Redis.crash
  Holds _ _ _ := True

/-! ### `RedisStreamsQueue` -/

def nodeStream (nodeId : String) : String :=
  if cfg.strip nodeId = "" then "default" else cfg.strip nodeId

def nodeStreams (w : String) : List String :=
  (if cfg.nodeId w = "" then [] else [nodeStream cfg (cfg.nodeId w)]) ++ [nodeStream cfg "default"]

/-- `RedisStreamsQueue.enqueue`: the time and the attempts come from the payload, if it has them. -/
def streamsEnqueue (jobId : J) (payload : Payload T R) (now : T) (r : Redis J T R) : Redis J T R :=
  r.add (nodeStream cfg (cfg.targetNodeId payload.content))
    ⟨jobId, payload, (payload.enqueuedAt.filter fun t => decide (t ≠ 0)).getD now, payload.attempts.getD 0⟩

/-- The delay only goes into the payload. -/
def streamsRetry (w : String) (jobId : J) (delayS now : T) (r : Redis J T R) : Redis J T R :=
  let payload := r.payload cfg w jobId
  streamsEnqueue cfg jobId
    { payload with attempts := some (payload.attempts.getD 0 + 1), enqueuedAt := some (now + max 0 delayS) } now
    (r.settle w jobId)

def redisStreams : Backend J T R where
  State := Redis J T R
  start := Redis.start
  enqueue := streamsEnqueue cfg
  dequeue w item _ r := r.read (nodeStreams cfg w) w item
  ack := Redis.settle
  retry := streamsRetry cfg
  returnsAt _ now := now
  reclaim _ _ r := r
  crash := Redis.crash
  Holds _ _ _ := True

inductive Kind
  | sqlite
  | inProc
  | redis
  | redisStreams
  deriving DecidableEq

def Kind.backend : Kind → Backend J T R
  | .sqlite => Backends.sqlite cfg
  | .inProc => Backends.inProc cfg
  | .redis => Backends.redis cfg
  | .redisStreams => Backends.redisStreams cfg

/-! ### Systems -/

inductive Event (J T R : Type)
  /-- the router writes no attempts into a payload -/
  | enqueue (jobId : J) (content : R) (enqueuedAt : Option T) (now : T)
  | dequeue (worker : String) (item : Item J T R) (now : T)
  | ack (worker : String) (item : Item J T R)
  | retry (worker : String) (item : Item J T R) (delayS now : T)
  | reclaim (now later : T)
  | crash (worker : String)

structure System (b : Backend J T R) where
  queue : b.State
  /-- the jobs that were enqueued -/
  known : List J
  /-- what the workers were handed and have neither acknowledged nor given back -/
  held : List (String × Item J T R)
  /-- how many times each job was given back -/
  retries : J → Nat

namespace System

variable {b : Backend J T R}

def start : System b := ⟨b.start, [], [], fun _ => 0⟩

def step (s : System b) : Event J T R → Option (System b)
  | .enqueue jobId content enqueuedAt now =>
    if jobId ∈ s.known then none
    else some { s with queue := b.enqueue jobId ⟨content, none, enqueuedAt⟩ now s.queue, known := jobId :: s.known }
  | .dequeue w item now =>
    (b.dequeue w item now s.queue).map fun q => { s with queue := q, held := (w, item) :: s.held }
  | .ack w item =>
    if (w, item) ∈ s.held then
      some { s with queue := b.ack w item.jobId s.queue, held := s.held.erase (w, item) }
    else none
  | .retry w item delayS now =>
    if (w, item) ∈ s.held then
      some { s with
        queue := b.retry w item.jobId delayS now s.queue
        held := s.held.erase (w, item)
        retries := Function.update s.retries item.jobId (s.retries item.jobId + 1) }
    else none
  | .reclaim now later => some { s with queue := b.reclaim now later s.queue }
  | .crash w => some { s with queue := b.crash w s.queue, held := s.held.filter fun h => decide (h.1 ≠ w) }

end System

/-! ### The contract of `retry` -/

structure Handout (J T R : Type) where
  worker : String
  item : Item J T R
  now : T

def Backend.hand (b : Backend J T R) (q : b.State) (h : Handout J T R) : Option b.State :=
  b.dequeue h.worker h.item h.now q

/-- What is expected of the state `q` that a `retry` has left at the time `returned`, as long as workers only take
jobs: the job is handed out at most once, with its content, this number of attempts and not before it is `due`; and
until it is, it can be handed out at any later time. -/
structure RetryContract (b : Backend J T R) (q : b.State) (returned due : T) (jobId : J) (content : R)
    (attempts : Nat) : Prop where
  once : ∀ log q', Run.run b.hand log q = some q' → (∀ h ∈ log, returned ≤ h.now) →
    (log.filter fun h => decide (h.item.jobId = jobId)).length ≤ 1
  same : ∀ log q', Run.run b.hand log q = some q' → (∀ h ∈ log, returned ≤ h.now) →
    ∀ h ∈ log, h.item.jobId = jobId →
      h.item.payload.content = content ∧ h.item.attempts = attempts ∧ due ≤ h.now
  delivered : ∀ log q' t, Run.run b.hand log q = some q' → (∀ h ∈ log, returned ≤ h.now) →
    (∀ h ∈ log, h.item.jobId ≠ jobId) → ∃ log' q'', Run.run b.hand log' q' = some q'' ∧
      (∀ h ∈ log', t ≤ h.now) ∧ ∃ h ∈ log', h.item.jobId = jobId

end Korith.Backends
