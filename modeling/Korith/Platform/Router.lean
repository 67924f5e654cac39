import Korith.Lib.Python
import Korith.Platform.Governance
import Korith.Platform.SqliteQueue
import Mathlib.Algebra.Order.Ring.Int

/-!
# The route of a job

`ClusterRouter._select_route` chooses a node and a worker for a job, from the nodes and the workers that are
registered, the locations of snapshots, the answer of the cache coordinator, and what the router remembers of earlier
jobs. An id that is not found is the empty text, and most of the chains of fallbacks end with it. `submit` writes the
id into the payload as it is, and the queue takes it for the worker that the job is for.

What the router remembers afterwards is left out.
-/

namespace Korith.Router

open Governance (Lane)

structure Capabilities where
  /-- the entries of `lanes` that are not blank, in upper case -/
  lanes : List String
  /-- in lower case -/
  laneRole : String
  amfReady : Bool
  amfPrewarmComplete : Bool
  amfHitRate : Rat

structure Worker where
  workerId : String
  nodeId : String
  inflight : Int
  lastHeartbeat : Int
  capabilities : Capabilities

structure Node where
  nodeId : String
  inflight : Int
  queueDepthHit : Int
  queueDepthMiss : Int

/-- A location of a snapshot, or a row of the coordinator. -/
structure Location where
  nodeId : String
  workerId : String
  /-- in lower case, without blanks around it -/
  storageTier : String := "unknown"
  sizeBytes : Int := 0

/-- An entry of `_session_affinity`, `_fingerprint_affinity` or `_shape_affinity`. -/
structure Affinity where
  nodeId : String
  workerId : String
  ts : Int

structure Env where
  strictWorkerLanes : Bool
  enableFingerprintAffinity : Bool
  enableShapeAffinity : Bool
  preferReplayLocalForHit : Bool
  affinityTtlS : Int
  shapeAffinityMaxInflightDelta : Int
  /-- `*` stands for all -/
  transferAllowedTiers : List String
  /-- `estimate_transfer_ms` of a size, times the factor of the tier -/
  transferMs : Int → String → Rat
  /-- `_estimate_baseline_prefix_ms` of a fingerprint and an organization, times `transfer_threshold` -/
  transferLimitMs : String → String → Rat

structure State where
  env : Env
  nodes : List Node
  workers : List Worker
  sessionAffinity : String → Option Affinity
  fingerprintAffinity : String → Option Affinity
  shapeAffinity : String → Option Affinity
  /-- `get_locations` of a fingerprint and an organization -/
  locations : String → String → List Location
  /-- the answer of the coordinator for a hash and a tenant; none without one, or if it fails -/
  coordinator : String → String → List Location
  now : Int

structure Request where
  sessionId : String
  orgId : String
  tenantId : String
  fingerprintHash : String
  predictedLane : Lane
  amfLookupHash : String
  shapeKey : String

/-! ### Lanes -/

def laneText : Lane → String
  | .hit => "HIT"
  | .miss => "MISS"
  | .specHit => "SPEC_HIT"
  | .specMiss => "SPEC_MISS"

def isHitLane (lane : Lane) : Bool := lane = .hit || lane = .specHit

def isMissLane (lane : Lane) : Bool := lane = .miss || lane = .specMiss

def workerSupportsLane (w : Worker) (lane : Lane) : Bool :=
  let caps := w.capabilities
  if "ALL" ∈ caps.lanes ∨ "*" ∈ caps.lanes then true
  else if caps.lanes ≠ [] then decide (laneText lane ∈ caps.lanes)
  else if caps.laneRole ∈ ["hit", "hit_only", "hot"] then isHitLane lane
  else if caps.laneRole ∈ ["miss", "miss_only", "cold"] then isMissLane lane
  else true

def workersForLane (workers : List Worker) (lane : Lane) : List Worker :=
  workers.filter fun w => workerSupportsLane w lane

def amfReady (w : Worker) : Bool :=
  w.capabilities.amfReady || w.capabilities.amfPrewarmComplete || decide (1 / 2 < w.capabilities.amfHitRate)

def orElse {α : Type} (xs ys : List α) : List α := if xs.isEmpty then ys else xs

theorem orElse_subset {α : Type} {xs ys zs : List α} (hxs : xs ⊆ zs) (hys : ys ⊆ zs) : orElse xs ys ⊆ zs := by
  unfold orElse
  split_ifs
  · exact hys
  · exact hxs

theorem orElse_eq_nil {α : Type} {xs ys : List α} : orElse xs ys = [] ↔ xs = [] ∧ ys = [] := by
  cases xs with
  | nil => simp [orElse]
  | cons x xs => simp [orElse]

structure Candidates where
  nodes : List Node
  workers : List Worker
  laneWorkers : List Worker
  subset : laneWorkers ⊆ workers
  workers_eq_nil : laneWorkers = [] → workers = []

def laneCandidates (nodes : List Node) (workers : List Worker) (lane : Lane) : Candidates where
  nodes := nodes
  workers := workers
  laneWorkers := orElse (workersForLane workers lane) workers
  subset := orElse_subset (List.filter_subset_self _) (List.Subset.refl _)
  workers_eq_nil := fun h => (orElse_eq_nil.1 h).2

variable (s : State) (req : Request) (c : Candidates)

def Candidates.preferReady (readyIds : List String) : Candidates where
  nodes :=
    let readyNodeIds := (c.workers.filter fun w => decide (w.workerId ∈ readyIds)).map Worker.nodeId
    orElse (c.nodes.filter fun n => decide (n.nodeId ∈ readyNodeIds)) c.nodes
  workers := c.workers
  laneWorkers := orElse (c.laneWorkers.filter fun w => decide (w.workerId ∈ readyIds)) c.laneWorkers
  subset := orElse_subset (List.Subset.trans (List.filter_subset_self _) c.subset) c.subset
  workers_eq_nil := fun h => c.workers_eq_nil (orElse_eq_nil.1 h).2

def candidates (lane : Lane) : Except String Candidates :=
  if workersForLane s.workers lane = [] ∧ s.env.strictWorkerLanes then
    .error ("no workers available for lane=" ++ laneText lane)
  else
    let c := laneCandidates s.nodes s.workers lane
    let readyIds := (s.workers.filter amfReady).map Worker.workerId
    -- some workers are warm, and some are not
    if isHitLane lane ∧ readyIds ≠ [] ∧ readyIds.dedup.length < s.workers.length then .ok (c.preferReady readyIds)
    else .ok c

def ids (xs : List String) : List String := xs.filter fun x => decide (x ≠ "")

def Candidates.workerIds : List String := ids (c.workers.map Worker.workerId)

def Candidates.laneWorkerIds : List String := ids (c.laneWorkers.map Worker.workerId)

def Candidates.nodeIds : List String := ids (c.nodes.map Node.nodeId)

def Candidates.hasNode (nodeId : String) : Bool := decide (nodeId ∈ c.nodes.map Node.nodeId)

/-! ### Workers -/

def resolveWorkerId (workerId : String) (workerIds : List String) : String :=
  if workerId = "" then ""
  else if workerIds ≠ [] ∧ workerId ∉ workerIds then ""
  else workerId

def pickWorkerForNode (nodeId : String) (workers : List Worker) : String :=
  if nodeId = "" then ""
  else
    let nodeWorkers := workers.filter fun w => decide (w.nodeId = nodeId)
    ((sortedHead (fun w => [w.inflight, -w.lastHeartbeat]) nodeWorkers).map Worker.workerId).getD ""

def orId (a b : String) : String := if a = "" then b else a

def leastLoadedNode (nodes : List Node) (lane : Lane) : Option Node :=
  if isHitLane lane then sortedHead (fun n => [n.queueDepthHit, n.inflight, n.queueDepthMiss]) nodes
  else sortedHead (fun n => [n.inflight, n.queueDepthMiss]) nodes

def overloaded (env : Env) (load : Int) (loads : List Int) : Bool :=
  match loads.min? with
  | none => false
  | some best => decide (env.shapeAffinityMaxInflightDelta < load - best)

def shapeAffinityIsOverloaded (env : Env) (nodeId : String) (nodes : List Node) : Bool :=
  if nodeId = "" then false
  else
    match nodes.reverse.find? fun n => decide (n.nodeId = nodeId) with
    | none => false
    | some n => overloaded env n.inflight (nodes.map Node.inflight)

/-! ### What the router remembers -/

def Affinity.valid (e : Affinity) : Bool :=
  !decide (s.env.affinityTtlS ≤ 0) &&
    !decide (0 < e.ts ∧ s.env.affinityTtlS < s.now - e.ts) &&
    !decide (e.workerId ≠ "" ∧ c.workerIds ≠ [] ∧ e.workerId ∉ c.workerIds) &&
    !decide (e.nodeId ≠ "" ∧ c.nodeIds ≠ [] ∧ e.nodeId ∉ c.nodeIds)

structure Remembered where
  session : Option Affinity
  fingerprint : Option Affinity
  shape : Option Affinity

/-- The entries for the request after `_prune_affinity_state`, where they are used at all. -/
def remembered : Remembered where
  session := if req.sessionId = "" then none else (s.sessionAffinity req.sessionId).filter (Affinity.valid s c)
  fingerprint :=
    if isHitLane req.predictedLane ∧ s.env.enableFingerprintAffinity then
      (s.fingerprintAffinity (req.orgId ++ ":" ++ req.fingerprintHash)).filter (Affinity.valid s c)
    else none
  shape :=
    if isMissLane req.predictedLane ∧ s.env.enableShapeAffinity ∧ req.shapeKey ≠ "" then
      (s.shapeAffinity (req.orgId ++ ":" ++ req.shapeKey)).filter (Affinity.valid s c)
    else none

/-! ### The exits -/

structure Route where
  chosenNodeId : String
  chosenWorkerId : String
  reason : String
  finalLane : Lane
  forceMiss : Bool
  transferFromNodeId : Option String

def coordinatorWorkerId (row : Location) : String :=
  orId (resolveWorkerId row.workerId c.laneWorkerIds) <|
    orId (pickWorkerForNode row.nodeId c.laneWorkers) (pickWorkerForNode row.nodeId c.workers)

inductive Exit
  | coordinatorCache (row : Location)
  | workerAffinity (e : Affinity)
  | nodeLocality (loc : Location)
  | fingerprintAffinity (e : Affinity)
  | shapeAffinity (e : Affinity)
  | shapeAffinityOverloaded (node : Node)
  | leastLoaded (node : Node)
  /-- there are no nodes -/
  | singleNode (w : Worker) (reason : String)

namespace Exit

def nodeId : Exit → String
  | coordinatorCache row => row.nodeId
  | workerAffinity e => e.nodeId
  | nodeLocality loc => loc.nodeId
  | fingerprintAffinity e => e.nodeId
  | shapeAffinity e => e.nodeId
  | shapeAffinityOverloaded node => node.nodeId
  | leastLoaded node => node.nodeId
  | singleNode _ _ => ""

def workerId (c : Candidates) : Exit → String
  | coordinatorCache row => coordinatorWorkerId c row
  | workerAffinity e => orId (resolveWorkerId e.workerId c.laneWorkerIds) (resolveWorkerId e.workerId c.workerIds)
  | nodeLocality loc =>
    orId (resolveWorkerId loc.workerId c.laneWorkerIds) <|
      orId (pickWorkerForNode loc.nodeId c.laneWorkers) <|
        orId (resolveWorkerId loc.workerId c.workerIds) (pickWorkerForNode loc.nodeId c.workers)
  | fingerprintAffinity e => orId (resolveWorkerId e.workerId c.laneWorkerIds) (resolveWorkerId e.workerId c.workerIds)
  | shapeAffinity e =>
    orId (resolveWorkerId e.workerId c.laneWorkerIds) <|
      orId (resolveWorkerId e.workerId c.workerIds) <|
        orId (pickWorkerForNode e.nodeId c.laneWorkers) (pickWorkerForNode e.nodeId c.workers)
  | shapeAffinityOverloaded node =>
    orId (pickWorkerForNode node.nodeId c.laneWorkers) (pickWorkerForNode node.nodeId c.workers)
  | leastLoaded node => orId (pickWorkerForNode node.nodeId c.laneWorkers) (pickWorkerForNode node.nodeId c.workers)
  | singleNode w _ => w.workerId

def reason : Exit → String
  | coordinatorCache _ => "amf_coordinator_cache"
  | workerAffinity _ => "worker_affinity"
  | nodeLocality _ => "node_locality"
  | fingerprintAffinity _ => "fingerprint_affinity"
  | shapeAffinity _ => "shape_affinity"
  | shapeAffinityOverloaded _ => "shape_affinity_overloaded"
  | leastLoaded _ => "least_loaded"
  | singleNode _ reason => reason

/-- The route is compared with a transfer; the other two return at once. -/
def mayTransfer : Exit → Bool
  | coordinatorCache _ => false
  | singleNode _ _ => false
  | _ => true

end Exit

/-- The answer of the coordinator: its row with the least loaded node, if that leads to a worker. -/
def coordinatorRow : Option Location :=
  if req.amfLookupHash = "" then none
  else
    let load (row : Location) : List Int :=
      match c.nodes.reverse.find? fun n => decide (n.nodeId = row.nodeId) with
      | none => []
      | some n => [n.inflight, n.queueDepthHit]
    let rows := (s.coordinator req.amfLookupHash req.tenantId).filter fun row => c.hasNode row.nodeId
    (sortedHead load rows).filter fun row => decide (coordinatorWorkerId c row ≠ "")

def atNode (e : Option Affinity) : Option Affinity :=
  e.filter fun e => decide (e.nodeId ≠ "") && c.hasNode e.nodeId

def hitLocations : List Location :=
  if isHitLane req.predictedLane then s.locations req.fingerprintHash req.orgId else []

/-- The session is sent elsewhere, since its node has no snapshot and another one has. -/
def defersAffinity (e : Affinity) : Bool :=
  isHitLane req.predictedLane && !(hitLocations s req).isEmpty && s.env.preferReplayLocalForHit &&
    !(hitLocations s req).any fun loc => decide (loc.nodeId = e.nodeId)

def shapeExit (shape : Option Affinity) : Option Exit :=
  match shape with
  | some e =>
    if shapeAffinityIsOverloaded s.env e.nodeId c.nodes then
      (leastLoadedNode c.nodes req.predictedLane).map .shapeAffinityOverloaded
    else some (.shapeAffinity e)
  | none => (leastLoadedNode c.nodes req.predictedLane).map .leastLoaded

def nodeExit : Option Exit :=
  let mem := remembered s req c
  ((coordinatorRow s req c).map Exit.coordinatorCache).or <|
    (((atNode c mem.session).filter fun e => !defersAffinity s req e).map Exit.workerAffinity).or <|
      (((hitLocations s req).find? fun loc => c.hasNode loc.nodeId).map Exit.nodeLocality).or <|
        ((atNode c mem.fingerprint).map Exit.fingerprintAffinity).or <|
          shapeExit s req c (atNode c mem.shape)

def rememberedWorker (workers : List Worker) (e : Option Affinity) : Option Worker :=
  e.bind fun e => workers.find? fun w => decide (w.workerId = e.workerId)

def selectWorkerSingleNode (workers : List Worker) (mem : Remembered) : Option Exit :=
  let named (e : Option Affinity) := rememberedWorker workers (e.filter fun e => decide (e.workerId ≠ ""))
  ((rememberedWorker workers mem.session).map fun w => Exit.singleNode w "worker_affinity").or <|
    ((named mem.fingerprint).map fun w => Exit.singleNode w "fingerprint_affinity").or <|
      (((named mem.shape).filter fun w => !overloaded s.env w.inflight (workers.map Worker.inflight)).map
        fun w => Exit.singleNode w "shape_affinity").or <|
        (sortedHead (fun w => [w.inflight, w.lastHeartbeat]) workers).map fun w => Exit.singleNode w "least_loaded"

def selectExit : Except String Exit :=
  if c.nodes = [] then
    match selectWorkerSingleNode s (orElse c.laneWorkers c.workers) (remembered s req c) with
    | some exit => .ok exit
    | none => .error "no workers registered"
  else
    match nodeExit s req c with
    | some exit => .ok exit
    | none => .error "list index out of range"

/-- The location from which the snapshot is sent fastest, with the time that takes. -/
def pickTransferCandidate (env : Env) (locations : List Location) (chosenNode : String) : Option (Location × Rat) :=
  locations.foldl (fun best location =>
    if location.nodeId = "" ∨ location.nodeId = chosenNode then best
    else if "*" ∉ env.transferAllowedTiers ∧ location.storageTier ∉ env.transferAllowedTiers then best
    else
      let ms := env.transferMs location.sizeBytes location.storageTier
      match best with
      | none => some (location, ms)
      | some (bestLocation, bestMs) => if ms < bestMs then some (location, ms) else some (bestLocation, bestMs)) none

/-- A hit for a node without a snapshot: it is sent there, or the job becomes a miss. -/
def decideTransfer (route : Route) : Route :=
  let locations := hitLocations s req
  if locations ≠ [] ∧ ¬ locations.any (fun loc => decide (loc.nodeId = route.chosenNodeId)) then
    let missLane : Lane := if req.predictedLane = .specHit then .specMiss else .miss
    match pickTransferCandidate s.env locations route.chosenNodeId with
    | some (remote, ms) =>
      if ms < s.env.transferLimitMs req.fingerprintHash req.orgId then
        { route with transferFromNodeId := some remote.nodeId }
      else { route with forceMiss := true, finalLane := missLane, reason := "transfer_too_expensive" }
    | none => { route with forceMiss := true, finalLane := missLane, reason := "transfer_candidate_unavailable" }
  else route

def Exit.route (exit : Exit) : Route :=
  let chosen : Route := ⟨exit.nodeId, exit.workerId c, exit.reason, req.predictedLane, false, none⟩
  if exit.mayTransfer then decideTransfer s req chosen else chosen

def selectRoute : Except String Route := do
  let c ← candidates s req.predictedLane
  let exit ← selectExit s req c
  return exit.route s req c

/-! ### The payload -/

/-- What the queue and the workers read of the payload of `submit`. -/
structure Payload where
  lane : Lane
  targetNodeId : String
  targetWorkerId : String
  forceMiss : Bool
  transferFromNodeId : Option String

def payload (route : Route) : Payload :=
  ⟨route.finalLane, route.chosenNodeId, route.chosenWorkerId, route.forceMiss, route.transferFromNodeId⟩

/-- The queue of the router: `payload.get("target_worker_id")` is never missing. -/
def queueConfig (reclaimInflight : Bool) (inflightStaleS : Int) : Queue.Config String Int Payload :=
  ⟨reclaimInflight, inflightStaleS, fun p => some p.targetWorkerId⟩

def submit (cfg : Queue.Config String Int Payload) (s : State) (req : Request) (jobId : String) (now : Int)
    (q : Queue.SQLiteQueue String String Int Payload) : Except String (Queue.SQLiteQueue String String Int Payload) := do
  let route ← selectRoute s req
  return Queue.enqueue cfg jobId (payload route) now q

end Korith.Router
