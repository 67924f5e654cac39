import Korith.Proofs.RouteDelivery

/-!
# Whether the routed worker can run the job

A worker that is picked among those of the node is on it, and one that is found among those of the lane takes its jobs
(with strict lanes there are some). But a worker that a row or an entry names is not looked for on the node, the
chains of fallbacks end with workers of other lanes, and a hit may become a miss after its worker has been chosen.
`Fits` asks, for each exit, of its entry and of the registry what the exit has left open.
-/

namespace Korith.Router

open Governance (Lane)

variable {s : State} {req : Request} {c : Candidates} {exit : Exit} {route : Route} {w : Worker} {lane : Lane}

/-- A registered worker has the id, runs on the node if there is one, and takes the jobs of the lane. -/
def Executes (workers : List Worker) (route : Route) : Prop :=
  ∃ w ∈ workers, w.workerId = route.chosenWorkerId ∧
    (route.chosenNodeId ≠ "" → w.nodeId = route.chosenNodeId) ∧ workerSupportsLane w route.finalLane = true
  deriving Decidable

/-! ### Lookups -/

def leastLoadedWorker (workers : List Worker) (nodeId : String) : Option Worker :=
  sortedHead (fun w => [w.inflight, -w.lastHeartbeat]) (workers.filter fun w => decide (w.nodeId = nodeId))

inductive Lookup
  | laneEntry
  | laneNode
  | entry
  | node

namespace Lookup

def id (c : Candidates) (entryId nodeId : String) : Lookup → String
  | laneEntry => resolveWorkerId entryId c.laneWorkerIds
  | laneNode => pickWorkerForNode nodeId c.laneWorkers
  | entry => resolveWorkerId entryId c.workerIds
  | node => pickWorkerForNode nodeId c.workers

/-- An id of an entry is taken if it is one of those given, or if none is; a node has to have a worker. -/
def Applies (c : Candidates) (entryId nodeId : String) : Lookup → Prop
  | laneEntry => entryId ≠ "" ∧ (c.laneWorkerIds = [] ∨ entryId ∈ c.laneWorkerIds)
  | laneNode => nodeId ≠ "" ∧ ∃ w ∈ leastLoadedWorker c.laneWorkers nodeId, w.workerId ≠ ""
  | entry => entryId ≠ "" ∧ (c.workerIds = [] ∨ entryId ∈ c.workerIds)
  | node => nodeId ≠ "" ∧ ∃ w ∈ leastLoadedWorker c.workers nodeId, w.workerId ≠ ""

/-- The worker that an entry names is to run on the node; that it `takes` the job is asked of both kinds. -/
def Fits (c : Candidates) (entryId nodeId : String) (takes : Worker → Prop) : Lookup → Prop
  | laneEntry | entry => ∃ w ∈ c.workers, w.workerId = entryId ∧ (nodeId ≠ "" → w.nodeId = nodeId) ∧ takes w
  | laneNode => ∃ w ∈ leastLoadedWorker c.laneWorkers nodeId, takes w
  | node => ∃ w ∈ leastLoadedWorker c.workers nodeId, takes w

variable {l : Lookup} {entryId nodeId : String} {takes : Worker → Prop} {workers : List Worker}

theorem resolveWorkerId_ne {xs : List String} :
    resolveWorkerId entryId xs ≠ "" ↔ entryId ≠ "" ∧ (xs = [] ∨ entryId ∈ xs) := by
  unfold resolveWorkerId
  split_ifs with hid hout
  · simp [hid]
  · simp [hout]
  · rw [not_and_or, not_not, not_not] at hout
    simp [hid, hout]

theorem pickWorkerForNode_ne : pickWorkerForNode nodeId workers ≠ "" ↔
    nodeId ≠ "" ∧ ∃ w ∈ leastLoadedWorker workers nodeId, w.workerId ≠ "" := by
  by_cases hnode : nodeId = ""
  · simp [hnode, pickWorkerForNode]
  · rw [pickWorkerForNode_of_ne hnode, ← leastLoadedWorker]
    cases leastLoadedWorker workers nodeId <;> simp [hnode]

theorem id_ne_iff : l.id c entryId nodeId ≠ "" ↔ l.Applies c entryId nodeId := by
  cases l with
  | laneEntry | entry => exact resolveWorkerId_ne
  | laneNode | node => exact pickWorkerForNode_ne

theorem picked_iff (hunique : ∀ {w w' : Worker}, w ∈ c.workers → w' ∈ c.workers → w.workerId = w'.workerId → w = w')
    (hsub : workers ⊆ c.workers) (hne : pickWorkerForNode nodeId workers ≠ "") :
    (∃ w ∈ c.workers, w.workerId = pickWorkerForNode nodeId workers ∧ (nodeId ≠ "" → w.nodeId = nodeId) ∧ takes w) ↔
      ∃ w ∈ leastLoadedWorker workers nodeId, takes w := by
  obtain ⟨hnode, w₀, hw₀, -⟩ := pickWorkerForNode_ne.1 hne
  obtain ⟨hmem, hon⟩ := List.mem_filter.1 (mem_of_sortedHead hw₀)
  have hid : pickWorkerForNode nodeId workers = w₀.workerId := by
    rw [pickWorkerForNode_of_ne hnode, ← leastLoadedWorker, hw₀, Option.map_some, Option.getD_some]
  rw [hid]
  constructor
  · rintro ⟨w, hw, hwid, -, htakes⟩
    exact ⟨w₀, hw₀, hunique hw (hsub hmem) hwid ▸ htakes⟩
  · rintro ⟨w, hw, htakes⟩
    cases hw₀.symm.trans hw
    exact ⟨w₀, hsub hmem, rfl, fun _ => of_decide_eq_true hon, htakes⟩

theorem fits_iff (hunique : ∀ {w w' : Worker}, w ∈ c.workers → w' ∈ c.workers → w.workerId = w'.workerId → w = w')
    (hne : l.id c entryId nodeId ≠ "") : (∃ w ∈ c.workers, w.workerId = l.id c entryId nodeId ∧
      (nodeId ≠ "" → w.nodeId = nodeId) ∧ takes w) ↔ l.Fits c entryId nodeId takes := by
  have hresolve : ∀ {xs}, resolveWorkerId entryId xs ≠ "" → resolveWorkerId entryId xs = entryId := by
    intro xs h
    obtain ⟨-, rfl | hmem⟩ := resolveWorkerId_ne.1 h
    · exact resolveWorkerId_nil
    · exact resolveWorkerId_of_mem hmem
  cases l with
  | laneEntry | entry =>
    unfold id at hne ⊢
    rw [hresolve hne]
    exact Iff.rfl
  | laneNode => exact picked_iff hunique c.subset hne
  | node => exact picked_iff hunique (List.Subset.refl _) hne

/-- The first lookup of the chain that applies decides; if none does, the job is for a worker without an id. -/
def ChainFits (c : Candidates) (entryId nodeId : String) (takes : Worker → Prop) : List Lookup → Prop
  | [] => ∃ w ∈ c.workers, w.workerId = "" ∧ (nodeId ≠ "" → w.nodeId = nodeId) ∧ takes w
  | l :: ls => (l.Applies c entryId nodeId ∧ l.Fits c entryId nodeId takes) ∨
    (¬ l.Applies c entryId nodeId ∧ ChainFits c entryId nodeId takes ls)

theorem chainFits_iff {ls : List Lookup}
    (hunique : ∀ {w w' : Worker}, w ∈ c.workers → w' ∈ c.workers → w.workerId = w'.workerId → w = w') :
    (∃ w ∈ c.workers, w.workerId = ls.foldr (fun l rest => orId (l.id c entryId nodeId) rest) "" ∧
      (nodeId ≠ "" → w.nodeId = nodeId) ∧ takes w) ↔ ChainFits c entryId nodeId takes ls := by
  induction ls with
  | nil => exact Iff.rfl
  | cons l ls ih =>
    rw [ChainFits, List.foldr_cons, ← id_ne_iff]
    by_cases h : l.id c entryId nodeId = ""
    · rw [h, orId_empty_left, ih]
      simp
    · rw [orId_of_ne h, fits_iff hunique h]
      simp [h]

end Lookup

/-! ### The exits as chains -/

namespace Exit

def entryId : Exit → String
  | coordinatorCache row => row.workerId
  | workerAffinity e => e.workerId
  | nodeLocality loc => loc.workerId
  | fingerprintAffinity e => e.workerId
  | shapeAffinity e => e.workerId
  | shapeAffinityOverloaded _ => ""
  | leastLoaded _ => ""
  | singleNode w _ => w.workerId

def lookups : Exit → List Lookup
  | coordinatorCache _ => [.laneEntry, .laneNode, .node]
  | workerAffinity _ => [.laneEntry, .entry]
  | nodeLocality _ => [.laneEntry, .laneNode, .entry, .node]
  | fingerprintAffinity _ => [.laneEntry, .entry]
  | shapeAffinity _ => [.laneEntry, .entry, .laneNode, .node]
  | shapeAffinityOverloaded _ => [.laneNode, .node]
  | leastLoaded _ => [.laneNode, .node]
  | singleNode _ _ => [.laneEntry]

theorem orId_empty_right {a : String} : orId a "" = a := by
  by_cases h : a = ""
  · rw [h, orId_empty_left]
  · exact orId_of_ne h

theorem workerId_eq_foldr (h : ∀ w reason, exit = singleNode w reason → w ∈ c.laneWorkers) :
    exit.workerId c = exit.lookups.foldr (fun l rest => orId (l.id c exit.entryId exit.nodeId) rest) "" := by
  cases exit with
  | singleNode w reason =>
    have hw := h w reason rfl
    show w.workerId = orId (resolveWorkerId w.workerId c.laneWorkerIds) ""
    rw [orId_empty_right]
    by_cases hid : w.workerId = ""
    · rw [hid, resolveWorkerId_empty]
    · exact (resolveWorkerId_of_mem (mem_ids.2 ⟨List.mem_map_of_mem hw, hid⟩)).symm
  | _ => simp only [lookups, List.foldr, orId_empty_right]; rfl

end Exit

/-! ### Lanes -/

variable {reason : String}

theorem shapeExit_ne_singleNode {shape : Option Affinity} :
    shapeExit s req c shape ≠ some (.singleNode w reason) := by
  intro h
  cases shape with
  | none => simp [shapeExit] at h
  | some e =>
    simp only [shapeExit] at h
    split_ifs at h
    · simp at h
    · cases h

theorem orElse_of_ne_nil {α : Type} {xs ys : List α} (h : xs ≠ []) : orElse xs ys = xs :=
  if_neg fun hempty => h (List.isEmpty_iff.1 hempty)

theorem mem_laneWorkers_of_selectExit (h : selectExit s req c = .ok (.singleNode w reason)) : w ∈ c.laneWorkers := by
  rcases selectExit_cases h with ⟨w', hw, reason', hexit⟩ | hexit
  · cases hexit
    by_cases hnil : c.laneWorkers = []
    · rw [hnil, c.workers_eq_nil hnil] at hw
      cases hw
    · rwa [orElse_of_ne_nil hnil] at hw
  · simp only [nodeExit, Option.or_eq_some_iff, Option.map_eq_some_iff, reduceCtorEq, and_false, exists_false,
      false_or] at hexit
    exact absurd hexit.2.2.2.2 shapeExit_ne_singleNode

theorem supports_of_mem_laneWorkers (hstrict : s.env.strictWorkerLanes = true) (hc : candidates s lane = .ok c)
    (hw : w ∈ c.laneWorkers) : workerSupportsLane w lane = true := by
  have hlane : ∀ {w}, w ∈ (laneCandidates s.nodes s.workers lane).laneWorkers →
      workersForLane s.workers lane ≠ [] → workerSupportsLane w lane = true := by
    intro w hw hne
    have hfor : w ∈ workersForLane s.workers lane := orElse_of_ne_nil hne ▸ hw
    exact (List.mem_filter.1 hfor).2
  have hne : workersForLane s.workers lane ≠ [] := by
    intro hnil
    simp [candidates, hnil, hstrict] at hc
  simp only [candidates] at hc
  split_ifs at hc
  · cases hc
    exact hlane (orElse_subset (List.filter_subset_self _) (List.Subset.refl _) hw) hne
  · cases hc
    exact hlane hw hne

def Exit.downgraded (s : State) (req : Request) (exit : Exit) : Bool :=
  exit.mayTransfer && !(hitLocations s req).isEmpty &&
    !(hitLocations s req).any (fun loc => decide (loc.nodeId = exit.nodeId)) &&
    (pickTransferCandidate s.env (hitLocations s req) exit.nodeId).all fun x =>
      !decide (x.2 < s.env.transferLimitMs req.fingerprintHash req.orgId)

def Exit.finalLane (s : State) (req : Request) (exit : Exit) : Lane :=
  if exit.downgraded s req then (if req.predictedLane = .specHit then .specMiss else .miss) else req.predictedLane

theorem finalLane_route : (exit.route s req c).finalLane = exit.finalLane s req := by
  unfold Exit.route Exit.finalLane Exit.downgraded
  cases hmay : exit.mayTransfer with
  | false => simp
  | true =>
    cases hnil : (hitLocations s req).isEmpty with
    | true => simp [decideTransfer, List.isEmpty_iff.1 hnil]
    | false =>
      have hne : hitLocations s req ≠ [] := by simpa using hnil
      cases hlocal : (hitLocations s req).any (fun loc => decide (loc.nodeId = exit.nodeId)) with
      | true => simp [decideTransfer, hlocal]
      | false =>
        simp only [decideTransfer, hlocal]
        rw [if_pos trivial, if_pos ⟨hne, Bool.false_ne_true⟩]
        rcases pickTransferCandidate s.env (hitLocations s req) exit.nodeId with _ | ⟨remote, ms⟩
        · simp
        · by_cases hms : ms < s.env.transferLimitMs req.fingerprintHash req.orgId <;> simp [hms]

theorem chosenNodeId_decideTransfer : (decideTransfer s req route).chosenNodeId = route.chosenNodeId := by
  unfold decideTransfer
  dsimp only
  split
  · split
    · split <;> rfl
    · rfl
  · rfl

theorem chosenNodeId_route : (exit.route s req c).chosenNodeId = exit.nodeId := by
  unfold Exit.route
  dsimp only
  split
  · exact chosenNodeId_decideTransfer
  · rfl

/-! ### What an exit leaves open -/

/-- A worker of the lane takes the job unless it has become a miss; of the others it is asked. -/
def Exit.Takes (s : State) (req : Request) (c : Candidates) (exit : Exit) (w : Worker) : Prop :=
  w ∉ c.laneWorkers ∨ exit.downgraded s req = true → workerSupportsLane w (exit.finalLane s req) = true

def Exit.Fits (s : State) (req : Request) (c : Candidates) (exit : Exit) : Prop :=
  Lookup.ChainFits c exit.entryId exit.nodeId (exit.Takes s req c) exit.lookups

def Fits (s : State) (req : Request) : Prop :=
  ∃ c exit, candidates s req.predictedLane = .ok c ∧ selectExit s req c = .ok exit ∧ exit.Fits s req c

theorem takes_iff (hstrict : s.env.strictWorkerLanes = true) (hc : candidates s req.predictedLane = .ok c) :
    exit.Takes s req c w ↔ workerSupportsLane w (exit.finalLane s req) = true := by
  refine ⟨fun h => ?_, fun h _ => h⟩
  by_cases hopen : w ∉ c.laneWorkers ∨ exit.downgraded s req = true
  · exact h hopen
  · rw [not_or, not_not, Bool.not_eq_true] at hopen
    rw [Exit.finalLane, hopen.2]
    exact supports_of_mem_laneWorkers hstrict hc hopen.1

/-- With strict lanes. The ids of the registry are a primary key. -/
theorem routed_worker_executes_iff (hstrict : s.env.strictWorkerLanes = true)
    (hids : (s.workers.map Worker.workerId).Nodup) (h : selectRoute s req = .ok route) :
    Executes s.workers route ↔ Fits s req := by
  obtain ⟨c, exit, hc, hexit, rfl⟩ := selectRoute_eq h
  have hworkers := workers_of_candidates hc
  have hunique : ∀ {w w' : Worker}, w ∈ c.workers → w' ∈ c.workers → w.workerId = w'.workerId → w = w' := by
    intro w w' hw hw'
    rw [hworkers] at hw hw'
    exact List.inj_on_of_nodup_map hids hw hw'
  have hid : exit.workerId c = _ := Exit.workerId_eq_foldr (by
    rintro w reason rfl
    exact mem_laneWorkers_of_selectExit hexit)
  have hiff : Executes s.workers (exit.route s req c) ↔ exit.Fits s req c := by
    rw [Executes, chosenWorkerId_route, chosenNodeId_route, finalLane_route, ← hworkers, hid, Exit.Fits,
      ← Lookup.chainFits_iff hunique]
    simp only [takes_iff hstrict hc]
  rw [hiff]
  constructor
  · exact fun hfits => ⟨c, exit, hc, hexit, hfits⟩
  · rintro ⟨c', exit', hc', hexit', hfits⟩
    cases hc.symm.trans hc'
    cases hexit.symm.trans hexit'
    exact hfits

section Runs

def strict (nodes : List Node) (workers : List Worker) : State :=
  { started nodes workers with env := { defaults with strictWorkerLanes := true } }

def hitWorker (workerId nodeId : String) : Worker := ⟨workerId, nodeId, 0, 0, ⟨[], "hit_only", true, false, 0⟩⟩

def coldNode : State := strict [⟨"n1", 0, 0, 0⟩, ⟨"n2", 1, 0, 0⟩] [hitWorker "w1" "n1", worker "w2" "n2" 1]

/-- The session ran on the first node, and its worker has moved to the second one since. -/
def movedWorker : State :=
  { strict [⟨"n1", 0, 0, 0⟩, ⟨"n2", 0, 0, 0⟩] [worker "w1" "n2" 0] with sessionAffinity := fun _ => some ⟨"n1", "w1", 0⟩ }

/-- The snapshot is on a node that has gone, and sending it would take a hundred milliseconds. -/
def lostSnapshot : State :=
  { strict [⟨"n1", 0, 0, 0⟩] [hitWorker "w1" "n1"] with
    locations := fun _ _ => [{ nodeId := "n2", workerId := "w2", sizeBytes := 100 }] }

def sessionRequest : Request := { missRequest with sessionId := "session" }

def hitRequest : Request := { missRequest with predictedLane := .hit }

theorem routed_worker_executes_strict_pair :
    Executes (strict [] [worker "w1" "" 0, worker "w2" "" 1]).workers ⟨"", "w1", "least_loaded", .miss, false, none⟩ ∧
      Fits (strict [] [worker "w1" "" 0, worker "w2" "" 1]) missRequest := by
  have hexecutes : Executes (strict [] [worker "w1" "" 0, worker "w2" "" 1]).workers
      ⟨"", "w1", "least_loaded", .miss, false, none⟩ := by decide
  exact ⟨hexecutes, (routed_worker_executes_iff rfl (by decide) rfl).1 hexecutes⟩

/-- A worker that takes no misses is sent one, a session is sent to the node that its worker has left, and a hit becomes a
miss for a worker that only takes hits. -/
theorem routed_worker_cannot_execute :
    selectRoute coldNode missRequest = .ok ⟨"n1", "w1", "least_loaded", .miss, false, none⟩ ∧
      ¬ Executes coldNode.workers ⟨"n1", "w1", "least_loaded", .miss, false, none⟩ ∧
    selectRoute movedWorker sessionRequest = .ok ⟨"n1", "w1", "worker_affinity", .miss, false, none⟩ ∧
      ¬ Executes movedWorker.workers ⟨"n1", "w1", "worker_affinity", .miss, false, none⟩ ∧
    selectRoute lostSnapshot hitRequest = .ok ⟨"n1", "w1", "transfer_too_expensive", .miss, true, none⟩ ∧
      ¬ Executes lostSnapshot.workers ⟨"n1", "w1", "transfer_too_expensive", .miss, true, none⟩ := by
  refine ⟨rfl, ?_, rfl, ?_, rfl, ?_⟩
  · decide
  · decide
  · decide

end Runs

end Korith.Router
