import Korith.Platform.Router
import Korith.Proofs.QueueDrain

/-!
# Whether a routed job can be delivered

The queue hands a row out to the worker whose id it names and to no other. So the job can be delivered exactly if the
id that `_select_route` chooses is one of a registered worker (`deliverable_iff`). `Served` says for each exit when it
is: an id is not checked if there is none to check it against, and the empty text is chosen for a node without workers
or if the router has remembered it.
-/

namespace Korith.Router

open Queue (CanTake OpenTo SQLiteQueue)

variable {s : State} {req : Request} {c : Candidates} {exit : Exit} {route : Route} {e : Affinity}
  {a b id nodeId : String} {xs : List String} {workers : List Worker}

def Registered (workers : List Worker) (id : String) : Prop := ∃ w ∈ workers, w.workerId = id
  deriving Decidable

def Staffed (workers : List Worker) (nodeId : String) : Prop := nodeId ≠ "" ∧ ∃ w ∈ workers, w.nodeId = nodeId
  deriving Decidable

def Known (c : Candidates) (id : String) : Prop := id = "" ∨ Registered c.workers id

/-! ### Ids -/

theorem mem_ids : id ∈ ids xs ↔ id ∈ xs ∧ id ≠ "" := by
  simp [ids]

theorem mem_workerIds : id ∈ c.workerIds ↔ Registered c.workers id ∧ id ≠ "" := by
  simp [Candidates.workerIds, mem_ids, Registered]

theorem registered_of_mem_laneWorkerIds (h : id ∈ c.laneWorkerIds) : Registered c.workers id := by
  obtain ⟨hmem, -⟩ := mem_ids.1 h
  obtain ⟨w, hw, rfl⟩ := List.mem_map.1 hmem
  exact ⟨w, c.subset hw, rfl⟩

theorem workerIds_ne_nil (h : c.laneWorkerIds ≠ []) : c.workerIds ≠ [] := by
  obtain ⟨id, hid⟩ := List.exists_mem_of_ne_nil _ h
  exact List.ne_nil_of_mem (mem_workerIds.2 ⟨registered_of_mem_laneWorkerIds hid, (mem_ids.1 hid).2⟩)

theorem registered_empty (hlane : c.laneWorkerIds = []) (h : Registered c.workers id) : Registered c.workers "" := by
  obtain ⟨w, hw, -⟩ := h
  have hne : c.laneWorkers ≠ [] := fun hnil => List.ne_nil_of_mem hw (c.workers_eq_nil hnil)
  obtain ⟨w₀, hw₀⟩ := List.exists_mem_of_ne_nil _ hne
  refine ⟨w₀, c.subset hw₀, ?_⟩
  by_contra hid
  have hmem : w₀.workerId ∈ c.laneWorkerIds := mem_ids.2 ⟨List.mem_map_of_mem hw₀, hid⟩
  rw [hlane] at hmem
  cases hmem

theorem orId_empty_left : orId "" b = b := if_pos rfl

theorem orId_of_ne (h : a ≠ "") : orId a b = a := if_neg h

theorem orId_eq_empty : orId a b = "" ↔ a = "" ∧ b = "" := by
  by_cases ha : a = ""
  · simp [ha, orId_empty_left]
  · simp [ha, orId_of_ne]

theorem Known.orId (ha : Known c a) (hb : Known c b) : Known c (orId a b) := by
  by_cases h : a = ""
  · rwa [h, orId_empty_left]
  · rwa [orId_of_ne h]

theorem Known.registered_iff (h : Known c id) : Registered c.workers id ↔ id ≠ "" ∨ Registered c.workers "" := by
  rcases h with rfl | h
  · simp
  · simp only [h, true_iff]
    by_cases hid : id = ""
    · exact .inr (hid ▸ h)
    · exact .inl hid

theorem resolveWorkerId_of_mem (h : id ∈ xs) : resolveWorkerId id xs = id := by
  unfold resolveWorkerId
  split_ifs with hid hout
  · exact hid.symm
  · exact absurd h hout.2
  · rfl

theorem resolveWorkerId_nil : resolveWorkerId id [] = id := by
  unfold resolveWorkerId
  split_ifs with hid hout
  · exact hid.symm
  · exact absurd rfl hout.1
  · rfl

theorem resolveWorkerId_of_not_mem (hxs : xs ≠ []) (h : id ∉ xs) : resolveWorkerId id xs = "" := by
  simp [resolveWorkerId, hxs, h]

theorem resolveWorkerId_empty : resolveWorkerId "" xs = "" := if_pos rfl

theorem known_resolve_workerIds (h : id = "" ∨ c.workerIds ≠ []) : Known c (resolveWorkerId id c.workerIds) := by
  by_cases hmem : id ∈ c.workerIds
  · rw [resolveWorkerId_of_mem hmem]
    exact .inr (mem_workerIds.1 hmem).1
  · rcases h with rfl | h
    · exact .inl resolveWorkerId_empty
    · exact .inl (resolveWorkerId_of_not_mem h hmem)

/-! ### Workers of a node -/

theorem pickWorkerForNode_of_ne (h : nodeId ≠ "") : pickWorkerForNode nodeId workers =
    ((sortedHead (fun w => [w.inflight, -w.lastHeartbeat])
      (workers.filter fun w => decide (w.nodeId = nodeId))).map Worker.workerId).getD "" := if_neg h

theorem pickWorkerForNode_eq (h : pickWorkerForNode nodeId workers ≠ "") :
    nodeId ≠ "" ∧ ∃ w ∈ workers, w.nodeId = nodeId ∧ w.workerId = pickWorkerForNode nodeId workers := by
  by_cases hnode : nodeId = ""
  · exact absurd (if_pos hnode) h
  refine ⟨hnode, ?_⟩
  rw [pickWorkerForNode_of_ne hnode] at h ⊢
  cases hmin : sortedHead (fun w => [w.inflight, -w.lastHeartbeat])
      (workers.filter fun w => decide (w.nodeId = nodeId)) with
  | none =>
    rw [hmin] at h
    exact absurd rfl h
  | some w =>
    obtain ⟨hw, hwnode⟩ := List.mem_filter.1 (mem_of_sortedHead hmin)
    rw [Option.map_some, Option.getD_some]
    exact ⟨w, hw, of_decide_eq_true hwnode, rfl⟩

theorem registered_pick (hnode : nodeId ≠ "") (h : ∃ w ∈ workers, w.nodeId = nodeId) :
    Registered workers (pickWorkerForNode nodeId workers) := by
  obtain ⟨w, hw, rfl⟩ := h
  rw [pickWorkerForNode_of_ne hnode]
  cases hmin : sortedHead (fun w => [w.inflight, -w.lastHeartbeat])
      (workers.filter fun w' => decide (w'.nodeId = w.nodeId)) with
  | none =>
    have hmem : w ∈ workers.filter fun w' => decide (w'.nodeId = w.nodeId) := List.mem_filter.2 ⟨hw, decide_eq_true rfl⟩
    rw [sortedHead_eq_none.1 hmin] at hmem
    cases hmem
  | some w₀ => exact ⟨w₀, (List.mem_filter.1 (mem_of_sortedHead hmin)).1, rfl⟩

def pick (c : Candidates) (nodeId : String) : String :=
  orId (pickWorkerForNode nodeId c.laneWorkers) (pickWorkerForNode nodeId c.workers)

theorem known_pickWorkerForNode (hsub : workers ⊆ c.workers) : Known c (pickWorkerForNode nodeId workers) := by
  by_cases h : pickWorkerForNode nodeId workers = ""
  · exact .inl h
  · obtain ⟨-, w, hw, -, hid⟩ := pickWorkerForNode_eq h
    exact .inr ⟨w, hsub hw, hid⟩

theorem known_pick : Known c (pick c nodeId) :=
  (known_pickWorkerForNode c.subset).orId (known_pickWorkerForNode (List.Subset.refl _))

theorem registered_pick_iff : Registered c.workers (pick c nodeId) ↔ Registered c.workers "" ∨ Staffed c.workers nodeId := by
  rw [known_pick.registered_iff, or_comm]
  refine or_congr_right' fun hempty => ?_
  constructor
  · intro h
    have : pickWorkerForNode nodeId c.laneWorkers ≠ "" ∨ pickWorkerForNode nodeId c.workers ≠ "" := by
      simpa only [pick, ne_eq, orId_eq_empty, not_and_or] using h
    rcases this with hlane | hall
    · obtain ⟨hnode, w, hw, hwnode, -⟩ := pickWorkerForNode_eq hlane
      exact ⟨hnode, w, c.subset hw, hwnode⟩
    · obtain ⟨hnode, w, hw, hwnode, -⟩ := pickWorkerForNode_eq hall
      exact ⟨hnode, w, hw, hwnode⟩
  · rintro ⟨hnode, hworker⟩ hpick
    have hregistered := registered_pick hnode hworker
    rw [(orId_eq_empty.1 hpick).2] at hregistered
    exact hempty hregistered

/-! ### The chains of fallbacks -/

/-- An id that is looked up among the workers of the lane first: it is not checked if these have no ids. -/
theorem registered_resolve_orId (hknown : id = "" ∨ c.laneWorkerIds ≠ [] → Known c b)
    (hfound : id ≠ "" → Registered c.workers id → c.laneWorkerIds ≠ [] → b ≠ "") :
    Registered c.workers (orId (resolveWorkerId id c.laneWorkerIds) b) ↔
      Registered c.workers id ∨ (c.laneWorkerIds ≠ [] ∧ (Registered c.workers "" ∨ Registered c.workers b)) := by
  by_cases hlane : c.laneWorkerIds = []
  · rw [hlane, resolveWorkerId_nil]
    by_cases hid : id = ""
    · subst hid
      have hb := hknown (.inl rfl)
      rw [orId_empty_left]
      simp only [ne_eq, not_true_eq_false, false_and, or_false]
      exact ⟨registered_empty hlane, fun h => hb.registered_iff.2 (.inr h)⟩
    · simp [orId_of_ne hid]
  · have hb := hknown (.inr hlane)
    simp only [ne_eq, hlane, not_false_eq_true, true_and]
    by_cases hmem : id ∈ c.laneWorkerIds
    · have hregistered := registered_of_mem_laneWorkerIds hmem
      rw [resolveWorkerId_of_mem hmem, orId_of_ne (mem_ids.1 hmem).2]
      simp [hregistered]
    · rw [resolveWorkerId_of_not_mem hlane hmem, orId_empty_left]
      constructor
      · exact fun h => .inr (.inr h)
      · rintro (h | h | h)
        · by_cases hid : id = ""
          · exact hb.registered_iff.2 (.inr (hid ▸ h))
          · exact hb.registered_iff.2 (.inl (hfound hid h hlane))
        · exact hb.registered_iff.2 (.inr h)
        · exact h

theorem registered_affinity (hvalid : e.valid s c = true) :
    Registered c.workers (orId (resolveWorkerId e.workerId c.laneWorkerIds) (resolveWorkerId e.workerId c.workerIds)) ↔
      Registered c.workers e.workerId := by
  have hchecked : e.workerId = "" ∨ c.workerIds = [] ∨ e.workerId ∈ c.workerIds := by
    simp only [Affinity.valid, Bool.and_eq_true, Bool.not_eq_true', decide_eq_false_iff_not] at hvalid
    by_contra! h
    exact hvalid.1.2 h
  rw [registered_resolve_orId]
  · refine or_iff_left_of_imp ?_
    rintro ⟨hlane, h⟩
    rcases hchecked with hid | hnil | hmem
    · rw [hid, resolveWorkerId_empty, or_self] at h
      rwa [hid]
    · exact absurd hnil (workerIds_ne_nil hlane)
    · exact (mem_workerIds.1 hmem).1
  · exact fun h => known_resolve_workerIds (h.imp_right workerIds_ne_nil)
  · intro hid hregistered _
    rwa [resolveWorkerId_of_mem (mem_workerIds.2 ⟨hregistered, hid⟩)]

/-- An id and a node: a worker of the node is as good. The order of the lookups does not matter. -/
theorem registered_resolve_pick (hb : b = orId (pickWorkerForNode nodeId c.laneWorkers)
        (orId (resolveWorkerId id c.workerIds) (pickWorkerForNode nodeId c.workers)) ∨
      b = orId (resolveWorkerId id c.workerIds) (pick c nodeId)) :
    Registered c.workers (orId (resolveWorkerId id c.laneWorkerIds) b) ↔
      Registered c.workers id ∨
        (c.laneWorkerIds ≠ [] ∧ (Registered c.workers "" ∨ Staffed c.workers nodeId)) := by
  rw [registered_resolve_orId]
  · refine or_congr_right' fun hid => and_congr_right fun hlane => ?_
    have hresolve : resolveWorkerId id c.workerIds = "" :=
      resolveWorkerId_of_not_mem (workerIds_ne_nil hlane) fun hmem => hid (mem_workerIds.1 hmem).1
    have hpick : b = pick c nodeId := by
      rcases hb with rfl | rfl <;> rw [hresolve, orId_empty_left]
      rfl
    rw [hpick, registered_pick_iff, ← or_assoc, or_self]
  · intro h
    have hresolve := known_resolve_workerIds (h.imp_right workerIds_ne_nil)
    rcases hb with rfl | rfl
    · exact (known_pickWorkerForNode c.subset).orId (hresolve.orId (known_pickWorkerForNode (List.Subset.refl _)))
    · exact hresolve.orId known_pick
  · intro hid hregistered _ hempty
    have hresolve := resolveWorkerId_of_mem (mem_workerIds.2 ⟨hregistered, hid⟩)
    rcases hb with rfl | rfl
    · exact hid (hresolve ▸ (orId_eq_empty.1 (orId_eq_empty.1 hempty).2).1)
    · exact hid (hresolve ▸ (orId_eq_empty.1 hempty).1)

theorem registered_coordinator {row : Location} (h : coordinatorWorkerId c row ≠ "") :
    Registered c.workers (coordinatorWorkerId c row) ↔ c.laneWorkerIds ≠ [] ∨ Registered c.workers row.workerId := by
  have hrow : coordinatorWorkerId c row = orId (resolveWorkerId row.workerId c.laneWorkerIds) (pick c row.nodeId) := rfl
  rw [hrow] at h ⊢
  by_cases hlane : c.laneWorkerIds = []
  · simp only [hlane, ne_eq, not_true_eq_false, false_or]
    rw [hlane, resolveWorkerId_nil] at h
    rw [resolveWorkerId_nil]
    by_cases hid : row.workerId = ""
    · rw [hid, orId_empty_left] at h ⊢
      have hregistered := known_pick.registered_iff.2 (.inl h)
      exact ⟨registered_empty hlane, fun _ => hregistered⟩
    · rw [orId_of_ne hid]
  · simp only [ne_eq, hlane, not_false_eq_true, true_or, iff_true]
    by_cases hmem : row.workerId ∈ c.laneWorkerIds
    · rw [resolveWorkerId_of_mem hmem, orId_of_ne (mem_ids.1 hmem).2]
      exact registered_of_mem_laneWorkerIds hmem
    · rw [resolveWorkerId_of_not_mem hlane hmem, orId_empty_left] at h ⊢
      exact known_pick.registered_iff.2 (.inl h)

/-! ### The exits -/

namespace Exit

def Served (c : Candidates) : Exit → Prop
  | coordinatorCache row => c.laneWorkerIds ≠ [] ∨ Registered c.workers row.workerId
  | workerAffinity e => Registered c.workers e.workerId
  | nodeLocality loc => Registered c.workers loc.workerId ∨
      (c.laneWorkerIds ≠ [] ∧ (Registered c.workers "" ∨ Staffed c.workers loc.nodeId))
  | fingerprintAffinity e => Registered c.workers e.workerId
  | shapeAffinity e => Registered c.workers e.workerId ∨
      (c.laneWorkerIds ≠ [] ∧ (Registered c.workers "" ∨ Staffed c.workers e.nodeId))
  | shapeAffinityOverloaded node => Registered c.workers "" ∨ Staffed c.workers node.nodeId
  | leastLoaded node => Registered c.workers "" ∨ Staffed c.workers node.nodeId
  | singleNode _ _ => True

/-- What has been checked of an exit that is taken. -/
def Checked (s : State) (c : Candidates) : Exit → Prop
  | coordinatorCache row => coordinatorWorkerId c row ≠ ""
  | workerAffinity e => e.valid s c = true
  | fingerprintAffinity e => e.valid s c = true
  | singleNode w _ => w ∈ c.workers
  | _ => True

theorem Checked.registered_workerId (h : exit.Checked s c) : Registered c.workers (exit.workerId c) ↔ exit.Served c := by
  cases exit with
  | coordinatorCache row => exact registered_coordinator h
  | workerAffinity e => exact registered_affinity h
  | nodeLocality loc => exact registered_resolve_pick (.inl rfl)
  | fingerprintAffinity e => exact registered_affinity h
  | shapeAffinity e => exact registered_resolve_pick (.inr rfl)
  | shapeAffinityOverloaded node => exact registered_pick_iff
  | leastLoaded node => exact registered_pick_iff
  | singleNode w reason => exact iff_of_true ⟨w, h, rfl⟩ trivial

end Exit

theorem valid_session (h : (remembered s req c).session = some e) : e.valid s c = true := by
  simp only [remembered] at h
  split_ifs at h
  exact (Option.filter_eq_some_iff.1 h).2

theorem valid_fingerprint (h : (remembered s req c).fingerprint = some e) : e.valid s c = true := by
  simp only [remembered] at h
  split_ifs at h
  exact (Option.filter_eq_some_iff.1 h).2

theorem checked_shapeExit {shape : Option Affinity} (h : shapeExit s req c shape = some exit) : exit.Checked s c := by
  have hleast : ∀ f : Node → Exit, (∀ n, (f n).Checked s c) →
      (leastLoadedNode c.nodes req.predictedLane).map f = some exit → exit.Checked s c := by
    intro f hf hmap
    obtain ⟨n, -, rfl⟩ := Option.map_eq_some_iff.1 hmap
    exact hf n
  cases shape with
  | none => exact hleast Exit.leastLoaded (fun _ => trivial) h
  | some e =>
    simp only [shapeExit] at h
    split_ifs at h
    · exact hleast Exit.shapeAffinityOverloaded (fun _ => trivial) h
    · cases h
      trivial

theorem checked_nodeExit (h : nodeExit s req c = some exit) : exit.Checked s c := by
  simp only [nodeExit, Option.or_eq_some_iff, Option.map_eq_some_iff] at h
  rcases h with ⟨row, hrow, rfl⟩ | ⟨-, ⟨e, he, rfl⟩ | ⟨-, ⟨loc, -, rfl⟩ | ⟨-, ⟨e, he, rfl⟩ | ⟨-, h⟩⟩⟩⟩
  · simp only [coordinatorRow] at hrow
    split_ifs at hrow
    have hworker : coordinatorWorkerId c row ≠ "" := by simpa using (Option.filter_eq_some_iff.1 hrow).2
    exact hworker
  · exact valid_session (Option.filter_eq_some_iff.1 (Option.filter_eq_some_iff.1 he).1).1
  · trivial
  · exact valid_fingerprint (Option.filter_eq_some_iff.1 he).1
  · exact checked_shapeExit h

theorem mem_of_rememberedWorker {entry : Option Affinity} {w : Worker}
    (h : rememberedWorker workers entry = some w) : w ∈ workers := by
  obtain ⟨e, -, hfind⟩ := Option.bind_eq_some_iff.1 h
  exact List.mem_of_find?_eq_some hfind

theorem selectWorkerSingleNode_eq {mem : Remembered}
    (h : selectWorkerSingleNode s workers mem = some exit) : ∃ w ∈ workers, ∃ reason, exit = .singleNode w reason := by
  simp only [selectWorkerSingleNode, Option.or_eq_some_iff, Option.map_eq_some_iff] at h
  rcases h with ⟨w, hw, rfl⟩ | ⟨-, ⟨w, hw, rfl⟩ | ⟨-, ⟨w, hw, rfl⟩ | ⟨-, w, hw, rfl⟩⟩⟩
  · exact ⟨w, mem_of_rememberedWorker hw, _, rfl⟩
  · exact ⟨w, mem_of_rememberedWorker hw, _, rfl⟩
  · exact ⟨w, mem_of_rememberedWorker (Option.filter_eq_some_iff.1 hw).1, _, rfl⟩
  · exact ⟨w, mem_of_sortedHead hw, _, rfl⟩

theorem selectExit_cases (h : selectExit s req c = .ok exit) :
    (∃ w ∈ orElse c.laneWorkers c.workers, ∃ reason, exit = .singleNode w reason) ∨ nodeExit s req c = some exit := by
  unfold selectExit at h
  split_ifs at h with hnodes
  · split at h
    · rename_i hexit
      cases h
      exact .inl (selectWorkerSingleNode_eq hexit)
    · cases h
  · split at h
    · rename_i hexit
      cases h
      exact .inr hexit
    · cases h

theorem checked_of_selectExit (h : selectExit s req c = .ok exit) : exit.Checked s c := by
  rcases selectExit_cases h with ⟨w, hw, reason, rfl⟩ | hexit
  · exact orElse_subset c.subset (List.Subset.refl _) hw
  · exact checked_nodeExit hexit

theorem workers_of_candidates (h : candidates s req.predictedLane = .ok c) : c.workers = s.workers := by
  simp only [candidates] at h
  split_ifs at h <;> cases h <;> rfl

theorem chosenWorkerId_decideTransfer : (decideTransfer s req route).chosenWorkerId = route.chosenWorkerId := by
  unfold decideTransfer
  dsimp only
  split
  · split
    · split <;> rfl
    · rfl
  · rfl

theorem chosenWorkerId_route : (exit.route s req c).chosenWorkerId = exit.workerId c := by
  unfold Exit.route
  dsimp only
  split
  · exact chosenWorkerId_decideTransfer
  · rfl

def Served (s : State) (req : Request) : Prop :=
  ∃ c exit, candidates s req.predictedLane = .ok c ∧ selectExit s req c = .ok exit ∧ exit.Served c

theorem selectRoute_eq (h : selectRoute s req = .ok route) :
    ∃ c exit, candidates s req.predictedLane = .ok c ∧ selectExit s req c = .ok exit ∧ route = exit.route s req c := by
  obtain ⟨c, hc, h⟩ := bind_eq_ok.1 h
  obtain ⟨exit, hexit, h⟩ := bind_eq_ok.1 h
  exact ⟨c, exit, hc, hexit, (Except.ok.inj h).symm⟩

theorem registered_chosen_iff (h : selectRoute s req = .ok route) :
    Registered s.workers route.chosenWorkerId ↔ Served s req := by
  obtain ⟨c, exit, hc, hexit, rfl⟩ := selectRoute_eq h
  rw [chosenWorkerId_route, ← workers_of_candidates hc, (checked_of_selectExit hexit).registered_workerId]
  constructor
  · exact fun hserved => ⟨c, exit, hc, hexit, hserved⟩
  · rintro ⟨c', exit', hc', hexit', hserved⟩
    cases hc.symm.trans hc'
    cases hexit.symm.trans hexit'
    exact hserved

/-! ### The queue -/

variable {reclaimInflight : Bool} {inflightStaleS now : Int} {jobId : String}
  {q q₁ : SQLiteQueue String String Int Payload}

theorem submit_eq {cfg : Queue.Config String Int Payload} (h : submit cfg s req jobId now q = .ok q₁) :
    ∃ route, selectRoute s req = .ok route ∧ q₁ = Queue.enqueue cfg jobId (payload route) now q := by
  obtain ⟨route, hroute, h⟩ := bind_eq_ok.1 h
  exact ⟨route, hroute, (Except.ok.inj h).symm⟩

theorem exists_some_eq_iff : (∃ w ∈ workers, some id = none ∨ some id = some w.workerId) ↔ Registered workers id := by
  simp only [reduceCtorEq, false_or, Option.some.injEq, Registered, eq_comm]

/-- When `submit` accepts the job, and later on, after anything that has happened to the queue. -/
theorem routed_job_deliverable_iff
    (hsubmit : submit (queueConfig reclaimInflight inflightStaleS) s req jobId now q = .ok q₁) :
    ((∃ w ∈ s.workers, CanTake (queueConfig reclaimInflight inflightStaleS) q₁ w.workerId jobId) ↔ Served s req) ∧
      ∃ route, selectRoute s req = .ok route ∧
        ∀ evs q₂ r t t' workers, Queue.run (queueConfig reclaimInflight inflightStaleS) evs q₁ = some q₂ →
          (∀ p t, .enqueue jobId p t ∉ evs) → q₂.find jobId = some r →
          (r.status = .queued ∨ Queue.Stale (queueConfig reclaimInflight inflightStaleS) t r) →
          ((∃ w ∈ workers, CanTake (queueConfig reclaimInflight inflightStaleS)
              (Queue.reclaimStaleInflight (queueConfig reclaimInflight inflightStaleS) t t' q₂) w.workerId jobId) ↔
            Registered workers route.chosenWorkerId) := by
  obtain ⟨route, hroute, rfl⟩ := submit_eq hsubmit
  refine ⟨?_, route, hroute, ?_⟩
  · rw [← registered_chosen_iff hroute]
    simp only [Queue.canTake_iff, Queue.openTo_enqueue_iff]
    exact exists_some_eq_iff
  · intro evs q₂ r t t' workers hrun hfresh hr hlease
    have hnames := Queue.names_enqueue.run hrun hfresh
    simp only [Queue.canTake_iff, Queue.openTo_reclaim_iff hnames hr hlease]
    exact exists_some_eq_iff

section Runs

def defaults : Env where
  strictWorkerLanes := false
  enableFingerprintAffinity := true
  enableShapeAffinity := true
  preferReplayLocalForHit := false
  affinityTtlS := 900
  shapeAffinityMaxInflightDelta := 2
  transferAllowedTiers := ["vram", "ram", "nvme", "unknown"]
  transferMs size _ := size
  transferLimitMs _ _ := 40

def worker (workerId nodeId : String) (inflight : Int) : Worker :=
  ⟨workerId, nodeId, inflight, 0, ⟨[], "all", false, false, 0⟩⟩

def started (nodes : List Node) (workers : List Worker) : State :=
  ⟨defaults, nodes, workers, fun _ => none, fun _ => none, fun _ => none, fun _ _ => [], fun _ _ => [], 0⟩

def missRequest : Request := ⟨"", "acme", "acme", "fp", .miss, "", ""⟩

def pair : State := started [] [worker "w1" "" 0, worker "w2" "" 1]

def unstaffed : State := started [⟨"n1", 0, 0, 0⟩, ⟨"n2", 1, 0, 0⟩] [worker "w2" "n2" 1]

theorem selectRoute_pair : selectRoute pair missRequest = .ok ⟨"", "w1", "least_loaded", .miss, false, none⟩ := rfl

theorem selectRoute_unstaffed :
    selectRoute unstaffed missRequest = .ok ⟨"n1", "", "least_loaded", .miss, false, none⟩ := rfl

def queued (route : Route) : SQLiteQueue String String Int Payload :=
  Queue.enqueue (queueConfig true 900) "j" (payload route) 0 Table.empty

theorem submit_of_route (h : selectRoute s req = .ok route) :
    submit (queueConfig true 900) s req "j" 0 Table.empty = .ok (queued route) := by
  rw [submit, h]
  rfl

theorem routed_job_deliverable_pair : submit (queueConfig true 900) pair missRequest "j" 0 Table.empty =
        .ok (queued ⟨"", "w1", "least_loaded", .miss, false, none⟩) ∧
      ∃ w ∈ pair.workers, CanTake (queueConfig true 900) (queued ⟨"", "w1", "least_loaded", .miss, false, none⟩)
        w.workerId "j" := by
  have hsubmit := submit_of_route selectRoute_pair
  have hserved : Served pair missRequest :=
    (registered_chosen_iff selectRoute_pair).1 ⟨worker "w1" "" 0, List.mem_cons_self, rfl⟩
  exact ⟨hsubmit, (routed_job_deliverable_iff hsubmit).1.2 hserved⟩

/-- The job of the empty node is for nobody. The other one is handed to its worker, which goes away with it; when the lease has
run out, no other worker can have it. -/
theorem routed_job_undeliverable :
    (∃ q₁, submit (queueConfig true 900) unstaffed missRequest "j" 0 Table.empty = .ok q₁ ∧
        ¬ ∃ w ∈ unstaffed.workers, CanTake (queueConfig true 900) q₁ w.workerId "j") ∧
      ∃ q₁ q₂, submit (queueConfig true 900) pair missRequest "j" 0 Table.empty = .ok q₁ ∧
        Queue.run (queueConfig true 900) [.dequeue "w1" "j" 5, .reclaim 905 905] q₁ = some q₂ ∧
        (q₂.find "j").map Queue.Row.status = some .queued ∧
        ∀ w, w ≠ "w1" → ¬ CanTake (queueConfig true 900) q₂ w "j" := by
  constructor
  · refine ⟨_, submit_of_route selectRoute_unstaffed, ?_⟩
    rintro ⟨w, hw, hcan⟩
    obtain rfl := List.mem_singleton.1 hw
    rw [Queue.canTake_iff, queued, Queue.openTo_enqueue_iff] at hcan
    revert hcan
    decide
  · refine ⟨_, _, submit_of_route selectRoute_pair, rfl, rfl, ?_⟩
    intro w hw hcan
    obtain ⟨r, hr, -, htarget⟩ := Queue.canTake_iff.1 hcan
    cases hr
    rcases htarget with htarget | htarget
    · cases htarget
    · exact hw (Option.some.inj htarget).symm

end Runs

end Korith.Router
