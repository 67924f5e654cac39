import Korith.Lib.Run
import Korith.Proofs.ConnectorLayers
import Korith.Proofs.ConnectorTokens

/-!
# Whether a matched prefix is loaded

`get_num_new_matched_tokens` asks the set of all hashes that were ever saved, `start_load_kv` asks the pool, and nothing
takes a hash out of the set. A pool that has the hash at the match keeps it until `_evict_one` picks it, for itself or
to make room for a save; a save of the hash itself takes it out and puts it back if it finds room.
-/

set_option linter.unusedSectionVars false

namespace Korith.Vllm

variable {K Row R F : Type} [DecidableEq K] [FloatArith F]

namespace CompressedVRAMPool

variable {env : PoolEnv F} {g : Geometry} {s s' : CompressedVRAMPool K R F} {k k' : K} {blobs : List (CompressedKV R)}
  {allocation : List (Slot × CompressedKV R)} {layer needed rounds : Nat}

end CompressedVRAMPool

namespace Connector

variable {env : ConnectorEnv K Row R F} {s s' : Connector K Row R F} {requests : List (AMFReqMeta K)}
  {req : AMFReqMeta K} {layers : List (LayerName × Option (List Row))} {k : K} {pool attnMetadata : Bool}

/-- A call of the connector, or an eviction by the pool. A match query changes nothing. -/
inductive Call (K Row : Type)
  | updateStateAfterAlloc (request : Request) (numExternalTokens : Nat)
  | buildConnectorMeta (newReqs : List NewReq) (cached : List CachedReq)
  | startLoadKv (pool attnMetadata : Bool) (requests : List (AMFReqMeta K))
      (layers : List (LayerName × Option (List Row)))
  | saveKvLayer (requests : List (AMFReqMeta K)) (layerName : LayerName) (kvLayer : KvLayer Row)
  | waitForSave
  | evict

def Call.perform (env : ConnectorEnv K Row R F) (s : Connector K Row R F) : Call K Row → Option (Connector K Row R F)
  | updateStateAfterAlloc request numExternalTokens => some (s.updateStateAfterAlloc request numExternalTokens)
  | buildConnectorMeta newReqs cached => some (s.buildConnectorMeta env newReqs cached).2
  | startLoadKv pool attnMetadata requests layers => (s.startLoadKv env pool attnMetadata requests layers).map Prod.fst
  | saveKvLayer requests layerName kvLayer => s.saveKvLayer requests layerName kvLayer
  | waitForSave => s.waitForSave env
  | evict => some { s with pool := (s.pool.evictOne env.pool env.geometry).2 }

/-- A run ends at the first call that raises an exception. -/
def run (env : ConnectorEnv K Row R F) (s : Connector K Row R F) (calls : List (Call K Row)) :
    Option (Connector K Row R F) := Run.run (Call.perform env) calls s

/-- The record of a request for the step, and the tokens whose head is hashed for it: the prompt of a new request, all
tokens up to the end of the step for a resumed one. -/
inductive Scheduled (env : ConnectorEnv K Row R F) (s : Connector K Row R F) (newReqs : List NewReq)
    (cached : List CachedReq) (request : Request) : List Int → AMFReqMeta K → Prop
  | new (req : NewReq) (hreq : req ∈ newReqs) (hload : (s.requestsNeedLoad.lookup req.reqId).isSome = true)
      (hprompt : req.promptTokenIds = request.promptTokenIds) :
      Scheduled env s newReqs cached request request.promptTokenIds (metaOfNew env s req)
  | resumed (req : CachedReq) (hreq : req ∈ cached) (hresumed : req.resumed = true)
      (hload : s.requestsNeedLoad.lookup req.reqId = some request) (record : AMFReqMeta K)
      (hrecord : metaOfCached env req request = some record) :
      Scheduled env s newReqs cached request
        (request.allTokenIds.take (req.numComputedTokens + req.numScheduledTokens)) record

theorem Scheduled.mem {newReqs : List NewReq} {cached : List CachedReq} {request : Request} {tokens : List Int}
    {metas : List (AMFReqMeta K)} (h : Scheduled env s newReqs cached request tokens req)
    (hbuild : (s.buildConnectorMeta env newReqs cached).1 = some metas) :
    req ∈ metas ∧ req.isStore = false ∧ req.prefixHash = prefixHash env tokens := by
  unfold buildConnectorMeta at hbuild
  dsimp only at hbuild
  split at hbuild
  · cases hbuild
  · rename_i resumed hresumed
    split_ifs at hbuild
    cases hbuild
    cases h with
    | new n hn hload hprompt =>
      refine ⟨List.mem_append_left _ (List.mem_map_of_mem hn), ?_, congrArg (prefixHash env) hprompt⟩
      simp [metaOfNew, AMFReqMeta.make, hload]
    | resumed c hc hres hload record hrecord =>
      have hmem : (c, request) ∈ resumedToLoad s cached :=
        List.mem_filterMap.2 ⟨c, hc, by rw [if_pos hres, hload]; rfl⟩
      obtain ⟨i, hi⟩ := List.mem_iff_getElem?.1 hmem
      obtain ⟨record', hrecord', hget⟩ := getElem?_of_mapM hresumed hi
      cases hrecord.symm.trans hrecord'
      obtain ⟨blockIds, -, rfl⟩ := Option.map_eq_some_iff.1 hrecord
      exact ⟨List.mem_append_right _ (List.mem_of_getElem? hget), rfl, rfl⟩

end Connector

end Korith.Vllm
