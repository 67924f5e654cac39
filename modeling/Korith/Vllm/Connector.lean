import Korith.Lib.Python
import Korith.Vllm.Pool

/-!
# The KV connector

`AMFKVConnector` puts the pool behind vLLM's connector interface. The scheduler's side hashes the head of a prompt,
says how many of its tokens are in the pool and builds a record for each scheduled request. The worker's side copies
the KV of a request from the paged caches of all layers into a buffer, stores the buffered layers under the hash, and
writes the layers of an entry back into the slots of another request.

A tensor `[2, tokens, heads, dim]` is the list of its tokens' rows, a paged cache the list of the rows of its slots. A
method that raises an exception answers `none`.
-/

namespace Korith.Vllm

abbrev LayerName := List Char

/-- `pyInt` is Python's `int` of a text, `noHash` the empty hash. The codec keeps the number of tokens. -/
structure ConnectorEnv (K Row R F : Type) where
  pool : PoolEnv F
  geometry : Geometry
  hashTokens : List Int → K
  noHash : K
  pyInt : LayerName → Option Int
  compress : List Row → CompressedKV R
  decompress : CompressedKV R → List Row
  length_decompress : ∀ kv, (decompress (compress kv)).length = kv.length
  blockSize : Nat
  blockSize_pos : 0 < blockSize
  minPrefixTokens : Nat

def alignToBlockSize (numTokens : Int) (blockSize : Nat) : Int := (numTokens - 1) / blockSize * blockSize

structure AMFReqMeta (K : Type) where
  requestId : Nat
  prefixHash : K
  tokenIds : List Int
  slotMapping : List Nat
  isStore : Bool
  numTokens : Int

namespace AMFReqMeta

variable {K : Type}

def slotsOf (blockIds : List Nat) (blockSize : Nat) : List Nat :=
  blockIds.flatMap fun b => (List.range blockSize).map fun offset => offset + b * blockSize

def make (requestId : Nat) (prefixHash : K) (tokenIds : List Int) (blockIds : List Nat) (blockSize : Nat)
    (isStore : Bool) : AMFReqMeta K :=
  let validNumTokens := alignToBlockSize tokenIds.length blockSize
  { requestId := requestId
    prefixHash := prefixHash
    tokenIds := pyTake validNumTokens tokenIds
    slotMapping := pyTake validNumTokens (slotsOf blockIds blockSize)
    isStore := isStore
    numTokens := validNumTokens }

def saveSlots (req : AMFReqMeta K) : List Nat :=
  pyTake (min req.slotMapping.length req.numTokens) req.slotMapping

def loadSlots (req : AMFReqMeta K) (tokens : Nat) : List Nat :=
  req.slotMapping.take (min tokens req.slotMapping.length)

end AMFReqMeta

structure Request where
  requestId : Nat
  promptTokenIds : List Int
  allTokenIds : List Int

structure NewReq where
  reqId : Nat
  promptTokenIds : List Int
  blockIds : List Nat

structure CachedReq where
  reqId : Nat
  resumed : Bool
  numComputedTokens : Nat
  numScheduledTokens : Nat
  newBlockIds : Option (List Nat)

/-- Dictionaries are lists in the order of insertion. -/
structure Connector (K Row R F : Type) where
  pool : CompressedVRAMPool K R F
  requestsNeedLoad : List (Nat × Request)
  saveBuffer : List (K × List (LayerName × List Row))
  knownHashes : List K

namespace Connector

variable {K Row R F : Type} [DecidableEq K] [FloatArith F] (env : ConnectorEnv K Row R F) (s : Connector K Row R F)

/-! ### The scheduler's side -/

def numTokensToCheck (tokenIds : List Int) : Int := alignToBlockSize ((tokenIds.length : Int) - 1) env.blockSize

def prefixHash (tokenIds : List Int) : K :=
  if 0 < numTokensToCheck env tokenIds then env.hashTokens (pyTake (numTokensToCheck env tokenIds) tokenIds)
  else env.noHash

def getNumNewMatchedTokens (promptTokenIds : List Int) (numComputedTokens : Nat) : Int :=
  if promptTokenIds.length < env.minPrefixTokens then 0
  else if numTokensToCheck env promptTokenIds ≤ 0 then 0
  else if prefixHash env promptTokenIds ∉ s.knownHashes ∧
      s.pool.index.find (prefixHash env promptTokenIds) = none then 0
  else
    let matched := numTokensToCheck env promptTokenIds - numComputedTokens
    if matched ≤ 0 then 0 else matched

def updateStateAfterAlloc (request : Request) (numExternalTokens : Nat) : Connector K Row R F :=
  if 0 < numExternalTokens then
    { s with requestsNeedLoad := dictSet request.requestId request s.requestsNeedLoad }
  else s

/-- The record of a new request; it is stored unless it is to be loaded. -/
def metaOfNew (req : NewReq) : AMFReqMeta K :=
  let needLoad := (s.requestsNeedLoad.lookup req.reqId).isSome
  .make req.reqId (prefixHash env req.promptTokenIds) req.promptTokenIds req.blockIds env.blockSize !needLoad

/-- The record of a resumed request that is to be loaded; `none` if vLLM has given it no blocks. -/
def metaOfCached (req : CachedReq) (request : Request) : Option (AMFReqMeta K) :=
  let tokenIds := request.allTokenIds.take (req.numComputedTokens + req.numScheduledTokens)
  req.newBlockIds.map fun blockIds =>
    .make req.reqId (prefixHash env tokenIds) tokenIds blockIds env.blockSize false

def resumedToLoad (cached : List CachedReq) : List (CachedReq × Request) :=
  cached.filterMap fun req =>
    if req.resumed then (s.requestsNeedLoad.lookup req.reqId).map fun request => (req, request) else none

def buildConnectorMeta (newReqs : List NewReq) (cached : List CachedReq) :
    Option (List (AMFReqMeta K)) × Connector K Row R F :=
  let metas := newReqs.map (metaOfNew env s)
  match (resumedToLoad s cached).mapM fun x => metaOfCached env x.1 x.2 with
  | none => (none, s)
  | some resumed =>
    if (metas.filter fun m => !m.isStore).length + resumed.length = s.requestsNeedLoad.length then
      (some (metas ++ resumed), { s with requestsNeedLoad := [] })
    else (none, s)

/-! ### Layers -/

def layersPart : LayerName := "layers".toList

/-- The index behind the first part `layers` that is followed by a number. -/
def idxOfParts : List LayerName → Option Int
  | [] => none
  | [_] => none
  | p :: next :: parts =>
    if p = layersPart then
      match env.pyInt next with
      | some idx => some idx
      | none => idxOfParts (next :: parts)
    else idxOfParts (next :: parts)

def layerNameToIdx (name : LayerName) : Option Int := idxOfParts env (name.splitOn '.')

/-! ### Saving -/

/-- A layer's cache as `save_kv_layer` finds it; there are shapes that it skips. -/
inductive KvLayer (Row : Type)
  | slots (rows : List Row)
  | unexpected

def saveRequest (layerName : LayerName) (kvLayer : KvLayer Row) (s : Connector K Row R F) (req : AMFReqMeta K) :
    Option (Connector K Row R F) :=
  if req.isStore then
    match kvLayer with
    | .unexpected => some s
    | .slots rows =>
      (req.saveSlots.mapM fun slot => rows[slot]?).map fun kvData =>
        let layers := (s.saveBuffer.lookup req.prefixHash).getD []
        { s with saveBuffer := dictSet req.prefixHash (dictSet layerName kvData layers) s.saveBuffer }
  else some s

def saveKvLayer (requests : List (AMFReqMeta K)) (layerName : LayerName) (kvLayer : KvLayer Row) :
    Option (Connector K Row R F) :=
  requests.foldlM (saveRequest layerName kvLayer) s

def sortedLayers (layers : List (LayerName × List Row)) : List (LayerName × List Row) :=
  layers.insertionSort fun a b => (layerNameToIdx env a.1).getD 0 ≤ (layerNameToIdx env b.1).getD 0

/-- `torch.stack` raises if the layers have different numbers of tokens. -/
def stackable (layers : List (LayerName × List Row)) : Bool :=
  layers.all fun a => layers.all fun b => decide (a.2.length = b.2.length)

def savePrefix (s : Connector K Row R F) (x : K × List (LayerName × List Row)) : Option (Connector K Row R F) :=
  if x.2 = [] then some s
  else if stackable x.2 = false then none
  else
    let numTokens := (x.2.head?.map fun a => a.2.length).getD 0
    match s.pool.putFromRaw env.pool env.geometry x.1 ((sortedLayers env x.2).map fun a => env.compress a.2) numTokens
        (FloatArith.ofNat 0) with
    | (none, _) => none
    | (some false, pool) => some { s with pool := pool }
    | (some true, pool) => some { s with pool := pool, knownHashes := s.knownHashes.insert x.1 }

def waitForSave : Option (Connector K Row R F) :=
  (s.saveBuffer.foldlM (savePrefix env) s).map fun s => { s with saveBuffer := [] }

/-! ### Loading -/

def scatterRows (slots : List Nat) (rows cache : List Row) : Option (List Row) :=
  (slots.zip rows).foldlM (fun cache x => if x.1 < cache.length then some (cache.set x.1 x.2) else none) cache

def injectRows (req : AMFReqMeta K) (rows cache : List Row) : Option (List Row) :=
  scatterRows (req.loadSlots rows.length) rows cache

def loadLayer (req : AMFReqMeta K) (blobs : List (CompressedKV R)) (layer : LayerName × Option (List Row)) :
    Option (LayerName × Option (List Row)) :=
  match layer.2, layerNameToIdx env layer.1 with
  | some cache, some idx =>
    if blobs.length ≤ idx then some layer
    else
      (pyGet blobs idx).bind fun blob => (injectRows req (env.decompress blob) cache).map fun cache => (layer.1, some cache)
  | _, _ => some layer

def loadRequest (x : CompressedVRAMPool K R F × List (LayerName × Option (List Row))) (req : AMFReqMeta K) :
    Option (CompressedVRAMPool K R F × List (LayerName × Option (List Row))) :=
  if req.isStore then some x
  else
    match x.1.get env.pool req.prefixHash with
    | (none, pool) => some (pool, x.2)
    | (some entry, pool) => (x.2.mapM (loadLayer env req entry.blobs)).map fun layers => (pool, layers)

/-- `pool` says whether `_ensure_pool` gives a pool and `attnMetadata` whether the forward context has metadata. -/
def startLoadKv (pool attnMetadata : Bool) (requests : List (AMFReqMeta K))
    (layers : List (LayerName × Option (List Row))) :
    Option (Connector K Row R F × List (LayerName × Option (List Row))) :=
  if pool = false then some (s, layers)
  else if attnMetadata = false then some (s, layers)
  else (requests.foldlM (loadRequest env) (s.pool, layers)).map fun x => ({ s with pool := x.1 }, x.2)

end Connector

end Korith.Vllm
