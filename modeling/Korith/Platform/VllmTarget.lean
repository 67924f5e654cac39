import Korith.Platform.Coordinator
import Korith.Platform.Governance

/-!
# Where a job is executed

A job names a backend and a model. The router may send it to a vLLM server instead, which it chooses by the lane of
the job (`_resolve_execution_target`); a worker does so again if a local run is out of memory
(`_resolve_vllm_fallback_target`). The fingerprint of the job is taken of the backend and the model that it names.

A variable that is not set is an empty text. Texts that the code strips are given as stripped.
-/

namespace Korith.VllmTarget

open Coordinator (Text orElse)
open Governance (Lane)

structure Model where
  modelId : Text
  modelPath : Text
  endpoint : Text
  deriving DecidableEq

structure Target where
  backendId : Text
  model : Model
  deriving DecidableEq

structure VllmEnv where
  backendId : Text
  endpoint : Text
  modelId : Text
  hitEndpoint : Text
  hitModelId : Text
  missEndpoint : Text
  missModelId : Text
  specEndpoint : Text
  specModelId : Text

structure RouterEnv extends VllmEnv where
  decodeOptProfile : Bool
  missBackendEnabled : Bool
  hitBackendEnabled : Bool
  executorAllLanes : Bool
  allLanesBackendEnabled : Bool
  specBackendEnabled : Bool
  /-- none if the variable is not set, and 0 if it is no number -/
  missMinMaxTokens : Option Int
  hitMinMaxTokens : Option Int
  missSourceBackends : List Text

def laneIsHit (lane : Lane) : Bool := decide (lane = .hit ∨ lane = .specHit)

def laneIsMiss (lane : Lane) : Bool := decide (lane = .miss ∨ lane = .specMiss)

def laneIsSpec (lane : Lane) : Bool := decide (lane = .specHit ∨ lane = .specMiss)

def vllm : Text := ['v', 'l', 'l', 'm']

/-- A general value, that of the lane before it, and that of the speculative lanes before both. -/
def forLane (lane : Lane) (general hit miss spec : Text) : Text :=
  let value := if laneIsHit lane then orElse hit general else if laneIsMiss lane then orElse miss general else general
  if laneIsSpec lane then orElse spec value else value

/-- The endpoint and the model id. -/
def resolveVllmTargetForLane (env : VllmEnv) (model : Model) (lane : Lane) : Text × Text :=
  (forLane lane env.endpoint env.hitEndpoint env.missEndpoint env.specEndpoint,
    forLane lane (orElse env.modelId model.modelId) env.hitModelId env.missModelId env.specModelId)

def laneEnabled (env : RouterEnv) (endpoint : Text) (lane : Lane) : Bool :=
  let miss := env.missBackendEnabled || (env.decodeOptProfile && !endpoint.isEmpty)
  if env.executorAllLanes || env.allLanesBackendEnabled then true
  else if laneIsSpec lane && env.specBackendEnabled then true
  else if laneIsMiss lane then miss
  else if laneIsHit lane then env.hitBackendEnabled
  else false

def minDecodeTokens (env : RouterEnv) (lane : Lane) : Int :=
  if laneIsMiss lane then max 0 (env.missMinMaxTokens.getD (if env.decodeOptProfile then 128 else 0))
  else max 0 (env.hitMinMaxTokens.getD 0)

def resolveExecutionTarget (env : RouterEnv) (requested : Target) (maxTokens : Int) (lane : Lane) : Target :=
  let (endpoint, modelId) := resolveVllmTargetForLane env.toVllmEnv requested.model lane
  let least := minDecodeTokens env lane
  if ¬ laneEnabled env endpoint lane then requested
  else if 0 < least ∧ 0 < maxTokens ∧ maxTokens < least then requested
  else if env.missSourceBackends ≠ [] ∧ ¬ env.missSourceBackends.contains requested.backendId then requested
  else if endpoint = [] then requested
  else if modelId = [] then requested
  else ⟨orElse env.backendId vllm, ⟨modelId, [], endpoint⟩⟩

/-- `_resolve_vllm_fallback_target`, for a job that is executed with `model` and names `requested`. -/
def resolveVllmFallbackTarget (env : VllmEnv) (model requested : Model) (lane : Lane) : Option Target :=
  let endpoint := forLane lane env.endpoint env.hitEndpoint env.missEndpoint env.specEndpoint
  let fromEnv := forLane lane env.modelId env.hitModelId env.missModelId env.specModelId
  let modelId := orElse fromEnv (orElse model.modelId requested.modelId)
  if endpoint = [] then none
  else if modelId = [] then none
  else some ⟨orElse env.backendId vllm, ⟨modelId, [], endpoint⟩⟩

/-! ### Jobs -/

/-- `deterministic_cfg` as the code reads it. A limit that is missing is 0. -/
structure Sampling (T : Type) where
  maxTokens : Int
  temperature : T
  topP : T
  topK : Int
  hasSeed : Bool
  nCtx : Int
  nBatch : Int

structure AdapterFingerprint where
  modelHash : Text
  tokenizerHash : Text
  backendVersion : Text
  deriving DecidableEq

structure Fingerprint extends AdapterFingerprint where
  requested : Target
  nCtx : Int
  nBatch : Int
  samplingHash : Text
  deriving DecidableEq

/-- What the code takes from its runtime. A dictionary is given by the text that `json.dumps` with sorted keys makes of
it; SHA-256 is taken to be free of collisions. -/
structure Runtime (T : Type) extends Coordinator.Strings where
  readCfg : Text → Sampling T
  dumps : Fingerprint → Text
  dumps_injective : Function.Injective dumps
  sha256 : Text → Text
  sha256_injective : Function.Injective sha256
  sha256_ne : ∀ s, sha256 s ≠ []

structure JobSpec where
  orgId : Text
  requested : Target
  /-- as rendered -/
  prompt : Text
  cfg : Text

/-- The job as the router puts it into the queue. -/
structure Job where
  orgId : Text
  requested : Target
  execution : Target
  prompt : Text
  cfg : Text
  promptHash : Text
  samplingHash : Text
  fingerprintHash : Text

variable {T : Type}

def fingerprint (rt : Runtime T) (spec : JobSpec) (fp : AdapterFingerprint) : Fingerprint :=
  let cfg := rt.readCfg spec.cfg
  ⟨fp, spec.requested, cfg.nCtx, cfg.nBatch, rt.sha256 spec.cfg⟩

/-- The part of `submit` that makes the job, for the lane that was chosen. `known`: the registry has an adapter for the
target; if not, the job is executed as it names. -/
def submit (rt : Runtime T) (env : RouterEnv) (lane : Lane) (fp : AdapterFingerprint) (known : Bool) (spec : JobSpec) :
    Job :=
  let target := resolveExecutionTarget env spec.requested (rt.readCfg spec.cfg).maxTokens lane
  { orgId := spec.orgId
    requested := spec.requested
    execution := if known then target else spec.requested
    prompt := spec.prompt
    cfg := spec.cfg
    promptHash := rt.sha256 spec.prompt
    samplingHash := rt.sha256 spec.cfg
    fingerprintHash := rt.sha256 (rt.dumps (fingerprint rt spec fp)) }

end Korith.VllmTarget
