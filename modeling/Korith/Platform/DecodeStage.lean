import Korith.Lib.Exec
import Korith.Platform.SpecGovernance
import Korith.Platform.VllmTarget

/-!
# The decode stage of a worker

The middle of `ClusterWorker._process`, from the lookup in the decode cache to the store into it. The result of a job
is the value of one variable, which the cache, a speculative run, an accelerated run, a baseline run, the fallback of
a local run that is out of memory, and the reference run of the kernel verification may all assign. All of these runs
but the shadow run of the calibration write the same output file.
-/

namespace Korith.DecodeStage

open Coordinator (Text orElse defaultTenant)
open Governance (Lane SpecRow)
open SpecGovernance (WorkerGates runsSpeculative)
open VllmTarget Exec

/-! ### Results -/

/-- The parts of `engine_metrics` that the worker reads or corrects; what is missing is 0. -/
structure EngineMetrics (T : Type) where
  tokensOut : Int
  decodeMs : T
  specCacheOnly : Bool
  specCacheHit : Bool
  baselineTotalMs : T
  netSavedMs : T
  savedMs : T
  kernelsEnabled : Bool
  kernelsApplied : Bool
  kernelsMsSaved : T

structure Result (T : Type) where
  exitCode : Int
  /-- empty if the adapter reports none -/
  outputText : Text
  totalMs : T
  metrics : EngineMetrics T
  specEnabled : Bool
  specCacheOnlyMiss : Bool
  /-- `_result_indicates_local_oom` -/
  outOfMemory : Bool

inductive Mode
  | baseline
  | accel
  | speculative
  deriving DecidableEq

inductive Purpose
  | answer
  | fallback
  /-- the calibration, on files of its own -/
  | shadow
  /-- the kernel verification -/
  | reference
  deriving DecidableEq

structure Call where
  target : Target
  method : Mode
  maxTokens : Int
  purpose : Purpose
  deriving DecidableEq

/-- An adapter raises or returns, perhaps `None`; and the output file is as it has left it. -/
structure Reply (T : Type) where
  result : Option (Option (Result T))
  output : Text

/-! ### The cache -/

structure Key where
  orgId : Text
  backendId : Text
  fingerprintHash : Text
  promptHash : Text
  samplingHash : Text
  deriving DecidableEq

structure Row (T : Type) where
  key : Key
  outputText : Text
  tokensOut : Int
  decodeMs : T
  totalMs : T

abbrev Cache (T : Type) := Table Key (Row T) Row.key

/-! ### Settings and state -/

structure Config where
  decodeCacheEnabled : Bool
  /-- the database could be opened -/
  decodeCacheStore : Bool
  decodeCacheRequireDeterministic : Bool
  accelEnabled : Bool
  kernelEnabled : Bool
  kernelAvailable : Bool
  kernelVerify : Bool
  kernelsHit : Bool
  kernelsMiss : Bool
  kernelsSpec : Bool
  kernelCalibrate : Bool
  kernelCalibrateEvery : Nat
  vllmOomFallbackEnabled : Bool
  vllmOomFallbackAllLanes : Bool
  vllm : VllmEnv

/-- What is given with a delivery: its lane, whether `int` and `float` take the numbers in its `spec_cfg`, the gates of the
speculation, the policy of the kernels, whether the registry has an adapter for a fallback, the time the lookup takes, and
the adapters. -/
structure Delivery (T : Type) where
  lane : Lane
  specCfgReads : Bool
  gates : WorkerGates T
  allowSpec : Bool
  specGov : Option (SpecRow T)
  now : T
  kernelPolicyAllow : Bool
  fallbackKnown : Bool
  elapsedMs : T
  adapter : Call → Text → Reply T

structure State (T : Type) where
  job : Job
  output : Text
  cache : Cache T
  kernelSessionDisabled : Bool
  kernelCalibrateCounter : Nat

structure Kernels where
  requested : Bool
  available : Bool
  verify : Bool
  executed : Bool
  fallback : Bool
  verifyOk : Bool
  deriving DecidableEq

structure Vars (T : Type) where
  result : Option (Result T)
  runMode : Mode
  kernels : Kernels
  decodeCacheHit : Bool
  noDecodeCacheHit : Bool

abbrev Stage (T α : Type) : Type := Exec (State T) Unit Call α

variable {T : Type} [Field T] [LinearOrder T]

variable (rt : Runtime T) (cfg : Config) (d : Delivery T) (job : Job) (v : Vars T)

def limit : Int :=
  let n := (rt.readCfg job.cfg).maxTokens
  if n = 0 then 256 else n

def backendOf : Text := orElse job.execution.backendId job.requested.backendId

def targetOf : Target := ⟨backendOf job, job.execution.model⟩

def decodeCacheKey : Option Key :=
  if ¬ cfg.decodeCacheEnabled then none
  else if backendOf job = [] ∨ job.fingerprintHash = [] ∨ job.promptHash = [] ∨ job.samplingHash = [] then none
  else some ⟨orElse job.orgId defaultTenant, backendOf job, job.fingerprintHash, job.promptHash, job.samplingHash⟩

def decodeCacheEligible : Bool :=
  let det := rt.readCfg job.cfg
  if !cfg.decodeCacheEnabled then false
  else if !cfg.decodeCacheRequireDeterministic then true
  else decide (det.temperature = 0) && decide (1 ≤ det.topP) && decide (det.topK = 0 ∨ det.topK = -1) && det.hasSeed

def usableKey : Option Key :=
  if cfg.decodeCacheStore && decodeCacheEligible rt cfg job then decodeCacheKey cfg job else none

def words (isspace : Char → Bool) (s : Text) : List Text := (s.splitOnP isspace).filter fun w => !w.isEmpty

/-! ### Runs -/

def run (c : Call) : Stage T (Option (Result T)) := fun s =>
  let reply := d.adapter c s.output
  let s := if c.purpose = .shadow then s else { s with output := reply.output }
  match reply.result with
  | some result => ⟨.ok result, s, [c]⟩
  | none => ⟨.error (), s, [c]⟩

def runJob (method : Mode) : Stage T (Option (Result T)) := do
  let s ← Exec.get
  run d ⟨targetOf s.job, method, limit rt s.job, .answer⟩

def disableKernelSession : Stage T Unit := Exec.modify fun s => { s with kernelSessionDisabled := true }

def kernelGate (sessionDisabled : Bool) : Kernels :=
  let requested := cfg.kernelEnabled && !sessionDisabled
  let requested := if laneIsHit d.lane then requested && cfg.kernelsHit else requested
  let requested := if laneIsMiss d.lane then requested && cfg.kernelsMiss else requested
  let requested := if laneIsSpec d.lane then requested && cfg.kernelsSpec else requested
  if requested && !d.kernelPolicyAllow then ⟨false, false, false, false, false, true⟩
  else ⟨requested, cfg.kernelAvailable, cfg.kernelVerify, false, false, true⟩

def cachedResult (elapsedMs : T) (row : Row T) : Result T where
  exitCode := 0
  outputText := row.outputText
  totalMs := elapsedMs
  metrics := ⟨max 0 row.tokensOut, 0, false, false, 0, 0, 0, false, false, 0⟩
  specEnabled := false
  specCacheOnlyMiss := false
  outOfMemory := false

def lookup (s : State T) : Option (Row T) := (usableKey rt cfg s.job).bind s.cache.find

def readCache : Stage T (Vars T) := do
  let s ← Exec.get
  let kernels := kernelGate cfg d s.kernelSessionDisabled
  match lookup rt cfg s with
  | some row =>
    Exec.modify fun s => { s with output := row.outputText }
    pure ⟨some (cachedResult d.elapsedMs row), .baseline, kernels, true, true⟩
  | none => pure ⟨none, .baseline, kernels, false, false⟩

def Delivery.speculates : Bool := runsSpeculative d.gates d.allowSpec d.lane d.specGov d.now

/-- A result of the speculative cache sets the flag anew. -/
def noDecode (flag : Bool) : Option (Result T) → Bool
  | none => flag
  | some r =>
    if r.metrics.specCacheHit then decide (r.metrics.decodeMs ≤ 0) && decide (r.metrics.tokensOut ≤ 1) else flag

/-- The speculative run, whatever the lookup has found. A result without speculation does not count. -/
def speculate : Stage T (Vars T) :=
  if ¬ d.specCfgReads then exit ()
  else if d.speculates then do
    let r ← runJob rt d .speculative
    pure { v with
      result := r.filter fun r => r.specEnabled && !r.specCacheOnlyMiss
      runMode := .speculative
      noDecodeCacheHit := noDecode v.noDecodeCacheHit r }
  else pure v

def accelerate : Stage T (Vars T) :=
  if v.result.isNone && cfg.accelEnabled then do
    let r ← runJob rt d .accel
    pure { v with result := r, runMode := .accel }
  else pure v

def runBaseline : Stage T (Vars T) :=
  if v.result.isNone then do
    let r ← runJob rt d .baseline
    let v := { v with result := r, runMode := .baseline }
    if v.kernels.requested then do
      disableKernelSession
      pure { v with kernels := { v.kernels with fallback := true } }
    else pure v
  else pure v

def korithLocal : Text := "korith_local".toList

def korithCuda : Text := "korith_cuda".toList

/-- Where the job is run again after a result that calls for it. -/
def fallbackTarget (result : Option (Result T)) : Option Target :=
  let current := rt.lower (rt.strip (backendOf job))
  if ¬ cfg.vllmOomFallbackEnabled then none
  else if ¬ laneIsMiss d.lane ∧ ¬ cfg.vllmOomFallbackAllLanes then none
  else if current ≠ korithLocal ∧ current ≠ korithCuda then none
  else
    match result with
    | none => none
    | some r =>
      if r.exitCode = 0 then none
      else if ¬ r.outOfMemory then none
      else if ¬ d.fallbackKnown then none
      else resolveVllmFallbackTarget cfg.vllm job.execution.model job.requested.model d.lane

/-- `_try_vllm_oom_fallback`: from then on the job is executed there, without kernels. -/
def tryVllmOomFallback : Stage T (Vars T) := do
  let s ← Exec.get
  match fallbackTarget rt cfg d s.job v.result with
  | none => pure v
  | some target =>
    let r ← run d ⟨target, .baseline, limit rt s.job, .fallback⟩
    match r with
    | none => pure v
    | some r => do
      Exec.modify fun s => { s with job := { s.job with execution := target } }
      pure { v with
        result := some r
        runMode := .baseline
        kernels := ⟨false, false, false, false, false, true⟩
        noDecodeCacheHit := false }

def answerJob : Stage T (Vars T) := do
  let v ← readCache rt cfg d
  let v ← speculate rt d v
  let v ← accelerate rt cfg d v
  let v ← runBaseline rt d v
  tryVllmOomFallback rt cfg d v

/-! ### Kernels -/

def kernelPath : Bool :=
  v.kernels.requested && v.kernels.available && decide (v.runMode = .accel ∨ v.runMode = .speculative) &&
    !v.noDecodeCacheHit

def calibrate : Stage T Unit :=
  when (cfg.kernelCalibrate && decide (v.runMode = .accel)) do
    Exec.modify fun s => { s with kernelCalibrateCounter := s.kernelCalibrateCounter + 1 }
    let s ← Exec.get
    when (decide (s.kernelCalibrateCounter % cfg.kernelCalibrateEvery = 0)) do
      let _ ← (attempt (run d ⟨targetOf s.job, .accel, limit rt s.job, .shadow⟩) :
        Stage T (Option (Option (Result T))))
      pure ()

/-- Both outputs have words, and their first eight differ. -/
def mismatch (accel ref : Text) : Bool :=
  decide (words rt.isspace accel ≠ []) && decide (words rt.isspace ref ≠ []) &&
    decide ((words rt.isspace accel).take 8 ≠ (words rt.isspace ref).take 8)

/-- The reference run on the job's own files, with at most 64 tokens. -/
def verifyKernels : Stage T (Vars T) := do
  let s ← Exec.get
  let ref ← attempt (run d ⟨targetOf s.job, .baseline, min (limit rt s.job) 64, .reference⟩)
  match v.result, ref with
  | some r, some (some ref) =>
    if mismatch rt r.outputText ref.outputText then do
      disableKernelSession
      pure { v with
        result := some ref
        runMode := .baseline
        kernels := { v.kernels with verifyOk := false, fallback := true } }
    else pure v
  | _, _ => do
    disableKernelSession
    pure { v with kernels := { v.kernels with verifyOk := false, fallback := true } }

def runKernels : Stage T (Vars T) :=
  if kernelPath v then do
    let v := { v with kernels := { v.kernels with executed := true } }
    calibrate rt cfg d v
    if v.kernels.verify then verifyKernels rt d v else pure v
  else pure v

/-! ### The end of the stage -/

def rowOf (key : Key) (r : Result T) : Row T where
  key := key
  outputText := r.outputText
  tokensOut := if r.metrics.tokensOut = 0 then (words rt.isspace r.outputText).length else r.metrics.tokensOut
  decodeMs := r.metrics.decodeMs
  totalMs := r.totalMs

def storeResult : Stage T Unit := do
  let s ← Exec.get
  match usableKey rt cfg s.job, v.result with
  | some key, some r =>
    when (!v.decodeCacheHit && decide (r.exitCode = 0))
      (Exec.modify fun s => { s with cache := s.cache.insertOrReplace (rowOf rt key r) })
  | _, _ => pure ()

def enforceMetricsInvariants (noDecodeCacheHit : Bool) (m : EngineMetrics T) : EngineMetrics T :=
  let baseline := if 0 < m.baselineTotalMs then m.baselineTotalMs else 0
  let m :=
    if m.specCacheOnly ∧ m.tokensOut ≤ 1 then
      let saved := if m.savedMs = 0 then m.netSavedMs else m.savedMs
      { m with netSavedMs := min (max 0 m.netSavedMs) baseline, savedMs := min (max 0 saved) baseline }
    else m
  let m :=
    if m.specCacheHit && noDecodeCacheHit then
      { m with tokensOut := 0, decodeMs := 0, kernelsEnabled := false, kernelsApplied := false, kernelsMsSaved := 0 }
    else m
  if m.kernelsApplied then m else { m with kernelsMsSaved := 0 }

/-- The estimate of what the kernels have saved is left out. -/
structure Report (T : Type) where
  result : Result T
  metrics : EngineMetrics T
  runMode : Mode
  kernels : Kernels
  decodeCacheHit : Bool

def report (r : Result T) : Report T :=
  let accelerated := decide (v.runMode = .accel ∨ v.runMode = .speculative)
  let metrics := { r.metrics with
    kernelsEnabled := v.kernels.requested && accelerated
    kernelsApplied := v.kernels.executed
    kernelsMsSaved := 0 }
  ⟨r, enforceMetricsInvariants v.noDecodeCacheHit metrics, v.runMode, v.kernels, v.decodeCacheHit⟩

/-- The stage from the kernels on, and the report behind it; without a result `_process` raises. -/
def finishJob : Stage T (Report T) := do
  let v ← runKernels rt cfg d v
  storeResult rt cfg v
  match v.result with
  | some r => pure (report v r)
  | none => exit ()

def decodeStage : Stage T (Report T) := do
  let v ← answerJob rt cfg d
  finishJob rt cfg d v

end Korith.DecodeStage
