import Korith.Lib.ReadWrite
import Korith.Platform.Governance
import Mathlib.Algebra.Order.Field.Basic

/-!
# Governance of the speculation

The ledger keeps one row for a fingerprint that says whether its jobs may speculate. The router asks it for the lane
of a job and the worker again before it runs the job; after a run that reports speculation the worker reads the row
and upserts a new one. Both gates test the flag before the cooldown.

`Cluster` is all of this for one fingerprint: jobs that were routed, jobs that run, and results that have read the row
and are yet to upsert it.
-/

namespace Korith.SpecGovernance

open Governance

inductive SpecReason
  | latencyRegression
  | lowAcceptance
  deriving DecidableEq

/-- The row of `spec_governance`, with the part that the gates read. -/
structure SpecState (T : Type) extends SpecRow T where
  reason : Option SpecReason
  badAcceptStreak : Nat

/-- The settings of the worker; `max(1, ...)` keeps the number of bad results positive. -/
structure SpecConfig (T : Type) where
  minAccept : T
  minRoi : T
  badMax : Nat
  badMax_pos : 0 < badMax
  cooldownS : T

structure SpecMetrics (T : Type) where
  enabled : Bool
  proposedTokens : Int
  cacheHit : Bool
  acceptanceRate : T
  roi : T
  netSavedMs : T
  baselineTotalMs : T

deriving instance DecidableEq for SpecRow, SpecState, SpecMetrics

variable {F T : Type} [Field T] [LinearOrder T]

/-! ### What a result is recorded as -/

variable (cfg : SpecConfig T) (m : SpecMetrics T)

def hasSpecActivity : Bool := m.cacheHit || decide (0 < m.proposedTokens)

def lowAccept : Prop := m.acceptanceRate < cfg.minAccept
  deriving Decidable

def lowRoi : Prop := m.roi < cfg.minRoi
  deriving Decidable

def latencyRegression : Prop := m.netSavedMs ≤ 0
  deriving Decidable

def severeRegression : Prop := m.netSavedMs < -max 50 (m.baselineTotalMs / 10)
  deriving Decidable

def Bad : Prop := lowAccept cfg m ∨ lowRoi cfg m ∨ latencyRegression m
  deriving Decidable

def initial : SpecState T := ⟨⟨0, 0⟩, none, 0⟩

def record (now : T) (seen : Option (SpecState T)) : SpecState T :=
  let state := seen.getD initial
  let state : SpecState T :=
    if Bad cfg m then
      let badStreak := state.badAcceptStreak + 1
      { state with badAcceptStreak := if severeRegression m then max badStreak cfg.badMax else badStreak }
    else initial
  if cfg.badMax ≤ state.badAcceptStreak then
    { state with
      specDisabled := 1
      reason := some
        (if (lowRoi cfg m ∨ latencyRegression m) ∧ ¬ lowAccept cfg m then .latencyRegression else .lowAcceptance)
      cooldownUntil := now + cfg.cooldownS }
  else state

def plan (args : SpecMetrics T × T) (seen : Option (SpecState T)) :
    Option (Option (SpecState T) → Option (SpecState T)) :=
  if args.1.enabled && hasSpecActivity args.1 then some fun _ => some (record cfg args.1 args.2 seen) else none

/-! ### The gates of the worker -/

structure WorkerGates (T : Type) where
  /-- `_decode_governor_spec_allow` -/
  governor : Bool × String
  specEnabled : Bool
  specDisabledUntil : T
  caps : Capabilities
  maxTokens : Int
  specMinOutputTokens : Int
  specRequireDistinctDraft : Bool
  specCacheOnly : Bool
  specAutoCacheOnly : Bool
  draftModel : DraftModel

def workerRequested (allowSpec : Bool) (lane : Lane) (specGov : Option (SpecRow T)) (now : T) : Bool :=
  let requested := allowSpec || decide (lane = .specHit ∨ lane = .specMiss)
  match specGov with
  | none => requested
  | some row => requested && !(decide (row.specDisabled ≠ 0) || decide (now < row.cooldownUntil))

def specBlockReason (w : WorkerGates T) (now : T) : Option String :=
  let policy := if w.governor.1 then none else some w.governor.2
  if ¬ w.specEnabled then some "disabled_by_config"
  else if now < w.specDisabledUntil then some "cooldown_active"
  else if ¬ specCapable w.caps then some "capability_missing"
  else if w.maxTokens < w.specMinOutputTokens then some "short_output"
  else if w.specRequireDistinctDraft ∧ ¬ w.specCacheOnly ∧ ¬ w.specAutoCacheOnly then
    match w.draftModel with
    | .missing => some "draft_model_missing"
    | .sameAsVerify => some "draft_model_same_as_verify"
    | .found true => some "draft_model_too_large"
    | .noVerifyModel | .statError | .found false => policy
  else policy

def runsSpeculative (w : WorkerGates T) (allowSpec : Bool) (lane : Lane) (specGov : Option (SpecRow T)) (now : T) : Bool :=
  workerRequested allowSpec lane specGov now && (specBlockReason w now).isNone

/-! ### Router and workers -/

structure Job where
  lane : Lane
  allowSpec : Bool
  deriving DecidableEq

structure Cluster (T : Type) where
  gov : ReadWrite.Shared (SpecMetrics T × T) (Option (SpecState T))
  queued : List Job
  /-- for each running job, whether it speculates -/
  running : List Bool

def Cluster.row (s : Cluster T) : Option (SpecRow T) := s.gov.stored.map SpecState.toSpecRow

inductive Event (F T : Type)
  | route (env : LaneEnv) (caps : Capabilities) (req : LaneRequest) (gov : Option (Row F T)) (specNow now : T)
  | start (job : Job) (w : WorkerGates T) (now : T)
  /-- a run ends, and its result reads the row -/
  | finish (speculative : Bool) (m : SpecMetrics T) (now : T)
  | upsert (c : ReadWrite.Call (SpecMetrics T × T) (Option (SpecState T)))

def step (cfg : SpecConfig T) (s : Cluster T) : Event F T → Option (Cluster T)
  | .route env caps req gov specNow now =>
    if env.specIgnoreGovernance then none
    else
      let lane := (selectLaneWithReason env caps req s.row specNow gov now).1
      some { s with queued := ⟨lane, req.allowSpec⟩ :: s.queued }
  | .start job w now =>
    if job ∈ s.queued then
      some { s with
        queued := s.queued.erase job
        running := runsSpeculative w job.allowSpec job.lane s.row now :: s.running }
    else none
  | .finish speculative m now =>
    if speculative ∈ s.running then
      (ReadWrite.step (plan cfg) s.gov (.read (m, now))).map fun gov =>
        { s with gov, running := s.running.erase speculative }
    else none
  | .upsert c => (ReadWrite.step (plan cfg) s.gov (.write c)).map fun gov => { s with gov }

def Cluster.empty : Cluster T := ⟨⟨none, []⟩, [], []⟩

end Korith.SpecGovernance
