import Korith.Lib.Table
import Mathlib.Algebra.Order.Ring.Defs

/-!
# Replay governance

The ledger keeps one row for a fingerprint that says whether cached prefixes may be replayed. After each job
`_apply_governance` reads the row, computes a new one from it and from the metrics of the job, and writes the whole of
it; `ClusterRouter.restore` writes one without reading. The router reads the row when it selects the lane of a job,
the worker when it sets up the policy of a job.
-/

namespace Korith.Governance

inductive DisabledReason
  | restoreLatencyGuard
  | negativeRoiCooldown
  | corruptionDetected
  deriving DecidableEq

structure Row (F T : Type) where
  fingerprintHash : F
  replayDisabled : Nat
  disabledReason : Option DisabledReason
  disabledAt : Option T
  cooldownUntil : T
  negativeRoiStreak : Nat
  corruptionDetected : Nat
  restoreGuardDisabled : Nat
  updatedAt : T
  deriving DecidableEq

abbrev ReplayGovernance (F T : Type) : Type := Table F (Row F T) Row.fingerprintHash

structure AmfMetrics (T : Type) where
  /-- the decision is `"hit"` -/
  hit : Bool
  roi : T
  baselinePrefixMs : T
  restoreMs : T
  deriving DecidableEq

structure Config (T : Type) where
  negativeRoiMax : Nat
  negativeRoiCooldownS : T

variable {F T : Type} [CommRing T] [LinearOrder T]

/-! ### `_apply_governance` -/

def initial (fingerprintHash : F) : Row F T :=
  ⟨fingerprintHash, 0, none, none, 0, 0, 0, 0, 0⟩

/-- A restore that takes longer than the prefix it saves disables the replay. -/
def restoreLatencyGuard (m : AmfMetrics T) (nowTs : T) (row : Row F T) : Row F T :=
  if m.hit ∧ 0 < m.baselinePrefixMs ∧ m.baselinePrefixMs < m.restoreMs then
    { row with
      replayDisabled := 1, restoreGuardDisabled := 1, disabledReason := some .restoreLatencyGuard,
      disabledAt := some nowTs, cooldownUntil := 0 }
  else row

/-- Too many hits in a row that do not pay stop the replay for a while. -/
def negativeRoi (cfg : Config T) (m : AmfMetrics T) (nowEpoch nowTs : T) (row : Row F T) : Row F T :=
  if m.hit ∧ 0 < m.baselinePrefixMs ∧ 0 < m.restoreMs then
    if m.roi < 1 then
      if cfg.negativeRoiMax ≤ row.negativeRoiStreak + 1 then
        { row with
          cooldownUntil := nowEpoch + cfg.negativeRoiCooldownS, disabledReason := some .negativeRoiCooldown,
          disabledAt := some nowTs, negativeRoiStreak := 0 }
      else { row with negativeRoiStreak := row.negativeRoiStreak + 1 }
    else { row with negativeRoiStreak := 0 }
  else row

/-- `corruption`: the events of the job contain `CORRUPTION_DETECTED`. -/
def corruptionVerdict (corruption : Bool) (nowTs : T) (row : Row F T) : Row F T :=
  if corruption then
    { row with
      replayDisabled := 1, corruptionDetected := 1, disabledReason := some .corruptionDetected,
      disabledAt := some nowTs, cooldownUntil := 0 }
  else row

def applyGovernance (cfg : Config T) (fingerprintHash : F) (m : AmfMetrics T) (corruption : Bool)
    (nowEpoch nowTs : T) (state : Option (Row F T)) : Row F T :=
  let row := restoreLatencyGuard m nowTs (state.getD (initial fingerprintHash))
  let row := negativeRoi cfg m nowEpoch nowTs row
  { corruptionVerdict corruption nowTs row with fingerprintHash, updatedAt := nowTs }

/-- The row that `restore` writes for a snapshot whose fingerprint is not the one of its job. -/
def restoreMismatch (fingerprintHash : F) (now : T) : Row F T :=
  ⟨fingerprintHash, 1, some .corruptionDetected, some now, 0, 0, 1, 0, now⟩

inductive Call (F T : Type)
  | applyGovernance (fingerprintHash : F) (metrics : AmfMetrics T) (corruption : Bool) (nowEpoch nowTs : T)
  | restoreMismatch (fingerprintHash : F) (now : T)
  deriving DecidableEq

def Call.row (cfg : Config T) [DecidableEq F] (gov : ReplayGovernance F T) : Call F T → Row F T
  | .applyGovernance fp m corruption nowEpoch nowTs =>
    Governance.applyGovernance cfg fp m corruption nowEpoch nowTs (gov.find fp)
  | .restoreMismatch fp now => Governance.restoreMismatch fp now

def plan [DecidableEq F] (cfg : Config T) (c : Call F T) (seen : ReplayGovernance F T) :
    Option (ReplayGovernance F T → ReplayGovernance F T) :=
  some fun gov => gov.insertOrReplace (c.row cfg seen)

/-! ### The policy of the worker -/

structure Capabilities where
  kvReplay : Bool
  deterministicSeeding : Bool
  draftSupported : Bool
  verifyTokens : Bool
  logitsAccess : Bool

variable (env : LaneEnv) (caps : Capabilities)

/-- `policy["allow_amf_reuse"]` of `_process`, from the policy of the job and the row read from the ledger. -/
def allowAmfReuse (forceMiss requested : Bool) (gov : Option (Row F T)) (now : T) : Bool :=
  let allow := requested && !forceMiss && (caps.kvReplay && caps.deterministicSeeding)
  match gov with
  | none => allow
  | some row =>
    if row.replayDisabled ≠ 0 then false
    else if now < row.cooldownUntil then false
    else allow

/-! ### The lane of the router -/

inductive Lane
  | hit
  | miss
  | specHit
  | specMiss
  deriving DecidableEq

/-- What the router finds of the draft model of a job: no path, no path of the model itself, one and the same
file, or both files, with whether the draft is too large; or reading them fails. -/
inductive DraftModel
  | missing
  | noVerifyModel
  | sameAsVerify
  | statError
  | found (tooLarge : Bool)

structure LaneEnv where
  specEnabled : Bool
  specMissOnly : Bool
  specIgnoreGovernance : Bool
  specMinOutputTokens : Int
  specRequireDistinctDraft : Bool
  specCacheOnly : Bool
  specAutoCacheOnly : Bool
  requireReadySnapshotForHit : Bool

structure LaneRequest where
  allowSpec : Bool
  allowAmfReuse : Bool
  maxTokens : Int
  draftModel : DraftModel
  /-- an earlier job of the organization has the fingerprint -/
  prior : Bool
  /-- a snapshot for the fingerprint is there -/
  readySnapshot : Bool

structure SpecRow (T : Type) where
  specDisabled : Nat
  cooldownUntil : T

def specRequested (req : LaneRequest) : Bool × String :=
  if ¬ env.specEnabled then (false, "runtime_spec_disabled")
  else if ¬ req.allowSpec then (false, "policy_spec_off")
  else if req.maxTokens < max 1 env.specMinOutputTokens then (false, "min_output_tokens_gate")
  else if env.specRequireDistinctDraft ∧ ¬ env.specCacheOnly ∧ ¬ env.specAutoCacheOnly then
    match req.draftModel with
    | .missing => (false, "draft_model_missing")
    | .noVerifyModel => (true, "requested")
    | .sameAsVerify => (false, "draft_same_as_verify")
    | .statError => (false, "draft_stat_error")
    | .found true => (false, "draft_too_large")
    | .found false => (true, "requested")
  else (true, "requested")

def specCapable : Bool := caps.draftSupported && (caps.verifyTokens || caps.logitsAccess)

def specAllowed (req : LaneRequest) (specState : Option (SpecRow T)) (now : T) : Bool × String :=
  let (requested, reason) := specRequested env req
  if ¬ specCapable caps then (requested, "capability_missing")
  else if requested ∧ ¬ env.specIgnoreGovernance then
    match specState with
    | none => (requested, reason)
    | some row =>
      if row.specDisabled ≠ 0 then (false, "governance_disabled")
      else if now < row.cooldownUntil then (false, "governance_cooldown")
      else (requested, reason)
  else (requested, reason)

def finalizeLane (lane : Lane) (reason : String) : Lane × String :=
  if env.specMissOnly ∧ lane = .specHit then (.hit, "spec_miss_only") else (lane, reason)

/-- The miss lane; the reason is given when the job does not speculate. -/
def missLane (spec : Bool) (reason : String) : Lane × String :=
  if spec then finalizeLane env .specMiss "spec_enabled" else finalizeLane env .miss reason

def selectLaneWithReason (req : LaneRequest) (specState : Option (SpecRow T))
    (specNow : T) (gov : Option (Row F T)) (now : T) : Lane × String :=
  let (requested, specReason) := specAllowed env caps req specState specNow
  let spec := requested && specCapable caps
  if ¬ (caps.kvReplay && caps.deterministicSeeding && req.allowAmfReuse) then missLane env spec specReason
  else
    let ready : Lane × String :=
      if req.prior then
        if env.requireReadySnapshotForHit ∧ ¬ req.readySnapshot then
          finalizeLane env (if spec then .specMiss else .miss) "replay_snapshot_unavailable"
        else if spec then finalizeLane env .specHit "spec_enabled"
        else finalizeLane env .hit specReason
      else missLane env spec specReason
    match gov with
    | none => ready
    | some row =>
      if row.replayDisabled ≠ 0 then missLane env spec "replay_governance_disabled"
      else if now < row.cooldownUntil then missLane env spec "replay_governance_cooldown"
      else ready

end Korith.Governance
