import Korith.Lib.FloatArith

/-!
# Decode decisions of the reasoning model

`DecisionExecutor.execute` rewrites the decode fields of a decision by four safety rules, sets the speculation
controller and writes the decode config that the engine polls. Its other parts (admission, evictions, pre-warming,
fleet actions) touch none of these fields; one that raises leaves both sinks as they were.

The depth cap and the veto of the scheduler fire only for a decision that asks to override the depth, and the veto
clears only that flag, while both sinks take the depth whatever the flag is (`inside_envelope_iff`).
-/

namespace Korith.Reasoning

open FloatArith

inductive SpecMode
  | v2Clean
  | v3Block
  | disabled

/-- The decode fields that the rules and the sinks read; `_write_decode_config` writes all of them. -/
structure UnifiedDecisionVector (F : Type) where
  specDecodeEnable : Bool
  specDecodeDepth : Int
  specMode : SpecMode
  specV3BlockSize : Int
  draftTemperature : F
  kvCompressionEnable : Bool
  kvCompressionRatio : F
  adaptiveDepthOverride : Bool

structure SpecDecodeController where
  enabled : Bool
  currentK : Int

/-- A depth between `MIN_K` and `MAX_K`. -/
def clampK (k : Int) : Int := max 2 (min 12 k)

theorem clampK_le {k : Int} (h : k ≤ 3) : clampK k ≤ 3 := by
  unfold clampK
  omega

section
variable {F : Type} (dv : UnifiedDecisionVector F)

/-- A safety rule: if it fires, the decision is rewritten and the override reported. -/
def rule (fires : UnifiedDecisionVector F → Bool) (rewrite : UnifiedDecisionVector F → UnifiedDecisionVector F)
    (override : String) (st : UnifiedDecisionVector F × List String) : UnifiedDecisionVector F × List String :=
  if fires st.1 then (rewrite st.1, st.2 ++ [override]) else st

theorem rule_fst {fires : UnifiedDecisionVector F → Bool}
    {rewrite : UnifiedDecisionVector F → UnifiedDecisionVector F} {override : String}
    (st : UnifiedDecisionVector F × List String) :
    (rule fires rewrite override st).1 = if fires st.1 then rewrite st.1 else st.1 := by
  unfold rule
  split <;> rfl

/-- The controller after a decision, and `spec_k_applied`. -/
def SpecDecodeController.set (spec : SpecDecodeController) : SpecDecodeController × Option Int :=
  let newK := clampK dv.specDecodeDepth
  if dv.specDecodeEnable != spec.enabled || newK != spec.currentK then (⟨dv.specDecodeEnable, newK⟩, some newK)
  else (spec, none)

theorem SpecDecodeController.set_fst (spec : SpecDecodeController) :
    (spec.set dv).1 = ⟨dv.specDecodeEnable, clampK dv.specDecodeDepth⟩ := by
  dsimp only [SpecDecodeController.set]
  split
  · rfl
  · rename_i h
    obtain ⟨enabled, currentK⟩ := spec
    simp only [Bool.or_eq_true, bne_iff_ne, not_or, not_not] at h
    rw [h.1, h.2]

end

variable {F : Type} [FloatArith F] (tensor : List F)

/-- `_slot`: the tensor may be shorter than the slots that are read. -/
def slot (idx : Nat) : F := tensor.getD idx (ofNat 0)

def lowAcceptance : Bool := lt (slot tensor 32) (hundredths 50)
def highEntropy : Bool := lt (hundredths 70) (slot tensor 35)
def laneHeld : Bool := lt (ofNat 16) (slot tensor 44)
def lowUtilization : Bool := lt (slot tensor 48) (hundredths 80)

def depthCap :=
  rule (fun dv : UnifiedDecisionVector F => dv.adaptiveDepthOverride && lowAcceptance tensor)
    (fun dv => { dv with specDecodeDepth := min dv.specDecodeDepth 3 }) "depth_cap_low_acceptance"

def entropyGuard :=
  rule (fun _ : UnifiedDecisionVector F => highEntropy tensor)
    (fun dv => { dv with specDecodeEnable := false, specMode := .disabled }) "entropy_guard_high_entropy"

def kvCompressionGuard :=
  rule (fun dv : UnifiedDecisionVector F => dv.kvCompressionEnable && lowUtilization tensor)
    (fun dv => { dv with kvCompressionEnable := false }) "kv_compression_guard_util_low"

def rustSchedulerVeto :=
  rule (fun dv : UnifiedDecisionVector F => dv.adaptiveDepthOverride && laneHeld tensor)
    (fun dv => { dv with adaptiveDepthOverride := false }) "rust_scheduler_veto"

/-- What a decision leaves: the controller, `spec_k_applied`, the overrides and the config that is written. -/
structure Execution (F : Type) where
  spec : Option SpecDecodeController
  specKApplied : Option Int
  overrides : List String
  config : UnifiedDecisionVector F

def execute (dv : UnifiedDecisionVector F) (overrides : List String) (spec : Option SpecDecodeController) :
    Execution F :=
  let st := rustSchedulerVeto tensor (kvCompressionGuard tensor (entropyGuard tensor (depthCap tensor (dv, overrides))))
  ⟨spec.map fun s => (s.set st.1).1, spec.bind fun s => (s.set st.1).2, st.2, st.1⟩

/-! ### The envelope -/

/-- What is asked of the controller and of the config when the controller was `spec`. -/
@[mk_iff]
structure Envelope (spec : Option SpecDecodeController) (e : Execution F) : Prop where
  depth : lowAcceptance tensor → e.config.specDecodeDepth ≤ 3 ∧ ∀ s ∈ e.spec, s.currentK ≤ 3
  entropy : highEntropy tensor → e.config.specDecodeEnable = false ∧ ∀ s ∈ e.spec, s.enabled = false
  -- at 0.80 or more: a NaN is neither below nor there
  compress : e.config.kvCompressionEnable → lt (hundredths 80) (slot tensor 48) ∨ slot tensor 48 = hundredths 80
  held : laneHeld tensor → e.spec.map (·.currentK) = spec.map (·.currentK)

/-- The depth the cap leaves. -/
def cappedDepth (dv : UnifiedDecisionVector F) : Int :=
  if dv.adaptiveDepthOverride && lowAcceptance tensor then min dv.specDecodeDepth 3 else dv.specDecodeDepth

variable (dv : UnifiedDecisionVector F) (overrides : List String) (spec : Option SpecDecodeController)

theorem config_execute : let config := (execute tensor dv overrides spec).config
    config.specDecodeDepth = cappedDepth tensor dv ∧
      config.specDecodeEnable = (dv.specDecodeEnable && !highEntropy tensor) ∧
      config.kvCompressionEnable = (dv.kvCompressionEnable && !lowUtilization tensor) := by
  simp only [execute, rustSchedulerVeto, kvCompressionGuard, entropyGuard, cappedDepth, depthCap, rule_fst]
  refine ⟨?_, ?_, ?_⟩
  all_goals repeat' split
  all_goals simp_all

theorem spec_execute : (execute tensor dv overrides spec).spec = spec.map fun _ =>
      ⟨dv.specDecodeEnable && !highEntropy tensor, clampK (cappedDepth tensor dv)⟩ := by
  obtain ⟨hdepth, henable, -⟩ := config_execute tensor dv overrides spec
  rw [← hdepth, ← henable]
  simp [execute, SpecDecodeController.set_fst]

theorem cappedDepth_le (h : lowAcceptance tensor) :
    cappedDepth tensor dv ≤ 3 ↔ dv.adaptiveDepthOverride ∨ dv.specDecodeDepth ≤ 3 := by
  cases hov : dv.adaptiveDepthOverride <;> simp [cappedDepth, h, hov]

theorem clampK_cappedDepth : clampK (cappedDepth tensor dv) =
    max 2 (min (if dv.adaptiveDepthOverride && lowAcceptance tensor then 3 else 12) dv.specDecodeDepth) := by
  unfold clampK cappedDepth
  split <;> omega

theorem inside_envelope_iff : Envelope tensor spec (execute tensor dv overrides spec) ↔
      (lowAcceptance tensor → dv.adaptiveDepthOverride ∨ dv.specDecodeDepth ≤ 3) ∧
      (dv.kvCompressionEnable → lowUtilization tensor ∨ lt (hundredths 80) (slot tensor 48) ∨
        slot tensor 48 = hundredths 80) ∧
      (laneHeld tensor → ∀ s ∈ spec,
        max 2 (min (if dv.adaptiveDepthOverride && lowAcceptance tensor then 3 else 12) dv.specDecodeDepth) =
          s.currentK) := by
  obtain ⟨hdepth, henable, hcompress⟩ := config_execute tensor dv overrides spec
  rw [envelope_iff, spec_execute, hdepth, henable, hcompress, ← clampK_cappedDepth]
  constructor
  · rintro ⟨h₁, -, h₃, h₄⟩
    refine ⟨fun h => (cappedDepth_le tensor dv h).1 (h₁ h).1, fun h => ?_, fun h s hs => ?_⟩
    · by_cases hu : lowUtilization tensor
      · exact .inl hu
      · exact .inr (h₃ (by simp [h, hu]))
    · have := h₄ h
      rw [Option.mem_def.1 hs] at this
      exact Option.some.inj this
  · rintro ⟨h₁, h₂, h₃⟩
    refine ⟨fun h => ?_, fun h => ?_, fun h => ?_, fun h => ?_⟩
    · have hle := (cappedDepth_le tensor dv h).2 (h₁ h)
      refine ⟨hle, fun s hs => ?_⟩
      obtain ⟨_, _, rfl⟩ := Option.mem_map.1 hs
      exact clampK_le hle
    · refine ⟨by simp [h], fun s hs => ?_⟩
      obtain ⟨_, _, rfl⟩ := Option.mem_map.1 hs
      simp [h]
    · simp only [Bool.and_eq_true, Bool.not_eq_true'] at h
      exact (h₂ h.1).resolve_left (by simp [h.2])
    · rw [Option.map_map]
      exact Option.map_congr fun s hs => h₃ h s hs

/-- No acceptance at all, and a decision that leaves the depth to the scheduler: its depth of 8 reaches the controller.
If it asks to override and a lane is held for 20 steps, the veto clears the flag and the capped depth is set. -/
theorem uncapped_depth_applied : let dv (override : Bool) : UnifiedDecisionVector Frac :=
      ⟨true, 8, .v2Clean, 8, ⟨0, 1⟩, false, ⟨0, 1⟩, override⟩
    let idle : List Frac := List.replicate 64 ⟨0, 1⟩
    let held := idle.set 44 ⟨20, 1⟩
    ¬ Envelope idle (some ⟨true, 4⟩) (execute idle (dv false) [] (some ⟨true, 4⟩)) ∧
      ¬ Envelope held (some ⟨true, 4⟩) (execute held (dv true) [] (some ⟨true, 4⟩)) :=
  ⟨fun h => absurd (h.depth (by decide)).1 (by decide), fun h => absurd (h.held (by decide)) (by decide)⟩

end Korith.Reasoning
