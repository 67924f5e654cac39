import Korith.Platform.Governance
import Korith.Lib.ReadWrite
import Mathlib.Algebra.Order.Ring.Int

/-!
# Whether a corruption verdict lasts

Read alone, `_apply_governance` never takes a verdict back: it copies the flags that it has read. It writes the
copy when other calls may have written a verdict of their own, and then this one is lost. A verdict lasts in
exactly the runs in which a call that overwrites it has read it before, or brings one itself.
-/

set_option linter.unusedSectionVars false

namespace Korith.Governance

open Run ReadWrite

variable {F T : Type} [DecidableEq F] [CommRing T] [LinearOrder T] {cfg : Config T}
  {gov gov' seen : ReplayGovernance F T} {fp : F} {row : Row F T} {m : AmfMetrics T} {corruption : Bool}
  {nowEpoch nowTs : T} {state : Option (Row F T)} {c : Governance.Call F T}

def Row.Verdict (row : Row F T) : Prop := row.replayDisabled = 1 ∧ row.corruptionDetected = 1
  deriving Decidable

def Corrupted (gov : ReplayGovernance F T) (fp : F) : Prop := ∃ row ∈ gov.find fp, row.Verdict
  deriving Decidable

/-! ### What one call writes -/

def Row.Coherent (row : Row F T) : Prop := row.corruptionDetected = 1 → row.replayDisabled = 1

theorem restoreLatencyGuard_coherent (h : row.Coherent) : (restoreLatencyGuard m nowTs row).Coherent := by
  unfold restoreLatencyGuard
  split_ifs
  · exact fun _ => rfl
  · exact h

theorem corruptionDetected_restoreLatencyGuard :
    (restoreLatencyGuard m nowTs row).corruptionDetected = row.corruptionDetected := by
  unfold restoreLatencyGuard
  split_ifs <;> rfl

theorem replayDisabled_negativeRoi : (negativeRoi cfg m nowEpoch nowTs row).replayDisabled = row.replayDisabled := by
  unfold negativeRoi
  split_ifs <;> rfl

theorem corruptionDetected_negativeRoi :
    (negativeRoi cfg m nowEpoch nowTs row).corruptionDetected = row.corruptionDetected := by
  unfold negativeRoi
  split_ifs <;> rfl

theorem coherent_initial : (initial fp : Row F T).Coherent := fun h => by cases h

theorem verdict_applyGovernance (hstate : ∀ row ∈ state, row.Coherent) :
    (applyGovernance cfg fp m corruption nowEpoch nowTs state).Coherent ∧
      ((applyGovernance cfg fp m corruption nowEpoch nowTs state).Verdict ↔
        corruption = true ∨ ∃ row ∈ state, row.Verdict) := by
  have hread : (state.getD (initial fp)).Coherent := by
    cases state with
    | none => exact coherent_initial
    | some row => exact hstate row rfl
  have hverdict : (state.getD (initial fp)).corruptionDetected = 1 ↔ ∃ row ∈ state, row.Verdict := by
    cases state with
    | none =>
      constructor
      · intro h
        cases h
      · rintro ⟨row, hrow, -⟩
        cases hrow
    | some row =>
      constructor
      · intro h
        exact ⟨row, rfl, hread h, h⟩
      · rintro ⟨row', hrow', -, h⟩
        cases hrow'
        exact h
  have hguard : (restoreLatencyGuard m nowTs (state.getD (initial fp))).Coherent := restoreLatencyGuard_coherent hread
  cases corruption with
  | true => exact ⟨fun _ => rfl, fun _ => .inl rfl, fun _ => ⟨rfl, rfl⟩⟩
  | false =>
    have hdisabled : (applyGovernance cfg fp m false nowEpoch nowTs state).replayDisabled =
        (restoreLatencyGuard m nowTs (state.getD (initial fp))).replayDisabled := replayDisabled_negativeRoi
    have hdetected : (applyGovernance cfg fp m false nowEpoch nowTs state).corruptionDetected =
        (state.getD (initial fp)).corruptionDetected :=
      corruptionDetected_negativeRoi.trans corruptionDetected_restoreLatencyGuard
    have hcoherent : (applyGovernance cfg fp m false nowEpoch nowTs state).Coherent := by
      intro h
      rw [hdisabled]
      exact hguard (corruptionDetected_restoreLatencyGuard.trans (hdetected.symm.trans h))
    refine ⟨hcoherent, ?_, ?_⟩
    · rintro ⟨-, h⟩
      exact .inr (hverdict.1 (hdetected.symm.trans h))
    · rintro (h | h)
      · cases h
      · have hone := hdetected.trans (hverdict.2 h)
        exact ⟨hcoherent hone, hone⟩

def Coherent (gov : ReplayGovernance F T) : Prop := ∀ fp, ∀ row ∈ gov.find fp, row.Coherent

def BringsVerdict (seen : ReplayGovernance F T) : Governance.Call F T → Prop
  | .applyGovernance fp _ corruption _ _ => corruption = true ∨ Corrupted seen fp
  | .restoreMismatch _ _ => True

instance (seen : ReplayGovernance F T) : ∀ c, Decidable (BringsVerdict seen c)
  | .applyGovernance .. => inferInstanceAs (Decidable (_ ∨ _))
  | .restoreMismatch .. => inferInstanceAs (Decidable True)

theorem Coherent.verdict_row (h : Coherent seen) :
    (c.row cfg seen).Coherent ∧ ((c.row cfg seen).Verdict ↔ BringsVerdict seen c) := by
  cases c with
  | applyGovernance fp m corruption nowEpoch nowTs => exact verdict_applyGovernance (h fp)
  | restoreMismatch fp now => exact ⟨fun _ => rfl, fun _ => trivial, fun _ => ⟨rfl, rfl⟩⟩

theorem Coherent.upsert (h : Coherent gov) (hrow : row.Coherent) : Coherent (gov.insertOrReplace row) := by
  intro fp row' hrow'
  rw [Option.mem_def, Table.find_insertOrReplace] at hrow'
  split_ifs at hrow'
  · exact Option.some.inj hrow' ▸ hrow
  · exact h fp row' hrow'

/-! ### Runs -/

def Lasting (gov gov' : ReplayGovernance F T) : Prop := ∀ fp, Corrupted gov fp → Corrupted gov' fp

theorem lasting_upsert_iff :
    Lasting gov (gov.insertOrReplace row) ↔ (Corrupted gov row.fingerprintHash → row.Verdict) := by
  constructor
  · intro hlasting hcorrupted
    obtain ⟨row', hrow', hverdict⟩ := hlasting _ hcorrupted
    rw [Option.mem_def, Table.find_insertOrReplace, if_pos rfl] at hrow'
    exact Option.some.inj hrow' ▸ hverdict
  · intro hverdict fp hcorrupted
    unfold Corrupted
    rw [Table.find_insertOrReplace]
    split_ifs with hfp
    · exact ⟨row, rfl, hverdict (hfp ▸ hcorrupted)⟩
    · exact hcorrupted

def Call.fingerprintHash : Governance.Call F T → F
  | .applyGovernance fp _ _ _ _ => fp
  | .restoreMismatch fp _ => fp

theorem Call.fingerprintHash_row : (c.row cfg seen).fingerprintHash = c.fingerprintHash := by
  cases c <;> rfl

/-- The call has read the verdict that it overwrites, or brings one itself. -/
def KeepsVerdict (s : Shared (Governance.Call F T) (ReplayGovernance F T))
    (c : ReadWrite.Call (Governance.Call F T) (ReplayGovernance F T)) : Prop :=
  Corrupted s.stored c.args.fingerprintHash → BringsVerdict c.seen c.args
  deriving Decidable

abbrev GovEvent (F T : Type) : Type := Event (Governance.Call F T) (ReplayGovernance F T)

abbrev GovCalls (F T : Type) : Type := Shared (Governance.Call F T) (ReplayGovernance F T)

structure Inv (s : GovCalls F T) : Prop where
  stored : Coherent s.stored
  seen : ∀ c ∈ s.pending, Coherent c.seen

theorem Inv.step {s s' : GovCalls F T} {e : GovEvent F T} (h : Inv s) (hstep : step (plan cfg) s e = some s') :
    Inv s' := by
  cases e with
  | read args =>
    cases hstep
    refine ⟨h.stored, fun c hc => ?_⟩
    rcases List.mem_cons.1 hc with rfl | hc
    · exact h.stored
    · exact h.seen c hc
  | write c =>
    obtain ⟨hmem, f, hf, rfl⟩ := step_write hstep
    cases hf
    refine ⟨h.stored.upsert (h.seen c hmem).verdict_row.1, fun c' hc' => ?_⟩
    exact h.seen c' (List.mem_of_mem_erase hc')

def start : GovCalls F T := ⟨Table.empty, []⟩

theorem inv_start : Inv (start : GovCalls F T) := by
  refine ⟨fun fp row hrow => ?_, fun c hc => ?_⟩
  · cases hrow
  · cases hc

/-! ### Readers of the row -/

/-- The router selects a miss lane, and the worker turns the policy off. -/
def Blocked (gov : ReplayGovernance F T) (fp : F) : Prop :=
  (∀ env caps req specState specNow now,
      (selectLaneWithReason env caps req specState specNow (gov.find fp) now).1 = .miss ∨
        (selectLaneWithReason env caps req specState specNow (gov.find fp) now).1 = .specMiss) ∧
    ∀ caps forceMiss requested now, allowAmfReuse caps forceMiss requested (gov.find fp) now = false

theorem missLane_eq (env : LaneEnv) (spec : Bool) (reason : String) :
    (missLane env spec reason).1 = .miss ∨ (missLane env spec reason).1 = .specMiss := by
  cases spec
  · left
    simp [missLane, finalizeLane]
  · right
    simp [missLane, finalizeLane]

theorem Corrupted.blocked (h : Corrupted gov fp) : Blocked gov fp := by
  obtain ⟨row, hrow, hdisabled, -⟩ := h
  rw [Option.mem_def] at hrow
  have hne : row.replayDisabled ≠ 0 := by
    rw [hdisabled]
    exact one_ne_zero
  refine ⟨fun env caps req specState specNow now => ?_, fun caps forceMiss requested now => ?_⟩
  · rw [hrow]
    simp only [selectLaneWithReason, if_pos hne]
    split_ifs
    · exact missLane_eq env _ _
    · exact missLane_eq env _ _
  · rw [hrow]
    simp only [allowAmfReuse, if_pos hne]

/-! ### Result -/

theorem corruption_lasts_iff {events : List (GovEvent F T)} {s : GovCalls F T}
    (hrun : run (step (plan cfg)) events start = some s) :
    (∀ before mid after s₁ s₂, events = before ++ (mid ++ after) → run (step (plan cfg)) before start = some s₁ →
        run (step (plan cfg)) mid s₁ = some s₂ →
        ∀ fp, Corrupted s₁.stored fp → Corrupted s₂.stored fp ∧ Blocked s₂.stored fp) ↔
      Along (step (plan cfg)) (OnWrite KeepsVerdict) events start := by
  have horder := along_order_iff (R := fun s s' : GovCalls F T => Lasting s.stored s'.stored)
    (fun s fp h => h) (fun _ _ _ h₁ h₂ fp h => h₂ fp (h₁ fp h)) hrun
  have hwrites : Along (step (plan cfg)) (fun s e => ∀ s', step (plan cfg) s e = some s' → Lasting s.stored s'.stored)
      events start ↔ Along (step (plan cfg)) (OnWrite KeepsVerdict) events start := by
    refine along_iff inv_start (fun s e s' h _ hstep => h.step hstep) (fun s e s' h hstep => ?_) hrun
    refine respects_iff (fun gov fp h => h) (fun c f hmem hf => ?_) hstep
    cases hf
    rw [lasting_upsert_iff, Call.fingerprintHash_row, (h.seen c hmem).verdict_row.2]
    exact Iff.rfl
  rw [← hwrites, horder]
  constructor
  · intro hlaw before mid after s₁ s₂ hevents hbefore hmid fp hcorrupted
    exact (hlaw before mid after s₁ s₂ hevents hbefore hmid fp hcorrupted).1
  · intro hlasting before mid after s₁ s₂ hevents hbefore hmid fp hcorrupted
    have hlater := hlasting before mid after s₁ s₂ hevents hbefore hmid fp hcorrupted
    exact ⟨hlater, hlater.blocked⟩

def defaultConfig : Config Int := ⟨3, 30⟩

def noHit : AmfMetrics Int := ⟨false, 0, 0, 0⟩

/-- A corrupted job, then a job that has read the verdict. -/
theorem corruption_lasts_in_turn : let corrupt : Governance.Call Nat Int := .applyGovernance 1 noHit true 10 10
    let clean : Governance.Call Nat Int := .applyGovernance 1 noHit false 20 20
    let disabled : ReplayGovernance Nat Int := Table.empty.insertOrReplace (corrupt.row defaultConfig Table.empty)
    let events : List (GovEvent Nat Int) :=
      [.read corrupt, .write ⟨corrupt, Table.empty⟩, .read clean, .write ⟨clean, disabled⟩]
    ∃ s, run (step (plan defaultConfig)) events start = some s ∧ Corrupted s.stored 1 ∧ Blocked s.stored 1 := by
  intro corrupt clean disabled events
  have hsome : (run (step (plan defaultConfig)) events start).isSome = true := by decide +kernel
  obtain ⟨s, hs⟩ := Option.isSome_iff_exists.1 hsome
  have hkeeps : Along (step (plan defaultConfig)) (OnWrite KeepsVerdict) events start := by decide +kernel
  have hlaw := (corruption_lasts_iff hs).2 hkeeps
  have hfirst : run (step (plan defaultConfig)) [.read corrupt, .write ⟨corrupt, Table.empty⟩] start =
      some ⟨disabled, []⟩ := by decide +kernel
  have hrest : run (step (plan defaultConfig)) [.read clean, .write ⟨clean, disabled⟩] ⟨disabled, []⟩ = some s := by
    have happend : run (step (plan defaultConfig))
        ([.read corrupt, .write ⟨corrupt, Table.empty⟩] ++ [.read clean, .write ⟨clean, disabled⟩]) start = some s := hs
    rwa [run_append, hfirst] at happend
  obtain ⟨hlater, hblocked⟩ := hlaw _ _ [] _ _ rfl hfirst hrest 1 (by decide +kernel)
  exact ⟨s, hs, hlater, hblocked⟩

/-- Two workers on one fingerprint. The second has read the row before the first writes its verdict, and writes
the flags that it has read over it: the next job is a hit again. -/
theorem corruption_overwritten : let corrupt : Governance.Call Nat Int := .applyGovernance 1 noHit true 10 10
    let clean : Governance.Call Nat Int := .applyGovernance 1 noHit false 20 20
    let events : List (GovEvent Nat Int) :=
      [.read corrupt, .read clean, .write ⟨corrupt, Table.empty⟩, .write ⟨clean, Table.empty⟩]
    let disabled : ReplayGovernance Nat Int := Table.empty.insertOrReplace (corrupt.row defaultConfig Table.empty)
    let enabled : ReplayGovernance Nat Int := disabled.insertOrReplace (clean.row defaultConfig Table.empty)
    run (step (plan defaultConfig)) events start = some ⟨enabled, []⟩ ∧ Corrupted disabled 1 ∧
      ¬ Corrupted enabled 1 ∧ allowAmfReuse ⟨true, true, false, false, false⟩ false true (enabled.find 1) 30 = true := by
  intro corrupt clean events disabled enabled
  refine ⟨?_, ?_, ?_, ?_⟩ <;> decide +kernel

end Korith.Governance
