import Korith.Lib.Format
import Korith.Platform.DecodeStage
import Mathlib

/-!
# The steps of the decode stage

What each step of the stage leaves, if all that is known of the adapters is a property of their results and one of
the output file (`Delivers`). Whatever step has given the result, both hold of it at the end (`answerJob_answered`), for
the target that the job is then executed on.
-/

set_option linter.unusedSectionVars false

namespace Korith.DecodeStage

open Coordinator (Text orElse)
open VllmTarget Exec

variable {T : Type} [Field T] [LinearOrder T] {rt : Runtime T} {cfg : Config} {d : Delivery T} {s s₀ : State T}
  {row : Row T} {v : Vars T}

/-! ### A runtime -/

def intText : Int → Text
  | .ofNat n => '+' :: dec n
  | .negSucc n => '-' :: dec n

theorem intText_injective : Function.Injective intText := by
  intro m n h
  cases m with
  | ofNat m =>
    cases n with
    | ofNat n => rw [dec_injective (List.cons.inj h).2]
    | negSucc n => exact absurd (List.cons.inj h).1 (by decide)
  | negSucc m =>
    cases n with
    | ofNat n => exact absurd (List.cons.inj h).1 (by decide)
    | negSucc n => rw [dec_injective (List.cons.inj h).2]

def fingerprintText (fp : Fingerprint) : Text :=
  delimit [fp.modelHash, fp.tokenizerHash, fp.backendVersion, fp.requested.backendId, fp.requested.model.modelId,
    fp.requested.model.modelPath, fp.requested.model.endpoint, intText fp.nCtx, intText fp.nBatch, fp.samplingHash]

theorem fingerprintText_injective : Function.Injective fingerprintText := by
  rintro ⟨⟨m, t, v⟩, ⟨b, ⟨i, p, e⟩⟩, c, n, s⟩ ⟨⟨m', t', v'⟩, ⟨b', ⟨i', p', e'⟩⟩, c', n', s'⟩ h
  have hfields := delimit_injective h
  simp only [List.cons.injEq, intText_injective.eq_iff, and_true] at hfields
  obtain ⟨rfl, rfl, rfl, rfl, rfl, rfl, rfl, rfl, rfl, rfl⟩ := hfields
  rfl

def smallRuntime : Runtime ℚ where
  isalnum := Char.isAlphanum
  isspace := fun c => c == ' '
  lower := List.map Char.toLower
  readCfg := fun cfg => ⟨cfg.length, 0, 1, 0, true, 0, 0⟩
  dumps := fingerprintText
  dumps_injective := fingerprintText_injective
  sha256 := List.cons 'h'
  sha256_injective := List.cons_injective
  sha256_ne := List.cons_ne_nil 'h'

/-! ### Runs -/

theorem runJob_eq (method : Mode) :
    runJob rt d method s = run d ⟨targetOf s.job, method, limit rt s.job, .answer⟩ s := rfl

theorem run_spec {c : Call} (hc : c.purpose ≠ .shadow) : wp (fun _ => False) (run d c)
      (fun r s' => (d.adapter c s.output).result = some r ∧ s' = { s with output := (d.adapter c s.output).output })
      (fun _ s' => (d.adapter c s.output).result = none ∧ s' = { s with output := (d.adapter c s.output).output }) s := by
  intro _
  rw [run, if_neg hc]
  cases hresult : (d.adapter c s.output).result with
  | none => exact ⟨rfl, rfl⟩
  | some r => exact ⟨rfl, rfl⟩

/-- Every result fits its call, and the output file agrees with it. A run without a result does not
change that. -/
structure Delivers (Fits : Target → Mode → Int → Result T → Prop) (InFile : Result T → Text → Prop) (d : Delivery T) :
    Prop where
  result : ∀ c before r, (d.adapter c before).result = some (some r) →
    Fits c.target c.method c.maxTokens r ∧ InFile r (d.adapter c before).output
  noResult : ∀ c before, (d.adapter c before).result = some none → ∀ r, InFile r before →
    InFile r (d.adapter c before).output
  row : ∀ row : Row T, InFile (cachedResult d.elapsedMs row) row.outputText

def Kernels.Fresh (k : Kernels) : Prop := k.verifyOk = true ∧ k.executed = false

/-- A result is in the file, and unless it is that of the cache, it fits the run it is reported as. -/
structure Answered (Fits : Target → Mode → Int → Result T → Prop) (InFile : Result T → Text → Prop) (rt : Runtime T)
    (s₀ : State T) (v : Vars T) (s : State T) : Prop where
  job : { s.job with execution := s₀.job.execution } = s₀.job
  cache : s.cache = s₀.cache
  output : ∀ r, v.result = some r → InFile r s.output
  fits : ∀ r, v.result = some r → v.runMode ≠ .baseline ∨ v.decodeCacheHit = false →
    Fits (targetOf s.job) v.runMode (limit rt s.job) r
  fresh : v.kernels.Fresh

section

variable {Fits : Target → Mode → Int → Result T → Prop} {InFile : Result T → Text → Prop}

variable (hd : Delivers Fits InFile d)

include hd

variable (h : Answered Fits InFile rt s₀ v s)

include h

theorem runJob_answered (method : Mode) : wp (fun _ => False) (runJob rt d method) (fun r s' => s'.job = s.job ∧
      ∀ v' : Vars T, v'.runMode = method → (∀ r', v'.result = some r' → r = some r') → v'.kernels.Fresh →
        Answered Fits InFile rt s₀ v' s') (fun _ s' => s'.cache = s₀.cache) s := by
  rw [runJob, wp_bind, wp_get]
  refine (run_spec fun h => (by cases h)).mono ?_ ?_
  swap
  · rintro _ s' ⟨-, rfl⟩
    exact h.cache
  rintro r s' ⟨hr, rfl⟩
  refine ⟨rfl, fun v' hmode hv' hfresh => ⟨h.job, h.cache, fun r' hr' => ?_, fun r' hr' _ => ?_, hfresh⟩⟩
  · rw [hv' r' hr'] at hr
    exact (hd.result _ _ r' hr).2
  · rw [hv' r' hr'] at hr
    rw [hmode]
    exact (hd.result _ _ r' hr).1

omit h in
theorem readCache_answered : wp (fun _ => False) (readCache rt cfg d)
    (fun v s' => Answered Fits InFile rt s v s' ∧ s'.job = s.job) (fun _ s' => s'.cache = s.cache) s := by
  have hfresh : (kernelGate cfg d s.kernelSessionDisabled).Fresh := by
    unfold kernelGate
    dsimp only
    split_ifs <;> exact ⟨rfl, rfl⟩
  rw [readCache, wp_bind, wp_get]
  cases lookup rt cfg s with
  | none =>
    rw [wp_pure]
    exact ⟨⟨rfl, rfl, fun r hr => (by cases hr), fun r hr => (by cases hr), hfresh⟩, rfl⟩
  | some row =>
    rw [wp_bind, wp_modify, wp_pure]
    refine ⟨⟨rfl, rfl, fun r hr => ?_, fun r _ h => ?_, hfresh⟩, rfl⟩
    · cases hr
      exact hd.row row
    · rcases h with h | h
      · exact absurd rfl h
      · cases h

theorem speculate_answered :
    wp (fun _ => False) (speculate rt d v) (fun v' s' => Answered Fits InFile rt s₀ v' s' ∧ s'.job = s.job)
      (fun _ s' => s'.cache = s₀.cache) s := by
  rw [speculate, wp_ite, wp_ite]
  refine ⟨fun _ => (wp_exit ()).2 h.cache, fun _ => ⟨?_, ?_⟩⟩
  · intro _
    refine (runJob_answered hd h .speculative).bind ?_
    rintro r s' ⟨hjob, hrun⟩
    rw [wp_pure]
    refine ⟨hrun _ rfl (fun r' hr' => ?_) h.fresh, hjob⟩
    exact (Option.filter_eq_some_iff.1 hr').1
  · intro _
    rw [wp_pure]
    exact ⟨h, rfl⟩

theorem accelerate_answered :
    wp (fun _ => False) (accelerate rt cfg d v) (fun v' s' => Answered Fits InFile rt s₀ v' s' ∧ s'.job = s.job)
      (fun _ s' => s'.cache = s₀.cache) s := by
  rw [accelerate, wp_ite]
  constructor
  · intro _
    refine (runJob_answered hd h .accel).bind ?_
    rintro r s' ⟨hjob, hrun⟩
    rw [wp_pure]
    exact ⟨hrun _ rfl (fun _ hr' => hr') h.fresh, hjob⟩
  · intro _
    rw [wp_pure]
    exact ⟨h, rfl⟩

theorem runBaseline_answered :
    wp (fun _ => False) (runBaseline rt d v) (fun v' s' => Answered Fits InFile rt s₀ v' s' ∧ s'.job = s.job ∧
      (v'.runMode = .baseline ∨ v'.result.isSome = true)) (fun _ s' => s'.cache = s₀.cache) s := by
  rw [runBaseline, wp_ite]
  constructor
  · intro _
    refine (runJob_answered hd h .baseline).bind ?_
    rintro r s' ⟨hjob, hrun⟩
    rw [wp_ite]
    constructor
    · intro _
      rw [wp_bind, disableKernelSession, wp_modify, wp_pure]
      have hanswered := hrun ⟨r, .baseline, { v.kernels with fallback := true }, v.decodeCacheHit, v.noDecodeCacheHit⟩ rfl
        (fun _ hr' => hr') h.fresh
      exact ⟨⟨hanswered.job, hanswered.cache, hanswered.output, hanswered.fits, hanswered.fresh⟩, hjob, .inl rfl⟩
    · intro _
      rw [wp_pure]
      exact ⟨hrun _ rfl (fun _ hr' => hr') h.fresh, hjob, .inl rfl⟩
  · intro hsome
    rw [wp_pure]
    refine ⟨h, rfl, .inr ?_⟩
    rwa [Bool.not_eq_true, Option.isNone_eq_false_iff] at hsome

variable {target : Target}

omit h in
omit hd in
theorem backendId_of_fallbackTarget {job : Job} {result : Option (Result T)}
    (h : fallbackTarget rt cfg d job result = some target) : target.backendId ≠ [] := by
  have hne : orElse cfg.vllm.backendId vllm ≠ [] := by
    unfold orElse
    split_ifs with hid
    · exact List.cons_ne_nil _ _
    · exact hid
  unfold fallbackTarget at h
  dsimp only at h
  cases result with
  | none => split_ifs at h
  | some r =>
    dsimp only [resolveVllmFallbackTarget] at h
    split_ifs at h
    cases h
    exact hne

omit h in
omit hd in
theorem targetOf_execution {job : Job} (h : target.backendId ≠ []) :
    targetOf { job with execution := target } = target := by
  rw [targetOf, backendOf, orElse, if_neg h]

theorem tryVllmOomFallback_answered (hsome : v.runMode = .baseline ∨ v.result.isSome = true) :
    wp (fun _ => False) (tryVllmOomFallback rt cfg d v) (fun v' s' => Answered Fits InFile rt s₀ v' s' ∧
      (v'.runMode = .baseline ∨ v'.result.isSome = true ∧ s'.job = s.job)) (fun _ s' => s'.cache = s₀.cache) s := by
  have hstay : v.runMode = .baseline ∨ v.result.isSome = true ∧ s.job = s.job :=
    hsome.imp_right fun hsome => ⟨hsome, rfl⟩
  rw [tryVllmOomFallback, wp_bind, wp_get]
  cases htarget : fallbackTarget rt cfg d s.job v.result with
  | none => exact (wp_pure v).2 ⟨h, hstay⟩
  | some target =>
    dsimp only
    rw [wp_bind]
    refine (run_spec fun h => (by cases h)).mono ?_ ?_
    swap
    · rintro _ s' ⟨-, rfl⟩
      exact h.cache
    rintro r s' ⟨hr, rfl⟩
    cases r with
    | none =>
      rw [wp_pure]
      exact ⟨⟨h.job, h.cache, fun r hr' => hd.noResult _ _ hr r (h.output r hr'), h.fits, h.fresh⟩, hstay⟩
    | some r =>
      rw [wp_bind, wp_modify, wp_pure]
      obtain ⟨hfits, hfile⟩ := hd.result _ _ r hr
      refine ⟨⟨h.job, h.cache, fun r' hr' => ?_, fun r' hr' _ => ?_, rfl, rfl⟩, .inl rfl⟩
      · cases hr'
        exact hfile
      · cases hr'
        rw [targetOf_execution (backendId_of_fallbackTarget htarget)]
        exact hfits

omit h

/-- The stage up to the kernels. What is not of the baseline is of the target that the job was started for. -/
theorem answerJob_answered : wp (fun _ => False) (answerJob rt cfg d) (fun v s' => Answered Fits InFile rt s v s' ∧
      (v.runMode = .baseline ∨ v.result.isSome = true ∧ s'.job = s.job)) (fun _ s' => s'.cache = s.cache) s := by
  refine (readCache_answered hd).bind ?_
  rintro v₀ s₀ ⟨h₀, hjob₀⟩
  refine (speculate_answered hd h₀).bind ?_
  rintro v₁ s₁ ⟨h₁, hjob₁⟩
  refine (accelerate_answered hd h₁).bind ?_
  rintro v₂ s₂ ⟨h₂, hjob₂⟩
  refine (runBaseline_answered hd h₂).bind ?_
  rintro v₃ s₃ ⟨h₃, hjob₃, hsome⟩
  have hjob : s₃.job = s.job := by rw [hjob₃, hjob₂, hjob₁, hjob₀]
  refine (tryVllmOomFallback_answered hd h₃ hsome).imp fun v s' hv => ?_
  rwa [hjob] at hv

end

/-! ### Kernels and the end -/

theorem runMode_of_kernelPath (h : kernelPath v = true) : v.runMode ≠ .baseline := by
  intro hbase
  rw [kernelPath, hbase] at h
  simp at h

theorem calibrate_spec : wp (fun _ => False) (calibrate rt cfg d v)
    (fun _ s' => s'.output = s.output ∧ s'.job = s.job ∧ s'.cache = s.cache) (fun _ _ => False) s := by
  have hshadow : ∀ s' : State T, s'.output = s.output ∧ s'.job = s.job ∧ s'.cache = s.cache →
      wp (fun _ => False) (attempt (run d ⟨targetOf s'.job, .accel, limit rt s'.job, .shadow⟩) :
        Stage T (Option (Option (Result T))))
        (fun _ s'' => s''.output = s.output ∧ s''.job = s.job ∧ s''.cache = s.cache) (fun _ _ => False) s' := by
    intro s' hs'
    rw [wp_attempt]
    intro _
    rw [run, if_pos rfl]
    cases (d.adapter _ s'.output).result with
    | none => exact hs'
    | some r => exact hs'
  rw [calibrate, wp_when]
  refine ⟨fun _ => ?_, fun _ => ⟨rfl, rfl, rfl⟩⟩
  rw [wp_bind, wp_modify, wp_bind, wp_get, wp_when]
  refine ⟨fun _ => ?_, fun _ => ⟨rfl, rfl, rfl⟩⟩
  refine (hshadow { s with kernelCalibrateCounter := s.kernelCalibrateCounter + 1 } ⟨rfl, rfl, rfl⟩).bind fun _ s' hs' => ?_
  rw [wp_pure]
  exact hs'

def reference (rt : Runtime T) (d : Delivery T) (s : State T) : Reply T :=
  d.adapter ⟨targetOf s.job, .baseline, min (limit rt s.job) 64, .reference⟩ s.output

def Kernels.failed (k : Kernels) : Kernels := { k with verifyOk := false, fallback := true }

theorem verifyKernels_spec : wp (fun _ => False) (verifyKernels rt d v)
    (fun v' s' => (s'.output = (reference rt d s).output ∧ s'.job = s.job ∧ s'.cache = s.cache) ∧
      ((∃ r ref, v.result = some r ∧ (reference rt d s).result = some (some ref) ∧
          mismatch rt r.outputText ref.outputText = true ∧
          v' = { v with result := some ref, runMode := .baseline, kernels := v.kernels.failed }) ∨
        (∃ r ref, v.result = some r ∧ (reference rt d s).result = some (some ref) ∧
          mismatch rt r.outputText ref.outputText = false ∧ v' = v) ∨
        ((∀ r ref, v.result = some r → (reference rt d s).result ≠ some (some ref)) ∧
          v' = { v with kernels := v.kernels.failed }))) (fun _ _ => False) s := by
  rw [verifyKernels, wp_bind, wp_get, wp_bind, wp_attempt]
  refine (run_spec fun h => (by cases h)).mono ?_ ?_
  · rintro ref s' ⟨href, rfl⟩
    cases hr : v.result with
    | none =>
      rw [wp_bind, disableKernelSession, wp_modify, wp_pure]
      exact ⟨⟨rfl, rfl, rfl⟩, .inr (.inr ⟨fun r ref h => (by cases h), by rw [← hr]; rfl⟩)⟩
    | some r =>
      cases ref with
      | none =>
        rw [wp_bind, disableKernelSession, wp_modify, wp_pure]
        refine ⟨⟨rfl, rfl, rfl⟩, .inr (.inr ⟨fun r ref _ h => ?_, by rw [← hr]; rfl⟩)⟩
        cases href.symm.trans h
      | some ref =>
        rw [wp_ite]
        constructor
        · intro hmismatch
          rw [wp_bind, disableKernelSession, wp_modify, wp_pure]
          exact ⟨⟨rfl, rfl, rfl⟩, .inl ⟨r, ref, rfl, href, hmismatch, rfl⟩⟩
        · intro hmismatch
          rw [wp_pure]
          exact ⟨⟨rfl, rfl, rfl⟩, .inr (.inl ⟨r, ref, rfl, href, Bool.eq_false_iff.2 hmismatch, rfl⟩)⟩
  · rintro _ s' ⟨href, rfl⟩
    have hfail : ∀ r ref, v.result = some r → (reference rt d s).result ≠ some (some ref) := by
      intro r ref _ h
      cases href.symm.trans h
    cases hr : v.result with
    | none =>
      rw [wp_bind, disableKernelSession, wp_modify, wp_pure]
      exact ⟨⟨rfl, rfl, rfl⟩, .inr (.inr ⟨hr ▸ hfail, by rw [← hr]; rfl⟩)⟩
    | some r =>
      rw [wp_bind, disableKernelSession, wp_modify, wp_pure]
      exact ⟨⟨rfl, rfl, rfl⟩, .inr (.inr ⟨hr ▸ hfail, by rw [← hr]; rfl⟩)⟩

def storedRow (rt : Runtime T) (cfg : Config) (job : Job) (v : Vars T) : Option (Row T) :=
  v.result.bind fun r =>
    if !v.decodeCacheHit && decide (r.exitCode = 0) then (usableKey rt cfg job).map fun key => rowOf rt key r else none

theorem storeResult_spec : wp (fun _ => False) (storeResult rt cfg v)
    (fun _ s' => s' = { s with cache := match storedRow rt cfg s.job v with
      | some row => s.cache.insertOrReplace row
      | none => s.cache }) (fun _ _ => False) s := by
  rw [storeResult, wp_bind, wp_get]
  cases hkey : usableKey rt cfg s.job with
  | none =>
    have hnone : storedRow rt cfg s.job v = none := by
      rw [storedRow, hkey]
      cases v.result with
      | none => rfl
      | some r => exact ite_self none
    rw [hnone]
    exact (wp_pure ()).2 rfl
  | some key =>
    cases hr : v.result with
    | none =>
      rw [storedRow, hr]
      exact (wp_pure ()).2 rfl
    | some r =>
      rw [storedRow, hr, hkey, wp_when]
      constructor
      · intro hstore
        rw [wp_modify, Option.bind_some, if_pos hstore]
        rfl
      · intro hstore
        rw [Option.bind_some, hstore]
        rfl

end Korith.DecodeStage
