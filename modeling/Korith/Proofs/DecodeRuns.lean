import Korith.Proofs.DecodeSteps

/-!
# What a job is answered with

If the cache has the job, it is answered from there without a run of a model exactly if the worker does not speculate:
the speculative run does not look at what the lookup has found. If the kernels are verified, the user gets the output
of the accelerated run, or that of the baseline if they differ, only where the text of the reference run is that very
output: this run is shorter and writes the job's own output file.
-/

set_option linter.unusedSectionVars false

namespace Korith.DecodeStage

open Coordinator (Text orElse)
open VllmTarget Exec

variable {T : Type} [Field T] [LinearOrder T] {rt : Runtime T} {cfg : Config} {d : Delivery T} {s : State T}
  {row : Row T} {v : Vars T} {r : Result T}

/-! ### A hit -/

def hitVars (cfg : Config) (d : Delivery T) (s : State T) (row : Row T) : Vars T :=
  ⟨some (cachedResult d.elapsedMs row), .baseline, kernelGate cfg d s.kernelSessionDisabled, true, true⟩

theorem readCache_hit (h : lookup rt cfg s = some row) :
    readCache rt cfg d s = ⟨.ok (hitVars cfg d s row), { s with output := row.outputText }, []⟩ := by
  rw [readCache, bind_of_ok (x := Exec.get) (s := s) rfl, h]
  rfl

theorem fallbackTarget_of_exit {job : Job} (h : r.exitCode = 0) : fallbackTarget rt cfg d job (some r) = none := by
  unfold fallbackTarget
  dsimp only
  rw [if_pos h]
  split_ifs <;> rfl

theorem tryVllmOomFallback_none (h : fallbackTarget rt cfg d s.job v.result = none) :
    tryVllmOomFallback rt cfg d v s = ⟨.ok v, s, []⟩ := by
  rw [tryVllmOomFallback, bind_of_ok (x := Exec.get) (s := s) rfl, h]
  rfl

theorem storeResult_hit (h : v.decodeCacheHit = true) : storeResult rt cfg v s = ⟨.ok (), s, []⟩ := by
  rw [storeResult, bind_of_ok (x := Exec.get) (s := s) rfl]
  cases usableKey rt cfg s.job with
  | none => rfl
  | some key =>
    cases v.result with
    | none => rfl
    | some r => rw [h]; rfl

/-- A hit stays the answer: no number of `spec_cfg` raises, and the worker does not speculate. -/
def KeepsHit (d : Delivery T) : Prop := d.specCfgReads = true ∧ d.speculates = false
  deriving Decidable

theorem answerJob_hit (h : lookup rt cfg s = some row) (hkeeps : KeepsHit d) :
    answerJob rt cfg d s = ⟨.ok (hitVars cfg d s row), { s with output := row.outputText }, []⟩ := by
  have hs : speculate rt d (hitVars cfg d s row) = pure (hitVars cfg d s row) := by
    rw [speculate, hkeeps.1, hkeeps.2]
    rfl
  have ha : accelerate rt cfg d (hitVars cfg d s row) = pure (hitVars cfg d s row) := rfl
  have hb : runBaseline rt d (hitVars cfg d s row) = pure (hitVars cfg d s row) := rfl
  rw [answerJob, bind_of_ok (readCache_hit h), hs, pure_seq, ha, pure_seq, hb, pure_seq,
    tryVllmOomFallback_none (fallbackTarget_of_exit rfl)]
  rfl

theorem decodeStage_hit (h : lookup rt cfg s = some row) (hkeeps : KeepsHit d) :
    decodeStage rt cfg d s = ⟨.ok (report (hitVars cfg d s row) (cachedResult d.elapsedMs row)),
      { s with output := row.outputText }, []⟩ := by
  have hk : runKernels rt cfg d (hitVars cfg d s row) = pure (hitVars cfg d s row) := by
    rw [runKernels, if_neg]
    simp [kernelPath, hitVars]
  rw [decodeStage, bind_of_ok (answerJob_hit h hkeeps), finishJob, hk, pure_seq, bind_of_ok (storeResult_hit rfl)]
  rfl

structure Describes (row : Row T) (rep : Report T) (s : State T) : Prop where
  exitCode : rep.result.exitCode = 0
  outputText : rep.result.outputText = row.outputText
  output : s.output = row.outputText
  tokensOut : rep.metrics.tokensOut = max 0 row.tokensOut
  decodeMs : rep.metrics.decodeMs = 0
  cacheHit : rep.decodeCacheHit = true

theorem report_describes : Describes row (report (hitVars cfg d s row) (cachedResult d.elapsedMs row))
    { s with output := row.outputText } where
  exitCode := rfl
  outputText := rfl
  output := rfl
  tokensOut := by simp [report, enforceMetricsInvariants, hitVars, cachedResult]
  decodeMs := by simp [report, enforceMetricsInvariants, hitVars, cachedResult]
  cacheHit := rfl

theorem exits_decodeStage (rt : Runtime T) (cfg : Config) (h : ¬ d.specCfgReads = true) : Exits (decodeStage rt cfg d) := by
  refine Exits.bind (exits_bind fun v => Exits.bind ?_)
  rw [speculate, if_pos h]
  exact exits_exit ()

theorem answerJob_speculates (h : lookup rt cfg s = some row) (hreads : d.specCfgReads = true)
    (hspec : d.speculates = true) :
    ⟨targetOf s.job, .speculative, limit rt s.job, .answer⟩ ∈ (answerJob rt cfg d s).log := by
  have hrun : (⟨targetOf s.job, .speculative, limit rt s.job, .answer⟩ : Call) ∈
      (runJob rt d .speculative { s with output := row.outputText }).log := by
    rw [runJob_eq, run]
    dsimp only
    split <;> exact List.mem_singleton_self _
  rw [answerJob, bind_of_ok (readCache_hit h)]
  refine mem_log_bind ?_
  rw [speculate, if_neg (not_not.2 hreads), if_pos hspec]
  exact mem_log_bind hrun

theorem cache_hit_runs_nothing_iff (h : lookup rt cfg s = some row) :
    ((decodeStage rt cfg d s).log = [] ∧ ∃ rep, (decodeStage rt cfg d s).res = .ok rep ∧
      Describes row rep (decodeStage rt cfg d s).state) ↔ d.specCfgReads = true ∧ d.speculates = false := by
  constructor
  · rintro ⟨hlog, rep, hrep, -⟩
    have hreads : d.specCfgReads = true := by
      by_contra hreads
      obtain ⟨e, he⟩ := exits_decodeStage rt cfg hreads s
      cases he.symm.trans hrep
    refine ⟨hreads, ?_⟩
    by_contra hspec
    have hmem := answerJob_speculates h hreads (Bool.eq_true_of_not_eq_false hspec)
    exact List.ne_nil_of_mem (mem_log_bind hmem) hlog
  · intro hkeeps
    rw [decodeStage_hit h hkeeps]
    exact ⟨rfl, _, rfl, report_describes⟩

/-! A small worker: a configuration of `n` letters asks for `n` tokens. -/

def smallTarget : Target := ⟨vllm, ⟨['m'], [], []⟩⟩

def smallJob (n : Nat) : Job := ⟨[], smallTarget, smallTarget, ['p'], List.replicate n 'n', ['p'], ['s'], ['f']⟩

def smallConfig : Config :=
  ⟨true, true, true, true, true, true, true, true, true, true, false, 1, false, false, ⟨[], [], [], [], [], [], [], [], []⟩⟩

def smallMetrics : EngineMetrics ℚ := ⟨1, 1, false, false, 0, 0, 0, false, false, 0⟩

def smallResult (text : Text) : Result ℚ := ⟨0, text, 1, smallMetrics, true, false, false⟩

def smallDelivery (allowSpec : Bool) (text : Target → Mode → Int → Text) : Delivery ℚ where
  lane := .miss
  specCfgReads := true
  gates := ⟨(true, ""), true, 0, ⟨true, true, true, true, true⟩, 8, 0, false, false, false, .noVerifyModel⟩
  allowSpec := allowSpec
  specGov := none
  now := 1
  kernelPolicyAllow := true
  fallbackKnown := true
  elapsedMs := 0
  adapter := fun c _ =>
    ⟨some (some (smallResult (text c.target c.method c.maxTokens))), text c.target c.method c.maxTokens⟩

def smallRow : Row ℚ := ⟨⟨Coordinator.defaultTenant, vllm, ['f'], ['p'], ['s']⟩, ['o'], 1, 1, 1⟩

def smallHit : State ℚ := ⟨smallJob 8, [], Table.empty.insertOrReplace smallRow, false, 0⟩

theorem cache_hit_runs_nothing_once :
    (decodeStage smallRuntime smallConfig (smallDelivery false fun _ _ _ => ['n']) smallHit).log = [] :=
  ((cache_hit_runs_nothing_iff (show lookup smallRuntime smallConfig smallHit = some smallRow by rfl)).2
    (by decide +kernel)).1

/-- The same job with speculation: the row is found, and the job is answered with the `n` of the speculative run and
reported as a hit. -/
theorem cache_hit_runs_speculative : (lookup smallRuntime smallConfig smallHit).map Row.outputText = some ['o'] ∧
    (decodeStage smallRuntime smallConfig (smallDelivery true fun _ _ _ => ['n']) smallHit).log.map Call.method =
      [.speculative] ∧
    (decodeStage smallRuntime smallConfig (smallDelivery true fun _ _ _ => ['n']) smallHit).state.output = ['n'] ∧
    (decodeStage smallRuntime smallConfig (smallDelivery true fun _ _ _ => ['n']) smallHit).res.toOption.map
      (fun rep => (rep.result.outputText, rep.decodeCacheHit, rep.metrics.decodeMs)) = some (['n'], true, 1) := by
  decide +kernel

/-! ### Verification -/

/-- The adapters are deterministic, and each result is in the file. -/
structure Writes (text : Target → Mode → Int → Text) (d : Delivery T) : Prop where
  result : ∀ c before r, (d.adapter c before).result = some (some r) →
    r.outputText = text c.target c.method c.maxTokens ∧ (d.adapter c before).output = r.outputText
  noResult : ∀ c before, (d.adapter c before).result = some none → (d.adapter c before).output = before

theorem Writes.delivers {text : Target → Mode → Int → Text} (hw : Writes text d) :
    Delivers (fun target mode n r => r.outputText = text target mode n) (fun r output => output = r.outputText) d where
  result := hw.result
  noResult := fun c before h _ hr => (hw.noResult c before h).trans hr
  row := fun _ => rfl

abbrev AnsweredAs (text : Target → Mode → Int → Text) (rt : Runtime T) (s₀ : State T) (v : Vars T) (s : State T) : Prop :=
  Answered (fun target mode n r => r.outputText = text target mode n) (fun r output => output = r.outputText) rt s₀ v s

section

variable {text : Target → Mode → Int → Text} {s₀ : State T}

/-- In the report and in the file. -/
def Served (rt : Runtime T) (text : Target → Mode → Int → Text) (job : Job) (mode : Mode) (kernels : Kernels)
    (outputText output : Text) : Prop :=
  let served := text (targetOf job) (if kernels.verifyOk then mode else .baseline) (limit rt job)
  outputText = served ∧ output = served

/-- The text of the reference run is the one that is to be served. If the run fails, all texts are the same, and it has
left the file as it was. -/
def Harmless (rt : Runtime T) (text : Target → Mode → Int → Text) (d : Delivery T) (job : Job) (mode : Mode) : Prop :=
  let accel := text (targetOf job) mode (limit rt job)
  let full := text (targetOf job) .baseline (limit rt job)
  let reply := d.adapter ⟨targetOf job, .baseline, min (limit rt job) 64, .reference⟩ accel
  match reply.result with
  | some (some ref) => if mismatch rt accel ref.outputText then ref.outputText = full else ref.outputText = accel
  | _ => accel = full ∧ reply.output = accel

theorem verifyKernels_served (hw : Writes text d) (hr : v.result = some r)
    (haccel : r.outputText = text (targetOf s.job) v.runMode (limit rt s.job)) (houtput : s.output = r.outputText)
    (hok : v.kernels.verifyOk = true) :
    wp (fun _ => False) (verifyKernels rt d v) (fun v' s' => s'.job = s.job ∧ ∃ r', v'.result = some r' ∧
      (Served rt text s.job v.runMode v'.kernels r'.outputText s'.output ↔ Harmless rt text d s.job v.runMode))
      (fun _ _ => False) s := by
  have hfile := houtput.trans haccel
  -- a failed run: the report still has the accelerated text
  have hfail : ∀ (k : Kernels) (output : Text), k.verifyOk = false →
      (Served rt text s.job v.runMode k r.outputText output ↔ text (targetOf s.job) v.runMode (limit rt s.job) =
        text (targetOf s.job) .baseline (limit rt s.job) ∧ output = text (targetOf s.job) v.runMode (limit rt s.job)) := by
    intro k output hk
    rw [Served, hk, haccel]
    constructor
    · rintro ⟨heq, houtput⟩
      exact ⟨heq, houtput.trans heq.symm⟩
    · rintro ⟨heq, houtput⟩
      exact ⟨heq, houtput.trans heq⟩
  have hreply : reference rt d s = d.adapter ⟨targetOf s.job, .baseline, min (limit rt s.job) 64, .reference⟩
      (text (targetOf s.job) v.runMode (limit rt s.job)) := by
    rw [reference, hfile]
  -- with a reference text: that text against the one that is to be served
  have hharmless : ∀ ref, (reference rt d s).result = some (some ref) → (Harmless rt text d s.job v.runMode ↔
      if mismatch rt r.outputText ref.outputText then
        ref.outputText = text (targetOf s.job) .baseline (limit rt s.job) else ref.outputText = r.outputText) := by
    intro ref href
    rw [hreply] at href
    rw [Harmless, haccel]
    simp [href]
  refine verifyKernels_spec.imp ?_
  rintro v' s' ⟨⟨houtput', hjob, -⟩, ⟨r₀, ref, hr₀, href, hmismatch, rfl⟩ | ⟨r₀, ref, hr₀, href, hmismatch, rfl⟩ |
    ⟨hnone, rfl⟩⟩
  · cases hr.symm.trans hr₀
    refine ⟨hjob, ref, rfl, ?_⟩
    rw [hharmless ref href, if_pos hmismatch, Served, houtput', reference, (hw.result _ _ ref href).2]
    exact and_self_iff
  · cases hr.symm.trans hr₀
    refine ⟨hjob, r, hr, ?_⟩
    rw [hharmless ref href, if_neg (Bool.eq_false_iff.1 hmismatch), Served, hok, houtput', reference,
      (hw.result _ _ ref href).2, haccel]
    exact ⟨fun hserved => hserved.2, fun heq => ⟨rfl, heq⟩⟩
  · refine ⟨hjob, r, hr, ?_⟩
    rw [hfail _ _ rfl, houtput', hreply, Harmless]
    have hnone' := hnone r
    rw [hreply] at hnone'
    split
    · rename_i ref href
      exact absurd href (hnone' ref hr)
    · exact Iff.rfl

theorem finishJob_served (hw : Writes text d) (h : AnsweredAs text rt s₀ v s) (hsome : v.result.isSome = true)
    (hpath : kernelPath v = true) (hverify : v.kernels.verify = true) :
    wp (fun _ => False) (finishJob rt cfg d v) (fun rep s' =>
      Served rt text s.job v.runMode rep.kernels rep.result.outputText s'.output ↔ Harmless rt text d s.job v.runMode)
      (fun _ _ => False) s := by
  obtain ⟨r, hr⟩ := Option.isSome_iff_exists.1 hsome
  rw [finishJob, runKernels, if_pos hpath, wp_bind, wp_bind]
  refine calibrate_spec.mono ?_ fun _ _ hfalse => hfalse
  rintro _ s₁ ⟨houtput₁, hjob₁, -⟩
  have haccel : r.outputText = text (targetOf s₁.job) v.runMode (limit rt s₁.job) := by
    rw [hjob₁]
    exact h.fits r hr (.inl (runMode_of_kernelPath hpath))
  rw [if_pos hverify]
  refine (verifyKernels_served (v := { v with kernels := { v.kernels with executed := true } }) hw hr haccel
    (houtput₁.trans (h.output r hr)) h.fresh.1).imp ?_
  rintro v' s₂ ⟨-, r', hr', hserved⟩
  refine storeResult_spec.bind ?_
  rintro _ s₃ rfl
  rw [hr', wp_pure, ← hjob₁]
  exact hserved

theorem finishJob_answered (h : AnsweredAs text rt s₀ v s) (hplain : (kernelPath v && v.kernels.verify) = false) :
    wp (fun _ => False) (finishJob rt cfg d v) (fun rep s' => rep.result.outputText = s'.output ∧
      (rep.runMode ≠ .baseline ∨ rep.decodeCacheHit = false →
        rep.result.outputText = text (targetOf s'.job) rep.runMode (limit rt s'.job))) (fun _ _ => True) s := by
  -- the kernels change nothing that is in the report
  have hkernels : wp (fun _ => False) (runKernels rt cfg d v) (fun v' s' => v'.result = v.result ∧ v'.runMode = v.runMode ∧
      v'.decodeCacheHit = v.decodeCacheHit ∧ s'.output = s.output ∧ s'.job = s.job) (fun _ _ => True) s := by
    rw [runKernels, wp_ite]
    constructor
    · intro hpath
      rw [hpath, Bool.true_and] at hplain
      rw [wp_bind]
      refine calibrate_spec.mono ?_ fun _ _ hfalse => hfalse.elim
      rintro _ s₁ ⟨houtput₁, hjob₁, -⟩
      rw [if_neg (by simp [hplain]), wp_pure]
      exact ⟨rfl, rfl, rfl, houtput₁, hjob₁⟩
    · intro _
      exact (wp_pure v).2 ⟨rfl, rfl, rfl, rfl, rfl⟩
  refine hkernels.bind ?_
  rintro v' s₁ ⟨hresult, hmode, hhit, houtput₁, hjob₁⟩
  refine wp.bind (storeResult_spec.mono (fun _ _ hs => hs) fun _ _ hfalse => hfalse.elim) ?_
  rintro _ s₂ rfl
  cases hr : v'.result with
  | none => exact (wp_exit ()).2 trivial
  | some r =>
    rw [hresult] at hr
    simp only [wp_pure, report, hmode, hhit, houtput₁, hjob₁]
    exact ⟨(h.output r hr).symm, h.fits r hr⟩

theorem kernel_verification_iff (hw : Writes text d) (hv : (answerJob rt cfg d s).res = .ok v) :
    ((kernelPath v && v.kernels.verify) = true → ∃ rep, (decodeStage rt cfg d s).res = .ok rep ∧
      (Served rt text s.job v.runMode rep.kernels rep.result.outputText (decodeStage rt cfg d s).state.output ↔
        Harmless rt text d s.job v.runMode)) ∧
    ((kernelPath v && v.kernels.verify) = false → ∀ rep, (decodeStage rt cfg d s).res = .ok rep →
      rep.result.outputText = (decodeStage rt cfg d s).state.output ∧
      (rep.runMode ≠ .baseline ∨ rep.decodeCacheHit = false → rep.result.outputText =
        text (targetOf (decodeStage rt cfg d s).state.job) rep.runMode (limit rt (decodeStage rt cfg d s).state.job))) := by
  obtain ⟨h, hsome⟩ := (answerJob_answered hw.delivers).ok (fun _ _ => id) hv
  rw [decodeStage, bind_of_res_ok hv]
  constructor
  · intro hpath
    obtain ⟨hpath, hverify⟩ := Bool.and_eq_true_iff.1 hpath
    obtain ⟨hsome, hjob⟩ := hsome.resolve_left (runMode_of_kernelPath hpath)
    rw [← hjob]
    exact (finishJob_served hw h hsome hpath hverify).total
  · intro hplain rep hrep
    exact (finishJob_answered h hplain).ok (fun _ _ => id) hrep

theorem smallDelivery_writes (allowSpec : Bool) (text : Target → Mode → Int → Text) :
    Writes text (smallDelivery allowSpec text) where
  result := by
    intro c before r h
    cases h
    exact ⟨rfl, rfl⟩
  noResult := by
    intro c before h
    cases h

def tokens (c : Char) (n : Int) : Text := (List.replicate n.toNat [c, ' ']).flatten

def smallMiss (n : Nat) : State ℚ := ⟨smallJob n, [], Table.empty, false, 0⟩

theorem kernel_verification_short : ∃ rep, (decodeStage smallRuntime smallConfig
    (smallDelivery false fun _ _ => tokens 'a') (smallMiss 8)).res = .ok rep ∧
    Served smallRuntime (fun _ _ => tokens 'a') (smallJob 8) .accel rep.kernels rep.result.outputText
      (decodeStage smallRuntime smallConfig (smallDelivery false fun _ _ => tokens 'a') (smallMiss 8)).state.output := by
  have hv : (answerJob smallRuntime smallConfig (smallDelivery false fun _ _ => tokens 'a') (smallMiss 8)).res =
      .ok ⟨some (smallResult (tokens 'a' 8)), .accel, ⟨true, true, true, false, false, true⟩, false, false⟩ := rfl
  obtain ⟨rep, hrep, hiff⟩ := (kernel_verification_iff (smallDelivery_writes false _) hv).1 (by decide)
  have hharmless : Harmless smallRuntime (fun _ _ => tokens 'a') (smallDelivery false fun _ _ => tokens 'a') (smallJob 8)
      .accel := by
    show if mismatch smallRuntime (tokens 'a' 8) (tokens 'a' 8) then tokens 'a' 8 = tokens 'a' 8
      else tokens 'a' 8 = tokens 'a' 8
    rw [ite_self]
  exact ⟨rep, hrep, hiff.2 hharmless⟩

/-- A job of 65 tokens. If the first words agree, the report has 65 of them and the file 64. If they do not, the job is
answered with 64 tokens of the baseline. -/
theorem kernel_verification_harms : (Writes (fun _ _ => tokens 'a') (smallDelivery false fun _ _ => tokens 'a') ∧
      (decodeStage smallRuntime smallConfig (smallDelivery false fun _ _ => tokens 'a') (smallMiss 65)).res.toOption.map
        (fun rep => (rep.kernels.verifyOk, rep.result.outputText)) = some (true, tokens 'a' 65) ∧
      (decodeStage smallRuntime smallConfig (smallDelivery false fun _ _ => tokens 'a') (smallMiss 65)).state.output =
        tokens 'a' 64) ∧
    (Writes (fun _ mode => tokens (if mode = .baseline then 'b' else 'a'))
        (smallDelivery false fun _ mode => tokens (if mode = .baseline then 'b' else 'a')) ∧
      (decodeStage smallRuntime smallConfig (smallDelivery false fun _ mode =>
          tokens (if mode = .baseline then 'b' else 'a')) (smallMiss 65)).res.toOption.map
        (fun rep => (rep.kernels.verifyOk, rep.result.outputText)) = some (false, tokens 'b' 64)) := by
  refine ⟨⟨smallDelivery_writes false _, ?_, ?_⟩, smallDelivery_writes false _, ?_⟩
  · decide +kernel
  · decide +kernel
  · decide +kernel

end

end Korith.DecodeStage
