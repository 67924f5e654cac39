import Korith.Lib.Machine
import Korith.Proofs.DecodeRuns

/-!
# The decode cache over a history of jobs

Jobs are submitted one after the other, each under router settings and a worker of its own, and share a cache. The
model that executes a job is not in its key, nor is the limit of the run that gave the stored text. So a row is the
output of the job that finds it if the run it comes from (`Origin`) was one of the job's model at its full limit; and
only then if the backend's text tells model and limit.
-/

set_option linter.unusedSectionVars false

namespace Korith.DecodeStage

open Coordinator (Text orElse defaultTenant)
open VllmTarget Exec Machine

variable {T : Type} [Field T] [LinearOrder T] {rt : Runtime T} {cfg : Config} {d : Delivery T} {s s₀ : State T}
  {v : Vars T}

/-! ### What is stored -/

/-- The limit of the run that a report is about: the reference run of a failed verification has at most 64 tokens. -/
def reportedLimit (rt : Runtime T) (job : Job) (kernels : Kernels) (mode : Mode) : Int :=
  if kernels.executed && decide (mode = .baseline) then min (limit rt job) 64 else limit rt job

section

variable {Fits : Target → Mode → Int → Result T → Prop} {InFile : Result T → Text → Prop}

def Reported (Fits : Target → Mode → Int → Result T → Prop) (rt : Runtime T) (v : Vars T) (job : Job) : Prop :=
  ∀ r, v.result = some r → v.decodeCacheHit = false →
    Fits (targetOf job) v.runMode (reportedLimit rt job v.kernels v.runMode) r

theorem verifyKernels_reported (hd : Delivers Fits InFile d) (hmode : v.runMode ≠ .baseline)
    (h : Reported Fits rt v s.job) (hexec : v.kernels.executed = true) : wp (fun _ => False) (verifyKernels rt d v)
    (fun v' s' => Reported Fits rt v' s'.job ∧ v'.decodeCacheHit = v.decodeCacheHit ∧ s'.job = s.job ∧ s'.cache = s.cache)
    (fun _ _ => False) s := by
  refine verifyKernels_spec.imp ?_
  rintro v' s' ⟨⟨-, hjob, hcache⟩, ⟨r, ref, -, href, -, rfl⟩ | ⟨r, ref, -, -, -, rfl⟩ | ⟨-, rfl⟩⟩
  · refine ⟨fun r' hr' _ => ?_, rfl, hjob, hcache⟩
    cases hr'
    have hlimit : reportedLimit rt s.job v.kernels.failed .baseline = min (limit rt s.job) 64 := by
      rw [reportedLimit, Kernels.failed, hexec]
      rfl
    rw [hjob]
    show Fits (targetOf s.job) .baseline (reportedLimit rt s.job v.kernels.failed .baseline) ref
    rw [hlimit]
    exact (hd.result _ _ ref href).1
  · rw [hjob]
    exact ⟨h, rfl, rfl, hcache⟩
  · refine ⟨fun r' hr' hhit => ?_, rfl, hjob, hcache⟩
    have hfits := h r' hr' hhit
    rw [hjob]
    -- the limit looks at the kernels only for the baseline
    have hlimit : ∀ k : Kernels, reportedLimit rt s.job k v.runMode = limit rt s.job := by
      intro k
      rw [reportedLimit, if_neg]
      simp [hmode]
    show Fits (targetOf s.job) v.runMode (reportedLimit rt s.job v.kernels.failed v.runMode) r'
    rw [hlimit] at hfits ⊢
    exact hfits

theorem runKernels_reported (hd : Delivers Fits InFile d) (h : Answered Fits InFile rt s₀ v s) :
    wp (fun _ => False) (runKernels rt cfg d v) (fun v' s' => Reported Fits rt v' s'.job ∧
      v'.decodeCacheHit = v.decodeCacheHit ∧ s'.job = s.job ∧ s'.cache = s.cache) (fun _ _ => False) s := by
  rw [runKernels, wp_ite]
  constructor
  · intro hpath
    have hmode := runMode_of_kernelPath hpath
    rw [wp_bind]
    refine calibrate_spec.mono ?_ fun _ _ hfalse => hfalse
    rintro _ s₁ ⟨-, hjob₁, hcache₁⟩
    have hreported : Reported Fits rt { v with kernels := { v.kernels with executed := true } } s₁.job := by
      intro r hr hhit
      show Fits (targetOf s₁.job) v.runMode (reportedLimit rt s₁.job _ v.runMode) r
      rw [hjob₁, reportedLimit, if_neg (by simp [hmode])]
      exact h.fits r hr (.inl hmode)
    rw [wp_ite]
    constructor
    · intro _
      refine (verifyKernels_reported (v := { v with kernels := { v.kernels with executed := true } }) hd hmode hreported
        rfl).imp ?_
      rintro v' s' ⟨hv', hhit, hjob', hcache'⟩
      exact ⟨hv', hhit, hjob'.trans hjob₁, hcache'.trans hcache₁⟩
    · intro _
      rw [wp_pure]
      exact ⟨hreported, rfl, hjob₁, hcache₁⟩
  · intro _
    rw [wp_pure]
    refine ⟨fun r hr hhit => ?_, rfl, rfl, rfl⟩
    rw [reportedLimit, h.fresh.2]
    exact h.fits r hr (.inr hhit)

def rowStored (rt : Runtime T) (cfg : Config) (job : Job) (rep : Report T) : Option (Row T) :=
  if !rep.decodeCacheHit && decide (rep.result.exitCode = 0) then
    (usableKey rt cfg job).map fun key => rowOf rt key rep.result
  else none

theorem decodeStage_stores (hd : Delivers Fits InFile d) : wp (fun _ => False) (decodeStage rt cfg d)
    (fun rep s' => { s'.job with execution := s.job.execution } = s.job ∧
      s'.cache = (match rowStored rt cfg s'.job rep with
        | some row => s.cache.insertOrReplace row
        | none => s.cache) ∧
      (rep.decodeCacheHit = false →
        Fits (targetOf s'.job) rep.runMode (reportedLimit rt s'.job rep.kernels rep.runMode) rep.result))
    (fun _ s' => s'.cache = s.cache) s := by
  refine (answerJob_answered hd).bind ?_
  rintro v s₁ ⟨h, -⟩
  rw [finishJob, wp_bind]
  refine (runKernels_reported hd h).mono ?_ fun _ _ hfalse => hfalse.elim
  rintro v' s₂ ⟨hreported, -, hjob₂, hcache₂⟩
  rw [wp_bind]
  refine storeResult_spec.mono ?_ fun _ _ hfalse => hfalse.elim
  rintro _ s₃ rfl
  cases hr : v'.result with
  | none =>
    rw [wp_exit, storedRow, hr, hcache₂]
    exact h.cache
  | some r =>
    rw [wp_pure]
    refine ⟨?_, ?_, fun hhit => hreported r hr hhit⟩
    · rw [hjob₂]
      exact h.job
    · rw [storedRow, hr, hcache₂, h.cache]
      rfl

end

/-! ### Histories -/

/-- A job, the settings of the router for it, what the adapters contribute to its fingerprint and whether the registry
knows its target; and the worker that runs it. -/
structure Submission (T : Type) where
  spec : JobSpec
  env : RouterEnv
  fp : AdapterFingerprint
  known : Bool
  cfg : Config
  delivery : Delivery T
  kernelSessionDisabled : Bool
  kernelCalibrateCounter : Nat

def Submission.job (rt : Runtime T) (i : Submission T) : Job := submit rt i.env i.delivery.lane i.fp i.known i.spec

def Submission.key (rt : Runtime T) (i : Submission T) : Option Key := usableKey rt i.cfg (i.job rt)

def Submission.start (rt : Runtime T) (i : Submission T) (cache : Cache T) : State T :=
  ⟨i.job rt, [], cache, i.kernelSessionDisabled, i.kernelCalibrateCounter⟩

/-- The run that a row comes from: its model, and its limit. Its backend is in the key. -/
structure Origin where
  model : Model
  maxTokens : Int
  deriving DecidableEq

structure System (T : Type) where
  cache : Cache T
  /-- not in the code -/
  origin : Key → Option Origin

def System.initial : System T := ⟨Table.empty, fun _ => none⟩

def stored (rt : Runtime T) (cfg : Config) (o : Outcome (State T) Unit Call (Report T)) : Option (Row T × Origin) :=
  match o.res with
  | .error _ => none
  | .ok rep => (rowStored rt cfg o.state.job rep).map fun row =>
    (row, ⟨o.state.job.execution.model, reportedLimit rt o.state.job rep.kernels rep.runMode⟩)

def process (rt : Runtime T) (sys : System T) (i : Submission T) : Outcome (State T) Unit Call (Report T) × System T :=
  let o := decodeStage rt i.cfg i.delivery (i.start rt sys.cache)
  (o, ⟨o.state.cache, match stored rt i.cfg o with
    | some (row, origin) => fun key => if key = row.key then some origin else sys.origin key
    | none => sys.origin⟩)

/-- A deterministic backend: what a run of a target gives for a prompt, a `deterministic_cfg` and a limit. Not every
adapter returns the text (`openai_compatible` writes it to the file only). -/
structure Backend where
  out : Target → Text → Text → Int → Text
  reports : Text → Bool

variable (b : Backend)

def Backend.reported (target : Target) (prompt cfg : Text) (n : Int) : Text :=
  if b.reports target.backendId then b.out target prompt cfg n else []

def Deterministic (i : Submission T) : Prop :=
  ∀ c before r, (i.delivery.adapter c before).result = some (some r) → r.exitCode = 0 →
    r.outputText = b.reported c.target i.spec.prompt i.spec.cfg c.maxTokens

def Submission.now (rt : Runtime T) (b : Backend) (i : Submission T) : Text :=
  b.out (targetOf (i.job rt)) i.spec.prompt i.spec.cfg (limit rt (i.job rt))

/-- A job that is answered from the cache is answered with what executing it gives. -/
def Sound (rt : Runtime T) (b : Backend) (before : List (Submission T)) (i : Submission T) : Prop :=
  (lookup rt i.cfg (i.start rt (after (process rt) System.initial before).cache)).isSome = true →
    KeepsHit i.delivery →
    ∃ rep, (answer (process rt) System.initial before i).res = .ok rep ∧ rep.result.outputText = i.now rt b

def SameText (rt : Runtime T) (b : Backend) (before : List (Submission T)) (i : Submission T) : Prop :=
  ∀ key ∈ i.key rt, ∀ o ∈ (after (process rt) System.initial before).origin key, KeepsHit i.delivery →
    b.reported ⟨key.backendId, o.model⟩ i.spec.prompt i.spec.cfg o.maxTokens = i.now rt b

/-- The row of the job comes from a run of the model that executes the job, at the job's limit, and the backend returns
its text. -/
def Agree (rt : Runtime T) (b : Backend) (before : List (Submission T)) (i : Submission T) : Prop :=
  ∀ key ∈ i.key rt, ∀ o ∈ (after (process rt) System.initial before).origin key, KeepsHit i.delivery →
    o = ⟨(i.job rt).execution.model, limit rt (i.job rt)⟩ ∧ b.reports key.backendId = true

/-- The text tells which target has given it, and at which limit. -/
structure Backend.Tells : Prop where
  eq : ∀ {target target' prompt cfg n n'}, b.out target prompt cfg n = b.out target' prompt cfg n' →
    target = target' ∧ n = n'
  ne_nil : ∀ target prompt cfg n, b.out target prompt cfg n ≠ []

def fingerprintBackend (rt : Runtime T) : Backend :=
  ⟨fun target _ _ n => rt.sha256 (rt.dumps ⟨⟨[], [], []⟩, target, n, 0, []⟩), fun _ => true⟩

structure Kept (rt : Runtime T) (b : Backend) (sys : System T) : Prop where
  origin : ∀ key o, sys.origin key = some o → ∃ row, sys.cache.find key = some row ∧
    ∃ prompt cfg, key.promptHash = rt.sha256 prompt ∧ key.samplingHash = rt.sha256 cfg ∧
      row.outputText = b.reported ⟨key.backendId, o.model⟩ prompt cfg o.maxTokens
  noOrigin : ∀ key, sys.origin key = none → sys.cache.find key = none

section

variable {b : Backend} {sys : System T} {i : Submission T} {job : Job} {key : Key} {row : Row T} {rep : Report T}
  {before : List (Submission T)}

theorem Deterministic.delivers (h : Deterministic b i) :
    Delivers (fun target _ n r => r.exitCode = 0 → r.outputText = b.reported target i.spec.prompt i.spec.cfg n)
      (fun _ _ => True) i.delivery where
  result := fun c before r hr => ⟨h c before r hr, trivial⟩
  noResult := fun _ _ _ _ _ => trivial
  row := fun _ => trivial

theorem eq_of_usableKey (h : usableKey rt cfg job = some key) :
    key = ⟨orElse job.orgId defaultTenant, backendOf job, job.fingerprintHash, job.promptHash, job.samplingHash⟩ := by
  unfold usableKey decodeCacheKey at h
  split_ifs at h
  exact (Option.some.inj h).symm

theorem of_rowStored (h : rowStored rt cfg job rep = some row) : rep.decodeCacheHit = false ∧ rep.result.exitCode = 0 ∧
    ∃ key, usableKey rt cfg job = some key ∧ row = rowOf rt key rep.result := by
  unfold rowStored at h
  split_ifs at h with hstore
  rw [Bool.and_eq_true, Bool.not_eq_true', decide_eq_true_eq] at hstore
  obtain ⟨key, hkey, rfl⟩ := Option.map_eq_some_iff.1 h
  exact ⟨hstore.1, hstore.2, key, hkey, rfl⟩

theorem kept_initial : Kept rt b (System.initial : System T) where
  origin := fun key o h => by cases h
  noOrigin := fun key _ => rfl

theorem Kept.same (h : Kept rt b sys) {sys' : System T} (hcache : sys'.cache = sys.cache)
    (horigin : sys'.origin = sys.origin) : Kept rt b sys' := by
  refine ⟨fun key o ho => ?_, fun key ho => ?_⟩
  · rw [horigin] at ho
    rw [hcache]
    exact h.origin key o ho
  · rw [horigin] at ho
    rw [hcache]
    exact h.noOrigin key ho

theorem Kept.insert (h : Kept rt b sys) {o : Origin} {prompt cfg : Text} (hprompt : row.key.promptHash = rt.sha256 prompt)
    (hcfg : row.key.samplingHash = rt.sha256 cfg)
    (htext : row.outputText = b.reported ⟨row.key.backendId, o.model⟩ prompt cfg o.maxTokens) :
    Kept rt b ⟨sys.cache.insertOrReplace row, fun key => if key = row.key then some o else sys.origin key⟩ := by
  refine ⟨fun key o' ho' => ?_, fun key ho' => ?_⟩
  · dsimp only at ho' ⊢
    rw [Table.find_insertOrReplace]
    split_ifs at ho' with hkey
    · cases ho'
      rw [if_pos hkey.symm, hkey]
      exact ⟨row, rfl, prompt, cfg, hprompt, hcfg, htext⟩
    · rw [if_neg (Ne.symm hkey)]
      exact h.origin key o' ho'
  · dsimp only at ho' ⊢
    rw [Table.find_insertOrReplace]
    split_ifs at ho' with hkey
    rw [if_neg (Ne.symm hkey)]
    exact h.noOrigin key ho'

theorem process_kept (hdet : Deterministic b i) (h : Kept rt b sys) : Kept rt b (process rt sys i).2 := by
  have hstage : Outcome.sat _ _ (decodeStage rt i.cfg i.delivery (i.start rt sys.cache)) :=
    decodeStage_stores hdet.delivers fun _ _ => id
  unfold process
  generalize decodeStage rt i.cfg i.delivery (i.start rt sys.cache) = o at hstage ⊢
  rcases o with ⟨_ | rep, s', l⟩
  · exact h.same hstage rfl
  · obtain ⟨hjob, hcache, hfits⟩ := hstage
    cases hrow : rowStored rt i.cfg s'.job rep with
    | none =>
      rw [hrow] at hcache
      refine h.same hcache ?_
      simp [stored, hrow]
    | some row =>
      rw [hrow] at hcache
      obtain ⟨hhit, hexit, key, hkey, rfl⟩ := of_rowStored hrow
      have heq := eq_of_usableKey hkey
      have hprompt : key.promptHash = rt.sha256 i.spec.prompt :=
        (congrArg Key.promptHash heq).trans (congrArg Job.promptHash hjob)
      have hcfg : key.samplingHash = rt.sha256 i.spec.cfg :=
        (congrArg Key.samplingHash heq).trans (congrArg Job.samplingHash hjob)
      have htarget : targetOf s'.job = ⟨key.backendId, s'.job.execution.model⟩ := by rw [heq, targetOf]
      have htext := hfits hhit hexit
      rw [htarget] at htext
      have hinsert : Kept rt b ⟨sys.cache.insertOrReplace (rowOf rt key rep.result), fun k => if k = key then
          some ⟨s'.job.execution.model, reportedLimit rt s'.job rep.kernels rep.runMode⟩ else sys.origin k⟩ :=
        h.insert hprompt hcfg htext
      have hcache' : s'.cache = sys.cache.insertOrReplace (rowOf rt key rep.result) := hcache
      simp only [stored, hrow, Option.map_some, hcache']
      exact hinsert

theorem after_kept (hdet : ∀ i ∈ before, Deterministic b i) :
    Kept rt b (after (process rt) System.initial before) := by
  induction before using List.reverseRecOn with
  | nil => exact kept_initial
  | append_singleton before i ih =>
    rw [after_concat]
    refine process_kept (hdet i (by simp)) (ih fun j hj => hdet j (List.mem_append_left _ hj))

theorem sound_iff_sameText (hdet : ∀ i ∈ before, Deterministic b i) :
    Sound rt b before i ↔ SameText rt b before i := by
  have hkept : Kept rt b (after (process rt) System.initial before) := after_kept hdet
  unfold Sound SameText answer
  generalize after (process rt) System.initial before = sys at hkept ⊢
  -- the row of the job, if it has one, is the text of its origin for the job's own prompt
  have hrow : ∀ key o, i.key rt = some key → sys.origin key = some o → ∃ row,
      lookup rt i.cfg (i.start rt sys.cache) = some row ∧
        row.outputText = b.reported ⟨key.backendId, o.model⟩ i.spec.prompt i.spec.cfg o.maxTokens := by
    intro key o hkey ho
    obtain ⟨row, hfind, prompt, cfg, hprompt, hcfg, htext⟩ := hkept.origin key o ho
    have heq := eq_of_usableKey hkey
    have hp : i.spec.prompt = prompt := rt.sha256_injective ((congrArg Key.promptHash heq).symm.trans hprompt)
    have hc : i.spec.cfg = cfg := rt.sha256_injective ((congrArg Key.samplingHash heq).symm.trans hcfg)
    refine ⟨row, ?_, hp ▸ hc ▸ htext⟩
    exact Option.bind_eq_some_iff.2 ⟨key, hkey, hfind⟩
  constructor
  · intro hsound key hkey o ho hkeeps
    obtain ⟨row, hlookup, htext⟩ := hrow key o hkey ho
    obtain ⟨rep, hrep, hout⟩ := hsound (by rw [hlookup]; rfl) hkeeps
    rw [process, decodeStage_hit hlookup hkeeps] at hrep
    cases hrep
    exact htext.symm.trans hout
  · intro hagree hsome hkeeps
    obtain ⟨row, hlookup⟩ := Option.isSome_iff_exists.1 hsome
    obtain ⟨key, hkey, hfind⟩ := Option.bind_eq_some_iff.1 hlookup
    cases ho : sys.origin key with
    | none =>
      have hnone := hkept.noOrigin key ho
      cases hnone.symm.trans hfind
    | some o =>
      obtain ⟨row', hlookup', htext⟩ := hrow key o hkey ho
      cases hlookup.symm.trans hlookup'
      rw [process, decodeStage_hit hlookup hkeeps]
      exact ⟨_, rfl, htext.trans (hagree key hkey o ho hkeeps)⟩

theorem Agree.sameText (h : Agree rt b before i) : SameText rt b before i := by
  intro key hkey o ho hkeeps
  obtain ⟨rfl, hreports⟩ := h key hkey o ho hkeeps
  rw [Backend.reported, if_pos hreports, Submission.now, eq_of_usableKey hkey]
  rfl

theorem SameText.agree (htells : b.Tells) (h : SameText rt b before i) : Agree rt b before i := by
  intro key hkey o ho hkeeps
  have htext := h key hkey o ho hkeeps
  unfold Backend.reported at htext
  split_ifs at htext with hreports
  · obtain ⟨htarget, hlimit⟩ := htells.eq htext
    cases o
    cases hlimit
    cases congrArg Target.model htarget
    exact ⟨rfl, hreports⟩
  · exact absurd htext.symm (htells.ne_nil _ _ _ _)

theorem fingerprintBackend_tells : (fingerprintBackend rt).Tells where
  eq h := by
    have hprint := Fingerprint.mk.injEq .. ▸ rt.dumps_injective (rt.sha256_injective h)
    exact ⟨hprint.2.1, hprint.2.2.1⟩
  ne_nil _ _ _ _ := rt.sha256_ne _

theorem key_eq_iff {j : Submission T} {k k' : Key} (hk : i.key rt = some k) (hk' : j.key rt = some k') :
    k = k' ↔ orElse i.spec.orgId defaultTenant = orElse j.spec.orgId defaultTenant ∧
      backendOf (i.job rt) = backendOf (j.job rt) ∧ i.spec.prompt = j.spec.prompt ∧ i.spec.cfg = j.spec.cfg ∧
      i.spec.requested = j.spec.requested ∧ i.fp = j.fp := by
  rw [eq_of_usableKey hk, eq_of_usableKey hk', Key.mk.injEq]
  have hfp : (i.job rt).fingerprintHash = (j.job rt).fingerprintHash ↔
      fingerprint rt i.spec i.fp = fingerprint rt j.spec j.fp :=
    rt.sha256_injective.eq_iff.trans rt.dumps_injective.eq_iff
  have hprompt : (i.job rt).promptHash = (j.job rt).promptHash ↔ i.spec.prompt = j.spec.prompt :=
    rt.sha256_injective.eq_iff
  have hcfg : (i.job rt).samplingHash = (j.job rt).samplingHash ↔ i.spec.cfg = j.spec.cfg := rt.sha256_injective.eq_iff
  rw [hfp, hprompt, hcfg]
  constructor
  · rintro ⟨horg, hbackend, hprint, hp, hc⟩
    have hfields := Fingerprint.mk.injEq .. ▸ hprint
    exact ⟨horg, hbackend, hp, hc, hfields.2.1, hfields.1⟩
  · rintro ⟨horg, hbackend, hp, hc, hreq, hf⟩
    refine ⟨horg, hbackend, ?_, hp, hc⟩
    rw [fingerprint, fingerprint, hreq, hf, hc]

/-- The condition is enough for every backend, and needed for those that tell their runs; there are some for every
runtime. Jobs with one key have the same backend, prompt and configuration, but the key has the model that was asked
for in place of the one that runs. -/
theorem decode_cache_sound_iff (history : List (Submission T)) (hdet : ∀ i ∈ history, Deterministic b i) :
    (Every (Agree rt b) history → Every (Sound rt b) history) ∧
    ((b.Tells → Every (Sound rt b) history → Every (Agree rt b) history) ∧ (fingerprintBackend rt).Tells) ∧
    ∀ (i j : Submission T) (k k' : Key), i.key rt = some k → j.key rt = some k' →
      (k = k' ↔ orElse i.spec.orgId defaultTenant = orElse j.spec.orgId defaultTenant ∧
        backendOf (i.job rt) = backendOf (j.job rt) ∧ i.spec.prompt = j.spec.prompt ∧ i.spec.cfg = j.spec.cfg ∧
        i.spec.requested = j.spec.requested ∧ i.fp = j.fp) := by
  have hsound : ∀ before i rest, history = before ++ i :: rest → (Sound rt b before i ↔ SameText rt b before i) := by
    rintro before i rest rfl
    exact sound_iff_sameText fun j hj => hdet j (List.mem_append_left _ hj)
  refine ⟨?_, ⟨?_, fingerprintBackend_tells⟩, fun i j k k' hk hk' => key_eq_iff hk hk'⟩
  · intro hagree before i rest heq
    exact (hsound before i rest heq).2 (hagree before i rest heq).sameText
  · intro htells h before i rest heq
    exact ((hsound before i rest heq).1 (h before i rest heq)).agree htells

end

/-! Jobs for a small model of `korith_local`, which the router may send to a vLLM server of the lane instead. -/

def laneServers : VllmEnv := ⟨[], [], [], ['h'], ['h'], ['m'], ['m'], [], []⟩

def smallEnv (hit miss : Bool) : RouterEnv := ⟨laneServers, false, miss, hit, false, false, false, none, none, []⟩

def outOfMemory : Result ℚ := ⟨1, [], 1, smallMetrics, false, false, true⟩

/-- With `oom`, the local backend is out of memory. -/
def smallSubmission (lane : Governance.Lane) (env : RouterEnv) (oom : Bool) (n : Nat) : Submission ℚ where
  spec := ⟨[], ⟨korithLocal, ⟨['q'], [], []⟩⟩, ['p'], List.replicate n 'n'⟩
  env := env
  fp := ⟨[], [], []⟩
  known := true
  cfg := { smallConfig with vllmOomFallbackEnabled := true, vllm := laneServers }
  delivery := { smallDelivery false (fun target _ k => b.reported target ['p'] (List.replicate n 'n') k) with
    lane := lane
    adapter := fun c before =>
      if oom && decide (c.target.backendId = korithLocal) then ⟨some (some outOfMemory), []⟩
      else (smallDelivery false fun target _ k => b.reported target ['p'] (List.replicate n 'n') k).adapter c before }
  kernelSessionDisabled := false
  kernelCalibrateCounter := 0

theorem smallSubmission_deterministic (lane : Governance.Lane) (env : RouterEnv) (oom : Bool) (n : Nat) :
    Deterministic b (smallSubmission b lane env oom n) := by
  intro c before r hr hexit
  dsimp only [smallSubmission] at hr
  split_ifs at hr
  · cases hr
    cases hexit
  · cases hr
    rfl

def fromCache (before : List (Submission ℚ)) (i : Submission ℚ) : Option Text :=
  if (answer (process smallRuntime) System.initial before i).log.isEmpty then
    (answer (process smallRuntime) System.initial before i).res.toOption.map fun rep => rep.result.outputText
  else none

def modelBackend : Backend := ⟨fun target _ _ _ => target.model.modelId, fun _ => true⟩

def letterBackend : Backend := ⟨fun _ _ _ n => List.replicate n.toNat 'a', fun _ => true⟩

def silentBackend : Backend := ⟨fun _ _ _ _ => ['t'], fun _ => false⟩

theorem decode_cache_sound_twice : Every (Sound smallRuntime modelBackend)
    [smallSubmission modelBackend .miss (smallEnv true true) false 8,
      smallSubmission modelBackend .miss (smallEnv true true) false 8] := by
  refine (decode_cache_sound_iff _ fun i hi => ?_).1 ?_
  · simp only [List.mem_cons, List.not_mem_nil, or_false, or_self] at hi
    rw [hi]
    exact smallSubmission_deterministic _ _ _ _ _
  · unfold Agree
    decide +kernel

/-- (1) A second job of the lane HIT gets the output of the model of the lane MISS. (2) So it does if the first job has
come to that model because the local backend was out of memory. (3) Text without spaces: the verification takes the 64
tokens of the reference run for another text than the 65 of the job, and stores them. (4) A backend that does not return
its text. -/
theorem decode_cache_unsound : (fromCache [smallSubmission modelBackend .miss (smallEnv true true) false 8]
        (smallSubmission modelBackend .hit (smallEnv true true) false 8) = some ['m'] ∧
      (smallSubmission modelBackend .hit (smallEnv true true) false 8).now smallRuntime modelBackend = ['h']) ∧
    (fromCache [smallSubmission modelBackend .miss (smallEnv true false) true 8]
        (smallSubmission modelBackend .hit (smallEnv true false) false 8) = some ['m'] ∧
      (smallSubmission modelBackend .hit (smallEnv true false) false 8).now smallRuntime modelBackend = ['h']) ∧
    (fromCache [smallSubmission letterBackend .miss (smallEnv false false) false 65]
        (smallSubmission letterBackend .miss (smallEnv false false) false 65) = some (List.replicate 64 'a') ∧
      (smallSubmission letterBackend .miss (smallEnv false false) false 65).now smallRuntime letterBackend =
        List.replicate 65 'a') ∧
    (fromCache [smallSubmission silentBackend .miss (smallEnv false false) false 8]
        (smallSubmission silentBackend .miss (smallEnv false false) false 8) = some [] ∧
      (smallSubmission silentBackend .miss (smallEnv false false) false 8).now smallRuntime silentBackend = ['t']) ∧
    ∀ b lane env oom n, Deterministic b (smallSubmission b lane env oom n) := by
  refine ⟨?_, ?_, ?_, ?_, smallSubmission_deterministic⟩
  · decide +kernel
  · decide +kernel
  · decide +kernel
  · decide +kernel

end Korith.DecodeStage
