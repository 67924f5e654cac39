import Korith.Executor.Compare
import Korith.Lib.Exec
import Korith.Lib.FloatArith

/-!
# The batch executor: state and primitive steps

`batch_executor_step` keeps verified tokens in a ring, together with the target's row behind each of them, and in a
second sequence of the target's memory, and commits them later. Its state is the two contexts, the positions, the
pointer `logits_target` and the function-local statics `holo_kv` and `spec_state`. What decides only about logging is
left out.

`logits_target` points into the output buffer of the target's context, which every decode of the target overwrites, or
to `g_best_logits_buffer`. Two fields are ghosts: `fresh` says that the row behind `logits_target` has not been
overwritten since the pointer was set, and `commits` records the text and the row after each commit of pending tokens.

The entropy of a row and the sampler with a seed are parameters, and so are the outcome of every external call and the
clock, each as a function of the number of such calls so far.
-/

namespace Korith.Executor

structure Env (F L : Type) where
  target : List Token → List L
  draft : List Token → List L
  nVocab : Nat
  nVocab_pos : 0 < nVocab
  target_length : ∀ xs, (target xs).length = nVocab
  draft_length : ∀ xs, (draft xs).length = nVocab
  isEog : Token → Bool
  /-- The address of the target's context; 0 is the null pointer. -/
  ctx : Nat
  nCtx : Nat
  nSeqMax : Nat
  hasDraft : Bool
  minTokens : Nat
  benchmark : Bool
  -- environment variables, after their bounds were applied
  specV3 : Bool
  blockMin : Nat
  blockMax : Nat
  /-- `gpu_accept_scan_enabled() && gpu_spec_verify_available() && spec_fused_verify_enabled()` -/
  gpuVerify : Bool
  maxEngines : Nat
  shadowWhenCommitBlocked : Bool
  determinismCheck : Bool
  adaptive : Bool
  badStreakLimit : Nat
  cooldownSteps : Nat
  safetyEntropyMax : F
  safetyMinAccept : F
  safetyRelaxAccept : F
  safetyEntropyStreak : Nat
  -- floating-point functions of a row
  entropy : Option (List L) → Bool → F
  sampleDist : List L → Nat → Bool → Option Token
  -- external calls
  targetFails : Nat → Bool
  draftFails : Nat → Bool
  printFails : Nat → Bool
  gpuFails : Nat → Bool
  clock : Nat → Nat

/-- The arguments of one call. Counts that the source compares with 0 before it uses them are natural
numbers here. -/
structure Call (F : Type) where
  batchTokens : Nat
  forceNormal : Bool
  reuseKv : Bool
  forceSpeculation : Bool
  windowLimit : Nat
  specDepth : Nat
  enabled : Bool
  allowExec : Bool
  allowCommit : Bool
  lanes : Nat
  acceptEma : F
  baselineTps : F
  tpsDelta : F
  engineCap : Nat

inductive LogitsPtr
  | null
  | ctx
  | best
  deriving DecidableEq

/-- A verified token that is not committed yet, with the target's row behind it. -/
structure PendingToken (L : Type) where
  token : Token
  age : Nat
  lastVerifiedStep : Nat
  row : List L

/-- The part of `SpecPersistState` that holds tokens back: the ring and its flags. -/
structure Ring (L : Type) where
  valid : Bool := false
  seqId : Nat := 1
  finishPending : Bool := false
  flushPending : Bool := false
  pending : List (PendingToken L) := []

structure Gate (F : Type) where
  stepId : Nat
  lastEntropy : F
  lastAccept : F
  acceptGateEma : F
  haveLastEntropy : Bool
  haveLastAccept : Bool
  entropyHotStreak : Nat

structure Profit (F : Type) where
  baselineDecodeMs : F
  negativeStreak : Nat
  cooldownSteps : Nat
  probeSteps : Nat
  retryCount : Nat
  hardDisabled : Bool

structure Adaptive (F : Type) where
  requestDisabled : Bool
  badChecks : Nat
  windowTokens : Nat
  windowNs : Nat
  windowEffectiveMs : F

/-- `SpecPersistState` without its key. A sequence whose `conf_valid` is not set has `none`. -/
structure Spec (F L : Type) where
  ring : Ring L
  gate : Gate F
  profit : Profit F
  adaptive : Adaptive F
  deferred : List Token
  conf : Nat → Option F
  confCap : Nat

structure HoloKv where
  valid : Bool := false
  prefixHash : Nat := 0
  lastUsedStep : Nat := 0
  deriving DecidableEq

structure State (F L : Type) where
  tgt : Ctx L
  drf : Ctx L
  posTarget : Nat
  posDraft : Nat
  logitsTarget : LogitsPtr
  best : List L
  finished : Bool
  printed : List Token
  printedThisCall : Nat
  generated : Nat
  specEnabled : Bool
  prefixHash : Nat
  holo : HoloKv
  spec : Spec F L
  tick : Nat
  fresh : Bool
  commits : List (List Token × Option (List L))

/-- What a run may do that breaks its promises. -/
inductive Hazard
  /-- a token is chosen from the row behind `logits_target` after that row was overwritten -/
  | staleLogits
  /-- the kernel accepts a drafted end-of-generation token -/
  | fusedEog
  /-- end-of-generation tokens are suppressed, or not, for a position on the other side of the
  threshold -/
  | straddle
  /-- no engine is confident while tokens are pending -/
  | unconfidentPending
  /-- pending tokens are dropped but not the note that the request ends behind them -/
  | droppedFinish
  deriving DecidableEq

/-- A block of the executor's code. It is left by `continue`, by `break` or with the value -1. -/
abbrev M (F L α : Type) : Type := Exec (State F L) (Exec.Leave Unit) Hazard α

variable {F L : Type}

def Gate.init [FloatArith F] : Gate F :=
  ⟨0, FloatArith.ofNat 0, FloatArith.ofNat 0, FloatArith.nan, false, false, 0⟩

def Profit.init [FloatArith F] : Profit F := ⟨FloatArith.nan, 0, 0, 1, 0, false⟩

def Adaptive.init [FloatArith F] : Adaptive F := ⟨false, 0, 0, 0, FloatArith.ofNat 0⟩

def Spec.init [FloatArith F] (confCap : Nat) : Spec F L :=
  ⟨{}, Gate.init, Profit.init, Adaptive.init, [], fun _ => none, confCap⟩

def Ring.tokens (r : Ring L) : List Token := r.pending.map (·.token)

variable (e : Env F L) (s : State F L)

def State.row : Option (List L) :=
  match s.logitsTarget with
  | .null => none
  | .ctx => s.tgt.out.head?
  | .best => some s.best

/-- `logits_draft`: each decode of the draft model is followed by a fresh read of the buffer. -/
def State.draftRow : Option (List L) := s.drf.out.head?

def State.pendingPos : Nat := s.posTarget + s.spec.ring.pending.length

def State.baseRow : Option (List L) :=
  match s.spec.ring.pending.getLast? with
  | none => s.row
  | some p => some p.row

def Env.allowEog (n : Nat) : Bool := e.minTokens == 0 || decide (e.minTokens ≤ n)

def Env.allowEogNow : Bool := e.allowEog s.printed.length

def hashTokenPrefixStep (h : Nat) (t : Token) : Nat := (1099511628211 * (h ^^^ (t % 2 ^ 32))) % 2 ^ 64

def State.hashToken (t : Token) (s : State F L) : State F L :=
  { s with prefixHash := hashTokenPrefixStep s.prefixHash t }

/-! ### Primitive steps -/

/-- `return -1`: every such return of the loop also finishes the request. -/
def abort {α : Type} : M F L α := do
  Exec.modify fun s => { s with finished := true }
  Exec.exit (.ret ())

def finish : M F L Unit := Exec.modify fun s => { s with finished := true }

def tick : M F L Nat := do
  let s ← Exec.get
  Exec.modify fun s => { s with tick := s.tick + 1 }
  pure s.tick

def now : M F L Nat := do
  let n ← tick
  pure (e.clock n)

def State.decodeTarget (q start : Nat) (ts : List Token) (s : State F L) : State F L :=
  { s with tgt := s.tgt.decode e.target q start ts true, fresh := s.fresh && s.logitsTarget != .ctx }

/-- `decode_one_token` and `decode_batch_tokens` of the target, which ask for the logits of every token. -/
def decodeTarget (e : Env F L) (q start : Nat) (ts : List Token) : M F L Bool := do
  let n ← tick
  if e.targetFails n then pure false
  else do
    Exec.modify (State.decodeTarget e q start ts)
    pure true

/-- The same of the draft model; a batch asks for the last row only. -/
def decodeDraft (ts : List Token) : M F L Bool := do
  let n ← tick
  if e.draftFails n then pure false
  else do
    Exec.modify fun s => { s with
      drf := s.drf.decode e.draft 0 s.posDraft ts false
      posDraft := s.posDraft + ts.length }
    pure true

def seqRmTarget (q : Nat) (p0 p1 : Int) : M F L Unit :=
  Exec.modify fun s => { s with tgt.mem := s.tgt.mem.seqRm q p0 p1 }

def seqCpTarget (src dst : Nat) (p0 p1 : Int) : M F L Unit :=
  Exec.modify fun s => { s with tgt.mem := s.tgt.mem.seqCp src dst p0 p1 }

/-- `count_printed`. In benchmark mode nothing is written, so nothing can fail. -/
def countPrinted (t : Token) : M F L Bool := do
  let n ← tick
  if !e.benchmark && e.printFails n then pure false
  else do
    Exec.modify fun s => { s with printed := s.printed ++ [t], printedThisCall := s.printedThisCall + 1 }
    pure true

def rollbackDraftTo (pos : Nat) : M F L Unit :=
  Exec.modify fun s => { s with
    drf.mem := if e.hasDraft && decide (pos < s.posDraft) then s.drf.mem.seqRm 0 pos s.posDraft else s.drf.mem
    posDraft := pos }

def ensureSeq1Synced (pos : Nat) : M F L Bool := do
  let s ← Exec.get
  if e.nSeqMax < 2 ∨ s.tgt.mem.seqPosMax 0 ≠ (pos : Int) - 1 then do
    Exec.modify fun s => { s with holo.valid := false }
    pure false
  else do
    Exec.when (!(decide (s.tgt.mem.seqPosMax 1 = (pos : Int) - 1) &&
        (!s.holo.valid || s.holo.prefixHash == s.prefixHash))) do
      seqRmTarget 1 (-1) (-1)
      seqCpTarget 0 1 0 pos
    Exec.modify fun s => { s with holo := ⟨true, s.prefixHash, pos⟩ }
    pure true

def ensureSeqSynced (q pos : Nat) : M F L Bool :=
  if q = 1 then ensureSeq1Synced e pos
  else do
    seqRmTarget q (-1) (-1)
    seqCpTarget 0 q 0 pos
    pure true

/-- `reset_spec_state`. The sequence and the adaptive state survive every reset. -/
def resetSpecState [FloatArith F] (clearSeq preserveProfit : Bool) : M F L Unit := do
  let s ← Exec.get
  Exec.when clearSeq (seqRmTarget s.spec.ring.seqId (-1) (-1))
  Exec.modify fun s => { s with
    spec.ring := { seqId := s.spec.ring.seqId }
    spec.gate := Gate.init
    spec.profit := if preserveProfit then s.spec.profit else Profit.init
    spec.deferred := if preserveProfit then s.spec.deferred else []
    spec.conf := fun q =>
      if clearSeq ∧ q = s.spec.ring.seqId then none else s.spec.conf q }

/-! ### What the primitive steps do to a postcondition -/

section Rules

variable {B : Hazard → Prop} {E : Exec.Leave Unit → State F L → Prop} {s : State F L} {e : Env F L}

open Exec

@[simp] theorem wp_abort {α : Type} {Q : α → State F L → Prop} :
    wp B abort Q E s ↔ E (.ret ()) { s with finished := true } := by
  simp [abort]

@[simp] theorem wp_finish {Q : Unit → State F L → Prop} : wp B finish Q E s ↔ Q () { s with finished := true } := by
  simp [finish]

@[simp] theorem wp_tick {Q : Nat → State F L → Prop} : wp B tick Q E s ↔ Q s.tick { s with tick := s.tick + 1 } := by
  simp [tick]

@[simp] theorem wp_now {Q : Nat → State F L → Prop} :
    wp B (now e) Q E s ↔ Q (e.clock s.tick) { s with tick := s.tick + 1 } := by
  simp [now]

@[simp] theorem wp_seqRmTarget {q : Nat} {p0 p1 : Int} {Q : Unit → State F L → Prop} :
    wp B (seqRmTarget q p0 p1) Q E s ↔ Q () { s with tgt.mem := s.tgt.mem.seqRm q p0 p1 } := by
  simp [seqRmTarget]

@[simp] theorem wp_seqCpTarget {src dst : Nat} {p0 p1 : Int} {Q : Unit → State F L → Prop} :
    wp B (seqCpTarget src dst p0 p1) Q E s ↔ Q () { s with tgt.mem := s.tgt.mem.seqCp src dst p0 p1 } := by
  simp [seqCpTarget]

variable {ts : List Token} {Q : Bool → State F L → Prop}

theorem wp_decodeTarget {q start : Nat} : wp B (decodeTarget e q start ts) Q E s ↔
      (e.targetFails s.tick = true → Q false { s with tick := s.tick + 1 }) ∧
      (e.targetFails s.tick = false →
        Q true (State.decodeTarget e q start ts { s with tick := s.tick + 1 })) := by
  simp [decodeTarget, wp_ite]

theorem wp_decodeDraft : wp B (decodeDraft e ts) Q E s ↔
      (e.draftFails s.tick = true → Q false { s with tick := s.tick + 1 }) ∧
      (e.draftFails s.tick = false → Q true { s with
        tick := s.tick + 1
        drf := s.drf.decode e.draft 0 s.posDraft ts false
        posDraft := s.posDraft + ts.length }) := by
  simp [decodeDraft, wp_ite]

theorem wp_countPrinted {t : Token} : wp B (countPrinted e t) Q E s ↔
      ((!e.benchmark && e.printFails s.tick) = true → Q false { s with tick := s.tick + 1 }) ∧
      ((!e.benchmark && e.printFails s.tick) = false → Q true { s with
        tick := s.tick + 1
        printed := s.printed ++ [t]
        printedThisCall := s.printedThisCall + 1 }) := by
  simp [countPrinted, wp_bind, wp_tick, wp_ite, wp_pure, wp_modify]

@[simp] theorem wp_rollbackDraftTo {pos : Nat} {Q : Unit → State F L → Prop} :
    wp B (rollbackDraftTo e pos) Q E s ↔ Q () { s with
      drf.mem := if e.hasDraft && decide (pos < s.posDraft) then s.drf.mem.seqRm 0 pos s.posDraft else s.drf.mem
      posDraft := pos } := by
  simp [rollbackDraftTo]

end Rules

end Korith.Executor
