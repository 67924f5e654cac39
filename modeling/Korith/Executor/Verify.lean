import Korith.Executor.Pending

/-!
# The batch executor: proposal, verification and the pending ring

The second half of an iteration. The draft model proposes a block of tokens behind the pending ones; one or more
engines, each in a sequence of its own, let the target decode the block (or, behind the first engine, a block sampled
from the same rows of the draft model) and compare it with the target's choices; the best engine with an acceptance of
at least 0.6 appends its tokens to the ring. If there is none, the target makes a single step.
-/

namespace Korith.Executor

open Exec FloatArith

variable {F L : Type} [FloatArith F] [LinearOrder L]

/-! ### The size of a block -/

variable (e : Env F L)

variable (c : Call F)

def specWindow (accept : F) : Nat × Bool :=
  let depth := specDepth e c
  let delta := deltaGate c
  if depth < 2 then (depth, false)
  else if e.specV3 && decide (2 ≤ specV3MaxBlock e) then
    let lo := specV3MinBlock e
    let hi := specV3MaxBlock e
    let w := if c.forceSpeculation && decide (0 < c.windowLimit) then clampNat c.windowLimit lo hi
      else clampNat depth lo hi
    if ge (ofNat 0) delta && decide (lo < w) then (lo, false) else (w, decide (lo < w))
  else
    let expand := decide (3 ≤ depth) && ge accept (hundredths 70) && lt (ofNat 0) delta
    let w := clampNat depth 2 (if expand then 6 else 4)
    let w := if c.forceSpeculation && decide (w < c.windowLimit) then c.windowLimit else w
    if ge (ofNat 0) delta && decide (2 < w) then (2, false) else (w, expand && decide (4 < w))

/-- There is no room for a block: flush what is pending, or make a single step. -/
def flushOrStep {α : Type} : M F L α := do
  let s ← get
  if s.spec.ring.pending.isEmpty then stepAndContinue e true
  else do
    modify fun s => { s with spec.ring.flushPending := true }
    exit .cont

/-- The request ends behind the pending tokens, or here if there are none. -/
def finishBehindPending {α : Type} : M F L α := do
  let s ← get
  if s.spec.ring.pending.isEmpty then do
    finish
    exit .brk
  else do
    modify fun s => { s with spec.ring.finishPending := true, spec.ring.flushPending := true }
    exit .cont

def clampByContext (k : Nat) : M F L Nat := do
  let s ← get
  if e.nCtx = 0 then pure k
  else if e.nCtx ≤ s.pendingPos then finishBehindPending
  else if min k (e.nCtx - s.pendingPos) ≤ 1 then flushOrStep e
  else pure (min k (e.nCtx - s.pendingPos))

def blockSize (window : Nat) : M F L Nat := do
  let s ← get
  let k := min (min (min window (c.batchTokens - s.generated)) (maxSpecDepth e))
    (64 - s.spec.ring.pending.length)
  if k ≤ 1 then flushOrStep e else clampByContext e k

def baseToken (allowEogBase : Bool) : M F L Token := do
  let s ← get
  note (s.spec.ring.pending.isEmpty && !s.fresh) .staleLogits
  note (allowEogBase != e.allowEog (s.printed.length + s.spec.ring.pending.length)) .straddle
  match sample e s.baseRow allowEogBase with
  | none => do
    finish
    exit .brk
  | some t => if e.isEog t then finishBehindPending else pure t

def capBlock (k : Nat) : Nat :=
  if e.specV3 && decide (2 ≤ specV3MaxBlock e) then min k (max (specDepth e c) (specV3MaxBlock e))
  else min k (specDepth e c)

/-! ### The draft model proposes -/

/-- A proposal with the rows it was chosen from; it fails if a decode does or a row has no token. -/
structure Proposal (L : Type) where
  ok : Bool
  tokens : List Token
  rows : List (List L)

def propose (e : Env F L) (allowEog : Bool) : Nat → List Token → List (List L) → M F L (Proposal L)
  | 0, ts, rows => pure ⟨true, ts, rows⟩
  | k + 1, ts, rows => do
    let s ← get
    match s.draftRow with
    | none => pure ⟨false, ts, rows⟩
    | some row =>
      match sample e (some row) allowEog with
      | none => pure ⟨false, ts, rows⟩
      | some t =>
        if e.isEog t then pure ⟨true, ts, rows⟩
        else do
          let ok ← decodeDraft e [t]
          if ok then propose e allowEog k (ts ++ [t]) (rows ++ [row])
          else pure ⟨false, ts, rows⟩

/-- Nothing can be verified: the draft model and the pending tokens are given up. -/
def abandonBlock {α : Type} : M F L α := do
  let s ← get
  rollbackDraftTo e s.pendingPos
  when (!s.spec.ring.pending.isEmpty) do
    resetSpecState true false
    rollbackDraftTo e s.posTarget
  stepAndContinue e true

structure Block (L : Type) where
  tokens : List Token
  rows : List (List L)
  elapsedNs : Nat

def draftBlock (k : Nat) : M F L (Block L) := do
  let s ← get
  let t0 ← now e
  let p ← propose e (e.allowEogNow s) k [] []
  let t1 ← now e
  if !p.ok || p.tokens.isEmpty then abandonBlock e else pure ⟨p.tokens, p.rows, t1 - t0⟩

/-! ### Engines -/

def engineCount (accept : F) (expanded pending : Bool) : Nat :=
  let n := min (e.nSeqMax - 1) (c.lanes - 1)
  let n := if 0 < e.maxEngines then min n e.maxEngines else if e.specV3 then min n 1 else n
  let n := if 1 < n ∧ (ge (hundredths 60) accept || lt (deltaGate c) (ofNat 0)) then 1 else n
  let n := if expanded && decide (1 < n) then 1 else n
  let n := if pending then 1 else n
  if 0 < c.engineCap ∧ c.engineCap < n then c.engineCap else n

def bestTwo (p : Nat → Bool) : List L → Nat → Option (Nat × L) → Option (Nat × L) →
    Option (Nat × L) × Option (Nat × L)
  | [], _, best, second => (best, second)
  | v :: row, i, best, second =>
    if !p i then bestTwo p row (i + 1) best second
    else if best.all (·.2 < v) then bestTwo p row (i + 1) (some (i, v)) best
    else if second.all (·.2 < v) then bestTwo p row (i + 1) best (some (i, v))
    else bestTwo p row (i + 1) best second

def pickAlternateToken (row : List L) (allowEog : Bool) (avoid : Token) : Option Token :=
  let (best, second) := bestTwo (fun i => allowEog || !e.isEog i) row 0 none none
  match best with
  | none => none
  | some (b, _) => if b ≠ avoid then some b else second.map (·.1)

/-- Replace the last token for which there is an alternative. -/
def alternate (e : Env F L) (allowEog : Bool) : List (Token × List L) → List Token
  | [] => []
  | (t, row) :: rest =>
    let rest' := alternate e allowEog rest
    if rest' ≠ rest.map (·.1) then t :: rest'
    else
      match pickAlternateToken e row allowEog t with
      | some a => a :: rest'
      | none => t :: rest'

/-- `base_seed` and the seed of one token, in 32 bits. -/
def engineSeed (pos idx i : Nat) : Nat :=
  0x9e3779b9 ^^^ ((pos + 1) % 2 ^ 32) ^^^ ((idx + 1) % 2 ^ 32) ^^^ ((i + 1) * 0x85ebca6b % 2 ^ 32) ^^^
    ((idx + 1) * 0xc2b2ae35 % 2 ^ 32)

/-- The block that an engine verifies. The first one takes the draft; the others sample from the draft
model's rows and make sure that they differ from the draft. -/
def engineTokens (allowEog : Bool) (pos idx : Nat) (b : Block L) : Option (List Token) :=
  if idx = 0 then some b.tokens
  else
    match (b.rows.zipIdx).mapM fun (row, i) => e.sampleDist row (engineSeed pos idx i) allowEog with
    | none => none
    | some ts => if ts = b.tokens then some (alternate e allowEog (b.tokens.zip b.rows)) else some ts

structure Verdict (L : Type) where
  seq : Nat
  proposed : Nat
  tokens : List Token
  rows : List (List L)
  correction : Option Token
  finished : Bool
  elapsedNs : Nat
  verifyNs : Nat
  scanNs : Nat

variable (v : Verdict L)

def Verdict.accepted : Nat := v.tokens.length

/-- `out_tokens`: the accepted tokens and the target's token for the first wrong one. -/
def Verdict.out : List Token := v.tokens ++ v.correction.toList

/-- An engine that cannot decide gives the whole call up. -/
def abortEngine (seq : Nat) {α : Type} : M F L α := do
  let s ← get
  seqRmTarget seq (-1) (-1)
  rollbackDraftTo e s.pendingPos
  abort

def checkOnHost (seq : Nat) (tok0 : Token) (ts : List Token) : M F L Checked := do
  let s ← get
  let allow := e.allowEogNow s
  note (decide (1 < ts.length) &&
    (allow != e.allowEog (s.printed.length + s.spec.ring.pending.length + (ts.length - 1)))) .straddle
  match hostCompare e.isEog allow
      (some tok0 :: (s.tgt.out.take (ts.length - 1)).map fun row => sample e (some row) allow) ts with
  | none => abortEngine e seq
  | some c => pure (settle e.isEog allow ts.length c)

variable [OrderBot L]

/-- The kernel reads the base row when the target has already decoded the block. -/
def checkOnGpu (e : Env F L) (ts : List Token) : M F L Checked := do
  let s ← get
  note (s.spec.ring.pending.isEmpty && !s.fresh) .staleLogits
  let c := gpuSpecVerify (s.baseRow.getD [] :: s.tgt.out.take (ts.length - 1)) ts
  note ((ts.take c.accepted).any e.isEog) .fusedEog
  pure (settle e.isEog true ts.length c)

def checkBlock (e : Env F L) (seq : Nat) (tok0 : Token) (ts : List Token) : M F L Checked := do
  let s ← get
  let n ← tick
  if e.specV3 && e.gpuVerify && e.allowEogNow s && !e.gpuFails n then checkOnGpu e ts
  else checkOnHost e seq tok0 ts

def prepareEngine (seq : Nat) : M F L Bool := do
  let s ← get
  if s.spec.ring.pending.isEmpty then ensureSeqSynced e seq s.posTarget
  else pure (seq == s.spec.ring.seqId)

def verifyBlock (e : Env F L) (seq : Nat) (tok0 : Token) (t0 : Nat) (ts : List Token) :
    M F L (Option (Verdict L)) := do
  let s ← get
  let v0 ← now e
  let ok ← decodeTarget e seq s.pendingPos ts
  let v1 ← now e
  if !ok then do
    seqRmTarget seq (-1) (-1)
    pure none
  else do
    let a0 ← now e
    let chk ← checkBlock e seq tok0 ts
    let a1 ← now e
    let s' ← get
    when (decide (chk.accepted < ts.length))
      (seqRmTarget seq (s.pendingPos + chk.accepted) (s.pendingPos + ts.length))
    let t1 ← now e
    pure (some ⟨seq, ts.length, ts.take chk.accepted, s'.tgt.out.take chk.accepted, chk.correction,
      chk.finished, t1 - t0, v1 - v0, a1 - a0⟩)

def runEngine (e : Env F L) (seq : Nat) (tok0 : Token) (block : Option (List Token)) :
    M F L (Option (Verdict L)) := do
  let t0 ← now e
  match block with
  | none => do
    seqRmTarget seq (-1) (-1)
    pure none
  | some ts => do
    let ok ← prepareEngine e seq
    if !ok then do
      seqRmTarget seq (-1) (-1)
      pure none
    else verifyBlock e seq tok0 t0 ts

def acceptRatio : F := ofNat v.accepted / ofNat v.proposed

def score : F :=
  let elapsed : F := ofNat v.elapsedNs * (ofNat 1 / ofNat 1000000000)
  let tps : F := if lt (ofNat 1 / ofNat 1000000000) elapsed then ofNat v.accepted / elapsed else ofNat 0
  tps * acceptRatio v

def updateConf (seq : Nat) (ratio : F) (spec : Spec F L) : Spec F L :=
  if seq < spec.confCap then
    { spec with conf := fun q =>
        if q = seq then
          match spec.conf seq with
          | some prev => some (hundredths 80 * prev + hundredths 20 * ratio)
          | none => some ratio
        else spec.conf q }
  else spec

structure Best (F L : Type) where
  verdict : Verdict L
  score : F

def selectBetter (best : Option (Best F L)) (v : Verdict L) : Option (Best F L) :=
  let previous := match best with
    | none => ofNat 0 - ofNat 1
    | some b => b.score
  if ge (acceptRatio v) (hundredths 60 : F) && lt previous (score v) then some ⟨v, score v⟩ else best

def engineLoop (e : Env F L) (tok0 : Token) (allowEog : Bool) (b : Block L) :
    Nat → Nat → Option (Best F L) → M F L (Option (Best F L))
  | 0, _, best => pure best
  | n + 1, idx, best => do
    let s ← get
    let seq := if s.spec.ring.pending.isEmpty then idx + 1 else s.spec.ring.seqId
    let v ← runEngine e seq tok0 (engineTokens e allowEog s.pendingPos idx b)
    match v with
    | none => engineLoop e tok0 allowEog b n (idx + 1) best
    | some v => do
      modify fun s => { s with spec := updateConf seq (acceptRatio v) s.spec }
      engineLoop e tok0 allowEog b n (idx + 1) (selectBetter best v)

def clearEngines (keep : Option Nat) (n : Nat) (m : Memory) : Memory :=
  (List.range n).foldl (fun m i => if keep = some (i + 1) then m else m.seqRm (i + 1) (-1) (-1)) m

/-- No engine is confident. The sequences are emptied, the pending tokens stay in the ring. -/
def noConfidentEngine (n : Nat) {α : Type} : M F L α := do
  let s ← get
  note (!s.spec.ring.pending.isEmpty) .unconfidentPending
  modify fun s => { s with tgt.mem := clearEngines none n s.tgt.mem }
  rollbackDraftTo e s.pendingPos
  stepAndContinue e true

def verifyEngines (e : Env F L) (c : Call F) (h : Head F) (expanded : Bool) (tok0 : Token) (b : Block L) :
    M F L (Verdict L × Nat) := do
  let s ← get
  let n := engineCount e c h.accept expanded (!s.spec.ring.pending.isEmpty)
  if n = 0 then abandonBlock e
  else do
    let best ← engineLoop e tok0 (e.allowEogNow s) b n 0 none
    match best with
    | none => noConfidentEngine e n
    | some best => pure (best.verdict, n)

/-! ### Into the ring -/

/-- The verified tokens do not go into the ring: give it up. -/
def dropBlock : M F L Unit := do
  let s ← get
  resetSpecState true false
  rollbackDraftTo e s.posTarget
  stepAndContinue e true

/-- Decode the target's correction behind the accepted tokens. Its row goes to `g_best_logits_buffer`,
which `logits_target` may point to. -/
def decodeCorrection : M F L Unit := do
  let s ← get
  match v.correction with
  | none => pure ()
  | some t =>
    if v.finished then pure ()
    else do
      let ok ← decodeTarget e v.seq (s.pendingPos + v.accepted) [t]
      if ok then
        modify fun s => { s with
          best := s.tgt.out.head?.getD []
          fresh := s.fresh && s.logitsTarget != .best }
      else abortEngine e v.seq

/-- The new entries of the ring: the row behind each accepted token, and for the correction what is in
`g_best_logits_buffer`. -/
def newPending (step : Nat) (best : List L) (v : Verdict L) : List (PendingToken L) :=
  List.zipWith (fun t row => ⟨t, 0, step, row⟩) v.out (v.rows ++ [best])

def appendPending (n : Nat) (v : Verdict L) : M F L Unit :=
  modify fun s => { s with
    spec.ring.pending := s.spec.ring.pending ++ newPending s.spec.gate.stepId s.best v
    spec.ring.finishPending := s.spec.ring.finishPending || v.finished
    tgt.mem := clearEngines (some v.seq) n s.tgt.mem }

def takeVerdict (n : Nat) (v : Verdict L) : M F L Unit := do
  let s ← get
  if !s.spec.ring.pending.isEmpty && v.seq != s.spec.ring.seqId then dropBlock e
  else do
    modify fun s => { s with
      spec.ring.seqId := if s.spec.ring.pending.isEmpty then v.seq else s.spec.ring.seqId
      spec.ring.valid := true }
    if 64 < s.spec.ring.pending.length + v.out.length then dropBlock e
    else do
      decodeCorrection e v
      appendPending n v

/-! ### Is it worth it? -/

def stepAcceptGate (g : Gate F) : Gate F :=
  let accept := clamp (acceptRatio v) (ofNat 0) (ofNat 1)
  { g with
    acceptGateEma :=
      if isFinite g.acceptGateEma then g.acceptGateEma + hundredths 20 * (accept - g.acceptGateEma)
      else accept
    lastAccept := accept
    haveLastAccept := true }

def callerDecodeMs : Option F :=
  if isFinite c.baselineTps && lt (ofNat 1 / ofNat 1000000) c.baselineTps then some (ofNat 1000 / c.baselineTps)
  else none

def measuredDecodeMs (p : Profit F) : Option F :=
  if isFinite p.baselineDecodeMs && lt (ofNat 0) p.baselineDecodeMs then some p.baselineDecodeMs else none

def nsToMs (ns : Nat) : F := ofNat ns * (ofNat 1 / ofNat 1000000)

/-- `spec_effective_now_ms`: what the accepted tokens saved, less what they cost. -/
def effectiveMs (p : Profit F) (draftNs : Nat) (v : Verdict L) : F :=
  match (callerDecodeMs c).or (measuredDecodeMs p) with
  | none => nan
  | some ms => ofNat v.accepted * ms - (nsToMs draftNs + nsToMs v.verifyNs + nsToMs v.scanNs)

/-- The rates of a full window with and without speculation. -/
def windowRates (p : Profit F) (a : Adaptive F) : Option (F × F) :=
  match (measuredDecodeMs p).or (callerDecodeMs c) with
  | none => none
  | some ms =>
    let specMs := ms * ofNat a.windowTokens - a.windowEffectiveMs
    if lt (ofNat 1 / ofNat 1000000000) ms && isFinite (ms * ofNat a.windowTokens) && isFinite specMs &&
        lt (ofNat 1 / ofNat 1000000000) specMs then
      some (ofNat a.windowTokens / (specMs * (ofNat 1 / ofNat 1000)), ofNat 1000 / ms)
    else none

/-- Three bad windows in a row disable speculation for the request. -/
def checkWindow (spec : Spec F L) : Spec F L :=
  let a := spec.adaptive
  let badChecks := match windowRates c spec.profit a with
    | none => a.badChecks
    | some (specTps, baselineTps) =>
      if isFinite specTps && isFinite baselineTps then
        if lt specTps baselineTps then a.badChecks + 1 else 0
      else a.badChecks
  let off := decide (a.badChecks < badChecks) && decide (3 ≤ badChecks)
  { spec with
    adaptive := ⟨a.requestDisabled || off, badChecks, 0, 0, ofNat 0⟩
    profit := if off then { spec.profit with cooldownSteps := 0, probeSteps := 0 } else spec.profit
    deferred := if off then [] else spec.deferred }

def stepAdaptive (effective : F) (v : Verdict L) (spec : Spec F L) : Spec F L :=
  let a := spec.adaptive
  if e.adaptive && !a.requestDisabled && decide (0 < v.elapsedNs) then
    let a := { a with
      windowTokens := a.windowTokens + max 1 v.out.length
      windowNs := a.windowNs + v.elapsedNs
      windowEffectiveMs := if isFinite effective then a.windowEffectiveMs + effective else a.windowEffectiveMs }
    if 10 ≤ a.windowTokens ∧ 0 < a.windowNs then checkWindow c { spec with adaptive := a }
    else { spec with adaptive := a }
  else spec

def stepStreak (loss : Bool) (p : Profit F) : Profit F :=
  let streak := if loss then p.negativeStreak + 1 else 0
  if e.badStreakLimit ≤ streak then { p with negativeStreak := 0, cooldownSteps := e.cooldownSteps, probeSteps := 0 }
  else { p with negativeStreak := streak }

/-- The probe after a cooldown; a second probe at a loss disables speculation for good. -/
def stepProbe (loss : Bool) (spec : Spec F L) : Spec F L :=
  let p := spec.profit
  if p.probeSteps = 0 then spec
  else if !loss then { spec with profit := { p with probeSteps := p.probeSteps - 1 } }
  else if 1 ≤ p.retryCount then
    { spec with
      profit := { p with probeSteps := 0, negativeStreak := 0, hardDisabled := true, cooldownSteps := 0 }
      deferred := [] }
  else { spec with profit := { p with probeSteps := 0, negativeStreak := 0, cooldownSteps := e.cooldownSteps } }

def stepProfit (effective : F) (spec : Spec F L) : Spec F L :=
  if e.adaptive then { spec with profit := { spec.profit with negativeStreak := 0 } }
  else
    let loss := isFinite effective && lt effective (ofNat 0)
    stepProbe e loss { spec with profit := stepStreak e loss spec.profit }

def account (draftNs : Nat) (v : Verdict L) (spec : Spec F L) : Spec F L :=
  let effective := effectiveMs c spec.profit draftNs v
  stepProfit e effective (stepAdaptive e c effective v { spec with gate := stepAcceptGate v spec.gate })

/-! ### The draft model follows -/

/-- Bring the draft model behind the verified tokens; it has to stand behind its own block. -/
def syncDraftToBlock (pos : Nat) (draft out : List Token) : M F L Unit := do
  let s ← get
  if !e.hasDraft then pure ()
  else if s.posDraft ≠ pos + draft.length then abort
  else if out <+: draft then
    modify fun s => { s with
      drf.mem :=
        if out.length < draft.length then s.drf.mem.seqRm 0 (pos + out.length) (pos + draft.length)
        else s.drf.mem
      posDraft := pos + out.length }
  else do
    modify fun s => { s with drf.mem := s.drf.mem.seqRm 0 pos (-1), posDraft := pos }
    let ok ← decodeEachDraft e out
    when (!ok) abort

def speculate (e : Env F L) (c : Call F) (h : Head F) : M F L Unit := do
  let w := specWindow e c h.accept
  let k ← blockSize e c w.1
  let tok0 ← baseToken e h.allowEogBase
  let b ← draftBlock e (capBlock e c k)
  let r ← verifyEngines e c h w.2 tok0 b
  let s ← get
  takeVerdict e r.2 r.1
  modify fun s' => { s' with spec := account e c b.elapsedNs r.1 s'.spec }
  syncDraftToBlock e s.pendingPos b.tokens r.1.out

end Korith.Executor
