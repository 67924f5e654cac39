import Korith.Executor.Step

/-!
# The batch executor: gates and pending tokens

The first half of an iteration. It may be a single step of the target. Otherwise the draft model is brought to the
position behind the pending tokens, the pending tokens age, and those that are old enough, or all of them if they are
flushed, are committed: their cells are copied to sequence 0 and they are printed.
-/

namespace Korith.Executor

open Exec FloatArith

variable {F L : Type} [FloatArith F] [LinearOrder L]

/-! ### Limits -/

def clampNat (x lo hi : Nat) : Nat := if x < lo then lo else if hi < x then hi else x

variable (e : Env F L) (c : Call F)

def maxSpecDepth : Nat := if e.nSeqMax < 2 then 1 else 32

def maxDepthCtx : Nat := min (if e.specV3 then 16 else 8) (maxSpecDepth e)

def specV3MinBlock : Nat :=
  if e.specV3 && decide (2 ≤ maxDepthCtx e) then clampNat e.blockMin 2 (maxDepthCtx e) else 0

def specV3MaxBlock : Nat :=
  if e.specV3 && decide (2 ≤ maxDepthCtx e) then clampNat e.blockMax (specV3MinBlock e) (maxDepthCtx e)
  else 0

def specDepth (e : Env F L) (c : Call F) : Nat := clampNat c.specDepth 1 (maxDepthCtx e)

/-! ### The gates at the head of the loop -/

def flushIfDisabled : M F L Unit :=
  modify fun s =>
    if (s.spec.adaptive.requestDisabled || s.spec.profit.hardDisabled ||
        decide (0 < s.spec.profit.cooldownSteps)) && !s.spec.ring.pending.isEmpty then
      { s with spec.ring.flushPending := true }
    else s

def resetIfValid (preserveProfit : Bool) : M F L Unit := do
  let s ← get
  when s.spec.ring.valid (resetSpecState true preserveProfit)

def cooldownStep : M F L Unit := do
  resetIfValid true
  modify fun s => { s with spec.profit.cooldownSteps := s.spec.profit.cooldownSteps - 1 }
  let ok ← stepOneTarget e false
  if !ok then exit .brk
  else do
    modify fun s =>
      if s.spec.profit.cooldownSteps = 0 then
        { s with spec.profit.probeSteps := 1, spec.profit.retryCount := s.spec.profit.retryCount + 1 }
      else s
    exit .cont

def softSpecAndContinue : M F L Unit := do
  resetIfValid false
  let ok ← stepOneSoftSpec e c
  if ok then exit .cont else exit .brk

def resetAndStep (preserveProfit : Bool) : M F L Unit := do
  resetIfValid preserveProfit
  stepAndContinue e false

/-- `allow_exec` with a blocked commit is a step of the target, unless the speculation shall run in the
shadow. -/
def commitBlocked : Bool :=
  c.allowExec && !c.allowCommit && !e.shadowWhenCommitBlocked

def baselineGates : M F L Unit := do
  let s ← get
  if c.forceNormal || !c.allowExec || commitBlocked e c then resetAndStep e false
  else if s.spec.adaptive.requestDisabled && s.spec.ring.pending.isEmpty then resetAndStep e true
  else if s.spec.profit.hardDisabled && s.spec.ring.pending.isEmpty then resetAndStep e true
  else if decide (0 < s.spec.profit.cooldownSteps) && s.spec.ring.pending.isEmpty then cooldownStep e
  else if !s.specEnabled || !c.reuseKv ||
      !(c.enabled && (c.forceSpeculation || decide (1 < specDepth e c))) then softSpecAndContinue e c
  else pure ()

/-! ### The draft model catches up -/

def decodeEachDraft (e : Env F L) : List Token → M F L Bool
  | [] => pure true
  | t :: ts => do
    let ok ← decodeDraft e [t]
    if ok then decodeEachDraft e ts else pure false

def ensureDraftPendingSynced : M F L Bool := do
  let s ← get
  if !e.hasDraft || s.posDraft == s.pendingPos then pure true
  else do
    modify fun s => { s with drf.mem := s.drf.mem.seqRm 0 s.posTarget (-1), posDraft := s.posTarget }
    decodeEachDraft e s.spec.ring.tokens

/-- Tokens printed without the draft model are decoded there in one batch. -/
def replayDeferred : M F L Unit := do
  let s ← get
  if !e.hasDraft || s.spec.deferred.isEmpty then pure ()
  else do
    let ok ← decodeDraft e s.spec.deferred
    if ok then modify fun s => { s with spec.deferred := [] }
    else do
      resetSpecState true true
      stepAndContinue e false

def catchUpDraft : M F L Unit := do
  let s ← get
  when (!s.spec.ring.pending.isEmpty && !s.spec.ring.valid) (resetSpecState true false)
  replayDeferred e
  let ok ← ensureDraftPendingSynced e
  when (!ok) do
    resetSpecState true false
    stepAndContinue e true

/-- Pending tokens whose sequence does not end behind them are given up. -/
def dropMisaligned : M F L Unit := do
  let s ← get
  when (!s.spec.ring.pending.isEmpty &&
      decide (s.tgt.mem.seqPosMax s.spec.ring.seqId ≠ (s.pendingPos : Int) - 1)) (resetSpecState true false)

/-! ### Entropy and age -/

def acceptGate (s : State F L) : F :=
  if isFinite s.spec.gate.acceptGateEma then s.spec.gate.acceptGateEma
  else if isFinite c.acceptEma then c.acceptEma
  else ofNat 0

def deltaGate : F := if isFinite c.tpsDelta then c.tpsDelta else ofNat 0

def ageDecay (accept base : F) (g : Gate F) : Bool :=
  (g.haveLastEntropy && lt (hundredths 10) (base - g.lastEntropy)) ||
    (g.haveLastAccept && lt (accept + ofNat 1 / ofNat 1000000) g.lastAccept)

def stepGate (base : F) (g : Gate F) : Gate F :=
  { g with
    stepId := g.stepId + 1
    lastEntropy := base
    haveLastEntropy := true
    entropyHotStreak := if lt e.safetyEntropyMax base then min (g.entropyHotStreak + 1) 65535 else 0 }

/-- `safety_override`, of the gate after the step. -/
def safetyOverride (accept : F) (g : Gate F) : Bool :=
  (g.haveLastAccept && lt accept e.safetyMinAccept) ||
    ((!g.haveLastAccept || lt accept e.safetyRelaxAccept) &&
      decide (e.safetyEntropyStreak ≤ g.entropyHotStreak))

structure Head (F : Type) where
  accept : F
  allowEogBase : Bool
  decay : Bool
  safety : Bool

def entropyGate (accept : F) : M F L (Head F) := do
  let s ← get
  match s.baseRow with
  | none => do
    finish
    exit .brk
  | some row => do
    let base := e.entropy (some row) (e.allowEogNow s)
    let gate := stepGate e base s.spec.gate
    modify fun s => { s with spec.gate := gate }
    pure ⟨accept, e.allowEogNow s, ageDecay accept base s.spec.gate, safetyOverride e accept gate⟩

def ageIncrement (spec : Spec F L) : Nat :=
  match if spec.ring.seqId < spec.confCap then spec.conf spec.ring.seqId else none with
  | none => 1
  | some ema => if ge ema (hundredths 85) then 2 else if lt ema (hundredths 60) then 0 else 1

def ageToken (reset decay : Bool) (inc step : Nat) (p : PendingToken L) : PendingToken L :=
  if reset then { p with age := 0, lastVerifiedStep := step }
  else
    let grown := if p.lastVerifiedStep ≠ step ∧ p.age < 4 then min 4 (p.age + inc) else p.age
    let decayed := if decay then grown - 1 else grown
    -- the fast check compares the token with the row behind it, not with the row it was chosen from
    let checked :=
      if 2 ≤ decayed ∧ decayed < 4 ∧ sampleGreedyFromLogits (some p.row) ≠ some p.token then 0 else decayed
    { p with age := checked, lastVerifiedStep := step }

def flushNow (r : Ring L) : Bool := r.flushPending || r.finishPending || decide (64 ≤ r.pending.length)

def commitCount (flush safety : Bool) (pending : List (PendingToken L)) : Nat :=
  if flush then pending.length
  else if safety then 0
  else (pending.takeWhile fun p => decide (4 ≤ p.age)).length

/-! ### Committing -/

def printTokens (e : Env F L) : List Token → M F L Unit
  | [] => pure ()
  | t :: ts => do
    let ok ← countPrinted e t
    if ok then do
      modify (State.hashToken t)
      printTokens e ts
    else abort

/-- Like the fast check, the determinism check looks at the row behind each token. -/
def determinismFails (ps : List (PendingToken L)) : Bool :=
  e.determinismCheck && ps.any fun p => decide (sampleGreedyFromLogits (some p.row) ≠ some p.token)

def commitPending (n : Nat) : M F L Unit := do
  let s ← get
  let ps := s.spec.ring.pending.take n
  when (determinismFails e ps) abort
  modify fun s => { s with best := (ps.getLast?.map (·.row)).getD [], logitsTarget := .best }
  seqCpTarget s.spec.ring.seqId 0 s.posTarget (s.posTarget + n)
  printTokens e (ps.map (·.token))
  modify fun s => { s with
    posTarget := s.posTarget + n
    generated := s.generated + n
    holo := ⟨true, s.prefixHash, s.posTarget + n⟩
    spec.ring.pending := s.spec.ring.pending.drop n
    fresh := true
    commits := s.commits ++ [(s.printed, s.row)] }

/-- Without permission to commit the pending tokens are dropped, and the target makes a step. -/
def dropPending : M F L Unit := do
  let s ← get
  note s.spec.ring.finishPending .droppedFinish
  modify fun s => { s with spec.ring.pending := [], spec.ring.flushPending := false }
  stepAndContinue e true

def commitAged (flush safety : Bool) : M F L Unit := do
  let s ← get
  let n := min (commitCount flush safety s.spec.ring.pending) (c.batchTokens - s.generated)
  when (decide (0 < n)) (commitPending e n)
  modify fun s =>
    if s.spec.ring.pending.isEmpty || decide (0 < n) then { s with spec.ring.flushPending := false } else s

/-- A request that ends behind its pending tokens does not speculate further. -/
def leaveIfFinishing : M F L Unit := do
  let s ← get
  when s.spec.ring.finishPending do
    when s.spec.ring.pending.isEmpty finish
    exit .brk

def pendingPhase (h : Head F) : M F L Unit := do
  let s ← get
  let flush := flushNow s.spec.ring
  when (!s.spec.ring.pending.isEmpty) do
    modify fun s => { s with
      spec.ring.pending := s.spec.ring.pending.map
        (ageToken (flush || h.safety) h.decay (ageIncrement s.spec) s.spec.gate.stepId) }
    if c.allowCommit then do
      commitAged e c flush h.safety
      leaveIfFinishing
    else dropPending e

def leaveIfDone : M F L Unit := do
  let s ← get
  if s.spec.ring.finishPending && s.spec.ring.pending.isEmpty then do
    finish
    exit .brk
  else if c.batchTokens ≤ s.generated then exit .brk
  else if (s.spec.profit.hardDisabled || decide (0 < s.spec.profit.cooldownSteps)) &&
      s.spec.ring.pending.isEmpty then exit .cont
  else pure ()

def loopHead : M F L (Head F) := do
  flushIfDisabled
  baselineGates e c
  catchUpDraft e
  let s ← get
  let accept := acceptGate c s
  dropMisaligned
  let h ← entropyGate e accept
  pendingPhase e c h
  leaveIfDone c
  pure h

end Korith.Executor
