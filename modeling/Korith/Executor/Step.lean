import Korith.Executor.State

/-!
# The batch executor: single steps

`step_one_target` and `step_one_soft_spec` print one token each; every other path of the executor falls
back to one of them. The second one may decode its token in sequence 1 and copy the cell to sequence 0.
-/

namespace Korith.Executor

open Exec

variable {F L : Type} [LinearOrder L]

def sample (e : Env F L) (row : Option (List L)) (allowEog : Bool) : Option Token :=
  sampleGreedyWithEogControl e.isEog row allowEog

/-- The stopping rules of both steps: the context is full, there is no token, or the token ends the
generation. -/
def nextToken (e : Env F L) : M F L (Option Token) := do
  let s ← get
  if 0 < e.nCtx ∧ e.nCtx ≤ s.posTarget then do
    finish
    pure none
  else do
    note (!s.fresh) .staleLogits
    match (sample e s.row (e.allowEogNow s)).filter fun t => !e.isEog t with
    | none => do
      finish
      pure none
    | some t => pure (some t)

variable [FloatArith F]

def updateBaselineDecodeMs (t0 t1 : Nat) (ema : F) : F :=
  let sample : F := FloatArith.ofNat (t1 - t0) * (FloatArith.ofNat 1 / FloatArith.ofNat 1000000)
  if !FloatArith.lt (FloatArith.ofNat 0) sample || !FloatArith.isFinite sample then ema
  else if FloatArith.isFinite ema then ema + FloatArith.hundredths 20 * (sample - ema)
  else sample

def decodeCommitted (e : Env F L) (t : Token) : M F L Bool := do
  let s ← get
  let t0 ← now e
  let ok ← decodeTarget e 0 s.posTarget [t]
  if ok then do
    let t1 ← now e
    modify fun s => { s with
      spec.profit.baselineDecodeMs := updateBaselineDecodeMs t0 t1 s.spec.profit.baselineDecodeMs
      posTarget := s.posTarget + 1
      logitsTarget := .ctx
      fresh := true }
    pure true
  else do
    finish
    pure false

def printOne (e : Env F L) (t : Token) : M F L Bool := do
  let ok ← countPrinted e t
  if ok then do
    modify fun s => { s with generated := s.generated + 1 }
    pure true
  else do
    finish
    pure false

/-- Keep the draft model in lock-step: decode the token there if it stands at the same position. -/
def followInDraft (e : Env F L) (pos : Nat) (t : Token) : M F L Bool := do
  let s ← get
  if s.posDraft = pos then do
    let ok ← decodeDraft e [t]
    when (!ok) finish
    pure ok
  else pure true

/-- The draft model follows at once or, if `syncDraft` is not set, when speculation resumes. -/
def syncDraftAfter (e : Env F L) (syncDraft : Bool) (pos : Nat) (t : Token) : M F L Bool := do
  let s ← get
  if !s.specEnabled then pure true
  else if syncDraft then followInDraft e pos t
  else do
    when (!s.spec.profit.hardDisabled) (modify fun s => { s with spec.deferred := s.spec.deferred ++ [t] })
    pure true

def stepOneTarget (e : Env F L) (syncDraft : Bool) : M F L Bool := do
  let s ← get
  let next ← nextToken e
  match next with
  | none => pure false
  | some t => do
    let ok ← decodeCommitted e t
    if !ok then pure false
    else do
      modify (State.hashToken t)
      let ok ← printOne e t
      if !ok then pure false
      else syncDraftAfter e syncDraft s.posTarget t

/-- The two candidates of the soft speculation; one of them has to be the token itself. -/
def softMatch (e : Env F L) (s : State F L) (t : Token) : Bool :=
  match s.row with
  | none => false
  | some row =>
    let seed := 0x6a09e667 ^^^ ((s.posTarget + 1) % 2 ^ 32)
    let allow := e.allowEogNow s
    e.sampleDist row (seed ^^^ 0xbb67ae85) allow == some t ||
      e.sampleDist row (seed ^^^ 0x3c6ef372) allow == some t

def commitViaSeq1 (e : Env F L) (t : Token) : M F L Bool := do
  let s ← get
  let ok ← decodeTarget e 1 s.posTarget [t]
  if ok then do
    seqCpTarget 1 0 s.posTarget (s.posTarget + 1)
    modify fun s => { s with posTarget := s.posTarget + 1, logitsTarget := .ctx, fresh := true }
    pure true
  else do
    seqRmTarget 1 s.posTarget (s.posTarget + 1)
    let _ ← ensureSeq1Synced e s.posTarget
    pure false

/-- Sequence 1 is only brought up to date if the token may be committed through it. -/
def syncForSkip (e : Env F L) (c : Call F) : M F L Bool := do
  let s ← get
  if c.allowCommit && c.reuseKv then ensureSeq1Synced e s.posTarget else pure false

def skipOnAccept (e : Env F L) (synced : Bool) (t : Token) : M F L Bool := do
  let s ← get
  if synced && softMatch e s t then commitViaSeq1 e t else pure false

/-- Unless the token came in through sequence 1, decode it in sequence 0 and mirror it. -/
def decodeUnlessSkipped (e : Env F L) (synced viaSpec : Bool) (t : Token) : M F L Bool := do
  let s ← get
  if viaSpec then pure true
  else do
    let ok ← decodeCommitted e t
    when (ok && synced) (seqCpTarget 0 1 s.posTarget (s.posTarget + 1))
    pure ok

def stepOneSoftSpec (e : Env F L) (c : Call F) : M F L Bool := do
  let s ← get
  let next ← nextToken e
  match next with
  | none => pure false
  | some t => do
    let synced ← syncForSkip e c
    let viaSpec ← skipOnAccept e synced t
    let ok ← decodeUnlessSkipped e synced viaSpec t
    if !ok then pure false
    else do
      modify (State.hashToken t)
      when synced (modify fun s => { s with holo := ⟨true, s.prefixHash, s.posTarget⟩ })
      let ok ← printOne e t
      if !ok then pure false
      else if e.hasDraft then followInDraft e s.posTarget t
      else pure true

def stepAndContinue (e : Env F L) (syncDraft : Bool) {α : Type} : M F L α := do
  let ok ← stepOneTarget e syncDraft
  if ok then exit .cont else exit .brk

end Korith.Executor
