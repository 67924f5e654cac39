import Korith.Lib.Exec
import Korith.Sample

/-!
# The v2 speculative decoder

`spec_v2_step` block for block. The logits pointers are row indices into the output buffers, so that a decode changes
what an old pointer reads. The draft is any proposer: its row after its `n`-th decode is an arbitrary function of its
cells, each of its decodes may fail and each of its `llama_get_logits` may return null. Target decodes and writes to
stdout may fail as well. Whether the call numbered `tick` fails is given by the environment.

Timings and the cumulative metrics are left out; they are only printed.
-/

namespace Korith.SpecV2

open Exec

/-! ### Dynamic k -/

def kWindow : Nat := 24
def kMin : Nat := 2
def kMax : Nat := 12
def kInit : Nat := 2
def kWarmup : Nat := 32

structure DynK where
  k : Nat := kInit
  proposedBuf : List Nat := List.replicate kWindow 0
  acceptedBuf : List Nat := List.replicate kWindow 0
  idx : Nat := 0
  count : Nat := 0
  tokensSeen : Nat := 0

/-- The window's rate is a quotient of two small counts, and comparing the double quotient with 0.85
or 0.55 is comparing the fractions. -/
def DynK.adjust (d : DynK) : DynK :=
  let sp := d.proposedBuf.sum
  let sa := d.acceptedBuf.sum
  if (0 < sp ∧ 85 * sp < 100 * sa) ∧ d.k < kMax then { d with k := d.k + 1 }
  else if (sp = 0 ∨ 100 * sa < 55 * sp) ∧ kMin < d.k then { d with k := d.k - 1 }
  else d

def DynK.record (d : DynK) (proposed accepted : Nat) : DynK :=
  let d' := { d with
    tokensSeen := d.tokensSeen + accepted + if accepted < proposed then 1 else 0
    proposedBuf := d.proposedBuf.set d.idx proposed
    acceptedBuf := d.acceptedBuf.set d.idx accepted
    idx := (d.idx + 1) % kWindow
    count := if d.count < kWindow then d.count + 1 else d.count }
  if d'.tokensSeen < kWarmup then d'
  else if d'.count < kWindow then d'
  else d'.adjust

/-! ### State -/

structure Env (L : Type) where
  target : List Token → List L
  draft : Nat → List Token → List L
  isEog : Token → Bool
  targetDecodeFails : Nat → Bool
  draftDecodeFails : Nat → Bool
  draftLogitsNull : Nat → Bool
  emitFails : Nat → Bool

/-- What the decoder has at the start of an iteration. -/
structure Head (L : Type) where
  mem : Memory
  posTarget : Nat
  row : Option (List L)
  emitted : List Token

/-- The engine's variables that the call takes by reference, `g_dyn_k`, the counters of the call, and
as ghosts everything written to stdout and every iteration start of the request. -/
structure State (L : Type) where
  ctxTarget : Ctx L
  ctxDraft : Ctx L
  posTarget : Nat
  posDraft : Nat
  logitsTarget : Option Nat
  logitsDraft : Option Nat
  finished : Bool
  printedTotal : Nat
  dynK : DynK
  tokensPrinted : Nat
  stepProposed : Nat
  stepAccepted : Nat
  tick : Nat
  emitted : List Token
  heads : List (Head L)

inductive Exit where
  | cont
  | brk

abbrev M (L : Type) := Exec (State L) Exit Empty

variable {L : Type} [LinearOrder L]

def State.targetRow (s : State L) : Option (List L) := s.logitsTarget.bind (s.ctxTarget.out[·]?)

def State.draftRow (s : State L) : Option (List L) := s.logitsDraft.bind (s.ctxDraft.out[·]?)

def State.head (s : State L) : Head L := ⟨s.ctxTarget.mem, s.posTarget, s.targetRow, s.emitted⟩

/-- `llama_get_logits`: null if the buffer is empty. -/
def getLogits (c : Ctx L) : Option Nat := if c.out.isEmpty then none else some 0

/-! ### The loop body -/

def nextTick : M L Nat := do
  let s ← get
  modify fun s => { s with tick := s.tick + 1 }
  pure s.tick

def stop {α : Type} : M L α := do
  modify fun s => { s with finished := true }
  exit .brk

def stopIfFinished : M L Unit := do
  let s ← get
  if s.finished then exit .brk else pure ()

variable (e : Env L) (maxTokens : Nat)

def emitToken (t : Token) : M L Bool := do
  let n ← nextTick
  if e.emitFails n then pure false
  else do
    modify fun s => { s with emitted := s.emitted ++ [t] }
    pure true

/-- `decode_one` and the verify batch on the target: every token asks for its logits. -/
def decodeTarget (pos : Nat) (ts : List Token) : M L Bool := do
  let n ← nextTick
  if e.targetDecodeFails n then pure false
  else do
    modify fun s => { s with ctxTarget := s.ctxTarget.decode e.target 0 pos ts true }
    pure true

def decodeDraft (pos : Nat) (t : Token) : M L Bool := do
  let n ← nextTick
  if e.draftDecodeFails n then pure false
  else do
    modify fun s => { s with ctxDraft := s.ctxDraft.decode (e.draft n) 0 pos [t] true }
    pure true

def getLogitsDraft : M L Unit := do
  let n ← nextTick
  modify fun s => { s with logitsDraft := if e.draftLogitsNull n then none else getLogits s.ctxDraft }

def printToken (t : Token) : M L Unit := do
  if ← emitToken e t then
    modify fun s => { s with
      tokensPrinted := s.tokensPrinted + 1
      printedTotal := s.printedTotal + 1
      finished := s.finished || (decide (0 < maxTokens) && decide (maxTokens ≤ s.printedTotal + 1)) }
  else stop

def stepTarget (pos : Nat) (t0 : Token) : M L Unit := do
  if ← decodeTarget e pos [t0] then
    modify fun s => { s with posTarget := pos + 1, logitsTarget := getLogits s.ctxTarget }
  else stop

/-- Feed the sampled token to the draft; without its logits this token is a target-only step. -/
def feedDraft (t0 : Token) : M L Unit := do
  let s ← get
  if ← decodeDraft e s.posDraft t0 then do
    modify fun s => { s with posDraft := s.posDraft + 1 }
    getLogitsDraft e
    let s ← get
    if s.logitsDraft.isNone then do
      stepTarget e s.posTarget t0
      exit .cont
    else pure ()
  else do
    stepTarget e s.posTarget t0
    modify fun s => { s with posDraft := s.posDraft + 1, logitsDraft := none }
    exit .cont

def propose (e : Env L) : Nat → M L (List Token)
  | 0 => pure []
  | k + 1 => do
    let s ← get
    match greedySample s.draftRow with
    | none => pure []
    | some d =>
      if e.isEog d then pure []
      else if ← decodeDraft e s.posDraft d then do
        modify fun s => { s with posDraft := s.posDraft + 1 }
        getLogitsDraft e
        let s ← get
        if s.logitsDraft.isNone then pure [d]
        else do
          let ds ← propose e k
          pure (d :: ds)
      else pure [d]

/-- The number of accepted tokens and the target's token at the first mismatch. -/
def compareDraft : List (List L) → List Token → Nat × Option Token
  | _, [] => (0, none)
  | [], _ :: _ => (0, none)
  | row :: rows, d :: ds =>
    if greedySample (some row) = some d then ((compareDraft rows ds).1 + 1, (compareDraft rows ds).2)
    else (0, greedySample (some row))

def printAccepted (e : Env L) (maxTokens : Nat) : List Token → M L Unit
  | [] => pure ()
  | d :: ds => do
    let s ← get
    if s.finished then pure ()
    else do
      printToken e maxTokens d
      printAccepted e maxTokens ds

/-- The target's own token in place of the first wrong one; an end of generation ends the request. -/
def printCorrection (correction : Option Token) : M L Unit :=
  match correction.filter fun c => !e.isEog c with
  | some c => printToken e maxTokens c
  | none => modify fun s => { s with finished := true }

def rollback (rmStart rmEnd : Nat) : M L Unit :=
  if rmStart < rmEnd then
    modify fun s => { s with
      ctxTarget := { s.ctxTarget with mem := s.ctxTarget.mem.seqRm 0 rmStart rmEnd }
      ctxDraft := { s.ctxDraft with mem := s.ctxDraft.mem.seqRm 0 rmStart rmEnd } }
  else pure ()

def decodeCorrection (corrPos : Nat) (c : Token) : M L Unit := do
  if ← decodeTarget e corrPos [c] then do
    modify fun s => { s with logitsTarget := getLogits s.ctxTarget, posTarget := corrPos + 1 }
    if ← decodeDraft e corrPos c then do
      getLogitsDraft e
      modify fun s => { s with posDraft := corrPos + 1 }
    else modify fun s => { s with posDraft := s.posTarget, logitsDraft := none }
  else stop

def correct (pos0 nAccepted nDraft : Nat) (correction : Option Token) : M L Unit := do
  printCorrection e maxTokens correction
  rollback (pos0 + nAccepted + 1) (pos0 + nDraft + 1)
  let s ← get
  match correction.filter fun c => !e.isEog c && !s.finished with
  | some c => decodeCorrection e (pos0 + nAccepted + 1) c
  | none =>
    modify fun s => { s with posTarget := pos0 + nAccepted + 1, posDraft := pos0 + nAccepted + 1 }

/-- The whole proposal was accepted: the last row of the batch is the next one to sample. -/
def acceptAll (pos0 nDraft : Nat) : M L Unit :=
  modify fun s => { s with
    logitsTarget := if nDraft < s.ctxTarget.out.length then some nDraft else none
    posTarget := pos0 + nDraft + 1 }

def settle (pos0 nAccepted nDraft : Nat) (correction : Option Token) : M L Unit :=
  if nAccepted = nDraft then acceptAll pos0 nDraft
  else correct e maxTokens pos0 nAccepted nDraft correction

/-- One target batch over the sampled token and the proposal, and what follows from it. -/
def verify (pos0 : Nat) (t0 : Token) (draftToks : List Token) : M L Unit := do
  if ← decodeTarget e pos0 (t0 :: draftToks) then do
    let s ← get
    match getLogits s.ctxTarget with
    | none => stop
    | some base => do
      let cmp := compareDraft (s.ctxTarget.out.drop base) draftToks
      let nDraft := draftToks.length
      modify fun s => { s with
        stepProposed := s.stepProposed + nDraft
        stepAccepted := s.stepAccepted + cmp.1 }
      printAccepted e maxTokens (draftToks.take cmp.1)
      stopIfFinished
      settle e maxTokens pos0 cmp.1 nDraft cmp.2
      modify fun s => { s with dynK := s.dynK.record nDraft cmp.1 }
  else stop

def iteration : M L Unit := do
  let s ← get
  let pos0 := s.posTarget
  match (greedySample s.targetRow).filter fun t => !e.isEog t with
  | none => stop
  | some t0 => do
    printToken e maxTokens t0
    stopIfFinished
    feedDraft e t0
    let s ← get
    let draftToks ← propose e s.dynK.k
    if draftToks = [] then do
      stepTarget e pos0 t0
      exit .cont
    else verify e maxTokens pos0 t0 draftToks

/-! ### The call -/

def loopCond (maxThisCall : Int) (s : State L) : Bool :=
  decide ((s.tokensPrinted : Int) < maxThisCall) &&
    (decide (maxTokens = 0) || decide (s.printedTotal < maxTokens)) && !s.finished

def loop (e : Env L) (maxTokens : Nat) (maxThisCall : Int) : Nat → State L → State L
  | 0, s => s
  | fuel + 1, s =>
    if loopCond maxTokens maxThisCall s then
      let r := iteration e maxTokens { s with heads := s.heads ++ [s.head] }
      match r.res with
      | .error .brk => r.state
      | _ => loop e maxTokens maxThisCall fuel r.state
    else s

def specV2Step (maxThisCall : Int) (s : State L) : State L :=
  loop e maxTokens maxThisCall maxThisCall.toNat
    { s with tokensPrinted := 0, stepProposed := 0, stepAccepted := 0 }

def runCalls (e : Env L) (maxTokens : Nat) : List Int → State L → State L
  | [], s => s
  | m :: ms, s => runCalls e maxTokens ms (specV2Step e maxTokens m s)

end Korith.SpecV2
