import Korith.Executor.Verify

/-!
# The batch executor: calls and requests

`batch_executor_step` recognises its statics by the address of the target's context (and, for
`spec_state`, by the size of the vocabulary), evicts sequence 1 if it was not used for long, and runs the
loop until the request is finished or the call's budget is used up. A request is a sequence of such
calls; the statics survive it.
-/

namespace Korith.Executor

open Exec FloatArith

variable {F L : Type} [FloatArith F] [LinearOrder L] [OrderBot L]

/-- A request and the keys of the process's statics. -/
structure Process (F L : Type) where
  specCtx : Nat
  specVocab : Nat
  holoCtx : Nat
  st : State F L

variable (e : Env F L) (c : Call F)

/-- `holo_kv` and `spec_state` are reset unless their key is that of this call. -/
def recognise (p : Process F L) : State F L :=
  let cap := max 1 e.nSeqMax
  { p.st with
    holo := if p.holoCtx ≠ e.ctx then {} else p.st.holo
    spec :=
      if p.specCtx ≠ e.ctx ∨ p.specVocab ≠ e.nVocab then Spec.init cap
      else if p.st.spec.confCap ≠ cap then { p.st.spec with conf := fun _ => none, confCap := cap }
      else p.st.spec
    printedThisCall := 0
    generated := 0
    specEnabled := e.hasDraft && p.st.draftRow.isSome }

/-- Sequence 1 is emptied if this call does not reuse it, it is old and the target is undecided. -/
def evictStale (s : State F L) : State F L :=
  let entropy := e.entropy s.row (e.allowEogNow s)
  if s.holo.valid && decide (2 ≤ e.nSeqMax) && !(c.allowExec && c.reuseKv) &&
      decide (512 < s.posTarget - s.holo.lastUsedStep) && isFinite entropy &&
      lt (hundredths 70) entropy then
    { s with tgt.mem := s.tgt.mem.seqRm 1 (-1) (-1), holo := { s.holo with valid := false, prefixHash := 0 } }
  else s

def iteration : M F L Unit := do
  let h ← loopHead e c
  speculate e c h

def inLoop (s : State F L) : Bool := !s.finished && decide (s.generated < c.batchTokens)

def fuel : Nat := 200 * (c.batchTokens + 64 + 1)

/-- The value of a call: the number of printed tokens, or -1. -/
inductive Ret
  | tokens (n : Nat)
  | error
  | noFuel
  deriving DecidableEq

def retOf (r : Outcome (State F L) (Option Unit) Hazard Unit) : Ret :=
  match r.res with
  | .ok () => .tokens r.state.printedThisCall
  | .error (some ()) => .error
  | .error none => .noFuel

/-- The process, the value of the call and, as a ghost, the hazards it met. -/
structure Called (F L : Type) where
  proc : Process F L
  ret : Ret
  log : List Hazard

def batchExecutorStep (p : Process F L) : Called F L :=
  if p.st.logitsTarget = .null then ⟨p, .error, []⟩
  else if p.st.finished || c.batchTokens == 0 then ⟨p, .tokens 0, []⟩
  else
    let r := loop (inLoop c) (iteration e c) (fuel c) (evictStale e c (recognise e p))
    ⟨⟨e.ctx, e.nVocab, e.ctx, r.state⟩, retOf r, r.log⟩

def minTokensBeforeEog (benchmark : Bool) (minTokensToGenerate maxTokens : Nat) : Nat :=
  if benchmark then if minTokensToGenerate = 0 then 4096 else minTokensToGenerate
  else if 1 < maxTokens then
    if minTokensToGenerate = 0 then min maxTokens 32 else min maxTokens minTokensToGenerate
  else 0

/-- The entry point of the engine: `max_tokens` limits the call and sets the threshold. -/
def batchExecutorStepAbi (maxTokens minTokensToGenerate : Nat) (c : Call F) (p : Process F L) : Called F L :=
  if 0 < maxTokens ∧ (maxTokens ≤ p.st.printed.length ∨ c.batchTokens = 0) then ⟨p, .tokens 0, []⟩
  else
    batchExecutorStep { e with minTokens := minTokensBeforeEog e.benchmark minTokensToGenerate maxTokens }
      { c with batchTokens :=
          if 0 < maxTokens then min c.batchTokens (maxTokens - p.st.printed.length) else c.batchTokens } p

structure Report where
  budget : Nat
  ret : Ret
  printed : Nat
  deriving DecidableEq

structure Trace (F L : Type) where
  proc : Process F L
  reports : List Report
  log : List Hazard

def runCalls (e : Env F L) : List (Call F) → Process F L → Trace F L
  | [], p => ⟨p, [], []⟩
  | c :: cs, p =>
    let r := batchExecutorStep e c p
    let t := runCalls e cs r.proc
    ⟨t.proc, ⟨c.batchTokens, r.ret, r.proc.st.printed.length - p.st.printed.length⟩ :: t.reports, r.log ++ t.log⟩

/-- A request behind its prefill: both models have decoded the prompt, and the statics are those that the
process has. -/
def newRequest (prompt : List Token) (prefixHash : Nat) (p : Process F L) : Process F L :=
  { p with st :=
    { tgt := ⟨(Memory.empty).place 0 0 prompt, [e.target prompt]⟩
      drf := ⟨(Memory.empty).place 0 0 prompt, [e.draft prompt]⟩
      posTarget := prompt.length
      posDraft := prompt.length
      logitsTarget := .ctx
      best := []
      finished := false
      printed := []
      printedThisCall := 0
      generated := 0
      specEnabled := false
      prefixHash := prefixHash
      holo := p.st.holo
      spec := p.st.spec
      tick := 0
      fresh := true
      commits := [] } }

end Korith.Executor
