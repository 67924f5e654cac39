import Korith.Vllm.KvManager

/-!
# The prefill hook of the scheduler

Before the scheduler of vLLM runs, `KorithDecodeScheduler.schedule` asks `AmfSchedulerHook.before_prefill` for every
waiting request, with the block table that the request has by then. If a snapshot is restored, the hook marks as many
tokens of the request as computed as the restore has returned.
-/

namespace Korith.Vllm

structure WaitingRequest where
  /-- the prompt of the first of `get_seqs()`, if there is one; `none` if there is no such method -/
  seqs : Option (Option (List Int))
  /-- the attribute `prompt_token_ids` -/
  promptTokenIds : Option (List Int)
  /-- the block numbers of `get_block_table()`; `none` if there is no such method -/
  blockTable : Option (List Nat)

namespace WaitingRequest

variable (req : WaitingRequest)

def getPromptTokenIds : Option (List Int) :=
  match req.seqs with
  | some (some ids) => some ids
  | _ => req.promptTokenIds

def extractPromptTokens : Option (List Int) :=
  match req.seqs with
  | some ids => ids
  | none => req.promptTokenIds

def getBlockTable : List Nat := req.blockTable.getD []

/-- `_mark_prefill_complete`: the number of tokens that are marked. Without sequences there is only a warning. -/
def markPrefillComplete (nTokens : Nat) : Nat := if req.seqs.isSome then nTokens else 0

end WaitingRequest

structure AmfSchedulerHook where
  kvManager : Manager
  enabled : Bool
  minTokens : Int

namespace AmfSchedulerHook

variable (h : AmfSchedulerHook)

def beforePrefill (req : WaitingRequest) (blockTable : List Nat) (readFails : Bool) (gpuCache : List LayerCache) (fs : Files) :
    Outcome (Bool × Nat) × List LayerCache :=
  if h.enabled = false then (.returned (false, 0), gpuCache)
  else
    match req.extractPromptTokens with
    | none => (.returned (false, 0), gpuCache)
    | some promptTokens =>
      if promptTokens = [] ∨ (promptTokens.length : Int) < h.minTokens then (.returned (false, 0), gpuCache)
      else if h.kvManager.hasSnapshot promptTokens fs = false then (.returned (false, 0), gpuCache)
      else
        match h.kvManager.restoreKvState promptTokens blockTable readFails gpuCache fs with
        | (.raised, gpuCache) => (.raised, gpuCache)
        | (.returned nRestored, gpuCache) =>
          if nRestored = 0 then (.returned (false, 0), gpuCache)
          else (.returned (true, req.markPrefillComplete nRestored), gpuCache)

def scheduleRequest (fs : Files) (gpuCache : List LayerCache) (x : WaitingRequest × Bool) : Nat × List LayerCache :=
  match x.1.getPromptTokenIds with
  | none => (0, gpuCache)
  | some _ =>
    match h.beforePrefill x.1 x.1.getBlockTable x.2 gpuCache fs with
    | (.raised, gpuCache) => (0, gpuCache)
    | (.returned (_, marked), gpuCache) => (marked, gpuCache)

end AmfSchedulerHook

end Korith.Vllm
