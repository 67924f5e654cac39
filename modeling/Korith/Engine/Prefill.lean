import Korith.Amf.Store

/-!
# The prompt of a request

`engine_init` from its AMF section on: the prompt is decoded into the cleared target context, or its longest stored
prefix is restored and the rest decoded, and the state is stored. With `KORITH_AMF_PREFIX_EXTRACTION` the tokens before
the last boundary of the prompt are looked up, and the state is stored under them; it is still the state after the
whole prompt. The direct GPU path is off.
-/

namespace Korith.Engine

open Korith.Amf FloatArith

variable {F L : Type}

/-! ### Decoding a prompt -/

/-- `execute_pep_plan`: chunks of `nBatch`, with logits for the very last token only. The `n`-th call of
`llama_decode` succeeds if `ok n`, otherwise it leaves `broken`. -/
def executePepPlan (model : List Token → List L) (nBatch : Nat) (ok : Nat → Bool) (broken : Ctx L) :
    Nat → Nat → Ctx L → Nat → List Token → Bool × Ctx L × Nat
  | 0, _, c, pos, _ => (false, c, pos)
  | fuel + 1, n, c, pos, tokens =>
    if tokens.isEmpty then (true, c, pos)
    else
      let chunk := tokens.take nBatch
      let rest := tokens.drop nBatch
      if ok n then
        let c := c.decode model 0 pos chunk false
        let c := if rest.isEmpty then c else { c with out := [] }
        executePepPlan model nBatch ok broken fuel (n + 1) c (pos + chunk.length) rest
      else (false, broken, pos)

def decodeTokens (model : List Token → List L) (nCtx nBatch : Nat) (ok : Nat → Bool) (broken c : Ctx L) (pos : Nat)
    (tokens : List Token) : Bool × Ctx L × Nat :=
  if tokens.isEmpty then (true, c, pos)
  else if 0 < nCtx ∧ nCtx ≤ pos + tokens.length then (false, c, pos)
  else if nBatch = 0 ∨ 2 ^ 31 ≤ nBatch then (false, c, pos)
  else executePepPlan model nBatch ok broken (tokens.length + 1) 0 c pos tokens

/-! ### Requests -/

def cold (target : AmfContext → List Token → List L) (ctx : AmfContext) (tokens : List Token) : Ctx L where
  mem := Memory.empty.place 0 0 tokens
  out := [target ctx tokens]

/-- `llama_state_get_data` and `llama_state_set_data`, which are exact on the states that are saved. -/
structure StateIO (target : AmfContext → List Token → List L) where
  save : Ctx L → List Amf.Byte
  load : List Amf.Byte → Option (Ctx L)
  exact : ∀ ctx tokens, load (save (cold target ctx tokens)) = some (cold target ctx tokens)

structure Request (F L : Type) where
  /-- `amf_ctx_request`, with the tenant of the request -/
  ctx : AmfContext
  prompt : List Token
  prompt_ne : prompt ≠ []
  nBatch : Nat
  nBatch_pos : 0 < nBatch
  nBatch_lt : nBatch < 2 ^ 31
  /-- the target context before it is cleared -/
  start : Ctx L
  amfFlag : Bool
  dirOk : Bool
  replayDisabled : Bool
  replayDisabledUntilMs : Nat
  roiDisabled : Bool
  disableRestore : Bool
  minRoi : F
  prewarmed : AmfKey → Bool
  readOk : Bool
  setOk : Bool
  getOk : Bool
  /-- what a failed restore or decode leaves in the context -/
  broken : Ctx L
  suffixOk : Nat → Bool
  coldOk : Nat → Bool
  restoreMs : Nat
  savedMs : Nat
  stale : Nat

structure Attempt (F L : Type) where
  ctx : Ctx L
  pos : Nat
  usedAmf : Bool
  fallback : Bool
  hitEntry : Option (AmfEntry F)
  world : World F

structure Prefilled (L : Type) where
  ctx : Ctx L
  pos : Nat
  logits : List L
  usedAmf : Bool
  fallback : Bool

variable [FloatArith F]

def Attempt.skip (c : Ctx L) (w : World F) : Attempt F L := ⟨c, 0, false, false, none, w⟩

def Request.cooldown (r : Request F L) (nowMs : Nat) : Bool :=
  let expired := decide (0 < r.replayDisabledUntilMs) && decide (r.replayDisabledUntilMs ≤ nowMs)
  r.replayDisabled && !expired &&
    (decide (r.replayDisabledUntilMs = 0) || decide (nowMs < r.replayDisabledUntilMs))

def restoreHit {target : AmfContext → List Token → List L} (io : StateIO target) (e : Env F) (r : Request F L)
    (entry : AmfEntry F) (c : Ctx L) (w : World F) : Attempt F L :=
  match if r.readOk then loadKv entry w else none with
  | none => ⟨c, 0, false, true, some entry, w⟩
  | some blob =>
    match if r.setOk then io.load blob else none with
    | none => ⟨r.broken, 0, false, true, some entry, w⟩
    | some c =>
      if c.out.isEmpty then ⟨c, entry.prefixLen, false, true, some entry, w⟩
      else
        let d := decodeTokens (target r.ctx) r.ctx.nCtx.toNat r.nBatch r.suffixOk r.broken c entry.prefixLen
          (r.prompt.drop entry.prefixLen)
        if d.1 then
          ⟨d.2.1, d.2.2, true, false, some entry,
            noteHit e entry.key entry.prefixLen r.restoreMs r.savedMs w⟩
        else ⟨d.2.1, d.2.2, false, true, some entry, w⟩

def findLastFrom (haystack needle : List Token) : Nat → Option Nat
  | 0 => if needle.isPrefixOf haystack then some 0 else none
  | i + 1 => if needle.isPrefixOf (haystack.drop (i + 1)) then some (i + 1) else findLastFrom haystack needle i

def findLastSubsequence (haystack needle : List Token) : Option Nat :=
  if needle.isEmpty || decide (haystack.length < needle.length) then none
  else findLastFrom haystack needle (haystack.length - needle.length)

/-- `amf_lookup_tokens`, which are `amf_store_tokens` too. The boundary is there if extraction is on. -/
def Request.lookupTokens (r : Request F L) (boundary : Option (List Token)) : List Token :=
  (boundary.bind (findLastSubsequence r.prompt)).elim r.prompt r.prompt.take

/-- The entry to restore, if the lookup finds one and nothing blocks it. -/
def Request.hit (e : Env F) (r : Request F L) (tokens : List Token) (w : World F) : Option (AmfEntry F) × World F :=
  let nowMs := e.clock w.tick
  let w := evictExpiredEntries e nowMs w.next
  if r.cooldown nowMs then (none, noteBlock w)
  else if r.roiDisabled then (none, noteBlock w)
  else
    let found := findLongestPrefix e r.ctx tokens r.prewarmed w
    if r.disableRestore then (none, noteBlock (noteMiss found.2))
    else
      match found.1 with
      | .hit entry _ =>
        if lt (ofNat 0) r.minRoi && isFinite entry.emaRoi && lt entry.emaRoi r.minRoi then
          (none, noteBlockEntry e entry.key (noteMiss found.2))
        else (some entry, found.2)
      | _ => (none, noteMiss found.2)

def lookupPrompt {target : AmfContext → List Token → List L} (io : StateIO target) (e : Env F) (r : Request F L)
    (tokens : List Token) (c : Ctx L) (w : World F) : Attempt F L :=
  (r.hit e tokens w).1.elim (.skip c (r.hit e tokens w).2) fun entry => restoreHit io e r entry c (r.hit e tokens w).2

def Attempt.undo (e : Env F) (a : Attempt F L) : Attempt F L :=
  if a.fallback then
    { a with
      ctx := { a.ctx with mem := Memory.empty }
      pos := 0
      world := a.hitEntry.elim a.world fun entry => noteFailure e entry.key a.world }
  else a

/-- Is the state to be stored? A full hit is there already. -/
def Attempt.stores (e : Env F) (tokens : List Token) (a : Attempt F L) : Bool :=
  decide (e.minTokens ≤ tokens.length) &&
    (!a.usedAmf || a.hitEntry.any fun entry =>
      decide (0 < entry.prefixLen) && decide (entry.prefixLen < tokens.length))

def storePrompt {target : AmfContext → List Token → List L} (io : StateIO target) (e : Env F) (r : Request F L)
    (tokens : List Token) (c : Ctx L) (w : World F) : World F :=
  if r.getOk && !(io.save c).isEmpty then (storeEntry e r.stale r.ctx tokens (io.save c) r.savedMs w).2 else w

def Request.openStore (e : Env F) (r : Request F L) (w : World F) : Bool × World F :=
  if r.amfFlag then
    let w := initStore e r.dirOk w
    (w.store.enabled && decide (r.ctx.modelHash ≠ 0), w)
  else (false, w)

/-- What the lookup has not put into the context is decoded. -/
def Attempt.finish (target : AmfContext → List Token → List L) (r : Request F L) (a : Attempt F L) :
    Bool × Ctx L × Nat :=
  if a.usedAmf then (true, a.ctx, a.pos)
  else decodeTokens (target r.ctx) r.ctx.nCtx.toNat r.nBatch r.coldOk r.broken a.ctx a.pos r.prompt

def Request.attempt {target : AmfContext → List Token → List L} (io : StateIO target) (e : Env F) (r : Request F L)
    (tokens : List Token) (w : World F) : Attempt F L :=
  let ready := r.openStore e w
  let c := { r.start with mem := Memory.empty }
  (if ready.1 then lookupPrompt io e r tokens c ready.2 else .skip c ready.2).undo e

/-- The whole section; none if the initialisation fails. -/
def prefillWith {target : AmfContext → List Token → List L} (io : StateIO target) (e : Env F)
    (boundary : Option (List Token)) (r : Request F L) (w : World F) : Option (Prefilled L) × World F :=
  let tokens := r.lookupTokens boundary
  let a := r.attempt io e tokens w
  let d := a.finish target r
  if !d.1 then (none, a.world)
  else
    match d.2.1.out.head? with
    | none => (none, a.world)
    | some logits =>
      (some ⟨d.2.1, d.2.2, logits, a.usedAmf, a.fallback⟩,
        if (r.openStore e w).1 && a.stores e tokens then storePrompt io e r tokens d.2.1 a.world else a.world)

/-- Without extraction. -/
def prefill {target : AmfContext → List Token → List L} (io : StateIO target) (e : Env F) (r : Request F L)
    (w : World F) : Option (Prefilled L) × World F := prefillWith io e none r w

/-! ### Histories -/

/-- A request, or any other operation on the store than one that stores. -/
inductive Event (F L : Type) where
  | request (r : Request F L)
  | other (op : Op F)

def Event.step {target : AmfContext → List Token → List L} (io : StateIO target) (e : Env F) :
    Event F L → World F → World F
  | .request r, w => (prefill io e r w).2
  | .other (.store ..), w => w
  | .other op, w => Amf.step e op w

def history {target : AmfContext → List Token → List L} (io : StateIO target) (e : Env F) :
    List (Event F L) → World F → World F
  | [], w => w
  | ev :: evs, w => history io e evs (ev.step io e w)

end Korith.Engine
