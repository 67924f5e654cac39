import Korith.Amf.Store
import Korith.Lib.Machine

/-!
# The C interface

`korith_tokenize` and `korith_step` over one store. A restore that fails may leave anything in the llama context and
the next decode runs on it, so the memory of the one sequence is kept here in more detail: a cell has a position and
the value computed for its token from the cells up to its own position. If the value is the token, this is the
memory of the decoders (`extend_cells`).
-/

namespace Korith.CApi

open Korith.Amf

/-! ### The context -/

structure Context (V L : Type) where
  cells : List (Nat × V)
  /-- the row of the last token, empty if the last batch asked for none -/
  logits : List L
  deriving DecidableEq

/-- What a token at a position adds to the memory and its row of logits, given the cells it attends to. -/
structure Network (V L : Type) where
  eval : List (Nat × V) → Nat → Token → V × List L
  /-- the greedy sampler -/
  sample : List L → Option Token
  isEog : Token → Bool

/-- `llama_state_get_data` and `llama_state_set_data`: a blob that is reported to be read in full brings its
context back. -/
structure StateIO (V L : Type) where
  save : Context V L → List Amf.Byte
  load : List Amf.Byte → Option (Context V L)
  exact : ∀ c, load (save c) = some c

variable {F V L : Type}

def Context.push (net : Network V L) (c : Context V L) (pos : Nat) (t : Token) : Context V L :=
  let r := net.eval (c.cells.filter fun cell => cell.1 ≤ pos) pos t
  ⟨c.cells ++ [(pos, r.1)], r.2⟩

def Context.extend (net : Network V L) (c : Context V L) : Nat → List Token → Context V L
  | _, [] => c
  | pos, t :: ts => (c.push net pos t).extend net (pos + 1) ts

theorem extend_cells {net : Network Token L} (hvalue : ∀ cells p t, (net.eval cells p t).1 = t) {m : Memory}
    {c : Context Token L} (h : ∀ p, m.cells 0 p = (c.cells.filter (·.1 = p)).map (·.2)) (pos : Nat) (ts : List Token)
    (p : Nat) : (m.place 0 pos ts).cells 0 p = ((c.extend net pos ts).cells.filter (·.1 = p)).map (·.2) := by
  induction ts generalizing m c pos with
  | nil => exact h p
  | cons t ts ih =>
    refine ih (fun p => ?_) (pos + 1)
    by_cases hp : p = pos
    · simp [Memory.add, Context.push, h, hvalue, hp]
    · simp [Memory.add, Context.push, h, hp, Ne.symm hp]

/-- `llama_decode` of a batch; only the last token of the last batch asks for its row. -/
def Context.decode (net : Network V L) (c : Context V L) (pos : Nat) (ts : List Token) (last : Bool) : Context V L :=
  let c := c.extend net pos ts
  if last then c else { c with logits := [] }

def cold (net : Network V L) (tokens : List Token) : Context V L := (Context.mk [] []).extend net 0 tokens

/-! ### The state -/

/-- What `korith_init` has fixed. The context size is the one in the store's key. -/
structure Setup (V L : Type) where
  net : Network V L
  bos : Option Token
  amfCtx : AmfContext
  nBatch : Nat
  nBatch_pos : 0 < nBatch
  nBatch_lt : nBatch < 2 ^ 31

def Setup.nCtx (s : Setup V L) : Nat := s.amfCtx.nCtx.toNat

structure KorithState (F V L : Type) where
  ctx : Context V L
  pos : Nat
  ready : Bool
  finished : Bool
  amfReady : Bool
  world : World F

def KorithState.resetRuntime (g : KorithState F V L) : KorithState F V L :=
  { g with pos := 0, ready := false, finished := true }

structure Prompt (V L : Type) where
  tokens : List Token
  prewarmed : AmfKey → Bool
  readOk : Bool
  /-- does `llama_state_set_data` report the full size, and what does it leave if not? -/
  setOk : Bool
  torn : Context V L
  getOk : Bool
  suffixOk : Nat → Bool
  coldOk : Nat → Bool
  /-- what a failed `llama_decode` leaves -/
  broken : Context V L
  restoreMs : Nat
  savedMs : Nat
  decodeMs : Nat
  stale : Nat

/-- The prompt's tokens; an empty prompt is the token that begins a text, if the vocabulary has one. -/
def Prompt.text (s : Setup V L) (p : Prompt V L) : Option (List Token) :=
  if p.tokens.isEmpty then s.bos.map ([·]) else some p.tokens

/-! ### Decoding -/

/-- The loop of `ensure_capacity_and_decode`. The `n`-th call of `llama_decode` succeeds if `ok n`. -/
def decodeLoop (s : Setup V L) (ok : Nat → Bool) (broken : Context V L) :
    Nat → Nat → Context V L → Nat → List Token → Bool × Context V L × Nat
  | 0, _, c, pos, _ => (false, c, pos)
  | fuel + 1, n, c, pos, tokens =>
    if tokens.isEmpty then (true, c, pos)
    else
      let chunk := tokens.take s.nBatch
      let rest := tokens.drop s.nBatch
      if ok n then
        decodeLoop s ok broken fuel (n + 1) (c.decode s.net pos chunk rest.isEmpty) (pos + chunk.length) rest
      else (false, broken, pos)

/-- The capacity test counts the tokens of this call only, not those before `pos`. -/
def ensureCapacityAndDecode (s : Setup V L) (ok : Nat → Bool) (broken c : Context V L) (pos : Nat)
    (tokens : List Token) : Bool × Context V L × Nat :=
  if 0 < s.nCtx ∧ s.nCtx ≤ tokens.length then (false, c, pos)
  else if s.nBatch = 0 ∨ 2 ^ 31 ≤ s.nBatch then (false, c, pos)
  else decodeLoop s ok broken (tokens.length + 1) 0 c pos tokens

variable [FloatArith F]

/-! ### `korith_tokenize` -/

/-- Behind the lookup: the whole prompt is decoded on the context as it is, and its state stored. -/
def evaluatePrompt (io : StateIO V L) (e : Env F) (s : Setup V L) (p : Prompt V L) (tokens : List Token)
    (g : KorithState F V L) : Int × KorithState F V L :=
  let d := ensureCapacityAndDecode s p.coldOk p.broken g.ctx g.pos tokens
  let g := { g with ctx := d.2.1, pos := d.2.2 }
  if !d.1 then (-1, g.resetRuntime)
  else
    let stores := g.amfReady && decide (e.minTokens ≤ tokens.length) && p.getOk && !(io.save g.ctx).isEmpty
    let world :=
      if stores then (storeEntry e p.stale s.amfCtx tokens (io.save g.ctx) p.decodeMs g.world).2 else g.world
    (tokens.length, { g with world, ready := true, finished := false })

def replayPrompt (e : Env F) (s : Setup V L) (p : Prompt V L) (tokens : List Token) (entry : AmfEntry F)
    (g : KorithState F V L) : Int × KorithState F V L :=
  let d :=
    if entry.prefixLen < tokens.length then
      ensureCapacityAndDecode s p.suffixOk p.broken g.ctx entry.prefixLen (tokens.drop entry.prefixLen)
    else (true, g.ctx, entry.prefixLen)
  let g := { g with ctx := d.2.1, pos := d.2.2 }
  if !d.1 then (-1, g.resetRuntime)
  else
    let world := noteHit e entry.key entry.prefixLen p.restoreMs p.savedMs g.world
    (tokens.length, { g with world, ready := true, finished := false })

/-- How the restore of a hit ends: the blob cannot be read, or it can and `llama_state_set_data` reports the full
size or less. -/
inductive Restore (V L : Type) where
  | unread
  | short (left : Context V L)
  | full (c : Context V L)

def restore (io : StateIO V L) (p : Prompt V L) (entry : AmfEntry F) (w : World F) : Restore V L :=
  match if p.readOk then loadKv entry w else none with
  | none => .unread
  | some blob =>
    match if p.setOk then io.load blob else none with
    | none => .short p.torn
    | some c => .full c

def korithTokenize (io : StateIO V L) (e : Env F) (s : Setup V L) (p : Prompt V L) (g : KorithState F V L) :
    Int × KorithState F V L :=
  -- `llama_memory_clear`
  let g := { g.resetRuntime with ctx := { g.ctx with cells := [] } }
  match p.text s with
  | none => (-1, g)
  | some tokens =>
    if g.amfReady then
      let found := findLongestPrefix e s.amfCtx tokens p.prewarmed g.world
      match found.1 with
      | .hit entry _ =>
        match restore io p entry found.2 with
        | .full c => replayPrompt e s p tokens entry { g with ctx := c, world := found.2 }
        | .short left => evaluatePrompt io e s p tokens { g with ctx := left, world := noteMiss found.2 }
        | .unread => evaluatePrompt io e s p tokens { g with world := noteMiss found.2 }
      | _ => evaluatePrompt io e s p tokens { g with world := noteMiss found.2 }
    else evaluatePrompt io e s p tokens g

/-! ### `korith_step` -/

/-- `ok`: `llama_decode` succeeds; otherwise it leaves `broken`. -/
def korithStep (s : Setup V L) (ok : Bool) (broken : Context V L) (g : KorithState F V L) : Int × KorithState F V L :=
  if !g.ready || g.finished then (-1, g)
  else if 0 < s.nCtx ∧ s.nCtx ≤ g.pos then (-1, { g with finished := true })
  else
    match s.net.sample g.ctx.logits with
    | none => (-1, { g with finished := true })
    | some token =>
      if s.net.isEog token then (-1, { g with finished := true })
      else if ok then (token, { g with ctx := g.ctx.decode s.net g.pos [token] true, pos := g.pos + 1 })
      else (-1, { g with ctx := broken, finished := true })

/-! ### Sequences of calls -/

inductive Call (V L : Type) where
  | tokenize (p : Prompt V L)
  | step (ok : Bool) (broken : Context V L)

def call (io : StateIO V L) (e : Env F) (s : Setup V L) (g : KorithState F V L) : Call V L → Int × KorithState F V L
  | .tokenize p => korithTokenize io e s p g
  | .step ok broken => korithStep s ok broken g

def korithInit (e : Env F) (s : Setup V L) (dirOk : Bool) (w : World F) : KorithState F V L :=
  let w := initStore e dirOk w
  { ctx := ⟨[], []⟩, pos := 0, ready := false, finished := true
    amfReady := w.store.enabled && decide (s.amfCtx.modelHash ≠ 0), world := w }

end Korith.CApi
