import Korith.Lib.Bytes
import Korith.Lib.FloatArith
import Korith.Lib.FreeList
import Korith.Lib.Table

/-!
# The compressed VRAM pool

`CompressedVRAMPool` keeps the compressed KV of prefixes in one byte slab for each layer. A slab is cut into
blocks of equal size; a layer's blob takes a span of consecutive blocks from the layer's free list. If no span is
long enough the entry with the highest reuse score is evicted, also in the middle of an allocation for several
layers. A call holds the pool's lock, so the operations are the steps of a run.

A method that raises an exception answers `none`.
-/

namespace Korith.Vllm

structure Geometry where
  numLayers : Nat
  bytesPerLayer : Nat
  blockBytes : Nat
  blockBytes_pos : 0 < blockBytes

namespace Geometry

variable (g : Geometry)

def blocksPerLayer : Nat := g.bytesPerLayer / g.blockBytes

def blocksFor (size : Nat) : Nat := max 1 ((size + g.blockBytes - 1) / g.blockBytes)

end Geometry

/-- A layer's blob: the bytes of its tensors; `rest` is what only the codecs read. -/
structure CompressedKV (R : Type) where
  data : List Byte
  scales : Option (List Byte)
  rest : R
  deriving DecidableEq

variable {K R F : Type}

def CompressedKV.dataBytes (blob : CompressedKV R) : Nat := blob.data.length

def CompressedKV.scaleBytes (blob : CompressedKV R) : Nat :=
  match blob.scales with
  | some scales => scales.length
  | none => 0

structure CompressedBlock where
  layerId : Nat
  blockId : Nat
  dataOffset : Nat
  dataBytes : Nat
  scaleOffset : Nat
  scaleBytes : Nat
  deriving DecidableEq

structure PoolEntry (K R F : Type) where
  prefixHash : K
  numLayers : Nat
  numTokens : Nat
  blocks : List CompressedBlock
  blobs : List (CompressedKV R)
  createdNs : Nat
  lastHitNs : Nat
  hitCount : Nat
  avgSavingsMs : F
  deriving DecidableEq

def PoolEntry.nbytes (entry : PoolEntry K R F) : Nat :=
  (entry.blocks.map fun b => b.dataBytes + b.scaleBytes).sum

def PoolEntry.hit (nowNs : Nat) (entry : PoolEntry K R F) : PoolEntry K R F :=
  { entry with lastHitNs := nowNs, hitCount := entry.hitCount + 1 }

theorem PoolEntry.prefixHash_hit (nowNs : Nat) (entry : PoolEntry K R F) :
    (entry.hit nowNs).prefixHash = entry.prefixHash := rfl

/-- `tick` counts the readings of the clock. -/
structure CompressedVRAMPool (K R F : Type) where
  freeLists : List (List Nat)
  slabs : List (List Byte)
  index : Table K (PoolEntry K R F) PoolEntry.prefixHash
  tick : Nat
  deriving DecidableEq

/-- The weights of the eviction score, the clock and `-math.inf`. -/
structure PoolEnv (F : Type) where
  alpha : F
  beta : F
  gamma : F
  delta : F
  clock : Nat → Nat
  negInf : F

structure Slot where
  blockId : Nat
  dataOff : Nat
  scaleOff : Nat
  deriving DecidableEq

namespace CompressedVRAMPool

variable (env : PoolEnv F) (g : Geometry) (s : CompressedVRAMPool K R F)

/-- A new pool; `fresh` is what the memory of the slabs happens to hold. -/
def init (fresh : Nat → Nat → Byte) : CompressedVRAMPool K R F where
  freeLists := List.replicate g.numLayers (List.range g.blocksPerLayer)
  slabs := (List.range g.numLayers).map fun layer => (List.range g.bytesPerLayer).map (fresh layer)
  index := Table.empty
  tick := 0

/-! ### Spans -/

def blocksNeeded (blob : CompressedKV R) : Nat := g.blocksFor (blob.dataBytes + blob.scaleBytes)

def allocSpan (layerId nBlocks : Nat) : Option (Option Nat × CompressedVRAMPool K R F) :=
  match s.freeLists[layerId]? with
  | none => none
  | some free =>
    some ((Korith.allocSpan free nBlocks).1,
      { s with freeLists := s.freeLists.set layerId (Korith.allocSpan free nBlocks).2 })

def freeSpan (layerId startBlock nBlocks : Nat) : CompressedVRAMPool K R F :=
  { s with freeLists := s.freeLists.modify layerId (· ++ span startBlock nBlocks) }

def releaseEntry (entry : PoolEntry K R F) : CompressedVRAMPool K R F :=
  entry.blocks.foldl (fun s block =>
    s.freeSpan block.layerId block.blockId (g.blocksFor (block.dataBytes + block.scaleBytes))) s

variable [DecidableEq K]

def pop (prefixHash : K) : CompressedVRAMPool K R F :=
  { s with index := s.index.deleteWhere fun entry => decide (entry.prefixHash = prefixHash) }

/-! ### Eviction -/

section Eviction

variable [FloatArith F]

open FloatArith in
def reuseScore (nowNs : Nat) (entry : PoolEntry K R F) : F :=
  let ageS := FloatArith.max (ofNat 0) (ofNat (nowNs - entry.lastHitNs) / ofNat 1000000000)
  let hits := Nat.max 1 entry.hitCount
  let sizeMb := ofNat entry.nbytes / ofNat (2 ^ 20)
  let savings := FloatArith.max (ofNat 0) entry.avgSavingsMs
  env.alpha * ageS + env.beta / ofNat hits + env.gamma * sizeMb - env.delta * savings

def worst : List (PoolEntry K R F) → Nat → Option K → F → Option K
  | [], _, worstHash, _ => worstHash
  | entry :: entries, tick, worstHash, worstScore =>
    let score := reuseScore env (env.clock tick) entry
    if FloatArith.lt worstScore score then worst entries (tick + 1) (some entry.prefixHash) score
    else worst entries (tick + 1) worstHash worstScore

def evictOne : Bool × CompressedVRAMPool K R F :=
  let s' := { s with tick := s.tick + s.index.rows.length }
  match (worst env s.index.rows s.tick none env.negInf).bind s.index.find with
  | none => (false, s')
  | some entry => (true, (s'.pop entry.prefixHash).releaseEntry g entry)

/-! ### Allocation -/

/-- The `while` loop of `_allocate`. Each round evicts an entry, so there are at most as many as entries. -/
def allocOrEvict (layerId needed : Nat) :
    Nat → CompressedVRAMPool K R F → Option (Option Nat × CompressedVRAMPool K R F)
  | rounds, s =>
    match s.allocSpan layerId needed with
    | none => none
    | some (some start, s) => some (some start, s)
    | some (none, s) =>
      match evictOne env g s, rounds with
      | (false, s), _ => some (none, s)
      | (true, s), 0 => some (none, s)
      | (true, s), rounds + 1 => allocOrEvict layerId needed rounds s

def rollBack (allocation : List (Slot × CompressedKV R)) : CompressedVRAMPool K R F :=
  allocation.zipIdx.foldl (fun s x => s.freeSpan x.2 x.1.1.blockId (blocksNeeded g x.1.2)) s

inductive Allocated (R : Type)
  | done (allocation : List (Slot × CompressedKV R))
  | full
  | indexError

/-- `_allocate`; `allocation` holds the layers done so far, with their blobs. -/
def allocate : List (CompressedKV R) → List (Slot × CompressedKV R) → CompressedVRAMPool K R F →
    Allocated R × CompressedVRAMPool K R F
  | [], allocation, s => (.done allocation, s)
  | blob :: blobs, allocation, s =>
    match allocOrEvict env g allocation.length (blocksNeeded g blob) s.index.rows.length s with
    | none => (.indexError, s)
    | some (none, s) => (.full, rollBack g s allocation)
    | some (some blockId, s) =>
      let dataOff := blockId * g.blockBytes
      allocate blobs (allocation ++ [(⟨blockId, dataOff, dataOff + blob.dataBytes⟩, blob)]) s

end Eviction

/-! ### Slabs -/

/-- One round of `_write_slabs`; `narrow` raises if the range is not inside the slab. -/
def writeLayer (slot : Slot) (blob : CompressedKV R) (layerId : Nat) (slabs : List (List Byte)) :
    Bool × List (List Byte) :=
  match slabs[layerId]? with
  | none => (false, slabs)
  | some slab =>
    match writeAt slot.dataOff blob.data slab with
    | none => (false, slabs)
    | some slab =>
      match blob.scales.getD [] with
      | [] => (true, slabs.set layerId slab)
      | scale :: scales =>
        match writeAt slot.scaleOff (scale :: scales) slab with
        | none => (false, slabs.set layerId slab)
        | some slab => (true, slabs.set layerId slab)

def writeSlabs : List ((Slot × CompressedKV R) × Nat) → List (List Byte) → Bool × List (List Byte)
  | [], slabs => (true, slabs)
  | x :: xs, slabs =>
    match writeLayer x.1.1 x.1.2 x.2 slabs with
    | (false, slabs) => (false, slabs)
    | (true, slabs) => writeSlabs xs slabs

def blockOf (x : (Slot × CompressedKV R) × Nat) : CompressedBlock where
  layerId := x.2
  blockId := x.1.1.blockId
  dataOffset := x.1.1.dataOff
  dataBytes := x.1.2.dataBytes
  scaleOffset := x.1.1.scaleOff
  scaleBytes := x.1.2.scaleBytes

def newEntry (prefixHash : K) (numTokens : Nat) (savingsMs : F) (nowNs nowNs' : Nat)
    (allocation : List (Slot × CompressedKV R)) : PoolEntry K R F where
  prefixHash := prefixHash
  numLayers := allocation.length
  numTokens := numTokens
  blocks := allocation.zipIdx.map blockOf
  blobs := allocation.map Prod.snd
  createdNs := nowNs
  lastHitNs := nowNs'
  hitCount := 0
  avgSavingsMs := savingsMs

/-! ### Operations -/

/-- A live entry with this hash is taken out and its blocks are freed. -/
def remove (prefixHash : K) : Bool × CompressedVRAMPool K R F :=
  match s.index.find prefixHash with
  | none => (false, s)
  | some entry => (true, (s.pop prefixHash).releaseEntry g entry)

variable [FloatArith F]

/-- What `put_from_raw` and `put_from_vllm` do under the lock, with a blob for each layer. -/
def put (prefixHash : K) (blobs : List (CompressedKV R)) (numTokens : Nat) (savingsMs : F) :
    Option Bool × CompressedVRAMPool K R F :=
  match allocate env g blobs [] (s.remove g prefixHash).2 with
  | (.indexError, s) => (none, s)
  | (.full, s) => (some false, s)
  | (.done allocation, s) =>
    match writeSlabs allocation.zipIdx s.slabs with
    | (false, slabs) => (none, { s with slabs := slabs })
    | (true, slabs) =>
      let entry := newEntry prefixHash numTokens savingsMs (env.clock s.tick) (env.clock (s.tick + 1)) allocation
      (some true, { s with slabs := slabs, index := s.index.insertOrReplace entry, tick := s.tick + 2 })

def putFromRaw (prefixHash : K) (blobs : List (CompressedKV R)) (numTokens : Nat) (savingsMs : F) :
    Option Bool × CompressedVRAMPool K R F :=
  put env g s prefixHash blobs numTokens savingsMs

def putFromVllm (prefixHash : K) (blobs : List (CompressedKV R)) (nTokens : Nat) (savingsMs : F) :
    Option Bool × CompressedVRAMPool K R F :=
  if blobs = [] then (some false, s) else put env g s prefixHash blobs nTokens savingsMs

/-- The entry itself is returned: its later updates are seen by the caller. -/
def get (prefixHash : K) : Option (PoolEntry K R F) × CompressedVRAMPool K R F :=
  match s.index.find prefixHash with
  | none => (none, s)
  | some entry =>
    let nowNs := env.clock s.tick
    (some (entry.hit nowNs), { s with
      index := s.index.updateWhere (fun e => decide (e.prefixHash = prefixHash)) (PoolEntry.hit nowNs)
        (PoolEntry.prefixHash_hit nowNs)
      tick := s.tick + 1 })

def delete (prefixHash : K) : Bool × CompressedVRAMPool K R F := s.remove g prefixHash

def clear : CompressedVRAMPool K R F :=
  { s.index.rows.foldl (fun s entry => s.releaseEntry g entry) s with index := Table.empty }

/-! ### Runs -/

inductive Op (K R F : Type)
  | putFromRaw (prefixHash : K) (blobs : List (CompressedKV R)) (numTokens : Nat) (savingsMs : F)
  | putFromVllm (prefixHash : K) (blobs : List (CompressedKV R)) (nTokens : Nat) (savingsMs : F)
  | get (prefixHash : K)
  | delete (prefixHash : K)
  | clear
  | evictOne

def Op.layers : Op K R F → Nat
  | putFromRaw _ blobs _ _ => blobs.length
  | putFromVllm _ blobs _ _ => blobs.length
  | _ => 0

def step (s : CompressedVRAMPool K R F) : Op K R F → CompressedVRAMPool K R F
  | .putFromRaw prefixHash blobs numTokens savingsMs => (putFromRaw env g s prefixHash blobs numTokens savingsMs).2
  | .putFromVllm prefixHash blobs nTokens savingsMs => (putFromVllm env g s prefixHash blobs nTokens savingsMs).2
  | .get prefixHash => (get env s prefixHash).2
  | .delete prefixHash => (delete g s prefixHash).2
  | .clear => clear g s
  | .evictOne => (evictOne env g s).2

def run (ops : List (Op K R F)) : CompressedVRAMPool K R F := ops.foldl (step env g) s

end CompressedVRAMPool

end Korith.Vllm
