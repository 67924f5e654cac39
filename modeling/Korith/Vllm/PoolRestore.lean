import Korith.Lib.Scatter
import Korith.Vllm.Pool

/-!
# Saving to the pool and restoring from it

`put_from_vllm` gathers the blocks of a sequence, so its tensors have blocks for rows; `put_from_raw` flattens what it
is given, so its tensors have tokens for rows. `restore_to_vllm` takes the rows of either for blocks: it assigns them to
the blocks of a table, 512 at a time, and PyTorch broadcasts what does not have the shape of the blocks.

`X` is the type of what one token has in one layer, heads times head dimension values. A tensor of keys and values is a
tensor of pairs. A codec is lossless, and a method that raises an exception answers `none`.
-/

namespace Korith.Vllm

variable {K R F X Y : Type}

/-! ### Caches -/

def slotOf {blockSize : Nat} (keys values : List (Fin blockSize → X)) (b j : Nat) : Option (X × X) :=
  if h : j < blockSize then (keys[b]?).bind fun k => (values[b]?).map fun v => (k ⟨j, h⟩, v ⟨j, h⟩) else none

/-- The cache of a layer: `[2, num_blocks, block_size, H, D]` if it is stacked, else `[num_blocks, block_size, H, D]`,
which is `keys`. -/
structure KvLayer (X : Type) where
  blockSize : Nat
  blockSize_pos : 0 < blockSize
  stacked : Bool
  keys : List (Fin blockSize → X)
  values : List (Fin blockSize → X)

namespace KvLayer

variable (l : KvLayer X)

def kAll : List (Fin l.blockSize → X) := l.keys
def vAll : List (Fin l.blockSize → X) := if l.stacked then l.values else l.keys

def setK (blocks : List (Fin l.blockSize → X)) : KvLayer X := { l with keys := blocks }
def setV (blocks : List (Fin l.blockSize → X)) : KvLayer X :=
  if l.stacked then { l with values := blocks } else { l with keys := blocks }

def read (b j : Nat) : Option (X × X) := slotOf l.kAll l.vAll b j

def slot (blockTable : List Nat) (p : Nat) : Option (X × X) :=
  (blockTable[p / l.blockSize]?).bind fun b => l.read b (p % l.blockSize)

end KvLayer

/-! ### Tensors -/

/-- The tensor of a layer, by its first axis. -/
inductive Rows (Y : Type)
  | tokens (xs : List Y)
  | blocks (size : Nat) (rows : List (Fin size → Y))

namespace Rows

def count : Rows Y → Nat
  | tokens xs => xs.length
  | blocks _ rows => rows.length

def slice (start stop : Nat) : Rows Y → Rows Y
  | tokens xs => tokens ((xs.drop start).take (stop - start))
  | blocks size rows => blocks size ((rows.drop start).take (stop - start))

def map (f : Y → X) : Rows Y → Rows X
  | tokens xs => tokens (xs.map f)
  | blocks size rows => blocks size (rows.map fun row => f ∘ row)

/-- The rows as blocks of a size, one for each row. A tensor that lacks the axis of the blocks is aligned at its last
axes, so that its rows are taken for the slots of every block. -/
def broadcast (blockSize : Nat) : Rows Y → Option (List (Fin blockSize → Y))
  | tokens xs =>
    if h : xs.length = blockSize then some (List.replicate xs.length fun j => xs.get (j.cast h.symm))
    else if h : xs.length = 1 then some [fun _ => xs.get ⟨0, Nat.lt_of_lt_of_eq Nat.one_pos h.symm⟩]
    else none
  | blocks size rows =>
    if h : size = blockSize then some (rows.map fun row j => row (j.cast h.symm))
    else if h : size = 1 then some (rows.map fun row _ => row ⟨0, Nat.lt_of_lt_of_eq Nat.one_pos h.symm⟩)
    else none

end Rows

def gatherBlocks (ids : List Nat) (blocks : List Y) : Option (List Y) := ids.mapM fun i => blocks[i]?

def scatterBlocks (ids : List Nat) (src blocks : List Y) : Option (List Y) :=
  if ∀ i ∈ ids, i < blocks.length then some (setAll (ids.zip src) blocks) else none

/-! ### Saving -/

variable (blockTable : List Nat)

/-- The chunks of the gather are concatenated again. There is none if the table is empty. -/
def saveLayer (l : KvLayer X) : Option (Rows (X × X)) :=
  if blockTable = [] then none
  else do
    let kSeq ← gatherBlocks blockTable l.kAll
    let vSeq ← gatherBlocks blockTable l.vAll
    pure (.blocks l.blockSize (List.zipWith (fun k v j => (k j, v j)) kSeq vSeq))

/-- What is saved: `put_from_vllm` of a sequence, or `put_from_raw` of a tensor `[L, 2, T, H, D]`,
`[L, 2, nb, bs, H, D]` or `[nb, bs, H, D]`. -/
inductive Source (X : Type)
  | vllm (gpuCache : List (KvLayer X)) (blockTable : List Nat) (nTokens : Nat)
  | stacked (T : Nat) (layers : List (Fin T → X × X))
  | lmcache (nb bs : Nat) (layers : List (Fin nb → Fin bs → X × X))
  | probe (nb bs : Nat) (single : Fin nb → Fin bs → X)

namespace Source

def flat {nb bs : Nat} (x : Fin nb → Fin bs → Y) : Fin (nb * bs) → Y := fun t => x t.divNat t.modNat

def tensors : Source X → Option (List (Rows (X × X)))
  | vllm gpuCache blockTable _ => gpuCache.mapM (saveLayer blockTable)
  | stacked _ layers => some (layers.map fun x => .tokens (List.ofFn x))
  | lmcache _ _ layers => some (layers.map fun x => .tokens (List.ofFn (flat x)))
  | probe _ _ single => some [.tokens (List.ofFn (flat fun i j => (single i j, single i j)))]

def numTokens : Source X → Nat
  | vllm _ _ nTokens => nTokens
  | stacked T _ => T
  | lmcache nb bs _ => nb * bs
  | probe nb bs _ => nb * bs

def saved : Source X → Nat → Nat → Option (X × X)
  | vllm gpuCache blockTable _, i, p => (gpuCache[i]?).bind fun l => l.slot blockTable p
  | stacked T layers, i, p => (layers[i]?).bind fun x => if h : p < T then some (x ⟨p, h⟩) else none
  | lmcache nb bs layers, i, p =>
    (layers[i]?).bind fun x => if h : p < nb * bs then some (flat x ⟨p, h⟩) else none
  | probe nb bs single, i, p =>
    if h : i = 0 ∧ p < nb * bs then some (flat single ⟨p, h.2⟩, flat single ⟨p, h.2⟩) else none

end Source

/-- A codec that gives back what it was given, at the dtype of the cache. -/
structure Codec (R X : Type) where
  compress : Rows (X × X) → CompressedKV R
  decompress : CompressedKV R → Rows (X × X)
  lossless : ∀ t, decompress (compress t) = t

variable [DecidableEq K] [FloatArith F] (env : PoolEnv F) (g : Geometry) (codec : Codec R X)

namespace CompressedVRAMPool

def putSource (s : CompressedVRAMPool K R F) (prefixHash : K) (source : Source X) (savingsMs : F) :
    Option Bool × CompressedVRAMPool K R F :=
  match source.tensors with
  | none => (none, s)
  | some tensors =>
    match source with
    | .vllm .. => putFromVllm env g s prefixHash (tensors.map codec.compress) source.numTokens savingsMs
    | _ => putFromRaw env g s prefixHash (tensors.map codec.compress) source.numTokens savingsMs

end CompressedVRAMPool

/-! ### Restoring -/

def restoreChunk (src : Rows (X × X)) (nBlocks start : Nat) (l : KvLayer X) : Option (KvLayer X) := do
  let stop := min (start + 512) nBlocks
  let chunkIds := (blockTable.drop start).take (stop - start)
  let k ← ((src.map Prod.fst).slice start stop).broadcast l.blockSize
  let kAll ← scatterBlocks chunkIds k l.kAll
  let l' := l.setK kAll
  let v ← ((src.map Prod.snd).slice start stop).broadcast l'.blockSize
  let vAll ← scatterBlocks chunkIds v l'.vAll
  pure (l'.setV vAll)

def restoreChunks (blockTable : List Nat) (src : Rows (X × X)) (nBlocks : Nat) : Nat → KvLayer X → Option (KvLayer X)
  | 0, l => some l
  | c + 1, l => (restoreChunks blockTable src nBlocks c l).bind (restoreChunk blockTable src nBlocks (512 * c))

def blocksWritten (src : Rows (X × X)) : Nat := min blockTable.length src.count

def restoreRows (src : Rows (X × X)) (l : KvLayer X) : Option (KvLayer X) :=
  restoreChunks blockTable src (blocksWritten blockTable src) ((blocksWritten blockTable src + 511) / 512) l

def restoreBlobs (blockTable : List Nat) : List (CompressedKV R) → List (KvLayer X) → Option (List (KvLayer X))
  | blob :: blobs, l :: ls => do
    let l ← restoreRows blockTable (codec.decompress blob) l
    let ls ← restoreBlobs blockTable blobs ls
    pure (l :: ls)
  | _, ls => some ls

def CompressedVRAMPool.restoreToVllm (s : CompressedVRAMPool K R F) (prefixHash : K) (gpuCache : List (KvLayer X))
    (blockTable : List Nat) : Option (Nat × List (KvLayer X)) × CompressedVRAMPool K R F :=
  match s.get env prefixHash with
  | (none, s) => (some (0, gpuCache), s)
  | (some entry, s) => ((restoreBlobs codec blockTable entry.blobs gpuCache).map (entry.numTokens, ·), s)

/-! ### Dtypes -/

inductive TorchDtype
  | float16
  | bfloat16
  | float32
  | float8E4m3fn
  | float8E5m2
  | int8
  | uint8
  | other
  deriving DecidableEq

def isAlreadyCompressed (dtype : TorchDtype) : Bool := [.float8E4m3fn, .float8E5m2, .int8, .uint8].contains dtype

inductive Fmt
  | fp16
  | bf16
  | fp8E4m3
  | fp8E5m2
  | int4Sym
  | int4Block
  | int2Sym
  | nvfp4
  | turboquant
  deriving DecidableEq

/-- A codec with the dtype of what it is given and of what it gives; `none` is an exception. -/
structure DtypeCodec (R X : Type) where
  compress : TorchDtype → Rows (X × X) → Option (CompressedKV R)
  decompressTo : TorchDtype → CompressedKV R → Option (Rows (X × X))

structure Codecs (R X : Type) where
  format : R → Fmt
  quantize : TorchDtype → Rows (X × X) → CompressedKV R
  dequantize : TorchDtype → CompressedKV R → Rows (X × X)
  others : Fmt → Option (DtypeCodec R X)

def Codecs.fp8E4M3Codec (codecs : Codecs R X) : DtypeCodec R X where
  compress dtype rawKv :=
    if [.float16, .bfloat16, .float32].contains dtype then some (codecs.quantize dtype rawKv) else none
  decompressTo targetDtype compressed := some (codecs.dequantize targetDtype compressed)

def Codecs.getCodec (codecs : Codecs R X) (fmt : Fmt) : Option (DtypeCodec R X) :=
  if fmt = .fp8E4m3 then some codecs.fp8E4M3Codec else codecs.others fmt

def Rows.shape : Rows Y → Nat × Option Nat
  | tokens xs => (xs.length, none)
  | blocks size rows => (rows.length, some size)

def stack : List (Rows Y) → Option (List (Rows Y))
  | [] => none
  | layer :: layers => if ∀ l ∈ layers, l.shape = layer.shape then some (layer :: layers) else none

def compressLayers (codecs : Codecs R X) (source : Source X) (dtype : TorchDtype) (format : Fmt) :
    Option (List (CompressedKV R)) := do
  let tensors ← source.tensors
  let codec ← codecs.getCodec (if isAlreadyCompressed dtype then .fp8E4m3 else format)
  tensors.mapM (codec.compress dtype)

namespace CompressedVRAMPool

/-- A put of a tensor of a dtype; one of no layers of a cache is false before a codec is looked up. -/
def putOfDtype (codecs : Codecs R X) (s : CompressedVRAMPool K R F) (prefixHash : K) (source : Source X)
    (dtype : TorchDtype) (format : Fmt) (savingsMs : F) : Option Bool × CompressedVRAMPool K R F :=
  match source, compressLayers codecs source dtype format with
  | .vllm [] _ _, _ => (some false, s)
  | _, none => (none, s)
  | .vllm .., some blobs => putFromVllm env g s prefixHash blobs source.numTokens savingsMs
  | _, some blobs => putFromRaw env g s prefixHash blobs source.numTokens savingsMs

/-- `restore_to_tensor`; of a hash that is not in the pool there is no tensor. -/
def restoreToTensor (codecs : Codecs R X) (s : CompressedVRAMPool K R F) (prefixHash : K) (targetDtype : TorchDtype) :
    Option (Option (List (Rows (X × X)))) :=
  match (s.get env prefixHash).1 with
  | none => some none
  | some entry => do
    let layers ← entry.blobs.mapM fun blob => do (← codecs.getCodec (codecs.format blob.rest)).decompressTo targetDtype blob
    some (← stack layers)

end CompressedVRAMPool

end Korith.Vllm
