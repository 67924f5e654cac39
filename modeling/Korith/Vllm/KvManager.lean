import Korith.Amf.Name
import Korith.Lib.Bytes

/-!
# The KV manager of the vLLM extension

`AmfKvManager` writes the blocks of a sequence to a file named after its prompt, and reads them back into the
blocks of another sequence. The file has a header, a table with the place of each layer and the bytes of all
layers. Files are a map from names to bytes; a call returns a value or raises an exception.
-/

namespace Korith.Vllm

open Amf (Hash kFNVOffset kFNVPrime hashBytes amfKeyFilename)

def amfHashTokens (tokenIds : List Int) : Hash :=
  tokenIds.foldl (fun h tok => (h ^^^ BitVec.ofInt 64 (tok % 2 ^ 32)) * kFNVPrime) kFNVOffset

def amfHashTenantId (tenantId : List Byte) : Hash :=
  if tenantId = [] then kFNVOffset else hashBytes kFNVOffset tenantId

structure Manager where
  modelHash : Nat
  tenantId : List Byte
  maxModelLen : Nat
  kvVersion : Nat
  ropeBaseBits : Nat
  ropeScaleBits : Nat
  samplingHash : Nat
  rngHash : Nat

structure Key where
  modelHash : Nat
  tenantHash : Nat
  prefixHash : Nat
  nCtx : Nat
  kvVersion : Nat
  ropeBaseBits : Nat
  ropeScaleBits : Nat
  samplingHash : Nat
  rngHash : Nat

variable (m : Manager) (promptTokens : List Int) (blockTable : List Nat)

def Manager.computeAmfKey (nCtx : Option Nat) : Key where
  modelHash := m.modelHash
  tenantHash := (amfHashTenantId m.tenantId).toNat
  prefixHash := (amfHashTokens promptTokens).toNat
  nCtx := if nCtx.getD 0 = 0 then m.maxModelLen else nCtx.getD 0
  kvVersion := m.kvVersion
  ropeBaseBits := m.ropeBaseBits
  ropeScaleBits := m.ropeScaleBits
  samplingHash := m.samplingHash
  rngHash := m.rngHash

def Key.stem (key : Key) : String :=
  amfKeyFilename key.modelHash key.tenantHash key.prefixHash key.nCtx key.kvVersion key.ropeBaseBits
    key.ropeScaleBits key.samplingHash key.rngHash

def Key.kvFilename (key : Key) : String := key.stem ++ ".kv"
def Key.tokFilename (key : Key) : String := key.stem ++ ".tok"

abbrev Files := String → Option (List Byte)

def Files.write (name : String) (bytes : List Byte) (fs : Files) : Files :=
  fun name' => if name' = name then some bytes else fs name'

def Manager.hasSnapshot (fs : Files) : Bool :=
  (fs (m.computeAmfKey promptTokens none).kvFilename).isSome

inductive Outcome (α : Type)
  | returned (a : α)
  | raised
  deriving DecidableEq

/-! ### Caches -/

inductive Dtype
  | float16
  | float32
  | bfloat16
  | other (elementSize : Nat)
  deriving DecidableEq

def Dtype.elementSize : Dtype → Nat
  | float16 => 2
  | float32 => 4
  | bfloat16 => 2
  | other n => n

def Dtype.tag : Dtype → Nat
  | float16 => 0
  | float32 => 1
  | bfloat16 => 2
  | other _ => 0

/-- The cache of one layer: blocks of keys and blocks of values of `blockBytes` bytes each. If the tensor is not
stacked, the values are the keys. -/
structure LayerCache where
  dtype : Dtype
  stacked : Bool
  nKvHeads : Nat
  headDim : Nat
  blockBytes : Nat
  keys : List (List Byte)
  values : List (List Byte)

namespace LayerCache

variable (l : LayerCache)

def kAll : List (List Byte) := l.keys
def vAll : List (List Byte) := if l.stacked then l.values else l.keys

def setK (blocks : List (List Byte)) : LayerCache := { l with keys := blocks }
def setV (blocks : List (List Byte)) : LayerCache :=
  if l.stacked then { l with values := blocks } else { l with keys := blocks }

end LayerCache

def gather (blocks : List (List Byte)) : Option (List (List Byte)) :=
  blockTable.mapM fun i => blocks[i]?

def scatter (src blocks : List (List Byte)) : List (List Byte) :=
  (blockTable.zip src).foldl (fun blocks p => blocks.set p.1 p.2) blocks

/-! ### The file -/

def amfkMagic : Nat := 0x414D464B
def amfkVersion : Nat := 1

def headerWidths : List Nat := [4, 4, 4, 4, 4, 4, 4, 4, 8, 8, 8]
def layerWidths : List Nat := [8, 8, 8, 8]

def headerSize : Nat := 56
def layerSize : Nat := 32

def structPack (fields : List (Nat × Nat)) : Option (List Byte) :=
  if ∀ f ∈ fields, f.2 < 256 ^ f.1 then some (packFields fields) else none

/-- Offset and size of the keys and of the values of a layer. -/
structure LayerInfo where
  kOff : Nat
  kSz : Nat
  vOff : Nat
  vSz : Nat

def layerInfos : Nat → List (List Byte × List Byte) → List LayerInfo
  | _, [] => []
  | total, (k, v) :: kvs =>
    ⟨total, k.length, total + k.length, v.length⟩ :: layerInfos (total + (k.length + v.length)) kvs

/-- The keys and values of each layer. The sequence's blocks, or all blocks if the table is empty. NumPy has no
bfloat16, so `numpy()` raises. -/
def collect (gpuCache : List LayerCache) : Option (List (List Byte × List Byte)) :=
  gpuCache.mapM fun l =>
    if l.dtype = .bfloat16 then none
    else if blockTable = [] then some (l.kAll.flatten, l.vAll.flatten)
    else do
      let k ← gather blockTable l.kAll
      let v ← gather blockTable l.vAll
      pure (k.flatten, v.flatten)

/-- The bytes of a snapshot. The slices of the payload follow one another. -/
def buildBlob (key : Key) (nTokens : Nat) (sample : LayerCache) (kvs : List (List Byte × List Byte)) :
    Option (List Byte) := do
  let payload := kvs.flatMap fun kv => kv.1 ++ kv.2
  let header ← structPack
    [(4, amfkMagic), (4, amfkVersion), (4, kvs.length), (4, nTokens), (4, sample.nKvHeads), (4, sample.headDim),
      (4, sample.dtype.tag), (4, 0), (8, payload.length), (8, key.modelHash), (8, key.prefixHash)]
  let table ← (layerInfos 0 kvs).mapM fun i => structPack [(8, i.kOff), (8, i.kSz), (8, i.vOff), (8, i.vSz)]
  pure (header ++ table.flatten ++ payload)

def isInt32 (t : Int) : Bool := decide (-2 ^ 31 ≤ t) && decide (t < 2 ^ 31)

def tokenBytes (tokens : List Int) : List Byte := tokens.flatMap fun t => leBytes 4 (t % 2 ^ 32).toNat

/-- `save_kv_state`. A file that cannot be written is `writeFails` for the snapshot and `tokFails` for the
tokens. -/
def Manager.saveKvState (gpuCache : List LayerCache)
    (writeFails tokFails : Bool) (fs : Files) : Outcome Bool × Files :=
  let key := m.computeAmfKey promptTokens none
  match gpuCache with
  | [] => (.returned false, fs)
  | sample :: _ =>
    match (collect blockTable gpuCache).bind (buildBlob key promptTokens.length sample) with
    | none => (.raised, fs)
    | some blob =>
      if writeFails then (.returned false, fs)
      else
        let fs := fs.write key.kvFilename blob
        if promptTokens.all isInt32 then
          (.returned true, if tokFails then fs else fs.write key.tokFilename (tokenBytes promptTokens))
        else (.raised, fs)

def readBlocks (l : LayerCache) (blockTable : List Nat) (blocks : List (List Byte)) (bytes : List Byte) :
    Option (List (List Byte)) := do
  let target ← gather blockTable blocks
  if bytes = [] ∨ bytes.length % l.dtype.elementSize ≠ 0 ∨ bytes.length ≠ target.length * l.blockBytes then none
  else
    some ((List.range target.length).map fun i => (bytes.drop (i * l.blockBytes)).take l.blockBytes)

def restoreLayer (payload : List Byte) (l : LayerCache) (info : LayerInfo) : Option LayerCache :=
  if info.kSz = 0 ∧ info.vSz = 0 then some l
  else if blockTable = [] then some l
  else do
    let k ← readBlocks l blockTable l.kAll ((payload.drop info.kOff).take info.kSz)
    let v ← readBlocks l blockTable l.vAll ((payload.drop info.vOff).take info.vSz)
    let l := l.setK (scatter blockTable k l.kAll)
    pure (l.setV (scatter blockTable v l.vAll))

/-- The loop. An exception leaves the layers before it written. -/
def restoreLayers (blockTable : List Nat) (payload : List Byte) :
    List LayerCache → List LayerInfo → Bool × List LayerCache
  | l :: ls, info :: infos =>
    match restoreLayer blockTable payload l info with
    | none => (false, l :: ls)
    | some l =>
      let (ok, ls) := restoreLayers blockTable payload ls infos
      (ok, l :: ls)
  | ls, _ => (true, ls)

def readInfo (blob : List Byte) (i : Nat) : LayerInfo :=
  match unpackFields layerWidths (blob.drop (headerSize + i * layerSize)) with
  | some [kOff, kSz, vOff, vSz] => ⟨kOff, kSz, vOff, vSz⟩
  | _ => ⟨0, 0, 0, 0⟩

/-- `restore_kv_state`: the number of tokens, 0 if there is no usable snapshot. -/
def Manager.restoreKvState (readFails : Bool)
    (gpuCache : List LayerCache) (fs : Files) : Outcome Nat × List LayerCache :=
  match fs (m.computeAmfKey promptTokens none).kvFilename with
  | none => (.returned 0, gpuCache)
  | some blob =>
    if readFails then (.returned 0, gpuCache)
    else
      match unpackFields headerWidths blob with
      | some (magic :: version :: nLayersSnap :: nTokens :: _) =>
        if magic ≠ amfkMagic ∨ version ≠ amfkVersion ∨ nLayersSnap ≠ gpuCache.length ∨
            blob.length < headerSize + nLayersSnap * layerSize then (.returned 0, gpuCache)
        else
          let infos := (List.range nLayersSnap).map (readInfo blob)
          let payload := blob.drop (headerSize + nLayersSnap * layerSize)
          let (ok, gpuCache) := restoreLayers blockTable payload gpuCache infos
          (if ok then .returned nTokens else .raised, gpuCache)
      | _ => (.returned 0, gpuCache)

end Korith.Vllm
