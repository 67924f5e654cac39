import Korith.Amf.Store
import Korith.Lib.Bytes

/-!
# Direct snapshots of the KV cache

`amf_direct_kv_save` copies the tensors of a llama.cpp KV cache into a pinned buffer, behind a header and a table of
their offsets, and stores the bytes; `amf_direct_kv_restore` copies them back and rewrites the cells. `none` is a copy
outside of a buffer. The calls of CUDA succeed, but for the allocation of the buffer.
-/

namespace Korith.Amf.DirectKv

/-! ### The cache -/

inductive GgmlType where
  | f16
  | f32
  | bf16
  | other
  deriving DecidableEq

structure GgmlTensor where
  type : GgmlType
  ne0 : Nat
  ne1 : Nat
  data : List Byte
  deriving DecidableEq

def GgmlTensor.nbytes (t : GgmlTensor) : Nat := t.data.length

/-- `k_l[il]` and `v_l[il]`; a recurrent layer has none. -/
structure KvLayer where
  k : Option GgmlTensor
  v : Option GgmlTensor
  deriving DecidableEq

abbrev Shape := Option Nat × Option Nat

def KvLayer.shape (layer : KvLayer) : Shape := (layer.k.map GgmlTensor.nbytes, layer.v.map GgmlTensor.nbytes)

def Shape.bytes : Shape → Nat
  | (some k, some v) => k + v
  | _ => 0

def headerSize : Nat := 56

def layerInfoSize : Nat := 32

def snapshotSize (shapes : List Shape) : Nat :=
  headerSize + shapes.length * layerInfoSize + (shapes.map Shape.bytes).sum

structure KvCell where
  pos : Int
  seqId : Finset Int
  deriving DecidableEq

/-- `llama_kv_cache`. Layers and cells are counted in 32 bits, and the buffer for a snapshot can be addressed. -/
structure LlamaKvCache where
  layers : List KvLayer
  cells : List KvCell
  head : Nat
  used : Nat
  layers_lt : layers.length < 2 ^ 32
  cells_lt : cells.length < 2 ^ 32
  addressable : snapshotSize (layers.map KvLayer.shape) + snapshotSize (layers.map KvLayer.shape) / 10 < 2 ^ 64

def LlamaKvCache.withLayers (kv : LlamaKvCache) (layers : List KvLayer)
    (h : layers.map KvLayer.shape = kv.layers.map KvLayer.shape) : LlamaKvCache where
  layers := layers
  cells := kv.cells
  head := kv.head
  used := kv.used
  layers_lt := by
    have hlen := congrArg List.length h
    rw [List.length_map, List.length_map] at hlen
    rw [hlen]
    exact kv.layers_lt
  cells_lt := kv.cells_lt
  addressable := by
    rw [h]
    exact kv.addressable

def llamaPos (i : Nat) : Int := (BitVec.ofNat 32 i).toInt

def occupyCell (nTokens i : Nat) (cell : KvCell) : KvCell :=
  if i < nTokens then ⟨llamaPos i, insert 0 cell.seqId⟩ else ⟨-1, ∅⟩

def LlamaKvCache.occupy (kv : LlamaKvCache) (nTokens : Nat) : LlamaKvCache :=
  { kv with
    head := nTokens
    used := nTokens
    cells := kv.cells.mapIdx (occupyCell nTokens)
    cells_lt := by
      rw [List.length_mapIdx]
      exact kv.cells_lt }

/-! ### The buffer -/

structure AmfDirectKvCtx where
  pinned : List Byte
  deriving DecidableEq

/-- `cudaMallocHost`: a buffer with anything in it, or a failure. -/
structure Host where
  malloc : Nat → Option (List Byte)
  length_malloc : ∀ n buf, malloc n = some buf → buf.length = n

def ensurePinned (host : Host) (needed : Nat) (dkv : AmfDirectKvCtx) : Bool × AmfDirectKvCtx :=
  if needed ≤ dkv.pinned.length then (true, dkv)
  else
    match host.malloc (u64 (needed + needed / 10)) with
    | none => (false, ⟨[]⟩)
    | some buf => (true, ⟨buf⟩)

/-! ### The format -/

def kAmfDirectKvMagic : Nat := 0x414D464B
def kAmfDirectKvVersion : Nat := 1

def dtypeFromGgml : GgmlType → Nat
  | .f16 => 0
  | .f32 => 1
  | .bf16 => 2
  | .other => 3

/-- The type, heads and dimension in the header are those of the first K tensor. -/
def firstK (layers : List KvLayer) : Option GgmlTensor := layers.findSome? KvLayer.k

def headerFields (layers : List KvLayer) (total : Nat) (ctx : AmfContext) (tokens : List Token) : List (Nat × Nat) :=
  [(4, kAmfDirectKvMagic), (4, kAmfDirectKvVersion), (4, layers.length), (4, tokens.length % 2 ^ 32),
    (4, (firstK layers).elim 0 (·.ne1) % 2 ^ 32), (4, (firstK layers).elim 0 (·.ne0) % 2 ^ 32),
    (4, (firstK layers).elim 0 fun k => dtypeFromGgml k.type), (4, 0), (8, total), (8, ctx.modelHash.toNat),
    (8, (amfHashTokens tokens).toNat)]

def headerWidths : List Nat := [4, 4, 4, 4, 4, 4, 4, 4, 8, 8, 8]

structure AmfDirectKvLayerInfo where
  kOffset : Nat
  kBytes : Nat
  vOffset : Nat
  vBytes : Nat
  deriving DecidableEq

def AmfDirectKvLayerInfo.fields (info : AmfDirectKvLayerInfo) : List (Nat × Nat) :=
  [(8, info.kOffset), (8, info.kBytes), (8, info.vOffset), (8, info.vBytes)]

/-- The table of offsets from `total` on, and the total behind the last layer. -/
def layerInfos (total : Nat) : List KvLayer → List AmfDirectKvLayerInfo × Nat
  | [] => ([], total)
  | layer :: layers =>
    match layer.k, layer.v with
    | some k, some v =>
      let r := layerInfos (total + k.nbytes + v.nbytes) layers
      (⟨total, k.nbytes, total + k.nbytes, v.nbytes⟩ :: r.1, r.2)
    | _, _ =>
      let r := layerInfos total layers
      (⟨total, 0, total, 0⟩ :: r.1, r.2)

def readInfos : Nat → List Byte → Option (List AmfDirectKvLayerInfo)
  | 0, _ => some []
  | n + 1, bytes =>
    match unpackFields [8, 8, 8, 8] bytes with
    | some [kOffset, kBytes, vOffset, vBytes] =>
      (readInfos n (bytes.drop layerInfoSize)).map (⟨kOffset, kBytes, vOffset, vBytes⟩ :: ·)
    | _ => none

/-! ### Save -/

def copyOut (off bytes : Nat) (t : GgmlTensor) (buf : List Byte) : Option (List Byte) :=
  if 0 < bytes then writeAt off (t.data.take bytes) buf else some buf

def copyLayersOut (base : Nat) : List AmfDirectKvLayerInfo → List KvLayer → List Byte → Option (List Byte)
  | info :: infos, layer :: layers, buf =>
    match layer.k, layer.v with
    | some k, some v => do
      let buf ← copyOut (base + info.kOffset) info.kBytes k buf
      let buf ← copyOut (base + info.vOffset) info.vBytes v buf
      copyLayersOut base infos layers buf
    | _, _ => copyLayersOut base infos layers buf
  | _, _, buf => some buf

variable {F : Type} [FloatArith F] {buf : List Byte}

def amfDirectKvSave (host : Host) (e : Env F) (stale : Nat) (kv : LlamaKvCache) (ctx : AmfContext)
    (tokens : List Token) (savedMs : Nat) (dkv : AmfDirectKvCtx) (w : World F) :
    Option (Bool × AmfDirectKvCtx × World F) :=
  if kv.layers.length = 0 then some (false, dkv, w)
  else
    let infos := (layerInfos 0 kv.layers).1
    let total := (layerInfos 0 kv.layers).2
    let base := headerSize + kv.layers.length * layerInfoSize
    match ensurePinned host (base + total) dkv with
    | (false, dkv) => some (false, dkv, w)
    | (true, dkv) => do
      let buf ← writeAt 0 (packFields (headerFields kv.layers total ctx tokens)) dkv.pinned
      let buf ← writeAt headerSize (infos.flatMap fun info => packFields info.fields) buf
      let buf ← copyLayersOut base infos kv.layers buf
      let r := storeEntry e stale ctx tokens (buf.take (base + total)) savedMs w
      some (r.1, ⟨buf⟩, r.2)

/-! ### Restore -/

def copyIn (off bytes : Nat) (t : GgmlTensor) (buf : List Byte) : Option GgmlTensor :=
  if 0 < bytes then (readAt off bytes buf).map fun data => { t with data := data } else some t

def copyLayersIn (base : Nat) (buf : List Byte) :
    List AmfDirectKvLayerInfo → List KvLayer → Option (Bool × List KvLayer)
  | info :: infos, layer :: layers =>
    match layer.k, layer.v with
    | some k, some v =>
      if info.kBytes ≠ k.nbytes ∨ info.vBytes ≠ v.nbytes then some (false, layer :: layers)
      else do
        let k ← copyIn (base + info.kOffset) info.kBytes k buf
        let v ← copyIn (base + info.vOffset) info.vBytes v buf
        let r ← copyLayersIn base buf infos layers
        some (r.1, ⟨some k, some v⟩ :: r.2)
    | _, _ => (copyLayersIn base buf infos layers).map fun r => (r.1, layer :: r.2)
  | _, layers => some (true, layers)

theorem copyIn_nbytes {off : Nat} {t t' : GgmlTensor} (h : copyIn off t.nbytes t buf = some t') :
    t'.nbytes = t.nbytes := by
  unfold copyIn readAt at h
  split_ifs at h with hpos hle
  · obtain ⟨data, hdata, rfl⟩ := Option.map_eq_some_iff.mp h
    cases hdata
    show (slice buf off t.nbytes).length = t.nbytes
    rw [slice, List.length_take, List.length_drop]
    omega
  · cases h
  · cases h
    rfl

theorem copyLayersIn_shape {base : Nat} {infos : List AmfDirectKvLayerInfo} {layers : List KvLayer}
    {r : Bool × List KvLayer} (h : copyLayersIn base buf infos layers = some r) :
    r.2.map KvLayer.shape = layers.map KvLayer.shape := by
  induction layers generalizing infos r with
  | nil =>
    cases infos <;> cases h <;> rfl
  | cons layer layers ih =>
    cases infos with
    | nil =>
      cases h
      rfl
    | cons info infos =>
      rw [copyLayersIn] at h
      split at h
      · rename_i k v hk hv
        split_ifs at h with hsize
        · cases h
          rfl
        · obtain ⟨hkb, hvb⟩ := not_or.mp hsize
          rw [not_not.mp hkb, not_not.mp hvb] at h
          obtain ⟨k', hk', h⟩ := Option.bind_eq_some_iff.mp h
          obtain ⟨v', hv', h⟩ := Option.bind_eq_some_iff.mp h
          obtain ⟨r', hr', h⟩ := Option.bind_eq_some_iff.mp h
          cases h
          rw [List.map_cons, List.map_cons, ih hr', KvLayer.shape, KvLayer.shape, hk, hv]
          simp [copyIn_nbytes hk', copyIn_nbytes hv']
      · obtain ⟨r', hr', rfl⟩ := Option.map_eq_some_iff.mp h
        rw [List.map_cons, List.map_cons, ih hr']

def restoreCache (base nTokens : Nat) (infos : List AmfDirectKvLayerInfo) (buf : List Byte) (kv : LlamaKvCache) :
    Option (Bool × LlamaKvCache) :=
  match h : copyLayersIn base buf infos kv.layers with
  | none => none
  | some (false, layers) => some (false, kv.withLayers layers (copyLayersIn_shape h))
  | some (true, layers) => some (true, (kv.withLayers layers (copyLayersIn_shape h)).occupy nTokens)

def restoreFrom (buf : List Byte) (blobSize : Nat) (kv : LlamaKvCache) : Option (Bool × LlamaKvCache) :=
  if blobSize < headerSize then some (false, kv)
  else
    match unpackFields headerWidths buf with
    | some (magic :: version :: nLayers :: nTokens :: _) =>
      if magic ≠ kAmfDirectKvMagic then some (false, kv)
      else if version ≠ kAmfDirectKvVersion then some (false, kv)
      else if blobSize < headerSize + nLayers * layerInfoSize then some (false, kv)
      else
        match readInfos nLayers (buf.drop headerSize) with
        | none => none
        | some infos =>
          if nLayers ≠ kv.layers.length then some (false, kv)
          else restoreCache (headerSize + nLayers * layerInfoSize) nTokens infos buf kv
    | _ => none

def amfDirectKvRestore (host : Host) (kv : LlamaKvCache) (entry : AmfEntry F) (dkv : AmfDirectKvCtx) (w : World F) :
    Option (Bool × LlamaKvCache × AmfDirectKvCtx) :=
  if entry.sizeBytes < headerSize then some (false, kv, dkv)
  else
    match ensurePinned host entry.sizeBytes dkv with
    | (false, dkv) => some (false, kv, dkv)
    | (true, dkv) =>
      match loadKvInto entry dkv.pinned w with
      | (false, buf, _) => some (false, kv, ⟨buf⟩)
      | (true, buf, blobSize) => (restoreFrom buf blobSize kv).map fun r => (r.1, r.2, ⟨buf⟩)

end Korith.Amf.DirectKv
