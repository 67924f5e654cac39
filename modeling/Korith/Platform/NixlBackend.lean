import Korith.Lib.Machine
import Korith.Lib.Table
import Mathlib

/-!
# The block store for KV blocks

`AmfNixlBackend` stores blocks by way of prefix snapshots: the aggregator buffers the blocks of a prefix and flushes
them as one, an admitted flush writes their concatenation to one file and maps each of its blocks to the prefix, and
`get` looks a block up through that map. Entries of little value are evicted when the store fills up.

Floats are exact, and the operations of the file system succeed. Left out: the counters of the statistics, and what is
registered with the coordinator.
-/

namespace Korith.Nixl

abbrev Text : Type := List Char

abbrev Bytes : Type := List UInt8

structure Metadata (V : Type) where
  tokenHash : Option Text
  workerId : Option Text
  modelId : Option Text
  tenantId : Option Text
  storageTier : Option Text
  numTokens : Option Int
  modelHash : Option V
  kvVersion : Option V
  ropeBaseBits : Option V
  ropeScaleBits : Option V
  samplingHash : Option V
  deriving DecidableEq

structure Env (P D : Type) where
  /-- the first 32 hex digits of the SHA-256 -/
  digest : Text → P
  /-- `snapshot_dir / tenant_id / model_id` -/
  directory : Text → Text → D
  minAdmitRoi : ℚ
  aggWindowMs : ℚ
  maxStorageBytes : Int
  evictionWatermark : ℚ

def textOr (x : Option Text) (default : Text) : Text :=
  match x with
  | some (c :: cs) => c :: cs
  | _ => default

/-! ### Admission -/

def estimatePrefillMs (numTokens : Int) : ℚ :=
  max 0 (1 / 1000000 * (numTokens : ℚ) * (numTokens : ℚ) + 3 / 10 * (numTokens : ℚ))

def tierMul (storageTier : Text) : ℚ :=
  if storageTier = "vram".toList ∨ storageTier = "G1".toList then 1 / 2
  else if storageTier = "ram".toList ∨ storageTier = "G2".toList then 1
  else if storageTier = "remote".toList ∨ storageTier = "G4".toList then 5
  else 2

def estimateRestoreMs (numTokens : Int) (storageTier : Text) : ℚ :=
  max 1 (46 / 1000 * ((max 1 numTokens : Int) : ℚ) * tierMul storageTier)

def roi (numTokens : Int) (storageTier : Text) : ℚ :=
  estimatePrefillMs numTokens / max 1 (estimateRestoreMs numTokens storageTier)

/-! ### Validation -/

/-- The first field that differs, with both values. -/
structure Mismatch (V : Type) where
  key : String
  stored : Option V
  request : Option V
  deriving DecidableEq

variable {P D V : Type} [DecidableEq P] [DecidableEq D] [DecidableEq V]

def checkField (key : String) (required : Bool) (stored request : Option V) : Option (Mismatch V) :=
  if stored = none ∧ request = none then none
  else if stored = none ∧ required = false then none
  else if request = none ∧ required = false then none
  else if stored ≠ request then some ⟨key, stored, request⟩
  else none

def validate (stored request : Metadata V) : Option (Mismatch V) :=
  (checkField "model_hash" true stored.modelHash request.modelHash).or <|
    (checkField "kv_version" true stored.kvVersion request.kvVersion).or <|
      (checkField "rope_base_bits" false stored.ropeBaseBits request.ropeBaseBits).or <|
        (checkField "rope_scale_bits" false stored.ropeScaleBits request.ropeScaleBits).or <|
          checkField "sampling_hash" false stored.samplingHash request.samplingHash

/-! ### State -/

structure BlockBuffer (P V : Type) where
  prefixId : P
  blocks : List (Text × Bytes × Metadata V)
  totalBytes : Nat
  numTokens : Int
  modelId : Text
  tenantId : Text
  storageTier : Text
  firstPutMs : ℚ
  metadata : Metadata V

structure SnapshotEntry (P D V : Type) where
  prefixId : P
  /-- the directory of the file, which has the prefix as its name -/
  snapshotPath : D × P
  numTokens : Int
  sizeBytes : Nat
  metadata : Metadata V
  hitCount : Nat
  roi : ℚ
  valuePerByte : ℚ

structure State (P D V : Type) where
  buffers : Table P (BlockBuffer P V) BlockBuffer.prefixId
  entries : Table P (SnapshotEntry P D V) SnapshotEntry.prefixId
  blockToPrefix : Table Text (Text × P) Prod.fst
  totalBytes : Int
  disk : D × P → Option Bytes

def State.empty : State P D V := ⟨.empty, .empty, .empty, 0, fun _ => none⟩

def SnapshotEntry.updateValue (e : SnapshotEntry P D V) : SnapshotEntry P D V :=
  let tier := e.metadata.storageTier.getD "G3".toList
  let prefillMs := estimatePrefillMs e.numTokens
  { e with
    roi := Nixl.roi e.numTokens tier
    valuePerByte := prefillMs * (1 + e.hitCount) / ((max 1 e.sizeBytes : Nat) : ℚ) }

variable (env : Env P D)

/-! ### Snapshots -/

def watermark : ℚ := env.maxStorageBytes * env.evictionWatermark

def evict (entry : SnapshotEntry P D V) (s : State P D V) : State P D V :=
  { s with
    entries := s.entries.deleteWhere fun e => decide (e.prefixId = entry.prefixId)
    totalBytes := s.totalBytes - entry.sizeBytes
    blockToPrefix := s.blockToPrefix.deleteWhere fun r => decide (r.2 = entry.prefixId)
    disk := Function.update s.disk entry.snapshotPath none }

def evictLoop (incomingBytes : Nat) : List (SnapshotEntry P D V) → State P D V → State P D V
  | [], s => s
  | entry :: rest, s =>
    if ((s.totalBytes + incomingBytes : Int) : ℚ) ≤ watermark env then s
    else if (s.entries.find entry.prefixId).isNone then evictLoop incomingBytes rest s
    else evictLoop incomingBytes rest (evict entry s)

def maybeEvict (incomingBytes : Nat) (s : State P D V) : State P D V :=
  if ((s.totalBytes + incomingBytes : Int) : ℚ) ≤ watermark env then s
  else evictLoop env incomingBytes (s.entries.rows.insertionSort fun e e' => e.valuePerByte ≤ e'.valuePerByte) s

variable (blockId : Text) (buf : BlockBuffer P V) (s : State P D V)

def BlockBuffer.combined : Bytes := buf.blocks.flatMap fun b => b.2.1

def BlockBuffer.ids : List Text := buf.blocks.map Prod.fst

def admitted : Bool := decide (max 0 env.minAdmitRoi ≤ roi buf.numTokens buf.storageTier)

def snapshotEntry : SnapshotEntry P D V :=
  let metadata :=
    { buf.metadata with
      modelId := some buf.modelId, numTokens := some buf.numTokens, storageTier := some buf.storageTier }
  (SnapshotEntry.mk buf.prefixId (env.directory buf.tenantId buf.modelId, buf.prefixId) buf.numTokens buf.totalBytes
    metadata 0 0 0).updateValue

def onSnapshotReady : State P D V :=
  if admitted env buf then
    let s := maybeEvict env buf.totalBytes s
    let entry := snapshotEntry env buf
    { s with
      disk := Function.update s.disk entry.snapshotPath (some buf.combined)
      entries := s.entries.assign entry
      blockToPrefix := buf.ids.foldl (fun t b => t.assign (b, buf.prefixId)) s.blockToPrefix
      totalBytes := s.totalBytes + buf.totalBytes }
  else s

/-! ### The aggregator -/

def prefixForBlock (metadata : Metadata V) : P :=
  env.digest (textOr metadata.workerId [] ++ ':' :: textOr metadata.tokenHash blockId)

def flushLocked (prefixId : P) (s : State P D V) : State P D V :=
  match s.buffers.find prefixId with
  | none => s
  | some buf =>
    let s := { s with buffers := s.buffers.deleteWhere fun b => decide (b.prefixId = prefixId) }
    if buf.blocks = [] then s else onSnapshotReady env buf s

def flushAll : State P D V :=
  (s.buffers.rows.map BlockBuffer.prefixId).foldl (fun s prefixId => flushLocked env prefixId s) s

def buffered (kvData : Bytes) (metadata : Metadata V) (nowMs : ℚ) (s : State P D V) : BlockBuffer P V :=
  let prefixId := prefixForBlock env blockId metadata
  let buf := (s.buffers.find prefixId).getD
    ⟨prefixId, [], 0, 0, textOr metadata.modelId [], textOr metadata.tenantId "default".toList,
      textOr metadata.storageTier "G3".toList, nowMs, metadata⟩
  { buf with
    blocks := buf.blocks ++ [(blockId, kvData, metadata)]
    totalBytes := buf.totalBytes + kvData.length
    numTokens := buf.numTokens + metadata.numTokens.getD 0 }

/-! ### The interface -/

def put (kvData : Bytes) (metadata : Metadata V) (nowMs : ℚ) (s : State P D V) : State P D V :=
  let buf := buffered env blockId kvData metadata nowMs s
  let s := { s with buffers := s.buffers.assign buf }
  if max 10 env.aggWindowMs ≤ nowMs - buf.firstPutMs then flushLocked env buf.prefixId s else s

def get (request : Metadata V) (s : State P D V) : Option Bytes × State P D V :=
  match s.blockToPrefix.find blockId with
  | none => (none, s)
  | some (_, prefixId) =>
    match s.entries.find prefixId with
    | none => (none, { s with blockToPrefix := s.blockToPrefix.deleteWhere fun r => decide (r.1 = blockId) })
    | some entry =>
      match validate entry.metadata request with
      | some _ => (none, s)
      | none =>
        match s.disk entry.snapshotPath with
        | none => (none, s)
        | some data =>
          (some data, { s with entries := s.entries.assign { entry with hitCount := entry.hitCount + 1 }.updateValue })

def delete : Bool × State P D V :=
  match s.blockToPrefix.find blockId with
  | none => (false, s)
  | some (_, prefixId) =>
    let s := { s with blockToPrefix := s.blockToPrefix.deleteWhere fun r => decide (r.1 = blockId) }
    if s.blockToPrefix.rows.any fun r => decide (r.2 = prefixId) then (true, s)
    else
      match s.entries.find prefixId with
      | none => (true, s)
      | some entry =>
        (true, { s with
          entries := s.entries.deleteWhere fun e => decide (e.prefixId = prefixId)
          totalBytes := s.totalBytes - entry.sizeBytes
          disk := Function.update s.disk entry.snapshotPath none })

/-- `flush_all` is a flush of every buffered prefix; a `get` of another thread may come between two of them. -/
inductive Op (P V : Type)
  | put (blockId : Text) (kvData : Bytes) (metadata : Metadata V) (nowMs : ℚ)
  | get (blockId : Text) (request : Metadata V)
  | delete (blockId : Text)
  | flush (prefixId : P)

inductive Answer
  | stored
  | data (bytes : Option Bytes)
  | deleted (found : Bool)
  | flushed

def step : Op P V → Answer × State P D V
  | .put blockId kvData metadata nowMs => (.stored, Nixl.put env blockId kvData metadata nowMs s)
  | .get blockId request => ((Nixl.get blockId request s).1 |> .data, (Nixl.get blockId request s).2)
  | .delete blockId => ((Nixl.delete blockId s).1 |> .deleted, (Nixl.delete blockId s).2)
  | .flush prefixId => (.flushed, flushLocked env prefixId s)

theorem flushAll_eq :
    flushAll env s = Machine.after (step env) s ((s.buffers.rows.map BlockBuffer.prefixId).map .flush) := by
  rw [Machine.after, List.foldl_map]
  rfl

end Korith.Nixl
