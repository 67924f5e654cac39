import Korith.Amf.Store
import Korith.Lib.Bytes

/-!
# The bytes of the index file

The index file is a header and a record for each entry: little-endian, without padding. The checksum is the hash of
the header with checksum 0 and of all records. The current version is 9; a file of version 8, whose keys have no
tenant, is migrated when it is loaded. `Amf.Store` has the file as the list of its records.
-/

namespace Korith.Amf

variable {F : Type}

inductive IndexVersion where
  | v8
  | v9
  deriving DecidableEq

/-- The 64 bits of a `double`. What was read from a file is written as it was. -/
structure DoubleBits (F : Type) where
  bits : F → Nat
  ofBits : Nat → F
  bits_lt : ∀ x, bits x < 256 ^ 8
  ofBits_bits : ∀ n < 256 ^ 8, ofBits (bits (ofBits n)) = ofBits n

def EntryState.toByte : EntryState → Nat
  | cold => 0
  | warmPending => 1
  | hot => 2

def EntryState.ofByte : Nat → EntryState
  | 1 => warmPending
  | 2 => hot
  | _ => cold

/-! ### Records -/

def AmfKey.fields (key : AmfKey) : List (Nat × Nat) :=
  [(8, key.modelHash.toNat), (8, key.tenantHash.toNat), (8, key.prefixHash.toNat), (4, key.nCtx.toNat),
    (4, key.kvVersion.toNat), (4, key.ropeBaseBits.toNat), (4, key.ropeScaleBits.toNat),
    (8, key.samplingHash.toNat), (8, key.rngHash.toNat)]

variable (d : DoubleBits F)

/-- The fields of `IndexRecord` behind the key, the reserved ones with them. -/
def AmfEntry.fields (entry : AmfEntry F) : List (Nat × Nat) :=
  [(8, entry.modelHash.toNat), (4, entry.prefixLen), (4, 0), (8, entry.seenCount), (8, entry.restoreCount),
    (8, d.bits entry.emaSavedMs), (8, d.bits entry.emaRestoreMs), (8, d.bits entry.emaRoi),
    (8, entry.failureCount), (8, entry.blockCount), (8, entry.savedMs), (8, entry.hitCount), (8, entry.lastUsed),
    (8, entry.lastHitMs), (4, entry.lowRoiHits), (4, 0), (8, entry.kvSize), (8, entry.lastAccessTimeMs),
    (8, entry.accessCount), (8, entry.storedAtMs), (8, entry.expiresAtMs), (8, entry.sizeBytes),
    (8, entry.kvChecksum.toNat), (1, entry.state.toByte), (7, 0)]

def indexRecord (entry : AmfEntry F) : List Byte := packFields (entry.key.fields ++ entry.fields d)

def keyWidths : IndexVersion → List Nat
  | .v8 => [8, 8, 4, 4, 4, 4, 8, 8]
  | .v9 => [8, 8, 8, 4, 4, 4, 4, 8, 8]

def entryWidths : List Nat := [8, 4, 4, 8, 8, 8, 8, 8, 8, 8, 8, 8, 8, 8, 4, 4, 8, 8, 8, 8, 8, 8, 8, 1, 7]

def recordWidths (v : IndexVersion) : List Nat := keyWidths v ++ entryWidths

def recordSize : IndexVersion → Nat
  | .v8 => 224
  | .v9 => 232

/-- A key of version 8 gets the tenant 0. -/
def keyOfFields : IndexVersion → List Nat → Option AmfKey
  | .v8, [modelHash, prefixHash, nCtx, kvVersion, ropeBaseBits, ropeScaleBits, samplingHash, rngHash] =>
    some ⟨BitVec.ofNat 64 modelHash, 0, BitVec.ofNat 64 prefixHash, BitVec.ofNat 32 nCtx, BitVec.ofNat 32 kvVersion,
      BitVec.ofNat 32 ropeBaseBits, BitVec.ofNat 32 ropeScaleBits, BitVec.ofNat 64 samplingHash,
      BitVec.ofNat 64 rngHash⟩
  | .v9, [modelHash, tenantHash, prefixHash, nCtx, kvVersion, ropeBaseBits, ropeScaleBits, samplingHash, rngHash] =>
    some ⟨BitVec.ofNat 64 modelHash, BitVec.ofNat 64 tenantHash, BitVec.ofNat 64 prefixHash, BitVec.ofNat 32 nCtx,
      BitVec.ofNat 32 kvVersion, BitVec.ofNat 32 ropeBaseBits, BitVec.ofNat 32 ropeScaleBits,
      BitVec.ofNat 64 samplingHash, BitVec.ofNat 64 rngHash⟩
  | _, _ => none

def entryOfFields (key : AmfKey) : List Nat → Option (AmfEntry F)
  | [modelHash, prefixLen, _, seenCount, restoreCount, emaSavedMs, emaRestoreMs, emaRoi, failureCount, blockCount,
      savedMs, hitCount, lastUsed, lastHitMs, lowRoiHits, _, kvSize, lastAccessTimeMs, accessCount, storedAtMs,
      expiresAtMs, sizeBytes, kvChecksum, state, _] =>
    some {
      key := key
      modelHash := BitVec.ofNat 64 modelHash
      prefixLen := prefixLen
      seenCount := seenCount
      restoreCount := restoreCount
      emaSavedMs := d.ofBits emaSavedMs
      emaRestoreMs := d.ofBits emaRestoreMs
      emaRoi := d.ofBits emaRoi
      failureCount := failureCount
      blockCount := blockCount
      savedMs := savedMs
      hitCount := hitCount
      lastUsed := lastUsed
      lastHitMs := lastHitMs
      lowRoiHits := lowRoiHits
      kvSize := kvSize
      lastAccessTimeMs := lastAccessTimeMs
      accessCount := accessCount
      storedAtMs := storedAtMs
      expiresAtMs := expiresAtMs
      sizeBytes := sizeBytes
      kvChecksum := BitVec.ofNat 64 kvChecksum
      state := .ofByte state }
  | _ => none

def readRecord (v : IndexVersion) (bytes : List Byte) : Option (AmfEntry F) :=
  (unpackFields (recordWidths v) bytes).bind fun fields =>
    (keyOfFields v (fields.take (keyWidths v).length)).bind fun key =>
      entryOfFields d key (fields.drop (keyWidths v).length)

/-! ### The file -/

def kIndexMagic : Nat := 0x31464d41
def kIndexVersion : Nat := 9
def kIndexVersionV8 : Nat := 8

def headerWidths : List Nat := [4, 4, 8, 8]
def headerSize : Nat := 24

def indexHeader (version count checksum : Nat) : List Byte :=
  packFields [(4, kIndexMagic), (4, version), (8, count), (8, checksum)]

/-- The header with the checksum that a first pass over the entries has given, and the records. -/
def indexBytes (entries : List (AmfEntry F)) : List Byte :=
  let checksum := entries.foldl (fun h entry => hashBytes h (indexRecord d entry))
    (hashBytes kFNVOffset (indexHeader kIndexVersion entries.length 0))
  indexHeader kIndexVersion entries.length checksum.toNat ++ entries.flatMap (indexRecord d)

variable [FloatArith F]

/-- The loop of `load_index`: the checksum of what it has read, or none if the file ends too early. -/
def loadLoop (e : Env F) (d : DoubleBits F) (v : IndexVersion) :
    Nat → List Byte → Hash → World F → Option Hash × World F
  | 0, _, checksum, w => (some checksum, w)
  | n + 1, bytes, checksum, w =>
    match readRecord d v bytes with
    | none => (none, w)
    | some rec =>
      loadLoop e d v n (bytes.drop (recordSize v)) (hashBytes checksum (bytes.take (recordSize v)))
        (loadRecords e [rec] w)

def World.disable (w : World F) : World F := { w with store := { w.store with enabled := false } }

def loadBody (e : Env F) (d : DoubleBits F) (v : IndexVersion) (version count checksum : Nat) (bytes : List Byte)
    (w : World F) : Bool × World F :=
  if 2 ^ 20 < count then (false, w.disable)
  else
    match loadLoop e d v count bytes (hashBytes kFNVOffset (indexHeader version count 0)) w.next with
    | (none, w) => (false, w.disable)
    | (some found, w) =>
      if found.toNat ≠ checksum then (false, w.disable)
      else
        (true, { w with store := { w.store with
          stats := { w.store.stats with entries := w.store.entries.length, bytes := w.store.totalBytes } } })

/-- `load_index` of a file, or of none. A file of another version is removed. -/
def loadIndexBytes (e : Env F) (d : DoubleBits F) (file : Option (List Byte)) (w : World F) : Bool × World F :=
  let w := { w.next with store := w.store.cleared }
  match file with
  | none => (true, w)
  | some bytes =>
    match unpackFields headerWidths bytes with
    | some [magic, version, count, checksum] =>
      if magic ≠ kIndexMagic then (false, w.disable)
      else if version = kIndexVersion then
        loadBody e d .v9 version count checksum (bytes.drop headerSize) w
      else if version = kIndexVersionV8 then
        loadBody e d .v8 version count checksum (bytes.drop headerSize) w
      else if e.removeOk w.tick then (true, w.next)
      else (false, w.next.disable)
    | _ => (false, w.disable)

end Korith.Amf
