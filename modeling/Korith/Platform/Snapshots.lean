import Korith.Lib.Json
import Korith.Lib.Run
import Korith.Platform.Artifacts
import Korith.Platform.Governance
import Mathlib

/-!
# The snapshots of the workers

A worker looks up a snapshot for the fingerprint of a job before it runs the adapter, and keeps the one that the
adapter leaves. The restore store has one path for a fingerprint, the snapshot index has paths for a fingerprint and
an organization, and each machine has files: the `mf_snapshot` file of a job, and the copies `{fingerprint_hash}.bin`
in the cache directories of the workers. A file may have a sidecar with its metadata, against which it is checked
before it is used.

Between the statements of one worker the others run, so that the snapshot part of `_process` is cut into the events of
`Event`.
-/

namespace Korith.Snapshots

open Governance (Capabilities)

inductive Tier
  | vram
  | ram
  | nvme
  deriving DecidableEq

/-- The `mf_snapshot` file in the directory of a job, or the file `{fingerprint_hash}.bin` in a cache directory. -/
inductive Path
  | artifact (dir : Place)
  | cached (dir fingerprintHash : String)
  deriving DecidableEq

/-- What a file holds. The code does not record `producedBy`, the job whose adapter wrote it. -/
structure Blob where
  bytes : List UInt8
  producedBy : String
  deriving DecidableEq

structure File where
  path : Path
  blob : Blob
  mtime : Int

/-- What `_read_meta` finds in a sidecar; the checksum without blanks around it. -/
structure Meta where
  format : String
  fingerprintHash : String
  modelHash : String
  tokenizerHash : String
  nCtx : Int
  kvLayoutVersion : String
  checksumSha256 : String
  deriving DecidableEq

/-! ### Files -/

structure Disk where
  files : Table Path File File.path
  /-- the sidecar of each path -/
  metas : Path → Option Meta

namespace Disk

def empty : Disk := ⟨.empty, fun _ => none⟩

def read (d : Disk) (p : Path) : Option Blob := (d.files.find p).map File.blob

def has (d : Disk) (p : Path) : Bool := (d.read p).isSome

def write (d : Disk) (p : Path) (blob : Blob) (mtime : Int) : Disk :=
  { d with files := d.files.insertOrReplace ⟨p, blob, mtime⟩ }

def unlink (d : Disk) (p : Path) : Disk :=
  { d with files := d.files.deleteWhere fun f => decide (f.path = p) }

def setMeta (d : Disk) (p : Path) (m : Option Meta) : Disk :=
  { d with metas := Function.update d.metas p m }

variable {d : Disk} {p p' : Path} {blob : Blob} {mtime : Int} {m : Option Meta} {P : Path → Blob → Prop}

theorem read_write : (d.write p blob mtime).read p' = if p = p' then some blob else d.read p' := by
  rw [read, write, Table.find_insertOrReplace]
  split_ifs <;> rfl

theorem read_unlink : (d.unlink p).read p' = if p' = p then none else d.read p' := by
  rw [read, unlink, Table.find_deleteKey]
  split_ifs <;> rfl

@[simp] theorem metas_write : (d.write p blob mtime).metas = d.metas := rfl

def All (P : Path → Blob → Prop) (d : Disk) : Prop := ∀ p blob, d.read p = some blob → P p blob

theorem All.write (h : d.All P) (hp : P p blob) : (d.write p blob mtime).All P := by
  intro p' blob' hread
  rw [read_write] at hread
  split_ifs at hread with heq
  · obtain rfl := heq
    cases hread
    exact hp
  · exact h p' blob' hread

theorem All.unlink (h : d.All P) : (d.unlink p).All P := by
  intro p' blob' hread
  rw [read_unlink] at hread
  split_ifs at hread
  exact h p' blob' hread

end Disk

/-! ### Metadata -/

structure Expected where
  fingerprintHash : String
  modelHash : String
  tokenizerHash : String
  kvLayoutVersion : String
  nCtx : Int

def metaFormat : String := "korith.kv_snapshot.v1"

def writeSnapshotMetadata (sha256 : List UInt8 → String) (q : Expected) (p : Path) (d : Disk) : Disk :=
  d.setMeta p <| some {
    format := metaFormat
    fingerprintHash := q.fingerprintHash
    modelHash := q.modelHash
    tokenizerHash := q.tokenizerHash
    nCtx := q.nCtx
    kvLayoutVersion := q.kvLayoutVersion
    checksumSha256 := ((d.read p).map fun blob => sha256 blob.bytes).getD "" }

def validateSnapshotMetadata (sha256 : List UInt8 → String) (q : Expected) (p : Path) (d : Disk) :
    Except String Meta :=
  match d.read p with
  | none => .error "snapshot_missing"
  | some blob =>
    match d.metas p with
    | none => .error "snapshot_meta_missing"
    | some m =>
      if m.format ≠ metaFormat then .error "snapshot_meta_format_invalid"
      else if m.fingerprintHash ≠ q.fingerprintHash then .error "snapshot_fingerprint_mismatch"
      else if m.modelHash ≠ q.modelHash then .error "snapshot_model_mismatch"
      else if m.tokenizerHash ≠ q.tokenizerHash then .error "snapshot_tokenizer_mismatch"
      else if m.kvLayoutVersion ≠ q.kvLayoutVersion then .error "snapshot_layout_mismatch"
      else if m.nCtx ≠ q.nCtx then .error "snapshot_ctx_mismatch"
      else if m.checksumSha256 = "" then .error "snapshot_checksum_missing"
      else if sha256 blob.bytes ≠ m.checksumSha256 then .error "snapshot_checksum_mismatch"
      else .ok m

/-! ### The cache directories of a worker -/

structure Worker where
  nodeId : String
  /-- the machine whose files it sees -/
  machine : String
  snapshotDir : Tier → String
  vramMaxBytes : Nat
  ramMaxBytes : Nat
  cacheMaxBytes : Tier → Nat
  promoteOnRestore : Bool
  /-- `snapshot_index is not None` -/
  hasIndex : Bool
  kvLayoutVersion : String

namespace Worker

variable (w : Worker)

def snapshotTierForSize (size : Nat) : Tier :=
  if size ≤ w.vramMaxBytes then .vram
  else if size ≤ w.ramMaxBytes then .ram
  else .nvme

def cachePath (fingerprintHash : String) (size : Nat) : Path :=
  .cached (w.snapshotDir (w.snapshotTierForSize size)) fingerprintHash

def binFiles (dir : String) (d : Disk) : List File :=
  d.files.rows.filter fun f =>
    match f.path with
    | .cached dir' _ => decide (dir' = dir)
    | .artifact _ => false

def fileName (f : File) : String :=
  match f.path with
  | .cached _ fingerprintHash => fingerprintHash
  | .artifact _ => "mf_snapshot"

def oldestFirst (files : List File) : List File :=
  files.insertionSort fun f f' => f.mtime < f'.mtime ∨ (f.mtime = f'.mtime ∧ fileName f ≤ fileName f')

def evict (maxBytes : Nat) (protectPath : Path) : List File → Nat → Disk → Disk
  | [], _, d => d
  | f :: files, total, d =>
    if f.path = protectPath then evict maxBytes protectPath files total d
    else
      let total := total - f.blob.bytes.length
      if total ≤ maxBytes then d.unlink f.path else evict maxBytes protectPath files total (d.unlink f.path)

def enforceSnapshotTierBudget (tier : Tier) (protectPath : Path) (d : Disk) : Disk :=
  if w.cacheMaxBytes tier = 0 then d
  else
    let files := binFiles (w.snapshotDir tier) d
    let total := (files.map fun f => f.blob.bytes.length).sum
    if total ≤ w.cacheMaxBytes tier then d
    else evict (w.cacheMaxBytes tier) protectPath (oldestFirst files) total d

variable {w} {maxBytes total : Nat} {tier : Tier} {protectPath : Path} {files : List File} {d : Disk}
  {P : Path → Blob → Prop}

theorem metas_evict : (evict maxBytes protectPath files total d).metas = d.metas := by
  fun_induction evict with
  | case1 => rfl
  | case2 total d f files hprotect ih => exact ih
  | case3 total d f files hprotect rest hfits => rfl
  | case4 total d f files hprotect rest hfits ih => exact ih

theorem read_evict : (evict maxBytes protectPath files total d).read protectPath = d.read protectPath := by
  fun_induction evict with
  | case1 => rfl
  | case2 total d f files hprotect ih => exact ih
  | case3 total d f files hprotect rest hfits => rw [Disk.read_unlink, if_neg (Ne.symm hprotect)]
  | case4 total d f files hprotect rest hfits ih => rw [ih, Disk.read_unlink, if_neg (Ne.symm hprotect)]

theorem all_evict (h : d.All P) : (evict maxBytes protectPath files total d).All P := by
  fun_induction evict with
  | case1 => exact h
  | case2 total d f files hprotect ih => exact ih h
  | case3 total d f files hprotect rest hfits => exact h.unlink
  | case4 total d f files hprotect rest hfits ih => exact ih h.unlink

theorem enforce_cases : w.enforceSnapshotTierBudget tier protectPath d = d ∨
    ∃ files total, w.enforceSnapshotTierBudget tier protectPath d =
      evict (w.cacheMaxBytes tier) protectPath files total d := by
  rw [enforceSnapshotTierBudget]
  by_cases hmax : w.cacheMaxBytes tier = 0
  · exact .inl (if_pos hmax)
  rw [if_neg hmax]
  dsimp only
  by_cases hfits : ((binFiles (w.snapshotDir tier) d).map fun f => f.blob.bytes.length).sum ≤ w.cacheMaxBytes tier
  · exact .inl (if_pos hfits)
  · exact .inr ⟨_, _, if_neg hfits⟩

theorem metas_enforce : (w.enforceSnapshotTierBudget tier protectPath d).metas = d.metas := by
  rcases enforce_cases (w := w) with h | ⟨files, total, h⟩ <;> rw [h]
  exact metas_evict

theorem read_enforce : (w.enforceSnapshotTierBudget tier protectPath d).read protectPath = d.read protectPath := by
  rcases enforce_cases (w := w) with h | ⟨files, total, h⟩ <;> rw [h]
  exact read_evict

theorem all_enforce (h : d.All P) : (w.enforceSnapshotTierBudget tier protectPath d).All P := by
  rcases enforce_cases (w := w) with heq | ⟨files, total, heq⟩ <;> rw [heq]
  · exact h
  · exact all_evict h

variable (w)

/-- The bytes go to the cache, the sidecar of the path is left as it is. -/
def cacheSnapshotFromBlob (fingerprintHash : String) (blob : Blob) (now : Int) (d : Disk) : Path × Disk :=
  let size := blob.bytes.length
  let out := w.cachePath fingerprintHash size
  (out, w.enforceSnapshotTierBudget (w.snapshotTierForSize size) out (d.write out blob now))

/-- The file goes to the cache with its sidecar, or without one if it has none. It raises without the file. -/
def cacheSnapshotFromFile (fingerprintHash : String) (source : Path) (d : Disk) : Option (Path × Disk) :=
  (d.files.find source).map fun f =>
    let size := f.blob.bytes.length
    let out := w.cachePath fingerprintHash size
    -- `copy2` keeps the time of modification
    let copied := if source = out then d else d.write out f.blob f.mtime
    (out, w.enforceSnapshotTierBudget (w.snapshotTierForSize size) out (copied.setMeta out (d.metas source)))

end Worker

/-! ### The shared stores -/

inductive SnapshotId
  | job (jobId : String)
  /-- `cache:` and the head of the fingerprint, which is part of the key of the row as well -/
  | cache (fingerprintHash : String)
  deriving DecidableEq

structure Location where
  fingerprintHash : String
  orgId : String
  nodeId : String
  snapshotId : SnapshotId
  snapshotPath : Path
  lastUsedAt : Int

def Location.used (now : Int) (r : Location) : Location := { r with lastUsedAt := now }

def Location.key (r : Location) : String × String × String × SnapshotId :=
  (r.fingerprintHash, r.orgId, r.nodeId, r.snapshotId)

structure RestoreRow where
  fingerprintHash : String
  snapshotPath : Path

structure SnapshotRow where
  jobId : String
  fingerprintHash : String
  snapshotPath : Path

structure Job where
  orgId : String
  fingerprintHash : String
  modelHash : String
  tokenizerHash : String
  nCtx : Int

/-- What does not change: the jobs of the ledger, the directory of the artifact store, the workers, the tiers of the
paths as the index sees them, the checksum, and what `json.loads` makes of bytes that are UTF-8. -/
structure Env where
  jobs : String → Job
  cwd : Place
  baseDir : Korith.Path
  workers : String → Worker
  tierRank : Path → Nat
  sha256 : List UInt8 → String
  loads : List UInt8 → Option Json

def Env.isKvTransferSnapshot (env : Env) (bytes : List UInt8) : Bool :=
  match env.loads bytes with
  | some (.obj payload) =>
    let has := fun key : String => (payload.lookup (pyStr key)).isSome
    match payload.lookup (pyStr "kv_transfer_params") with
    | some (.obj (_ :: _)) => true
    | _ => has "connector" && (has "kv_role" || has "cache_id")
  | _ => false

inductive Stage
  | resolved
  | promoted
  | transferred
  | validated
  deriving DecidableEq

structure Call where
  jobId : String
  mfSnapshotIn : Option Path
  stage : Stage
  /-- the events of the job contain `CORRUPTION_DETECTED` -/
  corruption : Bool
  deriving DecidableEq

structure Cluster where
  disk : String → Disk
  restoreStore : Table String RestoreRow RestoreRow.fingerprintHash
  index : Table (String × String × String × SnapshotId) Location Location.key
  snapshots : Table String SnapshotRow SnapshotRow.jobId
  /-- what each worker is at -/
  working : String → Option Call
  /-- what the adapters were given: the job, and the content of `mf_snapshot_in` at that time -/
  reads : List (String × Blob)

structure Node where
  nodeId : String
  machine : String

namespace Cluster

def start : Cluster := ⟨fun _ => .empty, .empty, .empty, .empty, fun _ => none, []⟩

def setDisk (machine : String) (d : Disk) (c : Cluster) : Cluster :=
  { c with disk := Function.update c.disk machine d }

def setCall (worker : String) (call : Option Call) (c : Cluster) : Cluster :=
  { c with working := Function.update c.working worker call }

def setRestore (fingerprintHash : String) (p : Path) (c : Cluster) : Cluster :=
  { c with restoreStore := c.restoreStore.insertOrReplace ⟨fingerprintHash, p⟩ }

def getRestore (fingerprintHash : String) (c : Cluster) : Option Path :=
  (c.restoreStore.find fingerprintHash).map RestoreRow.snapshotPath

def upsertLocation (w : Worker) (fingerprintHash orgId : String) (snapshotId : SnapshotId) (p : Path) (now : Int)
    (c : Cluster) : Cluster :=
  if w.hasIndex then
    { c with index := c.index.insertOrReplace ⟨fingerprintHash, orgId, w.nodeId, snapshotId, p, now⟩ }
  else c

/-- The rows of the fingerprint and the organization, by tier, then the last used first. -/
def getLocations (tierRank : Path → Nat) (fingerprintHash orgId : String) (c : Cluster) : List Location :=
  (c.index.rows.filter fun r => decide (r.fingerprintHash = fingerprintHash ∧ r.orgId = orgId)).insertionSort
    fun r r' => tierRank r.snapshotPath < tierRank r'.snapshotPath ∨
      (tierRank r.snapshotPath = tierRank r'.snapshotPath ∧ r'.lastUsedAt ≤ r.lastUsedAt)

/-- The file of the first row of the node whose path exists there. -/
def fetchSnapshot (tierRank : Path → Nat) (node : Node) (fingerprintHash orgId : String) (c : Cluster) :
    Option (Path × Blob) :=
  let rows := c.getLocations tierRank fingerprintHash orgId
  match rows.find? fun r => decide (r.nodeId = node.nodeId) && (c.disk node.machine).has r.snapshotPath with
  | none => none
  | some r => ((c.disk node.machine).read r.snapshotPath).map fun blob => (r.snapshotPath, blob)

/-- The organization only matters for the index. -/
def resolveSnapshotInputPath (tierRank : Path → Nat) (w : Worker) (fingerprintHash orgId : String)
    (candidatePath : Option Path) (now : Int) (c : Cluster) : Option Path × Cluster :=
  let d := c.disk w.machine
  match candidatePath.filter d.has with
  | some p => (some p, c)
  | none =>
    if ¬ w.hasIndex then (none, c)
    else
      let rows := c.getLocations tierRank fingerprintHash orgId
      match rows.find? fun r => (decide (r.nodeId = "") || decide (r.nodeId = w.nodeId)) && d.has r.snapshotPath with
      | some r => (some r.snapshotPath, c.setRestore fingerprintHash r.snapshotPath)
      | none =>
        match rows.find? fun r => d.has r.snapshotPath with
        | some r =>
          (some r.snapshotPath,
            (c.setRestore fingerprintHash r.snapshotPath).upsertLocation w fingerprintHash orgId r.snapshotId
              r.snapshotPath now)
        | none => (none, c)

/-- The file `p` is in the cache of the worker as `out`: the restore store and the index are told. -/
def publish (w : Worker) (fingerprintHash orgId : String) (snapshotId : SnapshotId) (out : Path) (d : Disk) (now : Int)
    (c : Cluster) : Cluster :=
  ((c.setDisk w.machine d).setRestore fingerprintHash out).upsertLocation w fingerprintHash orgId snapshotId out now

variable {c : Cluster} {w : Worker} {node : Node} {fingerprintHash orgId : String} {snapshotId : SnapshotId}
  {p : Path} {blob : Blob} {d : Disk} {now : Int} {worker : String} {tierRank : Path → Nat}

theorem setDisk_disk {machine machine' : String} :
    (c.setDisk machine d).disk machine' = if machine' = machine then d else c.disk machine' :=
  Function.update_apply ..

theorem setCall_working {worker' : String} {call : Option Call} :
    (c.setCall worker call).working worker' = if worker' = worker then call else c.working worker' :=
  Function.update_apply ..

theorem mem_getLocations {r : Location} : r ∈ c.getLocations tierRank fingerprintHash orgId ↔
      r ∈ c.index ∧ r.fingerprintHash = fingerprintHash ∧ r.orgId = orgId := by
  rw [getLocations, List.mem_insertionSort, List.mem_filter, decide_eq_true_eq, Table.mem_rows]

theorem upsertLocation_disk : (c.upsertLocation w fingerprintHash orgId snapshotId p now).disk = c.disk := by
  unfold upsertLocation
  split_ifs <;> rfl

theorem upsertLocation_restoreStore :
    (c.upsertLocation w fingerprintHash orgId snapshotId p now).restoreStore = c.restoreStore := by
  unfold upsertLocation
  split_ifs <;> rfl

theorem publish_disk :
    (c.publish w fingerprintHash orgId snapshotId p d now).disk = Function.update c.disk w.machine d := by
  rw [publish, upsertLocation_disk, setRestore, setDisk]

theorem publish_getRestore :
    (c.publish w fingerprintHash orgId snapshotId p d now).getRestore fingerprintHash = some p := by
  rw [getRestore, publish, upsertLocation_restoreStore, setRestore, Table.find_insertOrReplace, if_pos rfl,
    Option.map_some]

theorem fetchSnapshot_eq_some (h : c.fetchSnapshot tierRank node fingerprintHash orgId = some (p, blob)) :
    (c.disk node.machine).read p = some blob ∧
      ∃ r ∈ c.index, r.fingerprintHash = fingerprintHash ∧ r.snapshotPath = p := by
  simp only [fetchSnapshot] at h
  split at h
  · cases h
  · rename_i r hr
    obtain ⟨blob', hread, heq⟩ := Option.map_eq_some_iff.1 h
    obtain ⟨rfl, rfl⟩ := Prod.mk.inj heq
    obtain ⟨hmem, hfp, -⟩ := mem_getLocations.1 (List.mem_of_find?_eq_some hr)
    exact ⟨hread, r, hmem, hfp, rfl⟩

def maybePromoteSnapshotInput (w : Worker) (fingerprintHash orgId : String) (p : Path) (copies : Bool) (now : Int)
    (c : Cluster) : Path × Cluster :=
  match (w.cacheSnapshotFromFile fingerprintHash p (c.disk w.machine)).filter fun _ => copies with
  | none => (p, c)
  | some (out, d) => (out, c.publish w fingerprintHash orgId (.cache fingerprintHash) out d now)

/-- The transfer from another node; without a `node` none is requested, or it fails. -/
def transferSnapshot (tierRank : Path → Nat) (w : Worker) (jobId fingerprintHash orgId : String) (node : Option Node)
    (now : Int) (c : Cluster) : Option Path × Cluster :=
  match node.bind fun n => c.fetchSnapshot tierRank n fingerprintHash orgId with
  | none => (none, c)
  | some (_, blob) =>
    let (out, d) := w.cacheSnapshotFromBlob fingerprintHash blob now (c.disk w.machine)
    (some out, c.publish w fingerprintHash orgId (.job jobId) out d now)

end Cluster

def Env.expected (env : Env) (w : Worker) (jobId : String) : Expected :=
  let job := env.jobs jobId
  ⟨job.fingerprintHash, job.modelHash, job.tokenizerHash, w.kvLayoutVersion, job.nCtx⟩

/-- The check before the adapter runs: the input that is left, and whether `CORRUPTION_DETECTED` is recorded. -/
def checkInput (env : Env) (caps : Capabilities) (q : Expected) (mfSnapshotIn : Option Path) (d : Disk) :
    Option Path × Bool :=
  match mfSnapshotIn with
  | none => (none, false)
  | some p =>
    if ¬ (caps.kvReplay && caps.deterministicSeeding) then (some p, false)
    else if ((d.read p).map fun blob => env.isKvTransferSnapshot blob.bytes) = some true then (some p, false)
    else
      match validateSnapshotMetadata env.sha256 q p d with
      | .ok _ => (some p, false)
      | .error _ => (none, true)

theorem checkInput_cases (env : Env) (caps : Capabilities) (q : Expected) (p : Path) (d : Disk) :
    (checkInput env caps q (some p) d = (some p, false) ∧
      ((caps.kvReplay && caps.deterministicSeeding) = false ∨
        ((d.read p).map fun blob => env.isKvTransferSnapshot blob.bytes) = some true ∨
        ∃ m, validateSnapshotMetadata env.sha256 q p d = .ok m)) ∨
    (checkInput env caps q (some p) d = (none, true) ∧
      ¬ ((caps.kvReplay && caps.deterministicSeeding) = false ∨
        ((d.read p).map fun blob => env.isKvTransferSnapshot blob.bytes) = some true ∨
        ∃ m, validateSnapshotMetadata env.sha256 q p d = .ok m)) := by
  by_cases hcaps : (caps.kvReplay && caps.deterministicSeeding) = true
  · by_cases hnative : ((d.read p).map fun blob => env.isKvTransferSnapshot blob.bytes) = some true
    · exact .inl ⟨by rw [checkInput, if_neg (not_not.2 hcaps), if_pos hnative], .inr (.inl hnative)⟩
    · cases hvalid : validateSnapshotMetadata env.sha256 q p d with
      | ok m =>
        refine .inl ⟨?_, .inr (.inr ⟨m, rfl⟩)⟩
        rw [checkInput, if_neg (not_not.2 hcaps), if_neg hnative, hvalid]
      | error reason =>
        refine .inr ⟨?_, ?_⟩
        · rw [checkInput, if_neg (not_not.2 hcaps), if_neg hnative, hvalid]
        · rintro (hoff | hn | ⟨m, hm⟩)
          · rw [hcaps] at hoff
            cases hoff
          · exact hnative hn
          · cases hm
  · exact .inl ⟨by rw [checkInput, if_pos hcaps], .inl (Bool.eq_false_iff.2 hcaps)⟩

/-! ### Events -/

inductive Event
  /-- a worker begins with a job and resolves the path of its snapshot -/
  | take (worker jobId : String) (now : Int)
  | promote (worker : String) (copies : Bool) (now : Int)
  | transfer (worker : String) (node : Option Node) (now : Int)
  | validate (worker : String) (caps : Capabilities)
  /-- the adapter is called with `mf_snapshot_in`, and may leave an `mf_snapshot` file -/
  | run (worker : String) (writes : Option (List UInt8)) (now : Int)
  /-- `mark_used`, behind a run that reports a hit -/
  | markUsed (worker : String) (now : Int)
  /-- the snapshot that the adapter left is recorded; the sidecar and the copy may fail -/
  | finish (worker : String) (describes copies : Bool) (now : Int)
  /-- the adapter or the worker fails -/
  | drop (worker : String)
  /-- `ClusterRouter.restore` -/
  | restore (jobId : String) (orgId : Option String)

namespace Cluster

variable (env : Env)

def callAt (worker : String) (stage : Stage) (c : Cluster) : Option Call :=
  (c.working worker).filter fun call => decide (call.stage = stage)

theorem callAt_eq_some_iff {stage : Stage} {c : Cluster} {call : Call} :
    c.callAt worker stage = some call ↔ c.working worker = some call ∧ call.stage = stage := by
  rw [callAt, Option.filter_eq_some_iff, decide_eq_true_eq]

def take (worker jobId : String) (now : Int) (c : Cluster) : Cluster :=
  let job := env.jobs jobId
  let (mfSnapshotIn, c) := c.resolveSnapshotInputPath env.tierRank (env.workers worker) job.fingerprintHash job.orgId
    (c.getRestore job.fingerprintHash) now
  c.setCall worker (some ⟨jobId, mfSnapshotIn, .resolved, false⟩)

def promote (worker : String) (call : Call) (copies : Bool) (now : Int) (c : Cluster) : Cluster :=
  let job := env.jobs call.jobId
  let w := env.workers worker
  match call.mfSnapshotIn.filter fun _ => w.promoteOnRestore with
  | none => c.setCall worker (some { call with stage := .promoted })
  | some p =>
    let (p, c) := c.maybePromoteSnapshotInput w job.fingerprintHash job.orgId p copies now
    c.setCall worker (some { call with mfSnapshotIn := some p, stage := .promoted })

def transfer (worker : String) (call : Call) (node : Option Node) (now : Int) (c : Cluster) : Cluster :=
  let job := env.jobs call.jobId
  match call.mfSnapshotIn with
  | some _ => c.setCall worker (some { call with stage := .transferred })
  | none =>
    let (p, c) := c.transferSnapshot env.tierRank (env.workers worker) call.jobId job.fingerprintHash job.orgId node now
    c.setCall worker (some { call with mfSnapshotIn := p, stage := .transferred })

def validate (worker : String) (call : Call) (caps : Capabilities) (c : Cluster) : Cluster :=
  let w := env.workers worker
  let (p, corruption) := checkInput env caps (env.expected w call.jobId) call.mfSnapshotIn (c.disk w.machine)
  c.setCall worker (some { call with mfSnapshotIn := p, stage := .validated, corruption })

def artifactDir (jobId : String) : Place :=
  (Artifacts.initJob env.baseDir jobId.toList (env.jobs jobId).orgId.toList).jobDir.resolve env.cwd

def artifactPath (jobId : String) : Path := .artifact (artifactDir env jobId)

def run (worker : String) (call : Call) (writes : Option (List UInt8)) (now : Int) (c : Cluster) : Cluster :=
  let machine := (env.workers worker).machine
  let d := c.disk machine
  let c := { c with reads := (call.mfSnapshotIn.bind d.read).toList.map (Prod.mk call.jobId) ++ c.reads }
  match writes with
  | none => c
  | some bytes => c.setDisk machine (d.write (artifactPath env call.jobId) ⟨bytes, call.jobId⟩ now)

def markUsed (worker : String) (call : Call) (now : Int) (c : Cluster) : Cluster :=
  let w := env.workers worker
  let job := env.jobs call.jobId
  let rows := if w.hasIndex then c.getLocations env.tierRank job.fingerprintHash job.orgId else []
  match (rows.find? fun r => decide (r.nodeId = "" ∨ r.nodeId = w.nodeId)).or rows.head? with
  | none => c
  | some first =>
    { c with index := c.index.updateWhere (fun r => decide (r.key = first.key)) (Location.used now) fun _ => rfl }

/-- Without an `mf_snapshot` file nothing is recorded; a second row for the job raises. -/
def finish (worker : String) (call : Call) (describes copies : Bool) (now : Int) (c : Cluster) : Cluster :=
  let w := env.workers worker
  let job := env.jobs call.jobId
  let p := artifactPath env call.jobId
  let d := c.disk w.machine
  if ¬ d.has p ∨ (c.snapshots.find call.jobId).isSome then c.setCall worker none
  else
    let c := { c with snapshots := c.snapshots.insertOrReplace ⟨call.jobId, job.fingerprintHash, p⟩ }
    let d := if describes then writeSnapshotMetadata env.sha256 (env.expected w call.jobId) p d else d
    let (out, d) := ((w.cacheSnapshotFromFile job.fingerprintHash p d).filter fun _ => copies).getD (p, d)
    (c.publish w job.fingerprintHash job.orgId (.job call.jobId) out d now).setCall worker none

def restore (jobId : String) (orgId : Option String) (c : Cluster) : Cluster :=
  let job := env.jobs jobId
  if orgId.all fun o => decide (o = job.orgId) then
    match c.snapshots.find jobId with
    | none => c
    | some snap =>
      if snap.fingerprintHash = job.fingerprintHash then c.setRestore snap.fingerprintHash snap.snapshotPath else c
  else c

def step (c : Cluster) : Event → Option Cluster
  | .take w jobId now => if (c.working w).isSome then none else some (c.take env w jobId now)
  | .promote w copies now => (c.callAt w .resolved).map fun call => c.promote env w call copies now
  | .transfer w node now => (c.callAt w .promoted).map fun call => c.transfer env w call node now
  | .validate w caps => (c.callAt w .transferred).map fun call => c.validate env w call caps
  | .run w writes now => (c.callAt w .validated).map fun call => c.run env w call writes now
  | .markUsed w now => (c.callAt w .validated).map fun call => c.markUsed env w call now
  | .finish w describes copies now => (c.callAt w .validated).map fun call => c.finish env w call describes copies now
  | .drop w => some (c.setCall w none)
  | .restore jobId orgId => some (c.restore env jobId orgId)

end Cluster

end Korith.Snapshots
