import Korith.Lib.Json
import Korith.Lib.Machine
import Korith.Lib.RowNumber
import Korith.Lib.Table

/-!
# The two stores of the ledger

`SQLiteLedgerStore` and `PostgresLedgerStore` send the same statements to tables of the same columns. They differ in
how a jobspec is serialized, in what `update_status` checks, and in the values that the databases take: a column
`INTEGER` of Postgres has 32 bits, no text of Postgres has a NUL, SQLite keeps a NaN as `NULL`, and a negative `LIMIT`
is no limit for SQLite and an error for Postgres.

A statement that raises leaves the tables as they were. The result of a `SELECT` with `ORDER BY` is any order of its
rows in which the sort keys fall; `Selection` is what determines it.
-/

namespace Korith.LedgerStore

/-! ### Tables -/

structure JobRow where
  jobId : PyStr
  createdAt : PyStr
  orgId : PyStr
  jobspecJson : PyStr
  fingerprintJson : PyStr
  promptHash : PyStr
  fingerprintHash : PyStr
  idempotencyKey : Option PyStr
  status : PyStr
  immutableHash : PyStr
  deriving DecidableEq

structure RunRow where
  runId : PyStr
  jobId : PyStr
  orgId : PyStr
  startedAt : PyStr
  finishedAt : PyStr
  exitCode : Int
  metricsPath : PyStr
  eventsPath : PyStr
  outputPath : PyStr
  logPath : PyStr
  deriving DecidableEq

structure SnapshotRow where
  snapshotId : PyStr
  jobId : PyStr
  orgId : PyStr
  fingerprintHash : PyStr
  snapshotPath : PyStr
  createdAt : PyStr
  deriving DecidableEq

structure ApiKeyRow where
  keyId : PyStr
  keyHash : PyStr
  orgId : PyStr
  createdAt : PyStr
  revokedAt : Option PyStr
  rateLimitTpm : Int
  rateLimitRpm : Int
  permissionsJson : PyStr
  deriving DecidableEq

structure ReplayGovernanceRow (R : Type) where
  fingerprintHash : PyStr
  replayDisabled : Int
  disabledReason : Option PyStr
  disabledAt : Option PyStr
  cooldownUntil : R
  negativeRoiStreak : Int
  corruptionDetected : Int
  restoreGuardDisabled : Int
  updatedAt : PyStr
  deriving DecidableEq

structure SpecGovernanceRow (R : Type) where
  fingerprintHash : PyStr
  orgId : PyStr
  specDisabled : Int
  reason : Option PyStr
  cooldownUntil : R
  badAcceptStreak : Int
  updatedAt : PyStr
  deriving DecidableEq

structure LocationRow where
  fingerprintHash : PyStr
  snapshotId : PyStr
  orgId : PyStr
  nodeId : PyStr
  workerId : Option PyStr
  snapshotPath : PyStr
  sizeBytes : Int
  createdAt : PyStr
  lastUsedAt : PyStr
  deriving DecidableEq

def LocationRow.key (r : LocationRow) : PyStr × PyStr × PyStr × PyStr :=
  (r.fingerprintHash, r.orgId, r.nodeId, r.snapshotId)

def LocationRow.group (r : LocationRow) : PyStr × PyStr := (r.fingerprintHash, r.orgId)

abbrev Locations : Type := Table (PyStr × PyStr × PyStr × PyStr) LocationRow LocationRow.key

structure Tables (R : Type) where
  jobs : Table PyStr JobRow JobRow.jobId
  runs : Table PyStr RunRow RunRow.runId
  snapshots : Table PyStr SnapshotRow SnapshotRow.snapshotId
  apiKeys : Table PyStr ApiKeyRow ApiKeyRow.keyId
  replayGovernance : Table PyStr (ReplayGovernanceRow R) ReplayGovernanceRow.fingerprintHash
  specGovernance : Table PyStr (SpecGovernanceRow R) SpecGovernanceRow.fingerprintHash
  locations : Locations

def Tables.empty {R : Type} : Tables R := ⟨.empty, .empty, .empty, .empty, .empty, .empty, .empty⟩

/-! ### The databases -/

inductive Backend
  | sqlite
  | postgres
  deriving DecidableEq

/-- A value that a statement is given, with the type of its column. -/
inductive Param (R : Type)
  | text (s : PyStr)
  | nullableText (s : Option PyStr)
  | integer (n : Int)
  | bigint (n : Int)
  /-- a column that is `NOT NULL` -/
  | real (x : R)
  | limit (n : Int)

structure Env (R : Type) where
  /-- what a driver and its database take for a column; assumed of it are two laws about texts -/
  accepts : Backend → Param R → Bool
  sqlite_text (s : PyStr) : accepts .sqlite (.text s) = encodable s
  postgres_text (s : PyStr) : accepts .postgres (.text s) = (encodable s && nulFree s)
  /-- hex digest of the UTF-8 bytes of a text -/
  sha256 : PyStr → PyStr
  /-- `json.loads` -/
  loads : PyStr → Json
  /-- how the Postgres database orders texts -/
  collation : PyStr → PyStr → Bool

def fits32 (n : Int) : Bool := decide (-0x80000000 ≤ n) && decide (n < 0x80000000)

def fits64 (n : Int) : Bool := decide (-0x8000000000000000 ≤ n) && decide (n < 0x8000000000000000)

variable {R : Type} (env : Env R)

/-- `Env.accepts` as the databases document it. -/
def documented (isNaN : R → Bool) : Backend → Param R → Bool
  | .sqlite, .text s => encodable s
  | .sqlite, .nullableText s => s.all encodable
  | .sqlite, .integer n => fits64 n
  | .sqlite, .bigint n => fits64 n
  | .sqlite, .real x => !isNaN x
  | .sqlite, .limit n => fits64 n
  | .postgres, .text s => encodable s && nulFree s
  | .postgres, .nullableText s => s.all fun s => encodable s && nulFree s
  | .postgres, .integer n => fits32 n
  | .postgres, .bigint n => fits64 n
  | .postgres, .real _ => true
  | .postgres, .limit n => fits64 n && decide (0 ≤ n)

def order : Backend → PyStr → PyStr → Bool
  | .sqlite => strLe
  | .postgres => env.collation

/-- `json.dumps(..., ensure_ascii=False)` in `db.py`; `postgres_store.py` leaves the argument out. -/
def Backend.ensureAscii : Backend → Bool
  | .sqlite => false
  | .postgres => true

/-- Rows with their sort keys, of which the first `limit` in falling order are returned. -/
structure Selection (α : Type) where
  rows : List (PyStr × α)
  order : PyStr → PyStr → Bool
  limit : Option Nat

def Selection.Returns {α : Type} (q : Selection α) (out : List α) : Prop :=
  ∃ sorted : List (PyStr × α), sorted.Perm q.rows ∧ sorted.Pairwise (fun a b => q.order b.1 a.1 = true) ∧
    out = ((match q.limit with | none => sorted | some n => sorted.take n).map Prod.snd)

inductive Error
  | unicodeEncodeError
  /-- a value that the database does not take -/
  | dataError
  | integrityError
  | valueError (message : String)
  deriving DecidableEq

structure JobView where
  jobId : PyStr
  createdAt : PyStr
  orgId : PyStr
  jobspec : Json
  fingerprint : Json
  promptHash : PyStr
  fingerprintHash : PyStr
  idempotencyKey : Option PyStr
  status : PyStr

structure JobListing where
  jobId : PyStr
  createdAt : PyStr
  status : PyStr
  orgId : PyStr

structure SnapshotView where
  snapshotId : PyStr
  fingerprintHash : PyStr
  snapshotPath : PyStr
  createdAt : PyStr
  orgId : PyStr

structure RunView where
  runId : PyStr
  startedAt : PyStr
  finishedAt : PyStr
  exitCode : Int
  metricsPath : PyStr
  eventsPath : PyStr
  outputPath : PyStr
  logPath : PyStr
  orgId : PyStr

structure ApiKeyView where
  keyId : PyStr
  orgId : PyStr
  createdAt : PyStr
  revokedAt : Option PyStr
  rateLimitTpm : Int
  rateLimitRpm : Int
  permissionsJson : PyStr

/-- What an operation returns. One of `LIMIT 1` returns the row of its selection, or `None`. -/
inductive Answer (R : Type)
  | none
  | bool (b : Bool)
  | job (row : Option JobView)
  | apiKey (row : Option ApiKeyRow)
  | replayGovernance (row : Option (ReplayGovernanceRow R))
  | specGovernance (row : Option (SpecGovernanceRow R))
  | jobId (q : Selection PyStr)
  | snapshot (q : Selection SnapshotView)
  | run (q : Selection RunView)
  | jobs (q : Selection JobListing)
  | apiKeys (q : Selection ApiKeyView)
  | replayGovernances (q : Selection (ReplayGovernanceRow R))
  | specGovernances (q : Selection (SpecGovernanceRow R))
  | locations (q : Selection LocationRow)

/-- The values that a statement is given, when it breaks a key, and what it does otherwise. -/
structure Statement (R : Type) where
  params : List (Param R)
  clash : Tables R → Bool
  effect : Tables R → Answer R × Tables R

variable (b : Backend)

def takes (params : List (Param R)) : Bool := params.all (env.accepts b)

def execute (st : Statement R) (t : Tables R) : Except Error (Answer R × Tables R) :=
  if takes env b st.params then
    if st.clash t then .error .integrityError else .ok (st.effect t)
  else .error .dataError

def select (params : List (Param R)) (answer : Tables R → Answer R) : Statement R :=
  ⟨params, fun _ => false, fun t => (answer t, t)⟩

/-- An `UPDATE`, or an `INSERT` that updates the row of its key. -/
def change (params : List (Param R)) (effect : Tables R → Tables R) : Statement R :=
  ⟨params, fun _ => false, fun t => (.none, effect t)⟩

def insert (params : List (Param R)) (clash : Tables R → Bool) (effect : Tables R → Tables R) : Statement R :=
  ⟨params, clash, fun t => (.none, effect t)⟩

def sorted {ρ α : Type} (b : Backend) (rows : List ρ) (key : ρ → PyStr) (view : ρ → α) (limit : Option Nat) :
    Selection α :=
  ⟨rows.map fun r => (key r, view r), order env b, limit⟩

/-- `LIMIT n`; SQLite takes a negative number for no limit. -/
def limitRows (n : Int) : Option Nat := if n < 0 then .none else some n.toNat

def given : Option PyStr → Option PyStr
  | some (c :: s) => some (c :: s)
  | _ => .none

def orgParam (orgId : Option PyStr) : List (Param R) := (given orgId).toList.map Param.text

def ofOrg (orgId : Option PyStr) (rowOrg : PyStr) : Bool := (given orgId).all fun org => decide (rowOrg = org)

/-! ### Jobs -/

structure JobArgs where
  jobId : PyStr
  createdAt : PyStr
  jobspec : Json
  fingerprint : Json
  promptHash : PyStr
  fingerprintHash : PyStr
  idempotencyKey : Option PyStr
  status : PyStr
  orgId : PyStr

def jobRow (a : JobArgs) : JobRow :=
  ⟨a.jobId, a.createdAt, a.orgId, a.jobspec.dumps b.ensureAscii false, a.fingerprint.dumps b.ensureAscii false,
    a.promptHash, a.fingerprintHash, a.idempotencyKey, a.status, env.sha256 (a.jobspec.dumps b.ensureAscii true)⟩

def JobRow.params (row : JobRow) : List (Param R) :=
  [.text row.jobId, .text row.createdAt, .text row.orgId, .text row.jobspecJson, .text row.fingerprintJson,
    .text row.promptHash, .text row.fingerprintHash, .nullableText row.idempotencyKey, .text row.status,
    .text row.immutableHash]

def insertJobRow (row : JobRow) : Statement R :=
  insert row.params (fun t => (t.jobs.find row.jobId).isSome) fun t => { t with jobs := t.jobs.insertOrReplace row }

/-- The text is encoded for the hash before anything is sent to the database. -/
def insertJob (a : JobArgs) (t : Tables R) : Except Error (Answer R × Tables R) :=
  if encodable (a.jobspec.dumps b.ensureAscii true) then execute env b (insertJobRow (jobRow env b a)) t
  else .error .unicodeEncodeError

def statusOrder : List PyStr := [pyStr "QUEUED", pyStr "RUNNING", pyStr "SUCCEEDED", pyStr "FAILED"]

variable (jobId : PyStr)

def setStatus (newStatus : PyStr) (t : Tables R) : Tables R :=
  { t with
    jobs := t.jobs.updateWhere (fun r => decide (r.jobId = jobId)) (fun r => { r with status := newStatus })
      fun _ => rfl }

def Sqlite.updateStatus (newStatus : PyStr) (t : Tables R) : Except Error (Answer R × Tables R) :=
  if newStatus ∉ statusOrder then .error (.valueError "invalid status")
  else if takes env .sqlite [.text jobId] then
    match t.jobs.find jobId with
    | none => .error (.valueError "job not found")
    | some row =>
      if row.status = newStatus then .ok (.none, t)
      else if row.status ∉ statusOrder then .error (.valueError "invalid current status")
      else if statusOrder.idxOf newStatus < statusOrder.idxOf row.status then
        .error (.valueError "status regression not allowed")
      else execute env .sqlite (change [.text newStatus, .text jobId] (setStatus jobId newStatus)) t
  else .error .dataError

def Postgres.updateStatus (newStatus : PyStr) (t : Tables R) : Except Error (Answer R × Tables R) :=
  execute env .postgres (change [.text newStatus, .text jobId] (setStatus jobId newStatus)) t

def getJob : Statement R :=
  select [.text jobId] fun t => .job <| (t.jobs.find jobId).map fun r =>
    ⟨r.jobId, r.createdAt, r.orgId, env.loads r.jobspecJson, env.loads r.fingerprintJson, r.promptHash,
      r.fingerprintHash, r.idempotencyKey, r.status⟩

variable (fingerprintHash : PyStr)

def findJobByFingerprint (orgId : Option PyStr) : Statement R :=
  select (.text fingerprintHash :: orgParam orgId) fun t =>
    let rows := t.jobs.rows.filter fun r => decide (r.fingerprintHash = fingerprintHash) && ofOrg orgId r.orgId
    .jobId (sorted env b rows JobRow.createdAt JobRow.jobId (some 1))

/-- An empty key is no key, and no statement is sent. -/
def findJobByIdempotency (idempotencyKey : PyStr) (orgId : Option PyStr) : Statement R :=
  if idempotencyKey = [] then select [] fun _ => .jobId ⟨[], order env b, some 1⟩
  else
    select (.text idempotencyKey :: orgParam orgId) fun t =>
      let rows := t.jobs.rows.filter fun r =>
        decide (r.idempotencyKey = some idempotencyKey) && ofOrg orgId r.orgId
      .jobId (sorted env b rows JobRow.createdAt JobRow.jobId (some 1))

def listJobs (limit : Int) (orgId : Option PyStr) : Statement R :=
  select (orgParam orgId ++ [.limit limit]) fun t =>
    .jobs (sorted env b (t.jobs.rows.filter fun r => ofOrg orgId r.orgId) JobRow.createdAt
      (fun r => ⟨r.jobId, r.createdAt, r.status, r.orgId⟩) (limitRows limit))

/-! ### Runs and snapshots -/

def insertRun (row : RunRow) : Statement R :=
  insert
    [.text row.runId, .text row.jobId, .text row.orgId, .text row.startedAt, .text row.finishedAt,
      .integer row.exitCode, .text row.metricsPath, .text row.eventsPath, .text row.outputPath, .text row.logPath]
    (fun t => (t.runs.find row.runId).isSome) fun t => { t with runs := t.runs.insertOrReplace row }

def getLatestRun : Statement R :=
  select [.text jobId] fun t =>
    .run (sorted env b (t.runs.rows.filter fun r => decide (r.jobId = jobId)) RunRow.startedAt
      (fun r => ⟨r.runId, r.startedAt, r.finishedAt, r.exitCode, r.metricsPath, r.eventsPath, r.outputPath, r.logPath,
        r.orgId⟩) (some 1))

def insertSnapshot (row : SnapshotRow) : Statement R :=
  insert
    [.text row.snapshotId, .text row.jobId, .text row.orgId, .text row.fingerprintHash, .text row.snapshotPath,
      .text row.createdAt]
    (fun t => (t.snapshots.find row.snapshotId).isSome) fun t => { t with snapshots := t.snapshots.insertOrReplace row }

def getSnapshotForJob : Statement R :=
  select [.text jobId] fun t =>
    .snapshot (sorted env b (t.snapshots.rows.filter fun r => decide (r.jobId = jobId)) SnapshotRow.createdAt
      (fun r => ⟨r.snapshotId, r.fingerprintHash, r.snapshotPath, r.createdAt, r.orgId⟩) (some 1))

/-! ### API keys -/

/-- `key_id` is the primary key, `key_hash` is unique. -/
def createApiKey (keyId keyHash orgId createdAt : PyStr) (rateLimitTpm rateLimitRpm : Int) (permissionsJson : PyStr) :
    Statement R :=
  insert
    [.text keyId, .text keyHash, .text orgId, .text createdAt, .integer rateLimitTpm, .integer rateLimitRpm,
      .text permissionsJson]
    (fun t => (t.apiKeys.find keyId).isSome || t.apiKeys.rows.any fun r => decide (r.keyHash = keyHash))
    fun t => { t with
      apiKeys := t.apiKeys.insertOrReplace
        ⟨keyId, keyHash, orgId, createdAt, .none, rateLimitTpm, rateLimitRpm, permissionsJson⟩ }

def revokeApiKey (keyId revokedAt : PyStr) : Statement R where
  params := [.text revokedAt, .text keyId]
  clash _ := false
  effect t :=
    let hit (r : ApiKeyRow) : Bool := decide (r.keyId = keyId) && r.revokedAt.isNone
    (.bool (t.apiKeys.rows.any hit),
      { t with apiKeys := t.apiKeys.updateWhere hit (fun r => { r with revokedAt := some revokedAt }) fun _ => rfl })

def listApiKeys (orgId : Option PyStr) : Statement R :=
  select (orgParam orgId) fun t =>
    .apiKeys (sorted env b (t.apiKeys.rows.filter fun r => ofOrg orgId r.orgId) ApiKeyRow.createdAt
      (fun r => ⟨r.keyId, r.orgId, r.createdAt, r.revokedAt, r.rateLimitTpm, r.rateLimitRpm, r.permissionsJson⟩) .none)

def getApiKeyByHash (keyHash : PyStr) : Statement R :=
  select [.text keyHash] fun t => .apiKey (t.apiKeys.rows.find? fun r => decide (r.keyHash = keyHash))

/-! ### Governance -/

def upsertReplayGovernance (row : ReplayGovernanceRow R) : Statement R :=
  change
    [.text row.fingerprintHash, .integer row.replayDisabled, .nullableText row.disabledReason,
      .nullableText row.disabledAt, .real row.cooldownUntil, .integer row.negativeRoiStreak,
      .integer row.corruptionDetected, .integer row.restoreGuardDisabled, .text row.updatedAt]
    fun t => { t with replayGovernance := t.replayGovernance.insertOrReplace row }

def getReplayGovernance : Statement R :=
  select [.text fingerprintHash] fun t => .replayGovernance (t.replayGovernance.find fingerprintHash)

def listReplayGovernance (limit : Int) : Statement R :=
  select [.limit limit] fun t =>
    .replayGovernances (sorted env b t.replayGovernance.rows ReplayGovernanceRow.updatedAt id (limitRows limit))

def upsertSpecGovernance (row : SpecGovernanceRow R) : Statement R :=
  change
    [.text row.fingerprintHash, .text row.orgId, .integer row.specDisabled, .nullableText row.reason,
      .real row.cooldownUntil, .integer row.badAcceptStreak, .text row.updatedAt]
    fun t => { t with specGovernance := t.specGovernance.insertOrReplace row }

def getSpecGovernance : Statement R :=
  select [.text fingerprintHash] fun t => .specGovernance (t.specGovernance.find fingerprintHash)

def listSpecGovernance (limit : Int) (orgId : Option PyStr) : Statement R :=
  select (orgParam orgId ++ [.limit limit]) fun t =>
    .specGovernances (sorted env b (t.specGovernance.rows.filter fun r => ofOrg orgId r.orgId)
      SpecGovernanceRow.updatedAt id (limitRows limit))

/-! ### Snapshot locations -/

def upsertSnapshotLocation (row : LocationRow) : Statement R :=
  change
    [.text row.fingerprintHash, .text row.snapshotId, .text row.orgId, .text row.nodeId, .nullableText row.workerId,
      .text row.snapshotPath, .bigint row.sizeBytes, .text row.createdAt, .text row.lastUsedAt]
    fun t => { t with locations := t.locations.insertOrReplace row }

def listSnapshotLocations (orgId : PyStr) : Statement R :=
  select [.text fingerprintHash, .text orgId] fun t =>
    let rows := t.locations.rows.filter fun r =>
      decide (r.fingerprintHash = fingerprintHash) && decide (r.orgId = orgId)
    .locations (sorted env b rows LocationRow.lastUsedAt id .none)

def markSnapshotLocationUsed (orgId nodeId snapshotId lastUsedAt : PyStr) : Statement R :=
  change [.text lastUsedAt, .text fingerprintHash, .text orgId, .text nodeId, .text snapshotId] fun t =>
    { t with
      locations := t.locations.updateWhere (fun r => decide (r.key = (fingerprintHash, orgId, nodeId, snapshotId)))
        (fun r => { r with lastUsedAt }) fun _ => rfl }

/-- An order in which the window of `prune_snapshot_locations` may number the rows: each group by falling last use. -/
def Scans (t : Locations) (scan : List LocationRow) : Prop :=
  scan.Perm t.rows ∧ scan.Pairwise fun r r' => r.group = r'.group → strLe r'.lastUsedAt r.lastUsedAt = true

def deleteLoop : List (PyStr × PyStr × PyStr) → Nat × Locations → Nat × Locations
  | [], acc => acc
  | (fp, orgId, snapshotId) :: rows, (deleted, t) =>
    let t' := t.deleteWhere fun r =>
      decide (r.fingerprintHash = fp) && decide (r.orgId = orgId) && decide (r.snapshotId = snapshotId)
    deleteLoop rows (deleted + 1, t')

def pruneSnapshotLocations (maxEntries : Int) (scan : List LocationRow) (t : Locations) :
    Except Error (Nat × Locations) :=
  if maxEntries < 1 then .ok (0, t)
  else if fits64 maxEntries then
    let rows := (RowNumber.beyond LocationRow.group maxEntries.toNat scan).map fun r =>
      (r.fingerprintHash, r.orgId, r.snapshotId)
    .ok (deleteLoop rows (0, t))
  else .error .dataError

/-! ### Operations -/

/-- The operations that are one statement, the same for both stores. -/
inductive Query (R : Type)
  | insertRun (row : RunRow)
  | insertSnapshot (row : SnapshotRow)
  | getJob (jobId : PyStr)
  | getLatestRun (jobId : PyStr)
  | listJobs (limit : Int) (orgId : Option PyStr)
  | findJobByFingerprint (fingerprintHash : PyStr) (orgId : Option PyStr)
  | findJobByIdempotency (idempotencyKey : PyStr) (orgId : Option PyStr)
  | getSnapshotForJob (jobId : PyStr)
  | createApiKey (keyId keyHash orgId createdAt : PyStr) (rateLimitTpm rateLimitRpm : Int) (permissionsJson : PyStr)
  | revokeApiKey (keyId revokedAt : PyStr)
  | listApiKeys (orgId : Option PyStr)
  | getApiKeyByHash (keyHash : PyStr)
  | upsertReplayGovernance (row : ReplayGovernanceRow R)
  | getReplayGovernance (fingerprintHash : PyStr)
  | listReplayGovernance (limit : Int)
  | upsertSpecGovernance (row : SpecGovernanceRow R)
  | getSpecGovernance (fingerprintHash : PyStr)
  | listSpecGovernance (limit : Int) (orgId : Option PyStr)
  | upsertSnapshotLocation (row : LocationRow)
  | listSnapshotLocations (fingerprintHash orgId : PyStr)
  | markSnapshotLocationUsed (fingerprintHash orgId nodeId snapshotId lastUsedAt : PyStr)

def statement : Query R → Statement R
  | .insertRun row => LedgerStore.insertRun row
  | .insertSnapshot row => LedgerStore.insertSnapshot row
  | .getJob jobId => LedgerStore.getJob env jobId
  | .getLatestRun jobId => LedgerStore.getLatestRun env b jobId
  | .listJobs limit orgId => LedgerStore.listJobs env b limit orgId
  | .findJobByFingerprint fp orgId => LedgerStore.findJobByFingerprint env b fp orgId
  | .findJobByIdempotency key orgId => LedgerStore.findJobByIdempotency env b key orgId
  | .getSnapshotForJob jobId => LedgerStore.getSnapshotForJob env b jobId
  | .createApiKey keyId keyHash orgId createdAt tpm rpm permissions =>
    LedgerStore.createApiKey keyId keyHash orgId createdAt tpm rpm permissions
  | .revokeApiKey keyId revokedAt => LedgerStore.revokeApiKey keyId revokedAt
  | .listApiKeys orgId => LedgerStore.listApiKeys env b orgId
  | .getApiKeyByHash keyHash => LedgerStore.getApiKeyByHash keyHash
  | .upsertReplayGovernance row => LedgerStore.upsertReplayGovernance row
  | .getReplayGovernance fp => LedgerStore.getReplayGovernance fp
  | .listReplayGovernance limit => LedgerStore.listReplayGovernance env b limit
  | .upsertSpecGovernance row => LedgerStore.upsertSpecGovernance row
  | .getSpecGovernance fp => LedgerStore.getSpecGovernance fp
  | .listSpecGovernance limit orgId => LedgerStore.listSpecGovernance env b limit orgId
  | .upsertSnapshotLocation row => LedgerStore.upsertSnapshotLocation row
  | .listSnapshotLocations fp orgId => LedgerStore.listSnapshotLocations env b fp orgId
  | .markSnapshotLocationUsed fp orgId nodeId snapshotId lastUsedAt =>
    LedgerStore.markSnapshotLocationUsed fp orgId nodeId snapshotId lastUsedAt

inductive Op (R : Type)
  | insertJob (a : JobArgs)
  | updateStatus (jobId newStatus : PyStr)
  | query (q : Query R)

def perform (t : Tables R) : Op R → Except Error (Answer R × Tables R)
  | .insertJob a => LedgerStore.insertJob env b a t
  | .updateStatus jobId newStatus =>
    match b with
    | .sqlite => Sqlite.updateStatus env jobId newStatus t
    | .postgres => Postgres.updateStatus env jobId newStatus t
  | .query q => execute env b (statement env b q) t

def step (t : Tables R) (op : Op R) : Except Error (Answer R) × Tables R :=
  match perform env b t op with
  | .ok (answer, t') => (.ok answer, t')
  | .error e => (.error e, t)

end Korith.LedgerStore
