import Korith.Lib.StableSort
import Korith.Lib.Table
import Mathlib.Data.List.AList
import Mathlib.Data.List.DropRight

/-!
# The AMF coordinator's index

`_CoordinatorIndex` says which nodes hold which prefix. It keeps two maps, from a key to the records of its nodes and
from a node to its keys, and a table with one row for each record, from which the maps are loaded when the process
starts. All methods hold one lock.
-/

namespace Korith.Coordinator

abbrev Text := List Char

/-- `str.isalnum` and `str.isspace` of a character, and `str.lower`. -/
structure Strings where
  isalnum : Char → Bool
  isspace : Char → Bool
  lower : Text → Text

/-- `json.dumps` and `json.loads` on JSON objects: what was dumped can be loaded. -/
structure Json (M : Type) where
  dumps : M → Text
  loads : Text → Option M
  empty : M
  truthy : M → Bool
  loads_nil : loads [] = none
  loads_dumps : ∀ m, loads (dumps m) = some m

variable {M T : Type} (py : Strings) (json : Json M)

def Strings.strip (s : Text) : Text := (s.dropWhile py.isspace).rdropWhile py.isspace

def orElse (a b : Text) : Text := if a = [] then b else a

def defaultTenant : Text := ['d', 'e', 'f', 'a', 'u', 'l', 't']

def safeTenantId (raw : Text) : Text :=
  let tenant := orElse (py.strip (orElse raw defaultTenant)) defaultTenant
  let safe := tenant.map fun ch => if py.isalnum ch || ch == '-' || ch == '_' || ch == '.' then ch else '_'
  orElse (safe.take 128) defaultTenant

def safeHash (raw : Text) : Text := ((py.lower (py.strip raw)).filter py.isalnum).take 128

def composite (tenantId prefixHash : Text) : Text := safeTenantId py tenantId ++ ':' :: safeHash py prefixHash

structure Record (M T : Type) where
  nodeId : Text
  workerId : Text
  tenantId : Text
  hash : Text
  metadata : M
  updatedAt : T
  deriving DecidableEq

structure DbRow (T : Type) where
  compositeKey : Text
  nodeId : Text
  workerId : Text
  tenantId : Text
  prefixHash : Text
  metadataJson : Text
  updatedAt : T
  deriving DecidableEq

def DbRow.key (r : DbRow T) : Text × Text := (r.compositeKey, r.nodeId)

abbrev Bucket (M T : Type) : Type := AList fun _ : Text => Record M T

structure Index (M T : Type) where
  entriesByKey : AList fun _ : Text => Bucket M T
  keysByNode : AList fun _ : Text => List Text
  db : Table (Text × Text) (DbRow T) DbRow.key

namespace Index

variable (s : Index M T) (key node : Text)

def bucket : Bucket M T := (s.entriesByKey.lookup key).getD ∅

def keysOf : List Text := (s.keysByNode.lookup node).getD []

def record : Option (Record M T) := (s.bucket key).lookup node

end Index

/-! ### The table -/

def rowOf (key node : Text) (r : Record M T) : DbRow T where
  compositeKey := key
  nodeId := node
  workerId := r.workerId
  tenantId := r.tenantId
  prefixHash := r.hash
  metadataJson := json.dumps r.metadata
  updatedAt := r.updatedAt

def recordOf (row : DbRow T) : Record M T where
  nodeId := row.nodeId
  workerId := row.workerId
  tenantId := row.tenantId
  hash := row.prefixHash
  metadata := if row.metadataJson = [] then json.empty else (json.loads row.metadataJson).getD json.empty
  updatedAt := row.updatedAt

def persistRecord (key node : Text) (r : Record M T) (s : Index M T) : Index M T :=
  { s with db := s.db.insertOrReplace (rowOf json key node r) }

def deleteRecord (key node : Text) (s : Index M T) : Index M T :=
  { s with db := s.db.deleteWhere fun row => decide (row.key = (key, node)) }

def putEntry (key node : Text) (r : Record M T) (s : Index M T) : Index M T :=
  { s with entriesByKey := s.entriesByKey.insert key ((s.bucket key).insert node r) }

def addKey (node key : Text) (s : Index M T) : Index M T :=
  { s with keysByNode := s.keysByNode.insert node ((s.keysOf node).insert key) }

def loadFromDb (db : Table (Text × Text) (DbRow T) DbRow.key) : Index M T :=
  db.rows.foldl
    (fun s row => addKey row.nodeId row.compositeKey (putEntry row.compositeKey row.nodeId (recordOf json row) s))
    ⟨∅, ∅, db⟩

/-! ### Operations -/

def register (tenantId prefixHash nodeId workerId : Text) (metadata : M) (now : T) (s : Index M T) : Index M T :=
  let key := composite py tenantId prefixHash
  let node := py.strip nodeId
  if key = [] ∨ node = [] then s
  else
    let r : Record M T :=
      { nodeId := node, workerId := py.strip workerId, tenantId := safeTenantId py tenantId,
        hash := safeHash py prefixHash, metadata := if json.truthy metadata then metadata else json.empty,
        updatedAt := now }
    persistRecord json key node r (addKey node key (putEntry key node r s))

/-- An item of a heartbeat. A field is missing, or is read as the text that `str` makes of it; metadata that is
not an object counts as missing. -/
structure Item (M T : Type) where
  tenantId : Option Text
  hash : Option Text
  workerId : Option Text
  metadata : Option M
  now : T

def Item.record (node : Text) (item : Item M T) : Record M T where
  nodeId := node
  workerId := item.workerId.getD []
  tenantId := safeTenantId py (item.tenantId.getD defaultTenant)
  hash := safeHash py (item.hash.getD [])
  metadata := item.metadata.getD json.empty
  updatedAt := item.now

def Item.key (item : Item M T) : Option Text :=
  let prefixHash := safeHash py (item.hash.getD [])
  if prefixHash = [] then none
  else some (composite py (safeTenantId py (item.tenantId.getD defaultTenant)) prefixHash)

/-- The first loop of `heartbeat`: the entries are written and their keys collected. Items that are not objects
(`none`) are skipped. -/
def heartbeatEntries (node : Text) : List (Option (Item M T)) → List Text × Index M T → List Text × Index M T
  | [], acc => acc
  | none :: items, acc => heartbeatEntries node items acc
  | some item :: items, (newKeys, s) =>
    match item.key py with
    | none => heartbeatEntries node items (newKeys, s)
    | some key =>
      let r := item.record py json node
      heartbeatEntries node items (newKeys.insert key, persistRecord json key node r (putEntry key node r s))

/-- The body of the second loop: the node's entry under a stale key goes, and the key with its last entry. -/
def dropEntry (node key : Text) (s : Index M T) : Index M T :=
  let byNode := (s.bucket key).erase node
  deleteRecord key node
    { s with
      entriesByKey :=
        if byNode.entries.isEmpty then s.entriesByKey.erase key else s.entriesByKey.insert key byNode }

def heartbeat (nodeId : Text) (entries : List (Option (Item M T))) (s : Index M T) : Index M T :=
  let node := py.strip nodeId
  if node = [] then s
  else
    let (newKeys, s) := heartbeatEntries py json node entries ([], s)
    let stale := (s.keysOf node).filter fun key => decide (key ∉ newKeys)
    let s := stale.foldl (fun s key => dropEntry node key s) s
    { s with keysByNode := s.keysByNode.insert node newKeys }

def evictFrom (key node : Text) (s : Index M T) : Index M T :=
  deleteRecord key node
    { s with keysByNode := s.keysByNode.insert node ((s.keysOf node).filter fun k => decide (k ≠ key)) }

def evict (tenantId prefixHash : Text) (s : Index M T) : Index M T × Nat :=
  let key := composite py tenantId prefixHash
  let rows := s.bucket key
  let s := { s with entriesByKey := s.entriesByKey.erase key }
  (rows.keys.foldl (fun s node => evictFrom key node s) s, rows.entries.length)

/-! ### Lookups -/

/-- A JSON value as Python has it; a float is `none` if it is not a number. -/
inductive Value (Q : Type)
  | null
  | bool (b : Bool)
  | int (i : Int)
  | float (x : Option Q)
  | str (s : Text)
  | arr (items : List (Value Q))
  | obj (fields : List (Text × Value Q))

/-- The numbers of Python: `float` of an integer, `int` of a float and both of a text, as far as they do not raise. -/
structure Numbers (Q : Type) where
  zero : Q
  one : Q
  ofInt : Int → Option Q
  trunc : Q → Option Int
  parseFloat : Text → Option (Option Q)
  parseInt : Text → Option Int

/-- `list.sort`: it orders a list if the comparison orders it, and permutes it in any case. -/
structure Sorting (α : Type) where
  sort : (α → α → Bool) → List α → List α
  perm : ∀ lt xs, (sort lt xs).Perm xs
  sorted : ∀ lt xs, Ordered lt xs → (sort lt xs).Pairwise fun a b => lt b a = false

structure SortKey (Q T : Type) where
  hitRate : Option Q
  cacheEntries : Int
  updatedAt : T

section Lookup

variable {Q : Type} [LinearOrder Q] [LinearOrder T] (num : Numbers Q) (get : M → Text → Option (Value Q))

def Value.truthy : Value Q → Bool
  | null => false
  | bool b => b
  | int i => i != 0
  | float x => decide (x ≠ some num.zero)
  | str s => !s.isEmpty
  | arr items => !items.isEmpty
  | obj fields => !fields.isEmpty

def Value.toFloat : Value Q → Option (Option Q)
  | bool b => some (some (if b then num.one else num.zero))
  | int i => (num.ofInt i).map some
  | float x => some x
  | str s => num.parseFloat s
  | _ => none

def Value.toInt : Value Q → Option Int
  | bool b => some (if b then 1 else 0)
  | int i => some i
  | float x => x.bind num.trunc
  | str s => num.parseInt s
  | _ => none

/-- `convert(metadata.get(field, default) or default)` -/
def convertOr {α : Type} (convert : Value Q → Option α) (default : α) (v : Option (Value Q)) : Option α :=
  match v with
  | none => some default
  | some v => if v.truthy num then convert v else some default

def hitRate (r : Record M T) : Option (Option Q) :=
  convertOr num (Value.toFloat num) (some num.zero) (get r.metadata "hit_rate".toList)

def sortKey (r : Record M T) : Option (SortKey Q T) := do
  let hitRate ← hitRate num get r
  let cacheEntries ← convertOr num (Value.toInt num) 0 (get r.metadata "cache_entries".toList)
  pure ⟨hitRate, cacheEntries, r.updatedAt⟩

/-- The keys are negated, and compared as tuples: by the first numbers that are not equal. -/
def SortKey.before (a b : SortKey Q T) : Bool :=
  match a.hitRate, b.hitRate with
  | some x, some y =>
    if x = y then
      if a.cacheEntries = b.cacheEntries then decide (b.updatedAt < a.updatedAt)
      else decide (b.cacheEntries < a.cacheEntries)
    else decide (y < x)
  | _, _ => false

def Index.registered (s : Index M T) (key : Text) : List (Record M T) := (s.bucket key).entries.map Sigma.snd

/-- All keys are computed before the first comparison. -/
def lookup (list : Sorting (SortKey Q T × Record M T)) (tenantId prefixHash : Text) (s : Index M T) :
    Option (List (Record M T)) :=
  let rows := s.registered (composite py tenantId prefixHash)
  (rows.mapM (sortKey num get)).map fun keys =>
    (list.sort (fun a b => a.1.before b.1) (keys.zip rows)).map Prod.snd

end Lookup

/-! ### Runs -/

inductive Op (M T : Type)
  | register (tenantId prefixHash nodeId workerId : Text) (metadata : M) (now : T)
  | heartbeat (nodeId : Text) (entries : List (Option (Item M T)))
  | evict (tenantId prefixHash : Text)
  /-- the process ends, and another one opens the same database -/
  | restart

def step (s : Index M T) : Op M T → Index M T
  | .register tenantId prefixHash nodeId workerId metadata now =>
    register py json tenantId prefixHash nodeId workerId metadata now s
  | .heartbeat nodeId entries => heartbeat py json nodeId entries s
  | .evict tenantId prefixHash => (evict py tenantId prefixHash s).1
  | .restart => loadFromDb json s.db

def run (ops : List (Op M T)) : Index M T := ops.foldl (step py json) (loadFromDb json Table.empty)

end Korith.Coordinator
