import Korith.Amf.Key
import Korith.Lib.FloatArith
import Korith.Lib.Indexed

/-!
# The AMF store

`AmfStore`: the entries, their index, the byte total and the statistics, over a directory of files. The
clock, the free disk space and the outcome of every file operation are given by the environment, by
the number of the operation (`tick`). A write that fails leaves its file as it was (it could not be
opened) or unreadable (it was truncated).

Byte totals, counters and times are natural numbers; the sum that gives an expiry time wraps at 64
bits. `long double` products of the budget with a watermark are exact. The pressure value that is only
reported, log texts and reasons are left out.
-/

namespace Korith.Amf

open FloatArith

/-! ### Data -/

inductive EntryState where
  | cold
  | warmPending
  | hot
  deriving DecidableEq

inductive Tier where
  | hot
  | warm
  | cold
  deriving DecidableEq

inductive EvictionPolicy where
  | lru
  | lfu
  | roi
  deriving DecidableEq

structure AmfEntry (F : Type) where
  key : AmfKey
  modelHash : Hash
  prefixLen : Nat
  seenCount : Nat
  restoreCount : Nat
  emaSavedMs : F
  emaRestoreMs : F
  emaRoi : F
  failureCount : Nat
  blockCount : Nat
  savedMs : Nat
  hitCount : Nat
  lastUsed : Nat
  lastHitMs : Nat
  lowRoiHits : Nat
  kvSize : Nat
  lastAccessTimeMs : Nat
  accessCount : Nat
  storedAtMs : Nat
  expiresAtMs : Nat
  sizeBytes : Nat
  kvChecksum : Hash
  state : EntryState
  deriving DecidableEq

structure AmfStats (F : Type) where
  hits : Nat
  misses : Nat
  tokensSaved : Nat
  msSaved : Nat
  restoreMs : Nat
  savedMsEma : F
  restoreMsEma : F
  failures : Nat
  blocks : Nat
  admissions : Nat
  admissionRejects : Nat
  admissionBytes : Nat
  storeFailures : Nat
  evictions : Nat
  evictedBytes : Nat
  entries : Nat
  bytes : Nat

/-- A share of the budget in `(0, 1]`. -/
structure Watermark where
  num : Nat
  den : Nat
  num_pos : 0 < num
  le : num ≤ den

/-- The double 0.98. -/
def critical : Watermark := ⟨2206763817411543, 2251799813685248, by decide, by decide⟩

def Watermark.allows (m : Watermark) (budget x : Nat) : Bool := decide (x * m.den ≤ m.num * budget)

/-- How the write of a file ends; of a torn one only the first `n` bytes reach the file. -/
inductive WriteResult where
  | ok
  | openFailed
  | torn (n : Nat)
  deriving DecidableEq

/-- The configuration that `init_from_env` reads, and what the system answers to each operation. -/
structure Env (F : Type) where
  minTokens : Nat
  minTokens_pos : 0 < minTokens
  maxBytes : Nat
  storageBudgetBytes : Nat
  evictionWatermark : Watermark
  hotTtlMs : Nat
  warmTtlMs : Nat
  evictionPolicy : EvictionPolicy
  maxAgeMs : Nat
  defaultTtlMs : Nat
  maxTtlMs : Nat
  modelVersionCheck : Bool
  lowRoiHitLimit : Nat
  prewarmEnabled : Bool
  diskGuardEnabled : Bool
  minFreeDiskBytes : Nat
  minFreeDiskRatio : F
  clock : Nat → Nat
  /-- Free bytes and capacity; none if the query fails. -/
  space : Nat → Option (Nat × Nat)
  /-- Shorter data stay in the stream's buffer until its destructor writes them. -/
  streamBuffer : Nat
  writeTokens : Nat → WriteResult
  writeKv : Nat → WriteResult
  removeOk : Nat → Bool
  flushOk : Nat → Bool
  /-- After how many records reading the index file fails, if it does. -/
  readStops : Nat → Option Nat

structure Store (F : Type) where
  enabled : Bool
  entries : List (AmfEntry F)
  index : AmfKey → Option Nat
  totalBytes : Nat
  minAdmitRoi : F
  roiDeclineStreak : Nat
  admissionsDisabled : Bool
  prewarmRunning : Bool
  prewarmedKeys : AmfKey → Bool
  stats : AmfStats F

/-- The directory: the records of the index file (replaced as a whole by a rename), and the tokens and
state files by the key in their names; none is a missing or unreadable file. -/
structure Disk (F : Type) where
  indexFile : Option (List (AmfEntry F))
  tok : AmfKey → Option (List Token)
  kv : AmfKey → Option (List Byte)

structure World (F : Type) where
  store : Store F
  disk : Disk F
  tick : Nat

/-- `AmfLookupResult`; a hit comes with the entry and the tokens. -/
inductive LookupResult (F : Type) where
  | hit (entry : AmfEntry F) (tokens : List Token)
  | missFirstRun
  | missShortPrefix
  | missHashMismatch
  | missTokenMismatch
  | missLoadFailed

variable {F : Type} [FloatArith F]

variable (e : Env F)

def Env.budget : Nat := if 0 < e.storageBudgetBytes then e.storageBudgetBytes else e.maxBytes

def u64 (n : Nat) : Nat := n % 2 ^ 64

/-! ### Helpers -/

def updateEma (current sample alpha : F) : F :=
  if !(lt (ofNat 0) alpha && !lt (ofNat 1) alpha) || !isFinite sample then current
  else if !isFinite current then sample
  else current * (ofNat 1 - alpha) + sample * alpha

/-- The time of the last access, for entries of older index files that of the last use. -/
def AmfEntry.last (entry : AmfEntry F) : Nat :=
  if 0 < entry.lastAccessTimeMs then entry.lastAccessTimeMs else entry.lastUsed

def classifyTier (entry : AmfEntry F) (nowMs : Nat) : Tier :=
  let last := entry.last
  if last = 0 ∨ nowMs = 0 then .cold
  else if nowMs < last then .cold
  else if nowMs - last ≤ e.hotTtlMs then .hot
  else if nowMs - last ≤ e.warmTtlMs then .warm
  else .cold

def effectiveTtlMs (accessCount : Nat) : Nat :=
  if e.defaultTtlMs = 0 then 0
  else
    let base : F := ofNat e.defaultTtlMs
    let boost : F := ofNat 1 + log2 (ofNat (Nat.max 1 accessCount))
    let ttl := base * boost
    let ttl := if !isFinite ttl || lt ttl base then base else ttl
    let ttl := if 0 < e.maxTtlMs then FloatArith.min ttl (ofNat e.maxTtlMs) else ttl
    let ttl := if lt (ofNat (2 ^ 64 - 1)) ttl then ofNat (2 ^ 64 - 1) else ttl
    toNat ttl

def AmfEntry.expired (entry : AmfEntry F) (nowMs : Nat) : Bool :=
  decide (0 < entry.expiresAtMs) && decide (entry.expiresAtMs < nowMs)

def modelMismatch (ctx : AmfContext) (entry : AmfEntry F) : Bool :=
  e.modelVersionCheck && decide (entry.modelHash ≠ 0) && decide (entry.modelHash ≠ ctx.modelHash)

def World.next (w : World F) : World F := { w with tick := w.tick + 1 }

def Store.setEntry (s : Store F) (i : Nat) (entry : AmfEntry F) : Store F :=
  { s with entries := s.entries.set i entry }

def Store.find? (s : Store F) (key : AmfKey) : Option (Nat × AmfEntry F) :=
  (s.index key).bind fun i => (s.entries[i]?).map fun entry => (i, entry)

/-! ### Files -/

/-- `flush_index`: write a temporary file and rename it. -/
def flushIndex (w : World F) : Bool × World F :=
  if e.flushOk w.tick then
    (true, { w.next with disk := { w.disk with indexFile := some w.store.entries } })
  else (false, w.next)

/-- Whether a write of `size` bytes counts as done if `n` of them reach the file. The stream is tested before its
destructor writes what is still in the buffer. -/
def Env.reported (e : Env F) (size n : Nat) : Bool := decide (size ≤ n) || decide (size < e.streamBuffer)

/-- How many of `size` bytes reach the file, unless it cannot be opened. -/
def WriteResult.written (size : Nat) : WriteResult → Option Nat
  | .ok => some size
  | .openFailed => none
  | .torn n => some (min n size)

def writeTokensFile (key : AmfKey) (tokens : List Token) (w : World F) : Bool × World F :=
  match (e.writeTokens w.tick).written (4 * tokens.length) with
  | none => (false, w.next)
  | some n =>
    let file := if n % 4 = 0 then some (tokens.take (n / 4)) else none
    (e.reported (4 * tokens.length) n,
      { w.next with disk := { w.disk with tok := Function.update w.disk.tok key file } })

def writeKvFile (key : AmfKey) (data : List Byte) (w : World F) : Bool × World F :=
  match (e.writeKv w.tick).written data.length with
  | none => (false, w.next)
  | some n => (e.reported data.length n,
      { w.next with disk := { w.disk with kv := Function.update w.disk.kv key (some (data.take n)) } })

def removeTok (key : AmfKey) (w : World F) : World F :=
  if e.removeOk w.tick then
    { w.next with disk := { w.disk with tok := Function.update w.disk.tok key none } }
  else w.next

def removeKv (key : AmfKey) (w : World F) : World F :=
  if e.removeOk w.tick then
    { w.next with disk := { w.disk with kv := Function.update w.disk.kv key none } }
  else w.next

/-- `read_tokens_file`: an empty file does not count as read. -/
def readTokensFile (key : AmfKey) (w : World F) : Option (List Token) :=
  (w.disk.tok key).filter fun tokens => !tokens.isEmpty

def loadKv (entry : AmfEntry F) (w : World F) : Option (List Byte) :=
  ((w.disk.kv entry.key).filter fun data => !data.isEmpty).filter fun data =>
    decide (entry.kvChecksum = 0) || decide (hashBytes kFNVOffset data = entry.kvChecksum)

/-- `load_kv_into`: whether it succeeds, the buffer, which a failed checksum leaves overwritten, and `out_size`. -/
def loadKvInto (entry : AmfEntry F) (buf : List Byte) (w : World F) : Bool × List Byte × Nat :=
  match w.disk.kv entry.key with
  | none => (false, buf, 0)
  | some data =>
    if data.isEmpty then (false, buf, 0)
    else if buf.length < data.length then (false, buf, 0)
    else
      let buf := data ++ buf.drop data.length
      if decide (entry.kvChecksum ≠ 0) && decide (hashBytes kFNVOffset data ≠ entry.kvChecksum) then (false, buf, 0)
      else (true, buf, data.length)

/-! ### Eviction -/

def Store.drop (s : Store F) (idx : Nat) (entry : AmfEntry F) : Store F :=
  let entryBytes := if 0 < entry.sizeBytes then entry.sizeBytes else entry.kvSize
  let entries := s.entries.eraseIdx idx
  -- natural subtraction stops at zero as the code's test does
  let totalBytes := s.totalBytes - entryBytes
  { s with
    entries := entries
    index := rebuildIndex AmfEntry.key entries
    totalBytes := totalBytes
    prewarmedKeys := Function.update s.prewarmedKeys entry.key false
    stats := { s.stats with
      evictions := s.stats.evictions + 1
      evictedBytes := s.stats.evictedBytes + entryBytes
      entries := entries.length
      bytes := totalBytes } }

def evictEntryAt (idx : Nat) (w : World F) : World F :=
  match w.store.entries[idx]? with
  | none => w
  | some entry =>
    let w := removeTok e entry.key (removeKv e entry.key w)
    (flushIndex e { w with store := w.store.drop idx entry }).2

def roiScore (entry : AmfEntry F) : F :=
  if isFinite entry.emaRoi then entry.emaRoi
  else if isFinite entry.emaRestoreMs && lt (ofNat 0) entry.emaRestoreMs && isFinite entry.emaSavedMs then
    let roi := entry.emaSavedMs / entry.emaRestoreMs
    if isFinite roi then roi else ofNat 0
  else ofNat 0

def isBetter (policy : EvictionPolicy) (cand cur : AmfEntry F) : Bool :=
  match policy with
  | .lru => if cand.last ≠ cur.last then cand.last < cur.last else cand.accessCount < cur.accessCount
  | .roi =>
    if lt (roiScore cand) (roiScore cur) || lt (roiScore cur) (roiScore cand) then
      lt (roiScore cand) (roiScore cur)
    else if cand.accessCount ≠ cur.accessCount then cand.accessCount < cur.accessCount
    else cand.last < cur.last
  | .lfu =>
    if cand.accessCount ≠ cur.accessCount then cand.accessCount < cur.accessCount
    else cand.last < cur.last

def pickFrom (e : Env F) (tier : Tier) (nowMs : Nat) :
    List (AmfEntry F) → Nat → Option (Nat × AmfEntry F) → Option Nat
  | [], _, best => best.map (·.1)
  | entry :: rest, i, best =>
    pickFrom e tier nowMs rest (i + 1) <|
      if classifyTier e entry nowMs ≠ tier then best
      else
        match best with
        | none => some (i, entry)
        | some (b, cur) => if isBetter e.evictionPolicy entry cur then some (i, entry) else some (b, cur)

def pickBudgetEvictionCandidate (s : Store F) (tier : Tier) (nowMs : Nat) : Option Nat :=
  pickFrom e tier nowMs s.entries 0 none

/-- The victim of one round of the budget loop: cold, then warm, then hot if the total is critical. -/
def pickVictim (incoming : Nat) (s : Store F) (nowMs : Nat) : Option Nat :=
  (pickBudgetEvictionCandidate e s .cold nowMs).or <|
    (pickBudgetEvictionCandidate e s .warm nowMs).or <|
      if critical.allows e.budget (s.totalBytes + incoming) then none
      else pickBudgetEvictionCandidate e s .hot nowMs

/-- The budget loop; every round but the last removes an entry, so the number of entries bounds it.
Returns how many were evicted. -/
def evictLoop (e : Env F) (incoming : Nat) : Nat → World F → Nat × World F
  | 0, w => (0, w)
  | fuel + 1, w =>
    if e.evictionWatermark.allows e.budget (w.store.totalBytes + incoming) || w.store.entries.isEmpty then
      (0, w)
    else
      match pickVictim e incoming w.store (e.clock w.tick) with
      | none => (0, w.next)
      | some idx =>
        let r := evictLoop e incoming fuel (evictEntryAt e idx w.next)
        (r.1 + 1, r.2)

def evictIfNeeded (incoming : Nat) (w : World F) : Nat × World F :=
  if e.budget = 0 then (0, w)
  else if e.budget < incoming then (0, w)
  else evictLoop e incoming (w.store.entries.length + 1) w

/-! ### Lookup -/

def shouldWaitWarmPending (s : Store F) (entry : AmfEntry F) : Bool :=
  e.prewarmEnabled && decide (entry.state = .warmPending) && !s.prewarmedKeys entry.key && s.prewarmRunning

def Store.markPrewarmed (s : Store F) (key : AmfKey) : Store F :=
  { s with prewarmedKeys := Function.update s.prewarmedKeys key true }

/-- A prewarmed entry that is found becomes hot. -/
def Store.touchPrewarmed (s : Store F) (key : AmfKey) : Store F :=
  if s.prewarmedKeys key then
    match s.find? key with
    | some (i, entry) => s.setEntry i { entry with state := .hot }
    | none => s
  else s

def checkTokens (tokens : List Token) (len : Nat) (entry : AmfEntry F) (w : World F) : LookupResult F × World F :=
  match readTokensFile entry.key w with
  | none => (.missLoadFailed, w)
  | some out =>
    if out.length ≠ len then (.missTokenMismatch, w)
    else if out ≠ tokens.take len then (.missTokenMismatch, w)
    else (.hit entry out, w)

/-- The loop of `find_longest_prefix` over the lengths from `len` down. The wait for a pending prewarm
ends with the key prewarmed or not as the prewarm thread has it then (`prewarmed`). -/
def lookupLoop (e : Env F) (ctx : AmfContext) (tokens : List Token) (hashes : List Hash) (nowMs : Nat)
    (prewarmed : AmfKey → Bool) : Nat → World F → LookupResult F × World F
  | 0, w => (.missHashMismatch, w)
  | n + 1, w =>
    let len := n + 1
    let continue_ := lookupLoop e ctx tokens hashes nowMs prewarmed n
    if len < e.minTokens then (.missHashMismatch, w)
    else
      match (hashes[len - 1]?).bind fun h => w.store.find? (amfMakeKey ctx h) with
      | none => continue_ w
      | some (i, entry) =>
        if entry.prefixLen ≠ len then continue_ w
        else if modelMismatch e ctx entry then continue_ (evictEntryAt e i w)
        else if entry.expired nowMs then continue_ (evictEntryAt e i w)
        else if shouldWaitWarmPending e w.store entry && !prewarmed entry.key then continue_ w
        else
          let s := if shouldWaitWarmPending e w.store entry then w.store.markPrewarmed entry.key else w.store
          checkTokens tokens len entry { w with store := s.touchPrewarmed entry.key }

def findLongestPrefix (ctx : AmfContext) (tokens : List Token) (prewarmed : AmfKey → Bool)
    (w : World F) : LookupResult F × World F :=
  if !w.store.enabled then (.missLoadFailed, w)
  else if tokens.length < e.minTokens then (.missShortPrefix, w)
  else if w.store.entries.isEmpty then (.missFirstRun, w)
  else
    lookupLoop e ctx tokens (prefixHashes kFNVOffset tokens) (e.clock w.tick) prewarmed tokens.length w.next

/-! ### Storing -/

def diskGuardAllows (incoming : Nat) (w : World F) : Bool :=
  if !e.diskGuardEnabled then true
  else
    match e.space w.tick with
    | none => true
    | some (available, capacity) =>
      if 0 < e.minFreeDiskBytes ∧ available ≤ e.minFreeDiskBytes then false
      else if lt (ofNat 0) e.minFreeDiskRatio && decide (0 < capacity) &&
          !lt e.minFreeDiskRatio (ofNat available / ofNat capacity) then false
      else !(decide (0 < incoming) && decide (available ≤ incoming))

/-- The test of the return on investment that an entry has shown so far. -/
def roiAdmits (s : Store F) (existing : Option (AmfEntry F)) : Bool :=
  if lt (ofNat 0) s.minAdmitRoi then
    match existing with
    | none => true
    | some entry =>
      let emaReady := isFinite entry.emaRoi
      if decide (entry.restoreCount = 0) && decide (entry.seenCount = 0) && !emaReady then true
      else emaReady && ge entry.emaRoi s.minAdmitRoi
  else true

def admits (tokens : List Token) (kvSize : Nat) (existing : Option (AmfEntry F)) (w : World F) : Bool :=
  if !w.store.enabled || decide (tokens.length < e.minTokens) || decide (kvSize = 0) then false
  else if decide (0 < e.budget) && decide (e.budget < kvSize) then false
  else if !diskGuardAllows e (existing.elim kvSize fun old => kvSize - old.kvSize) w then false
  else if w.store.admissionsDisabled && existing.isNone then false
  else roiAdmits w.store existing

def newEntry (ctx : AmfContext) (tokens : List Token) (kvData : List Byte) (savedMs nowMs : Nat)
    (existing : Option (AmfEntry F)) : AmfEntry F where
  key := keyOf ctx tokens
  modelHash := ctx.modelHash
  prefixLen := tokens.length % 2 ^ 32
  seenCount := existing.elim 1 fun old => old.seenCount + 1
  restoreCount := existing.elim 0 (·.restoreCount)
  emaSavedMs := existing.elim nan (·.emaSavedMs)
  emaRestoreMs := existing.elim nan (·.emaRestoreMs)
  emaRoi := existing.elim nan (·.emaRoi)
  failureCount := 0
  blockCount := 0
  savedMs := savedMs
  hitCount := 0
  lastUsed := nowMs
  lastHitMs := 0
  lowRoiHits := 0
  kvSize := kvData.length
  lastAccessTimeMs := nowMs
  accessCount := 0
  storedAtMs := nowMs
  expiresAtMs := if 0 < e.defaultTtlMs then u64 (nowMs + effectiveTtlMs e 0) else 0
  sizeBytes := kvData.length
  kvChecksum := hashBytes kFNVOffset kvData
  state := .hot

/-- What an overwrite keeps of the previous entry. -/
def mergeEntry (nowMs : Nat) (entry previous : AmfEntry F) : AmfEntry F :=
  let ttlMs := effectiveTtlMs e previous.accessCount
  { entry with
    failureCount := previous.failureCount
    blockCount := previous.blockCount
    hitCount := previous.hitCount
    lastHitMs := previous.lastHitMs
    lowRoiHits := previous.lowRoiHits
    lastAccessTimeMs := previous.lastAccessTimeMs
    accessCount := previous.accessCount
    storedAtMs := previous.storedAtMs
    expiresAtMs := if 0 < ttlMs then u64 (nowMs + ttlMs) else previous.expiresAtMs
    sizeBytes := entry.kvSize
    state := .hot }

def writeFiles (key : AmfKey) (tokens : List Token) (kvData : List Byte) (w : World F) : Bool × World F :=
  let r := writeTokensFile e key tokens w
  if r.1 then
    let r' := writeKvFile e key kvData r.2
    if r'.1 then (true, r'.2) else (false, removeTok e key r'.2)
  else (false, r.2)

/-- `total_bytes_ += new - old` or `-= old - new`, in 64 bits. -/
def adjustTotal (total new old : Nat) : Nat :=
  if old ≤ new then total + (new - old)
  else if old - new ≤ total then total - (old - new)
  else total + 2 ^ 64 - (old - new)

/-- Write the entry back through the iterator of the lookup, whose position is `i`. -/
def Store.overwrite (s : Store F) (i : Nat) (entry previous : AmfEntry F) : Store F :=
  { s.setEntry i entry with totalBytes := adjustTotal s.totalBytes entry.kvSize previous.kvSize }

def Store.append (s : Store F) (entry : AmfEntry F) : Store F :=
  { s with
    index := Function.update s.index entry.key (some s.entries.length)
    entries := s.entries ++ [entry]
    totalBytes := s.totalBytes + entry.kvSize }

def Store.countAdmission (s : Store F) (kvSize : Nat) : Store F :=
  { s with stats := { s.stats with
      admissions := s.stats.admissions + 1
      admissionBytes := s.stats.admissionBytes + kvSize
      entries := s.entries.length
      bytes := s.totalBytes } }

def Store.countReject (s : Store F) : Store F :=
  { s with stats := { s.stats with admissionRejects := s.stats.admissionRejects + 1 } }

def Store.countStoreFailure (s : Store F) : Store F :=
  { s with stats := { s.stats with storeFailures := s.stats.storeFailures + 1 } }

/-- The room a store has to make before it writes. -/
def evictForStore (kvSize : Nat) (existing : Option (AmfEntry F)) (w : World F) : Nat × World F :=
  match existing with
  | none => evictIfNeeded e kvSize w
  | some previous => if previous.kvSize < kvSize then evictIfNeeded e (kvSize - previous.kvSize) w else (0, w)

/-- The new entry in the vector. The iterator `it` of an existing one was obtained before room was made and
is dereferenced now. Every eviction clears and rebuilds the index, which invalidates `it`; reading
through it then yields some value `stale`, of which nothing is known. -/
def commitEntry (stale evicted nowMs : Nat) (found : Option (Nat × AmfEntry F)) (entry : AmfEntry F)
    (s : Store F) : Store F :=
  match found with
  | some (i, previous) =>
    s.overwrite (if evicted = 0 then i else stale) (mergeEntry e nowMs entry previous) previous
  | none => s.append entry

def finishStore (kvSize : Nat) (w : World F) : Bool × World F :=
  let r := flushIndex e { w with store := w.store.countAdmission kvSize }
  if r.1 then (true, r.2) else (false, { r.2 with store := r.2.store.countStoreFailure })

def storeEntry (stale : Nat) (ctx : AmfContext) (tokens : List Token) (kvData : List Byte)
    (savedMs : Nat) (w : World F) : Bool × World F :=
  let found := w.store.find? (keyOf ctx tokens)
  let existing := found.map (·.2)
  if !admits e tokens kvData.length existing w then
    (false, { w.next with store := w.store.countReject })
  else
    let nowMs := e.clock (w.tick + 1)
    let entry := newEntry e ctx tokens kvData savedMs nowMs existing
    let r := evictForStore e kvData.length existing w.next.next
    let r' := writeFiles e entry.key tokens kvData r.2
    if r'.1 then
      finishStore e kvData.length
        { r'.2 with store := commitEntry e stale r.1 nowMs found entry r'.2.store }
    else (false, { r'.2 with store := r'.2.store.countStoreFailure })

/-! ### Accounting -/

def hitEntry (s : Store F) (entry : AmfEntry F) (nowMs restoreMs savedMs : Nat) : AmfEntry F × Nat :=
  let alpha : F := hundredths 20
  let restoreF : F := ofNat restoreMs
  let savedF : F := ofNat savedMs
  let roi : F := if lt (ofNat 0) restoreF then savedF / restoreF else ofNat 0
  let ttlMs := effectiveTtlMs e (entry.accessCount + 1)
  let emaRoi := updateEma entry.emaRoi roi alpha
  let streak :=
    if isFinite entry.emaRoi && isFinite emaRoi && lt emaRoi entry.emaRoi then
      if s.roiDeclineStreak < 2 ^ 32 - 1 then s.roiDeclineStreak + 1 else s.roiDeclineStreak
    else 0
  let lowRoiHits :=
    if lt (ofNat 0) s.minAdmitRoi && decide (0 < e.lowRoiHitLimit) then
      if lt (if isFinite emaRoi then emaRoi else ofNat 0) s.minAdmitRoi then
        if entry.lowRoiHits < 2 ^ 32 - 1 then entry.lowRoiHits + 1 else entry.lowRoiHits
      else 0
    else entry.lowRoiHits
  ({ entry with
    hitCount := entry.hitCount + 1
    accessCount := entry.accessCount + 1
    restoreCount := entry.restoreCount + 1
    lastUsed := nowMs
    lastAccessTimeMs := nowMs
    lastHitMs := nowMs
    state := .hot
    expiresAtMs := if 0 < ttlMs then u64 (nowMs + ttlMs) else entry.expiresAtMs
    emaRestoreMs := updateEma entry.emaRestoreMs restoreF alpha
    emaSavedMs := updateEma entry.emaSavedMs savedF alpha
    emaRoi := emaRoi
    failureCount := if streak = 3 then entry.failureCount + 1 else entry.failureCount
    lowRoiHits := lowRoiHits }, streak)

def Store.countHit (s : Store F) (tokensSaved restoreMs savedMs : Nat) : Store F :=
  { s with stats := { s.stats with
      hits := s.stats.hits + 1
      tokensSaved := s.stats.tokensSaved + tokensSaved
      msSaved := s.stats.msSaved + savedMs
      restoreMs := s.stats.restoreMs + restoreMs
      savedMsEma := updateEma s.stats.savedMsEma (ofNat savedMs) (hundredths 20)
      restoreMsEma := updateEma s.stats.restoreMsEma (ofNat restoreMs) (hundredths 20) } }

def noteHit (key : AmfKey) (tokensSaved restoreMs savedMs : Nat) (w : World F) : World F :=
  let s := w.store.countHit tokensSaved restoreMs savedMs
  match s.find? key with
  | none => { w with store := s }
  | some (i, entry) =>
    let (entry', streak) := hitEntry e s entry (e.clock w.tick) restoreMs savedMs
    let s := { s.setEntry i entry' with
      roiDeclineStreak := streak
      admissionsDisabled := s.admissionsDisabled || decide (5 ≤ streak) }
    let w := { w.next with store := s }
    if lt (ofNat 0) s.minAdmitRoi && decide (0 < e.lowRoiHitLimit) &&
        decide (e.lowRoiHitLimit ≤ entry'.lowRoiHits) then evictEntryAt e i w
    else (flushIndex e w).2

def noteEntry (count : AmfEntry F → AmfEntry F) (key : AmfKey) (w : World F) : World F :=
  match w.store.find? key with
  | none => w
  | some (i, entry) =>
    let nowMs := e.clock w.tick
    (flushIndex e { w.next with
      store := w.store.setEntry i { count entry with lastUsed := nowMs, lastAccessTimeMs := nowMs } }).2

def noteFailure (key : AmfKey) (w : World F) : World F :=
  noteEntry e (fun entry => { entry with failureCount := entry.failureCount + 1 }) key
    { w with store := { w.store with stats := { w.store.stats with failures := w.store.stats.failures + 1 } } }

def noteBlock (w : World F) : World F :=
  { w with store := { w.store with stats := { w.store.stats with blocks := w.store.stats.blocks + 1 } } }

def noteBlockEntry (key : AmfKey) (w : World F) : World F :=
  noteEntry e (fun entry => { entry with blockCount := entry.blockCount + 1 }) key (noteBlock w)

def noteMiss (w : World F) : World F :=
  { w with store := { w.store with stats := { w.store.stats with misses := w.store.stats.misses + 1 } } }

def tooOld (nowMs : Nat) (entry : AmfEntry F) : Bool :=
  entry.expired nowMs ||
    (decide (e.maxAgeMs ≠ 0) &&
      let last := if 0 < entry.lastHitMs then entry.lastHitMs else entry.lastUsed
      decide (last ≠ 0) && decide (last < nowMs) && decide (e.maxAgeMs < nowMs - last))

/-- The loop of `evict_expired_entries` at position `i`; `fuel` counts the entries not yet looked at. -/
def expireLoop (e : Env F) (nowMs : Nat) : Nat → Nat → World F → World F
  | 0, _, w => w
  | fuel + 1, i, w =>
    match w.store.entries[i]? with
    | none => w
    | some entry =>
      if tooOld e nowMs entry then expireLoop e nowMs fuel i (evictEntryAt e i w)
      else expireLoop e nowMs fuel (i + 1) w

def evictExpiredEntries (nowMs : Nat) (w : World F) : World F :=
  if !w.store.enabled || decide (nowMs = 0) || w.store.entries.isEmpty then w
  else expireLoop e nowMs w.store.entries.length 0 w

/-! ### Initialisation -/

/-- The defaults that `load_index` fills in. -/
def loadedEntry (nowMs : Nat) (rec : AmfEntry F) : AmfEntry F :=
  let lastAccess := if rec.lastAccessTimeMs = 0 then rec.lastUsed else rec.lastAccessTimeMs
  let base := if 0 < lastAccess then lastAccess else nowMs
  let entry := { rec with
    modelHash := if rec.modelHash = 0 then rec.key.modelHash else rec.modelHash
    sizeBytes := if rec.sizeBytes = 0 then rec.kvSize else rec.sizeBytes
    lastAccessTimeMs := lastAccess
    expiresAtMs := if rec.expiresAtMs = 0 ∧ 0 < e.defaultTtlMs then u64 (base + effectiveTtlMs e rec.accessCount)
      else rec.expiresAtMs }
  { entry with state :=
      if e.prewarmEnabled then .warmPending
      else if classifyTier e entry nowMs = .hot then .hot else .cold }

def loadRecords (e : Env F) : List (AmfEntry F) → World F → World F
  | [], w => w
  | rec :: recs, w =>
    let entry := loadedEntry e (e.clock w.tick) rec
    loadRecords e recs { w.next with store := { w.store with
      index := Function.update w.store.index entry.key (some w.store.entries.length)
      entries := w.store.entries ++ [entry]
      totalBytes := w.store.totalBytes + entry.sizeBytes } }

def Store.cleared (s : Store F) : Store F :=
  { s with
    enabled := true
    entries := []
    index := fun _ => none
    totalBytes := 0
    roiDeclineStreak := 0
    admissionsDisabled := false
    prewarmRunning := false
    prewarmedKeys := fun _ => false
    stats := { s.stats with entries := 0, bytes := 0 } }

/-- `load_index` of a file that `flush_index` has written: its magic, version and checksum are right. -/
def loadIndex (w : World F) : World F :=
  let w := { w.next with store := w.store.cleared }
  match w.disk.indexFile with
  | none => w
  | some recs =>
    if 2 ^ 20 < recs.length then { w with store := { w.store with enabled := false } }
    else
      match e.readStops w.tick with
      | some n =>
        let w := loadRecords e (recs.take n) w.next
        { w with store := { w.store with enabled := false } }
      | none =>
        let w := loadRecords e recs w.next
        { w with store := { w.store with
            stats := { w.store.stats with entries := w.store.entries.length, bytes := w.store.totalBytes } } }

def initStore (dirOk : Bool) (w : World F) : World F :=
  if dirOk then
    let w := loadIndex e w
    if w.store.enabled && e.prewarmEnabled && !w.store.entries.isEmpty then
      { w with store := { w.store with prewarmRunning := true } }
    else w
  else { w with store := { w.store with enabled := false } }

/-! ### Runs -/

/-- The public operations, and the steps of the prewarm thread. -/
inductive Op (F : Type) where
  | init (dirOk : Bool)
  | store (stale : Nat) (ctx : AmfContext) (tokens : List Token) (kvData : List Byte) (savedMs : Nat)
  | find (ctx : AmfContext) (tokens : List Token) (prewarmed : AmfKey → Bool)
  | noteHit (key : AmfKey) (tokensSaved restoreMs savedMs : Nat)
  | noteFailure (key : AmfKey)
  | noteBlock
  | noteBlockEntry (key : AmfKey)
  | noteMiss
  | evictExpired (nowMs : Nat)
  | setMinAdmitRoi (v : F)
  | prewarm (key : AmfKey)
  | prewarmDone
  | shutdown

def step : Op F → World F → World F
  | .init dirOk, w => initStore e dirOk w
  | .store stale ctx tokens kvData savedMs, w => (storeEntry e stale ctx tokens kvData savedMs w).2
  | .find ctx tokens prewarmed, w => (findLongestPrefix e ctx tokens prewarmed w).2
  | .noteHit key tokensSaved restoreMs savedMs, w => Amf.noteHit e key tokensSaved restoreMs savedMs w
  | .noteFailure key, w => Amf.noteFailure e key w
  | .noteBlock, w => Amf.noteBlock w
  | .noteBlockEntry key, w => Amf.noteBlockEntry e key w
  | .noteMiss, w => Amf.noteMiss w
  | .evictExpired nowMs, w => evictExpiredEntries e nowMs w
  | .setMinAdmitRoi v, w =>
    if isFinite v && !lt v (ofNat 0) then { w with store := { w.store with minAdmitRoi := v } } else w
  | .prewarm key, w => { w with store := w.store.markPrewarmed key }
  | .prewarmDone, w => { w with store := { w.store with prewarmRunning := false } }
  | .shutdown, w => if w.store.enabled then (flushIndex e w).2 else w

def run (e : Env F) : List (Op F) → World F → World F
  | [], w => w
  | op :: ops, w => run e ops (step e op w)

def Store.fresh (minAdmitRoi : F) : Store F where
  enabled := false
  entries := []
  index _ := none
  totalBytes := 0
  minAdmitRoi := minAdmitRoi
  roiDeclineStreak := 0
  admissionsDisabled := false
  prewarmRunning := false
  prewarmedKeys _ := false
  stats := ⟨0, 0, 0, 0, 0, nan, nan, 0, 0, 0, 0, 0, 0, 0, 0, 0, 0⟩

end Korith.Amf
