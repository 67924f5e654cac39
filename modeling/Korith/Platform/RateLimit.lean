import Korith.Lib.Format
import Korith.Lib.Machine
import Korith.Lib.Table

/-!
# Rate limits of the gateway

Both limiters count the requests and the tokens of an organization in windows of a minute. `SqliteRateLimiter` reads
the two counters of the window, tests them, and stores them if the call fits; the call holds a lock.
`RedisRateLimiter` increments both counters in one pipeline, which is taken to be atomic, and tests what it gets back.
The clock is in whole seconds, one for the gateway and for Redis, which is a parameter with laws (`Redis.Server`).
-/

namespace Korith.RateLimit

abbrev Text : Type := List Char

structure Call where
  orgId : Text
  requestInc : Nat
  tokenInc : Nat
  rpmLimit : Int
  tpmLimit : Int
  now : Nat
  deriving DecidableEq

structure Decision where
  allowed : Bool
  reason : String
  orgRequestRate : Nat
  orgTokenRate : Nat
  rpmCap : Int
  tpmCap : Int
  windowEpoch : Nat
  deriving DecidableEq

def window (now : Nat) : Nat := now - now % 60

/-- `burst` is `int(limit * burst_factor)`. -/
def cap (burst : Int → Int) (limit : Int) : Int := max 1 (burst limit)

/-! ### `SqliteRateLimiter` -/

namespace Sqlite

structure WindowRow where
  orgId : Text
  windowEpoch : Nat
  requestCount : Nat
  tokenCount : Nat
  deriving DecidableEq

abbrev Windows : Type := Table (Text × Nat) WindowRow fun r => (r.orgId, r.windowEpoch)

/-- The two counters of a window; a window without a row counts from zero. -/
def counts (s : Windows) (orgId : Text) (windowEpoch : Nat) : Nat × Nat :=
  match s.find (orgId, windowEpoch) with
  | none => (0, 0)
  | some row => (row.requestCount, row.tokenCount)

def prune (windowEpoch : Nat) (s : Windows) : Windows :=
  s.deleteWhere fun r => decide ((r.windowEpoch : Int) < windowEpoch - 120)

def checkAndConsume (burst : Int → Int) (s : Windows) (c : Call) : Decision × Windows :=
  let w := window c.now
  let rpmCap := cap burst c.rpmLimit
  let tpmCap := cap burst c.tpmLimit
  let s := prune w s
  let row := counts s c.orgId w
  let nextReq := row.1 + c.requestInc
  let nextTok := row.2 + c.tokenInc
  if rpmCap < nextReq then (⟨false, "rpm_exceeded", row.1, row.2, rpmCap, tpmCap, w⟩, s)
  else if tpmCap < nextTok then (⟨false, "tpm_exceeded", row.1, row.2, rpmCap, tpmCap, w⟩, s)
  else (⟨true, "ok", nextReq, nextTok, rpmCap, tpmCap, w⟩, s.insertOrReplace ⟨c.orgId, w, nextReq, nextTok⟩)

end Sqlite

/-! ### `RedisRateLimiter` -/

namespace Redis

/-- What is assumed of the Redis server. A command is given the time at which it is run; a key that is not there, or
whose time to live is over, reads as zero. -/
structure Server where
  Db : Type
  empty : Db
  get : Nat → Db → Text → Nat
  incrby : Nat → Text → Nat → Db → Nat × Db
  /-- given the time to live -/
  expire : Nat → Text → Nat → Db → Db
  get_empty (t : Nat) (key : Text) : get t empty key = 0
  incrby_fst (t : Nat) (key : Text) (inc : Nat) (db : Db) : (incrby t key inc db).1 = get t db key + inc
  get_incrby (t : Nat) (key : Text) (inc : Nat) (db : Db) : get t (incrby t key inc db).2 key = get t db key + inc
  get_incrby_ne (t : Nat) (key : Text) (inc : Nat) (db : Db) (t' : Nat) (key' : Text) (h : key' ≠ key) :
    get t' (incrby t key inc db).2 key' = get t' db key'
  get_expire (t : Nat) (key : Text) (ttl : Nat) (db : Db) (t' : Nat) (h : t ≤ t') (h' : t' < t + ttl) :
    get t' (expire t key ttl db) key = get t db key
  get_expire_ne (t : Nat) (key : Text) (ttl : Nat) (db : Db) (t' : Nat) (key' : Text) (h : key' ≠ key) :
    get t' (expire t key ttl db) key' = get t' db key'

def reqKey (orgId : Text) (minute : Nat) : Text := "korith:rl:req:".toList ++ orgId ++ ':' :: dec minute

def tokKey (orgId : Text) (minute : Nat) : Text := "korith:rl:tok:".toList ++ orgId ++ ':' :: dec minute

def checkAndConsume (redis : Server) (burst : Int → Int) (s : redis.Db) (c : Call) : Decision × redis.Db :=
  let minute := window c.now
  let req := redis.incrby c.now (reqKey c.orgId minute) c.requestInc s
  let s := redis.expire c.now (reqKey c.orgId minute) 180 req.2
  let tok := redis.incrby c.now (tokKey c.orgId minute) c.tokenInc s
  let s := redis.expire c.now (tokKey c.orgId minute) 180 tok.2
  let rpmCap := cap burst c.rpmLimit
  let tpmCap := cap burst c.tpmLimit
  if rpmCap < req.1 then (⟨false, "rpm_exceeded", req.1, tok.1, rpmCap, tpmCap, minute⟩, s)
  else if tpmCap < tok.1 then (⟨false, "tpm_exceeded", req.1, tok.1, rpmCap, tpmCap, minute⟩, s)
  else (⟨true, "ok", req.1, tok.1, rpmCap, tpmCap, minute⟩, s)

end Redis

end Korith.RateLimit
