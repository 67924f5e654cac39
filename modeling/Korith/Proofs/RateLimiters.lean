import Mathlib
import Korith.Platform.RateLimit

/-!
# Whether the two rate limiters agree

`RedisRateLimiter` counts a call before it tests it, so a call that it denies is counted all the same, and takes
room from the calls behind it in the same minute. The SQLite limiter counts what it allows. The two agree as long
as no call that asks for something is denied.
-/

namespace Korith.RateLimit

open Machine

variable {burst : Int → Int} {c : Call} {before calls : List Call} {org : Text} {w t t' : Nat} {n : Nat × Nat}

/-! ### Windows -/

theorem window_le (t : Nat) : window t ≤ t := Nat.sub_le _ _

theorem lt_window_add (t : Nat) : t < window t + 60 := by
  unfold window
  omega

theorem window_mono (h : t ≤ t') : window t ≤ window t' := by
  unfold window
  omega

/-! ### What a limiter decides from its counters -/

def Call.inc (c : Call) : Nat × Nat := (c.requestInc, c.tokenInc)

def Decision.verdict (d : Decision) : Bool × String := (d.allowed, d.reason)

def verdict (burst : Int → Int) (c : Call) (n : Nat × Nat) : Bool × String :=
  if cap burst c.rpmLimit < n.1 then (false, "rpm_exceeded")
  else if cap burst c.tpmLimit < n.2 then (false, "tpm_exceeded")
  else (true, "ok")

def Fits (burst : Int → Int) (c : Call) (n : Nat × Nat) : Prop :=
  (n.1 : Int) ≤ cap burst c.rpmLimit ∧ (n.2 : Int) ≤ cap burst c.tpmLimit
  deriving Decidable

theorem verdict_allowed_iff : (verdict burst c n).1 = true ↔ Fits burst c n := by
  unfold verdict Fits
  split_ifs with hreq htok
  · simp only [false_iff]
    omega
  · simp only [false_iff]
    omega
  · simp only [true_iff]
    omega

theorem Fits.mono {m : Nat × Nat} (h : Fits burst c n) (hmn : m ≤ n) : Fits burst c m := by
  obtain ⟨hreq, htok⟩ := hmn
  obtain ⟨hn₁, hn₂⟩ := h
  constructor <;> omega

/-! ### Calls of a window -/

def InWindow (org : Text) (w : Nat) (c : Call) : Prop := c.orgId = org ∧ window c.now = w
  deriving Decidable

def usage (calls : List Call) (org : Text) (w : Nat) : Nat × Nat :=
  ((calls.filter fun c => decide (InWindow org w c)).map Call.inc).sum

theorem usage_concat : usage (before ++ [c]) org w = usage before org w + if InWindow org w c then c.inc else 0 := by
  unfold usage
  rw [List.filter_append, List.map_append, List.sum_append]
  congr 1
  by_cases h : InWindow org w c <;> simp [h]

theorem usage_concat_self :
    usage (before ++ [c]) c.orgId (window c.now) = usage before c.orgId (window c.now) + c.inc := by
  rw [usage_concat, if_pos ⟨rfl, rfl⟩]

theorem usage_le_of_sublist (h : before.Sublist calls) : usage before org w ≤ usage calls org w := by
  refine List.Sublist.sum_le_sum ((h.filter _).map _) fun n _ => ?_
  exact ⟨Nat.zero_le _, Nat.zero_le _⟩

def granted {σ : Type} (step : σ → Call → Decision × σ) : σ → List Call → List Call
  | _, [] => []
  | s, c :: calls =>
    if (step s c).1.allowed then c :: granted step (step s c).2 calls else granted step (step s c).2 calls

section Granted

variable {σ : Type} {step : σ → Call → Decision × σ} {s : σ}

theorem granted_concat :
    granted step s (before ++ [c]) = granted step s before ++ if (answer step s before c).allowed then [c] else [] := by
  induction before generalizing s with
  | nil => rfl
  | cons b before ih =>
    have hanswer : answer step s (b :: before) c = answer step (step s b).2 before c := rfl
    rw [List.cons_append, granted, granted, ih, hanswer]
    by_cases hb : (step s b).1.allowed = true
    · rw [if_pos hb, if_pos hb, List.cons_append]
    · rw [if_neg hb, if_neg hb]

theorem granted_sublist : (granted step s calls).Sublist calls := by
  induction calls generalizing s with
  | nil => exact .slnil
  | cons c calls ih =>
    rw [granted]
    split_ifs
    · exact ih.cons_cons c
    · exact ih.cons c

end Granted

/-! ### `SqliteRateLimiter` -/

namespace Sqlite

variable {s : Windows}

def seen (now : Nat) (s : Windows) (org : Text) : Nat × Nat := counts (prune (window now) s) org (window now)

theorem counts_prune (h : t ≤ w) : counts (prune t s) org w = counts s org w := by
  have hfind : (prune t s).find (org, w) = s.find (org, w) := by
    rw [prune, Table.find_deleteWhere]
    cases hrow : s.find (org, w) with
    | none => rfl
    | some row =>
      obtain ⟨-, hkey⟩ := Table.find_eq_some_iff.1 hrow
      obtain rfl : row.windowEpoch = w := congrArg Prod.snd hkey
      rw [Option.filter_some, if_pos]
      rw [Bool.not_eq_true', decide_eq_false_iff_not]
      omega
  unfold counts
  rw [hfind]

theorem verdict_checkAndConsume :
    (checkAndConsume burst s c).1.verdict = verdict burst c (seen c.now s c.orgId + c.inc) := by
  unfold checkAndConsume verdict seen Call.inc
  simp only [Prod.fst_add, Prod.snd_add]
  split_ifs <;> rfl

theorem allowed_iff : (checkAndConsume burst s c).1.allowed = true ↔ Fits burst c (seen c.now s c.orgId + c.inc) := by
  rw [← verdict_allowed_iff, ← verdict_checkAndConsume]
  rfl

theorem checkAndConsume_snd : (checkAndConsume burst s c).2 =
      if Fits burst c (seen c.now s c.orgId + c.inc) then
        (prune (window c.now) s).insertOrReplace
          ⟨c.orgId, window c.now, (seen c.now s c.orgId + c.inc).1, (seen c.now s c.orgId + c.inc).2⟩
      else prune (window c.now) s := by
  simp only [checkAndConsume]
  by_cases hfits : Fits burst c (seen c.now s c.orgId + c.inc)
  · rw [if_pos hfits]
    split_ifs with hreq htok
    · exact absurd hfits.1 (Int.not_le.2 hreq)
    · exact absurd hfits.2 (Int.not_le.2 htok)
    · rfl
  · rw [if_neg hfits]
    split_ifs with hreq htok
    · rfl
    · rfl
    · exact absurd ⟨Int.not_lt.1 hreq, Int.not_lt.1 htok⟩ hfits

theorem counts_insertOrReplace {row : WindowRow} : counts (s.insertOrReplace row) org w =
      if (row.orgId, row.windowEpoch) = (org, w) then (row.requestCount, row.tokenCount) else counts s org w := by
  unfold counts
  rw [Table.find_insertOrReplace]
  split_ifs <;> rfl

theorem counts_checkAndConsume (h : window c.now ≤ w) : counts (checkAndConsume burst s c).2 org w =
      counts s org w + if (checkAndConsume burst s c).1.allowed ∧ InWindow org w c then c.inc else 0 := by
  rw [checkAndConsume_snd]
  by_cases hfits : Fits burst c (seen c.now s c.orgId + c.inc)
  · rw [if_pos hfits, counts_insertOrReplace, counts_prune h]
    by_cases hin : InWindow org w c
    · obtain ⟨rfl, rfl⟩ := hin
      rw [if_pos rfl, if_pos ⟨allowed_iff.2 hfits, rfl, rfl⟩, ← counts_prune h]
      rfl
    · have hkey : ¬ (c.orgId, window c.now) = (org, w) := fun h => hin ⟨congrArg Prod.fst h, congrArg Prod.snd h⟩
      rw [if_neg hkey, if_neg fun hand => hin hand.2, add_zero]
  · rw [if_neg hfits, if_neg fun hand => hfits (allowed_iff.1 hand.1), counts_prune h, add_zero]

theorem counts_after (hclock : calls.Pairwise fun a b => a.now ≤ b.now) (ht : ∀ c ∈ calls, c.now ≤ t)
    (hw : window t ≤ w) : counts (after (checkAndConsume burst) Table.empty calls) org w =
      usage (granted (checkAndConsume burst) Table.empty calls) org w := by
  induction calls using List.reverseRecOn generalizing t with
  | nil => rfl
  | append_singleton before c ih =>
    obtain ⟨hbefore, -, hlast⟩ := List.pairwise_append.1 hclock
    have hc : c.now ≤ t := ht c (by simp)
    have hcw : window c.now ≤ w := Nat.le_trans (window_mono hc) hw
    have hcounts := ih hbefore (fun b hb => hlast b hb c (by simp)) hcw
    rw [after_concat, counts_checkAndConsume hcw, hcounts, granted_concat]
    by_cases hallowed : (answer (checkAndConsume burst) Table.empty before c).allowed = true
    · rw [if_pos hallowed, usage_concat]
      congr 1
      exact if_congr (and_iff_right hallowed) rfl rfl
    · rw [if_neg hallowed, List.append_nil, if_neg fun hand => hallowed hand.1, add_zero]

end Sqlite

/-! ### `RedisRateLimiter` -/

namespace Redis

variable {redis : Server} {db : redis.Db} {key key' : Text} {org' : Text} {w' inc : Nat}

theorem key_injective (p : Text) (h : p ++ org ++ ':' :: dec w = p ++ org' ++ ':' :: dec w') : org = org' ∧ w = w' := by
  obtain ⟨horg, hminute⟩ := append_cons_inj colon_notMem_dec colon_notMem_dec h
  exact ⟨List.append_cancel_left horg, dec_injective hminute⟩

theorem key_ne {p p' rest rest' : Text} (hlen : p.length = p'.length) (hne : p ≠ p') :
    p ++ org ++ rest ≠ p' ++ org' ++ rest' := by
  intro h
  rw [List.append_assoc, List.append_assoc] at h
  exact hne (List.append_inj h hlen).1

theorem reqKey_injective (h : reqKey org w = reqKey org' w') : org = org' ∧ w = w' := key_injective _ h

theorem tokKey_injective (h : tokKey org w = tokKey org' w') : org = org' ∧ w = w' := key_injective _ h

theorem reqKey_ne_tokKey : reqKey org w ≠ tokKey org' w' := key_ne (by decide) (by decide)

/-- A counter and its time to live, as the limiter sets them. -/
def bump (redis : Server) (t : Nat) (key : Text) (inc : Nat) (db : redis.Db) : redis.Db :=
  redis.expire t key 180 (redis.incrby t key inc db).2

theorem get_bump (h : t ≤ t') (ht : t' < t + 180) :
    redis.get t' (bump redis t key inc db) key = redis.get t db key + inc :=
  (redis.get_expire t key 180 _ t' h ht).trans (redis.get_incrby t key inc db)

theorem get_bump_ne (h : key' ≠ key) : redis.get t' (bump redis t key inc db) key' = redis.get t' db key' :=
  (redis.get_expire_ne t key 180 _ t' key' h).trans (redis.get_incrby_ne t key inc db t' key' h)

def seen (redis : Server) (now : Nat) (db : redis.Db) (org : Text) : Nat × Nat :=
  (redis.get now db (reqKey org (window now)), redis.get now db (tokKey org (window now)))

theorem checkAndConsume_snd : (checkAndConsume redis burst db c).2 =
      bump redis c.now (tokKey c.orgId (window c.now)) c.tokenInc
        (bump redis c.now (reqKey c.orgId (window c.now)) c.requestInc db) := by
  simp only [checkAndConsume]
  split_ifs <;> rfl

theorem verdict_checkAndConsume :
    (checkAndConsume redis burst db c).1.verdict = verdict burst c (seen redis c.now db c.orgId + c.inc) := by
  have htok : redis.get c.now (bump redis c.now (reqKey c.orgId (window c.now)) c.requestInc db)
      (tokKey c.orgId (window c.now)) = redis.get c.now db (tokKey c.orgId (window c.now)) :=
    get_bump_ne reqKey_ne_tokKey.symm
  unfold bump at htok
  unfold checkAndConsume verdict seen Call.inc
  simp only [Prod.fst_add, Prod.snd_add, redis.incrby_fst, htok]
  split_ifs <;> rfl

theorem seen_checkAndConsume (h : c.now ≤ t) : seen redis t (checkAndConsume redis burst db c).2 org =
      if InWindow org (window t) c then seen redis c.now db org + c.inc else seen redis t db org := by
  rw [checkAndConsume_snd]
  unfold seen
  by_cases hin : InWindow org (window t) c
  · obtain ⟨rfl, hw⟩ := hin
    have ht : t < c.now + 180 := by
      have := lt_window_add t
      have := window_le c.now
      omega
    rw [if_pos ⟨rfl, hw⟩, ← hw, get_bump_ne reqKey_ne_tokKey, get_bump h ht, get_bump h ht,
      get_bump_ne reqKey_ne_tokKey.symm]
    rfl
  · have hreqKey : reqKey org (window t) ≠ reqKey c.orgId (window c.now) := fun heq =>
      hin ⟨(reqKey_injective heq).1.symm, (reqKey_injective heq).2.symm⟩
    have htokKey : tokKey org (window t) ≠ tokKey c.orgId (window c.now) := fun heq =>
      hin ⟨(tokKey_injective heq).1.symm, (tokKey_injective heq).2.symm⟩
    rw [if_neg hin, get_bump_ne reqKey_ne_tokKey, get_bump_ne hreqKey, get_bump_ne htokKey,
      get_bump_ne reqKey_ne_tokKey.symm]

theorem seen_after (h : calls.Pairwise fun a b => a.now ≤ b.now) (ht : ∀ c ∈ calls, c.now ≤ t) :
    seen redis t (after (checkAndConsume redis burst) redis.empty calls) org = usage calls org (window t) := by
  induction calls using List.reverseRecOn generalizing t org with
  | nil => exact Prod.ext (redis.get_empty _ _) (redis.get_empty _ _)
  | append_singleton before c ih =>
    obtain ⟨hbefore, -, hlast⟩ := List.pairwise_append.1 h
    rw [after_concat, seen_checkAndConsume (ht c (by simp)), usage_concat]
    split_ifs with hin
    · rw [ih hbefore fun b hb => hlast b hb c (by simp), hin.2]
    · rw [ih hbefore fun b hb => ht b (by simp [hb]), add_zero]

def readAt (t : Nat) : Nat × Option Nat → Nat
  | (n, none) => n
  | (n, some e) => if e ≤ t then 0 else n

theorem readAt_filter (n : Nat) (e : Option Nat) : readAt t (n, e.filter fun e => decide (t < e)) = n := by
  cases e with
  | none => rfl
  | some e =>
    rw [Option.filter_some]
    split_ifs with h
    · exact if_neg (Nat.not_le.2 (of_decide_eq_true h))
    · rfl

/-- A server in memory: the value of each key, with the time at which it is gone. -/
def memory : Server where
  Db := Text → Nat × Option Nat
  empty := fun _ => (0, none)
  get := fun t db key => readAt t (db key)
  incrby := fun t key inc db => (readAt t (db key) + inc,
    Function.update db key (readAt t (db key) + inc, (db key).2.filter fun e => decide (t < e)))
  expire := fun t key ttl db => Function.update db key (readAt t (db key), some (t + ttl))
  get_empty := fun _ _ => rfl
  incrby_fst := fun _ _ _ _ => rfl
  get_incrby := fun t key _ db => by
    dsimp only
    rw [Function.update_self, readAt_filter]
  get_incrby_ne := fun _ _ _ _ t' _ h => congrArg (readAt t') (Function.update_of_ne h _ _)
  get_expire := fun _ _ _ _ _ _ h' => by rw [Function.update_self, readAt, if_neg (Nat.not_le.2 h')]
  get_expire_ne := fun _ _ _ _ t' _ h => congrArg (readAt t') (Function.update_of_ne h _ _)

end Redis

/-! ### Result -/

variable {redis : Redis.Server}

abbrev InTime (calls : List Call) : Prop := calls.Pairwise fun a b => a.now ≤ b.now

/-- The call asks for nothing, or the requests and tokens of all calls of its organization in its minute, its own
included, are within its caps. -/
def Room (burst : Int → Int) (before : List Call) (c : Call) : Prop :=
  c.inc = 0 ∨ Fits burst c (usage (before ++ [c]) c.orgId (window c.now))
  deriving Decidable

/-- One verdict; no counter moves if the call is denied; and if it is allowed, the calls of its window that were
allowed are within its caps. -/
structure Good (redis : Redis.Server) (burst : Int → Int) (before : List Call) (c : Call) : Prop where
  agree : (answer (Sqlite.checkAndConsume burst) Table.empty before c).verdict =
    (answer (Redis.checkAndConsume redis burst) redis.empty before c).verdict
  sqliteDenied : (answer (Sqlite.checkAndConsume burst) Table.empty before c).allowed = false →
    ∀ org, Sqlite.seen c.now (after (Sqlite.checkAndConsume burst) Table.empty (before ++ [c])) org =
      Sqlite.seen c.now (after (Sqlite.checkAndConsume burst) Table.empty before) org
  redisDenied : (answer (Redis.checkAndConsume redis burst) redis.empty before c).allowed = false →
    ∀ org, Redis.seen redis c.now (after (Redis.checkAndConsume redis burst) redis.empty (before ++ [c])) org =
      Redis.seen redis c.now (after (Redis.checkAndConsume redis burst) redis.empty before) org
  sqliteCaps : (answer (Sqlite.checkAndConsume burst) Table.empty before c).allowed = true →
    Fits burst c (usage (granted (Sqlite.checkAndConsume burst) Table.empty (before ++ [c])) c.orgId (window c.now))
  redisCaps : (answer (Redis.checkAndConsume redis burst) redis.empty before c).allowed = true →
    Fits burst c
      (usage (granted (Redis.checkAndConsume redis burst) redis.empty (before ++ [c])) c.orgId (window c.now))

variable (h : InTime (before ++ [c]))

include h

theorem InTime.last : InTime before ∧ ∀ b ∈ before, b.now ≤ c.now := by
  obtain ⟨hbefore, -, hlast⟩ := List.pairwise_append.1 h
  exact ⟨hbefore, fun b hb => hlast b hb c (List.mem_singleton_self c)⟩

theorem InTime.le_last : ∀ b ∈ before ++ [c], b.now ≤ c.now := by
  intro b hb
  rcases List.mem_append.1 hb with hb | hb
  · exact h.last.2 b hb
  · rw [List.mem_singleton.1 hb]

omit h in
theorem Sqlite.seen_after (h : InTime calls) (ht : ∀ c ∈ calls, c.now ≤ t) :
    Sqlite.seen t (after (Sqlite.checkAndConsume burst) Table.empty calls) org =
      usage (granted (Sqlite.checkAndConsume burst) Table.empty calls) org (window t) :=
  (counts_prune (Nat.le_refl _)).trans (counts_after h ht (Nat.le_refl _))

theorem Sqlite.allowed_answer : (answer (Sqlite.checkAndConsume burst) Table.empty before c).allowed = true ↔
      Fits burst c (usage (granted (Sqlite.checkAndConsume burst) Table.empty before) c.orgId (window c.now) + c.inc) := by
  rw [← Sqlite.seen_after h.last.1 h.last.2]
  exact Sqlite.allowed_iff

omit h in
theorem usage_granted (h : InTime calls) (hroom : Every (Room burst) calls) :
    usage (granted (Sqlite.checkAndConsume burst) Table.empty calls) org w = usage calls org w := by
  induction calls using List.reverseRecOn generalizing org w with
  | nil => rfl
  | append_singleton before c ih =>
    obtain ⟨hbefore, hc⟩ := every_concat.1 hroom
    rw [granted_concat]
    by_cases hallowed : (answer (Sqlite.checkAndConsume burst) Table.empty before c).allowed = true
    · rw [if_pos hallowed, usage_concat, usage_concat, ih h.last.1 hbefore]
    · rw [if_neg hallowed, List.append_nil, usage_concat, ih h.last.1 hbefore]
      rcases hc with hzero | hfits
      · rw [hzero, ite_self, add_zero]
      · refine absurd ((Sqlite.allowed_answer h).2 ?_) hallowed
        rwa [ih h.last.1 hbefore, ← usage_concat_self]

theorem verdict_redis : (answer (Redis.checkAndConsume redis burst) redis.empty before c).verdict =
      verdict burst c (usage (before ++ [c]) c.orgId (window c.now)) := by
  rw [usage_concat_self, ← Redis.seen_after h.last.1 h.last.2]
  exact Redis.verdict_checkAndConsume

theorem verdict_sqlite (hroom : Every (Room burst) before) :
    (answer (Sqlite.checkAndConsume burst) Table.empty before c).verdict =
      verdict burst c (usage (before ++ [c]) c.orgId (window c.now)) := by
  rw [usage_concat_self, ← usage_granted h.last.1 hroom, ← Sqlite.seen_after h.last.1 h.last.2]
  exact Sqlite.verdict_checkAndConsume

theorem redis_allowed_iff : (answer (Redis.checkAndConsume redis burst) redis.empty before c).allowed = true ↔
      Fits burst c (usage (before ++ [c]) c.orgId (window c.now)) := by
  rw [← verdict_allowed_iff, ← verdict_redis h]
  rfl

theorem redis_seen_iff :
    (∀ org, Redis.seen redis c.now (after (Redis.checkAndConsume redis burst) redis.empty (before ++ [c])) org =
      Redis.seen redis c.now (after (Redis.checkAndConsume redis burst) redis.empty before) org) ↔ c.inc = 0 := by
  have hseen : ∀ org, Redis.seen redis c.now (after (Redis.checkAndConsume redis burst) redis.empty (before ++ [c])) org =
      Redis.seen redis c.now (after (Redis.checkAndConsume redis burst) redis.empty before) org +
        if InWindow org (window c.now) c then c.inc else 0 := by
    intro org
    rw [Redis.seen_after h h.le_last, Redis.seen_after h.last.1 h.last.2, usage_concat]
  constructor
  · intro hsame
    have hown := (hseen c.orgId).symm.trans (hsame c.orgId)
    rwa [if_pos ⟨rfl, rfl⟩, add_eq_left] at hown
  · intro hzero org
    rw [hseen, hzero, ite_self, add_zero]

theorem sqlite_denied
    (hdenied : (answer (Sqlite.checkAndConsume burst) Table.empty before c).allowed = false) (org : Text) :
    Sqlite.seen c.now (after (Sqlite.checkAndConsume burst) Table.empty (before ++ [c])) org =
      Sqlite.seen c.now (after (Sqlite.checkAndConsume burst) Table.empty before) org := by
  rw [Sqlite.seen_after h h.le_last, Sqlite.seen_after h.last.1 h.last.2, granted_concat, hdenied]
  simp

theorem sqlite_caps (hallowed : (answer (Sqlite.checkAndConsume burst) Table.empty before c).allowed = true) :
    Fits burst c (usage (granted (Sqlite.checkAndConsume burst) Table.empty (before ++ [c])) c.orgId (window c.now)) := by
  rw [granted_concat, if_pos hallowed, usage_concat_self]
  exact (Sqlite.allowed_answer h).1 hallowed

theorem redis_caps (hallowed : (answer (Redis.checkAndConsume redis burst) redis.empty before c).allowed = true) :
    Fits burst c
      (usage (granted (Redis.checkAndConsume redis burst) redis.empty (before ++ [c])) c.orgId (window c.now)) :=
  ((redis_allowed_iff h).1 hallowed).mono (usage_le_of_sublist granted_sublist)

theorem good_iff_room (hroom : Every (Room burst) before) : Good redis burst before c ↔ Room burst before c := by
  constructor
  · intro hgood
    by_cases hfits : Fits burst c (usage (before ++ [c]) c.orgId (window c.now))
    · exact .inr hfits
    · have hdenied : (answer (Redis.checkAndConsume redis burst) redis.empty before c).allowed = false :=
        Bool.eq_false_iff.2 fun hallowed => hfits ((redis_allowed_iff h).1 hallowed)
      exact .inl ((redis_seen_iff h).1 (hgood.redisDenied hdenied))
  · intro hc
    refine ⟨(verdict_sqlite h hroom).trans (verdict_redis h).symm, sqlite_denied h, fun hdenied => ?_, sqlite_caps h,
      redis_caps h⟩
    rcases hc with hzero | hfits
    · exact (redis_seen_iff h).2 hzero
    · exact absurd ((redis_allowed_iff h).2 hfits) (Bool.eq_false_iff.1 hdenied)

omit h

theorem limiters_agree_iff (h : InTime calls) : Every (Good redis burst) calls ↔ Every (Room burst) calls :=
  every_iff (fun _ _ h => h.last.1) (fun _ _ => good_iff_room) h

theorem limiters_agree_two : let calls : List Call := [⟨['a'], 1, 4, 10, 10, 60⟩, ⟨['a'], 1, 6, 10, 10, 70⟩]
    InTime calls ∧ Every (Good Redis.memory id) calls := by
  intro calls
  have htime : InTime calls := by decide
  exact ⟨htime, (limiters_agree_iff htime).2 (by decide +kernel)⟩

/-- A call for more tokens than a minute has, then one that would fit: the Redis limiter has counted the first. -/
theorem limiters_disagree : let large : Call := ⟨['a'], 1, 11, 10, 10, 60⟩
    let small : Call := ⟨['a'], 1, 5, 10, 10, 70⟩
    (answer (Sqlite.checkAndConsume id) Table.empty [] large).verdict = (false, "tpm_exceeded") ∧
      (answer (Redis.checkAndConsume Redis.memory id) Redis.memory.empty [] large).verdict = (false, "tpm_exceeded") ∧
      (answer (Sqlite.checkAndConsume id) Table.empty [large] small).verdict = (true, "ok") ∧
      (answer (Redis.checkAndConsume Redis.memory id) Redis.memory.empty [large] small).verdict =
        (false, "tpm_exceeded") ∧
      Redis.seen Redis.memory 60 (after (Redis.checkAndConsume Redis.memory id) Redis.memory.empty [large]) ['a'] =
        (1, 11) := by
  decide +kernel

end Korith.RateLimit
