import Korith.Amf.Lookup
import Korith.Amf.Name
import Korith.Lib.StableSort

/-!
# What the sweeps of the store remove

Both sweeps erase one entry after the other from the vector that they scan. `evict_expired_entries` leaves the entries that
are not expired (`expireLoop_swept`). `evict_if_needed` takes the first of the least entries each time, which is the head
of the sorted entries (`stableSort_of_isFirst`), so what it removes is a part of them from the front.
-/

set_option linter.unusedSectionVars false

namespace Korith.Amf

open FloatArith

variable {F : Type} [FloatArith F] {e : Env F} {w : World F} {x y z : AmfEntry F} {now : Nat}
  {pre post : List (AmfEntry F)} {i : Nat}

/-! ### One eviction -/

theorem getElem?_split (h : w.store.entries = pre ++ x :: post) : w.store.entries[pre.length]? = some x := by
  simp [h]

theorem entries_evict_split (h : w.store.entries = pre ++ x :: post) :
    (evictEntryAt e pre.length w).store.entries = pre ++ post := by
  rw [evictEntryAt_entries (getElem?_split h), h, List.eraseIdx_append_of_length_le (Nat.le_refl _), Nat.sub_self]
  rfl

variable (h : Indexed AmfEntry.key w.store.entries w.store.index)

include h

theorem indexed_evict (hx : w.store.entries[i]? = some x) :
    Indexed AmfEntry.key (evictEntryAt e i w).store.entries (evictEntryAt e i w).store.index := by
  rw [evictEntryAt_store hx]
  exact indexed_rebuild (h.eraseIdx_nodup i)

omit h in
theorem files_evict (hremove : ∀ n, e.removeOk n = true) (hx : w.store.entries[i]? = some x) :
    (evictEntryAt e i w).disk.tok x.key = none ∧ (evictEntryAt e i w).disk.kv x.key = none := by
  unfold evictEntryAt
  rw [hx]
  simp only [flushIndex, removeTok, removeKv, hremove, if_true]
  split_ifs <;> simp

/-! ### Expired entries -/

def Expired (e : Env F) (now : Nat) (x : AmfEntry F) : Prop :=
  (0 < x.expiresAtMs ∧ x.expiresAtMs < now) ∨
    let last := if 0 < x.lastHitMs then x.lastHitMs else x.lastUsed
    0 < e.maxAgeMs ∧ 0 < last ∧ last < now ∧ e.maxAgeMs < now - last
  deriving Decidable

omit h in
theorem tooOld_iff : tooOld e now x = true ↔ Expired e now x := by
  simp only [tooOld, Expired, AmfEntry.expired, Bool.or_eq_true, Bool.and_eq_true, decide_eq_true_eq, and_assoc,
    Nat.pos_iff_ne_zero]

/-- What the loop does to the entries `rest` that it has not looked at yet. -/
structure Swept (e : Env F) (now : Nat) (rest : List (AmfEntry F)) (w w' : World F) : Prop where
  indexed : Indexed AmfEntry.key w'.store.entries w'.store.index
  kept : ∀ key, (∀ x ∈ rest, Expired e now x → x.key ≠ key) →
    w'.disk.tok key = w.disk.tok key ∧ w'.disk.kv key = w.disk.kv key
  deleted : (∀ n, e.removeOk n = true) → ∀ x ∈ rest, Expired e now x →
    w'.disk.tok x.key = none ∧ w'.disk.kv x.key = none

theorem expireLoop_swept {done rest : List (AmfEntry F)} (hw : w.store.entries = done ++ rest) :
    (expireLoop e now rest.length done.length w).store.entries = done ++ rest.filter (fun x => !decide (Expired e now x)) ∧
      Swept e now rest w (expireLoop e now rest.length done.length w) := by
  induction rest generalizing done w with
  | nil => exact ⟨hw, h, fun _ _ => ⟨rfl, rfl⟩, fun _ _ hx => absurd hx List.not_mem_nil⟩
  | cons x rest ih =>
    have hx := getElem?_split hw
    rw [List.length_cons, expireLoop, hx]
    dsimp only
    by_cases hold : Expired e now x
    · rw [if_pos (tooOld_iff.2 hold), List.filter_cons_of_neg (by simpa using hold)]
      obtain ⟨hentries, hswept⟩ := ih (indexed_evict h hx) (entries_evict_split hw)
      have hother : ∀ y ∈ rest, y.key ≠ x.key := by
        have hnodup := h.nodup
        rw [hw, List.map_append, List.map_cons, List.nodup_append, List.nodup_cons] at hnodup
        exact fun y hy heq => hnodup.2.1.1 (heq ▸ List.mem_map_of_mem hy)
      refine ⟨hentries, hswept.indexed, fun key hkey => ?_, fun hremove y hy hexp => ?_⟩
      · have hne : key ≠ x.key := (hkey x List.mem_cons_self hold).symm
        obtain ⟨htok, hkv⟩ := hswept.kept key fun y hy => hkey y (List.mem_cons_of_mem _ hy)
        exact ⟨htok.trans (evictEntryAt_files hx hne).1, hkv.trans (evictEntryAt_files hx hne).2⟩
      · rcases List.mem_cons.1 hy with rfl | hy
        · obtain ⟨htok, hkv⟩ := hswept.kept y.key fun z hz _ => hother z hz
          exact ⟨htok.trans (files_evict hremove hx).1, hkv.trans (files_evict hremove hx).2⟩
        · exact hswept.deleted hremove y hy hexp
    · rw [if_neg (mt tooOld_iff.1 hold), List.filter_cons_of_pos (by simpa using hold)]
      have hw' : w.store.entries = done ++ [x] ++ rest := by simpa using hw
      obtain ⟨hentries, hswept⟩ := ih h hw'
      rw [List.length_append, List.length_singleton] at hentries hswept
      refine ⟨by simpa using hentries, hswept.indexed, fun key hkey => ?_, fun hremove y hy hexp => ?_⟩
      · exact hswept.kept key fun y hy => hkey y (List.mem_cons_of_mem _ hy)
      · rcases List.mem_cons.1 hy with rfl | hy
        · exact absurd hexp hold
        · exact hswept.deleted hremove y hy hexp

theorem find?_iff {key : AmfKey} : w.store.find? key = some (i, x) ↔ w.store.entries[i]? = some x ∧ x.key = key := by
  rw [Store.find?, Option.bind_eq_some_iff]
  constructor
  · rintro ⟨j, hj, hx⟩
    obtain ⟨y, hy, heq⟩ := Option.map_eq_some_iff.1 hx
    obtain ⟨rfl, rfl⟩ := Prod.mk.inj heq
    have hkey := (h.iff key j).1 hj
    rw [hy] at hkey
    exact ⟨hy, Option.some.inj hkey⟩
  · rintro ⟨hx, rfl⟩
    exact ⟨i, (h.iff _ i).2 (by rw [hx]; rfl), by rw [hx]; rfl⟩

omit h

/-- The files with the names of the expired entries are deleted, unless the system refuses to, and no other file is.
-/
structure ExpiredRemoved (e : Env F) (now : Nat) (w w' : World F) : Prop where
  entries : w'.store.entries = w.store.entries.filter (fun x => !decide (Expired e now x))
  found : ∀ key i x, w'.store.find? key = some (i, x) ↔ w'.store.entries[i]? = some x ∧ x.key = key
  gone : ∀ x ∈ w.store.entries, Expired e now x → w'.store.find? x.key = none
  deleted : (∀ n, e.removeOk n = true) → ∀ key,
    (∃ x ∈ w.store.entries, Expired e now x ∧ entryBasename x.key = entryBasename key) →
      w'.disk.tok key = none ∧ w'.disk.kv key = none
  kept : ∀ key, ¬ (∃ x ∈ w.store.entries, Expired e now x ∧ entryBasename x.key = entryBasename key) →
    w'.disk.tok key = w.disk.tok key ∧ w'.disk.kv key = w.disk.kv key

theorem expired_removed_exactly (h : Indexed AmfEntry.key w.store.entries w.store.index)
    (henabled : w.store.enabled = true) (hnow : 0 < now) : ExpiredRemoved e now w (evictExpiredEntries e now w) := by
  obtain ⟨hentries, hswept⟩ : (evictExpiredEntries e now w).store.entries =
      w.store.entries.filter (fun x => !decide (Expired e now x)) ∧
      Swept e now w.store.entries w (evictExpiredEntries e now w) := by
    unfold evictExpiredEntries
    split_ifs with hskip
    · have hnil : w.store.entries = [] := by simpa [henabled, hnow.ne'] using hskip
      rw [hnil]
      exact ⟨rfl, h, fun _ _ => ⟨rfl, rfl⟩, fun _ _ hx => absurd hx List.not_mem_nil⟩
    · exact expireLoop_swept h (List.nil_append _).symm
  have hfind : ∀ key i x, (evictExpiredEntries e now w).store.find? key = some (i, x) ↔
      (evictExpiredEntries e now w).store.entries[i]? = some x ∧ x.key = key := fun _ _ _ => find?_iff hswept.indexed
  refine ⟨hentries, hfind, fun x hx hexp => ?_, fun hremove key => ?_, fun key hnone => ?_⟩
  · by_contra hne
    obtain ⟨⟨i, y⟩, hy⟩ := Option.ne_none_iff_exists'.1 hne
    obtain ⟨hget, hkey⟩ := (hfind _ i y).1 hy
    have hmem := List.mem_of_getElem? hget
    rw [hentries, List.mem_filter] at hmem
    obtain rfl := List.inj_on_of_nodup_map h.nodup hmem.1 hx hkey
    simp [hexp] at hmem
  · rintro ⟨x, hx, hexp, hname⟩
    obtain rfl := entryBasename_injective hname
    exact hswept.deleted hremove x hx hexp
  · exact hswept.kept key fun x hx hexp heq => hnone ⟨x, hx, hexp, congrArg entryBasename heq⟩

theorem expired_removed_first :
    (evictExpiredEntries { smallEnv with maxAgeMs := 9000 } 16000 (run smallEnv threeEntries emptyWorld)).store.entries =
      (run smallEnv threeEntries emptyWorld).store.entries.drop 1 :=
  (expired_removed_exactly threeEntries_reachable.inv.rep.indexed (by decide) (by decide)).entries.trans (by decide)

/-! ### The order of the budget sweep -/

def Tier.rank : Tier → Nat
  | .cold => 0
  | .warm => 1
  | .hot => 2

/-- Cold entries come first, then warm, then hot ones; within a tier the policy decides. -/
def goesBefore (e : Env F) (now : Nat) (x y : AmfEntry F) : Bool :=
  decide ((classifyTier e x now).rank < (classifyTier e y now).rank) ||
    (decide (classifyTier e x now = classifyTier e y now) && isBetter e.evictionPolicy x y)

def evictionOrder (e : Env F) (now : Nat) (entries : List (AmfEntry F)) : List (AmfEntry F) :=
  stableSort (goesBefore e now) entries

/-- The value of a return on investment, and what decides between equal ones. -/
noncomputable def policyKey (policy : EvictionPolicy) (x : AmfEntry Frac) : ℚ ×ₗ ℕ ×ₗ ℕ :=
  match policy with
  | .lru => toLex (0, toLex (x.last, x.accessCount))
  | .lfu => toLex (0, toLex (x.accessCount, x.last))
  | .roi => toLex ((roiScore x).num / (roiScore x).den, toLex (x.accessCount, x.last))

theorem roiScore_den (x : AmfEntry Frac) : (roiScore x).den ≠ 0 := by
  unfold roiScore
  split_ifs with h₁ h₂
  · simpa [isFinite] using h₁
  · dsimp only
    split_ifs with h₃
    · simpa [isFinite] using h₃
    · exact Nat.one_ne_zero
  · exact Nat.one_ne_zero

theorem lt_roiScore (x y : AmfEntry Frac) : lt (roiScore x) (roiScore y) = true ↔
    ((roiScore x).num / (roiScore x).den : ℚ) < (roiScore y).num / (roiScore y).den := by
  have hx := roiScore_den x
  have hy := roiScore_den y
  have hx' : (0 : ℚ) < (roiScore x).den := by exact_mod_cast Nat.pos_of_ne_zero hx
  have hy' : (0 : ℚ) < (roiScore y).den := by exact_mod_cast Nat.pos_of_ne_zero hy
  rw [div_lt_div_iff₀ hx' hy']
  have hlt : lt (roiScore x) (roiScore y) =
      decide ((roiScore x).num * (roiScore y).den < (roiScore y).num * (roiScore x).den) := by
    simp [lt, hx, hy]
  rw [hlt, decide_eq_true_eq]
  exact_mod_cast Iff.rfl

theorem isBetter_iff (policy : EvictionPolicy) (x y : AmfEntry Frac) :
    isBetter policy x y = true ↔ policyKey policy x < policyKey policy y := by
  cases policy with
  | lru =>
    simp only [isBetter, policyKey, Prod.Lex.toLex_lt_toLex, lt_irrefl, false_or, true_and]
    split_ifs <;> simp <;> omega
  | lfu =>
    simp only [isBetter, policyKey, Prod.Lex.toLex_lt_toLex, lt_irrefl, false_or, true_and]
    split_ifs <;> simp <;> omega
  | roi =>
    simp only [isBetter, policyKey, Prod.Lex.toLex_lt_toLex, Bool.or_eq_true, lt_roiScore, lt_or_lt_iff_ne]
    split_ifs with hne hcount
    · simp [hne, lt_roiScore]
    · simp [not_not.1 hne]
      omega
    · simp [not_not.1 hne]
      omega

/-! ### Victims -/

def Best (e : Env F) (tier : Tier) (now : Nat) (seen : List (AmfEntry F)) : Option (Nat × AmfEntry F) → Prop
  | none => ∀ y ∈ seen, classifyTier e y now ≠ tier
  | some (b, x) => ∃ pre post, seen = pre ++ x :: post ∧ b = pre.length ∧ classifyTier e x now = tier ∧
      (∀ y ∈ pre, classifyTier e y now = tier → isBetter e.evictionPolicy x y = true) ∧
      ∀ y ∈ post, classifyTier e y now = tier → isBetter e.evictionPolicy y x = false

section Victims

variable {e : Env Frac} {w : World Frac} {s : Store Frac} {tier : Tier} {incoming : Nat}
  {seen xs : List (AmfEntry Frac)} {best : Option (Nat × AmfEntry Frac)} {b : Nat} {cur : AmfEntry Frac}

theorem Best.keep {x : AmfEntry Frac} (h : Best e tier now seen (some (b, cur)))
    (hx : classifyTier e x now = tier → isBetter e.evictionPolicy x cur = false) :
    Best e tier now (seen ++ [x]) (some (b, cur)) := by
  obtain ⟨pre, post, rfl, hb, htier, hpre, hpost⟩ := h
  refine ⟨pre, post ++ [x], by simp, hb, htier, hpre, fun y hy hy' => ?_⟩
  rcases List.mem_append.1 hy with hy | hy
  · exact hpost y hy hy'
  · obtain rfl := List.mem_singleton.1 hy
    exact hx hy'

theorem Best.replace {x : AmfEntry Frac} (h : Best e tier now seen (some (b, cur)))
    (htier : classifyTier e x now = tier) (hx : isBetter e.evictionPolicy x cur = true) :
    Best e tier now (seen ++ [x]) (some (seen.length, x)) := by
  obtain ⟨pre, post, rfl, -, -, hpre, hpost⟩ := h
  refine ⟨_, [], rfl, rfl, htier, fun y hy hy' => ?_, fun y hy => absurd hy List.not_mem_nil⟩
  have hlt := (isBetter_iff _ _ _).1 hx
  rcases List.mem_append.1 hy with hy | hy
  · exact (isBetter_iff _ _ _).2 (hlt.trans ((isBetter_iff _ _ _).1 (hpre y hy hy')))
  · rcases List.mem_cons.1 hy with rfl | hy
    · exact hx
    · have hle : ¬ policyKey e.evictionPolicy y < policyKey e.evictionPolicy cur := by
        rw [← isBetter_iff, hpost y hy hy']
        exact Bool.false_ne_true
      exact (isBetter_iff _ _ _).2 (hlt.trans_le (not_lt.1 hle))

theorem best_pickFrom {idx : Nat} (h : Best e tier now seen best)
    (hpick : pickFrom e tier now xs seen.length best = some idx) : ∃ x, Best e tier now (seen ++ xs) (some (idx, x)) := by
  induction xs generalizing seen best with
  | nil =>
    obtain ⟨⟨b, x⟩, rfl, rfl⟩ := Option.map_eq_some_iff.1 hpick
    exact ⟨x, by simpa using h⟩
  | cons x xs ih =>
    have hlen : (seen ++ [x]).length = seen.length + 1 := by simp
    rw [List.append_cons]
    cases best with
    | none =>
      rw [pickFrom, ← hlen] at hpick
      refine ih ?_ hpick
      split_ifs with htier
      · intro y hy
        rcases List.mem_append.1 hy with hy | hy
        · exact h y hy
        · exact List.mem_singleton.1 hy ▸ htier
      · exact ⟨seen, [], rfl, rfl, not_not.1 htier, fun y hy hy' => absurd hy' (h y hy), fun y hy => by cases hy⟩
    | some cur =>
      obtain ⟨b, cur⟩ := cur
      rw [pickFrom, ← hlen] at hpick
      refine ih ?_ hpick
      split_ifs with htier hbetter
      · exact h.keep fun hx => absurd hx htier
      · exact h.replace (not_not.1 htier) hbetter
      · exact h.keep fun _ => by simpa using hbetter

theorem Best.isFirst {x : AmfEntry Frac} (h : Best e tier now s.entries (some (b, x)))
    (hlow : ∀ y ∈ s.entries, tier.rank ≤ (classifyTier e y now).rank) :
    ∃ pre post, s.entries = pre ++ x :: post ∧ b = pre.length ∧ IsFirst (goesBefore e now) pre x post := by
  obtain ⟨pre, post, heq, hb, htier, hpre, hpost⟩ := h
  have hrank : ∀ y ∈ s.entries, classifyTier e y now ≠ tier → tier.rank < (classifyTier e y now).rank := by
    intro y hy hne
    refine Nat.lt_of_le_of_ne (hlow y hy) fun hr => hne ?_
    cases tier <;> cases hc : classifyTier e y now <;> rw [hc] at hr <;> simp_all [Tier.rank]
  refine ⟨pre, post, heq, hb, fun y hy => ?_, fun y hy => ?_⟩
  · have hmem : y ∈ s.entries := by simp [heq, hy]
    by_cases hy' : classifyTier e y now = tier
    · simp [goesBefore, htier, hy', hpre y hy hy']
    · simp [goesBefore, htier, hrank y hmem hy']
  · have hmem : y ∈ s.entries := by simp [heq, hy]
    by_cases hy' : classifyTier e y now = tier
    · simp [goesBefore, htier, hy', hpost y hy hy']
    · simp [goesBefore, htier, hy', (hrank y hmem hy').le]

theorem pickVictim_isFirst {idx : Nat} (h : pickVictim e incoming s now = some idx) :
    ∃ pre x post, s.entries = pre ++ x :: post ∧ idx = pre.length ∧ IsFirst (goesBefore e now) pre x post ∧
      (classifyTier e x now = .hot → ¬ critical.allows e.budget (s.totalBytes + incoming) = true) := by
  have hbest : ∀ tier, pickBudgetEvictionCandidate e s tier now = some idx →
      ∃ x, Best e tier now s.entries (some (idx, x)) := by
    intro tier hpick
    have hstart : Best e tier now [] none := fun y hy => absurd hy List.not_mem_nil
    exact best_pickFrom hstart hpick
  have hnone : ∀ tier, pickBudgetEvictionCandidate e s tier now = none → ∀ y ∈ s.entries, classifyTier e y now ≠ tier :=
    fun tier hpick => pickFrom_none.1 hpick
  unfold pickVictim at h
  rcases Option.or_eq_some_iff.1 h with hcold | ⟨hcold, h⟩
  · obtain ⟨x, hx⟩ := hbest _ hcold
    obtain ⟨pre, post, heq, hidx, hfirst⟩ := hx.isFirst fun y _ => Nat.zero_le _
    obtain ⟨-, -, -, -, htier, -, -⟩ := hx
    exact ⟨pre, x, post, heq, hidx, hfirst, fun hhot => by cases htier.symm.trans hhot⟩
  · have hcold := hnone _ hcold
    rcases Option.or_eq_some_iff.1 h with hwarm | ⟨hwarm, h⟩
    · obtain ⟨x, hx⟩ := hbest _ hwarm
      obtain ⟨pre, post, heq, hidx, hfirst⟩ := hx.isFirst fun y hy => by
        cases hc : classifyTier e y now <;> simp_all [Tier.rank]
      obtain ⟨-, -, -, -, htier, -, -⟩ := hx
      exact ⟨pre, x, post, heq, hidx, hfirst, fun hhot => by cases htier.symm.trans hhot⟩
    · have hwarm := hnone _ hwarm
      split_ifs at h with hcrit
      obtain ⟨x, hx⟩ := hbest _ h
      obtain ⟨pre, post, heq, hidx, hfirst⟩ := hx.isFirst fun y hy => by
        cases hc : classifyTier e y now <;> simp_all [Tier.rank]
      exact ⟨pre, x, post, heq, hidx, hfirst, fun _ => hcrit⟩

/-! ### The budget sweep -/

/-- No more is removed if `rest` is left: it is within the watermark, or it begins with a hot entry and is not critical, or
there is nothing left. -/
def Enough (e : Env Frac) (incoming now : Nat) (rest : List (AmfEntry Frac)) : Prop :=
  e.evictionWatermark.allows e.budget ((rest.map AmfEntry.sizeBytes).sum + incoming) = true ∨ rest = [] ∨
    ∃ x, rest.head? = some x ∧ classifyTier e x now = .hot ∧
      critical.allows e.budget ((rest.map AmfEntry.sizeBytes).sum + incoming) = true

/-- The shortest part of the eviction order from its front is removed that leaves enough room. -/
def ShortestRemoved (e : Env Frac) (incoming now : Nat) (entries entries' : List (AmfEntry Frac)) : Prop :=
  ∃ k, Enough e incoming now ((evictionOrder e now entries).drop k) ∧
    (∀ j < k, ¬ Enough e incoming now ((evictionOrder e now entries).drop j)) ∧
    entries' = entries.filter fun x => !decide (x ∈ (evictionOrder e now entries).take k)

theorem Rep.sum_order (h : Rep w.store) (e : Env Frac) (now : Nat) :
    ((evictionOrder e now w.store.entries).map AmfEntry.sizeBytes).sum = w.store.totalBytes := by
  rw [h.total]
  exact ((perm_stableSort _ _).map _).sum_eq

theorem evictLoop_prefix (hclock : ∀ n, e.clock n = now) (h : Rep w.store) {fuel : Nat}
    (hfuel : w.store.entries.length < fuel) :
    ShortestRemoved e incoming now w.store.entries (evictLoop e incoming fuel w).2.store.entries := by
  induction fuel generalizing w with
  | zero => omega
  | succ fuel ih =>
    have hsum := h.sum_order e now
    have hperm : (evictionOrder e now w.store.entries).Perm w.store.entries := perm_stableSort _ _
    have hstop : Enough e incoming now (evictionOrder e now w.store.entries) →
        ShortestRemoved e incoming now w.store.entries w.store.entries := fun henough =>
      ⟨0, henough, fun j hj => absurd hj (Nat.not_lt_zero j), by simp⟩
    unfold evictLoop
    split_ifs with hdone
    · refine hstop ?_
      rw [Enough, hsum]
      rcases Bool.or_eq_true_iff.1 hdone with hdone | hempty
      · exact .inl hdone
      · exact .inr (.inl (List.perm_nil.1 (List.isEmpty_iff.1 hempty ▸ hperm)))
    · obtain ⟨hover, hne⟩ : ¬ e.evictionWatermark.allows e.budget (w.store.totalBytes + incoming) = true ∧
          w.store.entries ≠ [] := by simpa using hdone
      rw [hclock]
      split
      case h_1 hnone =>
        refine hstop ?_
        obtain ⟨hhot, hcrit⟩ := (pickVictim_none hne).1 hnone
        obtain ⟨x, rest, hrest⟩ := List.exists_cons_of_ne_nil fun hnil => hne (List.nil_perm.1 (hnil ▸ hperm))
        refine .inr (.inr ⟨x, by rw [hrest]; rfl, hhot x (hperm.subset (hrest ▸ List.mem_cons_self)), ?_⟩)
        rw [hsum]
        exact hcrit
      case h_2 idx hidx =>
        obtain ⟨pre, x, post, heq, rfl, hfirst, hcrit⟩ := pickVictim_isFirst hidx
        have heq' : w.next.store.entries = pre ++ x :: post := heq
        have hentries := entries_evict_split (e := e) heq'
        have hlen := congrArg List.length heq
        rw [List.length_append, List.length_cons] at hlen
        have horder : evictionOrder e now w.store.entries = x :: evictionOrder e now (pre ++ post) := by
          rw [evictionOrder, heq]
          exact stableSort_of_isFirst hfirst
        obtain ⟨k, henough, hmin, hkept⟩ := ih (w := evictEntryAt e pre.length w.next)
          (by rw [evictEntryAt_store (getElem?_split heq')]; exact h.drop (getElem?_split heq))
          (by rw [hentries, List.length_append]; omega)
        rw [hentries] at henough hmin hkept
        rw [ShortestRemoved, horder]
        refine ⟨k + 1, henough, fun j hj => ?_, ?_⟩
        · cases j with
          | zero =>
            rw [List.drop_zero, ← horder, Enough, hsum]
            rintro (hroom | hnil | ⟨y, hy, hhot, hroom⟩)
            · exact hover hroom
            · rw [horder] at hnil
              cases hnil
            · rw [horder] at hy
              cases hy
              exact hcrit hhot hroom
          | succ j => exact hmin j (by omega)
        · dsimp only
          rw [hkept, heq, List.take_succ_cons, filter_notMem_cons]
          rw [← heq]
          exact h.indexed.nodup.of_map _

/-- With a clock that stands still. Without a budget nothing is removed. -/
theorem budget_sweep_minimal (hclock : ∀ n, e.clock n = now) (h : Rep w.store) (hin : incoming ≤ e.budget) :
    (e.budget = 0 → (evictIfNeeded e incoming w).2 = w) ∧ (0 < e.budget →
      ShortestRemoved e incoming now w.store.entries (evictIfNeeded e incoming w).2.store.entries) := by
  refine ⟨fun hb => by rw [evictIfNeeded, if_pos hb], fun hb => ?_⟩
  rw [evictIfNeeded, if_neg (by omega), if_neg (by omega)]
  exact evictLoop_prefix hclock h (Nat.lt_succ_self _)

theorem budget_sweep_three : 0 < (smallEnv.atTime 100000).budget ∧
    ShortestRemoved (smallEnv.atTime 100000) 10 100000 (run smallEnv threeEntries emptyWorld).store.entries
      (evictIfNeeded (smallEnv.atTime 100000) 10 (run smallEnv threeEntries emptyWorld)).2.store.entries :=
  ⟨by decide, (budget_sweep_minimal (fun _ => rfl) threeEntries_reachable.inv.rep (by decide)).2 (by decide)⟩

end Victims

end Korith.Amf
