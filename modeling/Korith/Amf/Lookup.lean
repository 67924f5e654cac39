import Korith.Amf.Overwrite

/-!
# Lookup

`find_longest_prefix` goes down from the full query. `Scan` says what it has done when it ends at length `stop`: every
entry met above was dead and is evicted, nothing else is, and at `stop` it has found an entry or run out of lengths.
Soundness, maximality and completeness are read off it. It needs distinct keys: then the eviction of an entry leaves
the files of all others.
-/

set_option linter.unusedSectionVars false

namespace Korith.Amf

variable {F : Type} [FloatArith F] {e : Env F} {w : World F} {ctx : AmfContext} {tokens : List Token}
  {now n stop i L : Nat} {x y z : AmfEntry F} {r : LookupResult F × World F} {prewarmed : AmfKey → Bool}

/-- An entry of the first `L` tokens of the query. -/
structure Met (ctx : AmfContext) (tokens : List Token) (s : Store F) (L : Nat) (x : AmfEntry F) : Prop where
  mem : x ∈ s.entries
  key : x.key = keyOf ctx (tokens.take L)
  len : x.prefixLen = L

def dead (e : Env F) (ctx : AmfContext) (now : Nat) (x : AmfEntry F) : Bool := modelMismatch e ctx x || x.expired now

def FileOk (tokens : List Token) (w : World F) (L : Nat) (x : AmfEntry F) : Prop :=
  readTokensFile x.key w = some (tokens.take L)

inductive Ended (e : Env F) (ctx : AmfContext) (tokens : List Token) (now : Nat) (w : World F) (stop : Nat) :
    LookupResult F → Prop where
  | hit {x : AmfEntry F} (hmet : Met ctx tokens w.store stop x) (halive : dead e ctx now x = false)
    (hfile : FileOk tokens w stop x) :
    Ended e ctx tokens now w stop (.hit x (tokens.take stop))
  | unreadable {x : AmfEntry F} {res : LookupResult F} (hmet : Met ctx tokens w.store stop x)
    (halive : dead e ctx now x = false) (hfile : ¬ FileOk tokens w stop x)
    (hmiss : res = .missLoadFailed ∨ res = .missTokenMismatch) :
    Ended e ctx tokens now w stop res
  | exhausted (hlt : stop < e.minTokens) : Ended e ctx tokens now w stop .missHashMismatch

structure Scan (e : Env F) (ctx : AmfContext) (tokens : List Token) (now n : Nat) (w : World F)
    (r : LookupResult F × World F) (stop : Nat) : Prop where
  le : stop ≤ n
  ended : Ended e ctx tokens now w stop r.1
  min : (∃ x out, r.1 = .hit x out) → e.minTokens ≤ stop
  keys : r.2.store.entries.map AmfEntry.key ⊆ w.store.entries.map AmfEntry.key
  gone : ∀ z ∈ w.store.entries, z.key ∉ r.2.store.entries.map AmfEntry.key ↔
    ∃ L, stop < L ∧ L ≤ n ∧ e.minTokens ≤ L ∧ Met ctx tokens w.store L z ∧ dead e ctx now z = true
  passed : e.prewarmEnabled = false → ∀ L z, stop < L → L ≤ n → e.minTokens ≤ L → Met ctx tokens w.store L z →
    dead e ctx now z = true

/-! ### One round -/

theorem find?_met (h : Inv 0 w) (hx : w.store.find? (keyOf ctx (tokens.take L)) = some (i, x))
    (hz : Met ctx tokens w.store L z) : z = x := by
  obtain ⟨-, hget, hk⟩ := h.rep.find?_some hx
  exact List.inj_on_of_nodup_map h.rep.indexed.nodup hz.mem (List.mem_of_getElem? hget) (hz.key.trans hk.symm)

theorem find?_none_met (h : Inv 0 w) (hx : w.store.find? (keyOf ctx (tokens.take L)) = none) :
    ¬ Met ctx tokens w.store L z := by
  intro hz
  refine h.rep.indexed.none_iff.mp (h.rep.find?_none hx) ?_
  rw [← hz.key]
  exact List.mem_map_of_mem hz.mem

theorem mem_key_iff (h : Inv 0 w) (hz : z ∈ w.store.entries) (hx : x ∈ w.store.entries) : z.key = x.key ↔ z = x :=
  ⟨List.inj_on_of_nodup_map h.rep.indexed.nodup hz hx, fun heq => heq ▸ rfl⟩

variable (hx : w.store.entries[i]? = some x)

include hx

theorem evictEntryAt_entries : (evictEntryAt e i w).store.entries = w.store.entries.eraseIdx i := by
  rw [evictEntryAt_store hx]
  rfl

theorem mem_evictEntryAt (h : Inv 0 w) : z ∈ (evictEntryAt e i w).store.entries ↔ z ∈ w.store.entries ∧ z ≠ x := by
  rw [evictEntryAt_entries hx, List.mem_eraseIdx_iff_getElem?]
  constructor
  · rintro ⟨j, hj, hz⟩
    refine ⟨List.mem_of_getElem? hz, ?_⟩
    rintro rfl
    exact hj (eq_of_getElem?_key h.rep.indexed.nodup (by rw [hz]; rfl) (by rw [hx]; rfl))
  · rintro ⟨hz, hne⟩
    obtain ⟨j, hj⟩ := List.mem_iff_getElem?.mp hz
    refine ⟨j, ?_, hj⟩
    rintro rfl
    exact hne (Option.some.inj (hj.symm.trans hx))

variable {key : AmfKey} {res : LookupResult F}

theorem evictEntryAt_files (hne : key ≠ x.key) :
    (evictEntryAt e i w).disk.tok key = w.disk.tok key ∧ (evictEntryAt e i w).disk.kv key = w.disk.kv key := by
  unfold evictEntryAt
  rw [hx]
  unfold flushIndex removeTok removeKv
  dsimp only
  split_ifs <;> simp [Function.update_of_ne hne]

theorem evictEntryAt_met (h : Inv 0 w) :
    Met ctx tokens (evictEntryAt e i w).store L z ↔ Met ctx tokens w.store L z ∧ z ≠ x := by
  constructor
  · rintro ⟨hmem, hk, hlen⟩
    obtain ⟨hmem, hne⟩ := (mem_evictEntryAt hx h).mp hmem
    exact ⟨⟨hmem, hk, hlen⟩, hne⟩
  · rintro ⟨⟨hmem, hk, hlen⟩, hne⟩
    exact ⟨(mem_evictEntryAt hx h).mpr ⟨hmem, hne⟩, hk, hlen⟩

theorem evictEntryAt_fileOk (h : Inv 0 w) (hz : z ∈ w.store.entries)
    (hne : z ≠ x) : FileOk tokens (evictEntryAt e i w) L z ↔ FileOk tokens w L z := by
  have hk : z.key ≠ x.key := fun heq => hne ((mem_key_iff h hz (List.mem_of_getElem? hx)).mp heq)
  unfold FileOk readTokensFile
  rw [(evictEntryAt_files hx hk).1]

/-- How the loop ends does not depend on the entries evicted on the way. -/
theorem Ended.of_evict (h : Inv 0 w)
    (hend : Ended e ctx tokens now (evictEntryAt e i w) stop res) : Ended e ctx tokens now w stop res := by
  cases hend with
  | hit hmet halive hfile =>
    obtain ⟨hmet, hne⟩ := (evictEntryAt_met hx h).mp hmet
    exact .hit hmet halive ((evictEntryAt_fileOk hx h hmet.mem hne).mp hfile)
  | unreadable hmet halive hfile hmiss =>
    obtain ⟨hmet, hne⟩ := (evictEntryAt_met hx h).mp hmet
    exact .unreadable hmet halive (fun hok => hfile ((evictEntryAt_fileOk hx h hmet.mem hne).mpr hok)) hmiss
  | exhausted hlt => exact .exhausted hlt

omit hx in
theorem Scan.skip (h : Scan e ctx tokens now n w r stop)
    (hskip : ∀ z, Met ctx tokens w.store (n + 1) z → dead e ctx now z = false ∧ e.prewarmEnabled = true) :
    Scan e ctx tokens now (n + 1) w r stop where
  le := Nat.le_succ_of_le h.le
  ended := h.ended
  min := h.min
  keys := h.keys
  gone z hz := by
    rw [h.gone z hz]
    refine exists_congr fun L => ⟨?_, ?_⟩
    · rintro ⟨h1, h2, h3⟩
      exact ⟨h1, by omega, h3⟩
    · rintro ⟨h1, h2, h3, hmet, hdead⟩
      refine ⟨h1, ?_, h3, hmet, hdead⟩
      by_contra hlt
      obtain rfl : L = n + 1 := by omega
      simp [(hskip z hmet).1] at hdead
  passed hpre L z h1 h2 h3 hmet := by
    rcases Nat.lt_or_ge n L with hlt | hle
    · obtain rfl : L = n + 1 := by omega
      simp [(hskip z hmet).2] at hpre
    · exact h.passed hpre L z h1 hle h3 hmet

theorem Scan.evict (hinv : Inv 0 w) (hmet : Met ctx tokens w.store (n + 1) x)
    (hdead : dead e ctx now x = true) (hmin : e.minTokens ≤ n + 1)
    (h : Scan e ctx tokens now n (evictEntryAt e i w) r stop) : Scan e ctx tokens now (n + 1) w r stop where
  le := Nat.le_succ_of_le h.le
  ended := h.ended.of_evict hx hinv
  min := h.min
  keys := fun _ hk => (evictEntryAt_sublist.map _).subset (h.keys hk)
  gone z hz := by
    have hle := h.le
    by_cases hzx : z = x
    · subst hzx
      refine iff_of_true (fun hmem => ?_) ⟨n + 1, by omega, Nat.le_refl _, hmin, hmet, hdead⟩
      obtain ⟨y, hy, hk⟩ := List.mem_map.mp (h.keys hmem)
      obtain ⟨hy, hne⟩ := (mem_evictEntryAt hx hinv).mp hy
      exact hne ((mem_key_iff hinv hy hz).mp hk)
    · rw [h.gone z ((mem_evictEntryAt hx hinv).mpr ⟨hz, hzx⟩)]
      refine exists_congr fun L => ⟨?_, ?_⟩
      · rintro ⟨h1, h2, h3, h4, h5⟩
        exact ⟨h1, by omega, h3, ((evictEntryAt_met hx hinv).mp h4).1, h5⟩
      · rintro ⟨h1, h2, h3, h4, h5⟩
        refine ⟨h1, ?_, h3, (evictEntryAt_met hx hinv).mpr ⟨h4, hzx⟩, h5⟩
        by_contra hlt
        obtain rfl : L = n + 1 := by omega
        exact hzx ((mem_key_iff hinv hz hmet.mem).mp (h4.key.trans hmet.key.symm))
  passed hpre L z h1 h2 h3 hz := by
    by_cases hzx : z = x
    · exact hzx ▸ hdead
    · refine h.passed hpre L z h1 ?_ h3 ((evictEntryAt_met hx hinv).mpr ⟨hz, hzx⟩)
      by_contra hlt
      obtain rfl : L = n + 1 := by omega
      exact hzx ((mem_key_iff hinv hz.mem hmet.mem).mp (hz.key.trans hmet.key.symm))

omit hx

theorem Scan.here (hend : Ended e ctx tokens now w n r.1) (hmin : (∃ x out, r.1 = .hit x out) → e.minTokens ≤ n)
    (hkeys : r.2.store.entries.map AmfEntry.key = w.store.entries.map AmfEntry.key) :
    Scan e ctx tokens now n w r n where
  le := Nat.le_refl _
  ended := hend
  min := hmin
  keys := hkeys ▸ List.Subset.refl _
  gone z hz := by
    rw [hkeys]
    refine iff_of_false (fun hnot => hnot (List.mem_map_of_mem hz)) ?_
    rintro ⟨L, h1, h2, -⟩
    omega
  passed _ L z h1 h2 := by omega

/-! ### The loop -/

variable {s : Store F} {out : List Token}

theorem touchPrewarmed_keys : (s.touchPrewarmed key).entries.map AmfEntry.key = s.entries.map AmfEntry.key := by
  unfold Store.touchPrewarmed
  split_ifs
  · split
    · rename_i i x hf
      exact map_key_set (find?_of_index hf) rfl
    · rfl
  · rfl

theorem find?_prefixHashes (hn : n < tokens.length) :
    ((prefixHashes kFNVOffset tokens)[n + 1 - 1]?).bind (fun h => s.find? (amfMakeKey ctx h)) =
      s.find? (keyOf ctx (tokens.take (n + 1))) := by
  rw [Nat.add_sub_cancel, prefixHashes_getElem? hn, keyOf, amfHashTokens_take]
  rfl

theorem checkTokens_ended (hmet : Met ctx tokens w.store n x) (halive : dead e ctx now x = false)
    (hn : n ≤ tokens.length) : Ended e ctx tokens now w n (checkTokens tokens n x { w with store := s }).1 := by
  unfold checkTokens
  split
  · rename_i hnone
    exact .unreadable hmet halive (fun hok => by cases hok.symm.trans hnone) (.inl rfl)
  · rename_i out hout
    have hfile : FileOk tokens w n x → out = tokens.take n := fun hok => Option.some.inj (hout.symm.trans hok)
    split_ifs with hlen heq
    · refine .unreadable hmet halive (fun hok => hlen ?_) (.inr rfl)
      rw [hfile hok, List.length_take_of_le hn]
    · exact .unreadable hmet halive (fun hok => heq (hfile hok)) (.inr rfl)
    · obtain rfl : out = tokens.take n := Decidable.not_not.mp heq
      exact .hit hmet halive hout

theorem lookupLoop_scan (ctx : AmfContext) (now : Nat) (prewarmed : AmfKey → Bool) (h : Inv 0 w)
    (hn : n ≤ tokens.length) : ∃ stop, Scan e ctx tokens now n w
      (lookupLoop e ctx tokens (prefixHashes kFNVOffset tokens) now prewarmed n w) stop := by
  induction n generalizing w with
  | zero => exact ⟨0, .here (.exhausted e.minTokens_pos) (by rintro ⟨x, out, ⟨⟩⟩) rfl⟩
  | succ n ih =>
    unfold lookupLoop
    dsimp only
    rw [find?_prefixHashes hn]
    split_ifs with hmin
    · exact ⟨n + 1, .here (.exhausted hmin) (by rintro ⟨x, out, ⟨⟩⟩) rfl⟩
    · split
      · rename_i hnone
        obtain ⟨stop, hscan⟩ := ih h (Nat.le_of_lt hn)
        exact ⟨stop, hscan.skip fun z hz => absurd hz (find?_none_met h hnone)⟩
      · rename_i i x hfound
        obtain ⟨-, hx, hk⟩ := h.rep.find?_some hfound
        have hmet : ∀ z, Met ctx tokens w.store (n + 1) z → z = x := fun z => find?_met h hfound
        have hmem : x ∈ w.store.entries := List.mem_of_getElem? hx
        have hmin' : e.minTokens ≤ n + 1 := Nat.le_of_not_lt hmin
        split_ifs with hlen hmodel hexp hwait
        · obtain ⟨stop, hscan⟩ := ih h (Nat.le_of_lt hn)
          exact ⟨stop, hscan.skip fun z hz => absurd (hmet z hz ▸ hz.len) hlen⟩
        · obtain ⟨stop, hscan⟩ := ih (evictEntryAt_inv (e := e) h i) (Nat.le_of_lt hn)
          exact ⟨stop, hscan.evict hx h ⟨hmem, hk, Decidable.not_not.mp hlen⟩ (by simp [dead, hmodel]) hmin'⟩
        · obtain ⟨stop, hscan⟩ := ih (evictEntryAt_inv (e := e) h i) (Nat.le_of_lt hn)
          exact ⟨stop, hscan.evict hx h ⟨hmem, hk, Decidable.not_not.mp hlen⟩ (by simp [dead, hexp]) hmin'⟩
        all_goals have hhere : Met ctx tokens w.store (n + 1) x := ⟨hmem, hk, Decidable.not_not.mp hlen⟩
        all_goals have halive : dead e ctx now x = false := by simp [dead, hmodel, hexp]
        · obtain ⟨stop, hscan⟩ := ih h (Nat.le_of_lt hn)
          refine ⟨stop, hscan.skip fun z hz => ?_⟩
          rw [hmet z hz]
          exact ⟨halive, by simp [shouldWaitWarmPending] at hwait; exact hwait.1.1.1.1⟩
        · refine ⟨n + 1, .here (checkTokens_ended hhere halive hn) (fun _ => hmin') ?_⟩
          rw [checkTokens_world]
          exact touchPrewarmed_keys
        · refine ⟨n + 1, .here (checkTokens_ended hhere halive hn) (fun _ => hmin') ?_⟩
          rw [checkTokens_world]
          exact touchPrewarmed_keys

/-! ### The result -/

structure LookupOk (e : Env F) (ctx : AmfContext) (tokens : List Token) (w : World F)
    (r : LookupResult F × World F) : Prop where
  sound : ∀ x out, r.1 = .hit x out → x ∈ w.store.entries ∧ out = tokens.take x.prefixLen ∧
    x.prefixLen ≤ tokens.length ∧ e.minTokens ≤ x.prefixLen ∧ x.key = amfMakeKey ctx (amfHashTokens out) ∧
    x.expired (e.clock w.tick) = false ∧ modelMismatch e ctx x = false
  /-- no longer prefix has a live entry with its tokens -/
  maximal : e.prewarmEnabled = false → ∀ x out, r.1 = .hit x out → ∀ L y, x.prefixLen < L → L ≤ tokens.length →
    Met ctx tokens w.store L y → dead e ctx (e.clock w.tick) y = false → ¬ FileOk tokens w L y
  /-- a live entry is found unless a longer one has a bad file -/
  complete : e.prewarmEnabled = false → ∀ L y, e.minTokens ≤ L → L ≤ tokens.length → Met ctx tokens w.store L y →
    dead e ctx (e.clock w.tick) y = false → FileOk tokens w L y →
    (∀ L' z, L < L' → L' ≤ tokens.length → Met ctx tokens w.store L' z → dead e ctx (e.clock w.tick) z = false →
      FileOk tokens w L' z) → ∃ x out, r.1 = .hit x out
  /-- the dead entries met on the way down to `stop` are evicted, and no others -/
  evicts : ∃ stop, (∀ x out, r.1 = .hit x out → x.prefixLen = stop) ∧
    (r.1 = .missHashMismatch → stop < e.minTokens) ∧
    ∀ z ∈ w.store.entries, z.key ∉ r.2.store.entries.map AmfEntry.key ↔
      ∃ L, stop < L ∧ L ≤ tokens.length ∧ e.minTokens ≤ L ∧ Met ctx tokens w.store L z ∧
        dead e ctx (e.clock w.tick) z = true

theorem Ended.hit_len (h : Ended e ctx tokens now w stop (.hit x out)) : x.prefixLen = stop := by
  cases h with
  | hit hmet _ _ => exact hmet.len
  | unreadable _ _ _ hmiss => simp at hmiss

theorem Ended.hit_ok (h : Ended e ctx tokens now w stop (.hit x out)) :
    Met ctx tokens w.store stop x ∧ dead e ctx now x = false ∧ out = tokens.take stop := by
  cases h with
  | hit hmet halive _ => exact ⟨hmet, halive, rfl⟩
  | unreadable _ _ _ hmiss => simp at hmiss

theorem Scan.ok (h : Scan e ctx tokens (e.clock w.tick) tokens.length w.next r stop) (hinv : Inv 0 w) :
    LookupOk e ctx tokens w r where
  sound x out hr := by
    obtain ⟨hmet, halive, rfl⟩ := (hr ▸ h.ended : Ended e ctx tokens _ _ _ (.hit x out)).hit_ok
    have hmin := h.min ⟨x, _, hr⟩
    obtain ⟨hmodel, hexp⟩ : modelMismatch e ctx x = false ∧ x.expired (e.clock w.tick) = false := by
      simpa [dead] using halive
    rw [hmet.len]
    exact ⟨hmet.mem, rfl, h.le, hmin, hmet.key, hexp, hmodel⟩
  maximal hpre x out hr L y hlt hle hy halive _ := by
    have hstop := (hr ▸ h.ended : Ended e ctx tokens _ _ _ (.hit x out)).hit_len
    have hmin := h.min ⟨x, _, hr⟩
    have hdead := h.passed hpre L y (by omega) hle (by omega) hy
    rw [hdead] at halive
    cases halive
  complete hpre L y hmin hle hy halive hfile hgood := by
    have hstop : L ≤ stop := by
      by_contra hlt
      have hdead := h.passed hpre L y (by omega) hle hmin hy
      rw [hdead] at halive
      cases halive
    generalize hr : r.1 = res
    cases hr ▸ h.ended with
    | @hit x => exact ⟨x, _, rfl⟩
    | @unreadable x _ hmet halive' hbad =>
      refine absurd ?_ hbad
      rcases Nat.eq_or_lt_of_le hstop with rfl | hlt
      · rwa [← (mem_key_iff hinv hy.mem hmet.mem).mp (hy.key.trans hmet.key.symm)]
      · exact hgood stop x hlt h.le hmet halive'
    | exhausted hlt => omega
  evicts := ⟨stop, fun x out hr => (hr ▸ h.ended : Ended e ctx tokens _ _ _ (.hit x out)).hit_len,
    fun hr => by
      have hend := h.ended
      rw [hr] at hend
      cases hend with
      | unreadable _ _ _ hmiss => simp at hmiss
      | exhausted hlt => exact hlt,
    h.gone⟩

/-- In every state that is reached without an overwrite that evicts. -/
theorem findLongestPrefix_ok (e : Env F) (ctx : AmfContext) (tokens : List Token) (prewarmed : AmfKey → Bool)
    (w : World F) (hw : Reachable e w) (hen : w.store.enabled = true) :
    LookupOk e ctx tokens w (findLongestPrefix e ctx tokens prewarmed w) := by
  unfold findLongestPrefix
  split_ifs with hdis hshort hempty
  · simp [hen] at hdis
  · refine ⟨(fun _ _ h => by cases h), (fun _ _ _ h => by cases h), fun _ L y hmin hle => by omega, tokens.length,
      (fun _ _ h => by cases h), (fun h => by cases h), fun z hz => ?_⟩
    refine iff_of_false (fun hnot => hnot (List.mem_map_of_mem hz)) ?_
    rintro ⟨L, h1, h2, -⟩
    omega
  · have hnil : w.store.entries = [] := List.isEmpty_iff.mp hempty
    refine ⟨(fun _ _ h => by cases h), (fun _ _ _ h => by cases h), fun _ L y _ _ hy => ?_, tokens.length,
      (fun _ _ h => by cases h), (fun h => by cases h), fun z hz => ?_⟩
    · exact absurd hy.mem (by simp [hnil])
    · exact absurd hz (by simp [hnil])
  · obtain ⟨stop, hscan⟩ := lookupLoop_scan (e := e) ctx (e.clock w.tick) prewarmed
      hw.inv.next (Nat.le_refl tokens.length)
    exact hscan.ok hw.inv

def LookupResult.hitKey : LookupResult F → Option (AmfKey × List Token)
  | .hit x out => some (x.key, out)
  | _ => none

theorem LookupResult.hitKey_eq_some (h : res.hitKey = some (key, out)) : ∃ x, res = .hit x out ∧ x.key = key := by
  cases res with
  | hit x out' => cases h; exact ⟨x, rfl, rfl⟩
  | _ => cases h

theorem findLongestPrefix_ok_longest : (findLongestPrefix smallEnv (tenant 1) [5, 6, 7, 8] (fun _ => false)
      (run smallEnv threeEntries emptyWorld)).1.hitKey = some (keyOf (tenant 1) [5, 6, 7], [5, 6, 7]) ∧
    LookupOk smallEnv (tenant 1) [5, 6, 7, 8] (run smallEnv threeEntries emptyWorld)
      (findLongestPrefix smallEnv (tenant 1) [5, 6, 7, 8] (fun _ => false)
        (run smallEnv threeEntries emptyWorld)) :=
  ⟨by decide, findLongestPrefix_ok smallEnv (tenant 1) [5, 6, 7, 8] (fun _ => false) _ threeEntries_reachable
    (by decide)⟩

/-- The neighbour that the overwrite destroys is another tenant's. -/
def leakingRun : List (Op Frac) :=
  [.init true, .store 0 (tenant 1) [9] (List.replicate 10 0) 0,
    .store 0 (tenant 1) [5, 6] (List.replicate 5 0) 0,
    .store 0 (tenant 2) [5, 6] (List.replicate 20 0) 0,
    .store 1 (tenant 1) [5, 6] (List.replicate 8 0) 0]

theorem lookup_crosses_tenants : (run smallEnv leakingRun emptyWorld).store.enabled = true ∧
    (findLongestPrefix smallEnv (tenant 2) [5, 6] (fun _ => false)
      (run smallEnv leakingRun emptyWorld)).1.hitKey = some (keyOf (tenant 1) [5, 6], [5, 6]) ∧
    ¬ LookupOk smallEnv (tenant 2) [5, 6] (run smallEnv leakingRun emptyWorld)
      (findLongestPrefix smallEnv (tenant 2) [5, 6] (fun _ => false) (run smallEnv leakingRun emptyWorld)) := by
  have hhit : (findLongestPrefix smallEnv (tenant 2) [5, 6] (fun _ => false)
      (run smallEnv leakingRun emptyWorld)).1.hitKey = some (keyOf (tenant 1) [5, 6], [5, 6]) := by decide
  refine ⟨by decide, hhit, fun hok => ?_⟩
  obtain ⟨x, hr, hk⟩ := LookupResult.hitKey_eq_some hhit
  obtain ⟨-, -, -, -, hkey, -⟩ := hok.sound x _ hr
  rw [hk] at hkey
  exact absurd (amfMakeKey_inj hkey).1 (by decide)

end Korith.Amf
