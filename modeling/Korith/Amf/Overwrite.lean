import Korith.Amf.Inv

/-!
# Overwriting an entry

`store_entry` of a key that is present keeps the iterator of its lookup across `evict_if_needed`. If that evicts
anything, the position it writes to is arbitrary, and for some position the result is wrong: so the overwrite is safe
exactly if there is room for the larger state already (`overwrite_safe_iff`).
-/

set_option linter.unusedSectionVars false

namespace Korith.Amf

variable {F : Type} [FloatArith F] {e : Env F} {w : World F} {ctx : AmfContext} {tokens : List Token}
  {kvData : List Byte} {savedMs stale : Nat}

/-- Reached from a new store object by operations of which no overwrite evicts. -/
def Reachable (e : Env F) (w : World F) : Prop :=
  ∃ ops w₀, Initial w₀ ∧ EachStep e (SafeOp e) ops w₀ ∧ w = run e ops w₀

theorem Reachable.inv (h : Reachable e w) : Inv 0 w := by
  obtain ⟨ops, w₀, hw₀, hops, rfl⟩ := h
  exact run_inv hw₀.inv_zero (.inl rfl) hops

def roomFor (e : Env F) (ctx : AmfContext) (tokens : List Token) (kvSize : Nat) (w : World F) : World F :=
  (evictForStore e kvSize ((w.store.find? (keyOf ctx tokens)).map (·.2)) w.next.next).2

/-- What a successful store of `tokens` should leave, `w₁` being the state after making room. -/
structure StoredOk (ctx : AmfContext) (tokens : List Token) (kvData : List Byte) (w₁ w' : World F) : Prop where
  /-- exactly one entry for the key, with the new length, size and checksum -/
  one : ∃ x, w'.store.entries.filter (fun y => decide (y.key = keyOf ctx tokens)) = [x] ∧
    x.prefixLen = tokens.length % 2 ^ 32 ∧ x.kvSize = kvData.length ∧
    x.kvChecksum = hashBytes kFNVOffset kvData
  /-- the other surviving entries are unchanged -/
  others : w'.store.entries.filter (fun y => decide (y.key ≠ keyOf ctx tokens)) =
    w₁.store.entries.filter fun y => decide (y.key ≠ keyOf ctx tokens)
  indexed : Indexed AmfEntry.key w'.store.entries w'.store.index
  total : w'.store.totalBytes = (w'.store.entries.map AmfEntry.sizeBytes).sum

/-! ### The write-back -/

variable (h : (storeEntry e stale ctx tokens kvData savedMs w).1 = true)

include h

theorem storeEntry_success : (storeEntry e stale ctx tokens kvData savedMs w).2.store =
      (commitEntry e stale (storeEvicts e ctx tokens kvData.length w) (e.clock (w.tick + 1))
        (w.store.find? (keyOf ctx tokens))
        (newEntry e ctx tokens kvData savedMs (e.clock (w.tick + 1))
          ((w.store.find? (keyOf ctx tokens)).map (·.2)))
        (roomFor e ctx tokens kvData.length w).store).countAdmission kvData.length := by
  unfold storeEntry at h ⊢
  dsimp only at h ⊢
  split_ifs at h ⊢
  simp only [finishStore] at h ⊢
  split_ifs at h ⊢
  simp only [flushIndex_store]
  rw [(writeFiles_same _ _ _).1]
  rfl

def storedEntry (e : Env F) (ctx : AmfContext) (tokens : List Token) (kvData : List Byte) (savedMs : Nat)
    (w : World F) : AmfEntry F :=
  let found := w.store.find? (keyOf ctx tokens)
  let nowMs := e.clock (w.tick + 1)
  let entry := newEntry e ctx tokens kvData savedMs nowMs (found.map (·.2))
  found.elim entry fun previous => mergeEntry e nowMs entry previous.2

variable {key : AmfKey}

omit h in
theorem writeFiles_kv (hio : ∀ n, e.writeKv n = .ok) (h : (writeFiles e key tokens kvData w).1 = true) :
    (writeFiles e key tokens kvData w).2.disk.kv key = some kvData := by
  unfold writeFiles at h ⊢
  dsimp only at h ⊢
  split_ifs at h ⊢
  simp [writeKvFile, hio, WriteResult.written]

omit h in
@[simp] theorem flushIndex_kv : (flushIndex e w).2.disk.kv = w.disk.kv := by
  unfold flushIndex
  split <;> rfl

theorem storeEntry_kv (hio : ∀ n, e.writeKv n = .ok) :
    (storeEntry e stale ctx tokens kvData savedMs w).2.disk.kv (keyOf ctx tokens) = some kvData := by
  unfold storeEntry at h ⊢
  dsimp only at h ⊢
  split_ifs at h ⊢ with hadmits hfiles
  simp only [finishStore] at h ⊢
  split_ifs at h ⊢
  rw [flushIndex_kv]
  exact writeFiles_kv hio hfiles

omit h in
theorem storedEntry_fields (e : Env F) (ctx : AmfContext) (tokens : List Token) (kvData : List Byte) (savedMs : Nat)
    (w : World F) : (storedEntry e ctx tokens kvData savedMs w).key = keyOf ctx tokens ∧
    (storedEntry e ctx tokens kvData savedMs w).sizeBytes = kvData.length ∧
    (storedEntry e ctx tokens kvData savedMs w).kvChecksum = hashBytes kFNVOffset kvData := by
  unfold storedEntry
  cases w.store.find? (keyOf ctx tokens) with
  | none => exact ⟨rfl, rfl, rfl⟩
  | some previous => exact ⟨rfl, rfl, rfl⟩

theorem loadKv_storedEntry (hio : ∀ n, e.writeKv n = .ok) (hne : kvData ≠ []) :
    loadKv (storedEntry e ctx tokens kvData savedMs w) (storeEntry e stale ctx tokens kvData savedMs w).2 =
      some kvData := by
  obtain ⟨hkey, -, hsum⟩ := storedEntry_fields e ctx tokens kvData savedMs w
  refine loadKv_eq_some ?_ hne (.inr hsum.symm)
  rw [hkey]
  exact storeEntry_kv h hio

omit h

variable {i : Nat} {x : AmfEntry F}

theorem storeEntry_fst (stale' : Nat) : (storeEntry e stale ctx tokens kvData savedMs w).1 =
    (storeEntry e stale' ctx tokens kvData savedMs w).1 := by
  unfold storeEntry
  dsimp only
  split_ifs
  · rfl
  · simp only [finishStore, flushIndex]
    split_ifs <;> rfl
  · rfl

theorem filter_set_key {xs : List (AmfEntry F)} {y : AmfEntry F} {k : AmfKey}
    (hn : (xs.map AmfEntry.key).Nodup) (hx : xs[i]? = some x) (hk : x.key = k) (hy : y.key = k) :
    (xs.set i y).filter (fun z => decide (z.key = k)) = [y] ∧
    (xs.set i y).filter (fun z => decide (z.key ≠ k)) = xs.filter fun z => decide (z.key ≠ k) := by
  induction xs generalizing i with
  | nil => simp at hx
  | cons a xs ih =>
    obtain ⟨ha, hn⟩ := List.nodup_cons.mp hn
    cases i with
    | zero =>
      obtain rfl : a = x := by simpa using hx
      have hnone : ∀ z ∈ xs, ¬ z.key = k := fun z hz hzk => ha (hk ▸ hzk ▸ List.mem_map_of_mem hz)
      simp only [List.set_cons_zero, List.filter_cons, hy, hk, decide_true, if_true, ne_eq, not_true_eq_false,
        decide_false, Bool.false_eq_true, if_false, and_true]
      rw [List.filter_eq_nil_iff.mpr]
      intro z hz
      simpa using hnone z hz
    | succ i =>
      obtain ⟨h1, h2⟩ := ih hn (by simpa using hx)
      have hak : ¬ a.key = k := by
        rintro rfl
        have : x ∈ xs := List.mem_of_getElem? (by simpa using hx)
        exact ha (hk ▸ List.mem_map_of_mem this)
      simp [hak, h1] at h2 ⊢
      exact h2

variable (hfound : w.store.find? (keyOf ctx tokens) = some (i, x))

include hfound

theorem overwrite_ok (h : Inv 0 w) (hok : (storeEntry e stale ctx tokens kvData savedMs w).1 = true)
    (hzero : storeEvicts e ctx tokens kvData.length w = 0) :
    StoredOk ctx tokens kvData (roomFor e ctx tokens kvData.length w)
      (storeEntry e stale ctx tokens kvData savedMs w).2 := by
  have hinv : Inv 0 (storeEntry e stale ctx tokens kvData savedMs w).2 := storeEntry_inv h (.inl rfl) (.inr fun _ => hzero)
  obtain ⟨-, hx, hk⟩ := h.rep.find?_some hfound
  have hroom : (roomFor e ctx tokens kvData.length w).store = w.store := (evictForStore_zero hzero).1
  have hstore := storeEntry_success hok
  rw [hfound, hzero, hroom] at hstore
  have hentries : (storeEntry e stale ctx tokens kvData savedMs w).2.store.entries =
      w.store.entries.set i (mergeEntry e (e.clock (w.tick + 1))
        (newEntry e ctx tokens kvData savedMs (e.clock (w.tick + 1)) (some x)) x) := by
    rw [hstore]; rfl
  obtain ⟨hone, hothers⟩ := filter_set_key h.rep.indexed.nodup hx hk
    (y := mergeEntry e (e.clock (w.tick + 1))
      (newEntry e ctx tokens kvData savedMs (e.clock (w.tick + 1)) (some x)) x) rfl
  exact ⟨⟨_, by rw [hentries]; exact hone, rfl, rfl, rfl⟩, by rw [hentries, hroom]; exact hothers,
    hinv.rep.indexed, hinv.rep.total⟩

/-- If something was evicted, a write-back beyond the end of the vector loses the new state. -/
theorem overwrite_lost (h : Inv 0 w) (hlarger : x.kvSize < kvData.length)
    (hstale : stale = (roomFor e ctx tokens kvData.length w).store.entries.length)
    (hok : (storeEntry e stale ctx tokens kvData savedMs w).1 = true)
    (hpos : storeEvicts e ctx tokens kvData.length w ≠ 0) :
    ¬ StoredOk ctx tokens kvData (roomFor e ctx tokens kvData.length w)
      (storeEntry e stale ctx tokens kvData savedMs w).2 := by
  rintro ⟨⟨y, hone, -, hsize, -⟩, -, -, -⟩
  have hstore := storeEntry_success hok
  have hentries : (storeEntry e stale ctx tokens kvData savedMs w).2.store.entries =
      (roomFor e ctx tokens kvData.length w).store.entries := by
    rw [hstore, hfound]
    simp only [commitEntry, if_neg hpos, Store.countAdmission, Store.overwrite, Store.setEntry]
    exact List.set_eq_of_length_le (Nat.le_of_eq hstale.symm)
  have hy : y ∈ (storeEntry e stale ctx tokens kvData savedMs w).2.store.entries ∧ y.key = keyOf ctx tokens := by
    have : y ∈ [y] := List.mem_singleton_self y
    rw [← hone] at this
    simpa using this
  rw [hentries] at hy
  -- what is left under the key is the old entry, which is smaller
  obtain ⟨-, hx, hk⟩ := h.rep.find?_some hfound
  have hmem : y ∈ w.store.entries := (evictForStore_sublist (w := w.next.next)).subset hy.1
  obtain rfl : y = x :=
    List.inj_on_of_nodup_map h.rep.indexed.nodup hmem (List.mem_of_getElem? hx) (hy.2.trans hk.symm)
  omega

/-! ### The result -/

theorem storeEvicts_zero_iff (hlarger : x.kvSize < kvData.length) :
    storeEvicts e ctx tokens kvData.length w = 0 ↔ RoomAlready e (kvData.length - x.kvSize) w.next.next := by
  have hne : w.next.next.store.entries ≠ [] := List.ne_nil_of_mem (List.mem_of_getElem? (find?_of_index hfound))
  unfold storeEvicts
  rw [hfound, ← evictIfNeeded_zero_iff hne]
  simp only [Option.map_some, evictForStore, if_pos hlarger]

omit hfound

/-- Whatever the dead iterator yields. -/
theorem overwrite_safe_iff (e : Env F) (w : World F) (ctx : AmfContext) (tokens : List Token)
    (kvData : List Byte) (savedMs i stale₀ : Nat) (x : AmfEntry F) (hw : Reachable e w)
    (hfound : w.store.find? (keyOf ctx tokens) = some (i, x)) (hlarger : x.kvSize < kvData.length)
    (hok : (storeEntry e stale₀ ctx tokens kvData savedMs w).1 = true) :
    (∀ stale, StoredOk ctx tokens kvData (roomFor e ctx tokens kvData.length w)
      (storeEntry e stale ctx tokens kvData savedMs w).2) ↔
    RoomAlready e (kvData.length - x.kvSize) w.next.next := by
  rw [← storeEvicts_zero_iff hfound hlarger]
  constructor
  · intro hstored
    by_contra hpos
    exact overwrite_lost hfound hw.inv hlarger rfl (by rwa [storeEntry_fst stale₀]) hpos (hstored _)
  · intro hzero stale
    exact overwrite_ok hfound hw.inv (by rwa [storeEntry_fst stale₀]) hzero

def threeEntries : List (Op Frac) :=
  [.init true, .store 0 (tenant 1) [9] (List.replicate 10 0) 0,
    .store 0 (tenant 1) [5, 6] (List.replicate 5 0) 0,
    .store 0 (tenant 1) [5, 6, 7] (List.replicate 20 0) 0]

theorem threeEntries_reachable : Reachable smallEnv (run smallEnv threeEntries emptyWorld) := by
  refine ⟨threeEntries, emptyWorld, emptyWorld_initial, ?_, rfl⟩
  simp only [threeEntries, EachStep, SafeOp, true_and, and_true]
  decide

theorem overwrite_safe_iff_fits : (storeEntry smallEnv 0 (tenant 1) [5, 6] (List.replicate 6 0) 0
      (run smallEnv threeEntries emptyWorld)).1 = true ∧
    ∀ stale, StoredOk (tenant 1) [5, 6] (List.replicate 6 0)
      (roomFor smallEnv (tenant 1) [5, 6] 6 (run smallEnv threeEntries emptyWorld))
      (storeEntry smallEnv stale (tenant 1) [5, 6] (List.replicate 6 0) 0
        (run smallEnv threeEntries emptyWorld)).2 := by
  have hok : (storeEntry smallEnv 0 (tenant 1) [5, 6] (List.replicate 6 0) 0
      (run smallEnv threeEntries emptyWorld)).1 = true := by decide
  have hsize : ((run smallEnv threeEntries emptyWorld).store.find? (keyOf (tenant 1) [5, 6])).map (·.2.kvSize) =
      some 5 := by decide
  obtain ⟨⟨i, x⟩, hfound, hx⟩ := Option.map_eq_some_iff.mp hsize
  have hlarger : x.kvSize < (List.replicate 6 (0 : Byte)).length := by rw [hx]; decide
  refine ⟨hok, (overwrite_safe_iff smallEnv _ (tenant 1) [5, 6] (List.replicate 6 0) 0 i 0 x
    threeEntries_reachable hfound hlarger hok).mpr (.inr (.inr (.inl ?_)))⟩
  rw [hx]
  decide

/-- The first entry is evicted, the others move down, and the write through the old position of the key destroys its
neighbour. -/
theorem overwrite_clobbers_neighbour : Reachable smallEnv (run smallEnv threeEntries emptyWorld) ∧
    ((run smallEnv threeEntries emptyWorld).store.find? (keyOf (tenant 1) [5, 6])).map
      (fun r => (r.1, r.2.kvSize)) = some (1, 5) ∧
    (storeEntry smallEnv 1 (tenant 1) [5, 6] (List.replicate 8 0) 0
      (run smallEnv threeEntries emptyWorld)).1 = true ∧
    ¬ StoredOk (tenant 1) [5, 6] (List.replicate 8 0)
      (roomFor smallEnv (tenant 1) [5, 6] 8 (run smallEnv threeEntries emptyWorld))
      (storeEntry smallEnv 1 (tenant 1) [5, 6] (List.replicate 8 0) 0
        (run smallEnv threeEntries emptyWorld)).2 := by
  refine ⟨threeEntries_reachable, by decide, by decide, ?_⟩
  rintro ⟨⟨x, hone, -⟩, -, -, -⟩
  have htwo : ((storeEntry smallEnv 1 (tenant 1) [5, 6] (List.replicate 8 0) 0
      (run smallEnv threeEntries emptyWorld)).2.store.entries.filter
        fun y => decide (y.key = keyOf (tenant 1) [5, 6])).length = 2 := by decide
  rw [hone] at htwo
  cases htwo

end Korith.Amf
