import Korith.Amf.Store

/-!
# The representation of the AMF store

`Rep`: the index is the index of the entries, the total is the sum of their sizes, and an entry's size is that of its
state file. `Inv` adds the statistics, a limit of the total, and the index file, which holds the entries of some
earlier moment.
-/

set_option linter.unusedSectionVars false

namespace Korith.Amf

variable {F : Type} {b : Nat} {s : Store F} {w : World F} {e : Env F} {i : Nat} {x y : AmfEntry F} {key : AmfKey}

structure Rep (s : Store F) : Prop where
  indexed : Indexed AmfEntry.key s.entries s.index
  size : ∀ x ∈ s.entries, x.sizeBytes = x.kvSize
  total : s.totalBytes = (s.entries.map AmfEntry.sizeBytes).sum

structure Loadable (recs : List (AmfEntry F)) : Prop where
  nodup : (recs.map AmfEntry.key).Nodup
  size : ∀ x ∈ recs, x.sizeBytes = x.kvSize

def StatsOk (s : Store F) : Prop := s.stats.entries = s.entries.length ∧ s.stats.bytes = s.totalBytes

/-- At most `b`, where 0 stands for no limit. -/
def Within (b n : Nat) : Prop := b = 0 ∨ n ≤ b

def IndexFileOk (b : Nat) (d : Disk F) : Prop :=
  ∀ recs, d.indexFile = some recs → Loadable recs ∧ Within b (recs.map AmfEntry.sizeBytes).sum

structure Inv (b : Nat) (w : World F) : Prop where
  rep : Rep w.store
  stats : w.store.enabled = true → StatsOk w.store
  within : Within b w.store.totalBytes
  file : IndexFileOk b w.disk

theorem Within.mono {m n : Nat} (h : Within b n) (hle : m ≤ n) : Within b m :=
  h.imp_right fun h => Nat.le_trans hle h

theorem Rep.loadable (h : Rep s) : Loadable s.entries := ⟨h.indexed.nodup, h.size⟩

theorem Rep.find?_some (h : Rep s) (hf : s.find? key = some (i, x)) :
    s.index key = some i ∧ s.entries[i]? = some x ∧ x.key = key := by
  obtain ⟨j, hj, hx⟩ := Option.bind_eq_some_iff.mp hf
  obtain ⟨y, hy, heq⟩ := Option.map_eq_some_iff.mp hx
  cases heq
  obtain ⟨z, hz, hk⟩ := h.indexed.getElem? hj
  rw [hy] at hz
  cases hz
  exact ⟨hj, hy, hk⟩

theorem Rep.find?_none (h : Rep s) (hf : s.find? key = none) : s.index key = none := by
  cases hj : s.index key with
  | none => rfl
  | some j =>
    obtain ⟨z, hz, -⟩ := h.indexed.getElem? hj
    simp [Store.find?, hj, hz] at hf

theorem Rep.setEntry (h : Rep s) (hx : s.entries[i]? = some x) (hk : y.key = x.key)
    (hs : y.sizeBytes = x.sizeBytes) (hkv : y.sizeBytes = y.kvSize) : Rep (s.setEntry i y) where
  indexed := h.indexed.set hx hk
  size z hz := by
    rcases List.mem_or_eq_of_mem_set hz with hz | rfl
    · exact h.size z hz
    · exact hkv
  total := by
    have := sum_set (w := AmfEntry.sizeBytes) (y := y) hx
    show s.totalBytes = ((s.entries.set i y).map AmfEntry.sizeBytes).sum
    rw [h.total]
    omega

theorem Rep.drop (h : Rep s) (hx : s.entries[i]? = some x) : Rep (s.drop i x) where
  indexed := indexed_rebuild (h.indexed.eraseIdx_nodup i)
  size z hz := h.size z (List.mem_of_mem_eraseIdx hz)
  total := by
    have hsum := sum_eraseIdx (w := AmfEntry.sizeBytes) hx
    have hsize := h.size x (List.mem_of_getElem? hx)
    have htotal := h.total
    show s.totalBytes - (if 0 < x.sizeBytes then x.sizeBytes else x.kvSize) =
      ((s.entries.eraseIdx i).map AmfEntry.sizeBytes).sum
    split_ifs <;> omega

theorem statsOk_drop : StatsOk (s.drop i x) := ⟨rfl, rfl⟩

theorem Rep.append (h : Rep s) (hk : s.index x.key = none) (hs : x.sizeBytes = x.kvSize) : Rep (s.append x) where
  indexed := h.indexed.append hk
  size z hz := by
    rcases List.mem_append.mp hz with hz | hz
    · exact h.size z hz
    · rw [List.mem_singleton.mp hz]; exact hs
  total := by simp [Store.append, h.total, hs]

theorem Rep.overwrite (h : Rep s) (hx : s.entries[i]? = some x) (hk : y.key = x.key)
    (hs : y.sizeBytes = y.kvSize) : Rep (s.overwrite i y x) where
  indexed := h.indexed.set hx hk
  size z hz := by
    rcases List.mem_or_eq_of_mem_set hz with hz | rfl
    · exact h.size z hz
    · exact hs
  total := by
    have hset := sum_set (w := AmfEntry.sizeBytes) (y := y) hx
    have hsize := h.size x (List.mem_of_getElem? hx)
    have htotal := h.total
    show adjustTotal s.totalBytes y.kvSize x.kvSize = ((s.entries.set i y).map AmfEntry.sizeBytes).sum
    unfold adjustTotal
    split_ifs <;> omega

/-! ### Files -/

section Files

@[simp] theorem next_store : w.next.store = w.store := rfl
@[simp] theorem next_disk : w.next.disk = w.disk := rfl

@[simp] theorem flushIndex_store : (flushIndex e w).2.store = w.store := by
  unfold flushIndex; split <;> rfl

@[simp] theorem removeTok_store : (removeTok e key w).store = w.store := by
  unfold removeTok; split <;> rfl

@[simp] theorem removeKv_store : (removeKv e key w).store = w.store := by
  unfold removeKv; split <;> rfl

@[simp] theorem removeTok_indexFile : (removeTok e key w).disk.indexFile = w.disk.indexFile := by
  unfold removeTok; split <;> rfl

@[simp] theorem removeKv_indexFile : (removeKv e key w).disk.indexFile = w.disk.indexFile := by
  unfold removeKv; split <;> rfl

def SameIndex (w w' : World F) : Prop := w'.store = w.store ∧ w'.disk.indexFile = w.disk.indexFile

theorem writeTokensFile_same {tokens : List Token} : SameIndex w (writeTokensFile e key tokens w).2 := by
  unfold writeTokensFile
  split <;> exact ⟨rfl, rfl⟩

variable {data buf : List Byte}

theorem writeKvFile_same : SameIndex w (writeKvFile e key data w).2 := by
  unfold writeKvFile
  split <;> exact ⟨rfl, rfl⟩

theorem SameIndex.trans {w₁ w₂ : World F} (h : SameIndex w w₁) (h' : SameIndex w₁ w₂) : SameIndex w w₂ :=
  ⟨h'.1.trans h.1, h'.2.trans h.2⟩

theorem removeTok_same : SameIndex w (removeTok e key w) := ⟨removeTok_store, removeTok_indexFile⟩

theorem removeKv_same : SameIndex w (removeKv e key w) := ⟨removeKv_store, removeKv_indexFile⟩

theorem writeFiles_same (key : AmfKey) (tokens : List Token) (data : List Byte) :
    SameIndex w (writeFiles e key tokens data w).2 := by
  unfold writeFiles
  dsimp only
  split_ifs
  · exact writeTokensFile_same.trans writeKvFile_same
  · exact (writeTokensFile_same.trans writeKvFile_same).trans removeTok_same
  · exact writeTokensFile_same

theorem flushIndex_file (hrep : Rep w.store) (hb : Within b w.store.totalBytes) (hfile : IndexFileOk b w.disk) :
    IndexFileOk b (flushIndex e w).2.disk := by
  unfold flushIndex
  split
  · rintro recs ⟨⟩
    exact ⟨hrep.loadable, hrep.total ▸ hb⟩
  · exact hfile

/-! ### Loading a state -/

theorem loadKv_eq_some (hkv : w.disk.kv x.key = some data) (hne : data ≠ [])
    (hsum : x.kvChecksum = 0 ∨ hashBytes kFNVOffset data = x.kvChecksum) : loadKv x w = some data := by
  have hsum' : (decide (x.kvChecksum = 0) || decide (hashBytes kFNVOffset data = x.kvChecksum)) = true := by
    rwa [Bool.or_eq_true, decide_eq_true_eq, decide_eq_true_eq]
  rw [loadKv, hkv, Option.filter_some_pos (by simpa using hne)]
  exact Option.filter_some_pos hsum'

theorem of_loadKv (h : loadKv x w = some data) :
    w.disk.kv x.key = some data ∧ data ≠ [] ∧ (x.kvChecksum = 0 ∨ hashBytes kFNVOffset data = x.kvChecksum) := by
  obtain ⟨h, hsum⟩ := Option.filter_eq_some_iff.mp h
  obtain ⟨h, hne⟩ := Option.filter_eq_some_iff.mp h
  refine ⟨h, ?_, ?_⟩
  · rintro rfl
    cases hne
  · rwa [Bool.or_eq_true, decide_eq_true_eq, decide_eq_true_eq] at hsum

theorem loadKvInto_of_loadKv (h : loadKv x w = some data) (hlen : data.length ≤ buf.length) :
    loadKvInto x buf w = (true, data ++ buf.drop data.length, data.length) := by
  obtain ⟨hkv, hne, hsum⟩ := of_loadKv h
  have hgood : ¬ (decide (x.kvChecksum ≠ 0) && decide (hashBytes kFNVOffset data ≠ x.kvChecksum)) = true := by
    rw [Bool.and_eq_true, decide_eq_true_eq, decide_eq_true_eq]
    rintro ⟨h0, hbad⟩
    exact hsum.elim h0 hbad
  rw [loadKvInto, hkv]
  dsimp only
  rw [if_neg (by simpa using hne), if_neg (Nat.not_lt.mpr hlen), if_neg hgood]

theorem loadKvInto_of_loadKv_none (h : loadKv x w = none) : (loadKvInto x buf w).1 = false := by
  unfold loadKvInto
  split
  · rfl
  · rename_i data hkv
    split_ifs with hnil hlen hbad
    · rfl
    · rfl
    · rfl
    · have hsum : x.kvChecksum = 0 ∨ hashBytes kFNVOffset data = x.kvChecksum := by
        by_contra hnot
        obtain ⟨h0, hne⟩ := not_or.mp hnot
        exact hbad (by rw [Bool.and_eq_true, decide_eq_true_eq, decide_eq_true_eq]; exact ⟨h0, hne⟩)
      rw [loadKv_eq_some hkv (by simpa using hnil) hsum] at h
      cases h

end Files

theorem Inv.flush {s' : Store F} (h : Inv b w) (hrep : Rep s') (hstats : s'.enabled = true → StatsOk s')
    (hb : Within b s'.totalBytes) : Inv b (flushIndex e { w with store := s' }).2 where
  rep := by simpa using hrep
  stats := by simpa using hstats
  within := by simpa using hb
  file := flushIndex_file hrep hb h.file

theorem Inv.flushed (h : Inv b w) : Inv b (flushIndex e w).2 := h.flush h.rep h.stats h.within

theorem Inv.of_disabled (hrep : Rep w.store) (hen : w.store.enabled = false) (hb : Within b w.store.totalBytes)
    (hfile : IndexFileOk b w.disk) : Inv b w :=
  ⟨hrep, fun h => by simp [hen] at h, hb, hfile⟩

theorem Inv.next (h : Inv b w) : Inv b w.next := ⟨h.rep, h.stats, h.within, h.file⟩

theorem Inv.sameIndex {w' : World F} (h : Inv b w) (hs : SameIndex w w') : Inv b w' := by
  obtain ⟨hstore, hfile⟩ := hs
  exact ⟨hstore ▸ h.rep, hstore ▸ h.stats, hstore ▸ h.within, fun recs => by rw [hfile]; exact h.file recs⟩

/-! ### Evictions -/

theorem evictEntryAt_inv (h : Inv b w) (i : Nat) : Inv b (evictEntryAt e i w) := by
  unfold evictEntryAt
  split
  · exact h
  · rename_i x hx
    refine (h.sameIndex (removeKv_same.trans removeTok_same)).flush ?_ (fun _ => statsOk_drop) ?_
    · simpa using h.rep.drop hx
    · simpa [Store.drop] using h.within.mono (Nat.sub_le _ _)

/-! ### Sweeps -/

theorem evictEntryAt_store (hx : w.store.entries[i]? = some x) : (evictEntryAt e i w).store = w.store.drop i x := by
  unfold evictEntryAt
  rw [hx]
  simp

theorem evictEntryAt_sublist : (evictEntryAt e i w).store.entries.Sublist w.store.entries := by
  cases hx : w.store.entries[i]? with
  | none =>
    rw [evictEntryAt, hx]
  | some x =>
    rw [evictEntryAt_store hx]
    exact List.eraseIdx_sublist _ i

section Sweeps

variable {P : World F → Prop} {nowMs incoming kvSize : Nat} {existing : Option (AmfEntry F)}
  (hevict : ∀ w i, P w → P (evictEntryAt e i w))

include hevict

/-- What an eviction keeps, a sweep keeps. -/
theorem expireLoop_keep (fuel i : Nat) (h : P w) : P (expireLoop e nowMs fuel i w) := by
  induction fuel generalizing w i with
  | zero => exact h
  | succ fuel ih =>
    unfold expireLoop
    split
    · exact h
    · split_ifs
      · exact ih _ (hevict w i h)
      · exact ih _ h

theorem evictExpiredEntries_keep (h : P w) : P (evictExpiredEntries e nowMs w) := by
  unfold evictExpiredEntries
  split_ifs
  · exact h
  · exact expireLoop_keep hevict _ _ h

variable [FloatArith F] (hnext : ∀ w, P w → P w.next)

include hnext

theorem evictLoop_keep (fuel : Nat) (h : P w) : P (evictLoop e incoming fuel w).2 := by
  induction fuel generalizing w with
  | zero => exact h
  | succ fuel ih =>
    unfold evictLoop
    split_ifs
    · exact h
    · split
      · exact hnext w h
      · exact ih (hevict _ _ (hnext w h))

omit hevict hnext in
theorem evictIfNeeded_cases (e : Env F) (incoming : Nat) (w : World F) : evictIfNeeded e incoming w = (0, w) ∨
      evictIfNeeded e incoming w = evictLoop e incoming (w.store.entries.length + 1) w := by
  unfold evictIfNeeded
  split_ifs
  · exact .inl rfl
  · exact .inl rfl
  · exact .inr rfl

omit hevict hnext in
theorem evictForStore_cases (e : Env F) (kvSize : Nat) (existing : Option (AmfEntry F)) (w : World F) :
    evictForStore e kvSize existing w = (0, w) ∨
    ∃ incoming, evictForStore e kvSize existing w = evictLoop e incoming (w.store.entries.length + 1) w := by
  cases existing with
  | none => exact (evictIfNeeded_cases e kvSize w).imp_right fun h => ⟨_, h⟩
  | some x =>
    simp only [evictForStore]
    split_ifs
    · exact (evictIfNeeded_cases e (kvSize - x.kvSize) w).imp_right fun h => ⟨_, h⟩
    · exact .inl rfl

theorem evictIfNeeded_keep (h : P w) : P (evictIfNeeded e incoming w).2 := by
  rcases evictIfNeeded_cases e incoming w with heq | heq
  · rw [heq]
    exact h
  · rw [heq]
    exact evictLoop_keep hevict hnext _ h

theorem evictForStore_keep (h : P w) : P (evictForStore e kvSize existing w).2 := by
  rcases evictForStore_cases e kvSize existing w with heq | ⟨n, heq⟩
  · rw [heq]
    exact h
  · rw [heq]
    exact evictLoop_keep hevict hnext _ h

end Sweeps

variable [FloatArith F] {kvSize : Nat} {existing : Option (AmfEntry F)}

theorem evictForStore_zero (h : (evictForStore e kvSize existing w).1 = 0) :
    (evictForStore e kvSize existing w).2.store = w.store ∧ (evictForStore e kvSize existing w).2.disk = w.disk := by
  rcases evictForStore_cases e kvSize existing w with heq | ⟨n, heq⟩
  · rw [heq]
    exact ⟨rfl, rfl⟩
  · rw [heq] at h ⊢
    unfold evictLoop at h ⊢
    split_ifs at h ⊢
    · exact ⟨rfl, rfl⟩
    · split at h
      · exact ⟨rfl, rfl⟩
      · cases h

theorem evictForStore_sublist : (evictForStore e kvSize existing w).2.store.entries.Sublist w.store.entries :=
  evictForStore_keep (P := fun w' => w'.store.entries.Sublist w.store.entries)
    (fun _ _ h => evictEntryAt_sublist.trans h) (fun _ h => h) (List.Sublist.refl _)

end Korith.Amf
