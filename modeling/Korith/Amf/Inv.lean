import Korith.Amf.Evict

/-!
# The invariant of the AMF store over whole runs

Each operation keeps `Inv`, with one exception: a store that overwrites an entry and evicts in between
writes through a dead iterator (`storeEntry_inv` asks that it does not).
-/

set_option linter.unusedSectionVars false

namespace Korith.Amf

variable {F : Type} [FloatArith F] {b : Nat} {s : Store F} {w : World F} {e : Env F} {i : Nat} {x y : AmfEntry F}
  {key : AmfKey} {tokens : List Token} {ctx : AmfContext} {nowMs : Nat} {prewarmed : AmfKey → Bool}

/-! ### Lookup and accounting -/

theorem find?_of_index {k : Nat × AmfEntry F} (h : s.find? key = some k) : s.entries[k.1]? = some k.2 := by
  obtain ⟨j, -, hx⟩ := Option.bind_eq_some_iff.mp h
  obtain ⟨y, hy, rfl⟩ := Option.map_eq_some_iff.mp hx
  exact hy

theorem Inv.congr {w' : World F} (h : Inv b w) (he : w'.store.entries = w.store.entries)
    (hi : w'.store.index = w.store.index) (ht : w'.store.totalBytes = w.store.totalBytes)
    (hen : w'.store.enabled = w.store.enabled) (hse : w'.store.stats.entries = w.store.stats.entries)
    (hsb : w'.store.stats.bytes = w.store.stats.bytes) (hf : w'.disk = w.disk) : Inv b w' where
  rep := ⟨he ▸ hi ▸ h.rep.indexed, he ▸ h.rep.size, by rw [ht, he]; exact h.rep.total⟩
  stats hen' := by
    have := h.stats (hen ▸ hen')
    exact ⟨by rw [hse, he]; exact this.1, by rw [hsb, ht]; exact this.2⟩
  within := ht ▸ h.within
  file := hf ▸ h.file

theorem Inv.setEntry (h : Inv b w) (hx : w.store.entries[i]? = some x) (hk : y.key = x.key)
    (hs : y.sizeBytes = x.sizeBytes) (hkv : y.kvSize = x.kvSize) :
    Inv b { w with store := w.store.setEntry i y } where
  rep := h.rep.setEntry hx hk hs (by rw [hs, hkv]; exact h.rep.size x (List.mem_of_getElem? hx))
  stats he := ⟨by simpa [Store.setEntry] using (h.stats he).1, (h.stats he).2⟩
  within := h.within
  file := h.file

theorem Inv.touchPrewarmed (h : Inv b w) : Inv b { w with store := w.store.touchPrewarmed key } := by
  unfold Store.touchPrewarmed
  split_ifs
  · split
    · rename_i hf
      exact h.setEntry (find?_of_index hf) rfl rfl rfl
    · exact h
  · exact h

theorem Inv.markPrewarmed (h : Inv b w) : Inv b { w with store := w.store.markPrewarmed key } :=
  h.congr rfl rfl rfl rfl rfl rfl rfl

@[simp] theorem checkTokens_world {len : Nat} : (checkTokens tokens len x w).2 = w := by
  unfold checkTokens
  split
  · rfl
  · split_ifs <;> rfl

section Keep

variable {P : World F → Prop} (hevict : ∀ w i, P w → P (evictEntryAt e i w)) (hnext : ∀ w, P w → P w.next)
  (hmark : ∀ w key, P w → P { w with store := w.store.markPrewarmed key })
  (htouch : ∀ w key, P w → P { w with store := w.store.touchPrewarmed key })

include hevict hmark htouch

theorem lookupLoop_keep {hashes : List Hash} (n : Nat) (h : P w) :
    P (lookupLoop e ctx tokens hashes nowMs prewarmed n w).2 := by
  induction n generalizing w with
  | zero => exact h
  | succ n ih =>
    unfold lookupLoop
    dsimp only
    split_ifs
    · exact h
    · split
      · exact ih h
      · rename_i i x hf
        split_ifs
        · exact ih h
        · exact ih (hevict w i h)
        · exact ih (hevict w i h)
        · exact ih h
        · rw [checkTokens_world]
          exact htouch _ _ (hmark _ _ h)
        · rw [checkTokens_world]
          exact htouch _ _ h

include hnext

theorem findLongestPrefix_keep (h : P w) : P (findLongestPrefix e ctx tokens prewarmed w).2 := by
  unfold findLongestPrefix
  split_ifs
  · exact h
  · exact h
  · exact h
  · exact lookupLoop_keep hevict hmark htouch _ (hnext w h)

end Keep

theorem findLongestPrefix_inv (h : Inv b w) : Inv b (findLongestPrefix e ctx tokens prewarmed w).2 :=
  findLongestPrefix_keep (P := Inv b) (fun _ i h => evictEntryAt_inv h i) (fun _ h => h.next)
    (fun _ _ h => h.markPrewarmed) (fun _ _ h => h.touchPrewarmed) h

variable {savedMs : Nat} {recs : List (AmfEntry F)} {kvSize evicted stale : Nat} {found : Option (Nat × AmfEntry F)}
  {ops : List (Op F)}

theorem noteHit_inv {tokensSaved restoreMs : Nat} (h : Inv b w) :
    Inv b (noteHit e key tokensSaved restoreMs savedMs w) := by
  have hc : Inv b { w with store := w.store.countHit tokensSaved restoreMs savedMs } :=
    h.congr rfl rfl rfl rfl rfl rfl rfl
  unfold noteHit
  dsimp only
  split
  · exact hc
  · rename_i i x hf
    generalize w.store.countHit tokensSaved restoreMs savedMs = s at hc hf
    have hset : Inv b { w with store := s.setEntry i (hitEntry e s x (e.clock w.tick) restoreMs savedMs).1 } :=
      hc.setEntry (find?_of_index hf) rfl rfl rfl
    split_ifs
    · refine evictEntryAt_inv (Inv.congr hset.next ?_ ?_ ?_ ?_ ?_ ?_ ?_) i <;> rfl
    · refine Inv.flushed (Inv.congr hset.next ?_ ?_ ?_ ?_ ?_ ?_ ?_) <;> rfl

theorem noteEntry_inv {count : AmfEntry F → AmfEntry F} (h : Inv b w)
    (hcount : ∀ x, (count x).key = x.key ∧ (count x).sizeBytes = x.sizeBytes ∧ (count x).kvSize = x.kvSize) :
    Inv b (noteEntry e count key w) := by
  unfold noteEntry
  split
  · exact h
  · rename_i i x hf
    obtain ⟨hk, hs, hkv⟩ := hcount x
    exact (Inv.setEntry (y := { count x with lastUsed := e.clock w.tick, lastAccessTimeMs := e.clock w.tick })
      h (find?_of_index hf) hk hs hkv).next.flushed

theorem noteFailure_inv (h : Inv b w) : Inv b (noteFailure e key w) :=
  noteEntry_inv (h.congr rfl rfl rfl rfl rfl rfl rfl) fun _ => ⟨rfl, rfl, rfl⟩

theorem noteBlock_inv (h : Inv b w) : Inv b (noteBlock w) := h.congr rfl rfl rfl rfl rfl rfl rfl

theorem noteBlockEntry_inv (h : Inv b w) : Inv b (noteBlockEntry e key w) :=
  noteEntry_inv (noteBlock_inv h) fun _ => ⟨rfl, rfl, rfl⟩

/-! ### Loading -/

theorem loadedEntry_size (nowMs : Nat) (h : x.sizeBytes = x.kvSize) :
    (loadedEntry e nowMs x).sizeBytes = (loadedEntry e nowMs x).kvSize := by
  show (if x.sizeBytes = 0 then x.kvSize else x.sizeBytes) = x.kvSize
  split_ifs <;> simp [h]

theorem loadRecords_entries (e : Env F) (recs : List (AmfEntry F)) (w : World F) :
    ∃ ys, (loadRecords e recs w).store.entries = w.store.entries ++ ys ∧
      List.Forall₂ (fun x y => ∃ now, y = loadedEntry e now x) recs ys := by
  induction recs generalizing w with
  | nil => exact ⟨[], (List.append_nil _).symm, .nil⟩
  | cons x recs ih =>
    obtain ⟨ys, hentries, hys⟩ := ih { w.next with store := { w.store with
      index := Function.update w.store.index x.key (some w.store.entries.length)
      entries := w.store.entries ++ [loadedEntry e (e.clock w.tick) x]
      totalBytes := w.store.totalBytes + (loadedEntry e (e.clock w.tick) x).sizeBytes } }
    refine ⟨loadedEntry e (e.clock w.tick) x :: ys, ?_, .cons ⟨_, rfl⟩ hys⟩
    exact hentries.trans (List.append_cons _ _ _).symm

theorem loadRecords_indexed (h : Indexed AmfEntry.key w.store.entries w.store.index)
    (hnodup : (recs.map AmfEntry.key).Nodup) (hnew : ∀ x ∈ recs, w.store.index x.key = none) :
    Indexed AmfEntry.key (loadRecords e recs w).store.entries (loadRecords e recs w).store.index := by
  induction recs generalizing w with
  | nil => exact h
  | cons x recs ih =>
    obtain ⟨hx, hnodup⟩ := List.nodup_cons.mp hnodup
    rw [loadRecords]
    refine ih (h.append (x := loadedEntry e (e.clock w.tick) x) (hnew x List.mem_cons_self)) hnodup fun y hy => ?_
    show Function.update w.store.index x.key _ y.key = none
    rw [Function.update_apply, if_neg]
    · exact hnew y (List.mem_cons_of_mem _ hy)
    · rintro heq
      exact hx (heq ▸ List.mem_map_of_mem hy)

theorem loadRecords_sum (h : w.store.totalBytes = (w.store.entries.map AmfEntry.sizeBytes).sum) :
    (loadRecords e recs w).store.totalBytes =
      ((loadRecords e recs w).store.entries.map AmfEntry.sizeBytes).sum := by
  induction recs generalizing w with
  | nil => exact h
  | cons x recs ih =>
    refine ih ?_
    dsimp only
    rw [List.map_append, List.sum_append, ← h, List.map_singleton, List.sum_singleton]

theorem loadRecords_size (h : ∀ x ∈ w.store.entries, x.sizeBytes = x.kvSize)
    (hrecs : ∀ x ∈ recs, x.sizeBytes = x.kvSize) :
    ∀ x ∈ (loadRecords e recs w).store.entries, x.sizeBytes = x.kvSize := by
  induction recs generalizing w with
  | nil => exact h
  | cons x recs ih =>
    refine ih ?_ fun y hy => hrecs y (.tail _ hy)
    intro y hy
    rcases List.mem_append.mp hy with hy | hy
    · exact h y hy
    · rw [List.mem_singleton.mp hy]
      exact loadedEntry_size _ (hrecs x (.head _))

theorem loadRecords_rep (h : Rep w.store) (hrecs : Loadable recs)
    (hnew : ∀ x ∈ recs, w.store.index x.key = none) : Rep (loadRecords e recs w).store :=
  ⟨loadRecords_indexed h.indexed hrecs.nodup hnew, loadRecords_size h.size hrecs.size, loadRecords_sum h.total⟩

theorem loadRecords_same : (loadRecords e recs w).store.enabled = w.store.enabled ∧
    (loadRecords e recs w).disk = w.disk := by
  induction recs generalizing w with
  | nil => exact ⟨rfl, rfl⟩
  | cons x recs ih => exact ih

theorem loadRecords_total (hrecs : ∀ x ∈ recs, x.sizeBytes = x.kvSize) :
    (loadRecords e recs w).store.totalBytes = w.store.totalBytes + (recs.map AmfEntry.sizeBytes).sum := by
  induction recs generalizing w with
  | nil => rfl
  | cons x recs ih =>
    have hx : (loadedEntry e (e.clock w.tick) x).sizeBytes = x.sizeBytes := by
      rw [loadedEntry_size _ (hrecs x (.head _)), hrecs x (.head _)]
      rfl
    rw [loadRecords, ih fun y hy => hrecs y (.tail _ hy)]
    simp only [hx, List.map_cons, List.sum_cons]
    omega

theorem rep_cleared : Rep s.cleared := ⟨Indexed.nil, by simp [Store.cleared], rfl⟩

theorem Loadable.take (h : Loadable recs) (n : Nat) : Loadable (recs.take n) :=
  ⟨h.nodup.sublist ((List.take_sublist n recs).map _), fun x hx => h.size x (List.mem_of_mem_take hx)⟩

theorem sum_take_le (recs : List (AmfEntry F)) (n : Nat) :
    ((recs.take n).map AmfEntry.sizeBytes).sum ≤ (recs.map AmfEntry.sizeBytes).sum := by
  conv_rhs => rw [← List.take_append_drop n recs, List.map_append, List.sum_append]
  exact Nat.le_add_right _ _

theorem loadRecords_cleared (hload : Loadable recs)
    (hb : Within b (recs.map AmfEntry.sizeBytes).sum) (hs : w.store = s.cleared) :
    Rep (loadRecords e recs w).store ∧ Within b (loadRecords e recs w).store.totalBytes := by
  refine ⟨loadRecords_rep (by rw [hs]; exact rep_cleared) hload fun _ _ => by rw [hs]; rfl, ?_⟩
  rw [loadRecords_total hload.size, hs]
  exact hb.mono (by simp [Store.cleared])

theorem loadIndex_inv (h : Inv b w) : Inv b (loadIndex e w) := by
  unfold loadIndex
  dsimp only
  have hclear : Inv b { w.next with store := w.store.cleared } :=
    ⟨rep_cleared, fun _ => ⟨rfl, rfl⟩, .inr (Nat.zero_le b), h.file⟩
  split
  · exact hclear
  · rename_i recs hrecs
    obtain ⟨hload, hb⟩ := h.file recs hrecs
    split_ifs
    · exact .of_disabled ⟨hclear.rep.1, hclear.rep.2, hclear.rep.3⟩ rfl hclear.within h.file
    · split
      · rename_i n _
        obtain ⟨hrep, hbound⟩ := loadRecords_cleared (e := e) (s := w.store)
          (w := { w.next with store := w.store.cleared }.next) (hload.take n) (hb.mono (sum_take_le recs n)) rfl
        refine .of_disabled ⟨hrep.1, hrep.2, hrep.3⟩ rfl hbound ?_
        show IndexFileOk b (loadRecords e _ _).disk
        rw [loadRecords_same.2]
        exact h.file
      · obtain ⟨hrep, hbound⟩ := loadRecords_cleared (e := e) (s := w.store)
          (w := { w.next with store := w.store.cleared }.next) hload hb rfl
        refine ⟨⟨hrep.1, hrep.2, hrep.3⟩, fun _ => ⟨rfl, rfl⟩, hbound, ?_⟩
        show IndexFileOk b (loadRecords e _ _).disk
        rw [loadRecords_same.2]
        exact h.file

theorem initStore_inv {dirOk : Bool} (h : Inv b w) : Inv b (initStore e dirOk w) := by
  unfold initStore
  split_ifs
  · have hl : Inv b (loadIndex e w) := loadIndex_inv h
    dsimp only
    split_ifs
    · exact hl.congr rfl rfl rfl rfl rfl rfl rfl
    · exact hl
  · exact .of_disabled ⟨h.rep.1, h.rep.2, h.rep.3⟩ rfl h.within h.file

/-! ### Storing -/

def existingEntry (ctx : AmfContext) (tokens : List Token) (w : World F) : Option (AmfEntry F) :=
  (w.store.find? (keyOf ctx tokens)).map (·.2)

def storeEvicts (e : Env F) (ctx : AmfContext) (tokens : List Token) (kvSize : Nat) (w : World F) : Nat :=
  (evictForStore e kvSize ((w.store.find? (keyOf ctx tokens)).map (·.2)) w.next.next).1

theorem finishStore_inv (h : IndexFileOk b w.disk) (hrep : Rep w.store)
    (hb : Within b w.store.totalBytes) : Inv b (finishStore e kvSize w).2 := by
  have hrep' : Rep (w.store.countAdmission kvSize) := ⟨hrep.1, hrep.2, hrep.3⟩
  have hflush : Inv b (flushIndex e { w with store := w.store.countAdmission kvSize }).2 := by
    refine ⟨?_, fun _ => ?_, ?_, flushIndex_file hrep' hb h⟩ <;> rw [flushIndex_store]
    · exact hrep'
    · exact ⟨rfl, rfl⟩
    · exact hb
  unfold finishStore
  dsimp only
  split_ifs
  · exact hflush
  · exact hflush.congr rfl rfl rfl rfl rfl rfl rfl

theorem commitEntry_rep (h : Rep s) (hsize : x.sizeBytes = x.kvSize) (hnew : found = none → s.index x.key = none)
    (hold : ∀ i y, found = some (i, y) → evicted = 0 ∧ s.entries[i]? = some y ∧ y.key = x.key) :
    Rep (commitEntry e stale evicted nowMs found x s) := by
  unfold commitEntry
  split
  · rename_i i y
    obtain ⟨rfl, hy, hk⟩ := hold i y rfl
    exact h.overwrite hy hk.symm rfl
  · exact h.append (hnew rfl) hsize

theorem Rep.kvSize_le (h : Rep s) (hx : s.entries[i]? = some x) : x.kvSize ≤ s.totalBytes := by
  have hsum := sum_eraseIdx (w := AmfEntry.sizeBytes) hx
  have hsize := h.size x (List.mem_of_getElem? hx)
  have htotal := h.total
  omega

theorem commitEntry_total (h : Rep s) (hold : ∀ i y, found = some (i, y) → s.entries[i]? = some y) :
    (commitEntry e stale evicted nowMs found x s).totalBytes ≤
      s.totalBytes + (x.kvSize - (found.map (·.2)).elim 0 (·.kvSize)) := by
  unfold commitEntry
  split
  · rename_i i y
    have hle := h.kvSize_le (hold i y rfl)
    show adjustTotal s.totalBytes x.kvSize y.kvSize ≤ s.totalBytes + (x.kvSize - y.kvSize)
    unfold adjustTotal
    split_ifs <;> omega
  · exact Nat.le_refl _

theorem admits_fits {existing : Option (AmfEntry F)}
    (h : admits e tokens kvSize existing w = true) : e.budget = 0 ∨ kvSize ≤ e.budget := by
  unfold admits at h
  split_ifs at h with h1 h2
  all_goals
    simp only [Bool.and_eq_true, decide_eq_true_eq] at h2
    omega

theorem storeEntry_inv {kvData : List Byte}
    (h : Inv b w) (hb : b = 0 ∨ b = e.budget) (hsafe : w.store.index (keyOf ctx tokens) = none ∨
      (admits e tokens kvData.length (existingEntry ctx tokens w) w = true →
        storeEvicts e ctx tokens kvData.length w = 0)) :
    Inv b (storeEntry e stale ctx tokens kvData savedMs w).2 := by
  have hev : Inv b (evictForStore e kvData.length ((w.store.find? (keyOf ctx tokens)).map (·.2)) w.next.next).2 :=
    evictForStore_keep (P := Inv b) (fun _ i h => evictEntryAt_inv h i) (fun _ h => h.next) h.next.next
  have hw := hev.sameIndex (writeFiles_same (e := e) (keyOf ctx tokens) tokens kvData)
  unfold storeEntry
  dsimp only
  split
  · exact h.congr rfl rfl rfl rfl rfl rfl rfl
  rename_i hrefused
  have hadmits : admits e tokens kvData.length (existingEntry ctx tokens w) w = true := by
    simpa [existingEntry] using hrefused
  split
  · have hold : ∀ i y, w.store.find? (keyOf ctx tokens) = some (i, y) →
        storeEvicts e ctx tokens kvData.length w = 0 ∧
        (writeFiles e (keyOf ctx tokens) tokens kvData (evictForStore e kvData.length
          ((w.store.find? (keyOf ctx tokens)).map (·.2)) w.next.next).2).2.store.entries[i]? = some y ∧
        y.key = keyOf ctx tokens := by
      intro i y hfound
      obtain ⟨hi, hy, hk⟩ := h.rep.find?_some hfound
      have hzero := hsafe.resolve_left (by simp [hi]) hadmits
      refine ⟨hzero, ?_, hk⟩
      rw [(writeFiles_same _ _ _).1, (evictForStore_zero hzero).1]
      exact hy
    refine finishStore_inv hw.file (commitEntry_rep hw.rep rfl (fun hfound => ?_) hold)
      (Within.mono ?_ (commitEntry_total hw.rep fun i y hfound => (hold i y hfound).2.1))
    · have hkey := h.rep.indexed.none_iff.mp (h.rep.find?_none hfound)
      refine hw.rep.indexed.none_iff.mpr ?_
      rw [(writeFiles_same _ _ _).1]
      exact fun hmem => hkey (((evictForStore_sublist (w := w.next.next)).map _).subset hmem)
    · show Within b ((writeFiles e (keyOf ctx tokens) tokens kvData _).2.store.totalBytes + _)
      rw [(writeFiles_same _ _ _).1]
      exact evictForStore_within h.next.next hb (admits_fits hadmits)
  · exact hw.congr rfl rfl rfl rfl rfl rfl rfl

/-! ### Runs -/

/-- A store of a key that is not there, or one that is refused or overwrites without an eviction. -/
def SafeOp (e : Env F) : Op F → World F → Prop
  | .store _ ctx tokens kvData _, w => w.store.index (keyOf ctx tokens) = none ∨
    (admits e tokens kvData.length (existingEntry ctx tokens w) w = true →
      storeEvicts e ctx tokens kvData.length w = 0)
  | _, _ => True

theorem step_inv {op : Op F} (h : Inv b w) (hb : b = 0 ∨ b = e.budget) (hop : SafeOp e op w) : Inv b (step e op w) := by
  cases op with
  | init dirOk => exact initStore_inv h
  | store stale ctx tokens kvData savedMs => exact storeEntry_inv h hb hop
  | find ctx tokens prewarmed => exact findLongestPrefix_inv h
  | noteHit key tokensSaved restoreMs savedMs => exact noteHit_inv h
  | noteFailure key => exact noteFailure_inv h
  | noteBlock => exact noteBlock_inv h
  | noteBlockEntry key => exact noteBlockEntry_inv h
  | noteMiss => exact h.congr rfl rfl rfl rfl rfl rfl rfl
  | evictExpired nowMs => exact evictExpiredEntries_keep (P := Inv b) (fun _ i h => evictEntryAt_inv h i) h
  | setMinAdmitRoi v =>
    simp only [step]
    split_ifs
    · exact h.congr rfl rfl rfl rfl rfl rfl rfl
    · exact h
  | prewarm key => exact h.congr rfl rfl rfl rfl rfl rfl rfl
  | prewarmDone => exact h.congr rfl rfl rfl rfl rfl rfl rfl
  | shutdown =>
    simp only [step]
    split_ifs
    · exact h.flushed
    · exact h

def EachStep (e : Env F) (ok : Op F → World F → Prop) : List (Op F) → World F → Prop
  | [], _ => True
  | op :: ops, w => ok op w ∧ EachStep e ok ops (step e op w)

theorem run_inv (h : Inv b w) (hb : b = 0 ∨ b = e.budget)
    (hops : EachStep e (SafeOp e) ops w) : Inv b (run e ops w) := by
  induction ops generalizing w with
  | nil => exact h
  | cons op ops ih => exact ih (step_inv h hb hops.1) hops.2

/-- A new store object over a directory without an index file or with one that was written by a store. -/
structure Initial (w : World F) : Prop where
  store : ∃ minAdmitRoi, w.store = Store.fresh minAdmitRoi
  file : ∀ recs, w.disk.indexFile = some recs → Loadable recs

theorem Initial.inv (h : Initial w)
    (hb : ∀ recs, w.disk.indexFile = some recs → Within b (recs.map AmfEntry.sizeBytes).sum) : Inv b w := by
  obtain ⟨r, hr⟩ := h.store
  refine .of_disabled ?_ (by rw [hr]; rfl) (by rw [hr]; exact .inr (Nat.zero_le b))
    fun recs hrecs => ⟨h.file recs hrecs, hb recs hrecs⟩
  rw [hr]
  exact ⟨Indexed.nil, by simp [Store.fresh], rfl⟩

theorem Initial.inv_zero (h : Initial w) : Inv 0 w := h.inv fun _ _ => .inl rfl

/-- Every store of the run is one of a key not yet present. -/
def NewKey : Op F → World F → Prop
  | .store _ ctx tokens _ _, w => w.store.index (keyOf ctx tokens) = none
  | _, _ => True

theorem EachStep.mono {ok ok' : Op F → World F → Prop} (h : EachStep e ok ops w)
    (himp : ∀ op w, ok op w → ok' op w) : EachStep e ok' ops w := by
  induction ops generalizing w with
  | nil => trivial
  | cons op ops ih => exact ⟨himp op w h.1, ih h.2⟩

theorem NewKey.safe {op : Op F} (h : NewKey op w) : SafeOp e op w := by
  cases op <;> first | exact .inl h | trivial

/-- After any run that stores new keys only, with any clock and any failures of the file system. -/
theorem amfStore_consistent (e : Env F) (ops : List (Op F)) (w : World F) (hw : Initial w)
    (hops : EachStep e NewKey ops w) (hen : (run e ops w).store.enabled = true) :
    ((run e ops w).store.entries.map AmfEntry.key).Nodup ∧ (∀ k i, (run e ops w).store.index k = some i ↔
      ((run e ops w).store.entries[i]?).map AmfEntry.key = some k) ∧
    (run e ops w).store.totalBytes = ((run e ops w).store.entries.map AmfEntry.sizeBytes).sum ∧
    (run e ops w).store.stats.entries = (run e ops w).store.entries.length ∧
    (run e ops w).store.stats.bytes = (run e ops w).store.totalBytes := by
  have h : Inv 0 (run e ops w) := run_inv hw.inv_zero (.inl rfl) (hops.mono fun _ _ => NewKey.safe)
  exact ⟨h.rep.indexed.nodup, h.rep.indexed.iff, h.rep.total, h.stats hen⟩

/-- 36 bytes without a watermark, and an hour-long clock tick so that entries cool down. -/
def Env.atTime (e : Env F) (now : Nat) : Env F := { e with clock := fun _ => now }

def smallEnv : Env Frac where
  minTokens := 1
  minTokens_pos := by decide
  maxBytes := 36
  storageBudgetBytes := 36
  evictionWatermark := ⟨1, 1, by decide, by decide⟩
  hotTtlMs := 10
  warmTtlMs := 100
  evictionPolicy := .lru
  maxAgeMs := 0
  defaultTtlMs := 0
  maxTtlMs := 0
  modelVersionCheck := true
  lowRoiHitLimit := 3
  prewarmEnabled := false
  diskGuardEnabled := false
  minFreeDiskBytes := 0
  minFreeDiskRatio := ⟨0, 1⟩
  clock n := 1000 * (n + 1)
  space _ := none
  streamBuffer := 1024
  writeTokens _ := .ok
  writeKv _ := .ok
  removeOk _ := true
  flushOk _ := true
  readStops _ := none

def emptyWorld : World Frac where
  store := Store.fresh ⟨0, 1⟩
  disk := ⟨none, fun _ => none, fun _ => none⟩
  tick := 0

theorem emptyWorld_initial : Initial emptyWorld := ⟨⟨⟨0, 1⟩, rfl⟩, fun _ h => by cases h⟩

def tenant (n : Nat) : AmfContext := ⟨7, BitVec.ofNat 64 n, 64, 1, 0, 0, 0, 0⟩

def evictingRun : List (Op Frac) :=
  [.init true, .store 0 (tenant 1) [5, 6] (List.replicate 20 0) 0,
    .store 0 (tenant 1) [5, 6, 7] (List.replicate 30 0) 0, .init true]

theorem amfStore_consistent_evicting : EachStep smallEnv NewKey evictingRun emptyWorld ∧
    (run smallEnv evictingRun emptyWorld).store.enabled = true ∧
    (run smallEnv evictingRun emptyWorld).store.stats.bytes = 30 ∧
    (run smallEnv evictingRun emptyWorld).store.totalBytes = 30 := by
  have hsteps : EachStep smallEnv NewKey evictingRun emptyWorld := by
    simp only [evictingRun, EachStep, NewKey, true_and, and_true]
    decide
  have hen : (run smallEnv evictingRun emptyWorld).store.enabled = true := by decide
  have h := amfStore_consistent smallEnv evictingRun emptyWorld emptyWorld_initial hsteps hen
  have htotal : (run smallEnv evictingRun emptyWorld).store.totalBytes = 30 := by decide
  exact ⟨hsteps, hen, h.2.2.2.2.trans htotal, htotal⟩

end Korith.Amf
