import Korith.Engine.Prefill
import Korith.Amf.Lookup

/-!
# A replayed prompt is a decoded prompt

The state that a prompt leaves does not depend on how it is cut into batches (`executePepPlan_eq`), so it is a
function `cold` of the context and the tokens. Over every history, a token file and a state file under one key belong
together (`FilesOk`): the blob is the saved `cold` state of exactly these tokens. The index is rebuilt by every
request, so a hit is an entry with the key of the prefix even after an overwrite has corrupted the entries.
-/

set_option linter.unusedSectionVars false

namespace Korith.Engine

open Korith.Amf FloatArith

variable {F L : Type}

/-! ### Decoding in chunks -/

section Decode

variable {model : List Token → List L} {nBatch nCtx : Nat} {ok : Nat → Bool} {broken c : Ctx L}
  {xs tokens : List Token} {pos : Nat}

theorem cold_holds (target : AmfContext → List Token → List L) (ctx : AmfContext) (xs : List Token) :
    (cold target ctx xs).mem.Holds 0 xs := (Memory.holds_empty 0).place

theorem Holds.all_tokens {m : Memory} (h : m.Holds 0 xs) : m.tokens 0 (xs.length - 1) = xs := by
  rw [h.tokens, List.take_of_length_le (by omega)]

/-- The row is that of the last token over all cells that are there then. -/
theorem executePepPlan_eq (hb : 0 < nBatch) (fuel n : Nat)
    (hout : tokens = [] → c.out = [model (c.mem.tokens 0 (pos - 1))])
    (h : (executePepPlan model nBatch ok broken fuel n c pos tokens).1 = true) :
    (executePepPlan model nBatch ok broken fuel n c pos tokens).2 =
      (⟨c.mem.place 0 pos tokens, [model ((c.mem.place 0 pos tokens).tokens 0 (pos + tokens.length - 1))]⟩,
        pos + tokens.length) := by
  induction fuel generalizing n c pos tokens with
  | zero => cases h
  | succ fuel ih =>
    unfold executePepPlan at h ⊢
    split_ifs at h ⊢ with hnil hok
    · obtain rfl := List.isEmpty_iff.mp hnil
      exact Prod.ext (congrArg (Ctx.mk _) (hout rfl)) rfl
    · have hchunk : tokens.take nBatch ≠ [] := by
        simp only [ne_eq, List.take_eq_nil_iff, not_or]
        exact ⟨by omega, fun h => hnil (by simp [h])⟩
      have hplace : (c.mem.place 0 pos (tokens.take nBatch)).place 0 (pos + (tokens.take nBatch).length)
          (tokens.drop nBatch) = c.mem.place 0 pos tokens := by
        rw [Memory.place_append, List.take_append_drop]
      have hlen : pos + (tokens.take nBatch).length + (tokens.drop nBatch).length = pos + tokens.length := by
        rw [Nat.add_assoc, ← List.length_append, List.take_append_drop]
      -- the chunk's cells are those of the decode, with or without its output
      have hcells : (if (tokens.drop nBatch).isEmpty then c.decode model 0 pos (tokens.take nBatch) false
          else { c.decode model 0 pos (tokens.take nBatch) false with out := [] }).mem =
          c.mem.place 0 pos (tokens.take nBatch) := by
        split_ifs
        · rfl
        · rfl
      rw [← hplace, ← hlen, ← hcells]
      refine ih (n + 1) (fun hrest => ?_) h
      rw [hcells, if_pos (by rw [hrest]; rfl)]
      exact Ctx.decode_out c 0 pos hchunk

theorem executePepPlan_ok (hb : 0 < nBatch) (fuel n pos : Nat) (hfuel : tokens.length < fuel) :
    (executePepPlan model nBatch (fun _ => true) broken fuel n c pos tokens).1 = true := by
  induction fuel generalizing n c pos tokens with
  | zero => omega
  | succ fuel ih =>
    unfold executePepPlan
    by_cases hnil : tokens.isEmpty = true
    · rw [if_pos hnil]
    · rw [if_neg hnil, if_pos rfl]
      refine ih _ _ ?_
      have hpos : 0 < tokens.length := List.length_pos_of_ne_nil fun h => hnil (by simp [h])
      rw [List.length_drop]
      omega

theorem executePepPlan_fst (c' : Ctx L) (fuel n pos : Nat) :
    (executePepPlan model nBatch ok broken fuel n c pos tokens).1 =
      (executePepPlan model nBatch ok broken fuel n c' pos tokens).1 := by
  induction fuel generalizing n c c' pos tokens with
  | zero => rfl
  | succ fuel ih =>
    unfold executePepPlan
    split_ifs
    · rfl
    · exact ih _ _ _
    · rfl

theorem decodeTokens_fst (c' : Ctx L) : (decodeTokens model nCtx nBatch ok broken c pos tokens).1 =
    (decodeTokens model nCtx nBatch ok broken c' pos tokens).1 := by
  unfold decodeTokens
  split_ifs
  · rfl
  · rfl
  · rfl
  · exact executePepPlan_fst _ _ _ _

def Fits (nCtx : Nat) (tokens : List Token) : Prop := ¬ (0 < nCtx ∧ nCtx ≤ tokens.length)

theorem decodeTokens_eq (hb : 0 < nBatch) (hout : tokens = [] → c.out = [model (c.mem.tokens 0 (pos - 1))])
    (h : (decodeTokens model nCtx nBatch ok broken c pos tokens).1 = true) :
    (decodeTokens model nCtx nBatch ok broken c pos tokens).2 =
      (⟨c.mem.place 0 pos tokens, [model ((c.mem.place 0 pos tokens).tokens 0 (pos + tokens.length - 1))]⟩,
        pos + tokens.length) ∧
    (tokens ≠ [] → ¬ (0 < nCtx ∧ nCtx ≤ pos + tokens.length)) := by
  unfold decodeTokens at h ⊢
  split_ifs at h ⊢ with hnil hctx hbatch
  · obtain rfl := List.isEmpty_iff.mp hnil
    exact ⟨Prod.ext (congrArg (Ctx.mk _) (hout rfl)) rfl, fun hne => absurd rfl hne⟩
  · exact ⟨executePepPlan_eq hb _ _ hout h, fun _ => hctx⟩

theorem decodeTokens_behind (xs : List Token) (hb : 0 < nBatch) (hmem : c.mem = Memory.empty.place 0 0 xs)
    (hout : tokens = [] → c.out = [model xs]) (hfits : tokens = [] → Fits nCtx xs)
    (h : (decodeTokens model nCtx nBatch ok broken c xs.length tokens).1 = true) :
    (decodeTokens model nCtx nBatch ok broken c xs.length tokens).2 =
      (⟨Memory.empty.place 0 0 (xs ++ tokens), [model (xs ++ tokens)]⟩, (xs ++ tokens).length) ∧
    Fits nCtx (xs ++ tokens) := by
  have hholds : c.mem.Holds 0 xs := hmem ▸ (Memory.holds_empty 0).place
  have hplace : c.mem.place 0 xs.length tokens = Memory.empty.place 0 0 (xs ++ tokens) := by
    rw [← Memory.place_append, ← hmem, Nat.zero_add]
  obtain ⟨heq, hroom⟩ := decodeTokens_eq hb (fun hnil => by rw [hout hnil, Holds.all_tokens hholds]) h
  have hall : (Memory.empty.place 0 0 (xs ++ tokens)).tokens 0 ((xs ++ tokens).length - 1) = xs ++ tokens :=
    Holds.all_tokens (Memory.holds_empty 0).place
  rw [heq, hplace, ← List.length_append, hall]
  refine ⟨rfl, ?_⟩
  by_cases hne : tokens = []
  · rw [hne, List.append_nil]
    exact hfits hne
  · rw [Fits, List.length_append]
    exact hroom hne

theorem decodeTokens_ok (model : List Token → List L) (broken c : Ctx L) (hb : 0 < nBatch) (hlt : nBatch < 2 ^ 31)
    (hne : tokens ≠ []) (hfits : Fits nCtx tokens) :
    (decodeTokens model nCtx nBatch (fun _ => true) broken c 0 tokens).1 = true := by
  unfold decodeTokens
  rw [if_neg (by simpa using hne), if_neg (by rwa [Nat.zero_add]), if_neg (by omega)]
  exact executePepPlan_ok hb _ _ _ (Nat.lt_succ_self _)

end Decode

/-! ### Files -/

section Files

variable {e : Env F} {w : World F} {d d' d'' : Disk F} {key : AmfKey} {i : Nat} {s : Store F} {x : AmfEntry F}
  {w' : World F} {nowMs : Nat}

structure Shrinks (d d' : Disk F) : Prop where
  tok : ∀ key, d'.tok key = d.tok key ∨ d'.tok key = none
  kv : ∀ key, d'.kv key = d.kv key ∨ d'.kv key = none

theorem Shrinks.refl : Shrinks d d := ⟨fun _ => .inl rfl, fun _ => .inl rfl⟩

theorem Shrinks.trans (h : Shrinks d d') (h' : Shrinks d' d'') : Shrinks d d'' where
  tok key := (h'.tok key).elim (fun heq => heq ▸ h.tok key) .inr
  kv key := (h'.kv key).elim (fun heq => heq ▸ h.kv key) .inr

theorem Shrinks.of_eq (htok : d'.tok = d.tok) (hkv : d'.kv = d.kv) : Shrinks d d' :=
  ⟨fun _ => .inl (htok ▸ rfl), fun _ => .inl (hkv ▸ rfl)⟩

theorem Shrinks.tok_eq {tokens : List Token} (h : Shrinks d d') (htok : d'.tok key = some tokens) :
    d.tok key = some tokens := by
  rcases h.tok key with heq | heq
  · rwa [← heq]
  · rw [heq] at htok; cases htok

theorem Shrinks.kv_eq {blob : List Amf.Byte} (h : Shrinks d d') (hkv : d'.kv key = some blob) :
    d.kv key = some blob := by
  rcases h.kv key with heq | heq
  · rwa [← heq]
  · rw [heq] at hkv; cases hkv

theorem removeTok_shrinks : Shrinks w.disk (removeTok e key w).disk := by
  unfold removeTok
  split_ifs
  · refine ⟨fun k => ?_, fun _ => .inl rfl⟩
    by_cases hk : k = key
    · exact .inr (by simp [hk])
    · exact .inl (by simp [hk])
  · exact .refl

theorem removeKv_shrinks : Shrinks w.disk (removeKv e key w).disk := by
  unfold removeKv
  split_ifs
  · refine ⟨fun _ => .inl rfl, fun k => ?_⟩
    by_cases hk : k = key
    · exact .inr (by simp [hk])
    · exact .inl (by simp [hk])
  · exact .refl

theorem flushIndex_shrinks (hd : w.disk = d) : Shrinks d (flushIndex e w).2.disk := by
  subst hd
  unfold flushIndex
  split_ifs
  · exact .of_eq rfl rfl
  · exact .refl

def Sound (s : Store F) : Prop := ∀ key i, s.index key = some i → (s.entries[i]?).map AmfEntry.key = some key

theorem Sound.find? (h : Sound s) (hf : s.find? key = some (i, x)) : x.key = key := by
  obtain ⟨j, hj, hx⟩ := Option.bind_eq_some_iff.mp hf
  obtain ⟨y, hy, heq⟩ := Option.map_eq_some_iff.mp hx
  cases heq
  simpa [hy] using h key i hj

/-- What evictions and lookups do: files are only removed, and the index stays sound. -/
structure Keeps (w w' : World F) : Prop where
  files : Shrinks w.disk w'.disk
  sound : Sound w.store → Sound w'.store

theorem Keeps.refl : Keeps w w := ⟨.refl, id⟩

theorem Keeps.trans {w'' : World F} (h : Keeps w w') (h' : Keeps w' w'') : Keeps w w'' :=
  ⟨h.files.trans h'.files, h'.sound ∘ h.sound⟩

theorem next_keeps : Keeps w w.next := ⟨.refl, id⟩

theorem evictEntryAt_keeps : Keeps w (evictEntryAt e i w) := by
  unfold evictEntryAt
  split
  · exact .refl
  · dsimp only
    refine ⟨Shrinks.trans ?_ (flushIndex_shrinks rfl), fun _ => ?_⟩
    · exact removeKv_shrinks.trans removeTok_shrinks
    · rw [flushIndex_store]
      exact fun _ _ => rebuildIndex_sound

theorem evictExpiredEntries_keeps : Keeps w (evictExpiredEntries e nowMs w) :=
  evictExpiredEntries_keep (P := Keeps w) (fun _ _ h => h.trans evictEntryAt_keeps) .refl

variable [FloatArith F] {y : AmfEntry F} {ctx : AmfContext} {hashes : List Hash} {prewarmed : AmfKey → Bool}
  {tokens out : List Token} {savedMs : Nat} {dirOk : Bool} {incoming kvSize : Nat}

theorem setEntry_sound (h : Sound s) (hx : s.entries[i]? = some x) (hk : y.key = x.key) : Sound (s.setEntry i y) := by
  intro key j hj
  rw [← List.getElem?_map]
  show ((s.entries.set i y).map AmfEntry.key)[j]? = some key
  rw [map_key_set hx hk, List.getElem?_map]
  exact h key j hj

theorem touchPrewarmed_sound (h : Sound s) : Sound (s.touchPrewarmed key) := by
  unfold Store.touchPrewarmed
  split_ifs
  · split
    · rename_i hf
      exact setEntry_sound h (find?_of_index hf) rfl
    · exact h
  · exact h

theorem checkTokens_hit {len : Nat} (h : (checkTokens tokens len y w).1 = .hit x out) :
    x = y ∧ w.disk.tok x.key = some out ∧ out.length = len ∧ out = tokens.take len := by
  unfold checkTokens at h
  split at h
  · cases h
  · rename_i out' hread
    split_ifs at h with hlen heq
    cases h
    exact ⟨rfl, (Option.filter_eq_some_iff.mp hread).1, Decidable.not_not.mp hlen, Decidable.not_not.mp heq⟩

/-- A hit ends the loop in the round of its length: behind the evictions of the rounds before, the index has the entry
under the key of that prefix, and the entry's token file holds the prefix. -/
def HitRound (ctx : AmfContext) (tokens : List Token) (hashes : List Hash) (n : Nat) (w : World F) (x : AmfEntry F)
    (out : List Token) (d : Disk F) : Prop :=
  ∃ w' m i, Keeps w w' ∧ m < n ∧ ((hashes[m]?).bind fun h => w'.store.find? (amfMakeKey ctx h)) = some (i, x) ∧
    x.prefixLen = m + 1 ∧ out.length = m + 1 ∧ out = tokens.take (m + 1) ∧ w'.disk.tok x.key = some out ∧ d = w'.disk

theorem lookupLoop_round (n : Nat) (h : (lookupLoop e ctx tokens hashes nowMs prewarmed n w).1 = .hit x out) :
    HitRound ctx tokens hashes n w x out (lookupLoop e ctx tokens hashes nowMs prewarmed n w).2.disk := by
  induction n generalizing w with
  | zero => cases h
  | succ n ih =>
    -- a round that goes on is one behind an eviction or none
    have hnext : ∀ {w₁ : World F}, Keeps w w₁ → (lookupLoop e ctx tokens hashes nowMs prewarmed n w₁).1 = .hit x out →
        HitRound ctx tokens hashes (n + 1) w x out (lookupLoop e ctx tokens hashes nowMs prewarmed n w₁).2.disk := by
      intro w₁ hk h₁
      obtain ⟨w', m, i, hk', hm, hrest⟩ := ih h₁
      exact ⟨w', m, i, hk.trans hk', Nat.lt_succ_of_lt hm, hrest⟩
    generalize hr : lookupLoop e ctx tokens hashes nowMs prewarmed (n + 1) w = r at h ⊢
    unfold lookupLoop at hr
    dsimp only at hr
    split_ifs at hr
    · subst hr; cases h
    · split at hr
      · subst hr; exact hnext .refl h
      · rename_i i y hfound
        split_ifs at hr with hlen
        · subst hr; exact hnext .refl h
        · subst hr; exact hnext evictEntryAt_keeps h
        · subst hr; exact hnext evictEntryAt_keeps h
        · subst hr; exact hnext .refl h
        all_goals
          subst hr
          obtain ⟨rfl, htok, hlength, htake⟩ := checkTokens_hit h
          rw [checkTokens_world]
          exact ⟨w, n, i, .refl, Nat.lt_succ_self n, hfound, Decidable.not_not.mp hlen, hlength, htake, htok, rfl⟩

theorem lookupLoop_key (n : Nat) (hn : n ≤ tokens.length) (hs : Sound w.store)
    (h : (lookupLoop e ctx tokens (prefixHashes kFNVOffset tokens) nowMs prewarmed n w).1 = .hit x out) :
    x.key = keyOf ctx out := by
  obtain ⟨w', m, i, hk, hm, hfound, -, -, htake, -, -⟩ := lookupLoop_round n h
  have hfind : w'.store.find? (keyOf ctx (tokens.take (m + 1))) = some (i, x) := by
    rw [← hfound, ← find?_prefixHashes (Nat.lt_of_lt_of_le hm hn)]
    rfl
  rw [(hk.sound hs).find? hfind, htake]

theorem findLongestPrefix_keeps (ctx : AmfContext) (tokens : List Token) (prewarmed : AmfKey → Bool) :
    Keeps w (findLongestPrefix e ctx tokens prewarmed w).2 :=
  findLongestPrefix_keep (P := Keeps w) (fun _ _ h => h.trans evictEntryAt_keeps) (fun _ h => h.trans next_keeps)
    (fun _ _ h => ⟨h.files, h.sound⟩) (fun _ _ h => ⟨h.files, fun hs => touchPrewarmed_sound (h.sound hs)⟩) .refl

theorem findLongestPrefix_loop (h : (findLongestPrefix e ctx tokens prewarmed w).1 = .hit x out) :
    findLongestPrefix e ctx tokens prewarmed w =
      lookupLoop e ctx tokens (prefixHashes kFNVOffset tokens) (e.clock w.tick) prewarmed tokens.length w.next := by
  unfold findLongestPrefix at h ⊢
  split_ifs at h ⊢
  rfl

theorem findLongestPrefix_file (h : (findLongestPrefix e ctx tokens prewarmed w).1 = .hit x out) :
    out = tokens.take x.prefixLen ∧ out.length = x.prefixLen ∧
    (findLongestPrefix e ctx tokens prewarmed w).2.disk.tok x.key = some out := by
  have hloop := findLongestPrefix_loop h
  rw [hloop] at h ⊢
  obtain ⟨w', m, i, -, -, -, hlen, hlength, htake, htok, hdisk⟩ := lookupLoop_round _ h
  rw [hlen, hdisk]
  exact ⟨htake, hlength, htok⟩

theorem findLongestPrefix_hit (hs : Sound w.store) (h : (findLongestPrefix e ctx tokens prewarmed w).1 = .hit x out) :
    out = tokens.take x.prefixLen ∧ out.length = x.prefixLen ∧ x.key = keyOf ctx out ∧
    (findLongestPrefix e ctx tokens prewarmed w).2.disk.tok x.key = some out := by
  obtain ⟨hout, hlen, htok⟩ := findLongestPrefix_file h
  refine ⟨hout, hlen, ?_, htok⟩
  rw [findLongestPrefix_loop h] at h
  exact lookupLoop_key (w := w.next) _ (Nat.le_refl _) hs h

/-! ### The other operations -/

theorem noteHit_shrinks {tokensSaved restoreMs : Nat} :
    Shrinks w.disk (noteHit e key tokensSaved restoreMs savedMs w).disk := by
  unfold noteHit
  dsimp only
  split
  · exact .refl
  · split_ifs
    · exact evictEntryAt_keeps (w := { w.next with store := _ }) |>.files
    · exact flushIndex_shrinks rfl

theorem noteEntry_shrinks {count : AmfEntry F → AmfEntry F} (hd : w.disk = d) :
    Shrinks d (noteEntry e count key w).disk := by
  subst hd
  unfold noteEntry
  split
  · exact .refl
  · exact flushIndex_shrinks rfl

theorem noteFailure_shrinks : Shrinks w.disk (noteFailure e key w).disk := noteEntry_shrinks rfl

theorem noteBlockEntry_shrinks : Shrinks w.disk (noteBlockEntry e key w).disk := noteEntry_shrinks rfl

theorem loadRecords_sound {recs : List (AmfEntry F)} (h : Sound w.store) : Sound (loadRecords e recs w).store := by
  induction recs generalizing w with
  | nil => exact h
  | cons x recs ih =>
    refine ih fun key i hi => ?_
    dsimp only at hi ⊢
    rw [Function.update_apply] at hi
    split_ifs at hi with hk
    · cases hi
      simp [hk]
    · have hget := h key i hi
      obtain ⟨y, hy, -⟩ := Option.map_eq_some_iff.mp hget
      obtain ⟨hlt, -⟩ := List.getElem?_eq_some_iff.mp hy
      rwa [List.getElem?_append_left hlt]

theorem loadIndex_sound : Sound (loadIndex e w).store := by
  have hclear : Sound w.store.cleared := fun _ _ h => by cases h
  unfold loadIndex
  dsimp only
  split
  · exact hclear
  · split_ifs
    · exact hclear
    · split
      · exact loadRecords_sound (w := { w.next with store := w.store.cleared }.next) hclear
      · exact loadRecords_sound (w := { w.next with store := w.store.cleared }.next) hclear

theorem initStore_sound (h : (initStore e dirOk w).store.enabled = true) : Sound (initStore e dirOk w).store := by
  cases dirOk with
  | false => cases h
  | true =>
    simp only [initStore, if_true]
    split_ifs
    · exact loadIndex_sound
    · exact loadIndex_sound

theorem initStore_disk : (initStore e dirOk w).disk = w.disk := by
  have hload : (loadIndex e w).disk = w.disk := by
    unfold loadIndex
    dsimp only
    split
    · rfl
    · split_ifs
      · rfl
      · split
        · exact loadRecords_same.2
        · exact loadRecords_same.2
  unfold initStore
  dsimp only
  split_ifs
  · exact hload
  · exact hload
  · rfl

theorem evictForStore_shrinks {existing : Option (AmfEntry F)} :
    Shrinks w.disk (evictForStore e kvSize existing w).2.disk :=
  evictForStore_keep (P := fun w' => Shrinks w.disk w'.disk) (fun _ _ h => h.trans evictEntryAt_keeps.files)
    (fun _ h => h) .refl

theorem finishStore_shrinks (hd : w.disk = d) : Shrinks d (finishStore e kvSize w).2.disk := by
  subst hd
  unfold finishStore
  dsimp only
  split_ifs
  · exact flushIndex_shrinks rfl
  · exact flushIndex_shrinks rfl

theorem step_shrinks {op : Op F} (hop : ∀ stale ctx tokens kvData savedMs, op ≠ .store stale ctx tokens kvData savedMs) :
    Shrinks w.disk (Amf.step e op w).disk := by
  cases op with
  | init dirOk => exact .of_eq (by rw [Amf.step, initStore_disk]) (by rw [Amf.step, initStore_disk])
  | store stale ctx tokens kvData savedMs => exact absurd rfl (hop stale ctx tokens kvData savedMs)
  | find ctx tokens prewarmed => exact (findLongestPrefix_keeps ctx tokens prewarmed).files
  | noteHit key tokensSaved restoreMs savedMs => exact noteHit_shrinks
  | noteFailure key => exact noteFailure_shrinks
  | noteBlock => exact .refl
  | noteBlockEntry key => exact noteBlockEntry_shrinks
  | noteMiss => exact .refl
  | evictExpired nowMs => exact evictExpiredEntries_keeps.files
  | setMinAdmitRoi v =>
    simp only [Amf.step]
    split_ifs <;> exact .refl
  | prewarm key => exact .refl
  | prewarmDone => exact .refl
  | shutdown =>
    simp only [Amf.step]
    split_ifs
    · exact flushIndex_shrinks rfl
    · exact .refl

end Files

/-! ### Token and state files belong together -/

section Pairs

variable [FloatArith F] {target : AmfContext → List Token → List L} {io : StateIO target} {e : Env F} {w : World F}
  {d d' : Disk F} {ctx : AmfContext} {tokens : List Token} {data : List Amf.Byte}
  {P : AmfKey → List Token → List Amf.Byte → Prop} {key : AmfKey} {r : Request F L} {c : Ctx L} {a : Attempt F L}
  {lookup : List Token}

/-- Where a key has a token file and a state file, they are related. -/
def Files (P : AmfKey → List Token → List Amf.Byte → Prop) (d : Disk F) : Prop :=
  ∀ key tokens blob, d.tok key = some tokens → d.kv key = some blob → P key tokens blob

theorem Files.shrinks (h : Files P d) (hs : Shrinks d d') : Files P d' := by
  intro key tokens blob htok hkv
  exact h key tokens blob (hs.tok_eq htok) (hs.kv_eq hkv)

def FilesOk (io : StateIO target) (d : Disk F) : Prop :=
  ∀ key tokens blob, d.tok key = some tokens → d.kv key = some blob →
    ∃ ctx, key = keyOf ctx tokens ∧ Fits ctx.nCtx.toNat tokens ∧ blob = io.save (cold target ctx tokens)

theorem FilesOk.shrinks (h : FilesOk io d) (hs : Shrinks d d') : FilesOk io d' := Files.shrinks h hs

/-- A token file is written whole or not at all, a state file whole if that is what is reported, and the token file
can be removed again if not. -/
structure Intact (e : Env F) : Prop where
  tokens : ∀ n k, e.writeTokens n ≠ .torn k
  state : ∀ n size k, (e.writeKv n).written size = some k → e.reported size k = true → k = size
  cleanup : ∀ n, e.writeKv n ≠ .ok → e.removeOk (n + 1) = true

theorem Files.update (h : Files P d) (hP : P key tokens data)
    (htok : ∀ k, k ≠ key → d'.tok k = d.tok k) (hkv : ∀ k, k ≠ key → d'.kv k = d.kv k)
    (hkey : d'.tok key = none ∨ d'.tok key = some tokens ∧ d'.kv key = some data) : Files P d' := by
  intro k ts blob hts hblob
  by_cases hk : k = key
  · subst hk
    rcases hkey with hnone | ⟨hsome, hsave⟩
    · rw [hnone] at hts; cases hts
    · obtain rfl : tokens = ts := Option.some.inj (hsome.symm.trans hts)
      obtain rfl : data = blob := Option.some.inj (hsave.symm.trans hblob)
      exact hP
  · exact h k ts blob (htok k hk ▸ hts) (hkv k hk ▸ hblob)

theorem writeTokensFile_disk (hfs : Intact e) (key : AmfKey) (tokens : List Token) :
    (writeTokensFile e key tokens w).1 = true ∧
      (writeTokensFile e key tokens w).2.disk = { w.disk with tok := Function.update w.disk.tok key (some tokens) } ∨
    (writeTokensFile e key tokens w).1 = false ∧ (writeTokensFile e key tokens w).2.disk = w.disk := by
  unfold writeTokensFile
  cases hres : e.writeTokens w.tick with
  | ok => exact .inl (by simp [WriteResult.written, Env.reported])
  | openFailed => exact .inr ⟨rfl, rfl⟩
  | torn k => exact absurd hres (hfs.tokens _ k)

theorem writeKvFile_disk (hfs : Intact e) (key : AmfKey) (data : List Amf.Byte) :
    (writeKvFile e key data w).1 = true ∧
      (writeKvFile e key data w).2.disk = { w.disk with kv := Function.update w.disk.kv key (some data) } ∨
    (writeKvFile e key data w).1 = false ∧ (writeKvFile e key data w).2.disk.tok = w.disk.tok ∧
      (∀ k, k ≠ key → (writeKvFile e key data w).2.disk.kv k = w.disk.kv k) ∧
      e.removeOk (writeKvFile e key data w).2.tick = true := by
  have hclean := hfs.cleanup w.tick
  unfold writeKvFile
  cases hwritten : (e.writeKv w.tick).written data.length with
  | none => exact .inr ⟨rfl, rfl, fun _ _ => rfl, hclean fun hok => by rw [hok] at hwritten; cases hwritten⟩
  | some n =>
    cases hdone : e.reported data.length n with
    | true =>
      obtain rfl := hfs.state _ _ _ hwritten hdone
      exact .inl ⟨hdone, by simp⟩
    | false =>
      refine .inr ⟨hdone, rfl, fun k hk => Function.update_of_ne hk _ _, hclean fun hok => ?_⟩
      rw [hok] at hwritten
      cases hwritten
      simp [Env.reported] at hdone

theorem writeFiles_files (hfs : Intact e) (h : Files P w.disk) (hP : P key tokens data) :
    Files P (writeFiles e key tokens data w).2.disk := by
  unfold writeFiles
  dsimp only
  rcases writeTokensFile_disk (w := w) hfs key tokens with ⟨hok, hdisk⟩ | ⟨hok, hdisk⟩
  · rw [if_pos hok]
    generalize (writeTokensFile e key tokens w).2 = w₁ at hdisk
    rcases writeKvFile_disk (w := w₁) hfs key data with ⟨hok', hdisk'⟩ | ⟨hok', htok, hkv, hremove⟩
    · rw [if_pos hok']
      refine h.update hP (fun k hk => ?_) (fun k hk => ?_) (.inr ⟨?_, ?_⟩) <;> simp [*]
    · rw [hok', if_neg (by simp), removeTok, if_pos hremove]
      refine h.update hP (fun k hk => ?_) (fun k hk => ?_) (.inl ?_)
      · simp [htok, hdisk, hk]
      · simp [hkv k hk, hdisk]
      · simp
  · rw [hok, if_neg (by simp), hdisk]
    exact h

theorem storeEntry_files {stale : Nat} (hfs : Intact e) (h : Files P w.disk)
    (hP : P (keyOf ctx tokens) tokens data) : Files P (storeEntry e stale ctx tokens data savedMs w).2.disk := by
  unfold storeEntry
  dsimp only
  have hwrite : Files P (writeFiles e (keyOf ctx tokens) tokens data (evictForStore e data.length
      ((w.store.find? (keyOf ctx tokens)).map (·.2)) w.next.next).2).2.disk :=
    writeFiles_files hfs (h.shrinks (evictForStore_shrinks (w := w.next.next))) hP
  split_ifs
  · exact h
  · exact hwrite.shrinks (finishStore_shrinks rfl)
  · exact hwrite

/-! ### Requests -/

/-- The state under the `n` tokens of a file that begin the lookup's, with the rest of the prompt decoded behind them. -/
def Replayed (io : StateIO target) (r : Request F L) (lookup : List Token) (n : Nat) (d : Disk F) (c : Ctx L)
    (pos : Nat) : Prop :=
  ∃ tokens blob c₀, tokens <+: lookup ∧ tokens.length = n ∧ d.tok (keyOf r.ctx tokens) = some tokens ∧
    d.kv (keyOf r.ctx tokens) = some blob ∧ io.load blob = some c₀ ∧
    decodeTokens (target r.ctx) r.ctx.nCtx.toNat r.nBatch r.suffixOk r.broken c₀ tokens.length
      (r.prompt.drop tokens.length) = (true, c, pos)

theorem Replayed.of_shrinks {n : Nat} {d d' : Disk F} (h : Replayed io r lookup n d' c pos) (hs : Shrinks d d') :
    Replayed io r lookup n d c pos := by
  obtain ⟨tokens, blob, c₀, hpre, hlen, htok, hkv, hrest⟩ := h
  exact ⟨tokens, blob, c₀, hpre, hlen, hs.tok_eq htok, hs.kv_eq hkv, hrest⟩

/-- An attempt is over: the prompt is in the context, or nothing is unless it has to be undone. -/
structure Attempted (io : StateIO target) (r : Request F L) (lookup : List Token) (w : World F)
    (a : Attempt F L) : Prop where
  used : a.usedAmf = true → a.fallback = false ∧
    ∃ x, a.hitEntry = some x ∧ Replayed io r lookup x.prefixLen w.disk a.ctx a.pos
  clear : a.usedAmf = false → a.fallback = false → a.ctx.mem = Memory.empty ∧ a.pos = 0
  files : Shrinks w.disk a.world.disk

theorem Attempted.skip (hc : c.mem = Memory.empty) (hs : Shrinks w.disk w'.disk) :
    Attempted io r lookup w (.skip c w') :=
  ⟨(fun h => by cases h), fun _ _ => ⟨hc, rfl⟩, hs⟩

theorem Attempted.failed {entry : AmfEntry F} (hs : Shrinks w.disk w'.disk) :
    Attempted io r lookup w ⟨c, pos, false, true, some entry, w'⟩ :=
  ⟨(fun h => by cases h), (fun _ h => by cases h), hs⟩

theorem restoreHit_attempted (hout : out <+: lookup)
    (hlen : out.length = x.prefixLen) (hkey : x.key = keyOf r.ctx out) (htok : w.disk.tok x.key = some out) :
    Attempted io r lookup w (restoreHit io e r x c w) := by
  unfold restoreHit
  split
  · exact .failed .refl
  · rename_i blob hblob
    split
    · exact .failed .refl
    · rename_i c' hc'
      split_ifs at hblob hc'
      have hkv : w.disk.kv x.key = some blob :=
        (Option.filter_eq_some_iff.mp (Option.filter_eq_some_iff.mp hblob).1).1
      by_cases hempty : c'.out.isEmpty = true
      · rw [if_pos hempty]
        exact .failed .refl
      rw [if_neg hempty]
      dsimp only
      split_ifs with hd
      · rw [hkey] at htok hkv
        rw [← hlen] at hd ⊢
        exact ⟨fun _ => ⟨rfl, x, rfl, out, blob, c', hout, hlen, htok, hkv, hc', Prod.ext hd rfl⟩,
          (fun h => by cases h), noteHit_shrinks⟩
      · exact .failed .refl

theorem hit_spec (e : Env F) (r : Request F L) (lookup : List Token) (hs : Sound w.store) :
    Shrinks w.disk (r.hit e lookup w).2.disk ∧
    ∀ x, (r.hit e lookup w).1 = some x → ∃ out, out <+: lookup ∧ out.length = x.prefixLen ∧
      x.key = keyOf r.ctx out ∧ (r.hit e lookup w).2.disk.tok x.key = some out := by
  have hexp : Keeps w (evictExpiredEntries e (e.clock w.tick) w.next) :=
    next_keeps.trans evictExpiredEntries_keeps
  have hfind := hexp.trans (findLongestPrefix_keeps (e := e) r.ctx lookup r.prewarmed)
  unfold Request.hit
  dsimp only
  split_ifs
  · exact ⟨hexp.files, fun _ h => by cases h⟩
  · exact ⟨hexp.files, fun _ h => by cases h⟩
  · exact ⟨hfind.files, fun _ h => by cases h⟩
  · split
    · rename_i x out hhit
      split_ifs
      · exact ⟨hfind.files.trans (noteEntry_shrinks rfl), fun _ h => by cases h⟩
      · obtain ⟨hout, hrest⟩ := findLongestPrefix_hit (hexp.sound hs) hhit
        refine ⟨hfind.files, fun y hy => ?_⟩
        cases hy
        exact ⟨out, hout ▸ List.take_prefix _ _, hrest⟩
    · exact ⟨hfind.files, fun _ h => by cases h⟩

theorem lookupPrompt_attempted (hs : Sound w.store) (hc : c.mem = Memory.empty) :
    Attempted io r lookup w (lookupPrompt io e r lookup c w) := by
  obtain ⟨hfiles, hspec⟩ := hit_spec e r lookup hs
  unfold lookupPrompt
  cases hhit : (r.hit e lookup w).1 with
  | none => exact .skip hc hfiles
  | some x =>
    obtain ⟨out, hout, hlen, hkey, htok⟩ := hspec x hhit
    have ha : Attempted io r lookup _ (restoreHit io e r x c _) := restoreHit_attempted hout hlen hkey htok
    exact ⟨fun hu => (ha.used hu).imp_right fun ⟨y, hy, h⟩ => ⟨y, hy, h.of_shrinks hfiles⟩, ha.clear,
      hfiles.trans ha.files⟩

theorem undo_attempted (h : Attempted io r lookup w a) : Attempted io r lookup w (a.undo e) ∧
    ((a.undo e).usedAmf = false → (a.undo e).ctx.mem = Memory.empty ∧ (a.undo e).pos = 0) := by
  unfold Attempt.undo
  split_ifs with hf
  · refine ⟨⟨fun hu => ?_, fun _ _ => ⟨rfl, rfl⟩, ?_⟩, fun _ => ⟨rfl, rfl⟩⟩
    · rw [(h.used hu).1] at hf; cases hf
    · cases a.hitEntry with
      | none => exact h.files
      | some x => exact h.files.trans noteFailure_shrinks
  · exact ⟨h, fun hu => h.clear hu (by simpa using hf)⟩

theorem openStore_ok (r : Request F L) (w : World F) : (r.openStore e w).2.disk = w.disk ∧
    ((r.openStore e w).1 = true → Sound (r.openStore e w).2.store) := by
  unfold Request.openStore
  dsimp only
  split_ifs
  · refine ⟨initStore_disk, fun h => initStore_sound ?_⟩
    simp only [Bool.and_eq_true] at h
    exact h.1
  · exact ⟨rfl, (fun h => by cases h)⟩

theorem finish_cold (hu : a.usedAmf = false) (hclear : a.ctx.mem = Memory.empty ∧ a.pos = 0)
    (hd : (a.finish target r).1 = true) :
    a.finish target r = (true, cold target r.ctx r.prompt, r.prompt.length) ∧ Fits r.ctx.nCtx.toNat r.prompt := by
  unfold Attempt.finish at hd ⊢
  rw [hu, if_neg (by simp), hclear.2] at hd ⊢
  obtain ⟨heq, hfits⟩ := decodeTokens_behind [] r.nBatch_pos hclear.1 (fun hnil => absurd hnil r.prompt_ne)
    (fun hnil => absurd hnil r.prompt_ne) hd
  exact ⟨Prod.ext hd heq, hfits⟩

theorem finish_of_cold (hclear : a.usedAmf = false → a.ctx.mem = Memory.empty ∧ a.pos = 0)
    (hcold : (decodeTokens (target r.ctx) r.ctx.nCtx.toNat r.nBatch r.coldOk r.broken c 0 r.prompt).1 = true) :
    (a.finish target r).1 = true := by
  unfold Attempt.finish
  split_ifs with hu
  · rfl
  · rw [(hclear (by simpa using hu)).2, decodeTokens_fst c]
    exact hcold

theorem attempt_spec (io : StateIO target) (e : Env F) (r : Request F L) (lookup : List Token) (w : World F) :
    Attempted io r lookup w (r.attempt io e lookup w) ∧ ((r.attempt io e lookup w).usedAmf = false →
      (r.attempt io e lookup w).ctx.mem = Memory.empty ∧ (r.attempt io e lookup w).pos = 0) := by
  obtain ⟨hdisk, hsound⟩ := openStore_ok (e := e) r w
  have hattempt : Attempted io r lookup (r.openStore e w).2 (if (r.openStore e w).1 then
      lookupPrompt io e r lookup { r.start with mem := Memory.empty } (r.openStore e w).2
      else .skip { r.start with mem := Memory.empty } (r.openStore e w).2) := by
    split_ifs with hr
    · exact lookupPrompt_attempted (hsound hr) rfl
    · exact .skip rfl .refl
  obtain ⟨ha, hclear⟩ := undo_attempted (e := e) hattempt
  exact ⟨⟨hdisk ▸ ha.used, ha.clear, hdisk ▸ ha.files⟩, hclear⟩

variable {boundary : Option (List Token)}

theorem prefillWith_some {st : Prefilled L} (h : (prefillWith io e boundary r w).1 = some st) :
    (r.attempt io e (r.lookupTokens boundary) w).finish target r = (true, st.ctx, st.pos) ∧
    st.ctx.out.head? = some st.logits ∧ st.usedAmf = (r.attempt io e (r.lookupTokens boundary) w).usedAmf := by
  unfold prefillWith at h
  dsimp only at h
  split at h
  · cases h
  · rename_i hd
    split at h
    · cases h
    · rename_i logits hrow
      cases h
      exact ⟨Prod.ext (by simpa using hd) rfl, hrow, rfl⟩

theorem prefillWith_isSome {c : Ctx L} {pos : Nat}
    (h : (r.attempt io e (r.lookupTokens boundary) w).finish target r = (true, c, pos)) (hrow : c.out ≠ []) :
    (prefillWith io e boundary r w).1.isSome := by
  obtain ⟨row, rows, hout⟩ := List.exists_cons_of_ne_nil hrow
  simp [prefillWith, h, hout]

theorem prefillWith_files (hfs : Intact e) (h : Files P w.disk)
    (hP : ∀ c pos, (r.attempt io e (r.lookupTokens boundary) w).finish target r = (true, c, pos) →
      P (keyOf r.ctx (r.lookupTokens boundary)) (r.lookupTokens boundary) (io.save c)) :
    Files P (prefillWith io e boundary r w).2.disk := by
  have hkept := h.shrinks (attempt_spec io e r (r.lookupTokens boundary) w).1.files
  unfold prefillWith
  dsimp only
  split
  · exact hkept
  · rename_i hd
    split
    · exact hkept
    · dsimp only
      unfold storePrompt
      split_ifs
      · exact storeEntry_files hfs hkept (hP _ _ (Prod.ext (by simpa using hd) rfl))
      · exact hkept
      · exact hkept

/-! ### Without extraction -/

theorem Replayed.eq_cold {n : Nat} (h : Replayed io r r.prompt n w.disk c pos) (hfiles : FilesOk io w.disk) :
    c = cold target r.ctx r.prompt ∧ pos = r.prompt.length ∧ Fits r.ctx.nCtx.toNat r.prompt := by
  obtain ⟨tokens, blob, c₀, hpre, -, htok, hkv, hload, hd⟩ := h
  obtain ⟨ctx', hkey, hfits, rfl⟩ := hfiles _ tokens blob htok hkv
  obtain ⟨rfl, -⟩ := amfMakeKey_inj hkey
  obtain rfl : cold target r.ctx tokens = c₀ := Option.some.inj ((io.exact r.ctx tokens).symm.trans hload)
  obtain ⟨heq, hfits'⟩ := decodeTokens_behind tokens r.nBatch_pos rfl (fun _ => rfl) (fun _ => hfits)
    (congrArg Prod.fst hd)
  have happ : tokens ++ r.prompt.drop tokens.length = r.prompt := (List.prefix_iff_eq_append.mp hpre)
  rw [happ] at heq hfits'
  rw [hd] at heq
  exact ⟨congrArg (·.1) heq, congrArg (·.2) heq, hfits'⟩

theorem finish_ok (ha : Attempted io r r.prompt w a) (hfiles : FilesOk io w.disk)
    (hclear : a.usedAmf = false → a.ctx.mem = Memory.empty ∧ a.pos = 0) (hd : (a.finish target r).1 = true) :
    a.finish target r = (true, cold target r.ctx r.prompt, r.prompt.length) ∧ Fits r.ctx.nCtx.toNat r.prompt := by
  cases hu : a.usedAmf with
  | false => exact finish_cold hu (hclear hu) hd
  | true =>
    obtain ⟨-, x, -, hreplayed⟩ := ha.used hu
    obtain ⟨hctx, hpos, hfits⟩ := hreplayed.eq_cold hfiles
    rw [Attempt.finish, if_pos hu, hctx, hpos]
    exact ⟨rfl, hfits⟩

theorem attempt_finish_ok (h : FilesOk io w.disk)
    (hd : ((r.attempt io e r.prompt w).finish target r).1 = true) :
    (r.attempt io e r.prompt w).finish target r = (true, cold target r.ctx r.prompt, r.prompt.length) ∧
    Fits r.ctx.nCtx.toNat r.prompt :=
  finish_ok (attempt_spec io e r r.prompt w).1 h (attempt_spec io e r r.prompt w).2 hd

theorem prefill_filesOk (hfs : Intact e) (h : FilesOk io w.disk) : FilesOk io (prefill io e r w).2.disk := by
  refine prefillWith_files hfs h fun c pos hfin => ?_
  obtain ⟨hcold, hfits⟩ := attempt_finish_ok h (congrArg (·.1) hfin)
  obtain rfl : cold target r.ctx r.prompt = c := congrArg (·.2.1) (hcold.symm.trans hfin)
  exact ⟨r.ctx, rfl, hfits, rfl⟩

theorem prefill_ok {st : Prefilled L} (h : FilesOk io w.disk) (hst : (prefill io e r w).1 = some st) :
    st.ctx = cold target r.ctx r.prompt ∧ st.pos = r.prompt.length ∧
    st.logits = target r.ctx r.prompt ∧ Fits r.ctx.nCtx.toNat r.prompt := by
  obtain ⟨hfin, hrow, -⟩ := prefillWith_some hst
  obtain ⟨hcold, hfits⟩ := attempt_finish_ok h (congrArg (·.1) hfin)
  obtain ⟨hctx, hpos⟩ := Prod.ext_iff.mp (congrArg (·.2) (hfin.symm.trans hcold))
  dsimp only at hctx hpos
  rw [hctx] at hrow
  exact ⟨hctx, hpos, (Option.some.inj hrow).symm, hfits⟩

theorem history_filesOk {evs : List (Event F L)} (hfs : Intact e) (h : FilesOk io w.disk) :
    FilesOk io (history io e evs w).disk := by
  induction evs generalizing w with
  | nil => exact h
  | cons ev evs ih =>
    refine ih ?_
    cases ev with
    | request r => exact prefill_filesOk hfs h
    | other op =>
      cases op with
      | store stale ctx tokens kvData savedMs => exact h
      | _ => exact h.shrinks (step_shrinks fun _ _ _ _ _ h => by cases h)

theorem prefill_isSome (h : FilesOk io w.disk)
    (hcold : (decodeTokens (target r.ctx) r.ctx.nCtx.toNat r.nBatch r.coldOk r.broken c 0 r.prompt).1 = true) :
    (prefill io e r w).1.isSome :=
  prefillWith_isSome (attempt_finish_ok h (finish_of_cold (attempt_spec io e r r.prompt w).2 hcold)).1
    (List.cons_ne_nil _ _)

end Pairs

/-! ### The result -/

/-- After any history in a directory that was empty at first. -/
theorem replay_eq_cold [FloatArith F] {target : AmfContext → List Token → List L} (io : StateIO target) (e : Env F)
    (hfs : Intact e) (w : World F) (hw : ∀ key, w.disk.tok key = none) (evs : List (Event F L)) (r : Request F L) :
    (∀ st, (prefill io e r (history io e evs w)).1 = some st →
      decodeTokens (target r.ctx) r.ctx.nCtx.toNat r.nBatch (fun _ => true) r.broken
        { r.start with mem := Memory.empty } 0 r.prompt = (true, st.ctx, st.pos) ∧
      st.pos = r.prompt.length ∧ st.ctx.mem.Holds 0 r.prompt ∧ st.logits = target r.ctx r.prompt) ∧
    ((decodeTokens (target r.ctx) r.ctx.nCtx.toNat r.nBatch r.coldOk r.broken
        { r.start with mem := Memory.empty } 0 r.prompt).1 = true →
      (prefill io e r (history io e evs w)).1.isSome) := by
  have hfiles : FilesOk io (history io e evs w).disk :=
    history_filesOk hfs fun key _ _ htok => by rw [hw key] at htok; cases htok
  refine ⟨fun st hst => ?_, prefill_isSome hfiles⟩
  obtain ⟨hctx, hpos, hlogits, hfits⟩ := prefill_ok hfiles hst
  have hok := decodeTokens_ok (target r.ctx) r.broken { r.start with mem := Memory.empty } r.nBatch_pos
    r.nBatch_lt r.prompt_ne hfits
  obtain ⟨heq, -⟩ := decodeTokens_behind [] r.nBatch_pos rfl (fun hnil => absurd hnil r.prompt_ne)
    (fun hnil => absurd hnil r.prompt_ne) hok
  refine ⟨Prod.ext hok ?_, hpos, ?_, hlogits⟩
  · rw [hctx, hpos]
    exact heq
  · rw [hctx]
    exact cold_holds target r.ctx r.prompt

def encodeTokens (tokens : List Token) : List Amf.Byte := tokens.flatMap fun t => List.replicate t 1 ++ [0]

def decodeBytes : List Amf.Byte → Nat → List Token
  | [], _ => []
  | b :: bs, n => if b = 0 then n :: decodeBytes bs 0 else decodeBytes bs (n + 1)

theorem decodeBytes_replicate (t n : Nat) (bs : List Amf.Byte) :
    decodeBytes (List.replicate t 1 ++ 0 :: bs) n = (n + t) :: decodeBytes bs 0 := by
  induction t generalizing n with
  | zero => rfl
  | succ t ih =>
    rw [List.replicate_succ, List.cons_append, decodeBytes, if_neg (by decide), ih]
    congr 1
    omega

theorem decodeBytes_encodeTokens (tokens : List Token) : decodeBytes (encodeTokens tokens) 0 = tokens := by
  induction tokens with
  | nil => rfl
  | cons t ts ih =>
    have hcons : encodeTokens (t :: ts) = List.replicate t 1 ++ 0 :: encodeTokens ts := by simp [encodeTokens]
    rw [hcons, decodeBytes_replicate, ih, Nat.zero_add]

/-- A model whose row is the sum of the tokens, and a way to save its states. -/
def sumTarget (_ : AmfContext) (tokens : List Token) : List Nat := [tokens.sum]

def sumIO : StateIO sumTarget where
  save c := encodeTokens (c.mem.tokens 0 c.mem.hi)
  load bytes := some (cold sumTarget (tenant 0) (decodeBytes bytes 0))
  exact ctx tokens := by
    have hle := (cold_holds sumTarget ctx tokens).length_le
    rw [(cold_holds sumTarget ctx tokens).tokens, List.take_of_length_le (by omega), decodeBytes_encodeTokens]
    rfl

def smoothRequest (prompt : List Token) (hne : prompt ≠ []) : Request Frac Nat where
  ctx := tenant 1
  prompt := prompt
  prompt_ne := hne
  nBatch := 2
  nBatch_pos := by decide
  nBatch_lt := by decide
  start := ⟨Memory.empty, []⟩
  amfFlag := true
  dirOk := true
  replayDisabled := false
  replayDisabledUntilMs := 0
  roiDisabled := false
  disableRestore := false
  minRoi := ⟨0, 1⟩
  prewarmed _ := false
  readOk := true
  setOk := true
  getOk := true
  broken := ⟨Memory.empty, []⟩
  suffixOk _ := true
  coldOk _ := true
  restoreMs := 0
  savedMs := 0
  stale := 0

theorem smallEnv_intact : Intact smallEnv :=
  ⟨(fun _ _ h => by cases h), (fun _ _ _ h _ => (Option.some.inj h).symm), fun _ h => absurd rfl h⟩

theorem replay_eq_cold_extended : ((prefill sumIO smallEnv (smoothRequest [1, 2, 3, 4] (by decide))
      (history sumIO smallEnv [.request (smoothRequest [1, 2, 3] (by decide))] emptyWorld)).1.map
        (·.usedAmf)) = some true ∧
    ∃ st, (prefill sumIO smallEnv (smoothRequest [1, 2, 3, 4] (by decide))
      (history sumIO smallEnv [.request (smoothRequest [1, 2, 3] (by decide))] emptyWorld)).1 = some st ∧
      st.pos = 4 ∧ st.logits = [10] := by
  have hused : ((prefill sumIO smallEnv (smoothRequest [1, 2, 3, 4] (by decide))
      (history sumIO smallEnv [.request (smoothRequest [1, 2, 3] (by decide))] emptyWorld)).1.map
        (·.usedAmf)) = some true := by decide
  obtain ⟨st, hst, -⟩ := Option.map_eq_some_iff.mp hused
  obtain ⟨-, hpos, -, hlogits⟩ := (replay_eq_cold sumIO smallEnv smallEnv_intact emptyWorld (fun _ => rfl)
    [.request (smoothRequest [1, 2, 3] (by decide))] (smoothRequest [1, 2, 3, 4] (by decide))).1 st hst
  exact ⟨hused, st, hst, hpos, hlogits⟩

end Korith.Engine
