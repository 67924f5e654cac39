import Korith.Proofs.PoolPartition

/-!
# A put fails only if it can never fit

The search for a span goes on until one is found or no entry is left to evict. In the end all blocks of the layer are free,
since those in flight are of the layers before it, and all blocks of a layer are one run.
-/

namespace Korith.Vllm.CompressedVRAMPool

open FloatArith

variable {K R F : Type} {g : Geometry} {env : PoolEnv F} {s s' : CompressedVRAMPool K R F} {bs : List CompressedBlock}
  {layer needed : Nat} {allocation : List (Slot × CompressedKV R)} {blobs : List (CompressedKV R)}

/-! ### A layer without blocks in use -/

theorem Owns.perm_free (h : Owns g s bs) (hlayer : layer < g.numLayers) (hempty : s.index.rows = [])
    (hbs : ∀ b ∈ bs, b.layerId ≠ layer) : (s.freeOn layer).Perm (span 0 g.blocksPerLayer) := by
  refine List.perm_iff_count.2 fun x => ?_
  have howned := h.owned layer hlayer x
  have hnone : g.holders (s.live ++ bs) layer x = 0 := by
    rw [live, hempty, Geometry.holders, List.countP_eq_zero]
    intro b hb
    rw [decide_eq_true_eq]
    exact fun hcov => hbs b hb hcov.1
  rw [hnone, Nat.add_zero] at howned
  rw [howned, count_span]
  simp

theorem allocSpan_empty (h : Owns g s bs) (hlayer : layer < g.numLayers) (hempty : s.index.rows = [])
    (hbs : ∀ b ∈ bs, b.layerId ≠ layer) (hpos : 0 < needed) (hfit : needed ≤ g.blocksPerLayer) :
    s.allocSpan layer needed ≠ some (none, s') := by
  have hlt : layer < s.freeLists.length := h.lists ▸ hlayer
  have hperm := h.perm_free hlayer hempty hbs
  rw [freeOn, List.getElem?_eq_getElem hlt, Option.getD_some] at hperm
  obtain ⟨start, free', hspan⟩ := allocSpan_of_perm hperm hpos hfit
  rw [allocSpan, List.getElem?_eq_getElem hlt]
  dsimp only
  rw [hspan]
  exact fun h => by cases h

/-! ### Evictions -/

/-- No score of an entry whose savings are finite is as low as `-math.inf`. -/
def Scores [FloatArith F] (K R : Type) (env : PoolEnv F) : Prop :=
  ∀ (nowNs : Nat) (e : PoolEntry K R F), isFinite e.avgSavingsMs = true → lt env.negInf (reuseScore env nowNs e) = true

def FiniteSavings [FloatArith F] (s : CompressedVRAMPool K R F) : Prop :=
  ∀ e ∈ s.index, isFinite e.avgSavingsMs = true

variable [DecidableEq K] [FloatArith F] {x : Frac}

omit [DecidableEq K] in
theorem worst_of_some (entries : List (PoolEntry K R F)) (tick : Nat) (k : K) (score : F) :
    ∃ k', worst env entries tick (some k) score = some k' ∧ (k' = k ∨ ∃ e ∈ entries, e.prefixHash = k') := by
  induction entries generalizing tick k score with
  | nil => exact ⟨k, rfl, .inl rfl⟩
  | cons e entries ih =>
    rw [worst]
    split_ifs
    · obtain ⟨k', hk', hmem⟩ := ih (tick + 1) e.prefixHash (reuseScore env (env.clock tick) e)
      refine ⟨k', hk', .inr ?_⟩
      rcases hmem with rfl | ⟨e', he', rfl⟩
      · exact ⟨e, List.mem_cons_self, rfl⟩
      · exact ⟨e', List.mem_cons_of_mem _ he', rfl⟩
    · obtain ⟨k', hk', hmem⟩ := ih (tick + 1) k score
      exact ⟨k', hk', hmem.imp_right fun ⟨e', he', hkey⟩ => ⟨e', List.mem_cons_of_mem _ he', hkey⟩⟩

theorem evictOne_eq_false (hscores : Scores K R env) (hfinite : s.FiniteSavings) (hevict : evictOne env g s = (false, s')) :
    s.index.rows = [] := by
  by_contra hne
  obtain ⟨e, entries, hrows⟩ := List.exists_cons_of_ne_nil hne
  have he : e ∈ s.index := by
    show e ∈ s.index.rows
    rw [hrows]
    exact List.mem_cons_self
  obtain ⟨k, hk, hmem⟩ : ∃ k, worst env s.index.rows s.tick none env.negInf = some k ∧
      ∃ e ∈ s.index.rows, e.prefixHash = k := by
    rw [hrows, worst, if_pos (hscores _ e (hfinite e he))]
    obtain ⟨k, hk, hmem⟩ := worst_of_some entries (s.tick + 1) e.prefixHash (reuseScore env (env.clock s.tick) e)
    refine ⟨k, hk, ?_⟩
    rcases hmem with rfl | ⟨e', he', rfl⟩
    · exact ⟨e, List.mem_cons_self, rfl⟩
    · exact ⟨e', List.mem_cons_of_mem _ he', rfl⟩
  obtain ⟨e', he', rfl⟩ := hmem
  have hfind : s.index.find e'.prefixHash = some e' := Table.find_eq_some_iff.2 ⟨he', rfl⟩
  unfold evictOne at hevict
  rw [hk, Option.bind_some, hfind] at hevict
  cases hevict

/-! ### Allocation -/

theorem allocOrEvict_found (h : Owns g s bs) (hlayer : layer < g.numLayers) (hbs : ∀ b ∈ bs, b.layerId ≠ layer)
    (hpos : 0 < needed) (hfit : needed ≤ g.blocksPerLayer) (hscores : Scores K R env) (hfinite : s.FiniteSavings)
    {rounds : Nat} (hrounds : s.index.rows.length ≤ rounds) :
    ∃ start s', allocOrEvict env g layer needed rounds s = some (some start, s') := by
  fun_induction allocOrEvict env g layer needed rounds s with
  | case1 rounds s hnone =>
    obtain ⟨found, s₁, halloc⟩ := allocSpan_isSome h hlayer needed
    cases hnone.symm.trans halloc
  | case2 rounds s start s₁ halloc => exact ⟨start, s₁, rfl⟩
  | case3 rounds s s₁ halloc s₂ hevict =>
    have hindex := index_allocSpan halloc
    have hempty := evictOne_eq_false hscores (fun e he => hfinite e (hindex ▸ he)) hevict
    exact absurd halloc (allocSpan_empty h hlayer (hindex ▸ hempty) hbs hpos hfit)
  | case4 s s₁ halloc s₂ hevict =>
    have hlen := length_evictOne hevict
    rw [index_allocSpan halloc] at hlen
    omega
  | case5 s s₁ halloc s₂ rounds hevict ih =>
    have hlen := length_evictOne hevict
    have hindex := index_allocSpan halloc
    rw [hindex] at hlen
    exact ih ((h.searched hpos halloc).evicted hevict) (fun e he => hfinite e (hindex ▸ sub_evictOne hevict e he))
      (by omega)

omit [DecidableEq K] [FloatArith F] in
theorem layerId_inFlight {b : CompressedBlock} (hb : b ∈ inFlight allocation) : b.layerId < allocation.length := by
  obtain ⟨x, hx, rfl⟩ := List.mem_map.1 hb
  exact (List.mem_zipIdx hx).2.1.trans_le (by omega)

theorem allocate_fits (h : Owns g s (inFlight allocation)) (hlen : allocation.length + blobs.length ≤ g.numLayers)
    (hfit : ∀ blob ∈ blobs, blocksNeeded g blob ≤ g.blocksPerLayer) (hscores : Scores K R env)
    (hfinite : s.FiniteSavings) : ∃ allocation', (allocate env g blobs allocation s).1 = .done allocation' := by
  induction blobs generalizing allocation s with
  | nil => exact ⟨allocation, rfl⟩
  | cons blob blobs ih =>
    rw [List.length_cons] at hlen
    have hlayer : allocation.length < g.numLayers := by omega
    have hpos : 0 < blocksNeeded g blob := Geometry.blocksFor_pos
    obtain ⟨start, s₁, hfound⟩ := allocOrEvict_found h hlayer (fun b hb => (layerId_inFlight hb).ne) hpos
      (hfit blob List.mem_cons_self) hscores hfinite le_rfl
    obtain ⟨found, s₂, hsearch, h₁⟩ := h.allocOrEvict hlayer hpos env s.index.rows.length
    obtain ⟨rfl, rfl⟩ : found = some start ∧ s₂ = s₁ := by simpa using hsearch.symm.trans hfound
    rw [allocate, hfound]
    refine ih ?_ (by rw [List.length_append, List.length_singleton]; omega)
      (fun blob' hb => hfit blob' (List.mem_cons_of_mem _ hb)) fun e he => hfinite e (sub_allocOrEvict hfound e he)
    rw [inFlight_concat]
    exact h₁ _ rfl rfl rfl

theorem put_eq_true_iff (h : Owns g s []) (hlen : blobs.length ≤ g.numLayers) (hscores : Scores K R env)
    (hfinite : s.FiniteSavings) (prefixHash : K) (numTokens : Nat) (savingsMs : F) :
    (put env g s prefixHash blobs numTokens savingsMs).1 = some true ↔
      ∀ blob ∈ blobs, blocksNeeded g blob ≤ g.blocksPerLayer := by
  have hstart : Owns g (s.remove g prefixHash).2 ([] ++ inFlight ([] : List (Slot × CompressedKV R))) :=
    h.remove prefixHash
  have hok := hstart.allocate (fun p hp => absurd hp List.not_mem_nil) env blobs
  have hfits : (∀ blob ∈ blobs, blocksNeeded g blob ≤ g.blocksPerLayer) →
      ∃ allocation', (allocate env g blobs [] (s.remove g prefixHash).2).1 = .done allocation' := fun hfit =>
    allocate_fits hstart (by simpa using hlen) hfit hscores fun e he => hfinite e (mem_remove he).1
  unfold put
  generalize allocate env g blobs [] (s.remove g prefixHash).2 = res at hok hfits
  obtain ⟨outcome, s₁⟩ := res
  cases outcome with
  | indexError => exact iff_of_false (fun h => by cases h) fun hfit => by cases (hfits hfit).choose_spec
  | full => exact iff_of_false (fun h => by cases h) fun hfit => by cases (hfits hfit).choose_spec
  | done allocation =>
    obtain ⟨h₁, hplaced, hblobs⟩ := hok
    obtain ⟨slabs, hwrite, -⟩ := writeSlabs_spec (h₁.writable hplaced)
    dsimp only
    rw [hwrite]
    refine iff_of_true rfl fun blob hblob => ?_
    rw [List.map_nil, List.nil_append] at hblobs
    rw [← hblobs] at hblob
    obtain ⟨p, hp, rfl⟩ := List.mem_map.1 hblob
    obtain ⟨i, hi⟩ := List.mem_iff_getElem?.1 hp
    have hmem : (p, i) ∈ allocation.zipIdx := List.mem_zipIdx_iff_getElem?.2 hi
    have hend := h₁.end_le (b := blockOf (p, i)) (mem_inFlight hmem)
    exact (Nat.le_add_left _ _).trans hend

/-! ### Histories -/

def Op.finiteSavings : Op K R F → Bool
  | putFromRaw _ _ _ savingsMs => isFinite savingsMs
  | putFromVllm _ _ _ savingsMs => isFinite savingsMs
  | _ => true

theorem FiniteSavings.put {savingsMs : F} (h : s.FiniteSavings) (hsavings : isFinite savingsMs = true) {k : K}
    {numTokens : Nat} : (CompressedVRAMPool.put env g s k blobs numTokens savingsMs).2.FiniteSavings := by
  intro e he
  rcases mem_put he with ⟨-, -, -, rfl⟩ | ⟨hold, -⟩
  · exact hsavings
  · exact h e hold

theorem FiniteSavings.step (h : s.FiniteSavings) {op : Op K R F} (hop : op.finiteSavings = true) :
    (CompressedVRAMPool.step env g s op).FiniteSavings := by
  cases op with
  | putFromRaw prefixHash blobs numTokens savingsMs => exact h.put hop
  | putFromVllm prefixHash blobs nTokens savingsMs =>
    rw [CompressedVRAMPool.step, putFromVllm]
    split_ifs
    · exact h
    · exact h.put hop
  | get prefixHash =>
    intro e he
    obtain ⟨e₀, he₀, -, -, hsavings⟩ := mem_get he
    exact hsavings ▸ h e₀ he₀
  | delete prefixHash => exact fun e he => h e (mem_remove he).1
  | clear => exact fun e he => absurd he Table.notMem_empty
  | evictOne => exact fun e he => h e (sub_evictOne rfl e he)

theorem FiniteSavings.run (h : s.FiniteSavings) {ops : List (Op K R F)} (hops : ∀ op ∈ ops, op.finiteSavings = true) :
    (CompressedVRAMPool.run env g s ops).FiniteSavings := by
  induction ops generalizing s with
  | nil => exact h
  | cons op ops ih =>
    exact ih (h.step (hops op List.mem_cons_self)) fun op' hop' => hops op' (List.mem_cons_of_mem _ hop')

/-- A put of at most one blob for each layer is accepted exactly if each of them fits a layer. -/
def AcceptsFitting (env : PoolEnv F) (g : Geometry) (s : CompressedVRAMPool K R F) : Prop :=
  ∀ (prefixHash : K) (blobs : List (CompressedKV R)), blobs.length ≤ g.numLayers → ∀ (numTokens : Nat) (savingsMs : F),
    ((putFromRaw env g s prefixHash blobs numTokens savingsMs).1 = some true ↔
      ∀ blob ∈ blobs, blocksNeeded g blob ≤ g.blocksPerLayer) ∧
    (blobs ≠ [] → ((putFromVllm env g s prefixHash blobs numTokens savingsMs).1 = some true ↔
      ∀ blob ∈ blobs, blocksNeeded g blob ≤ g.blocksPerLayer))

theorem accepts_of_scores (env : PoolEnv F) (hscores : Scores K R env) (fresh : Nat → Nat → Byte) {ops : List (Op K R F)}
    (hops : ∀ op ∈ ops, op.layers ≤ g.numLayers ∧ op.finiteSavings = true) :
    AcceptsFitting env g (run env g (init g fresh) ops) := by
  intro prefixHash blobs hlen numTokens savingsMs
  have h := (owns_init (K := K) (R := R) (F := F) fresh).run env ops fun op hop => (hops op hop).1
  have hnew : (init g fresh : CompressedVRAMPool K R F).FiniteSavings := fun e he => absurd he Table.notMem_empty
  have hiff := put_eq_true_iff h hlen hscores (hnew.run fun op hop => (hops op hop).2) prefixHash numTokens savingsMs
  refine ⟨hiff, fun hne => ?_⟩
  rw [putFromVllm, if_neg hne]
  exact hiff

/-! ### An entry that is never evicted -/

/-- One entry and no free block. -/
structure Sole (s : CompressedVRAMPool K R F) (e : PoolEntry K R F) : Prop where
  freeLists : s.freeLists = [[]]
  rows : s.index.rows = [e]

omit [FloatArith F] in
theorem Sole.find {e : PoolEntry K R F} (h : Sole s e) (k : K) :
    s.index.find k = if e.prefixHash = k then some e else none := by
  rw [Table.find, h.rows, List.find?_singleton]
  simp

omit [FloatArith F] in
theorem Sole.get {e : PoolEntry K R F} (h : Sole s e) (env : PoolEnv F) :
    Sole (CompressedVRAMPool.get env s e.prefixHash).2 (e.hit (env.clock s.tick)) ∧
      (CompressedVRAMPool.get env s e.prefixHash).2.tick = s.tick + 1 := by
  unfold CompressedVRAMPool.get
  rw [h.find, if_pos rfl]
  refine ⟨⟨h.freeLists, ?_⟩, rfl⟩
  simp [Table.updateWhere, h.rows]

theorem Sole.put {e : PoolEntry K R F} (h : Sole s e) {k : K} (hk : e.prefixHash ≠ k) (blob : CompressedKV R)
    (hscore : lt env.negInf (reuseScore env (env.clock s.tick) e) = false) (numTokens : Nat) (savingsMs : F) :
    (CompressedVRAMPool.put env g s k [blob] numTokens savingsMs).1 = some false := by
  have hpos : 0 < blocksNeeded g blob := Geometry.blocksFor_pos
  have hspan : s.allocSpan 0 (blocksNeeded g blob) = some (none, s) := by
    have hnone : Korith.allocSpan [] (blocksNeeded g blob) = (none, []) := if_pos hpos
    rw [CompressedVRAMPool.allocSpan, h.freeLists]
    dsimp only [List.getElem?_cons_zero]
    rw [hnone, List.set_cons_zero, ← h.freeLists]
  have hevict : (evictOne env g s).1 = false := by
    rw [evictOne, h.rows, worst, hscore]
    rfl
  have hsearch : ∃ s', allocOrEvict env g 0 (blocksNeeded g blob) s.index.rows.length s = some (none, s') := by
    rw [allocOrEvict, hspan]
    dsimp only
    generalize evictOne env g s = r at hevict ⊢
    obtain ⟨found, s'⟩ := r
    cases hevict
    exact ⟨s', rfl⟩
  obtain ⟨s', hsearch⟩ := hsearch
  rw [CompressedVRAMPool.put, remove, h.find, if_neg hk]
  dsimp only
  rw [allocate, List.length_nil, hsearch]

/-- The pool accepts what fits, after every history and whatever the clock reads. -/
def Accepts (K R : Type) [DecidableEq K] (env : PoolEnv F) : Prop :=
  ∀ (g : Geometry) (clock : Nat → Nat) (fresh : Nat → Nat → Byte) (ops : List (Op K R F)),
    (∀ op ∈ ops, op.layers ≤ g.numLayers ∧ op.finiteSavings = true) →
      AcceptsFitting { env with clock := clock } g (run { env with clock := clock } g (init g fresh) ops)

theorem Sole.gets {e : PoolEntry K R F} {lastHitNs : Nat} (hitCount n : Nat)
    (h : Sole s { e with lastHitNs := lastHitNs, hitCount := hitCount })
    (hclock : ∀ tick < s.tick + n, env.clock tick = lastHitNs) :
    Sole (run env g s (List.replicate n (.get e.prefixHash)))
        { e with lastHitNs := lastHitNs, hitCount := hitCount + n } ∧
      (run env g s (List.replicate n (.get e.prefixHash))).tick = s.tick + n := by
  induction n generalizing s hitCount with
  | zero => exact ⟨h, rfl⟩
  | succ n ih =>
    obtain ⟨hget, htick⟩ := h.get env
    rw [hclock s.tick (by omega)] at hget
    have hrest := ih (hitCount + 1) hget fun tick hlt => hclock tick (by rw [htick] at hlt; omega)
    rw [htick, Nat.add_right_comm hitCount, Nat.add_right_comm s.tick] at hrest
    exact hrest

/-- One layer of a single block, which takes a blob of `n` bytes. -/
def oneBlock (n : Nat) : Geometry := ⟨1, n + 1, n + 1, Nat.succ_pos n⟩

def zeros (r : R) (n : Nat) : CompressedKV R := ⟨List.replicate n 0#8, none, r⟩

omit [DecidableEq K] [FloatArith F] in
theorem blocksNeeded_zeros (r : R) (n : Nat) :
    blocksNeeded (oneBlock n) (zeros r n) = 1 ∧ (oneBlock n).blocksPerLayer = 1 := by
  refine ⟨?_, Nat.div_self (Nat.succ_pos n)⟩
  show max 1 (((List.replicate n 0#8).length + 0 + (n + 1) - 1) / (n + 1)) = 1
  rw [List.length_replicate]
  refine max_eq_left (Nat.lt_succ_iff.1 ((Nat.div_lt_iff_lt_mul (Nat.succ_pos n)).2 ?_))
  omega

theorem sole_put (env : PoolEnv F) (k : K) (r : R) (n : Nat) (savingsMs : F) :
    let s := (put env (oneBlock n) (init (oneBlock n) fun _ _ => 0#8) k [zeros r n] 1 savingsMs).2
    s.tick = 2 ∧ ∃ slot, Sole s (newEntry k 1 savingsMs (env.clock 0) (env.clock 1) [(slot, zeros r n)]) := by
  obtain ⟨hneeded, hblocks⟩ := blocksNeeded_zeros r n
  have hspan : (init (oneBlock n) fun _ _ => 0#8 : CompressedVRAMPool K R F).allocSpan 0 1 =
      some (some 0, { init (oneBlock n) fun _ _ => 0#8 with freeLists := [[]] }) := by
    have hfree : (init (oneBlock n) fun _ _ => 0#8 : CompressedVRAMPool K R F).freeLists = [[0]] := by
      show List.replicate 1 (List.range _) = _
      rw [hblocks]
      rfl
    rw [CompressedVRAMPool.allocSpan, hfree]
    rfl
  have halloc : allocate env (oneBlock n) [zeros r n] []
      ((init (oneBlock n) fun _ _ => 0#8 : CompressedVRAMPool K R F).remove (oneBlock n) k).2 =
      (.done [(⟨0, 0 * (n + 1), 0 * (n + 1) + (zeros r n).dataBytes⟩, zeros r n)],
        { init (oneBlock n) fun _ _ => 0#8 with freeLists := [[]] }) := by
    show allocate env (oneBlock n) [zeros r n] [] (init (oneBlock n) fun _ _ => 0#8) = _
    rw [allocate, List.length_nil, hneeded, allocOrEvict, hspan]
    rfl
  obtain ⟨_, _, hok⟩ := (owns_init (g := oneBlock n) fun _ _ => 0#8).put env k [zeros r n] 1 savingsMs
  have hraise := (hok le_rfl).2
  dsimp only
  unfold put at hraise ⊢
  rw [halloc] at hraise ⊢
  dsimp only at hraise ⊢
  split at hraise
  · exact absurd rfl hraise
  · exact ⟨rfl, _, rfl, rfl⟩

/-- The entry is put, hit as often as `e` was, and met by the next put at a time when its score is too low. -/
theorem low_entry_stays (env : PoolEnv F) {e : PoolEntry K R F}
    (hclock : ∀ tick < 2 + e.hitCount, env.clock tick = e.lastHitNs)
    (hlow : lt env.negInf (reuseScore env (env.clock (2 + e.hitCount)) e) = false) {k k' : K} (hk : k ≠ k') (r : R) :
    (put env (oneBlock e.nbytes) (run env (oneBlock e.nbytes) (init (oneBlock e.nbytes) fun _ _ => 0#8)
      (.putFromRaw k [zeros r e.nbytes] 1 e.avgSavingsMs :: List.replicate e.hitCount (.get k)))
        k' [zeros r e.nbytes] 1 e.avgSavingsMs).1 = some false := by
  obtain ⟨htick, slot, hsole⟩ := sole_put env k r e.nbytes e.avgSavingsMs
  rw [hclock 1 (by omega)] at hsole
  let e₀ := newEntry k 1 e.avgSavingsMs (env.clock 0) e.lastHitNs [(slot, zeros r e.nbytes)]
  obtain ⟨hgets, htick'⟩ := Sole.gets (g := oneBlock e.nbytes) (e := e₀) 0 e.hitCount hsole (by rwa [htick])
  refine hgets.put hk (zeros r e.nbytes) ?_ 1 e.avgSavingsMs
  have hbytes : PoolEntry.nbytes { e₀ with lastHitNs := e.lastHitNs, hitCount := 0 + e.hitCount } = e.nbytes := by
    simp [e₀, PoolEntry.nbytes, newEntry, blockOf, zeros, CompressedKV.dataBytes, CompressedKV.scaleBytes]
  rw [htick', htick, ← hlow, reuseScore, reuseScore, hbytes, Nat.zero_add]
  rfl

theorem scores_of_accepts [Nontrivial K] [Inhabited R] (h : Accepts K R env) : Scores K R env := by
  intro nowNs e hfinite
  by_contra hlow
  obtain ⟨k, k', hk⟩ := exists_pair_ne K
  let clock : Nat → Nat := fun tick => if tick < 2 + e.hitCount then e.lastHitNs else nowNs
  have hnow : clock (2 + e.hitCount) = nowNs := if_neg (Nat.lt_irrefl _)
  have hlow' : lt env.negInf (reuseScore { env with clock := clock } (clock (2 + e.hitCount)) e) = false := by
    rw [hnow]
    exact Bool.eq_false_iff.2 hlow
  have hput := low_entry_stays { env with clock := clock } (fun tick hlt => if_pos hlt) hlow' hk (default : R)
  obtain ⟨hneeded, hblocks⟩ := blocksNeeded_zeros (default : R) e.nbytes
  have hops : ∀ op ∈ (.putFromRaw k [zeros default e.nbytes] 1 e.avgSavingsMs :: List.replicate e.hitCount (.get k) :
      List (Op K R F)), op.layers ≤ (oneBlock e.nbytes).numLayers ∧ op.finiteSavings = true := by
    refine List.forall_mem_cons.2 ⟨⟨le_rfl, hfinite⟩, fun op hop => ?_⟩
    rw [List.eq_of_mem_replicate hop]
    exact ⟨Nat.zero_le _, rfl⟩
  have hfits := (h (oneBlock e.nbytes) clock (fun _ _ => 0#8) _ hops k' [zeros default e.nbytes] le_rfl 1 e.avgSavingsMs).1.2
    (List.forall_mem_singleton.2 (by rw [hneeded, hblocks]))
  cases hput.symm.trans hfits

theorem put_accepts_iff [Nontrivial K] [Inhabited R] (env : PoolEnv F) : Accepts K R env ↔ Scores K R env :=
  ⟨scores_of_accepts, fun hscores _ clock fresh _ hops => accepts_of_scores { env with clock := clock } hscores fresh hops⟩

/-! ### A pool without savings in its scores -/

def Nonneg (x : Frac) : Prop := x.den ≠ 0 ∧ 0 ≤ x.num

theorem Nonneg.add {y : Frac} (hx : Nonneg x) (hy : Nonneg y) : Nonneg (x + y) :=
  ⟨Nat.mul_ne_zero hx.1 hy.1, Int.add_nonneg (Int.mul_nonneg hx.2 (Int.natCast_nonneg _))
    (Int.mul_nonneg hy.2 (Int.natCast_nonneg _))⟩

theorem Nonneg.mul {y : Frac} (hx : Nonneg x) (hy : Nonneg y) : Nonneg (x * y) :=
  ⟨Nat.mul_ne_zero hx.1 hy.1, Int.mul_nonneg hx.2 hy.2⟩

theorem nonneg_max (hx : Nonneg x) : Nonneg (FloatArith.max (ofNat 0) x) := by
  unfold FloatArith.max
  split_ifs
  · exact hx
  · exact ⟨Nat.one_ne_zero, Int.le_refl 0⟩

theorem Nonneg.div (hx : Nonneg x) {n : Nat} (hn : n ≠ 0) : Nonneg (x / ofNat n) := by
  show Nonneg (Frac.div x ⟨n, 1⟩)
  have hn' : ¬ (n : Int) < 0 := by omega
  rw [Frac.div, if_neg hn']
  exact ⟨Nat.mul_ne_zero hx.1 (by simpa using hn), Int.mul_nonneg hx.2 (Int.natCast_nonneg 1)⟩

theorem nonneg_ofNat (n : Nat) : Nonneg (ofNat n) := ⟨Nat.one_ne_zero, Int.natCast_nonneg n⟩

theorem Nonneg.lt_sub {z : Frac} (hx : Nonneg x) (hz : z.den ≠ 0) : lt ⟨-1, 1⟩ (x - ⟨0, 1⟩ * z) = true := by
  have hden : x.den * (1 * z.den) ≠ 0 := Nat.mul_ne_zero hx.1 (by omega)
  have hnum : 0 ≤ x.num * ((1 * z.den : Nat) : Int) := Int.mul_nonneg hx.2 (Int.natCast_nonneg _)
  show ((1 != 0) && (x.den * (1 * z.den) != 0) && decide (-1 * ((x.den * (1 * z.den) : Nat) : Int) <
    (x.num * ((1 * z.den : Nat) : Int) - 0 * z.num * x.den) * 1)) = true
  rw [Bool.and_eq_true, decide_eq_true_eq]
  exact ⟨by simp [hx.1, hz], by omega⟩

/-- The weights of the pool, but none for the savings. -/
def weightsEnv : PoolEnv Frac := { demoPoolEnv with delta := ⟨0, 1⟩ }

theorem scores_weightsEnv : Scores Nat Unit weightsEnv := by
  intro nowNs e hfinite
  have hage := (nonneg_max ((nonneg_ofNat (nowNs - e.lastHitNs)).div (n := 1000000000) (by decide)))
  have hsize := (nonneg_ofNat e.nbytes).div (n := 2 ^ 20) (by decide)
  have hhits : Nat.max 1 e.hitCount ≠ 0 := Nat.ne_of_gt (Nat.lt_of_lt_of_le Nat.one_pos (Nat.le_max_left _ _))
  have halpha : Nonneg weightsEnv.alpha := ⟨by decide, by decide⟩
  have hbeta : Nonneg weightsEnv.beta := ⟨by decide, by decide⟩
  have hgamma : Nonneg weightsEnv.gamma := ⟨by decide, by decide⟩
  refine (((halpha.mul hage).add (hbeta.div hhits)).add (hgamma.mul hsize)).lt_sub ?_
  unfold FloatArith.max
  split_ifs
  · exact of_decide_eq_true (by simpa [isFinite] using hfinite)
  · exact Nat.one_ne_zero

theorem put_accepts_weights : Accepts Nat Unit weightsEnv := (put_accepts_iff weightsEnv).2 scores_weightsEnv

/-- The weight 2 for savings of 1e308 ms: below `-2 ^ 1024` a double is `-math.inf`, and the entry is never evicted. -/
theorem heavy_entry_stays :
    let env : PoolEnv Frac := { demoPoolEnv with delta := ⟨2, 1⟩, negInf := ⟨-2 ^ 1024, 1⟩ }
    let put := fun savingsMs => (putFromRaw env demoGeometry (run env demoGeometry (init demoGeometry fun _ _ => 0)
      [.putFromRaw 1 [demoBlob 7] 1 savingsMs]) 2 [demoBlob 7] 1 ⟨0, 1⟩).1
    blocksNeeded demoGeometry (demoBlob 7) ≤ demoGeometry.blocksPerLayer ∧ put ⟨10 ^ 308, 1⟩ = some false ∧
      put ⟨10 ^ 307, 1⟩ = some true := by
  decide +kernel

end Korith.Vllm.CompressedVRAMPool
