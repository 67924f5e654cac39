import Korith.Vllm.Pool

/-!
# The slabs are partitioned

Every block of a layer is free or belongs to one live entry, and the bytes of a live entry stay as they were written.
While an operation runs there are also blocks in flight, which belong to no entry yet or to none any more. `Owns g s
bs` is the invariant with the blocks `bs` in flight; allocation, eviction, rollback and release move blocks between
the free lists, the live entries and `bs`.
-/

namespace Korith.Vllm

variable {K R F : Type} {g : Geometry} {b b' : CompressedBlock} {layer x : Nat}

namespace Geometry

variable (g)

def blocksOf (b : CompressedBlock) : Nat := g.blocksFor (b.dataBytes + b.scaleBytes)

def blockSpan (b : CompressedBlock) : List Nat := span b.blockId (g.blocksOf b)

def Covers (layer x : Nat) (b : CompressedBlock) : Prop := b.layerId = layer ∧ x ∈ g.blockSpan b
  deriving Decidable

/-- How many of the blocks cover block `x` of a layer. -/
def holders (bs : List CompressedBlock) (layer x : Nat) : Nat := bs.countP fun b => decide (g.Covers layer x b)

/-- Two blocks of different layers, or one behind the other. -/
def Apart (b b' : CompressedBlock) : Prop :=
  b.layerId = b'.layerId → b.blockId + g.blocksOf b ≤ b'.blockId ∨ b'.blockId + g.blocksOf b' ≤ b.blockId

variable {g}

theorem blocksFor_pos {size : Nat} : 0 < g.blocksFor size := Nat.lt_of_lt_of_le Nat.one_pos (Nat.le_max_left _ _)

theorem blocksOf_pos : 0 < g.blocksOf b := blocksFor_pos

theorem covers_iff : g.Covers layer x b ↔ b.layerId = layer ∧ b.blockId ≤ x ∧ x < b.blockId + g.blocksOf b := by
  rw [Covers, blockSpan, mem_span]

theorem holders_append {bs bs' : List CompressedBlock} :
    g.holders (bs ++ bs') layer x = g.holders bs layer x + g.holders bs' layer x := List.countP_append

theorem holders_singleton : g.holders [b] layer x = if g.Covers layer x b then 1 else 0 := by
  rw [holders, List.countP_singleton]
  simp

theorem le_blocksFor_mul (size : Nat) : size ≤ g.blocksFor size * g.blockBytes := by
  have hpos := g.blockBytes_pos
  have hceil : size ≤ (size + g.blockBytes - 1) / g.blockBytes * g.blockBytes := by
    have hdiv := Nat.div_add_mod (size + g.blockBytes - 1) g.blockBytes
    have hmod := Nat.mod_lt (size + g.blockBytes - 1) hpos
    rw [Nat.mul_comm] at hdiv
    omega
  exact Nat.le_trans hceil (Nat.mul_le_mul_right _ (Nat.le_max_right _ _))

theorem blocksPerLayer_mul_le : g.blocksPerLayer * g.blockBytes ≤ g.bytesPerLayer := Nat.div_mul_le_self _ _

end Geometry

structure Stored (g : Geometry) (slabs : List (List Byte)) (b : CompressedBlock) (blob : CompressedKV R) : Prop where
  dataOffset : b.dataOffset = b.blockId * g.blockBytes
  scaleOffset : b.scaleOffset = b.dataOffset + b.dataBytes
  dataBytes : b.dataBytes = blob.dataBytes
  scaleBytes : b.scaleBytes = blob.scaleBytes
  bytes : ∃ slab, slabs[b.layerId]? = some slab ∧ slice slab b.dataOffset b.dataBytes = blob.data ∧
    slice slab b.scaleOffset b.scaleBytes = blob.scales.getD []

namespace CompressedVRAMPool

variable {env : PoolEnv F} {s s' : CompressedVRAMPool K R F} {bs bs' : List CompressedBlock}

def freeOn (s : CompressedVRAMPool K R F) (layer : Nat) : List Nat := s.freeLists[layer]?.getD []

def live (s : CompressedVRAMPool K R F) : List CompressedBlock := s.index.rows.flatMap PoolEntry.blocks

def liveOn (s : CompressedVRAMPool K R F) (layer : Nat) : List CompressedBlock :=
  s.live.filter fun b => decide (b.layerId = layer)

structure Owns (g : Geometry) (s : CompressedVRAMPool K R F) (bs : List CompressedBlock) : Prop where
  lists : s.freeLists.length = g.numLayers
  slabs : s.slabs.length = g.numLayers
  slab : ∀ slab ∈ s.slabs, slab.length = g.bytesPerLayer
  layer : ∀ b ∈ s.live ++ bs, b.layerId < g.numLayers
  owned : ∀ layer < g.numLayers, ∀ x,
    (s.freeOn layer).count x + g.holders (s.live ++ bs) layer x = if x < g.blocksPerLayer then 1 else 0
  stored : ∀ e ∈ s.index, List.Forall₂ (Stored g s.slabs) e.blocks e.blobs

theorem mem_live : b ∈ s.live ↔ ∃ e ∈ s.index, b ∈ e.blocks := List.mem_flatMap

theorem mem_liveOn : b ∈ s.liveOn layer ↔ b ∈ s.live ∧ b.layerId = layer := by
  rw [liveOn, List.mem_filter, decide_eq_true_eq]

theorem owns_init (fresh : Nat → Nat → Byte) : Owns g (init g fresh : CompressedVRAMPool K R F) [] where
  lists := List.length_replicate
  slabs := by simp [init]
  slab := by
    intro slab hslab
    obtain ⟨layer, -, rfl⟩ := List.mem_map.1 hslab
    rw [List.length_map, List.length_range]
  layer := by simp [live, init, Table.empty]
  owned := by
    intro layer hlayer x
    have hfree : (init g fresh : CompressedVRAMPool K R F).freeOn layer = List.range g.blocksPerLayer := by
      simp [freeOn, init, hlayer]
    have hrange : List.range g.blocksPerLayer = span 0 g.blocksPerLayer := List.range_eq_range'
    rw [hfree, hrange, count_span]
    simp [live, init, Table.empty, Geometry.holders]
  stored := fun _ he => absurd he Table.notMem_empty

/-! ### Moves -/

variable (h : Owns g s bs)

include h

theorem Owns.holders_le (hlayer : layer < g.numLayers) : g.holders (s.live ++ bs) layer x ≤ 1 := by
  have howned := h.owned layer hlayer x
  split_ifs at howned <;> omega

theorem Owns.apart : (s.live ++ bs).Pairwise g.Apart := by
  rw [List.pairwise_iff_forall_sublist]
  intro b b' hsub hlayer
  by_contra hover
  rw [not_or] at hover
  -- the later of the two first blocks is covered twice
  have hpos := g.blocksOf_pos (b := b)
  have hpos' := g.blocksOf_pos (b := b')
  have hcov : g.Covers b.layerId (max b.blockId b'.blockId) b := Geometry.covers_iff.2 ⟨rfl, by omega, by omega⟩
  have hcov' : g.Covers b.layerId (max b.blockId b'.blockId) b' :=
    Geometry.covers_iff.2 ⟨hlayer.symm, by omega, by omega⟩
  have htwo : g.holders [b, b'] b.layerId (max b.blockId b'.blockId) = 2 := by
    simp [Geometry.holders, hcov, hcov']
  have hle := hsub.countP_le (p := fun b'' => decide (g.Covers b.layerId (max b.blockId b'.blockId) b''))
  have hone := h.holders_le (x := max b.blockId b'.blockId) (h.layer b (hsub.subset List.mem_cons_self))
  rw [Geometry.holders] at hone htwo
  omega

theorem Owns.end_le (hb : b ∈ s.live ++ bs) : b.blockId + g.blocksOf b ≤ g.blocksPerLayer := by
  have hpos := g.blocksOf_pos (b := b)
  have hcov : g.Covers b.layerId (b.blockId + g.blocksOf b - 1) b :=
    Geometry.covers_iff.2 ⟨rfl, by omega, by omega⟩
  have hone : 0 < g.holders (s.live ++ bs) b.layerId (b.blockId + g.blocksOf b - 1) :=
    List.countP_pos_iff.2 ⟨b, hb, decide_eq_true hcov⟩
  have howned := h.owned b.layerId (h.layer b hb) (b.blockId + g.blocksOf b - 1)
  split_ifs at howned <;> omega

theorem Owns.used (hb : b ∈ s.live ++ bs) : List.Disjoint (g.blockSpan b) (s.freeOn b.layerId) := by
  intro x hx hfree
  have hcount := List.count_pos_iff.2 hfree
  have hheld : 0 < g.holders (s.live ++ bs) b.layerId x :=
    List.countP_pos_iff.2 ⟨b, hb, decide_eq_true ⟨rfl, hx⟩⟩
  have howned := h.owned b.layerId (h.layer b hb) x
  split_ifs at howned <;> omega

theorem Owns.regroup (hlists : s'.freeLists = s.freeLists) (hslabs : s'.slabs = s.slabs)
    (hperm : (s'.live ++ bs').Perm (s.live ++ bs))
    (hsub : ∀ e ∈ s'.index, ∃ e₀ ∈ s.index, e.blocks = e₀.blocks ∧ e.blobs = e₀.blobs) : Owns g s' bs' where
  lists := by rw [hlists, h.lists]
  slabs := by rw [hslabs, h.slabs]
  slab := by rw [hslabs]; exact h.slab
  layer := fun b hb => h.layer b (hperm.subset hb)
  owned := by
    intro layer hlayer x
    rw [freeOn, hlists, Geometry.holders, hperm.countP_eq]
    exact h.owned layer hlayer x
  stored := by
    intro e he
    obtain ⟨e₀, he₀, hblocks, hblobs⟩ := hsub e he
    rw [hslabs, hblocks, hblobs]
    exact h.stored e₀ he₀

theorem Owns.ticked (tick : Nat) : Owns g { s with tick := tick } bs :=
  h.regroup rfl rfl (List.Perm.refl _) fun e he => ⟨e, he, rfl, rfl⟩

omit h

theorem freeOn_freeSpan {start n : Nat} (hlayer : b.layerId < s.freeLists.length) :
    ((s.freeSpan b.layerId start n).freeOn layer).count x =
      (s.freeOn layer).count x + if b.layerId = layer then (span start n).count x else 0 := by
  simp only [freeOn, freeSpan, List.getElem?_modify]
  by_cases hl : b.layerId = layer
  · subst hl
    simp [List.getElem?_eq_getElem hlayer]
  · simp [hl]

theorem Owns.free (h : Owns g s (b :: bs)) : Owns g (s.freeSpan b.layerId b.blockId (g.blocksOf b)) bs where
  lists := by rw [freeSpan, List.length_modify, h.lists]
  slabs := h.slabs
  slab := h.slab
  layer := fun b' hb' => h.layer b' (by
    rcases List.mem_append.1 hb' with hl | hf
    · exact List.mem_append_left _ hl
    · exact List.mem_append_right _ (List.mem_cons_of_mem _ hf))
  owned := by
    intro layer hlayer x
    have howned := h.owned layer hlayer x
    have hb : b.layerId < s.freeLists.length := by
      rw [h.lists]
      exact h.layer b (List.mem_append_right _ List.mem_cons_self)
    rw [freeOn_freeSpan hb, count_span]
    have hlive : (s.freeSpan b.layerId b.blockId (g.blocksOf b)).live = s.live := rfl
    rw [← List.singleton_append, Geometry.holders_append, Geometry.holders_append, Geometry.holders_singleton] at howned
    rw [hlive, Geometry.holders_append]
    simp only [Geometry.covers_iff] at howned
    split_ifs at howned ⊢ <;> omega
  stored := h.stored

def releaseBlocks (g : Geometry) (s : CompressedVRAMPool K R F) (bs : List CompressedBlock) : CompressedVRAMPool K R F :=
  bs.foldl (fun s b => s.freeSpan b.layerId b.blockId (g.blocksOf b)) s

theorem Owns.release (h : Owns g s (bs' ++ bs)) : Owns g (releaseBlocks g s bs') bs := by
  induction bs' generalizing s with
  | nil => exact h
  | cons b bs' ih => exact ih h.free

theorem releaseBlocks_index : (releaseBlocks g s bs).index = s.index := by
  induction bs generalizing s with
  | nil => rfl
  | cons b bs ih => exact ih

theorem releaseBlocks_setIndex {index : Table K (PoolEntry K R F) PoolEntry.prefixHash} :
    releaseBlocks g { s with index := index } bs = { releaseBlocks g s bs with index := index } := by
  induction bs generalizing s with
  | nil => rfl
  | cons b bs ih => exact ih (s := s.freeSpan b.layerId b.blockId (g.blocksOf b))

theorem index_releaseEntry {e : PoolEntry K R F} : (s.releaseEntry g e).index = s.index := releaseBlocks_index

variable {needed : Nat}

theorem allocSpan_cases {found : Option Nat} (halloc : s.allocSpan layer needed = some (found, s')) :
    ∃ free free', s.freeLists[layer]? = some free ∧ Korith.allocSpan free needed = (found, free') ∧
      s' = { s with freeLists := s.freeLists.set layer free' } := by
  unfold CompressedVRAMPool.allocSpan at halloc
  split at halloc
  · cases halloc
  next free hfree =>
    cases halloc
    exact ⟨free, _, hfree, rfl, rfl⟩

theorem index_allocSpan {found : Option Nat} (halloc : s.allocSpan layer needed = some (found, s')) :
    s'.index = s.index := by
  obtain ⟨_, _, -, -, rfl⟩ := allocSpan_cases halloc
  rfl

section Index

variable [DecidableEq K]

theorem Owns.pop {e : PoolEntry K R F} (h : Owns g s bs) (he : e ∈ s.index) :
    Owns g (s.pop e.prefixHash) (e.blocks ++ bs) := by
  refine h.regroup rfl rfl ?_ fun e' he' => ⟨e', (Table.mem_deleteWhere.1 he').1, rfl, rfl⟩
  have hlive : s.live.Perm (e.blocks ++ (s.pop e.prefixHash).live) := (Table.perm_deleteWhere he).flatMap_right _
  rw [← List.append_assoc]
  exact (List.perm_append_comm.trans hlive.symm).append_right bs

theorem Owns.remove (h : Owns g s bs) (prefixHash : K) : Owns g (s.remove g prefixHash).2 bs := by
  unfold CompressedVRAMPool.remove
  cases hfind : s.index.find prefixHash with
  | none => exact h
  | some e =>
    obtain ⟨he, rfl⟩ := Table.find_eq_some_iff.1 hfind
    exact (h.pop he).release

variable [FloatArith F] {found : Bool}

theorem evictOne_cases (hevict : evictOne env g s = (found, s')) :
    (found = false ∧ s' = { s with tick := s.tick + s.index.rows.length }) ∨ ∃ e ∈ s.index,
      s' = (pop { s with tick := s.tick + s.index.rows.length } e.prefixHash).releaseEntry g e := by
  unfold evictOne at hevict
  cases hworst : (worst env s.index.rows s.tick none env.negInf).bind s.index.find with
  | none =>
    rw [hworst] at hevict
    cases hevict
    exact .inl ⟨rfl, rfl⟩
  | some e =>
    obtain ⟨k, -, hfind⟩ := Option.bind_eq_some_iff.1 hworst
    rw [hworst] at hevict
    cases hevict
    exact .inr ⟨e, (Table.find_eq_some_iff.1 hfind).1, rfl⟩

theorem Owns.evicted (h : Owns g s bs) (hevict : evictOne env g s = (found, s')) : Owns g s' bs := by
  obtain ⟨-, rfl⟩ | ⟨e, he, rfl⟩ := evictOne_cases hevict
  · exact h.ticked _
  · exact ((h.ticked (s.tick + s.index.rows.length)).pop he).release

end Index

/-! ### Allocation -/

variable (h : Owns g s bs)

include h

theorem Owns.setFree {free free' : List Nat} (hfree : s.freeLists[layer]? = some free)
    (hlayer : ∀ b ∈ bs', b ∈ bs ∨ b.layerId = layer)
    (hcount : ∀ x, free'.count x + g.holders bs' layer x = free.count x + g.holders bs layer x)
    (hother : ∀ layer' x, layer ≠ layer' → g.holders bs' layer' x = g.holders bs layer' x) :
    Owns g { s with freeLists := s.freeLists.set layer free' } bs' := by
  obtain ⟨hlt, -⟩ := List.getElem?_eq_some_iff.1 hfree
  refine ⟨by rw [List.length_set, h.lists], h.slabs, h.slab, fun b hb => ?_, fun layer' hlayer' x => ?_, h.stored⟩
  · rcases List.mem_append.1 hb with hl | hf
    · exact h.layer b (List.mem_append_left _ hl)
    · rcases hlayer b hf with hb | rfl
      · exact h.layer b (List.mem_append_right _ hb)
      · exact h.lists ▸ hlt
  · have howned := h.owned layer' hlayer' x
    rw [Geometry.holders_append, freeOn] at howned ⊢
    by_cases hl : layer = layer'
    · subst hl
      have hx := hcount x
      rw [hfree, Option.getD_some] at howned
      rw [List.getElem?_set_self hlt, Option.getD_some, ← howned]
      change _ + (g.holders s.live layer x + _) = _
      omega
    · rw [List.getElem?_set_ne hl, hother layer' x hl]
      exact howned

theorem Owns.allocSpan
    (halloc : s.allocSpan b.layerId (g.blocksOf b) = some (some b.blockId, s')) : Owns g s' (bs ++ [b]) := by
  obtain ⟨free, free', hfree, hspan, rfl⟩ := allocSpan_cases halloc
  have hperm := allocSpan_some Geometry.blocksOf_pos hspan
  refine h.setFree hfree (fun b' hb' => ?_) (fun x => ?_) fun layer' x hl => ?_
  · rw [List.mem_append, List.mem_singleton] at hb'
    exact hb'.imp_right (by rintro rfl; rfl)
  · have hcount := hperm.count_eq x
    rw [List.count_append, count_span] at hcount
    rw [Geometry.holders_append, Geometry.holders_singleton]
    simp only [Geometry.covers_iff, true_and]
    omega
  · rw [Geometry.holders_append, Geometry.holders_singleton, if_neg fun hc => hl hc.1, Nat.add_zero]

theorem Owns.allocSpan_none (hpos : 0 < needed)
    (halloc : s.allocSpan layer needed = some (none, s')) : Owns g s' bs := by
  obtain ⟨free, free', hfree, hspan, rfl⟩ := allocSpan_cases halloc
  have hperm := Korith.allocSpan_none hpos hspan
  exact h.setFree hfree (fun _ hb => .inl hb) (fun x => by rw [hperm.count_eq]) fun _ _ _ => rfl

theorem allocSpan_isSome (hlayer : layer < g.numLayers) (needed : Nat) :
    ∃ found s', s.allocSpan layer needed = some (found, s') := by
  have hlt : layer < s.freeLists.length := h.lists ▸ hlayer
  exact ⟨_, _, by rw [CompressedVRAMPool.allocSpan, List.getElem?_eq_getElem hlt]⟩

def Searched (g : Geometry) (layer needed : Nat) (bs : List CompressedBlock) (found : Option Nat)
    (s : CompressedVRAMPool K R F) : Prop :=
  match found with
  | none => Owns g s bs
  | some start => ∀ b : CompressedBlock, b.layerId = layer → b.blockId = start → g.blocksOf b = needed →
      Owns g s (bs ++ [b])

theorem Owns.searched {found : Option Nat} (hpos : 0 < needed)
    (halloc : s.allocSpan layer needed = some (found, s')) : Searched g layer needed bs found s' := by
  cases found with
  | none => exact h.allocSpan_none hpos halloc
  | some start =>
    rintro b rfl rfl rfl
    exact h.allocSpan halloc

omit h

section Allocate

variable [DecidableEq K] [FloatArith F]

theorem Owns.allocOrEvict (h : Owns g s bs) (hlayer : layer < g.numLayers) (hpos : 0 < needed)
    (env : PoolEnv F) (rounds : Nat) :
    ∃ found s', allocOrEvict env g layer needed rounds s = some (found, s') ∧ Searched g layer needed bs found s' := by
  fun_induction CompressedVRAMPool.allocOrEvict env g layer needed rounds s with
  | case1 rounds s hnone =>
    obtain ⟨found, s₁, halloc⟩ := allocSpan_isSome h hlayer needed
    cases hnone.symm.trans halloc
  | case2 rounds s start s₁ halloc => exact ⟨some start, s₁, rfl, h.searched hpos halloc⟩
  | case3 rounds s s₁ halloc s₂ hevict => exact ⟨none, s₂, rfl, (h.searched hpos halloc).evicted hevict⟩
  | case4 s s₁ halloc s₂ hevict => exact ⟨none, s₂, rfl, (h.searched hpos halloc).evicted hevict⟩
  | case5 s s₁ halloc s₂ rounds hevict ih => exact ih ((h.searched hpos halloc).evicted hevict)

end Allocate

variable {allocation : List (Slot × CompressedKV R)} {blobs : List (CompressedKV R)}

def inFlight (allocation : List (Slot × CompressedKV R)) : List CompressedBlock := allocation.zipIdx.map blockOf

def Placed (g : Geometry) (allocation : List (Slot × CompressedKV R)) : Prop :=
  ∀ p ∈ allocation, p.1.dataOff = p.1.blockId * g.blockBytes ∧ p.1.scaleOff = p.1.dataOff + p.2.dataBytes

theorem inFlight_concat (p : Slot × CompressedKV R) :
    inFlight (allocation ++ [p]) = inFlight allocation ++ [blockOf (p, allocation.length)] := by
  simp [inFlight, List.zipIdx_append]

theorem rollBack_eq : rollBack g s allocation = releaseBlocks g s (inFlight allocation) := by
  rw [releaseBlocks, inFlight, List.foldl_map]
  rfl

/-- With too many layers it raises an exception and the blocks of the first ones are lost. -/
def AllocatedOk (g : Geometry) (bs : List CompressedBlock) (blobs : List (CompressedKV R))
    (s : CompressedVRAMPool K R F) : Allocated R → Prop
  | .done allocation => Owns g s (bs ++ inFlight allocation) ∧ Placed g allocation ∧ allocation.map Prod.snd = blobs
  | .full => Owns g s bs
  | .indexError => g.numLayers < blobs.length ∧ ∃ lost, Owns g s lost

section Allocate

variable [DecidableEq K] [FloatArith F]

theorem allocate_raises (hlists : s.freeLists.length = g.numLayers) (hlayer : g.numLayers ≤ allocation.length)
    {blob : CompressedKV R} : allocate env g (blob :: blobs) allocation s = (.indexError, s) := by
  have hspan : s.allocSpan allocation.length (blocksNeeded g blob) = none := by
    rw [CompressedVRAMPool.allocSpan, List.getElem?_eq_none (by omega)]
  rw [CompressedVRAMPool.allocate, CompressedVRAMPool.allocOrEvict, hspan]

theorem Owns.allocate (h : Owns g s (bs ++ inFlight allocation)) (hplaced : Placed g allocation) (env : PoolEnv F)
    (blobs : List (CompressedKV R)) :
    AllocatedOk g bs (allocation.map Prod.snd ++ blobs) (allocate env g blobs allocation s).2
      (allocate env g blobs allocation s).1 := by
  induction blobs generalizing allocation s with
  | nil => exact ⟨h, hplaced, (List.append_nil _).symm⟩
  | cons blob blobs ih =>
    by_cases hlayer : allocation.length < g.numLayers
    · have hpos : 0 < blocksNeeded g blob := Geometry.blocksFor_pos
      obtain ⟨found, s₁, hsearch, h₁⟩ := h.allocOrEvict hlayer hpos env s.index.rows.length
      rw [CompressedVRAMPool.allocate, hsearch]
      cases found with
      | none =>
        show Owns g (rollBack g s₁ allocation) bs
        rw [rollBack_eq]
        exact Owns.release (h₁.regroup rfl rfl (List.perm_append_comm.append_left _) fun e he => ⟨e, he, rfl, rfl⟩)
      | some start =>
        dsimp only
        set slot : Slot := ⟨start, start * g.blockBytes, start * g.blockBytes + blob.dataBytes⟩
        have h₂ : Owns g s₁ (bs ++ inFlight (allocation ++ [(slot, blob)])) := by
          rw [inFlight_concat, ← List.append_assoc]
          exact h₁ _ rfl rfl rfl
        have hplaced₂ : Placed g (allocation ++ [(slot, blob)]) := by
          intro p hp
          rw [List.mem_append, List.mem_singleton] at hp
          rcases hp with hp | rfl
          · exact hplaced p hp
          · exact ⟨rfl, rfl⟩
        have hrest := ih h₂ hplaced₂
        rwa [List.map_append, List.map_singleton, List.append_assoc, List.singleton_append] at hrest
    · rw [allocate_raises h.lists (Nat.not_lt.1 hlayer)]
      refine ⟨?_, _, h⟩
      rw [List.length_append, List.length_map, List.length_cons]
      omega

end Allocate

/-! ### Slabs -/

section Slabs

variable {slabs : List (List Byte)} {slab slab' : List Byte} {blob : CompressedKV R}

theorem end_mul_le (h : b.blockId + g.blocksOf b ≤ b'.blockId) :
    b.blockId * g.blockBytes + g.blocksOf b * g.blockBytes ≤ b'.blockId * g.blockBytes := by
  rw [← Nat.add_mul]
  exact Nat.mul_le_mul_right _ h

theorem size_le : b.dataBytes + b.scaleBytes ≤ g.blocksOf b * g.blockBytes := Geometry.le_blocksFor_mul _

theorem stored_set (h : Stored g slabs b blob) (hslab : slabs[layer]? = some slab)
    (hsame : b.layerId = layer → ∀ m n, b.blockId * g.blockBytes ≤ m →
      m + n ≤ b.blockId * g.blockBytes + g.blocksOf b * g.blockBytes → slice slab' m n = slice slab m n) :
    Stored g (slabs.set layer slab') b blob := by
  refine ⟨h.dataOffset, h.scaleOffset, h.dataBytes, h.scaleBytes, ?_⟩
  obtain ⟨slab₀, hslab₀, hdata, hscales⟩ := h.bytes
  have hsize := size_le (g := g) (b := b)
  have hdataOff := h.dataOffset
  have hscaleOff := h.scaleOffset
  by_cases hl : b.layerId = layer
  · cases (hl ▸ hslab₀).symm.trans hslab
    obtain ⟨hlt, -⟩ := List.getElem?_eq_some_iff.1 hslab
    refine ⟨slab', by rw [hl, List.getElem?_set_self hlt], ?_, ?_⟩
    · rw [hsame hl _ _ (by omega) (by omega), hdata]
    · rw [hsame hl _ _ (by omega) (by omega), hscales]
  · exact ⟨slab₀, by rw [List.getElem?_set_ne (Ne.symm hl), hslab₀], hdata, hscales⟩

theorem scaleBytes_eq (blob : CompressedKV R) : blob.scaleBytes = (blob.scales.getD []).length := by
  unfold CompressedKV.scaleBytes
  cases blob.scales <;> rfl

theorem writeLayer_spec {slot : Slot} (hslab : slabs[layer]? = some slab)
    (hdataOff : slot.dataOff = slot.blockId * g.blockBytes) (hscaleOff : slot.scaleOff = slot.dataOff + blob.dataBytes)
    (hlen : slot.blockId * g.blockBytes + blocksNeeded g blob * g.blockBytes ≤ slab.length) :
    ∃ slab', writeLayer slot blob layer slabs = (true, slabs.set layer slab') ∧ slab'.length = slab.length ∧
      slice slab' slot.dataOff blob.dataBytes = blob.data ∧
      slice slab' slot.scaleOff blob.scaleBytes = blob.scales.getD [] ∧
      ∀ m n, m + n ≤ slot.blockId * g.blockBytes ∨
        slot.blockId * g.blockBytes + blocksNeeded g blob * g.blockBytes ≤ m → slice slab' m n = slice slab m n := by
  have hsize : blob.dataBytes + blob.scaleBytes ≤ blocksNeeded g blob * g.blockBytes := Geometry.le_blocksFor_mul _
  have hscale := scaleBytes_eq blob
  obtain ⟨slab₁, hwrite⟩ : ∃ slab₁, writeAt slot.dataOff blob.data slab = some slab₁ :=
    ⟨_, writeAt_of_le (by change _ + blob.dataBytes ≤ _; omega)⟩
  have hlen₁ := length_writeAt hwrite
  have hdata : slice slab₁ slot.dataOff blob.dataBytes = blob.data := slice_writeAt_same hwrite
  have hframe : ∀ m n, m + n ≤ slot.blockId * g.blockBytes ∨
      slot.blockId * g.blockBytes + blocksNeeded g blob * g.blockBytes ≤ m → slice slab₁ m n = slice slab m n := by
    intro m n hmn
    refine slice_writeAt_disjoint hwrite ?_
    change _ ∨ _ + blob.dataBytes ≤ m
    omega
  unfold writeLayer
  rw [hslab]
  dsimp only
  rw [hwrite]
  dsimp only
  cases hscales : blob.scales.getD [] with
  | nil =>
    rw [hscales, List.length_nil] at hscale
    exact ⟨slab₁, rfl, hlen₁, hdata, by rw [hscale]; rfl, hframe⟩
  | cons scale scales =>
    rw [hscales] at hscale
    obtain ⟨slab₂, hwrite₂⟩ : ∃ slab₂, writeAt slot.scaleOff (scale :: scales) slab₁ = some slab₂ :=
      ⟨_, writeAt_of_le (by omega)⟩
    refine ⟨slab₂, by dsimp only; rw [hwrite₂], (length_writeAt hwrite₂).trans hlen₁, ?_, ?_, fun m n hmn => ?_⟩
    · rw [slice_writeAt_disjoint hwrite₂ (.inl (by omega)), hdata]
    · rw [hscale]
      exact slice_writeAt_same hwrite₂
    · rw [slice_writeAt_disjoint hwrite₂ (by omega), hframe m n hmn]

/-- What `_write_slabs` is given: places inside the slabs that do not overlap. -/
structure Writable (g : Geometry) (xs : List ((Slot × CompressedKV R) × Nat)) (slabs : List (List Byte)) : Prop where
  slab : ∀ slab ∈ slabs, slab.length = g.bytesPerLayer
  layer : ∀ x ∈ xs, x.2 < slabs.length
  placed : ∀ x ∈ xs, x.1.1.dataOff = x.1.1.blockId * g.blockBytes ∧ x.1.1.scaleOff = x.1.1.dataOff + x.1.2.dataBytes
  inside : ∀ x ∈ xs, x.1.1.blockId + blocksNeeded g x.1.2 ≤ g.blocksPerLayer
  apart : (xs.map blockOf).Pairwise g.Apart

/-- What it does: every blob is in its place, and those that were stored elsewhere still are. -/
structure Written (g : Geometry) (xs : List ((Slot × CompressedKV R) × Nat)) (slabs slabs' : List (List Byte)) :
    Prop where
  length : slabs'.length = slabs.length
  slab : ∀ slab ∈ slabs', slab.length = g.bytesPerLayer
  stored : ∀ x ∈ xs, Stored g slabs' (blockOf x) x.1.2
  frame : ∀ b (blob : CompressedKV R), Stored g slabs b blob → (∀ x ∈ xs, g.Apart b (blockOf x)) → Stored g slabs' b blob

theorem writeSlabs_spec {xs : List ((Slot × CompressedKV R) × Nat)} (h : Writable g xs slabs) :
    ∃ slabs', writeSlabs xs slabs = (true, slabs') ∧ Written g xs slabs slabs' := by
  induction xs generalizing slabs with
  | nil => exact ⟨slabs, rfl, rfl, h.slab, by simp, fun _ _ hb _ => hb⟩
  | cons x xs ih =>
    obtain ⟨hx, hxs⟩ := List.pairwise_cons.1 h.apart
    have hlt := h.layer x List.mem_cons_self
    have hslab : slabs[x.2]? = some slabs[x.2] := List.getElem?_eq_getElem hlt
    obtain ⟨hdataOff, hscaleOff⟩ := h.placed x List.mem_cons_self
    have hlen : x.1.1.blockId * g.blockBytes + blocksNeeded g x.1.2 * g.blockBytes ≤ slabs[x.2].length := by
      rw [h.slab _ (List.getElem_mem hlt), ← Nat.add_mul]
      exact Nat.le_trans (Nat.mul_le_mul_right _ (h.inside x List.mem_cons_self)) Geometry.blocksPerLayer_mul_le
    obtain ⟨slab', hwrite, hlen', hdata, hscales, hframe⟩ := writeLayer_spec hslab hdataOff hscaleOff hlen
    -- the slabs after this layer
    have hown : Stored g (slabs.set x.2 slab') (blockOf x) x.1.2 :=
      ⟨hdataOff, hscaleOff, rfl, rfl, slab', List.getElem?_set_self hlt, hdata, hscales⟩
    have hothers : ∀ b (blob : CompressedKV R), Stored g slabs b blob → g.Apart b (blockOf x) →
        Stored g (slabs.set x.2 slab') b blob := by
      intro b blob hb hapart
      refine stored_set hb hslab fun hl m n hm hn => hframe m n ?_
      rcases hapart hl with hbefore | hafter
      · exact .inl (Nat.le_trans hn (end_mul_le hbefore))
      · exact .inr (Nat.le_trans (end_mul_le hafter) hm)
    have hrest : Writable g xs (slabs.set x.2 slab') := by
      refine ⟨fun slab hmem => ?_, fun y hy => ?_, fun y hy => h.placed y (List.mem_cons_of_mem _ hy),
        fun y hy => h.inside y (List.mem_cons_of_mem _ hy), hxs⟩
      · rcases List.mem_or_eq_of_mem_set hmem with hmem | rfl
        · exact h.slab slab hmem
        · exact hlen'.trans (h.slab _ (List.getElem_mem hlt))
      · rw [List.length_set]
        exact h.layer y (List.mem_cons_of_mem _ hy)
    obtain ⟨slabs', hwrites, hw⟩ := ih hrest
    have hapart : ∀ y ∈ xs, g.Apart (blockOf x) (blockOf y) := fun y hy => hx _ (List.mem_map_of_mem hy)
    refine ⟨slabs', by rw [writeSlabs, hwrite]; exact hwrites, hw.length.trans List.length_set, hw.slab,
      fun y hy => ?_, fun b blob hb hbx => ?_⟩
    · rcases List.mem_cons.1 hy with rfl | hy
      · exact hw.frame _ _ hown hapart
      · exact hw.stored y hy
    · exact hw.frame b blob (hothers b blob hb (hbx x List.mem_cons_self)) fun y hy => hbx y (List.mem_cons_of_mem _ hy)

end Slabs

/-! ### The partition -/

/-- The spans of the live entries on a layer and its free list are a partition of its blocks. -/
structure Partitioned (g : Geometry) (s : CompressedVRAMPool K R F) (layer : Nat) : Prop where
  free : (s.freeOn layer).Nodup
  apart : (s.liveOn layer).Pairwise fun b b' => List.Disjoint (g.blockSpan b) (g.blockSpan b')
  used : ∀ b ∈ s.liveOn layer, List.Disjoint (g.blockSpan b) (s.freeOn layer)
  blocks : ∀ x, (x ∈ s.freeOn layer ∨ ∃ b ∈ s.liveOn layer, x ∈ g.blockSpan b) ↔ x < g.blocksPerLayer
  inside : ∀ b ∈ s.liveOn layer, b.blockId * g.blockBytes +
    (b.dataBytes + b.scaleBytes + g.blockBytes - 1) / g.blockBytes * g.blockBytes ≤ g.bytesPerLayer

theorem holders_pos_iff : 0 < g.holders s.live layer x ↔ ∃ b ∈ s.liveOn layer, x ∈ g.blockSpan b := by
  rw [Geometry.holders, List.countP_pos_iff]
  simp only [decide_eq_true_eq]
  simp only [mem_liveOn, Geometry.Covers, and_assoc]

theorem Owns.partitioned (h : Owns g s []) (hlayer : layer < g.numLayers) : Partitioned g s layer := by
  have howned := h.owned layer hlayer
  have happly := h.apart
  rw [List.append_nil] at howned happly
  have hle : ∀ x, (s.freeOn layer).count x + g.holders s.live layer x ≤ 1 := by
    intro x
    rw [howned]
    split_ifs <;> omega
  refine ⟨?_, ?_, ?_, ?_, ?_⟩
  · exact List.nodup_iff_count_le_one.2 fun x => Nat.le_trans (Nat.le_add_right _ _) (hle x)
  · refine (happly.filter _).imp_of_mem fun {b b'} hb hb' hapart x hx hx' => ?_
    obtain ⟨-, hl⟩ := mem_liveOn.1 hb
    obtain ⟨-, hl'⟩ := mem_liveOn.1 hb'
    rw [Geometry.blockSpan, mem_span] at hx hx'
    rcases hapart (hl.trans hl'.symm) with hbefore | hafter
    · omega
    · omega
  · intro b hb
    obtain ⟨hlive, rfl⟩ := mem_liveOn.1 hb
    exact h.used (List.mem_append_left _ hlive)
  · intro x
    have hx := howned x
    rw [← List.count_pos_iff, ← holders_pos_iff]
    split_ifs at hx with hlt
    · exact iff_of_true (by omega) hlt
    · exact iff_of_false (by omega) hlt
  · intro b hb
    have hend := h.end_le (List.mem_append_left _ (mem_liveOn.1 hb).1)
    calc _ ≤ b.blockId * g.blockBytes + g.blocksOf b * g.blockBytes :=
          Nat.add_le_add_left (Nat.mul_le_mul_right _ (Nat.le_max_right _ _)) _
      _ = (b.blockId + g.blocksOf b) * g.blockBytes := (Nat.add_mul ..).symm
      _ ≤ g.blocksPerLayer * g.blockBytes := Nat.mul_le_mul_right _ hend
      _ ≤ g.bytesPerLayer := Geometry.blocksPerLayer_mul_le

/-! ### Operations -/

theorem mem_inFlight {x : (Slot × CompressedKV R) × Nat} (hx : x ∈ allocation.zipIdx) :
    blockOf x ∈ s.live ++ (bs ++ inFlight allocation) :=
  List.mem_append_right _ (List.mem_append_right _ (List.mem_map_of_mem hx))

theorem Owns.writable (h : Owns g s (bs ++ inFlight allocation)) (hplaced : Placed g allocation) :
    Writable g allocation.zipIdx s.slabs where
  slab := h.slab
  layer := fun x hx => h.slabs ▸ h.layer (blockOf x) (mem_inFlight hx)
  placed := fun x hx => hplaced x.1 (by
    obtain ⟨-, -, hx₁⟩ := List.mem_zipIdx hx
    exact hx₁ ▸ List.getElem_mem _)
  inside := fun x hx => h.end_le (b := blockOf x) (mem_inFlight hx)
  apart := (List.pairwise_append.1 (List.pairwise_append.1 h.apart).2.1).2.1

theorem Owns.clear (h : Owns g s bs) : Owns g (clear g s) bs := by
  have hrelease : CompressedVRAMPool.clear g s = releaseBlocks g { s with index := Table.empty } s.live := by
    rw [releaseBlocks_setIndex, live, releaseBlocks, List.foldl_flatMap]
    rfl
  have hempty : Owns g { s with index := Table.empty } (s.live ++ bs) :=
    h.regroup rfl rfl (List.Perm.refl _) fun e he => absurd he Table.notMem_empty
  rw [hrelease]
  exact hempty.release

section Operations

variable [DecidableEq K]

theorem Owns.insert {slabs : List (List Byte)} {e : PoolEntry K R F} {tick : Nat}
    (h : Owns g s (bs ++ inFlight allocation)) (hw : Written g allocation.zipIdx s.slabs slabs)
    (hnew : s.index.find e.prefixHash = none) (hblocks : e.blocks = inFlight allocation)
    (hblobs : e.blobs = allocation.map Prod.snd) :
    Owns g { s with slabs := slabs, index := s.index.insertOrReplace e, tick := tick } bs := by
  have hlive : ((s.index.insertOrReplace e).rows.flatMap PoolEntry.blocks ++ bs).Perm
      (s.live ++ (bs ++ inFlight allocation)) := by
    rw [Table.rows_insertOrReplace hnew, List.flatMap_append, List.flatMap_singleton, hblocks, List.append_assoc]
    exact List.perm_append_comm.append_left _
  refine ⟨h.lists, hw.length.trans h.slabs, hw.slab, fun b hb => ?_, fun layer hlayer x => ?_, fun e' he' => ?_⟩
  · exact h.layer b (hlive.subset hb)
  · rw [live, Geometry.holders, hlive.countP_eq]
    exact h.owned layer hlayer x
  · rcases Table.mem_insertOrReplace.1 he' with rfl | ⟨hold, -⟩
    · have hsnd : allocation.map Prod.snd = allocation.zipIdx.map fun x => x.1.2 := by
        have hfst := congrArg (List.map Prod.snd) (List.zipIdx_map_fst 0 allocation)
        rw [List.map_map] at hfst
        exact hfst.symm
      rw [hblocks, hblobs, hsnd, inFlight, List.forall₂_map_left_iff, List.forall₂_map_right_iff, List.forall₂_same]
      exact hw.stored
    · obtain ⟨hlen, hstored⟩ := List.forall₂_iff_zip.1 (h.stored e' hold)
      refine List.forall₂_iff_zip.2 ⟨hlen, fun {b blob} hmem => hw.frame b blob (hstored hmem) fun x hx => ?_⟩
      exact (List.pairwise_append.1 h.apart).2.2 b (mem_live.2 ⟨e', hold, (List.of_mem_zip hmem).1⟩) _
        (List.mem_append_right _ (List.mem_map_of_mem hx))

theorem find_remove (prefixHash : K) : (s.remove g prefixHash).2.index.find prefixHash = none := by
  unfold CompressedVRAMPool.remove
  cases hfind : s.index.find prefixHash with
  | none => exact hfind
  | some e =>
    dsimp only
    rw [index_releaseEntry, pop, Table.find_deleteWhere, hfind, Option.filter_eq_none_iff]
    intro e' he'
    cases he'
    simpa using (Table.find_eq_some_iff.1 hfind).2

theorem Owns.get (h : Owns g s bs) (env : PoolEnv F) (prefixHash : K) : Owns g (get env s prefixHash).2 bs := by
  unfold CompressedVRAMPool.get
  cases s.index.find prefixHash with
  | none => exact h
  | some e =>
    dsimp only
    refine h.regroup rfl rfl (List.Perm.of_eq ?_) fun e' he' => ?_
    · dsimp only [live, Table.updateWhere]
      rw [List.flatMap_map]
      refine congrArg (List.flatMap · s.index.rows ++ bs) (funext fun e' => ?_)
      split_ifs <;> rfl
    · dsimp only at he'
      rw [Table.mem_updateWhere] at he'
      rcases he' with ⟨hold, -⟩ | ⟨e₀, hold, -, rfl⟩
      · exact ⟨e', hold, rfl, rfl⟩
      · exact ⟨e₀, hold, rfl, rfl⟩

variable [FloatArith F] {rounds : Nat}

theorem sub_evictOne (hevict : evictOne env g s = (found, s')) : ∀ e ∈ s'.index, e ∈ s.index := by
  obtain ⟨-, rfl⟩ | ⟨entry, -, rfl⟩ := evictOne_cases hevict
  · exact fun _ he => he
  · rw [index_releaseEntry]
    exact fun e he => (Table.mem_deleteWhere.1 he).1

theorem length_evictOne (hevict : evictOne env g s = (true, s')) :
    s'.index.rows.length + 1 = s.index.rows.length := by
  obtain ⟨hfalse, -⟩ | ⟨entry, hentry, rfl⟩ := evictOne_cases hevict
  · cases hfalse
  · rw [index_releaseEntry]
    exact (Table.perm_deleteWhere hentry).length_eq.symm

theorem sub_allocOrEvict {found : Option Nat}
    (halloc : allocOrEvict env g layer needed rounds s = some (found, s')) : ∀ e ∈ s'.index, e ∈ s.index := by
  fun_induction CompressedVRAMPool.allocOrEvict env g layer needed rounds s with
  | case1 rounds s hnone => cases halloc
  | case2 rounds s start s₁ hspan =>
    cases halloc
    exact fun e he => index_allocSpan hspan ▸ he
  | case3 rounds s s₁ hspan s₂ hevict =>
    cases halloc
    exact fun e he => index_allocSpan hspan ▸ sub_evictOne hevict e he
  | case4 s s₁ hspan s₂ hevict =>
    cases halloc
    exact fun e he => index_allocSpan hspan ▸ sub_evictOne hevict e he
  | case5 s s₁ hspan s₂ rounds hevict ih =>
    exact fun e he => index_allocSpan hspan ▸ sub_evictOne hevict e (ih halloc e he)

theorem sub_allocate : ∀ e ∈ (allocate env g blobs allocation s).2.index, e ∈ s.index := by
  fun_induction CompressedVRAMPool.allocate env g blobs allocation s with
  | case1 => exact fun _ he => he
  | case2 => exact fun _ he => he
  | case3 allocation s blob blobs s₁ hsearch =>
    rw [rollBack_eq, releaseBlocks_index]
    exact sub_allocOrEvict hsearch
  | case4 allocation s blob blobs start s₁ hsearch dataOff ih =>
    exact fun e he => sub_allocOrEvict hsearch e (ih e he)

/-- A put with at most one blob for each layer does not raise, and keeps the blocks in flight as they were. -/
theorem Owns.put (h : Owns g s bs) (env : PoolEnv F) (prefixHash : K) (blobs : List (CompressedKV R))
    (numTokens : Nat) (savingsMs : F) : ∃ bs', Owns g (put env g s prefixHash blobs numTokens savingsMs).2 bs' ∧
      (blobs.length ≤ g.numLayers → bs' = bs ∧ (put env g s prefixHash blobs numTokens savingsMs).1 ≠ none) := by
  have hstart : Owns g (s.remove g prefixHash).2 (bs ++ inFlight ([] : List (Slot × CompressedKV R))) :=
    (List.append_nil bs).symm ▸ h.remove prefixHash
  have hok := hstart.allocate (fun p hp => absurd hp List.not_mem_nil) env blobs
  -- no entry with this hash is left, and evictions add none
  have hfind : (CompressedVRAMPool.allocate env g blobs [] (s.remove g prefixHash).2).2.index.find prefixHash = none := by
    refine Option.eq_none_iff_forall_not_mem.2 fun e he => ?_
    obtain ⟨hmem, hkey⟩ := Table.find_eq_some_iff.1 he
    cases (find_remove (g := g) prefixHash).symm.trans (Table.find_eq_some_iff.2 ⟨sub_allocate e hmem, hkey⟩)
  unfold CompressedVRAMPool.put
  generalize CompressedVRAMPool.allocate env g blobs [] (s.remove g prefixHash).2 = res at hok hfind
  obtain ⟨outcome, s₁⟩ := res
  cases outcome with
  | indexError =>
    obtain ⟨hlen, lost, h₁⟩ := hok
    exact ⟨lost, h₁, fun hle => absurd hle (Nat.not_le.2 hlen)⟩
  | full => exact ⟨bs, hok, fun _ => ⟨rfl, Option.some_ne_none _⟩⟩
  | done allocation =>
    obtain ⟨h₁, hplaced, -⟩ := hok
    obtain ⟨slabs, hwrite, hw⟩ := writeSlabs_spec (h₁.writable hplaced)
    dsimp only
    rw [hwrite]
    exact ⟨bs, h₁.insert hw hfind rfl rfl, fun _ => ⟨rfl, Option.some_ne_none _⟩⟩

theorem Owns.put_of_le (h : Owns g s bs) (hlen : blobs.length ≤ g.numLayers)
    (env : PoolEnv F) (prefixHash : K) (numTokens : Nat) (savingsMs : F) :
    Owns g (CompressedVRAMPool.put env g s prefixHash blobs numTokens savingsMs).2 bs := by
  obtain ⟨bs', h', hle⟩ := h.put env prefixHash blobs numTokens savingsMs
  exact (hle hlen).1 ▸ h'

theorem Owns.step (h : Owns g s []) (env : PoolEnv F) (op : Op K R F) (hop : op.layers ≤ g.numLayers) :
    Owns g (step env g s op) [] := by
  cases op with
  | putFromRaw prefixHash blobs numTokens savingsMs => exact h.put_of_le hop env ..
  | putFromVllm prefixHash blobs nTokens savingsMs =>
    rw [CompressedVRAMPool.step, putFromVllm]
    split_ifs
    · exact h
    · exact h.put_of_le hop env ..
  | get prefixHash => exact h.get env prefixHash
  | delete prefixHash => exact h.remove prefixHash
  | clear => exact h.clear
  | evictOne => exact h.evicted rfl

theorem Owns.run (h : Owns g s []) (env : PoolEnv F) (ops : List (Op K R F))
    (hops : ∀ op ∈ ops, op.layers ≤ g.numLayers) : Owns g (run env g s ops) [] := by
  induction ops generalizing s with
  | nil => exact h
  | cons op ops ih =>
    exact ih (h.step env op (hops op List.mem_cons_self)) fun op' hop' => hops op' (List.mem_cons_of_mem _ hop')

/-- In every run of a pool whose puts have at most one blob for each layer, the slabs are partitioned and hold the
blobs of the live entries. -/
theorem slabs_partitioned (env : PoolEnv F) (g : Geometry) (fresh : Nat → Nat → Byte) (ops : List (Op K R F))
    (hops : ∀ op ∈ ops, op.layers ≤ g.numLayers) :
    (∀ layer < g.numLayers, Partitioned g (run env g (init g fresh) ops) layer) ∧
      ∀ e ∈ (run env g (init g fresh) ops).index,
        List.Forall₂ (Stored g (run env g (init g fresh) ops).slabs) e.blocks e.blobs := by
  have h := (owns_init fresh).run env ops hops
  exact ⟨fun layer hlayer => h.partitioned hlayer, h.stored⟩

end Operations

/-! ### What an operation leaves in the index -/

section Entries

variable [DecidableEq K] [FloatArith F] {e : PoolEntry K R F} {k : K}

def Op.puts : Op K R F → Option K
  | putFromRaw prefixHash _ _ _ => some prefixHash
  | putFromVllm prefixHash _ _ _ => some prefixHash
  | _ => none

theorem allocate_done {allocation' : List (Slot × CompressedKV R)}
    (h : (allocate env g blobs allocation s).1 = .done allocation') :
    allocation'.map Prod.snd = allocation.map Prod.snd ++ blobs := by
  fun_induction allocate env g blobs allocation s with
  | case1 =>
    cases h
    exact (List.append_nil _).symm
  | case2 => cases h
  | case3 => cases h
  | case4 allocation s blob blobs start s₁ hsearch dataOff ih =>
    have hrest := ih h
    rwa [List.map_append, List.map_singleton, List.append_assoc, List.singleton_append] at hrest

omit [FloatArith F] in
theorem mem_remove (he : e ∈ (s.remove g k).2.index) : e ∈ s.index ∧ e.prefixHash ≠ k := by
  refine ⟨?_, fun hk => ?_⟩
  · unfold remove at he
    split at he
    · exact he
    · rw [index_releaseEntry] at he
      exact (Table.mem_deleteWhere.1 he).1
  · cases (find_remove (g := g) (s := s) k).symm.trans (Table.find_eq_some_iff.2 ⟨he, hk⟩)

theorem mem_put {numTokens : Nat} {savingsMs : F} (he : e ∈ (put env g s k blobs numTokens savingsMs).2.index) :
    (e.prefixHash = k ∧ e.blobs = blobs ∧ e.numTokens = numTokens ∧ e.avgSavingsMs = savingsMs) ∨
      (e ∈ s.index ∧ e.prefixHash ≠ k) := by
  have hold : ∀ e ∈ (allocate env g blobs [] (s.remove g k).2).2.index, e ∈ s.index ∧ e.prefixHash ≠ k :=
    fun e he => mem_remove (sub_allocate e he)
  have hdone := @allocate_done K R F g env (s.remove g k).2 [] blobs _ _
  unfold put at he
  generalize allocate env g blobs [] (s.remove g k).2 = res at he hold hdone
  obtain ⟨outcome, s₁⟩ := res
  cases outcome with
  | indexError => exact .inr (hold e he)
  | full => exact .inr (hold e he)
  | done allocation =>
    dsimp only at he
    split at he
    · exact .inr (hold e he)
    · rcases Table.mem_insertOrReplace.1 he with rfl | ⟨hmem, -⟩
      · exact .inl ⟨rfl, hdone rfl, rfl, rfl⟩
      · exact .inr (hold e hmem)

omit [FloatArith F] in
theorem mem_get (he : e ∈ (get env s k).2.index) : ∃ e₀ ∈ s.index,
    e₀.prefixHash = e.prefixHash ∧ e₀.blobs = e.blobs ∧ e₀.avgSavingsMs = e.avgSavingsMs := by
  unfold get at he
  cases hfind : s.index.find k with
  | none =>
    rw [hfind] at he
    exact ⟨e, he, rfl, rfl, rfl⟩
  | some entry =>
    rw [hfind] at he
    dsimp only at he
    rw [Table.mem_updateWhere] at he
    rcases he with ⟨hold, -⟩ | ⟨e₀, hold, -, rfl⟩
    · exact ⟨e, hold, rfl, rfl, rfl⟩
    · exact ⟨e₀, hold, rfl, rfl, rfl⟩

theorem mem_step {op : Op K R F} (he : e ∈ (step env g s op).index) (hop : op.puts ≠ some e.prefixHash) :
    ∃ e₀ ∈ s.index, e₀.prefixHash = e.prefixHash ∧ e₀.blobs = e.blobs := by
  cases op with
  | putFromRaw prefixHash blobs numTokens savingsMs =>
    rcases mem_put he with ⟨hk, -⟩ | ⟨hold, -⟩
    · exact absurd (congrArg some hk.symm) hop
    · exact ⟨e, hold, rfl, rfl⟩
  | putFromVllm prefixHash blobs nTokens savingsMs =>
    rw [step, putFromVllm] at he
    split_ifs at he
    · exact ⟨e, he, rfl, rfl⟩
    · rcases mem_put he with ⟨hk, -⟩ | ⟨hold, -⟩
      · exact absurd (congrArg some hk.symm) hop
      · exact ⟨e, hold, rfl, rfl⟩
  | get prefixHash =>
    obtain ⟨e₀, he₀, hk, hblobs, -⟩ := mem_get he
    exact ⟨e₀, he₀, hk, hblobs⟩
  | delete prefixHash => exact ⟨e, (mem_remove he).1, rfl, rfl⟩
  | clear => exact absurd he Table.notMem_empty
  | evictOne => exact ⟨e, sub_evictOne rfl e he, rfl, rfl⟩

theorem mem_run {ops : List (Op K R F)} (he : e ∈ (run env g s ops).index)
    (hops : ∀ op ∈ ops, op.puts ≠ some e.prefixHash) :
    ∃ e₀ ∈ s.index, e₀.prefixHash = e.prefixHash ∧ e₀.blobs = e.blobs := by
  induction ops generalizing s with
  | nil => exact ⟨e, he, rfl, rfl⟩
  | cons op ops ih =>
    obtain ⟨e₁, he₁, hk, hblobs⟩ := ih he fun op' hop' => hops op' (List.mem_cons_of_mem _ hop')
    obtain ⟨e₀, he₀, hk₀, hblobs₀⟩ := mem_step he₁ (by rw [hk]; exact hops op List.mem_cons_self)
    exact ⟨e₀, he₀, hk₀.trans hk, hblobs₀.trans hblobs⟩

end Entries

section Demo

def demoGeometry : Geometry := ⟨2, 9, 2, Nat.two_pos⟩

def demoPoolEnv : PoolEnv Frac := ⟨⟨3, 10⟩, ⟨4, 10⟩, ⟨1, 10⟩, ⟨2, 10⟩, id, ⟨-1, 1⟩⟩

def demoBlob (n : Nat) : CompressedKV Unit := ⟨List.replicate n 1#8, some [2#8], ()⟩

def demoPuts : List (Op Nat Unit Frac) :=
  [.putFromRaw 1 [demoBlob 2, demoBlob 4] 1 ⟨0, 1⟩, .putFromVllm 2 [demoBlob 1, demoBlob 3] 1 ⟨0, 1⟩]

theorem slabs_partitioned_after_eviction :
    (run demoPoolEnv demoGeometry (init demoGeometry fun _ _ => 0) demoPuts).index.rows.map PoolEntry.prefixHash = [2] ∧
      Partitioned demoGeometry (run demoPoolEnv demoGeometry (init demoGeometry fun _ _ => 0) demoPuts) 1 :=
  ⟨by decide, (slabs_partitioned demoPoolEnv demoGeometry (fun _ _ => 0) demoPuts (by decide)).1 1 (by decide)⟩

end Demo

end CompressedVRAMPool

end Korith.Vllm
