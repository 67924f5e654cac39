import Korith.Lib.Python
import Korith.Proofs.PoolPartition
import Korith.Vllm.PoolRestore

/-!
# Whether a restore from the pool restores what it reports

The rows of an entry are scattered over the blocks of the table, as far as both go, and the count that is returned is
the one of the entry. The row of a slot (`Rows.placed`) is the one at the last position of the block in the table, and
the slot within it is the slot itself or, if the row was broadcast, another one.
-/

namespace Korith.Vllm

variable {K R F X Y : Type} {blockTable : List Nat} {l l' : KvLayer X} {n b i j p : Nat}

/-! ### The property and the condition -/

namespace Rows

def token (p : Nat) : Rows Y → Option Y
  | tokens xs => xs[p]?
  | blocks size rows => (rows[p / size]?).bind fun row => if h : p % size < size then some (row ⟨p % size, h⟩) else none

def placed (blockSize nBlocks i j : Nat) : Rows Y → Option Y
  | tokens xs =>
    let start := 512 * (i / 512)
    xs[start + if min (start + 512) nBlocks - start = blockSize then j else 0]?
  | blocks size rows => (rows[i]?).bind fun row =>
    let j' := if size = blockSize then j else 0
    if h : j' < size then some (row ⟨j', h⟩) else none

end Rows

/-- What is left of a key and a value in a cache: if it is not stacked, the value is written over the key. -/
def seen (stacked : Bool) (kv : X × X) : X × X := (if stacked then kv.1 else kv.2, kv.2)

/-- Token `p` is placed in its own slot, by what is written there last. -/
def Lands (blockTable : List Nat) (src : Rows (X × X)) (l : KvLayer X) (p : Nat) : Prop :=
  p / l.blockSize < blocksWritten blockTable src ∧ ∃ kv, src.token p = some kv ∧
    ∀ b i, blockTable[p / l.blockSize]? = some b → LastAt (blockTable.take (blocksWritten blockTable src)) b i →
      (src.placed l.blockSize (blocksWritten blockTable src) i (p % l.blockSize)).map (seen l.stacked) = some kv

namespace Source

def numLayers : Source X → Nat
  | vllm gpuCache _ _ => gpuCache.length
  | stacked _ layers => layers.length
  | lmcache _ _ layers => layers.length
  | probe _ _ _ => 1

def Restored (source : Source X) (blockTable : List Nat) (n : Nat) (gpuCache : List (KvLayer X)) : Prop :=
  ∀ i l, gpuCache[i]? = some l → ∀ p < n, ∃ kv, source.saved i p = some kv ∧ l.slot blockTable p = some kv

def Landing (source : Source X) (blockTable : List Nat) (n : Nat) (gpuCache : List (KvLayer X)) : Prop :=
  ∀ tensors ∈ source.tensors, ∀ (i : Nat) l src, gpuCache[i]? = some l → tensors[i]? = some src →
    ∀ p < n, Lands blockTable src l p

end Source

def Untouched (blockTable : List Nat) (gpuCache gpuCache' : List (KvLayer X)) : Prop :=
  List.Forall₂ (fun l l' => ∀ b, b ∉ blockTable → ∀ j, l'.read b j = l.read b j) gpuCache gpuCache'

/-! ### Broadcasting -/

namespace Rows

variable {src : Rows Y} {blockSize start stop : Nat} {rows : List (Fin blockSize → Y)}

theorem slice_map (f : Y → X) : (src.map f).slice start stop = (src.slice start stop).map f := by
  cases src with
  | tokens xs => simp only [map, slice, List.map_drop, List.map_take]
  | blocks size rows => simp [map, slice]

theorem broadcast_map (f : Y → X) :
    (src.map f).broadcast blockSize = (src.broadcast blockSize).map fun rows => rows.map fun row => f ∘ row := by
  cases src with
  | tokens xs =>
    simp only [map, broadcast, List.length_map]
    split_ifs with hsize hone
    · simp only [Option.map_some, List.map_replicate]
      congr 2
      funext j
      simp
    · simp only [Option.map_some, List.map_singleton]
      congr 2
      funext j
      simp
    · rfl
  | blocks size rows =>
    simp only [map, broadcast]
    split_ifs
    · simp only [Option.map_some, List.map_map]
      rfl
    · simp only [Option.map_some, List.map_map]
      rfl
    · rfl

theorem broadcast_slice {c : Nat} (hn : n ≤ src.count)
    (h : (src.slice (512 * c) (min (512 * c + 512) n)).broadcast blockSize = some rows) :
    rows.length = min (512 * c + 512) n - 512 * c ∧
      ∀ k row, rows[k]? = some row → ∀ hj : j < blockSize,
        src.placed blockSize n (512 * c + k) j = some (row ⟨j, hj⟩) := by
  cases src with
  | tokens xs =>
    have hlen : ((xs.drop (512 * c)).take (min (512 * c + 512) n - 512 * c)).length =
        min (512 * c + 512) n - 512 * c := by
      rw [List.length_take, List.length_drop]
      have : n ≤ xs.length := hn
      omega
    simp only [slice, broadcast] at h
    split_ifs at h with hsize hone
    · cases h
      refine ⟨by rw [List.length_replicate, hlen], fun k row hk hj => ?_⟩
      obtain ⟨hlt, rfl⟩ := List.getElem?_eq_some_iff.1 hk
      rw [List.length_replicate, hlen] at hlt
      have hstart : (512 * c + k) / 512 = c := by omega
      simp only [placed, hstart, List.getElem_replicate]
      rw [if_pos (by rw [← hlen, hsize])]
      simp only [List.get_eq_getElem, List.getElem_take, List.getElem_drop, Fin.val_cast]
      exact List.getElem?_eq_getElem _
    · cases h
      refine ⟨by rw [List.length_singleton, ← hlen, hone], fun k row hk hj => ?_⟩
      obtain ⟨hlt, rfl⟩ := List.getElem?_eq_some_iff.1 hk
      obtain rfl : k = 0 := Nat.lt_one_iff.1 hlt
      have hstart : (512 * c + 0) / 512 = c := by omega
      simp only [placed, hstart, List.getElem_singleton]
      rw [if_neg (by rw [← hlen]; exact hsize)]
      simp only [List.get_eq_getElem, List.getElem_take, List.getElem_drop]
      exact List.getElem?_eq_getElem _
  | blocks size rows₀ =>
    have hlen : ((rows₀.drop (512 * c)).take (min (512 * c + 512) n - 512 * c)).length =
        min (512 * c + 512) n - 512 * c := by
      rw [List.length_take, List.length_drop]
      have : n ≤ rows₀.length := hn
      omega
    have hrow : ∀ (f : (Fin size → Y) → Fin blockSize → Y) k row,
        (((rows₀.drop (512 * c)).take (min (512 * c + 512) n - 512 * c)).map f)[k]? = some row →
          ∃ row₀, rows₀[512 * c + k]? = some row₀ ∧ f row₀ = row := by
      intro f k row hk
      rw [List.getElem?_map, List.getElem?_take, List.getElem?_drop] at hk
      split_ifs at hk
      · exact Option.map_eq_some_iff.1 hk
      · cases hk
    simp only [slice, broadcast] at h
    split_ifs at h with hsize hone
    · cases h
      refine ⟨by rw [List.length_map, hlen], fun k row hk hj => ?_⟩
      obtain ⟨row₀, hrow₀, rfl⟩ := hrow _ k row hk
      subst hsize
      simp only [placed, hrow₀, Option.bind_some, if_true, dif_pos hj]
      rfl
    · cases h
      refine ⟨by rw [List.length_map, hlen], fun k row hk hj => ?_⟩
      obtain ⟨row₀, hrow₀, rfl⟩ := hrow _ k row hk
      subst hone
      simp only [placed, hrow₀, Option.bind_some, if_neg hsize, dif_pos Nat.one_pos]

theorem token_eq_none (h : (src.slice start stop).broadcast blockSize = some rows)
    (hcount : src.count ≤ p / blockSize) : src.token p = none := by
  have hle : p / blockSize ≤ p := Nat.div_le_self p blockSize
  cases src with
  | tokens xs => exact List.getElem?_eq_none (Nat.le_trans hcount hle)
  | blocks size rows₀ =>
    simp only [slice, broadcast] at h
    have hcount : rows₀.length ≤ p / blockSize := hcount
    split_ifs at h with hsize hone
    · subst hsize
      rw [token, List.getElem?_eq_none hcount, Option.bind_none]
    · subst hone
      rw [token, Nat.div_one, List.getElem?_eq_none (Nat.le_trans hcount hle), Option.bind_none]

theorem token_of_count_zero (h : src.count = 0) : src.token p = none := by
  cases src with
  | tokens xs => exact List.getElem?_eq_none (by rw [show xs.length = 0 from h]; exact Nat.zero_le p)
  | blocks size rows₀ =>
    rw [token, List.getElem?_eq_none (by rw [show rows₀.length = 0 from h]; exact Nat.zero_le _), Option.bind_none]

end Rows

/-! ### One chunk -/

def KvLayer.overwrite (l : KvLayer X) (ids : List Nat) (rows : List (Fin l.blockSize → X × X)) : KvLayer X :=
  { l with
    keys := setAll (ids.zip (rows.map fun row j => (seen l.stacked (row j)).1)) l.keys
    values := if l.stacked then setAll (ids.zip (rows.map fun row j => (row j).2)) l.values else l.values }

variable {src : Rows (X × X)} {rows : List (Fin l.blockSize → X × X)} {ids : List Nat} {c : Nat}

theorem scatterBlocks_eq_some {src blocks blocks' : List Y} (h : scatterBlocks ids src blocks = some blocks') :
    (∀ i ∈ ids, i < blocks.length) ∧ blocks' = setAll (ids.zip src) blocks := by
  unfold scatterBlocks at h
  split_ifs at h with hids
  exact ⟨hids, (Option.some.inj h).symm⟩

theorem restoreChunk_spec (hn : n ≤ src.count) (hn' : n ≤ blockTable.length)
    (h : restoreChunk blockTable src n (512 * c) l = some l') :
    ∃ rows, (src.slice (512 * c) (min (512 * c + 512) n)).broadcast l.blockSize = some rows ∧
      (∀ b ∈ (blockTable.drop (512 * c)).take (min (512 * c + 512) n - 512 * c),
        b < l.kAll.length ∧ b < l.vAll.length) ∧
      l' = l.overwrite ((blockTable.drop (512 * c)).take (min (512 * c + 512) n - 512 * c)) rows := by
  unfold restoreChunk at h
  obtain ⟨k, hk, h⟩ := Option.bind_eq_some_iff.1 h
  obtain ⟨kAll, hkAll, h⟩ := Option.bind_eq_some_iff.1 h
  obtain ⟨v, hv, h⟩ := Option.bind_eq_some_iff.1 h
  obtain ⟨vAll, hvAll, h⟩ := Option.bind_eq_some_iff.1 h
  cases h
  rw [Rows.slice_map, Rows.broadcast_map] at hk hv
  obtain ⟨rows, hrows, rfl⟩ := Option.map_eq_some_iff.1 hk
  obtain ⟨rows', hrows', rfl⟩ := Option.map_eq_some_iff.1 hv
  obtain rfl : rows = rows' := Option.some.inj (hrows.symm.trans hrows')
  obtain ⟨hkIds, rfl⟩ := scatterBlocks_eq_some hkAll
  obtain ⟨hvIds, rfl⟩ := scatterBlocks_eq_some hvAll
  have hlen := (Rows.broadcast_slice (j := 0) hn hrows).1
  generalize hids : (blockTable.drop (512 * c)).take (min (512 * c + 512) n - 512 * c) = ids at hkIds hvIds ⊢
  have hids' : ids.length = rows.length := by
    rw [hlen, ← hids, List.length_take, List.length_drop]
    omega
  refine ⟨rows, hrows, fun b hb => ⟨hkIds b hb, ?_⟩, ?_⟩
  · have hb' := hvIds b hb
    cases hstacked : l.stacked with
    | true =>
      simp only [KvLayer.vAll, KvLayer.setK, hstacked, if_true] at hb' ⊢
      exact hb'
    | false =>
      simp only [KvLayer.vAll, hstacked]
      exact hkIds b hb
  · cases l with
    | mk blockSize pos stacked keys values =>
      cases stacked with
      | true => rfl
      | false =>
        -- the values go over the keys
        simp only [KvLayer.setV, KvLayer.setK, KvLayer.vAll, KvLayer.kAll, KvLayer.overwrite]
        simp only [Bool.false_eq_true, if_false]
        rw [scatter_scatter (by rw [List.length_map]; exact hids')]
        rfl

theorem KvLayer.read_overwrite_eq : (l.overwrite ids rows).read b j =
      slotOf (setAll (ids.zip (rows.map fun row j => (seen l.stacked (row j)).1)) l.kAll)
        (setAll (ids.zip (rows.map fun row j => (seen l.stacked (row j)).2)) l.vAll) b j := by
  cases l with
  | mk blockSize pos stacked keys values =>
    cases stacked with
    | true => rfl
    | false => rfl

theorem KvLayer.read_overwrite {row : Fin l.blockSize → X × X}
    (hlast : LastAt ids b i) (hlen : ids.length = rows.length) (hb : b < l.kAll.length ∧ b < l.vAll.length)
    (hrow : rows[i]? = some row) (hj : j < l.blockSize) :
    (l.overwrite ids rows).read b j = some (seen l.stacked (row ⟨j, hj⟩)) := by
  rw [KvLayer.read_overwrite_eq, slotOf, dif_pos hj, getElem?_scatter hlast (by rwa [List.length_map]) hb.1,
    getElem?_scatter hlast (by rwa [List.length_map]) hb.2, List.getElem?_map, List.getElem?_map, hrow]
  rfl

theorem KvLayer.read_overwrite_of_notMem (hb : b ∉ ids) : (l.overwrite ids rows).read b j = l.read b j := by
  rw [KvLayer.read_overwrite_eq, KvLayer.read, slotOf, slotOf, getElem?_scatter_of_notMem hb,
    getElem?_scatter_of_notMem hb]

/-! ### A layer -/

structure Written (blockTable : List Nat) (src : Rows (X × X)) (n m : Nat) (l l' : KvLayer X) : Prop where
  blockSize : l'.blockSize = l.blockSize
  stacked : l'.stacked = l.stacked
  placed : ∀ b i, LastAt (blockTable.take m) b i → ∀ j < l.blockSize,
    l'.read b j = (src.placed l.blockSize n i j).map (seen l.stacked)
  others : ∀ b, b ∉ blockTable.take m → ∀ j, l'.read b j = l.read b j

theorem Written.zero : Written blockTable src n 0 l l := by
  refine ⟨rfl, rfl, fun b i h => ?_, fun _ _ _ => rfl⟩
  rw [List.take_zero] at h
  cases h.mem

theorem Written.chunk {l'' : KvLayer X} (hn : n ≤ src.count) (hn' : n ≤ blockTable.length)
    (hc : 512 * c ≤ n) (hw : Written blockTable src n (512 * c) l l')
    (h : restoreChunk blockTable src n (512 * c) l' = some l'') :
    Written blockTable src n (min (512 * c + 512) n) l l'' := by
  obtain ⟨rows, hrows, hrange, rfl⟩ := restoreChunk_spec hn hn' h
  obtain ⟨hlen, hplaced⟩ : _ ∧ ∀ j k row, _ := ⟨(Rows.broadcast_slice (j := 0) hn hrows).1,
    fun j => (Rows.broadcast_slice (j := j) hn hrows).2⟩
  have htable : blockTable.take (min (512 * c + 512) n) = blockTable.take (512 * c) ++
      (blockTable.drop (512 * c)).take (min (512 * c + 512) n - 512 * c) := by
    rw [← List.take_add, Nat.add_sub_cancel' (by omega)]
  have hids : ((blockTable.drop (512 * c)).take (min (512 * c + 512) n - 512 * c)).length = rows.length := by
    rw [hlen, List.length_take, List.length_drop]
    omega
  have hbefore : (blockTable.take (512 * c)).length = 512 * c := by
    rw [List.length_take]
    omega
  refine ⟨hw.blockSize, hw.stacked, fun b i hlast j hj => ?_, fun b hb j => ?_⟩
  · rw [htable] at hlast
    rcases lastAt_append_cases hlast with ⟨hold, hnot⟩ | ⟨k, rfl, hnew⟩
    · rw [KvLayer.read_overwrite_of_notMem hnot]
      exact hw.placed b i hold j hj
    · have hk : k < rows.length := hids ▸ hnew.lt
      have hj' : j < l'.blockSize := by rwa [hw.blockSize]
      rw [KvLayer.read_overwrite hnew hids (hrange b hnew.mem) (List.getElem?_eq_getElem hk) hj', hbefore,
        ← hw.blockSize, hplaced j k _ (List.getElem?_eq_getElem hk) hj', hw.stacked]
      rfl
  · rw [htable, List.mem_append, not_or] at hb
    rw [KvLayer.read_overwrite_of_notMem hb.2]
    exact hw.others b hb.1 j

theorem restoreChunks_written (hn : n ≤ src.count) (hn' : n ≤ blockTable.length)
    (hc : c ≤ (n + 511) / 512) (h : restoreChunks blockTable src n c l = some l') :
    Written blockTable src n (min (512 * c) n) l l' := by
  induction c generalizing l' with
  | zero =>
    cases h
    rw [Nat.mul_zero, Nat.zero_min]
    exact .zero
  | succ c ih =>
    obtain ⟨l₁, hl₁, h⟩ := Option.bind_eq_some_iff.1 h
    have hle : 512 * c ≤ n := by omega
    have hw := ih (by omega) hl₁
    rw [Nat.min_eq_left hle] at hw
    exact hw.chunk hn hn' hle h

theorem restoreRows_written (h : restoreRows blockTable src l = some l') :
    Written blockTable src (blocksWritten blockTable src) (blocksWritten blockTable src) l l' := by
  have hw := restoreChunks_written (n := blocksWritten blockTable src) (Nat.min_le_right _ _) (Nat.min_le_left _ _)
    (Nat.le_refl _) h
  rwa [Nat.min_eq_right (by omega)] at hw

theorem restoreChunks_broadcast (h : restoreChunks blockTable src n (c + 1) l = some l') :
    ∃ rows, (src.slice 0 (min 512 n)).broadcast l.blockSize = some rows := by
  induction c generalizing l' with
  | zero =>
    obtain ⟨l₁, hl₁, h⟩ := Option.bind_eq_some_iff.1 h
    cases hl₁
    obtain ⟨k, hk, -⟩ := Option.bind_eq_some_iff.1 h
    rw [Rows.slice_map, Rows.broadcast_map] at hk
    obtain ⟨rows, hrows, -⟩ := Option.map_eq_some_iff.1 hk
    rw [Nat.mul_zero, Nat.zero_add] at hrows
    exact ⟨rows, hrows⟩
  | succ c ih =>
    obtain ⟨l₁, hl₁, -⟩ := Option.bind_eq_some_iff.1 h
    exact ih hl₁

theorem restoreRows_lands_iff (h : restoreRows blockTable src l = some l') :
    (∃ kv, src.token p = some kv ∧ l'.slot blockTable p = some kv) ↔ Lands blockTable src l p := by
  have hw := restoreRows_written h
  have hmod : p % l.blockSize < l.blockSize := Nat.mod_lt p l.blockSize_pos
  have hslot : l'.slot blockTable p =
      (blockTable[p / l.blockSize]?).bind fun b => l'.read b (p % l.blockSize) := by
    rw [KvLayer.slot, hw.blockSize]
  rw [hslot]
  constructor
  · rintro ⟨kv, htoken, hread⟩
    obtain ⟨b, hb, hread⟩ := Option.bind_eq_some_iff.1 hread
    have hlt : p / l.blockSize < blockTable.length := (List.getElem?_eq_some_iff.1 hb).1
    refine ⟨Nat.lt_of_not_le fun hle => ?_, kv, htoken, fun b' i hb' hlast => ?_⟩
    · -- the rows end before the table does
      have hcount : src.count ≤ p / l.blockSize := by
        rw [blocksWritten] at hle
        omega
      have hnone : src.token p = none := by
        by_cases hzero : src.count = 0
        · exact Rows.token_of_count_zero hzero
        · have hchunks : (blocksWritten blockTable src + 511) / 512 = (blocksWritten blockTable src - 1) / 512 + 1 := by
            have : 0 < blocksWritten blockTable src := by
              rw [blocksWritten]
              omega
            omega
          rw [restoreRows, hchunks] at h
          obtain ⟨rows, hrows⟩ := restoreChunks_broadcast h
          exact Rows.token_eq_none hrows hcount
      rw [hnone] at htoken
      cases htoken
    · rw [hb] at hb'
      cases hb'
      rw [← hw.placed b i hlast _ hmod, hread]
  · rintro ⟨hlt, kv, htoken, hplaced⟩
    have hlen : p / l.blockSize < blockTable.length := Nat.lt_of_lt_of_le hlt (Nat.min_le_left _ _)
    have hb := List.getElem?_eq_getElem hlen
    have hmem : blockTable[p / l.blockSize] ∈ blockTable.take (blocksWritten blockTable src) := by
      rw [List.mem_iff_getElem?]
      exact ⟨p / l.blockSize, by rw [List.getElem?_take_of_lt hlt, hb]⟩
    obtain ⟨i, hlast⟩ := exists_lastAt hmem
    refine ⟨kv, htoken, ?_⟩
    rw [hb, Option.bind_some, hw.placed _ i hlast _ hmod]
    exact hplaced _ i hb hlast

/-! ### What was saved -/

theorem saveLayer_token (h : saveLayer blockTable l = some src) : src.token p = l.slot blockTable p := by
  unfold saveLayer at h
  split_ifs at h
  obtain ⟨kSeq, hk, h⟩ := Option.bind_eq_some_iff.1 h
  obtain ⟨vSeq, hv, h⟩ := Option.bind_eq_some_iff.1 h
  cases h
  have hmod : p % l.blockSize < l.blockSize := Nat.mod_lt p l.blockSize_pos
  have hrow : (List.zipWith (fun k v j => (k j, v j)) kSeq vSeq)[p / l.blockSize]? =
      (blockTable[p / l.blockSize]?).bind fun b => (l.kAll[b]?).bind fun k => (l.vAll[b]?).map fun v j => (k j, v j) := by
    rw [List.getElem?_zipWith, getElem?_mapM_eq_bind hk, getElem?_mapM_eq_bind hv]
    cases blockTable[p / l.blockSize]? with
    | none => rfl
    | some b =>
      rw [Option.bind_some, Option.bind_some, Option.bind_some]
      cases l.kAll[b]? with
      | none => rfl
      | some k => cases l.vAll[b]? <;> rfl
  rw [Rows.token, hrow, KvLayer.slot, Option.bind_assoc]
  congr 1
  funext b
  rw [KvLayer.read, slotOf, dif_pos hmod]
  cases l.kAll[b]? with
  | none => rfl
  | some k =>
    cases l.vAll[b]? with
    | none => rfl
    | some v => exact dif_pos hmod

namespace Source

variable {source : Source X} {tensors : List (Rows (X × X))}

theorem saved_eq (h : source.tensors = some tensors) : source.saved i p = (tensors[i]?).bind (Rows.token p) := by
  cases source with
  | vllm gpuCache blockTable nTokens =>
    rw [saved]
    cases hl : gpuCache[i]? with
    | none => rw [getElem?_mapM_eq_bind h, hl]; rfl
    | some l =>
      obtain ⟨src, hsrc, htensor⟩ := getElem?_of_mapM h hl
      rw [htensor, Option.bind_some, Option.bind_some, saveLayer_token hsrc]
  | stacked T layers =>
    cases h
    rw [saved, List.getElem?_map]
    cases layers[i]? with
    | none => rfl
    | some x => exact List.getElem?_ofFn.symm
  | lmcache nb bs layers =>
    cases h
    rw [saved, List.getElem?_map]
    cases layers[i]? with
    | none => rfl
    | some x => exact List.getElem?_ofFn.symm
  | probe nb bs single =>
    cases h
    rw [saved]
    cases i with
    | zero =>
      rw [List.getElem?_cons_zero, Option.bind_some, Rows.token, List.getElem?_ofFn]
      simp only [true_and]
      rfl
    | succ i => simp

theorem length_tensors (h : source.tensors = some tensors) : tensors.length = source.numLayers := by
  cases source with
  | vllm gpuCache blockTable nTokens => exact (forall₂_of_mapM h).length_eq.symm
  | stacked T layers =>
    cases h
    exact List.length_map _
  | lmcache nb bs layers =>
    cases h
    exact List.length_map _
  | probe nb bs single =>
    cases h
    rfl

end Source

/-! ### Entries -/

section Entries

variable [DecidableEq K] [FloatArith F] {env : PoolEnv F} {g : Geometry} {codec : Codec R X}
  {s : CompressedVRAMPool K R F} {prefixHash : K} {source : Source X} {entry : PoolEntry K R F}
  {tensors : List (Rows (X × X))}

open CompressedVRAMPool

/-- The entry is one that a call of `put_from_vllm` or `put_from_raw` has inserted; hits do not change its blobs. -/
def Inserted (env : PoolEnv F) (g : Geometry) (codec : Codec R X) (source : Source X) (entry : PoolEntry K R F) : Prop :=
  ∃ (s : CompressedVRAMPool K R F) (prefixHash : K) (savingsMs : F) (e : PoolEntry K R F),
    (s.putSource env g codec prefixHash source savingsMs).1 = some true ∧
      (s.putSource env g codec prefixHash source savingsMs).2.index.find prefixHash = some e ∧
      entry.blobs = e.blobs ∧ entry.numTokens = e.numTokens

theorem put_inserted {blobs : List (CompressedKV R)} {numTokens : Nat} {savingsMs : F}
    (he : (s.put env g prefixHash blobs numTokens savingsMs).2.index.find prefixHash = some entry) :
    entry.blobs = blobs ∧ entry.numTokens = numTokens := by
  obtain ⟨hmem, hkey⟩ := Table.find_eq_some_iff.1 he
  obtain ⟨-, hblobs, htokens, -⟩ | ⟨-, hother⟩ := mem_put hmem
  · exact ⟨hblobs, htokens⟩
  · exact absurd hkey hother

theorem Inserted.blobs (h : Inserted env g codec source entry) :
    ∃ tensors, source.tensors = some tensors ∧ entry.blobs = tensors.map codec.compress ∧
      entry.numTokens = source.numTokens := by
  obtain ⟨s, prefixHash, savingsMs, e, hput, hfind, hblobs, htokens⟩ := h
  unfold putSource at hput hfind
  cases htensors : source.tensors with
  | none =>
    rw [htensors] at hput
    cases hput
  | some tensors =>
    rw [htensors] at hput hfind
    refine ⟨tensors, rfl, ?_⟩
    rw [hblobs, htokens]
    cases source with
    | vllm gpuCache blockTable nTokens =>
      dsimp only [putFromVllm] at hput hfind
      split_ifs at hput hfind
      · cases hput
      · exact put_inserted hfind
    | stacked T layers => exact put_inserted hfind
    | lmcache nb bs layers => exact put_inserted hfind
    | probe nb bs single => exact put_inserted hfind

/-! ### All layers -/

theorem restoreBlobs_spec {gpuCache gpuCache' : List (KvLayer X)} (hlen : gpuCache.length = tensors.length)
    (h : restoreBlobs codec blockTable (tensors.map codec.compress) gpuCache = some gpuCache') :
    gpuCache'.length = gpuCache.length ∧ ∀ (i : Nat) l l' src, gpuCache[i]? = some l → gpuCache'[i]? = some l' →
      tensors[i]? = some src → restoreRows blockTable src l = some l' := by
  induction tensors generalizing gpuCache gpuCache' with
  | nil =>
    obtain rfl := List.length_eq_zero_iff.1 hlen
    cases h
    refine ⟨rfl, fun i l l' src hl => ?_⟩
    cases hl
  | cons src tensors ih =>
    cases gpuCache with
    | nil => cases hlen
    | cons l gpuCache =>
      obtain ⟨l', hl', h⟩ := Option.bind_eq_some_iff.1 h
      obtain ⟨ls', hls', h⟩ := Option.bind_eq_some_iff.1 h
      cases h
      obtain ⟨hlen', hrest⟩ := ih (Nat.succ.inj hlen) hls'
      rw [codec.lossless] at hl'
      refine ⟨congrArg Nat.succ hlen', fun i l₁ l₁' src₁ h₁ h₁' hsrc => ?_⟩
      cases i with
      | zero =>
        cases h₁
        cases h₁'
        cases hsrc
        exact hl'
      | succ i => exact hrest i l₁ l₁' src₁ h₁ h₁' hsrc

theorem restores_what_it_reports_iff {gpuCache gpuCache' : List (KvLayer X)}
    (hfind : s.index.find prefixHash = some entry) (hentry : Inserted env g codec source entry)
    (hlayers : gpuCache.length = source.numLayers)
    (hret : (s.restoreToVllm env codec prefixHash gpuCache blockTable).1 = some (n, gpuCache')) :
    source.Restored blockTable n gpuCache' ∧ Untouched blockTable gpuCache gpuCache' ↔
      source.Landing blockTable n gpuCache := by
  obtain ⟨tensors, htensors, hblobs, -⟩ := hentry.blobs
  have hlen : gpuCache.length = tensors.length := hlayers.trans (source.length_tensors htensors).symm
  have hrestore : restoreBlobs codec blockTable (tensors.map codec.compress) gpuCache = some gpuCache' := by
    rw [restoreToVllm, CompressedVRAMPool.get, hfind] at hret
    obtain ⟨ls, hls, heq⟩ := Option.map_eq_some_iff.1 hret
    cases heq
    rw [← hblobs]
    exact hls
  obtain ⟨hlen', hspec⟩ := restoreBlobs_spec hlen hrestore
  have hrow : ∀ (i : Nat) l l', gpuCache[i]? = some l → gpuCache'[i]? = some l' →
      ∃ src, tensors[i]? = some src ∧ restoreRows blockTable src l = some l' := by
    intro i l l' hl hl'
    have hi : i < tensors.length := hlen ▸ (List.getElem?_eq_some_iff.1 hl).1
    exact ⟨tensors[i], List.getElem?_eq_getElem hi, hspec i l l' _ hl hl' (List.getElem?_eq_getElem hi)⟩
  have huntouched : Untouched blockTable gpuCache gpuCache' := by
    refine List.forall₂_iff_get.2 ⟨hlen'.symm, fun i hi hi' b hb j => ?_⟩
    obtain ⟨src, -, hrows⟩ := hrow i _ _ (List.getElem?_eq_getElem hi) (List.getElem?_eq_getElem hi')
    exact (restoreRows_written hrows).others b (fun hmem => hb (List.mem_of_mem_take hmem)) j
  rw [and_iff_left huntouched]
  constructor
  · intro hrestored ts hts i l src hl hsrc p hp
    obtain rfl : ts = tensors := Option.some.inj (hts.symm.trans htensors)
    have hi : i < gpuCache'.length := hlen'.symm ▸ (List.getElem?_eq_some_iff.1 hl).1
    have hl' := List.getElem?_eq_getElem hi
    obtain ⟨kv, hsaved, hslot⟩ := hrestored i _ hl' p hp
    rw [Source.saved_eq htensors, hsrc] at hsaved
    exact (restoreRows_lands_iff (hspec i l _ src hl hl' hsrc)).1 ⟨kv, hsaved, hslot⟩
  · intro hlanding i l' hl' p hp
    have hi : i < gpuCache.length := hlen' ▸ (List.getElem?_eq_some_iff.1 hl').1
    have hl := List.getElem?_eq_getElem hi
    obtain ⟨src, hsrc, hrows⟩ := hrow i _ l' hl hl'
    obtain ⟨kv, htoken, hslot⟩ := (restoreRows_lands_iff hrows).2 (hlanding tensors htensors i _ src hl hsrc p hp)
    refine ⟨kv, ?_, hslot⟩
    rw [Source.saved_eq htensors, hsrc]
    exact htoken

/-! ### The regular case -/

theorem lands_of_blocks (hnodup : blockTable.Nodup) (hp : p / l.blockSize < min blockTable.length rows.length)
    (hseen : ∀ row ∈ rows, ∀ j, seen l.stacked (row j) = row j) :
    Lands blockTable (.blocks l.blockSize rows) l p := by
  have hmod : p % l.blockSize < l.blockSize := Nat.mod_lt p l.blockSize_pos
  have hrow := List.getElem?_eq_getElem (l := rows) (Nat.lt_of_lt_of_le hp (Nat.min_le_right _ _))
  refine ⟨hp, rows[p / l.blockSize] ⟨p % l.blockSize, hmod⟩, ?_, fun b i hb hlast => ?_⟩
  · rw [Rows.token, hrow, Option.bind_some, dif_pos hmod]
  · obtain rfl : i = p / l.blockSize := hlast.eq_of_nodup hnodup hb
    simp only [Rows.placed, hrow, Option.bind_some, if_true, dif_pos hmod, Option.map_some]
    rw [hseen _ (List.getElem_mem _)]

/-- What was saved from a cache of the same block size, as long as the tables have enough distinct blocks, and the values
do not go over other keys. -/
theorem landing_of_vllm {gpuCache₀ gpuCache : List (KvLayer X)} {blockTable₀ : List Nat}
    (hshape : List.Forall₂ (fun l₀ l => l₀.blockSize = l.blockSize ∧ (l₀.stacked = true → l.stacked = true))
      gpuCache₀ gpuCache)
    (hnodup : blockTable.Nodup)
    (hn : ∀ l ∈ gpuCache, n ≤ l.blockSize * min blockTable.length blockTable₀.length) :
    (Source.vllm gpuCache₀ blockTable₀ n).Landing blockTable n gpuCache := by
  intro tensors htensors i l src hl hsrc p hp
  have hi : i < gpuCache₀.length := hshape.length_eq ▸ (List.getElem?_eq_some_iff.1 hl).1
  obtain ⟨src', hsrc', htensor⟩ := getElem?_of_mapM htensors (List.getElem?_eq_getElem hi)
  obtain rfl : src = src' := Option.some.inj (hsrc.symm.trans htensor)
  obtain ⟨hi', rfl⟩ := List.getElem?_eq_some_iff.1 hl
  obtain ⟨hsize, hstacked⟩ := hshape.get hi hi'
  have hlt := hn _ (List.getElem_mem hi')
  simp only [List.get_eq_getElem] at hsize hstacked
  generalize gpuCache₀[i] = l₀ at hsrc' hsize hstacked
  generalize gpuCache[i] = l at hsize hstacked hlt ⊢
  unfold saveLayer at hsrc'
  split_ifs at hsrc'
  obtain ⟨kSeq, hk, hsrc'⟩ := Option.bind_eq_some_iff.1 hsrc'
  obtain ⟨vSeq, hv, hsrc'⟩ := Option.bind_eq_some_iff.1 hsrc'
  cases hsrc'
  have hseen : ∀ row ∈ List.zipWith (fun k v j => (k j, v j)) kSeq vSeq, ∀ j, seen l.stacked (row j) = row j := by
    cases h₀ : l₀.stacked with
    | true =>
      rw [hstacked h₀]
      exact fun _ _ _ => rfl
    | false =>
      have hall : l₀.vAll = l₀.kAll := by
        rw [KvLayer.vAll, h₀]
        rfl
      rw [hall, hk] at hv
      cases hv
      intro row hrow j
      rw [List.zipWith_self, List.mem_map] at hrow
      obtain ⟨k, -, rfl⟩ := hrow
      unfold seen
      split_ifs <;> rfl
  cases l with
  | mk blockSize pos stacked keys values =>
    cases hsize
    refine lands_of_blocks hnodup ?_ hseen
    have hlen₁ := (forall₂_of_mapM hk).length_eq
    have hlen₂ := (forall₂_of_mapM hv).length_eq
    rw [List.length_zipWith, ← hlen₁, ← hlen₂, Nat.min_self]
    exact Nat.div_lt_of_lt_mul (Nat.lt_of_lt_of_le hp hlt)

end Entries

/-! ### One-byte dtypes -/

section Dtypes

variable [DecidableEq K] [FloatArith F] {dtype : TorchDtype}

/-- The put succeeds, the restore at the same dtype returns a tensor, and it has the elements that were put. -/
def StoredRaw (env : PoolEnv F) (g : Geometry) (codecs : Codecs R X) (s : CompressedVRAMPool K R F) (prefixHash : K)
    (source : Source X) (dtype : TorchDtype) (format : Fmt) (savingsMs : F) : Prop :=
  (s.putOfDtype env g codecs prefixHash source dtype format savingsMs).1 = some true ∧
  ∃ layers, (s.putOfDtype env g codecs prefixHash source dtype format savingsMs).2.restoreToTensor env codecs prefixHash
    dtype = some (some layers) ∧ ∀ i p, (layers[i]?).bind (Rows.token p) = source.saved i p

variable (h : isAlreadyCompressed dtype = true)

include h

/-- The codec for them has only the float dtypes. -/
theorem compress_of_isAlreadyCompressed (codecs : Codecs R X)
    (rawKv : Rows (X × X)) : codecs.fp8E4M3Codec.compress dtype rawKv = none := by
  refine if_neg ?_
  cases dtype <;> revert h <;> decide

theorem compressLayers_raises (codecs : Codecs R X) {source : Source X}
    (hlayers : source.numLayers ≠ 0) (format : Fmt) : compressLayers codecs source dtype format = none := by
  unfold compressLayers
  cases htensors : source.tensors with
  | none => rfl
  | some tensors =>
    rw [← source.length_tensors htensors] at hlayers
    obtain _ | ⟨layer, layers⟩ := tensors
    · exact absurd rfl hlayers
    · simp [h, Codecs.getCodec, List.mapM_cons, compress_of_isAlreadyCompressed h]

theorem compressLayers_nil (codecs : Codecs R X) {source : Source X} {blobs : List (CompressedKV R)}
    (hlayers : source.numLayers = 0) {format : Fmt} (hblobs : compressLayers codecs source dtype format = some blobs) :
    blobs = [] := by
  unfold compressLayers at hblobs
  cases htensors : source.tensors with
  | none =>
    rw [htensors] at hblobs
    cases hblobs
  | some tensors =>
    obtain rfl := List.length_eq_zero_iff.1 ((source.length_tensors htensors).trans hlayers)
    rw [htensors] at hblobs
    simpa [h, Codecs.getCodec, eq_comm] using hblobs

theorem putOfDtype_raises (env : PoolEnv F) (g : Geometry) (codecs : Codecs R X)
    (s : CompressedVRAMPool K R F) (k : K) {source : Source X} (hlayers : source.numLayers ≠ 0) (format : Fmt) (ms : F) :
    s.putOfDtype env g codecs k source dtype format ms = (none, s) := by
  have hnone := compressLayers_raises h codecs hlayers format
  unfold CompressedVRAMPool.putOfDtype
  rw [hnone]
  cases source with
  | vllm gpuCache =>
    obtain _ | ⟨l, ls⟩ := gpuCache
    · exact absurd rfl hlayers
    · rfl
  | stacked => rfl
  | lmcache => rfl
  | probe => rfl

theorem putOfDtype_nil {codecs : Codecs R X} {s : CompressedVRAMPool K R F} {k : K} {source : Source X}
    (hlayers : source.numLayers = 0) {format : Fmt} {ms : F} {e : PoolEntry K R F}
    (hput : (s.putOfDtype env g codecs k source dtype format ms).1 = some true)
    (he : (s.putOfDtype env g codecs k source dtype format ms).2.index.find k = some e) : e.blobs = [] := by
  unfold CompressedVRAMPool.putOfDtype at hput he
  cases hblobs : compressLayers codecs source dtype format with
  | none =>
    rw [hblobs] at hput
    cases source with
    | vllm gpuCache => obtain _ | _ := gpuCache <;> cases hput
    | stacked => cases hput
    | lmcache => cases hput
    | probe => cases hput
  | some blobs =>
    obtain rfl := compressLayers_nil h codecs hlayers hblobs
    rw [hblobs] at hput he
    cases source with
    | vllm gpuCache =>
      obtain rfl := List.length_eq_zero_iff.1 hlayers
      cases hput
    | stacked => exact (put_inserted he).1
    | lmcache => exact (put_inserted he).1
    | probe => cases hlayers

omit h

/-- No tensor of a one-byte dtype is stored raw. If it has a layer, the put raises an exception and leaves the pool as it
was; if it has none, there is nothing that a restore could return. -/
theorem one_byte_never_stored (env : PoolEnv F) (g : Geometry) (codecs : Codecs R X) (s : CompressedVRAMPool K R F)
    (prefixHash : K) (source : Source X) (dtype : TorchDtype) (hdtype : isAlreadyCompressed dtype = true) (format : Fmt)
    (savingsMs : F) : ¬ StoredRaw env g codecs s prefixHash source dtype format savingsMs ∧
      (source.numLayers ≠ 0 → s.putOfDtype env g codecs prefixHash source dtype format savingsMs = (none, s)) := by
  have hraises : source.numLayers ≠ 0 → s.putOfDtype env g codecs prefixHash source dtype format savingsMs = (none, s) :=
    fun hlayers => putOfDtype_raises hdtype env g codecs s prefixHash hlayers format savingsMs
  refine ⟨?_, hraises⟩
  rintro ⟨hput, layers, hrestore, -⟩
  by_cases hlayers : source.numLayers = 0
  · unfold CompressedVRAMPool.restoreToTensor CompressedVRAMPool.get at hrestore
    split at hrestore
    · cases hrestore
    · next entry hget =>
      cases hfind : (s.putOfDtype env g codecs prefixHash source dtype format savingsMs).2.index.find prefixHash with
      | none =>
        rw [hfind] at hget
        cases hget
      | some e =>
        rw [hfind] at hget
        cases hget
        -- a hit does not change the blobs, and no layers cannot be stacked
        have hblobs : e.blobs = [] := putOfDtype_nil hdtype hlayers hput hfind
        simp [PoolEntry.hit, hblobs, stack] at hrestore
  · rw [hraises hlayers] at hput
    cases hput

end Dtypes

/-! ### Two entries -/

def keepCodec : Codec (Rows (Nat × Nat)) Nat := ⟨fun t => ⟨[], none, t⟩, CompressedKV.rest, fun _ => rfl⟩

def smallGeometry : Geometry := ⟨1, 2, 1, Nat.one_pos⟩

def smallEnv : PoolEnv Frac := ⟨⟨0, 1⟩, ⟨0, 1⟩, ⟨0, 1⟩, ⟨0, 1⟩, fun tick => tick, ⟨-1, 1⟩⟩

def holding (source : Source Nat) : CompressedVRAMPool Nat (Rows (Nat × Nat)) Frac :=
  ((CompressedVRAMPool.init smallGeometry fun _ _ => 0#8).putSource smallEnv smallGeometry keepCodec 0 source ⟨0, 1⟩).2

def numbered (k v : Nat → Nat) : KvLayer Nat :=
  ⟨2, Nat.two_pos, true, [fun j => k j.val, fun j => k (2 + j.val)], [fun j => v j.val, fun j => v (2 + j.val)]⟩

/-- The blocks 1 and 0 of a sequence are restored into the blocks 0 and 1. -/
theorem restores_what_it_reports_swap : let source := Source.vllm [numbered (· + 1) (· + 11)] [1, 0] 4
    ∃ gpuCache', ((holding source).restoreToVllm smallEnv keepCodec 0 [numbered (fun _ => 0) fun _ => 0] [0, 1]).1 =
        some (4, gpuCache') ∧
      source.Restored [0, 1] 4 gpuCache' ∧ Untouched [0, 1] [numbered (fun _ => 0) fun _ => 0] gpuCache' := by
  intro source
  have hsome : (((holding source).restoreToVllm smallEnv keepCodec 0 [numbered (fun _ => 0) fun _ => 0] [0, 1]).1.map
      Prod.fst) = some 4 := by
    decide +kernel
  obtain ⟨⟨n, gpuCache'⟩, hret, hn⟩ := Option.map_eq_some_iff.1 hsome
  obtain rfl : n = 4 := hn
  have hfound : ((holding source).index.find 0).isSome = true := by
    decide +kernel
  obtain ⟨entry, hentry⟩ := Option.isSome_iff_exists.1 hfound
  have hinserted : Inserted smallEnv smallGeometry keepCodec source entry :=
    ⟨.init smallGeometry fun _ _ => 0#8, 0, ⟨0, 1⟩, entry, by decide +kernel, hentry, rfl, rfl⟩
  have hlayers : [numbered (fun _ => 0) fun _ => 0].length = source.numLayers := rfl
  refine ⟨gpuCache', hret, (restores_what_it_reports_iff hentry hinserted hlayers hret).2 ?_⟩
  refine landing_of_vllm (.cons ⟨rfl, fun _ => rfl⟩ .nil) (by decide) fun l hl => ?_
  obtain rfl := List.mem_singleton.1 hl
  decide

/-- Two blocks of two tokens that come as a tensor are put into the two blocks of a table: both get the first two tokens,
and four are reported. -/
theorem restores_other_tokens :
    let source := Source.lmcache 2 2 [fun i j => (2 * i.val + j.val, 10 + (2 * i.val + j.val))]
    ∃ gpuCache', ((holding source).restoreToVllm smallEnv keepCodec 0 [numbered (fun _ => 0) fun _ => 0] [0, 1]).1 =
        some (4, gpuCache') ∧ ¬ source.Restored [0, 1] 4 gpuCache' := by
  intro source
  have hsome : (((holding source).restoreToVllm smallEnv keepCodec 0 [numbered (fun _ => 0) fun _ => 0] [0, 1]).1.map
      fun r => (r.1, r.2.map fun l => l.slot [0, 1] 2)) = some (4, [some (0, 10)]) := by
    decide +kernel
  obtain ⟨⟨n, gpuCache'⟩, hret, heq⟩ := Option.map_eq_some_iff.1 hsome
  obtain ⟨rfl, hslots⟩ := Prod.mk.inj heq
  refine ⟨gpuCache', hret, fun hrestored => ?_⟩
  obtain ⟨l, rfl, hslot⟩ := List.map_eq_singleton_iff.1 hslots
  obtain ⟨kv, hsaved, hslot'⟩ := hrestored 0 l rfl 2 (by decide)
  rw [hslot] at hslot'
  rw [← hslot'] at hsaved
  exact absurd hsaved (by decide)

def keepCodecs : Codecs (Rows (Nat × Nat)) Nat :=
  ⟨fun _ => .fp8E4m3, fun _ t => ⟨[], none, t⟩, fun _ => CompressedKV.rest, fun _ => none⟩

theorem one_byte_never_stored_int8 :
    let s : CompressedVRAMPool Nat (Rows (Nat × Nat)) Frac := .init smallGeometry fun _ _ => 0#8
    s.putOfDtype smallEnv smallGeometry keepCodecs 0 (.stacked 1 [fun _ => (5, 6)]) .int8 .int4Sym ⟨0, 1⟩ = (none, s) :=
  (one_byte_never_stored smallEnv smallGeometry keepCodecs _ 0 (.stacked 1 [fun _ => (5, 6)]) .int8 rfl .int4Sym
    ⟨0, 1⟩).2 one_ne_zero

/-- One token of one-byte values, and the same token of half precision. -/
theorem one_byte_not_stored :
    let s : CompressedVRAMPool Nat (Rows (Nat × Nat)) Frac := .init smallGeometry fun _ _ => 0#8
    let put := fun dtype => s.putOfDtype smallEnv smallGeometry keepCodecs 0 (.stacked 1 [fun _ => (5, 6)]) dtype .fp8E4m3 ⟨0, 1⟩
    (put .uint8).1 = none ∧ ((put .uint8).2.restoreToTensor smallEnv keepCodecs 0 .uint8).map Option.isSome = some false ∧
      (put .float16).1 = some true := by
  decide

end Korith.Vllm
