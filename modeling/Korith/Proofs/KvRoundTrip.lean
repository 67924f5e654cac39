import Korith.Lib.Scatter
import Korith.Proofs.KvSnapshot

/-!
# Saving blocks and restoring them elsewhere

The payload of a snapshot holds the keys and values of the layers one after the other, and the table says where. So a
restore cuts out again what the save has gathered for each layer (`At`), and scatters it over the blocks of another
table.
-/

namespace Korith.Vllm

variable {m : Manager} {P : List Int} {bt bt' : List Nat} {gpuCache gpuCache' : List LayerCache} {fs fs' : Files}
  {writeFails tokFails : Bool} {l l' r : LayerCache} {payload : List Byte} {info : LayerInfo}
  {kvs : List (List Byte × List Byte)} {blob row : List Byte} {blocks seq : List (List Byte)}

/-! ### The property -/

/-- A stacked tensor `[2, num_blocks, heads, block_size, dim]`. -/
structure LayerCache.Stacked (l : LayerCache) : Prop where
  stacked : l.stacked = true
  keys : ∀ b ∈ l.keys, b.length = l.blockBytes
  values : ∀ b ∈ l.values, b.length = l.blockBytes
  numBlocks : l.values.length = l.keys.length
  elementSize_dvd : l.dtype.elementSize ∣ l.blockBytes

theorem LayerCache.Stacked.vAll (hl : l.Stacked) : l.vAll = l.values := by
  rw [LayerCache.vAll, hl.stacked]
  rfl

/-- What `l` had in the blocks of `bt` is in the blocks of `bt'`; the others are those of `l'`. -/
structure Transferred (bt bt' : List Nat) (l l' r : LayerCache) : Prop where
  moved : ∀ (i b b' : Nat), bt[i]? = some b → bt'[i]? = some b' → r.keys[b']? = l.keys[b]? ∧ r.values[b']? = l.values[b]?
  others : ∀ b, b ∉ bt' → r.keys[b]? = l'.keys[b]? ∧ r.values[b]? = l'.values[b]?

/-! ### What is in a snapshot -/

theorem slices_layerInfos {total : Nat} (h : At payload total (kvs.flatMap fun kv => kv.1 ++ kv.2)) :
    List.Forall₂ (fun kv info => slice payload info.kOff info.kSz = kv.1 ∧ slice payload info.vOff info.vSz = kv.2 ∧
      info.kSz = kv.1.length ∧ info.vSz = kv.2.length) kvs (layerInfos total kvs) := by
  induction kvs generalizing total with
  | nil => exact .nil
  | cons kv kvs ih =>
    rw [List.flatMap_cons] at h
    refine .cons ⟨h.left.left.slice, h.left.right.slice, rfl, rfl⟩ (ih ?_)
    rw [← List.length_append]
    exact h.right

theorem readInfo_at {i : Nat} (h : At blob (headerSize + i * layerSize) row)
    (hrow : structPack [(8, info.kOff), (8, info.kSz), (8, info.vOff), (8, info.vSz)] = some row) :
    readInfo blob i = info := by
  obtain ⟨hfit, rfl⟩ := structPack_eq_some hrow
  obtain ⟨rest, hrest⟩ := h.drop
  have hunpack := unpackFields_packFields _ hfit rest
  rw [readInfo, hrest]
  simp only [List.map_cons, List.map_nil] at hunpack
  rw [layerWidths, hunpack]

theorem length_row (hrow : structPack [(8, info.kOff), (8, info.kSz), (8, info.vOff), (8, info.vSz)] = some row) :
    row.length = layerSize := by
  rw [(structPack_eq_some hrow).2, length_packFields]
  rfl

theorem buildBlob_reads {key : Key} {nTokens : Nat} {sample : LayerCache}
    (h : buildBlob key nTokens sample kvs = some blob) :
    (List.range kvs.length).map (readInfo blob) = layerInfos 0 kvs ∧
      blob.drop (headerSize + kvs.length * layerSize) = kvs.flatMap fun kv => kv.1 ++ kv.2 := by
  obtain ⟨header, hheader, h⟩ := Option.bind_eq_some_iff.1 h
  obtain ⟨table, htable, h⟩ := Option.bind_eq_some_iff.1 h
  cases h
  have hrows := forall₂_of_mapM htable
  have hheader : header.length = headerSize := by
    rw [(structPack_eq_some hheader).2, length_packFields]
    rfl
  have htableLen := length_table hrows
  rw [length_layerInfos] at htableLen
  have hall : At (header ++ table.flatten ++ kvs.flatMap fun kv => kv.1 ++ kv.2) headerSize table.flatten :=
    ⟨header, _, hheader, rfl⟩
  constructor
  · refine List.ext_getElem (by rw [List.length_map, List.length_range, length_layerInfos]) fun i hi hi' => ?_
    have hi'' : i < table.length := hrows.length_eq ▸ hi'
    have hlen : ∀ row ∈ table, row.length = layerSize := by
      intro row hrow
      obtain ⟨k, hk, rfl⟩ := List.getElem_of_mem hrow
      exact length_row (hrows.get (hrows.length_eq ▸ hk) hk)
    rw [List.getElem_map, List.getElem_range]
    exact readInfo_at (hall.piece hlen hi'') (hrows.get hi' hi'')
  · refine List.drop_left' ?_
    rw [List.length_append, hheader, htableLen]

/-! ### One layer -/

theorem gather_of_lt (h : ∀ b ∈ bt, b < blocks.length) :
    ∃ target, gather bt blocks = some target ∧ target.length = bt.length := by
  induction bt with
  | nil => exact ⟨[], rfl, rfl⟩
  | cons b bt ih =>
    obtain ⟨hb, hbt⟩ := List.forall_mem_cons.1 h
    obtain ⟨target, htarget, hlen⟩ := ih hbt
    refine ⟨blocks[b] :: target, ?_, congrArg Nat.succ hlen⟩
    rw [gather] at htarget ⊢
    rw [List.mapM_cons, List.getElem?_eq_getElem hb, htarget]
    rfl

theorem lt_of_gather (h : gather bt blocks = some seq) : ∀ b ∈ bt, b < blocks.length := by
  intro b hb
  obtain ⟨i, hi⟩ := List.mem_iff_getElem?.1 hb
  obtain ⟨x, hx, -⟩ := getElem?_of_mapM h hi
  exact (List.getElem?_eq_some_iff.1 hx).1

theorem length_gathered {n : Nat} (hblocks : ∀ b ∈ blocks, b.length = n)
    (h : gather bt blocks = some seq) : seq.length = bt.length ∧ ∀ b ∈ seq, b.length = n := by
  have hall := forall₂_of_mapM h
  refine ⟨hall.length_eq.symm, fun b hb => ?_⟩
  obtain ⟨i, hi, rfl⟩ := List.getElem_of_mem hb
  exact hblocks _ (List.mem_of_getElem? (hall.get (hall.length_eq ▸ hi) hi))

theorem length_flatten_uniform {n : Nat} (h : ∀ b ∈ seq, b.length = n) : seq.flatten.length = seq.length * n := by
  induction seq with
  | nil => rw [List.flatten_nil, List.length_nil, List.length_nil, Nat.zero_mul]
  | cons b seq ih =>
    obtain ⟨hb, hseq⟩ := List.forall_mem_cons.1 h
    rw [List.flatten_cons, List.length_append, hb, ih hseq, List.length_cons, Nat.succ_mul, Nat.add_comm]

theorem readBlocks_flatten (hbt : ∀ b ∈ bt, b < blocks.length)
    (hlen : seq.length = bt.length) (hseq : ∀ b ∈ seq, b.length = l.blockBytes) (hne : seq.flatten ≠ [])
    (hdvd : l.dtype.elementSize ∣ l.blockBytes) : readBlocks l bt blocks seq.flatten = some seq := by
  obtain ⟨target, htarget, htargetLen⟩ := gather_of_lt hbt
  have hflat := length_flatten_uniform hseq
  rw [readBlocks, htarget]
  show (if _ then none else some _) = some seq
  rw [if_neg]
  · congr 1
    refine List.ext_getElem (by rw [List.length_map, List.length_range, htargetLen, hlen]) fun i hi hi' => ?_
    rw [List.getElem_map, List.getElem_range]
    have hat := (At.all seq.flatten).piece hseq hi'
    have hslice := hat.slice
    rwa [Nat.zero_add, hseq _ (List.getElem_mem hi')] at hslice
  · rintro (hnil | hmod | hsize)
    · exact hne hnil
    · rw [hflat] at hmod
      exact hmod (Nat.mod_eq_zero_of_dvd (Dvd.dvd.mul_left hdvd _))
    · exact hsize (by rw [hflat, htargetLen, hlen])

def LayerCache.scattered (l : LayerCache) (bt : List Nat) (k v : List (List Byte)) : LayerCache :=
  (l.setK (scatter bt k l.kAll)).setV (scatter bt v (l.setK (scatter bt k l.kAll)).vAll)

theorem restoreLayer_eq (hinfo : ¬ (info.kSz = 0 ∧ info.vSz = 0)) (hbt : bt ≠ []) : restoreLayer bt payload l info =
      (readBlocks l bt l.kAll (slice payload info.kOff info.kSz)).bind fun k =>
        (readBlocks l bt l.vAll (slice payload info.vOff info.vSz)).map (l.scattered bt k) := by
  rw [restoreLayer, if_neg hinfo, if_neg hbt]
  show (readBlocks l bt l.kAll (slice payload info.kOff info.kSz)).bind _ = _
  congr 1
  funext k
  show (readBlocks l bt l.vAll (slice payload info.vOff info.vSz)).bind _ = _
  cases readBlocks l bt l.vAll (slice payload info.vOff info.vSz) <;> rfl

theorem scatter_moved {blocks₀ : List (List Byte)} {i b b' : Nat} (hseq : gather bt blocks₀ = some seq)
    (hlen : bt.length = bt'.length) (hnodup : bt'.Nodup) (hb : bt[i]? = some b) (hb' : bt'[i]? = some b')
    (hrange : ∀ b ∈ bt', b < blocks.length) : (scatter bt' seq blocks)[b']? = blocks₀[b]? := by
  have hlast : LastAt bt' b' i := .of_nodup hnodup hb'
  have hseqLen : bt'.length = seq.length := by
    rw [← hlen, (forall₂_of_mapM hseq).length_eq]
  have hget : (scatter bt' seq blocks)[b']? = seq[i]? := getElem?_scatter hlast hseqLen (hrange b' hlast.mem)
  rw [hget, getElem?_mapM_eq_bind hseq, hb, Option.bind_some]

theorem restoreLayer_saved {ks vs : List (List Byte)} (hl : l.Stacked) (hl' : l'.Stacked)
    (hbytes : l'.blockBytes = l.blockBytes) (hlen : bt.length = bt'.length) (hpos : bt ≠ [])
    (hnodup : bt'.Nodup) (hrange : ∀ b ∈ bt', b < l'.keys.length)
    (hks : gather bt l.keys = some ks) (hvs : gather bt l.values = some vs)
    (hk : slice payload info.kOff info.kSz = ks.flatten ∧ info.kSz = ks.flatten.length)
    (hv : slice payload info.vOff info.vSz = vs.flatten ∧ info.vSz = vs.flatten.length) :
    ∃ r, restoreLayer bt' payload l' info = some r ∧ Transferred bt bt' l l' r := by
  obtain ⟨hksLen, hksBlocks⟩ := length_gathered hl.keys hks
  obtain ⟨hvsLen, hvsBlocks⟩ := length_gathered hl.values hvs
  have hkFlat := length_flatten_uniform hksBlocks
  have hvFlat := length_flatten_uniform hvsBlocks
  have hbtPos : 0 < bt.length := List.length_pos_iff.2 hpos
  have hrange' : ∀ b ∈ bt', b < l'.values.length := by
    rw [hl'.numBlocks]
    exact hrange
  by_cases hzero : l.blockBytes = 0
  · refine ⟨l', ?_, ⟨fun i b b' hb hb' => ?_, fun _ _ => ⟨rfl, rfl⟩⟩⟩
    · rw [restoreLayer, if_pos]
      rw [hk.2, hv.2, hkFlat, hvFlat, hzero]
      exact ⟨Nat.mul_zero _, Nat.mul_zero _⟩
    · -- blocks without bytes are all the same
      have hempty : ∀ {blocks : List (List Byte)} {i : Nat}, (∀ x ∈ blocks, x.length = 0) → i < blocks.length →
          blocks[i]? = some [] := by
        intro blocks i hblocks hi
        rw [List.getElem?_eq_getElem hi, List.length_eq_zero_iff.1 (hblocks _ (List.getElem_mem hi))]
      obtain ⟨k, hkb, -⟩ := getElem?_of_mapM hks hb
      obtain ⟨v, hvb, -⟩ := getElem?_of_mapM hvs hb
      have hmem := List.mem_of_getElem? hb'
      have hkeys := hl.keys
      have hvalues := hl.values
      have hkeys' := hl'.keys
      have hvalues' := hl'.values
      rw [hzero] at hkeys hvalues
      rw [hbytes, hzero] at hkeys' hvalues'
      rw [hempty hkeys (List.getElem?_eq_some_iff.1 hkb).1, hempty hvalues (List.getElem?_eq_some_iff.1 hvb).1,
        hempty hkeys' (hrange b' hmem), hempty hvalues' (hrange' b' hmem)]
      exact ⟨rfl, rfl⟩
  · have hne : ∀ {seq : List (List Byte)}, seq.flatten.length = seq.length * l.blockBytes → seq.length = bt.length →
        seq.flatten ≠ [] := by
      intro seq hflat hseq hnil
      rw [hnil, hseq] at hflat
      exact absurd hflat (Nat.ne_of_lt (Nat.mul_pos hbtPos (Nat.pos_of_ne_zero hzero)))
    have hinfo : ¬ (info.kSz = 0 ∧ info.vSz = 0) := by
      rintro ⟨hkz, -⟩
      rw [hk.2] at hkz
      exact hne hkFlat hksLen (List.length_eq_zero_iff.1 hkz)
    have hbt' : bt' ≠ [] := List.ne_nil_of_length_pos (hlen ▸ hbtPos)
    have hkAll : l'.kAll = l'.keys := rfl
    rw [← hbytes] at hksBlocks hvsBlocks
    refine ⟨l'.scattered bt' ks vs, ?_, ?_⟩
    · rw [restoreLayer_eq hinfo hbt', hk.1, hv.1, hkAll, hl'.vAll,
        readBlocks_flatten hrange (hksLen.trans hlen) hksBlocks (hne hkFlat hksLen) hl'.elementSize_dvd, Option.bind_some,
        readBlocks_flatten hrange' (hvsLen.trans hlen) hvsBlocks (hne hvFlat hvsLen) hl'.elementSize_dvd, Option.map_some]
    · have hkeys : (l'.scattered bt' ks vs).keys = scatter bt' ks l'.keys := by
        simp [LayerCache.scattered, LayerCache.setV, LayerCache.setK, LayerCache.kAll, hl'.stacked]
      have hvalues : (l'.scattered bt' ks vs).values = scatter bt' vs l'.values := by
        simp [LayerCache.scattered, LayerCache.setV, LayerCache.setK, LayerCache.vAll, hl'.stacked]
      refine ⟨fun i b b' hb hb' => ?_, fun b hb => ?_⟩
      · rw [hkeys, hvalues]
        exact ⟨scatter_moved hks hlen hnodup hb hb' hrange, scatter_moved hvs hlen hnodup hb hb' hrange'⟩
      · rw [hkeys, hvalues]
        exact ⟨getElem?_scatter_of_notMem hb, getElem?_scatter_of_notMem hb⟩

/-! ### All layers -/

theorem restoreLayers_saved {infos : List LayerInfo}
    (hl : ∀ l ∈ gpuCache, l.Stacked) (hl' : ∀ l ∈ gpuCache', l.Stacked)
    (hbytes : List.Forall₂ (fun l l' => l'.blockBytes = l.blockBytes) gpuCache gpuCache')
    (hlen : bt.length = bt'.length) (hpos : bt ≠ []) (hnodup : bt'.Nodup)
    (hrange : ∀ l ∈ gpuCache', ∀ b ∈ bt', b < l.keys.length) (hkvs : collect bt gpuCache = some kvs)
    (hinfos : List.Forall₂ (fun kv info => slice payload info.kOff info.kSz = kv.1 ∧
      slice payload info.vOff info.vSz = kv.2 ∧ info.kSz = kv.1.length ∧ info.vSz = kv.2.length) kvs infos) :
    ∃ restored, restoreLayers bt' payload gpuCache' infos = (true, restored) ∧
      restored.length = gpuCache.length ∧ ∀ (i : Nat) l l' r, gpuCache[i]? = some l → gpuCache'[i]? = some l' →
        restored[i]? = some r → Transferred bt bt' l l' r := by
  induction hbytes generalizing kvs infos with
  | nil =>
    refine ⟨[], rfl, rfl, fun i l l' r h => ?_⟩
    cases h
  | @cons l l' ls ls' hb _ ih =>
    obtain ⟨hl₀, hls⟩ := List.forall_mem_cons.1 hl
    obtain ⟨hl₀', hls'⟩ := List.forall_mem_cons.1 hl'
    obtain ⟨hr₀, hrs⟩ := List.forall_mem_cons.1 hrange
    rw [collect, List.mapM_cons] at hkvs
    obtain ⟨kv, hkv, hkvs⟩ := Option.bind_eq_some_iff.1 hkvs
    obtain ⟨kvs', hkvs', heq⟩ := Option.bind_eq_some_iff.1 hkvs
    cases heq
    rw [Option.ite_none_left_eq_some, if_neg hpos] at hkv
    obtain ⟨ks, hks, hkv⟩ := Option.bind_eq_some_iff.1 hkv.2
    obtain ⟨vs, hvs, hkv⟩ := Option.bind_eq_some_iff.1 hkv
    cases hkv
    rw [hl₀.vAll] at hvs
    cases hinfos with
    | @cons _ info _ infos hinfo hinfos =>
      obtain ⟨hk, hv, hkSz, hvSz⟩ := hinfo
      obtain ⟨r, hr, htransfer⟩ :=
        restoreLayer_saved hl₀ hl₀' hb hlen hpos hnodup hr₀ hks hvs ⟨hk, hkSz⟩ ⟨hv, hvSz⟩
      obtain ⟨rs, hrs', hrsLen, hall⟩ := ih hls hls' hrs hkvs' hinfos
      refine ⟨r :: rs, ?_, congrArg Nat.succ hrsLen, fun i l₁ l₁' r₁ h₁ h₁' hr₁ => ?_⟩
      · rw [restoreLayers, hr]
        dsimp only
        rw [hrs']
      · cases i with
        | zero =>
          cases h₁
          cases h₁'
          cases hr₁
          exact htransfer
        | succ i => exact hall i l₁ l₁' r₁ h₁ h₁' hr₁

theorem save_restore_round_trip (hl : ∀ l ∈ gpuCache, l.Stacked) (hl' : ∀ l ∈ gpuCache', l.Stacked)
    (hbytes : List.Forall₂ (fun l l' => l'.blockBytes = l.blockBytes) gpuCache gpuCache')
    (hlen : bt.length = bt'.length) (hpos : bt ≠ []) (hnodup : bt'.Nodup)
    (hrange : ∀ l ∈ gpuCache', ∀ b ∈ bt', b < l.keys.length)
    (hsave : m.saveKvState P bt gpuCache writeFails tokFails fs = (.returned true, fs')) :
    ∃ restored, m.restoreKvState P bt' false gpuCache' fs' = (.returned P.length, restored) ∧
      restored.length = gpuCache.length ∧ ∀ (i : Nat) l l' r, gpuCache[i]? = some l → gpuCache'[i]? = some l' →
        restored[i]? = some r → Transferred bt bt' l l' r := by
  obtain ⟨sample, kvs, blob, hkvs, hblob, hfile⟩ := saveKvState_blob hsave
  obtain ⟨hinfos, hpayload⟩ := buildBlob_reads hblob
  have hparses := parses_buildBlob hblob
  rw [← (forall₂_of_mapM hkvs).length_eq, hbytes.length_eq] at hparses
  rw [← (forall₂_of_mapM hkvs).length_eq, hbytes.length_eq] at hinfos hpayload
  obtain ⟨restored, hrestored, hrestoredLen, hall⟩ := restoreLayers_saved hl hl' hbytes hlen hpos hnodup hrange hkvs
    (slices_layerInfos (At.all _))
  refine ⟨restored, ?_, hrestoredLen, hall⟩
  rw [restoreKvState_of_parses hfile hparses, restoreBlob, hinfos, hpayload, hrestored]
  rfl

theorem save_restore_first :
    let cache := [(⟨.float16, true, 1, 1, 2, [[1#8, 2#8], [3#8, 4#8]], [[5#8, 6#8], [7#8, 8#8]]⟩ : LayerCache)]
    let cache' := [(⟨.float16, true, 1, 1, 2, [[0#8, 0#8], [9#8, 9#8]], [[0#8, 0#8], [9#8, 9#8]]⟩ : LayerCache)]
    let saved := demoManager.saveKvState [1, 2] [1] cache false false fun _ => none
    saved.1 = .returned true ∧
      ∃ restored, demoManager.restoreKvState [1, 2] [0] false cache' saved.2 = (.returned 2, restored) ∧
        restored.length = 1 ∧ ∀ (i : Nat) l l' r, cache[i]? = some l → cache'[i]? = some l' →
          restored[i]? = some r → Transferred [1] [0] l l' r := by
  intro cache cache' saved
  have hret : saved.1 = .returned true := by
    decide +kernel
  have hstacked : ∀ keys values, (∀ b ∈ keys, b.length = 2) → (∀ b ∈ values, b.length = 2) →
      values.length = keys.length → (⟨.float16, true, 1, 1, 2, keys, values⟩ : LayerCache).Stacked :=
    fun _ _ hk hv hlen => ⟨rfl, hk, hv, hlen, Nat.dvd_refl 2⟩
  have hcache : ∀ l ∈ cache, l.Stacked := by
    intro l hl
    obtain rfl := List.mem_singleton.1 hl
    exact hstacked _ _ (by decide) (by decide) rfl
  have hcache' : ∀ l ∈ cache', l.Stacked ∧ ∀ b ∈ [0], b < l.keys.length := by
    intro l hl
    obtain rfl := List.mem_singleton.1 hl
    exact ⟨hstacked _ _ (by decide) (by decide) rfl, by decide⟩
  have hsave : demoManager.saveKvState [1, 2] [1] cache false false (fun _ => none) = (.returned true, saved.2) :=
    Prod.ext hret rfl
  have hbytes : List.Forall₂ (fun l l' => l'.blockBytes = l.blockBytes) cache cache' := .cons rfl .nil
  exact ⟨hret, save_restore_round_trip hcache (fun l hl => (hcache' l hl).1) hbytes rfl (by decide) (by decide)
    (fun l hl => (hcache' l hl).2) hsave⟩

end Korith.Vllm
