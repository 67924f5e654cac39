import Korith.Proofs.PrefillSkips

/-!
# Whether a malformed snapshot is a clean miss

In front of the loop only the header, the number of layers and the length of the table are checked. A layer whose
slices do not fit its blocks raises in the middle of the loop, and a header with no tokens returns 0 behind the writes.
-/

namespace Korith.Vllm

variable {bt : List Nat} {payload bytes : List Byte} {blocks : List (List Byte)} {l : LayerCache} {info : LayerInfo}

/-- No exception, and behind a miss the cache is as before. -/
def CleanMiss (gpuCache : List LayerCache) (r : Outcome Nat × List LayerCache) : Prop :=
  r.1 ≠ .raised ∧ (r.1 = .returned 0 → r.2 = gpuCache)

/-- The blocks are there, and the bytes are elements of the dtype in the shape of the blocks. -/
def SliceFits (l : LayerCache) (bt : List Nat) (blocks : List (List Byte)) (bytes : List Byte) : Prop :=
  (∀ b ∈ bt, b < blocks.length) ∧
    ¬ (bytes = [] ∨ bytes.length % l.dtype.elementSize ≠ 0 ∨ bytes.length ≠ bt.length * l.blockBytes)

/-- The layer is skipped, or both of its slices fit. -/
def LayerFits (bt : List Nat) (payload : List Byte) (l : LayerCache) (info : LayerInfo) : Prop :=
  (info.kSz = 0 ∧ info.vSz = 0) ∨ bt = [] ∨
    SliceFits l bt l.kAll (slice payload info.kOff info.kSz) ∧ SliceFits l bt l.vAll (slice payload info.vOff info.vSz)

/-- The layer is skipped, or what is written last to each block is what it has; in a cache that is not stacked the keys
are overwritten by the values. -/
def LayerThere (bt : List Nat) (payload : List Byte) (l : LayerCache) (info : LayerInfo) : Prop :=
  (info.kSz = 0 ∧ info.vSz = 0) ∨ ∀ b i, LastAt bt b i →
    (l.stacked = true → l.kAll[b]? = info.kBlock payload l.blockBytes i) ∧
      l.vAll[b]? = info.vBlock payload l.blockBytes i

theorem isSome_readBlocks : (readBlocks l bt blocks bytes).isSome ↔ SliceFits l bt blocks bytes := by
  by_cases hbt : ∀ b ∈ bt, b < blocks.length
  · obtain ⟨target, htarget, hlen⟩ := gather_of_lt hbt
    rw [readBlocks, htarget, Option.bind_eq_bind, Option.bind_some, hlen, SliceFits]
    split_ifs with hbad
    · exact ⟨(fun h => by cases h), fun h => absurd hbad h.2⟩
    · exact ⟨fun _ => ⟨hbt, hbad⟩, fun _ => rfl⟩
  · refine ⟨fun h => ?_, fun h => absurd h.1 hbt⟩
    obtain ⟨seq, hseq⟩ := Option.isSome_iff_exists.1 h
    obtain ⟨target, htarget, -⟩ := Option.bind_eq_some_iff.1 hseq
    exact absurd (lt_of_gather htarget) hbt

theorem isSome_restoreLayer : (restoreLayer bt payload l info).isSome ↔ LayerFits bt payload l info := by
  by_cases hinfo : info.kSz = 0 ∧ info.vSz = 0
  · rw [restoreLayer, if_pos hinfo]
    exact ⟨fun _ => .inl hinfo, fun _ => rfl⟩
  by_cases hbt : bt = []
  · rw [restoreLayer, if_neg hinfo, if_pos hbt]
    exact ⟨fun _ => .inr (.inl hbt), fun _ => rfl⟩
  rw [restoreLayer_eq hinfo hbt, LayerFits, or_iff_right hinfo, or_iff_right hbt, ← isSome_readBlocks,
    ← isSome_readBlocks]
  cases readBlocks l bt l.kAll (slice payload info.kOff info.kSz) with
  | none => exact ⟨(fun h => by cases h), (fun h => by cases h.1)⟩
  | some k => rw [Option.bind_some, Option.isSome_map, Option.isSome_some, eq_self, true_and]

theorem LayerCache.scattered_eq_self_iff {k v : List (List Byte)} (hv : bt.length = v.length) :
    l.scattered bt k v = l ↔
      (l.stacked = true → setAll (bt.zip k) l.kAll = l.kAll) ∧ setAll (bt.zip v) l.vAll = l.vAll := by
  refine ⟨fun h => ⟨fun hs => ?_, ?_⟩, fun ⟨hk, hv'⟩ => ?_⟩
  · have hkAll := LayerCache.kAll_scattered (l := l) (k := k) hv
    rwa [h, if_pos hs, eq_comm] at hkAll
  · have hvAll := LayerCache.vAll_scattered (l := l) (k := k) hv
    rwa [h, eq_comm] at hvAll
  · cases l with
    | mk dtype stacked nKvHeads headDim blockBytes keys values =>
      cases stacked with
      | true => exact congrArg₂ (LayerCache.mk dtype true nKvHeads headDim blockBytes) (hk rfl) hv'
      | false => exact congrArg (LayerCache.mk dtype false nKvHeads headDim blockBytes · values) ((scatter_scatter hv).trans hv')

theorem restoreLayer_eq_self_iff (hfits : LayerFits bt payload l info) :
    restoreLayer bt payload l info = some l ↔ LayerThere bt payload l info := by
  obtain ⟨r, hr⟩ := Option.isSome_iff_exists.1 (isSome_restoreLayer.2 hfits)
  rw [hr, Option.some.injEq]
  rcases restoreLayer_cases hr with ⟨rfl, rfl | hinfo⟩ | ⟨hinfo, ks, vs, hks, hvs, rfl⟩
  · exact ⟨fun _ => .inr fun b i hi => absurd hi.lt (Nat.not_lt_zero _), fun _ => rfl⟩
  · exact ⟨fun _ => .inl hinfo, fun _ => rfl⟩
  · obtain ⟨hkRange, hkLen, -⟩ := readBlocks_spec hks
    obtain ⟨hvRange, hvLen, -⟩ := readBlocks_spec hvs
    have hblock : ∀ {blocks seq off sz}, readBlocks l bt blocks (slice payload off sz) = some seq → ∀ b i, LastAt bt b i →
        seq[i]? = snapshotBlock payload off sz l.blockBytes i := by
      intro blocks seq off sz h b i hi
      obtain ⟨x, hx, hx'⟩ := readBlocks_snapshotBlock h hi.lt
      rw [hx, hx']
    rw [LayerCache.scattered_eq_self_iff hvLen, scatter_eq_self_iff hkLen hkRange, scatter_eq_self_iff hvLen hvRange,
      LayerThere, or_iff_right hinfo]
    constructor
    · rintro ⟨hk, hv⟩ b i hi
      exact ⟨fun hs => (hk hs b i hi).trans (hblock hks b i hi), (hv b i hi).trans (hblock hvs b i hi)⟩
    · intro h
      exact ⟨fun hs b i hi => ((h b i hi).1 hs).trans (hblock hks b i hi).symm,
        fun b i hi => (h b i hi).2.trans (hblock hvs b i hi).symm⟩

/-- The loop goes through, and for `nTokens = 0` without a change, exactly if each layer does. -/
theorem restoreLayers_clean_iff (nTokens : Nat) (ls : List LayerCache) (infos : List LayerInfo) :
    ((restoreLayers bt payload ls infos).1 = true ∧ (nTokens = 0 → (restoreLayers bt payload ls infos).2 = ls)) ↔
      ∀ p ∈ ls.zip infos, LayerFits bt payload p.1 p.2 ∧ (nTokens = 0 → LayerThere bt payload p.1 p.2) := by
  induction ls generalizing infos with
  | nil => exact ⟨fun _ p hp => (by cases hp), fun _ => ⟨rfl, fun _ => rfl⟩⟩
  | cons l ls ih =>
    cases infos with
    | nil => exact ⟨fun _ p hp => (by cases hp), fun _ => ⟨rfl, fun _ => rfl⟩⟩
    | cons info infos =>
      rw [List.zip_cons_cons, List.forall_mem_cons, ← ih infos, restoreLayers,
        and_congr_right fun h => imp_congr_right fun _ => (restoreLayer_eq_self_iff h).symm, ← isSome_restoreLayer]
      cases restoreLayer bt payload l info with
      | none => exact ⟨(fun h => by cases h.1), (fun h => by cases h.1.1)⟩
      | some l' =>
        dsimp only
        rw [List.cons.injEq, Option.some.injEq]
        constructor
        · rintro ⟨hok, hsame⟩
          exact ⟨⟨rfl, fun h0 => (hsame h0).1⟩, hok, fun h0 => (hsame h0).2⟩
        · rintro ⟨⟨-, hl⟩, hok, hls⟩
          exact ⟨hok, fun h0 => ⟨hl h0, hls h0⟩⟩

theorem Parses.unique {nLayers n n' : Nat} {blob : List Byte} (h : Parses nLayers n blob) (h' : Parses nLayers n' blob) :
    n = n' := by
  obtain ⟨⟨rest, hrest⟩, -⟩ := h
  obtain ⟨⟨rest', hrest'⟩, -⟩ := h'
  have heq := Option.some.inj (hrest.symm.trans hrest')
  simp only [List.cons.injEq] at heq
  exact heq.2.2.2.1

/-- With any bytes in the file: the restore is clean exactly if the file is not read or does not parse, or every layer
fits, and a snapshot of no tokens writes what is already there. -/
theorem clean_miss_iff (m : Manager) (promptTokens : List Int) (blockTable : List Nat) (readFails : Bool)
    (gpuCache : List LayerCache) (fs : Files) (blob : List Byte) :
    CleanMiss gpuCache (m.restoreKvState promptTokens blockTable readFails gpuCache
        (fs.write (m.computeAmfKey promptTokens none).kvFilename blob)) ↔
      ∀ nTokens, readFails = false → Parses gpuCache.length nTokens blob →
        let payload := blob.drop (headerSize + gpuCache.length * layerSize)
        ∀ p ∈ gpuCache.zip ((List.range gpuCache.length).map (readInfo blob)),
          LayerFits blockTable payload p.1 p.2 ∧
            (nTokens = 0 → LayerThere blockTable payload p.1 p.2) := by
  have hfile : fs.write (m.computeAmfKey promptTokens none).kvFilename blob _ = some blob := if_pos rfl
  by_cases hparses : readFails = false ∧ ∃ n, Parses gpuCache.length n blob
  · obtain ⟨rfl, n, hn⟩ := hparses
    have hall : ∀ n', Parses gpuCache.length n' blob ↔ n' = n := fun n' => ⟨fun h => h.unique hn, fun h => h ▸ hn⟩
    simp only [restoreKvState_of_parses hfile hn, hall, forall_eq, forall_const, ← restoreLayers_clean_iff]
    rw [← restoreBlob, CleanMiss]
    cases (restoreBlob blockTable blob gpuCache).1 with
    | false => exact ⟨fun h => absurd rfl h.1, (fun h => by cases h.1)⟩
    | true => simp
  · rw [restoreKvState_of_not_parses hfile fun hread n hn => hparses ⟨hread, n, hn⟩]
    exact ⟨fun _ n hread hn => absurd ⟨hread, n, hn⟩ hparses, fun _ => ⟨(fun h => by cases h), fun _ => rfl⟩⟩

def snapshotBytes (nTokens : Nat) (infos : List LayerInfo) (payload : List Byte) : List Byte :=
  packFields ([(4, amfkMagic), (4, amfkVersion), (4, infos.length), (4, nTokens), (4, 1), (4, 1), (4, 0), (4, 0),
    (8, payload.length), (8, 0), (8, 0)] ++
      infos.flatMap fun i => [(8, i.kOff), (8, i.kSz), (8, i.vOff), (8, i.vSz)]) ++ payload

/-- A payload that is cut off in the second layer raises with the first layer written; a snapshot of no tokens is
written and returns 0. -/
theorem malformed_snapshot_written : let layer : LayerCache := ⟨.float16, true, 1, 1, 2, [[0#8, 0#8]], [[0#8, 0#8]]⟩
    let cut := demoManager.restoreKvState [1] [0] false [layer, layer]
      fun _ => some (snapshotBytes 1 [⟨0, 2, 2, 2⟩, ⟨4, 2, 6, 2⟩] [1#8, 2#8, 3#8, 4#8])
    let none := demoManager.restoreKvState [1] [0] false [layer]
      fun _ => some (snapshotBytes 0 [⟨0, 2, 2, 2⟩] [1#8, 2#8, 3#8, 4#8])
    (cut.1 = .raised ∧ cut.2.map LayerCache.keys = [[[1#8, 2#8]], [[0#8, 0#8]]] ∧ ¬ CleanMiss [layer, layer] cut) ∧
      none.1 = .returned 0 ∧ none.2.map LayerCache.keys = [[[1#8, 2#8]]] ∧ ¬ CleanMiss [layer] none := by
  intro layer cut none
  have hraised : cut.1 = .raised := by decide +kernel
  have hreturned : none.1 = .returned 0 := by decide +kernel
  have hkeys : none.2.map LayerCache.keys = [[[1#8, 2#8]]] := by decide +kernel
  refine ⟨⟨hraised, by decide +kernel, fun h => h.1 hraised⟩, hreturned, hkeys, fun h => ?_⟩
  rw [h.2 hreturned] at hkeys
  exact absurd hkeys (by decide)

end Korith.Vllm
