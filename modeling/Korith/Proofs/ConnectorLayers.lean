import Korith.Proofs.ConnectorTokens
import Korith.Proofs.PoolPartition

/-!
# Which layer gets which KV

`wait_for_save` stacks the layers in the order of their indices, so an entry knows a layer by its position among the
saved ones; `start_load_kv` takes the position from the layer's index. The two agree if the saved indices are `0, ...,
n - 1`.
-/

namespace Korith.Vllm.Connector

variable {K Row R F : Type} {env : ConnectorEnv K Row R F}
  {s s₁ s₂ : Connector K Row R F} {req req' : AMFReqMeta K} {saved kvs : List (LayerName × List Row)}

def savedRows (req : AMFReqMeta K) (rows : List Row) : Option (List Row) :=
  req.saveSlots.mapM fun slot => rows[slot]?

section Save

variable [DecidableEq K] {name : LayerName}

def saveLayers (s : Connector K Row R F) (req : AMFReqMeta K) (saved : List (LayerName × List Row)) :
    Option (Connector K Row R F) :=
  saved.foldlM (fun s x => saveKvLayer s [req] x.1 (.slots x.2)) s

/-! ### The buffer -/

def bufferOf (key : K) (kvs : List (LayerName × List Row)) : List (K × List (LayerName × List Row)) :=
  if kvs = [] then [] else [(key, kvs)]

theorem saveKvLayer_eq {rows : List Row} (hstore : req.isStore = true)
    (hbuffer : s.saveBuffer = bufferOf req.prefixHash kvs) (hname : name ∉ kvs.map Prod.fst) :
    saveKvLayer s [req] name (.slots rows) = (savedRows req rows).map fun kv =>
      { s with saveBuffer := bufferOf req.prefixHash (kvs ++ [(name, kv)]) } := by
  have hlayers : (s.saveBuffer.lookup req.prefixHash).getD [] = kvs := by
    rw [hbuffer, bufferOf]
    split_ifs with hnil
    · exact hnil.symm
    · simp
  have hset : ∀ v : List (LayerName × List Row), v ≠ [] →
      dictSet req.prefixHash v s.saveBuffer = bufferOf req.prefixHash v := by
    intro v hv
    rw [hbuffer, bufferOf, bufferOf, if_neg hv]
    split_ifs
    · rfl
    · rw [dictSet, if_pos rfl]
  rw [saveKvLayer, List.foldlM_cons, saveRequest, if_pos hstore]
  dsimp only
  rw [hlayers, savedRows]
  cases req.saveSlots.mapM fun slot => rows[slot]? with
  | none => rfl
  | some kv =>
    rw [Option.map_some, Option.map_some, dictSet_of_notMem hname, hset _ (by simp)]
    rfl

def Gathered (req : AMFReqMeta K) (x y : LayerName × List Row) : Prop :=
  y.1 = x.1 ∧ savedRows req x.2 = some y.2

theorem saveLayers_eq_some (hstore : req.isStore = true) (hbuffer : s.saveBuffer = bufferOf req.prefixHash kvs)
    (hnodup : (kvs.map Prod.fst ++ saved.map Prod.fst).Nodup) (h : saveLayers s req saved = some s₁) :
    ∃ kvs', List.Forall₂ (Gathered req) saved kvs' ∧
      s₁ = { s with saveBuffer := bufferOf req.prefixHash (kvs ++ kvs') } := by
  induction saved generalizing s kvs with
  | nil =>
    cases h
    exact ⟨[], .nil, by rw [List.append_nil, ← hbuffer]⟩
  | cons x saved ih =>
    have hname : x.1 ∉ kvs.map Prod.fst := by
      intro hmem
      exact (List.nodup_append.1 hnodup).2.2 _ hmem _ List.mem_cons_self rfl
    rw [saveLayers, List.foldlM_cons, saveKvLayer_eq hstore hbuffer hname] at h
    obtain ⟨s', hs', h⟩ := Option.bind_eq_some_iff.1 h
    obtain ⟨kv, hkv, rfl⟩ := Option.map_eq_some_iff.1 hs'
    have hnodup' : ((kvs ++ [(x.1, kv)]).map Prod.fst ++ saved.map Prod.fst).Nodup := by
      rwa [List.map_append, List.append_assoc]
    obtain ⟨kvs', hkvs', rfl⟩ := ih rfl hnodup' h
    exact ⟨(x.1, kv) :: kvs', .cons ⟨rfl, hkv⟩ hkvs', by rw [List.append_assoc, List.singleton_append]⟩

variable [FloatArith F]

theorem pool_savePrefix {x : K × List (LayerName × List Row)} (hne : x.2 ≠ []) (h : savePrefix env s x = some s₁) :
    ∃ numTokens, s₁.pool = (s.pool.put env.pool env.geometry x.1
      ((sortedLayers env x.2).map fun a => env.compress a.2) numTokens (FloatArith.ofNat 0)).2 := by
  unfold savePrefix at h
  rw [if_neg hne] at h
  split_ifs at h
  refine ⟨(x.2.head?.map fun a => a.2.length).getD 0, ?_⟩
  dsimp only [CompressedVRAMPool.putFromRaw] at h
  rcases hput : s.pool.put env.pool env.geometry x.1 ((sortedLayers env x.2).map fun a => env.compress a.2)
    ((x.2.head?.map fun a => a.2.length).getD 0) (FloatArith.ofNat 0) with ⟨_ | _ | _, pool⟩
  · rw [hput] at h
    cases h
  · rw [hput] at h
    cases h
    rw [hput]
  · rw [hput] at h
    cases h
    rw [hput]

theorem blobs_waitForSave {key : K} {e : PoolEntry K R F} (hbuffer : s.saveBuffer = bufferOf key kvs) (hne : kvs ≠ [])
    (h : waitForSave env s = some s₂) (he : e ∈ s₂.pool.index) (hkey : e.prefixHash = key) :
    e.blobs = (sortedLayers env kvs).map fun a => env.compress a.2 := by
  rw [waitForSave, hbuffer, bufferOf, if_neg hne, List.foldlM_cons] at h
  obtain ⟨s₁, hs₁, rfl⟩ := Option.map_eq_some_iff.1 h
  obtain ⟨s', hs', hnil⟩ := Option.bind_eq_some_iff.1 hs₁
  cases hnil
  obtain ⟨numTokens, hpool⟩ := pool_savePrefix hne hs'
  dsimp only at he
  rw [hpool] at he
  rcases CompressedVRAMPool.mem_put he with ⟨-, hblobs, -⟩ | ⟨-, hother⟩
  · exact hblobs
  · exact absurd hkey hother

end Save

/-! ### Routing -/

def blobFor (env : ConnectorEnv K Row R F) (blobs : List (CompressedKV R)) (name : LayerName) : Option (CompressedKV R) :=
  (layerNameToIdx env name).bind fun idx => if blobs.length ≤ idx then none else pyGet blobs idx

/-- Every name has a layer index, and no two have the same. -/
structure Named (env : ConnectorEnv K Row R F) (names : List LayerName) : Prop where
  index : ∀ name ∈ names, ∃ i : Nat, layerNameToIdx env name = some (i : Int)
  distinct : (names.map (layerNameToIdx env)).Nodup

/-- The indices are those below the number of layers. -/
def Contiguous (env : ConnectorEnv K Row R F) (names : List LayerName) : Prop :=
  ∀ i < names.length, ∃ name ∈ names, layerNameToIdx env name = some (i : Int)

def sortIdx (env : ConnectorEnv K Row R F) (x : LayerName × List Row) : Int := (layerNameToIdx env x.1).getD 0

theorem map_sortedLayers : (sortedLayers env kvs).map (sortIdx env) = (kvs.map (sortIdx env)).insertionSort (· ≤ ·) :=
  List.map_insertionSort _ _ _ _ fun _ _ _ _ => Iff.rfl

theorem sortIdx_sortedLayers (hcontig : Contiguous env (kvs.map Prod.fst)) :
    (sortedLayers env kvs).map (sortIdx env) = (List.range kvs.length).map Int.ofNat := by
  have hnodup : ((List.range kvs.length).map Int.ofNat).Nodup :=
    List.nodup_range.map fun a b h => Int.ofNat.inj h
  have hsub : (List.range kvs.length).map Int.ofNat ⊆ kvs.map (sortIdx env) := by
    intro i hi
    obtain ⟨j, hj, rfl⟩ := List.mem_map.1 hi
    obtain ⟨name, hname, hidx⟩ := hcontig j (by rw [List.length_map]; exact List.mem_range.1 hj)
    obtain ⟨x, hx, rfl⟩ := List.mem_map.1 hname
    exact List.mem_map.2 ⟨x, hx, by rw [sortIdx, hidx]; rfl⟩
  have hperm : ((List.range kvs.length).map Int.ofNat).Perm (kvs.map (sortIdx env)) :=
    (List.subperm_of_subset hnodup hsub).perm_of_length_le (by simp)
  rw [map_sortedLayers]
  refine List.Perm.eq_of_pairwise' ((List.pairwise_insertionSort _ _)) ?_
    ((List.perm_insertionSort _ _).trans hperm.symm)
  rw [List.pairwise_map]
  exact List.pairwise_le_range.imp fun h => Int.ofNat_le.2 h

theorem length_sortedLayers : (sortedLayers env kvs).length = kvs.length := List.length_insertionSort ..

variable {x : LayerName × List Row}

theorem mem_sortedLayers : x ∈ sortedLayers env kvs ↔ x ∈ kvs := List.mem_insertionSort _

def blobsOf (env : ConnectorEnv K Row R F) (kvs : List (LayerName × List Row)) : List (CompressedKV R) :=
  (sortedLayers env kvs).map fun a => env.compress a.2

theorem blobFor_eq {i : Nat} (hidx : layerNameToIdx env name = some (i : Int)) :
    blobFor env (blobsOf env kvs) name = ((sortedLayers env kvs)[i]?).map fun a => env.compress a.2 := by
  rw [blobFor, hidx, Option.bind_some, pyGet_natCast, blobsOf, List.getElem?_map, List.length_map]
  split_ifs with hlen
  · rw [List.getElem?_eq_none (Int.ofNat_le.1 hlen)]
    rfl
  · rfl

theorem blobFor_of_contiguous (hnamed : Named env (kvs.map Prod.fst)) (hcontig : Contiguous env (kvs.map Prod.fst))
    (hx : x ∈ kvs) : blobFor env (blobsOf env kvs) x.1 = some (env.compress x.2) := by
  obtain ⟨i, hidx⟩ := hnamed.index x.1 (List.mem_map_of_mem hx)
  have hmem : x ∈ sortedLayers env kvs := mem_sortedLayers.2 hx
  obtain ⟨j, hj, hjx⟩ := List.mem_iff_getElem.1 hmem
  -- the position of the layer is its index
  have hpos : (sortIdx env x) = (j : Int) := by
    have hmap := congrArg (·[j]?) (sortIdx_sortedLayers hcontig)
    have hj' := hj
    rw [length_sortedLayers] at hj'
    simpa [hj, hjx, hj'] using hmap
  have hij : i = j := by
    rw [sortIdx, hidx, Option.getD_some] at hpos
    exact Int.ofNat.inj hpos
  rw [blobFor_eq hidx, hij, List.getElem?_eq_getElem hj, hjx]
  rfl

theorem contiguous_of_blobFor (hnamed : Named env (kvs.map Prod.fst)) (hblobs : (blobsOf env kvs).Nodup)
    (h : ∀ x ∈ kvs, blobFor env (blobsOf env kvs) x.1 = some (env.compress x.2)) :
    Contiguous env (kvs.map Prod.fst) := by
  intro i hi
  rw [List.length_map] at hi
  have hi' : i < (sortedLayers env kvs).length := length_sortedLayers.symm ▸ hi
  set x := (sortedLayers env kvs)[i]
  have hx : x ∈ kvs := mem_sortedLayers.1 (List.getElem_mem hi')
  obtain ⟨j, hidx⟩ := hnamed.index x.1 (List.mem_map_of_mem hx)
  have hblob := h x hx
  rw [blobFor_eq hidx] at hblob
  have hsame : (blobsOf env kvs)[i]? = (blobsOf env kvs)[j]? := by
    rw [blobsOf, List.getElem?_map, List.getElem?_map, hblob, List.getElem?_eq_getElem hi']
    rfl
  have hij : i = j := (List.getElem?_inj (by rw [blobsOf, List.length_map]; exact hi') hblobs).1 hsame
  exact ⟨x.1, List.mem_map_of_mem hx, hij ▸ hidx⟩

/-! ### Loading -/

theorem loadLayer_eq {blobs : List (CompressedKV R)} {blob : CompressedKV R} {cache : List Row}
    (h : blobFor env blobs name = some blob) : loadLayer env req blobs (name, some cache) =
      (injectRows req (env.decompress blob) cache).map fun cache => (name, some cache) := by
  obtain ⟨idx, hidx, hblob⟩ := Option.bind_eq_some_iff.1 h
  split_ifs at hblob with hlen
  simp only [loadLayer, hidx, if_neg hlen, hblob, Option.bind_some]

/-- A layer without a cache is left alone; the others have the KV in their slots that was saved under their name. -/
def Restored (env : ConnectorEnv K Row R F) (req req' : AMFReqMeta K) (saved : List (LayerName × List Row))
    (layer layer' : LayerName × Option (List Row)) : Prop :=
  match layer.2 with
  | none => layer' = layer
  | some cache => ∃ rows kv cache', (layer.1, rows) ∈ saved ∧ savedRows req rows = some kv ∧
      injectRows req' (env.decompress (env.compress kv)) cache = some cache' ∧ layer' = (layer.1, some cache')

theorem names_of_gathered (h : List.Forall₂ (Gathered req) saved kvs) : kvs.map Prod.fst = saved.map Prod.fst := by
  induction h with
  | nil => rfl
  | cons hxy _ ih => rw [List.map_cons, List.map_cons, hxy.1, ih]

theorem exists_gathered (h : List.Forall₂ (Gathered req) saved kvs) {y : LayerName × List Row} (hy : y ∈ kvs) :
    ∃ x ∈ saved, Gathered req x y := by
  induction h with
  | nil => cases hy
  | cons hxy _ ih =>
    rcases List.mem_cons.1 hy with rfl | hy
    · exact ⟨_, List.mem_cons_self, hxy⟩
    · obtain ⟨x, hx, hxy⟩ := ih hy
      exact ⟨x, List.mem_cons_of_mem _ hx, hxy⟩

section Main

variable [DecidableEq K]

theorem loaded_of_startLoadKv {entry : PoolEntry K R F} {layers layers' : List (LayerName × Option (List Row))}
    (hload : req.isStore = false) (hentry : s.pool.index.find req.prefixHash = some entry)
    (h : startLoadKv env s true true [req] layers = some (s₁, layers')) :
    List.Forall₂ (fun layer layer' => loadLayer env req entry.blobs layer = some layer') layers layers' := by
  obtain ⟨⟨pool, layers''⟩, hfold, heq⟩ := Option.map_eq_some_iff.1 h
  cases heq
  rw [List.foldlM_cons] at hfold
  obtain ⟨x, hx, hnil⟩ := Option.bind_eq_some_iff.1 hfold
  cases hnil
  simp only [loadRequest, hload, CompressedVRAMPool.get, hentry, Bool.false_eq_true, if_false] at hx
  obtain ⟨layers'', hlayers, heq⟩ := Option.map_eq_some_iff.1 hx
  cases heq
  exact forall₂_of_mapM hlayers

variable [FloatArith F]

/-- Layers are saved and stored, the pool runs on without another put of this prefix, and a request with the same key
is loaded. The converse needs the stored blobs to be different from each other. -/
theorem layer_routing (env : ConnectorEnv K Row R F) (s s₁ s₂ s₃ : Connector K Row R F) (req req' : AMFReqMeta K)
    (saved : List (LayerName × List Row)) (ops : List (CompressedVRAMPool.Op K R F)) (entry : PoolEntry K R F)
    (hstart : s.saveBuffer = []) (hstore : req.isStore = true) (hload : req'.isStore = false)
    (hkey : req'.prefixHash = req.prefixHash) (hnamed : Named env (saved.map Prod.fst))
    (hsaved : saveLayers s req saved = some s₁) (hwait : waitForSave env s₁ = some s₂)
    (hops : ∀ op ∈ ops, op.puts ≠ some req.prefixHash)
    (hpool : s₃.pool = CompressedVRAMPool.run env.pool env.geometry s₂.pool ops)
    (hentry : s₃.pool.index.find req.prefixHash = some entry) : (Contiguous env (saved.map Prod.fst) →
      ∀ layers, (∀ layer ∈ layers, layer.2.isSome = true → layer.1 ∈ saved.map Prod.fst) →
      ∀ s₄ layers', startLoadKv env s₃ true true [req'] layers = some (s₄, layers') →
        List.Forall₂ (Restored env req req' saved) layers layers') ∧
    (entry.blobs.Nodup →
      (∀ x ∈ saved, ∀ kv, savedRows req x.2 = some kv → blobFor env entry.blobs x.1 = some (env.compress kv)) →
      Contiguous env (saved.map Prod.fst)) := by
  have hnodup : (saved.map Prod.fst).Nodup := List.Nodup.of_map _ hnamed.distinct
  have hbuffer : s.saveBuffer = bufferOf req.prefixHash [] := hstart
  obtain ⟨kvs, hkvs, rfl⟩ := saveLayers_eq_some hstore hbuffer hnodup hsaved
  have hnames := names_of_gathered hkvs
  have hblobs : kvs ≠ [] → entry.blobs = blobsOf env kvs := by
    intro hne
    obtain ⟨hmem, hk⟩ := Table.find_eq_some_iff.1 hentry
    rw [hpool] at hmem
    obtain ⟨e₀, he₀, hk₀, hblobs₀⟩ := CompressedVRAMPool.mem_run hmem (hk.symm ▸ hops)
    exact hblobs₀.symm.trans (blobs_waitForSave rfl hne hwait he₀ (hk₀.trans hk))
  rw [← hnames] at hnamed ⊢
  constructor
  · intro hcontig layers hlayers s₄ layers' hstartLoad
    rw [← hkey] at hentry
    obtain ⟨hlen, hloaded⟩ := List.forall₂_iff_zip.1 (loaded_of_startLoadKv hload hentry hstartLoad)
    refine List.forall₂_iff_zip.2 ⟨hlen, fun {layer layer'} hmem => ?_⟩
    obtain ⟨name, cache⟩ := layer
    have hloads := hloaded hmem
    cases cache with
    | none => exact (Option.some.inj hloads).symm
    | some cache =>
      have hname : name ∈ kvs.map Prod.fst := hlayers _ (List.of_mem_zip hmem).1 rfl
      obtain ⟨y, hy, rfl⟩ := List.mem_map.1 hname
      obtain ⟨x, hx, hxy, hrows⟩ := exists_gathered hkvs hy
      rw [hblobs (List.ne_nil_of_mem hy), loadLayer_eq (blobFor_of_contiguous hnamed hcontig hy)] at hloads
      obtain ⟨cache', hcache', rfl⟩ := Option.map_eq_some_iff.1 hloads
      exact ⟨x.2, y.2, cache', hxy ▸ hx, hrows, hcache', rfl⟩
  · intro hdistinct hown
    by_cases hne : kvs = []
    · subst hne
      exact fun i hi => absurd hi (Nat.not_lt_zero i)
    · rw [hblobs hne] at hdistinct hown
      refine contiguous_of_blobFor hnamed hdistinct fun y hy => ?_
      obtain ⟨x, hx, hxy, hrows⟩ := exists_gathered hkvs hy
      rw [hxy]
      exact hown x hx y.2 hrows

/-! ### Two layers -/

def demoLayer (i : Nat) : LayerName × List Nat := ("model.layers.".toList ++ (toString i).toList, [10 * i, 10 * i + 1])

def demoReq (isStore : Bool) : AMFReqMeta (List Int) := .make 0 [1, 2] [1, 2, 3] [0] 2 isStore

/-- The layers are saved and stored, and loaded into empty caches. -/
def demoReload (saved : List (LayerName × List Nat)) : Option (List (LayerName × Option (List Nat))) :=
  ((saveLayers (demoConnector []) (demoReq true) saved).bind (waitForSave demoConnectorEnv)).bind fun s =>
    (startLoadKv demoConnectorEnv s true true [demoReq false] (saved.map fun x => (x.1, some [0, 0]))).map Prod.snd

theorem layer_routing_two : ∃ s₁ s₂ entry s₄ layers',
    saveLayers (demoConnector []) (demoReq true) [demoLayer 0, demoLayer 1] = some s₁ ∧
    waitForSave demoConnectorEnv s₁ = some s₂ ∧ s₂.pool.index.find [1, 2] = some entry ∧
    startLoadKv demoConnectorEnv s₂ true true [demoReq false] [((demoLayer 1).1, some [0, 0])] = some (s₄, layers') ∧
    List.Forall₂ (Restored demoConnectorEnv (demoReq true) (demoReq false) [demoLayer 0, demoLayer 1])
      [((demoLayer 1).1, some [0, 0])] layers' := by
  have hidx : layerNameToIdx demoConnectorEnv (demoLayer 0).1 = some 0 ∧
      layerNameToIdx demoConnectorEnv (demoLayer 1).1 = some 1 := by decide +kernel
  have hnamed : Named demoConnectorEnv [(demoLayer 0).1, (demoLayer 1).1] := by
    refine ⟨fun name hname => ?_, by simp [hidx.1, hidx.2]⟩
    rcases List.mem_pair.1 hname with rfl | rfl
    · exact ⟨0, hidx.1⟩
    · exact ⟨1, hidx.2⟩
  have hcontig : Contiguous demoConnectorEnv [(demoLayer 0).1, (demoLayer 1).1] := by
    intro i hi
    have hi' : i = 0 ∨ i = 1 := by simp at hi; omega
    rcases hi' with rfl | rfl
    · exact ⟨_, List.mem_cons_self, hidx.1⟩
    · exact ⟨_, List.mem_cons_of_mem _ List.mem_cons_self, hidx.2⟩
  refine ⟨_, _, _, _, _, rfl, rfl, rfl, rfl, ?_⟩
  refine (layer_routing demoConnectorEnv (demoConnector []) _ _ _ (demoReq true) (demoReq false)
    [demoLayer 0, demoLayer 1] [] _ rfl rfl rfl rfl hnamed rfl rfl (by simp) rfl rfl).1 hcontig _ ?_ _ _ rfl
  simp

/-- Layers 1 and 2: layer 1 is given the KV of layer 2, and layer 2 none. -/
theorem layers_misrouted : demoReload [demoLayer 1, demoLayer 2] =
    some [((demoLayer 1).1, some (demoLayer 2).2), ((demoLayer 2).1, some [0, 0])] := by
  decide +kernel

end Main

end Korith.Vllm.Connector
