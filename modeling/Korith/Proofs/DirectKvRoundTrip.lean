import Korith.Amf.DirectKv
import Korith.Amf.Overwrite

/-!
# Round trip of a direct snapshot

A save fills the buffer with the snapshot (`copyLayersOut_append`), whatever was in it. A restore finds each tensor at
its offset in the table and copies it back. The cells are not all rebuilt: a cell of the prefix keeps the sequences it
had.
-/

namespace Korith.Amf.DirectKv

variable {F : Type} [FloatArith F] {layers layers' : List KvLayer} {layer : KvLayer} {k v t t' : GgmlTensor}
  {ctx : AmfContext} {tokens : List Token} {total base off : Nat} {before rest buf : List Byte}
  {infos : List AmfDirectKvLayerInfo} {dkv dkv' : AmfDirectKvCtx} {host : Host} {kv : LlamaKvCache}
  {savedMs stale : Nat} {w w' : World F} {saved kv' : LlamaKvCache}

/-! ### The snapshot -/

def layerBytes (layer : KvLayer) : List Byte :=
  match layer.k, layer.v with
  | some k, some v => k.data ++ v.data
  | _, _ => []

def payload (layers : List KvLayer) : List Byte := layers.flatMap layerBytes

def infoBytes (infos : List AmfDirectKvLayerInfo) : List Byte := infos.flatMap fun info => packFields info.fields

def headerBytes (layers : List KvLayer) (ctx : AmfContext) (tokens : List Token) : List Byte :=
  packFields (headerFields layers (payload layers).length ctx tokens)

def snapshot (layers : List KvLayer) (ctx : AmfContext) (tokens : List Token) : List Byte :=
  headerBytes layers ctx tokens ++ infoBytes (layerInfos 0 layers).1 ++ payload layers

theorem payload_cons (layer : KvLayer) (layers : List KvLayer) : payload (layer :: layers) = layerBytes layer ++ payload layers :=
  rfl

theorem layerBytes_both (hk : layer.k = some k) (hv : layer.v = some v) : layerBytes layer = k.data ++ v.data := by
  rw [layerBytes, hk, hv]

theorem length_layerBytes (layer : KvLayer) : (layerBytes layer).length = layer.shape.bytes := by
  obtain ⟨_ | k, _ | v⟩ := layer
  · rfl
  · rfl
  · rfl
  · exact List.length_append

theorem length_payload (layers : List KvLayer) : (payload layers).length = ((layers.map KvLayer.shape).map Shape.bytes).sum := by
  induction layers with
  | nil => rfl
  | cons layer layers ih =>
    rw [payload_cons, List.length_append, length_layerBytes, ih, List.map_cons, List.map_cons, List.sum_cons]

theorem length_headerBytes (layers : List KvLayer) (ctx : AmfContext) (tokens : List Token) :
    (headerBytes layers ctx tokens).length = headerSize := by
  rw [headerBytes, length_packFields]
  rfl

theorem length_infoBytes (infos : List AmfDirectKvLayerInfo) : (infoBytes infos).length = infos.length * layerInfoSize := by
  refine length_flatMap_of_forall fun info _ => ?_
  rw [length_packFields]
  rfl

theorem layerInfos_total (total : Nat) (layers : List KvLayer) :
    (layerInfos total layers).2 = total + (payload layers).length := by
  induction layers generalizing total with
  | nil => rfl
  | cons layer layers ih =>
    obtain ⟨_ | k, _ | v⟩ := layer
    · exact ih total
    · exact ih total
    · exact ih total
    · show (layerInfos (total + k.nbytes + v.nbytes) layers).2 = _
      rw [ih, payload_cons, List.length_append, layerBytes_both rfl rfl, List.length_append]
      show total + k.data.length + v.data.length + _ = _
      omega

theorem length_layerInfos (total : Nat) (layers : List KvLayer) : (layerInfos total layers).1.length = layers.length := by
  induction layers generalizing total with
  | nil => rfl
  | cons layer layers ih =>
    obtain ⟨_ | k, _ | v⟩ := layer
    all_goals exact congrArg Nat.succ (ih _)

theorem length_snapshot (layers : List KvLayer) (ctx : AmfContext) (tokens : List Token) :
    (snapshot layers ctx tokens).length = snapshotSize (layers.map KvLayer.shape) := by
  rw [snapshot, List.length_append, List.length_append, length_headerBytes, length_infoBytes, length_layerInfos,
    length_payload, snapshotSize, List.length_map]

/-! ### Save -/

theorem copyOut_append (h : t.nbytes ≤ rest.length) :
    copyOut before.length t.nbytes t (before ++ rest) = some (before ++ t.data ++ rest.drop t.nbytes) := by
  unfold copyOut
  split_ifs with hpos
  · rw [GgmlTensor.nbytes, List.take_length]
    exact writeAt_append before h
  · have hnil : t.data = [] := List.length_eq_zero_iff.mp (Nat.eq_zero_of_not_pos hpos)
    rw [GgmlTensor.nbytes, hnil, List.append_nil]
    rfl

theorem copyLayersOut_append (hbefore : before.length = base + total) (hrest : (payload layers).length ≤ rest.length) :
    copyLayersOut base (layerInfos total layers).1 layers (before ++ rest) =
      some (before ++ payload layers ++ rest.drop (payload layers).length) := by
  induction layers generalizing total before rest with
  | nil => exact congrArg some (by rw [payload, List.flatMap_nil, List.append_nil]; rfl)
  | cons layer layers ih =>
    obtain ⟨_ | k, _ | v⟩ := layer
    · exact ih hbefore hrest
    · exact ih hbefore hrest
    · exact ih hbefore hrest
    · rw [payload_cons, layerBytes_both rfl rfl, List.length_append, List.length_append] at hrest
      have hk : k.nbytes ≤ rest.length := by
        show k.data.length ≤ _
        omega
      have hv : v.nbytes ≤ (rest.drop k.nbytes).length := by
        rw [List.length_drop]
        show v.data.length ≤ rest.length - k.data.length
        omega
      have hvoff : base + (total + k.nbytes) = (before ++ k.data).length := by
        rw [List.length_append, hbefore]
        exact (Nat.add_assoc ..).symm
      have hnext : (before ++ k.data ++ v.data).length = base + (total + k.nbytes + v.nbytes) := by
        rw [List.length_append, ← hvoff]
        exact Nat.add_assoc ..
      have hroom : (payload layers).length ≤ ((rest.drop k.nbytes).drop v.nbytes).length := by
        rw [List.length_drop, List.length_drop]
        show _ ≤ rest.length - k.data.length - v.data.length
        omega
      show (do
        let buf ← copyOut (base + total) k.nbytes k (before ++ rest)
        let buf ← copyOut (base + (total + k.nbytes)) v.nbytes v buf
        copyLayersOut base (layerInfos (total + k.nbytes + v.nbytes) layers).1 layers buf) = _
      rw [← hbefore, copyOut_append hk, Option.bind_eq_bind, Option.bind_some, hvoff, copyOut_append hv,
        Option.bind_some, ih hnext hroom, payload_cons, layerBytes_both rfl rfl, List.drop_drop,
        List.drop_drop, List.length_append, List.length_append, Nat.add_assoc]
      simp only [List.append_assoc]
      rfl

theorem ensurePinned_length (host : Host) (n : Nat) (dkv : AmfDirectKvCtx) (h : (ensurePinned host n dkv).1 = true)
    (hn : n + n / 10 < 2 ^ 64) : n ≤ (ensurePinned host n dkv).2.pinned.length := by
  unfold ensurePinned at h ⊢
  split_ifs at h ⊢ with hle
  · exact hle
  · split at h
    · cases h
    · rename_i buf hbuf
      have hlen := host.length_malloc _ _ hbuf
      rw [u64, Nat.mod_eq_of_lt hn] at hlen
      show n ≤ buf.length
      omega

theorem fill_buffer (layers : List KvLayer) (ctx : AmfContext) (tokens : List Token) {pinned : List Byte}
    (hlen : (snapshot layers ctx tokens).length ≤ pinned.length) :
    (do
      let buf ← writeAt 0 (packFields (headerFields layers (layerInfos 0 layers).2 ctx tokens)) pinned
      let buf ← writeAt headerSize ((layerInfos 0 layers).1.flatMap fun info => packFields info.fields) buf
      copyLayersOut (headerSize + layers.length * layerInfoSize) (layerInfos 0 layers).1 layers buf) =
    some (snapshot layers ctx tokens ++ pinned.drop (snapshot layers ctx tokens).length) := by
  have hparts := hlen
  rw [snapshot, List.length_append, List.length_append] at hparts
  have hheader : writeAt 0 (headerBytes layers ctx tokens) pinned =
      some (headerBytes layers ctx tokens ++ pinned.drop (headerBytes layers ctx tokens).length) :=
    writeAt_append [] (by omega)
  have hinfos : writeAt headerSize (infoBytes (layerInfos 0 layers).1)
      (headerBytes layers ctx tokens ++ pinned.drop (headerBytes layers ctx tokens).length) = some (headerBytes layers ctx tokens ++
        infoBytes (layerInfos 0 layers).1 ++ (pinned.drop (headerBytes layers ctx tokens).length).drop
          (infoBytes (layerInfos 0 layers).1).length) := by
    rw [← length_headerBytes layers ctx tokens]
    exact writeAt_append _ (by rw [List.length_drop]; omega)
  have hbase : (headerBytes layers ctx tokens ++ infoBytes (layerInfos 0 layers).1).length =
      headerSize + layers.length * layerInfoSize + 0 := by
    rw [List.length_append, length_headerBytes, length_infoBytes, length_layerInfos, Nat.add_zero]
  rw [layerInfos_total, Nat.zero_add, ← headerBytes, hheader, Option.bind_eq_bind, Option.bind_some, ← infoBytes, hinfos,
    Option.bind_some, copyLayersOut_append hbase (by rw [List.length_drop, List.length_drop]; omega),
    List.drop_drop, List.drop_drop, snapshot, List.length_append, List.length_append, Nat.add_assoc]

theorem of_amfDirectKvSave {e : Env F}
    (h : amfDirectKvSave host e stale kv ctx tokens savedMs dkv w = some (true, dkv', w')) :
    kv.layers ≠ [] ∧ (snapshot kv.layers ctx tokens).length ≤ dkv'.pinned.length ∧
    storeEntry e stale ctx tokens (snapshot kv.layers ctx tokens) savedMs w = (true, w') := by
  have hsize : headerSize + kv.layers.length * layerInfoSize + (layerInfos 0 kv.layers).2 =
      (snapshot kv.layers ctx tokens).length := by
    rw [layerInfos_total, Nat.zero_add, length_snapshot, snapshotSize, List.length_map, length_payload]
  unfold amfDirectKvSave at h
  split_ifs at h with hnil
  · cases h
  dsimp only at h
  rw [hsize] at h
  have hpinned := ensurePinned_length host (snapshot kv.layers ctx tokens).length dkv
  split at h
  · cases h
  rename_i dkv₁ hdkv
  rw [hdkv] at hpinned
  have hlen := hpinned rfl (by rw [length_snapshot]; exact kv.addressable)
  have hfill := fill_buffer kv.layers ctx tokens hlen
  obtain ⟨buf₁, h1, hfill⟩ := Option.bind_eq_some_iff.mp hfill
  obtain ⟨buf₂, h2, h3⟩ := Option.bind_eq_some_iff.mp hfill
  rw [h1, Option.bind_eq_bind, Option.bind_some, h2, Option.bind_some, h3, Option.bind_some, List.take_left] at h
  obtain ⟨hok, hdkv', hw⟩ : _ ∧ _ ∧ _ := by simpa using h
  refine ⟨fun h => hnil (by rw [h]; rfl), ?_, Prod.ext hok hw⟩
  rw [← hdkv', List.length_append]
  exact Nat.le_add_right _ _

/-! ### Restore -/

theorem layerInfos_lt {bound : Nat} (h : total + (payload layers).length < bound) :
    ∀ info ∈ (layerInfos total layers).1, ∀ f ∈ info.fields, f.2 < bound := by
  induction layers generalizing total with
  | nil => exact fun info hinfo => absurd hinfo List.not_mem_nil
  | cons layer layers ih =>
    have hzero : total < bound → ∀ f ∈ AmfDirectKvLayerInfo.fields ⟨total, 0, total, 0⟩, f.2 < bound := by
      intro htotal f hf
      simp only [AmfDirectKvLayerInfo.fields, List.mem_cons, List.not_mem_nil, or_false] at hf
      rcases hf with rfl | rfl | rfl | rfl <;> omega
    obtain ⟨_ | k, _ | v⟩ := layer
    · exact List.forall_mem_cons.mpr ⟨hzero (by omega), ih h⟩
    · exact List.forall_mem_cons.mpr ⟨hzero (by omega), ih h⟩
    · exact List.forall_mem_cons.mpr ⟨hzero (by omega), ih h⟩
    · rw [payload_cons, List.length_append, layerBytes_both rfl rfl, List.length_append] at h
      have hk : k.nbytes = k.data.length := rfl
      have hv : v.nbytes = v.data.length := rfl
      refine List.forall_mem_cons.mpr ⟨fun f hf => ?_, ih (by omega)⟩
      simp only [AmfDirectKvLayerInfo.fields, List.mem_cons, List.not_mem_nil, or_false] at hf
      rcases hf with rfl | rfl | rfl | rfl <;> dsimp only <;> omega

theorem readInfos_infoBytes (h : ∀ info ∈ infos, ∀ f ∈ info.fields, f.2 < 256 ^ 8) (rest : List Byte) :
    readInfos infos.length (infoBytes infos ++ rest) = some infos := by
  induction infos with
  | nil => rfl
  | cons info infos ih =>
    obtain ⟨hinfo, hinfos⟩ := List.forall_mem_cons.mp h
    have hwidths : ∀ f ∈ info.fields, f.2 < 256 ^ f.1 := by
      intro f hf
      have hlt := hinfo f hf
      simp only [AmfDirectKvLayerInfo.fields, List.mem_cons, List.not_mem_nil, or_false] at hf
      rcases hf with rfl | rfl | rfl | rfl <;> exact hlt
    have hrow : unpackFields [8, 8, 8, 8] (packFields info.fields ++ (infoBytes infos ++ rest)) =
        some [info.kOffset, info.kBytes, info.vOffset, info.vBytes] := unpackFields_packFields info.fields hwidths _
    have hdrop : (packFields info.fields ++ (infoBytes infos ++ rest)).drop layerInfoSize = infoBytes infos ++ rest :=
      List.drop_left' (length_packFields info.fields)
    rw [infoBytes, List.flatMap_cons, ← infoBytes, List.append_assoc, List.length_cons, readInfos, hrow]
    dsimp only
    rw [hdrop, ih hinfos]
    rfl

theorem copyIn_at (hbuf : At buf off t.data) (hsize : t'.nbytes = t.nbytes) :
    copyIn off t.nbytes t' buf = some { t' with data := t.data } := by
  unfold copyIn
  split_ifs with hpos
  · rw [GgmlTensor.nbytes, hbuf.readAt, Option.map_some]
  · have hzero : t.nbytes = 0 := Nat.eq_zero_of_not_pos hpos
    have hnil : t.data = [] := List.length_eq_zero_iff.mp hzero
    have hnil' : t'.data = [] := List.length_eq_zero_iff.mp (hsize.trans hzero)
    rw [hnil, ← hnil']

def restoredLayer (saved layer : KvLayer) : KvLayer :=
  match saved.k, saved.v with
  | some k, some v => ⟨layer.k.map ({ · with data := k.data }), layer.v.map ({ · with data := v.data })⟩
  | _, _ => layer

theorem shape_both (h : layer.shape = KvLayer.shape ⟨some k, some v⟩) :
    ∃ k' v', layer = ⟨some k', some v'⟩ ∧ k'.nbytes = k.nbytes ∧ v'.nbytes = v.nbytes := by
  obtain ⟨lk, lv⟩ := layer
  obtain ⟨hk, hv⟩ := Prod.mk.inj h
  obtain ⟨k', rfl, hk'⟩ := Option.map_eq_some_iff.mp hk
  obtain ⟨v', rfl, hv'⟩ := Option.map_eq_some_iff.mp hv
  exact ⟨k', v', rfl, hk', hv'⟩

theorem copyLayersIn_skip {info : AmfDirectKvLayerInfo} (h : layer.k = none ∨ layer.v = none) :
    copyLayersIn base buf (info :: infos) (layer :: layers) =
      (copyLayersIn base buf infos layers).map fun r => (r.1, layer :: r.2) := by
  obtain ⟨_ | k, _ | v⟩ := layer
  · rfl
  · rfl
  · rfl
  · rcases h with h | h <;> cases h

theorem copyLayersIn_at (hbuf : At buf (base + total) (payload layers))
    (hshape : layers'.map KvLayer.shape = layers.map KvLayer.shape) :
    copyLayersIn base buf (layerInfos total layers).1 layers' =
      some (true, List.zipWith restoredLayer layers layers') := by
  induction layers generalizing layers' total with
  | nil =>
    obtain rfl := List.map_eq_nil_iff.mp hshape
    rfl
  | cons layer layers ih =>
    obtain ⟨layer', layers', rfl, hlayer, hlayers⟩ := List.map_eq_cons_iff.mp hshape
    have hskip : layer'.k = none ∨ layer'.v = none → At buf (base + total) (payload layers) →
        copyLayersIn base buf (⟨total, 0, total, 0⟩ :: (layerInfos total layers).1) (layer' :: layers') =
          some (true, layer' :: List.zipWith restoredLayer layers layers') := by
      intro hnone hbuf
      rw [copyLayersIn_skip hnone, ih hbuf hlayers]
      rfl
    obtain ⟨_ | k, _ | v⟩ := layer
    · exact hskip (.inl (Option.map_eq_none_iff.mp (Prod.mk.inj hlayer).1)) hbuf
    · exact hskip (.inl (Option.map_eq_none_iff.mp (Prod.mk.inj hlayer).1)) hbuf
    · exact hskip (.inr (Option.map_eq_none_iff.mp (Prod.mk.inj hlayer).2)) hbuf
    · obtain ⟨k', v', rfl, hk, hv⟩ := shape_both hlayer
      rw [payload_cons, layerBytes_both rfl rfl] at hbuf
      have hbufk : At buf (base + total) k.data := hbuf.left.left
      have hbufv : At buf (base + (total + k.nbytes)) v.data := by
        rw [← Nat.add_assoc]
        exact hbuf.left.right
      have hnext : At buf (base + (total + k.nbytes + v.nbytes)) (payload layers) := by
        have hright := hbuf.right
        rwa [List.length_append, Nat.add_assoc, ← Nat.add_assoc total] at hright
      show (if k.nbytes ≠ k'.nbytes ∨ v.nbytes ≠ v'.nbytes then _ else _) = _
      rw [if_neg (by rw [hk, hv]; simp)]
      dsimp only
      rw [copyIn_at hbufk hk, Option.bind_eq_bind, Option.bind_some, copyIn_at hbufv hv, Option.bind_some,
        ih hnext hlayers]
      rfl

theorem restoreCache_of_some (nTokens : Nat) {r : Bool × List KvLayer}
    (h : copyLayersIn base buf infos kv.layers = some r) : restoreCache base nTokens infos buf kv = some (r.1,
      if r.1 then (kv.withLayers r.2 (copyLayersIn_shape h)).occupy nTokens
      else kv.withLayers r.2 (copyLayersIn_shape h)) := by
  unfold restoreCache
  split
  · rename_i hnone
    cases hnone.symm.trans h
  · rename_i hfalse
    cases hfalse.symm.trans h
    rfl
  · rename_i htrue
    cases htrue.symm.trans h
    rfl

theorem headerFields_lt (hlayers : layers.length < 2 ^ 32) (htotal : total < 2 ^ 64) :
    ∀ f ∈ headerFields layers total ctx tokens, f.2 < 256 ^ f.1 := by
  have hdtype : (firstK layers).elim 0 (fun k => dtypeFromGgml k.type) < 256 ^ 4 := by
    cases firstK layers with
    | none => exact Nat.pow_pos (by omega)
    | some k => cases htype : k.type <;> simp [htype, dtypeFromGgml]
  have hhash := (amfHashTokens tokens).isLt
  have hmodel := ctx.modelHash.isLt
  intro f hf
  simp only [headerFields, List.mem_cons, List.not_mem_nil, or_false] at hf
  rcases hf with rfl | rfl | rfl | rfl | rfl | rfl | rfl | rfl | rfl | rfl | rfl
  all_goals first | exact hdtype | (simp only [kAmfDirectKvMagic, kAmfDirectKvVersion]; omega)

theorem restoreFrom_snapshot (ctx : AmfContext) (tokens : List Token)
    (hshape : kv.layers.map KvLayer.shape = saved.layers.map KvLayer.shape) (rest : List Byte) :
    ∃ kv', restoreFrom (snapshot saved.layers ctx tokens ++ rest) (snapshot saved.layers ctx tokens).length kv =
        some (true, kv') ∧
      kv'.layers = List.zipWith restoredLayer saved.layers kv.layers ∧
      kv'.cells = kv.cells.mapIdx (occupyCell (tokens.length % 2 ^ 32)) := by
  have hsize := length_snapshot saved.layers ctx tokens
  have hparts : (snapshot saved.layers ctx tokens).length =
      headerSize + saved.layers.length * layerInfoSize + (payload saved.layers).length := by
    rw [hsize, snapshotSize, List.length_map, length_payload]
  have haddr := saved.addressable
  rw [← hsize] at haddr
  have hfields : unpackFields headerWidths (snapshot saved.layers ctx tokens ++ rest) =
      some ((headerFields saved.layers (payload saved.layers).length ctx tokens).map Prod.snd) := by
    rw [snapshot, List.append_assoc, List.append_assoc, headerBytes]
    exact unpackFields_packFields _ (headerFields_lt saved.layers_lt (by omega)) _
  have hinfos : readInfos saved.layers.length ((snapshot saved.layers ctx tokens ++ rest).drop headerSize) =
      some (layerInfos 0 saved.layers).1 := by
    rw [snapshot, List.append_assoc, List.append_assoc, List.drop_left' (length_headerBytes ..),
      ← length_layerInfos 0 saved.layers]
    exact readInfos_infoBytes (layerInfos_lt (by rw [Nat.zero_add]; omega)) _
  have hpayload : At (snapshot saved.layers ctx tokens ++ rest)
      (headerSize + saved.layers.length * layerInfoSize + 0) (payload saved.layers) := by
    refine ⟨headerBytes saved.layers ctx tokens ++ infoBytes (layerInfos 0 saved.layers).1, rest, ?_, rfl⟩
    rw [List.length_append, length_headerBytes, length_infoBytes, length_layerInfos, Nat.add_zero]
  have hcount : saved.layers.length = kv.layers.length := by
    have hlen := congrArg List.length hshape
    rwa [List.length_map, List.length_map, eq_comm] at hlen
  have hcopies := copyLayersIn_at hpayload hshape
  refine ⟨(kv.withLayers _ (copyLayersIn_shape hcopies)).occupy (tokens.length % 2 ^ 32), ?_, rfl, rfl⟩
  rw [restoreFrom, if_neg (by omega), hfields]
  show (if kAmfDirectKvMagic ≠ kAmfDirectKvMagic then _ else if kAmfDirectKvVersion ≠ kAmfDirectKvVersion then _ else
    if _ < headerSize + saved.layers.length * layerInfoSize then _ else _) = _
  rw [if_neg (not_not.mpr rfl), if_neg (not_not.mpr rfl), if_neg (by omega), hinfos]
  dsimp only
  rw [if_neg (not_not.mpr hcount)]
  exact restoreCache_of_some _ hcopies

theorem restore_of_save (host' : Host) (kv : LlamaKvCache) {e : Env F} {w w' : World F} (hio : ∀ n, e.writeKv n = .ok)
    (hsave : amfDirectKvSave host e stale saved ctx tokens savedMs dkv w = some (true, dkv', w'))
    (hshape : kv.layers.map KvLayer.shape = saved.layers.map KvLayer.shape) : ∃ kv' dkv'', amfDirectKvRestore host' kv
        (storedEntry e ctx tokens (snapshot saved.layers ctx tokens) savedMs w) dkv' w' = some (true, kv', dkv'') ∧
      kv'.layers = List.zipWith restoredLayer saved.layers kv.layers ∧
      kv'.cells = kv.cells.mapIdx (occupyCell (tokens.length % 2 ^ 32)) := by
  obtain ⟨-, hroom, hstore⟩ := of_amfDirectKvSave hsave
  have hheader : headerSize ≤ (snapshot saved.layers ctx tokens).length := by
    rw [length_snapshot, snapshotSize]
    omega
  have hne : snapshot saved.layers ctx tokens ≠ [] := by
    intro hnil
    rw [hnil] at hheader
    cases hheader
  have hload : loadKv (storedEntry e ctx tokens (snapshot saved.layers ctx tokens) savedMs w) w' =
      some (snapshot saved.layers ctx tokens) := by
    have hok : (storeEntry e stale ctx tokens (snapshot saved.layers ctx tokens) savedMs w).1 = true := by rw [hstore]
    have hload := loadKv_storedEntry hok hio hne
    rwa [hstore] at hload
  have hpinned : ensurePinned host' (snapshot saved.layers ctx tokens).length dkv' = (true, dkv') := if_pos hroom
  obtain ⟨kv', hkv', hlayers, hcells⟩ := restoreFrom_snapshot ctx tokens hshape
    (dkv'.pinned.drop (snapshot saved.layers ctx tokens).length)
  refine ⟨kv', ⟨snapshot saved.layers ctx tokens ++ dkv'.pinned.drop (snapshot saved.layers ctx tokens).length⟩, ?_,
    hlayers, hcells⟩
  rw [amfDirectKvRestore, (storedEntry_fields ..).2.1, if_neg (Nat.not_lt.mpr hheader), hpinned]
  dsimp only
  rw [loadKvInto_of_loadKv hload hroom]
  dsimp only
  rw [hkv', Option.map_some]

/-! ### The cells -/

theorem llamaPos_eq_iff {i : Nat} (hi : i < 2 ^ 32) : llamaPos i = i ↔ i < 2 ^ 31 := by
  rw [llamaPos, BitVec.toInt_eq_toNat_cond, BitVec.toNat_ofNat, Nat.mod_eq_of_lt hi]
  split_ifs <;> omega

theorem occupyCell_eq_iff {n i : Nat} {cell : KvCell} (hi : i < n) (hlt : i < 2 ^ 32) :
    occupyCell n i cell = ⟨i, {0}⟩ ↔ i < 2 ^ 31 ∧ cell.seqId ⊆ {0} := by
  rw [occupyCell, if_pos hi, KvCell.mk.injEq, llamaPos_eq_iff hlt]
  refine and_congr_right fun _ => ⟨?_, ?_⟩
  · intro heq
    rw [← heq]
    exact Finset.subset_insert _ _
  · intro hsub
    exact Finset.Subset.antisymm (Finset.insert_subset (Finset.mem_singleton_self 0) hsub)
      (Finset.singleton_subset_iff.mpr (Finset.mem_insert_self _ _))

/-- The K and V tensors of every layer of `saved` that has both are back. -/
def TensorsRestored (saved kv : LlamaKvCache) : Prop :=
  ∀ (i : Nat) (layer : KvLayer) (k v : GgmlTensor), saved.layers[i]? = some layer → layer.k = some k →
    layer.v = some v → ∃ (layer' : KvLayer) (k' v' : GgmlTensor), kv.layers[i]? = some layer' ∧ layer'.k = some k' ∧
      layer'.v = some v' ∧ k'.data = k.data ∧ v'.data = v.data

structure CellsRestored (n : Nat) (kv : LlamaKvCache) : Prop where
  occupied : ∀ i < n, kv.cells[i]? = some ⟨i, {0}⟩
  free : ∀ i cell, n ≤ i → kv.cells[i]? = some cell → cell = ⟨-1, ∅⟩

theorem tensorsRestored_zipWith (hshape : kv.layers.map KvLayer.shape = saved.layers.map KvLayer.shape)
    (hlayers : kv'.layers = List.zipWith restoredLayer saved.layers kv.layers) : TensorsRestored saved kv' := by
  rintro i ⟨lk, lv⟩ k v hi rfl rfl
  have hshape_i : (kv.layers[i]?).map KvLayer.shape = some (KvLayer.shape ⟨some k, some v⟩) := by
    rw [← List.getElem?_map, hshape, List.getElem?_map, hi, Option.map_some]
  obtain ⟨layer', hi', hlayer'⟩ := Option.map_eq_some_iff.mp hshape_i
  obtain ⟨k', v', rfl, -, -⟩ := shape_both hlayer'
  refine ⟨⟨some { k' with data := k.data }, some { v' with data := v.data }⟩, _, _, ?_, rfl, rfl, rfl, rfl⟩
  rw [hlayers, List.getElem?_zipWith, hi, hi']
  rfl

theorem cellsRestored_iff {n : Nat} (hn : n ≤ kv.cells.length) (hcells : kv'.cells = kv.cells.mapIdx (occupyCell n)) :
    CellsRestored n kv' ↔ n ≤ 2 ^ 31 ∧ ∀ i < n, ∀ cell, kv.cells[i]? = some cell → cell.seqId ⊆ {0} := by
  have hlt := kv.cells_lt
  have hget : ∀ i, kv'.cells[i]? = (kv.cells[i]?).map (occupyCell n i) := by
    intro i
    rw [hcells, List.getElem?_mapIdx]
  have hfirst : ∀ i < n, (kv'.cells[i]? = some ⟨i, {0}⟩ ↔
      i < 2 ^ 31 ∧ ∀ cell, kv.cells[i]? = some cell → cell.seqId ⊆ {0}) := by
    intro i hi
    obtain ⟨cell, hcell⟩ : ∃ cell, kv.cells[i]? = some cell := ⟨_, List.getElem?_eq_getElem (by omega)⟩
    rw [hget, hcell, Option.map_some, Option.some.injEq, occupyCell_eq_iff hi (by omega)]
    refine and_congr_right fun _ => ⟨?_, fun h => h cell rfl⟩
    rintro h _ ⟨⟩
    exact h
  constructor
  · rintro ⟨hocc, -⟩
    refine ⟨?_, fun i hi => ((hfirst i hi).mp (hocc i hi)).2⟩
    by_contra hbig
    have hlast := (hfirst (n - 1) (by omega)).mp (hocc (n - 1) (by omega))
    omega
  · rintro ⟨hn31, hseq⟩
    refine ⟨fun i hi => (hfirst i hi).mpr ⟨by omega, hseq i hi⟩, ?_⟩
    intro i cell hi hcell
    rw [hget] at hcell
    obtain ⟨cell₀, -, rfl⟩ := Option.map_eq_some_iff.mp hcell
    rw [occupyCell, if_neg (by omega)]

/-! ### The result -/

/-- Into any cache of the same layout; the cells are right exactly if none of those that get a token was in another
sequence than 0, and positions fit into `llama_pos`. -/
theorem save_restore_direct_iff (host host' : Host) (e : Env F) (stale savedMs : Nat) (saved kv : LlamaKvCache)
    (ctx : AmfContext) (tokens : List Token) (dkv dkv' : AmfDirectKvCtx) (w w' : World F)
    (hio : ∀ n, e.writeKv n = .ok) (hsave : amfDirectKvSave host e stale saved ctx tokens savedMs dkv w = some (true, dkv', w'))
    (hshape : kv.layers.map KvLayer.shape = saved.layers.map KvLayer.shape) (hcells : tokens.length ≤ kv.cells.length) :
    ∃ kv' dkv'', amfDirectKvRestore host' kv
        (storedEntry e ctx tokens (snapshot saved.layers ctx tokens) savedMs w) dkv' w' = some (true, kv', dkv'') ∧
      TensorsRestored saved kv' ∧
      (CellsRestored tokens.length kv' ↔
        tokens.length ≤ 2 ^ 31 ∧ ∀ i < tokens.length, ∀ cell, kv.cells[i]? = some cell → cell.seqId ⊆ {0}) := by
  obtain ⟨kv', dkv'', hrestore, hlayers, hocc⟩ := restore_of_save host' kv hio hsave hshape
  have hlt := kv.cells_lt
  rw [Nat.mod_eq_of_lt (by omega)] at hocc
  exact ⟨kv', dkv'', hrestore, tensorsRestored_zipWith hshape hlayers, cellsRestored_iff hcells hocc⟩

def zeroHost : Host where
  malloc n := some (List.replicate n 0)
  length_malloc n buf h := by
    cases h
    exact List.length_replicate

def unlimitedEnv : Env Frac := { smallEnv with maxBytes := 0, storageBudgetBytes := 0 }

def twoLayers (data : List Byte) : List KvLayer :=
  [⟨some ⟨.f16, 1, 1, data⟩, some ⟨.f16, 1, 1, data⟩⟩, ⟨none, none⟩]

theorem two_lt : 2 < 2 ^ 32 := by decide

theorem twoLayers_addressable (data : Byte) : snapshotSize ((twoLayers [data, data]).map KvLayer.shape) +
    snapshotSize ((twoLayers [data, data]).map KvLayer.shape) / 10 < 2 ^ 64 := by
  show 124 + 124 / 10 < 2 ^ 64
  decide

def twoCells (data : Byte) (seqId : Finset Int) : LlamaKvCache where
  layers := twoLayers [data, data]
  cells := [⟨7, seqId⟩, ⟨-1, ∅⟩]
  head := 0
  used := 0
  layers_lt := two_lt
  cells_lt := two_lt
  addressable := twoLayers_addressable data

def savedWorld : World Frac := run unlimitedEnv [.init true] emptyWorld

theorem twoCells_saved : (amfDirectKvSave zeroHost unlimitedEnv 0 (twoCells 3 {0}) (tenant 1) [5] 0 ⟨[]⟩ savedWorld).map
    (·.1) = some true := by
  decide +kernel

theorem save_restore_direct_iff_two : ∃ dkv' w' kv' dkv'',
    amfDirectKvSave zeroHost unlimitedEnv 0 (twoCells 3 {0}) (tenant 1) [5] 0 ⟨[]⟩ savedWorld = some (true, dkv', w') ∧
    amfDirectKvRestore zeroHost (twoCells 9 {0}) (storedEntry unlimitedEnv (tenant 1) [5]
      (snapshot (twoLayers [3, 3]) (tenant 1) [5]) 0 savedWorld) dkv' w' = some (true, kv', dkv'') ∧
    TensorsRestored (twoCells 3 {0}) kv' ∧ CellsRestored 1 kv' := by
  obtain ⟨⟨ok, dkv', w'⟩, hsave, rfl⟩ := Option.map_eq_some_iff.mp twoCells_saved
  obtain ⟨kv', dkv'', hrestore, htensors, hcells⟩ := save_restore_direct_iff zeroHost zeroHost unlimitedEnv 0 0
    (twoCells 3 {0}) (twoCells 9 {0}) (tenant 1) [5] ⟨[]⟩ dkv' savedWorld w' (fun _ => rfl) hsave rfl (by decide)
  refine ⟨dkv', w', kv', dkv'', hsave, hrestore, htensors, hcells.mpr ⟨by decide, ?_⟩⟩
  intro i hi cell hcell
  obtain rfl : i = 0 := Nat.lt_one_iff.mp hi
  cases hcell
  exact Finset.Subset.refl _

/-- The cell of the only token was in sequence 1, and is in 0 and 1 after the restore. -/
theorem restore_keeps_other_sequence : ∃ dkv' w' kv' dkv'',
    amfDirectKvSave zeroHost unlimitedEnv 0 (twoCells 3 {0}) (tenant 1) [5] 0 ⟨[]⟩ savedWorld = some (true, dkv', w') ∧
    amfDirectKvRestore zeroHost (twoCells 9 {1}) (storedEntry unlimitedEnv (tenant 1) [5]
      (snapshot (twoLayers [3, 3]) (tenant 1) [5]) 0 savedWorld) dkv' w' = some (true, kv', dkv'') ∧
    kv'.cells = [⟨0, {0, 1}⟩, ⟨-1, ∅⟩] ∧ ¬ CellsRestored 1 kv' := by
  obtain ⟨⟨ok, dkv', w'⟩, hsave, rfl⟩ := Option.map_eq_some_iff.mp twoCells_saved
  obtain ⟨kv', dkv'', hrestore, -, hocc⟩ := restore_of_save zeroHost (twoCells 9 {1}) (fun _ => rfl) hsave rfl
  have hcells : kv'.cells = [⟨0, {0, 1}⟩, ⟨-1, ∅⟩] := hocc.trans (by decide)
  refine ⟨dkv', w', kv', dkv'', hsave, hrestore, hcells, ?_⟩
  rintro ⟨hfirst, -⟩
  have hcell := hfirst 0 Nat.one_pos
  rw [hcells] at hcell
  exact absurd hcell (by decide)

end Korith.Amf.DirectKv
