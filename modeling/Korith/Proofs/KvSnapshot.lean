import Korith.Lib.Python
import Korith.Vllm.KvManager

/-!
# Whose snapshot is restored

A snapshot is found by the 64-bit hash of its prompt and by nothing else: the token file is written but never read.
-/

namespace Korith.Vllm

variable {m : Manager} {P Q : List Int} {blockTable : List Nat} {gpuCache : List LayerCache} {fs fs' : Files}
  {writeFails tokFails : Bool} {blob : List Byte} {readFails : Bool} {n : Nat}

/-! ### Names -/

theorem kvFilename_eq_iff :
    (m.computeAmfKey P none).kvFilename = (m.computeAmfKey Q none).kvFilename ↔ amfHashTokens P = amfHashTokens Q := by
  constructor
  · intro h
    have hstem := (String.append_left_inj ".kv").1 h
    exact BitVec.eq_of_toNat_eq (Amf.amfKeyFilename_inj hstem).2.2.1
  · intro h
    rw [Manager.computeAmfKey, h]
    rfl

theorem kvFilename_ne_tokFilename (key key' : Key) : key.kvFilename ≠ key'.tokFilename := by
  intro h
  have hlast := congrArg (fun s => s.toList.getLast?) h
  simp [Key.kvFilename, Key.tokFilename, String.toList_append] at hlast

/-! ### Bytes of a snapshot -/

theorem structPack_eq_some {fields : List (Nat × Nat)} {bytes : List Byte} (h : structPack fields = some bytes) :
    (∀ f ∈ fields, f.2 < 256 ^ f.1) ∧ bytes = packFields fields := by
  unfold structPack at h
  split_ifs at h with hfit
  exact ⟨hfit, (Option.some.inj h).symm⟩

theorem length_layerInfos (total : Nat) (kvs : List (List Byte × List Byte)) :
    (layerInfos total kvs).length = kvs.length := by
  induction kvs generalizing total with
  | nil => rfl
  | cons kv kvs ih => rw [layerInfos, List.length_cons, List.length_cons, ih]

theorem length_table {infos : List LayerInfo} {table : List (List Byte)}
    (h : List.Forall₂ (fun i row => structPack [(8, i.kOff), (8, i.kSz), (8, i.vOff), (8, i.vSz)] = some row)
      infos table) : table.flatten.length = infos.length * layerSize := by
  induction h with
  | nil => rfl
  | cons hrow _ ih =>
    rw [List.flatten_cons, List.length_append, ih, (structPack_eq_some hrow).2, length_packFields, List.length_cons,
      Nat.succ_mul, Nat.add_comm]
    rfl

structure Parses (nLayers nTokens : Nat) (blob : List Byte) : Prop where
  header : ∃ rest, unpackFields headerWidths blob = some (amfkMagic :: amfkVersion :: nLayers :: nTokens :: rest)
  length : headerSize + nLayers * layerSize ≤ blob.length

theorem parses_buildBlob {key : Key} {nTokens : Nat} {sample : LayerCache} {kvs : List (List Byte × List Byte)}
    (h : buildBlob key nTokens sample kvs = some blob) : Parses kvs.length nTokens blob := by
  obtain ⟨header, hheader, h⟩ := Option.bind_eq_some_iff.1 h
  obtain ⟨table, htable, h⟩ := Option.bind_eq_some_iff.1 h
  cases h
  obtain ⟨hfit, rfl⟩ := structPack_eq_some hheader
  have hlen := length_table (forall₂_of_mapM htable)
  rw [length_layerInfos] at hlen
  have hunpack := unpackFields_packFields _ hfit (table.flatten ++ kvs.flatMap fun kv => kv.1 ++ kv.2)
  rw [← List.append_assoc] at hunpack
  refine ⟨⟨_, hunpack⟩, ?_⟩
  rw [List.length_append, List.length_append, length_packFields, hlen]
  exact Nat.le_add_right _ _

/-! ### Saving -/

theorem saveKvState_other {name : String} (hkv : name ≠ (m.computeAmfKey P none).kvFilename)
    (htok : name ≠ (m.computeAmfKey P none).tokFilename) :
    (m.saveKvState P blockTable gpuCache writeFails tokFails fs).2 name = fs name := by
  unfold Manager.saveKvState
  cases gpuCache with
  | nil => rfl
  | cons sample ls =>
    dsimp only
    split
    · rfl
    · split_ifs <;> simp [Files.write, hkv, htok]

theorem saveKvState_blob (h : m.saveKvState P blockTable gpuCache writeFails tokFails fs = (.returned true, fs')) :
    ∃ sample kvs blob, collect blockTable gpuCache = some kvs ∧
      buildBlob (m.computeAmfKey P none) P.length sample kvs = some blob ∧
      fs' (m.computeAmfKey P none).kvFilename = some blob := by
  unfold Manager.saveKvState at h
  cases gpuCache with
  | nil => simp at h
  | cons sample ls =>
    dsimp only at h
    split at h
    · simp at h
    · next blob hblob =>
      obtain ⟨kvs, hkvs, hblob⟩ := Option.bind_eq_some_iff.1 hblob
      refine ⟨sample, kvs, blob, hkvs, hblob, ?_⟩
      split_ifs at h
      · cases (Prod.mk.inj h).1
      · obtain rfl := (Prod.mk.inj h).2
        simp [Files.write]
      · obtain rfl := (Prod.mk.inj h).2
        simp [Files.write, kvFilename_ne_tokFilename]
      · cases (Prod.mk.inj h).1

theorem saveKvState_parses (h : m.saveKvState P blockTable gpuCache writeFails tokFails fs = (.returned true, fs')) :
    ∃ blob, fs' (m.computeAmfKey P none).kvFilename = some blob ∧ Parses gpuCache.length P.length blob := by
  obtain ⟨sample, kvs, blob, hkvs, hblob, hfile⟩ := saveKvState_blob h
  have hparses := parses_buildBlob hblob
  rw [← (forall₂_of_mapM hkvs).length_eq] at hparses
  exact ⟨blob, hfile, hparses⟩

/-! ### Restoring -/

theorem restoreLayers_noBlocks (payload : List Byte) (ls : List LayerCache) (infos : List LayerInfo) :
    restoreLayers [] payload ls infos = (true, ls) := by
  induction ls generalizing infos with
  | nil => cases infos <;> rfl
  | cons l ls ih =>
    cases infos with
    | nil => rfl
    | cons info infos =>
      have hl : restoreLayer [] payload l info = some l := by
        unfold restoreLayer
        split_ifs with hsz hnil
        · rfl
        · rfl
        · exact absurd rfl hnil
      rw [restoreLayers, hl]
      dsimp only
      rw [ih]

/-- The loop over the layers of the file. -/
def restoreBlob (blockTable : List Nat) (blob : List Byte) (gpuCache : List LayerCache) : Bool × List LayerCache :=
  restoreLayers blockTable (blob.drop (headerSize + gpuCache.length * layerSize)) gpuCache
    ((List.range gpuCache.length).map (readInfo blob))

variable (hfile : fs (m.computeAmfKey Q none).kvFilename = some blob)

include hfile

theorem restoreKvState_of_parses
    (hparses : Parses gpuCache.length n blob) : m.restoreKvState Q blockTable false gpuCache fs =
      (if (restoreBlob blockTable blob gpuCache).1 then .returned n else .raised,
        (restoreBlob blockTable blob gpuCache).2) := by
  obtain ⟨⟨rest, hheader⟩, hlen⟩ := hparses
  have hpass : ¬ (amfkMagic ≠ amfkMagic ∨ amfkVersion ≠ amfkVersion ∨ gpuCache.length ≠ gpuCache.length ∨
      blob.length < headerSize + gpuCache.length * layerSize) := by simp [hlen]
  simp only [Manager.restoreKvState, hfile, hheader, if_neg hpass]
  rfl

theorem restoreKvState_of_not_parses (h : readFails = false → ∀ n, ¬ Parses gpuCache.length n blob) :
    m.restoreKvState Q blockTable readFails gpuCache fs = (.returned 0, gpuCache) := by
  unfold Manager.restoreKvState
  rw [hfile]
  dsimp only
  split_ifs with hread
  · rfl
  · split
    · rename_i hheader
      rw [if_pos]
      by_contra hbad
      rw [not_or, not_or, not_or, not_not, not_not, not_not, Nat.not_lt] at hbad
      obtain ⟨rfl, rfl, rfl, hlen⟩ := hbad
      exact h (Bool.eq_false_iff.2 hread) _ ⟨⟨_, hheader⟩, hlen⟩
    · rfl

theorem restoreKvState_noBlocks
    (hparses : Parses gpuCache.length n blob) : (m.restoreKvState Q [] false gpuCache fs).1 = .returned n := by
  rw [restoreKvState_of_parses hfile hparses, restoreBlob, restoreLayers_noBlocks]
  rfl

theorem restoreKvState_eq {nLayers n' : Nat} (hparses : Parses nLayers n blob)
    (h : (m.restoreKvState Q blockTable readFails gpuCache fs).1 = .returned n') : n' = 0 ∨ n' = n := by
  obtain ⟨⟨rest, hheader⟩, -⟩ := hparses
  simp only [Manager.restoreKvState, hfile, hheader] at h
  split_ifs at h
  · exact .inl (Outcome.returned.inj h).symm
  · exact .inl (Outcome.returned.inj h).symm
  · exact .inr (Outcome.returned.inj h).symm

omit hfile

theorem restoreKvState_miss (hfile : fs (m.computeAmfKey Q none).kvFilename = none) :
    m.restoreKvState Q blockTable readFails gpuCache fs = (.returned 0, gpuCache) := by
  rw [Manager.restoreKvState, hfile]

/-- After a save of `P`, with nothing saved under the name of `Q` before, unless the two are equal or `P` is empty. -/
theorem restore_only_own_iff (hQ : fs (m.computeAmfKey Q none).kvFilename = none)
    (hsave : m.saveKvState P blockTable gpuCache writeFails tokFails fs = (.returned true, fs')) :
    (∀ blockTable' readFails gpuCache' n,
      (m.restoreKvState Q blockTable' readFails gpuCache' fs').1 = .returned n → 0 < n → P = Q) ↔
      (amfHashTokens P = amfHashTokens Q → P = Q ∨ P = []) := by
  obtain ⟨blob, hblob, hparses⟩ := saveKvState_parses hsave
  constructor
  · intro hown hhash
    by_cases hnil : P = []
    · exact .inr hnil
    · rw [kvFilename_eq_iff.2 hhash] at hblob
      exact .inl (hown [] false gpuCache P.length (restoreKvState_noBlocks hblob hparses)
        (List.length_pos_iff.2 hnil))
  · intro hinj blockTable' readFails gpuCache' n hret hpos
    by_cases hhash : amfHashTokens P = amfHashTokens Q
    · rcases hinj hhash with heq | rfl
      · exact heq
      · rw [kvFilename_eq_iff.2 hhash] at hblob
        rcases restoreKvState_eq hblob hparses hret with rfl | rfl <;> exact absurd hpos (Nat.lt_irrefl 0)
    · -- another name: the snapshot of `P` is not looked at
      have hother : fs' (m.computeAmfKey Q none).kvFilename = none := by
        have hne : (m.computeAmfKey Q none).kvFilename ≠ (m.computeAmfKey P none).kvFilename :=
          fun h => hhash (kvFilename_eq_iff.1 h).symm
        have hkept : (m.saveKvState P blockTable gpuCache writeFails tokFails fs).2 _ = fs _ :=
          saveKvState_other hne (kvFilename_ne_tokFilename _ _)
        rw [hsave] at hkept
        exact hkept.trans hQ
      rw [restoreKvState_miss hother] at hret
      exact absurd hpos (by rw [← Outcome.returned.inj hret]; exact Nat.lt_irrefl 0)

def demoManager : Manager := ⟨0, [], 4096, 1, 0x461c4000, 0x3f800000, 0, 0⟩

def demoLayer : LayerCache := ⟨.float16, true, 1, 1, 2, [[1#8, 2#8]], [[3#8, 4#8]]⟩

theorem restore_only_own_distinct : amfHashTokens [1, 2] ≠ amfHashTokens [3] ∧
      ∀ blockTable' readFails gpuCache' n,
        (demoManager.restoreKvState [3] blockTable' readFails gpuCache'
          (demoManager.saveKvState [1, 2] [0] [demoLayer] false false fun _ => none).2).1 = .returned n →
        ¬ 0 < n := by
  have hhash : amfHashTokens [1, 2] ≠ amfHashTokens [3] := by decide
  have hret : (demoManager.saveKvState [1, 2] [0] [demoLayer] false false fun _ => none).1 = .returned true := by
    decide +kernel
  have hsave : demoManager.saveKvState [1, 2] [0] [demoLayer] false false (fun _ => none) =
      (.returned true, (demoManager.saveKvState [1, 2] [0] [demoLayer] false false fun _ => none).2) :=
    Prod.ext hret rfl
  refine ⟨hhash, fun blockTable' readFails gpuCache' n h hpos => ?_⟩
  have heq : ([1, 2] : List Int) = [3] :=
    (restore_only_own_iff rfl hsave).2 (fun h => absurd h hhash) blockTable' readFails gpuCache' n h hpos
  exact absurd heq (by decide)

/-- Two prompts of four tokens have the same hash; the second is served the first one's keys and values. -/
theorem collision_restored :
    let saved := demoManager.saveKvState [2227, 27300, 17821, 0] [0] [demoLayer] false false fun _ => none
    let restored := demoManager.restoreKvState [28778, 20328, 27256, 31648] [0] false
      [{ demoLayer with keys := [[0#8, 0#8]], values := [[0#8, 0#8]] }] saved.2
    saved.1 = .returned true ∧ restored.1 = .returned 4 ∧ restored.2.map LayerCache.keys = [[[1#8, 2#8]]] ∧
      restored.2.map LayerCache.values = [[[3#8, 4#8]]] := by
  decide +kernel

end Korith.Vllm
