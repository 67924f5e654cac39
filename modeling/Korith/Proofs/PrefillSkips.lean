import Korith.Lib.Machine
import Korith.Proofs.KvRoundTrip
import Korith.Vllm.SchedulerHook

/-!
# Whether a token that is marked as computed has its keys and values

A restore returns the number of tokens in the header of the snapshot, whatever it writes: nothing without a block
table, nothing for a layer whose sizes are zero, and as many blocks as the table has. The tokens that are marked are
there exactly if the table reaches as far and no block of it is written twice with other data.
-/

namespace Korith.Vllm

open Machine

variable {bt : List Nat} {payload : List Byte} {info : LayerInfo} {l r : LayerCache} {gpuCache gpuCache' : List LayerCache}
  {blockSize n p : Nat}

/-! ### The property and the condition -/

def snapshotBlock (payload : List Byte) (off sz blockBytes i : Nat) : Option (List Byte) :=
  if (i + 1) * blockBytes ≤ (slice payload off sz).length then some (slice (slice payload off sz) (i * blockBytes) blockBytes)
  else none

def LayerInfo.kBlock (info : LayerInfo) (payload : List Byte) (blockBytes i : Nat) : Option (List Byte) :=
  snapshotBlock payload info.kOff info.kSz blockBytes i

def LayerInfo.vBlock (info : LayerInfo) (payload : List Byte) (blockBytes i : Nat) : Option (List Byte) :=
  snapshotBlock payload info.vOff info.vSz blockBytes i

def TokenWritten (blockSize : Nat) (bt : List Nat) (payload : List Byte) (info : LayerInfo) (l : LayerCache) (p : Nat) :
    Prop :=
  ∃ b k v, bt[p / blockSize]? = some b ∧ info.kBlock payload l.blockBytes (p / blockSize) = some k ∧
    info.vBlock payload l.blockBytes (p / blockSize) = some v ∧ l.kAll[b]? = some k ∧ l.vAll[b]? = some v

/-- The token has a block, the layer is in the snapshot, and what is written last to the block is what the token has; in
a cache that is not stacked the values are written last. -/
def TokenCovered (blockSize : Nat) (bt : List Nat) (payload : List Byte) (info : LayerInfo) (l : LayerCache) (p : Nat) :
    Prop :=
  p / blockSize < bt.length ∧ ¬ (info.kSz = 0 ∧ info.vSz = 0) ∧ ∀ b i, bt[p / blockSize]? = some b → LastAt bt b i →
    (if l.stacked then info.kBlock payload l.blockBytes i else info.vBlock payload l.blockBytes i) =
        info.kBlock payload l.blockBytes (p / blockSize) ∧
      info.vBlock payload l.blockBytes i = info.vBlock payload l.blockBytes (p / blockSize)

def ForTokens (token : List Byte → LayerInfo → LayerCache → Nat → Prop) (n : Nat) (blob : List Byte)
    (gpuCache : List LayerCache) : Prop :=
  ∀ (i : Nat) l, gpuCache[i]? = some l → 0 < l.blockBytes → ∀ p < n,
    token (blob.drop (headerSize + gpuCache.length * layerSize)) (readInfo blob i) l p

namespace AmfSchedulerHook

variable (h : AmfSchedulerHook)

def snapshot (fs : Files) (req : WaitingRequest) : Option (List Byte) :=
  req.extractPromptTokens.bind fun promptTokens => fs (h.kvManager.computeAmfKey promptTokens none).kvFilename

/-- The tokens that are marked have their keys and values in the blocks of the request. -/
def KvPresent (blockSize : Nat) (fs : Files) (gpuCache : List LayerCache) (x : WaitingRequest × Bool) : Prop :=
  ∀ blob ∈ h.snapshot fs x.1, ForTokens (TokenWritten blockSize x.1.getBlockTable) (h.scheduleRequest fs gpuCache x).1 blob
    (h.scheduleRequest fs gpuCache x).2

def Covered (blockSize : Nat) (fs : Files) (gpuCache : List LayerCache) (x : WaitingRequest × Bool) : Prop :=
  ∀ blob ∈ h.snapshot fs x.1, ForTokens (TokenCovered blockSize x.1.getBlockTable) (h.scheduleRequest fs gpuCache x).1 blob
    gpuCache

end AmfSchedulerHook

/-! ### One layer -/

variable {blocks seq k v : List (List Byte)}

theorem readBlocks_spec {bytes : List Byte} (h : readBlocks l bt blocks bytes = some seq) :
    (∀ b ∈ bt, b < blocks.length) ∧ bt.length = seq.length ∧ bytes.length = bt.length * l.blockBytes ∧
      ∀ i < bt.length, seq[i]? = some (slice bytes (i * l.blockBytes) l.blockBytes) := by
  obtain ⟨target, htarget, h⟩ := Option.bind_eq_some_iff.1 h
  have hlen := (forall₂_of_mapM htarget).length_eq
  split_ifs at h with hbad
  cases h
  rw [not_or, not_or] at hbad
  refine ⟨lt_of_gather htarget, ?_, ?_, fun i hi => ?_⟩
  · rw [List.length_map, List.length_range, hlen]
  · rw [hlen]
    exact not_not.1 hbad.2.2
  · rw [List.getElem?_map, List.getElem?_range (hlen ▸ hi)]
    rfl

theorem restoreLayer_cases (h : restoreLayer bt payload l info = some r) :
    (r = l ∧ (bt = [] ∨ (info.kSz = 0 ∧ info.vSz = 0))) ∨
      (¬ (info.kSz = 0 ∧ info.vSz = 0) ∧ ∃ ks vs,
        readBlocks l bt l.kAll (slice payload info.kOff info.kSz) = some ks ∧
          readBlocks l bt l.vAll (slice payload info.vOff info.vSz) = some vs ∧ r = l.scattered bt ks vs) := by
  by_cases hinfo : info.kSz = 0 ∧ info.vSz = 0
  · rw [restoreLayer, if_pos hinfo] at h
    exact .inl ⟨(Option.some.inj h).symm, .inr hinfo⟩
  · by_cases hbt : bt = []
    · rw [restoreLayer, if_neg hinfo, if_pos hbt] at h
      exact .inl ⟨(Option.some.inj h).symm, .inl hbt⟩
    · rw [restoreLayer_eq hinfo hbt] at h
      obtain ⟨ks, hks, h⟩ := Option.bind_eq_some_iff.1 h
      obtain ⟨vs, hvs, rfl⟩ := Option.map_eq_some_iff.1 h
      exact .inr ⟨hinfo, ks, vs, hks, hvs, rfl⟩

theorem LayerCache.kAll_scattered (hv : bt.length = v.length) :
    (l.scattered bt k v).kAll = setAll (bt.zip (if l.stacked then k else v)) l.kAll := by
  cases l with
  | mk dtype stacked nKvHeads headDim blockBytes keys values =>
    cases stacked with
    | true => rfl
    | false => exact scatter_scatter hv

theorem LayerCache.vAll_scattered (hv : bt.length = v.length) :
    (l.scattered bt k v).vAll = setAll (bt.zip v) l.vAll := by
  cases l with
  | mk dtype stacked nKvHeads headDim blockBytes keys values =>
    cases stacked with
    | true => rfl
    | false => exact scatter_scatter hv

theorem LayerCache.blockBytes_scattered : (l.scattered bt k v).blockBytes = l.blockBytes := by
  cases l with
  | mk dtype stacked nKvHeads headDim blockBytes keys values => cases stacked <;> rfl

theorem blockBytes_restoreLayer (h : restoreLayer bt payload l info = some r) : r.blockBytes = l.blockBytes := by
  rcases restoreLayer_cases h with ⟨rfl, -⟩ | ⟨-, ks, vs, -, -, rfl⟩
  · rfl
  · exact LayerCache.blockBytes_scattered

theorem snapshotBlock_of_sz_zero {off blockBytes i : Nat} (hpos : 0 < blockBytes) :
    snapshotBlock payload off 0 blockBytes i = none := by
  have hlen : (slice payload off 0).length = 0 := by
    rw [slice, List.take_zero, List.length_nil]
  refine if_neg ?_
  rw [hlen]
  exact Nat.not_le.2 (Nat.mul_pos (Nat.succ_pos i) hpos)

theorem readBlocks_snapshotBlock {off sz i : Nat}
    (h : readBlocks l bt blocks (slice payload off sz) = some seq) (hi : i < bt.length) :
    ∃ x, seq[i]? = some x ∧ snapshotBlock payload off sz l.blockBytes i = some x := by
  obtain ⟨-, -, hbytes, hseq⟩ := readBlocks_spec h
  refine ⟨_, hseq i hi, if_pos ?_⟩
  rw [hbytes]
  exact Nat.mul_le_mul_right _ hi

theorem restoreLayer_token_iff (h : restoreLayer bt payload l info = some r) (hpos : 0 < l.blockBytes) :
    TokenWritten blockSize bt payload info r p ↔ TokenCovered blockSize bt payload info l p := by
  have hbytes := blockBytes_restoreLayer h
  rcases restoreLayer_cases h with ⟨rfl, hskip⟩ | ⟨hinfo, ks, vs, hks, hvs, rfl⟩
  · refine iff_of_false ?_ ?_
    · rintro ⟨b, k, v, hb, hk, -⟩
      rcases hskip with rfl | ⟨hkSz, -⟩
      · cases hb
      · rw [LayerInfo.kBlock, hkSz, snapshotBlock_of_sz_zero hpos] at hk
        cases hk
    · rintro ⟨hlt, hinfo, -⟩
      rcases hskip with rfl | hzero
      · exact absurd hlt (Nat.not_lt_zero _)
      · exact hinfo hzero
  · obtain ⟨hkRange, hkLen, -⟩ := readBlocks_spec hks
    obtain ⟨hvRange, hvLen, -⟩ := readBlocks_spec hvs
    -- what the block of a token holds is the last that was written to it
    have hget : ∀ b i, LastAt bt b i →
        (l.scattered bt ks vs).kAll[b]? =
            (if l.stacked then info.kBlock payload l.blockBytes i else info.vBlock payload l.blockBytes i) ∧
          (l.scattered bt ks vs).vAll[b]? = info.vBlock payload l.blockBytes i := by
      intro b i hlast
      obtain ⟨k, hk, hkBlock⟩ := readBlocks_snapshotBlock hks hlast.lt
      obtain ⟨v, hv, hvBlock⟩ := readBlocks_snapshotBlock hvs hlast.lt
      rw [LayerInfo.kBlock, LayerInfo.vBlock, hkBlock, hvBlock, LayerCache.kAll_scattered hvLen,
        LayerCache.vAll_scattered hvLen, getElem?_scatter hlast hvLen (hvRange b hlast.mem), hv]
      refine ⟨?_, rfl⟩
      split_ifs
      · rw [getElem?_scatter hlast hkLen (hkRange b hlast.mem), hk]
      · rw [getElem?_scatter hlast hvLen (hkRange b hlast.mem), hv]
    unfold TokenWritten
    rw [hbytes]
    constructor
    · rintro ⟨b, k, v, hb, hk, hv, hkAll, hvAll⟩
      refine ⟨(List.getElem?_eq_some_iff.1 hb).1, hinfo, fun b' i hb' hlast => ?_⟩
      obtain rfl : b = b' := Option.some.inj (hb.symm.trans hb')
      obtain ⟨hkGet, hvGet⟩ := hget b i hlast
      rw [← hkGet, ← hvGet, hkAll, hvAll, hk, hv]
      exact ⟨rfl, rfl⟩
    · rintro ⟨hlt, -, hsame⟩
      have hb := List.getElem?_eq_getElem hlt
      obtain ⟨i, hlast⟩ := exists_lastAt (List.mem_of_getElem? hb)
      obtain ⟨hkSame, hvSame⟩ := hsame _ i hb hlast
      obtain ⟨hkGet, hvGet⟩ := hget _ i hlast
      obtain ⟨k, -, hkBlock⟩ := readBlocks_snapshotBlock hks hlt
      obtain ⟨v, -, hvBlock⟩ := readBlocks_snapshotBlock hvs hlt
      exact ⟨_, k, v, hb, hkBlock, hvBlock, hkGet.trans (hkSame.trans hkBlock), hvGet.trans (hvSame.trans hvBlock)⟩

/-! ### A restore -/

theorem restoreLayers_spec {infos : List LayerInfo} (hlen : gpuCache.length = infos.length)
    (h : restoreLayers bt payload gpuCache infos = (true, gpuCache')) :
    gpuCache'.length = gpuCache.length ∧ ∀ (i : Nat) l r info, gpuCache[i]? = some l → gpuCache'[i]? = some r →
      infos[i]? = some info → restoreLayer bt payload l info = some r := by
  induction gpuCache generalizing gpuCache' infos with
  | nil =>
    obtain rfl : [] = gpuCache' := congrArg Prod.snd h
    refine ⟨rfl, fun i l r info hl => ?_⟩
    cases hl
  | cons l ls ih =>
    cases infos with
    | nil => cases hlen
    | cons info infos =>
      rw [restoreLayers] at h
      cases hlayer : restoreLayer bt payload l info with
      | none =>
        rw [hlayer] at h
        cases h
      | some r =>
        rw [hlayer] at h
        dsimp only at h
        obtain ⟨hok, rfl⟩ := Prod.mk.inj h
        obtain ⟨hrest, hall⟩ := ih (Nat.succ.inj hlen) (Prod.ext hok rfl)
        refine ⟨congrArg Nat.succ hrest, fun i l₁ r₁ info₁ h₁ h₁' hinfo => ?_⟩
        cases i with
        | zero =>
          cases h₁
          cases h₁'
          cases hinfo
          exact hlayer
        | succ i => exact hall i l₁ r₁ info₁ h₁ h₁' hinfo

theorem restoreKvState_layers {m : Manager} {promptTokens : List Int} {readFails : Bool} {fs : Files} {blob : List Byte}
    (hfile : fs (m.computeAmfKey promptTokens none).kvFilename = some blob)
    (h : m.restoreKvState promptTokens bt readFails gpuCache fs = (.returned n, gpuCache')) (hn : n ≠ 0) :
    gpuCache'.length = gpuCache.length ∧ ∀ (i : Nat) l r, gpuCache[i]? = some l → gpuCache'[i]? = some r →
      restoreLayer bt (blob.drop (headerSize + gpuCache.length * layerSize)) l (readInfo blob i) = some r := by
  by_cases hparses : readFails = false ∧ ∃ n, Parses gpuCache.length n blob
  · obtain ⟨rfl, n', hparses⟩ := hparses
    rw [restoreKvState_of_parses hfile hparses] at h
    split_ifs at h with hok
    · obtain ⟨hlen, hall⟩ := restoreLayers_spec (by rw [List.length_map, List.length_range])
        (Prod.ext hok (Prod.mk.inj h).2)
      refine ⟨hlen, fun i l r hl hr => hall i l r (readInfo blob i) hl hr ?_⟩
      rw [List.getElem?_map, List.getElem?_range (List.getElem?_eq_some_iff.1 hl).1]
      rfl
    · cases (Prod.mk.inj h).1
  · rw [restoreKvState_of_not_parses hfile fun hread n hn => hparses ⟨hread, n, hn⟩] at h
    exact absurd (Outcome.returned.inj (Prod.mk.inj h).1).symm hn

/-! ### The hook -/

namespace AmfSchedulerHook

variable {h : AmfSchedulerHook} {fs : Files} {x : WaitingRequest × Bool}

theorem scheduleRequest_cases (h : AmfSchedulerHook) (fs : Files) (gpuCache : List LayerCache) (x : WaitingRequest × Bool) :
    (h.scheduleRequest fs gpuCache x).1 = 0 ∨
      ∃ promptTokens, x.1.extractPromptTokens = some promptTokens ∧ (h.scheduleRequest fs gpuCache x).1 ≠ 0 ∧
        h.kvManager.restoreKvState promptTokens x.1.getBlockTable x.2 gpuCache fs =
          (.returned (h.scheduleRequest fs gpuCache x).1, (h.scheduleRequest fs gpuCache x).2) := by
  by_cases hzero : (h.scheduleRequest fs gpuCache x).1 = 0
  · exact .inl hzero
  · refine .inr ?_
    revert hzero
    unfold scheduleRequest
    cases x.1.getPromptTokenIds with
    | none => exact fun hzero => absurd rfl hzero
    | some ids =>
      dsimp only
      unfold beforePrefill
      split_ifs
      · exact fun hzero => absurd rfl hzero
      · cases x.1.extractPromptTokens with
        | none => exact fun hzero => absurd rfl hzero
        | some promptTokens =>
          dsimp only
          split_ifs
          · exact fun hzero => absurd rfl hzero
          · exact fun hzero => absurd rfl hzero
          · rcases hrestore : h.kvManager.restoreKvState promptTokens x.1.getBlockTable x.2 gpuCache fs with
              ⟨n | -, restored⟩
            · dsimp only
              split_ifs
              · exact fun hzero => absurd rfl hzero
              · intro hzero
                have hmark : x.1.markPrefillComplete n = n := by
                  unfold WaitingRequest.markPrefillComplete at hzero ⊢
                  split_ifs at hzero ⊢
                  · rfl
                  · exact absurd rfl hzero
                dsimp only at hzero ⊢
                rw [hmark] at hzero ⊢
                exact ⟨promptTokens, rfl, hzero, hrestore⟩
            · exact fun hzero => absurd rfl hzero

theorem kvPresent_iff : h.KvPresent blockSize fs gpuCache x ↔ h.Covered blockSize fs gpuCache x := by
  refine forall₂_congr fun blob hblob => ?_
  rcases scheduleRequest_cases h fs gpuCache x with hzero | ⟨ids, hids, hne, hrestore⟩
  · rw [hzero]
    refine iff_of_true ?_ ?_
    · exact fun i l hl hpos p hp => absurd hp (Nat.not_lt_zero p)
    · exact fun i l hl hpos p hp => absurd hp (Nat.not_lt_zero p)
  · rw [snapshot, hids] at hblob
    obtain ⟨hlen, hlayers⟩ := restoreKvState_layers hblob hrestore hne
    unfold ForTokens
    rw [hlen]
    constructor
    · intro hwritten i l hl hpos p hp
      have hr := List.getElem?_eq_getElem (hlen.symm ▸ (List.getElem?_eq_some_iff.1 hl).1)
      have hlayer := hlayers i l _ hl hr
      exact (restoreLayer_token_iff hlayer hpos).1
        (hwritten i _ hr (by rwa [blockBytes_restoreLayer hlayer]) p hp)
    · intro hcovered i r hr hpos p hp
      have hl := List.getElem?_eq_getElem (hlen ▸ (List.getElem?_eq_some_iff.1 hr).1)
      have hlayer := hlayers i _ r hl hr
      rw [blockBytes_restoreLayer hlayer] at hpos
      exact (restoreLayer_token_iff hlayer hpos).2 (hcovered i _ hl hpos p hp)

/-- Over all waiting requests of a pass of the scheduler, with any files and any cache. -/
theorem marked_tokens_written_iff (h : AmfSchedulerHook) (blockSize : Nat) (fs : Files) (gpuCache : List LayerCache)
    (waiting : List (WaitingRequest × Bool)) :
    Every (fun before x => h.KvPresent blockSize fs (after (h.scheduleRequest fs) gpuCache before) x) waiting ↔
      Every (fun before x => h.Covered blockSize fs (after (h.scheduleRequest fs) gpuCache before) x) waiting :=
  every_congr fun _ _ _ => kvPresent_iff

def fourBlocks (keys values : List (List Byte)) : LayerCache := ⟨.float16, true, 1, 1, 2, keys, values⟩

def blankBlocks : List (List Byte) := List.replicate 4 [0#8, 0#8]

/-- A prompt of 64 tokens is saved from four blocks. A waiting request with that prompt has no blocks yet: all of its
tokens are marked, and nothing is written. -/
theorem marked_tokens_unwritten : let prompt := (List.range 64).map Int.ofNat
    let h : AmfSchedulerHook := ⟨demoManager, true, 64⟩
    let saved := demoManager.saveKvState prompt [0, 1, 2, 3]
      [fourBlocks [[1#8, 1#8], [2#8, 2#8], [3#8, 3#8], [4#8, 4#8]] [[5#8, 5#8], [6#8, 6#8], [7#8, 7#8], [8#8, 8#8]]]
      false false fun _ => none
    let x : WaitingRequest × Bool := (⟨some (some prompt), none, some []⟩, false)
    saved.1 = .returned true ∧
      (h.scheduleRequest saved.2 [fourBlocks blankBlocks blankBlocks] x).1 = 64 ∧
      (h.scheduleRequest saved.2 [fourBlocks blankBlocks blankBlocks] x).2.map LayerCache.keys = [blankBlocks] ∧
      ¬ h.KvPresent 16 saved.2 [fourBlocks blankBlocks blankBlocks] x := by
  intro prompt h saved x
  have hmarked : (h.scheduleRequest saved.2 [fourBlocks blankBlocks blankBlocks] x).1 = 64 := by
    decide +kernel
  have hkeys : (h.scheduleRequest saved.2 [fourBlocks blankBlocks blankBlocks] x).2.map
      (fun l => (l.keys, l.blockBytes)) = [(blankBlocks, 2)] := by
    decide +kernel
  refine ⟨by decide +kernel, hmarked, ?_, fun hpresent => ?_⟩
  · have hfst := congrArg (List.map Prod.fst) hkeys
    rw [List.map_map] at hfst
    exact hfst
  · obtain ⟨l, hl, heq⟩ := List.map_eq_singleton_iff.1 hkeys
    have hfile : (h.snapshot saved.2 x.1).isSome = true := by
      decide +kernel
    obtain ⟨blob, hblob⟩ := Option.isSome_iff_exists.1 hfile
    have hall := hpresent blob hblob
    rw [hmarked, hl] at hall
    have hpos : 0 < l.blockBytes := by
      rw [(Prod.mk.inj heq).2]
      decide
    obtain ⟨b, -, -, hb, -⟩ := hall 0 l rfl hpos 0 (by decide)
    cases hb

end AmfSchedulerHook

end Korith.Vllm
