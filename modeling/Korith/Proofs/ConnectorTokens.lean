import Korith.Vllm.Connector

/-!
# How many tokens the connector counts

The key of a prompt hashes the tokens before the last block boundary of all but one token; the saved slots end at the
last boundary of all tokens, and neither count looks at how many blocks the request was given. With `len` tokens and
`bs` to a block, the key covers `(len - 2) / bs` blocks and the slots cover `(len - 1) / bs`, cut to the blocks that
are there.
-/

namespace Korith.Vllm

variable {K Row R F : Type}

theorem alignToBlockSize_natCast {n bs : Nat} (hn : 0 < n) :
    alignToBlockSize (n : Int) bs = (((n - 1) / bs * bs : Nat) : Int) := by
  have hcast : (n : Int) - 1 = ((n - 1 : Nat) : Int) := by omega
  rw [alignToBlockSize, hcast]
  norm_cast

theorem AMFReqMeta.length_slotsOf (blockIds : List Nat) (bs : Nat) :
    (slotsOf blockIds bs).length = blockIds.length * bs := by
  rw [slotsOf, List.length_flatMap]
  simp

namespace Connector

variable {env : ConnectorEnv K Row R F} {tokens : List Int}

def hashedPrefix (env : ConnectorEnv K Row R F) (tokenIds : List Int) : List Int :=
  if 0 < numTokensToCheck env tokenIds then pyTake (numTokensToCheck env tokenIds) tokenIds else []

theorem numTokensToCheck_eq (h : 2 ≤ tokens.length) :
    numTokensToCheck env tokens = (((tokens.length - 2) / env.blockSize * env.blockSize : Nat) : Int) := by
  have hcast : (tokens.length : Int) - 1 = ((tokens.length - 1 : Nat) : Int) := by omega
  rw [numTokensToCheck, hcast, alignToBlockSize_natCast (by omega)]
  rfl

theorem two_le_of_numTokensToCheck (h : 0 < numTokensToCheck env tokens) : 2 ≤ tokens.length := by
  by_contra hlt
  have hpos : (0 : Int) < env.blockSize := by exact_mod_cast env.blockSize_pos
  have hdiv : ((tokens.length : Int) - 1 - 1) / env.blockSize ≤ 0 := Int.ediv_le_of_le_mul hpos (by omega)
  have hmul : ((tokens.length : Int) - 1 - 1) / env.blockSize * env.blockSize ≤ 0 :=
    Int.mul_nonpos_of_nonpos_of_nonneg hdiv hpos.le
  exact absurd h (not_lt.2 hmul)

theorem length_hashedPrefix (h : 0 < numTokensToCheck env tokens) :
    (hashedPrefix env tokens).length = (tokens.length - 2) / env.blockSize * env.blockSize := by
  have hlen := two_le_of_numTokensToCheck h
  have hle : (tokens.length - 2) / env.blockSize * env.blockSize ≤ tokens.length - 2 := Nat.div_mul_le_self _ _
  rw [hashedPrefix, if_pos h, numTokensToCheck_eq hlen, length_pyTake]
  omega

section Counts

variable {s : Connector K Row R F} {req : NewReq} {bs n : Nat}

theorem length_slotMapping (h : 0 < req.promptTokenIds.length) : (metaOfNew env s req).slotMapping.length =
    min ((req.promptTokenIds.length - 1) / env.blockSize) req.blockIds.length * env.blockSize := by
  rw [metaOfNew, AMFReqMeta.make, alignToBlockSize_natCast h]
  dsimp only
  rw [length_pyTake, AMFReqMeta.length_slotsOf, Nat.mul_min_mul_right]

theorem length_saveSlots (h : 0 < req.promptTokenIds.length) : (metaOfNew env s req).saveSlots.length =
    min ((req.promptTokenIds.length - 1) / env.blockSize) req.blockIds.length * env.blockSize := by
  have hslots : (metaOfNew env s req).slotMapping.length = _ := length_slotMapping h
  have hnum : (metaOfNew env s req).numTokens =
      (((req.promptTokenIds.length - 1) / env.blockSize * env.blockSize : Nat) : Int) := alignToBlockSize_natCast h
  have hmin (a b : Nat) : min (a : Int) (b : Int) = ((min a b : Nat) : Int) := by omega
  rw [AMFReqMeta.saveSlots, hnum, hmin, length_pyTake, hslots, ← Nat.mul_min_mul_right]
  omega

theorem div_pred (hn : 2 ≤ n) : (n - 1) / bs = (n - 2) / bs + if bs ∣ n - 1 then 1 else 0 := by
  have hsucc : n - 1 = n - 2 + 1 := by omega
  rw [hsucc, Nat.succ_div]

theorem pos_of_matched [DecidableEq K] {c : Nat} (h : 0 < getNumNewMatchedTokens env s tokens c) :
    0 < numTokensToCheck env tokens := by
  by_contra hle
  unfold getNumNewMatchedTokens at h
  rw [if_pos (not_lt.1 hle)] at h
  split_ifs at h <;> omega

end Counts

section Agreement

variable [DecidableEq K]

/-- The request `p` was stored and the request `q`, whose key covers the same tokens, was reported as matched. The
key, the stored KV and the injected KV are of equally many tokens exactly if the blocks of `p` end where its key ends
and those of `q` reach that far. -/
theorem token_counts_agree_iff (env : ConnectorEnv K Row R F) (s s' s'' : Connector K Row R F) (p q : NewReq)
    (numComputed : Nat) (rows kvData : List Row)
    (hsave : ((metaOfNew env s p).saveSlots.mapM fun slot => rows[slot]?) = some kvData)
    (hkey : hashedPrefix env p.promptTokenIds = hashedPrefix env q.promptTokenIds)
    (hmatched : 0 < getNumNewMatchedTokens env s' q.promptTokenIds numComputed) :
    (kvData.length = (hashedPrefix env q.promptTokenIds).length ∧
      ((metaOfNew env s'' q).loadSlots (env.decompress (env.compress kvData)).length).length =
        (hashedPrefix env q.promptTokenIds).length) ↔
    (if env.blockSize ∣ p.promptTokenIds.length - 1
      then p.blockIds.length + 1 = (p.promptTokenIds.length - 1) / env.blockSize
      else (p.promptTokenIds.length - 1) / env.blockSize ≤ p.blockIds.length) ∧
    (q.promptTokenIds.length - 2) / env.blockSize ≤ q.blockIds.length := by
  have hbs := env.blockSize_pos
  have hq := pos_of_matched hmatched
  have hqlen := two_le_of_numTokensToCheck hq
  have hhashed := length_hashedPrefix hq
  have hp : 0 < numTokensToCheck env p.promptTokenIds := by
    by_contra hle
    rw [← hkey, hashedPrefix, if_neg hle, List.length_nil] at hhashed
    rw [numTokensToCheck_eq hqlen, ← hhashed] at hq
    exact absurd hq (lt_irrefl _)
  have hplen := two_le_of_numTokensToCheck hp
  -- both keys cover the same number of blocks
  have hblocks : (p.promptTokenIds.length - 2) / env.blockSize = (q.promptTokenIds.length - 2) / env.blockSize := by
    refine Nat.eq_of_mul_eq_mul_right hbs ?_
    rw [← hhashed, ← hkey, length_hashedPrefix hp]
  have hstored : kvData.length = _ := (forall₂_of_mapM hsave).length_eq.symm.trans (length_saveSlots (by omega))
  have hslots : (metaOfNew env s'' q).slotMapping.length = _ := length_slotMapping (by omega)
  have hcancel : ∀ a b : Nat, a * env.blockSize = b * env.blockSize ↔ a = b := fun a b => Nat.mul_left_inj hbs.ne'
  rw [env.length_decompress, AMFReqMeta.loadSlots, List.length_take, hslots, hhashed, hstored, Nat.mul_min_mul_right,
    Nat.mul_min_mul_right, hcancel, hcancel, div_pred hplen, div_pred hqlen, hblocks]
  split_ifs <;> omega

/-! ### Blocks of two tokens -/

def demoConnectorEnv : ConnectorEnv (List Int) Nat (List Nat) Frac where
  pool := ⟨⟨3, 10⟩, ⟨4, 10⟩, ⟨1, 10⟩, ⟨2, 10⟩, id, ⟨-1, 1⟩⟩
  geometry := ⟨2, 2, 2, Nat.two_pos⟩
  hashTokens := id
  noHash := []
  pyInt
    | ['0'] => some 0
    | ['1'] => some 1
    | ['2'] => some 2
    | _ => none
  compress kv := ⟨[], none, kv⟩
  decompress blob := blob.rest
  length_decompress _ := rfl
  blockSize := 2
  blockSize_pos := Nat.two_pos
  minPrefixTokens := 1

def demoConnector (keys : List (List Int)) : Connector (List Int) Nat (List Nat) Frac :=
  ⟨CompressedVRAMPool.init demoConnectorEnv.geometry fun _ _ => 0, [], [], keys⟩

theorem token_counts_agree_six : [10, 11, 12, 13].length = (hashedPrefix demoConnectorEnv [1, 2, 3, 4, 5, 6]).length ∧
      ((metaOfNew demoConnectorEnv (demoConnector []) ⟨1, [1, 2, 3, 4, 5, 6], [0, 1]⟩).loadSlots
        [10, 11, 12, 13].length).length = (hashedPrefix demoConnectorEnv [1, 2, 3, 4, 5, 6]).length :=
  (token_counts_agree_iff demoConnectorEnv (demoConnector []) (demoConnector [[1, 2, 3, 4]]) (demoConnector [])
    ⟨0, [1, 2, 3, 4, 5, 6], [0, 1, 2]⟩ ⟨1, [1, 2, 3, 4, 5, 6], [0, 1]⟩ 0 [10, 11, 12, 13, 14, 15] [10, 11, 12, 13]
    (by decide) rfl (by decide)).2 (by decide)

/-- With five tokens the key covers two of them and four are stored and injected. With six tokens, of which the
blocks of the storing request cover two, four are reported as matched and two are injected. -/
theorem token_counts_differ : ((hashedPrefix demoConnectorEnv [1, 2, 3, 4, 5]).length = 2 ∧
      (metaOfNew demoConnectorEnv (demoConnector []) ⟨0, [1, 2, 3, 4, 5], [0, 1, 2]⟩).saveSlots.length = 4 ∧
      ((metaOfNew demoConnectorEnv (demoConnector []) ⟨1, [1, 2, 3, 4, 5], [3, 4, 5]⟩).loadSlots 4).length = 4) ∧
    ((metaOfNew demoConnectorEnv (demoConnector []) ⟨0, [1, 2, 3, 4, 5, 6], [0]⟩).saveSlots.length = 2 ∧
      getNumNewMatchedTokens demoConnectorEnv (demoConnector [[1, 2, 3, 4]]) [1, 2, 3, 4, 5, 6] 0 = 4 ∧
      ((metaOfNew demoConnectorEnv (demoConnector []) ⟨1, [1, 2, 3, 4, 5, 6], [3, 4, 5]⟩).loadSlots 2).length = 2) := by
  decide

end Agreement

end Connector

end Korith.Vllm
