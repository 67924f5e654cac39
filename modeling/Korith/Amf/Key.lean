import Korith.Llama

/-!
# AMF keys

The hashes of token lists and byte blobs, and the key under which a prefix is stored: the hash of its tokens together
with every field of the context.
-/

namespace Korith.Amf

abbrev Hash := BitVec 64
abbrev Byte := BitVec 8

def kFNVOffset : Hash := 1469598103934665603#64
def kFNVPrime : Hash := 1099511628211#64

def hashBytes (h : Hash) (data : List Byte) : Hash :=
  data.foldl (fun h b => (h ^^^ b.setWidth 64) * kFNVPrime) h

/-- A token is cast to 32 and then to 64 bits. -/
def hashTokenPrefixStep (h : Hash) (tok : Token) : Hash :=
  (h ^^^ BitVec.ofNat 64 (tok % 2 ^ 32)) * kFNVPrime

def amfHashTokensPrefix (tokens : List Token) (len : Nat) : Hash :=
  (tokens.take len).foldl hashTokenPrefixStep kFNVOffset

def amfHashTokens (tokens : List Token) : Hash := amfHashTokensPrefix tokens tokens.length

/-- The rolling hashes that a lookup computes once: entry `i` is the hash of the first `i + 1` tokens. -/
def prefixHashes (h : Hash) : List Token → List Hash
  | [] => []
  | t :: ts => hashTokenPrefixStep h t :: prefixHashes (hashTokenPrefixStep h t) ts

structure AmfContext where
  modelHash : Hash
  tenantHash : Hash
  nCtx : BitVec 32
  kvVersion : BitVec 32
  ropeBaseBits : BitVec 32
  ropeScaleBits : BitVec 32
  samplingHash : Hash
  rngHash : Hash
  deriving DecidableEq

/-- The file names of an entry spell out all fields of its key in fixed-width hex, so a key stands for
its files. -/
structure AmfKey where
  modelHash : Hash
  tenantHash : Hash
  prefixHash : Hash
  nCtx : BitVec 32
  kvVersion : BitVec 32
  ropeBaseBits : BitVec 32
  ropeScaleBits : BitVec 32
  samplingHash : Hash
  rngHash : Hash
  deriving DecidableEq

def amfMakeKey (ctx : AmfContext) (prefixHash : Hash) : AmfKey where
  modelHash := ctx.modelHash
  tenantHash := ctx.tenantHash
  prefixHash := prefixHash
  nCtx := ctx.nCtx
  kvVersion := ctx.kvVersion
  ropeBaseBits := ctx.ropeBaseBits
  ropeScaleBits := ctx.ropeScaleBits
  samplingHash := ctx.samplingHash
  rngHash := ctx.rngHash

def keyOf (ctx : AmfContext) (tokens : List Token) : AmfKey := amfMakeKey ctx (amfHashTokens tokens)

theorem amfMakeKey_inj {ctx ctx' : AmfContext} {h h' : Hash} (heq : amfMakeKey ctx h = amfMakeKey ctx' h') :
    ctx = ctx' ∧ h = h' := by
  obtain ⟨_, _, _, _, _, _, _, _⟩ := ctx
  obtain ⟨_, _, _, _, _, _, _, _⟩ := ctx'
  simp only [amfMakeKey, AmfKey.mk.injEq] at heq
  simp_all

variable {tokens : List Token}

theorem prefixHashes_getElem? {h : Hash} {i : Nat} (hi : i < tokens.length) :
    (prefixHashes h tokens)[i]? = some ((tokens.take (i + 1)).foldl hashTokenPrefixStep h) := by
  induction tokens generalizing h i with
  | nil => simp at hi
  | cons t ts ih =>
    cases i with
    | zero => simp [prefixHashes]
    | succ i => simpa [prefixHashes] using ih (by simpa using hi)

theorem amfHashTokens_take {len : Nat} : amfHashTokens (tokens.take len) = amfHashTokensPrefix tokens len := by
  rw [amfHashTokens, amfHashTokensPrefix, List.take_length, amfHashTokensPrefix]

end Korith.Amf
