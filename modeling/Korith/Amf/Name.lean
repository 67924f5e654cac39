import Korith.Amf.Key
import Korith.Lib.Format

/-!
# File names of AMF entries

The store in C++ and the vLLM extension in Python each spell out the nine fields of a key. The four 32-bit fields are
written in padded hex by one and in decimal by the other, which is never the same text.
-/

namespace Korith.Amf

/-- `AmfStore::entry_basename`; the name has 124 characters and fits the buffer. -/
def entryBasename (key : AmfKey) : String :=
  joinFields
    [['a', 'm', 'f'], hexPad 16 key.modelHash.toNat, hexPad 16 key.tenantHash.toNat, hexPad 16 key.prefixHash.toNat,
      hexPad 8 key.nCtx.toNat, hexPad 8 key.kvVersion.toNat, hexPad 8 key.ropeBaseBits.toNat,
      hexPad 8 key.ropeScaleBits.toNat, hexPad 16 key.samplingHash.toNat, hexPad 16 key.rngHash.toNat]

def amfKeyFilename (modelHash tenantHash prefixHash nCtx kvVersion ropeBaseBits ropeScaleBits samplingHash
    rngHash : Nat) : String :=
  joinFields
    [['a', 'm', 'f'], hexPad 16 modelHash, hexPad 16 tenantHash, hexPad 16 prefixHash, dec nCtx, dec kvVersion,
      dec ropeBaseBits, dec ropeScaleBits, hexPad 16 samplingHash, hexPad 16 rngHash]

def AmfKey.filename (key : AmfKey) : String :=
  amfKeyFilename key.modelHash.toNat key.tenantHash.toNat key.prefixHash.toNat key.nCtx.toNat key.kvVersion.toNat
    key.ropeBaseBits.toNat key.ropeScaleBits.toNat key.samplingHash.toNat key.rngHash.toNat

theorem entryBasename_injective : Function.Injective entryBasename := by
  rintro ⟨_, _, _, _, _, _, _, _, _⟩ ⟨_, _, _, _, _, _, _, _, _⟩ h
  have hfields := joinFields_inj (by simp [underscore_notMem_hexPad]) (by simp [underscore_notMem_hexPad])
    (List.cons_ne_nil _ _) (List.cons_ne_nil _ _) h
  simpa [hexPad_injective.eq_iff, BitVec.toNat_inj] using hfields

theorem amfKeyFilename_inj {a b c d e f g h i a' b' c' d' e' f' g' h' i' : Nat}
    (heq : amfKeyFilename a b c d e f g h i = amfKeyFilename a' b' c' d' e' f' g' h' i') :
    a = a' ∧ b = b' ∧ c = c' ∧ d = d' ∧ e = e' ∧ f = f' ∧ g = g' ∧ h = h' ∧ i = i' := by
  have hfields := joinFields_inj (by simp [underscore_notMem_hexPad, underscore_notMem_dec])
    (by simp [underscore_notMem_hexPad, underscore_notMem_dec]) (List.cons_ne_nil _ _) (List.cons_ne_nil _ _) heq
  simpa [hexPad_injective.eq_iff, dec_injective.eq_iff] using hfields

theorem filename_injective : Function.Injective AmfKey.filename := by
  rintro ⟨_, _, _, _, _, _, _, _, _⟩ ⟨_, _, _, _, _, _, _, _, _⟩ h
  simpa [BitVec.toNat_inj] using amfKeyFilename_inj h

theorem filename_ne_entryBasename (key : AmfKey) : key.filename ≠ entryBasename key := by
  intro h
  have hfields := joinFields_inj (by simp [underscore_notMem_hexPad, underscore_notMem_dec])
    (by simp [underscore_notMem_hexPad]) (List.cons_ne_nil _ _) (List.cons_ne_nil _ _) h
  have hctx : dec key.nCtx.toNat = hexPad 8 key.nCtx.toNat := by
    simp only [List.cons.injEq] at hfields
    exact hfields.2.2.2.2.1
  exact dec_ne_hexPad (by decide) _ hctx

theorem file_names_differ (key key' : AmfKey) :
    key.filename ≠ entryBasename key ∧ (key.filename = key'.filename ↔ key = key') ∧
      (entryBasename key = entryBasename key' ↔ key = key') :=
  ⟨filename_ne_entryBasename key, filename_injective.eq_iff, entryBasename_injective.eq_iff⟩

def demoKey : AmfKey :=
  ⟨0x1234567890abcdef#64, 0xfedcba0987654321#64, 0xabcdef0123456789#64, 65536#32, 1#32, 0x461c4000#32,
    0x3f800000#32, 0#64, 0#64⟩

theorem demoKey_names : demoKey.filename =
        "amf_1234567890abcdef_fedcba0987654321_abcdef0123456789_65536_1_1176256512_1065353216_" ++
          "0000000000000000_0000000000000000" ∧
      entryBasename demoKey =
        "amf_1234567890abcdef_fedcba0987654321_abcdef0123456789_00010000_00000001_461c4000_3f800000_" ++
          "0000000000000000_0000000000000000" := by
  decide +kernel

end Korith.Amf
