import Mathlib
import Korith.Lib.Bytes

/-!
# Packing entries of less than a byte

The codecs pack the entries along the last axis, some to a byte, and fill the last byte up with zeros. They do so with
each row of a tensor along that axis alone.
-/

namespace Korith.Vllm

/-- How a byte holds `perByte` entries of `width` bits. -/
structure Packing where
  width : Nat
  perByte : Nat
  pack : List Byte → Byte
  unpack : Byte → List Byte

namespace Packing

/-- The strided slices `q[..., 0::k]`, …, `q[..., k-1::k]` at position `j`. -/
def slices (k : Nat) (q : List Byte) (j : Nat) : List Byte := List.ofFn fun i : Fin k => q.getD (k * j + i) 0

variable (P : Packing) (q : List Byte)

def padded : List Byte := q ++ List.replicate ((P.perByte - q.length % P.perByte) % P.perByte) 0

def packed : List Byte :=
  (List.range ((P.padded q).length / P.perByte)).map fun j => P.pack (slices P.perByte (P.padded q) j)

/-- The entries of every byte one after another, without those behind the `last`. -/
def unpacked (bytes : List Byte) (last : Nat) : List Byte := (bytes.flatMap P.unpack).take last

end Packing

open Packing

def int2 : Packing where
  width := 2
  perByte := 4
  pack x := (x.getD 3 0 <<< 6) ||| (x.getD 2 0 <<< 4) ||| (x.getD 1 0 <<< 2) ||| x.getD 0 0
  unpack p := [p &&& 3, (p >>> 2) &&& 3, (p >>> 4) &&& 3, (p >>> 6) &&& 3]

def nibbles : Packing where
  width := 4
  perByte := 2
  pack x := (x.getD 1 0 <<< 4) ||| x.getD 0 0
  unpack p := [p &&& 15, (p >>> 4) &&& 15]

/-- The sum is one of wider integers and is cut to a byte behind it. -/
def bits : Packing where
  width := 1
  perByte := 8
  pack x := BitVec.ofNat 8 ((List.range 8).map fun i => (x.getD i 0 * BitVec.ofNat 8 (2 ^ i)).toNat).sum
  unpack p := (List.range 8).map fun i => if 0 < p &&& BitVec.ofNat 8 (2 ^ i) then 1 else 0

def packInt2 (q : List Byte) : List Byte := int2.packed q

def unpackInt2 (bytes : List Byte) (last : Nat) : List Byte := int2.unpacked bytes last

def packNibbles (q : List Byte) : List Byte := nibbles.packed q

def unpackNibbles (bytes : List Byte) (last : Nat) : List Byte := nibbles.unpacked bytes last

def packBits (q : List Byte) : Option (List Byte) := if q.length % 8 = 0 then some (bits.packed q) else none

def unpackBits (bytes : List Byte) (nBits : Nat) : Option (List Byte) :=
  if nBits % 8 = 0 then some (bits.unpacked bytes nBits) else none

namespace Packing

variable {P : Packing} {q : List Byte}

/-- Every byte of entries that have room in it gives them back. -/
structure Exact (P : Packing) : Prop where
  room : P.width * P.perByte = 8
  unpack_pack : ∀ x : Fin P.perByte → Fin (2 ^ P.width),
    P.unpack (P.pack (List.ofFn fun i => BitVec.ofNat 8 (x i))) = List.ofFn fun i => BitVec.ofNat 8 (x i)

theorem flatMap_slices (k m : Nat) (q : List Byte) :
    (List.range m).flatMap (slices k q) = (List.range (k * m)).map (q.getD · 0) := by
  induction m with
  | zero => rfl
  | succ m ih =>
    rw [List.range_succ, List.flatMap_append, ih, List.flatMap_singleton, Nat.mul_succ, List.range_add, List.map_append]
    congr 1
    exact List.ext_getElem (by simp [slices]) fun i h _ => by simp [slices]

theorem map_getD (q : List Byte) : (List.range q.length).map (q.getD · 0) = q :=
  List.ext_getElem (by simp) fun i h _ => by simp_all

theorem padded_lt (hq : ∀ x ∈ q, x.toNat < 2 ^ P.width) (i : Nat) :
    ((P.padded q).getD i 0).toNat < 2 ^ P.width := by
  rw [List.getD_eq_getElem?_getD]
  cases h : (P.padded q)[i]? with
  | none => exact Nat.two_pow_pos _
  | some x =>
    rcases List.mem_append.1 (List.mem_of_getElem? h) with hx | hx
    · exact hq x hx
    · rw [Option.getD_some, List.eq_of_mem_replicate hx]
      exact Nat.two_pow_pos _

variable (hP : P.Exact)

include hP

theorem Exact.pos : 0 < P.perByte ∧ 0 < P.width := by
  constructor <;> refine Nat.pos_of_ne_zero fun h => ?_ <;> simpa [h] using hP.room

theorem Exact.dvd_length (q : List Byte) : P.perByte ∣ (P.padded q).length := by
  have hmod := Nat.mod_lt q.length hP.pos.1
  have hdiv := Nat.div_add_mod q.length P.perByte
  have hsum : q.length + (P.perByte - q.length % P.perByte) = P.perByte * (q.length / P.perByte + 1) := by
    rw [Nat.mul_succ]
    omega
  rw [padded, List.length_append, List.length_replicate, Nat.dvd_iff_mod_eq_zero, Nat.add_mod_mod, hsum,
    Nat.mul_mod_right]

theorem Exact.unpacked_packed (hq : ∀ x ∈ q, x.toNat < 2 ^ P.width) :
    P.unpacked (P.packed q) q.length = q := by
  have hgroup : ∀ j, P.unpack (P.pack (slices P.perByte (P.padded q) j)) = slices P.perByte (P.padded q) j := by
    intro j
    simpa [slices] using hP.unpack_pack fun i =>
      ⟨((P.padded q).getD (P.perByte * j + i) 0).toNat, padded_lt hq _⟩
  have hdvd : P.perByte * ((P.padded q).length / P.perByte) = (P.padded q).length :=
    Nat.mul_div_cancel' (hP.dvd_length q)
  rw [unpacked, packed, List.flatMap_map]
  simp only [hgroup]
  rw [flatMap_slices, hdvd, map_getD, padded, List.take_left]

theorem Exact.isLeast_length (q : List Byte) : IsLeast {m | P.width * q.length ≤ 8 * m} (P.packed q).length := by
  obtain ⟨m, hm⟩ := hP.dvd_length q
  have hlen : (P.packed q).length = m := by simp [packed, hm, hP.pos.1]
  have hle : (P.padded q).length = q.length + (P.perByte - q.length % P.perByte) % P.perByte := by simp [padded]
  have hlt := Nat.mod_lt (P.perByte - q.length % P.perByte) hP.pos.1
  rw [hlen, ← hP.room]
  refine ⟨?_, fun m' hm' => ?_⟩
  · rw [Set.mem_ofPred_eq, Nat.mul_assoc, ← hm]
    exact Nat.mul_le_mul_left _ (by omega)
  · rw [Set.mem_ofPred_eq, Nat.mul_assoc] at hm'
    have hroom := Nat.le_of_mul_le_mul_left hm' hP.pos.2
    refine Nat.le_of_lt_succ (Nat.lt_of_mul_lt_mul_left (a := P.perByte) ?_)
    rw [← hm, Nat.mul_succ]
    omega

end Packing

theorem exact_int2 : int2.Exact := ⟨rfl, by decide +kernel⟩

theorem exact_nibbles : nibbles.Exact := ⟨rfl, by decide +kernel⟩

theorem exact_bits : bits.Exact := ⟨rfl, by decide +kernel⟩

theorem packing_lossless (q : List Byte) :
    ((∀ x ∈ q, x.toNat < 4) → unpackInt2 (packInt2 q) q.length = q ∧
      IsLeast {m | 2 * q.length ≤ 8 * m} (packInt2 q).length) ∧
    ((∀ x ∈ q, x.toNat < 16) → unpackNibbles (packNibbles q) q.length = q ∧
      IsLeast {m | 4 * q.length ≤ 8 * m} (packNibbles q).length) ∧
    ((∀ x ∈ q, x.toNat < 2) → q.length % 8 = 0 → ∃ bytes, packBits q = some bytes ∧
      unpackBits bytes q.length = some q ∧ IsLeast {m | 1 * q.length ≤ 8 * m} bytes.length) := by
  refine ⟨fun hq => ?_, fun hq => ?_, fun hq h8 => ?_⟩
  · exact ⟨exact_int2.unpacked_packed hq, exact_int2.isLeast_length q⟩
  · exact ⟨exact_nibbles.unpacked_packed hq, exact_nibbles.isLeast_length q⟩
  · refine ⟨_, if_pos h8, ?_, exact_bits.isLeast_length q⟩
    rw [unpackBits, if_pos h8, exact_bits.unpacked_packed hq]

theorem packing_lossless_eight : let q : List Byte := [1, 0, 0, 1, 1, 1, 0, 1]
    unpackInt2 (packInt2 q) 8 = q ∧ unpackNibbles (packNibbles q) 8 = q ∧
      ∃ bytes, packBits q = some bytes ∧ unpackBits bytes 8 = some q ∧ IsLeast {m | 1 * 8 ≤ 8 * m} bytes.length :=
  have h := packing_lossless [1, 0, 0, 1, 1, 1, 0, 1]
  ⟨(h.1 (by decide)).1, (h.2.1 (by decide)).1, h.2.2 (by decide) rfl⟩

end Korith.Vllm
