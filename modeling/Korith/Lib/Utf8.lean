import Mathlib.Data.List.Basic
import Mathlib.Tactic.Common

/-!
# Bytes of a text

The UTF-8 bytes of a text: one below 128 for an ASCII character, and only bytes from 128 on for any other. So a
program over the bytes of a text can be compared with one over its characters, also if both cut what they write.
-/

namespace Korith

def utf8 (t : List Char) : List UInt8 := t.flatMap String.utf8EncodeChar

variable {c : Char} {b : UInt8} {n : Nat}

theorem ascii_forall {P : Char → Prop} (h : ∀ n < 128, P (Char.ofNat n)) (hc : c.toNat < 128) : P c := by
  have hP := h c.toNat hc
  rwa [Char.ofNat_toNat] at hP

theorem utf8EncodeChar_ascii (hc : c.toNat < 128) : String.utf8EncodeChar c = [UInt8.ofNat c.toNat] :=
  if_pos (Nat.le_of_lt_succ hc)

theorem le_of_mem_utf8EncodeChar (hc : ¬ c.toNat < 128) (hb : b ∈ String.utf8EncodeChar c) : 128 ≤ b.toNat := by
  have hval : ¬ c.val.toNat ≤ 127 := fun h => hc (Nat.lt_succ_of_le h)
  simp only [String.utf8EncodeChar, hval, if_false] at hb
  split_ifs at hb <;> simp only [List.mem_cons, List.not_mem_nil, or_false] at hb <;>
    rcases hb with rfl | rfl | rfl | rfl <;> simp only [UInt8.toNat_ofNat'] <;> omega

theorem utf8EncodeChar_ne_nil : String.utf8EncodeChar c ≠ [] := by
  intro h
  have hlen := String.length_utf8EncodeChar c
  rw [h, List.length_nil] at hlen
  exact absurd hlen.symm (Nat.ne_of_gt c.utf8Size_pos)

theorem utf8_ne_nil {t : List Char} (ht : t ≠ []) : utf8 t ≠ [] := by
  obtain ⟨c, rest, rfl⟩ := List.exists_cons_of_ne_nil ht
  rw [utf8, List.flatMap_cons]
  exact List.append_ne_nil_of_left_ne_nil utf8EncodeChar_ne_nil _

/-- What is left of a text that each character lengthens does not depend on what is cut off before. -/
theorem take_flatMap_take {α β : Type} {f : α → List β} (hf : ∀ x, f x ≠ []) (xs : List α) :
    ((xs.take n).flatMap f).take n = (xs.flatMap f).take n := by
  induction xs generalizing n with
  | nil => rw [List.take_nil]
  | cons x xs ih =>
    cases n with
    | zero => rw [List.take_zero, List.take_zero]
    | succ n =>
      -- the first character leaves at most `n` places for the others
      have hlen : 0 < (f x).length := List.length_pos_of_ne_nil (hf x)
      obtain ⟨m, hm⟩ : ∃ m, n + 1 - (f x).length = n - m := ⟨(f x).length - 1, by omega⟩
      have hcut : ∀ ys : List β, ys.take (n - m) = (ys.take n).take (n - m) := by
        intro ys
        rw [List.take_take, Nat.min_eq_left (Nat.sub_le n m)]
      rw [List.take_succ_cons, List.flatMap_cons, List.flatMap_cons, List.take_append, List.take_append, hm,
        hcut (xs.flatMap f), ← ih, ← hcut]

end Korith
