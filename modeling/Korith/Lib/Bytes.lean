import Mathlib

/-!
# Bytes

The bytes of an unsigned number in a field of fixed width, and the number that a field holds; a record of several
fields is read field by field. A buffer is a list that is overwritten in place: a read sees the last write of its
range and no write outside it.
-/

namespace Korith

abbrev Byte := BitVec 8

def leBytes : Nat → Nat → List Byte
  | 0, _ => []
  | w + 1, n => BitVec.ofNat 8 n :: leBytes w (n / 256)

def ofLeBytes : List Byte → Nat
  | [] => 0
  | b :: bs => b.toNat + 256 * ofLeBytes bs

variable {w n : Nat} {bs : List Byte}

@[simp] theorem length_leBytes : (leBytes w n).length = w := by
  induction w generalizing n with
  | zero => rfl
  | succ w ih => rw [leBytes, List.length_cons, ih]

theorem ofLeBytes_leBytes (h : n < 256 ^ w) : ofLeBytes (leBytes w n) = n := by
  induction w generalizing n with
  | zero =>
    rw [Nat.pow_zero] at h
    rw [leBytes, ofLeBytes]
    omega
  | succ w ih =>
    have hrest : n / 256 < 256 ^ w := Nat.div_lt_of_lt_mul (by rwa [Nat.pow_succ, Nat.mul_comm] at h)
    rw [leBytes, ofLeBytes, ih hrest, BitVec.toNat_ofNat]
    omega

theorem ofLeBytes_lt : ofLeBytes bs < 256 ^ bs.length := by
  induction bs with
  | nil => exact Nat.one_pos
  | cons b bs ih =>
    have hb := b.isLt
    rw [ofLeBytes, List.length_cons, Nat.pow_succ]
    omega

theorem leBytes_ofLeBytes (bs : List Byte) : leBytes bs.length (ofLeBytes bs) = bs := by
  induction bs with
  | nil => rfl
  | cons b bs ih =>
    have hb := b.isLt
    have hrest : (b.toNat + 256 * ofLeBytes bs) / 256 = ofLeBytes bs := by omega
    rw [List.length_cons, ofLeBytes, leBytes, hrest, ih]
    congr 1
    refine BitVec.eq_of_toNat_eq ?_
    rw [BitVec.toNat_ofNat]
    omega

theorem leBytes_set {i : Nat} {b old : Byte} (hi : (leBytes w n)[i]? = some old) (hb : b ≠ old) :
    ∃ m < 256 ^ w, (leBytes w n).set i b = leBytes w m ∧ m ≠ n := by
  have hlen : ((leBytes w n).set i b).length = w := by rw [List.length_set, length_leBytes]
  have hset := leBytes_ofLeBytes ((leBytes w n).set i b)
  rw [hlen] at hset
  refine ⟨ofLeBytes ((leBytes w n).set i b), ?_, hset.symm, ?_⟩
  · have hlt : ofLeBytes ((leBytes w n).set i b) < 256 ^ ((leBytes w n).set i b).length := ofLeBytes_lt
    rwa [hlen] at hlt
  · intro heq
    rw [heq] at hset
    have hget : ((leBytes w n).set i b)[i]? = some b := List.getElem?_set_self (List.getElem?_eq_some_iff.mp hi).1
    rw [← hset, hi] at hget
    exact hb (Option.some.inj hget).symm

/-! ### Records -/

theorem length_flatMap_of_forall {α β : Type} {xs : List α} {f : α → List β} (h : ∀ x ∈ xs, (f x).length = n) :
    (xs.flatMap f).length = xs.length * n := by
  induction xs with
  | nil => rw [List.flatMap_nil, List.length_nil, List.length_nil, Nat.zero_mul]
  | cons x xs ih =>
    obtain ⟨hx, hxs⟩ := List.forall_mem_cons.mp h
    rw [List.flatMap_cons, List.length_append, hx, ih hxs, List.length_cons, Nat.succ_mul, Nat.add_comm]

def packFields (fields : List (Nat × Nat)) : List Byte := fields.flatMap fun f => leBytes f.1 f.2

def unpackFields : List Nat → List Byte → Option (List Nat)
  | [], _ => some []
  | w :: ws, bs =>
    if bs.length < w then none else (unpackFields ws (bs.drop w)).map (ofLeBytes (bs.take w) :: ·)

theorem length_packFields (fields : List (Nat × Nat)) : (packFields fields).length = (fields.map Prod.fst).sum := by
  induction fields with
  | nil => rfl
  | cons f fields ih =>
    rw [packFields, List.flatMap_cons, List.length_append, length_leBytes, List.map_cons, List.sum_cons, ← ih]
    rfl

theorem unpackFields_packFields (fields : List (Nat × Nat)) (h : ∀ f ∈ fields, f.2 < 256 ^ f.1) (rest : List Byte) :
    unpackFields (fields.map Prod.fst) (packFields fields ++ rest) = some (fields.map Prod.snd) := by
  induction fields with
  | nil => rfl
  | cons f fields ih =>
    have hpack : packFields (f :: fields) ++ rest = leBytes f.1 f.2 ++ (packFields fields ++ rest) := by
      rw [packFields, List.flatMap_cons, List.append_assoc]
      rfl
    have htake : (leBytes f.1 f.2 ++ (packFields fields ++ rest)).take f.1 = leBytes f.1 f.2 :=
      List.take_left' length_leBytes
    have hdrop : (leBytes f.1 f.2 ++ (packFields fields ++ rest)).drop f.1 = packFields fields ++ rest :=
      List.drop_left' length_leBytes
    rw [hpack, List.map_cons, unpackFields, if_neg, htake, hdrop, ih fun g hg => h g (List.mem_cons_of_mem _ hg),
      ofLeBytes_leBytes (h f List.mem_cons_self)]
    · rfl
    · rw [List.length_append, length_leBytes]
      omega

theorem unpackFields_lt {ws ns : List Nat} (h : unpackFields ws bs = some ns) :
    List.Forall₂ (fun w n => n < 256 ^ w) ws ns := by
  induction ws generalizing bs ns with
  | nil =>
    cases h
    exact .nil
  | cons w ws ih =>
    rw [unpackFields] at h
    split_ifs at h with hlen
    obtain ⟨ms, hms, rfl⟩ := Option.map_eq_some_iff.mp h
    refine .cons ?_ (ih hms)
    have hlt : ofLeBytes (bs.take w) < 256 ^ (bs.take w).length := ofLeBytes_lt
    rwa [List.length_take, Nat.min_eq_left (by omega)] at hlt

/-! ### Buffers -/

section Buffers

variable {α : Type} {buf buf' data : List α} {off m : Nat}

def slice (buf : List α) (off n : Nat) : List α := (buf.drop off).take n

/-- The buffer has `data` from `off` on. -/
def At (buf : List α) (off : Nat) (data : List α) : Prop := ∃ before rest, before.length = off ∧ buf = before ++ data ++ rest

theorem At.all (buf : List α) : At buf 0 buf := ⟨[], [], rfl, (List.append_nil _).symm⟩

theorem At.left (h : At buf off (data ++ buf')) : At buf off data := by
  obtain ⟨before, rest, hoff, rfl⟩ := h
  exact ⟨before, buf' ++ rest, hoff, by simp only [List.append_assoc]⟩

theorem At.right (h : At buf off (data ++ buf')) : At buf (off + data.length) buf' := by
  obtain ⟨before, rest, rfl, rfl⟩ := h
  exact ⟨before ++ data, rest, List.length_append, by simp only [List.append_assoc]⟩

theorem At.slice (h : At buf off data) : slice buf off data.length = data := by
  obtain ⟨before, rest, hoff, rfl⟩ := h
  rw [Korith.slice, List.append_assoc, List.drop_left' hoff, List.take_left]

theorem At.drop (h : At buf off data) : ∃ rest, buf.drop off = data ++ rest := by
  obtain ⟨before, rest, hoff, rfl⟩ := h
  exact ⟨rest, by rw [List.append_assoc, List.drop_left' hoff]⟩

theorem At.piece {pieces : List (List α)} {i : Nat} (h : At buf off pieces.flatten)
    (hlen : ∀ piece ∈ pieces, piece.length = n) (hi : i < pieces.length) : At buf (off + i * n) pieces[i] := by
  induction pieces generalizing off i with
  | nil => exact absurd hi (Nat.not_lt_zero i)
  | cons piece pieces ih =>
    obtain ⟨hpiece, hpieces⟩ := List.forall_mem_cons.1 hlen
    rw [List.flatten_cons] at h
    cases i with
    | zero =>
      rw [Nat.zero_mul]
      exact h.left
    | succ i =>
      have hrest := ih h.right hpieces (Nat.lt_of_succ_lt_succ hi)
      rwa [hpiece, Nat.add_assoc, Nat.add_comm n, ← Nat.succ_mul] at hrest

def readAt (off n : Nat) (buf : List α) : Option (List α) := if off + n ≤ buf.length then some (slice buf off n) else none

theorem At.readAt (h : At buf off data) : readAt off data.length buf = some data := by
  have hle : off + data.length ≤ buf.length := by
    obtain ⟨before, rest, rfl, rfl⟩ := h
    rw [List.length_append, List.length_append]
    exact Nat.le_add_right _ _
  rw [Korith.readAt, if_pos hle, h.slice]

def writeAt (off : Nat) (data buf : List α) : Option (List α) :=
  if off + data.length ≤ buf.length then some (buf.take off ++ data ++ buf.drop (off + data.length)) else none

theorem writeAt_of_le (h : off + data.length ≤ buf.length) :
    writeAt off data buf = some (buf.take off ++ data ++ buf.drop (off + data.length)) := if_pos h

theorem writeAt_append (buf : List α) (h : data.length ≤ buf'.length) :
    writeAt buf.length data (buf ++ buf') = some (buf ++ data ++ buf'.drop data.length) := by
  rw [writeAt_of_le (by rw [List.length_append]; omega), List.take_left, List.drop_append, List.drop_of_length_le (by omega),
    Nat.add_sub_cancel_left, List.nil_append]

variable (h : writeAt off data buf = some buf')

include h

theorem of_writeAt :
    off + data.length ≤ buf.length ∧ buf' = buf.take off ++ data ++ buf.drop (off + data.length) := by
  unfold writeAt at h
  split_ifs at h with hle
  exact ⟨hle, (Option.some.inj h).symm⟩

theorem length_writeAt : buf'.length = buf.length := by
  obtain ⟨hle, rfl⟩ := of_writeAt h
  simp only [List.length_append, List.length_take, List.length_drop]
  omega

theorem slice_writeAt_same : slice buf' off data.length = data := by
  obtain ⟨hle, rfl⟩ := of_writeAt h
  have hoff : (buf.take off).length = off := by rw [List.length_take]; omega
  rw [slice, List.append_assoc, List.drop_left' hoff, List.take_left]

theorem slice_writeAt_disjoint (hdisj : m + n ≤ off ∨ off + data.length ≤ m) : slice buf' m n = slice buf m n := by
  obtain ⟨hle, rfl⟩ := of_writeAt h
  have hoff : (buf.take off).length = off := by rw [List.length_take]; omega
  refine List.ext_getElem? fun i => ?_
  simp only [slice, List.getElem?_take, List.getElem?_drop]
  split_ifs with hi
  · rcases hdisj with hbefore | hafter
    · rw [List.append_assoc, List.getElem?_append_left (by omega), List.getElem?_take_of_lt (by omega)]
    · rw [List.getElem?_append_right (by rw [List.length_append]; omega), List.getElem?_drop]
      congr 1
      rw [List.length_append]
      omega
  · rfl

end Buffers

end Korith
