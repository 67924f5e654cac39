import Mathlib

/-!
# Reduction by a block of threads

Thread `t` of `2 ^ k` scans the entries whose index is `t` modulo `2 ^ k`, then the threads' results are combined in
`k` rounds, each halving their number. For an operation that picks one of its two arguments this finds a greatest
entry, in whatever order the entries are combined.
-/

namespace Korith

variable {α : Type} {le : α → α → Prop} {op : α → α → α}

/-- `op` returns an argument that is not below the other one. -/
structure Picks (le : α → α → Prop) (op : α → α → α) : Prop where
  refl : ∀ a, le a a
  trans : ∀ a b c, le a b → le b c → le a c
  pick : ∀ a b, op a b = a ∧ le b a ∨ op a b = b ∧ le a b

structure Greatest (le : α → α → Prop) (S : α → Prop) (r : α) : Prop where
  mem : S r
  ge : ∀ x, S x → le x r

/-- One round per bit: the lower half of the threads takes over the upper half. -/
def treeReduce (op : α → α → α) : Nat → (Nat → α) → α
  | 0, a => a 0
  | k + 1, a => treeReduce op k fun t => if t < 2 ^ k then op (a t) (a (t + 2 ^ k)) else a t

def threadEntries (threads t : Nat) (xs : List α) : List α :=
  (xs.zipIdx.filter fun x => x.2 % threads = t).map (·.1)

def blockReduce (op : α → α → α) (k : Nat) (init : α) (xs : List α) : α :=
  treeReduce op k fun t => (threadEntries (2 ^ k) t xs).foldl op init

theorem Picks.op_ge (h : Picks le op) (a b : α) : le a (op a b) ∧ le b (op a b) := by
  rcases h.pick a b with ⟨he, hle⟩ | ⟨he, hle⟩ <;> rw [he]
  · exact ⟨h.refl a, hle⟩
  · exact ⟨hle, h.refl b⟩

theorem Picks.foldl (h : Picks le op) (xs : List α) (a : α) :
    Greatest le (fun x => x = a ∨ x ∈ xs) (xs.foldl op a) := by
  induction xs generalizing a with
  | nil => exact ⟨.inl rfl, by rintro x (rfl | hx); exacts [h.refl _, absurd hx (by simp)]⟩
  | cons b xs ih =>
    obtain ⟨hmem, hge⟩ := ih (op a b)
    obtain ⟨ha, hb⟩ := h.op_ge a b
    have hop := hge _ (.inl rfl)
    constructor
    · rcases hmem with he | hm
      · rcases h.pick a b with ⟨h', -⟩ | ⟨h', -⟩
        · exact .inl (he.trans h')
        · exact .inr (by rw [List.foldl_cons, he, h']; exact List.mem_cons_self)
      · exact .inr (List.mem_cons_of_mem _ hm)
    · rintro x (rfl | hx)
      · exact h.trans _ _ _ ha hop
      · rcases List.mem_cons.1 hx with rfl | hx
        · exact h.trans _ _ _ hb hop
        · exact hge x (.inr hx)

theorem Picks.treeReduce (h : Picks le op) (k : Nat) (a : Nat → α) :
    Greatest le (fun x => ∃ t < 2 ^ k, x = a t) (treeReduce op k a) := by
  induction k generalizing a with
  | zero =>
    refine ⟨⟨0, by simp, rfl⟩, ?_⟩
    rintro x ⟨t, ht, rfl⟩
    obtain rfl : t = 0 := by simpa using ht
    exact h.refl _
  | succ k ih =>
    obtain ⟨⟨t, ht, he⟩, hge⟩ := ih fun t => if t < 2 ^ k then op (a t) (a (t + 2 ^ k)) else a t
    have hpow : 2 ^ (k + 1) = 2 ^ k + 2 ^ k := by rw [Nat.pow_succ, Nat.mul_two]
    rw [if_pos ht] at he
    constructor
    · rcases h.pick (a t) (a (t + 2 ^ k)) with ⟨h', -⟩ | ⟨h', -⟩
      · exact ⟨t, by omega, he.trans h'⟩
      · exact ⟨t + 2 ^ k, by omega, he.trans h'⟩
    · rintro x ⟨u, hu, rfl⟩
      by_cases hlt : u < 2 ^ k
      · refine h.trans _ _ _ (h.op_ge (a u) (a (u + 2 ^ k))).1 (hge _ ⟨u, hlt, ?_⟩)
        rw [if_pos hlt]
      · have hsub : u - 2 ^ k < 2 ^ k := by omega
        have hadd : u - 2 ^ k + 2 ^ k = u := by omega
        refine h.trans _ _ _ (h.op_ge (a (u - 2 ^ k)) (a u)).2 (hge _ ⟨u - 2 ^ k, hsub, ?_⟩)
        rw [if_pos hsub, hadd]

theorem mem_threadEntries {threads t : Nat} {xs : List α} {x : α} :
    x ∈ threadEntries threads t xs ↔ ∃ i, xs[i]? = some x ∧ i % threads = t := by
  simp only [threadEntries, List.mem_map, List.mem_filter, decide_eq_true_eq]
  constructor
  · rintro ⟨⟨y, i⟩, ⟨hm, ht⟩, rfl⟩
    exact ⟨i, by simpa [List.mk_mem_zipIdx_iff_getElem?] using hm, ht⟩
  · rintro ⟨i, hi, ht⟩
    exact ⟨(x, i), ⟨by simpa [List.mk_mem_zipIdx_iff_getElem?] using hi, ht⟩, rfl⟩

theorem Picks.blockReduce (h : Picks le op) (k : Nat) (init : α) (xs : List α) :
    Greatest le (fun x => x = init ∨ x ∈ xs) (blockReduce op k init xs) := by
  obtain ⟨⟨t, ht, he⟩, hge⟩ :=
    h.treeReduce k fun t => (threadEntries (2 ^ k) t xs).foldl op init
  constructor
  · rw [show Korith.blockReduce op k init xs = _ from he]
    refine (h.foldl _ init).mem.imp_right fun hm => ?_
    obtain ⟨i, hi, -⟩ := mem_threadEntries.1 hm
    exact List.mem_of_getElem? hi
  · intro x hx
    have hthread : ∃ t < 2 ^ k, x = init ∨ x ∈ threadEntries (2 ^ k) t xs := by
      rcases hx with rfl | hx
      · exact ⟨t, ht, .inl rfl⟩
      · obtain ⟨i, hi⟩ := List.mem_iff_getElem?.1 hx
        exact ⟨i % 2 ^ k, Nat.mod_lt _ (Nat.two_pow_pos k), .inr (mem_threadEntries.2 ⟨i, hi, rfl⟩)⟩
    obtain ⟨u, hu, hx⟩ := hthread
    exact h.trans _ _ _ ((h.foldl _ init).ge x hx) (hge _ ⟨u, hu, rfl⟩)

end Korith
