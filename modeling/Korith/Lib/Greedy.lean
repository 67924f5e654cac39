import Mathlib

/-!
# Greedy decoding

`lowestArgmax p row` is the lowest index of a largest entry of `row` among the indices in `p`. `generate next n xs` is
what a decoder emits after `xs` in at most `n` steps when `next` says which token comes after a text, or that the text
is over. `Follows next xs ys` says that `ys` is such an output, of any length; a decoder is checked by keeping
`Follows` for what it has emitted so far.
-/

namespace Korith

/-! ### Lowest argmax -/

section Argmax

variable {L : Type} [LinearOrder L] {p : Nat → Bool} {row : List L} {i j : Nat}

def lowestArgmax (p : Nat → Bool) (row : List L) : Option Nat :=
  (row.zipIdx.find? fun x => p x.2 && row.zipIdx.all fun y => !p y.2 || decide (y.1 ≤ x.1)).map (·.2)

/-- `i` is in `p`, no entry in `p` is larger, and those before `i` are smaller. -/
structure IsLowestArgmax (p : Nat → Bool) (row : List L) (i : Nat) : Prop where
  mem : p i = true
  lt : i < row.length
  le : ∀ j (h : j < row.length), p j = true → row[j] ≤ row[i]
  first : ∀ j (h : j < i), p j = true → row[j] < row[i]

theorem IsLowestArgmax.unique (hi : IsLowestArgmax p row i) (hj : IsLowestArgmax p row j) : i = j := by
  rcases Nat.lt_trichotomy i j with h | h | h
  · exact absurd (hj.first i h hi.mem) (not_lt.mpr (hi.le j hj.lt hj.mem))
  · exact h
  · exact absurd (hi.first j h hj.mem) (not_lt.mpr (hj.le i hi.lt hi.mem))

theorem isLowestArgmax_of_eq (h : lowestArgmax p row = some i) : IsLowestArgmax p row i := by
  obtain ⟨⟨v, k⟩, hf, hk⟩ := Option.map_eq_some_iff.mp h
  obtain ⟨hp, n, hn, hget, hbefore⟩ := List.find?_eq_some_iff_getElem.mp hf
  simp only [List.getElem_zipIdx, Nat.zero_add, Prod.mk.injEq] at hget
  obtain ⟨rfl, rfl⟩ := hget
  cases hk
  simp only [List.length_zipIdx] at hn
  simp only [Bool.and_eq_true, List.all_eq_true, Bool.or_eq_true, Bool.not_eq_true',
    decide_eq_true_eq] at hp
  have hle : ∀ j (h : j < row.length), p j = true → row[j] ≤ row[n] := by
    intro j hj hpj
    have := hp.2 (row[j], j) (List.mem_zipIdx_iff_getElem?.mpr (by simp [hj]))
    simpa [hpj] using this
  refine ⟨hp.1, hn, hle, fun j hj hpj => lt_of_le_of_ne (hle j (by omega) hpj) fun heq => ?_⟩
  -- an equal entry before `n` would have passed the test as well
  have hnot := hbefore j hj
  simp only [List.getElem_zipIdx, Nat.zero_add, heq, hpj, Bool.true_and, Bool.not_eq_true',
    List.all_eq_false] at hnot
  obtain ⟨y, hy, hbad⟩ := hnot
  exact hbad (by simpa using hp.2 y hy)

theorem lowestArgmax_eq_some_iff : lowestArgmax p row = some i ↔ IsLowestArgmax p row i := by
  refine ⟨isLowestArgmax_of_eq, fun h => ?_⟩
  cases hf : lowestArgmax p row with
  | some j => rw [(isLowestArgmax_of_eq hf).unique h]
  | none =>
    -- the entry at `i` passes the test, so the search cannot come back empty
    have hlt := h.lt
    have hnone := List.find?_eq_none.mp (Option.map_eq_none_iff.mp hf) (row[i], i)
      (List.mem_zipIdx_iff_getElem?.mpr (by simp))
    refine absurd ?_ hnone
    simp only [h.mem, Bool.true_and, List.all_eq_true, Bool.or_eq_true, Bool.not_eq_true',
      decide_eq_true_eq]
    rintro ⟨v, j⟩ hv
    have hj : row[j]? = some v := List.mem_zipIdx_iff_getElem?.mp hv
    obtain ⟨hlt, rfl⟩ := List.getElem?_eq_some_iff.mp hj
    cases hpj : p j with
    | false => exact .inl rfl
    | true => exact .inr (h.le j hlt hpj)

theorem lowestArgmax_eq_none (h : ∀ i < row.length, p i = false) : lowestArgmax p row = none := by
  refine Option.eq_none_iff_forall_ne_some.mpr fun i hi => ?_
  have hi := isLowestArgmax_of_eq hi
  exact absurd hi.mem (by simp [h i hi.lt])

end Argmax

/-! ### Decoding step by step -/

section Follows

variable {τ : Type} {next : List τ → Option τ} {xs ys zs : List τ} {t : τ} {n : Nat}

def generate (next : List τ → Option τ) : Nat → List τ → List τ
  | 0, _ => []
  | n + 1, xs =>
    match next xs with
    | none => []
    | some t => t :: generate next n (xs ++ [t])

/-- `ys` is emitted after `xs`, token by token. -/
def Follows (next : List τ → Option τ) : List τ → List τ → Prop
  | _, [] => True
  | xs, t :: ys => next xs = some t ∧ Follows next (xs ++ [t]) ys

@[simp] theorem follows_nil : Follows next xs [] := trivial

@[simp] theorem follows_cons : Follows next xs (t :: ys) ↔ next xs = some t ∧ Follows next (xs ++ [t]) ys := Iff.rfl

theorem follows_append : Follows next xs (ys ++ zs) ↔ Follows next xs ys ∧ Follows next (xs ++ ys) zs := by
  induction ys generalizing xs with
  | nil => simp
  | cons t ys ih => simp [ih, and_assoc]

theorem Follows.snoc (h : Follows next xs ys) (ht : next (xs ++ ys) = some t) : Follows next xs (ys ++ [t]) :=
  follows_append.mpr ⟨h, by simpa using ht⟩

theorem follows_iff : Follows next xs ys ↔ ∀ i (h : i < ys.length), next (xs ++ ys.take i) = some ys[i] := by
  induction ys generalizing xs with
  | nil => simp
  | cons t ys ih =>
    rw [follows_cons, ih]
    constructor
    · rintro ⟨h0, hs⟩ (_ | i) hi
      · simpa using h0
      · simpa using hs i (by simpa using hi)
    · intro h
      refine ⟨?_, fun i hi => ?_⟩
      · rw [← List.append_nil xs]
        exact h 0 (Nat.zero_lt_succ _)
      · rw [List.append_assoc]
        exact h (i + 1) (Nat.succ_lt_succ hi)

theorem Follows.unique (hy : Follows next xs ys) (hz : Follows next xs zs) (hl : ys.length = zs.length) :
    ys = zs := by
  induction ys generalizing xs zs with
  | nil => exact (List.length_eq_zero_iff.1 hl.symm).symm
  | cons t ys ih =>
    cases zs with
    | nil => simp at hl
    | cons u zs =>
      obtain rfl : t = u := Option.some.inj (hy.1.symm.trans hz.1)
      rw [ih hy.2 hz.2 (by simpa using hl)]

theorem Follows.prefix_generate (h : Follows next xs ys) (hn : ys.length ≤ n) : ys <+: generate next n xs := by
  induction ys generalizing xs n with
  | nil => exact List.nil_prefix
  | cons t ys ih =>
    obtain ⟨n, rfl⟩ : ∃ m, n = m + 1 := ⟨n - 1, by simp at hn; omega⟩
    simp only [generate, h.1]
    exact List.cons_prefix_cons.mpr ⟨rfl, ih h.2 (by simpa using hn)⟩

end Follows

end Korith
