import Mathlib

/-!
# A vector of records with an index by key

A vector and a hash map from keys to positions. `Indexed key xs index` says that the keys are distinct and that the
map has exactly their positions. It is kept by appending a record with a new key, by replacing a record by one with
the same key, and by rebuilding the map after an erasure. A rebuilt map is sound even if the keys are not distinct
(`rebuildIndex_sound`).
-/

namespace Korith

variable {α κ : Type} {key : α → κ} {xs : List α} {index : κ → Option Nat} {x y : α} {k : κ} {i : Nat}
  {m : κ → Option Nat}

/-- `for (i) index[xs[i].key] = i`, from position `i` on. -/
def rebuildFrom [DecidableEq κ] (key : α → κ) : List α → Nat → (κ → Option Nat) → κ → Option Nat
  | [], _, m => m
  | x :: xs, i, m => rebuildFrom key xs (i + 1) (Function.update m (key x) (some i))

def rebuildIndex [DecidableEq κ] (key : α → κ) (xs : List α) : κ → Option Nat := rebuildFrom key xs 0 fun _ => none

structure Indexed (key : α → κ) (xs : List α) (index : κ → Option Nat) : Prop where
  nodup : (xs.map key).Nodup
  iff : ∀ k i, index k = some i ↔ xs[i]?.map key = some k

theorem rebuildFrom_sound [DecidableEq κ] (pre : List α) (hm : ∀ k i, m k = some i → pre[i]?.map key = some k)
    (h : rebuildFrom key xs pre.length m k = some i) : (pre ++ xs)[i]?.map key = some k := by
  induction xs generalizing pre m with
  | nil => simpa using hm k i h
  | cons x xs ih =>
    rw [List.append_cons]
    refine ih (pre ++ [x]) (fun k i hk => ?_) (by simpa [rebuildFrom] using h)
    rw [Function.update_apply] at hk
    split_ifs at hk with hkx
    · cases hk
      simp [hkx]
    · have := hm k i hk
      rw [List.getElem?_append_left]
      · exact this
      · by_contra hge
        rw [List.getElem?_eq_none (by omega)] at this
        cases this

theorem rebuildIndex_sound [DecidableEq κ] (h : rebuildIndex key xs k = some i) : xs[i]?.map key = some k :=
  rebuildFrom_sound [] (fun _ _ h => by cases h) h

theorem rebuildFrom_isSome [DecidableEq κ] {n : Nat} (h : (m k).isSome ∨ k ∈ xs.map key) :
    (rebuildFrom key xs n m k).isSome := by
  induction xs generalizing m n with
  | nil => simpa [rebuildFrom] using h
  | cons x xs ih =>
    refine ih ?_
    rw [Function.update_apply]
    rcases h with h | h
    · split_ifs <;> simp [h]
    · rcases List.mem_cons.mp h with rfl | h
      · simp
      · exact .inr h

theorem eq_of_getElem?_key {j : Nat} (hn : (xs.map key).Nodup) (hi : xs[i]?.map key = some k)
    (hj : xs[j]?.map key = some k) : i = j := by
  rw [← List.getElem?_map] at hi hj
  obtain ⟨hlt, hi⟩ := List.getElem?_eq_some_iff.mp hi
  obtain ⟨hlt', hj⟩ := List.getElem?_eq_some_iff.mp hj
  exact (List.Nodup.getElem_inj_iff hn).mp (hi.trans hj.symm)

theorem indexed_rebuild [DecidableEq κ] (hn : (xs.map key).Nodup) : Indexed key xs (rebuildIndex key xs) := by
  refine ⟨hn, fun k i => ⟨rebuildIndex_sound, fun hi => ?_⟩⟩
  have hmem : k ∈ xs.map key := by
    rw [← List.getElem?_map] at hi
    exact List.mem_of_getElem? hi
  obtain ⟨j, hj⟩ := Option.isSome_iff_exists.mp (rebuildFrom_isSome (n := 0) (m := fun _ => none) (.inr hmem))
  rw [eq_of_getElem?_key hn hi (rebuildIndex_sound hj)]
  exact hj

theorem map_key_set (hi : xs[i]? = some x) (hy : key y = key x) : (xs.set i y).map key = xs.map key := by
  rw [List.map_set, hy]
  refine List.ext_getElem? fun j => ?_
  rw [List.getElem?_set, List.getElem?_map]
  split_ifs with hij hlt
  · subst hij; simp [hi]
  · subst hij
    rw [List.length_map] at hlt
    rw [List.getElem?_eq_none (by omega)]; rfl
  · rfl

namespace Indexed

variable (h : Indexed key xs index)

include h

theorem none_iff : index k = none ↔ k ∉ xs.map key := by
  constructor
  · intro hk hmem
    obtain ⟨i, hlt, hi⟩ := List.mem_iff_getElem.mp hmem
    have := (h.iff k i).mpr (by rw [← List.getElem?_map, List.getElem?_eq_some_iff]; exact ⟨hlt, hi⟩)
    rw [hk] at this
    cases this
  · intro hk
    cases hi : index k with
    | none => rfl
    | some i =>
      have := (h.iff k i).mp hi
      rw [← List.getElem?_map] at this
      exact absurd (List.mem_of_getElem? this) hk

theorem getElem? (hi : index k = some i) : ∃ x, xs[i]? = some x ∧ key x = k := by
  simpa using (h.iff k i).mp hi

omit h in
theorem nil : Indexed key [] (fun _ => none : κ → Option Nat) := ⟨List.nodup_nil, fun k i => by simp⟩

theorem append [DecidableEq κ] (hk : index (key x) = none) :
    Indexed key (xs ++ [x]) (Function.update index (key x) (some xs.length)) := by
  have hmem := h.none_iff.mp hk
  refine ⟨?_, fun k i => ?_⟩
  · rw [List.map_append, List.nodup_append]
    refine ⟨h.nodup, by simp, fun a ha b hb => ?_⟩
    rintro rfl
    rw [List.map_singleton, List.mem_singleton] at hb
    exact hmem (hb ▸ ha)
  · rw [Function.update_apply, List.getElem?_append]
    split_ifs with hkx hi hi
    · subst hkx
      constructor
      · rintro ⟨⟩; exact absurd hi (Nat.lt_irrefl _)
      · intro hx
        rw [← List.getElem?_map] at hx
        exact absurd (List.mem_of_getElem? hx) hmem
    · subst hkx
      rw [List.getElem?_singleton]
      constructor
      · rintro ⟨⟩; simp
      · intro hx
        split_ifs at hx with h0
        · simp; omega
        · cases hx
    · exact h.iff k i
    · rw [h.iff, List.getElem?_eq_none (by omega), List.getElem?_singleton]
      split_ifs with h0
      · simpa using fun hx => hkx hx.symm
      · simp

theorem set (hi : xs[i]? = some x) (hy : key y = key x) : Indexed key (xs.set i y) index := by
  have hmap := map_key_set hi hy
  refine ⟨hmap ▸ h.nodup, fun k j => ?_⟩
  rw [h.iff, ← List.getElem?_map, ← List.getElem?_map, hmap]

theorem eraseIdx_nodup (i : Nat) : ((xs.eraseIdx i).map key).Nodup :=
  h.nodup.sublist ((List.eraseIdx_sublist xs i).map key)

end Indexed

/-! ### Totals -/

section Totals

variable {w : α → Nat}

theorem sum_eraseIdx (hi : xs[i]? = some x) : ((xs.eraseIdx i).map w).sum + w x = (xs.map w).sum := by
  induction xs generalizing i with
  | nil => simp at hi
  | cons a xs ih =>
    cases i with
    | zero => simp at hi; simp [hi, Nat.add_comm]
    | succ i =>
      have := ih (by simpa using hi)
      simp only [List.eraseIdx_cons_succ, List.map_cons, List.sum_cons]
      omega

theorem sum_set (hi : xs[i]? = some x) : ((xs.set i y).map w).sum + w x = (xs.map w).sum + w y := by
  induction xs generalizing i with
  | nil => simp at hi
  | cons a xs ih =>
    cases i with
    | zero => simp at hi; simp [hi, Nat.add_comm, Nat.add_left_comm]
    | succ i =>
      have := ih (by simpa using hi)
      simp only [List.set_cons_succ, List.map_cons, List.sum_cons]
      omega

end Totals

end Korith
