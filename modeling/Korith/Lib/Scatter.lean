import Mathlib.Data.List.Nodup

/-!
# Gathering and scattering

A list is read and written through a list of positions. What a position holds after a scatter is what was written
there last (`LastAt`), and a position that is not in the list keeps what it held.
-/

namespace Korith

variable {α : Type} {ids ids' : List Nat} {src l : List α} {ps : List (Nat × α)} {b i : Nat}

/-! ### The last position of a number -/

structure LastAt (ids : List Nat) (b i : Nat) : Prop where
  eq : ids[i]? = some b
  last : ∀ j, i < j → ids[j]? ≠ some b

theorem LastAt.lt (h : LastAt ids b i) : i < ids.length := (List.getElem?_eq_some_iff.1 h.eq).1

theorem LastAt.mem (h : LastAt ids b i) : b ∈ ids := List.mem_of_getElem? h.eq

theorem LastAt.of_nodup (hids : ids.Nodup) (h : ids[i]? = some b) : LastAt ids b i := by
  refine ⟨h, fun j hj hjb => ?_⟩
  have hij : i = j := (List.getElem?_inj (List.getElem?_eq_some_iff.1 h).1 hids).1 (h.trans hjb.symm)
  omega

theorem LastAt.eq_of_nodup {m k : Nat} (hids : ids.Nodup) (h : LastAt (ids.take m) b i) (hk : ids[k]? = some b) :
    i = k := by
  have hi : ids[i]? = some b := by
    rw [← h.eq, List.getElem?_take_of_lt (Nat.lt_of_lt_of_le h.lt (List.length_take_le _ _))]
  exact (List.getElem?_inj (List.getElem?_eq_some_iff.1 hi).1 hids).1 (hi.trans hk.symm)

theorem lastAt_append_cases (h : LastAt (ids ++ ids') b i) :
    (LastAt ids b i ∧ b ∉ ids') ∨ ∃ k, i = ids.length + k ∧ LastAt ids' b k := by
  by_cases hlt : i < ids.length
  · refine .inl ⟨⟨?_, fun j hj hjb => ?_⟩, fun hb => ?_⟩
    · rw [← h.eq, List.getElem?_append_left hlt]
    · refine h.last j hj ?_
      rw [List.getElem?_append_left (List.getElem?_eq_some_iff.1 hjb).1, hjb]
    · obtain ⟨k, hk⟩ := List.mem_iff_getElem?.1 hb
      refine h.last (ids.length + k) (by omega) ?_
      rw [List.getElem?_append_right (Nat.le_add_right _ _), Nat.add_sub_cancel_left, hk]
  · obtain ⟨k, rfl⟩ := Nat.exists_eq_add_of_le (Nat.not_lt.1 hlt)
    refine .inr ⟨k, rfl, ⟨?_, fun j hj hjb => ?_⟩⟩
    · rw [← h.eq, List.getElem?_append_right (Nat.le_add_right _ _), Nat.add_sub_cancel_left]
    · refine h.last (ids.length + j) (by omega) ?_
      rw [List.getElem?_append_right (Nat.le_add_right _ _), Nat.add_sub_cancel_left, hjb]

theorem exists_lastAt (h : b ∈ ids) : ∃ i, LastAt ids b i := by
  induction ids with
  | nil => cases h
  | cons id ids ih =>
    by_cases hb : b ∈ ids
    · obtain ⟨i, hi⟩ := ih hb
      refine ⟨i + 1, by rw [List.getElem?_cons_succ, hi.eq], fun j hj hjb => ?_⟩
      obtain ⟨j, rfl⟩ := Nat.exists_eq_succ_of_ne_zero (Nat.ne_of_gt (Nat.zero_lt_of_lt hj))
      exact hi.last j (by omega) (by rwa [List.getElem?_cons_succ] at hjb)
    · obtain rfl : b = id := (List.mem_cons.1 h).resolve_right hb
      refine ⟨0, List.getElem?_cons_zero, fun j hj hjb => ?_⟩
      obtain ⟨j, rfl⟩ := Nat.exists_eq_succ_of_ne_zero (Nat.ne_of_gt hj)
      rw [List.getElem?_cons_succ] at hjb
      exact hb (List.mem_of_getElem? hjb)

/-! ### Scattering -/

def setAll (ps : List (Nat × α)) (l : List α) : List α := ps.foldl (fun l p => l.set p.1 p.2) l

theorem setAll_cons (p : Nat × α) : setAll (p :: ps) l = setAll ps (l.set p.1 p.2) := rfl

@[simp] theorem length_setAll : (setAll ps l).length = l.length := by
  induction ps generalizing l with
  | nil => rfl
  | cons p ps ih => rw [setAll_cons, ih, List.length_set]

theorem getElem?_setAll_of_notMem (h : ∀ p ∈ ps, p.1 ≠ b) : (setAll ps l)[b]? = l[b]? := by
  induction ps generalizing l with
  | nil => rfl
  | cons p ps ih =>
    obtain ⟨hp, hps⟩ := List.forall_mem_cons.1 h
    rw [setAll_cons, ih hps, List.getElem?_set_ne hp]

theorem getElem?_scatter_of_notMem (h : b ∉ ids) : (setAll (ids.zip src) l)[b]? = l[b]? := by
  refine getElem?_setAll_of_notMem fun p hp heq => h ?_
  rw [← heq]
  exact (List.of_mem_zip hp).1

theorem getElem?_scatter (h : LastAt ids b i) (hlen : ids.length = src.length) (hb : b < l.length) :
    (setAll (ids.zip src) l)[b]? = src[i]? := by
  induction ids generalizing src l i with
  | nil => cases h.eq
  | cons id ids ih =>
    cases src with
    | nil => cases hlen
    | cons x src =>
      rw [List.zip_cons_cons, setAll_cons]
      rcases lastAt_append_cases (show LastAt ([id] ++ _) b i from h) with ⟨hi, hnot⟩ | ⟨k, rfl, hk⟩
      · obtain rfl : i = 0 := Nat.lt_one_iff.1 hi.lt
        obtain rfl : id = b := Option.some.inj hi.eq
        rw [getElem?_scatter_of_notMem hnot, List.getElem?_set_self hb, List.getElem?_cons_zero]
      · rw [ih hk (Nat.succ.inj hlen) (by rwa [List.length_set]), List.length_singleton, Nat.add_comm,
          List.getElem?_cons_succ]

theorem scatter_eq_self_iff (hlen : ids.length = src.length) (hids : ∀ b ∈ ids, b < l.length) :
    setAll (ids.zip src) l = l ↔ ∀ b i, LastAt ids b i → l[b]? = src[i]? := by
  refine ⟨fun h b i hi => ?_, fun h => List.ext_getElem? fun b => ?_⟩
  · rw [← getElem?_scatter hi hlen (hids b hi.mem), h]
  · by_cases hmem : b ∈ ids
    · obtain ⟨i, hi⟩ := exists_lastAt hmem
      rw [getElem?_scatter hi hlen (hids b hmem), h b i hi]
    · rw [getElem?_scatter_of_notMem hmem]

theorem scatter_scatter {src' : List α} (hlen' : ids.length = src'.length) :
    setAll (ids.zip src') (setAll (ids.zip src) l) = setAll (ids.zip src') l := by
  refine List.ext_getElem? fun b => ?_
  by_cases hmem : b ∈ ids
  · obtain ⟨i, hi⟩ := exists_lastAt hmem
    by_cases hb : b < l.length
    · rw [getElem?_scatter hi hlen' hb, getElem?_scatter hi hlen' (by rwa [length_setAll])]
    · rw [List.getElem?_eq_none (by rw [length_setAll, length_setAll]; omega),
        List.getElem?_eq_none (by rw [length_setAll]; omega)]
  · rw [getElem?_scatter_of_notMem hmem, getElem?_scatter_of_notMem hmem, getElem?_scatter_of_notMem hmem]

end Korith
