import Mathlib.Data.List.Sort
import Mathlib.Data.List.Range

/-!
# First-fit allocation of spans from a free list

`allocSpan` sorts the numbers of the free blocks and takes the first run of consecutive ones that is long enough; a
span is given back by appending its numbers. Nothing is lost or doubled: the span and the list that is left are a
permutation of the list.
-/

namespace Korith

def span (start n : Nat) : List Nat := List.range' start n

/-- The length of the run that ends with `bid`, behind a block `prev` with which a run of `runLen` blocks ends. -/
def extendRun (prev : Option Nat) (runLen bid : Nat) : Nat :=
  match prev with
  | none => 1
  | some p => if bid = p + 1 then runLen + 1 else 1

/-- The position of the last block of the first run of length `n`; the scan stands at position `i`. -/
def findRun (n : Nat) : Nat → Option Nat → Nat → List Nat → Option Nat
  | _, _, _, [] => none
  | i, prev, runLen, bid :: rest =>
    if extendRun prev runLen bid = n then some i
    else findRun n (i + 1) (some bid) (extendRun prev runLen bid) rest

/-- The first block of a span of `n` blocks, and the free list that is left. -/
def allocSpan (free : List Nat) (n : Nat) : Option Nat × List Nat :=
  if free.length < n then (none, free)
  else
    let sorted := free.insertionSort (· ≤ ·)
    match findRun n 0 none 0 sorted with
    | none => (none, sorted)
    | some i => (sorted[i + 1 - n]?, sorted.take (i + 1 - n) ++ sorted.drop (i + 1))

variable {n i runLen b : Nat} {prev : Option Nat} {free free' pre rest : List Nat} {start : Nat}

theorem mem_span {x : Nat} : x ∈ span start n ↔ start ≤ x ∧ x < start + n := by
  rw [span, List.mem_range'_1]

theorem count_span {x : Nat} : (span start n).count x = if start ≤ x ∧ x < start + n then 1 else 0 := by
  split_ifs with h
  · exact List.count_eq_one_of_mem List.nodup_range' (mem_span.2 h)
  · exact List.count_eq_zero_of_not_mem fun hmem => h (mem_span.1 hmem)

/-- `pre` ends with a run of `runLen` blocks, the last of which is `prev`. -/
def EndsWith (pre : List Nat) (prev : Option Nat) (runLen : Nat) : Prop :=
  ∃ before start, pre = before ++ span start runLen ∧
    (prev = none ∧ runLen = 0 ∨ prev = some (start + runLen - 1) ∧ 0 < runLen)

theorem EndsWith.extend (h : EndsWith pre prev runLen) (bid : Nat) :
    EndsWith (pre ++ [bid]) (some bid) (extendRun prev runLen bid) := by
  obtain ⟨before, start, rfl, hprev⟩ := h
  have hnew : EndsWith (before ++ span start runLen ++ [bid]) (some bid) 1 :=
    ⟨before ++ span start runLen, bid, rfl, .inr ⟨rfl, Nat.one_pos⟩⟩
  rcases hprev with ⟨rfl, -⟩ | ⟨rfl, hpos⟩
  · exact hnew
  · unfold extendRun
    dsimp only
    split_ifs with hnext
    · refine ⟨before, start, ?_, .inr ⟨?_, Nat.succ_pos _⟩⟩
      · rw [List.append_assoc, span, span, List.range'_concat, hnext]
        congr 3
        omega
      · rw [hnext]
        congr 1
        omega
    · exact hnew

theorem endsWith_nil : EndsWith [] none 0 := ⟨[], 0, rfl, .inl ⟨rfl, rfl⟩⟩

theorem findRun_eq_some (hpre : EndsWith pre prev runLen) (h : findRun n pre.length prev runLen rest = some i) :
    ∃ before start after, pre ++ rest = before ++ span start n ++ after ∧ before.length + n = i + 1 := by
  induction rest generalizing pre prev runLen with
  | nil => cases h
  | cons bid rest ih =>
    have hext := hpre.extend bid
    have happ : pre ++ bid :: rest = pre ++ [bid] ++ rest := by simp
    rw [findRun] at h
    split_ifs at h with hn
    · cases h
      obtain ⟨before, start, heq, -⟩ := hext
      rw [hn] at heq
      refine ⟨before, start, rest, by rw [happ, heq], ?_⟩
      have hlen := congrArg List.length heq
      simp only [List.length_append, List.length_singleton, span, List.length_range'] at hlen
      omega
    · rw [happ]
      exact ih hext (by simpa using h)

theorem findRun_split {sorted : List Nat} (hn : 0 < n) (h : findRun n 0 none 0 sorted = some i) :
    ∃ start, sorted[i + 1 - n]? = some start ∧
      (span start n ++ (sorted.take (i + 1 - n) ++ sorted.drop (i + 1))).Perm sorted := by
  obtain ⟨before, start, after, heq, hlen⟩ := findRun_eq_some endsWith_nil h
  rw [List.nil_append] at heq
  subst heq
  have hpos : i + 1 - n = before.length := by omega
  have hspan : (before ++ span start n).length = i + 1 := by
    rw [List.length_append, span, List.length_range', hlen]
  have htake : (before ++ span start n ++ after).take before.length = before := by
    rw [List.append_assoc, List.take_left]
  refine ⟨start, ?_, ?_⟩
  · rw [hpos, List.append_assoc, List.getElem?_append_right (Nat.le_refl _), Nat.sub_self,
      List.getElem?_append_left (by rw [span, List.length_range']; exact hn), span, List.getElem?_range' hn]
    simp
  · rw [hpos, htake, List.drop_left' hspan, ← List.append_assoc]
    exact List.perm_append_comm.append_right after

theorem allocSpan_some (hn : 0 < n) (h : allocSpan free n = (some b, free')) : (span b n ++ free').Perm free := by
  unfold allocSpan at h
  split_ifs at h
  · cases h
  · dsimp only at h
    split at h
    · cases h
    · next i hfind =>
      obtain ⟨start, hstart, hperm⟩ := findRun_split hn hfind
      obtain ⟨hb, rfl⟩ := Prod.mk.inj h
      cases hstart.symm.trans hb
      exact hperm.trans (List.perm_insertionSort (· ≤ ·) free)

theorem allocSpan_none (hn : 0 < n) (h : allocSpan free n = (none, free')) : free'.Perm free := by
  unfold allocSpan at h
  split_ifs at h
  · exact (Prod.mk.inj h).2 ▸ List.Perm.refl _
  · dsimp only at h
    split at h
    · exact (Prod.mk.inj h).2 ▸ List.perm_insertionSort (· ≤ ·) free
    · next i hfind =>
      obtain ⟨start, hstart, -⟩ := findRun_split hn hfind
      cases hstart.symm.trans (Prod.mk.inj h).1

/-! ### One run -/

theorem findRun_span {k p : Nat} (hlt : runLen < n) (hle : n ≤ runLen + k) :
    (findRun n i (some p) runLen (span (p + 1) k)).isSome := by
  induction k generalizing i p runLen with
  | zero => omega
  | succ k ih =>
    have hext : extendRun (some p) runLen (p + 1) = runLen + 1 := if_pos rfl
    rw [span, List.range'_succ, findRun, hext]
    split_ifs with hn
    · rfl
    · exact ih (by omega) (by omega)

theorem allocSpan_of_perm {m : Nat} (hperm : free.Perm (span 0 m)) (hn : 0 < n) (hle : n ≤ m) :
    ∃ start free', allocSpan free n = (some start, free') := by
  have hlen : free.length = m := by rw [hperm.length_eq, span, List.length_range']
  have hsorted : free.insertionSort (· ≤ ·) = span 0 m :=
    ((List.perm_insertionSort (· ≤ ·) free).trans hperm).eq_of_pairwise'
      (List.pairwise_insertionSort (· ≤ ·) free) List.pairwise_le_range'
  obtain ⟨k, rfl⟩ : ∃ k, m = k + 1 := ⟨m - 1, by omega⟩
  obtain ⟨i, hi⟩ : ∃ i, findRun n 0 none 0 (span 0 (k + 1)) = some i := by
    have hext : extendRun none 0 0 = 1 := rfl
    rw [span, List.range'_succ, findRun, hext]
    split_ifs with h
    · exact ⟨0, rfl⟩
    · exact Option.isSome_iff_exists.1 (findRun_span (by omega) (by omega))
  obtain ⟨start, hstart, -⟩ := findRun_split hn hi
  refine ⟨start, (span 0 (k + 1)).take (i + 1 - n) ++ (span 0 (k + 1)).drop (i + 1), ?_⟩
  rw [allocSpan, if_neg (by omega), hsorted]
  dsimp only
  rw [hi]
  dsimp only
  rw [hstart]

end Korith
