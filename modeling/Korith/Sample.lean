import Korith.Lib.Greedy
import Korith.Lib.StableSort
import Korith.Llama

/-!
# Greedy samplers

`greedy_sample` of the v2 decoder, and `sample_greedy_from_logits` and `sample_greedy_with_eog_control` of the batch
executor. The last one keeps the four best candidates of the row and only scans the row again when all four are
end-of-generation tokens. All three are `lowestArgmax`, the last one over the tokens that do not end the generation
when it may not sample such a token.

A row is the list of the `n_vocab` logits; a null pointer is `none` and `LLAMA_TOKEN_NULL` is `none`. Logits are
finite, so a slot that still has the initial `-inf` is an empty slot.
-/

namespace Korith

variable {L : Type} [LinearOrder L]

/-! ### The loops -/

/-- `if (v > best) best = v`, over the entries in `p` from index `i` on. -/
def scanBest (p : Nat → Bool) : List L → Nat → Option (Nat × L) → Option (Nat × L)
  | [], _, best => best
  | v :: row, i, best =>
    scanBest p row (i + 1) <|
      if p i then
        match best with
        | none => some (i, v)
        | some (b, bestVal) => if bestVal < v then some (i, v) else some (b, bestVal)
      else best

/-- The loop of a plain sampler, which starts with entry 0 as the best. -/
def greedyScan : List L → Option Token
  | [] => none
  | v :: row => (scanBest (fun _ => true) row 1 (some (0, v))).map (·.1)

def greedySample (logits : Option (List L)) : Option Token := logits.bind greedyScan

def sampleGreedyFromLogits (logits : Option (List L)) : Option Token := logits.bind greedyScan

/-- Put a candidate into a list of at most `k`, behind those that are not smaller. -/
def insertTop : Nat → Nat × L → List (Nat × L) → List (Nat × L)
  | 0, _, _ => []
  | _ + 1, c, [] => [c]
  | k + 1, c, d :: top => if d.2 < c.2 then c :: (d :: top).take k else d :: insertTop k c top

def topScan : List L → Nat → List (Nat × L) → List (Nat × L)
  | [], _, top => top
  | v :: row, i, top => topScan row (i + 1) (insertTop 4 (i, v) top)

variable (isEog : Token → Bool) {p : Nat → Bool} {pre row : List L} {best : Option (Nat × L)} {c : Nat × L}
  {F : List (Nat × L)}

def sampleGreedyWithEogControl (logits : Option (List L)) (allowEog : Bool) : Option Token :=
  logits.bind fun row =>
    if allowEog then sampleGreedyFromLogits (some row)
    else
      match (topScan row 0 []).find? fun c => !isEog c.1 with
      | some c => some c.1
      | none => (scanBest (fun i => !isEog i) row 0 none).map (·.1)

/-! ### The scan -/

def IsBest (p : Nat → Bool) (pre : List L) : Option (Nat × L) → Prop
  | none => ∀ i < pre.length, p i = false
  | some (b, v) => IsLowestArgmax p pre b ∧ pre[b]? = some v

theorem IsLowestArgmax.snoc_of_le {b : Nat} {v : L}
    (h : IsLowestArgmax p pre b) (hv : ∀ hb : b < pre.length, p pre.length = true → v ≤ pre[b]) :
    IsLowestArgmax p (pre ++ [v]) b := by
  have hlt := h.lt
  refine ⟨h.mem, by simp; omega, fun j hj hpj => ?_, fun j hj hpj => ?_⟩
  · rw [List.getElem_append_left hlt]
    rcases Nat.lt_or_ge j pre.length with hj' | hj'
    · rw [List.getElem_append_left hj']; exact h.le j hj' hpj
    · obtain rfl : j = pre.length := by simp at hj; omega
      rw [List.getElem_concat_length rfl]; exact hv hlt hpj
  · rw [List.getElem_append_left hlt, List.getElem_append_left (by omega)]
    exact h.first j hj hpj

theorem isLowestArgmax_last {v : L} (hp : p pre.length = true)
    (hv : ∀ j (h : j < pre.length), p j = true → pre[j] < v) : IsLowestArgmax p (pre ++ [v]) pre.length := by
  refine ⟨hp, by simp, fun j hj hpj => ?_, fun j hj hpj => ?_⟩
  · rw [List.getElem_concat_length (i := pre.length) rfl]
    rcases Nat.lt_or_ge j pre.length with hj' | hj'
    · rw [List.getElem_append_left hj']; exact le_of_lt (hv j hj' hpj)
    · obtain rfl : j = pre.length := by simp at hj; omega
      rw [List.getElem_concat_length rfl]
  · rw [List.getElem_concat_length (i := pre.length) rfl, List.getElem_append_left hj]
    exact hv j hj hpj

theorem scanBest_isBest (h : IsBest p pre best) : IsBest p (pre ++ row) (scanBest p row pre.length best) := by
  induction row generalizing pre best with
  | nil => simpa [scanBest] using h
  | cons v row ih =>
    have hlen : pre.length + 1 = (pre ++ [v]).length := by simp
    rw [List.append_cons]
    show IsBest p _ (scanBest p row (pre.length + 1) _)
    rw [hlen]
    apply ih
    by_cases hp : p pre.length = true
    · rw [if_pos hp]
      match best, h with
      | none, h =>
        refine ⟨isLowestArgmax_last hp fun j hj hpj => ?_, by simp⟩
        exact absurd hpj (by simp [h j hj])
      | some (b, w), ⟨hb, hw⟩ =>
        obtain ⟨hlt, rfl⟩ := List.getElem?_eq_some_iff.mp hw
        dsimp only
        split_ifs with hvw
        · refine ⟨isLowestArgmax_last hp fun j hj hpj => ?_, by simp⟩
          exact lt_of_le_of_lt (hb.le j hj hpj) hvw
        · exact ⟨hb.snoc_of_le fun _ _ => not_lt.mp hvw, by rw [List.getElem?_append_left hlt]; exact hw⟩
    · rw [if_neg hp]
      match best, h with
      | none, h =>
        intro i hi
        rcases Nat.lt_or_ge i pre.length with hi' | hi'
        · exact h i hi'
        · obtain rfl : i = pre.length := by simp at hi; omega
          simpa using hp
      | some (b, w), ⟨hb, hw⟩ =>
        exact ⟨hb.snoc_of_le fun _ h => absurd h hp,
          by rw [List.getElem?_append_left hb.lt]; exact hw⟩

theorem IsBest.eq (h : IsBest p row best) : best.map (·.1) = lowestArgmax p row := by
  match best, h with
  | none, h => exact (lowestArgmax_eq_none h).symm
  | some (b, v), h => exact (lowestArgmax_eq_some_iff.mpr h.1).symm

theorem lowestArgmax_eq_none_iff : lowestArgmax p row = none ↔ ∀ i < row.length, p i = false := by
  refine ⟨fun h => ?_, lowestArgmax_eq_none⟩
  have hnil : IsBest p ([] : List L) none := by simp [IsBest]
  have hscan : IsBest p row (scanBest p row 0 none) := scanBest_isBest hnil
  rw [← hscan.eq, Option.map_eq_none_iff] at h
  rwa [h] at hscan

theorem greedyScan_eq (row : List L) : greedyScan row = lowestArgmax (fun _ => true) row := by
  cases row with
  | nil => exact (lowestArgmax_eq_none (by simp)).symm
  | cons v row =>
    have h : IsBest (fun _ => true) [v] (some (0, v)) := ⟨⟨rfl, by simp, by simp, by simp⟩, rfl⟩
    exact (scanBest_isBest h).eq

/-! ### The four best

The candidates of a row in order of their logits, and among equal ones of their ids, are `ranked`.
The four slots of the sampler are its first four, so the first of them that is allowed is the first
allowed one of the whole order. -/

/-- `a` comes before `b`: a larger logit, or the same and a lower id. -/
def Better (a b : Nat × L) : Prop := b.2 < a.2 ∨ (a.2 = b.2 ∧ a.1 < b.1)

def ranked : List L → Nat → List (Nat × L) → List (Nat × L)
  | [], _, F => F
  | v :: row, i, F => ranked row (i + 1) (F.orderedInsert (fun a b => b.2 < a.2) (i, v))

theorem insertTop_take (k : Nat) (c : Nat × L) (F : List (Nat × L)) :
    insertTop k c (F.take k) = (F.orderedInsert (fun a b => b.2 < a.2) c).take k := by
  induction F generalizing k with
  | nil => cases k <;> simp [insertTop]
  | cons d F ih =>
    cases k with
    | zero => simp [insertTop]
    | succ k =>
      simp only [List.take_succ_cons, insertTop, List.orderedInsert_cons]
      split_ifs with h
      · cases k <;> simp [List.take_take]
      · simp [ih]

theorem topScan_take (row : List L) (i : Nat) (F : List (Nat × L)) :
    topScan row i (F.take 4) = (ranked row i F).take 4 := by
  induction row generalizing i F with
  | nil => rfl
  | cons v row ih => rw [topScan, insertTop_take, ih, ranked]

theorem pairwise_insert_better (h : F.Pairwise Better) (hc : ∀ d ∈ F, d.1 < c.1) :
    (F.orderedInsert (fun a b => b.2 < a.2) c).Pairwise Better := by
  refine pairwise_orderedInsert (fun d _ hlt => ⟨.inl hlt, fun x _ hd => .inl ?_⟩) (fun d hd hlt => ?_) h
  · rcases hd with hb | ⟨hb, -⟩
    · exact lt_trans hb hlt
    · exact hb ▸ hlt
  · rcases lt_or_eq_of_le (not_lt.mp hlt) with hb | hb
    · exact .inl hb
    · exact .inr ⟨hb.symm, hc d hd⟩

structure IsRanking (pre : List L) (F : List (Nat × L)) : Prop where
  mem : ∀ i v, (i, v) ∈ F ↔ pre[i]? = some v
  sorted : F.Pairwise Better

theorem ranked_isRanking (h : IsRanking pre F) : IsRanking (pre ++ row) (ranked row pre.length F) := by
  induction row generalizing pre F with
  | nil => simpa [ranked] using h
  | cons v row ih =>
    have hlen : pre.length + 1 = (pre ++ [v]).length := by simp
    rw [List.append_cons, ranked, hlen]
    have hlt : ∀ d ∈ F, d.1 < pre.length := fun d hd =>
      (List.getElem?_eq_some_iff.mp ((h.mem d.1 d.2).mp hd)).1
    refine ih ⟨fun i w => ?_, pairwise_insert_better h.sorted hlt⟩
    rw [List.mem_orderedInsert, h.mem, List.getElem?_append, Prod.mk.injEq]
    split_ifs with hi
    · exact ⟨fun hor => hor.resolve_left (by omega), .inr⟩
    · rw [List.getElem?_eq_none (Nat.le_of_not_lt hi), List.getElem?_singleton]
      constructor
      · rintro (⟨rfl, rfl⟩ | h)
        · simp
        · cases h
      · intro hw
        split_ifs at hw with h0
        exact .inl ⟨by omega, by simpa using hw.symm⟩

theorem IsRanking.lowestArgmax (h : IsRanking row F) (hf : F.find? (fun d => p d.1) = some c) :
    lowestArgmax p row = some c.1 := by
  obtain ⟨hp, before, after, rfl, hbefore⟩ := List.find?_eq_some_iff_append.mp hf
  obtain ⟨hlt, hc⟩ := List.getElem?_eq_some_iff.mp ((h.mem c.1 c.2).mp (by simp))
  have hbest : ∀ j (hj : j < row.length), p j = true → j = c.1 ∨ Better c (j, row[j]) := by
    intro j hj hpj
    have hmem := (h.mem j row[j]).mpr (by simp [hj])
    rcases List.mem_append.mp hmem with hm | hm
    · exact absurd hpj (by simpa using hbefore _ hm)
    · rcases List.mem_cons.mp hm with rfl | hm
      · exact .inl rfl
      · exact .inr ((List.pairwise_cons.mp (List.pairwise_append.mp h.sorted).2.1).1 _ hm)
  refine lowestArgmax_eq_some_iff.mpr ⟨hp, hlt, fun j hj hpj => ?_, fun j hj hpj => ?_⟩
  · rw [hc]
    rcases hbest j hj hpj with rfl | hb | ⟨hb, -⟩
    · exact le_of_eq hc
    · exact le_of_lt hb
    · exact le_of_eq hb.symm
  · rw [hc]
    rcases hbest j (by omega) hpj with rfl | hb | ⟨-, hb⟩
    · exact absurd hj (Nat.lt_irrefl _)
    · exact hb
    · exact absurd hb (by simp; omega)

/-! ### What the samplers return -/

theorem greedySample_eq (row : List L) : greedySample (some row) = lowestArgmax (fun _ => true) row :=
  greedyScan_eq row

def sampleable (allowEog : Bool) (t : Token) : Bool := allowEog || !isEog t

theorem sampleable_false : sampleable isEog false = fun i => !isEog i :=
  funext fun _ => Bool.false_or _

theorem sampleGreedyWithEogControl_eq (row : List L) (allowEog : Bool) :
    sampleGreedyWithEogControl isEog (some row) allowEog = lowestArgmax (sampleable isEog allowEog) row := by
  cases allowEog with
  | true => exact greedyScan_eq row
  | false =>
    have hrank : IsRanking row (ranked row 0 []) := by
      have h : IsRanking ([] : List L) [] := ⟨by simp, List.Pairwise.nil⟩
      exact ranked_isRanking h
    have htop : topScan row 0 [] = (ranked row 0 []).take 4 := topScan_take row 0 []
    rw [sampleable_false]
    simp only [sampleGreedyWithEogControl, Option.bind_some, Bool.false_eq_true, if_false, htop]
    split
    case h_1 c hc =>
      refine (hrank.lowestArgmax ?_).symm
      rw [← List.take_append_drop 4 (ranked row 0 []), List.find?_append, hc, Option.some_or]
    case h_2 =>
      have h : IsBest (fun i => !isEog i) ([] : List L) none := by simp [IsBest]
      exact (scanBest_isBest h).eq

/-- Without end-of-generation tokens the sampler returns the first of the largest logits of the others, and the null
token exactly if there are no others. -/
theorem suppressed_sample_exact (row : List L) :
    (∀ t, sampleGreedyWithEogControl isEog (some row) false = some t ↔ IsLowestArgmax (fun i => !isEog i) row t) ∧
      (sampleGreedyWithEogControl isEog (some row) false = none ↔ ∀ t < row.length, isEog t = true) := by
  rw [sampleGreedyWithEogControl_eq, sampleable_false]
  refine ⟨fun t => lowestArgmax_eq_some_iff, lowestArgmax_eq_none_iff.trans ?_⟩
  simp only [Bool.not_eq_false']

end Korith
