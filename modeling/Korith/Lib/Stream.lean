import Mathlib

/-!
# Queues by name, and logs that a group reads

`Fifo` is a family of queues. A reader has a list of names, and takes the head of the first of them that is not empty.
One element is followed through a run, by its key: it is absent, or it is in one queue, once.

A `Stream` is a log to which entries are only added. The readers of a group share a cursor: each entry is handed to
one of them, and is pending until it is acknowledged. For its readers a stream is the queue of the entries behind the
cursor.
-/

set_option linter.unusedSectionVars false

namespace Korith

/-! ### Queues -/

namespace Fifo

variable {κ α J : Type} [DecidableEq κ] [DecidableEq J] {key : α → J} {q q' : κ → List α} {k k' : κ} {a b : α} {j : J}
  {names : List κ} {rest : List α}

def push (k : κ) (a : α) (q : κ → List α) : κ → List α := Function.update q k (q k ++ [a])

def pop : List κ → (κ → List α) → Option (κ × α × (κ → List α))
  | [], _ => none
  | k :: names, q =>
    match q k with
    | [] => pop names q
    | a :: rest => some (k, a, Function.update q k rest)

variable (h : pop names q = some (k, a, q'))

include h

theorem pop_eq_some : k ∈ names ∧ ∃ rest, q k = a :: rest ∧ q' = Function.update q k rest := by
  induction names with
  | nil => cases h
  | cons k₀ names ih =>
    rw [pop] at h
    split at h
    · obtain ⟨hk, hrest⟩ := ih h
      exact ⟨List.mem_cons_of_mem _ hk, hrest⟩
    · rename_i a₀ rest hq
      obtain ⟨rfl, rfl, rfl⟩ : k₀ = k ∧ a₀ = a ∧ Function.update q k₀ rest = q' := by
        simpa only [Option.some.injEq, Prod.mk.injEq] using h
      exact ⟨List.mem_cons_self, rest, hq, rfl⟩

omit h in
theorem exists_pop (hk : k ∈ names) (hq : q k ≠ []) : ∃ k' a q', pop names q = some (k', a, q') := by
  induction names with
  | nil => cases hk
  | cons k₀ names ih =>
    rw [pop]
    split
    · rename_i hempty
      rcases List.mem_cons.1 hk with rfl | hk
      · exact absurd hempty hq
      · exact ih hk
    · exact ⟨_, _, _, rfl⟩

omit h in
theorem mem_push (h : b ∈ push k a q k') : (k' = k ∧ b = a) ∨ b ∈ q k' := by
  rw [push, Function.update_apply] at h
  split_ifs at h with hk
  · rcases List.mem_append.1 h with h | h
    · exact .inr (hk ▸ h)
    · exact .inl ⟨hk, List.mem_singleton.1 h⟩
  · exact .inr h

theorem head_mem : a ∈ q k := by
  obtain ⟨-, rest, hq, -⟩ := pop_eq_some h
  exact hq ▸ List.mem_cons_self

theorem mem_of_pop (hb : b ∈ q' k') : b ∈ q k' := by
  obtain ⟨-, rest, hq, rfl⟩ := pop_eq_some h
  rw [Function.update_apply] at hb
  split_ifs at hb with hk
  · exact hk ▸ hq ▸ List.mem_cons_of_mem _ hb
  · exact hb

def size (names : List κ) (q : κ → List α) : Nat := (names.map fun k => (q k).length).sum

theorem size_pop : size names q' < size names q := by
  obtain ⟨hk, rest, hq, rfl⟩ := pop_eq_some h
  refine List.sum_lt_sum _ _ (fun k' _ => ?_) ⟨k, hk, ?_⟩
  · rw [Function.update_apply]
    split_ifs with heq
    · subst heq
      rw [hq, List.length_cons]
      omega
    · exact le_rfl
  · rw [Function.update_self, hq, List.length_cons]
    omega

omit h

/-! ### One element -/

def Absent (key : α → J) (j : J) (q : κ → List α) : Prop := ∀ k, ∀ a ∈ q k, key a ≠ j

/-- The queue `k` has `a` once, and no queue has another element with its key. -/
def Single (key : α → J) (j : J) (k : κ) (a : α) (q : κ → List α) : Prop :=
  ∀ k', (q k').filter (fun b => decide (key b = j)) = if k' = k then [a] else []

theorem absent_iff : Absent key j q ↔ ∀ k, (q k).filter (fun b => decide (key b = j)) = [] := by
  simp [Absent, List.filter_eq_nil_iff]

theorem Absent.push_other (h : Absent key j q) (ha : key a ≠ j) : Absent key j (push k a q) := by
  intro k' b hb
  rcases mem_push hb with ⟨-, rfl⟩ | hb
  · exact ha
  · exact h k' b hb

theorem Absent.push (h : Absent key j q) (ha : key a = j) : Single key j k a (push k a q) := by
  intro k'
  rw [Fifo.push, Function.update_apply]
  split_ifs with heq
  · rw [List.filter_append, absent_iff.1 h, List.nil_append, List.filter_singleton, decide_eq_true ha]
    rfl
  · exact absent_iff.1 h k'

theorem Single.push_other (h : Single key j k a q) (hb : key b ≠ j) : Single key j k a (push k' b q) := by
  intro k₁
  rw [push, Function.update_apply]
  split_ifs with heq hk hk
  · rw [List.filter_append, h k', List.filter_singleton, decide_eq_false hb]
    simp [← heq, hk]
  · rw [List.filter_append, h k', List.filter_singleton, decide_eq_false hb]
    simp [← heq, hk]
  · rw [h k₁, if_pos hk]
  · rw [h k₁, if_neg hk]

theorem Single.ne_nil (h : Single key j k a q) : q k ≠ [] := by
  intro hempty
  have hfilter := h k
  rw [hempty, if_pos rfl] at hfilter
  cases hfilter

theorem Absent.pop (h : Absent key j q) (hpop : pop names q = some (k, a, q')) : key a ≠ j ∧ Absent key j q' := by
  exact ⟨h k a (head_mem hpop), fun k' b hb => h k' b (mem_of_pop hpop hb)⟩

theorem Single.pop (h : Single key j k a q) (hpop : pop names q = some (k', b, q')) :
    (k' = k ∧ b = a ∧ Absent key j q') ∨ (key b ≠ j ∧ Single key j k a q') := by
  obtain ⟨-, rest, hq, rfl⟩ := pop_eq_some hpop
  have hhead := h k'
  rw [hq, List.filter_cons] at hhead
  by_cases hb : key b = j
  · rw [if_pos (decide_eq_true hb)] at hhead
    split_ifs at hhead with hk
    obtain ⟨rfl, hrest⟩ := List.cons.inj hhead
    refine .inl ⟨hk, rfl, absent_iff.2 fun k₁ => ?_⟩
    rw [Function.update_apply]
    split_ifs with heq
    · exact hrest
    · rw [h k₁, if_neg (fun h₁ => heq (h₁.trans hk.symm))]
  · rw [if_neg (by simpa using hb)] at hhead
    refine .inr ⟨hb, fun k₁ => ?_⟩
    rw [Function.update_apply]
    split_ifs with heq hk hk
    · rw [hhead, if_pos (heq ▸ hk)]
    · rw [hhead, if_neg (heq ▸ hk)]
    · rw [h k₁, if_pos hk]
    · rw [h k₁, if_neg hk]

end Fifo

/-! ### Streams -/

structure Stream (μ : Type) where
  entries : List μ
  /-- how many entries the group has been handed -/
  cursor : Nat
  /-- which of them are not acknowledged -/
  pending : List Nat
  inRange : cursor ≤ entries.length

namespace Stream

variable {κ μ : Type} [DecidableEq κ] {s : Stream μ} {m : μ} {i : Nat}

def empty : Stream μ := ⟨[], 0, [], le_rfl⟩

def add (m : μ) (s : Stream μ) : Stream μ :=
  { s with entries := s.entries ++ [m], inRange := by rw [List.length_append]; have := s.inRange; omega }

def ack (i : Nat) (s : Stream μ) : Stream μ := { s with pending := s.pending.erase i }

def readNew (s : Stream μ) : Option (Nat × μ × Stream μ) :=
  if h : s.cursor < s.entries.length then
    some (s.cursor, s.entries[s.cursor],
      { s with cursor := s.cursor + 1, pending := s.cursor :: s.pending, inRange := h })
  else none

def waiting (s : Stream μ) : List μ := s.entries.drop s.cursor

@[simp] theorem waiting_ack : (s.ack i).waiting = s.waiting := rfl

theorem waiting_add : (s.add m).waiting = s.waiting ++ [m] := List.drop_append_of_le_length s.inRange

theorem readNew_cases : (s.readNew = none ∧ s.waiting = []) ∨
      ∃ i m s', s.readNew = some (i, m, s') ∧ s.waiting = m :: s'.waiting := by
  by_cases h : s.cursor < s.entries.length
  · exact .inr ⟨_, _, _, dif_pos h, List.drop_eq_getElem_cons h⟩
  · exact .inl ⟨dif_neg h, List.drop_eq_nil_of_le (not_lt.1 h)⟩

def readFirst : List κ → (κ → Stream μ) → Option (κ × Nat × μ × (κ → Stream μ))
  | [], _ => none
  | k :: names, s =>
    match (s k).readNew with
    | none => readFirst names s
    | some (i, m, s') => some (k, i, m, Function.update s k s')

theorem waiting_update {s : κ → Stream μ} {k : κ} {s' : Stream μ} :
    (fun k' => (Function.update s k s' k').waiting) = Function.update (fun k' => (s k').waiting) k s'.waiting := by
  funext k'
  rw [Function.update_apply, Function.update_apply]
  split_ifs <;> rfl

theorem pop_waiting (names : List κ) (s : κ → Stream μ) : Fifo.pop names (fun k => (s k).waiting) =
      (readFirst names s).map fun r => (r.1, r.2.2.1, fun k => (r.2.2.2 k).waiting) := by
  induction names with
  | nil => rfl
  | cons k names ih =>
    rw [Fifo.pop, readFirst]
    rcases readNew_cases (s := s k) with ⟨hread, hwaiting⟩ | ⟨i, m, s', hread, hwaiting⟩
    · simp only [hread, hwaiting]
      exact ih
    · simp [hread, hwaiting, waiting_update]

theorem waiting_push {s : κ → Stream μ} {k : κ} :
    (fun k' => (Function.update s k ((s k).add m) k').waiting) = Fifo.push k m fun k' => (s k').waiting := by
  rw [waiting_update, waiting_add, Fifo.push]

end Stream

end Korith
