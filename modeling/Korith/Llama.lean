import Mathlib

/-!
# The part of llama.cpp the decoders rely on

A context holds a memory (for each sequence the cells at each position) and the output buffer of its last decode. A
decode adds cells and replaces none: one over a position that has a cell leaves both, and later tokens attend to both.
A model is a function from the tokens of the cells that are attended to, to logits rows, and `llama_decode` writes at
batch index `i` the row of that token. `Holds` states that a sequence has the tokens of a list and no other cell.
-/

namespace Korith

abbrev Token := Nat

/-- The tokens of the cells of each sequence at each position; beyond `hi` no sequence has one. -/
structure Memory where
  cells : Nat → Nat → List Token
  hi : Nat
  bound : ∀ q p, hi ≤ p → cells q p = []

namespace Memory

def empty : Memory := ⟨fun _ _ => [], 0, fun _ _ _ => rfl⟩

/-- Is `p` in the range `[p0, p1)`? A negative `p1` means no upper end. -/
def inRange (p0 p1 : Int) (p : Nat) : Bool := decide (p0 ≤ p) && (decide (p1 < 0) || decide ((p : Int) < p1))

def add (m : Memory) (q p : Nat) (t : Token) : Memory where
  cells q' p' := if q' = q ∧ p' = p then m.cells q' p' ++ [t] else m.cells q' p'
  hi := max m.hi (p + 1)
  bound q' p' h := by
    have : p' ≠ p := by omega
    simp [this, m.bound q' p' (by omega)]

def place (m : Memory) (q : Nat) : Nat → List Token → Memory
  | _, [] => m
  | start, t :: ts => (m.add q start t).place q (start + 1) ts

/-- `llama_memory_seq_rm` for a sequence id that is not negative. -/
def seqRm (m : Memory) (q : Nat) (p0 p1 : Int) : Memory where
  cells q' p := if q' = q ∧ inRange p0 p1 p then [] else m.cells q' p
  hi := m.hi
  bound q' p h := by simp [m.bound q' p h]

/-- `llama_memory_seq_cp` onto positions where the target shares no cell yet. -/
def seqCp (m : Memory) (src dst : Nat) (p0 p1 : Int) : Memory where
  cells q p := if q = dst ∧ inRange p0 p1 p then m.cells dst p ++ m.cells src p else m.cells q p
  hi := m.hi
  bound q p h := by simp [m.bound _ p h]

def posMaxBelow (m : Memory) (q : Nat) : Nat → Int
  | 0 => -1
  | n + 1 => if (m.cells q n).isEmpty then m.posMaxBelow q n else n

def seqPosMax (m : Memory) (q : Nat) : Int := m.posMaxBelow q m.hi

def tokens (m : Memory) (q p : Nat) : List Token := (List.range (p + 1)).flatMap (m.cells q)

/-- Sequence `q` holds exactly the tokens `xs`, at positions 0, 1, ... -/
def Holds (m : Memory) (q : Nat) (xs : List Token) : Prop := ∀ p, m.cells q p = xs[p]?.toList

variable {m : Memory} {q q' p : Nat} {t : Token} {xs ts ys : List Token} {start : Nat} {p0 p1 : Int} {n dst src : Nat}

theorem holds_empty (q : Nat) : empty.Holds q [] := fun p => by simp [empty]

theorem Holds.unique (hx : m.Holds q xs) (hy : m.Holds q ys) : xs = ys :=
  List.ext_getElem? fun i => by
    have hcells := (hx i).symm.trans (hy i)
    cases hxi : xs[i]? <;> cases hyi : ys[i]? <;> simp_all

theorem Holds.add (h : m.Holds q xs) : (m.add q xs.length t).Holds q (xs ++ [t]) := by
  intro p
  simp only [Memory.add, List.getElem?_append, true_and, h p]
  split_ifs with h₁ h₂ h₂
  · omega
  · simp [h₁]
  · rfl
  · rw [List.getElem?_eq_none (by omega), List.getElem?_eq_none (by simp; omega)]

theorem Holds.add_ne (h : m.Holds q' xs) (hne : q' ≠ q) : (m.add q p t).Holds q' xs := fun p' => by
  simp [Memory.add, hne, h p']

theorem Holds.place (h : m.Holds q xs) : (m.place q xs.length ts).Holds q (xs ++ ts) := by
  induction ts generalizing m xs with
  | nil => simpa [Memory.place] using h
  | cons t ts ih => simpa [Memory.place] using ih (h.add (t := t))

theorem place_append : (m.place q start xs).place q (start + xs.length) ys = m.place q start (xs ++ ys) := by
  induction xs generalizing m start with
  | nil => rfl
  | cons x xs ih =>
    rw [List.length_cons, Nat.add_comm xs.length 1, ← Nat.add_assoc]
    exact ih

theorem Holds.place_ne (h : m.Holds q' xs) (hne : q' ≠ q) : (m.place q start ts).Holds q' xs := by
  induction ts generalizing m start with
  | nil => exact h
  | cons t ts ih => exact ih (h.add_ne hne)

theorem Holds.seqRm_ne (h : m.Holds q' xs) (hne : q' ≠ q) :
    (m.seqRm q p0 p1).Holds q' xs := fun p => by simp [Memory.seqRm, hne, h p]

theorem Holds.seqRm (h : m.Holds q xs) (h0 : p0 = n)
    (h1 : p1 < 0 ∨ (xs.length : Int) ≤ p1) : (m.seqRm q p0 p1).Holds q (xs.take n) := by
  intro p
  simp only [Memory.seqRm, inRange, true_and, h p, List.getElem?_take, Bool.and_eq_true,
    Bool.or_eq_true, decide_eq_true_eq]
  subst h0
  by_cases hp : p < n
  · rw [if_neg (by omega), if_pos hp]
  · rw [if_neg hp]
    split_ifs with hr
    · rfl
    · rw [List.getElem?_eq_none (by omega)]

theorem Holds.seqRm_nil (h : m.Holds q []) : m.seqRm q p0 p1 = m := by
  have hcells : (m.seqRm q p0 p1).cells = m.cells := by
    funext q' p
    show (if q' = q ∧ _ then [] else _) = _
    split_ifs with hq
    · rw [hq.1, h p]
      rfl
    · rfl
  cases m
  simpa only [Memory.seqRm, Memory.mk.injEq, and_true] using hcells

theorem Holds.seqRm_all (h0 : p0 ≤ 0) (h1 : p1 < 0) : (m.seqRm q p0 p1).Holds q [] := by
  intro p
  have : inRange p0 p1 p = true := by simp [inRange, h1]; omega
  simp [Memory.seqRm, this]

theorem Holds.seqCp (hs : m.Holds src xs) (hd : m.Holds dst [])
    (h0 : p0 ≤ 0) (h1 : p1 < 0 ∨ (xs.length : Int) ≤ p1) : (m.seqCp src dst p0 p1).Holds dst xs := by
  intro p
  simp only [Memory.seqCp, hs p, hd p, List.getElem?_nil, Option.toList_none, List.nil_append]
  split_ifs with hr
  · rfl
  · simp only [inRange, true_and, Bool.and_eq_true, Bool.or_eq_true, decide_eq_true_eq] at hr
    rw [List.getElem?_eq_none (by omega), Option.toList_none]

theorem Holds.seqCp_extend (hs : m.Holds src (xs ++ ts))
    (hd : m.Holds dst xs) (h0 : p0 = xs.length) (h1 : p1 = xs.length + n) :
    (m.seqCp src dst p0 p1).Holds dst (xs ++ ts.take n) := by
  intro p
  subst h0 h1
  simp only [Memory.seqCp, inRange, hs p, hd p, List.getElem?_append, List.getElem?_take, true_and,
    Bool.and_eq_true, Bool.or_eq_true, decide_eq_true_eq]
  by_cases hp : p < xs.length
  · rw [if_neg (by omega), if_pos hp]
  · have hx : xs[p]? = none := List.getElem?_eq_none (by omega)
    rw [if_neg hp, if_neg hp, hx, Option.toList_none, List.nil_append]
    by_cases hn : p - xs.length < n
    · rw [if_pos (by omega), if_pos hn]
    · rw [if_neg (by omega), if_neg hn, Option.toList_none]

variable (h : m.Holds q xs)

include h

theorem Holds.seqCp_ne (hne : q ≠ dst) :
    (m.seqCp src dst p0 p1).Holds q xs := fun p => by simp [Memory.seqCp, hne, h p]

theorem Holds.length_le : xs.length ≤ m.hi := by
  have := m.bound q m.hi (Nat.le_refl _)
  rwa [h, Option.toList_eq_nil_iff, List.getElem?_eq_none_iff] at this

theorem Holds.posMaxBelow (hn : xs.length ≤ n) : m.posMaxBelow q n = (xs.length : Int) - 1 := by
  induction n with
  | zero => simp [Memory.posMaxBelow, Nat.le_zero.mp hn]
  | succ n ih =>
    simp only [Memory.posMaxBelow, h n, List.isEmpty_iff, Option.toList_eq_nil_iff, List.getElem?_eq_none_iff]
    split_ifs with hle
    · exact ih hle
    · omega

theorem Holds.seqPosMax : m.seqPosMax q = (xs.length : Int) - 1 :=
  h.posMaxBelow h.length_le

theorem Holds.tokens : m.tokens q p = xs.take (p + 1) := by
  have htake : ∀ n, (List.range n).flatMap (m.cells q) = xs.take n := by
    intro n
    induction n with
    | zero => simp
    | succ n ih => simp [List.range_succ, ih, List.take_add_one, h n]
  exact htake (p + 1)

omit h

theorem place_cells (m : Memory) (q start : Nat) (ts : List Token) (p : Nat) : (m.place q start ts).cells q p =
    m.cells q p ++ if start ≤ p then ts[p - start]?.toList else [] := by
  induction ts generalizing m start with
  | nil => simp [Memory.place]
  | cons t ts ih =>
    have hadd : (m.add q start t).cells q p = m.cells q p ++ if p = start then [t] else [] := by
      simp [Memory.add, apply_ite (m.cells q p ++ ·)]
    rw [Memory.place, ih, hadd]
    rcases Nat.lt_trichotomy p start with hp | rfl | hp
    · rw [if_neg (by omega), if_neg (by omega), if_neg (by omega), List.append_nil]
    · simp
    · obtain ⟨i, rfl⟩ : ∃ i, p = start + (i + 1) := ⟨p - start - 1, by omega⟩
      rw [if_neg (by omega), if_pos (by omega), if_pos (by omega), Nat.add_sub_cancel_left, List.getElem?_cons_succ,
        List.append_nil, Nat.add_comm i 1, ← Nat.add_assoc, Nat.add_sub_cancel_left]

end Memory

structure Ctx (L : Type) where
  mem : Memory
  out : List (List L)

namespace Ctx

variable {L : Type} {model : List Token → List L} {c : Ctx L} {q : Nat} {xs ts : List Token} {all : Bool}

/-- `llama_decode` of a batch of one sequence at consecutive positions. `all` asks for the logits of
every token of the batch, otherwise only the last one gives a row. -/
def decode (model : List Token → List L) (c : Ctx L) (q start : Nat) (ts : List Token) (all : Bool) : Ctx L :=
  let mem := c.mem.place q start ts
  let rows := (List.range ts.length).map fun i => model (mem.tokens q (start + i))
  { mem, out := if all then rows else rows.drop (ts.length - 1) }

theorem decode_holds (h : c.mem.Holds q xs) : (c.decode model q xs.length ts all).mem.Holds q (xs ++ ts) := h.place

theorem decode_holds_ne {q' : Nat} (h : c.mem.Holds q' xs) (hne : q' ≠ q) :
    (c.decode model q start ts all).mem.Holds q' xs := h.place_ne hne

theorem decode_row (h : c.mem.Holds q xs) {i : Nat} (hi : i < ts.length) :
    (c.decode model q xs.length ts true).out[i]? = some (model (xs ++ ts.take (i + 1))) := by
  have htok : (c.mem.place q xs.length ts).tokens q (xs.length + i) = _ := h.place.tokens
  simp only [decode, if_true, List.getElem?_map, List.getElem?_range hi, Option.map_some, htok]
  rw [Nat.add_assoc, List.take_length_add_append]

theorem decode_out (c : Ctx L) (q start : Nat) (hne : ts ≠ []) : (c.decode model q start ts false).out =
    [model ((c.mem.place q start ts).tokens q (start + ts.length - 1))] := by
  obtain ⟨n, hn⟩ := Nat.exists_eq_succ_of_ne_zero fun h => hne (List.length_eq_zero_iff.mp h)
  simp [decode, hn, List.range_succ]

theorem decode_one_out (h : c.mem.Holds q xs) {t : Token} :
    (c.decode model q xs.length [t] all).out = [model (xs ++ [t])] := by
  have htok : (c.mem.place q xs.length [t]).tokens q xs.length = _ := h.place.tokens
  rw [List.take_of_length_le (by simp)] at htok
  cases all <;> simp [decode, htok]

end Ctx

end Korith
