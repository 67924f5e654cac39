import Mathlib.Data.List.DropRight
import Mathlib.Data.List.Forall2

/-!
# Lists and dictionaries of Python

Slices and subscripts count negative positions from the end. A dictionary is a list of its items in the order in which
the keys came in. A comprehension whose body may raise is `mapM` over `Option`. Sorting is stable, and tuples are
compared from the left. A deque with a bound forgets from the left.
-/

namespace Korith

variable {α β κ ν : Type} {n : Nat} {l xs : List α} {ys : List β} {f : α → Option β} {key : α → List Int}

def pyTake (n : Int) (l : List α) : List α := l.take (if n < 0 then l.length + n else n).toNat

def pyGet (l : List α) (i : Int) : Option α :=
  if 0 ≤ i then l[i.toNat]? else if -l.length ≤ i then l[(l.length + i).toNat]? else none

theorem length_pyTake : (pyTake (n : Int) l).length = min n l.length := by
  have hn : ¬ (n : Int) < 0 := by omega
  rw [pyTake, if_neg hn, Int.toNat_natCast, List.length_take]

theorem pyGet_natCast : pyGet l (n : Int) = l[n]? := by
  rw [pyGet, if_pos (by omega), Int.toNat_natCast]

theorem forall₂_of_mapM (h : xs.mapM f = some ys) : List.Forall₂ (fun x y => f x = some y) xs ys := by
  induction xs generalizing ys with
  | nil =>
    obtain rfl : [] = ys := Option.some.inj h
    exact .nil
  | cons x xs ih =>
    rw [List.mapM_cons] at h
    obtain ⟨y, hy, h⟩ := Option.bind_eq_some_iff.1 h
    obtain ⟨zs, hzs, h⟩ := Option.bind_eq_some_iff.1 h
    obtain rfl : y :: zs = ys := Option.some.inj h
    exact .cons hy (ih hzs)

theorem exists_of_mapM_eq_none (h : xs.mapM f = none) : ∃ x ∈ xs, f x = none := by
  induction xs with
  | nil => cases h
  | cons x xs ih =>
    cases hx : f x with
    | none => exact ⟨x, List.mem_cons_self, hx⟩
    | some y =>
      cases hxs : xs.mapM f with
      | none =>
        obtain ⟨z, hz, hnone⟩ := ih hxs
        exact ⟨z, List.mem_cons_of_mem _ hz, hnone⟩
      | some ys =>
        rw [List.mapM_cons, hx, hxs] at h
        cases h

theorem getElem?_of_mapM {i : Nat} {x : α} (h : xs.mapM f = some ys)
    (hx : xs[i]? = some x) : ∃ y, f x = some y ∧ ys[i]? = some y := by
  have hall := forall₂_of_mapM h
  obtain ⟨hlt, rfl⟩ := List.getElem?_eq_some_iff.1 hx
  have hlt' : i < ys.length := hall.length_eq ▸ hlt
  exact ⟨ys[i], hall.get hlt hlt', List.getElem?_eq_getElem hlt'⟩

theorem getElem?_mapM_eq_bind {i : Nat} (h : xs.mapM f = some ys) : ys[i]? = (xs[i]?).bind f := by
  cases hx : xs[i]? with
  | none =>
    rw [List.getElem?_eq_none_iff, (forall₂_of_mapM h).length_eq] at hx
    exact List.getElem?_eq_none hx
  | some x =>
    obtain ⟨y, hy, hys⟩ := getElem?_of_mapM h hx
    rw [hys, Option.bind_some, hy]

/-! ### Sorting -/

def tupleLt : List Int → List Int → Bool
  | _, [] => false
  | [], _ :: _ => true
  | a :: as, b :: bs => decide (a < b) || (a == b && tupleLt as bs)

def sortedHead (key : α → List Int) : List α → Option α
  | [] => none
  | x :: xs =>
    match sortedHead key xs with
    | none => some x
    | some y => if tupleLt (key y) (key x) then some y else some x

theorem sortedHead_eq_none : sortedHead key l = none ↔ l = [] := by
  cases l with
  | nil => exact iff_of_true rfl rfl
  | cons x xs =>
    refine iff_of_false ?_ (List.cons_ne_nil x xs)
    rw [sortedHead]
    split
    · exact Option.some_ne_none x
    · split <;> exact Option.some_ne_none _

theorem mem_of_sortedHead {x : α} (h : sortedHead key l = some x) : x ∈ l := by
  induction l generalizing x with
  | nil => cases h
  | cons y ys ih =>
    rw [sortedHead] at h
    split at h
    · exact Option.some.inj h ▸ List.mem_cons_self
    · rename_i z hz
      split_ifs at h <;> cases h
      · exact List.mem_cons_of_mem _ (ih hz)
      · exact List.mem_cons_self

/-! ### Functions that raise -/

theorem bind_eq_ok {ε : Type} {x : Except ε α} {f : α → Except ε β} {b : β} :
    (x >>= f) = .ok b ↔ ∃ a, x = .ok a ∧ f a = .ok b := by
  cases x with
  | error e => simp [bind, Except.bind]
  | ok a => simp [bind, Except.bind]

def raiseIf {ε : Type} (c : Bool) (e : ε) : Except ε Unit := if c then .error e else .ok ()

theorem raiseIf_eq_ok {ε : Type} {c : Bool} {e : ε} {u : Unit} : raiseIf c e = .ok u ↔ c = false := by
  cases c <;> simp [raiseIf]

/-! ### Deques -/

def dequeAppend (n : Nat) (d : List α) (a : α) : List α := (d ++ [a]).rtake n

theorem dequeAppend_rtake {a : α} : dequeAppend n (l.rtake n) a = (l ++ [a]).rtake n := by
  cases n with
  | zero => rw [dequeAppend, List.rtake_zero, List.rtake_zero]
  | succ n =>
    rw [dequeAppend, List.rtake_concat_succ, List.rtake_concat_succ]
    congr 1
    simp only [List.rtake, List.length_drop, List.drop_drop]
    congr 1
    omega

/-! ### Dictionaries -/

variable [DecidableEq κ]

def dictSet (k : κ) (v : ν) : List (κ × ν) → List (κ × ν)
  | [] => [(k, v)]
  | (k', v') :: d => if k' = k then (k, v) :: d else (k', v') :: dictSet k v d

theorem dictSet_of_notMem {k : κ} {v : ν} {d : List (κ × ν)} (h : k ∉ d.map Prod.fst) :
    dictSet k v d = d ++ [(k, v)] := by
  induction d with
  | nil => rfl
  | cons x d ih =>
    rw [List.map_cons, List.mem_cons, not_or] at h
    rw [dictSet, if_neg (Ne.symm h.1), ih h.2, List.cons_append]

end Korith
