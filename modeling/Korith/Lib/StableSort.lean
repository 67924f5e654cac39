import Mathlib.Data.List.Sort

/-!
# Stable sorting by selection

`stableSort lt` leaves elements of which none comes before the other in their order. Taking the first of the least
elements out of a list takes the head off its sorted list.
-/

namespace Korith

variable {α : Type} {lt : α → α → Bool} {x : α} {pre post : List α}

def stableSort (lt : α → α → Bool) (xs : List α) : List α := xs.insertionSort fun a b => lt b a = false

theorem perm_stableSort (lt : α → α → Bool) (xs : List α) : (stableSort lt xs).Perm xs := List.perm_insertionSort _ xs

theorem pairwise_orderedInsert {r s : α → α → Prop} [DecidableRel r] {a : α} {xs : List α}
    (hhead : ∀ x ∈ xs, r a x → s a x ∧ ∀ y ∈ xs, s x y → s a y) (htail : ∀ x ∈ xs, ¬r a x → s x a) (h : xs.Pairwise s) :
    (xs.orderedInsert r a).Pairwise s := by
  induction xs with
  | nil => exact List.pairwise_singleton s a
  | cons b xs ih =>
    obtain ⟨hb, hxs⟩ := List.pairwise_cons.1 h
    rw [List.orderedInsert]
    split_ifs with hab
    · obtain ⟨hab, htrans⟩ := hhead b List.mem_cons_self hab
      refine List.pairwise_cons.2 ⟨fun x hx => ?_, h⟩
      rcases List.mem_cons.1 hx with rfl | hx
      · exact hab
      · exact htrans x (List.mem_cons_of_mem _ hx) (hb x hx)
    · have hrest := ih (fun x hx hax => (hhead x (.tail _ hx) hax).imp_right fun h y hy => h y (.tail _ hy))
        (fun x hx => htail x (.tail _ hx)) hxs
      refine List.pairwise_cons.2 ⟨fun x hx => ?_, hrest⟩
      rcases (List.mem_orderedInsert r).1 hx with rfl | hx
      · exact htail b List.mem_cons_self hab
      · exact hb x hx

/-- The comparison is an order on the elements of a list. -/
structure Ordered (lt : α → α → Bool) (xs : List α) : Prop where
  asymm : ∀ a ∈ xs, ∀ b ∈ xs, lt a b = true → lt b a = false
  trans : ∀ a ∈ xs, ∀ b ∈ xs, ∀ c ∈ xs, lt b a = false → lt c b = false → lt c a = false

theorem pairwise_stableSort {xs : List α} (h : Ordered lt xs) : (stableSort lt xs).Pairwise fun a b => lt b a = false := by
  induction xs with
  | nil => exact .nil
  | cons a xs ih =>
    have hmem : ∀ x ∈ stableSort lt xs, x ∈ a :: xs := fun x hx =>
      List.mem_cons_of_mem _ ((perm_stableSort lt xs).subset hx)
    have hxs : Ordered lt xs := ⟨fun x hx y hy => h.asymm x (List.mem_cons_of_mem _ hx) y (List.mem_cons_of_mem _ hy),
      fun x hx y hy z hz => h.trans x (List.mem_cons_of_mem _ hx) y (List.mem_cons_of_mem _ hy) z
        (List.mem_cons_of_mem _ hz)⟩
    refine pairwise_orderedInsert (fun x hx hax => ⟨hax, fun y hy => ?_⟩) (fun x hx hax => ?_) (ih hxs)
    · exact h.trans a List.mem_cons_self x (hmem x hx) y (hmem y hy) hax
    · exact h.asymm x (hmem x hx) a List.mem_cons_self (Bool.not_eq_false _ ▸ hax)

structure IsFirst (lt : α → α → Bool) (pre : List α) (x : α) (post : List α) : Prop where
  before : ∀ y ∈ pre, lt x y = true
  behind : ∀ y ∈ post, lt y x = false

theorem stableSort_of_isFirst (h : IsFirst lt pre x post) :
    stableSort lt (pre ++ x :: post) = x :: stableSort lt (pre ++ post) := by
  induction pre with
  | nil =>
    have hmem : ∀ y ∈ stableSort lt post, lt y x = false := fun y hy => h.behind y ((perm_stableSort lt post).subset hy)
    rw [List.nil_append, List.nil_append, stableSort, List.insertionSort_cons, ← stableSort]
    cases hs : stableSort lt post with
    | nil => rfl
    | cons y ys =>
      rw [hs] at hmem
      rw [List.orderedInsert, if_pos (hmem y List.mem_cons_self)]
  | cons a pre ih =>
    have hrest := ih ⟨fun y hy => h.before y (List.mem_cons_of_mem _ hy), h.behind⟩
    have ha : ¬ lt x a = false := by simp [h.before a List.mem_cons_self]
    rw [List.cons_append, stableSort, List.insertionSort_cons, ← stableSort, hrest, List.orderedInsert, if_neg ha]
    rfl

theorem filter_notMem_cons [DecidableEq α] (h : (pre ++ x :: post).Nodup) (ys : List α) :
    (pre ++ x :: post).filter (fun z => !decide (z ∈ x :: ys)) = (pre ++ post).filter fun z => !decide (z ∈ ys) := by
  obtain ⟨hx, -⟩ := List.nodup_cons.1 (List.nodup_middle.1 h)
  rw [List.filter_append, List.filter_cons_of_neg (by simp), ← List.filter_append]
  refine List.filter_congr fun z hz => ?_
  have hne : z ≠ x := fun heq => hx (heq ▸ hz)
  simp [hne]

end Korith
