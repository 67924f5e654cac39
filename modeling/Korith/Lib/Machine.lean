import Mathlib.Data.List.Induction

/-!
# Machines that answer

A machine answers every input and goes on to its next state. What is said of a list of inputs is said of each of them
together with those before it (`Every`).
-/

namespace Korith.Machine

variable {σ ι ο : Type} {step : σ → ι → ο × σ} {s : σ} {is before rest : List ι} {i : ι} {p q : List ι → ι → Prop}
  {I : List ι → Prop}

def after (step : σ → ι → ο × σ) (s : σ) (is : List ι) : σ := is.foldl (fun s i => (step s i).2) s

def answer (step : σ → ι → ο × σ) (s : σ) (before : List ι) (i : ι) : ο := (step (after step s before) i).1

def answers (step : σ → ι → ο × σ) : σ → List ι → List ο
  | _, [] => []
  | s, i :: is => (step s i).1 :: answers step (step s i).2 is

@[simp] theorem after_nil : after step s [] = s := rfl

theorem after_cons : after step s (i :: is) = after step (step s i).2 is := rfl

@[simp] theorem after_concat : after step s (is ++ [i]) = (step (after step s is) i).2 := by
  rw [after, List.foldl_append]
  rfl

theorem answers_concat : answers step s (is ++ [i]) = answers step s is ++ [answer step s is i] := by
  induction is generalizing s with
  | nil => rfl
  | cons j is ih => rw [List.cons_append, answers, ih, answers, List.cons_append, answer, answer, after_cons]

def Every (p : List ι → ι → Prop) (is : List ι) : Prop := ∀ before i rest, is = before ++ i :: rest → p before i

theorem every_nil : Every p [] := by
  intro before i rest h
  cases before <;> cases h

theorem every_concat : Every p (is ++ [i]) ↔ Every p is ∧ p is i := by
  constructor
  · intro h
    refine ⟨fun before j rest hj => ?_, h is i [] rfl⟩
    exact h before j (rest ++ [i]) (by rw [hj, List.append_assoc, List.cons_append])
  · rintro ⟨his, hi⟩ before j rest h
    rcases List.eq_nil_or_concat rest with rfl | ⟨rest, k, rfl⟩
    · obtain ⟨rfl, hij⟩ := List.append_inj' h rfl
      rw [← (List.cons.inj hij).1]
      exact hi
    · have h' : is ++ [i] = (before ++ j :: rest) ++ [k] := by
        rw [h, List.concat_eq_append, List.append_assoc, List.cons_append]
      exact his before j rest (List.append_inj' h' rfl).1

theorem every_iff_take : Every p is ↔ ∀ k : Fin is.length, p (is.take k) (is.get k) := by
  constructor
  · intro h k
    refine h (is.take k) (is.get k) (is.drop (k + 1)) ?_
    rw [List.get_eq_getElem, ← List.drop_eq_getElem_cons, List.take_append_drop]
  · rintro h before i rest rfl
    have hk : before.length < (before ++ i :: rest).length := by simp
    simpa using h ⟨before.length, hk⟩

instance [∀ before i, Decidable (p before i)] : Decidable (Every p is) := decidable_of_iff _ every_iff_take.symm

theorem Every.take (h : Every p is) (k : Nat) : Every p (is.take k) := by
  intro before i rest hsplit
  refine h before i (rest ++ is.drop k) ?_
  rw [← List.cons_append, ← List.append_assoc, ← hsplit, List.take_append_drop]

theorem Every.inv (h : Every p is) (hnil : I [])
    (hkeep : ∀ before i, I before → p before i → I (before ++ [i])) : I is := by
  induction is using List.reverseRecOn with
  | nil => exact hnil
  | append_singleton is i ih =>
    obtain ⟨his, hi⟩ := every_concat.1 h
    exact hkeep is i (ih his) hi

/-- Two conditions that agree behind inputs that have met the second of them. -/
theorem every_iff (hI : ∀ before i, I (before ++ [i]) → I before)
    (h : ∀ before i, I (before ++ [i]) → Every q before → (p before i ↔ q before i)) (his : I is) :
    Every p is ↔ Every q is := by
  induction is using List.reverseRecOn with
  | nil => exact iff_of_true every_nil every_nil
  | append_singleton is i ih =>
    rw [every_concat, every_concat, ih (hI is i his)]
    exact and_congr_right (h is i his)

theorem every_congr (h : ∀ before i, Every q before → (p before i ↔ q before i)) : Every p is ↔ Every q is :=
  every_iff (I := fun _ => True) (fun _ _ _ => trivial) (fun before i _ => h before i) trivial

end Korith.Machine
