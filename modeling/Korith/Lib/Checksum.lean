import Mathlib

/-!
# Running checksums

A checksum that is folded over a list. If each step is injective in the state and in the element, the checksums of
two lists that differ in one place differ from there on to the end.
-/

namespace Korith

variable {α β : Type} {f : β → α → β} {xs : List α} {i : Nat} {a b : α}

theorem foldl_injective (hstate : ∀ a, Function.Injective (f · a)) (xs : List α) :
    Function.Injective fun s => xs.foldl f s := by
  induction xs with
  | nil => exact fun s t h => h
  | cons a xs ih =>
    intro s t h
    exact hstate a (ih h)

theorem foldl_set_ne (hstate : ∀ a, Function.Injective (f · a)) (helem : ∀ s, Function.Injective (f s))
    (hi : xs[i]? = some a) (hne : b ≠ a) (s : β) : (xs.set i b).foldl f s ≠ xs.foldl f s := by
  induction xs generalizing i s with
  | nil => cases hi
  | cons x xs ih =>
    cases i with
    | zero =>
      obtain rfl : x = a := Option.some.inj hi
      intro h
      exact hne (helem s (foldl_injective hstate xs h))
    | succ i => exact ih hi (f s x)

end Korith
