import Mathlib

/-!
# Floating-point values

`FloatArith F` is what the code uses of `double`: the operations, a test for finiteness and the comparisons. The only
law is one that any sensible rounding keeps: quotients of small numbers compare like the fractions they stand for.

`Frac` is one interpretation, exact fractions with a NaN, that evaluates in the kernel. Fractions over one denominator
are rounded in their order (`roundHalfEven_mono`).
-/

namespace Korith

class FloatArith (F : Type) extends Add F, Sub F, Mul F, Div F where
  nan : F
  isFinite : F → Bool
  lt : F → F → Bool
  ofNat : Nat → F
  log2 : F → F
  toNat : F → Nat
  lt_quotient (a b c d : Nat) : 0 < d → a * d < c * b → a < 2 ^ 20 → b < 2 ^ 20 → c < 2 ^ 20 → d < 2 ^ 20 →
    lt (ofNat a / ofNat b) (ofNat c / ofNat d) = true

namespace FloatArith

variable {F : Type} [FloatArith F]

def hundredths (n : Nat) : F := ofNat n / ofNat 100

/-- `a >= b` of two numbers, false if one is a NaN. -/
def ge (a b : F) : Bool := isFinite a && isFinite b && !lt a b

def max (a b : F) : F := if lt a b then b else a
def min (a b : F) : F := if lt b a then b else a

def clamp (x lo hi : F) : F := if lt x lo then lo else if lt hi x then hi else x

theorem ge_hundredths_zero {n p : Nat} (hn : 0 < n) (hn' : n < 2 ^ 20) (hp : 0 < p) (hp' : p < 2 ^ 20) :
    ge (ofNat 0 / ofNat n) (hundredths p : F) = false := by
  have hlt := lt_quotient (F := F) 0 n p 100 (by decide) (by rw [Nat.zero_mul]; exact Nat.mul_pos hp hn)
    (by decide) hn' hp' (by decide)
  simp [ge, hundredths, hlt]

end FloatArith

/-- A fraction that is not reduced; denominator 0 is NaN. -/
structure Frac where
  num : Int
  den : Nat
  deriving DecidableEq

namespace Frac

def div (a b : Frac) : Frac :=
  if b.num < 0 then ⟨-(a.num * b.den), a.den * b.num.natAbs⟩ else ⟨a.num * b.den, a.den * b.num.natAbs⟩

theorem div_ofNat (a b : Nat) : div ⟨a, 1⟩ ⟨b, 1⟩ = ⟨a, b⟩ := by
  have hb : ¬ (b : Int) < 0 := by omega
  simp [div, hb]

instance : FloatArith Frac where
  add a b := ⟨a.num * b.den + b.num * a.den, a.den * b.den⟩
  sub a b := ⟨a.num * b.den - b.num * a.den, a.den * b.den⟩
  mul a b := ⟨a.num * b.num, a.den * b.den⟩
  div := div
  nan := ⟨0, 0⟩
  isFinite a := a.den != 0
  lt a b := a.den != 0 && b.den != 0 && decide (a.num * b.den < b.num * a.den)
  ofNat n := ⟨n, 1⟩
  log2 a := ⟨(a.num.toNat / a.den).log2, 1⟩
  toNat a := a.num.toNat / a.den
  lt_quotient a b c d hd h _ _ _ _ := by
    have hb : b ≠ 0 := by rintro rfl; exact absurd h (Nat.not_lt_zero _)
    have hcast : (a : Int) * d < c * b := by exact_mod_cast h
    show ((div ⟨a, 1⟩ ⟨b, 1⟩).den != 0 && (div ⟨c, 1⟩ ⟨d, 1⟩).den != 0 &&
      decide ((div ⟨a, 1⟩ ⟨b, 1⟩).num * (div ⟨c, 1⟩ ⟨d, 1⟩).den <
        (div ⟨c, 1⟩ ⟨d, 1⟩).num * (div ⟨a, 1⟩ ⟨b, 1⟩).den)) = true
    simp [div_ofNat, hb, Nat.ne_of_gt hd, hcast]

/-! ### Rounding -/

def truncate (q : Frac) : Int := q.num.tdiv q.den

def roundHalfEven (q : Frac) : Int :=
  let floor := q.num / q.den
  let twice := 2 * (q.num % q.den)
  if q.den < twice ∨ (twice = q.den ∧ floor % 2 = 1) then floor + 1 else floor

theorem floor_le_roundHalfEven {q : Frac} : q.num / q.den ≤ q.roundHalfEven := by
  simp only [roundHalfEven]
  split_ifs <;> omega

theorem roundHalfEven_le_floor {q : Frac} : q.roundHalfEven ≤ q.num / q.den + 1 := by
  simp only [roundHalfEven]
  split_ifs <;> omega

theorem roundHalfEven_mono {a b : Int} {d : Nat} (hd : 0 < d) (h : a ≤ b) :
    roundHalfEven ⟨a, d⟩ ≤ roundHalfEven ⟨b, d⟩ := by
  have hd' : (0 : Int) < d := by exact_mod_cast hd
  rcases (Int.ediv_le_ediv hd' h).lt_or_eq with hlt | heq
  · calc roundHalfEven ⟨a, d⟩ ≤ a / d + 1 := roundHalfEven_le_floor
      _ ≤ b / d := hlt
      _ ≤ roundHalfEven ⟨b, d⟩ := floor_le_roundHalfEven
  · -- between the same two integers, the remainders decide
    have hmod : a % d ≤ b % d := by
      rw [Int.emod_def, Int.emod_def, heq]
      omega
    simp only [roundHalfEven, heq]
    split_ifs <;> omega

end Frac

end Korith
