import Mathlib.Data.List.Perm.Basic

/-!
# Row numbers

`ROW_NUMBER() OVER (PARTITION BY g ...)` numbers the rows of a scan from 1 on within each group. The rows up to a
number are the first ones of every group, the rows beyond it are the rest.
-/

namespace Korith.RowNumber

variable {ρ γ : Type} [DecidableEq γ] {g : ρ → γ} {before scan : List ρ} {n : Nat} {k : γ} {r : ρ}

def numbered (g : ρ → γ) (before : List ρ) : List ρ → List (Nat × ρ)
  | [] => []
  | r :: rest => ((before.filter fun r' => decide (g r' = g r)).length + 1, r) :: numbered g (before ++ [r]) rest

def upTo (g : ρ → γ) (n : Nat) (scan : List ρ) : List ρ :=
  ((numbered g [] scan).filter fun p => decide (p.1 ≤ n)).map Prod.snd

def beyond (g : ρ → γ) (n : Nat) (scan : List ρ) : List ρ :=
  ((numbered g [] scan).filter fun p => decide (n < p.1)).map Prod.snd

theorem map_snd_numbered : (numbered g before scan).map Prod.snd = scan := by
  induction scan generalizing before with
  | nil => rfl
  | cons r rest ih => rw [numbered, List.map_cons, ih]

theorem perm_upTo_beyond (g : ρ → γ) (n : Nat) (scan : List ρ) : (upTo g n scan ++ beyond g n scan).Perm scan := by
  have hsplit := (List.filter_append_perm (fun p : Nat × ρ => decide (p.1 ≤ n)) (numbered g [] scan)).map Prod.snd
  simp only [← decide_not, Nat.not_le, List.map_append, map_snd_numbered] at hsplit
  exact hsplit

theorem filter_other {q : Nat × ρ → Bool} {ps : List (Nat × ρ)} {m : Nat} (hk : ¬ g r = k) :
    ((((m, r) :: ps).filter q).map Prod.snd).filter (fun r => decide (g r = k)) =
      ((ps.filter q).map Prod.snd).filter fun r => decide (g r = k) := by
  rw [List.filter_cons]
  split_ifs
  · rw [List.map_cons, List.filter_cons_of_neg (by simpa using hk)]
  · rfl

theorem filter_numbered :
    (((numbered g before scan).filter fun p => decide (p.1 ≤ n)).map Prod.snd).filter (fun r => decide (g r = k)) =
        (scan.filter fun r => decide (g r = k)).take (n - (before.filter fun r => decide (g r = k)).length) ∧
      (((numbered g before scan).filter fun p => decide (n < p.1)).map Prod.snd).filter (fun r => decide (g r = k)) =
        (scan.filter fun r => decide (g r = k)).drop (n - (before.filter fun r => decide (g r = k)).length) := by
  induction scan generalizing before with
  | nil => exact ⟨List.take_nil.symm, List.drop_nil.symm⟩
  | cons r rest ih =>
    obtain ⟨ihtake, ihdrop⟩ := @ih (before ++ [r])
    by_cases hk : g r = k
    · subst hk
      simp only [List.filter_append, List.filter_cons, List.filter_nil, decide_true, if_pos, List.length_append,
        List.length_singleton] at ihtake ihdrop
      rw [numbered]
      by_cases hn : (before.filter fun r' => decide (g r' = g r)).length + 1 ≤ n
      · have hleft : n - (before.filter fun r' => decide (g r' = g r)).length =
            n - ((before.filter fun r' => decide (g r' = g r)).length + 1) + 1 := by omega
        simp only [List.filter_cons, decide_true, if_pos, hn, Nat.not_lt.2 hn, decide_false, Bool.false_eq_true,
          if_false, List.map_cons, ihtake, ihdrop, hleft, List.take_succ_cons, List.drop_succ_cons, and_self]
      · have hleft : n - (before.filter fun r' => decide (g r' = g r)).length = 0 := by omega
        have hleft' : n - ((before.filter fun r' => decide (g r' = g r)).length + 1) = 0 := by omega
        rw [hleft', List.take_zero] at ihtake
        rw [hleft', List.drop_zero] at ihdrop
        simp only [List.filter_cons, decide_true, if_pos, hn, Nat.not_le.1 hn, decide_false, Bool.false_eq_true,
          if_false, List.map_cons, ihtake, ihdrop, hleft, List.take_zero, List.drop_zero, and_self]
    · have hskip : (before ++ [r]).filter (fun r => decide (g r = k)) = before.filter fun r => decide (g r = k) := by
        simp [hk]
      rw [hskip] at ihtake ihdrop
      have hrest : (r :: rest).filter (fun r => decide (g r = k)) = rest.filter fun r => decide (g r = k) := by
        simp [hk]
      rw [hrest, numbered, filter_other hk, filter_other hk]
      exact ⟨ihtake, ihdrop⟩

theorem filter_upTo : (upTo g n scan).filter (fun r => decide (g r = k)) =
    (scan.filter fun r => decide (g r = k)).take n :=
  filter_numbered.1

theorem filter_beyond : (beyond g n scan).filter (fun r => decide (g r = k)) =
    (scan.filter fun r => decide (g r = k)).drop n :=
  filter_numbered.2

theorem rel_of_upTo_beyond {rel : ρ → ρ → Prop} (hscan : scan.Pairwise fun r r' => g r = g r' → rel r r')
    {r r' : ρ} (hr : r ∈ upTo g n scan) (hr' : r' ∈ beyond g n scan) (hg : g r = g r') : rel r r' := by
  have htop : r ∈ (scan.filter fun x => decide (g x = g r')).take n := by
    rw [← filter_upTo]
    exact List.mem_filter.2 ⟨hr, by simpa using hg⟩
  have hrest : r' ∈ (scan.filter fun x => decide (g x = g r')).drop n := by
    rw [← filter_beyond]
    exact List.mem_filter.2 ⟨hr', by simp⟩
  have hsorted := hscan.filter fun x => decide (g x = g r')
  rw [← List.take_append_drop n (scan.filter _)] at hsorted
  exact (List.pairwise_append.1 hsorted).2.2 r htop r' hrest hg

end Korith.RowNumber
