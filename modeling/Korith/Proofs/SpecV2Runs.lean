import Korith.Proofs.SpecV2Lossless

/-!
# The iterations of a request

A request is served by calls, and each call runs iterations of the loop. `starts` lists the states in which
they start.
-/

namespace Korith.SpecV2

open Exec

set_option linter.unusedSectionVars false

variable {L : Type} [LinearOrder L] {e : Env L} {maxTokens : Nat} {s s' : State L}

/-! ### Starts of iterations -/

def loopStarts (e : Env L) (maxTokens : Nat) (maxThisCall : Int) : Nat → State L → List (State L)
  | 0, _ => []
  | fuel + 1, s =>
    if loopCond maxTokens maxThisCall s then
      let r := iteration e maxTokens { s with heads := s.heads ++ [s.head] }
      s :: match r.res with
        | .error .brk => []
        | _ => loopStarts e maxTokens maxThisCall fuel r.state
    else []

def State.resetCall (s : State L) : State L := { s with tokensPrinted := 0, stepProposed := 0, stepAccepted := 0 }

def callStarts (e : Env L) (maxTokens : Nat) (maxThisCall : Int) (s : State L) : List (State L) :=
  loopStarts e maxTokens maxThisCall maxThisCall.toNat s.resetCall

def starts (e : Env L) (maxTokens : Nat) : List Int → State L → List (State L)
  | [], _ => []
  | m :: ms, s => callStarts e maxTokens m s ++ starts e maxTokens ms (specV2Step e maxTokens m s)

def State.started (s : State L) : State L := { s with heads := s.heads ++ [s.head] }

theorem loop_rec {maxThisCall : Int} {P : State L → List (State L) → State L → Prop} (hstop : ∀ s, P s [] s)
    (hbrk : ∀ s, loopCond maxTokens maxThisCall s = true → (iteration e maxTokens s.started).res = .error .brk →
      P s [s] (iteration e maxTokens s.started).state)
    (hnext : ∀ s l s', loopCond maxTokens maxThisCall s = true →
      P (iteration e maxTokens s.started).state l s' → P s (s :: l) s') (fuel : Nat) (s : State L) :
    P s (loopStarts e maxTokens maxThisCall fuel s) (loop e maxTokens maxThisCall fuel s) := by
  induction fuel generalizing s with
  | zero => exact hstop s
  | succ fuel ih =>
    rw [loop, loopStarts]
    split_ifs with hc
    · have hbrk' := hbrk s hc
      have hnext' := hnext s _ _ hc (ih _)
      unfold State.started at hbrk' hnext'
      generalize iteration e maxTokens { s with heads := s.heads ++ [s.head] } = r at hbrk' hnext' ⊢
      obtain ⟨res, s', l⟩ := r
      cases res with
      | ok a => exact hnext'
      | error x =>
        cases x with
        | brk => exact hbrk' rfl
        | cont => exact hnext'
    · exact hstop s

/-! ### What is printed -/

def State.printed (s : State L) (ts : List Token) : State L :=
  { s with
    tick := s.tick + ts.length
    emitted := s.emitted ++ ts
    tokensPrinted := s.tokensPrinted + ts.length
    printedTotal := s.printedTotal + ts.length }

theorem State.printed_nil (s : State L) : s.printed [] = s := by
  simp [State.printed]

theorem State.printed_printed (s : State L) (ts us : List Token) : (s.printed ts).printed us = s.printed (ts ++ us) := by
  simp [State.printed, Nat.add_assoc]

section Printed

variable {B : Empty → Prop}

theorem printToken_printed (t : Token) :
    wp B (printToken e maxTokens t) (fun _ s' => s'.finished = false → s' = s.printed [t])
      (fun _ s' => s'.finished = true) s := by
  simp only [printToken, wp_bind, wp_emitToken]
  split
  · simp only [Bool.false_eq_true, if_false, wp_stop]
  · simp only [if_true, wp_modify]
    intro hf
    simp only [State.printed, List.length_singleton, hf]
    simp only [Bool.or_eq_false_iff] at hf
    rw [← hf.1]

theorem printAccepted_printed (ds : List Token) :
    wp B (printAccepted e maxTokens ds) (fun _ s' => s'.finished = false → s' = s.printed ds)
      (fun _ s' => s'.finished = true) s := by
  induction ds generalizing s with
  | nil => simp [printAccepted, State.printed_nil]
  | cons d ds ih =>
    simp only [printAccepted, wp_bind, wp_get]
    cases hf : s.finished with
    | true =>
      simp only [if_true, wp_pure]
      intro hf'
      exact absurd hf (by simp [hf'])
    | false =>
      simp only [Bool.false_eq_true, if_false]
      refine (printToken_printed d).bind fun _ s₁ h₁ => ?_
      refine ih.imp fun _ s₂ h₂ hf₂ => ?_
      cases hf₁ : s₁.finished with
      | false => rw [h₂ hf₂, h₁ hf₁, State.printed_printed, List.singleton_append]
      | true =>
        -- nothing takes the flag back
        have hkeep := congrArg State.finished (h₂ hf₂)
        rw [hf₂] at hkeep
        exact absurd (hkeep.trans hf₁) (by simp)

end Printed

/-! ### A request for examples -/

def agreeEnv (draftDecodeFails draftLogitsNull : Nat → Bool) : Env Nat where
  target xs := if xs.length % 2 = 0 then [0, 5] else [5, 0]
  draft _ xs := if xs.length % 2 = 0 then [0, 5] else [5, 0]
  isEog _ := false
  targetDecodeFails _ := false
  draftDecodeFails := draftDecodeFails
  draftLogitsNull := draftLogitsNull
  emitFails _ := false

def agreeState : State Nat :=
  { demoState with
    ctxTarget := ⟨Memory.empty.place 0 0 [1], [[5, 0]]⟩
    ctxDraft := ⟨Memory.empty.place 0 0 [1], [[5, 0]]⟩ }

theorem agreeState_start (fails nulls : Nat → Bool) : Start (agreeEnv fails nulls) [1] 0 agreeState where
  live := ⟨(Memory.holds_empty 0).place, rfl, rfl⟩
  emitted := rfl
  heads := rfl
  budget := by decide

end Korith.SpecV2
