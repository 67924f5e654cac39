import Korith.Lib.Run
import Mathlib.Tactic.SplitIfs

/-!
# Calls that read, then write

A call reads shared data, decides what to write from what it has read, and writes it later. Other calls may write
between the two. `plan` says what a call with given arguments writes, as a change of the data, or that it writes
nothing.
-/

namespace Korith.ReadWrite

variable {α σ : Type} [DecidableEq α] [DecidableEq σ]

structure Call (α σ : Type) where
  args : α
  seen : σ
  deriving DecidableEq

structure Shared (α σ : Type) where
  stored : σ
  pending : List (Call α σ)
  deriving DecidableEq

inductive Event (α σ : Type)
  | read (args : α)
  | write (c : Call α σ)

def step (plan : α → σ → Option (σ → σ)) (s : Shared α σ) : Event α σ → Option (Shared α σ)
  | .read args =>
    if (plan args s.stored).isSome then some { s with pending := ⟨args, s.stored⟩ :: s.pending } else some s
  | .write c =>
    if c ∈ s.pending then
      (plan c.args c.seen).map fun f => { stored := f s.stored, pending := s.pending.erase c }
    else none

variable {plan : α → σ → Option (σ → σ)} {s s' : Shared α σ} {args : α} {c : Call α σ} {e : Event α σ}

theorem stored_of_read (h : step plan s (.read args) = some s') : s'.stored = s.stored := by
  simp only [step] at h
  split_ifs at h <;> rw [← Option.some.inj h]

theorem step_write (h : step plan s (.write c) = some s') :
    c ∈ s.pending ∧ ∃ f, plan c.args c.seen = some f ∧ s' = ⟨f s.stored, s.pending.erase c⟩ := by
  simp only [step] at h
  split_ifs at h with hmem
  obtain ⟨f, hf, rfl⟩ := Option.map_eq_some_iff.1 h
  exact ⟨hmem, f, hf, rfl⟩

def OnWrite (p : Shared α σ → Call α σ → Prop) (s : Shared α σ) : Event α σ → Prop
  | .read _ => True
  | .write c => p s c

instance (p : Shared α σ → Call α σ → Prop) [∀ s c, Decidable (p s c)] (s : Shared α σ) :
    ∀ e, Decidable (OnWrite p s e)
  | .read _ => .isTrue trivial
  | .write c => inferInstanceAs (Decidable (p s c))

/-- Reading changes nothing: an event respects an order on the data if it is no write that breaks it. -/
theorem respects_iff {R : σ → σ → Prop} (hrefl : ∀ x, R x x) {p : Shared α σ → Call α σ → Prop}
    (hwrite : ∀ c f, c ∈ s.pending → plan c.args c.seen = some f → (R s.stored (f s.stored) ↔ p s c))
    (h : step plan s e = some s') : (∀ s', step plan s e = some s' → R s.stored s'.stored) ↔ OnWrite p s e := by
  cases e with
  | read args =>
    refine ⟨fun _ => trivial, fun _ s₁ hs₁ => ?_⟩
    rw [stored_of_read hs₁]
    exact hrefl _
  | write c =>
    obtain ⟨hmem, f, hf, rfl⟩ := step_write h
    constructor
    · intro hR
      exact (hwrite c f hmem hf).1 (hR _ h)
    · intro hp s₁ hs₁
      cases h.symm.trans hs₁
      exact (hwrite c f hmem hf).2 hp

end Korith.ReadWrite
