import Korith.Platform.Ledger
import Korith.Lib.ReadWrite

/-!
# The order of the job statuses

A job should go from `QUEUED` over `RUNNING` to one of `SUCCEEDED` and `FAILED`, and stay there. `update_status`
compares places in a list in which `FAILED` comes behind `SUCCEEDED`, and it does so with the status that it has read
before: another call may have written since.
-/

namespace Korith.Ledger

open Run ReadWrite

variable {J O K F : Type} [DecidableEq J]

/-- `QUEUED < RUNNING < {SUCCEEDED, FAILED}`. -/
def JobStatus.rank : JobStatus → Nat
  | queued => 0
  | running => 1
  | succeeded => 2
  | failed => 2

def JobStatus.Terminal (a : JobStatus) : Prop := a = .succeeded ∨ a = .failed
  deriving Decidable

def JobStatus.Advances (a b : JobStatus) : Prop := a.rank ≤ b.rank ∧ (a.Terminal → b = a)
  deriving Decidable

theorem JobStatus.Advances.refl (a : JobStatus) : a.Advances a := ⟨Nat.le_refl _, fun _ => rfl⟩

theorem JobStatus.Advances.trans {a b c : JobStatus} (hab : a.Advances b) (hbc : b.Advances c) : a.Advances c := by
  refine ⟨Nat.le_trans hab.1 hbc.1, fun ha => ?_⟩
  obtain rfl := hab.2 ha
  exact hbc.2 ha

theorem advances_iff (a b : JobStatus) : a.Advances b ↔ a = b ∨ ¬ b.index < a.index ∧ a ≠ .succeeded := by
  cases a <;> cases b <;> decide

def InOrder (jobs jobs' : Jobs J O K F) : Prop :=
  ∀ j a, status jobs j = some a → ∃ b, status jobs' j = some b ∧ a.Advances b

theorem InOrder.refl (jobs : Jobs J O K F) : InOrder jobs jobs := fun _ a ha => ⟨a, ha, .refl a⟩

theorem InOrder.trans {x y z : Jobs J O K F} (hxy : InOrder x y) (hyz : InOrder y z) : InOrder x z := by
  intro j a ha
  obtain ⟨b, hb, hab⟩ := hxy j a ha
  obtain ⟨c, hc, hbc⟩ := hyz j b hb
  exact ⟨c, hc, hab.trans hbc⟩

/-- The job has the new status, or the check of `update_status` passes with the status that the job has now and
this is not `SUCCEEDED`. -/
def StillAllowed (s : Shared (J × JobStatus) (Jobs J O K F)) (c : Call (J × JobStatus) (Jobs J O K F)) : Prop :=
  ∀ current ∈ status s.stored c.args.1,
    current = c.args.2 ∨ ¬ c.args.2.index < current.index ∧ current ≠ .succeeded
  deriving Decidable

theorem inOrder_setStatus_iff {jobId : J} {newStatus : JobStatus} {jobs : Jobs J O K F} :
    InOrder jobs (setStatus jobId newStatus jobs) ↔
      ∀ current, status jobs jobId = some current → current.Advances newStatus := by
  constructor
  · intro horder current hcurrent
    obtain ⟨b, hb, hadv⟩ := horder jobId current hcurrent
    rw [status_setStatus, if_pos rfl, hcurrent] at hb
    cases hb
    exact hadv
  · intro hadv j a ha
    rw [status_setStatus]
    split_ifs with hj
    · rw [ha]
      exact ⟨newStatus, rfl, hadv a (hj ▸ ha)⟩
    · exact ⟨a, ha, .refl a⟩

variable [DecidableEq O] [DecidableEq K] [DecidableEq F]

abbrev StatusEvent (J O K F : Type) : Type := Event (J × JobStatus) (Jobs J O K F)

abbrev StatusCalls (J O K F : Type) : Type := Shared (J × JobStatus) (Jobs J O K F)

theorem status_monotone_iff {events : List (StatusEvent J O K F)} {s s' : StatusCalls J O K F}
    (hrun : run (step statusPlan) events s = some s') :
    (∀ before mid after s₁ s₂, events = before ++ (mid ++ after) → run (step statusPlan) before s = some s₁ →
        run (step statusPlan) mid s₁ = some s₂ → InOrder s₁.stored s₂.stored) ↔
      Along (step statusPlan) (OnWrite StillAllowed) events s := by
  have horder := along_order_iff (R := fun s s' : StatusCalls J O K F => InOrder s.stored s'.stored)
    (fun s => InOrder.refl s.stored) (fun _ _ _ => InOrder.trans) hrun
  rw [← horder]
  refine along_iff (I := fun _ => True) trivial (fun _ _ _ _ _ _ => trivial) (fun s e s' _ hstep => ?_) hrun
  refine respects_iff InOrder.refl (fun c f _ hf => ?_) hstep
  rw [statusPlan_eq_some hf, inOrder_setStatus_iff]
  exact forall₂_congr fun current _ => advances_iff current c.args.2

def oneJob (status : JobStatus) : StatusCalls Nat Nat Nat Nat :=
  ⟨Table.insertOrReplace ⟨1, 0, 2, 3, none, status⟩ Table.empty, []⟩

theorem status_monotone_in_turn :
    let started : Call (Nat × JobStatus) (Jobs Nat Nat Nat Nat) := ⟨(1, .running), (oneJob .queued).stored⟩
    let finished : Call (Nat × JobStatus) (Jobs Nat Nat Nat Nat) := ⟨(1, .succeeded), (oneJob .running).stored⟩
    let events : List (StatusEvent Nat Nat Nat Nat) :=
      [.read (1, .running), .write started, .read (1, .succeeded), .write finished]
    run (step statusPlan) events (oneJob .queued) = some (oneJob .succeeded) ∧
      InOrder (oneJob .queued).stored (oneJob .succeeded).stored := by
  intro started finished events
  have hrun : run (step statusPlan) events (oneJob .queued) = some (oneJob .succeeded) := by decide +kernel
  have hallowed : Along (step statusPlan) (OnWrite StillAllowed) events (oneJob .queued) := by
    decide +kernel
  exact ⟨hrun, (status_monotone_iff hrun).2 hallowed [] events [] _ _ (by simp) rfl hrun⟩

/-- A call that has seen `QUEUED` puts a job that has succeeded meanwhile back to `RUNNING`; and `FAILED` is written
over `SUCCEEDED` by a call that nothing interrupts. -/
theorem status_moves_back :
    let late : Call (Nat × JobStatus) (Jobs Nat Nat Nat Nat) := ⟨(1, .running), (oneJob .queued).stored⟩
    let finished : Call (Nat × JobStatus) (Jobs Nat Nat Nat Nat) := ⟨(1, .succeeded), (oneJob .queued).stored⟩
    let failed : Call (Nat × JobStatus) (Jobs Nat Nat Nat Nat) := ⟨(1, .failed), (oneJob .succeeded).stored⟩
    run (step statusPlan) [.read (1, .running), .read (1, .succeeded), .write finished] (oneJob .queued) =
        some ⟨(oneJob .succeeded).stored, [late]⟩ ∧
      step statusPlan ⟨(oneJob .succeeded).stored, [late]⟩ (.write late) = some (oneJob .running) ∧
      run (step statusPlan) [.read (1, .failed), .write failed] (oneJob .succeeded) = some (oneJob .failed) ∧
      ¬ InOrder (oneJob .succeeded).stored (oneJob .running).stored ∧
      ¬ InOrder (oneJob .succeeded).stored (oneJob .failed).stored := by
  refine ⟨by decide +kernel, by decide +kernel, by decide +kernel, ?_, ?_⟩
  · intro horder
    obtain ⟨b, hb, hadv⟩ := horder 1 .succeeded rfl
    obtain rfl : JobStatus.running = b := Option.some.inj hb
    exact absurd hadv (by decide)
  · intro horder
    obtain ⟨b, hb, hadv⟩ := horder 1 .succeeded rfl
    obtain rfl : JobStatus.failed = b := Option.some.inj hb
    exact absurd hadv (by decide)

end Korith.Ledger
