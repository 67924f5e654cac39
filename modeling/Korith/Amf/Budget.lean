import Korith.Amf.Overwrite

/-!
# The storage budget

The total stays within the budget over every run in which no overwrite evicts. An overwrite that evicts may destroy an
entry whose size stays in the total, or leave one whose size is not in it.
-/

namespace Korith.Amf

variable {F : Type} [FloatArith F]

theorem amfStore_within_budget (e : Env F) (ops : List (Op F)) (w : World F) (hpos : 0 < e.budget) (hw : Initial w)
    (hstart : ∀ recs, w.disk.indexFile = some recs → (recs.map AmfEntry.sizeBytes).sum ≤ e.budget)
    (hops : EachStep e (SafeOp e) ops w) : (run e ops w).store.totalBytes ≤ e.budget ∧
    ∀ incoming, incoming ≤ e.budget →
      RoomMade e incoming (evictIfNeeded e incoming (run e ops w)).2 := by
  have hinv : Inv e.budget (run e ops w) :=
    run_inv (hw.inv fun recs hrecs => .inr (hstart recs hrecs)) (.inr rfl) hops
  exact ⟨hinv.within.resolve_left (by omega), fun incoming hin => evictIfNeeded_post hpos hin⟩

theorem amfStore_within_budget_three : (run smallEnv threeEntries emptyWorld).store.totalBytes = 35 ∧
    (run smallEnv threeEntries emptyWorld).store.totalBytes ≤ smallEnv.budget := by
  have hsteps : EachStep smallEnv (SafeOp smallEnv) threeEntries emptyWorld := by
    simp only [threeEntries, EachStep, SafeOp, true_and, and_true]
    decide
  exact ⟨by decide, (amfStore_within_budget smallEnv threeEntries emptyWorld (by decide) emptyWorld_initial
    (fun _ h => by cases h) hsteps).1⟩

/-- The overwrite of the 5 byte entry evicts the first entry and destroys the last one; the next entry finds only 13
of the 28 bytes counted. -/
def overBudgetRun : List (Op Frac) :=
  threeEntries ++ [.store 1 (tenant 1) [5, 6] (List.replicate 8 0) 0,
    .store 0 (tenant 1) [8] (List.replicate 36 0) 0]

theorem overwrite_exceeds_budget :
    smallEnv.budget = 36 ∧ Initial emptyWorld ∧ (run smallEnv overBudgetRun emptyWorld).store.enabled = true ∧
    (run smallEnv overBudgetRun emptyWorld).store.totalBytes = 51 :=
  ⟨by decide, emptyWorld_initial, by decide, by decide⟩

end Korith.Amf
