import Korith.Platform.Deliveries
import Mathlib.Algebra.Order.Ring.Int

/-!
# Whose delivery `ack` and `retry` settle

Both find the row by the id of the job alone. A worker that has lost its lease still settles the job when it is done,
and what it removes or gives back is then the delivery of the worker that holds the job.
-/

set_option linter.unusedSectionVars false

namespace Korith.Queue

open Run

variable {J W T P : Type} [DecidableEq J] [DecidableEq W] [CommRing T] [LinearOrder T]
  {cfg : Config W T P} {q q' : SQLiteQueue J W T P} {s s' s₁ : Workers J W T P} {a : Act J W T P}
  {acts : List (Act J W T P)} {d d' : Delivery J W} {j j' : J} {r : Row J W T P} {w : W} {t t' : T}

/-! ### Leases that run out -/

theorem find_reclaim_of_not_stale (hr : q.find j = some r) (h : ¬ Stale cfg t r) :
    (reclaimStaleInflight cfg t t' q).find j = some r := by
  rw [find_reclaim, hr, Option.map_some, if_neg]
  exact h

theorem isSome_find_reclaim : ((reclaimStaleInflight cfg t t' q).find j).isSome = (q.find j).isSome := by
  rw [find_reclaim, Option.isSome_map]

namespace Workers

/-! ### One act -/

variable {payload : P}

theorem step_enqueue (h : step cfg s (.enqueue j payload t) = some s') :
    s.queue.find j = none ∧ s' = { s with queue := enqueue cfg j payload t s.queue } := by
  obtain ⟨q, hq, rfl⟩ := Option.map_eq_some_iff.1 h
  simp only [Queue.step] at hq
  split_ifs at hq with hfresh
  cases hq
  exact ⟨hfresh, rfl⟩

theorem step_reclaim (h : step cfg s (.reclaim t t') = some s') :
    s' = { s with queue := reclaimStaleInflight cfg t t' s.queue } := (Option.some.inj h).symm

theorem step_dequeue (h : step cfg s (.dequeue w j t) = some s') :
    ∃ r, s.queue.find j = some r ∧ Deliverable w t r ∧ s' = s.take w j (deliver w j s.queue) := by
  obtain ⟨q, hq, rfl⟩ := Option.map_eq_some_iff.1 h
  simp only [Queue.step] at hq
  split at hq
  · next r hr =>
    split_ifs at hq with hsel
    cases hq
    exact ⟨r, hr, hsel.1, rfl⟩
  · cases hq

theorem step_settle (hd : a.settles = some d) (h : step cfg s a = some s') :
    d ∈ s.working ∧ s'.deliveries = s.deliveries ∧
      (a = .ack d ∧ s'.queue = ack d.jobId s.queue ∨
        ∃ delayS now, a = .retry d delayS now ∧ s'.queue = retry d.jobId delayS now s.queue) := by
  cases a with
  | ack d' =>
    cases hd
    simp only [step] at h
    split_ifs at h with hmem
    cases h
    exact ⟨hmem, rfl, .inl ⟨rfl, rfl⟩⟩
  | retry d' delayS now =>
    cases hd
    simp only [step] at h
    split_ifs at h with hmem
    cases h
    exact ⟨hmem, rfl, .inr ⟨delayS, now, rfl, rfl⟩⟩
  | enqueue | reclaim | dequeue | crash => cases hd

/-! ### The law and its condition -/

/-- The law: an `ack` or a `retry` of a delivery that does not hold its job leaves the queue alone. -/
def ActsOnOwn (cfg : Config W T P) (s : Workers J W T P) (a : Act J W T P) : Prop :=
  ∀ d s', a.settles = some d → step cfg s a = some s' → ¬ s.Holds d → s'.queue = s.queue

/-- The condition: the delivery holds its job, or the job is no longer in the queue. -/
def IssuedByHolder (s : Workers J W T P) (a : Act J W T P) : Prop :=
  ∀ d, a.settles = some d → s.Holds d ∨ s.queue.find d.jobId = none

instance (s : Workers J W T P) (a : Act J W T P) : Decidable (IssuedByHolder s a) :=
  match h : a.settles with
  | none => .isTrue fun d hd => by cases h.symm.trans hd
  | some d =>
    decidable_of_iff (s.Holds d ∨ s.queue.find d.jobId = none)
      ⟨fun hd d' hd' => Option.some.inj (h.symm.trans hd') ▸ hd, fun hd => hd d h⟩

theorem actsOnOwn_iff (h : step cfg s a = some s') : ActsOnOwn cfg s a ↔ IssuedByHolder s a := by
  constructor
  · intro hown d hd
    by_contra hnot
    obtain ⟨hheld, hrow⟩ := not_or.1 hnot
    obtain ⟨r, hr⟩ := Option.ne_none_iff_exists'.1 hrow
    have hsame := hown d s' hd h hheld
    obtain ⟨-, -, ⟨-, hq⟩ | ⟨delayS, now, -, hq⟩⟩ := step_settle hd h
    · have hgone : s'.queue.find d.jobId = none := by rw [hq, find_ack, if_pos rfl]
      rw [hsame, hr] at hgone
      cases hgone
    · have hback : s'.queue.find d.jobId = some { r with
          status := .queued, workerId := none, availableAt := now + delayS, attempts := r.attempts + 1 } := by
        rw [hq, find_retry, if_pos rfl, hr, Option.map_some]
      rw [hsame, hr] at hback
      have hcount := congrArg Row.attempts (Option.some.inj hback)
      exact absurd hcount (Nat.ne_of_lt (Nat.lt_succ_self _))
  · intro hissued d s'' hd hstep hheld
    rcases hissued d hd with hholds | hrow
    · exact absurd hholds hheld
    · obtain ⟨-, -, ⟨-, hq⟩ | ⟨delayS, now, -, hq⟩⟩ := step_settle hd hstep
      · exact hq.trans (Table.deleteKey_of_find_none hrow)
      · exact hq.trans (Table.updateKey_of_find_none hrow)

/-! ### No job is lost -/

theorem isSome_find_step (hissued : IssuedByHolder s a) (h : step cfg s a = some s')
    (hj : (s.queue.find j).isSome) : (s'.queue.find j).isSome ∨ ∃ d, a = .ack d ∧ s.Holds d ∧ d.jobId = j := by
  cases a with
  | enqueue j' payload now =>
    obtain ⟨-, rfl⟩ := step_enqueue h
    left
    rw [enqueue, Table.find_insertOrReplace]
    split_ifs
    · rfl
    · exact hj
  | reclaim now later =>
    obtain rfl := step_reclaim h
    left
    rwa [isSome_find_reclaim]
  | dequeue w j' now =>
    obtain ⟨r, -, -, rfl⟩ := step_dequeue h
    left
    rw [take, find_deliver]
    split_ifs
    · rwa [Option.isSome_map]
    · exact hj
  | ack d =>
    obtain ⟨-, -, ⟨-, hq⟩ | ⟨_, _, hretry, -⟩⟩ := step_settle rfl h
    · by_cases hd : j = d.jobId
      · right
        rcases hissued d rfl with hheld | hrow
        · exact ⟨d, rfl, hheld, hd.symm⟩
        · rw [← hd] at hrow
          rw [hrow] at hj
          cases hj
      · left
        rwa [hq, find_ack, if_neg hd]
    · cases hretry
  | retry d delayS now =>
    obtain ⟨-, -, ⟨hack, -⟩ | ⟨_, _, -, hq⟩⟩ := step_settle rfl h
    · cases hack
    · left
      rw [hq, find_retry]
      split_ifs
      · rwa [Option.isSome_map]
      · exact hj
  | crash w =>
    cases h
    exact .inl hj

def AckedByHolder (cfg : Config W T P) (acts : List (Act J W T P)) (s : Workers J W T P) (j : J) : Prop :=
  ∃ before d after s₁, acts = before ++ .ack d :: after ∧ Run.run (step cfg) before s = some s₁ ∧ s₁.Holds d ∧
    d.jobId = j

theorem AckedByHolder.cons (hstep : step cfg s a = some s₁) (h : AckedByHolder cfg acts s₁ j) :
    AckedByHolder cfg (a :: acts) s j := by
  obtain ⟨before, d, after, s₂, rfl, hrun, hheld, hj⟩ := h
  exact ⟨a :: before, d, after, s₂, rfl, run_cons.2 ⟨s₁, hstep, hrun⟩, hheld, hj⟩

theorem isSome_find_run (hissued : Along (step cfg) IssuedByHolder acts s) (hrun : Run.run (step cfg) acts s = some s')
    (hj : (s.queue.find j).isSome) : (s'.queue.find j).isSome ∨ AckedByHolder cfg acts s j := by
  induction acts generalizing s with
  | nil =>
    cases hrun
    exact .inl hj
  | cons a acts ih =>
    obtain ⟨s₁, hstep, hrest⟩ := run_cons.1 hrun
    rcases isSome_find_step hissued.1 hstep hj with hj₁ | ⟨d, rfl, hheld, hd⟩
    · exact (ih (hissued.2 s₁ hstep) hrest hj₁).imp_right (AckedByHolder.cons hstep)
    · exact .inr ⟨[], d, acts, s, rfl, rfl, hheld, hd⟩

theorem enqueued_kept (hissued : Along (step cfg) IssuedByHolder acts s)
    (hrun : Run.run (step cfg) acts s = some s') (hmem : .enqueue j payload t ∈ acts) :
    (s'.queue.find j).isSome ∨ AckedByHolder cfg acts s j := by
  induction acts generalizing s with
  | nil => cases hmem
  | cons a acts ih =>
    obtain ⟨s₁, hstep, hrest⟩ := run_cons.1 hrun
    refine Or.imp_right (AckedByHolder.cons hstep) ?_
    rcases List.mem_cons.1 hmem with rfl | hmem
    · obtain ⟨-, hs₁⟩ := step_enqueue hstep
      have hj : (s₁.queue.find j).isSome := by rw [hs₁, enqueue, Table.find_insertOrReplace, if_pos rfl]; rfl
      exact isSome_find_run (hissued.2 s₁ hstep) hrest hj
    · exact ih (hissued.2 s₁ hstep) hrest hmem

/-! ### A holder keeps its job -/

def Undisturbed (cfg : Config W T P) (d : Delivery J W) (s : Workers J W T P) (a : Act J W T P) : Prop :=
  a.settles ≠ some d ∧
    ∀ now later r, a = .reclaim now later → s.queue.find d.jobId = some r → ¬ Stale cfg now r

theorem Holds.congr (h : s.Holds d) (hq : s'.queue.find d.jobId = s.queue.find d.jobId)
    (hd : s'.last d.jobId = s.last d.jobId) : s'.Holds d := by
  obtain ⟨hlast, hrow⟩ := h
  exact ⟨hd.trans hlast, hq ▸ hrow⟩

theorem Holds.step (h : s.Holds d) (hissued : IssuedByHolder s a) (hsame : Undisturbed cfg d s a)
    (hstep : step cfg s a = some s') : s'.Holds d := by
  obtain ⟨hlast, r, hr, hflight, hworker⟩ := h
  have hheld : s.Holds d := ⟨hlast, r, hr, hflight, hworker⟩
  cases hsettles : a.settles with
  | some d' =>
    -- another delivery settles only a job of its own
    have hne : d.jobId ≠ d'.jobId := by
      intro hj
      rcases hissued d' hsettles with ⟨hlast', -⟩ | hrow
      · rw [← hj, hlast] at hlast'
        exact hsame.1 (hsettles.trans hlast'.symm)
      · rw [← hj, hr] at hrow
        cases hrow
    obtain ⟨-, hd, ⟨-, hq⟩ | ⟨delayS, now, -, hq⟩⟩ := step_settle hsettles hstep
    · exact hheld.congr (by rw [hq, find_ack, if_neg hne]) (by rw [last, hd, last])
    · exact hheld.congr (by rw [hq, find_retry, if_neg hne]) (by rw [last, hd, last])
  | none =>
    cases a with
    | enqueue j payload now =>
      obtain ⟨hfresh, rfl⟩ := step_enqueue hstep
      have hne : j ≠ d.jobId := by
        rintro rfl
        rw [hr] at hfresh
        cases hfresh
      refine hheld.congr ?_ rfl
      rw [enqueue, Table.find_insertOrReplace, if_neg hne]
    | reclaim now later =>
      obtain rfl := step_reclaim hstep
      refine hheld.congr ?_ rfl
      exact (find_reclaim_of_not_stale hr (hsame.2 now later r rfl hr)).trans hr.symm
    | dequeue w j now =>
      obtain ⟨r', hr', ⟨hqueued, -, -⟩, rfl⟩ := step_dequeue hstep
      have hne : d.jobId ≠ j := by
        rintro rfl
        cases hr.symm.trans hr'
        rw [hqueued] at hflight
        cases hflight
      refine hheld.congr ?_ ?_
      · rw [take, find_deliver, if_neg hne]
      · simp only [last, take]
        exact List.find?_cons_of_neg (by simpa using Ne.symm hne)
    | crash w =>
      cases hstep
      exact hheld
    | ack | retry => cases hsettles

theorem Holds.run (h : s.Holds d) (hissued : Along (Workers.step cfg) IssuedByHolder acts s)
    (hsame : Along (Workers.step cfg) (Undisturbed cfg d) acts s) (hrun : Run.run (Workers.step cfg) acts s = some s') :
    s'.Holds d := by
  induction acts generalizing s with
  | nil =>
    cases hrun
    exact h
  | cons a acts ih =>
    obtain ⟨s₁, hstep, hrest⟩ := run_cons.1 hrun
    exact ih (h.step hissued.1 hsame.1 hstep) (hissued.2 s₁ hstep) (hsame.2 s₁ hstep) hrest

/-! ### Result -/

/-- In these runs a job that was enqueued is in the queue until its holder acknowledges it, and stays with its holder
until the holder settles it or the lease runs out. -/
theorem settles_own_delivery_iff (hrun : Run.run (step cfg) acts start = some s) :
    (Along (step cfg) (ActsOnOwn cfg) acts start ↔ Along (step cfg) IssuedByHolder acts start) ∧
      (Along (step cfg) IssuedByHolder acts start →
        (∀ j payload now, .enqueue j payload now ∈ acts →
          (s.queue.find j).isSome ∨ AckedByHolder cfg acts start j) ∧
        ∀ before after s₁ d, acts = before ++ after → Run.run (step cfg) before start = some s₁ → s₁.Holds d →
          Along (step cfg) (Undisturbed cfg d) after s₁ → s.Holds d) := by
  refine ⟨?_, fun hissued => ⟨?_, ?_⟩⟩
  · exact along_iff (I := fun _ => True) trivial (fun _ _ _ _ _ _ => trivial)
      (fun s a s' _ hstep => actsOnOwn_iff hstep) hrun
  · intro j payload now hmem
    exact enqueued_kept hissued hrun hmem
  · rintro before after s₁ d rfl hbefore hheld hsame
    have hafter : Run.run (step cfg) after s₁ = some s := by rwa [Run.run_append, hbefore] at hrun
    exact hheld.run (along_append hissued hbefore) hsame hafter

def defaults : Config Nat Int Unit := ⟨true, 900, fun _ => none⟩

theorem settles_own_delivery_late : let acts : List (Act Nat Nat Int Unit) :=
      [.enqueue 1 () 0, .dequeue 7 1 5, .reclaim 905 905, .dequeue 8 1 905, .ack ⟨1, 8, 1⟩, .retry ⟨0, 7, 1⟩ 1 906]
    (Run.run (step defaults) acts start).isSome = true ∧ Along (step defaults) (ActsOnOwn defaults) acts start := by
  intro acts
  have hrun : (Run.run (step defaults) acts start).isSome = true := by decide +kernel
  obtain ⟨s, hs⟩ := Option.isSome_iff_exists.1 hrun
  have hissued : Along (step defaults) IssuedByHolder acts start := by decide +kernel
  exact ⟨hrun, (settles_own_delivery_iff hs).1.2 hissued⟩

def reassigned : Workers Nat Nat Int Unit where
  queue := deliver 8 1 (reclaimStaleInflight defaults 905 905 (deliver 7 1 (enqueue defaults 1 () 0 Table.empty)))
  deliveries := [⟨1, 8, 1⟩, ⟨0, 7, 1⟩]
  working := [⟨1, 8, 1⟩, ⟨0, 7, 1⟩]

/-- Worker 8 holds job 1. The late `ack` of worker 7 takes it out of the queue, and its late `retry` hands it to
worker 9. -/
theorem late_settle_hits_other_holder :
    Run.run (step defaults) [.enqueue 1 () 0, .dequeue 7 1 5, .reclaim 905 905, .dequeue 8 1 905] start =
        some reassigned ∧
      reassigned.Holds ⟨1, 8, 1⟩ ∧ ¬ reassigned.Holds ⟨0, 7, 1⟩ ∧
      ((step defaults reassigned (.ack ⟨0, 7, 1⟩)).map fun s => s.queue.find 1) = some none ∧
      (Run.run (step defaults) [.retry ⟨0, 7, 1⟩ 1 906, .dequeue 9 1 907] reassigned).isSome = true := by
  refine ⟨rfl, ?_, ?_, ?_, ?_⟩ <;> decide +kernel

end Workers

end Korith.Queue
