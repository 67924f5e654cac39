import Korith.Lib.Run
import Korith.Platform.SqliteQueue
import Mathlib

/-!
# Which workers can take a job

`dequeue` hands out the oldest of the jobs that its worker may have, so that a job comes after the older ones. A worker
that goes on takes it in the end: what decides is whether the row is queued, and for whom.
-/

set_option linter.unusedSectionVars false

namespace Korith.Queue

variable {J W T P : Type} [DecidableEq J] [DecidableEq W] [CommRing T] [LinearOrder T] {cfg : Config W T P}
  {q q' : SQLiteQueue J W T P} {j j' : J} {r : Row J W T P} {w : W} {t : T} {target : Option W} {ev : Event J W T P}
  {evs : List (Event J W T P)} {t' : T} {payload : P}

def deliverable (w : W) (t : T) (q : SQLiteQueue J W T P) : Nat :=
  (q.rows.map fun r => if Deliverable w t r then 1 else 0).sum

theorem deliverable_deliver (hr : r ∈ q) (hdel : Deliverable w t r) :
    deliverable w t (deliver w r.jobId q) < deliverable w t q := by
  unfold deliverable
  have hrows : (deliver w r.jobId q).rows =
      q.rows.map fun r' => if decide (r'.jobId = r.jobId) then { r' with status := .inflight, workerId := some w }
        else r' := rfl
  rw [hrows, List.map_map]
  refine List.sum_lt_sum _ _ (fun r' _ => ?_) ⟨r, hr, ?_⟩
  · by_cases hj : r'.jobId = r.jobId
    · simp [hj, Deliverable]
    · simp [hj]
  · simp [Deliverable, hdel.1, hdel.2.1, hdel.2.2]

theorem exists_selects (hr : r ∈ q) (hdel : Deliverable w t r) : ∃ r₀ ∈ q, Selects w t q r₀ := by
  have hfinite : {r' | r' ∈ q.rows ∧ Deliverable w t r'}.Finite :=
    (List.finite_toSet q.rows).subset fun r' hr' => hr'.1
  obtain ⟨r₀, ⟨hmem, hdel₀⟩, hmin⟩ := Set.exists_min_image _ Row.enqueuedAt hfinite ⟨r, hr, hdel⟩
  exact ⟨r₀, hmem, hdel₀, fun r' hr' hdel' => hmin r' ⟨hr', hdel'⟩⟩

def takes (cfg : Config W T P) (w : W) (t : T) (q : SQLiteQueue J W T P) (jobId : J) : Option (SQLiteQueue J W T P) :=
  step cfg q (.dequeue w jobId t)

theorem takes_eq_some (h : takes cfg w t q j = some q') :
    ∃ r, q.find j = some r ∧ Selects w t q r ∧ q' = deliver w j q := by
  simp only [takes, step] at h
  split at h
  · rename_i r hr
    split_ifs at h with hsel
    exact ⟨r, hr, hsel, (Option.some.inj h).symm⟩
  · cases h

def CanTake (cfg : Config W T P) (q : SQLiteQueue J W T P) (w : W) (jobId : J) : Prop :=
  ∃ t js q', Run.run (takes cfg w t) js q = some q' ∧ jobId ∈ js

def OpenTo (q : SQLiteQueue J W T P) (w : W) (jobId : J) : Prop :=
  ∃ r, q.find jobId = some r ∧ r.status = .queued ∧ (r.targetWorkerId = none ∨ r.targetWorkerId = some w)

theorem not_openTo_takes (hq : ¬ OpenTo q w j) (h : takes cfg w t q j' = some q') : ¬ j' = j ∧ ¬ OpenTo q' w j := by
  obtain ⟨r, hfind, hsel, rfl⟩ := takes_eq_some h
  have hne : j' ≠ j := by
    rintro rfl
    exact hq ⟨r, hfind, hsel.1.1, hsel.1.2.2⟩
  refine ⟨hne, ?_⟩
  rintro ⟨r', hfind', hopen⟩
  rw [find_deliver, if_neg hne.symm] at hfind'
  exact hq ⟨r', hfind', hopen⟩

theorem canTake_iff : CanTake cfg q w j ↔ OpenTo q w j := by
  constructor
  · rintro ⟨t, js, q', hrun, hj⟩
    by_contra hnot
    exact Run.not_hit_of_run (fun _ _ _ hq h => not_openTo_takes hq h) hnot hrun j hj rfl
  · rintro ⟨r, hfind, hstatus, htarget⟩
    -- as long as the row is there, the worker takes it or an older one
    have hnext : ∀ q : SQLiteQueue J W T P, q.find j = some r → ∃ j' q', takes cfg w r.availableAt q j' = some q' ∧
        True ∧ (j' = j ∨ (q'.find j = some r ∧
          deliverable w r.availableAt q' < deliverable w r.availableAt q)) := by
      intro q hfind
      obtain ⟨hmem, -⟩ := Table.find_eq_some_iff.1 hfind
      obtain ⟨r₀, hmem₀, hsel⟩ := exists_selects hmem ⟨hstatus, le_rfl, htarget⟩
      have htakes : takes cfg w r.availableAt q r₀.jobId = some (deliver w r₀.jobId q) := by
        have hfind₀ : q.find r₀.jobId = some r₀ := Table.find_eq_some_iff.2 ⟨hmem₀, rfl⟩
        simp only [takes, step, hfind₀]
        exact if_pos hsel
      refine ⟨r₀.jobId, _, htakes, trivial, ?_⟩
      by_cases hj : r₀.jobId = j
      · exact .inl hj
      · refine .inr ⟨?_, deliverable_deliver hmem₀ hsel.1⟩
        rw [find_deliver, if_neg (Ne.symm hj), hfind]
    obtain ⟨js, q', hrun, -, j', hj', rfl⟩ := Run.exists_hit _ hnext hfind
    exact ⟨r.availableAt, js, q', hrun, hj'⟩

/-! ### The worker that a row names -/

def Names (q : SQLiteQueue J W T P) (jobId : J) (target : Option W) : Prop :=
  ∀ r, q.find jobId = some r → r.targetWorkerId = target

theorem names_enqueue : Names (enqueue cfg j payload t q) j (cfg.targetWorkerId payload) := by
  intro r hr
  rw [find_enqueue, if_pos rfl] at hr
  cases hr
  rfl

theorem openTo_enqueue_iff : OpenTo (enqueue cfg j payload t q) w j ↔
    cfg.targetWorkerId payload = none ∨ cfg.targetWorkerId payload = some w := by
  simp [OpenTo, find_enqueue]

variable (h : Names q j target)

include h

theorem Names.of_map {f : Row J W T P → Row J W T P} (hfind : q'.find j = (q.find j).map f)
    (hf : ∀ r, (f r).targetWorkerId = r.targetWorkerId) : Names q' j target := by
  intro r hr
  rw [hfind] at hr
  obtain ⟨r₀, hr₀, rfl⟩ := Option.map_eq_some_iff.1 hr
  rw [hf, h r₀ hr₀]

theorem Names.of_find_eq (hfind : q'.find j = q.find j) : Names q' j target :=
  fun r hr => h r (hfind ▸ hr)

theorem Names.step (hstep : step cfg q ev = some q') (hev : ∀ payload t, ev ≠ .enqueue j payload t) :
    Names q' j target := by
  cases ev with
  | enqueue j' payload t =>
    simp only [Queue.step] at hstep
    split_ifs at hstep
    cases hstep
    have hne : j' ≠ j := by
      rintro rfl
      exact hev payload t rfl
    exact h.of_find_eq (find_enqueue.trans (if_neg hne))
  | reclaim t t' =>
    cases hstep
    refine h.of_map find_reclaim fun r => ?_
    split_ifs <;> rfl
  | dequeue w j' t =>
    obtain ⟨r, -, -, rfl⟩ := takes_eq_some hstep
    by_cases hj : j = j'
    · exact h.of_map (find_deliver.trans (if_pos hj)) fun _ => rfl
    · exact h.of_find_eq (find_deliver.trans (if_neg hj))
  | ack j' =>
    cases hstep
    intro r hr
    rw [find_ack] at hr
    split_ifs at hr
    exact h r hr
  | retry j' d t =>
    cases hstep
    by_cases hj : j = j'
    · exact h.of_map (find_retry.trans (if_pos hj)) fun _ => rfl
    · exact h.of_find_eq (find_retry.trans (if_neg hj))

theorem Names.run (hrun : run cfg evs q = some q')
    (hevs : ∀ payload t, .enqueue j payload t ∉ evs) : Names q' j target := by
  have halong : Run.Along (Queue.step cfg) (fun _ ev => ∀ payload t, ev ≠ .enqueue j payload t) evs q :=
    Run.along_of_forall fun ev hev _ payload t heq => hevs payload t (heq ▸ hev)
  exact halong.inv (I := fun q => Names q j target) h (fun _ _ _ hnames hev hstep => hnames.step hstep hev) hrun

theorem openTo_reclaim_iff (hr : q.find j = some r) (hlease : r.status = .queued ∨ Stale cfg t r) :
    OpenTo (reclaimStaleInflight cfg t t' q) w j ↔ target = none ∨ target = some w := by
  rw [← h r hr, OpenTo, find_reclaim, hr]
  by_cases hstale : Stale cfg t r
  · simp [hstale]
  · have hqueued : r.status = .queued := hlease.resolve_right hstale
    simp [hstale, hqueued]

end Korith.Queue
