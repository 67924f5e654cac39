import Korith.Platform.SqliteQueue
import Mathlib.Algebra.Order.Ring.Int
import Mathlib.Tactic.Linarith

/-!
# Leases of the job queue

A job that a worker has taken comes back when its `available_at` is older than the stale window. `dequeue` leaves
`available_at` as it is, so that the lease runs from the time at which the job became available and not from its
delivery.
-/

set_option linter.unusedSectionVars false

namespace Korith.Queue

variable {J W T P : Type} [DecidableEq J] [DecidableEq W] [CommRing T] [LinearOrder T] [IsStrictOrderedRing T]
  {cfg : Config W T P} {q q' q₁ q₂ : SQLiteQueue J W T P} {ev : Event J W T P} {evs : List (Event J W T P)}
  {j : J} {w w' : W} {r : Row J W T P} {since t t' : T}

theorem Config.staleS_pos (cfg : Config W T P) : 0 < cfg.staleS := lt_of_lt_of_le zero_lt_one (le_max_left ..)

/-! ### One event -/

/-- Job `j` is in flight and was available from `since` on, or it came back after a stale window. -/
def Held (cfg : Config W T P) (j : J) (since : T) (q : SQLiteQueue J W T P) : Prop :=
  ∃ r, q.find j = some r ∧
    (r.status = .inflight ∧ r.availableAt = since ∨ since + cfg.staleS ≤ r.availableAt)

theorem step_dequeue (h : step cfg q (.dequeue w j t) = some q') :
    ∃ r, q.find j = some r ∧ Selects w t q r ∧ q' = deliver w j q := by
  simp only [step] at h
  split at h
  · next r hr =>
    split_ifs at h with hsel
    exact ⟨r, hr, hsel, (Option.some.inj h).symm⟩
  · cases h

theorem jobId_ne {j' : J} (hr : q.find j = some r) (hne : j' ≠ j) : ¬ r.jobId = j' := fun heq =>
  hne (heq.symm.trans (Table.find_eq_some_iff.1 hr).2)

variable (h : Held cfg j since q)

include h

theorem Held.reclaim (hclock : t ≤ t') : Held cfg j since (reclaimStaleInflight cfg t t' q) := by
  unfold reclaimStaleInflight
  split_ifs
  · obtain ⟨r, hr, hcase⟩ := h
    rw [Held, Table.find_updateWhere, hr, Option.map_some]
    refine ⟨_, rfl, ?_⟩
    split_ifs with hstale
    · -- a job that comes back was available a stale window ago
      rw [decide_eq_true_eq] at hstale
      refine .inr ?_
      have hpos := cfg.staleS_pos
      show since + cfg.staleS ≤ t'
      rcases hcase with ⟨-, hsince⟩ | hlate <;> linarith [hstale.2]
    · exact hcase
  · exact h

theorem Held.step (hstep : step cfg q ev = some q') (hs : ¬ ev.Settles j)
    (hclock : ev.readings.Pairwise (· ≤ ·)) : Held cfg j since q' := by
  cases ev with
  | enqueue j' payload now =>
    simp only [Queue.step] at hstep
    split_ifs at hstep with hfresh
    cases hstep
    obtain ⟨r, hr, hcase⟩ := h
    have hne : j' ≠ j := by
      rintro rfl
      rw [hr] at hfresh
      cases hfresh
    refine ⟨r, ?_, hcase⟩
    rw [enqueue, Table.find_insertOrReplace, if_neg hne, hr]
  | reclaim now later =>
    cases hstep
    exact h.reclaim (List.rel_of_pairwise_cons hclock (List.mem_singleton_self _))
  | dequeue w' j' now =>
    obtain ⟨-, -, -, rfl⟩ := step_dequeue hstep
    obtain ⟨r, hr, hcase⟩ := h
    rw [Held, deliver, Table.find_updateWhere, hr, Option.map_some]
    refine ⟨_, rfl, ?_⟩
    split_ifs
    · exact hcase.imp (fun hflight => ⟨rfl, hflight.2⟩) id
    · exact hcase
  | ack j' =>
    cases hstep
    obtain ⟨r, hr, hcase⟩ := h
    refine ⟨r, ?_, hcase⟩
    rw [ack, Table.find_deleteWhere, hr, Option.filter_some, if_pos (by simp [jobId_ne hr hs])]
  | retry j' delayS now =>
    cases hstep
    obtain ⟨r, hr, hcase⟩ := h
    refine ⟨r, ?_, hcase⟩
    rw [retry, Table.find_updateWhere, hr, Option.map_some, if_neg (by simp [jobId_ne hr hs])]

theorem Held.run (hrun : run cfg evs q = some q') (hs : ∀ ev ∈ evs, ¬ ev.Settles j)
    (hclock : (evs.flatMap Event.readings).Pairwise (· ≤ ·)) : Held cfg j since q' := by
  have halong : Run.Along (Queue.step cfg) (fun _ ev => ¬ ev.Settles j ∧ ev.readings.Pairwise (· ≤ ·)) evs q :=
    Run.along_of_forall fun ev hev _ => ⟨hs ev hev, (List.pairwise_flatMap.1 hclock).1 ev hev⟩
  exact halong.inv (I := Held cfg j since) h (fun _ _ _ hheld hev hstep => hheld.step hstep hev.1 hev.2) hrun

theorem Held.dequeue (hstep : Queue.step cfg q (.dequeue w j t) = some q') : since + cfg.staleS ≤ t := by
  obtain ⟨r, hr, hcase⟩ := h
  obtain ⟨r', hr', ⟨⟨hqueued, hle, -⟩, -⟩, -⟩ := step_dequeue hstep
  cases hr.symm.trans hr'
  rcases hcase with ⟨hflight, -⟩ | hlate
  · rw [hqueued] at hflight
    cases hflight
  · exact hlate.trans hle

omit h

theorem held_deliver (hr : q.find j = some r) : Held cfg j r.availableAt (deliver w j q) := by
  obtain ⟨-, hj⟩ := Table.find_eq_some_iff.1 hr
  rw [Held, deliver, Table.find_updateWhere, hr, Option.map_some, if_pos (by simp [hj])]
  exact ⟨_, rfl, .inl ⟨rfl, rfl⟩⟩

/-! ### A lease that ends early -/

theorem run_acks (js : List J) :
    run cfg (js.map Event.ack) q = some (q.deleteWhere fun r => decide (r.jobId ∈ js)) := by
  induction js generalizing q with
  | nil =>
    show some q = _
    congr 1
    cases q
    simp [Table.deleteWhere]
  | cons j js ih =>
    rw [List.map_cons, run, Run.run, step, Option.bind_some]
    refine ih.trans ?_
    congr 1
    simp only [ack, Table.deleteWhere, List.filter_filter, List.mem_cons]
    congr 1
    refine List.filter_congr fun r _ => ?_
    by_cases hj : r.jobId = j <;> simp [hj]

/-- Another event hands out `j` at `t'`, behind events that do not settle it. -/
def Redelivered (cfg : Config W T P) (q : SQLiteQueue J W T P) (j : J) (t t' : T) : Prop :=
  ∃ evs w q₁ q₂, Clocked t (evs ++ [.dequeue w j t']) ∧ (∀ ev ∈ evs, ¬ ev.Settles j) ∧
    run cfg evs q = some q₁ ∧ step cfg q₁ (.dequeue w j t') = some q₂

/-- All other jobs are acknowledged, and the worker asks again as soon as the job counts as stale. -/
theorem redelivered_early (hreclaim : cfg.reclaimInflight = true) (hr : q.find j = some r)
    (hsel : Deliverable w t r) : Redelivered cfg (deliver w j q) j t (max t (r.availableAt + cfg.staleS)) := by
  obtain ⟨hmem, hj⟩ := Table.find_eq_some_iff.1 hr
  obtain ⟨-, -, htarget⟩ := hsel
  set τ := max t (r.availableAt + cfg.staleS) with hτ
  set q' := deliver w j q with hq'
  -- the row of the job behind the delivery, and behind the reclaim
  set r₁ : Row J W T P := { r with status := .inflight, workerId := some w } with hr₁
  set r₂ : Row J W T P := { r₁ with status := .queued, workerId := none, availableAt := τ } with hr₂
  have hr₁q : q'.find j = some r₁ := by
    rw [hq', deliver, Table.find_updateWhere, hr, Option.map_some, if_pos (by simp [hj])]
  set others := (q'.rows.map Row.jobId).filter (fun j' => decide (j' ≠ j)) with hothers
  set q₁ := q'.deleteWhere fun r => decide (r.jobId ∈ others) with hq₁
  set q₂ := reclaimStaleInflight cfg τ τ q₁ with hq₂
  have honly : ∀ r' ∈ q₂.rows, r'.jobId = j := by
    have honly₁ : ∀ r' ∈ q₁, r'.jobId = j := by
      intro r' hr'
      obtain ⟨hr', hnot⟩ := Table.mem_deleteWhere.1 hr'
      by_contra hne
      have : r'.jobId ∈ others := List.mem_filter.2 ⟨List.mem_map_of_mem hr', by simpa using hne⟩
      simp [this] at hnot
    intro r' hr'
    rw [hq₂, reclaimStaleInflight, if_pos hreclaim] at hr'
    rcases Table.mem_updateWhere.1 hr' with ⟨hr', -⟩ | ⟨r₀, hr₀, -, rfl⟩
    · exact honly₁ r' hr'
    · exact honly₁ r₀ hr₀
  have hr₂q : q₂.find j = some r₂ := by
    have hkept : q₁.find j = some r₁ := by
      rw [hq₁, Table.find_deleteWhere, hr₁q, Option.filter_some, if_pos]
      have : j ∉ others := fun h => by simpa using (List.mem_filter.1 h).2
      simp [hr₁, hj, this]
    have hstale : r.availableAt ≤ τ - cfg.staleS := by linarith [le_max_right t (r.availableAt + cfg.staleS)]
    rw [hq₂, reclaimStaleInflight, if_pos hreclaim, Table.find_updateWhere, hkept, Option.map_some,
      if_pos (by simp [hr₁, hstale])]
  have hsel₂ : Selects w τ q₂ r₂ := by
    refine ⟨⟨rfl, le_refl τ, htarget⟩, fun r' hr' _ => ?_⟩
    have : r' = r₂ := Table.eq_of_key hr' (Table.find_eq_some_iff.1 hr₂q).1 ((honly r' hr').trans hj.symm)
    rw [this]
  refine ⟨others.map Event.ack ++ [.reclaim τ τ], w, q₂, deliver w j q₂, ?_, ?_, ?_, ?_⟩
  · have hreadings : (others.map (Event.ack (W := W) (T := T) (P := P))).flatMap Event.readings = [] := by
      simp [List.flatMap_map, Event.readings]
    rw [Clocked, List.flatMap_append, List.flatMap_append, hreadings]
    simp [Event.readings, hτ]
  · intro ev hev
    rcases List.mem_append.1 hev with hev | hev
    · obtain ⟨j', hj', rfl⟩ := List.mem_map.1 hev
      have : j' ≠ j := by simpa using (List.mem_filter.1 hj').2
      exact this
    · rw [List.mem_singleton.1 hev]
      exact id
  · rw [run, Run.run_append, ← run, run_acks]
    rfl
  · simp only [step, hr₂q, if_pos hsel₂]

/-! ### Result -/

/-- Not before `a` plus the stale window, whatever the workers do apart from settling it; and for the whole window
after `t` exactly if `a = t`. -/
theorem dequeue_exclusive_iff (hreclaim : cfg.reclaimInflight = true) (hr : q.find j = some r)
    (hdeliver : step cfg q (.dequeue w j t) = some q') :
    (∀ t', Redelivered cfg q' j t t' → r.availableAt + cfg.staleS ≤ t') ∧
      ((∀ t', Redelivered cfg q' j t t' → t + cfg.staleS ≤ t') ↔ r.availableAt = t) := by
  obtain ⟨r', hr', hsel, rfl⟩ := step_dequeue hdeliver
  cases hr.symm.trans hr'
  have hlease : ∀ t', Redelivered cfg (deliver w j q) j t t' → r.availableAt + cfg.staleS ≤ t' := by
    rintro t' ⟨evs, w', q₁, q₂, hclock, hs, hrun, hstep⟩
    rw [Clocked, List.flatMap_append, List.pairwise_cons, List.pairwise_append] at hclock
    exact ((held_deliver hr).run hrun hs hclock.2.1).dequeue hstep
  refine ⟨hlease, ?_, ?_⟩
  · intro hsafe
    have hearly := hsafe _ (redelivered_early hreclaim hr hsel.1)
    refine le_antisymm hsel.1.2.1 ?_
    have hpos := cfg.staleS_pos
    rcases le_max_iff.1 hearly with h | h <;> linarith
  · rintro rfl
    exact hlease

def demoConfig : Config Nat Int Unit := ⟨true, 900, fun _ => none⟩

def demoQueue : SQLiteQueue Nat Nat Int Unit := enqueue demoConfig 1 () 5 Table.empty

theorem dequeue_exclusive_at_once : step demoConfig demoQueue (.dequeue 7 1 5) = some (deliver 7 1 demoQueue) ∧
      ∀ t', Redelivered demoConfig (deliver 7 1 demoQueue) 1 5 t' → 905 ≤ t' := by
  have hstep : step demoConfig demoQueue (.dequeue 7 1 5) = some (deliver 7 1 demoQueue) := by decide
  have hr : demoQueue.find 1 = some ⟨1, (), .queued, none, none, 5, 5, 0⟩ := by decide
  have hsafe := (dequeue_exclusive_iff rfl hr hstep).2.2 rfl
  exact ⟨hstep, hsafe⟩

/-- A job that has waited for 1000 seconds is taken by worker 7 and, one second later, by worker 8. -/
theorem backlogged_job_delivered_twice : let evs : List (Event Nat Nat Int Unit) :=
      [.enqueue 1 () 0, .reclaim 1000 1000, .dequeue 7 1 1000, .reclaim 1001 1001, .dequeue 8 1 1001]
    Clocked 0 evs ∧ (run demoConfig evs Table.empty).isSome = true ∧ 1001 < 1000 + demoConfig.staleS := by
  refine ⟨?_, ?_, ?_⟩
  · simp [Clocked, Event.readings]
  · decide
  · decide

end Korith.Queue
