import Korith.Proofs.SchedulerDepth

/-!
# The simplified interface of the scheduler

`korith_scheduler_update` starts every call with counters of zero. To such a call the last change is one step ago, it is
never the turn of a probe, and no streak of misses is long. So only forced changes take place, and these lead to a depth of
at most 2 (`restarted_mem`). A call on a persistent state returns the same depth exactly if its counters do not decide
(`CountersDecide`).
-/

namespace Korith.Scheduler

open FloatArith Machine

variable {F : Type} [FloatArith F] {s : State} {i : Input F} {x : Signals F} {lane : LaneClass} {depth ready : Int}
  {missStreak : BitVec 32}

/-! ### What a lane asks for -/

def Starved (x : Signals F) (lane : LaneClass) (missStreak : BitVec 32) : Prop :=
  lane = .miss ∧ 95 ≤ missStreak.toNat ∧ ge x.acceptance (hundredths 60) = true ∧ ge (hundredths 70) x.entropy = true

theorem guard_iff (h : missStreak.toNat ≤ 255) :
    (96 : BitVec 32) ≤ (if 255 < missStreak + 1 then 255 else missStreak + 1) ↔ 95 ≤ missStreak.toNat := by
  split_ifs <;> bv_omega

theorem propose_of_starved (h : missStreak.toNat ≤ 255) (hs : Starved x lane missStreak) :
    propose x lane depth missStreak = ⟨3, true, 0⟩ := by
  obtain ⟨rfl, hstreak, hacc, hent⟩ := hs
  simp only [propose]
  rw [if_pos ⟨(guard_iff h).2 hstreak, hacc, hent⟩]

theorem zero_le_255 : (0 : BitVec 32).toNat ≤ 255 := by decide

theorem not_starved_zero : ¬ Starved x lane 0 := fun h => absurd h.2.1 (by decide)

theorem propose_miss (depth : Int) (h : missStreak.toNat ≤ 255) (hs : ¬ Starved x .miss missStreak) :
    (propose x .miss depth missStreak).depth =
      (if lt x.acceptance (hundredths 50) || lt (hundredths 85) x.entropy || lt x.tpsDelta (negHundredths 10) then 2
      else min depth 3) ∧ (propose x .miss depth missStreak).forceDown = true := by
  have hguard : ¬ ((96 : BitVec 32) ≤ (if 255 < missStreak + 1 then 255 else missStreak + 1) ∧
      ge x.acceptance (hundredths 60) = true ∧ ge (hundredths 70) x.entropy = true) :=
    fun hg => hs ⟨rfl, (guard_iff h).1 hg.1, hg.2⟩
  simp only [propose]
  rw [if_neg hguard]
  exact ⟨rfl, rfl⟩

theorem propose_of_not_starved (depth : Int) (h : missStreak.toNat ≤ 255) (hs : ¬ Starved x lane missStreak) :
    (propose x lane depth missStreak).depth = (propose x lane depth 0).depth ∧
      (propose x lane depth missStreak).forceDown = (propose x lane depth 0).forceDown := by
  cases lane with
  | specHit => exact ⟨rfl, rfl⟩
  | hit => exact ⟨rfl, rfl⟩
  | miss =>
    obtain ⟨hdepth, hforce⟩ := propose_miss depth h hs
    obtain ⟨hdepth₀, hforce₀⟩ := propose_miss depth zero_le_255 (not_starved_zero (x := x))
    exact ⟨hdepth.trans hdepth₀.symm, hforce.trans hforce₀.symm⟩

theorem propose_zero_mem (x : Signals F) (lane : LaneClass) (hlo : 1 ≤ depth) (hhi : depth ≤ 2) :
    ((propose x lane depth 0).forceDown = true →
      1 ≤ (propose x lane depth 0).depth ∧ (propose x lane depth 0).depth ≤ 2) ∧
    ((propose x lane depth 0).forceDown = false → depth ≤ (propose x lane depth 0).depth) := by
  cases lane with
  | specHit =>
    simp only [propose]
    split_ifs <;> simp only [false_imp_iff, true_imp_iff, true_and, and_true] <;> omega
  | hit =>
    simp only [propose]
    split_ifs <;> simp only [false_imp_iff, true_imp_iff, true_and, and_true] <;> omega
  | miss =>
    obtain ⟨hdepth, hforce⟩ := propose_miss depth zero_le_255 (not_starved_zero (x := x))
    rw [hdepth, hforce]
    refine ⟨fun _ => ?_, fun h => by cases h⟩
    split_ifs <;> omega

/-! ### A call with counters of zero -/

def forced (s : State) (i : Input F) : Bool :=
  (propose (signals i) (classifyLane (signals i)) (clampCInt s.speculativeDepth 1 16)
    (unpackCounters s.batchSize).missStreak).forceDown

theorem decision_forceDown : (decision s i).forceDown = (forced s i && !(decision s i).probed) := rfl

theorem unpackCounters_zero : unpackCounters 0 = ⟨0, 0, 0⟩ := by
  simp [unpackCounters]

def restarted (depth : Int) (i : Input F) : Int :=
  if forced ⟨depth, 0, 1⟩ i then laneDepth ⟨depth, 0, 1⟩ i else depth

section Restarted

variable (hlo : 1 ≤ depth) (hhi : depth ≤ 2)
include hlo hhi

theorem laneDepth_zero : (forced ⟨depth, 0, 1⟩ i = true → 1 ≤ laneDepth ⟨depth, 0, 1⟩ i ∧ laneDepth ⟨depth, 0, 1⟩ i ≤ 2) ∧
    (forced ⟨depth, 0, 1⟩ i = false → depth ≤ laneDepth ⟨depth, 0, 1⟩ i) := by
  have hclamp : clampCInt depth 1 16 = depth := clampCInt_of_mem hlo (by omega)
  have hmem := propose_zero_mem (signals i) (classifyLane (signals i)) hlo hhi
  obtain ⟨hcap, -⟩ := (classifyLane (signals i)).cap_mem
  have hforced : forced ⟨depth, 0, 1⟩ i = (propose (signals i) (classifyLane (signals i)) depth 0).forceDown := by
    rw [forced, hclamp, unpackCounters_zero]
  have hdepth : laneDepth ⟨depth, 0, 1⟩ i =
      clampCInt (propose (signals i) (classifyLane (signals i)) depth 0).depth 1 (classifyLane (signals i)).cap := by
    rw [laneDepth, hclamp, unpackCounters_zero]
  rw [hforced, hdepth]
  refine ⟨fun h => ?_, fun h => ?_⟩
  · obtain ⟨h₁, h₂⟩ := hmem.1 h
    rw [clampCInt_of_mem h₁ (by omega)]
    exact ⟨h₁, h₂⟩
  · have := hmem.2 h
    unfold clampCInt
    split_ifs <;> omega

theorem restarted_mem : 1 ≤ restarted depth i ∧ restarted depth i ≤ 2 := by
  unfold restarted
  split_ifs with h
  · exact (laneDepth_zero hlo hhi).1 h
  · exact ⟨hlo, hhi⟩

end Restarted

theorem decision_zero (depth ready : Int) (i : Input F) :
    (decision ⟨depth, 0, ready⟩ i).probed = false ∧ (decision ⟨depth, 0, ready⟩ i).delta < 32 := by
  have hstep : (decision ⟨depth, 0, ready⟩ i).step = 1 := by
    simp [decision, unpackCounters]
  have hlast : (decision ⟨depth, 0, ready⟩ i).lastChange = 0 := by
    simp [decision, unpackCounters]
  refine ⟨?_, ?_⟩
  · rw [decision_probed, hstep]
    simp
  · rw [Decision.delta, hstep, hlast]
    decide

theorem desiredDepth_zero (hi : i.baselineReady ≠ 0) :
    (scheduleStep ⟨depth, 0, 1⟩ i).1.desiredDepth = restarted depth i := by
  have hstep := scheduleStep_stepped (s := ⟨depth, 0, 1⟩) hi
  obtain ⟨hprobed, hdelta⟩ := decision_zero depth 1 i
  have hd := decision_depth (s := ⟨depth, 0, 1⟩) (i := i)
  have hf := decision_forceDown (s := ⟨depth, 0, 1⟩) (i := i)
  rw [hprobed, if_neg Bool.false_ne_true] at hd
  rw [hprobed, Bool.not_false, Bool.and_true] at hf
  rw [hstep.stored, restarted, ← hf, ← hd]
  by_cases hheld : (decision ⟨depth, 0, 1⟩ i).Held ⟨depth, 0, 1⟩
  · rw [hstep.held hheld, hheld.1.2.2, if_neg Bool.false_ne_true]
  · rw [hstep.free hheld]
    split_ifs with hforce
    · rfl
    · by_contra hne
      exact hheld ⟨⟨hne, hprobed, by simpa using hforce⟩, hdelta⟩

/-! ### A call on a persistent state -/

/-- A change that is not forced is due, it is the turn of a probe, or the starvation guard is. -/
def CountersDecide (s : State) (i : Input F) : Prop :=
  ((decision s i).Requests s ∧ ¬ (decision s i).delta < 32) ∨ (decision s i).probed = true ∨
    Starved (signals i) (classifyLane (signals i)) (unpackCounters s.batchSize).missStreak

theorem missStreak_le : (unpackCounters s.batchSize).missStreak.toNat ≤ 255 := by
  show ((s.batchSize >>> 24) &&& 0xFF).toNat ≤ 255
  rw [toNat_and_FF]
  omega

theorem desiredDepth_eq_iff (hi : i.baselineReady ≠ 0) (hlo : 1 ≤ s.speculativeDepth) (hhi : s.speculativeDepth ≤ 2) :
    (scheduleStep s i).1.desiredDepth = restarted s.speculativeDepth i ↔ ¬ CountersDecide s i := by
  have hstep := scheduleStep_stepped (s := s) hi
  have hmem := restarted_mem (i := i) hlo hhi
  have hf := decision_forceDown (s := s) (i := i)
  have hd := decision_depth (s := s) (i := i)
  rw [hstep.stored]
  by_cases hstarved : Starved (signals i) (classifyLane (signals i)) (unpackCounters s.batchSize).missStreak
  · refine iff_of_false (fun heq => ?_) fun h => h (.inr (.inr hstarved))
    have hthree : laneDepth s i = 3 := by
      rw [laneDepth, propose_of_starved missStreak_le hstarved, hstarved.1]
      rfl
    have hprobed : (decision s i).probed = false := by
      rw [decision_probed, hthree]
      rfl
    have hforce : (decision s i).forceDown = true := by
      rw [hf, hprobed, forced, propose_of_starved missStreak_le hstarved]
      rfl
    rw [hstep.free fun hheld => Bool.false_ne_true (hheld.1.2.2.symm.trans hforce), hd, hprobed,
      if_neg Bool.false_ne_true, hthree] at heq
    omega
  · obtain ⟨hpd, hpf⟩ := propose_of_not_starved (clampCInt s.speculativeDepth 1 16) missStreak_le hstarved
    have hlane : laneDepth s i = laneDepth ⟨s.speculativeDepth, 0, 1⟩ i := by
      rw [laneDepth, laneDepth, hpd, unpackCounters_zero]
    have hforced : forced s i = forced ⟨s.speculativeDepth, 0, 1⟩ i := by
      rw [forced, forced, hpf, unpackCounters_zero]
    have hzero := laneDepth_zero (i := i) hlo hhi
    rw [← hlane, ← hforced] at hzero
    rw [restarted, ← hlane, ← hforced]
    cases hprobed : (decision s i).probed with
    | true =>
      refine iff_of_false ?_ fun h => h (.inr (.inl hprobed))
      have hone : laneDepth s i = 1 := by
        rw [decision_probed, Bool.and_eq_true, Bool.and_eq_true] at hprobed
        exact of_decide_eq_true hprobed.1.1
      rw [hstep.free fun hheld => Bool.false_ne_true (hheld.1.2.1.symm.trans hprobed), hd, hprobed, if_pos rfl]
      split_ifs with h
      · omega
      · have := hzero.2 (by simpa using h)
        omega
    | false =>
      rw [hprobed, if_neg Bool.false_ne_true] at hd
      rw [hprobed, Bool.not_false, Bool.and_true] at hf
      have hdecide : CountersDecide s i ↔ (decision s i).Requests s ∧ ¬ (decision s i).delta < 32 := by
        simp [CountersDecide, hprobed, hstarved]
      rw [hdecide, ← hd, ← hf]
      by_cases hheld : (decision s i).Held s
      · rw [hstep.held hheld, hheld.1.2.2, if_neg Bool.false_ne_true]
        exact iff_of_true rfl fun h => h.2 hheld.2
      · rw [hstep.free hheld]
        split_ifs with hforce
        · exact iff_of_true rfl fun h => Bool.false_ne_true (h.1.2.2.symm.trans hforce)
        · have hforce : (decision s i).forceDown = false := by simpa using hforce
          refine ⟨fun heq h => h.1.1 heq, fun h => ?_⟩
          by_contra hne
          have hreq : (decision s i).Requests s := ⟨hne, hprobed, hforce⟩
          exact h ⟨hreq, fun hlt => hheld ⟨hreq, hlt⟩⟩

/-! ### Runs -/

def persistentStep (s : State) (r : Reading F) : Int × State :=
  let next := korithScheduleStep (some s) (some r.input)
  (next.1.desiredDepth, next.2.getD s)

def firstState : State := { zeroState with speculativeDepth := 1 }

theorem update_eq (h₁ : 1 ≤ depth) (h₂ : depth ≤ 2) (r : Reading F) :
    korithSchedulerUpdate depth r = (restarted depth r.input, restarted depth r.input) := by
  have hready : r.input.baselineReady ≠ 0 := by simp [Reading.input]
  have hmem := restarted_mem (i := r.input) h₁ h₂
  rw [korithSchedulerUpdate, desiredDepth_zero hready, Int.max_eq_left hmem.1]

theorem after_update_mem (rs : List (Reading F)) :
    1 ≤ after korithSchedulerUpdate korithSchedulerReset rs ∧ after korithSchedulerUpdate korithSchedulerReset rs ≤ 2 := by
  induction rs using List.reverseRecOn with
  | nil => exact ⟨le_refl (1 : Int), show (1 : Int) ≤ 2 by decide⟩
  | append_singleton rs r ih =>
    rw [after_concat, update_eq ih.1 ih.2]
    exact restarted_mem ih.1 ih.2

theorem answers_eq_iff (rs : List (Reading F)) :
    (answers persistentStep firstState rs = answers korithSchedulerUpdate korithSchedulerReset rs ↔
      Every (fun before r => ¬ CountersDecide (after persistentStep firstState before) r.input) rs) ∧
    (answers persistentStep firstState rs = answers korithSchedulerUpdate korithSchedulerReset rs →
      (after persistentStep firstState rs).speculativeDepth = after korithSchedulerUpdate korithSchedulerReset rs) := by
  induction rs using List.reverseRecOn with
  | nil => exact ⟨iff_of_true rfl every_nil, fun _ => rfl⟩
  | append_singleton rs r ih =>
    obtain ⟨hiff, hdepth⟩ := ih
    have hready : r.input.baselineReady ≠ 0 := by simp [Reading.input]
    have hstep := scheduleStep_stepped (s := after persistentStep firstState rs) hready
    obtain ⟨hlo, hhi⟩ := after_update_mem rs
    have heq : answers persistentStep firstState (rs ++ [r]) =
        answers korithSchedulerUpdate korithSchedulerReset (rs ++ [r]) ↔
        answers persistentStep firstState rs = answers korithSchedulerUpdate korithSchedulerReset rs ∧
          ¬ CountersDecide (after persistentStep firstState rs) r.input := by
      rw [answers_concat, answers_concat, List.append_singleton_inj]
      refine and_congr_right fun hsame => ?_
      have hd := hdepth hsame
      rw [← desiredDepth_eq_iff hready (hd ▸ hlo) (hd ▸ hhi), hd, answer, answer, update_eq hlo hhi]
      rfl
    refine ⟨heq.trans (by rw [every_concat, hiff]), fun hsame => ?_⟩
    obtain ⟨hbefore, hcounters⟩ := heq.1 hsame
    have hd := hdepth hbefore
    rw [after_concat, after_concat, update_eq hlo hhi, ← hd]
    refine hstep.stored.symm.trans ?_
    exact (desiredDepth_eq_iff hready (hd ▸ hlo) (hd ▸ hhi)).2 hcounters

/-- For all readings. The simplified interface never returns more than 2. -/
theorem update_like_persistent_iff (rs : List (Reading F)) :
    (answers persistentStep firstState rs = answers korithSchedulerUpdate korithSchedulerReset rs ↔
      Every (fun before r => ¬ CountersDecide (after persistentStep firstState before) r.input) rs) ∧
    ∀ depth ∈ answers korithSchedulerUpdate korithSchedulerReset rs, depth ≤ 2 := by
  refine ⟨(answers_eq_iff rs).1, ?_⟩
  induction rs using List.reverseRecOn with
  | nil => exact fun depth h => absurd h List.not_mem_nil
  | append_singleton rs r ih =>
    intro depth h
    obtain ⟨hlo, hhi⟩ := after_update_mem rs
    rw [answers_concat, List.mem_append, List.mem_singleton] at h
    rcases h with h | rfl
    · exact ih depth h
    · rw [answer, update_eq hlo hhi]
      exact (restarted_mem hlo hhi).2

def goodReading : Reading Frac := ⟨⟨10, 100⟩, ⟨95, 100⟩, ⟨0, 1⟩⟩

theorem update_goodReading : korithSchedulerUpdate 1 goodReading = (1, 1) := by decide

/-- A higher depth is asked for in every call. The persistent state has it in the 32nd, the simplified interface never. -/
theorem update_never_rises :
    answers persistentStep firstState (List.replicate 32 goodReading) = List.replicate 31 1 ++ [2] ∧
      ∀ n, answers korithSchedulerUpdate korithSchedulerReset (List.replicate n goodReading) = List.replicate n 1 := by
  refine ⟨by decide +kernel, fun n => ?_⟩
  induction n with
  | zero => rfl
  | succ n ih =>
    rw [List.replicate_succ, answers, korithSchedulerReset, update_goodReading, List.replicate_succ]
    exact congrArg (List.cons 1) ih

end Korith.Scheduler
