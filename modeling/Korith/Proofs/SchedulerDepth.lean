import Korith.Controller.Scheduler

/-!
# Depth, hysteresis and probes of the scheduler

A change that is held back leaves the depth as it was, any other decision is stored and returned. The depth that is
held back is the raw one of the state, so it need not respect the lane, and it need not be positive. The steps since
the last change are known to the counters modulo 256 only; `Traced` counts them without a bound.
-/

namespace Korith.Scheduler

open FloatArith Machine

variable {F : Type} [FloatArith F] {s : State} {i : Input F}

/-! ### Counters -/

def State.stepNo (s : State) : Nat := (unpackCounters s.batchSize).step.toNat

def State.lastNo (s : State) : Nat := (unpackCounters s.batchSize).lastChange.toNat

theorem toNat_and_FF (b : BitVec 32) : (b &&& 0xFF).toNat = b.toNat % 256 := by
  rw [BitVec.toNat_and]
  exact Nat.and_two_pow_sub_one_eq_mod b.toNat 8

theorem toNat_and_FFFF (b : BitVec 32) : (b &&& 0xFFFF).toNat = b.toNat % 65536 := by
  rw [BitVec.toNat_and]
  exact Nat.and_two_pow_sub_one_eq_mod b.toNat 16

theorem unpackCounters_packCounters (c : Counters) :
    unpackCounters (packCounters c) = ⟨c.step &&& 0xFFFF, c.lastChange &&& 0xFF, c.missStreak &&& 0xFF⟩ := by
  simp only [unpackCounters, packCounters, Counters.mk.injEq]
  refine ⟨?_, ?_, ?_⟩ <;>
  · ext i hi
    simp only [BitVec.getElem_and, BitVec.getElem_or, BitVec.getElem_shiftLeft, BitVec.getElem_ushiftRight,
      BitVec.getLsbD_or, BitVec.getLsbD_and, BitVec.getLsbD_shiftLeft]
    interval_cases i <;> simp

theorem lastNo_lt : s.lastNo < 256 := by
  show ((s.batchSize >>> 16) &&& 0xFF).toNat < 256
  rw [toNat_and_FF]
  exact Nat.mod_lt _ (by decide)

theorem decision_step : (decision s i).step.toNat = (s.stepNo + 1) % 65536 := by
  show (((unpackCounters s.batchSize).step + 1) &&& 0xFFFF).toNat = _
  rw [toNat_and_FFFF, BitVec.toNat_add, State.stepNo]
  show (_ + 1) % 2 ^ 32 % 65536 = _
  omega

theorem decision_lastChange : (decision s i).lastChange.toNat = s.lastNo := rfl

theorem decision_delta : (decision s i).delta.toNat = (s.stepNo + 1 + 256 - s.lastNo) % 256 := by
  have hlast := lastNo_lt (s := s)
  rw [Decision.delta, toNat_and_FF, BitVec.toNat_sub, toNat_and_FF, decision_step, decision_lastChange]
  omega

/-! ### A step -/

def Changes (s : State) (i : Input F) : Prop := (scheduleStep s i).2.speculativeDepth ≠ s.speculativeDepth
  deriving Decidable

structure Stepped (s : State) (i : Input F) (next : Output F × State) : Prop where
  stored : next.1.desiredDepth = next.2.speculativeDepth
  held : (decision s i).Held s → next.2.speculativeDepth = s.speculativeDepth
  free : ¬ (decision s i).Held s → next.2.speculativeDepth = (decision s i).depth
  stepNo : next.2.stepNo = (s.stepNo + 1) % 65536
  lastNo_same : next.2.speculativeDepth = s.speculativeDepth → next.2.lastNo = s.lastNo
  lastNo_change : next.2.speculativeDepth ≠ s.speculativeDepth → next.2.lastNo = (s.stepNo + 1) % 256

theorem stepNo_pack (depth ready : Int) (c : Counters) :
    (State.mk depth (packCounters c) ready).stepNo = c.step.toNat % 65536 := by
  rw [State.stepNo, unpackCounters_packCounters, toNat_and_FFFF]

theorem lastNo_pack (depth ready : Int) (c : Counters) :
    (State.mk depth (packCounters c) ready).lastNo = c.lastChange.toNat % 256 := by
  rw [State.lastNo, unpackCounters_packCounters, toNat_and_FF]

theorem scheduleStep_stepped (hi : i.baselineReady ≠ 0) : Stepped s i (scheduleStep s i) := by
  have hlast := lastNo_lt (s := s)
  rw [scheduleStep, if_neg hi]
  by_cases hheld : (decision s i).Held s
  · simp only [hheld, if_true, not_true, and_false, if_false]
    refine ⟨rfl, fun _ => rfl, fun h => absurd hheld h, ?_, fun _ => ?_, fun h => absurd rfl h⟩
    · rw [stepNo_pack, decision_step, Nat.mod_mod]
    · rw [lastNo_pack, decision_lastChange, Nat.mod_eq_of_lt hlast]
  · simp only [hheld, if_false, not_false_iff, and_true]
    refine ⟨rfl, fun h => absurd h hheld, fun _ => rfl, ?_, fun h => ?_, fun h => ?_⟩
    · rw [stepNo_pack, decision_step, Nat.mod_mod]
    · rw [lastNo_pack, if_neg (not_not.2 h), decision_lastChange, Nat.mod_eq_of_lt hlast]
    · rw [lastNo_pack, if_pos h, toNat_and_FF, decision_step]
      omega

theorem changes_iff (hi : i.baselineReady ≠ 0) :
    Changes s i ↔ (decision s i).depth ≠ s.speculativeDepth ∧ ¬ (decision s i).Held s := by
  have hstep := scheduleStep_stepped (s := s) hi
  by_cases hheld : (decision s i).Held s
  · simp [Changes, hstep.held hheld, hheld]
  · simp [Changes, hstep.free hheld, hheld]

/-! ### Legal depths -/

theorem clampCInt_mem {v lo hi : Int} (h : lo ≤ hi) : lo ≤ clampCInt v lo hi ∧ clampCInt v lo hi ≤ hi := by
  unfold clampCInt
  split_ifs <;> omega

theorem LaneClass.cap_mem (lane : LaneClass) : 3 ≤ lane.cap ∧ lane.cap ≤ 16 := by
  cases lane <;> decide

theorem clampCInt_of_mem {v lo hi : Int} (hlo : lo ≤ v) (hhi : v ≤ hi) : clampCInt v lo hi = v := by
  unfold clampCInt
  split_ifs <;> omega

def laneDepth (s : State) (i : Input F) : Int :=
  clampCInt (propose (signals i) (classifyLane (signals i)) (clampCInt s.speculativeDepth 1 16)
    (unpackCounters s.batchSize).missStreak).depth 1 (classifyLane (signals i)).cap

theorem decision_probed : (decision s i).probed =
    (decide (laneDepth s i = 1) && decide ((decision s i).step % 64 = 0) && ge (signals i).tpsDelta (ofNat 0)) := rfl

theorem decision_depth : (decision s i).depth = if (decision s i).probed then 2 else laneDepth s i := by
  obtain ⟨hcap, hcap'⟩ := (classifyLane (signals i)).cap_mem
  have hmem : 1 ≤ laneDepth s i ∧ laneDepth s i ≤ (classifyLane (signals i)).cap := clampCInt_mem (by omega)
  show clampCInt (if (decision s i).probed then 2 else laneDepth s i) 1 16 = _
  split_ifs
  · rfl
  · exact clampCInt_of_mem hmem.1 (by omega)

theorem decision_depth_mem : 1 ≤ (decision s i).depth ∧ (decision s i).depth ≤ (classifyLane (signals i)).cap := by
  obtain ⟨hcap, -⟩ := (classifyLane (signals i)).cap_mem
  rw [decision_depth]
  split_ifs
  · omega
  · exact clampCInt_mem (by omega)

/-- A call returns a depth the lane allows and leaves it in the caller's structure. -/
def Legal (s : State) (i : Input F) : Prop :=
  ∃ output s', korithScheduleStep (some s) (some i) = (output, some s') ∧ 1 ≤ output.desiredDepth ∧
    output.desiredDepth ≤ (classifyLane (signals i)).cap ∧ s'.speculativeDepth = output.desiredDepth

def HoldsLegal (s : State) (i : Input F) : Prop :=
  (decision s i).Held s → 1 ≤ s.speculativeDepth ∧ s.speculativeDepth ≤ (classifyLane (signals i)).cap
  deriving Decidable

theorem legal_iff (hi : i.baselineReady ≠ 0) : Legal s i ↔ HoldsLegal s i := by
  have hstep := scheduleStep_stepped (s := s) hi
  have hlegal : Legal s i ↔ 1 ≤ (scheduleStep s i).2.speculativeDepth ∧
      (scheduleStep s i).2.speculativeDepth ≤ (classifyLane (signals i)).cap := by
    constructor
    · rintro ⟨output, s', heq, hone, hcap, -⟩
      obtain ⟨rfl, -⟩ := Prod.mk.inj heq
      rw [← hstep.stored]
      exact ⟨hone, hcap⟩
    · rintro ⟨hone, hcap⟩
      refine ⟨_, _, rfl, ?_, ?_, hstep.stored.symm⟩
      · exact hstep.stored ▸ hone
      · exact hstep.stored ▸ hcap
  rw [hlegal, HoldsLegal]
  by_cases hheld : (decision s i).Held s
  · rw [hstep.held hheld]
    exact ⟨fun h _ => h, fun h => h hheld⟩
  · rw [hstep.free hheld]
    exact iff_of_true decision_depth_mem fun h => absurd h hheld

omit [FloatArith F] in
theorem every_iff_of_ready {p q : List (Input F) → Input F → Prop} {is : List (Input F)}
    (hready : ∀ i ∈ is, i.baselineReady ≠ 0)
    (h : ∀ before i, (∀ j ∈ before, j.baselineReady ≠ 0) → i.baselineReady ≠ 0 → (p before i ↔ q before i)) :
    Every p is ↔ Every q is := by
  refine every_iff (I := fun is => ∀ i ∈ is, i.baselineReady ≠ 0) ?_ ?_ hready
  · intro before i hall j hj
    exact hall j (List.mem_append_left _ hj)
  · intro before i hall _
    exact h before i (fun j hj => hall j (List.mem_append_left _ hj)) (hall i (by simp))

/-- In every run of calls with the baseline ready, from any state. -/
theorem depths_legal_iff (s : State) (is : List (Input F)) (hready : ∀ i ∈ is, i.baselineReady ≠ 0) :
    Every (fun before i => Legal (after scheduleStep s before) i) is ↔
      Every (fun before i => HoldsLegal (after scheduleStep s before) i) is :=
  every_iff_of_ready hready fun _ _ _ hi => legal_iff hi

def goodInput : Input Frac := ⟨⟨95, 100⟩, ⟨10, 100⟩, ⟨0, 1⟩, ⟨1, 1⟩, 1⟩
def fairInput : Input Frac := ⟨⟨70, 100⟩, ⟨60, 100⟩, ⟨0, 1⟩, ⟨1, 1⟩, 1⟩
def missInput : Input Frac := ⟨⟨0, 1⟩, ⟨1, 1⟩, ⟨0, 1⟩, ⟨0, 1⟩, 1⟩

theorem depths_legal_two_calls :
    Every (fun before i => Legal (after scheduleStep ⟨4, 0, 1⟩ before) i) [goodInput, fairInput] :=
  (depths_legal_iff ⟨4, 0, 1⟩ [goodInput, fairInput] (by decide)).2 (by decide)

/-- The first call on zeros returns 0, and in the lane with cap 12 a depth of 16 is kept. -/
theorem held_depth_not_legal :
    ((korithScheduleStep (some zeroState) (some goodInput)).1.desiredDepth = 0 ∧ ¬ Legal zeroState goodInput) ∧
      classifyLane (signals fairInput) = .hit ∧
      (korithScheduleStep (some ⟨16, 0, 1⟩) (some fairInput)).1.desiredDepth = 16 ∧ ¬ Legal ⟨16, 0, 1⟩ fairInput := by
  refine ⟨⟨by decide, ?_⟩, by decide, by decide, ?_⟩
  · rw [legal_iff (by decide)]
    decide
  · rw [legal_iff (by decide)]
    decide

/-! ### Hysteresis -/

structure Traced where
  state : State
  since : Nat

def traced (x : Traced) (i : Input F) : Output F × Traced :=
  let next := scheduleStep x.state i
  (next.1, ⟨next.2, if Changes x.state i then 0 else x.since + 1⟩)

theorem traced_since (x : Traced) (i : Input F) :
    (traced x i).2.since = if Changes x.state i then 0 else x.since + 1 := rfl

def Traced.Aligned (x : Traced) : Prop := (x.state.stepNo + 256 - x.state.lastNo) % 256 = x.since % 256

variable {x : Traced}

theorem traced_aligned (hx : x.Aligned) (hi : i.baselineReady ≠ 0) : (traced x i).2.Aligned := by
  have hstep := scheduleStep_stepped (s := x.state) hi
  have hlast := lastNo_lt (s := x.state)
  show ((scheduleStep x.state i).2.stepNo + 256 - (scheduleStep x.state i).2.lastNo) % 256 =
    (if Changes x.state i then 0 else x.since + 1) % 256
  rw [Traced.Aligned] at hx
  rw [hstep.stepNo]
  by_cases hch : Changes x.state i
  · rw [if_pos hch, hstep.lastNo_change hch]
    omega
  · rw [if_neg hch, hstep.lastNo_same (not_not.1 hch)]
    omega

theorem after_traced_aligned {is : List (Input F)} (hready : ∀ i ∈ is, i.baselineReady ≠ 0) :
    (after traced ⟨zeroState, 0⟩ is).Aligned := by
  induction is using List.reverseRecOn with
  | nil => rw [Traced.Aligned, after_nil]; rfl
  | append_singleton is i ih =>
    rw [after_concat]
    exact traced_aligned (ih fun j hj => hready j (List.mem_append_left _ hj)) (hready i (by simp))

theorem changes_iff_of_requests (hx : x.Aligned) (hi : i.baselineReady ≠ 0)
    (hreq : (decision x.state i).Requests x.state) : Changes x.state i ↔ 32 ≤ (x.since + 1) % 256 := by
  have hlast := lastNo_lt (s := x.state)
  have hdelta : (decision x.state i).delta < 32 ↔ (x.since + 1) % 256 < 32 := by
    show (decision x.state i).delta.toNat < 32 ↔ _
    rw [decision_delta]
    rw [Traced.Aligned] at hx
    omega
  rw [changes_iff hi, Decision.Held, hdelta]
  constructor
  · rintro ⟨-, hfree⟩
    exact not_lt.1 fun h => hfree ⟨hreq, h⟩
  · intro h
    exact ⟨hreq.1, fun hheld => absurd hheld.2 (not_lt.2 h)⟩

/-- A change that is neither forced nor a probe takes place exactly if 32 steps have passed since the last one. -/
def Exact (x : Traced) (i : Input F) : Prop :=
  (decision x.state i).Requests x.state → (Changes x.state i ↔ 32 ≤ x.since + 1)
  deriving Decidable

/-- No such change is asked for in the 32 steps that begin with a multiple of 256 steps since the last one. -/
def NotWrapped (x : Traced) (i : Input F) : Prop :=
  (decision x.state i).Requests x.state → 256 ≤ x.since + 1 → 32 ≤ (x.since + 1) % 256
  deriving Decidable

theorem exact_iff (hx : x.Aligned) (hi : i.baselineReady ≠ 0) : Exact x i ↔ NotWrapped x i := by
  refine imp_congr_right fun hreq => ?_
  rw [changes_iff_of_requests hx hi hreq]
  omega

/-- Over every run from zeros with the baseline ready, of any length. -/
theorem hysteresis_exact_iff (is : List (Input F)) (hready : ∀ i ∈ is, i.baselineReady ≠ 0) :
    Every (fun before i => Exact (after traced ⟨zeroState, 0⟩ before) i) is ↔
      Every (fun before i => NotWrapped (after traced ⟨zeroState, 0⟩ before) i) is :=
  every_iff_of_ready hready fun _ _ hbefore hi => exact_iff (after_traced_aligned hbefore) hi

theorem hysteresis_exact_two_calls :
    Every (fun before i => Exact (after traced ⟨zeroState, 0⟩ before) i) [goodInput, fairInput] :=
  (hysteresis_exact_iff [goodInput, fairInput] (by decide)).2 (by decide)

theorem traced_fairInput (hx : x.state.speculativeDepth = 2) :
    (traced x fairInput).2.state.speculativeDepth = 2 ∧ (traced x fairInput).2.since = x.since + 1 := by
  obtain ⟨⟨depth, counters, ready⟩, since⟩ := x
  obtain rfl : depth = 2 := hx
  have hdepth : (decision ⟨2, counters, ready⟩ fairInput).depth = 2 := rfl
  have hsame : ¬ Changes ⟨2, counters, ready⟩ fairInput := fun h => ((changes_iff (by decide)).1 h).1 hdepth
  refine ⟨not_not.1 hsame, ?_⟩
  rw [traced_since, if_neg hsame]

theorem after_fairInputs (hx : x.state.speculativeDepth = 2) (n : Nat) :
    (after traced x (List.replicate n fairInput)).state.speculativeDepth = 2 ∧
      (after traced x (List.replicate n fairInput)).since = x.since + n := by
  induction n with
  | zero => exact ⟨hx, rfl⟩
  | succ n ih =>
    obtain ⟨hdepth, hsince⟩ := traced_fairInput ih.1
    rw [List.replicate_succ', after_concat, hsince, ih.2]
    exact ⟨hdepth, Nat.add_assoc ..⟩

theorem goodInput_requests (hs : s.speculativeDepth = 2) : (decision s goodInput).Requests s := by
  obtain ⟨depth, counters, ready⟩ := s
  obtain rfl : depth = 2 := hs
  refine ⟨?_, rfl, rfl⟩
  show (4 : Int) ≠ 2
  decide

theorem not_exact_of_256 (hx : x.Aligned) (hdepth : x.state.speculativeDepth = 2)
    (hsince : x.since + 1 = 256) : ¬ Exact x goodInput := by
  have hreq := goodInput_requests hdepth
  intro hexact
  have hch := (hexact hreq).2 (by rw [hsince]; decide)
  rw [changes_iff_of_requests hx (by decide) hreq, hsince] at hch
  exact absurd hch (by decide)

/-- The depth changes in the first step; 256 steps later a change is asked for, and it is held back. -/
theorem change_held_after_256_steps :
    (after traced ⟨zeroState, 0⟩ (missInput :: List.replicate 255 fairInput)).since + 1 = 256 ∧
      ¬ Exact (after traced ⟨zeroState, 0⟩ (missInput :: List.replicate 255 fairInput)) goodInput := by
  have hready : ∀ i ∈ missInput :: List.replicate 255 fairInput, i.baselineReady ≠ 0 := by
    intro i hi
    rcases List.mem_cons.1 hi with rfl | hi
    · decide
    · rw [List.eq_of_mem_replicate hi]
      decide
  have haligned := after_traced_aligned hready
  obtain ⟨hdepth, hsince⟩ := after_fairInputs (x := (traced ⟨zeroState, 0⟩ missInput).2) (by decide) 255
  have hfirst : (traced ⟨zeroState, 0⟩ missInput).2.since = 0 := by decide
  rw [hfirst] at hsince
  rw [after_cons] at haligned ⊢
  have hsince' := congrArg (· + 1) hsince
  exact ⟨hsince', not_exact_of_256 haligned hdepth hsince'⟩

/-! ### Probes -/

theorem two_le_decision_depth (hprobe : (s.stepNo + 1) % 64 = 0) (htps : ge (signals i).tpsDelta (ofNat 0) = true) :
    2 ≤ (decision s i).depth := by
  have hstep : (decision s i).step % 64 = 0 := by
    apply BitVec.eq_of_toNat_eq
    rw [BitVec.toNat_umod, decision_step]
    show (s.stepNo + 1) % 65536 % 64 = 0
    omega
  have hmem := decision_depth_mem (s := s) (i := i)
  have hprobed := decision_probed (s := s) (i := i)
  rw [decide_eq_true hstep, htps, Bool.and_true, Bool.and_true] at hprobed
  rw [decision_depth] at hmem ⊢
  by_cases hone : laneDepth s i = 1
  · rw [hprobed, decide_eq_true hone, if_pos rfl]
  · rw [hprobed, decide_eq_false hone] at hmem ⊢
    simp only [Bool.false_eq_true, if_false] at hmem ⊢
    omega

/-- A collapsed depth that does not rise in a step stays, and if it was the turn of a probe, a change was held back. -/
theorem collapsed_step (hs : s.speculativeDepth = 1) (hi : i.baselineReady ≠ 0)
    (htps : ge (signals i).tpsDelta (ofNat 0) = true) (hout : ¬ 2 ≤ (scheduleStep s i).1.desiredDepth) :
    (scheduleStep s i).2.speculativeDepth = 1 ∧
      ((s.stepNo + 1) % 64 = 0 → (s.stepNo + 1 + 256 - s.lastNo) % 256 < 32) := by
  have hstep := scheduleStep_stepped (s := s) hi
  rw [hstep.stored] at hout
  by_cases hheld : (decision s i).Held s
  · refine ⟨(hstep.held hheld).trans hs, fun _ => ?_⟩
    rw [← decision_delta (i := i)]
    exact hheld.2
  · rw [hstep.free hheld] at hout ⊢
    have hmem := decision_depth_mem (s := s) (i := i)
    exact ⟨by omega, fun hprobe => absurd (two_le_decision_depth hprobe htps) hout⟩

structure Collapsed (s : State) (n : Nat) (s' : State) : Prop where
  depth : s'.speculativeDepth = 1
  stepNo : s'.stepNo = (s.stepNo + n) % 65536
  lastNo : s'.lastNo = s.lastNo

theorem stepNo_lt : s.stepNo < 65536 := by
  show (s.batchSize &&& 0xFFFF).toNat < 65536
  rw [toNat_and_FFFF]
  exact Nat.mod_lt _ (by decide)

section

variable {is : List (Input F)}

def Probing (i : Input F) : Prop := i.baselineReady ≠ 0 ∧ ge (signals i).tpsDelta (ofNat 0) = true
  deriving Decidable

theorem collapsed_after (hs : s.speculativeDepth = 1) (his : ∀ i ∈ is, Probing i)
    (hout : Every (fun before i => ¬ 2 ≤ (answer scheduleStep s before i).desiredDepth) is) :
    Collapsed s is.length (after scheduleStep s is) := by
  induction is using List.reverseRecOn with
  | nil => exact ⟨hs, (Nat.mod_eq_of_lt stepNo_lt).symm, rfl⟩
  | append_singleton is i ih =>
    obtain ⟨hout, hlast⟩ := every_concat.1 hout
    have hc := ih (fun j hj => his j (List.mem_append_left _ hj)) hout
    obtain ⟨hready, htps⟩ := his i (by simp)
    have hstep := scheduleStep_stepped (s := after scheduleStep s is) hready
    have hdepth := (collapsed_step hc.depth hready htps hlast).1
    rw [after_concat, List.length_append, List.length_singleton]
    refine ⟨hdepth, ?_, ?_⟩
    · rw [hstep.stepNo, hc.stepNo]
      omega
    · rw [hstep.lastNo_same (hdepth.trans hc.depth.symm), hc.lastNo]

/-- While the depth stays collapsed, every turn of a probe falls into the 32 steps after a change. -/
theorem probe_held (hs : s.speculativeDepth = 1) (his : ∀ i ∈ is, Probing i)
    (hout : Every (fun before i => ¬ 2 ≤ (answer scheduleStep s before i).desiredDepth) is) {k : Nat}
    (hk : k < is.length) (hprobe : (s.stepNo + k + 1) % 64 = 0) : (s.stepNo + k + 1 + 256 - s.lastNo) % 256 < 32 := by
  have hlast := lastNo_lt (s := s)
  have hsplit : is = is.take k ++ is.get ⟨k, hk⟩ :: is.drop (k + 1) := by
    rw [List.get_eq_getElem, ← List.drop_eq_getElem_cons, List.take_append_drop]
  have hc := collapsed_after hs (fun i hi => his i (List.mem_of_mem_take hi)) (hout.take k)
  rw [List.length_take, Nat.min_eq_left hk.le] at hc
  obtain ⟨hready, htps⟩ := his (is.get ⟨k, hk⟩) (List.get_mem ..)
  have hheld := (collapsed_step hc.depth hready htps (hout _ _ _ hsplit)).2
  rw [hc.stepNo, hc.lastNo] at hheld
  have := hheld (by omega)
  omega

/-- Of the next 128 calls one returns a depth of 2 or more. -/
theorem collapse_ends (s : State) (is : List (Input F)) (hs : s.speculativeDepth = 1) (his : ∀ i ∈ is, Probing i)
    (hlen : is.length = 128) :
    ∃ before i rest, is = before ++ i :: rest ∧ 2 ≤ (answer scheduleStep s before i).desiredDepth := by
  by_contra hnone
  have hout : Every (fun before i => ¬ 2 ≤ (answer scheduleStep s before i).desiredDepth) is :=
    fun before i rest h hdepth => hnone ⟨before, i, rest, h, hdepth⟩
  -- two probes are 64 steps apart, and no change is within 32 steps of both
  have hlast := lastNo_lt (s := s)
  have hfirst := probe_held hs his hout (k := 63 - s.stepNo % 64) (by omega) (by omega)
  have hsecond := probe_held hs his hout (k := 127 - s.stepNo % 64) (by omega) (by omega)
  omega

end

theorem collapse_ends_fair : (answer scheduleStep ⟨1, 0, 1⟩ [] fairInput).desiredDepth = 1 ∧
    ∃ before i rest, List.replicate 128 fairInput = before ++ i :: rest ∧
      2 ≤ (answer scheduleStep ⟨1, 0, 1⟩ before i).desiredDepth :=
  ⟨by decide, collapse_ends ⟨1, 0, 1⟩ (List.replicate 128 fairInput) rfl
    (fun i hi => by rw [List.eq_of_mem_replicate hi]; decide) List.length_replicate⟩

end Korith.Scheduler
