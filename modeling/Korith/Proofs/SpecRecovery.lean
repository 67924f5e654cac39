import Korith.Platform.SpecGovernance
import Mathlib

/-!
# Whether speculation recovers

The gates test the flag of the row before its cooldown, and the flag is cleared only by a good result of a run that
speculates. So once it is set and the last speculating run has ended, no job of the fingerprint ever speculates again.
-/

set_option linter.unusedSectionVars false

namespace Korith.SpecGovernance

open Governance Run

variable {F T : Type} [Field T] [LinearOrder T] {cfg : SpecConfig T} {m : SpecMetrics T} {now : T}
  {seen : Option (SpecState T)} {s s' : Cluster T} {e : Event F T} {row : SpecRow T} {env : LaneEnv} {reason : String}
  {spec : Bool} {caps : Capabilities} {req : LaneRequest}

/-! ### What is expected -/

/-- All gates of the router but the row are open. -/
structure OpenRouter (env : LaneEnv) (caps : Capabilities) (req : LaneRequest) : Prop where
  requested : (specRequested env req).1 = true
  capable : specCapable caps = true
  governed : env.specIgnoreGovernance = false
  allLanes : env.specMissOnly = false

def Lane.Spec (lane : Lane) : Prop := lane = .specHit ∨ lane = .specMiss

def Speculates (F : Type) (specRow : Option (SpecRow T)) (now : T) : Prop :=
  ∀ env caps req (gov : Option (Row F T)) replayNow, OpenRouter env caps req →
    Lane.Spec (selectLaneWithReason env caps req specRow now gov replayNow).1 ∧
      ∀ w, specBlockReason w now = none →
        runsSpeculative w req.allowSpec (selectLaneWithReason env caps req specRow now gov replayNow).1 specRow now = true

/-- From the end of its cooldown on. -/
def Recovers (F : Type) (s : Cluster T) : Prop :=
  ∀ row ∈ s.row, ∀ now, row.cooldownUntil ≤ now → Speculates F (some row) now

/-- The result sets no flag that it has not read. -/
def Harmless (cfg : SpecConfig T) (m : SpecMetrics T) (seen : Option (SpecState T)) : Prop :=
  ¬ Bad cfg m ∨ ((seen.getD initial).badAcceptStreak + 1 < cfg.badMax ∧ ¬ severeRegression m)
  deriving Decidable

def OnUpsert (cfg : SpecConfig T) (_ : Cluster T) : Event F T → Prop
  | .upsert c => Harmless cfg c.args.1 c.seen
  | _ => True

instance : ∀ (s : Cluster T) (e : Event F T), Decidable (OnUpsert cfg s e)
  | _, .upsert _ => inferInstanceAs (Decidable (Harmless ..))
  | _, .route .. | _, .start .. | _, .finish .. => .isTrue trivial

/-! ### The gates -/

theorem missLane_spec : Lane.Spec (missLane env spec reason).1 ↔ spec = true := by
  cases spec <;> simp [missLane, finalizeLane, Lane.Spec]

theorem finalizeLane_hit {reason' : String} (h : env.specMissOnly = false) :
    Lane.Spec (if spec then finalizeLane env .specHit reason else finalizeLane env .hit reason').1 ↔ spec = true := by
  cases spec <;> simp [finalizeLane, Lane.Spec, h]

theorem finalizeLane_unready :
    Lane.Spec (finalizeLane env (if spec then .specMiss else .miss) reason).1 ↔ spec = true := by
  cases spec <;> simp [finalizeLane, Lane.Spec]

theorem selectLane_spec {specRow : Option (SpecRow T)}
    {gov : Option (Row F T)} {replayNow : T} (hopen : OpenRouter env caps req) :
    Lane.Spec (selectLaneWithReason env caps req specRow now gov replayNow).1 ↔
      (specAllowed env caps req specRow now).1 = true := by
  have hspec : ((specAllowed env caps req specRow now).1 && specCapable caps) =
      (specAllowed env caps req specRow now).1 := by rw [hopen.capable, Bool.and_true]
  unfold selectLaneWithReason
  dsimp only
  rw [hspec]
  generalize (specAllowed env caps req specRow now).1 = spec
  by_cases hreplay : (caps.kvReplay && caps.deterministicSeeding && req.allowAmfReuse) = true
  · rw [if_neg (not_not.2 hreplay)]
    have hready : Lane.Spec (if req.prior = true then
        if env.requireReadySnapshotForHit = true ∧ ¬ req.readySnapshot = true then
          finalizeLane env (if spec = true then .specMiss else .miss) "replay_snapshot_unavailable"
        else if spec = true then finalizeLane env .specHit "spec_enabled"
        else finalizeLane env .hit (specAllowed env caps req specRow now).2
      else missLane env spec (specAllowed env caps req specRow now).2).1 ↔ spec = true := by
      by_cases hprior : req.prior = true
      · rw [if_pos hprior]
        by_cases hsnapshot : env.requireReadySnapshotForHit = true ∧ ¬ req.readySnapshot = true
        · rw [if_pos hsnapshot]
          exact finalizeLane_unready
        · rw [if_neg hsnapshot]
          exact finalizeLane_hit hopen.allLanes
      · rw [if_neg hprior]
        exact missLane_spec
    cases gov with
    | none => exact hready
    | some row =>
      dsimp only
      by_cases hdisabled : row.replayDisabled ≠ 0
      · rw [if_pos hdisabled]
        exact missLane_spec
      · rw [if_neg hdisabled]
        by_cases hcooldown : replayNow < row.cooldownUntil
        · rw [if_pos hcooldown]
          exact missLane_spec
        · rw [if_neg hcooldown]
          exact hready
  · rw [if_pos hreplay]
    exact missLane_spec

theorem specAllowed_iff (hopen : OpenRouter env caps req) :
    (specAllowed env caps req (some row) now).1 = true ↔ row.specDisabled = 0 ∧ row.cooldownUntil ≤ now := by
  simp only [specAllowed, hopen.capable, hopen.requested, hopen.governed]
  by_cases hdisabled : row.specDisabled = 0
  · by_cases hcooldown : now < row.cooldownUntil
    · simp [hdisabled, hcooldown]
    · simp [hdisabled, hcooldown, not_lt.1 hcooldown]
  · simp [hdisabled]

variable {allowSpec : Bool} {lane : Lane} {state : SpecState T}

theorem workerRequested_iff (hlane : Lane.Spec lane) :
    workerRequested allowSpec lane (some row) now = true ↔ row.specDisabled = 0 ∧ row.cooldownUntil ≤ now := by
  have hlane' : lane = .specHit ∨ lane = .specMiss := hlane
  have hrequested : (allowSpec || decide (lane = .specHit ∨ lane = .specMiss)) = true := by
    rw [decide_eq_true hlane', Bool.or_true]
  simp only [workerRequested, hrequested, Bool.true_and]
  simp [not_lt]

theorem speculates_iff : Speculates F (some row) now ↔ row.specDisabled = 0 ∧ row.cooldownUntil ≤ now := by
  constructor
  · intro h
    have hopen : OpenRouter ⟨true, false, false, 1, false, false, false, false⟩ ⟨true, true, true, true, true⟩
        ⟨true, true, 256, .missing, false, false⟩ := ⟨by decide, rfl, rfl, rfl⟩
    have hlane := (h _ _ _ none now hopen).1
    exact (specAllowed_iff hopen).1 ((selectLane_spec hopen).1 hlane)
  · intro h env caps req gov replayNow hopen
    have hlane : Lane.Spec (selectLaneWithReason env caps req (some row) now gov replayNow).1 :=
      (selectLane_spec hopen).2 ((specAllowed_iff hopen).2 h)
    refine ⟨hlane, fun w hw => ?_⟩
    rw [runsSpeculative, (workerRequested_iff hlane).2 h, hw]
    rfl

def Clear (seen : Option (SpecState T)) : Prop := ∀ state ∈ seen, state.specDisabled = 0

theorem clear_some : Clear (some state) ↔ state.specDisabled = 0 := by
  constructor
  · intro h
    exact h state rfl
  · rintro h _ ⟨⟩
    exact h

theorem recovers_iff : Recovers F s ↔ Clear s.gov.stored := by
  constructor
  · intro h state hstate
    have hrow : state.toSpecRow ∈ s.row := by
      rw [Cluster.row, hstate]
      rfl
    exact (speculates_iff.1 (h _ hrow state.cooldownUntil le_rfl)).1
  · intro h row hrow now hnow
    obtain ⟨state, hstate, rfl⟩ := Option.map_eq_some_iff.1 hrow
    exact speculates_iff.2 ⟨h state hstate, hnow⟩

/-! ### One result -/

theorem record_clear_iff (hseen : Clear seen) : (record cfg m now seen).specDisabled = 0 ↔ Harmless cfg m seen := by
  have hread : (seen.getD initial).specDisabled = 0 := by
    cases seen with
    | none => rfl
    | some state => exact hseen state rfl
  unfold record Harmless
  by_cases hbad : Bad cfg m
  · by_cases hsevere : severeRegression m
    · simp [hbad, hsevere]
    · by_cases hstreak : cfg.badMax ≤ (seen.getD initial).badAcceptStreak + 1
      · simp [hbad, hsevere, hstreak, not_lt.2 hstreak]
      · simp [hbad, hsevere, hstreak, hread, not_le.1 hstreak]
  · simp [hbad, initial, cfg.badMax_pos.ne']

theorem record_keeps (hbad : Bad cfg m) (hstate : state.specDisabled ≠ 0) :
    (record cfg m now (some state)).specDisabled ≠ 0 := by
  simp only [record, if_pos hbad, Option.getD_some]
  by_cases hmax : cfg.badMax ≤ if severeRegression m then max (state.badAcceptStreak + 1) cfg.badMax
      else state.badAcceptStreak + 1
  · rw [if_pos hmax]
    exact one_ne_zero
  · rw [if_neg hmax]
    exact hstate

/-! ### Steps -/

theorem plan_eq_some {args : SpecMetrics T × T} {f : Option (SpecState T) → Option (SpecState T)}
    (h : plan cfg args seen = some f) : ∀ stored, f stored = some (record cfg args.1 args.2 seen) := by
  unfold plan at h
  split_ifs at h
  cases h
  exact fun _ => rfl

theorem step_cases (h : step cfg s e = some s') :
    (OnUpsert cfg s e ∧ s'.gov = s.gov ∧ ∀ b ∈ s'.running, b ∈ s.running ∨
        ∃ w allowSpec lane now, b = runsSpeculative w allowSpec lane s.row now) ∨
      (∃ b m now, e = .finish b m now ∧ b ∈ s.running ∧ s'.running = s.running.erase b ∧
        (s'.gov = s.gov ∨ (m.enabled = true ∧ s'.gov = ⟨s.gov.stored, ⟨(m, now), s.gov.stored⟩ :: s.gov.pending⟩))) ∨
      (∃ c, e = .upsert c ∧ c ∈ s.gov.pending ∧ s'.running = s.running ∧
        s'.gov = ⟨some (record cfg c.args.1 c.args.2 c.seen), s.gov.pending.erase c⟩) := by
  cases e with
  | route env caps req gov specNow now =>
    simp only [step] at h
    split_ifs at h
    cases h
    exact .inl ⟨trivial, rfl, fun b hb => .inl hb⟩
  | start job w now =>
    simp only [step] at h
    split_ifs at h
    cases h
    refine .inl ⟨trivial, rfl, fun b hb => ?_⟩
    rcases List.mem_cons.1 hb with rfl | hb
    · exact .inr ⟨w, _, _, now, rfl⟩
    · exact .inl hb
  | finish b m now =>
    simp only [step] at h
    split_ifs at h with hguard
    obtain ⟨gov, hgov, rfl⟩ := Option.map_eq_some_iff.1 h
    refine .inr (.inl ⟨b, m, now, rfl, hguard, rfl, ?_⟩)
    simp only [ReadWrite.step] at hgov
    split_ifs at hgov with hplan
    · cases hgov
      refine .inr ⟨?_, rfl⟩
      unfold plan at hplan
      split_ifs at hplan with hshown
      · exact (Bool.and_eq_true _ _ ▸ hshown).1
      · cases hplan
    · cases hgov
      exact .inl rfl
  | upsert c =>
    simp only [step] at h
    obtain ⟨gov, hgov, rfl⟩ := Option.map_eq_some_iff.1 h
    obtain ⟨hmem, f, hf, rfl⟩ := ReadWrite.step_write hgov
    exact .inr (.inr ⟨c, rfl, hmem, rfl, by rw [plan_eq_some hf]⟩)

/-- No flag is set, and none was read. -/
structure Unflagged (s : Cluster T) : Prop where
  stored : Clear s.gov.stored
  seen : ∀ c ∈ s.gov.pending, Clear c.seen

theorem Unflagged.empty : Unflagged (Cluster.empty : Cluster T) :=
  ⟨fun state hstate => (by cases hstate), fun c hc => (by cases hc)⟩

theorem Unflagged.step (h : Unflagged s) (hstep : step cfg s e = some s') :
    (Clear s'.gov.stored ↔ OnUpsert cfg s e) ∧ ∀ c ∈ s'.gov.pending, Clear c.seen := by
  rcases step_cases hstep with ⟨hother, hgov, -⟩ | ⟨b, m, now, rfl, -, -, hgov⟩ | ⟨c, rfl, hmem, -, hgov⟩
  · rw [hgov]
    exact ⟨iff_of_true h.stored hother, h.seen⟩
  · rcases hgov with hgov | ⟨-, hgov⟩
    · rw [hgov]
      exact ⟨iff_of_true h.stored trivial, h.seen⟩
    · rw [hgov]
      refine ⟨iff_of_true h.stored trivial, fun c hc => ?_⟩
      rcases List.mem_cons.1 hc with rfl | hc
      · exact h.stored
      · exact h.seen c hc
  · rw [hgov]
    refine ⟨?_, fun c' hc' => h.seen c' (List.mem_of_mem_erase hc')⟩
    rw [clear_some]
    exact record_clear_iff (h.seen c hmem)

/-- What a run may report. A run that was not asked to speculate reports no speculation, or, with the vLLM adapter,
speculation of its server with neither a return nor savings. -/
def Reports (speculative : Bool) (m : SpecMetrics T) : Prop :=
  speculative = true ∨ m.enabled = false ∨ (m.roi = 0 ∧ m.netSavedMs = 0 ∧ m.cacheHit = false)

/-- The flag is set, every open result is bad and has read it, and no job speculates. -/
structure Stuck (s : Cluster T) (cfg : SpecConfig T) : Prop where
  stored : ∃ state ∈ s.gov.stored, state.specDisabled ≠ 0
  pending : ∀ c ∈ s.gov.pending, Bad cfg c.args.1 ∧ ∃ state ∈ c.seen, state.specDisabled ≠ 0
  running : ∀ b ∈ s.running, b = false

theorem runsSpeculative_of_flag {w : WorkerGates T} (h : row.specDisabled ≠ 0) :
    runsSpeculative w allowSpec lane (some row) now = false := by
  simp [runsSpeculative, workerRequested, h]

theorem Reports.bad (h : Reports false m) (henabled : m.enabled = true) : Bad cfg m := by
  rcases h with hfalse | hfalse | ⟨-, hsaved, -⟩
  · cases hfalse
  · rw [henabled] at hfalse
    cases hfalse
  · exact .inr (.inr hsaved.le)

theorem Stuck.step (h : Stuck s cfg) (hreports : ∀ b m now, e = .finish b m now → Reports b m)
    (hstep : step cfg s e = some s') : Stuck s' cfg := by
  obtain ⟨state, hstate, hflag⟩ := h.stored
  rcases step_cases hstep with ⟨-, hgov, hrunning⟩ | ⟨b, m, now, rfl, hb, hrunning, hgov⟩ |
    ⟨c, rfl, hmem, hrunning, hgov⟩
  · refine ⟨hgov ▸ h.stored, hgov ▸ h.pending, fun b hb => ?_⟩
    rcases hrunning b hb with hb | ⟨w, allowSpec, lane, now, rfl⟩
    · exact h.running b hb
    · rw [Cluster.row, hstate]
      exact runsSpeculative_of_flag hflag
  · have hrunning' : ∀ b' ∈ s'.running, b' = false := fun b' hb' =>
      h.running b' (List.mem_of_mem_erase (hrunning ▸ hb'))
    rcases hgov with hgov | ⟨henabled, hgov⟩
    · exact ⟨hgov ▸ h.stored, hgov ▸ h.pending, hrunning'⟩
    · refine ⟨by rw [hgov]; exact h.stored, fun c hc => ?_, hrunning'⟩
      rw [hgov] at hc
      rcases List.mem_cons.1 hc with rfl | hc
      · obtain rfl := h.running b hb
        exact ⟨(hreports false m now rfl).bad henabled, h.stored⟩
      · exact h.pending c hc
  · obtain ⟨hbad, state', hseen, hflag'⟩ := h.pending c hmem
    refine ⟨?_, fun c' hc' => ?_, hrunning ▸ h.running⟩
    · rw [hgov, hseen]
      exact ⟨_, rfl, record_keeps hbad hflag'⟩
    · rw [hgov] at hc'
      exact h.pending c' (List.mem_of_mem_erase hc')

theorem Stuck.run {later : List (Event F T)} (h : Stuck s cfg) (hreports : ∀ b m now, .finish b m now ∈ later → Reports b m)
    (hrun : run (SpecGovernance.step cfg) later s = some s') : Stuck s' cfg := by
  have halong : Along (SpecGovernance.step cfg) (fun _ e => ∀ b m now, e = .finish b m now → Reports b m) later s :=
    along_of_forall fun e he _ b m now heq => hreports b m now (heq ▸ he)
  exact halong.inv (I := fun s => Stuck s cfg) h (fun _ _ _ h he hstep => h.step he hstep) hrun

/-! ### Result -/

theorem speculation_recovers_iff {events : List (Event F T)} (hrun : run (step cfg) events .empty = some s) :
    ((∀ before after s₁, events = before ++ after → run (step cfg) before .empty = some s₁ → Recovers F s₁) ↔
        Along (step cfg) (OnUpsert cfg) events .empty) ∧
      ((∃ row ∈ s.row, row.specDisabled ≠ 0) → s.gov.pending = [] → (∀ b ∈ s.running, b = false) →
        ∀ (later : List (Event F T)) s', (∀ b m now, .finish b m now ∈ later → Reports b m) →
          run (step cfg) later s = some s' → (∃ row ∈ s'.row, row.specDisabled ≠ 0) ∧ ∀ b ∈ s'.running, b = false) := by
  constructor
  · have hempty : Recovers F (Cluster.empty : Cluster T) := recovers_iff.2 Unflagged.empty.stored
    rw [← along_states_iff hempty hrun]
    refine along_iff Unflagged.empty (fun s e s' h hrecovers hstep => ?_) (fun s e s' h hstep => ?_) hrun
    · exact ⟨recovers_iff.1 (hrecovers s' hstep), (h.step hstep).2⟩
    · rw [← (h.step hstep).1, ← recovers_iff (F := F)]
      constructor
      · intro hrecovers
        exact hrecovers s' hstep
      · intro hrecovers s₁ hs₁
        cases hstep.symm.trans hs₁
        exact hrecovers
  · rintro ⟨row, hrow, hflag⟩ hpending hrunning later s' hreports hlater
    obtain ⟨state, hstate, rfl⟩ := Option.map_eq_some_iff.1 hrow
    have hstuck : Stuck s cfg := ⟨⟨state, hstate, hflag⟩, fun c hc => (by rw [hpending] at hc; cases hc), hrunning⟩
    obtain ⟨⟨state', hstate', hflag'⟩, -, hrunning'⟩ := hstuck.run hreports hlater
    refine ⟨⟨state'.toSpecRow, ?_, hflag'⟩, hrunning'⟩
    rw [Cluster.row, hstate']
    rfl

def twoBad : SpecConfig ℚ := ⟨11 / 20, 1, 2, Nat.two_pos, 60⟩

def specJob (m : SpecMetrics ℚ) (now : ℚ) (seen : Option (SpecState ℚ)) : List (Event Unit ℚ) :=
  [.route ⟨true, false, false, 128, false, false, false, false⟩ ⟨true, true, true, true, true⟩
      ⟨true, true, 256, .missing, false, false⟩ none now now,
    .start ⟨.specMiss, true⟩
      ⟨(true, "active"), true, 0, ⟨true, true, true, true, true⟩, 256, 128, false, false, false, .missing⟩ now,
    .finish true m now, .upsert ⟨(m, now), seen⟩]

def badResult : SpecMetrics ℚ := ⟨true, 8, false, 1 / 4, 1 / 2, -10, 100⟩

theorem speculation_recovers_once :
    ∃ s, run (step twoBad) (specJob badResult 5 none) .empty = some s ∧ Recovers Unit s := by
  have hsome : (run (step twoBad) (specJob badResult 5 none) .empty).isSome = true := by decide +kernel
  obtain ⟨s, hrun⟩ := Option.isSome_iff_exists.1 hsome
  exact ⟨s, hrun, (speculation_recovers_iff hrun).1.2 (by decide +kernel) _ [] s (List.append_nil _).symm hrun⟩

/-- Two bad results at 5 and 10 put the cooldown to 70. At 1000 the job is routed without speculation and would be run
without, and so will every later one. -/
theorem speculation_disabled_for_ever :
    ∃ s, run (step twoBad) (specJob badResult 5 none ++ specJob badResult 10 (some ⟨⟨0, 0⟩, none, 1⟩)) .empty = some s ∧
      s.row = some ⟨1, 70⟩ ∧
      selectLaneWithReason ⟨true, false, false, 128, false, false, false, false⟩ ⟨true, true, true, true, true⟩
        ⟨true, true, 256, .missing, false, false⟩ s.row 1000 (none : Option (Row Unit ℚ)) 1000 =
          (.miss, "governance_disabled") ∧
      workerRequested true .specMiss s.row 1000 = false ∧
      ∀ (later : List (Event Unit ℚ)) s', (∀ b m now, .finish b m now ∈ later → Reports b m) →
        run (step twoBad) later s = some s' → ∀ b ∈ s'.running, b = false := by
  have hend : (run (step twoBad) (specJob badResult 5 none ++ specJob badResult 10 (some ⟨⟨0, 0⟩, none, 1⟩))
      .empty).map (fun s => (s.row, s.gov.pending.length, s.running)) = some (some ⟨1, 70⟩, 0, []) := by decide +kernel
  obtain ⟨s, hrun, hs⟩ := Option.map_eq_some_iff.1 hend
  obtain ⟨hrow, hpending, hrunning⟩ : s.row = some ⟨1, 70⟩ ∧ s.gov.pending.length = 0 ∧ s.running = [] := by
    simpa using hs
  have hstuck : Stuck s twoBad := by
    obtain ⟨state, hstate, hflag⟩ := Option.map_eq_some_iff.1 hrow
    refine ⟨⟨state, hstate, by rw [hflag]; decide⟩, fun c hc => ?_, fun b hb => ?_⟩
    · rw [List.length_eq_zero_iff.1 hpending] at hc
      cases hc
    · rw [hrunning] at hb
      cases hb
  refine ⟨s, hrun, hrow, ?_, ?_, fun later s' hreports hlater => (hstuck.run hreports hlater).running⟩
  · rw [hrow]
    decide +kernel
  · rw [hrow]
    decide +kernel

end Korith.SpecGovernance
