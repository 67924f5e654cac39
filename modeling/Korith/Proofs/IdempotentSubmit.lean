import Korith.Platform.Submit

/-!
# When submission is idempotent

The lookup, the insertion and the enqueueing of a job are separate transactions, and nothing in the ledger keeps a
second row of a key out. Two calls that both look before either inserts give two jobs; a call that fails behind its
insertion leaves a row whose id later calls return although nobody enqueues it.
-/

set_option linter.unusedSectionVars false

namespace Korith.Submit

open Ledger Run

variable {J O K F : Type} {s s' : State J O K F} {c : Submission J O K F}

/-! ### The law -/

structure Idempotent (s : State J O K F) : Prop where
  /-- at most one row for an organization and a key -/
  unique : ∀ r ∈ s.jobs, ∀ r' ∈ s.jobs, ∀ o k, Matches o k r → Matches o k r' → r = r'
  agree : ∀ x ∈ s.returned, ∀ y ∈ s.returned, ∀ k, x.idempotencyKey = some k → y.idempotencyKey = some k →
    x.orgId = y.orgId → x.jobId = y.jobId
  /-- a job whose id was returned was enqueued -/
  enqueued : ∀ x ∈ s.returned, x.jobId ∈ s.enqueued

theorem idempotent_start : Idempotent (start : State J O K F) where
  unique := fun _ hr => absurd hr Table.notMem_empty
  agree := fun _ hx => absurd hx List.not_mem_nil
  enqueued := fun _ hx => absurd hx List.not_mem_nil

/-! ### What holds in every run -/

/-- The row of an open call is there once it is inserted, its job is enqueued when it is about to return, and an
answer for a key belongs to a row with the key. -/
structure Inv (s : State J O K F) : Prop where
  inserted : ∀ c ∈ s.calls, c.phase ≠ .insertJob → ∃ r ∈ s.jobs, r.jobId = c.jobId ∧ r.orgId = c.orgId ∧
    r.idempotencyKey = c.idempotencyKey
  returning : ∀ c ∈ s.calls, c.phase = .return → c.jobId ∈ s.enqueued
  answered : ∀ x ∈ s.returned, ∀ k, x.idempotencyKey = some k → ∃ r ∈ s.jobs, r.jobId = x.jobId ∧ Matches x.orgId k r

theorem inv_start : Inv (start : State J O K F) where
  inserted := fun _ hc => absurd hc List.not_mem_nil
  returning := fun _ hc => absurd hc List.not_mem_nil
  answered := fun _ hx => absurd hx List.not_mem_nil

theorem Idempotent.congr (h : Idempotent s) (hjobs : s'.jobs = s.jobs) (hreturned : s'.returned = s.returned)
    (henqueued : s.enqueued ⊆ s'.enqueued) : Idempotent s' where
  unique := by
    rw [hjobs]
    exact h.unique
  agree := by
    rw [hreturned]
    exact h.agree
  enqueued := by
    rw [hreturned]
    exact fun x hx => henqueued (h.enqueued x hx)

theorem Idempotent.answer_iff {x : Answer J O K} (h : Idempotent s) (hinv : Inv s)
    (hrow : ∀ k, x.idempotencyKey = some k → ∃ r ∈ s.jobs, r.jobId = x.jobId ∧ Matches x.orgId k r)
    (hjobs : s'.jobs = s.jobs) (hreturned : s'.returned = x :: s.returned) (henqueued : s'.enqueued = s.enqueued) :
    Idempotent s' ↔ x.jobId ∈ s.enqueued := by
  have hsame : ∀ y ∈ s.returned, ∀ k, x.idempotencyKey = some k → y.idempotencyKey = some k → x.orgId = y.orgId →
      x.jobId = y.jobId := by
    intro y hy k hx hy' horg
    obtain ⟨r, hr, hj, hmatches⟩ := hrow k hx
    obtain ⟨r', hr', hj', hmatches'⟩ := hinv.answered y hy k hy'
    rw [← hj, ← hj', h.unique r hr r' hr' y.orgId k (horg ▸ hmatches) hmatches']
  constructor
  · intro h'
    rw [← henqueued]
    exact h'.enqueued x (hreturned ▸ List.mem_cons_self)
  · intro hx
    refine ⟨hjobs ▸ h.unique, ?_, ?_⟩
    · rw [hreturned]
      intro y hy z hz k hky hkz horg
      rcases List.mem_cons.1 hy with rfl | hyold <;> rcases List.mem_cons.1 hz with rfl | hzold
      · rfl
      · exact hsame z hzold k hky hkz horg
      · exact (hsame y hyold k hkz hky horg.symm).symm
      · exact h.agree y hyold z hzold k hky hkz horg
    · rw [hreturned, henqueued]
      intro y hy
      rcases List.mem_cons.1 hy with rfl | hy
      · exact hx
      · exact h.enqueued y hy

variable [DecidableEq J]

theorem mem_insert_iff {r : JobRow J O K F} (hnew : s.jobs.find c.jobId = none) :
    r ∈ s.jobs.insertOrReplace c.row ↔ r = c.row ∨ r ∈ s.jobs := by
  rw [Table.mem_insertOrReplace]
  refine or_congr_right ⟨And.left, fun hr => ⟨hr, fun hj => ?_⟩⟩
  have hfind : s.jobs.find r.jobId = some r := Table.find_eq_some_iff.2 ⟨hr, rfl⟩
  rw [hj] at hfind
  cases hnew.symm.trans hfind

variable [DecidableEq O] [DecidableEq K] [DecidableEq F] {e : Event J O K F}

theorem Inv.leave (h : Inv s) : Inv (s.leave c) where
  inserted := fun c' hc' => h.inserted c' (List.mem_of_mem_erase hc')
  returning := fun c' hc' => h.returning c' (List.mem_of_mem_erase hc')
  answered := h.answered

theorem Inv.proceed {phase : Phase} (h : Inv s) (hc : c ∈ s.calls) (hphase : c.phase ≠ .insertJob)
    (hreturn : phase ≠ .return) : Inv (s.proceed c phase) where
  inserted := by
    intro c' hc' hphase'
    rcases List.mem_cons.1 hc' with rfl | hc'
    · exact h.inserted c hc hphase
    · exact h.inserted c' (List.mem_of_mem_erase hc') hphase'
  returning := by
    intro c' hc' hphase'
    rcases List.mem_cons.1 hc' with rfl | hc'
    · exact absurd hphase' hreturn
    · exact h.returning c' (List.mem_of_mem_erase hc') hphase'
  answered := h.answered

theorem advance_insertJob (hphase : c.phase = .insertJob) (hnew : s.jobs.find c.jobId = none) :
    advance s c = { s.proceed c .initArtifacts with jobs := s.jobs.insertOrReplace c.row } := by
  have hrow : s.jobs.find c.row.jobId = none := hnew
  simp [advance, hphase, insertJob, hrow]

theorem advance_insertJob_of_some (hphase : c.phase = .insertJob) (hold : s.jobs.find c.jobId ≠ none) :
    advance s c = s.leave c := by
  have hrow : (s.jobs.find c.row.jobId).isSome = true := Option.isSome_iff_ne_none.2 hold
  simp only [advance, hphase, insertJob, if_pos hrow]

theorem Inv.advance (h : Inv s) (hc : c ∈ s.calls) : Inv (advance s c) := by
  cases hphase : c.phase with
  | insertJob =>
    by_cases hnew : s.jobs.find c.jobId = none
    · rw [advance_insertJob hphase hnew]
      refine ⟨fun c' hc' hphase' => ?_, fun c' hc' hphase' => ?_, fun x hx k hk => ?_⟩
      · rcases List.mem_cons.1 hc' with rfl | hc'
        · exact ⟨c.row, (mem_insert_iff hnew).2 (.inl rfl), rfl, rfl, rfl⟩
        · obtain ⟨r, hr, hrow⟩ := h.inserted c' (List.mem_of_mem_erase hc') hphase'
          exact ⟨r, (mem_insert_iff hnew).2 (.inr hr), hrow⟩
      · rcases List.mem_cons.1 hc' with rfl | hc'
        · cases hphase'
        · exact h.returning c' (List.mem_of_mem_erase hc') hphase'
      · obtain ⟨r, hr, hrow⟩ := h.answered x hx k hk
        exact ⟨r, (mem_insert_iff hnew).2 (.inr hr), hrow⟩
    · rw [advance_insertJob_of_some hphase hnew]
      exact h.leave
  | initArtifacts | appendAccept | appendAssign =>
    simp only [Submit.advance, hphase]
    exact h.proceed hc (by simp [hphase]) (by simp)
  | enqueue =>
    simp only [Submit.advance, hphase]
    refine ⟨fun c' hc' hphase' => ?_, fun c' hc' hphase' => ?_, h.answered⟩
    · rcases List.mem_cons.1 hc' with rfl | hc'
      · exact h.inserted c hc (by simp [hphase])
      · exact h.inserted c' (List.mem_of_mem_erase hc') hphase'
    · rcases List.mem_cons.1 hc' with rfl | hc'
      · exact List.mem_cons_self
      · exact List.mem_cons_of_mem _ (h.returning c' (List.mem_of_mem_erase hc') hphase')
  | «return» =>
    simp only [Submit.advance, hphase]
    refine ⟨h.leave.inserted, h.leave.returning, fun x hx k hk => ?_⟩
    rcases List.mem_cons.1 hx with rfl | hx
    · obtain ⟨r, hr, hj, ho, hkey⟩ := h.inserted c hc (by simp [hphase])
      exact ⟨r, hr, hj, hkey.trans hk, ho⟩
    · exact h.answered x hx k hk

/-! ### One event -/

theorem step_cases (h : step s e = some s') :
    (∃ c j k, e = .lookup c (some j) ∧ c.idempotencyKey = some k ∧ (∃ r ∈ s.jobs, r.jobId = j ∧ Matches c.orgId k r) ∧
        s' = { s with returned := ⟨c.orgId, c.idempotencyKey, j⟩ :: s.returned }) ∨
      (∃ c, e = .lookup c none ∧ c.phase = .insertJob ∧ s' = { s with calls := c :: s.calls }) ∨
      (∃ c ∈ s.calls, e = .advance c ∧ s' = advance s c) ∨
      ∃ c ∈ s.calls, e = .fail c ∧ s' = s.leave c := by
  cases e with
  | lookup c found =>
    simp only [step] at h
    split_ifs at h with hfinds
    obtain ⟨hphase, hfinds⟩ := hfinds
    cases found with
    | none => exact .inr (.inl ⟨c, rfl, hphase, (Option.some.inj h).symm⟩)
    | some j =>
      cases hkey : c.idempotencyKey with
      | none =>
        rw [hkey] at hfinds
        cases hfinds
      | some k =>
        rw [hkey] at hfinds
        obtain ⟨r, hr, hj, hmatches, -⟩ := hfinds
        exact .inl ⟨c, j, k, rfl, hkey, ⟨r, hr, hj, hmatches⟩, by rw [← Option.some.inj h, hkey]⟩
  | advance c =>
    simp only [step] at h
    split_ifs at h with hc
    exact .inr (.inr (.inl ⟨c, hc, rfl, (Option.some.inj h).symm⟩))
  | fail c =>
    simp only [step] at h
    split_ifs at h with hc
    exact .inr (.inr (.inr ⟨c, hc, rfl, (Option.some.inj h).symm⟩))

theorem Inv.step (h : Inv s) (hstep : step s e = some s') : Inv s' := by
  obtain ⟨c, j, k, -, hkey, hrow, rfl⟩ | ⟨c, -, hphase, rfl⟩ | ⟨c, hc, -, rfl⟩ | ⟨c, -, -, rfl⟩ := step_cases hstep
  · refine ⟨h.inserted, h.returning, fun x hx k' hk' => ?_⟩
    rcases List.mem_cons.1 hx with rfl | hx
    · cases hkey.symm.trans hk'
      exact hrow
    · exact h.answered x hx k' hk'
  · refine ⟨fun c' hc' hphase' => ?_, fun c' hc' hphase' => ?_, h.answered⟩
    · rcases List.mem_cons.1 hc' with rfl | hc'
      · exact absurd hphase hphase'
      · exact h.inserted c' hc' hphase'
    · rcases List.mem_cons.1 hc' with rfl | hc'
      · rw [hphase] at hphase'
        cases hphase'
      · exact h.returning c' hc' hphase'
  · exact h.advance hc
  · exact h.leave

def KeyFree (s : State J O K F) (c : Submission J O K F) : Prop :=
  ∀ k ∈ c.idempotencyKey, ∀ r ∈ s.jobs.rows, ¬ Matches c.orgId k r

instance (s : State J O K F) (c : Submission J O K F) : Decidable (KeyFree s c) :=
  inferInstanceAs (Decidable (∀ k ∈ c.idempotencyKey, ∀ r ∈ s.jobs.rows, ¬ Matches c.orgId k r))

theorem Idempotent.insert_iff (h : Idempotent s) (hnew : s.jobs.find c.jobId = none)
    (hjobs : s'.jobs = s.jobs.insertOrReplace c.row) (hreturned : s'.returned = s.returned)
    (henqueued : s'.enqueued = s.enqueued) : Idempotent s' ↔ KeyFree s c := by
  constructor
  · intro h' k hk r hr hmatches
    have hcmem : c.row ∈ s'.jobs := hjobs ▸ (mem_insert_iff hnew).2 (.inl rfl)
    have hrmem : r ∈ s'.jobs := hjobs ▸ (mem_insert_iff hnew).2 (.inr hr)
    have heq := h'.unique c.row hcmem r hrmem c.orgId k ⟨hk, rfl⟩ hmatches
    have hfind : s.jobs.find c.jobId = some c.row := Table.find_eq_some_iff.2 ⟨heq ▸ hr, rfl⟩
    cases hnew.symm.trans hfind
  · intro hfree
    have hnone : ∀ o k r, r ∈ s.jobs → Matches o k c.row → ¬ Matches o k r := by
      rintro o k r hr ⟨hk, rfl⟩
      exact hfree k hk r hr
    refine ⟨?_, hreturned ▸ h.agree, ?_⟩
    · rw [hjobs]
      intro r hr r' hr' o k hmatches hmatches'
      rcases (mem_insert_iff hnew).1 hr with rfl | hr <;> rcases (mem_insert_iff hnew).1 hr' with rfl | hr'
      · rfl
      · exact absurd hmatches' (hnone o k r' hr' hmatches)
      · exact absurd hmatches (hnone o k r hr hmatches')
      · exact h.unique r hr r' hr' o k hmatches hmatches'
    · rw [hreturned, henqueued]
      exact h.enqueued

/-- A lookup finds only jobs that were enqueued, and a row is inserted only while there is none with its key. -/
def Safe (s : State J O K F) : Event J O K F → Prop
  | .lookup _ found => ∀ j ∈ found, j ∈ s.enqueued
  | .advance c => c.phase = .insertJob → s.jobs.find c.jobId = none → KeyFree s c
  | .fail _ => True

instance (s : State J O K F) : ∀ e, Decidable (Safe s e)
  | .lookup _ found => inferInstanceAs (Decidable (∀ j ∈ found, j ∈ s.enqueued))
  | .advance _ => inferInstanceAs (Decidable (_ → _ → _))
  | .fail _ => .isTrue trivial

theorem Idempotent.advance_iff (h : Idempotent s) (hinv : Inv s) (hc : c ∈ s.calls) :
    Idempotent (advance s c) ↔ Safe s (.advance c) := by
  have hother : c.phase ≠ .insertJob → Safe s (.advance c) := fun hphase hinsert => absurd hinsert hphase
  cases hphase : c.phase with
  | insertJob =>
    by_cases hnew : s.jobs.find c.jobId = none
    · rw [advance_insertJob hphase hnew]
      refine Iff.trans (h.insert_iff hnew rfl rfl rfl) ?_
      exact ⟨fun hfree _ _ => hfree, fun hsafe => hsafe hphase hnew⟩
    · rw [advance_insertJob_of_some hphase hnew]
      exact ⟨fun _ _ hnew' => absurd hnew' hnew, fun _ => h.congr rfl rfl (List.Subset.refl _)⟩
  | initArtifacts | appendAccept | appendAssign =>
    simp only [Submit.advance, hphase]
    exact ⟨fun _ => hother (by simp [hphase]), fun _ => h.congr rfl rfl (List.Subset.refl _)⟩
  | enqueue =>
    simp only [Submit.advance, hphase]
    exact ⟨fun _ => hother (by simp [hphase]), fun _ => h.congr rfl rfl (List.subset_cons_self _ _)⟩
  | «return» =>
    simp only [Submit.advance, hphase]
    have hrow := hinv.inserted c hc (by simp [hphase])
    refine Iff.trans (h.answer_iff hinv ?_ rfl rfl rfl) ?_
    · intro k hk
      obtain ⟨r, hr, hj, ho, hkey⟩ := hrow
      exact ⟨r, hr, hj, hkey.trans hk, ho⟩
    · exact ⟨fun _ => hother (by simp [hphase]), fun _ => hinv.returning c hc hphase⟩

theorem Idempotent.step_iff (h : Idempotent s) (hinv : Inv s) (hstep : step s e = some s') :
    Idempotent s' ↔ Safe s e := by
  obtain ⟨c, j, k, rfl, hkey, hrow, rfl⟩ | ⟨c, rfl, hphase, rfl⟩ | ⟨c, hc, rfl, rfl⟩ | ⟨c, hc, rfl, rfl⟩ :=
    step_cases hstep
  · refine Iff.trans (h.answer_iff hinv ?_ rfl rfl rfl) ?_
    · intro k' hk'
      cases hkey.symm.trans hk'
      exact hrow
    · exact ⟨fun hj j' hj' => Option.some.inj hj' ▸ hj, fun hsafe => hsafe j rfl⟩
  · exact ⟨fun _ j hj => (by cases hj), fun _ => h.congr rfl rfl (List.Subset.refl _)⟩
  · exact h.advance_iff hinv hc
  · exact ⟨fun _ => trivial, fun _ => h.congr rfl rfl (List.Subset.refl _)⟩

/-! ### Result -/

theorem submit_idempotent_iff {events : List (Event J O K F)} (hrun : run step events start = some s) :
    (∀ before after s₁, events = before ++ after → run step before start = some s₁ → Idempotent s₁) ↔
      Along step Safe events start := by
  rw [← along_states_iff idempotent_start hrun]
  have hstart : Inv (start : State J O K F) ∧ Idempotent (start : State J O K F) := ⟨inv_start, idempotent_start⟩
  refine along_iff (I := fun s => Inv s ∧ Idempotent s) hstart ?_ ?_ hrun
  · rintro s e s' ⟨hinv, -⟩ hlaw hstep
    exact ⟨hinv.step hstep, hlaw s' hstep⟩
  · rintro s e s' ⟨hinv, hidem⟩ hstep
    rw [← hidem.step_iff hinv hstep]
    constructor
    · intro hlaw
      exact hlaw s' hstep
    · intro h s'' hs''
      rwa [← Option.some.inj (hstep.symm.trans hs'')]

def firstCall : Submission Nat Nat Nat Nat := ⟨1, some 5, 10, 0, 7, .insertJob⟩

def secondCall : Submission Nat Nat Nat Nat := ⟨1, some 5, 20, 0, 7, .insertJob⟩

def completes (c : Submission Nat Nat Nat Nat) : List (Event Nat Nat Nat Nat) :=
  [.advance c, .advance { c with phase := .initArtifacts }, .advance { c with phase := .appendAccept },
    .advance { c with phase := .appendAssign }, .advance { c with phase := .enqueue },
    .advance { c with phase := .return }]

/-- One call after the other. -/
theorem submit_idempotent_in_turn :
    let events := .lookup firstCall none :: completes firstCall ++ [.lookup secondCall (some 10)]
    ∃ s, run step events start = some s ∧ s.returned = [⟨1, some 5, 10⟩, ⟨1, some 5, 10⟩] ∧ Idempotent s := by
  intro events
  have hsome : (run step events start).map State.returned = some [⟨1, some 5, 10⟩, ⟨1, some 5, 10⟩] := by
    decide +kernel
  obtain ⟨s, hs, hreturned⟩ := Option.map_eq_some_iff.1 hsome
  have hsafe : Along step Safe events start := by decide +kernel
  exact ⟨s, hs, hreturned, (submit_idempotent_iff hs).2 hsafe events [] s (List.append_nil _).symm hs⟩

/-- Two calls that both look first give two jobs for one key; and a call that fails while it creates its directory
leaves an id that the next call returns, of a job that nobody enqueues. -/
theorem submit_not_idempotent :
    ((run step ([.lookup firstCall none, .lookup secondCall none] ++ completes firstCall ++ completes secondCall)
        start).map fun s => (s.returned, s.jobs.rows.length)) =
        some ([⟨1, some 5, 20⟩, ⟨1, some 5, 10⟩], 2) ∧
      ((run step [.lookup firstCall none, .advance firstCall, .fail { firstCall with phase := .initArtifacts },
        .lookup secondCall (some 10)] start).map fun s => (s.returned, s.enqueued)) =
        some ([⟨1, some 5, 10⟩], []) := by
  constructor <;> decide +kernel

end Korith.Submit
