import Korith.Proofs.ExecutorRun

/-!
# What one request leaves for the next

`holo_kv` and `spec_state` outlive a request. If the allocator returns the same address for the next context they are
recognised, and whatever the first request left in them is taken for its own.
-/

set_option linter.unusedSectionVars false

namespace Korith.Executor

open Exec

variable {F L : Type} [LinearOrder L] [OrderBot L] [FloatArith F] {e e₁ : Env F L} {p q : Process F L}
  {s s' : State F L}

/-- The first call of a request finds its statics as a new process has them. -/
structure FreshStatics (e : Env F L) (p : Process F L) : Prop where
  holo : (recognise e p).holo = {}
  spec : (recognise e p).spec = Spec.init (max 1 e.nSeqMax)

theorem FreshStatics.of_unrecognised (hs : p.specCtx ≠ e.ctx) (hh : p.holoCtx ≠ e.ctx) : FreshStatics e p :=
  ⟨by simp [recognise, hh], by simp [recognise, hs]⟩

/-! ### Keys -/

theorem batchExecutorStep_keys (c : Call F) (p : Process F L) : (batchExecutorStep e c p).proc = p ∨
      (batchExecutorStep e c p).proc.specCtx = e.ctx ∧ (batchExecutorStep e c p).proc.holoCtx = e.ctx := by
  unfold batchExecutorStep
  split_ifs
  · exact .inl rfl
  · exact .inl rfl
  · exact .inr ⟨rfl, rfl⟩

theorem runCalls_keys (cs : List (Call F)) (p : Process F L) : (runCalls e cs p).proc = p ∨
      (runCalls e cs p).proc.specCtx = e.ctx ∧ (runCalls e cs p).proc.holoCtx = e.ctx := by
  induction cs generalizing p with
  | nil => exact .inl rfl
  | cons c cs ih =>
    rw [runCalls]
    dsimp only
    rcases ih (batchExecutorStep e c p).proc with h | h
    · rw [h]
      exact batchExecutorStep_keys c p
    · exact .inr h

theorem FreshStatics.behind (h : FreshStatics e p) (hctx : e₁.ctx ≠ e.ctx) (prompt : List Token)
    (prefixHash : Nat) (calls : List (Call F)) : FreshStatics e (runRequest e₁ prompt prefixHash calls p).proc := by
  rcases runCalls_keys calls (newRequest e₁ prompt prefixHash p) with heq | ⟨hs, hh⟩
  · rw [runRequest, heq]
    exact ⟨h.holo, h.spec⟩
  · exact .of_unrecognised (hs ▸ hctx) (hh ▸ hctx)

/-! ### Twins -/

structure Twin (e : Env F L) (p q : Process F L) : Prop where
  own : { p.st with holo := q.st.holo, spec := q.st.spec } = q.st
  statics : recognise e p = recognise e q

theorem Twin.field {α : Type} (h : Twin e p q) (f : State F L → α)
    (hf : ∀ s holo spec, f { s with holo := holo, spec := spec } = f s) : f p.st = f q.st :=
  (hf ..).symm.trans (congrArg f h.own)

theorem Twin.refl (p : Process F L) : Twin e p p := ⟨rfl, rfl⟩

theorem Twin.call (h : Twin e p q) (c : Call F) :
    Twin e (batchExecutorStep e c p).proc (batchExecutorStep e c q).proc ∧
      (batchExecutorStep e c p).ret = (batchExecutorStep e c q).ret ∧
      (batchExecutorStep e c p).log = (batchExecutorStep e c q).log := by
  have hptr : p.st.logitsTarget = q.st.logitsTarget := h.field State.logitsTarget fun _ _ _ => rfl
  have hfin : p.st.finished = q.st.finished := h.field State.finished fun _ _ _ => rfl
  unfold batchExecutorStep
  rw [hptr, hfin, h.statics]
  split_ifs
  · exact ⟨h, rfl, rfl⟩
  · exact ⟨h, rfl, rfl⟩
  · exact ⟨.refl _, rfl, rfl⟩

theorem Twin.run (h : Twin e p q) (cs : List (Call F)) : Twin e (runCalls e cs p).proc (runCalls e cs q).proc ∧
      (runCalls e cs p).reports = (runCalls e cs q).reports ∧ (runCalls e cs p).log = (runCalls e cs q).log := by
  induction cs generalizing p q with
  | nil => exact ⟨h, rfl, rfl⟩
  | cons c cs ih =>
    obtain ⟨hcall, hret, hlog⟩ := h.call c
    obtain ⟨hend, hreps, hlogs⟩ := ih hcall
    have hlen : p.st.printed = q.st.printed := h.field State.printed fun _ _ _ => rfl
    have hlen' : (batchExecutorStep e c p).proc.st.printed = (batchExecutorStep e c q).proc.st.printed :=
      hcall.field State.printed fun _ _ _ => rfl
    simp only [runCalls]
    exact ⟨hend, by rw [hret, hreps, hlen, hlen'], by rw [hlog, hlogs]⟩

/-! ### Calls that do not speculate -/

/-- Every iteration of the call is a plain step of the target. -/
def Plain (e : Env F L) (c : Call F) : Prop := (c.forceNormal || !c.allowExec || commitBlocked e c) = true

/-- Only sequence 0 has cells, and the ring uses another one. -/
def Clear (s : State F L) : Prop := s.spec.ring.seqId ≠ 0 ∧ ∀ q, q ≠ 0 → s.tgt.mem.Holds q []

structure Alike (s s' : State F L) : Prop where
  own : ∃ holo spec, s' = { s with holo := holo, spec := spec }
  clear : Clear s
  clear' : Clear s'

theorem Alike.spec (h : Clear s) {holo : HoloKv} {spec : Spec F L} (hseq : spec.ring.seqId ≠ 0) :
    Alike s { s with holo := holo, spec := spec } := ⟨⟨holo, spec, rfl⟩, h, hseq, h.2⟩

theorem Alike.field {α : Type} (h : Alike s s') (f : State F L → α)
    (hf : ∀ s holo spec, f { s with holo := holo, spec := spec } = f s) : f s = f s' := by
  obtain ⟨holo, spec, rfl⟩ := h.own
  exact (hf s holo spec).symm

theorem Alike.between {s₁ s₁' : State F L} (h : Alike s s') (h₁ : Alike s s₁) (h₁' : Alike s' s₁') :
    Alike s₁ s₁' := by
  obtain ⟨holo, spec, rfl⟩ := h.own
  obtain ⟨holo₁, spec₁, rfl⟩ := h₁.own
  obtain ⟨holo₁', spec₁', rfl⟩ := h₁'.own
  exact ⟨⟨holo₁', spec₁', rfl⟩, h₁.clear', h₁'.clear'⟩

/-- The code changes nothing but the statics. -/
def OnStatics (x : M F L Unit) : Prop := ∀ s, Clear s → ∃ s₁, Alike s s₁ ∧ x s = ⟨.ok (), s₁, []⟩

theorem rel_onStatics {x y : M F L Unit} (hx : OnStatics x) (hy : OnStatics y) : Rel Alike x y := by
  intro s s' h
  obtain ⟨s₁, h₁, hs⟩ := hx s h.clear
  obtain ⟨s₁', h₁', hs'⟩ := hy s' h.clear'
  rw [hs, hs']
  exact ⟨rfl, rfl, h.between h₁ h₁'⟩

theorem onStatics_flushIfDisabled : OnStatics (flushIfDisabled : M F L Unit) := by
  intro s h
  refine ⟨_, ?_, rfl⟩
  beta_reduce
  split_ifs
  · exact .spec h h.1
  · exact .spec h h.1

theorem onStatics_resetIfValid (preserveProfit : Bool) : OnStatics (resetIfValid preserveProfit : M F L Unit) := by
  intro s h
  cases hv : s.spec.ring.valid with
  | false =>
    refine ⟨s, .spec h h.1, ?_⟩
    show when s.spec.ring.valid _ s = _
    rw [hv]
    rfl
  | true =>
    -- the sequence of the ring has no cell that the reset could remove
    have hmem : s.tgt.mem.seqRm s.spec.ring.seqId (-1) (-1) = s.tgt.mem := (h.2 _ h.1).seqRm_nil
    have hreset : (resetSpecState true preserveProfit : M F L Unit) s =
        ⟨.ok (), { s with tgt.mem := s.tgt.mem.seqRm s.spec.ring.seqId (-1) (-1),
                          spec := ((resetSpecState true preserveProfit : M F L Unit) s).state.spec }, []⟩ := rfl
    rw [hmem] at hreset
    refine ⟨{ s with spec := ((resetSpecState true preserveProfit : M F L Unit) s).state.spec }, .spec h h.1, ?_⟩
    show when s.spec.ring.valid _ s = _
    rw [hv]
    exact hreset

theorem onStatics_defer (b : Bool) (t : Token) :
    OnStatics (when b (modify fun s => { s with spec.deferred := s.spec.deferred ++ [t] }) : M F L Unit) := by
  intro s h
  cases b with
  | false => exact ⟨s, .spec h h.1, rfl⟩
  | true => exact ⟨{ s with spec.deferred := s.spec.deferred ++ [t] }, .spec h h.1, rfl⟩

theorem rel_read {α : Type} {f : State F L → M F L α}
    (hf : ∀ s holo spec, f { s with holo := holo, spec := spec } = f s) (h : ∀ s, Rel Alike (f s) (f s)) :
    Rel Alike (get >>= f) (get >>= f) := by
  refine rel_get_bind fun s s' hs => ?_
  obtain ⟨holo, spec, rfl⟩ := hs.own
  rw [hf s holo spec]
  exact h s

theorem rel_own {f : State F L → State F L} (hmem : ∀ s, Clear s → Clear (f s))
    (hf : ∀ s holo spec, ∃ spec', f { s with holo := holo, spec := spec } = { f s with holo := holo, spec := spec' }) :
    Rel Alike (modify f : M F L Unit) (modify f) := by
  refine rel_modify fun s s' hs => ?_
  obtain ⟨⟨holo, spec, rfl⟩, h, h'⟩ := hs
  obtain ⟨spec', heq⟩ := hf s holo spec
  exact ⟨⟨holo, spec', heq⟩, hmem _ h, hmem _ h'⟩

theorem rel_finish : Rel Alike (finish : M F L Unit) finish := rel_own (fun _ h => h) fun _ _ _ => ⟨_, rfl⟩

theorem rel_tick : Rel Alike (tick : M F L Nat) tick :=
  rel_read (fun _ _ _ => rfl) fun _ => rel_bind (rel_own (fun _ h => h) fun _ _ _ => ⟨_, rfl⟩) fun _ => rel_pure _

theorem rel_now : Rel Alike (now e) (now e) := rel_bind rel_tick fun _ => rel_pure _

theorem rel_decodeTarget (start : Nat) (ts : List Token) :
    Rel Alike (decodeTarget e 0 start ts) (decodeTarget e 0 start ts) := by
  refine rel_bind rel_tick fun n => ?_
  split_ifs
  · exact rel_pure _
  · refine rel_bind (rel_own (fun s h => ⟨h.1, fun q hq => ?_⟩) fun _ _ _ => ⟨_, rfl⟩) fun _ => rel_pure _
    exact Ctx.decode_holds_ne (h.2 q hq) hq

theorem rel_nextToken : Rel Alike (nextToken e) (nextToken e) := by
  refine rel_read (fun _ _ _ => rfl) fun s => ?_
  split_ifs
  · exact rel_bind rel_finish fun _ => rel_pure _
  · refine rel_bind (rel_note _ _) fun _ => ?_
    split
    · exact rel_bind rel_finish fun _ => rel_pure _
    · exact rel_pure _

theorem rel_decodeCommitted (t : Token) : Rel Alike (decodeCommitted e t) (decodeCommitted e t) := by
  refine rel_read (fun _ _ _ => rfl) fun s => rel_bind rel_now fun t0 => rel_bind (rel_decodeTarget _ _) fun ok => ?_
  split_ifs
  · exact rel_bind rel_now fun t1 => rel_bind (rel_own (fun _ h => h) fun _ _ _ => ⟨_, rfl⟩) fun _ => rel_pure _
  · exact rel_bind rel_finish fun _ => rel_pure _

theorem rel_printOne (t : Token) : Rel Alike (printOne e t) (printOne e t) := by
  refine rel_bind (rel_bind rel_tick fun n => ?_) fun ok => ?_
  · split_ifs
    · exact rel_pure _
    · exact rel_bind (rel_own (fun _ h => h) fun _ _ _ => ⟨_, rfl⟩) fun _ => rel_pure _
  · split_ifs
    · exact rel_bind (rel_own (fun _ h => h) fun _ _ _ => ⟨_, rfl⟩) fun _ => rel_pure _
    · exact rel_bind rel_finish fun _ => rel_pure _

theorem rel_syncDraftAfter (pos : Nat) (t : Token) :
    Rel Alike (syncDraftAfter e false pos t) (syncDraftAfter e false pos t) := by
  refine rel_get_bind fun s s' h => ?_
  obtain ⟨holo, spec, rfl⟩ := h.own
  dsimp only
  rw [if_neg Bool.false_ne_true, if_neg Bool.false_ne_true]
  split_ifs
  · exact rel_pure _
  · exact rel_bind (rel_onStatics (onStatics_defer _ t) (onStatics_defer _ t)) fun _ => rel_pure _

theorem rel_stepOneTarget : Rel Alike (stepOneTarget e false) (stepOneTarget e false) := by
  refine rel_read (fun _ _ _ => rfl) fun s => rel_bind rel_nextToken fun next => ?_
  cases next with
  | none => exact rel_pure _
  | some t =>
    refine rel_bind (rel_decodeCommitted t) fun ok => ?_
    split_ifs
    · exact rel_pure _
    · refine rel_bind (rel_own (fun _ h => h) fun _ _ _ => ⟨_, rfl⟩) fun _ => rel_bind (rel_printOne t) fun ok => ?_
      split_ifs
      · exact rel_pure _
      · exact rel_syncDraftAfter _ t

theorem exits_stepAndContinue {α : Type} : Exec.Exits (stepAndContinue e false : M F L α) := by
  refine exits_bind fun ok => ?_
  split_ifs
  · exact exits_exit _
  · exact exits_exit _

theorem rel_stepAndContinue {α : Type} : Rel Alike (stepAndContinue e false : M F L α) (stepAndContinue e false) := by
  refine rel_bind rel_stepOneTarget fun ok => ?_
  split_ifs
  · exact rel_exit _
  · exact rel_exit _

theorem baselineGates_plain {c : Call F} (hc : Plain e c) : baselineGates e c = resetAndStep e false := by
  unfold baselineGates
  simp only [if_pos (show _ = true from hc)]
  rfl

theorem rel_iteration {c : Call F} (hc : Plain e c) : Rel Alike (iteration e c) (iteration e c) := by
  have hexits : Exec.Exits (baselineGates e c) := by
    rw [baselineGates_plain hc]
    exact exits_bind fun _ => exits_stepAndContinue
  have hgates : Rel Alike (baselineGates e c) (baselineGates e c) := by
    rw [baselineGates_plain hc]
    exact rel_bind (rel_onStatics (onStatics_resetIfValid _) (onStatics_resetIfValid _)) fun _ => rel_stepAndContinue
  have hhead : Rel Alike (loopHead e c) (loopHead e c) :=
    rel_bind (rel_onStatics onStatics_flushIfDisabled onStatics_flushIfDisabled) fun _ => hgates.bind_of_exits hexits
  exact hhead.bind_of_exits (exits_bind fun _ => hexits.bind)

theorem alike_evictStale (c : Call F) (h : Clear s) : Alike s (evictStale e c s) := by
  unfold evictStale
  dsimp only
  split_ifs
  · rw [(h.2 1 one_ne_zero).seqRm_nil]
    exact .spec h h.1
  · exact .spec h h.1

theorem Clear.recognise (h : Clear p.st) : Clear (recognise e p) := by
  refine ⟨?_, h.2⟩
  unfold Executor.recognise
  dsimp only
  split_ifs
  · exact one_ne_zero
  · exact h.1
  · exact h.1

theorem alike_recognise (h : Alike p.st q.st) : Alike (recognise e p) (recognise e q) := by
  obtain ⟨holo, spec, hown⟩ := h.own
  refine ⟨⟨(recognise e q).holo, (recognise e q).spec, ?_⟩, h.clear.recognise, h.clear'.recognise⟩
  unfold recognise State.draftRow
  rw [hown]

structure Level (e : Env F L) (p q : Process F L) : Prop where
  alike : Alike (recognise e p) (recognise e q)
  enabled : p.st.specEnabled = q.st.specEnabled

theorem Level.call {c : Call F} (hc : Plain e c) (h : Level e p q) :
    Level e (batchExecutorStep e c p).proc (batchExecutorStep e c q).proc ∧
      (batchExecutorStep e c p).ret = (batchExecutorStep e c q).ret := by
  have hptr : p.st.logitsTarget = q.st.logitsTarget := h.alike.field State.logitsTarget fun _ _ _ => rfl
  have hfin : p.st.finished = q.st.finished := h.alike.field State.finished fun _ _ _ => rfl
  have hguard : ∀ s s' : State F L, Alike s s' → inLoop c s = inLoop c s' :=
    fun s s' h => h.field (inLoop c) fun _ _ _ => rfl
  obtain ⟨hres, -, hstate⟩ := rel_loop hguard (rel_iteration hc) (fuel c) _ _
    (h.alike.between (alike_evictStale c h.alike.clear) (alike_evictStale c h.alike.clear'))
  unfold batchExecutorStep
  rw [hptr, hfin]
  split_ifs
  · exact ⟨h, rfl⟩
  · exact ⟨h, rfl⟩
  · refine ⟨⟨alike_recognise hstate, hstate.field State.specEnabled fun _ _ _ => rfl⟩, ?_⟩
    simp only [retOf, hres, hstate.field State.printedThisCall fun _ _ _ => rfl]

theorem Level.run {cs : List (Call F)} (hcs : ∀ c ∈ cs, Plain e c) (h : Level e p q) :
    Level e (runCalls e cs p).proc (runCalls e cs q).proc ∧ (runCalls e cs p).reports = (runCalls e cs q).reports := by
  induction cs generalizing p q with
  | nil => exact ⟨h, rfl⟩
  | cons c cs ih =>
    obtain ⟨hcall, hret⟩ := h.call (hcs c List.mem_cons_self)
    obtain ⟨hend, hreps⟩ := ih (fun c hc => hcs c (List.mem_cons_of_mem _ hc)) hcall
    have hlen : p.st.printed = q.st.printed := h.alike.field State.printed fun _ _ _ => rfl
    have hlen' : (batchExecutorStep e c p).proc.st.printed = (batchExecutorStep e c q).proc.st.printed :=
      hcall.alike.field State.printed fun _ _ _ => rfl
    simp only [runCalls]
    exact ⟨hend, by rw [hret, hreps, hlen, hlen']⟩

/-! ### Result -/

end Korith.Executor
