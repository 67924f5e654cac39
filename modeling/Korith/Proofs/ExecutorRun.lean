import Korith.Proofs.ExecutorCount
import Korith.Proofs.ExecutorRing

/-!
# Requests keep the invariant

A call leaves a process from which the next call can start; so a request prints, over all its calls, what target-only
greedy decoding prints, as long as no call meets a hazard. Behind each result is a request that meets one and breaks
the promise.
-/

set_option linter.unusedSectionVars false

namespace Korith.Executor

open Exec

variable {F L : Type} [LinearOrder L] [OrderBot L] [FloatArith F] {B : Hazard → Prop} {e : Env F L} {c : Call F}
  {prompt : List Token} {strict : Prop} {p : Process F L} {batch : Nat} {s : State F L} {out : List Token}

/-! ### One call -/

structure Between (e : Env F L) (prompt : List Token) (strict : Prop) (p : Process F L) : Prop where
  follows : Follows (e.next prompt) [] p.st.printed
  commits : ∀ c ∈ p.st.commits, c.2 = some (e.target (prompt ++ c.1))
  ptr : p.st.logitsTarget ≠ .null
  inv : p.st.finished = false → Inv e prompt 0 strict (recognise e p).core (recognise e p).frame
  ended : strict → p.st.finished = true → e.Ended prompt p.st.printed

structure CallOk (e : Env F L) (prompt : List Token) (strict : Prop) (c : Call F) (p : Process F L)
    (r : Called F L) : Prop where
  between : Between e prompt strict r.proc
  fuel : r.ret ≠ .noFuel
  error : strict → r.ret ≠ .error
  printed : r.proc.st.printed.length - p.st.printed.length ≤ c.batchTokens
  done : r.ret ≠ .error → r.proc.st.printed.length - p.st.printed.length < c.batchTokens →
    r.proc.st.finished = true

theorem Inv.mono_batch {k : Core L} {r : Frame L} (h : Inv e prompt 0 strict k r) : Inv e prompt batch strict k r :=
  ⟨⟨h.live, h.unfinished, h.counted, Nat.le_trans h.budget (Nat.zero_le _), h.seqId, h.valid, h.cap⟩, h.pend, h.finish⟩

theorem atHead_evictStale (h : Inv e prompt 0 strict s.core s.frame) (c : Call F) :
    AtHead e prompt c strict (evictStale e c s).core (evictStale e c s).frame := by
  have hinv : Inv e prompt c.batchTokens strict s.core s.frame := h.mono_batch
  unfold evictStale
  dsimp only
  split_ifs with hc
  · simp only [Bool.and_eq_true, Bool.not_eq_true', Bool.and_eq_false_iff] at hc
    refine ⟨hinv.toBase.of_live (hinv.live.clear Nat.one_ne_zero), fun he hr => ?_, hinv.finish⟩
    rcases hc.1.1.1.2 with hno | hno
    · exact absurd he (by simp [hno])
    · exact absurd hr (by simp [hno])
  · exact hinv.atHead

theorem measure_lt_fuel (c : Call F) (r : Frame L) : measure c.batchTokens r < fuel c := by
  unfold measure fuel
  split_ifs <;> omega

theorem wp_callLoop (hB : Clean B e strict) (h : AtHead e prompt c strict s.core s.frame) (hin : inLoop c s = true) :
    wp B (loop (inLoop c) (iteration e c) (fuel c)) (fun _ s' => Rest e prompt c.batchTokens strict s'.core s'.frame)
      (fun x s' => ∃ r, x = some r ∧ Rest e prompt c.batchTokens strict s'.core s'.frame ∧ s'.finished = true ∧
        ¬ strict) s := by
  refine wp_loop (I := fun s => AtHead e prompt c strict s.core s.frame ∧
      (inLoop c s = false → Inv e prompt c.batchTokens strict s.core s.frame))
    (fun s => measure c.batchTokens s.frame) (fun s hI hg => ?_) (fun s hI hg => ?_) _ s
    ⟨h, fun hf => absurd hin (by simp [hf])⟩ (measure_lt_fuel c _)
  · have hlt : s.generated < c.batchTokens := of_decide_eq_true (Bool.and_eq_true _ _ ▸ hg).2
    refine (wp_iteration hB hI.1 hlt).mono (fun _ s' h' => ⟨⟨h'.inv.atHead, fun _ => h'.inv⟩, h'.lt⟩) ?_
    rintro (_ | _ | _) s' h'
    · exact ⟨⟨h'.1.atHead, fun _ => h'.1⟩, h'.2⟩
    · exact h'
    · exact h'
  · have hinv := hI.2 hg
    refine hinv.rest ?_
    have hfin : s.finished = false := hinv.unfinished
    rw [inLoop, hfin, Bool.not_false, Bool.true_and] at hg
    exact Nat.not_lt.1 (of_decide_eq_false hg)

theorem Rest.between (h : Rest e prompt batch strict s.core s.frame)
    (hptr : s.logitsTarget ≠ .null) : Between e prompt strict ⟨e.ctx, e.nVocab, e.ctx, s⟩ := by
  refine ⟨h.follows, h.commits, hptr, fun hf => ?_, h.ended⟩
  have hinv := (h.inv hf).1
  have hring : (recognise e ⟨e.ctx, e.nVocab, e.ctx, s⟩).spec.ring = s.spec.ring := by
    simp only [recognise, ne_eq, not_true_eq_false, or_self, if_false]
    split_ifs <;> rfl
  have hframe : (recognise e ⟨e.ctx, e.nVocab, e.ctx, s⟩).frame = { s.frame with
      printedThisCall := 0, generated := 0 } := by
    show (⟨_, _, _, _⟩ : Frame L) = _
    rw [hring]
    rfl
  rw [hframe]
  exact ⟨⟨hinv.live, hinv.unfinished, rfl, Nat.le_refl _, hinv.seqId, hinv.valid, hinv.cap⟩, hinv.pend, hinv.finish⟩

theorem Between.call (hB : Clean B e strict) (h : Between e prompt strict p) (c : Call F)
    (hlog : ∀ w ∈ (batchExecutorStep e c p).log, ¬ B w) : CallOk e prompt strict c p (batchExecutorStep e c p) := by
  unfold batchExecutorStep at hlog ⊢
  rw [if_neg h.ptr] at hlog ⊢
  by_cases hskip : (p.st.finished || c.batchTokens == 0) = true
  · rw [if_pos hskip]
    refine ⟨h, (fun h => by cases h), (fun _ h => by cases h), by simp, fun _ hlt => ?_⟩
    rw [Bool.or_eq_true, beq_iff_eq] at hskip
    exact hskip.resolve_right (Nat.ne_of_gt (Nat.zero_lt_of_lt hlt))
  rw [if_neg hskip] at hlog ⊢
  rw [Bool.not_eq_true, Bool.or_eq_false_iff, beq_eq_false_iff_ne] at hskip
  have hhead := atHead_evictStale (h.inv hskip.1) c
  have hin : inLoop c (evictStale e c (recognise e p)) = true := by
    have hgen : (evictStale e c (recognise e p)).generated = 0 := by
      unfold evictStale
      dsimp only
      split_ifs <;> rfl
    have hfin : (evictStale e c (recognise e p)).finished = false := hhead.unfinished
    simp only [inLoop, hgen, hfin, Bool.not_false, Bool.true_and, decide_eq_true_eq]
    omega
  have hrun := wp_callLoop hB hhead hin hlog
  obtain ⟨hcount, hptr⟩ := counted_loop (e := e) c h.ptr (fuel c)
  dsimp only at hlog ⊢
  generalize loop (inLoop c) (iteration e c) (fuel c) (evictStale e c (recognise e p)) = r at *
  obtain ⟨res, s, log⟩ := r
  have hgrow : s.printed.length - p.st.printed.length = s.printedThisCall := by
    have : s.printed.length = p.st.printed.length + s.printedThisCall := hcount
    omega
  -- the call ends the loop or returns from within it
  rcases res with x | u
  · obtain ⟨r, rfl, hrest, hfin, hns⟩ := hrun
    exact ⟨hrest.between hptr, (fun h => by cases h), fun hs => absurd hs hns, hgrow ▸ hrest.le,
      fun hne => absurd rfl hne⟩
  · have hrest : Rest e prompt c.batchTokens strict s.core s.frame := hrun
    refine ⟨hrest.between hptr, (fun h => by cases h), (fun _ h => by cases h), hgrow ▸ hrest.le, fun _ hlt => ?_⟩
    rw [← Bool.not_eq_false]
    intro hf
    obtain ⟨hinv, hge⟩ := hrest.inv hf
    have hlt' : s.printedThisCall < c.batchTokens := hgrow ▸ hlt
    have hc : s.printedThisCall = s.generated := hinv.counted
    have hge' : c.batchTokens ≤ s.generated := hge
    omega

/-! ### Whole requests -/

/-- The statics hold no tokens for the request: they are not recognised, or were left empty. -/
structure RingEmpty (e : Env F L) (p : Process F L) : Prop where
  pending : (recognise e p).spec.ring.pending = []
  finish : (recognise e p).spec.ring.finishPending = false
  seqId : (recognise e p).spec.ring.seqId ≠ 0

theorem RingEmpty.of_unrecognised (h : p.specCtx ≠ e.ctx ∨ p.specVocab ≠ e.nVocab) : RingEmpty e p := by
  have hspec : (recognise e p).spec = Spec.init (max 1 e.nSeqMax) := if_pos h
  exact ⟨by rw [hspec]; rfl, by rw [hspec]; rfl, by rw [hspec]; exact Nat.one_ne_zero⟩

theorem RingEmpty.between (h : RingEmpty e p) (prompt : List Token) (prefixHash : Nat) :
    Between e prompt strict (newRequest e prompt prefixHash p) := by
  refine ⟨trivial, (fun _ h => by cases h), (fun h => by cases h),
    fun _ => Base.inv_of_empty ⟨?_, rfl, rfl, Nat.le_refl _, h.seqId, ?_, ?_⟩ h.pending
    fun _ => h.finish, fun _ hf => Bool.noConfusion (show false = true from hf)⟩
  · have hempty : ∀ q, (Memory.empty).Holds q [] := Memory.holds_empty
    refine ⟨?_, ?_, trivial, rfl, fun _ => ?_, fun q hq => .inl ((hempty q).place_ne hq), (fun _ h => by cases h)⟩
    · show ((Memory.empty).place 0 0 prompt).Holds 0 (prompt ++ [])
      rw [List.append_nil]
      exact (hempty 0).place
    · show prompt.length = (prompt ++ []).length
      rw [List.append_nil]
    · show some (e.target prompt) = some (e.target (prompt ++ []))
      rw [List.append_nil]
  · rintro (hp | hf)
    · exact absurd h.pending hp
    · exact absurd h.finish (by simp [show (recognise e p).spec.ring.finishPending = true from hf])
  · show (recognise e p).spec.ring.pending.length ≤ 64
    rw [h.pending]
    exact Nat.zero_le _

theorem runCalls_finished (hf : p.st.finished = true) (hp : p.st.logitsTarget ≠ .null) (cs : List (Call F)) :
    (runCalls e cs p).proc = p := by
  induction cs with
  | nil => rfl
  | cons c cs ih =>
    have hstep : (batchExecutorStep e c p).proc = p := by
      rw [batchExecutorStep, if_neg hp, if_pos (by rw [hf, Bool.true_or])]
    rw [runCalls]
    dsimp only
    rw [hstep, ih]

/-- A report of a call that went well; `finished` is how the request stands in the end. -/
structure Report.Ok (strict : Prop) (finished : Bool) (r : Report) : Prop where
  fuel : r.ret ≠ .noFuel
  error : strict → r.ret ≠ .error
  printed : r.printed ≤ r.budget
  done : r.ret ≠ .error → r.printed < r.budget → finished = true

theorem Between.run (hB : Clean B e strict) (h : Between e prompt strict p) (cs : List (Call F))
    (hlog : ∀ w ∈ (runCalls e cs p).log, ¬ B w) : Between e prompt strict (runCalls e cs p).proc ∧
      ∀ r ∈ (runCalls e cs p).reports, r.Ok strict (runCalls e cs p).proc.st.finished := by
  induction cs generalizing p with
  | nil => exact ⟨h, fun _ h => by cases h⟩
  | cons c cs ih =>
    rw [runCalls] at hlog ⊢
    dsimp only at hlog ⊢
    have hcall := h.call hB c fun w hw => hlog w (List.mem_append_left _ hw)
    obtain ⟨hend, hrep⟩ := ih hcall.between fun w hw => hlog w (List.mem_append_right _ hw)
    refine ⟨hend, fun r hr => ?_⟩
    rcases List.mem_cons.1 hr with rfl | hr
    · refine ⟨hcall.fuel, hcall.error, hcall.printed, fun hne hlt => ?_⟩
      have hf := hcall.done hne hlt
      rw [runCalls_finished hf hcall.between.ptr]
      exact hf
    · exact hrep r hr

/-! ### The output -/

/-- The token that plain greedy decoding prints after `out`: the lowest argmax, unless it ends the
generation. -/
def Env.greedy (e : Env F L) (prompt out : List Token) : Option Token :=
  (lowestArgmax (fun _ => true) (e.target (prompt ++ out))).filter fun t => !e.isEog t

theorem Env.next_eq_greedy (h : e.minTokens = 0) : e.next prompt = e.greedy prompt := by
  funext out
  rw [Env.next, Env.greedy, e.sample_eq, show e.allowEog out.length = true by simp [Env.allowEog, h]]
  rfl

/-- Every llama call and every print succeeds, and the determinism check is off. -/
structure Env.Healthy (e : Env F L) : Prop where
  target : ∀ n, e.targetFails n = false
  draft : ∀ n, e.draftFails n = false
  print : ∀ n, e.printFails n = false
  determinism : e.determinismCheck = false

/-- The hazards that break the output, and those that break the end of a healthy request. -/
def Breaks (e : Env F L) (strict : Prop) (w : Hazard) : Prop :=
  w = .staleLogits ∨ w = .fusedEog ∨ w = .unconfidentPending ∨ (e.minTokens ≠ 0 ∧ w = .straddle) ∨
    (strict ∧ w = .droppedFinish)

theorem Breaks.clean (h : strict → e.Healthy) : Clean (Breaks e strict) e strict where
  stale := .inl rfl
  fused := .inr (.inl rfl)
  unconfident := .inr (.inr (.inl rfl))
  straddle := by
    by_cases hm : e.minTokens = 0
    · exact .inl hm
    · exact .inr (.inr (.inr (.inr (.inl ⟨hm, rfl⟩))))
  dropped hs := .inr (.inr (.inr (.inr ⟨hs, rfl⟩)))
  target hs := (h hs).target
  draft hs := (h hs).draft
  print hs := (h hs).print
  determinism hs := (h hs).determinism

theorem Env.next_eq_some {t : Token} (h : e.next prompt out = some t) :
    IsLowestArgmax (fun t => decide (e.minTokens ≤ out.length) || !e.isEog t) (e.target (prompt ++ out)) t ∧
      e.isEog t = false := by
  obtain ⟨hs, ht⟩ := Option.filter_eq_some_iff.1 h
  rw [e.sample_eq] at hs
  have hallow : e.allowEog out.length = decide (e.minTokens ≤ out.length) := by
    by_cases hm : e.minTokens = 0
    · simp [Env.allowEog, hm]
    · simp [Env.allowEog, hm]
  have hfun : sampleable e.isEog (e.allowEog out.length) =
      fun t => decide (e.minTokens ≤ out.length) || !e.isEog t := by
    funext t
    rw [sampleable, hallow]
  rw [hfun] at hs
  exact ⟨isLowestArgmax_of_eq hs, by simpa using ht⟩

theorem Env.next_eq_none (h : e.next prompt out = none) :
    ∃ t, IsLowestArgmax (fun _ => true) (e.target (prompt ++ out)) t ∧ e.isEog t = true ∧
      (e.minTokens ≤ out.length ∨ ∀ t < e.nVocab, e.isEog t = true) := by
  have hlen := e.target_length (prompt ++ out)
  obtain ⟨t, ht⟩ : ∃ t, lowestArgmax (fun _ => true) (e.target (prompt ++ out)) = some t := by
    refine Option.ne_none_iff_exists'.1 fun hnone => ?_
    have := lowestArgmax_eq_none_iff.1 hnone 0 (hlen ▸ e.nVocab_pos)
    exact Bool.noConfusion this
  refine ⟨t, isLowestArgmax_of_eq ht, ?_⟩
  rw [Env.next, e.sample_eq] at h
  cases hallow : e.allowEog out.length with
  | true =>
    rw [hallow, show sampleable e.isEog true = fun _ => true from rfl, ht] at h
    refine ⟨by simpa [Option.filter] using h, .inl ?_⟩
    simp only [Env.allowEog, Bool.or_eq_true, beq_iff_eq, decide_eq_true_eq] at hallow
    omega
  | false =>
    -- a suppressed position has no token only if every token ends the generation
    have hall : ∀ u < e.nVocab, e.isEog u = true := by
      rw [hallow] at h
      intro u hu
      by_contra hne
      cases hs : lowestArgmax (sampleable e.isEog false) (e.target (prompt ++ out)) with
      | none =>
        have := lowestArgmax_eq_none_iff.1 hs u (hlen ▸ hu)
        simp [sampleable, hne] at this
      | some v =>
        have hv : e.isEog v = false := by simpa [sampleable] using (isLowestArgmax_of_eq hs).mem
        rw [hs] at h
        simp [Option.filter, hv] at h
    exact ⟨hall t (hlen ▸ (isLowestArgmax_of_eq ht).lt), .inr hall⟩

/-! ### A process to try -/

/-- Two models over three tokens, of which 2 ends the generation. Rows are filled up to the size of the
vocabulary. -/
def demoEnv (target draft : List Token → List Nat) (minTokens nCtx : Nat) : Env Frac Nat where
  target xs := (target xs ++ [0, 0, 0]).take 3
  draft xs := (draft xs ++ [0, 0, 0]).take 3
  nVocab := 3
  nVocab_pos := by decide
  target_length xs := by simp
  draft_length xs := by simp
  isEog t := t == 2
  ctx := 1
  nCtx := nCtx
  nSeqMax := 2
  hasDraft := true
  minTokens := minTokens
  benchmark := false
  specV3 := true
  blockMin := 2
  blockMax := 4
  gpuVerify := false
  maxEngines := 0
  shadowWhenCommitBlocked := true
  determinismCheck := false
  adaptive := true
  badStreakLimit := 5
  cooldownSteps := 10
  safetyEntropyMax := ⟨1, 1⟩
  safetyMinAccept := ⟨0, 1⟩
  safetyRelaxAccept := ⟨0, 1⟩
  safetyEntropyStreak := 3
  entropy _ _ := ⟨0, 1⟩
  sampleDist _ _ _ := none
  targetFails _ := false
  draftFails _ := false
  printFails _ := false
  gpuFails _ := false
  clock n := 1000 * n

def demoCall (n : Nat) : Call Frac where
  batchTokens := n
  forceNormal := false
  reuseKv := true
  forceSpeculation := false
  windowLimit := 0
  specDepth := 2
  enabled := true
  allowExec := true
  allowCommit := true
  lanes := 2
  acceptEma := ⟨1, 1⟩
  baselineTps := ⟨0, 0⟩
  tpsDelta := ⟨1, 1⟩
  engineCap := 0

def Process.boot : Process Frac Nat where
  specCtx := 0
  specVocab := 0
  holoCtx := 0
  st :=
    { tgt := ⟨Memory.empty, []⟩
      drf := ⟨Memory.empty, []⟩
      posTarget := 0
      posDraft := 0
      logitsTarget := .null
      best := []
      finished := false
      printed := []
      printedThisCall := 0
      generated := 0
      specEnabled := false
      prefixHash := 0
      holo := {}
      spec := Spec.init 1
      tick := 0
      fresh := false
      commits := [] }

theorem ringEmpty_boot (target draft : List Token → List Nat) (minTokens nCtx : Nat) :
    RingEmpty (demoEnv target draft minTokens nCtx) Process.boot :=
  RingEmpty.of_unrecognised (.inl Nat.zero_ne_one)

theorem healthy_demoEnv (target draft : List Token → List Nat) (minTokens nCtx : Nat) :
    (demoEnv target draft minTokens nCtx).Healthy :=
  ⟨fun _ => rfl, fun _ => rfl, fun _ => rfl, rfl⟩

/-! ### Results -/

def runRequest (e : Env F L) (prompt : List Token) (prefixHash : Nat) (calls : List (Call F)) (p : Process F L) :
    Trace F L :=
  runCalls e calls (newRequest e prompt prefixHash p)

theorem RingEmpty.run (hp : RingEmpty e p) (hs : strict → e.Healthy) (prompt : List Token) (prefixHash : Nat)
    (calls : List (Call F)) (hlog : ∀ w ∈ (runRequest e prompt prefixHash calls p).log, ¬ Breaks e strict w) :
    Between e prompt strict (runRequest e prompt prefixHash calls p).proc ∧
      ∀ r ∈ (runRequest e prompt prefixHash calls p).reports,
        r.Ok strict (runRequest e prompt prefixHash calls p).proc.st.finished :=
  (hp.between prompt prefixHash).run (Breaks.clean hs) calls hlog

/-- Whatever its calls, its draft model and the outcome of external calls. -/
theorem executor_greedy (hm : e.minTokens = 0) (hp : RingEmpty e p) (prompt : List Token) (prefixHash : Nat)
    (calls : List (Call F)) (hstale : .staleLogits ∉ (runRequest e prompt prefixHash calls p).log)
    (hfused : .fusedEog ∉ (runRequest e prompt prefixHash calls p).log)
    (hconf : .unconfidentPending ∉ (runRequest e prompt prefixHash calls p).log) :
    (∀ n, (runRequest e prompt prefixHash calls p).proc.st.printed.length ≤ n →
      (runRequest e prompt prefixHash calls p).proc.st.printed <+: generate (e.greedy prompt) n []) ∧
    (∀ r ∈ (runRequest e prompt prefixHash calls p).reports, r.printed ≤ r.budget ∧ r.ret ≠ .noFuel) ∧
    ∀ c ∈ (runRequest e prompt prefixHash calls p).proc.st.commits, c.2 = some (e.target (prompt ++ c.1)) := by
  obtain ⟨hend, hrep⟩ := hp.run False.elim prompt prefixHash calls <| by
    rintro w hw (rfl | rfl | rfl | ⟨hm', -⟩ | ⟨hs, -⟩)
    · exact hstale hw
    · exact hfused hw
    · exact hconf hw
    · exact hm' hm
    · exact hs
  refine ⟨fun n hn => ?_, fun r hr => ⟨(hrep r hr).printed, (hrep r hr).fuel⟩, hend.commits⟩
  rw [← Env.next_eq_greedy hm]
  exact hend.follows.prefix_generate hn

/-- The target prefers 0 throughout and so does the draft model, whose blocks are accepted and committed. -/
theorem executor_greedy_agreeing :
    (runRequest (demoEnv (fun _ => [5]) (fun _ => [5]) 0 0) [1] 7 [demoCall 4] Process.boot).proc.st.printed =
        [0, 0, 0, 0] ∧
      ∀ n, 4 ≤ n → [0, 0, 0, 0] <+: generate ((demoEnv (fun _ => [5]) (fun _ => [5]) 0 0).greedy [1]) n [] := by
  have hout : (runRequest (demoEnv (fun _ => [5]) (fun _ => [5]) 0 0) [1] 7 [demoCall 4]
      Process.boot).proc.st.printed = [0, 0, 0, 0] := by decide +kernel
  have hgreedy := executor_greedy rfl (ringEmpty_boot (fun _ => [5]) (fun _ => [5]) 0 0) [1] 7 [demoCall 4]
    (by decide +kernel) (by decide +kernel) (by decide +kernel)
  rw [hout] at hgreedy
  exact ⟨hout, hgreedy.1⟩

/-- A block is rejected while `logits_target` points into the output buffer: the step behind it reads the row
of the rejected draft and prints 1, where greedy decoding prints 0. -/
theorem stale_logits_printed :
    (runRequest (demoEnv (fun xs => if xs = [1] then [5] else [0, 5]) (fun _ => [0, 5]) 0 0) [1] 7 [demoCall 2]
        Process.boot).proc.st.printed = [1, 1] ∧
      generate ((demoEnv (fun xs => if xs = [1] then [5] else [0, 5]) (fun _ => [0, 5]) 0 0).greedy [1]) 2 [] =
        [0, 1] := by
  decide +kernel

/-- The round without a confident engine clears sequence 1 only, and the ring is that of the second engine: its token
is printed by the step behind the round and again by the commit. -/
example : let e : Env Frac Nat :=
      { demoEnv (fun xs => if xs.length < 5 then [5] else [0, 5]) (fun xs => if xs.length = 1 then [0, 5, 0]
          else if xs.length < 5 then [5, 0, 0] else if xs.length = 6 then [5, 0, 1] else [0, 5, 1]) 0 0 with
        nSeqMax := 3, maxEngines := 2, blockMax := 2, sampleDist := fun row _ _ => row[2]? }
    let run := runRequest e [1] 7 [{ demoCall 5 with lanes := 3 }] Process.boot
    run.log = [.unconfidentPending] ∧ run.proc.st.printed = [0, 0, 0, 0, 0] ∧
      generate (e.greedy [1]) 5 [] = [0, 0, 0, 0, 1] := by
  decide +kernel

/-- Each printed token is the best one, or the best one that does not end the generation; from the threshold on,
nothing is printed behind a position whose best token ends the generation; the output is that of stepping the target
alone, and a call that neither fails nor uses up its budget ends the request, which happens nowhere else unless the
context is full. -/
theorem executor_eog_positional (hp : RingEmpty e p) (prompt : List Token) (prefixHash : Nat)
    (calls : List (Call F)) (hstale : .staleLogits ∉ (runRequest e prompt prefixHash calls p).log)
    (hfused : .fusedEog ∉ (runRequest e prompt prefixHash calls p).log)
    (hconf : .unconfidentPending ∉ (runRequest e prompt prefixHash calls p).log)
    (hstraddle : .straddle ∉ (runRequest e prompt prefixHash calls p).log) :
    let run := runRequest e prompt prefixHash calls p
    let out := run.proc.st.printed
    (∀ i (hi : i < out.length),
      IsLowestArgmax (fun t => decide (e.minTokens ≤ i) || !e.isEog t) (e.target (prompt ++ out.take i)) out[i] ∧
        e.isEog out[i] = false) ∧
    (∀ q t, e.minTokens ≤ q → q ≤ out.length →
      IsLowestArgmax (fun _ => true) (e.target (prompt ++ out.take q)) t → e.isEog t = true → out.length = q) ∧
    (∀ n, out.length ≤ n → out <+: generate (e.next prompt) n []) ∧
    (∀ r ∈ run.reports, r.ret ≠ .error → r.printed < r.budget → run.proc.st.finished = true) ∧
    (e.Healthy → .droppedFinish ∉ run.log → run.proc.st.finished = true →
      (∃ t, IsLowestArgmax (fun _ => true) (e.target (prompt ++ out)) t ∧ e.isEog t = true ∧
        (e.minTokens ≤ out.length ∨ ∀ u < e.nVocab, e.isEog u = true)) ∨
      0 < e.nCtx ∧ e.nCtx ≤ (prompt ++ out).length) := by
  intro run out
  have hbreaks : ∀ strict, (strict → .droppedFinish ∉ run.log) → ∀ w ∈ run.log, ¬ Breaks e strict w := by
    rintro strict hdrop w hw (rfl | rfl | rfl | ⟨-, rfl⟩ | ⟨hs, rfl⟩)
    · exact hstale hw
    · exact hfused hw
    · exact hconf hw
    · exact hstraddle hw
    · exact hdrop hs hw
  obtain ⟨hend, hrep⟩ := hp.run (False.elim : False → e.Healthy) prompt prefixHash calls (hbreaks False False.elim)
  have hpos : ∀ i (hi : i < out.length),
      IsLowestArgmax (fun t => decide (e.minTokens ≤ i) || !e.isEog t) (e.target (prompt ++ out.take i)) out[i] ∧
        e.isEog out[i] = false := by
    intro i hi
    have := Env.next_eq_some (follows_iff.1 hend.follows i hi)
    rwa [List.nil_append, List.length_take, Nat.min_eq_left (Nat.le_of_lt hi)] at this
  refine ⟨hpos, ?_, fun n hn => hend.follows.prefix_generate hn, fun r hr => (hrep r hr).done, ?_⟩
  · intro q t hq hle ht heog
    by_contra hne
    -- a token printed at `q` would be the best one there, and would not end the generation
    obtain ⟨hbest, hspeaks⟩ := hpos q (by omega)
    have hall : (fun u => decide (e.minTokens ≤ q) || !e.isEog u) = fun _ => true := by simp [hq]
    rw [hall] at hbest
    rw [hbest.unique ht, heog] at hspeaks
    exact Bool.noConfusion hspeaks
  · intro hh hdrop hfin
    have hend' := (hp.run (fun _ : True => hh) prompt prefixHash calls (hbreaks True fun _ => hdrop)).1
    exact (hend'.ended trivial hfin).imp Env.next_eq_none id

/-- The target ends the generation at once, which the threshold 1 suppresses, and again after three tokens. -/
def demoSuppressed : Env Frac Nat :=
  demoEnv (fun xs => if xs.length = 1 then [3, 0, 5] else if xs.length < 4 then [5] else [0, 0, 5]) (fun _ => [5]) 1 0

theorem executor_eog_positional_suppressed :
    (runRequest demoSuppressed [1] 7 [demoCall 1, demoCall 3] Process.boot).proc.st.printed = [0, 0, 0] ∧
      (runRequest demoSuppressed [1] 7 [demoCall 1, demoCall 3] Process.boot).proc.st.finished = true ∧
      ∀ n, 3 ≤ n → [0, 0, 0] <+: generate (demoSuppressed.next [1]) n [] := by
  have hout : (runRequest demoSuppressed [1] 7 [demoCall 1, demoCall 3] Process.boot).proc.st.printed = [0, 0, 0] := by
    decide +kernel
  have hring : RingEmpty demoSuppressed Process.boot := ringEmpty_boot ..
  have hpos := executor_eog_positional hring [1] 7 [demoCall 1, demoCall 3] (by decide +kernel) (by decide +kernel)
    (by decide +kernel) (by decide +kernel)
  dsimp only at hpos
  rw [hout] at hpos
  refine ⟨hout, ?_, hpos.2.2.1⟩
  exact hpos.2.2.2.1 ⟨3, .tokens 2, 2⟩ (by decide +kernel) (fun h => by cases h) (by decide)

/-- A block is drafted and checked while nothing is printed, so that an end of generation is suppressed on all
its positions: with threshold 1 the request prints two tokens where stepping the target alone prints one. -/
theorem straddled_threshold_printed :
    let e := demoEnv (fun xs => if xs.length = 2 then [3, 0, 5] else [5]) (fun _ => [5]) 1 3
    (runRequest e [1] 7 [demoCall 2] Process.boot).proc.st.printed = [0, 0] ∧
      (runRequest e [1] 7 [{ demoCall 2 with allowExec := false }] Process.boot).proc.st.printed = [0] ∧
      generate (e.next [1]) 2 [] = [0] := by
  decide +kernel

theorem executor_healthy (hh : e.Healthy) (hp : RingEmpty e p) (prompt : List Token) (prefixHash : Nat)
    (calls : List (Call F)) (hstale : .staleLogits ∉ (runRequest e prompt prefixHash calls p).log)
    (hfused : .fusedEog ∉ (runRequest e prompt prefixHash calls p).log)
    (hconf : .unconfidentPending ∉ (runRequest e prompt prefixHash calls p).log)
    (hstraddle : e.minTokens ≠ 0 → .straddle ∉ (runRequest e prompt prefixHash calls p).log)
    (hdrop : .droppedFinish ∉ (runRequest e prompt prefixHash calls p).log) :
    let run := runRequest e prompt prefixHash calls p
    (∀ r ∈ run.reports, (∃ n, r.ret = .tokens n) ∧ (r.printed < r.budget → run.proc.st.finished = true)) ∧
    (run.proc.st.finished = true →
      (∃ t, IsLowestArgmax (fun _ => true) (e.target (prompt ++ run.proc.st.printed)) t ∧ e.isEog t = true) ∨
        0 < e.nCtx ∧ e.nCtx ≤ (prompt ++ run.proc.st.printed).length) := by
  intro run
  obtain ⟨hend, hrep⟩ := hp.run (fun _ : True => hh) prompt prefixHash calls <| by
    rintro w hw (rfl | rfl | rfl | ⟨hm, rfl⟩ | ⟨-, rfl⟩)
    · exact hstale hw
    · exact hfused hw
    · exact hconf hw
    · exact hstraddle hm hw
    · exact hdrop hw
  refine ⟨fun r hr => ?_, fun hfin => ?_⟩
  · have hok := hrep r hr
    refine ⟨?_, hok.done (hok.error trivial)⟩
    cases hret : r.ret with
    | tokens n => exact ⟨n, rfl⟩
    | error => exact absurd hret (hok.error trivial)
    | noFuel => exact absurd hret hok.fuel
  · refine (hend.ended trivial hfin).imp (fun hnone => ?_) id
    obtain ⟨t, ht, heog, -⟩ := Env.next_eq_none hnone
    exact ⟨t, ht, heog⟩

/-- The target ends the generation after four tokens. -/
def demoFour : Env Frac Nat := demoEnv (fun xs => if xs.length < 5 then [5] else [0, 0, 5]) (fun _ => [5]) 0 0

theorem executor_healthy_four :
    (runRequest demoFour [1] 7 [demoCall 3, demoCall 3] Process.boot).proc.st.printed = [0, 0, 0, 0] ∧
      (runRequest demoFour [1] 7 [demoCall 3, demoCall 3] Process.boot).proc.st.finished = true := by
  have hout : (runRequest demoFour [1] 7 [demoCall 3, demoCall 3] Process.boot).proc.st.printed = [0, 0, 0, 0] := by
    decide +kernel
  have hhealthy : demoFour.Healthy := healthy_demoEnv ..
  have hring : RingEmpty demoFour Process.boot := ringEmpty_boot ..
  have hdone := executor_healthy hhealthy hring [1] 7 [demoCall 3, demoCall 3] (by decide +kernel)
    (by decide +kernel) (by decide +kernel) (fun hm => absurd rfl hm) (by decide +kernel)
  exact ⟨hout, (hdone.1 ⟨3, .tokens 1, 1⟩ (by decide +kernel)).2 (by decide)⟩

/-- A round without a confident engine while a token is pending: the draft model is taken back behind the
pending token, a later round fails its position check, and a healthy request is aborted. -/
theorem unconfident_round_aborts :
    let e := demoEnv (fun _ => [5]) (fun xs => if xs.length = 3 then [0, 5] else [5]) 0 0
    let run := runRequest e [1] 7 [demoCall 3] Process.boot
    run.reports = [⟨3, .error, 1⟩] ∧ run.proc.st.printed = [0] ∧ run.proc.st.finished = true ∧
      e.next [1] [0] = some 0 := by
  decide +kernel

end Korith.Executor
