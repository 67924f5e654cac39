import Korith.Proofs.ExecutorInv

/-!
# Single steps keep the invariant

`step_one_target` and `step_one_soft_spec` print the token that target-only decoding prints next, or finish
the request. Both are made while no token is pending.
-/

set_option linter.unusedSectionVars false

namespace Korith.Executor

open Exec

variable {F L : Type} [LinearOrder L] {B : Hazard → Prop} {e : Env F L} {prompt : List Token} {batch : Nat}
  {strict : Prop} {s : State F L} {k : Core L} {r₀ : Frame L} {E : Leave Unit → State F L → Prop} {t : Token}
  {s' : State F L}

/-! ### The parts of a step -/

theorem wp_nextToken (hB : B .staleLogits) (h : Live e prompt s.core) : wp B (nextToken e) (fun r s' => match r with
      | none => s' = { s with finished := true } ∧ e.Ended prompt s.printed
      | some t => s' = s ∧ e.next prompt s.printed = some t) E s := by
  have hpos : s.posTarget = (prompt ++ s.printed).length := h.pos
  simp only [nextToken, wp_bind, wp_get, wp_ite, wp_finish, wp_pure, wp_note, true_and]
  refine ⟨fun hfull => .inr ⟨hfull.1, hpos ▸ hfull.2⟩, fun _ hfresh => ?_⟩
  have hrow : s.row = some (e.target (prompt ++ s.printed)) := by
    refine h.fresh (Bool.not_eq_false _ ▸ fun hnot : s.fresh = false => ?_)
    exact hfresh (by simp [hnot]) hB
  have hnext : (sample e s.row (e.allowEogNow s)).filter (fun t => !e.isEog t) = e.next prompt s.printed := by
    rw [hrow]; rfl
  rw [hnext]
  cases hn : e.next prompt s.printed with
  | none => simpa using .inl hn
  | some t => simp

theorem Live.step (h : Live e prompt k) (hn : e.next prompt k.printed = some t) {k' : Core L}
    (h0 : k'.mem.Holds 0 (prompt ++ k.printed ++ [t])) (ho : ∀ q, q ≠ 0 → Greedy e prompt k'.mem q)
    (hrow : k'.row = some (e.target (prompt ++ k.printed ++ [t]))) (hpos : k'.posTarget = k.posTarget + 1)
    (hprinted : k'.printed = k.printed ++ [t]) (hcommits : k'.commits = k.commits) : Live e prompt k' where
  seq0 := by rw [hprinted, ← List.append_assoc]; exact h0
  pos := by rw [hprinted, hpos, h.pos]; simp; omega
  follows := hprinted ▸ h.follows.snoc hn
  hasRow := by rw [hrow]; rfl
  fresh _ := by rw [hprinted, ← List.append_assoc]; exact hrow
  others := ho
  commits := hcommits ▸ h.commits

/-- The token is in sequence 0 and its row behind `logits_target`, but it is not printed yet. -/
structure Stepped (e : Env F L) (prompt : List Token) (s : State F L) (t : Token) (s' : State F L) : Prop where
  live : Live e prompt (s'.core.print t)
  printed : s'.printed = s.printed
  frame : s'.frame = s.frame

def OrFinished (strict : Prop) (s : State F L) (P : State F L → Prop) : Bool → State F L → Prop
  | true, s' => P s'
  | false, s' => s'.core = s.core ∧ s'.frame = { s.frame with finished := true } ∧ ¬ strict

def Advanced (e : Env F L) (prompt : List Token) (batch : Nat) (strict : Prop) (n : Nat) : Bool → State F L → Prop
  | true, s' => Inv e prompt batch strict s'.core s'.frame ∧ s'.generated = n + 1
  | false, s' => Rest e prompt batch strict s'.core s'.frame

theorem Base.rest_of_core {k : Core L} (h : Base e prompt batch k s.frame) (hk : s'.core = k)
    (hr : s'.frame = { s.frame with finished := true }) (hs : ¬ strict) :
    Rest e prompt batch strict s'.core s'.frame := by
  rw [hk, hr]
  exact h.rest_finished fun h => absurd h hs

variable (hB : Clean B e strict)

include hB

theorem wp_followInDraft (pos : Nat) :
    wp B (followInDraft e pos t) (OrFinished strict s fun s' => s'.core = s.core ∧ s'.frame = s.frame) E s := by
  simp only [followInDraft, wp_bind, wp_get, wp_ite, wp_decodeDraft, wp_when, wp_finish, wp_pure]
  refine ⟨fun _ => ⟨fun hfail => ⟨fun _ => ⟨rfl, rfl, fun hs => ?_⟩, fun h => by cases h⟩,
    fun _ => ⟨(fun h => by cases h), fun _ => ⟨rfl, rfl⟩⟩⟩, fun _ => ⟨rfl, rfl⟩⟩
  simp [hB.draft hs] at hfail

theorem wp_syncDraftAfter (syncDraft : Bool) (pos : Nat) : wp B (syncDraftAfter e syncDraft pos t)
      (OrFinished strict s fun s' => s'.core = s.core ∧ s'.frame = s.frame) E s := by
  simp only [syncDraftAfter, wp_bind, wp_get, wp_ite, wp_when, wp_modify, wp_pure]
  exact ⟨fun _ => ⟨rfl, rfl⟩, fun _ => ⟨fun _ => wp_followInDraft hB pos,
    fun _ => ⟨fun _ => ⟨rfl, rfl⟩, fun _ => ⟨rfl, rfl⟩⟩⟩⟩

theorem wp_printOne (h : Live e prompt (s.core.print t))
    (hb : Base e prompt batch k s.frame) (hlt : s.generated < batch) (hp : s.spec.ring.pending = [])
    (hf : strict → s.spec.ring.finishPending = false) :
    wp B (printOne e t) (Advanced e prompt batch strict s.generated) E s := by
  have hc : s.printedThisCall = s.generated := hb.counted
  simp only [printOne, wp_bind, wp_countPrinted]
  refine ⟨fun hfail => ?_, fun _ => ?_⟩
  · simp only [Bool.false_eq_true, if_false, wp_bind, wp_finish, wp_pure]
    refine ⟨(follows_append.1 h.follows).1, h.commits, ?_, (fun h => by cases h), fun hs => ?_⟩
    · exact Nat.le_of_lt (hc ▸ hlt)
    · simp [hB.print hs] at hfail
  · simp only [if_true, wp_bind, wp_modify, wp_pure]
    refine ⟨Base.inv_of_empty ⟨h, hb.unfinished, ?_, hlt, hb.seqId, hb.valid, hb.cap⟩ hp hf, rfl⟩
    exact congrArg (· + 1) hc

variable [FloatArith F] {s₀ : State F L}

theorem wp_decodeCommitted (h : Live e prompt s.core) (hn : e.next prompt s.printed = some t) :
    wp B (decodeCommitted e t) (OrFinished strict s fun s' => Stepped e prompt s t s' ∧
      s'.posTarget = s.posTarget + 1 ∧ ∀ q xs, q ≠ 0 → s.tgt.mem.Holds q xs → s'.tgt.mem.Holds q xs) E s := by
  have hpos : s.posTarget = (prompt ++ s.printed).length := h.pos
  simp only [decodeCommitted, wp_bind, wp_get, wp_now, wp_decodeTarget]
  refine ⟨fun hfail => ?_, fun _ => ?_⟩
  · simp only [Bool.false_eq_true, if_false, wp_bind, wp_finish, wp_pure]
    exact ⟨rfl, rfl, fun hs => by simp [hB.target hs] at hfail⟩
  · simp only [if_true, wp_bind, wp_now, wp_modify, wp_pure]
    have hmem : (s.tgt.decode e.target 0 s.posTarget [t] true).mem.Holds 0 (prompt ++ s.printed ++ [t]) :=
      hpos ▸ Ctx.decode_holds h.seq0
    have hout : (s.tgt.decode e.target 0 s.posTarget [t] true).out = [e.target (prompt ++ s.printed ++ [t])] :=
      hpos ▸ Ctx.decode_one_out h.seq0
    refine ⟨⟨h.step hn hmem (fun q hq => (h.others q hq).place_ne hq) ?_ rfl rfl rfl, rfl, rfl⟩, rfl,
      fun q xs hq hx => Ctx.decode_holds_ne hx hq⟩
    exact congrArg List.head? hout

/-! ### Steps -/

theorem Stepped.wp_print (hst : Stepped e prompt s₀ t s)
    (h : Inv e prompt batch strict s₀.core s₀.frame) (hlt : s₀.generated < batch)
    (hp : s₀.spec.ring.pending = []) (hf : strict → s₀.spec.ring.finishPending = false) :
    wp B (printOne e t) (Advanced e prompt batch strict s₀.generated) E s := by
  have hring : s.spec.ring = s₀.spec.ring := congrArg Frame.ring hst.frame
  have hgen : s.generated = s₀.generated := congrArg Frame.generated hst.frame
  have hb : Base e prompt batch s₀.core s.frame := hst.frame ▸ h.toBase
  rw [← hgen]
  exact wp_printOne hB hst.live hb (hgen ▸ hlt) (hring ▸ hp) (hring ▸ hf)

omit hB in
theorem Advanced.follow {n : Nat} {ok : Bool} (h : Advanced e prompt batch strict n true s)
    (h' : OrFinished strict s (fun s' => s'.core = s.core ∧ s'.frame = s.frame) ok s') :
    Advanced e prompt batch strict n ok s' := by
  obtain ⟨hinv, hg⟩ := h
  cases ok with
  | false => exact hinv.toBase.rest_of_core h'.1 h'.2.1 h'.2.2
  | true =>
    have hgen : s'.generated = s.generated := congrArg Frame.generated h'.2
    refine ⟨?_, hgen.trans hg⟩
    rw [h'.1, h'.2]
    exact hinv

theorem wp_stepOneTarget (h : Inv e prompt batch strict s.core s.frame)
    (hlt : s.generated < batch) (hp : s.spec.ring.pending = [])
    (hf : strict → s.spec.ring.finishPending = false) (syncDraft : Bool) :
    wp B (stepOneTarget e syncDraft) (Advanced e prompt batch strict s.generated) E s := by
  unfold stepOneTarget
  rw [wp_bind, wp_get]
  refine (wp_nextToken hB.stale h.live).bind ?_
  rintro (_ | t) s' hs
  · obtain ⟨rfl, hend⟩ := hs
    exact (wp_pure _).2 (h.toBase.rest_finished fun _ => hend)
  obtain ⟨rfl, hn⟩ := hs
  refine (wp_decodeCommitted hB h.live hn).bind ?_
  rintro (_ | _) s₁ h₁
  · exact (wp_pure _).2 (h.toBase.rest_of_core h₁.1 h₁.2.1 h₁.2.2)
  simp only [Bool.not_true, Bool.false_eq_true, if_false, wp_bind, wp_modify]
  have hst : Stepped e prompt s' t (s₁.hashToken t) := ⟨h₁.1.live, h₁.1.printed, h₁.1.frame⟩
  refine (hst.wp_print hB h hlt hp hf).imp ?_
  rintro (_ | _) s₂ h₂
  · exact (wp_pure _).2 h₂
  · exact (wp_syncDraftAfter hB syncDraft _).imp fun ok s₃ h₃ => h₂.follow h₃

omit hB in
/-- A step ends the iteration, and its token makes up for any change to the ring. -/
theorem Advanced.leave {α : Type} {Q : α → State F L → Prop} {n : Nat} {ok : Bool}
    (h : Advanced e prompt batch strict n ok s) (hle : r₀.generated ≤ n) :
    wp B (if ok then exit .cont else exit .brk : M F L α) Q (Exits e prompt batch strict r₀) s := by
  cases ok with
  | false => exact (wp_exit _).2 h
  | true =>
    refine (wp_exit _).2 ⟨h.1, measure_lt_of_generated ?_ h.1.budget⟩
    have hg : s.frame.generated = n + 1 := h.2
    omega

theorem wp_stepAndContinue {α : Type} {Q : α → State F L → Prop}
    (h : Inv e prompt batch strict s.core s.frame) (hlt : s.generated < batch)
    (hp : s.spec.ring.pending = []) (hf : strict → s.spec.ring.finishPending = false)
    (hle : r₀.generated ≤ s.generated) (syncDraft : Bool) :
    wp B (stepAndContinue e syncDraft) Q (Exits e prompt batch strict r₀) s :=
  (wp_stepOneTarget hB h hlt hp hf syncDraft).bind fun _ _ h' => h'.leave hle

omit hB

/-! ### Sequence 1 -/

variable {m : Memory} {synced : Bool}

theorem Live.recopy (h : Live e prompt k) {q : Nat} (hq : q ≠ 0)
    (hm : m = (k.mem.seqRm q (-1) (-1)).seqCp 0 q 0 k.posTarget) :
    Live e prompt (k.setMem m) ∧ m.Holds q (prompt ++ k.printed) := by
  subst hm
  have h' := h.clear hq
  have hcopy : ((k.mem.seqRm q (-1) (-1)).seqCp 0 q 0 k.posTarget).Holds q (prompt ++ k.printed) :=
    h'.seq0.seqCp (Memory.Holds.seqRm_all (by decide) (by decide)) (by decide)
      (.inr (by rw [h.pos]; exact Int.le_refl _))
  refine ⟨⟨h'.seq0.seqCp_ne (Ne.symm hq), h.pos, h.follows, h.hasRow, h.fresh, fun q' hq' => ?_, h.commits⟩, hcopy⟩
  by_cases hqq : q' = q
  · subst hqq; exact .inr ⟨_, h.follows, hcopy⟩
  · exact (h'.others q' hq').seqCp_ne hqq

structure Synced (e : Env F L) (prompt : List Token) (q : Nat) (s s' : State F L) : Prop where
  live : Live e prompt s'.core
  holds : s'.tgt.mem.Holds q (prompt ++ s.printed)
  core : s'.core = s.core.setMem s'.tgt.mem
  frame : s'.frame = s.frame
  row : s'.row = s.row
  posDraft : s'.posDraft = s.posDraft
  frameMem : ∀ q' xs, q' ≠ q → s.tgt.mem.Holds q' xs → s'.tgt.mem.Holds q' xs

theorem wp_ensureSeq1Synced (h : Live e prompt s.core) : wp B (ensureSeq1Synced e s.posTarget) (fun ok s' =>
      match ok with
      | true => Synced e prompt 1 s s'
      | false => s'.core = s.core ∧ s'.frame = s.frame ∧ s'.posDraft = s.posDraft) E s := by
  simp only [ensureSeq1Synced, wp_bind, wp_get, wp_ite, wp_modify, wp_pure, wp_when, wp_seqRmTarget,
    wp_seqCpTarget]
  refine ⟨fun _ => ⟨rfl, rfl, trivial⟩, fun _ => ⟨fun _ => ?_, fun hhit => ?_⟩⟩
  · obtain ⟨hlive, hcopy⟩ := h.recopy Nat.one_ne_zero rfl
    exact ⟨hlive, hcopy, rfl, rfl, rfl, rfl, fun q' xs hq' hx => (hx.seqRm_ne hq').seqCp_ne hq'⟩
  · -- sequence 1 is as long as sequence 0, so it holds the same greedy tokens
    have hmax1 : s.tgt.mem.seqPosMax 1 = ((prompt ++ s.printed).length : Int) - 1 := by
      simp only [Bool.not_eq_false', Bool.and_eq_true, decide_eq_true_eq] at hhit
      rw [hhit.1]
      exact congrArg (fun n : Nat => (n : Int) - 1) h.pos
    exact ⟨h, (h.others 1 Nat.one_ne_zero).eq_of_posMax h.follows hmax1, rfl, rfl, rfl, rfl, fun _ _ _ hx => hx⟩

theorem wp_ensureSeqSynced (h : Live e prompt s.core) {q : Nat} (hq : q ≠ 0) :
    wp B (ensureSeqSynced e q s.posTarget) (fun ok s' =>
      match ok with
      | true => Synced e prompt q s s'
      | false => s'.core = s.core ∧ s'.frame = s.frame ∧ s'.posDraft = s.posDraft) E s := by
  simp only [ensureSeqSynced, wp_ite]
  refine ⟨?_, fun _ => ?_⟩
  · rintro rfl
    exact wp_ensureSeq1Synced h
  · simp only [wp_bind, wp_seqRmTarget, wp_seqCpTarget, wp_pure]
    obtain ⟨hlive, hcopy⟩ := h.recopy hq rfl
    exact ⟨hlive, hcopy, rfl, rfl, rfl, rfl, fun q' xs hq' hx => (hx.seqRm_ne hq').seqCp_ne hq'⟩

/-! ### The soft step -/

/-- The soft step is about to decode its token: nothing but sequence 1 has changed since `s`, and that is
up to date if `synced`. -/
structure Soft (e : Env F L) (prompt : List Token) (synced : Bool) (s s' : State F L) : Prop where
  live : Live e prompt s'.core
  printed : s'.printed = s.printed
  frame : s'.frame = s.frame
  seq1 : synced = true → s'.tgt.mem.Holds 1 (prompt ++ s.printed)

theorem Synced.soft (h : Synced e prompt 1 s s') : Soft e prompt true s s' :=
  ⟨h.live, congrArg Core.printed h.core, h.frame, fun _ => h.holds⟩

theorem wp_syncForSkip (h : Live e prompt s.core) (c : Call F) :
    wp B (syncForSkip e c) (fun synced s' => Soft e prompt synced s s') E s := by
  simp only [syncForSkip, wp_bind, wp_get, wp_ite, wp_pure]
  refine ⟨fun _ => (wp_ensureSeq1Synced h).imp ?_, fun _ => ⟨h, rfl, rfl, (fun h => by cases h)⟩⟩
  rintro (_ | _) s' h'
  · exact ⟨h'.1 ▸ h, congrArg Core.printed h'.1, h'.2.1, (fun h => by cases h)⟩
  · exact h'.soft

theorem Live.place_seq1 (h : Live e prompt k) (h1 : k.mem.Holds 1 (prompt ++ k.printed))
    (hn : e.next prompt k.printed = some t)
    (hm : m = (k.mem.place 1 k.posTarget [t]).seqCp 1 0 k.posTarget (k.posTarget + 1)) :
    m.Holds 0 (prompt ++ k.printed ++ [t]) ∧ ∀ q, q ≠ 0 → Greedy e prompt m q := by
  subst hm
  rw [h.pos]
  have hmem : (k.mem.place 1 (prompt ++ k.printed).length [t]).Holds 1 (prompt ++ k.printed ++ [t]) := h1.place
  refine ⟨hmem.seqCp_extend (n := 1) (h.seq0.place_ne Nat.zero_ne_one) rfl rfl, fun q hq => ?_⟩
  by_cases hq1 : q = 1
  · subst hq1
    refine .inr ⟨k.printed ++ [t], h.follows.snoc hn, ?_⟩
    rw [← List.append_assoc]
    exact hmem.seqCp_ne hq
  · exact ((h.others q hq).place_ne hq1).seqCp_ne hq

theorem Live.trim_seq1 (h : Live e prompt k) (h1 : k.mem.Holds 1 (prompt ++ k.printed))
    (hm : m = k.mem.seqRm 1 k.posTarget (k.posTarget + 1)) :
    Live e prompt (k.setMem m) ∧ m.Holds 1 (prompt ++ k.printed) := by
  subst hm
  have h1' : (k.mem.seqRm 1 k.posTarget (k.posTarget + 1)).Holds 1 (prompt ++ k.printed) := by
    have htake : (prompt ++ k.printed).take k.posTarget = prompt ++ k.printed :=
      List.take_of_length_le (Nat.le_of_eq h.pos.symm)
    exact htake ▸ h1.seqRm rfl (.inr (by rw [h.pos]; omega))
  refine ⟨⟨h.seq0.seqRm_ne Nat.zero_ne_one, h.pos, h.follows, h.hasRow, h.fresh, fun q hq => ?_, h.commits⟩, h1'⟩
  by_cases hq1 : q = 1
  · subst hq1; exact .inr ⟨k.printed, h.follows, h1'⟩
  · exact (h.others q hq).seqRm_ne hq1

theorem wp_commitViaSeq1 (h : Live e prompt s.core) (h1 : s.tgt.mem.Holds 1 (prompt ++ s.printed))
    (hn : e.next prompt s.printed = some t) : wp B (commitViaSeq1 e t) (fun ok s' => match ok with
      | true => Stepped e prompt s t s'
      | false => Soft e prompt true s s') E s := by
  simp only [commitViaSeq1, wp_bind, wp_get, wp_decodeTarget]
  refine ⟨fun _ => ?_, fun _ => ?_⟩
  · simp only [Bool.false_eq_true, if_false, wp_bind, wp_seqRmTarget]
    obtain ⟨hlive, h1'⟩ := h.trim_seq1 h1 rfl
    refine (wp_ensureSeq1Synced (s := { s with
      tick := s.tick + 1, tgt.mem := s.tgt.mem.seqRm 1 s.posTarget (s.posTarget + 1) }) hlive).imp ?_
    rintro (_ | _) s' h'
    · have hmem : s'.tgt.mem = s.tgt.mem.seqRm 1 s.posTarget (s.posTarget + 1) := congrArg Core.mem h'.1
      exact (wp_pure _).2 ⟨h'.1 ▸ hlive, congrArg Core.printed h'.1, h'.2.1, fun _ => hmem ▸ h1'⟩
    · exact (wp_pure _).2 ⟨h'.live, congrArg Core.printed h'.core, h'.frame, fun _ => h'.holds⟩
  · simp only [if_true, wp_bind, wp_seqCpTarget, wp_modify, wp_pure]
    have hout : (s.tgt.decode e.target 1 s.posTarget [t] true).out = [e.target (prompt ++ s.printed ++ [t])] :=
      (show s.posTarget = (prompt ++ s.printed).length from h.pos) ▸ Ctx.decode_one_out h1
    obtain ⟨h0, ho⟩ := h.place_seq1 h1 hn rfl
    exact ⟨h.step hn h0 ho (congrArg List.head? hout) rfl rfl rfl, rfl, rfl⟩

theorem wp_skipOnAccept (h : Soft e prompt synced s₀ s) (hn : e.next prompt s₀.printed = some t) :
    wp B (skipOnAccept e synced t) (fun via s' => match via with
      | true => Stepped e prompt s₀ t s'
      | false => Soft e prompt synced s₀ s') E s := by
  simp only [skipOnAccept, wp_bind, wp_get, wp_ite, wp_pure]
  refine ⟨fun hc => ?_, fun _ => h⟩
  obtain rfl : synced = true := by simp only [Bool.and_eq_true] at hc; exact hc.1
  rw [← h.printed] at hn
  refine (wp_commitViaSeq1 h.live (h.printed ▸ h.seq1 rfl) hn).imp ?_
  rintro (_ | _) s' h'
  · exact ⟨h'.live, h'.printed.trans h.printed, h'.frame.trans h.frame, fun hs => h.printed ▸ h'.seq1 hs⟩
  · exact ⟨h'.live, h'.printed.trans h.printed, h'.frame.trans h.frame⟩

theorem Live.mirror (h : Live e prompt (k.print t)) {xs : List Token} (hxs : xs = prompt ++ k.printed)
    (h1 : k.mem.Holds 1 xs) (hm : m = k.mem.seqCp 0 1 xs.length (xs.length + 1)) :
    Live e prompt ((k.setMem m).print t) := by
  subst hm hxs
  have hfol : Follows (e.next prompt) [] (k.printed ++ [t]) := h.follows
  have h0 : k.mem.Holds 0 (prompt ++ k.printed ++ [t]) := by rw [List.append_assoc]; exact h.seq0
  refine ⟨h.seq0.seqCp_ne Nat.zero_ne_one, h.pos, h.follows, h.hasRow, h.fresh, fun q hq => ?_, h.commits⟩
  by_cases hq1 : q = 1
  · subst hq1
    refine .inr ⟨k.printed ++ [t], hfol, ?_⟩
    rw [← List.append_assoc]
    exact h0.seqCp_extend (n := 1) h1 rfl rfl
  · exact (h.others q hq).seqCp_ne hq1

theorem wp_decodeUnlessSkipped {via : Bool} (hB : Clean B e strict) (hb : Base e prompt batch s₀.core s₀.frame)
    (h : match via with
      | true => Stepped e prompt s₀ t s
      | false => Soft e prompt synced s₀ s) (hn : e.next prompt s₀.printed = some t) :
    wp B (decodeUnlessSkipped e synced via t) (fun ok s' => match ok with
      | true => Stepped e prompt s₀ t s'
      | false => Rest e prompt batch strict s'.core s'.frame) E s := by
  simp only [decodeUnlessSkipped, wp_bind, wp_get, wp_ite, wp_pure]
  refine ⟨fun hvia => by rwa [hvia] at h, fun hvia => ?_⟩
  rw [Bool.not_eq_true] at hvia
  subst hvia
  rw [← h.printed] at hn
  refine (wp_decodeCommitted hB h.live hn).imp ?_
  rintro (_ | _) s' h'
  · simp only [Bool.false_and, wp_when, Bool.false_eq_true, false_implies, true_and, forall_const]
    exact (hb.of_live h.live).rest_of_core h'.1 (h'.2.1.trans (by rw [h.frame])) h'.2.2
  · obtain ⟨hst, -, hmem⟩ := h'
    have hpr : s'.printed = s₀.printed := hst.printed.trans h.printed
    have hfr : s'.frame = s₀.frame := hst.frame.trans h.frame
    have hpos : s.posTarget = (prompt ++ s₀.printed).length := h.printed ▸ h.live.pos
    simp only [Bool.true_and, wp_when, wp_seqCpTarget]
    refine ⟨fun hs => ⟨?_, hpr, hfr⟩, fun _ => ⟨hst.live, hpr, hfr⟩⟩
    refine hst.live.mirror (congrArg (prompt ++ ·) hpr.symm) (hmem 1 _ Nat.one_ne_zero (h.seq1 hs)) ?_
    rw [← hpos]
    rfl

theorem wp_stepOneSoftSpec (hB : Clean B e strict) (h : Inv e prompt batch strict s.core s.frame)
    (hlt : s.generated < batch) (hp : s.spec.ring.pending = [])
    (hf : strict → s.spec.ring.finishPending = false) (c : Call F) :
    wp B (stepOneSoftSpec e c) (Advanced e prompt batch strict s.generated) E s := by
  unfold stepOneSoftSpec
  rw [wp_bind, wp_get]
  refine (wp_nextToken hB.stale h.live).bind ?_
  rintro (_ | t) s' hs
  · obtain ⟨rfl, hend⟩ := hs
    exact (wp_pure _).2 (h.toBase.rest_finished fun _ => hend)
  obtain ⟨rfl, hn⟩ := hs
  refine (wp_syncForSkip h.live c).bind fun synced s₁ h₁ => ?_
  refine (wp_skipOnAccept h₁ hn).bind fun via s₂ h₂ => ?_
  refine (wp_decodeUnlessSkipped hB h.toBase h₂ hn).bind ?_
  rintro (_ | _) s₃ h₃
  · exact (wp_pure _).2 h₃
  simp only [Bool.not_true, Bool.false_eq_true, if_false, wp_bind, wp_modify, wp_when]
  -- whether or not `holo_kv` is refreshed, the token is printed next
  have hprint : ∀ s₄ : State F L, s₄.core = s₃.core → s₄.frame = s₃.frame →
      wp B (printOne e t) (fun ok s₅ => wp B (if (!ok) = true then pure false
        else if e.hasDraft = true then followInDraft e s'.posTarget t else pure true)
          (Advanced e prompt batch strict s'.generated) E s₅) E s₄ := by
    intro s₄ hc hr
    have hst : Stepped e prompt s' t s₄ :=
      ⟨hc ▸ h₃.live, (congrArg Core.printed hc).trans h₃.printed, hr.trans h₃.frame⟩
    refine (hst.wp_print hB h hlt hp hf).imp ?_
    rintro (_ | _) s₅ h₅
    · exact (wp_pure _).2 h₅
    · simp only [Bool.not_true, Bool.false_eq_true, if_false, wp_ite, wp_pure]
      exact ⟨fun _ => (wp_followInDraft hB _).imp fun ok s₆ h₆ => h₅.follow h₆, fun _ => h₅⟩
  exact ⟨fun _ => hprint _ rfl rfl, fun _ => hprint _ rfl rfl⟩

end Korith.Executor
