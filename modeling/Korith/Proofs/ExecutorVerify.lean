import Korith.Lib.Python
import Korith.Proofs.ExecutorPending

/-!
# The second half of an iteration keeps the invariant

The drafted tokens are arbitrary: what goes into the ring is only what `Verified` says of an engine's
verdict. An engine works in a sequence of its own, so the best verdict so far stays true while later
engines run.
-/

set_option linter.unusedSectionVars false

namespace Korith.Executor

open Exec

variable {F L : Type} [LinearOrder L] [FloatArith F] {B : Hazard → Prop} {e : Env F L} {c : Call F}
  {prompt : List Token} {batch : Nat} {strict : Prop} {s s₀ : State F L} {k : Core L} {r r₀ : Frame L}
  {E : Leave Unit → State F L → Prop}

/-! ### The text with the pending tokens -/

def State.text (s : State F L) : List Token := s.printed ++ s.spec.ring.tokens

theorem Inv.text_follows (h : Inv e prompt batch strict s.core s.frame) : Follows (e.next prompt) [] s.text := by
  by_cases hp : s.spec.ring.pending = []
  · rw [State.text, Ring.tokens, hp, List.map_nil, List.append_nil]
    exact h.live.follows
  · exact (h.pend hp).follows

theorem Live.pendingPos (h : Live e prompt s.core) : s.pendingPos = (prompt ++ s.text).length := by
  rw [State.pendingPos, State.text, ← List.append_assoc, List.length_append,
    show s.posTarget = (prompt ++ s.printed).length from h.pos, Ring.tokens, List.length_map]

theorem Inv.baseRow (h : Inv e prompt batch strict s.core s.frame)
    (hfresh : s.spec.ring.pending = [] → s.fresh = true) : s.baseRow = some (e.target (prompt ++ s.text)) := by
  unfold State.baseRow
  cases hl : s.spec.ring.pending.getLast? with
  | none =>
    have hp := List.getLast?_eq_none_iff.1 hl
    rw [State.text, Ring.tokens, hp, List.map_nil, List.append_nil]
    exact h.live.fresh (hfresh hp)
  | some p =>
    have hne : s.spec.ring.pending ≠ [] := by rintro hp; simp [hp] at hl
    rw [List.getLast?_eq_getElem?] at hl
    have hrow := (h.pend hne).rows _ p hl
    rw [Nat.sub_add_cancel (List.length_pos_iff.2 hne), List.take_of_length_le (by simp [Ring.tokens, State.frame]),
      List.append_assoc] at hrow
    exact congrArg some hrow

theorem Env.canSpeak_of_next {out : List Token} {t : Token} (h : e.next prompt out = some t) :
    e.CanSpeak ∧ e.isEog t = false := by
  obtain ⟨hs, ht⟩ := Option.filter_eq_some_iff.1 h
  rw [Bool.not_eq_true'] at ht
  rw [e.sample_eq] at hs
  exact ⟨⟨t, e.target_length _ ▸ (isLowestArgmax_of_eq hs).lt, ht⟩, ht⟩

theorem Env.CanSpeak.sample_ne_none (h : e.CanSpeak) (xs : List Token) (allow : Bool) :
    sample e (some (e.target xs)) allow ≠ none := by
  obtain ⟨t, hlt, ht⟩ := h
  rw [e.sample_eq, Ne, lowestArgmax_eq_none_iff]
  exact fun hall => by simpa [sampleable, ht] using hall t (by rwa [e.target_length])

/-! ### The size of the block -/

theorem measure_flush_lt (hf : flushNow r.ring = false) (b : Bool) :
    measure batch { r with ring := { r.ring with finishPending := b, flushPending := true } } < measure batch r := by
  simp only [measure, hf, Bool.false_eq_true, if_false]
  simp only [flushNow, Bool.true_or, if_true]
  exact Nat.lt_succ_self _

section Head

variable {α : Type} {Q : α → State F L → Prop} (hB : Clean B e strict) (h : Headed e prompt c strict r₀ s)
include h

theorem Headed.flush_lt (hp : s.spec.ring.pending ≠ []) (b : Bool) : measure c.batchTokens
      { s.frame with ring := { s.frame.ring with finishPending := b, flushPending := true } } <
      measure c.batchTokens r₀ :=
  Nat.lt_of_lt_of_le (measure_flush_lt (h.unflushed hp) b) h.measure

theorem wp_finishBehindPending (hend : strict → e.Ended prompt s.text) :
    wp B finishBehindPending Q (Exits e prompt c.batchTokens strict r₀) s := by
  simp only [finishBehindPending, wp_bind, wp_get, wp_ite, wp_finish, wp_exit, wp_modify, List.isEmpty_iff]
  refine ⟨fun hp => h.inv.toBase.rest_finished fun hs => ?_, fun hp => ⟨?_, h.flush_lt hp true⟩⟩
  · have := hend hs
    rwa [State.text, Ring.tokens, hp, List.map_nil, List.append_nil] at this
  · have hinv := h.inv
    exact ⟨⟨hinv.live, hinv.unfinished, hinv.counted, hinv.budget, hinv.seqId, fun _ => hinv.valid (.inl hp),
      hinv.cap⟩, fun _ => ⟨(hinv.pend hp).holds, (hinv.pend hp).follows, (hinv.pend hp).rows⟩, fun hs _ => hend hs⟩

include hB

theorem wp_flushOrStep : wp B (flushOrStep e) Q (Exits e prompt c.batchTokens strict r₀) s := by
  simp only [flushOrStep, wp_bind, wp_get, wp_ite, wp_exit, wp_modify, List.isEmpty_iff]
  refine ⟨fun hp => wp_stepAndContinue hB h.inv h.lt hp (fun _ => h.finish) h.le true, fun hp => ?_⟩
  have hlt := h.flush_lt hp false
  rw [← h.finish] at hlt
  exact ⟨h.inv.setFlush true, hlt⟩

variable {n : Nat}

theorem wp_clampByContext (hn : n ≤ 64) :
    wp B (clampByContext e n) (fun k s' => s' = s ∧ k ≤ 64) (Exits e prompt c.batchTokens strict r₀) s := by
  simp only [clampByContext, wp_bind, wp_get, wp_ite, wp_pure, true_and]
  refine ⟨fun _ => hn, fun h0 => ⟨fun hfull => ?_, fun _ => ⟨fun _ => wp_flushOrStep hB h, fun _ => ?_⟩⟩⟩
  · exact wp_finishBehindPending h fun _ => .inr ⟨Nat.pos_of_ne_zero h0, h.inv.live.pendingPos ▸ hfull⟩
  · exact Nat.le_trans (Nat.min_le_left _ _) hn

theorem wp_blockSize (window : Nat) :
    wp B (blockSize e c window) (fun k s' => s' = s ∧ k ≤ 64) (Exits e prompt c.batchTokens strict r₀) s := by
  simp only [blockSize, wp_bind, wp_get, wp_ite]
  refine ⟨fun _ => wp_flushOrStep hB h, fun _ => wp_clampByContext hB h ?_⟩
  exact Nat.le_trans (Nat.min_le_right _ _) (Nat.sub_le _ _)

end Head

/-! ### The base token -/

theorem Env.allowEog_mono {m : Nat} (h : e.allowEog m = true) (hmn : m ≤ n) : e.allowEog n = true := by
  simp only [Env.allowEog, Bool.or_eq_true, beq_iff_eq, decide_eq_true_eq] at h ⊢
  omega

/-- Without a straddle the threshold is on the same side of both positions. -/
theorem Clean.allow_eq (hB : Clean B e strict) {m : Nat}
    (h : (e.allowEog m != e.allowEog n) = true → ¬ B .straddle) : e.allowEog m = e.allowEog n := by
  rcases hB.straddle with h0 | hs
  · simp [Env.allowEog, h0]
  · by_contra hne
    exact h (by simpa using hne) hs

theorem Env.allowEog_between {m i : Nat} (h : e.allowEog m = e.allowEog n) (hm : m ≤ i) (hn : i ≤ n) :
    e.allowEog i = e.allowEog m := by
  cases hm' : e.allowEog m with
  | true => exact Env.allowEog_mono hm' hm
  | false =>
    rw [← Bool.not_eq_true]
    intro hi
    have := Env.allowEog_mono hi hn
    rw [← h, hm'] at this
    exact Bool.noConfusion this

/-- The target's choice behind the pending tokens does not end the generation, and the row it was chosen
from is intact. -/
structure Based (e : Env F L) (prompt : List Token) (tok0 : Token) (s : State F L) : Prop where
  next : e.next prompt s.text = some tok0
  fresh : s.spec.ring.pending = [] → s.fresh = true

variable {allow : Bool} {s' s₂ : State F L}

theorem wp_baseToken (hB : Clean B e strict) (h : Headed e prompt c strict r₀ s)
    (hallow : ∃ n, allow = e.allowEog n) : wp B (baseToken e allow) (fun t s' => s' = s ∧ Based e prompt t s)
      (Exits e prompt c.batchTokens strict r₀) s := by
  obtain ⟨n, rfl⟩ := hallow
  simp only [baseToken, wp_bind, wp_get, wp_note]
  intro hstale hstraddle
  have hfresh : s.spec.ring.pending = [] → s.fresh = true := fun hp => by
    rw [← Bool.not_eq_false]
    exact fun hf => hstale (by simp [hp, hf]) hB.stale
  have hrow := h.inv.baseRow hfresh
  have hlen : s.text.length = s.printed.length + s.spec.ring.pending.length := by
    rw [State.text, List.length_append, Ring.tokens, List.length_map]
  have hnext : (sample e s.baseRow (e.allowEog n)).filter (fun t => !e.isEog t) = e.next prompt s.text := by
    rw [hrow, hB.allow_eq hstraddle, ← hlen]
    rfl
  cases hs : sample e s.baseRow (e.allowEog n) with
  | none =>
    simp only [wp_bind, wp_finish, wp_exit]
    refine h.inv.toBase.rest_finished fun _ => .inl (Option.eq_none_iff_forall_ne_some.2 fun t hn => ?_)
    rw [hrow] at hs
    exact (Env.canSpeak_of_next hn).1.sample_ne_none _ _ hs
  | some t =>
    rw [hs] at hnext
    simp only [wp_ite, wp_pure, true_and]
    refine ⟨fun ht => wp_finishBehindPending h fun _ => .inl ?_, fun ht => ⟨?_, hfresh⟩⟩
    · rw [← hnext]
      simp [Option.filter, ht]
    · rw [← hnext]
      simp [Option.filter, ht]

/-! ### The draft model proposes -/

/-- What the draft model has proposed, behind the `len` tokens it started with. -/
structure Proposed (bound len : Nat) (s : State F L) (p : Proposal L) (s' : State F L) : Prop where
  quiet : Quiet s s'
  rows : p.rows.length = p.tokens.length
  le : p.tokens.length ≤ bound
  pos : s'.posDraft + len = s.posDraft + p.tokens.length

theorem wp_propose (allow : Bool) (n : Nat) (ts : List Token) (rows : List (List L)) (hl : rows.length = ts.length) :
    wp B (propose e allow n ts rows) (fun p s' => Proposed (ts.length + n) ts.length s p s') E s := by
  induction n generalizing s ts rows with
  | zero => exact (wp_pure _).2 ⟨⟨rfl, rfl, rfl⟩, hl, Nat.le_refl _, rfl⟩
  | succ n ih =>
    have hstop : ∀ ok, Proposed (ts.length + (n + 1)) ts.length s ⟨ok, ts, rows⟩ s := fun ok =>
      ⟨⟨rfl, rfl, rfl⟩, hl, Nat.le_add_right _ _, rfl⟩
    unfold propose
    rw [wp_bind, wp_get]
    cases s.draftRow with
    | none => exact (wp_pure _).2 (hstop false)
    | some row =>
      dsimp only
      cases sample e (some row) allow with
      | none => exact (wp_pure _).2 (hstop false)
      | some t =>
        simp only [wp_ite, wp_bind, wp_pure, wp_decodeDraft]
        refine ⟨fun _ => hstop true, fun _ => ⟨fun _ => ⟨(fun h => by cases h), fun _ => ?_⟩,
          fun _ => ⟨fun _ => ?_, fun h => absurd trivial h⟩⟩⟩
        · exact ⟨⟨rfl, rfl, rfl⟩, hl, Nat.le_add_right _ _, rfl⟩
        refine (ih (ts ++ [t]) (rows ++ [row]) (by simp [hl])).imp ?_
        rintro p s' ⟨hq, hrows, hle, hpos⟩
        simp only [List.length_append, List.length_singleton] at hle hpos
        exact ⟨⟨hq.core, hq.frame, hq.profit⟩, hrows, by omega, by omega⟩

theorem wp_abandonBlock {α : Type} {Q : α → State F L → Prop} (hB : Clean B e strict)
    (h : Going e prompt c strict r₀ s) (hf : s.spec.ring.finishPending = false) :
    wp B (abandonBlock e) Q (Exits e prompt c.batchTokens strict r₀) s := by
  unfold abandonBlock
  rw [wp_bind, wp_get]
  refine (wp_rollbackDraft _).bind fun _ s₁ h₁ => ?_
  have hgo := h.quiet h₁
  rw [wp_bind, wp_when]
  refine ⟨fun _ => ?_, fun hp => ?_⟩
  · refine (wp_resetSpecState hgo.inv.toBase false).bind fun _ s₂ h₂ => ?_
    refine (wp_rollbackDraft _).imp fun _ s₃ h₃ => ?_
    exact (h₂.quiet h₃).step hB hgo.lt hgo.le true
  · rw [Bool.not_eq_false', List.isEmpty_iff, ← h₁.ring] at hp
    exact wp_stepAndContinue hB hgo.inv hgo.lt hp (fun _ => h₁.ring ▸ hf) hgo.le true

structure Drafted (b : Block L) (s s' : State F L) : Prop where
  quiet : Quiet s s'
  rows : b.rows.length = b.tokens.length
  pos : 0 < b.tokens.length
  le : b.tokens.length ≤ 64
  posDraft : s'.posDraft = s.posDraft + b.tokens.length

theorem wp_draftBlock (hB : Clean B e strict) (h : Headed e prompt c strict r₀ s) (hn : n ≤ 64) :
    wp B (draftBlock e n) (fun b s' => Drafted b s s') (Exits e prompt c.batchTokens strict r₀) s := by
  unfold draftBlock
  rw [wp_bind, wp_get, wp_bind, wp_now]
  refine (wp_propose _ n [] [] rfl).bind fun p s₁ hpost => ?_
  obtain ⟨hq, hrows, hle, hpos⟩ := hpost
  rw [wp_bind, wp_now, wp_ite, wp_pure]
  have hq' : Quiet s { s₁ with tick := s₁.tick + 1 } := ⟨hq.core, hq.frame, hq.profit⟩
  rw [List.length_nil, Nat.zero_add] at hle
  refine ⟨fun _ => wp_abandonBlock hB (h.toGoing.quiet hq') (hq'.ring ▸ h.finish), fun hok => ?_⟩
  refine ⟨hq', hrows, List.length_pos_iff.2 fun hp => hok ?_, Nat.le_trans hle hn, hpos⟩
  rw [show p.tokens = [] from hp, List.isEmpty_nil, Bool.or_true]

/-! ### One engine -/

theorem Base.rest_abort {k' : Core L} {r' : Frame L} (h : Base e prompt batch k r) (hs : ¬ strict)
    (hk : k'.printed = k.printed) (hc : k'.commits = k.commits) (hr : r'.printedThisCall = r.printedThisCall)
    (hf : r'.finished = true) : Rest e prompt batch strict k' r' where
  follows := hk ▸ h.live.follows
  commits := hc ▸ h.live.commits
  le := by rw [hr, h.counted]; exact h.budget
  inv hf' := absurd hf (by simp [hf'])
  ended hs' := absurd hs' hs

/-- Engines have run: at most sequences other than 0 have changed, and the row behind `logits_target`. -/
structure Ran (e : Env F L) (prompt : List Token) (s s' : State F L) : Prop where
  live : Live e prompt s'.core
  printed : s'.printed = s.printed
  frame : s'.frame = s.frame
  posDraft : s'.posDraft = s.posDraft

theorem Ran.ring (h : Ran e prompt s s') : s'.spec.ring = s.spec.ring := congrArg Frame.ring h.frame

theorem Ran.text (h : Ran e prompt s s') : s'.text = s.text := by
  rw [State.text, State.text, h.printed, h.ring]

theorem Ran.trans {s₁ : State F L} (h : Ran e prompt s s₁) (h' : Ran e prompt s₁ s₂) : Ran e prompt s s₂ :=
  ⟨h'.live, h'.printed.trans h.printed, h'.frame.trans h.frame, h'.posDraft.trans h.posDraft⟩

theorem Ran.going (h : Ran e prompt s s') (hg : Going e prompt c strict r₀ s)
    (hp : s.spec.ring.pending = []) (hf : s.spec.ring.finishPending = false) : Going e prompt c strict r₀ s' where
  inv := by
    rw [h.frame]
    exact (hg.inv.toBase.of_live h.live).inv_of_empty hp fun _ => hf
  lt := by rw [show s'.generated = s.generated from congrArg Frame.generated h.frame]; exact hg.lt
  le := by rw [show s'.generated = s.generated from congrArg Frame.generated h.frame]; exact hg.le
  measure := by rw [h.frame]; exact hg.measure

/-- The verdict `v` on a block behind `text`, of an engine that has left the accepted tokens in the memory. -/
structure Sound (e : Env F L) (prompt text : List Token) (m : Memory) (v : Verdict L) : Prop where
  seq : v.seq ≠ 0
  holds : m.Holds v.seq (prompt ++ text ++ v.tokens)
  follows : Follows (e.next prompt) text v.tokens
  correct : ∀ t, v.correction = some t → e.next prompt (text ++ v.tokens) = some t
  stop : v.finished = true → e.next prompt (text ++ v.tokens) = none ∧ v.correction = none
  rows_length : v.rows.length = v.tokens.length
  rows : ∀ i row, v.rows[i]? = some row → row = e.target (prompt ++ text ++ v.tokens.take (i + 1))
  proposed_pos : 0 < v.proposed
  proposed_le : v.proposed ≤ 64

structure Decoded (e : Env F L) (prompt text : List Token) (seq : Nat) (ts : List Token) (s s' : State F L) :
    Prop where
  holds : s'.tgt.mem.Holds seq (prompt ++ text ++ ts)
  mem : ∀ q xs, q ≠ seq → s.tgt.mem.Holds q xs → s'.tgt.mem.Holds q xs
  out : ∀ i, i < ts.length → s'.tgt.out[i]? = some (e.target (prompt ++ text ++ ts.take (i + 1)))
  out_length : s'.tgt.out.length = ts.length
  core : s'.core = { s.core with mem := s'.tgt.mem, row := s'.row, fresh := s'.fresh }
  frame : s'.frame = s.frame
  posDraft : s'.posDraft = s.posDraft
  hasRow : s'.row.isSome = true
  row : s'.fresh = true → s.fresh = true ∧ s'.row = s.row

section Engine

variable {seq : Nat} {text ts : List Token} {tok0 : Token} {s₁ : State F L}

theorem decoded_decodeTarget (h : Live e prompt s.core) (hh : s.tgt.mem.Holds seq (prompt ++ text)) {start : Nat}
    (hpos : start = (prompt ++ text).length) (hts : 0 < ts.length) (n : Nat) :
    Decoded e prompt text seq ts s { State.decodeTarget e seq start ts s with tick := n } := by
  subst hpos
  have hout : ∀ i, i < ts.length → (s.tgt.decode e.target seq (prompt ++ text).length ts true).out[i]? =
      some (e.target (prompt ++ text ++ ts.take (i + 1))) := fun i hi => Ctx.decode_row hh hi
  refine ⟨Ctx.decode_holds hh, fun q xs hq hx => Ctx.decode_holds_ne hx hq, hout,
    by simp [State.decodeTarget, Ctx.decode], rfl, rfl, rfl, ?_, fun hf => ?_⟩
  · have hrow : s.row.isSome = true := h.hasRow
    unfold State.row at hrow ⊢
    cases hp : s.logitsTarget with
    | null => simp [hp] at hrow
    | ctx => simp only [State.decodeTarget, hp, List.head?_eq_getElem?, hout 0 hts, Option.isSome_some]
    | best => simp [State.decodeTarget, hp]
  · simp only [State.decodeTarget, Bool.and_eq_true, bne_iff_ne, ne_eq] at hf
    refine ⟨hf.1, ?_⟩
    unfold State.row
    cases hp : s.logitsTarget with
    | null => simp [State.decodeTarget, hp]
    | ctx => exact absurd hp hf.2
    | best => simp [State.decodeTarget, hp]

section

variable (hd : Decoded e prompt text seq ts s s₁)

include hd

theorem Decoded.printed : s₁.printed = s.printed := congrArg Core.printed hd.core

theorem Decoded.ring : s₁.spec.ring = s.spec.ring := congrArg Frame.ring hd.frame

variable {m : Memory}

/-- Once the block is cut down to greedy tokens, all is as it should be. -/
theorem Decoded.live (h : Live e prompt s.core) (hseq : seq ≠ 0)
    {g : List Token} (hg : Follows (e.next prompt) [] g) (hm : m.Holds seq (prompt ++ g))
    (hmem : ∀ q xs, q ≠ seq → s₁.tgt.mem.Holds q xs → m.Holds q xs) : Live e prompt (s₁.core.setMem m) := by
  have hmem' : ∀ q xs, q ≠ seq → s.tgt.mem.Holds q xs → m.Holds q xs := fun q xs hq hx =>
    hmem q xs hq (hd.mem q xs hq hx)
  rw [hd.core]
  refine ⟨hmem' 0 _ (Ne.symm hseq) h.seq0, h.pos, h.follows, hd.hasRow, fun hf => ?_, fun q hq => ?_, h.commits⟩
  · obtain ⟨hf', hrow⟩ := hd.row hf
    exact hrow.trans (h.fresh hf')
  · by_cases hqs : q = seq
    · subst hqs
      exact .inr ⟨g, hg, hm⟩
    · rcases h.others q hq with hx | ⟨g', hg', hx⟩
      · exact .inl (hmem' q _ hqs hx)
      · exact .inr ⟨g', hg', hmem' q _ hqs hx⟩

theorem Decoded.setTick (n : Nat) : Decoded e prompt text seq ts s { s₁ with tick := n } :=
  ⟨hd.holds, hd.mem, hd.out, hd.out_length, hd.core, hd.frame, hd.posDraft, hd.hasRow, hd.row⟩

end

variable (hd : Decoded e prompt s.text seq ts s s₁)

include hd

/-- Row `i` of the block is the one that token `i + 1` is compared with. -/
theorem Decoded.getElem?_take {i : Nat} {row : List L} (hn : n ≤ ts.length)
    (h : (s₁.tgt.out.take n)[i]? = some row) : i < n ∧ row = e.target (prompt ++ s.text ++ ts.take (i + 1)) := by
  rw [List.getElem?_take] at h
  split_ifs at h with hi
  rw [hd.out i (Nat.lt_of_lt_of_le hi hn), Option.some.injEq] at h
  exact ⟨hi, h.symm⟩

omit hd in
theorem State.text_length (s : State F L) (xs : List Token) :
    (s.text ++ xs).length = s.printed.length + s.spec.ring.pending.length + xs.length := by
  rw [State.text, List.length_append, List.length_append, Ring.tokens, List.length_map]

theorem Decoded.predicts (hts : 0 < ts.length) (hn : e.next prompt s.text = some tok0)
    (hallow : ∀ i, i + 1 < ts.length → e.allowEog (s.text ++ ts.take (i + 1)).length = allow) :
    Predicts (e.next prompt) e.isEog s.text ts
      (some tok0 :: (s₁.tgt.out.take (ts.length - 1)).map fun row => sample e (some row) allow) where
  length := by
    rw [List.length_cons, List.length_map, List.length_take, hd.out_length]
    omega
  next i p hp := by
    cases i with
    | zero =>
      obtain rfl : some tok0 = p := by simpa using hp
      rw [List.take_zero, List.append_nil, hn]
      simp [Option.filter, (Env.canSpeak_of_next hn).2]
    | succ i =>
      rw [List.getElem?_cons_succ, List.getElem?_map, Option.map_eq_some_iff] at hp
      obtain ⟨row, hrow, rfl⟩ := hp
      obtain ⟨hi, rfl⟩ := hd.getElem?_take (Nat.sub_le _ _) hrow
      rw [Env.next, hallow i (by omega), List.append_assoc]

omit hd in
theorem wp_abortEngine {α : Type} {Q : α → State F L → Prop} (h : Base e prompt batch s.core s.frame)
    (hs : ¬ strict) (hk : s₁.printed = s.printed) (hc : s₁.commits = s.commits)
    (hr : s₁.printedThisCall = s.printedThisCall) :
    wp B (abortEngine e seq) Q (Exits e prompt batch strict r₀) s₁ := by
  simp only [abortEngine, wp_bind, wp_get, wp_seqRmTarget, wp_rollbackDraftTo, wp_abort]
  exact ⟨h.rest_abort hs hk hc hr rfl, rfl, hs⟩

theorem wp_checkOnHost (hB : Clean B e strict) (h : Going e prompt c strict r₀ s)
    (hn : e.next prompt s.text = some tok0) (hts : 0 < ts.length) (hle : ts.length ≤ 64) :
    wp B (checkOnHost e seq tok0 ts) (fun chk s' => s' = s₁ ∧ Verified (e.next prompt) s.text ts chk)
      (Exits e prompt c.batchTokens strict r₀) s₁ := by
  simp only [checkOnHost, wp_bind, wp_get, wp_note]
  intro hstraddle
  have hallow : ∀ i, i + 1 < ts.length →
      e.allowEog (s.text ++ ts.take (i + 1)).length = e.allowEogNow s₁ := by
    intro i hi
    rw [State.text_length, List.length_take, Nat.min_eq_left (Nat.le_of_lt hi), Env.allowEogNow, hd.printed]
    refine Env.allowEog_between (hB.allow_eq (n := s.printed.length + s.spec.ring.pending.length + (ts.length - 1))
      fun hne => hstraddle ?_) (by omega) (by omega)
    rw [Bool.and_eq_true, decide_eq_true_eq, Env.allowEogNow, hd.printed, hd.ring]
    exact ⟨by omega, hne⟩
  have hp := hd.predicts hts hn hallow
  split
  case h_1 hnone =>
    refine wp_abortEngine h.inv.toBase (fun hs => ?_) hd.printed (congrArg Core.commits hd.core)
      (congrArg Frame.printedThisCall hd.frame)
    -- every row has a token, and there are not too many
    simp only [hostCompare, Option.map_eq_none_iff] at hnone
    have hsome : (targetTokens e.isEog _ []).isSome = true :=
      targetTokens_isSome (fun p hp' => ?_) (by rw [List.length_nil, hp.length]; omega)
    · rw [hnone] at hsome
      exact Bool.noConfusion hsome
    · rcases List.mem_cons.1 hp' with rfl | hp'
      · exact Option.some_ne_none _
      · obtain ⟨row, hrow, rfl⟩ := List.mem_map.1 hp'
        obtain ⟨i, hi⟩ := List.getElem?_of_mem hrow
        rw [(hd.getElem?_take (Nat.sub_le _ _) hi).2]
        exact (Env.canSpeak_of_next hn).1.sample_ne_none _ _
  case h_2 cmp hcmp => exact (wp_pure _).2 ⟨rfl, hostCompare_verified hp hcmp⟩

variable [OrderBot L] {chk : Checked}

theorem wp_checkOnGpu (hB : Clean B e strict) (h : Going e prompt c strict r₀ s) (hts : 0 < ts.length)
    (hle : ts.length ≤ 64) (hallow : e.allowEogNow s₁ = true) :
    wp B (checkOnGpu e ts) (fun chk s' => s' = s₁ ∧ Verified (e.next prompt) s.text ts chk) E s₁ := by
  simp only [checkOnGpu, wp_bind, wp_get, wp_note, wp_pure, true_and]
  intro hstale heog
  have hbase : s₁.baseRow = some (e.target (prompt ++ s.text)) := by
    have hfresh : s.spec.ring.pending = [] → s₁.fresh = true := fun hp => by
      rw [← Bool.not_eq_false]
      exact fun hf => hstale (by simp [hd.ring, hp, hf]) hB.stale
    rw [← h.inv.baseRow fun hp => (hd.row (hfresh hp)).1]
    unfold State.baseRow
    rw [hd.ring]
    cases hl : s.spec.ring.pending.getLast? with
    | none => exact (hd.row (hfresh (List.getLast?_eq_none_iff.1 hl))).2
    | some p => rfl
  rw [hbase, Option.getD_some] at heog ⊢
  have hrow : ∀ i row, (e.target (prompt ++ s.text) :: s₁.tgt.out.take (ts.length - 1))[i]? = some row →
      row = e.target (prompt ++ (s.text ++ ts.take i)) := by
    rintro (_ | i) row hi
    · rw [List.take_zero, List.append_nil]
      simpa using hi.symm
    · rw [List.getElem?_cons_succ] at hi
      rw [(hd.getElem?_take (Nat.sub_le _ _) hi).2, List.append_assoc]
  refine gpuSpecVerify_verified (fun row hr => ?_) hle ⟨?_, fun i p hp => ?_⟩ fun t ht => ?_
  · obtain ⟨i, hi⟩ := List.getElem?_of_mem hr
    rw [hrow i row hi, ← List.length_pos_iff, e.target_length]
    exact e.nVocab_pos
  · rw [List.length_map, List.length_cons, List.length_take, hd.out_length]
    omega
  · rw [List.getElem?_map, Option.map_eq_some_iff] at hp
    obtain ⟨row, hi, rfl⟩ := hp
    have hlater : e.allowEog (s.text ++ ts.take i).length = true := by
      refine Env.allowEog_mono hallow ?_
      rw [State.text_length, hd.printed]
      omega
    rw [Env.next, hlater, e.sample_eq, hrow i row hi]
    rfl
  · by_contra hne
    rw [Bool.not_eq_false] at hne
    exact heog (List.any_eq_true.2 ⟨t, ht, hne⟩) hB.fused

theorem wp_checkBlock (hB : Clean B e strict) (h : Going e prompt c strict r₀ s)
    (hn : e.next prompt s.text = some tok0) (hts : 0 < ts.length) (hle : ts.length ≤ 64) :
    wp B (checkBlock e seq tok0 ts)
      (fun chk s' => s' = { s₁ with tick := s₁.tick + 1 } ∧ Verified (e.next prompt) s.text ts chk)
      (Exits e prompt c.batchTokens strict r₀) s₁ := by
  simp only [checkBlock, wp_bind, wp_get, wp_tick, wp_ite, Bool.and_eq_true]
  refine ⟨fun hg => wp_checkOnGpu (hd.setTick _) hB h hts hle hg.1.2, fun _ => ?_⟩
  exact wp_checkOnHost (hd.setTick _) hB h hn hts hle

theorem Decoded.sound (hv : Verified (e.next prompt) s.text ts chk)
    (hseq : seq ≠ 0) (hts : 0 < ts.length) (hle : ts.length ≤ 64)
    (hm : m.Holds seq (prompt ++ s.text ++ ts.take chk.accepted)) (elapsed verify scan : Nat) :
    Sound e prompt s.text m ⟨seq, ts.length, ts.take chk.accepted, s₁.tgt.out.take chk.accepted, chk.correction,
      chk.finished, elapsed, verify, scan⟩ where
  seq := hseq
  holds := hm
  follows := hv.follows
  correct := hv.correct
  stop := hv.stop
  rows_length := by rw [List.length_take, List.length_take, hd.out_length]
  rows i row hi := by
    obtain ⟨hlt, rfl⟩ := hd.getElem?_take hv.le hi
    rw [List.take_take, Nat.min_eq_left hlt]
  proposed_pos := hts
  proposed_le := hle

structure EngineDone (e : Env F L) (prompt : List Token) (seq : Nat) (s : State F L) (v : Option (Verdict L))
    (s' : State F L) : Prop where
  ran : Ran e prompt s s'
  mem : ∀ q xs, q ≠ seq → s.tgt.mem.Holds q xs → s'.tgt.mem.Holds q xs
  sound : ∀ x, v = some x → x.seq = seq ∧ Sound e prompt s.text s'.tgt.mem x

omit hd in
theorem EngineDone.clear (h : Live e prompt s.core) (hseq : seq ≠ 0) (n : Nat) :
    EngineDone e prompt seq s none { s with tgt.mem := s.tgt.mem.seqRm seq (-1) (-1), tick := n } :=
  ⟨⟨h.clear hseq, rfl, rfl, rfl⟩, fun _ _ hq hx => hx.seqRm_ne hq, fun _ h => by cases h⟩

theorem Decoded.done (h : Inv e prompt batch strict s.core s.frame)
    (hseq : seq ≠ 0) (hv : Verified (e.next prompt) s.text ts chk) (hts : 0 < ts.length)
    (hle : ts.length ≤ 64) (hm : m.Holds seq (prompt ++ s.text ++ ts.take chk.accepted))
    (hmem : ∀ q xs, q ≠ seq → s₁.tgt.mem.Holds q xs → m.Holds q xs) (n elapsed verify scan : Nat) :
    EngineDone e prompt seq s (some ⟨seq, ts.length, ts.take chk.accepted, s₁.tgt.out.take chk.accepted,
      chk.correction, chk.finished, elapsed, verify, scan⟩) { s₁ with tgt.mem := m, tick := n } := by
  have hg : Follows (e.next prompt) [] (s.text ++ ts.take chk.accepted) :=
    follows_append.2 ⟨h.text_follows, hv.follows⟩
  refine ⟨⟨hd.live h.live hseq hg (List.append_assoc _ _ _ ▸ hm) hmem, hd.printed, hd.frame, hd.posDraft⟩,
    fun q xs hq hx => hmem q xs hq (hd.mem q xs hq hx), ?_⟩
  rintro x ⟨⟩
  exact ⟨rfl, hd.sound hv hseq hts hle hm _ _ _⟩

theorem Decoded.cut (hpos : s.pendingPos = (prompt ++ s.text).length) (n : Nat) :
    (s₁.tgt.mem.seqRm seq (s.pendingPos + n) (s.pendingPos + ts.length)).Holds seq
      (prompt ++ s.text ++ ts.take n) := by
  have hcut : (s₁.tgt.mem.seqRm seq (s.pendingPos + n) (s.pendingPos + ts.length)).Holds seq
      ((prompt ++ s.text ++ ts).take (s.pendingPos + n)) :=
    hd.holds.seqRm (by push_cast; rfl) (.inr (by rw [List.length_append, ← hpos]; push_cast; rfl))
  have htake : (prompt ++ s.text ++ ts).take (s.pendingPos + n) = prompt ++ s.text ++ ts.take n := by
    rw [hpos, List.take_length_add_append]
  rwa [htake] at hcut

omit hd

theorem wp_verifyBlock (hB : Clean B e strict) (h : Going e prompt c strict r₀ s) (hseq : seq ≠ 0)
    (hh : s.tgt.mem.Holds seq (prompt ++ s.text)) (hn : e.next prompt s.text = some tok0) (hts : 0 < ts.length)
    (hle : ts.length ≤ 64) (t0 : Nat) :
    wp B (verifyBlock e seq tok0 t0 ts) (EngineDone e prompt seq s) (Exits e prompt c.batchTokens strict r₀) s := by
  simp only [verifyBlock, wp_bind, wp_get, wp_now, wp_decodeTarget]
  refine ⟨fun _ => ?_, fun _ => ?_⟩
  · simp only [Bool.not_false, if_true, wp_bind, wp_seqRmTarget, wp_pure]
    exact EngineDone.clear h.inv.live hseq _
  simp only [Bool.not_true, Bool.false_eq_true, if_false, wp_bind, wp_now]
  have hd := decoded_decodeTarget h.inv.live hh h.inv.live.pendingPos hts (s.tick + 1 + 1 + 1 + 1)
  refine (wp_checkBlock hd hB h hn hts hle).imp ?_
  rintro chk s' ⟨rfl, hv⟩
  simp only [wp_get, wp_when, wp_seqRmTarget, wp_pure, decide_eq_true_eq, decide_eq_false_iff_not]
  refine ⟨fun _ => ?_, fun hge => ?_⟩
  · exact hd.done h.inv hseq hv hts hle (hd.cut h.inv.live.pendingPos _) (fun q xs hq hx => hx.seqRm_ne hq) _ _ _ _
  · -- the whole block is accepted
    refine hd.done h.inv hseq hv hts hle ?_ (fun q xs _ hx => hx) _ _ _ _
    rw [List.take_of_length_le (Nat.not_lt.1 hge)]
    exact hd.holds

theorem EngineDone.after {v : Option (Verdict L)} (h : EngineDone e prompt seq s₁ v s₂)
    (hr : Ran e prompt s s₁) (hm : ∀ q xs, q ≠ seq → s.tgt.mem.Holds q xs → s₁.tgt.mem.Holds q xs) :
    EngineDone e prompt seq s v s₂ :=
  ⟨hr.trans h.ran, fun q xs hq hx => h.mem q xs hq (hm q xs hq hx), hr.text ▸ h.sound⟩

structure Prepared (e : Env F L) (prompt : List Token) (c : Call F) (strict : Prop) (r₀ : Frame L) (seq : Nat)
    (s : State F L) (ok : Bool) (s' : State F L) : Prop where
  going : Going e prompt c strict r₀ s'
  ran : Ran e prompt s s'
  mem : ∀ q xs, q ≠ seq → s.tgt.mem.Holds q xs → s'.tgt.mem.Holds q xs
  holds : ok = true → s'.tgt.mem.Holds seq (prompt ++ s.text)

theorem wp_prepareEngine (h : Going e prompt c strict r₀ s) (hf : s.spec.ring.finishPending = false)
    (hseq : seq ≠ 0) (hp : s.spec.ring.pending ≠ [] → seq = s.spec.ring.seqId) :
    wp B (prepareEngine e seq) (Prepared e prompt c strict r₀ seq s) E s := by
  simp only [prepareEngine, wp_bind, wp_get, wp_ite, wp_pure, List.isEmpty_iff]
  refine ⟨fun hnil => (wp_ensureSeqSynced h.inv.live hseq).imp ?_, fun hne => ?_⟩
  · have htext : s.text = s.printed := by rw [State.text, Ring.tokens, hnil, List.map_nil, List.append_nil]
    rintro (_ | _) s' h'
    · have hran : Ran e prompt s s' := ⟨h'.1 ▸ h.inv.live, congrArg Core.printed h'.1, h'.2.1, h'.2.2⟩
      have hmem : s'.tgt.mem = s.tgt.mem := congrArg Core.mem h'.1
      exact ⟨hran.going h hnil hf, hran, fun q xs _ hx => hmem ▸ hx, (fun h => by cases h)⟩
    · have hran : Ran e prompt s s' := ⟨h'.live, congrArg Core.printed h'.core, h'.frame, h'.posDraft⟩
      exact ⟨hran.going h hnil hf, hran, h'.frameMem, fun _ => htext ▸ h'.holds⟩
  · refine ⟨h, ⟨h.inv.live, rfl, rfl, rfl⟩, fun q xs _ hx => hx, fun _ => ?_⟩
    have hh := (h.inv.pend hne).holds
    rw [List.append_assoc] at hh
    rw [hp hne]
    exact hh

theorem wp_runEngine (hB : Clean B e strict) (h : Going e prompt c strict r₀ s)
    (hf : s.spec.ring.finishPending = false) (hseq : seq ≠ 0)
    (hp : s.spec.ring.pending ≠ [] → seq = s.spec.ring.seqId) (hn : e.next prompt s.text = some tok0)
    {block : Option (List Token)} (hblock : ∀ ts, block = some ts → 0 < ts.length ∧ ts.length ≤ 64) :
    wp B (runEngine e seq tok0 block) (EngineDone e prompt seq s) (Exits e prompt c.batchTokens strict r₀) s := by
  unfold runEngine
  rw [wp_bind, wp_now]
  have h' : Going e prompt c strict r₀ { s with tick := s.tick + 1 } := h.quiet ⟨rfl, rfl, rfl⟩
  cases block with
  | none =>
    simp only [wp_bind, wp_seqRmTarget, wp_pure]
    exact EngineDone.clear h.inv.live hseq _
  | some ts =>
    obtain ⟨hts, hle⟩ := hblock ts rfl
    refine (wp_prepareEngine h' hf hseq hp).bind fun ok s₁ h₁ => ?_
    have hran : Ran e prompt s s₁ := ⟨h₁.ran.live, h₁.ran.printed, h₁.ran.frame, h₁.ran.posDraft⟩
    rw [wp_ite]
    refine ⟨fun _ => ?_, fun hok => ?_⟩
    · simp only [wp_bind, wp_seqRmTarget, wp_pure]
      exact (EngineDone.clear h₁.going.inv.live hseq _).after hran h₁.mem
    · refine (wp_verifyBlock hB h₁.going hseq ?_ (hran.text ▸ hn) hts hle _).imp fun v s₂ h₂ => ?_
      · rw [hran.text]
        exact h₁.holds (by simpa using hok)
      · exact h₂.after hran h₁.mem

end Engine

/-! ### All engines -/

theorem length_alternate (allow : Bool) (xs : List (Token × List L)) : (alternate e allow xs).length = xs.length := by
  induction xs with
  | nil => rfl
  | cons x xs ih =>
    obtain ⟨t, row⟩ := x
    unfold alternate
    dsimp only
    split_ifs
    · rw [List.length_cons, List.length_cons, ih]
    · split
      all_goals rw [List.length_cons, List.length_cons, ih]

theorem length_engineTokens {pos idx : Nat} {b : Block L} {ts : List Token}
    (hb : b.rows.length = b.tokens.length) (h : engineTokens e allow pos idx b = some ts) :
    ts.length = b.tokens.length := by
  unfold engineTokens at h
  split_ifs at h
  · rw [← Option.some.inj h]
  · split at h
    · cases h
    · rename_i us hus
      split_ifs at h
      · rw [← Option.some.inj h, length_alternate, List.length_zip, hb, Nat.min_self]
      · rw [← Option.some.inj h, ← (forall₂_of_mapM hus).length_eq, List.length_zipIdx, hb]

theorem engineCount_pending (accept : F) (expanded : Bool) : engineCount e c accept expanded true ≤ 1 := by
  simp only [engineCount, if_true]
  split_ifs
  · omega
  · exact Nat.le_refl _

theorem updateConf_ring (seq : Nat) (ratio : F) (spec : Spec F L) : (updateConf seq ratio spec).ring = spec.ring := by
  unfold updateConf
  split_ifs <;> rfl

variable {v : Verdict L}

theorem accepted_of_confident (hpos : 0 < v.proposed) (hle : v.proposed ≤ 64)
    (hge : FloatArith.ge (acceptRatio v) (FloatArith.hundredths 60 : F) = true) : v.tokens ≠ [] := by
  intro hnil
  have hno := FloatArith.ge_hundredths_zero (F := F) (n := v.proposed) (p := 60) hpos (by omega) (by decide) (by decide)
  rw [acceptRatio, Verdict.accepted, hnil, List.length_nil, hno] at hge
  exact Bool.noConfusion hge

structure Chosen (e : Env F L) (prompt text : List Token) (m : Memory) (v : Verdict L) : Prop
    extends Sound e prompt text m v where
  accepted : v.tokens ≠ []

theorem Sound.chosen {text : List Token} (h : Sound e prompt text m v)
    (hge : FloatArith.ge (acceptRatio v) (FloatArith.hundredths 60 : F) = true) : Chosen e prompt text m v :=
  ⟨h, accepted_of_confident h.proposed_pos h.proposed_le hge⟩

theorem selectBetter_cases (best : Option (Best F L)) (v : Verdict L) : selectBetter best v = best ∨
      (selectBetter best v = some ⟨v, score v⟩ ∧
        FloatArith.ge (acceptRatio v) (FloatArith.hundredths 60 : F) = true) := by
  unfold selectBetter
  dsimp only
  split_ifs with h
  · exact .inr ⟨rfl, (Bool.and_eq_true _ _ ▸ h).1⟩
  · exact .inl rfl

/-- The best verdict of the engines before engine `idx`. Pending tokens admit one engine only, in their own
sequence. -/
structure Leading (e : Env F L) (prompt : List Token) (s₀ : State F L) (idx : Nat) (s : State F L)
    (v : Verdict L) : Prop extends Chosen e prompt s₀.text s.tgt.mem v where
  before : s₀.spec.ring.pending = [] → v.seq ≤ idx
  pend : s₀.spec.ring.pending ≠ [] → v.seq = s₀.spec.ring.seqId

variable [OrderBot L]

theorem Leading.keep {idx seq : Nat} {s₁ : State F L} (h : Leading e prompt s₀ idx s v)
    (hm : ∀ q xs, q ≠ seq → s.tgt.mem.Holds q xs → s₁.tgt.mem.Holds q xs) (hne : v.seq ≠ seq) :
    Leading e prompt s₀ (idx + 1) s₁ v :=
  ⟨⟨⟨h.seq, hm _ _ hne h.holds, h.follows, h.correct, h.stop, h.rows_length, h.rows, h.proposed_pos, h.proposed_le⟩,
    h.accepted⟩, fun hp => Nat.le_succ_of_le (h.before hp), h.pend⟩

section Engines

variable {tok0 : Token} {b : Block L} (hB : Clean B e strict) (hg : Going e prompt c strict r₀ s₀)
  (hf : s₀.spec.ring.finishPending = false) (hn : e.next prompt s₀.text = some tok0)
  (hrows : b.rows.length = b.tokens.length) (hpos : 0 < b.tokens.length) (hle : b.tokens.length ≤ 64)
include hB hg hf hn hrows hpos hle

/-- The engines keep the best verdict; `s₀` is the state before the first of them. -/
theorem wp_engineLoop (allow : Bool) (n idx : Nat) (best : Option (Best F L)) (hran : Ran e prompt s₀ s)
    (hgo : n ≠ 0 → Going e prompt c strict r₀ s) (hone : s₀.spec.ring.pending ≠ [] → n ≤ 1)
    (hbest : ∀ x, best = some x → Leading e prompt s₀ idx s x.verdict ∧ (n ≠ 0 → s₀.spec.ring.pending = [])) :
    wp B (engineLoop e tok0 allow b n idx best)
      (fun best s' => Ran e prompt s₀ s' ∧ ∀ x, best = some x → ∃ idx, Leading e prompt s₀ idx s' x.verdict)
      (Exits e prompt c.batchTokens strict r₀) s := by
  induction n generalizing s idx best with
  | zero => exact (wp_pure _).2 ⟨hran, fun x hx => ⟨idx, (hbest x hx).1⟩⟩
  | succ n ih =>
    have hgo := hgo (Nat.succ_ne_zero n)
    have hring := hran.ring
    unfold engineLoop
    rw [wp_bind, wp_get]
    generalize hseq : (if s.spec.ring.pending.isEmpty then idx + 1 else s.spec.ring.seqId) = seq
    have hseq_nil : s₀.spec.ring.pending = [] → seq = idx + 1 := fun hp => by
      rw [← hseq, hring, hp, List.isEmpty_nil, if_pos rfl]
    have hseq_pend : s₀.spec.ring.pending ≠ [] → seq = s₀.spec.ring.seqId := fun hp => by
      rw [← hseq, hring, if_neg (by simpa using hp)]
    have hseq0 : seq ≠ 0 := by
      by_cases hp : s₀.spec.ring.pending = []
      · rw [hseq_nil hp]; exact Nat.succ_ne_zero idx
      · rw [hseq_pend hp]; exact hg.inv.seqId
    refine (wp_runEngine hB hgo (hring ▸ hf) hseq0 (fun hp => ?_) (hran.text ▸ hn) fun ts hts => ?_).bind
      fun v s₁ h₁ => ?_
    · rw [hring] at hp ⊢
      exact hseq_pend hp
    · have := length_engineTokens hrows hts
      omega
    have hran₁ := hran.trans h₁.ran
    -- pending tokens leave no engine to run
    have hlast : n ≠ 0 → s₀.spec.ring.pending = [] := fun hn0 => by
      by_contra hp
      have := hone hp
      omega
    have hkeep : ∀ x, best = some x → Leading e prompt s₀ (idx + 1) s₁ x.verdict := fun x hx => by
      obtain ⟨hlead, hp⟩ := hbest x hx
      have hp := hp (Nat.succ_ne_zero n)
      refine hlead.keep h₁.mem ?_
      rw [hseq_nil hp]
      exact Nat.ne_of_lt (Nat.lt_succ_of_le (hlead.before hp))
    cases v with
    | none =>
      refine ih (idx + 1) best hran₁ (fun hn0 => hran₁.going hg (hlast hn0) hf) (fun hp => ?_)
        fun x hx => ⟨hkeep x hx, hlast⟩
      exact Nat.le_of_succ_le (hone hp)
    | some v =>
      obtain ⟨hv, hsound⟩ := h₁.sound v rfl
      rw [wp_bind, wp_modify]
      have hran₂ : Ran e prompt s₀ { s₁ with spec := updateConf seq (acceptRatio v) s₁.spec } := by
        refine ⟨hran₁.live, hran₁.printed, ?_, hran₁.posDraft⟩
        rw [← hran₁.frame]
        simp [State.frame, updateConf_ring]
      refine ih (idx + 1) (selectBetter best v) hran₂ (fun hn0 => hran₂.going hg (hlast hn0) hf) (fun hp => ?_)
        fun x hx => ⟨?_, hlast⟩
      · exact Nat.le_of_succ_le (hone hp)
      · rcases selectBetter_cases best v with hsel | ⟨hsel, hge⟩
        · rw [hsel] at hx
          exact ⟨(hkeep x hx).toChosen, (hkeep x hx).before, (hkeep x hx).pend⟩
        · rw [hsel, Option.some.injEq] at hx
          subst hx
          rw [hran.text] at hsound
          exact ⟨hsound.chosen hge, fun hp => Nat.le_of_eq (hv.trans (hseq_nil hp)), fun hp => hv.trans (hseq_pend hp)⟩

end Engines

theorem clearEngines_induct {P : Memory → Prop} {keep : Option Nat} (n : Nat) (h : P m)
    (hstep : ∀ m q, q ≠ 0 → keep ≠ some q → P m → P (m.seqRm q (-1) (-1))) : P (clearEngines keep n m) := by
  unfold clearEngines
  generalize List.range n = idxs
  induction idxs generalizing m with
  | nil => exact h
  | cons i idxs ih =>
    rw [List.foldl_cons]
    apply ih
    split_ifs with hkeep
    · exact h
    · exact hstep m (i + 1) (Nat.succ_ne_zero i) hkeep h

theorem Live.clearEngines (h : Live e prompt k) (keep : Option Nat) (n : Nat) :
    Live e prompt (k.setMem (clearEngines keep n k.mem)) :=
  clearEngines_induct (P := fun m => Live e prompt (k.setMem m)) n h fun _ _ hq _ h => h.clear hq

theorem holds_clearEngines {q : Nat} {xs : List Token} (h : m.Holds q xs) (n : Nat) :
    (clearEngines (some q) n m).Holds q xs :=
  clearEngines_induct (P := fun m => m.Holds q xs) n h fun _ _ _ hkeep h => h.seqRm_ne fun hq => hkeep (hq ▸ rfl)

theorem wp_noConfidentEngine {α : Type} {Q : α → State F L → Prop} (hB : Clean B e strict)
    (hg : Going e prompt c strict r₀ s₀) (hf : s₀.spec.ring.finishPending = false) (hran : Ran e prompt s₀ s)
    (n : Nat) : wp B (noConfidentEngine e n) Q (Exits e prompt c.batchTokens strict r₀) s := by
  unfold noConfidentEngine
  rw [wp_bind, wp_get, wp_bind, wp_note]
  intro hnote
  have hp : s₀.spec.ring.pending = [] := by
    by_contra hne
    refine hnote ?_ hB.unconfident
    rw [hran.ring, Bool.not_eq_true', List.isEmpty_eq_false_iff]
    exact hne
  rw [wp_bind, wp_modify]
  refine (wp_rollbackDraft _).bind fun _ s₁ h₁ => ?_
  have hran' : Ran e prompt s₀ { s with tgt.mem := clearEngines none n s.tgt.mem } :=
    ⟨hran.live.clearEngines none n, hran.printed, hran.frame, hran.posDraft⟩
  have hgo := (hran'.going hg hp hf).quiet h₁
  have hring : s₁.spec.ring = s₀.spec.ring := h₁.ring.trans hran.ring
  exact wp_stepAndContinue hB hgo.inv hgo.lt (hring ▸ hp) (fun _ => hring ▸ hf) hgo.le true

theorem wp_verifyEngines (hB : Clean B e strict) (hg : Going e prompt c strict r₀ s)
    (hf : s.spec.ring.finishPending = false) {tok0 : Token} (hn : e.next prompt s.text = some tok0) {b : Block L}
    (hrows : b.rows.length = b.tokens.length) (hpos : 0 < b.tokens.length) (hle : b.tokens.length ≤ 64)
    (head : Head F) (expanded : Bool) : wp B (verifyEngines e c head expanded tok0 b) (fun r s' => Ran e prompt s s' ∧
        Chosen e prompt s.text s'.tgt.mem r.1 ∧ (s.spec.ring.pending ≠ [] → r.1.seq = s.spec.ring.seqId))
      (Exits e prompt c.batchTokens strict r₀) s := by
  unfold verifyEngines
  rw [wp_bind, wp_get]
  generalize hcount : engineCount e c head.accept expanded (!s.spec.ring.pending.isEmpty) = n
  dsimp only
  rw [wp_ite]
  refine ⟨fun _ => wp_abandonBlock hB hg hf, fun _ => ?_⟩
  refine (wp_engineLoop hB hg hf hn hrows hpos hle _ n 0 none ⟨hg.inv.live, rfl, rfl, rfl⟩ (fun _ => hg)
    (fun hp => ?_) (fun _ h => by cases h)).bind fun best s₁ hpost => ?_
  · rw [List.isEmpty_eq_false_iff.2 hp] at hcount
    exact hcount ▸ engineCount_pending _ _
  obtain ⟨h₁, hbest⟩ := hpost
  cases best with
  | none => exact wp_noConfidentEngine hB hg hf h₁ n
  | some x =>
    obtain ⟨idx, hlead⟩ := hbest x rfl
    exact (wp_pure _).2 ⟨h₁, hlead.toChosen, hlead.pend⟩

end Korith.Executor
