import Korith.Proofs.ExecutorVerify

/-!
# Verified tokens go into the ring

The verdict of the best engine is appended to the pending tokens, which are then aligned again: each new
entry has the target's row behind it. With this an iteration keeps the invariant, and makes progress.
-/

set_option linter.unusedSectionVars false

namespace Korith.Executor

open Exec

variable {F L : Type} [LinearOrder L] [OrderBot L] [FloatArith F] {B : Hazard → Prop} {e : Env F L} {c : Call F}
  {prompt : List Token} {batch : Nat} {strict : Prop} {s s₀ : State F L} {k : Core L} {r r₀ : Frame L}
  {E : Leave Unit → State F L → Prop} {v : Verdict L} {p : PendingToken L} {new : List (PendingToken L)}
  {s' : State F L}

/-! ### The new entries -/

theorem newPending_tokens (hl : v.rows.length = v.tokens.length) (step : Nat) (best : List L) :
    (newPending step best v).map (·.token) = v.out := by
  have hle : v.out.length ≤ (v.rows ++ [best]).length := by
    rw [Verdict.out, List.length_append, List.length_append, hl]
    simp
  refine List.ext_getElem (by simp [newPending, List.length_zipWith] at hle ⊢; omega) fun i h₁ h₂ => ?_
  simp [newPending]

theorem newPending_row {step : Nat} {best : List L} {i : Nat}
    (h : (newPending step best v)[i]? = some p) : (v.rows ++ [best])[i]? = some p.row ∧ i < v.out.length := by
  rw [newPending, List.getElem?_zipWith_eq_some] at h
  obtain ⟨t, row, ht, hrow, rfl⟩ := h
  exact ⟨hrow, (List.getElem?_eq_some_iff.1 ht).1⟩

theorem Aligned.append {ring : Ring L} {out : List Token}
    (hnew : new.map (·.token) = out) (hh : k.mem.Holds ring.seqId (prompt ++ (k.printed ++ ring.tokens) ++ out))
    (hf : Follows (e.next prompt) [] (k.printed ++ ring.tokens ++ out))
    (hold : ∀ i p, ring.pending[i]? = some p → p.row = e.target (prompt ++ k.printed ++ ring.tokens.take (i + 1)))
    (hrows : ∀ i p, new[i]? = some p → p.row = e.target (prompt ++ (k.printed ++ ring.tokens) ++ out.take (i + 1))) :
    Aligned e prompt k { ring with pending := ring.pending ++ new } := by
  have htok : ({ ring with pending := ring.pending ++ new } : Ring L).tokens = ring.tokens ++ out := by
    rw [Ring.tokens, List.map_append, hnew, Ring.tokens]
  have hlen : ring.tokens.length = ring.pending.length := by rw [Ring.tokens, List.length_map]
  refine ⟨?_, ?_, fun i p hp => ?_⟩
  · rw [htok, ← List.append_assoc, List.append_assoc prompt]
    exact hh
  · rw [htok, ← List.append_assoc]
    exact hf
  · rw [htok]
    by_cases hi : i < ring.pending.length
    · rw [List.getElem?_append_left hi] at hp
      rw [hold i p hp, List.take_append_of_le_length (by omega)]
    · rw [List.getElem?_append_right (by omega)] at hp
      rw [hrows _ p hp, List.append_assoc prompt, List.append_assoc k.printed, List.append_assoc prompt,
        show i + 1 = ring.tokens.length + (i - ring.pending.length + 1) by omega, List.take_length_add_append]

/-! ### Appending -/

/-- The ring belongs to the sequence of the chosen engine, and there is room for its verdict. -/
structure Taken (e : Env F L) (prompt : List Token) (batch : Nat) (v : Verdict L) (s : State F L) : Prop where
  base : Base e prompt batch s.core s.frame
  valid : s.spec.ring.valid = true
  finish : s.spec.ring.finishPending = false
  seqId : s.spec.ring.seqId = v.seq
  follows : Follows (e.next prompt) [] s.text
  rows : ∀ i p, s.spec.ring.pending[i]? = some p →
    p.row = e.target (prompt ++ s.printed ++ s.spec.ring.tokens.take (i + 1))
  chosen : Chosen e prompt s.text s.tgt.mem v
  room : s.spec.ring.pending.length + v.out.length ≤ 64

/-- The correction has been decoded, too, and its row is in `g_best_logits_buffer`. -/
structure Corrected (e : Env F L) (prompt : List Token) (v : Verdict L) (s s' : State F L) : Prop
    extends Ran e prompt s s' where
  out : s'.tgt.mem.Holds v.seq (prompt ++ s.text ++ v.out)
  out_follows : Follows (e.next prompt) s.text v.out
  best : v.correction.isSome = true → s'.best = e.target (prompt ++ s.text ++ v.out)

/-- A new value of `g_best_logits_buffer`: `logits_target` may point to it. -/
theorem Live.setBest (h : Live e prompt s.core) (row : List L) :
    Live e prompt { s with best := row, fresh := s.fresh && s.logitsTarget != LogitsPtr.best }.core := by
  refine ⟨h.seq0, h.pos, h.follows, ?_, fun hf => ?_, h.others, h.commits⟩
  · have hrow : s.row.isSome = true := h.hasRow
    show (State.row _).isSome = true
    unfold State.row at hrow ⊢
    cases hp : s.logitsTarget <;> simp_all
  · have hf' : (s.fresh && s.logitsTarget != .best) = true := hf
    rw [Bool.and_eq_true, bne_iff_ne] at hf'
    refine Eq.trans ?_ (h.fresh hf'.1)
    show State.row _ = State.row s
    unfold State.row
    cases hp : s.logitsTarget with
    | best => exact absurd hp hf'.2
    | null => rfl
    | ctx => rfl

theorem Decoded.corrected {s₁ : State F L} {t : Token} (hd : Decoded e prompt (s.text ++ v.tokens) v.seq [t] s s₁)
    (h : Live e prompt s.core) (hv : Chosen e prompt s.text s.tgt.mem v) (hf : Follows (e.next prompt) [] s.text)
    (hc : v.correction = some t) : Corrected e prompt v s { s₁ with
      best := s₁.tgt.out.head?.getD [], fresh := s₁.fresh && s₁.logitsTarget != LogitsPtr.best } := by
  have hout : v.out = v.tokens ++ [t] := by rw [Verdict.out, hc, Option.toList_some]
  have hfol : Follows (e.next prompt) s.text v.out := by
    rw [hout]
    exact hv.follows.snoc (hv.correct t hc)
  have hholds : s₁.tgt.mem.Holds v.seq (prompt ++ s.text ++ v.out) := by
    have := hd.holds
    rwa [← List.append_assoc, List.append_assoc _ v.tokens, ← hout] at this
  have hlive : Live e prompt s₁.core := by
    refine hd.live h hv.seq (m := s₁.tgt.mem) (follows_append.2 ⟨hf, hfol⟩) ?_ fun q xs _ hx => hx
    rw [← List.append_assoc]
    exact hholds
  refine ⟨⟨hlive.setBest _, hd.printed, hd.frame, hd.posDraft⟩, hholds, hfol, fun _ => ?_⟩
  have hrow := hd.out 0 (Nat.succ_pos 0)
  show s₁.tgt.out.head?.getD [] = _
  rw [List.head?_eq_getElem?, hrow, Option.getD_some, List.take_one, hout]
  simp

theorem wp_decodeCorrection (hB : Clean B e strict) (h : Taken e prompt batch v s) :
    wp B (decodeCorrection e v) (fun _ s' => Corrected e prompt v s s') (Exits e prompt batch strict r₀) s := by
  have hlive := h.base.live
  have hnone : v.correction = none → Corrected e prompt v s s := fun hc => by
    have hout : v.out = v.tokens := by rw [Verdict.out, hc, Option.toList_none, List.append_nil]
    exact ⟨⟨hlive, rfl, rfl, rfl⟩, hout ▸ h.chosen.holds, hout ▸ h.chosen.follows, by simp [hc]⟩
  unfold decodeCorrection
  rw [wp_bind, wp_get]
  cases hc : v.correction with
  | none => exact (wp_pure _).2 (hnone hc)
  | some t =>
    dsimp only
    simp only [wp_ite, wp_pure, wp_bind, wp_decodeTarget]
    refine ⟨fun hfin => hnone (h.chosen.stop hfin).2, fun _ => ⟨fun hfail => ⟨(fun h => by cases h), fun _ => ?_⟩,
      fun _ => ⟨fun _ => ?_, fun h => absurd trivial h⟩⟩⟩
    · refine wp_abortEngine h.base (fun hs => ?_) rfl rfl rfl
      simp [hB.target hs] at hfail
    · have hpos : s.pendingPos + v.accepted = (prompt ++ (s.text ++ v.tokens)).length := by
        rw [← List.append_assoc, List.length_append, ← hlive.pendingPos, Verdict.accepted]
      have hone : 0 < [t].length := Nat.succ_pos 0
      have hd := decoded_decodeTarget hlive (List.append_assoc _ _ _ ▸ h.chosen.holds) hpos hone (s.tick + 1)
      exact (wp_modify _).2 (hd.corrected hlive h.chosen h.follows hc)

theorem Corrected.newPending_row (hc : Corrected e prompt v s s')
    (hv : Chosen e prompt s.text s.tgt.mem v) {step i : Nat} (hp : (newPending step s'.best v)[i]? = some p) :
    p.row = e.target (prompt ++ s.text ++ v.out.take (i + 1)) := by
  obtain ⟨hrow, hi⟩ := Executor.newPending_row hp
  by_cases hlt : i < v.rows.length
  · rw [List.getElem?_append_left hlt] at hrow
    rw [hv.rows i _ hrow, Verdict.out, List.take_append_of_le_length (by rw [← hv.rows_length]; omega)]
  · -- the entry of the correction
    have hlen : v.out.length = v.tokens.length + v.correction.toList.length := List.length_append
    have hrl := hv.rows_length
    have hcorr : v.correction.isSome = true := by
      cases hcor : v.correction with
      | some t => rfl
      | none =>
        rw [hcor, Option.toList_none, List.length_nil] at hlen
        omega
    obtain ⟨t, ht⟩ := Option.isSome_iff_exists.1 hcorr
    rw [ht, Option.toList_some, List.length_singleton] at hlen
    obtain rfl : i = v.rows.length := by omega
    rw [List.getElem?_concat_length, Option.some.injEq] at hrow
    rw [← hrow, hc.best hcorr, List.take_of_length_le (by omega)]

theorem measure_append {b : Bool} (hpos : 0 < new.length) (hroom : r.ring.pending.length + new.length ≤ 64) :
    measure batch { r with ring := { r.ring with pending := r.ring.pending ++ new, finishPending := b } } <
      measure batch r := by
  simp only [measure, List.length_append]
  split_ifs <;> omega

theorem wp_appendPending (h : Taken e prompt batch v s) (hc : Corrected e prompt v s s') (n : Nat) :
    wp B (appendPending n v) (fun _ s'' => Inv e prompt batch strict s''.core s''.frame ∧
      measure batch s''.frame < measure batch s.frame ∧ s''.posDraft = s.posDraft) E s' := by
  have hring : s'.spec.ring = s.spec.ring := hc.ring
  have htok := newPending_tokens h.chosen.rows_length s'.spec.gate.stepId s'.best
  have hlen : (newPending s'.spec.gate.stepId s'.best v).length = v.out.length := by
    rw [← htok, List.length_map]
  have hpos : 0 < (newPending s'.spec.gate.stepId s'.best v).length := by
    rw [hlen, Verdict.out, List.length_append]
    have := List.length_pos_iff.2 h.chosen.accepted
    omega
  have hal : Aligned e prompt (s'.core.setMem (clearEngines (some v.seq) n s'.tgt.mem))
      { s.spec.ring with pending := s.spec.ring.pending ++ newPending s'.spec.gate.stepId s'.best v } := by
    have hprinted : (s'.core.setMem (clearEngines (some v.seq) n s'.tgt.mem)).printed = s.printed := hc.printed
    refine Aligned.append htok ?_ ?_ ?_ fun i p hp => ?_
    · rw [hprinted, h.seqId]
      exact holds_clearEngines hc.out n
    · rw [hprinted]
      exact follows_append.2 ⟨h.follows, hc.out_follows⟩
    · rw [hprinted]
      exact h.rows
    · rw [hprinted]
      exact hc.newPending_row h.chosen hp
  have hframe : ({ s'.frame with ring := { s'.spec.ring with
      pending := s'.spec.ring.pending ++ newPending s'.spec.gate.stepId s'.best v
      finishPending := s'.spec.ring.finishPending || v.finished } } : Frame L) =
      { s.frame with ring := { s.spec.ring with
        pending := s.spec.ring.pending ++ newPending s'.spec.gate.stepId s'.best v
        finishPending := v.finished } } := by
    rw [hc.frame, hring, h.finish, Bool.false_or]
  rw [appendPending, wp_modify]
  have hbase := h.base
  refine ⟨?_, ?_, hc.posDraft⟩
  · show Inv e prompt batch strict (s'.core.setMem (clearEngines (some v.seq) n s'.tgt.mem)) _
    rw [show State.frame _ = _ from hframe]
    refine ⟨⟨hc.live.clearEngines (some v.seq) n, hbase.unfinished, hbase.counted, hbase.budget, hbase.seqId,
      fun _ => h.valid, ?_⟩, fun _ => ⟨hal.holds, hal.follows, hal.rows⟩, fun _ hf => .inl ?_⟩
    · show (s.spec.ring.pending ++ newPending s'.spec.gate.stepId s'.best v).length ≤ 64
      rw [List.length_append, hlen]
      exact h.room
    · obtain ⟨hstop, hnone⟩ := h.chosen.stop hf
      show e.next prompt (s'.printed ++
        (s.spec.ring.pending ++ newPending s'.spec.gate.stepId s'.best v).map (·.token)) = none
      rw [List.map_append, htok, hc.printed, ← List.append_assoc, Verdict.out, hnone, Option.toList_none,
        List.append_nil]
      exact hstop
  · rw [show State.frame _ = _ from hframe]
    exact measure_append hpos (hlen ▸ h.room)

/-! ### Taking the verdict -/

theorem wp_dropBlock {Q : Unit → State F L → Prop} (hB : Clean B e strict) (h : Base e prompt batch s.core s.frame)
    (hlt : s.generated < batch) (hle : r₀.generated ≤ s.generated) :
    wp B (dropBlock e) Q (Exits e prompt batch strict r₀) s := by
  unfold dropBlock
  rw [wp_bind, wp_get]
  refine (wp_resetSpecState h false).bind fun _ s₁ h₁ => ?_
  refine (wp_rollbackDraft _).bind fun _ s₂ h₂ => ?_
  exact (h₁.quiet h₂).step hB hlt hle true

structure Progress (e : Env F L) (prompt : List Token) (batch : Nat) (strict : Prop) (r₀ : Frame L)
    (s : State F L) : Prop where
  inv : Inv e prompt batch strict s.core s.frame
  lt : measure batch s.frame < measure batch r₀

theorem wp_takeVerdict (hB : Clean B e strict) (hg : Going e prompt c strict r₀ s₀)
    (hf : s₀.spec.ring.finishPending = false) (hran : Ran e prompt s₀ s)
    (hv : Chosen e prompt s₀.text s.tgt.mem v) (hseq : s₀.spec.ring.pending ≠ [] → v.seq = s₀.spec.ring.seqId)
    (n : Nat) : wp B (takeVerdict e n v)
      (fun _ s' => Progress e prompt c.batchTokens strict r₀ s' ∧ s'.posDraft = s₀.posDraft)
      (Exits e prompt c.batchTokens strict r₀) s := by
  have hring := hran.ring
  have hbase : Base e prompt c.batchTokens s.core s.frame := by
    rw [hran.frame]
    exact hg.inv.toBase.of_live hran.live
  have hgen : s.generated = s₀.generated := congrArg Frame.generated hran.frame
  unfold takeVerdict
  rw [wp_bind, wp_get, wp_ite]
  refine ⟨fun _ => wp_dropBlock hB hbase (hgen ▸ hg.lt) (hgen ▸ hg.le), fun _ => ?_⟩
  rw [wp_bind, wp_modify]
  generalize hs₁ : ({ s with
    spec.ring.seqId := if s.spec.ring.pending.isEmpty then v.seq else s.spec.ring.seqId
    spec.ring.valid := true } : State F L) = s₁
  have hid : (if s.spec.ring.pending.isEmpty then v.seq else s.spec.ring.seqId) = v.seq := by
    split_ifs with hp
    · rfl
    · rw [hring] at hp ⊢
      exact (hseq (by simpa using hp)).symm
  rw [hid] at hs₁
  have hbase₁ : Base e prompt c.batchTokens s₁.core s₁.frame := by
    subst hs₁
    exact ⟨hbase.live, hbase.unfinished, hbase.counted, hbase.budget, hv.seq, fun _ => rfl, hbase.cap⟩
  have hm : measure c.batchTokens s₁.frame = measure c.batchTokens s₀.frame := by
    subst hs₁
    rw [← hran.frame]
    rfl
  rw [wp_ite]
  refine ⟨fun _ => wp_dropBlock hB hbase₁ ?_ ?_, fun hroom => ?_⟩
  · subst hs₁; exact hgen ▸ hg.lt
  · subst hs₁; exact hgen ▸ hg.le
  have htaken : Taken e prompt c.batchTokens v s₁ := by
    have htext : s₁.text = s₀.text := by subst hs₁; exact hran.text
    refine ⟨hbase₁, by subst hs₁; rfl, ?_, by subst hs₁; rfl, htext ▸ hg.inv.text_follows, ?_, ?_, ?_⟩
    · subst hs₁; exact (congrArg Ring.finishPending hring).trans hf
    · subst hs₁
      intro i p hp
      have hp₀ : s₀.spec.ring.pending[i]? = some p := hring ▸ hp
      have hne : s₀.spec.ring.pending ≠ [] := fun hnil => by simp [hnil] at hp₀
      have hrow := (hg.inv.pend hne).rows i p hp₀
      rw [← show s.printed = s₀.core.printed from hran.printed, ← show s.spec.ring = s₀.frame.ring from hring] at hrow
      exact hrow
    · rw [htext]; subst hs₁; exact hv
    · subst hs₁; exact Nat.not_lt.1 hroom
  refine (wp_decodeCorrection hB htaken).bind fun _ s₂ h₂ => ?_
  refine (wp_appendPending htaken h₂ n).imp fun _ s₃ hpost => ⟨⟨hpost.1, ?_⟩, ?_⟩
  · exact Nat.lt_of_lt_of_le (hm ▸ hpost.2.1) hg.measure
  · rw [hpost.2.2]; subst hs₁; exact hran.posDraft

/-! ### The end of the iteration -/

theorem stepAdaptive_ring (e : Env F L) (c : Call F) (effective : F) (v : Verdict L) (spec : Spec F L) :
    (stepAdaptive e c effective v spec).ring = spec.ring := by
  unfold stepAdaptive
  dsimp only
  split_ifs <;> rfl

theorem stepProfit_ring (e : Env F L) (effective : F) (spec : Spec F L) :
    (stepProfit e effective spec).ring = spec.ring := by
  unfold stepProfit stepProbe
  dsimp only
  split_ifs <;> rfl

theorem account_ring (e : Env F L) (c : Call F) (draftNs : Nat) (v : Verdict L) (spec : Spec F L) :
    (account e c draftNs v spec).ring = spec.ring := by
  unfold account
  rw [stepProfit_ring, stepAdaptive_ring]

theorem Progress.congr (h : Progress e prompt batch strict r₀ s) (hk : s'.core = s.core)
    (hr : s'.frame = s.frame) : Progress e prompt batch strict r₀ s' := by
  refine ⟨?_, ?_⟩
  · rw [hk, hr]; exact h.inv
  · rw [hr]; exact h.lt

theorem Progress.abort (h : Progress e prompt batch strict r₀ s) (hs : ¬ strict) {α : Type}
    {Q : α → State F L → Prop} : wp B abort Q (Exits e prompt batch strict r₀) s :=
  wp_abort.2 ⟨h.inv.toBase.rest_finished fun h => absurd h hs, rfl, hs⟩

/-- The draft model stands behind its block, unless an earlier round has left it elsewhere. -/
theorem wp_syncDraftToBlock (hB : Clean B e strict) (h : Progress e prompt batch strict r₀ s) {pos : Nat}
    {draft : List Token} (hpos : strict → e.hasDraft = true → s.posDraft = pos + draft.length) (out : List Token) :
    wp B (syncDraftToBlock e pos draft out) (fun _ s' => Progress e prompt batch strict r₀ s')
      (Exits e prompt batch strict r₀) s := by
  simp only [syncDraftToBlock, wp_bind, wp_get, wp_ite, wp_pure, wp_modify]
  refine ⟨fun _ => h, fun hd => ⟨fun hne => h.abort fun hs => ?_, fun _ => ⟨fun _ => ?_, fun _ => ?_⟩⟩⟩
  · exact hne (hpos hs (by simpa using hd))
  · exact h.congr rfl rfl
  · refine (wp_decodeEachDraft out).imp fun ok s' hpost => ?_
    obtain ⟨hq, _, hfail⟩ := hpost
    have h' : Progress e prompt batch strict r₀ s' := h.congr hq.core hq.frame
    rw [wp_when]
    refine ⟨fun hok => h'.abort fun hs => ?_, fun _ => h'⟩
    obtain ⟨n, hn⟩ := hfail (by simpa using hok)
    simp [hB.draft hs n] at hn

theorem wp_speculate (hB : Clean B e strict) (h : Headed e prompt c strict r₀ s) {head : Head F}
    (hallow : ∃ n, head.allowEogBase = e.allowEog n) :
    wp B (speculate e c head) (fun _ s' => Progress e prompt c.batchTokens strict r₀ s')
      (Exits e prompt c.batchTokens strict r₀) s := by
  unfold speculate
  dsimp only
  refine (wp_blockSize hB h _).bind fun k s₁ hpost => ?_
  obtain ⟨hs₁, hk⟩ := hpost
  subst hs₁
  refine (wp_baseToken hB h hallow).bind fun tok0 s₂ hpost => ?_
  obtain ⟨hs₂, hbased⟩ := hpost
  subst hs₂
  have hcap : capBlock e c k ≤ 64 := by
    unfold capBlock
    split_ifs
    · exact Nat.le_trans (Nat.min_le_left _ _) hk
    · exact Nat.le_trans (Nat.min_le_left _ _) hk
  refine (wp_draftBlock hB h hcap).bind fun b s₃ h₃ => ?_
  have hg := h.toGoing.quiet h₃.quiet
  have hf : s₃.spec.ring.finishPending = false := h₃.quiet.ring ▸ h.finish
  have htext : s₃.text = s₂.text := by
    rw [State.text, State.text, h₃.quiet.ring, show s₃.printed = s₂.printed from congrArg Core.printed h₃.quiet.core]
  refine (wp_verifyEngines hB hg hf (htext ▸ hbased.next) h₃.rows h₃.pos h₃.le head _).bind
    fun v s₄ hpost => ?_
  obtain ⟨hran, hv, hseq⟩ := hpost
  rw [wp_bind, wp_get]
  refine (wp_takeVerdict hB hg hf hran hv hseq v.2).bind fun _ s₅ hpost => ?_
  obtain ⟨h₅, hpos⟩ := hpost
  rw [wp_bind, wp_modify]
  have h₆ : Progress e prompt c.batchTokens strict r₀ { s₅ with spec := account e c b.elapsedNs v.1 s₅.spec } :=
    h₅.congr rfl (by simp only [State.frame, account_ring])
  refine wp_syncDraftToBlock hB h₆ (fun _ hd => ?_) v.1.out
  · have hpp : s₄.pendingPos = s₂.pendingPos := by
      rw [hran.live.pendingPos, hran.text, htext, h.inv.live.pendingPos]
    show s₅.posDraft = s₄.pendingPos + b.tokens.length
    rw [hpos, h₃.posDraft, h.draft hd, hpp]

theorem wp_iteration (hB : Clean B e strict) (h : AtHead e prompt c strict s.core s.frame)
    (hlt : s.generated < c.batchTokens) :
    wp B (iteration e c) (fun _ s' => Progress e prompt c.batchTokens strict s.frame s')
      (Exits e prompt c.batchTokens strict s.frame) s :=
  (wp_loopHead hB h hlt).bind fun _ _ hpost => wp_speculate hB hpost.1 hpost.2

end Korith.Executor
