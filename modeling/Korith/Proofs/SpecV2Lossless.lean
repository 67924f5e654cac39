import Korith.SpecV2

/-!
# The v2 decoder is lossless

What was emitted is an output of target-only greedy decoding from the prompt, and as long as the request is not
finished the target's sequence 0 holds the prompt and the emitted tokens and `logits_target` reads the target's row
for them (`Live`). Between two iterations the emitted tokens run ahead of the target's cells by the tokens of the
block; `Mid` says by how much. Nothing is known of the draft: whatever it proposes is compared with the target's own
token.
-/

namespace Korith.SpecV2

open Exec

set_option linter.unusedSectionVars false

variable {L : Type} [LinearOrder L] {e : Env L} {prompt : List Token} {maxTokens : Nat} {s : State L}
  {new old : List Token} {s' s'' : State L} {n : Nat}

/-- The token that target-only greedy decoding emits after `out`: the lowest argmax of the target's row,
unless it ends the generation. -/
def next (e : Env L) (prompt out : List Token) : Option Token :=
  (lowestArgmax (fun _ => true) (e.target (prompt ++ out))).filter fun t => !e.isEog t

def greedyDecode (e : Env L) (prompt : List Token) (n : Nat) : List Token :=
  generate (next e prompt) n []

/-- The target's cells, its position and the row to sample are those of the tokens `xs`. -/
structure Live (e : Env L) (xs : List Token) (mem : Memory) (pos : Nat) (row : Option (List L)) : Prop where
  holds : mem.Holds 0 xs
  pos_eq : pos = xs.length
  row_eq : row = some (e.target xs)

structure Output (e : Env L) (prompt : List Token) (maxTokens : Nat) (s : State L) : Prop where
  follows : Follows (next e prompt) [] s.emitted
  budget : 0 < maxTokens → s.printedTotal ≤ maxTokens
  heads : ∀ h ∈ s.heads, Live e (prompt ++ h.emitted) h.mem h.posTarget h.row

structure Inv (e : Env L) (prompt : List Token) (maxTokens : Nat) (s : State L) : Prop extends
    Output e prompt maxTokens s where
  live : s.finished = false → Live e (prompt ++ s.emitted) s.ctxTarget.mem s.posTarget s.targetRow

/-- Inside an iteration that goes on: the target's cells are those of `old`, after which `new` was emitted. -/
structure Mid (e : Env L) (prompt : List Token) (maxTokens : Nat) (old new : List Token) (s : State L) :
    Prop extends Output e prompt maxTokens s where
  emitted_eq : s.emitted = old ++ new
  unfinished : s.finished = false
  room : 0 < maxTokens → s.printedTotal < maxTokens

theorem Mid.congr (h : Mid e prompt maxTokens old new s)
    (he : s'.emitted = s.emitted) (hp : s'.printedTotal = s.printedTotal) (hf : s'.finished = s.finished)
    (hh : s'.heads = s.heads) : Mid e prompt maxTokens old new s' where
  follows := he ▸ h.follows
  budget := hp ▸ h.budget
  heads := hh ▸ h.heads
  emitted_eq := he ▸ h.emitted_eq
  unfinished := hf ▸ h.unfinished
  room := hp ▸ h.room

/-- A state that differs from `s` in draft fields and in the tick only. -/
structure SameTarget (s s' : State L) : Prop where
  ctxTarget : s'.ctxTarget = s.ctxTarget
  posTarget : s'.posTarget = s.posTarget
  logitsTarget : s'.logitsTarget = s.logitsTarget
  finished : s'.finished = s.finished
  printedTotal : s'.printedTotal = s.printedTotal
  tokensPrinted : s'.tokensPrinted = s.tokensPrinted
  emitted : s'.emitted = s.emitted
  heads : s'.heads = s.heads

theorem SameTarget.trans (h : SameTarget s s') (h' : SameTarget s' s'') : SameTarget s s'' :=
  ⟨h'.1.trans h.1, h'.2.trans h.2, h'.3.trans h.3, h'.4.trans h.4, h'.5.trans h.5, h'.6.trans h.6,
    h'.7.trans h.7, h'.8.trans h.8⟩

theorem SameTarget.mid (h : SameTarget s s')
    (hs : Mid e prompt maxTokens old new s) : Mid e prompt maxTokens old new s' :=
  hs.congr h.emitted h.printedTotal h.finished h.heads

def Post (e : Env L) (prompt : List Token) (maxTokens n : Nat) (s : State L) : Prop :=
  Inv e prompt maxTokens s ∧ (s.finished = true ∨ n < s.tokensPrinted)

theorem Output.post (h : Output e prompt maxTokens s) (hf : s.finished = true) : Post e prompt maxTokens n s :=
  ⟨⟨h, fun hf' => absurd hf (by simp [hf'])⟩, .inl hf⟩

def Left (e : Env L) (prompt : List Token) (maxTokens n : Nat) (x : Exit) (s : State L) : Prop :=
  Post e prompt maxTokens n s ∧ (x = .brk → s.finished = true)

theorem Output.left {x : Exit} (h : Output e prompt maxTokens s) (hf : s.finished = true) :
    Left e prompt maxTokens n x s :=
  ⟨h.post hf, fun _ => hf⟩

theorem Post.left (h : Post e prompt maxTokens n s) : Left e prompt maxTokens n .cont s :=
  ⟨h, fun h => by cases h⟩

theorem Mid.post (h : Mid e prompt maxTokens old new s)
    (hlive : Live e (prompt ++ (old ++ new)) s.ctxTarget.mem s.posTarget s.targetRow)
    (hn : n < s.tokensPrinted) : Post e prompt maxTokens n s :=
  ⟨⟨h.toOutput, fun _ => h.emitted_eq ▸ hlive⟩, .inr hn⟩

theorem SameTarget.targetRow (h : SameTarget s s') : s'.targetRow = s.targetRow := by
  simp [State.targetRow, h.ctxTarget, h.logitsTarget]

theorem Post.sameTarget (hs : Post e prompt maxTokens n s) (h : SameTarget s s') : Post e prompt maxTokens n s' := by
  refine ⟨⟨⟨h.emitted ▸ hs.1.follows, h.printedTotal ▸ hs.1.budget, h.heads ▸ hs.1.heads⟩, ?_⟩, ?_⟩
  · rw [h.finished, h.emitted, h.ctxTarget, h.posTarget, h.targetRow]
    exact hs.1.live
  · rw [h.finished, h.tokensPrinted]
    exact hs.2

/-! ### Fallible calls -/

section Calls

variable {B : Empty → Prop} {E : Exit → State L → Prop} {t : Token} {Q : Bool → State L → Prop} {pos : Nat}

@[simp] theorem wp_stop {α : Type} {Q : α → State L → Prop} :
    wp B stop Q E s ↔ E .brk { s with finished := true } := by
  simp [stop]

@[simp] theorem wp_stopIfFinished {Q : Unit → State L → Prop} :
    wp B stopIfFinished Q E s ↔ if s.finished then E .brk s else Q () s := by
  cases h : s.finished <;> simp [stopIfFinished, h]

theorem wp_emitToken : wp B (emitToken e t) Q E s ↔
      if e.emitFails s.tick then Q false { s with tick := s.tick + 1 }
      else Q true { s with tick := s.tick + 1, emitted := s.emitted ++ [t] } := by
  cases h : e.emitFails s.tick <;> simp [emitToken, nextTick, h]

theorem wp_decodeTarget {ts : List Token} : wp B (decodeTarget e pos ts) Q E s ↔
      if e.targetDecodeFails s.tick then Q false { s with tick := s.tick + 1 }
      else Q true { s with
        tick := s.tick + 1, ctxTarget := s.ctxTarget.decode e.target 0 pos ts true } := by
  cases h : e.targetDecodeFails s.tick <;> simp [decodeTarget, nextTick, h]

theorem wp_decodeDraft (h : ∀ b s', SameTarget s s' → Q b s') : wp B (decodeDraft e pos t) Q E s := by
  cases hf : e.draftDecodeFails s.tick <;> simp only [decodeDraft, nextTick, wp_bind, wp_get, wp_modify, wp_pure, hf]
  · simp only [Bool.false_eq_true, if_false, wp_bind, wp_modify, wp_pure]
    exact h _ _ ⟨rfl, rfl, rfl, rfl, rfl, rfl, rfl, rfl⟩
  · simp only [if_true, wp_pure]
    exact h _ _ ⟨rfl, rfl, rfl, rfl, rfl, rfl, rfl, rfl⟩

theorem wp_getLogitsDraft {Q : Unit → State L → Prop}
    (h : ∀ s', SameTarget s s' → Q () s') : wp B (getLogitsDraft e) Q E s := by
  simp only [getLogitsDraft, nextTick, wp_bind, wp_get, wp_modify, wp_pure]
  exact h _ ⟨rfl, rfl, rfl, rfl, rfl, rfl, rfl, rfl⟩

end Calls

variable {B : Empty → Prop} {ds : List Token} {t0 : Token} {pos0 : Nat} {correction : Option Token}

/-! ### Printing -/

structure SameCtx (s s' : State L) : Prop where
  ctxTarget : s'.ctxTarget = s.ctxTarget
  posTarget : s'.posTarget = s.posTarget
  tokensPrinted : s.tokensPrinted ≤ s'.tokensPrinted

theorem printToken_spec (h : Mid e prompt maxTokens old new s) (ht : next e prompt (old ++ new) = some t) :
    wp B (printToken e maxTokens t)
      (fun _ s' => Output e prompt maxTokens s' ∧ SameCtx s s' ∧ s.tokensPrinted < s'.tokensPrinted ∧
        (s'.finished = false → Mid e prompt maxTokens old (new ++ [t]) s'))
      (Left e prompt maxTokens n) s := by
  simp only [printToken, wp_bind, wp_emitToken]
  split
  · simp only [Bool.false_eq_true, if_false, wp_stop]
    exact Output.left ⟨h.follows, h.budget, h.heads⟩ rfl
  · simp only [if_true, wp_modify]
    have hroom := h.room
    have hout : Output e prompt maxTokens { s with
        tick := s.tick + 1, emitted := s.emitted ++ [t], tokensPrinted := s.tokensPrinted + 1
        printedTotal := s.printedTotal + 1
        finished := s.finished || (decide (0 < maxTokens) && decide (maxTokens ≤ s.printedTotal + 1)) } :=
      ⟨h.follows.snoc (by simpa [h.emitted_eq] using ht), fun hpos => hroom hpos, h.heads⟩
    refine ⟨hout, ⟨rfl, rfl, Nat.le_succ _⟩, Nat.lt_succ_self _, fun hf => ⟨hout, ?_, hf, fun hpos => ?_⟩⟩
    · simp [h.emitted_eq]
    · have : ¬ maxTokens ≤ s.printedTotal + 1 := by
        intro hle; simp [hpos, hle] at hf
      exact Nat.lt_of_not_le this

theorem SameCtx.trans (h : SameCtx s s') (h' : SameCtx s' s'') : SameCtx s s'' :=
  ⟨h'.1.trans h.1, h'.2.trans h.2, h.3.trans h'.3⟩

theorem printAccepted_spec
    (h : Output e prompt maxTokens s) (hmid : s.finished = false → Mid e prompt maxTokens old new s)
    (hds : Follows (next e prompt) (old ++ new) ds) : wp B (printAccepted e maxTokens ds)
      (fun _ s' => Output e prompt maxTokens s' ∧ SameCtx s s' ∧
        (s'.finished = false → Mid e prompt maxTokens old (new ++ ds) s'))
      (Left e prompt maxTokens n) s := by
  induction ds generalizing s new with
  | nil => simpa [printAccepted] using ⟨h, ⟨rfl, rfl, Nat.le_refl _⟩, hmid⟩
  | cons d ds ih =>
    simp only [printAccepted, wp_bind, wp_get]
    cases hf : s.finished with
    | true => simpa using ⟨h, ⟨rfl, rfl, Nat.le_refl _⟩, fun hf' => absurd hf (by simp [hf'])⟩
    | false =>
      simp only [Bool.false_eq_true, if_false, wp_bind]
      refine (printToken_spec (hmid hf) hds.1).mono (fun _ s₁ hpost => ?_) fun _ _ h => h
      obtain ⟨hout, hctx, _, hmid₁⟩ := hpost
      refine (ih hout hmid₁ (by simpa using hds.2)).mono (fun _ s₂ hpost => ?_) fun _ _ h => h
      obtain ⟨h₂, hctx₂, hmid₂⟩ := hpost
      exact ⟨h₂, hctx.trans hctx₂, by simpa using hmid₂⟩

/-! ### The draft -/

theorem propose_spec {E : Exit → State L → Prop} (k : Nat) :
    wp B (propose e k) (fun ds s' => SameTarget s s' ∧ ∀ d ∈ ds, e.isEog d = false) E s := by
  induction k generalizing s with
  | zero => simpa [propose] using ⟨rfl, rfl, rfl, rfl, rfl, rfl, rfl, rfl⟩
  | succ k ih =>
    simp only [propose, wp_bind, wp_get]
    have hrefl : SameTarget s s := ⟨rfl, rfl, rfl, rfl, rfl, rfl, rfl, rfl⟩
    split
    · simpa using hrefl
    · rename_i d _
      cases hd : e.isEog d with
      | true => simpa using hrefl
      | false =>
        simp only [Bool.false_eq_true, if_false, wp_bind]
        refine wp_decodeDraft fun b s₁ h₁ => ?_
        cases b with
        | false => simpa [hd] using h₁
        | true =>
          simp only [if_true, wp_bind, wp_modify]
          refine wp_getLogitsDraft fun s₂ h₂ => ?_
          have h₂' : SameTarget s s₂ := h₁.trans ⟨h₂.1, h₂.2, h₂.3, h₂.4, h₂.5, h₂.6, h₂.7, h₂.8⟩
          simp only [wp_get]
          split
          · simpa [hd] using h₂'
          · simp only [wp_bind, wp_pure]
            exact ih.mono (fun ds s₃ hpost => ⟨h₂'.trans hpost.1, by simpa [hd] using hpost.2⟩) fun _ _ h => h

/-- Comparing the proposal with the batch's rows accepts a target-greedy continuation, and gives at the
first mismatch the target's own token. -/
theorem compareDraft_spec (old ds : List Token) (rows : List (List L))
    (hrows : ∀ i < ds.length, rows[i]? = some (e.target (prompt ++ (old ++ ds.take i))))
    (hds : ∀ d ∈ ds, e.isEog d = false) : (compareDraft rows ds).1 ≤ ds.length ∧
    Follows (next e prompt) old (ds.take (compareDraft rows ds).1) ∧
    ((compareDraft rows ds).1 ≠ ds.length → (compareDraft rows ds).2 =
      lowestArgmax (fun _ => true) (e.target (prompt ++ (old ++ ds.take (compareDraft rows ds).1)))) := by
  induction ds generalizing rows old with
  | nil => simp [compareDraft]
  | cons d ds ih =>
    have h0 := hrows 0 (by simp)
    match rows, h0 with
    | row :: rows, h0 =>
      obtain rfl : row = e.target (prompt ++ old) := by simpa using h0
      simp only [compareDraft, greedySample_eq]
      split_ifs with heq
      · obtain ⟨hle, hf, hc⟩ := ih (old ++ [d]) rows
          (fun i hi => by simpa using hrows (i + 1) (by simpa using hi)) fun x hx => hds x (.tail _ hx)
        refine ⟨by simpa using hle, ?_, fun hne => ?_⟩
        · refine ⟨?_, hf⟩
          simp [next, heq, Option.filter, hds d (.head _)]
        · simpa using hc (by simpa using hne)
      · simp

/-! ### The blocks of an iteration -/

theorem Mid.decodeOne {c : Token} {tick : Nat} (h : Mid e prompt maxTokens old (new ++ [c]) s)
    (hh : s.ctxTarget.mem.Holds 0 (prompt ++ (old ++ new)))
    (hpos : pos = (prompt ++ (old ++ new)).length) (hn : n < s.tokensPrinted) : Post e prompt maxTokens n { s with
      tick := tick
      ctxTarget := s.ctxTarget.decode e.target 0 pos [c] true
      posTarget := pos + 1
      logitsTarget := getLogits (s.ctxTarget.decode e.target 0 pos [c] true) } := by
  subst hpos
  refine Mid.post (h.congr rfl rfl rfl rfl) ⟨?_, ?_, ?_⟩ hn
  · simpa using Ctx.decode_holds hh
  · simp; omega
  · simp only [State.targetRow, getLogits, Ctx.decode_one_out hh]
    simp

theorem stepTarget_spec (h : Mid e prompt maxTokens old [t0] s) (hh : s.ctxTarget.mem.Holds 0 (prompt ++ old))
    (hpos : pos = (prompt ++ old).length) (hn : n < s.tokensPrinted) :
    wp B (stepTarget e pos t0) (fun _ s' => Post e prompt maxTokens n s')
      (Left e prompt maxTokens n) s := by
  simp only [stepTarget, wp_bind, wp_decodeTarget]
  split
  · simp only [Bool.false_eq_true, if_false, wp_stop]
    exact Output.left ⟨h.follows, h.budget, h.heads⟩ rfl
  · simp only [if_true, wp_modify]
    rw [← List.append_nil old] at hh hpos
    exact Mid.decodeOne h hh hpos hn

theorem feedDraft_spec (h : Mid e prompt maxTokens old [t0] s) (hh : s.ctxTarget.mem.Holds 0 (prompt ++ old))
    (hpos : s.posTarget = (prompt ++ old).length) (hn : n < s.tokensPrinted) :
    wp B (feedDraft e t0) (fun _ s' => SameTarget s s')
      (Left e prompt maxTokens n) s := by
  have hstep : ∀ s', SameTarget s s' → wp B (stepTarget e s'.posTarget t0)
      (fun _ s' => Post e prompt maxTokens n s') (Left e prompt maxTokens n) s' :=
    fun s' hs => stepTarget_spec (hs.mid h) (hs.ctxTarget ▸ hh) (hs.posTarget ▸ hpos)
      (hs.tokensPrinted ▸ hn)
  simp only [feedDraft, wp_bind, wp_get]
  refine wp_decodeDraft fun b s₁ h₁ => ?_
  cases b with
  | true =>
    simp only [if_true, wp_bind, wp_modify]
    refine wp_getLogitsDraft fun s₂ h₂ => ?_
    have h₂' : SameTarget s s₂ := h₁.trans ⟨h₂.1, h₂.2, h₂.3, h₂.4, h₂.5, h₂.6, h₂.7, h₂.8⟩
    simp only [wp_get]
    split
    · simp only [wp_bind, wp_exit]
      exact (hstep s₂ h₂').mono (fun _ _ h => h.left) fun _ _ h => h
    · simpa using h₂'
  | false =>
    simp only [Bool.false_eq_true, if_false, wp_bind, wp_modify, wp_exit]
    rw [← h₁.posTarget]
    exact (hstep s₁ h₁).mono
      (fun _ s' hs => Post.left (hs.sameTarget ⟨rfl, rfl, rfl, rfl, rfl, rfl, rfl, rfl⟩)) fun _ _ h => h

theorem decodeCorrection_spec {c : Token} (h : Mid e prompt maxTokens old (new ++ [c]) s)
    (hh : s.ctxTarget.mem.Holds 0 (prompt ++ (old ++ new)))
    (hpos : pos = (prompt ++ (old ++ new)).length) (hn : n < s.tokensPrinted) :
    wp B (decodeCorrection e pos c) (fun _ s' => Post e prompt maxTokens n s')
      (Left e prompt maxTokens n) s := by
  simp only [decodeCorrection, wp_bind, wp_decodeTarget]
  split
  · simp only [Bool.false_eq_true, if_false, wp_stop]
    exact Output.left ⟨h.follows, h.budget, h.heads⟩ rfl
  · simp only [if_true, wp_bind, wp_modify]
    refine wp_decodeDraft fun b s₁ h₁ => ?_
    have hpost := (Mid.decodeOne h hh hpos hn).sameTarget h₁
    cases b with
    | true =>
      simp only [if_true, wp_bind]
      refine wp_getLogitsDraft fun s₂ h₂ => ?_
      simp only [wp_modify]
      exact (hpost.sameTarget h₂).sameTarget ⟨rfl, rfl, rfl, rfl, rfl, rfl, rfl, rfl⟩
    | false =>
      simp only [Bool.false_eq_true, if_false, wp_modify]
      exact hpost.sameTarget ⟨rfl, rfl, rfl, rfl, rfl, rfl, rfl, rfl⟩

/-- The blocks after the batch start with the cells of the whole proposal `ds`, of which `acc` was accepted. -/
theorem correct_spec {nAcc : Nat} (h : Mid e prompt maxTokens old (t0 :: ds.take nAcc) s)
    (hh : s.ctxTarget.mem.Holds 0 (prompt ++ (old ++ t0 :: ds))) (hpos : pos0 = (prompt ++ old).length)
    (hlt : nAcc < ds.length) (hn : n < s.tokensPrinted) (hcorr : correction =
      lowestArgmax (fun _ => true) (e.target (prompt ++ (old ++ t0 :: ds.take nAcc)))) :
    wp B (correct e maxTokens pos0 nAcc ds.length correction)
      (fun _ s' => Post e prompt maxTokens n s') (Left e prompt maxTokens n) s := by
  have hnext : next e prompt (old ++ t0 :: ds.take nAcc) = correction.filter fun c => !e.isEog c := by
    rw [hcorr]; rfl
  have hrm : pos0 + nAcc + 1 < pos0 + ds.length + 1 := by omega
  have hcut : ((s.ctxTarget.mem.seqRm 0 (pos0 + nAcc + 1 : Nat) (pos0 + ds.length + 1 : Nat))).Holds 0
      (prompt ++ (old ++ t0 :: ds.take nAcc)) := by
    have hend : ((prompt ++ (old ++ t0 :: ds)).length : Int) ≤ (pos0 + ds.length + 1 : Nat) := by
      subst hpos; simp; omega
    have hcut := hh.seqRm (rfl : ((pos0 + nAcc + 1 : Nat) : Int) = _) (.inr hend)
    have htake : (prompt ++ (old ++ t0 :: ds)).take (pos0 + nAcc + 1) =
        prompt ++ (old ++ t0 :: ds.take nAcc) := by
      subst hpos
      rw [← List.append_assoc, Nat.add_assoc, List.take_length_add_append]
      simp
    rwa [htake] at hcut
  simp only [correct, wp_bind, printCorrection]
  cases hc : correction.filter fun c => !e.isEog c with
  | none =>
    simp only [wp_modify, rollback, if_pos hrm, wp_get]
    have hnone : ∀ b : Bool, (correction.filter fun c => !e.isEog c && !b) = none := by
      intro b
      cases correction with
      | none => rfl
      | some c => cases hb : e.isEog c <;> simp_all [Option.filter]
    rw [hnone]
    simp only [wp_modify]
    exact Output.post ⟨h.follows, h.budget, h.heads⟩ rfl
  | some c =>
    refine (printToken_spec h (hnext.trans hc)).mono (fun _ s₁ hpost => ?_) fun _ _ h => h
    obtain ⟨hout, hctx, hlt₁, hmid⟩ := hpost
    obtain ⟨rfl, hce⟩ : correction = some c ∧ (!e.isEog c) = true := Option.filter_eq_some_iff.mp hc
    simp only [rollback, if_pos hrm, wp_modify, wp_get]
    cases hf : s₁.finished with
    | true =>
      simp only [Option.filter, Bool.not_true, Bool.and_false, Bool.false_eq_true, if_false, wp_modify]
      exact Output.post ⟨hout.follows, hout.budget, hout.heads⟩ (by simp)
    | false =>
      simp only [Option.filter, hce, Bool.not_false, Bool.and_true, if_true]
      refine decodeCorrection_spec ((hmid hf).congr rfl rfl hf.symm rfl) ?_ ?_ ?_
      · simpa [hctx.ctxTarget] using hcut
      · subst hpos; simp; omega
      · exact lt_trans hn hlt₁

theorem settle_spec {nAcc : Nat} (h : Mid e prompt maxTokens old (t0 :: ds.take nAcc) s)
    (hh : s.ctxTarget.mem.Holds 0 (prompt ++ (old ++ t0 :: ds)))
    (hrow : s.ctxTarget.out[ds.length]? = some (e.target (prompt ++ (old ++ t0 :: ds))))
    (hpos : pos0 = (prompt ++ old).length) (hle : nAcc ≤ ds.length) (hn : n < s.tokensPrinted)
    (hcorr : nAcc ≠ ds.length → correction =
      lowestArgmax (fun _ => true) (e.target (prompt ++ (old ++ t0 :: ds.take nAcc)))) :
    wp B (settle e maxTokens pos0 nAcc ds.length correction)
      (fun _ s' => Post e prompt maxTokens n s') (Left e prompt maxTokens n) s := by
  unfold settle
  split_ifs with hall
  · simp only [acceptAll, wp_modify]
    subst hall
    rw [List.take_length] at h
    have hlt : ds.length < s.ctxTarget.out.length := (List.getElem?_eq_some_iff.mp hrow).1
    refine Mid.post (h.congr rfl rfl rfl rfl) ⟨hh, ?_, ?_⟩ hn
    · subst hpos; simp; omega
    · simp only [State.targetRow, if_pos hlt, Option.bind_some, hrow]
  · exact correct_spec h hh hpos (by omega) hn (hcorr hall)

theorem verify_spec (h : Mid e prompt maxTokens old [t0] s) (hh : s.ctxTarget.mem.Holds 0 (prompt ++ old))
    (hpos : pos0 = (prompt ++ old).length) (hds : ∀ d ∈ ds, e.isEog d = false) (hn : n < s.tokensPrinted) :
    wp B (verify e maxTokens pos0 t0 ds) (fun _ s' => Post e prompt maxTokens n s')
      (Left e prompt maxTokens n) s := by
  simp only [verify, wp_bind, wp_decodeTarget]
  split
  · simp only [Bool.false_eq_true, if_false, wp_stop]
    exact Output.left ⟨h.follows, h.budget, h.heads⟩ rfl
  · simp only [if_true, wp_bind, wp_get]
    subst hpos
    generalize hc : s.ctxTarget.decode e.target 0 (prompt ++ old).length (t0 :: ds) true = c
    have hrows : ∀ i ≤ ds.length, c.out[i]? = some (e.target (prompt ++ (old ++ [t0] ++ ds.take i))) := by
      intro i hi
      rw [← hc, Ctx.decode_row hh (by simp; omega)]
      simp
    have hbase : getLogits c = some 0 := by
      have : c.out ≠ [] := fun h0 => by simpa [h0] using hrows 0 (Nat.zero_le _)
      simp [getLogits, this]
    have hcells : c.mem.Holds 0 (prompt ++ (old ++ t0 :: ds)) := by
      rw [← hc]; simpa using Ctx.decode_holds hh
    simp only [hbase, wp_bind, wp_modify, List.drop_zero]
    obtain ⟨hle, hacc, hcorr⟩ := compareDraft_spec (old ++ [t0]) ds c.out
      (fun i hi => hrows i (by omega)) hds
    refine wp.mono (printAccepted_spec ⟨h.follows, h.budget, h.heads⟩
      (fun _ => h.congr rfl rfl rfl rfl) hacc) (fun _ s₁ hpost => ?_) fun _ _ h => h
    obtain ⟨hout, hctx, hmid⟩ := hpost
    rw [wp_stopIfFinished]
    cases hf : s₁.finished with
    | true => exact Output.left hout hf
    | false =>
      simp only [Bool.false_eq_true, if_false]
      refine (settle_spec (hmid hf) (hctx.ctxTarget ▸ hcells) ?_ rfl hle ?_ ?_).mono
        (fun _ s₂ h₂ => h₂.sameTarget ⟨rfl, rfl, rfl, rfl, rfl, rfl, rfl, rfl⟩) fun _ _ h => h
      · rw [hctx.ctxTarget]
        simpa using hrows ds.length le_rfl
      · exact lt_of_lt_of_le hn hctx.tokensPrinted
      · simpa using hcorr

variable (h : Inv e prompt maxTokens s)

include h

theorem iteration_spec (hf : s.finished = false) (hroom : 0 < maxTokens → s.printedTotal < maxTokens) :
    wp B (iteration e maxTokens) (fun _ s' => Post e prompt maxTokens s.tokensPrinted s')
      (Left e prompt maxTokens s.tokensPrinted) s := by
  obtain ⟨hh, hpos, hrow⟩ := h.live hf
  simp only [iteration, wp_bind, wp_get, hrow, greedySample_eq]
  split
  · simp only [wp_stop]
    exact Output.left ⟨h.follows, h.budget, h.heads⟩ rfl
  · rename_i t0 ht0
    have hmid : Mid e prompt maxTokens s.emitted [] s := ⟨h.toOutput, by simp, hf, hroom⟩
    simp only [wp_bind]
    refine (printToken_spec hmid (by simpa [next] using ht0)).mono
      (fun _ s₁ hpost => ?_) fun _ _ h => h
    obtain ⟨hout, hctx, hlt, hmid₁⟩ := hpost
    rw [wp_stopIfFinished]
    cases hf₁ : s₁.finished with
    | true => exact Output.left hout hf₁
    | false =>
      simp only [Bool.false_eq_true, if_false]
      have hm := hmid₁ hf₁
      refine (feedDraft_spec hm (hctx.ctxTarget ▸ hh) (hctx.posTarget ▸ hpos) hlt).mono
        (fun _ s₂ h₂ => ?_) fun _ _ h => h
      simp only [wp_get]
      refine (propose_spec s₂.dynK.k).mono (fun ds s₃ hpost => ?_) fun _ _ h => h
      obtain ⟨h₃, hds⟩ := hpost
      have h₃ := h₂.trans h₃
      have hh₃ : s₃.ctxTarget.mem.Holds 0 (prompt ++ s.emitted) := by
        rw [h₃.ctxTarget, hctx.ctxTarget]; exact hh
      split_ifs
      · simp only [wp_bind, wp_exit]
        exact (stepTarget_spec (h₃.mid hm) hh₃ hpos (h₃.tokensPrinted ▸ hlt)).mono
          (fun _ _ h => h.left) fun _ _ h => h
      · exact verify_spec (h₃.mid hm) hh₃ hpos hds (h₃.tokensPrinted ▸ hlt)

/-! ### Calls -/

variable {maxThisCall : Int}

omit h in
theorem loopCond_iff : loopCond maxTokens maxThisCall s = true ↔
    (s.tokensPrinted : Int) < maxThisCall ∧ (0 < maxTokens → s.printedTotal < maxTokens) ∧
      s.finished = false := by
  simp only [loopCond, Bool.and_eq_true, Bool.or_eq_true, decide_eq_true_eq, Bool.not_eq_true', and_assoc]
  have : (maxTokens = 0 ∨ s.printedTotal < maxTokens) ↔ (0 < maxTokens → s.printedTotal < maxTokens) := by
    omega
  rw [this]

theorem iteration_post (hc : loopCond maxTokens maxThisCall s = true) {r : Outcome (State L) Exit Empty Unit}
    (hr : r = iteration e maxTokens { s with heads := s.heads ++ [s.head] }) :
    Post e prompt maxTokens s.tokensPrinted r.state ∧
      (r.res = .error .brk → r.state.finished = true) := by
  obtain ⟨-, hroom, hf⟩ := loopCond_iff.mp hc
  have hinv : Inv e prompt maxTokens { s with heads := s.heads ++ [s.head] } := by
    refine ⟨⟨h.follows, h.budget, fun hd hmem => ?_⟩, h.live⟩
    rcases List.mem_append.mp hmem with hmem | hmem
    · exact h.heads hd hmem
    · rw [List.mem_singleton.mp hmem]; exact h.live hf
  have hwp := iteration_spec (B := fun _ => False) hinv hf hroom fun _ _ => id
  rw [← hr, Outcome.sat] at hwp
  cases hres : r.res with
  | ok a => rw [hres] at hwp; exact ⟨hwp, fun h => by cases h⟩
  | error x => rw [hres] at hwp; exact ⟨hwp.1, fun hx => hwp.2 (Except.error.inj hx)⟩

omit h in
theorem loop_inv (fuel : Nat) (h : Inv e prompt maxTokens s) :
    Inv e prompt maxTokens (loop e maxTokens maxThisCall fuel s) := by
  induction fuel generalizing s with
  | zero => exact h
  | succ fuel ih =>
    rw [loop]
    split_ifs with hc
    · have hpost := (iteration_post h hc rfl).1
      dsimp only
      split
      · exact hpost.1
      · exact ih hpost.1
    · exact h

theorem Inv.resetCall : Inv e prompt maxTokens { s with tokensPrinted := 0, stepProposed := 0, stepAccepted := 0 } :=
  ⟨⟨h.follows, h.budget, h.heads⟩, h.live⟩

theorem specV2Step_inv : Inv e prompt maxTokens (specV2Step e maxTokens maxThisCall s) :=
  loop_inv _ h.resetCall

theorem runCalls_inv {calls : List Int} : Inv e prompt maxTokens (runCalls e maxTokens calls s) := by
  induction calls generalizing s with
  | nil => exact h
  | cons m calls ih => exact ih (specV2Step_inv h)

omit h

/-! ### The request -/

/-- A request starts after its prompt was decoded: `logits_target` is the target's row for the tokens at
positions `[0, pos_target)`, and nothing has been emitted. -/
structure Start (e : Env L) (prompt : List Token) (maxTokens : Nat) (s : State L) : Prop where
  live : Live e prompt s.ctxTarget.mem s.posTarget s.targetRow
  emitted : s.emitted = []
  heads : s.heads = []
  budget : 0 < maxTokens → s.printedTotal ≤ maxTokens

theorem Start.inv (h : Start e prompt maxTokens s) : Inv e prompt maxTokens s where
  follows := by simp [h.emitted]
  budget := h.budget
  heads := by simp [h.heads]
  live _ := by simpa [h.emitted] using h.live

/-- Over any calls, with any draft and any failures. -/
theorem specV2_lossless (e : Env L) (prompt : List Token) (maxTokens : Nat) (calls : List Int)
    (s : State L) (h : Start e prompt maxTokens s) : (∀ n, (runCalls e maxTokens calls s).emitted.length ≤ n →
      (runCalls e maxTokens calls s).emitted <+: greedyDecode e prompt n) ∧
    (∀ hd ∈ (runCalls e maxTokens calls s).heads,
      Live e (prompt ++ hd.emitted) hd.mem hd.posTarget hd.row) ∧
    (0 < maxTokens → (runCalls e maxTokens calls s).printedTotal ≤ maxTokens) := by
  have hinv : Inv e prompt maxTokens (runCalls e maxTokens calls s) := runCalls_inv h.inv
  exact ⟨fun n hn => hinv.follows.prefix_generate hn, hinv.heads, hinv.budget⟩

def demoEnv : Env Nat where
  target xs := if xs.length % 4 = 3 then [0, 0, 5] else if xs.length % 2 = 0 then [0, 5, 0] else [5, 0, 0]
  draft _ xs := if xs.length % 3 = 0 then [0, 5, 0] else [5, 0, 0]
  isEog t := t = 2
  targetDecodeFails _ := false
  draftDecodeFails n := n = 2
  draftLogitsNull _ := false
  emitFails _ := false

def demoState : State Nat where
  ctxTarget := (Ctx.mk Memory.empty []).decode demoEnv.target 0 0 [1] true
  ctxDraft := (Ctx.mk Memory.empty []).decode (demoEnv.draft 0) 0 0 [1] true
  posTarget := 1
  posDraft := 1
  logitsTarget := some 0
  logitsDraft := some 0
  finished := false
  printedTotal := 0
  dynK := {}
  tokensPrinted := 0
  stepProposed := 0
  stepAccepted := 0
  tick := 0
  emitted := []
  heads := []

theorem demoState_start : Start demoEnv [1] 8 demoState where
  live := ⟨(Memory.holds_empty 0).place, rfl, rfl⟩
  emitted := rfl
  heads := rfl
  budget := by decide

theorem specV2_lossless_demo : Start demoEnv [1] 8 demoState ∧
    (runCalls demoEnv 8 [1, 4] demoState).emitted = [0, 1] ∧
    (runCalls demoEnv 8 [1, 4] demoState).emitted <+: greedyDecode demoEnv [1] 2 := by
  have hrun : (runCalls demoEnv 8 [1, 4] demoState).emitted = [0, 1] := by decide
  exact ⟨demoState_start, hrun,
    (specV2_lossless demoEnv [1] 8 [1, 4] demoState demoState_start).1 2 (by rw [hrun]; decide)⟩

/-- Requests with one target print one text, as far as both go, whatever their drafts and failures are. -/
theorem emitted_comparable {e' : Env L} {maxTokens' : Nat} (h : Start e prompt maxTokens s)
    (h' : Start e' prompt maxTokens' s') (htarget : e'.target = e.target) (heog : e'.isEog = e.isEog)
    (calls calls' : List Int) : let out := (runCalls e maxTokens calls s).emitted
    let out' := (runCalls e' maxTokens' calls' s').emitted
    out <+: out' ∨ out' <+: out := by
  have hnext : next e' prompt = next e prompt := by
    unfold next
    rw [htarget, heog]
  intro out out'
  have hout : Follows _ _ out := (runCalls_inv h.inv).follows
  have hout' : Follows _ _ out' := (runCalls_inv h'.inv).follows
  rw [hnext] at hout'
  exact List.prefix_or_prefix_of_prefix (hout.prefix_generate (Nat.le_max_left ..))
    (hout'.prefix_generate (Nat.le_max_right ..))

/-- The request with a draft that always gives 1. -/
def otherEnv : Env Nat := { demoEnv with draft := fun _ _ => [0, 5, 0], draftDecodeFails := fun _ => false }

def otherState : State Nat :=
  { demoState with ctxDraft := (Ctx.mk Memory.empty []).decode (otherEnv.draft 0) 0 0 [1] true }

theorem emitted_comparable_demo : let out := (runCalls demoEnv 8 [1, 4] demoState).emitted
    let out' := (runCalls otherEnv 6 [9] otherState).emitted
    out <+: out' ∨ out' <+: out :=
  have hother : Start otherEnv [1] 6 otherState := ⟨⟨(Memory.holds_empty 0).place, rfl, rfl⟩, rfl, rfl, by decide⟩
  emitted_comparable demoState_start hother rfl rfl [1, 4] [9]

end Korith.SpecV2
