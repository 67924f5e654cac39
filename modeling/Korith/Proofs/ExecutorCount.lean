import Korith.Executor.Run

/-!
# What a call counts is what it prints

Whatever a call does, and however it ends, the number of tokens it has printed is `printed_this_call`, and
`logits_target` does not become null. No hazard matters for this, so it is a property of each piece of the
code alone: `Keeps (Counted n)`.
-/

set_option linter.unusedSectionVars false

namespace Korith.Executor

open Exec

variable {F L : Type} {e : Env F L} {n : Nat} {α : Type}

def Counted (n : Nat) (s : State F L) : Prop :=
  s.printed.length = n + s.printedThisCall ∧ s.logitsTarget ≠ .null

/-! ### Primitive steps -/

@[grind ←] theorem keeps_abort : Keeps (Counted n) (abort : M F L α) := by
  unfold abort
  grind [Counted]

@[grind ←] theorem keeps_finish : Keeps (Counted n) (finish : M F L Unit) := fun _ h => h

@[grind ←] theorem keeps_tick : Keeps (Counted n) (tick : M F L Nat) := by
  unfold tick
  grind [Counted]

@[grind ←] theorem keeps_now : Keeps (Counted n) (now e) := by
  unfold now
  grind

@[grind ←] theorem keeps_decodeTarget (q start : Nat) (ts : List Token) :
    Keeps (Counted n) (decodeTarget e q start ts) := by
  unfold decodeTarget
  grind [State.decodeTarget, Counted]

@[grind ←] theorem keeps_decodeDraft (ts : List Token) : Keeps (Counted n) (decodeDraft e ts) := by
  unfold decodeDraft
  grind [Counted]

@[grind ←] theorem keeps_seqRmTarget (q : Nat) (p0 p1 : Int) :
    Keeps (Counted n) (seqRmTarget q p0 p1 : M F L Unit) := fun _ h => h

@[grind ←] theorem keeps_seqCpTarget (src dst : Nat) (p0 p1 : Int) :
    Keeps (Counted n) (seqCpTarget src dst p0 p1 : M F L Unit) := fun _ h => h

@[grind ←] theorem keeps_rollbackDraftTo (pos : Nat) : Keeps (Counted n) (rollbackDraftTo e pos) := fun _ h => h

/-- The only place where the output grows. -/
@[grind ←] theorem keeps_countPrinted (t : Token) : Keeps (Counted n) (countPrinted e t) := by
  unfold countPrinted
  grind [Counted]

@[grind ←] theorem keeps_ensureSeq1Synced (pos : Nat) : Keeps (Counted n) (ensureSeq1Synced e pos) := by
  refine keeps_read fun s => keeps_ite ?_ ?_
  · exact keeps_bind (fun _ h => h) fun _ => keeps_pure _
  · refine keeps_bind (keeps_when ?_) fun _ => keeps_bind (fun _ h => h) fun _ => keeps_pure _
    exact keeps_bind (keeps_seqRmTarget _ _ _) fun _ => keeps_seqCpTarget _ _ _ _

@[grind ←] theorem keeps_ensureSeqSynced (q pos : Nat) : Keeps (Counted n) (ensureSeqSynced e q pos) := by
  unfold ensureSeqSynced
  grind

/-! ### Steps -/

@[grind ←] theorem keeps_printOne (t : Token) : Keeps (Counted n) (printOne e t) := by
  unfold printOne
  grind [Counted]

@[grind ←] theorem keeps_followInDraft (pos : Nat) (t : Token) : Keeps (Counted n) (followInDraft e pos t) := by
  unfold followInDraft
  grind

variable [FloatArith F]

@[grind ←] theorem keeps_resetSpecState (clear preserve : Bool) :
    Keeps (Counted n) (resetSpecState clear preserve : M F L Unit) := by
  unfold resetSpecState
  grind [Counted]

@[grind ←] theorem keeps_decodeCommitted (t : Token) : Keeps (Counted n) (decodeCommitted e t) := by
  unfold decodeCommitted
  grind [Counted]

@[grind ←] theorem keeps_syncDraftAfter (syncDraft : Bool) (pos : Nat) (t : Token) :
    Keeps (Counted n) (syncDraftAfter e syncDraft pos t) := by
  unfold syncDraftAfter
  grind [Counted]

theorem keeps_hashToken (t : Token) : Keeps (Counted n) (modify (State.hashToken t) : M F L Unit) := fun _ h => h

@[grind ←] theorem keeps_commitViaSeq1 (t : Token) : Keeps (Counted n) (commitViaSeq1 e t) := by
  unfold commitViaSeq1
  grind [Counted]

@[grind ←] theorem keeps_decodeUnlessSkipped (synced via : Bool) (t : Token) :
    Keeps (Counted n) (decodeUnlessSkipped e synced via t) := by
  unfold decodeUnlessSkipped
  grind

@[grind ←] theorem keeps_syncForSkip (c : Call F) : Keeps (Counted n) (syncForSkip e c) := by
  unfold syncForSkip
  grind

variable [LinearOrder L]

@[grind ←] theorem keeps_nextToken : Keeps (Counted n) (nextToken e) := by
  unfold nextToken
  grind

@[grind ←] theorem keeps_stepOneTarget (syncDraft : Bool) : Keeps (Counted n) (stepOneTarget e syncDraft) := by
  refine keeps_read fun s => keeps_bind keeps_nextToken fun next => ?_
  cases next with
  | none => exact keeps_pure _
  | some t =>
    refine keeps_bind (keeps_decodeCommitted t) fun ok => keeps_ite (keeps_pure _) ?_
    refine keeps_bind (keeps_hashToken t) fun _ => keeps_bind (keeps_printOne t) fun ok => ?_
    exact keeps_ite (keeps_pure _) (keeps_syncDraftAfter _ _ _)

@[grind ←] theorem keeps_stepAndContinue (syncDraft : Bool) :
    Keeps (Counted n) (stepAndContinue e syncDraft : M F L α) := by
  unfold stepAndContinue
  grind

theorem keeps_skipOnAccept (synced : Bool) (t : Token) : Keeps (Counted n) (skipOnAccept e synced t) := by
  unfold skipOnAccept
  grind

@[grind ←] theorem keeps_stepOneSoftSpec (c : Call F) : Keeps (Counted n) (stepOneSoftSpec e c) := by
  refine keeps_read fun s => keeps_bind keeps_nextToken fun next => ?_
  cases next with
  | none => exact keeps_pure _
  | some t =>
    refine keeps_bind (keeps_syncForSkip c) fun synced => keeps_bind (keeps_skipOnAccept synced t) fun via => ?_
    refine keeps_bind (keeps_decodeUnlessSkipped synced via t) fun ok => keeps_ite (keeps_pure _) ?_
    refine keeps_bind (keeps_hashToken t) fun _ => keeps_bind (keeps_when fun _ h => h) fun _ => ?_
    refine keeps_bind (keeps_printOne t) fun ok => keeps_ite (keeps_pure _) ?_
    exact keeps_ite (keeps_followInDraft _ _) (keeps_pure _)

/-! ### The first half of an iteration -/

theorem keeps_flushIfDisabled : Keeps (Counted n) (flushIfDisabled : M F L Unit) := by
  unfold flushIfDisabled
  grind [Counted]

@[grind ←] theorem keeps_resetIfValid (preserve : Bool) : Keeps (Counted n) (resetIfValid preserve : M F L Unit) := by
  unfold resetIfValid
  grind

theorem keeps_resetAndStep (preserve : Bool) : Keeps (Counted n) (resetAndStep e preserve) := by
  unfold resetAndStep
  grind

theorem keeps_cooldownStep : Keeps (Counted n) (cooldownStep e) := by
  refine keeps_bind (keeps_resetIfValid true) fun _ => keeps_bind (fun _ h => h) fun _ => ?_
  refine keeps_bind (keeps_stepOneTarget false) fun ok => keeps_ite (keeps_exit _) ?_
  refine keeps_bind ?_ fun _ => keeps_exit _
  grind [Counted]

theorem keeps_softSpecAndContinue (c : Call F) : Keeps (Counted n) (softSpecAndContinue e c) := by
  unfold softSpecAndContinue
  grind

theorem keeps_baselineGates (c : Call F) : Keeps (Counted n) (baselineGates e c) := by
  refine keeps_read fun s => keeps_ite (keeps_resetAndStep _) (keeps_ite (keeps_resetAndStep _) ?_)
  refine keeps_ite (keeps_resetAndStep _) (keeps_ite keeps_cooldownStep ?_)
  exact keeps_ite (keeps_softSpecAndContinue c) (keeps_pure _)

@[grind ←] theorem keeps_decodeEachDraft (ts : List Token) : Keeps (Counted n) (decodeEachDraft e ts) := by
  induction ts with
  | nil => exact keeps_pure _
  | cons t ts ih => exact keeps_bind (keeps_decodeDraft _) fun ok => keeps_ite ih (keeps_pure _)

theorem keeps_replayDeferred : Keeps (Counted n) (replayDeferred e) := by
  refine keeps_read fun s => keeps_ite (keeps_pure _) (keeps_bind (keeps_decodeDraft _) fun ok => ?_)
  refine keeps_ite (fun _ h => h) (keeps_bind (keeps_resetSpecState _ _) fun _ => keeps_stepAndContinue _)

theorem keeps_ensureDraftPendingSynced : Keeps (Counted n) (ensureDraftPendingSynced e) := by
  refine keeps_read fun s => keeps_ite (keeps_pure _) ?_
  exact keeps_bind (fun _ h => h) fun _ => keeps_decodeEachDraft _

theorem keeps_catchUpDraft : Keeps (Counted n) (catchUpDraft e) := by
  refine keeps_read fun s => keeps_bind (keeps_when (keeps_resetSpecState _ _)) fun _ => ?_
  refine keeps_bind keeps_replayDeferred fun _ => keeps_bind keeps_ensureDraftPendingSynced fun ok => ?_
  exact keeps_when (keeps_bind (keeps_resetSpecState _ _) fun _ => keeps_stepAndContinue _)

theorem keeps_dropMisaligned : Keeps (Counted n) (dropMisaligned : M F L Unit) := by
  unfold dropMisaligned
  grind

theorem keeps_entropyGate (accept : F) : Keeps (Counted n) (entropyGate e accept) := by
  refine keeps_read fun s => ?_
  cases s.baseRow with
  | none => exact keeps_bind keeps_finish fun _ => keeps_exit _
  | some row => exact keeps_bind (fun _ h => h) fun _ => keeps_pure _

theorem keeps_printTokens (ts : List Token) : Keeps (Counted n) (printTokens e ts) := by
  induction ts with
  | nil => exact keeps_pure _
  | cons t ts ih =>
    refine keeps_bind (keeps_countPrinted t) fun ok => keeps_ite ?_ keeps_abort
    exact keeps_bind (keeps_hashToken t) fun _ => ih

theorem keeps_commitPending (m : Nat) : Keeps (Counted n) (commitPending e m) := by
  refine keeps_read fun s => keeps_bind (keeps_when keeps_abort) fun _ => ?_
  refine keeps_bind (fun _ h => ⟨h.1, (fun h => by cases h)⟩) fun _ => keeps_bind (keeps_seqCpTarget _ _ _ _) fun _ => ?_
  exact keeps_bind (keeps_printTokens _) fun _ => fun _ h => h

theorem keeps_pendingPhase (c : Call F) (h : Head F) : Keeps (Counted n) (pendingPhase e c h) := by
  refine keeps_read fun s => keeps_when (keeps_bind (fun _ h => h) fun _ => keeps_ite ?_ ?_)
  · refine keeps_bind (keeps_read fun s => ?_) fun _ => ?_
    · refine keeps_bind (keeps_when (keeps_commitPending _)) fun _ => ?_
      grind [Counted]
    · exact keeps_read fun s => keeps_when (keeps_bind (keeps_when keeps_finish) fun _ => keeps_exit _)
  · refine keeps_read fun s => keeps_bind (keeps_note _ _) fun _ => ?_
    exact keeps_bind (fun _ h => h) fun _ => keeps_stepAndContinue _

theorem keeps_leaveIfDone (c : Call F) : Keeps (Counted n) (leaveIfDone c : M F L Unit) := by
  unfold leaveIfDone
  grind

theorem keeps_loopHead (c : Call F) : Keeps (Counted n) (loopHead e c) := by
  refine keeps_bind keeps_flushIfDisabled fun _ => keeps_bind (keeps_baselineGates c) fun _ => ?_
  refine keeps_bind keeps_catchUpDraft fun _ => keeps_read fun s => ?_
  refine keeps_bind keeps_dropMisaligned fun _ => keeps_bind (keeps_entropyGate _) fun h => ?_
  exact keeps_bind (keeps_pendingPhase c h) fun _ => keeps_bind (keeps_leaveIfDone c) fun _ => keeps_pure _

/-! ### The second half -/

theorem keeps_flushOrStep : Keeps (Counted n) (flushOrStep e : M F L α) :=
  keeps_read fun _ => keeps_ite (keeps_stepAndContinue _) (keeps_bind (fun _ h => h) fun _ => keeps_exit _)

theorem keeps_finishBehindPending : Keeps (Counted n) (finishBehindPending : M F L α) := by
  refine keeps_read fun s => keeps_ite (keeps_bind keeps_finish fun _ => keeps_exit _) ?_
  exact keeps_bind (fun _ h => h) fun _ => keeps_exit _

theorem keeps_blockSize (c : Call F) (window : Nat) : Keeps (Counted n) (blockSize e c window) := by
  refine keeps_read fun s => keeps_ite keeps_flushOrStep (keeps_read fun s => ?_)
  exact keeps_ite (keeps_pure _) (keeps_ite keeps_finishBehindPending (keeps_ite keeps_flushOrStep (keeps_pure _)))

theorem keeps_baseToken (allow : Bool) : Keeps (Counted n) (baseToken e allow) := by
  refine keeps_read fun s => keeps_bind (keeps_note _ _) fun _ => keeps_bind (keeps_note _ _) fun _ => ?_
  cases sample e s.baseRow allow with
  | none => exact keeps_bind keeps_finish fun _ => keeps_exit _
  | some t => exact keeps_ite keeps_finishBehindPending (keeps_pure _)

theorem keeps_propose (allow : Bool) (k : Nat) (ts : List Token) (rows : List (List L)) :
    Keeps (Counted n) (propose e allow k ts rows) := by
  induction k generalizing ts rows with
  | zero => exact keeps_pure _
  | succ k ih =>
    refine keeps_read fun s => ?_
    cases s.draftRow with
    | none => exact keeps_pure _
    | some row =>
      dsimp only
      cases sample e (some row) allow with
      | none => exact keeps_pure _
      | some t =>
        refine keeps_ite (keeps_pure _) (keeps_bind (keeps_decodeDraft _) fun ok => ?_)
        exact keeps_ite (ih _ _) (keeps_pure _)

theorem keeps_abandonBlock : Keeps (Counted n) (abandonBlock e : M F L α) := by
  refine keeps_read fun s => keeps_bind (keeps_rollbackDraftTo _) fun _ => ?_
  refine keeps_bind (keeps_when ?_) fun _ => keeps_stepAndContinue _
  exact keeps_bind (keeps_resetSpecState _ _) fun _ => keeps_rollbackDraftTo _

theorem keeps_draftBlock (k : Nat) : Keeps (Counted n) (draftBlock e k) := by
  refine keeps_read fun s => keeps_bind keeps_now fun _ => ?_
  refine keeps_bind (keeps_propose _ _ _ _) fun p => keeps_bind keeps_now fun _ => ?_
  exact keeps_ite keeps_abandonBlock (keeps_pure _)

theorem keeps_abortEngine (seq : Nat) : Keeps (Counted n) (abortEngine e seq : M F L α) := by
  refine keeps_read fun s => keeps_bind (keeps_seqRmTarget _ _ _) fun _ => ?_
  exact keeps_bind (keeps_rollbackDraftTo _) fun _ => keeps_abort

theorem keeps_checkOnHost (seq : Nat) (tok0 : Token) (ts : List Token) :
    Keeps (Counted n) (checkOnHost e seq tok0 ts) := by
  refine keeps_read fun s => keeps_bind (keeps_note _ _) fun _ => ?_
  split
  · exact keeps_abortEngine seq
  · exact keeps_pure _

variable [OrderBot L]

theorem keeps_checkBlock (seq : Nat) (tok0 : Token) (ts : List Token) :
    Keeps (Counted n) (checkBlock e seq tok0 ts) := by
  refine keeps_read fun s => keeps_bind keeps_tick fun _ => keeps_ite ?_ (keeps_checkOnHost _ _ _)
  refine keeps_read fun s => keeps_bind (keeps_note _ _) fun _ => ?_
  exact keeps_bind (keeps_note _ _) fun _ => keeps_pure _

theorem keeps_verifyBlock (seq : Nat) (tok0 : Token) (t0 : Nat) (ts : List Token) :
    Keeps (Counted n) (verifyBlock e seq tok0 t0 ts) := by
  refine keeps_read fun s => keeps_bind keeps_now fun _ => ?_
  refine keeps_bind (keeps_decodeTarget _ _ _) fun ok => keeps_bind keeps_now fun _ => keeps_ite ?_ ?_
  · exact keeps_bind (keeps_seqRmTarget _ _ _) fun _ => keeps_pure _
  · refine keeps_bind keeps_now fun _ => keeps_bind (keeps_checkBlock _ _ _) fun chk => ?_
    refine keeps_bind keeps_now fun _ => keeps_read fun s' => ?_
    exact keeps_bind (keeps_when (keeps_seqRmTarget _ _ _)) fun _ => keeps_bind keeps_now fun _ => keeps_pure _

theorem keeps_runEngine (seq : Nat) (tok0 : Token) (block : Option (List Token)) :
    Keeps (Counted n) (runEngine e seq tok0 block) := by
  refine keeps_bind keeps_now fun t0 => ?_
  have hclear : Keeps (Counted n) (do seqRmTarget seq (-1) (-1); pure none : M F L (Option (Verdict L))) :=
    keeps_bind (keeps_seqRmTarget _ _ _) fun _ => keeps_pure _
  cases block with
  | none => exact hclear
  | some ts =>
    refine keeps_bind (keeps_read fun s => ?_) fun ok => keeps_ite hclear (keeps_verifyBlock _ _ _ _)
    exact keeps_ite (keeps_ensureSeqSynced _ _) (keeps_pure _)

theorem keeps_engineLoop (tok0 : Token) (allow : Bool) (b : Block L) (m idx : Nat) (best : Option (Best F L)) :
    Keeps (Counted n) (engineLoop e tok0 allow b m idx best) := by
  induction m generalizing idx best with
  | zero => exact keeps_pure _
  | succ m ih =>
    refine keeps_read fun s => keeps_bind (keeps_runEngine _ _ _) fun v => ?_
    cases v with
    | none => exact ih _ _
    | some v => exact keeps_bind (fun _ h => h) fun _ => ih _ _

theorem keeps_verifyEngines (c : Call F) (h : Head F) (expanded : Bool) (tok0 : Token) (b : Block L) :
    Keeps (Counted n) (verifyEngines e c h expanded tok0 b) := by
  refine keeps_read fun s => keeps_ite keeps_abandonBlock ?_
  refine keeps_bind (keeps_engineLoop _ _ _ _ _ _) fun best => ?_
  cases best with
  | some best => exact keeps_pure _
  | none =>
    refine keeps_read fun s => keeps_bind (keeps_note _ _) fun _ => keeps_bind (fun _ h => h) fun _ => ?_
    exact keeps_bind (keeps_rollbackDraftTo _) fun _ => keeps_stepAndContinue _

theorem keeps_decodeCorrection (v : Verdict L) : Keeps (Counted n) (decodeCorrection e v) := by
  refine keeps_read fun s => ?_
  cases v.correction with
  | none => exact keeps_pure _
  | some t =>
    refine keeps_ite (keeps_pure _) (keeps_bind (keeps_decodeTarget _ _ _) fun ok => ?_)
    exact keeps_ite (fun _ h => h) (keeps_abortEngine _)

theorem keeps_takeVerdict (m : Nat) (v : Verdict L) : Keeps (Counted n) (takeVerdict e m v) := by
  have hdrop : Keeps (Counted n) (dropBlock e) :=
    keeps_read fun s => keeps_bind (keeps_resetSpecState _ _) fun _ =>
      keeps_bind (keeps_rollbackDraftTo _) fun _ => keeps_stepAndContinue _
  refine keeps_read fun s => keeps_ite hdrop (keeps_bind (fun _ h => h) fun _ => keeps_ite hdrop ?_)
  exact keeps_bind (keeps_decodeCorrection v) fun _ => fun _ h => h

theorem keeps_syncDraftToBlock (pos : Nat) (draft out : List Token) :
    Keeps (Counted n) (syncDraftToBlock e pos draft out) := by
  refine keeps_read fun s => keeps_ite (keeps_pure _) (keeps_ite keeps_abort (keeps_ite (fun _ h => h) ?_))
  exact keeps_bind (fun _ h => h) fun _ => keeps_bind (keeps_decodeEachDraft _) fun ok => keeps_when keeps_abort

theorem keeps_iteration (c : Call F) : Keeps (Counted n) (iteration e c) := by
  refine keeps_bind (keeps_loopHead c) fun h => keeps_bind (keeps_blockSize _ _) fun k => ?_
  refine keeps_bind (keeps_baseToken _) fun tok0 => keeps_bind (keeps_draftBlock _) fun b => ?_
  refine keeps_bind (keeps_verifyEngines _ _ _ _ _) fun r => keeps_read fun s => ?_
  refine keeps_bind (keeps_takeVerdict _ _) fun _ => keeps_bind (fun _ h => h) fun _ => ?_
  exact keeps_syncDraftToBlock _ _ _

/-! ### Calls -/

theorem evictStale_printed (c : Call F) (s : State F L) :
    (evictStale e c s).printed = s.printed ∧ (evictStale e c s).printedThisCall = s.printedThisCall ∧
      (evictStale e c s).logitsTarget = s.logitsTarget := by
  unfold evictStale
  dsimp only
  split_ifs
  · exact ⟨rfl, rfl, rfl⟩
  · exact ⟨rfl, rfl, rfl⟩

theorem counted_loop (c : Call F) {p : Process F L} (hp : p.st.logitsTarget ≠ .null) (k : Nat) :
    Counted p.st.printed.length (loop (inLoop c) (iteration e c) k (evictStale e c (recognise e p))).state := by
  refine keeps_loop (keeps_iteration c) k _ ?_
  obtain ⟨h₁, h₂, h₃⟩ := evictStale_printed (e := e) c (recognise e p)
  refine ⟨?_, h₃ ▸ hp⟩
  rw [h₁, h₂]
  rfl

end Korith.Executor
