import Korith.Proofs.ExecutorStep

/-!
# The first half of an iteration keeps the invariant

Every path that does not speculate empties the ring before it makes a step. Committing moves tokens from
the ring to the output, so the output and the ring together stay what they were.
-/

set_option linter.unusedSectionVars false

namespace Korith.Executor

open Exec

variable {F L : Type} [LinearOrder L] [FloatArith F] {B : Hazard → Prop} {e : Env F L} {c : Call F}
  {prompt : List Token} {batch : Nat} {strict : Prop} {s s₀ : State F L} {k : Core L} {r r₀ : Frame L}
  {E : Leave Unit → State F L → Prop}

/-! ### Resets -/

structure Emptied (e : Env F L) (prompt : List Token) (batch : Nat) (s s' : State F L) : Prop where
  base : Base e prompt batch s'.core s'.frame
  pending : s'.spec.ring.pending = []
  finish : s'.spec.ring.finishPending = false
  generated : s'.generated = s.generated

theorem Emptied.inv (h : Emptied e prompt batch s₀ s) : Inv e prompt batch strict s.core s.frame :=
  h.base.inv_of_empty h.pending fun _ => h.finish

theorem Emptied.step {α : Type} {Q : α → State F L → Prop} (hB : Clean B e strict)
    (h : Emptied e prompt batch s₀ s) (hlt : s₀.generated < batch) (hle : r₀.generated ≤ s₀.generated)
    (syncDraft : Bool) : wp B (stepAndContinue e syncDraft) Q (Exits e prompt batch strict r₀) s :=
  wp_stepAndContinue hB h.inv (h.generated ▸ hlt) h.pending (fun _ => h.finish) (h.generated ▸ hle) syncDraft

theorem wp_resetSpecState (h : Base e prompt batch s.core s.frame) (preserve : Bool) :
    wp B (resetSpecState true preserve) (fun _ s' => Emptied e prompt batch s s') E s := by
  simp only [resetSpecState, wp_bind, wp_get, wp_when, wp_seqRmTarget, wp_modify]
  refine ⟨fun _ => ⟨⟨h.live.clear h.seqId, h.unfinished, h.counted, h.budget, h.seqId, ?_, Nat.zero_le _⟩,
    rfl, rfl, rfl⟩, (fun h => by cases h)⟩
  rintro (hp | hp)
  · exact absurd rfl hp
  · exact Bool.noConfusion (show false = true from hp)

theorem wp_resetIfValid (h : Base e prompt batch s.core s.frame) (preserve : Bool) :
    wp B (resetIfValid preserve) (fun _ s' => Emptied e prompt batch s s') E s := by
  simp only [resetIfValid, wp_bind, wp_get, wp_when]
  refine ⟨fun _ => wp_resetSpecState h preserve, fun hv => ?_⟩
  have hnot : ¬ (s.spec.ring.pending ≠ [] ∨ s.spec.ring.finishPending = true) := fun hor =>
    Bool.noConfusion (hv.symm.trans (h.valid hor))
  rw [not_or, not_not, Bool.not_eq_true] at hnot
  exact ⟨h, hnot.1, hnot.2, rfl⟩

/-! ### The gates -/

theorem Inv.setFlush (h : Inv e prompt batch strict k r) (b : Bool) :
    Inv e prompt batch strict k { r with ring.flushPending := b } :=
  ⟨⟨h.live, h.unfinished, h.counted, h.budget, h.seqId, h.valid, h.cap⟩,
    fun hne => ⟨(h.pend hne).holds, (h.pend hne).follows, (h.pend hne).rows⟩, h.finish⟩

/-- The invariant at the head of the loop. When sequence 1 was evicted the pending tokens may have lost
their sequence, but then this call empties the ring. -/
structure AtHead (e : Env F L) (prompt : List Token) (c : Call F) (strict : Prop) (k : Core L) (r : Frame L) :
    Prop extends Base e prompt c.batchTokens k r where
  pend : c.allowExec = true → c.reuseKv = true → r.ring.pending ≠ [] → Aligned e prompt k r.ring
  finish : strict → r.ring.finishPending = true → e.Ended prompt (k.printed ++ r.ring.tokens)

theorem Inv.atHead (h : Inv e prompt c.batchTokens strict k r) : AtHead e prompt c strict k r :=
  ⟨h.toBase, fun _ _ => h.pend, h.finish⟩

theorem measure_flush (r : Frame L) :
    measure batch { r with ring := { r.ring with flushPending := true } } ≤ measure batch r := by
  simp only [measure, flushNow, Bool.true_or, if_true]
  exact Nat.le_add_right _ _

theorem wp_flushIfDisabled (h : AtHead e prompt c strict s.core s.frame) :
    wp B flushIfDisabled (fun _ s' => AtHead e prompt c strict s'.core s'.frame ∧ s'.generated = s.generated ∧
      measure c.batchTokens s'.frame ≤ measure c.batchTokens s.frame) E s := by
  simp only [flushIfDisabled, wp_modify]
  split_ifs
  · refine ⟨⟨⟨h.live, h.unfinished, h.counted, h.budget, h.seqId, h.valid, h.cap⟩,
      fun he hr hp => ?_, h.finish⟩, rfl, measure_flush s.frame⟩
    exact ⟨(h.pend he hr hp).holds, (h.pend he hr hp).follows, (h.pend he hr hp).rows⟩
  · exact ⟨h, rfl, Nat.le_refl _⟩

/-- An empty ring is not waiting for a cooldown. -/
def Calm (spec : Spec F L) : Prop :=
  spec.ring.pending = [] → spec.profit.hardDisabled = false ∧ spec.profit.cooldownSteps = 0

section Gates

variable (hB : Clean B e strict) (h : AtHead e prompt c strict s.core s.frame) (hlt : s.generated < c.batchTokens)
  (hle : r₀.generated ≤ s.generated)
include hB h hlt hle

variable {Q : Unit → State F L → Prop}

theorem wp_resetAndStep (preserve : Bool) :
    wp B (resetAndStep e preserve) Q (Exits e prompt c.batchTokens strict r₀) s :=
  (wp_resetIfValid h.toBase preserve).bind fun _ _ h' => h'.step hB hlt hle false

theorem wp_cooldownStep : wp B (cooldownStep e) Q (Exits e prompt c.batchTokens strict r₀) s := by
  refine (wp_resetIfValid h.toBase true).bind fun _ s₁ h₁ => ?_
  rw [wp_bind, wp_modify]
  have h₁' : Emptied e prompt c.batchTokens s
      { s₁ with spec.profit.cooldownSteps := s₁.spec.profit.cooldownSteps - 1 } :=
    ⟨h₁.base, h₁.pending, h₁.finish, h₁.generated⟩
  refine (wp_stepOneTarget hB h₁'.inv (h₁'.generated ▸ hlt) h₁'.pending (fun _ => h₁'.finish) false).bind ?_
  rintro (_ | _) s₂ h₂
  · exact (wp_exit _).2 h₂
  simp only [Bool.not_true, Bool.false_eq_true, if_false, wp_bind, wp_modify]
  have hleave : ∀ s₃ : State F L, s₃.core = s₂.core → s₃.frame = s₂.frame →
      wp B (exit .cont) Q (Exits e prompt c.batchTokens strict r₀) s₃ := by
    intro s₃ hc hr
    have hadv : Advanced e prompt c.batchTokens strict s.generated true s₃ := by
      refine ⟨?_, ?_⟩
      · rw [hc, hr]; exact h₂.1
      · exact (congrArg Frame.generated hr).trans (h₂.2.trans (congrArg (· + 1) h₁.generated))
    exact hadv.leave hle
  split_ifs
  · exact hleave _ rfl rfl
  · exact hleave _ rfl rfl

theorem wp_softSpecAndContinue : wp B (softSpecAndContinue e c) Q (Exits e prompt c.batchTokens strict r₀) s := by
  refine (wp_resetIfValid h.toBase false).bind fun _ s₁ h₁ => ?_
  refine (wp_stepOneSoftSpec hB h₁.inv (h₁.generated ▸ hlt) h₁.pending (fun _ => h₁.finish) c).bind
    fun _ _ h₂ => h₂.leave (h₁.generated ▸ hle)

theorem wp_baselineGates :
    wp B (baselineGates e c) (fun _ s' => s' = s ∧ Inv e prompt c.batchTokens strict s.core s.frame ∧ Calm s.spec)
      (Exits e prompt c.batchTokens strict r₀) s := by
  simp only [baselineGates, wp_bind, wp_get, wp_ite, wp_pure, true_and]
  refine ⟨fun _ => wp_resetAndStep hB h hlt hle false, fun hexec => ?_⟩
  refine ⟨fun _ => wp_resetAndStep hB h hlt hle true, fun _ => ?_⟩
  refine ⟨fun _ => wp_resetAndStep hB h hlt hle true, fun hhard => ?_⟩
  refine ⟨fun _ => wp_cooldownStep hB h hlt hle, fun hcool => ?_⟩
  refine ⟨fun _ => wp_softSpecAndContinue hB h hlt hle, fun hreuse => ?_⟩
  simp only [Bool.or_eq_true, Bool.not_eq_true', not_or, Bool.not_eq_false] at hexec hreuse
  refine ⟨⟨h.toBase, h.pend hexec.1.2 hreuse.1.2, h.finish⟩, fun hp => ?_⟩
  simpa [hp] using And.intro hhard hcool

end Gates

/-! ### The draft model catches up -/

structure Going (e : Env F L) (prompt : List Token) (c : Call F) (strict : Prop) (r₀ : Frame L)
    (s : State F L) : Prop where
  inv : Inv e prompt c.batchTokens strict s.core s.frame
  lt : s.generated < c.batchTokens
  le : r₀.generated ≤ s.generated
  measure : measure c.batchTokens s.frame ≤ measure c.batchTokens r₀

/-- Only the draft model and what gates the speculation has changed. -/
structure Quiet (s s' : State F L) : Prop where
  core : s'.core = s.core
  frame : s'.frame = s.frame
  profit : s'.spec.profit = s.spec.profit

theorem Quiet.trans {s₁ s₂ : State F L} (h : Quiet s s₁) (h' : Quiet s₁ s₂) : Quiet s s₂ :=
  ⟨h'.core.trans h.core, h'.frame.trans h.frame, h'.profit.trans h.profit⟩

variable {s' : State F L}

theorem Quiet.ring (h : Quiet s s') : s'.spec.ring = s.spec.ring := congrArg Frame.ring h.frame

theorem Quiet.pendingPos (h : Quiet s s') : s'.pendingPos = s.pendingPos := by
  have hpos : s'.posTarget = s.posTarget := congrArg Core.posTarget h.core
  rw [State.pendingPos, State.pendingPos, hpos, h.ring]

theorem Quiet.calm (h : Quiet s s') (hc : Calm s.spec) : Calm s'.spec := by
  unfold Calm
  rw [h.ring, h.profit]
  exact hc

theorem Going.quiet (h : Going e prompt c strict r₀ s) (hq : Quiet s s') : Going e prompt c strict r₀ s' where
  inv := by rw [hq.core, hq.frame]; exact h.inv
  lt := by rw [show s'.generated = s.generated from congrArg Frame.generated hq.frame]; exact h.lt
  le := by rw [show s'.generated = s.generated from congrArg Frame.generated hq.frame]; exact h.le
  measure := by rw [hq.frame]; exact h.measure

theorem Emptied.quiet (h : Emptied e prompt batch s₀ s) (hq : Quiet s s') : Emptied e prompt batch s₀ s' where
  base := by rw [hq.core, hq.frame]; exact h.base
  pending := by rw [hq.ring]; exact h.pending
  finish := by rw [hq.ring]; exact h.finish
  generated := (congrArg Frame.generated hq.frame).trans h.generated

theorem wp_rollbackDraft (pos : Nat) : wp B (rollbackDraftTo e pos) (fun _ s' => Quiet s s') E s :=
  wp_rollbackDraftTo.2 ⟨rfl, rfl, rfl⟩

theorem Going.wp_reset {α : Type} {Q : α → State F L → Prop} (hB : Clean B e strict)
    (h : Going e prompt c strict r₀ s) (preserve syncDraft : Bool) :
    wp B (do resetSpecState true preserve; stepAndContinue e syncDraft) Q
      (Exits e prompt c.batchTokens strict r₀) s :=
  (wp_resetSpecState h.inv.toBase preserve).bind fun _ _ h' => h'.step hB h.lt h.le syncDraft

theorem wp_decodeEachDraft (ts : List Token) :
    wp B (decodeEachDraft e ts) (fun ok s' => Quiet s s' ∧ (ok = true → s'.posDraft = s.posDraft + ts.length) ∧
      (ok = false → ∃ n, e.draftFails n = true)) E s := by
  induction ts generalizing s with
  | nil => exact (wp_pure _).2 ⟨⟨rfl, rfl, rfl⟩, fun _ => rfl, (fun h => by cases h)⟩
  | cons t ts ih =>
    simp only [decodeEachDraft, wp_bind, wp_decodeDraft, Bool.false_eq_true, if_false, if_true, wp_pure]
    refine ⟨fun hfail => ⟨⟨rfl, rfl, rfl⟩, (fun h => by cases h), fun _ => ⟨_, hfail⟩⟩, fun _ => ih.imp ?_⟩
    rintro ok s' ⟨hq, hpos, hfail⟩
    refine ⟨⟨hq.core, hq.frame, hq.profit⟩, fun hok => ?_, hfail⟩
    exact (hpos hok).trans (by simp only [List.length_cons, List.length_nil]; omega)

theorem wp_replayDeferred (hB : Clean B e strict) (h : Going e prompt c strict r₀ s) :
    wp B (replayDeferred e) (fun _ s' => Quiet s s') (Exits e prompt c.batchTokens strict r₀) s := by
  simp only [replayDeferred, wp_bind, wp_get, wp_ite, wp_pure, wp_decodeDraft]
  refine ⟨fun _ => ⟨rfl, rfl, rfl⟩, fun _ => ⟨fun _ => ⟨(fun h => by cases h), fun _ => ?_⟩,
    fun _ => ⟨fun _ => ?_, fun h => absurd trivial h⟩⟩⟩
  · have h' : Going e prompt c strict r₀ { s with tick := s.tick + 1 } := h.quiet ⟨rfl, rfl, rfl⟩
    exact (wp_bind _ _).1 (h'.wp_reset hB true false)
  · exact (wp_modify _).2 ⟨rfl, rfl, rfl⟩

theorem wp_ensureDraftPendingSynced : wp B (ensureDraftPendingSynced e) (fun ok s' => Quiet s s' ∧
      (ok = true → e.hasDraft = true → s'.posDraft = s'.pendingPos)) E s := by
  simp only [ensureDraftPendingSynced, wp_bind, wp_get, wp_ite, wp_pure, wp_modify]
  refine ⟨fun hc => ⟨⟨rfl, rfl, rfl⟩, fun _ hd => by simpa [hd] using hc⟩, fun _ => ?_⟩
  refine (wp_decodeEachDraft _).imp ?_
  rintro ok s' ⟨hq, hpos, -⟩
  have hq' : Quiet s s' := ⟨hq.core, hq.frame, hq.profit⟩
  refine ⟨hq', fun hok _ => ?_⟩
  rw [hpos hok, hq'.pendingPos, State.pendingPos, Ring.tokens, List.length_map]

theorem wp_catchUpDraft (hB : Clean B e strict) (h : Going e prompt c strict r₀ s) :
    wp B (catchUpDraft e) (fun _ s' => Quiet s s' ∧ (e.hasDraft = true → s'.posDraft = s'.pendingPos))
      (Exits e prompt c.batchTokens strict r₀) s := by
  have hvalid : (!s.spec.ring.pending.isEmpty && !s.spec.ring.valid) = false := by
    cases hp : s.spec.ring.pending with
    | nil => rfl
    | cons p ps => simp [show s.spec.ring.valid = true from h.inv.valid (.inl (by simp [hp, State.frame]))]
  unfold catchUpDraft
  rw [wp_bind, wp_get, wp_bind, hvalid, wp_when]
  refine ⟨(fun h => by cases h), fun _ => (wp_replayDeferred hB h).bind fun _ s₁ h₁ => ?_⟩
  refine wp_ensureDraftPendingSynced.bind fun ok s₂ hpost => ?_
  obtain ⟨h₂, hpos⟩ := hpost
  have h' := h₁.trans h₂
  rw [wp_when]
  refine ⟨fun _ => (h.quiet h').wp_reset hB false true, fun hok => ⟨h', hpos ?_⟩⟩
  simpa using hok

theorem wp_dropMisaligned (h : Inv e prompt batch strict s.core s.frame) :
    wp B dropMisaligned (fun _ s' => s' = s) E s := by
  simp only [dropMisaligned, wp_bind, wp_get, wp_when]
  refine ⟨fun hc => ?_, fun _ => trivial⟩
  simp only [Bool.and_eq_true, Bool.not_eq_true', List.isEmpty_eq_false_iff, decide_eq_true_eq] at hc
  have hmax := (h.pend hc.1).holds.seqPosMax
  refine absurd (hmax.trans ?_) hc.2
  rw [List.length_append, State.pendingPos, show s.posTarget = (prompt ++ s.printed).length from h.live.pos,
    Ring.tokens, List.length_map]
  rfl

theorem State.baseRow_isSome (h : Live e prompt s.core) : ∃ row, s.baseRow = some row := by
  unfold State.baseRow
  cases s.spec.ring.pending.getLast? with
  | none => exact Option.isSome_iff_exists.1 h.hasRow
  | some p => exact ⟨p.row, rfl⟩

theorem wp_entropyGate (h : Live e prompt s.core) (accept : F) :
    wp B (entropyGate e accept) (fun head s' => Quiet s s' ∧ s'.posDraft = s.posDraft ∧
      ∃ n, head.allowEogBase = e.allowEog n) E s := by
  obtain ⟨row, hrow⟩ := State.baseRow_isSome h
  simp only [entropyGate, wp_bind, wp_get, hrow, wp_modify, wp_pure]
  exact ⟨⟨rfl, rfl, rfl⟩, trivial, s.printed.length, rfl⟩

/-! ### Committing -/

def Core.commit (k : Core L) (r : Ring L) (n : Nat) : Core L :=
  let printed := k.printed ++ (r.pending.take n).map (·.token)
  let row := some (((r.pending.take n).getLast?.map (·.row)).getD [])
  { mem := k.mem.seqCp r.seqId 0 k.posTarget (k.posTarget + n)
    row
    posTarget := k.posTarget + n
    printed
    fresh := true
    commits := k.commits ++ [(printed, row)] }

def Frame.commit (r : Frame L) (n : Nat) : Frame L :=
  { r with
    ring.pending := r.ring.pending.drop n
    printedThisCall := r.printedThisCall + n
    generated := r.generated + n }

section Commit

variable {n : Nat} {ring : Ring L}

theorem Aligned.commit_row (h : Aligned e prompt k ring) (hn : 0 < n) (hle : n ≤ ring.pending.length) :
    (k.commit ring n).row = some (e.target (prompt ++ (k.commit ring n).printed)) := by
  have hlast : (ring.pending.take n).getLast? = some ring.pending[n - 1] := by
    rw [List.getLast?_eq_getElem?, List.length_take, Nat.min_eq_left hle, List.getElem?_take,
      if_pos (Nat.sub_lt hn Nat.one_pos), List.getElem?_eq_getElem]
  have hrow := h.rows (n - 1) _ (List.getElem?_eq_getElem (Nat.lt_of_lt_of_le (Nat.sub_lt hn Nat.one_pos) hle))
  rw [Nat.sub_add_cancel hn, Ring.tokens, ← List.map_take, List.append_assoc] at hrow
  simp [Core.commit, hlast, hrow]

theorem Aligned.tokens_split (h : Aligned e prompt k ring) (n : Nat) :
    k.mem.Holds ring.seqId (prompt ++ (k.commit ring n).printed ++ (ring.pending.drop n).map (·.token)) ∧
      Follows (e.next prompt) [] ((k.commit ring n).printed ++ (ring.pending.drop n).map (·.token)) := by
  have hsplit : ring.tokens = (ring.pending.take n).map (·.token) ++ (ring.pending.drop n).map (·.token) := by
    rw [← List.map_append, List.take_append_drop, Ring.tokens]
  have hh := h.holds
  have hf := h.follows
  rw [hsplit, ← List.append_assoc] at hf
  rw [hsplit, ← List.append_assoc, List.append_assoc prompt] at hh
  exact ⟨hh, hf⟩

theorem Live.commit (h : Live e prompt k) (ha : Aligned e prompt k ring) (hn : 0 < n)
    (hle : n ≤ ring.pending.length) : Live e prompt (k.commit ring n) where
  seq0 := by
    have hcopy := ha.holds.seqCp_extend (n := n) h.seq0 rfl rfl
    rw [← h.pos, Ring.tokens, ← List.map_take, List.append_assoc] at hcopy
    exact hcopy
  pos := by
    simp only [Core.commit, h.pos, List.length_append, List.length_map, List.length_take, Nat.min_eq_left hle]
    omega
  follows := (follows_append.1 (ha.tokens_split n).2).1
  hasRow := rfl
  fresh _ := ha.commit_row hn hle
  others q hq := (h.others q hq).seqCp_ne hq
  commits c hc := by
    rcases List.mem_append.1 hc with hc | hc
    · exact h.commits c hc
    · rw [List.mem_singleton.1 hc]
      exact ha.commit_row hn hle

theorem Aligned.commit (h : Aligned e prompt k ring) (hq : ring.seqId ≠ 0) (n : Nat) :
    Aligned e prompt (k.commit ring n) { ring with pending := ring.pending.drop n } where
  holds := (h.tokens_split n).1.seqCp_ne hq
  follows := (h.tokens_split n).2
  rows i p hp := by
    rw [List.getElem?_drop] at hp
    have htake : ring.tokens.take (n + i + 1) =
        (ring.pending.take n).map (·.token) ++ ((ring.pending.drop n).map (·.token)).take (i + 1) := by
      rw [Ring.tokens, ← List.map_take, ← List.map_take, ← List.map_append, Nat.add_assoc, List.take_add]
    rw [h.rows _ p hp, htake]
    simp only [Core.commit, Ring.tokens, List.append_assoc]

theorem Inv.commit (h : Inv e prompt batch strict k r) (hn : 0 < n) (hle : n ≤ r.ring.pending.length)
    (hb : r.generated + n ≤ batch) : Inv e prompt batch strict (k.commit r.ring n) (r.commit n) := by
  have hne : r.ring.pending ≠ [] := List.ne_nil_of_length_pos (Nat.lt_of_lt_of_le hn hle)
  have ha := h.pend hne
  refine ⟨⟨h.live.commit ha hn hle, h.unfinished, congrArg (· + n) h.counted, hb, h.seqId,
    fun _ => h.valid (.inl hne), ?_⟩, fun _ => ha.commit h.seqId n, fun hs hf => ?_⟩
  · exact Nat.le_trans (List.length_drop ▸ Nat.sub_le _ _) h.cap
  · have hend := h.finish hs hf
    simp only [Core.commit, Frame.commit, Ring.tokens, List.append_assoc]
    rwa [← List.map_append, List.take_append_drop]

theorem wp_printTokens (ts : List Token)
    (hE : ∀ us rest s', ts = us ++ rest → s'.core = { s.core with printed := s.printed ++ us } →
      s'.frame = { s.frame with printedThisCall := s.printedThisCall + us.length, finished := true } →
      (∃ n, e.printFails n = true) → E (.ret ()) s') :
    wp B (printTokens e ts) (fun _ s' => s'.core = { s.core with printed := s.printed ++ ts } ∧
      s'.frame = { s.frame with printedThisCall := s.printedThisCall + ts.length } ∧
      s'.posDraft = s.posDraft) E s := by
  induction ts generalizing s with
  | nil => exact (wp_pure _).2 ⟨by rw [List.append_nil]; rfl, rfl, rfl⟩
  | cons t ts ih =>
    simp only [printTokens, wp_bind, wp_countPrinted, Bool.false_eq_true, if_false, if_true, wp_abort, wp_modify]
    refine ⟨fun hfail => ?_, fun _ => ?_⟩
    · rw [Bool.and_eq_true] at hfail
      exact hE [] (t :: ts) _ rfl (by rw [List.append_nil]; rfl) rfl ⟨_, hfail.2⟩
    · refine (ih fun us rest s' hts hc hf hfail => hE (t :: us) rest s' (by rw [hts]; rfl) ?_ ?_ hfail).imp ?_
      · rw [hc]; simp [State.core, State.hashToken, State.row]
      · rw [hf]; simp [State.frame, State.hashToken]; omega
      · rintro _ s' ⟨hc, hf, hpos⟩
        refine ⟨?_, ?_, hpos⟩
        · rw [hc]; simp [State.core, State.hashToken, State.row]
        · rw [hf]; simp [State.frame, State.hashToken]; omega

theorem wp_commitPending (hB : Clean B e strict) (h : Inv e prompt batch strict s.core s.frame) (hn : 0 < n)
    (hle : n ≤ s.spec.ring.pending.length) (hb : s.generated + n ≤ batch) :
    wp B (commitPending e n) (fun _ s' => s'.core = s.core.commit s.spec.ring n ∧ s'.frame = s.frame.commit n ∧
      s'.posDraft = s.posDraft) (Exits e prompt batch strict r₀) s := by
  have hne : s.spec.ring.pending ≠ [] := List.ne_nil_of_length_pos (Nat.lt_of_lt_of_le hn hle)
  have hlen : ((s.spec.ring.pending.take n).map (·.token)).length = n := by
    rw [List.length_map, List.length_take, Nat.min_eq_left hle]
  simp only [commitPending, wp_bind, wp_get, wp_when, wp_abort, wp_modify, wp_seqCpTarget]
  refine ⟨fun hdet => ⟨h.toBase.rest_finished fun hs => ?_, rfl, fun hs => ?_⟩, fun _ => ?_⟩
  · simp [determinismFails, hB.determinism hs] at hdet
  · simp [determinismFails, hB.determinism hs] at hdet
  refine (wp_printTokens _ fun us rest s' hts hc hf hfail => ?_).imp ?_
  · have hfol := (follows_append.1 ((h.pend hne).tokens_split n).2).1
    simp only [Core.commit, State.frame] at hfol
    rw [hts, ← List.append_assoc] at hfol
    have hns : ¬ strict := fun hs => by obtain ⟨m, hm⟩ := hfail; simp [hB.print hs m] at hm
    refine ⟨⟨?_, ?_, ?_, ?_, fun hs => absurd hs hns⟩, congrArg Frame.finished hf, hns⟩
    · rw [hc]; exact (follows_append.1 hfol).1
    · rw [hc]; exact h.live.commits
    · rw [hf]
      have hus : us.length ≤ n := by rw [← hlen, hts, List.length_append]; exact Nat.le_add_right _ _
      have hcount : s.printedThisCall = s.generated := h.counted
      show s.printedThisCall + us.length ≤ batch
      omega
    · rw [hf]; exact fun hfin => Bool.noConfusion hfin
  · rintro _ s' ⟨hc, hf, hpos⟩
    rw [hlen] at hf
    refine ⟨?_, ?_, hpos⟩
    · show (⟨s'.core.mem, s'.core.row, s'.core.posTarget + n, s'.core.printed, true,
        s'.core.commits ++ [(s'.core.printed, s'.core.row)]⟩ : Core L) = _
      rw [hc]
      rfl
    · show ({ s'.frame with
        ring.pending := s'.frame.ring.pending.drop n, generated := s'.frame.generated + n } : Frame L) = _
      rw [hf]
      rfl

end Commit

/-! ### The pending phase -/

section Age

variable {f : PendingToken L → PendingToken L} {ring : Ring L}

theorem Ring.tokens_age (ht : ∀ p, (f p).token = p.token) (ring : Ring L) :
    { ring with pending := ring.pending.map f }.tokens = ring.tokens := by
  unfold Ring.tokens
  rw [List.map_map]
  exact List.map_congr_left fun p _ => ht p

theorem Aligned.age (h : Aligned e prompt k ring) (ht : ∀ p, (f p).token = p.token) (hr : ∀ p, (f p).row = p.row) :
    Aligned e prompt k { ring with pending := ring.pending.map f } where
  holds := by rw [Ring.tokens_age ht]; exact h.holds
  follows := by rw [Ring.tokens_age ht]; exact h.follows
  rows i p hp := by
    simp only [List.getElem?_map, Option.map_eq_some_iff] at hp
    obtain ⟨p₀, hp₀, rfl⟩ := hp
    rw [Ring.tokens_age ht, hr]
    exact h.rows i p₀ hp₀

theorem Inv.age (h : Inv e prompt batch strict k r) (ht : ∀ p, (f p).token = p.token) (hr : ∀ p, (f p).row = p.row) :
    Inv e prompt batch strict k { r with ring.pending := r.ring.pending.map f } := by
  have hnil : r.ring.pending.map f ≠ [] → r.ring.pending ≠ [] := fun hne hp => hne (by rw [hp]; rfl)
  refine ⟨⟨h.live, h.unfinished, h.counted, h.budget, h.seqId, fun hor => h.valid (hor.imp_left hnil), ?_⟩,
    fun hne => (h.pend (hnil hne)).age ht hr, fun hs hf => ?_⟩
  · exact (List.length_map f).trans_le h.cap
  · rw [Ring.tokens_age ht]
    exact h.finish hs hf

end Age

theorem ageToken_token (reset decay : Bool) (inc step : Nat) (p : PendingToken L) :
    (ageToken reset decay inc step p).token = p.token := by
  unfold ageToken
  split_ifs <;> rfl

theorem ageToken_row (reset decay : Bool) (inc step : Nat) (p : PendingToken L) :
    (ageToken reset decay inc step p).row = p.row := by
  unfold ageToken
  split_ifs <;> rfl

structure Settled (e : Env F L) (prompt : List Token) (c : Call F) (strict : Prop) (r₀ : Frame L)
    (s : State F L) : Prop where
  inv : Inv e prompt c.batchTokens strict s.core s.frame
  le : r₀.generated ≤ s.generated
  measure : measure c.batchTokens s.frame ≤ measure c.batchTokens r₀
  progress : Executor.measure c.batchTokens s.frame < Executor.measure c.batchTokens r₀ ∨ Calm s.spec
  unflushed : s.spec.ring.finishPending = false → s.spec.ring.pending ≠ [] → flushNow s.spec.ring = false
  finishing : s.spec.ring.finishPending = true → s.spec.ring.pending ≠ [] → c.batchTokens ≤ s.generated
  draft : e.hasDraft = true → s.posDraft = s.pendingPos

variable (h : Going e prompt c strict r₀ s)

include h

theorem Settled.of_commit {n : Nat}
    (hd : e.hasDraft = true → s.posDraft = s.pendingPos) (hn : 0 < n) (hle : n ≤ s.spec.ring.pending.length)
    (hb : s.generated + n ≤ c.batchTokens)
    (hfull : s.spec.ring.finishPending = true → n = min s.spec.ring.pending.length (c.batchTokens - s.generated))
    (hk : s'.core = s.core.commit s.spec.ring n) (hr : s'.frame = s.frame.commit n)
    (hpos : s'.posDraft = s.posDraft) : Settled e prompt c strict r₀ { s' with spec.ring.flushPending := false } := by
  have hinv := h.inv.commit hn hle hb
  have hring : s'.spec.ring = { s.spec.ring with pending := s.spec.ring.pending.drop n } :=
    congrArg Frame.ring hr
  have hgen : s'.generated = s.generated + n := congrArg Frame.generated hr
  have hlt : Executor.measure c.batchTokens { s' with spec.ring.flushPending := false }.frame <
      Executor.measure c.batchTokens r₀ := by
    have hle' := h.le
    refine measure_lt_of_generated ?_ ?_
    · show r₀.generated < s'.generated
      omega
    · show s'.generated ≤ c.batchTokens
      omega
  refine ⟨?_, ?_, Nat.le_of_lt hlt, .inl hlt, fun hf _ => ?_, fun hf hne => ?_, fun hd' => ?_⟩
  · rw [show s.core.commit s.frame.ring n = s'.core from hk.symm, ← hr] at hinv
    exact hinv.setFlush false
  · show r₀.generated ≤ s'.generated
    exact hgen ▸ Nat.le_add_right_of_le h.le
  · have hcap : s.spec.ring.pending.length ≤ 64 := h.inv.cap
    have hlen : s'.spec.ring.pending.length = s.spec.ring.pending.length - n := by rw [hring, List.length_drop]
    have hf' : s'.spec.ring.finishPending = false := hf
    simp only [flushNow, hf', Bool.false_or, decide_eq_false_iff_not]
    omega
  · -- a flush that leaves tokens behind has used the budget up
    have hf' : s'.spec.ring.finishPending = true := hf
    have hne' : s'.spec.ring.pending ≠ [] := hne
    rw [hring] at hf' hne'
    have hpos' := List.length_pos_iff.2 hne'
    have hn' := hfull hf'
    rw [List.length_drop] at hpos'
    show c.batchTokens ≤ s'.generated
    omega
  · have hp : s'.posTarget = s.posTarget + n := congrArg Core.posTarget hk
    have hbase := hd hd'
    show s'.posDraft = s'.posTarget + s'.spec.ring.pending.length
    rw [hpos, hbase, State.pendingPos, hp, hring, List.length_drop]
    omega

omit h in
theorem commitCount_le_length (flush safety : Bool) (ps : List (PendingToken L)) :
    commitCount flush safety ps ≤ ps.length := by
  unfold commitCount
  split_ifs
  · exact Nat.le_refl _
  · exact Nat.zero_le _
  · exact (List.takeWhile_prefix _).length_le

theorem wp_commitAged (hB : Clean B e strict) (hne : s.spec.ring.pending ≠ [])
    (hd : e.hasDraft = true → s.posDraft = s.pendingPos) (safety : Bool) :
    wp B (commitAged e c (flushNow s.spec.ring) safety) (fun _ s' => Settled e prompt c strict r₀ s')
      (Exits e prompt c.batchTokens strict r₀) s := by
  have hlt := h.lt
  simp only [commitAged, wp_bind, wp_get, wp_when, wp_modify, decide_eq_true_eq, decide_eq_false_iff_not]
  generalize hn : min (commitCount (flushNow s.spec.ring) safety s.spec.ring.pending)
    (c.batchTokens - s.generated) = n
  refine ⟨fun hpos => ?_, fun hzero => ?_⟩
  · have hcount := commitCount_le_length (flushNow s.spec.ring) safety s.spec.ring.pending
    have hle : n ≤ s.spec.ring.pending.length := by omega
    have hb : s.generated + n ≤ c.batchTokens := by omega
    refine (wp_commitPending hB h.inv hpos hle hb).imp fun _ s' hpost => ?_
    obtain ⟨hk, hr, hp⟩ := hpost
    rw [if_pos (by simp [hpos])]
    refine Settled.of_commit h hd hpos hle hb (fun hfin => ?_) hk hr hp
    rw [← hn, flushNow, hfin, Bool.or_true, Bool.true_or, commitCount, if_pos rfl]
  · -- the budget is not used up, so nothing is flushed
    have hflush : flushNow s.spec.ring = false := by
      by_contra hf
      rw [Bool.not_eq_false] at hf
      have := List.length_pos_iff.2 hne
      rw [hf, commitCount, if_pos rfl] at hn
      omega
    rw [if_neg (by simp [hne, hzero])]
    refine ⟨h.inv, h.le, h.measure, .inr fun hp => absurd hp hne, fun _ _ => hflush, fun hfin _ => ?_, hd⟩
    rw [flushNow, hfin, Bool.or_true, Bool.true_or] at hflush
    exact Bool.noConfusion hflush

omit h in
theorem wp_leaveIfFinishing (h : Settled e prompt c strict r₀ s) :
    wp B leaveIfFinishing (fun _ s' => s' = s ∧ s.spec.ring.finishPending = false)
      (Exits e prompt c.batchTokens strict r₀) s := by
  simp only [leaveIfFinishing, wp_bind, wp_get, wp_when, wp_finish, wp_exit, true_and]
  refine ⟨fun hf => ⟨fun hp => ?_, fun hp => h.inv.rest (h.finishing hf (List.isEmpty_eq_false_iff.1 hp))⟩,
    fun hf => hf⟩
  refine h.inv.toBase.rest_finished fun hs => ?_
  have hend := h.inv.finish hs hf
  simp only [State.frame, Ring.tokens, List.isEmpty_iff.1 hp, List.map_nil, List.append_nil] at hend
  exact hend

theorem wp_dropPending (hB : Clean B e strict) :
    wp B (dropPending e) Q (Exits e prompt c.batchTokens strict r₀) s := by
  unfold dropPending
  rw [wp_bind, wp_get, wp_bind, wp_note]
  intro hdrop
  rw [wp_bind, wp_modify]
  have hf : strict → s.spec.ring.finishPending = false := fun hs => by
    rw [← Bool.not_eq_true]; exact fun hf => hdrop hf (hB.dropped hs)
  have hb : Base e prompt c.batchTokens s.core
      { s.frame with ring.pending := [], ring.flushPending := false } :=
    ⟨h.inv.live, h.inv.unfinished, h.inv.counted, h.inv.budget, h.inv.seqId,
      fun hor => h.inv.valid (hor.imp_left fun hne => absurd rfl hne), Nat.zero_le _⟩
  exact wp_stepAndContinue (s := { s with spec.ring.pending := [], spec.ring.flushPending := false }) hB
    (hb.inv_of_empty rfl hf) h.lt rfl hf h.le true

omit h in
theorem flushNow_age (f : PendingToken L → PendingToken L) (ring : Ring L) :
    flushNow { ring with pending := ring.pending.map f } = flushNow ring := by
  simp [flushNow]

omit h in
theorem measure_age (f : PendingToken L → PendingToken L) (r : Frame L) :
    measure batch { r with ring.pending := r.ring.pending.map f } = measure batch r := by
  unfold measure
  rw [flushNow_age, List.length_map]

theorem Going.age (reset decay : Bool) (inc step : Nat) : Going e prompt c strict r₀ { s with
      spec.ring.pending := s.spec.ring.pending.map (ageToken reset decay inc step) } := by
  refine ⟨h.inv.age (ageToken_token _ _ _ _) (ageToken_row _ _ _ _), h.lt, h.le, ?_⟩
  exact Nat.le_trans (Nat.le_of_eq (measure_age _ s.frame)) h.measure

theorem wp_commitOrDrop (hB : Clean B e strict) (hne : s.spec.ring.pending ≠ [])
    (hd : e.hasDraft = true → s.posDraft = s.pendingPos) {flush : Bool} (hf : flush = flushNow s.spec.ring)
    (safety : Bool) : wp B (if c.allowCommit then do
        commitAged e c flush safety
        leaveIfFinishing
      else dropPending e) (fun _ s' => Settled e prompt c strict r₀ s' ∧
        (s'.spec.ring.pending ≠ [] → flushNow s'.spec.ring = false))
      (Exits e prompt c.batchTokens strict r₀) s := by
  subst hf
  rw [wp_ite]
  refine ⟨fun _ => ?_, fun _ => wp_dropPending h hB⟩
  refine (wp_commitAged h hB hne hd safety).bind fun _ s₁ h₁ => ?_
  refine (wp_leaveIfFinishing h₁).imp fun _ s₂ hpost => ?_
  obtain ⟨hs, hfin⟩ := hpost
  subst hs
  exact ⟨h₁, h₁.unflushed hfin⟩

theorem wp_pendingPhase (hB : Clean B e strict) (hc : Calm s.spec)
    (hd : e.hasDraft = true → s.posDraft = s.pendingPos) (head : Head F) :
    wp B (pendingPhase e c head) (fun _ s' => Settled e prompt c strict r₀ s' ∧
      (s'.spec.ring.pending ≠ [] → flushNow s'.spec.ring = false)) (Exits e prompt c.batchTokens strict r₀) s := by
  simp only [pendingPhase, wp_bind, wp_get, wp_when, wp_modify, Bool.not_eq_true', Bool.not_eq_false',
    List.isEmpty_iff, List.isEmpty_eq_false_iff]
  refine ⟨fun hne => ?_, fun hp => ⟨⟨h.inv, h.le, h.measure, .inr hc, fun _ hne => absurd hp hne,
    fun _ hne => absurd hp hne, hd⟩, fun hne => absurd hp hne⟩⟩
  refine wp_commitOrDrop (h.age _ _ _ _) hB (fun hp => hne (List.map_eq_nil_iff.1 hp)) (fun hd' => ?_)
    (flushNow_age _ _).symm _
  refine (hd hd').trans ?_
  simp [State.pendingPos]

omit h

structure Headed (e : Env F L) (prompt : List Token) (c : Call F) (strict : Prop) (r₀ : Frame L)
    (s : State F L) : Prop extends Going e prompt c strict r₀ s where
  finish : s.spec.ring.finishPending = false
  unflushed : s.spec.ring.pending ≠ [] → flushNow s.spec.ring = false
  draft : e.hasDraft = true → s.posDraft = s.pendingPos

theorem wp_leaveIfDone (h : Settled e prompt c strict r₀ s)
    (hu : s.spec.ring.pending ≠ [] → flushNow s.spec.ring = false) :
    wp B (leaveIfDone c) (fun _ s' => Headed e prompt c strict r₀ s') (Exits e prompt c.batchTokens strict r₀) s := by
  simp only [leaveIfDone, wp_bind, wp_get, wp_ite, wp_finish, wp_exit, wp_pure, Bool.and_eq_true,
    List.isEmpty_iff, Bool.or_eq_true, decide_eq_true_eq, Nat.not_le]
  refine ⟨fun hdone => ?_, fun hf => ⟨fun hge => h.inv.rest hge, fun hlt => ⟨fun hcalm => ?_, fun _ => ?_⟩⟩⟩
  · obtain ⟨hf, hp⟩ := hdone
    refine h.inv.toBase.rest_finished fun hs => ?_
    have hend := h.inv.finish hs hf
    simp only [State.frame, Ring.tokens, hp, List.map_nil, List.append_nil] at hend
    exact hend
  · -- the cooldown has started with a commit of this iteration
    obtain ⟨hcool, hp⟩ := hcalm
    refine ⟨h.inv, h.progress.resolve_right fun hcalm => ?_⟩
    have := hcalm hp
    simp [this] at hcool
  · refine ⟨⟨h.inv, hlt, h.le, h.measure⟩, ?_, hu, h.draft⟩
    rw [← Bool.not_eq_true]
    intro hfin
    by_cases hp : s.spec.ring.pending = []
    · exact hf ⟨hfin, hp⟩
    · simpa [flushNow, hfin] using hu hp

theorem wp_loopHead (hB : Clean B e strict) (h : AtHead e prompt c strict s.core s.frame)
    (hlt : s.generated < c.batchTokens) : wp B (loopHead e c)
      (fun head s' => Headed e prompt c strict s.frame s' ∧ ∃ n, head.allowEogBase = e.allowEog n)
      (Exits e prompt c.batchTokens strict s.frame) s := by
  unfold loopHead
  refine (wp_flushIfDisabled h).bind fun _ s₁ hpost => ?_
  obtain ⟨h₁, hgen, hm⟩ := hpost
  have hlt₁ : s₁.generated < c.batchTokens := hgen ▸ hlt
  have hle₁ : s.frame.generated ≤ s₁.generated := Nat.le_of_eq hgen.symm
  refine (wp_baselineGates hB h₁ hlt₁ hle₁).bind fun _ s₂ hpost => ?_
  obtain ⟨hs₂, hinv, hcalm⟩ := hpost
  subst hs₂
  have hgo : Going e prompt c strict s.frame s₂ := ⟨hinv, hlt₁, hle₁, hm⟩
  refine (wp_catchUpDraft hB hgo).bind fun _ s₃ hpost => ?_
  obtain ⟨h₃, hd₃⟩ := hpost
  rw [wp_bind, wp_get]
  refine (wp_dropMisaligned (hgo.quiet h₃).inv).bind fun _ s₄ hs₄ => ?_
  subst hs₄
  refine (wp_entropyGate (hgo.quiet h₃).inv.live _).bind fun head s₅ hpost => ?_
  obtain ⟨h₅, hd₅, hallow⟩ := hpost
  have hq := h₃.trans h₅
  refine (wp_pendingPhase (hgo.quiet hq) hB (hq.calm hcalm) (fun hd => ?_) head).bind fun _ s₆ hpost => ?_
  · rw [hd₅, h₅.pendingPos]
    exact hd₃ hd
  · obtain ⟨h₆, hu⟩ := hpost
    exact (wp_leaveIfDone h₆ hu).bind fun _ s₇ h₇ => (wp_pure _).2 ⟨h₇, hallow⟩

end Korith.Executor
