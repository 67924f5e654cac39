import Korith.Proofs.SpecV2Runs

/-!
# When the v2 draft keeps in step with the target

At the start of an iteration the draft is in step (`InSync`) if its position, its cells and its row are those of the
tokens that the target holds. Missing logits never do harm. A failed decode does in three places, each time with the
draft one cell behind (`Behind`): the sampled token; the correction after a mismatch; and the last proposed token, if
the target accepts all of the proposal.
-/

namespace Korith.SpecV2

open Exec

set_option linter.unusedSectionVars false

variable {L : Type} [LinearOrder L] {e : Env L} {prompt : List Token} {maxTokens : Nat} {s s' : State L}

/-- The draft's cells, its position and its row, if it has one, are those of the tokens `xs`. -/
structure DraftAt (e : Env L) (xs : List Token) (s : State L) : Prop where
  holds : s.ctxDraft.mem.Holds 0 xs
  pos_eq : s.posDraft = xs.length
  row : s.logitsDraft = none ∨ ∃ n, s.draftRow = some (e.draft n xs)

theorem DraftAt.congr {xs : List Token} (h : DraftAt e xs s) (hc : s'.ctxDraft = s.ctxDraft)
    (hp : s'.posDraft = s.posDraft) (hl : s'.logitsDraft = s.logitsDraft) : DraftAt e xs s' where
  holds := hc ▸ h.holds
  pos_eq := hp.trans h.pos_eq
  row := by
    rw [State.draftRow, hl, hc]
    exact h.row

structure InSync (e : Env L) (s : State L) : Prop where
  pos_eq : s.posDraft = s.posTarget
  cells : ∃ xs, s.ctxTarget.mem.Holds 0 xs ∧ DraftAt e xs s

/-- The draft lacks the cell of the last emitted token. -/
def Behind (prompt : List Token) (s : State L) : Prop :=
  ∃ ys t, s.emitted = ys ++ [t] ∧ s.ctxDraft.mem.Holds 0 (prompt ++ ys)

theorem inSync_iff {xs : List Token} {row : Option (List L)} (h : Live e xs s.ctxTarget.mem s.posTarget row) :
    InSync e s ↔ DraftAt e xs s := by
  constructor
  · rintro ⟨-, ys, hys, hd⟩
    rwa [hys.unique h.holds] at hd
  · intro hd
    exact ⟨hd.pos_eq.trans h.pos_eq.symm, xs, h.holds, hd⟩

theorem Behind.not_draftAt (h : Behind prompt s) : ¬ DraftAt e (prompt ++ s.emitted) s := by
  obtain ⟨ys, t, hem, hh⟩ := h
  intro hd
  have hlen := congrArg List.length (hd.holds.unique hh)
  rw [hem] at hlen
  simp at hlen

/-! ### What the draft proposes -/

/-- A proposal: its tokens, those of them whose decode went through, and the number of the next call. -/
structure Proposal where
  tokens : List Token
  cells : List Token
  tick : Nat

/-- What the draft proposes after the tokens `ys` with the row `row`, its calls numbered from `tick` on. -/
def proposal (e : Env L) : Nat → Nat → List Token → List L → Proposal
  | 0, tick, _, _ => ⟨[], [], tick⟩
  | k + 1, tick, ys, row =>
    match (greedySample (some row)).filter fun d => !e.isEog d with
    | none => ⟨[], [], tick⟩
    | some d =>
      if e.draftDecodeFails tick then ⟨[d], [], tick + 1⟩
      else if e.draftLogitsNull (tick + 1) then ⟨[d], [d], tick + 2⟩
      else
        let p := proposal e k (tick + 2) (ys ++ [d]) (e.draft tick (ys ++ [d]))
        ⟨d :: p.tokens, d :: p.cells, p.tick⟩

def agreed (e : Env L) : List Token → List Token → Nat
  | _, [] => 0
  | zs, d :: ds => if greedySample (some (e.target zs)) = some d then agreed e (zs ++ [d]) ds + 1 else 0

/-- The draft is in step after the target has verified the proposal `p` behind `ys`: if all is accepted, the
last token was decoded; if not, the correction is, in the third call after those of the batch and of the
accepted tokens. -/
def Proposal.harmless (e : Env L) (ys : List Token) (p : Proposal) : Bool :=
  if agreed e ys p.tokens = p.tokens.length then p.cells = p.tokens
  else !e.draftDecodeFails (p.tick + agreed e ys p.tokens + 3)

/-- Not the decode of the sampled token, which is fed in the call after its print, and none of those that follow. -/
def Harmless (e : Env L) (prompt : List Token) (s : State L) : Prop :=
  ∀ t0 ∈ next e prompt s.emitted,
    let ys := prompt ++ s.emitted ++ [t0]
    let p := proposal e s.dynK.k (s.tick + 3) ys (e.draft (s.tick + 1) ys)
    e.draftDecodeFails (s.tick + 1) = false ∧
      (e.draftLogitsNull (s.tick + 2) = false → p.harmless e ys)
  deriving Decidable

theorem proposal_cells (k tick : Nat) (ys : List Token) (row : List L) :
    (proposal e k tick ys row).cells = (proposal e k tick ys row).tokens ∨
      ∃ d, (proposal e k tick ys row).tokens = (proposal e k tick ys row).cells ++ [d] := by
  induction k generalizing tick ys row with
  | zero => exact .inl rfl
  | succ k ih =>
    rw [proposal]
    split
    · exact .inl rfl
    · rename_i d _
      split_ifs
      · exact .inr ⟨d, rfl⟩
      · exact .inl rfl
      · rcases ih (tick + 2) (ys ++ [d]) (e.draft tick (ys ++ [d])) with h | ⟨d', h⟩
        · exact .inl (congrArg (d :: ·) h)
        · exact .inr ⟨d', congrArg (d :: ·) h⟩

theorem agreed_le (zs ds : List Token) : agreed e zs ds ≤ ds.length := by
  induction ds generalizing zs with
  | nil => exact Nat.le_refl 0
  | cons d ds ih =>
    rw [agreed]
    split_ifs
    · exact Nat.succ_le_succ (ih _)
    · exact Nat.zero_le _

theorem compareDraft_fst (zs ds : List Token) (rows : List (List L))
    (hrows : ∀ i < ds.length, rows[i]? = some (e.target (zs ++ ds.take i))) :
    (compareDraft rows ds).1 = agreed e zs ds := by
  induction ds generalizing rows zs with
  | nil => rw [compareDraft, agreed]
  | cons d ds ih =>
    have h0 := hrows 0 (by simp)
    cases rows with
    | nil => simp at h0
    | cons row rows =>
      obtain rfl : row = e.target zs := by simpa using h0
      have hrest := ih (zs ++ [d]) rows fun i hi => by simpa using hrows (i + 1) (by simpa using hi)
      rw [compareDraft, agreed]
      split_ifs
      · rw [hrest]
      · rfl

/-! ### Exact states -/

def State.fed (e : Env L) (s : State L) (t : Token) : State L :=
  { s with
    tick := s.tick + 2
    ctxDraft := s.ctxDraft.decode (e.draft s.tick) 0 s.posDraft [t] true
    posDraft := s.posDraft + 1
    logitsDraft :=
      if e.draftLogitsNull (s.tick + 1) then none
      else getLogits (s.ctxDraft.decode (e.draft s.tick) 0 s.posDraft [t] true) }

section Fed

variable {xs : List Token} {t : Token}

theorem getLogits_decode_one {c : Ctx L} {model : List Token → List L} (h : c.mem.Holds 0 xs) :
    getLogits (c.decode model 0 xs.length [t] true) = some 0 := by
  simp [getLogits, Ctx.decode_one_out h]

theorem fed_logitsDraft (h : s.ctxDraft.mem.Holds 0 xs) (hpos : s.posDraft = xs.length) :
    (s.fed e t).logitsDraft = if e.draftLogitsNull (s.tick + 1) then none else some 0 := by
  simp only [State.fed, hpos, getLogits_decode_one h]

theorem fed_draftRow (h : s.ctxDraft.mem.Holds 0 xs) (hpos : s.posDraft = xs.length)
    (hnull : e.draftLogitsNull (s.tick + 1) = false) : (s.fed e t).draftRow = some (e.draft s.tick (xs ++ [t])) := by
  rw [State.draftRow, fed_logitsDraft h hpos, hnull]
  simp [State.fed, hpos, Ctx.decode_one_out h]

theorem fed_draftAt (h : s.ctxDraft.mem.Holds 0 xs) (hpos : s.posDraft = xs.length) :
    DraftAt e (xs ++ [t]) (s.fed e t) where
  holds := by
    simp only [State.fed, hpos]
    exact Ctx.decode_holds h
  pos_eq := by simp [State.fed, hpos]
  row := by
    cases hnull : e.draftLogitsNull (s.tick + 1) with
    | true => exact .inl (by rw [fed_logitsDraft h hpos, hnull]; rfl)
    | false => exact .inr ⟨s.tick, fed_draftRow h hpos hnull⟩

end Fed

/-! ### The calls -/

section Calls

variable {B : Empty → Prop} {E : Exit → State L → Prop} {pos : Nat} {Q : Unit → State L → Prop} {row : List L}

theorem wp_decodeDraft_iff {t : Token} {Q : Bool → State L → Prop} : wp B (decodeDraft e pos t) Q E s ↔
      if e.draftDecodeFails s.tick then Q false { s with tick := s.tick + 1 }
      else Q true { s with
        tick := s.tick + 1, ctxDraft := s.ctxDraft.decode (e.draft s.tick) 0 pos [t] true } := by
  cases h : e.draftDecodeFails s.tick <;> simp [decodeDraft, nextTick, h]

theorem wp_getLogitsDraft_iff : wp B (getLogitsDraft e) Q E s ↔
      Q () { s with
        tick := s.tick + 1
        logitsDraft := if e.draftLogitsNull s.tick then none else getLogits s.ctxDraft } := by
  simp [getLogitsDraft, nextTick]

theorem wp_stepTarget (ht : ∀ n, e.targetDecodeFails n = false) {t : Token} : wp B (stepTarget e pos t) Q E s ↔
      Q () { s with
        tick := s.tick + 1
        ctxTarget := s.ctxTarget.decode e.target 0 pos [t] true
        posTarget := pos + 1
        logitsTarget := getLogits (s.ctxTarget.decode e.target 0 pos [t] true) } := by
  simp [stepTarget, wp_decodeTarget, ht]

theorem propose_proposal (k : Nat) {ys : List Token} (h : DraftAt e ys s) (hrow : s.draftRow = some row) :
    wp B (propose e k)
      (fun ds s' => ds = (proposal e k s.tick ys row).tokens ∧ s'.tick = (proposal e k s.tick ys row).tick ∧
        s'.ctxDraft.mem.Holds 0 (ys ++ (proposal e k s.tick ys row).cells) ∧
        ((proposal e k s.tick ys row).cells = (proposal e k s.tick ys row).tokens →
          DraftAt e (ys ++ (proposal e k s.tick ys row).tokens) s')) E s := by
  induction k generalizing s ys row with
  | zero =>
    simp only [propose, proposal, wp_pure, List.append_nil]
    exact ⟨trivial, trivial, h.holds, fun _ => h⟩
  | succ k ih =>
    simp only [propose, proposal, wp_bind, wp_get, hrow]
    cases hd : greedySample (some row) with
    | none =>
      simp only [Option.filter_none, wp_pure, List.append_nil]
      exact ⟨trivial, trivial, h.holds, fun _ => h⟩
    | some d =>
      cases hend : e.isEog d with
      | true =>
        simp only [if_true, wp_pure, Option.filter, hend, Bool.not_true, Bool.false_eq_true, if_false, List.append_nil]
        exact ⟨trivial, trivial, h.holds, fun _ => h⟩
      | false =>
        simp only [Bool.false_eq_true, if_false, wp_bind, Option.filter, hend, Bool.not_false, if_true, wp_decodeDraft_iff]
        cases hfail : e.draftDecodeFails s.tick with
        | true =>
          simp only [if_true, wp_pure, List.append_nil]
          exact ⟨trivial, trivial, h.holds, fun hc => (by cases hc)⟩
        | false =>
          simp only [Bool.false_eq_true, if_false, wp_modify, wp_getLogitsDraft_iff, wp_get]
          change wp B (if (s.fed e d).logitsDraft.isNone = true then _ else _) _ E (s.fed e d)
          have hat : DraftAt e (ys ++ [d]) (s.fed e d) := fed_draftAt h.holds h.pos_eq
          rw [fed_logitsDraft h.holds h.pos_eq]
          cases hnull : e.draftLogitsNull (s.tick + 1) with
          | true =>
            simp only [if_true, Option.isNone_none, wp_pure]
            exact ⟨trivial, rfl, hat.holds, fun _ => hat⟩
          | false =>
            simp only [Bool.false_eq_true, if_false, Option.isNone_some]
            refine (ih hat (fed_draftRow h.holds h.pos_eq hnull)).bind fun ds s' hpost => ?_
            obtain ⟨rfl, htick, hcells, hrest⟩ := hpost
            rw [wp_pure]
            refine ⟨rfl, htick, ?_, fun hc => ?_⟩
            · rw [List.append_cons]
              exact hcells
            · rw [List.append_cons]
              exact hrest (List.cons.inj hc).2

end Calls

/-! ### The blocks of an iteration -/

def Drafted (e : Env L) (prompt : List Token) (ok : Prop) (s : State L) : Prop :=
  s.finished = false → (ok → DraftAt e (prompt ++ s.emitted) s) ∧ (¬ ok → Behind prompt s)

theorem Drafted.of_finished {ok : Prop} (h : s.finished = true) : Drafted e prompt ok s :=
  fun hf => absurd h (by simp [hf])

theorem Drafted.draftAt {ok : Prop} (hok : ok) (h : DraftAt e (prompt ++ s.emitted) s) : Drafted e prompt ok s :=
  fun _ => ⟨fun _ => h, fun hn => absurd hok hn⟩

theorem Drafted.behind {ok : Prop} (hok : ¬ ok) (h : Behind prompt s) : Drafted e prompt ok s :=
  fun _ => ⟨fun hy => absurd hy hok, fun _ => h⟩

section Blocks

variable {B : Empty → Prop} {old ds : List Token} {t0 : Token} {ok : Prop}

variable (ht : ∀ n, e.targetDecodeFails n = false)

include ht

theorem feedDraft_draft (hem : s.emitted = old ++ [t0])
    (hd : DraftAt e (prompt ++ old) s) (hfail : e.draftDecodeFails s.tick = true → ¬ ok)
    (hnull : e.draftDecodeFails s.tick = false → e.draftLogitsNull (s.tick + 1) = true → ok) : wp B (feedDraft e t0)
      (fun _ s' => e.draftDecodeFails s.tick = false ∧ e.draftLogitsNull (s.tick + 1) = false ∧ s' = s.fed e t0)
      (fun _ => Drafted e prompt ok) s := by
  simp only [feedDraft, wp_bind, wp_get, wp_decodeDraft_iff]
  cases hf : e.draftDecodeFails s.tick with
  | true =>
    simp only [if_true, Bool.false_eq_true, if_false, wp_bind, wp_stepTarget ht, wp_modify, wp_exit]
    exact Drafted.behind (hfail hf) ⟨old, t0, hem, hd.holds⟩
  | false =>
    simp only [Bool.false_eq_true, if_false, if_true, wp_bind, wp_modify, wp_getLogitsDraft_iff, wp_get]
    change wp B (if (s.fed e t0).logitsDraft.isNone = true then _ else _) _ _ (s.fed e t0)
    rw [fed_logitsDraft hd.holds hd.pos_eq]
    have hat : DraftAt e (prompt ++ s.emitted) (s.fed e t0) := by
      rw [hem, ← List.append_assoc]
      exact fed_draftAt hd.holds hd.pos_eq
    cases hn : e.draftLogitsNull (s.tick + 1) with
    | true =>
      simp only [if_true, Option.isNone_none, wp_bind, wp_stepTarget ht, wp_exit]
      exact Drafted.draftAt (hnull hf hn) (hat.congr rfl rfl rfl)
    | false =>
      simp only [Bool.false_eq_true, if_false, Option.isNone_some, wp_pure]
      exact ⟨trivial, trivial, trivial⟩

theorem decodeCorrection_draft {c : Token}
    (hem : s.emitted = old ++ [c]) (hh : s.ctxDraft.mem.Holds 0 (prompt ++ old)) (hpos : pos = (prompt ++ old).length)
    (hok : ok ↔ e.draftDecodeFails (s.tick + 1) = false) :
    wp B (decodeCorrection e pos c) (fun _ => Drafted e prompt ok) (fun _ => Drafted e prompt ok) s := by
  simp only [decodeCorrection, wp_bind, wp_decodeTarget, ht, Bool.false_eq_true, if_false, if_true, wp_modify,
    wp_decodeDraft_iff]
  cases hf : e.draftDecodeFails (s.tick + 1) with
  | true =>
    simp only [if_true]
    exact Drafted.behind (fun hy => absurd (hok.1 hy) (by simp [hf])) ⟨old, c, hem, hh⟩
  | false =>
    simp only [Bool.false_eq_true, if_false, wp_getLogitsDraft_iff]
    refine Drafted.draftAt (hok.2 hf) ?_
    -- the draft's side is that of a draft at `pos` that is fed `c`
    have hat := fed_draftAt (e := e) (t := c) (s := { s with tick := s.tick + 1, posDraft := pos }) hh hpos
    rw [List.append_assoc, ← hem] at hat
    exact hat.congr rfl rfl rfl

variable {nAcc pos0 : Nat} {cells : List Token} (hpos : pos0 = (prompt ++ old).length)
  (hcells : cells = ds ∨ ∃ d, ds = cells ++ [d])

include hpos hcells

omit ht in
theorem holds_rollback {m : Memory} (hh : m.Holds 0 (prompt ++ old ++ [t0] ++ cells)) (hlt : nAcc < ds.length) :
    (m.seqRm 0 (pos0 + nAcc + 1 : Nat) (pos0 + ds.length + 1 : Nat)).Holds 0 (prompt ++ (old ++ [t0] ++ ds.take nAcc)) := by
  have htake : cells.take nAcc = ds.take nAcc := by
    rcases hcells with rfl | ⟨d, rfl⟩
    · rfl
    · rw [List.length_append, List.length_singleton] at hlt
      rw [List.take_append_of_le_length (by omega)]
  have hlen : cells.length ≤ ds.length := by
    rcases hcells with rfl | ⟨d, rfl⟩
    · exact Nat.le_refl _
    · simp
  have hend : ((prompt ++ old ++ [t0] ++ cells).length : Int) ≤ (pos0 + ds.length + 1 : Nat) := by
    rw [List.length_append, List.length_append, List.length_singleton, ← hpos]
    omega
  have hcut := hh.seqRm (rfl : ((pos0 + nAcc + 1 : Nat) : Int) = _) (.inr hend)
  have hpos' : pos0 + nAcc + 1 = (prompt ++ old ++ [t0]).length + nAcc := by
    rw [List.length_append, List.length_singleton, ← hpos]
    omega
  rw [hpos', List.take_length_add_append, htake, ← hpos'] at hcut
  rwa [← List.append_assoc, ← List.append_assoc]

variable {correction : Option Token} (hh : s.ctxDraft.mem.Holds 0 (prompt ++ old ++ [t0] ++ cells))

include hh

theorem correct_draft (hem : s.emitted = old ++ [t0] ++ ds.take nAcc) (hlt : nAcc < ds.length)
    (hok : ok ↔ e.draftDecodeFails (s.tick + 2) = false) :
    wp B (correct e maxTokens pos0 nAcc ds.length correction) (fun _ => Drafted e prompt ok)
      (fun _ => Drafted e prompt ok) s := by
  have hrm : pos0 + nAcc + 1 < pos0 + ds.length + 1 := by omega
  have hcut := holds_rollback hpos hcells hh hlt
  simp only [correct, wp_bind, printCorrection]
  cases hc : correction.filter fun c => !e.isEog c with
  | none =>
    simp only [wp_modify, rollback, if_pos hrm, wp_get]
    have hnone : (correction.filter fun c => !e.isEog c && !true) = none := by
      cases correction <;> simp [Option.filter]
    rw [hnone, wp_modify]
    exact Drafted.of_finished rfl
  | some c =>
    obtain ⟨rfl, hce⟩ : correction = some c ∧ (!e.isEog c) = true := Option.filter_eq_some_iff.mp hc
    refine wp.mono (printToken_printed c) (fun _ s₁ h₁ => ?_) fun _ _ hf => Drafted.of_finished hf
    simp only [rollback, if_pos hrm, wp_modify, wp_get]
    cases hf : s₁.finished with
    | true =>
      simp only [Option.filter, Bool.not_true, Bool.and_false, Bool.false_eq_true, if_false, wp_modify]
      exact Drafted.of_finished rfl
    | false =>
      obtain rfl := h₁ hf
      simp only [Option.filter, hce, Bool.not_false, Bool.and_true, if_true]
      refine decodeCorrection_draft ht ?_ hcut ?_ hok
      · exact congrArg (· ++ [c]) hem
      rw [hpos, List.length_append, List.length_append, List.length_append, List.length_append, List.length_take,
        List.length_singleton]
      omega

theorem settle_draft (hem : s.emitted = old ++ [t0] ++ ds.take nAcc) (hle : nAcc ≤ ds.length)
    (hat : cells = ds → DraftAt e (prompt ++ old ++ [t0] ++ ds) s)
    (hok : ok ↔ if nAcc = ds.length then cells = ds else e.draftDecodeFails (s.tick + 2) = false) :
    wp B (settle e maxTokens pos0 nAcc ds.length correction) (fun _ => Drafted e prompt ok)
      (fun _ => Drafted e prompt ok) s := by
  unfold settle
  split_ifs with hall
  · simp only [acceptAll, wp_modify]
    rw [if_pos hall] at hok
    rw [hall, List.take_length] at hem
    rcases hcells with hc | ⟨d, hc⟩
    · have hat' := hat hc
      refine Drafted.draftAt (hok.2 hc) ?_
      show DraftAt e (prompt ++ s.emitted) _
      rw [hem, ← List.append_assoc, ← List.append_assoc]
      exact hat'.congr rfl rfl rfl
    · refine Drafted.behind (fun hy => ?_) ⟨old ++ [t0] ++ cells, d, ?_, ?_⟩
      · have hlen := congrArg List.length ((hok.1 hy).trans hc)
        simp at hlen
      · rw [List.append_assoc, ← hc]
        exact hem
      · rw [← List.append_assoc, ← List.append_assoc]
        exact hh
  · rw [if_neg hall] at hok
    exact correct_draft ht hpos hcells hh hem (Nat.lt_of_le_of_ne hle hall) hok

theorem verify_draft (hem : s.emitted = old ++ [t0]) (htarget : s.ctxTarget.mem.Holds 0 (prompt ++ old))
    (hat : cells = ds → DraftAt e (prompt ++ old ++ [t0] ++ ds) s) : wp B (verify e maxTokens pos0 t0 ds)
      (fun _ => Drafted e prompt (Proposal.harmless e (prompt ++ old ++ [t0]) ⟨ds, cells, s.tick⟩))
      (fun _ => Drafted e prompt (Proposal.harmless e (prompt ++ old ++ [t0]) ⟨ds, cells, s.tick⟩)) s := by
  simp only [verify, wp_bind, wp_decodeTarget, ht, Bool.false_eq_true, if_false, if_true, wp_get]
  subst hpos
  generalize hc : s.ctxTarget.decode e.target 0 (prompt ++ old).length (t0 :: ds) true = c
  have hrows : ∀ i ≤ ds.length, c.out[i]? = some (e.target (prompt ++ old ++ [t0] ++ ds.take i)) := by
    intro i hi
    rw [← hc, Ctx.decode_row htarget (by rw [List.length_cons]; omega), List.take_succ_cons, List.append_cons]
  have hbase : getLogits c = some 0 := by
    have hne : c.out ≠ [] := fun h0 => by simpa [h0] using hrows 0 (Nat.zero_le _)
    simp [getLogits, hne]
  simp only [hbase, wp_bind, wp_modify, List.drop_zero]
  rw [compareDraft_fst (prompt ++ old ++ [t0]) ds c.out fun i hi => hrows i (Nat.le_of_lt hi)]
  refine wp.mono (printAccepted_printed _) (fun _ s₁ h₁ => ?_) fun _ _ hf => Drafted.of_finished hf
  rw [wp_stopIfFinished]
  cases hf : s₁.finished with
  | true => exact Drafted.of_finished hf
  | false =>
    obtain rfl := h₁ hf
    simp only [Bool.false_eq_true, if_false]
    have hacc : agreed e (prompt ++ old ++ [t0]) ds ≤ ds.length := agreed_le _ _
    refine wp.imp (settle_draft ht rfl hcells hh ?_ hacc (fun hc => ?_) ?_) fun _ s₂ h₂ => ?_
    · exact congrArg (· ++ _) hem
    · exact (hat hc).congr rfl rfl rfl
    · simp only [Proposal.harmless, State.printed, List.length_take, Nat.min_eq_left hacc]
      split_ifs
      · simp
      · rw [Bool.not_eq_true', Nat.add_right_comm s.tick 1, Nat.add_assoc]
    · exact fun hf => ⟨fun hy => ((h₂ hf).1 hy).congr rfl rfl rfl, (h₂ hf).2⟩

omit hcells hh

theorem propose_verify_draft {k : Nat}
    (hem : s.emitted = old ++ [t0]) (htarget : s.ctxTarget.mem.Holds 0 (prompt ++ old))
    (hat : DraftAt e (prompt ++ old ++ [t0]) s) (hrow : s.draftRow = some row)
    (hok : ok ↔ (proposal e k s.tick (prompt ++ old ++ [t0]) row).harmless e (prompt ++ old ++ [t0])) : wp B (do
        let draftToks ← propose e k
        if draftToks = [] then do
          stepTarget e pos0 t0
          exit .cont
        else verify e maxTokens pos0 t0 draftToks)
      (fun _ => Drafted e prompt ok) (fun _ => Drafted e prompt ok) s := by
  rw [hok]
  refine wp.bind ((propose_spec k).and (propose_proposal k hat hrow)) fun ds s' hpost => ?_
  obtain ⟨⟨hsame, -⟩, rfl, htick, hcells, hat'⟩ := hpost
  have hlast := proposal_cells (e := e) k s.tick (prompt ++ old ++ [t0]) row
  generalize proposal e k s.tick (prompt ++ old ++ [t0]) row = p at *
  have hem' : s'.emitted = old ++ [t0] := hsame.emitted.trans hem
  obtain ⟨ds, cells, tick⟩ := p
  split_ifs with hnil
  · obtain rfl : ds = [] := hnil
    obtain rfl : cells = [] := by
      rcases hlast with h | ⟨d, h⟩
      · exact h
      · simp at h
    simp only [wp_bind, wp_stepTarget ht, wp_exit]
    refine Drafted.draftAt rfl ?_
    show DraftAt e (prompt ++ s'.emitted) _
    rw [hem', ← List.append_assoc]
    have hat₀ := hat' rfl
    rw [List.append_nil] at hat₀
    exact hat₀.congr rfl rfl rfl
  · obtain rfl : s'.tick = tick := htick
    exact verify_draft ht hpos hlast hcells hem' (hsame.ctxTarget ▸ htarget) hat'

end Blocks

variable (ht : ∀ n, e.targetDecodeFails n = false)

include ht

theorem iteration_draft {B : Empty → Prop}
    (hlive : Live e (prompt ++ s.emitted) s.ctxTarget.mem s.posTarget s.targetRow)
    (hd : DraftAt e (prompt ++ s.emitted) s) :
    wp B (iteration e maxTokens) (fun _ => Drafted e prompt (Harmless e prompt s))
      (fun _ => Drafted e prompt (Harmless e prompt s)) s := by
  simp only [iteration, wp_bind, wp_get, hlive.row_eq, greedySample_eq]
  split
  · rw [wp_stop]
    exact Drafted.of_finished rfl
  · rename_i t0 ht0
    have hnext : next e prompt s.emitted = some t0 := ht0
    simp only [wp_bind]
    refine wp.mono (printToken_printed t0) (fun _ s₁ h₁ => ?_) fun _ _ hf => Drafted.of_finished hf
    rw [wp_stopIfFinished]
    cases hf : s₁.finished with
    | true => exact Drafted.of_finished hf
    | false =>
      obtain rfl := h₁ hf
      simp only [Bool.false_eq_true, if_false]
      have hd₁ : DraftAt e (prompt ++ s.emitted) (s.printed [t0]) := hd.congr rfl rfl rfl
      refine wp.mono (feedDraft_draft ht rfl hd₁ (fun hfail hok => ?_) fun hfed hnull => ?_)
        (fun _ s₂ h₂ => ?_) fun _ _ h => h
      · exact Bool.eq_false_iff.1 (hok t0 hnext).1 hfail
      · rintro t ht'
        cases hnext.symm.trans ht'
        exact ⟨hfed, fun hn => absurd hnull (by simp [State.printed, hn])⟩
      · obtain ⟨hfed, hnull, rfl⟩ := h₂
        -- from here on the verdict is that of the proposal
        have hiff : Harmless e prompt s ↔
            (proposal e s.dynK.k (s.tick + 3) (prompt ++ s.emitted ++ [t0])
              (e.draft (s.tick + 1) (prompt ++ s.emitted ++ [t0]))).harmless e (prompt ++ s.emitted ++ [t0]) := by
          constructor
          · intro hok
            exact (hok t0 hnext).2 hnull
          · rintro hp t ht'
            cases hnext.symm.trans ht'
            exact ⟨hfed, fun _ => hp⟩
        have hrow := fed_draftRow (t := t0) hd₁.holds hd₁.pos_eq hnull
        rw [wp_get]
        exact (wp_bind _ _).1 (propose_verify_draft (s := (s.printed [t0]).fed e t0) ht hlive.pos_eq rfl hlive.holds
          (fed_draftAt hd₁.holds hd₁.pos_eq) hrow hiff)

/-! ### Runs -/

/-- The iterations of a request so far, with their starts `l`, in a state `s` between two of them. -/
structure Trail (e : Env L) (prompt : List Token) (l : List (State L)) (s : State L) : Prop where
  starts : (∀ x ∈ l, InSync e x) ↔ ∀ x ∈ l.dropLast, Harmless e prompt x
  now : s.finished = false → (∀ x ∈ l, InSync e x) → (InSync e s ↔ ∀ x ∈ l.getLast?, Harmless e prompt x)

omit ht in
theorem InSync.congr (hc : s'.ctxDraft = s.ctxDraft) (hp : s'.posDraft = s.posDraft)
    (hl : s'.logitsDraft = s.logitsDraft) (ht : s'.ctxTarget = s.ctxTarget) (hpt : s'.posTarget = s.posTarget)
    (h : InSync e s) : InSync e s' := by
  obtain ⟨hpos, xs, hxs, hd⟩ := h
  exact ⟨by rw [hp, hpt, hpos], xs, ht ▸ hxs, hd.congr hc hp hl⟩

variable {l : List (State L)} {maxThisCall : Int}

omit ht in
theorem Trail.resetCall (h : Trail e prompt l s) : Trail e prompt l s.resetCall where
  starts := h.starts
  now hf hl := by
    rw [← h.now hf hl]
    exact ⟨InSync.congr rfl rfl rfl rfl rfl, InSync.congr rfl rfl rfl rfl rfl⟩

theorem Trail.step
    (h : Trail e prompt l s) (hinv : Inv e prompt maxTokens s) (hc : loopCond maxTokens maxThisCall s = true) :
    Trail e prompt (l ++ [s]) (iteration e maxTokens s.started).state := by
  have hf := (loopCond_iff.mp hc).2.2
  have hall : (∀ x ∈ l ++ [s], InSync e x) ↔ ∀ x ∈ l, Harmless e prompt x := by
    rw [List.forall_mem_append, List.forall_mem_singleton]
    constructor
    · rintro ⟨hl, hs⟩ x hx
      rcases List.eq_nil_or_concat l with rfl | ⟨l', y, rfl⟩
      · cases hx
      · have hlast := (h.now hf hl).1 hs
        have hrest := h.starts.1 hl
        simp only [List.concat_eq_append, List.dropLast_concat, List.getLast?_concat, List.mem_append,
          List.mem_singleton, Option.mem_some_iff] at hlast hrest hx
        rcases hx with hx | rfl
        · exact hrest x hx
        · exact hlast x rfl
    · intro hl
      have hsync := h.starts.2 fun x hx => hl x (List.dropLast_subset l hx)
      exact ⟨hsync, (h.now hf hsync).2 fun x hx => hl x (List.mem_of_getLast? hx)⟩
  refine ⟨by rw [List.dropLast_concat]; exact hall, fun hf' hsync => ?_⟩
  have hlive := hinv.live hf
  have hd : DraftAt e (prompt ++ s.emitted) s := (inSync_iff hlive).1 (hsync s (by simp))
  have hpost : Inv e prompt maxTokens (iteration e maxTokens s.started).state := (iteration_post hinv hc rfl).1.1
  have hwp : wp (fun _ => False) (iteration e maxTokens) (fun _ => Drafted e prompt (Harmless e prompt s.started))
      (fun _ => Drafted e prompt (Harmless e prompt s.started)) s.started :=
    iteration_draft ht hlive (hd.congr rfl rfl rfl)
  obtain ⟨hok, hbad⟩ := Exec.wp.state hwp hf'
  rw [List.getLast?_concat, inSync_iff (hpost.live hf')]
  constructor
  · rintro hd' x hx
    obtain rfl := Option.mem_some_iff.1 hx
    by_contra hn
    exact (hbad hn).not_draftAt hd'
  · intro hx
    exact hok (hx s rfl)

theorem Trail.loop (fuel : Nat) (h : Trail e prompt l s) (hinv : Inv e prompt maxTokens s) :
    Trail e prompt (l ++ loopStarts e maxTokens maxThisCall fuel s) (loop e maxTokens maxThisCall fuel s) := by
  refine loop_rec (P := fun s l' s' => ∀ l, Trail e prompt l s → Inv e prompt maxTokens s → Trail e prompt (l ++ l') s')
    (fun s l h _ => ?_) (fun s hc _ l h hinv => h.step ht hinv hc) (fun s l' s' hc ih l h hinv => ?_) fuel s l h hinv
  · rw [List.append_nil]
    exact h
  · rw [List.append_cons]
    exact ih _ (h.step ht hinv hc) (iteration_post hinv hc rfl).1.1

theorem Trail.runCalls (calls : List Int) (h : Trail e prompt l s) (hinv : Inv e prompt maxTokens s) :
    Trail e prompt (l ++ SpecV2.starts e maxTokens calls s) (runCalls e maxTokens calls s) := by
  induction calls generalizing s l with
  | nil =>
    rw [SpecV2.starts, List.append_nil]
    exact h
  | cons m calls ih =>
    rw [SpecV2.starts, ← List.append_assoc]
    exact ih (h.resetCall.loop ht m.toNat hinv.resetCall) (specV2Step_inv hinv)

omit ht

/-- Over any calls, with any draft, any missing logits and any failed draft decodes. -/
theorem draft_in_step_iff (e : Env L) (prompt : List Token) (maxTokens : Nat) (calls : List Int) (s : State L)
    (h : Start e prompt maxTokens s) (hsync : InSync e s) (ht : ∀ n, e.targetDecodeFails n = false) :
    (∀ x ∈ starts e maxTokens calls s, InSync e x) ↔
      ∀ x ∈ (starts e maxTokens calls s).dropLast, Harmless e prompt x := by
  have hempty : Trail e prompt [] s := by
    refine ⟨⟨fun _ x hx => (by cases hx), fun _ x hx => (by cases hx)⟩, fun _ _ => ⟨fun _ x hx => ?_, fun _ => hsync⟩⟩
    cases hx
  exact (hempty.runCalls ht calls h.inv).starts

theorem agreeState_inSync (fails nulls : Nat → Bool) : InSync (agreeEnv fails nulls) agreeState where
  pos_eq := rfl
  cells := ⟨[1], (Memory.holds_empty 0).place, (Memory.holds_empty 0).place, rfl, .inr ⟨0, rfl⟩⟩

theorem draft_in_step_nulls : InSync (agreeEnv (fun _ => false) (· == 2)) agreeState ∧
    ∀ x ∈ starts (agreeEnv (fun _ => false) (· == 2)) 0 [1, 5] agreeState,
      InSync (agreeEnv (fun _ => false) (· == 2)) x := by
  have hsync := agreeState_inSync (fun _ => false) (· == 2)
  exact ⟨hsync, (draft_in_step_iff _ [1] 0 [1, 5] agreeState (agreeState_start _ _) hsync fun _ => rfl).2 (by decide)⟩

/-- The last decode of an accepted proposal fails (call 5): the next iteration starts with the draft one
position behind. -/
theorem draft_one_behind : Start (agreeEnv (· == 5) fun _ => false) [1] 0 agreeState ∧
    InSync (agreeEnv (· == 5) fun _ => false) agreeState ∧
    (starts (agreeEnv (· == 5) fun _ => false) 0 [4] agreeState).map (fun x => (x.posDraft, x.posTarget)) =
      [(1, 1), (3, 4)] ∧
    ¬ ∀ x ∈ starts (agreeEnv (· == 5) fun _ => false) 0 [4] agreeState, InSync (agreeEnv (· == 5) fun _ => false) x := by
  have hpos : (starts (agreeEnv (· == 5) fun _ => false) 0 [4] agreeState).map (fun x => (x.posDraft, x.posTarget)) =
      [(1, 1), (3, 4)] := by decide
  refine ⟨agreeState_start _ _, agreeState_inSync _ _, hpos, fun hall => ?_⟩
  have hmem : (3, 4) ∈ (starts (agreeEnv (· == 5) fun _ => false) 0 [4] agreeState).map
      (fun x => (x.posDraft, x.posTarget)) := by
    rw [hpos]
    decide
  obtain ⟨x, hx, hxpos⟩ := List.mem_map.1 hmem
  have heq := (hall x hx).pos_eq
  rw [(Prod.mk.inj hxpos).1, (Prod.mk.inj hxpos).2] at heq
  exact absurd heq (by decide)

end Korith.SpecV2
