import Korith.Engine.CApi
import Korith.Proofs.AmfReplay

/-!
# Replays through the C interface

A prompt that `korith_tokenize` has accepted is in the context as a cold run leaves it, except where a restore has
reported less than the full size, has left cells behind and the prompt is decoded on them (`NothingLeft`); from then
on the store has such a context under the prompt's key too. A prompt that a cold run refuses for its length is
refused, except where a stored prefix is restored and the rest fits the context alone, but not together with the
prefix (`Room`).
-/

set_option linter.unusedSectionVars false

namespace Korith.CApi

open Korith.Amf Korith.Engine Machine

variable {F V L : Type}

/-! ### Decoding -/

section Decode

variable {net : Network V L} {c c' : Context V L} {s : Setup V L} {ok : Nat → Bool} {broken : Context V L}
  {pos : Nat} {tokens xs ys : List Token}

theorem Context.extend_append (net : Network V L) (c : Context V L) (pos : Nat) (xs ys : List Token) :
    (c.extend net pos xs).extend net (pos + xs.length) ys = c.extend net pos (xs ++ ys) := by
  induction xs generalizing c pos with
  | nil => rfl
  | cons x xs ih =>
    rw [List.length_cons, Nat.add_comm xs.length 1, ← Nat.add_assoc]
    exact ih _ _

theorem Context.length_extend : (c.extend net pos tokens).cells.length = c.cells.length + tokens.length := by
  induction tokens generalizing c pos with
  | nil => rfl
  | cons t ts ih =>
    rw [Context.extend, ih, Context.push, List.length_append, List.length_cons, List.length_cons, List.length_nil]
    omega

theorem Context.extend_congr (h : c.cells = c'.cells) (hne : tokens ≠ []) :
    c.extend net pos tokens = c'.extend net pos tokens := by
  cases tokens with
  | nil => exact absurd rfl hne
  | cons t ts => rw [Context.extend, Context.extend, Context.push, Context.push, h]

theorem cold_positions : (cold net tokens).cells.map Prod.fst = List.range tokens.length := by
  induction tokens using List.reverseRecOn with
  | nil => rfl
  | append_singleton ts t ih =>
    have happ : cold net (ts ++ [t]) = (cold net ts).push net ts.length t := by
      rw [cold, ← Context.extend_append, Nat.zero_add]
      rfl
    rw [happ, Context.push, List.map_append, ih, List.length_append, List.length_singleton, List.range_succ]
    rfl

theorem extend_cleared (hc : c.cells = []) (hne : tokens ≠ []) : c.extend net 0 tokens = cold net tokens :=
  Context.extend_congr hc hne

theorem extend_cells_eq_cold_iff (hne : tokens ≠ []) :
    (c.extend net 0 tokens).cells = (cold net tokens).cells ↔ c.cells = [] := by
  constructor
  · intro h
    have hlen := congrArg List.length h
    rw [cold, Context.length_extend, Context.length_extend, List.length_nil] at hlen
    exact List.length_eq_zero_iff.mp (by omega)
  · intro hc
    rw [extend_cleared hc hne]

def Setup.Fits (s : Setup V L) (tokens : List Token) : Prop := 0 < s.nCtx → tokens.length < s.nCtx

def Setup.Decodes (s : Setup V L) (ok : Nat → Bool) (n : Nat) : Prop :=
  (0 < s.nCtx → n < s.nCtx) ∧ ∀ i, i * s.nBatch < n → ok i = true

theorem decodeLoop_eq (fuel n : Nat) (h : (decodeLoop s ok broken fuel n c pos tokens).1 = true) :
    (decodeLoop s ok broken fuel n c pos tokens).2 = (c.extend s.net pos tokens, pos + tokens.length) := by
  induction fuel generalizing n c pos tokens with
  | zero => cases h
  | succ fuel ih =>
    unfold decodeLoop at h ⊢
    by_cases hnil : tokens.isEmpty = true
    · rw [if_pos hnil]
      rw [List.isEmpty_iff.mp hnil]
      rfl
    · rw [if_neg hnil] at h ⊢
      by_cases hok : ok n = true
      · rw [if_pos hok] at h ⊢
        rw [ih (n + 1) h]
        have happ : tokens.take s.nBatch ++ tokens.drop s.nBatch = tokens := List.take_append_drop _ _
        have hlen := congrArg List.length happ
        rw [List.length_append] at hlen
        rw [← hlen, Nat.add_assoc]
        congr 1
        conv_rhs => rw [← happ, ← Context.extend_append]
        -- only the last batch asks for its row, and the next batch does not look at it
        by_cases hlast : tokens.drop s.nBatch = []
        · rw [Context.decode, hlast, List.isEmpty_nil, if_pos rfl]
        · exact Context.extend_congr (by rw [Context.decode]; split_ifs <;> rfl) hlast
      · rw [if_neg hok] at h
        cases h

theorem decodeLoop_iff (fuel n : Nat) (hfuel : tokens.length < fuel) :
    (decodeLoop s ok broken fuel n c pos tokens).1 = true ↔
      ∀ i, i * s.nBatch < tokens.length → ok (n + i) = true := by
  induction fuel generalizing n c pos tokens with
  | zero => omega
  | succ fuel ih =>
    have hb := s.nBatch_pos
    unfold decodeLoop
    by_cases hnil : tokens.isEmpty = true
    · rw [if_pos hnil]
      refine iff_of_true rfl fun i hi => ?_
      rw [List.isEmpty_iff.mp hnil] at hi
      exact absurd hi (Nat.not_lt_zero _)
    · have hpos : 0 < tokens.length := List.length_pos_of_ne_nil fun h => hnil (by rw [h]; rfl)
      rw [if_neg hnil]
      by_cases hok : ok n = true
      · rw [if_pos hok, ih (n + 1) (by rw [List.length_drop]; omega), List.length_drop]
        constructor
        · intro h i hi
          rcases i with _ | i
          · exact hok
          · rw [Nat.succ_mul] at hi
            rw [← Nat.add_assoc, Nat.add_right_comm]
            exact h i (by omega)
        · intro h i hi
          rw [Nat.add_right_comm, Nat.add_assoc]
          exact h (i + 1) (by rw [Nat.succ_mul]; omega)
      · rw [if_neg hok]
        refine iff_of_false (fun h => by cases h) fun h => hok ?_
        exact h 0 (by rwa [Nat.zero_mul])

theorem ensureCapacityAndDecode_iff (broken c : Context V L) (pos : Nat) :
    (ensureCapacityAndDecode s ok broken c pos tokens).1 = true ↔ s.Decodes ok tokens.length := by
  have hb := s.nBatch_pos
  have hlt := s.nBatch_lt
  unfold ensureCapacityAndDecode Setup.Decodes
  by_cases hfull : 0 < s.nCtx ∧ s.nCtx ≤ tokens.length
  · rw [if_pos hfull]
    exact iff_of_false (fun h => by cases h) fun h => absurd (h.1 hfull.1) (Nat.not_lt.mpr hfull.2)
  · rw [if_neg hfull, if_neg (by omega), decodeLoop_iff _ _ (Nat.lt_succ_self _)]
    simp only [Nat.zero_add]
    exact (and_iff_right fun h => by omega).symm

theorem ensureCapacityAndDecode_eq (h : s.Decodes ok tokens.length) :
    ensureCapacityAndDecode s ok broken c pos tokens =
      (true, c.extend s.net pos tokens, pos + tokens.length) := by
  have hd := (ensureCapacityAndDecode_iff broken c pos).mpr h
  refine Prod.ext hd ?_
  unfold ensureCapacityAndDecode at hd ⊢
  split_ifs at hd ⊢
  exact decodeLoop_eq _ _ hd

end Decode

/-! ### One call -/

section Calls

variable [FloatArith F] {io : StateIO V L} {e : Env F} {s : Setup V L} {p : Prompt V L} {tokens : List Token}
  {g : KorithState F V L} {P : AmfKey → List Token → List Amf.Byte → Prop} {entry : AmfEntry F} {c : Context V L}
  {w : World F}

def restored (io : StateIO V L) (e : Env F) (s : Setup V L) (p : Prompt V L) (g : KorithState F V L) :
    Option (List Token × AmfEntry F × Restore V L) :=
  (p.text s).bind fun tokens =>
    if g.amfReady then
      let found := findLongestPrefix e s.amfCtx tokens p.prewarmed g.world
      match found.1 with
      | .hit entry _ => some (tokens, entry, restore io p entry found.2)
      | _ => none
    else none

theorem text_ne_nil (h : p.text s = some tokens) : tokens ≠ [] := by
  unfold Prompt.text at h
  split_ifs at h with hnil
  · obtain ⟨t, -, rfl⟩ := Option.map_eq_some_iff.mp h
    exact List.cons_ne_nil _ _
  · cases h
    exact fun heq => hnil (by rw [heq]; rfl)

theorem korithTokenize_none (io : StateIO V L) (e : Env F) (g : KorithState F V L) (htext : p.text s = none) :
    korithTokenize io e s p g = (-1, { g.resetRuntime with ctx := { g.ctx with cells := [] } }) ∧
    restored io e s p g = none := by
  unfold korithTokenize restored
  rw [htext]
  exact ⟨rfl, rfl⟩

/-- The prompt has been decoded from position 0 on the context as it was, and perhaps stored; or it has been refused.
-/
structure Evaluated (io : StateIO V L) (e : Env F) (s : Setup V L) (p : Prompt V L) (tokens : List Token)
    (c : Context V L) (w : World F) (r : Int × KorithState F V L) : Prop where
  accepted : s.Decodes p.coldOk tokens.length → r.1 = tokens.length ∧ r.2.ctx = c.extend s.net 0 tokens ∧
    r.2.pos = tokens.length ∧ r.2.ready = true ∧ r.2.finished = false ∧
    (r.2.world = w ∨ r.2.world = (storeEntry e p.stale s.amfCtx tokens (io.save r.2.ctx) p.decodeMs w).2)
  refused : ¬ s.Decodes p.coldOk tokens.length → r.1 = -1 ∧ r.2.ready = false ∧ r.2.world = w

theorem evaluatePrompt_ok (hctx : g.ctx = c) (hpos : g.pos = 0) (hw : g.world = w) :
    Evaluated io e s p tokens c w (evaluatePrompt io e s p tokens g) := by
  subst hctx hw
  unfold evaluatePrompt
  rw [hpos]
  constructor
  · intro hd
    rw [ensureCapacityAndDecode_eq hd]
    dsimp only
    rw [Bool.not_true, if_neg Bool.false_ne_true]
    refine ⟨rfl, rfl, Nat.zero_add _, rfl, rfl, ?_⟩
    split_ifs
    · exact .inr rfl
    · exact .inl rfl
  · intro hd
    have hfail : (ensureCapacityAndDecode s p.coldOk p.broken g.ctx 0 tokens).1 = false := by
      rw [← Bool.not_eq_true, ensureCapacityAndDecode_iff]
      exact hd
    simp only [hfail]
    exact ⟨rfl, rfl, rfl⟩

def SuffixDecodes (s : Setup V L) (p : Prompt V L) (tokens : List Token) (entry : AmfEntry F) : Prop :=
  entry.prefixLen < tokens.length → s.Decodes p.suffixOk (tokens.length - entry.prefixLen)

/-- The tokens behind the prefix have been decoded on the restored context; or the prompt has been refused. -/
structure Replayed (s : Setup V L) (p : Prompt V L) (tokens : List Token) (entry : AmfEntry F) (c : Context V L)
    (w : World F) (r : Int × KorithState F V L) : Prop where
  accepted : SuffixDecodes s p tokens entry → r.1 = tokens.length ∧
    r.2.ctx = c.extend s.net entry.prefixLen (tokens.drop entry.prefixLen) ∧ r.2.pos = tokens.length ∧
    r.2.ready = true ∧ r.2.finished = false
  refused : ¬ SuffixDecodes s p tokens entry → r.1 = -1 ∧ r.2.ready = false
  files : Shrinks w.disk r.2.world.disk

theorem replayPrompt_ok (hlen : entry.prefixLen ≤ tokens.length)
    (hctx : g.ctx = c) (hw : g.world = w) : Replayed s p tokens entry c w (replayPrompt e s p tokens entry g) := by
  subst hctx hw
  have hdrop : (tokens.drop entry.prefixLen).length = tokens.length - entry.prefixLen := List.length_drop
  unfold replayPrompt
  by_cases hlt : entry.prefixLen < tokens.length
  · rw [if_pos hlt]
    by_cases hd : s.Decodes p.suffixOk (tokens.length - entry.prefixLen)
    · rw [ensureCapacityAndDecode_eq (hdrop ▸ hd), hdrop]
      dsimp only
      rw [Bool.not_true, if_neg Bool.false_ne_true]
      refine ⟨fun _ => ⟨rfl, rfl, ?_, rfl, rfl⟩, fun h => absurd (fun _ => hd) h, noteHit_shrinks⟩
      dsimp only
      omega
    · have hfail : (ensureCapacityAndDecode s p.suffixOk p.broken g.ctx entry.prefixLen
          (tokens.drop entry.prefixLen)).1 = false := by
        rw [← Bool.not_eq_true, ensureCapacityAndDecode_iff, hdrop]
        exact hd
      simp only [hfail]
      exact ⟨fun h => absurd (h hlt) hd, fun _ => ⟨rfl, rfl⟩, .refl⟩
  · have heq : entry.prefixLen = tokens.length := by omega
    rw [if_neg hlt]
    refine ⟨fun _ => ⟨rfl, ?_, heq, rfl, rfl⟩, fun h => absurd (fun h => absurd h hlt) h, noteHit_shrinks⟩
    rw [List.drop_eq_nil_of_le (by omega)]
    rfl

theorem restore_full (h : restore io p entry w = .full c) :
    ∃ blob, w.disk.kv entry.key = some blob ∧ io.load blob = some c := by
  unfold restore at h
  split at h
  · cases h
  · rename_i blob hblob
    split at h
    · cases h
    · rename_i c' hc'
      cases h
      split_ifs at hblob hc'
      exact ⟨blob, (Option.filter_eq_some_iff.mp (Option.filter_eq_some_iff.mp hblob).1).1, hc'⟩

theorem restore_short {left : Context V L} (h : restore io p entry w = .short left) : left = p.torn := by
  unfold restore at h
  split at h
  · cases h
  · split at h
    · cases h
      rfl
    · cases h

theorem restored_some {res : Restore V L} (h : restored io e s p g = some (tokens, entry, res)) :
    p.text s = some tokens ∧ ∀ left, res = .short left → left = p.torn := by
  obtain ⟨tokens', htext, h'⟩ := Option.bind_eq_some_iff.mp h
  split_ifs at h'
  dsimp only at h'
  split at h'
  · cases h'
    exact ⟨htext, fun _ => restore_short⟩
  · cases h'

/-- A call, by what the lookup and the restore give: a replay of the tokens of some file on the context of its state
file, or an evaluation of the whole prompt, on what a short restore has left or on no cells. -/
theorem korithTokenize_cases (io : StateIO V L) (e : Env F) (g : KorithState F V L) (htext : p.text s = some tokens) :
    (∃ entry blob c w', restored io e s p g = some (tokens, entry, .full c) ∧ entry.prefixLen ≤ tokens.length ∧
      w'.disk.tok entry.key = some (tokens.take entry.prefixLen) ∧ w'.disk.kv entry.key = some blob ∧
      io.load blob = some c ∧ Shrinks g.world.disk w'.disk ∧
      Replayed s p tokens entry c w' (korithTokenize io e s p g)) ∨
    (∃ entry w', restored io e s p g = some (tokens, entry, .short p.torn) ∧ Shrinks g.world.disk w'.disk ∧
      Evaluated io e s p tokens p.torn w' (korithTokenize io e s p g)) ∨
    (∃ c w', (∀ found, restored io e s p g = some found → found.2.2 = .unread) ∧ c.cells = [] ∧
      Shrinks g.world.disk w'.disk ∧ Evaluated io e s p tokens c w' (korithTokenize io e s p g)) := by
  have hfind := findLongestPrefix_keeps (e := e) (w := g.world) s.amfCtx tokens p.prewarmed
  unfold korithTokenize restored
  rw [htext, Option.bind_some]
  dsimp only
  by_cases hready : g.amfReady = true
  · rw [if_pos (show g.resetRuntime.amfReady = true from hready), if_pos hready]
    rw [show g.resetRuntime.world = g.world from rfl]
    cases hfound : (findLongestPrefix e s.amfCtx tokens p.prewarmed g.world).1 with
    | hit entry out =>
      obtain ⟨hout, hlen, htok⟩ := findLongestPrefix_file hfound
      have hle : entry.prefixLen ≤ tokens.length := by
        rw [← hlen, hout, List.length_take]
        exact Nat.min_le_right _ _
      rw [hout] at htok
      dsimp only
      cases hrestore : restore io p entry (findLongestPrefix e s.amfCtx tokens p.prewarmed g.world).2 with
      | full c =>
        obtain ⟨blob, hkv, hload⟩ := restore_full hrestore
        exact .inl ⟨entry, blob, c, _, rfl, hle, htok, hkv, hload, hfind.files, replayPrompt_ok hle rfl rfl⟩
      | short left =>
        obtain rfl := restore_short hrestore
        exact .inr (.inl ⟨entry, noteMiss _, rfl, hfind.files, evaluatePrompt_ok rfl rfl rfl⟩)
      | unread =>
        exact .inr (.inr ⟨⟨[], g.ctx.logits⟩, noteMiss _, fun _ h => (by cases h; rfl), rfl, hfind.files,
          evaluatePrompt_ok rfl rfl rfl⟩)
    | _ =>
      exact .inr (.inr ⟨⟨[], g.ctx.logits⟩, noteMiss _, fun _ h => (by cases h), rfl, hfind.files,
        evaluatePrompt_ok rfl rfl rfl⟩)
  · rw [if_neg (show ¬ g.resetRuntime.amfReady = true from hready), if_neg hready]
    exact .inr (.inr ⟨⟨[], g.ctx.logits⟩, g.world, fun _ h => (by cases h), rfl, .refl, evaluatePrompt_ok rfl rfl rfl⟩)

theorem korithStep_world (s : Setup V L) (ok : Bool) (broken : Context V L) (g : KorithState F V L) :
    (korithStep s ok broken g).2.world = g.world := by
  unfold korithStep
  cases s.net.sample g.ctx.logits with
  | none => dsimp only; split_ifs <;> rfl
  | some token => dsimp only; split_ifs <;> rfl

theorem Evaluated.files
    {r : Int × KorithState F V L} (h : Evaluated io e s p tokens c w r) (hfs : Intact e) (hfiles : Files P w.disk)
    (hP : s.Decodes p.coldOk tokens.length → P (keyOf s.amfCtx tokens) tokens (io.save (c.extend s.net 0 tokens))) :
    Files P r.2.world.disk := by
  by_cases hd : s.Decodes p.coldOk tokens.length
  · obtain ⟨-, hctx, -, -, -, hworld | hworld⟩ := h.accepted hd
    · rwa [hworld]
    · rw [hworld, hctx]
      exact storeEntry_files hfs hfiles (hP hd)
  · rwa [(h.refused hd).2.2]

/-- The files stay related if what an evaluation stores is: the context it has found, with the prompt behind it. -/
theorem call_files {c : Call V L} (hfs : Intact e) (hfiles : Files P g.world.disk)
    (hP : ∀ p tokens c', c = .tokenize p → p.text s = some tokens → s.Decodes p.coldOk tokens.length →
      (c'.cells = [] ∨ ∃ entry, restored io e s p g = some (tokens, entry, .short c')) →
      P (keyOf s.amfCtx tokens) tokens (io.save (c'.extend s.net 0 tokens))) :
    Files P (call io e s g c).2.world.disk := by
  cases c with
  | step ok broken =>
    rw [call, korithStep_world]
    exact hfiles
  | tokenize p =>
    rw [call]
    cases htext : p.text s with
    | none =>
      rw [(korithTokenize_none io e g htext).1]
      exact hfiles
    | some tokens =>
      rcases korithTokenize_cases io e g htext with
        ⟨entry, blob, c, w, -, -, -, -, -, hs, hr⟩ | ⟨entry, w, hfound, hs, hr⟩ | ⟨c, w, -, hc, hs, hr⟩
      · exact hfiles.shrinks (hs.trans hr.files)
      · exact hr.files hfs (hfiles.shrinks hs) fun hd => hP p tokens _ rfl htext hd (.inr ⟨entry, hfound⟩)
      · exact hr.files hfs (hfiles.shrinks hs) fun hd => hP p tokens c rfl htext hd (.inl hc)

end Calls

/-! ### Steps -/

section Steps

variable {s : Setup V L} {g g' : KorithState F V L} {steps : List (Bool × Context V L)}

def outputs (s : Setup V L) : List (Bool × Context V L) → KorithState F V L → List Int
  | [], _ => []
  | (ok, broken) :: steps, g => (korithStep s ok broken g).1 :: outputs s steps (korithStep s ok broken g).2

/-- The parts of the state that a step looks at are the same. -/
structure SameRun (g g' : KorithState F V L) : Prop where
  ctx : g.ctx = g'.ctx
  pos : g.pos = g'.pos
  ready : g.ready = g'.ready
  finished : g.finished = g'.finished

theorem korithStep_same (s : Setup V L) (ok : Bool) (broken : Context V L) (h : SameRun g g') :
    (korithStep s ok broken g).1 = (korithStep s ok broken g').1 ∧
    SameRun (korithStep s ok broken g).2 (korithStep s ok broken g').2 := by
  unfold korithStep
  rw [h.ctx, h.pos, h.ready, h.finished]
  cases s.net.sample g'.ctx.logits with
  | none =>
    dsimp only
    split_ifs
    · exact ⟨rfl, h⟩
    · exact ⟨rfl, ⟨rfl, rfl, rfl, rfl⟩⟩
    · exact ⟨rfl, ⟨rfl, rfl, rfl, rfl⟩⟩
  | some token =>
    dsimp only
    split_ifs
    · exact ⟨rfl, h⟩
    all_goals exact ⟨rfl, ⟨rfl, rfl, rfl, rfl⟩⟩

theorem outputs_same (h : SameRun g g') : outputs s steps g = outputs s steps g' := by
  induction steps generalizing g g' with
  | nil => rfl
  | cons step steps ih =>
    obtain ⟨hout, hnext⟩ := korithStep_same s step.1 step.2 h
    rw [outputs, outputs, hout, ih hnext]

def Ended (s : Setup V L) (g : KorithState F V L) : Prop :=
  g.ready = false ∨ g.finished = true ∨ 0 < s.nCtx ∧ s.nCtx ≤ g.pos

theorem outputs_ended (h : Ended s g) : outputs s steps g = List.replicate steps.length (-1) := by
  induction steps generalizing g with
  | nil => rfl
  | cons step steps ih =>
    have hstep : (korithStep s step.1 step.2 g).1 = -1 ∧ Ended s (korithStep s step.1 step.2 g).2 := by
      unfold korithStep
      by_cases hend : (!g.ready || g.finished) = true
      · rw [if_pos hend]
        exact ⟨rfl, h⟩
      · have hfull : 0 < s.nCtx ∧ s.nCtx ≤ g.pos := by
          rcases h with h | h | h
          · exact absurd (by rw [h]; rfl) hend
          · exact absurd (by rw [h, Bool.or_true]) hend
          · exact h
        rw [if_neg hend, if_pos hfull]
        exact ⟨rfl, .inr (.inl rfl)⟩
    rw [outputs, hstep.1, ih hstep.2]
    rfl

end Steps

/-! ### The conditions -/

section Conditions

variable [FloatArith F] (io : StateIO V L) (e : Env F) (s : Setup V L)

/-- A run of the prompt without the store, whose batches can all be decoded. -/
def coldRun (p : Prompt V L) (g : KorithState F V L) : Int × KorithState F V L :=
  korithTokenize io e s { p with coldOk := fun _ => true } { g with amfReady := false }

variable (g : KorithState F V L)

def LikeCold : Call V L → Prop
  | .step _ _ => True
  | .tokenize p => 0 < (korithTokenize io e s p g).1 →
    ∃ tokens, p.text s = some tokens ∧ (korithTokenize io e s p g).1 = tokens.length ∧
      (korithTokenize io e s p g).2.ctx.cells = (cold s.net tokens).cells ∧
      (korithTokenize io e s p g).2.ctx.cells.map Prod.fst = List.range tokens.length ∧
      ∀ steps, outputs s steps (korithTokenize io e s p g).2 = outputs s steps (coldRun io e s p g).2

/-- A prompt that does not fit the context is refused. -/
def RefusesLong : Call V L → Prop
  | .step _ _ => True
  | .tokenize p => ∀ tokens, p.text s = some tokens → ¬ s.Fits tokens → (korithTokenize io e s p g).1 = -1

def NothingLeft : Call V L → Prop
  | .step _ _ => True
  | .tokenize p => ∀ tokens entry left, restored io e s p g = some (tokens, entry, .short left) →
    s.Decodes p.coldOk tokens.length → left.cells = []

/-- Where a prefix is restored in full and the tokens behind it can be decoded, the whole prompt fits. -/
def Room : Call V L → Prop
  | .step _ _ => True
  | .tokenize p => ∀ tokens entry c, restored io e s p g = some (tokens, entry, .full c) →
    entry.prefixLen < tokens.length → s.Decodes p.suffixOk (tokens.length - entry.prefixLen) → s.Fits tokens

end Conditions

/-! ### Like a cold run -/

section Cold

variable [FloatArith F] {io : StateIO V L} {e : Env F} {s : Setup V L} {p : Prompt V L} {tokens : List Token}
  {g : KorithState F V L} {c : Call V L} {dirOk : Bool} {w : World F} {calls : List (Call V L)}

theorem coldRun_ok (io : StateIO V L) (e : Env F) (g : KorithState F V L) (htext : p.text s = some tokens) :
    ∃ c w, c.cells = [] ∧
      Evaluated io e s { p with coldOk := fun _ => true } tokens c w (coldRun io e s p g) := by
  refine ⟨⟨[], g.ctx.logits⟩, g.world, rfl, ?_⟩
  unfold coldRun korithTokenize
  rw [show Prompt.text s { p with coldOk := fun _ => true } = some tokens from htext]
  exact evaluatePrompt_ok rfl rfl rfl

theorem decodes_true_iff : s.Decodes (fun _ => true) tokens.length ↔ s.Fits tokens :=
  and_iff_left fun _ _ => rfl

structure Prefilled (s : Setup V L) (tokens : List Token) (g : KorithState F V L) : Prop where
  ctx : g.ctx = cold s.net tokens
  pos : g.pos = tokens.length
  ready : g.ready = true
  finished : g.finished = false

/-- The steps behind it are those of the cold run. Where that one is refused for the prompt's length, the first step is
refused as well. -/
theorem Prefilled.outputs {r : KorithState F V L} (h : Prefilled s tokens r) (htext : p.text s = some tokens)
    (steps : List (Bool × Context V L)) : CApi.outputs s steps r = CApi.outputs s steps (coldRun io e s p g).2 := by
  obtain ⟨c, w, hc, heval⟩ := coldRun_ok io e g htext
  by_cases hfits : s.Fits tokens
  · obtain ⟨-, hctx, hpos, hready, hfin, -⟩ := heval.accepted (decodes_true_iff.mpr hfits)
    refine outputs_same ⟨?_, ?_, ?_, ?_⟩
    · rw [h.ctx, hctx, extend_cleared hc (text_ne_nil htext)]
    · rw [h.pos, hpos]
    · rw [h.ready, hready]
    · rw [h.finished, hfin]
  · have hend : Ended s r := by
      unfold Setup.Fits at hfits
      refine .inr (.inr ?_)
      rw [h.pos]
      omega
    rw [outputs_ended hend, outputs_ended (.inl (heval.refused fun hd => hfits (decodes_true_iff.mp hd)).2.1)]

theorem Prefilled.likeCold (h : Prefilled s tokens (korithTokenize io e s p g).2) (htext : p.text s = some tokens)
    (hret : (korithTokenize io e s p g).1 = tokens.length) : LikeCold io e s g (.tokenize p) :=
  fun _ => ⟨tokens, htext, hret, by rw [h.ctx], by rw [h.ctx, cold_positions], h.outputs htext⟩

theorem likeCold_of_refused (hret : (korithTokenize io e s p g).1 = -1) : LikeCold io e s g (.tokenize p) := by
  intro hpos
  rw [hret] at hpos
  exact absurd hpos (by decide)

def ColdFiles (io : StateIO V L) (s : Setup V L) (d : Disk F) : Prop :=
  Files (fun _ tokens blob => blob = io.save (cold s.net tokens)) d

theorem replayed_extend {entry : AmfEntry F} {blob : List Amf.Byte} {c : Context V L} {w : World F}
    (hfiles : ColdFiles io s w.disk) (hle : entry.prefixLen ≤ tokens.length)
    (htok : w.disk.tok entry.key = some (tokens.take entry.prefixLen)) (hkv : w.disk.kv entry.key = some blob)
    (hload : io.load blob = some c) :
    c.extend s.net entry.prefixLen (tokens.drop entry.prefixLen) = cold s.net tokens := by
  rw [hfiles _ _ _ htok hkv, io.exact] at hload
  cases hload
  have happ := Context.extend_append s.net ⟨[], []⟩ 0 (tokens.take entry.prefixLen) (tokens.drop entry.prefixLen)
  rwa [Nat.zero_add, List.length_take, Nat.min_eq_left hle, List.take_append_drop] at happ

theorem likeCold_iff (hfiles : ColdFiles io s g.world.disk) : LikeCold io e s g c ↔ NothingLeft io e s g c := by
  cases c with
  | step ok broken => exact Iff.rfl
  | tokenize p =>
    cases htext : p.text s with
    | none =>
      obtain ⟨hret, hnone⟩ := korithTokenize_none io e g htext
      refine iff_of_true (likeCold_of_refused (by rw [hret])) fun _ _ _ h => ?_
      rw [hnone] at h
      cases h
    | some tokens =>
      have hne := text_ne_nil htext
      rcases korithTokenize_cases io e g htext with
        ⟨entry, blob, c, w, hfound, hle, htok, hkv, hload, hs, hr⟩ | ⟨entry, w, hfound, hs, hr⟩ |
        ⟨c, w, hfound, hc, hs, hr⟩
      · refine iff_of_true ?_ fun _ _ _ h => by rw [hfound] at h; cases h
        by_cases hd : SuffixDecodes s p tokens entry
        · obtain ⟨hret, hctx, hpos, hready, hfin⟩ := hr.accepted hd
          rw [replayed_extend (hfiles.shrinks hs) hle htok hkv hload] at hctx
          exact Prefilled.likeCold ⟨hctx, hpos, hready, hfin⟩ htext hret
        · exact likeCold_of_refused (hr.refused hd).1
      · by_cases hd : s.Decodes p.coldOk tokens.length
        · obtain ⟨hret, hctx, hpos, hready, hfin, -⟩ := hr.accepted hd
          constructor
          · intro h tokens' entry' left h' _
            rw [hfound] at h'
            cases h'
            have hpos' : 0 < (korithTokenize io e s p g).1 := by
              rw [hret]
              exact_mod_cast List.length_pos_of_ne_nil hne
            obtain ⟨tokens', htext', -, hcells, -, -⟩ := h hpos'
            obtain rfl : tokens = tokens' := Option.some.inj (htext.symm.trans htext')
            rw [hctx] at hcells
            exact (extend_cells_eq_cold_iff hne).mp hcells
          · intro h
            rw [extend_cleared (h tokens entry p.torn hfound hd) hne] at hctx
            exact Prefilled.likeCold ⟨hctx, hpos, hready, hfin⟩ htext hret
        · refine iff_of_true (likeCold_of_refused (hr.refused hd).1) fun _ _ _ h hd' => ?_
          rw [hfound] at h
          cases h
          exact absurd hd' hd
      · refine iff_of_true ?_ fun _ _ _ h => absurd (hfound _ h) (by simp)
        by_cases hd : s.Decodes p.coldOk tokens.length
        · obtain ⟨hret, hctx, hpos, hready, hfin, -⟩ := hr.accepted hd
          rw [extend_cleared hc hne] at hctx
          exact Prefilled.likeCold ⟨hctx, hpos, hready, hfin⟩ htext hret
        · exact likeCold_of_refused (hr.refused hd).1

theorem NothingLeft.coldFiles (hfs : Intact e) (hfiles : ColdFiles io s g.world.disk) (h : NothingLeft io e s g c) :
    ColdFiles io s (call io e s g c).2.world.disk := by
  refine call_files hfs hfiles ?_
  rintro p tokens c' rfl htext hd (hc | ⟨entry, hfound⟩)
  · rw [extend_cleared hc (text_ne_nil htext)]
  · rw [extend_cleared (h tokens entry c' hfound hd) (text_ne_nil htext)]

/-! ### The length of a prompt -/

def FittingFiles (s : Setup V L) (d : Disk F) : Prop := Files (fun _ tokens _ => s.Fits tokens) d

theorem Evaluated.refuses {c : Context V L} {w : World F} {r : Int × KorithState F V L}
    (h : Evaluated io e s p tokens c w r) (hfits : ¬ s.Fits tokens) : r.1 = -1 :=
  (h.refused fun hd => hfits hd.1).1

theorem refusesLong_iff (hfiles : FittingFiles s g.world.disk) : RefusesLong io e s g c ↔ Room io e s g c := by
  cases c with
  | step ok broken => exact Iff.rfl
  | tokenize p =>
    cases htext : p.text s with
    | none =>
      obtain ⟨-, hnone⟩ := korithTokenize_none io e g htext
      refine iff_of_true (fun _ h => ?_) fun _ _ _ h => ?_
      · rw [htext] at h
        cases h
      · rw [hnone] at h
        cases h
    | some tokens =>
      have hsame : ∀ {tokens'}, p.text s = some tokens' → tokens' = tokens :=
        fun h => Option.some.inj (h.symm.trans htext)
      rcases korithTokenize_cases io e g htext with
        ⟨entry, blob, c, w, hfound, hle, htok, hkv, -, hs, hr⟩ | ⟨entry, w, hfound, -, hr⟩ | ⟨c, w, hfound, -, -, hr⟩
      · constructor
        · intro h tokens' entry' c' h' hlt hd
          rw [hfound] at h'
          cases h'
          by_contra hfits
          have hret := (hr.accepted fun _ => hd).1
          rw [h tokens htext hfits] at hret
          omega
        · intro h tokens' htext' hfits
          obtain rfl := hsame htext'
          refine (hr.refused fun hd => hfits ?_).1
          rcases Nat.lt_or_ge entry.prefixLen tokens'.length with hlt | hge
          · exact h tokens' entry c hfound hlt (hd hlt)
          · have hstored : s.Fits (tokens'.take entry.prefixLen) := hfiles.shrinks hs _ _ _ htok hkv
            rwa [List.take_of_length_le hge] at hstored
      · refine iff_of_true (fun tokens' htext' hfits => ?_) fun _ _ _ h => by rw [hfound] at h; cases h
        obtain rfl := hsame htext'
        exact hr.refuses hfits
      · refine iff_of_true (fun tokens' htext' hfits => ?_) fun _ _ _ h => absurd (hfound _ h) (by simp)
        obtain rfl := hsame htext'
        exact hr.refuses hfits

theorem call_fittingFiles (hfs : Intact e) (hfiles : FittingFiles s g.world.disk) :
    FittingFiles s (call io e s g c).2.world.disk :=
  call_files hfs hfiles fun _ _ _ _ _ hd _ => hd.1

/-! ### The result -/

theorem korithInit_files {P : AmfKey → List Token → List Amf.Byte → Prop} (hw : ∀ key, w.disk.tok key = none) :
    Files P (korithInit e s dirOk w).world.disk := by
  intro key tokens blob htok
  have hdisk : (korithInit e s dirOk w).world.disk = w.disk := initStore_disk
  rw [hdisk, hw key] at htok
  cases htok

theorem every_nothingLeft_coldFiles (hfs : Intact e) (hw : ∀ key, w.disk.tok key = none)
    (h : Every (fun before c => NothingLeft io e s (after (call io e s) (korithInit e s dirOk w) before) c) calls) :
    ColdFiles io s (after (call io e s) (korithInit e s dirOk w) calls).world.disk := by
  refine h.inv (I := fun before => ColdFiles io s (after (call io e s) (korithInit e s dirOk w) before).world.disk)
    (korithInit_files hw) fun before c hfiles hc => ?_
  rw [after_concat]
  exact hc.coldFiles hfs hfiles

theorem after_fittingFiles (hfs : Intact e) (hw : ∀ key, w.disk.tok key = none) :
    FittingFiles s (after (call io e s) (korithInit e s dirOk w) calls).world.disk := by
  induction calls using List.reverseRecOn with
  | nil => exact korithInit_files hw
  | append_singleton calls c ih =>
    rw [after_concat]
    exact call_fittingFiles hfs ih

/-- In every sequence of calls over a directory without token files at first. -/
theorem replay_like_cold_iff (io : StateIO V L) (e : Env F) (hfs : Intact e) (s : Setup V L) (dirOk : Bool) (w : World F)
    (hw : ∀ key, w.disk.tok key = none) (calls : List (Call V L)) :
    (Every (fun before c => LikeCold io e s (after (call io e s) (korithInit e s dirOk w) before) c) calls ↔
      Every (fun before c => NothingLeft io e s (after (call io e s) (korithInit e s dirOk w) before) c) calls) ∧
    (Every (fun before c => RefusesLong io e s (after (call io e s) (korithInit e s dirOk w) before) c) calls ↔
      Every (fun before c => Room io e s (after (call io e s) (korithInit e s dirOk w) before) c) calls) := by
  constructor
  · refine every_congr fun before c h => ?_
    exact likeCold_iff (every_nothingLeft_coldFiles hfs hw h)
  · refine every_congr fun before c _ => ?_
    exact refusesLong_iff (after_fittingFiles hfs hw)

end Cold

def sumNet : Network Token Nat where
  eval visible _ t := (t, [(visible.map Prod.snd).sum + t])
  sample := List.head?
  isEog t := t == 0

def readCells : Nat → List Nat → List (Nat × Nat) × List Nat
  | n + 1, p :: v :: rest => ((p, v) :: (readCells n rest).1, (readCells n rest).2)
  | _, rest => ([], rest)

theorem readCells_flatMap (cells : List (Nat × Nat)) (rest : List Nat) :
    readCells cells.length (cells.flatMap (fun cell => [cell.1, cell.2]) ++ rest) = (cells, rest) := by
  induction cells with
  | nil =>
    cases rest with
    | nil => rfl
    | cons x xs => cases xs <;> rfl
  | cons cell cells ih =>
    rw [List.length_cons, List.flatMap_cons, List.append_assoc, List.cons_append, List.cons_append, List.nil_append,
      readCells, ih]

def listIO : StateIO Token Nat where
  save c := encodeTokens (c.cells.length :: (c.cells.flatMap fun cell => [cell.1, cell.2]) ++ c.logits)
  load bytes :=
    match decodeBytes bytes 0 with
    | n :: rest => some ⟨(readCells n rest).1, (readCells n rest).2⟩
    | [] => none
  exact c := by
    rw [decodeBytes_encodeTokens, List.cons_append]
    dsimp only
    rw [readCells_flatMap]

theorem two_lt_limit : 2 < 2 ^ 31 := by decide

def smallSetup : Setup Token Nat := ⟨sumNet, none, { tenant 1 with nCtx := 4 }, 2, Nat.two_pos, two_lt_limit⟩

def smoothPrompt (tokens : List Token) : Prompt Token Nat where
  tokens := tokens
  prewarmed _ := false
  readOk := true
  setOk := true
  torn := ⟨[], []⟩
  getOk := true
  suffixOk _ := true
  coldOk _ := true
  broken := ⟨[], []⟩
  restoreMs := 0
  savedMs := 0
  decodeMs := 0
  stale := 0

def smallInit : KorithState Frac Token Nat := korithInit smallEnv smallSetup true emptyWorld

def twoOutputs (g : KorithState Frac Token Nat) : List Int := outputs smallSetup [(true, ⟨[], []⟩), (true, ⟨[], []⟩)] g

theorem replay_like_cold_extended : answer (call listIO smallEnv smallSetup) smallInit [.tokenize (smoothPrompt [1])]
      (.tokenize (smoothPrompt [1, 2])) = 2 ∧
    Every (fun before c => LikeCold listIO smallEnv smallSetup
      (after (call listIO smallEnv smallSetup) smallInit before) c)
      [.tokenize (smoothPrompt [1]), .tokenize (smoothPrompt [1, 2])] ∧
    Every (fun before c => RefusesLong listIO smallEnv smallSetup
      (after (call listIO smallEnv smallSetup) smallInit before) c)
      [.tokenize (smoothPrompt [1]), .tokenize (smoothPrompt [1, 2])] := by
  obtain ⟨hlike, hlong⟩ := replay_like_cold_iff listIO smallEnv smallEnv_intact smallSetup true emptyWorld (fun _ => rfl)
    [.tokenize (smoothPrompt [1]), .tokenize (smoothPrompt [1, 2])]
  refine ⟨by decide +kernel, hlike.mpr ?_, hlong.mpr ?_⟩
  · -- a smooth prompt is not torn
    have hleft : ∀ g tokens, NothingLeft listIO smallEnv smallSetup g (.tokenize (smoothPrompt tokens)) := by
      intro g tokens tokens' entry left h _
      rw [(restored_some h).2 left rfl]
      rfl
    exact every_concat.mpr ⟨every_concat.mpr ⟨every_nil, hleft _ _⟩, hleft _ _⟩
  · have hroom : ∀ g tokens, tokens ≠ [] → tokens.length < 4 →
        Room listIO smallEnv smallSetup g (.tokenize (smoothPrompt tokens)) := by
      intro g tokens hne hlen tokens' entry c h _ _ _
      have htext : (smoothPrompt tokens).text smallSetup = some tokens := if_neg fun h => hne (List.isEmpty_iff.mp h)
      cases htext.symm.trans (restored_some h).1
      exact hlen
    exact every_concat.mpr ⟨every_concat.mpr ⟨every_nil, hroom _ _ (by decide) (by decide)⟩,
      hroom _ _ (by decide) (by decide)⟩

/-- The prompt [1] again, whose restore reports less than the full size and leaves a cell of the token 5. -/
def tornPrompt : Prompt Token Nat := { smoothPrompt [1] with setOk := false, torn := ⟨[(0, 5)], []⟩ }

/-- After the short restore the prompt [1] is decoded behind the cell that was left: the steps return 6 and 12 instead
of 1 and 2, also after the next, exact restore. And a prompt that fills the context of four tokens is accepted behind
its stored first token, while a cold run refuses it. -/
theorem replay_not_like_cold : (¬ Every (fun before c => LikeCold listIO smallEnv smallSetup
        (after (call listIO smallEnv smallSetup) smallInit before) c)
      [.tokenize (smoothPrompt [1]), .tokenize tornPrompt]) ∧
    twoOutputs (after (call listIO smallEnv smallSetup) smallInit
      [.tokenize (smoothPrompt [1]), .tokenize tornPrompt, .tokenize (smoothPrompt [1])]) = [6, 12] ∧
    twoOutputs (coldRun listIO smallEnv smallSetup (smoothPrompt [1]) smallInit).2 = [1, 2] ∧
    (¬ Every (fun before c => RefusesLong listIO smallEnv smallSetup
        (after (call listIO smallEnv smallSetup) smallInit before) c)
      [.tokenize (smoothPrompt [1]), .tokenize (smoothPrompt [1, 1, 1, 1])]) ∧
    (coldRun listIO smallEnv smallSetup (smoothPrompt [1, 1, 1, 1]) smallInit).1 = -1 := by
  refine ⟨fun h => ?_, by decide +kernel, by decide +kernel, fun h => ?_, by decide +kernel⟩
  · obtain ⟨-, -, -, -, -, hsteps⟩ :=
      h [.tokenize (smoothPrompt [1])] (.tokenize tornPrompt) [] rfl (by decide +kernel)
    have hne : twoOutputs (korithTokenize listIO smallEnv smallSetup tornPrompt
          (after (call listIO smallEnv smallSetup) smallInit [.tokenize (smoothPrompt [1])])).2 ≠
        twoOutputs (coldRun listIO smallEnv smallSetup tornPrompt
          (after (call listIO smallEnv smallSetup) smallInit [.tokenize (smoothPrompt [1])])).2 := by
      decide +kernel
    exact hne (hsteps _)
  · have hret := h [.tokenize (smoothPrompt [1])] (.tokenize (smoothPrompt [1, 1, 1, 1])) [] rfl [1, 1, 1, 1] rfl
      (fun hfits => absurd (hfits (by decide)) (by decide))
    exact absurd hret (by decide +kernel)

end Korith.CApi
