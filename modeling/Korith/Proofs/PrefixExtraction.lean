import Korith.Proofs.AmfReplay

/-!
# A replay under an extracted prefix

With prefix extraction a snapshot is stored under the tokens before the last boundary, but it has the cells of the
whole prompt. A later prompt that begins with these tokens is decoded behind them, and nothing removes the cells that
are there already. So the context is that of the later prompt exactly if the snapshot has no more than the tokens found.
-/

set_option linter.unusedSectionVars false

namespace Korith.Engine

open Korith.Amf FloatArith

variable {F L : Type} {m : Memory} {xs ys tokens : List Token}

/-! ### Cells -/

def OnlyHolds (m : Memory) (xs : List Token) : Prop := m.Holds 0 xs ∧ ∀ q, q ≠ 0 → m.Holds q []

theorem onlyHolds_place (xs : List Token) : OnlyHolds (Memory.empty.place 0 0 xs) xs :=
  ⟨(Memory.holds_empty 0).place, fun q hq => (Memory.holds_empty q).place_ne hq⟩

theorem place_onlyHolds_iff (hx : tokens <+: xs) (hy : tokens <+: ys) (hlt : tokens.length < ys.length) :
    OnlyHolds ((Memory.empty.place 0 0 xs).place 0 tokens.length (ys.drop tokens.length)) ys ↔
      xs.length ≤ tokens.length := by
  constructor
  · rintro ⟨hholds, -⟩
    by_contra hle
    -- the first position that was decoded again has two cells
    have hcell := congrArg List.length (hholds tokens.length)
    rw [Memory.place_cells, (onlyHolds_place xs).1, if_pos (Nat.le_refl _), Nat.sub_self, List.getElem?_drop,
      List.getElem?_eq_getElem (by omega), List.getElem?_eq_getElem (by omega), List.getElem?_eq_getElem (by omega)] at hcell
    cases hcell
  · intro hle
    obtain rfl := hx.eq_of_length_le hle
    have happ : (Memory.empty.place 0 0 tokens).place 0 (0 + tokens.length) (ys.drop tokens.length) = _ :=
      Memory.place_append
    rw [Nat.zero_add, List.prefix_iff_eq_append.mp hy] at happ
    rw [happ]
    exact onlyHolds_place ys

/-! ### Requests -/

section Requests

variable [FloatArith F] {target : AmfContext → List Token → List L} {io : StateIO target} {e : Env F} {w : World F}
  {r : Request F L} {c : Ctx L} {d : Disk F} {prompt : List Token} {i n pos : Nat} {x : AmfEntry F} {a : Attempt F L}

/-- The tokens begin the prompt, and the state is that of the whole prompt. -/
def SnapshotOf (io : StateIO target) (prompt : List Token) (_ : AmfKey) (tokens : List Token) (blob : List Amf.Byte) :
    Prop := tokens <+: prompt ∧ ∃ ctx, blob = io.save (cold target ctx prompt)

/-- The lookup of `tokens` finds the entry and nothing blocks it, its state can be read and restored, and the rest of
the prompt decoded behind it. -/
structure Replays (target : AmfContext → List Token → List L) (e : Env F) (r : Request F L) (tokens : List Token)
    (w : World F) (x : AmfEntry F) : Prop where
  opened : (r.openStore e w).1 = true
  hit : (r.hit e tokens (r.openStore e w).2).1 = some x
  restored : r.readOk = true ∧ (loadKv x (r.hit e tokens (r.openStore e w).2).2).isSome ∧ r.setOk = true
  rest : (decodeTokens (target r.ctx) r.ctx.nCtx.toNat r.nBatch r.suffixOk r.broken ⟨Memory.empty, []⟩ x.prefixLen
    (r.prompt.drop x.prefixLen)).1 = true

theorem restoreHit_hitEntry : (restoreHit io e r x c w).hitEntry = some x := by
  unfold restoreHit
  split
  · rfl
  · split
    · rfl
    · dsimp only
      split_ifs <;> rfl

theorem restoreHit_used_iff (hload : ∀ blob, loadKv x w = some blob → ∃ c', io.load blob = some c' ∧ c'.out ≠ []) :
    (restoreHit io e r x c w).usedAmf = true ↔
      (r.readOk = true ∧ (loadKv x w).isSome ∧ r.setOk = true) ∧
      (decodeTokens (target r.ctx) r.ctx.nCtx.toNat r.nBatch r.suffixOk r.broken ⟨Memory.empty, []⟩ x.prefixLen
        (r.prompt.drop x.prefixLen)).1 = true := by
  unfold restoreHit
  cases r.readOk with
  | false => simp
  | true =>
    cases hkv : loadKv x w with
    | none => simp
    | some blob =>
      obtain ⟨c', hc', hout⟩ := hload blob hkv
      cases r.setOk with
      | false => simp
      | true =>
        simp only [if_true, hc', List.isEmpty_iff, if_neg hout, decodeTokens_fst ⟨Memory.empty, []⟩]
        split_ifs with hd <;> simp [hd]

theorem undo_same : (a.undo e).usedAmf = a.usedAmf ∧ (a.undo e).hitEntry = a.hitEntry := by
  unfold Attempt.undo
  split_ifs <;> exact ⟨rfl, rfl⟩

theorem attempt_used_iff (hfiles : Files (SnapshotOf io prompt) w.disk) : (r.attempt io e tokens w).usedAmf = true ∧
    (r.attempt io e tokens w).hitEntry = some x ↔ Replays target e r tokens w x := by
  obtain ⟨hdisk, hsound⟩ := openStore_ok (e := e) r w
  unfold Request.attempt
  dsimp only
  rw [undo_same.1, undo_same.2]
  by_cases hopen : (r.openStore e w).1 = true
  · obtain ⟨hshrinks, hspec⟩ := hit_spec e r tokens (hsound hopen)
    rw [if_pos hopen, lookupPrompt]
    cases hhit : (r.hit e tokens (r.openStore e w).2).1 with
    | none => exact ⟨(fun h => by cases h.1), fun h => by cases hhit.symm.trans h.hit⟩
    | some y =>
      rw [Option.elim_some, restoreHit_hitEntry, restoreHit_used_iff]
      · constructor
        · rintro ⟨⟨hrestored, hrest⟩, ⟨⟩⟩
          exact ⟨hopen, hhit, hrestored, hrest⟩
        · intro h
          obtain rfl : y = x := Option.some.inj (hhit.symm.trans h.hit)
          exact ⟨⟨h.restored, h.rest⟩, rfl⟩
      · intro blob hblob
        obtain ⟨out, -, -, hkey, htok⟩ := hspec y hhit
        have hsnapshot := (hdisk ▸ hfiles.shrinks) hshrinks y.key out blob htok (of_loadKv hblob).1
        obtain ⟨-, ctx, rfl⟩ := hsnapshot
        exact ⟨_, io.exact ctx prompt, List.cons_ne_nil _ _⟩
  · rw [if_neg hopen]
    exact ⟨(fun h => by cases h.1), fun h => absurd h.opened hopen⟩

theorem Replayed.placed (h : Replayed io r (r.prompt.take i) n d c pos) (hfiles : Files (SnapshotOf io prompt) d)
    (hne : r.prompt.drop i ≠ []) : pos = r.prompt.length ∧
    c.out = [target r.ctx (c.mem.tokens 0 (r.prompt.length - 1))] ∧
    (OnlyHolds c.mem r.prompt ↔ prompt.length ≤ n) := by
  obtain ⟨tokens, blob, c₀, hpre, rfl, htok, hkv, hload, hd⟩ := h
  obtain ⟨hprompt, ctx, rfl⟩ := hfiles _ tokens blob htok hkv
  obtain rfl : cold target ctx prompt = c₀ := Option.some.inj ((io.exact ctx prompt).symm.trans hload)
  have hrequest : tokens <+: r.prompt := hpre.trans (List.take_prefix _ _)
  -- the boundary is behind the tokens, so there is something to decode
  have hlt : tokens.length < r.prompt.length := by
    have hle := hpre.length_le
    rw [List.length_take] at hle
    rw [ne_eq, List.drop_eq_nil_iff] at hne
    omega
  have heq := (decodeTokens_eq r.nBatch_pos (fun hnil => absurd (List.drop_eq_nil_iff.mp hnil) (by omega))
    (congrArg Prod.fst hd)).1
  rw [hd, List.length_drop, Nat.add_sub_cancel' (Nat.le_of_lt hlt)] at heq
  obtain ⟨rfl, rfl⟩ := Prod.ext_iff.mp heq
  exact ⟨rfl, rfl, place_onlyHolds_iff hprompt hrequest hlt⟩

theorem lookupTokens_begins (r : Request F L) (boundary : Option (List Token)) :
    r.lookupTokens boundary <+: r.prompt := by
  unfold Request.lookupTokens
  cases boundary.bind (findLastSubsequence r.prompt) with
  | none => exact List.prefix_rfl
  | some i => exact List.take_prefix _ _

theorem prefillWith_first (r : Request F L) (boundary : Option (List Token)) (hfs : Intact e) (hw : ∀ key, w.disk.tok key = none) :
    Files (SnapshotOf io r.prompt) (prefillWith io e boundary r w).2.disk ∧
    ∀ st, (prefillWith io e boundary r w).1 = some st →
      st.usedAmf = false ∧ st.ctx = cold target r.ctx r.prompt := by
  obtain ⟨ha, hclear⟩ := attempt_spec io e r (r.lookupTokens boundary) w
  have hu : (r.attempt io e (r.lookupTokens boundary) w).usedAmf = false := by
    by_contra hu
    obtain ⟨-, x, -, tokens, -, -, -, -, htok, -⟩ := ha.used (by simpa using hu)
    rw [hw] at htok
    cases htok
  have hcold : ∀ c pos, (r.attempt io e (r.lookupTokens boundary) w).finish target r = (true, c, pos) →
      c = cold target r.ctx r.prompt := by
    intro c pos hfin
    exact congrArg (·.2.1) (hfin.symm.trans (finish_cold hu (hclear hu) (congrArg (·.1) hfin)).1)
  constructor
  · refine prefillWith_files hfs (fun key tokens blob htok _ => ?_) fun c pos hfin => ?_
    · rw [hw] at htok
      cases htok
    · obtain rfl := hcold c pos hfin
      exact ⟨lookupTokens_begins r boundary, r.ctx, rfl⟩
  · intro st hst
    obtain ⟨hfin, -, hused⟩ := prefillWith_some hst
    exact ⟨hused.trans hu, hcold _ _ hfin⟩

/-- What a prompt with a boundary leaves where only snapshots of another prompt are stored. -/
theorem attempt_finish (hne : r.prompt.drop i ≠ []) (hfiles : Files (SnapshotOf io prompt) w.disk)
    (hd : ((r.attempt io e (r.prompt.take i) w).finish target r).1 = true) : ∃ c,
    (r.attempt io e (r.prompt.take i) w).finish target r = (true, c, r.prompt.length) ∧
    c.out = [target r.ctx (c.mem.tokens 0 (r.prompt.length - 1))] ∧
    (OnlyHolds c.mem r.prompt ↔ ∀ x, Replays target e r (r.prompt.take i) w x → prompt.length ≤ x.prefixLen) := by
  obtain ⟨ha, hclear⟩ := attempt_spec io e r (r.prompt.take i) w
  cases hu : (r.attempt io e (r.prompt.take i) w).usedAmf with
  | false =>
    obtain ⟨hfin, -⟩ := finish_cold hu (hclear hu) hd
    have hall := Holds.all_tokens (onlyHolds_place r.prompt).1
    refine ⟨_, hfin, by rw [cold, hall], iff_of_true (onlyHolds_place r.prompt) fun x hx => ?_⟩
    cases hu.symm.trans ((attempt_used_iff hfiles).mpr hx).1
  | true =>
    obtain ⟨-, x, hx, hreplayed⟩ := ha.used hu
    obtain ⟨hpos, hout, hholds⟩ := hreplayed.placed hfiles hne
    refine ⟨_, by rw [Attempt.finish, if_pos hu, hpos], hout, hholds.trans ⟨fun hle y hy => ?_, fun h => ?_⟩⟩
    · obtain rfl : x = y := Option.some.inj (hx.symm.trans ((attempt_used_iff hfiles).mpr hy).2)
      exact hle
    · exact h x ((attempt_used_iff hfiles).mp ⟨hu, hx⟩)

end Requests

theorem drop_ne_nil_of_findLastSubsequence {haystack needle : List Token} {i : Nat}
    (h : findLastSubsequence haystack needle = some i) : haystack.drop i ≠ [] := by
  have hfrom : ∀ n, needle ≠ [] → findLastFrom haystack needle n = some i → haystack.drop i ≠ [] := by
    intro n hne hn hnil
    induction n with
    | zero =>
      obtain ⟨hp, ⟨⟩⟩ := Option.ite_none_right_eq_some.mp hn
      exact hne (List.prefix_nil.mp (hnil ▸ List.isPrefixOf_iff_prefix.mp hp))
    | succ n ih =>
      rw [findLastFrom] at hn
      split_ifs at hn with hp
      · cases hn
        exact hne (List.prefix_nil.mp (hnil ▸ List.isPrefixOf_iff_prefix.mp hp))
      · exact ih hn
  unfold findLastSubsequence at h
  split_ifs at h with hshort
  exact hfrom _ (fun hnil => hshort (by simp [hnil])) h

/-! ### The result -/

/-- In a directory that was empty at first a prompt is served, which is decoded and whose snapshot is stored under its
extracted tokens; then a prompt with a boundary. -/
theorem extracted_replay_iff [FloatArith F] {target : AmfContext → List Token → List L} (io : StateIO target)
    (e : Env F) (hfs : Intact e) (w : World F) (hw : ∀ key, w.disk.tok key = none) (boundary : List Token)
    (r₁ r₂ : Request F L) (i : Nat) (hboundary : findLastSubsequence r₂.prompt boundary = some i) :
    (∀ st, (prefillWith io e (some boundary) r₁ w).1 = some st →
      st.usedAmf = false ∧ st.ctx = cold target r₁.ctx r₁.prompt) ∧
    (∀ st, (prefillWith io e (some boundary) r₂ (prefillWith io e (some boundary) r₁ w).2).1 = some st →
      st.pos = r₂.prompt.length ∧
      (OnlyHolds st.ctx.mem r₂.prompt ∧ st.logits = target r₂.ctx r₂.prompt ↔
        ∀ x, Replays target e r₂ (r₂.prompt.take i) (prefillWith io e (some boundary) r₁ w).2 x →
          r₁.prompt.length ≤ x.prefixLen)) ∧
    ((decodeTokens (target r₂.ctx) r₂.ctx.nCtx.toNat r₂.nBatch r₂.coldOk r₂.broken
        { r₂.start with mem := Memory.empty } 0 r₂.prompt).1 = true →
      (prefillWith io e (some boundary) r₂ (prefillWith io e (some boundary) r₁ w).2).1.isSome) := by
  obtain ⟨hfiles, hfirst⟩ := prefillWith_first r₁ (some boundary) hfs hw
  have htokens : r₂.lookupTokens (some boundary) = r₂.prompt.take i := by
    rw [Request.lookupTokens, Option.bind_some, hboundary, Option.elim_some]
  have hne := drop_ne_nil_of_findLastSubsequence hboundary
  refine ⟨hfirst, fun st hst => ?_, fun hcold => ?_⟩
  · obtain ⟨hfin, hrow, -⟩ := prefillWith_some hst
    rw [htokens] at hfin
    obtain ⟨c, hfin', hout, hiff⟩ := attempt_finish hne hfiles (congrArg (·.1) hfin)
    obtain ⟨hctx, hpos⟩ := Prod.ext_iff.mp (congrArg (·.2) (hfin.symm.trans hfin'))
    dsimp only at hctx hpos
    rw [hctx, hout] at hrow
    rw [hctx]
    refine ⟨hpos, fun h => hiff.mp h.1, fun h => ⟨hiff.mpr h, ?_⟩⟩
    rw [← Option.some.inj hrow, Holds.all_tokens (hiff.mpr h).1]
  · obtain ⟨c, hfin, hout, -⟩ := attempt_finish hne hfiles (finish_of_cold (attempt_spec io e r₂ _ _).2 hcold)
    refine prefillWith_isSome (htokens ▸ hfin) ?_
    rw [hout]
    exact List.cons_ne_nil _ _

def servedAfter (first second : List Token) (h₁ : first ≠ []) (h₂ : second ≠ []) : Option (Prefilled Nat) :=
  (prefillWith sumIO smallEnv (some [9]) (smoothRequest second h₂)
    (prefillWith sumIO smallEnv (some [9]) (smoothRequest first h₁) emptyWorld).2).1

/-- The first prompt has no boundary, so its snapshot is stored under all of its tokens. -/
theorem extracted_replay_longer : ∃ st, servedAfter [1, 2] [1, 2, 9, 5] (by decide) (by decide) = some st ∧
    st.usedAmf = true ∧ st.logits = [17] ∧ OnlyHolds st.ctx.mem [1, 2, 9, 5] := by
  have hused : (servedAfter [1, 2] [1, 2, 9, 5] (by decide) (by decide)).map (·.usedAmf) = some true := by
    decide +kernel
  have hhit : ((smoothRequest [1, 2, 9, 5] (by decide)).hit smallEnv [1, 2]
      ((smoothRequest [1, 2, 9, 5] (by decide)).openStore smallEnv
        (prefillWith sumIO smallEnv (some [9]) (smoothRequest [1, 2] (by decide)) emptyWorld).2).2).1.map (·.prefixLen) =
      some 2 := by
    decide +kernel
  obtain ⟨st, hst, hu⟩ := Option.map_eq_some_iff.mp hused
  obtain ⟨-, hiff⟩ := (extracted_replay_iff sumIO smallEnv smallEnv_intact emptyWorld (fun _ => rfl) [9]
    (smoothRequest [1, 2] (by decide)) (smoothRequest [1, 2, 9, 5] (by decide)) 2 (by decide)).2.1 st hst
  obtain ⟨hholds, hlogits⟩ := hiff.mpr fun x hx =>
    Nat.le_of_eq (Option.some.inj (hhit.symm.trans (congrArg (Option.map AmfEntry.prefixLen) hx.hit)))
  exact ⟨st, hst, hu, hlogits, hholds⟩

/-- The cells of the first prompt behind the boundary are still there: two tokens at one position, and one behind the
second prompt. -/
theorem stale_suffix_survives :
    findLastSubsequence [1, 2, 9, 3, 4] [9] = some 2 ∧ findLastSubsequence [1, 2, 9, 5] [9] = some 2 ∧
    (servedAfter [1, 2, 9, 3, 4] [1, 2, 9, 5] (by decide) (by decide)).map (fun st =>
      (st.usedAmf, st.pos, st.logits, (List.range 6).map (st.ctx.mem.cells 0))) =
      some (true, 4, [29], [[1], [2], [9, 9], [3, 5], [4], []]) := by
  refine ⟨by decide, by decide, by decide +kernel⟩

end Korith.Engine
