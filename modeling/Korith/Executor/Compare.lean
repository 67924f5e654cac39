import Korith.Lib.Reduce
import Korith.Sample

/-!
# Comparing drafted tokens with the target's choice

The executor decodes a block of drafted tokens in the target and compares them with the greedy tokens of the rows,
either on the host (`hostCompare`, which collects the target's tokens up to an end-of-generation token and then scans
in chunks of eight) or in one kernel (`gpuSpecVerify`). `Verified` says what is wanted of the outcome (`settle`): the
accepted tokens are those the target would generate, and so is the token that corrects the first wrong one.
-/

namespace Korith.Executor

variable {L : Type} [LinearOrder L] [OrderBot L] {ds ts : List Token}

/-! ### The code -/

def scanTail : Nat → List Token → List Token → Option Nat
  | i, t :: ts, d :: ds => if t ≠ d then some i else scanTail (i + 1) ts ds
  | _, _, _ => none

def mismatchMask (ts ds : List Token) : List Bool := List.zipWith (fun t d => decide (t ≠ d)) ts ds

def chunkScan : Nat → Nat → List Token → List Token → Option Nat
  | 0, i, ts, ds => scanTail i ts ds
  | chunks + 1, i, ts, ds =>
    match (mismatchMask (ts.take 8) (ds.take 8)).findIdx? id with
    | some j => some (i + j)
    | none => chunkScan chunks (i + 8) (ts.drop 8) (ds.drop 8)

def firstMismatchAcceptScan (target draft : List Token) : Option Nat :=
  chunkScan (target.length / 8) 0 target draft

/-- What a comparison finds. `stopped` is set if the target ends behind the accepted tokens. -/
structure Compared where
  accepted : Nat
  mismatch : Option (Nat × Token)
  stopped : Bool
  deriving DecidableEq

/-- The target's tokens up to an end-of-generation token, and that token. `none` if a row has no
token or there is no room for one more. -/
def targetTokens (isEog : Token → Bool) : List (Option Token) → List Token → Option (List Token × Option Token)
  | [], acc => some (acc, none)
  | none :: _, _ => none
  | some t :: ps, acc =>
    if isEog t then some (acc, some t)
    else if 64 ≤ acc.length then none
    else targetTokens isEog ps (acc ++ [t])

def hostCompare (isEog : Token → Bool) (allowEog : Bool) (preds : List (Option Token))
    (draft : List Token) : Option Compared :=
  (targetTokens isEog preds []).map fun (ts, eog) =>
    if ts = [] then ⟨0, eog.map (0, ·), false⟩
    else
      match firstMismatchAcceptScan ts draft with
      | none => ⟨ts.length, none, eog.isSome && allowEog⟩
      | some i => ⟨i, ts[i]?.map (i, ·), false⟩

def pickEntry (a b : L × Nat) : L × Nat := if a.1 < b.1 ∨ (b.1 = a.1 ∧ b.2 < a.2) then b else a

/-- One row of `fused_verify_kernel`: 256 threads, which start from `-FLT_MAX` at index 0. -/
def fusedArgmax (row : List L) : Token := (blockReduce pickEntry 8 (⊥, 0) row.zipIdx).2

def fusedRows : Nat → List (List L) → List Token → Compared
  | n, row :: rows, t :: ts =>
    if fusedArgmax row = t then fusedRows (n + 1) rows ts else ⟨n, some (n, fusedArgmax row), false⟩
  | n, _, _ => ⟨n, none, false⟩

/-- `gpu_spec_verify_greedy_segmented_from_host`; it looks at 64 rows at most. -/
def gpuSpecVerify (rows : List (List L)) (draft : List Token) : Compared :=
  fusedRows 0 (rows.take 64) (draft.take 64)

/-- How many drafted tokens stand, the target's token for the first one that does not, and whether the target ends
there. -/
structure Checked where
  accepted : Nat
  correction : Option Token
  finished : Bool
  deriving DecidableEq

def settle (isEog : Token → Bool) (allowEog : Bool) (proposed : Nat) (c : Compared) : Checked :=
  match c.mismatch with
  | none => ⟨c.accepted, none, c.stopped⟩
  | some (i, t) =>
    if proposed ≤ i then ⟨c.accepted, none, c.stopped⟩
    else if isEog t then ⟨c.accepted, none, c.stopped || allowEog⟩
    else ⟨c.accepted, some t, c.stopped⟩

/-! ### The chunked scan -/

theorem scanTail_eq (i : Nat) (ts ds : List Token) :
    scanTail i ts ds = ((mismatchMask ts ds).findIdx? id).map (i + ·) := by
  induction ts generalizing i ds with
  | nil => cases ds <;> rfl
  | cons t ts ih =>
    cases ds with
    | nil => rfl
    | cons d ds =>
      by_cases h : t = d
      · have ih := ih (i + 1) ds
        simp only [mismatchMask] at ih
        simp [scanTail, mismatchMask, h, List.findIdx?_cons, ih, Function.comp_def, Nat.add_assoc,
          Nat.add_comm 1]
      · simp [scanTail, mismatchMask, h, List.findIdx?_cons]

theorem mismatchMask_split (ts ds : List Token) :
    mismatchMask ts ds = mismatchMask (ts.take 8) (ds.take 8) ++ mismatchMask (ts.drop 8) (ds.drop 8) := by
  simp only [mismatchMask, ← List.take_zipWith, ← List.drop_zipWith, List.take_append_drop]

theorem chunkScan_eq (c i : Nat) (ts ds : List Token) (hc : 8 * c ≤ ts.length) (hl : ts.length ≤ ds.length) :
    chunkScan c i ts ds = ((mismatchMask ts ds).findIdx? id).map (i + ·) := by
  induction c generalizing i ts ds with
  | zero => exact scanTail_eq i ts ds
  | succ c ih =>
    have hlen : (mismatchMask (ts.take 8) (ds.take 8)).length = 8 := by simp [mismatchMask]; omega
    rw [mismatchMask_split ts ds, List.findIdx?_append, chunkScan]
    cases (mismatchMask (ts.take 8) (ds.take 8)).findIdx? id with
    | some j => rfl
    | none =>
      rw [ih (i + 8) _ _ (by simp; omega) (by simp; omega), hlen]
      simp [Function.comp_def, Nat.add_assoc, Nat.add_comm 8]

theorem firstMismatchAcceptScan_eq (hl : ts.length ≤ ds.length) :
    firstMismatchAcceptScan ts ds = (mismatchMask ts ds).findIdx? id := by
  rw [firstMismatchAcceptScan, chunkScan_eq _ _ _ _ (Nat.mul_div_le ..) hl]
  simp

theorem firstMismatchAcceptScan_cons {t d : Token} (hl : ts.length ≤ ds.length) :
    firstMismatchAcceptScan (t :: ts) (d :: ds) =
      if t = d then (firstMismatchAcceptScan ts ds).map (· + 1) else some 0 := by
  have hcons : (t :: ts).length ≤ (d :: ds).length := Nat.succ_le_succ hl
  rw [firstMismatchAcceptScan_eq hl, firstMismatchAcceptScan_eq hcons, mismatchMask, List.zipWith_cons_cons,
    List.findIdx?_cons]
  by_cases h : t = d
  · simp [h, mismatchMask]
  · simp [h]

/-! ### The plain comparison -/

def Checked.succ (v : Checked) : Checked := { v with accepted := v.accepted + 1 }

/-- Go on while the target's token is the drafted one, then correct it or end. -/
def sequentialCompare (isEog : Token → Bool) (allowEog : Bool) : List (Option Token) → List Token → Checked
  | some t :: preds, d :: ds =>
    if isEog t then ⟨0, none, allowEog⟩
    else if t = d then (sequentialCompare isEog allowEog preds ds).succ
    else ⟨0, some t, false⟩
  | _, _ => ⟨0, none, false⟩

/-- `preds` are the target's choices behind each prefix of the draft, `none` or an end-of-generation
token where the target does not go on. -/
structure Predicts (next : List Token → Option Token) (isEog : Token → Bool) (text draft : List Token)
    (preds : List (Option Token)) : Prop where
  length : preds.length = draft.length
  next : ∀ i p, preds[i]? = some p → next (text ++ draft.take i) = p.filter fun t => !isEog t

structure Verified (next : List Token → Option Token) (text draft : List Token) (v : Checked) : Prop where
  le : v.accepted ≤ draft.length
  follows : Follows next text (draft.take v.accepted)
  correct : ∀ t, v.correction = some t → next (text ++ draft.take v.accepted) = some t
  stop : v.finished = true → next (text ++ draft.take v.accepted) = none ∧ v.correction = none

variable {next : List Token → Option Token} {isEog : Token → Bool} {allowEog : Bool} {text draft : List Token}
  {preds : List (Option Token)} {d : Token} {v : Checked} {acc : List Token} {eog : Option Token} {t : Token}

theorem verified_none : Verified next text draft ⟨0, none, false⟩ :=
  ⟨Nat.zero_le _, trivial, (fun _ h => by cases h), (fun h => by cases h)⟩

theorem Verified.cons (hd : next text = some d) (h : Verified next (text ++ [d]) draft v) :
    Verified next text (d :: draft) v.succ := by
  have htake : text ++ (d :: draft).take v.succ.accepted = text ++ [d] ++ draft.take v.accepted := by
    simp [Checked.succ]
  refine ⟨Nat.succ_le_succ h.le, ⟨hd, h.follows⟩, ?_, ?_⟩
  · rw [htake]
    exact h.correct
  · rw [htake]
    exact h.stop

theorem Predicts.verified (h : Predicts next isEog text draft preds) :
    Verified next text draft (sequentialCompare isEog allowEog preds draft) := by
  induction preds generalizing text draft with
  | nil => exact verified_none
  | cons p preds ih =>
    obtain ⟨d, ds, rfl⟩ := List.exists_cons_of_length_eq_add_one h.length.symm
    have hnext : next text = p.filter fun t => !isEog t := by simpa using h.next 0 p rfl
    cases p with
    | none => exact verified_none
    | some t =>
      rw [sequentialCompare]
      split_ifs with ht htd
      · have hstop : next text = none := by simpa [Option.filter, ht] using hnext
        exact ⟨Nat.zero_le _, trivial, (fun _ h => by cases h), fun _ => ⟨by simpa using hstop, rfl⟩⟩
      · subst htd
        have hrest : Predicts next isEog (text ++ [t]) ds preds :=
          ⟨by simpa using h.length, fun i p hi => by simpa using h.next (i + 1) p hi⟩
        exact (ih hrest).cons (by simpa [Option.filter, ht] using hnext)
      · refine ⟨Nat.zero_le _, trivial, ?_, (fun h => by cases h)⟩
        rintro u ⟨⟩
        simpa [Option.filter, ht] using hnext

/-! ### On the host -/

theorem targetTokens_cons (h : targetTokens isEog preds (t :: acc) = some (ts, eog)) :
    ∃ us, ts = t :: us ∧ targetTokens isEog preds acc = some (us, eog) := by
  induction preds generalizing acc with
  | nil =>
    cases h
    exact ⟨acc, rfl, rfl⟩
  | cons p preds ih =>
    cases p with
    | none => cases h
    | some u =>
      rw [targetTokens] at h ⊢
      split_ifs at h ⊢ with hu hroom hroom'
      · cases h
        exact ⟨acc, rfl, rfl⟩
      · exact absurd (Nat.le_succ_of_le hroom) hroom'
      · exact ih h

theorem targetTokens_length (h : targetTokens isEog preds [] = some (ts, eog)) : ts.length ≤ preds.length := by
  induction preds generalizing ts with
  | nil =>
    cases h
    exact Nat.le_refl _
  | cons p preds ih =>
    cases p with
    | none => cases h
    | some u =>
      rw [targetTokens] at h
      split_ifs at h
      · cases h
        exact Nat.zero_le _
      · obtain ⟨us, rfl, hus⟩ := targetTokens_cons h
        exact Nat.succ_le_succ (ih hus)

theorem targetTokens_eog (h : targetTokens isEog preds acc = some (ts, some t)) :
    isEog t = true ∧ 0 < preds.length := by
  induction preds generalizing acc with
  | nil => cases h
  | cons p preds ih =>
    cases p with
    | none => cases h
    | some u =>
      rw [targetTokens] at h
      split_ifs at h with hu
      · cases h
        exact ⟨hu, Nat.succ_pos _⟩
      · exact ⟨(ih h).1, Nat.succ_pos _⟩

theorem targetTokens_isSome (hp : ∀ p ∈ preds, p ≠ none)
    (hl : acc.length + preds.length ≤ 64) : (targetTokens isEog preds acc).isSome := by
  induction preds generalizing acc with
  | nil => rfl
  | cons p preds ih =>
    obtain ⟨t, rfl⟩ := Option.ne_none_iff_exists'.1 (hp p List.mem_cons_self)
    rw [List.length_cons] at hl
    rw [targetTokens]
    split_ifs
    · rfl
    · omega
    · exact ih (fun q hq => hp q (List.mem_cons_of_mem _ hq)) (by simp; omega)

theorem settle_hostCompare {c : Compared} (hlen : preds.length = draft.length)
    (h : hostCompare isEog allowEog preds draft = some c) :
    settle isEog allowEog draft.length c = sequentialCompare isEog allowEog preds draft := by
  induction preds generalizing draft c with
  | nil =>
    cases h
    rfl
  | cons p preds ih =>
    obtain ⟨d, ds, rfl⟩ := List.exists_cons_of_length_eq_add_one hlen.symm
    cases p with
    | none => cases h
    | some t =>
      rw [hostCompare, targetTokens] at h
      rw [sequentialCompare]
      by_cases ht : isEog t = true
      · rw [if_pos ht] at h ⊢
        cases h
        simp [settle, ht]
      · rw [if_neg ht, if_neg (by simp), Option.map_eq_some_iff] at h
        obtain ⟨⟨ts, eog⟩, htokens, rfl⟩ := h
        obtain ⟨us, rfl, hus⟩ := targetTokens_cons htokens
        have hlen' : preds.length = ds.length := by simpa using hlen
        have ih := ih hlen' (by rw [hostCompare, hus]; rfl)
        dsimp only at ih ⊢
        rw [if_neg ht, if_neg (List.cons_ne_nil _ _),
          firstMismatchAcceptScan_cons (hlen' ▸ targetTokens_length hus)]
        by_cases htd : t = d
        · rw [if_pos htd, if_pos htd, ← ih]
          cases us with
          | nil =>
            cases eog with
            | none => rfl
            | some u =>
              obtain ⟨hu, hpos⟩ := targetTokens_eog hus
              have hds : ¬ ds.length ≤ 0 := by omega
              simp [settle, hu, hds, firstMismatchAcceptScan, chunkScan, scanTail, Checked.succ]
          | cons u us =>
            rw [if_neg (List.cons_ne_nil _ _)]
            cases firstMismatchAcceptScan (u :: us) ds with
            | none => rfl
            | some i =>
              simp only [settle, Option.map_some, List.getElem?_cons_succ]
              cases (u :: us)[i]? with
              | none => rfl
              | some v =>
                simp only [Option.map_some, List.length_cons, Nat.add_le_add_iff_right]
                split_ifs <;> rfl
        · simp [settle, ht, htd]

theorem hostCompare_verified {c : Compared} (hp : Predicts next isEog text draft preds)
    (h : hostCompare isEog allowEog preds draft = some c) :
    Verified next text draft (settle isEog allowEog draft.length c) := by
  rw [settle_hostCompare hp.length h]
  exact hp.verified

/-! ### In the kernel -/

omit [OrderBot L] in
theorem picks_pickEntry : Picks (fun a b : L × Nat => a.1 < b.1 ∨ (a.1 = b.1 ∧ b.2 ≤ a.2)) pickEntry where
  refl a := .inr ⟨rfl, Nat.le_refl _⟩
  trans a b c := by
    rintro (h | ⟨h, hi⟩) (h' | ⟨h', hi'⟩)
    · exact .inl (lt_trans h h')
    · exact .inl (h' ▸ h)
    · exact .inl (h ▸ h')
    · exact .inr ⟨h.trans h', Nat.le_trans hi' hi⟩
  pick a b := by
    unfold pickEntry
    split_ifs with hb
    · exact .inr ⟨rfl, hb.imp_right fun h => ⟨h.1.symm, Nat.le_of_lt h.2⟩⟩
    · refine .inl ⟨rfl, ?_⟩
      push Not at hb
      rcases lt_or_eq_of_le hb.1 with hlt | heq
      · exact .inl hlt
      · exact .inr ⟨heq, hb.2 heq⟩

theorem lowestArgmax_fusedArgmax {row : List L} (hrow : row ≠ []) :
    lowestArgmax (fun _ => true) row = some (fusedArgmax row) := by
  obtain ⟨hmem, hge⟩ := picks_pickEntry.blockReduce 8 (⊥, 0) row.zipIdx
  have hpos : 0 < row.length := List.length_pos_iff.2 hrow
  have hentry : ∀ j (hj : j < row.length), _ := fun j hj =>
    hge (row[j], j) (.inr (List.mk_mem_zipIdx_iff_getElem?.2 (List.getElem?_eq_getElem hj)))
  rw [lowestArgmax_eq_some_iff]
  unfold fusedArgmax
  generalize blockReduce pickEntry 8 (⊥, 0) row.zipIdx = r at *
  obtain ⟨v, i⟩ := r
  -- the result is an entry of the row, or index 0 of a row that has no larger value
  have hi : ∃ hi : i < row.length, row[i] = v := by
    rcases hmem with heq | hm
    · obtain ⟨rfl, rfl⟩ : v = ⊥ ∧ i = 0 := by simpa using heq
      refine ⟨hpos, ?_⟩
      rcases hentry 0 hpos with h | h
      · exact absurd h not_lt_bot
      · exact h.1
    · have := List.mk_mem_zipIdx_iff_getElem?.1 hm
      exact List.getElem?_eq_some_iff.1 this
  obtain ⟨hi, rfl⟩ := hi
  refine ⟨rfl, hi, fun j hj _ => ?_, fun j hj _ => ?_⟩
  · rcases hentry j hj with h | h
    · exact le_of_lt h
    · exact le_of_eq h.1
  · rcases hentry j (by omega) with h | h
    · exact h
    · exact absurd h.2 (by simpa using hj)

theorem le_accepted_fusedRows (n : Nat) (rows : List (List L)) (ds : List Token) :
    n ≤ (fusedRows n rows ds).accepted := by
  induction ds generalizing n rows with
  | nil => cases rows <;> exact Nat.le_refl n
  | cons d ds ih =>
    cases rows with
    | nil => exact Nat.le_refl n
    | cons row rows =>
      rw [fusedRows]
      split_ifs
      · exact Nat.le_of_succ_le (ih (n + 1) rows)
      · exact Nat.le_refl n

theorem settle_fusedRows (n : Nat) (rows : List (List L))
    (heog : ∀ d ∈ draft.take ((fusedRows n rows draft).accepted - n), isEog d = false) :
    settle isEog true (n + draft.length) (fusedRows n rows draft) =
      let v := sequentialCompare isEog true (rows.map fun row => some (fusedArgmax row)) draft
      { v with accepted := n + v.accepted } := by
  induction draft generalizing n rows with
  | nil => cases rows <;> rfl
  | cons d ds ih =>
    cases rows with
    | nil => rfl
    | cons row rows =>
      rw [fusedRows] at heog ⊢
      rw [List.map_cons, sequentialCompare]
      by_cases h : fusedArgmax row = d
      · have hle := le_accepted_fusedRows (n + 1) rows ds
        rw [if_pos h] at heog ⊢
        obtain ⟨k, hk⟩ : ∃ k, (fusedRows (n + 1) rows ds).accepted = n + 1 + k := Nat.exists_eq_add_of_le hle
        have hsub : n + 1 + k - n = k + 1 := by omega
        rw [hk, hsub, List.take_succ_cons, List.forall_mem_cons] at heog
        have ih := ih (n + 1) rows (by rw [hk, Nat.add_sub_cancel_left]; exact heog.2)
        rw [if_neg (by simp [h, heog.1]), if_pos h, List.length_cons, Nat.add_comm ds.length, ← Nat.add_assoc, ih]
        simp only [Checked.succ, Nat.add_assoc, Nat.add_comm 1]
      · have hlt : ¬ n + (d :: ds).length ≤ n := by simp
        rw [if_neg h, if_neg h]
        simp only [settle, if_neg hlt]
        split_ifs <;> rfl

theorem settle_gpuSpecVerify {rows : List (List L)} (hrows : ∀ row ∈ rows, row ≠ [])
    (hlen : rows.length = draft.length) (hmax : draft.length ≤ 64)
    (heog : ∀ d ∈ draft.take (gpuSpecVerify rows draft).accepted, isEog d = false) :
    settle isEog true draft.length (gpuSpecVerify rows draft) =
      sequentialCompare isEog true (rows.map fun row => lowestArgmax (fun _ => true) row) draft := by
  have htargets : (rows.map fun row => lowestArgmax (fun _ => true) row) = rows.map fun row => some (fusedArgmax row) :=
    List.map_congr_left fun row hrow => lowestArgmax_fusedArgmax (hrows row hrow)
  have hgpu : gpuSpecVerify rows draft = fusedRows 0 rows draft := by
    rw [gpuSpecVerify, List.take_of_length_le hmax, List.take_of_length_le (hlen ▸ hmax)]
  rw [hgpu] at heog ⊢
  rw [htargets]
  simpa using settle_fusedRows 0 rows heog

theorem gpuSpecVerify_verified {rows : List (List L)} (hrows : ∀ row ∈ rows, row ≠ []) (hmax : draft.length ≤ 64)
    (hp : Predicts next isEog text draft (rows.map fun row => lowestArgmax (fun _ => true) row))
    (heog : ∀ t ∈ draft.take (gpuSpecVerify rows draft).accepted, isEog t = false) :
    Verified next text draft (settle isEog true draft.length (gpuSpecVerify rows draft)) := by
  rw [settle_gpuSpecVerify hrows (by simpa using hp.length) hmax heog]
  exact hp.verified

/-! ### Agreement -/

/-- One row of logits for each of at most 64 drafted tokens, none of which is an end-of-generation token. -/
structure DraftBlock (isEog : Token → Bool) (nVocab : Nat) (rows : List (List L)) (draft : List Token) : Prop where
  vocab : 1 ≤ nVocab
  width : ∀ row ∈ rows, row.length = nVocab
  length : rows.length = draft.length
  pos : 1 ≤ draft.length
  max : draft.length ≤ 64
  noEog : ∀ d ∈ draft, isEog d = false

/-- Where the target may end, the kernel and the host settle on the same count, correction and end, those of the plain
comparison with the first largest logit of each row. -/
theorem verify_paths_agree {nVocab : Nat} {rows : List (List L)} (h : DraftBlock isEog nVocab rows draft) :
    let plain := sequentialCompare isEog true (rows.map fun row => lowestArgmax (fun _ => true) row) draft
    settle isEog true draft.length (gpuSpecVerify rows draft) = plain ∧
      (hostCompare isEog true (rows.map fun row => sampleGreedyWithEogControl isEog (some row) true) draft).map
        (settle isEog true draft.length) = some plain := by
  have hrows : ∀ row ∈ rows, row ≠ [] := by
    rintro row hrow rfl
    have hvocab := h.vocab
    rw [← h.width _ hrow] at hvocab
    cases hvocab
  refine ⟨settle_gpuSpecVerify hrows h.length h.max fun d hd => h.noEog d (List.mem_of_mem_take hd), ?_⟩
  have hpreds : (rows.map fun row => sampleGreedyWithEogControl isEog (some row) true) =
      rows.map fun row => lowestArgmax (fun _ => true) row :=
    List.map_congr_left fun row _ => sampleGreedyWithEogControl_eq isEog row true
  have hsome : (targetTokens isEog (rows.map fun row => lowestArgmax (fun _ => true) row) []).isSome := by
    refine targetTokens_isSome (fun p hp => ?_) (by simp [h.length, h.max])
    obtain ⟨row, hrow, rfl⟩ := List.mem_map.1 hp
    rw [lowestArgmax_fusedArgmax (hrows row hrow)]
    exact Option.some_ne_none _
  rw [hpreds]
  cases hc : hostCompare isEog true (rows.map fun row => lowestArgmax (fun _ => true) row) draft with
  | none =>
    rw [hostCompare, Option.map_eq_none_iff] at hc
    rw [hc] at hsome
    cases hsome
  | some c => rw [Option.map_some, settle_hostCompare (by rw [List.length_map, h.length]) hc]

/-- The second drafted token is wrong, and the target ends there. -/
theorem verify_paths_agree_ended : let rows : List (List Nat) := [[0, 7, 3], [5, 1, 5]]
    DraftBlock (· == 0) 3 rows [1, 2] ∧
      settle (· == 0) true 2 (gpuSpecVerify rows [1, 2]) = ⟨1, none, true⟩ ∧
      (hostCompare (· == 0) true (rows.map fun row => sampleGreedyWithEogControl (· == 0) (some row) true) [1, 2]).map
        (settle (· == 0) true 2) = some ⟨1, none, true⟩ := by
  have h : DraftBlock (· == 0) 3 [[0, 7, 3], [5, 1, 5]] [1, 2] :=
    ⟨by decide, by decide, rfl, by decide, by decide, by decide⟩
  obtain ⟨hgpu, hhost⟩ := verify_paths_agree h
  exact ⟨h, hgpu.trans (by decide), hhost.trans (by decide)⟩

end Korith.Executor
