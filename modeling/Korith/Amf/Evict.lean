import Korith.Amf.Rep

/-!
# The budget loop

What `evict_if_needed` leaves (`evictIfNeeded_post`) and when it evicts nothing (`evictIfNeeded_zero_iff`). A round
has no victim exactly if every entry is hot and the total is not critical.
-/

set_option linter.unusedSectionVars false

namespace Korith.Amf

variable {F : Type} [FloatArith F] {e : Env F} {w : World F} {s : Store F} {tier : Tier} {nowMs incoming i : Nat}
  {xs : List (AmfEntry F)} {idx : Nat}

/-! ### Victims -/

theorem pickFrom_isSome {b : Nat × AmfEntry F} : (pickFrom e tier nowMs xs i (some b)).isSome := by
  induction xs generalizing i b with
  | nil => rfl
  | cons x xs ih =>
    simp only [pickFrom]
    split_ifs <;> exact ih

theorem pickFrom_none : pickFrom e tier nowMs xs i none = none ↔ ∀ x ∈ xs, classifyTier e x nowMs ≠ tier := by
  induction xs generalizing i with
  | nil => simp [pickFrom]
  | cons x xs ih =>
    simp only [pickFrom, List.forall_mem_cons]
    split_ifs with hx
    · simp [ih, hx]
    · have hsome : (pickFrom e tier nowMs xs (i + 1) (some (i, x))).isSome := pickFrom_isSome
      simp only [ne_eq, hx, false_and, iff_false]
      intro hnone
      rw [hnone] at hsome
      cases hsome

theorem pickFrom_lt {best : Option (Nat × AmfEntry F)} (hbest : ∀ b, best = some b → b.1 < i + xs.length)
    (h : pickFrom e tier nowMs xs i best = some idx) : idx < i + xs.length := by
  induction xs generalizing i best with
  | nil =>
    obtain ⟨b, hb, rfl⟩ := Option.map_eq_some_iff.mp h
    exact hbest b hb
  | cons x xs ih =>
    have hlen : i + (x :: xs).length = i + 1 + xs.length := by simp; omega
    rw [hlen] at hbest ⊢
    refine ih (fun b hb => ?_) h
    split_ifs at hb
    · exact hbest b hb
    · split at hb
      · cases hb; simp; omega
      · split_ifs at hb
        · cases hb; simp; omega
        · exact hbest b hb

theorem pickVictim_lt (h : pickVictim e incoming s nowMs = some idx) : idx < s.entries.length := by
  have hpick : ∀ tier, pickBudgetEvictionCandidate e s tier nowMs = some idx → idx < s.entries.length := by
    intro tier h
    simpa using pickFrom_lt (by simp) h
  unfold pickVictim at h
  rcases Option.or_eq_some_iff.mp h with h | ⟨-, h⟩
  · exact hpick _ h
  · rcases Option.or_eq_some_iff.mp h with h | ⟨-, h⟩
    · exact hpick _ h
    · split_ifs at h
      exact hpick _ h

def AllHot (e : Env F) (s : Store F) (nowMs : Nat) : Prop := ∀ x ∈ s.entries, classifyTier e x nowMs = .hot

theorem pickVictim_none (hne : s.entries ≠ []) : pickVictim e incoming s nowMs = none ↔
    AllHot e s nowMs ∧ critical.allows e.budget (s.totalBytes + incoming) = true := by
  simp only [pickVictim, Option.or_eq_none_iff, pickBudgetEvictionCandidate]
  rw [pickFrom_none, pickFrom_none]
  constructor
  · rintro ⟨hcold, hwarm, hrest⟩
    have hhot : AllHot e s nowMs := by
      intro x hx
      cases htier : classifyTier e x nowMs with
      | hot => rfl
      | warm => exact absurd htier (hwarm x hx)
      | cold => exact absurd htier (hcold x hx)
    refine ⟨hhot, ?_⟩
    by_contra hcrit
    rw [if_neg hcrit, pickFrom_none] at hrest
    obtain ⟨x, hx⟩ := List.exists_mem_of_ne_nil _ hne
    exact hrest x hx (hhot x hx)
  · rintro ⟨hhot, hcrit⟩
    refine ⟨fun x hx => ?_, fun x hx => ?_, if_pos hcrit⟩ <;> simp [hhot x hx]

/-! ### The loop -/

theorem evictEntryAt_length (h : idx < w.store.entries.length) :
    (evictEntryAt e idx w).store.entries.length + 1 = w.store.entries.length := by
  rw [evictEntryAt_store (List.getElem?_eq_getElem h), Store.drop, List.length_eraseIdx_of_lt h]
  omega

/-- The three ways the loop ends; its last reading of the clock is the one before the tick it ends with. -/
def RoomMade (e : Env F) (incoming : Nat) (w : World F) : Prop :=
  e.evictionWatermark.allows e.budget (w.store.totalBytes + incoming) = true ∨
  (AllHot e w.store (e.clock (w.tick - 1)) ∧
    critical.allows e.budget (w.store.totalBytes + incoming) = true) ∨
  w.store.entries = []

theorem evictLoop_post (fuel : Nat) (hfuel : w.store.entries.length < fuel) :
    RoomMade e incoming (evictLoop e incoming fuel w).2 := by
  induction fuel generalizing w with
  | zero => omega
  | succ fuel ih =>
    unfold evictLoop
    split_ifs with hstop
    · rcases Bool.or_eq_true_iff.mp hstop with hstop | hstop
      · exact .inl hstop
      · exact .inr (.inr (List.isEmpty_iff.mp hstop))
    · have hne : w.store.entries ≠ [] := by
        intro hnil; simp [hnil] at hstop
      split
      case h_1 hnone =>
        obtain ⟨hhot, hcrit⟩ := (pickVictim_none hne).mp hnone
        exact .inr (.inl ⟨hhot, hcrit⟩)
      case h_2 idx hidx =>
        refine ih ?_
        have := evictEntryAt_length (e := e) (w := w.next) (pickVictim_lt hidx)
        simp only [next_store] at this
        omega

theorem Watermark.allows_le {m : Watermark} {budget n : Nat} (h : m.allows budget n = true) : n ≤ budget := by
  have hle : n * m.den ≤ budget * m.den := by
    calc n * m.den ≤ m.num * budget := of_decide_eq_true h
      _ ≤ m.den * budget := Nat.mul_le_mul_right budget m.le
      _ = budget * m.den := Nat.mul_comm _ _
  exact Nat.le_of_mul_le_mul_right hle (Nat.lt_of_lt_of_le m.num_pos m.le)

theorem evictIfNeeded_post (hb : 0 < e.budget) (hin : incoming ≤ e.budget) :
    RoomMade e incoming (evictIfNeeded e incoming w).2 := by
  unfold evictIfNeeded
  rw [if_neg (by omega), if_neg (by omega)]
  exact evictLoop_post _ (Nat.lt_succ_self _)

theorem evictIfNeeded_within {b : Nat} (h : Inv b w) (hb : b = 0 ∨ b = e.budget)
    (hin : e.budget = 0 ∨ incoming ≤ e.budget) :
    Within b ((evictIfNeeded e incoming w).2.store.totalBytes + incoming) := by
  rcases hb with rfl | rfl
  · exact .inl rfl
  rcases Nat.eq_zero_or_pos e.budget with h0 | hpos
  · exact .inl h0
  have hle : incoming ≤ e.budget := hin.resolve_left (by omega)
  rcases evictIfNeeded_post (w := w) hpos hle with hroom | ⟨-, hroom⟩ | hnil
  · exact .inr (Watermark.allows_le hroom)
  · exact .inr (Watermark.allows_le hroom)
  · have hinv : Inv e.budget (evictIfNeeded e incoming w).2 :=
      evictIfNeeded_keep (P := Inv e.budget) (fun _ i h => evictEntryAt_inv h i) (fun _ h => h.next) h
    have htotal := hinv.rep.total
    rw [hnil] at htotal
    exact .inr (by rw [htotal]; simpa using hle)

theorem evictForStore_within {b kvSize : Nat} {existing : Option (AmfEntry F)} (h : Inv b w)
    (hb : b = 0 ∨ b = e.budget) (hkv : e.budget = 0 ∨ kvSize ≤ e.budget) :
    Within b ((evictForStore e kvSize existing w).2.store.totalBytes +
      (kvSize - existing.elim 0 (·.kvSize))) := by
  unfold evictForStore
  split
  · exact evictIfNeeded_within h hb hkv
  · split_ifs
    · exact evictIfNeeded_within h hb (hkv.imp_right fun hle => Nat.le_trans (Nat.sub_le _ _) hle)
    · exact h.within.mono (by simp; omega)

/-- No limit, below the watermark, or only hot entries that are not critical yet. -/
def RoomAlready (e : Env F) (incoming : Nat) (w : World F) : Prop :=
  e.budget = 0 ∨ e.budget < incoming ∨
  e.evictionWatermark.allows e.budget (w.store.totalBytes + incoming) = true ∨
  (AllHot e w.store (e.clock w.tick) ∧ critical.allows e.budget (w.store.totalBytes + incoming) = true)

theorem evictIfNeeded_zero_iff (hne : w.store.entries ≠ []) :
    (evictIfNeeded e incoming w).1 = 0 ↔ RoomAlready e incoming w := by
  unfold evictIfNeeded RoomAlready
  split_ifs with h0 hlt
  · simp [h0]
  · simp [hlt]
  · simp only [h0, hlt, false_or, evictLoop]
    split_ifs with hstop
    · have : e.evictionWatermark.allows e.budget (w.store.totalBytes + incoming) = true := by
        simpa [hne] using hstop
      simp [this]
    · have hover : ¬ e.evictionWatermark.allows e.budget (w.store.totalBytes + incoming) = true := by
        simpa [hne] using hstop
      rw [← pickVictim_none hne]
      simp only [hover]
      split
      case h_1 hnone => simp [hnone]
      case h_2 idx hidx => simp [hidx]

end Korith.Amf
