import Mathlib.Logic.Basic

/-!
# Runs of a step function

A step that cannot happen has no result, and a run is a list of events each of which happens. `Along` says of every
event of a run something about the state in which it happens, `Fate` what the events make of a proposition.
-/

namespace Korith.Run

variable {σ ε : Type} {step : σ → ε → Option σ} {p p' : σ → ε → Prop} {I : σ → Prop} {s s' : σ} {e : ε}
  {es es' : List ε} {G : σ → Prop} {hit ok good : ε → Prop}

def run (step : σ → ε → Option σ) : List ε → σ → Option σ
  | [], s => some s
  | e :: es, s => (step s e).bind (run step es)

def Along (step : σ → ε → Option σ) (p : σ → ε → Prop) : List ε → σ → Prop
  | [], _ => True
  | e :: es, s => p s e ∧ ∀ s', step s e = some s' → Along step p es s'

instance Along.decide [∀ s e, Decidable (p s e)] : ∀ es s, Decidable (Along step p es s)
  | [], _ => .isTrue trivial
  | e :: es, s =>
    have htail : Decidable (∀ s', step s e = some s' → Along step p es s') :=
      match step s e with
      | none => .isTrue fun _ h => by cases h
      | some s₁ =>
        have := Along.decide es s₁
        decidable_of_iff (Along step p es s₁) ⟨fun h s' hs' => Option.some.inj hs' ▸ h, fun h => h s₁ rfl⟩
    inferInstanceAs (Decidable (_ ∧ _))

theorem run_cons : run step (e :: es) s = some s' ↔ ∃ s₁, step s e = some s₁ ∧ run step es s₁ = some s' :=
  Option.bind_eq_some_iff

theorem run_append : run step (es ++ es') s = (run step es s).bind (run step es') := by
  induction es generalizing s with
  | nil => rfl
  | cons e es ih =>
    rw [List.cons_append, run, run]
    cases step s e with
    | none => rfl
    | some s₁ => exact ih

theorem along_append (h : Along step p (es ++ es') s) (hrun : run step es s = some s') : Along step p es' s' := by
  induction es generalizing s with
  | nil =>
    cases hrun
    exact h
  | cons e es ih =>
    obtain ⟨s₁, hstep, hrest⟩ := run_cons.1 hrun
    exact ih (h.2 s₁ hstep) hrest

theorem along_left (h : Along step p (es ++ es') s) : Along step p es s := by
  induction es generalizing s with
  | nil => trivial
  | cons e es ih => exact ⟨h.1, fun s₁ hstep => ih (h.2 s₁ hstep)⟩

theorem Along.inv (h : Along step p es s) (hs : I s)
    (hkeep : ∀ s e s', I s → p s e → step s e = some s' → I s') (hrun : run step es s = some s') : I s' := by
  induction es generalizing s with
  | nil =>
    cases hrun
    exact hs
  | cons e es ih =>
    obtain ⟨s₁, hstep, hrest⟩ := run_cons.1 hrun
    exact ih (h.2 s₁ hstep) (hkeep s e s₁ hs h.1 hstep) hrest

theorem along_of_forall (h : ∀ e ∈ es, ∀ s, p s e) : Along step p es s := by
  induction es generalizing s with
  | nil => trivial
  | cons e es ih =>
    exact ⟨h e List.mem_cons_self s, fun s₁ _ => ih fun e' he' => h e' (List.mem_cons_of_mem _ he')⟩

theorem along_true : Along step (fun _ _ => True) es s := along_of_forall fun _ _ _ => trivial

theorem inv_of_run (hs : I s) (hkeep : ∀ s e s', I s → step s e = some s' → I s')
    (hrun : run step es s = some s') : I s' :=
  along_true.inv hs (fun s e s' h _ => hkeep s e s' h) hrun

theorem along_cons {s₁ : σ} (hstep : step s e = some s₁) : Along step p (e :: es) s ↔ p s e ∧ Along step p es s₁ := by
  simp [Along, hstep]

/-- Two conditions that agree on the events of a run, as long as it meets the first of them. -/
theorem along_iff (hs : I s) (hkeep : ∀ s e s', I s → p s e → step s e = some s' → I s')
    (hiff : ∀ s e s', I s → step s e = some s' → (p s e ↔ p' s e)) (hrun : run step es s = some s') :
    Along step p es s ↔ Along step p' es s := by
  induction es generalizing s with
  | nil => exact Iff.rfl
  | cons e es ih =>
    obtain ⟨s₁, hstep, hrest⟩ := run_cons.1 hrun
    rw [along_cons hstep, along_cons hstep, ← hiff s e s₁ hs hstep]
    exact and_congr_right fun hp => ih (hkeep s e s₁ hs hp hstep) hrest

theorem along_states_iff (hs : I s) (hrun : run step es s = some s') :
    Along step (fun s e => ∀ s', step s e = some s' → I s') es s ↔
      ∀ before after s₁, es = before ++ after → run step before s = some s₁ → I s₁ := by
  constructor
  · rintro halong before after s₁ rfl hbefore
    exact (along_left halong).inv hs (fun s e s' _ hp hstep => hp s' hstep) hbefore
  · intro hstates
    induction es generalizing s with
    | nil => trivial
    | cons e es ih =>
      obtain ⟨s₁, hstep, hrest⟩ := run_cons.1 hrun
      have hs₁ : I s₁ := hstates [e] es s₁ rfl (run_cons.2 ⟨s₁, hstep, rfl⟩)
      refine (along_cons hstep).2 ⟨fun s₂ hs₂ => ?_, ih hs₁ hrest fun before after t hes hbefore => ?_⟩
      · cases hstep.symm.trans hs₂
        exact hs₁
      · exact hstates (e :: before) after t (congrArg (e :: ·) hes) (run_cons.2 ⟨s₁, hstep, hbefore⟩)

/-- An order that every event of a run respects holds between any two states of it. -/
theorem along_order_iff {R : σ → σ → Prop} (hrefl : ∀ s, R s s) (htrans : ∀ s₁ s₂ s₃, R s₁ s₂ → R s₂ s₃ → R s₁ s₃)
    (hrun : run step es s = some s') : Along step (fun s e => ∀ s', step s e = some s' → R s s') es s ↔
      ∀ before mid after s₁ s₂, es = before ++ (mid ++ after) → run step before s = some s₁ →
        run step mid s₁ = some s₂ → R s₁ s₂ := by
  constructor
  · rintro halong before mid after s₁ s₂ rfl hbefore hmid
    refine (along_left (along_append halong hbefore)).inv (I := R s₁) (hrefl s₁) ?_ hmid
    intro s e s' hR hstep hs'
    exact htrans s₁ s s' hR (hstep s' hs')
  · intro hpairs
    induction es generalizing s with
    | nil => trivial
    | cons e es ih =>
      obtain ⟨s₁, hstep, hrest⟩ := run_cons.1 hrun
      refine (along_cons hstep).2 ⟨fun s₂ hs₂ => ?_, ih hrest fun before mid after t₁ t₂ hes hbefore hmid => ?_⟩
      · exact hpairs [] [e] es s s₂ rfl rfl (run_cons.2 ⟨s₂, hs₂, rfl⟩)
      · exact hpairs (e :: before) mid after t₁ t₂ (congrArg (e :: ·) hes) (run_cons.2 ⟨s₁, hstep, hbefore⟩) hmid

theorem not_hit_of_run (hG : ∀ s e s', G s → step s e = some s' → ¬ hit e ∧ G s') (hs : G s)
    (hrun : run step es s = some s') : ∀ e ∈ es, ¬ hit e := by
  induction es generalizing s with
  | nil => exact fun e he => absurd he List.not_mem_nil
  | cons e es ih =>
    obtain ⟨s₁, hstep, hrest⟩ := run_cons.1 hrun
    obtain ⟨he, hs₁⟩ := hG s e s₁ hs hstep
    intro e' he'
    rcases List.mem_cons.1 he' with rfl | he'
    · exact he
    · exact ih hs₁ hrest e' he'

/-- If `I` holds until an event hits and `G` from then on, and none hits in `G`, then one event hits at most. -/
theorem hit_once (hI : ∀ s e s', I s → good e → step s e = some s' → (hit e ∧ ok e ∧ G s') ∨ (¬ hit e ∧ I s'))
    (hG : ∀ s e s', G s → step s e = some s' → ¬ hit e ∧ G s') (hs : I s) (hrun : run step es s = some s')
    (hgood : ∀ e ∈ es, good e) : (I s' ∧ ∀ e ∈ es, ¬ hit e) ∨
      ∃ before e after, es = before ++ e :: after ∧ hit e ∧ ok e ∧ ∀ e' ∈ before ++ after, ¬ hit e' := by
  induction es generalizing s with
  | nil =>
    cases hrun
    exact .inl ⟨hs, fun e he => absurd he List.not_mem_nil⟩
  | cons e es ih =>
    obtain ⟨s₁, hstep, hrest⟩ := run_cons.1 hrun
    rcases hI s e s₁ hs (hgood e List.mem_cons_self) hstep with ⟨he, hok, hs₁⟩ | ⟨he, hs₁⟩
    · exact .inr ⟨[], e, es, rfl, he, hok, not_hit_of_run hG hs₁ hrest⟩
    · rcases ih hs₁ hrest fun e' he' => hgood e' (List.mem_cons_of_mem _ he') with
        ⟨hs', hnone⟩ | ⟨before, e', after, rfl, he', hok, hothers⟩
      · exact .inl ⟨hs', List.forall_mem_cons.2 ⟨he, hnone⟩⟩
      · exact .inr ⟨e :: before, e', after, rfl, he', hok, List.forall_mem_cons.2 ⟨he, hothers⟩⟩

/-- If from every state of `I` an event can happen that hits or brings `μ` down, then one that hits can be reached. -/
theorem exists_hit (μ : σ → Nat)
    (hnext : ∀ s, I s → ∃ e s', step s e = some s' ∧ good e ∧ (hit e ∨ (I s' ∧ μ s' < μ s))) (hs : I s) :
    ∃ es s', run step es s = some s' ∧ (∀ e ∈ es, good e) ∧ ∃ e ∈ es, hit e := by
  induction hn : μ s using Nat.strongRecOn generalizing s with
  | _ n ih =>
    obtain ⟨e, s₁, hstep, hgood, hhit | ⟨hs₁, hlt⟩⟩ := hnext s hs
    · exact ⟨[e], s₁, run_cons.2 ⟨s₁, hstep, rfl⟩, fun e' he' => List.mem_singleton.1 he' ▸ hgood, e,
        List.mem_singleton_self e, hhit⟩
    · obtain ⟨es, s', hrun, hall, e', he', hhit⟩ := ih (μ s₁) (hn ▸ hlt) hs₁ rfl
      exact ⟨e :: es, s', run_cons.2 ⟨s₁, hstep, hrun⟩, List.forall_mem_cons.2 ⟨hgood, hall⟩, e',
        List.mem_cons_of_mem _ he', hhit⟩

end Korith.Run
