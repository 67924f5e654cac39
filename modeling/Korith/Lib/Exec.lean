import Mathlib.Tactic.Common

/-!
# Imperative code with early exits

`Exec σ ε ω α` is the type of a block of imperative code: it reads and writes a state `σ`, it
yields an `α` or leaves early with an `ε` (a `break`, a `continue`, a `return` in the middle), and
it writes events `ω` to a ghost log that the code itself cannot read.

`wp B x Q E s` says what holds after `x` has run from `s`: `Q` if it yields a value, `E` if it
leaves early. It only speaks of runs whose log has no event of `B`. As the log of a sequence is
the concatenation of the logs, a `B`-event is an assumption at the place where it is logged
(`wp_note`), and none of the code before or after has to carry it along.
-/

namespace Korith

/-- What a run leaves: its value or its way out, the last state, the events in order. -/
structure Outcome (σ ε ω α : Type) where
  res : Except ε α
  state : σ
  log : List ω

/-- The postcondition `Q` of a value, `E` of an early exit. -/
def Outcome.sat {σ ε ω α : Type} (Q : α → σ → Prop) (E : ε → σ → Prop) (r : Outcome σ ε ω α) : Prop :=
  match r.res with
  | .ok a => Q a r.state
  | .error e => E e r.state

def Exec (σ ε ω α : Type) : Type := σ → Outcome σ ε ω α

namespace Exec

variable {σ ε ω α β : Type} {B : ω → Prop} {Q Q' : α → σ → Prop} {E E' : ε → σ → Prop} {s : σ} {x : Exec σ ε ω α}

def seq (x : Exec σ ε ω α) (f : α → Exec σ ε ω β) : Exec σ ε ω β := fun s =>
  match x s with
  | ⟨.ok a, s', l⟩ => ⟨(f a s').res, (f a s').state, l ++ (f a s').log⟩
  | ⟨.error e, s', l⟩ => ⟨.error e, s', l⟩

instance : Monad (Exec σ ε ω) where
  pure a := fun s => ⟨.ok a, s, []⟩
  bind := seq

def get : Exec σ ε ω σ := fun s => ⟨.ok s, s, []⟩

def modify (f : σ → σ) : Exec σ ε ω Unit := fun s => ⟨.ok (), f s, []⟩

def exit (e : ε) : Exec σ ε ω α := fun s => ⟨.error e, s, []⟩

def note (c : Bool) (w : ω) : Exec σ ε ω Unit := fun s => ⟨.ok (), s, if c then [w] else []⟩

def when (c : Bool) (x : Exec σ ε ω Unit) : Exec σ ε ω Unit := if c then x else pure ()

/-- `try x` with an empty handler: what `x` yields, or none if it is left early. -/
def attempt {ε' : Type} (x : Exec σ ε' ω α) : Exec σ ε ω (Option α) := fun s =>
  match x s with
  | ⟨.ok a, s', l⟩ => ⟨.ok (some a), s', l⟩
  | ⟨.error _, s', l⟩ => ⟨.ok none, s', l⟩

/-- After a run of `x` from `s` that logs no event of `B`, `Q` or `E` holds. -/
def wp (B : ω → Prop) (x : Exec σ ε ω α) (Q : α → σ → Prop) (E : ε → σ → Prop) (s : σ) : Prop :=
  (∀ w ∈ (x s).log, ¬ B w) → Outcome.sat Q E (x s)

@[simp] theorem wp_pure (a : α) : wp B (pure a) Q E s ↔ Q a s := by
  simp [wp, pure, Outcome.sat]

@[simp] theorem wp_get {Q : σ → σ → Prop} : wp B get Q E s ↔ Q s s := by
  simp [wp, get, Outcome.sat]

@[simp] theorem wp_modify (f : σ → σ) {Q : Unit → σ → Prop} : wp B (modify f) Q E s ↔ Q () (f s) := by
  simp [wp, modify, Outcome.sat]

@[simp] theorem wp_exit (e : ε) : wp B (exit e) Q E s ↔ E e s := by
  simp [wp, exit, Outcome.sat]

@[simp] theorem wp_note (c : Bool) (w : ω) {Q : Unit → σ → Prop} :
    wp B (note c w) Q E s ↔ ((c = true → ¬ B w) → Q () s) := by
  cases c <;> simp [wp, note, Outcome.sat]

@[simp] theorem wp_bind (x : Exec σ ε ω α) (f : α → Exec σ ε ω β) {Q : β → σ → Prop} :
    wp B (x >>= f) Q E s ↔ wp B x (fun a s' => wp B (f a) Q E s') E s := by
  show wp B (seq x f) Q E s ↔ _
  unfold wp seq
  rcases x s with ⟨_ | a, s', l⟩
  · exact Iff.rfl
  · simp only [Outcome.sat, List.mem_append]
    constructor
    · intro h h₁ h₂
      exact h (fun w hw => hw.elim (h₁ w) (h₂ w))
    · intro h h₁
      exact h (fun w hw => h₁ w (.inl hw)) (fun w hw => h₁ w (.inr hw))

theorem wp_ite (c : Prop) [Decidable c] (x y : Exec σ ε ω α) :
    wp B (if c then x else y) Q E s ↔ (c → wp B x Q E s) ∧ (¬ c → wp B y Q E s) := by
  by_cases h : c <;> simp [h]

@[simp] theorem wp_when (c : Bool) (x : Exec σ ε ω Unit) {Q : Unit → σ → Prop} :
    wp B (when c x) Q E s ↔ (c = true → wp B x Q E s) ∧ (c = false → Q () s) := by
  cases c <;> simp [when]

variable (h : wp B x Q E s)

include h

theorem wp.mono (hQ : ∀ a s', Q a s' → Q' a s') (hE : ∀ e s', E e s' → E' e s') : wp B x Q' E' s := by
  intro hB
  have h' := h hB
  revert h'
  rcases x s with ⟨_ | a, s', l⟩
  · exact hE _ _
  · exact hQ _ _

theorem wp.and (h' : wp B x Q' E s) : wp B x (fun a s' => Q a s' ∧ Q' a s') E s := by
  intro hB
  have h₁ := h hB
  have h₂ := h' hB
  revert h₁ h₂
  rcases x s with ⟨_ | a, s', l⟩
  · exact fun h₁ _ => h₁
  · exact fun h₁ h₂ => ⟨h₁, h₂⟩

variable {f : α → Exec σ ε ω β} {a : α}

theorem wp.bind {Q' : β → σ → Prop} (hf : ∀ a s', Q a s' → wp B (f a) Q' E s') : wp B (x >>= f) Q' E s :=
  (wp_bind x f).2 (h.mono hf fun _ _ he => he)

theorem wp.imp (hQ : ∀ a s', Q a s' → Q' a s') : wp B x Q' E s :=
  h.mono hQ fun _ _ he => he

theorem wp.ok (hB : ∀ w ∈ (x s).log, ¬ B w) (ha : (x s).res = .ok a) : Q a (x s).state := by
  have h' := h hB
  rwa [Outcome.sat, ha] at h'

omit h

/-- What holds of the last state however the code is left. -/
theorem wp.state {I : σ → Prop} (h : wp (fun _ => False) x (fun _ => I) (fun _ => I) s) : I (x s).state := by
  have h' := h fun _ _ => id
  revert h'
  rcases x s with ⟨_ | a, s', l⟩
  · exact id
  · exact id

/-- Code that cannot be left early yields a value. -/
theorem wp.total (h : wp (fun _ => False) x Q (fun _ _ => False) s) : ∃ a, (x s).res = .ok a ∧ Q a (x s).state := by
  have h' := h fun _ _ => id
  unfold Outcome.sat at h'
  cases hres : (x s).res with
  | error e =>
    rw [hres] at h'
    exact h'.elim
  | ok a =>
    rw [hres] at h'
    exact ⟨a, rfl, h'⟩

@[simp] theorem wp_attempt {ε' : Type} (x : Exec σ ε' ω α) {Q : Option α → σ → Prop} :
    wp B (attempt x) Q E s ↔ wp B x (fun a => Q (some a)) (fun _ => Q none) s := by
  unfold wp attempt
  rcases x s with ⟨_ | a, s', l⟩
  · exact Iff.rfl
  · exact Iff.rfl

/-! ### Runs that are known -/

theorem pure_seq (a : α) (f : α → Exec σ ε ω β) : (pure a >>= f) = f a := rfl

theorem bind_of_ok {s' : σ} {l : List ω} (h : x s = ⟨.ok a, s', l⟩) :
    (x >>= f) s = ⟨(f a s').res, (f a s').state, l ++ (f a s').log⟩ := by
  show seq x f s = _
  rw [seq, h]

theorem bind_of_res_ok (h : (x s).res = .ok a) :
    (x >>= f) s = ⟨(f a (x s).state).res, (f a (x s).state).state, (x s).log ++ (f a (x s).state).log⟩ := by
  show seq x f s = _
  unfold seq
  revert h
  rcases x s with ⟨_ | a', s', l⟩
  · intro h
    cases h
  · intro h
    cases h
    rfl

theorem mem_log_bind {w : ω} (h : w ∈ (x s).log) : w ∈ ((x >>= f) s).log := by
  change w ∈ (seq x f s).log
  unfold seq
  revert h
  rcases x s with ⟨_ | a, s', l⟩
  · exact id
  · exact List.mem_append_left _

/-! ### Invariants of all code -/

/-- Whatever `x` does and however it is left, `I` is kept. -/
def Keeps (I : σ → Prop) (x : Exec σ ε ω α) : Prop := ∀ s, I s → I (x s).state

section Keeps

variable {I : σ → Prop}

@[grind ←] theorem keeps_pure (a : α) : Keeps I (pure a : Exec σ ε ω α) := fun _ h => h

@[grind ←] theorem keeps_get : Keeps I (get : Exec σ ε ω σ) := fun _ h => h

@[grind ←] theorem keeps_exit (e : ε) : Keeps I (exit e : Exec σ ε ω α) := fun _ h => h

@[grind ←] theorem keeps_note (c : Bool) (w : ω) : Keeps I (note c w : Exec σ ε ω Unit) := fun _ h => h

@[grind =] theorem keeps_modify (f : σ → σ) : Keeps I (modify f : Exec σ ε ω Unit) ↔ ∀ s, I s → I (f s) := Iff.rfl

@[grind ←] theorem keeps_bind (hx : Keeps I x) (hf : ∀ a, Keeps I (f a)) : Keeps I (x >>= f) := by
  intro s hs
  have h := hx s hs
  show I (seq x f s).state
  unfold seq
  revert h
  rcases x s with ⟨_ | a, s', l⟩
  · exact id
  · exact hf a s'

theorem keeps_read {f : σ → Exec σ ε ω β} (hf : ∀ s, Keeps I (f s)) : Keeps I (get >>= f) := keeps_bind keeps_get hf

theorem keeps_get_bind {f : σ → Exec σ ε ω β} (hf : ∀ s, I s → I (f s s).state) : Keeps I (get >>= f) :=
  fun s hs => hf s hs

theorem keeps_ite {c : Prop} [Decidable c] {y : Exec σ ε ω α} (hx : Keeps I x) (hy : Keeps I y) :
    Keeps I (if c then x else y) := by
  split_ifs
  · exact hx
  · exact hy

@[grind ←] theorem keeps_when {c : Bool} {x : Exec σ ε ω Unit} (hx : Keeps I x) : Keeps I (when c x) := by
  cases c with
  | true => exact hx
  | false => exact keeps_pure ()

end Keeps

/-! ### Loops -/

/-- How the body of a loop is left early. -/
inductive Leave (ρ : Type)
  | cont
  | brk
  | ret (r : ρ)

/-- `while (guard) body` with at most `fuel` iterations. The loop is left early with what the body
returns, or with `none` when there is no fuel left. -/
def loop {ρ : Type} (guard : σ → Bool) (body : Exec σ (Leave ρ) ω Unit) : Nat → Exec σ (Option ρ) ω Unit
  | 0 => exit none
  | fuel + 1 => fun s =>
    if guard s then
      match body s with
      | ⟨.ok (), s', l⟩ | ⟨.error .cont, s', l⟩ =>
        let r := loop guard body fuel s'
        ⟨r.res, r.state, l ++ r.log⟩
      | ⟨.error .brk, s', l⟩ => ⟨.ok (), s', l⟩
      | ⟨.error (.ret r), s', l⟩ => ⟨.error (some r), s', l⟩
    else ⟨.ok (), s, []⟩

/-- What one iteration establishes: `I` for the next one, `P` after the loop, or `R` on return. -/
def Leave.sat {ρ : Type} (I P : σ → Prop) (R : ρ → σ → Prop) : Leave ρ → σ → Prop
  | .cont, s => I s
  | .brk, s => P s
  | .ret r, s => R r s

variable {guard : σ → Bool}

/-- The rule for loops: `I` is an invariant and `μ` decreases with each iteration, so the fuel
suffices. -/
theorem wp_loop {ρ : Type} {body : Exec σ (Leave ρ) ω Unit} {I P : σ → Prop} {R : ρ → σ → Prop} (μ : σ → Nat)
    (hbody : ∀ s, I s → guard s = true →
      wp B body (fun _ s' => I s' ∧ μ s' < μ s) (Leave.sat (fun s' => I s' ∧ μ s' < μ s) P R) s)
    (hexit : ∀ s, I s → guard s = false → P s) :
    ∀ fuel s, I s → μ s < fuel →
      wp B (loop guard body fuel) (fun _ => P) (fun e s' => ∃ r, e = some r ∧ R r s') s := by
  intro fuel
  induction fuel with
  | zero => intro s _ h; exact absurd h (Nat.not_lt_zero _)
  | succ fuel ih =>
    intro s hI hμ hB
    unfold loop at hB ⊢
    by_cases hg : guard s = true
    · rw [if_pos hg] at hB ⊢
      have hb := hbody s hI hg
      unfold wp at hb
      revert hb hB
      -- a `continue` and the end of the body are the same case
      rcases body s with ⟨(_ | _ | r) | _, s', l⟩ <;> intro hB hb
      case error.brk => exact hb hB
      case error.ret => exact ⟨r, rfl, hb hB⟩
      all_goals
        obtain ⟨hI', hlt⟩ := hb fun w hw => hB w (List.mem_append_left _ hw)
        exact ih s' hI' (Nat.lt_of_lt_of_le hlt (Nat.le_of_lt_succ hμ))
          fun w hw => hB w (List.mem_append_right _ hw)
    · rw [if_neg hg]
      exact hexit s hI (by simpa using hg)

theorem keeps_loop {ρ : Type} {body : Exec σ (Leave ρ) ω Unit} {I : σ → Prop}
    (hb : Keeps I body) (fuel : Nat) : Keeps I (loop guard body fuel) := by
  induction fuel with
  | zero => exact keeps_exit none
  | succ fuel ih =>
    intro s hs
    have h := hb s hs
    unfold loop
    split_ifs
    · revert h
      rcases body s with ⟨(_ | _ | r) | _, s', l⟩
      · exact ih s'
      · exact id
      · exact id
      · exact ih s'
    · exact hs

/-! ### Code that is left early on every run -/

def Exits (x : Exec σ ε ω α) : Prop := ∀ s, ∃ e, (x s).res = .error e

theorem exits_exit (e : ε) : Exits (exit e : Exec σ ε ω α) := fun _ => ⟨e, rfl⟩

theorem Exits.bind (hx : Exits x) : Exits (x >>= f) := by
  intro s
  have h := hx s
  show ∃ e, (seq x f s).res = _
  unfold seq
  revert h
  rcases x s with ⟨e | a, s', l⟩
  · exact fun _ => ⟨e, rfl⟩
  · rintro ⟨e, ⟨⟩⟩

theorem exits_bind (hf : ∀ a, Exits (f a)) : Exits (x >>= f) := by
  intro s
  show ∃ e, (seq x f s).res = _
  unfold seq
  rcases x s with ⟨e | a, s', l⟩
  · exact ⟨e, rfl⟩
  · exact hf a s'

/-! ### Two runs -/

/-- From related states the runs end in the same way, with the same events and in related states. -/
def Rel (R : σ → σ → Prop) (x y : Exec σ ε ω α) : Prop :=
  ∀ s s', R s s' → (x s).res = (y s').res ∧ (x s).log = (y s').log ∧ R (x s).state (y s').state

section Rel

variable {R : σ → σ → Prop} {y : Exec σ ε ω α}

theorem rel_pure (a : α) : Rel R (pure a : Exec σ ε ω α) (pure a) := fun _ _ h => ⟨rfl, rfl, h⟩

theorem rel_exit (e : ε) : Rel R (exit e : Exec σ ε ω α) (exit e) := fun _ _ h => ⟨rfl, rfl, h⟩

theorem rel_note (c : Bool) (w : ω) : Rel R (note c w : Exec σ ε ω Unit) (note c w) := fun _ _ h => ⟨rfl, rfl, h⟩

theorem rel_modify {f : σ → σ} (h : ∀ s s', R s s' → R (f s) (f s')) :
    Rel R (modify f : Exec σ ε ω Unit) (modify f) := fun s s' hs => ⟨rfl, rfl, h s s' hs⟩

theorem rel_bind {g : α → Exec σ ε ω β} (hx : Rel R x y) (hf : ∀ a, Rel R (f a) (g a)) : Rel R (x >>= f) (y >>= g) := by
  intro s s' hs
  have h := hx s s' hs
  change (seq x f s).res = (seq y g s').res ∧ (seq x f s).log = (seq y g s').log ∧ R (seq x f s).state (seq y g s').state
  unfold seq
  revert h
  rcases x s with ⟨_ | a, s₁, l⟩ <;> rcases y s' with ⟨_ | a', s₁', l'⟩ <;> rintro ⟨⟨⟩, ⟨⟩, h⟩
  · exact ⟨rfl, rfl, h⟩
  · obtain ⟨hres, hlog, hstate⟩ := hf a s₁ s₁' h
    exact ⟨hres, congrArg (l ++ ·) hlog, hstate⟩

theorem Rel.bind_of_exits {g : α → Exec σ ε ω β} (h : Rel R x y) (hx : Exits x) : Rel R (x >>= f) (y >>= g) := by
  intro s s' hs
  have h := h s s' hs
  have hx := hx s
  change (seq x f s).res = (seq y g s').res ∧ (seq x f s).log = (seq y g s').log ∧ R (seq x f s).state (seq y g s').state
  unfold seq
  revert h hx
  rcases x s with ⟨_ | a, s₁, l⟩ <;> rcases y s' with ⟨_ | a', s₁', l'⟩ <;> rintro ⟨⟨⟩, ⟨⟩, h⟩ ⟨e, he⟩
  · exact ⟨rfl, rfl, h⟩
  · cases he

theorem rel_get_bind {f : σ → Exec σ ε ω β} (h : ∀ s s', R s s' → Rel R (f s) (f s')) : Rel R (get >>= f) (get >>= f) :=
  fun s s' hs => h s s' hs s s' hs

theorem rel_loop {ρ : Type} {body : Exec σ (Leave ρ) ω Unit} (hguard : ∀ s s', R s s' → guard s = guard s')
    (hbody : Rel R body body) (fuel : Nat) : Rel R (loop guard body fuel) (loop guard body fuel) := by
  induction fuel with
  | zero => exact rel_exit none
  | succ fuel ih =>
    intro s s' hs
    have hb := hbody s s' hs
    unfold loop
    rw [hguard s s' hs]
    split_ifs
    · revert hb
      rcases body s with ⟨(_ | _ | r) | _, s₁, l⟩ <;> rcases body s' with ⟨(_ | _ | r') | _, s₁', l'⟩ <;>
        rintro ⟨⟨⟩, ⟨⟩, hb⟩
      case error.brk => exact ⟨rfl, rfl, hb⟩
      case error.ret => exact ⟨rfl, rfl, hb⟩
      all_goals
        obtain ⟨hres, hlog, hstate⟩ := ih s₁ s₁' hb
        exact ⟨hres, congrArg (l ++ ·) hlog, hstate⟩
    · exact ⟨rfl, rfl, hs⟩

end Rel

end Exec

end Korith
