import Korith.Executor.Run

/-!
# The invariant of the batch executor

Between two iterations sequence 0 holds the prompt and the output, the output is what target-only greedy decoding
generates, and every other sequence is empty or holds the prompt and a greedy continuation of it. If tokens are
pending, their sequence holds the output and the pending tokens, and each of them has the target's row behind it.

`Core` and `Frame` are the parts of the state that the invariant speaks about. `Clean` lists the hazards that a run
must not meet. `strict` asks for more: then no external call fails, and the executor must neither return -1 nor finish
before the target does.
-/

namespace Korith.Executor

open Exec

variable {F L : Type} [LinearOrder L]

/-! ### Target-only decoding -/

variable (e : Env F L)

/-- The token that target-only greedy decoding prints after the output `out`. -/
def Env.next (prompt out : List Token) : Option Token :=
  (sample e (some (e.target (prompt ++ out))) (e.allowEog out.length)).filter fun t => !e.isEog t

/-- There is nothing to print after `out`: the target stops, or the context is full. -/
def Env.Ended (prompt out : List Token) : Prop :=
  e.next prompt out = none ∨ (0 < e.nCtx ∧ e.nCtx ≤ (prompt ++ out).length)

/-- Some token of the vocabulary does not end the generation. -/
def Env.CanSpeak : Prop := ∃ t < e.nVocab, e.isEog t = false

theorem Env.sample_eq (row : List L) (allow : Bool) :
    sample e (some row) allow = lowestArgmax (sampleable e.isEog allow) row :=
  sampleGreedyWithEogControl_eq ..

/-! ### The invariant -/

structure Core (L : Type) where
  mem : Memory
  row : Option (List L)
  posTarget : Nat
  printed : List Token
  fresh : Bool
  commits : List (List Token × Option (List L))

structure Frame (L : Type) where
  ring : Ring L
  printedThisCall : Nat
  generated : Nat
  finished : Bool

def State.core (s : State F L) : Core L := ⟨s.tgt.mem, s.row, s.posTarget, s.printed, s.fresh, s.commits⟩

def State.frame (s : State F L) : Frame L := ⟨s.spec.ring, s.printedThisCall, s.generated, s.finished⟩

def Core.print (k : Core L) (t : Token) : Core L := { k with printed := k.printed ++ [t] }

def Core.setMem (k : Core L) (m : Memory) : Core L := { k with mem := m }

def Greedy (prompt : List Token) (m : Memory) (q : Nat) : Prop :=
  m.Holds q [] ∨ ∃ g, Follows (e.next prompt) [] g ∧ m.Holds q (prompt ++ g)

structure Live (e : Env F L) (prompt : List Token) (k : Core L) : Prop where
  seq0 : k.mem.Holds 0 (prompt ++ k.printed)
  pos : k.posTarget = (prompt ++ k.printed).length
  follows : Follows (e.next prompt) [] k.printed
  hasRow : k.row.isSome = true
  fresh : k.fresh = true → k.row = some (e.target (prompt ++ k.printed))
  others : ∀ q, q ≠ 0 → Greedy e prompt k.mem q
  commits : ∀ c ∈ k.commits, c.2 = some (e.target (prompt ++ c.1))

structure Aligned (e : Env F L) (prompt : List Token) (k : Core L) (r : Ring L) : Prop where
  holds : k.mem.Holds r.seqId (prompt ++ k.printed ++ r.tokens)
  follows : Follows (e.next prompt) [] (k.printed ++ r.tokens)
  rows : ∀ i p, r.pending[i]? = some p → p.row = e.target (prompt ++ k.printed ++ r.tokens.take (i + 1))

structure Base (e : Env F L) (prompt : List Token) (batch : Nat) (k : Core L) (r : Frame L) : Prop where
  live : Live e prompt k
  unfinished : r.finished = false
  counted : r.printedThisCall = r.generated
  budget : r.generated ≤ batch
  seqId : r.ring.seqId ≠ 0
  valid : r.ring.pending ≠ [] ∨ r.ring.finishPending = true → r.ring.valid = true
  cap : r.ring.pending.length ≤ 64

structure Inv (e : Env F L) (prompt : List Token) (batch : Nat) (strict : Prop) (k : Core L) (r : Frame L) : Prop
    extends Base e prompt batch k r where
  pend : r.ring.pending ≠ [] → Aligned e prompt k r.ring
  finish : strict → r.ring.finishPending = true → e.Ended prompt (k.printed ++ r.ring.tokens)

/-- What holds when a call returns: the request is finished, or the budget is used up. -/
structure Rest (e : Env F L) (prompt : List Token) (batch : Nat) (strict : Prop) (k : Core L) (r : Frame L) :
    Prop where
  follows : Follows (e.next prompt) [] k.printed
  commits : ∀ c ∈ k.commits, c.2 = some (e.target (prompt ++ c.1))
  le : r.printedThisCall ≤ batch
  inv : r.finished = false → Inv e prompt batch strict k r ∧ batch ≤ r.generated
  ended : strict → r.finished = true → e.Ended prompt k.printed

/-- The hazards in `B` include all that can break the invariant and, if `strict`, nothing fails. -/
structure Clean (B : Hazard → Prop) (e : Env F L) (strict : Prop) : Prop where
  stale : B .staleLogits
  fused : B .fusedEog
  straddle : e.minTokens = 0 ∨ B .straddle
  unconfident : B .unconfidentPending
  dropped : strict → B .droppedFinish
  target : strict → ∀ n, e.targetFails n = false
  draft : strict → ∀ n, e.draftFails n = false
  print : strict → ∀ n, e.printFails n = false
  determinism : strict → e.determinismCheck = false

/-- Decreases with each iteration: an iteration prints a token, or fills the ring, or arms a flush. -/
def measure (batch : Nat) (r : Frame L) : Nat :=
  200 * (batch - r.generated) + 2 * (64 - r.ring.pending.length) + (if flushNow r.ring then 0 else 1)

/-- What holds where an iteration that started with `r₀` is left. -/
def Exits (prompt : List Token) (batch : Nat) (strict : Prop) (r₀ : Frame L) : Leave Unit → State F L → Prop :=
  Leave.sat (fun s => Inv e prompt batch strict s.core s.frame ∧ measure batch s.frame < measure batch r₀)
    (fun s => Rest e prompt batch strict s.core s.frame)
    (fun _ s => Rest e prompt batch strict s.core s.frame ∧ s.finished = true ∧ ¬ strict)

variable {e : Env F L} {prompt : List Token} {batch : Nat} {strict : Prop} {k : Core L} {r r₀ : Frame L}

theorem Inv.rest (h : Inv e prompt batch strict k r) (hg : batch ≤ r.generated) : Rest e prompt batch strict k r where
  follows := h.live.follows
  commits := h.live.commits
  le := h.counted ▸ h.budget
  inv _ := ⟨h, hg⟩
  ended _ hf := absurd hf (by simp [h.unfinished])

theorem Base.of_live {k' : Core L} (h : Base e prompt batch k r) (hl : Live e prompt k') : Base e prompt batch k' r :=
  ⟨hl, h.unfinished, h.counted, h.budget, h.seqId, h.valid, h.cap⟩

theorem Base.rest_finished (h : Base e prompt batch k r) (hs : strict → e.Ended prompt k.printed) :
    Rest e prompt batch strict k { r with finished := true } where
  follows := h.live.follows
  commits := h.live.commits
  le := h.counted ▸ h.budget
  inv hf := absurd hf (by simp)
  ended hs' _ := hs hs'

theorem Base.inv_of_empty (h : Base e prompt batch k r) (hp : r.ring.pending = [])
    (hf : strict → r.ring.finishPending = false) : Inv e prompt batch strict k r where
  toBase := h
  pend hne := absurd hp hne
  finish hs hfin := absurd hfin (by simp [hf hs])

omit [LinearOrder L] in
theorem measure_lt_of_generated (h : r₀.generated < r.generated) (hle : r.generated ≤ batch) :
    measure batch r < measure batch r₀ := by
  unfold measure
  split_ifs <;> omega

/-! ### Sequences -/

section Sequences

variable {m : Memory} {q q' : Nat}

variable (h : Greedy e prompt m q)

include h

theorem Greedy.seqRm_ne {p0 p1 : Int} (hne : q ≠ q') : Greedy e prompt (m.seqRm q' p0 p1) q := by
  rcases h with h | ⟨g, hg, h⟩
  · exact .inl (h.seqRm_ne hne)
  · exact .inr ⟨g, hg, h.seqRm_ne hne⟩

theorem Greedy.seqCp_ne {src : Nat} {p0 p1 : Int} (hne : q ≠ q') : Greedy e prompt (m.seqCp src q' p0 p1) q := by
  rcases h with h | ⟨g, hg, h⟩
  · exact .inl (h.seqCp_ne hne)
  · exact .inr ⟨g, hg, h.seqCp_ne hne⟩

theorem Greedy.place_ne {start : Nat} {ts : List Token} (hne : q ≠ q') : Greedy e prompt (m.place q' start ts) q := by
  rcases h with h | ⟨g, hg, h⟩
  · exact .inl (h.place_ne hne)
  · exact .inr ⟨g, hg, h.place_ne hne⟩

theorem Greedy.eq_of_posMax {out : List Token} (hf : Follows (e.next prompt) [] out)
    (hmax : m.seqPosMax q = ((prompt ++ out).length : Int) - 1) : m.Holds q (prompt ++ out) := by
  rcases h with h | ⟨g, hg, h⟩
  · have : (prompt ++ out).length = 0 := by
      rw [h.seqPosMax, List.length_nil] at hmax; omega
    rwa [List.length_eq_zero_iff.1 this]
  · have hl : g.length = out.length := by rw [h.seqPosMax] at hmax; simp at hmax; omega
    rwa [← hg.unique hf hl]

end Sequences

theorem Live.clear (h : Live e prompt k) {q : Nat} (hq : q ≠ 0) :
    Live e prompt (k.setMem (k.mem.seqRm q (-1) (-1))) where
  seq0 := h.seq0.seqRm_ne (Ne.symm hq)
  pos := h.pos
  follows := h.follows
  hasRow := h.hasRow
  fresh := h.fresh
  others q' hq' := by
    by_cases hqq : q' = q
    · subst hqq; exact .inl (Memory.Holds.seqRm_all (by decide) (by decide))
    · exact (h.others q' hq').seqRm_ne hqq
  commits := h.commits

end Korith.Executor
