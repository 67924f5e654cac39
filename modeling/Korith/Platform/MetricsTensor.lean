import Korith.Lib.FloatArith
import Korith.Lib.Machine

/-!
# The metrics tensor

`record_decode_step` writes its values into the published tensor. The background thread builds a tensor from zeros and
publishes that one, so the values of the last step are gone, unless they were zero (`persists_iff`).
-/

namespace Korith.Reasoning

open FloatArith

/-- The slots of the arguments of `record_decode_step`. -/
def decodeSlots : List Nat := [32, 33, 34, 35, 36, 37, 43, 44, 45, 52, 53]

abbrev Tensor (F : Type) : Type := Nat → F

structure MetricsCollector (F : Type) where
  tensor : Tensor F
  /-- what a refresh has read that is not published yet -/
  refreshing : Option (Tensor F)

inductive MetricsOp (F : Type)
  /-- a decode step, with an argument for each of its slots -/
  | record (values : Tensor F)
  | read (sources : Tensor F)
  | publish

section
variable {F : Type} [FloatArith F]

def safeFloat (v : F) : F := if isFinite v then v else ofNat 0

/-- The tensor of a refresh: the prefill slots and those of the fleet are assigned, the others stay zero. -/
def assembled (sources : Tensor F) : Tensor F := fun slot =>
  if slot < 32 ∨ 54 ≤ slot ∧ slot < 70 then sources slot else ofNat 0

/-- The tensor is one of float32; the rounding of the arguments to it is left out. -/
def recordDecodeStep (values tensor : Tensor F) : Tensor F := fun slot =>
  if slot ∈ decodeSlots then safeFloat (values slot) else tensor slot

def MetricsCollector.init : MetricsCollector F := ⟨fun _ => ofNat 0, none⟩

/-- One step of the two threads and the tensor that `get_metrics_tensor` returns behind it. -/
def MetricsCollector.step (s : MetricsCollector F) (op : MetricsOp F) : Tensor F × MetricsCollector F :=
  let s := match op with
    | .record values => { s with tensor := recordDecodeStep values s.tensor }
    | .read sources => { s with refreshing := some sources }
    | .publish => ⟨s.refreshing.elim s.tensor assembled, none⟩
  (s.tensor, s)

def collector (ops : List (MetricsOp F)) : MetricsCollector F := Machine.after MetricsCollector.step .init ops

/-- What the last decode step has recorded, zero before the first. -/
def lastRecorded (ops : List (MetricsOp F)) : Tensor F :=
  ops.foldl (fun last op => match op with | .record values => fun slot => safeFloat (values slot) | _ => last)
    fun _ => ofNat 0

def Shows (ops : List (MetricsOp F)) : Prop := ∀ slot ∈ decodeSlots, (collector ops).tensor slot = lastRecorded ops slot

/-- A refresh is published only while there is nothing to lose. -/
def Spares (before : List (MetricsOp F)) : MetricsOp F → Prop
  | .publish => (collector before).refreshing ≠ none → ∀ slot ∈ decodeSlots, lastRecorded before slot = ofNat 0
  | _ => True

theorem assembled_decode (sources : Tensor F) : ∀ slot ∈ decodeSlots, assembled sources slot = ofNat 0 := by
  intro slot hslot
  have hdecode : ∀ slot ∈ decodeSlots, ¬ (slot < 32 ∨ 54 ≤ slot ∧ slot < 70) := by decide
  exact if_neg (hdecode slot hslot)

theorem shows_concat {before : List (MetricsOp F)} (h : Shows before) (op : MetricsOp F) :
    Shows (before ++ [op]) ↔ Spares before op := by
  rw [Shows, collector, Machine.after_concat, lastRecorded, List.foldl_append]
  cases op with
  | record values => exact iff_of_true (fun slot hslot => if_pos hslot) trivial
  | read sources => exact iff_of_true h trivial
  | publish =>
    change (∀ slot ∈ decodeSlots, (collector before).refreshing.elim (collector before).tensor assembled slot =
      lastRecorded before slot) ↔ Spares before .publish
    rw [Spares]
    cases (collector before).refreshing with
    | none => exact iff_of_true h fun hne => absurd rfl hne
    | some sources =>
      rw [forall_prop_of_true (Option.some_ne_none sources)]
      refine forall₂_congr fun slot hslot => ?_
      rw [Option.elim_some, assembled_decode sources slot hslot]
      exact eq_comm

theorem shows_nil : Shows ([] : List (MetricsOp F)) := fun _ _ => rfl

/-- Behind every step the decode slots are those of the last decode step, exactly if every refresh finds nothing to
lose when it is published. -/
theorem persists_iff (ops : List (MetricsOp F)) :
    Machine.Every (fun before op => Shows (before ++ [op])) ops ↔ Machine.Every Spares ops :=
  Machine.every_congr fun _ op hbefore =>
    shows_concat (hbefore.inv shows_nil fun _ op h hop => (shows_concat h op).2 hop) op

end

/-- One decode step and one refresh behind it: full acceptance is shown as none. -/
theorem refresh_loses_decode_step :
    let ops : List (MetricsOp Frac) := [.record fun _ => ⟨1, 1⟩, .read fun _ => ⟨0, 1⟩, .publish]
    lastRecorded ops 32 = ⟨1, 1⟩ ∧ (collector ops).tensor 32 = ⟨0, 1⟩ := by decide

end Korith.Reasoning
