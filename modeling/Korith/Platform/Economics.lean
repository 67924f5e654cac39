import Mathlib

/-!
# Savings reports

`economics/model.py` takes the savings of a job from its metrics file; `generate_report`, `kpi_summary`, the tenant
meter and `_compute_report` add them up over jobs. Floats are exact rationals here. A number that is missing or null
counts as 0 (`_safe_float`).

Left out: which jobs and files are read, token and hit counters, the breakdowns by day, GPU and workload, and the CSV,
text and PDF files, which repeat what is here.
-/

namespace Korith.Economics

structure Perf where
  totalMs : Option ℚ
  prefillMs : Option ℚ
  decodeMs : Option ℚ

structure Kernels where
  msSaved : Option ℚ
  kernelsApplied : Bool
  comparable : Option Bool

structure Savings where
  prefillSavedMs : Option ℚ
  specSavedMs : Option ℚ
  kernelsSavedMs : Option ℚ

structure Metrics where
  perf : Perf
  /-- `amf.saved_ms` -/
  amfSavedMs : Option ℚ
  /-- `spec.saved_ms` -/
  specSavedMs : Option ℚ
  kernels : Kernels
  savings : Savings

def safeFloat (x : Option ℚ) : ℚ := x.getD 0

/-! ### model.py -/

structure Components where
  prefillSavedMs : ℚ
  specSavedMs : ℚ
  kernelsSavedMs : ℚ
  totalSavedMs : ℚ

def extractSavingsComponents (m : Metrics) : Components :=
  match m.savings.prefillSavedMs, m.savings.specSavedMs, m.savings.kernelsSavedMs with
  | some prefill, some spec, some kernels =>
    ⟨max 0 prefill, max 0 spec, max 0 kernels, max 0 prefill + max 0 spec + max 0 kernels⟩
  | _, _, _ =>
    let prefillSavedMs := max 0 (safeFloat m.amfSavedMs)
    let rawKernelSaved :=
      if !m.kernels.kernelsApplied || decide (m.kernels.comparable = some false) then 0
      else max 0 (safeFloat m.kernels.msSaved)
    let specSavedMs := max 0 (max 0 (safeFloat m.specSavedMs) - rawKernelSaved)
    ⟨prefillSavedMs, specSavedMs, rawKernelSaved, prefillSavedMs + specSavedMs + rawKernelSaved⟩

structure Estimate where
  savedMs : ℚ
  totalMs : ℚ
  costSavedUsd : ℚ
  costTotalUsd : ℚ

def estimateSavings (m : Metrics) (gpuHourlyCost : ℚ) : Estimate :=
  let savedMs := (extractSavingsComponents m).totalSavedMs
  let totalMs := safeFloat m.perf.totalMs
  let gpuCostPerMs := gpuHourlyCost / 3600000
  ⟨savedMs, totalMs, savedMs * gpuCostPerMs, totalMs * gpuCostPerMs⟩

/-! ### report.py -/

structure ReportSummary where
  jobs : Nat
  totalComputeSavedMs : ℚ
  costSavedUsd : ℚ
  /-- "Total baseline cost" in the PDF -/
  costTotalUsd : ℚ
  costReductionPct : ℚ

structure ReportSums where
  rows : Nat
  savedMs : ℚ
  totalSaved : ℚ
  totalCost : ℚ

def ReportSums.add (gpuHourlyCost : ℚ) (s : ReportSums) (m : Metrics) : ReportSums :=
  let savings := estimateSavings m gpuHourlyCost
  ⟨s.rows + 1, s.savedMs + savings.savedMs, s.totalSaved + savings.costSavedUsd, s.totalCost + savings.costTotalUsd⟩

def generateReport (gpuHourlyCost : ℚ) (metrics : List Metrics) : ReportSummary :=
  let s := metrics.foldl (ReportSums.add gpuHourlyCost) ⟨0, 0, 0, 0⟩
  ⟨s.rows, s.savedMs, s.totalSaved, s.totalCost, if 0 < s.totalCost then s.totalSaved / s.totalCost * 100 else 0⟩

/-! ### tenant_meter.py -/

structure TenantMeter where
  totalSavedMs : ℚ
  totalComputeMs : ℚ
  prefillSavedMs : ℚ
  decodeMs : ℚ

def TenantMeter.empty : TenantMeter := ⟨0, 0, 0, 0⟩

def TenantMeter.accumulate (meter : TenantMeter) (m : Metrics) : TenantMeter :=
  let savings := extractSavingsComponents m
  ⟨meter.totalSavedMs + max 0 savings.totalSavedMs, meter.totalComputeMs + max 0 (safeFloat m.perf.totalMs),
    meter.prefillSavedMs + max 0 savings.prefillSavedMs, meter.decodeMs + max 0 (safeFloat m.perf.decodeMs)⟩

structure TenantSummary where
  totalSavedMs : ℚ
  totalComputeMs : ℚ
  savingsPct : ℚ
  costSavedUsd : ℚ
  costServedUsd : ℚ

def TenantMeter.summary (meter : TenantMeter) (gpuHourlyCost : ℚ) : TenantSummary :=
  let gpuCostPerMs := max 0 gpuHourlyCost / 3600000
  let baselineMs := max 0 (meter.totalComputeMs + meter.totalSavedMs)
  let savingsPct := if 0 < baselineMs then meter.totalSavedMs / baselineMs * 100 else 0
  ⟨meter.totalSavedMs, meter.totalComputeMs, savingsPct, meter.totalSavedMs * gpuCostPerMs,
    meter.totalComputeMs * gpuCostPerMs⟩

/-! ### kpi_summary and _compute_report -/

/-- The sums of the loops; `_compute_report` keeps no sum of the total savings. -/
structure Sums where
  observedTotalMs : ℚ
  prefillRuntimeMs : ℚ
  decodeRuntimeMs : ℚ
  otherRuntimeMs : ℚ
  prefillSavedMs : ℚ
  specSavedMs : ℚ
  kernelsSavedMs : ℚ
  decodeSavedMs : ℚ
  totalSavedMs : ℚ
  prefillBaselineMs : ℚ
  decodeBaselineMs : ℚ
  baselineTotalMs : ℚ

def Sums.zero : Sums := ⟨0, 0, 0, 0, 0, 0, 0, 0, 0, 0, 0, 0⟩

def Sums.add (s : Sums) (totalMs prefillMs decodeMs prefillSaved specSaved kernelsSaved savedTotal : ℚ) : Sums :=
  let otherMs := max 0 (totalMs - prefillMs - decodeMs)
  let decodeSaved := specSaved + kernelsSaved
  let baselinePrefill := prefillMs + prefillSaved
  let baselineDecode := decodeMs + decodeSaved
  ⟨s.observedTotalMs + totalMs, s.prefillRuntimeMs + prefillMs, s.decodeRuntimeMs + decodeMs,
    s.otherRuntimeMs + otherMs, s.prefillSavedMs + prefillSaved, s.specSavedMs + specSaved,
    s.kernelsSavedMs + kernelsSaved, s.decodeSavedMs + decodeSaved, s.totalSavedMs + savedTotal,
    s.prefillBaselineMs + baselinePrefill, s.decodeBaselineMs + baselineDecode,
    s.baselineTotalMs + (baselinePrefill + baselineDecode + otherMs)⟩

def percent (part whole : ℚ) : ℚ := if 0 < whole then part / whole * 100 else 0

structure DecodeTarget where
  targetSavingsPct : ℚ
  requiredDecodeCutPct : ℚ
  additionalDecodeCutPct : Option ℚ
  feasible : Bool

structure KpiSavings where
  prefillSavedMs : ℚ
  specSavedMs : ℚ
  kernelsSavedMs : ℚ
  totalSavedMs : ℚ
  baselineTotalMs : ℚ
  blendedSavingsPct : ℚ
  prefillSharePct : ℚ
  decodeSharePct : ℚ
  otherSharePct : ℚ
  prefillCutPct : ℚ
  decodeCutPct : ℚ
  decodeTargets : List DecodeTarget

def kpiAdd (s : Sums) (m : Metrics) : Sums :=
  let savings := extractSavingsComponents m
  s.add (max 0 (safeFloat m.perf.totalMs)) (max 0 (safeFloat m.perf.prefillMs)) (max 0 (safeFloat m.perf.decodeMs))
    (max 0 savings.prefillSavedMs) (max 0 savings.specSavedMs) (max 0 savings.kernelsSavedMs)
    (max 0 savings.totalSavedMs)

def decodeCutNeeded (s : Sums) (targetPct : ℚ) : DecodeTarget :=
  if 0 < s.baselineTotalMs ∧ 0 < s.decodeBaselineMs then
    let requiredTotalSaved := targetPct / 100 * s.baselineTotalMs
    let requiredDecodeSaved := max 0 (requiredTotalSaved - s.prefillSavedMs)
    let requiredDecodeCut := requiredDecodeSaved / s.decodeBaselineMs * 100
    let decodeCutPct := percent (s.specSavedMs + s.kernelsSavedMs) s.decodeBaselineMs
    ⟨targetPct, requiredDecodeCut, some (max 0 (requiredDecodeCut - decodeCutPct)),
      decide (requiredDecodeCut ≤ 100 + 1 / 1000000000)⟩
  else ⟨targetPct, 0, none, false⟩

def kpiSummary (metrics : List Metrics) : KpiSavings :=
  let s := metrics.foldl kpiAdd .zero
  let prefillSharePct := percent s.prefillBaselineMs s.baselineTotalMs
  let decodeSharePct := percent s.decodeBaselineMs s.baselineTotalMs
  ⟨s.prefillSavedMs, s.specSavedMs, s.kernelsSavedMs, s.totalSavedMs, s.baselineTotalMs,
    percent s.totalSavedMs s.baselineTotalMs, prefillSharePct, decodeSharePct,
    if 0 < s.baselineTotalMs then max 0 (100 - prefillSharePct - decodeSharePct) else 0,
    percent s.prefillSavedMs s.prefillBaselineMs,
    percent (s.specSavedMs + s.kernelsSavedMs) s.decodeBaselineMs,
    [decodeCutNeeded s 70, decodeCutNeeded s 80]⟩

structure TargetRow where
  targetSavingsPct : ℚ
  requiredDecodeCutPct : ℚ
  additionalDecodeCutPct : ℚ
  additionalDecodeSavedMs : ℚ
  feasible : Bool

structure TargetSummary where
  baselineTotalMs : ℚ
  observedTotalMs : ℚ
  currentTotalSavedMs : ℚ
  currentSavingsPct : ℚ
  prefillSharePct : ℚ
  decodeSharePct : ℚ
  otherSharePct : ℚ
  prefillCutPct : ℚ
  decodeCutPct : ℚ
  targets : List TargetRow

def targetAdd (s : Sums) (m : Metrics) : Sums :=
  let components := extractSavingsComponents m
  s.add (safeFloat m.perf.totalMs) (safeFloat m.perf.prefillMs) (safeFloat m.perf.decodeMs) components.prefillSavedMs
    components.specSavedMs components.kernelsSavedMs components.totalSavedMs

def targetRow (s : Sums) (t : ℚ) : TargetRow :=
  let decodeBaseline := s.decodeRuntimeMs + s.decodeSavedMs
  let decodeCut := if 0 < decodeBaseline then s.decodeSavedMs / decodeBaseline else 0
  let requiredTotalSaved := t * s.baselineTotalMs
  let requiredDecodeSaved := max 0 (requiredTotalSaved - s.prefillSavedMs)
  let requiredDecodeCut := if 0 < decodeBaseline then requiredDecodeSaved / decodeBaseline else 0
  ⟨t * 100, requiredDecodeCut * 100, max 0 (requiredDecodeCut - decodeCut) * 100,
    max 0 (requiredDecodeSaved - s.decodeSavedMs), decide (requiredDecodeCut ≤ 1 + 1 / 1000000000)⟩

/-- `_compute_report`; the summary is an error without a baseline. -/
def computeReport (targets : List ℚ) (metrics : List Metrics) : Except String TargetSummary :=
  let s := metrics.foldl targetAdd .zero
  if metrics.length = 0 ∨ s.baselineTotalMs ≤ 0 then .error "no_usable_metrics"
  else
    let prefillBaseline := s.prefillRuntimeMs + s.prefillSavedMs
    let decodeBaseline := s.decodeRuntimeMs + s.decodeSavedMs
    let prefillShare := if 0 < s.baselineTotalMs then prefillBaseline / s.baselineTotalMs else 0
    let decodeShare := if 0 < s.baselineTotalMs then decodeBaseline / s.baselineTotalMs else 0
    let otherShare := max 0 (1 - prefillShare - decodeShare)
    let prefillCut := if 0 < prefillBaseline then s.prefillSavedMs / prefillBaseline else 0
    let decodeCut := if 0 < decodeBaseline then s.decodeSavedMs / decodeBaseline else 0
    let currentTotalSaved := s.prefillSavedMs + s.decodeSavedMs
    let blendedCut := if 0 < s.baselineTotalMs then currentTotalSaved / s.baselineTotalMs else 0
    .ok ⟨s.baselineTotalMs, s.observedTotalMs, currentTotalSaved, blendedCut * 100, prefillShare * 100,
      decodeShare * 100, otherShare * 100, prefillCut * 100, decodeCut * 100, targets.map (targetRow s)⟩

end Korith.Economics
