import Korith.Platform.Economics

/-!
# What the savings reports have in common

With `S` the time saved and `T` the time observed, `kpi_summary`, the tenant meter and `_compute_report` report
`S / (T + S)` as long as the parts of every run are within its total. `generate_report` divides by the observed time,
so that its figure is another one as soon as anything was saved.
-/

namespace Korith.Economics

variable {m : Metrics} {ms : List Metrics} {targets : List ℚ} {gpuHourlyCost : ℚ} {s : Sums} {part whole : ℚ}

/-! ### Sums over the loops -/

theorem measure_foldl {σ ι : Type} {step : σ → ι → σ} (f : σ → ℚ) (g : ι → ℚ)
    (h : ∀ x i, f (step x i) = f x + g i) (x : σ) (is : List ι) : f (is.foldl step x) = f x + (is.map g).sum := by
  induction is generalizing x with
  | nil => rw [List.foldl_nil, List.map_nil, List.sum_nil, add_zero]
  | cons i is ih => rw [List.foldl_cons, ih, h, List.map_cons, List.sum_cons, add_assoc]

def saved (ms : List Metrics) : ℚ := (ms.map fun m => (extractSavingsComponents m).totalSavedMs).sum

def observed (ms : List Metrics) : ℚ := (ms.map fun m => safeFloat m.perf.totalMs).sum

structure Metrics.Nonneg (m : Metrics) : Prop where
  totalMs : 0 ≤ safeFloat m.perf.totalMs
  prefillMs : 0 ≤ safeFloat m.perf.prefillMs
  decodeMs : 0 ≤ safeFloat m.perf.decodeMs

/-- The parts of a run are within its total. -/
def Metrics.Fits (m : Metrics) : Prop :=
  safeFloat m.perf.prefillMs + safeFloat m.perf.decodeMs ≤ safeFloat m.perf.totalMs

/-- The time beyond the total that the parts of a run add up to. -/
def Metrics.excess (m : Metrics) : ℚ :=
  max 0 (safeFloat m.perf.prefillMs + safeFloat m.perf.decodeMs - safeFloat m.perf.totalMs)

theorem components_nonneg (m : Metrics) :
    0 ≤ (extractSavingsComponents m).prefillSavedMs ∧ 0 ≤ (extractSavingsComponents m).specSavedMs ∧
      0 ≤ (extractSavingsComponents m).kernelsSavedMs := by
  unfold extractSavingsComponents
  split
  · exact ⟨le_max_left _ _, le_max_left _ _, le_max_left _ _⟩
  · refine ⟨le_max_left _ _, le_max_left _ _, ?_⟩
    dsimp only
    split_ifs
    · exact le_refl _
    · exact le_max_left _ _

theorem components_total (m : Metrics) : (extractSavingsComponents m).totalSavedMs =
    (extractSavingsComponents m).prefillSavedMs + (extractSavingsComponents m).specSavedMs +
      (extractSavingsComponents m).kernelsSavedMs := by
  unfold extractSavingsComponents
  split <;> rfl

theorem total_nonneg (m : Metrics) : 0 ≤ (extractSavingsComponents m).totalSavedMs := by
  obtain ⟨hprefill, hspec, hkernels⟩ := components_nonneg m
  rw [components_total]
  positivity

theorem saved_nonneg (ms : List Metrics) : 0 ≤ saved ms :=
  List.sum_nonneg fun x hx => by
    obtain ⟨m, -, rfl⟩ := List.mem_map.1 hx
    exact total_nonneg m

theorem observed_nonneg (h : ∀ m ∈ ms, m.Nonneg) : 0 ≤ observed ms :=
  List.sum_nonneg fun x hx => by
    obtain ⟨m, hm, rfl⟩ := List.mem_map.1 hx
    exact (h m hm).totalMs

theorem kpiAdd_eq (h : m.Nonneg) : kpiAdd s m = targetAdd s m := by
  obtain ⟨hprefill, hspec, hkernels⟩ := components_nonneg m
  rw [kpiAdd, targetAdd, max_eq_right h.totalMs, max_eq_right h.prefillMs, max_eq_right h.decodeMs,
    max_eq_right hprefill, max_eq_right hspec, max_eq_right hkernels, max_eq_right (total_nonneg m)]

theorem foldl_kpiAdd (h : ∀ m ∈ ms, m.Nonneg) : ms.foldl kpiAdd s = ms.foldl targetAdd s := by
  refine List.foldl_ext kpiAdd targetAdd s fun s m hm => kpiAdd_eq (h m hm)

theorem sums_saved : (ms.foldl targetAdd .zero).totalSavedMs = saved ms := by
  rw [measure_foldl Sums.totalSavedMs (fun m => (extractSavingsComponents m).totalSavedMs) (fun _ _ => rfl)]
  exact zero_add _

theorem sums_parts : (ms.foldl targetAdd .zero).prefillSavedMs + (ms.foldl targetAdd .zero).decodeSavedMs = saved ms := by
  rw [measure_foldl (fun s : Sums => s.prefillSavedMs + s.decodeSavedMs)
    (fun m => (extractSavingsComponents m).totalSavedMs) ?_]
  · exact (congrArg (· + _) (add_zero _)).trans (zero_add _)
  · intro s m
    rw [components_total]
    simp only [targetAdd, Sums.add]
    ring

theorem sums_baseline :
    (ms.foldl targetAdd .zero).baselineTotalMs = observed ms + saved ms + (ms.map Metrics.excess).sum := by
  rw [measure_foldl Sums.baselineTotalMs
    (fun m => safeFloat m.perf.totalMs + (extractSavingsComponents m).totalSavedMs + m.excess) ?_]
  · rw [List.sum_map_add, List.sum_map_add]
    exact zero_add _
  · intro s m
    have hother : max 0 (safeFloat m.perf.totalMs - safeFloat m.perf.prefillMs - safeFloat m.perf.decodeMs) =
        safeFloat m.perf.totalMs + m.excess - safeFloat m.perf.prefillMs - safeFloat m.perf.decodeMs := by
      rw [Metrics.excess]
      rcases le_total (safeFloat m.perf.prefillMs + safeFloat m.perf.decodeMs) (safeFloat m.perf.totalMs) with hle | hle
      · rw [max_eq_right (by linarith), max_eq_left (by linarith)]
        ring
      · rw [max_eq_left (by linarith), max_eq_right (by linarith)]
        ring
    simp only [targetAdd, Sums.add]
    rw [hother, components_total]
    ring

theorem excess_eq_zero_iff : (ms.map Metrics.excess).sum = 0 ↔ ∀ m ∈ ms, m.Fits := by
  have hfits : ∀ m : Metrics, m.excess = 0 ↔ m.Fits := fun m => by
    rw [Metrics.excess, max_eq_left_iff, sub_nonpos, Metrics.Fits]
  constructor
  · intro hsum m hm
    refine (hfits m).1 (List.all_zero_of_le_zero_le_of_sum_eq_zero ?_ hsum (List.mem_map_of_mem hm))
    intro x hx
    obtain ⟨m, -, rfl⟩ := List.mem_map.1 hx
    exact le_max_left _ _
  · intro h
    refine List.sum_eq_zero fun x hx => ?_
    obtain ⟨m, hm, rfl⟩ := List.mem_map.1 hx
    exact (hfits m).2 (h m hm)

/-! ### The figures -/

theorem percent_nonneg (hpart : 0 ≤ part) : 0 ≤ percent part whole := by
  unfold percent
  split_ifs
  · positivity
  · exact le_refl 0

theorem percent_le (h : part ≤ whole) : percent part whole ≤ 100 := by
  unfold percent
  split_ifs with hwhole
  · have hle : part / whole ≤ 1 := (div_le_one hwhole).2 h
    linarith
  · norm_num

theorem percent_pos (hpart : 0 < part) (hwhole : 0 < whole) : 0 < percent part whole := by
  rw [percent, if_pos hwhole]
  positivity

variable (h : ∀ m ∈ ms, m.Nonneg)

include h

theorem kpi_baseline : (kpiSummary ms).baselineTotalMs = observed ms + saved ms + (ms.map Metrics.excess).sum := by
  rw [← sums_baseline, ← foldl_kpiAdd h]
  rfl

theorem kpi_pct : (kpiSummary ms).blendedSavingsPct = percent (saved ms) (kpiSummary ms).baselineTotalMs := by
  rw [← sums_saved, ← foldl_kpiAdd h]
  rfl

theorem meter_pct : ((ms.foldl TenantMeter.accumulate .empty).summary gpuHourlyCost).savingsPct =
      percent (saved ms) (observed ms + saved ms) := by
  have hsaved : (ms.foldl TenantMeter.accumulate .empty).totalSavedMs = saved ms := by
    rw [measure_foldl TenantMeter.totalSavedMs (fun m => max 0 (extractSavingsComponents m).totalSavedMs)
      (fun _ _ => rfl)]
    refine (zero_add _).trans (congrArg List.sum (List.map_congr_left fun m _ => ?_))
    exact max_eq_right (total_nonneg m)
  have hobserved : (ms.foldl TenantMeter.accumulate .empty).totalComputeMs = observed ms := by
    rw [measure_foldl TenantMeter.totalComputeMs (fun m => max 0 (safeFloat m.perf.totalMs)) (fun _ _ => rfl)]
    refine (zero_add _).trans (congrArg List.sum (List.map_congr_left fun m hm => ?_))
    exact max_eq_right (h m hm).totalMs
  rw [TenantMeter.summary, hsaved, hobserved, max_eq_right (add_nonneg (observed_nonneg h) (saved_nonneg ms))]
  rfl

omit h in
theorem report_eq (gpuHourlyCost : ℚ) (ms : List Metrics) :
    (generateReport gpuHourlyCost ms).costTotalUsd = observed ms * (gpuHourlyCost / 3600000) ∧
      (generateReport gpuHourlyCost ms).costReductionPct =
        percent (saved ms * (gpuHourlyCost / 3600000)) (observed ms * (gpuHourlyCost / 3600000)) := by
  have hsaved : (ms.foldl (ReportSums.add gpuHourlyCost) ⟨0, 0, 0, 0⟩).totalSaved =
      saved ms * (gpuHourlyCost / 3600000) := by
    rw [measure_foldl ReportSums.totalSaved
      (fun m => (extractSavingsComponents m).totalSavedMs * (gpuHourlyCost / 3600000)) (fun _ _ => rfl),
      List.sum_map_mul_right]
    exact zero_add _
  have hcost : (ms.foldl (ReportSums.add gpuHourlyCost) ⟨0, 0, 0, 0⟩).totalCost =
      observed ms * (gpuHourlyCost / 3600000) := by
    rw [measure_foldl ReportSums.totalCost (fun m => safeFloat m.perf.totalMs * (gpuHourlyCost / 3600000))
      (fun _ _ => rfl), List.sum_map_mul_right]
    exact zero_add _
  refine ⟨hcost, ?_⟩
  rw [← hsaved, ← hcost]
  rfl

omit h in
theorem computeReport_eq (targets : List ℚ) (h : ∀ m ∈ ms, m.Nonneg) :
    (0 < (kpiSummary ms).baselineTotalMs ∧ ∃ r, computeReport targets ms = .ok r ∧
        r.currentSavingsPct = (kpiSummary ms).blendedSavingsPct ∧
        r.baselineTotalMs = (kpiSummary ms).baselineTotalMs) ∨
      ((kpiSummary ms).baselineTotalMs ≤ 0 ∧ computeReport targets ms = .error "no_usable_metrics") := by
  have hbaseline : (ms.foldl targetAdd .zero).baselineTotalMs = (kpiSummary ms).baselineTotalMs := by
    rw [← foldl_kpiAdd h]
    rfl
  rcases le_or_gt (kpiSummary ms).baselineTotalMs 0 with hle | hpos
  · refine .inr ⟨hle, ?_⟩
    rw [computeReport, if_pos (.inr (by rwa [hbaseline]))]
  · have hrows : ms.length ≠ 0 := fun hnil => by
      rw [List.length_eq_zero_iff] at hnil
      subst hnil
      exact lt_irrefl _ hpos
    refine .inl ⟨hpos, ?_⟩
    rw [computeReport, if_neg (by rw [hbaseline, not_or, not_le]; exact ⟨hrows, hpos⟩)]
    refine ⟨_, rfl, ?_, hbaseline⟩
    simp only [sums_parts, hbaseline, if_pos hpos]
    rw [kpi_pct h, percent, if_pos hpos]

structure Agreed (targets : List ℚ) (gpuHourlyCost : ℚ) (ms : List Metrics) : Prop where
  targets : ∃ r, computeReport targets ms = .ok r ∧ r.currentSavingsPct = (kpiSummary ms).blendedSavingsPct ∧
    r.baselineTotalMs = observed ms + saved ms
  meter : ((ms.foldl TenantMeter.accumulate .empty).summary gpuHourlyCost).savingsPct =
    (kpiSummary ms).blendedSavingsPct
  baseline : (kpiSummary ms).baselineTotalMs = observed ms + saved ms
  bounds : 0 ≤ (kpiSummary ms).blendedSavingsPct ∧ (kpiSummary ms).blendedSavingsPct ≤ 100

structure Figures (targets : List ℚ) (gpuHourlyCost : ℚ) (ms : List Metrics) : Prop
    extends Agreed targets gpuHourlyCost ms where
  reduction : (generateReport gpuHourlyCost ms).costReductionPct = (kpiSummary ms).blendedSavingsPct
  cost : (generateReport gpuHourlyCost ms).costTotalUsd = (observed ms + saved ms) * (gpuHourlyCost / 3600000)

theorem agreed_iff : Agreed targets gpuHourlyCost ms ↔ 0 < observed ms + saved ms ∧ ∀ m ∈ ms, m.Fits := by
  have hbaseline := kpi_baseline h
  constructor
  · rintro ⟨⟨r, hr, -, -⟩, -, heq, -⟩
    refine ⟨?_, excess_eq_zero_iff.1 (by linarith)⟩
    rcases computeReport_eq targets h with ⟨hpos, -⟩ | ⟨-, herror⟩
    · rwa [heq] at hpos
    · rw [herror] at hr
      cases hr
  · rintro ⟨hpos, hfits⟩
    rw [excess_eq_zero_iff.2 hfits, add_zero] at hbaseline
    rcases computeReport_eq targets h with ⟨-, r, hr, hpct, hbase⟩ | ⟨hnone, -⟩
    · refine ⟨⟨r, hr, hpct, hbase.trans hbaseline⟩, ?_, hbaseline, ?_, ?_⟩
      · rw [meter_pct h, kpi_pct h, hbaseline]
      · rw [kpi_pct h]
        exact percent_nonneg (saved_nonneg ms)
      · rw [kpi_pct h, hbaseline]
        exact percent_le (by linarith [observed_nonneg h])
    · rw [hbaseline] at hnone
      exact absurd hpos (not_lt.2 hnone)

omit h in
theorem percent_ne {rate : ℚ} (hpart : 0 < part) (hwhole : 0 ≤ whole) :
    percent (part * rate) (whole * rate) ≠ percent part (whole + part) := by
  have hpos : 0 < percent part (whole + part) := percent_pos hpart (by linarith)
  by_cases hrate : 0 < whole * rate
  · have hwhole' : 0 < whole := lt_of_le_of_ne hwhole fun h0 => by simp [← h0] at hrate
    have hrate' : rate ≠ 0 := fun h0 => by simp [h0] at hrate
    rw [percent, percent, if_pos hrate, if_pos (by linarith), mul_div_mul_right _ _ hrate']
    have hlt : part / (whole + part) < part / whole := div_lt_div_of_pos_left hpart hwhole' (by linarith)
    linarith
  · rw [percent, if_neg hrate]
    exact hpos.ne

theorem figures_iff : Figures targets gpuHourlyCost ms ↔ (0 < observed ms ∧ saved ms = 0) ∧ ∀ m ∈ ms, m.Fits := by
  obtain ⟨hcost, hreduction⟩ := report_eq gpuHourlyCost ms
  constructor
  · rintro ⟨hagreed, heq, -⟩
    obtain ⟨hpos, hfits⟩ := (agreed_iff h).1 hagreed
    rw [hreduction, ← hagreed.meter, meter_pct h] at heq
    have hzero : saved ms = 0 := by
      by_contra hne
      exact percent_ne (lt_of_le_of_ne (saved_nonneg ms) (Ne.symm hne)) (observed_nonneg h) heq
    rw [hzero, add_zero] at hpos
    exact ⟨⟨hpos, hzero⟩, hfits⟩
  · rintro ⟨⟨hpos, hzero⟩, hfits⟩
    have hagreed : Agreed targets gpuHourlyCost ms := (agreed_iff h).2 ⟨by rw [hzero, add_zero]; exact hpos, hfits⟩
    refine ⟨hagreed, ?_, by rw [hcost, hzero, add_zero]⟩
    rw [hreduction, ← hagreed.meter, meter_pct h, hzero, zero_mul]
    simp [percent]

omit h

theorem savings_figures_iff (h : ∀ m ∈ ms, m.Nonneg) :
    (Figures targets gpuHourlyCost ms ↔ (0 < observed ms ∧ saved ms = 0) ∧ ∀ m ∈ ms, m.Fits) ∧
      (Agreed targets gpuHourlyCost ms ↔ 0 < observed ms + saved ms ∧ ∀ m ∈ ms, m.Fits) :=
  ⟨figures_iff h, agreed_iff h⟩

def job (total prefill decode saved : ℚ) : Metrics :=
  ⟨⟨some total, some prefill, some decode⟩, some saved, none, ⟨none, false, none⟩, ⟨none, none, none⟩⟩

theorem savings_figures_two : (∀ m ∈ [job 100 40 50 0, job 30 10 20 0], m.Nonneg) ∧
    Figures [] (5 / 2) [job 100 40 50 0, job 30 10 20 0] := by
  have h : ∀ m ∈ [job 100 40 50 0, job 30 10 20 0], m.Nonneg :=
    List.forall_mem_cons.2 ⟨⟨by decide, by decide, by decide⟩,
      List.forall_mem_singleton.2 ⟨by decide, by decide, by decide⟩⟩
  refine ⟨h, (savings_figures_iff h).1.2 ⟨⟨by decide +kernel, by decide +kernel⟩,
    List.forall_mem_cons.2 ⟨?_, List.forall_mem_singleton.2 ?_⟩⟩⟩
  all_goals
    unfold Metrics.Fits
    decide +kernel

/-- As much saved as observed; a run whose prefill and decode add up to more than its total; and more saved than
observed. -/
theorem savings_figures_differ : (generateReport (5 / 2) [job 100 40 50 100]).costReductionPct = 100 ∧
      (kpiSummary [job 100 40 50 100]).blendedSavingsPct = 50 ∧
      (kpiSummary [job 100 80 80 40]).blendedSavingsPct = 20 ∧
      (([job 100 80 80 40].foldl TenantMeter.accumulate .empty).summary (5 / 2)).savingsPct = 200 / 7 ∧
      (generateReport (5 / 2) [job 10 4 5 90]).costReductionPct = 900 := by
  decide +kernel

end Korith.Economics
