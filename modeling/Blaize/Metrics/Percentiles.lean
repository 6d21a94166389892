import Mathlib.Algebra.Order.BigOperators.Group.List
import Mathlib.Data.List.GetD
import Blaize.Lib.OrderStatistics
import Blaize.Metrics.HttpTracker

/-!
The statistics of a window of samples: the percentiles, between the extremes and in order.

* `sortedSamples`, `stats_of_ne_nil`: the statistics are read off the sorted samples;
* `calculatePercentile_eq`: a percentile is interpolated between the sorted samples;
* `extremes`, `mean_mem`: the first and the last sorted sample bound all, and so the mean;
* `percentiles_ordered`: **the statistics are in order, do not depend on the order of the samples,
  and are the interpolated order statistics**.
-/

namespace Blaize.Metrics

open OrderStatistics

/-! ### Sorted samples -/

def sortedSamples (samples : List ℚ) : List ℚ := samples.mergeSort fun a b => a ≤ b

/-- What is read off a sorted list. -/
def statsOfSorted (sorted : List ℚ) : HistogramStats where
  count := sorted.length
  sum := sorted.foldl (· + ·) 0
  min := sorted.getD 0 0
  max := sorted.getD (sorted.length - 1) 0
  mean := sorted.foldl (· + ·) 0 / sorted.length
  p50 := calculatePercentile sorted (1 / 2)
  p95 := calculatePercentile sorted (19 / 20)
  p99 := calculatePercentile sorted (99 / 100)

lemma stats_of_ne_nil {samples : List ℚ} (h : samples ≠ []) :
    calculateHistogramStats samples = statsOfSorted (sortedSamples samples) := by
  cases samples with
  | nil => exact absurd rfl h
  | cons => rfl

variable {samples : List ℚ}

lemma sortedSamples_perm (samples : List ℚ) : (sortedSamples samples).Perm samples :=
  List.mergeSort_perm samples _

lemma length_sortedSamples : (sortedSamples samples).length = samples.length :=
  (sortedSamples_perm samples).length_eq

lemma pairwise_sortedSamples (samples : List ℚ) :
    (sortedSamples samples).Pairwise (· ≤ ·) := by
  have hsorted := @List.pairwise_mergeSort ℚ (fun a b => decide (a ≤ b))
    (fun a b c hab hbc => by simpa using (of_decide_eq_true hab).trans (of_decide_eq_true hbc))
    (fun a b => by simpa using le_total a b) samples
  exact hsorted.imp of_decide_eq_true

/-- Samples in another order are sorted to the same list. -/
lemma sortedSamples_of_perm {samples' : List ℚ} (h : samples'.Perm samples) :
    sortedSamples samples' = sortedSamples samples :=
  ((sortedSamples_perm samples').trans (h.trans (sortedSamples_perm samples).symm)).eq_of_pairwise
    (fun _ _ _ _ => le_antisymm) (pairwise_sortedSamples samples') (pairwise_sortedSamples samples)

/-- The sample of a rank. -/
def ranked (samples : List ℚ) (k : ℕ) : ℚ := (sortedSamples samples).getD k 0

lemma ranked_eq {k : ℕ} (hk : k < samples.length) :
    ranked samples k = (sortedSamples samples).get ⟨k, length_sortedSamples.symm ▸ hk⟩ :=
  List.getD_eq_getElem _ _ _

/-- It is the order statistic. -/
lemma isOrderStatistic_ranked {k : ℕ} (hk : k < samples.length) :
    IsOrderStatistic samples k (ranked samples k) := by
  rw [ranked_eq hk]
  exact (isOrderStatistic_sorted (pairwise_sortedSamples samples) _).of_perm
    (sortedSamples_perm samples)

lemma ranked_monotoneOn (h : samples ≠ []) :
    MonotoneOn (ranked samples) (Set.Iic (samples.length - 1)) := by
  intro i _ j hj hij
  have hpos := List.length_pos_iff.mpr h
  have hlast := Set.mem_Iic.mp hj
  have hj : j < samples.length := by omega
  rw [ranked_eq (hij.trans_lt hj), ranked_eq hj]
  exact getElem_le_getElem (pairwise_sortedSamples samples) hij _

/-! ### Percentiles -/

/-- The position of a percentile. -/
def position (samples : List ℚ) (percentile : ℚ) : ℚ := (samples.length - 1) * percentile

lemma position_nonneg (h : samples ≠ []) {percentile : ℚ} (hp : 0 ≤ percentile) :
    0 ≤ position samples percentile := by
  have hlength : (1 : ℚ) ≤ samples.length := by
    exact_mod_cast List.length_pos_iff.mpr h
  exact mul_nonneg (sub_nonneg.mpr hlength) hp

lemma position_mono (h : samples ≠ []) {p q : ℚ} (hpq : p ≤ q) :
    position samples p ≤ position samples q := by
  have hlength : (1 : ℚ) ≤ samples.length := by
    exact_mod_cast List.length_pos_iff.mpr h
  exact mul_le_mul_of_nonneg_left hpq (sub_nonneg.mpr hlength)

/-- The whole sample range is at the positions of the percentiles 0 and 1. -/
lemma position_one (h : samples ≠ []) :
    position samples 1 = ((samples.length - 1 : ℕ) : ℚ) := by
  rw [position, mul_one, Nat.cast_sub (List.length_pos_iff.mpr h), Nat.cast_one]

/-- **A percentile is interpolated between the samples of the ranks next to its position.** -/
lemma calculatePercentile_eq (h : samples ≠ []) {percentile : ℚ} (hp : 0 ≤ percentile) :
    calculatePercentile (sortedSamples samples) percentile =
      interpolate (ranked samples) (position samples percentile) := by
  have hposition := position_nonneg h hp
  have hlength : (sortedSamples samples).length = samples.length := length_sortedSamples
  unfold ranked position at *
  generalize sortedSamples samples = sorted at hlength ⊢
  rw [← hlength] at hposition ⊢
  match sorted with
  | [] => exact absurd (List.length_eq_zero_iff.mp hlength.symm) h
  | [sample] =>
      have hzero : (([sample].length : ℚ) - 1) * percentile = ((0 : ℕ) : ℚ) := by simp
      rw [hzero, interpolate_natCast]
      rfl
  | first :: second :: rest =>
      generalize hx : (((first :: second :: rest).length : ℚ) - 1) * percentile = x at hposition ⊢
      have hlower : x.floor.toNat = ⌊x⌋₊ := rfl
      have hupper : x.ceil.toNat = ⌈x⌉₊ := by
        rw [Rat.ceil_eq_neg_floor_neg]
        rfl
      have hcode : calculatePercentile (first :: second :: rest) percentile =
          if ⌊x⌋₊ = ⌈x⌉₊ then (first :: second :: rest).getD ⌊x⌋₊ 0
          else (first :: second :: rest).getD ⌊x⌋₊ 0 * (1 - (x - ⌊x⌋₊)) +
            (first :: second :: rest).getD ⌈x⌉₊ 0 * (x - ⌊x⌋₊) := by
        rw [← hlower, ← hupper, ← hx]
        rfl
      rw [hcode, interpolate]
      split
      next hsame => rw [hsame, sub_self, mul_zero, add_zero]
      next => ring

lemma percentile_mono (h : samples ≠ []) {p q : ℚ} (hp : 0 ≤ p) (hpq : p ≤ q) (hq : q ≤ 1) :
    calculatePercentile (sortedSamples samples) p ≤
      calculatePercentile (sortedSamples samples) q := by
  rw [calculatePercentile_eq h hp, calculatePercentile_eq h (hp.trans hpq)]
  exact interpolate_mono (ranked_monotoneOn h) (position_nonneg h hp) (position_mono h hpq)
    (position_one h ▸ position_mono h hq)

/-! ### Extremes -/

/-- The extremes are the percentiles 0 and 1. -/
lemma extremes (h : samples ≠ []) :
    (calculateHistogramStats samples).min = calculatePercentile (sortedSamples samples) 0 ∧
      (calculateHistogramStats samples).max = calculatePercentile (sortedSamples samples) 1 := by
  rw [stats_of_ne_nil h]
  constructor
  · have hzero : position samples 0 = ((0 : ℕ) : ℚ) := by rw [position, mul_zero, Nat.cast_zero]
    rw [calculatePercentile_eq h le_rfl, hzero, interpolate_natCast]
    rfl
  · rw [calculatePercentile_eq h zero_le_one, position_one h, interpolate_natCast,
      ← length_sortedSamples]
    rfl

/-- Every sample is between the extremes. -/
lemma mem_between (h : samples ≠ []) {x : ℚ} (hx : x ∈ sortedSamples samples) :
    (calculateHistogramStats samples).min ≤ x ∧ x ≤ (calculateHistogramStats samples).max := by
  obtain ⟨k, hk, rfl⟩ := List.getElem_of_mem hx
  have hk' : k < samples.length := length_sortedSamples ▸ hk
  have hranked : (sortedSamples samples)[k] = ranked samples k := (ranked_eq hk').symm
  have hlast : (calculateHistogramStats samples).max = ranked samples (samples.length - 1) := by
    rw [stats_of_ne_nil h, ← length_sortedSamples]
    rfl
  rw [hranked, hlast, stats_of_ne_nil h]
  exact ⟨ranked_monotoneOn h (Nat.zero_le _) (Nat.le_sub_one_of_lt hk') (Nat.zero_le k),
    ranked_monotoneOn h (Nat.le_sub_one_of_lt hk') Set.self_mem_Iic (Nat.le_sub_one_of_lt hk')⟩

/-- The mean of samples between two bounds is between them. -/
lemma mean_mem (h : samples ≠ []) :
    (calculateHistogramStats samples).min ≤ (calculateHistogramStats samples).mean ∧
      (calculateHistogramStats samples).mean ≤ (calculateHistogramStats samples).max := by
  have hbetween := fun x => mem_between h (x := x)
  have hmean : (calculateHistogramStats samples).mean =
      (sortedSamples samples).sum / (sortedSamples samples).length := by
    rw [stats_of_ne_nil h, List.sum_eq_foldl]
    rfl
  have hpos : (0 : ℚ) < (sortedSamples samples).length := by
    rw [length_sortedSamples]
    exact_mod_cast List.length_pos_iff.mpr h
  rw [hmean, le_div_iff₀' hpos, div_le_iff₀' hpos, ← nsmul_eq_mul, ← nsmul_eq_mul]
  exact ⟨List.card_nsmul_le_sum _ _ fun x hx => (hbetween x hx).1,
    List.sum_le_card_nsmul _ _ fun x hx => (hbetween x hx).2⟩

/-! ### The statistics -/

/-- **The statistics are in order, do not depend on the order of the samples, and their
percentiles are the order statistics interpolated at the positions of the percentiles.** -/
theorem percentiles_ordered {samples : List ℚ} (h : samples ≠ []) :
    let stats := calculateHistogramStats samples
    (stats.min ≤ stats.p50 ∧ stats.p50 ≤ stats.p95 ∧ stats.p95 ≤ stats.p99 ∧
        stats.p99 ≤ stats.max) ∧
      (stats.min ≤ stats.mean ∧ stats.mean ≤ stats.max) ∧
      (∀ samples' : List ℚ, samples'.Perm samples → calculateHistogramStats samples' = stats) ∧
      ∃ order : ℕ → ℚ, (∀ k < samples.length, IsOrderStatistic samples k (order k)) ∧
        stats.p50 = interpolate order ((samples.length - 1) * (1 / 2)) ∧
        stats.p95 = interpolate order ((samples.length - 1) * (19 / 20)) ∧
        stats.p99 = interpolate order ((samples.length - 1) * (99 / 100)) := by
  intro stats
  have hstats : stats = statsOfSorted (sortedSamples samples) := stats_of_ne_nil h
  have hmin : stats.min = calculatePercentile (sortedSamples samples) 0 := (extremes h).1
  have hmax : stats.max = calculatePercentile (sortedSamples samples) 1 := (extremes h).2
  refine ⟨⟨?_, ?_, ?_, ?_⟩, mean_mem h, fun samples' hperm => ?_, ranked samples,
    fun k hk => isOrderStatistic_ranked hk, ?_, ?_, ?_⟩
  · rw [hmin, hstats]
    exact percentile_mono h (by norm_num) (by norm_num) (by norm_num)
  · rw [hstats]
    exact percentile_mono h (by norm_num) (by norm_num) (by norm_num)
  · rw [hstats]
    exact percentile_mono h (by norm_num) (by norm_num) (by norm_num)
  · rw [hmax, hstats]
    exact percentile_mono h (by norm_num) (by norm_num) (by norm_num)
  · have hne' : samples' ≠ [] := fun hnil => h (hnil ▸ hperm).nil_eq.symm
    rw [stats_of_ne_nil hne', sortedSamples_of_perm hperm, hstats]
  · rw [hstats]
    exact calculatePercentile_eq h (by norm_num)
  · rw [hstats]
    exact calculatePercentile_eq h (by norm_num)
  · rw [hstats]
    exact calculatePercentile_eq h (by norm_num)

theorem percentiles_ordered_two :
    (calculateHistogramStats [3, 1]).min ≤ (calculateHistogramStats [3, 1]).p50 :=
  (percentiles_ordered (List.cons_ne_nil 3 [1])).1.1

end Blaize.Metrics
