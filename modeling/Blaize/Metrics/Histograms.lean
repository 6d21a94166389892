import Blaize.Metrics.Exact

/-!
The lines of an exported histogram.

* `unit`: the samples are exported in seconds or as they are;
* `bucketsOf`: the bounds of a histogram with their estimates;
* `growing_standardBuckets`, `growing_generateCustomBuckets`: the bounds grow, from 0 on;
* `estimate_mono`, `estimate_le`: the estimates do not fall, and none is above the total;
* `histogram_cumulative`: **the lines of a histogram are cumulative**.
-/

namespace Blaize.Metrics

open Prometheus (exact cumulativeCount generateCustomBuckets multipliers STANDARD_BUCKETS
  exportHistogram formatLabels parseLabels decimalText readNumber)

/-! ### Estimates -/

section

variable {count maxValue bucket bucket' : ℚ}

/-- Where the maximum is up to the bound, all samples are below it. -/
lemma cumulativeCount_of_le (count : ℚ) (h : maxValue ≤ bucket) :
    cumulativeCount exact count maxValue bucket = count :=
  Prometheus.cumulativeCount_full (decide_eq_true h)

lemma cumulativeCount_of_lt (count : ℚ) (h : bucket < maxValue) :
    cumulativeCount exact count maxValue bucket = ⌊bucket / maxValue * count⌋ :=
  Prometheus.cumulativeCount_part (decide_eq_false (not_le.mpr h))

/-- An estimate is a share of the total, rounded down. -/
lemma estimate_le (hcount : 0 ≤ count) (hbucket : 0 ≤ bucket) :
    cumulativeCount exact count maxValue bucket ≤ count := by
  rcases le_or_gt maxValue bucket with hfull | hpart
  · exact (cumulativeCount_of_le _ hfull).le
  · rw [cumulativeCount_of_lt _ hpart]
    have hshare : bucket / maxValue ≤ 1 := (div_le_one (hbucket.trans_lt hpart)).mpr hpart.le
    calc (⌊bucket / maxValue * count⌋ : ℚ) ≤ bucket / maxValue * count := Int.floor_le _
      _ ≤ count := mul_le_of_le_one_left hcount hshare

lemma estimate_nonneg (hcount : 0 ≤ count) (hbucket : 0 ≤ bucket) :
    0 ≤ cumulativeCount exact count maxValue bucket := by
  rcases le_or_gt maxValue bucket with hfull | hpart
  · exact hcount.trans_eq (cumulativeCount_of_le _ hfull).symm
  · rw [cumulativeCount_of_lt _ hpart]
    have hmax : 0 < maxValue := hbucket.trans_lt hpart
    exact_mod_cast Int.floor_nonneg.mpr (by positivity)

/-- **The estimates do not fall from one bound to the next, also where the maximum lies between
them.** -/
lemma estimate_mono (hcount : 0 ≤ count) (hbucket : 0 ≤ bucket) (h : bucket ≤ bucket') :
    cumulativeCount exact count maxValue bucket ≤
      cumulativeCount exact count maxValue bucket' := by
  rcases le_or_gt maxValue bucket' with hfull | hpart
  · rw [cumulativeCount_of_le _ hfull]
    exact estimate_le hcount hbucket
  · have hmax : 0 < maxValue := (hbucket.trans h).trans_lt hpart
    rw [cumulativeCount_of_lt _ hpart, cumulativeCount_of_lt _ (h.trans_lt hpart), Int.cast_le]
    exact Int.floor_le_floor (by gcongr)

end

/-! ### Bounds -/

/-- The bounds of a list grow, from 0 on. -/
def Growing (bounds : List ℚ) : Prop := bounds.Pairwise (· < ·) ∧ ∀ bound ∈ bounds, 0 ≤ bound

lemma growing_standardBuckets : Growing STANDARD_BUCKETS := by
  refine ⟨?_, ?_⟩ <;> decide +kernel

/-- The bounds of a custom histogram are the multiples of a power of ten, in their order. -/
lemma growing_generateCustomBuckets (stats : Prometheus.HistogramStats ℚ) :
    Growing (generateCustomBuckets exact stats) := by
  by_cases hzero : stats.max = 0
  · have hempty : exact.isZero stats.max = true := decide_eq_true hzero
    rw [generateCustomBuckets, if_pos hempty]
    refine ⟨?_, ?_⟩ <;> decide +kernel
  · refine ⟨?_, fun bound hbound => ?_⟩
    · have hkind : exact.isZero stats.max = false := decide_eq_false hzero
      have hpos : 0 < Prometheus.magnitude exact stats.max := zpow_pos (by norm_num) _
      have hmultipliers : multipliers.Pairwise (· < ·) := by decide +kernel
      have hbounds : (multipliers.map fun i =>
          exact.mul (Prometheus.magnitude exact stats.max) (exact.lit i)).Pairwise (· < ·) :=
        List.pairwise_map.mpr (hmultipliers.imp fun h => mul_lt_mul_of_pos_left h hpos)
      have hkept := hbounds.filter fun bucket =>
        exact.le bucket (exact.mul stats.max (exact.lit (6 / 5)))
      rw [generateCustomBuckets, hkind, if_neg Bool.false_ne_true]
      dsimp only
      rwa [@List.mergeSort_of_pairwise _ exact.le _ (hkept.imp fun h => decide_eq_true h.le)]
    · obtain ⟨i, hi, rfl⟩ :=
        Prometheus.exists_of_mem_generateCustomBuckets hbound (decide_eq_false hzero)
      have hnonneg : ∀ i ∈ multipliers, 0 ≤ i := by decide +kernel
      exact mul_nonneg (zpow_nonneg (by norm_num) _) (hnonneg i hi)

/-! ### Lines -/

/-- The unit in which a sample is exported. -/
def inUnit (convertToSeconds : Bool) (x : ℚ) : ℚ := if convertToSeconds then x / 1000 else x

/-- The bounds with their estimates. -/
def bucketsOf (stats : Prometheus.HistogramStats ℚ) (convertToSeconds : Bool) : List (ℚ × ℚ) :=
  (if convertToSeconds then STANDARD_BUCKETS else generateCustomBuckets exact stats).map
    fun bound =>
      (bound, cumulativeCount exact stats.count (inUnit convertToSeconds stats.max) bound)

/-- The line of a bound. -/
def bucketLine (name labelStr : String) (le : String) (count : ℚ) : Prometheus.Line ℚ :=
  .sample (name ++ "_bucket") (formatLabels ((parseLabels labelStr).set "le" le)) (.plain count)

lemma exportHistogram_eq (name : String) (stats : Prometheus.HistogramStats ℚ) (labelStr : String)
    (convertToSeconds : Bool) :
    exportHistogram exact name stats labelStr convertToSeconds =
      ((bucketsOf stats convertToSeconds).map fun bucket =>
        bucketLine name labelStr (decimalText bucket.1) bucket.2) ++
      [bucketLine name labelStr "+Inf" stats.count,
        .sample (name ++ "_sum") labelStr (.fixed (inUnit convertToSeconds stats.sum) 6),
        .sample (name ++ "_count") labelStr (.plain stats.count)] := by
  have hlines (bounds : List ℚ) : (bounds.map fun bound =>
      (bound, cumulativeCount exact stats.count (inUnit convertToSeconds stats.max) bound)).map
        (fun bucket => bucketLine name labelStr (decimalText bucket.1) bucket.2) =
      bounds.map fun bound => bucketLine name labelStr (decimalText bound)
        (cumulativeCount exact stats.count (inUnit convertToSeconds stats.max) bound) :=
    List.map_map
  rw [bucketsOf, hlines]
  cases convertToSeconds with
  | true => rfl
  | false => rfl

/-- **The lines of a histogram are cumulative: the bounds grow and are read back from their
texts, the counts do not fall, none is above the total, which is the last one and the one of each
bound from the maximum on.** -/
theorem histogram_cumulative (name labelStr : String) (convertToSeconds : Bool)
    {stats : Prometheus.HistogramStats ℚ} (hcount : 0 ≤ stats.count) (_hmax : 0 ≤ stats.max) :
    ∃ buckets : List (ℚ × ℚ),
      exportHistogram exact name stats labelStr convertToSeconds =
        (buckets.map fun bucket =>
          bucketLine name labelStr (decimalText bucket.1) bucket.2) ++
        [bucketLine name labelStr "+Inf" stats.count,
          .sample (name ++ "_sum") labelStr (.fixed (inUnit convertToSeconds stats.sum) 6),
          .sample (name ++ "_count") labelStr (.plain stats.count)] ∧
      (buckets.map fun bucket => readNumber (decimalText bucket.1)).Pairwise (· < ·) ∧
      (buckets.map Prod.snd).Pairwise (· ≤ ·) ∧
      ∀ bucket ∈ buckets, 0 ≤ bucket.2 ∧ bucket.2 ≤ stats.count ∧
        (inUnit convertToSeconds stats.max ≤ bucket.1 → bucket.2 = stats.count) := by
  have hgrowing : Growing (if convertToSeconds then STANDARD_BUCKETS
      else generateCustomBuckets exact stats) := by
    cases convertToSeconds with
    | true => exact growing_standardBuckets
    | false => exact growing_generateCustomBuckets stats
  refine ⟨bucketsOf stats convertToSeconds, exportHistogram_eq name stats labelStr _, ?_, ?_, ?_⟩
  · rw [bucketsOf, List.map_map]
    have hread : ∀ bound : ℚ, readNumber (decimalText bound) = bound :=
      Prometheus.readNumber_decimalText
    simpa only [Function.comp_def, hread, List.map_id'] using hgrowing.1
  · rw [bucketsOf, List.map_map, List.pairwise_map]
    exact hgrowing.1.imp_of_mem fun hmem _ hlt => estimate_mono hcount (hgrowing.2 _ hmem) hlt.le
  · intro bucket hmem
    obtain ⟨bound, hbound, rfl⟩ := List.mem_map.mp hmem
    have hnonneg := hgrowing.2 bound hbound
    exact ⟨estimate_nonneg hcount hnonneg, estimate_le hcount hnonneg,
      cumulativeCount_of_le _⟩

theorem histogram_cumulative_three :
    ∃ buckets : List (ℚ × ℚ),
      exportHistogram exact "size" ⟨3, 4, 2⟩ "" false =
        (buckets.map fun bucket => bucketLine "size" "" (decimalText bucket.1) bucket.2) ++
        [bucketLine "size" "" "+Inf" 3, .sample "size_sum" "" (.fixed 4 6),
          .sample "size_count" "" (.plain 3)] ∧
      ∀ bucket ∈ buckets, bucket.2 ≤ 3 := by
  obtain ⟨buckets, hlines, -, -, hall⟩ :=
    @histogram_cumulative "size" "" false ⟨3, 4, 2⟩ (by norm_num) (by norm_num)
  exact ⟨buckets, hlines, fun bucket hmem => (hall bucket hmem).2.1⟩

end Blaize.Metrics
