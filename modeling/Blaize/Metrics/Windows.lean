import Blaize.Metrics.Doubles
import Blaize.Metrics.Exposition
import Blaize.Metrics.HttpTracker

/-!
How the statistics of a window change with a new sample, as far as they are exported.

The counts of the buckets are estimates from the number of samples and their maximum, and the
bounds of a custom histogram come from the maximum too.  All of it is computed in doubles.

* `highest`, `calculateHistogramStats_eq`: the number, the sum and the maximum of a window;
* `cumulativeCount_le`: an estimate does not fall with a maximum that grows in proportion, with
  some room for the rounding;
* `Keeps`: what is asked of a sample;
* `Ahead`: what is wanted of two windows;
* `ahead_pushSample`: **a sample that keeps to the condition puts its window ahead**;
* `inScope_of_mem_generateCustomBuckets`: a bound of two windows is one that they are compared at.
-/

namespace Blaize.Metrics

open Js
open Prometheus (doubles cumulativeCount generateCustomBuckets multipliers MathFunctions seconds)

/-! ### Statistics -/

/-- The greatest sample, 0 without any. -/
def highest (samples : List ℚ) : ℚ := samples.foldr max 0

lemma le_highest {samples : List ℚ} {x : ℚ} (h : x ∈ samples) : x ≤ highest samples := by
  induction samples with
  | nil => cases h
  | cons y samples ih =>
      rcases List.mem_cons.mp h with rfl | h
      · exact le_max_left _ _
      · exact (ih h).trans (le_max_right _ _)

lemma highest_le {samples : List ℚ} {x : ℚ} (hx : 0 ≤ x) (h : ∀ y ∈ samples, y ≤ x) :
    highest samples ≤ x := by
  induction samples with
  | nil => exact hx
  | cons y samples ih =>
      exact max_le (h y List.mem_cons_self) (ih fun z hz => h z (List.mem_cons_of_mem _ hz))

lemma highest_concat (samples : List ℚ) {value : ℚ} (h : 0 ≤ value) :
    highest (samples ++ [value]) = max (highest samples) value := by
  induction samples with
  | nil => simp [highest, h]
  | cons x samples ih =>
      rw [List.cons_append, highest, List.foldr_cons, ← highest, ih, ← max_assoc]
      rfl

/-- The last one of the sorted samples is the greatest. -/
lemma getD_mergeSort {samples : List ℚ} (hne : samples ≠ []) (h : ∀ x ∈ samples, 0 ≤ x) :
    (samples.mergeSort fun a b => a ≤ b).getD
      ((samples.mergeSort fun a b => a ≤ b).length - 1) 0 = highest samples := by
  have hsorted := @List.pairwise_mergeSort ℚ (fun a b => decide (a ≤ b))
    (fun a b c hab hbc => by simpa using (of_decide_eq_true hab).trans (of_decide_eq_true hbc))
    (fun a b => by simpa using le_total a b) samples
  have hmem : ∀ x, x ∈ samples.mergeSort (fun a b => a ≤ b) ↔ x ∈ samples :=
    fun x => (List.mergeSort_perm samples _).mem_iff
  have hne' : samples.mergeSort (fun a b => a ≤ b) ≠ [] := by
    intro hnil
    have hlength : (samples.mergeSort fun a b => a ≤ b).length = samples.length :=
      List.length_mergeSort samples
    rw [hnil] at hlength
    exact hne (List.length_eq_zero_iff.mp hlength.symm)
  generalize samples.mergeSort (fun a b => a ≤ b) = sorted at hsorted hmem hne'
  obtain ⟨front, last, rfl⟩ := (List.eq_nil_or_concat' sorted).resolve_left hne'
  have hlast : (front ++ [last]).getD ((front ++ [last]).length - 1) 0 = last := by simp
  have hlastmem : last ∈ samples := (hmem last).mp (by simp)
  rw [hlast]
  refine le_antisymm (le_highest hlastmem) (highest_le (h last hlastmem) fun y hy => ?_)
  rcases List.mem_append.mp ((hmem y).mpr hy) with hfront | hend
  · exact of_decide_eq_true ((List.pairwise_append.mp hsorted).2.2 y hfront _ List.mem_cons_self)
  · exact (List.mem_singleton.mp hend).le

/-- The statistics of a window that are exported. -/
lemma calculateHistogramStats_eq {samples : List ℚ} (h : ∀ x ∈ samples, 0 ≤ x) :
    (calculateHistogramStats samples nearest).count = samples.length ∧
      (calculateHistogramStats samples nearest).sum = sortedSum samples ∧
      (calculateHistogramStats samples nearest).max = highest samples := by
  cases samples with
  | nil =>
      refine ⟨rfl, ?_, rfl⟩
      rw [sortedSum, List.mergeSort_nil]
      rfl
  | cons x rest =>
      exact ⟨List.length_mergeSort _, rfl, getD_mergeSort (List.cons_ne_nil x rest) h⟩

/-! ### Estimates -/

section

variable (math : MathFunctions)

/-- Where the maximum is up to the bound, all samples are below it. -/
lemma estimate_of_le (count : ℚ) {maxValue bucket : ℚ} (h : maxValue ≤ bucket) :
    cumulativeCount (doubles math) count maxValue bucket = count :=
  Prometheus.cumulativeCount_full (decide_eq_true h)

lemma estimate_of_lt (count : ℚ) {maxValue bucket : ℚ} (h : bucket < maxValue) :
    cumulativeCount (doubles math) count maxValue bucket =
      ⌊nearest (nearest (bucket / maxValue) * count)⌋ :=
  Prometheus.cumulativeCount_part (decide_eq_false (not_le.mpr h))

/-- What is estimated from a share does not fall below a number that the share gives. -/
lemma nearest_le_estimate {count : ℕ} {share : ℚ} (h : count ≤ share) :
    nearest count ≤ nearest ⌊nearest share⌋ := by
  obtain ⟨k, hk⟩ := exists_nearest_intCast count
  rw [Int.cast_natCast] at hk
  have hfloor : k ≤ ⌊nearest share⌋ := Int.le_floor.mpr (hk ▸ nearest_le_nearest h)
  have hdouble : nearest k = k := by
    rw [← hk]
    exact isDouble_nearest _
  rw [hk, ← hdouble]
  exact nearest_le_nearest (by exact_mod_cast hfloor)

/-- With a maximum that grew in proportion to the bound, the share is at least the old count. -/
lemma le_share {count count' maxValue' bucket : ℚ} (hcount : 0 ≤ count) (hcount' : 0 ≤ count')
    (hpos' : 0 < maxValue') (hnormal : 2 ^ (-1022 : ℤ) ≤ bucket / maxValue')
    (h : count * maxValue' * (1 + 1 / 2 ^ 51) ≤ bucket * count') :
    count ≤ nearest (bucket / maxValue') * count' := by
  have hratio : count * (1 + 1 / 2 ^ 51) ≤ bucket / maxValue' * count' := by
    rw [div_mul_eq_mul_div, le_div_iff₀ hpos']
    linarith
  calc count ≤ count * (1 + 1 / 2 ^ 51) * (1 - 1 / 2 ^ 53) := by
        rw [mul_assoc]
        exact le_mul_of_one_le_right hcount (by norm_num)
    _ ≤ bucket / maxValue' * count' * (1 - 1 / 2 ^ 53) :=
        mul_le_mul_of_nonneg_right hratio (by norm_num)
    _ = bucket / maxValue' * (1 - 1 / 2 ^ 53) * count' := by ring
    _ ≤ nearest (bucket / maxValue') * count' :=
        mul_le_mul_of_nonneg_right (mul_le_nearest hnormal) hcount'

/-- The shares of a bound below both maxima. -/
lemma share_le_share {count count' maxValue maxValue' bucket : ℚ} (hcount : 0 ≤ count)
    (hcount' : 0 ≤ count') (hbucket : 0 ≤ bucket) (hpos : 0 < maxValue)
    (hlt : maxValue < maxValue') (hnormal : 2 ^ (-1022 : ℤ) ≤ bucket / maxValue')
    (h : count * maxValue' * (1 + 1 / 2 ^ 51) ≤ maxValue * count') :
    nearest (bucket / maxValue) * count ≤ nearest (bucket / maxValue') * count' := by
  have hhigh := nearest_le_mul
    (hnormal.trans (div_le_div_of_nonneg_left hbucket hpos hlt.le))
  have hratio : count / maxValue * (1 + 1 / 2 ^ 51) ≤ count' / maxValue' := by
    rw [div_mul_eq_mul_div, div_le_div_iff₀ hpos (hpos.trans hlt)]
    linarith
  calc nearest (bucket / maxValue) * count
      ≤ bucket / maxValue * (1 + 1 / 2 ^ 53) * count := mul_le_mul_of_nonneg_right hhigh hcount
    _ = bucket * (count / maxValue) * (1 + 1 / 2 ^ 53) := by ring
    _ ≤ bucket * (count / maxValue) * ((1 + 1 / 2 ^ 51) * (1 - 1 / 2 ^ 53)) :=
        mul_le_mul_of_nonneg_left (by norm_num) (by positivity)
    _ = bucket * (count / maxValue * (1 + 1 / 2 ^ 51)) * (1 - 1 / 2 ^ 53) := by ring
    _ ≤ bucket * (count' / maxValue') * (1 - 1 / 2 ^ 53) :=
        mul_le_mul_of_nonneg_right (mul_le_mul_of_nonneg_left hratio hbucket) (by norm_num)
    _ = bucket / maxValue' * (1 - 1 / 2 ^ 53) * count' := by ring
    _ ≤ nearest (bucket / maxValue') * count' :=
        mul_le_mul_of_nonneg_right (mul_le_nearest hnormal) hcount'

/-- Nothing is estimated of nothing. -/
lemma estimate_zero (maxValue bucket : ℚ) :
    cumulativeCount (doubles math) (0 : ℕ) maxValue bucket = 0 := by
  rcases le_or_gt maxValue bucket with hfull | hpart
  · rw [estimate_of_le _ _ hfull, Nat.cast_zero]
  · rw [estimate_of_lt _ _ hpart, Nat.cast_zero, mul_zero, nearest_zero, Int.floor_zero,
      Int.cast_zero]

/-- **The estimate for a bound does not fall when the number of samples grows, and so does the
maximum, where it is new, in proportion to it.** -/
theorem cumulativeCount_le {count count' : ℕ} {maxValue maxValue' bucket : ℚ}
    (hbucket : 0 ≤ bucket) (hcount : count ≤ count') (hle : maxValue ≤ maxValue')
    (hgrow : 0 < count → maxValue < maxValue' → bucket < maxValue' →
      maxValue' ≤ 2 ^ 1022 * bucket ∧
        count * maxValue' * (1 + 1 / 2 ^ 51) ≤ max bucket maxValue * count') :
    nearest (cumulativeCount (doubles math) count maxValue bucket) ≤
      nearest (cumulativeCount (doubles math) count' maxValue' bucket) := by
  have hcast : (count : ℚ) ≤ count' := by exact_mod_cast hcount
  rcases le_or_gt maxValue' bucket with habove | hbelow
  · rw [estimate_of_le _ _ habove, estimate_of_le _ _ (hle.trans habove)]
    exact nearest_le_nearest hcast
  have hpos' : 0 < maxValue' := hbucket.trans_lt hbelow
  have hshare' : 0 ≤ nearest (bucket / maxValue') :=
    nearest_nonneg (div_nonneg hbucket hpos'.le)
  rw [estimate_of_lt _ _ hbelow]
  rcases Nat.eq_zero_or_pos count with rfl | hcountpos
  · rw [estimate_zero, ← Nat.cast_zero]
    exact nearest_le_estimate (by rw [Nat.cast_zero]; positivity)
  -- The share at the new maximum, if there is one.
  have hnew (hlt : maxValue < maxValue') :
      count * maxValue' * (1 + 1 / 2 ^ 51) ≤ max bucket maxValue * count' ∧
        2 ^ (-1022 : ℤ) ≤ bucket / maxValue' := by
    obtain ⟨hscale, hshare⟩ := hgrow hcountpos hlt hbelow
    refine ⟨hshare, (le_div_iff₀ hpos').mpr ?_⟩
    rw [zpow_neg, inv_mul_le_iff₀ (two_zpow_pos _)]
    exact_mod_cast hscale
  rcases le_or_gt maxValue bucket with hfull | hpart
  · -- All samples were up to the bound, and the estimate now has to give as many.
    obtain ⟨hshare, hnormal⟩ := hnew (hfull.trans_lt hbelow)
    rw [max_eq_left hfull] at hshare
    rw [estimate_of_le _ _ hfull]
    exact nearest_le_estimate
      (le_share (Nat.cast_nonneg _) (Nat.cast_nonneg _) hpos' hnormal hshare)
  · have hpos : 0 < maxValue := hbucket.trans_lt hpart
    rw [estimate_of_lt _ _ hpart]
    have hshares : nearest (bucket / maxValue) * count ≤ nearest (bucket / maxValue') * count' := by
      rcases hle.lt_or_eq with hlt | rfl
      · obtain ⟨hshare, hnormal⟩ := hnew hlt
        rw [max_eq_right hpart.le] at hshare
        exact share_le_share (Nat.cast_nonneg _) (Nat.cast_nonneg _) hbucket hpos hlt hnormal hshare
      · exact mul_le_mul_of_nonneg_left hcast hshare'
    have hfloor := Int.floor_le_floor (nearest_le_nearest hshares)
    exact nearest_le_nearest (by exact_mod_cast hfloor)

end

/-! ### The condition -/

/-- A new maximum is in proportion to the number of samples, where those up to `least` count as
`least`; the factor is the room that the rounding needs. -/
def InProportion (limit : ℕ) (samples : List ℚ) (value least : ℚ) : Prop :=
  samples.length * value * (1 + 1 / 2 ^ 50) ≤
    max least (highest samples) * (pushSample limit samples value).length

/-- The least maximum after which another one is spoken of. -/
def leastMaximum : ℚ := 10 ^ (-300 : ℤ)

variable (math : MathFunctions)

/-- What is asked of a sample.  A full window gives away no more than it gets.  A new maximum is
in proportion to the number of samples: for a duration, which is exported in seconds, unless it
is up to the least bound; for a value, if it is in the same power of ten, from which the bounds
are made.  It is in no lower one, and it does not come after next to nothing: after nothing but
zeros, which have bounds of their own, or after what the powers of ten do not reach. -/
def Keeps (convertToSeconds : Bool) (limit : ℕ) (samples : List ℚ) (value : ℚ) : Prop :=
  (limit ≤ samples.length → samples.headD 0 ≤ value) ∧
    (samples ≠ [] → highest samples < value →
      if convertToSeconds then 5 < value → InProportion limit samples value 5
      else leastMaximum ≤ highest samples ∧
        math.order (highest samples) ≤ math.order value ∧
        (math.order (highest samples) = math.order value → InProportion limit samples value 0))

instance (limit : ℕ) (samples : List ℚ) (value least : ℚ) :
    Decidable (InProportion limit samples value least) := inferInstanceAs (Decidable (_ ≤ _))

instance (convertToSeconds : Bool) (limit : ℕ) (samples : List ℚ) (value : ℚ) :
    Decidable (Keeps math convertToSeconds limit samples value) :=
  inferInstanceAs (Decidable (_ ∧ _))

/-! ### The windows -/

/-- The bounds at which two maxima are compared. -/
def InScope (convertToSeconds : Bool) (maxValue maxValue' bucket : ℚ) : Prop :=
  if convertToSeconds then nearest (1 / 200) ≤ bucket
  else 0 ≤ bucket ∧ (maxValue = maxValue' ∨
    0 < maxValue ∧ math.order maxValue = math.order maxValue' ∧ maxValue' ≤ 2 ^ 1022 * bucket)

/-- The count that is exported for a bound. -/
def bucketCount (convertToSeconds : Bool) (samples : List ℚ) (bucket : ℚ) : ℚ :=
  cumulativeCount (doubles math) samples.length
    (seconds (doubles math) convertToSeconds (highest samples)) bucket

/-- What is exported of a later window is at least what was exported. -/
structure Ahead (convertToSeconds : Bool) (samples samples' : List ℚ) : Prop where
  count : samples.length ≤ samples'.length
  sum : sortedSum samples ≤ sortedSum samples'
  max : highest samples ≤ highest samples'
  least : convertToSeconds = false → samples ≠ [] →
    highest samples = highest samples' ∨ leastMaximum ≤ highest samples
  order : convertToSeconds = false → 0 < highest samples →
    math.order (highest samples) ≤ math.order (highest samples')
  buckets : ∀ bucket, InScope math convertToSeconds (highest samples) (highest samples') bucket →
    nearest (bucketCount math convertToSeconds samples bucket) ≤
      nearest (bucketCount math convertToSeconds samples' bucket)

variable {math}

/-- What lies between two maxima is compared at the same bounds. -/
lemma InScope.between {convertToSeconds : Bool} {maxValue between maxValue' bucket : ℚ}
    (h : InScope math convertToSeconds maxValue maxValue' bucket) (hfirst : maxValue ≤ between)
    (hlast : between ≤ maxValue')
    (horder : convertToSeconds = false → 0 < maxValue →
      math.order maxValue ≤ math.order between)
    (horder' : convertToSeconds = false → 0 < between →
      math.order between ≤ math.order maxValue') :
    InScope math convertToSeconds maxValue between bucket ∧
      InScope math convertToSeconds between maxValue' bucket := by
  cases convertToSeconds with
  | true => exact ⟨h, h⟩
  | false =>
      obtain ⟨hbucket, rfl | ⟨hpos, hsame, hscale⟩⟩ := h
      · obtain rfl := le_antisymm hlast hfirst
        exact ⟨⟨hbucket, .inl rfl⟩, hbucket, .inl rfl⟩
      · have hpos' := hpos.trans_le hfirst
        have hbelow := horder rfl hpos
        have habove := horder' rfl hpos'
        exact ⟨⟨hbucket, .inr ⟨hpos, by omega, hlast.trans hscale⟩⟩,
          hbucket, .inr ⟨hpos', by omega, hscale⟩⟩

@[refl] lemma Ahead.refl (convertToSeconds : Bool) (samples : List ℚ) :
    Ahead math convertToSeconds samples samples where
  count := le_rfl
  sum := le_rfl
  max := le_rfl
  least _ _ := .inl rfl
  order _ _ := le_rfl
  buckets _ _ := le_rfl

lemma Ahead.trans {convertToSeconds : Bool} {samples samples' samples'' : List ℚ}
    (h : Ahead math convertToSeconds samples samples')
    (h' : Ahead math convertToSeconds samples' samples'') :
    Ahead math convertToSeconds samples samples'' where
  count := h.count.trans h'.count
  sum := h.sum.trans h'.sum
  max := h.max.trans h'.max
  least hkind hne := by
    have hne' : samples' ≠ [] := fun hnil =>
      hne (List.length_eq_zero_iff.mp (Nat.le_zero.mp (by simpa [hnil] using h.count)))
    rcases h.least hkind hne with heq | hleast
    · rw [heq]
      exact h'.least hkind hne'
    · exact .inr hleast
  order hkind hpos := (h.order hkind hpos).trans (h'.order hkind (hpos.trans_le h.max))
  buckets bucket hscope :=
    have hbetween := hscope.between h.max h'.max h.order h'.order
    (h.buckets bucket hbetween.1).trans (h'.buckets bucket hbetween.2)

/-- What a new sample makes of the statistics. -/
lemma pushSample_spec {limit : ℕ} (hlimit : 0 < limit) {samples : List ℚ} {value : ℚ}
    (hsamples : ∀ x ∈ samples, 0 ≤ x) (hvalue : 0 ≤ value)
    (h : limit ≤ samples.length → samples.headD 0 ≤ value) :
    samples.length ≤ (pushSample limit samples value).length ∧
      sortedSum samples ≤ sortedSum (pushSample limit samples value) ∧
      highest (pushSample limit samples value) = max (highest samples) value := by
  rw [pushSample]
  split
  next hfull =>
    rw [List.length_append, List.length_singleton] at hfull
    cases samples with
    | nil => exact absurd hfull (by simp only [List.length_nil]; omega)
    | cons oldest rest =>
        have holdest : oldest ≤ value := h (by omega)
        refine ⟨by simp, ?_, ?_⟩
        · rw [List.cons_append, List.tail_cons]
          exact sortedSum_le_replace (List.forall_mem_cons.mp hsamples).2 hvalue holdest
        · have hcons : highest (oldest :: rest) = max oldest (highest rest) := rfl
          rw [List.cons_append, List.tail_cons, highest_concat rest hvalue, hcons, max_comm oldest,
            max_assoc, max_eq_right holdest]
  next => exact ⟨by simp, sortedSum_le_concat hsamples hvalue, highest_concat samples hvalue⟩

/-- Seconds keep the order. -/
lemma seconds_mono (convertToSeconds : Bool) {x y : ℚ} (h : x ≤ y) :
    seconds (doubles math) convertToSeconds x ≤ seconds (doubles math) convertToSeconds y := by
  cases convertToSeconds with
  | true =>
      have hunit : (0 : ℚ) ≤ nearest 1000 := nearest_nonneg (by norm_num)
      exact nearest_le_nearest (div_le_div_of_nonneg_right h hunit)
  | false => exact h

/-- Seconds are rounded once. -/
lemma seconds_eq (x : ℚ) : seconds (doubles math) true x = nearest (x / 1000) := by
  have hunit : nearest 1000 = 1000 := by decide +kernel
  change nearest (x / nearest 1000) = nearest (x / 1000)
  rw [hunit]

/-- The room in the condition is enough for two roundings. -/
lemma proportion_of_approx {count count' value value' most most' : ℚ} (hcount : 0 ≤ count)
    (hcount' : 0 ≤ count') (hvalue : 0 ≤ value) (hhigh : value' ≤ value * (1 + 1 / 2 ^ 53))
    (hlow : most * (1 - 1 / 2 ^ 53) ≤ most')
    (h : count * value * (1 + 1 / 2 ^ 50) ≤ most * count') :
    count * value' * (1 + 1 / 2 ^ 51) ≤ most' * count' :=
  calc count * value' * (1 + 1 / 2 ^ 51)
      ≤ count * (value * (1 + 1 / 2 ^ 53)) * (1 + 1 / 2 ^ 51) := by gcongr
    _ = count * value * ((1 + 1 / 2 ^ 53) * (1 + 1 / 2 ^ 51)) := by ring
    _ ≤ count * value * ((1 + 1 / 2 ^ 50) * (1 - 1 / 2 ^ 53)) :=
        mul_le_mul_of_nonneg_left (by norm_num) (mul_nonneg hcount hvalue)
    _ = count * value * (1 + 1 / 2 ^ 50) * (1 - 1 / 2 ^ 53) := by ring
    _ ≤ most * count' * (1 - 1 / 2 ^ 53) := mul_le_mul_of_nonneg_right h (by norm_num)
    _ = most * (1 - 1 / 2 ^ 53) * count' := by ring
    _ ≤ most' * count' := mul_le_mul_of_nonneg_right hlow hcount'

/-- **A duration that is in proportion in milliseconds is so in seconds.** -/
lemma proportion_seconds {count count' : ℕ} {maxValue value bucket : ℚ} (hvalue : 5 < value)
    (hfinite : value ≤ greatest) (hbucket : nearest (1 / 200) ≤ bucket)
    (h : count * value * (1 + 1 / 2 ^ 50) ≤ max 5 maxValue * count') :
    nearest (value / 1000) ≤ 2 ^ 1022 * bucket ∧
      count * nearest (value / 1000) * (1 + 1 / 2 ^ 51) ≤
        max bucket (nearest (maxValue / 1000)) * count' := by
  have hsmall : (2 : ℚ) ^ (-1022 : ℤ) ≤ 1 / 200 := by decide +kernel
  have hnormal {x : ℚ} (hx : 5 ≤ x) : (2 : ℚ) ^ (-1022 : ℤ) ≤ x / 1000 := by linarith
  have hhigh := nearest_le_mul (hnormal hvalue.le)
  have hleast : 1 / 200 * (1 - 1 / 2 ^ 53) ≤ bucket := (mul_le_nearest hsmall).trans hbucket
  constructor
  · have hbound : greatest ≤ 4 * 2 ^ 1022 := by decide +kernel
    have hpow : (0 : ℚ) < 2 ^ 1022 := pow_pos (by norm_num) _
    generalize (2 : ℚ) ^ 1022 = m at hbound hpow
    have hscaled := mul_le_mul_of_nonneg_left hleast hpow.le
    linarith
  · -- What the new maximum is compared with, in seconds.
    have hlow : max 5 maxValue / 1000 * (1 - 1 / 2 ^ 53) ≤
        max bucket (nearest (maxValue / 1000)) := by
      rcases le_total maxValue 5 with hmax | hmax
      · rw [max_eq_left hmax]
        refine le_max_of_le_left (le_trans ?_ hleast)
        norm_num
      · rw [max_eq_right hmax]
        exact le_max_of_le_right (mul_le_nearest (hnormal hmax))
    refine proportion_of_approx (Nat.cast_nonneg _) (Nat.cast_nonneg _) (by linarith) hhigh hlow ?_
    have hscaled := div_le_div_of_nonneg_right h (by norm_num : (0 : ℚ) ≤ 1000)
    linarith

/-- **A value that is in proportion is so at every bound.** -/
lemma proportion_value {count count' : ℕ} {maxValue value bucket : ℚ} (hvalue : 0 ≤ value)
    (hbucket : 0 ≤ bucket) (h : count * value * (1 + 1 / 2 ^ 50) ≤ max 0 maxValue * count') :
    count * value * (1 + 1 / 2 ^ 51) ≤ max bucket maxValue * count' :=
  calc count * value * (1 + 1 / 2 ^ 51) ≤ count * value * (1 + 1 / 2 ^ 50) :=
        mul_le_mul_of_nonneg_left (by norm_num) (mul_nonneg (Nat.cast_nonneg _) hvalue)
    _ ≤ max 0 maxValue * count' := h
    _ ≤ max bucket maxValue * count' :=
        mul_le_mul_of_nonneg_right (max_le_max_right _ hbucket) (Nat.cast_nonneg _)

/-- **A sample that keeps to the condition puts its window ahead.** -/
theorem ahead_pushSample {convertToSeconds : Bool} {limit : ℕ} (hlimit : 0 < limit)
    {samples : List ℚ} {value : ℚ} (hsamples : ∀ x ∈ samples, 0 ≤ x) (hvalue : 0 ≤ value)
    (hfinite : value ≤ greatest) (h : Keeps math convertToSeconds limit samples value) :
    Ahead math convertToSeconds samples (pushSample limit samples value) := by
  obtain ⟨hcount, hsum, hmax⟩ := pushSample_spec hlimit hsamples hvalue h.1
  have hle : highest samples ≤ highest (pushSample limit samples value) := by
    rw [hmax]
    exact le_max_left _ _
  -- A maximum that is new is the value, and comes after another one.
  have hnew : highest samples < highest (pushSample limit samples value) →
      highest (pushSample limit samples value) = value ∧ highest samples < value := by
    intro hlt
    rw [hmax] at hlt ⊢
    have hlt' := (lt_max_iff.mp hlt).resolve_left (lt_irrefl _)
    exact ⟨max_eq_right hlt'.le, hlt'⟩
  refine ⟨hcount, hsum, hle, ?_, ?_, fun bucket hscope => ?_⟩
  · rintro rfl hne
    rcases hle.eq_or_lt with hold | hlt
    · exact .inl hold
    · exact .inr (h.2 hne (hnew hlt).2).1
  · rintro rfl hpos
    rcases hle.eq_or_lt with hold | hlt
    · rw [hold]
    · have hne : samples ≠ [] := by
        rintro rfl
        exact lt_irrefl _ hpos
      rw [(hnew hlt).1]
      exact (h.2 hne (hnew hlt).2).2.1
  · refine cumulativeCount_le math ?_ hcount (seconds_mono convertToSeconds hle) ?_
    · cases convertToSeconds with
      | true => exact (nearest_nonneg (by norm_num)).trans hscope
      | false => exact hscope.1
    intro hcountpos hlt hbelow
    have hltmax := lt_of_not_ge fun hge => hlt.not_ge (seconds_mono convertToSeconds hge)
    obtain ⟨heq, hltvalue⟩ := hnew hltmax
    have hkeeps := h.2 (List.length_pos_iff.mp hcountpos) hltvalue
    cases convertToSeconds with
    | true =>
        rw [seconds_eq, heq] at hbelow ⊢
        have hfive : 5 < value := by
          by_contra hnot
          have hleast : nearest (value / 1000) ≤ nearest (1 / 200) :=
            nearest_le_nearest (by linarith)
          exact absurd (hleast.trans hscope) (not_le.mpr hbelow)
        rw [seconds_eq]
        exact proportion_seconds hfive hfinite hscope (hkeeps hfive)
    | false =>
        obtain ⟨hbucket, hsame⟩ := hscope
        have hunit (x : ℚ) : seconds (doubles math) false x = x := rfl
        rw [heq] at hsame
        obtain ⟨-, horder, hscale⟩ := hsame.resolve_left hltvalue.ne
        rw [hunit, hunit, heq]
        exact ⟨hscale, proportion_value hvalue hbucket (hkeeps.2.2 horder)⟩

/-! ### Bounds -/

/-- A number that is next to another one. -/
def Near (x y : ℚ) : Prop := y * (399 / 400) ≤ x ∧ x ≤ y * (401 / 400)

lemma size_of_mem_multipliers : ∀ i ∈ multipliers, 1 / 10 ≤ i ∧ i * 401 < 3990 := by
  decide +kernel

/-- The bounds of two powers of ten are different. -/
lemma eq_of_multipliers {z z' : ℤ} {i i' bucket : ℚ} (hi : i ∈ multipliers)
    (hi' : i' ∈ multipliers) (h : Near bucket (10 ^ z * i)) (h' : Near bucket (10 ^ z' * i')) :
    z = z' := by
  have hten : ∀ i ∈ multipliers, ∀ i' ∈ multipliers,
      ¬ (10 * i' * 399 ≤ i * 401 ∧ i * 399 ≤ 10 * i' * 401) := by decide +kernel
  -- One power cannot be the greater one: it would be ten times the other one.
  have hle {z z' : ℤ} {i i' : ℚ} (hi : i ∈ multipliers) (hi' : i' ∈ multipliers)
      (h : Near bucket (10 ^ z * i)) (h' : Near bucket (10 ^ z' * i')) : z' ≤ z := by
    by_contra hlt
    obtain ⟨k, hk⟩ := Int.le.dest (not_le.mp hlt)
    have hz : (10 : ℚ) ^ z' = 10 ^ z * (10 * 10 ^ k) := by
      rw [← hk, zpow_add₀ (by norm_num), zpow_add₀ (by norm_num), zpow_natCast, zpow_one, mul_assoc]
    have hpow : (0 : ℚ) < 10 ^ z := zpow_pos (by norm_num) _
    rw [Near, hz] at h'
    have hbelow : 10 * 10 ^ k * i' * 399 ≤ i * 401 := by
      refine le_of_mul_le_mul_left ?_ hpow
      linarith only [h.2, h'.1]
    have habove : i * 399 ≤ 10 * 10 ^ k * i' * 401 := by
      refine le_of_mul_le_mul_left ?_ hpow
      linarith only [h.1, h'.2]
    cases k with
    | zero => exact hten i hi i' hi' ⟨by simpa using hbelow, by simpa using habove⟩
    | succ k =>
        have hone : (1 : ℚ) ≤ 10 ^ k := one_le_pow₀ (by norm_num)
        have hgreat := mul_le_mul hone (size_of_mem_multipliers i' hi').1 (by norm_num)
          (by positivity)
        rw [pow_succ] at hbelow
        linarith only [hgreat, hbelow, (size_of_mem_multipliers i hi).2]
  exact le_antisymm (hle hi' hi h' h) (hle hi hi' h h')

/-- A bound is next to the multiple of a power of ten. -/
lemma near_bound (hmath : math.Sound) {z : ℤ} (hlow : -302 ≤ z) (hhigh : z ≤ 308) {i : ℚ}
    (hi : i ∈ multipliers) : Near (nearest (math.pow10 z * nearest i)) (10 ^ z * i) := by
  have hsmall : (2 : ℚ) ^ (-1022 : ℤ) ≤ 1 / 10 := by decide +kernel
  have hleast : (2 : ℚ) ^ (-1022 : ℤ) ≤ 10 ^ (-302 : ℤ) * (1 / 20) := by decide +kernel
  have hten := (size_of_mem_multipliers i hi).1
  have hzero : 0 ≤ i := le_trans (by norm_num) hten
  have hpow : (10 : ℚ) ^ (-302 : ℤ) ≤ 10 ^ z := zpow_le_zpow_right₀ (by norm_num) hlow
  have hpos : (0 : ℚ) < 10 ^ z := zpow_pos (by norm_num) _
  obtain ⟨hpowlow, hpowhigh⟩ := abs_le.mp (hmath.pow10 z hlow hhigh)
  have hilow := mul_le_nearest (hsmall.trans hten)
  have hihigh := nearest_le_mul (hsmall.trans hten)
  -- The product before it is rounded.
  have hproductlow : 10 ^ z * i * (998 / 1000) ≤ math.pow10 z * nearest i :=
    calc 10 ^ z * i * (998 / 1000) ≤ 10 ^ z * i * (999 / 1000 * (1 - 1 / 2 ^ 53)) :=
          mul_le_mul_of_nonneg_left (by norm_num) (mul_nonneg hpos.le hzero)
      _ = 10 ^ z * (999 / 1000) * (i * (1 - 1 / 2 ^ 53)) := by ring
      _ ≤ math.pow10 z * nearest i :=
          mul_le_mul (by linarith only [hpowlow]) hilow (mul_nonneg hzero (by norm_num))
            (hmath.nonneg _)
  have hproducthigh : math.pow10 z * nearest i ≤ 10 ^ z * i * (1002 / 1000) :=
    calc math.pow10 z * nearest i ≤ 10 ^ z * (1001 / 1000) * (i * (1 + 1 / 2 ^ 53)) :=
          mul_le_mul (by linarith only [hpowhigh]) hihigh (nearest_nonneg hzero)
            (mul_nonneg hpos.le (by norm_num))
      _ = 10 ^ z * i * (1001 / 1000 * (1 + 1 / 2 ^ 53)) := by ring
      _ ≤ 10 ^ z * i * (1002 / 1000) :=
          mul_le_mul_of_nonneg_left (by norm_num) (mul_nonneg hpos.le hzero)
  have hbase : 10 ^ (-302 : ℤ) * (1 / 10) ≤ 10 ^ z * i :=
    mul_le_mul hpow hten (by norm_num) hpos.le
  have hproduct : 0 ≤ 10 ^ z * i := mul_nonneg hpos.le hzero
  generalize 10 ^ z * i = y at hproductlow hproducthigh hbase hproduct ⊢
  have hnormal : (2 : ℚ) ^ (-1022 : ℤ) ≤ math.pow10 z * nearest i := by
    refine (hleast.trans ?_).trans hproductlow
    generalize (10 : ℚ) ^ (-302 : ℤ) = least at hbase
    linarith only [hbase, hproduct]
  have hroundlow := mul_le_nearest hnormal
  have hroundhigh := nearest_le_mul hnormal
  constructor
  · linarith only [hroundlow, hproductlow, hproduct]
  · linarith only [hroundhigh, hproducthigh, hproduct]

/-- **A bound that two maxima have in common is one that they are compared at.** -/
theorem inScope_of_mem_generateCustomBuckets (hmath : math.Sound)
    {stats stats' : Prometheus.HistogramStats ℚ} {bucket : ℚ}
    (hfinite : stats'.max ≤ greatest) (hle : stats.max ≤ stats'.max)
    (hleast : stats.max = stats'.max ∨ leastMaximum ≤ stats.max)
    (h : bucket ∈ generateCustomBuckets (doubles math) stats)
    (h' : bucket ∈ generateCustomBuckets (doubles math) stats') :
    InScope math false stats.max stats'.max bucket := by
  have hbound {stats : Prometheus.HistogramStats ℚ} (hne : stats.max ≠ 0)
      (h : bucket ∈ generateCustomBuckets (doubles math) stats) :
      ∃ i ∈ multipliers, bucket = nearest (math.pow10 (math.order stats.max) * nearest i) :=
    Prometheus.exists_of_mem_generateCustomBuckets h (decide_eq_false hne)
  have hnonneg : 0 ≤ bucket := by
    rcases eq_or_ne stats.max 0 with hzero | hne
    · have hbounds : ∀ bucket ∈ [(0 : ℚ), 1, 10, 100].map nearest, 0 ≤ bucket := by decide +kernel
      have hempty : (doubles math).isZero stats.max = true := decide_eq_true hzero
      rw [generateCustomBuckets, if_pos hempty] at h
      exact hbounds bucket h
    · obtain ⟨i, hi, rfl⟩ := hbound hne h
      have hpos : 0 ≤ i := le_trans (by norm_num) (size_of_mem_multipliers i hi).1
      exact nearest_nonneg (mul_nonneg (hmath.nonneg _) (nearest_nonneg hpos))
  rcases hleast with heq | hleast
  · exact ⟨hnonneg, .inl heq⟩
  have hpos : 0 < stats.max := (zpow_pos (by norm_num) _).trans_le hleast
  have hpos' : 0 < stats'.max := hpos.trans_le hle
  -- The powers of ten are within the range of the doubles.
  have hrange {x : ℚ} (hx : leastMaximum ≤ x) (hfinite : x ≤ greatest) :
      -302 ≤ math.order x ∧ math.order x ≤ 308 ∧ Int.log 10 x ≤ math.order x + 1 := by
    have hxpos : 0 < x := (zpow_pos (by norm_num) _).trans_le hx
    obtain ⟨hnear, hgreatest⟩ := hmath.order x hxpos hfinite
    have hlog : -300 ≤ Int.log 10 x := (Int.zpow_le_iff_le_log (by norm_num) hxpos).mp hx
    rw [abs_le] at hnear
    omega
  obtain ⟨hlow, hhigh, -⟩ := hrange hleast (hle.trans hfinite)
  obtain ⟨hlow', hhigh', hlog⟩ := hrange (hleast.trans hle) hfinite
  obtain ⟨i, hi, heq⟩ := hbound hpos.ne' h
  obtain ⟨i', hi', heq'⟩ := hbound hpos'.ne' h'
  have hnear := near_bound hmath hlow hhigh hi
  have hnear' := near_bound hmath hlow' hhigh' hi'
  rw [← heq] at hnear
  rw [← heq'] at hnear'
  refine ⟨hnonneg, .inr ⟨hpos, eq_of_multipliers hi hi' hnear hnear', ?_⟩⟩
  have hpow : (0 : ℚ) < 10 ^ math.order stats'.max := zpow_pos (by norm_num) _
  have hmaximum : stats'.max ≤ 100 * 10 ^ math.order stats'.max :=
    calc stats'.max ≤ 10 ^ (Int.log 10 stats'.max + 1) :=
          (Int.lt_zpow_succ_log_self (by norm_num) _).le
      _ ≤ 10 ^ (math.order stats'.max + 2) := zpow_le_zpow_right₀ (by norm_num) (by omega)
      _ = 100 * 10 ^ math.order stats'.max := by
          rw [zpow_add₀ (by norm_num), mul_comm]
          norm_num
  have hleastbound : 10 ^ math.order stats'.max * (1 / 20) ≤ bucket := by
    have hproduct := mul_le_mul_of_nonneg_left (size_of_mem_multipliers i' hi').1 hpow.le
    linarith only [hproduct, hnear'.1, hpow]
  have hscale : (2000 : ℚ) ≤ 2 ^ 1022 := by decide +kernel
  calc stats'.max ≤ 100 * 10 ^ math.order stats'.max := hmaximum
    _ = 2000 * (10 ^ math.order stats'.max * (1 / 20)) := by ring
    _ ≤ 2 ^ 1022 * bucket := mul_le_mul hscale hleastbound (by positivity) (by positivity)

end Blaize.Metrics
