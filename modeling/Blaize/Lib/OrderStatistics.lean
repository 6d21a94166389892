import Mathlib.Algebra.Order.Floor.Ring
import Mathlib.Data.List.Sort
import Mathlib.Tactic.Common
import Mathlib.Tactic.Linarith

/-!
Order statistics, and linear interpolation between them.

* `IsOrderStatistic`: the sample of a rank, by the numbers of samples below it and up to it;
* `isOrderStatistic_sorted`: sorting finds it;
* `interpolate`: between the values at the whole numbers on both sides of a position;
* `interpolate_mono`: **the interpolation of a sequence that does not fall does not fall**.
-/

namespace OrderStatistics

/-! ### Ranks -/

section

variable {α : Type*} [LinearOrder α] {samples : List α} {k : ℕ} {x y : α}

/-- Of the samples at most `k` are below `x`, and more than `k` are up to it. -/
def IsOrderStatistic (samples : List α) (k : ℕ) (x : α) : Prop :=
  samples.countP (· < x) ≤ k ∧ k < samples.countP (· ≤ x)

lemma IsOrderStatistic.of_perm {samples' : List α} (h : IsOrderStatistic samples k x)
    (hperm : samples.Perm samples') : IsOrderStatistic samples' k x := by
  rwa [IsOrderStatistic, ← hperm.countP_eq, ← hperm.countP_eq]

lemma getElem_le_getElem (h : samples.Pairwise (· ≤ ·)) {i j : ℕ} (hij : i ≤ j)
    (hj : j < samples.length) : samples[i] ≤ samples[j] := by
  rcases hij.eq_or_lt with rfl | hlt
  · exact le_rfl
  · exact List.pairwise_iff_getElem.mp h i j (hlt.trans hj) hj hlt

/-- The sample at an index of a sorted list has the index as its rank. -/
lemma isOrderStatistic_sorted (h : samples.Pairwise (· ≤ ·)) (hk : k < samples.length) :
    IsOrderStatistic samples k samples[k] := by
  constructor
  · -- What is below it comes before it.
    have hdrop : (samples.drop k).countP (· < samples[k]) = 0 := by
      refine List.countP_eq_zero.mpr fun z hz => ?_
      obtain ⟨i, hi, rfl⟩ := List.getElem_of_mem hz
      rw [List.length_drop] at hi
      rw [List.getElem_drop, decide_eq_true_eq, not_lt]
      exact getElem_le_getElem h (Nat.le_add_right k i) (by omega)
    calc samples.countP (· < samples[k])
        = (samples.take k ++ samples.drop k).countP (· < samples[k]) := by
          rw [List.take_append_drop]
      _ = (samples.take k).countP (· < samples[k]) := by
          rw [List.countP_append, hdrop, Nat.add_zero]
      _ ≤ (samples.take k).length := List.countP_le_length
      _ ≤ k := List.length_take_le k samples
  · -- It and what comes before it is up to it.
    have htake : (samples.take (k + 1)).countP (· ≤ samples[k]) = k + 1 := by
      refine (List.countP_eq_length.mpr fun z hz => ?_).trans (List.length_take_of_le hk)
      obtain ⟨i, hi, rfl⟩ := List.getElem_of_mem hz
      rw [List.length_take] at hi
      rw [List.getElem_take, decide_eq_true_eq]
      exact getElem_le_getElem h (by omega) hk
    exact htake.ge.trans (List.take_sublist _ _).countP_le

end

/-! ### Interpolation -/

section

variable {K : Type*} [Field K] [LinearOrder K] [IsStrictOrderedRing K] [FloorSemiring K]
variable {f : ℕ → K} {n : ℕ} {x y : K}

/-- Between the values at the whole numbers below and above the position. -/
def interpolate (f : ℕ → K) (x : K) : K := f ⌊x⌋₊ + (x - ⌊x⌋₊) * (f ⌈x⌉₊ - f ⌊x⌋₊)

lemma interpolate_natCast (f : ℕ → K) (n : ℕ) : interpolate f n = f n := by
  rw [interpolate, Nat.floor_natCast, Nat.ceil_natCast, sub_self, zero_mul, add_zero]

/-- A weight is between 0 and 1. -/
lemma weight_mem (hx : 0 ≤ x) : 0 ≤ x - ⌊x⌋₊ ∧ x - ⌊x⌋₊ ≤ 1 := by
  have hfloor := Nat.floor_le hx
  have hnext := (Nat.lt_floor_add_one x).le
  constructor <;> linarith

lemma le_interpolate (hf : MonotoneOn f (Set.Iic n)) (hx : 0 ≤ x) (hn : x ≤ n) :
    f ⌊x⌋₊ ≤ interpolate f x := by
  have hceil : ⌈x⌉₊ ≤ n := Nat.ceil_le.mpr hn
  have hle := hf ((Nat.floor_le_ceil x).trans hceil) hceil (Nat.floor_le_ceil x)
  exact le_add_of_nonneg_right (mul_nonneg (weight_mem hx).1 (sub_nonneg.mpr hle))

lemma interpolate_le (hf : MonotoneOn f (Set.Iic n)) (hx : 0 ≤ x) (hn : x ≤ n) :
    interpolate f x ≤ f ⌈x⌉₊ := by
  have hceil : ⌈x⌉₊ ≤ n := Nat.ceil_le.mpr hn
  have hle := hf ((Nat.floor_le_ceil x).trans hceil) hceil (Nat.floor_le_ceil x)
  have hshare := mul_le_of_le_one_left (sub_nonneg.mpr hle) (weight_mem hx).2
  rw [interpolate]
  linarith

/-- **The interpolation of a sequence that does not fall does not fall.** -/
theorem interpolate_mono (hf : MonotoneOn f (Set.Iic n)) (hx : 0 ≤ x) (hxy : x ≤ y) (hn : y ≤ n) :
    interpolate f x ≤ interpolate f y := by
  have hy : 0 ≤ y := hx.trans hxy
  have hfloor : ⌊x⌋₊ ≤ ⌊y⌋₊ := Nat.floor_le_floor hxy
  have hceil : ⌈x⌉₊ ≤ ⌈y⌉₊ := Nat.ceil_le_ceil hxy
  have hn' : ⌈y⌉₊ ≤ n := Nat.ceil_le.mpr hn
  rcases le_or_gt ⌈x⌉₊ ⌊y⌋₊ with hapart | htogether
  · -- In different gaps the values at the ends lie between.
    calc interpolate f x ≤ f ⌈x⌉₊ := interpolate_le hf hx (hxy.trans hn)
      _ ≤ f ⌊y⌋₊ := hf (hceil.trans hn') ((Nat.floor_le_ceil y).trans hn') hapart
      _ ≤ interpolate f y := le_interpolate hf hy hn
  · -- In one gap the ends are the same, and the weights are in order.
    have hxceil := Nat.ceil_le_floor_add_one x
    have hyceil := Nat.ceil_le_floor_add_one y
    have hsamefloor : ⌊x⌋₊ = ⌊y⌋₊ := by omega
    have hsameceil : ⌈x⌉₊ = ⌈y⌉₊ := by omega
    have hle := hf ((Nat.floor_le_ceil y).trans hn') hn' (Nat.floor_le_ceil y)
    rw [interpolate, interpolate, hsamefloor, hsameceil]
    gcongr

end

end OrderStatistics
