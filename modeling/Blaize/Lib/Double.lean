import Mathlib.Algebra.Order.Field.Rat
import Mathlib.Data.Int.Log
import Mathlib.Data.List.Sort
import Mathlib.Data.Rat.Floor
import Mathlib.Tactic.FieldSimp
import Mathlib.Tactic.Linarith

/-!
The rounding to the doubles, over the rational numbers.

The exponent is bounded below, as in the format, and not above: where a result is too large for
a double is for those to say who use it.

* `roundEven`: the nearest whole number, the even one of two;
* `exponent`, `nearest`: the step of the doubles around a number, and the nearest of them;
* `nearest_mono`, `nearest_le_nearest`: **the rounding keeps the order**;
* `nearest_of_mul`: a short number is its own nearest double;
* `isDouble_nearest`, `nearest_mul_pow`: so is what was rounded, and its product with a power of
  two;
* `abs_nearest_sub_le`: how far the nearest double can be, and `nearest_le_mul`,
  `mul_le_nearest` as factors;
* `sumFrom`, `sortedSum`: sums of doubles, `sortedSum_le_concat`, `sortedSum_le_replace`: **a sum
  of sorted numbers falls neither with one more number nor with a greater one**.
-/

namespace Js

/-! ### Whole numbers -/

/-- The nearest whole number; of two, the even one. -/
def roundEven (x : ℚ) : ℤ :=
  if x - ⌊x⌋ < 1 / 2 then ⌊x⌋
  else if 1 / 2 < x - ⌊x⌋ then ⌊x⌋ + 1
  else if Even ⌊x⌋ then ⌊x⌋ else ⌊x⌋ + 1

/-- The whole number is the nearest one, and of two the even one. -/
lemma roundEven_spec (x : ℚ) :
    |x - roundEven x| < 1 / 2 ∨ |x - roundEven x| = 1 / 2 ∧ Even (roundEven x) := by
  have hfloor := Int.floor_le x
  have hnext := Int.lt_floor_add_one x
  rw [roundEven]
  split
  next hlow => exact .inl (abs_lt.mpr (by constructor <;> linarith))
  split
  next hlow hhigh =>
    push_cast
    exact .inl (abs_lt.mpr (by constructor <;> linarith))
  next hlow hhigh =>
    -- The number lies in the middle.
    have hmiddle : x - ⌊x⌋ = 1 / 2 := le_antisymm (not_lt.mp hhigh) (not_lt.mp hlow)
    split
    next heven => exact .inr ⟨by rw [hmiddle]; norm_num, heven⟩
    next hodd =>
      refine .inr ⟨?_, Int.even_add_one.mpr hodd⟩
      push_cast
      rw [← sub_sub, hmiddle]
      norm_num

lemma abs_sub_roundEven_le (x : ℚ) : |x - roundEven x| ≤ 1 / 2 :=
  (roundEven_spec x).elim le_of_lt fun h => h.1.le

/-- There is only one such number. -/
lemma roundEven_eq {x : ℚ} {n : ℤ} (h : |x - n| < 1 / 2 ∨ |x - n| = 1 / 2 ∧ Even n) :
    roundEven x = n := by
  have hle : |x - n| ≤ 1 / 2 := h.elim le_of_lt fun h => h.1.le
  have hdist : |((roundEven x - n : ℤ) : ℚ)| ≤ |x - n| + |x - roundEven x| := by
    push_cast
    calc |(roundEven x - n : ℚ)| = |(x - n) - (x - roundEven x)| := by congr 1; ring
      _ ≤ |x - n| + |x - roundEven x| := abs_sub _ _
  by_contra hne
  have hone : (1 : ℚ) ≤ |((roundEven x - n : ℤ) : ℚ)| := by
    exact_mod_cast Int.one_le_abs (sub_ne_zero.mpr hne)
  -- Both are a half away, so that both are even, and one apart.
  rcases h with hlt | ⟨-, heven⟩
  · linarith [abs_sub_roundEven_le x]
  rcases roundEven_spec x with hlt | ⟨-, heven'⟩
  · linarith
  have hapart : |roundEven x - n| < 2 := by
    have : |((roundEven x - n : ℤ) : ℚ)| < 2 := by linarith [abs_sub_roundEven_le x]
    exact_mod_cast this
  obtain ⟨k, hk⟩ := heven'.sub heven
  rw [abs_lt] at hapart
  omega

lemma roundEven_neg (x : ℚ) : roundEven (-x) = -roundEven x := by
  refine roundEven_eq ?_
  have hdist : |-x - (-roundEven x : ℤ)| = |x - roundEven x| := by
    push_cast
    rw [← neg_sub', abs_neg]
  rw [hdist, even_neg]
  exact roundEven_spec x

lemma roundEven_intCast (n : ℤ) : roundEven n = n := by
  rw [roundEven, Int.floor_intCast, if_pos (by norm_num)]

/-- **The rounding to whole numbers keeps the order.** -/
lemma roundEven_mono {x y : ℚ} (h : x ≤ y) : roundEven x ≤ roundEven y := by
  by_contra hlt
  have hsucc : (roundEven y : ℚ) + 1 ≤ roundEven x := by exact_mod_cast not_le.mp hlt
  have hx := (abs_le.mp (abs_sub_roundEven_le x)).1
  have hy := (abs_le.mp (abs_sub_roundEven_le y)).2
  -- Both lie in the middle, so that they are one number.
  obtain rfl : x = y := by linarith
  exact hlt le_rfl

lemma roundEven_le {x : ℚ} {n : ℤ} (h : x ≤ n) : roundEven x ≤ n :=
  (roundEven_mono h).trans_eq (roundEven_intCast n)

lemma le_roundEven {x : ℚ} {n : ℤ} (h : n ≤ x) : n ≤ roundEven x :=
  (roundEven_intCast n).symm.trans_le (roundEven_mono h)

/-! ### Doubles -/

/-- The exponent of the step of the doubles around a number: they have 53 digits, and the least
step is `2 ^ (-1074)`. -/
def exponent (x : ℚ) : ℤ := max (-1074) (Int.log 2 |x| - 52)

/-- The nearest double; of two, the one with the even last digit. -/
def nearest (x : ℚ) : ℚ := roundEven (x / 2 ^ exponent x) * 2 ^ exponent x

/-- A double. -/
def IsDouble (x : ℚ) : Prop := nearest x = x

instance (x : ℚ) : Decidable (IsDouble x) := inferInstanceAs (Decidable (_ = _))

lemma two_zpow_pos (e : ℤ) : (0 : ℚ) < 2 ^ e := zpow_pos (by norm_num) e

lemma neg_le_exponent (x : ℚ) : -1074 ≤ exponent x := le_max_left _ _

/-- The powers between two exponents. -/
lemma two_zpow_eq {e e' : ℤ} (h : e' ≤ e) : ∃ k : ℕ, (2 : ℚ) ^ e = (2 ^ k : ℤ) * 2 ^ e' := by
  obtain ⟨k, hk⟩ := Int.le.dest h
  refine ⟨k, ?_⟩
  rw [← hk, zpow_add₀ (by norm_num), mul_comm, zpow_natCast]
  push_cast
  rfl

lemma abs_lt_zpow_exponent (x : ℚ) : |x| < 2 ^ (exponent x + 53) := by
  calc |x| < 2 ^ (Int.log 2 |x| + 1) := Int.lt_zpow_succ_log_self (by norm_num) _
    _ ≤ 2 ^ (exponent x + 53) := by
      refine zpow_le_zpow_right₀ (by norm_num) ?_
      have hlog : Int.log 2 |x| - 52 ≤ exponent x := le_max_right _ _
      omega

/-- Above the least step, the step is that of the number's power of two. -/
lemma zpow_exponent_le {x : ℚ} (hx : x ≠ 0) (h : -1074 < exponent x) :
    2 ^ (exponent x + 52) ≤ |x| := by
  have hlog : exponent x = Int.log 2 |x| - 52 :=
    (max_choice _ _).resolve_left fun heq => h.ne' heq
  rw [hlog, sub_add_cancel]
  exact Int.zpow_log_le_self (by norm_num) (abs_pos.mpr hx)

/-- Between the doubles around a number and those of a coarser step there is no other. -/
lemma nearest_le_of_mul {x : ℚ} {n : ℤ} (h : x ≤ n * 2 ^ exponent x) :
    nearest x ≤ n * 2 ^ exponent x := by
  have hscaled : x / 2 ^ exponent x ≤ n := (div_le_iff₀ (two_zpow_pos _)).mpr h
  have hround : (roundEven (x / 2 ^ exponent x) : ℚ) ≤ n := by exact_mod_cast roundEven_le hscaled
  exact mul_le_mul_of_nonneg_right hround (two_zpow_pos _).le

lemma le_nearest_of_mul {x : ℚ} {n : ℤ} (h : n * 2 ^ exponent x ≤ x) :
    n * 2 ^ exponent x ≤ nearest x := by
  have hscaled : n ≤ x / 2 ^ exponent x := (le_div_iff₀ (two_zpow_pos _)).mpr h
  have hround : (n : ℚ) ≤ roundEven (x / 2 ^ exponent x) := by exact_mod_cast le_roundEven hscaled
  exact mul_le_mul_of_nonneg_right hround (two_zpow_pos _).le

lemma nearest_zero : nearest 0 = 0 := by
  have hround : roundEven 0 = 0 := by exact_mod_cast roundEven_intCast 0
  rw [nearest, zero_div, hround, Int.cast_zero, zero_mul]

lemma nearest_neg (x : ℚ) : nearest (-x) = -nearest x := by
  rw [nearest, exponent, abs_neg, ← exponent, neg_div, roundEven_neg, Int.cast_neg, neg_mul,
    nearest]

lemma nearest_nonneg {x : ℚ} (h : 0 ≤ x) : 0 ≤ nearest x := by
  have hzero := @le_nearest_of_mul x 0 (by rw [Int.cast_zero, zero_mul]; exact h)
  rwa [Int.cast_zero, zero_mul] at hzero

lemma exponent_mono {x y : ℚ} (hx : 0 < x) (h : x ≤ y) : exponent x ≤ exponent y := by
  have hlog : Int.log 2 |x| ≤ Int.log 2 |y| := by
    rw [abs_of_pos hx, abs_of_pos (hx.trans_le h)]
    exact Int.log_mono_right hx h
  exact max_le_max le_rfl (by omega)

/-- **The rounding keeps the order.** -/
theorem nearest_mono {x y : ℚ} (hx : 0 ≤ x) (h : x ≤ y) : nearest x ≤ nearest y := by
  rcases hx.eq_or_lt with rfl | hpos
  · rw [nearest_zero]
    exact nearest_nonneg h
  rcases (exponent_mono hpos h).eq_or_lt with heq | hlt
  · -- The steps are the same.
    rw [nearest, nearest, ← heq]
    have hscaled : x / 2 ^ exponent x ≤ y / 2 ^ exponent x :=
      div_le_div_of_nonneg_right h (two_zpow_pos _).le
    exact mul_le_mul_of_nonneg_right (by exact_mod_cast roundEven_mono hscaled)
      (two_zpow_pos _).le
  · -- The power of two at which the step changes lies between them.
    have hx53 : x < 2 ^ (exponent x + 53) := by
      simpa only [abs_of_pos hpos] using abs_lt_zpow_exponent x
    have hy52 : 2 ^ (exponent y + 52) ≤ y := by
      have hypos := hpos.trans_le h
      simpa only [abs_of_pos hypos] using
        zpow_exponent_le hypos.ne' ((neg_le_exponent x).trans_lt hlt)
    obtain ⟨k, hk⟩ := @two_zpow_eq (exponent y + 52) (exponent x) (by omega)
    obtain ⟨l, hl⟩ := @two_zpow_eq (exponent y + 52) (exponent y) (by omega)
    have hle : x ≤ (2 ^ k : ℤ) * 2 ^ exponent x := by
      rw [← hk]
      exact hx53.le.trans (zpow_le_zpow_right₀ (by norm_num) (by omega))
    calc nearest x ≤ (2 ^ k : ℤ) * 2 ^ exponent x := nearest_le_of_mul hle
      _ = (2 ^ l : ℤ) * 2 ^ exponent y := by rw [← hk, hl]
      _ ≤ nearest y := le_nearest_of_mul (by rw [← hl]; exact hy52)

/-- So it does below zero. -/
theorem nearest_le_nearest {x y : ℚ} (h : x ≤ y) : nearest x ≤ nearest y := by
  rcases le_total 0 x with hx | hx
  · exact nearest_mono hx h
  have hneg {z : ℚ} (hz : z ≤ 0) : nearest z = -nearest (-z) := by rw [nearest_neg, neg_neg]
  rcases le_total 0 y with hy | hy
  · rw [hneg hx]
    exact (neg_nonpos.mpr (nearest_nonneg (neg_nonneg.mpr hx))).trans (nearest_nonneg hy)
  · rw [hneg hx, hneg hy]
    exact neg_le_neg (nearest_mono (neg_nonneg.mpr hy) (neg_le_neg h))

/-! ### What is not rounded -/

/-- A number of whole steps is its own nearest double. -/
lemma nearest_of_exponent_le {x : ℚ} {m e : ℤ} (h : x = m * 2 ^ e) (he : exponent x ≤ e) :
    nearest x = x := by
  obtain ⟨k, hk⟩ := two_zpow_eq he
  have hwhole : x / 2 ^ exponent x = (m * 2 ^ k : ℤ) := by
    rw [div_eq_iff (two_zpow_pos _).ne']
    calc x = m * 2 ^ e := h
      _ = (m * 2 ^ k : ℤ) * 2 ^ exponent x := by
        rw [hk]
        push_cast
        ring
  rw [nearest, hwhole, roundEven_intCast, ← hwhole, div_mul_cancel₀ _ (two_zpow_pos _).ne']

/-- **A number of at most 53 digits is its own nearest double.** -/
theorem nearest_of_mul {m e : ℤ} (hm : |m| ≤ 2 ^ 53) (he : -1074 ≤ e) :
    nearest (m * 2 ^ e) = m * 2 ^ e := by
  rcases eq_or_ne m 0 with rfl | hne
  · rw [Int.cast_zero, zero_mul, nearest_zero]
  have hlow : |(m * 2 ^ e : ℚ)| = |m| * 2 ^ e := by
    rw [abs_mul, abs_of_pos (two_zpow_pos e), Int.cast_abs]
  have hstep {m e : ℤ} (hne : m ≠ 0) (hlt : |m| < 2 ^ 53) (he : -1074 ≤ e) :
      nearest (m * 2 ^ e) = m * 2 ^ e := by
    refine nearest_of_exponent_le rfl (max_le he ?_)
    have habs : |(m * 2 ^ e : ℚ)| < 2 ^ (e + 53) := by
      rw [abs_mul, abs_of_pos (two_zpow_pos e), ← Int.cast_abs, zpow_add₀ (by norm_num), mul_comm]
      refine mul_lt_mul_of_pos_left ?_ (two_zpow_pos e)
      exact_mod_cast hlt
    have hpos : 0 < |(m * 2 ^ e : ℚ)| :=
      abs_pos.mpr (mul_ne_zero (Int.cast_ne_zero.mpr hne) (two_zpow_pos e).ne')
    have hlog := (Int.lt_zpow_iff_log_lt (b := 2) (by norm_num) hpos).mp (by exact_mod_cast habs)
    omega
  rcases hm.lt_or_eq with hlt | heq
  · exact hstep hne hlt he
  · -- One digit less with twice the step.
    obtain ⟨n, hn, hn2⟩ : ∃ n : ℤ, m = n * 2 ∧ |n| < 2 ^ 53 := by
      rcases abs_eq (by norm_num : (0 : ℤ) ≤ 2 ^ 53) |>.mp heq with rfl | rfl
      · exact ⟨2 ^ 52, by norm_num, by norm_num⟩
      · exact ⟨-2 ^ 52, by norm_num, by norm_num⟩
    have hdouble : (m * 2 ^ e : ℚ) = n * 2 ^ (e + 1) := by
      rw [hn, zpow_add_one₀ (by norm_num)]
      push_cast
      ring
    rw [hdouble]
    exact hstep (by rintro rfl; exact hne (by simpa using hn)) hn2 (by omega)

/-- A whole number is rounded to a whole number. -/
lemma exists_nearest_intCast (n : ℤ) : ∃ k : ℤ, nearest n = k := by
  rcases le_total (exponent n) 0 with h | h
  · exact ⟨n, nearest_of_exponent_le (by rw [zpow_zero, mul_one]) h⟩
  · obtain ⟨k, hk⟩ := two_zpow_eq h
    rw [zpow_zero, mul_one] at hk
    refine ⟨roundEven (n / 2 ^ exponent n) * 2 ^ k, ?_⟩
    rw [nearest, hk]
    push_cast
    rfl

/-- What was rounded has 53 digits. -/
lemma exists_eq_nearest (x : ℚ) :
    ∃ m e : ℤ, |m| ≤ 2 ^ 53 ∧ -1074 ≤ e ∧ nearest x = m * 2 ^ e := by
  refine ⟨roundEven (x / 2 ^ exponent x), exponent x, ?_, neg_le_exponent x, rfl⟩
  have hscaled : |x / 2 ^ exponent x| ≤ (2 ^ 53 : ℤ) := by
    rw [abs_div, abs_of_pos (two_zpow_pos _), div_le_iff₀ (two_zpow_pos _)]
    have hlt := (abs_lt_zpow_exponent x).le
    rwa [add_comm, zpow_add₀ (by norm_num)] at hlt
  obtain ⟨hlow, hhigh⟩ := abs_le.mp hscaled
  exact abs_le.mpr ⟨le_roundEven (by push_cast at hlow ⊢; exact hlow), roundEven_le hhigh⟩

/-- **What was rounded is a double, and so is its product with a power of two.** -/
theorem nearest_mul_pow (x : ℚ) (k : ℕ) : IsDouble (nearest x * 2 ^ k) := by
  obtain ⟨m, e, hm, he, heq⟩ := exists_eq_nearest x
  have hmul : nearest x * 2 ^ k = m * 2 ^ (e + k) := by
    rw [heq, zpow_add₀ (by norm_num), zpow_natCast, mul_assoc]
  rw [IsDouble, hmul]
  exact nearest_of_mul hm (by omega)

lemma isDouble_nearest (x : ℚ) : IsDouble (nearest x) := by
  simpa using nearest_mul_pow x 0

/-- A sum of what is not negative does not fall. -/
lemma IsDouble.le_nearest_add {x y : ℚ} (hx : IsDouble x) (hnonneg : 0 ≤ x) (hy : 0 ≤ y) :
    x ≤ nearest (x + y) :=
  hx.symm.trans_le (nearest_mono hnonneg (le_add_of_nonneg_right hy))

/-! ### How far -/

/-- The nearest double is at most half a step away. -/
lemma abs_nearest_sub_le_half (x : ℚ) : |nearest x - x| ≤ 2 ^ exponent x / 2 := by
  have hscaled := abs_sub_roundEven_le (x / 2 ^ exponent x)
  have heq : nearest x - x =
      -(x / 2 ^ exponent x - roundEven (x / 2 ^ exponent x)) * 2 ^ exponent x := by
    rw [nearest, neg_mul, sub_mul, div_mul_cancel₀ _ (two_zpow_pos _).ne']
    ring
  rw [heq, abs_mul, abs_neg, abs_of_pos (two_zpow_pos _)]
  calc _ ≤ 1 / 2 * 2 ^ exponent x := mul_le_mul_of_nonneg_right hscaled (two_zpow_pos _).le
    _ = 2 ^ exponent x / 2 := by ring

/-- **The error of the rounding**, for numbers that are not too small. -/
theorem abs_nearest_sub_le {x : ℚ} (h : 2 ^ (-1022 : ℤ) ≤ |x|) :
    |nearest x - x| ≤ |x| / 2 ^ 53 := by
  have hpos : 0 < |x| := (two_zpow_pos _).trans_le h
  have hlog : -1022 ≤ Int.log 2 |x| := (Int.zpow_le_iff_le_log (by norm_num) hpos).mp h
  have hexponent : exponent x = Int.log 2 |x| - 52 := max_eq_right (by omega)
  refine (abs_nearest_sub_le_half x).trans ?_
  have hself : (2 : ℚ) ^ Int.log 2 |x| ≤ |x| := Int.zpow_log_le_self (by norm_num) hpos
  have hstep : (2 : ℚ) ^ exponent x = 2 ^ Int.log 2 |x| / 2 ^ 52 := by
    rw [hexponent, zpow_sub₀ (by norm_num)]
    norm_num
  rw [hstep]
  linarith

section

variable {x : ℚ} (h : 2 ^ (-1022 : ℤ) ≤ x)

include h

lemma nearest_le_mul : nearest x ≤ x * (1 + 1 / 2 ^ 53) := by
  have habs : |x| = x := abs_of_pos ((two_zpow_pos _).trans_le h)
  have herror := (abs_le.mp (abs_nearest_sub_le (h.trans_eq habs.symm))).2
  rw [habs] at herror
  linarith

lemma mul_le_nearest : x * (1 - 1 / 2 ^ 53) ≤ nearest x := by
  have habs : |x| = x := abs_of_pos ((two_zpow_pos _).trans_le h)
  have herror := (abs_le.mp (abs_nearest_sub_le (h.trans_eq habs.symm))).1
  rw [habs] at herror
  linarith

end

/-! ### Sums -/

/-- Numbers are added one after the other, and each sum is rounded. -/
def sumFrom (first : ℚ) (xs : List ℚ) : ℚ := xs.foldl (fun sum x => nearest (sum + x)) first

lemma le_sumFrom {first : ℚ} {xs : List ℚ} (hfirst : IsDouble first) (hnonneg : 0 ≤ first)
    (h : ∀ x ∈ xs, 0 ≤ x) : first ≤ sumFrom first xs := by
  induction xs generalizing first with
  | nil => exact le_rfl
  | cons x xs ih =>
      obtain ⟨hx, hxs⟩ := List.forall_mem_cons.mp h
      exact (hfirst.le_nearest_add hnonneg hx).trans
        (ih (isDouble_nearest _) (nearest_nonneg (add_nonneg hnonneg hx)) hxs)

/-- **Greater numbers, and more of them, have no lesser sum.** -/
theorem sumFrom_mono {xs ys : List ℚ} (h : List.SublistForall₂ (· ≤ ·) xs ys)
    (hys : ∀ y ∈ ys, 0 ≤ y) {first first' : ℚ} (hle : first ≤ first') (hfirst : IsDouble first')
    (hnonneg : 0 ≤ first') : sumFrom first xs ≤ sumFrom first' ys := by
  induction h generalizing first first' with
  | nil => exact hle.trans (le_sumFrom hfirst hnonneg hys)
  | cons hxy _ ih =>
      obtain ⟨hy, hys⟩ := List.forall_mem_cons.mp hys
      exact ih hys (nearest_le_nearest (add_le_add hle hxy)) (isDouble_nearest _)
        (nearest_nonneg (add_nonneg hnonneg hy))
  | cons_right _ ih =>
      obtain ⟨hy, hys⟩ := List.forall_mem_cons.mp hys
      exact ih hys (hle.trans (hfirst.le_nearest_add hnonneg hy)) (isDouble_nearest _)
        (nearest_nonneg (add_nonneg hnonneg hy))

/-- Numbers are added from the least one on. -/
def sortedSum (xs : List ℚ) : ℚ := sumFrom 0 (xs.mergeSort fun a b => a ≤ b)

/-- A greater number in the same sorted list. -/
lemma orderedInsert_le {l : List ℚ} (hl : l.Pairwise (· ≤ ·)) {a b : ℚ} (h : a ≤ b) :
    List.Forall₂ (· ≤ ·) (l.orderedInsert (· ≤ ·) a) (l.orderedInsert (· ≤ ·) b) := by
  induction l generalizing a with
  | nil => exact .cons h .nil
  | cons c l ih =>
      obtain ⟨hc, hl⟩ := List.pairwise_cons.mp hl
      rcases le_or_gt b c with hb | hb
      · rw [List.orderedInsert_cons_of_le _ l (h.trans hb), List.orderedInsert_cons_of_le _ l hb]
        exact .cons h (List.forall₂_refl _)
      rw [List.orderedInsert_of_not_le _ l hb.not_ge]
      rcases le_or_gt a c with ha | ha
      · -- The greater number goes past the head of the list.
        rw [List.orderedInsert_cons_of_le _ l ha]
        have hhead : l.orderedInsert (· ≤ ·) c = c :: l := by
          cases l with
          | nil => rfl
          | cons d l => exact List.orderedInsert_cons_of_le _ l (hc d List.mem_cons_self)
        exact .cons ha (hhead ▸ ih hl hb.le)
      · rw [List.orderedInsert_of_not_le _ l ha.not_ge]
        exact .cons le_rfl (ih hl h)

lemma mergeSort_concat (xs : List ℚ) (x : ℚ) :
    (xs ++ [x]).mergeSort (fun a b => a ≤ b) =
      (xs.mergeSort fun a b => a ≤ b).orderedInsert (· ≤ ·) x := by
  rw [List.mergeSort_eq_insertionSort, List.mergeSort_eq_insertionSort,
    ← List.insertionSort_cons]
  refine List.Perm.eq_of_pairwise' (List.pairwise_insertionSort _ _)
    (List.pairwise_insertionSort _ _) ?_
  exact (List.perm_insertionSort _ _).trans
    ((List.perm_append_singleton x xs).trans (List.perm_insertionSort _ _).symm)

lemma mergeSort_cons (xs : List ℚ) (x : ℚ) :
    (x :: xs).mergeSort (fun a b => a ≤ b) =
      (xs.mergeSort fun a b => a ≤ b).orderedInsert (· ≤ ·) x := by
  rw [List.mergeSort_eq_insertionSort, List.mergeSort_eq_insertionSort, List.insertionSort_cons]

section

variable {xs : List ℚ} (h : ∀ x ∈ xs, 0 ≤ x)

include h

lemma nonneg_of_mem_mergeSort : ∀ x ∈ xs.mergeSort (fun a b => a ≤ b), 0 ≤ x :=
  fun x hx => h x (List.mem_mergeSort.mp hx)

/-- **One more number.** -/
theorem sortedSum_le_concat {x : ℚ} (hx : 0 ≤ x) : sortedSum xs ≤ sortedSum (xs ++ [x]) := by
  have hall := List.forall_mem_append.mpr ⟨h, List.forall_mem_singleton.mpr hx⟩
  refine sumFrom_mono ?_ (nonneg_of_mem_mergeSort hall) le_rfl nearest_zero le_rfl
  rw [mergeSort_concat]
  exact (List.sublist_orderedInsert x _).sublistForall₂

/-- **A number makes room for one that is not less.** -/
theorem sortedSum_le_replace {a b : ℚ} (hb : 0 ≤ b) (hab : a ≤ b) :
    sortedSum (a :: xs) ≤ sortedSum (xs ++ [b]) := by
  have hall := List.forall_mem_append.mpr ⟨h, List.forall_mem_singleton.mpr hb⟩
  refine sumFrom_mono ?_ (nonneg_of_mem_mergeSort hall) le_rfl nearest_zero le_rfl
  rw [mergeSort_concat, mergeSort_cons]
  have hsorted : (xs.mergeSort fun a b => a ≤ b).Pairwise (· ≤ ·) := by
    rw [List.mergeSort_eq_insertionSort]
    exact List.pairwise_insertionSort _ _
  exact List.sublistForall₂_iff.mpr ⟨_, orderedInsert_le hsorted hab, List.Sublist.refl _⟩

end

end Js
