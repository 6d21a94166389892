import Blaize.Lib.ParseFloat

/-!
The texts of the doubles: `Number.prototype.toString`, over the rational numbers.

A double is written as the shortest decimal that is read as it; of several, as the nearest one.

* `Number.value`, `readDecimal_toChars`: **a decimal is read back from its text**;
* `nearest_eq_of_abs_sub_lt`: what is close to a double is read as it;
* `candidates`, `shortest`: the decimals around a positive double, and the one that is taken;
* `nearest_shortest`: **seventeen digits are enough**, so that there is always one;
* `ofDouble`, `doubleText`, `textValue`: the text of a double, and what a text stands for;
* `nearest_textValue`, `textValue_mono`: **the double is read back from its text, and the texts
  keep the order**.
-/

namespace Js

namespace Number

/-! ### Decimals and their texts -/

/-- The value of the digits, whatever the sign. -/
def abs (x : Number) : ℚ := x.digits * 10 ^ x.exponent

/-- The value of a decimal. -/
def value (x : Number) : ℚ := if x.negative then -x.abs else x.abs

lemma abs_nonneg (x : Number) : 0 ≤ x.abs :=
  mul_nonneg (Nat.cast_nonneg _) (zpow_nonneg (by norm_num) _)

lemma abs_ofScaled (negative : Bool) (digits : ℕ) (exponent : ℤ) :
    (ofScaled negative digits exponent).abs = digits * 10 ^ exponent := by
  unfold ofScaled
  split
  next hzero => simp [abs, hzero]
  next =>
    have hvalue := stripZeros_value digits digits exponent
    have hle := le_stripZeros digits digits exponent
    have hpow : (10 : ℚ) ^ (stripZeros digits digits exponent).2 =
        10 ^ ((stripZeros digits digits exponent).2 - exponent).toNat * 10 ^ exponent := by
      rw [← zpow_natCast, Int.toNat_of_nonneg (sub_nonneg.mpr hle), ← zpow_add₀ (by norm_num),
        sub_add_cancel]
    have hcast : (digits : ℚ) = (stripZeros digits digits exponent).1 *
        10 ^ ((stripZeros digits digits exponent).2 - exponent).toNat := by
      exact_mod_cast hvalue.symm
    calc ((stripZeros digits digits exponent).1 : ℚ) * 10 ^ (stripZeros digits digits exponent).2
        = (stripZeros digits digits exponent).1 *
            10 ^ ((stripZeros digits digits exponent).2 - exponent).toNat * 10 ^ exponent := by
          rw [hpow, mul_assoc]
      _ = digits * 10 ^ exponent := by rw [← hcast]

/-- Nothing has no sign. -/
lemma negative_ofScaled (negative : Bool) (digits : ℕ) (exponent : ℤ) :
    (ofScaled negative digits exponent).negative = (negative && decide (digits ≠ 0)) := by
  unfold ofScaled
  split
  next hzero => simp [hzero]
  next hne => simp [hne]

lemma value_ofScaled (negative : Bool) (digits : ℕ) (exponent : ℤ) :
    (ofScaled negative digits exponent).value =
      if negative then -(digits * 10 ^ exponent : ℚ) else digits * 10 ^ exponent := by
  rw [value, negative_ofScaled, abs_ofScaled]
  cases negative with
  | false => rfl
  | true =>
      rcases eq_or_ne digits 0 with rfl | hne
      · simp
      · simp [hne]

/-- The sign is read. -/
lemma anySignAt_toChars (x : Number) : anySignAt x.toChars = (x.negative, x.absChars) := by
  obtain ⟨whole, fraction, exponent, hshape⟩ := x.exists_shape
  obtain ⟨c, chars, hchars, hc⟩ := hshape.head
  unfold toChars
  cases x.negative with
  | true => rfl
  | false => rw [if_neg nofun, hchars, anySignAt_digit hc]

/-- **A decimal is read back from its text.** -/
theorem readDecimal_toChars (x : Number) : readDecimal x.toChars = some x.value := by
  obtain ⟨whole, fraction, exponent, hshape⟩ := x.exists_shape
  have hnumeral : Numeral (whole ++ pointed fraction) (decimalValue whole fraction) := by
    unfold pointed
    split
    next hnil =>
      subst hnil
      rw [List.append_nil]
      exact .whole hshape.whole_digits hshape.whole_ne
    next => exact .pointed hshape.whole_digits hshape.fraction_digits fun h => hshape.whole_ne h.1
  have hexponent : ExponentPart (exponentText exponent) (exponent.getD 0) := by
    cases exponent with
    | none => exact .none
    | some e =>
        have hdigits := isDigit_toDigits e.natAbs
        have hread : Nat.ofDigitChars 10 (Nat.toDigits 10 e.natAbs) 0 = e.natAbs :=
          Nat.ofDigitChars_ten_toDigits
        by_cases hsign : 0 ≤ e
        · have hpart := ExponentPart.written (.inl rfl) Sign.plus hdigits Nat.toDigits_ne_nil
          rw [hread, if_neg Bool.false_ne_true, Int.natAbs_of_nonneg hsign] at hpart
          rw [exponentText, if_pos hsign]
          exact hpart
        · have hpart := ExponentPart.written (.inl rfl) Sign.minus hdigits Nat.toDigits_ne_nil
          rw [hread, if_pos rfl, Int.ofNat_natAbs_of_nonpos (by omega), neg_neg] at hpart
          rw [exponentText, if_neg hsign]
          exact hpart
  have habs : decimalValue whole fraction * 10 ^ exponent.getD 0 = x.abs := by
    conv_rhs => rw [← hshape.value, abs_ofScaled]
    rw [decimalValue, zpow_sub₀ (by norm_num), zpow_natCast]
    ring
  have hread : readUnsigned x.absChars = some x.abs := by
    rw [hshape.absChars, ← List.append_assoc, readUnsigned_literal hnumeral hexponent, habs]
  rw [readDecimal, anySignAt_toChars]
  dsimp only
  rw [hread]
  rfl

/-- The characters of a number. -/
lemma notMem_toChars (x : Number) {c : Char} (hdigit : c.isDigit = false)
    (hother : c ∉ ['-', '+', '.', 'e']) : c ∉ x.toChars := by
  obtain ⟨whole, fraction, exponent, hshape⟩ := x.exists_shape
  have hnot {digits : List Char} (h : ∀ c ∈ digits, c.isDigit) : c ∉ digits := by
    intro hc
    rw [h c hc] at hdigit
    cases hdigit
  have hpointed : c ∉ pointed fraction := by
    unfold pointed
    split
    · exact List.not_mem_nil
    · simp only [List.mem_cons, not_or] at hother ⊢
      exact ⟨hother.2.2.1, hnot hshape.fraction_digits⟩
  have hexponent : c ∉ exponentText exponent := by
    cases exponent with
    | none => exact List.not_mem_nil
    | some e =>
        have hdigits := hnot (isDigit_toDigits e.natAbs)
        simp only [exponentText, List.mem_cons, not_or] at hother ⊢
        refine ⟨hother.2.2.2.1, ?_, hdigits⟩
        split
        · exact hother.2.1
        · exact hother.1
  have habs : c ∉ x.absChars := by
    rw [hshape.absChars]
    simp only [List.mem_append, not_or]
    exact ⟨hnot hshape.whole_digits, hpointed, hexponent⟩
  unfold toChars
  split
  · rintro (_ | ⟨_, hmem⟩)
    · exact hother List.mem_cons_self
    · exact habs hmem
  · exact habs

end Number

/-! ### What is read as a double -/

/-- A number less than half a step away is rounded to the whole steps. -/
lemma nearest_of_near {c : ℚ} {m e : ℤ} (he : exponent c = e) (h : |c - m * 2 ^ e| < 2 ^ e / 2) :
    nearest c = m * 2 ^ e := by
  have hround : roundEven (c / 2 ^ e) = m := by
    refine roundEven_eq (.inl ?_)
    have hscaled : c / 2 ^ e - m = (c - m * 2 ^ e) / 2 ^ e := by
      rw [sub_div, mul_div_cancel_right₀ _ (two_zpow_pos e).ne']
    rw [hscaled, abs_div, abs_of_pos (two_zpow_pos e), div_lt_iff₀ (two_zpow_pos e)]
    linarith
  rw [nearest, he, hround]

lemma two_zpow_add (e : ℤ) (k : ℕ) : (2 : ℚ) ^ (e + k) = 2 ^ k * 2 ^ e := by
  rw [zpow_add₀ (by norm_num), zpow_natCast, mul_comm]

/-- A double is at least one step below the end of its binade. -/
lemma IsDouble.le_steps {x : ℚ} (hx : IsDouble x) (hpos : 0 < x) :
    x ≤ (2 ^ 53 - 1) * 2 ^ exponent x := by
  have hstep := two_zpow_pos (exponent x)
  obtain ⟨m, hm⟩ : ∃ m : ℤ, x = m * 2 ^ exponent x := ⟨_, hx.symm⟩
  have hlt := abs_lt_zpow_exponent x
  rw [abs_of_pos hpos] at hlt
  have hlt' : (m : ℚ) < 2 ^ 53 :=
    lt_of_mul_lt_mul_right (hm.symm.trans_lt (hlt.trans_eq (two_zpow_add _ 53))) hstep.le
  have hwhole : m < 2 ^ 53 := by exact_mod_cast hlt'
  have hm53 : (m : ℚ) ≤ 2 ^ 53 - 1 := by exact_mod_cast Int.le_sub_one_of_lt hwhole
  exact hm.trans_le (mul_le_mul_of_nonneg_right hm53 hstep.le)

/-- A number that is close to a double from below, where the steps are smaller: the double is the
first one of its binade. -/
lemma nearest_eq_of_exponent_lt {x c : ℚ} (hx : IsDouble x) (hpos : 0 < x)
    (h : |c - x| < x / 2 ^ 54) (hless : exponent c < exponent x) : nearest c = x := by
  obtain ⟨hlow, hhigh⟩ := abs_lt.mp h
  have hc : 0 < c := by linarith
  have hstep := two_zpow_pos (exponent x)
  obtain ⟨m, hm⟩ : ∃ m : ℤ, x = m * 2 ^ exponent x := ⟨_, hx.symm⟩
  have hbelow := hx.le_steps hpos
  have hx52 : 2 ^ 52 * 2 ^ exponent x ≤ x := by
    have hle := zpow_exponent_le hpos.ne' ((neg_le_exponent c).trans_lt hless)
    rw [abs_of_pos hpos] at hle
    exact (two_zpow_add _ 52).symm.trans_le hle
  have hc52 : c < 2 ^ 52 * 2 ^ exponent x := by
    have hlt := abs_lt_zpow_exponent c
    rw [abs_of_pos hc] at hlt
    calc c < 2 ^ (exponent c + 53) := hlt
      _ ≤ 2 ^ (exponent x + 52) := zpow_le_zpow_right₀ (by norm_num) (by omega)
      _ = 2 ^ 52 * 2 ^ exponent x := two_zpow_add _ 52
  have hpow : m = 2 ^ 52 := by
    have hge : (2 ^ 52 : ℚ) ≤ m := le_of_mul_le_mul_right (hx52.trans_eq hm) hstep
    have hlt : (m : ℚ) < 2 ^ 52 + 1 := by
      refine lt_of_mul_lt_mul_right (hm.symm.trans_lt ?_) hstep.le
      linarith
    exact le_antisymm (Int.lt_add_one_iff.mp (by exact_mod_cast hlt)) (by exact_mod_cast hge)
  have hhalf : (2 : ℚ) ^ (exponent x - 1) = 2 ^ exponent x / 2 := zpow_sub_one₀ (by norm_num) _
  have hmid : x = 2 ^ 52 * 2 ^ exponent x := by
    refine hm.trans ?_
    rw [hpow]
    push_cast
    rfl
  have hx' : x = (2 ^ 53 : ℤ) * 2 ^ (exponent x - 1) := by
    rw [hhalf]
    refine hmid.trans ?_
    push_cast
    ring
  have hexponent : exponent c = exponent x - 1 := by
    have hlog : exponent x + 51 ≤ Int.log 2 |c| := by
      rw [abs_of_pos hc]
      refine (Int.zpow_le_iff_le_log (by norm_num) hc).mp ?_
      refine (two_zpow_add _ 51).trans_le ?_
      linarith
    have hle : Int.log 2 |c| - 52 ≤ exponent c := le_max_right _ _
    omega
  refine (nearest_of_near hexponent ?_).trans hx'.symm
  rw [← hx', hhalf]
  linarith

/-- **What is close to a double is read as it.** -/
theorem nearest_eq_of_abs_sub_lt {x c : ℚ} (hx : IsDouble x) (hpos : 0 < x)
    (h : |c - x| < x / 2 ^ 54) : nearest c = x := by
  have hbelow := hx.le_steps hpos
  rcases lt_trichotomy (exponent c) (exponent x) with hless | hsame | hmore
  · exact nearest_eq_of_exponent_lt hx hpos h hless
  · obtain ⟨m, hm⟩ : ∃ m : ℤ, x = m * 2 ^ exponent x := ⟨_, hx.symm⟩
    refine (nearest_of_near hsame ?_).trans hm.symm
    rw [← hm]
    linarith
  · -- The number would be behind the end of the binade.
    obtain ⟨hlow, hhigh⟩ := abs_lt.mp h
    have hc : 0 < c := by linarith
    have hc53 : 2 ^ 53 * 2 ^ exponent x ≤ c := by
      have hle := zpow_exponent_le hc.ne' ((neg_le_exponent x).trans_lt hmore)
      rw [abs_of_pos hc] at hle
      calc 2 ^ 53 * 2 ^ exponent x = 2 ^ (exponent x + 53) := (two_zpow_add _ 53).symm
        _ ≤ 2 ^ (exponent c + 52) := zpow_le_zpow_right₀ (by norm_num) (by omega)
        _ ≤ c := hle
    linarith

/-! ### The shortest decimal -/

/-- The two decimals of so many digits around a positive number, the nearer one first; of two,
the one with the even last digit. -/
def candidates (x : ℚ) (length : ℕ) : List Number :=
  let exponent : ℤ := Int.log 10 x + 1 - length
  let scaled := x / 10 ^ exponent
  [roundEven scaled, 2 * ⌊scaled⌋ + 1 - roundEven scaled].map fun digits =>
    Number.ofScaled false digits.toNat exponent

/-- The shortest decimal that is read as a positive double. -/
def shortest (x : ℚ) : Number :=
  (((List.range 17).flatMap fun length => candidates x (length + 1)).find? fun n =>
    nearest n.abs = x).getD 0

lemma shortest_zero : shortest 0 = 0 := by decide +kernel

/-- **Seventeen digits are enough.** -/
theorem nearest_candidates {x : ℚ} (hx : IsDouble x) (hpos : 0 < x) :
    ∃ n ∈ candidates x 17, nearest n.abs = x := by
  refine ⟨_, List.mem_cons_self, ?_⟩
  have hpow := zpow_pos (by norm_num : (0 : ℚ) < 10) (Int.log 10 x + 1 - (17 : ℕ))
  have hround := abs_sub_roundEven_le (x / 10 ^ (Int.log 10 x + 1 - (17 : ℕ)))
  have hnonneg : 0 ≤ roundEven (x / 10 ^ (Int.log 10 x + 1 - (17 : ℕ))) :=
    le_roundEven (by rw [Int.cast_zero]; exact (div_pos hpos hpow).le)
  have hunit : (10 : ℚ) ^ (Int.log 10 x + 1 - (17 : ℕ)) ≤ x / 10 ^ 16 := by
    have hlog : (10 : ℚ) ^ Int.log 10 x ≤ x := Int.zpow_log_le_self (by norm_num) hpos
    have hsplit : (10 : ℚ) ^ (Int.log 10 x + 1 - (17 : ℕ)) = 10 ^ Int.log 10 x / 10 ^ 16 := by
      have hexponent : Int.log 10 x + 1 - (17 : ℕ) = Int.log 10 x - (16 : ℕ) := by push_cast; ring
      rw [hexponent, zpow_sub₀ (by norm_num), zpow_natCast]
    rw [hsplit]
    exact div_le_div_of_nonneg_right hlog (by norm_num)
  refine nearest_eq_of_abs_sub_lt hx hpos ?_
  rw [Number.abs_ofScaled]
  have hcast : ((roundEven (x / 10 ^ (Int.log 10 x + 1 - (17 : ℕ)))).toNat : ℚ) =
      roundEven (x / 10 ^ (Int.log 10 x + 1 - (17 : ℕ))) := by
    exact_mod_cast Int.toNat_of_nonneg hnonneg
  rw [hcast]
  generalize (10 : ℚ) ^ (Int.log 10 x + 1 - (17 : ℕ)) = unit at hpow hround hunit
  have hdist : (roundEven (x / unit) : ℚ) * unit - x =
      -((x / unit - roundEven (x / unit)) * unit) := by
    rw [sub_mul, div_mul_cancel₀ _ hpow.ne']
    ring
  rw [hdist, abs_neg, abs_mul, abs_of_pos hpow]
  calc |x / unit - roundEven (x / unit)| * unit ≤ 1 / 2 * unit :=
        mul_le_mul_of_nonneg_right hround hpow.le
    _ < x / 2 ^ 54 := by linarith

/-- **The shortest decimal is read as the double.** -/
theorem nearest_shortest {x : ℚ} (hx : IsDouble x) (hnonneg : 0 ≤ x) :
    nearest (shortest x).abs = x := by
  rcases hnonneg.eq_or_lt with rfl | hpos
  · rw [shortest_zero]
    decide +kernel
  rw [shortest]
  cases hfind : ((List.range 17).flatMap fun length => candidates x (length + 1)).find? fun n =>
      nearest n.abs = x with
  | some n =>
      have hread := List.find?_some hfind
      exact of_decide_eq_true hread
  | none =>
      obtain ⟨n, hn, hread⟩ := nearest_candidates hx hpos
      have hmem : n ∈ (List.range 17).flatMap fun length => candidates x (length + 1) :=
        List.mem_flatMap.mpr ⟨16, List.mem_range.mpr (by norm_num), hn⟩
      exact absurd (decide_eq_true hread) (List.find?_eq_none.mp hfind n hmem)

/-! ### The text -/

/-- The decimal that a double is written as. -/
def ofDouble (x : ℚ) : Number :=
  Number.ofScaled (x < 0) (shortest |x|).digits (shortest |x|).exponent

/-- `x.toString()`, where what is no double is rounded first. -/
def doubleText (x : ℚ) : String := (ofDouble (nearest x)).toString

/-- The number that a text stands for. -/
def textValue (text : String) : ℚ := (readDecimal text.toList).getD 0

lemma textValue_doubleText (x : ℚ) : textValue (doubleText x) = (ofDouble (nearest x)).value := by
  rw [textValue, doubleText, Number.toString, String.toList_ofList, Number.readDecimal_toChars]
  rfl

/-- **The double is read back from its text.** -/
theorem nearest_textValue (x : ℚ) : nearest (textValue (doubleText x)) = nearest x := by
  have hdouble : IsDouble |nearest x| := by
    rcases abs_choice (nearest x) with h | h
    · rw [h]
      exact isDouble_nearest x
    · rw [h, ← nearest_neg]
      exact isDouble_nearest (-x)
  have hshortest := nearest_shortest hdouble (abs_nonneg _)
  rw [textValue_doubleText, ofDouble, Number.value_ofScaled]
  change nearest (if decide (nearest x < 0) = true then -(shortest |nearest x|).abs
    else (shortest |nearest x|).abs) = nearest x
  split
  next hneg =>
    rw [nearest_neg, hshortest, abs_of_neg (of_decide_eq_true hneg), neg_neg]
  next hnonneg =>
    rw [hshortest, abs_of_nonneg (not_lt.mp fun h => hnonneg (decide_eq_true h))]

lemma nearest_of_doubleText {x y : ℚ} (h : doubleText x = doubleText y) :
    nearest x = nearest y := by
  rw [← nearest_textValue, h, nearest_textValue]

/-- **The texts of doubles keep their order.** -/
theorem textValue_mono {x y : ℚ} (h : nearest x ≤ nearest y) :
    textValue (doubleText x) ≤ textValue (doubleText y) := by
  rcases h.eq_or_lt with heq | hlt
  · rw [doubleText, doubleText, heq]
  · by_contra hbelow
    have hrounded := nearest_le_nearest (not_le.mp hbelow).le
    rw [nearest_textValue, nearest_textValue] at hrounded
    exact absurd hlt (not_lt.mpr hrounded)

/-- The characters of a text. -/
lemma notMem_doubleText (x : ℚ) {c : Char} (hdigit : c.isDigit = false)
    (hother : c ∉ ['-', '+', '.', 'e']) : c ∉ (doubleText x).toList := by
  rw [doubleText, Number.toString, String.toList_ofList]
  exact Number.notMem_toChars _ hdigit hother

example : doubleText (1 / 200) = "0.005" := by decide +kernel

end Js
