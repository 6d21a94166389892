import Blaize.Lib.DoubleText
import Blaize.Metrics.Exact

/-!
The doubles as the numbers of the formatter.

Results are rounded to the nearest double.  Numbers that are too large for a double stay what they
are, where the language has `Infinity`.

* `MathFunctions`: the logarithm and the powers, which the language leaves to the implementation;
* `toFixed`, `doubles`: the texts and the arithmetic;
* `textValue_toFixed_mono`: **what is written with fixed places keeps the order**.
-/

namespace Blaize.Metrics.Prometheus

open Js

/-! ### The functions of `Math` -/

/-- `Math.log10(x)` and `Math.pow(10, x)`, which are "implementation-approximated". -/
structure MathFunctions where
  log10 : ℚ → ℚ
  pow10 : ℚ → ℚ

/-- `Math.floor(Math.log10(x))` -/
def MathFunctions.order (math : MathFunctions) (x : ℚ) : ℤ := ⌊math.log10 x⌋

/-- How near they come: the whole part of the logarithm of a double is at most one off, and a
power within the range of the doubles is at most a thousandth off. -/
structure MathFunctions.Sound (math : MathFunctions) : Prop where
  order : ∀ x, 0 < x → x ≤ greatest → |math.order x - Int.log 10 x| ≤ 1 ∧ math.order x ≤ 308
  pow10 : ∀ k : ℤ, -302 ≤ k → k ≤ 308 → |math.pow10 k - 10 ^ k| ≤ 10 ^ k / 1000
  nonneg : ∀ x, 0 ≤ math.pow10 x

/-- Functions without an error. -/
def exactMath : MathFunctions where
  log10 x := Int.log 10 x
  pow10 x := 10 ^ ⌊x⌋

lemma sound_exactMath : exactMath.Sound where
  order x hpos hfinite := by
    have horder : exactMath.order x = Int.log 10 x := Int.floor_intCast _
    have hgreatest : greatest < 10 ^ (309 : ℤ) := by decide +kernel
    have hlog : Int.log 10 x < 309 :=
      (Int.lt_zpow_iff_log_lt (by norm_num) hpos).mp
        (by exact_mod_cast hfinite.trans_lt hgreatest)
    rw [horder, sub_self]
    exact ⟨by decide, by omega⟩
  pow10 k _ _ := by
    have hpow : exactMath.pow10 k = 10 ^ k := congrArg (10 ^ ·) (Int.floor_intCast k)
    rw [hpow, sub_self, abs_zero]
    exact div_nonneg (zpow_nonneg (by norm_num) k) (by norm_num)
  nonneg x := zpow_nonneg (by norm_num) _

/-! ### The numbers -/

/-- `x.toFixed(digits)` -/
def toFixed (x : ℚ) (digits : ℕ) : String :=
  if 10 ^ 21 ≤ |x| then doubleText x else fixedText x digits

/-- The bounds of the source have their texts. -/
lemma doubleText_literals : ∀ l ∈ literals, doubleText (nearest l.1) = l.2 := by decide +kernel

/-- The arithmetic of the doubles. -/
def doubles (math : MathFunctions) : Numbers ℚ where
  lit := nearest
  isZero x := x = 0
  le x y := x ≤ y
  mul x y := nearest (x * y)
  div x y := nearest (x / y)
  floor x := ⌊x⌋
  log10 := math.log10
  pow10 := math.pow10
  toString := doubleText
  toFixed := toFixed
  toString_lit := doubleText_literals
  newline_toString x := notMem_doubleText x (by decide) (by decide)
  newline_toFixed x digits := by
    rw [toFixed]
    split
    · exact notMem_doubleText x (by decide) (by decide)
    · exact newline_notMem_signed x (notMem_pointed (by decide) (by decide) _ _)

/-- The multipliers are what `i *= 2.5` makes of 0.1. -/
example : multipliers.map nearest =
    List.iterate (fun i => nearest (i * (5 / 2))) (nearest (1 / 10)) 6 := by
  decide +kernel

/-! ### Fixed places -/

/-- The value that is written with fixed places. -/
def fixedValue (x : ℚ) (places : ℕ) : ℚ :=
  if x < 0 then -((roundTo x places : ℚ) / 10 ^ places) else (roundTo x places : ℚ) / 10 ^ places

/-- What is written with a point is a numeral. -/
lemma numeral_pointed (digits places : ℕ) :
    Numeral (pointed digits places).toList (digits / 10 ^ places) := by
  by_cases hplaces : places = 0
  · have hnumeral := Numeral.whole (isDigit_toDigits digits) Nat.toDigits_ne_nil
    rw [decimalValue, List.append_nil, Nat.ofDigitChars_ten_toDigits, List.length_nil] at hnumeral
    rw [pointed, if_pos hplaces, toList_toString, hplaces]
    exact hnumeral
  · obtain ⟨hlength, hvalue⟩ := digits_pointed hplaces digits
    have hfraction : ∀ c ∈ List.replicate
        (places - (Nat.toDigits 10 (digits % 10 ^ places)).length) '0' ++
          Nat.toDigits 10 (digits % 10 ^ places), c.isDigit := by
      intro c hc
      rcases List.mem_append.mp hc with hc | hc
      · exact (List.eq_of_mem_replicate hc).symm ▸ rfl
      · exact isDigit_toDigits _ c hc
    have hnumeral := Numeral.pointed (isDigit_toDigits (digits / 10 ^ places)) hfraction
      fun h => Nat.toDigits_ne_nil h.1
    rw [decimalValue, hvalue, hlength] at hnumeral
    rw [toList_pointed hplaces]
    exact hnumeral

/-- **What is written with fixed places is read as the nearest number with them.** -/
lemma textValue_fixedText (x : ℚ) (places : ℕ) :
    textValue (fixedText x places) = fixedValue x places := by
  have hnumeral := numeral_pointed (roundTo x places) places
  have hread : Js.readUnsigned (pointed (roundTo x places) places).toList =
      some ((roundTo x places : ℚ) / 10 ^ places) := by
    have hliteral := readUnsigned_literal hnumeral .none
    rwa [List.append_nil, zpow_zero, mul_one] at hliteral
  rw [textValue, fixedText, signed, fixedValue]
  split
  next =>
    have hlist : ("-" ++ pointed (roundTo x places) places).toList =
        '-' :: (pointed (roundTo x places) places).toList := by simp
    have hsign := anySignAt_sign Sign.minus (hnumeral.head_ne_sign [])
    rw [List.append_nil, List.singleton_append] at hsign
    rw [hlist, readDecimal, hsign]
    dsimp only
    rw [hread]
    rfl
  next =>
    have hsign := anySignAt_sign Sign.none (hnumeral.head_ne_sign [])
    rw [List.nil_append, List.append_nil] at hsign
    rw [readDecimal, hsign]
    dsimp only
    rw [hread]
    rfl

lemma fixedValue_mono {x y : ℚ} (h : x ≤ y) (places : ℕ) :
    fixedValue x places ≤ fixedValue y places := by
  have hread := readNumber_fixedText_mono h places
  rwa [readNumber_fixedText, readNumber_fixedText] at hread

/-- At the bound from which on there are no fixed places, both texts are of one number. -/
lemma fixedValue_bound (places : ℕ) :
    fixedValue (10 ^ 21) places = 10 ^ 21 ∧ fixedValue (-10 ^ 21) places = -10 ^ 21 := by
  have hround {x : ℚ} (h : |x| = 10 ^ 21) : (roundTo x places : ℚ) / 10 ^ places = 10 ^ 21 := by
    have hfloor : roundTo x places = 10 ^ 21 * 10 ^ places := by
      rw [roundTo, h, Nat.floor_eq_iff (by positivity)]
      push_cast
      constructor <;> linarith
    rw [hfloor]
    push_cast
    exact mul_div_cancel_right₀ _ (pow_ne_zero _ (by norm_num))
  have habs : |(10 ^ 21 : ℚ)| = 10 ^ 21 := abs_of_pos (by norm_num)
  constructor
  · rw [fixedValue, if_neg (by norm_num), hround habs]
  · rw [fixedValue, if_pos (by norm_num), hround (by rw [abs_neg, habs])]

/-- **The numbers that are written with fixed places keep their order.** -/
theorem textValue_toFixed_mono {x y : ℚ} (h : x ≤ y) (digits : ℕ) :
    textValue (toFixed x digits) ≤ textValue (toFixed y digits) := by
  have hdouble {x y : ℚ} (h : x ≤ y) : textValue (doubleText x) ≤ textValue (doubleText y) :=
    textValue_mono (nearest_le_nearest h)
  have hbound : textValue (doubleText (10 ^ 21)) = 10 ^ 21 ∧
      textValue (doubleText (-10 ^ 21)) = -10 ^ 21 := by decide +kernel
  obtain ⟨hfixed, hfixed'⟩ := fixedValue_bound digits
  rw [toFixed, toFixed]
  split
  next hx =>
    split
    next => exact hdouble h
    next hy =>
      -- The first number is below the lower bound.
      have hyabove := (abs_lt.mp (not_le.mp hy)).2
      have hxbelow : x ≤ -10 ^ 21 := by
        rcases le_abs.mp hx with hpos | hneg
        · exact absurd (hpos.trans h) (not_le.mpr hyabove)
        · exact le_neg_of_le_neg hneg
      have hylow : -10 ^ 21 ≤ y := (abs_lt.mp (not_le.mp hy)).1.le
      rw [textValue_fixedText]
      calc textValue (doubleText x) ≤ textValue (doubleText (-10 ^ 21)) := hdouble hxbelow
        _ = fixedValue (-10 ^ 21) digits := by rw [hbound.2, hfixed']
        _ ≤ fixedValue y digits := fixedValue_mono hylow digits
  next hx =>
    split
    next hy =>
      have hxbelow := (abs_lt.mp (not_le.mp hx)).1
      have hyabove : 10 ^ 21 ≤ y := by
        rcases le_abs.mp hy with hpos | hneg
        · exact hpos
        · exact absurd (h.trans (le_neg_of_le_neg hneg)) (not_le.mpr hxbelow)
      have hxhigh : x ≤ 10 ^ 21 := (abs_lt.mp (not_le.mp hx)).2.le
      rw [textValue_fixedText]
      calc fixedValue x digits ≤ fixedValue (10 ^ 21) digits := fixedValue_mono hxhigh digits
        _ = textValue (doubleText (10 ^ 21)) := by rw [hbound.1, hfixed]
        _ ≤ textValue (doubleText y) := hdouble hyabove
    next =>
      rw [textValue_fixedText, textValue_fixedText]
      exact fixedValue_mono h digits

end Blaize.Metrics.Prometheus
