import Mathlib.Data.Int.Log
import Mathlib.Data.Nat.Cast.Field
import Mathlib.Data.Rat.Floor
import Blaize.Metrics.PrometheusFormatter

/-!
Exact numbers for the formatter: rational numbers, where the language has doubles.

* `exact`: the arithmetic, and the texts of finite decimals;
* `readNumber`: what a text stands for;
* `readNumber_decimalText`, `readNumber_fixedText`: **a number is read back from its text, up to
  the places that are written**.
-/

namespace Blaize.Metrics.Prometheus

/-- `digits` with a point before the last `places` of them. -/
def pointed (digits places : ℕ) : String :=
  if places = 0 then toString digits
  else
    let fraction := toString (digits % 10 ^ places)
    toString (digits / 10 ^ places) ++ "." ++
      String.ofList (List.replicate (places - fraction.length) '0') ++ fraction

def signed (x : ℚ) (text : String) : String := if x < 0 then "-" ++ text else text

/-- A decimal of at most twenty places; what is none is written as a fraction. -/
def decimalText (x : ℚ) : String :=
  match (List.range 21).find? fun places => 10 ^ places % x.den = 0 with
  | some places => signed x (pointed (x.num.natAbs * 10 ^ places / x.den) places)
  | none => signed x (toString x.num.natAbs ++ "/" ++ toString x.den)

/-- The nearest decimal with the places, the greater one of two. -/
def roundTo (x : ℚ) (places : ℕ) : ℕ := ⌊|x| * 10 ^ places + 1 / 2⌋₊

def fixedText (x : ℚ) (places : ℕ) : String := signed x (pointed (roundTo x places) places)

/-! ### Characters of the texts -/

lemma toList_toString (n : ℕ) : (toString n).toList = Nat.toDigits 10 n := by
  rw [Nat.toString_eq_repr, Nat.toList_repr]

lemma notMem_toDigits {c : Char} (hc : c.isDigit = false) (n : ℕ) : c ∉ Nat.toDigits 10 n := by
  intro h
  rw [Nat.isDigit_of_mem_toDigits (by decide) (by decide) h] at hc
  cases hc

/-- The digits after the point are as many as the places. -/
lemma length_fraction {digits places : ℕ} (h : places ≠ 0) :
    (Nat.toDigits 10 (digits % 10 ^ places)).length ≤ places :=
  (Nat.length_toDigits_le_iff (by decide) (Nat.pos_of_ne_zero h)).mpr
    (Nat.mod_lt _ (Nat.pow_pos (by decide)))

lemma toList_pointed {digits places : ℕ} (h : places ≠ 0) :
    (pointed digits places).toList =
      Nat.toDigits 10 (digits / 10 ^ places) ++ '.' ::
        (List.replicate (places - (Nat.toDigits 10 (digits % 10 ^ places)).length) '0' ++
          Nat.toDigits 10 (digits % 10 ^ places)) := by
  rw [pointed, if_neg h]
  simp only [String.toList_append, toList_toString, String.toList_ofList, ← String.length_toList]
  simp

lemma notMem_pointed {c : Char} (hdigit : c.isDigit = false) (hpoint : c ≠ '.')
    (digits places : ℕ) : c ∉ (pointed digits places).toList := by
  by_cases hplaces : places = 0
  · rw [pointed, if_pos hplaces, toList_toString]
    exact notMem_toDigits hdigit _
  · have hzero : c ≠ '0' := by
      rintro rfl
      cases hdigit
    rw [toList_pointed hplaces]
    simp [notMem_toDigits hdigit, hpoint, hzero]

lemma toList_fraction (num den : ℕ) : (toString num ++ "/" ++ toString den).toList =
    Nat.toDigits 10 num ++ '/' :: Nat.toDigits 10 den := by
  simp only [String.toList_append, toList_toString]
  simp

lemma notMem_fraction {c : Char} (hdigit : c.isDigit = false) (hslash : c ≠ '/') (num den : ℕ) :
    c ∉ (toString num ++ "/" ++ toString den).toList := by
  rw [toList_fraction]
  simp [notMem_toDigits hdigit, hslash]

lemma newline_notMem_signed (x : ℚ) {text : String} (h : '\n' ∉ text.toList) :
    '\n' ∉ (signed x text).toList := by
  rw [signed]
  split
  · simp [h]
  · exact h

/-! ### The numbers -/

/-- The arithmetic; the logarithm is only used rounded down. -/
def exact : Numbers ℚ where
  lit := id
  isZero x := x = 0
  le x y := x ≤ y
  mul := (· * ·)
  div := (· / ·)
  floor x := ⌊x⌋
  log10 x := Int.log 10 x
  pow10 x := 10 ^ ⌊x⌋
  toString := decimalText
  toFixed := fixedText
  toString_lit := by decide +kernel
  newline_toString x := by
    rw [decimalText]
    split
    · exact newline_notMem_signed x (notMem_pointed (by decide) (by decide) _ _)
    · exact newline_notMem_signed x (notMem_fraction (by decide) (by decide) _ _)
  newline_toFixed x places :=
    newline_notMem_signed x (notMem_pointed (by decide) (by decide) _ _)

/-! ### Reading a number -/

/-- A number without a sign: a fraction, a decimal or a whole number. -/
def readUnsigned (text : List Char) : ℚ :=
  match text.splitOn '/', text.splitOn '.' with
  | [num, den], _ => (Nat.ofDigitChars 10 num 0 : ℚ) / Nat.ofDigitChars 10 den 0
  | _, [whole, fraction] =>
      (Nat.ofDigitChars 10 (whole ++ fraction) 0 : ℚ) / 10 ^ fraction.length
  | _, _ => Nat.ofDigitChars 10 text 0

/-- The number that a text stands for. -/
def readNumber (text : String) : ℚ :=
  match text.toList with
  | '-' :: rest => -readUnsigned rest
  | unsigned => readUnsigned unsigned

/-- The digits around the point. -/
lemma digits_pointed {places : ℕ} (hplaces : places ≠ 0) (digits : ℕ) :
    (List.replicate (places - (Nat.toDigits 10 (digits % 10 ^ places)).length) '0' ++
        Nat.toDigits 10 (digits % 10 ^ places)).length = places ∧
      Nat.ofDigitChars 10 (Nat.toDigits 10 (digits / 10 ^ places) ++
        (List.replicate (places - (Nat.toDigits 10 (digits % 10 ^ places)).length) '0' ++
          Nat.toDigits 10 (digits % 10 ^ places))) 0 = digits := by
  have hlength : (List.replicate
      (places - (Nat.toDigits 10 (digits % 10 ^ places)).length) '0' ++
        Nat.toDigits 10 (digits % 10 ^ places)).length = places := by
    have hfits : (Nat.toDigits 10 (digits % 10 ^ places)).length ≤ places :=
      length_fraction hplaces
    rw [List.length_append, List.length_replicate]
    omega
  refine ⟨hlength, ?_⟩
  rw [Nat.ofDigitChars_append, Nat.ofDigitChars_ten_toDigits,
    Nat.ofDigitChars_eq_ofDigitChars_zero, hlength, Nat.ofDigitChars_append,
    Nat.ofDigitChars_replicate_zero, Nat.mul_zero, Nat.ofDigitChars_ten_toDigits]
  exact Nat.div_add_mod digits (10 ^ places)

/-- **What is written with a point is read back.** -/
lemma readUnsigned_pointed (digits places : ℕ) :
    readUnsigned (pointed digits places).toList = digits / 10 ^ places := by
  have hslash := List.splitOn_eq_singleton
    (notMem_pointed (c := '/') (by decide) (by decide) digits places)
  by_cases hplaces : places = 0
  · have hpoint : '.' ∉ (pointed digits places).toList := by
      rw [pointed, if_pos hplaces, toList_toString]
      exact notMem_toDigits (by decide) _
    rw [readUnsigned, hslash, List.splitOn_eq_singleton hpoint]
    simp [pointed, hplaces]
  · have hpoint := List.splitOn_append_cons_self_of_not_mem
      (notMem_toDigits (c := '.') (by decide) (digits / 10 ^ places))
    have hfraction : '.' ∉ List.replicate
        (places - (Nat.toDigits 10 (digits % 10 ^ places)).length) '0' ++
          Nat.toDigits 10 (digits % 10 ^ places) := by
      simp [notMem_toDigits (c := '.') (by decide)]
    obtain ⟨hlength, hvalue⟩ := digits_pointed hplaces digits
    rw [readUnsigned, hslash, toList_pointed hplaces, hpoint, List.splitOn_eq_singleton hfraction]
    dsimp only
    rw [hvalue, hlength]

/-- A fraction is read back. -/
lemma readUnsigned_fraction (num den : ℕ) :
    readUnsigned (toString num ++ "/" ++ toString den).toList = num / den := by
  have hsplit : (toString num ++ "/" ++ toString den).toList.splitOn '/' =
      [Nat.toDigits 10 num, Nat.toDigits 10 den] := by
    rw [toList_fraction, List.splitOn_append_cons_self_of_not_mem (notMem_toDigits (by decide) num),
      List.splitOn_eq_singleton (notMem_toDigits (by decide) den)]
  rw [readUnsigned, hsplit]
  simp

lemma readNumber_of_unsigned {text : String} (h : '-' ∉ text.toList) :
    readNumber text = readUnsigned text.toList := by
  rw [readNumber]
  split
  next heq => exact absurd (heq ▸ List.mem_cons_self) h
  next => rfl

/-- A sign is read back. -/
lemma readNumber_signed (x : ℚ) {text : String} (h : '-' ∉ text.toList) :
    readNumber (signed x text) =
      if x < 0 then -readUnsigned text.toList else readUnsigned text.toList := by
  rw [signed]
  split
  · have hlist : ("-" ++ text).toList = '-' :: text.toList := by simp
    rw [readNumber, hlist]
    rfl
  · exact readNumber_of_unsigned h

/-- **A number is read back from its text.** -/
theorem readNumber_decimalText (x : ℚ) : readNumber (decimalText x) = x := by
  have habs : (if x < 0 then -|x| else |x|) = x := by
    split
    next h => rw [abs_of_neg h, neg_neg]
    next h => rw [abs_of_nonneg (not_lt.mp h)]
  have hnum : (x.num.natAbs : ℚ) / x.den = |x| := by
    conv_rhs => rw [← Rat.num_div_den x]
    rw [abs_div, Nat.abs_cast, Nat.cast_natAbs, Int.cast_abs]
  rw [decimalText]
  split
  next places hfind =>
    have hdvd : x.den ∣ 10 ^ places :=
      Nat.dvd_of_mod_eq_zero (by simpa using List.find?_some hfind)
    rw [readNumber_signed x (notMem_pointed (by decide) (by decide) _ _), readUnsigned_pointed]
    have hplaces : ((x.num.natAbs * 10 ^ places / x.den : ℕ) : ℚ) / 10 ^ places = |x| := by
      rw [Nat.cast_div (hdvd.mul_left _) (by exact_mod_cast x.den_nz), ← hnum]
      push_cast
      field_simp
    rw [hplaces, habs]
  next =>
    rw [readNumber_signed x (notMem_fraction (by decide) (by decide) _ _), readUnsigned_fraction,
      hnum, habs]

/-- **What is written with fixed places is read as the nearest number with them.** -/
theorem readNumber_fixedText (x : ℚ) (places : ℕ) :
    readNumber (fixedText x places) =
      if x < 0 then -((roundTo x places : ℚ) / 10 ^ places)
      else (roundTo x places : ℚ) / 10 ^ places := by
  rw [fixedText, readNumber_signed x (notMem_pointed (by decide) (by decide) _ _),
    readUnsigned_pointed]

/-- Rounding keeps the order. -/
lemma readNumber_fixedText_mono {x y : ℚ} (h : x ≤ y) (places : ℕ) :
    readNumber (fixedText x places) ≤ readNumber (fixedText y places) := by
  have hround {a b : ℚ} (hab : |a| ≤ |b|) :
      (roundTo a places : ℚ) / 10 ^ places ≤ (roundTo b places : ℚ) / 10 ^ places := by
    have hfloor : roundTo a places ≤ roundTo b places := Nat.floor_le_floor (by gcongr)
    gcongr
  have hnonneg (a : ℚ) : 0 ≤ (roundTo a places : ℚ) / 10 ^ places := by positivity
  rw [readNumber_fixedText, readNumber_fixedText]
  split
  next hx =>
    split
    next hy => exact neg_le_neg (hround (by rw [abs_of_neg hx, abs_of_neg hy]; exact neg_le_neg h))
    next => linarith [hnonneg x, hnonneg y]
  next hx =>
    have hx := not_lt.mp hx
    rw [if_neg (not_lt.mpr (hx.trans h))]
    exact hround (by rwa [abs_of_nonneg hx, abs_of_nonneg (hx.trans h)])

end Blaize.Metrics.Prometheus
