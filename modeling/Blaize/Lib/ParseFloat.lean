import Mathlib.Data.List.TakeWhile
import Blaize.Lib.Double
import Blaize.Lib.Number

/-!
`parseFloat` of ECMAScript, over the rational numbers.

* `Double`: what a text or a product can come to, and `Math.round`;
* `readDecimal`, `parseFloat`: the decimal at the start of a text, and its nearest double;
* `Rounding`: what is used of the rounding, with exact arithmetic (`id`) as another one;
* `parseFloat_dotted`: of digits and points it reads what stands in front of the second point;
* `numeral_iff`: **so all of a text is read exactly if it has at most one point**;
* `DecimalLiteral`, `startsWith_iff`: **what is read is the longest literal of the grammar that the
  text starts with**.
-/

namespace Js

/-- A number, or what is none; the finite ones are the values of doubles. -/
inductive Double where
  | nan
  | infinity (negative : Bool)
  | finite (value : ℚ)
  deriving DecidableEq

/-- Half a step above the greatest double. -/
def overflow : ℚ := 2 ^ 1024 - 2 ^ 970

/-- The rounded number, unless it is too large. -/
def Double.ofRat (round : ℚ → ℚ) (value : ℚ) : Double :=
  if overflow ≤ |value| then .infinity (value < 0) else .finite (round value)

/-- `Math.round(x)` -/
def Double.round : Double → Double
  | .finite value => .finite ⌊value + 1 / 2⌋
  | x => x

/-- The product of a finite number and another. -/
def Double.scale (round : ℚ → ℚ) (value : ℚ) : Double → Double
  | .finite factor => .ofRat round (value * factor)
  | .infinity negative => if value = 0 then .nan else .infinity (negative ^^ decide (value < 0))
  | .nan => .nan

/-- The digits in front of a point and those behind it, with what follows. -/
def decimalAt (text : List Char) : List Char × List Char × List Char :=
  let whole := text.takeWhile Char.isDigit
  match text.dropWhile Char.isDigit with
  | '.' :: rest => (whole, rest.takeWhile Char.isDigit, rest.dropWhile Char.isDigit)
  | rest => (whole, [], rest)

/-- The value of digits in front of a point and behind it. -/
def decimalValue (whole fraction : List Char) : ℚ :=
  Nat.ofDigitChars 10 (whole ++ fraction) 0 / 10 ^ fraction.length

/-- The decimal that a text starts with, without a sign. -/
def readUnsigned (text : List Char) : Option ℚ :=
  let (whole, fraction, rest) := decimalAt text
  if whole = [] ∧ fraction = [] then none
  else
    let exponent : ℤ := ((exponentAt rest).map Prod.fst).getD 0
    some (decimalValue whole fraction * 10 ^ exponent)

/-- The decimal that a text starts with. -/
def readDecimal (text : List Char) : Option ℚ :=
  let (negative, text) := anySignAt text
  (readUnsigned text).map fun value => if negative then -value else value

/-- `parseFloat`, with any rounding. -/
def parseFloatWith (round : ℚ → ℚ) (text : List Char) : Double :=
  let text := text.dropWhile isWhiteSpace
  let (negative, unsigned) := anySignAt text
  if "Infinity".toList.isPrefixOf unsigned then .infinity negative
  else (readDecimal text).elim .nan (.ofRat round)

/-- `parseFloat(text)` -/
def parseFloat (text : List Char) : Double := parseFloatWith nearest text

variable {round : ℚ → ℚ}

lemma ofRat_of_lt {value : ℚ} (h : |value| < overflow) :
    Double.ofRat round value = .finite (round value) :=
  if_neg (not_le.mpr h)

lemma ofRat_of_le {value : ℚ} (h : overflow ≤ |value|) :
    Double.ofRat round value = .infinity (value < 0) := if_pos h

lemma ofRat_eq_finite_iff {x value : ℚ} :
    Double.ofRat round x = .finite value ↔ round x = value ∧ |x| < overflow := by
  rcases lt_or_ge |x| overflow with hx | hx
  · rw [ofRat_of_lt hx, Double.finite.injEq]
    exact ⟨fun h => ⟨h, hx⟩, And.left⟩
  · rw [ofRat_of_le hx]
    constructor
    · intro hinfinity
      cases hinfinity
    · rintro ⟨-, hlt⟩
      exact absurd hlt (not_lt.mpr hx)

/-- The greatest double. -/
def greatest : ℚ := (2 ^ 53 - 1) * 2 ^ 971

/-- **A number rounds to one that is too large exactly if it is too large itself.** -/
lemma overflow_le_nearest_iff {x : ℚ} (h : 0 ≤ x) : overflow ≤ nearest x ↔ overflow ≤ x := by
  constructor
  · intro hle
    by_contra hlt
    have hbelow : nearest x ≤ greatest := by
      rcases le_or_gt x greatest with hx | hx
      · have hgreatest : nearest greatest = greatest := by decide +kernel
        exact (nearest_mono h hx).trans_eq hgreatest
      · -- Between the greatest double and the bound the former is the nearest.
        have hx' : x < overflow := not_le.mp hlt
        have hexponent : exponent x = 971 := by
          have hlow : exponent greatest = 971 := by decide +kernel
          have hhigh : exponent overflow = 971 := by decide +kernel
          have hpos : 0 < greatest := by decide +kernel
          exact le_antisymm (hhigh ▸ exponent_mono (hpos.trans hx) hx'.le)
            (hlow ▸ exponent_mono hpos hx.le)
        have hround : roundEven (x / 2 ^ (971 : ℤ)) = 2 ^ 53 - 1 := by
          have hbelow : (2 ^ 53 - 1 : ℚ) < x / 2 ^ (971 : ℤ) :=
            (lt_div_iff₀ (two_zpow_pos _)).mpr hx
          have habove : x / 2 ^ (971 : ℤ) < 2 ^ 53 - 1 / 2 := by
            rw [div_lt_iff₀ (two_zpow_pos _)]
            exact hx'.trans_eq (by decide +kernel)
          refine roundEven_eq (.inl ?_)
          generalize x / 2 ^ (971 : ℤ) = y at hbelow habove
          push_cast
          rw [abs_lt]
          constructor <;> linarith
        rw [nearest, hexponent, hround]
        exact (by decide +kernel : ((2 ^ 53 - 1 : ℤ) : ℚ) * 2 ^ (971 : ℤ) ≤ greatest)
    exact absurd hle (not_le.mpr (hbelow.trans_lt (by decide +kernel)))
  · intro hle
    calc overflow ≤ nearest overflow := by decide +kernel
      _ ≤ nearest x := nearest_mono (by decide +kernel) hle

/-- What is used of a rounding. -/
structure Rounding (round : ℚ → ℚ) : Prop where
  nonneg : ∀ x, 0 ≤ x → 0 ≤ round x
  neg : ∀ x, round (-x) = -round x
  mul_pow : ∀ x (k : ℕ), round (round x * 2 ^ k) = round x * 2 ^ k
  overflow_le_iff : ∀ x, 0 ≤ x → (overflow ≤ round x ↔ overflow ≤ x)

lemma rounding_nearest : Rounding nearest where
  nonneg _ := nearest_nonneg
  neg := nearest_neg
  mul_pow := nearest_mul_pow
  overflow_le_iff _ := overflow_le_nearest_iff

/-- Exact arithmetic. -/
lemma rounding_id : Rounding id where
  nonneg _ h := h
  neg _ := rfl
  mul_pow _ _ := rfl
  overflow_le_iff _ _ := Iff.rfl

lemma Rounding.abs_lt_overflow (hround : Rounding round) {x : ℚ} (h : |x| < overflow) :
    |round x| < overflow := by
  have habs : |round x| = round |x| := by
    rcases le_total 0 x with hx | hx
    · rw [abs_of_nonneg hx, abs_of_nonneg (hround.nonneg x hx)]
    · have hneg := hround.nonneg (-x) (neg_nonneg.mpr hx)
      rw [abs_of_nonpos hx, hround.neg, abs_of_nonpos]
      rwa [hround.neg, neg_nonneg] at hneg
  rw [habs]
  exact not_le.mp fun hle =>
    absurd h (not_lt.mpr ((hround.overflow_le_iff _ (abs_nonneg x)).mp hle))

/-- No decimal starts with `Infinity`. -/
lemma readDecimal_infinity {text : List Char}
    (h : "Infinity".toList.isPrefixOf (anySignAt text).2) : readDecimal text = none := by
  obtain ⟨rest, hrest⟩ := List.isPrefixOf_iff_prefix.mp h
  rw [readDecimal]
  dsimp only
  rw [← hrest]
  rfl

/-- What is read is rounded. -/
lemma exists_of_parseFloat {text : List Char} {value : ℚ}
    (h : parseFloatWith round text = .finite value) : ∃ x, round x = value ∧ |x| < overflow := by
  rw [parseFloatWith] at h
  dsimp only at h
  split at h
  next => cases h
  cases hread : readDecimal (text.dropWhile isWhiteSpace) with
  | none =>
      rw [hread] at h
      cases h
  | some x =>
      rw [hread] at h
      exact ⟨x, ofRat_eq_finite_iff.mp h⟩

/-! ### Digits and points -/

/-- Digits and points only. -/
def IsDotted (text : List Char) : Prop := ∀ c ∈ text, c.isDigit ∨ c = '.'

/-- The number that digits and points start with. -/
def leading (text : List Char) : Option ℚ :=
  let (whole, fraction, _) := decimalAt text
  if whole = [] ∧ fraction = [] then none else some (decimalValue whole fraction)

lemma IsDotted.of_suffix {text rest : List Char} (h : IsDotted text) (hsuffix : rest <:+ text) :
    IsDotted rest := fun c hc => h c (hsuffix.subset hc)

lemma IsDotted.ne {text : List Char} (h : IsDotted text) {c : Char} (hc : c ∈ text) :
    c ≠ '-' ∧ c ≠ '+' ∧ c ≠ 'I' ∧ c ≠ 'e' ∧ c ≠ 'E' ∧ isWhiteSpace c = false := by
  have hdotted : c.isDigit ∨ c = '.' := h c hc
  rcases hdotted with hdigit | rfl
  · have hne {d : Char} (hd : d.isDigit = false) : c ≠ d := by
      rintro rfl
      rw [hdigit] at hd
      cases hd
    exact ⟨hne rfl, hne rfl, hne rfl, hne rfl, hne rfl,
      Number.isWhiteSpace_of_isDigit hdigit⟩
  · decide

lemma decimalAt_suffix (text : List Char) : (decimalAt text).2.2 <:+ text := by
  unfold decimalAt
  dsimp only
  split
  next rest hrest =>
    exact (List.dropWhile_suffix _).trans
      ((List.suffix_cons '.' rest).trans (hrest ▸ List.dropWhile_suffix _))
  next => exact List.dropWhile_suffix _

/-- No exponent follows. -/
lemma exponentAt_dotted {text : List Char} (h : IsDotted text) :
    ((exponentAt text).map Prod.fst).getD 0 = 0 := by
  cases text with
  | nil => rfl
  | cons c text =>
      obtain ⟨-, -, -, he, hE, -⟩ := h.ne List.mem_cons_self
      rw [exponentAt, if_neg (not_or_intro he hE)]
      rfl

lemma readUnsigned_dotted {text : List Char} (h : IsDotted text) :
    readUnsigned text = leading text := by
  rw [readUnsigned, leading]
  dsimp only
  rw [exponentAt_dotted (h.of_suffix (decimalAt_suffix text)), zpow_zero, mul_one]

/-- The number behind a sign. -/
lemma parseFloat_of_sign {text digits : List Char} {negative : Bool}
    (hsign : anySignAt (text.dropWhile isWhiteSpace) = (negative, digits)) (h : IsDotted digits) :
    parseFloatWith round text =
      (leading digits).elim .nan fun value =>
        .ofRat round (if negative then -value else value) := by
  have hinfinity : "Infinity".toList.isPrefixOf digits = false := by
    cases digits with
    | nil => rfl
    | cons c digits =>
        have hc := (h.ne List.mem_cons_self).2.2.1
        simp [List.isPrefixOf, hc.symm]
  rw [parseFloatWith, readDecimal]
  dsimp only
  rw [hsign]
  dsimp only
  rw [hinfinity, if_neg Bool.false_ne_true, readUnsigned_dotted h]
  cases leading digits <;> rfl

/-- **`parseFloat` reads digits and points up to the second point.** -/
lemma parseFloat_dotted {text : List Char} (h : IsDotted text) :
    parseFloatWith round text = (leading text).elim .nan (.ofRat round) := by
  have hstart : anySignAt (text.dropWhile isWhiteSpace) = (false, text) := by
    cases text with
    | nil => rfl
    | cons c text =>
        obtain ⟨hminus, hplus, -, -, -, hblank⟩ := h.ne List.mem_cons_self
        rw [List.dropWhile_cons_of_neg (by rw [hblank]; decide)]
        unfold anySignAt
        split
        next heq => exact absurd (List.cons.inj heq).1 hminus
        next heq => exact absurd (List.cons.inj heq).1 hplus
        next => rfl
  rw [parseFloat_of_sign hstart h]
  simp only [Bool.false_eq_true, if_false]

lemma parseFloat_neg_dotted {text : List Char} (h : IsDotted text) :
    parseFloatWith round ('-' :: text) =
      (leading text).elim .nan fun value => .ofRat round (-value) := by
  have hsign : anySignAt (('-' :: text).dropWhile isWhiteSpace) = (true, text) := by
    rw [List.dropWhile_cons_of_neg (by decide)]
    rfl
  rw [parseFloat_of_sign hsign h]
  simp only [if_true]

lemma leading_of_parseFloat {text : List Char} {value : ℚ} (h : IsDotted text)
    (hvalue : parseFloatWith round text = .finite value) :
    ∃ x, leading text = some x ∧ round x = value ∧ |x| < overflow := by
  rw [parseFloat_dotted h] at hvalue
  cases hread : leading text with
  | none =>
      rw [hread] at hvalue
      cases hvalue
  | some x =>
      rw [hread, Option.elim_some, ofRat_eq_finite_iff] at hvalue
      exact ⟨x, rfl, hvalue⟩

lemma leading_of_parseFloat_neg (hround : Rounding round) {text : List Char} {value : ℚ}
    (h : IsDotted text) (hvalue : parseFloatWith round ('-' :: text) = .finite value) :
    ∃ x, leading text = some x ∧ round x = -value ∧ |x| < overflow := by
  rw [parseFloat_neg_dotted h] at hvalue
  cases hread : leading text with
  | none =>
      rw [hread] at hvalue
      cases hvalue
  | some x =>
      rw [hread, Option.elim_some, ofRat_eq_finite_iff, hround.neg, abs_neg] at hvalue
      exact ⟨x, rfl, by rw [← hvalue.1, neg_neg], hvalue.2⟩

/-! ### Numerals -/

/-- A decimal and its value: digits with one point at most, and one digit at least. -/
inductive Numeral : List Char → ℚ → Prop
  | whole {digits : List Char} (hdigits : ∀ c ∈ digits, c.isDigit) (hne : digits ≠ []) :
      Numeral digits (decimalValue digits [])
  | pointed {whole fraction : List Char} (hwhole : ∀ c ∈ whole, c.isDigit)
      (hfraction : ∀ c ∈ fraction, c.isDigit) (hne : ¬ (whole = [] ∧ fraction = [])) :
      Numeral (whole ++ '.' :: fraction) (decimalValue whole fraction)

variable {text : List Char} {value : ℚ}

lemma decimalValue_nonneg (whole fraction : List Char) : 0 ≤ decimalValue whole fraction :=
  div_nonneg (Nat.cast_nonneg _) (pow_nonneg (by decide) _)

lemma leading_nonneg (h : leading text = some value) : 0 ≤ value := by
  rw [leading] at h
  dsimp only at h
  split at h
  next => cases h
  next => exact Option.some.inj h ▸ decimalValue_nonneg _ _

lemma Numeral.nonneg (h : Numeral text value) : 0 ≤ value := by
  cases h with
  | whole => exact decimalValue_nonneg _ _
  | pointed => exact decimalValue_nonneg _ _

lemma Numeral.ne_nil (h : Numeral text value) : text ≠ [] := by
  cases h with
  | whole _ hne => exact hne
  | pointed => simp

lemma Numeral.isDotted (h : Numeral text value) : IsDotted text := by
  cases h with
  | whole hdigits => exact fun c hc => .inl (hdigits c hc)
  | pointed hwhole hfraction =>
      intro c hc
      rcases List.mem_append.mp hc with hc | hc
      · exact .inl (hwhole c hc)
      · rcases List.mem_cons.mp hc with rfl | hc
        · exact .inr rfl
        · exact .inl (hfraction c hc)

lemma point_notMem {digits : List Char} (h : ∀ c ∈ digits, c.isDigit) : '.' ∉ digits :=
  fun hmem => absurd (h '.' hmem) (by decide)

lemma leading_digits {digits : List Char} (h : ∀ c ∈ digits, c.isDigit) :
    leading digits = if digits = [] then none else some (decimalValue digits []) := by
  obtain ⟨htake, hdrop⟩ := @span_digits digits [] h nofun
  rw [List.append_nil] at htake hdrop
  rw [leading, decimalAt, htake, hdrop]
  exact if_congr (and_iff_left rfl) rfl rfl

lemma leading_pointed {whole rest : List Char} (h : ∀ c ∈ whole, c.isDigit) :
    leading (whole ++ '.' :: rest) =
      if whole = [] ∧ rest.takeWhile Char.isDigit = [] then none
      else some (decimalValue whole (rest.takeWhile Char.isDigit)) := by
  have hpoint : NoDigit ('.' :: rest) := noDigit_cons (c := '.') rfl
  obtain ⟨htake, hdrop⟩ := span_digits h hpoint
  rw [leading, decimalAt, htake, hdrop]
  rfl

/-- Digits and points are digits, or have a first point. -/
lemma IsDotted.cases (h : IsDotted text) :
    (∀ c ∈ text, c.isDigit) ∨
      ∃ whole rest, (∀ c ∈ whole, c.isDigit) ∧ text = whole ++ '.' :: rest := by
  induction text with
  | nil => exact .inl nofun
  | cons c text ih =>
      have hfirst : c.isDigit ∨ c = '.' := h c List.mem_cons_self
      rcases hfirst with hc | rfl
      · rcases ih (h.of_suffix (List.suffix_cons c text)) with hdigits | ⟨whole, rest, hwhole, rfl⟩
        · exact .inl (List.forall_mem_cons.mpr ⟨hc, hdigits⟩)
        · exact .inr ⟨c :: whole, rest, List.forall_mem_cons.mpr ⟨hc, hwhole⟩, rfl⟩
      · exact .inr ⟨[], text, nofun, rfl⟩

lemma takeWhile_digits {digits : List Char} (h : ∀ c ∈ digits, c.isDigit) :
    digits.takeWhile Char.isDigit = digits := by
  have htake := (@span_digits digits [] h nofun).1
  rwa [List.append_nil] at htake

/-- **A text of digits and points is read whole exactly if it has at most one point.** -/
lemma numeral_iff (h : IsDotted text) :
    Numeral text value ↔ leading text = some value ∧ text.count '.' ≤ 1 := by
  constructor
  · intro hnumeral
    cases hnumeral with
    | whole hdigits hne =>
        rw [leading_digits hdigits, if_neg hne,
          List.count_eq_zero_of_not_mem (point_notMem hdigits)]
        exact ⟨rfl, zero_le_one⟩
    | pointed hwhole hfraction hne =>
        rw [leading_pointed hwhole, takeWhile_digits hfraction, if_neg hne, List.count_append,
          List.count_eq_zero_of_not_mem (point_notMem hwhole), List.count_cons_self,
          List.count_eq_zero_of_not_mem (point_notMem hfraction)]
        exact ⟨rfl, le_rfl⟩
  · rintro ⟨hleading, hcount⟩
    rcases h.cases with hdigits | ⟨whole, rest, hwhole, rfl⟩
    · rw [leading_digits hdigits] at hleading
      split at hleading
      next => cases hleading
      next hne => exact Option.some.inj hleading ▸ .whole hdigits hne
    · rw [List.count_append, List.count_cons_self] at hcount
      have hnone : '.' ∉ rest := List.count_eq_zero.mp (by omega)
      have hfraction : ∀ c ∈ rest, c.isDigit := fun c hc =>
        (h c (List.mem_append_right _ (List.mem_cons_of_mem _ hc))).resolve_right fun he =>
          hnone (he ▸ hc)
      rw [leading_pointed hwhole, takeWhile_digits hfraction] at hleading
      split at hleading
      next => cases hleading
      next hne => exact Option.some.inj hleading ▸ .pointed hwhole hfraction hne

/-! ### The grammar -/

/-- A sign or none, and whether it is a minus. -/
inductive Sign : List Char → Bool → Prop
  | none : Sign [] false
  | plus : Sign ['+'] false
  | minus : Sign ['-'] true

/-- The exponent of a literal, 0 where none is written. -/
inductive ExponentPart : List Char → ℤ → Prop
  | none : ExponentPart [] 0
  | written {mark : Char} {sign digits : List Char} {negative : Bool}
      (hmark : mark = 'e' ∨ mark = 'E') (hsign : Sign sign negative)
      (hdigits : ∀ c ∈ digits, c.isDigit) (hne : digits ≠ []) :
      ExponentPart (mark :: (sign ++ digits))
        (if negative then -(Nat.ofDigitChars 10 digits 0 : ℤ) else Nat.ofDigitChars 10 digits 0)

/-- `StrDecimalLiteral`, but for `Infinity`. -/
inductive DecimalLiteral : List Char → ℚ → Prop
  | literal {sign number exponent : List Char} {negative : Bool} {value : ℚ} {n : ℤ}
      (hsign : Sign sign negative) (hnumber : Numeral number value)
      (hexponent : ExponentPart exponent n) :
      DecimalLiteral (sign ++ (number ++ exponent))
        (if negative then -(value * 10 ^ n) else value * 10 ^ n)

/-- The longest literal that the text starts with has the value. -/
def StartsWith (text : List Char) (value : ℚ) : Prop :=
  ∃ literal, literal <+: text ∧ DecimalLiteral literal value ∧
    ∀ other value', other <+: text → DecimalLiteral other value' → other.length ≤ literal.length

/-- The text goes on with what is no digit and no point. -/
def EndsDecimal (text : List Char) : Prop := ∀ c ∈ text.head?, c.isDigit = false ∧ c ≠ '.'

lemma ExponentPart.endsDecimal {exponent : List Char} {n : ℤ} (h : ExponentPart exponent n) :
    EndsDecimal exponent := by
  cases h with
  | none => exact fun c hc => by cases hc
  | written hmark =>
      intro c hc
      obtain rfl := Option.some.inj hc
      rcases hmark with rfl | rfl <;> decide

lemma decimalAt_digits {digits rest : List Char} (h : ∀ c ∈ digits, c.isDigit)
    (hrest : EndsDecimal rest) : decimalAt (digits ++ rest) = (digits, [], rest) := by
  obtain ⟨htake, hdrop⟩ := span_digits h fun c hc => (hrest c hc).1
  rw [decimalAt, htake, hdrop]
  split
  next => exact absurd rfl (hrest '.' rfl).2
  next => rfl

lemma decimalAt_pointed {whole fraction rest : List Char} (hwhole : ∀ c ∈ whole, c.isDigit)
    (hfraction : ∀ c ∈ fraction, c.isDigit) (hrest : NoDigit rest) :
    decimalAt (whole ++ '.' :: (fraction ++ rest)) = (whole, fraction, rest) := by
  have hpoint : NoDigit ('.' :: (fraction ++ rest)) := noDigit_cons (c := '.') rfl
  obtain ⟨htake, hdrop⟩ := span_digits hwhole hpoint
  obtain ⟨htake', hdrop'⟩ := span_digits hfraction hrest
  rw [decimalAt, htake, hdrop]
  exact Prod.ext rfl (Prod.ext htake' hdrop')

/-- A numeral is read as far as it goes. -/
lemma Numeral.decimalAt_append (h : Numeral text value) {rest : List Char}
    (hrest : EndsDecimal rest) :
    ∃ whole fraction, decimalAt (text ++ rest) = (whole, fraction, rest) ∧
      ¬ (whole = [] ∧ fraction = []) ∧ decimalValue whole fraction = value := by
  cases h with
  | whole hdigits hne =>
      exact ⟨_, [], decimalAt_digits hdigits hrest, fun hboth => hne hboth.1, rfl⟩
  | pointed hwhole hfraction hne =>
      refine ⟨_, _, ?_, hne, rfl⟩
      rw [List.append_assoc, List.cons_append]
      exact decimalAt_pointed hwhole hfraction fun c hc => (hrest c hc).1

/-- The digits that a text starts with, and the rest. -/
lemma exists_digits (text : List Char) :
    ∃ digits rest, text = digits ++ rest ∧ (∀ c ∈ digits, c.isDigit) ∧ NoDigit rest := by
  refine ⟨text.takeWhile Char.isDigit, text.dropWhile Char.isDigit,
    List.takeWhile_append_dropWhile.symm, fun c hc => List.mem_takeWhile_imp hc, fun c hc => ?_⟩
  have hhead := List.head?_dropWhile_not Char.isDigit text
  rw [Option.mem_def.mp hc] at hhead
  exact hhead

/-- Whatever follows, a numeral is read at least as far as it goes. -/
lemma Numeral.decimalAt_suffix (h : Numeral text value) (rest : List Char) :
    ∃ whole fraction rest', decimalAt (text ++ rest) = (whole, fraction, rest') ∧
      ¬ (whole = [] ∧ fraction = []) ∧ rest' <:+ rest := by
  obtain ⟨digits, rest, rfl, hdigits, hrest⟩ := exists_digits rest
  have hmore {front : List Char} (hfront : ∀ c ∈ front, c.isDigit) :
      ∀ c ∈ front ++ digits, c.isDigit :=
    fun c hc => (List.mem_append.mp hc).elim (hfront c) (hdigits c)
  cases h with
  | whole hfront hne =>
      rw [← List.append_assoc]
      by_cases hpoint : rest.head? = some '.'
      · obtain ⟨rest, rfl⟩ := List.head?_eq_some_iff.mp hpoint
        obtain ⟨fraction, rest, rfl, hfraction, hrest⟩ := exists_digits rest
        refine ⟨_, _, _, decimalAt_pointed (hmore hfront) hfraction hrest, ?_, ?_⟩
        · exact fun hboth => hne (List.append_eq_nil_iff.mp hboth.1).1
        · exact ⟨digits ++ '.' :: fraction, by simp⟩
      · have hends : EndsDecimal rest := fun c hc =>
          ⟨hrest c hc, fun heq => hpoint (heq ▸ Option.mem_def.mp hc)⟩
        refine ⟨_, _, _, decimalAt_digits (hmore hfront) hends, ?_, List.suffix_append digits rest⟩
        exact fun hboth => hne (List.append_eq_nil_iff.mp hboth.1).1
  | @pointed whole fraction hwhole hfraction hne =>
      have hsplit : whole ++ '.' :: fraction ++ (digits ++ rest) =
          whole ++ '.' :: ((fraction ++ digits) ++ rest) := by simp
      rw [hsplit]
      refine ⟨_, _, _, decimalAt_pointed hwhole (hmore hfraction) hrest, fun hboth => ?_,
        List.suffix_append digits rest⟩
      exact hne ⟨hboth.1, (List.append_eq_nil_iff.mp hboth.2).1⟩

lemma anySignAt_sign {sign : List Char} {negative : Bool} (hsign : Sign sign negative)
    {rest : List Char} (hrest : ∀ c ∈ rest.head?, c ≠ '-' ∧ c ≠ '+') :
    anySignAt (sign ++ rest) = (negative, rest) := by
  cases hsign with
  | none =>
      rw [List.nil_append]
      unfold anySignAt
      split
      next => exact absurd rfl (hrest '-' rfl).1
      next => exact absurd rfl (hrest '+' rfl).2
      next => rfl
  | plus => rfl
  | minus => rfl

/-- The digits of an exponent are all read. -/
lemma exponentDigitsAt_append {digits rest : List Char} (hdigits : ∀ c ∈ digits, c.isDigit)
    (hrest : NoDigit rest) (hne : digits ≠ []) (negative : Bool) :
    exponentDigitsAt negative (digits ++ rest) =
      some (if negative then -(Nat.ofDigitChars 10 digits 0 : ℤ)
        else Nat.ofDigitChars 10 digits 0, rest) := by
  obtain ⟨htake, hdrop⟩ := span_digits hdigits hrest
  rw [exponentDigitsAt, htake, hdrop]
  exact if_neg hne

lemma exponentAt_written {mark : Char} {sign digits rest : List Char} {negative : Bool}
    (hmark : mark = 'e' ∨ mark = 'E') (hsign : Sign sign negative)
    (hdigits : ∀ c ∈ digits, c.isDigit) (hne : digits ≠ []) (hrest : NoDigit rest) :
    exponentAt (mark :: (sign ++ digits) ++ rest) =
      some (if negative then -(Nat.ofDigitChars 10 digits 0 : ℤ)
        else Nat.ofDigitChars 10 digits 0, rest) := by
  have hread := exponentDigitsAt_append hdigits hrest hne
  rw [List.cons_append, exponentAt, if_pos hmark]
  cases hsign with
  | none =>
      obtain ⟨digit, digits, rfl⟩ := List.exists_cons_of_ne_nil hne
      have hdigit : digit.isDigit := hdigits digit List.mem_cons_self
      rw [List.nil_append, List.cons_append]
      unfold signedExponentAt
      split
      next heq => exact absurd ((List.cons.inj heq).1 ▸ hdigit) (by decide)
      next heq => exact absurd ((List.cons.inj heq).1 ▸ hdigit) (by decide)
      next => exact hread false
  | plus => exact hread false
  | minus => exact hread true

/-- What is read as an exponent is one. -/
lemma exists_exponentPart {text rest : List Char} {n : ℤ} (h : exponentAt text = some (n, rest)) :
    ∃ exponent, text = exponent ++ rest ∧ ExponentPart exponent n := by
  have hdigits {negative : Bool} {text rest : List Char} {n : ℤ}
      (h : exponentDigitsAt negative text = some (n, rest)) :
      ∃ digits, text = digits ++ rest ∧ (∀ c ∈ digits, c.isDigit) ∧ digits ≠ [] ∧
        n = if negative then -(Nat.ofDigitChars 10 digits 0 : ℤ)
          else Nat.ofDigitChars 10 digits 0 := by
    rw [exponentDigitsAt] at h
    split at h
    next => cases h
    next hne =>
      obtain ⟨rfl, rfl⟩ := Prod.mk.inj (Option.some.inj h)
      exact ⟨_, List.takeWhile_append_dropWhile.symm, fun c hc => List.mem_takeWhile_imp hc, hne,
        rfl⟩
  cases text with
  | nil =>
      obtain ⟨rfl, rfl⟩ := Prod.mk.inj (Option.some.inj h)
      exact ⟨[], rfl, .none⟩
  | cons c text =>
      rw [exponentAt] at h
      split at h
      next hmark =>
        unfold signedExponentAt at h
        split at h
        next =>
          obtain ⟨digits, rfl, hall, hne, rfl⟩ := hdigits h
          exact ⟨c :: (['+'] ++ digits), rfl, .written hmark .plus hall hne⟩
        next =>
          obtain ⟨digits, rfl, hall, hne, rfl⟩ := hdigits h
          exact ⟨c :: (['-'] ++ digits), rfl, .written hmark .minus hall hne⟩
        next =>
          obtain ⟨digits, rfl, hall, hne, rfl⟩ := hdigits h
          exact ⟨c :: ([] ++ digits), rfl, .written hmark .none hall hne⟩
      next =>
        obtain ⟨rfl, rfl⟩ := Prod.mk.inj (Option.some.inj h)
        exact ⟨[], rfl, .none⟩

/-- What is left behind a decimal. -/
def unsignedRest (text : List Char) : List Char :=
  let rest := (decimalAt text).2.2
  ((exponentAt rest).map Prod.snd).getD rest

/-- What is read in front of the exponent is a numeral. -/
lemma exists_numeral (h : ¬ ((decimalAt text).1 = [] ∧ (decimalAt text).2.1 = [])) :
    ∃ number, text = number ++ (decimalAt text).2.2 ∧
      Numeral number (decimalValue (decimalAt text).1 (decimalAt text).2.1) := by
  obtain ⟨whole, rest, rfl, hwhole, hrest⟩ := exists_digits text
  by_cases hpoint : rest.head? = some '.'
  · obtain ⟨rest, rfl⟩ := List.head?_eq_some_iff.mp hpoint
    obtain ⟨fraction, rest, rfl, hfraction, hrest⟩ := exists_digits rest
    rw [decimalAt_pointed hwhole hfraction hrest] at h ⊢
    exact ⟨whole ++ '.' :: fraction, by simp, .pointed hwhole hfraction h⟩
  · have hends : EndsDecimal rest := fun c hc =>
      ⟨hrest c hc, fun heq => hpoint (heq ▸ Option.mem_def.mp hc)⟩
    rw [decimalAt_digits hwhole hends] at h ⊢
    exact ⟨whole, rfl, .whole hwhole fun hnil => h ⟨hnil, rfl⟩⟩

/-- What is read is a literal, and the rest is left. -/
lemma exists_of_readUnsigned (h : readUnsigned text = some value) :
    ∃ number exponent v n, text = number ++ (exponent ++ unsignedRest text) ∧ Numeral number v ∧
      ExponentPart exponent n ∧ value = v * 10 ^ n := by
  rw [readUnsigned] at h
  dsimp only at h
  split at h
  next => cases h
  next hne =>
    obtain ⟨number, htext, hnumber⟩ := exists_numeral hne
    rw [unsignedRest]
    cases hexponent : exponentAt (decimalAt text).2.2 with
    | none =>
        rw [hexponent] at h
        exact ⟨number, [], _, 0, htext, hnumber, .none, (Option.some.inj h).symm⟩
    | some read =>
        obtain ⟨n, rest⟩ := read
        rw [hexponent] at h
        obtain ⟨exponent, hsplit, hpart⟩ := exists_exponentPart hexponent
        refine ⟨number, exponent, _, n, ?_, hnumber, hpart, (Option.some.inj h).symm⟩
        rw [hsplit] at htext
        exact htext

section

variable {number exponent : List Char} {v : ℚ} {n : ℤ}

/-- A literal is read whole. -/
lemma readUnsigned_literal (hnumber : Numeral number v) (hexponent : ExponentPart exponent n) :
    readUnsigned (number ++ exponent) = some (v * 10 ^ n) := by
  obtain ⟨whole, fraction, hdecimal, hne, rfl⟩ :=
    hnumber.decimalAt_append hexponent.endsDecimal
  have hread : ((exponentAt exponent).map Prod.fst).getD 0 = n := by
    cases hexponent with
    | none => rfl
    | written hmark hsign hdigits hne =>
        have hwritten := @exponentAt_written _ _ _ [] _ hmark hsign hdigits hne fun c hc => by
          cases hc
        rw [List.append_nil] at hwritten
        rw [hwritten]
        rfl
  rw [readUnsigned, hdecimal]
  dsimp only
  rw [if_neg hne, hread]

/-- A text that starts with a numeral is read. -/
lemma isSome_readUnsigned (hnumber : Numeral number v) (rest : List Char) :
    (readUnsigned (number ++ rest)).isSome := by
  obtain ⟨whole, fraction, _, hdecimal, hne, -⟩ := hnumber.decimalAt_suffix rest
  rw [readUnsigned, hdecimal]
  dsimp only
  rw [if_neg hne]
  rfl

/-- No literal leaves less. -/
lemma length_unsignedRest_le (hnumber : Numeral number v) (hexponent : ExponentPart exponent n)
    (rest : List Char) :
    (unsignedRest (number ++ (exponent ++ rest))).length ≤ rest.length := by
  cases hexponent with
  | none =>
      obtain ⟨whole, fraction, rest', hdecimal, -, hsuffix⟩ := hnumber.decimalAt_suffix rest
      rw [List.nil_append, unsignedRest, hdecimal]
      dsimp only
      cases hexponent : exponentAt rest' with
      | none => exact hsuffix.length_le
      | some read =>
          obtain ⟨exponent, hsplit, -⟩ := exists_exponentPart hexponent
          exact ((List.suffix_append exponent read.2).trans (hsplit ▸ hsuffix)).length_le
  | @written mark sign digits _ hmark hsign hdigits hne =>
      obtain ⟨more, rest, rfl, hmore, hrest⟩ := exists_digits rest
      have hall : ∀ c ∈ digits ++ more, c.isDigit :=
        fun c hc => (List.mem_append.mp hc).elim (hdigits c) (hmore c)
      have hends : EndsDecimal (mark :: (sign ++ (digits ++ more)) ++ rest) := by
        intro c hc
        obtain rfl := Option.some.inj hc
        rcases hmark with rfl | rfl <;> decide
      have hsplit : mark :: (sign ++ digits) ++ (more ++ rest) =
          mark :: (sign ++ (digits ++ more)) ++ rest := by simp
      obtain ⟨whole, fraction, hdecimal, -, -⟩ := hnumber.decimalAt_append hends
      rw [unsignedRest, hsplit, hdecimal]
      dsimp only
      rw [exponentAt_written hmark hsign hall (fun hnil => hne (List.append_eq_nil_iff.mp hnil).1)
        hrest]
      exact (List.suffix_append more rest).length_le

lemma Numeral.head_ne_sign (hnumber : Numeral number v) (rest : List Char) :
    ∀ c ∈ (number ++ rest).head?, c ≠ '-' ∧ c ≠ '+' := by
  intro c hc
  rw [List.head?_append_of_ne_nil _ hnumber.ne_nil] at hc
  obtain ⟨hminus, hplus, -⟩ := hnumber.isDotted.ne (List.mem_of_mem_head? hc)
  exact ⟨hminus, hplus⟩

end

lemma exists_sign (text : List Char) :
    ∃ sign, Sign sign (anySignAt text).1 ∧ text = sign ++ (anySignAt text).2 := by
  unfold anySignAt
  split
  · exact ⟨['-'], .minus, rfl⟩
  · exact ⟨['+'], .plus, rfl⟩
  · exact ⟨[], .none, rfl⟩

/-- **The decimal that is read is the longest literal that the text starts with.** -/
theorem startsWith_iff : StartsWith text value ↔ readDecimal text = some value := by
  constructor
  · rintro ⟨literal, ⟨rest, rfl⟩, ⟨hsign, hnumber, hexponent⟩, hlongest⟩
    -- The literal that is read is as long, so that it is the same one.
    rename_i sign number exponent negative v n
    have hsplit : sign ++ (number ++ exponent) ++ rest =
        sign ++ (number ++ (exponent ++ rest)) := by simp
    have hread := anySignAt_sign hsign (hnumber.head_ne_sign (exponent ++ rest))
    obtain ⟨x, hx⟩ := Option.isSome_iff_exists.mp (isSome_readUnsigned hnumber (exponent ++ rest))
    obtain ⟨number', exponent', v', n', hbody, hnumber', hexponent', rfl⟩ :=
      exists_of_readUnsigned hx
    have hleft := length_unsignedRest_le hnumber hexponent rest
    generalize unsignedRest (number ++ (exponent ++ rest)) = left at hbody hleft
    rw [← List.append_assoc, ← List.append_assoc] at hbody
    have hle := hlongest (sign ++ (number' ++ exponent')) _
      ⟨left, by rw [List.append_assoc, ← hbody, ← List.append_assoc]⟩
      (.literal hsign hnumber' hexponent')
    have hsame : number ++ exponent = number' ++ exponent' := by
      refine (List.append_inj hbody ?_).1
      have hlengths := congrArg List.length hbody
      simp only [List.length_append] at hlengths hle ⊢
      omega
    have hvalue := readUnsigned_literal hnumber hexponent
    rw [hsame, readUnsigned_literal hnumber' hexponent'] at hvalue
    rw [readDecimal, hsplit, hread]
    dsimp only
    rw [hx, Option.map_some, Option.some.inj hvalue]
  · intro h
    obtain ⟨sign, hsign, htext⟩ := exists_sign text
    rw [readDecimal] at h
    dsimp only at h
    obtain ⟨x, hx, rfl⟩ := Option.map_eq_some_iff.mp h
    obtain ⟨number, exponent, v, n, hbody, hnumber, hexponent, rfl⟩ := exists_of_readUnsigned hx
    refine ⟨sign ++ (number ++ exponent), ⟨unsignedRest (anySignAt text).2, ?_⟩,
      .literal hsign hnumber hexponent, ?_⟩
    · conv_rhs => rw [htext, hbody]
      simp
    · rintro other value' ⟨rest', hother⟩ ⟨hsign', hnumber', hexponent'⟩
      rename_i sign' number' exponent' negative' v' n'
      have hread := anySignAt_sign hsign' (hnumber'.head_ne_sign (exponent' ++ rest'))
      have hsplit : sign' ++ (number' ++ exponent') ++ rest' =
          sign' ++ (number' ++ (exponent' ++ rest')) := by simp
      rw [← hsplit, hother] at hread
      have hleft := length_unsignedRest_le hnumber' hexponent' rest'
      have hlengths := congrArg List.length hbody
      have hlengths' := congrArg List.length htext
      have hlengths'' := congrArg List.length hother
      rw [hread] at hlengths hlengths'
      simp only [List.length_append] at hlengths hlengths' hlengths'' hleft ⊢
      omega

end Js
