import Mathlib.Data.Int.Basic
import Mathlib.Data.List.Basic
import Mathlib.Tactic.Common
import Mathlib.Tactic.Ring
import Blaize.Lib.Js

/-!
The finite numbers of ECMAScript and their texts.

A finite number is named by the shortest decimal that reads back as it, and its text depends
on that decimal only.  The rounding of other decimals is not part of this model.

* `Number`: the decimals, in normal form; `-0` is read as `0`;
* `Number.ofScaled`: the number that digits and an exponent name;
* `Number.toString`: the text of a number in its four shapes;
* `numberAt`: the numbers of JSON; `parseInt`: the leading digits;
* `numberAt_toChars`: **the text of a number reads back as the number**;
* `parseInt_toString_iff`: **`parseInt` finds a number in its text exactly if it is a whole
  number below `10 ^ 21`**.
-/

namespace Js

/-! ### Decimals -/

/-- Moves the zeros at the end of the digits into the exponent; `fuel` bounds their number. -/
def stripZeros : ℕ → ℕ → ℤ → ℕ × ℤ
  | 0, digits, exponent => (digits, exponent)
  | fuel + 1, digits, exponent =>
      if digits % 10 = 0 then stripZeros fuel (digits / 10) (exponent + 1) else (digits, exponent)

lemma stripZeros_normal {fuel digits : ℕ} (exponent : ℤ) (h : digits ≠ 0) (hfuel : digits ≤ fuel) :
    (stripZeros fuel digits exponent).1 % 10 ≠ 0 := by
  induction fuel generalizing digits exponent with
  | zero => omega
  | succ fuel ih =>
      rw [stripZeros]
      split
      · exact ih (exponent + 1) (by omega) (by omega)
      · assumption

lemma stripZeros_of_normal {fuel digits : ℕ} (exponent : ℤ) (h : digits % 10 ≠ 0) :
    stripZeros fuel digits exponent = (digits, exponent) := by
  cases fuel with
  | zero => rfl
  | succ fuel => rw [stripZeros, if_neg h]

lemma stripZeros_mul_pow {fuel digits : ℕ} (exponent : ℤ) {zeros : ℕ} (h : digits % 10 ≠ 0)
    (hfuel : zeros ≤ fuel) :
    stripZeros fuel (digits * 10 ^ zeros) exponent = (digits, exponent + zeros) := by
  induction zeros generalizing fuel exponent with
  | zero =>
      rw [Nat.pow_zero, Nat.mul_one, stripZeros_of_normal exponent h, Nat.cast_zero, add_zero]
  | succ zeros ih =>
      obtain ⟨fuel, rfl⟩ := Nat.exists_eq_succ_of_ne_zero (by omega : fuel ≠ 0)
      have hten : digits * 10 ^ (zeros + 1) = 10 * (digits * 10 ^ zeros) := by ring
      rw [hten, stripZeros, if_pos (Nat.mul_mod_right 10 _), Nat.mul_div_cancel_left _ (by decide),
        ih (exponent + 1) (by omega)]
      congr 1
      push_cast
      ring

lemma le_stripZeros (fuel digits : ℕ) (exponent : ℤ) :
    exponent ≤ (stripZeros fuel digits exponent).2 := by
  induction fuel generalizing digits exponent with
  | zero => exact le_rfl
  | succ fuel ih =>
      rw [stripZeros]
      split
      · exact le_trans (by omega) (ih _ _)
      · exact le_rfl

/-- The zeros at the end are moved, not lost. -/
lemma stripZeros_value (fuel digits : ℕ) (exponent : ℤ) :
    (stripZeros fuel digits exponent).1 *
      10 ^ ((stripZeros fuel digits exponent).2 - exponent).toNat = digits := by
  induction fuel generalizing digits exponent with
  | zero => simp [stripZeros]
  | succ fuel ih =>
      rw [stripZeros]
      split
      next hzero =>
        have hle := le_stripZeros fuel (digits / 10) (exponent + 1)
        have hsucc : ((stripZeros fuel (digits / 10) (exponent + 1)).2 - exponent).toNat =
            ((stripZeros fuel (digits / 10) (exponent + 1)).2 - (exponent + 1)).toNat + 1 := by
          omega
        rw [hsucc, Nat.pow_succ, ← Nat.mul_assoc, ih, Nat.mul_comm,
          Nat.mul_div_cancel' (Nat.dvd_of_mod_eq_zero hzero)]
      next => simp

/-- A finite number `± digits * 10 ^ exponent`. -/
structure Number where
  negative : Bool
  digits : ℕ
  exponent : ℤ
  normal : if digits = 0 then negative = false ∧ exponent = 0 else digits % 10 ≠ 0
  deriving DecidableEq

namespace Number

/-- The number that digits and an exponent name. -/
def ofScaled (negative : Bool) (digits : ℕ) (exponent : ℤ) : Number :=
  if h : digits = 0 then ⟨false, 0, 0, ⟨rfl, rfl⟩⟩
  else
    { negative
      digits := (stripZeros digits digits exponent).1
      exponent := (stripZeros digits digits exponent).2
      normal := by
        have hnormal := stripZeros_normal exponent h le_rfl
        rw [if_neg]
        · exact hnormal
        · intro hzero
          exact hnormal (by rw [hzero]) }

instance (n : ℕ) : OfNat Number n := ⟨ofScaled false n 0⟩

lemma ext_of_eq {x y : Number} (hneg : x.negative = y.negative) (hdigits : x.digits = y.digits)
    (hexponent : x.exponent = y.exponent) : x = y := by
  cases x
  cases y
  obtain rfl : _ = _ := hneg
  obtain rfl : _ = _ := hdigits
  obtain rfl : _ = _ := hexponent
  rfl

/-- Zeros at the end of the digits do not matter. -/
lemma ofScaled_mul_pow (x : Number) {exponent : ℤ} {zeros : ℕ}
    (h : x.digits = 0 ∨ exponent + zeros = x.exponent) :
    ofScaled x.negative (x.digits * 10 ^ zeros) exponent = x := by
  have hnormal := x.normal
  unfold ofScaled
  split at hnormal
  next hzero =>
    rw [dif_pos (by rw [hzero, Nat.zero_mul])]
    exact ext_of_eq hnormal.1.symm hzero.symm hnormal.2.symm
  next hne =>
    have hpos : x.digits * 10 ^ zeros ≠ 0 := Nat.mul_ne_zero hne (Nat.pow_pos (by decide)).ne'
    have hfuel : zeros ≤ x.digits * 10 ^ zeros :=
      le_trans (Nat.lt_pow_self (by decide)).le (Nat.le_mul_of_pos_left _ (Nat.pos_of_ne_zero hne))
    rw [dif_neg hpos]
    have hstrip := stripZeros_mul_pow exponent hnormal hfuel
    refine ext_of_eq rfl ?_ ?_
    · exact congrArg Prod.fst hstrip
    · exact (congrArg Prod.snd hstrip).trans (h.resolve_left hne)

lemma ofScaled_self (x : Number) : ofScaled x.negative x.digits x.exponent = x := by
  have h := @ofScaled_mul_pow x x.exponent 0 (.inr (add_zero _))
  rwa [Nat.pow_zero, Nat.mul_one] at h

/-- A whole number has no negative exponent. -/
lemma exponent_ofScaled_nonneg (negative : Bool) (digits : ℕ) :
    0 ≤ (ofScaled negative digits 0).exponent := by
  unfold ofScaled
  split
  · exact le_rfl
  · exact le_stripZeros _ _ _

/-- One digit is its own normal form. -/
lemma digits_ofScaled_of_lt {negative : Bool} {digit : ℕ} (h : digit < 10) :
    (ofScaled negative digit 0).digits = digit ∧ (ofScaled negative digit 0).exponent = 0 := by
  unfold ofScaled
  split
  next hzero => exact ⟨hzero.symm, rfl⟩
  next hne =>
    have hstrip := @stripZeros_of_normal digit digit 0 (by omega)
    exact ⟨congrArg Prod.fst hstrip, congrArg Prod.snd hstrip⟩

/-! ### Texts -/

/-- The decimal digits of a number, most significant first. -/
def decimals (x : Number) : List Char := Nat.toDigits 10 x.digits

/-- The place of the decimal point, counted from the first digit. -/
def point (x : Number) : ℤ := x.exponent + x.decimals.length

/-- `d.ddde±n`. -/
def exponential (digits : List Char) (exponent : ℤ) : List Char :=
  let sign := if 0 ≤ exponent then '+' else '-'
  let tail := 'e' :: sign :: Nat.toDigits 10 exponent.natAbs
  match digits with
  | [] => tail
  | [digit] => digit :: tail
  | digit :: digits => digit :: '.' :: (digits ++ tail)

/-- The text of the absolute value. -/
def absChars (x : Number) : List Char :=
  if 0 ≤ x.exponent ∧ x.point ≤ 21 then x.decimals ++ List.replicate x.exponent.toNat '0'
  else if 0 < x.point ∧ x.point ≤ 21 then
    x.decimals.take x.point.toNat ++ '.' :: x.decimals.drop x.point.toNat
  else if -6 < x.point ∧ x.point ≤ 0 then
    '0' :: '.' :: (List.replicate (-x.point).toNat '0' ++ x.decimals)
  else exponential x.decimals (x.point - 1)

def toChars (x : Number) : List Char := if x.negative then '-' :: x.absChars else x.absChars

/-- `Number.prototype.toString`. -/
def toString (x : Number) : String := String.ofList x.toChars

end Number

/-! ### Reading -/

/-- The sign in front of a text. -/
def signAt : List Char → Bool × List Char
  | '-' :: text => (true, text)
  | text => (false, text)

/-- The fraction behind the whole part. -/
def fractionAt : List Char → Option (List Char × List Char)
  | '.' :: text =>
      let digits := text.takeWhile Char.isDigit
      if digits = [] then none else some (digits, text.dropWhile Char.isDigit)
  | text => some ([], text)

/-- The digits of an exponent. -/
def exponentDigitsAt (negative : Bool) (text : List Char) : Option (ℤ × List Char) :=
  let digits := text.takeWhile Char.isDigit
  let exponent : ℤ := Nat.ofDigitChars 10 digits 0
  if digits = [] then none
  else some (if negative then -exponent else exponent, text.dropWhile Char.isDigit)

def signedExponentAt : List Char → Option (ℤ × List Char)
  | '+' :: text => exponentDigitsAt false text
  | '-' :: text => exponentDigitsAt true text
  | text => exponentDigitsAt false text

/-- The exponent at the end of a number. -/
def exponentAt : List Char → Option (ℤ × List Char)
  | c :: text => if c = 'e' ∨ c = 'E' then signedExponentAt text else some (0, c :: text)
  | [] => some (0, [])

/-- A number of JSON at the start of a text, with what follows it. -/
def numberAt (text : List Char) : Option (Number × List Char) := do
  let (negative, text) := signAt text
  let whole := text.takeWhile Char.isDigit
  if whole = [] ∨ (whole.head? = some '0' ∧ whole ≠ ['0']) then none
  let (fraction, text) ← fractionAt (text.dropWhile Char.isDigit)
  let (exponent, text) ← exponentAt text
  some (Number.ofScaled negative (Nat.ofDigitChars 10 (whole ++ fraction) 0)
    (exponent - fraction.length), text)

/-- The sign that `parseInt` skips. -/
def anySignAt : List Char → Bool × List Char
  | '-' :: text => (true, text)
  | '+' :: text => (false, text)
  | text => (false, text)

/-- `parseInt(text, 10)`; `none` is `NaN`. -/
def parseInt (text : String) : Option Number :=
  let (negative, text) := anySignAt (text.toList.dropWhile isWhiteSpace)
  let digits := text.takeWhile Char.isDigit
  if digits = [] then none
  else some (Number.ofScaled negative (Nat.ofDigitChars 10 digits 0) 0)

/-! ### The shapes of a text -/

/-- The text does not go on with a digit. -/
def NoDigit (text : List Char) : Prop := ∀ c ∈ text.head?, c.isDigit = false

/-- The text does not go on with a part of a number. -/
def EndsNumber (text : List Char) : Prop :=
  ∀ c ∈ text.head?, c.isDigit = false ∧ c ≠ '.' ∧ c ≠ 'e' ∧ c ≠ 'E'

lemma EndsNumber.noDigit {text : List Char} (h : EndsNumber text) : NoDigit text :=
  fun c hc => (h c hc).1

lemma noDigit_cons {c : Char} {text : List Char} (h : c.isDigit = false) : NoDigit (c :: text) :=
  fun _ hc => Option.some.inj hc ▸ h

lemma span_digits {digits text : List Char} (hdigits : ∀ c ∈ digits, c.isDigit = true)
    (htext : NoDigit text) :
    (digits ++ text).takeWhile Char.isDigit = digits ∧
      (digits ++ text).dropWhile Char.isDigit = text := by
  have hrest : text.takeWhile Char.isDigit = [] ∧ text.dropWhile Char.isDigit = text := by
    cases text with
    | nil => exact ⟨rfl, rfl⟩
    | cons c text =>
        have hc := htext c rfl
        exact ⟨List.takeWhile_cons_of_neg (by simp [hc]), List.dropWhile_cons_of_neg (by simp [hc])⟩
  rw [List.takeWhile_append_of_pos hdigits, List.dropWhile_append_of_pos hdigits, hrest.1, hrest.2,
    List.append_nil]
  exact ⟨rfl, rfl⟩

/-- A fraction behind its point. -/
def pointed (fraction : List Char) : List Char := if fraction = [] then [] else '.' :: fraction

/-- The text of an exponent. -/
def exponentText : Option ℤ → List Char
  | none => []
  | some exponent =>
      'e' :: (if 0 ≤ exponent then '+' else '-') :: Nat.toDigits 10 exponent.natAbs

lemma toNat_of_isDigit {c : Char} (h : c.isDigit = true) : 48 ≤ c.toNat ∧ c.toNat ≤ 57 := by
  simp only [Char.isDigit, ge_iff_le, Bool.and_eq_true, decide_eq_true_eq] at h
  exact h

lemma isDigit_toDigits (n : ℕ) : ∀ c ∈ Nat.toDigits 10 n, c.isDigit = true :=
  fun _ => Nat.isDigit_of_mem_toDigits (by decide) (by decide)

lemma exponentAt_exponentText (exponent : Option ℤ) {text : List Char} (h : EndsNumber text) :
    exponentAt (exponentText exponent ++ text) = some (exponent.getD 0, text) := by
  cases exponent with
  | none =>
      cases text with
      | nil => rfl
      | cons c text =>
          obtain ⟨-, -, hlower, hupper⟩ := h c rfl
          show exponentAt (c :: text) = _
          rw [exponentAt, if_neg (not_or_intro hlower hupper)]
          rfl
  | some exponent =>
      obtain ⟨htake, hdrop⟩ := span_digits (isDigit_toDigits exponent.natAbs) h.noDigit
      have hread (negative : Bool) : exponentDigitsAt negative
          (Nat.toDigits 10 exponent.natAbs ++ text) =
            some (if negative then -(exponent.natAbs : ℤ) else exponent.natAbs, text) := by
        unfold exponentDigitsAt
        dsimp only
        rw [htake, hdrop, if_neg Nat.toDigits_ne_nil, Nat.ofDigitChars_ten_toDigits]
      rw [exponentText, List.cons_append, List.cons_append, exponentAt, if_pos (.inl rfl)]
      split_ifs with hsign
      · refine (hread false).trans ?_
        rw [if_neg nofun, Int.natAbs_of_nonneg hsign]
        rfl
      · refine (hread true).trans ?_
        rw [if_pos rfl, Int.ofNat_natAbs_of_nonpos (by omega), neg_neg]
        rfl

lemma endsNumber_noDigit_exponentText (exponent : Option ℤ) {text : List Char}
    (h : EndsNumber text) : NoDigit (exponentText exponent ++ text) := by
  cases exponent with
  | none => exact h.noDigit
  | some exponent => exact noDigit_cons rfl

lemma fractionAt_pointed {fraction : List Char} (hfraction : ∀ c ∈ fraction, c.isDigit = true)
    (exponent : Option ℤ) {text : List Char} (h : EndsNumber text) :
    fractionAt (pointed fraction ++ (exponentText exponent ++ text)) =
      some (fraction, exponentText exponent ++ text) := by
  unfold pointed
  split
  next hnil =>
    subst hnil
    rw [List.nil_append]
    unfold fractionAt
    split
    next rest hrest =>
      cases exponent with
      | none => exact absurd rfl (h '.' (by rw [show text = '.' :: rest from hrest]; rfl)).2.1
      | some exponent => cases hrest
    next => rfl
  next hne =>
    obtain ⟨htake, hdrop⟩ :=
      span_digits hfraction (endsNumber_noDigit_exponentText exponent h)
    rw [List.cons_append, fractionAt, htake, hdrop, if_neg hne]

/-- A text in three parts that names a number. -/
structure Shape (x : Number) (whole fraction : List Char) (exponent : Option ℤ) : Prop where
  absChars : x.absChars = whole ++ (pointed fraction ++ exponentText exponent)
  whole_digits : ∀ c ∈ whole, c.isDigit = true
  whole_ne : whole ≠ []
  whole_zero : whole.head? = some '0' → whole = ['0']
  fraction_digits : ∀ c ∈ fraction, c.isDigit = true
  value : Number.ofScaled x.negative (Nat.ofDigitChars 10 (whole ++ fraction) 0)
    (exponent.getD 0 - fraction.length) = x

lemma noDigit_pointed (fraction : List Char) {text : List Char} (h : NoDigit text) :
    NoDigit (pointed fraction ++ text) := by
  unfold pointed
  split
  · exact h
  · exact noDigit_cons rfl

/-- The sign is read, or is not there. -/
lemma signAt_toChars (x : Number) {c : Char} {chars : List Char} (hchars : x.absChars = c :: chars)
    (hc : c.isDigit = true) (text : List Char) :
    signAt (x.toChars ++ text) = (x.negative, x.absChars ++ text) := by
  unfold Number.toChars
  cases x.negative with
  | true => rfl
  | false =>
      rw [if_neg nofun, hchars, List.cons_append]
      unfold signAt
      split
      next h =>
        obtain rfl := (List.cons.inj h).1
        cases hc
      next => rfl

lemma Shape.head {x : Number} {whole fraction : List Char} {exponent : Option ℤ}
    (h : Shape x whole fraction exponent) :
    ∃ c chars, x.absChars = c :: chars ∧ c.isDigit = true := by
  obtain ⟨c, whole, rfl⟩ := List.exists_cons_of_ne_nil h.whole_ne
  exact ⟨c, _, h.absChars, h.whole_digits c List.mem_cons_self⟩

lemma Shape.numberAt {x : Number} {whole fraction : List Char} {exponent : Option ℤ}
    (h : Shape x whole fraction exponent) {text : List Char} (htext : EndsNumber text) :
    Js.numberAt (x.toChars ++ text) = some (x, text) := by
  obtain ⟨c, chars, hchars, hc⟩ := h.head
  obtain ⟨htake, hdrop⟩ := span_digits h.whole_digits
    (noDigit_pointed fraction (endsNumber_noDigit_exponentText exponent htext))
  unfold Js.numberAt
  rw [signAt_toChars x hchars hc]
  dsimp only
  rw [h.absChars, List.append_assoc, List.append_assoc, htake, hdrop, if_neg]
  · rw [fractionAt_pointed h.fraction_digits exponent htext]
    show (exponentAt (exponentText exponent ++ text)).bind _ = _
    rw [exponentAt_exponentText exponent htext]
    exact congrArg some (Prod.ext h.value rfl)
  · rintro (hnil | ⟨hzero, hne⟩)
    · exact h.whole_ne hnil
    · exact hne (h.whole_zero hzero)

/-! ### Every text has a shape -/

lemma toDigits_head_ne_zero {n : ℕ} (h : n ≠ 0) : (Nat.toDigits 10 n).head? ≠ some '0' := by
  induction n using Nat.strongRecOn with
  | _ n ih =>
      rw [Nat.toDigits_eq_if (by decide)]
      split
      next hlt =>
        have hdigit : ∀ m : ℕ, m < 10 → m ≠ 0 → [m.digitChar].head? ≠ some '0' := by decide
        exact hdigit n hlt h
      next hle =>
        rw [List.head?_append_of_ne_nil _ Nat.toDigits_ne_nil]
        exact ih (n / 10) (by omega) (by omega)

namespace Number

variable (x : Number)

lemma value_decimals : Nat.ofDigitChars 10 x.decimals 0 = x.digits := Nat.ofDigitChars_ten_toDigits

lemma decimals_digits : ∀ c ∈ x.decimals, c.isDigit = true := isDigit_toDigits x.digits

lemma decimals_ne_nil : x.decimals ≠ [] := Nat.toDigits_ne_nil

lemma length_decimals_pos : 0 < x.decimals.length := List.length_pos_of_ne_nil x.decimals_ne_nil

lemma exponent_eq_zero_of_digits (h : x.digits = 0) : x.exponent = 0 := by
  have hnormal := x.normal
  rw [if_pos h] at hnormal
  exact hnormal.2

lemma digits_of_head_zero (h : x.decimals.head? = some '0') : x.digits = 0 := by
  by_contra hne
  exact toDigits_head_ne_zero hne h

lemma decimals_of_digits (h : x.digits = 0) : x.decimals = ['0'] := by
  rw [decimals, h]
  rfl

/-- A whole number is written with its zeros. -/
lemma shape_whole (h : 0 ≤ x.exponent ∧ x.point ≤ 21) :
    Shape x (x.decimals ++ List.replicate x.exponent.toNat '0') [] none where
  absChars := by
    rw [Number.absChars, if_pos h]
    exact (List.append_nil _).symm
  whole_digits c hc := by
    rcases List.mem_append.mp hc with hc | hc
    · exact x.decimals_digits c hc
    · obtain rfl := List.eq_of_mem_replicate hc
      rfl
  whole_ne := List.append_ne_nil_of_left_ne_nil x.decimals_ne_nil _
  whole_zero hzero := by
    rw [List.head?_append_of_ne_nil _ x.decimals_ne_nil] at hzero
    have hdigits := x.digits_of_head_zero hzero
    rw [x.exponent_eq_zero_of_digits hdigits, x.decimals_of_digits hdigits]
    rfl
  fraction_digits := nofun
  value := by
    rw [List.append_nil, Nat.ofDigitChars_append, value_decimals, Nat.ofDigitChars_replicate_zero,
      Nat.mul_comm]
    refine ofScaled_mul_pow x (.inr ?_)
    show (0 : ℤ) - 0 + _ = _
    omega

/-- A number with digits on both sides of its point. -/
lemma shape_split (hexponent : x.exponent < 0) (h : 0 < x.point ∧ x.point ≤ 21) :
    Shape x (x.decimals.take x.point.toNat) (x.decimals.drop x.point.toNat) none := by
  have hlt : x.point.toNat < x.decimals.length := by
    have hpoint : x.point = x.exponent + x.decimals.length := rfl
    omega
  have hdrop : x.decimals.drop x.point.toNat ≠ [] := by
    intro hnil
    exact absurd (List.drop_eq_nil_iff.mp hnil) (by omega)
  refine ⟨?_, fun c hc => x.decimals_digits c (List.mem_of_mem_take hc), ?_, fun hzero => ?_,
    fun c hc => x.decimals_digits c (List.mem_of_mem_drop hc), ?_⟩
  · rw [Number.absChars, if_neg (by omega), if_pos h, pointed, if_neg hdrop]
    exact congrArg _ (List.append_nil _).symm
  · intro hnil
    rcases List.take_eq_nil_iff.mp hnil with hzero | hnil
    · omega
    · exact x.decimals_ne_nil hnil
  · rw [List.head?_take, if_neg (by omega)] at hzero
    rw [x.exponent_eq_zero_of_digits (x.digits_of_head_zero hzero)] at hexponent
    omega
  · rw [List.take_append_drop, value_decimals, List.length_drop]
    have hscale : (none : Option ℤ).getD 0 - ((x.decimals.length - x.point.toNat : ℕ) : ℤ) =
        x.exponent := by
      have hpoint : x.point = x.exponent + x.decimals.length := rfl
      show (0 : ℤ) - _ = _
      omega
    rw [hscale]
    exact ofScaled_self x

/-- A small fraction. -/
lemma shape_small (h : -6 < x.point ∧ x.point ≤ 0) :
    Shape x ['0'] (List.replicate (-x.point).toNat '0' ++ x.decimals) none := by
  have hpoint : x.point = x.exponent + x.decimals.length := rfl
  have hlength := x.length_decimals_pos
  refine ⟨?_, fun c hc => ?_, List.cons_ne_nil _ _, fun _ => rfl, fun c hc => ?_, ?_⟩
  · rw [Number.absChars, if_neg (by omega), if_neg (by omega), if_pos h, pointed, if_neg]
    · exact congrArg _ (List.append_nil _).symm
    · exact List.append_ne_nil_of_right_ne_nil _ x.decimals_ne_nil
  · obtain rfl := List.mem_singleton.mp hc
    rfl
  · rcases List.mem_append.mp hc with hc | hc
    · obtain rfl := List.eq_of_mem_replicate hc
      rfl
    · exact x.decimals_digits c hc
  · have hvalue :
        Nat.ofDigitChars 10 (['0'] ++ (List.replicate (-x.point).toNat '0' ++ x.decimals)) 0 =
          x.digits := by
      rw [← List.append_assoc, Nat.ofDigitChars_append, ← List.replicate_one,
        List.replicate_append_replicate, Nat.ofDigitChars_replicate_zero, Nat.mul_zero,
        value_decimals]
    rw [hvalue, List.length_append, List.length_replicate]
    have hscale : (none : Option ℤ).getD 0 - (((-x.point).toNat + x.decimals.length : ℕ) : ℤ) =
        x.exponent := by
      show (0 : ℤ) - _ = _
      omega
    rw [hscale]
    exact ofScaled_self x

/-- A number with an exponent. -/
lemma shape_exponential (hwhole : ¬ (0 ≤ x.exponent ∧ x.point ≤ 21))
    (hsplit : ¬ (0 < x.point ∧ x.point ≤ 21)) (hsmall : ¬ (-6 < x.point ∧ x.point ≤ 0)) :
    ∃ digit fraction, Shape x [digit] fraction (some (x.point - 1)) := by
  obtain ⟨digit, fraction, hdecimals⟩ := List.exists_cons_of_ne_nil x.decimals_ne_nil
  have hpoint : x.point = x.exponent + x.decimals.length := rfl
  refine ⟨digit, fraction, ?_, fun c hc => ?_, List.cons_ne_nil _ _, fun hzero => ?_,
    fun c hc => ?_, ?_⟩
  · rw [Number.absChars, if_neg hwhole, if_neg hsplit, if_neg hsmall, hdecimals, pointed]
    cases fraction <;> rfl
  · obtain rfl := List.mem_singleton.mp hc
    exact x.decimals_digits c (hdecimals ▸ List.mem_cons_self)
  · exact congrArg (fun c => [c]) (Option.some.inj hzero)
  · exact x.decimals_digits c (hdecimals ▸ List.mem_cons_of_mem _ hc)
  · rw [List.singleton_append, ← hdecimals, value_decimals]
    have hscale : (some (x.point - 1)).getD 0 - (fraction.length : ℤ) = x.exponent := by
      rw [hpoint, hdecimals, List.length_cons]
      show x.exponent + _ - 1 - _ = _
      push_cast
      ring
    rw [hscale]
    exact ofScaled_self x

/-- **Every text has a shape**; only a whole number below `10 ^ 21` has neither a fraction nor an
exponent. -/
lemma shape_cases :
    ((0 ≤ x.exponent ∧ x.point ≤ 21) ∧ ∃ whole, Shape x whole [] none) ∨
      (x.exponent < 0 ∧ ∃ whole fraction, Shape x whole fraction none) ∨
      (¬ (0 ≤ x.exponent ∧ x.point ≤ 21) ∧
        ∃ digit fraction exponent, Shape x [digit] fraction (some exponent)) := by
  have hpoint : x.point = x.exponent + x.decimals.length := rfl
  by_cases hwhole : 0 ≤ x.exponent ∧ x.point ≤ 21
  · exact .inl ⟨hwhole, _, x.shape_whole hwhole⟩
  by_cases hsplit : 0 < x.point ∧ x.point ≤ 21
  · have hexponent : x.exponent < 0 := by omega
    exact .inr (.inl ⟨hexponent, _, _, x.shape_split hexponent hsplit⟩)
  by_cases hsmall : -6 < x.point ∧ x.point ≤ 0
  · exact .inr (.inl ⟨by omega, _, _, x.shape_small hsmall⟩)
  obtain ⟨digit, fraction, hshape⟩ := x.shape_exponential hwhole hsplit hsmall
  exact .inr (.inr ⟨hwhole, digit, fraction, _, hshape⟩)

lemma exists_shape : ∃ whole fraction exponent, Shape x whole fraction exponent := by
  rcases x.shape_cases with ⟨-, whole, h⟩ | ⟨-, whole, fraction, h⟩ |
    ⟨-, digit, fraction, exponent, h⟩
  · exact ⟨whole, [], none, h⟩
  · exact ⟨whole, fraction, none, h⟩
  · exact ⟨[digit], fraction, some exponent, h⟩

/-- **The text of a number reads back as the number.** -/
theorem numberAt_toChars {text : List Char} (h : EndsNumber text) :
    numberAt (x.toChars ++ text) = some (x, text) := by
  obtain ⟨whole, fraction, exponent, hshape⟩ := x.exists_shape
  exact hshape.numberAt h

lemma toString_ne_empty : x.toString ≠ "" := by
  obtain ⟨whole, fraction, exponent, hshape⟩ := x.exists_shape
  obtain ⟨c, chars, hchars, -⟩ := hshape.head
  intro hempty
  have hnil : x.toChars = [] := String.ofList_injective hempty
  rw [toChars, hchars] at hnil
  split at hnil <;> cases hnil

lemma isWhiteSpace_of_isDigit {c : Char} (h : c.isDigit = true) : isWhiteSpace c = false := by
  obtain ⟨hlower, hupper⟩ := toNat_of_isDigit h
  rw [Bool.eq_false_iff]
  intro hwhite
  simp [isWhiteSpace] at hwhite
  omega

lemma anySignAt_digit {c : Char} (h : c.isDigit = true) (text : List Char) :
    anySignAt (c :: text) = (false, c :: text) := by
  unfold anySignAt
  split
  next heq =>
    obtain rfl := (List.cons.inj heq).1
    cases h
  next heq =>
    obtain rfl := (List.cons.inj heq).1
    cases h
  next => rfl

/-- `parseInt` reads the whole part. -/
lemma parseInt_toString {whole fraction : List Char} {exponent : Option ℤ}
    (h : Shape x whole fraction exponent) :
    parseInt x.toString = some (ofScaled x.negative (Nat.ofDigitChars 10 whole 0) 0) := by
  obtain ⟨c, chars, hchars, hc⟩ := h.head
  have htext : x.absChars.takeWhile Char.isDigit = whole := by
    rw [h.absChars]
    refine (span_digits h.whole_digits (noDigit_pointed fraction ?_)).1
    exact List.append_nil (exponentText exponent) ▸ endsNumber_noDigit_exponentText exponent nofun
  have hwhite : isWhiteSpace c = false := isWhiteSpace_of_isDigit hc
  unfold parseInt
  rw [toString, String.toList_ofList, toChars]
  cases x.negative with
  | true =>
      rw [if_pos rfl, List.dropWhile_cons_of_neg (by decide)]
      show (if x.absChars.takeWhile Char.isDigit = [] then none else _) = _
      rw [htext, if_neg h.whole_ne]
      exact congrArg (fun digits => some (ofScaled true (Nat.ofDigitChars 10 digits 0) 0)) htext
  | false =>
      rw [if_neg nofun, hchars, List.dropWhile_cons_of_neg (by simp [hwhite]), anySignAt_digit hc,
        ← hchars]
      dsimp only
      rw [htext, if_neg h.whole_ne]

/-- A whole number of at most 21 digits. -/
def Whole : Prop := 0 ≤ x.exponent ∧ x.digits * 10 ^ x.exponent.toNat < 10 ^ 21

instance : Decidable x.Whole := inferInstanceAs (Decidable (_ ∧ _))

lemma whole_iff : x.Whole ↔ 0 ≤ x.exponent ∧ x.point ≤ 21 := by
  refine and_congr_right fun hexponent => ?_
  obtain ⟨n, hn⟩ := Int.eq_ofNat_of_zero_le hexponent
  have hlength := x.length_decimals_pos
  have hpoint : x.point = n + x.decimals.length := by rw [point, hn]
  have hle (m : ℕ) (hm : 0 < m) : x.decimals.length ≤ m ↔ x.digits < 10 ^ m :=
    Nat.length_toDigits_le_iff (by decide) hm
  rw [hn, Int.toNat_natCast, hpoint]
  constructor
  · intro hlt
    by_cases hdigits : x.digits = 0
    · have hzero := x.exponent_eq_zero_of_digits hdigits
      rw [x.decimals_of_digits hdigits, List.length_singleton]
      omega
    · have hn21 : n < 21 := by
        refine (Nat.pow_lt_pow_iff_right (by decide : 1 < 10)).mp (lt_of_le_of_lt ?_ hlt)
        exact Nat.le_mul_of_pos_left _ (Nat.pos_of_ne_zero hdigits)
      have hsplit : 10 ^ 21 = 10 ^ (21 - n) * 10 ^ n := by
        rw [← Nat.pow_add, Nat.sub_add_cancel hn21.le]
      rw [hsplit] at hlt
      have hdigits21 := (hle (21 - n) (by omega)).mpr (Nat.lt_of_mul_lt_mul_right hlt)
      omega
  · intro hsum
    have hdigits := (hle (21 - n) (by omega)).mp (by omega)
    calc x.digits * 10 ^ n
        < 10 ^ (21 - n) * 10 ^ n := Nat.mul_lt_mul_of_pos_right hdigits (Nat.pow_pos (by decide))
      _ = 10 ^ 21 := by rw [← Nat.pow_add, Nat.sub_add_cancel (by omega)]

/-- A whole number below `10 ^ 21` is written with its digits only. -/
lemma exists_digits_toString {n : ℕ} (h : n < 10 ^ 21) :
    ∃ whole, (ofScaled false n 0).toString.toList = whole ∧ (∀ c ∈ whole, c.isDigit = true) ∧
      whole ≠ [] ∧ Nat.ofDigitChars 10 whole 0 = n := by
  have hvalue : (ofScaled false n 0).digits * 10 ^ (ofScaled false n 0).exponent.toNat = n := by
    have hstrip := stripZeros_value n n 0
    rw [Int.sub_zero] at hstrip
    unfold ofScaled
    split
    next hzero => simp [hzero]
    next => exact hstrip
  have hwhole : (ofScaled false n 0).Whole :=
    ⟨exponent_ofScaled_nonneg false n, by rw [hvalue]; exact h⟩
  have hshape := shape_whole _ ((whole_iff _).mp hwhole)
  have hpositive : (ofScaled false n 0).negative = false := by
    unfold ofScaled
    split <;> rfl
  refine ⟨_, ?_, hshape.whole_digits, hshape.whole_ne, ?_⟩
  · rw [toString, String.toList_ofList, toChars, hpositive, if_neg Bool.false_ne_true,
      hshape.absChars]
    exact List.append_nil _
  · rw [Nat.ofDigitChars_append, value_decimals, Nat.ofDigitChars_replicate_zero, Nat.mul_comm]
    exact hvalue

/-- **`parseInt` finds a number in its text exactly if it is whole and short enough to be written
without an exponent.** -/
theorem parseInt_toString_iff : parseInt x.toString = some x ↔ x.Whole := by
  rw [whole_iff]
  rcases x.shape_cases with ⟨hwhole, whole, h⟩ | ⟨hexponent, whole, fraction, h⟩ |
    ⟨hnot, digit, fraction, exponent, h⟩
  · rw [x.parseInt_toString h]
    refine iff_of_true (congrArg some ?_) hwhole
    have hvalue := h.value
    rw [List.append_nil] at hvalue
    exact hvalue
  · rw [x.parseInt_toString h, Option.some.injEq]
    refine iff_of_false (fun heq => ?_) (by omega)
    have hnonneg := exponent_ofScaled_nonneg x.negative (Nat.ofDigitChars 10 whole 0)
    rw [heq] at hnonneg
    omega
  · rw [x.parseInt_toString h, Option.some.injEq]
    refine iff_of_false (fun heq => hnot ?_) hnot
    -- one digit before the exponent
    have hlt : Nat.ofDigitChars 10 [digit] 0 < 10 := by
      rw [Nat.ofDigitChars_cons, Nat.ofDigitChars_nil, Nat.mul_zero, Nat.zero_add]
      have hdigit := toNat_of_isDigit (h.whole_digits digit List.mem_cons_self)
      show digit.toNat - 48 < 10
      omega
    obtain ⟨hdigits, hexponent⟩ := @digits_ofScaled_of_lt x.negative _ hlt
    rw [heq] at hdigits hexponent
    have hlength : x.decimals.length ≤ 1 :=
      (Nat.length_toDigits_le_iff (by decide) (by decide)).mpr (hdigits ▸ hlt)
    rw [point, hexponent]
    omega

end Number

end Js
