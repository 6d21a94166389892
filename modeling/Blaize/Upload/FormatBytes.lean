import Mathlib.Algebra.Order.Round
import Mathlib.Data.List.DropRight
import Blaize.Metrics.Exact
import Blaize.Upload.ParseSize

/-!
The text of a size, and the size that is read from it
(`packages/blaize-core/src/upload/parse-size.ts`).

A size is divided by 1024 until a unit fits; a whole number is written as it is, another with a
fixed number of places from which the zeros at the end are removed.  With no places at all, these
are zeros of the whole part.

* `formatBytes`: the function;
* `scaleDown_spec`: the unit and the number of units;
* `numeral_dropZeros`: behind a point, the zeros at the end do not count;
* `parseSize_formatted`: a numeral and a unit are parsed;
* `readsBack_iff_keepsPlaces`: **a size is read back up to half a unit of the last place exactly if
  it is a whole number of units, or its places can be written and none of them is removed from the
  whole part**;
* `not_readsBack`: without places, 10445 bytes are written as `1 KB`.
-/

namespace Blaize.Upload

open Js
open Metrics.Prometheus (pointed fixedText roundTo toList_pointed toList_toString)

/-! ### The function -/

/-- `units` -/
def units : List String := ["B", "KB", "MB", "GB", "TB"]

/-- The loop, with the number of larger units that are left: `unitIndex` and `size`. -/
def scaleDown : ℕ → ℚ → ℕ × ℚ
  | 0, size => (units.length - 1, size)
  | left + 1, size =>
      if 1024 ≤ size then scaleDown left (size / 1024) else (units.length - 1 - (left + 1), size)

/-- `toFixed` of a number below `10 ^ 21` -/
def toFixed (x : ℚ) (digits : ℕ) : Except String String :=
  if 100 < digits then .error "toFixed() digits argument must be between 0 and 100"
  else .ok (fixedText x digits)

/-- `text.replace(/\.?0+$/, '')` -/
def dropZeros (text : List Char) : List Char :=
  if text.getLast? = some '0' then
    let kept := text.rdropWhile (· = '0')
    if kept.getLast? = some '.' then kept.dropLast else kept
  else text

/-- `formatBytes`; an error is the message of the `RangeError`. -/
def formatBytes (bytes : ℚ) (decimals : ℕ := 2) : Except String String :=
  if bytes = 0 then .ok "0 B"
  else
    let (unitIndex, size) := scaleDown (units.length - 1) |bytes|
    let sign := if bytes < 0 then "-" else ""
    let formatted :=
      if Int.fract size = 0 then .ok (Number.ofScaled false size.num.natAbs 0).toString
      else (toFixed size decimals).map fun text => String.ofList (dropZeros text.toList)
    formatted.map fun text => sign ++ text ++ " " ++ units.getD unitIndex ""

/-! ### The property -/

/-- The unit of a size, in bytes. -/
def unitBytes (n : ℕ) : ℕ := 1024 ^ (scaleDown (units.length - 1) n).1

/-- The number of units of a size. -/
def inUnits (n : ℕ) : ℚ := (scaleDown (units.length - 1) n).2

/-- The text of a size is a size, and off by half a unit of its last place at most, in exact
arithmetic. -/
def ReadsBack (n decimals : ℕ) : Prop :=
  ∃ text bytes, formatBytes n decimals = .ok text ∧
    parseSizeWith id (.string text) = .ok (.finite bytes) ∧
    |bytes - n| ≤ 1 / 2 / 10 ^ decimals * unitBytes n + 1 / 2

/-- The places can be written, and what is removed from the end are places. -/
def KeepsPlaces (n decimals : ℕ) : Prop :=
  Int.fract (inUnits n) = 0 ∨
    decimals ≤ 100 ∧ (1 ≤ decimals ∨ ⌊inUnits n + 1 / 2⌋ % 10 ≠ 0)

/-! ### The unit -/

/-- **The loop keeps the size.** -/
lemma scaleDown_spec {left : ℕ} (hleft : left ≤ units.length - 1) (x : ℚ) :
    (scaleDown left x).1 ≤ units.length - 1 ∧
      (scaleDown left x).2 * 1024 ^ (scaleDown left x).1 =
        x * 1024 ^ (units.length - 1 - left) := by
  induction left generalizing x with
  | zero => exact ⟨le_rfl, rfl⟩
  | succ left ih =>
      rw [scaleDown]
      split
      next =>
        obtain ⟨hindex, hsize⟩ := ih (by omega) (x / 1024)
        have hsucc : units.length - 1 - left = units.length - 1 - (left + 1) + 1 := by omega
        refine ⟨hindex, ?_⟩
        rw [hsize, hsucc, pow_succ]
        ring
      next => exact ⟨Nat.sub_le _ _, rfl⟩

lemma one_le_scaleDown {left : ℕ} {x : ℚ} (h : 1 ≤ x) : 1 ≤ (scaleDown left x).2 := by
  induction left generalizing x with
  | zero => exact h
  | succ left ih =>
      rw [scaleDown]
      split
      next hlarge => exact ih ((one_le_div (by norm_num)).mpr hlarge)
      next => exact h

variable {n : ℕ}

lemma inUnits_mul_unitBytes (n : ℕ) : inUnits n * unitBytes n = n := by
  have hsize := (scaleDown_spec le_rfl (n : ℚ)).2
  rw [Nat.sub_self, pow_zero, mul_one] at hsize
  rw [inUnits, unitBytes]
  exact_mod_cast hsize

lemma one_le_inUnits (h : n ≠ 0) : 1 ≤ inUnits n :=
  one_le_scaleDown (by exact_mod_cast Nat.one_le_iff_ne_zero.mpr h)

lemma unitBytes_pos (n : ℕ) : (0 : ℚ) < unitBytes n := by
  rw [unitBytes]
  positivity

lemma inUnits_zero : inUnits 0 = 0 := by
  have h := inUnits_mul_unitBytes 0
  rw [Nat.cast_zero] at h
  exact (mul_eq_zero.mp h).resolve_right (unitBytes_pos 0).ne'

lemma inUnits_nonneg (n : ℕ) : 0 ≤ inUnits n := by
  have h : 0 ≤ inUnits n * unitBytes n := by
    rw [inUnits_mul_unitBytes]
    exact n.cast_nonneg
  exact nonneg_of_mul_nonneg_left h (unitBytes_pos n)

lemma unitBytes_le (n : ℕ) : (unitBytes n : ℚ) ≤ 1024 ^ 4 := by
  have hle : unitBytes n ≤ 1024 ^ 4 :=
    Nat.pow_le_pow_right (by decide) (scaleDown_spec le_rfl (n : ℚ)).1
  exact_mod_cast hle

/-! ### Zeros at the end -/

lemma exists_zeros (text : List Char) :
    ∃ kept k, text = kept ++ List.replicate k '0' ∧ kept.getLast? ≠ some '0' := by
  induction text using List.reverseRecOn with
  | nil => exact ⟨[], 0, rfl, nofun⟩
  | append_singleton text c ih =>
      by_cases hc : c = '0'
      · obtain ⟨kept, k, rfl, hkept⟩ := ih
        exact ⟨kept, k + 1, by rw [hc, List.append_assoc, ← List.replicate_succ'], hkept⟩
      · exact ⟨text ++ [c], 0, (List.append_nil _).symm, by simpa using hc⟩

lemma rdropWhile_zeros {kept : List Char} (h : kept.getLast? ≠ some '0') (k : ℕ) :
    (kept ++ List.replicate k '0').rdropWhile (· = '0') = kept := by
  induction k with
  | zero =>
      rw [List.replicate_zero, List.append_nil, List.rdropWhile_eq_self_iff]
      intro hne hlast
      exact h (by rw [List.getLast?_eq_getLast_of_ne_nil hne, of_decide_eq_true hlast])
  | succ k ih =>
      rw [List.replicate_succ', ← List.append_assoc, List.rdropWhile_concat_pos _ _ _ rfl, ih]

/-- What is left of a text with zeros at its end. -/
lemma dropZeros_append {kept : List Char} (h : kept.getLast? ≠ some '0') (k : ℕ) :
    dropZeros (kept ++ List.replicate k '0') =
      if k ≠ 0 ∧ kept.getLast? = some '.' then kept.dropLast else kept := by
  rw [dropZeros, rdropWhile_zeros h]
  cases k with
  | zero =>
      rw [List.replicate_zero, List.append_nil, if_neg h, if_neg (by simp)]
  | succ k =>
      have hlast : (kept ++ List.replicate (k + 1) '0').getLast? = some '0' := by
        rw [List.replicate_succ', ← List.append_assoc, List.getLast?_concat]
      rw [if_pos hlast]
      simp

lemma decimalValue_zeros (whole kept : List Char) (k : ℕ) :
    decimalValue whole (kept ++ List.replicate k '0') = decimalValue whole kept := by
  have hten : (10 : ℚ) ^ k ≠ 0 := by positivity
  rw [decimalValue, decimalValue, ← List.append_assoc, Nat.ofDigitChars_append,
    Nat.ofDigitChars_replicate_zero, List.length_append, List.length_replicate, pow_add]
  push_cast
  rw [mul_comm ((10 : ℚ) ^ k), mul_div_mul_right _ _ hten]

/-- **Behind a point, zeros at the end do not count.** -/
lemma numeral_dropZeros {whole fraction : List Char} (hwhole : ∀ c ∈ whole, c.isDigit)
    (hne : whole ≠ []) (hfraction : ∀ c ∈ fraction, c.isDigit) (hplaces : fraction ≠ []) :
    Numeral (dropZeros (whole ++ '.' :: fraction)) (decimalValue whole fraction) := by
  obtain ⟨kept, k, rfl, hkept⟩ := exists_zeros fraction
  have hdigits : ∀ c ∈ kept, c.isDigit := fun c hc => hfraction c (List.mem_append_left _ hc)
  have hsplit : whole ++ '.' :: (kept ++ List.replicate k '0') =
      (whole ++ '.' :: kept) ++ List.replicate k '0' := by
    rw [List.append_assoc, List.cons_append]
  rw [hsplit, decimalValue_zeros]
  by_cases hnil : kept = []
  · subst hnil
    have hk : k ≠ 0 := by
      rintro rfl
      exact hplaces rfl
    have hlast : (whole ++ ['.']).getLast? = some '.' := List.getLast?_concat
    rw [dropZeros_append (by rw [hlast]; decide), if_pos ⟨hk, hlast⟩, List.dropLast_concat]
    exact .whole hwhole hne
  · have hlast : (whole ++ '.' :: kept).getLast? = kept.getLast? := by
      rw [List.getLast?_append_of_ne_nil _ (List.cons_ne_nil _ _),
        List.getLast?_cons_of_ne_nil hnil]
    have hpoint : kept.getLast? ≠ some '.' := fun h =>
      point_notMem hdigits (List.mem_of_getLast? h)
    rw [dropZeros_append (by rw [hlast]; exact hkept), hlast, if_neg fun h => hpoint h.2]
    exact .pointed hwhole hdigits fun h => hne h.1

lemma getLast?_toDigits (m : ℕ) : (Nat.toDigits 10 m).getLast? = some (m % 10).digitChar := by
  rw [Nat.toDigits_eq_if (by decide)]
  split
  next hlt => rw [Nat.mod_eq_of_lt hlt]; rfl
  next => rw [List.getLast?_concat]

lemma digitChar_eq_zero {m : ℕ} : (m % 10).digitChar = '0' ↔ m % 10 = 0 := by
  have hall : ∀ d < 10, Nat.digitChar d = '0' ↔ d = 0 := by decide
  exact hall _ (Nat.mod_lt _ (by decide))

/-- Without a point, they do: they are the factors of ten. -/
lemma numeral_dropZeros_toDigits {m : ℕ} (hm : m ≠ 0) :
    ∃ k v : ℕ, Numeral (dropZeros (Nat.toDigits 10 m)) v ∧ v * 10 ^ k = m ∧
      (k = 0 ↔ m % 10 ≠ 0) := by
  obtain ⟨kept, k, hsplit, hkept⟩ := exists_zeros (Nat.toDigits 10 m)
  have hdigits : ∀ c ∈ kept, c.isDigit := fun c hc =>
    isDigit_toDigits m c (hsplit ▸ List.mem_append_left _ hc)
  have hvalue : Nat.ofDigitChars 10 kept 0 * 10 ^ k = m := by
    rw [Nat.mul_comm, ← Nat.ofDigitChars_replicate_zero, ← Nat.ofDigitChars_append, ← hsplit,
      Nat.ofDigitChars_ten_toDigits]
  have hne : kept ≠ [] := by
    rintro rfl
    rw [Nat.ofDigitChars_nil, Nat.zero_mul] at hvalue
    exact hm hvalue.symm
  refine ⟨k, Nat.ofDigitChars 10 kept 0, ?_, hvalue, ?_⟩
  · rw [hsplit, dropZeros_append hkept, if_neg fun h => point_notMem hdigits
      (List.mem_of_getLast? h.2)]
    have hnumeral := Numeral.whole hdigits hne
    rw [decimalValue, List.append_nil, List.length_nil, pow_zero, div_one] at hnumeral
    exact hnumeral
  · constructor
    · rintro rfl
      rw [List.replicate_zero, List.append_nil] at hsplit
      rw [← hsplit, getLast?_toDigits, ne_eq, Option.some.injEq, digitChar_eq_zero] at hkept
      exact hkept
    · intro hlast
      by_contra hk
      obtain ⟨j, rfl⟩ := Nat.exists_eq_succ_of_ne_zero hk
      rw [Nat.succ_eq_add_one, Nat.pow_succ, ← Nat.mul_assoc] at hvalue
      omega

/-! ### Rounding -/

lemma abs_roundTo_sub_le {x : ℚ} (hx : 0 ≤ x) (places : ℕ) :
    |(roundTo x places : ℚ) / 10 ^ places - x| ≤ 1 / 2 / 10 ^ places := by
  have hten : (0 : ℚ) < 10 ^ places := by positivity
  have hle := Nat.floor_le (a := x * 10 ^ places + 1 / 2) (by positivity)
  have hlt := Nat.lt_floor_add_one (x * 10 ^ places + 1 / 2)
  rw [roundTo, abs_of_nonneg hx]
  have hscale : (⌊x * 10 ^ places + 1 / 2⌋₊ : ℚ) / 10 ^ places - x =
      ((⌊x * 10 ^ places + 1 / 2⌋₊ : ℚ) - x * 10 ^ places) / 10 ^ places := by
    field_simp
  rw [hscale, abs_div, abs_of_pos hten]
  gcongr
  rw [abs_le]
  constructor <;> linarith

lemma roundTo_zero {x : ℚ} (hx : 0 ≤ x) : (roundTo x 0 : ℤ) = ⌊x + 1 / 2⌋ := by
  rw [roundTo, abs_of_nonneg hx, pow_zero, mul_one]
  exact Int.natCast_floor_eq_floor (by positivity)

/-! ### The text of a size -/

/-- The last part of the text. -/
def unitName (n : ℕ) : String := units.getD (scaleDown (units.length - 1) (n : ℚ)).1 ""

lemma sizeUnit_unitName (n : ℕ) :
    SizeUnit (unitName n).toList (unitBytes n) ∧ (unitName n).toList ≠ ['b'] ∧
      (unitName n).toList ≠ [] := by
  have hall : ∀ i ≤ units.length - 1, (lower (units.getD i "").toList, 1024 ^ i) ∈ lowerUnits ∧
      (units.getD i "").toList ≠ ['b'] ∧ (units.getD i "").toList ≠ [] := by decide
  obtain ⟨hmem, hne⟩ := hall _ (scaleDown_spec le_rfl (n : ℚ)).1
  exact ⟨sizeUnit_iff.mpr (.inr hmem), hne⟩

lemma formatBytes_eq (h : n ≠ 0) (decimals : ℕ) :
    formatBytes n decimals =
      (if Int.fract (inUnits n) = 0 then
        .ok (Number.ofScaled false (inUnits n).num.natAbs 0).toString
      else (toFixed (inUnits n) decimals).map fun text =>
        String.ofList (dropZeros text.toList)).map fun text => text ++ " " ++ unitName n := by
  have hne : (n : ℚ) ≠ 0 := by exact_mod_cast h
  rw [formatBytes, if_neg hne, abs_of_nonneg n.cast_nonneg]
  dsimp only
  rw [if_neg (not_lt.mpr n.cast_nonneg)]
  simp only [String.empty_append]
  rfl

/-- **A numeral and a unit are parsed.** -/
lemma parseSize_formatted {formatted : String} {value : ℚ}
    (hnumber : Numeral formatted.toList value) (hfinite : value * unitBytes n < overflow) :
    parseSizeWith id (.string (formatted ++ " " ++ unitName n)) =
      .ok (.finite ⌊value * unitBytes n + 1 / 2⌋) := by
  obtain ⟨hunit, hb, hne⟩ := sizeUnit_unitName n
  have htext : (formatted ++ " " ++ unitName n).toList =
      formatted.toList ++ ([' '] ++ (unitName n).toList) := by
    rw [String.toList_append, String.toList_append, List.append_assoc]
    rfl
  have htrim : trim (formatted ++ " " ++ unitName n).toList =
      (formatted ++ " " ++ unitName n).toList := by
    rw [htext]
    refine trim_eq_self (fun c hc => ?_) fun c hc => ?_
    · rw [List.head?_append_of_ne_nil _ hnumber.ne_nil] at hc
      exact (hnumber.isDotted.ne (List.mem_of_mem_head? hc)).2.2.2.2.2
    · rw [List.getLast?_append_of_ne_nil _ (List.append_ne_nil_of_right_ne_nil _ hne),
        List.getLast?_append_of_ne_nil _ hne] at hc
      exact isWhiteSpace_of_isAlpha (hunit.isAlpha c (List.mem_of_getLast? hc))
  refine parseSize_of_numeral rounding_id ?_ hnumber hunit hb hfinite
  rw [htrim, htext]
  exact matchSize_append hnumber.isDotted hnumber.ne_nil (by decide) hunit.isAlpha

/-- What is off by less than a unit is not too large. -/
lemma lt_overflow (hn : n ≤ 2 ^ 53) {value : ℚ} (hvalue : value ≤ inUnits n + 1) :
    value * unitBytes n < overflow := by
  have hpos := unitBytes_pos n
  have hn' : (n : ℚ) ≤ 2 ^ 53 := by exact_mod_cast hn
  have hbound : (2 : ℚ) ^ 53 + 1024 ^ 4 < overflow := by decide +kernel
  calc value * unitBytes n
      ≤ (inUnits n + 1) * unitBytes n := mul_le_mul_of_nonneg_right hvalue hpos.le
    _ = n + unitBytes n := by rw [add_mul, inUnits_mul_unitBytes, one_mul]
    _ ≤ 2 ^ 53 + 1024 ^ 4 := add_le_add hn' (unitBytes_le n)
    _ < overflow := hbound

/-- The size that is read from the text. -/
lemma readsBack_of_numeral {decimals : ℕ} (hn : n ≤ 2 ^ 53) {formatted : String} {value : ℚ}
    (hformat : formatBytes n decimals = .ok (formatted ++ " " ++ unitName n))
    (hnumber : Numeral formatted.toList value) (hvalue : value ≤ inUnits n + 1) :
    ReadsBack n decimals ↔ |(⌊value * unitBytes n + 1 / 2⌋ : ℚ) - n| ≤
      1 / 2 / 10 ^ decimals * unitBytes n + 1 / 2 := by
  have hparse := parseSize_formatted hnumber (lt_overflow hn hvalue)
  constructor
  · rintro ⟨text, bytes, hok, hread, hclose⟩
    rw [hformat] at hok
    rw [← Except.ok.inj hok, hparse] at hread
    rw [← Double.finite.inj (Except.ok.inj hread)] at hclose
    exact hclose
  · exact fun hclose => ⟨_, _, hformat, hparse, hclose⟩

/-- **What is near the size is read back.** -/
lemma readsBack_of_near {decimals : ℕ} (hn : n ≤ 2 ^ 53) {formatted : String} {value : ℚ}
    (hformat : formatBytes n decimals = .ok (formatted ++ " " ++ unitName n))
    (hnumber : Numeral formatted.toList value)
    (hnear : |value - inUnits n| ≤ 1 / 2 / 10 ^ decimals) : ReadsBack n decimals := by
  have hpos := unitBytes_pos n
  have hten : (1 : ℚ) ≤ 10 ^ decimals := one_le_pow₀ (by norm_num)
  have hpow : (1 : ℚ) / 2 / 10 ^ decimals ≤ 1 :=
    (div_le_one (zero_lt_one.trans_le hten)).mpr (by linarith)
  have hvalue : value ≤ inUnits n + 1 := by linarith [(abs_le.mp hnear).2]
  rw [readsBack_of_numeral hn hformat hnumber hvalue]
  have hround : |(⌊value * unitBytes n + 1 / 2⌋ : ℚ) - value * unitBytes n| ≤ 1 / 2 := by
    rw [← round_eq, abs_sub_comm]
    exact abs_sub_round _
  have hscaled : |value * unitBytes n - n| ≤ 1 / 2 / 10 ^ decimals * unitBytes n := by
    rw [← inUnits_mul_unitBytes n, ← sub_mul, abs_mul, abs_of_pos hpos]
    exact mul_le_mul_of_nonneg_right hnear hpos.le
  calc |(⌊value * unitBytes n + 1 / 2⌋ : ℚ) - n|
      ≤ |(⌊value * unitBytes n + 1 / 2⌋ : ℚ) - value * unitBytes n| +
          |value * unitBytes n - n| := abs_sub_le _ _ _
    _ ≤ 1 / 2 / 10 ^ decimals * unitBytes n + 1 / 2 := by linarith

/-! ### What is read back -/

lemma inUnits_le (n : ℕ) : inUnits n ≤ n := by
  have hone : (1 : ℚ) ≤ unitBytes n := by
    rw [unitBytes]
    exact_mod_cast Nat.one_le_pow _ _ (by decide)
  calc inUnits n ≤ inUnits n * unitBytes n := le_mul_of_one_le_right (inUnits_nonneg n) hone
    _ = n := inUnits_mul_unitBytes n

/-- A whole number of units is written with its digits. -/
lemma numeral_whole (hn : n ≤ 2 ^ 53) (h : Int.fract (inUnits n) = 0) :
    Numeral (Number.ofScaled false (inUnits n).num.natAbs 0).toString.toList (inUnits n) := by
  have hwhole : ((inUnits n).num.natAbs : ℚ) = inUnits n := by
    have hnum : ((inUnits n).num : ℚ) = inUnits n := by
      obtain ⟨z, hz⟩ := Int.fract_eq_zero_iff.mp h
      rw [← hz, Rat.num_intCast]
    rw [Nat.cast_natAbs, abs_of_nonneg (Rat.num_nonneg.mpr (inUnits_nonneg n)), hnum]
  have hlt : (inUnits n).num.natAbs < 10 ^ 21 := by
    have hle : ((inUnits n).num.natAbs : ℚ) ≤ (2 ^ 53 : ℕ) :=
      hwhole.trans_le ((inUnits_le n).trans (by exact_mod_cast hn))
    have hle : (inUnits n).num.natAbs ≤ 2 ^ 53 := by exact_mod_cast hle
    omega
  obtain ⟨whole, htext, hdigits, hne, hvalue⟩ := Number.exists_digits_toString hlt
  have hnumeral := Numeral.whole hdigits hne
  rw [decimalValue, List.append_nil, hvalue, List.length_nil, pow_zero, div_one, hwhole] at hnumeral
  rwa [htext]

/-- The text of a number that is not whole. -/
lemma formatBytes_places (h : n ≠ 0) (hfract : Int.fract (inUnits n) ≠ 0) {decimals : ℕ}
    (hdecimals : decimals ≤ 100) :
    formatBytes n decimals =
      .ok (String.ofList (dropZeros (pointed (roundTo (inUnits n) decimals) decimals).toList) ++
        " " ++ unitName n) := by
  rw [formatBytes_eq h, if_neg hfract, toFixed, if_neg (not_lt.mpr hdecimals), fixedText,
    Metrics.Prometheus.signed, if_neg (not_lt.mpr (inUnits_nonneg n))]
  rfl

/-- Places are written, up to their zeros. -/
lemma numeral_pointed {places : ℕ} (hplaces : places ≠ 0) (digits : ℕ) :
    Numeral (dropZeros (pointed digits places).toList) (digits / 10 ^ places) := by
  obtain ⟨hlength, hvalue⟩ := Metrics.Prometheus.digits_pointed hplaces digits
  have hdigits : ∀ c ∈ List.replicate
      (places - (Nat.toDigits 10 (digits % 10 ^ places)).length) '0' ++
        Nat.toDigits 10 (digits % 10 ^ places), c.isDigit := by
    intro c hc
    rcases List.mem_append.mp hc with hc | hc
    · rw [List.eq_of_mem_replicate hc]
      rfl
    · exact isDigit_toDigits _ c hc
  have hnumeral := numeral_dropZeros (isDigit_toDigits (digits / 10 ^ places)) Nat.toDigits_ne_nil
    hdigits (List.append_ne_nil_of_right_ne_nil _ Nat.toDigits_ne_nil)
  rw [decimalValue, hvalue, hlength] at hnumeral
  rwa [toList_pointed hplaces]

/-- Without places, a rounded number is written up to its zeros. -/
lemma numeral_rounded (h : n ≠ 0) :
    ∃ k v : ℕ, Numeral (dropZeros (pointed (roundTo (inUnits n) 0) 0).toList) v ∧
      v * 10 ^ k = roundTo (inUnits n) 0 ∧ (k = 0 ↔ ⌊inUnits n + 1 / 2⌋ % 10 ≠ 0) := by
  have hround := roundTo_zero (inUnits_nonneg n)
  have hne : roundTo (inUnits n) 0 ≠ 0 := by
    have hone : (1 : ℤ) ≤ ⌊inUnits n + 1 / 2⌋ :=
      Int.le_floor.mpr (by push_cast; linarith [one_le_inUnits h])
    omega
  obtain ⟨k, v, hnumeral, hvalue, hk⟩ := numeral_dropZeros_toDigits hne
  refine ⟨k, v, ?_, hvalue, ?_⟩
  · rw [Metrics.Prometheus.pointed, if_pos rfl, toList_toString]
    exact hnumeral
  · rw [hk, ← hround]
    omega

lemma readsBack_of_keepsPlaces {decimals : ℕ} (hn : n ≤ 2 ^ 53) (h : KeepsPlaces n decimals) :
    ReadsBack n decimals := by
  by_cases hzero : n = 0
  · subst hzero
    have hvalue : decimalValue "0".toList [] = inUnits 0 := by
      rw [inUnits_zero, decimalValue, List.append_nil, List.length_nil, pow_zero, div_one]
      rfl
    have hnumeral : Numeral "0".toList (inUnits 0) :=
      hvalue ▸ Numeral.whole (by decide) (by decide)
    have hformat : formatBytes (0 : ℕ) decimals = .ok ("0" ++ " " ++ unitName 0) := if_pos rfl
    exact readsBack_of_near hn hformat hnumeral (by rw [sub_self, abs_zero]; positivity)
  by_cases hfract : Int.fract (inUnits n) = 0
  · have hformat := formatBytes_eq hzero decimals
    rw [if_pos hfract] at hformat
    exact readsBack_of_near hn hformat (numeral_whole hn hfract)
      (by rw [sub_self, abs_zero]; positivity)
  obtain ⟨hdecimals, hplaces⟩ := h.resolve_left hfract
  have hformat := formatBytes_places hzero hfract hdecimals
  have hnear := abs_roundTo_sub_le (inUnits_nonneg n) decimals
  by_cases hpos : decimals = 0
  · subst hpos
    obtain ⟨k, v, hnumeral, hvalue, hk⟩ := numeral_rounded hzero
    obtain rfl : k = 0 := hk.mpr (hplaces.resolve_left (by decide))
    rw [pow_zero, mul_one] at hvalue
    rw [← hvalue, pow_zero, div_one] at hnear
    exact readsBack_of_near hn hformat (by rwa [String.toList_ofList]) hnear
  · exact readsBack_of_near hn hformat
      (by rw [String.toList_ofList]; exact numeral_pointed hpos _) hnear

/-- **A zero of the whole part is worth more than half a unit.** -/
lemma not_readsBack_of_zeros (hn : n ≤ 2 ^ 53) (hfract : Int.fract (inUnits n) ≠ 0)
    (hzeros : ⌊inUnits n + 1 / 2⌋ % 10 = 0) : ¬ ReadsBack n 0 := by
  have hzero : n ≠ 0 := by
    rintro rfl
    exact hfract (by rw [inUnits_zero, Int.fract_zero])
  obtain ⟨k, v, hnumeral, hvalue, hk⟩ := numeral_rounded hzero
  have hk : k ≠ 0 := fun hk0 => hk.mp hk0 hzeros
  have hten : 10 * v ≤ roundTo (inUnits n) 0 := by
    rw [← hvalue, Nat.mul_comm]
    exact Nat.mul_le_mul_left _ (Nat.le_self_pow hk 10)
  have hround := abs_roundTo_sub_le (inUnits_nonneg n) 0
  rw [pow_zero, div_one, div_one] at hround
  obtain ⟨hlow, hhigh⟩ := abs_le.mp hround
  have hpositive : v ≠ 0 := by
    rintro rfl
    rw [Nat.zero_mul] at hvalue
    rw [← hvalue, Nat.cast_zero] at hhigh hlow
    linarith [one_le_inUnits hzero]
  have hv : (1 : ℚ) ≤ v := by exact_mod_cast Nat.one_le_iff_ne_zero.mpr hpositive
  have hten : (10 : ℚ) * v ≤ roundTo (inUnits n) 0 := by exact_mod_cast hten
  have hformat := formatBytes_places hzero hfract (Nat.zero_le 100)
  rw [readsBack_of_numeral hn hformat (by rwa [String.toList_ofList]) (by linarith)]
  intro hclose
  have hpos := unitBytes_pos n
  have hunit : (1 : ℚ) ≤ unitBytes n := by exact_mod_cast hpos
  -- ten times what is read is rounded to at most half a unit more than the size
  have hsize : (10 * (v : ℚ) - 1 / 2) * unitBytes n ≤ n := by
    rw [← inUnits_mul_unitBytes n]
    exact mul_le_mul_of_nonneg_right (by linarith) hpos.le
  have hread : (unitBytes n : ℚ) ≤ v * unitBytes n := le_mul_of_one_le_left hpos.le hv
  have hfloor := Int.floor_le ((v : ℚ) * unitBytes n + 1 / 2)
  rw [pow_zero, div_one] at hclose
  linarith [(abs_le.mp hclose).1]

/-- **A size is read back exactly if its places are kept.** -/
theorem readsBack_iff_keepsPlaces (n decimals : ℕ) (hn : n ≤ 2 ^ 53) :
    ReadsBack n decimals ↔ KeepsPlaces n decimals := by
  refine ⟨fun h => ?_, readsBack_of_keepsPlaces hn⟩
  by_contra hkeeps
  rw [KeepsPlaces, not_or] at hkeeps
  obtain ⟨hfract, hplaces⟩ := hkeeps
  have hzero : n ≠ 0 := by
    rintro rfl
    exact hfract (by decide +kernel)
  by_cases hdecimals : decimals ≤ 100
  · obtain ⟨hpos, hzeros⟩ := not_or.mp fun hor => hplaces ⟨hdecimals, hor⟩
    obtain rfl : decimals = 0 := by omega
    exact not_readsBack_of_zeros hn hfract (not_not.mp hzeros) h
  · obtain ⟨text, bytes, hok, -⟩ := h
    rw [formatBytes_eq hzero, if_neg hfract, toFixed, if_pos (by omega)] at hok
    cases hok

/-- Half a hundredth of a unit. -/
theorem readsBack_iff_keepsPlaces_1588 : 1588 ≤ 2 ^ 53 ∧ ReadsBack 1588 2 :=
  ⟨by decide, (readsBack_iff_keepsPlaces 1588 2 (by decide)).mpr
    (.inr ⟨by decide, .inl (by decide)⟩)⟩

/-- Ten units are written as one. -/
theorem not_readsBack : ¬ ∀ n decimals : ℕ, n ≤ 2 ^ 53 → ReadsBack n decimals := by
  intro h
  obtain ⟨text, bytes, hok, hread, hclose⟩ := h 10445 0 (by decide)
  have hformat : formatBytes (10445 : ℕ) 0 = .ok "1 KB" := by decide +kernel
  rw [hformat] at hok
  have hparse : parseSizeWith id (.string "1 KB") = .ok (.finite 1024) := by decide +kernel
  rw [← Except.ok.inj hok, hparse] at hread
  rw [← Double.finite.inj (Except.ok.inj hread)] at hclose
  exact absurd hclose (by decide +kernel)

end Blaize.Upload
