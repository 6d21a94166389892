import Mathlib.Tactic.Linarith
import Blaize.Lib.ParseFloat
import Blaize.Upload.Form

/-!
Size strings (`packages/blaize-core/src/upload/parse-size.ts`).

A text is split by `/^(-?[\d.]+)\s*([A-Za-z]+)?$/`, the number is read by `parseFloat` and the unit
is looked up with `in`.  Each of the three takes more than it should: the expression any number of
points, `parseFloat` a text that only starts with a number, and `in` the members that every object
inherits.  What is read is the nearest double; the products with the units are exact.

* `parseSize`: the function, on texts and on numbers;
* `Denotes`: the sizes that the documentation describes;
* `denotes_iff`: the expression finds the parts of a size;
* `multiplier_eq_some_iff`: what the units come to;
* `Slip`: where the function goes wrong;
* `parsesExactly_iff_sound`: **a text is parsed exactly if and only if it is no slip**;
* `not_parsesExactly`: `1.2.3KB` is accepted.
-/

namespace Blaize.Upload

open Js

/-! ### The function -/

/-- `SIZE_UNITS` -/
def sizeUnits : List (String × ℕ) :=
  [("B", 1), ("KB", 1024), ("MB", 1024 ^ 2), ("GB", 1024 ^ 3), ("TB", 1024 ^ 4),
    ("KiB", 1024), ("MiB", 1024 ^ 2), ("GiB", 1024 ^ 3), ("TiB", 1024 ^ 4)]

/-- `SIZE_UNITS[name]` as a factor, for a `name in SIZE_UNITS`; an inherited member is no number. -/
def multiplier (name : String) : Option Double :=
  match sizeUnits.lookup name with
  | some factor => some (.finite factor)
  | none => if name ∈ objectMembers then some .nan else none

/-- A digit or a point. -/
def isDotted (c : Char) : Bool := c.isDigit || c == '.'

/-- `trimmed.match(/^(-?[\d.]+)\s*([A-Za-z]+)?$/)`: the two groups.  The classes have no character
in common, so that only the longest runs can match. -/
def matchSize (trimmed : List Char) : Option (List Char × List Char) :=
  let (negative, text) := signAt trimmed
  let number := text.takeWhile isDotted
  let unit := (text.dropWhile isDotted).dropWhile isWhiteSpace
  if number ≠ [] ∧ unit.all Char.isAlpha then
    some (if negative then '-' :: number else number, unit)
  else none

/-- `unitStr.replace(/^([kmgt])(i)?b$/i, …)` -/
def normalizeUnit (unit : List Char) : List Char :=
  match unit.map Char.toLower with
  | [base, 'b'] => if base ∈ ['k', 'm', 'g', 't'] then [base.toUpper, 'B'] else unit
  | [base, 'i', 'b'] => if base ∈ ['k', 'm', 'g', 't'] then [base.toUpper, 'i', 'B'] else unit
  | _ => unit

/-- What `parseSize` takes. -/
inductive Size where
  | number (size : Double)
  | string (size : String)

/-- `parseSize`, with any rounding; an error is the message of the `ValidationError`. -/
def parseSizeWith (round : ℚ → ℚ) : Size → Except String Double
  | .number .nan => .error "Invalid size format: NaN is not a valid size"
  | .number (.infinity _) => .error "Size cannot be Infinity"
  | .number (.finite size) =>
      if size < 0 then .error "Size cannot be negative" else .ok (Double.finite size).round
  | .string size =>
      let trimmed := trim size.toList
      if trimmed = [] then .error "Invalid size format: empty string"
      else match matchSize trimmed with
        | none => .error s!"Invalid size format: \"{size}\""
        | some (numberStr, unitStr) =>
            match parseFloatWith round numberStr with
            | .nan => .error s!"Invalid size format: \"{size}\" contains invalid number"
            | .infinity _ => .error "Size cannot be Infinity"
            | .finite number =>
                if number < 0 then .error "Size cannot be negative"
                else if unitStr = [] then .ok (Double.finite number).round
                else match multiplier (String.ofList (normalizeUnit unitStr)) with
                  | none =>
                      .error ("Invalid size unit: " ++ String.ofList unitStr ++
                        ". Supported units: " ++ ", ".intercalate (sizeUnits.map Prod.fst))
                  | some factor => .ok (Double.scale round number factor).round

/-- `parseSize` -/
def parseSize : Size → Except String Double := parseSizeWith nearest

/-- The factor of a unit, `1` without one. -/
def factorOf (unit : List Char) : Option Double :=
  if unit = [] then some (.finite 1) else multiplier (String.ofList (normalizeUnit unit))

/-! ### The sizes -/

/-- A unit in any case, with its number of bytes; without one, a size is in bytes. -/
inductive SizeUnit : List Char → ℕ → Prop
  | none : SizeUnit [] 1
  | named {unit : List Char} {name : String} {factor : ℕ} (hmem : (name, factor) ∈ sizeUnits)
      (hname : unit.map Char.toLower = name.toList.map Char.toLower) : SizeUnit unit factor

/-- A numeral, white space and a unit, with the number of bytes. -/
inductive Denotes : List Char → ℤ → Prop
  | size {number space unit : List Char} {value : ℚ} {factor : ℕ} (hnumber : Numeral number value)
      (hspace : ∀ c ∈ space, isWhiteSpace c) (hunit : SizeUnit unit factor) :
      Denotes (number ++ (space ++ unit)) ⌊value * factor + 1 / 2⌋

/-- The text is parsed if and only if it is a size, and then to its number of bytes. -/
def ParsesExactly (size : String) : Prop :=
  ∀ result, parseSize (.string size) = .ok result ↔
    ∃ bytes, Denotes (trim size.toList) bytes ∧ result = .finite bytes

/-- What the function accepts although it is no size, or does not parse although it is one, by the
number and the unit that the expression finds. -/
inductive Slip : List Char → List Char → Prop
  /-- A sign before a zero, or before what is as near to it as nothing else. -/
  | zero {number unit : List Char} {value : ℚ} (hvalue : leading number = some value)
      (hzero : nearest value = 0) (hunit : (factorOf unit).isSome) : Slip ('-' :: number) unit
  /-- More than one point, behind a number. -/
  | points {number unit : List Char} {value : ℚ} (hvalue : leading number = some value)
      (hpoints : 2 ≤ number.count '.') (hfinite : value < overflow)
      (hunit : (factorOf unit).isSome) : Slip number unit
  /-- The one unit that is not found in lower case. -/
  | bytes {number : List Char} {value : ℚ} (hvalue : Numeral number value) : Slip number ['b']
  /-- A member that every object inherits. -/
  | inherited {number unit : List Char} {value : ℚ} (hvalue : Numeral number value)
      (hfinite : value < overflow) (hunit : String.ofList unit ∈ objectMembers) :
      Slip number unit
  /-- A number whose nearest double is too large with its unit. -/
  | large {number unit : List Char} {value : ℚ} {factor : ℕ} (hvalue : Numeral number value)
      (hunit : SizeUnit unit factor) (hlarge : overflow ≤ nearest value * factor) :
      Slip number unit
  /-- A number that has a half between its bytes and those of its nearest double. -/
  | rounded {number unit : List Char} {value : ℚ} {factor : ℕ} {half : ℤ}
      (hvalue : Numeral number value) (hunit : SizeUnit unit factor)
      (hhalf : ¬ (value * factor < half + 1 / 2 ↔ nearest value * factor < half + 1 / 2)) :
      Slip number unit

/-- No slip. -/
def Sound (size : String) : Prop :=
  ∀ number unit, matchSize (trim size.toList) = some (number, unit) → ¬ Slip number unit

/-! ### Units -/

/-- A text in lower case. -/
def lower (text : List Char) : List Char := text.map Char.toLower

/-- What stands for a power of 1024. -/
def bases : List Char := ['k', 'm', 'g', 't']

lemma normalizeUnit_cases (unit : List Char) :
    (∃ base ∈ bases,
      lower unit = [base, 'b'] ∧ normalizeUnit unit = [base.toUpper, 'B'] ∨
        lower unit = [base, 'i', 'b'] ∧ normalizeUnit unit = [base.toUpper, 'i', 'B']) ∨
      normalizeUnit unit = unit ∧
        ∀ base ∈ bases, lower unit ≠ [base, 'b'] ∧ lower unit ≠ [base, 'i', 'b'] := by
  unfold normalizeUnit
  split
  next base hunit =>
    by_cases hbase : base ∈ ['k', 'm', 'g', 't']
    · exact .inl ⟨base, hbase, .inl ⟨hunit, if_pos hbase⟩⟩
    · refine .inr ⟨if_neg hbase, fun base' hbase' => ⟨?_, ?_⟩⟩
      · rw [lower, hunit]
        rintro ⟨⟩
        exact hbase hbase'
      · rw [lower, hunit]
        rintro ⟨⟩
  next base hunit =>
    by_cases hbase : base ∈ ['k', 'm', 'g', 't']
    · exact .inl ⟨base, hbase, .inr ⟨hunit, if_pos hbase⟩⟩
    · refine .inr ⟨if_neg hbase, fun base' hbase' => ⟨?_, ?_⟩⟩
      · rw [lower, hunit]
        rintro ⟨⟩
      · rw [lower, hunit]
        rintro ⟨⟩
        exact hbase hbase'
  next hshort hlong =>
    exact .inr ⟨rfl, fun base _ => ⟨hshort base, hlong base⟩⟩

/-- The units in lower case. -/
def lowerUnits : List (List Char × ℕ) := sizeUnits.map fun p => (lower p.1.toList, p.2)

lemma sizeUnit_iff {unit : List Char} {n : ℕ} :
    SizeUnit unit n ↔ unit = [] ∧ n = 1 ∨ (lower unit, n) ∈ lowerUnits := by
  constructor
  · rintro (_ | ⟨hmem, hname⟩)
    · exact .inl ⟨rfl, rfl⟩
    · exact .inr (List.mem_map.mpr ⟨_, hmem, Prod.ext hname.symm rfl⟩)
  · rintro (⟨rfl, rfl⟩ | hmem)
    · exact .none
    · obtain ⟨⟨name, _⟩, hname, heq⟩ := List.mem_map.mp hmem
      obtain ⟨hlower, rfl⟩ := Prod.mk.inj heq
      exact .named hname hlower.symm

/-- The inherited members in lower case. -/
def lowerMembers : List (List Char) := objectMembers.map fun name => lower name.toList

lemma lower_mem_lowerMembers {unit : List Char} (h : String.ofList unit ∈ objectMembers) :
    lower unit ∈ lowerMembers := List.mem_map.mpr ⟨_, h, by rw [String.toList_ofList]⟩

/-- What a factor is found for. -/
def Finds (unit : List Char) (factor : Double) : Prop :=
  (∃ n : ℕ, factor = .finite n ∧ SizeUnit unit n ∧ unit ≠ ['b']) ∨
    factor = .nan ∧ String.ofList unit ∈ objectMembers

/-- A unit that is found in lower case as well. -/
def IsLower (text : List Char) (n : ℕ) : Prop :=
  text ≠ [] ∧ text ≠ ['b'] ∧ (text, n) ∈ lowerUnits ∧ (∀ p ∈ lowerUnits, p.1 = text → p.2 = n) ∧
    text ∉ lowerMembers

instance (text : List Char) (n : ℕ) : Decidable (IsLower text n) :=
  decidable_of_iff
    (text ≠ [] ∧ text ≠ ['b'] ∧ (text, n) ∈ lowerUnits ∧
      (∀ p ∈ lowerUnits, p.1 = text → p.2 = n) ∧ ∀ m ∈ lowerMembers, m ≠ text)
    (by simp only [IsLower, ← List.forall_mem_ne'])

variable {unit : List Char} {factor : Double}

lemma IsLower.finds_iff {n : ℕ} (h : IsLower (lower unit) n) :
    Finds unit factor ↔ factor = .finite n := by
  obtain ⟨hne, hb, hmem, hunique, hmember⟩ := h
  constructor
  · rintro (⟨m, rfl, hunit, -⟩ | ⟨-, hunit⟩)
    · rcases sizeUnit_iff.mp hunit with ⟨rfl, -⟩ | hm
      · exact absurd rfl hne
      · exact congrArg (fun k : ℕ => Double.finite k) (hunique _ hm rfl)
    · exact absurd (lower_mem_lowerMembers hunit) hmember
  · rintro rfl
    refine .inl ⟨n, rfl, sizeUnit_iff.mpr (.inr hmem), ?_⟩
    rintro rfl
    exact hb rfl

/-- The units of a power are found. -/
lemma found_of_base {base : Char} (h : base ∈ bases) :
    (∃ n, IsLower [base, 'b'] n ∧
        multiplier (String.ofList [base.toUpper, 'B']) = some (.finite n)) ∧
      ∃ n, IsLower [base, 'i', 'b'] n ∧
        multiplier (String.ofList [base.toUpper, 'i', 'B']) = some (.finite n) := by
  have hcases : base = 'k' ∨ base = 'm' ∨ base = 'g' ∨ base = 't' := by simpa [bases] using h
  rcases hcases with rfl | rfl | rfl | rfl
  · exact ⟨⟨1024, by decide, by decide⟩, ⟨1024, by decide, by decide⟩⟩
  · exact ⟨⟨1024 ^ 2, by decide, by decide⟩, ⟨1024 ^ 2, by decide, by decide⟩⟩
  · exact ⟨⟨1024 ^ 3, by decide, by decide⟩, ⟨1024 ^ 3, by decide, by decide⟩⟩
  · exact ⟨⟨1024 ^ 4, by decide, by decide⟩, ⟨1024 ^ 4, by decide, by decide⟩⟩

lemma lower_eq_b_iff : lower unit = ['b'] ↔ unit = ['b'] ∨ unit = ['B'] := by
  constructor
  · intro h
    obtain ⟨c, rest, rfl, hc, hrest⟩ := List.map_eq_cons_iff.mp h
    rw [List.map_eq_nil_iff.mp hrest]
    unfold Char.toLower at hc
    split at hc
    next =>
      have hval := congrArg Char.val hc
      have hc : c = 'B' := Char.ext (by grind)
      exact .inr (by rw [hc])
    next => exact .inl (by rw [hc])
  · rintro (rfl | rfl) <;> rfl

/-- A unit in lower case is a byte or has a base. -/
lemma lowerUnits_cases {text : List Char} {n : ℕ} (h : (text, n) ∈ lowerUnits) :
    text = ['b'] ∧ n = 1 ∨ ∃ base ∈ bases, text = [base, 'b'] ∨ text = [base, 'i', 'b'] := by
  have hall : ∀ p ∈ lowerUnits, p.1 = ['b'] ∧ p.2 = 1 ∨
      bases.any (fun base => p.1 = [base, 'b'] ∨ p.1 = [base, 'i', 'b']) = true := by decide
  refine (hall (text, n) h).imp_right fun hany => ?_
  obtain ⟨base, hbase, hform⟩ := List.any_eq_true.mp hany
  exact ⟨base, hbase, of_decide_eq_true hform⟩

/-- Other units are found as they are. -/
lemma multiplier_eq_some_iff
    (h : ∀ base ∈ bases, lower unit ≠ [base, 'b'] ∧ lower unit ≠ [base, 'i', 'b'])
    (hne : unit ≠ []) : multiplier (String.ofList unit) = some factor ↔ Finds unit factor := by
  have hunit {n : ℕ} (hn : SizeUnit unit n) : lower unit = ['b'] ∧ n = 1 := by
    rcases sizeUnit_iff.mp hn with ⟨hnil, -⟩ | hmem
    · exact absurd hnil hne
    rcases lowerUnits_cases hmem with hb | ⟨base, hbase, hshort | hlong⟩
    · exact hb
    · exact absurd hshort (h base hbase).1
    · exact absurd hlong (h base hbase).2
  by_cases hb : lower unit = ['b']
  · rcases lower_eq_b_iff.mp hb with rfl | rfl
    · have hnone : multiplier (String.ofList ['b']) = none := by decide
      have hmember : String.ofList ['b'] ∉ objectMembers := by decide
      rw [hnone]
      constructor
      · nofun
      · rintro (⟨-, -, -, hne⟩ | ⟨-, hmem⟩)
        · exact absurd rfl hne
        · exact absurd hmem hmember
    · have hone : multiplier (String.ofList ['B']) = some (.finite (1 : ℕ)) := by decide
      have hmember : String.ofList ['B'] ∉ objectMembers := by decide
      rw [hone, Option.some.injEq]
      constructor
      · rintro rfl
        exact .inl ⟨1, rfl, sizeUnit_iff.mpr (.inr (by decide)), by decide⟩
      · rintro (⟨n, rfl, hn, -⟩ | ⟨-, hmem⟩)
        · rw [(hunit hn).2]
        · exact absurd hmem hmember
  · have hnone : sizeUnits.lookup (String.ofList unit) = none := by
      rw [List.lookup_eq_none_iff]
      rintro ⟨name, n⟩ hmem
      rw [bne_iff_ne]
      rintro rfl
      exact hb (hunit (.named hmem (by rw [String.toList_ofList]))).1
    rw [multiplier, hnone]
    constructor
    · intro hfactor
      split_ifs at hfactor with hmember
      exact .inr ⟨(Option.some.inj hfactor).symm, hmember⟩
    · rintro (⟨n, -, hn, -⟩ | ⟨rfl, hmember⟩)
      · exact absurd (hunit hn).1 hb
      · exact if_pos hmember

/-- **The factors that are found**: those of the units in any case, but for `b`, and the inherited
members. -/
lemma factorOf_eq_some_iff : factorOf unit = some factor ↔ Finds unit factor := by
  by_cases hne : unit = []
  · subst hne
    have hmember : String.ofList [] ∉ objectMembers := by decide
    have hone : factorOf [] = some (.finite (1 : ℕ)) := by decide
    rw [hone, Option.some.injEq]
    constructor
    · rintro rfl
      exact .inl ⟨1, rfl, .none, by decide⟩
    · rintro (⟨n, rfl, hn, -⟩ | ⟨-, hmem⟩)
      · rcases sizeUnit_iff.mp hn with ⟨-, rfl⟩ | hmem
        · rfl
        · have hall : ∀ p ∈ lowerUnits, p.1 ≠ [] := by decide
          exact absurd rfl (hall _ hmem)
      · exact absurd hmem hmember
  rw [factorOf, if_neg hne]
  rcases normalizeUnit_cases unit with ⟨base, hbase, h⟩ | ⟨hnormal, hbases⟩
  · obtain ⟨hshort, hlong⟩ := found_of_base hbase
    rcases h with ⟨hunit, hnormal⟩ | ⟨hunit, hnormal⟩
    · obtain ⟨n, hn, hfound⟩ := hshort
      rw [hnormal, hfound, (hunit ▸ hn : IsLower (lower unit) n).finds_iff, Option.some.injEq]
      exact eq_comm
    · obtain ⟨n, hn, hfound⟩ := hlong
      rw [hnormal, hfound, (hunit ▸ hn : IsLower (lower unit) n).finds_iff, Option.some.injEq]
      exact eq_comm
  · rw [hnormal]
    exact multiplier_eq_some_iff hbases hne

/-! ### The parts of a text -/

lemma isDotted_iff {c : Char} : isDotted c = true ↔ c.isDigit ∨ c = '.' := by
  rw [isDotted, Bool.or_eq_true, beq_iff_eq]

lemma toNat_of_isAlpha {c : Char} (h : c.isAlpha) : 65 ≤ c.toNat ∧ c.toNat ≤ 122 := by
  delta Char.isAlpha Char.isUpper Char.isLower at h
  simp only [Bool.or_eq_true, Bool.and_eq_true, decide_eq_true_eq, ge_iff_le,
    UInt32.le_iff_toNat_le] at h
  change (65 ≤ c.toNat ∧ c.toNat ≤ 90) ∨ (97 ≤ c.toNat ∧ c.toNat ≤ 122) at h
  omega

lemma isDotted_false {c : Char} (h : isWhiteSpace c ∨ c.isAlpha) : isDotted c = false := by
  rw [Bool.eq_false_iff]
  intro hc
  rcases isDotted_iff.mp hc with hdigit | rfl
  · rcases h with hwhite | halpha
    · rw [Number.isWhiteSpace_of_isDigit hdigit] at hwhite
      cases hwhite
    · obtain ⟨-, hupper⟩ := toNat_of_isDigit hdigit
      obtain ⟨hlower, -⟩ := toNat_of_isAlpha halpha
      omega
  · revert h
    decide

lemma isWhiteSpace_of_isAlpha {c : Char} (h : c.isAlpha) : isWhiteSpace c = false := by
  obtain ⟨hlower, hupper⟩ := toNat_of_isAlpha h
  rw [Bool.eq_false_iff]
  intro hwhite
  simp [isWhiteSpace] at hwhite
  omega

/-- The longest run of a class. -/
lemma run_append {p : Char → Bool} {text rest : List Char} (htext : ∀ c ∈ text, p c)
    (hrest : ∀ c, rest.head? = some c → p c = false) :
    (text ++ rest).takeWhile p = text ∧ (text ++ rest).dropWhile p = rest := by
  rw [List.takeWhile_append_of_pos htext, List.dropWhile_append_of_pos htext,
    dropWhile_of_head hrest]
  refine ⟨?_, rfl⟩
  cases rest with
  | nil => rw [List.takeWhile_nil, List.append_nil]
  | cons c rest =>
      rw [List.takeWhile_cons_of_neg (by rw [hrest c rfl]; nofun), List.append_nil]

lemma signAt_of_dotted {number rest : List Char} (h : IsDotted number) (hne : number ≠ []) :
    signAt (number ++ rest) = (false, number ++ rest) := by
  obtain ⟨c, digits, rfl⟩ := List.exists_cons_of_ne_nil hne
  unfold signAt
  split
  next heq => exact absurd (List.cons.inj heq).1 (h.ne List.mem_cons_self).1
  next => rfl

/-- Digits and points, white space and letters are found. -/
lemma matchSize_append {number space unit : List Char} (hnumber : IsDotted number)
    (hne : number ≠ []) (hspace : ∀ c ∈ space, isWhiteSpace c) (hunit : ∀ c ∈ unit, c.isAlpha) :
    matchSize (number ++ (space ++ unit)) = some (number, unit) := by
  have hletters : ∀ c, unit.head? = some c → isWhiteSpace c = false := fun c hc =>
    isWhiteSpace_of_isAlpha (hunit c (List.mem_of_mem_head? hc))
  have hrest : ∀ c, (space ++ unit).head? = some c → isDotted c = false := by
    intro c hc
    refine isDotted_false ?_
    rcases List.mem_append.mp (List.mem_of_mem_head? hc) with hmem | hmem
    · exact .inl (hspace c hmem)
    · exact .inr (hunit c hmem)
  obtain ⟨htake, hdrop⟩ := run_append (fun c hc => isDotted_iff.mpr (hnumber c hc)) hrest
  rw [matchSize, signAt_of_dotted hnumber hne]
  dsimp only
  rw [htake, hdrop, (run_append hspace hletters).2,
    if_pos ⟨hne, List.all_eq_true.mpr hunit⟩]
  rfl

/-- What is found are the parts of the text. -/
lemma matchSize_eq_some {text number unit : List Char} (h : matchSize text = some (number, unit)) :
    ∃ digits space, (number = digits ∨ number = '-' :: digits) ∧ IsDotted digits ∧
      (∀ c ∈ space, isWhiteSpace c) ∧ text = number ++ (space ++ unit) := by
  have hsign : text = (if (signAt text).1 then '-' :: (signAt text).2 else (signAt text).2) := by
    unfold signAt
    split <;> rfl
  rw [matchSize] at h
  dsimp only at h
  split at h
  next hparts =>
    obtain ⟨hnumber, rfl⟩ := Prod.mk.inj (Option.some.inj h)
    refine ⟨(signAt text).2.takeWhile isDotted,
      ((signAt text).2.dropWhile isDotted).takeWhile isWhiteSpace, ?_, ?_, ?_, ?_⟩
    · rw [← hnumber]
      split
      · exact .inr rfl
      · exact .inl rfl
    · exact fun c hc => isDotted_iff.mp (List.mem_takeWhile_imp hc)
    · exact fun c hc => List.mem_takeWhile_imp hc
    · rw [← hnumber, List.takeWhile_append_dropWhile]
      conv_lhs => rw [hsign]
      split
      · rw [List.cons_append, List.takeWhile_append_dropWhile]
      · rw [List.takeWhile_append_dropWhile]
  next => cases h

lemma isAlpha_of_toLower {c : Char} (h : c.toLower.isAlpha) : c.isAlpha := by
  unfold Char.toLower at h
  split at h
  next hupper =>
    delta Char.isAlpha
    rw [Bool.or_eq_true]
    exact .inl (decide_eq_true hupper)
  next => exact h

lemma SizeUnit.isAlpha {unit : List Char} {n : ℕ} (h : SizeUnit unit n) :
    ∀ c ∈ unit, c.isAlpha := by
  intro c hc
  have hall : ∀ p ∈ lowerUnits, ∀ c ∈ p.1, c.isAlpha := by decide
  rcases sizeUnit_iff.mp h with ⟨rfl, -⟩ | hmem
  · cases hc
  · exact isAlpha_of_toLower (hall _ hmem _ (List.mem_map_of_mem hc))

lemma Denotes.matched {text : List Char} {bytes : ℤ} (h : Denotes text bytes) :
    ∃ number unit value n, matchSize text = some (number, unit) ∧ Numeral number value ∧
      SizeUnit unit n ∧ bytes = ⌊value * n + 1 / 2⌋ := by
  obtain ⟨hnumber, hspace, hunit⟩ := h
  exact ⟨_, _, _, _, matchSize_append hnumber.isDotted hnumber.ne_nil hspace hunit.isAlpha,
    hnumber, hunit, rfl⟩

/-- **A size is found with its parts.** -/
lemma denotes_iff {text number unit : List Char} (h : matchSize text = some (number, unit))
    {bytes : ℤ} : Denotes text bytes ↔
      ∃ value n, Numeral number value ∧ SizeUnit unit n ∧ bytes = ⌊value * n + 1 / 2⌋ := by
  constructor
  · intro hdenotes
    obtain ⟨_, _, value, n, hmatch, hparts⟩ := hdenotes.matched
    obtain ⟨rfl, rfl⟩ := Prod.mk.inj (Option.some.inj (hmatch.symm.trans h))
    exact ⟨value, n, hparts⟩
  · rintro ⟨value, n, hnumber, hunit, rfl⟩
    obtain ⟨digits, space, -, -, hspace, rfl⟩ := matchSize_eq_some h
    exact .size hnumber hspace hunit

/-! ### Exactness -/

lemma SizeUnit.unique {n m : ℕ} (hn : SizeUnit unit n) (hm : SizeUnit unit m) : n = m := by
  have hnil : ∀ p ∈ lowerUnits, p.1 ≠ [] := by decide
  have hall : ∀ p ∈ lowerUnits, ∀ q ∈ lowerUnits, p.1 = q.1 → p.2 = q.2 := by decide
  rcases sizeUnit_iff.mp hn with ⟨rfl, rfl⟩ | hn
  · rcases sizeUnit_iff.mp hm with ⟨-, rfl⟩ | hm
    · rfl
    · exact absurd rfl (hnil _ hm)
  · rcases sizeUnit_iff.mp hm with ⟨rfl, -⟩ | hm
    · exact absurd rfl (hnil _ hn)
    · exact hall _ hn _ hm rfl

lemma SizeUnit.one_le {n : ℕ} (hn : SizeUnit unit n) : 1 ≤ n := by
  have hall : ∀ p ∈ lowerUnits, 1 ≤ p.2 := by decide
  rcases sizeUnit_iff.mp hn with ⟨-, rfl⟩ | hn
  · exact le_rfl
  · exact hall _ hn

/-- The units are powers of two. -/
lemma SizeUnit.exists_pow {n : ℕ} (hn : SizeUnit unit n) : ∃ k, n = 2 ^ k := by
  have hall : ∀ p ∈ lowerUnits, p.2 = 2 ^ 0 ∨ p.2 = 2 ^ 10 ∨ p.2 = 2 ^ 20 ∨ p.2 = 2 ^ 30 ∨
      p.2 = 2 ^ 40 := by decide
  rcases sizeUnit_iff.mp hn with ⟨-, rfl⟩ | hn
  · exact ⟨0, rfl⟩
  · rcases hall _ hn with h | h | h | h | h <;> exact ⟨_, h⟩

variable {number : List Char} {value : ℚ}

/-- What is found starts with a number, or with a sign. -/
lemma matched_dotted {text : List Char} (h : matchSize text = some (number, unit))
    (hvalue : leading number = some value) : IsDotted number := by
  obtain ⟨digits, -, rfl | rfl, hdotted, -⟩ := matchSize_eq_some h
  · exact hdotted
  · cases hvalue

/-- Two numbers are rounded to one whole number exactly if no half lies between them. -/
lemma floor_add_half_eq_iff {x y : ℚ} :
    ⌊x + 1 / 2⌋ = ⌊y + 1 / 2⌋ ↔ ∀ half : ℤ, x < half + 1 / 2 ↔ y < half + 1 / 2 := by
  have hfloor (z : ℚ) (half : ℤ) : ⌊z + 1 / 2⌋ < half + 1 ↔ z < half + 1 / 2 := by
    rw [Int.floor_lt]
    push_cast
    constructor <;> intro h <;> linarith
  constructor
  · intro heq half
    rw [← hfloor, ← hfloor, heq]
  · intro h
    refine le_antisymm ?_ ?_
    · exact Int.lt_add_one_iff.mp ((hfloor _ _).mpr ((h _).mpr ((hfloor _ _).mp (by omega))))
    · exact Int.lt_add_one_iff.mp ((hfloor _ _).mpr ((h _).mp ((hfloor _ _).mp (by omega))))

section

variable {round : ℚ → ℚ} (hround : Rounding round)

include hround

/-- A product of a rounded number with a unit is exact. -/
lemma scale_natCast {value : ℚ} (hvalue : 0 ≤ value) {k : ℕ}
    (h : round value * (2 ^ k : ℕ) < overflow) :
    Double.scale round (round value) (.finite (2 ^ k : ℕ)) =
      .finite (round value * (2 ^ k : ℕ)) := by
  have hnonneg : 0 ≤ round value * (2 ^ k : ℕ) :=
    mul_nonneg (hround.nonneg _ hvalue) (Nat.cast_nonneg _)
  have hdouble : round (round value * (2 ^ k : ℕ)) = round value * (2 ^ k : ℕ) := by
    have hpow := hround.mul_pow value k
    push_cast
    exact hpow
  rw [Double.scale, ofRat_of_lt (by rwa [abs_of_nonneg hnonneg]), hdouble]

/-- Without a unit, the number is the number of bytes. -/
lemma scale_one (h : parseFloatWith round number = .finite value) :
    Double.scale round value (.finite 1) = .finite value := by
  obtain ⟨x, rfl, hx⟩ := exists_of_parseFloat h
  have hrounded := hround.mul_pow x 0
  rw [pow_zero, mul_one] at hrounded
  rw [Double.scale, mul_one, ofRat_of_lt (hround.abs_lt_overflow hx), hrounded]

/-- **What is returned**: the number, if it is not negative, times the factor of the unit. -/
lemma parseSize_ok_iff {size : String} {result : Double} :
    parseSizeWith round (.string size) = .ok result ↔
      ∃ number unit value factor, matchSize (trim size.toList) = some (number, unit) ∧
        parseFloatWith round number = .finite value ∧ 0 ≤ value ∧ factorOf unit = some factor ∧
        result = (Double.scale round value factor).round := by
  constructor
  · intro h
    rw [parseSizeWith] at h
    split at h
    next => cases h
    split at h
    next => cases h
    next number unit hmatch =>
      split at h
      next => cases h
      next => cases h
      next value hvalue =>
        split at h
        next => cases h
        next hneg =>
          refine ⟨number, unit, value, ?_⟩
          split at h
          next hnil =>
            refine ⟨.finite 1, hmatch, hvalue, not_lt.mp hneg, if_pos hnil, ?_⟩
            rw [scale_one hround hvalue]
            exact (Except.ok.inj h).symm
          next hne =>
            split at h
            next => cases h
            next factor hfactor =>
              exact ⟨factor, hmatch, hvalue, not_lt.mp hneg, (if_neg hne).trans hfactor,
                (Except.ok.inj h).symm⟩
  · rintro ⟨number, unit, value, factor, hmatch, hvalue, hneg, hfactor, rfl⟩
    have hne : trim size.toList ≠ [] := by
      intro hnil
      rw [hnil] at hmatch
      cases hmatch
    rw [parseSizeWith]
    rw [if_neg hne, hmatch]
    dsimp only
    rw [hvalue]
    dsimp only
    rw [if_neg (not_lt.mpr hneg)]
    rw [factorOf] at hfactor
    split at hfactor
    next hnil =>
      rw [if_pos hnil, ← Option.some.inj hfactor, scale_one hround hvalue]
    next hunit => rw [if_neg hunit, hfactor]

omit hround in
/-- A numeral that is not too large is read. -/
lemma parseFloat_numeral (h : Numeral number value) (hfinite : value < overflow) :
    parseFloatWith round number = .finite (round value) := by
  rw [parseFloat_dotted h.isDotted, ((numeral_iff h.isDotted).mp h).1, Option.elim_some,
    ofRat_of_lt (by rwa [abs_of_nonneg h.nonneg])]

/-- **A size is parsed**, unless it is too large or its unit is `b`. -/
lemma parseSize_of_numeral {size : String} {n : ℕ}
    (hmatch : matchSize (trim size.toList) = some (number, unit)) (hnumber : Numeral number value)
    (hunit : SizeUnit unit n) (hb : unit ≠ ['b']) (hfinite : round value * n < overflow) :
    parseSizeWith round (.string size) = .ok (.finite ⌊round value * n + 1 / 2⌋) := by
  have hnonneg := hround.nonneg _ hnumber.nonneg
  have hle : round value ≤ round value * n :=
    le_mul_of_one_le_right hnonneg (by exact_mod_cast hunit.one_le)
  have hread : value < overflow := not_le.mp fun hlarge =>
    absurd ((hround.overflow_le_iff _ hnumber.nonneg).mpr hlarge)
      (not_le.mpr (hle.trans_lt hfinite))
  have hscale : Double.scale round (round value) (.finite n) = .finite (round value * n) := by
    obtain ⟨k, rfl⟩ := hunit.exists_pow
    exact scale_natCast hround hnumber.nonneg hfinite
  refine (parseSize_ok_iff hround).mpr ⟨number, unit, round value, .finite n, hmatch,
    parseFloat_numeral hnumber hread, hnonneg,
    factorOf_eq_some_iff.mpr (.inl ⟨n, rfl, hunit, hb⟩), ?_⟩
  rw [hscale]
  rfl

end

/-- **Everything that is no slip is parsed exactly.** -/
lemma parsesExactly_of_sound {size : String} (h : Sound size) : ParsesExactly size := by
  -- The nearest double of a size has as many bytes as the size.
  have hbytes {number unit : List Char} {value : ℚ} {n : ℕ}
      (hmatch : matchSize (trim size.toList) = some (number, unit)) (hnumber : Numeral number value)
      (hunit : SizeUnit unit n) : ⌊value * n + 1 / 2⌋ = ⌊nearest value * n + 1 / 2⌋ := by
    refine floor_add_half_eq_iff.mpr fun half => ?_
    by_contra hhalf
    exact h number unit hmatch (.rounded hnumber hunit hhalf)
  intro result
  constructor
  · intro hok
    obtain ⟨number, unit, value, factor, hmatch, hvalue, hnonneg, hfactor, rfl⟩ :=
      (parseSize_ok_iff rounding_nearest).mp hok
    have hslip := h number unit hmatch
    have hsome : (factorOf unit).isSome := by rw [hfactor]; rfl
    obtain ⟨digits, -, rfl | rfl, hdotted, -⟩ := matchSize_eq_some hmatch
    · obtain ⟨x, hleading, rfl, hlt⟩ := leading_of_parseFloat hdotted hvalue
      rw [abs_of_nonneg (leading_nonneg hleading)] at hlt
      have hcount : number.count '.' ≤ 1 := by
        by_contra hpoints
        exact hslip (.points hleading (by omega) hlt hsome)
      have hnumber : Numeral number x := (numeral_iff hdotted).mpr ⟨hleading, hcount⟩
      rcases factorOf_eq_some_iff.mp hfactor with ⟨n, rfl, hunit, -⟩ | ⟨-, hmember⟩
      · have hfinite : nearest x * n < overflow :=
          not_le.mp fun hlarge => hslip (.large hnumber hunit hlarge)
        refine ⟨_, (denotes_iff hmatch).mpr ⟨x, n, hnumber, hunit, rfl⟩, ?_⟩
        rw [hbytes hmatch hnumber hunit]
        obtain ⟨k, rfl⟩ := hunit.exists_pow
        rw [scale_natCast rounding_nearest hnumber.nonneg hfinite]
        rfl
      · exact absurd (.inherited hnumber hlt hmember) hslip
    · obtain ⟨x, hleading, hneg, -⟩ := leading_of_parseFloat_neg rounding_nearest hdotted hvalue
      have hzero : nearest x = 0 := by
        refine le_antisymm ?_ (nearest_nonneg (leading_nonneg hleading))
        rw [hneg]
        exact neg_nonpos.mpr hnonneg
      exact absurd (.zero hleading hzero hsome) hslip
  · rintro ⟨bytes, hdenotes, rfl⟩
    obtain ⟨number, unit, value, n, hmatch, hnumber, hunit, rfl⟩ := hdenotes.matched
    have hslip := h number unit hmatch
    rw [hbytes hmatch hnumber hunit]
    refine parseSize_of_numeral rounding_nearest hmatch hnumber hunit ?_ ?_
    · rintro rfl
      exact hslip (.bytes hnumber)
    · exact not_le.mp fun hlarge => hslip (.large hnumber hunit hlarge)

/-- What was parsed is a numeral and a unit. -/
lemma denotes_of_ok {size : String} {result : Double} (h : ParsesExactly size)
    (hmatch : matchSize (trim size.toList) = some (number, unit))
    (hok : parseSize (.string size) = .ok result) :
    (∃ bytes : ℤ, result = .finite bytes) ∧ ∃ value, Numeral number value := by
  obtain ⟨bytes, hdenotes, hbytes⟩ := (h result).mp hok
  obtain ⟨value, -, hnumber, -⟩ := (denotes_iff hmatch).mp hdenotes
  exact ⟨⟨bytes, hbytes⟩, value, hnumber⟩

/-- A size that is parsed exactly comes to the bytes of its nearest double, which is not too
large. -/
lemma bytes_of_parsesExactly {size : String} {n : ℕ} (h : ParsesExactly size)
    (hmatch : matchSize (trim size.toList) = some (number, unit)) (hnumber : Numeral number value)
    (hunit : SizeUnit unit n) :
    nearest value * n < overflow ∧ ⌊value * n + 1 / 2⌋ = ⌊nearest value * n + 1 / 2⌋ := by
  obtain ⟨_, _, v, factor, hmatch', hread, -, hfactor, hresult⟩ :=
    (parseSize_ok_iff rounding_nearest).mp
      ((h _).mpr ⟨_, (denotes_iff hmatch).mpr ⟨value, n, hnumber, hunit, rfl⟩, rfl⟩)
  obtain ⟨rfl, rfl⟩ := Prod.mk.inj (Option.some.inj (hmatch'.symm.trans hmatch))
  obtain ⟨x, hleading, rfl, -⟩ := leading_of_parseFloat hnumber.isDotted hread
  rw [((numeral_iff hnumber.isDotted).mp hnumber).1] at hleading
  obtain rfl := Option.some.inj hleading
  rcases factorOf_eq_some_iff.mp hfactor with ⟨m, rfl, hm, -⟩ | ⟨rfl, -⟩
  · rw [hm.unique hunit] at hresult
    have hfinite : nearest value * n < overflow := by
      by_contra hlarge
      rw [Double.scale, ofRat_of_le ((not_lt.mp hlarge).trans (le_abs_self _))] at hresult
      cases hresult
    refine ⟨hfinite, ?_⟩
    obtain ⟨k, rfl⟩ := hunit.exists_pow
    rw [scale_natCast rounding_nearest hnumber.nonneg hfinite] at hresult
    exact_mod_cast Double.finite.inj hresult
  · cases hresult

/-- **A slip is not parsed exactly.** -/
lemma sound_of_parsesExactly {size : String} (h : ParsesExactly size) : Sound size := by
  intro number unit hmatch hslip
  cases hslip with
  | @zero digits _ x hvalue hzero hunit =>
      obtain ⟨factor, hfactor⟩ := Option.isSome_iff_exists.mp hunit
      obtain ⟨digits', -, rfl | heq, hdotted, -⟩ := matchSize_eq_some hmatch
      · exact (hdotted.ne List.mem_cons_self).1 rfl
      obtain rfl := (List.cons.inj heq).2
      have hsmall : |-x| < overflow := by
        rw [abs_neg, abs_of_nonneg (leading_nonneg hvalue)]
        refine not_le.mp fun hlarge => ?_
        have hle := (overflow_le_nearest_iff (leading_nonneg hvalue)).mpr hlarge
        rw [hzero] at hle
        exact absurd hle (by decide +kernel)
      have hread : parseFloatWith nearest ('-' :: digits) = .finite 0 := by
        rw [parseFloat_neg_dotted hdotted, hvalue, Option.elim_some, ofRat_of_lt hsmall,
          nearest_neg, hzero, neg_zero]
      obtain ⟨-, v, hnumber⟩ := denotes_of_ok h hmatch ((parseSize_ok_iff rounding_nearest).mpr
        ⟨_, unit, 0, factor, hmatch, hread, le_rfl, hfactor, rfl⟩)
      exact (hnumber.isDotted.ne List.mem_cons_self).1 rfl
  | @points _ _ value hvalue hpoints hfinite hunit =>
      obtain ⟨factor, hfactor⟩ := Option.isSome_iff_exists.mp hunit
      have hdotted := matched_dotted hmatch hvalue
      have hnonneg := leading_nonneg hvalue
      have hread : parseFloatWith nearest number = .finite (nearest value) := by
        rw [parseFloat_dotted hdotted, hvalue, Option.elim_some,
          ofRat_of_lt (by rwa [abs_of_nonneg hnonneg])]
      obtain ⟨-, v, hnumber⟩ := denotes_of_ok h hmatch ((parseSize_ok_iff rounding_nearest).mpr
        ⟨number, unit, nearest value, factor, hmatch, hread, nearest_nonneg hnonneg, hfactor, rfl⟩)
      have hcount := ((numeral_iff hdotted).mp hnumber).2
      omega
  | @bytes _ value hvalue =>
      have hunit : SizeUnit ['b'] 1 := sizeUnit_iff.mpr (.inr (by decide))
      obtain ⟨_, unit, _, factor, hmatch', -, -, hfactor, -⟩ :=
        (parseSize_ok_iff rounding_nearest).mp
          ((h _).mpr ⟨_, (denotes_iff hmatch).mpr ⟨value, 1, hvalue, hunit, rfl⟩, rfl⟩)
      obtain ⟨rfl, rfl⟩ := Prod.mk.inj (Option.some.inj (hmatch'.symm.trans hmatch))
      rcases factorOf_eq_some_iff.mp hfactor with ⟨-, -, -, hne⟩ | ⟨-, hmember⟩
      · exact hne rfl
      · exact absurd hmember (by decide)
  | inherited hvalue hfinite hmember =>
      obtain ⟨⟨bytes, hbytes⟩, -⟩ := denotes_of_ok h hmatch
        ((parseSize_ok_iff rounding_nearest).mpr ⟨number, unit, _, .nan, hmatch,
          parseFloat_numeral hvalue hfinite, nearest_nonneg hvalue.nonneg,
          factorOf_eq_some_iff.mpr (.inr ⟨rfl, hmember⟩), rfl⟩)
      cases hbytes
  | large hvalue hunit hlarge =>
      exact absurd hlarge (not_le.mpr (bytes_of_parsesExactly h hmatch hvalue hunit).1)
  | rounded hvalue hunit hhalf =>
      exact hhalf (floor_add_half_eq_iff.mp (bytes_of_parsesExactly h hmatch hvalue hunit).2 _)

/-- **A text is parsed exactly if and only if it is no slip.** -/
theorem parsesExactly_iff_sound (size : String) : ParsesExactly size ↔ Sound size :=
  ⟨sound_of_parsesExactly, parsesExactly_of_sound⟩

example : parseSize (.string "9007199254740993") = .ok (.finite 9007199254740992) := by
  decide +kernel

/-- Two points are taken for one. -/
theorem not_parsesExactly : ¬ ∀ size, ParsesExactly size := by
  intro h
  have hmatch : matchSize (trim "1.2.3KB".toList) = some ("1.2.3".toList, "KB".toList) := by
    decide +kernel
  have hok : parseSize (.string "1.2.3KB") = .ok (.finite 1229) := by decide +kernel
  obtain ⟨bytes, hdenotes, -⟩ := (h "1.2.3KB" _).mp hok
  obtain ⟨value, -, hnumber, -⟩ := (denotes_iff hmatch).mp hdenotes
  exact absurd ((numeral_iff hnumber.isDotted).mp hnumber).2 (by decide)

end Blaize.Upload
