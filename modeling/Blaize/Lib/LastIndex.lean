import Mathlib.Data.List.Basic
import Mathlib.Tactic.Common

/-!
Regular expression objects with their `lastIndex`.

What a match is belongs to an expression: `matcher text i` is the end of the match that begins
at the code unit `i`.  The flags `g` and `y` make the object remember where its last match has
ended: the next search begins there, and a failed one begins anew.

* `Expression`: a matcher with its flags, for texts of UTF-16 code units;
* `advanceStringIndex`, `search`, `exec`: the search of `RegExpBuiltinExec`;
* `Contains`: the text has a match somewhere; `FoundFrom`: one that a search can find;
* `exec_isSome_iff`: **a search finds a match exactly if one begins where it looks**;
* `foundFrom_iff_contains`: without `g` and `y`, and at the start, it looks everywhere.
-/

namespace Js.LastIndex

/-- The code units of a text. -/
abbrev Text := List UInt16

/-- The first one of a pair. -/
def isHighSurrogate (c : UInt16) : Bool := 0xD800 ≤ c && c < 0xDC00

/-- The second one of a pair. -/
def isLowSurrogate (c : UInt16) : Bool := 0xDC00 ≤ c && c < 0xE000

/-- A surrogate pair begins at the code unit `i`. -/
def pairAt (text : Text) (i : ℕ) : Bool :=
  text[i]?.any isHighSurrogate && text[i + 1]?.any isLowSurrogate

/-- An expression.  With the flag `u` or `v` a match that begins inside a surrogate pair is one
that begins with the pair. -/
structure Expression where
  matcher : Text → ℕ → Option ℕ
  global : Bool := false
  sticky : Bool := false
  unicode : Bool := false
  matcher_inside : unicode = true → ∀ text i, pairAt text i = true →
    matcher text (i + 1) = matcher text i := by simp

namespace Expression

variable (re : Expression) (text : Text)

/-! ### Searching -/

/-- `AdvanceStringIndex`: with `u` or `v` by a whole character. -/
def advanceStringIndex (i : ℕ) : ℕ := if re.unicode && pairAt text i then i + 2 else i + 1

/-- The first match from `i` on; a search goes at most `fuel` steps. -/
def searchFrom : ℕ → ℕ → Option ℕ
  | 0, _ => none
  | fuel + 1, i =>
      if text.length < i then
        none
      else
        match re.matcher text i with
        | some e => some e
        | none => searchFrom fuel (re.advanceStringIndex text i)

/-- The first match from a place on. -/
def search (i : ℕ) : Option ℕ := re.searchFrom text (text.length + 1 - i) i

/-- The position at which a search begins. -/
def start (lastIndex : ℕ) : ℕ := if re.global || re.sticky then lastIndex else 0

/-- `RegExpBuiltinExec`: the end of the match, and the new `lastIndex`. -/
def exec (lastIndex : ℕ) : Option ℕ × ℕ :=
  let found :=
    if re.sticky then
      if text.length < re.start lastIndex then none else re.matcher text (re.start lastIndex)
    else
      re.search text (re.start lastIndex)
  match found with
  | some e => (some e, if re.global || re.sticky then e else lastIndex)
  | none => (none, if re.global || re.sticky then 0 else lastIndex)

/-! ### What a search finds -/

/-- A match begins at the code unit `i`. -/
def MatchAt (i : ℕ) : Prop := i ≤ text.length ∧ (re.matcher text i).isSome

/-- **The text contains a match.** -/
def Contains : Prop := ∃ i, re.MatchAt text i

/-- A match begins where a search looks: from `lastIndex` on, with `y` just there. -/
def FoundFrom (lastIndex : ℕ) : Prop :=
  ∃ i, re.MatchAt text i ∧ (re.global || re.sticky → lastIndex ≤ i) ∧ (re.sticky → i = lastIndex)

instance (i : ℕ) : Decidable (re.MatchAt text i) := inferInstanceAs (Decidable (_ ∧ _))

/-- A bounded search for a position. -/
def decidableExists {P : ℕ → Prop} [DecidablePred P] (n : ℕ) (h : ∀ i, P i → i ≤ n) :
    Decidable (∃ i, P i) :=
  decidable_of_iff (∃ i ∈ List.range (n + 1), P i)
    ⟨fun ⟨i, _, hi⟩ => ⟨i, hi⟩, fun ⟨i, hi⟩ => ⟨i, by simpa using Nat.lt_succ_of_le (h i hi), hi⟩⟩

instance : Decidable (re.Contains text) := decidableExists text.length fun _ h => h.1

instance (lastIndex : ℕ) : Decidable (re.FoundFrom text lastIndex) :=
  decidableExists text.length fun _ h => h.1.1

variable {re text}

lemma Contains.of_foundFrom {lastIndex : ℕ} (h : re.FoundFrom text lastIndex) :
    re.Contains text := by
  obtain ⟨i, hi, -⟩ := h
  exact ⟨i, hi⟩

/-- Without `g` and `y` a search looks everywhere. -/
lemma foundFrom_iff_contains {lastIndex : ℕ} (h : (re.global || re.sticky) = false) :
    re.FoundFrom text lastIndex ↔ re.Contains text := by
  refine ⟨Contains.of_foundFrom, fun ⟨i, hi⟩ => ⟨i, hi, ?_, ?_⟩⟩
  · simp [h]
  · rw [Bool.or_eq_false_iff] at h
    simp [h.2]

/-- **A search finds a match exactly if one begins at its start or later.** -/
lemma isSome_searchFrom_iff {fuel i : ℕ} (hfuel : text.length < fuel + i) :
    (re.searchFrom text fuel i).isSome ↔ ∃ j, i ≤ j ∧ re.MatchAt text j := by
  induction fuel generalizing i with
  | zero =>
      refine iff_of_false (by simp [searchFrom]) ?_
      rintro ⟨j, hij, hj, -⟩
      omega
  | succ fuel ih =>
      rw [searchFrom]
      split
      next hlt =>
          refine iff_of_false (by simp) ?_
          rintro ⟨j, hij, hj, -⟩
          omega
      next hle =>
          cases hmatch : re.matcher text i with
          | some e =>
              exact iff_of_true rfl ⟨i, Nat.le_refl i, Nat.le_of_not_lt hle, by rw [hmatch]; rfl⟩
          | none =>
              have hstep : i < re.advanceStringIndex text i := by
                rw [advanceStringIndex]
                split <;> omega
              rw [ih (by omega)]
              refine exists_congr fun j => and_congr_left fun hj => ?_
              refine ⟨fun h => Nat.le_trans (Nat.le_of_lt hstep) h, fun hij => ?_⟩
              -- no match begins at `i`, and none inside a pair that begins there
              have hne : j ≠ i := by
                rintro rfl
                simpa [hmatch] using hj.2
              rw [advanceStringIndex]
              split
              next hpair =>
                  rw [Bool.and_eq_true] at hpair
                  have hne' : j ≠ i + 1 := by
                    rintro rfl
                    have hinside := re.matcher_inside hpair.1 text i hpair.2
                    simpa [hinside, hmatch] using hj.2
                  omega
              next => omega

lemma isSome_search_iff {i : ℕ} :
    (re.search text i).isSome ↔ ∃ j, i ≤ j ∧ re.MatchAt text j :=
  isSome_searchFrom_iff (by omega)

/-- **An object finds a match exactly if one begins where it looks.** -/
theorem exec_isSome_iff {lastIndex : ℕ} :
    (re.exec text lastIndex).1.isSome ↔ re.FoundFrom text lastIndex := by
  have hfound : (re.exec text lastIndex).1.isSome ↔
      (if re.sticky then
        if text.length < re.start lastIndex then none else re.matcher text (re.start lastIndex)
      else re.search text (re.start lastIndex)).isSome := by
    rw [exec]
    split <;> simp_all
  rw [hfound]
  by_cases hs : re.sticky = true
  · have hstart : re.start lastIndex = lastIndex := by simp [start, hs]
    rw [if_pos hs, hstart]
    constructor
    · intro h
      split at h
      next => cases h
      next hle =>
          exact ⟨lastIndex, ⟨Nat.le_of_not_lt hle, h⟩, fun _ => Nat.le_refl _, fun _ => rfl⟩
    · rintro ⟨i, ⟨hle, hmatch⟩, -, hi⟩
      obtain rfl := hi hs
      rwa [if_neg (Nat.not_lt.mpr hle)]
  · have hsticky : re.sticky = false := by simpa using hs
    rw [if_neg hs, isSome_search_iff]
    refine exists_congr fun i => ?_
    cases hg : re.global <;> simp [start, hsticky, hg, and_comm]

end Expression

end Js.LastIndex
