import Mathlib.Algebra.GroupWithZero.Nat
import Mathlib.Data.List.TakeWhile
import Mathlib.Tactic.Common

/-!
Regular expressions of the form `^…$` made of literals, of groups `([^x]+)` and of optional
literals `(?:x)?`, with the backtracking of the matcher.

* `Item`, `parse`: the parts of a source text; other sources are not part of this model;
* `exec`: the texts of the groups of a match of the whole text;
* `exec_literals`, `exec_capture`: **what a literal and a group match in front of a separator**;
* `length_of_exec`: what is not in the groups of a match has the same length in all matches.
-/

namespace Js.RegExp

/-! ### Sources -/

/-- A part of a regular expression. -/
inductive Item where
  | literal (c : Char)
  | capture (excluded : Char)
  | optional (c : Char)
  deriving DecidableEq, Repr

/-- The characters that a source text has to escape. -/
def isSpecial (c : Char) : Bool := "^$\\.*+?()[|".toList.contains c

/-- The parts of a source behind its `^`, up to the `$` at its end. -/
def parse : List Char → Option (List Item)
  | ['$'] => some []
  | '(' :: '[' :: '^' :: c :: ']' :: '+' :: ')' :: source =>
      (parse source).map (.capture c :: ·)
  | '(' :: '?' :: ':' :: c :: ')' :: '?' :: source => (parse source).map (.optional c :: ·)
  | '\\' :: c :: source => (parse source).map (.literal c :: ·)
  | c :: source => if isSpecial c then none else (parse source).map (.literal c :: ·)
  | [] => none

/-- The parts of a whole source. -/
def parts : List Char → Option (List Item)
  | '^' :: source => parse source
  | _ => none

/-! ### Matching -/

/-- The numbers of characters that a group may take, the largest first. -/
def lengths (n : ℕ) : List ℕ := (List.range n).reverse.map (· + 1)

/-- The groups of a match of the whole text. -/
def exec : List Item → List Char → Option (List (List Char))
  | [], [] => some []
  | [], _ :: _ => none
  | .literal _ :: _, [] => none
  | .literal c :: items, d :: text => if d = c then exec items text else none
  | .optional c :: items, text =>
      match if text.head? = some c then exec items text.tail else none with
      | some groups => some groups
      | none => exec items text
  | .capture excluded :: items, text =>
      (lengths (text.takeWhile (· ≠ excluded)).length).findSome? fun n =>
        (exec items (text.drop n)).map (text.take n :: ·)

/-- No match starts inside a part: in front of a character other than the separator. -/
def StartsAt (separator : Char) (items : List Item) : Prop :=
  ∀ c text, c ≠ separator → exec items (c :: text) = none

variable {separator : Char} {items : List Item}

/-- A literal text matches exactly itself, in front of a separator or at the end. -/
lemma exec_literals (h : StartsAt separator items) {literals part text : List Char}
    (hliterals : separator ∉ literals) (hpart : separator ∉ part)
    (htext : ∀ c ∈ text.head?, c = separator) :
    exec (literals.map .literal ++ items) (part ++ text) =
      if literals = part then exec items text else none := by
  induction literals generalizing part with
  | nil =>
      cases part with
      | nil => rw [if_pos rfl]; rfl
      | cons c part =>
          rw [if_neg (List.cons_ne_nil c part).symm]
          exact h c _ fun he => hpart (he ▸ List.mem_cons_self)
  | cons l literals ih =>
      rw [List.mem_cons, not_or] at hliterals
      cases part with
      | nil =>
          rw [if_neg (List.cons_ne_nil l literals)]
          cases text with
          | nil => rfl
          | cons c text =>
              obtain rfl := htext c rfl
              exact if_neg hliterals.1
      | cons c part =>
          rw [List.mem_cons, not_or] at hpart
          rw [List.map_cons, List.cons_append, List.cons_append, exec, ih hliterals.2 hpart.2]
          by_cases hc : c = l
          · subst hc
            simp
          · rw [if_neg hc, if_neg fun he => hc (List.cons.inj he).1.symm]

/-- A group takes the whole part in front of a separator, and never an empty one. -/
lemma exec_capture (h : StartsAt separator items) {part text : List Char}
    (hpart : separator ∉ part) (htext : ∀ c ∈ text.head?, c = separator) :
    exec (.capture separator :: items) (part ++ text) =
      if part = [] then none else (exec items text).map (part :: ·) := by
  have htake : (part ++ text).takeWhile (· ≠ separator) = part := by
    have hall : ∀ c ∈ part, decide (c ≠ separator) = true := by
      intro c hc
      refine decide_eq_true ?_
      rintro rfl
      exact hpart hc
    rw [List.takeWhile_append_of_pos hall]
    cases text with
    | nil => rw [List.takeWhile_nil, List.append_nil]
    | cons c text =>
        obtain rfl := htext c rfl
        rw [List.takeWhile_cons_of_neg (by simp), List.append_nil]
  rw [exec, htake]
  split
  next hnil => rw [hnil]; rfl
  next hne =>
    obtain ⟨n, hn⟩ := Nat.exists_eq_succ_of_ne_zero (mt List.length_eq_zero_iff.mp hne)
    have hlengths : lengths part.length = part.length :: lengths n := by
      rw [hn, lengths, List.range_succ, List.reverse_append]
      rfl
    rw [hlengths, List.findSome?_cons, List.drop_left, List.take_left]
    cases hexec : exec items text with
    | some groups => rfl
    | none =>
        -- a shorter group leaves a character of the part
        refine List.findSome?_eq_none_iff.mpr fun m hm => ?_
        have hlt : m < part.length := by
          obtain ⟨k, hk, rfl⟩ := List.mem_map.mp hm
          have hk := List.mem_range.mp (List.mem_reverse.mp hk)
          omega
        obtain ⟨c, rest, hrest⟩ := List.exists_cons_of_ne_nil
          (List.drop_eq_nil_iff.not.mpr (not_le.mpr hlt) : part.drop m ≠ [])
        have hc : c ∈ part := List.mem_of_mem_drop (hrest ▸ List.mem_cons_self)
        rw [List.drop_append_of_le_length hlt.le, hrest, List.cons_append,
          h c _ fun he => hpart (he ▸ hc)]
        rfl

/-! ### Lengths -/

/-- How many characters a part takes outside of the groups. -/
def Item.width : Item → ℕ
  | literal _ => 1
  | capture _ => 0
  | optional _ => 0

/-- The number of groups of a part. -/
def Item.groups : Item → ℕ
  | literal _ => 0
  | capture _ => 1
  | optional _ => 0

/-- **What is not in the groups of a match has the same length in all matches**, but for an
optional character at the end. -/
theorem length_of_exec {body : List Item} (hbody : ∀ c, .optional c ∉ body) {c : Char}
    {text : List Char} {groups : List (List Char)}
    (h : exec (body ++ [.optional c]) text = some groups) :
    groups.length = (body.map Item.groups).sum ∧
      (text.length = (body.map Item.width).sum + (groups.map List.length).sum ∨
        text.length = (body.map Item.width).sum + (groups.map List.length).sum + 1 ∧
          text.getLast? = some c) := by
  induction body generalizing text groups with
  | nil =>
      have hnil {text : List Char} (h : exec [] text = some groups) : text = [] ∧ groups = [] := by
        cases text with
        | nil => exact ⟨rfl, (Option.some.inj h).symm⟩
        | cons d text => cases h
      rw [List.nil_append, exec] at h
      split at h
      next found hfound =>
        obtain rfl := Option.some.inj h
        split at hfound
        next hhead =>
          obtain ⟨htail, rfl⟩ := hnil hfound
          cases text with
          | nil => cases hhead
          | cons d text =>
              obtain rfl : text = [] := htail
              exact ⟨rfl, .inr ⟨rfl, hhead⟩⟩
        next => cases hfound
      next =>
        obtain ⟨rfl, rfl⟩ := hnil h
        exact ⟨rfl, .inl rfl⟩
  | cons item body ih =>
      have hrest : ∀ c, .optional c ∉ body := fun c hc => hbody c (List.mem_cons_of_mem item hc)
      have hlast {d : List Char} {text : List Char} (h : text.getLast? = some c) :
          (d ++ text).getLast? = some c := by
        rw [List.getLast?_append, h]
        rfl
      cases item with
      | literal l =>
          cases text with
          | nil => cases h
          | cons d text =>
              rw [List.cons_append, exec] at h
              split at h
              · obtain ⟨hgroups, hlength⟩ := ih hrest h
                refine ⟨by simpa [Item.groups] using hgroups, ?_⟩
                simp only [List.map_cons, List.sum_cons, Item.width, List.length_cons]
                rcases hlength with hlength | ⟨hlength, hc⟩
                · exact .inl (by omega)
                · exact .inr ⟨by omega, @hlast [d] text hc⟩
              · cases h
      | capture excluded =>
          rw [List.cons_append, exec] at h
          obtain ⟨n, hn, hmatch⟩ := List.exists_of_findSome?_eq_some h
          obtain ⟨rest, hexec, rfl⟩ := Option.map_eq_some_iff.mp hmatch
          obtain ⟨hgroups, hlength⟩ := ih hrest hexec
          refine ⟨by simp [Item.groups, hgroups, Nat.add_comm], ?_⟩
          have hle : n ≤ text.length := by
            obtain ⟨k, hk, rfl⟩ := List.mem_map.mp hn
            have hk := List.mem_range.mp (List.mem_reverse.mp hk)
            have := (List.takeWhile_sublist (· ≠ excluded) (l := text)).length_le
            omega
          simp only [List.map_cons, List.sum_cons, Item.width, List.length_take]
          rw [List.length_drop] at hlength
          rcases hlength with hlength | ⟨hlength, hc⟩
          · exact .inl (by omega)
          · refine .inr ⟨by omega, ?_⟩
            rw [← List.take_append_drop n text]
            exact hlast hc
      | optional d => exact absurd List.mem_cons_self (hbody d)

end Js.RegExp
