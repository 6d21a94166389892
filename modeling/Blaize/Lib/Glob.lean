import Mathlib.Data.List.Basic
import Mathlib.Tactic.Common
import Blaize.Lib.Js

/-!
Patterns that are matched against a whole text: a sequence of single items and of runs, as
shell globs and simple anchored regular expressions are.

* `Piece`: one item with a property, or a run of items with a property;
* `test`: the matcher, which tries every length of a run from the shortest on;
* `Matches`: what is to be matched, as a relation;
* `test_iff_matches`: **the matcher accepts exactly what is to be matched**;
* `matches_literal_append_iff`: a text matched by a literal and more starts with the literal.
-/

namespace Glob

variable {α : Type*}

/-- A piece of a pattern, with the items that it takes. -/
inductive Piece (α : Type*) where
  | one (takes : α → Bool)
  | run (takes : α → Bool)

/-- A run followed by what `rest` accepts. -/
def runThen (takes : α → Bool) (rest : List α → Bool) : List α → Bool
  | [] => rest []
  | x :: text => rest (x :: text) || (takes x && runThen takes rest text)

def test : List (Piece α) → List α → Bool
  | [], text => text.isEmpty
  | .one _ :: _, [] => false
  | .one takes :: pieces, x :: text => takes x && test pieces text
  | .run takes :: pieces, text => runThen takes (test pieces) text

inductive Matches : List (Piece α) → List α → Prop where
  | nil : Matches [] []
  | one {takes : α → Bool} {x : α} {pieces : List (Piece α)} {text : List α} :
      takes x = true → Matches pieces text → Matches (.one takes :: pieces) (x :: text)
  | run {takes : α → Bool} {taken : List α} {pieces : List (Piece α)} {text : List α} :
      (∀ x ∈ taken, takes x = true) → Matches pieces text →
        Matches (.run takes :: pieces) (taken ++ text)

lemma runThen_iff {takes : α → Bool} {rest : List α → Bool} {text : List α} :
    runThen takes rest text = true ↔
      ∃ taken text', text = taken ++ text' ∧ (∀ x ∈ taken, takes x = true) ∧
        rest text' = true := by
  induction text with
  | nil =>
      constructor
      · intro h
        exact ⟨[], [], rfl, by simp, h⟩
      · rintro ⟨taken, text', he, -, h⟩
        obtain ⟨-, rfl⟩ := List.append_eq_nil_iff.mp he.symm
        exact h
  | cons x text ih =>
      rw [runThen, Bool.or_eq_true, Bool.and_eq_true, ih]
      constructor
      · rintro (h | ⟨hx, taken, text', rfl, ht, h⟩)
        · exact ⟨[], x :: text, rfl, by simp, h⟩
        · exact ⟨x :: taken, text', rfl, by simpa using ⟨hx, ht⟩, h⟩
      · rintro ⟨_ | ⟨y, taken⟩, text', he, ht, h⟩
        · obtain rfl : x :: text = text' := he
          exact Or.inl h
        · obtain ⟨rfl, rfl⟩ := List.cons.inj he
          rw [List.forall_mem_cons] at ht
          exact Or.inr ⟨ht.1, taken, text', rfl, ht.2, h⟩

/-- **The matcher accepts exactly what is to be matched.** -/
theorem test_iff_matches {pieces : List (Piece α)} {text : List α} :
    test pieces text = true ↔ Matches pieces text := by
  induction pieces generalizing text with
  | nil =>
      rw [test, List.isEmpty_iff]
      constructor
      · rintro rfl
        exact .nil
      · rintro ⟨⟩
        rfl
  | cons piece pieces ih =>
      cases piece with
      | one takes =>
          cases text with
          | nil => simpa [test] using (nofun : ¬ Matches (.one takes :: pieces) [])
          | cons x text =>
              rw [test, Bool.and_eq_true, ih]
              constructor
              · rintro ⟨hx, h⟩
                exact .one hx h
              · rintro (_ | ⟨hx, h⟩ | _)
                exact ⟨hx, h⟩
      | run takes =>
          rw [test, runThen_iff]
          constructor
          · rintro ⟨taken, text', rfl, ht, h⟩
            exact .run ht (ih.mp h)
          · intro h
            generalize hp : Piece.run takes :: pieces = ps at h
            cases h with
            | nil => cases hp
            | one => cases hp
            | run ht h =>
                obtain ⟨hpiece, rfl⟩ := List.cons.inj hp
                obtain rfl := Piece.run.inj hpiece
                exact ⟨_, _, rfl, ht, ih.mpr h⟩

/-- The pieces that take a literal. -/
def literal [DecidableEq α] (text : List α) : List (Piece α) :=
  text.map fun c => .one fun x => decide (x = c)

variable [DecidableEq α]

/-- **A text that is matched by a literal and more starts with the literal.** -/
lemma matches_literal_append_iff {text whole : List α} {pieces : List (Piece α)} :
    Matches (literal text ++ pieces) whole ↔
      ∃ rest, whole = text ++ rest ∧ Matches pieces rest := by
  induction text generalizing whole with
  | nil => simp [literal]
  | cons c text ih =>
      constructor
      · rintro (_ | ⟨hx, h⟩ | _)
        obtain ⟨rest, rfl, hr⟩ := ih.mp h
        obtain rfl := of_decide_eq_true hx
        exact ⟨rest, rfl, hr⟩
      · rintro ⟨rest, rfl, hr⟩
        exact .one (by simp) (ih.mpr ⟨rest, rfl, hr⟩)

end Glob
