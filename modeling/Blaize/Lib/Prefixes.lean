import Mathlib.Logic.Function.Basic
import Mathlib.Tactic.Common

/-!
The texts behind a prefix.

* `Js.behind`: what is behind a prefix, if a text starts with it;
* `isPartialInv_behind`: it is the inverse of putting the prefix before a text;
* `Overlap`: one prefix begins another;
* `behind_of_not_overlap`, `exists_behind_of_overlap`: texts with prefixes that do not overlap are
  different, and prefixes that overlap have a text in common.
-/

namespace Js

/-- `text.slice(prefix.length)`, if `text.startsWith(prefix)` -/
def behind (start text : String) : Option String :=
  if start.toList.isPrefixOf text.toList then
    some (String.ofList (text.toList.drop start.length))
  else none

lemma behind_eq_some_iff {start text rest : String} :
    behind start text = some rest ↔ start ++ rest = text := by
  rw [behind, ← String.toList_inj, String.toList_append]
  constructor
  · intro h
    obtain ⟨hstart, hrest⟩ := Option.ite_none_right_eq_some.mp h
    obtain ⟨behind, hbehind⟩ := List.isPrefixOf_iff_prefix.mp hstart
    rw [← Option.some.inj hrest, ← hbehind, String.toList_ofList, ← String.length_toList,
      List.drop_left]
  · intro h
    rw [← h, if_pos (List.isPrefixOf_iff_prefix.mpr (List.prefix_append _ _)),
      ← String.length_toList, List.drop_left, String.ofList_toList]

lemma isPartialInv_behind (start : String) :
    Function.IsPartialInv (start ++ ·) (behind start) := fun _ _ => behind_eq_some_iff

@[simp] lemma behind_append (start rest : String) : behind start (start ++ rest) = some rest :=
  behind_eq_some_iff.mpr rfl

/-- One prefix begins the other. -/
def Overlap (start other : String) : Prop :=
  start.toList <+: other.toList ∨ other.toList <+: start.toList

instance (start other : String) : Decidable (Overlap start other) :=
  inferInstanceAs (Decidable (_ ∨ _))

lemma behind_of_not_overlap {start other : String} (h : ¬ Overlap start other) (rest : String) :
    behind other (start ++ rest) = none := by
  refine Option.eq_none_iff_forall_ne_some.mpr fun rest' hrest' => h ?_
  have hstart : start.toList <+: (start ++ rest).toList := by
    rw [String.toList_append]
    exact List.prefix_append _ _
  have hother : other.toList <+: (start ++ rest).toList := by
    rw [← behind_eq_some_iff.mp hrest', String.toList_append]
    exact List.prefix_append _ _
  exact List.prefix_or_prefix_of_prefix hstart hother

lemma append_ne_append {start other : String} (h : ¬ Overlap start other) (rest rest' : String) :
    start ++ rest ≠ other ++ rest' := by
  intro heq
  have hnone := behind_of_not_overlap h rest
  rw [heq, behind_append] at hnone
  cases hnone

lemma exists_behind_of_overlap {start other : String} (h : Overlap start other) :
    ∃ rest rest', start ++ rest = other ++ rest' := by
  rcases h with ⟨rest, hrest⟩ | ⟨rest, hrest⟩
  · refine ⟨String.ofList rest, "", String.toList_inj.mp ?_⟩
    rw [String.toList_append, String.toList_append, ← hrest]
    simp
  · refine ⟨"", String.ofList rest, String.toList_inj.mp ?_⟩
    rw [String.toList_append, String.toList_append, ← hrest]
    simp

end Js
