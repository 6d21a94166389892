import Mathlib.Data.Int.Notation
import Mathlib.Data.List.Basic
import Mathlib.Data.List.Flatten
import Mathlib.Data.List.Sort
import Mathlib.Tactic.Common

/-!
Sorting a list with a comparator that returns a number, as `Array.prototype.sort` does, and
collecting a list class by class.

* `sort`: the stable sort; `byKey`: the comparator that subtracts the keys;
* `map_sort`: sorting goes through a map that keeps what the comparator looks at;
* `sort_eq_of_perm`: **if no two items share a key, their first order does not matter**;
* `head?_sort_eq`: the same of the first item alone, if an item may come more than once;
* `perm_flatMap_filter`: the classes of a list, one after the other, are the list.
-/

namespace Sorting

variable {α β : Type*}

/-! ### Sorting -/

/-- `compare` is negative if its first item comes first, and 0 if the order stays. -/
def sort (compare : α → α → ℤ) (l : List α) : List α := l.mergeSort fun a b => compare a b ≤ 0

def byKey (key : α → ℤ) (a b : α) : ℤ := key a - key b

lemma sort_perm (compare : α → α → ℤ) (l : List α) : (sort compare l).Perm l :=
  List.mergeSort_perm l _

lemma map_sort (f : α → β) (compare : β → β → ℤ) (l : List α) :
    (sort (fun a b => compare (f a) (f b)) l).map f = sort compare (l.map f) :=
  List.map_mergeSort fun _ _ _ _ => rfl

variable {key : α → ℤ} {l l' : List α}

lemma pairwise_sort (key : α → ℤ) (l : List α) :
    (sort (byKey key) l).Pairwise fun a b => key a ≤ key b := by
  have htrans (a b c : α) (hab : decide (byKey key a b ≤ 0) = true)
      (hbc : decide (byKey key b c ≤ 0) = true) : decide (byKey key a c ≤ 0) = true := by
    rw [decide_eq_true_eq, byKey] at hab hbc ⊢
    omega
  have htotal (a b : α) :
      (decide (byKey key a b ≤ 0) || decide (byKey key b a ≤ 0)) = true := by
    rw [Bool.or_eq_true, decide_eq_true_eq, decide_eq_true_eq, byKey, byKey]
    omega
  refine (List.pairwise_mergeSort htrans htotal l).imp fun {a b} h => ?_
  rw [decide_eq_true_eq, byKey] at h
  omega

lemma sort_of_pairwise (h : l.Pairwise fun a b => key a ≤ key b) : sort (byKey key) l = l := by
  refine List.mergeSort_of_pairwise (h.imp fun {a b} hle => ?_)
  rw [decide_eq_true_eq, byKey]
  omega

/-- **Without two items that share a key the sorted list is one and the same.** -/
lemma sort_eq_of_perm (h : l.Perm l') (hinj : ∀ a ∈ l, ∀ b ∈ l, key a = key b → a = b) :
    sort (byKey key) l = sort (byKey key) l' := by
  refine List.Perm.eq_of_pairwise (fun a b ha hb hab hba => ?_) (pairwise_sort key l)
    (pairwise_sort key l') (((sort_perm _ l).trans h).trans (sort_perm _ l').symm)
  have hb' := h.mem_iff.mpr ((sort_perm _ l').mem_iff.mp hb)
  exact hinj a ((sort_perm _ l).mem_iff.mp ha) b hb' (le_antisymm hab hba)

lemma head?_sort_le {a : α} (ha : a ∈ l) :
    ∃ first ∈ l, (sort (byKey key) l).head? = some first ∧ key first ≤ key a := by
  have hmem := (sort_perm (byKey key) l).mem_iff.mpr ha
  have hsorted := pairwise_sort key l
  cases hl : sort (byKey key) l with
  | nil => rw [hl] at hmem; cases hmem
  | cons first rest =>
      rw [hl] at hmem hsorted
      refine ⟨first, (sort_perm _ l).mem_iff.mp (hl ▸ List.mem_cons_self), rfl, ?_⟩
      rcases List.mem_cons.mp hmem with rfl | hrest
      · exact le_refl _
      · exact (List.pairwise_cons.mp hsorted).1 a hrest

/-- Lists with the same items have the same first one in order, however often they have it. -/
lemma head?_sort_eq (h : ∀ a, a ∈ l ↔ a ∈ l')
    (hinj : ∀ a ∈ l, ∀ b ∈ l, key a = key b → a = b) :
    (sort (byKey key) l).head? = (sort (byKey key) l').head? := by
  cases l with
  | nil =>
      have hnil : l' = [] := List.eq_nil_iff_forall_not_mem.mpr fun a ha =>
        List.not_mem_nil ((h a).mpr ha)
      rw [hnil]
  | cons a l =>
      obtain ⟨first, hfirst, hhead, -⟩ := @head?_sort_le _ key (a :: l) a List.mem_cons_self
      obtain ⟨first', hfirst', hhead', hle⟩ := @head?_sort_le _ key l' first ((h _).mp hfirst)
      obtain ⟨_, -, hagain, hle'⟩ := @head?_sort_le _ key (a :: l) first' ((h _).mpr hfirst')
      obtain rfl := Option.some.inj (hhead.symm.trans hagain)
      have heq := hinj first hfirst first' ((h _).mpr hfirst') (le_antisymm hle' hle)
      rw [hhead, hhead', heq]

/-! ### Classes -/

lemma perm_filter_or {p q : α → Bool} (hpq : ∀ a, p a = true → q a = false) (l : List α) :
    (l.filter p ++ l.filter q).Perm (l.filter fun a => p a || q a) := by
  induction l with
  | nil => exact List.Perm.refl _
  | cons a l ih =>
      cases hp : p a with
      | true =>
          simp only [List.filter_cons, hp, hpq a hp, Bool.true_or, if_true, Bool.false_eq_true,
            if_false, List.cons_append]
          exact ih.cons a
      | false =>
          cases hq : q a with
          | true =>
              simp only [List.filter_cons, hp, hq, Bool.or_true, if_true, Bool.false_eq_true,
                if_false]
              exact List.perm_middle.trans (ih.cons a)
          | false =>
              simp only [List.filter_cons, hp, hq, Bool.or_false, Bool.false_eq_true, if_false]
              exact ih

/-- **The classes of a list, each taken once, make up the items of these classes.** -/
lemma perm_flatMap_filter [DecidableEq β] (f : α → β) (l : List α) {bs : List β} (h : bs.Nodup) :
    (bs.flatMap fun b => l.filter (f · = b)).Perm (l.filter (f · ∈ bs)) := by
  induction bs with
  | nil => simp
  | cons b bs ih =>
      obtain ⟨hb, hbs⟩ := List.nodup_cons.mp h
      rw [List.flatMap_cons]
      refine ((ih hbs).append_left _).trans ?_
      refine (perm_filter_or (fun a ha => ?_) l).trans (List.Perm.of_eq ?_)
      · rw [decide_eq_true_eq] at ha
        rw [ha]
        exact decide_eq_false hb
      · refine List.filter_congr fun a _ => ?_
        simp [List.mem_cons]

end Sorting
