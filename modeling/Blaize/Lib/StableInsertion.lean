import Mathlib.Data.List.MinMax
import Mathlib.Data.List.Perm.Basic

/-!
Lists that are kept in the order of a key, where a new item goes behind those with its key.

* `insertBy`, `sortBy`: one item, and items one after the other;
* `perm_sortBy`, `pairwise_sortBy`: the items are the same, in the order of the key;
* `filter_sortBy`: a choice of the items may as well be made before they are inserted;
* `find?_sortBy`: **what is found first has the least key, and is the earliest of those**.
-/

namespace StableInsertion

variable {α κ : Type*} [LinearOrder κ] (key : α → κ)

/-- A new item goes in front of the first one with a greater key. -/
def insertBy (a : α) : List α → List α
  | [] => [a]
  | b :: l => if key a < key b then a :: b :: l else b :: insertBy a l

/-- Inserts items one after the other. -/
def sortBy (items : List α) : List α := items.foldl (fun l a => insertBy key a l) []

variable {key}

lemma sortBy_concat (items : List α) (a : α) :
    sortBy key (items ++ [a]) = insertBy key a (sortBy key items) := by
  rw [sortBy, List.foldl_append]
  rfl

lemma perm_insertBy (a : α) (l : List α) : (insertBy key a l).Perm (a :: l) := by
  induction l with
  | nil => exact .refl _
  | cons b l ih =>
      rw [insertBy]
      split
      · exact .refl _
      · exact (ih.cons b).trans (.swap a b l)

lemma perm_sortBy (items : List α) : (sortBy key items).Perm items := by
  induction items using List.reverseRecOn with
  | nil => exact .refl _
  | append_singleton items a ih =>
      rw [sortBy_concat]
      exact (perm_insertBy a _).trans ((ih.cons a).trans (List.perm_append_singleton a items).symm)

lemma pairwise_insertBy {a : α} {l : List α} (h : l.Pairwise fun b c => key b ≤ key c) :
    (insertBy key a l).Pairwise fun b c => key b ≤ key c := by
  induction l with
  | nil => exact List.pairwise_singleton _ _
  | cons b l ih =>
      obtain ⟨hb, hl⟩ := List.pairwise_cons.mp h
      rw [insertBy]
      split
      next hlt =>
          refine List.pairwise_cons.mpr ⟨fun c hc => ?_, h⟩
          rcases List.mem_cons.mp hc with rfl | hc
          · exact hlt.le
          · exact hlt.le.trans (hb c hc)
      next hge =>
          refine List.pairwise_cons.mpr ⟨fun c hc => ?_, ih hl⟩
          rcases List.mem_cons.mp ((perm_insertBy a l).mem_iff.mp hc) with rfl | hc
          · exact not_lt.mp hge
          · exact hb c hc

lemma pairwise_sortBy (items : List α) :
    (sortBy key items).Pairwise fun b c => key b ≤ key c := by
  induction items using List.reverseRecOn with
  | nil => exact .nil
  | append_singleton items a ih =>
      rw [sortBy_concat]
      exact pairwise_insertBy ih

/-- An item that goes in front of all others. -/
lemma insertBy_of_lt {a : α} {l : List α} (h : ∀ b ∈ l, key a < key b) :
    insertBy key a l = a :: l := by
  cases l with
  | nil => rfl
  | cons b l => exact if_pos (h b List.mem_cons_self)

lemma filter_insertBy (p : α → Bool) {a : α} {l : List α}
    (h : l.Pairwise fun b c => key b ≤ key c) :
    (insertBy key a l).filter p = if p a then insertBy key a (l.filter p) else l.filter p := by
  induction l with
  | nil => rw [insertBy, List.filter_cons]; rfl
  | cons b l ih =>
      obtain ⟨hb, hl⟩ := List.pairwise_cons.mp h
      rw [insertBy]
      split
      next hlt =>
          have hall : ∀ c ∈ (b :: l).filter p, key a < key c := by
            intro c hc
            rcases List.mem_cons.mp (List.mem_of_mem_filter hc) with rfl | hc
            · exact hlt
            · exact hlt.trans_le (hb c hc)
          rw [insertBy_of_lt hall, List.filter_cons]
      next hge =>
          rw [List.filter_cons, List.filter_cons, ih hl]
          by_cases hpb : p b = true
          · rw [if_pos hpb, if_pos hpb, insertBy, if_neg hge]
            split <;> rfl
          · rw [if_neg hpb, if_neg hpb]

/-- A choice of the items may as well be made before they are inserted. -/
lemma filter_sortBy (p : α → Bool) (items : List α) :
    (sortBy key items).filter p = sortBy key (items.filter p) := by
  induction items using List.reverseRecOn with
  | nil => rfl
  | append_singleton items a ih =>
      rw [sortBy_concat, filter_insertBy p (pairwise_sortBy items), ih, List.filter_append,
        List.filter_cons]
      split
      · exact (sortBy_concat _ a).symm
      · rw [List.filter_nil, List.append_nil]

/-- The first of the items has the least key, and is the earliest of those. -/
lemma head?_sortBy (items : List α) : (sortBy key items).head? = items.argmin key := by
  have hhead (a : α) (l : List α) : (insertBy key a l).head? =
      match l.head? with
      | none => some a
      | some b => if key a < key b then some a else some b := by
    cases l with
    | nil => rfl
    | cons b l =>
        rw [insertBy]
        split
        next h => exact (if_pos h).symm
        next h => exact (if_neg h).symm
  induction items using List.reverseRecOn with
  | nil => rfl
  | append_singleton items a ih =>
      rw [sortBy_concat, hhead, ih, List.argmin_concat]
      cases items.argmin key <;> rfl

/-- **What is found first has the least key, and is the earliest of those.** -/
theorem find?_sortBy (p : α → Bool) (items : List α) :
    (sortBy key items).find? p = (items.filter p).argmin key := by
  rw [← List.head?_filter, filter_sortBy, head?_sortBy]

end StableInsertion
