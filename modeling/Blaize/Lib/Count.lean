import Mathlib.Data.List.Basic
import Mathlib.Data.List.Perm.Basic
import Mathlib.Tactic.Common

/-!
Counting the entries of a list that changes in one place, or that have one key.

* `List.countP_set_add`: an entry is replaced;
* `List.countP_eraseIdx_add`: an entry is taken out;
* `List.countP_eq_of_forall_getElem?`: two lists that have the property in the same places;
* `List.eq_of_countP_le_one`: the only place of an entry with the property;
* `List.countP_key`, `List.filter_key`: with different keys, the only entry with a key is the
  entry itself;
* `List.flatMap_eq_of_forall`, `List.flatMap_eraseIdx_perm`: what one entry leads to.
-/

namespace List

variable {α : Type*} (p : α → Bool)

lemma countP_set_add {l : List α} {i : ℕ} {a : α} (b : α) (h : l[i]? = some a) :
    (l.set i b).countP p + (p a).toNat = l.countP p + (p b).toNat := by
  induction l generalizing i with
  | nil => simp at h
  | cons x l ih =>
      cases i with
      | zero =>
          obtain rfl : x = a := by simpa using h
          cases hx : p x <;> cases hb : p b <;> simp [hx, hb]
      | succ i =>
          have := ih (i := i) (by simpa using h)
          simp only [List.set_cons_succ, List.countP_cons]
          omega

lemma countP_eraseIdx_add {l : List α} {i : ℕ} {a : α} (h : l[i]? = some a) :
    (l.eraseIdx i).countP p + (p a).toNat = l.countP p := by
  induction l generalizing i with
  | nil => simp at h
  | cons x l ih =>
      cases i with
      | zero =>
          obtain rfl : x = a := by simpa using h
          cases hx : p x <;> simp [hx]
      | succ i =>
          have := ih (i := i) (by simpa using h)
          simp only [List.eraseIdx_cons_succ, List.countP_cons]
          omega

lemma countP_eq_zero_of_forall_getElem? {l : List α} (h : ∀ i : ℕ, (l[i]?).any p = false) :
    l.countP p = 0 := by
  refine List.countP_eq_zero.mpr fun a ha hpa => ?_
  obtain ⟨i, hi⟩ := List.mem_iff_getElem?.mp ha
  have hno := h i
  rw [hi, Option.any_some, hpa] at hno
  cases hno

lemma countP_eq_of_forall_getElem? {l m : List α} (h : ∀ i : ℕ, (m[i]?).any p = (l[i]?).any p) :
    m.countP p = l.countP p := by
  induction l generalizing m with
  | nil => exact countP_eq_zero_of_forall_getElem? p h
  | cons x l ih =>
      cases m with
      | nil => exact (countP_eq_zero_of_forall_getElem? p fun i => (h i).symm).symm
      | cons y m =>
          have hhead : p y = p x := h 0
          have htail : m.countP p = l.countP p := ih fun i => h (i + 1)
          rw [List.countP_cons, List.countP_cons, htail, hhead]

lemma eq_of_countP_le_one {l : List α} (h : l.countP p ≤ 1) {i j : ℕ}
    (hi : (l[i]?).any p = true) (hj : (l[j]?).any p = true) : i = j := by
  have hpos : ∀ {l : List α} {k : ℕ}, (l[k]?).any p = true → 0 < l.countP p := by
    intro l k hk
    rw [Option.any_eq_true] at hk
    obtain ⟨a, ha, hpa⟩ := hk
    exact List.countP_pos_iff.mpr ⟨a, List.mem_of_getElem? ha, hpa⟩
  induction l generalizing i j with
  | nil => simp at hi
  | cons x l ih =>
      rw [List.countP_cons] at h
      cases i with
      | zero =>
          cases j with
          | zero => rfl
          | succ j =>
              have hx : p x = true := hi
              have hrest : 0 < l.countP p := hpos (k := j) hj
              rw [if_pos hx] at h
              omega
      | succ i =>
          cases j with
          | zero =>
              have hx : p x = true := hj
              have hrest : 0 < l.countP p := hpos (k := i) hi
              rw [if_pos hx] at h
              omega
          | succ j => exact congrArg Nat.succ (ih (by omega) hi hj)

lemma countP_key {β : Type*} [DecidableEq β] (f : α → β) {l : List α} (h : (l.map f).Nodup)
    {a : α} (ha : a ∈ l) : l.countP (fun b => decide (f b = f a) && p b) = (p a).toNat := by
  induction l with
  | nil => cases ha
  | cons x l ih =>
      rw [List.map_cons, List.nodup_cons] at h
      rcases List.mem_cons.mp ha with rfl | ha
      · have hrest : l.countP (fun b => decide (f b = f a) && p b) = 0 := by
          refine List.countP_eq_zero.mpr fun b hb hp => h.1 ?_
          rw [Bool.and_eq_true, decide_eq_true_eq] at hp
          exact List.mem_map.mpr ⟨b, hb, hp.1⟩
        rw [List.countP_cons, hrest]
        cases hp : p a <;> simp
      · have hne : f x ≠ f a := fun he => h.1 (List.mem_map.mpr ⟨a, ha, he.symm⟩)
        rw [List.countP_cons, ih h.2 ha]
        simp [hne]

/-- Of entries with different keys only one has a key. -/
lemma filter_key {β : Type*} [DecidableEq β] (f : α → β) {l : List α} (h : (l.map f).Nodup)
    {x : α} (hx : x ∈ l) : l.filter (fun y => decide (f y = f x)) = [x] := by
  induction l with
  | nil => cases hx
  | cons y l ih =>
      rw [List.map_cons, List.nodup_cons] at h
      rcases List.mem_cons.mp hx with rfl | hx
      · have hrest : l.filter (fun y => decide (f y = f x)) = [] := by
          refine List.filter_eq_nil_iff.mpr fun y hy he => h.1 ?_
          exact List.mem_map.mpr ⟨y, hy, of_decide_eq_true he⟩
        simp [hrest]
      · have hne : f y ≠ f x := fun he => h.1 (List.mem_map.mpr ⟨x, hx, he.symm⟩)
        simp [hne, ih h.2 hx]

/-- Only one entry leads to anything. -/
lemma flatMap_eq_of_forall {β : Type*} {l : List α} (hl : l.Nodup) {x : α} (hx : x ∈ l)
    {f : α → List β} (h : ∀ y ∈ l, y ≠ x → f y = []) : l.flatMap f = f x := by
  induction l with
  | nil => cases hx
  | cons y l ih =>
      rw [List.nodup_cons] at hl
      rw [List.flatMap_cons]
      rcases List.mem_cons.mp hx with rfl | hx
      · have hrest : l.flatMap f = [] := List.flatMap_eq_nil_iff.mpr fun y hy =>
          h y (List.mem_cons_of_mem _ hy) fun he => hl.1 (he ▸ hy)
        rw [hrest, List.append_nil]
      · have hne : y ≠ x := fun he => hl.1 (he ▸ hx)
        rw [h y List.mem_cons_self hne, List.nil_append]
        exact ih hl.2 hx fun z hz => h z (List.mem_cons_of_mem _ hz)

/-- An entry that is taken out takes what it leads to along. -/
lemma flatMap_eraseIdx_perm {β : Type*} {l : List α} {k : ℕ} {x : α} (h : l[k]? = some x)
    (f : α → List β) : (l.flatMap f).Perm (f x ++ (l.eraseIdx k).flatMap f) := by
  obtain ⟨hk, rfl⟩ := List.getElem?_eq_some_iff.mp h
  exact ((List.getElem_cons_eraseIdx_perm hk).symm.flatMap_right f)

end List
