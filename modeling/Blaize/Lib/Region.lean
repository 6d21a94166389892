import Mathlib.Logic.Function.Basic
import Blaize.Lib.OrdMap

/-!
The part of a map under an injection of keys.

* `OrdMap.region`: the entries whose keys are images, under the keys that they are images of;
* `get_region`, `keys_region`: what is found there;
* `region_set`, `region_delete`: an update under an image is the update of the part;
* `region_set_of_none`, `region_delete_of_none`: an update elsewhere leaves the part as it is;
* `filterMapValues`: a change of all values, some of which go.
-/

/-- What holds of images only, by what they are images of, is found among what these are. -/
lemma Function.IsPartialInv.filter_eq {α β : Type*} {f : α → β} {g : β → Option α}
    (h : IsPartialInv f g) {p : β → Bool} {q : α → Bool} (hp : ∀ b, p b = (g b).elim false q)
    (l : List β) : l.filter p = ((l.filterMap g).filter q).map f := by
  induction l with
  | nil => rfl
  | cons b l ih =>
      have hb := hp b
      cases hg : g b with
      | none =>
          rw [hg] at hb
          rw [List.filter_cons_of_neg (by simp [hb]), List.filterMap_cons_none hg, ih]
      | some a =>
          rw [hg, Option.elim_some] at hb
          rw [List.filterMap_cons_some hg]
          by_cases ha : q a = true
          · rw [List.filter_cons_of_pos (hb.trans ha), List.filter_cons_of_pos ha, List.map_cons,
              ih, (h a b).mp hg]
          · rw [List.filter_cons_of_neg (hb ▸ ha), List.filter_cons_of_neg ha, ih]

namespace OrdMap

open Function

variable {κ κ' ν : Type*}

section

variable {f : κ' → κ} {g : κ → Option κ'} (h : IsPartialInv f g)

/-- An entry under the key that its key is the image of. -/
def pullEntry (g : κ → Option κ') (e : κ × ν) : Option (κ' × ν) := (g e.1).map (·, e.2)

lemma map_fst_filterMap (g : κ → Option κ') (l : List (κ × ν)) :
    (l.filterMap (pullEntry g)).map Prod.fst = (l.map Prod.fst).filterMap g := by
  rw [List.map_filterMap, List.filterMap_map]
  refine congrArg (List.filterMap · l) (funext fun e => ?_)
  rw [pullEntry, Option.map_map]
  exact Option.map_id'

include h in
lemma eq_of_mem_partialInv {k k' : κ} {j : κ'} (hk : j ∈ g k) (hk' : j ∈ g k') : k = k' :=
  ((h j k).mp hk).symm.trans ((h j k').mp hk')

/-- The part of a map under the injection `f` of keys, with the partial inverse `g`. -/
def region (m : OrdMap κ ν) : OrdMap κ' ν where
  entries := m.entries.filterMap (pullEntry g)
  nodup := by
    rw [map_fst_filterMap]
    exact m.nodup.filterMap fun _ _ _ hk hk' => eq_of_mem_partialInv h hk hk'

lemma keys_region (m : OrdMap κ ν) : (m.region h).keys = m.keys.filterMap g :=
  map_fst_filterMap g m.entries

variable {ν' : Type*}

/-- Each value changed, or gone with its key. -/
def filterMapValues (f : ν → Option ν') (m : OrdMap κ ν) : OrdMap κ ν' where
  entries := m.entries.filterMap fun e => (f e.2).map (e.1, ·)
  nodup := by
    refine List.Nodup.sublist ?_ m.nodup
    rw [List.map_filterMap]
    induction m.entries with
    | nil => exact List.Sublist.refl _
    | cons e l ih =>
        cases hf : f e.2 with
        | none =>
            rw [List.filterMap_cons_none (by simp [hf])]
            exact ih.cons _
        | some v =>
            rw [List.filterMap_cons_some (b := e.1) (by simp [hf])]
            exact ih.cons_cons _

lemma region_filterMapValues (m : OrdMap κ ν) (f' : ν → Option ν') :
    (m.filterMapValues f').region h = (m.region h).filterMapValues f' := by
  refine OrdMap.ext ?_
  dsimp only [region, filterMapValues]
  rw [List.filterMap_filterMap, List.filterMap_filterMap]
  refine List.filterMap_congr fun e _ => ?_
  cases hf : f' e.2 <;> cases hg : g e.1 <;> simp [pullEntry, hf, hg]

end

section

variable [DecidableEq κ] {f : κ' → κ} {g : κ → Option κ'} (h : IsPartialInv f g)

lemma region_set_of_none (m : OrdMap κ ν) {k : κ} (hk : g k = none) (v : ν) :
    (m.set k v).region h = m.region h := by
  have hnone (v : ν) : pullEntry g (k, v) = none := by
    rw [pullEntry, hk]
    rfl
  have hput (l : List (κ × ν)) :
      (put k v l).filterMap (pullEntry g) = l.filterMap (pullEntry g) := by
    induction l with
    | nil => rw [put, List.filterMap_cons_none (hnone v)]
    | cons e l ih =>
        obtain ⟨j, w⟩ := e
        rw [put]
        split
        next hkey =>
          rw [List.filterMap_cons_none (hnone v), List.filterMap_cons_none (hkey ▸ hnone w)]
        next => rw [List.filterMap_cons, List.filterMap_cons, ih]
  exact OrdMap.ext (hput m.entries)

lemma region_delete_of_none (m : OrdMap κ ν) {k : κ} (hk : g k = none) :
    (m.delete k).region h = m.region h := by
  refine OrdMap.ext ?_
  dsimp only [region, delete]
  rw [List.filterMap_filter]
  refine List.filterMap_congr fun e _ => ?_
  by_cases hkey : e.1 = k
  · simp [pullEntry, hkey, hk]
  · simp [hkey]

end

variable [DecidableEq κ] [DecidableEq κ'] {f : κ' → κ} {g : κ → Option κ'}
  (h : IsPartialInv f g)

include h in
lemma find_filterMap (k : κ') (l : List (κ × ν)) :
    find k (l.filterMap (pullEntry g)) = find (f k) l := by
  induction l with
  | nil => rfl
  | cons e l ih =>
      rw [find]
      by_cases hkey : e.1 = f k
      · have hpull : pullEntry g e = some (k, e.2) := by
          rw [pullEntry, (h k e.1).mpr hkey.symm]
          rfl
        rw [List.filterMap_cons_some hpull, find, if_pos rfl, if_pos hkey]
      · rw [if_neg hkey, ← ih]
        cases hg : g e.1 with
        | none =>
            rw [List.filterMap_cons_none]
            rw [pullEntry, hg]
            rfl
        | some j =>
            have hpull : pullEntry g e = some (j, e.2) := by
              rw [pullEntry, hg]
              rfl
            rw [List.filterMap_cons_some hpull, find, if_neg]
            rintro rfl
            exact hkey ((h j e.1).mp hg).symm

@[simp] lemma get_region (m : OrdMap κ ν) (k : κ') : (m.region h).get k = m.get (f k) :=
  find_filterMap h k m.entries

include h in
lemma filterMap_put (k : κ') (v : ν) (l : List (κ × ν)) :
    (put (f k) v l).filterMap (pullEntry g) = put k v (l.filterMap (pullEntry g)) := by
  have hpull : pullEntry g (f k, v) = some (k, v) := by
    rw [pullEntry, (h k (f k)).mpr rfl]
    rfl
  induction l with
  | nil => rw [put, List.filterMap_cons_some hpull, List.filterMap_nil, put]
  | cons e l ih =>
      rw [put]
      by_cases hkey : e.1 = f k
      · have hpull' : pullEntry g e = some (k, e.2) := by
          rw [pullEntry, (h k e.1).mpr hkey.symm]
          rfl
        rw [if_pos hkey, List.filterMap_cons_some hpull, List.filterMap_cons_some hpull', put,
          if_pos rfl]
      · rw [if_neg hkey]
        cases hg : g e.1 with
        | none =>
            have hnone : pullEntry g e = none := by
              rw [pullEntry, hg]
              rfl
            rw [List.filterMap_cons_none hnone, List.filterMap_cons_none hnone, ih]
        | some j =>
            have hpull' : pullEntry g e = some (j, e.2) := by
              rw [pullEntry, hg]
              rfl
            rw [List.filterMap_cons_some hpull', List.filterMap_cons_some hpull', put, if_neg, ih]
            rintro rfl
            exact hkey ((h j e.1).mp hg).symm

lemma region_set (m : OrdMap κ ν) (k : κ') (v : ν) :
    (m.set (f k) v).region h = (m.region h).set k v :=
  OrdMap.ext (filterMap_put h k v m.entries)

lemma region_delete (m : OrdMap κ ν) (k : κ') :
    (m.delete (f k)).region h = (m.region h).delete k := by
  refine OrdMap.ext ?_
  dsimp only [region, delete]
  rw [List.filterMap_filter, List.filter_filterMap]
  refine List.filterMap_congr fun e _ => ?_
  cases hg : g e.1 with
  | none => simp [pullEntry, hg]
  | some j =>
      have hiff : e.1 = f k ↔ j = k := by
        rw [← (h j e.1).mp hg]
        exact h.injective.eq_iff
      by_cases hj : j = k <;> simp [pullEntry, hg, hiff, hj, Option.filter_some]

end OrdMap
