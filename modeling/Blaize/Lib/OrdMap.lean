import Mathlib.Algebra.GroupWithZero.Nat
import Mathlib.Data.List.Induction
import Mathlib.Data.List.Nodup
import Mathlib.Data.Prod.Basic
import Mathlib.Tactic.Common

/-!
Finite maps that remember the order in which their keys were first inserted, as the maps
and sets of ECMAScript do: setting a present key keeps its place, a new key goes last.

* `OrdMap`: the entries with the proof that no key occurs twice;
* `get`, `set`, `delete`, `has`, `keys`, `values`, `size`, `mapValues`;
* `get_set`, `get_delete`: what a lookup finds after an update;
* `get_mapValues`, `mapValues_set`: applying a function to the values commutes with both;
* `Grown`: a map with the same keys and more, and with values in a relation to the old ones;
* `count_set`, `count_delete`: how an update changes the number of entries with a property;
* `sum_set`: how it changes the sum of the values;
* `OrdSet`: sets, as maps to `Unit`.
-/

/-- A finite map with its keys in the order of first insertion. -/
@[ext]
structure OrdMap (κ ν : Type*) where
  entries : List (κ × ν)
  nodup : (entries.map Prod.fst).Nodup

namespace OrdMap

variable {κ ν : Type*} [DecidableEq κ]

instance [DecidableEq ν] : DecidableEq (OrdMap κ ν)
  | ⟨l, _⟩, ⟨l', _⟩ => decidable_of_iff (l = l') (by simp)

/-! ### Association lists -/

/-- The first value of a key in an association list. -/
def find (k : κ) : List (κ × ν) → Option ν
  | [] => none
  | (k', v) :: l => if k' = k then some v else find k l

/-- Replaces the first value of a key, or appends the key. -/
def put (k : κ) (v : ν) : List (κ × ν) → List (κ × ν)
  | [] => [(k, v)]
  | (k', v') :: l => if k' = k then (k, v) :: l else (k', v') :: put k v l

lemma find_eq_none_iff {k : κ} {l : List (κ × ν)} :
    find k l = none ↔ k ∉ l.map Prod.fst := by
  induction l with
  | nil => simp [find]
  | cons p l ih =>
      obtain ⟨k', v⟩ := p
      by_cases h : k' = k
      · simp [find, h]
      · simp [find, h, ih, Ne.symm h]

lemma find_put (k k' : κ) (v : ν) (l : List (κ × ν)) :
    find k' (put k v l) = if k = k' then some v else find k' l := by
  induction l with
  | nil => simp [put, find]
  | cons p l ih =>
      obtain ⟨j, w⟩ := p
      by_cases h : j = k
      · subst h
        by_cases hk : j = k' <;> simp [put, find, hk]
      · by_cases hj : j = k'
        · subst hj
          simp [put, find, h, Ne.symm h]
        · simp [put, find, h, hj, ih]

lemma find_filter (k k' : κ) (l : List (κ × ν)) :
    find k' (l.filter fun p => p.1 ≠ k) = if k = k' then none else find k' l := by
  induction l with
  | nil => simp [find]
  | cons p l ih =>
      obtain ⟨j, w⟩ := p
      by_cases h : j = k
      · subst h
        rw [List.filter_cons_of_neg (by simp), ih]
        by_cases hk : j = k' <;> simp [find, hk]
      · rw [List.filter_cons_of_pos (by simpa using h)]
        by_cases hj : j = k'
        · subst hj
          simp [find, Ne.symm h]
        · simp only [find, if_neg hj, ih]

lemma find_map {ν' : Type*} (f : ν → ν') (k : κ) (l : List (κ × ν)) :
    find k (l.map fun e => (e.1, f e.2)) = (find k l).map f := by
  induction l with
  | nil => rfl
  | cons e l ih =>
      rw [List.map_cons, find, find, ih]
      split <;> rfl

lemma map_fst_put (k : κ) (v : ν) (l : List (κ × ν)) :
    (put k v l).map Prod.fst =
      if k ∈ l.map Prod.fst then l.map Prod.fst else l.map Prod.fst ++ [k] := by
  induction l with
  | nil => simp [put]
  | cons p l ih =>
      obtain ⟨j, w⟩ := p
      by_cases h : j = k
      · subst h
        simp [put]
      · simp only [put, if_neg h, List.map_cons, ih, List.mem_cons, Ne.symm h, false_or]
        split <;> rfl

lemma nodup_put {k : κ} {v : ν} {l : List (κ × ν)} (h : (l.map Prod.fst).Nodup) :
    ((put k v l).map Prod.fst).Nodup := by
  rw [map_fst_put]
  split
  · exact h
  next hk => exact List.nodup_append.mpr ⟨h, by simp, by simpa using fun a v hm e => hk (by
      subst e; exact List.mem_map.mpr ⟨(a, v), hm, rfl⟩)⟩

lemma mem_iff_find {l : List (κ × ν)} (h : (l.map Prod.fst).Nodup) {k : κ} {v : ν} :
    (k, v) ∈ l ↔ find k l = some v := by
  induction l with
  | nil => simp [find]
  | cons p l ih =>
      obtain ⟨j, w⟩ := p
      rw [List.map_cons, List.nodup_cons] at h
      by_cases hj : j = k
      · subst hj
        simp only [List.mem_cons, Prod.mk.injEq, true_and, find, if_true, Option.some.injEq]
        constructor
        · rintro (rfl | hm)
          · rfl
          · exact absurd (List.mem_map.mpr ⟨(j, v), hm, rfl⟩) h.1
        · rintro rfl
          exact Or.inl rfl
      · simp only [List.mem_cons, Prod.mk.injEq, find, if_neg hj, ih h.2, Ne.symm hj, false_and,
          false_or]

/-! ### The operations -/

/-- The map without entries. -/
def empty : OrdMap κ ν := ⟨[], List.nodup_nil⟩

instance : EmptyCollection (OrdMap κ ν) := ⟨empty⟩

instance : Inhabited (OrdMap κ ν) := ⟨empty⟩

/-- The value of a key. -/
def get (m : OrdMap κ ν) (k : κ) : Option ν := find k m.entries

/-- Whether a key is present. -/
def has (m : OrdMap κ ν) (k : κ) : Bool := (m.get k).isSome

/-- Sets the value of a key; a new key goes last. -/
def set (m : OrdMap κ ν) (k : κ) (v : ν) : OrdMap κ ν := ⟨put k v m.entries, nodup_put m.nodup⟩

/-- Removes a key. -/
def delete (m : OrdMap κ ν) (k : κ) : OrdMap κ ν :=
  ⟨m.entries.filter fun p => p.1 ≠ k, m.nodup.sublist (List.filter_sublist.map _)⟩

/-- The keys in order. -/
def keys (m : OrdMap κ ν) : List κ := m.entries.map Prod.fst

/-- The values in order. -/
def values (m : OrdMap κ ν) : List ν := m.entries.map Prod.snd

/-- The number of entries. -/
def size (m : OrdMap κ ν) : ℕ := m.entries.length

variable (m : OrdMap κ ν)

@[simp] lemma get_empty (k : κ) : (∅ : OrdMap κ ν).get k = none := rfl

lemma get_set (k k' : κ) (v : ν) : (m.set k v).get k' = if k = k' then some v else m.get k' :=
  find_put k k' v m.entries

@[simp] lemma get_set_self (k : κ) (v : ν) : (m.set k v).get k = some v := by
  rw [get_set, if_pos rfl]

lemma get_set_ne {k k' : κ} (v : ν) (h : k ≠ k') : (m.set k v).get k' = m.get k' := by
  rw [get_set, if_neg h]

lemma get_delete (k k' : κ) : (m.delete k).get k' = if k = k' then none else m.get k' :=
  find_filter k k' m.entries

lemma get_delete_ne {k k' : κ} (h : k ≠ k') : (m.delete k).get k' = m.get k' := by
  rw [get_delete, if_neg h]

lemma get_foldl_delete (ks : List κ) (k' : κ) :
    (ks.foldl delete m).get k' = if k' ∈ ks then none else m.get k' := by
  induction ks generalizing m with
  | nil => simp
  | cons k ks ih =>
      rw [List.foldl_cons, ih, get_delete]
      by_cases hk : k = k'
      · simp [hk]
      · simp [hk, Ne.symm hk]

/-- Setting keys one after another: of different keys each has its own value. -/
lemma get_foldl_set {l : List (κ × ν)} (h : (l.map Prod.fst).Nodup) (m : OrdMap κ ν) (k : κ) :
    (l.foldl (fun m e => m.set e.1 e.2) m).get k = (find k l).or (m.get k) := by
  induction l generalizing m with
  | nil => rfl
  | cons e l ih =>
      obtain ⟨j, v⟩ := e
      rw [List.map_cons, List.nodup_cons] at h
      rw [List.foldl_cons, ih h.2, get_set, find]
      by_cases hj : j = k
      · subst hj
        rw [if_pos rfl, if_pos rfl, find_eq_none_iff.mpr h.1]
        rfl
      · rw [if_neg hj, if_neg hj]

/-- What is got after setting keys one after another was set, or was there before. -/
lemma mem_or_get_of_get_foldl_set {l : List (κ × ν)} {m : OrdMap κ ν} {k : κ} {v : ν}
    (h : (l.foldl (fun m e => m.set e.1 e.2) m).get k = some v) :
    (k, v) ∈ l ∨ m.get k = some v := by
  induction l generalizing m with
  | nil => exact .inr h
  | cons e l ih =>
      rcases ih h with hmem | hget
      · exact .inl (List.mem_cons_of_mem _ hmem)
      · rw [get_set] at hget
        split at hget
        next hk => exact .inl (hk ▸ Option.some.inj hget ▸ List.mem_cons_self)
        next => exact .inr hget

/-- Whatever is set after it, a key that was set is there. -/
lemma get_foldl_set_ne_none {l : List (κ × ν)} {m : OrdMap κ ν} {k : κ}
    (h : k ∈ l.map Prod.fst ∨ m.get k ≠ none) :
    (l.foldl (fun m e => m.set e.1 e.2) m).get k ≠ none := by
  induction l generalizing m with
  | nil => exact h.resolve_left List.not_mem_nil
  | cons e l ih =>
      refine ih ?_
      by_cases hk : e.1 = k
      · exact .inr (by simp [← hk])
      · rw [get_set_ne _ _ hk]
        refine h.imp_left fun hmem => ?_
        exact (List.mem_cons.mp hmem).resolve_left (Ne.symm hk)

lemma length_put_le (k : κ) (v : ν) (l : List (κ × ν)) : (put k v l).length ≤ l.length + 1 := by
  induction l with
  | nil => exact Nat.le_refl _
  | cons p l ih =>
      rw [put]
      split
      · exact Nat.le_succ _
      · exact Nat.succ_le_succ ih

/-- Setting a key adds at most one entry. -/
lemma size_set_le (k : κ) (v : ν) : (m.set k v).size ≤ m.size + 1 := length_put_le k v m.entries

/-- Setting a key adds an entry if the key is new. -/
lemma size_set (k : κ) (v : ν) :
    (m.set k v).size = if m.has k then m.size else m.size + 1 := by
  have hkeys := congrArg List.length (map_fst_put k v m.entries)
  have hmem : k ∈ m.entries.map Prod.fst ↔ m.has k = true := by
    rw [← not_iff_not, ← find_eq_none_iff, has, Bool.not_eq_true, Option.isSome_eq_false_iff,
      Option.isNone_iff_eq_none]
    rfl
  rw [List.length_map] at hkeys
  refine hkeys.trans ?_
  by_cases h : m.has k = true
  · rw [if_pos h, if_pos (hmem.mpr h), List.length_map]
    rfl
  · rw [if_neg h, if_neg (mt hmem.mp h), List.length_append, List.length_map]
    rfl

/-- Removing a key adds no entry. -/
lemma size_delete_le (k : κ) : (m.delete k).size ≤ m.size := List.length_filter_le _ _

lemma has_eq_false_iff {k : κ} : m.has k = false ↔ m.get k = none := by
  rw [has, Option.isSome_eq_false_iff, Option.isNone_iff_eq_none]

lemma has_iff {k : κ} : m.has k = true ↔ ∃ v, m.get k = some v := by
  rw [has, Option.isSome_iff_exists]

lemma has_set (k k' : κ) (v : ν) : (m.set k v).has k' = (decide (k = k') || m.has k') := by
  rw [has, get_set]
  by_cases h : k = k' <;> simp [h, has]

lemma has_delete (k k' : κ) : (m.delete k).has k' = (!decide (k = k') && m.has k') := by
  rw [has, get_delete]
  by_cases h : k = k' <;> simp [h, has]

lemma mem_entries_iff {k : κ} {v : ν} : (k, v) ∈ m.entries ↔ m.get k = some v :=
  mem_iff_find m.nodup

lemma mem_keys_iff {k : κ} : k ∈ m.keys ↔ ∃ v, m.get k = some v := by
  rw [← Option.ne_none_iff_exists', ne_eq, get, find_eq_none_iff, not_not, keys]

/-- A map is what its keys are, in their order, and what stands under them. -/
lemma eq_of_keys {m m' : OrdMap κ ν} (hkeys : m.keys = m'.keys)
    (hget : ∀ k ∈ m.keys, m.get k = m'.get k) : m = m' := by
  have hentries (m : OrdMap κ ν) :
      m.entries.map (Prod.map id some) = m.keys.map fun k => (k, m.get k) := by
    rw [keys, List.map_map]
    exact List.map_congr_left fun e he => Prod.ext rfl ((mem_entries_iff m).mp he).symm
  refine OrdMap.ext (List.map_injective_iff.mpr
    (Function.Injective.prodMap Function.injective_id fun _ _ => Option.some.inj) ?_)
  rw [hentries, hentries, ← hkeys]
  exact List.map_congr_left fun k hk => Prod.ext rfl (hget k hk)

lemma keys_delete (k : κ) : (m.delete k).keys = m.keys.filter fun k' => k' ≠ k := by
  rw [keys, keys, List.filter_map]
  rfl

lemma delete_delete (k : κ) : (m.delete k).delete k = m.delete k := by
  simp [delete]

variable {m} in
/-- Deleting an absent key changes nothing. -/
lemma delete_of_get_none {k : κ} (h : m.get k = none) : m.delete k = m := by
  have hentries : (m.delete k).entries = m.entries := by
    refine List.filter_eq_self.mpr fun e he => ?_
    have hne : e.1 ≠ k := fun hk => by
      rw [← hk, m.mem_entries_iff.mp he] at h
      cases h
    simpa using hne
  cases hm : m.delete k
  cases m
  simp_all

variable {m} in
/-- A new key goes last. -/
lemma entries_set_of_get_none {k : κ} (h : m.get k = none) (v : ν) :
    (m.set k v).entries = m.entries ++ [(k, v)] := by
  have hput (l : List (κ × ν)) (hl : find k l = none) : put k v l = l ++ [(k, v)] := by
    induction l with
    | nil => rfl
    | cons e l ih =>
        obtain ⟨j, w⟩ := e
        rw [find] at hl
        split at hl
        · cases hl
        · next hj => rw [put, if_neg hj, ih hl, List.cons_append]
  exact hput m.entries h

variable {m} in
/-- Different keys that are set in an empty map come in their order. -/
lemma entries_foldl_set {l : List (κ × ν)} (h : (l.map Prod.fst).Nodup) :
    (l.foldl (fun m e => m.set e.1 e.2) (∅ : OrdMap κ ν)).entries = l := by
  induction l using List.reverseRecOn with
  | nil => rfl
  | append_singleton l e ih =>
      rw [List.map_append, List.nodup_append'] at h
      have hnew : (l.foldl (fun m e => m.set e.1 e.2) (∅ : OrdMap κ ν)).get e.1 = none := by
        rw [get_foldl_set h.1, find_eq_none_iff.mpr (h.2.2 · (by simp))]
        rfl
      rw [List.foldl_append, List.foldl_cons, List.foldl_nil, entries_set_of_get_none hnew,
        ih h.1]

/-- A key that is there keeps its place. -/
lemma put_of_mem {k : κ} {l : List (κ × ν)} (hnodup : (l.map Prod.fst).Nodup)
    (hk : k ∈ l.map Prod.fst) (v : ν) :
    put k v l = l.map fun e => (e.1, if e.1 = k then v else e.2) := by
  induction l with
  | nil => cases hk
  | cons e l ih =>
      rw [List.map_cons, List.nodup_cons] at hnodup
      rw [put, List.map_cons]
      split
      next he =>
          have hrest : l.map (fun e => (e.1, if e.1 = k then v else e.2)) = l := by
            refine (List.map_congr_left fun e' he' => ?_).trans (List.map_id l)
            have hne : e'.1 ≠ k := fun h => hnodup.1 (he.trans h.symm ▸ List.mem_map_of_mem he')
            rw [if_neg hne]
            rfl
          rw [hrest, he]
      next he =>
          rw [List.map_cons, List.mem_cons] at hk
          rw [ih hnodup.2 (hk.resolve_left (Ne.symm he))]

/-- Different keys that are set in a map: those that are there keep their place, the others go
last. -/
lemma entries_foldl_set_of {l : List (κ × ν)} (h : (l.map Prod.fst).Nodup) :
    (l.foldl (fun m e => m.set e.1 e.2) m).entries =
      m.entries.map (fun e => (e.1, (find e.1 l).getD e.2)) ++
        l.filter fun e => e.1 ∉ m.entries.map Prod.fst := by
  induction l generalizing m with
  | nil => simp [find]
  | cons e l ih =>
      rw [List.map_cons, List.nodup_cons] at h
      have hfind : find e.1 l = none := find_eq_none_iff.mpr h.1
      have hne : ∀ e' ∈ l, e.1 ≠ e'.1 := fun e' he' heq => h.1 (heq ▸ List.mem_map_of_mem he')
      rw [List.foldl_cons, ih _ h.2]
      by_cases hk : e.1 ∈ m.entries.map Prod.fst
      · have hset : (m.set e.1 e.2).entries =
            m.entries.map fun e' => (e'.1, if e'.1 = e.1 then e.2 else e'.2) :=
          put_of_mem m.nodup hk e.2
        have hkeys : (m.set e.1 e.2).entries.map Prod.fst = m.entries.map Prod.fst := by
          rw [hset, List.map_map]
          rfl
        rw [hkeys, hset, List.map_map, List.filter_cons_of_neg (by simpa using hk)]
        refine congrArg (· ++ _) (List.map_congr_left fun e' _ => ?_)
        by_cases he : e'.1 = e.1
        · simp [he, find, hfind]
        · simp [he, find, Ne.symm he]
      · have hset : (m.set e.1 e.2).entries = m.entries ++ [e] :=
          entries_set_of_get_none (find_eq_none_iff.mpr hk) e.2
        rw [hset, List.map_append, List.map_append, List.filter_cons_of_pos (by simpa using hk),
          List.append_assoc]
        refine congrArg₂ (· ++ ·) (List.map_congr_left fun e' he' => ?_) ?_
        · have he : e.1 ≠ e'.1 := fun heq => hk (heq ▸ List.mem_map_of_mem he')
          rw [find, if_neg he]
        · rw [List.map_singleton, hfind, List.singleton_append]
          refine congrArg (e :: ·) (List.filter_congr fun e' he' => ?_)
          simp [(hne e' he').symm]

variable {m} in
lemma mem_values_set {k : κ} {v w : ν}
    (h : w ∈ (m.set k v).values) : w = v ∨ w ∈ m.values := by
  obtain ⟨⟨k', w'⟩, hmem, rfl⟩ := List.mem_map.mp h
  rw [mem_entries_iff, get_set] at hmem
  split at hmem
  · exact Or.inl (Option.some.inj hmem).symm
  · exact Or.inr (List.mem_map.mpr ⟨_, m.mem_entries_iff.mpr hmem, rfl⟩)

variable {m} in
lemma mem_values_delete {k : κ} {w : ν}
    (h : w ∈ (m.delete k).values) : w ∈ m.values := by
  obtain ⟨e, hmem, rfl⟩ := List.mem_map.mp h
  exact List.mem_map.mpr ⟨e, (List.mem_filter.mp hmem).1, rfl⟩

/-! ### Applying a function to the values -/

section

variable {ν' : Type*} (f : ν → ν')

/-- Applies a function to every value. -/
def mapValues (m : OrdMap κ ν) : OrdMap κ ν' :=
  ⟨m.entries.map fun p => (p.1, f p.2), by simpa [Function.comp_def] using m.nodup⟩

lemma get_mapValues (k : κ) : (m.mapValues f).get k = (m.get k).map f :=
  find_map f k m.entries

lemma mapValues_set (k : κ) (v : ν) : (m.set k v).mapValues f = (m.mapValues f).set k (f v) := by
  simp only [set, mapValues, mk.injEq]
  induction m.entries with
  | nil => rfl
  | cons p l ih =>
      simp only [List.map_cons, put]
      split
      · rfl
      · rw [List.map_cons, ih]

end

/-! ### Growing -/

section

variable {r : ν → ν → Prop}

/-- Every key is still there, with a value in a relation to the old one. -/
def Grown (r : ν → ν → Prop) (m m' : OrdMap κ ν) : Prop :=
  ∀ k v, m.get k = some v → ∃ v', m'.get k = some v' ∧ r v v'

lemma grown_refl (hr : ∀ v, r v v) (m : OrdMap κ ν) : Grown r m m :=
  fun _ v h => ⟨v, h, hr v⟩

lemma Grown.trans (hr : ∀ v v' v'', r v v' → r v' v'' → r v v'') {m m' m'' : OrdMap κ ν}
    (h : Grown r m m') (h' : Grown r m' m'') : Grown r m m'' := by
  intro k v hv
  obtain ⟨v', hv', hfirst⟩ := h k v hv
  obtain ⟨v'', hv'', hlast⟩ := h' k v' hv'
  exact ⟨v'', hv'', hr v v' v'' hfirst hlast⟩

/-- Setting a key to a value in the relation to the old one. -/
lemma grown_set (hr : ∀ v, r v v) {m : OrdMap κ ν} {k : κ} {w : ν}
    (h : ∀ v, m.get k = some v → r v w) : Grown r m (m.set k w) := by
  intro k' v hv
  rw [get_set]
  split
  next hk =>
    subst hk
    exact ⟨w, rfl, h v hv⟩
  next => exact ⟨v, hv, hr v⟩

lemma Grown.mapValues {ν' : Type*} {r' : ν' → ν' → Prop} {f : ν → ν'}
    (hf : ∀ v v', r v v' → r' (f v) (f v')) {m m' : OrdMap κ ν} (h : Grown r m m') :
    Grown r' (m.mapValues f) (m'.mapValues f) := by
  intro k w hw
  rw [get_mapValues, Option.map_eq_some_iff] at hw
  obtain ⟨v, hv, rfl⟩ := hw
  obtain ⟨v', hv', hr⟩ := h k v hv
  exact ⟨f v', by rw [get_mapValues, hv', Option.map_some], hf v v' hr⟩

end

/-! ### Counting entries -/

lemma countP_put (p : κ × ν → Bool) (k : κ) (v : ν) (l : List (κ × ν)) :
    (put k v l).countP p + ((find k l).any fun w => p (k, w)).toNat =
      l.countP p + (p (k, v)).toNat := by
  induction l with
  | nil =>
      rw [put, find, List.countP_singleton]
      cases p (k, v) <;> rfl
  | cons e l ih =>
      obtain ⟨j, w⟩ := e
      rw [put, find]
      split
      next h =>
          subst h
          rw [List.countP_cons, List.countP_cons, Option.any_some]
          cases p (j, v) <;> cases p (j, w) <;> simp
      next =>
          rw [List.countP_cons, List.countP_cons]
          omega

lemma countP_filter_ne (p : κ × ν → Bool) (k : κ) {l : List (κ × ν)}
    (h : (l.map Prod.fst).Nodup) :
    (l.filter fun e => e.1 ≠ k).countP p + ((find k l).any fun w => p (k, w)).toNat =
      l.countP p := by
  induction l with
  | nil => rfl
  | cons e l ih =>
      obtain ⟨j, w⟩ := e
      rw [List.map_cons, List.nodup_cons] at h
      by_cases hj : j = k
      · subst hj
        have hrest : (l.filter fun e => e.1 ≠ j) = l := by
          refine List.filter_eq_self.mpr fun e he => ?_
          have hne : e.1 ≠ j := fun h' => h.1 (List.mem_map.mpr ⟨e, he, h'⟩)
          simpa using hne
        rw [List.filter_cons_of_neg (by simp), hrest, find, if_pos rfl, List.countP_cons,
          Option.any_some]
        cases p (j, w) <;> simp
      · have := ih h.2
        rw [List.filter_cons_of_pos (by simpa using hj), find, if_neg hj, List.countP_cons,
          List.countP_cons]
        omega

/-- The number of entries with a property. -/
def count (p : κ → ν → Bool) (m : OrdMap κ ν) : ℕ := m.entries.countP fun e => p e.1 e.2

/-- Deleting a key takes its value out of the count. -/
lemma count_delete (p : κ → ν → Bool) (k : κ) :
    (m.delete k).count p + ((m.get k).any (p k)).toNat = m.count p :=
  countP_filter_ne (fun e => p e.1 e.2) k m.nodup

variable {m} in
/-- Deleting a present key takes one entry away. -/
lemma size_delete_of_get {k : κ} {v : ν} (h : m.get k = some v) :
    (m.delete k).size + 1 = m.size := by
  have hcount := m.count_delete (fun _ _ => true) k
  simpa [h, count, size] using hcount

/-- Setting a key counts the new value beside those of the other keys. -/
lemma count_set (p : κ → ν → Bool) (k : κ) (v : ν) :
    (m.set k v).count p = (m.delete k).count p + (p k v).toNat := by
  have hput : (m.set k v).count p + ((m.get k).any (p k)).toNat = m.count p + (p k v).toNat :=
    countP_put (fun e => p e.1 e.2) k v m.entries
  have hdelete := m.count_delete p k
  omega

lemma count_congr {p q : κ → ν → Bool} (h : ∀ k v, m.get k = some v → p k v = q k v) :
    m.count p = m.count q := by
  refine List.countP_congr fun e he => ?_
  rw [h e.1 e.2 (m.mem_entries_iff.mp he)]

/-! ### Adding up values -/

/-- The sum of a number of each value. -/
def sum (f : ν → ℕ) (m : OrdMap κ ν) : ℕ := (m.entries.map fun e => f e.2).sum

lemma sum_put (f : ν → ℕ) (k : κ) (v : ν) (l : List (κ × ν)) :
    ((put k v l).map fun e => f e.2).sum + (find k l).elim 0 f =
      (l.map fun e => f e.2).sum + f v := by
  induction l with
  | nil => simp [put, find]
  | cons e l ih =>
      rw [put, find]
      split
      · simp only [List.map_cons, List.sum_cons, Option.elim_some]
        omega
      · simp only [List.map_cons, List.sum_cons]
        omega

/-- Setting a key adds the number of the new value, and takes away that of the old one. -/
lemma sum_set (f : ν → ℕ) (k : κ) (v : ν) :
    (m.set k v).sum f + (m.get k).elim 0 f = m.sum f + f v := sum_put f k v m.entries

end OrdMap

/-- A finite set with its members in the order of first insertion. -/
abbrev OrdSet (κ : Type*) := OrdMap κ Unit

namespace OrdSet

variable {κ : Type*} [DecidableEq κ]

/-- Adds a member. -/
def add (s : OrdSet κ) (k : κ) : OrdSet κ := s.set k ()

end OrdSet
