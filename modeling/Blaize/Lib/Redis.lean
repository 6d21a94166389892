import Mathlib.Data.Rat.Defs
import Mathlib.Algebra.Order.Ring.Unbundled.Rat
import Blaize.Lib.OrdMap

/-!
An ideal Redis: hashes and sorted sets, one command at a time.

Hashes and sorted sets live in two maps, so a client has to keep the keys of the two kinds
apart, as it has to with a real server.  The scores are exact where a server has doubles.

* `Store`: the data of a server;
* `hset`, `hgetall`, `hget`: the commands on hashes;
* `zadd`, `zrem`, `zscore`, `zfirst`: the commands on sorted sets (`zfirst` is
  `ZRANGE key 0 0`: the least score, and the least member among equals; `zrange` is
  `ZRANGE key 0 -1`);
* `del`: deletes a key of either kind;
* `hgetall_hset`, `zscore_zadd`, `zscore_zrem`, `hgetall_del`: what is read after a write;
* `zfirst_eq_some`: **the member below all others is the first**.
-/

namespace Redis

/-- The fields of a hash. -/
abbrev Hash := OrdMap String String

/-- The members of a sorted set with their scores. -/
abbrev ZSet := OrdMap String ℚ

/-- The hashes and the sorted sets. -/
structure Store where
  hashes : OrdMap String Hash := ∅
  zsets : OrdMap String ZSet := ∅

namespace Store

variable (r : Store)

/-! ### Hashes -/

/-- The fields of a hash; a missing hash has none. -/
def hgetall (key : String) : Hash := (r.hashes.get key).getD ∅

/-- `HGET key field` -/
def hget (key field : String) : Option String := (r.hgetall key).get field

/-- Sets some fields of a hash, which is created if it is missing. -/
def hset (key : String) (fields : List (String × String)) : Store :=
  { r with hashes :=
      r.hashes.set key (fields.foldl (fun hash field => hash.set field.1 field.2) (r.hgetall key)) }

lemma hgetall_hset (key key' : String) (fields : List (String × String)) :
    (r.hset key fields).hgetall key' =
      if key = key' then fields.foldl (fun hash field => hash.set field.1 field.2) (r.hgetall key)
      else r.hgetall key' := by
  rw [hset, hgetall, OrdMap.get_set]
  split <;> rfl

/-- The last value that is set for a field is the one read, an unset field keeps its value. -/
lemma hget_hset_self (key : String) (fields : List (String × String)) (field : String) :
    (r.hset key fields).hget key field =
      ((fields.reverse.find? (·.1 = field)).map Prod.snd).or (r.hget key field) := by
  rw [hget, hgetall_hset, if_pos rfl, hget]
  generalize r.hgetall key = hash
  induction fields generalizing hash with
  | nil => rfl
  | cons f fields ih =>
      rw [List.foldl_cons, ih, List.reverse_cons, List.find?_append]
      cases fields.reverse.find? (·.1 = field) with
      | some g => rfl
      | none =>
          by_cases hf : f.1 = field
          · simp [hf]
          · simp [OrdMap.get_set, hf]

/-! ### Sorted sets -/

/-- The members of a sorted set; a missing one has none. -/
def zset (key : String) : ZSet := (r.zsets.get key).getD ∅

/-- `ZSCORE key member` -/
def zscore (key member : String) : Option ℚ := (r.zset key).get member

/-- `ZADD key score member` -/
def zadd (key : String) (score : ℚ) (member : String) : Store :=
  { r with zsets := r.zsets.set key ((r.zset key).set member score) }

/-- `ZREM key member` -/
def zrem (key member : String) : Store :=
  { r with zsets := r.zsets.set key ((r.zset key).delete member) }

/-- The order of a sorted set. -/
def precedes (a b : String × ℚ) : Bool := a.2 < b.2 || (a.2 = b.2 && a.1 < b.1)

/-- The first of some members in the order of a sorted set. -/
def least : List (String × ℚ) → Option (String × ℚ)
  | [] => none
  | a :: l =>
      match least l with
      | none => some a
      | some b => if precedes b a then some b else some a

/-- `ZRANGE key 0 0`. -/
def zfirst (key : String) : Option String := (least (r.zset key).entries).map Prod.fst

lemma mem_of_least {l : List (String × ℚ)} {a : String × ℚ} (h : least l = some a) : a ∈ l := by
  induction l generalizing a with
  | nil => cases h
  | cons b l ih =>
      rw [least] at h
      cases hl : least l with
      | none =>
          rw [hl] at h
          cases h
          exact List.mem_cons_self
      | some c =>
          rw [hl] at h
          dsimp only at h
          split at h <;> cases h
          · exact List.mem_cons_of_mem _ (ih hl)
          · exact List.mem_cons_self

/-- What `zfirst` finds is a member. -/
lemma zscore_of_zfirst {key member : String} (h : r.zfirst key = some member) :
    (r.zscore key member).isSome = true := by
  obtain ⟨⟨m, score⟩, hl, rfl⟩ := Option.map_eq_some_iff.mp h
  rw [zscore, ((r.zset key).mem_entries_iff).mp (mem_of_least hl)]
  rfl

/-- A member whose score is below all others is the first. -/
lemma least_eq_some {l : List (String × ℚ)} {a : String × ℚ} (ha : a ∈ l)
    (h : ∀ b ∈ l, b ≠ a → a.2 < b.2) : least l = some a := by
  induction l with
  | nil => cases ha
  | cons c l ih =>
      have hl : ∀ b ∈ l, b ≠ a → a.2 < b.2 := fun b hb => h b (List.mem_cons_of_mem _ hb)
      rw [least]
      by_cases hm : a ∈ l
      · rw [ih hm hl]
        dsimp only
        by_cases hca : c = a
        · rw [hca, ite_self]
        · have hlt : a.2 < c.2 := h c List.mem_cons_self hca
          rw [if_pos (by simp [precedes, hlt])]
      · obtain rfl : a = c := (List.mem_cons.mp ha).resolve_right hm
        split
        next => rfl
        next b hb =>
            have hne : b ≠ a := fun e => hm (e ▸ mem_of_least hb)
            have hlt : a.2 < b.2 := hl b (mem_of_least hb) hne
            rw [if_neg]
            simp [precedes, hlt.le, hlt.ne']

/-- The member of a sorted set with the least score of all is the one `zfirst` finds. -/
lemma zfirst_eq_some {key member : String} {score : ℚ} (hm : r.zscore key member = some score)
    (h : ∀ other s, other ≠ member → r.zscore key other = some s → score < s) :
    r.zfirst key = some member := by
  have hmem : (member, score) ∈ (r.zset key).entries := (r.zset key).mem_entries_iff.mpr hm
  rw [zfirst, least_eq_some hmem]
  · rfl
  · rintro ⟨other, s⟩ hb hne
    have hs : r.zscore key other = some s := (r.zset key).mem_entries_iff.mp hb
    refine h other s (fun e => hne ?_) hs
    subst e
    rw [hm] at hs
    rw [Option.some.inj hs]

lemma zfirst_eq_none {key : String} (h : ∀ member, r.zscore key member = none) :
    r.zfirst key = none := by
  cases hf : r.zfirst key with
  | none => rfl
  | some member =>
      have := r.zscore_of_zfirst hf
      rw [h member] at this
      cases this

lemma zscore_zadd (key key' : String) (score : ℚ) (member member' : String) :
    (r.zadd key score member).zscore key' member' =
      if key = key' ∧ member = member' then some score else r.zscore key' member' := by
  rw [zscore, zset, zadd, OrdMap.get_set]
  by_cases hk : key = key'
  · subst hk
    rw [if_pos rfl, Option.getD_some, OrdMap.get_set]
    by_cases hm : member = member' <;> simp [hm, zscore]
  · rw [if_neg hk, if_neg (fun h => hk h.1)]
    rfl

lemma zscore_zrem (key key' member member' : String) :
    (r.zrem key member).zscore key' member' =
      if key = key' ∧ member = member' then none else r.zscore key' member' := by
  rw [zscore, zset, zrem, OrdMap.get_set]
  by_cases hk : key = key'
  · subst hk
    rw [if_pos rfl, Option.getD_some, OrdMap.get_delete]
    by_cases hm : member = member' <;> simp [hm, zscore]
  · rw [if_neg hk, if_neg (fun h => hk h.1)]
    rfl

lemma zset_zadd (key key' : String) (score : ℚ) (member : String) :
    (r.zadd key score member).zset key' =
      if key = key' then (r.zset key).set member score else r.zset key' := by
  rw [zset, zadd, OrdMap.get_set]
  split <;> rfl

/-- `ZRANGE key 0 -1`: all members in order. -/
def zrange (key : String) : List String :=
  ((r.zset key).entries.mergeSort fun a b => ! precedes b a).map Prod.fst

lemma zrange_perm (key : String) : (r.zrange key).Perm (r.zset key).keys :=
  (List.mergeSort_perm _ _).map Prod.fst

/-- Members that were added by increasing scores stay in this order. -/
lemma zrange_of_pairwise {key : String}
    (h : (r.zset key).entries.Pairwise fun a b => a.2 < b.2) :
    r.zrange key = (r.zset key).keys := by
  rw [zrange, List.mergeSort_of_pairwise (h.imp fun {a b} hlt => ?_)]
  · rfl
  · simp [precedes, hlt.le, hlt.ne']

@[simp] lemma zscore_hset (key : String) (fields : List (String × String)) (key' member : String) :
    (r.hset key fields).zscore key' member = r.zscore key' member := rfl

/-! ### Keys -/

/-- `DEL`. -/
def del (key : String) : Store :=
  { hashes := r.hashes.delete key, zsets := r.zsets.delete key }

lemma hgetall_del (key key' : String) :
    (r.del key).hgetall key' = if key = key' then ∅ else r.hgetall key' := by
  rw [del, hgetall, OrdMap.get_delete]
  split <;> rfl

lemma zscore_del {key key' : String} (h : key ≠ key') (member : String) :
    (r.del key).zscore key' member = r.zscore key' member := by
  rw [zscore, zset, del, OrdMap.get_delete, if_neg h]
  rfl

end Store

end Redis
