import Mathlib.Data.List.Basic
import Mathlib.Data.List.Pairwise
import Mathlib.Tactic.Common

/-!
Recency: which keys of a log of uses were used last the longest ago.

* `lastUse`: the number of the last use of a key;
* `OldestFirst`: a list of keys in the order of their last uses;
* `OldestFirst.use`: **moving a used key to the end keeps the order**, and dropping keys does
  (`OldestFirst.sublist`), so the first key is the one to evict (`OldestFirst.head_lt`).
-/

namespace Recency

variable {κ : Type*} [DecidableEq κ]

/-- The number of the last use of a key, counted from one; zero for a key without uses. -/
def lastUse (uses : List κ) (k : κ) : ℕ := uses.length - uses.reverse.idxOf k

lemma lastUse_le (uses : List κ) (k : κ) : lastUse uses k ≤ uses.length := Nat.sub_le _ _

lemma lastUse_append_self (uses : List κ) (k : κ) :
    lastUse (uses ++ [k]) k = uses.length + 1 := by
  simp [lastUse]

lemma lastUse_append_ne {k k' : κ} (uses : List κ) (h : k' ≠ k) :
    lastUse (uses ++ [k']) k = lastUse uses k := by
  have hidx : (uses ++ [k']).reverse.idxOf k = uses.reverse.idxOf k + 1 := by
    rw [List.reverse_append, List.reverse_singleton, List.singleton_append,
      List.idxOf_cons_ne _ h]
  rw [lastUse, hidx, List.length_append, List.length_singleton, Nat.add_sub_add_right, lastUse]

/-- The keys stand in the order of their last uses. -/
def OldestFirst (uses keys : List κ) : Prop :=
  keys.Pairwise fun a b => lastUse uses a < lastUse uses b

variable {uses keys keys' : List κ} {k : κ}

lemma OldestFirst.sublist (h : OldestFirst uses keys) (hkeys : keys'.Sublist keys) :
    OldestFirst uses keys' :=
  List.Pairwise.sublist hkeys h

/-- The first key was used last before all the others. -/
lemma OldestFirst.head_lt (h : OldestFirst uses (k :: keys)) {k' : κ} (hk' : k' ∈ keys) :
    lastUse uses k < lastUse uses k' :=
  (List.pairwise_cons.mp h).1 k' hk'

/-- **A used key goes to the end.** -/
theorem OldestFirst.use (h : OldestFirst uses keys) (hk : k ∉ keys) :
    OldestFirst (uses ++ [k]) (keys ++ [k]) := by
  have hne {a : κ} (ha : a ∈ keys) : k ≠ a := (ne_of_mem_of_not_mem ha hk).symm
  refine List.pairwise_append.mpr ⟨?_, List.pairwise_singleton _ k, ?_⟩
  · refine List.Pairwise.imp_of_mem (fun ha hb hlt => ?_) h
    rwa [lastUse_append_ne uses (hne ha), lastUse_append_ne uses (hne hb)]
  · intro a ha b hb
    rw [List.mem_singleton.mp hb, lastUse_append_self, lastUse_append_ne uses (hne ha)]
    exact Nat.lt_succ_of_le (lastUse_le uses a)

end Recency
