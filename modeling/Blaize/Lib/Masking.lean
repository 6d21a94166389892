import Mathlib.Data.List.Forall2
import Blaize.Lib.OrdMap

/-!
Maps that agree but for the values of some keys.

* `OrdMap.AgreeBut`: the same keys in the same order, with the same values but for the secret keys;
* `AgreeBut.foldl_eq`: what is read off entry by entry, without the values of the secret keys, is
  the same;
* `OrdMap.spread`: one map over another;
* `AgreeBut.set`, `AgreeBut.spread`: what is built of such maps in the same way agrees likewise.
-/

/-- The elements at one index. -/
lemma List.Forall₂.getElem?_rel {α β : Type*} {R : α → β → Prop} {l : List α} {l' : List β}
    (h : List.Forall₂ R l l') (i : ℕ) :
    l[i]? = none ∧ l'[i]? = none ∨ ∃ a b, l[i]? = some a ∧ l'[i]? = some b ∧ R a b := by
  induction h generalizing i with
  | nil => exact .inl ⟨rfl, rfl⟩
  | @cons a b l l' hhead htail ih =>
      cases i with
      | zero => exact .inr ⟨a, b, rfl, rfl, hhead⟩
      | succ i => exact ih i

namespace OrdMap

section

variable {κ ν : Type*} {secret : κ → Prop} {m m' : OrdMap κ ν}

/-- Two entries of one key, with the same value unless the key is secret. -/
def SameBut (secret : κ → Prop) (e e' : κ × ν) : Prop := e.1 = e'.1 ∧ (secret e.1 ∨ e.2 = e'.2)

def AgreeBut (secret : κ → Prop) (m m' : OrdMap κ ν) : Prop :=
  List.Forall₂ (SameBut secret) m.entries m'.entries

lemma AgreeBut.refl (m : OrdMap κ ν) : AgreeBut secret m m :=
  List.forall₂_same.mpr fun _ _ => ⟨rfl, .inr rfl⟩

/-- **A loop over the entries that passes over the values of the secret keys** makes the same of
both maps. -/
lemma AgreeBut.foldl_eq {σ : Type*} {f : σ → κ × ν → σ} (h : AgreeBut secret m m')
    (hf : ∀ s e e', SameBut secret e e' → f s e = f s e') (s : σ) :
    m.entries.foldl f s = m'.entries.foldl f s :=
  List.rel_foldl (P := Eq) (fun _ _ hs _ _ he => hs ▸ hf _ _ _ he) rfl h

lemma AgreeBut.eq (h : AgreeBut secret m m') (hnone : ∀ k, ¬ secret k) : m = m' := by
  refine OrdMap.ext (List.forall₂_eq_eq_eq ▸ List.Forall₂.imp (fun e e' he => ?_) h)
  exact Prod.ext he.1 (he.2.resolve_left (hnone e.1))

end

variable {κ ν : Type*} [DecidableEq κ]

/-- The entries of `m'` over those of `m`. -/
def spread (m m' : OrdMap κ ν) : OrdMap κ ν := m'.entries.foldl (fun m e => m.set e.1 e.2) m

lemma get_spread (m m' : OrdMap κ ν) (k : κ) : (m.spread m').get k = (m'.get k).or (m.get k) :=
  get_foldl_set m'.nodup m k

variable {secret : κ → Prop} {m m' n n' : OrdMap κ ν}

lemma forall₂_put {l l' : List (κ × ν)} (h : List.Forall₂ (SameBut secret) l l') {e e' : κ × ν}
    (he : SameBut secret e e') :
    List.Forall₂ (SameBut secret) (put e.1 e.2 l) (put e'.1 e'.2 l') := by
  induction h with
  | nil => exact .cons he .nil
  | @cons a a' l l' hhead htail ih =>
      rw [put, put, ← hhead.1, ← he.1]
      split
      next hkey => exact .cons ⟨rfl, he.2⟩ htail
      next => exact .cons ⟨rfl, hhead.2⟩ (he.1 ▸ ih)

lemma AgreeBut.set (h : AgreeBut secret m m') {e e' : κ × ν} (he : SameBut secret e e') :
    AgreeBut secret (m.set e.1 e.2) (m'.set e'.1 e'.2) := forall₂_put h he

lemma AgreeBut.spread (h : AgreeBut secret m m') (hn : AgreeBut secret n n') :
    AgreeBut secret (m.spread n) (m'.spread n') :=
  List.rel_foldl (P := AgreeBut secret) (R := SameBut secret) (fun _ _ hm _ _ he => hm.set he) h hn

end OrdMap
