import Mathlib.Order.RelClasses
import Mathlib.Tactic.Common

/-!
Effects with a state that survives exceptions, and programs over an interface.

* `Effect`: a computation on a state that returns or throws, the state kept either way;
* `Prog`: code that is known only by the operations it calls, whatever it does with their
  replies and their errors;
* `Prog.run`: the code as an effect, given what each operation does;
* `Within`: every run of an effect moves the state along a relation, with a rule for each
  way of putting effects together;
* `Within.run`: **a relation that every operation keeps is kept by all code**;
* `Returns`, `Throws`: from every state with the precondition the effect returns, or throws,
  in a state with the postcondition; the rules for sequences.
-/

/-- A computation on a state: it returns or throws, and leaves a state. -/
def Effect (σ ε α : Type) := σ → Except ε α × σ

namespace Effect

variable {σ ε α β : Type}

instance : Monad (Effect σ ε) where
  pure a := fun s => (.ok a, s)
  bind x f := fun s =>
    match x s with
    | (.ok a, s') => f a s'
    | (.error e, s') => (.error e, s')

/-- Throws. -/
def throw (e : ε) : Effect σ ε α := fun s => (.error e, s)

/-- Reads the state. -/
def get : Effect σ ε σ := fun s => (.ok s, s)

/-- Changes the state. -/
def modify (f : σ → σ) : Effect σ ε Unit := fun s => (.ok (), f s)

/-- `try … catch`: what was changed before the error stays. -/
def tryCatch (x : Effect σ ε α) (handler : ε → Effect σ ε α) : Effect σ ε α := fun s =>
  match x s with
  | (.ok a, s') => (.ok a, s')
  | (.error e, s') => handler e s'

/-- `try … finally` with a last piece that does not throw. -/
def finally_ (x : Effect σ ε α) (last : σ → σ) : Effect σ ε α := fun s => ((x s).1, last (x s).2)

variable {x : Effect σ ε α} {f : α → Effect σ ε β} {s s' : σ}

@[simp] lemma pure_apply (a : α) (s : σ) : (pure a : Effect σ ε α) s = (.ok a, s) := rfl

@[simp] lemma throw_apply (e : ε) (s : σ) : (throw e : Effect σ ε α) s = (.error e, s) := rfl

@[simp] lemma get_apply (s : σ) : (get : Effect σ ε σ) s = (.ok s, s) := rfl

@[simp] lemma modify_apply (g : σ → σ) (s : σ) : (modify g : Effect σ ε Unit) s = (.ok (), g s) :=
  rfl

lemma bind_apply (x : Effect σ ε α) (f : α → Effect σ ε β) (s : σ) :
    (x >>= f) s =
      match x s with
      | (.ok a, s') => f a s'
      | (.error e, s') => (.error e, s') := rfl

lemma bind_of_ok {a : α} (h : x s = (.ok a, s')) : (x >>= f) s = f a s' := by
  rw [bind_apply, h]

lemma bind_of_error {e : ε} (h : x s = (.error e, s')) : (x >>= f) s = (.error e, s') := by
  rw [bind_apply, h]

lemma tryCatch_of_ok {a : α} {handler : ε → Effect σ ε α} (h : x s = (.ok a, s')) :
    tryCatch x handler s = (.ok a, s') := by
  rw [tryCatch, h]

lemma tryCatch_of_error {e : ε} {handler : ε → Effect σ ε α} (h : x s = (.error e, s')) :
    tryCatch x handler s = handler e s' := by
  rw [tryCatch, h]

end Effect

/-- Code over an interface: it returns, throws, or calls an operation and goes on with the
reply or the error. -/
inductive Prog (Op : Type) (R : Op → Type) (ε α : Type) where
  | ret (a : α)
  | throw (e : ε)
  | call (op : Op) (k : Except ε (R op) → Prog Op R ε α)

namespace Prog

variable {Op : Type} {R : Op → Type} {σ ε α : Type}

/-- The code as an effect. -/
def run (handle : (op : Op) → Effect σ ε (R op)) : Prog Op R ε α → Effect σ ε α
  | .ret a => fun s => (.ok a, s)
  | .throw e => fun s => (.error e, s)
  | .call op k => fun s => (k (handle op s).1).run handle (handle op s).2

lemma run_call (handle : (op : Op) → Effect σ ε (R op)) (op : Op)
    (k : Except ε (R op) → Prog Op R ε α) (s : σ) :
    (call op k).run handle s = (k (handle op s).1).run handle (handle op s).2 := rfl

/-- The code calls only operations with a property. -/
inductive Uses (P : Op → Prop) : Prog Op R ε α → Prop
  | ret (a : α) : Uses P (.ret a)
  | throw (e : ε) : Uses P (.throw e)
  | call (op : Op) (k) (hop : P op) (hk : ∀ reply, Uses P (k reply)) : Uses P (.call op k)

lemma uses_of_forall {P : Op → Prop} (h : ∀ op, P op) (p : Prog Op R ε α) : p.Uses P := by
  induction p with
  | ret a => exact .ret a
  | throw e => exact .throw e
  | call op k ih => exact .call op k (h op) ih

end Prog

/-! ### Relations that effects keep -/

/-- Every run of the effect moves the state along the relation. -/
def Within {σ ε α : Type} (Rel : σ → σ → Prop) (x : Effect σ ε α) : Prop := ∀ s, Rel s (x s).2

namespace Within

variable {σ ε α β : Type} {Rel : σ → σ → Prop} [Std.Refl Rel] [IsTrans σ Rel]

omit [IsTrans σ Rel] in
lemma pure (a : α) : Within Rel (Pure.pure a : Effect σ ε α) := fun s => Std.Refl.refl s

omit [IsTrans σ Rel] in
lemma throw (e : ε) : Within Rel (Effect.throw e : Effect σ ε α) := fun s => Std.Refl.refl s

omit [IsTrans σ Rel] in
lemma get : Within Rel (Effect.get : Effect σ ε σ) := fun s => Std.Refl.refl s

omit [Std.Refl Rel] in
lemma bind {x : Effect σ ε α} {f : α → Effect σ ε β} (hx : Within Rel x)
    (hf : ∀ a, Within Rel (f a)) : Within Rel (x >>= f) := by
  intro s
  have hs := hx s
  rw [Effect.bind_apply]
  split
  next a s' h =>
      rw [h] at hs
      exact IsTrans.trans _ _ _ hs (hf a s')
  next e s' h =>
      rw [h] at hs
      exact hs

/-- A relation that some operations keep is kept by code that calls only these. -/
lemma run_of_uses {Op : Type} {R : Op → Type} {handle : (op : Op) → Effect σ ε (R op)}
    {P : Op → Prop} (h : ∀ op, P op → Within Rel (handle op)) {p : Prog Op R ε α}
    (hp : p.Uses P) : Within Rel (p.run handle) := by
  induction hp with
  | ret a => exact fun s => Std.Refl.refl s
  | throw e => exact fun s => Std.Refl.refl s
  | call op k hop hk ih => exact fun s => IsTrans.trans _ _ _ (h op hop s) (ih _ _)

/-- **A relation that every operation keeps is kept by all code.** -/
theorem run {Op : Type} {R : Op → Type} {handle : (op : Op) → Effect σ ε (R op)}
    (h : ∀ op, Within Rel (handle op)) (p : Prog Op R ε α) : Within Rel (p.run handle) :=
  run_of_uses (P := fun op => Within Rel (handle op)) (fun _ => id) (p.uses_of_forall h)

end Within

/-- States with the property lead to states with it. -/
def Keeping {σ : Type} (I : σ → Prop) (s s' : σ) : Prop := I s → I s'

instance {σ : Type} (I : σ → Prop) : Std.Refl (Keeping I) := ⟨fun _ => id⟩

instance {σ : Type} (I : σ → Prop) : IsTrans σ (Keeping I) := ⟨fun _ _ _ h h' => h' ∘ h⟩

/-- From every state with `P` the effect ends in a state with `Q`, or throws in one with `E`. -/
def Ensures {σ ε α : Type} (P : σ → Prop) (x : Effect σ ε α) (Q E : σ → Prop) : Prop :=
  ∀ s, P s → match x s with
    | (.ok _, s') => Q s'
    | (.error _, s') => E s'

section Ensures

variable {σ ε α β : Type} {P Q Q' E : σ → Prop} {x : Effect σ ε α} {f : α → Effect σ ε β}

lemma Ensures.bind (hx : Ensures P x Q E) (hf : ∀ a, Ensures Q (f a) Q' E) :
    Ensures P (x >>= f) Q' E := by
  intro s hs
  have h := hx s hs
  rw [Effect.bind_apply]
  split at h
  next a s' hrun => exact hf a s' h
  next e s' hrun => exact h

lemma Ensures.keeping (hx : Ensures P x P P) : Within (Keeping P) x := by
  intro s hs
  have h := hx s hs
  split at h
  next a s' hrun =>
      rw [hrun]
      exact h
  next e s' hrun =>
      rw [hrun]
      exact h

end Ensures

/-! ### Pre- and postconditions -/

/-- From every state with `P` the effect returns, and `Q` holds of the value and the state. -/
def Returns {σ ε α : Type} (P : σ → Prop) (x : Effect σ ε α) (Q : α → σ → Prop) : Prop :=
  ∀ s, P s → ∃ a s', x s = (.ok a, s') ∧ Q a s'

/-- From every state with `P` the effect throws, in a state with `Q`. -/
def Throws {σ ε α : Type} (P : σ → Prop) (x : Effect σ ε α) (Q : σ → Prop) : Prop :=
  ∀ s, P s → ∃ e s', x s = (.error e, s') ∧ Q s'

section Triples

variable {σ ε α β : Type} {P Q' : σ → Prop} {x : Effect σ ε α} {f : α → Effect σ ε β}

lemma Returns.pure {Q : α → σ → Prop} (a : α) (h : ∀ s, P s → Q a s) :
    Returns P (Pure.pure a : Effect σ ε α) Q := fun s hs => ⟨a, s, rfl, h s hs⟩

lemma Returns.modify {Q : Unit → σ → Prop} {g : σ → σ} (h : ∀ s, P s → Q () (g s)) :
    Returns P (Effect.modify g : Effect σ ε Unit) Q := fun s hs => ⟨(), g s, rfl, h s hs⟩

lemma Returns.bind {Q : α → σ → Prop} {R : β → σ → Prop} (hx : Returns P x Q)
    (hf : ∀ a, Returns (Q a) (f a) R) : Returns P (x >>= f) R := by
  intro s hs
  obtain ⟨a, s', hrun, hq⟩ := hx s hs
  rw [Effect.bind_of_ok hrun]
  exact hf a s' hq

lemma Throws.bind_left (hx : Throws P x Q') : Throws P (x >>= f) Q' := by
  intro s hs
  obtain ⟨e, s', hrun, hq⟩ := hx s hs
  exact ⟨e, s', Effect.bind_of_error hrun, hq⟩

/-- A sequence that starts by reading the state. -/
lemma Returns.get_bind {f : σ → Effect σ ε β} {R : β → σ → Prop}
    (hf : ∀ s, P s → ∃ b s', f s s = (.ok b, s') ∧ R b s') :
    Returns P (Effect.get >>= f) R := fun s hs => hf s hs

end Triples
