import Mathlib.Data.List.Basic
import Mathlib.Tactic.Common

/-!
Runs of a partial deterministic machine `step : σ → α → Option σ`: the outside
world picks the actions, the machine answers with the next state or refuses.

* `exec`: the state after a list of actions, if none of them is refused;
* `Meets`: every action of the list is taken in a state with `P`;
* `meets_invariant`: **an invariant kept by one step is kept by a run**, under a side
  condition on the steps;
* `meets_append`: a side condition on a run splits at any point;
* `forall_prefix_iff_meets`: **a condition exact for one step is exact for a run**;
* `iff_meets_of_exec`: the same of the last state, for a property that no step mends.
-/

namespace Machine

variable {σ α : Type*}

/-- The state reached from `s` by a list of actions, `none` if one is refused. -/
def exec (step : σ → α → Option σ) : σ → List α → Option σ
  | s, [] => some s
  | s, a :: as =>
      match step s a with
      | some s' => exec step s' as
      | none => none

/-- Every action of the run is taken in a state where `P` holds of it. -/
def Meets (step : σ → α → Option σ) (P : σ → α → Prop) : σ → List α → Prop
  | _, [] => True
  | s, a :: as =>
      P s a ∧
        match step s a with
        | some s' => Meets step P s' as
        | none => True

instance Meets.decidable (step : σ → α → Option σ) (P : σ → α → Prop)
    [∀ s a, Decidable (P s a)] : ∀ s as, Decidable (Meets step P s as)
  | _, [] => .isTrue trivial
  | s, a :: as =>
      match h : step s a with
      | some s' =>
          have : Decidable (Meets step P s' as) := Meets.decidable step P s' as
          decidable_of_iff (P s a ∧ Meets step P s' as) (by simp only [Meets, h])
      | none => decidable_of_iff (P s a) (by simp only [Meets, h, and_true])

variable {step : σ → α → Option σ} {P : σ → α → Prop}

@[simp] lemma exec_nil (s : σ) : exec step s [] = some s := rfl

lemma exec_cons (s : σ) (a : α) (as : List α) :
    exec step s (a :: as) = (step s a).bind (exec step · as) := by
  rw [exec]
  cases step s a <;> rfl

/-- A run goes through every intermediate state. -/
lemma exec_append (s : σ) (as bs : List α) :
    exec step s (as ++ bs) = (exec step s as).bind (exec step · bs) := by
  induction as generalizing s with
  | nil => rfl
  | cons a as ih =>
      rw [List.cons_append, exec_cons, exec_cons]
      cases step s a with
      | none => rfl
      | some s' => exact ih s'

lemma meets_cons_iff {s s' : σ} {a : α} {as : List α} (h : step s a = some s') :
    Meets step P s (a :: as) ↔ P s a ∧ Meets step P s' as := by
  simp only [Meets, h]

/-- A side condition on a run is one on its two halves. -/
lemma meets_append {s t : σ} {as bs : List α} (h : exec step s as = some t) :
    Meets step P s (as ++ bs) ↔ Meets step P s as ∧ Meets step P t bs := by
  induction as generalizing s with
  | nil =>
      obtain rfl : s = t := by simpa using h
      simp [Meets]
  | cons a as ih =>
      rw [exec_cons] at h
      obtain ⟨s', hs, h'⟩ := Option.bind_eq_some_iff.mp h
      rw [List.cons_append, meets_cons_iff hs, meets_cons_iff hs, ih h', and_assoc]

/-- **The run rule with a side condition**: what every step meeting `P` keeps, a
run whose steps all meet `P` keeps. -/
theorem meets_invariant {I : σ → Prop}
    (hstep : ∀ s a s', I s → P s a → step s a = some s' → I s')
    {s t : σ} {as : List α} (hs : I s) (hP : Meets step P s as)
    (h : exec step s as = some t) : I t := by
  induction as generalizing s with
  | nil =>
      obtain rfl : s = t := by simpa using h
      exact hs
  | cons a as ih =>
      rw [exec_cons] at h
      obtain ⟨s', hs', h'⟩ := Option.bind_eq_some_iff.mp h
      obtain ⟨hPa, hPas⟩ := (meets_cons_iff hs').mp hP
      exact ih (hstep s a s' hs hPa hs') hPas h'

/-- A condition that holds wherever the run gets is met by the run. -/
lemma meets_of_forall_initial {s : σ} {as : List α}
    (h : ∀ bs a cs t, as = bs ++ a :: cs → exec step s bs = some t → P t a) :
    Meets step P s as := by
  induction as generalizing s with
  | nil => trivial
  | cons a as ih =>
      refine ⟨h [] a as s rfl rfl, ?_⟩
      cases hs : step s a with
      | none => trivial
      | some s' =>
          refine ih fun bs b cs t he ht => h (a :: bs) b cs t (by rw [he]; rfl) ?_
          rw [exec_cons, hs]
          exact ht

/-- A side condition that follows from another one in the states with an invariant. -/
lemma Meets.mono {Q : σ → α → Prop} {I : σ → Prop}
    (hstep : ∀ s a s', I s → P s a → step s a = some s' → I s')
    (himp : ∀ s a, I s → P s a → Q s a) {s : σ} {as : List α} (hs : I s)
    (h : Meets step P s as) : Meets step Q s as := by
  induction as generalizing s with
  | nil => trivial
  | cons a as ih =>
      refine ⟨himp s a hs h.1, ?_⟩
      cases hs' : step s a with
      | none => trivial
      | some s' =>
          obtain ⟨hPa, hPas⟩ := (meets_cons_iff hs').mp h
          exact ih (hstep s a s' hs hPa hs') hPas

/-- A side condition together with a property of the actions themselves. -/
lemma Meets.and {Q : α → Prop} {s : σ} {as : List α} (h : Meets step P s as)
    (hQ : ∀ a ∈ as, Q a) : Meets step (fun s a => P s a ∧ Q a) s as := by
  induction as generalizing s with
  | nil => trivial
  | cons a as ih =>
      refine ⟨⟨h.1, hQ a List.mem_cons_self⟩, ?_⟩
      cases hs : step s a with
      | none => trivial
      | some s' =>
          exact ih ((meets_cons_iff hs).mp h).2 fun b hb => hQ b (List.mem_cons_of_mem _ hb)

lemma meets_true (s : σ) (as : List α) : Meets step (fun _ _ => True) s as :=
  meets_of_forall_initial fun _ _ _ _ _ _ => trivial

/-- **The run rule for an exact condition**: if a step keeps `I` exactly when it meets `P`,
then `I` holds wherever the run gets exactly when each of its steps meets `P`.  The
invariant `J` is one that every step keeps. -/
theorem forall_prefix_iff_meets {I J : σ → Prop}
    (hJ : ∀ s a s', J s → step s a = some s' → J s')
    (hI : ∀ s a s', J s → I s → step s a = some s' → (I s' ↔ P s a))
    (hnone : ∀ s a, step s a = none → P s a)
    {s : σ} (hJs : J s) (hIs : I s) (as : List α) :
    (∀ bs, bs <+: as → ∀ t, exec step s bs = some t → I t) ↔ Meets step P s as := by
  constructor
  · intro h
    refine meets_of_forall_initial fun bs a cs t has ht => ?_
    cases hstep : step t a with
    | none => exact hnone t a hstep
    | some t' =>
        have hJt : J t :=
          meets_invariant (fun s a s' hs _ => hJ s a s' hs) hJs (meets_true s bs) ht
        have hIt : I t := h bs ⟨a :: cs, has.symm⟩ t ht
        refine (hI t a t' hJt hIt hstep).mp (h (bs ++ [a]) ⟨cs, by simp [has]⟩ t' ?_)
        rw [exec_append, ht, Option.bind_some, exec_cons, hstep]
        rfl
  · rintro h bs ⟨cs, rfl⟩ t ht
    have hkeep : ∀ s a s', J s ∧ I s → P s a → step s a = some s' → J s' ∧ I s' :=
      fun s a s' hs hP hstep =>
        ⟨hJ s a s' hs.1 hstep, (hI s a s' hs.1 hs.2 hstep).mpr hP⟩
    exact (meets_invariant hkeep ⟨hJs, hIs⟩ ((meets_append ht).mp h).1 ht).2

/-- A property that a step has after it exactly if it had it before and meets `P`. -/
theorem iff_meets_of_exec {I J : σ → Prop}
    (hJ : ∀ s a s', J s → step s a = some s' → J s')
    (hI : ∀ s a s', J s → step s a = some s' → (I s' ↔ I s ∧ P s a))
    {s t : σ} (hs : J s) {as : List α} (h : exec step s as = some t) :
    I t ↔ I s ∧ Meets step P s as := by
  induction as generalizing s with
  | nil =>
      obtain rfl : s = t := by simpa using h
      exact (and_iff_left trivial).symm
  | cons a as ih =>
      rw [exec_cons] at h
      obtain ⟨s', hs', h'⟩ := Option.bind_eq_some_iff.mp h
      rw [ih (hJ s a s' hs hs') h', hI s a s' hs hs', meets_cons_iff hs', and_assoc]

end Machine
