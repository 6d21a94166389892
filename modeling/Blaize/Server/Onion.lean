import Mathlib.Data.List.Range
import Blaize.Lib.Machine

/-!
One invocation of a composed middleware function (`middleware/compose.ts` and
`middleware/execute.ts` in `packages/blaize-core/src`), for bodies that call `next` whenever
and as often as they like.

An action of the outside world is the evaluation of a `dispatch` that was entered, with the
answer of `skip`, or a call of a `next` by code that holds it.  What a body does besides, and
when, is left to the order of the actions.

* `nextDispatch`, `execute`, `dispatch`: the functions of the source on the state that an
  invocation has;
* `Frontier`: the set `called` is an initial segment, and the invocation stands at its end;
* `onion_discipline`: **every body and the handler run at most once, each of them only after
  all before it let it through, and a second call of a `next` throws**.
-/

namespace Blaize.Onion

open Machine

/-! ### The composed function -/

/-- An entry of the stack that is there, as far as `execute` tells them apart. -/
structure Middleware where
  hasSkip : Bool
  deriving DecidableEq, Repr

/-- What a call of `skip` comes to. -/
inductive SkipAnswer where
  | truthy
  | falsy
  | throws
  deriving DecidableEq, Repr

/-- The state of an invocation, with a record of what ran. -/
structure Invocation where
  called : List ℕ := []
  /-- The calls of `dispatch` that are not evaluated yet. -/
  entered : List ℕ := [0]
  started : List ℕ := []
  skipped : List ℕ := []
  handlerCalls : ℕ := 0
  /-- The positions whose `next` threw. -/
  thrown : List ℕ := []
  deriving DecidableEq, Repr

/-- The `next` of position `i`. -/
def nextDispatch (i : ℕ) (s : Invocation) : Invocation :=
  if i ∈ s.called then
    { s with thrown := s.thrown ++ [i] }
  else
    { s with
      called := s.called ++ [i]
      entered := s.entered ++ [i + 1] }

/-- `execute` on an entry of the stack, which may be undefined. -/
def execute (middleware : Option Middleware) (answer : SkipAnswer) (i : ℕ) (s : Invocation) :
    Invocation :=
  match middleware with
  | none => nextDispatch i { s with skipped := s.skipped ++ [i] }
  | some middleware =>
      if middleware.hasSkip then
        match answer with
        | .truthy => nextDispatch i { s with skipped := s.skipped ++ [i] }
        | .falsy => { s with started := s.started ++ [i] }
        | .throws => s
      else { s with started := s.started ++ [i] }

def dispatch (middlewareStack : List (Option Middleware)) (answer : SkipAnswer) (i : ℕ)
    (s : Invocation) : Invocation :=
  match middlewareStack[i]? with
  | none => { s with handlerCalls := s.handlerCalls + 1 }
  | some middleware => execute middleware answer i s

inductive Act where
  | dispatch (i : ℕ) (answer : SkipAnswer)
  | callNext (i : ℕ)
  deriving DecidableEq, Repr

/-- A body holds its `next` from its start on. -/
def step (middlewareStack : List (Option Middleware)) (s : Invocation) : Act → Option Invocation
  | .dispatch i answer =>
      if i ∈ s.entered then
        some (dispatch middlewareStack answer i { s with entered := s.entered.erase i })
      else none
  | .callNext i => if i ∈ s.started then some (nextDispatch i s) else none

/-! ### The discipline -/

variable {middlewareStack : List (Option Middleware)} {s s' : Invocation} {a : Act}

/-- Position `i` let the invocation through: it was skipped, or its body called its `next`. -/
def LetsThrough (s : Invocation) (i : ℕ) : Prop :=
  i ∈ s.skipped ∨ i ∈ s.started ∧ i ∈ s.called

/-- What the discipline of the onion says of the runs so far. -/
structure Disciplined (middlewareStack : List (Option Middleware)) (s : Invocation) : Prop where
  bodies_once : s.started.Nodup
  handler_once : s.handlerCalls ≤ 1
  bodies_after : ∀ j ∈ s.started, ∀ i < j, LetsThrough s i
  handler_after : s.handlerCalls = 1 → ∀ i < middlewareStack.length, LetsThrough s i

/-- The invocation stands at position `d`: the dispatch of `d` is entered and not evaluated,
or it is evaluated. -/
structure Frontier (middlewareStack : List (Option Middleware)) (s : Invocation) (d : ℕ) :
    Prop where
  called : s.called = List.range d
  through : ∀ i < d, i ∈ s.skipped ∨ i ∈ s.started
  nodup : s.started.Nodup
  inside : ∀ i ∈ s.started, i < middlewareStack.length
  front : (s.entered = [d] ∧ s.handlerCalls = 0 ∧ ∀ i ∈ s.started, i < d) ∨
    (s.entered = [] ∧ s.handlerCalls = 0 ∧ ∀ i ∈ s.started, i ≤ d) ∨
    (s.entered = [] ∧ s.handlerCalls = 1 ∧ d = middlewareStack.length)

lemma Frontier.init : Frontier middlewareStack {} 0 where
  called := rfl
  through := nofun
  nodup := List.nodup_nil
  inside := nofun
  front := .inl ⟨rfl, rfl, nofun⟩

/-- The `next` of the position where the invocation stands enters the next dispatch. -/
lemma nextDispatch_of_frontier {d : ℕ} (h : s.called = List.range d) :
    nextDispatch d s =
      { s with called := List.range (d + 1), entered := s.entered ++ [d + 1] } := by
  have hnot : d ∉ s.called := by simp [h]
  rw [nextDispatch, if_neg hnot, h, List.range_succ]

/-- Every other `next` throws. -/
lemma nextDispatch_of_called {i : ℕ} (h : i ∈ s.called) :
    nextDispatch i s = { s with thrown := s.thrown ++ [i] } := if_pos h

/-- A skipped position is passed. -/
lemma Frontier.skip {d : ℕ} (h : Frontier middlewareStack s d) (hd : s.entered = [d])
    (hhandler : s.handlerCalls = 0) (hstarted : ∀ i ∈ s.started, i < d) :
    Frontier middlewareStack
      (nextDispatch d { s with entered := s.entered.erase d, skipped := s.skipped ++ [d] })
      (d + 1) := by
  rw [nextDispatch_of_frontier (by exact h.called)]
  refine ⟨rfl, fun i hi => ?_, h.nodup, h.inside, .inl ⟨by simp [hd], hhandler, fun i hi => ?_⟩⟩
  · rcases Nat.lt_succ_iff_lt_or_eq.mp hi with hi | rfl
    · exact (h.through i hi).imp_left (List.mem_append_left _)
    · exact .inl (List.mem_append_right _ List.mem_cons_self)
  · exact Nat.lt_succ_of_lt (hstarted i hi)

/-- A body starts. -/
lemma Frontier.start {d : ℕ} (h : Frontier middlewareStack s d) (hd : s.entered = [d])
    (hhandler : s.handlerCalls = 0) (hstarted : ∀ i ∈ s.started, i < d)
    (hinside : d < middlewareStack.length) :
    Frontier middlewareStack
      { s with entered := s.entered.erase d, started := s.started ++ [d] } d := by
  refine ⟨h.called, fun i hi => ?_, ?_, fun i hi => ?_,
    .inr (.inl ⟨by simp [hd], hhandler, fun i hi => ?_⟩)⟩
  · exact (h.through i hi).imp_right (List.mem_append_left _)
  · refine List.nodup_append.mpr ⟨h.nodup, by simp, fun i hi j hj => ?_⟩
    rw [List.mem_singleton.mp hj]
    exact Nat.ne_of_lt (hstarted i hi)
  · rcases List.mem_append.mp hi with hi | hi
    · exact h.inside i hi
    · exact List.mem_singleton.mp hi ▸ hinside
  · rcases List.mem_append.mp hi with hi | hi
    · exact Nat.le_of_lt (hstarted i hi)
    · exact Nat.le_of_eq (List.mem_singleton.mp hi)

/-- The evaluation of the dispatch at which the invocation stands. -/
lemma Frontier.dispatch {d : ℕ} (h : Frontier middlewareStack s d) (answer : SkipAnswer)
    (hd : s.entered = [d]) (hhandler : s.handlerCalls = 0) (hstarted : ∀ i ∈ s.started, i < d)
    (hle : d ≤ middlewareStack.length) :
    ∃ d', d' ≤ middlewareStack.length ∧ Frontier middlewareStack
      (dispatch middlewareStack answer d { s with entered := s.entered.erase d }) d' := by
  unfold Onion.dispatch
  cases hget : middlewareStack[d]? with
  | none =>
      have hlast : d = middlewareStack.length :=
        Nat.le_antisymm hle (List.getElem?_eq_none_iff.mp hget)
      refine ⟨d, hle, h.called, h.through, h.nodup, h.inside, .inr (.inr ⟨?_, ?_, hlast⟩)⟩
      · simp [hd]
      · exact congrArg (· + 1) hhandler
  | some middleware =>
      have hinside : d < middlewareStack.length := (List.getElem?_eq_some_iff.mp hget).1
      have hskip := h.skip hd hhandler hstarted
      have hstart := h.start hd hhandler hstarted hinside
      dsimp only [execute]
      split
      · exact ⟨d + 1, hinside, hskip⟩
      · split
        · split
          · exact ⟨d + 1, hinside, hskip⟩
          · exact ⟨d, hle, hstart⟩
          · refine ⟨d, hle, h.called, h.through, h.nodup, h.inside, .inr (.inl ⟨?_, hhandler, ?_⟩)⟩
            · simp [hd]
            · exact fun i hi => Nat.le_of_lt (hstarted i hi)
        · exact ⟨d, hle, hstart⟩

/-- A call of a `next` that was handed out. -/
lemma Frontier.callNext {d i : ℕ} (h : Frontier middlewareStack s d) (hi : i ∈ s.started) :
    (i ∈ s.called ∧ Frontier middlewareStack (nextDispatch i s) d) ∨
      (i = d ∧ d < middlewareStack.length ∧
        Frontier middlewareStack (nextDispatch i s) (d + 1)) := by
  by_cases hcalled : i ∈ s.called
  · refine .inl ⟨hcalled, ?_⟩
    rw [nextDispatch_of_called hcalled]
    exact ⟨h.called, h.through, h.nodup, h.inside, h.front⟩
  · have hge : d ≤ i := by simpa [h.called] using hcalled
    have hinside := h.inside i hi
    obtain ⟨-, -, hlt⟩ | ⟨hentered, hhandler, hle⟩ | ⟨-, -, hlast⟩ := h.front
    · exact absurd (hlt i hi) (Nat.not_lt_of_le hge)
    · obtain rfl : i = d := Nat.le_antisymm (hle i hi) hge
      refine .inr ⟨rfl, hinside, ?_⟩
      rw [nextDispatch_of_frontier h.called]
      refine ⟨rfl, fun j hj => ?_, h.nodup, h.inside,
        .inl ⟨by simp [hentered], hhandler, fun j hj => Nat.lt_succ_of_le (hle j hj)⟩⟩
      rcases Nat.lt_succ_iff_lt_or_eq.mp hj with hj | rfl
      · exact h.through j hj
      · exact .inr hi
    · omega

/-- **One action keeps the frontier.** -/
theorem step_frontier {d : ℕ} (h : Frontier middlewareStack s d) (hle : d ≤ middlewareStack.length)
    (hs : step middlewareStack s a = some s') :
    ∃ d', d' ≤ middlewareStack.length ∧ Frontier middlewareStack s' d' := by
  cases a with
  | dispatch i answer =>
      rw [step] at hs
      split at hs
      next hi =>
          obtain rfl := Option.some.inj hs
          obtain ⟨hentered, hhandler, hstarted⟩ | ⟨hentered, -⟩ | ⟨hentered, -⟩ := h.front
          · obtain rfl : i = d := by simpa [hentered] using hi
            exact h.dispatch answer hentered hhandler hstarted hle
          · simp [hentered] at hi
          · simp [hentered] at hi
      next => cases hs
  | callNext i =>
      rw [step] at hs
      split at hs
      next hi =>
          obtain rfl := Option.some.inj hs
          obtain ⟨-, hfrontier⟩ | ⟨-, hinside, hfrontier⟩ := h.callNext hi
          · exact ⟨d, hle, hfrontier⟩
          · exact ⟨d + 1, hinside, hfrontier⟩
      next => cases hs

lemma Frontier.disciplined {d : ℕ} (h : Frontier middlewareStack s d) :
    Disciplined middlewareStack s := by
  have hthrough : ∀ i < d, LetsThrough s i := by
    intro i hi
    refine (h.through i hi).imp_right fun hs => ⟨hs, ?_⟩
    rw [h.called]
    exact List.mem_range.mpr hi
  obtain ⟨-, hhandler, hstarted⟩ | ⟨-, hhandler, hstarted⟩ | ⟨-, hhandler, rfl⟩ := h.front
  · refine ⟨h.nodup, by omega, fun j hj i hi => ?_, fun hone => by omega⟩
    exact hthrough i (Nat.lt_trans hi (hstarted j hj))
  · refine ⟨h.nodup, by omega, fun j hj i hi => ?_, fun hone => by omega⟩
    exact hthrough i (Nat.lt_of_lt_of_le hi (hstarted j hj))
  · refine ⟨h.nodup, by omega, fun j hj i hi => ?_, fun _ => hthrough⟩
    exact hthrough i (Nat.lt_trans hi (h.inside j hj))

/-- What was called stays called. -/
lemma step_called (hs : step middlewareStack s a = some s') : s.called ⊆ s'.called := by
  have hnext (i : ℕ) (t : Invocation) : t.called ⊆ (nextDispatch i t).called := by
    unfold nextDispatch
    split
    · exact List.Subset.refl _
    · exact List.subset_append_left _ _
  cases a with
  | dispatch i answer =>
      rw [step] at hs
      split at hs
      next =>
          obtain rfl := Option.some.inj hs
          have hskip := hnext i
            { s with entered := s.entered.erase i, skipped := s.skipped ++ [i] }
          unfold Onion.dispatch execute
          split
          · exact List.Subset.refl _
          · split
            · exact hskip
            · split
              · split
                · exact hskip
                · exact List.Subset.refl _
                · exact List.Subset.refl _
              · exact List.Subset.refl _
      next => cases hs
  | callNext i =>
      rw [step] at hs
      split at hs
      next =>
          obtain rfl := Option.some.inj hs
          exact hnext i s
      next => cases hs

/-- A `next` that was called in a run is in the set. -/
lemma called_of_mem {as : List Act} {t : Invocation} {i : ℕ} (hmem : Act.callNext i ∈ as)
    (h : exec (step middlewareStack) s as = some t) : i ∈ t.called := by
  obtain ⟨before, after, rfl⟩ := List.append_of_mem hmem
  rw [exec_append] at h
  obtain ⟨u, -, hu⟩ := Option.bind_eq_some_iff.mp h
  rw [exec_cons] at hu
  obtain ⟨v, hv, ht⟩ := Option.bind_eq_some_iff.mp hu
  have hcalled : i ∈ v.called := by
    rw [step] at hv
    split at hv
    next =>
        obtain rfl := Option.some.inj hv
        by_cases hi : i ∈ u.called
        · rw [nextDispatch_of_called hi]
          exact hi
        · rw [nextDispatch, if_neg hi]
          exact List.mem_append_right _ List.mem_cons_self
    next => cases hv
  exact meets_invariant (I := fun w => i ∈ w.called)
    (fun _ _ _ hw _ hstep => step_called hstep hw) hcalled (meets_true _ _) ht

/-- **The discipline of the onion.**  After every run of every stack, whatever the bodies do:
no body and no handler has run twice, each ran after all before it were skipped or called
their `next`, and another call of a `next` that was called throws and does nothing else. -/
theorem onion_discipline (middlewareStack : List (Option Middleware)) (as : List Act)
    (s : Invocation) (h : exec (step middlewareStack) {} as = some s) :
    Disciplined middlewareStack s ∧
      ∀ i s', .callNext i ∈ as → step middlewareStack s (.callNext i) = some s' →
        s' = { s with thrown := s.thrown ++ [i] } := by
  obtain ⟨d, -, hfrontier⟩ := meets_invariant
    (I := fun t => ∃ d, d ≤ middlewareStack.length ∧ Frontier middlewareStack t d)
    (fun _ _ _ ⟨_, hle, hd⟩ _ hstep => step_frontier hd hle hstep)
    ⟨0, Nat.zero_le _, Frontier.init⟩ (meets_true _ _) h
  refine ⟨hfrontier.disciplined, fun i s' hmem hs => ?_⟩
  rw [step] at hs
  split at hs
  next =>
      obtain rfl := Option.some.inj hs
      exact nextDispatch_of_called (called_of_mem hmem h)
  next => cases hs

/-- A skipped middleware, an undefined one, and one that calls its `next` twice. -/
theorem onion_discipline_twice :
    Disciplined [some ⟨true⟩, none, some ⟨false⟩]
        ⟨[0, 1, 2], [], [2], [0, 1], 1, [2]⟩ ∧
      ∀ i s', Act.callNext i ∈ [Act.dispatch 0 .truthy, .dispatch 1 .falsy, .dispatch 2 .falsy,
          .callNext 2, .callNext 2, .dispatch 3 .falsy] →
        step [some ⟨true⟩, none, some ⟨false⟩] ⟨[0, 1, 2], [], [2], [0, 1], 1, [2]⟩
          (.callNext i) = some s' →
        s' = ⟨[0, 1, 2], [], [2], [0, 1], 1, [2] ++ [i]⟩ :=
  onion_discipline [some ⟨true⟩, none, some ⟨false⟩]
    [.dispatch 0 .truthy, .dispatch 1 .falsy, .dispatch 2 .falsy, .callNext 2, .callNext 2,
      .dispatch 3 .falsy] ⟨[0, 1, 2], [], [2], [0, 1], 1, [2]⟩ (by decide)

end Blaize.Onion
