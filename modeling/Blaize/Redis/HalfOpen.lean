import Blaize.Redis.CircuitBreaker

/-!
Is a half-open period of the circuit breaker isolated from the calls before it?

`execute` lets one test call through and marks it with `testInProgress`.  When a call settles,
`onSuccess`, `onFailure` and the `finally` look at the current state only, so a call that was
let through before the circuit opened counts as a test when it settles in a later half-open
period, and ends the mark of the real one.

* `Observed`: the breaker with the number of its half-open periods and the number of calls
  before the current one;
* `OneProbe`: at most one call of the period is unsettled;
* `Undisturbed`: a settlement of an earlier call changes nothing;
* `isolated_iff_noStaleSettlement`: **a run is isolated exactly when no earlier call settles
  in a half-open period**.
-/

namespace Blaize.Redis

open Machine

variable (cfg : CircuitBreakerConfig)

/-- The breaker with the number of half-open periods that have begun, and the number of calls
that were let through before the last of them. -/
structure Observed where
  world : World := {}
  period : ℕ := 0
  since : ℕ := 0
  deriving DecidableEq, Repr

namespace Observed

/-- Whether a step ends in a half-open period that it has begun: with no reset timeout a
failure and `open()` lead from one period through `OPEN` into the next. -/
def begins (w w' : World) (a : Action) : Bool :=
  w'.breaker.currentState = .HALF_OPEN &&
    (w.breaker.currentState ≠ .HALF_OPEN ||
      match a with
      | .execute => false
      | .settle _ ok _ => ! ok
      | .fire _ => true
      | .open => true
      | .close => false)

def step (o : Observed) (a : Action) : Option Observed :=
  (o.world.step cfg a).map fun w' =>
    if begins o.world w' a then
      { world := w', period := o.period + 1, since := w'.calls.length }
    else
      { o with world := w' }

/-- The call number `i` is on its way. -/
def Unsettled (o : Observed) (i : ℕ) : Prop := ∃ state, o.world.calls[i]? = some ⟨state, false⟩

def HalfOpen (o : Observed) : Prop := o.world.breaker.currentState = .HALF_OPEN

/-- **At most one call admitted in the half-open period is unsettled.** -/
def OneProbe (o : Observed) : Prop :=
  o.HalfOpen → ∀ i j, o.since ≤ i → o.since ≤ j → o.Unsettled i → o.Unsettled j → i = j

/-- **The settlement of a call admitted before the half-open period changes neither the state
nor the flag nor the count of successes**, and so does not end the period either. -/
def Undisturbed (o : Observed) (a : Action) (o' : Observed) : Prop :=
  ∀ i ok now, a = .settle i ok now → o.HalfOpen → i < o.since →
    o'.period = o.period ∧
      o'.world.breaker.currentState = o.world.breaker.currentState ∧
      o'.world.breaker.testInProgress = o.world.breaker.testInProgress ∧
      o'.world.breaker.successCount = o.world.breaker.successCount

/-- A step is not the settlement, in a half-open period, of a call admitted before. -/
def NoStaleSettlement (o : Observed) : Action → Prop
  | .settle i _ _ => o.HalfOpen → (o.world.calls[i]?).any (! ·.settled) = true → o.since ≤ i
  | _ => True

/-! ### One step -/

lemma step_cases {o o' : Observed} {a : Action} (h : o.step cfg a = some o') :
    ∃ w', o.world.step cfg a = some w' ∧
      ((begins o.world w' a = true ∧ o' = ⟨w', o.period + 1, w'.calls.length⟩) ∨
        (begins o.world w' a = false ∧ o' = { o with world := w' })) := by
  obtain ⟨w', hw, rfl⟩ := Option.map_eq_some_iff.mp h
  refine ⟨w', hw, ?_⟩
  split
  next hb => exact Or.inl ⟨hb, rfl⟩
  next hb => exact Or.inr ⟨by simpa using hb, rfl⟩

section Settlement

variable {w : World}

@[simp] lemma endTest_calls : w.endTest.calls = w.calls := by
  rw [World.endTest]
  split <;> rfl

@[simp] lemma endTest_currentState :
    w.endTest.breaker.currentState = w.breaker.currentState := by
  rw [World.endTest]
  split <;> rfl

@[simp] lemma endTest_successCount :
    w.endTest.breaker.successCount = w.breaker.successCount := by
  rw [World.endTest]
  split <;> rfl

/-- A success in a half-open state closes the circuit or is counted. -/
lemma onSuccess_of_halfOpen (hs : w.breaker.currentState = .HALF_OPEN) (now : ℕ) :
    (w.onSuccess cfg now).calls = w.calls ∧
      ((w.onSuccess cfg now).breaker.currentState = .CLOSED ∨
        (w.onSuccess cfg now).breaker.successCount = w.breaker.successCount + 1) := by
  simp only [World.onSuccess, hs]
  split
  · exact ⟨rfl, Or.inl rfl⟩
  · exact ⟨rfl, Or.inr rfl⟩

/-- A failure in a half-open state opens the circuit, for no time without a reset timeout. -/
lemma onFailure_of_halfOpen (hs : w.breaker.currentState = .HALF_OPEN) (now : ℕ) :
    (w.onFailure cfg now).calls = w.calls := by
  simp only [World.onFailure, hs, World.startResetTimer_calls]
  rfl

/-- What a settlement does in a half-open state. -/
lemma settle_of_halfOpen {w' : World} {i : ℕ} {ok : Bool} {now : ℕ}
    (hs : w.breaker.currentState = .HALF_OPEN) (h : w.settle cfg i ok now = some w') :
    ∃ state, w.calls[i]? = some ⟨state, false⟩ ∧ w'.calls = w.calls.set i ⟨state, true⟩ ∧
      (ok = true → w'.breaker.currentState = .CLOSED ∨
        w'.breaker.successCount = w.breaker.successCount + 1) := by
  rw [World.settle] at h
  split at h
  next state hget =>
      obtain rfl := Option.some.inj h
      have hsuccess := onSuccess_of_halfOpen cfg (w := { w with
        calls := w.calls.set i ⟨state, true⟩ }) hs now
      have hfailure := onFailure_of_halfOpen cfg (w := { w with
        calls := w.calls.set i ⟨state, true⟩ }) hs now
      refine ⟨state, hget, ?_, ?_⟩
      · rw [endTest_calls]
        split
        · exact hsuccess.1
        · exact hfailure
      · rintro rfl
        rw [if_pos rfl, endTest_currentState, endTest_successCount]
        exact hsuccess.2
  next => cases h

end Settlement

/-- **A stale settlement always disturbs**: a success is counted or closes the circuit, and a
failure opens it. -/
lemma not_undisturbed {o o' : Observed} {i : ℕ} {ok : Bool} {now : ℕ} (hs : o.HalfOpen)
    (hi : i < o.since) (hstep : o.step cfg (.settle i ok now) = some o') :
    ¬ Undisturbed o (.settle i ok now) o' := by
  intro h
  obtain ⟨hperiod, hstate, -, hcount⟩ := h i ok now rfl hs hi
  obtain ⟨w', hw, ⟨-, rfl⟩ | ⟨hbegins, rfl⟩⟩ := step_cases cfg hstep
  · exact absurd hperiod (Nat.succ_ne_self _)
  · obtain ⟨state, -, -, hok⟩ := settle_of_halfOpen cfg hs hw
    have hhalf : w'.breaker.currentState = .HALF_OPEN := hstate.trans hs
    cases ok with
    | true =>
        rcases hok rfl with hclosed | hmore
        · rw [hhalf] at hclosed
          cases hclosed
        · exact absurd (hmore.symm.trans hcount) (Nat.succ_ne_self _)
    | false =>
        rw [begins, hhalf] at hbegins
        simp at hbegins

/-- The unsettled call of a half-open period is marked. -/
def Marked (o : Observed) : Prop :=
  o.HalfOpen → ∀ i, o.since ≤ i → o.Unsettled i → o.world.breaker.testInProgress = true

/-- In a period that has just begun no call has been let through. -/
lemma not_unsettled_of_begun {w : World} {period i : ℕ} (hi : w.calls.length ≤ i) :
    ¬ Unsettled ⟨w, period, w.calls.length⟩ i := by
  rintro ⟨state, hget⟩
  exact absurd (List.getElem?_eq_some_iff.mp hget).1 (Nat.not_lt.mpr hi)

/-- `execute` lets a call through only when none of the period is on its way. -/
lemma oneProbe_execute {o : Observed} (hone : o.OneProbe) (hmarked : o.Marked)
    (hs : o.HalfOpen) :
    OneProbe { o with world := o.world.execute cfg } ∧
      Marked { o with world := o.world.execute cfg } := by
  rw [World.execute, CircuitBreaker.letThrough, hs]
  cases hflag : o.world.breaker.testInProgress with
  | true =>
      rw [if_pos rfl]
      exact ⟨hone, hmarked⟩
  | false =>
      rw [if_neg Bool.false_ne_true]
      -- without the mark the calls of the period are settled, so only the new one is not
      have hnew : ∀ i, o.since ≤ i → Unsettled { o with world := { o.world with
          breaker := { o.world.breaker with testInProgress := true }
          calls := o.world.calls ++ [⟨.HALF_OPEN, false⟩] } } i → i = o.world.calls.length := by
        rintro i hi ⟨state, hget⟩
        dsimp only at hget
        rcases Nat.lt_trichotomy i o.world.calls.length with hlt | heq | hgt
        · rw [List.getElem?_append_left hlt] at hget
          have hmark := hmarked hs i hi ⟨state, hget⟩
          rw [hflag] at hmark
          cases hmark
        · exact heq
        · have hlt := (List.getElem?_eq_some_iff.mp hget).1
          rw [List.length_append, List.length_singleton] at hlt
          omega
      exact ⟨fun _ i j hi hj hui huj => (hnew i hi hui).trans (hnew j hj huj).symm,
        fun _ _ _ _ => rfl⟩

/-- **One step keeps the half-open period to one marked call**, if it settles no stale call. -/
lemma step_isolated {o o' : Observed} {a : Action} (h : o.OneProbe ∧ o.Marked)
    (hP : o.NoStaleSettlement a) (hstep : o.step cfg a = some o') : o'.OneProbe ∧ o'.Marked := by
  obtain ⟨hone, hmarked⟩ := h
  obtain ⟨w', hw, ⟨-, rfl⟩ | ⟨hbegins, rfl⟩⟩ := step_cases cfg hstep
  · exact ⟨fun _ i _ hi _ hui => absurd hui (not_unsettled_of_begun hi),
      fun _ i hi hui => absurd hui (not_unsettled_of_begun hi)⟩
  · by_cases hhalf : w'.breaker.currentState = .HALF_OPEN
    · -- the step has stayed in the period
      unfold begins at hbegins
      simp only [hhalf, decide_true, Bool.true_and, Bool.or_eq_false_iff, decide_eq_false_iff_not,
        not_not] at hbegins
      obtain ⟨hs, ha⟩ := hbegins
      cases a with
      | execute =>
          obtain rfl := Option.some.inj hw
          exact oneProbe_execute cfg hone hmarked hs
      | settle i ok now =>
          obtain ⟨state, hget, hcalls, -⟩ := settle_of_halfOpen cfg hs hw
          have hi : o.since ≤ i := hP hs (by rw [hget]; rfl)
          -- the call that settles was the only one
          have hnone : ∀ j, o.since ≤ j → ¬ Unsettled { o with world := w' } j := by
            rintro j hj ⟨state', hget'⟩
            dsimp only at hget'
            rw [hcalls, List.getElem?_set] at hget'
            split at hget'
            next he =>
                split at hget' <;> cases hget'
            next hne => exact hne (hone hs i j hi hj ⟨state, hget⟩ ⟨state', hget'⟩)
          exact ⟨fun _ j _ hj _ hu => absurd hu (hnone j hj),
            fun _ j hj hu => absurd hu (hnone j hj)⟩
      | fire t => cases ha
      | «open» => cases ha
      | close =>
          obtain rfl := Option.some.inj hw
          rw [World.close, if_neg (by rw [hs]; decide)] at hhalf
          cases hhalf
    · exact ⟨fun hs => absurd hs hhalf, fun hs => absurd hs hhalf⟩

/-- **Half-open periods are isolated exactly in the runs where no call admitted before a
half-open period settles during it.** -/
theorem isolated_iff_noStaleSettlement (as : List Action) :
    ((∀ bs, bs <+: as → ∀ o, exec (step cfg) {} bs = some o → o.OneProbe) ∧
      ∀ bs a, bs ++ [a] <+: as → ∀ o o', exec (step cfg) {} bs = some o →
        o.step cfg a = some o' → Undisturbed o a o') ↔
      Meets (step cfg) NoStaleSettlement {} as := by
  constructor
  · rintro ⟨-, h⟩
    refine meets_of_forall_initial fun bs a cs o has ho => ?_
    cases a with
    | settle i ok now =>
        intro hs hunsettled
        by_contra hi
        obtain ⟨w', hw⟩ : ∃ w', o.world.step cfg (.settle i ok now) = some w' := by
          rw [World.step, World.settle]
          cases hget : o.world.calls[i]? with
          | none =>
              rw [hget] at hunsettled
              cases hunsettled
          | some call =>
              obtain ⟨state, settled⟩ := call
              cases settled with
              | true =>
                  rw [hget] at hunsettled
                  cases hunsettled
              | false => exact ⟨_, rfl⟩
        obtain ⟨o', ho'⟩ : ∃ o', o.step cfg (.settle i ok now) = some o' := by
          rw [step, hw]
          exact ⟨_, rfl⟩
        have hprefix : bs ++ [.settle i ok now] <+: as := ⟨cs, by simp [has]⟩
        exact not_undisturbed cfg hs (Nat.lt_of_not_le hi) ho' (h bs _ hprefix o o' ho ho')
    | _ => trivial
  · intro h
    refine ⟨?_, ?_⟩
    · rintro bs ⟨cs, rfl⟩ o ho
      have hinit : OneProbe {} ∧ Marked {} := ⟨by rintro ⟨⟩, by rintro ⟨⟩⟩
      exact (meets_invariant (fun _ _ _ hI hP => step_isolated cfg hI hP) hinit
        ((meets_append ho).mp h).1 ho).1
    · rintro bs a ⟨cs, rfl⟩ o o' ho hstep i ok now rfl hs hi
      rw [List.append_assoc, meets_append ho, List.singleton_append, meets_cons_iff hstep] at h
      obtain ⟨w', hw, -⟩ := step_cases cfg hstep
      obtain ⟨state, hget, -⟩ := settle_of_halfOpen cfg hs hw
      have hsince : o.since ≤ i := h.2.1 hs (by rw [hget]; rfl)
      exact absurd hsince (Nat.not_le.mpr hi)

/-- A call that was let through while the circuit was closed fails in the half-open period of
another one, and opens the circuit in the place of the test call. -/
theorem not_isolated_staleFailure :
    ¬ ∀ (cfg : CircuitBreakerConfig) (as : List Action),
      (∀ bs, bs <+: as → ∀ o, exec (step cfg) {} bs = some o → o.OneProbe) ∧
        ∀ bs a, bs ++ [a] <+: as → ∀ o o', exec (step cfg) {} bs = some o →
          o.step cfg a = some o' → Undisturbed o a o' := by
  intro h
  obtain ⟨o, o', ho, hstep, hs, hi⟩ : ∃ o o', exec (step { failureThreshold := 1 }) {}
      [.execute, .execute, .settle 0 false 1, .fire 0] = some o ∧
      o.step { failureThreshold := 1 } (.settle 1 false 2) = some o' ∧ o.HalfOpen ∧ 1 < o.since :=
    ⟨_, _, rfl, rfl, rfl, by decide⟩
  exact not_undisturbed _ hs hi hstep ((h { failureThreshold := 1 }
    [.execute, .execute, .settle 0 false 1, .fire 0, .settle 1 false 2]).2 _ _ ⟨[], rfl⟩ o o' ho
      hstep)

end Observed

end Blaize.Redis
