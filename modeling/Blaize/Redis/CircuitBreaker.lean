import Blaize.Lib.Machine

/-!
The circuit breaker of the Redis adapter (`adapters/redis/src/circuit-breaker.ts`).

A `CircuitBreaker` holds the private fields of `CircuitBreakerImpl`; a `World` adds what
the event loop keeps for it, the live reset timers and the calls that were let through.
One `Action` is one uninterrupted piece of JavaScript: the synchronous start of `execute`,
the settlement of a wrapped call with its `finally`, a timer callback, `open()` and
`close()`.  The callbacks `onOpen`, `onClose` and `onHalfOpen` only observe: they do not
call back into the breaker.

* `letThrough`: which states let a call through;
* `Unlocked`: no half-open state turns every caller away for good;
* `unlocked_iff_noStaleProbe`: **a run never locks itself out exactly when no half-open
  period starts with the flag of a settled probe**.
-/

namespace Blaize.Redis

open Machine

/-! ### The breaker -/

/-- The states of a circuit breaker. -/
inductive CircuitState where
  | CLOSED
  | OPEN
  | HALF_OPEN
  deriving DecidableEq, Repr

/-- The options of a circuit breaker, with their defaults. -/
structure CircuitBreakerConfig where
  failureThreshold : ℕ := 5
  resetTimeout : ℕ := 30000
  successThreshold : ℕ := 1
  deriving DecidableEq, Repr

/-- The fields of a circuit breaker. -/
structure CircuitBreaker where
  currentState : CircuitState := .CLOSED
  failureCount : ℕ := 0
  successCount : ℕ := 0
  lastFailureTime : Option ℕ := none
  lastSuccessTime : Option ℕ := none
  resetTimer : Option ℕ := none
  testInProgress : Bool := false
  deriving DecidableEq, Repr

/-- The error of a call that is refused. -/
structure CircuitBreakerOpenError where
  message : String
  state : CircuitState
  failures : ℕ
  lastFailure : Option ℕ
  resetTimeout : ℕ
  deriving DecidableEq, Repr

/-- A call that `execute` let through: the state it was let through in, and whether the
wrapped promise has settled. -/
structure Call where
  admittedIn : CircuitState
  settled : Bool
  deriving DecidableEq, Repr

/-- The breaker with the timers and the calls the event loop holds for it. -/
structure World where
  breaker : CircuitBreaker := {}
  timers : List ℕ := []
  nextTimer : ℕ := 0
  calls : List Call := []
  deriving DecidableEq, Repr

/-- One uninterrupted piece of JavaScript. -/
inductive Action where
  | execute
  | settle (call : ℕ) (ok : Bool) (now : ℕ)
  | fire (timer : ℕ)
  | open
  | close
  deriving DecidableEq, Repr

variable (cfg : CircuitBreakerConfig)

/-- That error, as it is made from the state. -/
def openError (b : CircuitBreaker) (message : String) : CircuitBreakerOpenError where
  message := message
  state := b.currentState
  failures := b.failureCount
  lastFailure := b.lastFailureTime
  resetTimeout := cfg.resetTimeout

/-- The synchronous start of `execute`: the error it throws, or the breaker with which the
wrapped function is called. -/
def CircuitBreaker.letThrough (b : CircuitBreaker) :
    Except CircuitBreakerOpenError CircuitBreaker :=
  match b.currentState with
  | .OPEN => .error (openError cfg b "Circuit breaker is OPEN")
  | .HALF_OPEN =>
      if b.testInProgress then
        .error (openError cfg b "Circuit breaker test call already in progress")
      else
        .ok { b with testInProgress := true }
  | .CLOSED => .ok b

namespace World

/-- Sets the state. -/
def transitionTo (w : World) (newState : CircuitState) : World :=
  { w with breaker := { w.breaker with currentState := newState } }

/-- Stops the timer, if there is one. -/
def clearResetTimer (w : World) : World :=
  match w.breaker.resetTimer with
  | some t =>
      { w with
        timers := w.timers.erase t
        breaker := { w.breaker with resetTimer := none } }
  | none => w

/-- The body of the reset timer, also run at once for a reset timeout of `0`. -/
def enterHalfOpen (w : World) : World :=
  { w with breaker := { w.breaker with successCount := 0 } }.transitionTo .HALF_OPEN

/-- Starts the timer; without a time it has fired already. -/
def startResetTimer (w : World) : World :=
  let w := w.clearResetTimer
  if cfg.resetTimeout = 0 then
    w.enterHalfOpen
  else
    { w with
      timers := w.nextTimer :: w.timers
      nextTimer := w.nextTimer + 1
      breaker := { w.breaker with resetTimer := some w.nextTimer } }

/-- A call has succeeded. -/
def onSuccess (w : World) (now : ℕ) : World :=
  let b := { w.breaker with lastSuccessTime := some now }
  match b.currentState with
  | .CLOSED => { w with breaker := if 0 < b.failureCount then { b with failureCount := 0 } else b }
  | .HALF_OPEN =>
      let b := { b with successCount := b.successCount + 1 }
      if cfg.successThreshold ≤ b.successCount then
        { w with breaker := { b with failureCount := 0, successCount := 0 } }.transitionTo .CLOSED
      else
        { w with breaker := b }
  | .OPEN => { w with breaker := b }

/-- A call has failed. -/
def onFailure (w : World) (now : ℕ) : World :=
  let b := { w.breaker with
    lastFailureTime := some now, failureCount := w.breaker.failureCount + 1 }
  match b.currentState with
  | .CLOSED =>
      if cfg.failureThreshold ≤ b.failureCount then
        ({ w with breaker := b }.transitionTo .OPEN).startResetTimer cfg
      else
        { w with breaker := b }
  | .HALF_OPEN =>
      ({ w with breaker := { b with successCount := 0 } }.transitionTo .OPEN).startResetTimer cfg
  | .OPEN => { w with breaker := b }

/-- The `finally` of `execute`. -/
def endTest (w : World) : World :=
  if w.breaker.currentState = .HALF_OPEN then
    { w with breaker := { w.breaker with testInProgress := false } }
  else
    w

/-- `breaker.open()` -/
def «open» (w : World) : World :=
  if w.breaker.currentState = .OPEN then w else (w.transitionTo .OPEN).startResetTimer cfg

/-- `breaker.close()` -/
def close (w : World) : World :=
  if w.breaker.currentState = .CLOSED then
    w
  else
    let w := w.clearResetTimer
    let w := { w with breaker := { w.breaker with failureCount := 0, successCount := 0 } }
    w.transitionTo .CLOSED

/-- The call `i` settles: its bookkeeping and the `finally` run in one go. -/
def settle (w : World) (i : ℕ) (ok : Bool) (now : ℕ) : Option World :=
  match w.calls[i]? with
  | some ⟨st, false⟩ =>
      let w := { w with calls := w.calls.set i ⟨st, true⟩ }
      some ((if ok then w.onSuccess cfg now else w.onFailure cfg now).endTest)
  | _ => none

/-- `execute` up to the call of the wrapped function; a refused call changes nothing. -/
def execute (w : World) : World :=
  match w.breaker.letThrough cfg with
  | .ok b => { w with breaker := b, calls := w.calls ++ [⟨w.breaker.currentState, false⟩] }
  | .error _ => w

/-- What can happen next. -/
def step (w : World) : Action → Option World
  | .execute => some (w.execute cfg)
  | .settle i ok now => w.settle cfg i ok now
  | .fire t =>
      if t ∈ w.timers then some { w with timers := w.timers.erase t }.enterHalfOpen else none
  | .open => some (w.open cfg)
  | .close => some w.close

/-! ### When a call is let through -/

/-- A call admitted while half-open, the probe of its period, is still unsettled. -/
def ProbePending (w : World) : Prop := ∃ c ∈ w.calls, c.admittedIn = .HALF_OPEN ∧ c.settled = false

/-- The next `execute` calls its function instead of throwing. -/
def Admits (w : World) : Prop := (w.breaker.letThrough cfg).isOk = true

instance (w : World) : Decidable w.ProbePending :=
  inferInstanceAs (Decidable (∃ c ∈ w.calls, _))

instance (w : World) : Decidable (w.Admits cfg) := inferInstanceAs (Decidable (_ = true))

/-- **No lock-out in this state**: half-open with no probe on its way lets the next call
through. -/
def Unlocked (w : World) : Prop :=
  w.breaker.currentState = .HALF_OPEN → ¬ w.ProbePending → w.Admits cfg

/-- The flag of a probe that has already settled. -/
def StaleProbe (w : World) : Prop := w.breaker.testInProgress = true ∧ ¬ w.ProbePending

/-- A step that starts a half-open period does not do so with a stale flag: the reset
timer fires, or `open()` is called with a reset timeout of `0`. -/
def NoStaleProbe (w : World) : Action → Prop
  | .fire t => t ∈ w.timers → ¬ w.StaleProbe
  | .open => cfg.resetTimeout = 0 → w.breaker.currentState ≠ .OPEN → ¬ w.StaleProbe
  | _ => True

lemma admits_iff_of_halfOpen {w : World} (h : w.breaker.currentState = .HALF_OPEN) :
    w.Admits cfg ↔ w.breaker.testInProgress = false := by
  rw [Admits, CircuitBreaker.letThrough, h]
  cases w.breaker.testInProgress <;> simp [Except.isOk, Except.toBool]

/-- Without a lock-out the flag of a half-open breaker belongs to a pending probe. -/
lemma unlocked_iff {w : World} :
    w.Unlocked cfg ↔ (w.breaker.currentState = .HALF_OPEN → ¬ w.StaleProbe) := by
  refine forall_congr' fun h => ?_
  rw [admits_iff_of_halfOpen cfg h, StaleProbe]
  cases w.breaker.testInProgress <;> simp

/-! ### What one step does to the flag -/

@[simp] lemma clearResetTimer_currentState (w : World) :
    w.clearResetTimer.breaker.currentState = w.breaker.currentState := by
  rw [clearResetTimer]
  split <;> rfl

@[simp] lemma clearResetTimer_testInProgress (w : World) :
    w.clearResetTimer.breaker.testInProgress = w.breaker.testInProgress := by
  rw [clearResetTimer]
  split <;> rfl

@[simp] lemma clearResetTimer_calls (w : World) : w.clearResetTimer.calls = w.calls := by
  rw [clearResetTimer]
  split <;> rfl

@[simp] lemma startResetTimer_testInProgress (w : World) :
    (w.startResetTimer cfg).breaker.testInProgress = w.breaker.testInProgress := by
  simp only [startResetTimer, enterHalfOpen, transitionTo]
  split <;> simp

@[simp] lemma startResetTimer_calls (w : World) : (w.startResetTimer cfg).calls = w.calls := by
  simp only [startResetTimer, enterHalfOpen, transitionTo]
  split <;> simp

lemma startResetTimer_currentState (w : World) :
    (w.startResetTimer cfg).breaker.currentState =
      if cfg.resetTimeout = 0 then .HALF_OPEN else w.breaker.currentState := by
  simp only [startResetTimer, enterHalfOpen, transitionTo]
  split <;> simp

/-- After the `finally` a half-open breaker has no test in progress. -/
lemma endTest_unlocked (w : World) : w.endTest.Unlocked cfg := by
  rw [unlocked_iff, endTest]
  split <;> simp_all [StaleProbe]

/-- The flag is stale after a step as it was before, if neither the flag nor the calls
change. -/
lemma staleProbe_congr {w w' : World}
    (hf : w'.breaker.testInProgress = w.breaker.testInProgress) (hc : w'.calls = w.calls) :
    w'.StaleProbe ↔ w.StaleProbe := by
  rw [StaleProbe, StaleProbe, ProbePending, ProbePending, hf, hc]

lemma execute_unlocked {w : World} (h : w.Unlocked cfg) : (w.execute cfg).Unlocked cfg := by
  rw [execute]
  split
  next b hb =>
      rw [unlocked_iff]
      rintro hs ⟨-, hp⟩
      -- the call just let through is the pending probe of the new state
      refine hp ⟨⟨w.breaker.currentState, false⟩, by simp, ?_, rfl⟩
      rw [CircuitBreaker.letThrough] at hb
      split at hb
      next => cases hb
      next hst => exact hst
      next =>
          obtain rfl := Except.ok.inj hb
          exact hs
  next => exact h

lemma open_unlocked {w : World} (h : w.Unlocked cfg) (hP : w.NoStaleProbe cfg .open) :
    (w.open cfg).Unlocked cfg := by
  rw [«open»]
  split
  · exact h
  next hne =>
      rw [unlocked_iff]
      intro hs
      rw [staleProbe_congr (w := w) (by simp [transitionTo]) (by simp [transitionTo])]
      rw [startResetTimer_currentState] at hs
      split at hs
      next h0 => exact hP h0 hne
      next => simp [transitionTo] at hs

/-- **One step keeps the breaker unlocked** when it does not start a half-open period with
a stale flag. -/
lemma step_unlocked {w w' : World} {a : Action} (h : w.Unlocked cfg) (hP : w.NoStaleProbe cfg a)
    (hstep : w.step cfg a = some w') : w'.Unlocked cfg := by
  cases a with
  | execute =>
      obtain rfl := Option.some.inj hstep
      exact execute_unlocked cfg h
  | settle i ok now =>
      simp only [step, settle] at hstep
      split at hstep
      next =>
          obtain rfl := Option.some.inj hstep
          exact endTest_unlocked cfg _
      next => cases hstep
  | fire t =>
      simp only [step] at hstep
      split at hstep
      next ht =>
          obtain rfl := Option.some.inj hstep
          rw [unlocked_iff]
          exact fun _ => (staleProbe_congr (w := w) rfl rfl).not.mpr (hP ht)
      next => cases hstep
  | «open» =>
      obtain rfl := Option.some.inj hstep
      exact open_unlocked cfg h hP
  | close =>
      obtain rfl := Option.some.inj hstep
      rw [unlocked_iff, close]
      split
      next hc => simp [hc]
      next => simp [transitionTo]

/-- A step that starts a half-open period with a stale flag locks the breaker. -/
lemma noStaleProbe_of_unlocked {w w' : World} {a : Action} (hstep : w.step cfg a = some w')
    (h : w'.Unlocked cfg) : w.NoStaleProbe cfg a := by
  rw [unlocked_iff] at h
  cases a with
  | fire t =>
      intro ht
      simp only [step, if_pos ht] at hstep
      obtain rfl := Option.some.inj hstep
      exact (staleProbe_congr (w := w) rfl rfl).not.mp (h rfl)
  | «open» =>
      intro h0 hne
      simp only [step, «open», if_neg hne] at hstep
      obtain rfl := Option.some.inj hstep
      rw [staleProbe_congr (w := w) (by simp [transitionTo]) (by simp [transitionTo])] at h
      exact h (by rw [startResetTimer_currentState, if_pos h0])
  | _ => trivial

/-- **The lock-outs of the breaker**: along a run every state that is half-open without a
pending probe lets the next call through exactly when no half-open period is started with
the flag of a probe that has settled.  The flag outlives its probe because the `finally`
of `execute` clears it only while the breaker is still half-open. -/
theorem unlocked_iff_noStaleProbe (as : List Action) :
    (∀ bs, bs <+: as → ∀ w, exec (step cfg) {} bs = some w → w.Unlocked cfg) ↔
      Meets (step cfg) (NoStaleProbe cfg) {} as := by
  constructor
  · intro h
    refine meets_of_forall_initial fun bs a cs w has hw => ?_
    cases hstep : step cfg w a with
    | none =>
        cases a with
        | fire t =>
            intro ht
            simp [step, ht] at hstep
        | «open» => simp [step] at hstep
        | _ => trivial
    | some w' =>
        refine noStaleProbe_of_unlocked cfg hstep (h (bs ++ [a]) ⟨cs, by simp [has]⟩ w' ?_)
        rw [exec_append, hw, Option.bind_some, exec_cons, hstep]
        rfl
  · rintro h bs ⟨cs, rfl⟩ w hw
    have hinit : Unlocked cfg {} := fun hs => by cases hs
    exact meets_invariant (fun _ _ _ hI hP => step_unlocked cfg hI hP) hinit
      ((meets_append hw).mp h).1 hw

/-- A probe that closes the circuit leaves its flag behind: with both thresholds `1` the
breaker opens, recovers through one successful probe, opens again and is locked for good. -/
theorem not_unlocked_after_recovery :
    ¬ ∀ cfg : CircuitBreakerConfig, 1 ≤ cfg.failureThreshold → 1 ≤ cfg.successThreshold →
      ∀ as w, exec (step cfg) {} as = some w → w.Unlocked cfg := by
  intro h
  have hrun := h { failureThreshold := 1, resetTimeout := 1, successThreshold := 1 }
    (by decide) (by decide)
    [.execute, .settle 0 false 1, .fire 0, .execute, .settle 1 true 2,
      .execute, .settle 2 false 3, .fire 1]
    { breaker :=
        { currentState := .HALF_OPEN, failureCount := 1, lastFailureTime := some 3,
          lastSuccessTime := some 2, resetTimer := some 1, testInProgress := true }
      nextTimer := 2
      calls := [⟨.CLOSED, true⟩, ⟨.HALF_OPEN, true⟩, ⟨.CLOSED, true⟩] } (by decide)
  exact absurd (hrun rfl (by decide)) (by decide)

end World

end Blaize.Redis
