import Blaize.Redis.ResetTimer

/-!
The circuit breaker with callbacks that call back into it.

`transitionTo` invokes `onOpen`, `onClose` or `onHalfOpen`, which may call `execute`, `open()`
and `close()` before it returns.  So here a transition leaves a frame on a stack, with what
its caller still does, and the frame is run when the callback returns.  In between the callback
may make any calls; a timer fires and a promise settles only with an empty stack.

* `Nested`, `step`: the breaker with its stack, and the marks of what has happened to it;
* `failuresSince`: the failures since the last success or the last entry into `CLOSED`;
* `Exact`: a closed circuit has counted these, fewer than the threshold, and is left by `open()`
  or by the failure that reaches the threshold;
* `step_of_quiet`: with callbacks that return at once this is the breaker of `CircuitBreaker`;
* `exact_of_staysOpen`: **the count is exact as long as the circuit is still open when `onOpen`
  returns**, for then the timer is not started for a circuit that was closed meanwhile.
-/

namespace Blaize.Redis

open Machine

/-! ### The machine -/

/-- What the caller of `transitionTo` still does when the callback returns: `onFailure` and
`open()` start the reset timer.  A settlement ends with the `finally` of `execute`. -/
inductive Frame where
  | startResetTimer (settling : Bool)
  | finish (settling : Bool)
  deriving DecidableEq, Repr

/-- What makes the breaker leave `CLOSED`. -/
inductive Cause where
  | opened
  | failed
  | reset
  deriving DecidableEq, Repr

/-- What is noted about a run. -/
inductive Mark where
  | succeeded
  | failed
  | closed
  | left (cause : Cause)
  deriving DecidableEq, Repr

/-- The breaker with the callbacks that have not returned, the innermost first, and its marks,
the latest first. -/
structure Nested where
  world : World := {}
  stack : List Frame := []
  marks : List Mark := []
  deriving DecidableEq, Repr

/-- `executeThrows` is `execute` of a function that throws before it returns a promise. -/
inductive NestedAction where
  | execute
  | executeThrows (now : ℕ)
  | settle (call : ℕ) (ok : Bool) (now : ℕ)
  | fire (timer : ℕ)
  | open
  | close
  | return
  deriving DecidableEq, Repr

/-- The failed settlements since the last successful one or the last entry into `CLOSED`. -/
def failuresSince : List Mark → ℕ
  | [] => 0
  | .failed :: marks => failuresSince marks + 1
  | .left _ :: marks => failuresSince marks
  | .succeeded :: _ => 0
  | .closed :: _ => 0

namespace Nested

variable (cfg : CircuitBreakerConfig) (s : Nested)

/-- The mark of a transition. -/
def transitionMark (newState : CircuitState) (cause : Cause) : List Mark :=
  if newState = .CLOSED then [.closed]
  else if s.world.breaker.currentState = .CLOSED then [.left cause]
  else []

/-- `transitionTo` up to the call of the callback. -/
def transitionTo (newState : CircuitState) (cause : Cause) (next : Frame) : Nested where
  world := s.world.transitionTo newState
  stack := next :: s.stack
  marks := s.transitionMark newState cause ++ s.marks

/-- Sets the circuit breaker and its timers. -/
def setWorld (world : World) : Nested := { s with world := world }

/-- Notes something. -/
def mark (m : Mark) : Nested := { s with marks := m :: s.marks }

/-- What follows a settlement without a transition, or the callback of one: the `finally`. -/
def finish (settling : Bool) : Nested :=
  if settling then s.setWorld s.world.endTest else s

/-- A call has succeeded. -/
def onSuccess (now : ℕ) : Nested :=
  let w := s.world
  let b := { w.breaker with lastSuccessTime := some now }
  match b.currentState with
  | .CLOSED =>
      (s.setWorld { w with
        breaker := if 0 < b.failureCount then { b with failureCount := 0 } else b }).finish true
  | .HALF_OPEN =>
      let b := { b with successCount := b.successCount + 1 }
      if cfg.successThreshold ≤ b.successCount then
        (s.setWorld { w with
          breaker := { b with failureCount := 0, successCount := 0 } }).transitionTo .CLOSED
            .reset (.finish true)
      else
        (s.setWorld { w with breaker := b }).finish true
  | .OPEN => (s.setWorld { w with breaker := b }).finish true

/-- A call has failed. -/
def onFailure (now : ℕ) : Nested :=
  let w := s.world
  let b := { w.breaker with
    lastFailureTime := some now, failureCount := w.breaker.failureCount + 1 }
  match b.currentState with
  | .CLOSED =>
      if cfg.failureThreshold ≤ b.failureCount then
        (s.setWorld { w with breaker := b }).transitionTo .OPEN .failed (.startResetTimer true)
      else
        (s.setWorld { w with breaker := b }).finish true
  | .HALF_OPEN =>
      (s.setWorld { w with breaker := { b with successCount := 0 } }).transitionTo .OPEN
        .failed (.startResetTimer true)
  | .OPEN => (s.setWorld { w with breaker := b }).finish true

/-- The call `i` settles. -/
def settle (i : ℕ) (ok : Bool) (now : ℕ) : Option Nested :=
  match s.world.calls[i]? with
  | some ⟨st, false⟩ =>
      let s := s.setWorld { s.world with calls := s.world.calls.set i ⟨st, true⟩ }
      some (if ok then (s.mark .succeeded).onSuccess cfg now
        else (s.mark .failed).onFailure cfg now)
  | _ => none

/-- A call that is let through and throws at once settles at once. -/
def executeThrows (now : ℕ) : Option Nested :=
  match s.world.breaker.letThrough cfg with
  | .ok _ => (s.setWorld (s.world.execute cfg)).settle cfg s.world.calls.length false now
  | .error _ => some s

/-- `breaker.open()` -/
def «open» : Nested :=
  if s.world.breaker.currentState = .OPEN then s
  else s.transitionTo .OPEN .opened (.startResetTimer false)

/-- `breaker.close()` -/
def close : Nested :=
  if s.world.breaker.currentState = .CLOSED then
    s
  else
    let w := s.world.clearResetTimer
    (s.setWorld { w with
      breaker := { w.breaker with failureCount := 0, successCount := 0 } }).transitionTo .CLOSED
        .reset (.finish false)

/-- The transition to `HALF_OPEN` of a timer, and of `startResetTimer` without a timeout. -/
def enterHalfOpen (next : Frame) : Nested :=
  (s.setWorld { s.world with
    breaker := { s.world.breaker with successCount := 0 } }).transitionTo .HALF_OPEN .reset next

/-- Starts the timer; without a time it fires at once. -/
def startResetTimer (settling : Bool) : Nested :=
  if cfg.resetTimeout = 0 then
    (s.setWorld s.world.clearResetTimer).enterHalfOpen (.finish settling)
  else
    (s.setWorld (s.world.startResetTimer cfg)).finish settling

/-- The innermost callback returns. -/
def «return» : Option Nested :=
  match s.stack with
  | [] => none
  | .startResetTimer settling :: stack =>
      some ({ s with stack := stack }.startResetTimer cfg settling)
  | .finish settling :: stack => some ({ s with stack := stack }.finish settling)

/-- What an action does; `none`: it cannot happen. -/
def step (s : Nested) : NestedAction → Option Nested
  | .execute => some (s.setWorld (s.world.execute cfg))
  | .executeThrows now => s.executeThrows cfg now
  | .settle i ok now => if s.stack = [] then s.settle cfg i ok now else none
  | .fire t =>
      if s.stack = [] ∧ t ∈ s.world.timers then
        some ((s.setWorld { s.world with timers := s.world.timers.erase t }).enterHalfOpen
          (.finish false))
      else
        none
  | .open => some s.open
  | .close => some s.close
  | .return => s.return cfg

/-- `CLOSED` is left by `open()`, or by the failure that reaches the threshold. -/
def Allowed (cause : Cause) (earlier : List Mark) : Prop :=
  cause = .opened ∨ cause = .failed ∧ failuresSince earlier = cfg.failureThreshold

/-- **The breaker opens exactly at the threshold**: a closed circuit has counted the failures
since the last success or entry, fewer than the threshold, and it was only ever left by
`open()` or by the failure that made them as many as the threshold. -/
def Exact : Prop :=
  (s.world.breaker.currentState = .CLOSED →
      s.world.breaker.failureCount = failuresSince s.marks ∧
        failuresSince s.marks < cfg.failureThreshold) ∧
    ∀ later cause earlier, s.marks = later ++ .left cause :: earlier → Allowed cfg cause earlier

/-- When `onOpen` returns the circuit is still open; with no timeout it may be half-open. -/
def StaysOpen : NestedAction → Prop
  | .return => ∀ settling, s.stack.head? = some (.startResetTimer settling) →
      s.world.breaker.currentState = .OPEN ∨
        s.world.breaker.currentState = .HALF_OPEN ∧ cfg.resetTimeout = 0
  | _ => True

instance : ∀ a : NestedAction, Decidable (s.StaysOpen cfg a)
  | .return =>
      match h : s.stack.head? with
      | some (.startResetTimer settling) =>
          decidable_of_iff (s.world.breaker.currentState = .OPEN ∨
            s.world.breaker.currentState = .HALF_OPEN ∧ cfg.resetTimeout = 0)
            (by simp [StaysOpen, h])
      | some (.finish _) => .isTrue (by simp [StaysOpen, h])
      | none => .isTrue (by simp [StaysOpen, h])
  | .execute | .executeThrows _ | .settle _ _ _ | .fire _ | .open | .close => .isTrue trivial

/-! ### Callbacks that return at once -/

/-- The action of `CircuitBreaker` as one of this machine. -/
def ofAction : Action → NestedAction
  | .execute => .execute
  | .settle i ok now => .settle i ok now
  | .fire t => .fire t
  | .open => .open
  | .close => .close

/-- When the callbacks return one after the other, the breaker is left with this world. -/
def Returns (w : World) : Prop :=
  ∃ k s', exec (step cfg) s (List.replicate k .return) = some s' ∧ s'.world = w ∧ s'.stack = []

variable {cfg s}

lemma returns_nil (h : s.stack = []) : s.Returns cfg s.world := ⟨0, s, rfl, rfl, h⟩

/-- One more callback returns. -/
lemma Returns.step {s' : Nested} {w : World} (h : s'.Returns cfg w)
    (hstep : s.return cfg = some s') : s.Returns cfg w := by
  obtain ⟨k, t, hrun, hw, hstack⟩ := h
  refine ⟨k + 1, t, ?_, hw, hstack⟩
  rw [List.replicate_succ, exec_cons, Nested.step, hstep]
  exact hrun

lemma returns_finish {settling : Bool} (h : s.stack = [.finish settling]) :
    s.Returns cfg (if settling then s.world.endTest else s.world) := by
  have hret : s.return cfg = some ({ s with stack := [] }.finish settling) := by
    rw [«return», h]
  refine Returns.step ?_ hret
  cases settling <;> exact returns_nil rfl

lemma returns_startResetTimer {settling : Bool} (h : s.stack = [.startResetTimer settling]) :
    s.Returns cfg (if settling then (s.world.startResetTimer cfg).endTest
      else s.world.startResetTimer cfg) := by
  have hret : s.return cfg = some ({ s with stack := [] }.startResetTimer cfg settling) := by
    rw [«return», h]
  refine Returns.step ?_ hret
  rw [Nested.startResetTimer, World.startResetTimer]
  split
  next => exact returns_finish rfl
  next => cases settling <;> exact returns_nil rfl

lemma transitionTo_finish (h : s.stack = []) (newState : CircuitState) (cause : Cause)
    (settling : Bool) :
    (s.transitionTo newState cause (.finish settling)).Returns cfg
      (if settling then (s.world.transitionTo newState).endTest
        else s.world.transitionTo newState) :=
  returns_finish (by rw [transitionTo, h])

lemma transitionTo_startResetTimer (h : s.stack = []) (newState : CircuitState) (cause : Cause)
    (settling : Bool) :
    (s.transitionTo newState cause (.startResetTimer settling)).Returns cfg
      (if settling then ((s.world.transitionTo newState).startResetTimer cfg).endTest
        else (s.world.transitionTo newState).startResetTimer cfg) :=
  returns_startResetTimer (by rw [transitionTo, h])

lemma returns_finish_true (w : World) (h : s.stack = []) :
    ((s.setWorld w).finish true).Returns cfg w.endTest := returns_nil h

lemma onSuccess_quiet (h : s.stack = []) (now : ℕ) :
    (s.onSuccess cfg now).Returns cfg (s.world.onSuccess cfg now).endTest := by
  cases hs : s.world.breaker.currentState with
  | CLOSED =>
      simp only [Nested.onSuccess, World.onSuccess, hs]
      exact returns_finish_true _ h
  | HALF_OPEN =>
      simp only [Nested.onSuccess, World.onSuccess, hs]
      split
      · exact transitionTo_finish (by exact h) .CLOSED .reset true
      · exact returns_finish_true _ h
  | OPEN =>
      simp only [Nested.onSuccess, World.onSuccess, hs]
      exact returns_finish_true _ h

lemma onFailure_quiet (h : s.stack = []) (now : ℕ) :
    (s.onFailure cfg now).Returns cfg (s.world.onFailure cfg now).endTest := by
  cases hs : s.world.breaker.currentState with
  | CLOSED =>
      simp only [Nested.onFailure, World.onFailure, hs]
      split
      · exact transitionTo_startResetTimer (by exact h) .OPEN .failed true
      · exact returns_finish_true _ h
  | HALF_OPEN =>
      simp only [Nested.onFailure, World.onFailure, hs]
      exact transitionTo_startResetTimer (by exact h) .OPEN .failed true
  | OPEN =>
      simp only [Nested.onFailure, World.onFailure, hs]
      exact returns_finish_true _ h

/-- **The breaker whose callbacks return at once is the one of `CircuitBreaker`.** -/
theorem step_of_quiet {a : Action} {w : World} (hstack : s.stack = [])
    (hstep : s.world.step cfg a = some w) :
    ∃ s', s.step cfg (ofAction a) = some s' ∧ s'.Returns cfg w := by
  cases a with
  | execute =>
      obtain rfl := Option.some.inj hstep
      exact ⟨_, rfl, returns_nil hstack⟩
  | settle i ok now =>
      cases hcall : s.world.calls[i]? with
      | none =>
          simp only [World.step, World.settle, hcall] at hstep
          cases hstep
      | some call =>
          obtain ⟨state, _ | _⟩ := call
          · simp only [World.step, World.settle, hcall] at hstep
            obtain rfl := Option.some.inj hstep
            simp only [ofAction, Nested.step, if_pos hstack, Nested.settle, hcall]
            refine ⟨_, rfl, ?_⟩
            cases ok
            · exact onFailure_quiet (by exact hstack) now
            · exact onSuccess_quiet (by exact hstack) now
          · simp only [World.step, World.settle, hcall] at hstep
            cases hstep
  | fire t =>
      simp only [World.step] at hstep
      split at hstep
      next ht =>
          obtain rfl := Option.some.inj hstep
          refine ⟨_, if_pos ⟨hstack, ht⟩, ?_⟩
          exact transitionTo_finish (by exact hstack) .HALF_OPEN .reset false
      next => cases hstep
  | «open» =>
      obtain rfl := Option.some.inj hstep
      refine ⟨_, rfl, ?_⟩
      rw [Nested.open, World.open]
      split
      · exact returns_nil hstack
      · exact transitionTo_startResetTimer hstack .OPEN .opened false
  | close =>
      obtain rfl := Option.some.inj hstep
      refine ⟨_, rfl, ?_⟩
      rw [Nested.close, World.close]
      split
      · exact returns_nil hstack
      · exact transitionTo_finish (by exact hstack) .CLOSED .reset false

/-! ### One step -/

/-- The count is exact, and a timer is live for an open circuit only. -/
structure Sound (cfg : CircuitBreakerConfig) (s : Nested) : Prop where
  exact : s.Exact cfg
  timer : s.world.timers = [] ∨ s.world.Timed

variable {newState : CircuitState} {cause : Cause} {next : Frame}

lemma Sound.timers_of_ne (h : s.Sound cfg) {state : CircuitState}
    (hs : s.world.breaker.currentState = state) (hne : state ≠ .OPEN) : s.world.timers = [] := by
  rcases h.timer with ht | ht
  · exact ht
  · exact ht.timers_of_ne hs hne

lemma Sound.timers_clear (h : s.Sound cfg) : s.world.clearResetTimer.timers = [] := by
  rcases h.timer with ht | ht
  · exact World.OwnTimer.timers_clear (Or.inl ht)
  · exact ht.ownTimer.timers_clear

/-- The marks after a mark that is no entry and no exit. -/
lemma forall_left_cons {m : Mark} {marks : List Mark} {P : Cause → List Mark → Prop}
    (h : ∀ later cause earlier, marks = later ++ .left cause :: earlier → P cause earlier)
    (hm : ∀ cause, m = .left cause → P cause marks) :
    ∀ later cause earlier, m :: marks = later ++ .left cause :: earlier → P cause earlier := by
  intro later cause earlier heq
  cases later with
  | nil =>
      obtain ⟨rfl, rfl⟩ := List.cons.inj heq
      exact hm cause rfl
  | cons m' later => exact h later cause earlier (List.cons.inj heq).2

/-- A transition out of, or past, `CLOSED`. -/
lemma sound_transitionTo (hne : newState ≠ .CLOSED)
    (hleft : ∀ later cause earlier, s.marks = later ++ .left cause :: earlier →
      Allowed cfg cause earlier)
    (hcause : s.world.breaker.currentState = .CLOSED → Allowed cfg cause s.marks)
    (ht : s.world.timers = []) : (s.transitionTo newState cause next).Sound cfg := by
  refine ⟨⟨fun hs => absurd hs hne, ?_⟩, Or.inl ht⟩
  rw [transitionTo, transitionMark, if_neg hne]
  dsimp only
  split
  next hs =>
      refine forall_left_cons hleft ?_
      rintro c ⟨⟩
      exact hcause hs
  next => exact hleft

/-- An entry into `CLOSED` starts to count anew. -/
lemma sound_transitionTo_closed (hf : 1 ≤ cfg.failureThreshold)
    (hleft : ∀ later cause earlier, s.marks = later ++ .left cause :: earlier →
      Allowed cfg cause earlier)
    (hcount : s.world.breaker.failureCount = 0) (ht : s.world.timers = []) :
    (s.transitionTo .CLOSED cause next).Sound cfg := by
  refine ⟨⟨fun _ => ?_, forall_left_cons hleft nofun⟩, Or.inl ht⟩
  exact ⟨hcount, hf⟩

/-- Only the state, the count, the marks and the timers matter. -/
lemma Sound.congr {s' : Nested} (h : s.Sound cfg)
    (hs : s'.world.breaker.currentState = s.world.breaker.currentState)
    (hc : s'.world.breaker.failureCount = s.world.breaker.failureCount) (hm : s'.marks = s.marks)
    (ht : s'.world.timers = s.world.timers)
    (hr : s'.world.breaker.resetTimer = s.world.breaker.resetTimer) : s'.Sound cfg := by
  refine ⟨?_, ?_⟩
  · rw [Exact, hs, hc, hm]
    exact h.exact
  · rw [ht]
    exact h.timer.imp_right fun htimed => htimed.congr hs ht hr

lemma Sound.finish (h : s.Sound cfg) (settling : Bool) : (s.finish settling).Sound cfg := by
  cases settling with
  | false => exact h
  | true =>
      rw [Nested.finish, if_pos rfl, World.endTest]
      split
      · exact h.congr rfl rfl rfl rfl rfl
      · exact h

lemma Sound.onSuccess (hf : 1 ≤ cfg.failureThreshold) (h : s.Sound cfg) (now : ℕ) :
    ((s.mark .succeeded).onSuccess cfg now).Sound cfg := by
  have hleft := forall_left_cons (m := .succeeded) h.exact.2 nofun
  cases hs : s.world.breaker.currentState with
  | CLOSED =>
      have ht := h.timers_of_ne hs nofun
      simp only [Nested.onSuccess, mark, hs]
      refine Sound.finish ?_ true
      refine ⟨⟨fun _ => ⟨?_, hf⟩, hleft⟩, Or.inl ht⟩
      -- a count of zero stays, any other is set to zero
      rw [setWorld]
      dsimp only
      split
      · rfl
      · exact Nat.eq_zero_of_not_pos ‹_›
  | HALF_OPEN =>
      have ht := h.timers_of_ne hs nofun
      simp only [Nested.onSuccess, mark, hs]
      split
      · exact sound_transitionTo_closed hf hleft rfl ht
      · refine Sound.finish ?_ true
        exact ⟨⟨nofun, hleft⟩, Or.inl ht⟩
  | OPEN =>
      simp only [Nested.onSuccess, mark, hs]
      refine Sound.finish ?_ true
      exact ⟨⟨nofun, hleft⟩, h.timer.imp_right fun htimed => htimed.congr hs.symm rfl rfl⟩

lemma Sound.onFailure (h : s.Sound cfg) (now : ℕ) :
    ((s.mark .failed).onFailure cfg now).Sound cfg := by
  have hleft := forall_left_cons (m := .failed) h.exact.2 nofun
  cases hs : s.world.breaker.currentState with
  | CLOSED =>
      have ht := h.timers_of_ne hs nofun
      obtain ⟨hcount, hlt⟩ := h.exact.1 hs
      simp only [Nested.onFailure, mark, hs]
      split
      next hge =>
          refine sound_transitionTo nofun hleft (fun _ => Or.inr ⟨rfl, ?_⟩) ht
          show failuresSince s.marks + 1 = cfg.failureThreshold
          omega
      next hge =>
          refine Sound.finish ?_ true
          refine ⟨⟨fun _ => ?_, hleft⟩, Or.inl ht⟩
          show s.world.breaker.failureCount + 1 = failuresSince s.marks + 1 ∧
            failuresSince s.marks + 1 < cfg.failureThreshold
          omega
  | HALF_OPEN =>
      have ht := h.timers_of_ne hs nofun
      simp only [Nested.onFailure, mark, hs]
      exact sound_transitionTo nofun hleft nofun ht
  | OPEN =>
      simp only [Nested.onFailure, mark, hs]
      refine Sound.finish ?_ true
      exact ⟨⟨nofun, hleft⟩, h.timer.imp_right fun htimed => htimed.congr hs.symm rfl rfl⟩

lemma Sound.settle (hf : 1 ≤ cfg.failureThreshold) (h : s.Sound cfg) {s' : Nested} {i : ℕ}
    {ok : Bool} {now : ℕ} (hsettle : s.settle cfg i ok now = some s') : s'.Sound cfg := by
  rw [Nested.settle] at hsettle
  split at hsettle
  next state hcall =>
      obtain rfl := Option.some.inj hsettle
      have hset : Sound cfg
          (s.setWorld { s.world with calls := s.world.calls.set i ⟨state, true⟩ }) :=
        h.congr rfl rfl rfl rfl rfl
      dsimp only
      split
      · exact hset.onSuccess hf now
      · exact hset.onFailure now
  next => cases hsettle

/-- `execute` sets the flag of a test, and nothing else of the breaker. -/
lemma Sound.execute (h : s.Sound cfg) : (s.setWorld (s.world.execute cfg)).Sound cfg := by
  rw [World.execute]
  split
  next b hb =>
      rw [CircuitBreaker.letThrough] at hb
      split at hb
      next => cases hb
      next =>
          split at hb
          next => cases hb
          next =>
              obtain rfl := Except.ok.inj hb
              exact h.congr rfl rfl rfl rfl rfl
      next =>
          obtain rfl := Except.ok.inj hb
          exact h.congr rfl rfl rfl rfl rfl
  next => exact h

/-- A timer is started for an open circuit, and without a timeout the circuit is half-open. -/
lemma Sound.startResetTimer (h : s.Sound cfg) (settling : Bool)
    (hs : s.world.breaker.currentState = .OPEN ∨
      s.world.breaker.currentState = .HALF_OPEN ∧ cfg.resetTimeout = 0) :
    (s.startResetTimer cfg settling).Sound cfg := by
  have hne : s.world.breaker.currentState ≠ .CLOSED := by
    rcases hs with hs | ⟨hs, -⟩ <;> simp [hs]
  rw [Nested.startResetTimer]
  split
  next =>
      refine sound_transitionTo nofun h.exact.2 (fun hc => absurd ?_ hne) h.timers_clear
      rw [← hc]
      exact (World.clearResetTimer_currentState s.world).symm
  next hpos =>
      have hopen : s.world.breaker.currentState = .OPEN := hs.resolve_right fun hs => hpos hs.2
      have htimed : (s.world.startResetTimer cfg).Timed := by
        refine World.OwnTimer.startResetTimer ?_ (Nat.pos_of_ne_zero hpos) hopen
        exact h.timer.elim Or.inl World.Timed.ownTimer
      refine Sound.finish ?_ settling
      refine ⟨⟨fun hc => absurd ?_ hne, h.exact.2⟩, Or.inr htimed⟩
      have hstate := World.startResetTimer_currentState cfg s.world
      rw [if_neg hpos] at hstate
      exact hstate.symm.trans hc

lemma Sound.return (h : s.Sound cfg) {s' : Nested} (hP : s.StaysOpen cfg .return)
    (hstep : s.return cfg = some s') : s'.Sound cfg := by
  rw [Nested.return] at hstep
  split at hstep
  next => cases hstep
  next settling stack hstack =>
      obtain rfl := Option.some.inj hstep
      have hpop : Sound cfg { s with stack := stack } := h.congr rfl rfl rfl rfl rfl
      exact hpop.startResetTimer settling (hP settling (by rw [hstack]; rfl))
  next settling stack hstack =>
      obtain rfl := Option.some.inj hstep
      have hpop : Sound cfg { s with stack := stack } := h.congr rfl rfl rfl rfl rfl
      exact hpop.finish settling

/-- **One step keeps the count exact**, if no `onOpen` returns in a closed circuit. -/
lemma step_sound (hf : 1 ≤ cfg.failureThreshold) {s' : Nested} {a : NestedAction}
    (h : s.Sound cfg) (hP : s.StaysOpen cfg a) (hstep : s.step cfg a = some s') :
    s'.Sound cfg := by
  cases a with
  | execute =>
      obtain rfl := Option.some.inj hstep
      exact h.execute
  | executeThrows now =>
      rw [step, executeThrows] at hstep
      split at hstep
      next => exact h.execute.settle hf hstep
      next =>
          obtain rfl := Option.some.inj hstep
          exact h
  | settle i ok now =>
      rw [step] at hstep
      split at hstep
      next => exact h.settle hf hstep
      next => cases hstep
  | fire t =>
      rw [step] at hstep
      split at hstep
      next hfire =>
          obtain rfl := Option.some.inj hstep
          -- the only live timer is the one of an open circuit
          rcases h.timer with ht | ⟨hs, t', ht, -⟩ | ⟨-, ht⟩
          · exact absurd hfire.2 (by simp [ht])
          · have hmem := hfire.2
            rw [ht, List.mem_singleton] at hmem
            subst hmem
            refine sound_transitionTo nofun h.exact.2 (fun hc => ?_) ?_
            · exact absurd (hs.symm.trans hc) nofun
            · show s.world.timers.erase t = []
              rw [ht, List.erase_cons_head]
          · exact absurd hfire.2 (by simp [ht])
      next => cases hstep
  | «open» =>
      obtain rfl := Option.some.inj hstep
      rw [Nested.open]
      split
      next => exact h
      next hne =>
          exact sound_transitionTo nofun h.exact.2 (fun _ => Or.inl rfl) (h.timers_of_ne rfl hne)
  | close =>
      obtain rfl := Option.some.inj hstep
      rw [Nested.close]
      split
      next => exact h
      next => exact sound_transitionTo_closed hf h.exact.2 rfl h.timers_clear
  | «return» => exact h.return hP hstep

/-- **The breaker opens exactly at the threshold as long as no `onOpen` closes it**: in every run
in which the circuit is still open whenever `onOpen` returns, a closed circuit has counted the
failures since the last success or entry, and is left by `open()` or at the threshold only. -/
theorem exact_of_staysOpen (cfg : CircuitBreakerConfig) (hf : 1 ≤ cfg.failureThreshold)
    (as bs : List NestedAction) (s : Nested)
    (h : Meets (step cfg) (fun s a => s.StaysOpen cfg a) {} as) (hpre : bs <+: as)
    (hrun : exec (step cfg) {} bs = some s) : s.Exact cfg := by
  obtain ⟨rest, rfl⟩ := hpre
  have hinit : Sound cfg {} :=
    ⟨⟨fun _ => ⟨rfl, hf⟩, fun _ _ _ hmarks => by simp at hmarks⟩, Or.inl rfl⟩
  exact (meets_invariant (fun _ _ _ hI hP => step_sound hf hI hP) hinit
    ((meets_append hrun).mp h).1 hrun).exact

/-- Two failures open a breaker, its `onOpen` and `onHalfOpen` call it, and a probe closes it. -/
theorem exact_of_staysOpen_recovered :
    ∃ s, exec (step { failureThreshold := 2 }) {}
        [.execute, .execute, .settle 0 false 1, .settle 1 false 2, .open, .executeThrows 3, .return,
          .fire 0, .execute, .return, .settle 2 true 4, .return] = some s ∧
      s.world.breaker.currentState = .CLOSED ∧ s.Exact { failureThreshold := 2 } := by
  have hmeets : Meets (step { failureThreshold := 2 })
      (fun s a => s.StaysOpen { failureThreshold := 2 } a) {}
      [.execute, .execute, .settle 0 false 1, .settle 1 false 2, .open, .executeThrows 3, .return,
        .fire 0, .execute, .return, .settle 2 true 4, .return] := by
    decide
  obtain ⟨s, hrun, hs⟩ : ∃ s, exec (step { failureThreshold := 2 }) {}
      [.execute, .execute, .settle 0 false 1, .settle 1 false 2, .open, .executeThrows 3, .return,
        .fire 0, .execute, .return, .settle 2 true 4, .return] = some s ∧
      s.world.breaker.currentState = .CLOSED := ⟨_, rfl, by decide⟩
  exact ⟨s, hrun, hs, exact_of_staysOpen _ (by decide) _ _ s hmeets (List.prefix_refl _) hrun⟩

/-- An `onOpen` that closes the circuit has its timer started for a closed circuit, which is
half-open when the timer fires. -/
theorem not_exact_onOpen :
    ¬ ∀ cfg : CircuitBreakerConfig, 1 ≤ cfg.failureThreshold → ∀ as s,
      exec (step cfg) {} as = some s → s.Exact cfg := by
  intro h
  have hexact := h { failureThreshold := 1 } (by decide)
    [.execute, .settle 0 false 1, .close, .return, .return, .fire 0] _ rfl
  rcases hexact.2 [] .reset [.closed, .left .failed, .failed] (by decide) with heq | ⟨heq, -⟩
  · cases heq
  · cases heq

end Nested

end Blaize.Redis
