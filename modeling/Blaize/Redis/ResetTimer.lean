import Blaize.Redis.CircuitBreaker

/-!
Does an open circuit always have a way out?

`onFailure` and `open()` start a reset timer when the circuit opens, and clear the one before
it; `close()` clears it, and a timer that fires leads to the half-open state.  As in
`CircuitBreaker`, the callbacks only observe.

* `Timed`: open with one live timer, the one that the breaker remembers, or not open with none;
* `step_timed`: every step keeps this, when there is a reset timeout;
* `open_iff_oneTimer`: **the circuit is open exactly if one timer is live**, there is never a
  second one, and a timer that fires half-opens an open circuit.
-/

namespace Blaize.Redis

open Machine

namespace World

variable {cfg : CircuitBreakerConfig} {w w' : World}

/-- The live timers are at most the one that the breaker remembers. -/
def OwnTimer (w : World) : Prop :=
  w.timers = [] ∨ ∃ t, w.timers = [t] ∧ w.breaker.resetTimer = some t

/-- **Open with its timer, or not open and without one.** -/
def Timed (w : World) : Prop :=
  (w.breaker.currentState = .OPEN ∧ ∃ t, w.timers = [t] ∧ w.breaker.resetTimer = some t) ∨
    (w.breaker.currentState ≠ .OPEN ∧ w.timers = [])

lemma Timed.ownTimer (h : w.Timed) : w.OwnTimer := by
  rcases h with ⟨-, ht⟩ | ⟨-, ht⟩
  · exact Or.inr ht
  · exact Or.inl ht

lemma Timed.timers_of_ne (h : w.Timed) {state : CircuitState}
    (hs : w.breaker.currentState = state) (hne : state ≠ .OPEN) : w.timers = [] := by
  rcases h with ⟨hopen, -⟩ | ⟨-, ht⟩
  · exact absurd (hs.symm.trans hopen) hne
  · exact ht

/-- Only the state, the timers and the timer that is remembered matter. -/
lemma Timed.congr (h : w.Timed) (hs : w'.breaker.currentState = w.breaker.currentState)
    (ht : w'.timers = w.timers) (hr : w'.breaker.resetTimer = w.breaker.resetTimer) :
    w'.Timed := by
  rw [Timed, hs, ht, hr]
  exact h

/-! ### The timer functions -/

/-- Clearing the remembered timer leaves none. -/
lemma OwnTimer.timers_clear (h : w.OwnTimer) : w.clearResetTimer.timers = [] := by
  rw [clearResetTimer]
  rcases h with ht | ⟨t, ht, hr⟩
  · split <;> simp [ht]
  · rw [hr]
    simp [ht]

/-- A breaker that has just opened gets its timer. -/
lemma OwnTimer.startResetTimer (h : w.OwnTimer) (hpos : 0 < cfg.resetTimeout)
    (hs : w.breaker.currentState = .OPEN) : (w.startResetTimer cfg).Timed := by
  have hstate := startResetTimer_currentState cfg w
  rw [if_neg (Nat.ne_of_gt hpos), hs] at hstate
  refine Or.inl ⟨hstate, w.clearResetTimer.nextTimer, ?_⟩
  rw [World.startResetTimer, if_neg (Nat.ne_of_gt hpos), h.timers_clear]
  exact ⟨rfl, rfl⟩

/-! ### One step -/

lemma Timed.onSuccess (h : w.Timed) (now : ℕ) : (w.onSuccess cfg now).Timed := by
  rw [World.onSuccess]
  split
  next => exact h.congr (by split <;> rfl) rfl (by split <;> rfl)
  next hs =>
      have ht := h.timers_of_ne hs nofun
      dsimp only
      split
      · exact Or.inr ⟨nofun, ht⟩
      · exact h.congr rfl rfl rfl
  next => exact h.congr rfl rfl rfl

lemma Timed.onFailure (h : w.Timed) (hpos : 0 < cfg.resetTimeout) (now : ℕ) :
    (w.onFailure cfg now).Timed := by
  rw [World.onFailure]
  split
  next hs =>
      have ht := h.timers_of_ne hs nofun
      dsimp only
      split
      · exact OwnTimer.startResetTimer (Or.inl ht) hpos rfl
      · exact h.congr rfl rfl rfl
  next hs =>
      have ht := h.timers_of_ne hs nofun
      exact OwnTimer.startResetTimer (Or.inl ht) hpos rfl
  next => exact h.congr rfl rfl rfl

lemma Timed.endTest (h : w.Timed) : w.endTest.Timed := by
  rw [World.endTest]
  split
  · exact h.congr rfl rfl rfl
  · exact h

lemma Timed.settle (h : w.Timed) (hpos : 0 < cfg.resetTimeout) {i : ℕ} {ok : Bool} {now : ℕ}
    (hsettle : w.settle cfg i ok now = some w') : w'.Timed := by
  rw [World.settle] at hsettle
  split at hsettle
  next state hcall =>
      obtain rfl := Option.some.inj hsettle
      have hset : Timed { w with calls := w.calls.set i ⟨state, true⟩ } := h.congr rfl rfl rfl
      refine Timed.endTest ?_
      split
      · exact hset.onSuccess now
      · exact hset.onFailure hpos now
  next => cases hsettle

lemma Timed.execute (h : w.Timed) : (w.execute cfg).Timed := by
  rw [World.execute]
  split
  next b hb =>
      -- the flag of the test is all that a call sets
      rw [CircuitBreaker.letThrough] at hb
      split at hb
      next => cases hb
      next =>
          split at hb
          next => cases hb
          next =>
              obtain rfl := Except.ok.inj hb
              exact h.congr rfl rfl rfl
      next =>
          obtain rfl := Except.ok.inj hb
          exact h.congr rfl rfl rfl
  next => exact h

/-- A timer that fires half-opens an open circuit, and was the only one. -/
lemma Timed.fire (h : w.Timed) {t : ℕ} (hfire : w.step cfg (.fire t) = some w') :
    w.breaker.currentState = .OPEN ∧ w'.breaker.currentState = .HALF_OPEN ∧ w'.timers = [] := by
  rw [step] at hfire
  split at hfire
  next ht =>
      obtain rfl := Option.some.inj hfire
      rcases h with ⟨hs, t', htimers, -⟩ | ⟨-, htimers⟩
      · rw [htimers, List.mem_singleton] at ht
        subst ht
        exact ⟨hs, rfl, by simp [enterHalfOpen, transitionTo, htimers]⟩
      · rw [htimers] at ht
        cases ht
  next => cases hfire

/-- **Every step leaves an open circuit with its timer**, and any other without one. -/
lemma step_timed (hpos : 0 < cfg.resetTimeout) {a : Action} (h : w.Timed)
    (hstep : w.step cfg a = some w') : w'.Timed := by
  cases a with
  | execute =>
      obtain rfl := Option.some.inj hstep
      exact h.execute
  | settle i ok now => exact h.settle hpos hstep
  | fire t =>
      obtain ⟨-, hs, ht⟩ := h.fire hstep
      exact Or.inr ⟨by simp [hs], ht⟩
  | «open» =>
      obtain rfl := Option.some.inj hstep
      rw [«open»]
      split
      · exact h
      · exact OwnTimer.startResetTimer (w := w.transitionTo .OPEN) h.ownTimer hpos rfl
  | close =>
      obtain rfl := Option.some.inj hstep
      rw [close]
      split
      · exact h
      · exact Or.inr ⟨by rintro ⟨⟩, h.ownTimer.timers_clear⟩

/-- **An open circuit always has its way out, and no other one has a timer**: in every state of
every run the circuit is open exactly if one timer is live, no second one ever is, and a timer
that fires leads from open to half-open. -/
theorem open_iff_oneTimer (cfg : CircuitBreakerConfig) (hpos : 0 < cfg.resetTimeout)
    (as : List Action) (w : World) (hrun : exec (step cfg) {} as = some w) :
    (w.breaker.currentState = .OPEN ↔ w.timers.length = 1) ∧ w.timers.length ≤ 1 ∧
      ∀ t w', w.step cfg (.fire t) = some w' →
        w.breaker.currentState = .OPEN ∧ w'.breaker.currentState = .HALF_OPEN := by
  have hinit : Timed {} := Or.inr ⟨nofun, rfl⟩
  have htimed : w.Timed :=
    meets_invariant (P := fun _ _ => True) (fun _ _ _ h _ hstep => step_timed hpos h hstep) hinit
      (meets_true _ as) hrun
  refine ⟨?_, ?_, fun t w' hfire => ⟨(htimed.fire hfire).1, (htimed.fire hfire).2.1⟩⟩
  · rcases htimed with ⟨hs, t, ht, -⟩ | ⟨hs, ht⟩
    · exact iff_of_true hs (by rw [ht]; rfl)
    · exact iff_of_false hs (by simp [ht])
  · rcases htimed with ⟨-, t, ht, -⟩ | ⟨-, ht⟩ <;> simp [ht]

/-- A breaker that opens, recovers, is closed and opened by hand, and waits for its timer. -/
theorem open_iff_oneTimer_reopened :
    ∃ w, exec (step {}) {} [.open, .fire 0, .execute, .close, .settle 0 false 1, .open] = some w ∧
      w.breaker.currentState = .OPEN ∧ w.timers.length = 1 := by
  obtain ⟨w, hrun, hs⟩ : ∃ w, exec (step {}) {}
      [.open, .fire 0, .execute, .close, .settle 0 false 1, .open] = some w ∧
      w.breaker.currentState = .OPEN := ⟨_, rfl, by decide⟩
  exact ⟨w, hrun, hs, (open_iff_oneTimer {} (by decide) _ w hrun).1.mp hs⟩

end World

end Blaize.Redis
