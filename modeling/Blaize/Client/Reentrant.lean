import Blaize.Client.Handled

/-!
The server-sent-events client with handlers that call `close()`
(`packages/blaize-client/src/sse-client.ts`).

The methods are those of `SSEClient` with another `emit`: a handler runs inside of it, and may close
the client, after which the rest of the handlers and of the method still run.  The calls of handlers
are numbered as they are logged, and `closing` says which of them close the client.

* `emit`, `step`: the emitter, and the steps with it;
* `step_never`: **without such handlers a step is one of `SSEClient`**;
* `emit_induction`: what an emit keeps: it logs calls, and may close the client.
-/

namespace Blaize.Client.Reentrant

open Machine SSEClient

variable (closing : ℕ → Bool) (o : Options)

/-! ### The emitter -/

/-- The call of a handler, which may close the client. -/
def call (c : SSEClient) (entry : Call) : SSEClient :=
  if closing c.calls.length then { c with calls := c.calls ++ [entry] }.close
  else { c with calls := c.calls ++ [entry] }

/-- `emit`; the set of the handlers stays the one it was when it began. -/
def emit (c : SSEClient) (event : String) (data : Payload) : SSEClient :=
  match c.handlers.get event with
  | some handlers => handlers.keys.foldl (fun c handler => call closing c ⟨handler, event, data⟩) c
  | none => c

/-- What an action does to such a client. -/
def step : SSEClient → Action → Option SSEClient := stepWith o (emit closing)

/-- The client that has just been made. -/
def create (thrown : Option String) : SSEClient := SSEClient.create o thrown (emit closing)

/-! ### Handlers that do not close the client -/

/-- The handlers that close nothing. -/
def never : ℕ → Bool := fun _ => false

lemma foldl_call_never (event : String) (data : Payload) (handlers : List ℕ) (c : SSEClient) :
    handlers.foldl (fun c handler => call never c ⟨handler, event, data⟩) c =
      { c with calls := c.calls ++ handlers.map (⟨·, event, data⟩) } := by
  induction handlers generalizing c with
  | nil => simp
  | cons handler handlers ih =>
      rw [List.foldl_cons, ih, call, if_neg (by exact Bool.false_ne_true)]
      simp

lemma emit_never (c : SSEClient) (event : String) (data : Payload) :
    emit never c event data = c.emit event data := by
  rw [emit, SSEClient.emit]
  cases c.handlers.get event with
  | none => rfl
  | some handlers => exact foldl_call_never event data handlers.keys c

lemma emit_never_eq : emit never = SSEClient.emit :=
  funext₃ fun c event data => emit_never c event data

/-- **Without handlers that close the client a step is one of `SSEClient`.** -/
theorem step_never : step never o = SSEClient.step o := by
  rw [step, SSEClient.step, emit_never_eq]

lemma create_never (thrown : Option String) :
    create never o thrown = SSEClient.create o thrown := by
  rw [create, emit_never_eq]

variable {closing o} {c c' c'' : SSEClient}

/-! ### What an emit leaves alone -/

/-- Handlers run, and the client may be closed. -/
structure Emitted (c c' : SSEClient) : Prop where
  reconnectTimers : c'.reconnectTimers = c.reconnectTimers
  rejections : c'.rejections = c.rejections
  reconnectAttempts : c'.reconnectAttempts = c.reconnectAttempts
  connectionHandled : c'.connectionHandled = c.connectionHandled
  length : c'.sources.length = c.sources.length
  state : c'.state = c.state ∨ c'.state = .closed
  closeCalled : c.closeCalled = true → c'.closeCalled = true

lemma Emitted.refl (c : SSEClient) : Emitted c c := ⟨rfl, rfl, rfl, rfl, rfl, .inl rfl, id⟩

lemma Emitted.trans (h : Emitted c c') (h' : Emitted c' c'') : Emitted c c'' where
  reconnectTimers := h'.reconnectTimers.trans h.reconnectTimers
  rejections := h'.rejections.trans h.rejections
  reconnectAttempts := h'.reconnectAttempts.trans h.reconnectAttempts
  connectionHandled := h'.connectionHandled.trans h.connectionHandled
  length := h'.length.trans h.length
  state := by
    rcases h'.state with hs | hs
    · rcases h.state with ht | ht
      · exact .inl (hs.trans ht)
      · exact .inr (hs.trans ht)
    · exact .inr hs
  closeCalled hc := h'.closeCalled (h.closeCalled hc)

lemma Emitted.not_connected (h : Emitted c c') (hc : c.state ≠ .connected) :
    c'.state ≠ .connected := by
  rcases h.state with hs | hs
  · rwa [hs]
  · rw [hs]
    nofun

lemma close_emitted (c : SSEClient) : Emitted c c.close := by
  cases hi : c.eventSource with
  | none =>
      rw [close_eq_of_none hi]
      exact ⟨rfl, rfl, rfl, rfl, rfl, .inr rfl, fun _ => rfl⟩
  | some i =>
      rw [close_eq_of_some hi]
      exact ⟨rfl, rfl, rfl, rfl, List.length_modify _ _ _, .inr rfl, fun _ => rfl⟩

/-- **What handlers keep, an emit keeps**: it logs calls, and may close the client. -/
lemma emit_induction {P : SSEClient → Prop}
    (hlog : ∀ c entry, P c → P { c with calls := c.calls ++ [entry] })
    (hclose : ∀ c, P c → P c.close) (h : P c) (event : String) (data : Payload) :
    P (emit closing c event data) := by
  rw [emit]
  cases c.handlers.get event with
  | none => exact h
  | some handlers =>
      dsimp only
      generalize handlers.keys = hs
      induction hs generalizing c with
      | nil => exact h
      | cons handler hs ih =>
          refine ih ?_
          change P (call closing c ⟨handler, event, data⟩)
          rw [call]
          split
          · exact hclose _ (hlog _ _ h)
          · exact hlog _ _ h

variable (closing) in
lemma emit_emitted (c : SSEClient) (event : String) (data : Payload) :
    Emitted c (emit closing c event data) :=
  emit_induction (P := Emitted c)
    (fun _ _ h => ⟨h.1, h.2, h.3, h.4, h.5, h.6, h.7⟩)
    (fun d h => h.trans (close_emitted d)) (.refl c) event data

end Blaize.Client.Reentrant
