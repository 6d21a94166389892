import Blaize.Client.SseClient

/-!
What the events change of a client.

The listeners of the client leave its `EventSource` objects, the listeners on them and the
registered handlers alone, unless they call `close`.  Only `connect`, the heartbeat, `on`
and `off` do more.

* `Keeps`: nothing of this changes, and a client that was shut down stays so;
* `Handled`: the client is kept, or is closed in between;
* `dispatch_handled`, `onerror_handled`: **the listeners keep or close the client**.
-/

namespace Blaize.Client

/-- The parts of an `EventSource` that concern connections and subscriptions. -/
def EventSource.core (s : EventSource) : ReadyState × List (String × ℕ) :=
  (s.readyState, s.custom)

/-- A change of one member that a function does not see. -/
lemma map_modify_eq {α β : Type*} {f : α → α} {g : α → β} (hf : ∀ a, g (f a) = g a) (i : ℕ)
    (l : List α) : (l.modify i f).map g = l.map g := by
  refine List.ext_getElem? fun j => ?_
  simp only [List.getElem?_map, List.getElem?_modify]
  cases l[j]? with
  | none => rfl
  | some s =>
      by_cases h : i = j
      · simp [h, hf]
      · simp [h]

namespace SSEClient

variable {o : Options} {c c' c'' : SSEClient}

/-- What `close` leaves behind. -/
structure Shut (c : SSEClient) : Prop where
  state : c.state = .closed
  eventSource : c.eventSource = none
  heartbeatTimer : c.heartbeatTimer = false

/-- A client on which `close` was called is shut. -/
def Sealed (c : SSEClient) : Prop := c.closeCalled → c.Shut

/-- Nothing changes but the log, the ids, the timers and the state. -/
structure Keeps (c c' : SSEClient) : Prop where
  eventSource : c'.eventSource = c.eventSource
  sources : c'.sources.map EventSource.core = c.sources.map EventSource.core
  handlers : c'.handlers = c.handlers
  customEventHandlers : c'.customEventHandlers = c.customEventHandlers
  closeCalled : c'.closeCalled = c.closeCalled

lemma Keeps.refl (c : SSEClient) : c.Keeps c := ⟨rfl, rfl, rfl, rfl, rfl⟩

lemma Keeps.trans (h : c.Keeps c') (h' : c'.Keeps c'') : c.Keeps c'' where
  eventSource := h'.eventSource.trans h.eventSource
  sources := h'.sources.trans h.sources
  handlers := h'.handlers.trans h.handlers
  customEventHandlers := h'.customEventHandlers.trans h.customEventHandlers
  closeCalled := h'.closeCalled.trans h.closeCalled

/-- The client is kept, or is closed in between. -/
def Handled (c c' : SSEClient) : Prop := c.Keeps c' ∨ ∃ d, c.Keeps d ∧ d.close.Keeps c'

/-! ### `close` -/

lemma close_eq_of_none (h : c.eventSource = none) :
    c.close =
      { c with state := .closed, heartbeatTimer := false, closeCalled := true, handlers := ∅ } := by
  rw [close.eq_def]
  simp only [clearHeartbeatTimer, h]

lemma close_eq_of_some {i : ℕ} (h : c.eventSource = some i) :
    c.close =
      { c with
        state := .closed
        heartbeatTimer := false
        closeCalled := true
        handlers := ∅
        sources := c.sources.modify i fun s =>
          { s with
            readyState := .closed
            custom := s.custom.filter fun p => c.customEventHandlers.get p.1 ≠ some p.2 }
        customEventHandlers := ∅
        eventSource := none } := by
  rw [close.eq_def]
  simp only [clearHeartbeatTimer, modifySource, h]

lemma close_shut (c : SSEClient) : c.close.Shut := by
  cases h : c.eventSource with
  | none => rw [close_eq_of_none h]; exact ⟨rfl, h, rfl⟩
  | some i => rw [close_eq_of_some h]; exact ⟨rfl, rfl, rfl⟩

lemma close_handlers (c : SSEClient) : c.close.handlers = ∅ := rfl

lemma close_closeCalled (c : SSEClient) : c.close.closeCalled = true := by
  cases h : c.eventSource with
  | none => rw [close_eq_of_none h]
  | some i => rw [close_eq_of_some h]

/-- Closing again what was closed changes nothing. -/
lemma keeps_close_of_closed (h : c.close.Keeps c') : c.close.Keeps c'.close := by
  have hs : c'.eventSource = none := h.eventSource.trans (close_shut c).eventSource
  refine h.trans ?_
  rw [close_eq_of_none hs]
  refine ⟨rfl, rfl, ?_, rfl, ?_⟩
  · rw [h.handlers, close_handlers]
  · rw [h.closeCalled, close_closeCalled]

lemma Keeps.handled (h : c.Keeps c') : c.Handled c' := Or.inl h

lemma handled_close (c : SSEClient) : c.Handled c.close := Or.inr ⟨c, .refl c, .refl _⟩

lemma Handled.trans (h : c.Handled c') (h' : c'.Handled c'') : c.Handled c'' := by
  rcases h with h | ⟨d, hd, h⟩
  · rcases h' with h' | ⟨d', hd', h'⟩
    · exact Or.inl (h.trans h')
    · exact Or.inr ⟨d', h.trans hd', h'⟩
  · rcases h' with h' | ⟨d', hd', h'⟩
    · exact Or.inr ⟨d, hd, h.trans h'⟩
    · exact Or.inr ⟨d, hd, (keeps_close_of_closed (h.trans hd')).trans h'⟩

lemma Handled.iterate {f : SSEClient → SSEClient} (hf : ∀ c, Handled c (f c)) (n : ℕ)
    (c : SSEClient) : c.Handled (f^[n] c) := by
  induction n generalizing c with
  | zero => exact (Keeps.refl c).handled
  | succ n ih => exact (hf c).trans (ih (f c))

/-! ### The parts of the listeners -/

lemma emit_keeps (c : SSEClient) (event : String) (data : Payload) :
    c.Keeps (c.emit event data) := by
  rw [emit]
  cases c.handlers.get event with
  | none => exact .refl c
  | some handlers => exact ⟨rfl, rfl, rfl, rfl, rfl⟩

lemma reject_keeps (c : SSEClient) (awaited : Bool) : c.Keeps (c.reject awaited) := by
  cases awaited with
  | false => exact .refl c
  | true => exact ⟨rfl, rfl, rfl, rfl, rfl⟩

lemma modifySource_keeps (c : SSEClient) (i : ℕ) {f : EventSource → EventSource}
    (hf : ∀ s, (f s).core = s.core) : c.Keeps (c.modifySource i f) := by
  exact ⟨rfl, map_modify_eq hf i c.sources, rfl, rfl, rfl⟩

lemma removeTemporary_keeps (c : SSEClient) (i j : ℕ) : c.Keeps (c.removeTemporary i j) := by
  rw [removeTemporary]
  split
  next => exact modifySource_keeps c j fun _ => rfl
  next => exact .refl c

lemma setupPermanentEventHandlers_keeps (c : SSEClient) :
    c.Keeps c.setupPermanentEventHandlers := by
  rw [setupPermanentEventHandlers.eq_def]
  cases c.eventSource with
  | none => exact .refl c
  | some i => exact modifySource_keeps c i fun _ => rfl

lemma resetHeartbeatTimer_keeps (c : SSEClient) : c.Keeps (c.resetHeartbeatTimer o) :=
  ⟨rfl, rfl, rfl, rfl, rfl⟩

lemma startHeartbeatTimer_keeps (c : SSEClient) : c.Keeps (c.startHeartbeatTimer o) := by
  rw [startHeartbeatTimer]
  split
  next => exact resetHeartbeatTimer_keeps c
  next => exact .refl c

/-! ### The listeners -/

lemma handleOpen_keeps (c : SSEClient) (i : ℕ) : c.Keeps (c.handleOpen o i) := by
  rw [handleOpen.eq_def]
  split
  next => exact .refl c
  next =>
    have h : c.Keeps
        { c with connectionHandled := true, state := .connected, reconnectAttempts := 0 } :=
      ⟨rfl, rfl, rfl, rfl, rfl⟩
    refine h.trans ?_
    dsimp only
    split
    next j _ =>
      refine (removeTemporary_keeps _ i j).trans ((setupPermanentEventHandlers_keeps _).trans ?_)
      exact (resetHeartbeatTimer_keeps _).trans (emit_keeps _ _ _)
    next => exact .refl _

lemma handleInitialError_keeps (c : SSEClient) (i : ℕ) (awaited : Bool) :
    c.Keeps (c.handleInitialError i awaited) := by
  rw [handleInitialError.eq_def]
  split
  next => exact .refl c
  next =>
    dsimp only
    split
    next j _ =>
      refine Keeps.trans ?_ ((emit_keeps _ _ _).trans (reject_keeps _ _))
      obtain ⟨h₁, h₂, h₃, h₄, h₅⟩ := removeTemporary_keeps { c with connectionHandled := true } i j
      exact ⟨h₁, h₂, h₃, h₄, h₅⟩
    next => exact ⟨rfl, rfl, rfl, rfl, rfl⟩

lemma attemptReconnect_handled (c : SSEClient) : c.Handled (c.attemptReconnect o) := by
  rw [attemptReconnect]
  split
  next => exact (Keeps.refl c).handled
  next =>
    split
    next => exact (handled_close c).trans (emit_keeps _ _ _).handled
    next => exact Keeps.handled ⟨rfl, rfl, rfl, rfl, rfl⟩

lemma onerror_handled (c : SSEClient) : c.Handled (c.onerror o) := by
  rw [onerror]
  split
  next =>
    split
    next =>
      refine Keeps.handled (Keeps.trans ?_ (emit_keeps _ _ _))
      exact ⟨rfl, rfl, rfl, rfl, rfl⟩
    next =>
      refine Handled.trans (Keeps.handled (Keeps.trans ?_ (emit_keeps _ _ _)))
        (attemptReconnect_handled _)
      exact ⟨rfl, rfl, rfl, rfl, rfl⟩
  next => exact (Keeps.refl c).handled

/-- The listeners of a failed connection. -/
lemma failed_handled (c : SSEClient) (i : ℕ) (s : EventSource) :
    c.Handled
      (if 0 < s.permanent then
        (if s.temporary then c.handleInitialError i s.awaited else c).onerror o
      else if s.temporary then c.handleInitialError i s.awaited else c) := by
  have h : c.Keeps (if s.temporary then c.handleInitialError i s.awaited else c) := by
    split
    next => exact handleInitialError_keeps c i s.awaited
    next => exact .refl c
  split
  next => exact h.handled.trans (onerror_handled _)
  next => exact h.handled

lemma receive_keeps (c : SSEClient) (event : MessageEvent) : c.Keeps (c.receive o event) := by
  refine Keeps.trans ?_ ((resetHeartbeatTimer_keeps _).trans (emit_keeps _ _ _))
  split
  next => exact ⟨rfl, rfl, rfl, rfl, rfl⟩
  next => exact .refl c

lemma handleServerError_keeps (c : SSEClient) (event : MessageEvent) :
    c.Keeps (c.handleServerError o event) := by
  rw [handleServerError]
  split
  next => exact .refl c
  next => exact emit_keeps _ _ _

lemma handleCloseEvent_handled (c : SSEClient) (event : MessageEvent) :
    c.Handled (c.handleCloseEvent o event) := by
  rw [handleCloseEvent]
  split
  next reconnect hr =>
    refine Handled.trans ?_ (emit_keeps _ _ _).handled
    split
    next => exact (Keeps.refl c).handled
    next => exact handled_close c
  next => exact (Keeps.refl c).handled

/-- **The listeners keep or close the client.** -/
lemma dispatch_handled (c : SSEClient) (i : ℕ) (s : EventSource) (event : MessageEvent) :
    c.Handled (c.dispatch o i s event) := by
  rw [dispatch]
  split
  next =>
    split
    next => exact (receive_keeps c event).handled
    next => exact (Keeps.refl c).handled
  split
  next =>
    split
    next => exact (handleOpen_keeps c i).handled
    next => exact (Keeps.refl c).handled
  split
  next =>
    refine Handled.trans ?_
      (Handled.iterate (fun c => (handleServerError_keeps c event).handled) _ _)
    exact failed_handled c i s
  split
  next => exact Handled.iterate (fun c => handleCloseEvent_handled c event) _ c
  next => exact Handled.iterate (fun c => (receive_keeps c event).handled) _ c

lemma connectFailed_keeps (c : SSEClient) (awaited : Bool) (message : String) :
    c.Keeps (c.connectFailed awaited message) := by
  refine Keeps.trans ?_ ((emit_keeps _ _ _).trans (reject_keeps _ _))
  exact ⟨rfl, rfl, rfl, rfl, rfl⟩

/-! ### Inversion of the steps -/

/-- What an event of the connection or of a timer does, and when it can come. -/
lemma stepWith_inv {emit : Emitter} {a : Action} (h : stepWith o emit c a = some c') :
    match a with
    | .open i =>
        ∃ s, c.sources[i]? = some s ∧ s.readyState = .connecting ∧ c.sourceOpen o i s emit = c'
    | .error i fatal =>
        ∃ s, c.sources[i]? = some s ∧ s.readyState ≠ .closed ∧ c.sourceError o i s fatal emit = c'
    | .message i type data id =>
        ∃ s, c.sources[i]? = some s ∧ s.readyState = .open ∧
          c.sourceMessage o i s type data id emit = c'
    | .reconnect thrown =>
        0 < c.reconnectTimers ∧
          reconnect o { c with reconnectTimers := c.reconnectTimers - 1 } thrown emit = c'
    | .retry =>
        0 < c.rejections ∧ attemptReconnect o { c with rejections := c.rejections - 1 } emit = c'
    | .heartbeat => c.heartbeatTimer = true ∧ c.handleHeartbeatTimeout emit = c'
    | .on event handler => c.on event handler = c'
    | .off event handler => c.off event handler = c'
    | .close => c.close = c' := by
  cases a with
  | «open» i | error i fatal | message i type data id =>
      rw [stepWith] at h
      split at h
      next s hs =>
        rw [Option.ite_none_right_eq_some] at h
        exact ⟨s, hs, h.1, Option.some.inj h.2⟩
      next => cases h
  | reconnect thrown | retry | heartbeat =>
      rw [stepWith, Option.ite_none_right_eq_some] at h
      exact ⟨h.1, Option.some.inj h.2⟩
  | on | off | close => exact Option.some.inj h

lemma step_open {i : ℕ} (h : c.step o (.open i) = some c') :
    ∃ s, c.sources[i]? = some s ∧ s.readyState = .connecting ∧ c.sourceOpen o i s = c' :=
  stepWith_inv h

lemma step_error {i : ℕ} {fatal : Bool} (h : c.step o (.error i fatal) = some c') :
    ∃ s, c.sources[i]? = some s ∧ s.readyState ≠ .closed ∧ c.sourceError o i s fatal = c' :=
  stepWith_inv h

lemma step_message {i : ℕ} {type data : String} {id : Option String}
    (h : c.step o (.message i type data id) = some c') :
    ∃ s, c.sources[i]? = some s ∧ s.readyState = .open ∧
      c.sourceMessage o i s type data id = c' :=
  stepWith_inv h

lemma step_reconnect {thrown : Option String} (h : c.step o (.reconnect thrown) = some c') :
    0 < c.reconnectTimers ∧
      reconnect o { c with reconnectTimers := c.reconnectTimers - 1 } thrown = c' :=
  stepWith_inv h

lemma step_retry (h : c.step o .retry = some c') :
    attemptReconnect o { c with rejections := c.rejections - 1 } = c' :=
  (stepWith_inv h).2

lemma step_heartbeat (h : c.step o .heartbeat = some c') :
    c.heartbeatTimer = true ∧ c.handleHeartbeatTimeout = c' :=
  stepWith_inv h

/-- The listeners of a connection that opens. -/
lemma sourceOpen_handled (c : SSEClient) (i : ℕ) (s : EventSource) :
    (c.modifySource i fun s => { s with readyState := .open }).Handled (c.sourceOpen o i s) := by
  rw [sourceOpen]
  split
  next => exact (handleOpen_keeps _ i).handled
  next => exact (Keeps.refl _).handled

/-- The listeners of a connection that fails. -/
lemma sourceError_handled (c : SSEClient) (i : ℕ) (s : EventSource) (fatal : Bool) :
    (c.modifySource i fun s =>
      { s with readyState := if fatal then .closed else .connecting }).Handled
        (c.sourceError o i s fatal) :=
  failed_handled _ i s

lemma sourceMessage_handled (c : SSEClient) (i : ℕ) (s : EventSource) (type data : String)
    (id : Option String) : c.Handled (c.sourceMessage o i s type data id) := by
  refine Handled.trans (Keeps.handled (modifySource_keeps c i ?_)) (dispatch_handled _ i s _)
  exact fun _ => rfl

end SSEClient

end Blaize.Client
