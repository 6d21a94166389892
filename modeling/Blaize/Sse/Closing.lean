import Blaize.Sse.Accounting
import Blaize.Sse.Registry

/-!
The end of a stream, with its callbacks, its timer and its entry in the registry
(`packages/blaize-core/src/sse/stream.ts`).

Here the callbacks of `onClose` call back into the stream.  A callback that has been called stands
on a stack until it returns, and what happens meanwhile is its doing: any method of the stream, and
any call of the registry.  So a callback needs no program; a run picks the moves one by one.

* `StreamImpl`: the stream, with the fields that `_executeCleanup` clears;
* `Move`, `step`: the moves of the event loop, of a running callback and of the registry;
* `Open`, `Finished`: what holds before and after the closing;
* `finished_step`: **no move touches what the closing has left**;
* `passed_run`: the callbacks of a run are those of its calls of `onClose`;
* `Final`, `final_run`: **closing is final and complete, in every run**.
-/

namespace Blaize.Sse

/-- A callback of `onClose`: the one that the registry has left, or the one of the `n`-th call. -/
inductive Callback where
  | registry
  | user (n : ℕ)
  deriving DecidableEq

/-- A callback that runs, and what its caller does afterwards: `_executeCleanup` goes on with its
copy of the callbacks, `onClose` returns. -/
inductive Frame where
  | cleanup (callbacks : List Callback)
  | onClose

/-- The callbacks that are still to run. -/
def Frame.callbacks : Frame → List Callback
  | .cleanup callbacks => callbacks
  | .onClose => []

/-- `SSEStreamImpl`, with the registry, the number of calls of `onClose`, and the callbacks that
have been called. -/
structure StreamImpl where
  id : String
  stream : Stream
  closeCallbacks : List Callback
  heartbeatTimer : Bool
  disconnectHandlers : Bool := true
  cleanupExecuted : Bool := false
  registry : ConnectionRegistry
  passed : ℕ := 0
  ran : List Callback := []
  stack : List Frame := []

/-- What can happen next. -/
inductive Move where
  | stream (action : Action)
  | onClose
  | callbackReturns
  | heartbeat (comment : String)
  /-- Another stream is registered. -/
  | add (id : String) (metadata : Metadata) (now : ℕ) (closed : Bool)
  | remove (id : String)
  /-- `cleanup` comes to this stream. -/
  | cleanup (now : ℕ)
  /-- `shutdown` starts, and comes to this stream. -/
  | shutdown
  /-- `shutdown` comes to its end. -/
  | clear

/-- A call of `onClose`, which passes a callback. -/
def Move.isOnClose : Move → Bool
  | .onClose => true
  | _ => false

variable (cfg : Config) (settings : RegistryConfig)

namespace StreamImpl

/-- The loop over the callbacks in `_executeCleanup`, up to the next one that is not the registry's;
that one is known, and returns at once. -/
def callCallbacks : List Callback → StreamImpl → StreamImpl
  | [], c => { c with closeCallbacks := [] }
  | .registry :: callbacks, c =>
      callCallbacks callbacks
        { c with ran := c.ran ++ [.registry], registry := c.registry.remove c.id }
  | .user n :: callbacks, c =>
      { c with ran := c.ran ++ [.user n], stack := .cleanup callbacks :: c.stack }

variable (c : StreamImpl)

/-- Calls all callbacks, once. -/
def executeCleanup : StreamImpl :=
  if c.cleanupExecuted then c
  else
    callCallbacks c.closeCallbacks
      { c with
        cleanupExecuted := true
        heartbeatTimer := false
        disconnectHandlers := false
        registry := c.registry.remove c.id }

/-- After a method of the stream; if it has closed the stream, the cleanup follows. -/
def update (s : Stream) : StreamImpl :=
  if c.stream.state ≠ .closed ∧ s.state = .closed then { c with stream := s }.executeCleanup
  else { c with stream := s }

/-- A method of the stream, an event or a flush.  The listeners are gone after the cleanup, and a
flush does not run on while a callback runs. -/
def perform (action : Action) : StreamImpl :=
  if action = .disconnect ∧ c.disconnectHandlers = false then c
  else if action = .resume ∧ c.stack.length ≠ 0 then c
  else
    match c.stream.step cfg action with
    | some s => c.update s
    | none => c

/-- `stream.onClose(callback)` -/
def onClose : StreamImpl :=
  let c' := { c with passed := c.passed + 1 }
  if c.stream.state = .closed then
    { c' with ran := c.ran ++ [.user c.passed], stack := .onClose :: c.stack }
  else { c' with closeCallbacks := c.closeCallbacks ++ [.user c.passed] }

/-- A callback returns, or throws. -/
def callbackReturns : StreamImpl :=
  match c.stack with
  | [] => c
  | .cleanup callbacks :: stack => callCallbacks callbacks { c with stack := stack }
  | .onClose :: stack => { c with stack := stack }

/-- What a move does. -/
def step : Move → StreamImpl
  | .stream action => c.perform cfg action
  | .onClose => c.onClose
  | .callbackReturns => c.callbackReturns
  | .heartbeat comment =>
      if c.heartbeatTimer then c.perform cfg (.ping (some comment)) else c
  | .add id metadata now closed =>
      -- the ids are fresh
      if id = c.id then c
      else { c with registry := (c.registry.add settings id metadata now closed).2 }
  | .remove id => { c with registry := c.registry.remove id }
  | .cleanup now =>
      match c.registry.connections.get c.id with
      | none => c
      | some entry =>
          if settings.inactiveTimeout < now - entry.lastActivity ∨ c.stream.isWritable = false then
            c.perform cfg .close
          else c
  | .shutdown =>
      let c := { c with registry := c.registry.stopCleanupTimer }
      if c.registry.connections.has c.id then c.perform cfg .close else c
  | .clear =>
      { c with registry := { c.registry with connections := ∅, clientConnectionCounts := ∅ } }

/-- The stream after some moves. -/
def run (moves : List Move) : StreamImpl := moves.foldl (step cfg settings) c

end StreamImpl

/-- The constructor: the stream is registered, before anything is written. -/
def StreamImpl.create (registry : ConnectionRegistry) (id : String) (metadata : Metadata) (now : ℕ)
    (lastEventId : Option String) (heartbeatInterval : ℕ) : Except String StreamImpl :=
  match registry.add settings id metadata now false with
  | (.error error, _) => .error error
  | (.ok (), registry) =>
      .ok
        { id := id
          stream := createSSEStream cfg lastEventId
          closeCallbacks := [.registry]
          heartbeatTimer := 0 < heartbeatInterval
          registry := registry }

/-! ### The stream -/

/-- What `close` writes. -/
def closeEvent : String :=
  formatSSEEvent "close" "\x7b\"reason\":\"stream-closed\",\"reconnect\":false\x7d" none none

namespace Stream

/-- A closed stream, with the close event at the end of its log. -/
structure Shut (s : Stream) : Prop where
  state : s.state = .closed
  writable : s.writable = false
  last : ∃ answer, s.writes.getLast? = some ⟨none, closeEvent, answer⟩

variable {cfg} {s s' : Stream}

lemma Shut.of_eq (h : s.Shut) (hstate : s'.state = s.state) (hwritable : s'.writable = s.writable)
    (hwrites : s'.writes = s.writes) : s'.Shut :=
  ⟨hstate.trans h.state, hwritable.trans h.writable, by rw [hwrites]; exact h.last⟩

lemma close_shut (h : s.state ≠ .closed) : (s.close cfg).Shut := by
  rw [close, if_neg h]
  refine ⟨rfl, rfl, cfg.answer s.writes.length, ?_⟩
  dsimp only
  rw [List.getLast?_append]
  rfl

/-- A stream that is not closed is left open, or shut. -/
lemma enqueue_shut (cfg : Config) (h : s.state ≠ .closed) (e : BufferedEvent) :
    (s.enqueue cfg e).1.state ≠ .closed ∨ (s.enqueue cfg e).1.Shut := by
  unfold enqueue
  dsimp only
  split
  · split
    · exact .inr (close_shut h)
    · exact .inl h
  · exact .inl h

/-- Nothing is flushed from a stream that is not writable. -/
lemma flushBuffer_of_not_writable (cfg : Config) (h : s.writable = false) :
    (s.flushBuffer cfg).state = s.state ∧ (s.flushBuffer cfg).writable = s.writable ∧
      (s.flushBuffer cfg).writes = s.writes := by
  rw [flushBuffer]
  cases s.buffer with
  | nil => exact ⟨rfl, rfl, rfl⟩
  | cons event rest =>
      rw [flushLoop, if_neg (by rw [h]; exact Bool.false_ne_true)]
      exact ⟨rfl, rfl, rfl⟩

lemma send_shut (h : s.state ≠ .closed) (event : String) (data : Value) :
    (s.send cfg event data).1.state ≠ .closed ∨ (s.send cfg event data).1.Shut := by
  rcases send_cases cfg s event data with he | he | ⟨e, -, he | he⟩ <;> rw [he]
  · exact .inl h
  · exact .inl h
  · exact enqueue_shut (s := s.nextEventId) cfg h e
  · rcases enqueue_shut (s := s.nextEventId) cfg h e with hopen | hshut
    · refine .inl ?_
      rw [(flushBuffer_keeps _).state]
      exact hopen
    · obtain ⟨hstate, hwritable, hwrites⟩ := flushBuffer_of_not_writable
        (s := (s.nextEventId.enqueue cfg e).1.updateHighWatermark) cfg hshut.writable
      exact .inr (hshut.of_eq hstate hwritable hwrites)

/-- **Only `close` closes a stream**, and it writes the close event. -/
lemma step_shut {a : Action} (hstep : s.step cfg a = some s') (h : s.state ≠ .closed) :
    s'.state ≠ .closed ∨ s'.Shut := by
  rcases step_cases hstep with ⟨e, -, rfl⟩ | ⟨-, heffect⟩
  · exact send_shut h e.1 e.2
  cases heffect with
  | same => exact .inl h
  | comment data => exact .inl (by rw [(writeRaw_keeps s none data).state]; exact h)
  | close => exact .inr (close_shut h)
  | wait => exact .inl h
  | flush resumed => exact .inl (by rw [(flushBuffer_keeps _).state]; exact h)
  | pull => exact .inl h

/-- **No step writes to a stream that is shut.** -/
lemma step_of_shut {a : Action} (hstep : s.step cfg a = some s') (h : s.Shut) :
    s'.Shut ∧ s'.writes = s.writes := by
  have hwritable : s.isWritable = false := by
    rw [isWritable, h.writable]
    rfl
  rcases step_cases hstep with ⟨e, -, rfl⟩ | ⟨-, heffect⟩
  · rw [send, sendWith, if_pos (by rw [hwritable]; rfl)]
    exact ⟨h, rfl⟩
  cases heffect with
  | same => exact ⟨h, rfl⟩
  | comment data =>
      rw [writeRaw, if_pos (by rw [h.writable]; rfl)]
      exact ⟨h, rfl⟩
  | close =>
      rw [close, if_pos h.state]
      exact ⟨h, rfl⟩
  | wait => exact ⟨h.of_eq rfl rfl rfl, rfl⟩
  | flush resumed =>
      obtain ⟨hstate, hwritable, hwrites⟩ :=
        flushBuffer_of_not_writable (s := { s with resumed }) cfg h.writable
      exact ⟨h.of_eq hstate hwritable hwrites, hwrites⟩
  | pull => exact ⟨h.of_eq rfl rfl rfl, rfl⟩

end Stream

/-! ### The entry in the registry -/

namespace ConnectionRegistry

variable {r : ConnectionRegistry} {settings}

lemma connections_remove (id : String) : (r.remove id).connections = r.connections.delete id := by
  unfold remove
  split
  next hnone => rw [r.connections.delete_of_get_none hnone]
  next entry hentry =>
    dsimp only
    split
    · exact connections_updateClientCount _ _
    · exact connections_updateClientCount _ _

lemma get_remove_self (id : String) : (r.remove id).connections.get id = none := by
  rw [connections_remove, OrdMap.get_delete, if_pos rfl]

lemma get_remove_of_none {id : String} (h : r.connections.get id = none) (id' : String) :
    (r.remove id').connections.get id = none := by
  rw [connections_remove, OrdMap.get_delete, h, ite_self]

/-- The entry of another connection. -/
lemma get_add_ne {id id' : String} (h : id' ≠ id) (metadata : Metadata) (now : ℕ) (closed : Bool)
    (hnone : r.connections.get id = none) :
    (r.add settings id' metadata now closed).2.connections.get id = none := by
  unfold add
  split
  · exact hnone
  split
  · exact hnone
  split
  · exact hnone
  have hget (entry : ConnectionEntry) (r' : ConnectionRegistry)
      (hr' : r'.connections = r.connections.set id' entry) :
      (if r'.connections.size = 1 then r'.startCleanupTimer settings else r').connections.get id =
        none := by
    have hr' : r'.connections.get id = none := by rw [hr', OrdMap.get_set_ne _ _ h, hnone]
    unfold startCleanupTimer
    split
    · split
      · exact hr'
      · exact hr'
    · exact hr'
  dsimp only
  split
  · exact get_remove_of_none (hget _ _ (connections_updateClientCount _ _)) id'
  · exact hget _ _ (connections_updateClientCount _ _)

end ConnectionRegistry

/-! ### Before and after the closing -/

namespace StreamImpl

/-- The callbacks that `onClose` has got. -/
def callbacks (c : StreamImpl) : List Callback := .registry :: (List.range c.passed).map .user

/-- Nothing has been cleared. -/
structure Open (c : StreamImpl) : Prop where
  state : c.stream.state ≠ .closed
  cleanupExecuted : c.cleanupExecuted = false
  closeCallbacks : c.closeCallbacks = c.callbacks
  ran : c.ran = []
  stack : c.stack = []

/-- What the closing has left: every callback has run, or is still to run. -/
structure Finished (c : StreamImpl) : Prop where
  shut : c.stream.Shut
  heartbeatTimer : c.heartbeatTimer = false
  deregistered : c.registry.connections.get c.id = none
  callbacks : (c.ran ++ c.stack.flatMap Frame.callbacks).Perm c.callbacks

variable {cfg settings} {c : StreamImpl}

/-- The loop leaves all but the lists of callbacks. -/
lemma callCallbacks_fields (callbacks : List Callback) (c : StreamImpl) :
    (callCallbacks callbacks c).stream = c.stream ∧ (callCallbacks callbacks c).id = c.id ∧
      (callCallbacks callbacks c).passed = c.passed ∧
      (callCallbacks callbacks c).heartbeatTimer = c.heartbeatTimer := by
  induction callbacks generalizing c with
  | nil => exact ⟨rfl, rfl, rfl, rfl⟩
  | cons callback callbacks ih =>
      cases callback with
      | registry => exact ih _
      | user n => exact ⟨rfl, rfl, rfl, rfl⟩

lemma callCallbacks_deregistered (callbacks : List Callback) {c : StreamImpl}
    (h : c.registry.connections.get c.id = none) :
    (callCallbacks callbacks c).registry.connections.get c.id = none := by
  induction callbacks generalizing c with
  | nil => exact h
  | cons callback callbacks ih =>
      cases callback with
      | registry => exact ih (ConnectionRegistry.get_remove_self c.id)
      | user n => exact h

/-- The loop runs each callback, or leaves it for later. -/
lemma callCallbacks_perm (callbacks : List Callback) (c : StreamImpl) :
    ((callCallbacks callbacks c).ran ++
      (callCallbacks callbacks c).stack.flatMap Frame.callbacks).Perm
        (c.ran ++ (callbacks ++ c.stack.flatMap Frame.callbacks)) := by
  induction callbacks generalizing c with
  | nil => exact .refl _
  | cons callback callbacks ih =>
      cases callback with
      | registry =>
          refine (ih _).trans ?_
          rw [List.append_assoc]
          exact .refl _
      | user n =>
          rw [callCallbacks, List.append_assoc]
          exact .refl _

/-- What the loop makes of a closed stream. -/
lemma finished_callCallbacks {callbacks : List Callback} (hshut : c.stream.Shut)
    (hheartbeat : c.heartbeatTimer = false) (hnone : c.registry.connections.get c.id = none)
    (hperm : (c.ran ++ (callbacks ++ c.stack.flatMap Frame.callbacks)).Perm c.callbacks) :
    (callCallbacks callbacks c).Finished := by
  obtain ⟨hstream, hid, hpassed, htimer⟩ := callCallbacks_fields callbacks c
  refine ⟨by rwa [hstream], htimer.trans hheartbeat, ?_, ?_⟩
  · rw [hid]
    exact callCallbacks_deregistered callbacks hnone
  · rw [StreamImpl.callbacks, hpassed]
    exact (callCallbacks_perm callbacks c).trans hperm

/-! ### The moves -/

lemma Open.of_stream (h : c.Open) {s : Stream} (hs : s.state ≠ .closed) :
    { c with stream := s }.Open :=
  ⟨hs, h.cleanupExecuted, h.closeCallbacks, h.ran, h.stack⟩

lemma Finished.of_stream (h : c.Finished) {s : Stream} (hs : s.Shut) :
    { c with stream := s }.Finished :=
  ⟨hs, h.heartbeatTimer, h.deregistered, h.callbacks⟩

lemma Open.of_registry (h : c.Open) (r : ConnectionRegistry) : { c with registry := r }.Open :=
  ⟨h.state, h.cleanupExecuted, h.closeCallbacks, h.ran, h.stack⟩

lemma Finished.of_registry (h : c.Finished) {r : ConnectionRegistry}
    (hr : r.connections.get c.id = none) : { c with registry := r }.Finished :=
  ⟨h.shut, h.heartbeatTimer, hr, h.callbacks⟩

/-- **The cleanup clears everything**: the entry, the timer and the callbacks. -/
lemma Open.executeCleanup (h : c.Open) {s : Stream} (hs : s.Shut) :
    ({ c with stream := s }.executeCleanup).Finished := by
  rw [StreamImpl.executeCleanup, if_neg (by rw [h.cleanupExecuted]; exact Bool.false_ne_true)]
  refine finished_callCallbacks hs rfl (ConnectionRegistry.get_remove_self _) ?_
  dsimp only
  rw [h.ran, h.stack, h.closeCallbacks, List.flatMap_nil, List.append_nil, List.nil_append]
  exact .refl _

/-- The stream after a method. -/
lemma perform_cases (cfg : Config) (c : StreamImpl) (a : Action) :
    c.perform cfg a = c ∨ ∃ s, c.stream.step cfg a = some s ∧ c.perform cfg a = c.update s := by
  rw [perform]
  split
  · exact .inl rfl
  split
  · exact .inl rfl
  split
  next s hs => exact .inr ⟨s, hs, rfl⟩
  next => exact .inl rfl

lemma Open.perform (h : c.Open) (a : Action) :
    (c.perform cfg a).Open ∨ (c.perform cfg a).Finished := by
  rcases perform_cases cfg c a with hsame | ⟨s, hs, hupdate⟩
  · rw [hsame]
    exact .inl h
  · rw [hupdate, update]
    rcases Stream.step_shut hs h.state with hopen | hshut
    · rw [if_neg fun hclosed => hopen hclosed.2]
      exact .inl (h.of_stream hopen)
    · rw [if_pos ⟨h.state, hshut.state⟩]
      exact .inr (h.executeCleanup hshut)

lemma Finished.perform (h : c.Finished) (a : Action) :
    (c.perform cfg a).Finished ∧ (c.perform cfg a).stream.writes = c.stream.writes := by
  rcases perform_cases cfg c a with hsame | ⟨s, hs, hupdate⟩
  · rw [hsame]
    exact ⟨h, rfl⟩
  · obtain ⟨hshut, hwrites⟩ := Stream.step_of_shut hs h.shut
    rw [hupdate, update, if_neg fun hclosed => hclosed.1 h.shut.state]
    exact ⟨h.of_stream hshut, hwrites⟩

lemma callbacks_succ {c c' : StreamImpl} (h : c'.passed = c.passed + 1) :
    c'.callbacks = c.callbacks ++ [.user c.passed] := by
  simp only [callbacks, h, List.range_succ, List.map_append, List.map_singleton, List.cons_append]

/-- A callback that comes before the closing waits for it. -/
lemma Open.onClose (h : c.Open) : c.onClose.Open := by
  rw [StreamImpl.onClose, if_neg h.state]
  refine ⟨h.state, h.cleanupExecuted, ?_, h.ran, h.stack⟩
  dsimp only
  rw [h.closeCallbacks]
  exact (callbacks_succ (c := c) rfl).symm

/-- A callback that comes after the closing runs at once. -/
lemma Finished.onClose (h : c.Finished) :
    c.onClose.Finished ∧ c.onClose.stream.writes = c.stream.writes := by
  rw [StreamImpl.onClose, if_pos h.shut.state]
  refine ⟨⟨h.shut, h.heartbeatTimer, h.deregistered, ?_⟩, rfl⟩
  rw [callbacks_succ (c := c) rfl, List.flatMap_cons, Frame.callbacks, List.nil_append,
    List.append_assoc]
  refine (List.Perm.append_left c.ran List.perm_append_comm).trans ?_
  rw [← List.append_assoc]
  exact h.callbacks.append_right _

/-- No callback runs before the closing. -/
lemma Open.callbackReturns (h : c.Open) : c.callbackReturns.Open := by
  rw [StreamImpl.callbackReturns, h.stack]
  exact h

lemma Finished.callbackReturns (h : c.Finished) :
    c.callbackReturns.Finished ∧ c.callbackReturns.stream.writes = c.stream.writes := by
  have hperm := h.callbacks
  rw [StreamImpl.callbackReturns]
  split
  next => exact ⟨h, rfl⟩
  next callbacks stack hstack =>
    rw [hstack, List.flatMap_cons, Frame.callbacks] at hperm
    refine ⟨finished_callCallbacks h.shut h.heartbeatTimer h.deregistered hperm, ?_⟩
    rw [(callCallbacks_fields callbacks _).1]
  next stack hstack =>
    rw [hstack, List.flatMap_cons, Frame.callbacks, List.nil_append] at hperm
    exact ⟨⟨h.shut, h.heartbeatTimer, h.deregistered, hperm⟩, rfl⟩

/-- **A move leaves the stream open, or closes it completely.** -/
theorem open_step (cfg : Config) (settings : RegistryConfig) (h : c.Open) (m : Move) :
    (c.step cfg settings m).Open ∨ (c.step cfg settings m).Finished := by
  cases m with
  | stream a => exact h.perform a
  | onClose => exact .inl h.onClose
  | callbackReturns => exact .inl h.callbackReturns
  | heartbeat comment =>
      rw [step]
      split
      · exact h.perform _
      · exact .inl h
  | add id metadata now closed =>
      rw [step]
      split
      · exact .inl h
      · exact .inl (h.of_registry _)
  | remove id => exact .inl (h.of_registry _)
  | cleanup now =>
      rw [step]
      split
      · exact .inl h
      · split
        · exact h.perform _
        · exact .inl h
  | shutdown =>
      rw [step]
      dsimp only
      split
      · exact (h.of_registry _).perform _
      · exact .inl (h.of_registry _)
  | clear => exact .inl (h.of_registry _)

/-- **No move touches what the closing has left.** -/
theorem finished_step (cfg : Config) (settings : RegistryConfig) (h : c.Finished) (m : Move) :
    (c.step cfg settings m).Finished ∧
      (c.step cfg settings m).stream.writes = c.stream.writes := by
  cases m with
  | stream a => exact h.perform a
  | onClose => exact h.onClose
  | callbackReturns => exact h.callbackReturns
  | heartbeat comment =>
      rw [step]
      split
      · exact h.perform _
      · exact ⟨h, rfl⟩
  | add id metadata now closed =>
      rw [step]
      split
      next => exact ⟨h, rfl⟩
      next hid =>
        exact ⟨h.of_registry (ConnectionRegistry.get_add_ne hid metadata now closed h.deregistered),
          rfl⟩
  | remove id =>
      exact ⟨h.of_registry (ConnectionRegistry.get_remove_of_none h.deregistered id), rfl⟩
  | cleanup now =>
      rw [step, h.deregistered]
      exact ⟨h, rfl⟩
  | shutdown =>
      have hsame : { c with registry := c.registry.stopCleanupTimer }.Finished :=
        h.of_registry h.deregistered
      rw [step]
      dsimp only
      split
      · exact hsame.perform _
      · exact ⟨hsame, rfl⟩
  | clear => exact ⟨h.of_registry rfl, rfl⟩

/-! ### The callbacks return -/

/-- The calls and returns that are still to come. -/
def toCome (stack : List Frame) : ℕ := (stack.map fun frame => frame.callbacks.length + 1).sum

lemma toCome_callCallbacks (callbacks : List Callback) (c : StreamImpl) :
    toCome (callCallbacks callbacks c).stack ≤ toCome c.stack + callbacks.length := by
  induction callbacks generalizing c with
  | nil => exact Nat.le_refl _
  | cons callback callbacks ih =>
      cases callback with
      | registry => exact Nat.le_succ_of_le (ih _)
      | user n =>
          simp only [callCallbacks, toCome, List.map_cons, List.sum_cons, Frame.callbacks,
            List.length_cons]
          omega

/-- With each return there is less to come. -/
lemma toCome_callbackReturns (h : c.stack ≠ []) :
    toCome c.callbackReturns.stack < toCome c.stack := by
  rw [callbackReturns]
  split
  next hstack => exact absurd hstack h
  next callbacks stack hstack =>
    have hle := toCome_callCallbacks callbacks { c with stack := stack }
    rw [hstack]
    simp only [toCome, List.map_cons, List.sum_cons, Frame.callbacks] at hle ⊢
    omega
  next stack hstack =>
    rw [hstack]
    simp only [toCome, List.map_cons, List.sum_cons]
    omega

/-- **When the callbacks return, all have run**: no callback is forgotten. -/
lemma returns (cfg : Config) (settings : RegistryConfig) (c : StreamImpl) :
    ∃ n, (c.run cfg settings (List.replicate n .callbackReturns)).stack = [] := by
  induction hsize : toCome c.stack using Nat.strong_induction_on generalizing c with
  | _ size ih =>
      by_cases hstack : c.stack = []
      · exact ⟨0, hstack⟩
      · obtain ⟨n, hn⟩ := ih _ (hsize ▸ toCome_callbackReturns hstack) c.callbackReturns rfl
        exact ⟨n + 1, hn⟩

/-! ### The callbacks of a run -/

lemma passed_executeCleanup (c : StreamImpl) : c.executeCleanup.passed = c.passed := by
  rw [executeCleanup]
  split
  · rfl
  · exact (callCallbacks_fields _ _).2.2.1

lemma passed_perform (cfg : Config) (c : StreamImpl) (a : Action) :
    (c.perform cfg a).passed = c.passed := by
  rcases perform_cases cfg c a with hsame | ⟨s, -, hupdate⟩
  · rw [hsame]
  · rw [hupdate, update]
    split
    · exact passed_executeCleanup _
    · rfl

/-- **A callback more with each call of `onClose`**, and no other move passes one. -/
lemma passed_step (cfg : Config) (settings : RegistryConfig) (c : StreamImpl) (m : Move) :
    (c.step cfg settings m).passed = c.passed + if m.isOnClose then 1 else 0 := by
  cases m with
  | stream a => exact passed_perform cfg c a
  | onClose =>
      rw [step, onClose]
      split
      · rfl
      · rfl
  | callbackReturns =>
      rw [step, callbackReturns]
      split
      · rfl
      · exact (callCallbacks_fields _ _).2.2.1
      · rfl
  | heartbeat comment =>
      rw [step]
      split
      · exact passed_perform cfg c _
      · rfl
  | add id metadata now closed =>
      rw [step]
      split
      · rfl
      · rfl
  | remove id => rfl
  | cleanup now =>
      rw [step]
      split
      · rfl
      · split
        · exact passed_perform cfg c _
        · rfl
  | shutdown =>
      rw [step]
      dsimp only
      split
      · exact passed_perform cfg _ _
      · rfl
  | clear => rfl

/-- **As many callbacks as calls of `onClose`.** -/
lemma passed_run (cfg : Config) (settings : RegistryConfig) (c : StreamImpl) (moves : List Move) :
    (c.run cfg settings moves).passed = c.passed + moves.countP Move.isOnClose := by
  induction moves generalizing c with
  | nil => rfl
  | cons m moves ih =>
      have hrest := ih (c.step cfg settings m)
      rw [passed_step] at hrest
      rw [List.countP_cons]
      exact hrest.trans (by omega)

/-! ### Every run -/

/-- The closing is final and complete, for the callbacks of so many calls of `onClose`. -/
structure Final (cfg : Config) (settings : RegistryConfig) (calls : ℕ) (c : StreamImpl) :
    Prop where
  before : c.stream.state ≠ .closed → c.ran = []
  atMostOnce : ∀ callback, c.ran.count callback ≤ 1
  /-- Once no callback is running, each has run, whatever call of `onClose` it comes from. -/
  once : c.stream.state = .closed → c.stack = [] →
    c.ran.count .registry = 1 ∧ ∀ n < calls, c.ran.count (.user n) = 1
  passed : ∀ n, .user n ∈ c.ran → n < calls
  returns : ∃ n, (c.run cfg settings (List.replicate n .callbackReturns)).stack = []
  closes : (c.step cfg settings (.stream .close)).stream.state = .closed
  closeEvent : c.stream.state = .closed →
    ∃ answer, c.stream.writes.getLast? = some ⟨none, closeEvent, answer⟩
  nothingAfter : c.stream.state = .closed →
    ∀ later, (c.run cfg settings later).stream.writes = c.stream.writes
  heartbeatTimer : c.stream.state = .closed → c.heartbeatTimer = false
  deregistered : c.stream.state = .closed → c.registry.connections.get c.id = none

lemma nodup_callbacks (c : StreamImpl) : c.callbacks.Nodup := by
  refine List.nodup_cons.mpr ⟨?_, ?_⟩
  · intro hmem
    obtain ⟨n, -, hn⟩ := List.mem_map.mp hmem
    cases hn
  · exact List.nodup_range.map fun _ _ => Callback.user.inj

lemma stream_executeCleanup (c : StreamImpl) : c.executeCleanup.stream = c.stream := by
  rw [executeCleanup]
  split
  · rfl
  · exact (callCallbacks_fields _ _).1

lemma stream_update (c : StreamImpl) (s : Stream) : (c.update s).stream = s := by
  rw [update]
  split
  · exact stream_executeCleanup _
  · rfl

/-- The closing, from any state. -/
lemma state_close (cfg : Config) (settings : RegistryConfig) (c : StreamImpl) :
    (c.step cfg settings (.stream .close)).stream.state = .closed := by
  have hclose : c.step cfg settings (.stream .close) = c.update (c.stream.close cfg) := by
    rw [step, perform, if_neg (fun h => nomatch h.1), if_neg (fun h => nomatch h.1)]
    rfl
  rw [hclose, stream_update]
  exact Stream.close_state c.stream

lemma finished_run (cfg : Config) (settings : RegistryConfig) (h : c.Finished)
    (moves : List Move) :
    (c.run cfg settings moves).Finished ∧
      (c.run cfg settings moves).stream.writes = c.stream.writes := by
  induction moves generalizing c with
  | nil => exact ⟨h, rfl⟩
  | cons m moves ih =>
      obtain ⟨hfinished, hwrites⟩ := finished_step cfg settings h m
      obtain ⟨hrun, hrunWrites⟩ := ih hfinished
      exact ⟨hrun, hrunWrites.trans hwrites⟩

lemma open_run (cfg : Config) (settings : RegistryConfig) (h : c.Open) (moves : List Move) :
    (c.run cfg settings moves).Open ∨ (c.run cfg settings moves).Finished := by
  induction moves generalizing c with
  | nil => exact .inl h
  | cons m moves ih =>
      rcases open_step cfg settings h m with hopen | hfinished
      · exact ih hopen
      · exact .inr (finished_run cfg settings hfinished moves).1

lemma user_mem_callbacks {n : ℕ} : .user n ∈ c.callbacks ↔ n < c.passed := by
  simp [callbacks]

lemma Open.final (h : c.Open) : c.Final cfg settings c.passed :=
  { before := fun _ => h.ran
    atMostOnce := fun callback => by
      rw [h.ran]
      exact Nat.zero_le 1
    once := fun hclosed => absurd hclosed h.state
    passed := fun n hn => by
      rw [h.ran] at hn
      cases hn
    returns := returns cfg settings c
    closes := state_close cfg settings c
    closeEvent := fun hclosed => absurd hclosed h.state
    nothingAfter := fun hclosed => absurd hclosed h.state
    heartbeatTimer := fun hclosed => absurd hclosed h.state
    deregistered := fun hclosed => absurd hclosed h.state }

/-- Once no callback is running, each has run once. -/
lemma Finished.count_ran (h : c.Finished) (hstack : c.stack = []) {callback : Callback}
    (hmem : callback ∈ c.callbacks) : c.ran.count callback = 1 := by
  have hperm := h.callbacks
  rw [hstack, List.flatMap_nil, List.append_nil] at hperm
  rw [hperm.count_eq]
  exact List.count_eq_one_of_mem (nodup_callbacks c) hmem

lemma Finished.final (h : c.Finished) : c.Final cfg settings c.passed :=
  { before := fun hopen => absurd h.shut.state hopen
    atMostOnce := fun callback => by
      have hnodup := h.callbacks.nodup_iff.mpr (nodup_callbacks c)
      exact List.nodup_iff_count_le_one.mp (List.nodup_append.mp hnodup).1 callback
    once := fun _ hstack =>
      ⟨h.count_ran hstack List.mem_cons_self,
        fun n hn => h.count_ran hstack (user_mem_callbacks.mpr hn)⟩
    passed := fun n hn =>
      user_mem_callbacks.mp (h.callbacks.subset (List.mem_append_left _ hn))
    returns := returns cfg settings c
    closes := state_close cfg settings c
    closeEvent := fun _ => h.shut.last
    nothingAfter := fun _ later => (finished_run cfg settings h later).2
    heartbeatTimer := fun _ => h.heartbeatTimer
    deregistered := fun _ => h.deregistered }

/-- The constructor returns an open stream. -/
lemma create_open {registry : ConnectionRegistry} {id : String} {metadata : Metadata} {now : ℕ}
    {lastEventId : Option String} {heartbeatInterval : ℕ}
    (h : create cfg settings registry id metadata now lastEventId heartbeatInterval = .ok c) :
    c.Open ∧ c.passed = 0 := by
  rw [create] at h
  split at h
  · cases h
  · obtain rfl := Except.ok.inj h
    refine ⟨⟨?_, rfl, rfl, rfl, rfl⟩, rfl⟩
    dsimp only
    rw [createSSEStream.eq_def, (Stream.writeRaw_keeps _ none _).state]
    rintro ⟨⟩

/-- **Closing a stream is final and complete**, in every run: of the callbacks that its calls of
`onClose` pass, each runs exactly once. -/
theorem final_run (cfg : Config) (settings : RegistryConfig) {registry : ConnectionRegistry}
    {id : String} {metadata : Metadata} {now : ℕ} {lastEventId : Option String}
    {heartbeatInterval : ℕ}
    (h : create cfg settings registry id metadata now lastEventId heartbeatInterval = .ok c)
    (moves : List Move) :
    (c.run cfg settings moves).Final cfg settings (moves.countP Move.isOnClose) := by
  obtain ⟨hcreate, hpassed⟩ := create_open h
  have hcalls : (c.run cfg settings moves).passed = moves.countP Move.isOnClose := by
    rw [passed_run, hpassed, Nat.zero_add]
  rw [← hcalls]
  rcases open_run cfg settings hcreate moves with hopen | hfinished
  · exact hopen.final
  · exact hfinished.final

/-- A stream that the client closes, with a callback that passes another one. -/
def disconnected : List Move :=
  [.onClose, .stream (.send "message" (.string "hello")), .stream .disconnect, .onClose,
    .callbackReturns, .stream .close, .callbackReturns]

theorem final_run_disconnected :
    ∃ c, create {} {} {} "sse-1" ⟨none, none⟩ 0 none 30000 = .ok c ∧
      (c.run {} {} disconnected).Final {} {} 2 := by
  refine ⟨_, rfl, ?_⟩
  exact @final_run _ {} {} {} "sse-1" ⟨none, none⟩ 0 none 30000 rfl disconnected

end StreamImpl

end Blaize.Sse
