import Blaize.Client.Handled

/-!
Subscriptions across reconnections.

The handlers of a custom event are called by a listener that `on` puts on the current
`EventSource` when the first of them is registered.  `connect` puts none on the
`EventSource` it creates.

* `SSEClient.Delivers`: what a connected client owes to its handlers;
* `SSEClient.Listening`: the invariant, the current `EventSource` has one listener for each
  custom event with handlers;
* `SSEClient.Unsubscribed`: no timer reconnects while a custom event has handlers;
* `delivers_of_unsubscribed`: **in a run without such a reconnection a custom event reaches
  each of its handlers exactly once**;
* `not_delivers_reconnect`: after a reconnection the handlers are not reached.
-/

namespace Blaize.Client

open Machine

/-- The listeners for a custom event. -/
def EventSource.listeners (s : EventSource) (event : String) : List (String × ℕ) :=
  s.custom.filter (·.1 = event)

namespace SSEClient

variable {o : Options} {c c' : SSEClient}

/-! ### The property -/

/-- The handlers of an event. -/
def registered (c : SSEClient) (event : String) : List ℕ :=
  match c.handlers.get event with
  | some handlers => handlers.keys
  | none => []

/-- How often a handler was called for an event. -/
def timesCalled (c : SSEClient) (handler : ℕ) (event : String) : ℕ :=
  c.calls.countP fun call => call.handler = handler ∧ call.event = event

/-- In the state `'connected'`, a custom event on the current `EventSource` reaches each of
its handlers exactly once. -/
def Delivers (o : Options) (c : SSEClient) : Prop :=
  c.state = .connected → ∀ i, c.eventSource = some i → ∀ event, event ∉ builtIn →
    ∀ data id c', c.step o (.message i event data id) = some c' →
      ∀ handler ∈ c.registered event,
        c'.timesCalled handler event = c.timesCalled handler event + 1

/-- When the timer of `attemptReconnect` creates an `EventSource`, no custom event has a
handler. -/
def Unsubscribed (o : Options) (c : SSEClient) : Action → Prop
  | .reconnect none =>
      0 < c.reconnectTimers → c.state ≠ .closed → o.url.isSome →
        ∀ event ∈ c.handlers.keys, event ∈ builtIn
  | _ => True

instance (o : Options) (c : SSEClient) (a : Action) : Decidable (Unsubscribed o c a) :=
  match a with
  | .reconnect none =>
      inferInstanceAs (Decidable (0 < c.reconnectTimers → c.state ≠ .closed → o.url.isSome →
        ∀ event ∈ c.handlers.keys, event ∈ builtIn))
  | .reconnect (some _) | .open _ | .error _ _ | .message _ _ _ _ | .retry | .heartbeat | .on _ _
  | .off _ _ | .close => .isTrue trivial

/-! ### The invariant -/

/-- The `EventSource` has the one listener of each custom event that has handlers, and no
other. -/
def Wired (c : SSEClient) (s : EventSource) : Prop :=
  ∀ event, event ∉ builtIn →
    (c.handlers.get event = none → s.listeners event = []) ∧
    ((c.handlers.get event).isSome → ∃ l, c.customEventHandlers.get event = some l ∧
      s.listeners event = [(event, l)])

/-- The current `EventSource` is wired. -/
def Listening (c : SSEClient) : Prop := ∀ s, c.current = some s → c.Wired s

lemma listening_of_none (h : c.eventSource = none) : c.Listening := by
  intro s hs
  rw [current, h] at hs
  cases hs

/-- The invariant only reads the listeners and the two maps. -/
lemma Listening.of_custom (h : c.Listening) (he : c'.eventSource = c.eventSource)
    (hs : c'.sources.map (·.custom) = c.sources.map (·.custom))
    (hh : c'.handlers = c.handlers)
    (hl : c'.customEventHandlers = c.customEventHandlers) : c'.Listening := by
  intro s' hs'
  obtain ⟨i, hi, hs'⟩ := Option.bind_eq_some_iff.mp hs'
  have hcustom := congrArg (·[i]?) hs
  simp only [List.getElem?_map, hs', Option.map_some] at hcustom
  obtain ⟨s, hs, hc⟩ := Option.map_eq_some_iff.mp hcustom.symm
  have hw : c.Wired s := h s (by rw [current, ← he, hi]; exact hs)
  intro event hevent
  rw [hh, hl, EventSource.listeners, ← hc]
  exact hw event hevent

lemma Listening.of_keeps (h : c.Listening) (hk : c.Keeps c') : c'.Listening := by
  refine h.of_custom hk.eventSource ?_ hk.handlers hk.customEventHandlers
  have := congrArg (List.map Prod.snd) hk.sources
  simpa only [List.map_map, Function.comp_def, EventSource.core] using this

lemma Listening.modifySource (h : c.Listening) (i : ℕ) {f : EventSource → EventSource}
    (hf : ∀ s, (f s).custom = s.custom) : (c.modifySource i f).Listening :=
  h.of_custom rfl (map_modify_eq hf i c.sources) rfl rfl

lemma Listening.of_handled (h : c.Listening) (hc : c.Handled c') : c'.Listening := by
  rcases hc with hk | ⟨d, -, hk⟩
  · exact h.of_keeps hk
  · exact listening_of_none (hk.eventSource.trans (close_shut d).eventSource)

/-! ### `on` and `off` -/

/-- The maps and the listeners of the current `EventSource` change for one event only. -/
lemma Wired.update {s s' : EventSource} {event : String} (h : c.Wired s)
    (hh : ∀ other, other ≠ event → c'.handlers.get other = c.handlers.get other)
    (hl : ∀ other, other ≠ event →
      c'.customEventHandlers.get other = c.customEventHandlers.get other)
    (hs : ∀ other, other ≠ event → s'.listeners other = s.listeners other)
    (hevent : event ∉ builtIn →
      (c'.handlers.get event = none → s'.listeners event = []) ∧
      ((c'.handlers.get event).isSome → ∃ l, c'.customEventHandlers.get event = some l ∧
        s'.listeners event = [(event, l)])) : c'.Wired s' := by
  intro other hother
  by_cases he : other = event
  · subst he
    exact hevent hother
  · rw [hh other he, hl other he, hs other he]
    exact h other hother

lemma listeners_append (s : EventSource) (event other : String) (l : ℕ) :
    EventSource.listeners { s with custom := s.custom ++ [(event, l)] } other =
      s.listeners other ++ if event = other then [(event, l)] else [] := by
  rw [EventSource.listeners, List.filter_append]
  by_cases h : event = other <;> simp [EventSource.listeners, h]

lemma listeners_filter (s : EventSource) (event other : String) (l : ℕ) :
    EventSource.listeners { s with custom := s.custom.filter (· ≠ (event, l)) } other =
      (s.listeners other).filter (· ≠ (event, l)) := by
  rw [EventSource.listeners, EventSource.listeners, List.filter_filter, List.filter_filter]
  exact List.filter_congr fun p _ => Bool.and_comm _ _

lemma listeners_filter_ne (s : EventSource) {event other : String} (h : other ≠ event) (l : ℕ) :
    EventSource.listeners { s with custom := s.custom.filter (· ≠ (event, l)) } other =
      s.listeners other := by
  rw [listeners_filter, List.filter_eq_self]
  intro p hp
  have hp' := (List.mem_filter.mp hp).2
  simp only [decide_eq_true_eq] at hp' ⊢
  rintro rfl
  exact h hp'.symm

/-- What `modify` makes of the current `EventSource`. -/
lemma current_modifySource {i : ℕ} {f : EventSource → EventSource} {s' : EventSource}
    (hi : c.eventSource = some i) (h : (c.sources.modify i f)[i]? = some s') :
    ∃ s, c.current = some s ∧ f s = s' := by
  rw [List.getElem?_modify_eq] at h
  obtain ⟨s, hs, hf⟩ := Option.map_eq_some_iff.mp h
  exact ⟨s, by rw [current, hi]; exact hs, hf⟩

/-- Other handlers for an event that has some. -/
lemma Listening.setHandlers (h : c.Listening) {event : String} {old : OrdSet ℕ}
    (hold : c.handlers.get event = some old) (handlers : OrdSet ℕ) :
    { c with handlers := c.handlers.set event handlers }.Listening := by
  intro s hs
  have hw : c.Wired s := h s hs
  refine hw.update (fun other ho => OrdMap.get_set_ne _ handlers ho.symm) (fun _ _ => rfl)
    (fun _ _ => rfl) (fun hevent => ⟨fun hnone => ?_, fun _ => ?_⟩)
  · exact nomatch hnone.symm.trans (OrdMap.get_set_self _ _ _)
  · exact (hw event hevent).2 (by rw [hold]; rfl)

lemma on_listening (h : c.Listening) (event : String) (handler : ℕ) :
    (c.on event handler).Listening := by
  rw [on.eq_def]
  split
  next => exact h
  split
  next old hold => exact h.setHandlers hold _
  next hnone =>
    dsimp only
    split
    next i hi =>
      split
      next hevent =>
        intro s' hs'
        obtain ⟨j, hj, hs'⟩ := Option.bind_eq_some_iff.mp hs'
        obtain rfl : i = j := Option.some.inj (hi.symm.trans hj)
        obtain ⟨s, hs, rfl⟩ := current_modifySource hi hs'
        have hw : c.Wired s := h s hs
        refine hw.update (fun other ho => OrdMap.get_set_ne _ _ ho.symm)
          (fun other ho => OrdMap.get_set_ne _ _ ho.symm)
          (fun other ho => ?_) (fun _ => ⟨fun hnone' => ?_, fun _ => ⟨c.listeners, ?_, ?_⟩⟩)
        · rw [listeners_append, if_neg ho.symm, List.append_nil]
        · exact nomatch hnone'.symm.trans (OrdMap.get_set_self _ _ _)
        · exact OrdMap.get_set_self _ _ _
        · rw [listeners_append, if_pos rfl, (hw event hevent).1 hnone, List.nil_append]
      next hevent =>
        intro s hs
        have hw : c.Wired s := h s hs
        exact hw.update (fun other ho => OrdMap.get_set_ne _ _ ho.symm) (fun _ _ => rfl)
          (fun _ _ => rfl) (fun hevent' => absurd hevent' hevent)
    next hi => exact listening_of_none hi

lemma off_listening (h : c.Listening) (event : String) (handler : Option ℕ) :
    (c.off event handler).Listening := by
  rw [off.eq_def]
  split
  next => exact h
  split
  next => exact h
  next old hold =>
    have hsome : (c.handlers.get event).isSome := by rw [hold]; rfl
    dsimp only
    split
    next =>
      split
      next i l hi hl =>
        intro s' hs'
        obtain ⟨j, hj, hs'⟩ := Option.bind_eq_some_iff.mp hs'
        obtain rfl : i = j := Option.some.inj (hi.symm.trans hj)
        obtain ⟨s, hs, rfl⟩ := current_modifySource hi hs'
        have hw : c.Wired s := h s hs
        refine hw.update (fun other ho => OrdMap.get_delete_ne _ ho.symm)
          (fun other ho => OrdMap.get_delete_ne _ ho.symm)
          (fun other ho => listeners_filter_ne s ho l)
          (fun hevent => ⟨fun _ => ?_, fun hsome' => ?_⟩)
        · obtain ⟨l', hl', hlisteners⟩ := (hw event hevent).2 hsome
          obtain rfl : l = l' := Option.some.inj (hl.symm.trans hl')
          rw [listeners_filter, hlisteners]
          simp
        · have hdelete : (c.handlers.delete event).get event = none := by
            rw [OrdMap.get_delete, if_pos rfl]
          exact absurd ((congrArg Option.isSome hdelete).symm.trans hsome') (by rintro ⟨⟩)
      next hcases =>
        intro s hs
        have hw : c.Wired s := h s hs
        refine hw.update (fun other ho => OrdMap.get_delete_ne _ ho.symm) (fun _ _ => rfl)
          (fun _ _ => rfl) (fun hevent => ?_)
        -- a custom event with handlers has its listener in the map
        obtain ⟨l, hl, -⟩ := (hw event hevent).2 hsome
        obtain ⟨i, hi, -⟩ := Option.bind_eq_some_iff.mp hs
        exact absurd hl (hcases i l hi)
    next => exact h.setHandlers hold _

/-! ### Steps -/

/-- A new `EventSource` has no listeners, and needs none without handlers. -/
lemma connect_listening (h : c.Listening) (awaited : Bool) (thrown : Option String)
    (hkeys : thrown = none → o.url.isSome → ∀ event ∈ c.handlers.keys, event ∈ builtIn) :
    (c.connect o awaited thrown).Listening := by
  rw [connect.eq_def]
  split
  next => exact h.of_keeps (connectFailed_keeps c awaited "Invalid URL")
  next message _ => exact h.of_keeps (connectFailed_keeps c awaited message)
  next url hurl =>
    refine Listening.of_keeps ?_ (startHeartbeatTimer_keeps _)
    intro s hs
    obtain rfl : { url := c.buildConnectionUrl o url, awaited } = s := by
      simpa [current] using hs
    intro event hevent
    refine ⟨fun _ => rfl, fun hsome => absurd ?_ hevent⟩
    obtain ⟨handlers, hget⟩ := Option.isSome_iff_exists.mp hsome
    have hmem : event ∈ c.handlers.keys :=
      List.mem_map_of_mem (f := Prod.fst) (OrdMap.mem_entries_iff _ |>.mpr hget)
    exact hkeys rfl (by rw [hurl]; rfl) event hmem

lemma handleHeartbeatTimeout_listening (h : c.Listening) :
    c.handleHeartbeatTimeout.Listening := by
  rw [handleHeartbeatTimeout.eq_def]
  dsimp only
  split
  next => exact listening_of_none rfl
  next =>
    refine Listening.of_keeps (c := { c with state := .disconnected, heartbeatTimer := false }) ?_
      (emit_keeps _ _ _)
    exact h.of_custom rfl rfl rfl rfl

/-- **One step.** -/
lemma step_listening {a : Action} (h : c.step o a = some c') (hc : c.Listening)
    (ha : c.Unsubscribed o a) : c'.Listening := by
  cases a with
  | «open» i =>
      obtain ⟨s, -, -, rfl⟩ := step_open h
      refine Listening.of_handled (hc.modifySource i ?_) (sourceOpen_handled c i s)
      exact fun _ => rfl
  | error i fatal =>
      obtain ⟨s, -, -, rfl⟩ := step_error h
      refine Listening.of_handled (hc.modifySource i ?_) (sourceError_handled c i s fatal)
      exact fun _ => rfl
  | message i type data id =>
      obtain ⟨s, -, -, rfl⟩ := step_message h
      exact hc.of_handled (sourceMessage_handled c i s type data id)
  | reconnect thrown =>
      obtain ⟨htimer, rfl⟩ := step_reconnect h
      rw [reconnect]
      split
      next => exact hc.of_custom rfl rfl rfl rfl
      next hstate =>
        have hc' : { c with
            reconnectTimers := c.reconnectTimers - 1, state := .connecting }.Listening :=
          hc.of_custom rfl rfl rfl rfl
        refine connect_listening hc' true thrown ?_
        rintro rfl hurl
        exact ha htimer hstate hurl
  | retry =>
      obtain rfl := step_retry h
      have hc' : { c with rejections := c.rejections - 1 }.Listening :=
        hc.of_custom rfl rfl rfl rfl
      exact hc'.of_handled (attemptReconnect_handled _)
  | heartbeat =>
      obtain ⟨-, rfl⟩ := step_heartbeat h
      exact handleHeartbeatTimeout_listening hc
  | on event handler =>
      obtain rfl := Option.some.inj h
      exact on_listening hc event handler
  | off event handler =>
      obtain rfl := Option.some.inj h
      exact off_listening hc event handler
  | close =>
      obtain rfl := Option.some.inj h
      exact listening_of_none (close_shut c).eventSource

lemma create_listening (thrown : Option String) : (create o thrown).Listening :=
  connect_listening (listening_of_none rfl) false thrown fun _ _ _ h => nomatch h

/-! ### Delivery -/

/-- One `emit` calls each handler once. -/
lemma timesCalled_emit {event : String} {handler : ℕ} (h : handler ∈ c.registered event)
    (data : Payload) :
    (c.emit event data).timesCalled handler event = c.timesCalled handler event + 1 := by
  rw [registered] at h
  split at h
  next handlers hget =>
    rw [emit, hget, timesCalled, List.countP_append, List.countP_map, timesCalled]
    congr 1
    have hcount : handlers.keys.count handler = 1 :=
      List.count_eq_one_of_mem handlers.nodup h
    rw [← hcount, List.count]
    refine List.countP_congr fun other _ => ?_
    simp
  next => cases h

lemma timesCalled_receive {event : MessageEvent} {handler : ℕ}
    (h : handler ∈ c.registered event.type) :
    (c.receive o event).timesCalled handler event.type =
      c.timesCalled handler event.type + 1 := by
  rw [receive]
  split
  next =>
    refine (timesCalled_emit ?_ _).trans rfl
    exact h
  next =>
    refine (timesCalled_emit ?_ _).trans rfl
    exact h

/-- A custom event runs its listeners and nothing else. -/
lemma dispatch_custom (c : SSEClient) (i : ℕ) (s : EventSource) {event : MessageEvent}
    (h : event.type ∉ builtIn) :
    c.dispatch o i s event = (fun c => c.receive o event)^[(s.listeners event.type).length] c := by
  simp only [builtIn, List.mem_cons, List.not_mem_nil, or_false, not_or] at h
  obtain ⟨h₁, h₂, h₃, h₄⟩ := h
  rw [dispatch, if_neg h₄, if_neg h₂, if_neg h₁, if_neg h₃, EventSource.listeners,
    List.countP_eq_length_filter]

lemma Listening.delivers (h : c.Listening) : c.Delivers o := by
  intro _ i hi event hevent data id c' hstep handler hmem
  obtain ⟨s, hs, -, rfl⟩ := step_message hstep
  have hw : c.Wired s := h s (by rw [current, hi]; exact hs)
  have hsome : (c.handlers.get event).isSome := by
    rw [registered] at hmem
    split at hmem
    next hget => rw [hget]; rfl
    next => cases hmem
  obtain ⟨l, -, hlisteners⟩ := (hw event hevent).2 hsome
  rw [sourceMessage, dispatch_custom _ i s hevent, hlisteners]
  have hmem' : handler ∈ (c.modifySource i fun t =>
      { t with lastEventId := id.getD s.lastEventId }).registered event := hmem
  exact timesCalled_receive hmem'

/-- **Subscriptions survive without a reconnection of subscribed events**: in every state of
a run in which no timer creates an `EventSource` while a custom event has handlers, a custom
event on the current `EventSource` reaches each of its handlers exactly once. -/
theorem delivers_of_unsubscribed (o : Options) (thrown : Option String) (as : List Action)
    (hrun : Meets (step o) (Unsubscribed o) (create o thrown) as) (c : SSEClient)
    (hc : exec (step o) (create o thrown) as = some c) : c.Delivers o :=
  (meets_invariant (fun _ _ _ hs hP hstep => step_listening hstep hs hP)
    (create_listening thrown) hrun hc).delivers

/-- A client reconnects before its first subscription. -/
theorem delivers_of_unsubscribed_tick : ∃ c,
    exec (step reconnecting) (create reconnecting none)
      [.open 0, .error 0 false, .reconnect none, .open 1, .on "tick" 7] = some c ∧
    c.state = .connected ∧ c.registered "tick" = [7] ∧ c.Delivers reconnecting := by
  have hrun : (exec (step reconnecting) (create reconnecting none)
      [.open 0, .error 0 false, .reconnect none, .open 1, .on "tick" 7]).any fun c =>
        c.state = .connected ∧ c.registered "tick" = [7] := by decide +kernel
  obtain ⟨c, hc, h⟩ := (Option.any_eq_true _ _).mp hrun
  obtain ⟨hstate, hregistered⟩ := of_decide_eq_true h
  exact ⟨c, hc, hstate, hregistered,
    delivers_of_unsubscribed reconnecting none _ (by decide +kernel) c hc⟩

/-- A client subscribes and then reconnects: the handler is still registered, the client is
connected again, and the event on its new `EventSource` does not reach it. -/
theorem not_delivers_reconnect : ∃ c,
    exec (step reconnecting) (create reconnecting none)
      [.open 0, .on "tick" 7, .error 0 false, .reconnect none, .open 1] = some c ∧
    ¬ c.Delivers reconnecting := by
  have hrun : (exec (step reconnecting) (create reconnecting none)
      [.open 0, .on "tick" 7, .error 0 false, .reconnect none, .open 1]).any fun c =>
        c.state = .connected ∧ c.eventSource = some 1 ∧ 7 ∈ c.registered "tick" ∧
        (c.step reconnecting (.message 1 "tick" "2" none)).any fun c' =>
          c'.timesCalled 7 "tick" = c.timesCalled 7 "tick" := by decide +kernel
  obtain ⟨c, hc, h⟩ := (Option.any_eq_true _ _).mp hrun
  obtain ⟨hstate, hsource, hmem, hmessage⟩ := of_decide_eq_true h
  obtain ⟨c', hstep, htimes⟩ := (Option.any_eq_true _ _).mp hmessage
  refine ⟨c, hc, fun hdelivers => ?_⟩
  have := hdelivers hstate 1 hsource "tick" (by decide) "2" none c' hstep 7 hmem
  rw [of_decide_eq_true htimes] at this
  omega

end SSEClient

end Blaize.Client
