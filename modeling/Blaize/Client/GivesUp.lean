import Blaize.Client.CloseTold

/-!
When a client of `sse-client.ts` gives up reconnecting.

`reconnectAttempts` is counted up when an open connection is lost and set back when one opens, so it
is one at every request for a reconnection, however often the connection has failed since.  A client
that may try once gives up at once; one that may try more often never does.

* `Trial`: a client, with the number of attempts since its last open connection;
* `GivesUp`: the attempts keep to the bound, and the last request closes the client and tells the
  error handlers;
* `request_ends`: **what a request comes to depends on the bound alone**;
* `givesUp_iff_bounded`: so **a client gives up as it should exactly if it may try once and has no
  error handlers, or may try more often and does not need to**;
* `not_givesUp_twice`: two attempts that fail are enough.
-/

namespace Blaize.Client

open Machine

namespace SSEClient

/-- The options of a client that reconnects up to `m` times. -/
def upTo (m : ℕ) (o : Options) : Options := { o with reconnect := true, maxAttempts := some m }

/-- A client, and the connection attempts made for it since its last open connection. -/
structure Trial where
  client : SSEClient
  attempts : ℕ := 0

/-- The timer of `attemptReconnect` fires. -/
def attempt : Action → Bool
  | .reconnect _ => true
  | _ => false

def trialStep (o : Options) (t : Trial) (a : Action) : Option Trial :=
  (t.client.step o a).map fun client =>
    { client
      attempts :=
        if client.state = .connected then 0
        else if attempt a ∧ t.client.state ≠ .closed then t.attempts + 1
        else t.attempts }

/-! ### The property -/

/-- The `i`-th `EventSource` has the permanent handlers on it. -/
def Listens (c : SSEClient) (i : ℕ) : Prop := ∃ s, c.sources[i]? = some s ∧ 0 < s.permanent

/-- A step that asks for a reconnection: the open connection is lost (an error that closes the
current `EventSource` ends it instead), or an attempt has failed. -/
def Requests (c : SSEClient) : Action → Prop
  | .error i fatal =>
      c.state = .connected ∧ c.Listens i ∧ ¬ (fatal = true ∧ c.eventSource = some i)
  | .message i type _ _ => c.state = .connected ∧ c.Listens i ∧ type = "error"
  | .retry => c.closeCalled = false
  | _ => False

/-- A step calls each error handler with the error of the last request. -/
def ToldLast (c c' : SSEClient) : Prop :=
  ∀ handler ∈ c.registered "error",
    (⟨handler, "error", .connectionError "Max reconnection attempts exceeded" .disconnected
      c'.reconnectAttempts⟩ : Call) ∈ c'.calls.drop c.calls.length

/-- There are at most `m` attempts, and a request without another one is the last: it closes the
client and tells the error handlers. -/
def GivesUp (m : ℕ) (o : Options) (t : Trial) (a : Action) : Prop :=
  ∀ t', trialStep (upTo m o) t a = some t' →
    t'.attempts ≤ m ∧
      (Requests t.client a →
        if 0 < t'.client.reconnectTimers then t.attempts < m
        else t'.client.state = .closed ∧ ToldLast t.client t'.client)

/-- A request finds no error handlers if one attempt is allowed at most, and an attempt left
otherwise. -/
def Bounded (m : ℕ) (o : Options) (t : Trial) (a : Action) : Prop :=
  ∀ t', trialStep (upTo m o) t a = some t' → Requests t.client a →
    if m ≤ 1 then t.client.registered "error" = [] else t.attempts < m

variable {o : Options} {m : ℕ} {c c' c'' : SSEClient}

/-! ### What asks for nothing -/

/-- No timer of a reconnection is new. -/
def Calm (c c' : SSEClient) : Prop := c'.reconnectTimers ≤ c.reconnectTimers

lemma Calm.refl (c : SSEClient) : Calm c c := le_rfl

lemma Calm.trans (h : Calm c c') (h' : Calm c' c'') : Calm c c'' := le_trans h' h

lemma Calm.iterate {f : SSEClient → SSEClient} (hf : ∀ c, Calm c (f c)) (n : ℕ) (c : SSEClient) :
    Calm c (f^[n] c) :=
  Function.Iterate.rec (Calm c) (.refl c) (fun d hd => hd.trans (hf d)) n

lemma emit_reconnect (c : SSEClient) (event : String) (data : Payload) :
    (c.emit event data).reconnectAttempts = c.reconnectAttempts ∧
      (c.emit event data).reconnectTimers = c.reconnectTimers := by
  rw [emit]
  split
  next => exact ⟨rfl, rfl⟩
  next => exact ⟨rfl, rfl⟩

/-- An emit of a client that asks for nothing. -/
lemma calm_emit {event : String} {data : Payload} (h : Calm c c') :
    Calm c (c'.emit event data) := by
  exact (emit_reconnect c' event data).2.trans_le h

lemma calm_reject {awaited : Bool} (h : Calm c c') : Calm c (c'.reject awaited) := by
  rw [reject]
  split
  next => exact h
  next => exact h

lemma calm_close (c : SSEClient) : Calm c c.close := by
  exact (Reentrant.close_emitted c).reconnectTimers.le

lemma calm_removeTemporary {i j : ℕ} (h : Calm c c') : Calm c (c'.removeTemporary i j) := by
  rw [removeTemporary]
  split
  next => exact h
  next => exact h

lemma calm_setupPermanentEventHandlers (h : Calm c c') :
    Calm c c'.setupPermanentEventHandlers := by
  rw [setupPermanentEventHandlers.eq_def]
  split
  next => exact h
  next => exact h

lemma calm_handleOpen (c : SSEClient) (i : ℕ) : Calm c (c.handleOpen o i) := by
  rw [handleOpen.eq_def]
  split
  next => exact .refl c
  have hstart : Calm c
      { c with connectionHandled := true, state := .connected, reconnectAttempts := 0 } :=
    le_rfl
  dsimp only
  split
  next j _ =>
    have hset := calm_setupPermanentEventHandlers (calm_removeTemporary (i := i) (j := j) hstart)
    exact calm_emit hset
  next => exact hstart

lemma calm_handleInitialError (c : SSEClient) (i : ℕ) (awaited : Bool) :
    Calm c (c.handleInitialError i awaited) := by
  rw [handleInitialError.eq_def]
  split
  next => exact .refl c
  have hstart : Calm c { c with connectionHandled := true } := le_rfl
  dsimp only
  split
  next j _ =>
    have hremove := calm_removeTemporary (i := i) (j := j) hstart
    exact calm_reject (calm_emit hremove)
  next => exact hstart

lemma calm_receive (c : SSEClient) (event : MessageEvent) : Calm c (c.receive o event) := by
  rw [receive]
  split
  next => exact calm_emit le_rfl
  next => exact calm_emit le_rfl

lemma calm_handleServerError (c : SSEClient) (event : MessageEvent) :
    Calm c (c.handleServerError o event) := by
  rw [handleServerError.eq_def]
  split
  next => exact .refl c
  next => exact calm_emit (.refl c)

lemma calm_handleCloseEvent (c : SSEClient) (event : MessageEvent) :
    Calm c (c.handleCloseEvent o event) := by
  rw [handleCloseEvent.eq_def]
  dsimp only
  split
  next =>
    split
    next => exact calm_emit (.refl c)
    next => exact calm_emit (calm_close c)
  next => exact .refl c

lemma calm_connect (c : SSEClient) (awaited : Bool) (thrown : Option String) :
    Calm c (c.connect o awaited thrown) := by
  rw [connect.eq_def]
  split
  next => exact calm_reject (calm_emit le_rfl)
  next => exact calm_reject (calm_emit le_rfl)
  next =>
    rw [startHeartbeatTimer]
    split
    next => exact le_rfl
    next => exact le_rfl

lemma calm_handleHeartbeatTimeout (c : SSEClient) : Calm c c.handleHeartbeatTimeout := by
  have hemit : Calm c ({ c with state := .disconnected, heartbeatTimer := false }.emitError
      (.heartbeatError "SSE heartbeat timeout - connection may be dead" c.lastEventId)) :=
    calm_emit le_rfl
  rw [handleHeartbeatTimeout.eq_def]
  dsimp only
  split
  next => exact hemit
  next => exact hemit

/-! ### A request -/

/-- The client that has lost its connection, before it asks for another one. -/
def lost (c : SSEClient) : SSEClient :=
  { c with state := .disconnected, reconnectAttempts := c.reconnectAttempts + 1 }.emitError
    (.connectionError "SSE connection error - reconnecting" .disconnected (c.reconnectAttempts + 1))

/-- The permanent `onerror` loses the connection. -/
def Loses (c : SSEClient) : Prop :=
  c.state = .connected ∧ c.current.any (·.readyState = .closed) = false

lemma onerror_of_loses (h : c.Loses) : c.onerror o = attemptReconnect o c.lost := by
  rw [onerror, if_pos h.1, h.2, if_neg Bool.false_ne_true]
  rfl

lemma calm_onerror (h : ¬ c.Loses) : Calm c (c.onerror o) := by
  rw [onerror]
  split
  next hstate =>
    split
    next => exact calm_emit le_rfl
    next hopen => exact absurd ⟨hstate, by simpa using hopen⟩ h
  next => exact .refl c

lemma emit_of_no_handlers (h : c.handlers = ∅) (event : String) (data : Payload) :
    c.emit event data = c := by
  rw [emit, h]
  rfl

/-- **What a request comes to depends on the bound alone**: it has counted one attempt. -/
lemma request_ends (h : c.reconnectAttempts = 1) :
    attemptReconnect (upTo m o) c =
      if m ≤ 1 then c.close else { c with reconnectTimers := c.reconnectTimers + 1 } := by
  have hcount : ((upTo m o).maxAttempts.any (· ≤ (c.reconnectAttempts : ℤ))) = decide (m ≤ 1) := by
    rw [h, Bool.eq_iff_iff]
    simp only [upTo, Option.any_some, decide_eq_true_eq]
    omega
  rw [attemptReconnect, hcount, emitError, emit_of_no_handlers (close_handlers c)]
  simp [upTo]

lemma handleServerError_of_no_handlers (h : c.handlers = ∅) (event : MessageEvent) :
    c.handleServerError o event = c := by
  rw [handleServerError.eq_def]
  split
  next => rfl
  next => exact emit_of_no_handlers h _ _

lemma handleServerError_reconnectTimers (c : SSEClient) (event : MessageEvent) :
    (c.handleServerError o event).reconnectTimers = c.reconnectTimers := by
  rw [handleServerError.eq_def]
  split
  next => rfl
  next => exact (emit_reconnect c _ _).2

/-- The listeners of a failed connection count nothing, or lose it. -/
lemma calm_failed_or {i : ℕ} {s : EventSource} (hs : s.temporary = true → s.permanent = 0) :
    let d := if s.temporary then c.handleInitialError i s.awaited else c
    let d := if 0 < s.permanent then d.onerror o else d
    ¬ (c.Loses ∧ 0 < s.permanent) ∧ Calm c d ∨
      (c.Loses ∧ 0 < s.permanent) ∧ d = attemptReconnect o c.lost := by
  dsimp only
  by_cases htemporary : s.temporary = true
  · rw [if_pos htemporary, hs htemporary, if_neg (lt_irrefl 0)]
    exact .inl ⟨fun h => lt_irrefl 0 h.2, calm_handleInitialError c i s.awaited⟩
  · rw [if_neg htemporary]
    by_cases hpermanent : 0 < s.permanent
    · rw [if_pos hpermanent]
      by_cases hloses : c.Loses
      · exact .inr ⟨⟨hloses, hpermanent⟩, onerror_of_loses hloses⟩
      · exact .inl ⟨fun h => hloses h.1, calm_onerror hloses⟩
    · rw [if_neg hpermanent]
      exact .inl ⟨fun h => hpermanent h.2, .refl c⟩

/-- A step that loses the connection: `onerror` runs on it, and then the listeners of errors that
the server sends. -/
def Lost (o : Options) (c c' : SSEClient) : Prop :=
  c.state = .connected ∧ ∃ (i n : ℕ) (f : EventSource → EventSource) (event : MessageEvent),
    c' = (fun c => c.handleServerError o event)^[n] (attemptReconnect o (c.modifySource i f).lost)

lemma calm_dispatch_or {i : ℕ} {s : EventSource} (hs : s.temporary = true → s.permanent = 0)
    (f : EventSource → EventSource) (event : MessageEvent) :
    ¬ ((c.modifySource i f).Loses ∧ 0 < s.permanent ∧ event.type = "error") ∧
        Calm c ((c.modifySource i f).dispatch o i s event) ∨
      ((c.modifySource i f).Loses ∧ 0 < s.permanent ∧ event.type = "error") ∧
        Lost o c ((c.modifySource i f).dispatch o i s event) := by
  have hmodify : Calm c (c.modifySource i f) := le_rfl
  rw [dispatch]
  split
  next htype =>
    refine .inl ⟨fun h => by rw [htype] at h; exact absurd h.2.2 (by decide), ?_⟩
    split
    next => exact hmodify.trans (calm_receive _ event)
    next => exact hmodify
  split
  next htype =>
    refine .inl ⟨fun h => by rw [htype] at h; exact absurd h.2.2 (by decide), ?_⟩
    split
    next => exact hmodify.trans (calm_handleOpen _ i)
    next => exact hmodify
  split
  next htype =>
    rcases calm_failed_or (c := c.modifySource i f) (o := o) (i := i) hs
      with ⟨hnot, hcalm⟩ | ⟨⟨hloses, hpermanent⟩, hlost⟩
    · refine .inl ⟨fun h => hnot ⟨h.1, h.2.1⟩, ?_⟩
      exact (hmodify.trans hcalm).trans (Calm.iterate (calm_handleServerError · event) _ _)
    · refine .inr ⟨⟨hloses, hpermanent, htype⟩, hloses.1, i, s.permanent, f, event, ?_⟩
      dsimp only at hlost ⊢
      rw [hlost]
  next hnot =>
    refine .inl ⟨fun h => hnot h.2.2, ?_⟩
    split
    next => exact hmodify.trans (Calm.iterate (calm_handleCloseEvent · event) _ _)
    next => exact hmodify.trans (Calm.iterate (calm_receive · event) _ _)

/-- A change of the `EventSource` that fails closes the connection only if it is the current one. -/
lemma loses_modifySource_iff (h : Reentrant.Sound c) {i : ℕ} {s : EventSource}
    (hs : c.sources[i]? = some s) (f : EventSource → EventSource) :
    (c.modifySource i f).Loses ↔
      c.state = .connected ∧ ¬ ((f s).readyState = .closed ∧ c.eventSource = some i) := by
  refine and_congr_right fun hstate => ?_
  obtain ⟨j, t, hj, ht, hopen, -⟩ := h.attached hstate
  have hcurrent : (c.modifySource i f).current = some (if i = j then f t else t) := by
    rw [current, modifySource]
    dsimp only
    rw [hj, Option.bind_some, List.getElem?_modify, ht]
    rfl
  rw [hcurrent, hj]
  by_cases hij : i = j
  · subst hij
    obtain rfl := Option.some.inj (hs.symm.trans ht)
    simp
  · simp [hij, Ne.symm hij, hopen]

/-- **What a step counts**: nothing, a lost connection, or an attempt that has failed. -/
lemma step_calm_or {a : Action} (h : Reentrant.Sound c) (hstep : c.step o a = some c') :
    a ≠ .retry ∧ ¬ c.Requests a ∧ Calm c c' ∨ c.Requests a ∧ Lost o c c' ∨
      a = .retry ∧ 0 < c.rejections ∧
        c' = attemptReconnect o { c with rejections := c.rejections - 1 } := by
  have hnot {i : ℕ} {s : EventSource} (hs : c.sources[i]? = some s)
      (hopen : s.readyState ≠ .closed) (htemporary : s.temporary = true) : s.permanent = 0 :=
    (h.waits i s ⟨hs, htemporary, hopen⟩).2.2.1
  have hlistens {i : ℕ} {s : EventSource} (hs : c.sources[i]? = some s) :
      c.Listens i ↔ 0 < s.permanent := by simp [Listens, hs]
  cases a with
  | «open» i =>
      obtain ⟨s, -, -, rfl⟩ := step_open hstep
      have hmodify : Calm c (c.modifySource i fun s => { s with readyState := .open }) :=
        le_rfl
      refine .inl ⟨by rintro ⟨⟩, id, ?_⟩
      rw [sourceOpen]
      split
      next => exact hmodify.trans (calm_handleOpen _ i)
      next => exact hmodify
  | error i fatal =>
      obtain ⟨s, hs, hopen, rfl⟩ := step_error hstep
      set f : EventSource → EventSource :=
        fun s => { s with readyState := if fatal then .closed else .connecting } with hf
      have hfatal : (f s).readyState = .closed ↔ fatal = true := by cases fatal <;> simp [hf]
      have hrequests : c.Requests (.error i fatal) ↔
          (c.modifySource i f).Loses ∧ 0 < s.permanent := by
        rw [Requests, hlistens hs, loses_modifySource_iff h hs, hfatal, and_assoc]
        exact and_congr_right fun _ => and_comm
      rcases calm_failed_or (o := o) (i := i) (c := c.modifySource i f) (hnot hs hopen)
        with ⟨hcalm, hstill⟩ | ⟨hlost, heq⟩
      · exact .inl ⟨by rintro ⟨⟩, fun hr => hcalm (hrequests.mp hr), hstill⟩
      · exact .inr (.inl ⟨hrequests.mpr hlost, hlost.1.1, i, 0, _, ⟨"", "", ""⟩, heq⟩)
  | message i type data id =>
      obtain ⟨s, hs, hopen, rfl⟩ := step_message hstep
      have hopen' : s.readyState ≠ .closed := by
        rw [hopen]
        rintro ⟨⟩
      set f : EventSource → EventSource :=
        fun t => { t with lastEventId := id.getD s.lastEventId } with hf
      have hnever : ¬ ((f s).readyState = .closed ∧ c.eventSource = some i) := fun hc => hopen' hc.1
      have hrequests : c.Requests (.message i type data id) ↔
          (c.modifySource i f).Loses ∧ 0 < s.permanent ∧ type = "error" := by
        rw [Requests, hlistens hs, loses_modifySource_iff h hs, and_iff_left hnever]
      rcases calm_dispatch_or (c := c) (o := o) (i := i) (hnot hs hopen') f
        ⟨type, data, id.getD s.lastEventId⟩ with ⟨hcalm, hstill⟩ | ⟨hlost, heq⟩
      · exact .inl ⟨by rintro ⟨⟩, fun hr => hcalm (hrequests.mp hr), hstill⟩
      · exact .inr (.inl ⟨hrequests.mpr hlost, heq⟩)
  | reconnect thrown =>
      obtain ⟨-, rfl⟩ := step_reconnect hstep
      have hstart : Calm c { c with reconnectTimers := c.reconnectTimers - 1 } := Nat.sub_le _ _
      refine .inl ⟨by rintro ⟨⟩, id, ?_⟩
      rw [reconnect]
      split
      next => exact hstart
      next =>
        have hcalm := calm_connect (o := o)
          { c with reconnectTimers := c.reconnectTimers - 1, state := .connecting } true thrown
        exact le_trans hcalm (Nat.sub_le _ _)
  | retry =>
      obtain ⟨hpos, rfl⟩ := stepWith_inv hstep
      exact .inr (.inr ⟨rfl, hpos, rfl⟩)
  | heartbeat =>
      obtain ⟨-, rfl⟩ := step_heartbeat hstep
      exact .inl ⟨by rintro ⟨⟩, id, calm_handleHeartbeatTimeout c⟩
  | on event handler =>
      obtain rfl := Option.some.inj hstep
      exact .inl ⟨by rintro ⟨⟩, id, (Reentrant.on_alike c event handler).reconnectTimers.le⟩
  | off event handler =>
      obtain rfl := Option.some.inj hstep
      exact .inl ⟨by rintro ⟨⟩, id, (Reentrant.off_alike c event handler).reconnectTimers.le⟩
  | close =>
      obtain rfl := Option.some.inj hstep
      exact .inl ⟨by rintro ⟨⟩, id, calm_close c⟩

/-! ### Giving up -/

/-- No error handler is told of the last request. -/
def Untold (c c' : SSEClient) : Prop :=
  ∃ calls, c'.calls = c.calls ++ calls ∧ ∀ (handler n : ℕ),
    (⟨handler, "error", .connectionError "Max reconnection attempts exceeded" .disconnected n⟩ :
      Call) ∉ calls

/-- What a request comes to. -/
def Ends (m : ℕ) (c c' : SSEClient) : Prop :=
  if m ≤ 1 then c'.reconnectTimers = 0 ∧ c'.state = .closed ∧ Untold c c'
  else 0 < c'.reconnectTimers

lemma retry_ends (h : Reentrant.Sound c) (hpos : 0 < c.rejections) :
    Ends m c (attemptReconnect (upTo m o) { c with rejections := c.rejections - 1 }) := by
  have hle := h.atMostOne
  obtain ⟨-, -, hattempts⟩ := h.underWay (by omega)
  have hone : ({ c with rejections := c.rejections - 1 } : SSEClient).reconnectAttempts = 1 :=
    hattempts
  rw [request_ends hone, Ends]
  split
  next =>
    refine ⟨?_, (close_shut _).state, [], ?_, nofun⟩
    · rw [(Reentrant.close_emitted _).reconnectTimers]
      dsimp only
      omega
    · rw [Reentrant.close_calls, List.append_nil]
  next => exact Nat.succ_pos _

lemma lost_calls (c : SSEClient) :
    c.lost.calls = c.calls ++ (c.registered "error").map fun handler =>
      ⟨handler, "error", .connectionError "SSE connection error - reconnecting" .disconnected
        (c.reconnectAttempts + 1)⟩ := by
  rw [lost, emitError, emit, registered]
  split
  next h =>
    dsimp only at h
    rw [h]
  next h =>
    dsimp only at h
    rw [h]
    simp

/-- **A lost connection.** -/
lemma lost_ends (h : Reentrant.Sound c) (hlost : Lost (upTo m o) c c') :
    Ends m c c' := by
  obtain ⟨hstate, i, n, f, event, rfl⟩ := hlost
  obtain ⟨-, hattempts⟩ := h.connected hstate
  have hzero : c.reconnectTimers = 0 := by
    by_contra hpos
    exact (h.underWay (by omega)).2.1 hstate
  set d := (c.modifySource i f).lost with hd
  obtain ⟨hcounted, htimers⟩ := emit_reconnect { c.modifySource i f with
    state := .disconnected, reconnectAttempts := c.reconnectAttempts + 1 } "error"
    (.connectionError "SSE connection error - reconnecting" .disconnected (c.reconnectAttempts + 1))
  have hone : d.reconnectAttempts = 1 := hcounted.trans (by rw [hattempts])
  have hnone : d.reconnectTimers = 0 := htimers.trans hzero
  have hcalls : d.calls = c.calls ++ _ := lost_calls (c.modifySource i f)
  rw [request_ends hone, Ends]
  split
  next =>
    have hemitted := Reentrant.close_emitted d
    rw [Function.iterate_fixed (handleServerError_of_no_handlers (close_handlers d) event)]
    refine ⟨hemitted.reconnectTimers.trans hnone, (close_shut d).state, _,
      (Reentrant.close_calls d).trans hcalls, fun handler n hmem => ?_⟩
    obtain ⟨k, -, hk⟩ := List.mem_map.mp hmem
    simp at hk
  next =>
    have hkeeps : ∀ n, ((fun c => handleServerError (upTo m o) c event)^[n]
        { d with reconnectTimers := d.reconnectTimers + 1 }).reconnectTimers = 1 := by
      intro n
      induction n with
      | zero => simp [hnone]
      | succ n ih =>
          rw [Function.iterate_succ_apply', handleServerError_reconnectTimers]
          exact ih
    rw [hkeeps n]
    exact Nat.one_pos

/-! ### Steps -/

lemma sound_plain {a : Action} (h : Reentrant.Sound c) (hstep : c.step o a = some c') :
    Reentrant.Sound c' := by
  rw [← Reentrant.step_never] at hstep
  exact h.step hstep

lemma request_outcome {a : Action} (h : Reentrant.Sound c) (hstep : c.step (upTo m o) a = some c')
    (hrequests : c.Requests a) : Ends m c c' := by
  rcases step_calm_or h hstep with ⟨-, hnot, -⟩ | ⟨-, hlost⟩ | ⟨-, hpos, rfl⟩
  · exact absurd hrequests hnot
  · exact lost_ends h hlost
  · exact retry_ends h hpos

variable {t t' : Trial}

lemma trialStep_eq_some {a : Action} (h : trialStep o t a = some t') :
    t.client.step o a = some t'.client ∧
      t'.attempts = if t'.client.state = .connected then 0
        else if attempt a ∧ t.client.state ≠ .closed then t.attempts + 1
        else t.attempts := by
  obtain ⟨client, hclient, rfl⟩ := Option.map_eq_some_iff.mp h
  exact ⟨hclient, rfl⟩

/-- The attempts so far keep to the bound, and one is left if another one is to follow. -/
structure Within (m : ℕ) (t : Trial) : Prop where
  sound : Reentrant.Sound t.client
  attempts : t.attempts ≤ m
  left : 0 < t.client.reconnectTimers → t.client.closeCalled = false → t.attempts < m

lemma reconnect_reconnectTimers (c : SSEClient) (thrown : Option String) :
    (reconnect o { c with reconnectTimers := c.reconnectTimers - 1 } thrown).reconnectTimers ≤
      c.reconnectTimers - 1 := by
  rw [reconnect]
  split
  next => exact le_rfl
  next => exact calm_connect _ true thrown

/-- **The timer of a reconnection fires.** -/
lemma Within.reconnect (h : Within m t) {thrown : Option String}
    (hstep : trialStep (upTo m o) t (.reconnect thrown) = some t') : Within m t' := by
  obtain ⟨hclient, hattempts⟩ := trialStep_eq_some hstep
  obtain ⟨htimer, hfired⟩ := step_reconnect hclient
  have hle := h.sound.atMostOne
  have hnone : t'.client.reconnectTimers = 0 := by
    have := reconnect_reconnectTimers (o := upTo m o) t.client thrown
    rw [hfired] at this
    omega
  refine ⟨sound_plain h.sound hclient, ?_, fun hpos => absurd hpos (by omega)⟩
  rw [hattempts]
  split
  next => exact Nat.zero_le m
  split
  next hopen => exact h.left htimer (h.sound.toTidy.not_closeCalled hopen.2)
  next => exact h.attempts

/-- **A step that meets the condition.** -/
lemma Within.step {a : Action} (h : Within m t) (hb : Bounded m o t a)
    (hstep : trialStep (upTo m o) t a = some t') : Within m t' := by
  by_cases ha : ∃ thrown, a = .reconnect thrown
  · obtain ⟨thrown, rfl⟩ := ha
    exact h.reconnect hstep
  obtain ⟨hclient, hattempts⟩ := trialStep_eq_some hstep
  have hnot : attempt a = false := by
    cases a with
    | reconnect thrown => exact absurd ⟨thrown, rfl⟩ ha
    | «open» | error | message | retry | heartbeat | on | off | close => rfl
  have hle : t'.attempts ≤ t.attempts := by
    rw [hattempts, hnot]
    split
    next => exact Nat.zero_le _
    next => simp
  refine ⟨sound_plain h.sound hclient, hle.trans h.attempts, fun htimers hcalled => ?_⟩
  have hopen : t.client.closeCalled = false := by
    by_contra hclosed
    rw [← Reentrant.step_never] at hclient
    rw [h.sound.closeCalled hclient (by simpa using hclosed)] at hcalled
    cases hcalled
  refine lt_of_le_of_lt hle ?_
  have hrequest (hrequests : t.client.Requests a) : t.attempts < m := by
    have hends := request_outcome h.sound hclient hrequests
    have hleft := hb t' hstep hrequests
    rw [Ends] at hends
    split at hends
    next => omega
    next hlarge => rwa [if_neg hlarge] at hleft
  rcases step_calm_or h.sound hclient with ⟨-, -, hcalm⟩ | ⟨hrequests, -⟩ | ⟨rfl, -, -⟩
  · exact h.left (lt_of_lt_of_le htimers hcalm) hopen
  · exact hrequest hrequests
  · exact hrequest hopen

lemma Within.givesUp {a : Action} (h : Within m t) (hb : Bounded m o t a) : GivesUp m o t a := by
  intro t' hstep
  refine ⟨(h.step hb hstep).attempts, fun hrequests => ?_⟩
  have hends := request_outcome h.sound (trialStep_eq_some hstep).1 hrequests
  have hleft := hb t' hstep hrequests
  rw [Ends] at hends
  split at hends
  next hsmall =>
    rw [if_pos hsmall] at hleft
    rw [if_neg (by omega)]
    refine ⟨hends.2.1, fun handler hmem => ?_⟩
    rw [hleft] at hmem
    cases hmem
  next hlarge =>
    rw [if_neg hlarge] at hleft
    rwa [if_pos hends]

lemma bounded_of_givesUp {a : Action} (h : Reentrant.Sound t.client) (hg : GivesUp m o t a) :
    Bounded m o t a := by
  intro t' hstep hrequests
  have hends := request_outcome h (trialStep_eq_some hstep).1 hrequests
  have hlast := (hg t' hstep).2 hrequests
  rw [Ends] at hends
  split at hends
  next hsmall =>
    obtain ⟨hnone, -, calls, hcalls, huntold⟩ := hends
    rw [if_neg (by omega)] at hlast
    rw [if_pos hsmall, List.eq_nil_iff_forall_not_mem]
    intro handler hmem
    have htold := hlast.2 handler hmem
    rw [hcalls, List.drop_left] at htold
    exact huntold _ _ htold
  next hlarge =>
    rw [if_pos hends] at hlast
    rwa [if_neg hlarge]

/-! ### Runs -/

/-- **A client gives up as it should exactly if it may try once at most and has no error handlers,
or may try more often and has an attempt left at each request.** -/
theorem givesUp_iff_bounded (m : ℕ) (o : Options) (thrown : Option String) (as : List Action) :
    Meets (trialStep (upTo m o)) (GivesUp m o) ⟨create (upTo m o) thrown, 0⟩ as ↔
      Meets (trialStep (upTo m o)) (Bounded m o) ⟨create (upTo m o) thrown, 0⟩ as := by
  have hsound : Reentrant.Sound (create (upTo m o) thrown) := by
    rw [← Reentrant.create_never]
    exact Reentrant.create_sound thrown
  have hnone : (create (upTo m o) thrown).reconnectTimers = 0 :=
    Nat.le_zero.mp (calm_connect {} false thrown)
  constructor
  · exact Meets.mono (I := fun t => Reentrant.Sound t.client)
      (fun _ _ _ hs _ hstep => sound_plain hs (trialStep_eq_some hstep).1)
      (fun _ _ hs hg => bounded_of_givesUp hs hg) hsound
  · refine Meets.mono (I := Within m) (fun _ _ _ hs hb hstep => hs.step hb hstep)
      (fun _ _ hs hb => hs.givesUp hb) ⟨hsound, Nat.zero_le m, fun hpos => ?_⟩
    exact absurd hpos (by rw [hnone]; exact lt_irrefl 0)

/-- Two attempts are allowed and both of them fail: the client asks for a third one. -/
theorem not_givesUp_twice :
    ¬ Meets (trialStep (upTo 2 reconnecting)) (GivesUp 2 reconnecting)
      ⟨create (upTo 2 reconnecting) none, 0⟩
      [.open 0, .error 0 false, .reconnect none, .error 1 false, .retry, .reconnect none,
        .error 2 false, .retry] := by
  intro h
  have hrun : (exec (trialStep (upTo 2 reconnecting)) ⟨create (upTo 2 reconnecting) none, 0⟩
      [.open 0, .error 0 false, .reconnect none, .error 1 false, .retry, .reconnect none,
        .error 2 false]).any fun t =>
        t.attempts = 2 ∧ t.client.closeCalled = false ∧
          (trialStep (upTo 2 reconnecting) t .retry).any fun t' =>
            0 < t'.client.reconnectTimers := by decide +kernel
  obtain ⟨t, ht, hasks⟩ := (Option.any_eq_true _ _).mp hrun
  obtain ⟨htwo, hopen, hstep⟩ := of_decide_eq_true hasks
  obtain ⟨t', ht', htimers⟩ := (Option.any_eq_true _ _).mp hstep
  have hsplit : Meets (trialStep (upTo 2 reconnecting)) (GivesUp 2 reconnecting)
      ⟨create (upTo 2 reconnecting) none, 0⟩
      ([.open 0, .error 0 false, .reconnect none, .error 1 false, .retry, .reconnect none,
        .error 2 false] ++ [.retry]) := h
  have hlast := (((meets_append ht).mp hsplit).2.1 t' ht').2 hopen
  rw [if_pos (of_decide_eq_true htimers), htwo] at hlast
  exact lt_irrefl 2 hlast

end SSEClient

end Blaize.Client
