import Blaize.Client.Handled

/-!
One connection at a time.

`attemptReconnect` creates a new `EventSource` and forgets the old one, which after an error
is still open or tries to reconnect by itself.

* `SSEClient.Single`: at most one `EventSource` is not closed, and none after `close`;
* `SSEClient.OnlyCurrent`: the invariant, what is not closed is the current one;
* `SSEClient.NoLeak`: no timer replaces an `EventSource` that is not closed;
* `single_iff_noLeak`: **a run keeps to one connection exactly when it has no leak**;
* `not_single_reconnect`: one failure of the connection and one reconnection are enough.
-/

namespace Blaize.Client

open Machine

namespace SSEClient

variable {o : Options} {c c' : SSEClient}

/-! ### The property -/

/-- At most one `EventSource` is not closed, and after `close` none. -/
structure Single (c : SSEClient) : Prop where
  unique : ∀ (i j : ℕ) (s t : EventSource), c.sources[i]? = some s → c.sources[j]? = some t →
    s.readyState ≠ .closed → t.readyState ≠ .closed → i = j
  closed : c.closeCalled → ∀ s ∈ c.sources, s.readyState = .closed

/-- When the timer of `attemptReconnect` creates an `EventSource`, the current one is
closed, if there is one. -/
def NoLeak (o : Options) (c : SSEClient) : Action → Prop
  | .reconnect none =>
      0 < c.reconnectTimers → c.state ≠ .closed → o.url.isSome →
        ∀ s, c.current = some s → s.readyState = .closed
  | _ => True

/-- Every `EventSource` that is not closed is the current one. -/
def OnlyCurrent (c : SSEClient) : Prop :=
  ∀ (i : ℕ) (s : EventSource), c.sources[i]? = some s → s.readyState ≠ .closed →
    c.eventSource = some i

/-- The invariant of a run without a leak. -/
structure OneOpen (c : SSEClient) : Prop where
  onlyCurrent : c.OnlyCurrent
  isSealed : c.Sealed

lemma OneOpen.closeCalled_eq_false (h : c.OneOpen) {i : ℕ} {s : EventSource}
    (hs : c.sources[i]? = some s) (ho : s.readyState ≠ .closed) : c.closeCalled = false := by
  by_contra hc
  have hnone := (h.isSealed (by simpa using hc)).eventSource
  rw [h.onlyCurrent i s hs ho] at hnone
  cases hnone

lemma OneOpen.single (h : c.OneOpen) : c.Single where
  unique i j s t hs ht hso hto :=
    Option.some.inj ((h.onlyCurrent i s hs hso).symm.trans (h.onlyCurrent j t ht hto))
  closed hc s hs := by
    obtain ⟨i, hi⟩ := List.getElem?_of_mem hs
    by_contra ho
    have := h.closeCalled_eq_false hi ho
    rw [this] at hc
    cases hc

/-! ### What keeps the invariant -/

lemma OnlyCurrent.of_readyStates (h : c.OnlyCurrent) (he : c'.eventSource = c.eventSource)
    (hs : c'.sources.map (·.readyState) = c.sources.map (·.readyState)) : c'.OnlyCurrent := by
  intro i s' hs' ho
  have hi := congrArg (·[i]?) hs
  simp only [List.getElem?_map, hs', Option.map_some] at hi
  obtain ⟨s, hs, hr⟩ := Option.map_eq_some_iff.mp hi.symm
  rw [he]
  exact h i s hs (by rw [hr]; exact ho)

lemma OnlyCurrent.of_keeps (h : c.OnlyCurrent) (hk : c.Keeps c') : c'.OnlyCurrent := by
  refine h.of_readyStates hk.eventSource ?_
  have := congrArg (List.map Prod.fst) hk.sources
  simpa only [List.map_map, Function.comp_def, EventSource.core] using this

/-- Any change of the current `EventSource`. -/
lemma OnlyCurrent.modifySource (h : c.OnlyCurrent) {i : ℕ} (hi : c.eventSource = some i)
    (f : EventSource → EventSource) : (c.modifySource i f).OnlyCurrent := by
  intro j s' hs' ho
  simp only [SSEClient.modifySource, List.getElem?_modify] at hs'
  obtain ⟨s, hs, rfl⟩ := Option.map_eq_some_iff.mp hs'
  split at ho
  next hij => rw [← hij]; exact hi
  next => exact h j s hs ho

/-- Closing the current `EventSource` and forgetting it. -/
lemma OnlyCurrent.drop (h : c.OnlyCurrent) {i : ℕ} (hi : c.eventSource = some i)
    {f : EventSource → EventSource} (hf : ∀ s, (f s).readyState = .closed) :
    { c.modifySource i f with eventSource := none }.OnlyCurrent := by
  intro j s' hs' ho
  exfalso
  simp only [SSEClient.modifySource, List.getElem?_modify] at hs'
  obtain ⟨s, hs, rfl⟩ := Option.map_eq_some_iff.mp hs'
  split at ho
  next => exact ho (hf s)
  next hij => exact hij (Option.some.inj (hi.symm.trans (h j s hs ho)))

lemma OnlyCurrent.close (h : c.OnlyCurrent) : c.close.OnlyCurrent := by
  cases hi : c.eventSource with
  | none =>
      rw [close_eq_of_none hi]
      exact h
  | some i =>
      rw [close_eq_of_some hi]
      exact h.drop hi fun _ => rfl

lemma OnlyCurrent.of_handled (h : c.OnlyCurrent) (hc : c.Handled c') : c'.OnlyCurrent := by
  rcases hc with hk | ⟨d, hk, hk'⟩
  · exact h.of_keeps hk
  · exact (h.of_keeps hk).close.of_keeps hk'

/-! ### After `close` -/

lemma sealed_of_not_closeCalled (h : c.closeCalled = false) : c.Sealed := by
  intro hc
  rw [h] at hc
  cases hc

lemma Sealed.emit (h : c.Sealed) (event : String) (data : Payload) :
    (c.emit event data).Sealed := by
  rw [SSEClient.emit]
  cases c.handlers.get event with
  | none => exact h
  | some handlers => exact fun hc => ⟨(h hc).1, (h hc).2, (h hc).3⟩

lemma sealed_close (c : SSEClient) : c.close.Sealed := fun _ => close_shut c

lemma Sealed.attemptReconnect (h : c.Sealed) : (c.attemptReconnect o).Sealed := by
  rw [SSEClient.attemptReconnect]
  split
  next => exact h
  next =>
    split
    next => exact (sealed_close c).emit _ _
    next => exact fun hc => ⟨(h hc).1, (h hc).2, (h hc).3⟩

/-- A client that was shut is not `'connected'`. -/
lemma Sealed.onerror (h : c.Sealed) : (c.onerror o).Sealed := by
  rw [SSEClient.onerror]
  split
  next hstate =>
    have hc : c.closeCalled = false := by
      by_contra hc
      have := (h (by simpa using hc)).state
      rw [hstate] at this
      cases this
    split
    next =>
      refine Sealed.emit ?_ _ _
      exact sealed_of_not_closeCalled hc
    next =>
      refine Sealed.attemptReconnect (Sealed.emit ?_ _ _)
      exact sealed_of_not_closeCalled hc
  next => exact h

lemma Sealed.handleServerError (h : c.Sealed) (event : MessageEvent) :
    (c.handleServerError o event).Sealed := by
  rw [SSEClient.handleServerError]
  split
  next => exact h
  next => exact h.emit _ _

lemma Sealed.handleCloseEvent (h : c.Sealed) (event : MessageEvent) :
    (c.handleCloseEvent o event).Sealed := by
  rw [SSEClient.handleCloseEvent]
  split
  next =>
    refine Sealed.emit ?_ _ _
    split
    next => exact h
    next => exact sealed_close c
  next => exact h

lemma sealed_of_keeps (h : c.closeCalled = false) (hk : c.Keeps c') : c'.Sealed :=
  sealed_of_not_closeCalled (hk.closeCalled.trans h)

lemma failed_sealed (hc : c.closeCalled = false) (i : ℕ) (s : EventSource) :
    (if 0 < s.permanent then
        (if s.temporary then c.handleInitialError i s.awaited else c).onerror o
      else if s.temporary then c.handleInitialError i s.awaited else c).Sealed := by
  have h : (if s.temporary then c.handleInitialError i s.awaited else c).Sealed := by
    split
    next => exact sealed_of_keeps hc (handleInitialError_keeps c i s.awaited)
    next => exact sealed_of_not_closeCalled hc
  split
  next => exact h.onerror
  next => exact h

lemma dispatch_sealed (hc : c.closeCalled = false) (i : ℕ) (s : EventSource)
    (event : MessageEvent) : (c.dispatch o i s event).Sealed := by
  have h := sealed_of_not_closeCalled hc
  rw [dispatch]
  split
  next =>
    split
    next => exact sealed_of_keeps hc (receive_keeps c event)
    next => exact h
  split
  next =>
    split
    next => exact sealed_of_keeps hc (handleOpen_keeps c i)
    next => exact h
  split
  next =>
    exact Function.Iterate.rec Sealed (failed_sealed hc i s)
      (fun c hc => hc.handleServerError event) _
  split
  next => exact Function.Iterate.rec Sealed h (fun c hc => hc.handleCloseEvent event) _
  next =>
    have hk : ∀ n, c.Keeps ((fun c => c.receive o event)^[n] c) :=
      fun n => Function.Iterate.rec c.Keeps (Keeps.refl c)
        (fun d hd => hd.trans (receive_keeps d event)) n
    exact sealed_of_keeps hc (hk _)

lemma sourceOpen_sealed (hc : c.closeCalled = false) (i : ℕ) (s : EventSource) :
    (c.sourceOpen o i s).Sealed := by
  rw [sourceOpen]
  split
  next => exact sealed_of_not_closeCalled ((handleOpen_keeps _ i).closeCalled.trans hc)
  next => exact sealed_of_not_closeCalled hc

lemma sourceError_sealed (hc : c.closeCalled = false) (i : ℕ) (s : EventSource) (fatal : Bool) :
    (c.sourceError o i s fatal).Sealed := by
  have hc' : (c.modifySource i fun s =>
      { s with readyState := if fatal then .closed else .connecting }).closeCalled = false := hc
  exact failed_sealed hc' i s

lemma sourceMessage_sealed (hc : c.closeCalled = false) (i : ℕ) (s : EventSource)
    (type data : String) (id : Option String) :
    (c.sourceMessage o i s type data id).Sealed := by
  have hc' : (c.modifySource i fun t =>
      { t with lastEventId := id.getD s.lastEventId }).closeCalled = false := hc
  exact dispatch_sealed hc' i s _

/-! ### Steps -/

/-- `on` and `off` leave the connections alone. -/
structure SameConnections (c c' : SSEClient) : Prop where
  readyStates : c'.sources.map (·.readyState) = c.sources.map (·.readyState)
  eventSource : c'.eventSource = c.eventSource
  state : c'.state = c.state
  heartbeatTimer : c'.heartbeatTimer = c.heartbeatTimer
  closeCalled : c'.closeCalled = c.closeCalled

lemma on_sameConnections (c : SSEClient) (event : String) (handler : ℕ) :
    c.SameConnections (c.on event handler) := by
  rw [on.eq_def]
  split
  next => exact ⟨rfl, rfl, rfl, rfl, rfl⟩
  split
  next => exact ⟨rfl, rfl, rfl, rfl, rfl⟩
  next =>
    dsimp only
    split
    next =>
      split
      next =>
        refine ⟨map_modify_eq ?_ _ _, rfl, rfl, rfl, rfl⟩
        exact fun _ => rfl
      next => exact ⟨rfl, rfl, rfl, rfl, rfl⟩
    next => exact ⟨rfl, rfl, rfl, rfl, rfl⟩

lemma off_sameConnections (c : SSEClient) (event : String) (handler : Option ℕ) :
    c.SameConnections (c.off event handler) := by
  rw [off.eq_def]
  split
  next => exact ⟨rfl, rfl, rfl, rfl, rfl⟩
  split
  next => exact ⟨rfl, rfl, rfl, rfl, rfl⟩
  next =>
    dsimp only
    split
    next =>
      split
      next =>
        refine ⟨map_modify_eq ?_ _ _, rfl, rfl, rfl, rfl⟩
        exact fun _ => rfl
      next => exact ⟨rfl, rfl, rfl, rfl, rfl⟩
    next => exact ⟨rfl, rfl, rfl, rfl, rfl⟩

lemma OneOpen.of_sameConnections (h : c.OneOpen) (hs : c.SameConnections c') : c'.OneOpen where
  onlyCurrent := h.onlyCurrent.of_readyStates hs.eventSource hs.readyStates
  isSealed hc := by
    have hshut := h.isSealed (hs.closeCalled.symm.trans hc)
    exact ⟨hs.state.trans hshut.state, hs.eventSource.trans hshut.eventSource,
      hs.heartbeatTimer.trans hshut.heartbeatTimer⟩

/-- A new `EventSource`, where the current one is closed. -/
lemma OnlyCurrent.append (h : c.OnlyCurrent)
    (hclosed : ∀ s, c.current = some s → s.readyState = .closed) (s : EventSource)
    (handled : Bool) :
    { c with
      sources := c.sources ++ [s]
      eventSource := some c.sources.length
      connectionHandled := handled }.OnlyCurrent := by
  intro i t ht ho
  rcases Nat.lt_trichotomy i c.sources.length with hlt | rfl | hgt
  · rw [List.getElem?_append_left hlt] at ht
    have hcur : c.current = some t := by rw [current, h i t ht ho]; exact ht
    exact absurd (hclosed t hcur) ho
  · rfl
  · rw [List.getElem?_eq_none (by simp; omega)] at ht
    cases ht

lemma OnlyCurrent.connect (h : c.OnlyCurrent) (hc : c.closeCalled = false) (awaited : Bool)
    (thrown : Option String)
    (hclosed : thrown = none → o.url.isSome → ∀ s, c.current = some s → s.readyState = .closed) :
    (c.connect o awaited thrown).OneOpen := by
  rw [SSEClient.connect.eq_def]
  split
  next =>
    have hk := connectFailed_keeps c awaited "Invalid URL"
    exact ⟨h.of_keeps hk, sealed_of_keeps hc hk⟩
  next message _ =>
    have hk := connectFailed_keeps c awaited message
    exact ⟨h.of_keeps hk, sealed_of_keeps hc hk⟩
  next url hurl =>
    have happend := h.append (hclosed rfl (by rw [hurl]; rfl))
      { url := c.buildConnectionUrl o url, awaited } false
    have hk := startHeartbeatTimer_keeps (o := o)
      { c with
        sources := c.sources ++ [{ url := c.buildConnectionUrl o url, awaited }]
        eventSource := some c.sources.length
        connectionHandled := false }
    exact ⟨happend.of_keeps hk, sealed_of_not_closeCalled (hk.closeCalled.trans hc)⟩

lemma handleHeartbeatTimeout_oneOpen (h : c.OneOpen) (hc : c.closeCalled = false) :
    c.handleHeartbeatTimeout.OneOpen := by
  have hk : c.Keeps ({ c with state := .disconnected, heartbeatTimer := false }.emitError
      (.heartbeatError "SSE heartbeat timeout - connection may be dead" c.lastEventId)) := by
    refine Keeps.trans ?_ (emit_keeps _ _ _)
    exact ⟨rfl, rfl, rfl, rfl, rfl⟩
  rw [handleHeartbeatTimeout.eq_def]
  dsimp only
  split
  next i hi =>
    refine ⟨(h.onlyCurrent.of_keeps hk).drop hi ?_, sealed_of_not_closeCalled ?_⟩
    · exact fun _ => rfl
    · exact hk.closeCalled.trans hc
  next => exact ⟨h.onlyCurrent.of_keeps hk, sealed_of_keeps hc hk⟩

/-- **One step without a leak.** -/
lemma step_oneOpen {a : Action} (h : c.step o a = some c') (hc : c.OneOpen)
    (ha : c.NoLeak o a) : c'.OneOpen := by
  cases a with
  | «open» i =>
      obtain ⟨s, hs, hr, rfl⟩ := step_open h
      have hopen : s.readyState ≠ .closed := by rw [hr]; nofun
      exact ⟨(hc.onlyCurrent.modifySource (hc.onlyCurrent i s hs hopen) _).of_handled
        (sourceOpen_handled c i s), sourceOpen_sealed (hc.closeCalled_eq_false hs hopen) i s⟩
  | error i fatal =>
      obtain ⟨s, hs, hopen, rfl⟩ := step_error h
      exact ⟨(hc.onlyCurrent.modifySource (hc.onlyCurrent i s hs hopen) _).of_handled
        (sourceError_handled c i s fatal),
        sourceError_sealed (hc.closeCalled_eq_false hs hopen) i s fatal⟩
  | message i type data id =>
      obtain ⟨s, hs, hr, rfl⟩ := step_message h
      have hopen : s.readyState ≠ .closed := by rw [hr]; nofun
      exact ⟨hc.onlyCurrent.of_handled (sourceMessage_handled c i s type data id),
        sourceMessage_sealed (hc.closeCalled_eq_false hs hopen) i s type data id⟩
  | reconnect thrown =>
      obtain ⟨htimer, rfl⟩ := step_reconnect h
      rw [reconnect]
      split
      next =>
        exact ⟨hc.onlyCurrent,
          fun h => ⟨(hc.isSealed h).1, (hc.isSealed h).2, (hc.isSealed h).3⟩⟩
      next hstate =>
        have hcc : c.closeCalled = false := by
          by_contra hcc
          exact hstate (hc.isSealed (by simpa using hcc)).state
        have honly : { c with
            reconnectTimers := c.reconnectTimers - 1, state := .connecting }.OnlyCurrent :=
          hc.onlyCurrent
        refine honly.connect hcc true thrown ?_
        rintro rfl hurl
        exact ha htimer hstate hurl
  | retry =>
      obtain rfl := step_retry h
      have hc' : { c with rejections := c.rejections - 1 }.OneOpen :=
        ⟨hc.onlyCurrent, fun h => ⟨(hc.isSealed h).1, (hc.isSealed h).2, (hc.isSealed h).3⟩⟩
      exact ⟨hc'.onlyCurrent.of_handled (attemptReconnect_handled _), hc'.isSealed.attemptReconnect⟩
  | heartbeat =>
      obtain ⟨htimer, rfl⟩ := step_heartbeat h
      refine handleHeartbeatTimeout_oneOpen hc ?_
      by_contra hcc
      have := (hc.isSealed (by simpa using hcc)).heartbeatTimer
      rw [htimer] at this
      cases this
  | on event handler =>
      obtain rfl := Option.some.inj h
      exact hc.of_sameConnections (on_sameConnections c event handler)
  | off event handler =>
      obtain rfl := Option.some.inj h
      exact hc.of_sameConnections (off_sameConnections c event handler)
  | close =>
      obtain rfl := Option.some.inj h
      exact ⟨hc.onlyCurrent.close, sealed_close c⟩

/-- **A leak leaves two connections.** -/
lemma step_leak {a : Action} (ha : ¬ c.NoLeak o a) : ∃ c', c.step o a = some c' ∧ ¬ c'.Single := by
  rcases a with _ | _ | _ | (_ | _) | _ | _ | _ | _ | _
  case reconnect.none =>
      simp only [NoLeak, not_forall] at ha
      obtain ⟨htimer, hstate, hurl, s, hcur, hopen⟩ := ha
      obtain ⟨url, hurl⟩ := Option.isSome_iff_exists.mp hurl
      obtain ⟨i, hi, hs⟩ := Option.bind_eq_some_iff.mp hcur
      have hlt : i < c.sources.length := (List.getElem?_eq_some_iff.mp hs).1
      let new : EventSource := { url := c.buildConnectionUrl o url, awaited := true }
      let c₁ : SSEClient :=
        { c with
          reconnectTimers := c.reconnectTimers - 1
          state := .connecting
          sources := c.sources ++ [new]
          eventSource := some c.sources.length
          connectionHandled := false }
      have hstep : c.step o (.reconnect none) = some (c₁.startHeartbeatTimer o) := by
        rw [step, stepWith, if_pos htimer, reconnect, if_neg hstate, connect.eq_def, hurl]
        rfl
      have hsources : (c₁.startHeartbeatTimer o).sources = c.sources ++ [new] := by
        rw [startHeartbeatTimer]
        split <;> rfl
      refine ⟨_, hstep, fun hsingle => ?_⟩
      have := hsingle.unique i c.sources.length s new
        (by rw [hsources, List.getElem?_append_left hlt]; exact hs)
        (by rw [hsources]; simp) hopen (by rintro ⟨⟩)
      omega
  all_goals exact absurd trivial ha

lemma create_oneOpen (thrown : Option String) : (create o thrown).OneOpen := by
  have h : ({} : SSEClient).OnlyCurrent := by
    intro i s hs
    cases hs
  exact h.connect rfl false thrown fun _ _ s hs => by cases hs

/-- **One connection at a time, exactly without a leak**: at every moment of a run at most
one `EventSource` is not closed, and none after `close`, if and only if no timer creates an
`EventSource` while the current one is not closed. -/
theorem single_iff_noLeak (o : Options) (thrown : Option String) (as : List Action) :
    (∀ bs, bs <+: as → ∀ c, exec (step o) (create o thrown) bs = some c → c.Single) ↔
      Meets (step o) (NoLeak o) (create o thrown) as := by
  constructor
  · intro h
    refine meets_of_forall_initial fun bs a cs c has hc => ?_
    by_contra hleak
    obtain ⟨c', hstep, hnot⟩ := step_leak hleak
    refine hnot (h (bs ++ [a]) ⟨cs, by simp [has]⟩ c' ?_)
    rw [exec_append, hc, Option.bind_some, exec_cons, hstep]
    rfl
  · rintro h bs ⟨cs, rfl⟩ c hc
    exact (meets_invariant (fun _ _ _ hs hP hstep => step_oneOpen hstep hs hP)
      (create_oneOpen thrown) ((meets_append hc).mp h).1 hc).single

/-- The connection opens, is lost, and the timer fires: the lost `EventSource` goes on
trying to reconnect beside the new one, and `close` does not reach it. -/
theorem not_single_reconnect :
    ¬ ∀ bs, bs <+: [Action.open 0, .error 0 false, .reconnect none, .close] →
      ∀ c, exec (step reconnecting) (create reconnecting none) bs = some c → c.Single := by
  intro h
  have hrun : (exec (step reconnecting) (create reconnecting none)
      [.open 0, .error 0 false, .reconnect none, .close]).any fun c =>
        c.closeCalled && c.sources.any (·.readyState != .closed) := by decide +kernel
  obtain ⟨c, hc, hleft⟩ := (Option.any_eq_true _ _).mp hrun
  rw [Bool.and_eq_true, List.any_eq_true] at hleft
  obtain ⟨hcalled, s, hs, hopen⟩ := hleft
  have hclosed := (h _ List.prefix_rfl c hc).closed hcalled s hs
  rw [hclosed] at hopen
  cases hopen

end SSEClient

end Blaize.Client
