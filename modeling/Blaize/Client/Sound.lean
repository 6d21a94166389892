import Blaize.Client.Reentrant

/-!
What holds of a client of `sse-client.ts` between two steps, whatever its handlers close.

* `Tidy`, `Sound`: at most one reconnection is under way, only the current `EventSource` waits for
  its connection, and a client on which `close` was called is shut;
* `Sound.step`: **every step keeps this**;
* `Sound.still`: **a client on which `close` was called creates no `EventSource`**.
-/

namespace Blaize.Client.Reentrant

open SSEClient

variable {closing : ℕ → Bool} {o : Options} {c c' c'' : SSEClient}

/-! ### The invariant -/

/-- The `i`-th `EventSource` is `s`, waits for its connection, and is not closed. -/
structure Waits (c : SSEClient) (i : ℕ) (s : EventSource) : Prop where
  source : c.sources[i]? = some s
  temporary : s.temporary = true
  notClosed : s.readyState ≠ .closed

/-- A client at any time: at most one reconnection is under way, which has counted one attempt, and
only the current `EventSource` waits for its connection. -/
structure Tidy (c : SSEClient) : Prop where
  atMostOne : c.reconnectTimers + c.rejections ≤ 1
  underWay : 0 < c.reconnectTimers + c.rejections →
    c.connectionHandled = true ∧ c.state ≠ .connected ∧ c.reconnectAttempts = 1
  connected : c.state = .connected → c.connectionHandled = true ∧ c.reconnectAttempts = 0
  waits : ∀ i s, Waits c i s → c.eventSource = some i ∧ c.connectionHandled = false ∧
    s.permanent = 0 ∧ (s.awaited = true → c.reconnectAttempts = 1)
  permanent : ∀ (i : ℕ) (s : EventSource), c.sources[i]? = some s → s.permanent ≤ 1
  isSealed : c.Sealed

/-- A client between two steps: if it is connected, then by its current `EventSource`. -/
structure Sound (c : SSEClient) : Prop extends Tidy c where
  attached : c.state = .connected → ∃ i s, c.eventSource = some i ∧ c.sources[i]? = some s ∧
    s.readyState ≠ .closed ∧ s.temporary = false ∧ s.permanent = 1

lemma Tidy.sound (h : Tidy c) (hstate : c.state ≠ .connected) : Sound c :=
  ⟨h, fun hconnected => absurd hconnected hstate⟩

lemma Tidy.not_closeCalled (h : Tidy c) (hstate : c.state ≠ .closed) : c.closeCalled = false := by
  by_contra hcalled
  exact hstate (h.isSealed (by simpa using hcalled)).state

lemma Waits.current {i : ℕ} {s : EventSource} (hw : Waits c i s) (h : Tidy c) :
    c.eventSource = some i := (h.waits i s hw).1

lemma Waits.not_handled {i : ℕ} {s : EventSource} (hw : Waits c i s) (h : Tidy c) :
    c.connectionHandled = false := (h.waits i s hw).2.1

lemma Waits.not_closeCalled {i : ℕ} {s : EventSource} (hw : Waits c i s) (h : Tidy c) :
    c.closeCalled = false := by
  by_contra hcalled
  have hnone := (h.isSealed (by simpa using hcalled)).eventSource
  rw [hw.current h] at hnone
  cases hnone

/-- While a connection is awaited no reconnection is under way. -/
lemma Waits.nothingUnderWay {i : ℕ} {s : EventSource} (hw : Waits c i s) (h : Tidy c) :
    c.reconnectTimers + c.rejections = 0 := by
  by_contra hpos
  have hhandled := (h.underWay (by omega)).1
  rw [hw.not_handled h] at hhandled
  cases hhandled

/-! ### Changes that do not matter -/

/-- What the invariant reads of an `EventSource`. -/
def link (s : EventSource) : Bool × Bool × ℕ × Bool :=
  (s.readyState == .closed, s.temporary, s.permanent, s.awaited)

/-- The clients differ in the log, the handlers, the ids and the timer of the heartbeat only. -/
structure Alike (c c' : SSEClient) : Prop where
  sources : c'.sources.map link = c.sources.map link
  eventSource : c'.eventSource = c.eventSource
  reconnectTimers : c'.reconnectTimers = c.reconnectTimers
  rejections : c'.rejections = c.rejections
  reconnectAttempts : c'.reconnectAttempts = c.reconnectAttempts
  connectionHandled : c'.connectionHandled = c.connectionHandled
  state : c'.state = c.state
  closeCalled : c'.closeCalled = c.closeCalled
  heartbeatTimer : c.state = .closed → c.heartbeatTimer = false → c'.heartbeatTimer = false

lemma Alike.refl (c : SSEClient) : Alike c c :=
  ⟨rfl, rfl, rfl, rfl, rfl, rfl, rfl, rfl, fun _ h => h⟩

lemma Alike.source (h : Alike c c') {i : ℕ} {s' : EventSource} (hs' : c'.sources[i]? = some s') :
    ∃ s, c.sources[i]? = some s ∧ link s = link s' := by
  have hi := congrArg (·[i]?) h.sources
  simp only [List.getElem?_map, hs', Option.map_some] at hi
  exact Option.map_eq_some_iff.mp hi.symm

lemma Alike.symm_source (h : Alike c c') {i : ℕ} {s : EventSource}
    (hs : c.sources[i]? = some s) : ∃ s', c'.sources[i]? = some s' ∧ link s' = link s := by
  have hi := congrArg (·[i]?) h.sources
  simp only [List.getElem?_map, hs, Option.map_some] at hi
  exact Option.map_eq_some_iff.mp hi

lemma link_eq_iff {s t : EventSource} : link s = link t ↔
    (s.readyState = .closed ↔ t.readyState = .closed) ∧ s.temporary = t.temporary ∧
      s.permanent = t.permanent ∧ s.awaited = t.awaited := by
  simp only [link, Prod.mk.injEq]
  rw [Bool.eq_iff_iff, beq_iff_eq, beq_iff_eq]

lemma Tidy.of_alike (h : Tidy c) (ha : Alike c c') : Tidy c' where
  atMostOne := by
    rw [ha.reconnectTimers, ha.rejections]
    exact h.atMostOne
  underWay hpos := by
    rw [ha.reconnectTimers, ha.rejections] at hpos
    rw [ha.connectionHandled, ha.state, ha.reconnectAttempts]
    exact h.underWay hpos
  connected hstate := by
    rw [ha.connectionHandled, ha.reconnectAttempts]
    exact h.connected (ha.state.symm.trans hstate)
  waits i s' hw := by
    obtain ⟨s, hs, hlink⟩ := ha.source hw.source
    obtain ⟨hready, htemporary, hpermanent, hawaited⟩ := link_eq_iff.mp hlink
    rw [ha.eventSource, ha.connectionHandled, ha.reconnectAttempts, ← hpermanent, ← hawaited]
    exact h.waits i s ⟨hs, htemporary.trans hw.temporary, fun hc => hw.notClosed (hready.mp hc)⟩
  permanent i s' hs' := by
    obtain ⟨s, hs, hlink⟩ := ha.source hs'
    rw [← (link_eq_iff.mp hlink).2.2.1]
    exact h.permanent i s hs
  isSealed hcalled := by
    obtain ⟨hstate, hnone, htimer⟩ := h.isSealed (ha.closeCalled.symm.trans hcalled)
    exact ⟨ha.state.trans hstate, ha.eventSource.trans hnone, ha.heartbeatTimer hstate htimer⟩

lemma Sound.of_alike (h : Sound c) (ha : Alike c c') : Sound c' where
  toTidy := h.toTidy.of_alike ha
  attached hstate := by
    obtain ⟨i, s, hi, hs, hopen, htemporary, hpermanent⟩ :=
      h.attached (ha.state.symm.trans hstate)
    obtain ⟨s', hs', hlink⟩ := ha.symm_source hs
    obtain ⟨hready, htemporary', hpermanent', -⟩ := link_eq_iff.mp hlink
    exact ⟨i, s', ha.eventSource.trans hi, hs', fun hc => hopen (hready.mp hc),
      htemporary'.trans htemporary, hpermanent'.trans hpermanent⟩

lemma modifySource_alike (c : SSEClient) {i : ℕ} {s : EventSource} (hs : c.sources[i]? = some s)
    {f : EventSource → EventSource} (hf : link (f s) = link s) : Alike c (c.modifySource i f) := by
  refine ⟨?_, rfl, rfl, rfl, rfl, rfl, rfl, rfl, fun _ h => h⟩
  refine List.ext_getElem? fun j => ?_
  simp only [SSEClient.modifySource, List.getElem?_map, List.getElem?_modify]
  by_cases hij : i = j
  · subst hij
    simp [hs, hf]
  · simp [hij]

lemma modifySource_alike_of_forall (c : SSEClient) (i : ℕ) {f : EventSource → EventSource}
    (hf : ∀ s, link (f s) = link s) : Alike c (c.modifySource i f) :=
  ⟨map_modify_eq hf i c.sources, rfl, rfl, rfl, rfl, rfl, rfl, rfl, fun _ h => h⟩

lemma log_alike (c : SSEClient) (entry : Call) :
    Alike c { c with calls := c.calls ++ [entry] } :=
  ⟨rfl, rfl, rfl, rfl, rfl, rfl, rfl, rfl, fun _ h => h⟩

lemma resetHeartbeatTimer_alike (c : SSEClient) : Alike c (c.resetHeartbeatTimer o) := by
  refine ⟨rfl, rfl, rfl, rfl, rfl, rfl, rfl, rfl, fun hstate _ => ?_⟩
  rw [resetHeartbeatTimer, hstate]
  simp

lemma clearHeartbeatTimer_alike (c : SSEClient) : Alike c c.clearHeartbeatTimer :=
  ⟨rfl, rfl, rfl, rfl, rfl, rfl, rfl, rfl, fun _ _ => rfl⟩

lemma on_alike (c : SSEClient) (event : String) (handler : ℕ) : Alike c (c.on event handler) := by
  rw [on.eq_def]
  split
  next => exact .refl c
  split
  next => exact ⟨rfl, rfl, rfl, rfl, rfl, rfl, rfl, rfl, fun _ h => h⟩
  next =>
    dsimp only
    split
    next i _ =>
      split
      next =>
        refine ⟨map_modify_eq ?_ i c.sources, rfl, rfl, rfl, rfl, rfl, rfl, rfl, fun _ h => h⟩
        exact fun _ => rfl
      next => exact ⟨rfl, rfl, rfl, rfl, rfl, rfl, rfl, rfl, fun _ h => h⟩
    next => exact ⟨rfl, rfl, rfl, rfl, rfl, rfl, rfl, rfl, fun _ h => h⟩

lemma off_alike (c : SSEClient) (event : String) (handler : Option ℕ) :
    Alike c (c.off event handler) := by
  rw [off.eq_def]
  split
  next => exact .refl c
  split
  next => exact .refl c
  next =>
    dsimp only
    split
    next =>
      split
      next i _ _ _ =>
        refine ⟨map_modify_eq ?_ i c.sources, rfl, rfl, rfl, rfl, rfl, rfl, rfl, fun _ h => h⟩
        exact fun _ => rfl
      next => exact ⟨rfl, rfl, rfl, rfl, rfl, rfl, rfl, rfl, fun _ h => h⟩
    next => exact ⟨rfl, rfl, rfl, rfl, rfl, rfl, rfl, rfl, fun _ h => h⟩

/-! ### Closing and emitting -/

lemma close_sources {i : ℕ} (hi : c.eventSource = some i) {j : ℕ} {t : EventSource}
    (ht : c.close.sources[j]? = some t) :
    ∃ s, c.sources[j]? = some s ∧ t.permanent = s.permanent ∧
      (j = i ∧ t.readyState = .closed ∨ t = s) := by
  rw [close_eq_of_some hi] at ht
  simp only [List.getElem?_modify] at ht
  obtain ⟨s, hs, rfl⟩ := Option.map_eq_some_iff.mp ht
  refine ⟨s, hs, ?_⟩
  split
  next hij => exact ⟨rfl, .inl ⟨hij.symm, rfl⟩⟩
  next => exact ⟨rfl, .inr rfl⟩

lemma Tidy.close (h : Tidy c) : Sound c.close := by
  have he := close_emitted c
  have hstate : c.close.state = .closed := (close_shut c).state
  have hnot : c.close.state ≠ .connected := by
    rw [hstate]
    nofun
  refine Tidy.sound ⟨?_, ?_, ?_, ?_, ?_, fun _ => close_shut c⟩ hnot
  · rw [he.reconnectTimers, he.rejections]
    exact h.atMostOne
  · rw [he.reconnectTimers, he.rejections, he.connectionHandled, he.reconnectAttempts]
    exact fun hpos => ⟨(h.underWay hpos).1, hnot, (h.underWay hpos).2.2⟩
  · exact fun hconnected => absurd hconnected hnot
  · -- what waits was the current one, and that is closed now
    rintro j t ⟨ht, htemporary, hopen⟩
    exfalso
    cases hi : c.eventSource with
    | none =>
        rw [close_eq_of_none hi] at ht
        have hw : Waits c j t := ⟨ht, htemporary, hopen⟩
        have hcurrent := hw.current h
        rw [hi] at hcurrent
        cases hcurrent
    | some i =>
        obtain ⟨s, hs, -, ⟨-, hclosed⟩ | rfl⟩ := close_sources hi ht
        · exact hopen hclosed
        · have hw : Waits c j t := ⟨hs, htemporary, hopen⟩
          have hcurrent := hw.current h
          rw [close_eq_of_some hcurrent] at ht
          simp only [List.getElem?_modify_eq, hs] at ht
          rw [← Option.some.inj ht] at hopen
          exact hopen rfl
  · intro j t ht
    cases hi : c.eventSource with
    | none =>
        rw [close_eq_of_none hi] at ht
        exact h.permanent j t ht
    | some i =>
        obtain ⟨s, hs, hpermanent, -⟩ := close_sources hi ht
        rw [hpermanent]
        exact h.permanent j s hs

lemma Tidy.of_emit (h : Tidy c) (event : String) (data : Payload) :
    Tidy (emit closing c event data) :=
  emit_induction (fun c entry hc => hc.of_alike (log_alike c entry))
    (fun _ hc => hc.close.toTidy) h event data

lemma Sound.of_emit (h : Sound c) (event : String) (data : Payload) :
    Sound (emit closing c event data) :=
  emit_induction (fun c entry hc => hc.of_alike (log_alike c entry))
    (fun _ hc => hc.toTidy.close) h event data

/-! ### The listeners -/

lemma handleOpen_eq {i : ℕ} (hi : c.eventSource = some i) (hhandled : c.connectionHandled = false) :
    handleOpen o c i (emit closing) =
      emit closing
        (resetHeartbeatTimer o
          { c with
            connectionHandled := true
            state := .connected
            reconnectAttempts := 0
            sources := c.sources.modify i fun s =>
              { s with temporary := false, permanent := s.permanent + 1 } })
        "open" .undefined := by
  simp only [handleOpen, hhandled, Bool.false_eq_true, if_false, hi, removeTemporary, if_true,
    setupPermanentEventHandlers, modifySource, List.modify_modify_eq, Function.comp_def]

/-- **The connection that is awaited opens.** -/
lemma Tidy.handleOpen (h : Tidy c) {i : ℕ} {s : EventSource} (hw : Waits c i s) :
    Sound (handleOpen o c i (emit closing)) := by
  have hi := hw.current h
  obtain ⟨-, -, hpermanent, -⟩ := h.waits i s hw
  have hnothing := hw.nothingUnderWay h
  have hcalled := hw.not_closeCalled h
  rw [handleOpen_eq hi (hw.not_handled h)]
  refine Sound.of_emit ?_ _ _
  refine Sound.of_alike ?_ (resetHeartbeatTimer_alike _)
  set c' : SSEClient :=
    { c with
      connectionHandled := true
      state := .connected
      reconnectAttempts := 0
      sources := c.sources.modify i fun s =>
        { s with temporary := false, permanent := s.permanent + 1 } } with hc'
  have hsource : c'.sources[i]? =
      some { s with temporary := false, permanent := s.permanent + 1 } := by
    simp [hc', hw.source]
  have hother {j : ℕ} (hj : j ≠ i) : c'.sources[j]? = c.sources[j]? := by
    simp [hc', Ne.symm hj]
  refine ⟨⟨h.atMostOne, ?_, fun _ => ⟨rfl, rfl⟩, ?_, ?_, ?_⟩, fun _ => ?_⟩
  · intro hpos
    have : c'.reconnectTimers + c'.rejections = 0 := hnothing
    omega
  · intro j t hwaits
    exfalso
    by_cases hj : j = i
    · subst hj
      obtain ⟨ht, htemporary, -⟩ := hwaits
      rw [hsource] at ht
      rw [← Option.some.inj ht] at htemporary
      cases htemporary
    · have hwaits' : Waits c j t :=
        ⟨(hother hj).symm.trans hwaits.source, hwaits.temporary, hwaits.notClosed⟩
      have hcurrent := hwaits'.current h
      rw [hi] at hcurrent
      exact hj (Option.some.inj hcurrent).symm
  · intro j t ht
    by_cases hj : j = i
    · subst hj
      rw [hsource] at ht
      rw [← Option.some.inj ht]
      simp [hpermanent]
    · exact h.permanent j t ((hother hj).symm.trans ht)
  · intro hcc
    have : c'.closeCalled = false := hcalled
    rw [this] at hcc
    cases hcc
  · exact ⟨i, _, hi, hsource, hw.notClosed, rfl, by simp [hpermanent]⟩

/-- A connection is lost, and no reconnection is under way yet. -/
structure Lost (c : SSEClient) : Prop where
  nothingUnderWay : c.reconnectTimers + c.rejections = 0
  handled : c.connectionHandled = true
  state : c.state ≠ .connected
  attempts : c.reconnectAttempts = 1

lemma Lost.of_emitted (h : Lost c) (he : Emitted c c') : Lost c' where
  nothingUnderWay := by
    rw [he.reconnectTimers, he.rejections]
    exact h.nothingUnderWay
  handled := he.connectionHandled.trans h.handled
  state := he.not_connected h.state
  attempts := he.reconnectAttempts.trans h.attempts

lemma Lost.not_waits (hl : Lost c) (h : Tidy c) (i : ℕ) (s : EventSource) : ¬ Waits c i s := by
  intro hw
  have hhandled := hw.not_handled h
  rw [hl.handled] at hhandled
  cases hhandled

/-- Other reconnections under way. -/
lemma Tidy.counted (h : Tidy c) {timers rejections : ℕ} (hle : timers + rejections ≤ 1)
    (hunderWay : 0 < timers + rejections →
      c.connectionHandled = true ∧ c.state ≠ .connected ∧ c.reconnectAttempts = 1) :
    Tidy { c with reconnectTimers := timers, rejections := rejections } :=
  ⟨hle, hunderWay, h.connected, fun i s hw => h.waits i s ⟨hw.1, hw.2, hw.3⟩, h.permanent,
    fun hcalled => ⟨(h.isSealed hcalled).1, (h.isSealed hcalled).2, (h.isSealed hcalled).3⟩⟩

lemma Tidy.reject (h : Tidy c) (hstate : c.state ≠ .connected) {awaited : Bool}
    (hlost : awaited = true → Lost c) : Sound (c.reject awaited) := by
  cases awaited with
  | false => exact h.sound hstate
  | true =>
      obtain ⟨hnothing, hhandled, -, hattempts⟩ := hlost rfl
      exact (h.counted (by omega) fun _ => ⟨hhandled, hstate, hattempts⟩).sound hstate

lemma Tidy.attemptReconnect (h : Tidy c) (hlost : Lost c) :
    Sound (attemptReconnect o c (emit closing)) := by
  obtain ⟨hnothing, hhandled, hstate, hattempts⟩ := hlost
  rw [SSEClient.attemptReconnect]
  split
  next => exact h.sound hstate
  split
  next => exact h.close.of_emit _ _
  next => exact (h.counted (by omega) fun _ => ⟨hhandled, hstate, hattempts⟩).sound hstate

/-- The connection that is awaited is the current one. -/
structure Awaiting (c : SSEClient) (i : ℕ) (awaited : Bool) : Prop where
  current : c.eventSource = some i
  not_handled : c.connectionHandled = false
  nothingUnderWay : c.reconnectTimers + c.rejections = 0
  not_closeCalled : c.closeCalled = false
  attempts : awaited = true → c.reconnectAttempts = 1

lemma Waits.awaiting {i : ℕ} {s : EventSource} (hw : Waits c i s) (h : Tidy c) :
    Awaiting c i s.awaited :=
  ⟨hw.current h, hw.not_handled h, hw.nothingUnderWay h, hw.not_closeCalled h,
    (h.waits i s hw).2.2.2⟩

lemma handleInitialError_eq {i : ℕ} {awaited : Bool} (h : Awaiting c i awaited) :
    handleInitialError c i awaited (emit closing) =
      (emitError
        { c with
          connectionHandled := true
          state := .disconnected
          sources := c.sources.modify i fun s => { s with temporary := false } }
        (.connectionError "SSE connection error" .connecting 0) (emit closing)).reject awaited := by
  simp only [handleInitialError, h.not_handled, Bool.false_eq_true, if_false, h.current,
    removeTemporary, if_true, modifySource]

/-- **The connection that is awaited fails.** -/
lemma Tidy.handleInitialError (h : Tidy c) {i : ℕ} {awaited : Bool} (ha : Awaiting c i awaited) :
    Sound (handleInitialError c i awaited (emit closing)) := by
  rw [handleInitialError_eq ha]
  set c' : SSEClient :=
    { c with
      connectionHandled := true
      state := .disconnected
      sources := c.sources.modify i fun s => { s with temporary := false } } with hc'
  have hsource {j : ℕ} {t : EventSource} (ht : c'.sources[j]? = some t) :
      ∃ s, c.sources[j]? = some s ∧ t.permanent = s.permanent ∧
        (t.temporary = false ∨ j ≠ i ∧ t = s) := by
    simp only [hc', List.getElem?_modify] at ht
    obtain ⟨s, hs, rfl⟩ := Option.map_eq_some_iff.mp ht
    refine ⟨s, hs, ?_⟩
    split
    next => exact ⟨rfl, .inl rfl⟩
    next hij => exact ⟨rfl, .inr ⟨Ne.symm hij, rfl⟩⟩
  have htidy : Tidy c' := by
    refine ⟨h.atMostOne, fun hpos => ?_, nofun, fun j t hw => ?_, fun j t ht => ?_,
      fun hcalled => ?_⟩
    · have : c'.reconnectTimers + c'.rejections = 0 := ha.nothingUnderWay
      omega
    · exfalso
      obtain ⟨ht, htemporary, hopen⟩ := hw
      obtain ⟨s, hs, -, hfalse | ⟨hj, rfl⟩⟩ := hsource ht
      · rw [hfalse] at htemporary
        cases htemporary
      · have hw : Waits c j t := ⟨hs, htemporary, hopen⟩
        have hcurrent := hw.current h
        rw [ha.current] at hcurrent
        exact hj (Option.some.inj hcurrent).symm
    · obtain ⟨s, hs, hpermanent, -⟩ := hsource ht
      rw [hpermanent]
      exact h.permanent j s hs
    · have : c'.closeCalled = false := ha.not_closeCalled
      rw [this] at hcalled
      cases hcalled
  have hnot : c'.state ≠ .connected := nofun
  have hlost (hawaited : awaited = true) : Lost c' :=
    ⟨ha.nothingUnderWay, rfl, hnot, ha.attempts hawaited⟩
  have he := emit_emitted closing c' "error"
    (.connectionError "SSE connection error" .connecting 0)
  exact (htidy.of_emit _ _).reject (he.not_connected hnot) fun hawaited =>
    (hlost hawaited).of_emitted he

lemma Tidy.onerror (h : Tidy c) : Sound (onerror o c (emit closing)) := by
  rw [SSEClient.onerror]
  split
  next hconnected =>
    obtain ⟨hhandled, hattempts⟩ := h.connected hconnected
    have hnothing : c.reconnectTimers + c.rejections = 0 := by
      by_contra hpos
      exact (h.underWay (by omega)).2.1 hconnected
    have hcalled : c.closeCalled = false := h.not_closeCalled (by rw [hconnected]; rintro ⟨⟩)
    have hnone (i : ℕ) (s : EventSource) : ¬ Waits c i s := by
      intro hw
      have := hw.not_handled h
      rw [hhandled] at this
      cases this
    have htidy (state : SSEConnectionState) (attempts : ℕ) (hstate : state ≠ .connected) :
        Tidy { c with state := state, reconnectAttempts := attempts } := by
      refine ⟨h.atMostOne, fun hpos => ?_, fun hs => absurd hs hstate,
        fun i s hw => absurd ⟨hw.1, hw.2, hw.3⟩ (hnone i s), h.permanent, fun hcc => ?_⟩
      · dsimp only at hpos
        omega
      · dsimp only at hcc
        rw [hcalled] at hcc
        cases hcc
    split
    next =>
      have hclosed := htidy .closed c.reconnectAttempts (by rintro ⟨⟩)
      exact ((hclosed.sound (by rintro ⟨⟩)).of_alike (clearHeartbeatTimer_alike _)).of_emit _ _
    next =>
      have hlost := htidy .disconnected (c.reconnectAttempts + 1) (by rintro ⟨⟩)
      refine (hlost.of_emit _ _).attemptReconnect (Lost.of_emitted ?_ (emit_emitted closing _ _ _))
      exact ⟨hnothing, hhandled, by rintro ⟨⟩, by dsimp only; omega⟩
  next hconnected => exact h.sound hconnected

/-! ### Connecting -/

lemma Tidy.connectFailed (h : Tidy c) (hcalled : c.closeCalled = false) {awaited : Bool}
    (hlost : awaited = true → Lost c) (message : String) :
    Sound (connectFailed c awaited message (emit closing)) := by
  have hnot : ({ c with state := .disconnected } : SSEClient).state ≠ .connected := nofun
  have htidy : Tidy { c with state := .disconnected } := by
    refine ⟨h.atMostOne, fun hpos => ?_, nofun, fun i s hw => h.waits i s ⟨hw.1, hw.2, hw.3⟩,
      h.permanent, fun hcc => ?_⟩
    · obtain ⟨hhandled, -, hattempts⟩ := h.underWay hpos
      exact ⟨hhandled, nofun, hattempts⟩
    · dsimp only at hcc
      rw [hcalled] at hcc
      cases hcc
  have he := emit_emitted closing { c with state := .disconnected } "error"
  refine (htidy.of_emit _ _).reject ((he _).not_connected hnot) fun hawaited => ?_
  obtain ⟨hnothing, hhandled, -, hattempts⟩ := hlost hawaited
  have hlost' : Lost { c with state := .disconnected } := ⟨hnothing, hhandled, hnot, hattempts⟩
  exact hlost'.of_emitted (he _)

/-- **A new connection**, where none is awaited. -/
lemma Tidy.connect (h : Tidy c) (hcalled : c.closeCalled = false) (hstate : c.state ≠ .connected)
    (hnothing : c.reconnectTimers + c.rejections = 0) (hnone : ∀ i s, ¬ Waits c i s)
    {awaited : Bool} (hlost : awaited = true → Lost c) (thrown : Option String) :
    Sound (connect o c awaited thrown (emit closing)) := by
  rw [SSEClient.connect.eq_def]
  split
  next => exact h.connectFailed hcalled hlost _
  next => exact h.connectFailed hcalled hlost _
  next url _ =>
    set c' : SSEClient :=
      { c with
        sources := c.sources ++ [{ url := c.buildConnectionUrl o url, awaited }]
        eventSource := some c.sources.length
        connectionHandled := false } with hc'
    have hsource {i : ℕ} {s : EventSource} (hs : c'.sources[i]? = some s) :
        c.sources[i]? = some s ∨
          i = c.sources.length ∧ s = { url := c.buildConnectionUrl o url, awaited } := by
      simp only [hc', List.getElem?_append, List.getElem?_singleton] at hs
      split at hs
      next => exact .inl hs
      next hle =>
        split at hs
        next hzero => exact .inr ⟨by omega, (Option.some.inj hs).symm⟩
        next => cases hs
    have hsound : Sound c' := by
      refine Tidy.sound ⟨h.atMostOne, fun hpos => ?_, fun hs => absurd hs hstate,
        fun i s hw => ?_, fun i s hs => ?_, fun hcc => ?_⟩ hstate
      · have : c'.reconnectTimers + c'.rejections = 0 := hnothing
        omega
      · obtain ⟨hs, htemporary, hopen⟩ := hw
        rcases hsource hs with hs | ⟨rfl, rfl⟩
        · exact absurd ⟨hs, htemporary, hopen⟩ (hnone i s)
        · exact ⟨rfl, rfl, rfl, fun hawaited => (hlost hawaited).attempts⟩
      · rcases hsource hs with hs | ⟨-, rfl⟩
        · exact h.permanent i s hs
        · exact Nat.zero_le 1
      · have : c'.closeCalled = false := hcalled
        rw [this] at hcc
        cases hcc
    rw [startHeartbeatTimer]
    split
    next => exact hsound.of_alike (resetHeartbeatTimer_alike _)
    next => exact hsound

/-- A reconnection that is under way has lost the connection. -/
lemma Tidy.lost (h : Tidy c) {timers rejections : ℕ} (hzero : timers + rejections = 0)
    (hpos : 0 < c.reconnectTimers + c.rejections) :
    Lost { c with reconnectTimers := timers, rejections := rejections } := by
  obtain ⟨hhandled, hstate, hattempts⟩ := h.underWay hpos
  exact ⟨hzero, hhandled, hstate, hattempts⟩

lemma Tidy.reconnect (h : Tidy c) (htimer : 0 < c.reconnectTimers) (thrown : Option String) :
    Sound
      (reconnect o { c with reconnectTimers := c.reconnectTimers - 1 } thrown (emit closing)) := by
  have hle := h.atMostOne
  have hzero : c.reconnectTimers - 1 + c.rejections = 0 := by omega
  have hlost : Lost { c with reconnectTimers := c.reconnectTimers - 1 } :=
    h.lost hzero (by omega)
  have htidy : Tidy { c with reconnectTimers := c.reconnectTimers - 1 } :=
    h.counted (by omega) fun hpos => by omega
  rw [SSEClient.reconnect]
  split
  next => exact htidy.sound hlost.state
  next hstate =>
    have hcalled := htidy.not_closeCalled hstate
    have hlost' : Lost { c with reconnectTimers := c.reconnectTimers - 1, state := .connecting } :=
      ⟨hlost.1, hlost.2, by rintro ⟨⟩, hlost.4⟩
    have htidy' : Tidy { c with reconnectTimers := c.reconnectTimers - 1, state := .connecting } :=
      ⟨htidy.1, fun hpos => by dsimp only at hpos; omega, (by rintro ⟨⟩),
        fun i s hw => htidy.waits i s ⟨hw.1, hw.2, hw.3⟩, htidy.permanent, fun hcc => by
          dsimp only at hcc hcalled
          rw [hcalled] at hcc
          cases hcc⟩
    exact htidy'.connect hcalled (by rintro ⟨⟩) hzero (hlost'.not_waits htidy')
      (fun _ => hlost') thrown

lemma create_sound (thrown : Option String) : Sound (create closing o thrown) := by
  have htidy : Tidy {} :=
    ⟨Nat.zero_le 1, nofun, nofun, fun i s hw => (nomatch hw.source), nofun, nofun⟩
  refine htidy.connect rfl nofun rfl (fun i s hw => (nomatch hw.source)) ?_ thrown
  nofun

/-! ### Steps -/

lemma Sound.handleHeartbeatTimeout (h : Sound c) (htimer : c.heartbeatTimer = true) :
    Sound (handleHeartbeatTimeout c (emit closing)) := by
  have hcalled : c.closeCalled = false := by
    by_contra hcalled
    have := (h.isSealed (by simpa using hcalled)).heartbeatTimer
    rw [htimer] at this
    cases this
  set c' : SSEClient := { c with state := .disconnected, heartbeatTimer := false } with hc'
  have htidy : Tidy c' := by
    refine ⟨h.atMostOne, fun hpos => ?_, nofun, fun i s hw => h.waits i s ⟨hw.1, hw.2, hw.3⟩,
      h.permanent, fun hcc => ?_⟩
    · obtain ⟨hhandled, -, hattempts⟩ := h.underWay hpos
      exact ⟨hhandled, nofun, hattempts⟩
    · have : c'.closeCalled = false := hcalled
      rw [this] at hcc
      cases hcc
  rw [SSEClient.handleHeartbeatTimeout]
  dsimp only
  rw [← hc', emitError]
  have he := emit_emitted closing c' "error"
    (.heartbeatError "SSE heartbeat timeout - connection may be dead" c.lastEventId)
  have htidy' : Tidy (emit closing c' "error"
      (.heartbeatError "SSE heartbeat timeout - connection may be dead" c.lastEventId)) :=
    htidy.of_emit _ _
  generalize emit closing c' "error" _ = d at he htidy' ⊢
  have hnot : d.state ≠ .connected := he.not_connected nofun
  split
  next i hi =>
    refine Tidy.sound ⟨htidy'.atMostOne, htidy'.underWay, htidy'.connected, fun j t hw => ?_,
      fun j t ht => ?_, fun hcc => ?_⟩ hnot
    · obtain ⟨ht, htemporary, hopen⟩ := hw
      exfalso
      simp only [modifySource, List.getElem?_modify] at ht
      obtain ⟨s, hs, rfl⟩ := Option.map_eq_some_iff.mp ht
      split at hopen
      next => exact hopen rfl
      next hij =>
        rw [if_neg hij] at htemporary
        have hw : Waits d j s := ⟨hs, htemporary, hopen⟩
        have hcurrent := hw.current htidy'
        rw [hi] at hcurrent
        exact hij (Option.some.inj hcurrent)
    · simp only [modifySource, List.getElem?_modify] at ht
      obtain ⟨s, hs, rfl⟩ := Option.map_eq_some_iff.mp ht
      split
      next => exact htidy'.permanent j s hs
      next => exact htidy'.permanent j s hs
    · have hshut := htidy'.isSealed hcc
      exact ⟨hshut.1, rfl, hshut.3⟩
  next => exact htidy'.sound hnot

lemma Sound.receive (h : Sound c) (event : MessageEvent) :
    Sound (receive o c event (emit closing)) := by
  rw [SSEClient.receive]
  refine Sound.of_emit (Sound.of_alike ?_ (resetHeartbeatTimer_alike _)) _ _
  split
  next => exact h.of_alike ⟨rfl, rfl, rfl, rfl, rfl, rfl, rfl, rfl, fun _ ht => ht⟩
  next => exact h

lemma Sound.handleServerError (h : Sound c) (event : MessageEvent) :
    Sound (handleServerError o c event (emit closing)) := by
  rw [SSEClient.handleServerError.eq_def]
  split
  next => exact h
  next => exact h.of_emit _ _

lemma Sound.handleCloseEvent (h : Sound c) (event : MessageEvent) :
    Sound (handleCloseEvent o c event (emit closing)) := by
  rw [SSEClient.handleCloseEvent.eq_def]
  dsimp only
  split
  next =>
    refine Sound.of_emit ?_ _ _
    split
    next => exact h
    next => exact h.close
  next => exact h

lemma Sound.dispatch (h : Sound c) {i : ℕ} {s : EventSource}
    (hw : s.temporary = true → ∃ t, Waits c i t ∧ t.awaited = s.awaited) (event : MessageEvent) :
    Sound (dispatch o c i s event (emit closing)) := by
  rw [SSEClient.dispatch]
  split
  next =>
    split
    next => exact h.receive event
    next => exact h
  split
  next =>
    split
    next htemporary =>
      obtain ⟨t, hw, -⟩ := hw htemporary
      exact h.handleOpen hw
    next => exact h
  split
  next =>
    refine Function.Iterate.rec Sound ?_ (fun c hc => hc.handleServerError event) _
    have hfirst : Sound (if s.temporary then
        SSEClient.handleInitialError c i s.awaited (emit closing) else c) := by
      split
      next htemporary =>
        obtain ⟨t, hw, hawaited⟩ := hw htemporary
        rw [← hawaited]
        exact h.handleInitialError (hw.awaiting h.toTidy)
      next => exact h
    split
    next => exact hfirst.onerror
    next => exact hfirst
  split
  next => exact Function.Iterate.rec Sound h (fun c hc => hc.handleCloseEvent event) _
  next => exact Function.Iterate.rec Sound h (fun c hc => hc.receive event) _

lemma Sound.sourceMessage (h : Sound c) {i : ℕ} {s : EventSource} (hs : c.sources[i]? = some s)
    (hopen : s.readyState ≠ .closed) (type data : String) (id : Option String) :
    Sound (sourceMessage o c i s type data id (emit closing)) := by
  have halike : Alike c
      (c.modifySource i fun t => { t with lastEventId := id.getD s.lastEventId }) :=
    modifySource_alike_of_forall c i fun _ => rfl
  refine (h.of_alike halike).dispatch (fun htemporary => ?_) _
  refine ⟨{ s with lastEventId := id.getD s.lastEventId }, ⟨?_, htemporary, hopen⟩, rfl⟩
  simp [modifySource, hs]

lemma Sound.sourceOpen (h : Sound c) {i : ℕ} {s : EventSource} (hs : c.sources[i]? = some s)
    (hopen : s.readyState ≠ .closed) : Sound (sourceOpen o c i s (emit closing)) := by
  rw [SSEClient.sourceOpen]
  have hlink : link { s with readyState := .open } = link s := by
    rw [link_eq_iff]
    exact ⟨⟨by rintro ⟨⟩, fun hc => absurd hc hopen⟩, rfl, rfl, rfl⟩
  have hsound := h.of_alike (modifySource_alike c hs
    (f := fun s => { s with readyState := .open }) hlink)
  split
  next htemporary =>
    refine hsound.handleOpen (s := { s with readyState := .open }) ⟨?_, htemporary, by rintro ⟨⟩⟩
    simp [modifySource, hs]
  next => exact hsound

/-- A connection fails, before its listeners run. -/
lemma Tidy.fails (h : Tidy c) {i : ℕ} {s : EventSource} (hs : c.sources[i]? = some s)
    (hopen : s.readyState ≠ .closed) (state : ReadyState) :
    Tidy (c.modifySource i fun s => { s with readyState := state }) := by
  refine ⟨h.atMostOne, h.underWay, h.connected, fun j t hw => ?_, fun j t ht => ?_,
    fun hcalled => ⟨(h.isSealed hcalled).1, (h.isSealed hcalled).2, (h.isSealed hcalled).3⟩⟩
  · obtain ⟨ht, htemporary, hnot⟩ := hw
    simp only [modifySource, List.getElem?_modify] at ht
    obtain ⟨t', ht', rfl⟩ := Option.map_eq_some_iff.mp ht
    split at htemporary
    next hij =>
      subst hij
      obtain rfl := Option.some.inj (hs.symm.trans ht')
      rw [if_pos rfl]
      exact h.waits i s ⟨hs, htemporary, hopen⟩
    next hij =>
      rw [if_neg hij] at hnot ⊢
      exact h.waits j t' ⟨ht', htemporary, hnot⟩
  · simp only [modifySource, List.getElem?_modify] at ht
    obtain ⟨t', ht', rfl⟩ := Option.map_eq_some_iff.mp ht
    split
    next => exact h.permanent j t' ht'
    next => exact h.permanent j t' ht'

lemma Sound.sourceError (h : Sound c) {i : ℕ} {s : EventSource} (hs : c.sources[i]? = some s)
    (hopen : s.readyState ≠ .closed) (fatal : Bool) :
    Sound (sourceError o c i s fatal (emit closing)) := by
  have htidy := h.fails hs hopen (if fatal then .closed else .connecting)
  rw [SSEClient.sourceError]
  by_cases htemporary : s.temporary = true
  · have hw : Waits c i s := ⟨hs, htemporary, hopen⟩
    obtain ⟨hcurrent, hhandled, hnothing, hcalled, hattempts⟩ := hw.awaiting h.toTidy
    have hpermanent := (h.waits i s hw).2.2.1
    rw [if_pos htemporary, if_neg (by omega)]
    exact htidy.handleInitialError ⟨hcurrent, hhandled, hnothing, hcalled, hattempts⟩
  · rw [if_neg htemporary]
    split
    next => exact htidy.onerror
    next hzero =>
      refine ⟨htidy, fun hconnected => ?_⟩
      obtain ⟨j, t, hj, ht, hnot, hfalse, hpermanent⟩ := h.attached hconnected
      have hij : i ≠ j := by
        rintro rfl
        obtain rfl := Option.some.inj (hs.symm.trans ht)
        omega
      refine ⟨j, t, hj, ?_, hnot, hfalse, hpermanent⟩
      simp [modifySource, hij, ht]

/-- **Every step keeps a client sound.** -/
theorem Sound.step {a : Action} (h : Sound c) (hstep : step closing o c a = some c') :
    Sound c' := by
  cases a with
  | «open» i =>
      obtain ⟨s, hs, hready, rfl⟩ := stepWith_inv hstep
      exact h.sourceOpen hs (by rw [hready]; rintro ⟨⟩)
  | error i fatal =>
      obtain ⟨s, hs, hready, rfl⟩ := stepWith_inv hstep
      exact h.sourceError hs hready fatal
  | message i type data id =>
      obtain ⟨s, hs, hready, rfl⟩ := stepWith_inv hstep
      exact h.sourceMessage hs (by rw [hready]; rintro ⟨⟩) type data id
  | reconnect thrown =>
      obtain ⟨htimers, rfl⟩ := stepWith_inv hstep
      exact h.toTidy.reconnect htimers thrown
  | retry =>
      obtain ⟨hrejections, rfl⟩ := stepWith_inv hstep
      have hle := h.atMostOne
      have hlost : Lost { c with rejections := c.rejections - 1 } :=
        h.toTidy.lost (by omega) (by omega)
      have htidy : Tidy { c with rejections := c.rejections - 1 } :=
        h.toTidy.counted (by omega) fun hpos => by omega
      exact htidy.attemptReconnect hlost
  | heartbeat =>
      obtain ⟨htimer, rfl⟩ := stepWith_inv hstep
      exact h.handleHeartbeatTimeout htimer
  | on event handler =>
      obtain rfl := Option.some.inj hstep
      exact h.of_alike (on_alike c event handler)
  | off event handler =>
      obtain rfl := Option.some.inj hstep
      exact h.of_alike (off_alike c event handler)
  | close =>
      obtain rfl := Option.some.inj hstep
      exact h.close

/-! ### A client on which `close` was called -/

/-- No `EventSource` is new, and the client stays closed. -/
structure Still (c c' : SSEClient) : Prop where
  length : c'.sources.length = c.sources.length
  closeCalled : c.closeCalled = true → c'.closeCalled = true

lemma Still.refl (c : SSEClient) : Still c c := ⟨rfl, id⟩

lemma Still.trans (h : Still c c') (h' : Still c' c'') : Still c c'' :=
  ⟨h'.length.trans h.length, fun hc => h'.closeCalled (h.closeCalled hc)⟩

lemma Emitted.still (h : Emitted c c') : Still c c' := ⟨h.length, h.closeCalled⟩

lemma Alike.still (h : Alike c c') : Still c c' where
  length := by
    have := congrArg List.length h.sources
    rwa [List.length_map, List.length_map] at this
  closeCalled hc := h.closeCalled.trans hc

lemma modifySource_still (c : SSEClient) (i : ℕ) (f : EventSource → EventSource) :
    Still c (c.modifySource i f) := ⟨List.length_modify _ _ _, id⟩

/-- An emit of a client that has got other fields. -/
lemma emit_still {event : String} {data : Payload} (hs : c'.sources.length = c.sources.length)
    (hc : c'.closeCalled = c.closeCalled) : Still c (emit closing c' event data) := by
  have hstart : Still c c' := ⟨hs, fun hcalled => hc.trans hcalled⟩
  exact hstart.trans (emit_emitted closing c' event data).still

lemma attemptReconnect_still (c : SSEClient) : Still c (attemptReconnect o c (emit closing)) := by
  rw [attemptReconnect]
  split
  next => exact .refl c
  split
  next => exact (close_emitted c).still.trans (emit_emitted closing _ _ _).still
  next => exact ⟨rfl, id⟩

lemma receive_still (c : SSEClient) (event : MessageEvent) :
    Still c (receive o c event (emit closing)) := by
  rw [receive]
  split
  next => exact emit_still rfl rfl
  next => exact emit_still rfl rfl

lemma handleServerError_still (c : SSEClient) (event : MessageEvent) :
    Still c (handleServerError o c event (emit closing)) := by
  rw [handleServerError.eq_def]
  split
  next => exact .refl c
  next => exact (emit_emitted closing _ _ _).still

lemma handleCloseEvent_still (c : SSEClient) (event : MessageEvent) :
    Still c (handleCloseEvent o c event (emit closing)) := by
  rw [handleCloseEvent.eq_def]
  dsimp only
  split
  next =>
    refine Still.trans ?_ (emit_emitted closing _ _ _).still
    split
    next => exact .refl c
    next => exact (close_emitted c).still
  next => exact .refl c

lemma iterate_still {f : SSEClient → SSEClient} (hf : ∀ c, Still c (f c)) (n : ℕ)
    (c : SSEClient) : Still c (f^[n] c) :=
  Function.Iterate.rec (Still c) (.refl c) (fun d hd => hd.trans (hf d)) n

lemma removeTemporary_still (c : SSEClient) (i j : ℕ) : Still c (c.removeTemporary i j) := by
  rw [removeTemporary]
  split
  next => exact modifySource_still c j _
  next => exact .refl c

lemma setupPermanentEventHandlers_still (c : SSEClient) :
    Still c c.setupPermanentEventHandlers := by
  rw [setupPermanentEventHandlers.eq_def]
  split
  next i _ => exact modifySource_still c i _
  next => exact .refl c

lemma reject_still (c : SSEClient) (awaited : Bool) : Still c (c.reject awaited) := by
  rw [reject]
  split
  next => exact ⟨rfl, id⟩
  next => exact .refl c

lemma handleOpen_still (c : SSEClient) (i : ℕ) : Still c (handleOpen o c i (emit closing)) := by
  rw [handleOpen]
  split
  next => exact .refl c
  set c' : SSEClient :=
    { c with connectionHandled := true, state := .connected, reconnectAttempts := 0 } with hc'
  have hstart : Still c c' := ⟨rfl, id⟩
  dsimp only
  split
  next j _ =>
    refine hstart.trans ((removeTemporary_still c' i j).trans ?_)
    refine (setupPermanentEventHandlers_still _).trans ?_
    exact emit_still rfl rfl
  next => exact hstart

lemma handleInitialError_still (c : SSEClient) (i : ℕ) (awaited : Bool) :
    Still c (handleInitialError c i awaited (emit closing)) := by
  rw [handleInitialError]
  split
  next => exact .refl c
  set c' : SSEClient := { c with connectionHandled := true } with hc'
  have hstart : Still c c' := ⟨rfl, id⟩
  dsimp only
  split
  next j _ =>
    refine hstart.trans ((removeTemporary_still c' i j).trans ?_)
    refine Still.trans ?_ (reject_still _ awaited)
    exact emit_still rfl rfl
  next => exact hstart

lemma onerror_still (c : SSEClient) : Still c (onerror o c (emit closing)) := by
  rw [onerror]
  split
  next =>
    split
    next => exact emit_still rfl rfl
    next =>
      refine Still.trans ?_ (attemptReconnect_still _)
      exact emit_still rfl rfl
  next => exact .refl c

/-- The listeners of a connection that fails. -/
lemma failed_still (c : SSEClient) (i : ℕ) (s : EventSource) :
    Still c (if 0 < s.permanent then
        onerror o (if s.temporary then handleInitialError c i s.awaited (emit closing) else c)
          (emit closing)
      else if s.temporary then handleInitialError c i s.awaited (emit closing) else c) := by
  have h :
      Still c (if s.temporary then handleInitialError c i s.awaited (emit closing) else c) := by
    split
    next => exact handleInitialError_still c i _
    next => exact .refl c
  split
  next => exact h.trans (onerror_still _)
  next => exact h

lemma handleHeartbeatTimeout_still (c : SSEClient) :
    Still c (handleHeartbeatTimeout c (emit closing)) := by
  have hemit : Still c (emitError { c with state := .disconnected, heartbeatTimer := false }
      (.heartbeatError "SSE heartbeat timeout - connection may be dead" c.lastEventId)
      (emit closing)) :=
    emit_still rfl rfl
  rw [handleHeartbeatTimeout]
  dsimp only
  split
  next i _ => exact ⟨(List.length_modify _ _ _).trans hemit.length, hemit.closeCalled⟩
  next => exact hemit

lemma dispatch_still (c : SSEClient) (i : ℕ) (s : EventSource) (event : MessageEvent) :
    Still c (dispatch o c i s event (emit closing)) := by
  rw [dispatch]
  split
  next =>
    split
    next => exact receive_still c event
    next => exact .refl c
  split
  next =>
    split
    next => exact handleOpen_still c i
    next => exact .refl c
  split
  next => exact (failed_still c i s).trans (iterate_still (handleServerError_still · event) _ _)
  split
  next => exact iterate_still (handleCloseEvent_still · event) _ c
  next => exact iterate_still (receive_still · event) _ c

lemma connectFailed_still (c : SSEClient) (awaited : Bool) (message : String) :
    Still c (connectFailed c awaited message (emit closing)) := by
  rw [connectFailed]
  refine Still.trans ?_ (reject_still _ awaited)
  exact emit_still rfl rfl

variable (closing o) in
/-- A connection is new, or nothing is. -/
lemma connect_still (c : SSEClient) (awaited : Bool) (thrown : Option String) :
    Still c (connect o c awaited thrown (emit closing)) ∨
      (connect o c awaited thrown (emit closing)).closeCalled = c.closeCalled := by
  rw [connect.eq_def]
  split
  next => exact .inl (connectFailed_still c awaited _)
  next => exact .inl (connectFailed_still c awaited _)
  next => exact .inr (startHeartbeatTimer_keeps _).closeCalled

/-- **Only a timer creates an `EventSource`**, and only for a client that is not closed. -/
lemma step_still {a : Action} (hstep : step closing o c a = some c') :
    Still c c' ∨ c.state ≠ .closed ∧ c'.closeCalled = c.closeCalled := by
  cases a with
  | «open» i =>
      obtain ⟨s, -, -, rfl⟩ := stepWith_inv hstep
      rw [sourceOpen]
      have hstart := modifySource_still c i fun s => { s with readyState := .open }
      split
      next => exact .inl (hstart.trans (handleOpen_still _ i))
      next => exact .inl hstart
  | error i fatal =>
      obtain ⟨s, -, -, rfl⟩ := stepWith_inv hstep
      exact .inl ((modifySource_still c i _).trans (failed_still _ i s))
  | message i type data id =>
      obtain ⟨s, -, -, rfl⟩ := stepWith_inv hstep
      exact .inl ((modifySource_still c i _).trans (dispatch_still _ i s _))
  | reconnect thrown =>
      obtain ⟨-, rfl⟩ := stepWith_inv hstep
      rw [reconnect]
      split
      next => exact .inl ⟨rfl, id⟩
      next hstate =>
        rcases connect_still closing o
          { c with reconnectTimers := c.reconnectTimers - 1, state := .connecting } true thrown
          with hstill | hcalled
        · exact .inl ⟨hstill.length, hstill.closeCalled⟩
        · exact .inr ⟨hstate, hcalled⟩
  | retry =>
      obtain ⟨-, rfl⟩ := stepWith_inv hstep
      have hstill : Still c { c with rejections := c.rejections - 1 } := ⟨rfl, id⟩
      exact .inl (hstill.trans (attemptReconnect_still _))
  | heartbeat =>
      obtain ⟨-, rfl⟩ := stepWith_inv hstep
      exact .inl (handleHeartbeatTimeout_still c)
  | on event handler =>
      obtain rfl := Option.some.inj hstep
      exact .inl (on_alike c event handler).still
  | off event handler =>
      obtain rfl := Option.some.inj hstep
      exact .inl (off_alike c event handler).still
  | close =>
      obtain rfl := Option.some.inj hstep
      exact .inl (close_emitted c).still

/-- **A step during or after which the client is closed creates no `EventSource`.** -/
theorem Sound.still {a : Action} (h : Sound c) (hstep : Reentrant.step closing o c a = some c')
    (hcalled : c'.closeCalled = true) : Still c c' := by
  rcases step_still hstep with hstill | ⟨hstate, hsame⟩
  · exact hstill
  · rw [hsame, h.toTidy.not_closeCalled hstate] at hcalled
    cases hcalled

lemma Sound.closeCalled {a : Action} (h : Sound c) (hstep : Reentrant.step closing o c a = some c')
    (hcalled : c.closeCalled = true) : c'.closeCalled = true := by
  rcases step_still hstep with hstill | ⟨hstate, -⟩
  · exact hstill.closeCalled hcalled
  · exact absurd (h.isSealed hcalled).state hstate

end Blaize.Client.Reentrant
