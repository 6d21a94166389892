import Blaize.Client.Sound
import Blaize.Client.Subscriptions

/-!
What the close handlers of a client of `sse-client.ts` are told.

The server ends the stream with an event `close`, whose flag says whether to reconnect, or by
closing the connection.  If the flag says no, `handleCloseEvent` calls `close()` before it emits the
event, and `close()` forgets all handlers.

* `ending`: the close information, where a step is one by which the server ends the stream;
* `Told`: each close handler is called once with it;
* `Heard`: the connection is the one the client is connected by, and the flag says to reconnect;
* `told_iff_heard`: **the close handlers are told of every end exactly if there are none of them or
  the end is heard**;
* `not_told_close`: one event without a reconnection is enough.
-/

namespace Blaize.Client.Reentrant

open Machine SSEClient

variable (closing : ℕ → Bool) (o : Options)

/-! ### The property -/

/-- The close information, where the server ends the stream of the current `EventSource`. -/
def ending (c : SSEClient) : Action → Option Payload
  | .message i type data _ =>
      if c.eventSource = some i ∧ type = "close" then
        (parseEventData o data).field "reconnect" |>.map fun reconnect =>
          .close reconnect.truthy ((parseEventData o data).field "reason")
      else none
  | .error i true =>
      if c.eventSource = some i then
        some (.close false (some (.string "Connection closed by server")))
      else none
  | _ => none

/-- The calls between two states of a handler of the event `close`. -/
def closeCalls (c c' : SSEClient) (handler : ℕ) : List Call :=
  (c'.calls.drop c.calls.length).filter fun call => call.handler == handler && call.event == "close"

/-- When the server ends the stream, each close handler is called once with the information. -/
def Told (c : SSEClient) (a : Action) : Prop :=
  ∀ info c', ending o c a = some info → step closing o c a = some c' →
    ∀ handler ∈ c.registered "close", closeCalls c c' handler = [⟨handler, "close", info⟩]

/-- The client listens and is to reconnect, or it is connected by what has ended. -/
def Hears (c : SSEClient) : Action → Prop
  | .message _ _ data _ =>
      (∃ s, c.current = some s ∧ 0 < s.permanent) ∧
        ((parseEventData o data).field "reconnect").any Json.truthy
  | _ => c.state = .connected

/-- When the server ends the stream, there are no close handlers, or the client hears of it. -/
def Heard (c : SSEClient) (a : Action) : Prop :=
  ∀ info c', ending o c a = some info → step closing o c a = some c' →
    c.registered "close" = [] ∨ Hears o c a

variable {closing o} {c c' : SSEClient}

/-! ### The calls of an emit -/

lemma close_calls (c : SSEClient) : c.close.calls = c.calls := by
  cases hi : c.eventSource with
  | none => rw [close_eq_of_none hi]
  | some i => rw [close_eq_of_some hi]

lemma call_calls (c : SSEClient) (entry : Call) :
    (call closing c entry).calls = c.calls ++ [entry] := by
  rw [call]
  split
  next => exact close_calls _
  next => rfl

/-- An emit calls the handlers that were there when it began, whatever they close. -/
lemma emit_calls (c : SSEClient) (event : String) (data : Payload) :
    (emit closing c event data).calls =
      c.calls ++ (c.registered event).map fun handler => ⟨handler, event, data⟩ := by
  rw [emit, registered]
  cases c.handlers.get event with
  | none => simp
  | some handlers =>
      dsimp only
      generalize handlers.keys = hs
      induction hs generalizing c with
      | nil => simp
      | cons handler hs ih =>
          rw [List.foldl_cons, ih, call_calls, List.map_cons, List.append_assoc,
            List.singleton_append]

lemma nodup_registered (c : SSEClient) (event : String) : (c.registered event).Nodup := by
  rw [registered]
  split
  next handlers _ => exact handlers.nodup
  next => exact List.nodup_nil

lemma closeCalls_of_append {calls : List Call} (h : c'.calls = c.calls ++ calls) (handler : ℕ) :
    closeCalls c c' handler =
      calls.filter fun call => call.handler == handler && call.event == "close" := by
  rw [closeCalls, h, List.drop_left]

/-- Of an emit each close handler has one call. -/
lemma closeCalls_emit {handler : ℕ} (h : handler ∈ c.registered "close") {info : Payload}
    (hcalls : c'.calls = c.calls ++ (c.registered "close").map fun k => ⟨k, "close", info⟩) :
    closeCalls c c' handler = [⟨handler, "close", info⟩] := by
  rw [closeCalls_of_append hcalls, List.filter_map]
  have hfilter : (c.registered "close").filter
      ((fun call : Call => call.handler == handler && call.event == "close") ∘
        fun k => ⟨k, "close", info⟩) = [handler] := by
    have hcount := List.count_eq_one_of_mem (nodup_registered c "close") h
    have hreplicate := List.filter_beq (l := c.registered "close") handler
    rw [hcount] at hreplicate
    simpa [Function.comp_def] using hreplicate
  rw [hfilter]
  rfl

lemma closeCalls_of_same (h : c'.calls = c.calls) (handler : ℕ) :
    closeCalls c c' handler = [] := by
  rw [closeCalls, h, List.drop_length]
  rfl

/-- Calls of other events are not calls of the event `close`. -/
lemma closeCalls_of_other {calls : List Call} (h : c'.calls = c.calls ++ calls)
    (hother : ∀ call ∈ calls, call.event ≠ "close") (handler : ℕ) :
    closeCalls c c' handler = [] := by
  rw [closeCalls_of_append h, List.filter_eq_nil_iff]
  intro call hcall
  simp [hother call hcall]

/-! ### An event of the server -/

lemma dispatch_close (c : SSEClient) (i : ℕ) (s : EventSource) (data id : String) :
    dispatch o c i s ⟨"close", data, id⟩ (emit closing) =
      (fun c => handleCloseEvent o c ⟨"close", data, id⟩ (emit closing))^[s.permanent] c := rfl

lemma handleCloseEvent_calls (c : SSEClient) {data id : String} {reconnect : Json}
    (h : (parseEventData o data).field "reconnect" = some reconnect) :
    (handleCloseEvent o c ⟨"close", data, id⟩ (emit closing)).calls =
      if reconnect.truthy then
        c.calls ++ (c.registered "close").map fun handler =>
          ⟨handler, "close",
            .close reconnect.truthy ((parseEventData o data).field "reason")⟩
      else c.calls := by
  rw [handleCloseEvent]
  dsimp only
  rw [h]
  dsimp only
  split
  next => exact emit_calls c _ _
  next => rw [emit_calls, registered, close_handlers, close_calls]; simp

variable (closing) in
/-- **An event `close` of the server** calls the close handlers once if it says to reconnect and the
client listens, and nobody otherwise. -/
lemma sourceMessage_calls (h : Sound c) {i : ℕ} {s : EventSource} (hs : c.sources[i]? = some s)
    {data : String} (id : Option String) {reconnect : Json}
    (hfield : (parseEventData o data).field "reconnect" = some reconnect) :
    (sourceMessage o c i s "close" data id (emit closing)).calls =
      if 0 < s.permanent ∧ reconnect.truthy then
        c.calls ++ (c.registered "close").map fun handler =>
          ⟨handler, "close",
            .close reconnect.truthy ((parseEventData o data).field "reason")⟩
      else c.calls := by
  rw [sourceMessage, dispatch_close]
  have hle := h.permanent i s hs
  rcases Nat.eq_zero_or_pos s.permanent with hzero | hpos
  · rw [hzero, if_neg (by simp)]
    rfl
  · rw [show s.permanent = 1 from by omega, Function.iterate_one, handleCloseEvent_calls _ hfield]
    simp only [Nat.one_pos, true_and]
    rfl

lemma told_message_iff (h : Sound c) (i : ℕ) (type data : String) (id : Option String) :
    Told closing o c (.message i type data id) ↔ Heard closing o c (.message i type data id) := by
  refine forall_congr' fun info => forall_congr' fun c' => forall_congr' fun hending =>
    forall_congr' fun hstep => ?_
  rw [ending.eq_def] at hending
  dsimp only at hending
  split at hending
  next hclose =>
    obtain ⟨hcurrent, rfl⟩ := hclose
    obtain ⟨reconnect, hfield, rfl⟩ := Option.map_eq_some_iff.mp hending
    obtain ⟨s, hs, -, rfl⟩ := stepWith_inv hstep
    have hcalls := sourceMessage_calls closing h hs id hfield
    have hlistens : c.current = some s := by
      rw [current, hcurrent]
      exact hs
    rw [Hears, hlistens, hfield]
    simp only [Option.some.injEq, exists_eq_left', Option.any_some]
    split at hcalls
    next hheard =>
      exact iff_of_true (fun handler hmem => closeCalls_emit hmem hcalls) (.inr hheard)
    next hheard =>
      rw [or_iff_left hheard, List.eq_nil_iff_forall_not_mem]
      refine forall_congr' fun handler => imp_congr_right fun _ => iff_of_false ?_ not_false
      rw [closeCalls_of_same hcalls]
      rintro ⟨⟩
  next => cases hending

/-! ### The end of the connection -/

lemma onerror_of_not_connected (h : c.state ≠ .connected) : onerror o c (emit closing) = c := by
  rw [onerror, if_neg h]

lemma reject_calls (c : SSEClient) (awaited : Bool) : (c.reject awaited).calls = c.calls := by
  rw [reject]
  split <;> rfl

lemma reject_state (c : SSEClient) (awaited : Bool) : (c.reject awaited).state = c.state := by
  rw [reject]
  split <;> rfl

variable (closing) in
/-- An error before the connection has opened is told to the error handlers. -/
lemma handleInitialError_calls (h : c.state ≠ .connected) (i : ℕ) (awaited : Bool) :
    (handleInitialError c i awaited (emit closing)).state ≠ .connected ∧
      ∃ calls, (handleInitialError c i awaited (emit closing)).calls = c.calls ++ calls ∧
        ∀ call ∈ calls, call.event ≠ "close" := by
  rw [handleInitialError]
  split
  next => exact ⟨h, [], by simp, by simp⟩
  dsimp only
  split
  next j _ =>
    rw [reject_state, reject_calls]
    constructor
    · refine Emitted.not_connected (emit_emitted closing _ _ _) ?_
      rintro ⟨⟩
    · have hcalls : (SSEClient.removeTemporary { c with connectionHandled := true } i j).calls =
          c.calls := by
        rw [removeTemporary]
        split <;> rfl
      rw [emitError, emit_calls, hcalls]
      exact ⟨_, rfl, by simp⟩
  next => exact ⟨h, [], by simp, by simp⟩

variable (closing o) in
/-- The connection of a client that is not connected fails. -/
lemma failed_calls (c : SSEClient) (i : ℕ) (s : EventSource) (hstate : c.state ≠ .connected) :
    ∃ calls, (sourceError o c i s true (emit closing)).calls = c.calls ++ calls ∧
      ∀ call ∈ calls, call.event ≠ "close" := by
  rw [sourceError]
  by_cases htemporary : s.temporary = true
  · obtain ⟨hstate', hcalls⟩ := handleInitialError_calls closing
      (c := c.modifySource i fun s => { s with readyState := .closed }) hstate i s.awaited
    rw [if_pos htemporary, onerror_of_not_connected (by exact hstate'), ite_self]
    exact hcalls
  · rw [if_neg htemporary, onerror_of_not_connected (by exact hstate), ite_self]
    exact ⟨[], by simp [modifySource], by simp⟩

/-- **The end of the connection by which the client is connected** calls the close handlers. -/
lemma closed_calls (h : Sound c) {i : ℕ} {s : EventSource} (hs : c.sources[i]? = some s)
    (hcurrent : c.eventSource = some i) (hstate : c.state = .connected) :
    (sourceError o c i s true (emit closing)).calls =
      c.calls ++ (c.registered "close").map fun handler =>
        ⟨handler, "close", .close false (some (.string "Connection closed by server"))⟩ := by
  obtain ⟨j, t, hj, ht, -, htemporary, hpermanent⟩ := h.attached hstate
  obtain rfl := Option.some.inj (hcurrent.symm.trans hj)
  obtain rfl := Option.some.inj (hs.symm.trans ht)
  rw [sourceError, htemporary, if_neg Bool.false_ne_true, hpermanent, if_pos Nat.one_pos, onerror,
    if_pos (by exact hstate), if_pos, handleConnectionClosed, emit_calls]
  · rfl
  · simp [current, modifySource, hcurrent, hs]

lemma told_error_iff (h : Sound c) (i : ℕ) (fatal : Bool) :
    Told closing o c (.error i fatal) ↔ Heard closing o c (.error i fatal) := by
  refine forall_congr' fun info => forall_congr' fun c' => forall_congr' fun hending =>
    forall_congr' fun hstep => ?_
  cases fatal with
  | false => cases hending
  | true =>
      simp only [ending, Option.ite_none_right_eq_some, Option.some.injEq] at hending
      obtain ⟨hcurrent, rfl⟩ := hending
      obtain ⟨s, hs, -, rfl⟩ := stepWith_inv hstep
      have hhears : Hears o c (.error i true) ↔ c.state = .connected := Iff.rfl
      rw [hhears]
      by_cases hstate : c.state = .connected
      · refine iff_of_true (fun handler hmem => ?_) (.inr hstate)
        exact closeCalls_emit hmem (closed_calls h hs hcurrent hstate)
      · rw [or_iff_left hstate, List.eq_nil_iff_forall_not_mem]
        refine forall_congr' fun handler => imp_congr_right fun _ => iff_of_false ?_ not_false
        obtain ⟨calls, hcalls, hother⟩ := failed_calls closing o c i s hstate
        rw [closeCalls_of_other hcalls hother]
        rintro ⟨⟩

/-! ### Runs -/

lemma told_iff (h : Sound c) (a : Action) : Told closing o c a ↔ Heard closing o c a := by
  cases a with
  | message i type data id => exact told_message_iff h i type data id
  | error i fatal => exact told_error_iff h i fatal
  | «open» | reconnect | retry | heartbeat | on | off | close =>
      exact iff_of_true (fun _ _ hending => by cases hending) (fun _ _ hending => by cases hending)

/-- **The close handlers are told of every end of the stream exactly if there are none of them, or
the end is heard**: an event says to reconnect, or the connection ends by which the client is
connected. -/
theorem told_iff_heard (closing : ℕ → Bool) (o : Options) (thrown : Option String)
    (as : List Action) :
    Meets (step closing o) (Told closing o) (create closing o thrown) as ↔
      Meets (step closing o) (Heard closing o) (create closing o thrown) as :=
  ⟨Meets.mono (fun _ _ _ hs _ hstep => Sound.step hs hstep) (fun _ a hs => (told_iff hs a).mp)
      (create_sound thrown),
    Meets.mono (fun _ _ _ hs _ hstep => Sound.step hs hstep) (fun _ a hs => (told_iff hs a).mpr)
      (create_sound thrown)⟩

/-- A client whose messages all say not to reconnect. -/
def ended : Options :=
  { reconnecting with parse := fun _ => some (.object [("reconnect", .boolean false)]) }

/-- The connection opens, a close handler is registered, and the server ends the stream for good:
the client closes, and the handler is not called. -/
theorem not_told_close :
    ¬ Meets (step never ended) (Told never ended) (create never ended none)
      [.open 0, .on "close" 7, .message 0 "close" "{}" none] := by
  intro h
  have hrun : (exec (step never ended) (create never ended none)
      [.open 0, .on "close" 7]).any fun c =>
        7 ∈ c.registered "close" ∧ (ending ended c (.message 0 "close" "{}" none)).isSome ∧
          (step never ended c (.message 0 "close" "{}" none)).any fun c' =>
            (closeCalls c c' 7).isEmpty := by decide +kernel
  obtain ⟨c, hc, hends⟩ := (Option.any_eq_true _ _).mp hrun
  obtain ⟨hmem, hending, hstep⟩ := of_decide_eq_true hends
  obtain ⟨info, hinfo⟩ := Option.isSome_iff_exists.mp hending
  obtain ⟨c', hc', hnone⟩ := (Option.any_eq_true _ _).mp hstep
  have hsplit : Meets (step never ended) (Told never ended) (create never ended none)
      ([.open 0, .on "close" 7] ++ [.message 0 "close" "{}" none]) := h
  have htold := ((meets_append hc).mp hsplit).2.1
  have hcalls := htold info c' hinfo hc' 7 hmem
  rw [List.isEmpty_iff.mp hnone] at hcalls
  cases hcalls

end Blaize.Client.Reentrant
