import Blaize.Client.Handled
import Blaize.Server.Context
import Blaize.Sse.FirstEvent

/-!
Resuming after a reconnection.

The client puts the last id into the query of the URL; the stream on the server reads the
header `last-event-id`, which a new `EventSource` does not send.

* `EventSource.request`: the request that a new `EventSource` makes;
* `header`: the header getter of the context (`packages/blaize-core/src/context/create.ts`);
* `openStream`: the stream that answers the request;
* `Reconnects`: a run that receives an event and then reconnects;
* `resumes_iff_refused`: **the first event after the reconnection continues the ids exactly
  when the new stream refuses as many calls as there were ids**;
* `not_resumes_five`: after the event 5 comes the event 1.
-/

namespace Blaize.Client

open Machine

/-! ### The request -/

structure Request where
  url : Url
  headers : OrdMap String Server.HeaderValue

/-- The headers that every `EventSource` sends; what a browser adds does not concern the id. -/
def eventSourceHeaders : OrdMap String Server.HeaderValue :=
  (OrdMap.set ∅ "accept" (.single "text/event-stream")).set "cache-control" (.single "no-cache")

/-- The request of an `EventSource`, which names its own last event id, if it has one. -/
def EventSource.request (s : EventSource) : Request where
  url := s.url
  headers :=
    if s.lastEventId = "" then eventSourceHeaders
    else eventSourceHeaders.set "last-event-id" (.single s.lastEventId)

/-- `createRequestHeaderGetter`. -/
def header (request : Request) (name : String) : Option String :=
  match request.headers.get name.toLowerCase with
  | some (.many values) => some (", ".intercalate values)
  | some (.single value) => if value = "" then none else some value
  | none => none

/-- The stream that the route opens for the request. -/
def openStream (cfg : Sse.Config) (request : Request) : Sse.Stream :=
  Sse.createSSEStream cfg (header request "last-event-id")

namespace SSEClient

/-- The id of the last message of a run. -/
def lastReceived : List Action → Option String
  | [] => none
  | a :: as =>
      (lastReceived as).or
        (match a with
        | .message _ _ _ id => id
        | _ => none)

/-- In some run the client last receives an event with the id `n` and then reconnects with
the new `EventSource` `s`. -/
def Reconnects (o : Options) (thrown : Option String) (n : ℕ) (s : EventSource) : Prop :=
  ∃ as c c', exec (step o) (create o thrown) as = some c ∧
    lastReceived as = some (toString n) ∧
    c.step o (.reconnect none) = some c' ∧ c'.sources = c.sources ++ [s]

variable {o : Options} {c c' : SSEClient}

/-- A new `EventSource` has no last event id. -/
lemma connect_lastEventId {awaited : Bool} {thrown : Option String} {s : EventSource}
    (h : (c.connect o awaited thrown).sources = c.sources ++ [s]) : s.lastEventId = "" := by
  have hfailed : ∀ message, (c.connectFailed awaited message).sources ≠ c.sources ++ [s] := by
    intro message hm
    have := congrArg List.length (connectFailed_keeps c awaited message).sources
    rw [hm] at this
    simp at this
  rw [connect.eq_def] at h
  split at h
  next => exact absurd h (hfailed _)
  next => exact absurd h (hfailed _)
  next url _ =>
    rw [startHeartbeatTimer] at h
    have hs : c.sources ++ [{ url := c.buildConnectionUrl o url, awaited }] = c.sources ++ [s] := by
      split at h <;> exact h
    obtain rfl := List.singleton_inj.mp (List.append_cancel_left hs)
    rfl

lemma Reconnects.lastEventId {thrown : Option String} {n : ℕ} {s : EventSource}
    (h : Reconnects o thrown n s) : s.lastEventId = "" := by
  obtain ⟨as, c, c', -, -, hstep, hs⟩ := h
  obtain ⟨-, rfl⟩ := step_reconnect hstep
  rw [reconnect] at hs
  split at hs
  next =>
    have := congrArg List.length hs
    simp at this
  next => exact connect_lastEventId hs

end SSEClient

/-! ### The first event -/

/-- Without the header the counter starts at zero. -/
lemma openStream_idle (cfg : Sse.Config) {s : EventSource} (h : s.lastEventId = "") :
    (openStream cfg s.request).Idle 0 ∨ (openStream cfg s.request).Silent := by
  have hheader : header s.request "last-event-id" = none := by
    have hget : eventSourceHeaders.get "last-event-id".toLowerCase = none := by decide +kernel
    rw [header, EventSource.request, if_pos h, hget]
  rw [openStream, hheader]
  have hidle : ({ state := .connected } : Sse.Stream).Idle 0 := ⟨rfl, rfl, rfl, rfl, rfl⟩
  exact hidle.writeRaw_none _

/-- **Resumption, exactly with refused calls**: when the client has last received the event
`n` and reconnects, the first event of the new stream has the id `n + 1` if and only if the
stream has refused `n` calls before it, the counter standing still at `2 ^ 53`. -/
theorem resumes_iff_refused (o : Options) (thrown : Option String) (n : ℕ) (s : EventSource)
    (hs : SSEClient.Reconnects o thrown n s) (cfg : Sse.Config) (as : List Sse.Action)
    (t : Sse.Stream) (ht : exec (Sse.Stream.step cfg) (openStream cfg s.request) as = some t)
    (e : Sse.BufferedEvent) (es : List Sse.BufferedEvent) (hfirst : t.written = e :: es) :
    e.id = n + 1 ↔ min (Sse.refusedFirst cfg as + 1) (2 ^ 53) = n + 1 := by
  have hidle : (openStream cfg s.request).Idle 0 := by
    refine (openStream_idle cfg hs.lastEventId).resolve_right fun hsilent => ?_
    have := (meets_invariant (fun _ _ _ hs _ hstep => Sse.Stream.step_silent hstep hs) hsilent
      (meets_true _ as) ht).written
    rw [hfirst] at this
    cases this
  have hid := Sse.Stream.first_written hidle ht hfirst
  rw [Nat.zero_add] at hid
  rw [hid]
  exact_mod_cast Iff.rfl

namespace SSEClient

/-- The `EventSource` that follows the event `n`. -/
def resumed (n : ℕ) : EventSource where
  url := ⟨"http://localhost/events",
    [("lastEventId", toString n), ("x-correlation-id", "client")]⟩
  awaited := true

/-- The client receives the event `n`, loses the connection and reconnects. -/
lemma reconnects_of_run {n : ℕ}
    (h : (exec (step reconnecting) (create reconnecting none)
      [.open 0, .message 0 "message" "1" (some (toString n)), .error 0 false]).any fun c =>
        (c.step reconnecting (.reconnect none)).any fun c' =>
          c'.sources = c.sources ++ [resumed n]) : Reconnects reconnecting none n (resumed n) := by
  obtain ⟨c, hc, hstep⟩ := (Option.any_eq_true _ _).mp h
  obtain ⟨c', hc', hs⟩ := (Option.any_eq_true _ _).mp hstep
  exact ⟨_, c, c', hc, rfl, hc', of_decide_eq_true hs⟩

end SSEClient

open SSEClient

/-- The new stream refuses one call and goes on from the event 1. -/
theorem resumes_iff_refused_one : ∃ t e es,
    exec (Sse.Stream.step {}) (openStream {} (resumed 1).request)
      [.send "progress" (.json none), .send "progress" (.string "half")] = some t ∧
    t.written = e :: es ∧ e.id = (1 : ℕ) + 1 := by
  have hs : Reconnects reconnecting none 1 (resumed 1) := reconnects_of_run (by decide +kernel)
  have hrun : (exec (Sse.Stream.step {}) (openStream {} (resumed 1).request)
      [.send "progress" (.json none), .send "progress" (.string "half")]).any fun t =>
        t.written ≠ [] := by decide +kernel
  obtain ⟨t, ht, hwritten⟩ := (Option.any_eq_true _ _).mp hrun
  obtain ⟨e, es, hfirst⟩ := List.exists_cons_of_ne_nil (of_decide_eq_true hwritten)
  refine ⟨t, e, es, ht, hfirst, ?_⟩
  exact (resumes_iff_refused reconnecting none 1 _ hs {} _ t ht e es hfirst).mpr (by decide +kernel)

/-- The client has received the event 5 and says so in the URL, and the new stream begins
again with the event 1. -/
theorem not_resumes_five :
    Reconnects reconnecting none 5 (resumed 5) ∧
    ("lastEventId", "5") ∈ (resumed 5).url.searchParams ∧
    ∃ t e es, exec (Sse.Stream.step {}) (openStream {} (resumed 5).request)
      [.send "progress" (.string "half")] = some t ∧ t.written = e :: es ∧
      e.id ≠ (5 : ℕ) + 1 := by
  refine ⟨reconnects_of_run (by decide +kernel), by decide +kernel, ?_⟩
  have hrun : (exec (Sse.Stream.step {}) (openStream {} (resumed 5).request)
      [.send "progress" (.string "half")]).any fun t => t.wireIds = [1] := by decide +kernel
  obtain ⟨t, ht, hids⟩ := (Option.any_eq_true _ _).mp hrun
  obtain ⟨e, hwritten, hid⟩ := List.map_eq_singleton_iff.mp (of_decide_eq_true hids)
  refine ⟨t, e, [], ht, hwritten, ?_⟩
  rw [hid]
  decide

end Blaize.Client
