import Blaize.Lib.Machine
import Blaize.Sse.TypedStream
import Mathlib.Data.Rat.Defs

/-!
The server-sent-events client (`packages/blaize-client/src/sse-client.ts`).

An `SSEClient` holds the private fields of `SSEClientImpl` that its methods read, the
`EventSource` objects it has created, in the order of their creation, and what the event
loop keeps for it: the pending timers, the rejected promises that `attemptReconnect`
awaits, and the log of the handlers that were called.

* `EventSource`: the browser's object, with the listeners the client has put on it;
* `SSEClient.connect`, `attemptReconnect`, `on`, `off`, `close`: the code;
* `SSEClient.stepWith`: one uninterrupted piece of JavaScript, for any way of calling the
  handlers; `SSEClient.step`: the same with `emit`.

A listener that `on` makes is a new function each time and is known by a number; the two
listeners of one `connect` go with the `EventSource` it created.  Calls of the client from
within a handler are steps of their own.  The metrics and the times are left out, since
nothing reads them.
-/

namespace Blaize.Client

open Machine

/-! ### Data -/

/-- A value that `JSON.parse` gives. -/
inductive Json where
  | null
  | boolean (b : Bool)
  | number (n : ℚ)
  | string (text : String)
  | array (items : List Json)
  | object (fields : List (String × Json))

namespace Json

/-- `Boolean(value)`. -/
def truthy : Json → Bool
  | .null => false
  | .boolean b => b
  | .number n => n != 0
  | .string text => text != ""
  | .array _ => true
  | .object _ => true

/-- The member of an object; no other value has one of the names the client reads. -/
def field (name : String) : Json → Option Json
  | .object fields => OrdMap.find name fields
  | _ => none

/-- `value || other` for a member that may be undefined. -/
def orElse : Option Json → Json → Json
  | some value, other => if value.truthy then value else other
  | none, other => other

end Json

/-- The states of the client. -/
inductive SSEConnectionState where
  | connecting
  | connected
  | disconnected
  | closed
  deriving DecidableEq, Repr

/-- What a handler is called with. -/
inductive Payload where
  | undefined
  | data (value : Json)
  | close (reconnect : Bool) (reason : Option Json)
  | connectionError (message : String) (state : SSEConnectionState) (reconnectAttempts : ℕ)
  | streamError (message correlationId : Json) (code name : Option Json) (rawData : Json)
  | heartbeatError (message : String) (lastEventId : Option String)

/-- A call of a handler. -/
structure Call where
  handler : ℕ
  event : String
  data : Payload

/-! ### The `EventSource` -/

/-- A URL, its query taken apart. -/
structure Url where
  base : String
  searchParams : List (String × String) := []
  deriving DecidableEq, Repr

/-- `searchParams.set`: the first parameter of the name gets the value, the others go. -/
def Url.set (url : Url) (name value : String) : Url :=
  { url with
    searchParams :=
      if url.searchParams.any (·.1 == name) then
        let (before, rest) := url.searchParams.span (·.1 != name)
        before ++ (name, value) :: rest.tail.filter (·.1 != name)
      else url.searchParams ++ [(name, value)] }

/-- The states of an event source. -/
inductive ReadyState where
  | connecting
  | open
  | closed
  deriving DecidableEq, Repr

/-- An `EventSource`.  `lastEventId` is its own last event id, `temporary` says whether
`handleOpen` and `handleInitialError` are still on it, `permanent` how often the permanent
handlers were put on it, and `custom` lists the listeners of custom events.  `awaited` says
whether `attemptReconnect` awaits the promise of the `connect` that created it. -/
structure EventSource where
  url : Url
  awaited : Bool
  readyState : ReadyState := .connecting
  lastEventId : String := ""
  temporary : Bool := true
  permanent : ℕ := 0
  custom : List (String × ℕ) := []
  deriving DecidableEq, Repr

/-- The parts of the options that the modelled methods read.  `url` is what `new URL` makes
of the URL, against the base if need be, and `none` if that throws; `heartbeatTimeout` says
whether one is set; `maxAttempts` is `none` for `Infinity`; `parse` is `JSON.parse`. -/
structure Options where
  url : Option Url
  correlationId : String
  reconnect : Bool := false
  maxAttempts : Option ℤ := some 5
  heartbeatTimeout : Bool := false
  parseJSON : Bool := true
  parse : String → Option Json

/-- The fields of the client, and what it has told. -/
structure SSEClient where
  sources : List EventSource := []
  eventSource : Option ℕ := none
  handlers : OrdMap String (OrdSet ℕ) := ∅
  state : SSEConnectionState := .connecting
  lastEventId : Option String := none
  heartbeatTimer : Bool := false
  reconnectAttempts : ℕ := 0
  connectionHandled : Bool := false
  customEventHandlers : OrdMap String ℕ := ∅
  reconnectTimers : ℕ := 0
  rejections : ℕ := 0
  listeners : ℕ := 0
  calls : List Call := []
  closeCalled : Bool := false

variable (o : Options)

namespace SSEClient

/-- Changes one event source. -/
def modifySource (c : SSEClient) (i : ℕ) (f : EventSource → EventSource) : SSEClient :=
  { c with sources := c.sources.modify i f }

/-- The object `this.eventSource`. -/
def current (c : SSEClient) : Option EventSource := c.eventSource.bind (c.sources[·]?)

/-! ### Handlers -/

/-- `this.emit(event, data)`: the handlers are called in their order. -/
def emit (c : SSEClient) (event : String) (data : Payload) : SSEClient :=
  match c.handlers.get event with
  | some handlers => { c with calls := c.calls ++ handlers.keys.map (⟨·, event, data⟩) }
  | none => c

/-- What calls the handlers of an event: `emit`, or one whose handlers call the client. -/
abbrev Emitter := SSEClient → String → Payload → SSEClient

/-- `this.emit('error', error)` -/
def emitError (c : SSEClient) (error : Payload) (emit : Emitter := emit) : SSEClient :=
  emit c "error" error

/-- The data of an event, parsed if the options ask for it. -/
def parseEventData (data : String) : Json :=
  if o.parseJSON then (o.parse data).getD (.string data) else .string data

/-- Stops the heartbeat timer. -/
def clearHeartbeatTimer (c : SSEClient) : SSEClient := { c with heartbeatTimer := false }

/-- Starts the heartbeat timer again, if there is one. -/
def resetHeartbeatTimer (c : SSEClient) : SSEClient :=
  { c with heartbeatTimer := o.heartbeatTimeout && c.state == .connected }

/-- Starts the heartbeat timer. -/
def startHeartbeatTimer (c : SSEClient) : SSEClient :=
  if o.heartbeatTimeout then c.resetHeartbeatTimer o else c

/-- The events the client treats itself. -/
def builtIn : List String := ["error", "open", "close", "message"]

/-- `on`, where a member that `handlers` inherits is no set and `add` throws. -/
def on (c : SSEClient) (event : String) (handler : ℕ) : SSEClient :=
  if event ∈ Js.objectMembers then c
  else
    match c.handlers.get event with
    | some handlers => { c with handlers := c.handlers.set event (handlers.add handler) }
    | none =>
        let c := { c with handlers := c.handlers.set event (OrdSet.add ∅ handler) }
        match c.eventSource with
        | some i =>
            if event ∉ builtIn then
              { c.modifySource i (fun s => { s with custom := s.custom ++ [(event, c.listeners)] })
                with
                customEventHandlers := c.customEventHandlers.set event c.listeners
                listeners := c.listeners + 1 }
            else c
        | none => c

/-- `delete` for one handler, `clear` without one. -/
def without (handlers : OrdSet ℕ) : Option ℕ → OrdSet ℕ
  | some handler => handlers.delete handler
  | none => ∅

/-- `off`, for one handler or for all of them. -/
def off (c : SSEClient) (event : String) (handler : Option ℕ) : SSEClient :=
  if event ∈ Js.objectMembers then c
  else
    match c.handlers.get event with
    | none => c
    | some handlers =>
        let handlers := without handlers handler
        if handlers.size = 0 then
          let c := { c with handlers := c.handlers.delete event }
          match c.eventSource, c.customEventHandlers.get event with
          | some i, some l =>
              { c.modifySource i (fun s => { s with custom := s.custom.filter (· ≠ (event, l)) })
                with customEventHandlers := c.customEventHandlers.delete event }
          | _, _ => c
        else { c with handlers := c.handlers.set event handlers }

/-- `close`, in any of the places that call it. -/
def close (c : SSEClient) : SSEClient :=
  let c := { c.clearHeartbeatTimer with state := .closed, closeCalled := true }
  let c :=
    match c.eventSource with
    | some i =>
        { c.modifySource i (fun s =>
            { s with
              readyState := .closed
              custom := s.custom.filter fun p => c.customEventHandlers.get p.1 ≠ some p.2 })
          with
          customEventHandlers := ∅
          eventSource := none }
    | none => c
  { c with handlers := ∅ }

/-! ### Connecting -/

/-- The URL with the id of the last event and the correlation id. -/
def buildConnectionUrl (c : SSEClient) (url : Url) : Url :=
  let url :=
    match c.lastEventId with
    | some id => if id ≠ "" then url.set "lastEventId" id else url
    | none => url
  url.set "x-correlation-id" o.correlationId

/-- The rejection of the promise of a `connect`; nobody retries the first one. -/
def reject (c : SSEClient) (awaited : Bool) : SSEClient :=
  if awaited then { c with rejections := c.rejections + 1 } else c

/-- The `catch` of `connect`. -/
def connectFailed (c : SSEClient) (awaited : Bool) (errorMessage : String)
    (emit : Emitter := emit) : SSEClient :=
  let message :=
    if (Js.search (Js.matchLiteral "Invalid URL".toList) errorMessage.toList).isSome then
      "Invalid SSE URL"
    else "Failed to create EventSource"
  let c := { c with state := .disconnected }
  (c.emitError (.connectionError message .connecting c.reconnectAttempts) emit).reject awaited

/-- `connect`, where `thrown` is the message of what the factory throws, if it does. -/
def connect (c : SSEClient) (awaited : Bool) (thrown : Option String)
    (emit : Emitter := emit) : SSEClient :=
  match o.url, thrown with
  | none, _ => c.connectFailed awaited "Invalid URL" emit
  | some _, some message => c.connectFailed awaited message emit
  | some url, none =>
      startHeartbeatTimer o
        { c with
          sources := c.sources ++ [{ url := c.buildConnectionUrl o url, awaited }]
          eventSource := some c.sources.length
          connectionHandled := false }

/-- `removeEventListener` for the two listeners of a `connect`, called on the current
`EventSource`: they are on the one it created. -/
def removeTemporary (c : SSEClient) (i j : ℕ) : SSEClient :=
  if i = j then c.modifySource j fun s => { s with temporary := false } else c

/-- Adds the permanent listeners to the event source. -/
def setupPermanentEventHandlers (c : SSEClient) : SSEClient :=
  match c.eventSource with
  | some i => c.modifySource i fun s => { s with permanent := s.permanent + 1 }
  | none => c

/-- The `handleOpen` of the `connect` that created the `i`-th `EventSource`; without a
current one it throws half-way. -/
def handleOpen (c : SSEClient) (i : ℕ) (emit : Emitter := emit) : SSEClient :=
  if c.connectionHandled then c
  else
    let c := { c with connectionHandled := true, state := .connected, reconnectAttempts := 0 }
    match c.eventSource with
    | some j =>
        let c := (c.removeTemporary i j).setupPermanentEventHandlers
        emit (c.resetHeartbeatTimer o) "open" .undefined
    | none => c

/-- The temporary listener for `error`. -/
def handleInitialError (c : SSEClient) (i : ℕ) (awaited : Bool) (emit : Emitter := emit) :
    SSEClient :=
  if c.connectionHandled then c
  else
    let c := { c with connectionHandled := true }
    match c.eventSource with
    | some j =>
        let c := { c.removeTemporary i j with state := .disconnected }
        (c.emitError (.connectionError "SSE connection error" .connecting 0) emit).reject awaited
    | none => c

/-- `attemptReconnect`, up to its timer. -/
def attemptReconnect (c : SSEClient) (emit : Emitter := emit) : SSEClient :=
  if !o.reconnect then c
  else if o.maxAttempts.any (· ≤ (c.reconnectAttempts : ℤ)) then
    c.close.emitError
      (.connectionError "Max reconnection attempts exceeded" .disconnected c.reconnectAttempts)
      emit
  else { c with reconnectTimers := c.reconnectTimers + 1 }

/-- The timer of `attemptReconnect`. -/
def reconnect (c : SSEClient) (thrown : Option String) (emit : Emitter := emit) : SSEClient :=
  if c.state = .closed then c else connect o { c with state := .connecting } true thrown emit

/-- The server has closed the connection. -/
def handleConnectionClosed (c : SSEClient) (reason : String) (emit : Emitter := emit) :
    SSEClient :=
  emit c.clearHeartbeatTimer "close" (.close false (some (.string reason)))

/-- The permanent `onerror`; it asks the current `EventSource`, whichever has failed. -/
def onerror (c : SSEClient) (emit : Emitter := emit) : SSEClient :=
  if c.state = .connected then
    if c.current.any (·.readyState = .closed) then
      { c with state := .closed }.handleConnectionClosed "Connection closed by server" emit
    else
      let c := { c with state := .disconnected, reconnectAttempts := c.reconnectAttempts + 1 }
      let c := c.emitError
        (.connectionError "SSE connection error - reconnecting" .disconnected c.reconnectAttempts)
        emit
      attemptReconnect o c emit
  else c

/-- The callback of the heartbeat timer. -/
def handleHeartbeatTimeout (c : SSEClient) (emit : Emitter := emit) : SSEClient :=
  let c := { c with state := .disconnected, heartbeatTimer := false }
  let c := c.emitError
    (.heartbeatError "SSE heartbeat timeout - connection may be dead" c.lastEventId) emit
  match c.eventSource with
  | some i =>
      { c.modifySource i (fun s => { s with readyState := .closed }) with eventSource := none }
  | none => c

/-! ### Events from the server -/

/-- A message event, as the `EventSource` makes it. -/
structure MessageEvent where
  type : String
  data : String
  lastEventId : String
  deriving DecidableEq, Repr

/-- What `handleMessage` and the listeners of custom events share. -/
def receive (c : SSEClient) (event : MessageEvent) (emit : Emitter := emit) : SSEClient :=
  let c := if event.lastEventId ≠ "" then { c with lastEventId := some event.lastEventId } else c
  emit (c.resetHeartbeatTimer o) event.type (.data (parseEventData o event.data))

/-- An event without a type of its own. -/
def handleMessage (c : SSEClient) (event : MessageEvent) (emit : Emitter := emit) : SSEClient :=
  c.receive o event emit

/-- `handleServerError`, where the members of `null` throw. -/
def handleServerError (c : SSEClient) (event : MessageEvent) (emit : Emitter := emit) :
    SSEClient :=
  match parseEventData o event.data with
  | .null => c
  | errorData =>
      c.emitError
        (.streamError (Json.orElse (errorData.field "message") (.string "Server error"))
          (Json.orElse (errorData.field "correlationId") (.string o.correlationId))
          (errorData.field "code") (errorData.field "name") errorData)
        emit

/-- An event of type `close` from the server. -/
def handleCloseEvent (c : SSEClient) (event : MessageEvent) (emit : Emitter := emit) :
    SSEClient :=
  let data := parseEventData o event.data
  match data.field "reconnect" with
  | some reconnect =>
      let c := if reconnect.truthy then c else c.close
      emit c "close" (.close reconnect.truthy (data.field "reason"))
  | none => c

/-- A message event on the `i`-th `EventSource`, which is `s`: its listeners run in the
order they were added.  A message called `error` or `open` reaches the listeners that are
meant for the connection as well. -/
def dispatch (c : SSEClient) (i : ℕ) (s : EventSource) (event : MessageEvent)
    (emit : Emitter := emit) : SSEClient :=
  if event.type = "message" then
    if 0 < s.permanent then c.handleMessage o event emit else c
  else if event.type = "open" then
    if s.temporary then c.handleOpen o i emit else c
  else if event.type = "error" then
    let c := if s.temporary then c.handleInitialError i s.awaited emit else c
    let c := if 0 < s.permanent then c.onerror o emit else c
    (fun c => c.handleServerError o event emit)^[s.permanent] c
  else if event.type = "close" then
    (fun c => c.handleCloseEvent o event emit)^[s.permanent] c
  else
    (fun c => c.receive o event emit)^[s.custom.countP (·.1 = event.type)] c

/-! ### Runs -/

/-- One uninterrupted piece of JavaScript.  The browser opens the connection of an
`EventSource`, fails it (for good if `fatal`, else it tries again by itself) or delivers a
message; a timer fires; `retry` is the `catch` of a reconnection; and the application calls
the client. -/
inductive Action where
  | open (i : ℕ)
  | error (i : ℕ) (fatal : Bool)
  | message (i : ℕ) (type data : String) (id : Option String)
  | reconnect (thrown : Option String)
  | retry
  | heartbeat
  | on (event : String) (handler : ℕ)
  | off (event : String) (handler : Option ℕ)
  | close
  deriving DecidableEq, Repr

/-- The connection opens. -/
def sourceOpen (c : SSEClient) (i : ℕ) (s : EventSource) (emit : Emitter := emit) : SSEClient :=
  let c := c.modifySource i fun s => { s with readyState := .open }
  if s.temporary then c.handleOpen o i emit else c

/-- The connection fails. -/
def sourceError (c : SSEClient) (i : ℕ) (s : EventSource) (fatal : Bool)
    (emit : Emitter := emit) : SSEClient :=
  let c := c.modifySource i fun s =>
    { s with readyState := if fatal then .closed else .connecting }
  let c := if s.temporary then c.handleInitialError i s.awaited emit else c
  if 0 < s.permanent then c.onerror o emit else c

/-- A message arrives; one without an id carries the last id again. -/
def sourceMessage (c : SSEClient) (i : ℕ) (s : EventSource) (type data : String)
    (id : Option String) (emit : Emitter := emit) : SSEClient :=
  let lastEventId := id.getD s.lastEventId
  dispatch o (c.modifySource i fun s => { s with lastEventId }) i s ⟨type, data, lastEventId⟩ emit

/-- What an action does; `none`: it cannot happen. -/
def stepWith (emit : Emitter) (c : SSEClient) : Action → Option SSEClient
  | .open i =>
      match c.sources[i]? with
      | some s => if s.readyState = .connecting then some (c.sourceOpen o i s emit) else none
      | none => none
  | .error i fatal =>
      match c.sources[i]? with
      | some s =>
          if s.readyState ≠ .closed then some (c.sourceError o i s fatal emit) else none
      | none => none
  | .message i type data id =>
      match c.sources[i]? with
      | some s =>
          if s.readyState = .open then some (c.sourceMessage o i s type data id emit) else none
      | none => none
  | .reconnect thrown =>
      if 0 < c.reconnectTimers then
        some (reconnect o { c with reconnectTimers := c.reconnectTimers - 1 } thrown emit)
      else none
  | .retry =>
      if 0 < c.rejections then
        some (attemptReconnect o { c with rejections := c.rejections - 1 } emit)
      else none
  | .heartbeat => if c.heartbeatTimer then some (c.handleHeartbeatTimeout emit) else none
  | .on event handler => some (c.on event handler)
  | .off event handler => some (c.off event handler)
  | .close => some c.close

/-- The same, where no handler calls the client. -/
def step : SSEClient → Action → Option SSEClient := stepWith o emit

/-- The client that `createSSEClient` makes, after its first `connect`. -/
def create (thrown : Option String) (emit : Emitter := emit) : SSEClient :=
  connect o {} false thrown emit

/-- A client that reconnects. -/
def reconnecting : Options :=
  { url := some ⟨"http://localhost/events", []⟩
    correlationId := "client"
    reconnect := true
    parse := fun _ => none }

end SSEClient

end Blaize.Client
