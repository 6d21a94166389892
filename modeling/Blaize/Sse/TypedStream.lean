import Blaize.Lib.Js
import Blaize.Lib.OrdMap
import Blaize.Sse.Ordering

/-!
The typed stream (`packages/blaize-core/src/sse/create.ts`): `createTypedStream` makes an
object whose prototype is the base stream and gives it a `send` that is bound to the base.

A method that is called on the wrapper reads a field from the wrapper if it was assigned
there, and from the base otherwise; what it assigns, it assigns on the wrapper, and what it
changes in place (the array of the buffer, the metrics, the response) both share.

* `Schemas.lookup`: `eventSchemas[event]`, which finds the members of `Object.prototype` too;
* `Own`: the fields that were assigned on the wrapper;
* `Connection`: the base stream, the wrapper and their close callbacks;
* `Connection.view`: the stream as the wrapper sees it;
* `Connection.direct`, `Connection.wrapped`: the calls of a route, on the base stream and on
  the wrapper, with what they return.
-/

namespace Blaize.Sse

/-! ### Schemas -/

/-- The schema of an event: what `parse` returns, or the message of what it throws. -/
abbrev Schema := Value → Except String Value

/-- The event schemas of a route. -/
abbrev Schemas := OrdMap String Schema

/-- `eventSchemas[event]`; an inherited member has no method `parse`. -/
def Schemas.lookup (schemas : Schemas) (event : String) : Option Schema :=
  match schemas.get event with
  | some schema => some schema
  | none =>
      if event ∈ Js.objectMembers then some fun _ => .error "schema.parse is not a function"
      else none

/-- The texts of the engine: the message of an error that `send` throws, and the JSON of the
record that `sendError` makes of a message. -/
structure Texts where
  messageOf : StreamError → String
  errorRecord : String → Option String

/-! ### The two objects -/

/-- The object on which a method runs. -/
inductive This where
  | base
  | typed
  deriving DecidableEq, Repr

/-- The fields that were assigned on the wrapper. -/
structure Own where
  state : Option SSEConnectionState := none
  writable : Option Bool := none
  buffer : Option (List BufferedEvent) := none
  closeCallbacks : Option (List ℕ) := none
  deriving DecidableEq, Repr

/-- What a call returns or throws. -/
inductive Outcome where
  | returned
  | threw (error : StreamError)
  | state (state : SSEConnectionState)
  | isWritable (writable : Bool)
  | bufferSize (size : ℕ)
  deriving DecidableEq, Repr

/-- The stream of a request: the base with its close callbacks and whether it still listens to
the request, and the wrapper with its own flushes.  `runs` are the callbacks that have run. -/
structure Connection where
  base : Stream
  closeCallbacks : List ℕ := []
  listening : Bool := true
  own : Own := {}
  ownWaiting : ℕ := 0
  ownResumed : ℕ := 0
  runs : List ℕ := []
  outcomes : List Outcome := []
  deriving DecidableEq, Repr

/-- A call of the route, or something that the event loop does. -/
inductive Use where
  | send (event : String) (data : Value)
  | sendError (errorData : Option String)
  | ping (comment : Option String)
  | setRetry (milliseconds : Option ℤ)
  | onClose (callback : ℕ)
  | flush
  | close
  | readState
  | readIsWritable
  | readBufferSize
  | requestClose
  | drain
  | resume (this : This)

/-- The outcome of a method that may throw. -/
def Outcome.ofError : Option StreamError → Outcome
  | none => .returned
  | some error => .threw error

namespace Connection

variable (cfg : Config) (texts : Texts) (schemas : Schemas) (c : Connection)

/-! ### On the base stream -/

/-- The base after one of its methods; if that has closed it, the cleanup has run. -/
def updateBase (s : Stream) : Connection :=
  if c.base.state ≠ .closed ∧ s.state = .closed then
    { c with
      base := s
      closeCallbacks := []
      listening := false
      runs := c.runs ++ c.closeCallbacks }
  else
    { c with base := s }

/-- `'drain'` wakes the flushes of both objects. -/
def drain : Connection :=
  { c with
    base := { c.base with waiting := 0, resumed := c.base.resumed + c.base.waiting }
    ownWaiting := 0
    ownResumed := c.ownResumed + c.ownWaiting }

/-- `send` of the stream below. -/
def sendBase (event : String) (data : Value) : Connection × Option StreamError :=
  (c.updateBase (c.base.send cfg event data).1, (c.base.send cfg event data).2)

/-- The calls on the base stream itself. -/
def direct : Use → Option (Connection × Outcome)
  | .send event data =>
      some ((c.sendBase cfg event data).1, .ofError (c.sendBase cfg event data).2)
  | .sendError errorData => some (c.updateBase (c.base.sendError cfg errorData), .returned)
  | .ping comment => some (c.updateBase (c.base.ping cfg comment), .returned)
  | .setRetry milliseconds =>
      some (c.updateBase (c.base.setRetry cfg milliseconds).1,
        .ofError (c.base.setRetry cfg milliseconds).2)
  | .onClose callback =>
      if c.base.state = .closed then some ({ c with runs := c.runs ++ [callback] }, .returned)
      else some ({ c with closeCallbacks := c.closeCallbacks ++ [callback] }, .returned)
  | .flush => some (c.updateBase (c.base.flush cfg), .returned)
  | .close => some (c.updateBase (c.base.close cfg), .returned)
  | .readState => some (c, .state c.base.state)
  | .readIsWritable => some (c, .isWritable c.base.isWritable)
  | .readBufferSize => some (c, .bufferSize c.base.buffer.length)
  | .requestClose =>
      -- the listener of the stream comes first, then the one of the route
      let c := if c.listening then c.updateBase (c.base.handleDisconnect cfg) else c
      some (c.updateBase (c.base.close cfg), .returned)
  | .drain => some (c.drain, .returned)
  | .resume _ =>
      if 0 < c.base.resumed then
        some (c.updateBase ({ c.base with resumed := c.base.resumed - 1 }.flushBuffer cfg),
          .returned)
      else none

/-! ### On the wrapper -/

/-- The stream as a method on the wrapper sees it. -/
def view : Stream :=
  { c.base with
    state := c.own.state.getD c.base.state
    writable := c.own.writable.getD c.base.writable
    buffer := c.own.buffer.getD c.base.buffer }

/-- What a method on the wrapper leaves behind that ends with `s`, if all it assigns is
`_writable`, when a write throws. -/
def absorb (s : Stream) : Connection :=
  { c with
    base :=
      { c.base with
        metrics := s.metrics
        writes := s.writes
        buffer := if c.own.buffer.isSome then c.base.buffer else s.buffer }
    own :=
      { c.own with
        writable := if s.writable = c.view.writable then c.own.writable else some s.writable
        buffer := c.own.buffer.map fun _ => s.buffer }
    ownWaiting := c.ownWaiting + (s.waiting - c.base.waiting) }

/-- `close` on the wrapper, with the cleanup: state, flag, buffer and callbacks are assigned
on the wrapper, and the base keeps its own. -/
def closeTyped : Connection :=
  if c.view.state = .closed then
    c
  else
    { c with
      base := { c.base with writes := (c.view.close cfg).writes }
      listening := false
      own :=
        { state := some .closed
          writable := some false
          buffer := some []
          closeCallbacks := some [] }
      runs := c.runs ++ c.own.closeCallbacks.getD c.closeCallbacks }

/-- The message of the error that stands for an event with a failed schema. -/
def validationMessage (event message : String) : String :=
  "Event '" ++ event ++ "' validation failed: " ++ message

/-- The `send` of the wrapper: whatever is thrown for an event with a schema, the schema's
error or one of the base's `send`, is sent as an error event. -/
def sendTyped (event : String) (data : Value) : Connection × Option StreamError :=
  let fail (c : Connection) (message : String) : Connection × Option StreamError :=
    (c.updateBase (c.base.sendError cfg (texts.errorRecord (validationMessage event message))),
      none)
  match schemas.lookup event with
  | none => c.sendBase cfg event data
  | some schema =>
      match schema data with
      | .error message => fail c message
      | .ok validated =>
          match c.sendBase cfg event validated with
          | (c, none) => (c, none)
          | (c, some error) => fail c (texts.messageOf error)

/-- The calls on the wrapper. -/
def wrapped : Use → Option (Connection × Outcome)
  | .send event data =>
      some ((c.sendTyped cfg texts schemas event data).1,
        .ofError (c.sendTyped cfg texts schemas event data).2)
  | .sendError errorData =>
      if ! c.view.isWritable then some (c, .returned)
      -- `this.send` is the one of the wrapper, and what it throws is logged
      else some ((c.sendTyped cfg texts schemas "error" (.json errorData)).1, .returned)
  | .ping comment => some (c.absorb (c.view.ping cfg comment), .returned)
  | .setRetry milliseconds =>
      some (c.absorb (c.view.setRetry cfg milliseconds).1,
        .ofError (c.view.setRetry cfg milliseconds).2)
  | .onClose callback =>
      if c.view.state = .closed then some ({ c with runs := c.runs ++ [callback] }, .returned)
      else
        match c.own.closeCallbacks with
        | none => some ({ c with closeCallbacks := c.closeCallbacks ++ [callback] }, .returned)
        | some callbacks =>
            some ({ c with own.closeCallbacks := some (callbacks ++ [callback]) }, .returned)
  | .flush => some (c.absorb (c.view.flush cfg), .returned)
  | .close => some (c.closeTyped cfg, .returned)
  | .readState => some (c, .state c.view.state)
  | .readIsWritable => some (c, .isWritable c.view.isWritable)
  | .readBufferSize => some (c, .bufferSize c.view.buffer.length)
  | .requestClose =>
      let c := if c.listening then c.updateBase (c.base.handleDisconnect cfg) else c
      some (c.closeTyped cfg, .returned)
  | .drain => some (c.drain, .returned)
  | .resume .base =>
      if 0 < c.base.resumed then
        some (c.updateBase ({ c.base with resumed := c.base.resumed - 1 }.flushBuffer cfg),
          .returned)
      else none
  | .resume .typed =>
      if 0 < c.ownResumed then
        some ({ c with ownResumed := c.ownResumed - 1 }.absorb (c.view.flushBuffer cfg), .returned)
      else none

/-- A step with its outcome written down. -/
def record : Connection × Outcome → Connection :=
  fun p => { p.1 with outcomes := p.1.outcomes ++ [p.2] }

/-- A use of the stream below. -/
def stepDirect (u : Use) : Option Connection := (c.direct cfg u).map record

/-- A use of the typed stream. -/
def stepWrapped (u : Use) : Option Connection := (c.wrapped cfg texts schemas u).map record

end Connection

end Blaize.Sse
