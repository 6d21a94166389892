import Blaize.Lib.Js
import Blaize.Lib.OrdMap
import Blaize.Lib.Program

/-!
The context of a request (`packages/blaize-core/src/context/create.ts`): the request object
with its sections, Node's response, and the responders of `ctx.response`.

A `World` is what one request works on.  Handlers and middlewares are code over the
interface `Op`: whatever they do, they reach the response through these operations.  A
readable that was piped into the response delivers its events at the awaits of a run, in
batches that the outside world picks (`arrivals`).

* `Thrown`, `BlaizeError`: what can be thrown;
* `Res`: Node's response, with the head fixed by the first write;
* `Responder`, `respond`: `json`, `text`, `html`, `redirect` and `stream`;
* `tick`: one `await`;
* `Op`, `perform`: the interface of handlers and middlewares, with the writes that go past the
  responders, as those of a stream of server-sent events.

A responder gives its status, its headers and its payload; the payloads are kept as values
instead of their texts, so that the body of an error response can be read.  Timestamps,
loggers and the event bus are left out.
-/

namespace Blaize.Server

/-! ### Errors -/

/-- The types of the error responses. -/
inductive ErrorType where
  | VALIDATION_ERROR
  | NOT_FOUND
  | UNAUTHORIZED
  | FORBIDDEN
  | SSE_NOT_ACCEPTABLE
  | CONFLICT
  | RATE_LIMITED
  | INTERNAL_SERVER_ERROR
  | PAYLOAD_TOO_LARGE
  | UNSUPPORTED_MEDIA_TYPE
  | UPLOAD_TIMEOUT
  | UNPROCESSABLE_ENTITY
  deriving DecidableEq, Repr

/-- The sections of a request that a schema can be declared for. -/
inductive Section where
  | params
  | query
  | body
  | files
  deriving DecidableEq, Repr

/-- A field with its messages. -/
structure ValidationFieldError where
  field : String
  messages : List String
  deriving DecidableEq, Repr

/-- The details of an error; `custom` are those of the application's own errors. -/
inductive ErrorDetails (V : Type) where
  | none
  | validation (fields : List ValidationFieldError) (errorCount : ℕ) (section_ : Section)
  | originalMessage (message : String)
  | responseValidation (validationError : List ValidationFieldError) (hint : String)
  | custom (details : V)
  deriving DecidableEq

/-- What is sent as the body of an error response. -/
structure BlaizeError (V : Type) where
  type : ErrorType
  title : String
  status : ℕ
  correlationId : String
  details : ErrorDetails V := .none
  deriving DecidableEq

/-- What can be thrown: a `BlaizeError`, another `Error` with its message, or any value with
the text that `String` makes of it, `none` for `null` and `undefined`. -/
inductive Thrown (V : Type) where
  | blaize (error : BlaizeError V)
  | error (message : String)
  | value (text : Option String)
  deriving DecidableEq

/-! ### Node's response -/

/-- What is written to a response. -/
inductive Payload (V : Type) where
  | json (body : V)
  | error (body : BlaizeError V)
  | unhandled (error message correlationId : String)
  | text (body : String)
  | chunk (bytes : Js.Bytes)
  deriving DecidableEq

/-- The status line and the headers, by their names in lower case. -/
structure Head where
  statusCode : ℕ
  headers : OrdMap String String
  deriving DecidableEq

/-- The response of Node. -/
structure Res (V : Type) where
  statusCode : ℕ := 200
  headers : OrdMap String String := ∅
  /-- What was sent as the head, from the first write on. -/
  head : Option Head := none
  body : List (Payload V) := []
  ended : Bool := false
  deriving DecidableEq

variable {V : Type}

namespace Res

/-- Whether the head has gone out. -/
def headersSent (res : Res V) : Bool := res.head.isSome

/-- `res.setHeader(name, value)`, which throws once the head has gone out. -/
def setHeader (res : Res V) (name value : String) : Except (Thrown V) (Res V) :=
  if res.headersSent then
    .error (.error "Cannot set headers after they are sent to the client")
  else .ok { res with headers := res.headers.set name.toLowerCase value }

lemma setHeader_of_head {res : Res V} (h : res.head = none) (name value : String) :
    res.setHeader name value =
      .ok { res with headers := res.headers.set name.toLowerCase value } := by
  rw [setHeader, headersSent, if_neg (by simp [h])]

/-- The head goes out as it is when something is written first. -/
def flush (res : Res V) : Res V :=
  { res with head := some (res.head.getD ⟨res.statusCode, res.headers⟩) }

/-- `write`; what comes after the end is not sent. -/
def write (res : Res V) (payload : Payload V) : Res V :=
  if res.ended then res else { res.flush with body := res.body ++ [payload] }

/-- `end`, with or without a last payload. -/
def «end» (res : Res V) (payload : Option (Payload V)) : Res V :=
  if res.ended then res else { res.flush with body := res.body ++ payload.toList, ended := true }

end Res

/-! ### The world of a request -/

/-- The value of a request header, as Node delivers it. -/
inductive HeaderValue where
  | single (value : String)
  | many (values : List String)
  deriving DecidableEq

/-- A request as the handlers see it. -/
structure Request (V : Type) where
  method : String
  path : String
  headers : OrdMap String HeaderValue := ∅
  params : V
  query : V
  body : V
  files : V

/-- A section of a request. -/
def Request.get (request : Request V) : Section → V
  | .params => request.params
  | .query => request.query
  | .body => request.body
  | .files => request.files

/-- Puts a value into a section. -/
def Request.set (request : Request V) (value : V) : Section → Request V
  | .params => { request with params := value }
  | .query => { request with query := value }
  | .body => { request with body := value }
  | .files => { request with files := value }

@[simp] lemma Request.get_set (request : Request V) (value : V) (s t : Section) :
    (request.set value s).get t = if s = t then value else request.get t := by
  cases s <;> cases t <;> rfl

/-- What a readable tells the response it is piped into. -/
inductive StreamEvent where
  | data (bytes : Js.Bytes)
  | «end»
  | error
  deriving DecidableEq

/-- The schema that the response validator checks `json` bodies with. -/
structure ResponseCheck (V : Type) where
  validate : V → Except (List ValidationFieldError) V
  validatorActive : Bool := true

/-- `stream`'s options. -/
structure StreamOptions where
  status : Option ℕ := none
  contentType : Option String := none
  headers : List (String × String) := []
  deriving DecidableEq

/-- A call of a responder of `ctx.response`. -/
inductive Responder (V : Type) where
  | json (body : V) (status : Option ℕ)
  | text (body : String) (status : Option ℕ)
  | html (body : String) (status : Option ℕ)
  | redirect (url : String) (status : ℕ)
  | stream (options : StreamOptions)
  deriving DecidableEq

/-- What the handler of a route was called with. -/
structure Invocation (V : Type) where
  request : Request V
  params : V

/-- What a request and its response come to. -/
structure World (V : Type) where
  request : Request V
  res : Res V := {}
  /-- `responseState.sent`. -/
  sent : Bool := false
  /-- The id that the request handler put into `ctx.state` and into the storage that
  `getCorrelationId` reads. -/
  correlationId : String
  /-- How often the correlation id generator was called. -/
  generated : ℕ := 0
  /-- The replacement of `ctx.response.json` by the response validator. -/
  responseCheck : Option (ResponseCheck V) := none
  /-- How many readables were piped into the response. -/
  piped : ℕ := 0
  /-- What the readables will deliver at each of the coming awaits, and what they have. -/
  arrivals : List (List (ℕ × StreamEvent)) := []
  delivered : List StreamEvent := []
  /-- The calls of the route's handler. -/
  invocations : List (Invocation V) := []
  /-- The responder calls of handlers and middlewares that did not throw, each with the
  response as it left it. -/
  answers : List (Responder V × Res V) := []
  /-- The head went out with a write past the responders, and none of them had set the
  correlation header. -/
  bare : Bool := false

/-- What the code of a request does to its world. -/
abbrev Run (V : Type) := Effect (World V) (Thrown V)

/-- The correlation settings of the server, with the values of the successive calls of the
generator, and what the responders need to know of values: which look like error responses,
and with which message `JSON.stringify` throws on them. -/
structure Config (V : Type) where
  headerName : String := "x-correlation-id"
  generator : ℕ → String
  isErrorResponse : V → Bool := fun _ => false
  stringifyError : V → Option String := fun _ => none

/-! ### The responders -/

/-- The same as a step of a run. -/
def setHeader (name value : String) : Run V Unit := fun w =>
  match w.res.setHeader name value with
  | .ok res => (.ok (), { w with res := res })
  | .error e => (.error e, w)

/-- One header after the other. -/
def setHeaders : List (String × String) → Run V Unit
  | [] => pure ()
  | (name, value) :: headers => do
      setHeader name value
      setHeaders headers

/-- Sets the status, if there is one. -/
def setStatus (status : Option ℕ) : Run V Unit :=
  Effect.modify fun w =>
    { w with res := { w.res with statusCode := status.getD w.res.statusCode } }

/-- What is thrown for a second response. -/
def responseSent : Thrown V := .error "❌ Response has already been sent"

variable (cfg : Config V)

/-- The header with the id, unless the id is empty. -/
def addCorrelationHeader : Run V Unit := do
  let w ← Effect.get
  if w.correlationId ≠ "" then setHeader cfg.headerName w.correlationId

/-- The end of `json`, `text`, `html` and `redirect`. -/
def send (payload : Option (Payload V)) : Run V Unit :=
  Effect.modify fun w => { w with res := w.res.end payload, sent := true }

/-- The message with which `JSON.stringify` throws on the details of an error. -/
def ErrorDetails.stringifyError : ErrorDetails V → Option String
  | .custom details => cfg.stringifyError details
  | _ => Option.none

/-- The message with which `JSON.stringify` throws on a payload: the fields of an error are
texts, up to the details of the application's own. -/
def Payload.stringifyError : Payload V → Option String
  | .json body => cfg.stringifyError body
  | .error body => body.details.stringifyError cfg
  | _ => none

/-- `JSON.stringify`; the payload stays a value. -/
def stringify (payload : Payload V) : Run V Unit :=
  match payload.stringifyError cfg with
  | some message => Effect.throw (.error message)
  | none => pure ()

/-- The responders `json`, `text` and `html`. -/
def contentResponder (contentType : String) (payload : Payload V) (status : Option ℕ) :
    Run V Unit := do
  let w ← Effect.get
  if w.sent then Effect.throw responseSent
  else do
    setStatus status
    addCorrelationHeader cfg
    setHeader "Content-Type" contentType
    stringify cfg payload
    send (some payload)

/-- `ctx.response.json(payload, status)` -/
def jsonResponder (payload : Payload V) (status : Option ℕ) : Run V Unit :=
  contentResponder cfg "application/json" payload status

/-- `ctx.response.text(body, status)` -/
def textResponder (body : String) (status : Option ℕ) : Run V Unit :=
  contentResponder cfg "text/plain" (.text body) status

/-- `ctx.response.html(body, status)` -/
def htmlResponder (body : String) (status : Option ℕ) : Run V Unit :=
  contentResponder cfg "text/html" (.text body) status

/-- `ctx.response.redirect(url, status)` -/
def redirectResponder (url : String) (status : ℕ) : Run V Unit := do
  let w ← Effect.get
  if w.sent then Effect.throw responseSent
  else do
    addCorrelationHeader cfg
    setStatus (some status)
    setHeader "Location" url
    send none

/-- The content type of a stream; an empty one is none. -/
def setContentType : Option String → Run V Unit
  | some contentType => if contentType ≠ "" then setHeader "Content-Type" contentType else pure ()
  | none => pure ()

/-- The readable is piped, and its listeners wait for its end and its errors. -/
def streamResponder (options : StreamOptions) : Run V Unit := do
  let w ← Effect.get
  if w.sent then Effect.throw responseSent
  else do
    setStatus options.status
    addCorrelationHeader cfg
    setContentType options.contentType
    setHeaders options.headers
    Effect.modify fun w => { w with piped := w.piped + 1 }

/-- The id that `getCorrelationId` finds; a blank one counts as none. -/
def World.getCorrelationId (w : World V) : String :=
  if (Js.trim w.correlationId.toList).isEmpty then "unknown" else w.correlationId

/-- `InternalServerError`, as the response validator throws it. -/
def responseValidationError (w : World V) (fields : List ValidationFieldError) : Thrown V :=
  .blaize
    { type := .INTERNAL_SERVER_ERROR
      title := "Response validation failed"
      status := 500
      correlationId := w.getCorrelationId
      details := .responseValidation fields
        "The handler returned data that does not match the response schema" }

/-- `ctx.response.json`, with or without the response validator in its place. -/
def json (body : V) (status : Option ℕ) : Run V Unit := do
  let w ← Effect.get
  match w.responseCheck with
  | none => jsonResponder cfg (.json body) status
  | some check =>
      if ! check.validatorActive || cfg.isErrorResponse body then
        jsonResponder cfg (.json body) status
      else
        match check.validate body with
        | .ok validatedBody => jsonResponder cfg (.json validatedBody) status
        | .error fields => do
            Effect.modify fun w =>
              { w with responseCheck := some { check with validatorActive := false } }
            Effect.throw (responseValidationError w fields)

/-- A call of a responder. -/
def respond : Responder V → Run V Unit
  | .json body status => json cfg body status
  | .text body status => textResponder cfg body status
  | .html body status => htmlResponder cfg body status
  | .redirect url status => redirectResponder cfg url status
  | .stream options => streamResponder cfg options

/-! ### Awaits -/

/-- The listeners of a readable that was piped into the response. -/
def World.receive (w : World V) : StreamEvent → World V
  | .data bytes => { w with res := w.res.write (.chunk bytes) }
  | .end => { w with res := w.res.end none, sent := true }
  | .error =>
      if w.sent then w
      else
        { w with
          res := { w.res with statusCode := 500 }.end (some (.text "Stream error"))
          sent := true }

/-- An event of a stream reaches the response, if the stream was piped to it. -/
def World.deliver (w : World V) (event : ℕ × StreamEvent) : World V :=
  if event.1 < w.piped then { w.receive event.2 with delivered := w.delivered ++ [event.2] } else w

lemma World.deliver_all_of_piped {w : World V} (h : w.piped = 0)
    (events : List (ℕ × StreamEvent)) : events.foldl World.deliver w = w := by
  induction events with
  | nil => rfl
  | cons event events ih => rw [List.foldl_cons, deliver, h, if_neg (Nat.not_lt_zero _), ih]

/-- One `await`: the readables deliver what has arrived. -/
def tick : Run V Unit :=
  Effect.modify fun w =>
    match w.arrivals with
    | [] => w
    | events :: arrivals => { events.foldl World.deliver w with arrivals := arrivals }

/-- Without a readable an await changes nothing but the time. -/
lemma tick_of_piped {w : World V} (h : w.piped = 0) :
    tick w = (.ok (), { w with arrivals := w.arrivals.tail }) := by
  rw [tick, Effect.modify_apply]
  obtain ⟨request, res, sent, id, generated, check, piped, arrivals, delivered, calls, answers,
    bare⟩ := w
  cases arrivals with
  | nil => rfl
  | cons events arrivals =>
      dsimp only
      rw [World.deliver_all_of_piped h]
      rfl

/-! ### The interface of handlers and middlewares -/

/-- What the code of a handler or a middleware can call.  `write` is that of `response.raw`. -/
inductive Op (V : Type) where
  | respond (responder : Responder V)
  | status (code : ℕ)
  | header (name value : String)
  | write (bytes : Js.Bytes)
  | getCorrelationId
  | request
  | await

/-- What the operations answer; whether the socket took the whole of a write is left out. -/
def Op.Reply : Op V → Type
  | .respond _ => Unit
  | .status _ => Unit
  | .header _ _ => Unit
  | .write _ => Unit
  | .getCorrelationId => String
  | .request => Request V
  | .await => Unit

/-- `ctx.response.status(code)` -/
def statusSetter (code : ℕ) : Run V Unit := do
  let w ← Effect.get
  if w.sent then Effect.throw responseSent else setStatus (some code)

/-- `ctx.response.header(name, value)` -/
def headerSetter (name value : String) : Run V Unit := do
  let w ← Effect.get
  if w.sent then Effect.throw (.error "Cannot set header after response has been sent")
  else setHeader name value

/-- `response.raw.write`: the head goes out as it is, and `responseState` does not change. -/
def rawWrite (bytes : Js.Bytes) : Run V Unit :=
  Effect.modify fun w =>
    { w with
      res := w.res.write (.chunk bytes)
      bare := w.bare ||
        (w.res.head.isNone && (w.res.headers.get cfg.headerName.toLowerCase).isNone) }

/-- A call of a responder that does not throw is noted with the response it leaves. -/
def answer (responder : Responder V) : Run V Unit := do
  respond cfg responder
  Effect.modify fun w => { w with answers := w.answers ++ [(responder, w.res)] }

/-- What an operation does. -/
def perform : (op : Op V) → Run V op.Reply
  | .respond responder => answer cfg responder
  | .status code => statusSetter code
  | .header name value => headerSetter name value
  | .write bytes => rawWrite cfg bytes
  | .getCorrelationId => fun w => (.ok w.getCorrelationId, w)
  | .request => fun w => (.ok w.request, w)
  | .await => tick

/-! ### What the operations leave alone -/

/-- The request, its id and the calls of the handler are as before. -/
def Quiet (w w' : World V) : Prop :=
  w'.request = w.request ∧ w'.correlationId = w.correlationId ∧ w'.generated = w.generated ∧
    w'.invocations = w.invocations

instance : Std.Refl (Quiet (V := V)) := ⟨fun _ => ⟨rfl, rfl, rfl, rfl⟩⟩

instance : IsTrans (World V) Quiet :=
  ⟨fun _ _ _ ⟨hr, hc, hg, hi⟩ ⟨hr', hc', hg', hi'⟩ =>
    ⟨hr'.trans hr, hc'.trans hc, hg'.trans hg, hi'.trans hi⟩⟩

lemma quiet_setHeader (name value : String) :
    Within Quiet (setHeader name value : Run V Unit) := by
  intro w
  rw [setHeader]
  split
  · exact ⟨rfl, rfl, rfl, rfl⟩
  · exact ⟨rfl, rfl, rfl, rfl⟩

lemma quiet_setHeaders (headers : List (String × String)) :
    Within Quiet (setHeaders headers : Run V Unit) := by
  induction headers with
  | nil => exact .pure ()
  | cons h headers ih => exact .bind (quiet_setHeader h.1 h.2) fun _ => ih

lemma quiet_setStatus (status : Option ℕ) : Within Quiet (setStatus status : Run V Unit) :=
  fun _ => ⟨rfl, rfl, rfl, rfl⟩

lemma quiet_addCorrelationHeader : Within Quiet (addCorrelationHeader cfg) := by
  refine .bind .get fun w => ?_
  split
  · exact quiet_setHeader _ _
  · exact .pure _

lemma quiet_send (payload : Option (Payload V)) : Within Quiet (send payload) :=
  fun _ => ⟨rfl, rfl, rfl, rfl⟩

lemma quiet_stringify (payload : Payload V) : Within Quiet (stringify cfg payload) := by
  rw [stringify]
  split
  · exact .throw _
  · exact .pure _

lemma quiet_contentResponder (contentType : String) (payload : Payload V) (status : Option ℕ) :
    Within Quiet (contentResponder cfg contentType payload status) := by
  refine .bind .get fun w => ?_
  split
  · exact .throw _
  · exact .bind (quiet_setStatus _) fun _ => .bind (quiet_addCorrelationHeader cfg) fun _ =>
      .bind (quiet_setHeader _ _) fun _ => .bind (quiet_stringify cfg _) fun _ => quiet_send _

lemma quiet_redirectResponder (url : String) (status : ℕ) :
    Within Quiet (redirectResponder cfg url status) := by
  refine .bind .get fun w => ?_
  split
  · exact .throw _
  · exact .bind (quiet_addCorrelationHeader cfg) fun _ => .bind (quiet_setStatus _) fun _ =>
      .bind (quiet_setHeader _ _) fun _ => quiet_send _

lemma quiet_setContentType (contentType : Option String) :
    Within Quiet (setContentType contentType : Run V Unit) := by
  cases contentType with
  | none => exact .pure _
  | some contentType =>
      rw [setContentType]
      split
      · exact quiet_setHeader _ _
      · exact .pure _

lemma quiet_streamResponder (options : StreamOptions) :
    Within Quiet (streamResponder cfg options) := by
  refine .bind .get fun w => ?_
  split
  · exact .throw _
  · exact .bind (quiet_setStatus _) fun _ => .bind (quiet_addCorrelationHeader cfg) fun _ =>
      .bind (quiet_setContentType _) fun _ => .bind (quiet_setHeaders _) fun _ =>
        fun _ => ⟨rfl, rfl, rfl, rfl⟩

lemma quiet_json (body : V) (status : Option ℕ) : Within Quiet (json cfg body status) := by
  refine .bind .get fun w => ?_
  split
  · exact quiet_contentResponder cfg _ _ _
  · split
    · exact quiet_contentResponder cfg _ _ _
    · split
      · exact quiet_contentResponder cfg _ _ _
      · exact .bind (fun _ => ⟨rfl, rfl, rfl, rfl⟩) fun _ => .throw _

lemma quiet_respond (responder : Responder V) : Within Quiet (respond cfg responder) := by
  cases responder with
  | json body status => exact quiet_json cfg body status
  | text body status => exact quiet_contentResponder cfg _ _ _
  | html body status => exact quiet_contentResponder cfg _ _ _
  | redirect url status => exact quiet_redirectResponder cfg url status
  | stream options => exact quiet_streamResponder cfg options

lemma quiet_deliver (w : World V) (event : ℕ × StreamEvent) : Quiet w (w.deliver event) := by
  have hreceive : ∀ event, Quiet w (w.receive event) := by
    intro event
    cases event with
    | data bytes => exact ⟨rfl, rfl, rfl, rfl⟩
    | «end» => exact ⟨rfl, rfl, rfl, rfl⟩
    | error =>
        rw [World.receive]
        split
        · exact ⟨rfl, rfl, rfl, rfl⟩
        · exact ⟨rfl, rfl, rfl, rfl⟩
  rw [World.deliver]
  split
  · obtain ⟨hr, hc, hg, hi⟩ := hreceive event.2
    exact ⟨hr, hc, hg, hi⟩
  · exact ⟨rfl, rfl, rfl, rfl⟩

lemma quiet_tick : Within Quiet (tick : Run V Unit) := by
  have hfold : ∀ (events : List (ℕ × StreamEvent)) (w : World V),
      Quiet w (events.foldl World.deliver w) := by
    intro events
    induction events with
    | nil => exact fun w => Std.Refl.refl w
    | cons event events ih =>
        exact fun w => IsTrans.trans _ _ _ (quiet_deliver w event) (ih _)
  intro w
  rw [tick, Effect.modify_apply]
  dsimp only
  split
  · exact Std.Refl.refl w
  next events arrivals _ =>
      obtain ⟨hr, hc, hg, hi⟩ := hfold events w
      exact ⟨hr, hc, hg, hi⟩

/-- **No operation of the interface touches the request, its id or the calls.** -/
theorem quiet_perform (op : Op V) : Within Quiet (perform cfg op) := by
  cases op with
  | respond responder =>
      exact .bind (quiet_respond cfg responder) fun _ _ => ⟨rfl, rfl, rfl, rfl⟩
  | status code =>
      refine .bind .get fun w => ?_
      split
      · exact .throw _
      · exact quiet_setStatus _
  | header name value =>
      refine .bind .get fun w => ?_
      split
      · exact .throw _
      · exact quiet_setHeader _ _
  | write bytes => exact fun _ => ⟨rfl, rfl, rfl, rfl⟩
  | getCorrelationId => exact fun _ => ⟨rfl, rfl, rfl, rfl⟩
  | request => exact fun _ => ⟨rfl, rfl, rfl, rfl⟩
  | await => exact quiet_tick

end Blaize.Server
