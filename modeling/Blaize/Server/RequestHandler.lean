import Blaize.Server.Executor

/-!
The request handler (`packages/blaize-core/src/server/request-handler.ts`) with the error
boundary (`middleware/error-boundary/create.ts`, `errors/boundary.ts`) and the correlation ids
(`tracing/correlation.ts`).

What `createContext` reads from the request, or that it throws, is part of the input, as are
the match of the router and the middlewares, the one of CORS among them.

* `createCorrelationIdFromHeaders`, `extractOrGenerateCorrelationId`;
* `formatErrorResponse`, `errorBoundary`;
* `nextFn`, `createRequestHandler`: the response of a request;
* `drain`: what the readables deliver when the request handler is done.
-/

namespace Blaize.Server

variable {V : Type} (cfg : Config V) (truthy : V → Bool)

/-! ### Correlation ids -/

/-- Neither empty nor white space. -/
def notBlank (text : String) : Bool := ! (Js.trim text.toList).isEmpty

/-- The id in the value of a header, if there is one. -/
def HeaderValue.correlationId : HeaderValue → Option String
  | .single value => if notBlank value then some value else none
  | .many values => values.head?.filter notBlank

/-- The id for the value that the headers have for the configured name, and the number of
calls of the generator after it. -/
def createCorrelationIdFromHeaders (headerValue : Option HeaderValue) (generated : ℕ) :
    String × ℕ :=
  match headerValue.bind HeaderValue.correlationId with
  | some correlationId => (correlationId, generated)
  | none => (cfg.generator generated, generated + 1)

/-- `ctx.request.header`. -/
def Request.header (request : Request V) (name : String) : Option String :=
  match request.headers.get name.toLowerCase with
  | some (.many values) => some (", ".intercalate values)
  | some (.single value) => if value = "" then none else some value
  | none => none

/-- The id of the request's header, or a new one. -/
def extractOrGenerateCorrelationId : Run V String := fun w =>
  let (correlationId, generated) :=
    createCorrelationIdFromHeaders cfg ((w.request.header cfg.headerName).map .single) w.generated
  (.ok correlationId, { w with generated := generated })

/-! ### The error boundary -/

/-- The response for an error; what is no `BlaizeError` is wrapped. -/
def formatErrorResponse (w : World V) : Thrown V → BlaizeError V
  | .blaize error => error
  | .error message => internalError message
  | .value text => internalError (text.getD "Unknown error occurred")
where
  internalError (originalMessage : String) : BlaizeError V :=
    { type := .INTERNAL_SERVER_ERROR
      title := "Internal Server Error"
      status := 500
      correlationId := w.getCorrelationId
      details := .originalMessage originalMessage }

/-- The `catch` of the error boundary. -/
def catchError (error : Thrown V) : Run V Unit := do
  let w ← Effect.get
  if w.sent then pure ()
  else do
    let correlationId ← extractOrGenerateCorrelationId cfg
    let errorResponse := { formatErrorResponse w error with correlationId := correlationId }
    headerSetter cfg.headerName correlationId
    statusSetter errorResponse.status
    jsonResponder cfg (.error errorResponse) none

/-- The middleware that answers errors. -/
def errorBoundary (next : Run V Unit) : Run V Unit :=
  Effect.tryCatch (awaitNext next) (catchError cfg)

/-! ### The request handler -/

/-- What the server brings to a request: the middleware of CORS if it is configured, the other
middlewares, and what the router's matcher answers. -/
structure ServerInstance (V : Type) where
  cors : Option (Middleware V) := none
  middleware : List (Middleware V) := []
  routeMatch : RouteMatch V

/-- A request as it comes in: what `createContext` makes of it, or throws, whether it came
over HTTP/2, and when the readables of its response will deliver. -/
structure Incoming (V : Type) where
  request : Request V
  contextError : Option (Thrown V) := none
  isHttp2 : Bool := false
  arrivals : List (List (ℕ × StreamEvent)) := []

/-- What comes behind the middlewares. -/
def nextFn (server : ServerInstance V) : Run V Unit := do
  let w ← Effect.get
  if w.sent then pure ()
  else do
    handleRequest cfg truthy server.routeMatch
    tick
    let w ← Effect.get
    if ! w.res.headersSent && ! w.sent then
      Effect.throw
        (NotFoundError w ("Route not found: " ++ w.request.method ++ " " ++ w.request.path))
    else pure ()

/-- What the error boundary guards. -/
def guarded (server : ServerInstance V) : Run V Unit :=
  compose cfg (server.cors.toList ++ server.middleware) (nextFn cfg truthy server)

/-- The response to an error outside the error boundary. -/
def World.unhandledError (w : World V) (isHttp2 : Bool) : World V :=
  if w.res.headersSent then w
  else
    let payload : Payload V := .unhandled "Internal Server Error"
      "An unexpected error occurred while processing the request" w.correlationId
    let own : OrdMap String String := if isHttp2 then ∅ else w.res.headers
    let headers := (own.set cfg.headerName.toLowerCase w.correlationId).set "content-type"
      "application/json"
    let res : Res V :=
      { w.res with
        head := some ⟨500, headers⟩
        body := w.res.body ++ [payload]
        ended := true }
    { w with res := res }

/-- The world in which the request is processed. -/
def Incoming.world (incoming : Incoming V) : World V :=
  let correlation := createCorrelationIdFromHeaders cfg
    (incoming.request.headers.get cfg.headerName) 0
  { request := incoming.request
    correlationId := correlation.1
    generated := correlation.2
    arrivals := incoming.arrivals }

/-- The function that is run with the correlation id. -/
def processRequest (server : ServerInstance V) (incoming : Incoming V) : Run V Unit := do
  tick
  match incoming.contextError with
  | some error => Effect.throw error
  | none => do
      errorBoundary cfg (guarded cfg truthy server)
      tick
      tick

/-- A request from its arrival to its end. -/
def createRequestHandler (server : ServerInstance V) (incoming : Incoming V) : World V :=
  match processRequest cfg truthy server incoming (incoming.world cfg) with
  | (.ok _, w) => w
  | (.error _, w) => w.unhandledError cfg incoming.isHttp2

/-- Everything that the readables still deliver. -/
def World.drain (w : World V) : World V :=
  { w.arrivals.flatten.foldl World.deliver w with arrivals := [] }

end Blaize.Server
