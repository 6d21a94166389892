import Blaize.Cors.OriginValidator
import Blaize.Lib.Number
import Blaize.Server.Context

/-!
The CORS middleware (`packages/blaize-core/src/middleware/cors/index.ts`, `preflight.ts`,
`validation.ts`, `defaults.ts`).

`cors` merges the options with the defaults of the environment, validates them and returns
the middleware.  Its handler runs in two pieces: up to the `await` of `validateOrigin`, and
from there, with the answer, to its end or to `next`.  What it does to the context is an
effect on the context's world; the calls of `ctx.response.header` and `ctx.response.status`
that returned are kept beside it.

* `CorsOptions`, `UserOptions`: the options, and the argument with its missing properties;
* `mergeCorsOptions`, `validateCorsOptions`, `validateOriginSecurity`, `cors`;
* `isPreflightRequest`, `parsePreflightRequest`, `isMethodAllowed`, `areHeadersAllowed`;
* `corsHeaders`, `preflightHeaders`: the calls of `ctx.response.header`, in order;
* `start`, `resume`: the two pieces of the handler.

Options have the types of `CorsOptions`; what the schema says of other values is left out.
-/

namespace Blaize.Cors

/-! ### Options -/

/-- `string[] | string`. -/
inductive Names where
  | list (names : List String)
  | text (text : String)
  deriving DecidableEq

/-- The options; `none` is one that is not there. -/
structure CorsOptions where
  origin : Option ConfiguredOrigin := none
  methods : Option Names := none
  allowedHeaders : Option Names := none
  exposedHeaders : Option Names := none
  credentials : Option Bool := none
  maxAge : Option ℚ := none
  preflightContinue : Option Bool := none
  optionsSuccessStatus : Option ℚ := none
  deriving DecidableEq

/-- The options as an argument: a property that is spread over its default is missing, or
`undefined`, or has a value. -/
structure UserOptions where
  origin : Option (Option ConfiguredOrigin) := none
  methods : Option Names := none
  allowedHeaders : Option Names := none
  exposedHeaders : Option Names := none
  credentials : Option (Option Bool) := none
  maxAge : Option (Option ℚ) := none
  preflightContinue : Option (Option Bool) := none
  optionsSuccessStatus : Option (Option ℚ) := none

/-- `CorsOptions | boolean | undefined`. -/
inductive CorsArgument where
  | undefined
  | bool (allow : Bool)
  | options (options : UserOptions)

/-- The defaults of a development server. -/
def DEVELOPMENT_DEFAULTS : CorsOptions where
  origin := some (.bool true)
  methods := some (.list ["GET", "HEAD", "PUT", "PATCH", "POST", "DELETE"])
  credentials := some false
  optionsSuccessStatus := some 204

/-- The defaults of a production server. -/
def PRODUCTION_DEFAULTS : CorsOptions where
  origin := some (.bool false)
  methods := some (.list ["GET", "HEAD"])
  credentials := some false
  optionsSuccessStatus := some 204

/-- The defaults of a server. -/
def getDefaultCorsOptions (isDevelopment : Bool) : CorsOptions :=
  if isDevelopment then DEVELOPMENT_DEFAULTS else PRODUCTION_DEFAULTS

/-- The options of the user over the defaults. -/
def mergeCorsOptions (userOptions : CorsArgument) (defaults : CorsOptions) : CorsOptions :=
  match userOptions with
  | .bool true => { defaults with origin := some (.bool true) }
  | .bool false => { origin := some (.bool false) }
  | .undefined => defaults
  | .options user =>
      { origin := user.origin.getD defaults.origin
        methods := user.methods.or defaults.methods
        allowedHeaders := user.allowedHeaders.or defaults.allowedHeaders
        exposedHeaders := user.exposedHeaders.or defaults.exposedHeaders
        credentials := user.credentials.getD defaults.credentials
        maxAge := user.maxAge.getD defaults.maxAge
        preflightContinue := user.preflightContinue.getD defaults.preflightContinue
        optionsSuccessStatus := user.optionsSuccessStatus.getD defaults.optionsSuccessStatus }

/-- `trim()`. -/
def trimmed (text : String) : String := .ofList (Js.trim text.toList)

/-- `text.split(',')`. -/
def split (text : String) : List String := (text.toList.splitOn ',').map .ofList

/-- `text.split(',').map(name => name.trim())`. -/
def splitNames (text : String) : List String := (split text).map trimmed

/-- The transformation of `corsMethodsSchema` and `corsHeadersSchema`. -/
def Names.transform : Names → Names
  | .list names => .list names
  | .text names => .list (splitNames names)

/-- The methods that the schema admits. -/
def corsHttpMethodSchema : List String :=
  ["GET", "POST", "PUT", "DELETE", "PATCH", "HEAD", "OPTIONS", "CONNECT", "TRACE"]

/-- The issues of `corsOptionsSchema`, each a path and a message. -/
def CorsOptions.issues (options : CorsOptions) : List (String × String) :=
  let methods :=
    match options.methods with
    | some (.list names) => names.all (corsHttpMethodSchema.contains ·)
    | _ => true
  let integer (value : Option ℚ) := value.all (·.isInt)
  let atLeast := options.optionsSuccessStatus.all (200 ≤ ·)
  let atMost := options.optionsSuccessStatus.all (· ≤ 299)
  [(methods, "methods", "Invalid input"),
    (integer options.maxAge, "maxAge", "Expected integer, received float"),
    (integer options.optionsSuccessStatus, "optionsSuccessStatus",
      "Expected integer, received float"),
    (atLeast, "optionsSuccessStatus", "Number must be greater than or equal to 200"),
    (atMost, "optionsSuccessStatus", "Number must be less than or equal to 299")]
  |>.filterMap fun (ok, issue) => if ok then none else some issue

/-- A line for each issue. -/
def formatCorsValidationErrors (issues : List (String × String)) : String :=
  "\n".intercalate (issues.map fun (path, message) => "  - " ++ path ++ ": " ++ message)

/-- The options as the schema parses them, or an error with all issues. -/
def validateCorsOptions (options : CorsOptions) : Except String CorsOptions :=
  if options.issues = [] then
    .ok
      { options with
        methods := options.methods.map Names.transform
        allowedHeaders := options.allowedHeaders.map Names.transform
        exposedHeaders := options.exposedHeaders.map Names.transform }
  else .error ("Invalid CORS options:\n" ++ formatCorsValidationErrors options.issues)

/-- Credentials are refused where every origin is allowed. -/
def validateOriginSecurity (options : CorsOptions) : Except String Unit :=
  if options.credentials = some true then
    match options.origin with
    | some (.bool true) | some (.single (.text "*")) =>
        .error
          ("CORS security violation: Cannot use wildcard origin (*) with credentials. " ++
            "When credentials are enabled, you must specify explicit origins.")
    | some (.array origins) =>
        if origins.contains (.text "*") then
          .error
            ("CORS security violation: Cannot include wildcard origin (*) in array when " ++
              "credentials are enabled.")
        else .ok ()
    | _ => .ok ()
  else .ok ()

/-- The options that the middleware is created with. -/
def cors (isDevelopment : Bool) (userOptions : CorsArgument) : Except String CorsOptions := do
  let options := mergeCorsOptions userOptions (getDefaultCorsOptions isDevelopment)
  let validatedOptions ← validateCorsOptions options
  validateOriginSecurity validatedOptions
  pure validatedOptions

/-- A CORS middleware: options that `cors` accepted. -/
structure CorsMiddleware where
  options : CorsOptions
  created : ∃ isDevelopment userOptions, cors isDevelopment userOptions = .ok options

/-- The argument of `validateOrigin`: `options.origin || false`. -/
def CorsOptions.configuredOrigin (options : CorsOptions) : ConfiguredOrigin :=
  match options.origin with
  | none => .bool false
  | some (.single (.text "")) => .bool false
  | some origin => origin

/-- `options.origin === true && !options.credentials`. -/
def CorsOptions.isWildcard (options : CorsOptions) : Bool :=
  options.origin = some (.bool true) && options.credentials ≠ some true

/-- `options.optionsSuccessStatus || 204`; the number is an integer after the validation. -/
def CorsOptions.successStatus (options : CorsOptions) : ℕ :=
  match options.optionsSuccessStatus with
  | none => 204
  | some status => if status = 0 then 204 else status.floor.toNat

/-! ### Requests -/

variable {V : Type}

/-- `ctx.request.header`. -/
def header (request : Server.Request V) (name : String) : Option String :=
  match request.headers.get name.toLowerCase with
  | some (.many values) => some (", ".intercalate values)
  | some (.single value) => if value = "" then none else some value
  | none => none

/-- A header that is asked for under two spellings of its name, the empty text being falsy. -/
def headerOf (request : Server.Request V) (name Name : String) : Option String :=
  (orElse (header request name) (header request Name)).filter (· ≠ "")

/-- The `Origin` header. -/
def origin (request : Server.Request V) : Option String := headerOf request "origin" "Origin"

/-- The method that a preflight asks for. -/
def requestedMethod (request : Server.Request V) : Option String :=
  headerOf request "access-control-request-method" "Access-Control-Request-Method"

/-- The headers that a preflight asks for, as they were sent. -/
def requestedHeadersRaw (request : Server.Request V) : Option String :=
  headerOf request "access-control-request-headers" "Access-Control-Request-Headers"

/-- Whether a request is a preflight. -/
def isPreflightRequest (request : Server.Request V) : Bool :=
  request.method = "OPTIONS" && (requestedMethod request).isSome

variable (letters : Js.CaseMapping)

/-- The list `requestedHeaders` of `parsePreflightRequest`. -/
def parseRequestedHeaders (request : Server.Request V) : Option (List String) :=
  (requestedHeadersRaw request).map fun raw =>
    (split raw).map fun h => letters.toLowerCase (trimmed h)

/-- The methods that are allowed without the option. -/
def DEFAULT_METHODS : List String := ["GET", "HEAD", "PUT", "PATCH", "POST", "DELETE"]

/-- Whether the method of a preflight is allowed. -/
def isMethodAllowed (requestedMethod : String) : Option Names → Bool
  | none | some (.text "") => DEFAULT_METHODS.contains (letters.toUpperCase requestedMethod)
  | some (.text methods) =>
      ((splitNames methods).map letters.toUpperCase).contains (letters.toUpperCase requestedMethod)
  | some (.list methods) =>
      (methods.map letters.toUpperCase).contains (letters.toUpperCase requestedMethod)

/-- The list `allowedArray`. -/
def allowedArray : Names → List String
  | .text headers => (split headers).map fun h => letters.toLowerCase (trimmed h)
  | .list headers => headers.map letters.toLowerCase

/-- Whether all headers of a preflight are allowed. -/
def areHeadersAllowed (requestedHeaders : Option (List String)) (allowedHeaders : Option Names) :
    Bool :=
  match requestedHeaders, allowedHeaders with
  | none, _ | some [], _ | _, none => true
  | some requested, some allowed =>
      requested.all fun h => (allowedArray letters allowed).contains (letters.toLowerCase h)

/-- The list `rejectedHeaders`. -/
def rejectedHeaders (requestedHeaders : List String) : Option Names → List String
  | none | some (.text "") => []
  | some allowed =>
      requestedHeaders.filter fun h =>
        !(allowedArray letters allowed).contains (letters.toLowerCase h)

/-! ### Headers of the response -/

/-- The text of a list: `typeof names === 'string' ? names : names.join(', ')`. -/
def Names.joined : Names → String
  | .text names => names
  | .list names => ", ".intercalate names

/-- `options.names || undefined`. -/
def truthy (names : Option Names) : Option Names := names.filter (· ≠ .text "")

/-- The headers about the origin. -/
def originHeaders (options : CorsOptions) (origin : String) : List (String × String) :=
  if options.isWildcard then [("Access-Control-Allow-Origin", "*")]
  else [("Access-Control-Allow-Origin", origin), ("Vary", "Origin")]

/-- The header about credentials. -/
def credentialsHeaders (options : CorsOptions) : List (String × String) :=
  if options.credentials = some true then [("Access-Control-Allow-Credentials", "true")] else []

/-- The calls of `ctx.response.header` in `setCorsHeaders`, for an origin that is allowed. -/
def corsHeaders (options : CorsOptions) (origin : String) : List (String × String) :=
  originHeaders options origin ++ credentialsHeaders options ++
    (truthy options.exposedHeaders).toList.map fun names =>
      ("Access-Control-Expose-Headers", names.joined)

/-- `String(n)` of an integer. -/
def integerText (n : ℚ) : String := (Js.Number.ofScaled (n < 0) n.num.natAbs 0).toString

/-- The calls of `ctx.response.header` in `setPreflightHeaders`, for an origin that is
allowed. -/
def preflightHeaders (options : CorsOptions) (request : Server.Request V) (origin : String) :
    List (String × String) :=
  let methods := (truthy options.methods).getD (.list DEFAULT_METHODS)
  let allowed :=
    match truthy options.allowedHeaders with
    | some names => some names.joined
    | none => requestedHeadersRaw request
  originHeaders options origin ++ credentialsHeaders options ++
    [("Access-Control-Allow-Methods", methods.joined)] ++
    (allowed.toList.map fun names => ("Access-Control-Allow-Headers", names)) ++
    ((options.maxAge.filter (0 ≤ ·)).toList.map fun age =>
      ("Access-Control-Max-Age", integerText age))

/-! ### The handler -/

/-- The errors that the middleware refuses a request with. -/
inductive Refusal where
  | forbidden (title reason origin : String) (allowedOrigins : Option ConfiguredOrigin)
  | validation (title field : String) (messages : List String)
      (rejectedValue : Option Server.HeaderValue) (expectedType : Option String)
  deriving DecidableEq

/-- What the handler throws: a refusal, or what `ctx.response` threw. -/
inductive Failure (V : Type) where
  | refusal (refusal : Refusal)
  | response (error : Server.Thrown V)
  deriving DecidableEq

/-- A context in the hands of the middleware: its world, and the calls of
`ctx.response.header` and the last call of `ctx.response.status` that the middleware made. -/
structure Exchange (V : Type) where
  ctx : Server.World V
  headers : List (String × String) := []
  status : Option ℕ := none

/-- A middleware or a handler that runs on an exchange. -/
abbrev Handler (V : Type) := Effect (Exchange V) (Failure V)

/-- A method of `ctx.response`, with the note of its call. -/
def call (method : Server.Run V Unit) (note : Exchange V → Exchange V) : Handler V Unit := fun x =>
  match method x.ctx with
  | (.ok (), ctx) => (.ok (), note { x with ctx := ctx })
  | (.error e, ctx) => (.error (.response e), { x with ctx := ctx })

/-- `ctx.response.status(code)`, noted in the exchange. -/
def setStatus (code : ℕ) : Handler V Unit :=
  call (Server.statusSetter code) fun x => { x with status := some code }

/-- `ctx.response.header(name, value)`, noted in the exchange. -/
def setHeader (name value : String) : Handler V Unit :=
  call (Server.headerSetter name value) fun x => { x with headers := x.headers ++ [(name, value)] }

/-- One header after the other. -/
def setHeaders : List (String × String) → Handler V Unit
  | [] => pure ()
  | (name, value) :: headers => do
      setHeader name value
      setHeaders headers

/-- The answer 403, and the error that goes with it. -/
def refuse {α : Type} (refusal : Refusal) : Handler V α := do
  setStatus 403
  Effect.throw (.refusal refusal)

/-- `handlePreflight` up to its `await`: the origin that it asks `validateOrigin` about. -/
def startPreflight : Handler V (Option String) := fun x =>
  match origin x.ctx.request, requestedMethod x.ctx.request with
  | some origin, some _ => (.ok (some origin), x)
  | origin, _ =>
      refuse
        (.validation "Invalid preflight request: missing required headers"
          (if origin.isSome then "Access-Control-Request-Method" else "Origin")
          ["Required header is missing"] none none) x

/-- The handler up to its `await`; without an origin it goes on to `next`. -/
def start : Handler V (Option String) := fun x =>
  if isPreflightRequest x.ctx.request then startPreflight x
  else (.ok (origin x.ctx.request), x)

/-- How the handler ends: with a call of `next`, or without one. -/
inductive Ending where
  | next
  | returns
  deriving DecidableEq

variable (cfg : Server.Config V) (options : CorsOptions)

/-- `handlePreflight` from its `await` on, with the end of the handler. -/
def resumePreflight (request : Server.Request V) (origin : String) (originAllowed : Bool) :
    Handler V Ending := do
  let method := (requestedMethod request).getD ""
  let requestedHeaders := parseRequestedHeaders letters request
  if !originAllowed then
    refuse
      (.validation "CORS origin not allowed" "Origin" ["Origin '" ++ origin ++ "' is not allowed"]
        (some (.single origin)) none)
  else if !isMethodAllowed letters method options.methods then
    refuse
      (.validation "CORS method not allowed" "Access-Control-Request-Method"
        ["Method '" ++ method ++ "' is not allowed"] (some (.single method))
        (options.methods.map Names.joined))
  else if !areHeadersAllowed letters requestedHeaders options.allowedHeaders then
    let rejected := rejectedHeaders letters (requestedHeaders.getD []) options.allowedHeaders
    refuse
      (.validation "CORS headers not allowed" "Access-Control-Request-Headers"
        ["Headers not allowed: " ++ ", ".intercalate rejected] (some (.many rejected)) none)
  else do
    setHeaders (preflightHeaders options request origin)
    setStatus options.successStatus
    if options.preflightContinue = some true then pure .next
    else do
      call (Server.textResponder cfg "" none) id
      pure .returns

/-- The handler from its `await` on. -/
def resume (origin : String) (originAllowed : Bool) : Handler V Ending := fun x =>
  if isPreflightRequest x.ctx.request then
    resumePreflight letters cfg options x.ctx.request origin originAllowed x
  else if !originAllowed then
    refuse
      (.forbidden "CORS validation failed" "origin_not_allowed" origin options.origin) x
  else
    (do
      setHeaders (corsHeaders options origin)
      pure .next : Handler V Ending) x

end Blaize.Cors
