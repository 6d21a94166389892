import Blaize.Router.Matcher
import Blaize.Server.Context

/-!
From a matched route to its handler: `middleware/compose.ts`, `middleware/execute.ts`,
`router/validation/`, `router/handlers/executor.ts` and `handleRequest` of
`router/router.ts` in `packages/blaize-core/src`.

* `Middleware`: code that may also call `next`, the second call of which throws;
* `dispatch`, `compose`: the chain of middlewares in front of a last function;
* `Schema`: a parser of values, with the strict form that objects are checked in;
* `createRequestValidator`, `createResponseValidator`, `executeHandler`, `handleRequest`.
-/

namespace Blaize.Server

variable {V : Type} (cfg : Config V)

/-! ### Middlewares -/

/-- The interface of a middleware: a handler's operations and `await next()`. -/
inductive MiddlewareOp (V : Type) where
  | next
  | use (op : Op V)

/-- What an operation of a middleware returns. -/
def MiddlewareOp.Reply : MiddlewareOp V → Type
  | .next => Unit
  | .use op => op.Reply

/-- What holds of the operations that a middleware shares with handlers. -/
def MiddlewareOp.All (P : Op V → Prop) : MiddlewareOp V → Prop
  | .next => True
  | .use op => P op

/-- A middleware: its `skip` is a function of the context, its body any code. -/
structure Middleware (V : Type) where
  skip : World V → Bool := fun _ => false
  execute : Prog (MiddlewareOp V) MiddlewareOp.Reply (Thrown V) Unit

/-- `await next()`. -/
def awaitNext (next : Run V Unit) : Run V Unit := do
  next
  tick

lemma awaitNext_of_ok {next : Run V Unit} {w : World V} {u : Unit} (h : (next w).1 = .ok u) :
    awaitNext next w = (.ok (), (tick (next w).2).2) := Effect.bind_of_ok (Prod.ext h rfl)

/-- What the operations of a middleware do; the second component of the state is whether its
`next` was called. -/
def performWithNext (next : Run V Unit) :
    (op : MiddlewareOp V) → Effect (World V × Bool) (Thrown V) op.Reply
  | .next => fun s =>
      if s.2 then (.error (.error "next() called multiple times"), s)
      else ((awaitNext next s.1).1, (awaitNext next s.1).2, true)
  | .use op => fun s => ((perform cfg op s.1).1, (perform cfg op s.1).2, s.2)

/-- `execute` of `middleware/execute.ts`, for one middleware and its `next`. -/
def execute (middleware : Middleware V) (next : Run V Unit) : Run V Unit := fun w =>
  if middleware.skip w then next w
  else
    let result := middleware.execute.run (performWithNext cfg next) (w, false)
    (result.1, result.2.1)

/-- `dispatch` on the rest of the stack.  A middleware is dispatched by the one call of
`next` that its predecessor has, so the set `called` is a flag of each dispatch. -/
def dispatch (finalHandler : Run V Unit) : List (Middleware V) → Run V Unit
  | [] => finalHandler
  | middleware :: stack => execute cfg middleware (dispatch finalHandler stack)

/-- The middlewares around the handler. -/
def compose (middlewareStack : List (Middleware V)) (finalHandler : Run V Unit) : Run V Unit :=
  dispatch cfg finalHandler middlewareStack

/-! ### Schemas -/

/-- A path in the data with what is wrong there. -/
structure ZodIssue where
  path : List String
  message : String
  deriving DecidableEq

/-- What a parser throws: a `ZodError`, another `Error`, or any other value. -/
inductive ParseError where
  | zod (issues : List ZodIssue)
  | error (message : String)
  | value (text : String)
  deriving DecidableEq

/-- A Zod schema: what `parse` makes of a value, and for a `ZodObject` what `strict().parse`
does, which refuses more and otherwise agrees. -/
structure Schema (V : Type) where
  isZodObject : Bool
  parse : V → Except ParseError V
  strictParse : V → Except ParseError V
  strict : isZodObject → ∀ v out, strictParse v = .ok out → parse v = .ok out

/-- `validateParams`, `validateQuery`, `validateBody`, `validateFiles`, `validateResponse`. -/
def Schema.validate (schema : Schema V) (v : V) : Except ParseError V :=
  if schema.isZodObject then schema.strictParse v else schema.parse v

/-- The schemas of a route; `none` is one that was not given. -/
structure RouteSchema (V : Type) where
  params : Option (Schema V) := none
  query : Option (Schema V) := none
  body : Option (Schema V) := none
  files : Option (Schema V) := none
  response : Option (Schema V) := none

/-- The schema of a section. -/
def RouteSchema.get (schema : RouteSchema V) : Section → Option (Schema V)
  | .params => schema.params
  | .query => schema.query
  | .body => schema.body
  | .files => schema.files

/-- The path of an issue as the name of a field. -/
def ZodIssue.fieldPath (issue : ZodIssue) : String :=
  if issue.path.length > 0 then ".".intercalate issue.path else "root"

/-- The issues by the field that they name. -/
def extractZodFieldErrors : ParseError → List ValidationFieldError
  | .zod issues =>
      let fieldErrorMap := issues.foldl
        (fun (m : OrdMap String (List String)) issue =>
          m.set issue.fieldPath (((m.get issue.fieldPath).getD []) ++ [issue.message])) ∅
      fieldErrorMap.entries.map fun e => ⟨e.1, e.2⟩
  | .error message => [⟨"unknown", [message]⟩]
  | .value text => [⟨"unknown", [text]⟩]

example : extractZodFieldErrors (.zod [⟨["a", "b"], "x"⟩, ⟨[], "y"⟩, ⟨["a", "b"], "z"⟩]) =
    [⟨"a.b", ["x", "z"]⟩, ⟨"root", ["y"]⟩] := by decide

/-- `ValidationError`, as the request validator throws it. -/
def requestValidationError (w : World V) (error : ParseError) (s : Section) : Thrown V :=
  let fields := extractZodFieldErrors error
  .blaize
    { type := .VALIDATION_ERROR
      title := "Request validation failed"
      status := 400
      correlationId := w.getCorrelationId
      details := .validation fields ((fields.map (·.messages.length)).sum) s }

/-! ### The validators -/

variable (truthy : V → Bool)

/-- The params and the query are checked only if the request has them. -/
def Section.isPresent (s : Section) (value : V) : Bool :=
  match s with
  | .params => truthy value
  | .query => truthy value
  | .body => true
  | .files => true

/-- One section of the request is replaced by what its schema makes of it. -/
def validateSection (schema : RouteSchema V) (s : Section) : Run V Unit := do
  let w ← Effect.get
  match schema.get s with
  | none => pure ()
  | some sectionSchema =>
      if s.isPresent truthy (w.request.get s) then
        match sectionSchema.validate (w.request.get s) with
        | .ok value => Effect.modify fun w => { w with request := w.request.set value s }
        | .error error => Effect.throw (requestValidationError w error s)
      else pure ()

/-- Some sections in their order, up to the first that is refused. -/
def validateSections (schema : RouteSchema V) : List Section → Run V Unit
  | [] => pure ()
  | s :: sections => do
      validateSection truthy schema s
      validateSections schema sections

/-- The request validator, the first of a chain. -/
def createRequestValidator (schema : RouteSchema V) (next : Run V Unit) : Run V Unit := do
  validateSections truthy schema [.params, .query, .body, .files]
  awaitNext next

/-- The check of what a handler returns. -/
def Schema.responseCheck (schema : Schema V) : ResponseCheck V where
  validate v := (schema.validate v).mapError extractZodFieldErrors

/-- The response validator, the last of a chain: `json` is replaced while `next` runs. -/
def createResponseValidator (responseSchema : Schema V) (next : Run V Unit) : Run V Unit := do
  let w ← Effect.get
  Effect.modify fun w => { w with responseCheck := some responseSchema.responseCheck }
  Effect.finally_ (awaitNext next) fun w' => { w' with responseCheck := w.responseCheck }

/-! ### Executing a route -/

/-- The options of a method of a route. -/
structure RouteMethodOptions (V : Type) where
  schema : Option (RouteSchema V) := none
  middleware : List (Middleware V) := []
  handler : V → Prog (Op V) Op.Reply (Thrown V) (Option V)

/-- The last function of the chain: the handler, and `json` for the value it returns. -/
def callHandler (route : RouteMethodOptions V) (params : V) : Run V Unit := do
  Effect.modify fun w => { w with invocations := w.invocations ++ [⟨w.request, params⟩] }
  let result ← (route.handler params).run (perform cfg)
  tick
  let w ← Effect.get
  match result with
  | some value => if w.sent then pure () else json cfg value none
  | none => pure ()

/-- Whether the chain of a route starts with the request validator. -/
def RouteSchema.installsValidator (schema : RouteSchema V) : Bool :=
  schema.params.isSome || schema.query.isSome || schema.body.isSome

/-- What the middlewares of a route come in front of. -/
def lastOfChain (route : RouteMethodOptions V) (params : V) : Run V Unit :=
  match route.schema.bind RouteSchema.response with
  | some responseSchema => createResponseValidator responseSchema (callHandler cfg route params)
  | none => callHandler cfg route params

/-- The composed middlewares of a route with its validators. -/
def routeChain (route : RouteMethodOptions V) (params : V) : Run V Unit :=
  let chain := compose cfg route.middleware (lastOfChain cfg route params)
  match route.schema with
  | some schema =>
      if schema.installsValidator then createRequestValidator truthy schema chain else chain
  | none => chain

/-- The handler of a route with all that stands around it. -/
def executeHandler (route : RouteMethodOptions V) (params : V) : Run V Unit := do
  routeChain cfg truthy route params
  tick

/-! ### What the chain keeps -/

section

variable {cfg} {Rel : World V → World V → Prop} [Std.Refl Rel] [IsTrans (World V) Rel]

omit [Std.Refl Rel] in
lemma within_awaitNext (htick : Within Rel (tick : Run V Unit)) {next : Run V Unit}
    (hnext : Within Rel next) : Within Rel (awaitNext next) := .bind hnext fun _ => htick

/-- **A relation that the operations of the middlewares and the end of a chain keep is kept by
the chain.** -/
lemma within_compose_of_uses {P : Op V → Prop} (hop : ∀ op, P op → Within Rel (perform cfg op))
    (htick : Within Rel (tick : Run V Unit)) {last : Run V Unit} (hlast : Within Rel last)
    {stack : List (Middleware V)} (hstack : ∀ m ∈ stack, m.execute.Uses (MiddlewareOp.All P)) :
    Within Rel (compose cfg stack last) := by
  rw [compose]
  induction stack with
  | nil => exact hlast
  | cons middleware stack ih =>
      have hnext := ih fun m hm => hstack m (List.mem_cons_of_mem _ hm)
      intro w
      rw [dispatch, execute]
      split
      · exact hnext w
      · -- the relation on the worlds, whatever the flag of `next`
        let Rel' : World V × Bool → World V × Bool → Prop := fun s s' => Rel s.1 s'.1
        have : Std.Refl Rel' := ⟨fun s => Std.Refl.refl s.1⟩
        have : IsTrans _ Rel' := ⟨fun _ _ _ h h' => IsTrans.trans _ _ _ h h'⟩
        have hops : ∀ op, MiddlewareOp.All P op →
            Within Rel' (performWithNext cfg (dispatch cfg last stack) op) := by
          intro op hP s
          cases op with
          | next =>
              simp only [performWithNext]
              split
              · exact Std.Refl.refl s.1
              · exact within_awaitNext htick hnext s.1
          | use op => exact hop op hP s.1
        exact Within.run_of_uses hops (hstack middleware (by simp)) (w, false)

lemma within_compose (hop : ∀ op, Within Rel (perform cfg op)) {last : Run V Unit}
    (hlast : Within Rel last) (stack : List (Middleware V)) :
    Within Rel (compose cfg stack last) := by
  refine within_compose_of_uses (P := fun op => Within Rel (perform cfg op)) (fun _ => id)
    (hop .await) hlast fun m _ => m.execute.uses_of_forall fun op => ?_
  cases op with
  | next => trivial
  | use op => exact hop op

end

/-! ### The router -/

/-- What the matcher answers for the path and the method of a request. -/
inductive RouteMatch (V : Type) where
  | noMatch
  | methodNotAllowed (body : V) (allowedMethods : List Router.HttpMethod)
  | matched (route : RouteMethodOptions V) (params : V)

/-- The error 404. -/
def NotFoundError (w : World V) (title : String) : Thrown V :=
  .blaize { type := .NOT_FOUND, title := title, status := 404, correlationId := w.getCorrelationId }

/-- The name of a method in the `Allow` header. -/
def methodName : Router.HttpMethod → String
  | .GET => "GET"
  | .POST => "POST"
  | .PUT => "PUT"
  | .DELETE => "DELETE"
  | .PATCH => "PATCH"
  | .HEAD => "HEAD"
  | .OPTIONS => "OPTIONS"

/-- `handleRequest`; the body of the answer to a method that is not allowed comes with the
match. -/
def handleRequest (routeMatch : RouteMatch V) : Run V Unit := do
  tick
  let w ← Effect.get
  match routeMatch with
  | .noMatch => Effect.throw (NotFoundError w "Not found")
  | .methodNotAllowed body allowedMethods => do
      statusSetter 405
      json cfg body none
      if allowedMethods ≠ [] then
        headerSetter "Allow" (", ".intercalate (allowedMethods.map methodName))
  | .matched route params => do
      Effect.modify fun w => { w with request := { w.request with params := params } }
      executeHandler cfg truthy route params
      tick

end Blaize.Server
