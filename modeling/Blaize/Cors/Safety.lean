import Blaize.Cors.Middleware

/-!
The headers that the CORS middleware sets are safe.

Any number of requests pass through any number of CORS middlewares at the same time; all of
them share the calls of `validateOrigin` and their cache.  Between the two pieces of a
handler other code of the server runs, and writes to the response as it likes.

* `System`, `System.step`: the visits of requests to middlewares, and the calls of
  `validateOrigin` they wait for;
* `setHeaders_open`, `setHeaders_closed`: the headers are set all together or not at all;
* `resume_cases`: what the second piece of the handler leaves, once for every property;
* `Visit.Accepted`: the call of `validateOrigin` that the visit itself made has answered `true`;
* `Visit.Sound`, `step_sound`: the invariant, and the step that keeps it;
* `headers_safe`: **the headers are safe in every run**.
-/

open Machine

namespace Blaize.Cors

variable {V : Type} (letters : Js.CaseMapping) (matching : Matching) (cfg : Server.Config V)

/-! ### Visits -/

/-- Where the handler is: at the `await` of a call of `validateOrigin`, or at its end. -/
inductive Phase (V : Type) where
  | validating (call : ℕ) (origin : String)
  | ended (result : Except (Failure V) Ending)

/-- A request in the hands of a middleware, with the state of its context and the number of the
call of `validateOrigin` that its handler has made. -/
structure Visit (V : Type) where
  middleware : CorsMiddleware
  exchange : Exchange V
  phase : Phase V
  state : ContextState
  validation : Option ℕ := none

/-- The options that the middleware was made with. -/
def Visit.options (v : Visit V) : CorsOptions := v.middleware.options

/-- The request of the visit. -/
def Visit.request (v : Visit V) : Server.Request V := v.exchange.ctx.request

/-- The call of `validateOrigin` that the handler makes about an origin. -/
def Visit.call (v : Visit V) (origin : String) : Call :=
  { requestOrigin := origin
    configuredOrigin := v.options.configuredOrigin
    state := v.state }

/-- The module-level state of `validateOrigin`, and all visits. -/
structure System (V : Type) where
  validator : World := {}
  visits : List (Visit V) := []

/-- One uninterrupted piece of JavaScript: the middleware is called, its handler goes on
after the `await`, other code writes to the response, or a call of `validateOrigin` moves. -/
inductive Move (V : Type) where
  | handle (middleware : CorsMiddleware) (ctx : Server.World V) (state : ContextState) (now : ℤ)
  | resume (visit : ℕ)
  | respond (visit : ℕ) (res : Server.Res V) (sent : Bool)
  | validator (action : Action)

namespace System

/-- The handler up to its `await`, with the call of `validateOrigin`. -/
def handle (s : System V) (middleware : CorsMiddleware) (ctx : Server.World V)
    (state : ContextState) (now : ℤ) : System V :=
  match start { ctx } with
  | (.ok (some origin), x) =>
      let i := s.validator.calls.length
      let v : Visit V := ⟨middleware, x, .validating i origin, state, some i⟩
      { validator := s.validator.validateOrigin matching (v.call origin) now
        visits := s.visits ++ [v] }
  | (.ok none, x) =>
      { s with visits := s.visits ++ [⟨middleware, x, .ended (.ok .next), state, none⟩] }
  | (.error e, x) =>
      { s with visits := s.visits ++ [⟨middleware, x, .ended (.error e), state, none⟩] }

/-- The answer that a visit waits for, once it is there. -/
def answerOf (s : System V) (v : Visit V) : Option (String × Bool) :=
  match v.phase with
  | .validating call origin =>
      ((s.validator.calls[call]?).bind (·.answer)).map fun allowed => (origin, allowed)
  | .ended _ => none

/-- The handler from its `await` on. -/
def resumeVisit (v : Visit V) (origin : String) (allowed : Bool) : Visit V :=
  let (result, x) := resume letters cfg v.options origin allowed v.exchange
  { v with exchange := x, phase := .ended result }

/-- Other code writes to the response. -/
def respondVisit (v : Visit V) (res : Server.Res V) (sent : Bool) : Visit V :=
  { v with exchange := { v.exchange with ctx := { v.exchange.ctx with res := res, sent := sent } } }

/-- A move, if it is possible. -/
def step (s : System V) : Move V → Option (System V)
  | .handle middleware ctx state now => some (s.handle matching middleware ctx state now)
  | .resume i => do
      let v ← s.visits[i]?
      let (origin, allowed) ← s.answerOf v
      pure { s with visits := s.visits.set i (resumeVisit letters cfg v origin allowed) }
  | .respond i res sent => do
      let v ← s.visits[i]?
      pure { s with visits := s.visits.set i (respondVisit v res sent) }
  | .validator action => do
      let w ← s.validator.step matching action
      pure { s with validator := w }

end System

/-! ### What is allowed -/

/-- The call of `validateOrigin` that the visit itself has made, about this origin and under its
options, has returned `true`. -/
def Visit.Accepted (w : World) (v : Visit V) (origin : String) : Prop :=
  ∃ i r, v.validation = some i ∧ w.calls[i]? = some r ∧ r.call = v.call origin ∧
    r.answer = some true

/-- The names that a list of names, or a text with commas, stands for. -/
def Names.names : Names → List String
  | .list names => names
  | .text names => splitNames names

/-- The options allow a method, in upper or lower case; without a list of methods it is one
of the usual ones. -/
def CorsOptions.AllowsMethod (options : CorsOptions) (method : String) : Prop :=
  match options.methods with
  | none => letters.toUpperCase method ∈ DEFAULT_METHODS
  | some names => ∃ m ∈ names.names, letters.toUpperCase m = letters.toUpperCase method

/-- The options allow a header, in upper or lower case; without a list they allow every one. -/
def CorsOptions.AllowsHeader (options : CorsOptions) (name : String) : Prop :=
  match options.allowedHeaders with
  | none => True
  | some names => ∃ h ∈ names.names, letters.toLowerCase h = letters.toLowerCase name

/-- The names in `Access-Control-Request-Headers`. -/
def requestedHeaders (request : Server.Request V) : List String :=
  ((requestedHeadersRaw request).map splitNames).getD []

/-- A header of CORS. -/
def IsAccessControl (name : String) : Prop := "Access-Control-".toList <+: name.toList

/-- **The headers of a visit are safe.** -/
structure Visit.Safe (w : World) (v : Visit V) : Prop where
  accepted : ∀ value, ("Access-Control-Allow-Origin", value) ∈ v.exchange.headers →
    ∃ o, origin v.request = some o ∧ v.Accepted w o
  wildcard : ("Access-Control-Allow-Origin", "*") ∈ v.exchange.headers →
    ∀ value, ("Access-Control-Allow-Credentials", value) ∉ v.exchange.headers
  reflected : ∀ value, ("Access-Control-Allow-Origin", value) ∈ v.exchange.headers →
    value ≠ "*" → origin v.request = some value ∧ ("Vary", "Origin") ∈ v.exchange.headers
  refused : ∀ refusal, v.phase = .ended (.error (.refusal refusal)) →
    ∀ h ∈ v.exchange.headers, ¬ IsAccessControl h.1
  success : isPreflightRequest v.request = true →
    v.exchange.status = some v.options.successStatus →
      (∀ m, requestedMethod v.request = some m → v.options.AllowsMethod letters m) ∧
        ∀ name ∈ requestedHeaders v.request, v.options.AllowsHeader letters name

/-! ### Options that were accepted -/

lemma CorsOptions.status_of_issues {options : CorsOptions} (h : options.issues = []) {status : ℚ}
    (hstatus : options.optionsSuccessStatus = some status) : 200 ≤ status ∧ status ≤ 299 := by
  rw [issues, List.filterMap_eq_nil_iff] at h
  have hleast := h (options.optionsSuccessStatus.all (200 ≤ ·), "optionsSuccessStatus",
    "Number must be greater than or equal to 200") (by simp)
  have hmost := h (options.optionsSuccessStatus.all (· ≤ 299), "optionsSuccessStatus",
    "Number must be less than or equal to 299") (by simp)
  simpa [hstatus] using And.intro hleast hmost

namespace CorsMiddleware

variable (m : CorsMiddleware)

/-- The schema leaves lists of methods, and statuses of success. -/
lemma validated : (∀ names, m.options.methods = some names → ∃ list, names = .list list) ∧
    ∀ status, m.options.optionsSuccessStatus = some status → 200 ≤ status ∧ status ≤ 299 := by
  obtain ⟨options, isDevelopment, userOptions, h⟩ := m
  dsimp only
  rw [cors] at h
  generalize mergeCorsOptions userOptions (getDefaultCorsOptions isDevelopment) = merged at h
  rw [validateCorsOptions] at h
  split at h
  next hissues =>
      have hoptions : { merged with
          methods := merged.methods.map Names.transform
          allowedHeaders := merged.allowedHeaders.map Names.transform
          exposedHeaders := merged.exposedHeaders.map Names.transform } = options := by
        simp only [bind, Except.bind] at h
        split at h
        · cases h
        · exact Except.ok.inj h
      subst hoptions
      constructor
      · intro names hnames
        obtain ⟨names', -, rfl⟩ := Option.map_eq_some_iff.mp hnames
        cases names' with
        | list list => exact ⟨list, rfl⟩
        | text text => exact ⟨splitNames text, rfl⟩
      · exact fun status hstatus => CorsOptions.status_of_issues hissues hstatus
  next => simp [bind, Except.bind] at h

/-- The status of a successful preflight is not that of a refusal. -/
lemma successStatus_ne : m.options.successStatus ≠ 403 := by
  rw [CorsOptions.successStatus]
  cases hstatus : m.options.optionsSuccessStatus with
  | none => decide
  | some status =>
      obtain ⟨-, hmost⟩ := m.validated.2 status hstatus
      dsimp only
      split
      · decide
      · have hfloor : status.floor ≤ 299 := Rat.floor_intCast 299 ▸ Rat.floor_monotone hmost
        omega

end CorsMiddleware

/-! ### Headers that are set together -/

/-- The response can still be written. -/
def Exchange.Open (x : Exchange V) : Prop := x.ctx.sent = false ∧ x.ctx.res.head = none

lemma setHeader_open {x : Exchange V} (h : x.Open) (name value : String) :
    ∃ x', setHeader name value x = (.ok (), x') ∧ x'.Open ∧
      x'.headers = x.headers ++ [(name, value)] ∧ x'.status = x.status ∧
      x'.ctx.request = x.ctx.request := by
  obtain ⟨hsent, hhead⟩ := h
  have hset : Server.headerSetter name value x.ctx = (.ok (), { x.ctx with
      res := { x.ctx.res with headers := x.ctx.res.headers.set name.toLowerCase value } }) := by
    rw [Server.headerSetter, Effect.bind_of_ok (Effect.get_apply _), if_neg (by simp [hsent]),
      Server.setHeader, Server.Res.setHeader_of_head hhead]
  rw [setHeader, call, hset]
  exact ⟨_, rfl, ⟨hsent, hhead⟩, rfl, rfl, rfl⟩

lemma setHeader_closed {x : Exchange V} (h : ¬ x.Open) (name value : String) :
    ∃ e, setHeader name value x = (.error (.response e), x) := by
  have hset : ∃ e, Server.headerSetter name value x.ctx = (.error e, x.ctx) := by
    rw [Server.headerSetter, Effect.bind_of_ok (Effect.get_apply _)]
    split
    · exact ⟨_, rfl⟩
    next hsent =>
        have hhead : x.ctx.res.headersSent = true := by
          rw [Server.Res.headersSent, Option.isSome_iff_ne_none]
          exact fun hnone => h ⟨by simpa using hsent, hnone⟩
        rw [Server.setHeader, Server.Res.setHeader, if_pos hhead]
        exact ⟨_, rfl⟩
  obtain ⟨e, he⟩ := hset
  rw [setHeader, call, he]
  exact ⟨e, rfl⟩

lemma setHeaders_open {x : Exchange V} (h : x.Open) (headers : List (String × String)) :
    ∃ x', setHeaders headers x = (.ok (), x') ∧ x'.Open ∧ x'.headers = x.headers ++ headers ∧
      x'.status = x.status ∧ x'.ctx.request = x.ctx.request := by
  induction headers generalizing x with
  | nil => exact ⟨x, rfl, h, (List.append_nil _).symm, rfl, rfl⟩
  | cons header headers ih =>
      obtain ⟨y, hy, hopen, hheaders, hstatus, hrequest⟩ := setHeader_open h header.1 header.2
      obtain ⟨z, hz, hopen', hheaders', hstatus', hrequest'⟩ := ih hopen
      refine ⟨z, ?_, hopen', ?_, hstatus'.trans hstatus, hrequest'.trans hrequest⟩
      · rw [setHeaders, Effect.bind_of_ok hy, hz]
      · rw [hheaders', hheaders, List.append_assoc, List.singleton_append]

lemma setHeaders_closed {x : Exchange V} (h : ¬ x.Open) {headers : List (String × String)}
    (hne : headers ≠ []) : ∃ e, setHeaders headers x = (.error (.response e), x) := by
  obtain ⟨header, rest, rfl⟩ := List.exists_cons_of_ne_nil hne
  obtain ⟨e, he⟩ := setHeader_closed h header.1 header.2
  exact ⟨e, by rw [setHeaders, Effect.bind_of_error he]⟩

lemma statusSetter_request (code : ℕ) (w : Server.World V) :
    (Server.statusSetter code w).2.request = w.request := by
  rw [Server.statusSetter, Effect.bind_of_ok (Effect.get_apply _)]
  split
  · rfl
  · rfl

/-- A call of `ctx.response.status` touches no header. -/
lemma setStatus_cases (code : ℕ) (x : Exchange V) :
    ∃ r x', setStatus code x = (r, x') ∧ (∀ refusal, r ≠ .error (.refusal refusal)) ∧
      x'.headers = x.headers ∧ (x'.status = x.status ∨ x'.status = some code) ∧
        x'.ctx.request = x.ctx.request := by
  have hrequest := statusSetter_request code x.ctx
  rw [setStatus, call]
  split
  next w hw =>
      rw [hw] at hrequest
      exact ⟨_, _, rfl, nofun, rfl, .inr rfl, hrequest⟩
  next e w hw =>
      rw [hw] at hrequest
      exact ⟨_, _, rfl, nofun, rfl, .inl rfl, hrequest⟩

/-- What a refusal leaves: no header, and no status but 403. -/
lemma refuse_cases {α : Type} (refusal : Refusal) (x : Exchange V) :
    ∃ e x', (refuse refusal : Handler V α) x = (.error e, x') ∧ x'.headers = x.headers ∧
      (x'.status = x.status ∨ x'.status = some 403) ∧ x'.ctx.request = x.ctx.request := by
  obtain ⟨r, x', hr, -, hheaders, hstatus, hrequest⟩ := setStatus_cases 403 x
  rw [refuse]
  cases r with
  | ok u =>
      refine ⟨.refusal refusal, x', ?_, hheaders, hstatus, hrequest⟩
      rw [Effect.bind_of_ok hr, Effect.throw_apply]
  | error e => exact ⟨e, x', by rw [Effect.bind_of_error hr], hheaders, hstatus, hrequest⟩

lemma text_cases (x : Exchange V) :
    ∃ r x', call (Server.textResponder cfg "" none) id x = (r, x') ∧
      (∀ refusal, r ≠ .error (.refusal refusal)) ∧ x'.headers = x.headers ∧
        x'.ctx.request = x.ctx.request := by
  have hrequest := (Server.quiet_contentResponder cfg "text/plain" (.text "") none x.ctx).1
  change (Server.textResponder cfg "" none x.ctx).2.request = _ at hrequest
  rw [call]
  split
  next w hw =>
      rw [hw] at hrequest
      exact ⟨_, _, rfl, nofun, rfl, hrequest⟩
  next e w hw =>
      rw [hw] at hrequest
      exact ⟨_, _, rfl, nofun, rfl, hrequest⟩

/-! ### The second piece of the handler -/

section Resume

variable (options : CorsOptions) (origin : String)

/-- Nothing was granted: no header was set, and no status but 403. -/
def Exchange.Withheld (x : Exchange V) : Prop :=
  x.headers = [] ∧ (x.status = none ∨ x.status = some 403)

/-- The checks that a request passed, and the headers it has got for it. -/
def Exchange.Granted (x : Exchange V) : Prop :=
  if isPreflightRequest x.ctx.request then
    isMethodAllowed letters ((requestedMethod x.ctx.request).getD "") options.methods = true ∧
      areHeadersAllowed letters (parseRequestedHeaders letters x.ctx.request)
        options.allowedHeaders = true ∧
      x.headers = preflightHeaders options x.ctx.request origin
  else x.headers = corsHeaders options origin

lemma originHeaders_ne_nil : originHeaders options origin ≠ [] := by
  rw [originHeaders]
  split
  · exact List.cons_ne_nil _ _
  · exact List.cons_ne_nil _ _

lemma corsHeaders_ne_nil : corsHeaders options origin ≠ [] := by
  simp [corsHeaders, originHeaders_ne_nil]

lemma preflightHeaders_ne_nil (request : Server.Request V) :
    preflightHeaders options request origin ≠ [] := by
  simp [preflightHeaders, originHeaders_ne_nil]

/-- A refusal in the second piece. -/
lemma withheld_refuse {α : Type} (refusal : Refusal) {x : Exchange V} (hheaders : x.headers = [])
    (hstatus : x.status = none) :
    ∃ r x', (refuse refusal : Handler V α) x = (r, x') ∧ x'.ctx.request = x.ctx.request ∧
      x'.Withheld := by
  obtain ⟨e, x', he, hheaders', hstatus', hrequest⟩ := refuse_cases (α := α) refusal x
  exact ⟨_, x', he, hrequest, hheaders'.trans hheaders, hstatus ▸ hstatus'⟩

/-- The end of a preflight that passed every check. -/
lemma grantPreflight_cases (request : Server.Request V) {x : Exchange V}
    (hheaders : x.headers = []) (hstatus : x.status = none) :
    ∃ r x', (do
        setHeaders (preflightHeaders options request origin)
        setStatus options.successStatus
        if options.preflightContinue = some true then pure .next
        else do
          call (Server.textResponder cfg "" none) id
          pure .returns : Handler V Ending) x = (r, x') ∧ x'.ctx.request = x.ctx.request ∧
      (x'.Withheld ∨ x'.headers = preflightHeaders options request origin ∧
        ∀ refusal, r ≠ .error (.refusal refusal)) := by
  by_cases hopen : x.Open
  · obtain ⟨y, hy, -, hy', -, hyrequest⟩ :=
      setHeaders_open hopen (preflightHeaders options request origin)
    obtain ⟨r, z, hz, hr, hz', -, hzrequest⟩ := setStatus_cases options.successStatus y
    have hset : z.headers = preflightHeaders options request origin := by
      rw [hz', hy', hheaders, List.nil_append]
    rw [Effect.bind_of_ok hy]
    cases r with
    | error e =>
        rw [Effect.bind_of_error hz]
        exact ⟨_, z, rfl, hzrequest.trans hyrequest, .inr ⟨hset, fun f h => hr f (by cases h; rfl)⟩⟩
    | ok u =>
        rw [Effect.bind_of_ok hz]
        split
        · exact ⟨_, z, rfl, hzrequest.trans hyrequest, .inr ⟨hset, nofun⟩⟩
        · obtain ⟨r, t, ht, hr, ht', htrequest⟩ := text_cases cfg z
          have hrequest := htrequest.trans (hzrequest.trans hyrequest)
          cases r with
          | error e =>
              rw [Effect.bind_of_error ht]
              exact ⟨_, t, rfl, hrequest, .inr ⟨ht'.trans hset, fun f h => hr f (by cases h; rfl)⟩⟩
          | ok u =>
              rw [Effect.bind_of_ok ht]
              exact ⟨_, t, rfl, hrequest, .inr ⟨ht'.trans hset, nofun⟩⟩
  · obtain ⟨e, he⟩ := setHeaders_closed hopen (preflightHeaders_ne_nil options origin request)
    rw [Effect.bind_of_error he]
    exact ⟨_, x, rfl, rfl, .inl ⟨hheaders, .inl hstatus⟩⟩

/-- **The second piece of the handler**: it grants nothing, or the origin was accepted, the
request passed the checks, and it is not refused. -/
lemma resume_cases (allowed : Bool) {x : Exchange V} (hheaders : x.headers = [])
    (hstatus : x.status = none) :
    ∃ r x', resume letters cfg options origin allowed x = (r, x') ∧
      x'.ctx.request = x.ctx.request ∧
      (x'.Withheld ∨ allowed = true ∧ x'.Granted letters options origin ∧
        ∀ refusal, r ≠ .error (.refusal refusal)) := by
  have hrefuse : ∀ refusal, ∃ r x', (refuse refusal : Handler V Ending) x = (r, x') ∧
      x'.ctx.request = x.ctx.request ∧ (x'.Withheld ∨ allowed = true ∧
        x'.Granted letters options origin ∧ ∀ refusal, r ≠ .error (.refusal refusal)) := by
    intro refusal
    obtain ⟨r, x', hr, hrequest, hx'⟩ := withheld_refuse refusal hheaders hstatus
    exact ⟨r, x', hr, hrequest, .inl hx'⟩
  rw [resume]
  split
  next hpreflight =>
      rw [resumePreflight]
      dsimp only
      split
      · exact hrefuse _
      next hallowed =>
      split
      · exact hrefuse _
      next hmethod =>
      split
      · exact hrefuse _
      next hnames =>
          obtain ⟨r, x', hr, hrequest, hx'⟩ :=
            grantPreflight_cases cfg options origin x.ctx.request hheaders hstatus
          refine ⟨r, x', hr, hrequest, hx'.imp id fun ⟨hset, hne⟩ => ?_⟩
          refine ⟨by simpa using hallowed, ?_, hne⟩
          rw [Exchange.Granted, hrequest, if_pos hpreflight]
          exact ⟨by simpa using hmethod, by simpa using hnames, hset⟩
  next hpreflight =>
  split
  · exact hrefuse _
  next hallowed =>
      by_cases hopen : x.Open
      · obtain ⟨y, hy, -, hy', -, hrequest⟩ := setHeaders_open hopen (corsHeaders options origin)
        rw [Effect.bind_of_ok hy]
        refine ⟨_, y, rfl, hrequest, .inr ⟨by simpa using hallowed, ?_, nofun⟩⟩
        rw [Exchange.Granted, hrequest, if_neg hpreflight, hy', hheaders, List.nil_append]
      · obtain ⟨e, he⟩ := setHeaders_closed hopen (corsHeaders_ne_nil options origin)
        rw [Effect.bind_of_error he]
        exact ⟨_, x, rfl, rfl, .inl ⟨hheaders, .inl hstatus⟩⟩

end Resume

/-! ### What a granted request gets -/

section Granted

variable {letters} {options : CorsOptions} {o value : String} {x : Exchange V}

/-- Beside the headers for the origin and the credentials there are only others. -/
lemma Exchange.Granted.headers_eq (h : x.Granted letters options o) :
    ∃ rest, x.headers = originHeaders options o ++ credentialsHeaders options ++ rest ∧
      ∀ e ∈ rest, e.1 ≠ "Access-Control-Allow-Origin" ∧
        e.1 ≠ "Access-Control-Allow-Credentials" := by
  rw [Exchange.Granted] at h
  split at h
  · obtain ⟨-, -, hset⟩ := h
    rw [hset, preflightHeaders, List.append_assoc, List.append_assoc]
    refine ⟨_, rfl, fun e he => ?_⟩
    simp only [List.mem_append, List.mem_cons, List.not_mem_nil, or_false, List.mem_map] at he
    rcases he with rfl | ⟨names, -, rfl⟩ | ⟨age, -, rfl⟩
    · exact ⟨by simp, by simp⟩
    · exact ⟨by simp, by simp⟩
    · exact ⟨by simp, by simp⟩
  · refine ⟨_, h, fun e he => ?_⟩
    obtain ⟨names, -, rfl⟩ := List.mem_map.mp he
    exact ⟨by simp, by simp⟩

lemma Exchange.Granted.allowOrigin (h : x.Granted letters options o)
    (hv : ("Access-Control-Allow-Origin", value) ∈ x.headers) :
    value = "*" ∧ options.isWildcard = true ∨ value = o ∧ ("Vary", "Origin") ∈ x.headers := by
  obtain ⟨rest, hheaders, hrest⟩ := h.headers_eq
  rw [hheaders, List.mem_append, List.mem_append] at hv
  rcases hv with (hv | hv) | hv
  · rw [originHeaders] at hv
    split at hv
    next hwild => exact .inl ⟨by simpa using hv, hwild⟩
    next hwild =>
        refine .inr ⟨by simpa using hv, ?_⟩
        rw [hheaders, originHeaders, if_neg hwild]
        simp
  · rw [credentialsHeaders] at hv
    split at hv
    · simp at hv
    · cases hv
  · exact absurd rfl (hrest _ hv).1

lemma Exchange.Granted.credentials (h : x.Granted letters options o)
    (hv : ("Access-Control-Allow-Credentials", value) ∈ x.headers) :
    options.credentials = some true := by
  obtain ⟨rest, hheaders, hrest⟩ := h.headers_eq
  rw [hheaders, List.mem_append, List.mem_append] at hv
  rcases hv with (hv | hv) | hv
  · rw [originHeaders] at hv
    split at hv
    · simp at hv
    · simp at hv
  · rw [credentialsHeaders] at hv
    split at hv
    next hcredentials => exact hcredentials
    next => cases hv
  · exact absurd rfl (hrest _ hv).2

/-- The check of the method is one of the options. -/
lemma allowsMethod_of_isMethodAllowed {m : String}
    (hmethods : ∀ names, options.methods = some names → ∃ list, names = .list list)
    (h : isMethodAllowed letters m options.methods = true) : options.AllowsMethod letters m := by
  rw [CorsOptions.AllowsMethod]
  cases hm : options.methods with
  | none =>
      rw [hm, isMethodAllowed] at h
      simpa using h
  | some names =>
      obtain ⟨list, rfl⟩ := hmethods names hm
      rw [hm, isMethodAllowed] at h
      simpa [Names.names] using h

lemma allowedArray_eq (names : Names) :
    allowedArray letters names = names.names.map letters.toLowerCase := by
  cases names with
  | list list => rfl
  | text names =>
      rw [allowedArray, Names.names, splitNames, List.map_map]
      rfl

/-- The check of the headers is one of the options for every name. -/
lemma allowsHeader_of_areHeadersAllowed {request : Server.Request V}
    (h : areHeadersAllowed letters (parseRequestedHeaders letters request)
      options.allowedHeaders = true) :
    ∀ name ∈ requestedHeaders request, options.AllowsHeader letters name := by
  intro name hname
  rw [CorsOptions.AllowsHeader]
  cases hallowed : options.allowedHeaders with
  | none => trivial
  | some allowed =>
      rw [requestedHeaders] at hname
      rw [parseRequestedHeaders, hallowed] at h
      cases hraw : requestedHeadersRaw request with
      | none => simp [hraw] at hname
      | some raw =>
          rw [hraw, Option.map_some, Option.getD_some, splitNames] at hname
          obtain ⟨piece, hpiece, rfl⟩ := List.mem_map.mp hname
          have hin : letters.toLowerCase (trimmed piece) ∈
              (split raw).map fun h => letters.toLowerCase (trimmed h) :=
            List.mem_map.mpr ⟨piece, hpiece, rfl⟩
          rw [hraw, Option.map_some] at h
          have hall : ∀ n ∈ (split raw).map fun h => letters.toLowerCase (trimmed h),
              (allowedArray letters allowed).contains (letters.toLowerCase n) = true := by
            revert h hin
            cases (split raw).map fun h => letters.toLowerCase (trimmed h) with
            | nil => exact fun _ hin => by cases hin
            | cons n ns => exact fun h _ => List.all_eq_true.mp h
          have hone := hall _ hin
          rw [letters.lower_lower, List.contains_iff_mem, allowedArray_eq] at hone
          exact List.mem_map.mp hone

end Granted

/-! ### The invariant -/

/-- A visit that waits has set nothing and waits for the right call; one that has ended got
nothing, or its origin was accepted and it passed every check. -/
def Visit.Sound (w : World) (v : Visit V) : Prop :=
  match v.phase with
  | .validating i o =>
      v.exchange.headers = [] ∧ v.exchange.status = none ∧ origin v.request = some o ∧
        v.validation = some i ∧ ∃ r, w.calls[i]? = some r ∧ r.call = v.call o
  | .ended result =>
      v.exchange.Withheld ∨
        ∃ o, origin v.request = some o ∧ v.Accepted w o ∧ v.exchange.Granted letters v.options o ∧
          ∀ refusal, result ≠ .error (.refusal refusal)

/-- The calls that the visits have made, in the order of the visits. -/
def System.validations (s : System V) : List ℕ := s.visits.filterMap Visit.validation

/-- Every visit is sound, and no two have made the same call. -/
structure System.Sound (s : System V) : Prop where
  visits : ∀ v ∈ s.visits, v.Sound letters s.validator
  made : ∀ i ∈ s.validations, i < s.validator.calls.length
  own : s.validations.Nodup

/-- A call that was made keeps its arguments, and its answer once it has one. -/
def World.Continues (w w' : World) : Prop :=
  ∀ (i : ℕ) r, w.calls[i]? = some r → ∃ r', w'.calls[i]? = some r' ∧ r'.call = r.call ∧
    ∀ b, r.answer = some b → r'.answer = some b

lemma validateOrigin_calls (w : World) (c : Call) (now : ℤ) :
    ∃ r, (w.validateOrigin matching c now).calls = w.calls ++ [r] ∧ r.call = c := by
  rw [World.validateOrigin]
  split
  · exact ⟨_, rfl, rfl⟩
  · split
    · split
      · exact ⟨_, rfl, rfl⟩
      · exact ⟨_, rfl, rfl⟩
    · exact ⟨_, rfl, rfl⟩

lemma continues_validateOrigin (w : World) (c : Call) (now : ℤ) :
    w.Continues (w.validateOrigin matching c now) := by
  intro i r hr
  obtain ⟨r', hcalls, -⟩ := validateOrigin_calls matching w c now
  have hi : i < w.calls.length := (List.getElem?_eq_some_iff.mp hr).1
  exact ⟨r, by rw [hcalls, List.getElem?_append_left hi, hr], rfl, fun _ h => h⟩

lemma continues_step {w w' : World} {a : Action} (h : w.step matching a = some w') :
    w.Continues w' := by
  cases a with
  | validateOrigin c now =>
      obtain rfl := Option.some.inj h
      exact continues_validateOrigin matching w c now
  | settle j outcomes now =>
      simp only [World.step, World.settle] at h
      split at h
      next r hr =>
          split at h
          next hopen =>
              obtain rfl := Option.some.inj h
              intro i r' hr'
              by_cases hij : j = i
              · subst hij
                obtain rfl : r = r' := Option.some.inj (hr.symm.trans hr')
                have hj : j < w.calls.length := (List.getElem?_eq_some_iff.mp hr).1
                refine ⟨_, List.getElem?_set_self hj, rfl, fun b hb => ?_⟩
                rw [hopen.1] at hb
                cases hb
              · exact ⟨r', by rw [List.getElem?_set_ne hij, hr'], rfl, fun _ h => h⟩
          next => cases h
      next => cases h
  | cleanExpired now =>
      obtain rfl := Option.some.inj h
      exact fun i r hr => ⟨r, hr, rfl, fun _ h => h⟩
  | setOriginCache ttl maxSize =>
      obtain rfl := Option.some.inj h
      exact fun i r hr => ⟨r, hr, rfl, fun _ h => h⟩

variable {letters matching cfg}

lemma Visit.Accepted.continues {w w' : World} (h : w.Continues w') {v : Visit V} {o : String}
    (ha : v.Accepted w o) : v.Accepted w' o := by
  obtain ⟨i, r, hi, hr, hcall, hanswer⟩ := ha
  obtain ⟨r', hr', hcall', hkeep⟩ := h i r hr
  exact ⟨i, r', hi, hr', hcall'.trans hcall, hkeep _ hanswer⟩

/-- No call is forgotten. -/
lemma World.Continues.length_le {w w' : World} (h : w.Continues w') :
    w.calls.length ≤ w'.calls.length := by
  by_contra hlt
  have hi : w'.calls.length < w.calls.length := Nat.lt_of_not_le hlt
  obtain ⟨r', hr', -⟩ := h _ _ (List.getElem?_eq_getElem hi)
  exact absurd (List.getElem?_eq_some_iff.mp hr').1 (Nat.lt_irrefl _)

lemma Visit.Sound.continues {w w' : World} (h : w.Continues w') {v : Visit V}
    (hv : v.Sound letters w) : v.Sound letters w' := by
  rw [Visit.Sound] at hv ⊢
  cases hphase : v.phase with
  | validating i o =>
      rw [hphase] at hv
      obtain ⟨hheaders, hstatus, horigin, hi, r, hr, hcall⟩ := hv
      obtain ⟨r', hr', hcall', -⟩ := h i r hr
      exact ⟨hheaders, hstatus, horigin, hi, r', hr', hcall'.trans hcall⟩
  | ended result =>
      rw [hphase] at hv
      exact hv.imp id fun ⟨o, horigin, ha, hgranted⟩ => ⟨o, horigin, ha.continues h, hgranted⟩

/-! ### What a step keeps -/

lemma start_cases (x : Exchange V) :
    (∃ o, start x = (.ok (some o), x) ∧ origin x.ctx.request = some o) ∨
      start x = (.ok none, x) ∨
        ∃ e x', start x = (.error e, x') ∧ x'.headers = x.headers ∧
          (x'.status = x.status ∨ x'.status = some 403) := by
  rw [start]
  split
  · rw [startPreflight]
    split
    next o m ho hm => exact .inl ⟨o, rfl, ho⟩
    next o m hne =>
        obtain ⟨e, x', he, hheaders, hstatus, -⟩ := refuse_cases (α := Option String)
          (.validation "Invalid preflight request: missing required headers"
            (if (origin x.ctx.request).isSome then "Access-Control-Request-Method" else "Origin")
            ["Required header is missing"] none none) x
        exact .inr (.inr ⟨e, x', he, hheaders, hstatus⟩)
  · cases ho : origin x.ctx.request with
    | none => exact .inr (.inl rfl)
    | some o => exact .inl ⟨o, rfl, rfl⟩

lemma System.Sound.continues {s : System V} (hs : s.Sound letters) {w : World}
    (hw : s.validator.Continues w) : System.Sound letters { s with validator := w } :=
  ⟨fun v hv => (hs.visits v hv).continues hw, fun i hi => (hs.made i hi).trans_le hw.length_le,
    hs.own⟩

/-- A visit that has made no call. -/
lemma sound_append {s : System V} (hs : s.Sound letters) {v : Visit V}
    (hv : v.Sound letters s.validator) (hnone : v.validation = none) :
    System.Sound letters { s with visits := s.visits ++ [v] } := by
  have hsame : (s.visits ++ [v]).filterMap Visit.validation = s.validations := by
    rw [List.filterMap_append, List.filterMap_cons_none hnone, List.filterMap_nil, List.append_nil,
      System.validations]
  refine ⟨fun u hu => ?_, fun i hi => hs.made i (hsame ▸ hi),
    by rw [System.validations, hsame]; exact hs.own⟩
  rcases List.mem_append.mp hu with hu | hu
  · exact hs.visits u hu
  · exact List.mem_singleton.mp hu ▸ hv

/-- A visit that makes the next call. -/
lemma sound_append_call {s : System V} (hs : s.Sound letters) {w : World}
    (hw : s.validator.Continues w) (hnext : s.validator.calls.length < w.calls.length)
    {v : Visit V} (hv : v.Sound letters w) (hcall : v.validation = some s.validator.calls.length) :
    System.Sound letters { validator := w, visits := s.visits ++ [v] } := by
  have hlast : (s.visits ++ [v]).filterMap Visit.validation =
      s.validations ++ [s.validator.calls.length] := by
    rw [List.filterMap_append, List.filterMap_cons_some hcall, List.filterMap_nil,
      System.validations]
  refine ⟨fun u hu => ?_, fun i hi => ?_, ?_⟩
  · rcases List.mem_append.mp hu with hu | hu
    · exact (hs.visits u hu).continues hw
    · exact List.mem_singleton.mp hu ▸ hv
  · rw [System.validations, hlast] at hi
    rcases List.mem_append.mp hi with hi | hi
    · exact (hs.made i hi).trans_le hw.length_le
    · exact List.mem_singleton.mp hi ▸ hnext
  · rw [System.validations, hlast]
    refine List.Nodup.append hs.own (List.nodup_singleton _) fun i hi hi' => ?_
    exact absurd (hs.made i hi) (List.mem_singleton.mp hi' ▸ Nat.lt_irrefl _)

lemma sound_set {s : System V} (hs : s.Sound letters) {i : ℕ} {u v : Visit V}
    (hu : s.visits[i]? = some u) (hv : v.Sound letters s.validator)
    (hsame : v.validation = u.validation) :
    System.Sound letters { s with visits := s.visits.set i v } := by
  have hmap : (s.visits.set i v).map Visit.validation = s.visits.map Visit.validation := by
    obtain ⟨hi, rfl⟩ := List.getElem?_eq_some_iff.mp hu
    rw [List.map_set, hsame, ← List.map_set, List.set_getElem_self]
  have hcalls : (s.visits.set i v).filterMap Visit.validation = s.validations := by
    have hid (visits : List (Visit V)) :
        visits.filterMap Visit.validation = (visits.map Visit.validation).filterMap id := by
      rw [List.filterMap_map]
      rfl
    rw [hid, hmap, ← hid, System.validations]
  refine ⟨fun u' hu' => ?_, fun k hk => hs.made k (hcalls ▸ hk),
    by rw [System.validations, hcalls]; exact hs.own⟩
  rcases List.mem_or_eq_of_mem_set hu' with hu' | rfl
  · exact hs.visits u' hu'
  · exact hv

lemma sound_handle {s : System V} (hs : s.Sound letters) (m : CorsMiddleware)
    (ctx : Server.World V) (state : ContextState) (now : ℤ) :
    (s.handle matching m ctx state now).Sound letters := by
  rw [System.handle]
  rcases start_cases { ctx } with ⟨o, hstart, ho⟩ | hstart | ⟨e, x, hstart, hheaders, hstatus⟩
  · rw [hstart]
    obtain ⟨r, hcalls, hr⟩ := validateOrigin_calls matching s.validator
      { requestOrigin := o, configuredOrigin := m.options.configuredOrigin, state } now
    refine sound_append_call hs (continues_validateOrigin matching _ _ _) ?_
      ⟨rfl, rfl, ho, rfl, r, ?_, hr⟩ rfl
    · exact hcalls ▸ List.length_append ▸ Nat.lt_succ_self _
    · exact hcalls ▸ List.getElem?_concat_length
  · rw [hstart]
    exact sound_append hs (.inl ⟨rfl, .inl rfl⟩) rfl
  · rw [hstart]
    exact sound_append hs (.inl ⟨hheaders, hstatus⟩) rfl

/-- The handler goes on with the answer of the call that it made. -/
lemma sound_resumeVisit {s : System V} {v : Visit V} (hv : v.Sound letters s.validator)
    {o : String} {allowed : Bool} (ha : s.answerOf v = some (o, allowed)) :
    (System.resumeVisit letters cfg v o allowed).Sound letters s.validator := by
  rw [System.answerOf] at ha
  rw [Visit.Sound] at hv
  cases hphase : v.phase with
  | ended result =>
      rw [hphase] at ha
      cases ha
  | validating i o' =>
      rw [hphase] at ha hv
      obtain ⟨hheaders, hstatus, horigin, hi, r, hr, hcall⟩ := hv
      obtain ⟨answer, hanswer, heq⟩ := Option.map_eq_some_iff.mp ha
      rw [hr, Option.bind_some] at hanswer
      obtain ⟨rfl, rfl⟩ := Prod.mk.inj heq
      obtain ⟨result, x, hx, hrequest, hcases⟩ :=
        resume_cases letters cfg v.options o' answer hheaders hstatus
      rw [System.resumeVisit, hx]
      refine hcases.imp id fun ⟨hallowed, hgranted, hne⟩ => ⟨o', ?_, ?_, hgranted, hne⟩
      · rw [← horigin]
        exact congrArg origin hrequest
      · exact ⟨i, r, hi, hr, hcall, hallowed ▸ hanswer⟩

lemma sound_respondVisit {w : World} {v : Visit V} (hv : v.Sound letters w) (res : Server.Res V)
    (sent : Bool) : (System.respondVisit v res sent).Sound letters w := by
  rw [Visit.Sound] at hv ⊢
  exact hv

/-- **A step keeps every visit sound.** -/
theorem step_sound {s s' : System V} {move : Move V} (hs : s.Sound letters)
    (h : s.step letters matching cfg move = some s') : s'.Sound letters := by
  cases move with
  | handle m ctx state now =>
      obtain rfl := Option.some.inj h
      exact sound_handle hs m ctx state now
  | resume i =>
      obtain ⟨v, hv, h⟩ := Option.bind_eq_some_iff.mp h
      obtain ⟨⟨o, allowed⟩, ha, h⟩ := Option.bind_eq_some_iff.mp h
      obtain rfl := Option.some.inj h
      exact sound_set hs hv (sound_resumeVisit (hs.visits v (List.mem_of_getElem? hv)) ha) rfl
  | respond i res sent =>
      obtain ⟨v, hv, h⟩ := Option.bind_eq_some_iff.mp h
      obtain rfl := Option.some.inj h
      exact sound_set hs hv
        (sound_respondVisit (hs.visits v (List.mem_of_getElem? hv)) res sent) rfl
  | validator action =>
      obtain ⟨w, hw, h⟩ := Option.bind_eq_some_iff.mp h
      obtain rfl := Option.some.inj h
      exact hs.continues (continues_step matching hw)

/-! ### Sound visits are safe -/

lemma Exchange.Withheld.safe {w : World} {v : Visit V} (h : v.exchange.Withheld) :
    v.Safe letters w := by
  obtain ⟨hheaders, hstatus⟩ := h
  refine ⟨?_, ?_, ?_, ?_, ?_⟩
  · exact fun _ hv => by simp [hheaders] at hv
  · exact fun hv => by simp [hheaders] at hv
  · exact fun _ hv => by simp [hheaders] at hv
  · exact fun _ _ e he => by simp [hheaders] at he
  · intro _ hsuccess
    rcases hstatus with hstatus | hstatus
    · rw [hstatus] at hsuccess
      cases hsuccess
    · rw [hstatus] at hsuccess
      exact absurd (Option.some.inj hsuccess).symm v.middleware.successStatus_ne

lemma Visit.Sound.safe {w : World} {v : Visit V} (h : v.Sound letters w)
    (horigin : origin v.request ≠ some "*") : v.Safe letters w := by
  rw [Visit.Sound] at h
  cases hphase : v.phase with
  | validating i o =>
      rw [hphase] at h
      exact Exchange.Withheld.safe ⟨h.1, .inl h.2.1⟩
  | ended result =>
      rw [hphase] at h
      rcases h with h | ⟨o, ho, ha, hgranted, hne⟩
      · exact h.safe
      refine ⟨fun _ _ => ⟨o, ho, ha⟩, ?_, ?_, ?_, ?_⟩
      · intro hv value hcredentials
        rcases hgranted.allowOrigin hv with ⟨-, hwild⟩ | ⟨rfl, -⟩
        · simp [CorsOptions.isWildcard, hgranted.credentials hcredentials] at hwild
        · exact horigin ho
      · intro value hv hstar
        rcases hgranted.allowOrigin hv with ⟨rfl, -⟩ | ⟨rfl, hvary⟩
        · exact absurd rfl hstar
        · exact ⟨ho, hvary⟩
      · intro refusal hrefused
        rw [hphase] at hrefused
        exact absurd (Phase.ended.inj hrefused) (hne refusal)
      · intro hpreflight _
        obtain ⟨hmethod, hnames, -⟩ := (if_pos hpreflight).mp hgranted
        refine ⟨fun m hm => ?_, allowsHeader_of_areHeadersAllowed hnames⟩
        have hgetD : (requestedMethod v.exchange.ctx.request).getD "" = m := by
          rw [Visit.request] at hm
          rw [hm, Option.getD_some]
        rw [hgetD] at hmethod
        exact allowsMethod_of_isMethodAllowed v.middleware.validated.1 hmethod

/-- **The headers are safe.**  In every run of any number of requests through any middlewares
that `cors` accepted the options of, whatever the validation functions answer and in which
order the handlers go on, no two requests share a call of `validateOrigin`, and every request whose
origin is not the literal `*` has safe headers. -/
theorem headers_safe (letters : Js.CaseMapping) (matching : Matching) (cfg : Server.Config V)
    (w : World) (moves : List (Move V)) (s : System V)
    (hs : exec (System.step letters matching cfg) { validator := w } moves = some s) :
    s.validations.Nodup ∧
      ∀ v ∈ s.visits, origin v.request ≠ some "*" → v.Safe letters s.validator := by
  have hinit : System.Sound letters (V := V) { validator := w } :=
    ⟨fun _ hu => absurd hu List.not_mem_nil, fun _ hi => absurd hi List.not_mem_nil,
      List.nodup_nil⟩
  have hsound : s.Sound letters :=
    meets_invariant (fun _ _ _ h _ hstep => step_sound h hstep) hinit (meets_true _ moves) hs
  exact ⟨hsound.own, fun v hv horigin => (hsound.visits v hv).safe horigin⟩

/-! ### A preflight with credentials -/

/-- Options of a user. -/
def appOptions : UserOptions where
  origin := some (some (.single (.text "https://a")))
  methods := some (.list ["PUT"])
  allowedHeaders := some (.text "x-a, x-b")
  credentials := some (some true)

/-- The middleware with these options. -/
def appCors : CorsMiddleware where
  options :=
    { origin := some (.single (.text "https://a"))
      methods := some (.list ["PUT"])
      allowedHeaders := some (.list ["x-a", "x-b"])
      credentials := some true
      optionsSuccessStatus := some 204 }
  created := ⟨false, .options appOptions, by decide +kernel⟩

/-- A preflight that they allow. -/
def preflight : Server.World Unit where
  request :=
    { method := "OPTIONS"
      path := "/"
      headers :=
        ((((∅ : OrdMap _ _).set "origin" (.single "https://a")).set
          "access-control-request-method" (.single "PUT")).set
          "access-control-request-headers" (.single "x-b"))
      params := ()
      query := ()
      body := ()
      files := () }
  correlationId := "id"

/-- A mapping that changes no case. -/
def sameCase : Js.CaseMapping := ⟨id, id, Js.id_id_text⟩

/-- The preflight from its beginning to its end. -/
def appMoves : List (Move Unit) :=
  [.handle appCors preflight {} 0, .validator (.settle 0 [] 0), .resume 0]

/-- A step of the system. -/
def appStep : System Unit → Move Unit → Option (System Unit) :=
  System.step sameCase (fun _ _ _ _ => none) { generator := fun _ => "" }

/-- The preflight of an application with credentials gets its origin back. -/
theorem headers_safe_credentials : ∃ s v, exec appStep { validator := {} } appMoves = some s ∧
    v ∈ s.visits ∧ ("Access-Control-Allow-Origin", "https://a") ∈ v.exchange.headers ∧
      v.exchange.status = some 204 ∧ v.Safe sameCase s.validator := by
  have hrun : (exec appStep { validator := {} } appMoves).any (fun s => s.visits.any fun v =>
      decide (("Access-Control-Allow-Origin", "https://a") ∈ v.exchange.headers ∧
        v.exchange.status = some 204 ∧ origin v.request ≠ some "*")) = true := by decide +kernel
  obtain ⟨s, hs, hvisits⟩ := (Option.any_eq_true _ _).mp hrun
  obtain ⟨v, hv, hdecide⟩ := List.any_eq_true.mp hvisits
  obtain ⟨hheaders, hstatus, horigin⟩ := of_decide_eq_true hdecide
  exact ⟨s, v, hs, hv, hheaders, hstatus,
    (headers_safe sameCase (fun _ _ _ _ => none) _ {} appMoves s hs).2 v hv horigin⟩

end Blaize.Cors
