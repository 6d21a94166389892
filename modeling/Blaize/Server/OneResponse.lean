import Blaize.Server.RequestHandler
import Blaize.Server.Validation

/-!
When the response of the handler is the response of the request.

After the handler the request handler infers from two flags whether there is a response:
`res.headersSent` and `ctx.response.sent`.  The responders that end the response set both.  A
streamed response sets the first with its first chunk and the second with its end, so a
readable that has not delivered anything when the route is done counts as no response.

* `AnswersOnce`: the handler makes one responder call that succeeds and returns nothing;
* `Fresh`, `Replied`: the world before and after that call;
* `returns_handleRequest`: the routes leave a replied world;
* `World.IsAnswered`: the response is the one of the call, with what its readable delivered;
* `answered_iff_hasDelivered`: **the response of the handler is the response of the request
  exactly when a readable has delivered something before the check**.
-/

namespace Blaize.Server

variable {V : Type} {cfg : Config V} {truthy : V → Bool}

/-! ### Handlers that answer once -/

def Responder.isStream : Responder V → Bool
  | .stream _ => true
  | _ => false

/-- The call does not throw on a fresh response: a `json` body passes the response validator
and can be written. -/
def Responder.succeeds (cfg : Config V) (check : Option (ResponseCheck V)) : Responder V → Bool
  | .json body _ =>
      match check with
      | none => (cfg.stringifyError body).isNone
      | some check =>
          if cfg.isErrorResponse body then (cfg.stringifyError body).isNone
          else
            match check.validate body with
            | .ok validatedBody => (cfg.stringifyError validatedBody).isNone
            | .error _ => false
  | _ => true

/-- Operations that do not touch the response. -/
def Op.isSilent : Op V → Bool
  | .getCorrelationId => true
  | .request => true
  | .await => true
  | _ => false

/-- Operations that may come before a responder call. -/
def Op.isPreparation : Op V → Bool
  | .status _ => true
  | .header _ _ => true
  | op => op.isSilent

/-- The code does not touch the response and returns `undefined`. -/
inductive Silent : Prog (Op V) Op.Reply (Thrown V) (Option V) → Prop
  | ret : Silent (.ret none)
  | call (op : Op V) (k) (hop : op.isSilent) (hk : ∀ reply, Silent (k (.ok reply))) :
      Silent (.call op k)

/-- The code makes exactly one responder call, which succeeds, and returns `undefined`. -/
inductive AnswersOnce (cfg : Config V) (check : Option (ResponseCheck V)) :
    Prog (Op V) Op.Reply (Thrown V) (Option V) → Prop
  | before (op : Op V) (k) (hop : op.isPreparation)
      (hk : ∀ reply, AnswersOnce cfg check (k (.ok reply))) : AnswersOnce cfg check (.call op k)
  | answer (responder : Responder V) (k) (hsucceeds : responder.succeeds cfg check)
      (hk : Silent (k (.ok ()))) : AnswersOnce cfg check (.call (.respond responder) k)

/-- A middleware that only calls `next`. -/
def Middleware.Passes (middleware : Middleware V) : Prop :=
  middleware.execute = .call .next fun reply =>
    match reply with
    | .ok _ => .ret ()
    | .error e => .throw e

/-! ### The worlds before and after the call -/

/-- Nothing was written, and no readable will fail. -/
structure Fresh (check : Option (ResponseCheck V)) (w : World V) : Prop where
  sent : w.sent = false
  head : w.res.head = none
  ended : w.res.ended = false
  piped : w.piped = 0
  delivered : w.delivered = []
  answers : w.answers = []
  responseCheck : w.responseCheck = check
  noErrors : ∀ events ∈ w.arrivals, ∀ event ∈ events, event.2 ≠ .error

/-- What a readable writes to the response it is piped into. -/
def Res.pipe (res : Res V) : StreamEvent → Res V
  | .data bytes => res.write (.chunk bytes)
  | .end => res.end none
  | .error => res

/-- The response is the one that a responder call left, and then what its readable wrote. -/
def World.IsAnswered (w : World V) : Prop :=
  ∃ responder res, w.answers = [(responder, res)] ∧ w.res = w.delivered.foldl Res.pipe res

/-- The world after the one responder call of a handler. -/
structure Replied (w : World V) : Prop where
  noErrors : ∀ events ∈ w.arrivals, ∀ event ∈ events, event.2 ≠ .error
  isAnswered : w.IsAnswered
  flags : ∀ responder res, (responder, res) ∈ w.answers →
    if responder.isStream then
      w.piped = 1 ∧
        (w.delivered = [] → w.sent = false ∧ w.res.head = none ∧ w.res.ended = false) ∧
        (w.delivered ≠ [] → w.res.headersSent = true)
    else w.sent = true ∧ w.piped = 0

variable {check : Option (ResponseCheck V)} {w : World V}

lemma returns_tick_fresh : Returns (Fresh check) (tick : Run V Unit) fun _ => Fresh check :=
  fun w h => ⟨(), { w with arrivals := w.arrivals.tail }, tick_of_piped h.piped,
    ⟨h.sent, h.head, h.ended, h.piped, h.delivered, h.answers, h.responseCheck,
      fun e he => h.noErrors e (List.mem_of_mem_tail he)⟩⟩

/-- Chunks and ends leave a response with its head. -/
lemma Res.headersSent_pipe {res : Res V} {event : StreamEvent} (hne : event ≠ .error)
    (h : res.ended = false ∨ res.headersSent = true) : (res.pipe event).headersSent = true := by
  have hended : res.ended = true → res.headersSent = true := by
    intro he
    rcases h with h | h
    · rw [he] at h
      cases h
    · exact h
  cases event with
  | data bytes =>
      rw [pipe, write]
      split
      next he => exact hended he
      next => rfl
  | «end» =>
      rw [pipe, Res.end]
      split
      next he => exact hended he
      next => rfl
  | error => exact absurd rfl hne

lemma World.receive_eq {event : StreamEvent} (hne : event ≠ .error) :
    (w.receive event).res = w.res.pipe event ∧ (w.receive event).answers = w.answers ∧
      (w.receive event).piped = w.piped ∧ (w.receive event).arrivals = w.arrivals := by
  cases event with
  | error => exact absurd rfl hne
  | _ => exact ⟨rfl, rfl, rfl, rfl⟩

/-- What a readable delivers is added to the response of the call. -/
lemma Replied.deliver (h : Replied w) {event : ℕ × StreamEvent} (hne : event.2 ≠ .error) :
    Replied (w.deliver event) := by
  rw [World.deliver]
  split
  next hlt =>
      obtain ⟨hres, hanswers, hpiped, harrivals⟩ := World.receive_eq (w := w) hne
      obtain ⟨responder, res, hone, hreceived⟩ := h.isAnswered
      refine ⟨?_, ⟨responder, res, hanswers.trans hone, ?_⟩, fun responder' res' hmem => ?_⟩
      · exact harrivals ▸ h.noErrors
      · rw [List.foldl_append, ← hreceived]
        exact hres
      · have hmem' : (responder', res') ∈ w.answers := hanswers ▸ hmem
        have hflags := h.flags responder' res' hmem'
        split at hflags
        next hstream =>
            obtain ⟨hp, hnone, hsome⟩ := hflags
            rw [if_pos hstream]
            refine ⟨hpiped.trans hp, fun hnil => by simp at hnil, fun _ => ?_⟩
            rw [show ({ w.receive event.2 with delivered := w.delivered ++ [event.2] } :
              World V).res = w.res.pipe event.2 from hres]
            refine Res.headersSent_pipe hne ?_
            by_cases hd : w.delivered = []
            · exact .inl (hnone hd).2.2
            · exact .inr (hsome hd)
        next hstream =>
            rw [hflags.2] at hlt
            exact absurd hlt (Nat.not_lt_zero _)
  next => exact h

lemma Replied.deliver_all (h : Replied w) (events : List (ℕ × StreamEvent))
    (hne : ∀ event ∈ events, event.2 ≠ .error) : Replied (events.foldl World.deliver w) := by
  induction events generalizing w with
  | nil => exact h
  | cons event events ih =>
      exact ih (h.deliver (hne event (by simp))) fun e he => hne e (List.mem_cons_of_mem _ he)

lemma returns_tick_replied : Returns Replied (tick : Run V Unit) fun _ w => Replied w := by
  refine .modify fun w h => ?_
  split
  next => exact h
  next events arrivals harrivals =>
      have hevents : events ∈ w.arrivals := by
        rw [harrivals]
        exact List.mem_cons_self
      have hw := h.deliver_all events (h.noErrors events hevents)
      exact ⟨fun e he => h.noErrors e (by rw [harrivals]; exact List.mem_cons_of_mem _ he),
        hw.isAnswered, hw.flags⟩

/-! ### The call -/

/-- Headers and the status of a fresh response can be set. -/
lemma returns_setHeader (name value : String) :
    Returns (Fresh check) (setHeader name value : Run V Unit) fun _ => Fresh check := by
  intro w h
  refine ⟨(),
    { w with res := { w.res with headers := w.res.headers.set name.toLowerCase value } },
    ?_, ⟨h.sent, h.head, h.ended, h.piped, h.delivered, h.answers, h.responseCheck, h.noErrors⟩⟩
  rw [setHeader, Res.setHeader_of_head h.head]

lemma returns_setHeaders (headers : List (String × String)) :
    Returns (Fresh check) (setHeaders headers : Run V Unit) fun _ => Fresh check := by
  induction headers with
  | nil => exact .pure () fun _ h => h
  | cons h headers ih => exact .bind (returns_setHeader h.1 h.2) fun _ => ih

lemma returns_setStatus (status : Option ℕ) :
    Returns (Fresh check) (setStatus status : Run V Unit) fun _ => Fresh check :=
  .modify fun _ h =>
    ⟨h.sent, h.head, h.ended, h.piped, h.delivered, h.answers, h.responseCheck, h.noErrors⟩

lemma returns_setContentType (contentType : Option String) :
    Returns (Fresh check) (setContentType contentType : Run V Unit) fun _ => Fresh check := by
  cases contentType with
  | none => exact .pure () fun _ h => h
  | some contentType =>
      rw [setContentType]
      split
      · exact returns_setHeader _ _
      · exact .pure () fun _ h => h

lemma returns_addCorrelationHeader :
    Returns (Fresh check) (addCorrelationHeader cfg) fun _ => Fresh check := by
  refine .get_bind fun w h => ?_
  split
  · exact returns_setHeader _ _ w h
  · exact ⟨(), w, rfl, h⟩

/-- A response that was ended by its responder. -/
structure Ended (w : World V) : Prop where
  sent : w.sent = true
  piped : w.piped = 0
  delivered : w.delivered = []
  answers : w.answers = []
  noErrors : ∀ events ∈ w.arrivals, ∀ event ∈ events, event.2 ≠ .error

lemma returns_send (payload : Option (Payload V)) :
    Returns (Fresh check) (send payload) fun _ => Ended :=
  .modify fun _ h => ⟨rfl, h.piped, h.delivered, h.answers, h.noErrors⟩

lemma returns_contentResponder (contentType : String) {payload : Payload V} (status : Option ℕ)
    (hpayload : payload.stringifyError cfg = none) :
    Returns (Fresh check) (contentResponder cfg contentType payload status) fun _ => Ended := by
  have hstringify : Returns (Fresh check) (stringify cfg payload) fun _ => Fresh check := by
    rw [stringify, hpayload]
    exact .pure () fun _ h => h
  refine .get_bind fun w h => ?_
  rw [if_neg (by simp [h.sent])]
  exact Returns.bind (returns_setStatus status) (fun _ =>
    .bind returns_addCorrelationHeader fun _ => .bind (returns_setHeader _ _) fun _ =>
      .bind hstringify fun _ => returns_send _) w h

lemma returns_redirectResponder (url : String) (status : ℕ) :
    Returns (Fresh check) (redirectResponder cfg url status) fun _ => Ended := by
  refine .get_bind fun w h => ?_
  rw [if_neg (by simp [h.sent])]
  exact Returns.bind returns_addCorrelationHeader (fun _ => .bind (returns_setStatus _) fun _ =>
    .bind (returns_setHeader _ _) fun _ => returns_send _) w h

/-- A response that waits for its readable. -/
structure Piped (w : World V) : Prop where
  sent : w.sent = false
  head : w.res.head = none
  ended : w.res.ended = false
  piped : w.piped = 1
  delivered : w.delivered = []
  answers : w.answers = []
  noErrors : ∀ events ∈ w.arrivals, ∀ event ∈ events, event.2 ≠ .error

lemma returns_streamResponder (options : StreamOptions) :
    Returns (Fresh check) (streamResponder cfg options) fun _ => Piped := by
  have hpipe : Returns (Fresh check)
      (Effect.modify fun w => { w with piped := w.piped + 1 } : Run V Unit) fun _ => Piped :=
    .modify fun w h => ⟨h.sent, h.head, h.ended, congrArg (· + 1) h.piped, h.delivered, h.answers,
      h.noErrors⟩
  refine .get_bind fun w h => ?_
  rw [if_neg (by simp [h.sent])]
  exact Returns.bind (returns_setStatus _) (fun _ => .bind returns_addCorrelationHeader fun _ =>
    .bind (returns_setContentType _) fun _ => .bind (returns_setHeaders _) fun _ => hpipe) w h

/-- A `json` call that succeeds ends the response. -/
lemma returns_json {check : Option (ResponseCheck V)} {body : V} {status : Option ℕ}
    (hactive : ∀ c, check = some c → c.validatorActive = true)
    (hsucceeds : (Responder.json body status).succeeds cfg check) :
    Returns (Fresh check) (json cfg body status) fun _ => Ended := by
  have hend : ∀ value : V, (cfg.stringifyError value).isNone = true →
      Returns (Fresh check) (jsonResponder cfg (.json value) status) fun _ => Ended := by
    intro value hvalue
    exact returns_contentResponder _ status (Option.isNone_iff_eq_none.mp hvalue)
  refine .get_bind fun w h => ?_
  rw [h.responseCheck]
  simp only [Responder.succeeds] at hsucceeds
  cases check with
  | none => exact hend body hsucceeds w h
  | some c =>
      dsimp only at hsucceeds ⊢
      rw [hactive c rfl]
      split at hsucceeds
      next herror =>
          rw [if_pos (by simp [herror])]
          exact hend body hsucceeds w h
      next herror =>
          rw [if_neg (by simp [herror])]
          split at hsucceeds
          next value hvalue =>
              rw [hvalue]
              exact hend value hsucceeds w h
          next => cases hsucceeds

/-- **A responder call that succeeds makes the response its own.** -/
lemma returns_answer {check : Option (ResponseCheck V)} {responder : Responder V}
    (hactive : ∀ c, check = some c → c.validatorActive = true)
    (hsucceeds : responder.succeeds cfg check) :
    Returns (Fresh check) (answer cfg responder) fun _ => Replied := by
  have hended : responder.isStream = false → Returns Ended
      (Effect.modify fun w => { w with answers := w.answers ++ [(responder, w.res)] } : Run V Unit)
      fun _ => Replied := by
    intro hstream
    refine .modify fun w h => ⟨h.noErrors, ⟨responder, w.res, ?_, ?_⟩, fun r res hmem => ?_⟩
    · rw [h.answers]
      rfl
    · rw [h.delivered]
      rfl
    · rw [h.answers, List.nil_append, List.mem_singleton, Prod.mk.injEq] at hmem
      rw [hmem.1, hstream]
      exact ⟨h.sent, h.piped⟩
  have hpiped : responder.isStream = true → Returns Piped
      (Effect.modify fun w => { w with answers := w.answers ++ [(responder, w.res)] } : Run V Unit)
      fun _ => Replied := by
    intro hstream
    refine .modify fun w h => ⟨h.noErrors, ⟨responder, w.res, ?_, ?_⟩, fun r res hmem => ?_⟩
    · rw [h.answers]
      rfl
    · rw [h.delivered]
      rfl
    · rw [h.answers, List.nil_append, List.mem_singleton, Prod.mk.injEq] at hmem
      rw [hmem.1, hstream]
      exact ⟨h.piped, fun _ => ⟨h.sent, h.head, h.ended⟩, fun hne => absurd h.delivered hne⟩
  cases responder with
  | json body status => exact .bind (returns_json hactive hsucceeds) fun _ => hended rfl
  | text body status =>
      exact .bind (returns_contentResponder _ _ rfl) fun _ => hended rfl
  | html body status =>
      exact .bind (returns_contentResponder _ _ rfl) fun _ => hended rfl
  | redirect url status => exact .bind (returns_redirectResponder url status) fun _ => hended rfl
  | stream options => exact .bind (returns_streamResponder options) fun _ => hpiped rfl

/-! ### The handler -/

lemma returns_silentOp (cfg : Config V) {op : Op V} (hop : op.isSilent) :
    Returns Replied (perform cfg op) fun _ => Replied := by
  cases op with
  | getCorrelationId => exact fun w h => ⟨_, w, rfl, h⟩
  | request => exact fun w h => ⟨_, w, rfl, h⟩
  | await => exact returns_tick_replied
  | _ => cases hop

lemma returns_silent {p : Prog (Op V) Op.Reply (Thrown V) (Option V)} (hp : Silent p) :
    Returns Replied (p.run (perform cfg)) fun result w => result = none ∧ Replied w := by
  induction hp with
  | ret => exact fun w h => ⟨none, w, rfl, rfl, h⟩
  | call op k hop hk ih =>
      intro w h
      obtain ⟨reply, w', hrun, hw'⟩ := returns_silentOp cfg hop w h
      rw [Prog.run_call, hrun]
      exact ih reply w' hw'

lemma returns_preparation (cfg : Config V) {op : Op V} (hop : op.isPreparation) :
    Returns (Fresh check) (perform cfg op) fun _ => Fresh check := by
  cases op with
  | respond responder => cases hop
  | status code =>
      refine .get_bind fun w h => ?_
      rw [if_neg (by simp [h.sent])]
      exact returns_setStatus _ w h
  | header name value =>
      refine .get_bind fun w h => ?_
      rw [if_neg (by simp [h.sent])]
      exact returns_setHeader _ _ w h
  | write bytes => cases hop
  | getCorrelationId => exact fun w h => ⟨_, w, rfl, h⟩
  | request => exact fun w h => ⟨_, w, rfl, h⟩
  | await => exact returns_tick_fresh

/-- **A handler that answers once leaves a replied world.** -/
lemma returns_answersOnce {p : Prog (Op V) Op.Reply (Thrown V) (Option V)}
    (hactive : ∀ c, check = some c → c.validatorActive = true) (hp : AnswersOnce cfg check p) :
    Returns (Fresh check) (p.run (perform cfg)) fun result w => result = none ∧ Replied w := by
  induction hp with
  | before op k hop hk ih =>
      intro w h
      obtain ⟨reply, w', hrun, hw'⟩ := returns_preparation cfg hop w h
      rw [Prog.run_call, hrun]
      exact ih reply w' hw'
  | answer responder k hsucceeds hk =>
      intro w h
      obtain ⟨reply, w', hrun, hw'⟩ := returns_answer hactive hsucceeds w h
      rw [Prog.run_call, show perform cfg (.respond responder) w = (.ok reply, w') from hrun]
      exact returns_silent hk w' hw'

variable {route : RouteMethodOptions V} {params : V}

lemma returns_callHandler (hactive : ∀ c, check = some c → c.validatorActive = true)
    (hroute : AnswersOnce cfg check (route.handler params)) :
    Returns (Fresh check) (callHandler cfg route params) fun _ => Replied := by
  have hlog : Returns (Fresh check)
      (Effect.modify fun w => { w with invocations := w.invocations ++ [⟨w.request, params⟩] } :
        Run V Unit) fun _ => Fresh check :=
    .modify fun w h =>
      ⟨h.sent, h.head, h.ended, h.piped, h.delivered, h.answers, h.responseCheck, h.noErrors⟩
  refine .bind hlog fun _ => .bind (returns_answersOnce hactive hroute) fun result => ?_
  rintro w ⟨rfl, h⟩
  exact Returns.bind returns_tick_replied (fun _ => .get_bind fun w h => ⟨(), w, rfl, h⟩) w h

/-- The check that a route's handler is run with. -/
def RouteMethodOptions.responseCheck (route : RouteMethodOptions V) : Option (ResponseCheck V) :=
  (route.schema.bind RouteSchema.response).map Schema.responseCheck

lemma returns_lastOfChain (hroute : AnswersOnce cfg route.responseCheck (route.handler params)) :
    Returns (Fresh none) (lastOfChain cfg route params) fun _ => Replied := by
  have hactive : ∀ c, route.responseCheck = some c → c.validatorActive = true := by
    intro c hc
    obtain ⟨responseSchema, -, rfl⟩ := Option.map_eq_some_iff.mp hc
    rfl
  rw [lastOfChain]
  rw [RouteMethodOptions.responseCheck] at hroute hactive
  cases hschema : route.schema.bind RouteSchema.response with
  | none =>
      rw [hschema] at hroute hactive
      exact returns_callHandler hactive hroute
  | some responseSchema =>
      rw [hschema] at hroute hactive
      intro w h
      obtain ⟨_, w', hrun, hw'⟩ := Returns.bind (returns_callHandler hactive hroute)
        (fun _ => returns_tick_replied)
        { w with responseCheck := some responseSchema.responseCheck }
        ⟨h.sent, h.head, h.ended, h.piped, h.delivered, h.answers, rfl, h.noErrors⟩
      refine ⟨(), { w' with responseCheck := w.responseCheck }, ?_,
        ⟨hw'.noErrors, hw'.isAnswered, hw'.flags⟩⟩
      dsimp only [createResponseValidator]
      rw [Effect.bind_of_ok (Effect.get_apply w), Effect.bind_of_ok (Effect.modify_apply _ w),
        Effect.finally_, awaitNext, hrun]

/-! ### Middlewares that only call `next` -/

lemma execute_of_passes {middleware : Middleware V} (hpasses : middleware.Passes)
    (next : Run V Unit) (w : World V) :
    execute cfg middleware next w = if middleware.skip w then next w else awaitNext next w := by
  rw [execute, hpasses]
  split
  next => rfl
  next =>
      rw [Prog.run_call]
      simp only [performWithNext, Bool.false_eq_true, if_false]
      obtain ⟨result, w'⟩ := awaitNext next w
      cases result <;> rfl

lemma returns_compose {P Q : World V → Prop} {last : Run V Unit}
    (hlast : Returns P last fun _ => Q) (htick : Returns Q (tick : Run V Unit) fun _ => Q)
    {stack : List (Middleware V)} (hpasses : ∀ m ∈ stack, m.Passes) :
    Returns P (compose cfg stack last) fun _ => Q := by
  rw [compose]
  induction stack with
  | nil => exact hlast
  | cons middleware stack ih =>
      have hnext := ih fun m hm => hpasses m (List.mem_cons_of_mem _ hm)
      intro w h
      rw [dispatch, execute_of_passes (hpasses middleware (by simp))]
      split
      · exact hnext w h
      · exact Returns.bind hnext (fun _ => htick) w h

lemma throws_compose {P Q : World V → Prop} {last : Run V Unit} (hlast : Throws P last Q)
    {stack : List (Middleware V)} (hpasses : ∀ m ∈ stack, m.Passes) :
    Throws P (compose cfg stack last) Q := by
  rw [compose]
  induction stack with
  | nil => exact hlast
  | cons middleware stack ih =>
      have hnext := ih fun m hm => hpasses m (List.mem_cons_of_mem _ hm)
      intro w h
      rw [dispatch, execute_of_passes (hpasses middleware (by simp))]
      split
      · exact hnext w h
      · exact Throws.bind_left hnext w h

/-! ### The route -/

/-- The request validator of the route, if it has one, refuses nothing of the request. -/
def RouteMethodOptions.Admits (truthy : V → Bool) (route : RouteMethodOptions V)
    (request : Request V) : Prop :=
  ∀ schema, route.schema = some schema → schema.installsValidator = true →
    ∀ s error, ¬ schema.Refuses truthy request s error

lemma returns_routeChain (hpasses : ∀ m ∈ route.middleware, m.Passes)
    (hroute : AnswersOnce cfg route.responseCheck (route.handler params)) :
    Returns (fun w => Fresh none w ∧ route.Admits truthy w.request)
      (routeChain cfg truthy route params) fun _ => Replied := by
  have hchain : Returns (Fresh none)
      (compose cfg route.middleware (lastOfChain cfg route params)) fun _ => Replied :=
    returns_compose (returns_lastOfChain hroute) returns_tick_replied hpasses
  rintro w ⟨h, hadmits⟩
  rw [routeChain]
  cases hschema : route.schema with
  | none => exact hchain w h
  | some schema =>
      dsimp only
      cases hinstalls : schema.installsValidator with
      | false =>
          rw [if_neg (by simp)]
          exact hchain w h
      | true =>
          rw [if_pos rfl, createRequestValidator]
          have hnodup : [Section.params, .query, .body, .files].Nodup := by decide
          rcases validateSections_cases w hnodup with
            ⟨s, -, error, hrefuses, -⟩ | ⟨request, hrun, -⟩
          · exact absurd hrefuses (hadmits schema hschema hinstalls s error)
          · rw [Effect.bind_of_ok hrun]
            exact Returns.bind hchain (fun _ => returns_tick_replied) _
              ⟨h.sent, h.head, h.ended, h.piped, h.delivered, h.answers, h.responseCheck,
                h.noErrors⟩

/-- **A matched route leaves a replied world.** -/
lemma returns_handleRequest (truthy : V → Bool) (hpasses : ∀ m ∈ route.middleware, m.Passes)
    (hroute : AnswersOnce cfg route.responseCheck (route.handler params)) :
    Returns (fun w => Fresh none w ∧ route.Admits truthy { w.request with params := params })
      (handleRequest cfg truthy (.matched route params)) fun _ => Replied := by
  rintro w ⟨h, hadmits⟩
  obtain ⟨_, w₁, hrun, h₁⟩ := returns_tick_fresh w h
  have hrequest : w₁.request = w.request := by
    have := (quiet_tick w).1
    rwa [hrun] at this
  rw [handleRequest, Effect.bind_of_ok hrun, Effect.bind_of_ok (Effect.get_apply w₁)]
  dsimp only
  rw [Effect.bind_of_ok (Effect.modify_apply _ w₁)]
  have hexecute : Returns (fun w => Fresh none w ∧ route.Admits truthy w.request)
      (executeHandler cfg truthy route params) fun _ => Replied :=
    .bind (returns_routeChain hpasses hroute) fun _ => returns_tick_replied
  exact Returns.bind hexecute (fun _ => returns_tick_replied) _
    ⟨⟨h₁.sent, h₁.head, h₁.ended, h₁.piped, h₁.delivered, h₁.answers, h₁.responseCheck,
      h₁.noErrors⟩, by rw [hrequest]; exact hadmits⟩

/-! ### The check -/

/-- A readable whose response was promised has delivered something. -/
def World.HasDelivered (w : World V) : Prop :=
  ∀ responder res, (responder, res) ∈ w.answers → responder.isStream = true → w.delivered ≠ []

/-- The two flags of the check tell whether the readable has delivered. -/
lemma Replied.flags_iff (h : Replied w) :
    (w.res.headersSent = true ∨ w.sent = true) ↔ w.HasDelivered := by
  obtain ⟨responder, res, hone, -⟩ := h.isAnswered
  have hmem : (responder, res) ∈ w.answers := by simp [hone]
  have hflags := h.flags responder res hmem
  split at hflags
  next hstream =>
      obtain ⟨-, hnone, hsome⟩ := hflags
      constructor
      · intro hor _ _ _ _ hnil
        obtain ⟨hsent, hhead, -⟩ := hnone hnil
        rw [Res.headersSent, hhead, hsent] at hor
        simp at hor
      · exact fun hdelivered => .inl (hsome (hdelivered responder res hmem hstream))
  next hstream =>
      refine ⟨fun _ responder' res' hmem' hstream' => ?_, fun _ => .inr hflags.1⟩
      rw [hone, List.mem_singleton, Prod.mk.injEq] at hmem'
      rw [hmem'.1] at hstream'
      exact absurd hstream' hstream

lemma nextFn_of_run {server : ServerInstance V} {w₁ : World V} (hsent : w.sent = false)
    (hrun : awaitNext (handleRequest cfg truthy server.routeMatch) w = (.ok (), w₁)) :
    nextFn cfg truthy server w =
      if w₁.res.headersSent = true ∨ w₁.sent = true then (.ok (), w₁)
      else
        (.error (NotFoundError w₁
          ("Route not found: " ++ w₁.request.method ++ " " ++ w₁.request.path)), w₁) := by
  rw [awaitNext, Effect.bind_apply] at hrun
  split at hrun
  next w₀ hroute =>
      rw [nextFn, Effect.bind_of_ok (Effect.get_apply w), if_neg (by simp [hsent]),
        Effect.bind_of_ok hroute, Effect.bind_of_ok hrun, Effect.bind_of_ok (Effect.get_apply w₁)]
      cases w₁.res.headersSent <;> cases w₁.sent <;> rfl
  next => cases hrun

/-- What the readables deliver in the end is added to the response of the call. -/
lemma Replied.drain (h : Replied w) : w.drain.IsAnswered := by
  refine (h.deliver_all w.arrivals.flatten fun event hevent => ?_).isAnswered
  obtain ⟨events, hevents, hmem⟩ := List.mem_flatten.mp hevent
  exact h.noErrors events hevents event hmem

lemma returns_errorBoundary (cfg : Config V) {P : World V → Prop} {next : Run V Unit}
    (hnext : Returns P next fun _ => Replied) :
    Returns P (errorBoundary cfg next) fun _ => Replied := by
  intro w h
  obtain ⟨u, w', hrun, h'⟩ := Returns.bind hnext (fun _ => returns_tick_replied) w h
  exact ⟨u, w', Effect.tryCatch_of_ok hrun, h'⟩

/-- Without an error the request handler adds nothing to the response. -/
lemma replied_createRequestHandler {server : ServerInstance V} {incoming : Incoming V}
    (hcontext : incoming.contextError = none) (htick : tick (incoming.world cfg) = (.ok (), w))
    (hguarded : Returns (· = w) (guarded cfg truthy server) fun _ => Replied) :
    Replied (createRequestHandler cfg truthy server incoming) := by
  obtain ⟨_, w', hrun, h'⟩ := Returns.bind (returns_errorBoundary cfg hguarded)
    (fun _ => .bind returns_tick_replied fun _ => returns_tick_replied) w rfl
  have hprocess : processRequest cfg truthy server incoming (incoming.world cfg) =
      (.ok (), w') := by
    rw [processRequest, Effect.bind_of_ok htick, hcontext]
    exact hrun
  rw [createRequestHandler, hprocess]
  exact h'

/-- The world in which the request handler looks whether there is a response. -/
def checkWorld (cfg : Config V) (truthy : V → Bool) (server : ServerInstance V)
    (incoming : Incoming V) : World V :=
  (awaitNext (handleRequest cfg truthy server.routeMatch) (tick (incoming.world cfg)).2).2

/-- **The handler's response is the response exactly when its readable is not late**: for a
matched request whose handler makes one responder call that succeeds and whose middlewares
only call `next`, nothing is thrown and the response is the one of the call, with everything
its readable delivers, if and only if the call was no `stream` or its readable has delivered
something by the time of the check. -/
theorem answered_iff_hasDelivered (cfg : Config V) (truthy : V → Bool)
    (server : ServerInstance V) (incoming : Incoming V) (route : RouteMethodOptions V) (params : V)
    (hmatch : server.routeMatch = .matched route params)
    (hserver : ∀ m ∈ server.cors.toList ++ server.middleware, m.Passes)
    (hpasses : ∀ m ∈ route.middleware, m.Passes)
    (hhandler : AnswersOnce cfg route.responseCheck (route.handler params))
    (hadmits : route.Admits truthy { incoming.request with params := params })
    (hcontext : incoming.contextError = none)
    (hreadable : ∀ events ∈ incoming.arrivals, ∀ event ∈ events, event.2 ≠ .error) :
    ((guarded cfg truthy server (tick (incoming.world cfg)).2).1 = .ok () ∧
        (createRequestHandler cfg truthy server incoming).drain.IsAnswered) ↔
      (checkWorld cfg truthy server incoming).HasDelivered := by
  have hfresh : Fresh none (incoming.world cfg) :=
    ⟨rfl, rfl, rfl, rfl, rfl, rfl, rfl, hreadable⟩
  obtain ⟨_, w, htick, hw⟩ := returns_tick_fresh _ hfresh
  have hrequest : w.request = incoming.request := by
    have := (quiet_tick (incoming.world cfg)).1
    rwa [htick] at this
  -- the world of the check
  obtain ⟨_, w₁, hroute, h₁⟩ :=
    Returns.bind (returns_handleRequest truthy hpasses hhandler)
      (fun _ => returns_tick_replied) w ⟨hw, by rw [hrequest]; exact hadmits⟩
  rw [← hmatch] at hroute
  have hnext := nextFn_of_run hw.sent hroute
  rw [checkWorld, htick]
  dsimp only
  rw [show awaitNext (handleRequest cfg truthy server.routeMatch) w = (.ok (), w₁) from hroute,
    ← h₁.flags_iff]
  by_cases hflags : w₁.res.headersSent = true ∨ w₁.sent = true
  · refine ⟨fun _ => hflags, fun _ => ?_⟩
    rw [if_pos hflags] at hnext
    have hguarded : Returns (· = w) (guarded cfg truthy server) fun _ => Replied :=
      returns_compose (fun _ h => ⟨(), w₁, h ▸ hnext, h₁⟩) returns_tick_replied hserver
    obtain ⟨_, w₂, hrun, -⟩ := hguarded w rfl
    refine ⟨by rw [hrun], ?_⟩
    exact (replied_createRequestHandler hcontext htick hguarded).drain
  · refine ⟨fun h => ?_, fun h => absurd h hflags⟩
    rw [if_neg hflags] at hnext
    have hguarded : Throws (· = w) (guarded cfg truthy server) fun _ => True :=
      throws_compose (fun _ h => ⟨_, w₁, h ▸ hnext, trivial⟩) hserver
    obtain ⟨e, w₂, hrun, -⟩ := hguarded w rfl
    rw [hrun] at h
    cases h.1

/-- A route whose handler streams a readable and waits for one turn of the event loop. -/
def streamingRoute : RouteMethodOptions String where
  handler := fun _ => .call (.respond (.stream { contentType := some "text/plain" })) fun _ =>
    .call .await fun _ => .ret none

lemma answersOnce_streamingRoute (cfg : Config String) (check : Option (ResponseCheck String))
    (params : String) : AnswersOnce cfg check (streamingRoute.handler params) :=
  .answer _ _ rfl (.call .await _ rfl fun _ => .ret)

/-- A request for it, with what its readable will deliver at which await. -/
def streamedRequest (arrivals : List (List (ℕ × StreamEvent))) : Incoming String where
  request :=
    { method := "GET", path := "/export", params := "", query := "", body := "", files := "" }
  arrivals := arrivals

/-- The first chunk comes while the handler waits, the end much later. -/
theorem answered_iff_hasDelivered_earlyChunk :
    (guarded { generator := fun _ => "req_1" } (fun _ => true)
        { routeMatch := .matched streamingRoute "" }
        (tick ((streamedRequest [[], [], [(0, .data [104])], [], [], [(0, .end)]]).world
          { generator := fun _ => "req_1" })).2).1 = .ok () ∧
      (createRequestHandler { generator := fun _ => "req_1" } (fun _ => true)
        { routeMatch := .matched streamingRoute "" }
        (streamedRequest [[], [], [(0, .data [104])], [], [], [(0, .end)]])).drain.IsAnswered :=
  (answered_iff_hasDelivered _ _ { routeMatch := .matched streamingRoute "" }
    (streamedRequest [[], [], [(0, .data [104])], [], [], [(0, .end)]]) streamingRoute "" rfl
    (by simp) (by simp [streamingRoute]) (answersOnce_streamingRoute _ _ _)
    (fun _ h => by cases h) rfl (by decide)).mpr fun _ _ _ _ => by decide

/-- A readable that is slower than its handler: the request ends in a `NotFoundError`. -/
theorem not_answered_lateReadable :
    ¬ ∀ (V : Type) (cfg : Config V) (truthy : V → Bool) (server : ServerInstance V)
        (incoming : Incoming V) (route : RouteMethodOptions V) (params : V),
      server.routeMatch = .matched route params →
      (∀ m ∈ server.cors.toList ++ server.middleware, m.Passes) →
      (∀ m ∈ route.middleware, m.Passes) →
      AnswersOnce cfg route.responseCheck (route.handler params) →
      route.Admits truthy { incoming.request with params := params } →
      incoming.contextError = none →
      (∀ events ∈ incoming.arrivals, ∀ event ∈ events, event.2 ≠ .error) →
        (guarded cfg truthy server (tick (incoming.world cfg)).2).1 = .ok () ∧
          (createRequestHandler cfg truthy server incoming).drain.IsAnswered := by
  intro h
  have hlate := (h String { generator := fun _ => "req_1" } (fun _ => true)
    { routeMatch := .matched streamingRoute "" }
    (streamedRequest (List.replicate 20 [] ++ [[(0, .data [104]), (0, .end)]]))
    streamingRoute "" rfl (by simp) (by simp [streamingRoute])
    (answersOnce_streamingRoute _ _ _) (fun _ h => by cases h) rfl (by decide)).1
  exact absurd hlate (by decide)

end Blaize.Server
