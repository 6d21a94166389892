import Blaize.Server.Executor

/-!
When a route's handler only sees what its schemas let through.

The request validator is put in front of the chain when params, query or body have a schema,
and checks all four sections then; a schema for the files alone is never used.  And the
handler gets the params twice, as the validator left them on `ctx.request` and as the router
found them in the path.

* `validateSections_cases`: what the validator does to a request;
* `Validated`: the handler saw the output of every declared schema;
* `Guarded`: the condition on the schemas and the request;
* `validated_iff_guarded`: **every call of the handler sees validated input exactly when the
  schemas and the request are guarded**.
-/

namespace Blaize.Server

variable {V : Type} {cfg : Config V} {truthy : V → Bool} {schema : RouteSchema V}

lemma Schema.parse_of_validate {sectionSchema : Schema V} {v out : V}
    (h : sectionSchema.validate v = .ok out) : sectionSchema.parse v = .ok out := by
  rw [Schema.validate] at h
  split at h
  next hobject => exact sectionSchema.strict hobject v out h
  next => exact h

/-! ### The request validator -/

/-- The section has a schema, and the request has the section. -/
def RouteSchema.looksAt (truthy : V → Bool) (schema : RouteSchema V) (request : Request V)
    (s : Section) : Bool :=
  (schema.get s).isSome && s.isPresent truthy (request.get s)

/-- A schema that the validator applies refuses its section. -/
def RouteSchema.Refuses (truthy : V → Bool) (schema : RouteSchema V) (request : Request V)
    (s : Section) (error : ParseError) : Prop :=
  schema.looksAt truthy request s = true ∧
    ∃ sectionSchema, schema.get s = some sectionSchema ∧
      sectionSchema.validate (request.get s) = .error error

/-- What the validator makes of one section. -/
def RouteSchema.Checked (truthy : V → Bool) (schema : RouteSchema V) (request request' : Request V)
    (s : Section) : Prop :=
  if schema.looksAt truthy request s then
    ∃ sectionSchema, schema.get s = some sectionSchema ∧
      sectionSchema.validate (request.get s) = .ok (request'.get s)
  else request'.get s = request.get s

lemma validateSection_cases (w : World V) (s : Section) :
    (∃ error, schema.Refuses truthy w.request s error ∧
        validateSection truthy schema s w = (.error (requestValidationError w error s), w)) ∨
      ∃ request, validateSection truthy schema s w = (.ok (), { w with request := request }) ∧
        schema.Checked truthy w.request request s ∧
        ∀ t, t ≠ s → request.get t = w.request.get t := by
  cases hget : schema.get s with
  | none =>
      refine .inr ⟨w.request, ?_, ?_, fun _ _ => rfl⟩
      · rw [validateSection, Effect.bind_of_ok (Effect.get_apply w)]
        simp only [hget]
        rfl
      · simp [RouteSchema.Checked, RouteSchema.looksAt, hget]
  | some sectionSchema =>
      cases hpresent : s.isPresent truthy (w.request.get s) with
      | false =>
          refine .inr ⟨w.request, ?_, ?_, fun _ _ => rfl⟩
          · rw [validateSection, Effect.bind_of_ok (Effect.get_apply w)]
            simp only [hget, hpresent, Bool.false_eq_true, if_false]
            rfl
          · simp [RouteSchema.Checked, RouteSchema.looksAt, hpresent]
      | true =>
          have hlooks : schema.looksAt truthy w.request s = true := by
            simp [RouteSchema.looksAt, hget, hpresent]
          cases hvalue : sectionSchema.validate (w.request.get s) with
          | error error =>
              refine .inl ⟨error, ⟨hlooks, sectionSchema, hget, hvalue⟩, ?_⟩
              rw [validateSection, Effect.bind_of_ok (Effect.get_apply w)]
              simp only [hget, hpresent, if_true, hvalue]
              rfl
          | ok value =>
              refine .inr ⟨w.request.set value s, ?_, ?_, fun t ht => ?_⟩
              · rw [validateSection, Effect.bind_of_ok (Effect.get_apply w)]
                simp only [hget, hpresent, if_true, hvalue]
                rfl
              · rw [RouteSchema.Checked, if_pos hlooks]
                exact ⟨sectionSchema, hget, by rw [hvalue, Request.get_set, if_pos rfl]⟩
              · rw [Request.get_set, if_neg (Ne.symm ht)]

/-- What the validator decides on a section depends on that section only. -/
lemma RouteSchema.looksAt_congr {request request' : Request V} {s : Section}
    (h : request'.get s = request.get s) :
    schema.looksAt truthy request' s = schema.looksAt truthy request s := by
  rw [looksAt, looksAt, h]

/-- **The run of the validator**: it throws an error that names a section which is refused, or
it goes on with a request whose sections are all checked. -/
lemma validateSections_cases (w : World V) {sections : List Section} (hnodup : sections.Nodup) :
    (∃ s ∈ sections, ∃ error, schema.Refuses truthy w.request s error ∧
        ∃ w', validateSections truthy schema sections w =
            (.error (requestValidationError w error s), w') ∧
          w'.invocations = w.invocations) ∨
      ∃ request,
        validateSections truthy schema sections w = (.ok (), { w with request := request }) ∧
        (∀ s ∈ sections, schema.Checked truthy w.request request s) ∧
        ∀ s, s ∉ sections → request.get s = w.request.get s := by
  induction sections generalizing w with
  | nil => exact .inr ⟨w.request, rfl, by simp, fun _ _ => rfl⟩
  | cons s sections ih =>
      obtain ⟨hs, hnodup⟩ := List.nodup_cons.mp hnodup
      rw [validateSections]
      rcases validateSection_cases w s with
        ⟨error, hrefuses, he⟩ | ⟨request, hok, hchecked, hother⟩
      · exact .inl ⟨s, by simp, error, hrefuses, w, Effect.bind_of_error he, rfl⟩
      rw [Effect.bind_of_ok hok]
      -- the other sections are as they were before this one
      have hsame : ∀ t ∈ sections, request.get t = w.request.get t :=
        fun t ht => hother t fun h => hs (h ▸ ht)
      rcases ih { w with request := request } hnodup with
        ⟨t, ht, error, ⟨hlooks, hrefuses⟩, w', hrun, hcalls⟩ | ⟨request', hrun, hdone, hrest⟩
      · rw [hsame t ht] at hrefuses
        rw [RouteSchema.looksAt_congr (hsame t ht)] at hlooks
        exact .inl ⟨t, List.mem_cons_of_mem _ ht, error, ⟨hlooks, hrefuses⟩, w', hrun, hcalls⟩
      · refine .inr ⟨request', hrun, fun t ht => ?_, fun t ht => ?_⟩
        · rcases List.mem_cons.mp ht with rfl | ht
          · have hkeep : request'.get t = request.get t := hrest t hs
            rw [RouteSchema.Checked, hkeep]
            exact hchecked
          · have := hdone t ht
            rw [RouteSchema.Checked, RouteSchema.looksAt_congr (hsame t ht), hsame t ht] at this
            exact this
        · rw [List.mem_cons, not_or] at ht
          rw [hrest t ht.2]
          exact hother t ht.1

/-! ### The calls of the handler -/

/-- Every call of the handler in the run from `w` to `w'` got the params and saw the request
of `w`. -/
def Seen (params : V) (w w' : World V) : Prop :=
  w'.request = w.request ∧
    ∀ call ∈ w'.invocations, call ∈ w.invocations ∨ call = ⟨w.request, params⟩

instance (params : V) : Std.Refl (Seen params) := ⟨fun _ => ⟨rfl, fun _ h => .inl h⟩⟩

instance (params : V) : IsTrans (World V) (Seen params) where
  trans := by
    rintro w w' w'' ⟨hr, hi⟩ ⟨hr', hi'⟩
    refine ⟨hr'.trans hr, fun call hcall => ?_⟩
    rcases hi' call hcall with hcall | rfl
    · exact hi call hcall
    · exact .inr (by rw [hr])

lemma Quiet.seen {w w' : World V} (params : V) (h : Quiet w w') : Seen params w w' :=
  ⟨h.1, fun _ hcall => .inl (h.2.2.2 ▸ hcall)⟩

variable {route : RouteMethodOptions V} {params : V}

/-- What comes after the call of the handler. -/
lemma quiet_answer (result : Option V) :
    Within Quiet (do
      tick
      let w ← Effect.get
      match result with
      | some value => if w.sent then pure () else json cfg value none
      | none => pure () : Run V Unit) := by
  refine .bind quiet_tick fun _ => .bind .get fun w => ?_
  split
  · split
    · exact .pure _
    · exact quiet_json cfg _ _
  · exact .pure _

/-- The handler is called once, with the request as it is. -/
lemma callHandler_invocations (w : World V) :
    (callHandler cfg route params w).2.request = w.request ∧
      (callHandler cfg route params w).2.invocations =
        w.invocations ++ [⟨w.request, params⟩] := by
  have hquiet : Within Quiet (do
      let result ← (route.handler params).run (perform cfg)
      tick
      let w ← Effect.get
      match result with
      | some value => if w.sent then pure () else json cfg value none
      | none => pure () : Run V Unit) :=
    .bind (.run (quiet_perform cfg) _) fun result => quiet_answer result
  obtain ⟨hr, -, -, hi⟩ := hquiet { w with
    invocations := w.invocations ++ [⟨w.request, params⟩] }
  exact ⟨hr, hi⟩

lemma quiet_awaitNext (next : Run V Unit) (w : World V) :
    Quiet (next w).2 (awaitNext next w).2 := by
  rw [awaitNext, Effect.bind_apply]
  split
  next w' h =>
      rw [h]
      exact quiet_tick w'
  next e w' h =>
      rw [h]
      exact Std.Refl.refl w'

/-- The response validator calls the handler as it would have been called without. -/
lemma createResponseValidator_calls (responseSchema : Schema V) (next : Run V Unit)
    (w : World V) :
    (createResponseValidator responseSchema next w).2.request =
        (next { w with responseCheck := some responseSchema.responseCheck }).2.request ∧
      (createResponseValidator responseSchema next w).2.invocations =
        (next { w with responseCheck := some responseSchema.responseCheck }).2.invocations := by
  obtain ⟨hr, -, -, hi⟩ :=
    quiet_awaitNext next { w with responseCheck := some responseSchema.responseCheck }
  exact ⟨hr, hi⟩

/-- The end of the chain calls the handler once, with the request as it is. -/
lemma lastOfChain_invocations (w : World V) :
    (lastOfChain cfg route params w).2.request = w.request ∧
      (lastOfChain cfg route params w).2.invocations =
        w.invocations ++ [⟨w.request, params⟩] := by
  rw [lastOfChain]
  cases route.schema.bind RouteSchema.response with
  | none => exact callHandler_invocations w
  | some responseSchema =>
      obtain ⟨hr, hi⟩ :=
        createResponseValidator_calls responseSchema (callHandler cfg route params) w
      rw [hr, hi]
      exact callHandler_invocations _

lemma seen_chain (stack : List (Middleware V)) :
    Within (Seen params) (compose cfg stack (lastOfChain cfg route params)) := by
  refine within_compose (fun op w => (quiet_perform cfg op w).seen params) (fun w => ?_) stack
  refine ⟨(lastOfChain_invocations w).1, fun call hcall => ?_⟩
  rw [(lastOfChain_invocations w).2, List.mem_append, List.mem_singleton] at hcall
  exact hcall

/-! ### Validated input -/

/-- Every declared schema accepts its section of the request, and the handler was called with
its output, on the request and in the params. -/
def Invocation.Validated (call : Invocation V) (schema : RouteSchema V) (request : Request V) :
    Prop :=
  ∀ s sectionSchema, schema.get s = some sectionSchema →
    ∃ out, sectionSchema.parse (request.get s) = .ok out ∧ call.request.get s = out ∧
      (s = .params → call.params = out)

/-- The validator is there and looks at the section. -/
def RouteSchema.checks (truthy : V → Bool) (schema : RouteSchema V) (request : Request V)
    (s : Section) : Bool :=
  schema.installsValidator && schema.looksAt truthy request s

/-- The validator refuses a section it looks at, or every declared schema leaves its section
as it is, apart from those of sections other than the params that the validator looks at. -/
def RouteSchema.Guarded (truthy : V → Bool) (schema : RouteSchema V) (request : Request V) :
    Prop :=
  (schema.installsValidator = true ∧ ∃ s error, schema.Refuses truthy request s error) ∨
    ∀ s sectionSchema, schema.get s = some sectionSchema →
      s ≠ .params ∧ schema.checks truthy request s = true ∨
        sectionSchema.parse (request.get s) = .ok (request.get s)

/-- The chain of a route runs the validator on the request or calls the handler with the
request as it is. -/
lemma routeChain_cases (cfg : Config V) (truthy : V → Bool) (route : RouteMethodOptions V)
    (params : V) (w : World V) (hschema : route.schema = some schema) :
    (schema.installsValidator = true ∧ (∃ s error, schema.Refuses truthy w.request s error) ∧
        (routeChain cfg truthy route params w).2.invocations = w.invocations) ∨
      ∃ request,
        (∀ s, if schema.installsValidator then schema.Checked truthy w.request request s
          else request.get s = w.request.get s) ∧
        Seen params { w with request := request } (routeChain cfg truthy route params w).2 ∧
        (route.middleware = [] →
          ⟨request, params⟩ ∈ (routeChain cfg truthy route params w).2.invocations) := by
  rw [routeChain, hschema]
  dsimp only
  cases hinstalls : schema.installsValidator with
  | false =>
      rw [if_neg (by simp)]
      refine .inr ⟨w.request, fun s => rfl, seen_chain route.middleware w, fun hnil => ?_⟩
      rw [hnil, compose, dispatch, (lastOfChain_invocations w).2]
      simp
  | true =>
      rw [if_pos rfl, createRequestValidator]
      have hnodup : [Section.params, .query, .body, .files].Nodup := by decide
      rcases validateSections_cases w hnodup with
        ⟨s, -, error, hrefuses, w', hrun, hcalls⟩ | ⟨request, hrun, hchecked, -⟩
      · refine .inl ⟨rfl, ⟨s, error, hrefuses⟩, ?_⟩
        rw [Effect.bind_of_error hrun]
        exact hcalls
      · rw [Effect.bind_of_ok hrun]
        refine .inr ⟨request, fun s => ?_, ?_, fun hnil => ?_⟩
        · exact hchecked s (by cases s <;> simp)
        · exact within_awaitNext (fun w => (quiet_tick w).seen params)
            (seen_chain route.middleware) _
        · rw [(quiet_awaitNext _ _).2.2.2, hnil, compose, dispatch,
            (lastOfChain_invocations _).2]
          simp

/-- A matched request runs the chain of its route on the request with the params of the
match. -/
lemma handleRequest_invocations (cfg : Config V) (truthy : V → Bool)
    (route : RouteMethodOptions V) (params : V) (w : World V) :
    ∃ w', w'.request = { w.request with params := params } ∧ w'.invocations = w.invocations ∧
      (handleRequest cfg truthy (.matched route params) w).2.invocations =
        (routeChain cfg truthy route params w').2.invocations := by
  obtain ⟨w₁, hw₁⟩ : ∃ w₁, tick w = (.ok (), w₁) := ⟨_, rfl⟩
  obtain ⟨hr, -, -, hi⟩ := quiet_tick w
  rw [hw₁] at hr hi
  refine ⟨{ w₁ with request := { w₁.request with params := params } }, by rw [hr], hi, ?_⟩
  rw [handleRequest, Effect.bind_of_ok hw₁, Effect.bind_of_ok (Effect.get_apply w₁)]
  dsimp only
  rw [Effect.bind_of_ok (Effect.modify_apply _ w₁)]
  have hexecute := (quiet_awaitNext (executeHandler cfg truthy route params)
    { w₁ with request := { w₁.request with params := params } }).2.2.2
  have hchain := (quiet_awaitNext (routeChain cfg truthy route params)
    { w₁ with request := { w₁.request with params := params } }).2.2.2
  exact hexecute.trans hchain

lemma not_checked_of_refuses {request request' : Request V} {s : Section} {error : ParseError}
    (hinstalls : schema.installsValidator = true)
    (hrefuses : schema.Refuses truthy request s error) :
    ¬ if schema.installsValidator then schema.Checked truthy request request' s
      else request'.get s = request.get s := by
  obtain ⟨hlooks, sectionSchema, hget, herror⟩ := hrefuses
  rw [if_pos hinstalls, RouteSchema.Checked, if_pos hlooks]
  rintro ⟨sectionSchema', hget', hok⟩
  obtain rfl : sectionSchema = sectionSchema' := Option.some.inj (hget.symm.trans hget')
  rw [herror] at hok
  cases hok

/-- The request that the chain runs on sees validated input, if the schemas are guarded. -/
lemma validated_of_guarded {request request' : Request V} {params : V}
    (hparams : request.params = params)
    (hseen : ∀ s, if schema.installsValidator then schema.Checked truthy request request' s
      else request'.get s = request.get s)
    (hguarded : ∀ s sectionSchema, schema.get s = some sectionSchema →
      s ≠ .params ∧ schema.checks truthy request s = true ∨
        sectionSchema.parse (request.get s) = .ok (request.get s)) :
    (⟨request', params⟩ : Invocation V).Validated schema request := by
  intro s sectionSchema hget
  have hs := hseen s
  rcases hguarded s sectionSchema hget with ⟨hne, hchecks⟩ | hparse
  · rw [RouteSchema.checks, Bool.and_eq_true] at hchecks
    rw [if_pos hchecks.1, RouteSchema.Checked, if_pos hchecks.2] at hs
    obtain ⟨sectionSchema', hget', hvalidate⟩ := hs
    obtain rfl : sectionSchema = sectionSchema' := Option.some.inj (hget.symm.trans hget')
    exact ⟨_, Schema.parse_of_validate hvalidate, rfl, fun h => absurd h hne⟩
  · -- the schema leaves the section as it is, whether the validator looks at it or not
    have hkeep : request'.get s = request.get s := by
      split at hs
      · rw [RouteSchema.Checked] at hs
        split at hs
        · obtain ⟨sectionSchema', hget', hvalidate⟩ := hs
          obtain rfl : sectionSchema = sectionSchema' := Option.some.inj (hget.symm.trans hget')
          rw [Schema.parse_of_validate hvalidate, Except.ok.injEq] at hparse
          exact hparse
        · exact hs
      · exact hs
    exact ⟨_, hparse, hkeep, fun h => by rw [h]; exact hparams.symm⟩

/-- What the handler sees is guarded, if it is validated. -/
lemma guarded_of_validated {request request' : Request V} {params : V}
    (hparams : request.params = params)
    (hseen : ∀ s, if schema.installsValidator then schema.Checked truthy request request' s
      else request'.get s = request.get s)
    (hvalidated : (⟨request', params⟩ : Invocation V).Validated schema request) :
    schema.Guarded truthy request := by
  refine .inr fun s sectionSchema hget => ?_
  obtain ⟨out, hparse, hsees, harg⟩ := hvalidated s sectionSchema hget
  have hs := hseen s
  by_cases hp : s = .params
  · subst hp
    have hout : out = request.get .params := by rw [← harg rfl, ← hparams]; rfl
    exact .inr (hout ▸ hparse)
  cases hchecks : schema.checks truthy request s with
  | true => exact .inl ⟨hp, rfl⟩
  | false =>
      have hkeep : request'.get s = request.get s := by
        rw [RouteSchema.checks, Bool.and_eq_false_iff] at hchecks
        split at hs
        next hinstalls =>
            rcases hchecks with h | h
            · rw [hinstalls] at h
              cases h
            · rw [RouteSchema.Checked, h] at hs
              exact hs
        next => exact hs
      exact .inr (by rw [hparse, ← hsees]; exact congrArg Except.ok hkeep)

/-- **The input of handlers is validated exactly when the schemas guard the request**: in
every run of a matched request, whatever the middlewares and the handler of the route do,
each call of the handler comes after every declared schema has accepted its section and sees
the outputs, on `ctx.request` and in the params. -/
theorem validated_iff_guarded (truthy : V → Bool) (schema : RouteSchema V) (request : Request V)
    (params : V) :
    (∀ (cfg : Config V) (middleware : List (Middleware V))
        (handler : V → Prog (Op V) Op.Reply (Thrown V) (Option V)) (w : World V),
      w.request = request → w.invocations = [] →
        ∀ call ∈ (handleRequest cfg truthy
            (.matched ⟨some schema, middleware, handler⟩ params) w).2.invocations,
          call.Validated schema { request with params := params }) ↔
      schema.Guarded truthy { request with params := params } := by
  constructor
  · intro h
    -- without middlewares the handler is reached unless the validator throws
    let cfg : Config V := { generator := fun _ => "" }
    let route : RouteMethodOptions V := ⟨some schema, [], fun _ => .ret none⟩
    obtain ⟨w', hr, hi, hrun⟩ := handleRequest_invocations cfg truthy route params
      { request := request, correlationId := "" }
    rcases routeChain_cases cfg truthy route params w' rfl with
      ⟨hinstalls, hrefuses, -⟩ | ⟨request', hseen, -, hmem⟩
    · exact .inl ⟨hinstalls, hr ▸ hrefuses⟩
    · rw [hr] at hseen
      refine guarded_of_validated rfl hseen ?_
      exact h cfg [] (fun _ => .ret none) _ rfl rfl _ (hrun ▸ hmem rfl)
  · rintro hguarded cfg middleware handler w rfl hnone call hcall
    obtain ⟨w', hr, hi, hrun⟩ := handleRequest_invocations cfg truthy
      ⟨some schema, middleware, handler⟩ params w
    rw [hrun] at hcall
    rcases routeChain_cases cfg truthy ⟨some schema, middleware, handler⟩ params w' rfl with
      ⟨-, -, hcalls⟩ | ⟨request', hseen, ⟨-, hcalls⟩, -⟩
    · rw [hcalls, hi, hnone] at hcall
      cases hcall
    · rw [hr] at hseen
      rcases hcalls call hcall with hold | rfl
      · rw [show ({ w' with request := request' } : World V).invocations = [] from
          hi.trans hnone] at hold
        cases hold
      · rcases hguarded with ⟨hinstalls, s, error, hrefuses⟩ | hguarded
        · exact absurd (hseen s) (not_checked_of_refuses hinstalls hrefuses)
        · exact validated_of_guarded rfl hseen hguarded

/-- A schema for the files alone is not applied: the handler runs on a request without the
files that its route asks for. -/
theorem not_validated_filesOnly :
    ¬ ∀ (V : Type) (cfg : Config V) (truthy : V → Bool) (schema : RouteSchema V)
        (middleware : List (Middleware V))
        (handler : V → Prog (Op V) Op.Reply (Thrown V) (Option V)) (params : V) (w : World V),
      w.invocations = [] →
        ∀ call ∈ (handleRequest cfg truthy
            (.matched ⟨some schema, middleware, handler⟩ params) w).2.invocations,
          call.Validated schema { w.request with params := params } := by
  intro h
  let files : Schema (Option String) :=
    { isZodObject := true
      parse := fun v => if v = none then .error (.zod [⟨[], "Required"⟩]) else .ok v
      strictParse := fun v => if v = none then .error (.zod [⟨[], "Required"⟩]) else .ok v
      strict := fun _ _ _ hv => hv }
  obtain ⟨out, hparse, -⟩ := h (Option String) { generator := fun _ => "" } (fun _ => true)
    { files := some files } [] (fun _ => .ret none) (some "")
    { request :=
        { method := "POST", path := "/avatar", params := some "", query := some "",
          body := none, files := none }
      correlationId := "req_1" }
    rfl _ (List.mem_singleton_self _) .files files rfl
  simp [files, Request.get] at hparse

end Blaize.Server
