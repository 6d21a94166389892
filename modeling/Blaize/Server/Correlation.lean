import Blaize.Server.RequestHandler

/-!
When a request has one correlation id: in the header of its response, in the body of an error
response, in what `getCorrelationId` answers, and in its own header.

The request handler looks the configured header up by its exact name, the error boundary by
its name in lower case, as Node delivers it; each of them generates an id of its own when it
finds none.

A stream of server-sent events writes to Node's response itself: its head goes out without the
header, which only the responders set.

* `Marked`: the response has, or will have when its head is sent, the id in its header, unless
  its head went out bare;
* `Op.LeavesHeader`: code of the application that does not set the header itself;
* `FailsUnsent`: an error reaches the boundary before anything was sent;
* `SendsBare`: the head is sent by a write past the responders, before one of them was called;
* `OneId`: the ids of a response agree;
* `oneId_iff_traceable`: **a request has one id exactly when its head is not sent bare, and its
  header is usable and found by both, or it has none and no error body is sent**.
-/

namespace Blaize.Server

variable {V : Type} {cfg : Config V} {truthy : V → Bool}

/-! ### What the application leaves alone -/

/-- The operation does not set the header of the given name. -/
def Op.LeavesHeader (name : String) : Op V → Prop
  | .header field _ => field.toLowerCase ≠ name.toLowerCase
  | .respond (.stream options) => ∀ h ∈ options.headers, h.1.toLowerCase ≠ name.toLowerCase
  | _ => True

/-- No code of the route sets the header. -/
structure RouteMethodOptions.LeavesHeader (name : String) (route : RouteMethodOptions V) :
    Prop where
  middleware : ∀ m ∈ route.middleware, m.execute.Uses (MiddlewareOp.All (Op.LeavesHeader name))
  handler : ∀ params, (route.handler params).Uses (Op.LeavesHeader name)

/-- No code of the application sets the header. -/
structure ServerInstance.LeavesHeader (name : String) (server : ServerInstance V) : Prop where
  middleware : ∀ m ∈ server.cors.toList ++ server.middleware,
    m.execute.Uses (MiddlewareOp.All (Op.LeavesHeader name))
  route : ∀ route params, server.routeMatch = .matched route params → route.LeavesHeader name

/-! ### Marked responses -/

/-- The header that a responder sets for an id. -/
def mark (correlationId : String) : Option String :=
  if correlationId = "" then none else some correlationId

/-- The ids that a payload tells. -/
def Payload.correlationId : Payload V → Option String
  | .error body => some body.correlationId
  | .unhandled _ _ correlationId => some correlationId
  | _ => none

/-- The world has the ids and the headers of `start`, nothing that was written tells an id,
and the head has the id, or gets it before a responder or a readable can write.  A head that
went out bare has none. -/
structure Marked (cfg : Config V) (start w : World V) : Prop where
  id : w.correlationId = start.correlationId
  headers : w.request.headers = start.request.headers
  generated : w.generated = start.generated
  body : ∀ payload ∈ w.res.body, payload.correlationId = none
  unsent : w.res.head = none → w.res.body = [] ∧ w.res.ended = false ∧ w.bare = false
  head : ∀ head, w.res.head = some head →
    head.headers.get cfg.headerName.toLowerCase = if w.bare then none else mark w.correlationId
  piped : w.res.head = none → 0 < w.piped →
    w.res.headers.get cfg.headerName.toLowerCase = mark w.correlationId
  own : w.res.headers.get cfg.headerName.toLowerCase = none ∨
    w.res.headers.get cfg.headerName.toLowerCase = mark w.correlationId

/-- Moreover the header is set. -/
structure Stamped (cfg : Config V) (start w : World V) : Prop extends Marked cfg start w where
  stamp : w.res.head = none → w.res.headers.get cfg.headerName.toLowerCase = mark w.correlationId

variable {start w : World V}

lemma Res.setHeader_cases (res : Res V) (name value : String) :
    (∃ e, res.setHeader name value = .error e ∧ res.headersSent = true) ∨
      (res.setHeader name value =
          .ok { res with headers := res.headers.set name.toLowerCase value } ∧
        res.head = none) := by
  rw [setHeader]
  split
  next h => exact .inl ⟨_, rfl, h⟩
  next h => exact .inr ⟨rfl, by simpa [headersSent] using h⟩

/-- Another header can be set in between. -/
lemma ensures_setHeader {name : String} (value : String)
    (hname : name.toLowerCase ≠ cfg.headerName.toLowerCase) :
    Ensures (Marked cfg start) (setHeader name value) (Marked cfg start) (Marked cfg start) ∧
      Ensures (Stamped cfg start) (setHeader name value) (Stamped cfg start)
        (Marked cfg start) := by
  have hget : ∀ w : World V,
      (w.res.headers.set name.toLowerCase value).get cfg.headerName.toLowerCase =
        w.res.headers.get cfg.headerName.toLowerCase := fun w => OrdMap.get_set_ne _ _ hname
  have hkeep : ∀ w, Marked cfg start w → Marked cfg start
      { w with res := { w.res with headers := w.res.headers.set name.toLowerCase value } } :=
    fun w h => ⟨h.id, h.headers, h.generated, h.body, h.unsent, h.head,
      fun hn hp => (hget w).trans (h.piped hn hp), (hget w).symm ▸ h.own⟩
  constructor
  · intro w h
    rcases w.res.setHeader_cases name value with ⟨e, he, -⟩ | ⟨hok, -⟩
    · rw [setHeader, he]
      exact h
    · rw [setHeader, hok]
      exact hkeep w h
  · intro w h
    rcases w.res.setHeader_cases name value with ⟨e, he, -⟩ | ⟨hok, -⟩
    · rw [setHeader, he]
      exact h.toMarked
    · rw [setHeader, hok]
      exact ⟨hkeep w h.toMarked, fun hn => (hget w).trans (h.stamp hn)⟩

lemma ensures_setStatus (status : Option ℕ) :
    Ensures (Marked cfg start) (setStatus status) (Marked cfg start) (Marked cfg start) ∧
      Ensures (Stamped cfg start) (setStatus status) (Stamped cfg start) (Marked cfg start) := by
  have hkeep : ∀ w : World V, Marked cfg start w → Marked cfg start
      { w with res := { w.res with statusCode := status.getD w.res.statusCode } } :=
    fun w h => ⟨h.id, h.headers, h.generated, h.body, h.unsent, h.head, h.piped, h.own⟩
  exact ⟨fun w h => hkeep w h, fun w h => ⟨hkeep w h.toMarked, h.stamp⟩⟩

/-- The responders set the id. -/
lemma ensures_addCorrelationHeader :
    Ensures (Marked cfg start) (addCorrelationHeader cfg) (Stamped cfg start)
      (Marked cfg start) := by
  intro w h
  rw [addCorrelationHeader, Effect.bind_of_ok (Effect.get_apply w)]
  by_cases hid : w.correlationId = ""
  · rw [if_neg (by simp [hid])]
    have hmark : mark w.correlationId = none := if_pos hid
    exact ⟨h, fun _ => h.own.elim (fun hnone => hnone.trans hmark.symm) id⟩
  rw [if_pos hid]
  rcases w.res.setHeader_cases cfg.headerName w.correlationId with ⟨e, he, -⟩ | ⟨hok, -⟩
  · rw [setHeader, he]
    exact h
  · rw [setHeader, hok]
    have hset : (w.res.headers.set cfg.headerName.toLowerCase w.correlationId).get
        cfg.headerName.toLowerCase = mark w.correlationId := by
      rw [OrdMap.get_set_self, mark, if_neg hid]
    exact ⟨⟨h.id, h.headers, h.generated, h.body, h.unsent, h.head, fun _ _ => hset, .inr hset⟩,
      fun _ => hset⟩

/-- A response that has the id in its header keeps it when it is sent. -/
lemma Stamped.flush (h : Stamped cfg start w) :
    ∀ head, w.res.flush.head = some head →
      head.headers.get cfg.headerName.toLowerCase =
        if w.bare then none else mark w.correlationId := by
  intro head hhead
  cases hsent : w.res.head with
  | none =>
      rw [Res.flush, hsent] at hhead
      obtain rfl := Option.some.inj hhead
      rw [(h.unsent hsent).2.2, if_neg Bool.false_ne_true]
      exact h.stamp hsent
  | some head' =>
      rw [Res.flush, hsent] at hhead
      obtain rfl := Option.some.inj hhead
      exact h.head head' hsent

/-- What has the id in its header can be written and ended. -/
lemma Stamped.end (h : Stamped cfg start w) {payload : Option (Payload V)}
    (hpayload : ∀ p ∈ payload, p.correlationId = none) (sent : Bool) :
    Marked cfg start { w with res := w.res.end payload, sent := sent } := by
  rw [Res.end]
  split
  next hended => exact ⟨h.id, h.headers, h.generated, h.body, h.unsent, h.head, h.piped, h.own⟩
  next =>
      refine ⟨h.id, h.headers, h.generated, fun p hp => ?_, (fun hn => by cases hn), h.flush,
        (fun hn => by cases hn), h.own⟩
      rcases List.mem_append.mp hp with hp | hp
      · exact h.body p hp
      · exact hpayload p (Option.mem_toList.mp hp)

lemma Stamped.write (h : Stamped cfg start w) {payload : Payload V}
    (hpayload : payload.correlationId = none) :
    Marked cfg start { w with res := w.res.write payload } := by
  rw [Res.write]
  split
  next hended => exact ⟨h.id, h.headers, h.generated, h.body, h.unsent, h.head, h.piped, h.own⟩
  next =>
      refine ⟨h.id, h.headers, h.generated, fun p hp => ?_, (fun hn => by cases hn), h.flush,
        (fun hn => by cases hn), h.own⟩
      rcases List.mem_append.mp hp with hp | hp
      · exact h.body p hp
      · rw [List.mem_singleton.mp hp]
        exact hpayload

lemma ensures_send {payload : Option (Payload V)}
    (hpayload : ∀ p ∈ payload, p.correlationId = none) :
    Ensures (Stamped cfg start) (send payload) (Marked cfg start) (Marked cfg start) :=
  fun _ h => h.end hpayload true

lemma ensures_stringify (payload : Payload V) :
    Ensures (Stamped cfg start) (stringify cfg payload) (Stamped cfg start)
      (Marked cfg start) := by
  intro w h
  rw [stringify]
  cases payload.stringifyError cfg with
  | none => exact h
  | some message => exact h.toMarked

/-- A write past the responders sends the head bare, or with the id in its header. -/
lemma marked_rawWrite (bytes : Js.Bytes) :
    Within (Keeping (Marked cfg start)) (rawWrite cfg bytes) := by
  intro w h
  rw [rawWrite, Effect.modify_apply]
  dsimp only
  rw [Res.write]
  cases hhead : w.res.head with
  | some head =>
      have hbody : ∀ p ∈ w.res.body ++ [Payload.chunk bytes], p.correlationId = none := by
        intro p hp
        rcases List.mem_append.mp hp with hp | hp
        · exact h.body p hp
        · rw [List.mem_singleton.mp hp]
          rfl
      rw [Option.isNone_some, Bool.false_and, Bool.or_false]
      split
      · exact ⟨h.id, h.headers, h.generated, h.body, h.unsent, h.head, h.piped, h.own⟩
      · refine ⟨h.id, h.headers, h.generated, hbody, (fun hn => by cases hn), fun head' hsent => ?_,
          (fun hn => by cases hn), h.own⟩
        rw [Res.flush, hhead] at hsent
        obtain rfl := Option.some.inj hsent
        exact h.head head hhead
  | none =>
      obtain ⟨hbody, hended, hbare⟩ := h.unsent hhead
      rw [if_neg (by simp [hended]), hbare, Option.isNone_none, Bool.true_and, Bool.false_or]
      refine ⟨h.id, h.headers, h.generated, fun p hp => ?_, (fun hn => by cases hn),
        fun head hsent => ?_, (fun hn => by cases hn), h.own⟩
      · rw [Res.flush, hbody, List.nil_append, List.mem_singleton] at hp
        rw [hp]
        rfl
      · rw [Res.flush, hhead] at hsent
        obtain rfl := Option.some.inj hsent
        rcases h.own with hown | hown
        · simp [hown]
        · simp only [Option.getD_none, hown]
          cases mark w.correlationId <;> rfl

/-! ### The operations -/

/-- The headers that the responders set themselves are other ones. -/
structure Config.HasOwnHeader (cfg : Config V) : Prop where
  contentType : "Content-Type".toLowerCase ≠ cfg.headerName.toLowerCase
  location : "Location".toLowerCase ≠ cfg.headerName.toLowerCase
  allow : "Allow".toLowerCase ≠ cfg.headerName.toLowerCase

variable (hcfg : cfg.HasOwnHeader)

include hcfg

lemma marked_contentResponder (contentType : String) {payload : Payload V} (status : Option ℕ)
    (hpayload : payload.correlationId = none) :
    Within (Keeping (Marked cfg start)) (contentResponder cfg contentType payload status) := by
  refine .bind .get fun w => ?_
  split
  · exact .throw _
  · exact Ensures.keeping (.bind (ensures_setStatus status).1 fun _ =>
      .bind ensures_addCorrelationHeader fun _ =>
        .bind (ensures_setHeader contentType hcfg.contentType).2 fun _ =>
          .bind (ensures_stringify payload) fun _ =>
            ensures_send fun p hp => by rw [← Option.some.inj hp]; exact hpayload)

lemma marked_redirectResponder (url : String) (status : ℕ) :
    Within (Keeping (Marked cfg start)) (redirectResponder cfg url status) := by
  refine .bind .get fun w => ?_
  split
  · exact .throw _
  · exact Ensures.keeping (.bind ensures_addCorrelationHeader fun _ =>
      .bind (ensures_setStatus _).2 fun _ =>
        .bind (ensures_setHeader url hcfg.location).2 fun _ => ensures_send fun p hp => by cases hp)

lemma ensures_setContentType (contentType : Option String) :
    Ensures (Stamped cfg start) (setContentType contentType) (Stamped cfg start)
      (Marked cfg start) := by
  cases contentType with
  | none => exact fun w h => h
  | some contentType =>
      rw [setContentType]
      split
      · exact (ensures_setHeader contentType hcfg.contentType).2
      · exact fun w h => h

omit hcfg in
lemma ensures_setHeaders {headers : List (String × String)}
    (hheaders : ∀ h ∈ headers, h.1.toLowerCase ≠ cfg.headerName.toLowerCase) :
    Ensures (Stamped cfg start) (setHeaders headers) (Stamped cfg start) (Marked cfg start) := by
  induction headers with
  | nil => exact fun w h => h
  | cons field headers ih =>
      exact .bind (ensures_setHeader field.2 (hheaders field (by simp))).2 fun _ =>
        ih fun h hh => hheaders h (List.mem_cons_of_mem _ hh)

lemma marked_streamResponder {options : StreamOptions}
    (hoptions : ∀ h ∈ options.headers, h.1.toLowerCase ≠ cfg.headerName.toLowerCase) :
    Within (Keeping (Marked cfg start)) (streamResponder cfg options) := by
  have hpipe : Ensures (Stamped cfg start)
      (Effect.modify fun w => { w with piped := w.piped + 1 } : Run V Unit) (Marked cfg start)
      (Marked cfg start) :=
    fun w h => ⟨h.id, h.headers, h.generated, h.body, h.unsent, h.head, fun hn _ => h.stamp hn,
      h.own⟩
  refine .bind .get fun w => ?_
  split
  · exact .throw _
  · exact Ensures.keeping (.bind (ensures_setStatus _).1 fun _ =>
      .bind ensures_addCorrelationHeader fun _ => .bind (ensures_setContentType hcfg _) fun _ =>
        .bind (ensures_setHeaders hoptions) fun _ => hpipe)

lemma marked_json (body : V) (status : Option ℕ) :
    Within (Keeping (Marked cfg start)) (json cfg body status) := by
  have hsend : ∀ value : V, Within (Keeping (Marked cfg start))
      (jsonResponder cfg (.json value) status) :=
    fun value => marked_contentResponder hcfg _ _ rfl
  refine .bind .get fun w => ?_
  split
  · exact hsend body
  · split
    · exact hsend body
    · split
      · exact hsend _
      · refine .bind (fun _ h => ?_) fun _ => .throw _
        exact ⟨h.id, h.headers, h.generated, h.body, h.unsent, h.head, h.piped, h.own⟩

lemma marked_respond {responder : Responder V}
    (hresponder : (Op.respond responder).LeavesHeader cfg.headerName) :
    Within (Keeping (Marked cfg start)) (respond cfg responder) := by
  cases responder with
  | json body status => exact marked_json hcfg body status
  | text body status => exact marked_contentResponder hcfg _ _ rfl
  | html body status => exact marked_contentResponder hcfg _ _ rfl
  | redirect url status => exact marked_redirectResponder hcfg url status
  | stream options => exact marked_streamResponder hcfg hresponder

omit hcfg in
/-- A readable only writes to a response that has its header. -/
lemma Marked.deliver (h : Marked cfg start w) (event : ℕ × StreamEvent) :
    Marked cfg start (w.deliver event) := by
  rw [World.deliver]
  split
  next hlt =>
      have hstamped : Stamped cfg start w :=
        ⟨h, fun hn => h.piped hn (Nat.lt_of_le_of_lt (Nat.zero_le _) hlt)⟩
      have hreceive : Marked cfg start (w.receive event.2) := by
        cases event.2 with
        | data bytes => exact hstamped.write rfl
        | «end» => exact hstamped.end (fun p hp => by cases hp) true
        | error =>
            rw [World.receive]
            split
            · exact h
            · have herror : Stamped cfg start
                  { w with res := { w.res with statusCode := 500 } } :=
                ⟨⟨h.id, h.headers, h.generated, h.body, h.unsent, h.head, h.piped, h.own⟩,
                  hstamped.stamp⟩
              exact herror.end (fun p hp => by rw [← Option.some.inj hp]; rfl) true
      exact ⟨hreceive.id, hreceive.headers, hreceive.generated, hreceive.body, hreceive.unsent,
        hreceive.head, hreceive.piped, hreceive.own⟩
  next => exact h

omit hcfg in
lemma Marked.deliver_all (h : Marked cfg start w) (events : List (ℕ × StreamEvent)) :
    Marked cfg start (events.foldl World.deliver w) := by
  induction events generalizing w with
  | nil => exact h
  | cons event events ih => exact ih (h.deliver event)

omit hcfg in
lemma marked_tick : Within (Keeping (Marked cfg start)) (tick : Run V Unit) := by
  intro w h
  rw [tick, Effect.modify_apply]
  dsimp only
  split
  next => exact h
  next events arrivals _ =>
      have hw := h.deliver_all events
      exact ⟨hw.id, hw.headers, hw.generated, hw.body, hw.unsent, hw.head, hw.piped, hw.own⟩

/-- **Code that leaves the header to the responders keeps the response marked.** -/
lemma marked_perform {op : Op V} (hop : op.LeavesHeader cfg.headerName) :
    Within (Keeping (Marked cfg start)) (perform cfg op) := by
  cases op with
  | respond responder =>
      refine .bind (marked_respond hcfg hop) fun _ w h => ?_
      exact ⟨h.id, h.headers, h.generated, h.body, h.unsent, h.head, h.piped, h.own⟩
  | status code =>
      refine .bind .get fun w => ?_
      split
      · exact .throw _
      · exact Ensures.keeping (ensures_setStatus _).1
  | header name value =>
      refine .bind .get fun w => ?_
      split
      · exact .throw _
      · exact Ensures.keeping (ensures_setHeader value hop).1
  | write bytes => exact marked_rawWrite bytes
  | getCorrelationId => exact fun w h => h
  | request => exact fun w h => h
  | await => exact marked_tick

/-! ### The route -/

variable {route : RouteMethodOptions V} {params : V}

lemma marked_callHandler (hroute : route.LeavesHeader cfg.headerName) :
    Within (Keeping (Marked cfg start)) (callHandler cfg route params) := by
  refine .bind (fun w h => ?_) fun _ =>
    .bind (.run_of_uses (fun _ => marked_perform hcfg) (hroute.handler params)) fun result =>
      .bind marked_tick fun _ => .bind .get fun w => ?_
  · exact ⟨h.id, h.headers, h.generated, h.body, h.unsent, h.head, h.piped, h.own⟩
  · split
    · split
      · exact .pure _
      · exact marked_json hcfg _ _
    · exact .pure _

omit hcfg in
lemma Marked.setResponseCheck (h : Marked cfg start w) (check : Option (ResponseCheck V)) :
    Marked cfg start { w with responseCheck := check } :=
  ⟨h.id, h.headers, h.generated, h.body, h.unsent, h.head, h.piped, h.own⟩

lemma marked_lastOfChain (hroute : route.LeavesHeader cfg.headerName) :
    Within (Keeping (Marked cfg start)) (lastOfChain cfg route params) := by
  rw [lastOfChain]
  cases route.schema.bind RouteSchema.response with
  | none => exact marked_callHandler hcfg hroute
  | some responseSchema =>
      refine .bind .get fun w => .bind (fun _ h => h.setResponseCheck _) fun _ w' h => ?_
      exact (within_awaitNext marked_tick (marked_callHandler hcfg hroute) w' h).setResponseCheck _

omit hcfg in
lemma marked_validateSections (schema : RouteSchema V) (sections : List Section) :
    Within (Keeping (Marked cfg start)) (validateSections truthy schema sections) := by
  induction sections with
  | nil => exact .pure _
  | cons s sections ih =>
      refine .bind (.bind .get fun w => ?_) fun _ => ih
      split
      · exact .pure _
      · split
        · split
          · refine fun w h => ⟨h.id, ?_, h.generated, h.body, h.unsent, h.head, h.piped, h.own⟩
            rw [← h.headers]
            cases s <;> rfl
          · exact .throw _
        · exact .pure _

lemma marked_routeChain (hroute : route.LeavesHeader cfg.headerName) :
    Within (Keeping (Marked cfg start)) (routeChain cfg truthy route params) := by
  have hchain : Within (Keeping (Marked cfg start))
      (compose cfg route.middleware (lastOfChain cfg route params)) :=
    within_compose_of_uses (fun _ => marked_perform hcfg) marked_tick
      (marked_lastOfChain hcfg hroute) hroute.middleware
  rw [routeChain]
  split
  · split
    · exact .bind (marked_validateSections _ _) fun _ => within_awaitNext marked_tick hchain
    · exact hchain
  · exact hchain

/-! ### The request -/

lemma marked_handleRequest {routeMatch : RouteMatch V}
    (hroute : ∀ route params, routeMatch = .matched route params →
      route.LeavesHeader cfg.headerName) :
    Within (Keeping (Marked cfg start)) (handleRequest cfg truthy routeMatch) := by
  refine .bind marked_tick fun _ => .bind .get fun w => ?_
  cases routeMatch with
  | noMatch => exact .throw _
  | methodNotAllowed body allowedMethods =>
      have hstatus : Within (Keeping (Marked cfg start)) (perform cfg (.status 405)) :=
        marked_perform hcfg trivial
      have hallow : ∀ value, Within (Keeping (Marked cfg start))
          (perform cfg (.header "Allow" value)) := fun value => marked_perform hcfg hcfg.allow
      refine .bind hstatus fun _ => .bind (marked_json hcfg _ _) fun _ => ?_
      split
      · exact hallow _
      · exact .pure _
  | matched route params =>
      refine .bind (fun w h => ?_) fun _ =>
        .bind (.bind (marked_routeChain hcfg (hroute route params rfl)) fun _ => marked_tick)
          fun _ => marked_tick
      exact ⟨h.id, h.headers, h.generated, h.body, h.unsent, h.head, h.piped, h.own⟩

/-- **Everything that the error boundary guards keeps the response marked.** -/
lemma marked_guarded {server : ServerInstance V} (hserver : server.LeavesHeader cfg.headerName) :
    Within (Keeping (Marked cfg start)) (guarded cfg truthy server) := by
  refine within_compose_of_uses (fun _ => marked_perform hcfg) marked_tick ?_ hserver.middleware
  refine .bind .get fun w => ?_
  split
  · exact .pure _
  · refine .bind (marked_handleRequest hcfg hserver.route) fun _ => .bind marked_tick fun _ =>
      .bind .get fun w => ?_
    split
    · exact .throw _
    · exact .pure _

omit hcfg in
lemma marked_world (cfg : Config V) (incoming : Incoming V) :
    Marked cfg (incoming.world cfg) (incoming.world cfg) :=
  ⟨rfl, rfl, rfl, by simp [Incoming.world], fun _ => ⟨rfl, rfl, rfl⟩, (fun _ h => by cases h),
    (fun _ h => by cases h), .inl rfl⟩

/-! ### The two error responses -/

/-- The id that the error boundary works with. -/
def boundaryId (cfg : Config V) (w : World V) : String × ℕ :=
  createCorrelationIdFromHeaders cfg ((w.request.header cfg.headerName).map .single) w.generated

omit hcfg in
lemma setHeader_of_unsent (hhead : w.res.head = none) (name value : String) :
    setHeader name value w = (.ok (), { w with
      res := { w.res with headers := w.res.headers.set name.toLowerCase value } }) := by
  rw [setHeader, Res.setHeader_of_head hhead]

omit hcfg in
lemma headerSetter_of_unsent (hsent : w.sent = false) (hhead : w.res.head = none)
    (name value : String) :
    headerSetter name value w = (.ok (), { w with
      res := { w.res with headers := w.res.headers.set name.toLowerCase value } }) := by
  rw [headerSetter, Effect.bind_of_ok (Effect.get_apply w), if_neg (by simp [hsent]),
    setHeader_of_unsent hhead]

omit hcfg in
/-- The `json` of an error response of which nothing was sent, up to `JSON.stringify`. -/
lemma errorJson_of_unsent {body : BlaizeError V} (hsent : w.sent = false)
    (hhead : w.res.head = none) (hid : w.correlationId ≠ "") :
    jsonResponder cfg (.error body) none w =
      (do stringify cfg (.error body); send (some (.error body)) : Run V Unit)
        { w with
          res := { w.res with
            headers := (w.res.headers.set cfg.headerName.toLowerCase w.correlationId).set
              "Content-Type".toLowerCase "application/json" } } := by
  rw [jsonResponder, contentResponder, Effect.bind_of_ok (Effect.get_apply w),
    if_neg (by simp [hsent]), setStatus, Effect.bind_of_ok (Effect.modify_apply _ w)]
  have hadd : ∀ w' : World V, w'.res.head = none → w'.correlationId ≠ "" →
      addCorrelationHeader cfg w' = (.ok (), { w' with
        res := { w'.res with
          headers := w'.res.headers.set cfg.headerName.toLowerCase w'.correlationId } }) := by
    intro w' hhead' hid'
    rw [addCorrelationHeader, Effect.bind_of_ok (Effect.get_apply w'), if_pos hid',
      setHeader_of_unsent hhead']
  rw [Effect.bind_of_ok (hadd _ (by exact hhead) (by exact hid)),
    Effect.bind_of_ok (setHeader_of_unsent (by exact hhead) _ _)]
  rfl

/-- The message with which `JSON.stringify` throws on the details of what was thrown. -/
def Thrown.stringifyError (cfg : Config V) : Thrown V → Option String
  | .blaize body => body.details.stringifyError cfg
  | _ => none

omit hcfg in
lemma stringifyError_formatErrorResponse (w : World V) (error : Thrown V) :
    (formatErrorResponse w error).details.stringifyError cfg = error.stringifyError cfg := by
  cases error with
  | blaize error => rfl
  | error message => rfl
  | value text => rfl

/-- The error response as the boundary makes it. -/
def boundaryBody (cfg : Config V) (error : Thrown V) (w : World V) : BlaizeError V :=
  { formatErrorResponse w error with correlationId := (boundaryId cfg w).1 }

/-- The world in which the boundary turns the error response into a text: the header of the
boundary's id was replaced by the responder's. -/
def boundaryWorld (cfg : Config V) (error : Thrown V) (w : World V) : World V :=
  { w with
    generated := (boundaryId cfg w).2
    res := { w.res with
      statusCode := (boundaryBody cfg error w).status
      headers := ((w.res.headers.set cfg.headerName.toLowerCase (boundaryId cfg w).1).set
        cfg.headerName.toLowerCase w.correlationId).set "Content-Type".toLowerCase
          "application/json" } }

omit hcfg in
/-- The error boundary before anything was sent, up to `JSON.stringify`. -/
lemma catchError_of_unsent {error : Thrown V} (hsent : w.sent = false)
    (hhead : w.res.head = none) (hid : w.correlationId ≠ "") :
    catchError cfg error w =
      (do stringify cfg (.error (boundaryBody cfg error w))
          send (some (.error (boundaryBody cfg error w))) : Run V Unit)
        (boundaryWorld cfg error w) := by
  have hextract : extractOrGenerateCorrelationId cfg w =
      (.ok (boundaryId cfg w).1, { w with generated := (boundaryId cfg w).2 }) := rfl
  have hstatus : ∀ (code : ℕ) (w' : World V), w'.sent = false → statusSetter code w' =
      (.ok (), { w' with res := { w'.res with statusCode := code } }) := by
    intro code w' hsent'
    rw [statusSetter, Effect.bind_of_ok (Effect.get_apply w'), if_neg (by simp [hsent'])]
    rfl
  rw [catchError, Effect.bind_of_ok (Effect.get_apply w), if_neg (by simp [hsent]),
    Effect.bind_of_ok hextract, Effect.bind_of_ok (headerSetter_of_unsent (by exact hsent)
      (by exact hhead) _ _), Effect.bind_of_ok (hstatus _ _ (by exact hsent)),
    errorJson_of_unsent (by exact hsent) (by exact hhead) (by exact hid)]
  rfl

omit hcfg in
lemma stringify_boundaryBody (error : Thrown V) (w w' : World V) :
    stringify cfg (.error (boundaryBody cfg error w)) w' =
      match error.stringifyError cfg with
      | some message => (.error (.error message), w')
      | none => (.ok (), w') := by
  have hbody : (Payload.error (boundaryBody cfg error w)).stringifyError cfg =
      error.stringifyError cfg := stringifyError_formatErrorResponse w error
  simp only [stringify, hbody]
  cases error.stringifyError cfg <;> rfl

/-- **The error boundary's response** to an error before anything was sent: the header has the
id of the request handler, the body the one of the boundary. -/
lemma catchError_of_written {error : Thrown V} (h : Marked cfg start w) (hsent : w.sent = false)
    (hhead : w.res.head = none) (hid : w.correlationId ≠ "")
    (hwritten : error.stringifyError cfg = none) :
    ∃ w', catchError cfg error w = (.ok (), w') ∧ w'.correlationId = w.correlationId ∧
      w'.res.ended = true ∧
      (∃ head, w'.res.head = some head ∧
        head.headers.get cfg.headerName.toLowerCase = some w.correlationId) ∧
      ∃ body, w'.res.body = [.error body] ∧ body.correlationId = (boundaryId cfg w).1 := by
  obtain ⟨hbody, hended, -⟩ := h.unsent hhead
  have hstringify : stringify cfg (.error (boundaryBody cfg error w)) (boundaryWorld cfg error w) =
      _ := stringify_boundaryBody error w _
  rw [hwritten] at hstringify
  rw [catchError_of_unsent hsent hhead hid, Effect.bind_of_ok hstringify, send,
    Effect.modify_apply]
  refine ⟨_, rfl, rfl, ?_, ?_, ?_⟩
  · simp only [boundaryWorld, Res.end, hended, Bool.false_eq_true, if_false]
  · simp only [boundaryWorld, Res.end, hended, Bool.false_eq_true, if_false, Res.flush, hhead]
    refine ⟨_, rfl, ?_⟩
    rw [Option.getD_none, OrdMap.get_set_ne _ _ hcfg.contentType, OrdMap.get_set_self]
  · simp only [boundaryWorld, Res.end, hended, Bool.false_eq_true, if_false, hbody]
    exact ⟨_, rfl, rfl⟩

omit hcfg in
/-- An error response that cannot be written is thrown out of the boundary. -/
lemma catchError_of_unwritten {error : Thrown V} {message : String} (hsent : w.sent = false)
    (hhead : w.res.head = none) (hid : w.correlationId ≠ "")
    (hwritten : error.stringifyError cfg = some message) :
    catchError cfg error w = (.error (.error message), boundaryWorld cfg error w) := by
  have hstringify : stringify cfg (.error (boundaryBody cfg error w)) (boundaryWorld cfg error w) =
      _ := stringify_boundaryBody error w _
  rw [hwritten] at hstringify
  rw [catchError_of_unsent hsent hhead hid, Effect.bind_of_error hstringify]

omit hcfg in
/-- An error after the head was sent leaves the response as it is. -/
lemma catchError_of_headersSent {error : Thrown V} (h : Marked cfg start w)
    (hsent : w.sent = true ∨ w.res.headersSent = true) :
    ∃ generated, Marked cfg { start with generated := generated } (catchError cfg error w).2 ∧
      (catchError cfg error w).2.bare = w.bare ∧
      ((catchError cfg error w).1 = .ok () ∨
        (catchError cfg error w).2.res.headersSent = true) := by
  have hbump : ∀ generated, Marked cfg { start with generated := generated }
      { w with generated := generated } := fun generated =>
    ⟨h.id, h.headers, rfl, h.body, h.unsent, h.head, h.piped, h.own⟩
  rw [catchError, Effect.bind_of_ok (Effect.get_apply w)]
  by_cases hs : w.sent = true
  · rw [if_pos hs]
    exact ⟨start.generated, h, rfl, .inl rfl⟩
  have hheaders : w.res.headersSent = true := hsent.resolve_left hs
  have hextract : extractOrGenerateCorrelationId cfg w =
      (.ok (boundaryId cfg w).1, { w with generated := (boundaryId cfg w).2 }) := rfl
  obtain ⟨e, hthrow⟩ : ∃ e, headerSetter cfg.headerName (boundaryId cfg w).1
      { w with generated := (boundaryId cfg w).2 } =
        (.error e, { w with generated := (boundaryId cfg w).2 }) := by
    refine ⟨.error "Cannot set headers after they are sent to the client", ?_⟩
    rw [headerSetter, Effect.bind_of_ok (Effect.get_apply _), if_neg hs, setHeader,
      Res.setHeader, if_pos hheaders]
  rw [if_neg hs, Effect.bind_of_ok hextract, Effect.bind_of_error hthrow]
  exact ⟨_, hbump _, rfl, .inr hheaders⟩

omit hcfg

/-- An error response was sent: one id in the header, one in the body. -/
structure ErrorSent (cfg : Config V) (headerId bodyId : String) (w : World V) : Prop where
  id : w.correlationId = headerId
  ended : w.res.ended = true
  head : ∃ head, w.res.head = some head ∧
    head.headers.get cfg.headerName.toLowerCase = some headerId
  body : ∃ payload, w.res.body = [payload] ∧ payload.correlationId = some bodyId

/-- What was ended is not written to any more. -/
lemma ErrorSent.deliver {headerId bodyId : String} (h : ErrorSent cfg headerId bodyId w)
    (event : ℕ × StreamEvent) : ErrorSent cfg headerId bodyId (w.deliver event) := by
  have hreceive : ErrorSent cfg headerId bodyId (w.receive event.2) := by
    cases event.2 with
    | data bytes =>
        rw [World.receive, Res.write, if_pos h.ended]
        exact ⟨h.id, h.ended, h.head, h.body⟩
    | «end» =>
        rw [World.receive, Res.end, if_pos h.ended]
        exact ⟨h.id, h.ended, h.head, h.body⟩
    | error =>
        rw [World.receive]
        split
        · exact h
        · rw [Res.end, if_pos (by exact h.ended)]
          exact ⟨h.id, h.ended, h.head, h.body⟩
  rw [World.deliver]
  split
  · exact ⟨hreceive.id, hreceive.ended, hreceive.head, hreceive.body⟩
  · exact h

lemma ErrorSent.deliver_all {headerId bodyId : String} (h : ErrorSent cfg headerId bodyId w)
    (events : List (ℕ × StreamEvent)) :
    ErrorSent cfg headerId bodyId (events.foldl World.deliver w) := by
  induction events generalizing w with
  | nil => exact h
  | cons event events ih => exact ih (h.deliver event)

lemma ErrorSent.drain {headerId bodyId : String} (h : ErrorSent cfg headerId bodyId w) :
    ErrorSent cfg headerId bodyId w.drain := by
  have hw := h.deliver_all w.arrivals.flatten
  exact ⟨hw.id, hw.ended, hw.head, hw.body⟩

lemma errorSent_tick {headerId bodyId : String} :
    Within (Keeping (ErrorSent cfg headerId bodyId)) (tick : Run V Unit) := by
  intro w h
  rw [tick, Effect.modify_apply]
  dsimp only
  split
  next => exact h
  next events arrivals _ =>
      have hw := h.deliver_all events
      exact ⟨hw.id, hw.ended, hw.head, hw.body⟩

lemma Marked.drain (h : Marked cfg start w) : Marked cfg start w.drain := by
  have hw := h.deliver_all w.arrivals.flatten
  exact ⟨hw.id, hw.headers, hw.generated, hw.body, hw.unsent, hw.head, hw.piped, hw.own⟩

/-- The readables go through a responder, which has set the header. -/
lemma bare_deliver_all (events : List (ℕ × StreamEvent)) (w : World V) :
    (events.foldl World.deliver w).bare = w.bare := by
  induction events generalizing w with
  | nil => rfl
  | cons event events ih =>
      rw [List.foldl_cons, ih, World.deliver]
      split
      · cases event.2 with
        | data bytes => rfl
        | «end» => rfl
        | error =>
            rw [World.receive]
            split
            · rfl
            · rfl
      · rfl

lemma bare_tick (w : World V) : (tick w).2.bare = w.bare := by
  rw [tick, Effect.modify_apply]
  dsimp only
  split
  · rfl
  · exact bare_deliver_all _ w

/-! ### The ids of a request -/

/-- What the error boundary guards throws the error before anything was sent. -/
structure Failed (error : Thrown V) (result : Except (Thrown V) Unit × World V) : Prop where
  thrown : result.1 = .error error
  sent : result.2.sent = false
  head : result.2.res.head = none

/-- An error reaches the error boundary before anything was sent, and can be written. -/
def FailsUnsent (cfg : Config V) (truthy : V → Bool) (server : ServerInstance V)
    (incoming : Incoming V) : Prop :=
  incoming.contextError = none ∧ ∃ error,
    Failed error (guarded cfg truthy server (tick (incoming.world cfg)).2) ∧
      error.stringifyError cfg = none

/-- A middleware or the handler writes past the responders before one of them was called. -/
def SendsBare (cfg : Config V) (truthy : V → Bool) (server : ServerInstance V)
    (incoming : Incoming V) : Prop :=
  incoming.contextError = none ∧
    (guarded cfg truthy server (tick (incoming.world cfg)).2).2.bare = true

lemma boundaryId_congr (h : Marked cfg start w) : boundaryId cfg w = boundaryId cfg start := by
  rw [boundaryId, boundaryId, Request.header, Request.header, h.headers, h.generated]

/-- The response to an error outside the error boundary. -/
lemma errorSent_unhandledError (hcfg : cfg.HasOwnHeader) (hhead : w.res.head = none)
    (hbody : w.res.body = []) (isHttp2 : Bool) :
    ErrorSent cfg w.correlationId w.correlationId (w.unhandledError cfg isHttp2) := by
  have hcontentType : "content-type" ≠ cfg.headerName.toLowerCase := by
    rw [show "content-type" = "Content-Type".toLowerCase by decide]
    exact hcfg.contentType
  rw [World.unhandledError, Res.headersSent, hhead, if_neg (by simp)]
  refine ⟨rfl, rfl, ⟨_, rfl, ?_⟩, ?_⟩
  · dsimp only
    rw [OrdMap.get_set_ne _ _ hcontentType, OrdMap.get_set_self]
  · simp only [hbody, List.nil_append]
    exact ⟨_, rfl, rfl⟩

/-- What the error boundary does with what it guards. -/
lemma errorBoundary_cases (hcfg : cfg.HasOwnHeader) {next : Run V Unit}
    (hmarked : Marked cfg start (next w).2) (hid : start.correlationId ≠ "") :
    (∃ error, Failed error (next w) ∧ error.stringifyError cfg = none ∧
        ∃ w', errorBoundary cfg next w = (.ok (), w') ∧
          ErrorSent cfg start.correlationId (boundaryId cfg start).1 w') ∨
      (∃ error, Failed error (next w) ∧ error.stringifyError cfg ≠ none ∧
        ∃ e w', errorBoundary cfg next w = (.error e, w') ∧
          w'.correlationId = start.correlationId ∧ w'.res.head = none ∧ w'.res.body = []) ∨
      ((∀ error, ¬ Failed error (next w)) ∧
        ∃ generated, Marked cfg { start with generated := generated }
            (errorBoundary cfg next w).2 ∧
          (errorBoundary cfg next w).2.bare = (next w).2.bare ∧
          ((errorBoundary cfg next w).1 = .ok () ∨
            (errorBoundary cfg next w).2.res.headersSent = true)) := by
  cases hresult : (next w).1 with
  | ok u =>
      have hrun : errorBoundary cfg next w = (.ok (), (tick (next w).2).2) := by
        rw [errorBoundary, Effect.tryCatch_of_ok (awaitNext_of_ok hresult)]
      refine .inr (.inr ⟨fun error h => ?_, start.generated, ?_, ?_, .inl ?_⟩)
      · rw [h.thrown] at hresult
        cases hresult
      · rw [hrun]
        exact marked_tick _ hmarked
      · rw [hrun]
        exact bare_tick _
      · rw [hrun]
  | error error =>
      have hrun : awaitNext next w = (.error error, (next w).2) :=
        Effect.bind_of_error (Prod.ext hresult rfl)
      rw [errorBoundary, Effect.tryCatch_of_error hrun]
      by_cases hunsent : (next w).2.sent = false ∧ (next w).2.res.head = none
      · have hfailed : Failed error (next w) := ⟨hresult, hunsent.1, hunsent.2⟩
        have hid' : (next w).2.correlationId ≠ "" := hmarked.id ▸ hid
        cases hwritten : error.stringifyError cfg with
        | none =>
            obtain ⟨w', hcatch, hsame, hended, hhead, body, hbody, hbodyId⟩ :=
              catchError_of_written hcfg hmarked hunsent.1 hunsent.2 hid' hwritten
            rw [hmarked.id] at hsame hhead
            rw [boundaryId_congr hmarked] at hbodyId
            exact .inl ⟨error, hfailed, hwritten, w', hcatch, hsame, hended, hhead,
              .error body, hbody, congrArg some hbodyId⟩
        | some message =>
            exact .inr (.inl ⟨error, hfailed, by simp [hwritten], _, _,
              catchError_of_unwritten hunsent.1 hunsent.2 hid' hwritten, hmarked.id, hunsent.2,
              (hmarked.unsent hunsent.2).1⟩)
      · refine .inr (.inr ⟨fun error' h => hunsent ⟨h.sent, h.head⟩,
          catchError_of_headersSent hmarked ?_⟩)
        rcases not_and_or.mp hunsent with h | h
        · exact .inl (by simpa using h)
        · exact .inr (by simpa [Res.headersSent, Option.isSome_iff_ne_none] using h)

lemma Failed.unique {error error' : Thrown V} {result : Except (Thrown V) Unit × World V}
    (h : Failed error result) (h' : Failed error' result) : error = error' :=
  Except.error.inj (h.thrown.symm.trans h'.thrown)

/-- **The three ways a request ends**: outside the error boundary, with an error response of
the boundary, or with what the application wrote. -/
lemma createRequestHandler_cases {server : ServerInstance V} (truthy : V → Bool)
    (hcfg : cfg.HasOwnHeader)
    (hserver : server.LeavesHeader cfg.headerName) (incoming : Incoming V)
    (hid : (incoming.world cfg).correlationId ≠ "") :
    (¬ SendsBare cfg truthy server incoming ∧ ¬ FailsUnsent cfg truthy server incoming ∧
        ErrorSent cfg (incoming.world cfg).correlationId (incoming.world cfg).correlationId
          (createRequestHandler cfg truthy server incoming)) ∨
      (¬ SendsBare cfg truthy server incoming ∧ FailsUnsent cfg truthy server incoming ∧
        ErrorSent cfg (incoming.world cfg).correlationId
          (boundaryId cfg (incoming.world cfg)).1
          (createRequestHandler cfg truthy server incoming)) ∨
      (¬ FailsUnsent cfg truthy server incoming ∧ ∃ generated,
        Marked cfg { incoming.world cfg with generated := generated }
          (createRequestHandler cfg truthy server incoming) ∧
        ((createRequestHandler cfg truthy server incoming).bare = true ↔
          SendsBare cfg truthy server incoming)) := by
  obtain ⟨w, htick⟩ : ∃ w, tick (incoming.world cfg) = (.ok (), w) := ⟨_, rfl⟩
  have hmarked : Marked cfg (incoming.world cfg) w := by
    have := marked_tick _ (marked_world cfg incoming)
    rwa [htick] at this
  have hfirst : w = { incoming.world cfg with arrivals := incoming.arrivals.tail } := by
    have := tick_of_piped (w := incoming.world cfg) rfl
    exact congrArg Prod.snd (htick.symm.trans this)
  cases hcontext : incoming.contextError with
  | some error =>
      refine .inl ⟨fun h => ?_, fun h => ?_, ?_⟩
      · simp [h.1] at hcontext
      · simp [h.1] at hcontext
      · have herror := errorSent_unhandledError (w := w) hcfg (by rw [hfirst]; rfl)
          (by rw [hfirst]; rfl) incoming.isHttp2
        rw [hmarked.id] at herror
        rw [createRequestHandler, processRequest, Effect.bind_of_ok htick, hcontext]
        exact herror
  | none =>
      have hprocess : processRequest cfg truthy server incoming (incoming.world cfg) =
          (do errorBoundary cfg (guarded cfg truthy server); tick; tick : Run V Unit) w := by
        rw [processRequest, Effect.bind_of_ok htick, hcontext]
      have hguarded : Marked cfg (incoming.world cfg) (guarded cfg truthy server w).2 :=
        marked_guarded hcfg hserver w hmarked
      have hbare : ∀ {error}, Failed error (guarded cfg truthy server w) →
          ¬ (guarded cfg truthy server w).2.bare = true := by
        intro error h
        simp [(hguarded.unsent h.head).2.2]
      rw [createRequestHandler, hprocess, FailsUnsent, SendsBare, htick, hcontext]
      rcases errorBoundary_cases hcfg hguarded hid with
        ⟨error, hfailed, hwritten, w', hrun, hw'⟩ | ⟨error, hfailed, hwritten, e, w', hrun, hw'⟩ |
          ⟨hnever, generated, hw', hsame, hend⟩
      · refine .inr (.inl ⟨fun h => hbare hfailed h.2, ⟨rfl, error, hfailed, hwritten⟩, ?_⟩)
        rw [Effect.bind_of_ok hrun]
        exact errorSent_tick _ (errorSent_tick _ hw')
      · refine .inl ⟨fun h => hbare hfailed h.2, fun ⟨_, error', h, hnone⟩ => ?_, ?_⟩
        · exact hwritten (hfailed.unique h ▸ hnone)
        · rw [Effect.bind_of_error hrun, ← hw'.1]
          exact errorSent_unhandledError hcfg hw'.2.1 hw'.2.2 incoming.isHttp2
      refine .inr (.inr ⟨fun ⟨_, error, h, _⟩ => hnever error h, generated, ?_⟩)
      cases hresult : (errorBoundary cfg (guarded cfg truthy server) w).1 with
      | ok u =>
          rw [Effect.bind_of_ok (Prod.ext hresult rfl)]
          have hticks : (tick (tick (errorBoundary cfg (guarded cfg truthy server) w).2).2).2.bare =
              (guarded cfg truthy server w).2.bare :=
            (bare_tick _).trans ((bare_tick _).trans hsame)
          refine ⟨marked_tick _ (marked_tick _ hw'), ?_⟩
          rw [← hticks]
          exact ⟨fun h => ⟨rfl, h⟩, fun h => h.2⟩
      | error error =>
          rw [hresult] at hend
          rw [Effect.bind_of_error (Prod.ext hresult rfl)]
          dsimp only
          rw [World.unhandledError, if_pos (hend.resolve_left (by simp)), hsame]
          exact ⟨hw', by simp⟩

/-- The id that the request brings, its header being found in lower case. -/
def Incoming.requestId (cfg : Config V) (incoming : Incoming V) : Option String :=
  (incoming.request.headers.get cfg.headerName.toLowerCase).bind HeaderValue.correlationId

/-- **One correlation id**: in the head of the response, in the body of an error response, in
what `getCorrelationId` answers and in the header of the request. -/
structure OneId (cfg : Config V) (incoming : Incoming V) (w : World V) : Prop where
  header : ∀ head, w.res.head = some head →
    head.headers.get cfg.headerName.toLowerCase = some w.getCorrelationId
  body : ∀ payload ∈ w.res.body, ∀ id ∈ payload.correlationId, id = w.getCorrelationId
  request : ∀ id ∈ incoming.requestId cfg, w.getCorrelationId = id

/-- The generator gives new ids: no two are the same, none is blank, and none came with the
request. -/
structure Config.GeneratesFresh (cfg : Config V) (incoming : Incoming V) : Prop where
  injective : Function.Injective cfg.generator
  notBlank : ∀ n, notBlank (cfg.generator n) = true
  notRequestId : ∀ n, incoming.requestId cfg ≠ some (cfg.generator n)
  notHeader : ∀ n, incoming.request.header cfg.headerName ≠ some (cfg.generator n)

/-- The head is not sent past the responders; and the request brings an id, which the request
handler finds, as the error boundary does if an error reaches it in time, or it brings none
and no such error is there. -/
def Traceable (cfg : Config V) (truthy : V → Bool) (server : ServerInstance V)
    (incoming : Incoming V) : Prop :=
  ¬ SendsBare cfg truthy server incoming ∧
    match incoming.requestId cfg with
    | some id => cfg.headerName.toLowerCase = cfg.headerName ∧
        (FailsUnsent cfg truthy server incoming →
          incoming.request.header cfg.headerName = some id)
    | none => ¬ FailsUnsent cfg truthy server incoming

lemma HeaderValue.notBlank_of_correlationId {value : HeaderValue} {id : String}
    (h : value.correlationId = some id) : notBlank id = true := by
  cases value with
  | single text =>
      rw [correlationId] at h
      split at h
      next hb => rwa [← Option.some.inj h]
      next => cases h
  | many values => exact (Option.filter_eq_some_iff.mp h).2

/-- The id of a request is the one it brings, if its header has the configured name to the
letter, and else the first of the generator. -/
lemma world_correlationId (cfg : Config V) (incoming : Incoming V)
    (hkeys : ∀ name value, incoming.request.headers.get name = some value →
      name.toLowerCase = name) :
    (incoming.world cfg).correlationId =
        (if cfg.headerName.toLowerCase = cfg.headerName then
          (incoming.requestId cfg).getD (cfg.generator 0) else cfg.generator 0) ∧
      (incoming.requestId cfg = none → (incoming.world cfg).generated = 1) := by
  have hexact : (incoming.request.headers.get cfg.headerName).bind HeaderValue.correlationId =
      if cfg.headerName.toLowerCase = cfg.headerName then incoming.requestId cfg else none := by
    split
    next hlower => rw [Incoming.requestId, hlower]
    next hlower =>
        cases hget : incoming.request.headers.get cfg.headerName with
        | none => rfl
        | some value => exact absurd (hkeys _ _ hget) hlower
  rw [Incoming.world, createCorrelationIdFromHeaders, hexact]
  by_cases hlower : cfg.headerName.toLowerCase = cfg.headerName
  · rw [if_pos hlower, if_pos hlower]
    cases incoming.requestId cfg <;> simp
  · rw [if_neg hlower, if_neg hlower]
    exact ⟨rfl, fun _ => rfl⟩

lemma getCorrelationId_of_notBlank (h : notBlank w.correlationId = true) :
    w.getCorrelationId = w.correlationId := by
  rw [World.getCorrelationId, if_neg]
  simpa [notBlank] using h

lemma ne_empty_of_notBlank {text : String} (h : notBlank text = true) : text ≠ "" := by
  rintro rfl
  cases h

/-- The ids of an error response. -/
lemma oneId_of_errorSent {incoming : Incoming V} {headerId bodyId : String}
    (h : ErrorSent cfg headerId bodyId w) (hblank : notBlank headerId = true) :
    OneId cfg incoming w ↔ bodyId = headerId ∧ ∀ id ∈ incoming.requestId cfg, headerId = id := by
  have hget : w.getCorrelationId = headerId := by
    rw [getCorrelationId_of_notBlank (h.id ▸ hblank), h.id]
  obtain ⟨head, hhead, hheader⟩ := h.head
  obtain ⟨payload, hbody, hpayload⟩ := h.body
  constructor
  · intro hone
    refine ⟨?_, fun id hmem => hget ▸ hone.request id hmem⟩
    rw [← hget]
    exact hone.body payload (by simp [hbody]) bodyId hpayload
  · rintro ⟨rfl, hrequest⟩
    refine ⟨fun head' hhead' => ?_, fun payload' hmem id hid => ?_, fun id hmem => ?_⟩
    · obtain rfl : head = head' := Option.some.inj (hhead.symm.trans hhead')
      rw [hheader, hget]
    · rw [hbody, List.mem_singleton] at hmem
      rw [hmem, hpayload] at hid
      rw [hget, ← Option.some.inj hid]
    · rw [hget, hrequest id hmem]

/-- The ids of every other response. -/
lemma oneId_of_marked {incoming : Incoming V} (h : Marked cfg start w)
    (hblank : notBlank start.correlationId = true) :
    OneId cfg incoming w ↔
      w.bare = false ∧ ∀ id ∈ incoming.requestId cfg, start.correlationId = id := by
  have hget : w.getCorrelationId = start.correlationId := by
    rw [getCorrelationId_of_notBlank (h.id ▸ hblank), h.id]
  constructor
  · refine fun hone => ⟨?_, fun id hmem => hget ▸ hone.request id hmem⟩
    by_contra hbare
    cases hhead : w.res.head with
    | none => exact hbare (h.unsent hhead).2.2
    | some head =>
        have hnone := h.head head hhead
        rw [if_pos (by simpa using hbare), hone.header head hhead] at hnone
        cases hnone
  · rintro ⟨hbare, hrequest⟩
    refine ⟨fun head hhead => ?_, fun payload hmem id hid => ?_, fun id hmem => ?_⟩
    · rw [h.head head hhead, hbare, if_neg Bool.false_ne_true, hget, mark, h.id,
        if_neg (ne_empty_of_notBlank hblank)]
    · rw [h.body payload hmem] at hid
      cases hid
    · rw [hget, hrequest id hmem]

/-- The id of the error boundary is the text of the header, or one of the generator. -/
lemma boundaryId_cases (cfg : Config V) (w : World V) :
    (∃ text, w.request.header cfg.headerName = some text ∧ (boundaryId cfg w).1 = text) ∨
      ((boundaryId cfg w).1 = cfg.generator w.generated ∧
        ∀ text, w.request.header cfg.headerName = some text → notBlank text = false) := by
  rw [boundaryId]
  cases w.request.header cfg.headerName with
  | none => exact .inr ⟨rfl, fun _ h => by cases h⟩
  | some text =>
      cases hblank : notBlank text with
      | true =>
          refine .inl ⟨text, rfl, ?_⟩
          simp [createCorrelationIdFromHeaders, HeaderValue.correlationId, hblank]
      | false =>
          refine .inr ⟨?_, fun text' h => by rw [← Option.some.inj h, hblank]⟩
          simp [createCorrelationIdFromHeaders, HeaderValue.correlationId, hblank]

/-- The id of a request is not blank. -/
lemma notBlank_world (cfg : Config V) (incoming : Incoming V)
    (hkeys : ∀ name value, incoming.request.headers.get name = some value →
      name.toLowerCase = name) (hfresh : cfg.GeneratesFresh incoming) :
    notBlank (incoming.world cfg).correlationId = true := by
  rw [(world_correlationId cfg incoming hkeys).1]
  split
  next =>
      cases hrequest : incoming.requestId cfg with
      | none => exact hfresh.notBlank 0
      | some id =>
          obtain ⟨value, -, hvalue⟩ := Option.bind_eq_some_iff.mp hrequest
          exact HeaderValue.notBlank_of_correlationId hvalue
  next => exact hfresh.notBlank 0

/-- The id that a request brings is kept if and only if the configured name is in lower case. -/
lemma world_correlationId_iff (cfg : Config V) (incoming : Incoming V)
    (hkeys : ∀ name value, incoming.request.headers.get name = some value →
      name.toLowerCase = name) (hfresh : cfg.GeneratesFresh incoming) :
    (∀ id ∈ incoming.requestId cfg, (incoming.world cfg).correlationId = id) ↔
      ∀ id ∈ incoming.requestId cfg, cfg.headerName.toLowerCase = cfg.headerName := by
  refine forall₂_congr fun id hmem => ?_
  rw [(world_correlationId cfg incoming hkeys).1]
  split
  next hlower => simp [hlower, Option.mem_def.mp hmem]
  next hlower =>
      refine iff_of_false (fun h => hfresh.notRequestId 0 ?_) hlower
      rw [h]
      exact hmem

/-- The generator writes one more letter each time. -/
def countingConfig : Config String where
  generator := fun n => String.ofList (List.replicate (n + 1) 'r')

lemma countingConfig_injective : Function.Injective countingConfig.generator := by
  intro m n h
  have hlength := congrArg (fun text : String => text.toList.length) h
  simpa [countingConfig] using hlength

lemma countingConfig_notBlank (n : ℕ) : notBlank (countingConfig.generator n) = true := by
  have hdrop : (List.replicate (n + 1) 'r').dropWhile Js.isWhiteSpace =
      List.replicate (n + 1) 'r' := by
    rw [List.replicate_succ, List.dropWhile_cons_of_neg (by decide)]
  simp [notBlank, countingConfig, Js.trim, hdrop]

def failingServer : ServerInstance String where
  routeMatch := .matched { handler := fun _ => .throw (.error "Database is down") } ""

lemma failingServer_leavesHeader (name : String) : failingServer.LeavesHeader name :=
  ⟨fun m hm => by simp [failingServer] at hm, fun route params h => by
    obtain ⟨rfl, rfl⟩ := RouteMatch.matched.inj h
    exact ⟨fun m hm => by simp at hm, fun _ => .throw _⟩⟩

def requestWith (headers : OrdMap String HeaderValue) : Incoming String where
  request :=
    { method := "GET", path := "/", headers := headers, params := "", query := "", body := "",
      files := "" }

end Blaize.Server
