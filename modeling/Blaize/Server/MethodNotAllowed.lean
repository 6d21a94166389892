import Blaize.Router.Specificity
import Blaize.Server.Executor

/-!
A path that only routes of other methods match.

The router answers with `status(405).json(…)`, which sends the response, and sets the header
`Allow` after it.

* `matchRequest`: the answer of a matcher to a request, whose method may be any text;
* `OtherMethodsOnly`, `matchRequest_of_otherMethods`: then the answer has the methods that match;
* `ensures_json`: what returns from `json` has sent the response;
* `handleRequest_throws`: **the router throws**;
* `not_answeredCompletely`: **the method is never answered completely**.
-/

namespace Blaize.Server

open Router (Matcher HttpMethod RouteEntry)

/-! ### The matcher -/

section

variable {O : Type} (exec : String → List Char → Option (List (List Char)))

/-- `match` for the method of a request. -/
def matchRequest (matcher : Matcher O) (path : List Char) (method : String) :
    Option (Router.RouteMatch O) :=
  let pathname := path.takeWhile (· ≠ '?')
  if pathname = [] then none
  else
    match matcher.routes.find? fun route =>
      methodName route.method = method && route.test exec pathname with
    | some route =>
        some (.found route.routeOptions
          (Router.extractParamsBy exec path route.pattern route.paramNames))
    | none =>
        if matcher.routes.any fun route =>
          methodName route.method ≠ method && route.test exec path then
          some (.methodNotAllowed
            ((matcher.routes.filter (·.test exec path)).map RouteEntry.method))
        else none

lemma methodName_injective : Function.Injective methodName := by
  intro m m' h
  cases m <;> cases m' <;> first | rfl | exact absurd h (by decide)

/-- For the methods that routes can have it is the answer of `matchRoute`. -/
lemma matchRequest_methodName (matcher : Matcher O) (path : List Char) (method : HttpMethod) :
    matchRequest exec matcher path (methodName method) =
      Router.matchRoute exec matcher path method := by
  apply Eq.trans
  · simp only [matchRequest, methodName_injective.eq_iff, ne_eq]
    rfl
  · rfl

/-- The path is matched, but only by routes of other methods. -/
structure OtherMethodsOnly (matcher : Matcher O) (path : List Char) (method : String) : Prop where
  matched : ∃ route ∈ matcher.routes, route.test exec path = true
  others : ∀ route ∈ matcher.routes, route.test exec path = true → methodName route.method ≠ method

variable {exec} {matcher : Matcher O} {path : List Char} {method : String}

/-- The methods of the routes that match, unless the path is empty. -/
lemma matchRequest_of_otherMethods (hquery : '?' ∉ path)
    (h : OtherMethodsOnly exec matcher path method) :
    matchRequest exec matcher path method =
      if path = [] then none
      else some (.methodNotAllowed
        ((matcher.routes.filter (·.test exec path)).map RouteEntry.method)) := by
  have hpathname : path.takeWhile (· ≠ '?') = path := by
    refine List.takeWhile_eq_self_iff.mpr fun c hc => decide_eq_true ?_
    rintro rfl
    exact hquery hc
  have hnone : (matcher.routes.find? fun route =>
      methodName route.method = method && route.test exec path) = none := by
    refine List.find?_eq_none.mpr fun route hroute hboth => ?_
    obtain ⟨hmethod, htest⟩ := Bool.and_eq_true_iff.mp hboth
    exact h.others route hroute htest (of_decide_eq_true hmethod)
  have hany : (matcher.routes.any fun route =>
      methodName route.method ≠ method && route.test exec path) = true := by
    obtain ⟨route, hroute, htest⟩ := h.matched
    refine List.any_eq_true.mpr ⟨route, hroute, ?_⟩
    rw [htest, Bool.and_true]
    exact decide_eq_true (h.others route hroute htest)
  rw [matchRequest, hpathname, hnone, hany]
  rfl

/-- They are some. -/
lemma OtherMethodsOnly.methods_ne (h : OtherMethodsOnly exec matcher path method) :
    (matcher.routes.filter (·.test exec path)).map RouteEntry.method ≠ [] := by
  obtain ⟨route, hroute, htest⟩ := h.matched
  exact List.ne_nil_of_mem (List.mem_map_of_mem (List.mem_filter.mpr ⟨hroute, htest⟩))

end

/-! ### Sending -/

variable {V : Type} {cfg : Config V}

lemma ensures_anything {α : Type} (x : Run V α) :
    Ensures (fun _ => True) x (fun _ => True) fun _ => True := by
  intro w _
  split <;> trivial

lemma ensures_contentResponder (contentType : String) (payload : Payload V)
    (status : Option ℕ) :
    Ensures (fun _ => True) (contentResponder cfg contentType payload status)
      (fun w => w.sent = true) fun _ => True := by
  refine (ensures_anything Effect.get).bind fun w => ?_
  split
  · exact fun _ _ => trivial
  · refine (ensures_anything _).bind fun _ => (ensures_anything _).bind fun _ =>
      (ensures_anything _).bind fun _ => (ensures_anything _).bind fun _ => ?_
    exact fun _ _ => rfl

/-- What returns from `json`, with a validator or without, has sent the response. -/
lemma ensures_json (body : V) (status : Option ℕ) :
    Ensures (fun _ => True) (json cfg body status) (fun w => w.sent = true) fun _ => True := by
  refine (ensures_anything Effect.get).bind fun w => ?_
  split
  · exact ensures_contentResponder _ _ _
  · split
    · exact ensures_contentResponder _ _ _
    · split
      · exact ensures_contentResponder _ _ _
      · exact (ensures_anything _).bind fun _ _ _ => trivial

/-- Nothing is set on a response that was sent. -/
lemma headerSetter_of_sent {w : World V} (h : w.sent = true) (name value : String) :
    headerSetter name value w =
      (.error (.error "Cannot set header after response has been sent"), w) := by
  rw [headerSetter, Effect.bind_of_ok (Effect.get_apply w), if_pos h]
  rfl

/-- **The header comes after the response: the router throws, whatever the response was.** -/
theorem handleRequest_throws (cfg : Config V) (truthy : V → Bool) (body : V)
    {allowedMethods : List HttpMethod} (hne : allowedMethods ≠ []) (w : World V) :
    ∃ e, (handleRequest cfg truthy (.methodNotAllowed body allowedMethods) w).1 = .error e := by
  have hensures : Ensures (fun _ => True)
      (handleRequest cfg truthy (.methodNotAllowed body allowedMethods))
      (fun _ => False) fun _ => True := by
    rw [handleRequest]
    refine (ensures_anything _).bind fun _ => (ensures_anything Effect.get).bind fun w => ?_
    dsimp only
    refine (ensures_anything _).bind fun _ => (ensures_json body none).bind fun _ => ?_
    rw [if_pos hne]
    intro w hsent
    rw [headerSetter_of_sent hsent]
    trivial
  have hw := hensures w trivial
  split at hw
  next => exact hw.elim
  next e _ hrun => exact ⟨e, by rw [hrun]⟩

/-! ### What was sent -/

/-- A response on which nothing has happened that a client could see. -/
structure Untouched (w : World V) : Prop where
  sent : w.sent = false
  head : w.res.head = none
  ended : w.res.ended = false
  body : w.res.body = []
  responseCheck : w.responseCheck = none
  piped : w.piped = 0

/-! ### The answer -/

/-- What the router does with a request: the match is handed on, with the body of the answer to
a method that is not allowed and the parameters as values. -/
def routeRequest (cfg : Config V) (truthy : V → Bool) (notAllowed : List HttpMethod → V)
    (params : OrdMap String String → V) (exec : String → List Char → Option (List (List Char)))
    (matcher : Matcher (RouteMethodOptions V)) : Run V Unit := fun w =>
  handleRequest cfg truthy
    (match matchRequest exec matcher w.request.path.toList w.request.method with
      | none => .noMatch
      | some (.found route values) => .matched route (params values)
      | some (.methodNotAllowed methods) => .methodNotAllowed (notAllowed methods) methods) w

/-- A complete answer: the router returns, one response was sent, its status is 405, and its
header lists the methods of the routes that match, and no others. -/
structure AnsweredCompletely (exec : String → List Char → Option (List (List Char)))
    (matcher : Matcher (RouteMethodOptions V)) (path : List Char)
    (result : Except (Thrown V) Unit × World V) : Prop where
  returns : result.1 = .ok ()
  sent : result.2.res.ended = true ∧ result.2.res.body.length = 1
  head : ∃ (head : Head) (methods : List HttpMethod), result.2.res.head = some head ∧
    head.statusCode = 405 ∧
    head.headers.get "allow" = some (", ".intercalate (methods.map methodName)) ∧
    ∀ method, method ∈ methods ↔
      ∃ route ∈ matcher.routes, route.test exec path = true ∧ route.method = method

section

variable (cfg : Config V) (truthy : V → Bool) (notAllowed : List HttpMethod → V)
  (params : OrdMap String String → V) (exec : String → List Char → Option (List (List Char)))
  (matcher : Matcher (RouteMethodOptions V)) (w : World V)

variable {exec matcher w} in
/-- With an empty path there is no match at all, and that throws too. -/
lemma routeRequest_throws (hquery : '?' ∉ w.request.path.toList)
    (h : OtherMethodsOnly exec matcher w.request.path.toList w.request.method) :
    ∃ e, (routeRequest cfg truthy notAllowed params exec matcher w).1 = .error e := by
  rw [routeRequest, matchRequest_of_otherMethods hquery h]
  by_cases hempty : w.request.path.toList = []
  · rw [if_pos hempty]
    exact ⟨_, rfl⟩
  · rw [if_neg hempty]
    exact handleRequest_throws cfg truthy _ h.methods_ne w

lemma not_answered_of_throws {path : List Char} {result : Except (Thrown V) Unit × World V}
    (h : ∃ e, result.1 = .error e) : ¬ AnsweredCompletely exec matcher path result := by
  intro hanswered
  obtain ⟨e, he⟩ := h
  rw [hanswered.returns] at he
  cases he

/-- **A request whose path is matched only by routes of other methods is never answered
completely: the router throws, whatever was registered and whatever was sent before.** -/
theorem not_answeredCompletely (hquery : '?' ∉ w.request.path.toList)
    (h : OtherMethodsOnly exec matcher w.request.path.toList w.request.method) :
    ¬ AnsweredCompletely exec matcher w.request.path.toList
      (routeRequest cfg truthy notAllowed params exec matcher w) :=
  not_answered_of_throws exec matcher (routeRequest_throws cfg truthy notAllowed params hquery h)

end

/-! ### A request -/

/-- A route that lists users. -/
def listUsers : RouteMethodOptions ℕ where
  handler _ := .ret (some 0)

def users : Matcher (RouteMethodOptions ℕ) := Matcher.run [.add "/users" .GET listUsers]

/-- `POST /users` -/
def postUsers : World ℕ where
  request := { method := "POST", path := "/users", params := 0, query := 0, body := 0, files := 0 }
  correlationId := ""

lemma otherMethodsOnly_users :
    OtherMethodsOnly Router.execPattern users "/users".toList "POST" := by
  have hroutes : users.routes = [⟨⟨"^/users(?:/)?$", []⟩, "/users", .GET, listUsers⟩] := by rfl
  have htest : RouteEntry.test Router.execPattern
      (⟨⟨"^/users(?:/)?$", []⟩, "/users", .GET, listUsers⟩ : RouteEntry (RouteMethodOptions ℕ))
      "/users".toList = true := by rfl
  refine ⟨⟨_, hroutes ▸ List.mem_singleton_self _, htest⟩, fun route hroute _ => ?_⟩
  rw [hroutes, List.mem_singleton] at hroute
  rw [hroute]
  decide

lemma untouched_postUsers : Untouched postUsers := ⟨rfl, rfl, rfl, rfl, rfl, rfl⟩

theorem not_answeredCompletely_users :
    ¬ AnsweredCompletely Router.execPattern users postUsers.request.path.toList
      (routeRequest { generator := toString } (· ≠ 0) (fun _ => 1) (fun _ => 2) Router.execPattern
        users postUsers) :=
  not_answeredCompletely _ _ _ _ Router.execPattern users postUsers (by decide)
    otherMethodsOnly_users

/-- A `POST` for users is answered with 405, without the header, and then the router throws. -/
theorem not_answered_users :
    ¬ ∀ (matcher : Matcher (RouteMethodOptions ℕ)) (w : World ℕ), Untouched w →
      '?' ∉ w.request.path.toList →
      OtherMethodsOnly Router.execPattern matcher w.request.path.toList w.request.method →
      AnsweredCompletely Router.execPattern matcher w.request.path.toList
        (routeRequest { generator := toString } (· ≠ 0) (fun _ => 1) (fun _ => 2)
          Router.execPattern matcher w) := by
  intro h
  have hanswered := h users postUsers untouched_postUsers (by decide) otherMethodsOnly_users
  exact not_answered_of_throws Router.execPattern users
    (routeRequest_throws _ _ _ _ (by decide) otherMethodsOnly_users) hanswered

end Blaize.Server
