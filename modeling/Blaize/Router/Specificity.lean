import Blaize.Lib.StableInsertion
import Blaize.Router.Params

/-!
Does the matcher pick the most specific route (`matcher.ts`)?

Regular expressions are a parameter: `exec` has the groups of the match of a pattern with a text.

* `matchRoute`: the answer of a matcher to a path and a method;
* `MatcherCall`, `Matcher.run`: calls of `add`, `remove` and `clear`;
* `registered`: the routes that were added and not removed, in the order of their addition;
* `routes_run`: a matcher has these routes, those with fewer parameters first;
* `Answered`: what is wanted of an answer;
* `answered_matchRoute`: **every path with a text and without a query is answered so**.
-/

namespace Blaize.Router

open StableInsertion

variable {O : Type}

/-! ### Matching -/

section

variable (exec : String → List Char → Option (List (List Char)))

/-- `extractParams` with the given regular expressions. -/
def extractParamsBy (path : List Char) (pattern : String) (paramNames : List String) :
    OrdMap String String :=
  match exec pattern path with
  | none => ∅
  | some groups =>
      paramNames.zipIdx.foldl
        (fun params p =>
          if p.1 = "__proto__" then params
          else params.set p.1 (String.ofList (groups[p.2]?.getD []))) ∅

/-- `null` is no answer. -/
inductive RouteMatch (O : Type) where
  | found (route : O) (params : OrdMap String String)
  | methodNotAllowed (allowedMethods : List HttpMethod)

/-- `pattern.test(path)` -/
def RouteEntry.test (route : RouteEntry O) (path : List Char) : Bool :=
  (exec route.pattern path).isSome

/-- `match` -/
def matchRoute (matcher : Matcher O) (path : List Char) (method : HttpMethod) :
    Option (RouteMatch O) :=
  let pathname := path.takeWhile (· ≠ '?')
  if pathname = [] then none
  else
    match matcher.routes.find? fun route => route.method = method && route.test exec pathname with
    | some route =>
        some (.found route.routeOptions
          (extractParamsBy exec path route.pattern route.paramNames))
    | none =>
        if matcher.routes.any fun route => route.method ≠ method && route.test exec path then
          some (.methodNotAllowed
            ((matcher.routes.filter (·.test exec path)).map RouteEntry.method))
        else none

end

/-! ### Calls -/

inductive MatcherCall (O : Type) where
  | add (path : String) (method : HttpMethod) (routeOptions : O)
  | remove (path : String)
  | clear

namespace Matcher

/-- A call of `add` that throws leaves the matcher as it is. -/
def call (matcher : Matcher O) : MatcherCall O → Matcher O
  | .add path method routeOptions => (matcher.add path method routeOptions).getD matcher
  | .remove path => matcher.remove path
  | .clear => .empty

def run (calls : List (MatcherCall O)) : Matcher O := calls.foldl call .empty

end Matcher

/-- The registered routes after one more call. -/
def registeredAfter (registered : List (RouteEntry O)) : MatcherCall O → List (RouteEntry O)
  | .add path method routeOptions =>
      match compilePathPattern path with
      | some pattern => registered ++ [⟨pattern, path, method, routeOptions⟩]
      | none => registered
  | .remove path => registered.filter (·.path ≠ path)
  | .clear => []

/-- The routes that were added and not removed, in the order of their addition. -/
def registered (calls : List (MatcherCall O)) : List (RouteEntry O) :=
  calls.foldl registeredAfter []

/-! ### The routes of a matcher -/

/-- The number of parameters of a route. -/
def RouteEntry.params (route : RouteEntry O) : ℕ := route.paramNames.length

lemma insertEntry_eq (entry : RouteEntry O) (routes : List (RouteEntry O)) :
    insertEntry entry routes = insertBy RouteEntry.params entry routes := by
  induction routes with
  | nil => rfl
  | cons route routes ih =>
      rw [insertEntry, insertBy, ih]
      rfl

/-- **A matcher has the registered routes, those with fewer parameters first.** -/
theorem routes_run (calls : List (MatcherCall O)) :
    (Matcher.run calls).routes = sortBy RouteEntry.params (registered calls) := by
  induction calls using List.reverseRecOn with
  | nil => rfl
  | append_singleton calls call ih =>
      rw [Matcher.run, registered, List.foldl_append, List.foldl_append, ← Matcher.run,
        ← registered, List.foldl_cons, List.foldl_cons, List.foldl_nil, List.foldl_nil]
      cases call with
      | add path method routeOptions =>
          rw [Matcher.call, Matcher.add]
          split
          next h =>
            have hafter : registeredAfter (registered calls) (.add path method routeOptions) =
                registered calls := by rw [registeredAfter, h]
            rw [hafter]
            exact ih
          next pattern h =>
            have hafter : registeredAfter (registered calls) (.add path method routeOptions) =
                registered calls ++ [⟨pattern, path, method, routeOptions⟩] := by
              rw [registeredAfter, h]
            rw [hafter, sortBy_concat, Option.getD_some, ← ih]
            exact insertEntry_eq _ _
      | remove path =>
          rw [Matcher.call, registeredAfter, ← filter_sortBy, ← ih]
          rfl
      | clear => rfl

/-! ### Answers -/

variable (exec : String → List Char → Option (List (List Char)))

/-- What is wanted of an answer: of the routes that match, one with the method, with as few
parameters as any other such route and before those with as many; without one, the methods of all;
and without any, no answer. -/
structure Answered (routes : List (RouteEntry O)) (path : List Char) (method : HttpMethod)
    (answer : Option (RouteMatch O)) : Prop where
  found : ∀ route ∈ (routes.filter fun route =>
      route.method = method && route.test exec path).argmin RouteEntry.params,
    answer = some (.found route.routeOptions
      (extractParamsBy exec path route.pattern route.paramNames))
  methodNotAllowed : (∀ route ∈ routes, route.test exec path = true → route.method ≠ method) →
    (∃ route ∈ routes, route.test exec path = true) →
      ∃ methods, answer = some (.methodNotAllowed methods) ∧
        methods.Perm ((routes.filter (·.test exec path)).map RouteEntry.method)
  notFound : (∀ route ∈ routes, route.test exec path = false) → answer = none

/-- **A matcher answers every path that is not empty and has no query so.** -/
theorem answered_matchRoute (calls : List (MatcherCall O)) {path : List Char} (hne : path ≠ [])
    (hquery : '?' ∉ path) (method : HttpMethod) :
    Answered exec (registered calls) path method
      (matchRoute exec (Matcher.run calls) path method) := by
  have hpathname : path.takeWhile (· ≠ '?') = path := by
    rw [List.takeWhile_eq_self_iff]
    intro c hc
    refine decide_eq_true ?_
    rintro rfl
    exact hquery hc
  have hmem : ∀ route, route ∈ (Matcher.run calls).routes ↔ route ∈ registered calls := by
    intro route
    rw [routes_run]
    exact (perm_sortBy _).mem_iff
  have hfind := @find?_sortBy _ _ _ RouteEntry.params
    (fun route => route.method = method && route.test exec path) (registered calls)
  rw [← routes_run] at hfind
  rw [matchRoute, hpathname, if_neg hne, hfind]
  refine ⟨fun route hroute => ?_, fun hother hsome => ?_, fun hnone => ?_⟩
  · rw [Option.mem_def.mp hroute]
  · have hempty : (registered calls).filter
        (fun route => route.method = method && route.test exec path) = [] := by
      rw [List.filter_eq_nil_iff]
      intro route hroute h
      rw [Bool.and_eq_true] at h
      exact hother route hroute h.2 (of_decide_eq_true h.1)
    rw [hempty, List.argmin_nil]
    dsimp only
    rw [if_pos]
    · refine ⟨_, rfl, ?_⟩
      rw [routes_run]
      exact ((perm_sortBy _).filter _).map _
    · obtain ⟨route, hroute, htest⟩ := hsome
      rw [List.any_eq_true]
      exact ⟨route, (hmem route).mpr hroute, by simpa [htest] using hother route hroute htest⟩
  · have hempty : (registered calls).filter
        (fun route => route.method = method && route.test exec path) = [] := by
      rw [List.filter_eq_nil_iff]
      intro route hroute h
      rw [Bool.and_eq_true, hnone route hroute] at h
      exact Bool.false_ne_true h.2
    rw [hempty, List.argmin_nil]
    dsimp only
    rw [if_neg]
    rw [Bool.not_eq_true, List.any_eq_false]
    intro route hroute h
    rw [Bool.and_eq_true, hnone route ((hmem route).mp hroute)] at h
    exact Bool.false_ne_true h.2

/-- A static route, and one with a parameter that was there before. -/
theorem answered_matchRoute_users :
    ∃ params, matchRoute execPattern (Matcher.run [.add "/users/:id" .GET 1,
      .add "/users/me" .GET 2]) "/users/me".toList .GET = some (.found 2 params) := by
  have h := answered_matchRoute execPattern
    [.add "/users/:id" .GET 1, .add "/users/me" .GET 2] (by decide : "/users/me".toList ≠ [])
    (by decide) .GET
  exact ⟨_, h.found ⟨⟨"^/users/me(?:/)?$", []⟩, "/users/me", .GET, 2⟩ (by rfl)⟩

/-- The route of the empty path is not found for the empty path. -/
theorem not_answered_matchRoute :
    ¬ ∀ (calls : List (MatcherCall ℕ)) (path : List Char) (method : HttpMethod), '?' ∉ path →
      Answered execPattern (registered calls) path method
        (matchRoute execPattern (Matcher.run calls) path method) := by
  intro h
  have hfound := (h [.add "" .GET 1] [] .GET List.not_mem_nil).found
    ⟨⟨"^(?:/)?$", []⟩, "", .GET, 1⟩ (by rfl)
  cases hfound

end Blaize.Router
