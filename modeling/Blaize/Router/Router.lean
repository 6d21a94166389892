import Blaize.Lib.Machine
import Blaize.Router.Matcher

/-!
The router's two stores and what updates them (`packages/blaize-core/src/router/`).

The registry (`registry/fast-registry.ts`) knows the routes by path and the paths by source, a
file, a directory or `programmatic`; the matcher answers requests.  Every update goes through
`updateRoutesFromFile`, which compares the new routes with those of the same source, and
`applyMatcherChanges`, which repeats the difference in the matcher; the callback for a removed
file only touches the matcher.

* `updateRoutesFromFile`, `applyRouteUpdates`, `routesEqual`: the registry;
* `applyMatcherChanges`: the matcher, up to the first path that does not compile;
* `step`: one load, watcher event or call of the public methods.
-/

namespace Blaize.Router

variable {O : Type}

/-- A route with its handlers by method, in the order of its keys; a method may be there
without options. -/
structure Route (O : Type) where
  path : String
  handlers : OrdMap HttpMethod (Option O)

/-- The options of a route for a method. -/
def Route.options (route : Route O) (method : HttpMethod) : Option O :=
  (route.handlers.get method).join

/-! ### The registry -/

/-- The routes by their paths and by their files. -/
structure RouteRegistry (O : Type) where
  routesByPath : OrdMap String (Route O) := ∅
  routesByFile : OrdMap String (OrdSet String) := ∅
  pathToFile : OrdMap String String := ∅

/-- What a file has changed. -/
structure RouteChanges (O : Type) where
  added : List (Route O)
  removed : List String
  changed : List (Route O)

/-- The structure of two routes is compared: the paths, the number of methods, and for each
method of the first whether both have options (`typeof handler1 === typeof handler2`). -/
def routesEqual (route1 route2 : Route O) : Bool :=
  route1.path = route2.path && route1.handlers.size = route2.handlers.size &&
    route1.handlers.keys.all fun method =>
      (route1.options method).isSome = (route2.options method).isSome

namespace RouteRegistry

variable (registry : RouteRegistry O)

/-- The paths that a file has registered. -/
def pathsOf (filePath : String) : OrdSet String := (registry.routesByFile.get filePath).getD ∅

/-- The options that the registry has for a path and a method. -/
def options (path : String) (method : HttpMethod) : Option O :=
  (registry.routesByPath.get path).bind (·.options method)

/-- The registry after the changes of a file. -/
def applyRouteUpdates (filePath : String) (updates : RouteChanges O) : RouteRegistry O :=
  let routes := updates.added ++ updates.changed
  let allPathsForFile : OrdSet String :=
    (updates.added.map Route.path ++ updates.changed.map Route.path ++
        (registry.pathsOf filePath).keys.filter fun path => ! updates.removed.contains path).foldl
      OrdSet.add ∅
  { routesByPath := routes.foldl (fun m route => m.set route.path route)
      (updates.removed.foldl OrdMap.delete registry.routesByPath)
    pathToFile := routes.foldl (fun m route => m.set route.path filePath)
      (updates.removed.foldl OrdMap.delete registry.pathToFile)
    routesByFile :=
      if allPathsForFile.size > 0 then registry.routesByFile.set filePath allPathsForFile
      else registry.routesByFile.delete filePath }

/-- The difference between some routes and those of a source. -/
def changesFrom (filePath : String) (newRoutes : List (Route O)) : RouteChanges O where
  added := newRoutes.filter fun route => ! (registry.pathsOf filePath).has route.path
  removed := (registry.pathsOf filePath).keys.filter fun path => ! newRoutes.any (·.path = path)
  changed := (newRoutes.filter fun route => (registry.pathsOf filePath).has route.path).filter
    fun route =>
      match registry.routesByPath.get route.path with
      | none => true
      | some existingRoute => ! routesEqual existingRoute route

/-- The changes of a file, and the registry after them. -/
def updateRoutesFromFile (filePath : String) (newRoutes : List (Route O)) :
    RouteChanges O × RouteRegistry O :=
  let changes := registry.changesFrom filePath newRoutes
  (changes, registry.applyRouteUpdates filePath changes)

end RouteRegistry

/-! ### The matcher -/

/-- `forEach` with a callback that may throw: `false` is answered when it did, with the state
that it left. -/
def forEach {α σ : Type} (f : α → σ → Bool × σ) : List α → σ → Bool × σ
  | [], s => (true, s)
  | a :: l, s =>
      match f a s with
      | (true, s') => forEach f l s'
      | (false, s') => (false, s')

/-- Adds the methods of a route, up to the first one that throws. -/
def addRouteToMatcher (route : Route O) : Matcher O → Bool × Matcher O :=
  forEach (fun entry matcher =>
    match entry with
    | (_, none) => (true, matcher)
    | (method, some methodOptions) =>
        match matcher.add route.path method methodOptions with
        | some matcher' => (true, matcher')
        | none => (false, matcher)) route.handlers.entries

/-- Removes all methods of a path. -/
def removeRouteFromMatcher (path : String) (matcher : Matcher O) : Matcher O := matcher.remove path

/-- Removes a path and adds its route again. -/
def updateRouteInMatcher (route : Route O) (matcher : Matcher O) : Bool × Matcher O :=
  addRouteToMatcher route (removeRouteFromMatcher route.path matcher)

/-- Removes, adds, updates, until something throws. -/
def applyMatcherChanges (changes : RouteChanges O) (matcher : Matcher O) : Bool × Matcher O :=
  let matcher := changes.removed.foldl
    (fun matcher path => removeRouteFromMatcher path matcher) matcher
  match forEach addRouteToMatcher changes.added matcher with
  | (true, matcher) => forEach updateRouteInMatcher changes.changed matcher
  | (false, matcher) => (false, matcher)

/-! ### The router -/

/-- The registry and the matcher. -/
structure RouterState (O : Type) where
  registry : RouteRegistry O := {}
  matcher : Matcher O := .empty

/-- What happens to a router.  The routes of a directory that was added with a prefix come
with the prefix, on loading and on its file events. -/
inductive Action (O : Type) where
  | load (directory : String) (pathPrefix : Option String) (routes : List (Route O))
  | fileAdded (filepath : String) (pathPrefix : Option String) (routes : List (Route O))
  | fileChanged (filepath : String) (pathPrefix : Option String) (routes : List (Route O))
  | fileRemoved (filepath : String) (pathPrefix : Option String) (routes : List (Route O))
  | addRoute (route : Route O)
  | addRoutes (routes : List (Route O))

/-- `prefix ? { ...route, path: prefix + route.path } : route`. -/
def withPrefix (pathPrefix : Option String) (route : Route O) : Route O :=
  match pathPrefix with
  | none => route
  | some text => if text = "" then route else { route with path := text ++ route.path }

namespace RouterState

/-- The source of the routes that are added by hand. -/
def programmatic : String := "programmatic"

/-- The registry is updated, and then the matcher as far as it goes.  Whether the error is
thrown on or reported makes no difference to the two. -/
def update (s : RouterState O) (source : String) (routes : List (Route O)) : RouterState O :=
  let (changes, registry) := s.registry.updateRoutesFromFile source routes
  { registry := registry, matcher := (applyMatcherChanges changes s.matcher).2 }

/-- The callback for a removed file. -/
def removeRoutes (s : RouterState O) (routes : List (Route O)) : RouterState O :=
  { s with matcher :=
      routes.foldl (fun matcher route => removeRouteFromMatcher route.path matcher) s.matcher }

/-- What an action does; `none`: it cannot happen. -/
def step (s : RouterState O) : Action O → Option (RouterState O)
  | .load directory pathPrefix routes =>
      some (s.update directory (routes.map (withPrefix pathPrefix)))
  | .fileAdded filepath pathPrefix routes =>
      some (s.update filepath (routes.map (withPrefix pathPrefix)))
  | .fileChanged filepath pathPrefix routes =>
      some (s.update filepath (routes.map (withPrefix pathPrefix)))
  | .fileRemoved _ pathPrefix routes => some (s.removeRoutes (routes.map (withPrefix pathPrefix)))
  | .addRoute route => some (s.update programmatic [route])
  | .addRoutes routes => some (s.update programmatic routes)

end RouterState

end Blaize.Router
