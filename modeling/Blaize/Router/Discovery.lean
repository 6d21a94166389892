import Blaize.Router.Router

/-!
How the router finds, loads and watches route files
(`packages/blaize-core/src/router/discovery/`).

A file is loaded by importing its module; the first load takes a whole directory, and later
each change that the watcher reports starts a debounced callback for its file.  A load waits
for the disk several times, and loads of one file may overlap.

* `parseRoutePath`, `loadRouteModule`: the routes of a file;
* `hashRoutes`, `hasRouteContentChanged`: the comparison with what was loaded before;
* `start`: the first load (`loadRoutesFromDirectory` with `loadInitialRoutesParallel`);
* `write`, `unlink`: what happens on the disk;
* `report`, `fire`, `advance`: the watcher's report of a change, the end of a debounce
  timer (`createDebouncedCallback`), and the pieces of `loadAndNotify` between two waits.

Changes are reported in their order, each at any time after it happened, and timers and
waiting loads go on in any order.  The paths that the watcher reports are normalized, so
`path.normalize` changes nothing.
-/

namespace Blaize.Router

variable {O : Type}

/-! ### The path of a route -/

/-- A file with the route that its path names. -/
structure ParsedRoute where
  filePath : String
  routePath : String
  params : List String
  deriving DecidableEq, Repr

/-- `path.replace('file://', '')` for a path that starts so. -/
def stripFileUrl (path : List Char) : List Char :=
  if "file://".toList.isPrefixOf path then path.drop 7 else path

/-- `path.replace(/\\/g, '/')`. -/
def forwardSlashes (path : List Char) : List Char := path.map fun c => if c = '\\' then '/' else c

/-- `path.replace(/\.[^.]+$/, '')`. -/
def dropExtension (path : List Char) : List Char :=
  match path.reverse.takeWhile (· ≠ '.'), path.reverse.dropWhile (· ≠ '.') with
  | _ :: _, _ :: before => before.reverse
  | _, _ => path

/-- Whether a segment is a parameter in brackets. -/
def isParam (segment : List Char) : Bool :=
  segment.head? = some '[' && segment.getLast? = some ']'

/-- The name between the brackets. -/
def paramName (segment : List Char) : List Char := (segment.drop 1).dropLast

/-- `path.split('/').filter(Boolean)`. -/
def segmentsOf (path : List Char) : List (List Char) :=
  (path.splitOn '/').filter fun segment => ! segment.isEmpty

/-- A file path below a base path; `relative` is `path.relative`. -/
def relativePath (relative : String → String → String) (file base : List Char) : List Char :=
  let normalizedBase := if base.getLast? = some '/' then base else base ++ ['/']
  if normalizedBase.isPrefixOf file then
    file.drop normalizedBase.length
  else if base.isPrefixOf file then
    match file.drop base.length with
    | '/' :: rest => rest
    | rest => rest
  else
    forwardSlashes (relative (.ofList base) (.ofList file)).toList

/-- `slice(0, -6) || '/'` for a path that ends with `/index`. -/
def dropIndex (routePath : List Char) : List Char :=
  if "/index".toList.isSuffixOf routePath then
    match routePath.take (routePath.length - 6) with
    | [] => ['/']
    | path => path
  else
    routePath

/-- The route of a file below the base directory. -/
def parseRoutePath (relative : String → String → String) (filePath basePath : String) :
    ParsedRoute :=
  let file := stripFileUrl filePath.toList
  let base := forwardSlashes (stripFileUrl basePath.toList)
  let segments := segmentsOf (dropExtension (relativePath relative (forwardSlashes file) base))
  let routeSegments := segments.map fun segment =>
    if isParam segment then ':' :: paramName segment else segment
  let routePath := if routeSegments.isEmpty then ['/'] else routeSegments.flatMap ('/' :: ·)
  { filePath := .ofList file
    routePath := .ofList (dropIndex routePath)
    params := (segments.filter isParam).map fun segment => .ofList (paramName segment) }

example : (parseRoutePath (fun _ file => file) "/app/routes/users/[id]/index.ts" "/app/routes") =
    ⟨"/app/routes/users/[id]/index.ts", "/users/:id", ["id"]⟩ := by decide

/-! ### Loading a file -/

/-- What the comparison of two versions of a file looks at. -/
structure MethodSignature where
  handler : Option String := none
  middleware : ℕ := 0
  hasSchema : Bool := false
  schemaKeys : List String := []
  deriving DecidableEq, Repr

/-- The objects that a module exports, each with its options by method. -/
structure RouteModule (O : Type) where
  defaultExport : Option (OrdMap HttpMethod (Option O)) := none
  namedExports : List (OrdMap HttpMethod (Option O)) := []

/-- A file on the disk; its module may fail to load. -/
structure RouteFile (O : Type) where
  mtime : ℕ
  exports : Option (RouteModule O)

/-- The directory and the functions of the platform.  `md5` is the digest of the JSON text,
`loadedAs` the absolute path under which the first load finds a file of the watcher. -/
structure Discovery (O : Type) where
  routesDir : String
  relative : String → String → String
  describe : O → MethodSignature
  md5 : List (String × List (HttpMethod × MethodSignature)) → String
  loadedAs : String → String

/-- What is kept of a file. -/
structure FileCache (O : Type) where
  routes : List (Route O)
  timestamp : ℕ
  hash : String

/-- The methods in the order of the source. -/
def httpMethods : List HttpMethod := [.GET, .POST, .PUT, .DELETE, .PATCH, .HEAD, .OPTIONS]

/-- The methods in the order in which `sort()` puts their names. -/
def sortedMethods : List HttpMethod := [.DELETE, .GET, .HEAD, .OPTIONS, .PATCH, .POST, .PUT]

/-- A file name that the first load takes. -/
def isRouteFile (filename : String) : Bool :=
  filename.toList.head? ≠ some '_' &&
    (".ts".toList.isSuffixOf filename.toList || ".js".toList.isSuffixOf filename.toList)

/-- The name of a file without its directories. -/
def baseName (filePath : String) : String :=
  .ofList (filePath.toList.reverse.takeWhile (· ≠ '/')).reverse

namespace Discovery

variable (env : Discovery O)

/-- The route path of a file in the directory. -/
def routePath (filePath : String) : String :=
  (parseRoutePath env.relative filePath env.routesDir).routePath

/-- Whether an object that a module exports by name looks like a route. -/
def isValidRoute (handlers : OrdMap HttpMethod (Option O)) : Bool :=
  httpMethods.any fun method =>
    (handlers.get method).join.any fun options => (env.describe options).handler.isSome

/-- The routes of a file; there are none when it is missing or its module fails to load. -/
def loadRouteModule (filePath : String) (file : Option (RouteFile O)) : List (Route O) :=
  match file.bind RouteFile.exports with
  | none => []
  | some exports =>
      (exports.defaultExport.toList ++ exports.namedExports.filter env.isValidRoute).map
        fun handlers => ⟨env.routePath filePath, handlers⟩

/-- The hash of the routes of a file. -/
def hashRoutes (routes : List (Route O)) : String :=
  env.md5 (routes.map fun route =>
    (route.path, (sortedMethods.filter route.handlers.has).map fun method =>
      (method, ((route.options method).map env.describe).getD {})))

end Discovery

/-! ### Watching -/

/-- What the file watcher reports. -/
inductive FileEvent where
  | add
  | change
  | unlink
  deriving DecidableEq, Repr

/-- What is debounced: both `add` and `change` load the file. -/
inductive Callback where
  | loadAndNotify
  | handleRemoved
  deriving DecidableEq, Repr

/-- What is done about it. -/
def FileEvent.callback : FileEvent → Callback
  | .add => .loadAndNotify
  | .change => .loadAndNotify
  | .unlink => .handleRemoved

/-- Where a call of `loadAndNotify` waits: for the first `stat` and module, before it compares
what it read, for the second `stat` and module, and before it notifies the router. -/
inductive LoadPc (O : Type) where
  | stat
  | load
  | compare (newRoutes : List (Route O))
  | statAgain (newRoutes : List (Route O))
  | loadAgain (newRoutes : List (Route O)) (lastModified : ℕ)
  | notify (newRoutes : List (Route O))

/-- A file that is being loaded. -/
structure Load (O : Type) where
  filePath : String
  existingRoutes : Option (List (Route O))
  pc : LoadPc O := .stat

/-- The disk, the watcher with its timers, loads and table, the file cache and the router. -/
structure HotReload (O : Type) where
  disk : OrdMap String (RouteFile O) := ∅
  unreported : List (String × FileEvent) := []
  debouncedCallbacks : OrdMap String Callback := ∅
  loads : List (Load O) := []
  routesByPath : OrdMap String (List (Route O)) := ∅
  fileRouteCache : OrdMap String (FileCache O) := ∅
  router : RouterState O := {}

namespace HotReload

/-- What can happen next. -/
inductive Action (O : Type) where
  | write (filePath : String) (file : RouteFile O)
  | unlink (filePath : String)
  | report
  | fire (filePath : String)
  | settle (load : ℕ)

variable (env : Discovery O) (s : HotReload O)

/-- Whether the routes of a file differ from those that are kept. -/
def hasRouteContentChanged (filePath : String) (newRoutes : List (Route O)) : Bool :=
  match s.fileRouteCache.get filePath with
  | none => true
  | some cachedEntry => cachedEntry.hash ≠ env.hashRoutes newRoutes

/-- A file is created or changed. -/
def write (filePath : String) (file : RouteFile O) : HotReload O :=
  { s with
    disk := s.disk.set filePath file
    unreported := s.unreported ++ [(filePath, if s.disk.has filePath then .change else .add)] }

/-- A file is deleted. -/
def unlink (filePath : String) : HotReload O :=
  { s with
    disk := s.disk.delete filePath
    unreported := s.unreported ++ [(filePath, .unlink)] }

/-- The watcher reports the next change, which restarts the timer of the file. -/
def report : Option (HotReload O) :=
  match s.unreported with
  | [] => none
  | (filePath, event) :: unreported => some { s with
      unreported := unreported
      debouncedCallbacks := s.debouncedCallbacks.set filePath event.callback }

/-- `handleRemoved` with `onRouteRemoved`. -/
def handleRemoved (filePath : String) : HotReload O :=
  match s.routesByPath.get filePath with
  | some (route :: routes) => { s with
      router := s.router.removeRoutes (route :: routes)
      fileRouteCache := s.fileRouteCache.delete filePath
      routesByPath := s.routesByPath.delete filePath }
  | some [] => { s with routesByPath := s.routesByPath.delete filePath }
  | none => s

/-- The timer of a file ends. -/
def fire (filePath : String) : Option (HotReload O) :=
  match s.debouncedCallbacks.get filePath with
  | none => none
  | some .loadAndNotify => some { s with
      debouncedCallbacks := s.debouncedCallbacks.delete filePath
      loads := s.loads ++ [⟨filePath, s.routesByPath.get filePath, .stat⟩] }
  | some .handleRemoved => some
      ({ s with debouncedCallbacks := s.debouncedCallbacks.delete filePath }.handleRemoved
        filePath)

/-- A load goes on to another place. -/
def goOn (i : ℕ) (load : Load O) (pc : LoadPc O) : HotReload O :=
  { s with loads := s.loads.set i { load with pc := pc } }

/-- A load returns. -/
def finish (i : ℕ) : HotReload O := { s with loads := s.loads.eraseIdx i }

/-- Whether the cache has the file as it is. -/
def isCached (filePath : String) (lastModified : ℕ) : Bool :=
  (s.fileRouteCache.get filePath).any fun cachedEntry => cachedEntry.timestamp = lastModified

/-- One piece of `loadAndNotify`, with the two calls of `processChangedFile` in it. -/
def advance (i : ℕ) (load : Load O) : HotReload O :=
  match load.pc with
  | .stat =>
      if s.disk.has load.filePath then s.goOn i load .load else s.finish i
  | .load =>
      s.goOn i load (.compare (env.loadRouteModule load.filePath (s.disk.get load.filePath)))
  | .compare newRoutes =>
      if newRoutes.isEmpty then
        s.finish i
      else if load.existingRoutes.isSome && ! s.hasRouteContentChanged env load.filePath newRoutes
      then
        s.finish i
      else
        s.goOn i load (.statAgain newRoutes)
  | .statAgain newRoutes =>
      match s.disk.get load.filePath with
      | none => s.finish i
      | some file =>
          if s.isCached load.filePath file.mtime then
            s.goOn i load (.notify newRoutes)
          else
            s.goOn i load (.loadAgain newRoutes file.mtime)
  | .loadAgain newRoutes lastModified =>
      let routes := env.loadRouteModule load.filePath (s.disk.get load.filePath)
      { s with
        fileRouteCache := s.fileRouteCache.set load.filePath
          ⟨routes, lastModified, env.hashRoutes routes⟩ }.goOn i load (.notify newRoutes)
  | .notify newRoutes =>
      { s with
        routesByPath := s.routesByPath.set load.filePath newRoutes
        router := s.router.update load.filePath newRoutes }.finish i

/-- What an action does; `none`: it cannot happen. -/
def step : Action O → Option (HotReload O)
  | .write filePath file => some (s.write filePath file)
  | .unlink filePath => if s.disk.has filePath then some (s.unlink filePath) else none
  | .report => s.report
  | .fire filePath => s.fire filePath
  | .settle i =>
      match s.loads[i]? with
      | some load => some (s.advance env i load)
      | none => none

/-- The routes of the files that the first load takes. -/
def initialRoutes (disk : OrdMap String (RouteFile O)) : List (Route O) :=
  (disk.entries.filter fun entry => isRouteFile (baseName entry.1)).flatMap fun entry =>
    env.loadRouteModule (env.loadedAs entry.1) (some entry.2)

/-- The cache after the first load. -/
def initialCache (disk : OrdMap String (RouteFile O)) : OrdMap String (FileCache O) :=
  (disk.entries.filter fun entry => isRouteFile (baseName entry.1)).foldl (fun cache entry =>
    let routes := env.loadRouteModule (env.loadedAs entry.1) (some entry.2)
    cache.set (env.loadedAs entry.1) ⟨routes, entry.2.mtime, env.hashRoutes routes⟩) ∅

/-- The first load of a directory; when it throws, nothing is watched. -/
def start (disk : OrdMap String (RouteFile O)) : Option (HotReload O) :=
  let (changes, registry) :=
    ({} : RouteRegistry O).updateRoutesFromFile env.routesDir (initialRoutes env disk)
  match applyMatcherChanges changes .empty with
  | (true, matcher) => some {
      disk := disk
      fileRouteCache := initialCache env disk
      router := { registry := registry, matcher := matcher } }
  | (false, _) => none

/-- Nothing is left to report, no timer runs and no load waits. -/
def Quiescent : Prop :=
  s.unreported = [] ∧ s.debouncedCallbacks.entries = [] ∧ s.loads = []

end HotReload

end Blaize.Router
