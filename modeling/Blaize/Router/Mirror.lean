import Blaize.Router.Discovery
import Blaize.Router.Update

/-!
Does hot reload mirror the disk?

Four places remember routes: the watcher's table, the file cache, the registry and the
matcher, and each learns of a change under its own conditions.  The table does not know the
files of the first load, the cache compares signatures, the registry compares the methods of
a route only and is not told of removals, and a load may notify what is no longer there.

* `exported`: the routes of the files that are present;
* `Handled`: the steps that all four places follow;
* `Tracks`: the invariant, kept by every such step (`step_tracks`): a file whose change is
  not still to come is served as it is, or is being loaded;
* `mirrors_of_handled`: **a run of such steps ends with the routes of the disk**, once
  nothing is pending;
* `not_mirrors`: a file that was there at the start is changed and still served as before.
-/

namespace Blaize.Router

open Machine

variable {O : Type}

namespace HotReload

variable (env : Discovery O) (s : HotReload O)

/-! ### The routes of the disk -/

/-- The routes that a file exports. -/
def routesOf (filePath : String) : List (Route O) :=
  env.loadRouteModule filePath (s.disk.get filePath)

/-- The options that the files of a disk export for a path and a method. -/
def exported (disk : OrdMap String (RouteFile O)) (path : String) (method : HttpMethod) :
    Option O :=
  optionsAmong (disk.entries.flatMap fun entry => env.loadRouteModule entry.1 (some entry.2))
    path method

/-- The matcher answers for the route path of a file as some routes say. -/
def Serves (filePath : String) (routes : List (Route O)) : Prop :=
  ∀ method, s.router.matcher.answer (env.routePath filePath) method =
    optionsAmong routes (env.routePath filePath) method

/-- The matcher has no answer for the route path of a file. -/
def Unserved (filePath : String) : Prop :=
  ∀ method, s.router.matcher.answer (env.routePath filePath) method = none

/-! ### Steps that are followed everywhere -/

/-- What the last change of a file asks for, reported or not, if that is still to be done. -/
def pendingCallback (filePath : String) : Option Callback :=
  ((s.unreported.reverse.find? (·.1 = filePath)).map fun event => event.2.callback).or
    (s.debouncedCallbacks.get filePath)

/-- A change of the file is still to be reported, or its timer runs. -/
def Awaited (filePath : String) : Prop := (s.pendingCallback filePath).isSome = true

/-- Two lists of routes have the same options for the route path of a file. -/
def SameOptions (filePath : String) (routes routes' : List (Route O)) : Prop :=
  ∀ method, optionsAmong routes (env.routePath filePath) method =
    optionsAmong routes' (env.routePath filePath) method

/-- The registry and the matcher take the routes of a file over: at a path that is new to the
file nothing else is served, and at a path that it had the last route with other methods than
the registered one has all options, or there is nothing to change. -/
def Effective (filePath : String) (newRoutes : List (Route O)) : Prop :=
  (∀ route ∈ newRoutes, route.Addable) ∧
    if (s.router.registry.pathsOf filePath).has (env.routePath filePath) then
      match (newRoutes.filter s.router.registry.differs).getLast? with
      | some route => SameOptions env filePath [route] newRoutes
      | none => s.Serves env filePath newRoutes
    else
      ∀ method, s.router.matcher.answer (env.routePath filePath) method = none ∨
        s.router.matcher.answer (env.routePath filePath) method =
          optionsAmong newRoutes (env.routePath filePath) method

/-- The end of a load: another change of the file is to come, or what was read is what the
file exports now, and then

* a file without routes is not served;
* a file that is found unchanged has the options that the router was last notified of;
* a notification is effective, which it has to be in any case. -/
def HandledLoad (load : Load O) : Prop :=
  match load.pc with
  | .stat => True
  | .load => True
  | .compare newRoutes =>
      if newRoutes.isEmpty then
        s.Awaited load.filePath ∨
          SameOptions env load.filePath newRoutes (s.routesOf env load.filePath) ∧
            s.Unserved env load.filePath
      else if load.existingRoutes.isSome && ! s.hasRouteContentChanged env load.filePath newRoutes
      then
        s.Awaited load.filePath ∨
          SameOptions env load.filePath newRoutes (s.routesOf env load.filePath) ∧
            ∃ routes ∈ s.routesByPath.get load.filePath,
              SameOptions env load.filePath routes newRoutes
      else
        True
  | .statAgain _ => True
  | .loadAgain _ _ => True
  | .notify newRoutes =>
      (s.Awaited load.filePath ∨
        SameOptions env load.filePath newRoutes (s.routesOf env load.filePath)) ∧
      s.Effective env load.filePath newRoutes

/-- A removal: another change of the file is to come, or the watcher knows the file, or it is
not served. -/
def HandledRemoval (filePath : String) : Prop :=
  s.unreported.any (·.1 = filePath) = true ∨ s.routesByPath.has filePath = true ∨
    s.Unserved env filePath

/-- **The condition for hot reload to mirror the disk.** -/
def Handled : Action O → Prop
  | .write _ _ => True
  | .unlink _ => True
  | .report => True
  | .fire filePath =>
      s.debouncedCallbacks.get filePath = some .handleRemoved → s.HandledRemoval env filePath
  | .settle i => ∀ load ∈ s.loads[i]?, s.HandledLoad env load

/-- Some files of the directory: route files with different route paths, whatever name they
are loaded under. -/
structure RouteFiles (files : List String) : Prop where
  distinct : ∀ p ∈ files, ∀ p' ∈ files, env.routePath p = env.routePath p' → p = p'
  routeFile : ∀ p ∈ files, isRouteFile (baseName p) = true
  loadedAs : ∀ p ∈ files, env.routePath (env.loadedAs p) = env.routePath p
  inside : env.routesDir ∉ files

/-- The file that an action writes. -/
def Action.written : Action O → Option String
  | .write filePath _ => some filePath
  | _ => none

/-! ### The invariant -/

/-- The routes that a load holds. -/
def LoadPc.routes : LoadPc O → List (Route O)
  | .stat => []
  | .load => []
  | .compare newRoutes => newRoutes
  | .statAgain newRoutes => newRoutes
  | .loadAgain newRoutes _ => newRoutes
  | .notify newRoutes => newRoutes

/-- Whether a load goes on only with routes. -/
def LoadPc.needsRoutes : LoadPc O → Bool
  | .stat => false
  | .load => false
  | .compare _ => false
  | .statAgain _ => true
  | .loadAgain _ _ => true
  | .notify _ => true

/-- What is known of a load: its file is one of the directory, and its routes are of the path
of the file. -/
structure SoundLoad (files : List String) (load : Load O) : Prop where
  file : load.filePath ∈ files
  path : ∀ route ∈ LoadPc.routes load.pc, route.path = env.routePath load.filePath
  routes : LoadPc.needsRoutes load.pc = true → LoadPc.routes load.pc ≠ []

/-- **A file whose change is not still to come is served as it is, or is being loaded.** -/
structure Tracks (files : List String) (s : HotReload O) : Prop where
  disk : ∀ p, s.disk.has p = true → p ∈ files
  loads : ∀ load ∈ s.loads, SoundLoad env files load
  pending : ∀ p callback, s.pendingCallback p = some callback →
    p ∈ files ∧ (callback = .handleRemoved ↔ s.disk.has p = false)
  table : ∀ p routes, s.routesByPath.get p = some routes → p ∈ files ∧ routes ≠ [] ∧
    (∀ route ∈ routes, route.path = env.routePath p) ∧ s.Serves env p routes
  registry : ∀ p ∈ files, ∀ path, (s.router.registry.pathsOf p).has path = true →
    path = env.routePath p
  foreign : ∀ path, (∀ p ∈ files, env.routePath p ≠ path) →
    ∀ method, s.router.matcher.answer path method = none
  gone : ∀ p ∈ files, ¬ s.Awaited p → s.disk.has p = false → s.Unserved env p
  served : ∀ p ∈ files, ¬ s.Awaited p → s.disk.has p = true →
    s.Serves env p (s.routesOf env p) ∨ ∃ load ∈ s.loads, load.filePath = p

variable {env s} {files : List String}

/-- All routes of a file have its route path. -/
lemma path_of_loadRouteModule {p : String} {file : Option (RouteFile O)} {route : Route O}
    (h : route ∈ env.loadRouteModule p file) : route.path = env.routePath p := by
  rw [Discovery.loadRouteModule] at h
  split at h
  next => cases h
  next =>
      obtain ⟨handlers, -, rfl⟩ := List.mem_map.mp h
      rfl

/-! ### What is pending -/

lemma pendingCallback_write (p : String) (file : RouteFile O) (p' : String) :
    (s.write p file).pendingCallback p' =
      if p = p' then some .loadAndNotify else s.pendingCallback p' := by
  rw [pendingCallback, write]
  dsimp only
  rw [List.reverse_append, List.reverse_singleton, List.singleton_append, List.find?_cons]
  by_cases he : p = p'
  · rw [if_pos he]
    simp only [he, decide_true, Option.map_some, Option.some_or]
    split <;> rfl
  · simp only [he, decide_false, if_false, pendingCallback]

lemma pendingCallback_unlink (p p' : String) :
    (s.unlink p).pendingCallback p' =
      if p = p' then some .handleRemoved else s.pendingCallback p' := by
  rw [pendingCallback, unlink]
  dsimp only
  rw [List.reverse_append, List.reverse_singleton, List.singleton_append, List.find?_cons]
  by_cases he : p = p'
  · rw [if_pos he]
    simp only [he, decide_true, Option.map_some, Option.some_or]
    rfl
  · simp only [he, decide_false, if_false, pendingCallback]

/-- A report hands the change over to the timer. -/
lemma pendingCallback_report {s' : HotReload O} (h : s.report = some s') (p : String) :
    s'.pendingCallback p = s.pendingCallback p := by
  rw [report] at h
  split at h
  next => cases h
  next q event unreported hs =>
      obtain rfl := Option.some.inj h
      rw [pendingCallback, pendingCallback, hs]
      dsimp only
      rw [List.reverse_cons, List.find?_append, OrdMap.get_set]
      cases hfind : unreported.reverse.find? (·.1 = p) with
      | some later => rfl
      | none =>
          by_cases he : q = p
          · subst he
            simp
          · simp [he]

lemma pendingCallback_deleteTimer (p p' : String) :
    ({ s with debouncedCallbacks := s.debouncedCallbacks.delete p } : HotReload O).pendingCallback
      p' =
      if p = p' then
        (s.unreported.reverse.find? (·.1 = p')).map fun event => event.2.callback
      else
        s.pendingCallback p' := by
  rw [pendingCallback]
  dsimp only
  rw [OrdMap.get_delete]
  split
  · rw [Option.or_none]
  · rfl

/-! ### One step -/

namespace Tracks

/-- Only the disk and what is unreported changes, at one file that then is awaited. -/
lemma change (h : Tracks env files s) {s' : HotReload O} {p : String} {callback : Callback}
    (hp : p ∈ files) (hdisk : ∀ q, p ≠ q → s'.disk.get q = s.disk.get q)
    (hcallback : callback = .handleRemoved ↔ s'.disk.has p = false)
    (hpending : ∀ q, s'.pendingCallback q = if p = q then some callback else s.pendingCallback q)
    (hloads : s'.loads = s.loads) (htable : s'.routesByPath = s.routesByPath)
    (hrouter : s'.router = s.router) : Tracks env files s' where
  disk q hq := by
    by_cases he : p = q
    · exact he ▸ hp
    · rw [OrdMap.has, hdisk q he] at hq
      exact h.disk q hq
  loads := by
    rw [hloads]
    exact h.loads
  pending q cb hq := by
    rw [hpending] at hq
    split at hq
    next he =>
        subst he
        cases hq
        exact ⟨hp, hcallback⟩
    next he =>
        rw [OrdMap.has, hdisk q he]
        exact h.pending q cb hq
  table q routes hq := by
    rw [htable] at hq
    rw [Serves, hrouter]
    exact h.table q routes hq
  registry := by
    rw [hrouter]
    exact h.registry
  foreign := by
    rw [hrouter]
    exact h.foreign
  gone q hq hawaited hgone := by
    rw [Awaited, hpending] at hawaited
    split at hawaited
    next => exact absurd rfl hawaited
    next he =>
        rw [OrdMap.has, hdisk q he] at hgone
        rw [Unserved, hrouter]
        exact h.gone q hq hawaited hgone
  served q hq hawaited hthere := by
    rw [Awaited, hpending] at hawaited
    split at hawaited
    next => exact absurd rfl hawaited
    next he =>
        rw [OrdMap.has, hdisk q he] at hthere
        rw [Serves, routesOf, hrouter, hdisk q he, hloads]
        exact h.served q hq hawaited hthere

lemma write (h : Tracks env files s) {p : String} (hp : p ∈ files) (file : RouteFile O) :
    Tracks env files (s.write p file) := by
  refine h.change hp (fun q hne => ?_) ?_ (pendingCallback_write p file) rfl rfl rfl
  · exact OrdMap.get_set_ne _ _ hne
  · simp [HotReload.write, OrdMap.has]

lemma unlink (h : Tracks env files s) {p : String} (hp : s.disk.has p = true) :
    Tracks env files (s.unlink p) := by
  refine h.change (h.disk p hp) (fun q hne => ?_) ?_ (pendingCallback_unlink p) rfl rfl rfl
  · exact OrdMap.get_delete_ne _ hne
  · simp [HotReload.unlink, OrdMap.has, OrdMap.get_delete]

/-- What is pending for a file does not depend on where it is pending. -/
lemma samePending (h : Tracks env files s) {s' : HotReload O}
    (hpending : ∀ q, s'.pendingCallback q = s.pendingCallback q) (hdisk : s'.disk = s.disk)
    (hloads : s'.loads = s.loads) (htable : s'.routesByPath = s.routesByPath)
    (hrouter : s'.router = s.router) : Tracks env files s' where
  disk := by
    rw [hdisk]
    exact h.disk
  loads := by
    rw [hloads]
    exact h.loads
  pending q cb hq := by
    rw [hpending] at hq
    rw [hdisk]
    exact h.pending q cb hq
  table q routes hq := by
    rw [htable] at hq
    rw [Serves, hrouter]
    exact h.table q routes hq
  registry := by
    rw [hrouter]
    exact h.registry
  foreign := by
    rw [hrouter]
    exact h.foreign
  gone q hq hawaited hgone := by
    rw [Awaited, hpending] at hawaited
    rw [hdisk] at hgone
    rw [Unserved, hrouter]
    exact h.gone q hq hawaited hgone
  served q hq hawaited hthere := by
    rw [Awaited, hpending] at hawaited
    rw [hdisk] at hthere
    rw [Serves, routesOf, hrouter, hdisk, hloads]
    exact h.served q hq hawaited hthere

lemma report (h : Tracks env files s) {s' : HotReload O} (hs : s.report = some s') :
    Tracks env files s' := by
  refine h.samePending (pendingCallback_report hs) ?_ ?_ ?_ ?_
  all_goals
    rw [HotReload.report] at hs
    split at hs
    · cases hs
    · obtain rfl := Option.some.inj hs
      rfl

/-- The timer of a file ends: nothing is pending that was not, and if nothing is pending any
more then the timer had the last callback. -/
lemma deleteTimer_cases (s' : HotReload O) {p : String} {callback : Callback}
    (hget : s.debouncedCallbacks.get p = some callback)
    (hs' : ∀ q, s'.pendingCallback q = ({ s with
      debouncedCallbacks := s.debouncedCallbacks.delete p } : HotReload O).pendingCallback q) :
    (∀ q cb, s'.pendingCallback q = some cb → s.pendingCallback q = some cb) ∧
      (∀ q, p ≠ q → s'.pendingCallback q = s.pendingCallback q) ∧
      (¬ s'.Awaited p → s.pendingCallback p = some callback ∧
        s.unreported.any (·.1 = p) = false) := by
  refine ⟨fun q cb hq => ?_, fun q hne => ?_, fun hawaited => ?_⟩
  · rw [hs', pendingCallback_deleteTimer] at hq
    split at hq
    · rw [pendingCallback, hq]
      rfl
    · exact hq
  · rw [hs', pendingCallback_deleteTimer, if_neg hne]
  · rw [Awaited, hs', pendingCallback_deleteTimer, if_pos rfl, Option.isSome_map] at hawaited
    have hnone := Option.not_isSome_iff_eq_none.mp hawaited
    refine ⟨by rw [pendingCallback, hnone, hget]; rfl, ?_⟩
    rw [List.find?_eq_none] at hnone
    rw [List.any_eq_false]
    exact fun event he => hnone event (List.mem_reverse.mpr he)

/-- A load begins. -/
lemma fireLoad (h : Tracks env files s) {p : String}
    (hget : s.debouncedCallbacks.get p = some .loadAndNotify) :
    Tracks env files { s with
      debouncedCallbacks := s.debouncedCallbacks.delete p
      loads := s.loads ++ [⟨p, s.routesByPath.get p, .stat⟩] } := by
  obtain ⟨hmono, hother, hlast⟩ := deleteTimer_cases { s with
    debouncedCallbacks := s.debouncedCallbacks.delete p
    loads := s.loads ++ [⟨p, s.routesByPath.get p, .stat⟩] } hget fun _ => rfl
  obtain ⟨callback, hcallback⟩ : ∃ callback, s.pendingCallback p = some callback := by
    rw [pendingCallback, hget]
    exact Option.isSome_iff_exists.mp (by simp)
  refine ⟨h.disk, fun load hload => ?_, fun q cb hq => h.pending q cb (hmono q cb hq), h.table,
    h.registry, h.foreign, fun q hq hawaited hgone => ?_, fun q hq hawaited hthere => ?_⟩
  · rcases List.mem_append.mp hload with hload | hload
    · exact h.loads load hload
    · rw [List.mem_singleton.mp hload]
      exact ⟨(h.pending p callback hcallback).1, by simp [LoadPc.routes],
        by simp [LoadPc.needsRoutes]⟩
  · by_cases he : p = q
    · subst he
      -- the last change of the file was no deletion
      have hremoved := (h.pending p _ (hlast hawaited).1).2.mpr hgone
      cases hremoved
    · rw [Awaited, hother q he] at hawaited
      exact h.gone q hq hawaited hgone
  · by_cases he : p = q
    · subst he
      exact Or.inr ⟨_, List.mem_append_right _ (List.mem_singleton_self _), rfl⟩
    · rw [Awaited, hother q he] at hawaited
      rcases h.served q hq hawaited hthere with hserves | ⟨load, hload, hfile⟩
      · exact Or.inl hserves
      · exact Or.inr ⟨load, List.mem_append_left _ hload, hfile⟩

/-- **A file is removed**: its answers and its entry in the table go, and nothing else. -/
lemma remove (h : Tracks env files s) (hfiles : RouteFiles env files) {s' : HotReload O}
    {p : String} (hget : s.debouncedCallbacks.get p = some .handleRemoved)
    (hpending : ∀ q, s'.pendingCallback q = ({ s with
      debouncedCallbacks := s.debouncedCallbacks.delete p } : HotReload O).pendingCallback q)
    (hdisk : s'.disk = s.disk) (hloads : s'.loads = s.loads)
    (htable : ∀ q routes, s'.routesByPath.get q = some routes →
      q ≠ p ∧ s.routesByPath.get q = some routes)
    (hregistry : s'.router.registry = s.router.registry)
    (hmatcher : ∀ path method, env.routePath p ≠ path →
      s'.router.matcher.answer path method = s.router.matcher.answer path method)
    (hunserved : ¬ s'.Awaited p → s'.Unserved env p) : Tracks env files s' := by
  obtain ⟨hmono, hother, hlast⟩ := deleteTimer_cases s' hget hpending
  obtain ⟨callback, hcallback⟩ : ∃ callback, s.pendingCallback p = some callback := by
    rw [pendingCallback, hget]
    exact Option.isSome_iff_exists.mp (by simp)
  have hp : p ∈ files := (h.pending p callback hcallback).1
  have hpath : ∀ q ∈ files, q ≠ p → env.routePath p ≠ env.routePath q := fun q hq hne he =>
    hne (hfiles.distinct p hp q hq he).symm
  refine ⟨by rw [hdisk]; exact h.disk, by rw [hloads]; exact h.loads, fun q cb hq => ?_,
    fun q routes hq => ?_, by rw [hregistry]; exact h.registry, fun path hforeign method => ?_,
    fun q hq hawaited hgone => ?_, fun q hq hawaited hthere => ?_⟩
  · rw [hdisk]
    exact h.pending q cb (hmono q cb hq)
  · obtain ⟨hne, hq⟩ := htable q routes hq
    obtain ⟨hmem, hroutes, hroute, hserves⟩ := h.table q routes hq
    refine ⟨hmem, hroutes, hroute, fun method => ?_⟩
    rw [hmatcher _ _ (hpath q hmem hne)]
    exact hserves method
  · rw [hmatcher path method (hforeign p hp)]
    exact h.foreign path hforeign method
  · by_cases he : p = q
    · subst he
      exact hunserved hawaited
    · rw [Awaited, hother q he] at hawaited
      rw [hdisk] at hgone
      intro method
      rw [hmatcher _ _ (hpath q hq (Ne.symm he))]
      exact h.gone q hq hawaited hgone method
  · by_cases he : p = q
    · subst he
      -- the last change of the file was its deletion
      have hgone := (h.pending p _ (hlast hawaited).1).2.mp rfl
      rw [hdisk, hgone] at hthere
      cases hthere
    · rw [Awaited, hother q he] at hawaited
      rw [hdisk] at hthere
      rw [hloads]
      refine (h.served q hq hawaited hthere).imp_left fun hserves method => ?_
      rw [hmatcher _ _ (hpath q hq (Ne.symm he)), routesOf, hdisk]
      exact hserves method

/-- The timer of a file that was deleted ends. -/
lemma fireRemove (h : Tracks env files s) (hfiles : RouteFiles env files) {p : String}
    (hget : s.debouncedCallbacks.get p = some .handleRemoved)
    (hhandled : s.HandledRemoval env p) :
    Tracks env files (({ s with debouncedCallbacks := s.debouncedCallbacks.delete p } :
      HotReload O).handleRemoved p) := by
  rw [handleRemoved]
  dsimp only
  cases hroutes : s.routesByPath.get p with
  | none =>
      refine h.remove hfiles hget (fun _ => rfl) rfl rfl ?_ rfl (fun _ _ _ => rfl) ?_
      · intro q routes hq
        refine ⟨?_, hq⟩
        rintro rfl
        exact absurd (hroutes.symm.trans hq) (by simp)
      · intro hawaited
        obtain ⟨-, -, hlast⟩ := deleteTimer_cases _ hget fun _ => rfl
        rcases hhandled with hany | hhas | hunserved
        · rw [(hlast hawaited).2] at hany
          cases hany
        · rw [OrdMap.has, hroutes] at hhas
          cases hhas
        · exact hunserved
  | some routes =>
      obtain ⟨hmem, hne, hpath, -⟩ := h.table p routes hroutes
      obtain ⟨route, rest, rfl⟩ := List.exists_cons_of_ne_nil hne
      refine h.remove hfiles hget (fun _ => rfl) rfl rfl ?_ rfl ?_ ?_
      · intro q routes hq
        dsimp only at hq
        rw [OrdMap.get_delete] at hq
        split at hq
        next => cases hq
        next hqne => exact ⟨Ne.symm hqne, hq⟩
      · intro path method hne'
        exact (RouterState.answer_removeRoutes hne hpath path method).trans (if_neg hne')
      · intro _ method
        exact (RouterState.answer_removeRoutes hne hpath _ method).trans (if_pos rfl)

/-- The place of a load does not matter to the files. -/
lemma goOn (h : Tracks env files s) {i : ℕ} {load : Load O} (hload : s.loads[i]? = some load)
    {pc : LoadPc O} (hpath : ∀ route ∈ LoadPc.routes pc, route.path = env.routePath load.filePath)
    (hroutes : LoadPc.needsRoutes pc = true → LoadPc.routes pc ≠ []) :
    Tracks env files (s.goOn i load pc) := by
  have hsound := h.loads load (List.mem_of_getElem? hload)
  refine ⟨h.disk, fun load' hload' => ?_, h.pending, h.table, h.registry, h.foreign, h.gone,
    fun q hq hawaited hthere => ?_⟩
  · rcases List.mem_or_eq_of_mem_set hload' with hold | rfl
    · exact h.loads load' hold
    · exact ⟨hsound.file, hpath, hroutes⟩
  · rcases h.served q hq hawaited hthere with hserves | ⟨load', hload', hfile⟩
    · exact Or.inl hserves
    · refine Or.inr ?_
      obtain ⟨j, hj⟩ := List.getElem?_of_mem hload'
      by_cases hij : i = j
      · subst hij
        rw [hload] at hj
        obtain rfl := Option.some.inj hj
        have hlt := (List.getElem?_eq_some_iff.mp hload).1
        exact ⟨{ load with pc := pc }, List.mem_set hlt _, hfile⟩
      · refine ⟨load', List.mem_of_getElem? (i := j) ?_, hfile⟩
        show (s.loads.set i _)[j]? = some load'
        rw [List.getElem?_set_ne hij]
        exact hj

/-- A load returns when its file is served as it is. -/
lemma finish (h : Tracks env files s) {i : ℕ} {load : Load O} (hload : s.loads[i]? = some load)
    (hserves : ¬ s.Awaited load.filePath → s.disk.has load.filePath = true →
      s.Serves env load.filePath (s.routesOf env load.filePath)) :
    Tracks env files (s.finish i) := by
  refine ⟨h.disk, fun load' hload' => h.loads load' (List.mem_of_mem_eraseIdx hload'), h.pending,
    h.table, h.registry, h.foreign, h.gone, fun q hq hawaited hthere => ?_⟩
  rcases h.served q hq hawaited hthere with hs | ⟨load', hload', hfile⟩
  · exact Or.inl hs
  · by_cases he : load.filePath = q
    · subst he
      exact Or.inl (hserves hawaited hthere)
    · refine Or.inr ⟨load', ?_, hfile⟩
      obtain ⟨j, hj⟩ := List.getElem?_of_mem hload'
      refine List.mem_eraseIdx_iff_getElem?.mpr ⟨j, ?_, hj⟩
      rintro rfl
      rw [hload] at hj
      exact he (by rw [Option.some.inj hj, hfile])

/-- An effective notification makes the matcher answer with the new routes, and leaves the
other files alone. -/
lemma answer_notify (h : Tracks env files s) {p : String} (hp : p ∈ files)
    {newRoutes : List (Route O)} (hne : newRoutes ≠ [])
    (hpath : ∀ route ∈ newRoutes, route.path = env.routePath p)
    (heffective : s.Effective env p newRoutes) :
    (∀ path method, env.routePath p ≠ path →
        (s.router.update p newRoutes).matcher.answer path method =
          s.router.matcher.answer path method) ∧
      ∀ method, (s.router.update p newRoutes).matcher.answer (env.routePath p) method =
        optionsAmong newRoutes (env.routePath p) method := by
  obtain ⟨hadd, hcase⟩ := heffective
  obtain ⟨hother, hself⟩ := RouterState.answer_update hne hpath hadd (h.registry p hp)
  refine ⟨hother, fun method => ?_⟩
  rw [hself]
  split
  next hhas =>
      rw [if_pos hhas] at hcase
      split
      next route hlast =>
          have hmem : route ∈ newRoutes :=
            List.mem_of_mem_filter (List.mem_of_getLast? hlast)
          rw [hlast] at hcase
          refine Eq.trans ?_ (hcase method)
          rw [optionsAmong_cons, if_pos (hpath route hmem), optionsAmong, List.findSome?_nil,
            Option.or_none]
      next hlast =>
          rw [hlast] at hcase
          exact hcase method
  next hhas =>
      rw [if_neg hhas] at hcase
      rcases hcase method with hnone | hsame
      · rw [hnone, Option.none_or]
      · rw [hsame, Option.or_self]

/-- The router is notified. -/
lemma notify (h : Tracks env files s) (hfiles : RouteFiles env files) {i : ℕ} {load : Load O}
    (hload : s.loads[i]? = some load) {newRoutes : List (Route O)} (hne : newRoutes ≠ [])
    (hpath : ∀ route ∈ newRoutes, route.path = env.routePath load.filePath)
    (hcurrent : s.Awaited load.filePath ∨
      SameOptions env load.filePath newRoutes (s.routesOf env load.filePath))
    (heffective : s.Effective env load.filePath newRoutes) :
    Tracks env files ({ s with
      routesByPath := s.routesByPath.set load.filePath newRoutes
      router := s.router.update load.filePath newRoutes }.finish i) := by
  have hmem : load ∈ s.loads := List.mem_of_getElem? hload
  have hp := (h.loads load hmem).file
  obtain ⟨hother, hself⟩ := h.answer_notify hp hne hpath heffective
  have hpath' : ∀ q ∈ files, load.filePath ≠ q → env.routePath load.filePath ≠ env.routePath q :=
    fun q hq hne he => hne (hfiles.distinct _ hp q hq he)
  have hnotified : Tracks env files { s with
      routesByPath := s.routesByPath.set load.filePath newRoutes
      router := s.router.update load.filePath newRoutes } := by
    refine ⟨h.disk, h.loads, h.pending, fun q routes hq => ?_, fun q hq path hhas => ?_,
      fun path hforeign method => ?_, fun q hq hawaited hgone => ?_,
      fun q hq hawaited hthere => ?_⟩
    · dsimp only at hq
      rw [OrdMap.get_set] at hq
      split at hq
      next he =>
          subst he
          obtain rfl := Option.some.inj hq
          exact ⟨hp, hne, hpath, hself⟩
      next he =>
          obtain ⟨hq', hne', hpaths, hserves⟩ := h.table q routes hq
          refine ⟨hq', hne', hpaths, fun method => ?_⟩
          exact (hother _ _ (hpath' q hq' he)).trans (hserves method)
    · rcases RouteRegistry.has_pathsOf_applyRouteUpdates hhas with hold | ⟨rfl, route, hr, rfl⟩
      · exact h.registry q hq path hold
      · refine hpath route ?_
        rcases List.mem_append.mp hr with hr | hr
        · exact List.mem_of_mem_filter hr
        · exact List.mem_of_mem_filter (List.mem_of_mem_filter hr)
    · exact (hother path method (hforeign _ hp)).trans (h.foreign path hforeign method)
    · by_cases he : load.filePath = q
      · subst he
        intro method
        have hsame := hcurrent.resolve_left hawaited method
        have hnone : s.disk.get load.filePath = none := s.disk.has_eq_false_iff.mp hgone
        rw [routesOf, hnone] at hsame
        exact (hself method).trans hsame
      · intro method
        exact (hother _ _ (hpath' q hq he)).trans (h.gone q hq hawaited hgone method)
    · by_cases he : load.filePath = q
      · exact Or.inr ⟨load, hmem, he⟩
      · refine (h.served q hq hawaited hthere).imp_left fun hserves method => ?_
        exact (hother _ _ (hpath' q hq he)).trans (hserves method)
  exact hnotified.finish hload fun hawaited _ method =>
    (hself method).trans (hcurrent.resolve_left hawaited method)

/-- **A piece of a load keeps the invariant** if its end is handled. -/
lemma advance (h : Tracks env files s) (hfiles : RouteFiles env files) {i : ℕ} {load : Load O}
    (hload : s.loads[i]? = some load) (hhandled : s.HandledLoad env load) :
    Tracks env files (s.advance env i load) := by
  have hsound := h.loads load (List.mem_of_getElem? hload)
  obtain ⟨hfile, hpath, hroutes⟩ := hsound
  rw [HotReload.advance]
  rw [HandledLoad] at hhandled
  cases hpc : load.pc with
  | stat =>
      dsimp only
      split
      next => exact h.goOn hload (by simp [LoadPc.routes]) (by simp [LoadPc.needsRoutes])
      next hgone => exact h.finish hload fun _ hthere => absurd hthere hgone
  | load =>
      exact h.goOn hload (fun route hr => path_of_loadRouteModule hr)
        (by simp [LoadPc.needsRoutes])
  | compare newRoutes =>
      simp only [hpc] at hpath hhandled ⊢
      split
      next hempty =>
          rw [if_pos hempty] at hhandled
          refine h.finish hload fun hawaited _ method => ?_
          obtain ⟨hsame, hunserved⟩ := hhandled.resolve_left hawaited
          rw [hunserved method, ← hsame method, List.isEmpty_iff.mp hempty]
          rfl
      next hempty =>
          rw [if_neg hempty] at hhandled
          split
          next hequal =>
              rw [if_pos hequal] at hhandled
              refine h.finish hload fun hawaited _ method => ?_
              obtain ⟨hsame, routes, hroutes, halike⟩ := hhandled.resolve_left hawaited
              obtain ⟨-, -, -, hserves⟩ := h.table load.filePath routes hroutes
              rw [hserves method, halike method, hsame method]
          next =>
              refine h.goOn hload hpath fun _ hnil => hempty ?_
              rw [List.isEmpty_iff]
              exact hnil
  | statAgain newRoutes =>
      simp only [hpc] at hpath hroutes ⊢
      split
      next hnone =>
          refine h.finish hload fun _ hthere => ?_
          rw [OrdMap.has, hnone] at hthere
          cases hthere
      next file _ =>
          split
          · exact h.goOn hload hpath hroutes
          · exact h.goOn hload hpath hroutes
  | loadAgain newRoutes lastModified =>
      simp only [hpc] at hpath hroutes ⊢
      have hcached : Tracks env files { s with
          fileRouteCache := s.fileRouteCache.set load.filePath
            ⟨env.loadRouteModule load.filePath (s.disk.get load.filePath), lastModified,
              env.hashRoutes (env.loadRouteModule load.filePath (s.disk.get load.filePath))⟩ } :=
        ⟨h.disk, h.loads, h.pending, h.table, h.registry, h.foreign, h.gone, h.served⟩
      exact hcached.goOn hload hpath hroutes
  | notify newRoutes =>
      simp only [hpc] at hpath hroutes hhandled ⊢
      exact h.notify hfiles hload (hroutes rfl) hpath hhandled.1 hhandled.2

end Tracks

/-- **One handled step keeps the invariant.** -/
lemma step_tracks {s' : HotReload O} {a : Action O} (hfiles : RouteFiles env files)
    (hwritten : ∀ p ∈ a.written, p ∈ files) (h : Tracks env files s) (hhandled : s.Handled env a)
    (hstep : s.step env a = some s') : Tracks env files s' := by
  cases a with
  | write p file =>
      obtain rfl := Option.some.inj hstep
      exact h.write (hwritten p rfl) file
  | unlink p =>
      rw [step] at hstep
      split at hstep
      next hthere =>
          obtain rfl := Option.some.inj hstep
          exact h.unlink hthere
      next => cases hstep
  | report => exact h.report hstep
  | fire p =>
      rw [step, fire] at hstep
      split at hstep
      next => cases hstep
      next hget =>
          obtain rfl := Option.some.inj hstep
          exact h.fireLoad hget
      next hget =>
          obtain rfl := Option.some.inj hstep
          exact h.fireRemove hfiles hget (hhandled hget)
  | settle i =>
      rw [step] at hstep
      split at hstep
      next load hload =>
          obtain rfl := Option.some.inj hstep
          exact h.advance hfiles hload (hhandled load hload)
      next => cases hstep

/-! ### The first load -/

/-- Of the files of a disk only one exports routes for its route path. -/
lemma optionsAmong_flatMap (hfiles : RouteFiles env files) {p : String} (hp : p ∈ files)
    {entries : List (String × RouteFile O)} (hentries : ∀ entry ∈ entries, entry.1 ∈ files)
    (hnodup : (entries.map Prod.fst).Nodup) (method : HttpMethod) :
    optionsAmong (entries.flatMap fun entry => env.loadRouteModule entry.1 (some entry.2))
        (env.routePath p) method =
      optionsAmong (env.loadRouteModule p (OrdMap.find p entries)) (env.routePath p) method := by
  have hother : ∀ q ∈ files, q ≠ p → ∀ file, optionsAmong (env.loadRouteModule q file)
      (env.routePath p) method = none := fun q hq hne file =>
    optionsAmong_eq_none (fun route hr he => hne (hfiles.distinct q hq p hp
      ((path_of_loadRouteModule hr).symm.trans he))) method
  induction entries with
  | nil => rfl
  | cons entry entries ih =>
      obtain ⟨q, file⟩ := entry
      rw [List.map_cons, List.nodup_cons] at hnodup
      have ih := ih (fun entry he => hentries entry (List.mem_cons_of_mem _ he)) hnodup.2
      rw [List.flatMap_cons, optionsAmong_append, OrdMap.find, ih]
      split
      next he =>
          subst he
          rw [OrdMap.find_eq_none_iff.mpr hnodup.1]
          exact Option.or_none
      next hne =>
          rw [hother q (hentries (q, file) List.mem_cons_self) hne]
          exact Option.none_or

lemma exported_routePath (hfiles : RouteFiles env files) {disk : OrdMap String (RouteFile O)}
    (hdisk : ∀ p, disk.has p = true → p ∈ files) {p : String} (hp : p ∈ files)
    (method : HttpMethod) :
    exported env disk (env.routePath p) method =
      optionsAmong (env.loadRouteModule p (disk.get p)) (env.routePath p) method := by
  refine optionsAmong_flatMap hfiles hp (fun entry he => hdisk _ ?_) disk.nodup method
  rw [OrdMap.has, disk.mem_entries_iff.mp he]
  rfl

lemma exported_foreign {disk : OrdMap String (RouteFile O)}
    (hdisk : ∀ p, disk.has p = true → p ∈ files) {path : String}
    (hforeign : ∀ p ∈ files, env.routePath p ≠ path) (method : HttpMethod) :
    exported env disk path method = none := by
  refine optionsAmong_eq_none (fun route hr => ?_) method
  obtain ⟨entry, he, hr⟩ := List.mem_flatMap.mp hr
  rw [path_of_loadRouteModule hr]
  refine hforeign _ (hdisk _ ?_)
  rw [OrdMap.has, disk.mem_entries_iff.mp he]
  rfl

/-- A file has the same routes under the name that the first load gives it. -/
lemma initialRoutes_eq (hfiles : RouteFiles env files) {disk : OrdMap String (RouteFile O)}
    (hdisk : ∀ p, disk.has p = true → p ∈ files) :
    initialRoutes env disk =
      disk.entries.flatMap fun entry => env.loadRouteModule entry.1 (some entry.2) := by
  have hmem : ∀ entry ∈ disk.entries, entry.1 ∈ files := fun entry he => hdisk _ (by
    rw [OrdMap.has, disk.mem_entries_iff.mp he]
    rfl)
  have hfilter : (disk.entries.filter fun entry => isRouteFile (baseName entry.1)) =
      disk.entries :=
    List.filter_eq_self.mpr fun entry he => hfiles.routeFile _ (hmem entry he)
  rw [initialRoutes, hfilter]
  refine List.flatMap_congr fun entry he => ?_
  rw [Discovery.loadRouteModule, Discovery.loadRouteModule, hfiles.loadedAs _ (hmem entry he)]

/-- What the first load leaves. -/
lemma start_cases {disk : OrdMap String (RouteFile O)} (hstart : start env disk = some s) :
    ∃ matcher, forEach addRouteToMatcher (initialRoutes env disk) .empty = (true, matcher) ∧
      s = {
        disk := disk
        fileRouteCache := initialCache env disk
        router := {
          registry := ({} : RouteRegistry O).applyRouteUpdates env.routesDir
            ⟨initialRoutes env disk, [], []⟩
          matcher := matcher } } := by
  rw [start, RouteRegistry.updateRoutesFromFile,
    RouteRegistry.changesFrom_of_pathsOf_empty rfl] at hstart
  simp only [applyMatcherChanges, List.foldl_nil] at hstart
  cases hforEach : forEach addRouteToMatcher (initialRoutes env disk) Matcher.empty with
  | mk success matcher =>
      rw [hforEach] at hstart
      cases success with
      | false => cases hstart
      | true =>
          obtain rfl := Option.some.inj hstart
          exact ⟨matcher, rfl, rfl⟩

/-- **The first load serves the files of the disk.** -/
lemma tracks_start (hfiles : RouteFiles env files) {disk : OrdMap String (RouteFile O)}
    (hdisk : ∀ p, disk.has p = true → p ∈ files) (hstart : start env disk = some s) :
    Tracks env files s := by
  obtain ⟨matcher, hforEach, rfl⟩ := start_cases hstart
  have hanswer : ∀ path method, matcher.answer path method = exported env disk path method := by
    intro path method
    obtain ⟨matcher', hm, h⟩ := forEach_addRouteToMatcher (addable_of_forEach hforEach) .empty
    obtain rfl : matcher' = matcher := by
      rw [hforEach] at hm
      exact (Prod.mk.inj hm).2.symm
    rw [h, initialRoutes_eq hfiles hdisk]
    rfl
  have hserves : ∀ p ∈ files, ∀ method, matcher.answer (env.routePath p) method =
      optionsAmong (env.loadRouteModule p (disk.get p)) (env.routePath p) method :=
    fun p hp method => (hanswer _ _).trans (exported_routePath hfiles hdisk hp method)
  refine ⟨hdisk, nofun, fun p callback hp => ?_, nofun, fun p hp path hhas => ?_,
    fun path hforeign method => ?_, fun p hp _ hgone method => ?_, fun p hp _ _ => Or.inl ?_⟩
  · cases hp
  · rcases RouteRegistry.has_pathsOf_applyRouteUpdates hhas with hold | ⟨rfl, -⟩
    · cases hold
    · exact absurd hp hfiles.inside
  · exact (hanswer path method).trans (exported_foreign hdisk hforeign method)
  · have hnone : disk.get p = none := disk.has_eq_false_iff.mp hgone
    refine (hserves p hp method).trans ?_
    rw [hnone]
    rfl
  · exact hserves p hp

/-! ### Runs -/

/-- Nothing is awaited once nothing is pending. -/
lemma Quiescent.not_awaited (h : s.Quiescent) (p : String) : ¬ s.Awaited p := by
  obtain ⟨hunreported, htimers, -⟩ := h
  have hget : s.debouncedCallbacks.get p = none := by
    rw [OrdMap.get, htimers]
    rfl
  rw [Awaited, pendingCallback, hunreported, hget]
  exact Bool.false_ne_true

/-- **Hot reload mirrors the disk after every run of handled steps**: once all changes are
reported and all timers and loads have finished, the matcher answers for each path and method
with the options that the files then present export. -/
theorem mirrors_of_handled (env : Discovery O) (disk : OrdMap String (RouteFile O))
    (as : List (Action O)) (s₀ s : HotReload O)
    (hfiles : RouteFiles env (disk.keys ++ as.filterMap Action.written))
    (hstart : start env disk = some s₀) (hhandled : Meets (step env) (Handled env) s₀ as)
    (hrun : exec (step env) s₀ as = some s) (hquiescent : s.Quiescent) :
    ∀ path method, s.router.matcher.answer path method = exported env s.disk path method := by
  have hdisk : ∀ p, disk.has p = true → p ∈ disk.keys ++ as.filterMap Action.written := by
    intro p hp
    obtain ⟨file, hfile⟩ := disk.has_iff.mp hp
    exact List.mem_append_left _ (List.mem_map.mpr ⟨(p, file), disk.mem_entries_iff.mpr hfile,
      rfl⟩)
  have hwritten : ∀ a ∈ as, ∀ p ∈ a.written, p ∈ disk.keys ++ as.filterMap Action.written :=
    fun a ha p hp => List.mem_append_right _ (List.mem_filterMap.mpr ⟨a, ha, hp⟩)
  have h : Tracks env (disk.keys ++ as.filterMap Action.written) s :=
    meets_invariant (fun _ _ _ hI hP => step_tracks hfiles hP.2 hI hP.1)
      (tracks_start hfiles hdisk hstart) (hhandled.and hwritten) hrun
  intro path method
  by_cases hpath : ∃ p ∈ disk.keys ++ as.filterMap Action.written, env.routePath p = path
  · obtain ⟨p, hp, rfl⟩ := hpath
    rw [exported_routePath hfiles h.disk hp]
    have hawaited := hquiescent.not_awaited p
    cases hthere : s.disk.has p with
    | false =>
        rw [h.gone p hp hawaited hthere, s.disk.has_eq_false_iff.mp hthere]
        rfl
    | true =>
        rcases h.served p hp hawaited hthere with hserves | ⟨load, hload, -⟩
        · exact hserves method
        · rw [hquiescent.2.2] at hload
          cases hload
  · have hforeign : ∀ p ∈ disk.keys ++ as.filterMap Action.written, env.routePath p ≠ path :=
      fun p hp he => hpath ⟨p, hp, he⟩
    rw [h.foreign path hforeign, exported_foreign h.disk hforeign]

/-! ### A file that is changed -/

instance [DecidableEq O] (p : String) (routes : List (Route O)) :
    Decidable (s.Serves env p routes) := inferInstanceAs (Decidable (∀ _, _))

instance [DecidableEq O] (p : String) : Decidable (s.Unserved env p) :=
  inferInstanceAs (Decidable (∀ _, _))

instance (p : String) : Decidable (s.Awaited p) := inferInstanceAs (Decidable (_ = _))

instance [DecidableEq O] (p : String) (routes routes' : List (Route O)) :
    Decidable (SameOptions env p routes routes') := inferInstanceAs (Decidable (∀ _, _))

instance [DecidableEq O] (p : String) (routes : List (Route O)) :
    Decidable (s.Effective env p routes) :=
  have : Decidable (match (routes.filter s.router.registry.differs).getLast? with
      | some route => SameOptions env p [route] routes
      | none => s.Serves env p routes) :=
    match (routes.filter s.router.registry.differs).getLast? with
    | some route => inferInstanceAs (Decidable (SameOptions env p [route] routes))
    | none => inferInstanceAs (Decidable (s.Serves env p routes))
  inferInstanceAs (Decidable (_ ∧
    if (s.router.registry.pathsOf p).has (env.routePath p) then _ else ∀ _, _))

instance [DecidableEq O] : ∀ load : Load O, Decidable (s.HandledLoad env load)
  | ⟨_, _, .stat⟩ => .isTrue trivial
  | ⟨_, _, .load⟩ => .isTrue trivial
  | ⟨p, existing, .compare routes⟩ => inferInstanceAs (Decidable (
      if routes.isEmpty then _ ∨ _ ∧ _
      else if existing.isSome && ! s.hasRouteContentChanged env p routes then
        _ ∨ _ ∧ ∃ known ∈ s.routesByPath.get p, SameOptions env p known routes
      else True))
  | ⟨_, _, .statAgain _⟩ => .isTrue trivial
  | ⟨_, _, .loadAgain _ _⟩ => .isTrue trivial
  | ⟨_, _, .notify _⟩ => inferInstanceAs (Decidable ((_ ∨ _) ∧ s.Effective env _ _))

instance [DecidableEq O] : ∀ a : Action O, Decidable (s.Handled env a)
  | .write _ _ => .isTrue trivial
  | .unlink _ => .isTrue trivial
  | .report => .isTrue trivial
  | .fire p => inferInstanceAs (Decidable (_ = _ → _ ∨ _ ∨ s.Unserved env p))
  | .settle i => inferInstanceAs (Decidable (∀ load ∈ s.loads[i]?, s.HandledLoad env load))

/-- Numbers as options, with the number as the text of the handler. -/
def demoDiscovery : Discovery ℕ where
  routesDir := "/r"
  relative _ file := file
  describe options := { handler := some (toString options) }
  md5 data := String.join (data.map fun route =>
    String.join (route.2.map fun method => method.2.handler.getD ""))
  loadedAs := id

/-- A file with one default export. -/
def demoFile (mtime : ℕ) (handlers : List (HttpMethod × ℕ)) : RouteFile ℕ where
  mtime := mtime
  exports := some {
    defaultExport := some (handlers.foldl (fun m handler => m.set handler.1 (some handler.2)) ∅) }

/-- A reported change is loaded to its end. -/
def reload (p : String) : List (Action ℕ) :=
  [.report, .fire p, .settle 0, .settle 0, .settle 0, .settle 0, .settle 0, .settle 0]

/-- A file is added, gets another method and is deleted again. -/
def addExtendDelete : List (Action ℕ) :=
  .write "/r/b.ts" (demoFile 2 [(.GET, 2)]) :: reload "/r/b.ts" ++
    .write "/r/b.ts" (demoFile 3 [(.GET, 3), (.POST, 4)]) :: reload "/r/b.ts" ++
    [.unlink "/r/b.ts", .report, .fire "/r/b.ts"]

/-- A directory with one file. -/
def demoDisk : OrdMap String (RouteFile ℕ) := OrdMap.set ∅ "/r/a.ts" (demoFile 1 [(.GET, 1)])

theorem mirrors_of_handled_addExtendDelete :
    ∃ s₀ s, start demoDiscovery demoDisk = some s₀ ∧
      exec (step demoDiscovery) s₀ addExtendDelete = some s ∧ s.Quiescent ∧
      ∀ path method, s.router.matcher.answer path method =
        exported demoDiscovery s.disk path method := by
  obtain ⟨s₀, hstart⟩ : ∃ s₀, start demoDiscovery demoDisk = some s₀ := ⟨_, rfl⟩
  obtain ⟨s, hrun, hquiescent⟩ : ∃ s, exec (step demoDiscovery) s₀ addExtendDelete = some s ∧
      s.Quiescent := by
    cases hstart
    exact ⟨_, rfl, rfl, rfl, rfl⟩
  have hhandled : Meets (step demoDiscovery) (Handled demoDiscovery) s₀ addExtendDelete := by
    cases hstart
    decide +kernel
  have hfiles : RouteFiles demoDiscovery
      (demoDisk.keys ++ addExtendDelete.filterMap Action.written) :=
    ⟨by decide +kernel, by decide +kernel, by decide +kernel, by decide +kernel⟩
  exact ⟨s₀, s, hstart, hrun, hquiescent,
    mirrors_of_handled _ _ _ s₀ s hfiles hstart hhandled hrun hquiescent⟩

/-- A file of the first load gets another handler: the registry has it from the directory, the
matcher gets it a second time, and the old entry keeps answering. -/
theorem not_mirrors :
    ¬ ∀ (O : Type) (env : Discovery O) (disk : OrdMap String (RouteFile O))
      (as : List (Action O)) (s₀ s : HotReload O),
      RouteFiles env (disk.keys ++ as.filterMap Action.written) → start env disk = some s₀ →
      exec (step env) s₀ as = some s → s.Quiescent →
      ∀ path method, s.router.matcher.answer path method = exported env s.disk path method := by
  intro h
  have hfiles : RouteFiles demoDiscovery (demoDisk.keys ++
      (Action.write "/r/a.ts" (demoFile 2 [(.GET, 2)]) :: reload "/r/a.ts").filterMap
        Action.written) :=
    ⟨by decide +kernel, by decide +kernel, by decide +kernel, by decide +kernel⟩
  have hsame := h ℕ demoDiscovery demoDisk
    (.write "/r/a.ts" (demoFile 2 [(.GET, 2)]) :: reload "/r/a.ts") _ _ hfiles rfl rfl
    ⟨rfl, rfl, rfl⟩ "/a" .GET
  exact absurd hsame (by decide +kernel)

end HotReload

end Blaize.Router
