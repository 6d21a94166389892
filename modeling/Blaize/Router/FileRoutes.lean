import Blaize.Router.Directories

/-!
Does an update of a file install the routes of that file, and nothing else?

* `getRouteFromRegistry`, `getFileRoutes`: what the registry answers;
* `updateStep`: updates of any files, one after the other;
* `Installs`: what an update is to do;
* `Clean`: no route is taken for unchanged although its options are others, and no path is given
  up that belongs to another file by now;
* `get_updated_of_mem`, `get_updated_of_notMem`: the route of a path after an update;
* `installs_iff_clean`: **an update installs its routes exactly if it is clean**.
-/

namespace Blaize.Router

open Machine
open Loader (get_foldl_set_of_notMem get_foldl_set_of_mem)

variable {O : Type}

namespace RouteRegistry

def getRouteFromRegistry (registry : RouteRegistry O) (path : String) : Option (Route O) :=
  registry.routesByPath.get path

def getFileRoutes (registry : RouteRegistry O) (filePath : String) : List (Route O) :=
  (registry.pathsOf filePath).keys.filterMap registry.routesByPath.get

/-- The registry after an update. -/
def updated (registry : RouteRegistry O) (filePath : String) (newRoutes : List (Route O)) :
    RouteRegistry O :=
  (registry.updateRoutesFromFile filePath newRoutes).2

/-- An update is a file with its routes. -/
def updateStep (registry : RouteRegistry O) (update : String × List (Route O)) :
    Option (RouteRegistry O) :=
  some (registry.updated update.1 update.2)

/-! ### The property and its condition -/

/-- The routes of the file are those of the update with their own options, and the routes of
other files are what they were. -/
structure Installs (registry : RouteRegistry O) (filePath : String)
    (newRoutes : List (Route O)) : Prop where
  paths : (((registry.updated filePath newRoutes).getFileRoutes filePath).map Route.path).Perm
    (newRoutes.map Route.path)
  options : ∀ found ∈ (registry.updated filePath newRoutes).getFileRoutes filePath,
    ∀ route ∈ newRoutes, found.path = route.path → found.Alike route
  others : ∀ path otherFile route, registry.pathToFile.get path = some otherFile →
    otherFile ≠ filePath → path ∉ newRoutes.map Route.path →
    registry.getRouteFromRegistry path = some route →
      (registry.updated filePath newRoutes).getRouteFromRegistry path = some route

/-- A route of the file that has the structure of the stored one has its options too, and a path
that the file gives up does not belong to another one. -/
structure Clean (registry : RouteRegistry O) (filePath : String)
    (newRoutes : List (Route O)) : Prop where
  unchanged : ∀ route ∈ newRoutes, (registry.pathsOf filePath).has route.path = true →
    ∀ stored, registry.routesByPath.get route.path = some stored →
      routesEqual stored route = true → stored.Alike route
  owned : ∀ path, (registry.pathsOf filePath).has path = true →
    path ∉ newRoutes.map Route.path →
      ∀ otherFile, registry.pathToFile.get path = some otherFile → otherFile = filePath

/-! ### An update -/

/-- Every route is stored under its path, which belongs to a file. -/
structure Keyed (registry : RouteRegistry O) : Prop where
  path : ∀ path route, registry.routesByPath.get path = some route → route.path = path
  file : ∀ path, registry.routesByPath.has path = registry.pathToFile.has path

variable {registry : RouteRegistry O} {filePath : String} {newRoutes : List (Route O)}

lemma mem_removed_iff {path : String} :
    path ∈ (registry.changesFrom filePath newRoutes).removed ↔
      (registry.pathsOf filePath).has path = true ∧ path ∉ newRoutes.map Route.path := by
  rw [changesFrom, List.mem_filter, OrdMap.mem_keys_iff, OrdMap.has_iff]
  simp

/-- The routes that are set. -/
lemma mem_set_iff {route : Route O} :
    route ∈ (registry.changesFrom filePath newRoutes).added ++
        (registry.changesFrom filePath newRoutes).changed ↔
      route ∈ newRoutes ∧
        ((registry.pathsOf filePath).has route.path = true → registry.differs route = true) := by
  rw [List.mem_append, changesFrom]
  simp only [List.mem_filter]
  cases hhas : (registry.pathsOf filePath).has route.path with
  | false => simp
  | true =>
      simp only [Bool.not_true, Bool.false_eq_true, and_false, false_or, and_true, forall_const]
      rfl

lemma nodup_set (h : (newRoutes.map Route.path).Nodup) :
    (((registry.changesFrom filePath newRoutes).added ++
      (registry.changesFrom filePath newRoutes).changed).map Route.path).Nodup := by
  have hsub {p : Route O → Bool} {q : Route O → Bool} :
      ((newRoutes.filter p).filter q).Sublist newRoutes :=
    List.filter_sublist.trans List.filter_sublist
  rw [List.map_append, List.nodup_append']
  refine ⟨h.sublist (List.filter_sublist.map _), h.sublist (hsub.map _), ?_⟩
  intro path hadded hchanged
  obtain ⟨route, hroute, rfl⟩ := List.mem_map.mp hadded
  obtain ⟨route', hroute', heq⟩ := List.mem_map.mp hchanged
  have hnew := (List.mem_filter.mp hroute).2
  have hold := (List.mem_filter.mp (List.mem_of_mem_filter hroute')).2
  rw [heq] at hold
  rw [hold] at hnew
  cases hnew

/-- **The route of a path after an update.** -/
lemma get_updated_of_mem (h : (newRoutes.map Route.path).Nodup) {route : Route O}
    (hroute : route ∈ newRoutes) :
    (registry.updated filePath newRoutes).routesByPath.get route.path =
      if (registry.pathsOf filePath).has route.path = true ∧ registry.differs route = false then
        registry.routesByPath.get route.path
      else some route := by
  rw [updated, updateRoutesFromFile, applyRouteUpdates]
  dsimp only
  split
  next hsame =>
    have hnotMem : route.path ∉ ((registry.changesFrom filePath newRoutes).added ++
        (registry.changesFrom filePath newRoutes).changed).map Route.path := by
      intro hmem
      obtain ⟨other, hother, hpath⟩ := List.mem_map.mp hmem
      obtain ⟨hnew, hdiffers⟩ := mem_set_iff.mp hother
      obtain rfl := List.inj_on_of_nodup_map h hnew hroute hpath
      rw [hdiffers hsame.1] at hsame
      cases hsame.2
    have hkept : route.path ∉ (registry.changesFrom filePath newRoutes).removed :=
      fun hmem => (mem_removed_iff.mp hmem).2 (List.mem_map_of_mem hroute)
    rw [get_foldl_set_of_notMem hnotMem, OrdMap.get_foldl_delete, if_neg hkept]
  next hchange =>
    refine get_foldl_set_of_mem (nodup_set h) (mem_set_iff.mpr ⟨hroute, fun hhas => ?_⟩)
    by_contra hdiffers
    exact hchange ⟨hhas, by simpa using hdiffers⟩

lemma get_updated_of_notMem {path : String} (h : path ∉ newRoutes.map Route.path) :
    (registry.updated filePath newRoutes).routesByPath.get path =
      if (registry.pathsOf filePath).has path then none else registry.routesByPath.get path := by
  have hnotMem : path ∉ ((registry.changesFrom filePath newRoutes).added ++
      (registry.changesFrom filePath newRoutes).changed).map Route.path := by
    intro hmem
    obtain ⟨other, hother, rfl⟩ := List.mem_map.mp hmem
    exact h (List.mem_map_of_mem (mem_set_iff.mp hother).1)
  rw [updated, updateRoutesFromFile, applyRouteUpdates]
  dsimp only
  rw [get_foldl_set_of_notMem hnotMem, OrdMap.get_foldl_delete]
  simp only [mem_removed_iff, h, not_false_eq_true, and_true]

/-- The paths of a file after an update are those of its routes. -/
lemma mem_keys_pathsOf_updated {path : String} :
    path ∈ ((registry.updated filePath newRoutes).pathsOf filePath).keys ↔
      path ∈ newRoutes.map Route.path := by
  have hpaths : ∀ path, path ∈ (registry.changesFrom filePath newRoutes).added.map Route.path ++
      (registry.changesFrom filePath newRoutes).changed.map Route.path ++
        (registry.pathsOf filePath).keys.filter
          (fun path => ! (registry.changesFrom filePath newRoutes).removed.contains path) ↔
      path ∈ newRoutes.map Route.path := by
    intro path
    rw [← List.map_append, List.mem_append, List.mem_filter, Bool.not_eq_true',
      ← Bool.not_eq_true, List.contains_iff_mem, mem_removed_iff, OrdMap.mem_keys_iff,
      ← OrdMap.has_iff]
    constructor
    · rintro (hset | ⟨hhas, hkept⟩)
      · obtain ⟨route, hroute, rfl⟩ := List.mem_map.mp hset
        exact List.mem_map_of_mem (mem_set_iff.mp hroute).1
      · by_contra hgone
        exact hkept ⟨hhas, hgone⟩
    · intro hmem
      by_cases hhas : (registry.pathsOf filePath).has path = true
      · exact .inr ⟨hhas, fun hgone => hgone.2 hmem⟩
      · obtain ⟨route, hroute, rfl⟩ := List.mem_map.mp hmem
        exact .inl (List.mem_map_of_mem (mem_set_iff.mpr ⟨hroute, fun h => absurd h hhas⟩))
  have hset := @has_foldl_add_iff
    ((registry.changesFrom filePath newRoutes).added.map Route.path ++
      (registry.changesFrom filePath newRoutes).changed.map Route.path ++
        (registry.pathsOf filePath).keys.filter
          (fun path => ! (registry.changesFrom filePath newRoutes).removed.contains path)) ∅ path
  rw [hpaths] at hset
  rw [OrdMap.mem_keys_iff, ← OrdMap.has_iff, updated, updateRoutesFromFile, applyRouteUpdates,
    pathsOf]
  dsimp only
  split
  next =>
    rw [OrdMap.get_set_self, Option.getD_some, hset]
    exact or_iff_left Bool.false_ne_true
  next hempty =>
    rw [OrdMap.get_delete, if_pos rfl, Option.getD_none]
    refine iff_of_false Bool.false_ne_true fun hmem => hempty ?_
    have hhas := hset.mpr (.inl hmem)
    rw [OrdMap.has_iff] at hhas
    obtain ⟨v, hv⟩ := hhas
    exact List.length_pos_of_mem ((OrdMap.mem_entries_iff _).mpr hv)

/-- What is there after routes were stored and before that paths were removed. -/
lemma has_foldl_set {ν : Type} (value : Route O → ν) (routes : List (Route O))
    (removed : List String) (m : OrdMap String ν) (path : String) :
    (routes.foldl (fun m route => m.set route.path (value route))
      (removed.foldl OrdMap.delete m)).has path =
        (decide (path ∈ routes.map Route.path) || (!decide (path ∈ removed) && m.has path)) := by
  have hset (m : OrdMap String ν) :
      (routes.foldl (fun m route => m.set route.path (value route)) m).has path =
        (decide (path ∈ routes.map Route.path) || m.has path) := by
    induction routes generalizing m with
    | nil => rfl
    | cons route routes ih =>
        rw [List.foldl_cons, ih, OrdMap.has_set, List.map_cons]
        simp only [List.mem_cons, eq_comm (a := route.path), Bool.decide_or]
        ac_rfl
  rw [hset, OrdMap.has, OrdMap.get_foldl_delete]
  by_cases hmem : path ∈ removed
  · simp [hmem]
  · simp [hmem, OrdMap.has]

/-- Every update keeps the routes under their paths. -/
lemma Keyed.updated (h : registry.Keyed) : (registry.updated filePath newRoutes).Keyed where
  path path route hget := by
    rcases Loader.mem_of_get_foldl_set hget with ⟨-, hpath⟩ | hget
    · exact hpath
    · rw [OrdMap.get_foldl_delete] at hget
      split at hget
      · cases hget
      · exact h.path path route hget
  file path := by
    have hroutes := @has_foldl_set O (Route O) id
      ((registry.changesFrom filePath newRoutes).added ++
        (registry.changesFrom filePath newRoutes).changed)
      (registry.changesFrom filePath newRoutes).removed registry.routesByPath path
    have hfiles := has_foldl_set (fun _ => filePath)
      ((registry.changesFrom filePath newRoutes).added ++
        (registry.changesFrom filePath newRoutes).changed)
      (registry.changesFrom filePath newRoutes).removed registry.pathToFile path
    rw [← h.file path] at hfiles
    exact hroutes.trans hfiles.symm

lemma keyed_exec {updates : List (String × List (Route O))}
    (h : exec updateStep {} updates = some registry) : registry.Keyed :=
  meets_invariant (P := fun _ _ => True)
    (fun _ _ _ hs _ hstep => Option.some.inj hstep ▸ hs.updated)
    ⟨fun _ _ hget => (by cases hget), fun _ => rfl⟩ (meets_true _ _) h

/-! ### The files -/

/-- The routes of the file after an update, one for each of its paths. -/
lemma mem_getFileRoutes_updated (h : registry.Keyed) {found : Route O} :
    found ∈ (registry.updated filePath newRoutes).getFileRoutes filePath ↔
      found.path ∈ newRoutes.map Route.path ∧
        (registry.updated filePath newRoutes).routesByPath.get found.path = some found := by
  rw [getFileRoutes, List.mem_filterMap]
  constructor
  · rintro ⟨path, hpath, hget⟩
    obtain rfl := h.updated.path path found hget
    exact ⟨mem_keys_pathsOf_updated.mp hpath, hget⟩
  · rintro ⟨hpath, hget⟩
    exact ⟨found.path, mem_keys_pathsOf_updated.mpr hpath, hget⟩

/-- A path of the update has a route. -/
lemma exists_updated (hdistinct : (newRoutes.map Route.path).Nodup) {route : Route O}
    (hroute : route ∈ newRoutes) :
    ∃ found, (registry.updated filePath newRoutes).routesByPath.get route.path = some found ∧
      (found = route ∨ (registry.pathsOf filePath).has route.path = true ∧
        registry.routesByPath.get route.path = some found ∧ routesEqual found route = true) := by
  rw [get_updated_of_mem hdistinct hroute]
  split
  next hsame =>
    obtain ⟨hhas, hdiffers⟩ := hsame
    rw [differs] at hdiffers
    split at hdiffers
    · cases hdiffers
    next stored hstored => exact ⟨stored, hstored, .inr ⟨hhas, hstored, by simpa using hdiffers⟩⟩
  next => exact ⟨route, rfl, .inl rfl⟩

/-- The routes of the file have the paths of the update, each once. -/
lemma perm_paths (h : registry.Keyed) (hdistinct : (newRoutes.map Route.path).Nodup) :
    (((registry.updated filePath newRoutes).getFileRoutes filePath).map Route.path).Perm
      (newRoutes.map Route.path) := by
  have hkeys : ((registry.updated filePath newRoutes).getFileRoutes filePath).map Route.path =
      ((registry.updated filePath newRoutes).pathsOf filePath).keys := by
    rw [getFileRoutes, List.map_filterMap]
    have hall : ∀ path ∈ ((registry.updated filePath newRoutes).pathsOf filePath).keys,
        ((registry.updated filePath newRoutes).routesByPath.get path).map Route.path =
          some path := by
      intro path hpath
      obtain ⟨route, hroute, rfl⟩ := List.mem_map.mp (mem_keys_pathsOf_updated.mp hpath)
      obtain ⟨found, hfound, -⟩ := exists_updated hdistinct hroute
      rw [hfound, Option.map_some, h.updated.path _ found hfound]
    rw [List.filterMap_congr hall, List.filterMap_some]
  rw [hkeys]
  exact (List.perm_ext_iff_of_nodup (OrdMap.nodup _) hdistinct).mpr fun path =>
    mem_keys_pathsOf_updated

/-- **An update of a registry that came from updates installs its routes exactly if it is
clean.** -/
theorem installs_iff_clean {updates : List (String × List (Route O))}
    (hreach : exec updateStep {} updates = some registry)
    (hdistinct : (newRoutes.map Route.path).Nodup) :
    registry.Installs filePath newRoutes ↔ registry.Clean filePath newRoutes := by
  have hkeyed := keyed_exec hreach
  constructor
  · intro h
    refine ⟨fun route hroute hhas stored hstored hequal => ?_, ?_⟩
    · -- the stored route stays, and is the one that the file has
      have hsame : registry.differs route = false := by
        rw [differs, hstored]
        simpa using hequal
      have hget : (registry.updated filePath newRoutes).routesByPath.get route.path =
          some stored := by
        rw [get_updated_of_mem hdistinct hroute, if_pos ⟨hhas, hsame⟩, hstored]
      have hpath := hkeyed.path _ stored hstored
      refine h.options stored ((mem_getFileRoutes_updated hkeyed).mpr ⟨?_, ?_⟩) route hroute hpath
      · rw [hpath]
        exact List.mem_map_of_mem hroute
      · rw [hpath]
        exact hget
    · intro path hhas hgone otherFile hother
      by_contra hne
      obtain ⟨route, hroute⟩ := (OrdMap.has_iff _).mp
        ((hkeyed.file path).trans ((OrdMap.has_iff _).mpr ⟨otherFile, hother⟩))
      have hkept := h.others path otherFile route hother hne hgone hroute
      rw [getRouteFromRegistry, get_updated_of_notMem hgone, if_pos hhas] at hkept
      cases hkept
  · intro h
    refine ⟨perm_paths hkeyed hdistinct, fun found hfound route hroute hpath => ?_, ?_⟩
    · obtain ⟨-, hget⟩ := (mem_getFileRoutes_updated hkeyed).mp hfound
      obtain ⟨stored, hstored, hcases⟩ := @exists_updated _ registry filePath _ hdistinct _ hroute
      rw [hpath, hstored] at hget
      obtain rfl := Option.some.inj hget
      rcases hcases with rfl | ⟨hhas, hold, hequal⟩
      · exact fun _ => rfl
      · exact h.unchanged route hroute hhas _ hold hequal
    · intro path otherFile route hother hne hgone hroute
      rw [getRouteFromRegistry, get_updated_of_notMem hgone, if_neg]
      · exact hroute
      · exact fun hhas => hne (h.owned path hhas hgone otherFile hother)

/-- A file that replaces its route by one with another path. -/
theorem installs_iff_clean_moved :
    ∃ registry, exec updateStep {} [("a.ts", [RouterState.getRoute "/a" 1])] = some registry ∧
      registry.Installs "a.ts" [RouterState.getRoute "/b" 2] := by
  refine ⟨_, rfl, (@installs_iff_clean _ _ _ _ [("a.ts", [RouterState.getRoute "/a" 1])] rfl
    (by decide)).mpr ⟨fun route hroute hhas => ?_, fun path _ _ otherFile hother => ?_⟩⟩
  · obtain rfl := List.mem_singleton.mp hroute
    cases hhas
  · have hmem := (OrdMap.mem_entries_iff _).mpr hother
    exact (Prod.mk.inj (List.mem_singleton.mp hmem)).2

/-- A route gets other options. -/
theorem not_installs :
    ¬ ∀ (updates : List (String × List (Route ℕ))) (registry : RouteRegistry ℕ)
      (filePath : String) (newRoutes : List (Route ℕ)),
      exec updateStep {} updates = some registry → (newRoutes.map Route.path).Nodup →
        registry.Installs filePath newRoutes := by
  intro h
  have hinstalls := h [("a.ts", [RouterState.getRoute "/a" 1])] _ "a.ts"
    [RouterState.getRoute "/a" 2] rfl (by decide)
  have halike := hinstalls.options (RouterState.getRoute "/a" 1) List.mem_cons_self
    (RouterState.getRoute "/a" 2) List.mem_cons_self rfl .GET
  cases halike

end RouteRegistry

end Blaize.Router
