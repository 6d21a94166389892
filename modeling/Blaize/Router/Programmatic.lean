import Blaize.Router.FileRoutes

/-!
Do the routes that are added by hand accumulate (`addRoute` and `addRoutes` of `router.ts`)?

All calls update the routes of one pseudo-file, so each call takes the routes of the one before
for routes that the file has given up.

* `Addition`: a call, with its routes;
* `Unknown`: what is asked of the router before the calls;
* `Accumulated`: every route is registered and answered;
* `accumulated_iff`: **the routes accumulate exactly if no call with routes has one after it, and
  every path compiles**.
-/

namespace Blaize.Router

open Machine

variable {O : Type}

/-- A call that adds routes. -/
inductive Addition (O : Type) where
  | addRoute (route : Route O)
  | addRoutes (routes : List (Route O))

namespace Addition

/-- The action of a call. -/
def action : Addition O → Action O
  | addRoute route => .addRoute route
  | addRoutes routes => .addRoutes routes

/-- The routes of a call. -/
def routes : Addition O → List (Route O)
  | addRoute route => [route]
  | addRoutes routes => routes

end Addition

namespace RouterState

/-- `router.getRoutes()` -/
def getRoutes (s : RouterState O) : List (Route O) := s.registry.routesByPath.values

/-- No route was added by hand yet, and some paths are not those of files. -/
structure Unknown (s : RouterState O) (paths : List String) : Prop where
  source : s.registry.pathsOf programmatic = ∅
  registry : ∀ path ∈ paths, s.registry.routesByPath.get path = none
  matcher : ∀ path ∈ paths, ∀ method, s.matcher.answer path method = none

/-- Every route is registered, and the matcher has its options. -/
def Accumulated (s : RouterState O) (routes : List (Route O)) : Prop :=
  ∀ route ∈ routes, route ∈ s.getRoutes ∧
    ∀ method options, route.options method = some options →
      s.matcher.answer route.path method = some options

variable {s s' : RouterState O} {routes : List (Route O)} {additions : List (Addition O)}

lemma step_action (s : RouterState O) (addition : Addition O) :
    step s addition.action = some (s.update programmatic addition.routes) := by
  cases addition <;> rfl

/-! ### A call without routes -/

/-- A call without routes changes nothing, if there was none. -/
lemma Unknown.update_nil {paths : List String} (h : s.Unknown paths) :
    (s.update programmatic []).Unknown paths := by
  have hchanges := RouteRegistry.changesFrom_of_pathsOf_empty h.source ([] : List (Route O))
  refine ⟨?_, fun path hpath => ?_, fun path hpath method => ?_⟩
  · rw [RouterState.update, RouteRegistry.updateRoutesFromFile, hchanges]
    dsimp only
    rw [RouteRegistry.pathsOf, RouteRegistry.applyRouteUpdates, h.source]
    have hgone : (s.registry.routesByFile.delete programmatic).get programmatic = none := by
      rw [OrdMap.get_delete, if_pos rfl]
    exact congrArg (fun paths => Option.getD paths ∅) hgone
  · rw [RouterState.update, RouteRegistry.updateRoutesFromFile, hchanges]
    exact h.registry path hpath
  · rw [RouterState.update, RouteRegistry.updateRoutesFromFile, hchanges]
    exact h.matcher path hpath method

/-! ### A call with routes -/

/-- Of routes with different paths, each has its own options. -/
lemma optionsAmong_of_mem (hdistinct : (routes.map Route.path).Nodup) {route : Route O}
    (hroute : route ∈ routes) (method : HttpMethod) :
    optionsAmong routes route.path method = route.options method := by
  induction routes with
  | nil => cases hroute
  | cons first routes ih =>
      rw [List.map_cons, List.nodup_cons] at hdistinct
      rw [optionsAmong_cons]
      rcases List.mem_cons.mp hroute with rfl | hroute
      · have hother : ∀ r ∈ routes, r.path ≠ route.path :=
          fun r hr he => hdistinct.1 (he ▸ List.mem_map_of_mem hr)
        have hnone : optionsAmong routes route.path method = none :=
          optionsAmong_eq_none hother method
        rw [if_pos rfl, hnone, Option.or_none]
      · have hne : first.path ≠ route.path :=
          fun he => hdistinct.1 (he ▸ List.mem_map_of_mem hroute)
        rw [if_neg hne, Option.none_or, ih hdistinct.2 hroute]

/-- The first call with routes adds all of them. -/
lemma Unknown.accumulated_update (h : s.Unknown (routes.map Route.path))
    (hdistinct : (routes.map Route.path).Nodup) (hadd : ∀ route ∈ routes, route.Addable) :
    (s.update programmatic routes).Accumulated routes := by
  have hchanges := RouteRegistry.changesFrom_of_pathsOf_empty h.source routes
  intro route hroute
  constructor
  · have hget := @RouteRegistry.get_updated_of_mem _ s.registry programmatic _ hdistinct _ hroute
    have hnew : ¬ ((s.registry.pathsOf programmatic).has route.path = true ∧
        s.registry.differs route = false) := by
      rw [h.source]
      exact fun hhas => Bool.false_ne_true hhas.1
    rw [if_neg hnew] at hget
    exact List.mem_map_of_mem (f := Prod.snd) ((OrdMap.mem_entries_iff _).mpr hget)
  · intro method options hoptions
    obtain ⟨matcher, hmatcher, hanswer⟩ := forEach_addRouteToMatcher hadd s.matcher
    have hafter : (s.update programmatic routes).matcher = matcher := by
      rw [RouterState.update, RouteRegistry.updateRoutesFromFile, hchanges]
      simp only [applyMatcherChanges, List.foldl_nil, hmatcher, forEach]
    have hamong := (optionsAmong_of_mem hdistinct hroute method).trans hoptions
    rw [hafter, hanswer, h.matcher _ (List.mem_map_of_mem hroute), Option.none_or, hamong]

/-- A route of a call is gone after the next one. -/
lemma get_update_update {routes routes' : List (Route O)} {path : String}
    (h : path ∈ routes.map Route.path) (h' : path ∉ routes'.map Route.path) :
    ((s.update programmatic routes).update programmatic routes').registry.routesByPath.get path =
      none := by
  refine (RouteRegistry.get_updated_of_notMem h').trans ?_
  have hhas : ((s.update programmatic routes).registry.pathsOf programmatic).has path = true :=
    (OrdMap.has_iff _).mpr ((OrdMap.mem_keys_iff _).mp
      (RouteRegistry.mem_keys_pathsOf_updated.mpr h))
  rw [if_pos hhas]

/-- And is not added again. -/
lemma get_exec_of_notMem {path : String}
    (h : ∀ addition ∈ additions, path ∉ addition.routes.map Route.path)
    (hs : s.registry.routesByPath.get path = none)
    (hexec : exec step s (additions.map Addition.action) = some s') :
    s'.registry.routesByPath.get path = none := by
  induction additions generalizing s with
  | nil =>
      obtain rfl := Option.some.inj hexec
      exact hs
  | cons addition additions ih =>
      rw [List.map_cons, exec_cons, step_action, Option.bind_some] at hexec
      refine ih (fun a ha => h a (List.mem_cons_of_mem _ ha)) ?_ hexec
      refine (RouteRegistry.get_updated_of_notMem (h addition List.mem_cons_self)).trans ?_
      split
      · rfl
      · exact hs

/-- The matcher only has paths that compile. -/
lemma addable_of_answer {route : Route O}
    (h : ∀ method options, route.options method = some options →
      s.matcher.answer route.path method = some options) : route.Addable := by
  by_cases hnone : ∀ method, route.options method = none
  · exact .inr hnone
  · obtain ⟨method, hmethod⟩ := not_forall.mp hnone
    obtain ⟨options, hoptions⟩ := Option.ne_none_iff_exists'.mp hmethod
    have hsome : (s.matcher.answer route.path method).isSome = true := by
      rw [h method options hoptions]
      rfl
    obtain ⟨entry, hentry, hpath, -⟩ := Matcher.isSome_answer.mp hsome
    have hcompiled := s.matcher.compiled entry hentry
    rw [hpath] at hcompiled
    exact .inl (by rw [hcompiled]; rfl)

/-! ### The calls -/

/-- The registry of a router keeps routes under their paths. -/
lemma keyed_of_exec {actions : List (Action O)} (hs : s.registry.Keyed)
    (h : exec step s actions = some s') : s'.registry.Keyed := by
  refine meets_invariant (I := fun s : RouterState O => s.registry.Keyed)
    (P := fun _ _ => True) ?_ hs (meets_true _ _) h
  intro s a s' hs _ hstep
  cases a with
  | fileRemoved filepath pathPrefix routes =>
      obtain rfl := Option.some.inj hstep
      exact hs
  | _ =>
      obtain rfl := Option.some.inj hstep
      exact hs.updated

lemma accumulated_iff_of_keyed (hkeyed : s.registry.Keyed)
    (hunknown : s.Unknown ((additions.flatMap Addition.routes).map Route.path))
    (hdistinct : ((additions.flatMap Addition.routes).map Route.path).Nodup)
    (hexec : exec step s (additions.map Addition.action) = some s') :
    s'.Accumulated (additions.flatMap Addition.routes) ↔
      (additions.Pairwise fun addition _ => addition.routes = []) ∧
        ∀ route ∈ additions.flatMap Addition.routes, route.Addable := by
  induction additions generalizing s with
  | nil =>
      exact iff_of_true (fun _ h => absurd h List.not_mem_nil)
        ⟨.nil, fun _ h => absurd h List.not_mem_nil⟩
  | cons addition additions ih =>
      rw [List.map_cons, exec_cons, step_action, Option.bind_some] at hexec
      rw [List.flatMap_cons] at hunknown hdistinct ⊢
      by_cases hempty : addition.routes = []
      · -- nothing happens, and the rest decides
        rw [hempty, List.nil_append] at hunknown hdistinct ⊢
        rw [hempty] at hexec
        rw [ih hkeyed.updated hunknown.update_nil hdistinct hexec, List.pairwise_cons]
        simp [hempty]
      · cases additions with
        | nil =>
            obtain rfl := Option.some.inj hexec
            rw [List.flatMap_nil, List.append_nil] at hunknown hdistinct ⊢
            constructor
            · exact fun h => ⟨List.pairwise_singleton _ _,
                fun route hroute => addable_of_answer (h route hroute).2⟩
            · exact fun h => hunknown.accumulated_update hdistinct h.2
        | cons next additions =>
            refine iff_of_false (fun h => ?_) fun h => ?_
            · -- the next call takes the routes away
              obtain ⟨route, hroute⟩ := List.exists_mem_of_ne_nil _ hempty
              have hpath : route.path ∈ addition.routes.map Route.path :=
                List.mem_map_of_mem hroute
              rw [List.map_append, List.nodup_append'] at hdistinct
              have hlater : ∀ a ∈ next :: additions, route.path ∉ a.routes.map Route.path := by
                intro a ha hmem
                obtain ⟨other, hother, heq⟩ := List.mem_map.mp hmem
                exact hdistinct.2.2 hpath
                  (heq ▸ List.mem_map_of_mem (List.mem_flatMap.mpr ⟨a, ha, hother⟩))
              have hkeyed' := keyed_of_exec hkeyed.updated hexec
              rw [List.map_cons, exec_cons, step_action, Option.bind_some] at hexec
              have hgone := get_exec_of_notMem
                (fun a ha => hlater a (List.mem_cons_of_mem _ ha))
                (get_update_update hpath (hlater next List.mem_cons_self)) hexec
              obtain ⟨⟨path, _⟩, hmem, rfl⟩ :=
                List.mem_map.mp (h route (List.mem_append_left _ hroute)).1
              have hget := (OrdMap.mem_entries_iff _).mp hmem
              rw [← hkeyed'.path path _ hget, hgone] at hget
              cases hget
            · exact hempty ((List.pairwise_cons.mp h.1).1 next List.mem_cons_self)

/-- **The routes of some calls accumulate exactly if no call with routes has one after it, and
every path compiles.** -/
theorem accumulated_iff {before : List (Action O)} (hreach : exec step {} before = some s)
    (hunknown : s.Unknown ((additions.flatMap Addition.routes).map Route.path))
    (hdistinct : ((additions.flatMap Addition.routes).map Route.path).Nodup)
    (hexec : exec step s (additions.map Addition.action) = some s') :
    s'.Accumulated (additions.flatMap Addition.routes) ↔
      (additions.Pairwise fun addition _ => addition.routes = []) ∧
        ∀ route ∈ additions.flatMap Addition.routes, route.Addable :=
  accumulated_iff_of_keyed
    (keyed_of_exec ⟨fun _ _ hget => (by cases hget), fun _ => rfl⟩ hreach) hunknown hdistinct hexec

/-- A directory is loaded, and two routes are added in one call. -/
theorem accumulated_iff_oneCall :
    ∃ s s', exec step {} [.load "routes" none [getRoute "/a" 1]] = some s ∧
      exec step s [.addRoutes [], .addRoutes [getRoute "/b" 2, getRoute "/c" 3]] = some s' ∧
        s'.Accumulated [getRoute "/b" 2, getRoute "/c" 3] := by
  refine ⟨_, _, rfl, rfl, (@accumulated_iff _ _ _
    [.addRoutes [], .addRoutes [getRoute "/b" 2, getRoute "/c" 3]]
    [.load "routes" none [getRoute "/a" 1]] rfl ⟨rfl, by decide, by decide⟩ (by decide)
    rfl).mpr ⟨?_, ?_⟩⟩
  · exact .cons (fun _ _ => rfl) (List.pairwise_singleton _ _)
  · decide

/-- Two calls with a route each. -/
theorem not_accumulated :
    ¬ ∀ (before : List (Action ℕ)) (additions : List (Addition ℕ)) (s s' : RouterState ℕ),
      exec step {} before = some s →
      s.Unknown ((additions.flatMap Addition.routes).map Route.path) →
      ((additions.flatMap Addition.routes).map Route.path).Nodup →
      exec step s (additions.map Addition.action) = some s' →
        s'.Accumulated (additions.flatMap Addition.routes) := by
  intro h
  have haccumulated := h [] [.addRoute (getRoute "/a" 1), .addRoute (getRoute "/b" 2)] _ _ rfl
    ⟨rfl, by decide, by decide⟩ (by decide) rfl
  have hanswer := (haccumulated (getRoute "/a" 1) List.mem_cons_self).2 .GET 1 rfl
  cases hanswer

end RouterState

end Blaize.Router
