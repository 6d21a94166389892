import Blaize.Router.Sync

/-!
What the routes of one file do to the registry and the matcher.

All routes of a file have one path.  The first of several routes answers when they are added,
and the last one that replaces another when they are changed.

* `optionsAmong`: the options of the first of some routes;
* `forEach_addRouteToMatcher`, `forEach_updateRouteInMatcher`: several routes;
* `RouteRegistry.differs`, `changesFrom_onePath`: the difference that the registry sees;
* `RouterState.answer_update`: **what an update leaves the matcher with**;
* `RouterState.answer_removeRoutes`: the same for a removal.
-/

namespace Blaize.Router

variable {O : Type}

/-- The options that some routes have for a path and a method: those of the first route. -/
def optionsAmong (routes : List (Route O)) (path : String) (method : HttpMethod) : Option O :=
  routes.findSome? fun route => if route.path = path then route.options method else none

lemma optionsAmong_cons (route : Route O) (routes : List (Route O)) (path : String)
    (method : HttpMethod) :
    optionsAmong (route :: routes) path method =
      (if route.path = path then route.options method else none).or
        (optionsAmong routes path method) := by
  rw [optionsAmong, List.findSome?_cons]
  cases (if route.path = path then route.options method else none) <;> rfl

lemma optionsAmong_append (routes routes' : List (Route O)) (path : String)
    (method : HttpMethod) :
    optionsAmong (routes ++ routes') path method =
      (optionsAmong routes path method).or (optionsAmong routes' path method) :=
  List.findSome?_append ..

/-- Routes of other paths have no options. -/
lemma optionsAmong_eq_none {routes : List (Route O)} {path : String}
    (h : ∀ route ∈ routes, route.path ≠ path) (method : HttpMethod) :
    optionsAmong routes path method = none := by
  rw [optionsAmong, List.findSome?_eq_none_iff]
  intro route hr
  exact if_neg (h route hr)

/-! ### Lists of routes in the matcher -/

/-- The routes that were added one after the other answer where there was no answer. -/
lemma forEach_addRouteToMatcher {routes : List (Route O)} (hadd : ∀ route ∈ routes, route.Addable)
    (matcher : Matcher O) :
    ∃ matcher', forEach addRouteToMatcher routes matcher = (true, matcher') ∧
      ∀ path method, matcher'.answer path method =
        (matcher.answer path method).or (optionsAmong routes path method) := by
  induction routes generalizing matcher with
  | nil => exact ⟨matcher, rfl, fun path method => by rw [optionsAmong]; simp⟩
  | cons route routes ih =>
      obtain ⟨matcher₁, hm₁, h₁⟩ :=
        addRouteToMatcher_answer (hadd route List.mem_cons_self) matcher
      obtain ⟨matcher', hm, h⟩ := ih (fun r hr => hadd r (List.mem_cons_of_mem _ hr)) matcher₁
      refine ⟨matcher', by simp only [forEach, hm₁, hm], fun path method => ?_⟩
      rw [h, h₁, Option.or_assoc, optionsAmong_cons]

/-- Of routes with one path that replace each other the last one stays. -/
lemma forEach_updateRouteInMatcher {routes : List (Route O)} {path : String}
    (hadd : ∀ route ∈ routes, route.Addable) (hpath : ∀ route ∈ routes, route.path = path)
    (matcher : Matcher O) :
    ∃ matcher', forEach updateRouteInMatcher routes matcher = (true, matcher') ∧
      (∀ path' method, path ≠ path' →
        matcher'.answer path' method = matcher.answer path' method) ∧
      ∀ method, matcher'.answer path method =
        match routes.getLast? with
        | some route => route.options method
        | none => matcher.answer path method := by
  induction routes generalizing matcher with
  | nil => exact ⟨matcher, rfl, fun _ _ _ => rfl, fun _ => rfl⟩
  | cons route routes ih =>
      obtain ⟨matcher₁, hm₁, h₁⟩ :=
        addRouteToMatcher_answer (hadd route List.mem_cons_self) (matcher.remove route.path)
      obtain ⟨matcher', hm, hother, hself⟩ := ih (fun r hr => hadd r (List.mem_cons_of_mem _ hr))
        (fun r hr => hpath r (List.mem_cons_of_mem _ hr)) matcher₁
      have hp : route.path = path := hpath route List.mem_cons_self
      rw [hp] at h₁
      refine ⟨matcher', ?_, fun path' method hne => ?_, fun method => ?_⟩
      · have hupdate : updateRouteInMatcher route matcher = (true, matcher₁) := hm₁
        simp only [forEach, hupdate, hm]
      · rw [hother path' method hne, h₁, Matcher.answer_remove, if_neg hne, if_neg hne,
          Option.or_none]
      · rw [hself method]
        cases routes with
        | nil =>
            show matcher₁.answer path method = route.options method
            rw [h₁, Matcher.answer_remove, if_pos rfl, if_pos rfl, Option.none_or]
        | cons r rs =>
            have hlast := List.getLast?_eq_some_getLast (List.cons_ne_nil r rs)
            rw [List.getLast?_cons_cons, hlast]

/-- A route that was added has a path that compiles, or no options. -/
lemma addable_of_addRouteToMatcher {route : Route O} {matcher matcher' : Matcher O}
    (h : addRouteToMatcher route matcher = (true, matcher')) : route.Addable := by
  cases hc : compilePathPattern route.path with
  | some pattern => exact Or.inl (by rw [hc]; rfl)
  | none =>
      have hadd (m : Matcher O) (method : HttpMethod) (options : O) :
          Matcher.add m route.path method options = none := by
        rw [Matcher.add]
        split
        · rfl
        next pattern hp => rw [hc] at hp; cases hp
      have hnone {add : HttpMethod × Option O → Matcher O → Bool × Matcher O}
          (hskip : ∀ method m, add (method, none) m = (true, m))
          (hfail : ∀ method options m, add (method, some options) m = (false, m))
          (entries : List (HttpMethod × Option O)) : ∀ m m' : Matcher O,
            forEach add entries m = (true, m') → ∀ entry ∈ entries, entry.2 = none := by
        induction entries with
        | nil => intro _ _ _ entry he; cases he
        | cons entry entries ih =>
            obtain ⟨method, options⟩ := entry
            intro m m' hm entry he
            cases options with
            | none =>
                simp only [forEach, hskip] at hm
                rcases List.mem_cons.mp he with rfl | he
                · rfl
                · exact ih m m' hm entry he
            | some options =>
                simp only [forEach, hfail] at hm
                cases hm
      refine Or.inr fun method => ?_
      rw [Route.options]
      cases hget : route.handlers.get method with
      | none => rfl
      | some options =>
          exact hnone (fun _ _ => rfl) (fun method options m => by dsimp only; rw [hadd])
            route.handlers.entries matcher matcher' h (method, options)
            (route.handlers.mem_entries_iff.mpr hget)

lemma addable_of_forEach {routes : List (Route O)} {matcher matcher' : Matcher O}
    (h : forEach addRouteToMatcher routes matcher = (true, matcher')) :
    ∀ route ∈ routes, route.Addable := by
  induction routes generalizing matcher with
  | nil => intro route hr; cases hr
  | cons route routes ih =>
      rw [forEach] at h
      split at h
      next matcher₁ hm =>
          intro r hr
          rcases List.mem_cons.mp hr with rfl | hr
          · exact addable_of_addRouteToMatcher hm
          · exact ih h r hr
      next => cases h

/-! ### The update of one file -/

lemma has_foldl_add_iff {paths : List String} {set : OrdSet String} {path : String} :
    (paths.foldl OrdSet.add set).has path = true ↔ path ∈ paths ∨ set.has path = true := by
  induction paths generalizing set with
  | nil => simp
  | cons first paths ih =>
      rw [List.foldl_cons, ih, OrdSet.add, OrdMap.has_set, List.mem_cons, Bool.or_eq_true,
        decide_eq_true_iff, eq_comm (a := first)]
      tauto

namespace RouteRegistry

variable {registry : RouteRegistry O} {source path : String} {routes : List (Route O)}

/-- A source that has had no route has new routes only. -/
lemma changesFrom_of_pathsOf_empty (h : registry.pathsOf source = ∅) (routes : List (Route O)) :
    registry.changesFrom source routes = ⟨routes, [], []⟩ := by
  rw [changesFrom, h]
  congr 1
  · exact List.filter_eq_self.mpr fun _ _ => rfl
  · have hnone : routes.filter (fun route => (∅ : OrdSet String).has route.path) = [] :=
      List.filter_eq_nil_iff.mpr fun _ _ => Bool.false_ne_true
    rw [hnone]
    rfl

/-- Whether the registry takes a route for a changed one. -/
def differs (registry : RouteRegistry O) (route : Route O) : Bool :=
  match registry.routesByPath.get route.path with
  | none => true
  | some existingRoute => ! routesEqual existingRoute route

/-- An update with routes of one path, from a source that has had this path only. -/
lemma changesFrom_onePath (hne : routes ≠ []) (hpath : ∀ route ∈ routes, route.path = path)
    (hsource : ∀ path', (registry.pathsOf source).has path' = true → path' = path) :
    registry.changesFrom source routes =
      if (registry.pathsOf source).has path then
        ⟨[], [], routes.filter registry.differs⟩
      else
        ⟨routes, [], []⟩ := by
  have hremoved : ((registry.pathsOf source).keys.filter fun path' =>
      ! routes.any (·.path = path')) = [] := by
    rw [List.filter_eq_nil_iff]
    intro path' hmem
    obtain ⟨⟨_, v⟩, he, rfl⟩ := List.mem_map.mp hmem
    have hget := (registry.pathsOf source).mem_entries_iff.mp he
    obtain ⟨route, rest, rfl⟩ := List.exists_cons_of_ne_nil hne
    have hp := hpath route List.mem_cons_self
    have hp' := hsource _ (by rw [OrdMap.has, hget]; rfl)
    simp [hp, hp']
  rw [changesFrom, hremoved]
  split
  next hhas =>
      congr 1
      · rw [List.filter_eq_nil_iff]
        intro route hr
        simp [hpath route hr, hhas]
      · congr 1
        rw [List.filter_eq_self]
        intro route hr
        rw [hpath route hr]
        exact hhas
  next hhas =>
      have hhas' : (registry.pathsOf source).has path = false := by simpa using hhas
      congr 1
      · rw [List.filter_eq_self]
        intro route hr
        simp [hpath route hr, hhas']
      · rw [List.filter_eq_nil_iff]
        intro route hr
        obtain ⟨hmem, hin⟩ := List.mem_filter.mp hr
        rw [hpath route hmem, hhas'] at hin
        cases hin

/-- The paths of a source after an update: those of its routes and those it had. -/
lemma has_pathsOf_applyRouteUpdates {updates : RouteChanges O} {source' path' : String}
    (h : ((registry.applyRouteUpdates source updates).pathsOf source').has path' = true) :
    (registry.pathsOf source').has path' = true ∨
      source = source' ∧ ∃ route ∈ updates.added ++ updates.changed, route.path = path' := by
  rw [pathsOf, applyRouteUpdates] at h
  dsimp only at h
  by_cases he : source = source'
  · subst he
    split at h
    next =>
        rw [OrdMap.get_set, if_pos rfl, Option.getD_some] at h
        rcases has_foldl_add_iff.mp h with hm | hm
        · rw [← List.map_append, List.mem_append] at hm
          rcases hm with hm | hm
          · obtain ⟨route, hr, rfl⟩ := List.mem_map.mp hm
            exact Or.inr ⟨rfl, route, hr, rfl⟩
          · obtain ⟨⟨_, v⟩, hentry, rfl⟩ := List.mem_map.mp (List.mem_of_mem_filter hm)
            have hget := (registry.pathsOf source).mem_entries_iff.mp hentry
            exact Or.inl (by rw [OrdMap.has, hget]; rfl)
        · cases hm
    next =>
        rw [OrdMap.get_delete, if_pos rfl] at h
        cases h
  · refine Or.inl ?_
    split at h
    next => rwa [OrdMap.get_set, if_neg he] at h
    next => rwa [OrdMap.get_delete, if_neg he] at h

end RouteRegistry

namespace RouterState

/-- What an update with routes of one path leaves the matcher with at this path: the new
routes beside what was there when the path is new to the source, and otherwise the last
route that the registry takes for a changed one. -/
lemma answer_update {router : RouterState O} {source path : String} {routes : List (Route O)}
    (hne : routes ≠ []) (hpath : ∀ route ∈ routes, route.path = path)
    (hadd : ∀ route ∈ routes, route.Addable)
    (hsource : ∀ path', (router.registry.pathsOf source).has path' = true → path' = path) :
    (∀ path' method, path ≠ path' → (router.update source routes).matcher.answer path' method =
        router.matcher.answer path' method) ∧
      ∀ method, (router.update source routes).matcher.answer path method =
        if (router.registry.pathsOf source).has path then
          match (routes.filter router.registry.differs).getLast? with
          | some route => route.options method
          | none => router.matcher.answer path method
        else
          (router.matcher.answer path method).or (optionsAmong routes path method) := by
  have hmatcher : (router.update source routes).matcher =
      (applyMatcherChanges (router.registry.changesFrom source routes) router.matcher).2 := rfl
  rw [hmatcher, RouteRegistry.changesFrom_onePath hne hpath hsource]
  split
  next =>
      have hsub : ∀ route ∈ routes.filter router.registry.differs, route ∈ routes :=
        fun route hr => List.mem_of_mem_filter hr
      obtain ⟨matcher', hm, hother, hself⟩ := forEach_updateRouteInMatcher
        (fun route hr => hadd route (hsub route hr)) (fun route hr => hpath route (hsub route hr))
        router.matcher
      have happly : (applyMatcherChanges ⟨[], [], routes.filter router.registry.differs⟩
          router.matcher).2 = matcher' := by
        simp only [applyMatcherChanges, List.foldl_nil, forEach, hm]
      rw [happly]
      exact ⟨hother, hself⟩
  next =>
      obtain ⟨matcher', hm, h⟩ := forEach_addRouteToMatcher hadd router.matcher
      have happly : (applyMatcherChanges ⟨routes, [], []⟩ router.matcher).2 = matcher' := by
        simp only [applyMatcherChanges, List.foldl_nil, hm, forEach]
      rw [happly]
      refine ⟨fun path' method hne' => ?_, fun method => h path method⟩
      have hnone : optionsAmong routes path' method = none :=
        optionsAmong_eq_none (fun route hr he => hne' ((hpath route hr).symm.trans he)) method
      rw [h, hnone, Option.or_none]

/-- Removing routes of one path. -/
lemma answer_removeRoutes {router : RouterState O} {path : String} {routes : List (Route O)}
    (hne : routes ≠ []) (hpath : ∀ route ∈ routes, route.path = path) (path' : String)
    (method : HttpMethod) :
    (router.removeRoutes routes).matcher.answer path' method =
      if path = path' then none else router.matcher.answer path' method := by
  have hfold : ∀ (rs : List (Route O)) (matcher : Matcher O),
      (∀ route ∈ rs, route.path = path) →
      (rs.foldl (fun matcher route => removeRouteFromMatcher route.path matcher) matcher).answer
        path' method = if rs ≠ [] ∧ path = path' then none else matcher.answer path' method := by
    intro rs
    induction rs with
    | nil => intro matcher _; simp
    | cons route rs ih =>
        intro matcher hrs
        rw [List.foldl_cons, ih _ fun r hr => hrs r (List.mem_cons_of_mem _ hr),
          removeRouteFromMatcher, hrs route List.mem_cons_self, Matcher.answer_remove]
        by_cases he : path = path' <;> simp [he]
  rw [removeRoutes]
  dsimp only
  rw [hfold routes router.matcher hpath]
  simp [hne]

end RouterState

end Blaize.Router
