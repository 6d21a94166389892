import Blaize.Router.Router

/-!
Do the matcher and the registry agree?

Registry and matcher are updated by separate code under different source keys: the initial
load files all routes under their directory, later events file them under their own file, so
that a route the registry knows is added to the matcher a second time and the old entry keeps
answering; and the callback for a removed file leaves the registry as it is.

* `InSync`: the matcher answers for each path and method with the options of the registry's
  current route;
* `Faithful`: the updates and removals that the two stores take in the same way;
* `RouterState.update_inSync`: **a faithful update keeps them in sync**;
* `matcher_registry_agree`: so does every run of faithful steps;
* `not_matcher_registry_agree`: an event for a file of the loaded directory does not.
-/

namespace Blaize.Router

open Machine

variable {O : Type}

def HttpMethod.all : List HttpMethod := [.GET, .POST, .PUT, .DELETE, .PATCH, .HEAD, .OPTIONS]

lemma HttpMethod.mem_all (method : HttpMethod) : method ∈ HttpMethod.all := by
  cases method <;> decide

instance (p : HttpMethod → Prop) [DecidablePred p] : Decidable (∀ method, p method) :=
  decidable_of_iff (∀ method ∈ HttpMethod.all, p method)
    ⟨fun h method => h method method.mem_all, fun h method _ => h method⟩

/-- The options that a map of routes has for a path and a method. -/
def optionsIn (routes : OrdMap String (Route O)) (path : String) (method : HttpMethod) : Option O :=
  (routes.get path).bind (·.options method)

/-- The matcher answers as the map of routes says. -/
def AnswersAs (matcher : Matcher O) (routes : OrdMap String (Route O)) : Prop :=
  ∀ path method, matcher.answer path method = optionsIn routes path method

/-- Two routes have the same options. -/
def Route.Alike (route route' : Route O) : Prop :=
  ∀ method, route.options method = route'.options method

instance [DecidableEq O] (route route' : Route O) : Decidable (route.Alike route') :=
  inferInstanceAs (Decidable (∀ _, _))

/-- The path of a route compiles, or there is nothing to add. -/
def Route.Addable (route : Route O) : Prop :=
  (compilePathPattern route.path).isSome = true ∨ ∀ method, route.options method = none

instance [DecidableEq O] (route : Route O) : Decidable route.Addable :=
  inferInstanceAs (Decidable (_ ∨ ∀ _, _))

/-! ### One route -/

lemma optionsIn_set (routes : OrdMap String (Route O)) (route : Route O) (path : String)
    (method : HttpMethod) :
    optionsIn (routes.set route.path route) path method =
      if route.path = path then route.options method else optionsIn routes path method := by
  rw [optionsIn, OrdMap.get_set]
  split <;> rfl

/-- The handlers of one path are added one after the other. -/
lemma forEach_add {path : String} (entries : List (HttpMethod × Option O))
    (hnodup : (entries.map Prod.fst).Nodup)
    (hadd : (compilePathPattern path).isSome = true ∨
      ∀ method, (OrdMap.find method entries).join = none)
    (matcher : Matcher O) :
    ∃ matcher', forEach (fun entry matcher =>
        match entry with
        | (_, none) => (true, matcher)
        | (method, some methodOptions) =>
            match Matcher.add matcher path method methodOptions with
            | some matcher' => (true, matcher')
            | none => (false, matcher)) entries matcher = (true, matcher') ∧
      ∀ path' method, matcher'.answer path' method = (matcher.answer path' method).or
        (if path = path' then (OrdMap.find method entries).join else none) := by
  induction entries generalizing matcher with
  | nil => exact ⟨matcher, rfl, fun path' method => by simp [OrdMap.find]⟩
  | cons entry entries ih =>
      obtain ⟨key, value⟩ := entry
      rw [List.map_cons, List.nodup_cons] at hnodup
      have hkey : OrdMap.find key entries = none := OrdMap.find_eq_none_iff.mpr hnodup.1
      have hadd' : (compilePathPattern path).isSome = true ∨
          ∀ method, (OrdMap.find method entries).join = none := by
        refine hadd.imp id fun hnone method => ?_
        by_cases hk : key = method
        · subst hk
          rw [hkey]
          rfl
        · simpa [OrdMap.find, hk] using hnone method
      cases value with
      | none =>
          obtain ⟨matcher', hm, ha⟩ := ih hnodup.2 hadd' matcher
          refine ⟨matcher', hm, fun path' method => ?_⟩
          rw [ha]
          by_cases hk : key = method
          · subst hk
            simp [OrdMap.find, hkey]
          · simp [OrdMap.find, hk]
      | some methodOptions =>
          have hcompiles : (compilePathPattern path).isSome = true := by
            refine hadd.resolve_right fun hnone => ?_
            have := hnone key
            simp [OrdMap.find] at this
          obtain ⟨matcher₁, hm₁⟩ := Matcher.exists_add hcompiles matcher key methodOptions
          obtain ⟨matcher', hm, ha⟩ := ih hnodup.2 hadd' matcher₁
          refine ⟨matcher', ?_, fun path' method => ?_⟩
          · simp only [forEach, hm₁]
            exact hm
          · rw [ha, Matcher.answer_add hm₁, Option.or_assoc]
            congr 1
            by_cases hp : path = path'
            · by_cases hk : key = method
              · subst hk
                simp [OrdMap.find, hp]
              · simp [OrdMap.find, hk, hp]
            · simp [hp]

/-- `addRouteToMatcher` answers for the methods of the route that had no answer. -/
lemma addRouteToMatcher_answer {route : Route O} (hadd : route.Addable) (matcher : Matcher O) :
    ∃ matcher', addRouteToMatcher route matcher = (true, matcher') ∧
      ∀ path method, matcher'.answer path method = (matcher.answer path method).or
        (if route.path = path then route.options method else none) :=
  forEach_add route.handlers.entries route.handlers.nodup hadd matcher

/-- Adding a route that is new, or like the one that is registered. -/
lemma AnswersAs.add {matcher : Matcher O} {routes : OrdMap String (Route O)}
    (h : AnswersAs matcher routes) {route : Route O} (hadd : route.Addable)
    (halike : ∀ registered, routes.get route.path = some registered → registered.Alike route) :
    ∃ matcher', addRouteToMatcher route matcher = (true, matcher') ∧
      AnswersAs matcher' (routes.set route.path route) := by
  obtain ⟨matcher', hm, ha⟩ := addRouteToMatcher_answer hadd matcher
  refine ⟨matcher', hm, fun path method => ?_⟩
  rw [ha, optionsIn_set, h]
  split
  next hp =>
      subst hp
      rw [optionsIn]
      cases hr : routes.get route.path with
      | none => rfl
      | some registered =>
          rw [Option.bind_some, halike registered hr method]
          cases route.options method <;> rfl
  next => rw [Option.or_none]

/-- Replacing a route. -/
lemma AnswersAs.update {matcher : Matcher O} {routes : OrdMap String (Route O)}
    (h : AnswersAs matcher routes) {route : Route O} (hadd : route.Addable) :
    ∃ matcher', updateRouteInMatcher route matcher = (true, matcher') ∧
      AnswersAs matcher' (routes.set route.path route) := by
  obtain ⟨matcher', hm, ha⟩ := addRouteToMatcher_answer hadd (matcher.remove route.path)
  refine ⟨matcher', hm, fun path method => ?_⟩
  rw [ha, Matcher.answer_remove, optionsIn_set]
  split
  · rw [Option.none_or]
  · rw [Option.or_none, h]

/-- Removing paths from both. -/
lemma AnswersAs.remove {matcher : Matcher O} {routes : OrdMap String (Route O)}
    (h : AnswersAs matcher routes) (paths : List String) :
    AnswersAs (paths.foldl (fun matcher path => removeRouteFromMatcher path matcher) matcher)
      (paths.foldl OrdMap.delete routes) := by
  induction paths generalizing matcher routes with
  | nil => exact h
  | cons path paths ih =>
      refine ih fun path' method => ?_
      simp only [removeRouteFromMatcher, Matcher.answer_remove, optionsIn, OrdMap.get_delete]
      split
      · rfl
      · exact h path' method

/-! ### Lists of routes -/

/-- Adding routes of which each is new or like the one that is registered, or that comes
before it. -/
lemma AnswersAs.addAll {matcher : Matcher O} {routes : OrdMap String (Route O)}
    (h : AnswersAs matcher routes) (added : List (Route O)) (hadd : ∀ route ∈ added, route.Addable)
    (hnew : ∀ route ∈ added, ∀ registered, routes.get route.path = some registered →
      registered.Alike route)
    (hdup : ∀ route ∈ added, ∀ route' ∈ added, route.path = route'.path → route.Alike route') :
    ∃ matcher', forEach addRouteToMatcher added matcher = (true, matcher') ∧
      AnswersAs matcher' (added.foldl (fun m route => m.set route.path route) routes) := by
  induction added generalizing matcher routes with
  | nil => exact ⟨matcher, rfl, h⟩
  | cons route added ih =>
      obtain ⟨matcher₁, hm₁, h₁⟩ :=
        h.add (hadd route List.mem_cons_self) (hnew route List.mem_cons_self)
      obtain ⟨matcher', hm, h'⟩ := ih h₁ (fun r hr => hadd r (List.mem_cons_of_mem _ hr))
        (fun r hr registered hget => by
          rw [OrdMap.get_set] at hget
          split at hget
          next hp =>
              cases hget
              exact hdup route List.mem_cons_self r (List.mem_cons_of_mem _ hr) hp
          next => exact hnew r (List.mem_cons_of_mem _ hr) registered hget)
        (fun r hr r' hr' => hdup r (List.mem_cons_of_mem _ hr) r' (List.mem_cons_of_mem _ hr'))
      exact ⟨matcher', by simp only [forEach, hm₁, hm], h'⟩

lemma AnswersAs.updateAll {matcher : Matcher O} {routes : OrdMap String (Route O)}
    (h : AnswersAs matcher routes) (changed : List (Route O))
    (hadd : ∀ route ∈ changed, route.Addable) :
    ∃ matcher', forEach updateRouteInMatcher changed matcher = (true, matcher') ∧
      AnswersAs matcher' (changed.foldl (fun m route => m.set route.path route) routes) := by
  induction changed generalizing matcher routes with
  | nil => exact ⟨matcher, rfl, h⟩
  | cons route changed ih =>
      obtain ⟨matcher₁, hm₁, h₁⟩ := h.update (hadd route List.mem_cons_self)
      obtain ⟨matcher', hm, h'⟩ := ih h₁ fun r hr => hadd r (List.mem_cons_of_mem _ hr)
      exact ⟨matcher', by simp only [forEach, hm₁, hm], h'⟩

namespace RouterState

/-- **The matcher and the registry agree.** -/
def InSync (s : RouterState O) : Prop := AnswersAs s.matcher s.registry.routesByPath

/-- An update that the two stores take in the same way: the paths compile, a route that is new
to its source is not registered by another one, unless with the same options, and it does not
come twice with different options. -/
def SafeUpdate (s : RouterState O) (source : String) (routes : List (Route O)) : Prop :=
  (∀ route ∈ routes, route.Addable) ∧
    ∀ route ∈ routes, (s.registry.pathsOf source).has route.path = false →
      (∀ registered ∈ s.registry.routesByPath.get route.path, registered.Alike route) ∧
        ∀ route' ∈ routes, route.path = route'.path → route.Alike route'

/-- **The condition for the two stores to stay in sync**: updates are safe, and a removed file
has had no route that the registry has options for. -/
def Faithful (s : RouterState O) : Action O → Prop
  | .load directory pathPrefix routes => s.SafeUpdate directory (routes.map (withPrefix pathPrefix))
  | .fileAdded filepath pathPrefix routes =>
      s.SafeUpdate filepath (routes.map (withPrefix pathPrefix))
  | .fileChanged filepath pathPrefix routes =>
      s.SafeUpdate filepath (routes.map (withPrefix pathPrefix))
  | .fileRemoved _ pathPrefix routes => ∀ route ∈ routes.map (withPrefix pathPrefix), ∀ method,
      s.registry.options route.path method = none
  | .addRoute route => s.SafeUpdate programmatic [route]
  | .addRoutes routes => s.SafeUpdate programmatic routes

/-- **A safe update keeps matcher and registry in sync.** -/
lemma update_inSync {s : RouterState O} (h : s.InSync) {source : String} {routes : List (Route O)}
    (hsafe : s.SafeUpdate source routes) : (s.update source routes).InSync := by
  obtain ⟨hadd, hfresh⟩ := hsafe
  let changes := s.registry.changesFrom source routes
  have hadded : ∀ route ∈ changes.added, route ∈ routes ∧
      (s.registry.pathsOf source).has route.path = false := by
    intro route hr
    simpa [changes, RouteRegistry.changesFrom] using hr
  have hchanged : ∀ route ∈ changes.changed, route ∈ routes := fun route hr =>
    List.mem_of_mem_filter (List.mem_of_mem_filter hr)
  obtain ⟨matcher₁, hm₁, h₁⟩ := (h.remove changes.removed).addAll changes.added
    (fun route hr => hadd route (hadded route hr).1)
    (fun route hr registered hget => by
      rw [OrdMap.get_foldl_delete] at hget
      split at hget
      · cases hget
      · exact (hfresh route (hadded route hr).1 (hadded route hr).2).1 registered hget)
    (fun route hr route' hr' =>
      (hfresh route (hadded route hr).1 (hadded route hr).2).2 route' (hadded route' hr').1)
  obtain ⟨matcher₂, hm₂, h₂⟩ := h₁.updateAll changes.changed
    fun route hr => hadd route (hchanged route hr)
  have happly : applyMatcherChanges changes s.matcher = (true, matcher₂) := by
    simp only [applyMatcherChanges, hm₁, hm₂]
  have hmatcher : (s.update source routes).matcher = matcher₂ := congrArg Prod.snd happly
  have hregistry : (s.update source routes).registry.routesByPath =
      changes.changed.foldl (fun m route => m.set route.path route)
        (changes.added.foldl (fun m route => m.set route.path route)
          (changes.removed.foldl OrdMap.delete s.registry.routesByPath)) :=
    List.foldl_append ..
  rw [InSync, hmatcher, hregistry]
  exact h₂

/-- A removal that the registry does not notice does not matter to the matcher. -/
lemma removeRoutes_inSync {s : RouterState O} (h : s.InSync) {routes : List (Route O)}
    (hgone : ∀ route ∈ routes, ∀ method, s.registry.options route.path method = none) :
    (s.removeRoutes routes).InSync := by
  induction routes generalizing s with
  | nil => exact h
  | cons route routes ih =>
      refine ih (s := { s with matcher := removeRouteFromMatcher route.path s.matcher })
        (fun path method => ?_) fun r hr => hgone r (List.mem_cons_of_mem _ hr)
      rw [removeRouteFromMatcher, Matcher.answer_remove]
      split
      next hp =>
          subst hp
          exact (hgone route List.mem_cons_self method).symm
      next => exact h path method

lemma step_inSync {s s' : RouterState O} {a : Action O} (h : s.InSync) (hf : s.Faithful a)
    (hstep : s.step a = some s') : s'.InSync := by
  cases a with
  | fileRemoved filepath pathPrefix routes =>
      obtain rfl := Option.some.inj hstep
      exact removeRoutes_inSync h hf
  | _ =>
      obtain rfl := Option.some.inj hstep
      exact update_inSync h hf

/-- **Matcher and registry agree along every run of faithful steps**: the pairs of a path and a
method that the matcher has entries for are those of the registry's routes, and the matcher
answers each pair with the options of the registry's current route for the path. -/
theorem matcher_registry_agree {as : List (Action O)} {s : RouterState O}
    (hfaithful : Meets step Faithful {} as) (hrun : exec step {} as = some s) :
    (∀ path method, (∃ entry ∈ s.matcher.routes, entry.path = path ∧ entry.method = method) ↔
        ∃ route, s.registry.routesByPath.get path = some route ∧
          (route.options method).isSome = true) ∧
      ∀ path method, s.matcher.answer path method = s.registry.options path method := by
  have h : s.InSync := meets_invariant (fun s a s' h hf hs => step_inSync h hf hs)
    (fun path method => rfl) hfaithful hrun
  refine ⟨fun path method => ?_, h⟩
  rw [← Matcher.isSome_answer, h, optionsIn]
  cases s.registry.routesByPath.get path <;> simp

instance [DecidableEq O] (s : RouterState O) (source : String) (routes : List (Route O)) :
    Decidable (s.SafeUpdate source routes) := inferInstanceAs (Decidable (_ ∧ ∀ _ ∈ routes, _))

instance [DecidableEq O] (s : RouterState O) : (a : Action O) → Decidable (s.Faithful a)
  | .load directory pathPrefix routes =>
      inferInstanceAs (Decidable (s.SafeUpdate directory (routes.map (withPrefix pathPrefix))))
  | .fileAdded filepath pathPrefix routes =>
      inferInstanceAs (Decidable (s.SafeUpdate filepath (routes.map (withPrefix pathPrefix))))
  | .fileChanged filepath pathPrefix routes =>
      inferInstanceAs (Decidable (s.SafeUpdate filepath (routes.map (withPrefix pathPrefix))))
  | .fileRemoved _ pathPrefix routes =>
      inferInstanceAs (Decidable (∀ route ∈ routes.map (withPrefix pathPrefix), ∀ method,
        s.registry.options route.path method = none))
  | .addRoute route => inferInstanceAs (Decidable (s.SafeUpdate programmatic [route]))
  | .addRoutes routes => inferInstanceAs (Decidable (s.SafeUpdate programmatic routes))

/-- A route with one `GET` handler. -/
def getRoute (path : String) (options : ℕ) : Route ℕ := ⟨path, OrdMap.set ∅ .GET (some options)⟩

/-- A directory is loaded, a file with another path is added and then changed to a third one, a
route is added by hand, and the file's first route is reported as removed. -/
def loadAndExtend : List (Action ℕ) :=
  [.load "routes" none [getRoute "/a" 1, getRoute "/b/:id" 2],
    .fileAdded "routes/c.ts" none [getRoute "/c" 3],
    .fileChanged "routes/c.ts" none [getRoute "/d" 4], .addRoute (getRoute "/e" 5),
    .fileRemoved "routes/c.ts" none [getRoute "/c" 3]]

theorem matcher_registry_agree_loadAndExtend :
    ∃ s, exec step {} loadAndExtend = some s ∧ Meets step Faithful {} loadAndExtend ∧
      ∀ path method, s.matcher.answer path method = s.registry.options path method := by
  have hfaithful : Meets step Faithful {} loadAndExtend := by decide
  obtain ⟨s, hs⟩ : ∃ s, exec step {} loadAndExtend = some s := ⟨_, rfl⟩
  exact ⟨s, hs, hfaithful, (matcher_registry_agree hfaithful hs).2⟩

/-- A directory is loaded and one of its files is changed. -/
def loadAndChange : List (Action ℕ) :=
  [.load "routes" none [getRoute "/a" 1], .fileChanged "routes/a.ts" none [getRoute "/a" 2]]

/-- The registry has the options of the changed file, the matcher still answers with those of
the initial load. -/
theorem not_matcher_registry_agree :
    ¬ ∀ (as : List (Action ℕ)) (s : RouterState ℕ), exec step {} as = some s →
      (∀ path method, (∃ entry ∈ s.matcher.routes, entry.path = path ∧ entry.method = method) ↔
          ∃ route, s.registry.routesByPath.get path = some route ∧
            (route.options method).isSome = true) ∧
        ∀ path method, s.matcher.answer path method = s.registry.options path method := by
  intro h
  obtain ⟨s, hs, hm, hr⟩ : ∃ s, exec step {} loadAndChange = some s ∧
      s.matcher.answer "/a" .GET = some 1 ∧ s.registry.options "/a" .GET = some 2 :=
    ⟨_, rfl, rfl, rfl⟩
  have := (h loadAndChange s hs).2 "/a" .GET
  rw [hm, hr] at this
  cases this

end RouterState

end Blaize.Router
