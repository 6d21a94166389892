import Mathlib.Data.List.Pairwise
import Mathlib.Data.List.Perm.Basic
import Blaize.Router.Update

/-!
Is every registered directory loaded (`router.ts`)?

The initialization starts when the router is made, with the directory of its options, and waits
for the disk.  `addRouteDirectory` loads a directory at once if the router is initialized, and
otherwise leaves it to the initialization, which has its list of directories already.

* `step`: the calls of `addRouteDirectory`, the ends of the loads and of the initialization;
* `AllLoaded`: the registry has the routes of every registered directory;
* `Timely`: a directory with routes is registered when the router is initialized;
* `allLoaded_iff_timely`: **all directories are loaded exactly if all came in time**.
-/

namespace Blaize.Router

open Machine

variable {O : Type}

/-! ### Loading directories -/

/-- A load that waits for the disk. -/
structure DirectoryLoad where
  directory : String
  pathPrefix : Option String
  /-- Whether the initialization waits for it. -/
  initial : Bool
  deriving DecidableEq

/-- A router that loads directories.  The code keeps the directories only; their prefixes and the
list of those that were loaded are added here. -/
structure Loader (O : Type) where
  router : RouterState O := {}
  routeDirectories : OrdMap String (Option String)
  pending : List DirectoryLoad
  loaded : List String := []
  initialized : Bool := false

inductive LoaderAction where
  | addRouteDirectory (directory : String) (pathPrefix : Option String)
  | load (number : ℕ)
  | finishInitialization
  deriving DecidableEq

namespace Loader

/-- The router when `createRouter` returns. -/
def start (routesDir : String) : Loader O where
  routeDirectories := OrdMap.set ∅ routesDir none
  pending := [⟨routesDir, none, true⟩]

/-- The routes of a directory as they are added. -/
def routesOf (discover : String → List (Route O)) (directory : String)
    (pathPrefix : Option String) : List (Route O) :=
  (discover directory).map (withPrefix pathPrefix)

variable (discover : String → List (Route O)) (s : Loader O)

def addRouteDirectory (directory : String) (pathPrefix : Option String) : Loader O :=
  if s.routeDirectories.has directory then s
  else
    let s := { s with routeDirectories := s.routeDirectories.set directory pathPrefix }
    if s.initialized then { s with pending := s.pending ++ [⟨directory, pathPrefix, false⟩] } else s

/-- `loadRoutesFromDirectory` from the end of the discovery on; `none` when it throws. -/
def finishLoad (number : ℕ) (load : DirectoryLoad) : Option (Loader O) :=
  let routes := routesOf discover load.directory load.pathPrefix
  let (changes, registry) := s.router.registry.updateRoutesFromFile load.directory routes
  match applyMatcherChanges changes s.router.matcher with
  | (true, matcher) =>
      some { s with
        router := { registry := registry, matcher := matcher }
        pending := s.pending.eraseIdx number
        loaded := s.loaded ++ [load.directory] }
  | (false, _) => none

/-- Runs in which something throws are not followed. -/
def step : LoaderAction → Option (Loader O)
  | .addRouteDirectory directory pathPrefix => some (s.addRouteDirectory directory pathPrefix)
  | .load number => s.pending[number]?.bind (s.finishLoad discover number)
  | .finishInitialization =>
      if s.initialized || s.pending.any (·.initial) then none
      else some { s with initialized := true }

/-! ### The property and its condition -/

/-- The initialization and all calls are over. -/
def Settled : Prop := s.initialized = true ∧ s.pending = []

/-- The registry has the routes of every registered directory. -/
def AllLoaded : Prop :=
  ∀ directory pathPrefix, s.routeDirectories.get directory = some pathPrefix →
    ∀ route ∈ routesOf discover directory pathPrefix,
      s.router.registry.routesByPath.get route.path = some route

/-- A directory that has routes is registered when the router is initialized. -/
def Timely : LoaderAction → Prop
  | .addRouteDirectory directory _ =>
      s.routeDirectories.has directory = true ∨ s.initialized = true ∨ discover directory = []
  | _ => True

/-- No two routes of the registered directories have one path. -/
def NoClash : Prop :=
  ((s.routeDirectories.entries.flatMap fun p => routesOf discover p.1 p.2).map Route.path).Nodup

/-! ### The registry -/

section Registry

variable {routes : List (Route O)} {m : OrdMap String (Route O)}

lemma get_foldl_set_of_notMem {path : String} (h : path ∉ routes.map Route.path) :
    (routes.foldl (fun m route => m.set route.path route) m).get path = m.get path := by
  induction routes generalizing m with
  | nil => rfl
  | cons route routes ih =>
      rw [List.map_cons, List.mem_cons, not_or] at h
      rw [List.foldl_cons, ih h.2, OrdMap.get_set_ne _ _ (Ne.symm h.1)]

/-- Routes of different paths are all there. -/
lemma get_foldl_set_of_mem (hnodup : (routes.map Route.path).Nodup) {route : Route O}
    (h : route ∈ routes) :
    (routes.foldl (fun m route => m.set route.path route) m).get route.path = some route := by
  induction routes generalizing m with
  | nil => cases h
  | cons first routes ih =>
      rw [List.map_cons, List.nodup_cons] at hnodup
      rcases List.mem_cons.mp h with rfl | h
      · rw [List.foldl_cons, get_foldl_set_of_notMem hnodup.1, OrdMap.get_set_self]
      · exact ih hnodup.2 h

/-- A route that is there is a new one or was there. -/
lemma mem_of_get_foldl_set {path : String} {route : Route O}
    (h : (routes.foldl (fun m route => m.set route.path route) m).get path = some route) :
    (route ∈ routes ∧ route.path = path) ∨ m.get path = some route := by
  induction routes generalizing m with
  | nil => exact .inr h
  | cons first routes ih =>
      rcases ih h with ⟨hmem, hpath⟩ | h
      · exact .inl ⟨List.mem_cons_of_mem first hmem, hpath⟩
      · rw [OrdMap.get_set] at h
        split at h
        next hpath =>
          obtain rfl := Option.some.inj h
          exact .inl ⟨List.mem_cons_self, hpath⟩
        next => exact .inr h

/-- An update of a source is none of another one. -/
lemma pathsOf_applyRouteUpdates_ne {registry : RouteRegistry O} {source source' : String}
    (h : source ≠ source') {updates : RouteChanges O} :
    (registry.applyRouteUpdates source updates).pathsOf source' = registry.pathsOf source' := by
  rw [RouteRegistry.pathsOf, RouteRegistry.applyRouteUpdates]
  dsimp only
  split
  next => rw [OrdMap.get_set_ne _ _ h]; rfl
  next => rw [OrdMap.get_delete_ne _ h]; rfl

end Registry

/-! ### The invariant -/

variable {discover : String → List (Route O)} {s s' : Loader O}

/-- What the end of a load leaves, in a registry that has nothing of the directory yet. -/
lemma finishLoad_cases {number : ℕ} {load : DirectoryLoad}
    (hfresh : s.router.registry.pathsOf load.directory = ∅)
    (h : s.finishLoad discover number load = some s') :
    ∃ matcher, s' = { s with
      router := {
        registry := s.router.registry.applyRouteUpdates load.directory
          ⟨routesOf discover load.directory load.pathPrefix, [], []⟩
        matcher := matcher }
      pending := s.pending.eraseIdx number
      loaded := s.loaded ++ [load.directory] } := by
  rw [finishLoad, RouteRegistry.updateRoutesFromFile,
    RouteRegistry.changesFrom_of_pathsOf_empty hfresh] at h
  dsimp only at h
  split at h
  next matcher _ =>
    obtain rfl := Option.some.inj h
    exact ⟨matcher, rfl⟩
  next => cases h

/-- The directories, the loads and the registry fit together. -/
structure Consistent (discover : String → List (Route O)) (s : Loader O) : Prop where
  nodup : (s.loaded ++ s.pending.map DirectoryLoad.directory).Nodup
  pending : ∀ load ∈ s.pending, s.routeDirectories.get load.directory = some load.pathPrefix
  loaded : ∀ directory ∈ s.loaded, s.routeDirectories.has directory = true
  fresh : ∀ directory, directory ∉ s.loaded → s.router.registry.pathsOf directory = ∅
  sound : ∀ path route, s.router.registry.routesByPath.get path = some route →
    ∃ directory ∈ s.loaded, ∃ pathPrefix, s.routeDirectories.get directory = some pathPrefix ∧
      route ∈ routesOf discover directory pathPrefix ∧ route.path = path
  complete : s.NoClash discover → ∀ directory ∈ s.loaded, ∀ pathPrefix,
    s.routeDirectories.get directory = some pathPrefix →
      ∀ route ∈ routesOf discover directory pathPrefix,
        s.router.registry.routesByPath.get route.path = some route

lemma consistent_start (discover : String → List (Route O)) (routesDir : String) :
    Consistent discover (start routesDir) where
  nodup := List.nodup_singleton _
  pending := by
    intro load hload
    obtain rfl := List.mem_singleton.mp hload
    exact OrdMap.get_set_self _ _ _
  loaded := nofun
  fresh := fun _ _ => rfl
  sound := nofun
  complete := nofun

lemma noClash_iff : s.NoClash discover ↔
    (∀ p ∈ s.routeDirectories.entries, ((routesOf discover p.1 p.2).map Route.path).Nodup) ∧
      s.routeDirectories.entries.Pairwise fun p q =>
        ((routesOf discover p.1 p.2).map Route.path).Disjoint
          ((routesOf discover q.1 q.2).map Route.path) := by
  rw [NoClash, List.map_flatMap, List.nodup_flatMap]

/-- Routes with one path are of one directory. -/
lemma NoClash.eq (h : s.NoClash discover) {directory directory' : String}
    {pathPrefix pathPrefix' : Option String} {route route' : Route O}
    (hd : s.routeDirectories.get directory = some pathPrefix)
    (hd' : s.routeDirectories.get directory' = some pathPrefix')
    (hroute : route ∈ routesOf discover directory pathPrefix)
    (hroute' : route' ∈ routesOf discover directory' pathPrefix')
    (hpath : route.path = route'.path) : directory = directory' := by
  by_contra hne
  have hsymm : Std.Symm fun p q : String × Option String =>
      ((routesOf discover p.1 p.2).map Route.path).Disjoint
        ((routesOf discover q.1 q.2).map Route.path) := ⟨fun _ _ hpq _ ha hb => hpq hb ha⟩
  have hdisjoint := (noClash_iff.mp h).2.forall ((OrdMap.mem_entries_iff _).mpr hd)
    ((OrdMap.mem_entries_iff _).mpr hd') fun he => hne (congrArg Prod.fst he)
  exact hdisjoint (List.mem_map_of_mem hroute) (hpath ▸ List.mem_map_of_mem hroute')

/-- What a call does. -/
lemma addRouteDirectory_cases (s : Loader O) (directory : String) (pathPrefix : Option String) :
    (s.routeDirectories.has directory = true ∧ s.addRouteDirectory directory pathPrefix = s) ∨
      (s.routeDirectories.get directory = none ∧ s.addRouteDirectory directory pathPrefix = { s with
        routeDirectories := s.routeDirectories.set directory pathPrefix
        pending := if s.initialized then s.pending ++ [⟨directory, pathPrefix, false⟩]
          else s.pending }) := by
  unfold addRouteDirectory
  by_cases hhas : s.routeDirectories.has directory = true
  · exact .inl ⟨hhas, if_pos hhas⟩
  · refine .inr ⟨(OrdMap.has_eq_false_iff _).mp (Bool.eq_false_iff.mpr hhas), ?_⟩
    rw [if_neg hhas]
    dsimp only
    split <;> rfl

/-- With one more directory there is no less of a clash. -/
lemma NoClash.of_set {directory : String} {pathPrefix : Option String}
    {pending : List DirectoryLoad} (hnone : s.routeDirectories.get directory = none)
    (h : ({ s with
      routeDirectories := s.routeDirectories.set directory pathPrefix
      pending := pending } : Loader O).NoClash discover) : s.NoClash discover := by
  rw [NoClash, OrdMap.entries_set_of_get_none hnone, List.flatMap_append, List.map_append] at h
  exact (List.nodup_append.mp h).1

/-- **A call keeps the invariant.** -/
lemma Consistent.addRouteDirectory (h : Consistent discover s) (directory : String)
    (pathPrefix : Option String) :
    Consistent discover (s.addRouteDirectory directory pathPrefix) := by
  rcases addRouteDirectory_cases s directory pathPrefix with ⟨-, heq⟩ | ⟨hnone, heq⟩
  · rw [heq]
    exact h
  · rw [heq]
    have hother {other : String} (hother : s.routeDirectories.has other = true) :
        directory ≠ other := by
      rintro rfl
      rw [(OrdMap.has_eq_false_iff _).mpr hnone] at hother
      cases hother
    have hget {other : String} (hother' : s.routeDirectories.has other = true) :
        (s.routeDirectories.set directory pathPrefix).get other = s.routeDirectories.get other :=
      OrdMap.get_set_ne _ _ (hother hother')
    have hpending : ∀ load ∈ s.pending, s.routeDirectories.has load.directory = true :=
      fun load hload => (OrdMap.has_iff _).mpr ⟨_, h.pending load hload⟩
    refine ⟨?_, ?_, ?_, h.fresh, ?_, ?_⟩
    · split
      next =>
        rw [List.map_append, ← List.append_assoc]
        refine List.nodup_append.mpr ⟨h.nodup, List.nodup_singleton _, ?_⟩
        intro other hmem d hd
        obtain rfl := List.mem_singleton.mp hd
        refine (hother ?_).symm
        rcases List.mem_append.mp hmem with hmem | hmem
        · exact h.loaded other hmem
        · obtain ⟨load, hload, rfl⟩ := List.mem_map.mp hmem
          exact hpending load hload
      next => exact h.nodup
    · have hold : ∀ load ∈ s.pending,
          (s.routeDirectories.set directory pathPrefix).get load.directory =
            some load.pathPrefix :=
        fun load hload => (hget (hpending load hload)).trans (h.pending load hload)
      split
      next =>
        intro load hload
        rcases List.mem_append.mp hload with hload | hload
        · exact hold load hload
        · obtain rfl := List.mem_singleton.mp hload
          exact OrdMap.get_set_self _ _ _
      next => exact hold
    · intro other hmem
      have hhas := h.loaded other hmem
      exact (OrdMap.has_iff _).mpr (by rw [hget hhas]; exact (OrdMap.has_iff _).mp hhas)
    · intro path route hroute
      obtain ⟨other, hmem, p, hp, hroute⟩ := h.sound path route hroute
      exact ⟨other, hmem, p, (hget (h.loaded other hmem)).trans hp, hroute⟩
    · intro hclash other hmem p hp
      exact h.complete (hclash.of_set hnone) other hmem p
        ((hget (h.loaded other hmem)).symm.trans hp)

/-- A directory goes from the pending loads to the loaded ones. -/
lemma perm_finishLoad {number : ℕ} {load : DirectoryLoad}
    (hload : s.pending[number]? = some load) :
    (s.loaded ++ [load.directory] ++
      (s.pending.eraseIdx number).map DirectoryLoad.directory).Perm
        (s.loaded ++ s.pending.map DirectoryLoad.directory) := by
  obtain ⟨hlt, rfl⟩ := List.getElem?_eq_some_iff.mp hload
  rw [List.append_assoc]
  exact ((List.getElem_cons_eraseIdx_perm hlt).map DirectoryLoad.directory).append_left s.loaded

lemma Consistent.load_notMem (h : Consistent discover s) {load : DirectoryLoad}
    (hload : load ∈ s.pending) : load.directory ∉ s.loaded := fun hin =>
  List.disjoint_of_nodup_append h.nodup hin (List.mem_map_of_mem hload)

/-- A directory that was loaded or is being loaded is registered. -/
lemma Consistent.has_of_mem (h : Consistent discover s) {directory : String}
    (hmem : directory ∈ s.loaded ++ s.pending.map DirectoryLoad.directory) :
    s.routeDirectories.has directory = true := by
  rcases List.mem_append.mp hmem with hmem | hmem
  · exact h.loaded directory hmem
  · obtain ⟨load, hload, rfl⟩ := List.mem_map.mp hmem
    exact (OrdMap.has_iff _).mpr ⟨_, h.pending load hload⟩

/-- **The end of a load keeps the invariant.** -/
lemma Consistent.finishLoad (h : Consistent discover s) {number : ℕ} {load : DirectoryLoad}
    (hload : s.pending[number]? = some load)
    (hfinish : s.finishLoad discover number load = some s') :
    Consistent discover s' := by
  have hmem : load ∈ s.pending := List.mem_of_getElem? hload
  have hnew : load.directory ∉ s.loaded := h.load_notMem hmem
  obtain ⟨matcher, rfl⟩ := finishLoad_cases (h.fresh _ hnew) hfinish
  have hget := h.pending load hmem
  refine ⟨?_, ?_, ?_, ?_, ?_, ?_⟩
  · exact (perm_finishLoad hload).nodup_iff.mpr h.nodup
  · exact fun other hother => h.pending other (List.mem_of_mem_eraseIdx hother)
  · intro directory hd
    rcases List.mem_append.mp hd with hd | hd
    · exact h.loaded directory hd
    · obtain rfl := List.mem_singleton.mp hd
      exact (OrdMap.has_iff _).mpr ⟨_, hget⟩
  · intro directory hd
    rw [List.mem_append, List.mem_singleton, not_or] at hd
    exact (pathsOf_applyRouteUpdates_ne (Ne.symm hd.2)).trans (h.fresh directory hd.1)
  · intro path route hroute
    rcases mem_of_get_foldl_set hroute with ⟨hroute, hpath⟩ | hroute
    · rw [List.append_nil] at hroute
      exact ⟨_, List.mem_append_right _ List.mem_cons_self, _, hget, hroute, hpath⟩
    · obtain ⟨directory, hd, rest⟩ := h.sound path route hroute
      exact ⟨directory, List.mem_append_left _ hd, rest⟩
  · intro hclash directory hd p hp route hroute
    show ((routesOf discover load.directory load.pathPrefix ++ []).foldl
      (fun (m : OrdMap String (Route O)) (route : Route O) => m.set route.path route)
        s.router.registry.routesByPath).get route.path = _
    rw [List.append_nil]
    rcases List.mem_append.mp hd with hd | hd
    · rw [get_foldl_set_of_notMem]
      · exact h.complete hclash directory hd p hp route hroute
      · intro hpath
        obtain ⟨other, hother, hpath⟩ := List.mem_map.mp hpath
        exact hnew (NoClash.eq hclash hget hp hother hroute hpath ▸ hd)
    · obtain rfl := List.mem_singleton.mp hd
      obtain rfl := Option.some.inj (hget.symm.trans hp)
      exact get_foldl_set_of_mem
        ((noClash_iff.mp hclash).1 _ ((OrdMap.mem_entries_iff _).mpr hget)) hroute

/-- **Every step keeps the invariant.** -/
lemma consistent_step {action : LoaderAction} (h : Consistent discover s)
    (hstep : s.step discover action = some s') : Consistent discover s' := by
  cases action with
  | addRouteDirectory directory pathPrefix =>
      obtain rfl := Option.some.inj hstep
      exact h.addRouteDirectory directory pathPrefix
  | load number =>
      obtain ⟨load, hload, hfinish⟩ := Option.bind_eq_some_iff.mp hstep
      exact h.finishLoad hload hfinish
  | finishInitialization =>
      rw [step] at hstep
      split at hstep
      next => cases hstep
      next =>
        obtain rfl := Option.some.inj hstep
        exact ⟨h.nodup, h.pending, h.loaded, h.fresh, h.sound, h.complete⟩

/-! ### What is left out -/

/-- Every registered directory with routes was loaded or is being loaded. -/
def Covered (discover : String → List (Route O)) (s : Loader O) : Prop :=
  ∀ directory, s.routeDirectories.has directory = true →
    directory ∈ s.loaded ++ s.pending.map DirectoryLoad.directory ∨ discover directory = []

/-- **A step leaves a directory out exactly if it comes too early for it.** -/
lemma covered_step {action : LoaderAction} (h : Consistent discover s)
    (hstep : s.step discover action = some s') :
    Covered discover s' ↔ Covered discover s ∧ s.Timely discover action := by
  cases action with
  | addRouteDirectory directory pathPrefix =>
      obtain rfl := Option.some.inj hstep
      rcases addRouteDirectory_cases s directory pathPrefix with ⟨hhas, heq⟩ | ⟨hnone, heq⟩
      · rw [heq]
        exact (and_iff_left (.inl hhas)).symm
      · rw [heq]
        have hnew : directory ∉ s.loaded ++ s.pending.map DirectoryLoad.directory := by
          intro hmem
          have hhas := h.has_of_mem hmem
          rw [(OrdMap.has_eq_false_iff _).mpr hnone] at hhas
          cases hhas
        have hhas (other : String) :
            (s.routeDirectories.set directory pathPrefix).has other = true ↔
              other = directory ∨ s.routeDirectories.has other = true := by
          rw [OrdMap.has, OrdMap.get_set]
          split
          next he => exact iff_of_true rfl (.inl he.symm)
          next hne => exact (or_iff_right (Ne.symm hne)).symm
        have hmem (other : String) :
            other ∈ s.loaded ++ (if s.initialized then s.pending ++ [⟨directory, pathPrefix, false⟩]
              else s.pending).map DirectoryLoad.directory ↔
                other ∈ s.loaded ++ s.pending.map DirectoryLoad.directory ∨
                  s.initialized = true ∧ other = directory := by
          split
          next hinit => simp [hinit, or_assoc]
          next hinit => simp [hinit]
        constructor
        · intro hall
          refine ⟨fun other hother => ?_, ?_⟩
          · refine (hall other ((hhas other).mpr (.inr hother))).imp_left fun hin => ?_
            rcases (hmem other).mp hin with hin | ⟨-, rfl⟩
            · exact hin
            · rw [(OrdMap.has_eq_false_iff _).mpr hnone] at hother
              cases hother
          · rcases hall directory ((hhas directory).mpr (.inl rfl)) with hin | hempty
            · exact .inr (.inl (((hmem directory).mp hin).resolve_left hnew).1)
            · exact .inr (.inr hempty)
        · rintro ⟨hall, htimely⟩ other hother
          rcases (hhas other).mp hother with rfl | hother
          · rcases htimely with hhas' | hinit | hempty
            · rw [(OrdMap.has_eq_false_iff _).mpr hnone] at hhas'
              cases hhas'
            · exact .inl ((hmem other).mpr (.inr ⟨hinit, rfl⟩))
            · exact .inr hempty
          · exact (hall other hother).imp_left fun hin => (hmem other).mpr (.inl hin)
  | load number =>
      obtain ⟨load, hload, hfinish⟩ := Option.bind_eq_some_iff.mp hstep
      obtain ⟨matcher, rfl⟩ := finishLoad_cases
        (h.fresh _ (h.load_notMem (List.mem_of_getElem? hload))) hfinish
      have hmem (other : String) := (perm_finishLoad hload).mem_iff (a := other)
      refine Iff.trans ?_ (and_iff_left trivial).symm
      exact forall₂_congr fun other _ => or_congr_left (hmem other)
  | finishInitialization =>
      rw [step] at hstep
      split at hstep
      next => cases hstep
      next =>
        obtain rfl := Option.some.inj hstep
        exact (and_iff_left trivial).symm

/-- **Without a clash, all routes are there exactly if every directory is covered.** -/
lemma allLoaded_iff_covered (h : Consistent discover s) (hclash : s.NoClash discover)
    (hpending : s.pending = []) : s.AllLoaded discover ↔ Covered discover s := by
  constructor
  · intro hall directory hhas
    rw [hpending, List.map_nil, List.append_nil]
    by_contra hnot
    rw [not_or] at hnot
    obtain ⟨pathPrefix, hget⟩ := (OrdMap.has_iff _).mp hhas
    obtain ⟨route, routes, hroutes⟩ := List.exists_cons_of_ne_nil hnot.2
    have hmem : withPrefix pathPrefix route ∈ routesOf discover directory pathPrefix :=
      List.mem_map_of_mem (hroutes ▸ List.mem_cons_self)
    obtain ⟨other, hother, p, hp, hmem', -⟩ :=
      h.sound _ _ (hall directory pathPrefix hget _ hmem)
    exact hnot.1 (NoClash.eq hclash hget hp hmem hmem' rfl ▸ hother)
  · intro hcovered directory pathPrefix hget route hroute
    rcases hcovered directory ((OrdMap.has_iff _).mpr ⟨_, hget⟩) with hmem | hempty
    · rw [hpending, List.map_nil, List.append_nil] at hmem
      exact h.complete hclash directory hmem pathPrefix hget route hroute
    · rw [routesOf, hempty] at hroute
      cases hroute

end Loader

open Loader

/-- **All routes of the registered directories are there exactly if every directory with routes
was registered in time**: once everything is settled, for directories without a clash. -/
theorem allLoaded_iff_timely (discover : String → List (Route O)) (routesDir : String)
    {actions : List LoaderAction} {s : Loader O}
    (hrun : exec (step discover) (start routesDir) actions = some s) (hsettled : s.Settled)
    (hclash : s.NoClash discover) :
    s.AllLoaded discover ↔ Meets (step discover) (Timely discover) (start routesDir) actions := by
  have hstart := consistent_start discover routesDir
  have hconsistent : Consistent discover s :=
    meets_invariant (fun _ _ _ h _ hstep => consistent_step h hstep) hstart
      (meets_true (start routesDir) actions) hrun
  have hcovered : Covered discover (start routesDir : Loader O) := by
    intro directory hhas
    have hget : (OrdMap.set ∅ routesDir (none : Option String)).has directory = true := hhas
    rw [OrdMap.has, OrdMap.get_set] at hget
    split at hget
    next he => exact .inl (he ▸ List.mem_cons_self)
    next => cases hget
  rw [allLoaded_iff_covered hconsistent hclash hsettled.2,
    iff_meets_of_exec (fun _ _ _ h hstep => consistent_step h hstep)
      (fun _ _ _ h hstep => covered_step h hstep) hstart hrun]
  exact and_iff_right hcovered

instance [DecidableEq O] (discover : String → List (Route O)) (s : Loader O) :
    (action : LoaderAction) → Decidable (s.Timely discover action)
  | .addRouteDirectory directory _ =>
      decidable_of_iff (s.routeDirectories.has directory = true ∨ s.initialized = true ∨
        (discover directory).isEmpty = true) (by simp only [Timely, List.isEmpty_iff])
  | .load _ => inferInstanceAs (Decidable True)
  | .finishInitialization => inferInstanceAs (Decidable True)

instance (s : Loader O) : Decidable s.Settled := inferInstanceAs (Decidable (_ ∧ _))

instance (discover : String → List (Route O)) (s : Loader O) : Decidable (s.NoClash discover) :=
  inferInstanceAs (Decidable (List.Nodup _))

lemma exists_of_any {α : Type} {x : Option α} {p : α → Bool} (h : x.any p = true) :
    ∃ a, x = some a ∧ p a = true := by
  cases x with
  | none => cases h
  | some a => exact ⟨a, rfl, h⟩

/-- A directory of the application and one of a plugin. -/
def pluginRoutes (directory : String) : List (Route ℕ) :=
  if directory = "./routes" then [⟨"/users", OrdMap.set ∅ .GET (some 1)⟩]
  else if directory = "./plugin" then [⟨"/login", OrdMap.set ∅ .POST (some 2)⟩]
  else []

/-- The plugin comes when the router is initialized. -/
def pluginInTime : List LoaderAction :=
  [.load 0, .finishInitialization, .addRouteDirectory "./plugin" (some "/api"), .load 0]

theorem allLoaded_iff_timely_plugin :
    ∃ s, exec (step pluginRoutes) (start "./routes") pluginInTime = some s ∧
      s.AllLoaded pluginRoutes := by
  have hrun : (exec (step pluginRoutes) (start "./routes") pluginInTime).any
      (fun s => s.Settled ∧ s.NoClash pluginRoutes) = true := by decide +kernel
  obtain ⟨s, hs, hfacts⟩ := exists_of_any hrun
  obtain ⟨hsettled, hclash⟩ := of_decide_eq_true hfacts
  exact ⟨s, hs, (allLoaded_iff_timely pluginRoutes "./routes" hs hsettled hclash).mpr
    (by decide +kernel)⟩

/-- The plugin comes while the router still waits for its own directory. -/
def pluginTooEarly : List LoaderAction :=
  [.addRouteDirectory "./plugin" (some "/api"), .load 0, .finishInitialization]

theorem not_allLoaded :
    ¬ ∀ (discover : String → List (Route ℕ)) (routesDir : String) (actions : List LoaderAction)
      (s : Loader ℕ), exec (step discover) (start routesDir) actions = some s → s.Settled →
        s.AllLoaded discover := by
  intro h
  have hrun : (exec (step pluginRoutes) (start "./routes") pluginTooEarly).any (fun s => s.Settled ∧
      s.routeDirectories.get "./plugin" = some (some "/api") ∧
        (s.router.registry.routesByPath.get "/api/login").isNone) = true := by decide +kernel
  obtain ⟨s, hs, hfacts⟩ := exists_of_any hrun
  obtain ⟨hsettled, hplugin, hmissing⟩ := of_decide_eq_true hfacts
  have hlogin := h pluginRoutes "./routes" pluginTooEarly s hs hsettled "./plugin" (some "/api")
    hplugin _ List.mem_cons_self
  have hpath : (withPrefix (some "/api")
      (⟨"/login", OrdMap.set ∅ .POST (some 2)⟩ : Route ℕ)).path = "/api/login" := by decide +kernel
  rw [hpath] at hlogin
  rw [hlogin] at hmissing
  cases hmissing

end Blaize.Router
