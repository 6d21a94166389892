import Blaize.Router.Specificity

/-!
Does a query influence the routing (`matcher.ts`)?

* `matchRoute_of_find`, `matchRoute_of_none`: the answers to a path, with a query or without;
* `FixedLength`: a pattern whose groups take all but a fixed number of characters;
* `fixedLength_of_exec`: the patterns of static segments and parameters are such;
* `extractParamsBy_withQuery_ne`: **different parameters are never read alike with a query**;
* `extractParamsBy_eq_iff`: the parameters of two paths, by the texts that are captured last;
* `Blind`: when a query has no influence;
* `matchRoute_withQuery_iff`: **exactly then the answers are the same**.
-/

namespace Blaize.Router

open Js Js.RegExp

variable {O : Type} (exec : String → List Char → Option (List (List Char)))

/-- A path with a query behind it. -/
def withQuery (path query : List Char) : List Char := path ++ '?' :: query

lemma takeWhile_of_notMem {path : List Char} (h : '?' ∉ path) :
    path.takeWhile (· ≠ '?') = path := by
  rw [List.takeWhile_eq_self_iff]
  intro c hc
  refine decide_eq_true ?_
  rintro rfl
  exact h hc

lemma takeWhile_withQuery {path : List Char} (h : '?' ∉ path) (query : List Char) :
    (withQuery path query).takeWhile (· ≠ '?') = path := by
  rw [withQuery, List.takeWhile_append_of_pos, List.takeWhile_cons_of_neg (by decide),
    List.append_nil]
  exact List.takeWhile_eq_self_iff.mp (takeWhile_of_notMem h)

/-! ### Answers -/

/-- The first route with the method that matches. -/
def firstRoute (matcher : Matcher O) (path : List Char) (method : HttpMethod) :
    Option (RouteEntry O) :=
  matcher.routes.find? fun route => route.method = method && route.test exec path

/-- The methods of all routes that match. -/
def methodsOf (matcher : Matcher O) (path : List Char) : List HttpMethod :=
  (matcher.routes.filter (·.test exec path)).map RouteEntry.method

variable {exec} {matcher : Matcher O} {path pathname : List Char} {method : HttpMethod}

/-- With a route of the method, the parameters are read from the path as it is. -/
lemma matchRoute_of_find (hpathname : path.takeWhile (· ≠ '?') = pathname) (hne : pathname ≠ [])
    {route : RouteEntry O} (h : firstRoute exec matcher pathname method = some route) :
    matchRoute exec matcher path method = some (.found route.routeOptions
      (extractParamsBy exec path route.pattern route.paramNames)) := by
  rw [matchRoute, hpathname, if_neg hne]
  rw [show matcher.routes.find? _ = some route from h]

/-- Without one, the other methods are those of the path as it is. -/
lemma matchRoute_of_none (hpathname : path.takeWhile (· ≠ '?') = pathname) (hne : pathname ≠ [])
    (h : firstRoute exec matcher pathname method = none) :
    matchRoute exec matcher path method =
      if ∃ m ∈ methodsOf exec matcher path, m ≠ method
      then some (.methodNotAllowed (methodsOf exec matcher path)) else none := by
  rw [matchRoute, hpathname, if_neg hne]
  rw [show matcher.routes.find? _ = none from h]
  refine if_congr ?_ rfl rfl
  simp [methodsOf, and_comm, and_left_comm]

/-! ### Parameters -/

/-- The groups of a pattern take all but a fixed number of characters, one more with a slash at
the end. -/
def FixedLength (exec : String → List Char → Option (List (List Char))) (route : RouteEntry O) :
    Prop :=
  ∃ fixed, ∀ path groups, exec route.pattern path = some groups →
    groups.length = route.paramNames.length ∧
      (path.length = fixed + (groups.map List.length).sum ∨
        path.length = fixed + (groups.map List.length).sum + 1 ∧ path.getLast? = some '/')

/-- A pattern of fixed length whose parameters are different ones. -/
structure Plain (exec : String → List Char → Option (List (List Char))) (route : RouteEntry O) :
    Prop where
  fixedLength : FixedLength exec route
  nodup : route.paramNames.Nodup
  noProto : "__proto__" ∉ route.paramNames

/-- A parameter has the text of its group. -/
lemma get_extractParamsBy {pattern : String} {paramNames : List String}
    {groups : List (List Char)} (hexec : exec pattern path = some groups)
    (hnodup : paramNames.Nodup) {name : String} (hne : name ≠ "__proto__") {i : ℕ}
    (h : paramNames[i]? = some name) :
    (extractParamsBy exec path pattern paramNames).get name =
      some (String.ofList (groups[i]?.getD [])) := by
  have hmem : (name, i) ∈ paramNames.zipIdx := List.mem_zipIdx_iff_getElem?.mpr h
  have hfst : (paramNames.zipIdx.map Prod.fst).Nodup := by rwa [List.zipIdx_map_fst]
  rw [extractParamsBy, hexec]
  exact get_assigned_of_nodup _ ∅ hfst hne hmem

/-- Equal parameters are equal texts of all groups. -/
lemma groups_eq {route : RouteEntry O} (h : Plain exec route) {other : List Char}
    {groups groups' : List (List Char)} (hexec : exec route.pattern path = some groups)
    (hexec' : exec route.pattern other = some groups')
    (heq : extractParamsBy exec path route.pattern route.paramNames =
      extractParamsBy exec other route.pattern route.paramNames) : groups = groups' := by
  obtain ⟨fixed, hfixed⟩ := h.fixedLength
  have hlength := (hfixed _ _ hexec).1
  have hlength' := (hfixed _ _ hexec').1
  refine List.ext_getElem (hlength.trans hlength'.symm) fun i hi hi' => ?_
  have hname : route.paramNames[i]? = some route.paramNames[i] :=
    List.getElem?_eq_getElem (hlength ▸ hi)
  have hne : route.paramNames[i] ≠ "__proto__" := by
    intro hproto
    exact h.noProto (hproto ▸ List.getElem_mem (hlength ▸ hi))
  have hget := congrArg (OrdMap.get · route.paramNames[i]) heq
  rw [get_extractParamsBy hexec h.nodup hne hname, get_extractParamsBy hexec' h.nodup hne hname,
    List.getElem?_eq_getElem hi, List.getElem?_eq_getElem hi'] at hget
  exact String.ofList_injective (Option.some.inj hget)

/-- **Different parameters are never read alike with a query**: the query is in one of them, or
the pattern matches no more. -/
theorem extractParamsBy_withQuery_ne {route : RouteEntry O} (h : Plain exec route)
    (hne : route.paramNames ≠ []) (htest : route.test exec path = true) (query : List Char) :
    extractParamsBy exec (withQuery path query) route.pattern route.paramNames ≠
      extractParamsBy exec path route.pattern route.paramNames := by
  intro heq
  obtain ⟨groups, hexec⟩ := Option.isSome_iff_exists.mp htest
  cases hexec' : exec route.pattern (withQuery path query) with
  | none =>
      obtain ⟨name, hname⟩ := List.exists_mem_of_ne_nil _ hne
      obtain ⟨i, hi⟩ := List.mem_iff_getElem?.mp hname
      have hget := get_extractParamsBy hexec h.nodup (fun he => h.noProto (he ▸ hname)) hi
      rw [← heq, extractParamsBy, hexec'] at hget
      cases hget
  | some groups' =>
      obtain rfl := groups_eq h hexec' hexec heq
      obtain ⟨fixed, hfixed⟩ := h.fixedLength
      have hpath := (hfixed _ _ hexec).2
      have hquery := (hfixed _ _ hexec').2
      have hlength : (withQuery path query).length = path.length + (query.length + 1) :=
        List.length_append
      rcases hquery with hquery | ⟨hquery, hlast⟩
      · omega
      · -- one character more, which would be the question mark
        obtain rfl : query = [] := List.length_eq_zero_iff.mp (by omega)
        rw [withQuery, List.getLast?_concat] at hlast
        exact absurd (Option.some.inj hlast) (by decide)

/-- The parts of segments have one group for each parameter. -/
lemma sum_groups (segments : List Segment) :
    ((segments.flatMap Segment.items).map Item.groups).sum = (escapedNames segments).length := by
  rw [escapedNames, List.length_map]
  induction segments with
  | nil => rfl
  | cons segment segments ih =>
      rw [List.flatMap_cons, List.map_append, List.sum_append, ih]
      cases segment with
      | static text =>
          have hliterals : (text.map (Item.groups ∘ Item.literal)).sum = 0 := by
            induction text with
            | nil => rfl
            | cons c text ih => simpa [Item.groups] using ih
          simp [Segment.items, List.filterMap_cons, Segment.name, Item.groups, hliterals]
      | param name => simp [Segment.items, Segment.name, Item.groups, Nat.add_comm]

/-- **The pattern of static segments and parameters is of fixed length.** -/
theorem fixedLength_of_exec (source : RoutePath) (h : source.segments ≠ [.static []])
    {route : RouteEntry O}
    (hroute : compilePathPattern (String.ofList source.path) = some route.toPathPattern) :
    FixedLength execPattern route := by
  rw [source.compilePathPattern_path h] at hroute
  have hpattern := congrArg PathPattern.pattern (Option.some.inj hroute)
  have hnames := congrArg PathPattern.paramNames (Option.some.inj hroute)
  obtain ⟨-, hparse⟩ := source_segments source.wellFormed false
  have hitems : RegExp.parts ('^' :: (source.segments.flatMap Segment.source ++ sourceEnd)) =
      some (source.segments.flatMap Segment.items ++ [.optional '/']) := hparse
  have hbody : ∀ c, .optional c ∉ source.segments.flatMap Segment.items := by
    intro c hc
    obtain ⟨segment, -, hc⟩ := List.mem_flatMap.mp hc
    cases segment <;> simp [Segment.items] at hc
  refine ⟨((source.segments.flatMap Segment.items).map Item.width).sum, fun path groups hexec => ?_⟩
  rw [← hpattern, execPattern, String.toList_ofList, hitems] at hexec
  rw [← hnames]
  obtain ⟨hgroups, hlength⟩ := RegExp.length_of_exec hbody hexec
  exact ⟨hgroups.trans (sum_groups source.segments), hlength⟩

/-! ### Parameters of one name -/

/-- The text that a pattern captures last for a name. -/
def captured (exec : String → List Char → Option (List (List Char))) (route : RouteEntry O)
    (path : List Char) (name : String) : Option (List Char) :=
  (exec route.pattern path).bind fun groups =>
    ((route.paramNames.zipIdx.filter (·.1 = name)).getLast?).map fun p => groups[p.2]?.getD []

/-- What was assigned last is kept. -/
lemma get_assigned_last (value : String × ℕ → String) (l : List (String × ℕ)) {key : String}
    (hkey : key ≠ "__proto__") :
    (l.foldl (fun (params : OrdMap String String) p =>
      if p.1 = "__proto__" then params else params.set p.1 (value p)) ∅).get key =
        ((l.filter (·.1 = key)).getLast?).map value := by
  induction l using List.reverseRecOn with
  | nil => rfl
  | append_singleton l p ih =>
      rw [List.foldl_append, List.filter_append, List.foldl_cons, List.foldl_nil]
      by_cases hproto : p.1 = "__proto__"
      · have hne : p.1 ≠ key := fun heq => hkey (heq ▸ hproto)
        rw [if_pos hproto, ih, List.filter_cons_of_neg (by simpa using hne), List.filter_nil,
          List.append_nil]
      · rw [if_neg hproto, OrdMap.get_set]
        split
        next heq => simp [heq]
        next hne =>
          rw [ih, List.filter_cons_of_neg (by simpa using hne), List.filter_nil, List.append_nil]

/-- The names are assigned in one order, whatever their texts. -/
lemma keys_assigned (value value' : String × ℕ → String) (l : List (String × ℕ))
    {params params' : OrdMap String String} (h : params.keys = params'.keys) :
    (l.foldl (fun params p =>
      if p.1 = "__proto__" then params else params.set p.1 (value p)) params).keys =
    (l.foldl (fun params p =>
      if p.1 = "__proto__" then params else params.set p.1 (value' p)) params').keys := by
  induction l generalizing params params' with
  | nil => exact h
  | cons p l ih =>
      rw [List.foldl_cons, List.foldl_cons]
      refine ih ?_
      by_cases hproto : p.1 = "__proto__"
      · rw [if_pos hproto, if_pos hproto]
        exact h
      · have hentries : params.entries.map Prod.fst = params'.entries.map Prod.fst := h
        rw [if_neg hproto, if_neg hproto]
        change (OrdMap.put _ _ params.entries).map Prod.fst =
          (OrdMap.put _ _ params'.entries).map Prod.fst
        rw [OrdMap.map_fst_put, OrdMap.map_fst_put, hentries]

section

variable {exec : String → List Char → Option (List (List Char))} {route : RouteEntry O}

lemma get_extractParamsBy_last (path : List Char) {name : String} (hname : name ≠ "__proto__") :
    (extractParamsBy exec path route.pattern route.paramNames).get name =
      (captured exec route path name).map String.ofList := by
  rw [extractParamsBy, captured]
  cases exec route.pattern path with
  | none => rfl
  | some groups =>
      dsimp only
      rw [get_assigned_last _ _ hname, Option.bind_some, Option.map_map]
      rfl

/-- **The parameters are the same exactly if the texts captured last are.** -/
lemma extractParamsBy_eq_iff {path path' : List Char} :
    extractParamsBy exec path' route.pattern route.paramNames =
        extractParamsBy exec path route.pattern route.paramNames ↔
      ∀ name, name ≠ "__proto__" →
        captured exec route path' name = captured exec route path name := by
  have hget (path : List Char) : (extractParamsBy exec path route.pattern
      route.paramNames).get "__proto__" = none := by
    rw [extractParamsBy]
    split
    · rfl
    · exact get_assigned _ _ ∅ (.inl rfl)
  constructor
  · intro heq name hname
    have hsame := congrArg (OrdMap.get · name) heq
    rw [get_extractParamsBy_last _ hname, get_extractParamsBy_last _ hname] at hsame
    exact Option.map_injective (fun _ _ => String.ofList_injective) hsame
  · intro hsame
    have hall (key : String) :
        (extractParamsBy exec path' route.pattern route.paramNames).get key =
          (extractParamsBy exec path route.pattern route.paramNames).get key := by
      by_cases hkey : key = "__proto__"
      · rw [hkey, hget, hget]
      · rw [get_extractParamsBy_last _ hkey, get_extractParamsBy_last _ hkey, hsame key hkey]
    refine OrdMap.eq_of_keys ?_ fun key _ => hall key
    -- Without a match there are no keys at all.
    have hnil {m m' : OrdMap String String} (h : ∀ key, m.get key = m'.get key)
        (hempty : m = ∅) : m.keys = m'.keys := by
      subst hempty
      refine (List.eq_nil_iff_forall_not_mem.mpr fun key hkey => ?_).symm
      obtain ⟨value, hvalue⟩ := (m'.mem_keys_iff).mp hkey
      rw [← h] at hvalue
      cases hvalue
    cases hexec' : exec route.pattern path' with
    | none => exact hnil hall (by rw [extractParamsBy, hexec'])
    | some groups' =>
        cases hexec : exec route.pattern path with
        | none => exact (hnil (fun key => (hall key).symm) (by rw [extractParamsBy, hexec])).symm
        | some groups =>
            rw [extractParamsBy, extractParamsBy, hexec, hexec']
            exact keys_assigned _ _ _ rfl

end

/-! ### When a query has no influence -/

/-- Without a path; or the first route whose pattern matches has no parameters, or has parameters
of one name for which the texts captured last are the same; or no route with the method matches,
and those whose patterns match have the same methods, or all of them the one that is asked for. -/
inductive Blind (exec : String → List Char → Option (List (List Char))) (matcher : Matcher O)
    (path query : List Char) (method : HttpMethod) : Prop where
  | empty (h : path = [])
  | static (route : RouteEntry O) (h : firstRoute exec matcher path method = some route)
      (hnames : route.paramNames = [])
  | sameNames (route : RouteEntry O) (h : firstRoute exec matcher path method = some route)
      (hplain : ¬ Plain exec route)
      (hsame : ∀ name, name ≠ "__proto__" →
        captured exec route (withQuery path query) name = captured exec route path name)
  | sameMethods (h : firstRoute exec matcher path method = none)
      (hsame : (matcher.routes.filter (·.test exec (withQuery path query))).map RouteEntry.method =
        (matcher.routes.filter (·.test exec path)).map RouteEntry.method)
  | ownMethod (h : ∀ route ∈ matcher.routes, route.test exec path = false)
      (hown : ∀ route ∈ matcher.routes, route.test exec (withQuery path query) = true →
        route.method = method)

lemma ne_of_firstRoute (h : firstRoute exec matcher path method = none) :
    ∀ m ∈ methodsOf exec matcher path, m ≠ method := by
  intro m hm
  obtain ⟨route, hroute, rfl⟩ := List.mem_map.mp hm
  obtain ⟨hmem, htest⟩ := List.mem_filter.mp hroute
  rintro rfl
  have := List.find?_eq_none.mp h route hmem
  simp [htest] at this

lemma firstRoute_of_untested (h : ∀ route ∈ matcher.routes, route.test exec path = false) :
    firstRoute exec matcher path method = none := by
  refine List.find?_eq_none.mpr fun route hroute htest => ?_
  rw [h route hroute, Bool.and_false] at htest
  cases htest

/-- The methods of the routes whose patterns match. -/
lemma mem_methodsOf {m : HttpMethod} :
    m ∈ methodsOf exec matcher path ↔
      ∃ route ∈ matcher.routes, route.test exec path = true ∧ route.method = m := by
  simp [methodsOf, and_assoc]

/-- With a route of the method, the parameters decide. -/
lemma withQuery_iff_of_find (hpath : '?' ∉ path) (hne : path ≠ []) {query : List Char}
    {route : RouteEntry O} (hfind : firstRoute exec matcher path method = some route) :
    matchRoute exec matcher (withQuery path query) method = matchRoute exec matcher path method ↔
      Blind exec matcher path query method := by
  have htest : route.test exec path = true := by
    have hsome := List.find?_some hfind
    rw [Bool.and_eq_true] at hsome
    exact hsome.2
  rw [matchRoute_of_find (takeWhile_withQuery hpath query) hne hfind,
    matchRoute_of_find (takeWhile_of_notMem hpath) hne hfind]
  constructor
  · intro heq
    obtain ⟨-, hsame⟩ := RouteMatch.found.inj (Option.some.inj heq)
    by_cases hnames : route.paramNames = []
    · exact .static route hfind hnames
    · exact .sameNames route hfind
        (fun hplain => extractParamsBy_withQuery_ne hplain hnames htest query hsame)
        (extractParamsBy_eq_iff.mp hsame)
  · intro hblind
    cases hblind with
    | empty h => exact absurd h hne
    | static other h hnames =>
        obtain rfl := Option.some.inj (hfind.symm.trans h)
        have hempty (path : List Char) :
            extractParamsBy exec path route.pattern route.paramNames = ∅ := by
          rw [extractParamsBy, hnames]
          split <;> rfl
        rw [hempty, hempty]
    | sameNames other h hplain hsame =>
        obtain rfl := Option.some.inj (hfind.symm.trans h)
        rw [extractParamsBy_eq_iff.mpr hsame]
    | sameMethods h => cases hfind.symm.trans h
    | ownMethod h => cases hfind.symm.trans (firstRoute_of_untested h)

/-- Without one, the methods of the other routes do. -/
lemma withQuery_iff_of_none (hpath : '?' ∉ path) (hne : path ≠ []) {query : List Char}
    (hfind : firstRoute exec matcher path method = none) :
    matchRoute exec matcher (withQuery path query) method = matchRoute exec matcher path method ↔
      Blind exec matcher path query method := by
  have hother := ne_of_firstRoute hfind
  rw [matchRoute_of_none (takeWhile_withQuery hpath query) hne hfind,
    matchRoute_of_none (takeWhile_of_notMem hpath) hne hfind]
  constructor
  · intro heq
    by_cases hsome : ∃ m ∈ methodsOf exec matcher path, m ≠ method
    · rw [if_pos hsome] at heq
      split at heq
      next =>
        exact .sameMethods hfind (RouteMatch.methodNotAllowed.inj (Option.some.inj heq))
      next => cases heq
    · rw [if_neg hsome] at heq
      split at heq
      next => cases heq
      next hnone =>
        refine .ownMethod (fun route hroute => ?_) fun route hroute htest => ?_
        · by_contra htest
          have hm := mem_methodsOf.mpr
            ⟨route, hroute, Bool.eq_true_of_not_eq_false htest, rfl⟩
          exact hsome ⟨_, hm, hother _ hm⟩
        · by_contra hm'
          exact hnone ⟨_, mem_methodsOf.mpr ⟨route, hroute, htest, rfl⟩, hm'⟩
  · intro hblind
    cases hblind with
    | empty h => exact absurd h hne
    | static route h => cases hfind.symm.trans h
    | sameNames route h => cases hfind.symm.trans h
    | sameMethods h hsame =>
        have hmethods : methodsOf exec matcher (withQuery path query) =
            methodsOf exec matcher path := hsame
        rw [hmethods]
    | ownMethod h hown =>
        rw [if_neg, if_neg]
        · rintro ⟨m, hm, -⟩
          obtain ⟨route, hroute, htest, -⟩ := mem_methodsOf.mp hm
          rw [h route hroute] at htest
          cases htest
        · rintro ⟨m, hm, hne⟩
          obtain ⟨route, hroute, htest, rfl⟩ := mem_methodsOf.mp hm
          exact hne (hown route hroute htest)

/-- **A query has no influence on the answer if and only if one of these is the case.** -/
theorem matchRoute_withQuery_iff (exec : String → List Char → Option (List (List Char)))
    (matcher : Matcher O) {path : List Char} (hpath : '?' ∉ path) (query : List Char)
    (method : HttpMethod) :
    matchRoute exec matcher (withQuery path query) method = matchRoute exec matcher path method ↔
      Blind exec matcher path query method := by
  by_cases hne : path = []
  · refine iff_of_true ?_ (.empty hne)
    rw [matchRoute, matchRoute, takeWhile_of_notMem hpath, takeWhile_withQuery hpath query,
      if_pos hne, if_pos hne]
  cases hfind : firstRoute exec matcher path method with
  | some route => exact withQuery_iff_of_find hpath hne hfind
  | none => exact withQuery_iff_of_none hpath hne hfind

/-- A static route, found with a query. -/
theorem matchRoute_withQuery_iff_users :
    matchRoute execPattern (Matcher.run [.add "/users" .GET 1])
        (withQuery "/users".toList "v=1".toList) .GET =
      matchRoute execPattern (Matcher.run [.add "/users" .GET 1]) "/users".toList .GET :=
  (matchRoute_withQuery_iff execPattern (Matcher.run [.add "/users" .GET 1]) (by decide)
    "v=1".toList .GET).mpr (.static ⟨⟨"^/users(?:/)?$", []⟩, "/users", .GET, 1⟩ (by rfl) rfl)

/-- The user with the number 5 is looked up as `5?v=1`. -/
theorem not_queryBlind :
    ¬ ∀ (calls : List (MatcherCall ℕ)) (path query : List Char) (method : HttpMethod),
      '?' ∉ path → matchRoute execPattern (Matcher.run calls) (withQuery path query) method =
        matchRoute execPattern (Matcher.run calls) path method := by
  intro h
  have hsame := h [.add "/users/:id" .GET 1] "/users/5".toList "v=1".toList .GET (by decide)
  have hquery : matchRoute execPattern (Matcher.run [.add "/users/:id" .GET 1])
      (withQuery "/users/5".toList "v=1".toList) .GET =
        some (.found 1 ((∅ : OrdMap String String).set "id" "5?v=1")) := by rfl
  have hplain : matchRoute execPattern (Matcher.run [.add "/users/:id" .GET 1])
      "/users/5".toList .GET = some (.found 1 ((∅ : OrdMap String String).set "id" "5")) := by rfl
  rw [hquery, hplain] at hsame
  have hget := congrArg (OrdMap.get · "id") (RouteMatch.found.inj (Option.some.inj hsame)).2
  rw [OrdMap.get_set_self, OrdMap.get_set_self] at hget
  exact absurd (Option.some.inj hget) (by decide)

end Blaize.Router
