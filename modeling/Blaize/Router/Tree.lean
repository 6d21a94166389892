import Blaize.Router.Matcher

/-!
The route tree (`packages/blaize-core/src/router/matching/tree.ts`): a trie over the segments of
route paths, searched with backtracking.

* `RouteNode`, `add`, `matchPath`: the tree and its two operations; `matchNode` threads the
  object of parameters, which all branches of the search share;
* `Registration`, `Table`: the routes in the order in which they were added, as a flat list, and
  `Table.search`: what a search without a tree would find there, by taking off one segment of all
  routes after another;
* `Represents`: the tree of a table, kept by `add` (`represents_addFrom`);
* `matchNode_fst`: **the search of the tree answers as the search of the table**.
-/

namespace Blaize.Router.Tree

variable {β : Type}

/-! ### The tree -/

/-- `RouteNode` -/
structure RouteNode (β : Type) where
  segment : String
  paramName : Option String
  isWildcard : Bool
  children : List (RouteNode β)
  handlers : OrdMap HttpMethod β

/-- The name of a segment that starts with a colon. -/
def paramNameOf (segment : String) : Option String :=
  match segment.toList with
  | ':' :: name => some (String.ofList name)
  | _ => none

/-- The node that is made for a segment. -/
def newNode (segment : String) : RouteNode β :=
  ⟨segment, paramNameOf segment, segment = "*", [], ∅⟩

/-- The root, without any route. -/
def root : RouteNode β := ⟨"", none, false, [], ∅⟩

/-- The condition of `children.find`. -/
def RouteNode.isFor (node : RouteNode β) (segment : String) : Bool :=
  node.segment = segment || (node.isWildcard && segment = "*") ||
    (node.paramName.isSome && (paramNameOf segment).isSome && node.paramName = paramNameOf segment)

/-- The first child for a segment is changed, or a new one is pushed and changed. -/
def updateChild (segment : String) (f : RouteNode β → RouteNode β) :
    List (RouteNode β) → List (RouteNode β)
  | [] => [f (newNode segment)]
  | child :: children =>
      if child.isFor segment then f child :: children
      else child :: updateChild segment f children

/-- The loop of `add` from a node on. -/
def addFrom (method : HttpMethod) (handler : β) : List String → RouteNode β → RouteNode β
  | [], node => { node with handlers := node.handlers.set method handler }
  | segment :: rest, node =>
      { node with children := updateChild segment (addFrom method handler rest) node.children }

/-- `path.split('/').filter(Boolean)`; a slash in front adds no segment. -/
def segmentsOf (path : String) : List String :=
  ((path.toList.splitOn '/').filter (· ≠ [])).map String.ofList

/-- `add(path, method, handler)` -/
def RouteNode.add (tree : RouteNode β) (path : String) (method : HttpMethod) (handler : β) :
    RouteNode β :=
  addFrom method handler (segmentsOf path) tree

/-! ### The search -/

/-- The parameters by their names. -/
abbrev Params := OrdMap String String

/-- `params[name] = value` of a plain object: a text that is assigned to `__proto__` is ignored. -/
def Params.assign (params : Params) (name value : String) : Params :=
  if name = "__proto__" then params else params.set name value

/-- Goes on where nothing was found, with the parameters as they are then. -/
def orElse (result : Option β × Params) (next : Params → Option β × Params) : Option β × Params :=
  match result with
  | (some handler, params) => (some handler, params)
  | (none, params) => next params

/-- A loop over children that returns the first result. -/
def firstOf (visit : RouteNode β → Params → Option β × Params) :
    List (RouteNode β) → Params → Option β × Params
  | [], params => (none, params)
  | child :: children, params => orElse (visit child params) (firstOf visit children)

section

variable (matchRest : RouteNode β → Params → Option β × Params) (segment : String)
  (child : RouteNode β) (params : Params)

/-- Try to match exact segment first. -/
def visitExact : Option β × Params :=
  if child.segment = segment then matchRest child params else (none, params)

/-- Try to match a parameter node: its parameter is deleted if no match was found. -/
def visitParam : Option β × Params :=
  match child.paramName with
  | some name =>
      if name = "" then (none, params)
      else orElse (matchRest child (params.assign name segment)) fun params =>
        (none, params.delete name)
  | none => (none, params)

end

/-- `matchNode`, with the parameters at the call and at the return. -/
def matchNode (method : HttpMethod) : List String → RouteNode β → Params → Option β × Params
  | [], node, params => (node.handlers.get method, params)
  | segment :: rest, node, params =>
      orElse (firstOf (visitExact (matchNode method rest) segment) node.children params)
        fun params =>
          orElse (firstOf (visitParam (matchNode method rest) segment) node.children params)
            fun params =>
              match node.children.find? (·.isWildcard) with
              | some child =>
                  (child.handlers.get method, params.set "*" ("/".intercalate (segment :: rest)))
              | none => (none, params)

/-- `match`: the handler and its parameters. -/
def RouteNode.matchPath (tree : RouteNode β) (path : String) (method : HttpMethod) :
    Option (β × Params) :=
  match matchNode method (segmentsOf path) tree ∅ with
  | (some handler, params) => some (handler, params)
  | (none, _) => none

/-! ### The table of routes -/

/-- A route as it was added: the segments of its path that are left. -/
structure Registration (β : Type) where
  pattern : List String
  method : HttpMethod
  handler : β

/-- The registrations in their order. -/
abbrev Table (β : Type) := List (Registration β)

/-- What is left of a route behind a first segment. -/
def Registration.behind (segment : String) (r : Registration β) : Option (Registration β) :=
  match r.pattern with
  | first :: rest => if first = segment then some { r with pattern := rest } else none
  | [] => none

namespace Table

/-- The routes that start with a segment, without it. -/
def behind (segment : String) (table : Table β) : Table β :=
  table.filterMap (Registration.behind segment)

/-- The first segments of the routes, each once. -/
def heads (table : Table β) : List String := (table.filterMap (·.pattern.head?)).eraseDups

/-- The handlers of the routes that end here: of a method it is the last one that was added. -/
def handlersAt (table : Table β) : OrdMap HttpMethod β :=
  table.foldl (fun m r => if r.pattern = [] then m.set r.method r.handler else m) ∅

/-- A first segment that stands for a parameter, with its name. -/
def paramOf (label : String) : Option (String × String) :=
  (paramNameOf label).bind fun name => if name = "" then none else some (label, name)

/-- A search through the table: the routes that have the next segment literally come first, then
those with a parameter in its place, in the order in which these parameters came up, and last the
route that takes all the rest. -/
def search (method : HttpMethod) : List String → Table β → Option (β × List (String × String))
  | [], table => (table.handlersAt.get method).map (·, [])
  | segment :: rest, table =>
      (search method rest (table.behind segment)).or <|
        ((table.heads.filterMap paramOf).findSome? fun label =>
          (search method rest (table.behind label.1)).map fun found =>
            (found.1, (label.2, segment) :: found.2)).or <|
          ((table.behind "*").handlersAt.get method).map (·,
            [("*", "/".intercalate (segment :: rest))])

end Table

/-! ### The table, route after route -/

section

variable {method : HttpMethod} {handler : β} {segment label : String} {rest : List String}
  {table : Table β}

lemma behind_cons : Registration.behind label ⟨segment :: rest, method, handler⟩ =
    if segment = label then some ⟨rest, method, handler⟩ else none := rfl

lemma behind_append (r : Registration β) :
    Table.behind label (table ++ [r]) = table.behind label ++ (r.behind label).toList := by
  rw [Table.behind, List.filterMap_append]
  cases h : r.behind label <;> simp [Table.behind, h]

lemma behind_append_self :
    Table.behind segment (table ++ [⟨segment :: rest, method, handler⟩]) =
      table.behind segment ++ [⟨rest, method, handler⟩] := by
  rw [behind_append, behind_cons, if_pos rfl]
  rfl

lemma behind_append_ne (h : segment ≠ label) :
    Table.behind label (table ++ [⟨segment :: rest, method, handler⟩]) = table.behind label := by
  rw [behind_append, behind_cons, if_neg h]
  exact List.append_nil _

lemma behind_append_nil :
    Table.behind label (table ++ [⟨[], method, handler⟩]) = table.behind label := by
  rw [behind_append, Registration.behind]
  exact List.append_nil _

lemma heads_append_nil : Table.heads (table ++ [⟨[], method, handler⟩]) = table.heads := by
  rw [Table.heads, List.filterMap_append]
  exact congrArg _ (List.append_nil _)

lemma eraseDups_concat (labels : List String) (label : String) :
    (labels ++ [label]).eraseDups =
      if label ∈ labels.eraseDups then labels.eraseDups else labels.eraseDups ++ [label] := by
  rw [List.eraseDups_append]
  by_cases h : label ∈ labels
  · rw [if_pos (List.mem_eraseDups.mpr h)]
    simp [List.removeAll, h]
  · rw [if_neg (mt List.mem_eraseDups.mp h)]
    simp [List.removeAll, h, List.eraseDups_cons]

lemma heads_append_cons :
    Table.heads (table ++ [⟨segment :: rest, method, handler⟩]) =
      if segment ∈ table.heads then table.heads else table.heads ++ [segment] := by
  rw [Table.heads, List.filterMap_append]
  exact eraseDups_concat _ segment

lemma handlersAt_append_nil :
    Table.handlersAt (table ++ [⟨[], method, handler⟩]) = table.handlersAt.set method handler := by
  rw [Table.handlersAt, List.foldl_append]
  rfl

lemma handlersAt_append_cons :
    Table.handlersAt (table ++ [⟨segment :: rest, method, handler⟩]) = table.handlersAt := by
  rw [Table.handlersAt, List.foldl_append]
  rfl

lemma nodup_heads (table : Table β) : table.heads.Nodup := by
  rw [Table.heads]
  induction table.filterMap (·.pattern.head?) using List.reverseRecOn with
  | nil => exact List.nodup_nil
  | append_singleton labels label ih =>
      rw [eraseDups_concat]
      split
      next => exact ih
      next h => exact List.concat_eq_append ▸ ih.concat h

/-- No route starts with the segment, so none is left behind it. -/
lemma behind_of_notMem (h : label ∉ table.heads) : table.behind label = [] := by
  refine List.filterMap_eq_nil_iff.mpr fun r hr => ?_
  rw [Registration.behind]
  split
  next first rest hpattern =>
    rw [if_neg]
    rintro rfl
    exact h (List.mem_eraseDups.mpr (List.mem_filterMap.mpr ⟨r, hr, by rw [hpattern]; rfl⟩))
  next => rfl

end

/-! ### The tree of a table -/

/-- What is known of a node for a segment. -/
structure RouteNode.Named (node : RouteNode β) : Prop where
  paramName : node.paramName = paramNameOf node.segment
  isWildcard : node.isWildcard = decide (node.segment = "*")

/-- The tree has the routes of the table: the handlers of those that end here, and a child for
each first segment, in the order in which these came up. -/
inductive Represents : RouteNode β → Table β → Prop
  | mk {node : RouteNode β} {table : Table β} (handlers : node.handlers = table.handlersAt)
      (segments : node.children.map (·.segment) = table.heads)
      (named : ∀ child ∈ node.children, child.Named)
      (children : ∀ child ∈ node.children, Represents child (table.behind child.segment)) :
      Represents node table

lemma paramNameOf_inj {label segment name : String} (h : paramNameOf label = some name)
    (h' : paramNameOf segment = some name) : label = segment := by
  have htext {text : String} (ht : paramNameOf text = some name) :
      text.toList = ':' :: name.toList := by
    rw [paramNameOf] at ht
    split at ht
    next rest htext =>
      rw [htext, ← Option.some.inj ht, String.toList_ofList]
    next => cases ht
  exact String.toList_inj.mp ((htext h).trans (htext h').symm)

lemma named_newNode (segment : String) : (newNode segment : RouteNode β).Named := ⟨rfl, rfl⟩

/-- A child is found for its own segment. -/
lemma RouteNode.Named.isFor_iff {child : RouteNode β} (h : child.Named) {segment : String} :
    child.isFor segment = true ↔ child.segment = segment := by
  rw [RouteNode.isFor, h.paramName, h.isWildcard]
  constructor
  · intro hfor
    simp only [Bool.or_eq_true, Bool.and_eq_true, decide_eq_true_eq] at hfor
    rcases hfor with (hsame | hwildcard) | hparam
    · exact hsame
    · exact hwildcard.1.trans hwildcard.2.symm
    · obtain ⟨name, hname⟩ := Option.isSome_iff_exists.mp hparam.1.1
      exact paramNameOf_inj hname (hparam.2 ▸ hname)
  · intro hsame
    simp [hsame]

lemma updateChild_of_mem {segment : String} {f : RouteNode β → RouteNode β}
    {children : List (RouteNode β)} (hnamed : ∀ child ∈ children, child.Named)
    (hnodup : (children.map (·.segment)).Nodup) (hmem : segment ∈ children.map (·.segment)) :
    updateChild segment f children =
      children.map fun child => if child.segment = segment then f child else child := by
  induction children with
  | nil => cases hmem
  | cons child children ih =>
      rw [List.map_cons, List.nodup_cons] at hnodup
      rw [updateChild, List.map_cons]
      have hchild := hnamed child List.mem_cons_self
      by_cases hsegment : child.segment = segment
      · rw [if_pos (hchild.isFor_iff.mpr hsegment), if_pos hsegment]
        refine congrArg _ ((List.map_congr_left fun other hother => ?_).trans (List.map_id _)).symm
        rw [if_neg]
        · rfl
        · intro hother'
          exact hnodup.1 (hsegment ▸ hother' ▸ List.mem_map_of_mem hother)
      · rw [if_neg (mt hchild.isFor_iff.mp hsegment), if_neg hsegment]
        refine congrArg _ (ih (fun c hc => hnamed c (List.mem_cons_of_mem _ hc)) hnodup.2 ?_)
        exact (List.mem_cons.mp hmem).resolve_left (Ne.symm hsegment)

lemma updateChild_of_notMem {segment : String} {f : RouteNode β → RouteNode β}
    {children : List (RouteNode β)} (hnamed : ∀ child ∈ children, child.Named)
    (hmem : segment ∉ children.map (·.segment)) :
    updateChild segment f children = children ++ [f (newNode segment)] := by
  induction children with
  | nil => rfl
  | cons child children ih =>
      rw [List.map_cons, List.mem_cons, not_or] at hmem
      have hchild := hnamed child List.mem_cons_self
      rw [updateChild, if_neg (mt hchild.isFor_iff.mp (Ne.symm hmem.1)), List.cons_append,
        ih (fun c hc => hnamed c (List.mem_cons_of_mem _ hc)) hmem.2]

@[simp] lemma addFrom_segment (method : HttpMethod) (handler : β) (pattern : List String)
    (node : RouteNode β) : (addFrom method handler pattern node).segment = node.segment := by
  cases pattern <;> rfl

lemma RouteNode.Named.addFrom {node : RouteNode β} (h : node.Named) (method : HttpMethod)
    (handler : β) (pattern : List String) : (addFrom method handler pattern node).Named := by
  cases pattern <;> exact ⟨h.paramName, h.isWildcard⟩

lemma represents_newNode (segment : String) : Represents (newNode segment : RouteNode β) [] :=
  .mk rfl rfl (by rintro _ ⟨⟩) (by rintro _ ⟨⟩)

section

variable {method : HttpMethod} {handler : β} {segment : String} {rest : List String}
  {node : RouteNode β} {table : Table β}

/-- The segment has a child. -/
lemma represents_addFrom_of_mem (h : Represents node table) (hmem : segment ∈ table.heads)
    (hrest : ∀ child ∈ node.children, child.segment = segment →
      Represents (addFrom method handler rest child)
        (table.behind segment ++ [⟨rest, method, handler⟩])) :
    Represents (addFrom method handler (segment :: rest) node)
      (table ++ [⟨segment :: rest, method, handler⟩]) := by
  obtain ⟨hhandlers, hsegments, hnamed, hchildren⟩ := h
  have hnodup : (node.children.map (·.segment)).Nodup := hsegments ▸ nodup_heads table
  have hupdate := updateChild_of_mem (f := Tree.addFrom method handler rest) hnamed hnodup
    (hsegments ▸ hmem)
  refine .mk ?_ ?_ ?_ ?_
  · rw [handlersAt_append_cons, ← hhandlers]
    rfl
  · rw [heads_append_cons, if_pos hmem, ← hsegments, Tree.addFrom, hupdate, List.map_map]
    refine List.map_congr_left fun child _ => ?_
    dsimp only [Function.comp_apply]
    split
    · exact addFrom_segment _ _ _ _
    · rfl
  · intro child hchild
    rw [Tree.addFrom, hupdate] at hchild
    obtain ⟨old, hold, rfl⟩ := List.mem_map.mp hchild
    split
    · exact (hnamed old hold).addFrom method handler rest
    · exact hnamed old hold
  · intro child hchild
    rw [Tree.addFrom, hupdate] at hchild
    obtain ⟨old, hold, rfl⟩ := List.mem_map.mp hchild
    by_cases hsegment : old.segment = segment
    · rw [if_pos hsegment, addFrom_segment, hsegment, behind_append_self]
      exact hrest old hold hsegment
    · rw [if_neg hsegment, behind_append_ne (Ne.symm hsegment)]
      exact hchildren old hold

/-- The segment gets a child, behind the others. -/
lemma represents_addFrom_of_notMem (h : Represents node table) (hmem : segment ∉ table.heads)
    (hrest : Represents (addFrom method handler rest (newNode segment))
      [⟨rest, method, handler⟩]) :
    Represents (addFrom method handler (segment :: rest) node)
      (table ++ [⟨segment :: rest, method, handler⟩]) := by
  obtain ⟨hhandlers, hsegments, hnamed, hchildren⟩ := h
  have hupdate := updateChild_of_notMem (f := Tree.addFrom method handler rest) hnamed
    (hsegments ▸ hmem)
  refine .mk ?_ ?_ ?_ ?_
  · rw [handlersAt_append_cons, ← hhandlers]
    rfl
  · rw [heads_append_cons, if_neg hmem, ← hsegments, Tree.addFrom, hupdate, List.map_append,
      List.map_singleton, addFrom_segment]
    rfl
  · intro child hchild
    rw [Tree.addFrom, hupdate] at hchild
    rcases List.mem_append.mp hchild with hold | hnew
    · exact hnamed child hold
    · rw [List.mem_singleton.mp hnew]
      exact (named_newNode segment).addFrom method handler rest
  · intro child hchild
    rw [Tree.addFrom, hupdate] at hchild
    rcases List.mem_append.mp hchild with hold | hnew
    · rw [behind_append_ne]
      · exact hchildren child hold
      · rintro rfl
        exact hmem (hsegments ▸ List.mem_map_of_mem hold)
    · have hsegment : (Tree.addFrom method handler rest (newNode segment)).segment =
          segment := addFrom_segment _ _ _ _
      rw [List.mem_singleton.mp hnew, hsegment, behind_append_self, behind_of_notMem hmem]
      exact hrest

end

/-- **Adding a route to the tree adds it to the table.** -/
lemma represents_addFrom (method : HttpMethod) (handler : β) {pattern : List String}
    {node : RouteNode β} {table : Table β} (h : Represents node table) :
    Represents (addFrom method handler pattern node) (table ++ [⟨pattern, method, handler⟩]) := by
  induction pattern generalizing node table with
  | nil =>
      obtain ⟨hhandlers, hsegments, hnamed, hchildren⟩ := h
      refine .mk ?_ ?_ hnamed fun child hchild => ?_
      · rw [handlersAt_append_nil, ← hhandlers]
        rfl
      · rw [heads_append_nil, ← hsegments]
        rfl
      · rw [behind_append_nil]
        exact hchildren child hchild
  | cons segment rest ih =>
      have hchildren : ∀ child ∈ node.children, Represents child (table.behind child.segment) := by
        obtain ⟨-, -, -, hchildren⟩ := h
        exact hchildren
      by_cases hmem : segment ∈ table.heads
      · refine represents_addFrom_of_mem h hmem fun child hchild hsegment => ih ?_
        rw [← hsegment]
        exact hchildren child hchild
      · exact represents_addFrom_of_notMem h hmem (ih (represents_newNode segment))

/-! ### The search -/

lemma orElse_fst (result : Option β × Params) (next : Params → Option β × Params) :
    (orElse result next).1 = result.1.or (next result.2).1 := by
  rcases result with ⟨_ | handler, params⟩ <;> rfl

lemma firstOf_fst {visit : RouteNode β → Params → Option β × Params} {g : RouteNode β → Option β}
    {children : List (RouteNode β)}
    (h : ∀ child ∈ children, ∀ params, (visit child params).1 = g child) (params : Params) :
    (firstOf visit children params).1 = children.findSome? g := by
  induction children generalizing params with
  | nil => rfl
  | cons child children ih =>
      rw [firstOf, orElse_fst, List.findSome?_cons, h child List.mem_cons_self,
        ih fun c hc => h c (List.mem_cons_of_mem _ hc)]
      cases g child <;> rfl

lemma search_nil (method : HttpMethod) (segments : List String) :
    Table.search method segments ([] : Table β) = none := by
  induction segments with
  | nil => rfl
  | cons segment rest ih =>
      rw [Table.search]
      exact (congrArg (Option.or · _) ih).trans rfl

/-- The child for a segment decides alone. -/
lemma findSome?_segment {α : Type} (x : Option α) (segment : String)
    (children : List (RouteNode β)) :
    (children.findSome? fun child => if child.segment = segment then x else none) =
      if segment ∈ children.map (·.segment) then x else none := by
  induction children with
  | nil => rfl
  | cons child children ih =>
      rw [List.findSome?_cons, ih, List.map_cons]
      by_cases h : child.segment = segment
      · cases x <;> simp [h]
      · simp [h, Ne.symm h]

lemma findSome?_filterMap {α γ δ : Type} (f : α → Option γ) (g : γ → Option δ) (l : List α) :
    (l.filterMap f).findSome? g = l.findSome? fun a => (f a).bind g := by
  induction l with
  | nil => rfl
  | cons a l ih =>
      rw [List.filterMap_cons, List.findSome?_cons]
      cases f a with
      | none => exact ih
      | some b =>
          dsimp only [Option.bind_some]
          rw [List.findSome?_cons, ih]

section

variable {method : HttpMethod} {rest : List String} {node : RouteNode β} {table : Table β}
  {segment : String}

/-- What is found behind a segment, where a child has it or not. -/
lemma findSome?_behind {α : Type} {f : Table β → Option α} (hf : f [] = none)
    (hsegments : node.children.map (·.segment) = table.heads) :
    (node.children.findSome? fun child =>
      if child.segment = segment then f (table.behind segment) else none) =
        f (table.behind segment) := by
  rw [findSome?_segment, hsegments]
  split
  next => rfl
  next hmem => rw [behind_of_notMem hmem, hf]

/-- The child for all the rest has the handlers of the route for all the rest. -/
lemma handlers_wildcard (h : Represents node table) :
    (node.children.find? (·.isWildcard)).bind (·.handlers.get method) =
      (table.behind "*").handlersAt.get method := by
  obtain ⟨-, hsegments, hnamed, hchildren⟩ := h
  cases hfind : node.children.find? (·.isWildcard) with
  | none =>
      rw [behind_of_notMem]
      · rfl
      · rw [← hsegments]
        intro hmem
        obtain ⟨child, hchild, hsegment⟩ := List.mem_map.mp hmem
        have hnot := List.find?_eq_none.mp hfind child hchild
        rw [(hnamed child hchild).isWildcard, hsegment] at hnot
        exact hnot rfl
  | some child =>
      have hchild := List.mem_of_find?_eq_some hfind
      have hwildcard := List.find?_some hfind
      rw [(hnamed child hchild).isWildcard, decide_eq_true_eq] at hwildcard
      obtain ⟨hhandlers, -, -, -⟩ := hchildren child hchild
      rw [Option.bind_some, hhandlers, hwildcard]

/-- **The tree finds the handler that is found in the table**, whatever the parameters are. -/
lemma matchNode_fst {segments : List String} (h : Represents node table) (params : Params) :
    (matchNode method segments node params).1 = (table.search method segments).map Prod.fst := by
  induction segments generalizing node table params with
  | nil =>
      obtain ⟨hhandlers, -, -, -⟩ := h
      rw [matchNode, Table.search, Option.map_map, hhandlers]
      exact Option.map_id'.symm
  | cons segment rest ih =>
      have hwildcard : (node.children.find? (·.isWildcard)).bind (·.handlers.get method) =
          (table.behind "*").handlersAt.get method := handlers_wildcard h
      obtain ⟨hhandlers, hsegments, hnamed, hchildren⟩ := h
      have hexact (params : Params) :
          (firstOf (visitExact (matchNode method rest) segment) node.children params).1 =
            ((table.behind segment).search method rest).map Prod.fst := by
        refine (firstOf_fst (fun child hchild params => ?_) params).trans
          (findSome?_behind (f := fun t => (t.search method rest).map Prod.fst)
            (by rw [search_nil]; rfl) hsegments)
        rw [visitExact]
        split
        next hsegment => rw [ih (hchildren child hchild), hsegment]
        next => rfl
      have hparam (params : Params) :
          (firstOf (visitParam (matchNode method rest) segment) node.children params).1 =
            ((table.heads.filterMap Table.paramOf).findSome? fun label =>
              ((table.behind label.1).search method rest).map fun found =>
                (found.1, (label.2, segment) :: found.2)).map Prod.fst := by
        have hvisit : ∀ child ∈ node.children, ∀ params,
            (visitParam (matchNode method rest) segment child params).1 =
              (Table.paramOf child.segment).bind fun label =>
                ((table.behind label.1).search method rest).map Prod.fst := by
          intro child hchild params
          rw [visitParam, (hnamed child hchild).paramName, Table.paramOf]
          cases paramNameOf child.segment with
          | none => rfl
          | some name =>
              by_cases hname : name = ""
              · simp [hname]
              · simp [hname, orElse_fst, ih (hchildren child hchild)]
        rw [firstOf_fst hvisit, findSome?_filterMap, ← hsegments, List.findSome?_map,
          List.map_findSome?]
        refine congrArg (List.findSome? · node.children) (funext fun child => ?_)
        dsimp only [Function.comp_apply]
        cases Table.paramOf child.segment with
        | none => rfl
        | some label => simp [Function.comp_def]
      rw [matchNode, Table.search, orElse_fst, orElse_fst, Option.map_or, Option.map_or, hexact,
        hparam, ← hwildcard, Option.map_map]
      cases node.children.find? (·.isWildcard) with
      | none => rfl
      | some child => exact congrArg _ (congrArg _ Option.map_id'.symm)

end

/-! ### The routes that were added -/

/-- The tree with these routes, added one after another. -/
def build (routes : List (String × HttpMethod × β)) : RouteNode β :=
  routes.foldl (fun tree route => tree.add route.1 route.2.1 route.2.2) root

/-- What a list of routes registers. -/
def registered (routes : List (String × HttpMethod × β)) : Table β :=
  routes.map fun route => ⟨segmentsOf route.1, route.2.1, route.2.2⟩

lemma represents_build (routes : List (String × HttpMethod × β)) :
    Represents (build routes) (registered routes) := by
  induction routes using List.reverseRecOn with
  | nil => exact .mk rfl rfl (by rintro _ ⟨⟩) (by rintro _ ⟨⟩)
  | append_singleton routes route ih =>
      rw [build, List.foldl_append, registered, List.map_append]
      exact represents_addFrom route.2.1 route.2.2 ih

lemma map_fst_matchPath (tree : RouteNode β) (path : String) (method : HttpMethod) :
    (tree.matchPath path method).map Prod.fst =
      (matchNode method (segmentsOf path) tree ∅).1 := by
  rw [RouteNode.matchPath]
  rcases matchNode method (segmentsOf path) tree ∅ with ⟨_ | handler, params⟩ <;> rfl

/-- **The tree answers as the list of its routes**: the handler that the search with backtracking
finds in the tree is that which is found by going through the routes as they were added. -/
theorem matchPath_build (routes : List (String × HttpMethod × β)) (path : String)
    (method : HttpMethod) :
    ((build routes).matchPath path method).map Prod.fst =
      ((registered routes).search method (segmentsOf path)).map Prod.fst := by
  rw [map_fst_matchPath]
  exact matchNode_fst (represents_build routes) ∅

/-! ### The routes that match -/

/-- The pattern of a route matches the segments of a path, and captures some of them. -/
inductive Matches : List String → List String → List (String × String) → Prop
  | nil : Matches [] [] []
  | exact {segment : String} {pattern segments : List String} {captures : List (String × String)} :
      Matches pattern segments captures →
        Matches (segment :: pattern) (segment :: segments) captures
  | param {label name segment : String} {pattern segments : List String}
      {captures : List (String × String)} (hlabel : Table.paramOf label = some (label, name)) :
      Matches pattern segments captures →
        Matches (label :: pattern) (segment :: segments) ((name, segment) :: captures)
  | wildcard {segment : String} {segments : List String} :
      Matches ["*"] (segment :: segments) [("*", "/".intercalate (segment :: segments))]

namespace Table

/-- The handler that was added last for a pattern and a method. -/
def latest (table : Table β) (pattern : List String) (method : HttpMethod) : Option β :=
  table.foldl (fun found r => if r.pattern = pattern ∧ r.method = method then some r.handler
    else found) none

variable {table : Table β} {pattern : List String} {method : HttpMethod} {label : String}

lemma latest_append (r : Registration β) :
    latest (table ++ [r]) pattern method =
      if r.pattern = pattern ∧ r.method = method then some r.handler
      else table.latest pattern method := by
  rw [latest, List.foldl_append]
  rfl

lemma handlersAt_get (table : Table β) (method : HttpMethod) :
    table.handlersAt.get method = table.latest [] method := by
  induction table using List.reverseRecOn with
  | nil => rfl
  | append_singleton table r ih =>
      rw [latest_append]
      obtain ⟨_ | ⟨segment, rest⟩, m, handler⟩ := r
      · rw [handlersAt_append_nil, OrdMap.get_set, ih]
        simp
      · rw [handlersAt_append_cons, ih, if_neg]
        rintro ⟨⟨⟩, -⟩

lemma latest_behind (table : Table β) (label : String) (pattern : List String)
    (method : HttpMethod) :
    (table.behind label).latest pattern method = table.latest (label :: pattern) method := by
  induction table using List.reverseRecOn with
  | nil => rfl
  | append_singleton table r ih =>
      rw [latest_append]
      obtain ⟨_ | ⟨segment, rest⟩, m, handler⟩ := r
      · rw [behind_append_nil, ih, if_neg]
        rintro ⟨⟨⟩, -⟩
      · by_cases hsegment : segment = label
        · subst hsegment
          rw [behind_append_self, latest_append, ih]
          simp
        · rw [behind_append_ne hsegment, ih, if_neg]
          rintro ⟨h, -⟩
          exact hsegment (List.cons.inj h).1

lemma latest_ne_none_iff :
    table.latest pattern method ≠ none ↔ ∃ r ∈ table, r.pattern = pattern ∧ r.method = method := by
  induction table using List.reverseRecOn with
  | nil => exact iff_of_false (fun h => h rfl) (by rintro ⟨_, ⟨⟩, -⟩)
  | append_singleton table r ih =>
      rw [latest_append]
      by_cases h : r.pattern = pattern ∧ r.method = method
      · rw [if_pos h]
        exact iff_of_true (by rintro ⟨⟩) ⟨r, List.mem_append_right _ List.mem_cons_self, h⟩
      · rw [if_neg h, ih]
        constructor
        · rintro ⟨r', hr', hsame⟩
          exact ⟨r', List.mem_append_left _ hr', hsame⟩
        · rintro ⟨r', hr', hsame⟩
          rcases List.mem_append.mp hr' with hr' | hr'
          · exact ⟨r', hr', hsame⟩
          · rw [List.mem_singleton.mp hr'] at hsame
            exact absurd hsame h

lemma mem_heads_of_latest (h : table.latest (label :: pattern) method ≠ none) :
    label ∈ table.heads := by
  obtain ⟨r, hr, hpattern, -⟩ := latest_ne_none_iff.mp h
  exact List.mem_eraseDups.mpr (List.mem_filterMap.mpr ⟨r, hr, by rw [hpattern]; rfl⟩)

lemma paramOf_eq_some {label : String} {p : String × String} (h : paramOf label = some p) :
    p.1 = label := by
  rw [paramOf, Option.bind_eq_some_iff] at h
  obtain ⟨name, -, hname⟩ := h
  rw [Option.ite_none_left_eq_some] at hname
  rw [← Option.some.inj hname.2]

/-- What is found is the latest handler of a pattern that matches. -/
lemma search_sound {segments : List String} {handler : β} {captures : List (String × String)}
    (h : table.search method segments = some (handler, captures)) :
    ∃ pattern, Matches pattern segments captures ∧ table.latest pattern method = some handler := by
  induction segments generalizing table handler captures with
  | nil =>
      rw [search, handlersAt_get, Option.map_eq_some_iff] at h
      obtain ⟨found, hlatest, hfound⟩ := h
      obtain ⟨rfl, rfl⟩ := Prod.mk.inj hfound
      exact ⟨[], .nil, hlatest⟩
  | cons segment rest ih =>
      rw [search, Option.or_eq_some_iff, Option.or_eq_some_iff] at h
      rcases h with h | ⟨-, h | ⟨-, h⟩⟩
      · obtain ⟨pattern, hmatches, hlatest⟩ := ih h
        exact ⟨segment :: pattern, hmatches.exact, latest_behind .. ▸ hlatest⟩
      · obtain ⟨p, hp, hfound⟩ := List.exists_of_findSome?_eq_some h
        obtain ⟨label, -, hlabel⟩ := List.mem_filterMap.mp hp
        rw [Option.map_eq_some_iff] at hfound
        obtain ⟨⟨found, inner⟩, hsearch, heq⟩ := hfound
        obtain ⟨rfl, rfl⟩ := Prod.mk.inj heq
        obtain ⟨pattern, hmatches, hlatest⟩ := ih hsearch
        obtain ⟨label', name⟩ := p
        obtain rfl : label' = label := paramOf_eq_some hlabel
        exact ⟨label' :: pattern, .param hlabel hmatches, latest_behind .. ▸ hlatest⟩
      · rw [handlersAt_get, latest_behind, Option.map_eq_some_iff] at h
        obtain ⟨found, hlatest, hfound⟩ := h
        obtain ⟨rfl, rfl⟩ := Prod.mk.inj hfound
        exact ⟨["*"], .wildcard, hlatest⟩

/-- A route that matches is not missed: the search goes back where it has to. -/
lemma search_complete {segments : List String} {captures : List (String × String)}
    (h : Matches pattern segments captures) (hlatest : table.latest pattern method ≠ none) :
    table.search method segments ≠ none := by
  induction h generalizing table with
  | nil =>
      rw [search, handlersAt_get, ne_eq, Option.map_eq_none_iff]
      exact hlatest
  | exact hmatches ih =>
      rw [← latest_behind] at hlatest
      rw [search, ne_eq, Option.or_eq_none_iff, not_and_or]
      exact .inl (ih hlatest)
  | @param label name segment pattern segments captures hlabel hmatches ih =>
      have hhead := mem_heads_of_latest hlatest
      rw [← latest_behind] at hlatest
      rw [search, ne_eq, Option.or_eq_none_iff, Option.or_eq_none_iff, not_and_or, not_and_or]
      refine .inr (.inl fun hnone => ih hlatest ?_)
      rw [List.findSome?_eq_none_iff] at hnone
      have hfound := hnone (label, name) (List.mem_filterMap.mpr ⟨label, hhead, hlabel⟩)
      exact Option.map_eq_none_iff.mp hfound
  | wildcard =>
      rw [search, ne_eq, Option.or_eq_none_iff, Option.or_eq_none_iff, not_and_or, not_and_or,
        handlersAt_get, latest_behind, Option.map_eq_none_iff]
      exact .inr (.inr hlatest)

end Table

/-- **A path is answered exactly if a route matches it**, and then by the handler that was added
last for a pattern that matches. -/
theorem matchPath_build_found (routes : List (String × HttpMethod × β)) (path : String)
    (method : HttpMethod) :
    (((build routes).matchPath path method).isSome ↔
      ∃ r ∈ registered routes, r.method = method ∧
        ∃ captures, Matches r.pattern (segmentsOf path) captures) ∧
    ∀ handler params, (build routes).matchPath path method = some (handler, params) →
      ∃ pattern captures, Matches pattern (segmentsOf path) captures ∧
        (registered routes).latest pattern method = some handler := by
  have hbuild := matchPath_build routes path method
  have hfound : ∀ handler params, (build routes).matchPath path method = some (handler, params) →
      ∃ pattern captures, Matches pattern (segmentsOf path) captures ∧
        (registered routes).latest pattern method = some handler := by
    intro handler params h
    rw [h, Option.map_some] at hbuild
    obtain ⟨⟨found, captures⟩, hsearch, rfl⟩ := Option.map_eq_some_iff.mp hbuild.symm
    obtain ⟨pattern, hmatches, hlatest⟩ := Table.search_sound hsearch
    exact ⟨pattern, captures, hmatches, hlatest⟩
  refine ⟨⟨fun h => ?_, ?_⟩, hfound⟩
  · obtain ⟨⟨handler, params⟩, h⟩ := Option.isSome_iff_exists.mp h
    obtain ⟨pattern, captures, hmatches, hlatest⟩ := hfound handler params h
    have hne : (registered routes).latest pattern method ≠ none := by
      rw [hlatest]
      rintro ⟨⟩
    obtain ⟨r, hr, rfl, hmethod⟩ := Table.latest_ne_none_iff.mp hne
    exact ⟨r, hr, hmethod, captures, hmatches⟩
  · rintro ⟨r, hr, hmethod, captures, hmatches⟩
    have hsearch := Table.search_complete hmatches
      (Table.latest_ne_none_iff.mpr ⟨r, hr, rfl, hmethod⟩)
    rw [← Option.isSome_map (f := Prod.fst), hbuild, Option.isSome_map, Option.isSome_iff_ne_none]
    exact hsearch

end Blaize.Router.Tree
