import Blaize.Lib.OrdMap
import Blaize.Lib.Url

/-!
The path and the query of a request (`parseRequestUrl` in
`packages/blaize-core/src/context/create.ts`).

The query is collected in a plain object, so that `query[key]` also finds what the object
inherits.  The host of a request is one that the URL parser accepts.

* `QueryParams`: the query object with its prototype;
* `QueryParams.collect`: one name with its value;
* `parseRequestUrl`: the path and the query;
* `get_collectQuery`: **what is collected for a list of different names**.
-/

namespace Blaize.Server

open Js Js.Url

/-! ### The query object -/

/-- What a list holds: a text of the query, or what the object has inherited under a key. -/
inductive Element where
  | text (value : String)
  | inherited (key : String)
  deriving DecidableEq, Repr

/-- The values of a name: one, or an array. -/
inductive QueryParam where
  | text (value : String)
  | list (elements : List Element)
  deriving DecidableEq, Repr

/-- The query object; `prototype` is the list that has become its prototype. -/
structure QueryParams where
  own : OrdMap String QueryParam := ∅
  prototype : Option (List Element) := none

/-- What a list has besides its elements. -/
def arrayPrototype : List String :=
  ["length", "at", "concat", "copyWithin", "fill", "find", "findIndex", "findLast",
    "findLastIndex", "lastIndexOf", "pop", "push", "reverse", "shift", "unshift", "slice", "sort",
    "splice", "includes", "indexOf", "join", "keys", "entries", "values", "forEach", "filter",
    "flat", "flatMap", "map", "every", "some", "reduce", "reduceRight", "toReversed", "toSorted",
    "toSpliced", "with"]

/-- The element of a list under a key. -/
def elementAt (elements : List Element) (key : String) : Option Element :=
  (elements.zipIdx.find? fun p => toString p.2 = key).map Prod.fst

/-- `query[key]`; a list may be the value of the key or the prototype. -/
inductive Found where
  | nothing
  | element (e : Element)
  | list (elements : List Element)
  deriving DecidableEq, Repr

namespace QueryParams

variable (q : QueryParams)

/-- What the object inherits under a key. -/
def inherits (key : String) : Found :=
  match q.prototype with
  | none => if key ∈ objectPrototype then .element (.inherited key) else .nothing
  | some elements =>
      match elementAt elements key with
      | some e => .element e
      | none =>
          if key ∈ arrayPrototype ∨ key ∈ objectPrototype then .element (.inherited key)
          else .nothing

/-- `query[key]`. -/
def find (key : String) : Found :=
  if key = "__proto__" then
    match q.prototype with
    | none => .element (.inherited key)
    | some elements => .list elements
  else
    match q.own.get key with
    | some (.text value) => .element (.text value)
    | some (.list elements) => .list elements
    | none => q.inherits key

/-- `query[key] = param`; the prototype becomes a list, and never a text. -/
def assign (key : String) (param : QueryParam) : QueryParams :=
  if key = "__proto__" then
    match param with
    | .text _ => q
    | .list elements => { q with prototype := some elements }
  else { q with own := q.own.set key param }

/-- The callback of `url.searchParams.forEach`. -/
def collect (key value : String) : QueryParams :=
  match q.find key with
  | .list elements => q.assign key (.list (elements ++ [.text value]))
  | .element e => q.assign key (.list [e, .text value])
  | .nothing => q.assign key (.text value)

end QueryParams

/-- The parameters of a query. -/
def collectQuery (pairs : List (String × String)) : QueryParams :=
  pairs.foldl (fun q p => q.collect p.1 p.2) {}

/-! ### The request -/

/-- What is made of the URL of a request. -/
structure RequestUrl where
  path : List Char
  query : QueryParams

/-- `encrypted` tells whether the request came over TLS. -/
def parseRequestUrl (encrypted : Bool) (host requestUrl : List Char) : RequestUrl :=
  let originalUrl := if requestUrl = [] then ['/'] else requestUrl
  let protocol := if encrypted then "https".toList else "http".toList
  let fullUrl := protocol ++ "://".toList ++ host ++
    (if originalUrl.head? = some '/' then [] else ['/']) ++ originalUrl
  { path := pathname fullUrl, query := collectQuery (parseForm (query fullUrl)) }

/-! ### What is collected -/

/-- No key is ever put into the object as `__proto__`. -/
lemma own_proto_collect {q : QueryParams} (h : q.own.get "__proto__" = none) (key value : String) :
    (q.collect key value).own.get "__proto__" = none := by
  have hassign (param : QueryParam) : (q.assign key param).own.get "__proto__" = none := by
    unfold QueryParams.assign
    split
    · split <;> exact h
    next hne => rw [OrdMap.get_set_ne _ _ hne, h]
  unfold QueryParams.collect
  split <;> exact hassign _

lemma own_proto_collectQuery (pairs : List (String × String)) :
    (collectQuery pairs).own.get "__proto__" = none := by
  have hfold (q : QueryParams) (h : q.own.get "__proto__" = none) :
      (pairs.foldl (fun q p => q.collect p.1 p.2) q).own.get "__proto__" = none := by
    induction pairs generalizing q with
    | nil => exact h
    | cons p pairs ih => exact ih _ (own_proto_collect h p.1 p.2)
  exact hfold {} rfl

/-- What is collected for a name that comes once. -/
def collected (key value : String) : QueryParam :=
  if key ∈ objectPrototype then .list [.inherited key, .text value] else .text value

/-- A new name. -/
lemma collect_of_new {q : QueryParams} {key : String} (hproto : q.prototype = none)
    (hne : key ≠ "__proto__") (hnew : q.own.get key = none) (value : String) :
    q.collect key value = { q with own := q.own.set key (collected key value) } := by
  have hfind : q.find key =
      if key ∈ objectPrototype then .element (.inherited key) else .nothing := by
    unfold QueryParams.find QueryParams.inherits
    rw [if_neg hne, hnew, hproto]
  unfold QueryParams.collect collected
  rw [hfind]
  by_cases hkey : key ∈ objectPrototype
  · rw [if_pos hkey, if_pos hkey]
    exact if_neg hne
  · rw [if_neg hkey, if_neg hkey]
    exact if_neg hne

/-- **What is collected for a list of different names**, none of which is `__proto__`. -/
theorem get_collectQuery {pairs : List (String × String)} (hnodup : (pairs.map Prod.fst).Nodup)
    (hne : "__proto__" ∉ pairs.map Prod.fst) :
    (collectQuery pairs).prototype = none ∧ ∀ key, (collectQuery pairs).own.get key =
      (OrdMap.find key pairs).map (collected key) := by
  have hfold (q : QueryParams) (hproto : q.prototype = none)
      (hnew : ∀ p ∈ pairs, q.own.get p.1 = none) :
      (pairs.foldl (fun q p => q.collect p.1 p.2) q).prototype = none ∧
        ∀ key, (pairs.foldl (fun q p => q.collect p.1 p.2) q).own.get key =
          ((OrdMap.find key pairs).map (collected key)).or (q.own.get key) := by
    induction pairs generalizing q with
    | nil => exact ⟨hproto, fun key => rfl⟩
    | cons p pairs ih =>
        rw [List.map_cons, List.nodup_cons] at hnodup
        rw [List.map_cons, List.mem_cons, not_or] at hne
        have hcollect := collect_of_new hproto (Ne.symm hne.1) (hnew p List.mem_cons_self) p.2
        have hrest : ∀ r ∈ pairs, (q.own.set p.1 (collected p.1 p.2)).get r.1 = none := by
          intro r hr
          rw [OrdMap.get_set_ne, hnew r (List.mem_cons_of_mem p hr)]
          rintro heq
          exact hnodup.1 (heq ▸ List.mem_map_of_mem hr)
        rw [List.foldl_cons, hcollect]
        obtain ⟨hproto', hget⟩ :=
          ih hnodup.2 hne.2 { q with own := q.own.set p.1 (collected p.1 p.2) } hproto hrest
        refine ⟨hproto', fun key => ?_⟩
        rw [hget, OrdMap.get_set, OrdMap.find]
        by_cases hkey : p.1 = key
        · rw [if_pos hkey, if_pos hkey, ← hkey, OrdMap.find_eq_none_iff.mpr hnodup.1]
          rfl
        · rw [if_neg hkey, if_neg hkey]
  obtain ⟨hproto, hget⟩ := hfold {} rfl fun _ _ => rfl
  refine ⟨hproto, fun key => ?_⟩
  rw [collectQuery, hget]
  exact Option.or_none

/-- The query of a request is that of its target. -/
lemma query_parseRequestUrl {host requestUrl : List Char} (encrypted : Bool)
    (hhost : ∀ c ∈ host, endsPath c = false) (hne : requestUrl ≠ []) :
    ∃ front, (∀ c ∈ front, endsPath c = false) ∧
      (parseRequestUrl encrypted host requestUrl).query =
        collectQuery (parseForm (query (front ++ requestUrl))) := by
  have hprotocol : ∀ c ∈ (if encrypted then "https".toList else "http".toList) ++ "://".toList,
      endsPath c = false := by
    cases encrypted <;> decide
  refine ⟨(if encrypted then "https".toList else "http".toList) ++ "://".toList ++ host ++
    (if requestUrl.head? = some '/' then [] else ['/']), fun c hc => ?_, ?_⟩
  · rcases List.mem_append.mp hc with hc | hc
    · rcases List.mem_append.mp hc with hc | hc
      · exact hprotocol c hc
      · exact hhost c hc
    · split at hc
      · cases hc
      · exact List.mem_singleton.mp hc ▸ rfl
  · unfold parseRequestUrl
    rw [if_neg hne]

end Blaize.Server
