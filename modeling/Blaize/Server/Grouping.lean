import Blaize.Server.RequestUrl

/-!
Are repeated keys grouped (`packages/blaize-core/src/context/create.ts`)?

* `parseUrlEncodedData`: the object of a form body;
* `valuesOf`, `Grouped`: each key with its value or with its values in order;
* `own_collectQuery`: **what is collected for every key but `__proto__`**;
* `collectQuery_grouped_iff`: the keys are grouped if and only if no object inherits them;
* `grouped_iff`: **so for a query and for a form body**.
-/

namespace Blaize.Server

open Js Js.Url

/-- `new URLSearchParams(body)` drops a question mark in front; the callback of `params.forEach` is
that of `parseRequestUrl` once more. -/
def parseUrlEncodedData (body : List Char) : QueryParams :=
  let init := if body.head? = some '?' then body.tail else body
  (parseForm init).foldl (fun formData p => formData.collect p.1 p.2) {}

/-! ### Groups -/

/-- The values of a key, in order. -/
def valuesOf (key : String) (pairs : List (String × String)) : List String :=
  (pairs.filter (·.1 = key)).map Prod.snd

/-- What is wanted for a key with these values. -/
def groupOf : List String → Option QueryParam
  | [] => none
  | [value] => some (.text value)
  | values => some (.list (values.map .text))

/-- The own keys are those of the pairs, each with its value or its values. -/
def Grouped (q : QueryParams) (pairs : List (String × String)) : Prop :=
  ∀ key, q.own.get key = groupOf (valuesOf key pairs)

/-- What is collected for a key: one that every object inherits has a list from the start. -/
def collectedValues (key : String) (values : List String) : Option QueryParam :=
  if key ∈ objectPrototype ∧ values ≠ [] then
    some (.list (.inherited key :: values.map .text))
  else groupOf values

lemma valuesOf_concat (key : String) (pairs : List (String × String)) (p : String × String) :
    valuesOf key (pairs ++ [p]) =
      if p.1 = key then valuesOf key pairs ++ [p.2] else valuesOf key pairs := by
  rw [valuesOf, List.filter_append, List.map_append]
  split
  next h =>
    have hfilter : [p].filter (fun p => p.1 = key) = [p] := List.filter_cons_of_pos (by simpa)
    rw [hfilter]
    rfl
  next h =>
    have hfilter : [p].filter (fun p => p.1 = key) = [] := List.filter_cons_of_neg (by simpa)
    rw [hfilter]
    exact List.append_nil _

/-- One more value of a key. -/
lemma collect_of_collected {q : QueryParams} {key : String} (hproto : q.prototype = none)
    (hne : key ≠ "__proto__") {values : List String}
    (hown : q.own.get key = collectedValues key values) (value : String) :
    ∃ param, q.collect key value = { q with own := q.own.set key param } ∧
      collectedValues key (values ++ [value]) = some param := by
  have hassign (param : QueryParam) :
      q.assign key param = { q with own := q.own.set key param } := if_neg hne
  have hfind : q.find key = (collectedValues key values).elim
      (if key ∈ objectPrototype then .element (.inherited key) else .nothing) fun param =>
        param.rec (fun value => .element (.text value)) .list := by
    have hinherits : q.inherits key =
        if key ∈ objectPrototype then .element (.inherited key) else .nothing := by
      unfold QueryParams.inherits
      simp only [hproto]
    rw [QueryParams.find, if_neg hne, hown]
    cases collectedValues key values with
    | none => exact hinherits
    | some param => cases param <;> rfl
  rw [QueryParams.collect, hfind]
  by_cases hkey : key ∈ objectPrototype
  · cases values with
    | nil =>
        have hnone : collectedValues key [] = none := if_neg fun h => h.2 rfl
        rw [hnone, Option.elim_none, if_pos hkey]
        exact ⟨_, hassign _, if_pos ⟨hkey, List.cons_ne_nil _ _⟩⟩
    | cons first values =>
        have hlist : collectedValues key (first :: values) = _ :=
          if_pos ⟨hkey, List.cons_ne_nil _ _⟩
        rw [hlist]
        refine ⟨_, hassign _, ?_⟩
        rw [collectedValues, if_pos ⟨hkey, List.cons_ne_nil _ _⟩]
        simp
  · have hgroup (values : List String) : collectedValues key values = groupOf values :=
      if_neg fun h => hkey h.1
    rw [hgroup, hgroup]
    rcases values with _ | ⟨first, _ | ⟨second, values⟩⟩
    · rw [groupOf, Option.elim_none, if_neg hkey]
      exact ⟨_, hassign _, rfl⟩
    · exact ⟨_, hassign _, rfl⟩
    · refine ⟨_, hassign _, ?_⟩
      simp [groupOf]

/-- **What is collected for every key**, without the key `__proto__`. -/
theorem own_collectQuery {pairs : List (String × String)} (hne : "__proto__" ∉ pairs.map Prod.fst) :
    (collectQuery pairs).prototype = none ∧
      ∀ key, (collectQuery pairs).own.get key = collectedValues key (valuesOf key pairs) := by
  induction pairs using List.reverseRecOn with
  | nil =>
      refine ⟨rfl, fun key => ?_⟩
      rw [collectedValues, if_neg fun h => h.2 rfl]
      rfl
  | append_singleton pairs p ih =>
      rw [List.map_append, List.mem_append, not_or] at hne
      obtain ⟨hproto, hown⟩ := ih hne.1
      have hp : p.1 ≠ "__proto__" := fun h => hne.2 (h ▸ List.mem_singleton_self p.1)
      obtain ⟨param, hcollect, hvalues⟩ := collect_of_collected hproto hp (hown p.1) p.2
      have hconcat : collectQuery (pairs ++ [p]) = (collectQuery pairs).collect p.1 p.2 := by
        rw [collectQuery, List.foldl_append]
        rfl
      rw [hconcat, hcollect]
      refine ⟨hproto, fun key => ?_⟩
      rw [valuesOf_concat]
      dsimp only
      by_cases hkey : p.1 = key
      · subst hkey
        rw [if_pos rfl, OrdMap.get_set_self, hvalues]
      · rw [if_neg hkey, OrdMap.get_set_ne _ _ hkey, hown]

/-! ### Grouping -/

/-- The keys that every object inherits. -/
def Inherited (key : String) : Prop := key = "__proto__" ∨ key ∈ objectPrototype

instance : DecidablePred Inherited := fun _ => inferInstanceAs (Decidable (_ ∨ _))

lemma valuesOf_ne_nil {key : String} {pairs : List (String × String)} :
    valuesOf key pairs ≠ [] ↔ key ∈ pairs.map Prod.fst := by
  rw [valuesOf, Ne, List.map_eq_nil_iff, List.filter_eq_nil_iff]
  simp

lemma groupOf_eq_none_iff {values : List String} : groupOf values = none ↔ values = [] := by
  match values with
  | [] => exact iff_of_true rfl rfl
  | [value] => exact iff_of_false nofun nofun
  | first :: second :: values => exact iff_of_false nofun nofun

/-- No group starts with what an object inherits. -/
lemma groupOf_ne {values : List String} {key : String} {elements : List Element} :
    groupOf values ≠ some (.list (.inherited key :: elements)) := by
  match values with
  | [] => exact nofun
  | [value] => exact nofun
  | first :: second :: values =>
      intro h
      have hlist := QueryParam.list.inj (Option.some.inj h)
      cases (List.cons.inj hlist).1

/-- **The keys are grouped if and only if no object inherits one of them.** -/
theorem collectQuery_grouped_iff (pairs : List (String × String)) :
    Grouped (collectQuery pairs) pairs ↔ ∀ p ∈ pairs, ¬ Inherited p.1 := by
  have hmem {key : String} (h : valuesOf key pairs ≠ []) : ∃ p ∈ pairs, p.1 = key :=
    List.mem_map.mp (valuesOf_ne_nil.mp h)
  constructor
  · rintro hgrouped p hp
    have hkey : p.1 ∈ pairs.map Prod.fst := List.mem_map_of_mem hp
    have hne : "__proto__" ∉ pairs.map Prod.fst := by
      intro hproto
      have hnone := (hgrouped "__proto__").symm.trans (own_proto_collectQuery pairs)
      exact valuesOf_ne_nil.mpr hproto (groupOf_eq_none_iff.mp hnone)
    rintro (hproto | hinherited)
    · exact hne (hproto ▸ hkey)
    · have hown := (own_collectQuery hne).2 p.1
      rw [collectedValues, if_pos ⟨hinherited, valuesOf_ne_nil.mpr hkey⟩, hgrouped p.1] at hown
      exact groupOf_ne hown
  · intro hplain key
    have hne : "__proto__" ∉ pairs.map Prod.fst := by
      intro hproto
      obtain ⟨p, hp, hkey⟩ := List.mem_map.mp hproto
      exact hplain p hp (.inl hkey)
    rw [(own_collectQuery hne).2, collectedValues, if_neg]
    rintro ⟨hinherited, hvalues⟩
    obtain ⟨p, hp, rfl⟩ := hmem hvalues
    exact hplain p hp (.inr hinherited)

/-! ### Queries and forms -/

/-- The pairs as the query of a path. -/
def targetOf (path : List Char) (pairs : List (String × String)) : List Char :=
  path ++ '?' :: serializeForm pairs

lemma query_targetOf {host path : List Char} (hhost : ∀ c ∈ host, endsPath c = false)
    (hpath : ∀ c ∈ path, endsPath c = false) (encrypted : Bool) (pairs : List (String × String)) :
    (parseRequestUrl encrypted host (targetOf path pairs)).query = collectQuery pairs := by
  have hne : targetOf path pairs ≠ [] := List.append_ne_nil_of_right_ne_nil _ (List.cons_ne_nil _ _)
  obtain ⟨front, hfront, hquery⟩ := query_parseRequestUrl encrypted hhost hne
  have hbefore : ∀ c ∈ front ++ path, endsPath c = false := fun c hc =>
    (List.mem_append.mp hc).elim (hfront c) (hpath c)
  rw [hquery, targetOf, ← List.append_assoc, query_form hbefore (isFormChar_serializeForm pairs),
    parseForm_serializeForm]

/-- A form does not start with a question mark. -/
lemma parseUrlEncodedData_serializeForm (pairs : List (String × String)) :
    parseUrlEncodedData (serializeForm pairs) = collectQuery pairs := by
  have hhead : (serializeForm pairs).head? ≠ some '?' := by
    intro h
    have hform := isFormChar_serializeForm pairs '?' (List.mem_of_head? h)
    exact absurd hform (by decide)
  rw [parseUrlEncodedData, if_neg hhead, parseForm_serializeForm]
  rfl

/-- **Repeated keys are grouped if and only if no object inherits one of them: in a query and in a
form body.** -/
theorem grouped_iff {host path : List Char} (hhost : ∀ c ∈ host, endsPath c = false)
    (hpath : ∀ c ∈ path, endsPath c = false) (encrypted : Bool) (pairs : List (String × String)) :
    (Grouped (parseRequestUrl encrypted host (targetOf path pairs)).query pairs ↔
      ∀ p ∈ pairs, ¬ Inherited p.1) ∧
      (Grouped (parseUrlEncodedData (serializeForm pairs)) pairs ↔
        ∀ p ∈ pairs, ¬ Inherited p.1) := by
  rw [query_targetOf hhost hpath, parseUrlEncodedData_serializeForm]
  exact ⟨collectQuery_grouped_iff pairs, collectQuery_grouped_iff pairs⟩

/-- Two tags and a page. -/
theorem grouped_tags :
    Grouped (parseRequestUrl true "example.com".toList (targetOf "/posts".toList
      [("tag", "red"), ("page", "2"), ("tag", "blue")])).query
        [("tag", "red"), ("page", "2"), ("tag", "blue")] :=
  (grouped_iff (by decide) (by decide) true _).1.mpr (by decide)

/-- The key `constructor` has the function that every object inherits in front of its value. -/
theorem not_grouped :
    ¬ ∀ pairs : List (String × String),
      Grouped (parseRequestUrl false "localhost".toList (targetOf ['/'] pairs)).query pairs ∧
        Grouped (parseUrlEncodedData (serializeForm pairs)) pairs := by
  intro h
  have hquery := (h [("constructor", "1")]).1
  rw [query_targetOf (by decide) (by decide), collectQuery_grouped_iff] at hquery
  exact hquery _ List.mem_cons_self (.inr (by decide))

end Blaize.Server
