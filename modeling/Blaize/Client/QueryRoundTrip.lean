import Blaize.Client.Url
import Blaize.Server.RequestUrl

/-!
Does a query record get from the client to the server?

* `SameQuery`: the query object has the values of the record and nothing else;
* `Survives`: every value is a text, and no key is one that every object inherits;
* `sameQuery_iff_survives`: **a record gets to the server exactly if it survives**.
-/

namespace Blaize.Client

open Js Js.Url Blaize.Server

/-- The value that the query object is to have. -/
def QueryValue.param : QueryValue → QueryParam
  | text value => .text value
  | list values => .list (values.map .text)

/-- The query object has the values of the record and nothing else. -/
def SameQuery (q : QueryParams) (record : OrdMap String QueryValue) : Prop :=
  q.prototype = none ∧ ∀ key, q.own.get key = (record.get key).map QueryValue.param

/-- What gets to the server: texts, under keys that no object inherits. -/
def Survives (record : OrdMap String QueryValue) : Prop :=
  ∀ key value, record.get key = some value →
    (∃ text, value = .text text) ∧ key ≠ "__proto__" ∧ key ∉ objectPrototype

/-- The names and values that are sent. -/
def sentPairs (record : OrdMap String QueryValue) : List (String × String) :=
  record.entries.map fun p => (p.1, p.2.toString)

lemma find_sentPairs (record : OrdMap String QueryValue) (key : String) :
    OrdMap.find key (sentPairs record) = (record.get key).map QueryValue.toString := by
  unfold sentPairs OrdMap.get
  induction record.entries with
  | nil => rfl
  | cons p entries ih =>
      rw [List.map_cons, OrdMap.find, OrdMap.find]
      split
      · rfl
      · exact ih

lemma keys_sentPairs (record : OrdMap String QueryValue) :
    (sentPairs record).map Prod.fst = record.entries.map Prod.fst := by
  unfold sentPairs
  rw [List.map_map]
  rfl

/-- A list of a query is no list of texts only. -/
lemma collected_eq_param_iff {key : String} {value : QueryValue} :
    collected key value.toString = value.param ↔
      (∃ text, value = .text text) ∧ key ∉ objectPrototype := by
  unfold collected
  cases value with
  | text value =>
      split
      next h => exact iff_of_false nofun fun hsurvives => hsurvives.2 h
      next h => exact iff_of_true rfl ⟨⟨value, rfl⟩, h⟩
  | list values =>
      refine iff_of_false ?_ nofun
      split
      · cases values <;> exact nofun
      · exact nofun

/-- **A record is collected from its pairs exactly if it survives.** -/
lemma sameQuery_collectQuery_iff (record : OrdMap String QueryValue) :
    SameQuery (collectQuery (sentPairs record)) record ↔ Survives record := by
  have hnodup : ((sentPairs record).map Prod.fst).Nodup := keys_sentPairs record ▸ record.nodup
  have hproto (h : "__proto__" ∉ (sentPairs record).map Prod.fst) :
      (collectQuery (sentPairs record)).prototype = none ∧ ∀ key,
        (collectQuery (sentPairs record)).own.get key =
          (record.get key).map fun value => collected key value.toString := by
    obtain ⟨hproto, hget⟩ := get_collectQuery hnodup h
    refine ⟨hproto, fun key => ?_⟩
    rw [hget, find_sentPairs, Option.map_map]
    rfl
  have hmem : "__proto__" ∉ (sentPairs record).map Prod.fst ↔ record.get "__proto__" = none := by
    rw [keys_sentPairs]
    exact OrdMap.find_eq_none_iff.symm
  constructor
  · rintro ⟨-, hsame⟩
    have hnone : record.get "__proto__" = none := by
      have h := hsame "__proto__"
      rw [own_proto_collectQuery] at h
      exact Option.map_eq_none_iff.mp h.symm
    obtain ⟨-, hget⟩ := hproto (hmem.mpr hnone)
    intro key value hvalue
    have h := (hget key).symm.trans (hsame key)
    rw [hvalue, Option.map_some, Option.map_some, Option.some.injEq, collected_eq_param_iff] at h
    refine ⟨h.1, ?_, h.2⟩
    rintro rfl
    rw [hnone] at hvalue
    cases hvalue
  · intro hsurvives
    have hnone : record.get "__proto__" = none := by
      refine Option.eq_none_iff_forall_ne_some.mpr fun value hvalue => ?_
      exact (hsurvives _ _ hvalue).2.1 rfl
    obtain ⟨hnone', hget⟩ := hproto (hmem.mpr hnone)
    refine ⟨hnone', fun key => ?_⟩
    rw [hget]
    cases hvalue : record.get key with
    | none => rfl
    | some value =>
        obtain ⟨htext, -, hkey⟩ := hsurvives key value hvalue
        exact congrArg some (collected_eq_param_iff.mpr ⟨htext, hkey⟩)

/-! ### Over the wire -/

/-- The query that the server reads is the form that the client has written. -/
lemma query_requestTarget {url front : List Char} (hurl : ∀ c ∈ url, endsPath c = false)
    (hfront : ∀ c ∈ front, endsPath c = false) (record : OrdMap String QueryValue) :
    query (front ++ requestTarget (addQueryParameters url record)) =
      serializeForm (sentPairs record) := by
  have hmark {text : List Char} (h : ∀ c ∈ text, endsPath c = false) : '?' ∉ text :=
    fun hmem => absurd (h '?' hmem) nofun
  have hpathname (url : List Char) : ∀ c ∈ front ++ pathname url, endsPath c = false := by
    intro c hc
    rcases List.mem_append.mp hc with hc | hc
    · exact hfront c hc
    · by_contra hends
      exact notMem_pathname url (by simpa using hends) hc
  have hform : addQueryParameters url record =
      if serializeForm (sentPairs record) = [] then url
      else url ++ '?' :: serializeForm (sentPairs record) := rfl
  rw [hform]
  unfold requestTarget
  split
  next hnil =>
    rw [query_of_notMem (hmark hurl), if_pos rfl, query_of_notMem (hmark (hpathname _)), hnil]
  next hne =>
    have hchars := isFormChar_serializeForm (sentPairs record)
    rw [query_form hurl hchars, if_neg hne, ← List.append_assoc,
      query_form (hpathname _) hchars]

lemma requestTarget_ne_nil (url : List Char) : requestTarget url ≠ [] := by
  unfold requestTarget
  split
  · exact pathname_ne_nil url
  · exact List.append_ne_nil_of_left_ne_nil (pathname_ne_nil url) _

/-- The URL of a path without its query. -/
lemma buildUrl_query (baseUrl path : List Char) (params : Option (OrdMap String String))
    (record : OrdMap String QueryValue) :
    buildUrl baseUrl path { params, query := some record } =
      addQueryParameters (buildUrl baseUrl path { params }) record := rfl

lemma endsPath_buildUrl {baseUrl path : List Char} (hbase : ∀ c ∈ baseUrl, endsPath c = false)
    (hpath : ∀ c ∈ path, endsPath c = false) (params : Option (OrdMap String String)) :
    ∀ c ∈ buildUrl baseUrl path { params }, endsPath c = false := by
  have hurl : ∀ c ∈ (if baseUrl.getLast? = some '/' then baseUrl.dropLast else baseUrl) ++
      (if path.head? = some '/' then path else '/' :: path), endsPath c = false := by
    intro c hc
    rcases List.mem_append.mp hc with hc | hc
    · split at hc
      · exact hbase c ((List.dropLast_sublist _).subset hc)
      · exact hbase c hc
    · split at hc
      · exact hpath c hc
      · rcases List.mem_cons.mp hc with rfl | hc
        · rfl
        · exact hpath c hc
  cases params with
  | none => exact hurl
  | some params => exact endsPath_replacePathParameters hurl params

/-- The server collects the pairs that the client has sent. -/
lemma query_roundTrip {baseUrl path host : List Char} (hbase : ∀ c ∈ baseUrl, endsPath c = false)
    (hpath : ∀ c ∈ path, endsPath c = false) (hhost : ∀ c ∈ host, endsPath c = false)
    (encrypted : Bool) (params : Option (OrdMap String String))
    (record : OrdMap String QueryValue) :
    (parseRequestUrl encrypted host
      (requestTarget (buildUrl baseUrl path { params, query := some record }))).query =
        collectQuery (sentPairs record) := by
  obtain ⟨front, hfront, hquery⟩ :=
    query_parseRequestUrl encrypted hhost (requestTarget_ne_nil (buildUrl baseUrl path _))
  rw [hquery, buildUrl_query, query_requestTarget (endsPath_buildUrl hbase hpath params) hfront,
    parseForm_serializeForm]

/-- **A query record gets to the server exactly if it survives**: for every base URL and path
without a query of their own. -/
theorem sameQuery_iff_survives {baseUrl path host : List Char}
    (hbase : ∀ c ∈ baseUrl, endsPath c = false) (hpath : ∀ c ∈ path, endsPath c = false)
    (hhost : ∀ c ∈ host, endsPath c = false) (encrypted : Bool)
    (params : Option (OrdMap String String)) (record : OrdMap String QueryValue) :
    SameQuery (parseRequestUrl encrypted host
      (requestTarget (buildUrl baseUrl path { params, query := some record }))).query record ↔
        Survives record := by
  rw [query_roundTrip hbase hpath hhost]
  exact sameQuery_collectQuery_iff record

/-- A search for a phrase with separators in it. -/
def searchRecord : OrdMap String QueryValue :=
  ⟨[("q", .text "tea & crumpets = 50%"), ("straße", .text "a+b")], by decide⟩

theorem sameQuery_iff_survives_search :
    SameQuery (parseRequestUrl true "api.example.com".toList
      (requestTarget (buildUrl "https://api.example.com/".toList "/search".toList
        { query := some searchRecord }))).query searchRecord := by
  refine (sameQuery_iff_survives (by decide) (by decide) (by decide) true none searchRecord).mpr
    fun key value h => ?_
  have hmem := (OrdMap.mem_entries_iff _).mpr h
  simp only [searchRecord, List.mem_cons, List.not_mem_nil, or_false, Prod.mk.injEq] at hmem
  rcases hmem with ⟨rfl, rfl⟩ | ⟨rfl, rfl⟩ <;> exact ⟨⟨_, rfl⟩, by decide, by decide⟩

/-- A filter for two tags. -/
def tagsRecord : OrdMap String QueryValue := ⟨[("tags", .list ["red", "blue"])], by decide⟩

theorem not_sameQuery :
    ¬ ∀ (baseUrl path host : List Char) (record : OrdMap String QueryValue),
      (∀ c ∈ baseUrl ++ path ++ host, endsPath c = false) →
      (∀ key values, record.get key = some (.list values) → 2 ≤ values.length) →
        SameQuery (parseRequestUrl false host
          (requestTarget (buildUrl baseUrl path { query := some record }))).query record := by
  intro h
  have hsame := h "http://localhost".toList "/items".toList "localhost".toList tagsRecord
    (by decide) fun key values hvalues => ?_
  · rw [query_roundTrip (by decide) (by decide) (by decide), sameQuery_collectQuery_iff] at hsame
    obtain ⟨⟨text, htext⟩, -⟩ := hsame "tags" _ rfl
    cases htext
  · have hmem := (OrdMap.mem_entries_iff _).mpr hvalues
    simp only [tagsRecord, List.mem_singleton, Prod.mk.injEq, QueryValue.list.injEq] at hmem
    rw [hmem.2]
    decide

end Blaize.Client
