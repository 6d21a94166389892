import Blaize.Lib.OrdMap
import Blaize.Lib.Url

/-!
The URLs of the client (`packages/blaize-client/src/url.ts`).

A text is a list of characters.  A query record has texts and lists of texts.

* `buildUrl`: the URL of a path with its parameters and its query;
* `replacePathParameters`: each parameter replaces the first occurrence of its name;
* `addQueryParameters`: the query as a form;
* `requestTarget`: what is sent of a URL.
-/

namespace Blaize.Client

open Js Js.Url

/-- A value of a query record. -/
inductive QueryValue where
  | text (value : String)
  | list (values : List String)
  deriving DecidableEq, Repr

/-- `String(value)`. -/
def QueryValue.toString : QueryValue → String
  | text value => value
  | list values => ",".intercalate values

/-- The arguments of a request that are read here. -/
structure InternalRequestArgs where
  params : Option (OrdMap String String) := none
  query : Option (OrdMap String QueryValue) := none

/-- The bytes that `encodeURIComponent` leaves. -/
def uriStays (b : UInt8) : Bool :=
  isAlphanumericByte b || [0x2D, 0x5F, 0x2E, 0x21, 0x7E, 0x2A, 0x27, 0x28, 0x29].contains b

/-- `encodeURIComponent(value)` -/
def encodeURIComponent (value : String) : List Char := percentEncode uriStays value

/-- `text.replace(needle, replacement)`, for a replacement without a dollar sign. -/
def replaceFirst (needle replacement : List Char) : List Char → List Char
  | [] => if needle = [] then replacement else []
  | c :: text =>
      if needle.isPrefixOf (c :: text) then replacement ++ (c :: text).drop needle.length
      else c :: replaceFirst needle replacement text

/-- Replaces the first place of each parameter. -/
def replacePathParameters (url : List Char) (params : OrdMap String String) : List Char :=
  params.entries.foldl
    (fun result p => replaceFirst (':' :: p.1.toList) (encodeURIComponent p.2) result) url

/-- Adds the query, if there is any. -/
def addQueryParameters (url : List Char) (query : OrdMap String QueryValue) : List Char :=
  let queryString := serializeForm (query.entries.map fun p => (p.1, p.2.toString))
  if queryString = [] then url else url ++ '?' :: queryString

/-- The URL of a request. -/
def buildUrl (baseUrl path : List Char) (args : InternalRequestArgs) : List Char :=
  let normalizedBaseUrl := if baseUrl.getLast? = some '/' then baseUrl.dropLast else baseUrl
  let normalizedPath := if path.head? = some '/' then path else '/' :: path
  let url := normalizedBaseUrl ++ normalizedPath
  let url := match args.params with
    | some params => replacePathParameters url params
    | none => url
  match args.query with
  | some query => addQueryParameters url query
  | none => url

/-- The request target of a URL. -/
def requestTarget (url : List Char) : List Char :=
  if query url = [] then pathname url else pathname url ++ '?' :: query url

/-! ### The characters of a URL -/

lemma uriStays_ascii (b : UInt8) (h : uriStays b = true) :
    b.toNat < 0x80 ∧ ((Char.ofNat b.toNat).isAlphanum = true ∨
      Char.ofNat b.toNat ∈ "-_.!~*'()".toList) := by
  have hall : ∀ n < 256, uriStays (UInt8.ofNat n) = true → (UInt8.ofNat n).toNat < 0x80 ∧
      ((Char.ofNat (UInt8.ofNat n).toNat).isAlphanum = true ∨
        Char.ofNat (UInt8.ofNat n).toNat ∈ "-_.!~*'()".toList) := by decide +kernel
  have hb := hall b.toNat b.toNat_lt
  rw [UInt8.ofNat_toNat] at hb
  exact hb h

/-- The characters of an encoded value. -/
lemma mem_encodeURIComponent {value : String} {c : Char} (h : c ∈ encodeURIComponent value) :
    c.isAlphanum = true ∨ c ∈ "-_.!~*'()%".toList := by
  obtain ⟨b, -, hc⟩ := List.mem_flatMap.mp h
  rcases mem_encodeByte hc with ⟨hstays, rfl⟩ | rfl | hhex
  · refine (uriStays_ascii b hstays).2.imp_right fun hsign => ?_
    exact (by decide : "-_.!~*'()".toList ⊆ "-_.!~*'()%".toList) hsign
  · exact .inr (by decide)
  · have hall : ∀ c ∈ "0123456789ABCDEF".toList, c.isAlphanum = true := by decide
    exact .inl (hall c hhex)

lemma mem_of_mem_replaceFirst {needle replacement text : List Char} {c : Char}
    (h : c ∈ replaceFirst needle replacement text) : c ∈ replacement ∨ c ∈ text := by
  induction text with
  | nil =>
      rw [replaceFirst] at h
      split at h
      · exact .inl h
      · cases h
  | cons d text ih =>
      rw [replaceFirst] at h
      split at h
      · exact (List.mem_append.mp h).imp_right fun h => List.mem_of_mem_drop h
      · rcases List.mem_cons.mp h with rfl | h
        · exact .inr List.mem_cons_self
        · exact (ih h).imp_right (List.mem_cons_of_mem d)

/-- The parameters put no end into a path. -/
lemma endsPath_replacePathParameters {url : List Char} (h : ∀ c ∈ url, endsPath c = false)
    (params : OrdMap String String) :
    ∀ c ∈ replacePathParameters url params, endsPath c = false := by
  unfold replacePathParameters
  induction params.entries generalizing url with
  | nil => exact h
  | cons p entries ih =>
      refine ih fun c hc => ?_
      rcases mem_of_mem_replaceFirst hc with hc | hc
      · rcases mem_encodeURIComponent hc with halpha | hsign
        · by_contra hends
          have hends : endsPath c = true := by simpa using hends
          rcases (Bool.or_eq_true _ _).mp hends with he | he <;>
          · obtain rfl := of_decide_eq_true he
            cases halpha
        · have hall : ∀ c ∈ "-_.!~*'()%".toList, endsPath c = false := by decide
          exact hall c hsign
      · exact h c hc

end Blaize.Client
