import Mathlib.Data.List.DropRight
import Blaize.Compression.Negotiate
import Blaize.Cors.Middleware
import Blaize.Lib.Search

/-!
The header `Vary`, which three functions write: `setCorsHeaders` and `setPreflightHeaders`
(`packages/blaize-core/src/middleware/cors/index.ts`, `preflight.ts`) put `Origin` in its place,
and `setCompressionHeaders` (`middleware/compression/src/compress.ts`) appends
`Accept-Encoding` when the text does not occur in it.

* `RawResponse`, `setCorsHeaders`, `setPreflightHeaders`, `setCompressionHeaders`: the code;
* `Action`, `run`: the writers in any order, until the head of the response goes out;
* `OnlyExtended`: what was listed stays, and what was to be added is there;
* `perform_of_open`: what one writer makes of `Vary`;
* `foldl_written`: what any number of them make of it;
* `onlyExtended_iff_harmless`: **`Vary` is only extended in the harmless runs**.
-/

namespace Blaize.Compression

open Server (HeaderValue)

/-! ### The raw response -/

/-- The headers under their names in lower case; a number is stored as its text. -/
structure RawResponse where
  headers : OrdMap String HeaderValue := ∅
  headersSent : Bool := false

namespace RawResponse

/-- `res.setHeader(name, value)` -/
def setHeader (res : RawResponse) (name : String) (value : HeaderValue) :
    Except String RawResponse :=
  if res.headersSent then .error "Cannot set headers after they are sent to the client"
  else .ok { res with headers := res.headers.set name.toLowerCase value }

/-- `res.removeHeader(name)` -/
def removeHeader (res : RawResponse) (name : String) : Except String RawResponse :=
  if res.headersSent then .error "Cannot remove headers after they are sent to the client"
  else .ok { res with headers := res.headers.delete name.toLowerCase }

/-- One header after the other. -/
def setHeaders : List (String × String) → RawResponse → Except String RawResponse
  | [], res => .ok res
  | (name, value) :: headers, res => do
      let res ← res.setHeader name (.single value)
      setHeaders headers res

/-- A header with several values is one text with commas. -/
def asString : HeaderValue → String
  | .single value => value
  | .many values => ", ".intercalate values

/-- The text of a header. -/
def getHeaderAsString (res : RawResponse) (name : String) : Option String :=
  (res.headers.get name.toLowerCase).map asString

/-- The text of a header, which is empty when there is none. -/
def text (res : RawResponse) (name : String) : String := (res.getHeaderAsString name).getD ""

end RawResponse

/-! ### The writers -/

variable {V : Type}

/-- The headers of the CORS middleware, unless the origin is refused. -/
def setCorsHeaders (options : Cors.CorsOptions) (origin : String) (originAllowed : Bool)
    (res : RawResponse) : Except String RawResponse :=
  if !originAllowed || origin = "" then .ok res
  else res.setHeaders (Cors.corsHeaders options origin)

/-- `setPreflightHeaders` for an origin that is allowed; `handlePreflight` refuses the others. -/
def setPreflightHeaders (options : Cors.CorsOptions) (request : Server.Request V)
    (origin : String) (res : RawResponse) : Except String RawResponse :=
  res.setHeaders (Cors.preflightHeaders options request origin)

/-- The weak form of an entity tag. -/
def weakenEtag (etag : String) : String :=
  if "W/".toList.isPrefixOf etag.toList then etag else "W/" ++ etag

/-- `toLowerCase` of a character of a header, which is one of Latin-1. -/
def lowerCase (c : Char) : Char :=
  if 'A' ≤ c ∧ c ≤ 'Z' ∨ 'À' ≤ c ∧ c ≤ 'Þ' ∧ c ≠ '×' then .ofNat (c.toNat + 32) else c

/-- `existingVary.toLowerCase().includes('accept-encoding')` -/
def mentions (existingVary : String) : Bool :=
  (Search.indexOf "accept-encoding".toList (existingVary.toList.map lowerCase)).isSome

/-- The ETag of `setCompressionHeaders`. -/
def setEtag (res : RawResponse) : Except String RawResponse :=
  if res.text "etag" = "" then .ok res
  else res.setHeader "ETag" (.single (weakenEtag (res.text "etag")))

/-- The `Vary` of `setCompressionHeaders`. -/
def setVary (res : RawResponse) : Except String RawResponse :=
  if res.text "vary" = "" then res.setHeader "Vary" (.single "Accept-Encoding")
  else if mentions (res.text "vary") then .ok res
  else res.setHeader "Vary" (.single (res.text "vary" ++ ", Accept-Encoding"))

/-- `setCompressionHeaders`, which reads the option `vary` of the configuration. -/
def setCompressionHeaders (algorithm : CompressionAlgorithm) (vary : Bool) (res : RawResponse) :
    Except String RawResponse := do
  let res ← res.setHeader "Content-Encoding" (.single algorithm.name)
  let res ← res.removeHeader "Content-Length"
  let res ← setEtag res
  if vary then setVary res else .ok res

/-! ### Runs -/

/-- What is done to a response.  The head goes out with the first piece of the body, which for
a buffered body is at once, for a stream and for an asynchronous compression later. -/
inductive Action (V : Type) where
  | cors (options : Cors.CorsOptions) (origin : String) (originAllowed : Bool)
  | preflight (options : Cors.CorsOptions) (request : Server.Request V) (origin : String)
  | compress (algorithm : CompressionAlgorithm) (vary : Bool)
  | sendHead

namespace Action

/-- What an action does to the response. -/
def perform : Action V → RawResponse → Except String RawResponse
  | cors options origin originAllowed => setCorsHeaders options origin originAllowed
  | preflight options request origin => setPreflightHeaders options request origin
  | compress algorithm vary => setCompressionHeaders algorithm vary
  | sendHead => fun res => .ok { res with headersSent := true }

/-- A specific origin is echoed. -/
def echoes : Action V → Bool
  | cors options origin originAllowed =>
      originAllowed && origin ≠ "" && !options.isWildcard
  | preflight options _ _ => !options.isWildcard
  | _ => false

/-- The body is compressed. -/
def compresses : Action V → Bool
  | compress _ _ => true
  | _ => false

/-- The body is compressed, and `Vary` is to say so. -/
def announces : Action V → Bool
  | compress _ vary => vary
  | _ => false

/-- Whether an action sends the head. -/
def sends : Action V → Bool
  | sendHead => true
  | _ => false

end Action

/-- The response after the actions, with those that went through; one that throws leaves the
response as it is. -/
def run : List (Action V) → RawResponse → RawResponse × List (Action V)
  | [], res => (res, [])
  | action :: actions, res =>
      match action.perform res with
      | .ok res => ((run actions res).1, action :: (run actions res).2)
      | .error _ => run actions res

/-! ### What `Vary` lists -/

/-- The field names that a value lists, in lower case. -/
def fieldNames (value : String) : List (List Char) :=
  ((value.toList.splitOn ',').map trimLower).filter (· ≠ [])

/-- The name that the CORS middleware asks for. -/
def originName : List Char := "origin".toList

/-- The name that the compression asks for. -/
def acceptEncodingName : List Char := "accept-encoding".toList

/-- The field names that `Vary` lists. -/
def listed (res : RawResponse) : List (List Char) := fieldNames (res.text "vary")

/-- What was listed is listed still, with `Origin` when an origin was echoed and
`Accept-Encoding` when the body was compressed. -/
structure OnlyExtended (res : RawResponse) (actions : List (Action V)) : Prop where
  kept : ∀ name ∈ listed res, name ∈ listed (run actions res).1
  origin : (∃ action ∈ (run actions res).2, action.echoes) →
    originName ∈ listed (run actions res).1
  acceptEncoding : (∃ action ∈ (run actions res).2, action.compresses) →
    acceptEncodingName ∈ listed (run actions res).1

/-- The actions before the head goes out. -/
def before (res : RawResponse) (actions : List (Action V)) : List (Action V) :=
  if res.headersSent then [] else actions.takeWhile fun action => !action.sends

/-- The actions after the last echo. -/
def afterEcho (actions : List (Action V)) : List (Action V) :=
  actions.rtakeWhile fun action => !action.echoes

/-- An echo finds no other name than `Origin`, or `Accept-Encoding` where a later compression
lists it again, and no compression is left without one that lists it; without an echo, a
compression lists `Accept-Encoding`, or finds it listed. -/
def Harmless (res : RawResponse) (actions : List (Action V)) : Prop :=
  if (before res actions).any Action.echoes then
    (∀ name ∈ listed res, name = originName ∨
      name = acceptEncodingName ∧ (afterEcho (before res actions)).any Action.announces) ∧
    ((before res actions).any Action.compresses →
      (afterEcho (before res actions)).any Action.announces)
  else
    (before res actions).any Action.compresses →
      acceptEncodingName ∈ listed res ∨
        (afterEcho (before res actions)).any Action.announces ∧ mentions (res.text "vary") = false

/-! ### One writer -/

/-- While the head is not out, `f` goes through, and makes `g` of the text of `Vary`. -/
def Writes (f : RawResponse → Except String RawResponse) (g : String → String) : Prop :=
  ∀ res : RawResponse, res.headersSent = false →
    ∃ res', f res = .ok res' ∧ res'.headersSent = false ∧ res'.text "vary" = g (res.text "vary")

namespace Writes

variable {f f' : RawResponse → Except String RawResponse} {g g' : String → String}

protected lemma pure : Writes .ok id := fun res hres => ⟨res, rfl, hres, rfl⟩

lemma bind (h : Writes f g) (h' : Writes f' g') :
    Writes (fun res => f res >>= f') fun vary => g' (g vary) := by
  intro res hres
  obtain ⟨res₁, hf, hres₁, htext₁⟩ := h res hres
  obtain ⟨res₂, hf', hres₂, htext₂⟩ := h' res₁ hres₁
  refine ⟨res₂, ?_, hres₂, by rw [htext₂, htext₁]⟩
  change f res >>= f' = _
  rw [hf]
  exact hf'

lemma ite {c : Bool} (h : Writes f g) (h' : Writes f' g') :
    Writes (fun res => if c then f res else f' res) fun vary => if c then g vary else g' vary := by
  cases c with
  | false => exact h'
  | true => exact h

end Writes

namespace RawResponse

lemma text_vary (res : RawResponse) :
    res.text "vary" = ((res.headers.get "vary").map asString).getD "" := by
  rw [text, getHeaderAsString, show "vary".toLowerCase = "vary" by decide]

lemma writes_setHeader {name : String} (hname : name.toLowerCase ≠ "vary") (value : HeaderValue) :
    Writes (fun res => res.setHeader name value) id := by
  intro res hres
  refine ⟨_, if_neg (by simp [hres]), hres, ?_⟩
  rw [text_vary, text_vary, OrdMap.get_set_ne _ _ hname]
  rfl

lemma writes_setVary (value : String) :
    Writes (fun res => res.setHeader "Vary" (.single value)) fun _ => value := by
  intro res hres
  refine ⟨_, if_neg (by simp [hres]), hres, ?_⟩
  rw [text_vary, show "Vary".toLowerCase = "vary" by decide, OrdMap.get_set_self]
  rfl

lemma writes_removeHeader {name : String} (hname : name.toLowerCase ≠ "vary") :
    Writes (fun res => res.removeHeader name) id := by
  intro res hres
  refine ⟨_, if_neg (by simp [hres]), hres, ?_⟩
  rw [text_vary, text_vary, OrdMap.get_delete_ne _ hname]
  rfl

lemma writes_setHeaders {headers : List (String × String)}
    (hheaders : ∀ header ∈ headers, header.1.toLowerCase ≠ "vary") :
    Writes (setHeaders headers) id := by
  induction headers with
  | nil => exact .pure
  | cons header headers ih =>
      rw [List.forall_mem_cons] at hheaders
      exact (writes_setHeader hheaders.1 _).bind (ih hheaders.2)

lemma setHeaders_append (headers headers' : List (String × String)) (res : RawResponse) :
    setHeaders (headers ++ headers') res = setHeaders headers res >>= setHeaders headers' := by
  induction headers generalizing res with
  | nil => rfl
  | cons header headers ih =>
      rw [List.cons_append, setHeaders, setHeaders, bind_assoc]
      exact bind_congr ih

end RawResponse

open RawResponse

lemma writes_originHeaders (options : Cors.CorsOptions) (origin : String) :
    Writes (setHeaders (Cors.originHeaders options origin)) fun vary =>
      if options.isWildcard then vary else "Origin" := by
  rw [Cors.originHeaders]
  cases options.isWildcard with
  | true =>
      exact writes_setHeaders (List.forall_mem_singleton.mpr (by decide))
  | false =>
      exact (writes_setHeader (by decide) _).bind ((writes_setVary _).bind .pure)

lemma forall_mem_credentialsHeaders (options : Cors.CorsOptions) :
    ∀ header ∈ Cors.credentialsHeaders options, header.1.toLowerCase ≠ "vary" := by
  rw [Cors.credentialsHeaders]
  split
  · exact List.forall_mem_singleton.mpr (by decide)
  · exact List.forall_mem_nil _

lemma forall_mem_map {α : Type} (name : String) (hname : name.toLowerCase ≠ "vary")
    (values : List α) (value : α → String) :
    ∀ header ∈ values.map fun a => (name, value a), header.1.toLowerCase ≠ "vary" := by
  intro header hheader
  obtain ⟨a, -, rfl⟩ := List.mem_map.mp hheader
  exact hname

lemma writes_corsHeaders (options : Cors.CorsOptions) (origin : String) :
    Writes (setHeaders (Cors.corsHeaders options origin)) fun vary =>
      if options.isWildcard then vary else "Origin" := by
  have hrest : Writes (setHeaders (Cors.credentialsHeaders options ++
      (Cors.truthy options.exposedHeaders).toList.map fun names =>
        ("Access-Control-Expose-Headers", names.joined))) id :=
    writes_setHeaders (List.forall_mem_append.mpr
      ⟨forall_mem_credentialsHeaders options,
        forall_mem_map "Access-Control-Expose-Headers" (by decide) _ _⟩)
  rw [Cors.corsHeaders, List.append_assoc, funext (setHeaders_append _ _)]
  exact (writes_originHeaders options origin).bind hrest

lemma writes_preflightHeaders (options : Cors.CorsOptions) (request : Server.Request V)
    (origin : String) :
    Writes (setHeaders (Cors.preflightHeaders options request origin)) fun vary =>
      if options.isWildcard then vary else "Origin" := by
  rw [Cors.preflightHeaders, List.append_assoc, List.append_assoc, List.append_assoc,
    funext (setHeaders_append _ _)]
  refine (writes_originHeaders options origin).bind (writes_setHeaders ?_)
  simp only [List.forall_mem_append]
  exact ⟨forall_mem_credentialsHeaders options,
    List.forall_mem_singleton.mpr
      (show "Access-Control-Allow-Methods".toLowerCase ≠ "vary" by decide),
    forall_mem_map "Access-Control-Allow-Headers" (by decide) _ _,
    forall_mem_map "Access-Control-Max-Age" (by decide) _ _⟩

/-- What a compression makes of `Vary`. -/
def announced (vary : String) : String :=
  if vary = "" then "Accept-Encoding"
  else if mentions vary then vary
  else vary ++ ", Accept-Encoding"

lemma writes_setEtag : Writes setEtag id := by
  intro res hres
  rw [setEtag]
  split
  · exact ⟨res, rfl, hres, rfl⟩
  · exact writes_setHeader (by decide) _ res hres

lemma writes_setVary_announced : Writes setVary announced := by
  intro res hres
  rw [setVary, announced]
  split
  · exact writes_setVary _ res hres
  · split
    · exact ⟨res, rfl, hres, rfl⟩
    · exact writes_setVary _ res hres

lemma writes_setCompressionHeaders (algorithm : CompressionAlgorithm) (vary : Bool) :
    Writes (setCompressionHeaders algorithm vary) fun text =>
      if vary then announced text else text :=
  (writes_setHeader (by decide) _).bind ((writes_removeHeader (by decide)).bind
    (writes_setEtag.bind (writes_setVary_announced.ite .pure)))

/-- What an action makes of `Vary`. -/
def Action.written (action : Action V) (vary : String) : String :=
  if action.echoes then "Origin" else if action.announces then announced vary else vary

/-- **One writer**: what an action makes of `Vary` while the head is not out. -/
lemma Action.perform_of_open (action : Action V) {res : RawResponse}
    (hres : res.headersSent = false) :
    ∃ res', action.perform res = .ok res' ∧ res'.headersSent = action.sends ∧
      res'.text "vary" = action.written (res.text "vary") := by
  cases action with
  | cors options origin originAllowed =>
      rw [perform, setCorsHeaders]
      split
      next hskip =>
          have hechoes : (cors options origin originAllowed : Action V).echoes = false := by
            rw [echoes]
            cases originAllowed with
            | false => rfl
            | true => simpa using fun horigin => absurd hskip (by simpa using horigin)
          exact ⟨res, rfl, hres, by rw [written, hechoes]; rfl⟩
      next hset =>
          have hechoes : (cors options origin originAllowed : Action V).echoes =
              !options.isWildcard := by simp_all [echoes]
          obtain ⟨res', hok, hres', htext⟩ := writes_corsHeaders options origin res hres
          refine ⟨res', hok, hres', ?_⟩
          rw [htext, written, hechoes]
          cases options.isWildcard <;> rfl
  | preflight options request origin =>
      obtain ⟨res', hok, hres', htext⟩ := writes_preflightHeaders options request origin res hres
      refine ⟨res', hok, hres', ?_⟩
      rw [htext, written, echoes]
      cases options.isWildcard <;> rfl
  | compress algorithm vary => exact writes_setCompressionHeaders algorithm vary res hres
  | sendHead => exact ⟨_, rfl, rfl, rfl⟩

/-! ### Any number of writers -/

lemma mentions_iff {vary : String} :
    mentions vary = true ↔ "accept-encoding".toList <:+: vary.toList.map lowerCase := by
  have habsent : Search.indexOf "accept-encoding".toList (vary.toList.map lowerCase) = none ↔
      ¬ "accept-encoding".toList <:+: vary.toList.map lowerCase :=
    Search.indexOf_eq_none_iff_absent (by decide)
  rw [mentions, Option.isSome_iff_ne_none, ne_eq, habsent, not_not]

lemma mentions_append (vary : String) : mentions (vary ++ ", Accept-Encoding") = true := by
  rw [mentions_iff, String.toList_append, List.map_append]
  have hpart : "accept-encoding".toList <:+: ", Accept-Encoding".toList.map lowerCase := by decide
  exact hpart.trans (List.suffix_append _ _).isInfix

lemma mentions_announced (vary : String) : mentions (announced vary) = true := by
  rw [announced]
  split
  · decide
  · split
    next hmentions => exact hmentions
    next => exact mentions_append vary

lemma announced_of_mentions {vary : String} (hmentions : mentions vary = true) :
    announced vary = vary := by
  have hne : vary ≠ "" := by
    rintro rfl
    exact absurd hmentions (by decide)
  rw [announced, if_neg hne, if_pos hmentions]

lemma fieldNames_append (vary : String) :
    fieldNames (vary ++ ", Accept-Encoding") = fieldNames vary ++ [acceptEncodingName] := by
  have hsuffix : ", Accept-Encoding".toList = ',' :: " Accept-Encoding".toList := by decide
  rw [fieldNames, String.toList_append, hsuffix, List.splitOn_append_cons_self, List.map_append,
    List.filter_append, ← fieldNames]
  exact congrArg _ (by decide)

/-- A compression lists what was listed, and `Accept-Encoding` unless the text occurs. -/
lemma mem_fieldNames_announced {vary : String} {name : List Char} :
    name ∈ fieldNames (announced vary) ↔
      name ∈ fieldNames vary ∨ mentions vary = false ∧ name = acceptEncodingName := by
  cases hmentions : mentions vary with
  | true => simp [announced_of_mentions hmentions]
  | false =>
      rw [announced]
      split
      next hempty =>
          have hnone : fieldNames vary = [] := by
            rw [hempty]
            decide
          have hone : fieldNames "Accept-Encoding" = [acceptEncodingName] := by decide
          simp [hnone, hone]
      next => simp [hmentions, fieldNames_append]

lemma afterEcho_concat (actions : List (Action V)) (action : Action V) :
    afterEcho (actions ++ [action]) =
      if action.echoes then [] else afterEcho actions ++ [action] := by
  rw [afterEcho, List.rtakeWhile_concat, ← afterEcho]
  cases action.echoes <;> rfl

/-- **Any number of writers**: the last echo, and a compression after it that announces itself,
make what `Vary` is in the end. -/
lemma foldl_written (actions : List (Action V)) (vary : String) :
    actions.foldl (fun vary action => action.written vary) vary =
      if (afterEcho actions).any Action.announces
      then announced (if actions.any Action.echoes then "Origin" else vary)
      else if actions.any Action.echoes then "Origin" else vary := by
  induction actions using List.reverseRecOn with
  | nil => rfl
  | append_singleton actions action ih =>
      rw [List.foldl_concat, ih, Action.written, afterEcho_concat, List.any_append]
      cases hechoes : action.echoes with
      | true => simp [hechoes]
      | false =>
          simp only [hechoes, if_false, Bool.false_eq_true, List.any_append, List.any_cons,
            List.any_nil, Bool.or_false]
          cases action.announces with
          | false => simp
          | true =>
              cases (afterEcho actions).any Action.announces with
              | false => simp
              | true => simp [announced_of_mentions (mentions_announced _)]

/-! ### Runs of writers -/

lemma setHeaders_of_sent {res : RawResponse} (hres : res.headersSent = true)
    {headers : List (String × String)} (hheaders : headers ≠ []) (res' : RawResponse) :
    setHeaders headers res ≠ .ok res' := by
  obtain ⟨header, headers, rfl⟩ := List.exists_cons_of_ne_nil hheaders
  rw [setHeaders, setHeader, if_pos hres]
  rintro ⟨⟩

/-- Once the head is out, what goes through writes nothing. -/
lemma Action.perform_of_sent {action : Action V} {res res' : RawResponse}
    (hres : res.headersSent = true) (hok : action.perform res = .ok res') :
    res' = res ∧ action.echoes = false ∧ action.compresses = false := by
  have hne : ∀ (options : Cors.CorsOptions) (origin : String) (rest : List (String × String)),
      Cors.originHeaders options origin ++ rest ≠ [] := by
    intro options origin rest
    rw [Cors.originHeaders]
    split <;> exact List.cons_ne_nil _ _
  cases action with
  | cors options origin originAllowed =>
      rw [perform, setCorsHeaders] at hok
      split at hok
      next hskip =>
          refine ⟨(Except.ok.inj hok).symm, ?_, rfl⟩
          rw [echoes]
          cases originAllowed with
          | false => rfl
          | true => simpa using fun horigin => absurd hskip (by simpa using horigin)
      next =>
          rw [Cors.corsHeaders, List.append_assoc] at hok
          exact absurd hok (setHeaders_of_sent hres (hne _ _ _) _)
  | preflight options request origin =>
      rw [perform, setPreflightHeaders, Cors.preflightHeaders] at hok
      simp only [List.append_assoc] at hok
      exact absurd hok (setHeaders_of_sent hres (hne _ _ _) _)
  | compress algorithm vary =>
      rw [perform, setCompressionHeaders, setHeader, if_pos hres] at hok
      cases hok
  | sendHead =>
      refine ⟨?_, rfl, rfl⟩
      rw [← Except.ok.inj hok, ← hres]

lemma run_of_sent (actions : List (Action V)) {res : RawResponse}
    (hres : res.headersSent = true) :
    (run actions res).1 = res ∧
      ∀ action ∈ (run actions res).2, action.echoes = false ∧ action.compresses = false := by
  induction actions with
  | nil => exact ⟨rfl, List.forall_mem_nil _⟩
  | cons action actions ih =>
      rw [run]
      split
      next res' hok =>
          obtain ⟨rfl, hquiet⟩ := Action.perform_of_sent hres hok
          exact ⟨ih.1, List.forall_mem_cons.mpr ⟨hquiet, ih.2⟩⟩
      next => exact ih

lemma run_of_open (actions : List (Action V)) {res : RawResponse}
    (hres : res.headersSent = false) :
    (run actions res).1.text "vary" =
        (actions.takeWhile fun action => !action.sends).foldl
          (fun vary action => action.written vary) (res.text "vary") ∧
      ∃ later, (run actions res).2 = actions.takeWhile (fun action => !action.sends) ++ later ∧
        ∀ action ∈ later, action.echoes = false ∧ action.compresses = false := by
  induction actions generalizing res with
  | nil => exact ⟨rfl, [], rfl, List.forall_mem_nil _⟩
  | cons action actions ih =>
      obtain ⟨res', hok, hres', htext⟩ := action.perform_of_open hres
      rw [run, hok]
      cases hsends : action.sends with
      | true =>
          -- the head goes out; what follows writes nothing
          obtain ⟨hrun, hquiet⟩ := run_of_sent actions (hres'.trans hsends)
          have haction : action = .sendHead := by
            cases action <;> first | rfl | cases hsends
          rw [List.takeWhile_cons_of_neg (by simp [hsends]), hrun, htext]
          subst haction
          exact ⟨rfl, _, rfl, List.forall_mem_cons.mpr ⟨⟨rfl, rfl⟩, hquiet⟩⟩
      | false =>
          obtain ⟨hrun, later, hdone, hquiet⟩ := ih (hres'.trans hsends)
          rw [List.takeWhile_cons_of_pos (by simp [hsends]), hrun, htext]
          exact ⟨rfl, later, congrArg (action :: ·) hdone, hquiet⟩

/-- **Runs of writers**: `Vary` in the end, and what went through. -/
lemma run_spec (actions : List (Action V)) (res : RawResponse) :
    (run actions res).1.text "vary" =
        (before res actions).foldl (fun vary action => action.written vary) (res.text "vary") ∧
      ∃ later, (run actions res).2 = before res actions ++ later ∧
        ∀ action ∈ later, action.echoes = false ∧ action.compresses = false := by
  rw [before]
  split
  next hres =>
      obtain ⟨hrun, hquiet⟩ := run_of_sent actions hres
      exact ⟨congrArg (text · "vary") hrun, _, rfl, hquiet⟩
  next hres => exact run_of_open actions (Bool.eq_false_iff.mpr hres)

lemma exists_mem_run_iff (actions : List (Action V)) (res : RawResponse) {p : Action V → Bool}
    (hp : ∀ action, action.echoes = false ∧ action.compresses = false → p action = false) :
    (∃ action ∈ (run actions res).2, p action) ↔ (before res actions).any p := by
  obtain ⟨-, later, hdone, hquiet⟩ := run_spec actions res
  rw [hdone, ← List.any_eq_true, List.any_append, Bool.or_eq_true, or_iff_left]
  rw [List.any_eq_true]
  rintro ⟨action, haction, h⟩
  rw [hp action (hquiet action haction)] at h
  cases h

lemma onlyExtended_iff (res : RawResponse) (actions : List (Action V)) :
    OnlyExtended res actions ↔
      (∀ name ∈ listed res, name ∈ listed (run actions res).1) ∧
      ((before res actions).any Action.echoes → originName ∈ listed (run actions res).1) ∧
      ((before res actions).any Action.compresses →
        acceptEncodingName ∈ listed (run actions res).1) := by
  rw [← exists_mem_run_iff actions res fun _ h => h.1,
    ← exists_mem_run_iff actions res fun _ h => h.2]
  exact ⟨fun h => ⟨h.kept, h.origin, h.acceptEncoding⟩, fun h => ⟨h.1, h.2.1, h.2.2⟩⟩

/-- **`Vary` is only extended in the harmless runs.** -/
theorem onlyExtended_iff_harmless (res : RawResponse) (actions : List (Action V)) :
    OnlyExtended res actions ↔ Harmless res actions := by
  have hvary := (run_spec actions res).1
  rw [foldl_written] at hvary
  rw [onlyExtended_iff, Harmless, listed, listed, hvary]
  have horigin : fieldNames "Origin" = [originName] := by decide
  have hmentions : mentions "Origin" = false := by decide
  have hne : originName ≠ acceptEncodingName := by decide
  generalize (afterEcho (before res actions)).any Action.announces = announces
  cases (before res actions).any Action.echoes with
  | true =>
      cases announces with
      | true => simp [mem_fieldNames_announced, horigin, hmentions]
      | false => simp [horigin, hne.symm]
  | false =>
      cases announces with
      | true => simp +contextual [mem_fieldNames_announced]
      | false => simp

/-- A session's `Vary: Cookie` before an ordinary request with an allowed origin: the answer
lists `Origin` only. -/
theorem not_onlyExtended_cookie :
    ¬ OnlyExtended (V := ℕ) ⟨OrdMap.set ∅ "vary" (.single "Cookie"), false⟩
      [.cors { origin := some (.single (.text "https://app.example.com")) }
        "https://app.example.com" true, .sendHead] :=
  fun h => absurd (h.kept "cookie".toList (by decide)) (by decide)

end Blaize.Compression
