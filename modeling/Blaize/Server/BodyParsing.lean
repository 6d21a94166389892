import Blaize.Lib.Json
import Blaize.Server.Grouping
import Blaize.Upload.Parser

/-!
The body of a request (`packages/blaize-core/src/context/create.ts`).

A request comes with its `Content-Length`, which Node has read as a number, or in chunks of its
own, and with the chunks that its stream delivers.  What `JSON.parse` says of a malformed text is
a parameter.

* `parseBodyIfNeeded`: what becomes of the body, by the kind of its content type;
* `declared`, `chunked`: one body in both framings;
* `FramingBlind`: the framings have one outcome, and nothing longer than its limit is stored;
* `body_ne_undefined`: **a body of a known kind is stored or refused**;
* `framingBlind_iff`: **the framing makes no difference only where nothing is stored**.
-/

namespace Blaize.Server

open Js Blaize.Upload

/-! ### Data -/

/-- The limits of multipart bodies, with their defaults. -/
structure MultipartLimits where
  maxFileSize : ℕ := 50 * 1024 * 1024
  maxTotalSize : ℕ := 100 * 1024 * 1024
  maxFiles : ℕ := 10
  maxFieldSize : ℕ := 1024 * 1024

/-- The limits of bodies, with their defaults. -/
structure BodyLimits where
  json : ℕ := 512 * 1024
  form : ℕ := 1024 * 1024
  text : ℕ := 5 * 1024 * 1024
  raw : ℕ := 10 * 1024 * 1024
  multipart : MultipartLimits := {}

/-- What of a request its body is read from; `none` stands for a header that is not there. -/
structure BodyRequest where
  method : Option String
  contentType : Option String
  contentLength : Option ℕ
  chunks : List Bytes

/-- `ctx.request.body` -/
inductive RequestBody where
  | undefined
  | json (value : Json)
  | form (formData : QueryParams)
  | text (text : String)
  | fields (fields : List (String × List String))

/-- What the parsing writes into `ctx.request`; `files` are those of `multipart`. -/
structure ParsedRequest where
  body : RequestBody := .undefined
  multipart : Option (MultipartData × Storage) := none

/-- What the parsing throws. -/
inductive BodyError where
  | payloadTooLarge (title : String) (currentSize maxSize : ℕ) (contentType : String)
  | validation (title : String) (messages : List String)
  /-- An error of the multipart parser that is thrown on. -/
  | upload (error : UploadError)
  | unsupportedMediaType (title : String) (receivedContentType : Option String)

/-! ### Parsing -/

/-- `text.includes(part)` -/
def includes (text part : String) : Bool := (Search.indexOf part.toList text.toList).isSome

/-- Whether a content type names a multipart body. -/
def isMultipartContent (contentType : String) : Bool :=
  (search (matchLiteral "multipart/form-data".toList) contentType.toList).isSome

/-- The methods whose bodies are not read. -/
def shouldSkipParsing (method : Option String) : Bool :=
  (["GET", "HEAD", "OPTIONS"]).contains (method.getD "GET")

namespace BodyRequest

variable (req : BodyRequest)

/-- `readRequestBody` -/
def readRequestBody : String := utf8Decode req.chunks.flatten

/-- A body of JSON; an empty one is none. -/
def parseJsonBody (parseError : String → String) : Except BodyError ParsedRequest :=
  let body := req.readRequestBody
  if body = "" then .ok {}
  else if trim body.toList = "null".toList then .ok { body := .json .null }
  else
    match Json.parse body with
    | some json => .ok { body := .json json }
    | none => .error (.validation "Invalid JSON in request body"
        ["Request body contains malformed JSON", parseError body])

/-- Nothing is thrown inside its `try`. -/
def parseFormUrlEncodedBody : ParsedRequest :=
  let body := req.readRequestBody
  if body = "" then {} else { body := .form (parseUrlEncodedData body.toList) }

/-- A body of text. -/
def parseTextBody : ParsedRequest :=
  let body := req.readRequestBody
  if body = "" then {} else { body := .text body }

/-- Whether an error of the multipart parser is thrown on: one of size or of media type. -/
def isTyped : UploadError → Bool
  | .validation _ => false
  | _ => true

/-- A multipart body, kept as streams. -/
def parseMultipartBody (multipartLimits : MultipartLimits) : Except BodyError ParsedRequest :=
  let options : ParseOptions :=
    { strategy := .stream
      maxFileSize := multipartLimits.maxFileSize
      maxFiles := multipartLimits.maxFiles
      maxFieldSize := multipartLimits.maxFieldSize }
  match parseMultipartRequest (req.contentType.getD "") req.chunks options with
  | .ok (data, storage) => .ok { body := .fields data.fields, multipart := some (data, storage) }
  | .error error =>
      if isTyped error then .error (.upload error)
      else .error
        (.unsupportedMediaType "Failed to parse multipart/form-data" req.contentType)

/-- The kinds of content types, in the order in which they are tried. -/
inductive Kind where
  | json
  | form
  | text
  | multipart
  | other
  deriving DecidableEq

/-- The kind of a body, by its content type. -/
def kind : Kind :=
  let contentType := req.contentType.getD ""
  if includes contentType "application/json" then .json
  else if includes contentType "application/x-www-form-urlencoded" then .form
  else if includes contentType "text/" then .text
  else if isMultipartContent contentType then .multipart
  else .other

/-- The body of a request, if there is one to be read. -/
def parseBodyIfNeeded (parseError : String → String) (limits : BodyLimits) :
    Except BodyError ParsedRequest :=
  let contentType := req.contentType.getD ""
  let contentLength := req.contentLength.getD 0
  if shouldSkipParsing req.method then .ok {}
  else if contentLength = 0 then .ok {}
  else
    match req.kind with
    | .json =>
        if limits.json < contentLength then .error (.payloadTooLarge
          "JSON body exceeds size limit" contentLength limits.json "application/json")
        else req.parseJsonBody parseError
    | .form =>
        if limits.form < contentLength then .error (.payloadTooLarge
          "Form body exceeds size limit" contentLength limits.form
            "application/x-www-form-urlencoded")
        else .ok req.parseFormUrlEncodedBody
    | .text =>
        if limits.text < contentLength then .error (.payloadTooLarge
          "Text body exceeds size limit" contentLength limits.text contentType)
        else .ok req.parseTextBody
    | .multipart => req.parseMultipartBody limits.multipart
    | .other =>
        if limits.raw < contentLength then .error (.payloadTooLarge
          "Request body exceeds size limit" contentLength limits.raw
            (if contentType = "" then "unknown" else contentType))
        else .ok {}

end BodyRequest

/-! ### Framings -/

/-- The request with the length of its body. -/
def declared (method contentType : Option String) (chunks : List Bytes) : BodyRequest :=
  { method, contentType, contentLength := some chunks.flatten.length, chunks }

/-- The request in chunked transfer encoding. -/
def chunked (method contentType : Option String) (chunks : List Bytes) : BodyRequest :=
  { method, contentType, contentLength := none, chunks }

/-- The limit for a kind. -/
def BodyLimits.of (limits : BodyLimits) : BodyRequest.Kind → ℕ
  | .json => limits.json
  | .form => limits.form
  | .text => limits.text
  | .multipart => limits.multipart.maxTotalSize
  | .other => limits.raw

/-- A `PayloadTooLargeError`. -/
def BodyError.isPayloadTooLarge : BodyError → Bool
  | payloadTooLarge _ _ _ _ => true
  | upload (.tooManyFiles _ _ _) => true
  | upload (.sizeExceedsLimit _ _ _ _ _) => true
  | _ => false

/-- The same body, or too large both times. -/
def SameOutcome : Except BodyError ParsedRequest → Except BodyError ParsedRequest → Prop
  | .ok parsed, .ok parsed' => parsed.body = parsed'.body
  | .error error, .error error' => error.isPayloadTooLarge ∧ error'.isPayloadTooLarge
  | _, _ => False

/-- Two requests with one body have one outcome, and no body beyond its limit is stored. -/
structure FramingBlind (parseError : String → String) (limits : BodyLimits)
    (req req' : BodyRequest) : Prop where
  sameOutcome : SameOutcome (req.parseBodyIfNeeded parseError limits)
    (req'.parseBodyIfNeeded parseError limits)
  withinLimit : ∀ r, r = req ∨ r = req' → ∀ parsed, r.parseBodyIfNeeded parseError limits =
    .ok parsed → parsed.body ≠ .undefined → r.chunks.flatten.length ≤ limits.of r.kind

/-! ### What is stored -/

lemma decodeFrom_ne_nil (p : Option Js.Pending) {bytes : Bytes} (h : p.isSome ∨ bytes ≠ []) :
    decodeFrom p bytes ≠ [] := by
  induction bytes generalizing p with
  | nil =>
      cases p with
      | none => exact absurd rfl (h.resolve_left nofun)
      | some p => exact List.cons_ne_nil _ _
  | cons b bytes ih =>
      cases p with
      | none =>
          rw [decodeFrom]
          split
          · exact List.cons_ne_nil _ _
          · exact ih _ (.inl rfl)
      | some p =>
          rw [decodeFrom]
          split
          · split
            · exact List.cons_ne_nil _ _
            · exact ih _ (.inl rfl)
          · split <;> exact List.cons_ne_nil _ _

/-- Some bytes are some text. -/
lemma BodyRequest.readRequestBody_ne {req : BodyRequest} (h : req.chunks.flatten ≠ []) :
    req.readRequestBody ≠ "" := by
  intro hempty
  have hlist := congrArg String.toList hempty
  rw [readRequestBody, utf8Decode, String.toList_ofList] at hlist
  exact decodeFrom_ne_nil none (.inr h) hlist

variable {parseError : String → String} {limits : BodyLimits} {req : BodyRequest}

/-- **A body of a known kind is stored or refused.** -/
theorem body_ne_undefined (hskip : shouldSkipParsing req.method = false)
    (hlength : req.contentLength.getD 0 ≠ 0) (hne : req.chunks.flatten ≠ [])
    (hkind : req.kind ≠ .other) {parsed : ParsedRequest}
    (h : req.parseBodyIfNeeded parseError limits = .ok parsed) : parsed.body ≠ .undefined := by
  have hbody := BodyRequest.readRequestBody_ne hne
  rw [BodyRequest.parseBodyIfNeeded, if_neg (by simp [hskip]), if_neg hlength] at h
  split at h
  next =>
    split at h
    · cases h
    · rw [BodyRequest.parseJsonBody, if_neg hbody] at h
      split at h
      · obtain rfl := Except.ok.inj h
        exact nofun
      · split at h
        · obtain rfl := Except.ok.inj h
          exact nofun
        · cases h
  next =>
    split at h
    · cases h
    · rw [BodyRequest.parseFormUrlEncodedBody, if_neg hbody] at h
      obtain rfl := Except.ok.inj h
      exact nofun
  next =>
    split at h
    · cases h
    · rw [BodyRequest.parseTextBody, if_neg hbody] at h
      obtain rfl := Except.ok.inj h
      exact nofun
  next =>
    rw [BodyRequest.parseMultipartBody] at h
    split at h
    · obtain rfl := Except.ok.inj h
      exact nofun
    · split at h <;> cases h
  next h' => exact absurd h' hkind

/-- Without a `Content-Length` nothing is read. -/
lemma parse_chunked (method contentType : Option String) (chunks : List Bytes) :
    (chunked method contentType chunks).parseBodyIfNeeded parseError limits = .ok {} := by
  rw [BodyRequest.parseBodyIfNeeded]
  split
  · rfl
  · rfl

/-- **The framing makes no difference if and only if the method has no body, the body is empty, or
it is of no known kind and within the limit.** -/
theorem framingBlind_iff (parseError : String → String) (limits : BodyLimits)
    (method contentType : Option String) (chunks chunks' : List Bytes) :
    FramingBlind parseError limits (declared method contentType chunks)
        (chunked method contentType chunks') ↔
      shouldSkipParsing method = true ∨ chunks.flatten = [] ∨
        ((declared method contentType chunks).kind = .other ∧
          chunks.flatten.length ≤ limits.raw) := by
  have hchunked := @parse_chunked parseError limits method contentType chunks'
  constructor
  · rintro ⟨hsame, -⟩
    by_contra hnot
    rw [not_or, not_or] at hnot
    obtain ⟨hskip, hne, hother⟩ := hnot
    rw [hchunked] at hsame
    have hskip : shouldSkipParsing (declared method contentType chunks).method = false :=
      Bool.eq_false_iff.mpr hskip
    have hlength : (declared method contentType chunks).contentLength.getD 0 ≠ 0 :=
      mt List.length_eq_zero_iff.mp hne
    cases h : (declared method contentType chunks).parseBodyIfNeeded parseError limits with
    | error error =>
        rw [h] at hsame
        exact hsame
    | ok parsed =>
        rw [h] at hsame
        by_cases hkind : (declared method contentType chunks).kind = .other
        · -- too large, so it was refused
          rw [BodyRequest.parseBodyIfNeeded, if_neg (by simp [hskip]), if_neg hlength, hkind] at h
          dsimp only at h
          have hlarge : limits.raw < (declared method contentType chunks).contentLength.getD 0 :=
            not_le.mp fun hle => hother ⟨hkind, hle⟩
          rw [if_pos hlarge] at h
          cases h
        · exact body_ne_undefined hskip hlength hne hkind h hsame
  · intro h
    have hdeclared : (declared method contentType chunks).parseBodyIfNeeded parseError limits =
        .ok {} := by
      rw [BodyRequest.parseBodyIfNeeded]
      split
      next => rfl
      next hskip =>
        split
        next => rfl
        next hlength =>
          rcases h with h | h | ⟨hkind, hle⟩
          · exact absurd h hskip
          · exact absurd (List.length_eq_zero_iff.mpr h) hlength
          · rw [hkind]
            exact if_neg (not_lt.mpr hle)
    refine ⟨?_, ?_⟩
    · rw [hdeclared, hchunked]
      rfl
    · rintro r (rfl | rfl) parsed hparsed hbody
      · rw [hdeclared] at hparsed
        obtain rfl := Except.ok.inj hparsed
        exact absurd rfl hbody
      · rw [hchunked] at hparsed
        obtain rfl := Except.ok.inj hparsed
        exact absurd rfl hbody

/-- The text `hi` gets lost in chunks. -/
theorem not_framingBlind :
    ¬ ∀ (parseError : String → String) (limits : BodyLimits) (contentType : Option String)
      (chunks chunks' : List Bytes), chunks'.flatten = chunks.flatten →
        FramingBlind parseError limits (declared (some "POST") contentType chunks)
          (chunked (some "POST") contentType chunks') := by
  intro h
  have hsame := (h id {} (some "text/plain") [[104, 105]] [[104, 105]] rfl).sameOutcome
  rw [parse_chunked] at hsame
  cases hsame

end Blaize.Server
