import Blaize.Lib.OrdMap
import Blaize.Lib.Search
import Blaize.Upload.Utils

/-!
The multipart parser (`packages/blaize-core/src/upload/multipart-parser.ts`).

A `ParserState` is the record of the source.  The readable streams and the temporary files
that a parse creates live in its `storage`.  A stage returns `none` where the source
returns the state it was given, which ends the loop of `processChunk`.

* `processBoundary`, `processHeaders`, `processContent`: the three stages;
* `processChunk`: the loop over the stages, with fuel (`run_eq` in the next module: the
  fuel is enough);
* `parseMultipartRequest`: the whole parse, with `finalize` and `cleanup`.
-/

namespace Blaize.Upload

open Js Search

/-! ### Data -/

/-- How the content of a file is kept. -/
inductive Strategy where
  | memory
  | stream
  | temp
  deriving DecidableEq, Repr

/-- The options over their defaults.  `tempName n` is the path of the `n`-th temporary file,
in the temporary directory and under a fresh name. -/
structure ParseOptions where
  maxFileSize : ℕ := 10 * 1024 * 1024
  maxFiles : ℕ := 10
  maxFieldSize : ℕ := 1 * 1024 * 1024
  allowedMimeTypes : List String := []
  strategy : Strategy := .stream
  tempName : ℕ → String := fun n => "/tmp/upload-" ++ toString n

/-- The `stream` of an uploaded file: over a buffer, or the queue with a number. -/
inductive FileStream where
  | ofBuffer (bytes : Bytes)
  | queue (id : ℕ)
  deriving DecidableEq, Repr

/-- An uploaded file; `none` stands for `null` and `undefined`. -/
structure UploadedFile where
  originalname : String
  encoding : String := "7bit"
  fieldname : String
  mimetype : String
  size : ℕ
  stream : Option FileStream
  buffer : Option Bytes
  tempPath : Option String
  deriving DecidableEq, Repr

/-- What was enqueued to the streams, and what was written to the temporary files. -/
structure Storage where
  streams : List Bytes := []
  temps : OrdMap String Bytes := OrdMap.empty
  created : ℕ := 0
  deriving DecidableEq

/-- What the parser looks for next. -/
inductive Stage where
  | boundary
  | headers
  | content
  deriving DecidableEq, Repr

/-- The errors of the parser. -/
inductive UploadError where
  | missingBoundary (receivedContentType : String)
  | validation (message : String)
  | tooManyFiles (fileCount maxFiles : ℕ) (filename : Option String)
  | fileTypeNotAllowed (receivedMimeType : String) (allowedMimeTypes : List String)
      (filename : Option String)
  | sizeExceedsLimit (isFile : Bool) (currentSize maxSize : ℕ) (field filename : Option String)
  deriving DecidableEq, Repr

/-- The state of the parser; its boundary is never empty. -/
structure ParserState where
  boundary : Bytes
  boundary_ne : boundary ≠ []
  options : ParseOptions
  fields : OrdMap String (List String) := OrdMap.empty
  files : OrdMap String (List UploadedFile) := OrdMap.empty
  buffer : Bytes := []
  stage : Stage := .boundary
  currentHeaders : String := ""
  currentField : Option String := none
  currentFilename : Option String := none
  currentMimetype : String := "application/octet-stream"
  currentContentLength : ℕ := 0
  fileCount : ℕ := 0
  fieldCount : ℕ := 0
  currentBufferChunks : List Bytes := []
  currentStream : Option ℕ := none
  currentTempPath : Option String := none
  currentWriteStream : Option String := none
  streamController : Option ℕ := none
  cleanupTasks : List String := []
  hasFoundValidBoundary : Bool := false
  hasProcessedAnyPart : Bool := false
  isFinished : Bool := false
  storage : Storage := {}

/-- `--` -/
def dashes : Bytes := [45, 45]

/-- The end of a line. -/
def crlf : Bytes := [13, 10]

/-- The end of the headers of a part. -/
def blankLine : Bytes := crlf ++ crlf

/-- The marker `--boundary`. -/
def markerOf (boundary : String) : Bytes := dashes ++ utf8Encode boundary

/-- The state before the first chunk. -/
def createParserState (boundary : String) (options : ParseOptions) : ParserState where
  boundary := markerOf boundary
  boundary_ne := by simp [markerOf, dashes]
  options := options

/-! ### The storage -/

namespace Storage

/-- `controller.enqueue`. -/
def enqueue (st : Storage) (id : ℕ) (chunk : Bytes) : Storage :=
  { st with streams := st.streams.modify id (· ++ chunk) }

/-- `write` on an open write stream. -/
def write (st : Storage) (path : String) (chunk : Bytes) : Storage :=
  { st with temps := st.temps.set path ((st.temps.get path).getD [] ++ chunk) }

end Storage

/-- The bytes that can be read from a file once the call has resolved: from the buffer or
its stream, from the queue, or from the temporary file. -/
def UploadedFile.content (f : UploadedFile) (strategy : Strategy) (st : Storage) : Option Bytes :=
  match strategy with
  | .temp => f.tempPath.bind st.temps.get
  | _ =>
      match f.stream with
      | some (.ofBuffer bytes) => some bytes
      | some (.queue id) => st.streams[id]?
      | none => none

/-! ### Parts -/

namespace ParserState

/-- Forgets the current part. -/
def resetCurrentPart (s : ParserState) : ParserState :=
  { s with
    currentField := none
    currentFilename := none
    currentContentLength := 0
    currentBufferChunks := []
    currentStream := none
    streamController := none
    currentTempPath := none
    currentWriteStream := none }

/-- `initializeFileProcessing`. -/
def initializeFileProcessing (s : ParserState) : ParserState :=
  if s.currentFilename = none then s
  else
    match s.options.strategy with
    | .memory => { s with currentBufferChunks := [] }
    | .stream =>
        let id := s.storage.streams.length
        { s with
          currentStream := some id
          streamController := some id
          storage := { s.storage with streams := s.storage.streams ++ [[]] } }
    | .temp =>
        let path := s.options.tempName s.storage.created
        { s with
          currentTempPath := some path
          currentWriteStream := some path
          cleanupTasks := s.cleanupTasks ++ [path]
          storage := { s.storage with
            temps := s.storage.temps.set path []
            created := s.storage.created + 1 } }

/-- The content of a file is kept by the strategy. -/
def processFileChunk (s : ParserState) (chunk : Bytes) (newContentLength : ℕ) : ParserState :=
  match s.options.strategy with
  | .memory =>
      { s with
        currentContentLength := newContentLength
        currentBufferChunks := s.currentBufferChunks ++ [chunk] }
  | .stream =>
      { s with
        currentContentLength := newContentLength
        storage := match s.streamController with
          | some id => s.storage.enqueue id chunk
          | none => s.storage }
  | .temp =>
      { s with
        currentContentLength := newContentLength
        storage := match s.currentWriteStream with
          | some path => s.storage.write path chunk
          | none => s.storage }

/-- The limit on the content of the current part. -/
def maxSize (s : ParserState) : ℕ :=
  if s.currentFilename.isSome then s.options.maxFileSize else s.options.maxFieldSize

/-- The part of `processContentChunk` behind the size check. -/
def appendContent (s : ParserState) (chunk : Bytes) (newContentLength : ℕ) : ParserState :=
  if s.currentFilename.isSome then s.processFileChunk chunk newContentLength
  else
    { s with
      currentContentLength := newContentLength
      currentBufferChunks := s.currentBufferChunks ++ [chunk] }

/-- The content grows, up to the limit. -/
def processContentChunk (s : ParserState) (chunk : Bytes) : Except UploadError ParserState :=
  let newContentLength := s.currentContentLength + chunk.length
  if s.maxSize < newContentLength then
    .error (.sizeExceedsLimit s.currentFilename.isSome newContentLength s.maxSize s.currentField
      s.currentFilename)
  else .ok (s.appendContent chunk newContentLength)

/-- One more value under a key. -/
def addToCollection {τ : Type} (collection : OrdMap String (List τ)) (key : String) (value : τ) :
    OrdMap String (List τ) :=
  collection.set key ((collection.get key).getD [] ++ [value])

/-- The file record `finalizeFile` builds. -/
def currentFile (s : ParserState) (field filename : String) : UploadedFile where
  originalname := filename
  fieldname := field
  mimetype := s.currentMimetype
  size := s.currentContentLength
  stream :=
    match s.options.strategy with
    | .memory => some (.ofBuffer s.currentBufferChunks.flatten)
    | .stream => s.currentStream.map .queue
    | .temp => some (.ofBuffer [])
  buffer :=
    match s.options.strategy with
    | .memory => some s.currentBufferChunks.flatten
    | _ => none
  tempPath :=
    match s.options.strategy with
    | .temp => s.currentTempPath
    | _ => none

/-- `finalizeCurrentPart` with `finalizeFile` and `finalizeField`. -/
def finalizeCurrentPart (s : ParserState) : ParserState :=
  match s.currentField with
  | none => s.resetCurrentPart
  | some field =>
      if field = "" then s.resetCurrentPart
      else
        match s.currentFilename with
        | some filename =>
            { s.resetCurrentPart with
              files := addToCollection s.files field (s.currentFile field filename) }
        | none =>
            { s.resetCurrentPart with
              fields := addToCollection s.fields field (utf8Decode s.currentBufferChunks.flatten) }

/-! ### The stages -/

/-- Skips what stands in front of the next boundary; `none` asks for more. -/
def processBoundary (s : ParserState) : Option ParserState :=
  match indexOf s.boundary s.buffer with
  | none => none
  | some boundaryIndex =>
      let buffer := s.buffer.drop (boundaryIndex + s.boundary.length)
      if dashes <+: buffer then
        some { s with
          buffer := buffer
          hasFoundValidBoundary := true
          isFinished := true
          stage := .boundary }
      else
        some { s with
          buffer := if crlf <+: buffer then buffer.drop 2 else buffer
          hasFoundValidBoundary := true
          stage := .headers
          currentHeaders := "" }

/-- The state after the header block `headers`, with the part it announces. -/
def beginPart (s : ParserState) (headers : String) (buffer : Bytes) (disposition : Disposition) :
    Except UploadError ParserState :=
  let mimetype := parseContentType headers
  let isFile := disposition.filename.isSome
  if isFile ∧ s.options.maxFiles ≤ s.fileCount then
    .error (.tooManyFiles (s.fileCount + 1) s.options.maxFiles disposition.filename)
  else if isFile ∧ s.options.allowedMimeTypes ≠ [] ∧ mimetype ∉ s.options.allowedMimeTypes then
    .error (.fileTypeNotAllowed mimetype s.options.allowedMimeTypes disposition.filename)
  else
    .ok { s with
      buffer := buffer
      stage := .content
      currentHeaders := headers
      currentField := some disposition.name
      currentFilename := disposition.filename
      currentMimetype := mimetype
      currentContentLength := 0
      fileCount := if isFile then s.fileCount + 1 else s.fileCount
      fieldCount := if isFile then s.fieldCount else s.fieldCount + 1
      currentBufferChunks := [] }

/-- Reads the headers of a part; `none` asks for more. -/
def processHeaders (s : ParserState) : Except UploadError (Option ParserState) :=
  match indexOf blankLine s.buffer with
  | none => .ok none
  | some headerEnd =>
      let headers := utf8Decode (s.buffer.take headerEnd)
      match parseContentDisposition headers with
      | none => .error (.validation "Missing or invalid Content-Disposition header")
      | some disposition =>
          (s.beginPart headers (s.buffer.drop (headerEnd + 4)) disposition).map some

/-- A piece of content, if there is any. -/
def takeContent (s : ParserState) (contentChunk : Bytes) : Except UploadError ParserState :=
  if contentChunk = [] then .ok s else s.processContentChunk contentChunk

/-- The end of a part. -/
def completePart (s : ParserState) : ParserState :=
  { s.finalizeCurrentPart with stage := .boundary, hasProcessedAnyPart := true }

/-- Takes the content up to the next boundary, or what can be no part of one. -/
def processContent (s : ParserState) : Except UploadError (Option ParserState) :=
  match indexOf s.boundary s.buffer with
  | none =>
      let safeLength := s.buffer.length - s.boundary.length
      if safeLength = 0 then .ok none
      else
        ({ s with buffer := s.buffer.drop safeLength }.takeContent
          (s.buffer.take safeLength)).map some
  | some nextBoundaryIndex =>
      ({ s with buffer := s.buffer.drop nextBoundaryIndex }.takeContent
        (s.buffer.take (nextBoundaryIndex - 2))).map fun s => some (completePart s)

/-- One turn of the loop. -/
def processCurrentStage (s : ParserState) : Except UploadError (Option ParserState) :=
  match s.stage with
  | .boundary => .ok s.processBoundary
  | .headers => s.processHeaders
  | .content => s.processContent

/-! ### The loop -/

/-- The `while` of `processChunk`, at most `fuel` times. -/
def processLoop : ℕ → ParserState → Except UploadError ParserState
  | 0, s => .ok s
  | fuel + 1, s =>
      if s.buffer = [] ∨ s.isFinished then .ok s
      else
        match s.processCurrentStage with
        | .error e => .error e
        | .ok none => .ok s
        | .ok (some s') => processLoop fuel s'

/-- The number of turns the loop may still take. -/
def turns (s : ParserState) : ℕ := 2 * s.buffer.length + if s.stage = .content then 1 else 0

/-- The loop until no more progress can be made. -/
def run (s : ParserState) : Except UploadError ParserState := processLoop s.turns s

/-- A chunk of the body arrives. -/
def processChunk (s : ParserState) (chunk : Bytes) : Except UploadError ParserState :=
  { s with buffer := s.buffer ++ chunk }.run

/-! ### The whole parse -/

end ParserState

/-- The result.  The two records are given by their assignments, in order; a list of one
element stands for the element itself. -/
structure MultipartData where
  fields : List (String × List String)
  files : List (String × List UploadedFile)
  deriving DecidableEq, Repr

namespace ParserState

/-- The body has ended. -/
def finalize (s : ParserState) : Except UploadError MultipartData :=
  if !s.hasFoundValidBoundary then .error (.validation "No valid multipart boundary found")
  else if !s.hasProcessedAnyPart then .error (.validation "Empty multipart request")
  else .ok ⟨s.fields.entries, s.files.entries⟩

/-- `cleanup`: what is left of the storage when the call resolves. -/
def cleanup (s : ParserState) : Storage :=
  { s.storage with temps := s.cleanupTasks.foldl OrdMap.delete s.storage.temps }

/-- The chunks of the request, one after the other. -/
def processChunks (s : ParserState) (chunks : List Bytes) : Except UploadError ParserState :=
  chunks.foldlM processChunk s

/-- `processChunks` and then `finalize`. -/
def parseChunks (s : ParserState) (chunks : List Bytes) : Except UploadError MultipartData :=
  s.processChunks chunks >>= finalize

end ParserState

/-- The data, and the storage the caller finds. -/
def parseMultipartRequest (contentType : String) (chunks : List Bytes) (options : ParseOptions) :
    Except UploadError (MultipartData × Storage) :=
  match extractBoundary contentType with
  | none => .error (.missingBoundary contentType)
  | some boundary => do
      let s := createParserState boundary options
      let s := if s.currentFilename.isSome then s.initializeFileProcessing else s
      let s ← s.processChunks chunks
      let data ← s.finalize
      return (data, s.cleanup)

end Blaize.Upload
