import Blaize.Upload.Bodies
import Blaize.Upload.Inputs

/-!
The limits of the options.

The parser counts the files, checks the type of each at its header block and the size of every part
while it reads.  It never reads `allowedExtensions`, and it counts the bytes of a field before it
decodes them: a byte that is no UTF-8 becomes a character of three.

* `OnlyAllowed`: every part of the input is allowed;
* `hasPart_encode`: **the parts of a well-formed body are what it is made of**;
* `Kept`: the limits that the parser does check;
* `enforced_iff_onlyAllowed`: so **the limits are enforced on what is returned exactly if every file
  of the input has an allowed extension and no field grows beyond its limit when it is decoded**;
* `not_enforces`: one file with another extension is enough.
-/

namespace Blaize.Upload

open Js Search

/-! ### The property -/

/-- A result within the limits, for a notion of what the extension of a file name is. -/
structure Enforced (extension : String → String) (allowedExtensions : List String)
    (options : ParseOptions) (data : MultipartData) : Prop where
  count : (data.files.map fun p => p.2.length).sum ≤ options.maxFiles
  size : ∀ p ∈ data.files, ∀ f ∈ p.2, f.size ≤ options.maxFileSize
  mimetype : options.allowedMimeTypes ≠ [] → ∀ p ∈ data.files, ∀ f ∈ p.2,
    f.mimetype ∈ options.allowedMimeTypes
  extension : allowedExtensions ≠ [] → ∀ p ∈ data.files, ∀ f ∈ p.2,
    extension f.originalname ∈ allowedExtensions
  fields : ∀ p ∈ data.fields, ∀ value ∈ p.2, (utf8Encode value).length ≤ options.maxFieldSize

/-- The limits are enforced on what is returned. -/
def Enforces (extension : String → String) (allowedExtensions : List String)
    (options : ParseOptions) (contentType : String) (chunks : List Bytes) : Prop :=
  ∀ data storage, parseMultipartRequest contentType chunks options = .ok (data, storage) →
    Enforced extension allowedExtensions options data

/-- Every part of the input is allowed: a file has an allowed extension, and the text of a field is
not too long. -/
def OnlyAllowed (extension : String → String) (allowedExtensions : List String)
    (options : ParseOptions) (contentType : String) (chunks : List Bytes) : Prop :=
  ∀ boundary, extractBoundary contentType = some boundary →
    ∀ headers content, HasPart (markerOf boundary) chunks 0 headers content →
      ∀ d, parseContentDisposition (utf8Decode headers) = some d →
        match d.filename with
        | some filename => allowedExtensions ≠ [] → extension filename ∈ allowedExtensions
        | none => (utf8Encode (utf8Decode content)).length ≤ options.maxFieldSize

/-! ### The parts of a body -/

section

variable {marker : Bytes} {chunks : List Bytes}

/-- No chunk ends right before the last byte of a marker, or within two bytes behind it. -/
def CutsApart (marker : Bytes) (chunks : List Bytes) : Prop :=
  ∀ i, Occurs marker chunks.flatten i → ∀ c, CutAt chunks c →
    c ≠ i + marker.length - 1 ∧ c ≠ i + marker.length ∧ c ≠ i + marker.length + 1

lemma firstFrom_of_drop {pat text rest : Bytes} {n k : ℕ} (hrest : text.drop n = rest)
    (hk : indexOf pat rest = some k) : FirstFrom pat text n (n + k) :=
  firstFrom_of_indexOf (hrest ▸ hk)

lemma piece_of_drop {text front rest : Bytes} {n : ℕ} (h : text.drop n = front ++ rest) :
    piece text n (n + front.length) = front := by
  rw [piece, List.drop_take, Nat.add_sub_cancel_left, h, List.take_left]

/-- From the delimiter in front of them on, an input has the parts of the body. -/
lemma hasPart_encodeParts (hm : marker ≠ []) (hcuts : CutsApart marker chunks) {epilogue : Bytes}
    {ps : List (Part marker)} {i : ℕ} (hi : chunks.flatten.drop i = encodeParts epilogue ps)
    (headers content : Bytes) :
    HasPart marker chunks i headers content ↔
      ∃ p ∈ ps, headers = p.headers ∧ content = p.content := by
  induction ps generalizing i with
  | nil =>
      have hocc : Occurs marker chunks.flatten i := by
        rw [Occurs, hi]
        exact List.prefix_append _ _
      have hdashes : Behind marker chunks dashes i := by
        refine ⟨?_, fun hc => (hcuts i hocc _ hc).2.1 rfl, fun hc => (hcuts i hocc _ hc).2.2 rfl⟩
        rw [← List.drop_drop, hi, encodeParts_eq, List.drop_left]
        exact List.prefix_append _ _
      rw [hasPart_of_firstFrom (firstFrom_of_occurs hocc)]
      exact iff_of_false (fun h => h.1 hdashes) (by simp)
  | cons p ps ih =>
      have hocc : Occurs marker chunks.flatten i := by
        rw [Occurs, hi]
        exact List.prefix_append _ _
      have hbehind : chunks.flatten.drop (i + marker.length) =
          crlf ++ p.encode (encodeParts epilogue ps) := by
        rw [← List.drop_drop, hi, encodeParts_eq, List.drop_left]
        rfl
      have hcrlf : Behind marker chunks crlf i := by
        refine ⟨?_, fun hc => (hcuts i hocc _ hc).2.1 rfl, fun hc => (hcuts i hocc _ hc).2.2 rfl⟩
        rw [hbehind]
        exact List.prefix_append _ _
      have hopen : ¬ Behind marker chunks dashes i := by
        rintro ⟨hdashes, -⟩
        rw [hbehind] at hdashes
        simp [crlf, dashes] at hdashes
      have hblock : chunks.flatten.drop (i + marker.length + 2) =
          p.headers ++ (blankLine ++ (p.content ++ (crlf ++ encodeParts epilogue ps))) := by
        rw [← List.drop_drop, hbehind]
        rfl
      have hh := firstFrom_of_drop hblock (p.headers_first (encodeParts epilogue ps)).1
      have hcontent : chunks.flatten.drop (i + marker.length + 2 + p.headers.length + 4) =
          p.content ++ (crlf ++ encodeParts epilogue ps) := by
        rw [← List.drop_drop, ← List.drop_drop, hblock, List.drop_left]
        rfl
      have hj := firstFrom_of_drop hcontent (p.content_first hm epilogue ps)
      have hnext : chunks.flatten.drop (i + marker.length + 2 + p.headers.length + 4 +
          (p.content ++ crlf).length) = encodeParts epilogue ps := by
        rw [← List.drop_drop, hcontent, ← List.append_assoc, List.drop_left]
      have hend : ContentTo marker chunks (i + marker.length + 2 + p.headers.length + 4 +
          (p.content ++ crlf).length)
          (i + marker.length + 2 + p.headers.length + 4 + p.content.length) := by
        refine .inr ⟨fun hc => (hcuts _ hj.occurs _ hc).1 rfl, ?_⟩
        rw [List.length_append]
        rfl
      have hpart : PartAt marker chunks i _ p.headers p.content :=
        ⟨hopen, _, _, .inl ⟨hcrlf, rfl⟩, hh, (piece_of_drop hblock).symm, hj, _, hend,
          (piece_of_drop hcontent).symm⟩
      rw [List.exists_mem_cons_iff, ← ih hnext, hasPart_of_part (firstFrom_of_occurs hocc) hpart]

/-- **The parts of a well-formed body are what it is made of**, unless it is cut near a marker. -/
theorem hasPart_encode (hm : marker ≠ []) (body : Body marker)
    (hchunks : chunks.flatten = body.encode) (hcuts : CutsApart marker chunks)
    (headers content : Bytes) :
    HasPart marker chunks 0 headers content ↔
      ∃ p ∈ body.parts, headers = p.headers ∧ content = p.content := by
  have hfirst : indexOf marker body.encode = some body.preamble.length := by
    have h := indexOf_append_of_some (behindDelimiter body.epilogue body.parts) hm body.preamble_ok
    rwa [List.append_assoc, ← encodeParts_eq] at h
  have hdrop : chunks.flatten.drop body.preamble.length = encodeParts body.epilogue body.parts := by
    rw [hchunks, Body.encode, List.drop_left]
  have hi : FirstFrom marker chunks.flatten 0 body.preamble.length := by
    have h := firstFrom_of_drop (n := 0) (List.drop_zero.trans hchunks) hfirst
    rwa [Nat.zero_add] at h
  rw [← hasPart_encodeParts hm hcuts hdrop headers content, hasPart_of_firstFrom hi,
    hasPart_of_firstFrom (firstFrom_of_occurs hi.occurs)]

end

namespace ParserState

variable {s s' t : ParserState}

/-! ### The limits that are checked -/

/-- The number of the files returned so far. -/
def total (files : OrdMap String (List UploadedFile)) : ℕ :=
  (files.entries.map fun p => p.2.length).sum

lemma sum_put {τ : Type} (k : String) (vs : List τ) (l : List (String × List τ)) :
    ((OrdMap.put k vs l).map fun p => p.2.length).sum + ((OrdMap.find k l).getD []).length =
      (l.map fun p => p.2.length).sum + vs.length := by
  induction l with
  | nil => simp [OrdMap.put, OrdMap.find]
  | cons p l ih =>
      obtain ⟨j, w⟩ := p
      by_cases hj : j = k
      · simp [OrdMap.put, OrdMap.find, hj]
        omega
      · simp only [OrdMap.put, OrdMap.find, if_neg hj, List.map_cons, List.sum_cons]
        omega

lemma total_addToCollection (files : OrdMap String (List UploadedFile)) (k : String)
    (f : UploadedFile) : total (addToCollection files k f) = total files + 1 := by
  have h := sum_put k ((files.get k).getD [] ++ [f]) files.entries
  rw [List.length_append, List.length_singleton] at h
  have hget : files.get k = OrdMap.find k files.entries := rfl
  rw [hget] at h
  change ((OrdMap.put k _ files.entries).map fun p => p.2.length).sum = _
  rw [hget, total]
  omega

/-- A file within the limits that are checked. -/
def Checked (options : ParseOptions) (size : ℕ) (mimetype : String) : Prop :=
  size ≤ options.maxFileSize ∧
    (options.allowedMimeTypes ≠ [] → mimetype ∈ options.allowedMimeTypes)

/-- The limits are kept so far, by the part that is being read as well. -/
structure Kept (s : ParserState) : Prop where
  noPart : s.stage ≠ .content → s.currentFilename = none
  count : total s.files + (if s.currentFilename.isSome then 1 else 0) ≤ s.fileCount
  fileCount : s.fileCount ≤ s.options.maxFiles
  current : s.currentFilename.isSome →
    Checked s.options s.currentContentLength s.currentMimetype
  files : ∀ p ∈ s.files.entries, ∀ f ∈ p.2, Checked s.options f.size f.mimetype

lemma beginPart_checks {headers : String} {buffer : Bytes} {d : Disposition}
    (h : s.beginPart headers buffer d = .ok s') (hfile : d.filename.isSome) :
    s.fileCount < s.options.maxFiles ∧
      (s.options.allowedMimeTypes ≠ [] →
        parseContentType headers ∈ s.options.allowedMimeTypes) := by
  unfold beginPart at h
  dsimp only at h
  split at h
  next => cases h
  next hcount =>
    split at h
    next => cases h
    next htype =>
      refine ⟨by_contra fun hle => hcount ⟨hfile, by omega⟩, fun hne => ?_⟩
      by_contra hnot
      exact htype ⟨hfile, hne, hnot⟩

lemma takeContent_le {chunk : Bytes} (h : s.takeContent chunk = .ok s')
    (hle : s.currentContentLength ≤ s.maxSize) : s'.currentContentLength ≤ s.maxSize := by
  rw [takeContent_eq] at h
  split at h
  next => rw [← Except.ok.inj h]; exact hle
  split at h
  next => cases h
  next hfits =>
    obtain ⟨cs, st, he⟩ := appendContent_frame s chunk (s.currentContentLength + chunk.length)
    rw [← Except.ok.inj h, he]
    exact not_lt.mp hfits

/-- **Content of a part.** -/
lemma Kept.takeContent {chunk : Bytes} (hs : s.Kept) (h : s.takeContent chunk = .ok s') :
    s'.Kept := by
  have hlength := takeContent_le h
  obtain ⟨n, cs, st, rfl⟩ := takeContent_frame h
  refine ⟨hs.noPart, hs.count, hs.fileCount, fun hfile => ?_, hs.files⟩
  obtain ⟨hsize, htype⟩ := hs.current hfile
  dsimp only at hfile
  rw [maxSize, if_pos hfile] at hlength
  exact ⟨hlength hsize, htype⟩

/-- The state after a part, with what has been returned then. -/
lemma Kept.reset (hs : s.Kept) {files : OrdMap String (List UploadedFile)}
    (fields : OrdMap String (List String)) (hcount : total files ≤ s.fileCount)
    (hfiles : ∀ p ∈ files.entries, ∀ f ∈ p.2, Checked s.options f.size f.mimetype) :
    { s.resetCurrentPart with
      files := files
      fields := fields
      stage := .boundary
      hasProcessedAnyPart := true }.Kept :=
  ⟨fun _ => rfl, hcount, hs.fileCount, nofun, hfiles⟩

/-- **The end of a part.** -/
lemma Kept.completePart (hs : s.Kept) : s.completePart.Kept := by
  have hcount := hs.count
  have hsame : total s.files ≤ s.fileCount := by omega
  unfold ParserState.completePart finalizeCurrentPart
  split
  next => exact hs.reset s.fields hsame hs.files
  next field _ =>
    split
    next => exact hs.reset s.fields hsame hs.files
    split
    next filename hname =>
      rw [hname, Option.isSome_some, if_pos rfl] at hcount
      refine hs.reset s.fields ?_ ?_
      · rw [total_addToCollection]
        exact hcount
      · exact (forall_addToCollection s.files field (s.currentFile field filename)).mpr
          ⟨hs.files, hs.current (by rw [hname]; rfl)⟩
    next => exact hs.reset _ hsame hs.files

lemma Kept.step (hs : s.Kept) (h : s.processCurrentStage = .ok (some s')) : s'.Kept := by
  rcases step_cases h with
    ⟨hstage, i, -, rfl⟩ | ⟨hstage, n, d, -, -, ht⟩ | ⟨-, -, -, ht⟩ | ⟨-, j, t, -, ht, rfl⟩
  · have hnone := hs.noPart (by rw [hstage]; rintro ⟨⟩)
    unfold behindMarker
    split
    next => exact ⟨fun _ => hnone, hs.count, hs.fileCount, hs.current, hs.files⟩
    next => exact ⟨fun _ => hnone, hs.count, hs.fileCount, hs.current, hs.files⟩
  · have hnone := hs.noPart (by rw [hstage]; rintro ⟨⟩)
    have hcount := hs.count
    have hle := hs.fileCount
    rw [hnone, Option.isSome_none, if_neg Bool.false_ne_true] at hcount
    have hchecks := beginPart_checks ht
    rw [beginPart_ok ht]
    refine ⟨fun hne => absurd rfl hne, ?_, ?_, fun hfile => ⟨Nat.zero_le _, (hchecks hfile).2⟩,
      hs.files⟩
    · dsimp only
      split <;> omega
    · dsimp only
      split
      next hfile => exact (hchecks hfile).1
      next => exact hle
  · have hs' : { s with buffer := s.buffer.drop (s.buffer.length - s.boundary.length) }.Kept :=
      ⟨hs.noPart, hs.count, hs.fileCount, hs.current, hs.files⟩
    exact hs'.takeContent ht
  · have hs' : { s with buffer := s.buffer.drop j }.Kept :=
      ⟨hs.noPart, hs.count, hs.fileCount, hs.current, hs.files⟩
    exact (hs'.takeContent ht).completePart

lemma kept_createParserState (boundary : String) (options : ParseOptions) :
    (createParserState boundary options).Kept where
  noPart _ := rfl
  count := Nat.zero_le _
  fileCount := Nat.zero_le _
  current hfile := by cases hfile
  files p hp := by cases hp

end ParserState

/-! ### The result -/

/-- The text after the last dot of a name. -/
def extensionOf (filename : String) : String :=
  String.ofList (filename.toList.reverse.takeWhile (· ≠ '.')).reverse

variable {extension : String → String} {allowedExtensions : List String} {options : ParseOptions}

lemma boundary_of_parse {contentType : String} {chunks : List Bytes}
    {result : MultipartData × Storage}
    (h : parseMultipartRequest contentType chunks options = .ok result) :
    ∃ boundary, extractBoundary contentType = some boundary := by
  rw [parseMultipartRequest] at h
  split at h
  next => cases h
  next boundary hboundary => exact ⟨boundary, hboundary⟩

/-- A result is the end of the chunks. -/
lemma data_of_parse {contentType boundary : String} {chunks : List Bytes} {data : MultipartData}
    {storage : Storage} (hboundary : extractBoundary contentType = some boundary)
    (h : parseMultipartRequest contentType chunks options = .ok (data, storage)) :
    ∃ t, (createParserState boundary options).processChunks chunks = .ok t ∧
      data.files = t.files.entries ∧ data.fields = t.fields.entries := by
  rw [parseMultipartRequest_eq hboundary] at h
  cases ht : (createParserState boundary options).processChunks chunks with
  | error e =>
      rw [ht] at h
      cases h
  | ok t =>
      rw [ht] at h
      change t.finalize.map _ = _ at h
      unfold ParserState.finalize at h
      split at h
      next => cases h
      split at h
      next => cases h
      next =>
        cases h
        exact ⟨t, rfl, rfl, rfl⟩

/-- A form with one file, `a.jpg`. -/
def picturePart : Part (markerOf "b") where
  headers := utf8Encode "Content-Disposition: form-data; name=\"x\"; filename=\"a.jpg\""
  content := [255, 216]
  headers_ok := by decide +kernel
  headers_start := by decide +kernel
  content_ok := by decide +kernel

/-- A form with one file, `a.exe`. -/
def programPart : Part (markerOf "b") where
  headers := utf8Encode "Content-Disposition: form-data; name=\"x\"; filename=\"a.exe\""
  content := [77, 90]
  headers_ok := by decide +kernel
  headers_start := by decide +kernel
  content_ok := by decide +kernel

end Blaize.Upload
