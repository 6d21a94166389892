import Blaize.Upload.Loop

/-!
The storage strategies of the multipart parser.

`initializeFileProcessing` opens the stream or the temporary file of a part.  It is called
once, before the first header block has been read, when there is no current file; no part
ever gets a stream or a file.  So under `stream` and `temp` the parser goes through the
states it goes through under `memory`, with the content of the files left out.

* `forget`: a state under `memory` as the other strategies have it;
* `processCurrentStage_forget`, `run_forget`: **the strategies run in lockstep**;
* `parseMultipartRequest_forget`: **every file comes out without content**;
* `sameUpload_lose_iff`: the results agree only if there is no file.
-/

namespace Blaize.Upload

open Js Search

/-- A file without its content, as the strategy leaves it. -/
def UploadedFile.lose (strategy : Strategy) (f : UploadedFile) : UploadedFile :=
  { f with
    stream := match strategy with
      | .temp => some (.ofBuffer [])
      | _ => none
    buffer := none
    tempPath := none }

/-- The result without the content of the files. -/
def MultipartData.lose (strategy : Strategy) (d : MultipartData) : MultipartData :=
  { d with files := d.files.map fun p => (p.1, p.2.map (UploadedFile.lose strategy)) }

namespace ParserState

variable {s s' : ParserState} {σ : Strategy}

/-- The state that the strategy `σ` has where `memory` has `s`. -/
def forget (σ : Strategy) (s : ParserState) : ParserState :=
  { s with
    options := { s.options with strategy := σ }
    files := s.files.mapValues (List.map (UploadedFile.lose σ))
    currentBufferChunks := if s.currentFilename.isSome then [] else s.currentBufferChunks }

/-- A state under `memory`, with no stream and no temporary file. -/
structure Bare (s : ParserState) : Prop where
  memory : s.options.strategy = .memory
  currentStream : s.currentStream = none
  streamController : s.streamController = none
  currentTempPath : s.currentTempPath = none
  currentWriteStream : s.currentWriteStream = none
  cleanupTasks : s.cleanupTasks = []
  storage : s.storage = {}

/-! ### Nothing is ever opened -/

lemma Bare.takeContent {chunk : Bytes} (hs : s.Bare) (h : s.takeContent chunk = .ok s') :
    s'.Bare := by
  rw [takeContent_eq] at h
  split at h
  · obtain rfl := Except.ok.inj h
    exact hs
  · split at h
    · cases h
    · obtain rfl := Except.ok.inj h
      obtain ⟨h1, h2, h3, h4, h5, h6, h7⟩ := hs
      unfold appendContent processFileChunk
      split
      · rw [h1]
        exact ⟨h1, h2, h3, h4, h5, h6, h7⟩
      · exact ⟨h1, h2, h3, h4, h5, h6, h7⟩

lemma Bare.completePart (hs : s.Bare) : s.completePart.Bare := by
  obtain ⟨h1, h2, h3, h4, h5, h6, h7⟩ := hs
  unfold ParserState.completePart finalizeCurrentPart
  split
  · exact ⟨h1, rfl, rfl, rfl, rfl, h6, h7⟩
  · split
    · exact ⟨h1, rfl, rfl, rfl, rfl, h6, h7⟩
    · split <;> exact ⟨h1, rfl, rfl, rfl, rfl, h6, h7⟩

lemma Bare.of_buffer (hs : s.Bare) (buffer : Bytes) : { s with buffer := buffer }.Bare :=
  ⟨hs.memory, hs.currentStream, hs.streamController, hs.currentTempPath, hs.currentWriteStream,
    hs.cleanupTasks, hs.storage⟩

lemma Bare.step (hs : s.Bare) (h : s.processCurrentStage = .ok (some s')) : s'.Bare := by
  rcases step_cases h with
    ⟨-, i, -, rfl⟩ | ⟨-, n, d, -, -, ht⟩ | ⟨-, -, -, ht⟩ | ⟨-, j, t, -, ht, rfl⟩
  · obtain ⟨h1, h2, h3, h4, h5, h6, h7⟩ := hs
    unfold behindMarker
    split <;> exact ⟨h1, h2, h3, h4, h5, h6, h7⟩
  · obtain ⟨h1, h2, h3, h4, h5, h6, h7⟩ := hs
    rw [beginPart_ok ht]
    exact ⟨h1, h2, h3, h4, h5, h6, h7⟩
  · exact (hs.of_buffer _).takeContent ht
  · exact ((hs.of_buffer _).takeContent ht).completePart

/-! ### Lockstep -/

lemma takeContent_forget (hs : s.Bare) (hσ : σ ≠ .memory) (chunk : Bytes) :
    (s.forget σ).takeContent chunk = (s.takeContent chunk).map (forget σ) := by
  rw [takeContent_eq, takeContent_eq]
  split
  · rfl
  · by_cases hmax : s.maxSize < s.currentContentLength + chunk.length
    · rw [if_pos hmax]
      exact if_pos hmax
    · rw [if_neg hmax]
      refine (if_neg hmax).trans (congrArg Except.ok ?_)
      by_cases hfile : s.currentFilename.isSome
      · cases σ with
        | memory => exact absurd rfl hσ
        | stream =>
            simp [appendContent, processFileChunk, forget, hfile, hs.memory, hs.streamController]
        | temp =>
            simp [appendContent, processFileChunk, forget, hfile, hs.memory, hs.currentWriteStream]
      · simp [appendContent, forget, hfile]

lemma currentFile_forget (hs : s.Bare) (hσ : σ ≠ .memory) (field filename : String) :
    (s.forget σ).currentFile field filename = (s.currentFile field filename).lose σ := by
  cases σ with
  | memory => exact absurd rfl hσ
  | stream => simp [currentFile, forget, UploadedFile.lose, hs.currentStream]
  | temp => simp [currentFile, forget, UploadedFile.lose, hs.currentTempPath]

lemma addToCollection_mapValues {τ υ : Type} (f : τ → υ) (m : OrdMap String (List τ))
    (k : String) (v : τ) :
    addToCollection (m.mapValues (List.map f)) k (f v) =
      (addToCollection m k v).mapValues (List.map f) := by
  unfold addToCollection
  rw [OrdMap.mapValues_set, OrdMap.get_mapValues]
  cases m.get k <;> simp

lemma completePart_forget (hs : s.Bare) (hσ : σ ≠ .memory) :
    (s.forget σ).completePart = s.completePart.forget σ := by
  unfold completePart finalizeCurrentPart
  cases hfield : s.currentField with
  | none => simp [forget, resetCurrentPart, hfield]
  | some field =>
      by_cases hempty : field = ""
      · simp [forget, resetCurrentPart, hfield, hempty]
      · cases hname : s.currentFilename with
        | none => simp [forget, resetCurrentPart, hfield, hempty, hname]
        | some filename =>
            have hadd : addToCollection (s.forget σ).files field
                ((s.forget σ).currentFile field filename) =
                (addToCollection s.files field (s.currentFile field filename)).mapValues
                  (List.map (UploadedFile.lose σ)) := by
              rw [currentFile_forget hs hσ]
              exact addToCollection_mapValues _ _ _ _
            rw [show (s.forget σ).currentField = some field from hfield,
              show (s.forget σ).currentFilename = some filename from hname]
            simp only [hempty, if_false, hadd]
            simp [forget, resetCurrentPart]

lemma processBoundary_forget (s : ParserState) :
    (s.forget σ).processBoundary = s.processBoundary.map (forget σ) := by
  unfold processBoundary forget
  dsimp only
  split
  · rfl
  · split <;> rfl

lemma beginPart_forget (s : ParserState) (headers : String) (buffer : Bytes) (d : Disposition) :
    (s.forget σ).beginPart headers buffer d = (s.beginPart headers buffer d).map (forget σ) := by
  unfold beginPart
  dsimp only
  by_cases hmany : d.filename.isSome ∧ s.options.maxFiles ≤ s.fileCount
  · rw [if_pos hmany]
    exact if_pos hmany
  · rw [if_neg hmany]
    refine (if_neg hmany).trans ?_
    by_cases htype : d.filename.isSome ∧ s.options.allowedMimeTypes ≠ [] ∧
        parseContentType headers ∉ s.options.allowedMimeTypes
    · rw [if_pos htype]
      exact if_pos htype
    · rw [if_neg htype]
      refine (if_neg htype).trans (congrArg Except.ok ?_)
      simp only [forget, ite_self]

lemma processHeaders_forget (s : ParserState) :
    (s.forget σ).processHeaders = s.processHeaders.map (Option.map (forget σ)) := by
  unfold processHeaders
  rw [show (s.forget σ).buffer = s.buffer from rfl]
  split
  · rfl
  · dsimp only
    split
    · rfl
    · rw [beginPart_forget]
      cases s.beginPart _ _ _ <;> rfl

/-- What a piece of content leaves is bare, and is forgotten alike. -/
lemma takeContent_map_forget {υ : Type} (hs : s.Bare) (hσ : σ ≠ .memory) (chunk : Bytes)
    {f g : ParserState → υ} (hfg : ∀ t : ParserState, t.Bare → f (t.forget σ) = g t) :
    ((s.forget σ).takeContent chunk).map f = (s.takeContent chunk).map g := by
  rw [takeContent_forget hs hσ]
  cases ht : s.takeContent chunk with
  | error e => rfl
  | ok t => exact congrArg Except.ok (hfg t (hs.takeContent ht))

lemma processContent_forget (hs : s.Bare) (hσ : σ ≠ .memory) :
    (s.forget σ).processContent = s.processContent.map (Option.map (forget σ)) := by
  have hmap {τ υ ω : Type} (x : Except UploadError τ) (f : τ → υ) (g : υ → ω) :
      (x.map f).map g = x.map (g ∘ f) := by
    cases x <;> rfl
  unfold processContent
  rw [show indexOf (s.forget σ).boundary (s.forget σ).buffer = indexOf s.boundary s.buffer from rfl]
  split
  · dsimp only
    rw [show (s.forget σ).buffer.length - (s.forget σ).boundary.length =
      s.buffer.length - s.boundary.length from rfl]
    split
    · rfl
    · rw [hmap]
      exact takeContent_map_forget (f := some) (g := fun t => some (t.forget σ))
        (hs.of_buffer (s.buffer.drop (s.buffer.length - s.boundary.length))) hσ
        (s.buffer.take (s.buffer.length - s.boundary.length)) fun t _ => rfl
  · next j _ =>
    rw [hmap]
    exact takeContent_map_forget (f := fun t => some t.completePart)
      (g := fun t => some (t.completePart.forget σ)) (hs.of_buffer (s.buffer.drop j)) hσ
      (s.buffer.take (j - 2)) fun t ht => congrArg some (completePart_forget ht hσ)

/-- **The strategies run in lockstep**, one turn of the loop at a time. -/
theorem processCurrentStage_forget (hs : s.Bare) (hσ : σ ≠ .memory) :
    (s.forget σ).processCurrentStage = s.processCurrentStage.map (Option.map (forget σ)) := by
  cases hstage : s.stage with
  | boundary =>
      rw [processCurrentStage_boundary hstage,
        processCurrentStage_boundary (s := s.forget σ) hstage, processBoundary_forget]
      rfl
  | headers =>
      rw [processCurrentStage_headers hstage,
        processCurrentStage_headers (s := s.forget σ) hstage, processHeaders_forget]
  | content =>
      rw [processCurrentStage_content hstage,
        processCurrentStage_content (s := s.forget σ) hstage, processContent_forget hs hσ]

lemma run_forget (hs : s.Bare) (hσ : σ ≠ .memory) :
    (s.forget σ).run = s.run.map (forget σ) := by
  have hstep {s : ParserState} (hs : s.Bare) := processCurrentStage_forget hs hσ
  induction s using run_induction with
  | hend s he => rw [run_of_end he, run_of_end (s := s.forget σ) he]; rfl
  | herror s e he h =>
      rw [run_of_error he h, run_of_error (s := s.forget σ) he (e := e) (by rw [hstep hs, h]; rfl)]
      rfl
  | hnone s he h =>
      rw [run_of_none h, run_of_none (s := s.forget σ) (by rw [hstep hs, h]; rfl)]
      rfl
  | hsome s t he h ih =>
      have hrun : (s.forget σ).run = (t.forget σ).run :=
        run_of_some he (by rw [hstep hs, h]; rfl)
      rw [run_of_some he h, hrun]
      exact ih (hs.step h)

/-- The chunks of a request under another strategy. -/
lemma processChunks_forget (hs : s.Bare) (hσ : σ ≠ .memory) (chunks : List Bytes) :
    (s.forget σ).processChunks chunks = (s.processChunks chunks).map (forget σ) := by
  induction chunks generalizing s with
  | nil => rfl
  | cons c chunks ih =>
      have hbare := hs.of_buffer (s.buffer ++ c)
      have hrun : (s.forget σ).processChunk c = (s.processChunk c).map (forget σ) :=
        run_forget hbare hσ
      unfold processChunks at ih ⊢
      rw [List.foldlM_cons, List.foldlM_cons, hrun]
      cases h : s.processChunk c with
      | error e => rfl
      | ok u => exact ih (run_invariant (fun _ _ _ hs => hs.step) hbare h)

lemma finalize_forget (s : ParserState) :
    (s.forget σ).finalize = s.finalize.map (MultipartData.lose σ) := by
  unfold finalize
  rw [show (s.forget σ).hasFoundValidBoundary = s.hasFoundValidBoundary from rfl,
    show (s.forget σ).hasProcessedAnyPart = s.hasProcessedAnyPart from rfl]
  split
  · rfl
  · split <;> rfl

end ParserState

/-- A request with a boundary: nothing is initialised before its chunks are read. -/
lemma parseMultipartRequest_eq {contentType boundary : String}
    (h : extractBoundary contentType = some boundary) (chunks : List Bytes)
    (options : ParseOptions) :
    parseMultipartRequest contentType chunks options =
      (createParserState boundary options).processChunks chunks >>= fun s =>
        s.finalize.map fun data => (data, s.cleanup) := by
  rw [parseMultipartRequest, h]
  change ((createParserState boundary options).processChunks chunks >>= fun s =>
    s.finalize >>= fun data => pure (data, s.cleanup)) = _
  refine congrArg (_ >>= ·) (funext fun s => ?_)
  cases s.finalize <;> rfl

/-- **Under `stream` and `temp` every file comes out without content**, and nothing else is
different. -/
theorem parseMultipartRequest_forget (contentType : String) (chunks : List Bytes)
    (options : ParseOptions) {σ : Strategy} (hσ : σ ≠ .memory) :
    parseMultipartRequest contentType chunks { options with strategy := σ } =
      (parseMultipartRequest contentType chunks { options with strategy := .memory }).map
        fun r => (r.1.lose σ, r.2) := by
  cases hb : extractBoundary contentType with
  | none =>
      rw [parseMultipartRequest, parseMultipartRequest, hb]
      rfl
  | some boundary =>
      have hbare : (createParserState boundary { options with strategy := .memory }).Bare :=
        ⟨rfl, rfl, rfl, rfl, rfl, rfl, rfl⟩
      have hchunks : (createParserState boundary { options with strategy := σ }).processChunks
          chunks = _ := ParserState.processChunks_forget hbare hσ chunks
      rw [parseMultipartRequest_eq hb, parseMultipartRequest_eq hb, hchunks]
      cases ParserState.processChunks _ chunks with
      | error e => rfl
      | ok s =>
          change (s.forget σ).finalize.map _ = (s.finalize.map _).map _
          rw [ParserState.finalize_forget]
          cases s.finalize <;> rfl

/-- The files of a result are those of the state in which the last chunk leaves the parser. -/
lemma files_of_parse {contentType boundary : String} {chunks : List Bytes}
    {options : ParseOptions} {r : MultipartData × Storage}
    (hboundary : extractBoundary contentType = some boundary)
    (hr : parseMultipartRequest contentType chunks options = .ok r) :
    ∃ s, (createParserState boundary options).processChunks chunks = .ok s ∧
      r.1.files = s.files.entries := by
  rw [parseMultipartRequest_eq hboundary] at hr
  cases hs : (createParserState boundary options).processChunks chunks with
  | error e =>
      rw [hs] at hr
      cases hr
  | ok s =>
      rw [hs] at hr
      change s.finalize.map _ = _ at hr
      unfold ParserState.finalize at hr
      split at hr
      · cases hr
      · split at hr
        · cases hr
        · obtain rfl := Except.ok.inj hr
          exact ⟨s, rfl, rfl⟩

/-! ### The files of `memory` -/

namespace ParserState

variable {s s' : ParserState}

/-- Every file returned so far has its bytes in a buffer. -/
def FilesReadable (s : ParserState) : Prop :=
  ∀ p ∈ s.files.entries, p.2 ≠ [] ∧ ∀ f ∈ p.2, ∃ bytes, f.stream = some (.ofBuffer bytes)

lemma mem_addToCollection {τ : Type} {m : OrdMap String (List τ)} {k : String} {v : τ}
    {p : String × List τ} (h : p ∈ (addToCollection m k v).entries) :
    p.2 = (m.get k).getD [] ++ [v] ∨ p ∈ m.entries := by
  obtain ⟨k', vs⟩ := p
  rw [OrdMap.mem_entries_iff] at h ⊢
  rw [addToCollection, OrdMap.get_set] at h
  split at h
  · exact .inl (Option.some.inj h).symm
  · exact .inr h

lemma FilesReadable.completePart (hs : s.FilesReadable) (hmem : s.options.strategy = .memory) :
    s.completePart.FilesReadable := by
  unfold ParserState.completePart finalizeCurrentPart
  split
  · exact hs
  · next field _ =>
    split
    · exact hs
    · split
      · next filename _ =>
        intro p hp
        rcases mem_addToCollection hp with hp | hp
        · rw [hp]
          refine ⟨by simp, fun f hf => ?_⟩
          rcases List.mem_append.mp hf with hf | hf
          · cases hget : s.files.get field with
            | none => simp [hget] at hf
            | some fs =>
                rw [hget] at hf
                exact (hs (field, fs) ((OrdMap.mem_entries_iff _).mpr hget)).2 f hf
          · obtain rfl := List.mem_singleton.mp hf
            exact ⟨s.currentBufferChunks.flatten, by simp [currentFile, hmem]⟩
        · exact hs p hp
      · exact hs

lemma FilesReadable.step (hs : s.FilesReadable) (hmem : s.options.strategy = .memory)
    (h : s.processCurrentStage = .ok (some s')) : s'.FilesReadable := by
  rcases step_cases h with
    ⟨-, i, -, rfl⟩ | ⟨-, n, d, -, -, ht⟩ | ⟨-, -, -, ht⟩ | ⟨-, j, t, -, ht, rfl⟩
  · unfold behindMarker
    split <;> exact hs
  · rw [beginPart_ok ht]
    exact hs
  · obtain ⟨n, cs, st, rfl⟩ := takeContent_frame ht
    exact hs
  · obtain ⟨n, cs, st, rfl⟩ := takeContent_frame ht
    exact FilesReadable.completePart hs hmem

end ParserState

/-! ### The same upload -/

/-- Two results carry the same upload: the same fields, and file by file the same name, size
and readable content. -/
def SameUpload (σ σ' : Strategy) (r r' : MultipartData × Storage) : Prop :=
  r.1.fields = r'.1.fields ∧
  List.Forall₂ (fun p p' : String × List UploadedFile => p.1 = p'.1 ∧
      List.Forall₂ (fun f f' => f.originalname = f'.originalname ∧ f.size = f'.size ∧
        f.content σ r.2 = f'.content σ' r'.2) p.2 p'.2)
    r.1.files r'.1.files

/-- A file without content has nothing to read. -/
lemma UploadedFile.content_lose {σ : Strategy} (hσ : σ ≠ .memory) (f : UploadedFile)
    (st : Storage) : (f.lose σ).content σ st = none := by
  cases σ with
  | memory => exact absurd rfl hσ
  | stream => rfl
  | temp => rfl

/-- A file with a buffer has its bytes to read. -/
def Readable (r : MultipartData × Storage) : Prop :=
  ∀ p ∈ r.1.files, p.2 ≠ [] ∧ ∀ f ∈ p.2, (f.content .memory r.2).isSome

/-- Under `memory` every file is readable. -/
lemma readable_of_parse {contentType : String} {chunks : List Bytes} {options : ParseOptions}
    {r : MultipartData × Storage}
    (hr : parseMultipartRequest contentType chunks { options with strategy := .memory } = .ok r) :
    Readable r := by
  cases hb : extractBoundary contentType with
  | none =>
      rw [parseMultipartRequest, hb] at hr
      cases hr
  | some boundary =>
      obtain ⟨s, hs, hfiles⟩ := files_of_parse hb hr
      have hinv : s.Bare ∧ s.FilesReadable :=
        ParserState.processChunks_invariant (I := fun s => s.Bare ∧ s.FilesReadable)
          (fun _ buffer h => ⟨h.1.of_buffer buffer, h.2⟩)
          (fun _ _ _ h hstep => ⟨h.1.step hstep, h.2.step h.1.memory hstep⟩)
          ⟨⟨rfl, rfl, rfl, rfl, rfl, rfl, rfl⟩, fun p hp => by cases hp⟩ hs
      intro p hp
      obtain ⟨hne, hall⟩ := hinv.2 p (hfiles ▸ hp)
      refine ⟨hne, fun f hf => ?_⟩
      obtain ⟨bytes, hbytes⟩ := hall f hf
      simp [UploadedFile.content, hbytes]

/-- The results agree only if there is no file. -/
lemma sameUpload_lose_iff {σ : Strategy} (hσ : σ ≠ .memory) {r : MultipartData × Storage}
    (hr : Readable r) : SameUpload .memory σ r (r.1.lose σ, r.2) ↔ r.1.files = [] := by
  constructor
  · rintro ⟨-, hfiles⟩
    cases hf : r.1.files with
    | nil => rfl
    | cons p files =>
        obtain ⟨hne, hcontent⟩ := hr p (by simp [hf])
        rw [MultipartData.lose, hf, List.map_cons, List.forall₂_cons] at hfiles
        obtain ⟨f, fs, hp⟩ := List.exists_cons_of_ne_nil hne
        have hhead := hfiles.1.2
        simp only [hp, List.map_cons, List.forall₂_cons] at hhead
        have := hcontent f (by simp [hp])
        rw [hhead.1.2.2, UploadedFile.content_lose hσ] at this
        cases this
  · intro hf
    exact ⟨rfl, by simp [MultipartData.lose, hf]⟩

end Blaize.Upload
