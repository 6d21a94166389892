import Blaize.Upload.Bodies
import Blaize.Upload.Form

/-!
The round trip of a form.

The parser takes the parts of a form one after the other: a marker, a header block that ends
in the first blank line, and the bytes up to the line break in front of the next marker.
The bytes come back as they were.  The content type is searched in the whole header block,
so a name that holds the text `Content-Type:` hides it.

* `Returns`: what a parse has to return;
* `run_part`: one part is taken, or refused by a limit;
* `run_parts`: the whole form, by induction over its parts;
* `get_addItems`: the items under a name, in order;
* `roundTrip_iff`: **a form comes back exactly if the content type of every file is
  readable**.
-/

namespace Blaize.Upload

open Js Search

/-! ### What comes back -/

namespace FormPart

variable (p : FormPart)

/-- The value of a field. -/
def value : Option String :=
  match p.payload with
  | .field value => some value
  | .file _ _ _ _ => none

/-- The content type of a file. -/
def mimetype : String :=
  match p.payload with
  | .field _ => mimetypeOf none
  | .file _ _ contentType _ => mimetypeOf contentType

/-- The record of a file with the content type `mimetype`. -/
def fileRecord (mimetype : String) : Option UploadedFile :=
  p.filename.map fun filename =>
    { originalname := filename
      fieldname := p.name
      mimetype := mimetype
      size := p.content.length
      stream := some (.ofBuffer p.content)
      buffer := some p.content
      tempPath := none }

end FormPart

/-- The items of the parts with a name, in order; `none` if there are none. -/
def itemsUnder {τ : Type} (item : FormPart → Option τ) (parts : List FormPart) (name : String) :
    Option (List τ) :=
  match (parts.filter (·.name = name)).filterMap item with
  | [] => none
  | items => some items

/-- The data are the fields and the files of the parts. -/
structure Returns (data : MultipartData) (parts : List FormPart) : Prop where
  fields_nodup : (data.fields.map Prod.fst).Nodup
  files_nodup : (data.files.map Prod.fst).Nodup
  fields : ∀ name, OrdMap.find name data.fields = itemsUnder FormPart.value parts name
  files : ∀ name, OrdMap.find name data.files =
    itemsUnder (fun p => p.fileRecord p.mimetype) parts name

/-- The parts keep the limits of the options. -/
structure Within (options : ParseOptions) (parts : List FormPart) : Prop where
  count : (parts.filter (·.isFile)).length ≤ options.maxFiles
  sizes : ∀ p ∈ parts,
    p.content.length ≤ if p.isFile then options.maxFileSize else options.maxFieldSize
  types : ∀ p ∈ parts, p.isFile →
    options.allowedMimeTypes = [] ∨ p.mimetype ∈ options.allowedMimeTypes

/-! ### The bytes of a part -/

lemma encodeForm_nil (boundary : String) :
    encodeForm boundary [] = markerOf boundary ++ (dashes ++ crlf) := by
  have hdashes : utf8Encode "--" = dashes := by decide +kernel
  have hend : utf8Encode "--\r\n" = dashes ++ crlf := by decide +kernel
  unfold encodeForm markerOf
  rw [List.flatMap_nil, List.nil_append, utf8Encode_append, utf8Encode_append, hdashes, hend]

lemma encodeForm_cons (boundary : String) (p : FormPart) (ps : List FormPart) :
    encodeForm boundary (p :: ps) =
      markerOf boundary ++ (crlf ++ (utf8Encode p.headerText ++
        (blankLine ++ (p.content ++ (crlf ++ encodeForm boundary ps))))) := by
  have hdashes : utf8Encode "--" = dashes := by decide +kernel
  have hcrlf : utf8Encode "\r\n" = crlf := by decide +kernel
  unfold encodeForm markerOf
  rw [List.flatMap_cons]
  simp only [utf8Encode_append, hdashes, hcrlf, blankLine, List.append_assoc]

/-- A marker of printable characters holds no line break. -/
lemma Boundary.notMem_marker (b : Boundary) : ∀ x ∈ crlf, x ∉ markerOf b.text := by
  have hnot {x : UInt8} (hx : x.toNat < 0x80) (hc : isPrintable (Char.ofNat x.toNat) = false)
      (hd : x ∉ dashes) : x ∉ markerOf b.text := by
    intro h
    rcases List.mem_append.mp h with h | h
    · exact hd h
    · have hprint := b.printable _ (mem_of_mem_utf8Encode hx h)
      rw [hc] at hprint
      cases hprint
  intro x hx
  rcases List.mem_cons.mp hx with rfl | hx
  · exact hnot (by decide) (by decide) (by decide)
  · rcases List.mem_singleton.mp hx with rfl
    exact hnot (by decide) (by decide) (by decide)

/-- The content of a part ends in front of the line break before the next marker. -/
lemma indexOf_content (b : Boundary) {p : FormPart}
    (hfree : indexOf (markerOf b.text) p.content = none) (ps : List FormPart) :
    indexOf (markerOf b.text) (p.content ++ (crlf ++ encodeForm b.text ps)) =
      some (p.content.length + 2) := by
  have hm : markerOf b.text ≠ [] := (createParserState b.text {}).boundary_ne
  have hfirst := indexOf_append_separator hm hfree b.notMem_marker (by decide)
  obtain ⟨after, hafter⟩ : ∃ after, encodeForm b.text ps = markerOf b.text ++ after := by
    cases ps with
    | nil => exact ⟨_, encodeForm_nil b.text⟩
    | cons q ps => exact ⟨_, encodeForm_cons b.text q ps⟩
  have hmore := indexOf_append_of_some after hm hfirst
  rw [List.append_assoc, List.append_assoc, ← hafter] at hmore
  exact hmore

/-- A text on one line has no carriage return among its bytes. -/
lemma cr_notMem_utf8Encode {text : String} (h : ∀ c ∈ text.toList, c ≠ '\r' ∧ c ≠ '\n') :
    13 ∉ utf8Encode text :=
  fun hm => (h _ (mem_of_mem_utf8Encode (by decide) hm)).1 (by decide)

/-- A line in front of a blank line. -/
lemma indexOf_line {line : Bytes} (h : 13 ∉ line) (next : Bytes) :
    indexOf blankLine (line ++ (blankLine ++ next)) = some line.length := by
  have hfirst : indexOf blankLine (blankLine ++ next) = some 0 :=
    indexOf_prefix ParserState.blankLine_ne next
  have hskip : indexOf blankLine (line ++ (blankLine ++ next)) =
      (indexOf blankLine (blankLine ++ next)).map (· + line.length) :=
    indexOf_append_of_notMem h (blankLine ++ next)
  rw [hskip, hfirst, Option.map_some, Nat.zero_add]

/-- A header block ends in its first blank line. -/
lemma indexOf_headerText (p : FormPart) (next : Bytes) :
    indexOf blankLine (utf8Encode p.headerText ++ (blankLine ++ next)) =
      some (utf8Encode p.headerText).length := by
  have hline := cr_notMem_utf8Encode p.dispositionLine_one_line
  cases hpayload : p.payload with
  | field value =>
      have hheader : p.headerText = p.dispositionLine := by
        unfold FormPart.headerText
        rw [hpayload]
        exact String.append_empty
      rw [hheader]
      exact indexOf_line hline next
  | file filename hf contentType content =>
      have hheader : utf8Encode p.headerText = utf8Encode p.dispositionLine ++
          (13 :: 10 :: utf8Encode ("Content-Type: " ++ mimetypeOf contentType)) := by
        have hcrlf : utf8Encode "\r\nContent-Type: " = 13 :: 10 :: utf8Encode "Content-Type: " := by
          decide +kernel
        unfold FormPart.headerText
        rw [hpayload, utf8Encode_append, utf8Encode_append, utf8Encode_append, hcrlf]
        rfl
      have htype : 13 ∉ utf8Encode ("Content-Type: " ++ mimetypeOf contentType) := by
        have hname : ∀ c ∈ "Content-Type: ".toList, c ≠ '\r' ∧ c ≠ '\n' := by decide
        refine cr_notMem_utf8Encode fun c hc => ?_
        rw [String.toList_append] at hc
        rcases List.mem_append.mp hc with hc | hc
        · exact hname c hc
        · exact mimetypeOf_one_line contentType c hc
      have hstart : ¬ blankLine <+: 13 :: 10 ::
          (utf8Encode ("Content-Type: " ++ mimetypeOf contentType) ++ (blankLine ++ next)) := by
        have hfirst : utf8Encode "Content-Type: " = 67 :: utf8Encode "ontent-Type: " := by
          decide +kernel
        rw [utf8Encode_append, hfirst]
        simp [blankLine, crlf]
      have hbreak := ParserState.indexOf_blankLine_crlf hstart
      rw [indexOf_line htype next] at hbreak
      have hskip (text : Bytes) : indexOf blankLine (utf8Encode p.dispositionLine ++ text) =
          (indexOf blankLine text).map (· + (utf8Encode p.dispositionLine).length) :=
        indexOf_append_of_notMem hline text
      rw [hheader, List.append_assoc, List.cons_append, List.cons_append, hskip, hbreak]
      simp only [Option.map_some, List.length_append, List.length_cons]
      exact congrArg some (by omega)

/-! ### One part -/

/-- An item of a part goes under its name. -/
def addItem {τ : Type} (item : FormPart → Option τ) (m : OrdMap String (List τ)) (p : FormPart) :
    OrdMap String (List τ) :=
  match item p with
  | some v => ParserState.addToCollection m p.name v
  | none => m

/-- The file of a part, with the content type as the parser reads it. -/
def readFile (p : FormPart) : Option UploadedFile := p.fileRecord (parseContentType p.headerText)

namespace ParserState

variable {s s' : ParserState} {b : Boundary} {options : ParseOptions}

/-- The parser stands in front of the parts. -/
structure Ready (b : Boundary) (options : ParseOptions) (parts : List FormPart)
    (s : ParserState) : Prop where
  boundary : s.boundary = markerOf b.text
  options : s.options = options
  stage : s.stage = .boundary
  unfinished : s.isFinished = false
  buffer : s.buffer = encodeForm b.text parts

/-- A part that is neither one file too many nor of another type. -/
def Accepted (s : ParserState) (p : FormPart) : Prop :=
  p.isFile → s.fileCount < s.options.maxFiles ∧
    (s.options.allowedMimeTypes = [] ∨
      parseContentType p.headerText ∈ s.options.allowedMimeTypes)

/-- What a part leaves. -/
structure Takes (p : FormPart) (s s' : ParserState) : Prop where
  fields : s'.fields = addItem FormPart.value s.fields p
  files : s'.files = addItem readFile s.files p
  fileCount : s'.fileCount = if p.isFile then s.fileCount + 1 else s.fileCount
  found : s'.hasFoundValidBoundary = true
  processed : s'.hasProcessedAnyPart = true

/-- The state in which the header block of a part begins. -/
def atHeaders (s : ParserState) (buffer : Bytes) : ParserState :=
  { s with
    buffer := buffer
    hasFoundValidBoundary := true
    stage := .headers
    currentHeaders := "" }

/-- The state in which the content of a part begins. -/
def atContent (s : ParserState) (p : FormPart) (buffer : Bytes) : ParserState :=
  { s with
    buffer := buffer
    stage := .content
    currentHeaders := p.headerText
    currentField := some p.name
    currentFilename := p.filename
    currentMimetype := parseContentType p.headerText
    currentContentLength := 0
    fileCount := if p.filename.isSome then s.fileCount + 1 else s.fileCount
    fieldCount := if p.filename.isSome then s.fieldCount else s.fieldCount + 1
    currentBufferChunks := [] }

lemma isFile_eq (p : FormPart) : p.isFile = p.filename.isSome := by
  unfold FormPart.isFile FormPart.filename
  cases p.payload <;> rfl

/-- Behind the delimiter of a part. -/
lemma run_delimiter {p : FormPart} {ps : List FormPart} (h : Ready b options (p :: ps) s) :
    s.run = (s.atHeaders (utf8Encode p.headerText ++
      (blankLine ++ (p.content ++ (crlf ++ encodeForm b.text ps))))).run := by
  have hbuffer := h.buffer
  rw [encodeForm_cons, ← h.boundary] at hbuffer
  have hfirst : indexOf s.boundary s.buffer = some 0 := by
    rw [hbuffer]
    exact indexOf_prefix s.boundary_ne _
  have hend := not_end h.unfinished (buffer_ne_of_indexOf s.boundary_ne hfirst)
  refine run_of_some hend ?_
  rw [processCurrentStage_boundary h.stage, processBoundary_of_some hfirst, hbuffer, Nat.zero_add,
    List.drop_left]
  unfold behindMarker
  have hdrop (next : Bytes) : (crlf ++ next).drop 2 = next := rfl
  rw [if_neg (by simp [dashes, crlf]), if_pos (List.prefix_append crlf _), hdrop]
  rfl

/-- The header block of a part: a limit refuses the part, or its content begins. -/
lemma beginPart_headerText (s : ParserState) (p : FormPart) (buffer : Bytes) :
    (¬ s.Accepted p ∧ ∃ e, s.beginPart p.headerText buffer ⟨p.name, p.filename⟩ = .error e) ∨
    (s.Accepted p ∧ ∃ t, s.beginPart p.headerText buffer ⟨p.name, p.filename⟩ = .ok t) := by
  unfold beginPart
  dsimp only
  rw [← isFile_eq]
  split
  next hmany =>
    refine .inl ⟨fun h => ?_, _, rfl⟩
    exact absurd (h hmany.1).1 (Nat.not_lt_of_le hmany.2)
  next hmany =>
    split
    next htype =>
      refine .inl ⟨fun h => ?_, _, rfl⟩
      exact (h htype.1).2.elim htype.2.1 htype.2.2
    next htype =>
      refine .inr ⟨fun hfile => ⟨?_, ?_⟩, _, rfl⟩
      · exact Nat.lt_of_not_le fun hle => hmany ⟨hfile, hle⟩
      · by_cases hall : s.options.allowedMimeTypes = []
        · exact .inl hall
        · exact .inr (Classical.byContradiction fun hnot => htype ⟨hfile, hall, hnot⟩)

/-- Behind the header block of a part. -/
lemma run_headers {p : FormPart} {next : Bytes} (hstage : s.stage = .headers)
    (hfin : s.isFinished = false)
    (hbuffer : s.buffer = utf8Encode p.headerText ++ (blankLine ++ next)) :
    (¬ s.Accepted p ∧ ∃ e, s.run = .error e) ∨
      (s.Accepted p ∧ s.run = (s.atContent p next).run) := by
  have hblank : indexOf blankLine s.buffer = some (utf8Encode p.headerText).length := by
    rw [hbuffer]
    exact indexOf_headerText p next
  have hend := not_end hfin (buffer_ne_of_indexOf blankLine_ne hblank)
  have htake : s.buffer.take (utf8Encode p.headerText).length = utf8Encode p.headerText := by
    rw [hbuffer, List.take_left]
  have hdrop : s.buffer.drop ((utf8Encode p.headerText).length + 4) = next := by
    rw [hbuffer, ← List.drop_drop, List.drop_left]
    rfl
  have hstep : s.processCurrentStage =
      (s.beginPart p.headerText next ⟨p.name, p.filename⟩).map some := by
    rw [processCurrentStage_headers hstage, processHeaders, hblank]
    dsimp only
    rw [htake, hdrop, utf8Decode_utf8Encode, p.parseContentDisposition_headerText]
  obtain ⟨hno, e, he⟩ | ⟨hyes, t, ht⟩ := beginPart_headerText s p next
  · exact .inl ⟨hno, e, run_of_error hend (by rw [hstep, he]; rfl)⟩
  · have hcontent : t = s.atContent p next := beginPart_ok ht
    refine .inr ⟨hyes, ?_⟩
    rw [← hcontent]
    exact run_of_some hend (by rw [hstep, ht]; rfl)

/-- The content of a part, up to the next marker. -/
lemma run_content {p : FormPart} {ps : List FormPart} (hmem : s.options.strategy = .memory)
    (hstage : s.stage = .content) (hfin : s.isFinished = false)
    (hboundary : s.boundary = markerOf b.text)
    (hbuffer : s.buffer = p.content ++ (crlf ++ encodeForm b.text ps))
    (hfree : indexOf (markerOf b.text) p.content = none)
    (hempty : s.currentContentLength = 0) (hsize : p.content.length ≤ s.maxSize) :
    s.run = (s.withContent p.content (encodeForm b.text ps)).completePart.run := by
  have hfirst : indexOf s.boundary s.buffer = some (p.content.length + 2) := by
    rw [hboundary, hbuffer]
    exact indexOf_content b hfree ps
  have hend := not_end hfin (buffer_ne_of_indexOf s.boundary_ne hfirst)
  have htake : s.buffer.take (p.content.length + 2 - 2) = p.content := by
    rw [Nat.add_sub_cancel, hbuffer, List.take_left]
  have hdrop : s.buffer.drop (p.content.length + 2) = encodeForm b.text ps := by
    rw [hbuffer, ← List.drop_drop, List.drop_left]
    rfl
  refine run_of_some hend ?_
  rw [processCurrentStage_content hstage]
  obtain ⟨⟨-, hmax⟩, -⟩ | ⟨-, hstep⟩ := processContent_of_some hmem hfirst
  · omega
  · rw [hstep, htake, hdrop]

lemma completePart_counts (s : ParserState) :
    s.completePart.fileCount = s.fileCount ∧
      s.completePart.hasFoundValidBoundary = s.hasFoundValidBoundary := by
  unfold completePart finalizeCurrentPart
  dsimp only
  split
  · exact ⟨rfl, rfl⟩
  · split
    · exact ⟨rfl, rfl⟩
    · split <;> exact ⟨rfl, rfl⟩

/-- **The end of a part**: its value or its file, with all of its bytes, goes under its name. -/
lemma completePart_collects {p : FormPart} (hmem : s.options.strategy = .memory)
    (hfield : s.currentField = some p.name) (hname : s.currentFilename = p.filename)
    (htype : s.currentMimetype = parseContentType p.headerText)
    (hempty : s.currentContentLength = 0) (hchunks : s.currentBufferChunks = []) (next : Bytes) :
    (s.withContent p.content next).completePart.fields = addItem FormPart.value s.fields p ∧
      (s.withContent p.content next).completePart.files = addItem readFile s.files p := by
  have hbytes : (s.currentBufferChunks ++ if p.content = [] then [] else [p.content]).flatten =
      p.content := by
    rw [hchunks]
    split
    next h => rw [h]; rfl
    next => simp
  unfold completePart finalizeCurrentPart
  rw [show (s.withContent p.content next).currentField = some p.name from hfield]
  dsimp only
  rw [if_neg p.name_ne, show (s.withContent p.content next).currentFilename = p.filename from hname]
  cases hpayload : p.payload with
  | field value =>
      have hfilename : p.filename = none := by rw [FormPart.filename, hpayload]
      have hvalue : p.value = some value := by rw [FormPart.value, hpayload]
      have hcontent : p.content = utf8Encode value := by rw [FormPart.content, hpayload]
      rw [hfilename]
      constructor
      · unfold addItem
        rw [hvalue]
        dsimp only [withContent]
        rw [hbytes, hcontent, utf8Decode_utf8Encode]
      · unfold addItem readFile FormPart.fileRecord
        rw [hfilename]
        rfl
  | file filename hf contentType content =>
      have hfilename : p.filename = some filename := by rw [FormPart.filename, hpayload]
      have hvalue : p.value = none := by rw [FormPart.value, hpayload]
      rw [hfilename]
      constructor
      · unfold addItem
        rw [hvalue]
        rfl
      · unfold addItem readFile FormPart.fileRecord
        rw [hfilename]
        dsimp only [withContent, currentFile, Option.map_some]
        rw [hmem, hbytes, htype, hempty, Nat.zero_add]

/-- Behind its header block a part within the limits is taken. -/
lemma run_atContent {p : FormPart} {ps : List FormPart} (hboundary : s.boundary = markerOf b.text)
    (hoptions : s.options = options) (hfin : s.isFinished = false)
    (hmem : options.strategy = .memory) (hfound : s.hasFoundValidBoundary = true)
    (hfree : indexOf (markerOf b.text) p.content = none)
    (hsize : p.content.length ≤ if p.isFile then options.maxFileSize else options.maxFieldSize) :
    ∃ s', (s.atContent p (p.content ++ (crlf ++ encodeForm b.text ps))).run = s'.run ∧
      Ready b options ps s' ∧ Takes p s s' := by
  obtain ⟨next, hnext⟩ : ∃ next, next = p.content ++ (crlf ++ encodeForm b.text ps) := ⟨_, rfl⟩
  obtain ⟨t, ht⟩ : ∃ t, t = s.atContent p next := ⟨_, rfl⟩
  rw [← hnext, ← ht]
  have ho : t.options = options := by rw [ht, atContent, hoptions]
  have hmem' : t.options.strategy = .memory := by rw [ho, hmem]
  have hname : t.currentFilename = p.filename := by rw [ht, atContent]
  have hsize' : p.content.length ≤ t.maxSize := by
    rw [isFile_eq] at hsize
    rw [maxSize, ho, hname]
    exact hsize
  have hcount : t.fileCount = if p.isFile then s.fileCount + 1 else s.fileCount := by
    rw [isFile_eq, ht, atContent]
  have hb : t.boundary = markerOf b.text := by rw [ht, atContent, hboundary]
  have hf : t.isFinished = false := by rw [ht, atContent, hfin]
  have hv : t.hasFoundValidBoundary = true := by rw [ht, atContent, hfound]
  have hempty : t.currentContentLength = 0 := by rw [ht, atContent]
  have hrun := @run_content t b p ps hmem' (by rw [ht, atContent]) hf hb
    (by rw [ht, atContent, hnext]) hfree hempty hsize'
  have hcollects := completePart_collects hmem' (by rw [ht, atContent]) hname
    (by rw [ht, atContent]) hempty (by rw [ht, atContent]) (encodeForm b.text ps)
  have hfields : t.fields = s.fields := by rw [ht, atContent]
  have hfiles : t.files = s.files := by rw [ht, atContent]
  rw [hfields, hfiles] at hcollects
  have hframe := completePart_frame (t.withContent p.content (encodeForm b.text ps))
  have hcounts := completePart_counts (t.withContent p.content (encodeForm b.text ps))
  refine ⟨_, hrun, ?_, ?_⟩
  · exact ⟨hframe.1.trans hb, hframe.2.1.trans ho, rfl, hframe.2.2.trans hf,
      completePart_buffer _⟩
  · exact ⟨hcollects.1, hcollects.2, hcounts.1.trans hcount, hcounts.2.trans hv, rfl⟩

/-- **One part is taken, or refused by a limit.** -/
theorem run_part {p : FormPart} {ps : List FormPart} (h : Ready b options (p :: ps) s)
    (hmem : options.strategy = .memory) (hfree : indexOf (markerOf b.text) p.content = none)
    (hsize : p.content.length ≤ if p.isFile then options.maxFileSize else options.maxFieldSize) :
    (¬ s.Accepted p ∧ ∃ e, s.run = .error e) ∨
    (s.Accepted p ∧ ∃ s', s.run = s'.run ∧ Ready b options ps s' ∧ Takes p s s') := by
  -- names for the texts, which need not be looked into
  obtain ⟨next, hnext⟩ : ∃ next, next = p.content ++ (crlf ++ encodeForm b.text ps) := ⟨_, rfl⟩
  obtain ⟨buffer, hbuffer⟩ : ∃ buffer, buffer = utf8Encode p.headerText ++ (blankLine ++ next) :=
    ⟨_, rfl⟩
  have hdelimiter := run_delimiter h
  rw [← hnext, ← hbuffer] at hdelimiter
  have hheaders := @run_headers (s.atHeaders buffer) p next rfl h.unfinished hbuffer
  have hcontent := @run_atContent (s.atHeaders buffer) b options p ps h.boundary h.options
    h.unfinished hmem rfl hfree hsize
  rw [← hnext] at hcontent
  rw [hdelimiter]
  obtain ⟨hno, he⟩ | ⟨hyes, hrun⟩ := hheaders
  · exact .inl ⟨hno, he⟩
  · obtain ⟨s', hrun', hready, htakes⟩ := hcontent
    refine .inr ⟨hyes, s', hrun.trans hrun', hready, ?_⟩
    exact ⟨htakes.fields, htakes.files, htakes.fileCount, htakes.found, htakes.processed⟩

/-! ### The whole form -/

/-- A request in one chunk. -/
lemma processChunks_one (s : ParserState) (chunk : Bytes) :
    s.processChunks [chunk] = (s.extend chunk).run := by
  unfold processChunks
  rw [List.foldlM_cons]
  change ((s.extend chunk).run >>= fun s => pure s) = _
  exact bind_pure _

/-- What the parts of a form leave. -/
structure Collects (parts : List FormPart) (s s' : ParserState) : Prop where
  fields : s'.fields = parts.foldl (addItem FormPart.value) s.fields
  files : s'.files = parts.foldl (addItem readFile) s.files
  found : s'.hasFoundValidBoundary = true
  processed : s'.hasProcessedAnyPart = (s.hasProcessedAnyPart || !parts.isEmpty)

/-- The closing delimiter ends the run. -/
lemma run_closing (h : Ready b options [] s) : ∃ s', s.run = .ok s' ∧ Collects [] s s' := by
  have hbuffer := h.buffer
  rw [encodeForm_nil, ← h.boundary] at hbuffer
  have hfirst : indexOf s.boundary s.buffer = some 0 := by
    rw [hbuffer]
    exact indexOf_prefix s.boundary_ne _
  have hend := not_end h.unfinished (buffer_ne_of_indexOf s.boundary_ne hfirst)
  have hstep : s.processCurrentStage = .ok (some { s with
      buffer := dashes ++ crlf
      hasFoundValidBoundary := true
      isFinished := true
      stage := .boundary }) := by
    rw [processCurrentStage_boundary h.stage, processBoundary_of_some hfirst, hbuffer,
      Nat.zero_add, List.drop_left]
    unfold behindMarker
    rw [if_pos (List.prefix_append dashes crlf)]
  exact ⟨_, (run_of_some hend hstep).trans (run_of_end (.inr rfl)), rfl, rfl, rfl,
    (Bool.or_false _).symm⟩

/-- **The whole form**, by induction over its parts: what a run returns, and that a run whose
files keep the limits returns. -/
theorem run_parts (parts : List FormPart) (h : Ready b options parts s)
    (hmem : options.strategy = .memory)
    (hfree : ∀ p ∈ parts, indexOf (markerOf b.text) p.content = none)
    (hsizes : ∀ p ∈ parts,
      p.content.length ≤ if p.isFile then options.maxFileSize else options.maxFieldSize) :
    (∀ s', s.run = .ok s' → Collects parts s s') ∧
      (s.fileCount + (parts.filter (·.isFile)).length ≤ options.maxFiles →
        (∀ p ∈ parts, p.isFile → options.allowedMimeTypes = [] ∨
          parseContentType p.headerText ∈ options.allowedMimeTypes) →
        ∃ s', s.run = .ok s') := by
  induction parts generalizing s with
  | nil =>
      obtain ⟨t, ht, hcollects⟩ := run_closing h
      refine ⟨fun s' hs' => ?_, fun _ _ => ⟨t, ht⟩⟩
      rw [ht] at hs'
      exact Except.ok.inj hs' ▸ hcollects
  | cons p parts ih =>
      have hcount : ((p :: parts).filter (·.isFile)).length =
          (if p.isFile then 1 else 0) + (parts.filter (·.isFile)).length := by
        rw [List.filter_cons]
        split
        · exact Nat.add_comm _ _
        · exact (Nat.zero_add _).symm
      obtain ⟨hno, e, he⟩ | ⟨hyes, t, hrun, hready, htakes⟩ :=
        run_part h hmem (hfree p List.mem_cons_self) (hsizes p List.mem_cons_self)
      · refine ⟨fun s' hs' => ?_, fun hfiles htypes => ?_⟩
        · rw [he] at hs'
          cases hs'
        · refine absurd (fun hfile => ⟨?_, ?_⟩) hno
          · rw [hcount, if_pos hfile] at hfiles
            rw [h.options]
            omega
          · rw [h.options]
            exact htypes p List.mem_cons_self hfile
      · obtain ⟨hcollects, hok⟩ := ih hready (fun q hq => hfree q (List.mem_cons_of_mem p hq))
          (fun q hq => hsizes q (List.mem_cons_of_mem p hq))
        refine ⟨fun s' hs' => ?_, fun hfiles htypes => ?_⟩
        · obtain ⟨hfields, hfiles, hfound, hprocessed⟩ := hcollects s' (hrun ▸ hs')
          refine ⟨?_, ?_, hfound, ?_⟩
          · rw [hfields, htakes.fields, List.foldl_cons]
          · rw [hfiles, htakes.files, List.foldl_cons]
          · rw [hprocessed, htakes.processed]
            simp
        · have hrest : t.fileCount + (parts.filter (·.isFile)).length ≤ options.maxFiles := by
            rw [hcount] at hfiles
            rw [htakes.fileCount]
            by_cases hfile : p.isFile
            · rw [if_pos hfile] at hfiles ⊢
              omega
            · rw [if_neg hfile] at hfiles ⊢
              omega
          obtain ⟨s', hs'⟩ := hok hrest fun q hq => htypes q (List.mem_cons_of_mem p hq)
          exact ⟨s', hrun.trans hs'⟩

end ParserState

/-! ### Under one name -/

/-- The items that were added under a name, behind those that were there. -/
lemma get_addItems {τ : Type} (item : FormPart → Option τ) (parts : List FormPart)
    (m : OrdMap String (List τ)) (name : String) :
    (parts.foldl (addItem item) m).get name =
      match (parts.filter (·.name = name)).filterMap item with
      | [] => m.get name
      | v :: vs => some ((m.get name).getD [] ++ v :: vs) := by
  induction parts generalizing m with
  | nil => rfl
  | cons p parts ih =>
      rw [List.foldl_cons, ih, List.filter_cons]
      cases hitem : item p with
      | none =>
          have hadd : addItem item m p = m := by rw [addItem, hitem]
          rw [hadd]
          by_cases hname : p.name = name
          · rw [if_pos (decide_eq_true hname), List.filterMap_cons_none hitem]
          · rw [if_neg (by simpa using hname)]
      | some v =>
          have hadd : addItem item m p = ParserState.addToCollection m p.name v := by
            rw [addItem, hitem]
          rw [hadd, ParserState.addToCollection, OrdMap.get_set]
          by_cases hname : p.name = name
          · rw [if_pos hname, if_pos (decide_eq_true hname), List.filterMap_cons_some hitem, hname]
            cases (parts.filter (·.name = name)).filterMap item <;> simp
          · rw [if_neg hname, if_neg (by simpa using hname)]

lemma get_addItems_empty {τ : Type} (item : FormPart → Option τ) (parts : List FormPart)
    (name : String) :
    (parts.foldl (addItem item) OrdMap.empty).get name = itemsUnder item parts name := by
  rw [get_addItems, itemsUnder]
  cases (parts.filter (·.name = name)).filterMap item <;> rfl

/-- The same items under every name are the same items. -/
lemma eq_of_itemsUnder_eq {τ : Type} {item item' : FormPart → Option τ} {parts : List FormPart}
    (hsome : ∀ p, (item p).isSome = (item' p).isSome)
    (h : ∀ name, itemsUnder item parts name = itemsUnder item' parts name) :
    ∀ p ∈ parts, item p = item' p := by
  have hlist {l : List FormPart} (hl : l.filterMap item = l.filterMap item') :
      ∀ p ∈ l, item p = item' p := by
    induction l with
    | nil => nofun
    | cons p l ih =>
        have hp := hsome p
        cases hi : item p with
        | none =>
            have hi' : item' p = none := by
              rw [hi] at hp
              exact Option.isSome_eq_false_iff.mp hp.symm |> Option.isNone_iff_eq_none.mp
            rw [List.filterMap_cons_none hi, List.filterMap_cons_none hi'] at hl
            intro q hq
            rcases List.mem_cons.mp hq with rfl | hq
            · rw [hi, hi']
            · exact ih hl q hq
        | some v =>
            obtain ⟨v', hi'⟩ : ∃ v', item' p = some v' := by
              rw [hi] at hp
              exact Option.isSome_iff_exists.mp hp.symm
            rw [List.filterMap_cons_some hi, List.filterMap_cons_some hi'] at hl
            obtain ⟨hv, hl⟩ := List.cons.inj hl
            intro q hq
            rcases List.mem_cons.mp hq with rfl | hq
            · rw [hi, hi', hv]
            · exact ih hl q hq
  intro p hp
  refine hlist (l := parts.filter (·.name = p.name)) ?_ p (List.mem_filter.mpr ⟨hp, by simp⟩)
  have hname := h p.name
  unfold itemsUnder at hname
  cases hl : (parts.filter (·.name = p.name)).filterMap item with
  | nil =>
      cases hl' : (parts.filter (·.name = p.name)).filterMap item' with
      | nil => rfl
      | cons v vs =>
          rw [hl, hl'] at hname
          cases hname
  | cons v vs =>
      cases hl' : (parts.filter (·.name = p.name)).filterMap item' with
      | nil =>
          rw [hl, hl'] at hname
          cases hname
      | cons v' vs' =>
          rw [hl, hl'] at hname
          exact Option.some.inj hname

/-! ### The round trip -/

/-- What a parse of a form returns: its parts, with the content types as they are read. -/
lemma parse_encodeForm (b : Boundary) {parts : List FormPart} (hne : parts ≠ [])
    (hfree : ∀ p ∈ parts, ¬ markerOf b.text <:+: p.content) {options : ParseOptions}
    (hlimits : Within options parts) :
    (∀ data storage, parseMultipartRequest (contentTypeOf b.text) [encodeForm b.text parts]
        { options with strategy := .memory } = .ok (data, storage) →
      (data.fields.map Prod.fst).Nodup ∧ (data.files.map Prod.fst).Nodup ∧
      (∀ name, OrdMap.find name data.fields = itemsUnder FormPart.value parts name) ∧
      ∀ name, OrdMap.find name data.files = itemsUnder readFile parts name) ∧
    ((∀ p ∈ parts, p.isFile → parseContentType p.headerText = p.mimetype) →
      ∃ r, parseMultipartRequest (contentTypeOf b.text) [encodeForm b.text parts]
        { options with strategy := .memory } = .ok r) := by
  obtain ⟨start, hstart⟩ : ∃ start, start = (createParserState b.text
    { options with strategy := .memory }).extend (encodeForm b.text parts) := ⟨_, rfl⟩
  have hm : markerOf b.text ≠ [] := (createParserState b.text options).boundary_ne
  have hparse : parseMultipartRequest (contentTypeOf b.text) [encodeForm b.text parts]
      { options with strategy := .memory } =
        start.run >>= fun s => s.finalize.map fun data => (data, s.cleanup) := by
    rw [parseMultipartRequest_eq (extractBoundary_contentTypeOf b), ParserState.processChunks_one,
      hstart]
  have hready : ParserState.Ready b { options with strategy := .memory } parts start := by
    rw [hstart]
    exact ⟨rfl, rfl, rfl, rfl, rfl⟩
  obtain ⟨hcollects, hok⟩ := ParserState.run_parts parts hready rfl
    (fun p hp => (indexOf_eq_none_iff_absent hm).mpr (hfree p hp)) hlimits.sizes
  have hfields : start.fields = OrdMap.empty := by rw [hstart]; rfl
  have hfiles : start.files = OrdMap.empty := by rw [hstart]; rfl
  have hcount : start.fileCount = 0 := by rw [hstart]; rfl
  have hfinal : ∀ s, start.run = .ok s → s.finalize = .ok ⟨s.fields.entries, s.files.entries⟩ := by
    intro s hs
    obtain ⟨-, -, hfound, hprocessed⟩ := hcollects s hs
    have hparts : parts.isEmpty = false := by simpa using hne
    rw [hparts, Bool.not_false, Bool.or_true] at hprocessed
    rw [ParserState.finalize, hfound, hprocessed]
    rfl
  rw [hparse]
  constructor
  · intro data storage h
    cases hrun : start.run with
    | error e =>
        rw [hrun] at h
        cases h
    | ok s =>
        rw [hrun] at h
        change s.finalize.map _ = _ at h
        rw [hfinal s hrun] at h
        obtain ⟨rfl, -⟩ := Prod.mk.inj (Except.ok.inj h)
        obtain ⟨hf, hg, -, -⟩ := hcollects s hrun
        refine ⟨s.fields.nodup, s.files.nodup, fun name => ?_, fun name => ?_⟩
        · rw [← get_addItems_empty, ← hfields, ← hf]
          rfl
        · rw [← get_addItems_empty, ← hfiles, ← hg]
          rfl
  · intro hmime
    obtain ⟨s, hs⟩ := hok (by rw [hcount, Nat.zero_add]; exact hlimits.count) fun p hp hfile => by
      rw [hmime p hp hfile]
      exact hlimits.types p hp hfile
    refine ⟨(⟨s.fields.entries, s.files.entries⟩, s.cleanup), ?_⟩
    rw [hs]
    change s.finalize.map _ = _
    rw [hfinal s hs]
    rfl

/-- **A form comes back exactly if the content type of every file is readable.**  For every
boundary, every list of parts within the limits and all contents without the marker: the
parse of the form returns its parts if and only if no file has a name that holds the text
`Content-Type:`, or one behind which the content type stands. -/
theorem roundTrip_iff (b : Boundary) (parts : List FormPart) (hne : parts ≠ [])
    (hfree : ∀ p ∈ parts, ¬ markerOf b.text <:+: p.content) (options : ParseOptions)
    (hlimits : Within options parts) :
    (∃ data storage, parseMultipartRequest (contentTypeOf b.text) [encodeForm b.text parts]
        { options with strategy := .memory } = .ok (data, storage) ∧ Returns data parts) ↔
      ∀ p ∈ parts, p.TypeReadable := by
  obtain ⟨hdata, hok⟩ := parse_encodeForm b hne hfree hlimits
  have hreadable (p : FormPart) :
      p.TypeReadable ↔ (p.isFile → parseContentType p.headerText = p.mimetype) := by
    cases hpayload : p.payload with
    | field value => simp [FormPart.TypeReadable, FormPart.isFile, hpayload]
    | file filename hf contentType content =>
        have hmime : p.mimetype = mimetypeOf contentType := by rw [FormPart.mimetype, hpayload]
        have hfile : p.isFile = true := by rw [FormPart.isFile, hpayload]
        rw [← p.parseContentType_headerText hpayload, hmime, hfile]
        exact ⟨fun h _ => h, fun h => h rfl⟩
  constructor
  · rintro ⟨data, storage, hparse, hreturns⟩ p hp
    obtain ⟨-, -, -, hfiles⟩ := hdata data storage hparse
    rw [hreadable]
    intro hfile
    obtain ⟨filename, hname⟩ := Option.isSome_iff_exists.mp (ParserState.isFile_eq p ▸ hfile)
    have hsome (p : FormPart) : (readFile p).isSome = (p.fileRecord p.mimetype).isSome := by
      simp [readFile, FormPart.fileRecord]
    have hsame := eq_of_itemsUnder_eq hsome
      (fun name => (hfiles name).symm.trans (hreturns.files name)) p hp
    rw [readFile, FormPart.fileRecord, FormPart.fileRecord, hname] at hsame
    generalize parseContentType p.headerText = read at hsame ⊢
    exact congrArg UploadedFile.mimetype (Option.some.inj hsame)
  · intro hall
    have hmime : ∀ p ∈ parts, p.isFile → parseContentType p.headerText = p.mimetype :=
      fun p hp => (hreadable p).mp (hall p hp)
    obtain ⟨⟨data, storage⟩, hparse⟩ := hok hmime
    obtain ⟨hfieldkeys, hfilekeys, hfields, hfiles⟩ := hdata data storage hparse
    refine ⟨data, storage, hparse, hfieldkeys, hfilekeys, hfields, fun name => ?_⟩
    rw [hfiles name, itemsUnder, itemsUnder]
    have hsame : (parts.filter (·.name = name)).filterMap readFile =
        (parts.filter (·.name = name)).filterMap fun p => p.fileRecord p.mimetype := by
      refine List.filterMap_congr fun p hp => ?_
      by_cases hfile : p.isFile
      · rw [readFile, hmime p (List.mem_filter.mp hp).1 hfile]
      · have hnone : p.filename = none := by
          rw [ParserState.isFile_eq] at hfile
          simpa using hfile
        rw [readFile, FormPart.fileRecord, FormPart.fileRecord, hnone]
        rfl
    rw [hsame]

/-- A boundary. -/
def plainBoundary : Boundary where
  text := "b"
  text_ne := by decide
  printable := by decide
  unquoted := by decide

/-- A field. -/
def textField : FormPart where
  name := "x"
  name_ne := by decide
  name_ok := by decide
  name_proto := by decide
  payload := .field "é"

/-- A file. -/
def imageFile (filename : String) (h : Quotable filename) : FormPart where
  name := "f"
  name_ne := by decide
  name_ok := by decide
  name_proto := by decide
  payload := .file filename h
    (some ⟨"image/png", by decide, by decide, by decide⟩) [13, 10, 45, 45, 0, 255]

/-- A field, and a file whose content starts with a line break and dashes. -/
theorem roundTrip_iff_image :
    ∃ data storage, parseMultipartRequest (contentTypeOf plainBoundary.text)
        [encodeForm plainBoundary.text [textField, imageFile "a.png" (by decide)]]
        { strategy := .memory } = .ok (data, storage) ∧
      Returns data [textField, imageFile "a.png" (by decide)] := by
  refine (roundTrip_iff plainBoundary [textField, imageFile "a.png" (by decide)] (by simp)
    (by decide +kernel) {} ⟨by decide +kernel, by decide +kernel, by decide +kernel⟩).mpr ?_
  intro p hp
  rcases List.mem_cons.mp hp with rfl | hp
  · trivial
  · obtain rfl := List.mem_singleton.mp hp
    intro rest hrest
    have hnone : search (matchLiteral "Content-Type:".toList)
        (imageFile "a.png" (by decide)).dispositionLine.toList = none := by decide +kernel
    rw [hnone] at hrest
    cases hrest

/-- The type of a file that is called `content-type:x` comes back as `x"`. -/
theorem not_roundTrip :
    ¬ ∀ (b : Boundary) (parts : List FormPart), parts ≠ [] →
      (∀ p ∈ parts, ¬ markerOf b.text <:+: p.content) →
      ∀ options : ParseOptions, Within options parts →
      ∃ data storage, parseMultipartRequest (contentTypeOf b.text) [encodeForm b.text parts]
        { options with strategy := .memory } = .ok (data, storage) ∧ Returns data parts := by
  intro h
  have hfree : ∀ p ∈ [imageFile "content-type:x" (by decide)],
      ¬ markerOf plainBoundary.text <:+: p.content := by decide +kernel
  have hlimits : Within {} [imageFile "content-type:x" (by decide)] :=
    ⟨by decide +kernel, by decide +kernel, by decide +kernel⟩
  obtain ⟨data, storage, hparse, hreturns⟩ := h plainBoundary _ (by simp) hfree {} hlimits
  obtain ⟨-, -, -, hfiles⟩ := (parse_encodeForm plainBoundary (by simp) hfree hlimits).1 data
    storage hparse
  have hsame := (hfiles "f").symm.trans (hreturns.files "f")
  revert hsame
  decide +kernel

end Blaize.Upload
