import Blaize.Upload.Bodies

/-!
Bodies that were cut off.

The parser accepts what it has read once a part is complete, and a part is complete as soon
as the marker behind it has arrived.  `isFinished` is set at the last delimiter, but
`finalize` does not look at it.

* `InFirst`: the first part is not complete yet;
* `Accepts`: the limits are kept, whatever the cuts;
* `truncated_refused_iff`: **a body that is cut off is refused exactly if the cut is in front
  of the end of the marker behind the first part**.
-/

namespace Blaize.Upload

open Js Search

variable {marker : Bytes}

/-- The body up to the marker behind its first part. -/
def Body.throughFirst (body : Body marker) (p : Part marker) : Bytes :=
  body.preamble ++ (marker ++ (crlf ++ p.encode marker))

/-- The options accept a part: its header block is readable, a file has an allowed type, and
the content is below its limit. -/
def Part.Fits (options : ParseOptions) (p : Part marker) : Prop :=
  ∃ d, parseContentDisposition (utf8Decode p.headers) = some d ∧
    (d.filename.isSome → options.allowedMimeTypes = [] ∨
      parseContentType (utf8Decode p.headers) ∈ options.allowedMimeTypes) ∧
    p.content.length < if d.filename.isSome then options.maxFileSize else options.maxFieldSize

/-- The options accept the parts, and there are not too many files. -/
def Body.Fits (options : ParseOptions) (body : Body marker) : Prop :=
  (∀ p ∈ body.parts, p.Fits options) ∧ body.parts.countP Part.isFile ≤ options.maxFiles

lemma Body.encode_cons {body : Body marker} {p : Part marker} {ps : List (Part marker)}
    (h : body.parts = p :: ps) :
    body.encode = body.throughFirst p ++ behindDelimiter body.epilogue ps := by
  rw [Body.encode, h, encodeParts, encodeParts_eq]
  simp [Body.throughFirst, Part.encode]

namespace ParserState

variable {s s' : ParserState} {epilogue missing rest : Bytes}

/-! ### Up to the first marker behind a part -/

/-- No part is complete, and the parser stands in front of the end of the first one. -/
def InFirst (epilogue : Bytes) (p : Part marker) (ps : List (Part marker)) (s : ParserState)
    (unread : Bytes) : Prop :=
  s.boundary = marker ∧ s.hasProcessedAnyPart = false ∧
    (StandsAt epilogue s unread (.delimiter (p :: ps)) ∨
      StandsAt epilogue s unread (.headers p ps) ∨
      ∃ region, StandsAt epilogue s unread (.content region ps))

/-- While less than the marker behind the first part has arrived, no part is complete. -/
lemma inFirst_step {p : Part marker} {ps : List (Part marker)}
    (hepi : indexOf marker (dashes ++ epilogue) = none)
    (hrest : (behindDelimiter epilogue ps).length < rest.length)
    (h : InFirst epilogue p ps s (s.buffer ++ rest)) (hfin : s.isFinished = false)
    (hs : s.processCurrentStage = .ok (some s')) :
    InFirst epilogue p ps s' (s'.buffer ++ rest) := by
  obtain ⟨rfl, hpart, hspot⟩ := h
  refine ⟨(step_frame hs).1, ?_⟩
  rcases hspot with hat | hat | ⟨region, hat⟩
  · obtain ⟨-, i, hi, rfl⟩ | ⟨h, -⟩ | ⟨h, -⟩ | ⟨h, -⟩ := step_cases hs
    · obtain ⟨tail, htail, -, hstands⟩ := stands_behindMarker hat hepi hi
      rw [htail]
      refine ⟨?_, .inr (.inl hstands)⟩
      unfold behindMarker
      split <;> exact hpart
    all_goals simp [hat.2.1] at h
  · obtain ⟨h, -⟩ | ⟨-, n, d, hn, -, ht⟩ | ⟨h, -⟩ | ⟨h, -⟩ := step_cases hs
    · simp [hat.2.1] at h
    · have hstands := stands_beginPart hfin (stands_headers hat hn).2 ht
      refine ⟨?_, .inr (.inr ⟨_, hstands⟩)⟩
      rw [beginPart_ok ht]
      exact hpart
    all_goals simp [hat.2.1] at h
  · obtain ⟨h, -⟩ | ⟨h, -⟩ | ⟨-, hi, -, ht⟩ | ⟨-, j, t, hj, ht, rfl⟩ := step_cases hs
    · simp [hat.2.1] at h
    · simp [hat.2.1] at h
    · have hstands := (stands_count hat hi ht).2
      refine ⟨?_, .inr (.inr ⟨_, hstands⟩)⟩
      obtain ⟨n, cs, st, rfl⟩ := takeContent_frame ht
      exact hpart
    · -- the marker behind the part would have arrived
      have hle := length_le_of_indexOf s.boundary_ne hj
      have hlen := congrArg List.length hat.2.2.1
      obtain ⟨rfl, -⟩ := stands_complete hat hj ht
      rw [encodeParts_eq] at hlen
      simp only [List.length_append] at hlen
      omega

/-! ### Within the limits -/

lemma takeContent_ok {chunk : Bytes}
    (h : chunk ≠ [] → s.currentContentLength + chunk.length ≤ s.maxSize) :
    ∃ t, s.takeContent chunk = .ok t := by
  rw [takeContent_eq]
  split
  · exact ⟨s, rfl⟩
  · next hne => exact ⟨_, if_neg (Nat.not_lt.mpr (h hne))⟩

lemma takeContent_length {chunk : Bytes} (h : s.takeContent chunk = .ok s') :
    s'.currentContentLength = s.currentContentLength + chunk.length := by
  rw [takeContent_eq] at h
  split at h
  · next hnil => rw [← Except.ok.inj h, hnil, List.length_nil, Nat.add_zero]
  · split at h
    · cases h
    · obtain ⟨cs, st, he⟩ := appendContent_frame s chunk (s.currentContentLength + chunk.length)
      rw [← Except.ok.inj h, he]

/-- The end of a part changes neither the number of files nor what was seen of the body. -/
lemma completePart_fileCount (s : ParserState) : s.completePart.fileCount = s.fileCount ∧
    s.completePart.hasFoundValidBoundary = s.hasFoundValidBoundary := by
  unfold completePart finalizeCurrentPart
  dsimp only
  split
  · exact ⟨rfl, rfl⟩
  · split
    · exact ⟨rfl, rfl⟩
    · split <;> exact ⟨rfl, rfl⟩

/-- Parts that the options accept, with the files begun so far. -/
def Room (s : ParserState) (qs : List (Part marker)) : Prop :=
  (∀ q ∈ qs, q.Fits s.options) ∧ s.fileCount + qs.countP Part.isFile ≤ s.options.maxFiles

/-- The parser stands in a body with the parts `parts` within the limits.  A cut may add a byte
to the content of a part. -/
inductive Accepts (epilogue : Bytes) (parts : List (Part marker)) (s : ParserState)
    (unread : Bytes) : Prop
  | delimiter (qs : List (Part marker)) (hat : StandsAt epilogue s unread (.delimiter qs))
      (hroom : s.Room qs)
      (hseen : s.hasFoundValidBoundary ∧ s.hasProcessedAnyPart ∨ qs = parts)
  | headers (q : Part marker) (qs : List (Part marker))
      (hat : StandsAt epilogue s unread (.headers q qs)) (hroom : s.Room (q :: qs))
      (hfound : s.hasFoundValidBoundary) (hseen : s.hasProcessedAnyPart ∨ q :: qs = parts)
  | content (region : Bytes) (qs : List (Part marker))
      (hat : StandsAt epilogue s unread (.content region qs)) (hroom : s.Room qs)
      (hsize : s.currentContentLength + region.length ≤ s.maxSize + 1)
      (hfound : s.hasFoundValidBoundary) (hseen : s.hasProcessedAnyPart ∨ qs = parts.tail)
  | ended (hstage : s.stage = .headers) (hunread : unread = dashes ++ epilogue)
      (hfound : s.hasFoundValidBoundary) (hseen : s.hasProcessedAnyPart)

/-- New input does not change where the parser stands. -/
lemma Accepts.of_buffer {parts : List (Part marker)} {unread : Bytes} (buffer : Bytes)
    (h : Accepts epilogue parts s unread) :
    Accepts epilogue parts { s with buffer := buffer } unread := by
  cases h with
  | delimiter qs hat hroom hseen => exact .delimiter qs hat hroom hseen
  | headers q qs hat hroom hfound hseen => exact .headers q qs hat hroom hfound hseen
  | content region qs hat hroom hsize hfound hseen =>
      exact .content region qs hat hroom hsize hfound hseen
  | ended hstage hunread hfound hseen => exact .ended hstage hunread hfound hseen

/-- Within the limits no turn fails. -/
lemma accepts_safe {parts : List (Part marker)} (hm : s.boundary = marker)
    (hrest : epilogue.length < rest.length) (h : Accepts epilogue parts s (s.buffer ++ rest)) :
    ∃ next, s.processCurrentStage = .ok next := by
  subst hm
  cases h with
  | delimiter qs hat => exact ⟨_, processCurrentStage_boundary hat.2.1⟩
  | headers q qs hat hroom =>
      rw [processCurrentStage_headers hat.2.1, processHeaders]
      split
      · exact ⟨none, rfl⟩
      · next n hn =>
        obtain ⟨d, hd, htype, -⟩ := hroom.1 q List.mem_cons_self
        obtain ⟨hdisposition, hcontentType⟩ := parse_headers (stands_headers hat hn).1
        have hfiles := hroom.2
        dsimp only
        rw [hdisposition, hd]
        dsimp only [beginPart]
        rw [if_neg, if_neg]
        · exact ⟨_, rfl⟩
        · rintro ⟨hfile, hne, hnot⟩
          exact (htype hfile).elim hne fun hmem => hnot (hcontentType ▸ hmem)
        · rintro ⟨hfile, hle⟩
          have hcount : Part.isFile q = true := by rw [Part.isFile, hd]; exact hfile
          rw [List.countP_cons_of_pos hcount] at hfiles
          omega
  | content region qs hat hroom hsize =>
      rw [processCurrentStage_content hat.2.1, processContent]
      split
      · next hi =>
        dsimp only
        split
        · exact ⟨none, rfl⟩
        · have hlt := lt_of_indexOf_append s.boundary_ne hi hat.2.2.2
          have hroom : s.currentContentLength +
              (s.buffer.take (s.buffer.length - s.boundary.length)).length ≤ s.maxSize := by
            rw [List.length_take]
            omega
          obtain ⟨t, ht⟩ := takeContent_ok (s := { s with
            buffer := s.buffer.drop (s.buffer.length - s.boundary.length) }) fun _ => hroom
          exact ⟨_, by rw [ht]; rfl⟩
      · next j hj =>
        obtain rfl : region.length = j :=
          Option.some.inj (hat.2.2.2.symm.trans (indexOf_append_of_some _ s.boundary_ne hj))
        have hroom (hne : s.buffer.take (region.length - 2) ≠ []) :
            s.currentContentLength + (s.buffer.take (region.length - 2)).length ≤ s.maxSize := by
          have hpos := List.length_pos_iff.mpr hne
          rw [List.length_take] at hpos ⊢
          omega
        obtain ⟨t, ht⟩ :=
          takeContent_ok (s := { s with buffer := s.buffer.drop region.length }) hroom
        exact ⟨_, by rw [ht]; rfl⟩
  | ended hstage hunread =>
      have hshort := congrArg List.length hunread
      have hnone : indexOf blankLine s.buffer = none := by
        by_contra hne
        obtain ⟨n, hn⟩ := Option.ne_none_iff_exists'.mp hne
        have hle : n + 4 ≤ s.buffer.length := length_le_of_indexOf blankLine_ne hn
        simp only [List.length_append, dashes, List.length_cons, List.length_nil] at hshort
        omega
      rw [processCurrentStage_headers hstage, processHeaders, hnone]
      exact ⟨none, rfl⟩

/-- One turn of the loop keeps to the limits, while the last delimiter is not complete. -/
lemma accepts_step {parts : List (Part marker)} (hm : s.boundary = marker) (hparts : parts ≠ [])
    (hepi : indexOf marker (dashes ++ epilogue) = none)
    (hrest : epilogue.length < rest.length)
    (h : Accepts epilogue parts s (s.buffer ++ rest)) (hfin : s.isFinished = false)
    (hs : s.processCurrentStage = .ok (some s')) :
    Accepts epilogue parts s' (s'.buffer ++ rest) := by
  subst hm
  cases h with
  | delimiter qs hat hroom hseen =>
      obtain ⟨-, i, hi, rfl⟩ | ⟨h, -⟩ | ⟨h, -⟩ | ⟨h, -⟩ := step_cases hs
      · obtain ⟨tail, htail, hbehind, hstands⟩ := stands_behindMarker hat hepi hi
        rw [htail]
        cases qs with
        | nil =>
            have hlen : tail.length + rest.length = epilogue.length + 1 + 1 := by
              simpa [behindDelimiter, dashes] using congrArg List.length hbehind
            have hshort {pat : Bytes} (hpat : pat.length = 2) : ¬ pat <+: tail :=
              fun h => by have := h.length_le; omega
            have hflags := hseen.resolve_right fun h => hparts h.symm
            rw [behindMarker, if_neg (hshort rfl), if_neg (hshort rfl)]
            exact .ended rfl hbehind rfl hflags.2
        | cons q qs =>
            have hframe : (s.behindMarker tail).fileCount = s.fileCount ∧
                (s.behindMarker tail).options = s.options ∧
                (s.behindMarker tail).hasFoundValidBoundary = true ∧
                (s.behindMarker tail).hasProcessedAnyPart = s.hasProcessedAnyPart := by
              unfold behindMarker
              split <;> exact ⟨rfl, rfl, rfl, rfl⟩
            obtain ⟨hcount, hoptions, hfound, hpart⟩ := hframe
            refine .headers q qs hstands ?_ hfound ?_
            · rw [Room, hcount, hoptions]
              exact hroom
            · rw [hpart]
              exact hseen.imp And.right id
      all_goals simp [hat.2.1] at h
  | headers q qs hat hroom hfound hseen =>
      obtain ⟨h, -⟩ | ⟨-, n, d, hn, hd, ht⟩ | ⟨h, -⟩ | ⟨h, -⟩ := step_cases hs
      · simp [hat.2.1] at h
      · obtain ⟨hheaders, hcontent⟩ := stands_headers hat hn
        obtain ⟨d', hd', -, hsize⟩ := hroom.1 q List.mem_cons_self
        obtain rfl : d' = d :=
          Option.some.inj (hd'.symm.trans ((parse_headers hheaders).1.symm.trans hd))
        have hfile : q.isFile = d'.filename.isSome := by rw [Part.isFile, hd']
        have hstands := stands_beginPart hfin hcontent ht
        rw [beginPart_ok ht] at hstands ⊢
        refine .content _ qs hstands ⟨fun r hr => hroom.1 r (List.mem_cons_of_mem _ hr), ?_⟩ ?_
          hfound (hseen.imp id (by rintro rfl; rfl))
        · have hfiles := hroom.2
          rw [List.countP_cons, hfile] at hfiles
          dsimp only
          split at hfiles
          · rw [if_pos ‹_›]
            omega
          · rw [if_neg ‹_›]
            omega
        · simp only [maxSize, List.length_append, crlf, List.length_cons, List.length_nil]
          omega
      all_goals simp [hat.2.1] at h
  | content region qs hat hroom hsize hfound hseen =>
      obtain ⟨h, -⟩ | ⟨h, -⟩ | ⟨-, hi, hlt, ht⟩ | ⟨-, j, t, hj, ht, rfl⟩ := step_cases hs
      · simp [hat.2.1] at h
      · simp [hat.2.1] at h
      · obtain ⟨hle, hstands⟩ := stands_count hat hi ht
        have hlen := takeContent_length ht
        obtain ⟨n, cs, st, rfl⟩ := takeContent_frame ht
        refine .content _ qs hstands hroom ?_ hfound hseen
        dsimp only at hlen ⊢
        rw [hlen, List.length_take, List.length_drop]
        show _ ≤ s.maxSize + 1
        omega
      · obtain ⟨-, hstands⟩ := stands_complete hat hj ht
        obtain ⟨n, cs, st, rfl⟩ := takeContent_frame ht
        obtain ⟨hcount, hseen'⟩ := completePart_fileCount { s with
          buffer := s.buffer.drop j, currentContentLength := n, currentBufferChunks := cs,
          storage := st }
        refine .delimiter qs hstands ?_ (.inl ⟨hseen'.trans hfound, rfl⟩)
        rw [Room, hcount, (completePart_frame _).2.1]
        exact hroom
  | ended hstage hunread hfound hseen =>
      obtain ⟨h, -⟩ | ⟨-, n, d, hn, -⟩ | ⟨h, -⟩ | ⟨h, -⟩ := step_cases hs
      · simp [hstage] at h
      · have hle : n + 4 ≤ s.buffer.length := length_le_of_indexOf blankLine_ne hn
        have hshort := congrArg List.length hunread
        simp only [List.length_append, dashes, List.length_cons, List.length_nil] at hshort
        omega
      all_goals simp [hstage] at h

/-- Where the loop has stopped with the marker behind the first part in the input, a part is
complete. -/
lemma seen_of_accepts {p : Part marker} {ps : List (Part marker)} (hm : s.boundary = marker)
    (hrun : s.run = .ok s) (hmissing : missing.length ≤ (behindDelimiter epilogue ps).length)
    (h : Accepts epilogue (p :: ps) s (s.buffer ++ missing)) :
    s.hasFoundValidBoundary ∧ s.hasProcessedAnyPart := by
  subst hm
  have hpos := s.boundary_length_pos
  cases h with
  | delimiter qs hat hroom hseen =>
      refine hseen.resolve_right ?_
      rintro rfl
      obtain ⟨hfin, hstage, skipped, hunread, hfirst⟩ := hat
      have hlt := lt_of_indexOf_append s.boundary_ne
        (indexOf_of_stopped hrun hfin (by simp [hstage])) hfirst
      have hlen := congrArg List.length hunread
      simp only [encodeParts, Part.encode, encodeParts_eq, List.length_append] at hlen
      omega
  | headers q qs hat hroom hfound hseen =>
      refine ⟨hfound, hseen.resolve_right ?_⟩
      intro heq
      obtain ⟨rfl, rfl⟩ := List.cons.inj heq
      obtain ⟨hfin, hstage, skipped, hskipped, hunread⟩ := hat
      have hnone := indexOf_blankLine_of_stopped hrun hfin hstage
      have hfirst : indexOf blankLine (s.buffer ++ missing) =
          some (skipped ++ q.headers).length := by
        obtain ⟨h1, h2⟩ := q.headers_first (encodeParts epilogue qs)
        rw [hunread]
        rcases hskipped with rfl | rfl
        · exact h1
        · rw [h2, List.length_append, Nat.add_comm]
          rfl
      have hlt := lt_of_indexOf_append blankLine_ne hnone hfirst
      have hlen := congrArg List.length hunread
      simp only [Part.encode, encodeParts_eq, List.length_append] at hlen hlt
      omega
  | content region qs hat hroom hsize hfound hseen =>
      refine ⟨hfound, hseen.resolve_right ?_⟩
      rintro rfl
      obtain ⟨hfin, hstage, hunread, hfirst⟩ := hat
      have hlt := lt_of_indexOf_append s.boundary_ne
        (indexOf_of_stopped hrun hfin (by simp [hstage])) hfirst
      have hlen := congrArg List.length hunread
      simp only [encodeParts_eq, List.length_append] at hlen
      omega
  | ended hstage hunread hfound hseen => exact ⟨hfound, hseen⟩

end ParserState

/-! ### The whole parse -/

section Parse

variable {contentType boundary : String} {chunks : List Bytes} {options : ParseOptions}

/-- A parse fails exactly if a chunk does or if no part is complete at its end. -/
lemma parse_error_iff (hboundary : extractBoundary contentType = some boundary) :
    (∃ e, parseMultipartRequest contentType chunks options = .error e) ↔
      ∀ s, (createParserState boundary options).processChunks chunks = .ok s →
        ¬ (s.hasFoundValidBoundary ∧ s.hasProcessedAnyPart) := by
  rw [parseMultipartRequest_eq hboundary]
  generalize (createParserState boundary options).processChunks chunks = result
  cases result with
  | error e => exact iff_of_true ⟨e, rfl⟩ fun s hs => by cases hs
  | ok s =>
      have hfinalize : (∃ e, s.finalize = .error e) ↔
          ¬ (s.hasFoundValidBoundary ∧ s.hasProcessedAnyPart) := by
        unfold ParserState.finalize
        cases s.hasFoundValidBoundary <;> cases s.hasProcessedAnyPart <;> simp
      have hmap : (∃ e, (s.finalize.map fun data => (data, s.cleanup)) = .error e) ↔
          ∃ e, s.finalize = .error e := by
        cases s.finalize <;> simp [Except.map]
      refine (hmap.trans hfinalize).trans ⟨fun h t ht => Except.ok.inj ht ▸ h, fun h => h s rfl⟩

variable (hboundary : extractBoundary contentType = some boundary)
  (body : Body (markerOf boundary)) {p : Part (markerOf boundary)}
  {ps : List (Part (markerOf boundary))} (hparts : body.parts = p :: ps)

include hparts in
/-- In front of a body the parser stands in front of its first part. -/
lemma stands_start {missing : Bytes} (hbody : chunks.flatten ++ missing = body.encode) :
    ParserState.StandsAt body.epilogue (createParserState boundary options)
      ([] ++ (chunks.flatten ++ missing)) (.delimiter (p :: ps)) := by
  have hm : markerOf boundary ≠ [] := (createParserState boundary options).boundary_ne
  refine ⟨rfl, rfl, body.preamble, ?_, ?_⟩
  · rw [List.nil_append, hbody, Body.encode, hparts]
  · have := indexOf_append_of_some (behindDelimiter body.epilogue (p :: ps)) hm body.preamble_ok
    rwa [List.append_assoc, ← encodeParts_eq, ← hparts, ← Body.encode, ← hbody] at this

include hboundary hparts in
/-- **A body that is cut off is refused if less than the marker behind its first part has
arrived, and, within the limits, only then**, whatever the chunks. -/
theorem truncated_refused_iff (hpre : chunks.flatten <+: body.encode)
    (hcut : chunks.flatten.length + body.epilogue.length < body.encode.length) :
    (chunks.flatten.length < (body.throughFirst p).length →
      ∃ e, parseMultipartRequest contentType chunks options = .error e) ∧
    (body.Fits options → (∃ e, parseMultipartRequest contentType chunks options = .error e) →
      chunks.flatten.length < (body.throughFirst p).length) := by
  obtain ⟨missing, hbody⟩ := hpre
  have hstart := @stands_start boundary chunks options body p ps hparts missing hbody
  have hlen : chunks.flatten.length + missing.length = body.encode.length := by
    rw [← hbody, List.length_append]
  have hsplit : body.encode.length =
      (body.throughFirst p).length + (behindDelimiter body.epilogue ps).length := by
    rw [Body.encode_cons hparts, List.length_append]
  rw [parse_error_iff hboundary]
  constructor
  · rintro hshort s hs ⟨-, hpart⟩
    obtain ⟨-, hnone, -⟩ := ParserState.processChunks_unread
      (I := ParserState.InFirst body.epilogue p ps) (fun _ _ _ h => h)
      (fun s s' rest hrest hfin h hstep =>
        ParserState.inFirst_step body.epilogue_ok (by omega) h hfin hstep)
      ⟨rfl, rfl, .inl hstart⟩ hs
    rw [hnone] at hpart
    cases hpart
  · intro hfits herror
    by_contra hlong
    let I (s : ParserState) (unread : Bytes) : Prop :=
      s.boundary = markerOf boundary ∧ ParserState.Accepts body.epilogue (p :: ps) s unread
    have hbuffer (s : ParserState) (buffer unread : Bytes) (h : I s unread) :
        I { s with buffer := buffer } unread := ⟨h.1, h.2.of_buffer buffer⟩
    have hstep (s s' : ParserState) (rest : Bytes) (hrest : missing.length ≤ rest.length)
        (hfin : s.isFinished = false) (h : I s (s.buffer ++ rest))
        (hstep : s.processCurrentStage = .ok (some s')) : I s' (s'.buffer ++ rest) :=
      ⟨(ParserState.step_frame hstep).1.trans h.1, ParserState.accepts_step h.1 (by simp)
        body.epilogue_ok (by omega) h.2 hfin hstep⟩
    have hroom : (createParserState boundary options).Room (p :: ps) := by
      rw [Body.Fits, hparts] at hfits
      simpa [ParserState.Room, createParserState] using hfits
    have hbegin : I (createParserState boundary options) ([] ++ (chunks.flatten ++ missing)) :=
      ⟨rfl, .delimiter _ hstart hroom (.inr rfl)⟩
    obtain ⟨s, hs⟩ := ParserState.processChunks_ok hbuffer hstep
      (fun s rest hrest hfin h => ParserState.accepts_safe h.1 (by omega) h.2) hbegin
    obtain ⟨hm, hend⟩ := ParserState.processChunks_unread hbuffer hstep hbegin hs
    have hstop := ParserState.processChunks_stopped (ParserState.run_of_end (.inl rfl)) hs
    exact herror s hs (ParserState.seen_of_accepts hm hstop (by omega) hend)

end Parse

lemma onePart_field_fits : (onePart fieldPart).Fits {} := by
  refine ⟨fun p hp => ?_, by decide +kernel⟩
  obtain rfl := List.mem_singleton.mp hp
  exact ⟨⟨"x", none⟩, by decide +kernel, by decide, by decide +kernel⟩

/-- A body with one field, cut in its header block and behind its content. -/
theorem truncated_refused_iff_field :
    (∃ e, parseMultipartRequest "multipart/form-data; boundary=b"
        [(onePart fieldPart).encode.take 9, ((onePart fieldPart).encode.take 20).drop 9] {} =
      .error e) ∧
    ¬ ∃ e, parseMultipartRequest "multipart/form-data; boundary=b"
        [(onePart fieldPart).encode.take 57] {} = .error e := by
  constructor
  · exact (truncated_refused_iff (by decide +kernel) (onePart fieldPart) rfl (by decide +kernel)
      (by decide +kernel)).1 (by decide +kernel)
  · intro h
    exact absurd ((truncated_refused_iff (by decide +kernel) (onePart fieldPart) rfl
      (by decide +kernel) (by decide +kernel)).2 onePart_field_fits h) (by decide +kernel)

/-- Without its last four bytes, the two dashes and the line break, the body is accepted. -/
theorem not_truncated_refused :
    ¬ ∀ (contentType boundary : String), extractBoundary contentType = some boundary →
      ∀ (body : Body (markerOf boundary)), body.parts ≠ [] →
      ∀ (chunks : List Bytes), chunks.flatten <+: body.encode →
      chunks.flatten.length + body.epilogue.length < body.encode.length →
      ∀ options, ∃ e, parseMultipartRequest contentType chunks options = .error e := by
  intro h
  have hrun : parseMultipartRequest "multipart/form-data; boundary=b"
      [(onePart fieldPart).encode.take 57] {} = .ok (⟨[("x", ["abc"])], []⟩, {}) := by
    decide +kernel
  obtain ⟨e, he⟩ := h "multipart/form-data; boundary=b" "b" (by decide +kernel)
    (onePart fieldPart) (by simp [onePart]) [(onePart fieldPart).encode.take 57]
    (by decide +kernel) (by decide +kernel) {}
  rw [hrun] at he
  cases he

end Blaize.Upload
