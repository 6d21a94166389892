import Blaize.Upload.Chunking
import Blaize.Upload.Strategy

/-!
Well-formed bodies, and what the strategies make of them.

A `Part` carries the proofs that its header block and its content can be told apart from
what follows, a `Body` those for its preamble and its epilogue.  Whatever the cuts, the
parser takes the parts of a body one after the other: a cut may add a byte to a part, but
it neither hides a part nor makes one up.

* `Reads`: where the parser stands in a body, for any way to cut it;
* `files_ne_nil_iff`: **if the parser returns, it returns a file exactly if some part is
  one**;
* `same_upload_iff`: **`stream` and `temp` return what `memory` returns exactly if no part
  is a file**.
-/

namespace Blaize.Upload

open Js Search

/-! ### Bodies -/

/-- A part of a body: a header block, which neither is empty nor holds a blank line, and
content in which the marker does not occur. -/
structure Part (marker : Bytes) where
  headers : Bytes
  content : Bytes
  headers_ok : indexOf blankLine (headers ++ blankLine) = some headers.length
  headers_start : ¬ crlf <+: headers ++ blankLine
  content_ok : indexOf marker (content ++ (crlf ++ marker)) = some (content.length + 2)

variable {marker : Bytes}

/-- A part is a file if its header block gives a file name. -/
def Part.isFile (p : Part marker) : Bool :=
  match parseContentDisposition (utf8Decode p.headers) with
  | some d => d.filename.isSome
  | none => false

/-- A part behind its delimiter, and what follows it. -/
def Part.encode (p : Part marker) (next : Bytes) : Bytes :=
  p.headers ++ (blankLine ++ (p.content ++ (crlf ++ next)))

/-- The parts, each behind its delimiter, the last delimiter and the epilogue. -/
def encodeParts (epilogue : Bytes) : List (Part marker) → Bytes
  | [] => marker ++ (dashes ++ epilogue)
  | p :: ps => marker ++ (crlf ++ p.encode (encodeParts epilogue ps))

/-- A multipart body with a boundary marker, which occurs neither in the preamble nor in the
epilogue. -/
structure Body (marker : Bytes) where
  preamble : Bytes
  parts : List (Part marker)
  epilogue : Bytes
  preamble_ok : indexOf marker (preamble ++ marker) = some preamble.length
  epilogue_ok : indexOf marker (dashes ++ epilogue) = none

/-- The bytes of a body. -/
def Body.encode (b : Body marker) : Bytes := b.preamble ++ encodeParts b.epilogue b.parts

/-- Behind the marker of the next delimiter. -/
def behindDelimiter (epilogue : Bytes) : List (Part marker) → Bytes
  | [] => dashes ++ epilogue
  | p :: ps => crlf ++ p.encode (encodeParts epilogue ps)

lemma encodeParts_eq (epilogue : Bytes) (ps : List (Part marker)) :
    encodeParts epilogue ps = marker ++ behindDelimiter epilogue ps := by
  cases ps <;> rfl

lemma Part.content_first (hm : marker ≠ []) (p : Part marker) (epilogue : Bytes)
    (ps : List (Part marker)) :
    indexOf marker (p.content ++ (crlf ++ encodeParts epilogue ps)) =
      some (p.content ++ crlf).length := by
  have := indexOf_append_of_some (behindDelimiter epilogue ps) hm p.content_ok
  simpa [encodeParts_eq, crlf] using this

/-- The header block ends where it should, also behind a line break that was not skipped. -/
lemma Part.headers_first (p : Part marker) (next : Bytes) :
    indexOf blankLine (p.encode next) = some p.headers.length ∧
      indexOf blankLine (crlf ++ p.encode next) = some (p.headers.length + 2) := by
  have hfirst : indexOf blankLine (p.encode next) = some p.headers.length := by
    have := indexOf_append_of_some (p.content ++ (crlf ++ next))
      ParserState.blankLine_ne p.headers_ok
    simpa [Part.encode] using this
  refine ⟨hfirst, ?_⟩
  have hblank : ¬ blankLine <+: 13 :: 10 :: p.encode next := by
    intro h
    have hcrlf : crlf <+: p.encode next := by simpa [blankLine, crlf] using h
    refine p.headers_start (List.prefix_of_prefix_length_le hcrlf ?_ ?_)
    · exact ⟨p.content ++ (crlf ++ next), by simp [Part.encode]⟩
    · simp [blankLine, crlf]
  have := ParserState.indexOf_blankLine_crlf hblank
  rw [hfirst] at this
  exact this

/-! ### The parser on a body -/

namespace ParserState

variable {s s' : ParserState} {epilogue rest : Bytes} {F : Prop}

/-- The bytes that are still unread once the buffer has lost its first `n`. -/
lemma unread_drop {unread : Bytes} {n : ℕ} (h : s.buffer ++ rest = unread)
    (hn : n ≤ s.buffer.length) : s.buffer.drop n ++ rest = unread.drop n := by
  rw [← h, List.drop_append_of_le_length hn]

/-- A place in a body: in front of the delimiter of the next part, in front of a header
block, in the content of a part up to the line break behind it, or behind the last
delimiter. -/
inductive Spot (marker : Bytes) where
  | delimiter (ps : List (Part marker))
  | headers (p : Part marker) (ps : List (Part marker))
  | content (region : Bytes) (ps : List (Part marker))
  | ended

/-- The parser stands at a place of a body whose unread bytes are `unread`. -/
def StandsAt (epilogue : Bytes) (s : ParserState) (unread : Bytes) : Spot marker → Prop
  | .delimiter ps =>
      s.isFinished = false ∧ s.stage = .boundary ∧ ∃ skipped,
        unread = skipped ++ encodeParts epilogue ps ∧ indexOf marker unread = some skipped.length
  | .headers p ps =>
      s.isFinished = false ∧ s.stage = .headers ∧ ∃ skipped,
        (skipped = [] ∨ skipped = crlf) ∧ unread = skipped ++ p.encode (encodeParts epilogue ps)
  | .content region ps =>
      s.isFinished = false ∧ s.stage = .content ∧ unread = region ++ encodeParts epilogue ps ∧
        indexOf marker unread = some region.length
  | .ended => s.isFinished = false → s.stage ≠ .boundary ∧ indexOf marker unread = none

/-- The place behind the marker of a delimiter. -/
def Spot.behind : List (Part marker) → Spot marker
  | [] => .ended
  | p :: ps => .headers p ps

/-- Behind a marker the parser finds the next part or the end. -/
lemma stands_behindMarker {i : ℕ} {ps : List (Part s.boundary)}
    (h : StandsAt epilogue s (s.buffer ++ rest) (.delimiter ps))
    (hepi : indexOf s.boundary (dashes ++ epilogue) = none)
    (hi : indexOf s.boundary s.buffer = some i) :
    ∃ tail, s.buffer.drop (i + s.boundary.length) = tail ∧
      tail ++ rest = behindDelimiter epilogue ps ∧
      StandsAt epilogue (s.behindMarker tail) ((s.behindMarker tail).buffer ++ rest)
        (Spot.behind ps) := by
  obtain ⟨hfin, -, skipped, hunread, hfirst⟩ := h
  have hle := length_le_of_indexOf s.boundary_ne hi
  obtain rfl : skipped.length = i :=
    Option.some.inj (hfirst.symm.trans (indexOf_append_of_some _ s.boundary_ne hi))
  refine ⟨_, rfl, ?_⟩
  generalize htail : s.buffer.drop (skipped.length + s.boundary.length) = tail
  have hbehind : tail ++ rest = behindDelimiter epilogue ps := by
    rw [← htail, unread_drop hunread hle, encodeParts_eq, ← List.append_assoc,
      ← List.length_append, List.drop_left]
  have hnot {pat : Bytes} (hpat : ¬ pat <+: behindDelimiter epilogue ps) : ¬ pat <+: tail :=
    fun h => hpat (hbehind ▸ h.trans (List.prefix_append tail rest))
  refine ⟨hbehind, ?_⟩
  cases ps with
  | nil =>
      intro hunfinished
      unfold behindMarker at hunfinished ⊢
      split
      next hdashes =>
        rw [if_pos hdashes] at hunfinished
        cases hunfinished
      next =>
        refine ⟨by rintro ⟨⟩, ?_⟩
        dsimp only
        rw [if_neg (hnot (by simp [behindDelimiter, crlf, dashes])), hbehind]
        exact hepi
  | cons p ps =>
      have hdashes : ¬ dashes <+: tail := hnot (by simp [behindDelimiter, crlf, dashes])
      rw [behindMarker, if_neg hdashes]
      split
      next hcrlf =>
        refine ⟨hfin, rfl, [], .inl rfl, ?_⟩
        obtain ⟨y, rfl⟩ := hcrlf
        simpa [behindDelimiter, crlf] using hbehind
      next => exact ⟨hfin, rfl, crlf, .inr rfl, hbehind⟩

/-- The blank line that the parser finds is the one that ends the header block. -/
lemma headers_end (skipped : Bytes) (p : Part marker) (next : Bytes) {n : ℕ}
    (hskipped : skipped = [] ∨ skipped = crlf)
    (hn : indexOf blankLine (skipped ++ p.encode next) = some n) :
    n = (skipped ++ p.headers).length := by
  obtain ⟨h1, h2⟩ := p.headers_first next
  rcases hskipped with rfl | rfl
  · rw [List.nil_append, h1] at hn
    exact (Option.some.inj hn).symm
  · rw [h2] at hn
    rw [← Option.some.inj hn, List.length_append, Nat.add_comm]
    rfl

/-- In front of a header block the parser takes exactly its bytes for it. -/
lemma stands_headers {n : ℕ} {p : Part marker} {ps : List (Part marker)}
    (h : StandsAt epilogue s (s.buffer ++ rest) (.headers p ps))
    (hn : indexOf blankLine s.buffer = some n) :
    (s.buffer.take n = p.headers ∨ s.buffer.take n = 13 :: 10 :: p.headers) ∧
      s.buffer.drop (n + 4) ++ rest = p.content ++ (crlf ++ encodeParts epilogue ps) := by
  obtain ⟨-, -, skipped, hskipped, hunread⟩ := h
  have hle : n + 4 ≤ s.buffer.length := length_le_of_indexOf blankLine_ne hn
  obtain rfl := headers_end skipped p _ hskipped
    (hunread ▸ indexOf_append_of_some rest blankLine_ne hn)
  have hsplit : skipped ++ p.encode (encodeParts epilogue ps) =
      skipped ++ p.headers ++ (blankLine ++ (p.content ++ (crlf ++ encodeParts epilogue ps))) := by
    rw [Part.encode, List.append_assoc]
  have htake : s.buffer.take (skipped ++ p.headers).length = skipped ++ p.headers := by
    calc s.buffer.take (skipped ++ p.headers).length
        = (s.buffer ++ rest).take (skipped ++ p.headers).length :=
          (List.take_append_of_le_length (by omega)).symm
      _ = skipped ++ p.headers := by rw [hunread, hsplit, List.take_left]
  constructor
  · rw [htake]
    rcases hskipped with rfl | rfl
    · exact .inl rfl
    · exact .inr rfl
  · rw [unread_drop hunread hle, hsplit, ← List.drop_drop, List.drop_left]
    rfl

/-- What is read from the header block of a part, also behind a line break. -/
lemma parse_headers {headers : Bytes} {p : Part marker}
    (h : headers = p.headers ∨ headers = 13 :: 10 :: p.headers) :
    parseContentDisposition (utf8Decode headers) =
        parseContentDisposition (utf8Decode p.headers) ∧
      parseContentType (utf8Decode headers) = parseContentType (utf8Decode p.headers) := by
  rcases h with rfl | rfl
  · exact ⟨rfl, rfl⟩
  · exact ⟨parseContentDisposition_crlf p.headers, parseContentType_crlf p.headers⟩

/-- Behind the header block of a part the parser takes its content. -/
lemma stands_beginPart {headers : String} {buffer : Bytes} {d : Disposition}
    {p : Part s.boundary} {ps : List (Part s.boundary)} (hfin : s.isFinished = false)
    (hrest : buffer ++ rest = p.content ++ (crlf ++ encodeParts epilogue ps))
    (hs : s.beginPart headers buffer d = .ok s') :
    StandsAt epilogue s' (s'.buffer ++ rest) (.content (p.content ++ crlf) ps) := by
  rw [beginPart_ok hs]
  refine ⟨hfin, rfl, ?_, ?_⟩
  · exact hrest.trans (List.append_assoc _ _ _).symm
  · refine (congrArg (indexOf s.boundary) hrest).trans ?_
    exact p.content_first s.boundary_ne epilogue ps

/-- Content that is counted leaves the marker in sight. -/
lemma stands_count {region : Bytes} {ps : List (Part s.boundary)}
    (h : StandsAt epilogue s (s.buffer ++ rest) (.content region ps))
    (hi : indexOf s.boundary s.buffer = none)
    (hs : { s with buffer := s.buffer.drop (s.buffer.length - s.boundary.length) }.takeContent
      (s.buffer.take (s.buffer.length - s.boundary.length)) = .ok s') :
    s.buffer.length < region.length + s.boundary.length ∧
      StandsAt epilogue s' (s'.buffer ++ rest)
        (.content (region.drop (s.buffer.length - s.boundary.length)) ps) := by
  obtain ⟨hfin, hstage, hunread, hfirst⟩ := h
  have hlt := lt_of_indexOf_append s.boundary_ne hi hfirst
  have hdrop := unread_drop hunread (Nat.sub_le s.buffer.length s.boundary.length)
  obtain ⟨n, cs, st, rfl⟩ := takeContent_frame hs
  refine ⟨hlt, hfin, hstage, ?_, ?_⟩
  · exact hdrop.trans (List.drop_append_of_le_length (by omega))
  · refine (congrArg (indexOf s.boundary) hdrop).trans ?_
    rw [← hunread, List.length_drop]
    exact indexOf_drop_of_some s.boundary_ne hfirst (by omega)

/-- A part ends at its line break, and the parser stands at the next delimiter. -/
lemma stands_complete {j : ℕ} {t : ParserState} {region : Bytes} {ps : List (Part s.boundary)}
    (h : StandsAt epilogue s (s.buffer ++ rest) (.content region ps))
    (hj : indexOf s.boundary s.buffer = some j)
    (ht : { s with buffer := s.buffer.drop j }.takeContent (s.buffer.take (j - 2)) = .ok t) :
    j = region.length ∧
      StandsAt epilogue t.completePart (t.completePart.buffer ++ rest) (.delimiter ps) := by
  obtain ⟨hfin, -, hunread, hfirst⟩ := h
  have hle := length_le_of_indexOf s.boundary_ne hj
  obtain rfl : region.length = j :=
    Option.some.inj (hfirst.symm.trans (indexOf_append_of_some _ s.boundary_ne hj))
  have hrest : s.buffer.drop region.length ++ rest = encodeParts epilogue ps := by
    rw [unread_drop hunread (by omega), List.drop_left]
  obtain ⟨n, cs, st, rfl⟩ := takeContent_frame ht
  rw [completePart_buffer]
  refine ⟨rfl, (completePart_frame _).2.2.trans hfin, rfl, [], hrest, ?_⟩
  refine (congrArg (indexOf s.boundary) hrest).trans ?_
  rw [encodeParts_eq]
  exact indexOf_prefix s.boundary_ne _

/-- Behind the last delimiter no part is completed. -/
lemma stands_ended (h : s.stage ≠ .boundary ∧ indexOf s.boundary (s.buffer ++ rest) = none)
    (hs : s.processCurrentStage = .ok (some s')) :
    (s'.stage ≠ .boundary ∧ indexOf s.boundary (s'.buffer ++ rest) = none) ∧
      s'.files = s.files := by
  obtain ⟨hstage, hnone⟩ := h
  have hdrop {n : ℕ} (hn : n ≤ s.buffer.length) :
      indexOf s.boundary (s.buffer.drop n ++ rest) = none := by
    rw [unread_drop rfl hn]
    exact indexOf_drop_of_none s.boundary_ne hnone
  obtain ⟨hb, -⟩ | ⟨-, n, d, hn, -, ht⟩ | ⟨-, -, -, ht⟩ | ⟨-, j, t, hj, -, -⟩ := step_cases hs
  · exact absurd hb hstage
  · rw [beginPart_ok ht]
    exact ⟨⟨nofun, hdrop (length_le_of_indexOf blankLine_ne hn)⟩, rfl⟩
  · obtain ⟨n, cs, st, rfl⟩ := takeContent_frame ht
    exact ⟨⟨hstage, hdrop (Nat.sub_le _ _)⟩, rfl⟩
  · rw [indexOf_append_of_some _ s.boundary_ne hj] at hnone
    cases hnone

/-- The parser stands in a body whose unread bytes are `unread`.  `F` says that there is a
file: among those returned so far, the current part or the parts that follow. -/
inductive Reads (marker epilogue : Bytes) (F : Prop) (s : ParserState) (unread : Bytes) : Prop
  | boundary (skipped : Bytes) (ps : List (Part marker)) (hfin : s.isFinished = false)
      (hstage : s.stage = .boundary) (hunread : unread = skipped ++ encodeParts epilogue ps)
      (hfirst : indexOf marker unread = some skipped.length)
      (hF : F ↔ s.files.entries ≠ [] ∨ ∃ p ∈ ps, p.isFile)
  | headers (skipped : Bytes) (p : Part marker) (ps : List (Part marker))
      (hfin : s.isFinished = false) (hstage : s.stage = .headers)
      (hskipped : skipped = [] ∨ skipped = crlf)
      (hunread : unread = skipped ++ p.encode (encodeParts epilogue ps))
      (hF : F ↔ s.files.entries ≠ [] ∨ p.isFile ∨ ∃ q ∈ ps, q.isFile)
  | content (region : Bytes) (ps : List (Part marker)) (name : String)
      (hfin : s.isFinished = false) (hstage : s.stage = .content)
      (hunread : unread = region ++ encodeParts epilogue ps)
      (hfirst : indexOf marker unread = some region.length)
      (hname : s.currentField = some name) (hne : name ≠ "")
      (hF : F ↔ s.files.entries ≠ [] ∨ s.currentFilename.isSome ∨ ∃ q ∈ ps, q.isFile)
  | ended (hended : s.isFinished = false → s.stage ≠ .boundary ∧ indexOf marker unread = none)
      (hF : F ↔ s.files.entries ≠ [])

/-- What the end of a part does to the files. -/
lemma completePart_files {name : String} (hname : s.currentField = some name) (hne : name ≠ "") :
    s.completePart.files =
      match s.currentFilename with
      | some filename => addToCollection s.files name (s.currentFile name filename)
      | none => s.files := by
  unfold completePart finalizeCurrentPart
  rw [hname]
  dsimp only
  rw [if_neg hne]
  cases s.currentFilename <;> rfl

lemma addToCollection_ne_nil {τ : Type} (m : OrdMap String (List τ)) (k : String) (v : τ) :
    (addToCollection m k v).entries ≠ [] := by
  intro h
  have hget : (addToCollection m k v).get k = some ((m.get k).getD [] ++ [v]) :=
    OrdMap.get_set_self m k _
  rw [OrdMap.get, h] at hget
  cases hget

/-- **One turn of the loop reads on**, whatever has arrived. -/
theorem reads_step (hm : s.boundary = marker)
    (hepi : indexOf marker (dashes ++ epilogue) = none)
    (h : Reads marker epilogue F s (s.buffer ++ rest))
    (hfin : s.isFinished = false) (hs : s.processCurrentStage = .ok (some s')) :
    Reads marker epilogue F s' (s'.buffer ++ rest) := by
  subst hm
  cases h with
  | boundary skipped ps _ hstage hunread hfirst hF =>
      obtain ⟨-, i, hi, rfl⟩ | ⟨h, -⟩ | ⟨h, -⟩ | ⟨h, -⟩ := step_cases hs
      · obtain ⟨tail, htail, -, hstands⟩ :=
          stands_behindMarker ⟨hfin, hstage, skipped, hunread, hfirst⟩ hepi hi
        rw [htail]
        have hfiles : (s.behindMarker tail).files = s.files := by
          unfold behindMarker
          split <;> rfl
        cases ps with
        | nil => exact .ended hstands (by simpa [hfiles] using hF)
        | cons p ps =>
            obtain ⟨hfin', hstage', skipped', hskipped, hunread'⟩ := hstands
            exact .headers skipped' p ps hfin' hstage' hskipped hunread'
              (by simpa [hfiles] using hF)
      all_goals simp [hstage] at h
  | headers skipped p ps _ hstage hskipped hunread hF =>
      obtain ⟨h, -⟩ | ⟨-, n, d, hn, hd, ht⟩ | ⟨h, -⟩ | ⟨h, -⟩ := step_cases hs
      · simp [hstage] at h
      · obtain ⟨hheaders, hrest⟩ := stands_headers ⟨hfin, hstage, skipped, hskipped, hunread⟩ hn
        have hfile : p.isFile = d.filename.isSome := by
          rw [(parse_headers hheaders).1] at hd
          rw [Part.isFile, hd]
        have hok := beginPart_ok ht
        obtain ⟨hfin', hstage', hunread', hfirst'⟩ := stands_beginPart hfin hrest ht
        refine .content _ ps d.name hfin' hstage' hunread' hfirst' ?_ (name_ne_of_parse hd) ?_
        · rw [hok]
        · rw [hok]
          exact hfile ▸ hF
      all_goals simp [hstage] at h
  | content region ps name _ hstage hunread hfirst hname hne hF =>
      obtain ⟨h, -⟩ | ⟨h, -⟩ | ⟨-, hi, -, ht⟩ | ⟨-, j, t, hj, ht, rfl⟩ := step_cases hs
      · simp [hstage] at h
      · simp [hstage] at h
      · obtain ⟨-, hfin', hstage', hunread', hfirst'⟩ :=
          stands_count ⟨hfin, hstage, hunread, hfirst⟩ hi ht
        obtain ⟨n, cs, st, rfl⟩ := takeContent_frame ht
        exact .content _ ps name hfin' hstage' hunread' hfirst' hname hne hF
      · obtain ⟨-, hfin', hstage', skipped, hunread', hfirst'⟩ :=
          stands_complete ⟨hfin, hstage, hunread, hfirst⟩ hj ht
        refine .boundary skipped ps hfin' hstage' hunread' hfirst' ?_
        obtain ⟨n, cs, st, rfl⟩ := takeContent_frame ht
        rw [hF, completePart_files (s := { s with
          buffer := s.buffer.drop j, currentContentLength := n, currentBufferChunks := cs,
          storage := st }) hname hne]
        dsimp only
        cases s.currentFilename with
        | none => simp
        | some filename => simp [addToCollection_ne_nil]
  | ended hended hF =>
      obtain ⟨hended', hfiles⟩ := stands_ended (hended hfin) hs
      exact .ended (fun _ => hended') (hfiles ▸ hF)

/-- The chunks of a body, cut anywhere. -/
lemma reads_chunks {chunks : List Bytes} (hm : s.boundary = marker)
    (hepi : indexOf marker (dashes ++ epilogue) = none)
    (h : Reads marker epilogue F s (s.buffer ++ chunks.flatten))
    (hs : s.processChunks chunks = .ok s') :
    s'.boundary = marker ∧ Reads marker epilogue F s' s'.buffer := by
  have hstart : s.boundary = marker ∧
      Reads marker epilogue F s (s.buffer ++ (chunks.flatten ++ [])) := ⟨hm, by simpa using h⟩
  have hend : s'.boundary = marker ∧ Reads marker epilogue F s' (s'.buffer ++ []) := by
    refine processChunks_unread (I := fun s unread =>
      s.boundary = marker ∧ Reads marker epilogue F s unread) ?_ ?_ hstart hs
    · rintro s buffer unread ⟨hm, hread⟩
      refine ⟨hm, ?_⟩
      cases hread with
      | boundary skipped ps hfin hstage hunread hfirst hF =>
          exact .boundary skipped ps hfin hstage hunread hfirst hF
      | headers skipped p ps hfin hstage hskipped hunread hF =>
          exact .headers skipped p ps hfin hstage hskipped hunread hF
      | content region ps name hfin hstage hunread hfirst hname hne hF =>
          exact .content region ps name hfin hstage hunread hfirst hname hne hF
      | ended hended hF => exact .ended hended hF
    · rintro s s' rest - hfin ⟨hm, hread⟩ hstep
      exact ⟨(step_frame hstep).1.trans hm, reads_step hm hepi hread hfin hstep⟩
  simpa using hend

/-- Where the loop has stopped and nothing is unread, the body is over. -/
lemma files_ne_nil_of_reads (hm : s.boundary = marker) (hrun : s.run = .ok s)
    (h : Reads marker epilogue F s s.buffer) : F ↔ s.files.entries ≠ [] := by
  subst hm
  cases h with
  | boundary skipped ps hfin hstage hunread hfirst hF =>
      rw [indexOf_of_stopped hrun hfin (by simp [hstage])] at hfirst
      cases hfirst
  | headers skipped p ps hfin hstage hskipped hunread hF =>
      have hnone := indexOf_blankLine_of_stopped hrun hfin hstage
      obtain ⟨h1, h2⟩ := p.headers_first (encodeParts epilogue ps)
      rw [hunread] at hnone
      rcases hskipped with rfl | rfl
      · rw [List.nil_append, h1] at hnone
        cases hnone
      · rw [h2] at hnone
        cases hnone
  | content region ps name hfin hstage hunread hfirst hname hne hF =>
      rw [indexOf_of_stopped hrun hfin (by simp [hstage])] at hfirst
      cases hfirst
  | ended hended hF => exact hF

/-- **If the parser returns on a body, it returns a file exactly if some part is one**,
whatever the cuts. -/
theorem files_ne_nil_iff {boundary : String} {options : ParseOptions}
    (body : Body (markerOf boundary)) {chunks : List Bytes}
    (hchunks : chunks.flatten = body.encode)
    (hs : (createParserState boundary options).processChunks chunks = .ok s) :
    s.files.entries ≠ [] ↔ ∃ p ∈ body.parts, p.isFile := by
  have hm : markerOf boundary ≠ [] := (createParserState boundary options).boundary_ne
  have hfirst : indexOf (markerOf boundary) body.encode = some body.preamble.length := by
    have := indexOf_append_of_some (behindDelimiter body.epilogue body.parts) hm
      body.preamble_ok
    rwa [List.append_assoc, ← encodeParts_eq] at this
  have hstart : Reads (markerOf boundary) body.epilogue (∃ p ∈ body.parts, p.isFile)
      (createParserState boundary options) ([] ++ chunks.flatten) := by
    rw [List.nil_append, hchunks]
    exact .boundary body.preamble body.parts rfl rfl rfl hfirst (by simp [createParserState,
      OrdMap.empty])
  obtain ⟨hm', hread⟩ := reads_chunks rfl body.epilogue_ok hstart hs
  have hrun := processChunks_stopped (run_of_end (.inl rfl)) hs
  exact (files_ne_nil_of_reads hm' hrun hread).symm

end ParserState

/-- **`stream` and `temp` return what `memory` returns exactly if no part is a file.**  For
every body, every way to cut it and all limits under which `memory` returns: the other
strategies return the same fields, and the same name, size and content for every file, if
and only if there is no file. -/
theorem same_upload_iff {contentType boundary : String}
    (hboundary : extractBoundary contentType = some boundary)
    (body : Body (markerOf boundary)) (chunks : List Bytes)
    (hchunks : chunks.flatten = body.encode) (options : ParseOptions) (σ : Strategy)
    (hσ : σ ≠ .memory) (r : MultipartData × Storage)
    (hr : parseMultipartRequest contentType chunks { options with strategy := .memory } = .ok r) :
    (∃ r', parseMultipartRequest contentType chunks { options with strategy := σ } = .ok r' ∧
        SameUpload .memory σ r r') ↔
      ∀ p ∈ body.parts, ¬ p.isFile := by
  obtain ⟨s, hs, hfiles⟩ := files_of_parse hboundary hr
  have hreadable : Readable r := readable_of_parse hr
  have hlose : parseMultipartRequest contentType chunks { options with strategy := σ } =
      .ok (r.1.lose σ, r.2) := by
    rw [parseMultipartRequest_forget contentType chunks options hσ, hr]
    rfl
  calc (∃ r', parseMultipartRequest contentType chunks { options with strategy := σ } = .ok r' ∧
        SameUpload .memory σ r r') ↔ SameUpload .memory σ r (r.1.lose σ, r.2) := by
        simp [hlose]
    _ ↔ r.1.files = [] := sameUpload_lose_iff hσ hreadable
    _ ↔ ¬ ∃ p ∈ body.parts, p.isFile := by
        rw [hfiles, ← ParserState.files_ne_nil_iff body hchunks hs, ne_eq, not_not]
    _ ↔ ∀ p ∈ body.parts, ¬ p.isFile := by simp

/-- A body with one part. -/
def onePart (p : Part (markerOf "b")) : Body (markerOf "b") where
  preamble := []
  parts := [p]
  epilogue := crlf
  preamble_ok := by decide +kernel
  epilogue_ok := by decide +kernel

/-- A field. -/
def fieldPart : Part (markerOf "b") where
  headers := utf8Encode "Content-Disposition: form-data; name=\"x\""
  content := [97, 98, 99]
  headers_ok := by decide +kernel
  headers_start := by decide +kernel
  content_ok := by decide +kernel

/-- A file. -/
def filePart : Part (markerOf "b") where
  headers := utf8Encode "Content-Disposition: form-data; name=\"x\"; filename=\"q\""
  content := [255, 0]
  headers_ok := by decide +kernel
  headers_start := by decide +kernel
  content_ok := by decide +kernel

/-- A field, cut in two. -/
theorem same_upload_iff_field :
    ∃ r', parseMultipartRequest "multipart/form-data; boundary=b"
        [(onePart fieldPart).encode.take 9, (onePart fieldPart).encode.drop 9]
        { strategy := .temp } = .ok r' ∧
      SameUpload .memory .temp (⟨[("x", ["abc"])], []⟩, {}) r' :=
  (same_upload_iff (by decide +kernel) (onePart fieldPart)
    [(onePart fieldPart).encode.take 9, (onePart fieldPart).encode.drop 9] (by decide +kernel) {}
    .temp (by decide) (⟨[("x", ["abc"])], []⟩, {}) (by decide +kernel)).mpr (by decide +kernel)

/-- The two bytes of a file are lost under `stream`. -/
theorem not_same_upload :
    ¬ ∀ (contentType boundary : String), extractBoundary contentType = some boundary →
      ∀ (body : Body (markerOf boundary)) (chunks : List Bytes), chunks.flatten = body.encode →
      ∀ (options : ParseOptions) (σ : Strategy) (r : MultipartData × Storage),
      parseMultipartRequest contentType chunks { options with strategy := .memory } = .ok r →
      ∃ r', parseMultipartRequest contentType chunks { options with strategy := σ } = .ok r' ∧
        SameUpload .memory σ r r' := by
  intro h
  have hr : parseMultipartRequest "multipart/form-data; boundary=b" [(onePart filePart).encode]
      { strategy := .memory } = .ok (⟨[], [("x", [{
        originalname := "q"
        fieldname := "x"
        mimetype := "application/octet-stream"
        size := 2
        stream := some (.ofBuffer [255, 0])
        buffer := some [255, 0]
        tempPath := none }])]⟩, {}) := by decide +kernel
  obtain ⟨r', hr', hsame⟩ := h "multipart/form-data; boundary=b" "b" (by decide +kernel)
    (onePart filePart) [(onePart filePart).encode] (by simp) {} .stream _ hr
  have hlose := parseMultipartRequest_forget "multipart/form-data; boundary=b"
    [(onePart filePart).encode] {} (σ := .stream) (by decide)
  rw [hr'] at hlose
  rw [Except.ok.inj (hlose.trans (congrArg _ hr))] at hsame
  have hreadable := @readable_of_parse _ _ {} _ hr
  have hfiles := (sameUpload_lose_iff (σ := .stream) (by decide) hreadable).mp hsame
  cases hfiles

end Blaize.Upload
