import Blaize.Upload.Loop

/-!
How a body is cut into chunks.

The parser searches the buffer for the marker `--boundary` and keeps back as many bytes as
the marker is long.  A delimiter of a body is a marker that the format puts between two
parts or at the end (`Delimiter`).  Two kinds of cuts near a delimiter go wrong: one byte
before the end of the marker, where the first byte of the line break in front of it has
already been counted as content, and behind the marker, where the two bytes that tell the
end from another part are not there yet.

* `Harmless`: the cuts at which nothing of this shows;
* `step_extend`: **one turn of the loop at a harmless cut loses nothing**;
* `chunking_irrelevant`: **two ways to cut a body at harmless places give the same fields
  and files**;
* `not_chunking_irrelevant`: a cut before the last byte of a marker adds a byte to a field.
-/

namespace Blaize.Upload

open Js Search

/-! ### Delimiters -/

/-- Where the header block behind the delimiter at `i` begins. -/
def headersStart (marker body : Bytes) (i : ℕ) : ℕ :=
  if crlf <+: body.drop (i + marker.length) then i + marker.length + 2 else i + marker.length

/-- `Delimiter marker body a i`: at `i` stands a delimiter of the body, which ends the content
that begins at `a`.  No content ends at the first delimiter. -/
inductive Delimiter (marker body : Bytes) : ℕ → ℕ → Prop
  | first {i : ℕ} (hi : FirstFrom marker body 0 i) : Delimiter marker body i i
  | next {a i h j : ℕ} (hi : Delimiter marker body a i)
      (hopen : ¬ dashes <+: body.drop (i + marker.length))
      (hh : FirstFrom blankLine body (headersStart marker body i) h)
      (hj : FirstFrom marker body (h + 4) j) : Delimiter marker body (h + 4) j

lemma Delimiter.occurs {marker body : Bytes} {a i : ℕ} (h : Delimiter marker body a i) :
    Occurs marker body i := by
  cases h with
  | first hi => exact hi.occurs
  | next _ _ _ hj => exact hj.occurs

/-- The cut at `c` shows nowhere: it is not before the last byte of a delimiter that ends
content with a line break, and it is behind a delimiter only where the two bytes that it
separates from the marker do not matter.  They matter in front of an empty header block,
and where they are the dashes of the last delimiter and a blank line follows. -/
def Harmless (marker body : Bytes) (c : ℕ) : Prop :=
  ∀ a i, Delimiter marker body a i →
    (a + 2 ≤ i → c + 1 ≠ i + marker.length) ∧
    (c = i + marker.length ∨ c = i + marker.length + 1 →
      ¬ blankLine <+: body.drop (i + marker.length) ∧
      (dashes <+: body.drop (i + marker.length) →
        indexOf blankLine (body.drop (i + marker.length)) = none))

/-- A cut with no marker around it is harmless. -/
lemma harmless_of_not_occurs {marker body : Bytes} {c : ℕ}
    (h : ∀ i < c + 2, i + marker.length ≤ c + 1 → c ≤ i + marker.length + 1 →
      ¬ Occurs marker body i) : Harmless marker body c := by
  intro a i hdel
  refine ⟨fun _ hc => ?_, fun hc => ?_⟩
  · exact absurd hdel.occurs (h i (by omega) (by omega) (by omega))
  · exact absurd hdel.occurs (h i (by omega) (by omega) (by omega))

/-- The offsets at which a list of chunks cuts the body. -/
def cuts : List Bytes → List ℕ
  | [] => []
  | [_] => []
  | c :: d :: chunks => c.length :: (cuts (d :: chunks)).map (c.length + ·)

namespace ParserState

variable {marker body rest : Bytes} {s s' : ParserState}

/-- More input. -/
def extend (s : ParserState) (rest : Bytes) : ParserState := { s with buffer := s.buffer ++ rest }

@[simp] lemma extend_buffer (s : ParserState) : (s.extend rest).buffer = s.buffer ++ rest := rfl

@[simp] lemma extend_boundary (s : ParserState) : (s.extend rest).boundary = s.boundary := rfl

/-! ### Where the parser stands -/

/-- The parser stands at offset `p` of the body, as the format has it. -/
def Tracks (marker body : Bytes) (stage : Stage) (p : ℕ) : Prop :=
  match stage with
  | .boundary => p = 0 ∨ ∃ a, Delimiter marker body a p
  | .headers => ∃ a i, Delimiter marker body a i ∧
      ∀ h, FirstFrom blankLine body p h →
        ¬ dashes <+: body.drop (i + marker.length) ∧
          FirstFrom blankLine body (headersStart marker body i) h
  | .content => ∃ a, a ≤ p ∧ ∀ j, FirstFrom marker body p j → Delimiter marker body a j

/-- The parser has read the body up to `rest`: it is through, or its buffer is the last
piece of what it has read. -/
structure At (marker body rest : Bytes) (s : ParserState) : Prop where
  marker_eq : s.boundary = marker
  memory : s.options.strategy = .memory
  place : s.isFinished = false → ∃ p, p + s.buffer.length + rest.length = body.length ∧
    body.drop p = s.buffer ++ rest ∧ Tracks marker body s.stage p

/-- No blank line begins with the line break behind a marker, so its search may begin there. -/
lemma firstFrom_headersStart {i h : ℕ} (hblank : ¬ blankLine <+: body.drop (i + marker.length))
    (hh : FirstFrom blankLine body (i + marker.length) h) :
    FirstFrom blankLine body (headersStart marker body i) h := by
  unfold headersStart
  split
  · next hcrlf =>
    refine hh.of_le (Nat.le_add_right _ _) ?_
    have hle := hh.le
    by_contra hlt
    have hcases : h = i + marker.length ∨ h = i + marker.length + 1 := by omega
    rcases hcases with rfl | rfl
    · exact hblank hh.occurs
    · -- the second byte of a line break begins no blank line
      obtain ⟨y, hy⟩ := hcrlf
      have hocc := hh.occurs
      rw [Occurs, ← List.drop_drop, ← hy] at hocc
      simp [blankLine, crlf] at hocc
  · exact hh

/-- The first delimiter, or the one the parser stands at. -/
lemma Tracks.delimiter {p i : ℕ} (h : Tracks marker body .boundary p) 
    (hi : FirstFrom marker body p (p + i)) : ∃ a, Delimiter marker body a (p + i) := by
  rcases h with rfl | ⟨a, ha⟩
  · exact ⟨_, .first hi⟩
  · rcases Nat.eq_zero_or_pos i with rfl | hpos
    · exact ⟨a, ha⟩
    · exact absurd ha.occurs (hi.first p (Nat.le_refl p) (by omega))

/-! ### Behind a marker -/

lemma behindMarker_extend (s : ParserState) (rest tail : Bytes) :
    (s.extend rest).behindMarker tail = s.behindMarker tail := by
  unfold behindMarker
  split <;> rfl

/-- Two bytes are a prefix of what has arrived, or of nothing that can still arrive. -/
lemma prefix_append_iff {pat tail : Bytes} (hpat : pat.length = 2) (h : 2 ≤ tail.length) :
    pat <+: tail ++ rest ↔ pat <+: tail :=
  ⟨fun hp => List.prefix_of_prefix_length_le hp (List.prefix_append _ _) (by omega),
    fun hp => hp.trans (List.prefix_append _ _)⟩

/-- With two bytes behind the marker the decision is made. -/
lemma behindMarker_append {tail : Bytes} (h : 2 ≤ tail.length) :
    (s.behindMarker tail).extend rest = s.behindMarker (tail ++ rest) := by
  have hd : dashes <+: tail ++ rest ↔ dashes <+: tail := prefix_append_iff rfl h
  have hc : crlf <+: tail ++ rest ↔ crlf <+: tail := prefix_append_iff rfl h
  by_cases hdashes : dashes <+: tail
  · rw [behindMarker, behindMarker, if_pos hdashes, if_pos (hd.mpr hdashes)]
    rfl
  · rw [behindMarker, behindMarker, if_neg hdashes, if_neg (mt hd.mp hdashes)]
    by_cases hcrlf : crlf <+: tail
    · rw [if_pos hcrlf, if_pos (hc.mpr hcrlf), List.drop_append_of_le_length h]
      rfl
    · rw [if_neg hcrlf, if_neg (mt hc.mp hcrlf)]
      rfl

lemma outcome_of_some (hend : ¬ (s.buffer = [] ∨ s.isFinished))
    (h : s.processCurrentStage = .ok (some s')) : s.outcome = s'.outcome := by
  rw [outcome, outcome, run_of_some hend h]

/-- The same part, announced by header blocks that are read alike. -/
lemma beginPart_relabeled {headers headers' : String}
    (h : parseContentType headers = parseContentType headers') (b b' buffer : Bytes)
    (d : Disposition) :
    BothRelated Relabeled ({ s with buffer := b }.beginPart headers buffer d)
      ({ s with buffer := b' }.beginPart headers' buffer d) := by
  unfold beginPart
  rw [h]
  dsimp only
  split
  · exact .inl ⟨_, rfl, rfl⟩
  · split
    · exact .inl ⟨_, rfl, rfl⟩
    · exact .inr ⟨_, _, rfl, rfl, [], headers', rfl, rfl⟩

/-- The search for a blank line passes over a line break that begins none. -/
lemma indexOf_blankLine_crlf {y : Bytes} (h : ¬ blankLine <+: 13 :: 10 :: y) :
    indexOf blankLine (13 :: 10 :: y) = (indexOf blankLine y).map (· + 2) := by
  rw [indexOf, if_neg (by rwa [List.isPrefixOf_iff_prefix]), indexOf,
    if_neg (by simp [blankLine, crlf])]
  cases indexOf blankLine y <;> rfl

/-- A line break in front of a header block is not seen. -/
lemma outcome_crlf (hstage : s.stage = .headers) (hfin : s.isFinished = false) {y : Bytes}
    (h : ¬ blankLine <+: 13 :: 10 :: y) :
    { s with buffer := 13 :: 10 :: y }.outcome = { s with buffer := y }.outcome := by
  have hstep (b : Bytes) : { s with buffer := b }.processCurrentStage =
      { s with buffer := b }.processHeaders := by
    simp only [processCurrentStage, hstage]
  have hindex := indexOf_blankLine_crlf h
  cases hy : indexOf blankLine y with
  | none =>
      rw [hy] at hindex
      rw [outcome_of_none, outcome_of_none]
      · rfl
      · rw [hstep, processHeaders]
        simp only [hy]
      · rw [hstep, processHeaders]
        simp only [hindex, Option.map_none]
  | some n =>
      rw [hy] at hindex
      have hend : ¬ (y = [] ∨ s.isFinished) := by
        have := length_le_of_indexOf blankLine_ne hy
        rintro (rfl | hf)
        · simp [blankLine, crlf] at this
        · simp [hfin] at hf
      have hend' : ¬ (13 :: 10 :: y = [] ∨ s.isFinished) := by simp [hfin]
      have hrel : BothRelated (Option.Rel Relabeled)
          { s with buffer := 13 :: 10 :: y }.processCurrentStage
          { s with buffer := y }.processCurrentStage := by
        rw [hstep, hstep, processHeaders, processHeaders]
        simp only [hindex, hy, Option.map_some, List.take_succ_cons, List.drop_succ_cons,
          parseContentDisposition_crlf]
        split
        · exact .inl ⟨_, rfl, rfl⟩
        · exact (beginPart_relabeled (parseContentType_crlf _) _ _ _ _).map
            fun a b hab => Option.Rel.some hab
      obtain ⟨e, hx, hy'⟩ | ⟨a, b, hx, hy', hab⟩ := hrel
      · rw [outcome_of_error (run_of_error hend' hx), outcome_of_error (run_of_error hend hy')]
      · cases hab with
        | none => rw [outcome_of_none hx, outcome_of_none hy']; rfl
        | some hab =>
            rw [outcome_of_some hend' hx, outcome_of_some hend hy']
            exact outcome_relabeled hab

/-- The header stage on bytes that should have been looked at behind the marker. -/
lemma outcome_behindMarker (hfin : s.isFinished = false) {tail : Bytes}
    (hblank : ¬ blankLine <+: tail) (hclose : dashes <+: tail → indexOf blankLine tail = none) :
    { s with
      buffer := tail
      hasFoundValidBoundary := true
      stage := .headers
      currentHeaders := "" }.outcome = (s.behindMarker tail).outcome := by
  unfold behindMarker
  by_cases hdashes : dashes <+: tail
  · rw [if_pos hdashes, outcome_of_none, outcome_of_end (.inr rfl)]
    · rfl
    · simp only [processCurrentStage, processHeaders, hclose hdashes]
  · rw [if_neg hdashes]
    by_cases hcrlf : crlf <+: tail
    · obtain ⟨y, rfl⟩ := hcrlf
      rw [if_pos (List.prefix_append _ _)]
      exact outcome_crlf (s := { s with
        hasFoundValidBoundary := true, stage := .headers, currentHeaders := "" }) rfl hfin hblank
    · rw [if_neg hcrlf]

/-! ### One turn of the loop -/

/-- The boundary stage at a harmless cut. -/
lemma boundary_extend {c : ℕ} (hat : At marker body rest s) (hcut : Harmless marker body c)
    (hc : c + rest.length = body.length) (hfin : s.isFinished = false)
    (hstage : s.stage = .boundary) (hs : s.processCurrentStage = .ok (some s')) :
    At marker body rest s' ∧ (s'.extend rest).outcome = (s.extend rest).outcome := by
  obtain ⟨rfl, hmem, hplace⟩ := hat
  obtain ⟨p, hlen, hdrop, htracks⟩ := hplace hfin
  rw [hstage] at htracks
  rw [processCurrentStage_boundary hstage, Except.ok.injEq] at hs
  cases hi : indexOf s.boundary s.buffer with
  | none =>
      rw [processBoundary, hi] at hs
      cases hs
  | some i =>
      have hle := length_le_of_indexOf s.boundary_ne hi
      have hiExt : indexOf s.boundary (s.buffer ++ rest) = some i :=
        indexOf_append_of_some _ s.boundary_ne hi
      obtain ⟨a, hdel⟩ := htracks.delimiter (i := i) (firstFrom_of_indexOf (hdrop ▸ hiExt))
      rw [processBoundary_of_some hi] at hs
      obtain rfl := Option.some.inj hs
      -- what stands behind the marker, here and in the whole body
      generalize htail : s.buffer.drop (i + s.boundary.length) = tail
      have htailLen : tail.length = s.buffer.length - (i + s.boundary.length) := by
        rw [← htail, List.length_drop]
      have hbehind : body.drop (p + i + s.boundary.length) = tail ++ rest := by
        rw [Nat.add_assoc, ← List.drop_drop, hdrop, List.drop_append_of_le_length hle, htail]
      have hout : (s.extend rest).outcome = (s.behindMarker (tail ++ rest)).outcome := by
        refine outcome_of_some (not_end hfin (buffer_ne_of_indexOf s.boundary_ne hiExt)) ?_
        rw [processCurrentStage_boundary (s := s.extend rest) hstage,
          processBoundary_of_some (s := s.extend rest) hiExt, behindMarker_extend, extend_buffer,
          extend_boundary, List.drop_append_of_le_length hle, htail]
      rcases Nat.lt_or_ge tail.length 2 with hshort | hlong
      · -- the cut is behind the marker, and the parser looks for headers at once
        obtain ⟨hblank, hclose⟩ := (hcut a _ hdel).2 (by omega)
        rw [hbehind] at hblank hclose
        have hlonger {pat : Bytes} (hpat : pat.length = 2) : ¬ pat <+: tail :=
          fun h => by have := h.length_le; omega
        have hs' : s.behindMarker tail = { s with
            buffer := tail
            hasFoundValidBoundary := true
            stage := .headers
            currentHeaders := "" } := by
          rw [behindMarker, if_neg (hlonger rfl), if_neg (hlonger rfl)]
        rw [hout, ← outcome_behindMarker hfin hblank hclose, hs']
        refine ⟨⟨rfl, hmem, fun _ => ⟨p + i + s.boundary.length, ?_, hbehind, a, p + i, hdel, ?_⟩⟩,
          rfl⟩
        · dsimp only
          omega
        · intro h hh
          refine ⟨fun hdashes => ?_, firstFrom_headersStart (hbehind ▸ hblank) hh⟩
          have hindex := indexOf_of_firstFrom blankLine_ne hh
          rw [hbehind, hclose (hbehind ▸ hdashes)] at hindex
          cases hindex
      · rw [behindMarker_append hlong, hout]
        refine ⟨?_, rfl⟩
        have hd : dashes <+: tail ++ rest ↔ dashes <+: tail := prefix_append_iff rfl hlong
        have hcr : crlf <+: tail ++ rest ↔ crlf <+: tail := prefix_append_iff rfl hlong
        unfold behindMarker
        by_cases hdashes : dashes <+: tail
        · rw [if_pos hdashes]
          exact ⟨rfl, hmem, fun h => absurd h (by simp)⟩
        · rw [if_neg hdashes]
          have hopen : ¬ dashes <+: body.drop (p + i + s.boundary.length) := by
            rw [hbehind, hd]
            exact hdashes
          refine ⟨rfl, hmem, fun _ => ⟨headersStart s.boundary body (p + i), ?_, ?_, a, p + i, hdel,
            fun h hh => ⟨hopen, hh⟩⟩⟩
          all_goals
            dsimp only [headersStart]
            simp only [hbehind, hcr]
            split
          · rw [List.length_drop]
            omega
          · omega
          · rw [← List.drop_drop, hbehind, List.drop_append_of_le_length hlong]
          · exact hbehind

lemma beginPart_extend (s : ParserState) (headers : String) (buffer : Bytes) (d : Disposition) :
    (s.extend rest).beginPart headers (buffer ++ rest) d =
      (s.beginPart headers buffer d).map (extend · rest) := by
  unfold beginPart extend
  dsimp only
  split
  · rfl
  · split <;> rfl

/-- A header block that has arrived is read as it is. -/
lemma processHeaders_extend {h : ℕ} (hh : indexOf blankLine s.buffer = some h) :
    (s.extend rest).processHeaders = s.processHeaders.map (Option.map (extend · rest)) := by
  have hle : h + 4 ≤ s.buffer.length := length_le_of_indexOf blankLine_ne hh
  have hhExt : indexOf blankLine (s.extend rest).buffer = some h :=
    indexOf_append_of_some _ blankLine_ne hh
  rw [processHeaders, processHeaders, hh, hhExt]
  simp only [extend_buffer, List.take_append_of_le_length (show h ≤ s.buffer.length by omega),
    List.drop_append_of_le_length hle, beginPart_extend]
  split
  · rfl
  · cases s.beginPart _ _ _ <;> rfl

/-- The header stage at any cut. -/
lemma headers_extend (hat : At marker body rest s) (hfin : s.isFinished = false)
    (hstage : s.stage = .headers) (hs : s.processCurrentStage = .ok (some s')) :
    At marker body rest s' ∧ (s'.extend rest).outcome = (s.extend rest).outcome := by
  obtain ⟨rfl, hmem, hplace⟩ := hat
  obtain ⟨p, hlen, hdrop, htracks⟩ := hplace hfin
  rw [hstage] at htracks
  obtain ⟨a, i, hdel, hblank⟩ := htracks
  rw [processCurrentStage_headers hstage] at hs
  cases hh : indexOf blankLine s.buffer with
  | none =>
      rw [processHeaders, hh] at hs
      cases hs
  | some h =>
      have hle : h + 4 ≤ s.buffer.length := length_le_of_indexOf blankLine_ne hh
      have hhExt : indexOf blankLine (s.buffer ++ rest) = some h :=
        indexOf_append_of_some _ blankLine_ne hh
      have hout : (s.extend rest).outcome = (s'.extend rest).outcome := by
        refine outcome_of_some (not_end hfin (buffer_ne_of_indexOf blankLine_ne hhExt)) ?_
        rw [processCurrentStage_headers (s := s.extend rest) hstage, processHeaders_extend hh, hs]
        rfl
      refine ⟨?_, hout.symm⟩
      rw [processHeaders, hh] at hs
      dsimp only at hs
      split at hs
      · cases hs
      · obtain ⟨t, ht, rfl⟩ := map_some_eq_ok (f := id) hs
        obtain rfl := beginPart_ok ht
        obtain ⟨hopen, hfirst⟩ := hblank _ (firstFrom_of_indexOf (hdrop ▸ hhExt))
        refine ⟨rfl, hmem, fun _ => ⟨p + h + 4, ?_, ?_, ?_⟩⟩
        · simp only [List.length_drop]
          omega
        · rw [Nat.add_assoc, ← List.drop_drop, hdrop, List.drop_append_of_le_length hle]
        · exact ⟨p + h + 4, Nat.le_refl _, fun j hj => .next hdel hopen hfirst hj⟩

/-! ### The content stage -/

/-- The content of the current part grows by `chunk`, and the buffer is `buffer`. -/
def withContent (s : ParserState) (chunk buffer : Bytes) : ParserState :=
  { s with
    buffer := buffer
    currentContentLength := s.currentContentLength + chunk.length
    currentBufferChunks := s.currentBufferChunks ++ if chunk = [] then [] else [chunk] }

/-- A piece of content under the strategy `memory`. -/
lemma takeContent_memory (hmem : s.options.strategy = .memory) (chunk buffer : Bytes) :
    { s with buffer := buffer }.takeContent chunk =
      if chunk ≠ [] ∧ s.maxSize < s.currentContentLength + chunk.length then
        .error (.sizeExceedsLimit s.currentFilename.isSome
          (s.currentContentLength + chunk.length) s.maxSize s.currentField s.currentFilename)
      else .ok (s.withContent chunk buffer) := by
  rw [takeContent_eq, withContent]
  by_cases hchunk : chunk = []
  · simp [hchunk]
  · simp only [hchunk, if_false, ne_eq, not_false_eq_true, true_and]
    split
    · next h => rw [if_pos (by exact h)]; rfl
    · next h =>
      rw [if_neg (by exact h)]
      simp only [appendContent, processFileChunk, hmem, ite_self]

/-- The content stage with no marker in sight, under the strategy `memory`. -/
lemma processContent_of_none (hmem : s.options.strategy = .memory)
    (hi : indexOf s.boundary s.buffer = none) (hlt : s.boundary.length < s.buffer.length) :
    (s.maxSize < s.currentContentLength + (s.buffer.length - s.boundary.length) ∧
      ∃ e, s.processContent = .error e) ∨
    (s.currentContentLength + (s.buffer.length - s.boundary.length) ≤ s.maxSize ∧
      s.processContent = .ok (some
        (s.withContent (s.buffer.take (s.buffer.length - s.boundary.length))
          (s.buffer.drop (s.buffer.length - s.boundary.length))))) := by
  have hlen : (s.buffer.take (s.buffer.length - s.boundary.length)).length =
      s.buffer.length - s.boundary.length := by
    rw [List.length_take]
    omega
  have hne : s.buffer.take (s.buffer.length - s.boundary.length) ≠ [] := by
    rw [← List.length_pos_iff, hlen]
    omega
  rw [processContent, hi]
  dsimp only
  rw [if_neg (by omega), takeContent_memory hmem, hlen]
  split
  · next h => exact .inl ⟨h.2, _, rfl⟩
  · next h => exact .inr ⟨Nat.le_of_not_lt fun hmax => h ⟨hne, hmax⟩, rfl⟩

/-- The content stage at a marker, under the strategy `memory`. -/
lemma processContent_of_some (hmem : s.options.strategy = .memory) {j : ℕ}
    (hi : indexOf s.boundary s.buffer = some j) :
    ((2 < j ∧ s.maxSize < s.currentContentLength + (j - 2)) ∧ ∃ e, s.processContent = .error e) ∨
    (¬ (2 < j ∧ s.maxSize < s.currentContentLength + (j - 2)) ∧
      s.processContent = .ok (some
        (s.withContent (s.buffer.take (j - 2)) (s.buffer.drop j)).completePart)) := by
  have hle := length_le_of_indexOf s.boundary_ne hi
  have hlen : (s.buffer.take (j - 2)).length = j - 2 := by
    rw [List.length_take]
    omega
  have hne : s.buffer.take (j - 2) ≠ [] ↔ 2 < j := by
    rw [← List.length_pos_iff, hlen]
    omega
  rw [processContent, hi]
  dsimp only
  rw [takeContent_memory hmem, hlen]
  split
  · next h => exact .inl ⟨⟨hne.mp h.1, h.2⟩, _, rfl⟩
  · next h => exact .inr ⟨fun h' => h ⟨hne.mpr h'.1, h'.2⟩, rfl⟩

/-- With no more bytes than the marker has, and no marker, the content stage waits. -/
lemma processContent_wait (hi : indexOf s.boundary s.buffer = none)
    (hge : s.buffer.length ≤ s.boundary.length) : s.processContent = .ok none := by
  rw [processContent, hi]
  exact if_pos (by omega)

/-- The content stage with no marker in sight ends there: what may be content is counted. -/
lemma outcome_content_none (hmem : s.options.strategy = .memory) (hstage : s.stage = .content)
    (hfin : s.isFinished = false) (hi : indexOf s.boundary s.buffer = none) :
    s.outcome =
      if s.boundary.length < s.buffer.length ∧
        s.maxSize < s.currentContentLength + (s.buffer.length - s.boundary.length)
      then none else s.finalize.toOption := by
  have hstep := processCurrentStage_content hstage
  rcases Nat.lt_or_ge s.boundary.length s.buffer.length with hlt | hge
  · have hend : ¬ (s.buffer = [] ∨ s.isFinished) :=
      not_end hfin (List.length_pos_iff.mp (by omega))
    obtain ⟨hmax, e, he⟩ | ⟨hmax, he⟩ := processContent_of_none hmem hi hlt
    · rw [if_pos ⟨hlt, hmax⟩, outcome_of_error (run_of_error hend (hstep.trans he))]
    · rw [if_neg (by omega), outcome_of_some hend (hstep.trans he), outcome_of_none]
      · rfl
      · rw [processCurrentStage_content (s := s.withContent _ _) hstage]
        refine processContent_wait (indexOf_drop_of_none s.boundary_ne hi) ?_
        simp only [withContent, List.length_drop]
        omega
  · rw [if_neg (by omega), outcome_of_none (hstep.trans (processContent_wait hi hge))]

lemma outcome_content_some (hmem : s.options.strategy = .memory) (hstage : s.stage = .content)
    (hfin : s.isFinished = false) {j : ℕ} (hi : indexOf s.boundary s.buffer = some j) :
    s.outcome =
      if 2 < j ∧ s.maxSize < s.currentContentLength + (j - 2) then none
      else (s.withContent (s.buffer.take (j - 2)) (s.buffer.drop j)).completePart.outcome := by
  have hstep := processCurrentStage_content hstage
  have hend := not_end hfin (buffer_ne_of_indexOf s.boundary_ne hi)
  obtain ⟨hmax, e, he⟩ | ⟨hmax, he⟩ := processContent_of_some hmem hi
  · rw [if_pos hmax, outcome_of_error (run_of_error hend (hstep.trans he))]
  · rw [if_neg hmax, outcome_of_some hend (hstep.trans he)]

lemma completePart_extend (s : ParserState) :
    s.completePart.extend rest = (s.extend rest).completePart := by
  unfold completePart finalizeCurrentPart extend
  dsimp only
  split
  · rfl
  · split
    · rfl
    · split <;> rfl

/-- Content in two pieces is content in one. -/
lemma withContent_withContent (s : ParserState) (x y b b' : Bytes) :
    Relabeled (s.withContent (x ++ y) b') ((s.withContent x b).withContent y b') := by
  refine ⟨((s.withContent x b).withContent y b').currentBufferChunks, s.currentHeaders, ?_, ?_⟩
  · by_cases hx : x = [] <;> by_cases hy : y = [] <;> simp [withContent, hx, hy]
  · simp [withContent, Nat.add_assoc]

/-- The counted part of the content, and the bytes kept back, at a harmless cut: the content
of a marker that is still to come begins behind what was counted. -/
lemma outcome_withContent {n : ℕ} (hmem : s.options.strategy = .memory)
    (hstage : s.stage = .content) (hfin : s.isFinished = false)
    (hi : indexOf s.boundary s.buffer = none) (hn : n = s.buffer.length - s.boundary.length)
    (hlt : s.boundary.length < s.buffer.length)
    (hcut : indexOf s.boundary (s.buffer ++ rest) ≠ some (n + 1))
    (hmax : s.currentContentLength + n ≤ s.maxSize) :
    ((s.withContent (s.buffer.take n) (s.buffer.drop n)).extend rest).outcome =
      (s.extend rest).outcome := by
  have hlen : (s.buffer.take n).length = n := by
    rw [List.length_take]
    omega
  have hkept : s.buffer.drop n ++ rest = (s.buffer ++ rest).drop n :=
    (List.drop_append_of_le_length (by omega)).symm
  have hcounted : s.buffer.take n = (s.buffer ++ rest).take n :=
    (List.take_append_of_le_length (by omega)).symm
  cases hj : indexOf s.boundary (s.buffer ++ rest) with
  | none =>
      have hj' : indexOf s.boundary (s.buffer.drop n ++ rest) = none := by
        rw [hkept]
        exact indexOf_drop_of_none s.boundary_ne hj
      rw [outcome_content_none (s := s.extend rest) hmem hstage hfin hj,
        outcome_content_none (s := (s.withContent _ _).extend rest) hmem hstage hfin hj']
      have hiff : (s.boundary.length < (s.buffer.drop n ++ rest).length ∧ s.maxSize <
            s.currentContentLength + (s.buffer.take n).length +
              ((s.buffer.drop n ++ rest).length - s.boundary.length)) ↔
          (s.boundary.length < (s.buffer ++ rest).length ∧ s.maxSize <
            s.currentContentLength + ((s.buffer ++ rest).length - s.boundary.length)) := by
        simp only [hlen, List.length_append, List.length_drop]
        omega
      exact if_congr hiff rfl rfl
  | some j =>
      have hlt' := lt_of_indexOf_append s.boundary_ne hi hj
      have hne : j ≠ n + 1 := fun h => hcut (h ▸ hj)
      have hj' : indexOf s.boundary (s.buffer.drop n ++ rest) = some (j - n) := by
        rw [hkept]
        exact indexOf_drop_of_some s.boundary_ne hj (by omega)
      rw [outcome_content_some (s := s.extend rest) hmem hstage hfin hj,
        outcome_content_some (s := (s.withContent _ _).extend rest) hmem hstage hfin hj']
      have hiff : (2 < j - n ∧ s.maxSize <
            s.currentContentLength + (s.buffer.take n).length + (j - n - 2)) ↔
          (2 < j ∧ s.maxSize < s.currentContentLength + (j - 2)) := by
        rw [hlen]
        omega
      refine if_congr hiff rfl (outcome_relabeled (completePart_relabeled ?_)).symm
      have hchunk : (s.buffer ++ rest).take (j - 2) =
          s.buffer.take n ++ (s.buffer.drop n ++ rest).take (j - n - 2) := by
        rw [hkept, hcounted, show j - 2 = n + (j - n - 2) by omega, List.take_add]
      have hrest : (s.buffer ++ rest).drop j = (s.buffer.drop n ++ rest).drop (j - n) := by
        rw [hkept, List.drop_drop, Nat.add_sub_cancel' (by omega)]
      simp only [extend_buffer, hchunk, hrest]
      exact withContent_withContent (s.extend rest) _ _ _ _

/-- At a harmless cut no marker begins with the second byte that is kept back. -/
lemma indexOf_ne_of_harmless {c p n : ℕ} (hcut : Harmless s.boundary body c)
    (hc : c + rest.length = body.length)
    (hlen : p + s.buffer.length + rest.length = body.length)
    (hdrop : body.drop p = s.buffer ++ rest) (htracks : Tracks s.boundary body .content p)
    (hn : n = s.buffer.length - s.boundary.length) (hlt : s.boundary.length < s.buffer.length) :
    indexOf s.boundary (s.buffer ++ rest) ≠ some (n + 1) := by
  intro h
  obtain ⟨a, hap, hdel⟩ := htracks
  exact (hcut a _ (hdel _ (firstFrom_of_indexOf (hdrop ▸ h)))).1 (by omega) (by omega)

/-- The content stage at a harmless cut. -/
lemma content_extend {c : ℕ} (hat : At marker body rest s) (hcut : Harmless marker body c)
    (hc : c + rest.length = body.length) (hfin : s.isFinished = false)
    (hstage : s.stage = .content) (hs : s.processCurrentStage = .ok (some s')) :
    At marker body rest s' ∧ (s'.extend rest).outcome = (s.extend rest).outcome := by
  obtain ⟨rfl, hmem, hplace⟩ := hat
  obtain ⟨p, hlen, hdrop, htracks⟩ := hplace hfin
  rw [hstage] at htracks
  rw [processCurrentStage_content hstage] at hs
  cases hi : indexOf s.boundary s.buffer with
  | none =>
      rcases Nat.lt_or_ge s.boundary.length s.buffer.length with hlt | hge
      · obtain ⟨-, e, he⟩ | ⟨hmax, he⟩ := processContent_of_none hmem hi hlt
        · rw [hs] at he
          cases he
        · rw [hs] at he
          obtain rfl := Option.some.inj (Except.ok.inj he)
          refine ⟨⟨rfl, hmem, fun _ => ?_⟩, outcome_withContent hmem hstage hfin hi rfl hlt
            (indexOf_ne_of_harmless hcut hc hlen hdrop htracks rfl hlt) hmax⟩
          obtain ⟨a, hap, hdel⟩ := htracks
          refine ⟨p + (s.buffer.length - s.boundary.length), ?_, ?_, ?_⟩
          · simp only [withContent, List.length_drop]
            omega
          · rw [← List.drop_drop, hdrop, List.drop_append_of_le_length (by omega)]
            rfl
          · simp only [withContent, hstage]
            refine ⟨a, by omega, fun j hj => hdel j (hj.extend (Nat.le_add_right _ _) ?_)⟩
            -- a marker in the counted bytes would have been found
            intro k hpk hk hocc
            have hocc' : Occurs s.boundary (s.buffer ++ rest) (k - p) := by
              rw [← hdrop, occurs_drop, Nat.add_sub_cancel' hpk]
              exact hocc
            exact (indexOf_eq_none_iff s.boundary_ne).mp hi (k - p) (hocc'.of_append (by omega))
      · rw [processContent_wait hi hge] at hs
        cases hs
  | some j =>
      have hle := length_le_of_indexOf s.boundary_ne hi
      have hjExt : indexOf s.boundary (s.buffer ++ rest) = some j :=
        indexOf_append_of_some _ s.boundary_ne hi
      obtain ⟨-, e, he⟩ | ⟨hmax, he⟩ := processContent_of_some hmem hi
      · rw [hs] at he
        cases he
      · rw [hs] at he
        obtain rfl := Option.some.inj (Except.ok.inj he)
        obtain ⟨hboundary, hoptions, -⟩ :=
          completePart_frame (s.withContent (s.buffer.take (j - 2)) (s.buffer.drop j))
        constructor
        · obtain ⟨a, -, hdel⟩ := htracks
          refine ⟨hboundary, by rw [hoptions]; exact hmem, fun _ => ⟨p + j, ?_, ?_, ?_⟩⟩
          · simp only [completePart_buffer, withContent, List.length_drop]
            omega
          · rw [← List.drop_drop, hdrop, List.drop_append_of_le_length (by omega),
              completePart_buffer]
            rfl
          · exact .inr ⟨a, hdel _ (firstFrom_of_indexOf (hdrop ▸ hjExt))⟩
        · rw [outcome_content_some (s := s.extend rest) hmem hstage hfin hjExt,
            if_neg (by exact hmax), completePart_extend, extend_buffer,
            List.take_append_of_le_length (by omega), List.drop_append_of_le_length (by omega)]
          rfl

/-- A part that is too large stays too large. -/
lemma content_extend_error {c : ℕ} {e : UploadError} (hat : At marker body rest s)
    (hcut : Harmless marker body c) (hc : c + rest.length = body.length)
    (hfin : s.isFinished = false) (hstage : s.stage = .content)
    (hs : s.processCurrentStage = .error e) : (s.extend rest).outcome = none := by
  obtain ⟨rfl, hmem, hplace⟩ := hat
  obtain ⟨p, hlen, hdrop, htracks⟩ := hplace hfin
  rw [hstage] at htracks
  rw [processCurrentStage_content hstage] at hs
  cases hi : indexOf s.boundary s.buffer with
  | none =>
      rcases Nat.lt_or_ge s.boundary.length s.buffer.length with hlt | hge
      · obtain ⟨hmax, -⟩ | ⟨-, he⟩ := processContent_of_none hmem hi hlt
        · cases hj : indexOf s.boundary (s.buffer ++ rest) with
          | none =>
              rw [outcome_content_none (s := s.extend rest) hmem hstage hfin hj]
              refine if_pos ⟨?_, Nat.lt_of_lt_of_le hmax ?_⟩
              · simp only [extend_buffer, extend_boundary, List.length_append]
                omega
              · simp only [extend, List.length_append]
                omega
          | some j =>
              have hlt' := lt_of_indexOf_append s.boundary_ne hi hj
              have hne := indexOf_ne_of_harmless hcut hc hlen hdrop htracks rfl hlt
              have hne' : j ≠ s.buffer.length - s.boundary.length + 1 := fun h => hne (h ▸ hj)
              rw [outcome_content_some (s := s.extend rest) hmem hstage hfin hj]
              refine if_pos ⟨by omega, Nat.lt_of_lt_of_le hmax ?_⟩
              simp only [extend]
              omega
        · rw [hs] at he
          cases he
      · rw [processContent_wait hi hge] at hs
        cases hs
  | some j =>
      obtain ⟨hmax, -⟩ | ⟨-, he⟩ := processContent_of_some hmem hi
      · rw [outcome_content_some (s := s.extend rest) hmem hstage hfin
          (indexOf_append_of_some _ s.boundary_ne hi)]
        exact if_pos hmax
      · rw [hs] at he
        cases he

/-- **One turn of the loop at a harmless cut loses nothing**: with the rest of the body the
state after it has the outcome of the state before it. -/
theorem step_extend {c : ℕ} (hat : At marker body rest s) (hcut : Harmless marker body c)
    (hc : c + rest.length = body.length) (hfin : s.isFinished = false)
    (hs : s.processCurrentStage = .ok (some s')) :
    At marker body rest s' ∧ (s'.extend rest).outcome = (s.extend rest).outcome := by
  cases hstage : s.stage with
  | boundary => exact boundary_extend hat hcut hc hfin hstage hs
  | headers => exact headers_extend hat hfin hstage hs
  | content => exact content_extend hat hcut hc hfin hstage hs

lemma step_extend_error {c : ℕ} {e : UploadError} (hat : At marker body rest s)
    (hcut : Harmless marker body c) (hc : c + rest.length = body.length)
    (hfin : s.isFinished = false) (hs : s.processCurrentStage = .error e) :
    (s.extend rest).outcome = none := by
  cases hstage : s.stage with
  | boundary =>
      rw [processCurrentStage_boundary hstage] at hs
      cases hs
  | headers =>
      rw [processCurrentStage_headers hstage] at hs
      cases hh : indexOf blankLine s.buffer with
      | none =>
          rw [processHeaders, hh] at hs
          cases hs
      | some h =>
          have hend : ¬ ((s.extend rest).buffer = [] ∨ (s.extend rest).isFinished) :=
            not_end hfin
              (buffer_ne_of_indexOf blankLine_ne (indexOf_append_of_some _ blankLine_ne hh))
          refine outcome_of_error (run_of_error (e := e) hend ?_)
          rw [processCurrentStage_headers (s := s.extend rest) hstage, processHeaders_extend hh, hs]
          rfl
  | content => exact content_extend_error hat hcut hc hfin hstage hs

/-! ### Runs and chunks -/

/-- The loop on what has arrived, at a harmless cut. -/
lemma run_extend {c : ℕ} (hat : At marker body rest s) (hcut : Harmless marker body c)
    (hc : c + rest.length = body.length) :
    (∃ e, s.run = .error e ∧ (s.extend rest).outcome = none) ∨
    ∃ t, s.run = .ok t ∧ At marker body rest t ∧
      (t.extend rest).outcome = (s.extend rest).outcome := by
  induction s using run_induction with
  | hend s he => exact .inr ⟨s, run_of_end he, hat, rfl⟩
  | herror s e he hs =>
      have hfin : s.isFinished = false := by simpa using fun h => he (.inr h)
      exact .inl ⟨e, run_of_error he hs, step_extend_error hat hcut hc hfin hs⟩
  | hnone s he hs => exact .inr ⟨s, run_of_none hs, hat, rfl⟩
  | hsome s s' he hs ih =>
      have hfin : s.isFinished = false := by simpa using fun h => he (.inr h)
      obtain ⟨hat', hout⟩ := step_extend hat hcut hc hfin hs
      rw [run_of_some he hs, ← hout]
      exact ih hat'

/-- New input of the body, not yet looked at. -/
lemma At.extend {chunk : Bytes} (h : At marker body (chunk ++ rest) s) :
    At marker body rest (s.extend chunk) := by
  refine ⟨h.marker_eq, h.memory, fun hfin => ?_⟩
  obtain ⟨p, hlen, hdrop, htracks⟩ := h.place hfin
  refine ⟨p, ?_, ?_, htracks⟩
  · simp only [extend_buffer, List.length_append] at hlen ⊢
    omega
  · rw [hdrop, extend_buffer, List.append_assoc]

lemma extend_extend (s : ParserState) (x y : Bytes) :
    (s.extend x).extend y = s.extend (x ++ y) := by
  simp only [ParserState.extend, List.append_assoc]

/-- The chunks one after the other, from a state in which the loop has stopped. -/
lemma parseChunks_eq_outcome (chunks : List Bytes) (off : ℕ) (hrun : s.run = .ok s)
    (hat : At marker body chunks.flatten s) (hoff : off + chunks.flatten.length = body.length)
    (hcuts : ∀ c ∈ cuts chunks, Harmless marker body (off + c)) :
    (s.parseChunks chunks).toOption = (s.extend chunks.flatten).outcome := by
  induction chunks generalizing s off with
  | nil =>
      have hnil : s.extend [] = s := by simp only [ParserState.extend, List.append_nil]
      rw [List.flatten_nil, hnil, outcome, hrun]
      rfl
  | cons c chunks ih =>
      cases chunks with
      | nil =>
          have hone : s.parseChunks [c] = (s.extend c).run >>= finalize := by
            simp [parseChunks, processChunks, processChunk, ParserState.extend]
          rw [hone, List.flatten_cons, List.flatten_nil, List.append_nil, outcome]
      | cons d chunks =>
          have hcut : Harmless marker body (off + c.length) := hcuts _ (by simp [cuts])
          rw [List.flatten_cons] at hat hoff ⊢
          rw [List.length_append] at hoff
          have hsplit : s.parseChunks (c :: d :: chunks) =
              (s.extend c).run >>= fun t => t.parseChunks (d :: chunks) := by
            simp only [parseChunks, processChunks, List.foldlM_cons, bind_assoc]
            rfl
          rw [hsplit, ← extend_extend]
          obtain ⟨e, he, hout⟩ | ⟨t, ht, hat', hout⟩ :=
            run_extend hat.extend hcut (by omega)
          · rw [he, hout]
            rfl
          · rw [ht, ← hout]
            refine ih (off + c.length) (run_idem ht) hat' (by omega) fun k hk => ?_
            rw [Nat.add_assoc]
            exact hcuts _ (List.mem_cons_of_mem _ (List.mem_map.mpr ⟨k, hk, rfl⟩))

end ParserState

/-- **Two ways to cut a body at harmless places give the same result**: both parses fail,
or both return the same fields and files. -/
theorem chunking_irrelevant (boundary : String) (options : ParseOptions)
    (hmem : options.strategy = .memory) (chunks₁ chunks₂ : List Bytes)
    (hbody : chunks₁.flatten = chunks₂.flatten)
    (h₁ : ∀ c ∈ cuts chunks₁, Harmless (markerOf boundary) chunks₁.flatten c)
    (h₂ : ∀ c ∈ cuts chunks₂, Harmless (markerOf boundary) chunks₂.flatten c) :
    ((createParserState boundary options).parseChunks chunks₁).toOption =
      ((createParserState boundary options).parseChunks chunks₂).toOption := by
  have hat (body : Bytes) :
      ParserState.At (markerOf boundary) body body (createParserState boundary options) :=
    ⟨rfl, hmem, fun _ => ⟨0, by simp [createParserState], rfl, .inl rfl⟩⟩
  have hone (chunks : List Bytes)
      (h : ∀ c ∈ cuts chunks, Harmless (markerOf boundary) chunks.flatten c) :=
    ParserState.parseChunks_eq_outcome chunks 0
      (ParserState.run_of_end (s := createParserState boundary options) (.inl rfl))
      (hat chunks.flatten) (Nat.zero_add _) (by simpa using h)
  rw [hone chunks₁ h₁, hone chunks₂ h₂, hbody]

/-- A body with one field. -/
def oneField : Bytes :=
  utf8Encode "--b\r\nContent-Disposition: form-data; name=\"x\"\r\n\r\nabc\r\n--b--"

/-- In one piece, and cut inside the header block and inside the last marker. -/
theorem chunking_irrelevant_oneField :
    ((createParserState "b" { strategy := .memory }).parseChunks [oneField]).toOption =
      ((createParserState "b" { strategy := .memory }).parseChunks
        [oneField.take 20, (oneField.drop 20).take 35, oneField.drop 55]).toOption :=
  chunking_irrelevant "b" { strategy := .memory } rfl [oneField]
    [oneField.take 20, (oneField.drop 20).take 35, oneField.drop 55] (by decide +kernel)
    (by simp [cuts])
    (by
      have hcuts : cuts [oneField.take 20, (oneField.drop 20).take 35, oneField.drop 55] =
        [20, 55] := by decide +kernel
      rw [hcuts]
      simp only [List.mem_cons, List.not_mem_nil, or_false, forall_eq_or_imp, forall_eq]
      exact ⟨harmless_of_not_occurs (by decide +kernel),
        harmless_of_not_occurs (by decide +kernel)⟩)

/-- Cut before the last byte of the last marker, the field has one byte more. -/
theorem not_chunking_irrelevant :
    ¬ ∀ (boundary : String) (options : ParseOptions) (chunks₁ chunks₂ : List Bytes),
      options.strategy = .memory → (∀ c ∈ chunks₁, c ≠ []) → (∀ c ∈ chunks₂, c ≠ []) →
      chunks₁.flatten = chunks₂.flatten →
      ((createParserState boundary options).parseChunks chunks₁).toOption =
        ((createParserState boundary options).parseChunks chunks₂).toOption := by
  intro h
  have := h "b" { strategy := .memory } [oneField] [oneField.take 56, oneField.drop 56] rfl
    (by decide +kernel) (by decide +kernel) (by decide +kernel)
  exact absurd this (by decide +kernel)

end Blaize.Upload
