import Mathlib.Data.Prod.Lex
import Mathlib.Order.OrderIsoNat
import Blaize.Upload.Parser

/-!
The loop of the multipart parser.

* `step_cases`: **what a turn of the loop can do**; `measure_lt`: and that it makes progress;
* `run_eq`: **the fuel of the loop is enough**: `run` obeys the equation of the `while`;
* `While`, `processChunk_terminates`: **every chunk has one result, after finitely many turns**;
* `run_invariant`, `processChunks_invariant`: what every turn keeps, the loop and the whole
  request keep;
* `run_idem`: what the loop leaves, it leaves alone;
* `processChunks_unread`, `processChunks_ok`: invariants that see the unread bytes;
* `Relabeled`, `run_relabeled`: how the content of the current part is cut into chunks, and
  the text of its headers, are not seen;
* `outcome`: what the rest of a parse makes of a state.
-/

namespace Blaize.Upload

open Js Search

namespace ParserState

variable {s s' : ParserState}

/-! ### One piece of content -/

lemma takeContent_eq (s : ParserState) (chunk : Bytes) :
    s.takeContent chunk =
      if chunk = [] then .ok s
      else if s.maxSize < s.currentContentLength + chunk.length then
        .error (.sizeExceedsLimit s.currentFilename.isSome
          (s.currentContentLength + chunk.length) s.maxSize s.currentField s.currentFilename)
      else .ok (s.appendContent chunk (s.currentContentLength + chunk.length)) := rfl

/-- What a piece of content changes. -/
lemma appendContent_frame (s : ParserState) (chunk : Bytes) (n : ℕ) :
    ∃ cs st, s.appendContent chunk n =
      { s with currentContentLength := n, currentBufferChunks := cs, storage := st } := by
  unfold appendContent processFileChunk
  split
  · split
    · exact ⟨_, _, rfl⟩
    · exact ⟨_, _, rfl⟩
    · exact ⟨_, _, rfl⟩
  · exact ⟨_, _, rfl⟩

lemma takeContent_frame {chunk : Bytes} (h : s.takeContent chunk = .ok s') :
    ∃ n cs st, s' =
      { s with currentContentLength := n, currentBufferChunks := cs, storage := st } := by
  rw [takeContent_eq] at h
  split at h
  · obtain rfl := Except.ok.inj h
    exact ⟨_, _, _, rfl⟩
  · split at h
    · cases h
    · obtain rfl := Except.ok.inj h
      obtain ⟨cs, st, he⟩ := appendContent_frame s chunk (s.currentContentLength + chunk.length)
      exact ⟨_, cs, st, he⟩

/-! ### The loop -/

lemma processCurrentStage_boundary (h : s.stage = .boundary) :
    s.processCurrentStage = .ok s.processBoundary := by
  simp only [processCurrentStage, h]

lemma processCurrentStage_headers (h : s.stage = .headers) :
    s.processCurrentStage = s.processHeaders := by
  simp only [processCurrentStage, h]

lemma processCurrentStage_content (h : s.stage = .content) :
    s.processCurrentStage = s.processContent := by
  simp only [processCurrentStage, h]

lemma boundary_length_pos (s : ParserState) : 0 < s.boundary.length :=
  List.length_pos_iff.mpr s.boundary_ne

lemma blankLine_ne : blankLine ≠ [] := by decide

@[simp] lemma completePart_stage (s : ParserState) : s.completePart.stage = .boundary := rfl

lemma finalizeCurrentPart_buffer (s : ParserState) : s.finalizeCurrentPart.buffer = s.buffer := by
  unfold finalizeCurrentPart
  split
  · rfl
  · split
    · rfl
    · split <;> rfl

@[simp] lemma completePart_buffer (s : ParserState) : s.completePart.buffer = s.buffer :=
  finalizeCurrentPart_buffer s

/-- The state in which the content of a new part begins. -/
lemma beginPart_ok {headers : String} {buffer : Bytes} {d : Disposition}
    (h : s.beginPart headers buffer d = .ok s') :
    s' = { s with
      buffer := buffer
      stage := .content
      currentHeaders := headers
      currentField := some d.name
      currentFilename := d.filename
      currentMimetype := parseContentType headers
      currentContentLength := 0
      fileCount := if d.filename.isSome then s.fileCount + 1 else s.fileCount
      fieldCount := if d.filename.isSome then s.fieldCount else s.fieldCount + 1
      currentBufferChunks := [] } := by
  unfold beginPart at h
  dsimp only at h
  split at h
  · cases h
  · split at h
    · cases h
    · exact (Except.ok.inj h).symm

lemma map_some_eq_ok {x : Except UploadError ParserState} {f : ParserState → ParserState}
    (h : x.map (fun s => some (f s)) = .ok (some s')) : ∃ t, x = .ok t ∧ s' = f t := by
  cases x with
  | error e => cases h
  | ok t => exact ⟨t, rfl, (Option.some.inj (Except.ok.inj h)).symm⟩

/-- What `processBoundary` makes of the bytes behind the marker it has found. -/
def behindMarker (s : ParserState) (tail : Bytes) : ParserState :=
  if dashes <+: tail then
    { s with
      buffer := tail
      hasFoundValidBoundary := true
      isFinished := true
      stage := .boundary }
  else
    { s with
      buffer := if crlf <+: tail then tail.drop 2 else tail
      hasFoundValidBoundary := true
      stage := .headers
      currentHeaders := "" }

lemma processBoundary_of_some {i : ℕ} (h : indexOf s.boundary s.buffer = some i) :
    s.processBoundary = some (s.behindMarker (s.buffer.drop (i + s.boundary.length))) := by
  unfold processBoundary behindMarker
  rw [h]
  dsimp only
  split <;> rfl

/-- **What a turn of the loop can do**: step behind a marker, begin a part behind its header
block, count content that may still go on, or complete a part. -/
theorem step_cases (h : s.processCurrentStage = .ok (some s')) :
    (s.stage = .boundary ∧ ∃ i, indexOf s.boundary s.buffer = some i ∧
      s' = s.behindMarker (s.buffer.drop (i + s.boundary.length))) ∨
    (s.stage = .headers ∧ ∃ n d, indexOf blankLine s.buffer = some n ∧
      parseContentDisposition (utf8Decode (s.buffer.take n)) = some d ∧
      s.beginPart (utf8Decode (s.buffer.take n)) (s.buffer.drop (n + 4)) d = .ok s') ∨
    (s.stage = .content ∧ indexOf s.boundary s.buffer = none ∧
      s.boundary.length < s.buffer.length ∧
      { s with buffer := s.buffer.drop (s.buffer.length - s.boundary.length) }.takeContent
        (s.buffer.take (s.buffer.length - s.boundary.length)) = .ok s') ∨
    (s.stage = .content ∧ ∃ j t, indexOf s.boundary s.buffer = some j ∧
      { s with buffer := s.buffer.drop j }.takeContent (s.buffer.take (j - 2)) = .ok t ∧
      s' = t.completePart) := by
  have hstages : s.stage = .boundary ∨ s.stage = .headers ∨ s.stage = .content := by
    cases s.stage <;> simp
  rcases hstages with hstage | hstage | hstage
  · rw [processCurrentStage_boundary hstage, Except.ok.injEq] at h
    cases hi : indexOf s.boundary s.buffer with
    | none =>
        rw [processBoundary, hi] at h
        cases h
    | some i =>
        rw [processBoundary_of_some hi] at h
        exact .inl ⟨hstage, i, rfl, (Option.some.inj h).symm⟩
  · rw [processCurrentStage_headers hstage, processHeaders] at h
    split at h
    · cases h
    · next n hn =>
      dsimp only at h
      split at h
      · cases h
      · next d hd =>
        obtain ⟨t, ht, rfl⟩ := map_some_eq_ok (f := id) h
        exact .inr (.inl ⟨hstage, n, d, hn, hd, ht⟩)
  · rw [processCurrentStage_content hstage, processContent] at h
    split at h
    · next hi =>
      dsimp only at h
      split at h
      · cases h
      · obtain ⟨t, ht, rfl⟩ := map_some_eq_ok (f := id) h
        exact .inr (.inr (.inl ⟨hstage, hi, by omega, ht⟩))
    · next j hj =>
      obtain ⟨t, ht, rfl⟩ := map_some_eq_ok (f := completePart) h
      exact .inr (.inr (.inr ⟨hstage, j, t, hj, ht, rfl⟩))

lemma completePart_frame (s : ParserState) :
    s.completePart.boundary = s.boundary ∧ s.completePart.options = s.options ∧
      s.completePart.isFinished = s.isFinished := by
  unfold completePart finalizeCurrentPart
  dsimp only
  split
  · exact ⟨rfl, rfl, rfl⟩
  · split
    · exact ⟨rfl, rfl, rfl⟩
    · split <;> exact ⟨rfl, rfl, rfl⟩

/-- The boundary and the options stay. -/
lemma step_frame (h : s.processCurrentStage = .ok (some s')) :
    s'.boundary = s.boundary ∧ s'.options = s.options := by
  rcases step_cases h with
    ⟨-, i, -, rfl⟩ | ⟨-, n, d, -, -, ht⟩ | ⟨-, -, -, ht⟩ | ⟨-, j, t, -, ht, rfl⟩
  · unfold behindMarker
    split <;> exact ⟨rfl, rfl⟩
  · rw [beginPart_ok ht]
    exact ⟨rfl, rfl⟩
  · obtain ⟨n, cs, st, rfl⟩ := takeContent_frame ht
    exact ⟨rfl, rfl⟩
  · obtain ⟨n, cs, st, rfl⟩ := takeContent_frame ht
    exact ⟨(completePart_frame _).1, (completePart_frame _).2.1⟩

/-- The content of a part can be left without consuming any input. -/
def rank (stage : Stage) : ℕ := if stage = .content then 1 else 0

/-- The measure of a turn: the length of the buffer, and then the stage. -/
def measure (s : ParserState) : ℕ ×ₗ ℕ := toLex (s.buffer.length, rank s.stage)

lemma measure_lt_of_length (h : s'.buffer.length < s.buffer.length) : s'.measure < s.measure :=
  Prod.Lex.toLex_lt_toLex.mpr (.inl h)

/-- **Every turn of the loop consumes input, or leaves the content of a part.** -/
theorem measure_lt (h : s.processCurrentStage = .ok (some s')) : s'.measure < s.measure := by
  have hpos := s.boundary_length_pos
  obtain ⟨-, i, hi, rfl⟩ | ⟨-, n, d, hn, -, ht⟩ | ⟨-, -, hlt, ht⟩ | ⟨hstage, j, t, -, ht, rfl⟩ :=
    step_cases h
  · -- Behind the marker, also where no dashes and no line end follow it.
    have hle := length_le_of_indexOf s.boundary_ne hi
    refine measure_lt_of_length ?_
    unfold behindMarker
    split
    · simp only [List.length_drop]
      omega
    · dsimp only
      split <;> simp only [List.length_drop] <;> omega
  · have hle : n + 4 ≤ s.buffer.length := length_le_of_indexOf blankLine_ne hn
    rw [beginPart_ok ht]
    refine measure_lt_of_length ?_
    simp only [List.length_drop]
    omega
  · obtain ⟨n, cs, st, rfl⟩ := takeContent_frame ht
    refine measure_lt_of_length ?_
    simp only [List.length_drop]
    omega
  · -- A marker at the edge of the buffer leaves all of it, but not the stage.
    obtain ⟨n, cs, st, rfl⟩ := takeContent_frame ht
    refine Prod.Lex.toLex_lt_toLex'.mpr ⟨?_, fun _ => ?_⟩
    · simp only [completePart_buffer, List.length_drop]
      omega
    · simp [rank, hstage]

lemma turns_lt (h : s.processCurrentStage = .ok (some s')) : s'.turns < s.turns := by
  have hrank : ∀ t : ParserState, t.turns = 2 * t.buffer.length + rank t.stage := fun _ => rfl
  have hle : rank s'.stage ≤ 1 := by
    unfold rank
    split <;> decide
  rw [hrank, hrank]
  rcases Prod.Lex.toLex_lt_toLex.mp (measure_lt h) with hlt | ⟨heq, hlt⟩
  · dsimp only at hlt
    omega
  · dsimp only at heq hlt
    omega

/-- More fuel changes nothing. -/
lemma processLoop_eq_run {fuel : ℕ} (h : s.turns ≤ fuel) : processLoop fuel s = s.run := by
  unfold run
  induction hn : s.turns using Nat.strongRecOn generalizing s fuel with
  | _ n ih =>
      subst hn
      by_cases hend : s.buffer = [] ∨ s.isFinished
      · cases fuel <;> cases s.turns <;> simp [processLoop, hend]
      · have hpos : 0 < s.turns := by
          have : 0 < s.buffer.length := List.length_pos_iff.mpr fun hb => hend (.inl hb)
          unfold turns
          omega
        obtain ⟨fuel, rfl⟩ : ∃ k, fuel = k + 1 := ⟨fuel - 1, by omega⟩
        obtain ⟨turns, ht⟩ : ∃ k, s.turns = k + 1 := ⟨s.turns - 1, by omega⟩
        rw [ht, processLoop, processLoop, if_neg hend, if_neg hend]
        split
        · rfl
        · rfl
        · next s' hs' =>
          have hlt := turns_lt hs'
          have hfuel := ih s'.turns hlt (show s'.turns ≤ fuel by omega) rfl
          have hturns := ih s'.turns hlt (show s'.turns ≤ turns by omega) rfl
          rw [hfuel, hturns]

/-- **The fuel of the loop is enough**: the equation of the `while` of `processChunk`. -/
theorem run_eq (s : ParserState) :
    s.run =
      if s.buffer = [] ∨ s.isFinished then .ok s
      else
        match s.processCurrentStage with
        | .error e => .error e
        | .ok none => .ok s
        | .ok (some s') => s'.run := by
  rw [← processLoop_eq_run (Nat.le_succ s.turns), processLoop]
  split
  · rfl
  · cases h : s.processCurrentStage with
    | error e => rfl
    | ok next =>
        cases next with
        | none => rfl
        | some s' => exact processLoop_eq_run (Nat.le_of_lt (turns_lt h))

lemma run_of_end (h : s.buffer = [] ∨ s.isFinished) : s.run = .ok s := by
  rw [run_eq, if_pos h]

lemma run_of_error {e : UploadError} (hend : ¬ (s.buffer = [] ∨ s.isFinished))
    (h : s.processCurrentStage = .error e) : s.run = .error e := by
  rw [run_eq, if_neg hend, h]

lemma run_of_none (h : s.processCurrentStage = .ok none) : s.run = .ok s := by
  rw [run_eq]
  split
  · rfl
  · rw [h]

lemma run_of_some (hend : ¬ (s.buffer = [] ∨ s.isFinished))
    (h : s.processCurrentStage = .ok (some s')) : s.run = s'.run := by
  rw [run_eq, if_neg hend, h]

/-- The induction along a run: over the turns that are left. -/
theorem run_induction {P : ParserState → Prop}
    (hend : ∀ s : ParserState, s.buffer = [] ∨ s.isFinished → P s)
    (herror : ∀ (s : ParserState) e, ¬ (s.buffer = [] ∨ s.isFinished) →
      s.processCurrentStage = .error e → P s)
    (hnone : ∀ s : ParserState, ¬ (s.buffer = [] ∨ s.isFinished) →
      s.processCurrentStage = .ok none → P s)
    (hsome : ∀ s s' : ParserState, ¬ (s.buffer = [] ∨ s.isFinished) →
      s.processCurrentStage = .ok (some s') → P s' → P s)
    (s : ParserState) : P s := by
  induction hn : s.turns using Nat.strongRecOn generalizing s with
  | _ n ih =>
      subst hn
      by_cases he : s.buffer = [] ∨ s.isFinished
      · exact hend s he
      · match h : s.processCurrentStage with
        | .error e => exact herror s e he h
        | .ok none => exact hnone s he h
        | .ok (some s') => exact hsome s s' he h (ih s'.turns (turns_lt h) s' rfl)

/-! ### Termination -/

/-- The `while` of `processChunk`, turn by turn: a result is reached after finitely many. -/
inductive While : ParserState → Except UploadError ParserState → Prop
  | ends {s : ParserState} (h : s.buffer = [] ∨ s.isFinished) : While s (.ok s)
  | same {s : ParserState} (h : ¬ (s.buffer = [] ∨ s.isFinished))
      (hstage : s.processCurrentStage = .ok none) : While s (.ok s)
  | throws {s : ParserState} {e : UploadError} (h : ¬ (s.buffer = [] ∨ s.isFinished))
      (hstage : s.processCurrentStage = .error e) : While s (.error e)
  | turn {s s' : ParserState} {result : Except UploadError ParserState}
      (h : ¬ (s.buffer = [] ∨ s.isFinished)) (hstage : s.processCurrentStage = .ok (some s'))
      (hrest : While s' result) : While s result

lemma while_run (s : ParserState) : While s s.run := by
  induction s using run_induction with
  | hend s he => exact run_of_end he ▸ .ends he
  | herror s e he hs => exact run_of_error he hs ▸ .throws he hs
  | hnone s he hs => exact run_of_none hs ▸ .same he hs
  | hsome s s' he hs ih => exact run_of_some he hs ▸ .turn he hs ih

/-- The loop has one result. -/
lemma While.unique {result : Except UploadError ParserState} (h : While s result) :
    result = s.run := by
  induction h with
  | ends he => exact (run_of_end he).symm
  | same he hs => exact (run_of_none hs).symm
  | throws he hs => exact (run_of_error he hs).symm
  | turn he hs _ ih => exact ih.trans (run_of_some he hs).symm

/-- There is no run of turns without an end. -/
lemma not_forever (turn : ℕ → ParserState) :
    ¬ ∀ n, (turn n).processCurrentStage = .ok (some (turn (n + 1))) := by
  intro h
  have hdecreasing : StrictAnti fun n => (turn n).measure :=
    strictAnti_nat_of_succ_lt fun n => measure_lt (h n)
  exact not_strictAnti_of_wellFoundedLT _ hdecreasing

/-- **The multipart loop terminates: each stage returns its state, throws, finishes, or makes
progress, and from every state every chunk has one result, after finitely many turns.** -/
theorem processChunk_terminates (s : ParserState) (chunk : Bytes) :
    (∀ t : ParserState, t.processCurrentStage = .ok none ∨
      (∃ e, t.processCurrentStage = .error e) ∨
      ∃ t', t.processCurrentStage = .ok (some t') ∧
        (t'.isFinished = true ∨ t'.measure < t.measure)) ∧
      (∀ result, While { s with buffer := s.buffer ++ chunk } result ↔
        result = s.processChunk chunk) ∧
      ∀ turn : ℕ → ParserState,
        ¬ ∀ n, (turn n).processCurrentStage = .ok (some (turn (n + 1))) := by
  refine ⟨fun t => ?_, fun result => ⟨While.unique, ?_⟩, not_forever⟩
  · match h : t.processCurrentStage with
    | .ok none => exact .inl rfl
    | .error e => exact .inr (.inl ⟨e, rfl⟩)
    | .ok (some t') => exact .inr (.inr ⟨t', rfl, .inr (measure_lt h)⟩)
  · rintro rfl
    exact while_run _

/-- What every turn keeps, the loop keeps. -/
theorem run_invariant {I : ParserState → Prop}
    (hstep : ∀ s s' : ParserState, s.isFinished = false → I s →
      s.processCurrentStage = .ok (some s') → I s')
    (hs : I s) (h : s.run = .ok s') : I s' := by
  induction s using run_induction with
  | hend s he =>
      rw [run_of_end he] at h
      exact Except.ok.inj h ▸ hs
  | herror s e he he' =>
      rw [run_of_error he he'] at h
      cases h
  | hnone s he hn =>
      rw [run_of_none hn] at h
      exact Except.ok.inj h ▸ hs
  | hsome s t he ht ih =>
      have hfin : s.isFinished = false := by simpa using fun h => he (.inr h)
      exact ih (hstep s t hfin hs ht) (run_of_some he ht ▸ h)

/-- What new input and every turn keep, the whole request keeps. -/
theorem processChunks_invariant {I : ParserState → Prop}
    (hbuffer : ∀ (s : ParserState) (buffer : Bytes), I s → I { s with buffer := buffer })
    (hstep : ∀ s s' : ParserState, s.isFinished = false → I s →
      s.processCurrentStage = .ok (some s') → I s')
    {chunks : List Bytes} (hs : I s) (h : s.processChunks chunks = .ok s') : I s' := by
  induction chunks generalizing s with
  | nil => exact Except.ok.inj h ▸ hs
  | cons c chunks ih =>
      unfold processChunks at h ih
      rw [List.foldlM_cons] at h
      cases hc : s.processChunk c with
      | error e =>
          rw [hc] at h
          cases h
      | ok t =>
          rw [hc] at h
          exact ih (run_invariant hstep (hbuffer s _ hs) hc) h

/-- What the loop leaves, it leaves alone. -/
lemma run_idem (h : s.run = .ok s') : s'.run = .ok s' := by
  induction s using run_induction with
  | hend s he =>
      rw [run_of_end he] at h
      obtain rfl := Except.ok.inj h
      exact run_of_end he
  | herror s e he hs =>
      rw [run_of_error he hs] at h
      cases h
  | hnone s he hs =>
      rw [run_of_none hs] at h
      obtain rfl := Except.ok.inj h
      exact run_of_none hs
  | hsome s t he hs ih => exact ih (run_of_some he hs ▸ h)

lemma run_turns_le (h : s.run = .ok s') : s'.turns ≤ s.turns :=
  run_invariant (I := fun t => t.turns ≤ s.turns)
    (fun _ _ _ ht hstep => Nat.le_trans (Nat.le_of_lt (turns_lt hstep)) ht) (Nat.le_refl _) h

/-- Where the loop has stopped with input left, the stage waits for more. -/
lemma step_none_of_stopped (hrun : s.run = .ok s) (hend : ¬ (s.buffer = [] ∨ s.isFinished)) :
    s.processCurrentStage = .ok none := by
  match h : s.processCurrentStage with
  | .error e =>
      rw [run_of_error hend h] at hrun
      cases hrun
  | .ok none => rfl
  | .ok (some t) =>
      rw [run_of_some hend h] at hrun
      exact absurd (run_turns_le hrun) (Nat.not_le_of_lt (turns_lt h))

/-- An unfinished state with input left. -/
lemma not_end (hfin : s.isFinished = false) (hbuffer : s.buffer ≠ []) :
    ¬ (s.buffer = [] ∨ s.isFinished) := by
  simp [hfin, hbuffer]

lemma buffer_ne_of_indexOf {pat : Bytes} {i : ℕ} (hpat : pat ≠ [])
    (h : indexOf pat s.buffer = some i) : s.buffer ≠ [] := by
  intro hnil
  have hle := length_le_of_indexOf hpat h
  have hpos := List.length_pos_iff.mpr hpat
  rw [hnil, List.length_nil] at hle
  omega

lemma map_some_ne_none {x : Except UploadError ParserState} {f : ParserState → ParserState} :
    x.map (fun s => some (f s)) ≠ .ok none := by
  cases x <;> simp [Except.map]

/-- Where the loop has stopped in front of a delimiter or in the content of a part, no marker
is in the buffer. -/
lemma indexOf_of_stopped (hrun : s.run = .ok s) (hfin : s.isFinished = false)
    (hstage : s.stage ≠ .headers) : indexOf s.boundary s.buffer = none := by
  by_contra hne
  obtain ⟨i, hi⟩ := Option.ne_none_iff_exists'.mp hne
  have hnone := step_none_of_stopped hrun (not_end hfin (buffer_ne_of_indexOf s.boundary_ne hi))
  cases hstage' : s.stage with
  | boundary =>
      rw [processCurrentStage_boundary hstage', processBoundary_of_some hi] at hnone
      cases hnone
  | headers => exact hstage hstage'
  | content =>
      rw [processCurrentStage_content hstage', processContent, hi] at hnone
      exact absurd hnone (map_some_ne_none (f := completePart))

/-- Where the loop has stopped in a header block, no blank line is in the buffer. -/
lemma indexOf_blankLine_of_stopped (hrun : s.run = .ok s) (hfin : s.isFinished = false)
    (hstage : s.stage = .headers) : indexOf blankLine s.buffer = none := by
  by_contra hne
  obtain ⟨n, hn⟩ := Option.ne_none_iff_exists'.mp hne
  have hnone := step_none_of_stopped hrun (not_end hfin (buffer_ne_of_indexOf blankLine_ne hn))
  rw [processCurrentStage_headers hstage, processHeaders, hn] at hnone
  dsimp only at hnone
  split at hnone
  · cases hnone
  · exact absurd hnone (map_some_ne_none (f := id))

/-- Where the loop has stopped in the content of a part, it keeps no more than a marker back. -/
lemma length_le_of_stopped (hrun : s.run = .ok s) (hfin : s.isFinished = false)
    (hstage : s.stage = .content) : s.buffer.length ≤ s.boundary.length := by
  by_contra hlt
  have hbuffer : s.buffer ≠ [] := fun hnil => by simp [hnil] at hlt
  have hnone := step_none_of_stopped hrun (not_end hfin hbuffer)
  rw [processCurrentStage_content hstage, processContent,
    indexOf_of_stopped hrun hfin (by simp [hstage])] at hnone
  dsimp only at hnone
  rw [if_neg (by omega)] at hnone
  exact absurd hnone (map_some_ne_none (f := id))

/-- The chunks leave a state that the loop leaves alone. -/
lemma processChunks_stopped {chunks : List Bytes} (hrun : s.run = .ok s)
    (h : s.processChunks chunks = .ok s') : s'.run = .ok s' := by
  induction chunks generalizing s with
  | nil => exact Except.ok.inj h ▸ hrun
  | cons c chunks ih =>
      unfold processChunks at h ih
      rw [List.foldlM_cons] at h
      cases hc : s.processChunk c with
      | error e =>
          rw [hc] at h
          cases h
      | ok t =>
          rw [hc] at h
          exact ih (run_idem hc) h

/-! ### Invariants that see the unread bytes -/

section Unread

variable {missing : Bytes} {I : ParserState → Bytes → Prop}

/-- What every turn keeps on the unread bytes, the chunks keep; `missing` never arrives. -/
theorem processChunks_unread {chunks : List Bytes}
    (hbuffer : ∀ (s : ParserState) (buffer unread : Bytes), I s unread →
      I { s with buffer := buffer } unread)
    (hstep : ∀ (s s' : ParserState) (rest : Bytes), missing.length ≤ rest.length →
      s.isFinished = false → I s (s.buffer ++ rest) →
      s.processCurrentStage = .ok (some s') → I s' (s'.buffer ++ rest))
    (h : I s (s.buffer ++ (chunks.flatten ++ missing))) (hs : s.processChunks chunks = .ok s') :
    I s' (s'.buffer ++ missing) := by
  induction chunks generalizing s with
  | nil => exact Except.ok.inj hs ▸ h
  | cons c chunks ih =>
      unfold processChunks at hs ih
      rw [List.foldlM_cons] at hs
      cases hc : s.processChunk c with
      | error e =>
          rw [hc] at hs
          cases hs
      | ok t =>
          rw [hc] at hs
          refine ih ?_ hs
          refine run_invariant (I := fun s => I s (s.buffer ++ (chunks.flatten ++ missing)))
            (fun s s' => hstep s s' _ ?_) ?_ hc
          · simp
          · simpa using hbuffer s (s.buffer ++ c) _ h

/-- If no turn fails, then the loop does not. -/
lemma run_ok {I : ParserState → Prop}
    (hstep : ∀ s s' : ParserState, s.isFinished = false → I s →
      s.processCurrentStage = .ok (some s') → I s')
    (hsafe : ∀ s : ParserState, s.isFinished = false → I s →
      ∃ next, s.processCurrentStage = .ok next)
    (hs : I s) : ∃ s', s.run = .ok s' := by
  induction s using run_induction with
  | hend s he => exact ⟨s, run_of_end he⟩
  | herror s e he herror =>
      obtain ⟨next, hnext⟩ := hsafe s (by simpa using fun h => he (.inr h)) hs
      rw [herror] at hnext
      cases hnext
  | hnone s he hnone => exact ⟨s, run_of_none hnone⟩
  | hsome s t he ht ih =>
      rw [run_of_some he ht]
      exact ih (hstep s t (by simpa using fun h => he (.inr h)) hs ht)

/-- If no turn fails, then the chunks do not. -/
theorem processChunks_ok {chunks : List Bytes}
    (hbuffer : ∀ (s : ParserState) (buffer unread : Bytes), I s unread →
      I { s with buffer := buffer } unread)
    (hstep : ∀ (s s' : ParserState) (rest : Bytes), missing.length ≤ rest.length →
      s.isFinished = false → I s (s.buffer ++ rest) →
      s.processCurrentStage = .ok (some s') → I s' (s'.buffer ++ rest))
    (hsafe : ∀ (s : ParserState) (rest : Bytes), missing.length ≤ rest.length →
      s.isFinished = false → I s (s.buffer ++ rest) → ∃ next, s.processCurrentStage = .ok next)
    (h : I s (s.buffer ++ (chunks.flatten ++ missing))) :
    ∃ s', s.processChunks chunks = .ok s' := by
  induction chunks generalizing s with
  | nil => exact ⟨s, rfl⟩
  | cons c chunks ih =>
      have hrest : missing.length ≤ (chunks.flatten ++ missing).length := by simp
      have hc : I { s with buffer := s.buffer ++ c }
          (s.buffer ++ c ++ (chunks.flatten ++ missing)) := by
        simpa using hbuffer s (s.buffer ++ c) _ h
      have hstep' := fun s s' => hstep s s' _ hrest
      obtain ⟨t, ht⟩ := run_ok (I := fun s => I s (s.buffer ++ (chunks.flatten ++ missing)))
        hstep' (fun s => hsafe s _ hrest) hc
      obtain ⟨s', hs'⟩ := ih (run_invariant hstep' hc ht)
      refine ⟨s', ?_⟩
      unfold processChunks at hs' ⊢
      rw [List.foldlM_cons, processChunk, ht]
      exact hs'

end Unread

/-! ### What is not seen -/

/-- The same state, but for the cuts in the content of the current part and for the text of
its headers. -/
def Relabeled (s s' : ParserState) : Prop :=
  ∃ cs headers, cs.flatten = s.currentBufferChunks.flatten ∧
    s' = { s with currentBufferChunks := cs, currentHeaders := headers }

/-- Two computations that fail alike, or end in related values. -/
def BothRelated {τ : Type} (R : τ → τ → Prop) (x y : Except UploadError τ) : Prop :=
  (∃ e, x = .error e ∧ y = .error e) ∨ ∃ a b, x = .ok a ∧ y = .ok b ∧ R a b

lemma BothRelated.map {τ υ : Type} {R : τ → τ → Prop} {Q : υ → υ → Prop}
    {x y : Except UploadError τ} {f : τ → υ} (h : BothRelated R x y)
    (hf : ∀ a b, R a b → Q (f a) (f b)) : BothRelated Q (x.map f) (y.map f) := by
  obtain ⟨e, rfl, rfl⟩ | ⟨a, b, rfl, rfl, hab⟩ := h
  · exact .inl ⟨e, rfl, rfl⟩
  · exact .inr ⟨f a, f b, rfl, rfl, hf a b hab⟩

lemma takeContent_relabeled (h : Relabeled s s') (chunk : Bytes) :
    BothRelated Relabeled (s.takeContent chunk) (s'.takeContent chunk) := by
  obtain ⟨cs, headers, hcs, rfl⟩ := h
  rw [takeContent_eq, takeContent_eq]
  split
  · exact .inr ⟨_, _, rfl, rfl, cs, headers, hcs, rfl⟩
  · split
    · next hlt => exact .inl ⟨_, rfl, if_pos hlt⟩
    · next hle =>
      refine .inr ⟨_, _, rfl, if_neg hle, ?_⟩
      unfold appendContent processFileChunk
      split
      · dsimp only
        split
        · exact ⟨cs ++ [chunk], headers, by simp [hcs], rfl⟩
        · exact ⟨cs, headers, hcs, rfl⟩
        · exact ⟨cs, headers, hcs, rfl⟩
      · exact ⟨cs ++ [chunk], headers, by simp [hcs], rfl⟩

lemma completePart_relabeled (h : Relabeled s s') : Relabeled s.completePart s'.completePart := by
  obtain ⟨cs, headers, hcs, rfl⟩ := h
  refine ⟨[], headers, ?_, ?_⟩ <;>
    (unfold completePart finalizeCurrentPart currentFile; dsimp only)
  · split
    · rfl
    · split
      · rfl
      · split <;> rfl
  · split
    · rfl
    · split
      · rfl
      · split
        · rw [hcs]; rfl
        · rw [hcs]; rfl

lemma processCurrentStage_relabeled (h : Relabeled s s') :
    BothRelated (Option.Rel Relabeled) s.processCurrentStage s'.processCurrentStage := by
  obtain ⟨cs, headers, hcs, rfl⟩ := h
  unfold processCurrentStage
  dsimp only
  split
  · unfold processBoundary
    dsimp only
    split
    · exact .inr ⟨_, _, rfl, rfl, .none⟩
    · split
      · exact .inr ⟨_, _, rfl, rfl, .some ⟨cs, headers, hcs, rfl⟩⟩
      · exact .inr ⟨_, _, rfl, rfl, .some ⟨cs, "", hcs, rfl⟩⟩
  · unfold processHeaders beginPart
    dsimp only
    split
    · exact .inr ⟨_, _, rfl, rfl, .none⟩
    · split
      · exact .inl ⟨_, rfl, rfl⟩
      · split
        · exact .inl ⟨_, rfl, rfl⟩
        · split
          · exact .inl ⟨_, rfl, rfl⟩
          · exact .inr ⟨_, _, rfl, rfl, .some ⟨[], _, rfl, rfl⟩⟩
  · unfold processContent
    dsimp only
    split
    · split
      · exact .inr ⟨_, _, rfl, rfl, .none⟩
      · refine BothRelated.map (takeContent_relabeled ?_ _) fun a b hab => Option.Rel.some hab
        exact ⟨cs, headers, hcs, rfl⟩
    · refine BothRelated.map (takeContent_relabeled ?_ _) fun a b hab =>
        Option.Rel.some (completePart_relabeled hab)
      exact ⟨cs, headers, hcs, rfl⟩

/-- The loop does not see the difference. -/
lemma run_relabeled (h : Relabeled s s') : BothRelated Relabeled s.run s'.run := by
  induction s using run_induction generalizing s' with
  | hend s he =>
      have he' : s'.buffer = [] ∨ s'.isFinished := by
        obtain ⟨cs, headers, -, rfl⟩ := h
        exact he
      exact .inr ⟨_, _, run_of_end he, run_of_end he', h⟩
  | herror s e he hs =>
      have he' : ¬ (s'.buffer = [] ∨ s'.isFinished) := by
        obtain ⟨cs, headers, -, rfl⟩ := h
        exact he
      obtain ⟨e', hx, hy⟩ | ⟨a, b, hx, -, -⟩ := processCurrentStage_relabeled h
      · exact .inl ⟨e', run_of_error he hx, run_of_error he' hy⟩
      · rw [hs] at hx
        cases hx
  | hnone s he hs =>
      obtain ⟨e', hx, -⟩ | ⟨a, b, hx, hy, hab⟩ := processCurrentStage_relabeled h
      · rw [hs] at hx
        cases hx
      · obtain rfl : none = a := Except.ok.inj (hs.symm.trans hx)
        cases hab
        exact .inr ⟨_, _, run_of_none hs, run_of_none hy, h⟩
  | hsome s t he hs ih =>
      have he' : ¬ (s'.buffer = [] ∨ s'.isFinished) := by
        obtain ⟨cs, headers, -, rfl⟩ := h
        exact he
      obtain ⟨e', hx, -⟩ | ⟨a, b, hx, hy, hab⟩ := processCurrentStage_relabeled h
      · rw [hs] at hx
        cases hx
      · obtain rfl : some t = a := Except.ok.inj (hs.symm.trans hx)
        cases hab with
        | some hab =>
            rw [run_of_some he hs, run_of_some he' hy]
            exact ih hab

/-! ### Outcomes -/

/-- What a parse makes of a state once its last chunk is in the buffer, `none` if it fails. -/
def outcome (s : ParserState) : Option MultipartData := (s.run >>= finalize).toOption

lemma outcome_of_end (h : s.buffer = [] ∨ s.isFinished) : s.outcome = s.finalize.toOption := by
  rw [outcome, run_of_end h]
  rfl

lemma outcome_of_error {e : UploadError} (h : s.run = .error e) : s.outcome = none := by
  rw [outcome, h]
  rfl

lemma outcome_of_none (h : s.processCurrentStage = .ok none) :
    s.outcome = s.finalize.toOption := by
  rw [outcome, run_of_none h]
  rfl

lemma outcome_relabeled (h : Relabeled s s') : s.outcome = s'.outcome := by
  obtain ⟨e, hx, hy⟩ | ⟨a, b, hx, hy, cs, headers, -, rfl⟩ := run_relabeled h
  · rw [outcome_of_error hx, outcome_of_error hy]
  · rw [outcome, outcome, hx, hy]
    rfl

end ParserState

end Blaize.Upload
