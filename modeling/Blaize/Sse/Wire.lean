import Blaize.Lib.EventStream
import Blaize.Sse.Stream

/-!
Does a reader of event streams get the events that the stream writes?

`formatSSEEvent` writes the name of an event as it is, and the data in lines that it has
split at LF only, while a reader ends a line at CR as well.

* `eventLines`: the lines that are written for an event;
* `Transportable`: the name is not empty and has no line break, and the data has no CR;
* `parse_written_iff_transportable`: **a reader gets exactly the events of a sequence if and
  only if all of them are transportable**.
-/

namespace Blaize.Sse

open EventStream

/-- The text of the data of an accepted event. -/
def BufferedEvent.dataText (e : BufferedEvent) : String := (dataStr e.data).get e.data_ok

/-- What a reader is to get of an event. -/
def BufferedEvent.message (e : BufferedEvent) : Message :=
  ⟨e.event, e.dataText, toString e.id⟩

/-- The name and the data of the event can be read back. -/
structure BufferedEvent.Transportable (e : BufferedEvent) : Prop where
  name_ne : e.event ≠ ""
  name : Unbroken e.event.toList
  data : '\r' ∉ e.dataText.toList

/-! ### The lines of an event -/

/-- The lines of an event before the padding. -/
def fieldLines (event data id : String) : List (List Char) :=
  ["id".toList ++ ':' :: ' ' :: id.toList, "event".toList ++ ':' :: ' ' :: event.toList] ++
    (data.toList.splitOn '\n').map (fun line => "data".toList ++ ':' :: ' ' :: line) ++ [[]]

/-- The padding, as no line or as a comment. -/
def paddingLines (event data id : String) : List (List Char) :=
  let size := (String.ofList ((fieldLines event data id).flatMap (· ++ ['\n']))).utf8ByteSize
  if size < minEventSize then [':' :: ' ' :: List.replicate (minEventSize - size) '·'] else []

def eventLines (event data id : String) : List (List Char) :=
  fieldLines event data id ++ paddingLines event data id

/-- The text of an event before the padding. -/
lemma fieldText_eq (event data id : String) :
    "\n".intercalate (["id: " ++ id] ++ [] ++ ["event: " ++ event] ++
        (data.splitOn "\n").map ("data: " ++ ·) ++ [""]) ++ "\n" =
      String.ofList ((fieldLines event data id).flatMap (· ++ ['\n'])) := by
  rw [← String.toList_inj, String.toList_append, String.toList_intercalate,
    String.splitOn_newline, String.toList_ofList]
  refine (List.intercalate_concat '\n' (by simp)).trans ?_
  simp [fieldLines, Function.comp_def]

/-- `formatSSEEvent` writes the lines of the event. -/
lemma toList_formatSSEEvent (event data : String) {id : String} (hid : id ≠ "") :
    (formatSSEEvent event data (some id) none).toList =
      (eventLines event data id).flatMap (· ++ ['\n']) := by
  simp only [formatSSEEvent, if_neg hid, fieldText_eq, eventLines, paddingLines,
    List.flatMap_append]
  split
  · simp
  · simp

/-! ### Reading the lines of an event -/

lemma interpret_cons_of_none {b b' : Buffers} {line : List Char} (ls : List (List Char))
    (h : b.processLine line = (b', none)) : interpret b (line :: ls) = interpret b' ls := by
  rw [interpret, h]
  rfl

/-- The data lines are collected. -/
lemma interpret_dataLines (b : Buffers) (ls rest : List (List Char)) :
    interpret b (ls.map (fun line => "data".toList ++ ':' :: ' ' :: line) ++ rest) =
      interpret { b with data := b.data ++ ls.flatMap (· ++ ['\n']) } rest := by
  induction ls generalizing b with
  | nil => simp
  | cons l ls ih =>
      have hline : b.processLine ("data".toList ++ ':' :: ' ' :: l) =
          ({ b with data := b.data ++ l ++ ['\n'] }, none) := by
        rw [processLine_field b (by decide) (by decide)]
        rfl
      rw [List.map_cons, List.cons_append, interpret_cons_of_none _ hline, ih,
        List.flatMap_cons]
      simp only [List.append_assoc]

/-- **The lines of an event are read as the event**, and leave the buffers empty. -/
lemma interpret_eventLines {b : Buffers} (hd : b.data = []) {event data id : String}
    (hevent : event ≠ "") (hid : '\x00' ∉ id.toList) (rest : List (List Char)) :
    interpret b (eventLines event data id ++ rest) =
      ⟨event, data, id⟩ ::
        interpret { b with data := [], eventType := [], lastEventId := id.toList } rest := by
  have hidLine : b.processLine ("id".toList ++ ':' :: ' ' :: id.toList) =
      ({ b with lastEventId := id.toList }, none) := by
    rw [processLine_field b (by decide) (by decide), Buffers.processField]
    simp [hid]
  have heventLine : ∀ b : Buffers, b.processLine ("event".toList ++ ':' :: ' ' :: event.toList) =
      ({ b with eventType := event.toList }, none) := fun b => by
    rw [processLine_field b (by decide) (by decide)]
    rfl
  have hpadding : ∀ (b : Buffers) (rest : List (List Char)),
      interpret b (paddingLines event data id ++ rest) = interpret b rest := by
    intro b rest
    rw [paddingLines]
    split
    · exact interpret_cons_of_none _ (processLine_comment b _)
    · rfl
  have hdata : ((data.toList.splitOn '\n').flatMap (· ++ ['\n'])) = data.toList ++ ['\n'] := by
    rw [← List.intercalate_concat '\n' (List.splitOn_ne_nil _ _), List.intercalate_splitOn]
  have hne : event.toList ≠ [] := fun h => hevent (String.toList_eq_nil_iff.mp h)
  rw [eventLines, fieldLines, List.append_assoc, List.append_assoc, List.append_assoc,
    List.cons_append, List.cons_append, List.nil_append, interpret_cons_of_none _ hidLine,
    interpret_cons_of_none _ (heventLine _), interpret_dataLines, hdata, hd,
    List.cons_append, List.nil_append, interpret, processLine_empty, Buffers.dispatch]
  simp [hpadding, hne]

lemma unbroken_append {text text' : List Char} (h : Unbroken text) (h' : Unbroken text') :
    Unbroken (text ++ text') :=
  fun c hc => (List.mem_append.mp hc).elim (h c) (h' c)

/-- Without line breaks in the name and the id and without a CR in the data, the lines of an
event have no line breaks. -/
lemma unbroken_of_mem_eventLines {event data id : String} (hevent : Unbroken event.toList)
    (hdata : '\r' ∉ data.toList) (hid : Unbroken id.toList) {l : List Char}
    (h : l ∈ eventLines event data id) : Unbroken l := by
  have hfield : ∀ {field value : List Char}, Unbroken field → Unbroken value →
      Unbroken (field ++ ':' :: ' ' :: value) := fun hf hv =>
    unbroken_append hf (unbroken_append (by decide : Unbroken [':', ' ']) hv)
  simp only [eventLines, fieldLines, List.mem_append, List.mem_cons, List.not_mem_nil, or_false,
    List.mem_map] at h
  rcases h with (((rfl | rfl) | ⟨line, hline, rfl⟩) | rfl) | h
  · exact hfield (by decide) hid
  · exact hfield (by decide) hevent
  · refine hfield (by decide) fun c hc => ?_
    obtain ⟨hmem, hn⟩ := List.mem_of_mem_splitOn hline hc
    have hr : c ≠ '\r' := by
      rintro rfl
      exact hdata hmem
    simp [isBreak, hn, hr]
  · exact unbroken_nil
  · rw [paddingLines] at h
    split at h
    · rw [List.mem_singleton.mp h]
      refine unbroken_append (by decide : Unbroken [':', ' ']) fun c hc => ?_
      rw [List.eq_of_mem_replicate hc]
      decide
    · cases h

/-! ### Sequences of events -/

lemma mem_toString_int {n : ℤ} {c : Char} (h : c ∈ (toString n).toList) :
    c.isDigit = true ∨ c = '-' := by
  cases n with
  | ofNat n =>
      exact Or.inl (Nat.isDigit_of_mem_toDigits (by decide) (by decide)
        (Nat.toList_repr ▸ h))
  | negSucc n =>
      replace h : c ∈ ("-" ++ (n + 1).repr).toList := h
      rw [String.toList_append, List.mem_append, Nat.toList_repr] at h
      rcases h with h | h
      · exact Or.inr (by simpa using h)
      · exact Or.inl (Nat.isDigit_of_mem_toDigits (by decide) (by decide) h)

/-- The text of a number has neither line breaks nor the null character. -/
lemma toString_int_chars (n : ℤ) :
    toString n ≠ "" ∧ Unbroken (toString n).toList ∧ '\x00' ∉ (toString n).toList := by
  refine ⟨fun he => ?_, fun c hc => ?_, fun hc => ?_⟩
  · have hnil := congrArg String.toList he
    cases n with
    | ofNat n =>
        replace hnil : n.repr.toList = [] := hnil
        rw [Nat.toList_repr] at hnil
        exact Nat.toDigits_ne_nil hnil
    | negSucc n =>
        replace hnil : ("-" ++ (n + 1).repr).toList = [] := hnil
        rw [String.toList_append] at hnil
        cases hnil
  · rcases mem_toString_int hc with hd | rfl
    · have hn : c ≠ '\n' := by
        rintro rfl
        exact absurd hd (by decide)
      have hr : c ≠ '\r' := by
        rintro rfl
        exact absurd hd (by decide)
      simp [isBreak, hn, hr]
    · decide
  · rcases mem_toString_int hc with hd | he
    · exact absurd hd (by decide)
    · exact absurd he (by decide)

/-- The text that is written for a sequence of events. -/
def written (es : List BufferedEvent) : List Char := es.flatMap (·.formatted.toList)

lemma toList_formatted (e : BufferedEvent) :
    e.formatted.toList = (eventLines e.event e.dataText (toString e.id)).flatMap (· ++ ['\n']) :=
  toList_formatSSEEvent _ _ (toString_int_chars e.id).1

/-- The lines of transportable events are read back from what is written. -/
lemma lines_written {es : List BufferedEvent} (h : ∀ e ∈ es, e.Transportable) :
    lines (written es) =
      es.flatMap fun e => eventLines e.event e.dataText (toString e.id) := by
  have hflat : written es = (es.flatMap fun e =>
      eventLines e.event e.dataText (toString e.id)).flatMap (· ++ ['\n']) := by
    rw [written, List.flatMap_assoc]
    exact List.flatMap_congr fun e _ => toList_formatted e
  rw [hflat]
  refine lines_flatten fun l hl => ?_
  obtain ⟨e, he, hl⟩ := List.mem_flatMap.mp hl
  exact unbroken_of_mem_eventLines (h e he).name (h e he).data (toString_int_chars e.id).2.1 hl

/-- The lines of events are read as the events, one after the other. -/
lemma interpret_events {b : Buffers} (hd : b.data = []) {es : List BufferedEvent}
    (h : ∀ e ∈ es, e.Transportable) :
    interpret b (es.flatMap fun e => eventLines e.event e.dataText (toString e.id)) =
      es.map BufferedEvent.message := by
  induction es generalizing b with
  | nil => rfl
  | cons e es ih =>
      rw [List.flatMap_cons, interpret_eventLines hd (h e List.mem_cons_self).name_ne
        (toString_int_chars e.id).2.2, ih rfl fun e' he' => h e' (List.mem_cons_of_mem _ he')]
      rfl

/-- What is written does not start with a byte order mark. -/
lemma parse_written (es : List BufferedEvent) :
    parse (written es) = interpret {} (lines (written es)) := by
  rw [parse.eq_def]
  split
  next text htext =>
      cases es with
      | nil => cases htext
      | cons e es =>
          rw [written, List.flatMap_cons, toList_formatted] at htext
          exact absurd (List.cons.inj htext).1 (by decide)
  next => rfl

/-- **A reader gets exactly the events that were written, with their names, data and ids, if
and only if no name is empty or has a line break and no data has a CR.** -/
theorem parse_written_iff_transportable (es : List BufferedEvent) :
    parse (written es) = es.map BufferedEvent.message ↔ ∀ e ∈ es, e.Transportable := by
  constructor
  · intro h e he
    have hread : e.message.WellRead :=
      wellRead_of_mem_parse (h ▸ List.mem_map.mpr ⟨e, he, rfl⟩)
    exact ⟨hread.type_ne, hread.type, hread.data⟩
  · intro h
    rw [parse_written, lines_written h, interpret_events rfl h]

/-- A text with a CR, such as a progress line of a program. -/
def progressEvent : BufferedEvent := ⟨1, "log", .string "50%\r100%", 61, rfl⟩

/-- The data of the event is cut off at its CR. -/
theorem not_parse_written_progress :
    ¬ ∀ es : List BufferedEvent, parse (written es) = es.map BufferedEvent.message := by
  intro h
  have hmem : progressEvent.message ∈ parse (written [progressEvent]) := by
    rw [h]
    exact List.mem_singleton_self _
  exact (wellRead_of_mem_parse hmem).data (by decide)

end Blaize.Sse
