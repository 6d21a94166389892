import Mathlib.Data.List.Basic
import Mathlib.Tactic.Common
import Blaize.Lib.Js

/-!
The event streams of the HTML standard: how a reader splits a stream into lines, collects
their fields and dispatches messages.

* `lines`: the lines of a text; a line ends with CR LF, with LF or with CR, and a last line
  without an end is dropped;
* `Buffers`, `processLine`, `dispatch`: the interpretation of one line;
* `interpret`, `parse`: the messages of a list of lines, and of a stream;
* `lines_flatten`: lines without line breaks in them are read back;
* `WellRead`, `wellRead_of_mem_parse`: **a message never has an empty type, and there is no
  line break in its type and no CR in its data**.
-/

namespace EventStream

/-- A character that ends a line. -/
def isBreak (c : Char) : Bool := c = '\n' || c = '\r'

/-- The lines of a text, the first of which goes on with `line` reversed. -/
def linesFrom (line : List Char) : List Char → List (List Char)
  | [] => []
  | '\r' :: '\n' :: text => line.reverse :: linesFrom [] text
  | c :: text => if isBreak c then line.reverse :: linesFrom [] text else linesFrom (c :: line) text

/-- The lines of a text. -/
def lines (text : List Char) : List (List Char) := linesFrom [] text

/-- A message, as its event has it. -/
structure Message where
  type : String
  data : String
  lastEventId : String
  deriving DecidableEq, Repr

/-- The buffers of the reader and its reconnection time. -/
structure Buffers where
  data : List Char := []
  eventType : List Char := []
  lastEventId : List Char := []
  reconnectionTime : Option (List Char) := none
  deriving DecidableEq, Repr

/-- What an empty line does: a message, unless there is no data. -/
def Buffers.dispatch (b : Buffers) : Buffers × Option Message :=
  let next := { b with data := [], eventType := [] }
  if b.data = [] then
    (next, none)
  else
    let data := if b.data.getLast? = some '\n' then b.data.dropLast else b.data
    let type := if b.eventType = [] then "message".toList else b.eventType
    (next, some ⟨String.ofList type, String.ofList data, String.ofList b.lastEventId⟩)

/-- What a field does. -/
def Buffers.processField (b : Buffers) (field value : List Char) : Buffers :=
  if field = "event".toList then { b with eventType := value }
  else if field = "data".toList then { b with data := b.data ++ value ++ ['\n'] }
  else if field = "id".toList then
    if '\x00' ∈ value then b else { b with lastEventId := value }
  else if field = "retry".toList then
    if value.all Char.isDigit then { b with reconnectionTime := some value } else b
  else b

/-- The value of a field: one space after the colon is not part of it. -/
def fieldValue : List Char → List Char
  | ' ' :: value => value
  | value => value

/-- What a line does; a blank one dispatches. -/
def Buffers.processLine (b : Buffers) (line : List Char) : Buffers × Option Message :=
  match line with
  | [] => b.dispatch
  | ':' :: _ => (b, none)
  | line =>
      let field := line.takeWhile (· ≠ ':')
      (b.processField field (fieldValue ((line.dropWhile (· ≠ ':')).drop 1)), none)

/-- The messages of some lines, from a state of the buffers on. -/
def interpret : Buffers → List (List Char) → List Message
  | _, [] => []
  | b, line :: rest =>
      let (b, message) := b.processLine line
      message.toList ++ interpret b rest

/-- The messages of a stream; a byte order mark at its start is skipped. -/
def parse : List Char → List Message
  | '\uFEFF' :: text => interpret {} (lines text)
  | text => interpret {} (lines text)

/-! ### Lines -/

/-- The text has no line break. -/
def Unbroken (text : List Char) : Prop := ∀ c ∈ text, isBreak c = false

instance (text : List Char) : Decidable (Unbroken text) :=
  inferInstanceAs (Decidable (∀ c ∈ text, isBreak c = false))

lemma unbroken_nil : Unbroken [] := fun _ hc => nomatch hc

lemma linesFrom_unbroken {line text rest : List Char} (h : Unbroken text) :
    linesFrom line (text ++ '\n' :: rest) = (line.reverse ++ text) :: linesFrom [] rest := by
  induction text generalizing line with
  | nil =>
      rw [List.nil_append, linesFrom, if_pos (by decide), List.append_nil]
      exact fun _ hc => absurd hc (by decide)
  | cons c text ih =>
      have hc := h c List.mem_cons_self
      have hcr : c ≠ '\r' := by
        rintro rfl
        exact absurd hc (by decide)
      rw [List.cons_append, linesFrom, if_neg (by simp [hc]),
        ih fun c' hc' => h c' (List.mem_cons_of_mem _ hc'), List.reverse_cons, List.append_assoc,
        List.singleton_append]
      exact fun _ he => absurd he hcr

/-- **Lines without line breaks in them are read back.** -/
lemma lines_flatten {ls : List (List Char)} (h : ∀ l ∈ ls, Unbroken l) :
    lines (ls.flatMap (· ++ ['\n'])) = ls := by
  induction ls with
  | nil => rfl
  | cons l ls ih =>
      have hrest := ih fun l' hl' => h l' (List.mem_cons_of_mem _ hl')
      rw [lines] at hrest ⊢
      rw [List.flatMap_cons, List.append_assoc, List.singleton_append,
        linesFrom_unbroken (h l List.mem_cons_self), hrest, List.reverse_nil, List.nil_append]

/-- A line has no line break. -/
lemma unbroken_of_mem_linesFrom {line text l : List Char} (hline : Unbroken line)
    (h : l ∈ linesFrom line text) : Unbroken l := by
  have hrev : Unbroken line.reverse := fun c hc => hline c (List.mem_reverse.mp hc)
  induction line, text using linesFrom.induct with
  | case1 line => simp [linesFrom] at h
  | case2 line text ih =>
      rw [linesFrom] at h
      rcases List.mem_cons.mp h with rfl | h
      · exact hrev
      · exact ih nofun h nofun
  | case3 line c text hcr hbreak ih =>
      rw [linesFrom, if_pos hbreak] at h
      · rcases List.mem_cons.mp h with rfl | h
        · exact hrev
        · exact ih nofun h nofun
      · exact hcr
  | case4 line c text hcr hbreak ih =>
      have hcons : Unbroken (c :: line) := by
        refine List.forall_mem_cons.mpr ⟨?_, hline⟩
        simpa using hbreak
      rw [linesFrom, if_neg hbreak] at h
      · exact ih hcons h fun c' hc' => hcons c' (List.mem_reverse.mp hc')
      · exact hcr

/-! ### What a reader can read -/

/-- The type is not empty and has no line break, and the data has no CR. -/
structure Message.WellRead (m : Message) : Prop where
  type_ne : m.type ≠ ""
  type : Unbroken m.type.toList
  data : '\r' ∉ m.data.toList

/-- The buffers hold no line ends of their own. -/
structure Buffers.Clean (b : Buffers) : Prop where
  eventType : Unbroken b.eventType
  data : '\r' ∉ b.data

lemma Unbroken.of_subset {text text' : List Char} (h : Unbroken text) (hs : text' ⊆ text) :
    Unbroken text' :=
  fun c hc => h c (hs hc)

lemma fieldValue_subset (value : List Char) : fieldValue value ⊆ value := by
  rw [fieldValue.eq_def]
  split
  · exact List.subset_cons_self _ _
  · exact List.Subset.refl _

lemma Unbroken.cr_notMem {text : List Char} (h : Unbroken text) : '\r' ∉ text :=
  fun hc => absurd (h _ hc) (by decide)

lemma Buffers.Clean.processField {b : Buffers} (h : b.Clean) {field value : List Char}
    (hv : Unbroken value) : (b.processField field value).Clean := by
  rw [Buffers.processField]
  split
  · exact ⟨hv, h.data⟩
  split
  · refine ⟨h.eventType, ?_⟩
    simp only [List.mem_append, List.mem_singleton, not_or]
    exact ⟨⟨h.data, hv.cr_notMem⟩, by decide⟩
  split
  · split
    · exact h
    · exact ⟨h.eventType, h.data⟩
  split
  · split
    · exact ⟨h.eventType, h.data⟩
    · exact h
  · exact h

lemma Buffers.Clean.dispatch {b : Buffers} (h : b.Clean) :
    b.dispatch.1.Clean ∧ ∀ m ∈ b.dispatch.2, m.WellRead := by
  rw [Buffers.dispatch]
  split
  · exact ⟨⟨nofun, nofun⟩, nofun⟩
  · refine ⟨⟨nofun, nofun⟩, fun m hm => ?_⟩
    obtain rfl := Option.some.inj hm
    refine ⟨?_, ?_, ?_⟩
    · intro he
      have hnil := congrArg String.toList he
      rw [String.toList_ofList] at hnil
      split at hnil
      · exact absurd hnil (by decide)
      next hne => exact hne hnil
    · rw [String.toList_ofList]
      split
      · decide
      · exact h.eventType
    · rw [String.toList_ofList]
      split
      · exact fun hc => h.data (List.dropLast_subset _ hc)
      · exact h.data

lemma Buffers.Clean.processLine {b : Buffers} (h : b.Clean) {line : List Char}
    (hl : Unbroken line) :
    (b.processLine line).1.Clean ∧ ∀ m ∈ (b.processLine line).2, m.WellRead := by
  rw [Buffers.processLine.eq_def]
  split
  · exact h.dispatch
  · exact ⟨h, nofun⟩
  · refine ⟨h.processField (hl.of_subset fun c hc => ?_), nofun⟩
    exact (List.dropWhile_sublist _).subset (List.mem_of_mem_drop (fieldValue_subset _ hc))

lemma wellRead_of_mem_interpret {b : Buffers} (h : b.Clean) {ls : List (List Char)}
    (hls : ∀ l ∈ ls, Unbroken l) {m : Message} (hm : m ∈ interpret b ls) : m.WellRead := by
  induction ls generalizing b with
  | nil => cases hm
  | cons l ls ih =>
      obtain ⟨hclean, hread⟩ := h.processLine (hls l List.mem_cons_self)
      rw [interpret] at hm
      rcases List.mem_append.mp hm with hm | hm
      · exact hread m (Option.mem_toList.mp hm)
      · exact ih hclean (fun l' hl' => hls l' (List.mem_cons_of_mem _ hl')) hm

/-- **A message never has an empty type, a line break in its type or a CR in its data.** -/
theorem wellRead_of_mem_parse {text : List Char} {m : Message} (h : m ∈ parse text) :
    m.WellRead := by
  have hlines : ∀ text : List Char, ∀ l ∈ lines text, Unbroken l :=
    fun text l hl => unbroken_of_mem_linesFrom unbroken_nil hl
  have hstart : ({} : Buffers).Clean := ⟨unbroken_nil, List.not_mem_nil⟩
  rw [parse.eq_def] at h
  split at h
  · exact wellRead_of_mem_interpret hstart (hlines _) h
  · exact wellRead_of_mem_interpret hstart (hlines _) h

/-! ### The fields of a message -/

@[simp] lemma processLine_empty (b : Buffers) : b.processLine [] = b.dispatch := rfl

@[simp] lemma processLine_comment (b : Buffers) (text : List Char) :
    b.processLine (':' :: text) = (b, none) := rfl

/-- A line with a field name, a colon and a space. -/
lemma processLine_field (b : Buffers) {field : List Char} (hf : field ≠ [])
    (hc : ':' ∉ field) (value : List Char) :
    b.processLine (field ++ ':' :: ' ' :: value) = (b.processField field value, none) := by
  have hne : ∀ c ∈ field, c ≠ ':' := by
    rintro c hmem rfl
    exact hc hmem
  have htake : (field ++ ':' :: ' ' :: value).takeWhile (· ≠ ':') = field := by
    rw [List.takeWhile_append_of_pos fun c hmem => by simpa using hne c hmem]
    simp
  have hdrop : (field ++ ':' :: ' ' :: value).dropWhile (· ≠ ':') = ':' :: ' ' :: value := by
    rw [List.dropWhile_append_of_pos fun c hmem => by simpa using hne c hmem]
    simp
  obtain ⟨c, field, rfl⟩ := List.exists_cons_of_ne_nil hf
  have hcolon : c ≠ ':' := fun he => hc (he ▸ List.mem_cons_self)
  rw [Buffers.processLine.eq_def]
  split
  next he => cases he
  next he => exact absurd (List.cons.inj he).1 hcolon
  next => rw [htake, hdrop, List.drop_one, List.tail_cons, fieldValue]

end EventStream
