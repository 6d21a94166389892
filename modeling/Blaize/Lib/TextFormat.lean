import Mathlib.Data.List.Basic
import Mathlib.Data.List.TakeWhile
import Mathlib.Tactic.Common
import Blaize.Lib.Js

/-!
The lines of the Prometheus text exposition format, as a reader of the format takes them.

A text is a list of characters.  White space inside the braces is left out.

* `escape`, `Sample.render`: a sample with its labels as a line;
* `readValue`, `readLabels`, `readSample`, `readType`: the readers of a line;
* `readValue_escape`: what was escaped is read back;
* `readSample_render`: **a line is read as the sample that it was made of**.
-/

namespace TextFormat

/-- The name and the value of a label. -/
abbrev Label := List Char × List Char

/-- A sample as it is written. -/
structure Sample where
  name : List Char
  labels : List Label
  value : List Char
  deriving DecidableEq

/-! ### Writing -/

/-- What a character is written as. -/
def escapeChar : Char → List Char
  | '\\' => ['\\', '\\']
  | '"' => ['\\', '"']
  | '\n' => ['\\', 'n']
  | c => [c]

/-- The text of the value of a label. -/
def escape (text : List Char) : List Char := text.flatMap escapeChar

/-- A label. -/
def renderLabel (label : Label) : List Char := label.1 ++ '=' :: '"' :: escape label.2 ++ ['"']

/-- The labels between braces, or nothing. -/
def renderLabels : List Label → List Char
  | [] => []
  | labels => '\x7b' :: [','].intercalate (labels.map renderLabel) ++ ['\x7d']

/-- The line of a sample. -/
def Sample.render (sample : Sample) : List Char :=
  sample.name ++ renderLabels sample.labels ++ ' ' :: sample.value

lemma renderLabels_of_ne_nil {labels : List Label} (h : labels ≠ []) :
    renderLabels labels =
      '\x7b' :: ([','].intercalate (labels.map renderLabel) ++ ['\x7d']) := by
  cases labels with
  | nil => exact absurd rfl h
  | cons label labels => rfl

lemma escapeChar_of_ne {c : Char} (hbackslash : c ≠ '\\') (hquote : c ≠ '"')
    (hnewline : c ≠ '\n') : escapeChar c = [c] := by
  unfold escapeChar
  split
  next h => exact absurd rfl hbackslash
  next h => exact absurd rfl hquote
  next h => exact absurd rfl hnewline
  next => rfl

/-- What is escaped has no line break. -/
lemma newline_notMem_escape (text : List Char) : '\n' ∉ escape text := by
  intro h
  obtain ⟨c, -, hc⟩ := List.mem_flatMap.mp h
  by_cases hbackslash : c = '\\'
  · subst hbackslash
    simp [escapeChar] at hc
  by_cases hquote : c = '"'
  · subst hquote
    simp [escapeChar] at hc
  by_cases hnewline : c = '\n'
  · subst hnewline
    simp [escapeChar] at hc
  · rw [escapeChar_of_ne hbackslash hquote hnewline, List.mem_singleton] at hc
    exact hnewline hc.symm

lemma length_le_escape (text : List Char) : text.length ≤ (escape text).length := by
  induction text with
  | nil => exact Nat.le_refl 0
  | cons c text ih =>
      have hone : 1 ≤ (escapeChar c).length := by
        unfold escapeChar
        split
        all_goals simp
      rw [escape, List.flatMap_cons, List.length_append, ← escape, List.length_cons]
      omega

/-- Escaping leaves exactly the texts alone that have nothing to escape. -/
lemma escape_eq_self_iff {text : List Char} :
    escape text = text ↔ '\\' ∉ text ∧ '"' ∉ text ∧ '\n' ∉ text := by
  constructor
  · intro h
    induction text with
    | nil => exact ⟨List.not_mem_nil, List.not_mem_nil, List.not_mem_nil⟩
    | cons c text ih =>
        rw [escape, List.flatMap_cons, ← escape] at h
        by_cases hbackslash : c = '\\'
        · subst hbackslash
          have hlength := congrArg List.length h
          have hle := length_le_escape text
          simp only [escapeChar, List.length_append, List.length_cons, List.length_nil] at hlength
          omega
        by_cases hquote : c = '"'
        · subst hquote
          cases (List.cons.inj h).1
        by_cases hnewline : c = '\n'
        · subst hnewline
          cases (List.cons.inj h).1
        rw [escapeChar_of_ne hbackslash hquote hnewline] at h
        obtain ⟨h₁, h₂, h₃⟩ := ih (List.cons.inj h).2
        simp [h₁, h₂, h₃, Ne.symm hbackslash, Ne.symm hquote, Ne.symm hnewline]
  · rintro ⟨hbackslash, hquote, hnewline⟩
    have hone : ∀ c ∈ text, escapeChar c = [c] := fun c hc =>
      escapeChar_of_ne (fun he => hbackslash (he ▸ hc)) (fun he => hquote (he ▸ hc))
        fun he => hnewline (he ▸ hc)
    rw [escape, List.flatMap_congr hone, List.flatMap_singleton']

/-- The characters of an escaped text. -/
lemma mem_escape {text : List Char} {c : Char} (h : c ∈ escape text) :
    c ∈ text ∨ c ∈ ['\\', 'n'] := by
  obtain ⟨d, hd, hc⟩ := List.mem_flatMap.mp h
  unfold escapeChar at hc
  split at hc
  · simp_all
  · simp only [List.mem_cons, List.not_mem_nil, or_false] at hc
    rcases hc with rfl | rfl
    · exact .inr (by decide)
    · exact .inl hd
  · exact .inr hc
  · exact .inl (List.mem_singleton.mp hc ▸ hd)

lemma newline_notMem_renderLabel {label : Label} (h : '\n' ∉ label.1) :
    '\n' ∉ renderLabel label := by
  have hescape := newline_notMem_escape label.2
  simp [renderLabel, h, hescape]

/-- A sample takes one line. -/
lemma newline_notMem_render {sample : Sample} (hname : '\n' ∉ sample.name)
    (hkeys : ∀ label ∈ sample.labels, '\n' ∉ label.1) (hvalue : '\n' ∉ sample.value) :
    '\n' ∉ sample.render := by
  have hlabels : '\n' ∉ renderLabels sample.labels := by
    cases hcase : sample.labels with
    | nil => exact List.not_mem_nil
    | cons label labels =>
        rw [hcase] at hkeys
        have hmid : '\n' ∉ [','].intercalate ((label :: labels).map renderLabel) := by
          intro hc
          rcases List.mem_of_mem_intercalate hc with hc | ⟨part, hpart, hc⟩
          · cases List.mem_singleton.mp hc
          · obtain ⟨label', hlabel', rfl⟩ := List.mem_map.mp hpart
            exact newline_notMem_renderLabel (hkeys label' hlabel') hc
        simp only [renderLabels, List.mem_append, List.mem_cons, List.not_mem_nil, or_false]
        rintro ((hc | hc) | hc)
        · cases hc
        · exact hmid hc
        · cases hc
  simp [Sample.render, hname, hlabels, hvalue]

/-! ### Reading -/

/-- A value after its opening quote, and what follows the closing one. -/
def readValue : List Char → Option (List Char × List Char)
  | '"' :: text => some ([], text)
  | '\\' :: '\\' :: text => (readValue text).map fun (value, text) => ('\\' :: value, text)
  | '\\' :: '"' :: text => (readValue text).map fun (value, text) => ('"' :: value, text)
  | '\\' :: 'n' :: text => (readValue text).map fun (value, text) => ('\n' :: value, text)
  | '\\' :: _ => none
  | c :: text => (readValue text).map fun (value, text) => (c :: value, text)
  | [] => none

/-- The labels after the opening brace, and what follows the closing one. -/
def readLabels : ℕ → List Char → Option (List Label × List Char)
  | 0, _ => none
  | fuel + 1, text =>
      let key := text.takeWhile (· ≠ '=')
      match text.dropWhile (· ≠ '=') with
      | '=' :: '"' :: text =>
          match readValue text with
          | some (value, ',' :: text) =>
              (readLabels fuel text).map fun (labels, text) => ((key, value) :: labels, text)
          | some (value, '\x7d' :: text) => some ([(key, value)], text)
          | _ => none
      | _ => none

/-- The characters of a metric name. -/
def isNameChar (c : Char) : Bool := c.isAlphanum || c = '_' || c = ':'

/-- A sample line; comments and empty lines are none. -/
def readSample (line : List Char) : Option Sample :=
  let name := line.takeWhile isNameChar
  if name = [] then none
  else
    match line.dropWhile isNameChar with
    | ' ' :: value => some ⟨name, [], value⟩
    | '\x7b' :: text =>
        match readLabels text.length text with
        | some (labels, ' ' :: value) => some ⟨name, labels, value⟩
        | _ => none
    | _ => none

/-- The name that a `TYPE` line is about. -/
def readType : List Char → Option (List Char)
  | '#' :: ' ' :: 'T' :: 'Y' :: 'P' :: 'E' :: ' ' :: text => some (text.takeWhile (· ≠ ' '))
  | _ => none

lemma readType_type {name : List Char} (h : ' ' ∉ name) (kind : List Char) :
    readType ('#' :: ' ' :: 'T' :: 'Y' :: 'P' :: 'E' :: ' ' :: (name ++ ' ' :: kind)) =
      some name := by
  have hall : ∀ c ∈ name, decide (c ≠ ' ') = true := fun c hc =>
    decide_eq_true fun he => h (he ▸ hc)
  rw [readType, List.takeWhile_append_of_pos hall]
  simp

lemma readType_of_ne {c : Char} (h : c ≠ '#') (text : List Char) : readType (c :: text) = none := by
  unfold readType
  split
  next heq => exact absurd (List.cons.inj heq).1 h
  next => rfl

/-! ### What was written is read -/

lemma readValue_escapeChar (c : Char) (text : List Char) :
    readValue (escapeChar c ++ text) =
      (readValue text).map fun (value, text) => (c :: value, text) := by
  unfold escapeChar
  split
  · rfl
  · rfl
  · rfl
  next hbackslash hquote hnewline =>
      rw [List.singleton_append, readValue.eq_def]
      split
      next h => exact absurd (List.cons.inj h).1 hquote
      next h => exact absurd (List.cons.inj h).1 hbackslash
      next h => exact absurd (List.cons.inj h).1 hbackslash
      next h => exact absurd (List.cons.inj h).1 hbackslash
      next h => exact absurd (List.cons.inj h).1 hbackslash
      next h =>
          obtain ⟨rfl, rfl⟩ := List.cons.inj h
          rfl
      next h => cases h

/-- **A value is read back**, whatever follows its closing quote. -/
lemma readValue_escape (value text : List Char) :
    readValue (escape value ++ '"' :: text) = some (value, text) := by
  induction value with
  | nil => rfl
  | cons c value ih =>
      rw [escape, List.flatMap_cons, List.append_assoc, readValue_escapeChar]
      rw [escape] at ih
      rw [ih]
      rfl

lemma renderLabel_append (label : Label) (text : List Char) :
    renderLabel label ++ text = label.1 ++ '=' :: '"' :: (escape label.2 ++ '"' :: text) := by
  simp [renderLabel]

/-- The first label is read up to the character after its value. -/
lemma takeWhile_renderLabel {label : Label} (h : '=' ∉ label.1) (text : List Char) :
    (renderLabel label ++ text).takeWhile (· ≠ '=') = label.1 ∧
      (renderLabel label ++ text).dropWhile (· ≠ '=') =
        '=' :: '"' :: (escape label.2 ++ '"' :: text) := by
  have hkey : ∀ c ∈ label.1, decide (c ≠ '=') = true := fun c hc =>
    decide_eq_true fun he => h (he ▸ hc)
  rw [renderLabel_append, List.takeWhile_append_of_pos hkey, List.dropWhile_append_of_pos hkey]
  simp

/-- One label, and the next ones after a comma. -/
lemma readLabels_comma {label : Label} (h : '=' ∉ label.1) (fuel : ℕ) (text : List Char) :
    readLabels (fuel + 1) (renderLabel label ++ ',' :: text) =
      (readLabels fuel text).map fun (labels, text) => (label :: labels, text) := by
  obtain ⟨htake, hdrop⟩ := takeWhile_renderLabel h (',' :: text)
  simp only [readLabels, htake, hdrop, readValue_escape]

/-- The last label. -/
lemma readLabels_brace {label : Label} (h : '=' ∉ label.1) (fuel : ℕ) (text : List Char) :
    readLabels (fuel + 1) (renderLabel label ++ '\x7d' :: text) = some ([label], text) := by
  obtain ⟨htake, hdrop⟩ := takeWhile_renderLabel h ('\x7d' :: text)
  simp only [readLabels, htake, hdrop, readValue_escape]

lemma readLabels_render {labels : List Label} (hne : labels ≠ [])
    (hkeys : ∀ label ∈ labels, '=' ∉ label.1) (text : List Char) (fuel : ℕ)
    (hfuel : labels.length ≤ fuel) :
    readLabels fuel ([','].intercalate (labels.map renderLabel) ++ '\x7d' :: text) =
      some (labels, text) := by
  induction labels generalizing fuel with
  | nil => exact absurd rfl hne
  | cons label labels ih =>
      obtain ⟨fuel, rfl⟩ : ∃ n, fuel = n + 1 := Nat.exists_eq_add_one.mpr (by simp at hfuel; omega)
      have hkey := hkeys label List.mem_cons_self
      cases labels with
      | nil =>
          rw [List.map_singleton, List.intercalate_singleton]
          exact readLabels_brace hkey fuel text
      | cons next labels =>
          have hrest := ih (List.cons_ne_nil _ _)
            (fun l hl => hkeys l (List.mem_cons_of_mem _ hl)) fuel (by simpa using hfuel)
          have htext : [','].intercalate ((label :: next :: labels).map renderLabel) ++
              '\x7d' :: text = renderLabel label ++ ',' ::
                ([','].intercalate ((next :: labels).map renderLabel) ++ '\x7d' :: text) := by
            simp [List.intercalate_cons_cons]
          rw [htext, readLabels_comma hkey, hrest]
          rfl

lemma length_le_intercalate (labels : List Label) :
    labels.length ≤ ([','].intercalate (labels.map renderLabel)).length := by
  induction labels with
  | nil => exact Nat.le_refl 0
  | cons label labels ih =>
      cases labels with
      | nil =>
          simp [renderLabel]
          omega
      | cons next labels =>
          rw [List.map_cons, List.map_cons, List.intercalate_cons_cons] at *
          simp only [List.length_cons, List.length_append] at *
          omega

/-- **A line is read as the sample that it was made of.** -/
theorem readSample_render {sample : Sample} (hne : sample.name ≠ [])
    (hname : ∀ c ∈ sample.name, isNameChar c = true)
    (hkeys : ∀ label ∈ sample.labels, '=' ∉ label.1) :
    readSample sample.render = some sample := by
  obtain ⟨name, labels, value⟩ := sample
  cases labels with
  | nil =>
      have htake : (name ++ ' ' :: value).takeWhile isNameChar = name := by
        rw [List.takeWhile_append_of_pos hname]
        simp [isNameChar]
      have hdrop : (name ++ ' ' :: value).dropWhile isNameChar = ' ' :: value := by
        rw [List.dropWhile_append_of_pos hname]
        simp [isNameChar]
      rw [Sample.render, renderLabels, List.append_nil, readSample, htake, hdrop, if_neg hne]
      rfl
  | cons label labels =>
      have hrender : (Sample.mk name (label :: labels) value).render =
          name ++ '\x7b' :: ([','].intercalate ((label :: labels).map renderLabel) ++
            '\x7d' :: ' ' :: value) := by
        simp [Sample.render, renderLabels]
      have htake : ∀ text, (name ++ '\x7b' :: text).takeWhile isNameChar = name := by
        intro text
        rw [List.takeWhile_append_of_pos hname]
        simp [isNameChar]
      have hdrop : ∀ text, (name ++ '\x7b' :: text).dropWhile isNameChar = '\x7b' :: text := by
        intro text
        rw [List.dropWhile_append_of_pos hname]
        simp [isNameChar]
      have hread := readLabels_render (List.cons_ne_nil label labels) hkeys (' ' :: value)
        ([','].intercalate ((label :: labels).map renderLabel) ++ '\x7d' :: ' ' :: value).length
        ((length_le_intercalate _).trans (by rw [List.length_append]; exact Nat.le_add_right _ _))
      rw [hrender, readSample, htake, hdrop, if_neg hne]
      simp only [hread]

end TextFormat
