import Blaize.Upload.Utils
import Mathlib.Data.List.DropRight

/-!
Forms and their header lines.

A `FormPart` is a field or a file under a name that can stand in quotes.  `encodeForm`
writes a form the way the tests of the parser do
(`packages/blaize-core/src/upload/multipart-parser.test.ts`).

* `extractBoundary_contentTypeOf`: the boundary is read back from the `Content-Type`;
* `parseContentDisposition_headerText`: name and file name are read back from the header
  block of a part;
* `parseContentType_headerText`: **so is the content type, exactly if no name that holds
  the text `Content-Type:` comes in between** (`FormPart.TypeReadable`).
-/

namespace Blaize.Upload

open Js

/-! ### Forms -/

/-- No control character. -/
def isPrintable (c : Char) : Bool := 0x20 ≤ c.toNat && c.toNat ≠ 0x7F

/-- A boundary of printable characters. -/
structure Boundary where
  text : String
  text_ne : text ≠ ""
  printable : ∀ c ∈ text.toList, isPrintable c
  unquoted : ∀ c ∈ text.toList, c ≠ '"' ∧ c ≠ ';'

/-- The text can stand in quotes in a header line. -/
def Quotable (text : String) : Prop := ∀ c ∈ text.toList, c ≠ '"' ∧ c ≠ '\r' ∧ c ≠ '\n'

instance (text : String) : Decidable (Quotable text) :=
  inferInstanceAs (Decidable (∀ c ∈ text.toList, c ≠ '"' ∧ c ≠ '\r' ∧ c ≠ '\n'))

/-- A content type, which is one line without white space around it. -/
structure MimeType where
  text : String
  text_ne : text ≠ ""
  one_line : ∀ c ∈ text.toList, c ≠ '\r' ∧ c ≠ '\n'
  trimmed : trim text.toList = text.toList

/-- A field or a file. -/
inductive Payload where
  | field (value : String)
  | file (filename : String) (filename_ok : Quotable filename) (contentType : Option MimeType)
      (content : Bytes)

/-- A part of a form whose names can be written. -/
structure FormPart where
  name : String
  name_ne : name ≠ ""
  name_ok : Quotable name
  name_proto : name ≠ "__proto__"
  payload : Payload

/-- The content type of a file. -/
def mimetypeOf (contentType : Option MimeType) : String :=
  match contentType with
  | some t => t.text
  | none => "application/octet-stream"

namespace FormPart

variable (p : FormPart)

/-- Whether a part is a file. -/
def isFile : Bool :=
  match p.payload with
  | .field _ => false
  | .file _ _ _ _ => true

/-- The name of the file. -/
def filename : Option String :=
  match p.payload with
  | .field _ => none
  | .file filename _ _ _ => some filename

/-- The bytes of a part. -/
def content : Bytes :=
  match p.payload with
  | .field value => utf8Encode value
  | .file _ _ _ content => content

/-- The `Content-Disposition` line. -/
def dispositionLine : String :=
  "Content-Disposition: form-data; name=\"" ++ p.name ++ "\"" ++
    match p.filename with
    | none => ""
    | some filename => "; filename=\"" ++ filename ++ "\""

/-- The header block. -/
def headerText : String :=
  p.dispositionLine ++
    match p.payload with
    | .field _ => ""
    | .file _ _ contentType _ => "\r\nContent-Type: " ++ mimetypeOf contentType

/-- The `Content-Disposition` line of a file does not hold the text `Content-Type:`, or what
follows there to the end of the line is the content type. -/
def TypeReadable : Prop :=
  match p.payload with
  | .field _ => True
  | .file _ _ contentType _ =>
      ∀ rest, search (matchLiteral "Content-Type:".toList) p.dispositionLine.toList = some rest →
        trim rest = (mimetypeOf contentType).toList

end FormPart

/-- The body of a form. -/
def encodeForm (boundary : String) (parts : List FormPart) : Bytes :=
  parts.flatMap (fun p =>
    utf8Encode ("--" ++ boundary ++ "\r\n") ++ utf8Encode (p.headerText ++ "\r\n") ++
      utf8Encode "\r\n" ++ p.content ++ utf8Encode "\r\n") ++
    utf8Encode ("--" ++ boundary ++ "--\r\n")

/-- The `Content-Type` of the request, with the boundary in quotes if there is white space
in it. -/
def contentTypeOf (boundary : String) : String :=
  "multipart/form-data; boundary=" ++
    if boundary.toList.any isWhiteSpace then "\"" ++ boundary ++ "\"" else boundary

/-! ### Literals -/

/-- A literal matches itself. -/
lemma matchLiteral_self (literal text : List Char) :
    matchLiteral literal (literal ++ text) = some text := by
  induction literal with
  | nil => rfl
  | cons l literal ih => rw [List.cons_append, matchLiteral, if_pos rfl, ih]

lemma search_of_match {β : Type} {matchAt : List Char → Option β} {text : List Char} {m : β}
    (h : matchAt text = some m) : search matchAt text = some m := by
  cases text with
  | nil => exact h
  | cons c text => rw [search, h]

/-- Nothing matches at the characters of a prefix. -/
lemma search_append_of_none {β : Type} {matchAt : List Char → Option β} {before : List Char}
    (text : List Char) (h : ∀ c ∈ before, ∀ rest, matchAt (c :: rest) = none) :
    search matchAt (before ++ text) = search matchAt text := by
  induction before with
  | nil => rfl
  | cons c before ih =>
      rw [List.cons_append, search_cons_of_none (h c List.mem_cons_self _)]
      exact ih fun d hd => h d (List.mem_cons_of_mem c hd)

lemma search_map {β γ : Type} (matchAt : List Char → Option β) (f : β → γ) (text : List Char) :
    search (fun t => (matchAt t).map f) text = (search matchAt text).map f := by
  induction text with
  | nil => rfl
  | cons c text ih =>
      rw [search, search, ih]
      cases matchAt (c :: text) <;> rfl

/-- What follows a literal is an end of the text. -/
lemma suffix_of_matchLiteral {literal text rest : List Char}
    (h : matchLiteral literal text = some rest) : rest <:+ text := by
  induction literal generalizing text with
  | nil => exact Option.some.inj h ▸ List.suffix_rfl
  | cons l literal ih =>
      cases text with
      | nil => cases h
      | cons c text =>
          rw [matchLiteral] at h
          split at h
          · exact (ih h).trans (List.suffix_cons c text)
          · cases h

lemma suffix_of_search {matchAt : List Char → Option (List Char)}
    (hm : ∀ text rest, matchAt text = some rest → rest <:+ text) {text rest : List Char}
    (h : search matchAt text = some rest) : rest <:+ text := by
  induction text with
  | nil => exact hm [] rest h
  | cons c text ih =>
      rw [search] at h
      split at h
      · next hc => exact hm _ _ (hc.trans h)
      · exact (ih h).trans (List.suffix_cons c text)

/-- A character that is not in the literal ends every match. -/
lemma matchLiteral_append {literal : List Char} {stop : Char}
    (hstop : ∀ l ∈ literal, stop.toLower ≠ l.toLower) (before after : List Char) :
    matchLiteral literal (before ++ stop :: after) =
      (matchLiteral literal before).map (· ++ stop :: after) := by
  induction literal generalizing before with
  | nil => rfl
  | cons l literal ih =>
      cases before with
      | nil => exact if_neg (hstop l List.mem_cons_self)
      | cons c before =>
          rw [List.cons_append, matchLiteral, matchLiteral]
          split
          · exact ih (fun m hm => hstop m (List.mem_cons_of_mem l hm)) before
          · rfl

/-- The literal is found before that character, or behind it. -/
lemma search_matchLiteral_append {literal : List Char} {stop : Char} (hne : literal ≠ [])
    (hstop : ∀ l ∈ literal, stop.toLower ≠ l.toLower) (before after : List Char) :
    search (matchLiteral literal) (before ++ stop :: after) =
      ((search (matchLiteral literal) before).map (· ++ stop :: after)).or
        (search (matchLiteral literal) after) := by
  obtain ⟨l, literal, rfl⟩ := List.exists_cons_of_ne_nil hne
  induction before with
  | nil =>
      have hnone : matchLiteral (l :: literal) (stop :: after) = none :=
        if_neg (hstop l List.mem_cons_self)
      rw [List.nil_append, search_cons_of_none hnone]
      rfl
  | cons c before ih =>
      have hmatch := matchLiteral_append hstop (c :: before) after
      rw [List.cons_append] at hmatch
      rw [List.cons_append, search, search, hmatch]
      cases matchLiteral (l :: literal) (c :: before) with
      | none => exact ih
      | some rest => rfl

/-- The text before a quote. -/
lemma quoted_append {text : List Char} (h : '"' ∉ text) (rest : List Char) :
    quoted (text ++ '"' :: rest) = some (text, rest) := by
  have hp : ∀ c ∈ text, decide (c ≠ '"') = true := by
    intro c hc
    rw [decide_eq_true_eq]
    rintro rfl
    exact h hc
  rw [quoted, List.dropWhile_append_of_pos hp, List.takeWhile_append_of_pos hp]
  simp

/-! ### White space -/

lemma dropWhile_of_head {p : Char → Bool} {text : List Char}
    (h : ∀ c, text.head? = some c → p c = false) : text.dropWhile p = text := by
  cases text with
  | nil => rfl
  | cons c text => rw [List.dropWhile_cons_of_neg (by simp [h c rfl])]

/-- A text without white space at its ends is trimmed. -/
lemma trim_eq_self {text : List Char} (hhead : ∀ c, text.head? = some c → isWhiteSpace c = false)
    (hlast : ∀ c, text.getLast? = some c → isWhiteSpace c = false) : trim text = text := by
  rw [trim, dropWhile_of_head hhead, dropWhile_of_head, List.reverse_reverse]
  intro c hc
  rw [List.head?_reverse] at hc
  exact hlast c hc

lemma trim_dropWhile (text : List Char) : trim (text.dropWhile isWhiteSpace) = trim text := by
  rw [trim, trim, List.dropWhile_idempotent]

/-- A text with another character is not trimmed away. -/
lemma trim_ne_nil {text : List Char} {c : Char} (hc : c ∈ text) (hwhite : isWhiteSpace c = false) :
    trim text ≠ [] := by
  have hdrop {text : List Char} (hc : c ∈ text) : c ∈ text.dropWhile isWhiteSpace := by
    rw [← List.takeWhile_append_dropWhile (p := isWhiteSpace) (l := text), List.mem_append] at hc
    refine hc.resolve_left fun h => ?_
    rw [List.mem_takeWhile_imp h] at hwhite
    cases hwhite
  have hmem : c ∈ trim text :=
    List.mem_reverse.mpr (hdrop (List.mem_reverse.mpr (hdrop hc)))
  exact List.ne_nil_of_mem hmem

/-! ### The boundary -/

lemma Boundary.toList_ne (b : Boundary) : b.text.toList ≠ [] := by
  intro h
  exact b.text_ne (String.toList_eq_nil_iff.mp h)

/-- The value of the parameter, to the end of the header. -/
lemma boundaryAt_self {value : List Char} (hne : value ≠ []) (hsemi : ';' ∉ value) :
    boundaryAt ("boundary=".toList ++ value) = some value := by
  have htake : value.takeWhile (· ≠ ';') = value := by
    rw [List.takeWhile_eq_self_iff]
    intro c hc
    rw [decide_eq_true_eq]
    rintro rfl
    exact hsemi hc
  rw [boundaryAt, matchLiteral_self]
  change (if value.takeWhile (· ≠ ';') = [] then none else some (value.takeWhile (· ≠ ';'))) = _
  rw [htake, if_neg hne]

lemma search_boundaryAt {value : List Char} (hne : value ≠ []) (hsemi : ';' ∉ value) :
    search boundaryAt ("multipart/form-data; boundary=".toList ++ value) = some value := by
  have hsplit : "multipart/form-data; boundary=".toList =
      "multipart/form-data; ".toList ++ "boundary=".toList := by decide
  have hbefore : ∀ c ∈ "multipart/form-data; ".toList, c.toLower ≠ 'b'.toLower := by decide
  rw [hsplit, List.append_assoc, search_append_of_none]
  · exact search_of_match (boundaryAt_self hne hsemi)
  · intro c hc rest
    have hb : "boundary=".toList = 'b' :: "oundary=".toList := by decide
    rw [boundaryAt, hb, matchLiteral, if_neg (hbefore c hc)]
    rfl

/-- What `extractBoundary` makes of the value of the parameter. -/
lemma extractBoundary_of_value {text : String} {value : List Char} (htext : text.toList = value)
    (hne : value ≠ []) (hsemi : ';' ∉ value) (htrim : trim value = value) :
    extractBoundary ("multipart/form-data; boundary=" ++ text) =
      let boundary :=
        if value.head? = some '"' ∧ value.getLast? = some '"' then (value.drop 1).dropLast
        else value
      if boundary = [] then none else some (String.ofList boundary) := by
  rw [extractBoundary, String.toList_append, htext, search_boundaryAt hne hsemi]
  change (let boundary :=
    if (trim value).head? = some '"' ∧ (trim value).getLast? = some '"' then
      ((trim value).drop 1).dropLast
    else trim value
    if boundary = [] then none else some (String.ofList boundary)) = _
  rw [htrim]

/-- **The boundary is read back.** -/
theorem extractBoundary_contentTypeOf (b : Boundary) :
    extractBoundary (contentTypeOf b.text) = some b.text := by
  have hsemi : ';' ∉ b.text.toList := fun h => (b.unquoted ';' h).2 rfl
  have hquote : '"' ∉ b.text.toList := fun h => (b.unquoted '"' h).1 rfl
  unfold contentTypeOf
  split
  next =>
    have hvalue : ("\"" ++ b.text ++ "\"").toList = '"' :: (b.text.toList ++ ['"']) := by
      rw [String.toList_append, String.toList_append]
      rfl
    have hlast : ('"' :: (b.text.toList ++ ['"'])).getLast? = some '"' := by
      rw [← List.cons_append, List.getLast?_append]
      rfl
    have htrim : trim ('"' :: (b.text.toList ++ ['"'])) = '"' :: (b.text.toList ++ ['"']) := by
      have hwhite : isWhiteSpace '"' = false := by decide
      refine trim_eq_self (fun c hc => ?_) fun c hc => ?_
      · rw [← Option.some.inj hc, hwhite]
      · rw [← Option.some.inj (hlast.symm.trans hc), hwhite]
    have hends : ('"' :: (b.text.toList ++ ['"'])).head? = some '"' ∧
        ('"' :: (b.text.toList ++ ['"'])).getLast? = some '"' := ⟨rfl, hlast⟩
    rw [extractBoundary_of_value hvalue nofun (by simp [hsemi]) htrim]
    dsimp only
    rw [if_pos hends, List.drop_one, List.tail_cons, List.dropLast_concat,
      if_neg b.toList_ne, String.ofList_toList]
  next hwhite =>
    have hnowhite : ∀ c ∈ b.text.toList, isWhiteSpace c = false := by simpa using hwhite
    have htrim : trim b.text.toList = b.text.toList :=
      trim_eq_self (fun c hc => hnowhite c (List.mem_of_mem_head? hc))
        (fun c hc => hnowhite c (List.mem_of_getLast? hc))
    have hends : ¬ (b.text.toList.head? = some '"' ∧ b.text.toList.getLast? = some '"') :=
      fun h => hquote (List.mem_of_mem_head? h.1)
    rw [extractBoundary_of_value rfl b.toList_ne hsemi htrim]
    dsimp only
    rw [if_neg hends, if_neg b.toList_ne, String.ofList_toList]

/-! ### The names -/

/-- A literal behind a space that is skipped. -/
lemma matchLiteral_space {literal : List Char}
    (h : ∃ c l, literal = c :: l ∧ isWhiteSpace c = false) (text : List Char) :
    matchLiteral literal ((' ' :: (literal ++ text)).dropWhile isWhiteSpace) = some text := by
  obtain ⟨c, l, rfl, hc⟩ := h
  have hspace : isWhiteSpace ' ' = true := by decide
  rw [List.dropWhile_cons_of_pos hspace, List.cons_append,
    List.dropWhile_cons_of_neg (by simp [hc]), ← List.cons_append, matchLiteral_self]

/-- A file name in quotes is read. -/
lemma filenameAt_quoted {filename : List Char} (h : '"' ∉ filename) (rest : List Char) :
    filenameAt ("; filename=\"".toList ++ (filename ++ '"' :: rest)) = some filename := by
  have hliteral : "; filename=\"".toList = ";".toList ++ ' ' :: "filename=\"".toList := by decide
  have hfilename : ∃ c l, "filename=\"".toList = c :: l ∧ isWhiteSpace c = false :=
    ⟨'f', "ilename=\"".toList, by decide, by decide⟩
  unfold filenameAt
  rw [hliteral, List.append_assoc, matchLiteral_self]
  simp only [Option.bind_eq_bind, Option.bind_some, List.cons_append]
  rw [matchLiteral_space hfilename, Option.bind_some, quoted_append h, Option.bind_some]

/-- A name in quotes is read. -/
lemma contentDispositionAt_name {name : List Char} (hne : name ≠ []) (h : '"' ∉ name)
    (rest : List Char) :
    contentDispositionAt
        ("Content-Disposition: form-data; name=\"".toList ++ (name ++ '"' :: rest)) =
      some ⟨String.ofList name, (filenameAt rest).map String.ofList⟩ := by
  have hliteral : "Content-Disposition: form-data; name=\"".toList =
      "Content-Disposition:".toList ++ ' ' :: ("form-data;".toList ++ ' ' :: "name=\"".toList) := by
    decide
  have hform : ∃ c l, "form-data;".toList = c :: l ∧ isWhiteSpace c = false :=
    ⟨'f', "orm-data;".toList, by decide, by decide⟩
  have hname : ∃ c l, "name=\"".toList = c :: l ∧ isWhiteSpace c = false :=
    ⟨'n', "ame=\"".toList, by decide, by decide⟩
  unfold contentDispositionAt
  rw [hliteral, List.append_assoc, matchLiteral_self]
  simp only [Option.bind_eq_bind, Option.bind_some, List.cons_append, List.append_assoc]
  rw [matchLiteral_space hform, Option.bind_some, matchLiteral_space hname, Option.bind_some,
    quoted_append h, Option.bind_some, if_neg hne]

namespace FormPart

variable (p : FormPart)

lemma name_toList_ne : p.name.toList ≠ [] := by
  intro h
  exact p.name_ne (String.toList_eq_nil_iff.mp h)

lemma quote_notMem_name : '"' ∉ p.name.toList := fun h => (p.name_ok '"' h).1 rfl

lemma filename_ok {filename : String} (h : p.filename = some filename) : Quotable filename := by
  unfold FormPart.filename at h
  split at h
  · cases h
  · next f hf _ _ _ => exact Option.some.inj h ▸ hf

/-- What stands behind the name in the `Content-Disposition` line. -/
def filenameText : List Char :=
  match p.filename with
  | none => []
  | some filename => "; filename=\"".toList ++ (filename.toList ++ ['"'])

lemma dispositionLine_toList :
    p.dispositionLine.toList =
      "Content-Disposition: form-data; name=\"".toList ++
        (p.name.toList ++ '"' :: p.filenameText) := by
  have hquote : "\"".toList = ['"'] := by decide
  unfold dispositionLine filenameText
  cases p.filename with
  | none =>
      simp only [String.toList_append, hquote, String.toList_empty, List.append_nil,
        List.append_assoc]
  | some filename =>
      simp only [String.toList_append, hquote, List.append_assoc, List.singleton_append]

/-- What stands behind the `Content-Disposition` line in the header block. -/
def typeText : List Char :=
  match p.payload with
  | .field _ => []
  | .file _ _ contentType _ =>
      '\r' :: '\n' :: ("Content-Type: ".toList ++ (mimetypeOf contentType).toList)

lemma headerText_toList : p.headerText.toList = p.dispositionLine.toList ++ p.typeText := by
  have hline : "\r\nContent-Type: ".toList = '\r' :: '\n' :: "Content-Type: ".toList := by decide
  unfold headerText typeText
  cases p.payload with
  | field value => simp only [String.toList_append, String.toList_empty]
  | file filename h contentType content =>
      simp only [String.toList_append, hline, List.cons_append]

/-- The file name is read, whatever follows the line, and no file name is read where there
is none. -/
lemma filenameAt_filenameText :
    (filenameAt (p.filenameText ++ p.typeText)).map String.ofList = p.filename := by
  cases hpayload : p.payload with
  | field value =>
      have hname : p.filename = none := by rw [filename, hpayload]
      have hline : p.filenameText ++ p.typeText = [] := by
        rw [filenameText, typeText, hname, hpayload]
        rfl
      rw [hline, hname]
      rfl
  | file f hf contentType content =>
      have hname : p.filename = some f := by rw [filename, hpayload]
      have hquote : '"' ∉ f.toList := fun h => (hf '"' h).1 rfl
      have hline : p.filenameText ++ p.typeText =
          "; filename=\"".toList ++ (f.toList ++ '"' :: p.typeText) := by
        unfold filenameText
        rw [hname]
        simp only [List.append_assoc, List.singleton_append]
      rw [hline, filenameAt_quoted hquote, hname, Option.map_some, String.ofList_toList]

/-- **Name and file name are read back.** -/
theorem parseContentDisposition_headerText :
    parseContentDisposition p.headerText = some ⟨p.name, p.filename⟩ := by
  unfold parseContentDisposition
  refine search_of_match ?_
  have hsplit : p.headerText.toList = "Content-Disposition: form-data; name=\"".toList ++
      (p.name.toList ++ '"' :: (p.filenameText ++ p.typeText)) := by
    rw [headerText_toList, dispositionLine_toList]
    simp only [List.append_assoc, List.cons_append]
  rw [hsplit, contentDispositionAt_name p.name_toList_ne p.quote_notMem_name,
    String.ofList_toList, filenameAt_filenameText]

end FormPart

/-! ### The content type -/

lemma mimetypeOf_toList_ne (t : Option MimeType) : (mimetypeOf t).toList ≠ [] := by
  cases t with
  | none => decide
  | some t => exact fun h => t.text_ne (String.toList_eq_nil_iff.mp h)

lemma mimetypeOf_one_line (t : Option MimeType) :
    ∀ c ∈ (mimetypeOf t).toList, c ≠ '\r' ∧ c ≠ '\n' := by
  cases t with
  | none => decide
  | some t => exact t.one_line

lemma trim_mimetypeOf (t : Option MimeType) :
    trim (mimetypeOf t).toList = (mimetypeOf t).toList := by
  cases t with
  | none => decide
  | some t => exact t.trimmed

/-- The value that `parseContentType` takes from the text behind the name of the header. -/
lemma search_contentTypeAt (text : List Char) :
    search contentTypeAt text =
      (search (matchLiteral "Content-Type:".toList) text).map fun rest =>
        (rest.dropWhile isWhiteSpace).takeWhile fun c => c ≠ '\r' ∧ c ≠ '\n' := by
  have hmap : contentTypeAt = fun text =>
      (matchLiteral "Content-Type:".toList text).map fun rest =>
        (rest.dropWhile isWhiteSpace).takeWhile fun c => c ≠ '\r' ∧ c ≠ '\n' := by
    funext text
    unfold contentTypeAt
    cases matchLiteral "Content-Type:".toList text <;> rfl
  rw [hmap, search_map]

/-- The value ends at the end of the line. -/
lemma takeWhile_line {line : List Char} (hline : ∀ c ∈ line, c ≠ '\r' ∧ c ≠ '\n')
    (after : List Char) (hafter : ∀ c, after.head? = some c → c = '\r') :
    (line ++ after).takeWhile (fun c => c ≠ '\r' ∧ c ≠ '\n') = line := by
  have hpos : ∀ c ∈ line, decide (c ≠ '\r' ∧ c ≠ '\n') = true :=
    fun c hc => decide_eq_true (hline c hc)
  rw [List.takeWhile_append_of_pos hpos]
  cases after with
  | nil => exact List.append_nil line
  | cons c after =>
      obtain rfl := hafter c rfl
      exact List.append_nil line

lemma parseContentType_of_search {headers : String} {value : List Char}
    (h : search contentTypeAt headers.toList = some value) (hne : trim value ≠ []) :
    parseContentType headers = String.ofList (trim value) := by
  unfold parseContentType
  rw [h]
  exact if_neg hne

namespace FormPart

variable (p : FormPart)

/-- The line ends in a quote. -/
lemma dispositionLine_quote : ∃ line, p.dispositionLine.toList = line ++ ['"'] := by
  rw [dispositionLine_toList]
  unfold filenameText
  cases p.filename with
  | none => exact ⟨_, (List.append_assoc _ _ _).symm⟩
  | some filename =>
      refine ⟨"Content-Disposition: form-data; name=\"".toList ++
        (p.name.toList ++ '"' :: ("; filename=\"".toList ++ filename.toList)), ?_⟩
      simp only [List.append_assoc, List.cons_append]

/-- The line is one line. -/
lemma dispositionLine_one_line : ∀ c ∈ p.dispositionLine.toList, c ≠ '\r' ∧ c ≠ '\n' := by
  have hhead : ∀ c ∈ "Content-Disposition: form-data; name=\"".toList, c ≠ '\r' ∧ c ≠ '\n' := by
    decide
  have hmiddle : ∀ c ∈ "; filename=\"".toList, c ≠ '\r' ∧ c ≠ '\n' := by decide
  have hquote : '"' ≠ '\r' ∧ '"' ≠ '\n' := by decide
  have hfilename : ∀ c ∈ p.filenameText, c ≠ '\r' ∧ c ≠ '\n' := by
    unfold filenameText
    cases hf : p.filename with
    | none => nofun
    | some filename =>
        intro c hc
        rcases List.mem_append.mp hc with hc | hc
        · exact hmiddle c hc
        · rcases List.mem_append.mp hc with hc | hc
          · exact (p.filename_ok hf c hc).2
          · exact List.mem_singleton.mp hc ▸ hquote
  intro c hc
  rw [dispositionLine_toList] at hc
  rcases List.mem_append.mp hc with hc | hc
  · exact hhead c hc
  · rcases List.mem_append.mp hc with hc | hc
    · exact (p.name_ok c hc).2
    · rcases List.mem_cons.mp hc with rfl | hc
      · exact hquote
      · exact hfilename c hc

/-- A name that holds the text `Content-Type:` is found first. -/
lemma search_headerText {contentType : Option MimeType} {rest : List Char}
    (htype : p.typeText =
      '\r' :: '\n' :: ("Content-Type: ".toList ++ (mimetypeOf contentType).toList))
    (h : search (matchLiteral "Content-Type:".toList) p.dispositionLine.toList = some rest) :
    search contentTypeAt p.headerText.toList = some (rest.dropWhile isWhiteSpace) ∧
      trim rest ≠ [] := by
  have hne : "Content-Type:".toList ≠ [] := by decide
  have hcr : ∀ l ∈ "Content-Type:".toList, '\r'.toLower ≠ l.toLower := by decide
  have hquote : ∀ l ∈ "Content-Type:".toList, '"'.toLower ≠ l.toLower := by decide
  have hwhite : isWhiteSpace '"' = false := by decide
  -- the quote that ends the line is behind the text
  have hmem : '"' ∈ rest := by
    obtain ⟨line, hline⟩ := p.dispositionLine_quote
    rw [hline, search_matchLiteral_append hne hquote] at h
    cases hs : search (matchLiteral "Content-Type:".toList) line with
    | none =>
        rw [hs] at h
        cases h
    | some before =>
        rw [hs] at h
        rw [← Option.some.inj h]
        exact List.mem_append_right before List.mem_cons_self
  have hone : ∀ c ∈ rest.dropWhile isWhiteSpace, c ≠ '\r' ∧ c ≠ '\n' := by
    intro c hc
    have hsuffix := suffix_of_search (fun _ _ => suffix_of_matchLiteral) h
    exact p.dispositionLine_one_line c
      (hsuffix.mem ((List.dropWhile_suffix isWhiteSpace).mem hc))
  have hdrop : rest.dropWhile isWhiteSpace ≠ [] := by
    intro hnil
    have hall := List.dropWhile_eq_nil_iff.mp hnil '"' hmem
    rw [hwhite] at hall
    cases hall
  refine ⟨?_, trim_ne_nil hmem hwhite⟩
  rw [search_contentTypeAt, headerText_toList, htype, search_matchLiteral_append hne hcr, h]
  simp only [Option.map_some, Option.some_or, Option.some.injEq]
  rw [List.dropWhile_append, if_neg (by simpa using hdrop)]
  refine takeWhile_line hone _ fun c hc => (Option.some.inj hc).symm

/-- Else the header of the content type is found. -/
lemma search_headerText_of_none {contentType : Option MimeType}
    (htype : p.typeText =
      '\r' :: '\n' :: ("Content-Type: ".toList ++ (mimetypeOf contentType).toList))
    (h : search (matchLiteral "Content-Type:".toList) p.dispositionLine.toList = none) :
    search contentTypeAt p.headerText.toList =
      some ((mimetypeOf contentType).toList.dropWhile isWhiteSpace) := by
  have hne : "Content-Type:".toList ≠ [] := by decide
  have hcr : ∀ l ∈ "Content-Type:".toList, '\r'.toLower ≠ l.toLower := by decide
  have hsplit : "Content-Type: ".toList = "Content-Type:".toList ++ [' '] := by decide
  have hone : ∀ c ∈ (mimetypeOf contentType).toList.dropWhile isWhiteSpace, c ≠ '\r' ∧ c ≠ '\n' :=
    fun c hc => mimetypeOf_one_line contentType c ((List.dropWhile_suffix isWhiteSpace).mem hc)
  have hafter : search (matchLiteral "Content-Type:".toList)
      ('\n' :: ("Content-Type: ".toList ++ (mimetypeOf contentType).toList)) =
      some (' ' :: (mimetypeOf contentType).toList) := by
    rw [search_cons_of_none rfl, hsplit, List.append_assoc]
    exact search_of_match (matchLiteral_self _ _)
  rw [search_contentTypeAt, headerText_toList, htype, search_matchLiteral_append hne hcr, h, hafter]
  simp only [Option.map_none, Option.none_or, Option.map_some, Option.some.injEq]
  rw [List.dropWhile_cons_of_pos (by decide)]
  exact (congrArg _ (List.append_nil _).symm).trans (takeWhile_line hone [] nofun)

/-- **The content type of a file is read back exactly if no name holds the text
`Content-Type:`**, or one that is followed by the content type. -/
theorem parseContentType_headerText {filename : String} {hf : Quotable filename}
    {contentType : Option MimeType} {content : Bytes}
    (hpayload : p.payload = .file filename hf contentType content) :
    parseContentType p.headerText = mimetypeOf contentType ↔ p.TypeReadable := by
  have htype : p.typeText =
      '\r' :: '\n' :: ("Content-Type: ".toList ++ (mimetypeOf contentType).toList) := by
    unfold typeText
    rw [hpayload]
  have hreadable : p.TypeReadable ↔ ∀ rest,
      search (matchLiteral "Content-Type:".toList) p.dispositionLine.toList = some rest →
        trim rest = (mimetypeOf contentType).toList := by
    unfold TypeReadable
    rw [hpayload]
  rw [hreadable]
  cases hs : search (matchLiteral "Content-Type:".toList) p.dispositionLine.toList with
  | none =>
      have htrim := (trim_dropWhile _).trans (trim_mimetypeOf contentType)
      have hsearch := p.search_headerText_of_none htype hs
      have hparse := parseContentType_of_search hsearch
        (htrim.symm ▸ mimetypeOf_toList_ne contentType)
      rw [hparse, htrim, String.ofList_toList]
      exact iff_of_true rfl nofun
  | some rest =>
      obtain ⟨hsearch, hne⟩ := p.search_headerText htype hs
      have hparse := parseContentType_of_search hsearch ((trim_dropWhile rest).symm ▸ hne)
      rw [hparse, trim_dropWhile]
      constructor
      · intro h r hr
        rw [← Option.some.inj hr, ← h, String.toList_ofList]
      · intro h
        rw [h rest rfl, String.ofList_toList]

end FormPart

end Blaize.Upload
