import Blaize.Lib.Js

/-!
The header parsing of uploads (`packages/blaize-core/src/upload/utils.ts`).

The regular expressions of the source have no choice in them that a match could come back
to: behind every repetition stands a character that the repetition does not take.  They
are read from left to right, and `Js.search` finds the leftmost match.

* `extractBoundary`, `parseContentDisposition`, `parseContentType`;
* `parseContentDisposition_crlf`, `parseContentType_crlf`: **an empty line in front of a
  header block is not seen**.
-/

namespace Blaize.Upload

open Js

/-- What a part says about itself. -/
structure Disposition where
  name : String
  filename : Option String
  deriving DecidableEq, Repr

/-- `([^"]*)"`: the text before the closing quote, and what follows it. -/
def quoted (text : List Char) : Option (List Char × List Char) :=
  match text.dropWhile (· ≠ '"') with
  | _ :: rest => some (text.takeWhile (· ≠ '"'), rest)
  | [] => none

/-- `/boundary=([^;]+)/i` at the start of the text. -/
def boundaryAt (text : List Char) : Option (List Char) := do
  let rest ← matchLiteral "boundary=".toList text
  let value := rest.takeWhile (· ≠ ';')
  if value = [] then none else some value

/-- `(?:;[\s\r\n]*filename="([^"]*)")?`, the value if the group is there. -/
def filenameAt (text : List Char) : Option (List Char) := do
  let rest ← matchLiteral ";".toList text
  let rest ← matchLiteral "filename=\"".toList (rest.dropWhile isWhiteSpace)
  let (filename, _) ← quoted rest
  some filename

/-- `/Content-Disposition:\s*form-data;\s*name="([^"]+)"…/i` at the start of the text. -/
def contentDispositionAt (text : List Char) : Option Disposition := do
  let rest ← matchLiteral "Content-Disposition:".toList text
  let rest ← matchLiteral "form-data;".toList (rest.dropWhile isWhiteSpace)
  let rest ← matchLiteral "name=\"".toList (rest.dropWhile isWhiteSpace)
  let (name, rest) ← quoted rest
  if name = [] then none
  else some ⟨String.ofList name, (filenameAt rest).map String.ofList⟩

/-- `/Content-Type:\s*([^\r\n]+)/i` at the start of the text.  Where only white space
follows, the expression may still match some of it, which `trim` then empties. -/
def contentTypeAt (text : List Char) : Option (List Char) := do
  let rest ← matchLiteral "Content-Type:".toList text
  some ((rest.dropWhile isWhiteSpace).takeWhile fun c => c ≠ '\r' ∧ c ≠ '\n')

/-- The boundary that a content type names. -/
def extractBoundary (contentType : String) : Option String := do
  let boundary := trim (← search boundaryAt contentType.toList)
  let boundary :=
    if boundary.head? = some '"' ∧ boundary.getLast? = some '"' then
      (boundary.drop 1).dropLast
    else boundary
  if boundary = [] then none else some (String.ofList boundary)

/-- The disposition of a part. -/
def parseContentDisposition (headers : String) : Option Disposition :=
  search contentDispositionAt headers.toList

/-- The content type of a part, with its default. -/
def parseContentType (headers : String) : String :=
  match search contentTypeAt headers.toList with
  | some value => if trim value = [] then "application/octet-stream" else String.ofList (trim value)
  | none => "application/octet-stream"

/-- A disposition has a name. -/
lemma name_ne_of_parse {headers : String} {d : Disposition}
    (h : parseContentDisposition headers = some d) : d.name ≠ "" := by
  obtain ⟨text, hm⟩ := matchAt_of_search h
  unfold contentDispositionAt at hm
  simp only [Option.bind_eq_bind, Option.bind_eq_some_iff] at hm
  obtain ⟨_, -, _, -, _, -, ⟨name, rest⟩, -, hname⟩ := hm
  dsimp only at hname
  split at hname
  · cases hname
  · next hne =>
    obtain rfl := Option.some.inj hname
    intro hempty
    exact hne (by simpa using congrArg String.toList hempty)

/-! ### An empty line in front -/

/-- An empty line in front of the bytes is an empty line in front of the text. -/
lemma toList_utf8Decode_crlf (headers : Bytes) :
    (utf8Decode (13 :: 10 :: headers)).toList = '\r' :: '\n' :: (utf8Decode headers).toList := by
  simp only [utf8Decode, String.toList_ofList]
  rw [decodeFrom_cons_ascii (by decide), decodeFrom_cons_ascii (by decide)]
  rfl

lemma parseContentDisposition_crlf (headers : Bytes) :
    parseContentDisposition (utf8Decode (13 :: 10 :: headers)) =
      parseContentDisposition (utf8Decode headers) := by
  unfold parseContentDisposition
  rw [toList_utf8Decode_crlf, search_cons_of_none rfl, search_cons_of_none rfl]

lemma parseContentType_crlf (headers : Bytes) :
    parseContentType (utf8Decode (13 :: 10 :: headers)) =
      parseContentType (utf8Decode headers) := by
  unfold parseContentType
  rw [toList_utf8Decode_crlf, search_cons_of_none rfl, search_cons_of_none rfl]

example : parseContentDisposition "content-disposition: form-data; name=\"a\"; filename=\"\"" =
    some ⟨"a", some ""⟩ := by decide

end Blaize.Upload
