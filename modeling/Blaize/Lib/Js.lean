import Mathlib.Data.List.Basic
import Mathlib.Data.Int.Notation
import Mathlib.Data.String.Basic

/-!
Texts of ECMAScript and their UTF-8 encoding, as far as the standard library of the
language defines them.

* `objectPrototype`: the names that every object inherits;
* `isWhiteSpace`, `trim`, `utf16Length`: the white space, `trim()` and `length`, and
  `String.toLowerCase`; `CaseMapping`: both case mappings beyond ASCII;
* `List.mem_of_mem_splitOn`, `List.splitOn_flatMap_concat`, `String.splitOn_newline`: the pieces
  of `split`, and `split('\n')` as a function on lists; `List.mem_of_mem_intercalate`;
* `utf8Encode`, `utf8Decode`: `Buffer.from(text)` and `toString('utf8')`, with one
  replacement character for every maximal piece that is no UTF-8;
* `matchLiteral`, `search`: the two ways in which regular expressions without nested
  choice are read, a literal with the flag `i` and the leftmost match.
-/

/-- The pieces of a split have the items of the whole without the separator. -/
lemma List.mem_of_mem_splitOn {α : Type*} [DecidableEq α] {a c : α} {text piece : List α}
    (hp : piece ∈ text.splitOn a) (hc : c ∈ piece) : c ∈ text ∧ c ≠ a := by
  induction text generalizing piece with
  | nil =>
      rw [List.splitOn_nil, List.mem_singleton] at hp
      rw [hp] at hc
      cases hc
  | cons x text ih =>
      rw [List.splitOn_cons_eq_if_modifyHead] at hp
      split at hp
      · rcases List.mem_cons.mp hp with rfl | hp
        · cases hc
        · exact ⟨List.mem_cons_of_mem _ (ih hp hc).1, (ih hp hc).2⟩
      next hx =>
          obtain ⟨first, rest, hsplit⟩ :=
            List.exists_cons_of_ne_nil (List.splitOn_ne_nil a text)
          rw [hsplit] at ih hp
          rcases List.mem_cons.mp hp with rfl | hp
          · rcases List.mem_cons.mp hc with rfl | hc
            · exact ⟨List.mem_cons_self, by simpa using hx⟩
            · obtain ⟨hmem, hne⟩ := ih List.mem_cons_self hc
              exact ⟨List.mem_cons_of_mem _ hmem, hne⟩
          · obtain ⟨hmem, hne⟩ := ih (List.mem_cons_of_mem _ hp) hc
            exact ⟨List.mem_cons_of_mem _ hmem, hne⟩

/-- What is joined has the items of the pieces and of the separator. -/
lemma List.mem_of_mem_intercalate {α : Type*} {separator : List α} {parts : List (List α)} {a : α}
    (h : a ∈ List.intercalate separator parts) : a ∈ separator ∨ ∃ part ∈ parts, a ∈ part := by
  induction parts with
  | nil => cases h
  | cons part parts ih =>
      cases parts with
      | nil =>
          rw [List.intercalate_singleton] at h
          exact .inr ⟨part, List.mem_cons_self, h⟩
      | cons next parts =>
          rw [List.intercalate_cons_cons, List.append_assoc, List.mem_append, List.mem_append] at h
          rcases h with h | h | h
          · exact .inr ⟨part, List.mem_cons_self, h⟩
          · exact .inl h
          · refine (ih h).imp_right fun hrest => ?_
            obtain ⟨other, hother, ha⟩ := hrest
            exact ⟨other, List.mem_cons_of_mem _ hother, ha⟩

/-- A separator after each piece but the last, and one after the last. -/
lemma List.intercalate_concat {α : Type*} (x : α) {ls : List (List α)} (h : ls ≠ []) :
    [x].intercalate ls ++ [x] = ls.flatMap (· ++ [x]) := by
  induction ls with
  | nil => exact absurd rfl h
  | cons l ls ih =>
      cases ls with
      | nil => rw [List.intercalate_singleton, List.flatMap_cons, List.flatMap_nil, List.append_nil]
      | cons l' ls =>
          rw [List.intercalate_cons_cons, List.append_assoc, ih (by simp)]
          rfl

/-- Pieces that end with a separator each are split again, with an empty one at the end. -/
lemma List.splitOn_flatMap_concat {α : Type*} [DecidableEq α] {x : α} {ls : List (List α)}
    (h : ∀ l ∈ ls, x ∉ l) : (ls.flatMap (· ++ [x])).splitOn x = ls ++ [[]] := by
  induction ls with
  | nil => rfl
  | cons l ls ih =>
      rw [List.flatMap_cons, List.append_assoc, List.singleton_append,
        List.splitOn_append_cons_self_of_not_mem (h l List.mem_cons_self),
        ih fun l hl => h l (List.mem_cons_of_mem _ hl)]
      rfl

/-- `toLowerCase`, as far as ASCII goes. -/
def String.toLowerCase (text : String) : String := .ofList (text.toList.map Char.toLower)

namespace String

lemma splitOnAux_newline (s : String) (b i : Pos.Raw) (r : List String) :
    splitOnAux s "\n" b i 0 r = splitAux s (· == '\n') b i r := by
  have hget : Pos.Raw.get "\n" 0 = '\n' := by decide
  have hnext : Pos.Raw.next "\n" 0 = ⟨1⟩ := by decide
  have hend : Pos.Raw.atEnd "\n" ⟨1⟩ = true := by decide
  fun_induction splitAux s (· == '\n') b i r with
  | case1 b i r h =>
      rw [splitOnAux, if_pos h]
  | case2 b i r h hlt hp i' ih =>
      have hc : i.get s = '\n' := by simpa using hp
      -- a line feed has one byte, so the separator starts where it was found
      have hback : i'.unoffsetBy ⟨1⟩ = i := by
        have hi' : i' = ⟨i.byteIdx + 1⟩ := by
          simp only [i', Pos.Raw.next, hc]
          rfl
        rw [hi']
        rfl
      rw [splitOnAux, if_neg h, hget, if_pos hp]
      dsimp only
      rw [hnext, if_pos hend, hback, ih]
  | case3 b i r h hlt hp ih =>
      rw [splitOnAux, if_neg h, hget, if_neg hp]
      exact ih

lemma splitOn_newline (s : String) :
    s.splitOn "\n" = (s.toList.splitOn '\n').map ofList := by
  rw [splitOn, if_neg (by decide), splitOnAux_newline]
  exact splitToList_of_valid s _

end String

namespace Js

/-! ### Objects -/

/-- The names of the properties that every object inherits, without `__proto__`. -/
def objectPrototype : List String :=
  ["constructor", "__defineGetter__", "__defineSetter__", "hasOwnProperty", "__lookupGetter__",
    "__lookupSetter__", "isPrototypeOf", "propertyIsEnumerable", "toString", "valueOf",
    "toLocaleString"]

/-- The names of all of them. -/
def objectMembers : List String := "__proto__" :: objectPrototype

/-! ### Texts -/

/-- What holds of all characters of a text is decided on the text, not on all characters. -/
instance (priority := 2000) decidableForallMem (p : Char → Prop) [DecidablePred p]
    (text : List Char) : Decidable (∀ c, c ∈ text → p c) :=
  List.decidableBAll p text

/-- The characters of `\s`, which `trim` and `parseInt` skip as well. -/
def isWhiteSpace (c : Char) : Bool :=
  [0x09, 0x0A, 0x0B, 0x0C, 0x0D, 0x20, 0xA0, 0x1680, 0x2028, 0x2029, 0x202F, 0x205F, 0x3000,
    0xFEFF].contains c.toNat || (0x2000 ≤ c.toNat && c.toNat ≤ 0x200A)

/-- The characters that `.` does not match. -/
def isLineTerminator (c : Char) : Bool := c ∈ ['\n', '\r', '\u2028', '\u2029']

/-- `text.trim()` -/
def trim (text : List Char) : List Char :=
  ((text.dropWhile isWhiteSpace).reverse.dropWhile isWhiteSpace).reverse

/-- `String.prototype.length`, in UTF-16 code units. -/
def utf16Length (text : String) : ℕ :=
  text.toList.foldl (fun n c => n + if 0x10000 ≤ c.toNat then 2 else 1) 0

/-- `toLowerCase` and `toUpperCase` with the tables of Unicode: of them it is used only that
a text in lower case stays as it is. -/
structure CaseMapping where
  toLowerCase : String → String
  toUpperCase : String → String
  lower_lower : ∀ text, toLowerCase (toLowerCase text) = toLowerCase text

lemma id_id_text : ∀ text : String, id (id text) = id text := fun _ => rfl

/-! ### UTF-8 -/

/-- The bytes of a text or a body. -/
abbrev Bytes := List UInt8

/-- The bytes of a text. -/
def utf8Encode (text : String) : Bytes := text.toList.flatMap String.utf8EncodeChar

/-- The state of the decoder inside a sequence: the bits so far, the number of bytes that
are missing, and the range of the next one. -/
structure Pending where
  codePoint : ℕ
  needed : ℕ
  lower : ℕ
  upper : ℕ

/-- The first byte of a sequence: a character, or the start of a longer sequence. -/
def startByte (b : ℕ) : Char ⊕ Pending :=
  if b < 0x80 then .inl (Char.ofNat b)
  else if 0xC2 ≤ b ∧ b ≤ 0xDF then .inr ⟨b - 0xC0, 1, 0x80, 0xBF⟩
  else if 0xE0 ≤ b ∧ b ≤ 0xEF then
    .inr ⟨b - 0xE0, 2, if b = 0xE0 then 0xA0 else 0x80, if b = 0xED then 0x9F else 0xBF⟩
  else if 0xF0 ≤ b ∧ b ≤ 0xF4 then
    .inr ⟨b - 0xF0, 3, if b = 0xF0 then 0x90 else 0x80, if b = 0xF4 then 0x8F else 0xBF⟩
  else .inl '\uFFFD'

/-- The decoder, from a state inside or between sequences. -/
def decodeFrom : Option Pending → Bytes → List Char
  | none, [] => []
  | some _, [] => ['\uFFFD']
  | none, b :: bytes =>
      match startByte b.toNat with
      | .inl c => c :: decodeFrom none bytes
      | .inr p => decodeFrom (some p) bytes
  | some p, b :: bytes =>
      if p.lower ≤ b.toNat ∧ b.toNat ≤ p.upper then
        let codePoint := p.codePoint * 64 + (b.toNat - 0x80)
        if p.needed = 1 then Char.ofNat codePoint :: decodeFrom none bytes
        else decodeFrom (some ⟨codePoint, p.needed - 1, 0x80, 0xBF⟩) bytes
      else
        -- the sequence is broken off, and the byte is read as the first of the next one
        match startByte b.toNat with
        | .inl c => '\uFFFD' :: c :: decodeFrom none bytes
        | .inr p => '\uFFFD' :: decodeFrom (some p) bytes

/-- The text of bytes, as `TextDecoder` reads it. -/
def utf8Decode (bytes : Bytes) : String := String.ofList (decodeFrom none bytes)

lemma startByte_ascii {n : ℕ} (h : n < 0x80) : startByte n = .inl (Char.ofNat n) := if_pos h

lemma decodeFrom_cons (b : UInt8) (bytes : Bytes) :
    decodeFrom none (b :: bytes) =
      (startByte b.toNat).elim (· :: decodeFrom none bytes) fun p => decodeFrom (some p) bytes := by
  rw [decodeFrom]
  cases startByte b.toNat <;> rfl

/-- An ASCII byte between two sequences is read for itself. -/
lemma decodeFrom_cons_ascii {b : UInt8} (hb : b.toNat < 0x80) (bytes : Bytes) :
    decodeFrom none (b :: bytes) = Char.ofNat b.toNat :: decodeFrom none bytes := by
  rw [decodeFrom_cons, startByte_ascii hb]
  rfl

/-! ### What was encoded is decoded -/

lemma startByte_two {n : ℕ} (h : 0xC2 ≤ n ∧ n ≤ 0xDF) :
    startByte n = .inr ⟨n - 0xC0, 1, 0x80, 0xBF⟩ :=
  (if_neg (by omega)).trans (if_pos h)

lemma startByte_three {n : ℕ} (h : 0xE0 ≤ n ∧ n ≤ 0xEF) :
    startByte n = .inr ⟨n - 0xE0, 2, if n = 0xE0 then 0xA0 else 0x80,
      if n = 0xED then 0x9F else 0xBF⟩ :=
  (if_neg (by omega)).trans ((if_neg (by omega)).trans (if_pos h))

lemma startByte_four {n : ℕ} (h : 0xF0 ≤ n ∧ n ≤ 0xF4) :
    startByte n = .inr ⟨n - 0xF0, 3, if n = 0xF0 then 0x90 else 0x80,
      if n = 0xF4 then 0x8F else 0xBF⟩ :=
  (if_neg (by omega)).trans ((if_neg (by omega)).trans ((if_neg (by omega)).trans (if_pos h)))

/-- The first byte of a longer sequence. -/
lemma decodeFrom_start {n : ℕ} {p : Pending} (hn : n < 256) (h : startByte n = .inr p)
    (rest : Bytes) : decodeFrom none (UInt8.ofNat n :: rest) = decodeFrom (some p) rest := by
  have hb : (UInt8.ofNat n).toNat = n := Nat.mod_eq_of_lt hn
  rw [decodeFrom_cons, hb, h]
  rfl

lemma decodeFrom_some_cons {p : Pending} {b : UInt8} (h : p.lower ≤ b.toNat ∧ b.toNat ≤ p.upper)
    (bytes : Bytes) :
    decodeFrom (some p) (b :: bytes) =
      if p.needed = 1 then
        Char.ofNat (p.codePoint * 64 + (b.toNat - 0x80)) :: decodeFrom none bytes
      else
        decodeFrom (some ⟨p.codePoint * 64 + (b.toNat - 0x80), p.needed - 1, 0x80, 0xBF⟩) bytes :=
  if_pos h

/-- A byte of the range continues a sequence. -/
lemma decodeFrom_continue {codePoint k lower upper n : ℕ} (hn : n < 256) (h₁ : lower ≤ n)
    (h₂ : n ≤ upper) (rest : Bytes) :
    decodeFrom (some ⟨codePoint, k + 2, lower, upper⟩) (UInt8.ofNat n :: rest) =
      decodeFrom (some ⟨codePoint * 64 + (n - 0x80), k + 1, 0x80, 0xBF⟩) rest := by
  have hb : (UInt8.ofNat n).toNat = n := Nat.mod_eq_of_lt hn
  rw [decodeFrom_some_cons (hb.symm ▸ ⟨h₁, h₂⟩), hb, if_neg (by simp)]
  rfl

/-- The last byte of a sequence gives the character. -/
lemma decodeFrom_last {codePoint lower upper n v : ℕ} (hn : n < 256) (h₁ : lower ≤ n)
    (h₂ : n ≤ upper) (hv : codePoint * 64 + (n - 0x80) = v) (rest : Bytes) :
    decodeFrom (some ⟨codePoint, 1, lower, upper⟩) (UInt8.ofNat n :: rest) =
      Char.ofNat v :: decodeFrom none rest := by
  have hb : (UInt8.ofNat n).toNat = n := Nat.mod_eq_of_lt hn
  rw [decodeFrom_some_cons (hb.symm ▸ ⟨h₁, h₂⟩), hb, ← hv]
  exact if_pos rfl

/-- An encoded character is read back. -/
lemma decodeFrom_utf8EncodeChar (c : Char) (rest : Bytes) :
    decodeFrom none (String.utf8EncodeChar c ++ rest) = c :: decodeFrom none rest := by
  have hvalid : c.val.toNat < 0xD800 ∨ (0xDFFF < c.val.toNat ∧ c.val.toNat < 0x110000) := c.valid
  have hc : Char.ofNat c.val.toNat = c := Char.ofNat_toNat c
  rw [String.utf8EncodeChar]
  generalize c.val.toNat = v at hvalid hc ⊢
  split
  next h =>
    have hb : (UInt8.ofNat v).toNat = v := Nat.mod_eq_of_lt (by omega)
    rw [List.singleton_append, decodeFrom_cons_ascii (by omega), hb, hc]
  split
  next h₁ h₂ =>
    have hstart := startByte_two (n := v / 64 % 0x20 + 0xc0) (by omega)
    rw [List.cons_append, decodeFrom_start (by omega) hstart, List.singleton_append,
      decodeFrom_last (by omega) (by omega) (by omega) (by omega : _ = v), hc]
  split
  next h₁ h₂ h₃ =>
    have hstart := startByte_three (n := v / 4096 % 0x10 + 0xe0) (by omega)
    rw [List.cons_append, decodeFrom_start (by omega) hstart, List.cons_append,
      decodeFrom_continue (by omega) (by split <;> omega) (by split <;> omega),
      List.singleton_append,
      decodeFrom_last (by omega) (by omega) (by omega) (by omega : _ = v), hc]
  next h₁ h₂ h₃ =>
    have hstart := startByte_four (n := v / 262144 % 0x08 + 0xf0) (by omega)
    rw [List.cons_append, decodeFrom_start (by omega) hstart, List.cons_append,
      decodeFrom_continue (by omega) (by split <;> omega) (by split <;> omega),
      List.cons_append, decodeFrom_continue (by omega) (by omega) (by omega),
      List.singleton_append,
      decodeFrom_last (by omega) (by omega) (by omega) (by omega : _ = v), hc]

lemma utf8Decode_utf8Encode (text : String) : utf8Decode (utf8Encode text) = text := by
  have h : ∀ cs : List Char, decodeFrom none (cs.flatMap String.utf8EncodeChar) = cs := by
    intro cs
    induction cs with
    | nil => rfl
    | cons c cs ih => rw [List.flatMap_cons, decodeFrom_utf8EncodeChar, ih]
  rw [utf8Decode, utf8Encode, h, String.ofList_toList]

lemma utf8Encode_append (x y : String) : utf8Encode (x ++ y) = utf8Encode x ++ utf8Encode y := by
  rw [utf8Encode, String.toList_append, List.flatMap_append]
  rfl

/-- The bytes of ASCII stand for themselves, in every text. -/
lemma mem_of_mem_utf8Encode {text : String} {b : UInt8} (hb : b.toNat < 0x80)
    (h : b ∈ utf8Encode text) : Char.ofNat b.toNat ∈ text.toList := by
  obtain ⟨c, hc, hbc⟩ := List.mem_flatMap.mp h
  have hvalid : c.val.toNat < 0xD800 ∨ (0xDFFF < c.val.toNat ∧ c.val.toNat < 0x110000) := c.valid
  have hchar : Char.ofNat c.val.toNat = c := Char.ofNat_toNat c
  have hlarge {n : ℕ} (hn : 0x80 ≤ n ∧ n < 256) : b ≠ UInt8.ofNat n := by
    rintro rfl
    have hmod : (UInt8.ofNat n).toNat = n := Nat.mod_eq_of_lt hn.2
    omega
  rw [String.utf8EncodeChar] at hbc
  generalize c.val.toNat = v at hvalid hchar hbc
  split at hbc
  next hv =>
    have hmod : (UInt8.ofNat v).toNat = v := Nat.mod_eq_of_lt (by omega)
    rw [List.mem_singleton.mp hbc, hmod, hchar]
    exact hc
  -- every byte of a longer sequence has its highest bit set
  exfalso
  split at hbc
  next =>
    simp only [List.mem_cons, List.not_mem_nil, or_false] at hbc
    rcases hbc with hbc | hbc <;> exact hlarge (by omega) hbc
  split at hbc
  next =>
    simp only [List.mem_cons, List.not_mem_nil, or_false] at hbc
    rcases hbc with hbc | hbc | hbc <;> exact hlarge (by omega) hbc
  next =>
    simp only [List.mem_cons, List.not_mem_nil, or_false] at hbc
    rcases hbc with hbc | hbc | hbc | hbc <;> exact hlarge (by omega) hbc

/-! ### Regular expressions -/

/-- A literal at the start of the text, letters in either case: what follows it. -/
def matchLiteral : List Char → List Char → Option (List Char)
  | [], text => some text
  | _ :: _, [] => none
  | l :: literal, c :: text =>
      if c.toLower = l.toLower then matchLiteral literal text else none

/-- The leftmost match. -/
def search {β : Type*} (matchAt : List Char → Option β) : List Char → Option β
  | [] => matchAt []
  | c :: text =>
      match matchAt (c :: text) with
      | some m => some m
      | none => search matchAt text

/-- A character at which nothing matches can be left out in front. -/
lemma search_cons_of_none {β : Type*} {matchAt : List Char → Option β} {c : Char}
    {text : List Char} (h : matchAt (c :: text) = none) :
    search matchAt (c :: text) = search matchAt text := by
  rw [search, h]

/-- A match is a match somewhere. -/
lemma matchAt_of_search {β : Type*} {matchAt : List Char → Option β} {text : List Char} {m : β}
    (h : search matchAt text = some m) : ∃ rest, matchAt rest = some m := by
  induction text with
  | nil => exact ⟨[], h⟩
  | cons c text ih =>
      rw [search] at h
      split at h
      · next m' hm => exact ⟨c :: text, by rw [hm, h]⟩
      · exact ih h

end Js
