import Blaize.Lib.Number
import Blaize.Lib.OrdMap

/-!
The values of JSON with `JSON.stringify` and `JSON.parse`.

A text is a list of Unicode characters, so a lone surrogate in an escape is read as the
replacement character.  The order of the members of an object is that of their insertion.

* `Json`: the values; `Json.Valid`: no object has a key twice;
* `stringify`, `parse`: the two functions;
* `parse_stringify`: **a value is read back from its text**.
-/

namespace Js

/-- A value that JSON represents. -/
inductive Json where
  | null
  | bool (value : Bool)
  | number (value : Number)
  | string (value : String)
  | array (items : List Json)
  | object (members : List (String × Json))

namespace Json

/-- `Boolean(value)`. -/
def truthy : Json → Bool
  | null => false
  | bool value => value
  | number value => value ≠ 0
  | string value => value ≠ ""
  | array _ => true
  | object _ => true

mutual

/-- No object has a key twice. -/
def Valid : Json → Prop
  | array items => ValidItems items
  | object members => (members.map Prod.fst).Nodup ∧ ValidMembers members
  | _ => True

/-- All items are well formed. -/
def ValidItems : List Json → Prop
  | [] => True
  | item :: items => item.Valid ∧ ValidItems items

/-- All values of an object are well formed. -/
def ValidMembers : List (String × Json) → Prop
  | [] => True
  | (_, value) :: members => value.Valid ∧ ValidMembers members

end

/-! ### Writing -/

/-- A hexadecimal digit, in lower case. -/
def hexDigit (n : ℕ) : Char := Nat.digitChar n

/-- A character inside a quoted text. -/
def quoteChar (c : Char) : List Char :=
  if c = '"' then ['\\', '"']
  else if c = '\\' then ['\\', '\\']
  else if c = '\x08' then ['\\', 'b']
  else if c = '\t' then ['\\', 't']
  else if c = '\n' then ['\\', 'n']
  else if c = '\x0c' then ['\\', 'f']
  else if c = '\r' then ['\\', 'r']
  else if c.toNat < 0x20 then
    ['\\', 'u', '0', '0', hexDigit (c.toNat / 16), hexDigit (c.toNat % 16)]
  else [c]

/-- A text between quotes. -/
def quote (text : String) : List Char := '"' :: (text.toList.flatMap quoteChar ++ ['"'])

mutual

/-- The text of a value. -/
def chars : Json → List Char
  | null => ['n', 'u', 'l', 'l']
  | bool true => ['t', 'r', 'u', 'e']
  | bool false => ['f', 'a', 'l', 's', 'e']
  | number value => value.toChars
  | string value => quote value
  | array items => '[' :: (itemsChars items ++ [']'])
  | object members => '\x7b' :: (membersChars members ++ ['\x7d'])

/-- The items with commas between them. -/
def itemsChars : List Json → List Char
  | [] => []
  | item :: items => item.chars ++ moreItemsChars items

/-- The items behind the first one. -/
def moreItemsChars : List Json → List Char
  | [] => []
  | item :: items => ',' :: (item.chars ++ moreItemsChars items)

/-- The members of an object. -/
def membersChars : List (String × Json) → List Char
  | [] => []
  | (key, value) :: members => quote key ++ ':' :: (value.chars ++ moreMembersChars members)

/-- The members behind the first one. -/
def moreMembersChars : List (String × Json) → List Char
  | [] => []
  | (key, value) :: members =>
      ',' :: (quote key ++ ':' :: (value.chars ++ moreMembersChars members))

end

/-- `JSON.stringify(value)`. -/
def stringify (value : Json) : String := String.ofList value.chars

/-! ### Reading -/

/-- The white space of JSON. -/
def isJsonWhite (c : Char) : Bool := [' ', '\t', '\n', '\r'].contains c

/-- Skips white space. -/
def skipWhite (text : List Char) : List Char := text.dropWhile isJsonWhite

/-- The value of a hexadecimal digit. -/
def hexValue (c : Char) : Option ℕ :=
  if c.isDigit then some (c.toNat - '0'.toNat)
  else if 'a' ≤ c ∧ c ≤ 'f' then some (c.toNat - 'a'.toNat + 10)
  else if 'A' ≤ c ∧ c ≤ 'F' then some (c.toNat - 'A'.toNat + 10)
  else none

/-- The code unit that four hexadecimal digits write. -/
def codeUnitAt : List Char → Option (ℕ × List Char)
  | a :: b :: c :: d :: text => do
      let a ← hexValue a
      let b ← hexValue b
      let c ← hexValue c
      let d ← hexValue d
      some (((a * 16 + b) * 16 + c) * 16 + d, text)
  | _ => none

/-- The second half of a surrogate pair. -/
def lowSurrogateAt : List Char → Option (ℕ × List Char)
  | '\\' :: 'u' :: text => (codeUnitAt text).filter fun p => 0xDC00 ≤ p.1 && p.1 ≤ 0xDFFF
  | _ => none

/-- The character of a `\u`. -/
def unicodeEscapeAt (text : List Char) : Option (Char × List Char) := do
  let (unit, text) ← codeUnitAt text
  if 0xD800 ≤ unit ∧ unit ≤ 0xDBFF then
    match lowSurrogateAt text with
    | some (low, text) =>
        some (Char.ofNat (0x10000 + (unit - 0xD800) * 0x400 + (low - 0xDC00)), text)
    | none => some ('\ufffd', text)
  else if 0xDC00 ≤ unit ∧ unit ≤ 0xDFFF then some ('\ufffd', text)
  else some (Char.ofNat unit, text)

/-- The character behind a backslash. -/
def escapeAt : List Char → Option (Char × List Char)
  | [] => none
  | c :: text =>
      if c = 'u' then unicodeEscapeAt text
      else if c = 'b' then some ('\x08', text)
      else if c = 't' then some ('\t', text)
      else if c = 'n' then some ('\n', text)
      else if c = 'f' then some ('\x0c', text)
      else if c = 'r' then some ('\r', text)
      else if c = '"' ∨ c = '\\' ∨ c = '/' then some (c, text)
      else none

/-- The text up to the closing quote; `fuel` bounds its length. -/
def quotedAt : ℕ → List Char → Option (List Char × List Char)
  | 0, _ => none
  | _ + 1, [] => none
  | fuel + 1, c :: text =>
      if c = '"' then some ([], text)
      else if c = '\\' then do
        let (c, text) ← escapeAt text
        let (cs, text) ← quotedAt fuel text
        some (c :: cs, text)
      else if c.toNat < 0x20 then none
      else do
        let (cs, text) ← quotedAt fuel text
        some (c :: cs, text)

/-- A string at the start of a text, with what follows it. -/
def stringAt (text : List Char) : Option (String × List Char) :=
  (quotedAt (text.length + 1) text).map fun p => (String.ofList p.1, p.2)

/-- What follows a keyword. -/
def keywordAt (keyword text : List Char) : Option (List Char) :=
  if keyword.isPrefixOf text then some (text.drop keyword.length) else none

/-- A value without parts. -/
def scalarAt (text : List Char) : Option (Json × List Char) :=
  match keywordAt ['n', 'u', 'l', 'l'] text with
  | some text => some (null, text)
  | none =>
      match keywordAt ['t', 'r', 'u', 'e'] text with
      | some text => some (bool true, text)
      | none =>
          match keywordAt ['f', 'a', 'l', 's', 'e'] text with
          | some text => some (bool false, text)
          | none => (numberAt text).map fun p => (number p.1, p.2)

mutual

/-- The value at the start of a text, with what follows it.  Every second step reads a
character, so that twice the length is enough `fuel`. -/
def valueAt : ℕ → List Char → Option (Json × List Char)
  | 0, _ => none
  | fuel + 1, text =>
      match skipWhite text with
      | '"' :: text => (stringAt text).map fun p => (string p.1, p.2)
      | '[' :: text =>
          match skipWhite text with
          | ']' :: text => some (array [], text)
          | text => (itemsAt fuel text).map fun p => (array p.1, p.2)
      | '\x7b' :: text =>
          match skipWhite text with
          | '\x7d' :: text => some (object [], text)
          | text => (membersAt fuel [] text).map fun p => (object p.1, p.2)
      | text => scalarAt text

/-- The items up to the closing bracket. -/
def itemsAt : ℕ → List Char → Option (List Json × List Char)
  | 0, _ => none
  | fuel + 1, text => do
      let (item, text) ← valueAt fuel text
      match skipWhite text with
      | ']' :: text => some ([item], text)
      | ',' :: text => (itemsAt fuel text).map fun p => (item :: p.1, p.2)
      | _ => none

/-- The members up to the closing brace; a later member replaces an earlier one. -/
def membersAt : ℕ → List (String × Json) → List Char → Option (List (String × Json) × List Char)
  | 0, _, _ => none
  | fuel + 1, members, text =>
      match skipWhite text with
      | '"' :: text => do
          let (key, text) ← stringAt text
          match skipWhite text with
          | ':' :: text => do
              let (value, text) ← valueAt fuel text
              match skipWhite text with
              | '\x7d' :: text => some (OrdMap.put key value members, text)
              | ',' :: text => membersAt fuel (OrdMap.put key value members) text
              | _ => none
          | _ => none
      | _ => none

end

/-- `JSON.parse(text)`; `none` when it throws. -/
def parse (text : String) : Option Json :=
  match valueAt (2 * text.toList.length + 1) text.toList with
  | some (value, text) => if skipWhite text = [] then some value else none
  | none => none

/-! ### Texts are read back -/

lemma hexValue_hexDigit : ∀ n < 16, hexValue (hexDigit n) = some n := by decide

/-- The escape of a control character. -/
lemma unicodeEscapeAt_control {n : ℕ} (hn : n < 0x20) (text : List Char) :
    unicodeEscapeAt ('0' :: '0' :: hexDigit (n / 16) :: hexDigit (n % 16) :: text) =
      some (Char.ofNat n, text) := by
  have hunit : codeUnitAt ('0' :: '0' :: hexDigit (n / 16) :: hexDigit (n % 16) :: text) =
      some (n, text) := by
    rw [codeUnitAt, hexValue_hexDigit (n / 16) (by omega), hexValue_hexDigit (n % 16) (by omega)]
    show some (((0 * 16 + 0) * 16 + n / 16) * 16 + n % 16, text) = some (n, text)
    exact congrArg (fun n => some (n, text)) (by omega)
  unfold unicodeEscapeAt
  rw [hunit]
  show (if 0xD800 ≤ n ∧ n ≤ 0xDBFF then _ else _) = _
  rw [if_neg (by omega), if_neg (by omega)]

/-- A character is escaped by a letter, by its number, or not at all. -/
lemma quoteChar_cases (c : Char) :
    (∃ e, quoteChar c = ['\\', e] ∧ ∀ text, escapeAt (e :: text) = some (c, text)) ∨
      (c.toNat < 0x20 ∧ quoteChar c =
        ['\\', 'u', '0', '0', hexDigit (c.toNat / 16), hexDigit (c.toNat % 16)]) ∨
      quoteChar c = [c] ∧ c ≠ '"' ∧ c ≠ '\\' ∧ ¬ c.toNat < 0x20 := by
  by_cases hquote : c = '"'
  · subst hquote
    exact .inl ⟨'"', rfl, fun _ => rfl⟩
  by_cases hback : c = '\\'
  · subst hback
    exact .inl ⟨'\\', rfl, fun _ => rfl⟩
  by_cases hb : c = '\x08'
  · subst hb
    exact .inl ⟨'b', rfl, fun _ => rfl⟩
  by_cases ht : c = '\t'
  · subst ht
    exact .inl ⟨'t', rfl, fun _ => rfl⟩
  by_cases hn : c = '\n'
  · subst hn
    exact .inl ⟨'n', rfl, fun _ => rfl⟩
  by_cases hf : c = '\x0c'
  · subst hf
    exact .inl ⟨'f', rfl, fun _ => rfl⟩
  by_cases hr : c = '\r'
  · subst hr
    exact .inl ⟨'r', rfl, fun _ => rfl⟩
  have hrest : quoteChar c = if c.toNat < 0x20 then
      ['\\', 'u', '0', '0', hexDigit (c.toNat / 16), hexDigit (c.toNat % 16)] else [c] := by
    rw [quoteChar, if_neg hquote, if_neg hback, if_neg hb, if_neg ht, if_neg hn, if_neg hf,
      if_neg hr]
  by_cases hcontrol : c.toNat < 0x20
  · exact .inr (.inl ⟨hcontrol, hrest.trans (if_pos hcontrol)⟩)
  · exact .inr (.inr ⟨hrest.trans (if_neg hcontrol), hquote, hback, hcontrol⟩)

/-- One quoted character is read. -/
lemma quotedAt_quoteChar (fuel : ℕ) (c : Char) (text : List Char) :
    quotedAt (fuel + 1) (quoteChar c ++ text) =
      (quotedAt fuel text).map fun p => (c :: p.1, p.2) := by
  have hescape {escape : List Char} (h : escapeAt (escape ++ text) = some (c, text)) :
      quotedAt (fuel + 1) ('\\' :: (escape ++ text)) =
        (quotedAt fuel text).map fun p => (c :: p.1, p.2) := by
    rw [quotedAt, if_neg (by decide), if_pos rfl, h, Option.bind_eq_bind, Option.bind_some]
    dsimp only
    cases quotedAt fuel text <;> rfl
  rcases quoteChar_cases c with ⟨e, he, hread⟩ | ⟨hcontrol, he⟩ | ⟨he, hquote, hback, hcontrol⟩
  · rw [he]
    exact @hescape [e] (hread text)
  · rw [he]
    refine @hescape ['u', '0', '0', _, _] ?_
    show unicodeEscapeAt _ = _
    exact (unicodeEscapeAt_control hcontrol text).trans (by rw [Char.ofNat_toNat])
  · rw [he, List.singleton_append, quotedAt, if_neg hquote, if_neg hback, if_neg hcontrol]
    cases quotedAt fuel text <;> rfl

lemma quotedAt_flatMap {cs : List Char} {fuel : ℕ} (hfuel : cs.length < fuel) (text : List Char) :
    quotedAt fuel (cs.flatMap quoteChar ++ '"' :: text) = some (cs, text) := by
  induction cs generalizing fuel with
  | nil =>
      obtain ⟨fuel, rfl⟩ := Nat.exists_eq_succ_of_ne_zero (by omega : fuel ≠ 0)
      rfl
  | cons c cs ih =>
      obtain ⟨fuel, rfl⟩ := Nat.exists_eq_succ_of_ne_zero (by omega : fuel ≠ 0)
      rw [List.flatMap_cons, List.append_assoc, quotedAt_quoteChar,
        ih (by rw [List.length_cons] at hfuel; omega)]
      rfl

lemma one_le_length_quoteChar (c : Char) : 1 ≤ (quoteChar c).length := by
  rcases quoteChar_cases c with ⟨e, he, -⟩ | ⟨-, he⟩ | ⟨he, -⟩ <;>
    rw [he] <;> exact Nat.succ_pos _

lemma length_le_flatMap (cs : List Char) : cs.length ≤ (cs.flatMap quoteChar).length := by
  induction cs with
  | nil => exact le_rfl
  | cons c cs ih =>
      rw [List.flatMap_cons, List.length_append, List.length_cons]
      have hc := one_le_length_quoteChar c
      omega

/-- **A quoted text is read.** -/
lemma stringAt_quote (value : String) (text : List Char) :
    stringAt (value.toList.flatMap quoteChar ++ ['"'] ++ text) = some (value, text) := by
  have hfuel :
      value.toList.length < (value.toList.flatMap quoteChar ++ ['"'] ++ text).length + 1 := by
    have hle := length_le_flatMap value.toList
    rw [List.length_append, List.length_append]
    omega
  unfold stringAt
  rw [List.append_assoc, List.singleton_append] at hfuel ⊢
  rw [quotedAt_flatMap hfuel]
  exact congrArg (fun s => some (s, text)) String.ofList_toList

lemma skipWhite_cons {c : Char} (h : isJsonWhite c = false) (text : List Char) :
    skipWhite (c :: text) = c :: text := List.dropWhile_cons_of_neg (by simp [h])

/-- What a number can start with. -/
lemma toChars_head (x : Number) :
    ∃ c chars, x.toChars = c :: chars ∧ (c = '-' ∨ c.isDigit = true) := by
  obtain ⟨whole, fraction, exponent, hshape⟩ := x.exists_shape
  obtain ⟨c, chars, hchars, hc⟩ := hshape.head
  unfold Number.toChars
  split
  · exact ⟨'-', _, rfl, .inl rfl⟩
  · exact ⟨c, chars, hchars, .inr hc⟩

/-- The first character of a number is none of those that start another value. -/
lemma numberHead_ne {c : Char} (h : c = '-' ∨ c.isDigit = true) :
    isJsonWhite c = false ∧
      ∀ d ∈ ['"', '[', ']', '\x7b', '\x7d', 'n', 't', 'f'], c ≠ d := by
  rcases h with rfl | hdigit
  · decide
  · constructor
    · rw [Bool.eq_false_iff]
      intro hwhite
      simp only [isJsonWhite, List.contains_eq_mem, List.mem_cons, List.not_mem_nil, or_false,
        decide_eq_true_eq] at hwhite
      rcases hwhite with rfl | rfl | rfl | rfl <;> cases hdigit
    · rintro d hd rfl
      simp only [List.mem_cons, List.not_mem_nil, or_false] at hd
      rcases hd with rfl | rfl | rfl | rfl | rfl | rfl | rfl | rfl <;> cases hdigit

/-- The first character of a value. -/
lemma chars_head (value : Json) :
    ∃ c chars, value.chars = c :: chars ∧ isJsonWhite c = false ∧ c ≠ ']' := by
  cases value with
  | null => exact ⟨_, _, rfl, rfl, by decide⟩
  | bool value => cases value <;> exact ⟨_, _, rfl, rfl, by decide⟩
  | number x =>
      obtain ⟨c, chars, hchars, hc⟩ := toChars_head x
      exact ⟨c, chars, hchars, (numberHead_ne hc).1, (numberHead_ne hc).2 ']' (by decide)⟩
  | string value => exact ⟨_, _, rfl, rfl, by decide⟩
  | array items => exact ⟨_, _, rfl, rfl, by decide⟩
  | object members => exact ⟨_, _, rfl, rfl, by decide⟩

lemma length_chars_pos (value : Json) : 0 < value.chars.length := by
  obtain ⟨c, chars, hchars, -⟩ := value.chars_head
  rw [hchars]
  exact Nat.succ_pos _

/-- A number is read as a scalar. -/
lemma valueAt_number (fuel : ℕ) (x : Number) {text : List Char} (h : EndsNumber text) :
    valueAt (fuel + 1) (x.toChars ++ text) = some (number x, text) := by
  have hread := x.numberAt_toChars h
  obtain ⟨c, chars, hchars, hc⟩ := toChars_head x
  obtain ⟨hwhite, hne⟩ := numberHead_ne hc
  have hkeyword {d : Char} (hd : c ≠ d) (keyword : List Char) :
      keywordAt (d :: keyword) (x.toChars ++ text) = none := by
    rw [keywordAt, if_neg]
    rw [hchars, List.cons_append, List.isPrefixOf_cons_cons]
    simp [Ne.symm hd]
  have hscalar : scalarAt (x.toChars ++ text) = some (number x, text) := by
    unfold scalarAt
    rw [hkeyword (hne 'n' (by decide)), hkeyword (hne 't' (by decide)),
      hkeyword (hne 'f' (by decide)), hread]
    rfl
  rw [← hscalar]
  unfold valueAt
  rw [hchars, List.cons_append, skipWhite_cons hwhite]
  split
  next heq => exact absurd (List.cons.inj heq).1 (hne '"' (by decide))
  next heq => exact absurd (List.cons.inj heq).1 (hne '[' (by decide))
  next heq => exact absurd (List.cons.inj heq).1 (hne '\x7b' (by decide))
  next => rfl

lemma valueAt_string (fuel : ℕ) (value : String) (text : List Char) :
    valueAt (fuel + 1) (quote value ++ text) = some (string value, text) := by
  show (stringAt (value.toList.flatMap quoteChar ++ ['"'] ++ text)).map _ = _
  rw [stringAt_quote]
  rfl

/-- An array that is not empty. -/
lemma valueAt_array {fuel : ℕ} {items : List Json} {body text : List Char} {c : Char}
    (hbody : body.head? = some c) (hwhite : isJsonWhite c = false) (hc : c ≠ ']')
    (h : itemsAt fuel (body ++ ']' :: text) = some (items, text)) :
    valueAt (fuel + 1) ('[' :: (body ++ [']']) ++ text) = some (array items, text) := by
  obtain ⟨body, rfl⟩ := List.head?_eq_some_iff.mp hbody
  have htext : c :: body ++ [']'] ++ text = c :: body ++ ']' :: text := List.append_assoc _ _ _
  show (match skipWhite (c :: body ++ [']'] ++ text) with
    | ']' :: text => some (array [], text)
    | text => (itemsAt fuel text).map fun p : List Json × List Char => (array p.1, p.2)) = _
  rw [htext, List.cons_append, skipWhite_cons hwhite, ← List.cons_append]
  split
  next heq => exact absurd (List.cons.inj heq).1 hc
  next =>
    rw [h]
    rfl

/-- An object that is not empty. -/
lemma valueAt_object {fuel : ℕ} {members : List (String × Json)} {body text : List Char}
    (h : membersAt fuel [] ('"' :: body ++ '\x7d' :: text) = some (members, text)) :
    valueAt (fuel + 1) ('\x7b' :: ('"' :: body ++ ['\x7d']) ++ text) =
      some (object members, text) := by
  have htext : '"' :: body ++ ['\x7d'] ++ text = '"' :: body ++ '\x7d' :: text :=
    List.append_assoc _ _ _
  have hopen : valueAt (fuel + 1) ('\x7b' :: ('"' :: body ++ ['\x7d']) ++ text) =
      (membersAt fuel [] ('"' :: body ++ ['\x7d'] ++ text)).map fun p => (object p.1, p.2) := rfl
  rw [hopen, htext, h]
  rfl

lemma endsNumber_cons {c : Char} (h : c ∈ [',', ']', '\x7d']) (text : List Char) :
    EndsNumber (c :: text) := by
  intro d hd
  obtain rfl := Option.some.inj hd
  simp only [List.mem_cons, List.not_mem_nil, or_false] at h
  rcases h with rfl | rfl | rfl <;> decide

/-- A new key goes last. -/
lemma put_of_notMem {members : List (String × Json)} {key : String} (value : Json)
    (h : key ∉ members.map Prod.fst) :
    OrdMap.put key value members = members ++ [(key, value)] := by
  induction members with
  | nil => rfl
  | cons p members ih =>
      rw [List.map_cons, List.mem_cons, not_or] at h
      rw [OrdMap.put, if_neg (Ne.symm h.1), ih h.2, List.cons_append]

/-- One member is read. -/
lemma membersAt_step {fuel : ℕ} {value : Json} {text : List Char} (key : String)
    (before : List (String × Json)) (h : valueAt fuel (value.chars ++ text) = some (value, text)) :
    membersAt (fuel + 1) before (quote key ++ ':' :: (value.chars ++ text)) =
      match skipWhite text with
      | '\x7d' :: text => some (OrdMap.put key value before, text)
      | ',' :: text => membersAt fuel (OrdMap.put key value before) text
      | _ => none := by
  have hkey := stringAt_quote key (':' :: (value.chars ++ text))
  have hquote : quote key ++ ':' :: (value.chars ++ text) =
      '"' :: (key.toList.flatMap quoteChar ++ ['"'] ++ ':' :: (value.chars ++ text)) := rfl
  rw [hquote, membersAt, skipWhite_cons rfl]
  show (stringAt (key.toList.flatMap quoteChar ++ ['"'] ++ _)).bind _ = _
  rw [hkey, Option.bind_some]
  show (valueAt fuel (value.chars ++ text)).bind _ = _
  rw [h, Option.bind_some]

mutual

/-- **A value is read from its text**, whatever follows. -/
theorem valueAt_chars : ∀ (value : Json) {fuel : ℕ} {text : List Char}, value.Valid →
    2 * value.chars.length ≤ fuel → EndsNumber text →
      valueAt fuel (value.chars ++ text) = some (value, text) := by
  intro value fuel text hvalid hfuel htext
  have hpos := value.length_chars_pos
  obtain ⟨fuel, rfl⟩ := Nat.exists_eq_succ_of_ne_zero (by omega : fuel ≠ 0)
  cases value with
  | null => rfl
  | bool value => cases value <;> rfl
  | number x => exact valueAt_number fuel x htext
  | string value => exact valueAt_string fuel value text
  | array items =>
      cases items with
      | nil => rfl
      | cons item items =>
          obtain ⟨c, head, hhead, hwhite, hc⟩ := item.chars_head
          refine valueAt_array (c := c) ?_ hwhite hc (itemsAt_chars (item :: items) ?_ hvalid ?_)
          · rw [itemsChars, hhead]
            rfl
          · exact List.cons_ne_nil _ _
          · rw [chars, List.length_cons, List.length_append] at hfuel
            omega
  | object members =>
      cases members with
      | nil => rfl
      | cons member members =>
          obtain ⟨key, value⟩ := member
          refine valueAt_object (membersAt_chars ((key, value) :: members) ?_ hvalid.2 hvalid.1 ?_)
          · exact List.cons_ne_nil _ _
          · rw [chars, List.length_cons, List.length_append] at hfuel
            omega

theorem itemsAt_chars : ∀ (items : List Json) {fuel : ℕ} {text : List Char}, items ≠ [] →
    ValidItems items → 2 * (itemsChars items).length + 1 ≤ fuel →
      itemsAt fuel (itemsChars items ++ ']' :: text) = some (items, text) := by
  intro items fuel text hne hvalid hfuel
  obtain ⟨fuel, rfl⟩ := Nat.exists_eq_succ_of_ne_zero (by omega : fuel ≠ 0)
  cases items with
  | nil => exact absurd rfl hne
  | cons item items =>
      rw [itemsChars, List.length_append] at hfuel
      rw [itemsChars, List.append_assoc, itemsAt]
      cases items with
      | nil =>
          have hitem := @valueAt_chars item fuel _ hvalid.1 (by omega)
            (endsNumber_cons (c := ']') (by decide) text)
          rw [moreItemsChars, List.nil_append, hitem]
          rfl
      | cons next items =>
          rw [moreItemsChars, List.length_cons, List.length_append] at hfuel
          have hitem := @valueAt_chars item fuel _ hvalid.1 (by omega)
            (endsNumber_cons (c := ',') (by decide) (itemsChars (next :: items) ++ ']' :: text))
          have hrest := @itemsAt_chars (next :: items) fuel text (List.cons_ne_nil _ _) hvalid.2
            (by rw [itemsChars, List.length_append]; omega)
          rw [moreItemsChars, List.cons_append, ← itemsChars, hitem, Option.bind_eq_bind,
            Option.bind_some]
          show (itemsAt fuel (itemsChars (next :: items) ++ ']' :: text)).map _ = _
          rw [hrest]
          rfl

theorem membersAt_chars : ∀ (members : List (String × Json)) {fuel : ℕ} {text : List Char},
    members ≠ [] → ValidMembers members →
      ∀ {before : List (String × Json)}, ((before ++ members).map Prod.fst).Nodup →
        2 * (membersChars members).length + 1 ≤ fuel →
          membersAt fuel before (membersChars members ++ '\x7d' :: text) =
            some (before ++ members, text) := by
  intro members fuel text hne hvalid before hnodup hfuel
  obtain ⟨fuel, rfl⟩ := Nat.exists_eq_succ_of_ne_zero (by omega : fuel ≠ 0)
  cases members with
  | nil => exact absurd rfl hne
  | cons member members =>
      obtain ⟨key, value⟩ := member
      have hnew : key ∉ before.map Prod.fst := by
        rw [List.map_append, List.map_cons] at hnodup
        exact fun hmem => (List.nodup_append.mp hnodup).2.2 key hmem key List.mem_cons_self rfl
      rw [membersChars, List.length_append, List.length_cons, List.length_append] at hfuel
      rw [membersChars, List.append_assoc, List.cons_append, List.append_assoc]
      cases members with
      | nil =>
          have hvalue := @valueAt_chars value fuel _ hvalid.1 (by omega)
            (endsNumber_cons (c := '\x7d') (by decide) text)
          rw [moreMembersChars, List.nil_append, membersAt_step key before hvalue,
            skipWhite_cons rfl, put_of_notMem value hnew]
          rfl
      | cons next members =>
          obtain ⟨nextKey, nextValue⟩ := next
          rw [moreMembersChars, List.length_cons, List.length_append, List.length_cons,
            List.length_append] at hfuel
          have hvalue := @valueAt_chars value fuel _ hvalid.1 (by omega)
            (endsNumber_cons (c := ',') (by decide)
              (membersChars ((nextKey, nextValue) :: members) ++ '\x7d' :: text))
          have hrest := @membersAt_chars ((nextKey, nextValue) :: members) fuel text
            (List.cons_ne_nil _ _) hvalid.2 (before ++ [(key, value)])
            (by rwa [List.append_assoc, List.singleton_append])
            (by rw [membersChars, List.length_append, List.length_cons, List.length_append]; omega)
          rw [moreMembersChars, List.cons_append, ← membersChars,
            membersAt_step key before hvalue, skipWhite_cons rfl, put_of_notMem value hnew]
          refine hrest.trans ?_
          rw [List.append_assoc, List.singleton_append]

end

/-- **A value is read back from its text.** -/
theorem parse_stringify {value : Json} (h : value.Valid) : parse value.stringify = some value := by
  have hread := @valueAt_chars value (2 * value.chars.length + 1) [] h (Nat.le_succ _) nofun
  rw [List.append_nil] at hread
  unfold parse stringify
  rw [String.toList_ofList, hread]
  rfl

lemma stringify_ne_empty (value : Json) : value.stringify ≠ "" := by
  obtain ⟨c, chars, hchars, -⟩ := value.chars_head
  intro hempty
  have hnil : value.chars = [] := String.ofList_injective hempty
  rw [hchars] at hnil
  cases hnil

end Json

end Js
