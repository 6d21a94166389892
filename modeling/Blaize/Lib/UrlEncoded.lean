import Blaize.Lib.Json

/-!
Percent-encoding and the form encoding of `URLSearchParams`.

A text is encoded byte by byte in UTF-8.  The decoder reads characters; those that are not
part of an escape stand for their own bytes.

* `percentEncode`, `percentDecode`: percent-encoding, with the bytes that stay;
* `serializeForm`, `parseForm`: lists of names and values as one text;
* `parseForm_serializeForm`: **a list is read back from its text**.
-/

namespace Js

open Json (hexValue)

/-! ### Percent-encoding -/

/-- A hexadecimal digit in upper case. -/
def upperHexDigit (n : ℕ) : Char := (Nat.digitChar n).toUpper

/-- The ASCII letters and digits. -/
def isAlphanumericByte (b : UInt8) : Bool :=
  (0x30 ≤ b && b ≤ 0x39) || (0x41 ≤ b && b ≤ 0x5A) || (0x61 ≤ b && b ≤ 0x7A)

/-- A byte that stays stands for a character; another one is escaped. -/
def encodeByte (stays : UInt8 → Bool) (b : UInt8) : List Char :=
  if stays b then [Char.ofNat b.toNat]
  else ['%', upperHexDigit (b.toNat / 16), upperHexDigit (b.toNat % 16)]

/-- The bytes of a text, with the others written as `%XX`. -/
def percentEncode (stays : UInt8 → Bool) (text : String) : List Char :=
  (utf8Encode text).flatMap (encodeByte stays)

/-- The bytes of a text with its escapes decoded; what is no escape stays. -/
def percentDecode : List Char → Bytes
  | [] => []
  | '%' :: a :: b :: text =>
      match hexValue a, hexValue b with
      | some a, some b => UInt8.ofNat (16 * a + b) :: percentDecode text
      | _, _ => 0x25 :: percentDecode (a :: b :: text)
  | c :: text => String.utf8EncodeChar c ++ percentDecode text

lemma hexValue_upperHexDigit : ∀ n < 16, hexValue (upperHexDigit n) = some n := by decide

lemma percentDecode_escape (b : UInt8) (text : List Char) :
    percentDecode ('%' :: upperHexDigit (b.toNat / 16) :: upperHexDigit (b.toNat % 16) :: text) =
      b :: percentDecode text := by
  have hb := b.toNat_lt
  rw [percentDecode, hexValue_upperHexDigit _ (by omega), hexValue_upperHexDigit _ (by omega)]
  dsimp only
  rw [Nat.div_add_mod, UInt8.ofNat_toNat]

lemma percentDecode_cons_of_ne {c : Char} (h : c ≠ '%') (text : List Char) :
    percentDecode (c :: text) = String.utf8EncodeChar c ++ percentDecode text := by
  rw [percentDecode.eq_def]
  split
  next heq => cases heq
  next heq => exact absurd (List.cons.inj heq).1 h
  next heq =>
    obtain ⟨rfl, rfl⟩ := List.cons.inj heq
    rfl

lemma utf8EncodeChar_ofNat :
    ∀ n < 0x80, String.utf8EncodeChar (Char.ofNat n) = [UInt8.ofNat n] := by decide

/-- One encoded byte is decoded. -/
lemma percentDecode_encodeByte {stays : UInt8 → Bool} (hpercent : stays 0x25 = false)
    (hascii : ∀ b, stays b = true → b.toNat < 0x80) (b : UInt8) (text : List Char) :
    percentDecode (encodeByte stays b ++ text) = b :: percentDecode text := by
  unfold encodeByte
  split
  next hstays =>
    have hne : Char.ofNat b.toNat ≠ '%' := by
      intro he
      have hpercentCode : ∀ n < 0x80, Char.ofNat n = '%' → UInt8.ofNat n = 0x25 := by decide
      have hb := hpercentCode b.toNat (hascii b hstays) he
      rw [UInt8.ofNat_toNat] at hb
      rw [hb, hpercent] at hstays
      cases hstays
    rw [List.singleton_append, percentDecode_cons_of_ne hne,
      utf8EncodeChar_ofNat b.toNat (hascii b hstays), UInt8.ofNat_toNat]
    rfl
  next => exact percentDecode_escape b text

lemma mem_upperHexDigit {n : ℕ} (h : n < 16) : upperHexDigit n ∈ "0123456789ABCDEF".toList := by
  have hall : ∀ n < 16, upperHexDigit n ∈ "0123456789ABCDEF".toList := by decide
  exact hall n h

/-- The characters of an encoded byte. -/
lemma mem_encodeByte {stays : UInt8 → Bool} {b : UInt8} {c : Char} (h : c ∈ encodeByte stays b) :
    (stays b = true ∧ c = Char.ofNat b.toNat) ∨ c = '%' ∨ c ∈ "0123456789ABCDEF".toList := by
  have hb := b.toNat_lt
  unfold encodeByte at h
  split at h
  next hstays => exact .inl ⟨hstays, List.mem_singleton.mp h⟩
  next =>
    simp only [List.mem_cons, List.not_mem_nil, or_false] at h
    rcases h with rfl | rfl | rfl
    · exact .inr (.inl rfl)
    · exact .inr (.inr (mem_upperHexDigit (by omega)))
    · exact .inr (.inr (mem_upperHexDigit (by omega)))

/-! ### The form encoding -/

/-- The bytes that stand for themselves in a form. -/
def formStays (b : UInt8) : Bool :=
  isAlphanumericByte b || b == 0x2A || b == 0x2D || b == 0x2E || b == 0x5F

/-- A space is written as a plus. -/
def formEncodeByte (b : UInt8) : List Char := if b = 0x20 then ['+'] else encodeByte formStays b

/-- A name or a value of a form. -/
def formEncode (text : String) : List Char := (utf8Encode text).flatMap formEncodeByte

/-- A plus stands for a space. -/
def plusToSpace (c : Char) : Char := if c = '+' then ' ' else c

/-- A name or a value of a form is read. -/
def formDecode (text : List Char) : String := utf8Decode (percentDecode (text.map plusToSpace))

/-- `URLSearchParams.prototype.toString`. -/
def serializeForm (pairs : List (String × String)) : List Char :=
  List.intercalate ['&'] (pairs.map fun p => formEncode p.1 ++ '=' :: formEncode p.2)

/-- The names and values of `new URLSearchParams(text)`. -/
def parseForm (text : List Char) : List (String × String) :=
  ((text.splitOn '&').filter (· ≠ [])).map fun part =>
    (formDecode (part.takeWhile (· ≠ '=')), formDecode ((part.dropWhile (· ≠ '=')).drop 1))

/-- The bytes that stay in a form are ASCII letters, digits and four signs. -/
lemma formStays_ascii (b : UInt8) (h : formStays b = true) :
    b.toNat < 0x80 ∧ ((Char.ofNat b.toNat).isAlphanum = true ∨
      Char.ofNat b.toNat ∈ "*-._".toList) := by
  have hall : ∀ n < 256, formStays (UInt8.ofNat n) = true → (UInt8.ofNat n).toNat < 0x80 ∧
      ((Char.ofNat (UInt8.ofNat n).toNat).isAlphanum = true ∨
        Char.ofNat (UInt8.ofNat n).toNat ∈ "*-._".toList) := by decide +kernel
  have hb := hall b.toNat b.toNat_lt
  rw [UInt8.ofNat_toNat] at hb
  exact hb h

/-- The characters of a text in a form. -/
lemma mem_formEncode {text : String} {c : Char} (h : c ∈ formEncode text) :
    c.isAlphanum = true ∨ c ∈ "*-._+%".toList := by
  obtain ⟨b, -, hc⟩ := List.mem_flatMap.mp h
  unfold formEncodeByte at hc
  split at hc
  · rw [List.mem_singleton.mp hc]
    exact .inr (by decide)
  · rcases mem_encodeByte hc with ⟨hstays, rfl⟩ | rfl | hhex
    · refine (formStays_ascii b hstays).2.imp_right fun hsign => ?_
      exact (by decide : "*-._".toList ⊆ "*-._+%".toList) hsign
    · exact .inr (by decide)
    · have hall : ∀ c ∈ "0123456789ABCDEF".toList, c.isAlphanum = true := by decide
      exact .inl (hall c hhex)

/-- A text in a form has no separator. -/
lemma notMem_formEncode (text : String) {c : Char} (hc : c ∈ "&=?#".toList) :
    c ∉ formEncode text := by
  intro h
  have hall : ∀ c ∈ "&=?#".toList, c.isAlphanum = false ∧ c ∉ "*-._+%".toList := by decide
  obtain ⟨halpha, hpunctuation⟩ := hall c hc
  rcases mem_formEncode h with h | h
  · rw [halpha] at h
    cases h
  · exact hpunctuation h

lemma formDecode_formEncode (text : String) : formDecode (formEncode text) = text := by
  have hbyte (b : UInt8) (rest : List Char) :
      percentDecode ((formEncodeByte b).map plusToSpace ++ rest) = b :: percentDecode rest := by
    unfold formEncodeByte
    split
    next hspace =>
      subst hspace
      rfl
    next =>
      have hmap : (encodeByte formStays b).map plusToSpace = encodeByte formStays b := by
        refine (List.map_congr_left fun c hc => ?_).trans (List.map_id _)
        refine if_neg ?_
        rintro rfl
        rcases mem_encodeByte hc with ⟨hstays, hplus⟩ | hpercent | hhex
        · rcases (formStays_ascii b hstays).2 with hsign | hsign
          · rw [← hplus] at hsign
            cases hsign
          · rw [← hplus] at hsign
            revert hsign
            decide
        · cases hpercent
        · revert hhex
          decide
      rw [hmap]
      exact percentDecode_encodeByte rfl (fun b hb => (formStays_ascii b hb).1) b rest
  have hbytes (bytes : Bytes) :
      percentDecode ((bytes.flatMap formEncodeByte).map plusToSpace) = bytes := by
    induction bytes with
    | nil => rfl
    | cons b bytes ih => rw [List.flatMap_cons, List.map_append, hbyte, ih]
  rw [formDecode, formEncode, hbytes, utf8Decode_utf8Encode]

/-- **The names and values of a form are read back.** -/
theorem parseForm_serializeForm (pairs : List (String × String)) :
    parseForm (serializeForm pairs) = pairs := by
  have hpart (p : String × String) : '&' ∉ formEncode p.1 ++ '=' :: formEncode p.2 := by
    rw [List.mem_append, List.mem_cons]
    rintro (h | h | h)
    · exact notMem_formEncode p.1 (by decide) h
    · cases h
    · exact notMem_formEncode p.2 (by decide) h
  have hread (p : String × String) :
      (formDecode ((formEncode p.1 ++ '=' :: formEncode p.2).takeWhile (· ≠ '=')),
        formDecode (((formEncode p.1 ++ '=' :: formEncode p.2).dropWhile (· ≠ '=')).drop 1)) =
          p := by
    have hname : ∀ c ∈ formEncode p.1, decide (c ≠ '=') = true := by
      intro c hc
      refine decide_eq_true ?_
      rintro rfl
      exact notMem_formEncode p.1 (by decide) hc
    rw [List.takeWhile_append_of_pos hname, List.dropWhile_append_of_pos hname,
      List.takeWhile_cons_of_neg (by decide), List.dropWhile_cons_of_neg (by decide),
      List.append_nil, List.drop_one, List.tail_cons, formDecode_formEncode, formDecode_formEncode]
  unfold parseForm serializeForm
  cases pairs with
  | nil => rfl
  | cons p pairs =>
      rw [List.splitOn_intercalate '&' ?_ (by simp), List.filter_eq_self.mpr ?_, List.map_map]
      · exact List.map_id'' hread _
      · intro part hmem
        obtain ⟨p, -, rfl⟩ := List.mem_map.mp hmem
        simp
      · intro part hmem
        obtain ⟨p, -, rfl⟩ := List.mem_map.mp hmem
        exact hpart p

/-- The characters of a form. -/
lemma mem_serializeForm {pairs : List (String × String)} {c : Char} (h : c ∈ serializeForm pairs) :
    c.isAlphanum = true ∨ c ∈ "*-._+%&=".toList := by
  have hsub : "*-._+%".toList ⊆ "*-._+%&=".toList := by decide
  rcases List.mem_of_mem_intercalate h with hsep | ⟨part, hpart, h⟩
  · rw [List.mem_singleton.mp hsep]
    exact .inr (by decide)
  · obtain ⟨p, -, rfl⟩ := List.mem_map.mp hpart
    rcases List.mem_append.mp h with h | h
    · exact (mem_formEncode h).imp_right (@hsub c)
    · rcases List.mem_cons.mp h with rfl | h
      · exact .inr (by decide)
      · exact (mem_formEncode h).imp_right (@hsub c)

end Js
