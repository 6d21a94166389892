import Mathlib.Data.List.TakeWhile
import Blaize.Lib.UrlEncoded

/-!
The path and the query of an `http` URL, as the URL parser finds them.

The authority of a URL is not looked into: it is whatever stands before the path.

* `stripped`: the text without the characters that the parser ignores;
* `pathname`: the path with its dot segments resolved and its characters escaped;
* `query`: the escaped query;
* `pathname_authority`: **characters of a path are left alone, its dot segments are resolved**;
* `query_form`: **the text of a form is left alone**.
-/

namespace Js.Url

/-! ### The parts of a URL -/

/-- What is cut off at both ends. -/
def isControlOrSpace (c : Char) : Bool := c.toNat ≤ 0x20

/-- What is left out everywhere. -/
def isTabOrNewline (c : Char) : Bool := c = '\t' || c = '\n' || c = '\r'

/-- The text that is parsed: controls and spaces go at both ends, tabs and line breaks
everywhere. -/
def stripped (url : List Char) : List Char :=
  ((url.dropWhile isControlOrSpace).reverse.dropWhile isControlOrSpace).reverse.filter
    (! isTabOrNewline ·)

/-- In a special URL both slashes are one. -/
def isSlash (c : Char) : Bool := c = '/' || c = '\\'

/-- The end of a path. -/
def endsPath (c : Char) : Bool := c = '?' || c = '#'

/-- What follows the scheme and the authority. -/
def afterAuthority (text : List Char) : List Char :=
  (((text.dropWhile (· ≠ ':')).drop 1).dropWhile isSlash).dropWhile
    fun c => ! isSlash c && ! endsPath c

/-- The characters with some of them escaped. -/
def escapeWhere (escapes : Char → Bool) (text : List Char) : List Char :=
  text.flatMap fun c =>
    if escapes c then (String.utf8EncodeChar c).flatMap (encodeByte fun _ => false) else [c]

/-- The path percent-encode set. -/
def pathEscapes (c : Char) : Bool :=
  c.toNat < 0x20 || 0x7E < c.toNat ||
    c ∈ [' ', '"', '#', '<', '>', '?', '^', '\x60', '\x7b', '\x7d']

/-- The special-query percent-encode set. -/
def queryEscapes (c : Char) : Bool :=
  c.toNat < 0x20 || 0x7E < c.toNat || c ∈ [' ', '"', '#', '<', '>', '\'']

/-- A segment that names the same directory. -/
def isSingleDot (segment : List Char) : Bool :=
  segment.map Char.toLower ∈ [".".toList, "%2e".toList]

/-- A segment that names the directory above. -/
def isDoubleDot (segment : List Char) : Bool :=
  segment.map Char.toLower ∈ ["..".toList, ".%2e".toList, "%2e.".toList, "%2e%2e".toList]

/-- Resolves the dot segments and escapes the others; `path` has the segments so far. -/
def resolve (path : List (List Char)) : List (List Char) → List (List Char)
  | [] => path
  | [segment] =>
      if isDoubleDot segment then path.dropLast ++ [[]]
      else if isSingleDot segment then path ++ [[]]
      else path ++ [escapeWhere pathEscapes segment]
  | segment :: segments =>
      if isDoubleDot segment then resolve path.dropLast segments
      else if isSingleDot segment then resolve path segments
      else resolve (path ++ [escapeWhere pathEscapes segment]) segments

/-- The segments between the slashes of a path. -/
def segments (path : List Char) : List (List Char) :=
  (path.map fun c => if isSlash c then '/' else c).splitOn '/'

/-- A path with a slash before each segment. -/
def joined (segments : List (List Char)) : List Char := segments.flatMap ('/' :: ·)

/-- The path in front of a query and a fragment. -/
def pathOf (text : List Char) : List Char := (afterAuthority text).takeWhile (! endsPath ·)

/-- `url.pathname`. -/
def pathname (url : List Char) : List Char :=
  joined (resolve [] (segments (pathOf (stripped url)).tail))

/-- What follows the first question mark, in front of a fragment. -/
def queryOf (text : List Char) : List Char :=
  ((text.takeWhile (· ≠ '#')).dropWhile (· ≠ '?')).drop 1

/-- `url.search` without its question mark. -/
def query (url : List Char) : List Char := escapeWhere queryEscapes (queryOf (stripped url))

/-! ### What is left alone -/

lemma escapeWhere_of_forall {escapes : Char → Bool} {text : List Char}
    (h : ∀ c ∈ text, escapes c = false) : escapeWhere escapes text = text := by
  unfold escapeWhere
  induction text with
  | nil => rfl
  | cons c text ih =>
      rw [List.flatMap_cons, h c List.mem_cons_self, ih fun d hd => h d (List.mem_cons_of_mem _ hd)]
      rfl

/-- An escaped text has no character that is to be escaped. -/
lemma escapes_of_mem_escapeWhere {escapes : Char → Bool} {text : List Char} {c : Char}
    (hstays : ∀ c ∈ "%0123456789ABCDEF".toList, escapes c = false)
    (h : c ∈ escapeWhere escapes text) : escapes c = false := by
  obtain ⟨d, -, hc⟩ := List.mem_flatMap.mp h
  split at hc
  next =>
    obtain ⟨b, -, hc⟩ := List.mem_flatMap.mp hc
    rcases mem_encodeByte hc with ⟨hfalse, -⟩ | rfl | hhex
    · cases hfalse
    · exact hstays '%' (by decide)
    · exact hstays c (List.mem_cons_of_mem _ hhex)
  next hd =>
    obtain rfl := List.mem_singleton.mp hc
    simpa using hd

lemma mem_stripped {url : List Char} {c : Char} (h : c ∈ stripped url) : c ∈ url := by
  have h := (List.mem_filter.mp h).1
  rw [List.mem_reverse] at h
  have h := (List.dropWhile_sublist _).subset h
  rw [List.mem_reverse] at h
  exact (List.dropWhile_sublist _).subset h

/-- No part of a path ends a path. -/
lemma notMem_joined_resolve {path parts : List (List Char)} {c : Char} (hc : endsPath c = true)
    (hpath : ∀ segment ∈ path, c ∉ segment) : ∀ segment ∈ resolve path parts, c ∉ segment := by
  have hescaped (segment : List Char) : c ∉ escapeWhere pathEscapes segment := by
    intro h
    have hstays := escapes_of_mem_escapeWhere (by decide) h
    unfold endsPath at hc
    rcases (Bool.or_eq_true _ _).mp hc with hc | hc
    · obtain rfl := of_decide_eq_true hc
      cases hstays
    · obtain rfl := of_decide_eq_true hc
      cases hstays
  have hdrop {before : List (List Char)} (hbefore : ∀ segment ∈ before, c ∉ segment) :
      ∀ segment ∈ before.dropLast, c ∉ segment :=
    fun segment hmem => hbefore segment ((List.dropLast_sublist before).subset hmem)
  have happend {before : List (List Char)} (hbefore : ∀ segment ∈ before, c ∉ segment)
      {last : List Char} (hlast : c ∉ last) : ∀ segment ∈ before ++ [last], c ∉ segment := by
    intro segment hmem
    rcases List.mem_append.mp hmem with hmem | hmem
    · exact hbefore segment hmem
    · exact List.mem_singleton.mp hmem ▸ hlast
  fun_induction resolve path parts with
  | case1 path => exact hpath
  | case2 path segment hdouble => exact happend (hdrop hpath) List.not_mem_nil
  | case3 path segment hdouble hsingle => exact happend hpath List.not_mem_nil
  | case4 path segment hdouble hsingle => exact happend hpath (hescaped segment)
  | case5 path segment parts hne hdouble ih => exact ih (hdrop hpath)
  | case6 path segment parts hne hdouble hsingle ih => exact ih hpath
  | case7 path segment parts hne hdouble hsingle ih =>
      exact ih (happend hpath (hescaped segment))

lemma notMem_pathname (url : List Char) {c : Char} (hc : endsPath c = true) : c ∉ pathname url := by
  intro h
  obtain ⟨segment, hsegment, h⟩ := List.mem_flatMap.mp h
  rcases List.mem_cons.mp h with rfl | h
  · cases hc
  · exact notMem_joined_resolve hc (fun _ hmem => absurd hmem List.not_mem_nil) segment hsegment h

lemma resolve_ne_nil (path : List (List Char)) {parts : List (List Char)} (h : parts ≠ []) :
    resolve path parts ≠ [] := by
  fun_induction resolve path parts with
  | case1 => exact absurd rfl h
  | case2 | case3 | case4 => exact List.append_ne_nil_of_right_ne_nil _ (List.cons_ne_nil _ _)
  | case5 path segment parts hne hdouble ih => exact ih hne
  | case6 path segment parts hne hdouble hsingle ih => exact ih hne
  | case7 path segment parts hne hdouble hsingle ih => exact ih hne

lemma pathname_ne_nil (url : List Char) : pathname url ≠ [] := by
  have hsegments : segments (pathOf (stripped url)).tail ≠ [] := List.splitOn_ne_nil '/' _
  obtain ⟨segment, parts, hparts⟩ := List.exists_cons_of_ne_nil (resolve_ne_nil [] hsegments)
  rw [pathname, hparts]
  exact List.cons_ne_nil _ _

/-! ### The query -/

/-- A character that no part of a URL escapes or ignores. -/
def isFormChar (c : Char) : Bool := c.isAlphanum || "*-._+%&=".toList.contains c

lemma toNat_of_isAlphanum {c : Char} (h : c.isAlphanum = true) :
    (0x30 ≤ c.toNat ∧ c.toNat ≤ 0x39) ∨ (0x41 ≤ c.toNat ∧ c.toNat ≤ 0x5A) ∨
      (0x61 ≤ c.toNat ∧ c.toNat ≤ 0x7A) := by
  delta Char.isAlphanum Char.isAlpha Char.isUpper Char.isLower Char.isDigit at h
  simp only [Bool.or_eq_true, Bool.and_eq_true, decide_eq_true_eq, ge_iff_le] at h
  rcases h with (h | h) | h
  · exact .inr (.inl h)
  · exact .inr (.inr h)
  · exact .inl h

/-- What can be tested of the letters, the digits and some signs. -/
lemma forall_formChar {P : Char → Bool} (h : ∀ n < 0x7B, isFormChar (Char.ofNat n) = true →
    P (Char.ofNat n) = true) {c : Char} (hc : isFormChar c = true) : P c = true := by
  have hlt : c.toNat < 0x7B := by
    rcases (Bool.or_eq_true _ _).mp hc with hc | hc
    · have hrange := toNat_of_isAlphanum hc
      omega
    · have hall : ∀ c ∈ "*-._+%&=".toList, c.toNat < 0x7B := by decide
      exact hall c (List.contains_iff_mem.mp hc)
  have hchar := h c.toNat hlt
  rw [Char.ofNat_toNat] at hchar
  exact hchar hc

lemma formChar_plain {c : Char} (hc : isFormChar c = true) :
    queryEscapes c = false ∧ isControlOrSpace c = false ∧ isTabOrNewline c = false ∧
      endsPath c = false := by
  have h := @forall_formChar
    (fun c => ! queryEscapes c && ! isControlOrSpace c && ! isTabOrNewline c && ! endsPath c)
    (by decide +kernel) c hc
  simpa [and_assoc] using h

lemma isFormChar_serializeForm (pairs : List (String × String)) :
    ∀ c ∈ serializeForm pairs, isFormChar c = true := by
  intro c hc
  refine (Bool.or_eq_true _ _).mpr ?_
  exact (mem_serializeForm hc).imp_right List.contains_iff_mem.mpr

/-- A form behind a question mark is not touched by the stripping. -/
lemma stripped_form {before form : List Char} (hform : ∀ c ∈ form, isFormChar c = true) :
    ∃ left, (∀ c ∈ left, c ∈ before) ∧ stripped (before ++ '?' :: form) = left ++ '?' :: form := by
  have hfront : (before ++ '?' :: form).dropWhile isControlOrSpace =
      before.dropWhile isControlOrSpace ++ '?' :: form := by
    rw [List.dropWhile_append]
    split
    next hempty =>
      rw [List.isEmpty_iff.mp hempty]
      exact List.dropWhile_cons_of_neg (by decide)
    next => rfl
  have hback (left : List Char) :
      ((left ++ '?' :: form).reverse.dropWhile isControlOrSpace).reverse = left ++ '?' :: form := by
    obtain ⟨c, init, hc⟩ := List.exists_cons_of_ne_nil
      (List.reverse_ne_nil_iff.mpr (List.cons_ne_nil '?' form))
    have hlast : isControlOrSpace c = false := by
      have hmem : c ∈ '?' :: form := List.mem_reverse.mp (hc ▸ List.mem_cons_self)
      rcases List.mem_cons.mp hmem with rfl | hmem
      · decide
      · exact (formChar_plain (hform c hmem)).2.1
    have hreverse : (left ++ '?' :: form).reverse = c :: (init ++ left.reverse) := by
      rw [List.reverse_append, hc]
      rfl
    rw [hreverse, List.dropWhile_cons_of_neg (by simp [hlast]), ← hreverse, List.reverse_reverse]
  refine ⟨(before.dropWhile isControlOrSpace).filter (! isTabOrNewline ·), fun c hc => ?_, ?_⟩
  · exact (List.dropWhile_sublist _).subset (List.mem_filter.mp hc).1
  · unfold stripped
    rw [hfront, hback, List.filter_append, List.filter_cons_of_pos (by decide)]
    have hkept : form.filter (! isTabOrNewline ·) = form :=
      List.filter_eq_self.mpr fun c hc => by rw [(formChar_plain (hform c hc)).2.2.1]; rfl
    rw [hkept]

lemma queryOf_append {before form : List Char} (hbefore : ∀ c ∈ before, endsPath c = false)
    (hform : '#' ∉ form) : queryOf (before ++ '?' :: form) = form := by
  have hne (c : Char) (hc : c ∈ before) : c ≠ '?' ∧ c ≠ '#' := by
    have hends := hbefore c hc
    constructor <;>
    · rintro rfl
      cases hends
  have hhash : ∀ c ∈ before ++ '?' :: form, decide (c ≠ '#') = true := by
    intro c hc
    refine decide_eq_true ?_
    rcases List.mem_append.mp hc with hc | hc
    · exact (hne c hc).2
    · rintro rfl
      rcases List.mem_cons.mp hc with hc | hc
      · cases hc
      · exact hform hc
  unfold queryOf
  rw [List.takeWhile_eq_self_iff.mpr hhash,
    List.dropWhile_append_of_pos fun c hc => decide_eq_true (hne c hc).1,
    List.dropWhile_cons_of_neg (by decide)]
  rfl

lemma queryOf_of_notMem {text : List Char} (h : '?' ∉ text) : queryOf text = [] := by
  have hdrop : (text.takeWhile (· ≠ '#')).dropWhile (· ≠ '?') = [] := by
    refine List.dropWhile_eq_nil_iff.mpr fun c hc => decide_eq_true ?_
    rintro rfl
    exact h ((List.takeWhile_sublist _).subset hc)
  unfold queryOf
  rw [hdrop]
  rfl

/-- **The text of a form is left alone.** -/
theorem query_form {before form : List Char} (hbefore : ∀ c ∈ before, endsPath c = false)
    (hform : ∀ c ∈ form, isFormChar c = true) : query (before ++ '?' :: form) = form := by
  obtain ⟨left, hleft, hstripped⟩ := @stripped_form before form hform
  unfold query
  rw [hstripped, queryOf_append (fun c hc => hbefore c (hleft c hc)),
    escapeWhere_of_forall fun c hc => (formChar_plain (hform c hc)).1]
  intro hhash
  cases (formChar_plain (hform '#' hhash)).2.2.2

lemma query_of_notMem {url : List Char} (h : '?' ∉ url) : query url = [] := by
  unfold query
  rw [queryOf_of_notMem fun hmem => h (mem_stripped hmem)]
  rfl

/-! ### The path -/

/-- A character that no segment of a path escapes. -/
def isPathChar (c : Char) : Bool := ! pathEscapes c && ! isSlash c

lemma pathChar_plain {c : Char} (hc : isPathChar c = true) :
    pathEscapes c = false ∧ isSlash c = false ∧ endsPath c = false ∧
      isControlOrSpace c = false := by
  obtain ⟨hescapes, hslash⟩ := (Bool.and_eq_true _ _).mp hc
  have hescapes : pathEscapes c = false := by simpa using hescapes
  refine ⟨hescapes, by simpa using hslash, ?_, ?_⟩
  · rw [Bool.eq_false_iff]
    intro hends
    rcases (Bool.or_eq_true _ _).mp hends with he | he <;>
    · obtain rfl := of_decide_eq_true he
      cases hescapes
  · rw [Bool.eq_false_iff]
    intro hcontrol
    have hle : c.toNat ≤ 0x20 := of_decide_eq_true hcontrol
    rcases hle.lt_or_eq with hlt | heq
    · have hescapes' : pathEscapes c = true := by
        unfold pathEscapes
        rw [decide_eq_true hlt]
        rfl
      rw [hescapes] at hescapes'
      cases hescapes'
    · have hspace : c = ' ' := Char.toNat_inj.mp heq
      subst hspace
      cases hescapes

/-- The characters of a path that the parser gives are plain. -/
lemma isPathChar_resolve {path parts : List (List Char)}
    (hpath : ∀ part ∈ path, ∀ c ∈ part, isPathChar c = true)
    (hparts : ∀ part ∈ parts, ∀ c ∈ part, isSlash c = false) :
    ∀ part ∈ resolve path parts, ∀ c ∈ part, isPathChar c = true := by
  have hescaped {part : List Char} (hpart : ∀ c ∈ part, isSlash c = false) :
      ∀ c ∈ escapeWhere pathEscapes part, isPathChar c = true := by
    intro c hc
    have hslash : isSlash c = false := by
      obtain ⟨d, hd, hmem⟩ := List.mem_flatMap.mp hc
      split at hmem
      · obtain ⟨b, -, hmem⟩ := List.mem_flatMap.mp hmem
        have hall : ∀ c ∈ "%0123456789ABCDEF".toList, isSlash c = false := by decide
        rcases mem_encodeByte hmem with ⟨hfalse, -⟩ | rfl | hhex
        · cases hfalse
        · rfl
        · exact hall c (List.mem_cons_of_mem _ hhex)
      · exact List.mem_singleton.mp hmem ▸ hpart d hd
    unfold isPathChar
    rw [escapes_of_mem_escapeWhere (by decide) hc, hslash]
    rfl
  have hdrop {before : List (List Char)} (h : ∀ part ∈ before, ∀ c ∈ part, isPathChar c = true) :
      ∀ part ∈ before.dropLast, ∀ c ∈ part, isPathChar c = true :=
    fun part hmem => h part ((List.dropLast_sublist before).subset hmem)
  have happend {before : List (List Char)} {last : List Char}
      (h : ∀ part ∈ before, ∀ c ∈ part, isPathChar c = true)
      (hlast : ∀ c ∈ last, isPathChar c = true) :
      ∀ part ∈ before ++ [last], ∀ c ∈ part, isPathChar c = true := by
    intro part hmem
    rcases List.mem_append.mp hmem with hmem | hmem
    · exact h part hmem
    · exact List.mem_singleton.mp hmem ▸ hlast
  have hnil : ∀ c ∈ ([] : List Char), isPathChar c = true := fun c hc => absurd hc List.not_mem_nil
  fun_induction resolve path parts with
  | case1 path => exact hpath
  | case2 path segment hdouble => exact happend (hdrop hpath) hnil
  | case3 path segment hdouble hsingle => exact happend hpath hnil
  | case4 path segment hdouble hsingle =>
      exact happend hpath (hescaped (hparts segment List.mem_cons_self))
  | case5 path segment parts hne hdouble ih =>
      exact ih (hdrop hpath) fun part hmem => hparts part (List.mem_cons_of_mem segment hmem)
  | case6 path segment parts hne hdouble hsingle ih =>
      exact ih hpath fun part hmem => hparts part (List.mem_cons_of_mem segment hmem)
  | case7 path segment parts hne hdouble hsingle ih =>
      exact ih (happend hpath (hescaped (hparts segment List.mem_cons_self)))
        fun part hmem => hparts part (List.mem_cons_of_mem segment hmem)

lemma isSlash_segments (path : List Char) :
    ∀ part ∈ segments path, ∀ c ∈ part, isSlash c = false := by
  intro part hpart c hc
  obtain ⟨hmem, hne⟩ := List.mem_of_mem_splitOn hpart hc
  obtain ⟨d, -, rfl⟩ := List.mem_map.mp hmem
  split at hne
  · exact absurd rfl hne
  next hslash =>
    rw [if_neg hslash]
    simpa using hslash

lemma pathname_parts (url : List Char) : ∃ parts, pathname url = joined parts ∧
    ∀ part ∈ parts, ∀ c ∈ part, isPathChar c = true :=
  ⟨_, rfl, isPathChar_resolve (fun _ hmem => absurd hmem List.not_mem_nil) (isSlash_segments _)⟩

/-- The segments of a path are its parts. -/
lemma segments_joined {part : List Char} {parts : List (List Char)}
    (h : ∀ p ∈ part :: parts, ∀ c ∈ p, isSlash c = false) :
    segments (part ++ joined parts) = part :: parts := by
  have hslash {text : List Char} (htext : ∀ c ∈ text, isSlash c = false) : '/' ∉ text :=
    fun hmem => absurd (htext '/' hmem) nofun
  have hmap {text : List Char} (htext : ∀ c ∈ text, isSlash c = false) :
      (text.map fun c => if isSlash c then '/' else c) = text := by
    refine (List.map_congr_left fun c hc => ?_).trans (List.map_id text)
    rw [htext c hc]
    rfl
  unfold segments
  rw [List.map_append, hmap (h part List.mem_cons_self)]
  induction parts generalizing part with
  | nil =>
      rw [joined, List.flatMap_nil, List.map_nil, List.append_nil]
      exact List.splitOn_eq_singleton (hslash (h part List.mem_cons_self))
  | cons next parts ih =>
      have hnext := fun p hp => h p (List.mem_cons_of_mem part hp)
      have hcons : (joined (next :: parts)).map (fun c => if isSlash c then '/' else c) =
          '/' :: (next ++ (joined parts).map fun c => if isSlash c then '/' else c) := by
        rw [joined, List.flatMap_cons, List.cons_append, List.map_cons, List.map_append,
          hmap (hnext next List.mem_cons_self)]
        rfl
      rw [hcons, List.splitOn_append_cons_self_of_not_mem (hslash (h part List.mem_cons_self)),
        ih hnext]

/-- An authority: what stands between the scheme and the path. -/
def IsAuthority (authority : List Char) : Prop :=
  authority ≠ [] ∧
    ∀ c ∈ authority, isSlash c = false ∧ endsPath c = false ∧ isControlOrSpace c = false

lemma stripped_of_forall {url : List Char} (h : ∀ c ∈ url, isControlOrSpace c = false) :
    stripped url = url := by
  have hdrop {text : List Char} (htext : ∀ c ∈ text, isControlOrSpace c = false) :
      text.dropWhile isControlOrSpace = text := by
    cases text with
    | nil => rfl
    | cons c text => exact List.dropWhile_cons_of_neg (by simp [htext c List.mem_cons_self])
  unfold stripped
  rw [hdrop h, hdrop fun c hc => h c (List.mem_reverse.mp hc), List.reverse_reverse]
  refine List.filter_eq_self.mpr fun c hc => ?_
  by_contra htab
  have htab : isTabOrNewline c = true := by simpa using htab
  have hcontrol := h c hc
  unfold isTabOrNewline at htab
  rw [Bool.or_eq_true, Bool.or_eq_true, decide_eq_true_eq, decide_eq_true_eq,
    decide_eq_true_eq] at htab
  rcases htab with (rfl | rfl) | rfl <;> cases hcontrol

/-- **The path of a URL behind its scheme and its authority.** -/
theorem pathname_authority {scheme authority : List Char}
    (hscheme : ∀ c ∈ scheme, c ≠ ':' ∧ isControlOrSpace c = false)
    (hauthority : IsAuthority authority) {parts : List (List Char)} (hne : parts ≠ [])
    (hparts : ∀ part ∈ parts, ∀ c ∈ part, isPathChar c = true) :
    pathname (scheme ++ "://".toList ++ authority ++ joined parts) =
      joined (resolve [] parts) := by
  obtain ⟨part, parts, rfl⟩ := List.exists_cons_of_ne_nil hne
  have hjoined : ∀ c ∈ joined (part :: parts), endsPath c = false ∧ isControlOrSpace c = false := by
    intro c hc
    obtain ⟨p, hp, hc⟩ := List.mem_flatMap.mp hc
    rcases List.mem_cons.mp hc with rfl | hc
    · exact ⟨rfl, rfl⟩
    · exact (pathChar_plain (hparts p hp c hc)).2.2
  have hstripped : stripped (scheme ++ "://".toList ++ authority ++ joined (part :: parts)) =
      scheme ++ "://".toList ++ authority ++ joined (part :: parts) := by
    refine stripped_of_forall fun c hc => ?_
    rw [List.mem_append, List.mem_append, List.mem_append] at hc
    rcases hc with ((hc | hc) | hc) | hc
    · exact (hscheme c hc).2
    · have hall : ∀ c ∈ "://".toList, isControlOrSpace c = false := by decide
      exact hall c hc
    · exact (hauthority.2 c hc).2.2
    · exact (hjoined c hc).2
  have hafter : afterAuthority (scheme ++ "://".toList ++ authority ++ joined (part :: parts)) =
      joined (part :: parts) := by
    obtain ⟨first, rest, hfirst⟩ := List.exists_cons_of_ne_nil hauthority.1
    have hrest : ∀ c ∈ first :: rest, (! isSlash c && ! endsPath c) = true := by
      intro c hc
      obtain ⟨hslash, hends, -⟩ := hauthority.2 c (hfirst ▸ hc)
      rw [hslash, hends]
      rfl
    unfold afterAuthority
    rw [List.append_assoc, List.append_assoc,
      List.dropWhile_append_of_pos fun c hc => decide_eq_true (hscheme c hc).1, hfirst]
    show ((first :: (rest ++ joined (part :: parts))).dropWhile isSlash).dropWhile _ = _
    rw [List.dropWhile_cons_of_neg
      (by simp [(hauthority.2 first (hfirst ▸ List.mem_cons_self)).1]), ← List.cons_append,
      List.dropWhile_append_of_pos hrest]
    exact List.dropWhile_cons_of_neg (by decide)
  unfold pathname pathOf
  rw [hstripped, hafter, List.takeWhile_eq_self_iff.mpr fun c hc => by simp [(hjoined c hc).1]]
  have htail : (joined (part :: parts)).tail = part ++ joined parts := rfl
  rw [htail, segments_joined fun p hp c hc => (pathChar_plain (hparts p hp c hc)).2.1]

/-! ### Dot segments -/

/-- A segment that is no part of a path. -/
def isDot (part : List Char) : Bool := isSingleDot part || isDoubleDot part

variable {path parts : List (List Char)}

lemma length_resolve_le (path parts : List (List Char)) :
    (resolve path parts).length ≤ path.length + parts.length := by
  fun_induction resolve path parts with
  | case1 path => exact Nat.le_add_right _ _
  | case2 path segment hdouble =>
      rw [List.length_append, List.length_dropLast]
      exact Nat.add_le_add_right (Nat.sub_le _ _) _
  | case3 | case4 => rw [List.length_append]; rfl
  | case5 path segment parts hne hdouble ih =>
      rw [List.length_dropLast] at ih
      rw [List.length_cons]
      omega
  | case6 path segment parts hne hdouble hsingle ih =>
      rw [List.length_cons]
      omega
  | case7 path segment parts hne hdouble hsingle ih =>
      rw [List.length_append, List.length_singleton] at ih
      rw [List.length_cons]
      omega

/-- **If no part of a path goes, then there is no dot segment**, or a single dot at the end. -/
theorem resolve_of_length (hparts : ∀ part ∈ parts, ∀ c ∈ part, isPathChar c = true)
    (h : path.length + parts.length ≤ (resolve path parts).length) :
    (resolve path parts = path ++ parts ∧ ∀ part ∈ parts, isDot part = false) ∨
      ∃ init dot, parts = init ++ [dot] ∧ isDot dot = true ∧
        resolve path parts = path ++ init ++ [[]] := by
  have hescape {part : List Char} (hpart : ∀ c ∈ part, isPathChar c = true) :
      escapeWhere pathEscapes part = part :=
    escapeWhere_of_forall fun c hc => (pathChar_plain (hpart c hc)).1
  have hdot {part : List Char} (hdouble : ¬ isDoubleDot part = true)
      (hsingle : ¬ isSingleDot part = true) : isDot part = false := by
    unfold isDot
    rw [Bool.eq_false_iff.mpr hdouble, Bool.eq_false_iff.mpr hsingle]
    rfl
  fun_induction resolve path parts with
  | case1 path => exact .inl ⟨(List.append_nil path).symm, fun part hmem => nomatch hmem⟩
  | case2 path segment hdouble =>
      -- two dots at the end of the path only stay alone
      have hnil : path = [] := by
        rw [List.length_append, List.length_dropLast, List.length_singleton,
          List.length_singleton] at h
        exact List.length_eq_zero_iff.mp (by omega)
      subst hnil
      refine .inr ⟨[], segment, rfl, ?_, rfl⟩
      unfold isDot
      rw [hdouble, Bool.or_true]
  | case3 path segment hdouble hsingle =>
      refine .inr ⟨[], segment, rfl, ?_, by rw [List.append_nil]⟩
      unfold isDot
      rw [hsingle]
      rfl
  | case4 path segment hdouble hsingle =>
      refine .inl ⟨by rw [hescape (hparts segment List.mem_cons_self)], fun part hmem => ?_⟩
      obtain rfl := List.mem_singleton.mp hmem
      exact hdot hdouble hsingle
  | case5 path segment parts hne hdouble ih =>
      have hle := length_resolve_le path.dropLast parts
      rw [List.length_dropLast] at hle
      rw [List.length_cons] at h
      omega
  | case6 path segment parts hne hdouble hsingle ih =>
      have hle := length_resolve_le path parts
      rw [List.length_cons] at h
      omega
  | case7 path segment parts hne hdouble hsingle ih =>
      have hrest := fun p hp => hparts p (List.mem_cons_of_mem segment hp)
      rw [List.length_cons] at h
      rcases ih hrest (by rw [List.length_append, List.length_singleton]; omega) with
        ⟨heq, hdots⟩ | ⟨init, dot, rfl, hlast, heq⟩
      · refine .inl ⟨?_, fun p hp => ?_⟩
        · rw [heq, hescape (hparts segment List.mem_cons_self), List.append_assoc]
          rfl
        · rcases List.mem_cons.mp hp with rfl | hp
          · exact hdot hdouble hsingle
          · exact hdots p hp
      · refine .inr ⟨segment :: init, dot, rfl, hlast, ?_⟩
        rw [heq, hescape (hparts segment List.mem_cons_self)]
        simp only [List.append_assoc, List.cons_append, List.nil_append]

lemma resolve_of_forall (hparts : ∀ part ∈ parts, ∀ c ∈ part, isPathChar c = true)
    (h : ∀ part ∈ parts, isDot part = false) : resolve path parts = path ++ parts := by
  have hescape {part : List Char} (hpart : ∀ c ∈ part, isPathChar c = true) :
      escapeWhere pathEscapes part = part :=
    escapeWhere_of_forall fun c hc => (pathChar_plain (hpart c hc)).1
  have hdot {part : List Char} (hpart : isDot part = false) :
      ¬ isSingleDot part = true ∧ ¬ isDoubleDot part = true := by
    simpa [isDot] using hpart
  fun_induction resolve path parts with
  | case1 path => exact (List.append_nil path).symm
  | case2 path segment hdouble => exact absurd hdouble (hdot (h segment List.mem_cons_self)).2
  | case3 path segment hdouble hsingle =>
      exact absurd hsingle (hdot (h segment List.mem_cons_self)).1
  | case4 path segment hdouble hsingle => rw [hescape (hparts segment List.mem_cons_self)]
  | case5 path segment parts hne hdouble ih =>
      exact absurd hdouble (hdot (h segment List.mem_cons_self)).2
  | case6 path segment parts hne hdouble hsingle ih =>
      exact absurd hsingle (hdot (h segment List.mem_cons_self)).1
  | case7 path segment parts hne hdouble hsingle ih =>
      rw [ih (fun part hmem => hparts part (List.mem_cons_of_mem segment hmem))
        fun part hmem => h part (List.mem_cons_of_mem segment hmem),
        hescape (hparts segment List.mem_cons_self), List.append_assoc]
      rfl

end Js.Url
