import Mathlib.Algebra.Order.BigOperators.Group.List
import Blaize.Client.Url
import Blaize.Router.Params
import Blaize.Server.RequestUrl

/-!
Do path parameters get from the client to the server?

The client puts the encoded values into the path, and the server matches the path that arrives
against the pattern of the route.

* `Origin`: the base URL of a server;
* `Assignment`: a text for each parameter of a route path;
* `InPlace`: no name stands, behind a colon, in front of its own segment;
* `Plain`: no character of the segments, of the names and of the values is escaped anywhere;
* `arrivedPath_eq`: the path that arrives;
* `samePathParams_iff_plain`: **an assignment gets to the server exactly if it is plain**.
-/

namespace Blaize.Client

open Js Js.Url Blaize.Router Blaize.Server

/-! ### Replacing names -/

section Replace

variable {needle replacement : List Char}

lemma replaceFirst_self (hne : needle ≠ []) (rest : List Char) :
    replaceFirst needle replacement (needle ++ rest) = replacement ++ rest := by
  obtain ⟨c, tail, rfl⟩ := List.exists_cons_of_ne_nil hne
  have hmatch : (c :: tail).isPrefixOf (c :: (tail ++ rest)) = true :=
    List.isPrefixOf_iff_prefix.mpr (List.prefix_append (c :: tail) rest)
  rw [List.cons_append, replaceFirst, if_pos hmatch, ← List.cons_append, List.drop_left]

/-- A name is not found in a part that does not have it, nor across a slash. -/
lemma replaceFirst_skip (hslash : '/' ∉ needle) {part : List Char} (hpart : ¬ needle <:+: part)
    (rest : List Char) :
    replaceFirst needle replacement (part ++ '/' :: rest) =
      part ++ '/' :: replaceFirst needle replacement rest := by
  have hnot {text : List Char} (hwithin : ¬ needle <:+: text) :
      ¬ needle.isPrefixOf (text ++ '/' :: rest) = true := by
    intro h
    have h := List.isPrefixOf_iff_prefix.mp h
    rcases List.prefix_or_prefix_of_prefix h (List.prefix_append text _) with h' | ⟨beyond, rfl⟩
    · exact hwithin h'.isInfix
    · cases beyond with
      | nil =>
          rw [List.append_nil] at hwithin
          exact hwithin List.infix_rfl
      | cons c beyond =>
          obtain ⟨hc, -⟩ := List.cons_prefix_cons.mp ((List.prefix_append_right_inj text).mp h)
          exact hslash (List.mem_append_right text (hc ▸ List.mem_cons_self))
  induction part with
  | nil => exact (replaceFirst.eq_def ..).trans (if_neg (hnot hpart))
  | cons c part ih =>
      have hrest : ¬ needle <:+: part := fun h => hpart (h.trans (List.suffix_cons c part).isInfix)
      have hstep : replaceFirst needle replacement (c :: part ++ '/' :: rest) =
          c :: replaceFirst needle replacement (part ++ '/' :: rest) :=
        (replaceFirst.eq_def ..).trans (if_neg (hnot hpart))
      rw [hstep, ih hrest]
      rfl

/-- **A name is found in its own part**, if no part in front of that has it. -/
lemma replaceFirst_parts (hne : needle ≠ []) (hslash : '/' ∉ needle) {front : List Char}
    (hfront : ¬ needle <:+: front) {before : List (List Char)}
    (hbefore : ∀ part ∈ before, ¬ needle <:+: part) (after : List (List Char)) :
    replaceFirst needle replacement (front ++ joined (before ++ needle :: after)) =
      front ++ joined (before ++ replacement :: after) := by
  induction before generalizing front with
  | nil =>
      have hself := @replaceFirst_self needle replacement hne (joined after)
      have hskip := @replaceFirst_skip needle replacement hslash front hfront
        (needle ++ joined after)
      rw [hself] at hskip
      exact hskip
  | cons part before ih =>
      have hskip := @replaceFirst_skip needle replacement hslash front hfront
        (part ++ joined (before ++ needle :: after))
      rw [ih (hbefore part List.mem_cons_self) fun p hp =>
        hbefore p (List.mem_cons_of_mem part hp)] at hskip
      exact hskip

end Replace

/-! ### Encoded values -/

/-- A character that `encodeURIComponent` leaves. -/
def isUriChar (c : Char) : Bool := c.isAlphanum || "-_.!~*'()".toList.contains c

/-- A character of a component. -/
def encodeChar (c : Char) : List Char := (String.utf8EncodeChar c).flatMap (encodeByte uriStays)

lemma encodeURIComponent_eq (value : String) :
    encodeURIComponent value = value.toList.flatMap encodeChar := List.flatMap_assoc

lemma toNat_lt_of_isUriChar {c : Char} (h : isUriChar c = true) : c.toNat < 0x80 := by
  rcases (Bool.or_eq_true _ _).mp h with h | h
  · have hrange := toNat_of_isAlphanum h
    omega
  · have hall : ∀ c ∈ "-_.!~*'()".toList, c.toNat < 0x80 := by decide
    exact hall c (List.contains_iff_mem.mp h)

lemma encodeChar_of_isUriChar {c : Char} (h : isUriChar c = true) : encodeChar c = [c] := by
  have hall : ∀ n < 0x80, isUriChar (Char.ofNat n) = true →
      encodeChar (Char.ofNat n) = [Char.ofNat n] := by decide +kernel
  have hc := hall c.toNat (toNat_lt_of_isUriChar h)
  rw [Char.ofNat_toNat] at hc
  exact hc h

/-- What is encoded to itself has no character that is escaped: an escape is longer. -/
lemma forall_isUriChar {text : List Char} (h : text.flatMap encodeChar = text) :
    ∀ c ∈ text, isUriChar c = true := by
  have hchars : ∀ c ∈ text, isUriChar c = true ∨ c = '%' := by
    intro c hc
    have hmem : c ∈ encodeURIComponent (String.ofList text) := by
      rw [encodeURIComponent_eq, String.toList_ofList, h]
      exact hc
    have hall : ∀ c ∈ "-_.!~*'()%".toList, isUriChar c = true ∨ c = '%' := by decide
    rcases mem_encodeURIComponent hmem with halpha | hsign
    · exact .inl ((Bool.or_eq_true _ _).mpr (.inl halpha))
    · exact hall c hsign
  have hlength : (encodeChar '%').length = 3 := by decide
  have hle : text.length ≤ (text.flatMap encodeChar).length ∧
      ('%' ∈ text → text.length < (text.flatMap encodeChar).length) := by
    clear h
    induction text with
    | nil => exact ⟨le_rfl, fun hmem => absurd hmem List.not_mem_nil⟩
    | cons c text ih =>
        obtain ⟨hle, hlt⟩ := ih fun d hd => hchars d (List.mem_cons_of_mem c hd)
        rw [List.flatMap_cons, List.length_append, List.length_cons]
        rcases hchars c List.mem_cons_self with hc | rfl
        · rw [encodeChar_of_isUriChar hc, List.length_singleton]
          refine ⟨by omega, fun hmem => ?_⟩
          rcases List.mem_cons.mp hmem with rfl | hmem
          · cases hc
          · have hlt := hlt hmem
            omega
        · rw [hlength]
          exact ⟨by omega, fun _ => by omega⟩
  intro c hc
  refine (hchars c hc).resolve_right ?_
  rintro rfl
  have hlt := hle.2 hc
  rw [h] at hlt
  exact lt_irrefl _ hlt

/-- **Exactly the values without a character to escape stay as they are.** -/
lemma encodeURIComponent_eq_iff {value : String} :
    encodeURIComponent value = value.toList ↔ ∀ c ∈ value.toList, isUriChar c = true := by
  rw [encodeURIComponent_eq]
  generalize value.toList = text
  refine ⟨forall_isUriChar, fun h => ?_⟩
  induction text with
  | nil => rfl
  | cons c text ih =>
      rw [List.flatMap_cons, encodeChar_of_isUriChar (h c List.mem_cons_self),
        ih fun d hd => h d (List.mem_cons_of_mem c hd)]
      rfl

/-- No encoded value has a colon or a character that a path escapes. -/
lemma isPathChar_encodeURIComponent (value : String) :
    ∀ c ∈ encodeURIComponent value, isPathChar c = true ∧ c ≠ ':' := by
  have hall : ∀ n < 0x80, isUriChar (Char.ofNat n) = true →
      isPathChar (Char.ofNat n) = true ∧ Char.ofNat n ≠ ':' := by decide +kernel
  intro c hc
  by_cases huri : isUriChar c = true
  · have h := hall c.toNat (toNat_lt_of_isUriChar huri)
    rw [Char.ofNat_toNat] at h
    exact h huri
  · have hpercent : ∀ c ∈ "-_.!~*'()%".toList,
        ¬ isUriChar c = true → isPathChar c = true ∧ c ≠ ':' := by decide
    rcases mem_encodeURIComponent hc with halpha | hsign
    · exact absurd ((Bool.or_eq_true _ _).mpr (.inl halpha)) huri
    · exact hpercent c hsign huri

/-! ### Requests -/

/-- The base URL of a server, without a path. -/
structure Origin where
  secure : Bool
  authority : List Char
  valid : IsAuthority authority

namespace Origin

variable (origin : Origin)

/-- The scheme of an origin. -/
def scheme : List Char := if origin.secure then "https".toList else "http".toList

/-- The text of an origin. -/
def text : List Char := origin.scheme ++ "://".toList ++ origin.authority

end Origin

/-- A text that is not empty for each parameter of a route path. -/
structure Assignment (route : RoutePath) where
  params : OrdMap String String
  keys : ∀ name, name ∈ params.keys ↔ .param name.toList ∈ route.segments
  nonempty : ∀ p ∈ params.entries, p.2 ≠ ""

/-- The path that arrives at a server; `slash` tells whether the base URL ends with a slash. -/
def arrivedPath (origin server : Origin) (slash : Bool) (route : RoutePath)
    (params : OrdMap String String) : List Char :=
  (parseRequestUrl server.secure server.authority
    (requestTarget (buildUrl (origin.text ++ if slash then ['/'] else []) route.path
      { params := some params }))).path

/-- The path matches the pattern of the route, with the texts of the assignment. -/
def SamePathParams (path : List Char) (route : RoutePath) (params : OrdMap String String) : Prop :=
  ∃ p, compilePathPattern (String.ofList route.path) = some p ∧
    (execPattern p.pattern path).isSome ∧
      ∀ name, (extractParams path p.pattern p.paramNames).get name = params.get name

/-- No name stands, behind a colon, in the origin or in front of its own segment, where the
names that are replaced before it are gone. -/
def InPlace (origin : List Char) (segments : List Segment) : List String → List String → Prop
  | _, [] => True
  | done, key :: keys =>
      ¬ (':' :: key.toList) <:+: origin ∧
        (∀ segment ∈ segments.takeWhile (· ≠ .param key.toList),
          (∀ name ∈ done, segment ≠ .param name.toList) →
            ¬ (':' :: key.toList) <:+: segment.text) ∧
          InPlace origin segments (key :: done) keys

instance decidableInPlace (origin : List Char) (segments : List Segment) :
    ∀ done keys, Decidable (InPlace origin segments done keys)
  | _, [] => isTrue trivial
  | done, key :: keys =>
      have := decidableInPlace origin segments (key :: done) keys
      inferInstanceAs (Decidable (_ ∧ _ ∧ _))

/-- Nothing of the path is escaped or resolved, by neither side. -/
structure Plain (route : RoutePath) (params : OrdMap String String) : Prop where
  static : ∀ text, .static text ∈ route.segments →
    (∀ c ∈ text, isPathChar c = true) ∧ isDot text = false
  name : ∀ name, .param name ∈ route.segments →
    (∀ c ∈ name, c ∉ ".+*?^$(){}|\\".toList) ∧ name ≠ "__proto__".toList
  value : ∀ p ∈ params.entries,
    (∀ c ∈ p.2.toList, isUriChar c = true) ∧ isDot p.2.toList = false

/-! ### The client's side -/

/-- What stands for a segment once some parameters are replaced. -/
def partAfter (done : List (String × String)) : Segment → List Char
  | .static text => text
  | .param name =>
      match OrdMap.find (String.ofList name) done with
      | some value => encodeURIComponent value
      | none => ':' :: name

lemma partAfter_some {done : List (String × String)} {name : List Char} {value : String}
    (h : OrdMap.find (String.ofList name) done = some value) :
    partAfter done (.param name) = encodeURIComponent value := by
  simp only [partAfter, h]

lemma partAfter_none {done : List (String × String)} {name : List Char}
    (h : OrdMap.find (String.ofList name) done = none) :
    partAfter done (.param name) = ':' :: name := by
  simp only [partAfter, h]

lemma partAfter_nil (segment : Segment) : partAfter [] segment = segment.text := by
  cases segment <;> rfl

lemma partAfter_cons_ne {done : List (String × String)} {key value : String} {segment : Segment}
    (h : segment ≠ .param key.toList) :
    partAfter ((key, value) :: done) segment = partAfter done segment := by
  cases segment with
  | static text => rfl
  | param name =>
      have hne : key ≠ String.ofList name := by
        rintro rfl
        exact h (congrArg Segment.param String.toList_ofList.symm)
      have hfind : OrdMap.find (String.ofList name) ((key, value) :: done) =
          OrdMap.find (String.ofList name) done := if_neg hne
      simp only [partAfter, hfind]

lemma partAfter_cons_self (done : List (String × String)) (key value : String) :
    partAfter ((key, value) :: done) (.param key.toList) = encodeURIComponent value := by
  refine partAfter_some ?_
  rw [String.ofList_toList]
  exact if_pos rfl

lemma partAfter_of_notMem {done : List (String × String)} {key : String}
    (h : key ∉ done.map Prod.fst) : partAfter done (.param key.toList) = ':' :: key.toList := by
  refine partAfter_none ?_
  rw [String.ofList_toList]
  exact OrdMap.find_eq_none_iff.mpr h

/-- A part that is still to be replaced has the text of its segment. -/
lemma not_infix_partAfter {done : List (String × String)} {key : String} {segment : Segment}
    (h : (∀ name ∈ done.map Prod.fst, segment ≠ .param name.toList) →
      ¬ (':' :: key.toList) <:+: segment.text) :
    ¬ (':' :: key.toList) <:+: partAfter done segment := by
  cases segment with
  | static text => exact h fun name _ => nofun
  | param name =>
      cases hfind : OrdMap.find (String.ofList name) done with
      | some value =>
          rw [partAfter_some hfind]
          intro hwithin
          exact (isPathChar_encodeURIComponent value ':' (hwithin.subset List.mem_cons_self)).2 rfl
      | none =>
          rw [partAfter_none hfind]
          refine h fun other hother heq => ?_
          obtain rfl := Segment.param.inj heq
          rw [String.ofList_toList] at hfind
          exact OrdMap.find_eq_none_iff.mp hfind hother

lemma takeWhile_ne {segment : Segment} {segments : List Segment} (h : segment ∈ segments) :
    ∃ before after, before = segments.takeWhile (· ≠ segment) ∧
      segments = before ++ segment :: after := by
  induction segments with
  | nil => cases h
  | cons first segments ih =>
      by_cases heq : first = segment
      · subst heq
        exact ⟨[], segments, (List.takeWhile_cons_of_neg (by simp)).symm, rfl⟩
      · obtain ⟨before, after, hbefore, hsplit⟩ :=
          ih ((List.mem_cons.mp h).resolve_left (Ne.symm heq))
        refine ⟨first :: before, after, ?_, congrArg (first :: ·) hsplit⟩
        rw [List.takeWhile_cons_of_pos (by simpa using heq), hbefore]

/-- **One parameter is put in its place.** -/
lemma replaceFirst_segment {route : RoutePath} {origin : List Char} {done : List (String × String)}
    {key : String} (value : String) (hmem : .param key.toList ∈ route.segments)
    (hnew : key ∉ done.map Prod.fst) (horigin : ¬ (':' :: key.toList) <:+: origin)
    (hplace : ∀ segment ∈ route.segments.takeWhile (· ≠ .param key.toList),
      (∀ name ∈ done.map Prod.fst, segment ≠ .param name.toList) →
        ¬ (':' :: key.toList) <:+: segment.text) :
    replaceFirst (':' :: key.toList) (encodeURIComponent value)
      (origin ++ joined (route.segments.map (partAfter done))) =
        origin ++ joined (route.segments.map (partAfter ((key, value) :: done))) := by
  obtain ⟨before, after, hsplit, hbefore⟩ : ∃ before after,
      route.segments = before ++ .param key.toList :: after ∧
        before = route.segments.takeWhile (· ≠ .param key.toList) :=
    (takeWhile_ne hmem).imp fun before ⟨after, h⟩ => ⟨after, h.2, h.1⟩
  have hafter : .param key.toList ∉ after := by
    intro hmem
    have hnodup := route.nodup
    rw [hsplit, List.filterMap_append, List.nodup_append] at hnodup
    have hnodup := (List.nodup_cons.mp hnodup.2.1).1
    exact hnodup (List.mem_filterMap.mpr ⟨_, hmem, rfl⟩)
  have hslash : '/' ∉ ':' :: key.toList := by
    have hwell := (route.wellFormed _ hmem).1
    intro h
    exact (List.mem_cons.mp h).elim nofun hwell
  have hmap {segments : List Segment} (h : .param key.toList ∉ segments) :
      segments.map (partAfter ((key, value) :: done)) = segments.map (partAfter done) := by
    refine List.map_congr_left fun segment hsegment => partAfter_cons_ne ?_
    rintro rfl
    exact h hsegment
  have hnotBefore : .param key.toList ∉ before := by
    intro h
    rw [hbefore] at h
    have hne := List.mem_takeWhile_imp h
    exact of_decide_eq_true hne rfl
  rw [hsplit, List.map_append, List.map_append, List.map_cons, List.map_cons,
    hmap hnotBefore, hmap hafter, partAfter_cons_self, partAfter_of_notMem hnew]
  refine replaceFirst_parts (List.cons_ne_nil _ _) hslash horigin ?_ _
  intro part hpart
  obtain ⟨segment, hsegment, rfl⟩ := List.mem_map.mp hpart
  exact not_infix_partAfter (hplace segment (hbefore ▸ hsegment))

/-- **All parameters are put in their places.** -/
theorem replacePathParameters_segments {route : RoutePath} {origin : List Char}
    {entries done : List (String × String)}
    (hmem : ∀ p ∈ entries, .param p.1.toList ∈ route.segments)
    (hnodup : (entries.map Prod.fst).Nodup) (hnew : ∀ p ∈ entries, p.1 ∉ done.map Prod.fst)
    (hplace : InPlace origin route.segments (done.map Prod.fst) (entries.map Prod.fst)) :
    entries.foldl (fun result p =>
      replaceFirst (':' :: p.1.toList) (encodeURIComponent p.2) result)
        (origin ++ joined (route.segments.map (partAfter done))) =
      origin ++ joined (route.segments.map (partAfter (entries.reverse ++ done))) := by
  induction entries generalizing done with
  | nil => rfl
  | cons p entries ih =>
      rw [List.map_cons, List.nodup_cons] at hnodup
      obtain ⟨horigin, hfront, hplace⟩ := hplace
      have hrest : ∀ q ∈ entries, q.1 ∉ ((p.1, p.2) :: done).map Prod.fst := by
        intro q hq hkey
        rcases List.mem_cons.mp hkey with heq | hkey
        · exact hnodup.1 (heq ▸ List.mem_map_of_mem hq)
        · exact hnew q (List.mem_cons_of_mem p hq) hkey
      rw [List.foldl_cons, replaceFirst_segment p.2 (hmem p List.mem_cons_self)
        (hnew p List.mem_cons_self) horigin hfront,
        ih (fun q hq => hmem q (List.mem_cons_of_mem p hq)) hnodup.2 hrest hplace,
        List.reverse_cons, List.append_assoc]
      rfl

/-- The part of a segment with the value that `params` has for it. -/
def sentPart (params : OrdMap String String) : Segment → List Char
  | .static text => text
  | .param name => encodeURIComponent ((params.get (String.ofList name)).getD "")

/-- The value itself. -/
def plainPart (params : OrdMap String String) : Segment → List Char
  | .static text => text
  | .param name => ((params.get (String.ofList name)).getD "").toList

section RoundTrip

variable {origin server : Origin} {route : RoutePath}

namespace Assignment

variable (assignment : Assignment route)

lemma get_of_mem {name : List Char} (h : .param name ∈ route.segments) :
    ∃ value, assignment.params.get (String.ofList name) = some value ∧ value ≠ "" := by
  have hmem := (assignment.keys (String.ofList name)).mpr (by rwa [String.toList_ofList])
  obtain ⟨p, hp, hname⟩ := List.mem_map.mp hmem
  refine ⟨p.2, (OrdMap.mem_entries_iff _).mp ?_, assignment.nonempty p hp⟩
  rw [← hname]
  exact hp

lemma get_of_notMem {name : String} (h : .param name.toList ∉ route.segments) :
    assignment.params.get name = none :=
  OrdMap.find_eq_none_iff.mpr fun hmem => h ((assignment.keys name).mp hmem)

/-- **The URL of the client has the encoded values in place of the names.** -/
theorem buildUrl_path
    (hplace : InPlace origin.text route.segments [] assignment.params.keys) (slash : Bool) :
    buildUrl (origin.text ++ if slash then ['/'] else []) route.path
      { params := some assignment.params } =
        origin.text ++ joined (route.segments.map (sentPart assignment.params)) := by
  have hbase : (if (origin.text ++ if slash then ['/'] else []).getLast? = some '/' then
      (origin.text ++ if slash then ['/'] else []).dropLast
      else origin.text ++ if slash then ['/'] else []) = origin.text := by
    cases slash with
    | true => rw [if_pos rfl, List.getLast?_concat, if_pos rfl, List.dropLast_concat]
    | false =>
        rw [if_neg Bool.false_ne_true, List.append_nil, if_neg]
        intro hlast
        have hmem : '/' ∈ origin.authority := by
          unfold Origin.text at hlast
          rw [List.getLast?_append_of_ne_nil _ origin.valid.1] at hlast
          exact List.mem_of_getLast? hlast
        cases (origin.valid.2 '/' hmem).1
  have hpath : route.path.head? = some '/' := by
    obtain ⟨segment, segments, hsegments⟩ := List.exists_cons_of_ne_nil route.segments_ne
    unfold RoutePath.path
    rw [hsegments]
    rfl
  have hstart : route.path = joined (route.segments.map (partAfter [])) := by
    unfold RoutePath.path
    rw [List.map_congr_left fun segment _ => partAfter_nil segment]
  have hmem : ∀ p ∈ assignment.params.entries, .param p.1.toList ∈ route.segments :=
    fun p hp => (assignment.keys p.1).mp (List.mem_map_of_mem hp)
  have hreplace := @replacePathParameters_segments route origin.text _ [] hmem
    assignment.params.nodup (fun p _ => List.not_mem_nil) hplace
  rw [List.append_nil] at hreplace
  have hfinal : route.segments.map (partAfter assignment.params.entries.reverse) =
      route.segments.map (sentPart assignment.params) := by
    refine List.map_congr_left fun segment hsegment => ?_
    cases segment with
    | static text => rfl
    | param name =>
        obtain ⟨value, hvalue, -⟩ := assignment.get_of_mem hsegment
        have hnodup : (assignment.params.entries.reverse.map Prod.fst).Nodup := by
          rw [List.map_reverse]
          exact List.nodup_reverse.mpr assignment.params.nodup
        have hfind := (OrdMap.mem_iff_find hnodup).mp
          (List.mem_reverse.mpr ((OrdMap.mem_entries_iff _).mpr hvalue))
        rw [partAfter_some hfind, sentPart, hvalue]
        rfl
  unfold buildUrl
  dsimp only
  rw [hbase, if_pos hpath, hstart]
  unfold replacePathParameters
  rw [hreplace, hfinal]

end Assignment

/-! ### The path that arrives -/

lemma scheme_plain (origin : Origin) :
    ∀ c ∈ origin.scheme, c ≠ ':' ∧ isControlOrSpace c = false := by
  unfold Origin.scheme
  cases origin.secure <;> decide

lemma endsPath_text (origin : Origin) : ∀ c ∈ origin.text, endsPath c = false := by
  intro c hc
  unfold Origin.text at hc
  rw [List.mem_append, List.mem_append] at hc
  rcases hc with (hc | hc) | hc
  · have hall : ∀ c ∈ "https".toList ++ "http".toList, endsPath c = false := by decide
    refine hall c (List.mem_append.mpr ?_)
    unfold Origin.scheme at hc
    split at hc
    · exact .inl hc
    · exact .inr hc
  · have hall : ∀ c ∈ "://".toList, endsPath c = false := by decide
    exact hall c hc
  · exact (origin.valid.2 c hc).2.1

lemma path_parseRequestUrl (server : Origin) (part : List Char) (parts : List (List Char)) :
    (parseRequestUrl server.secure server.authority (joined (part :: parts))).path =
      pathname (server.text ++ joined (part :: parts)) := by
  have hjoined : joined (part :: parts) = '/' :: (part ++ joined parts) := rfl
  unfold parseRequestUrl
  dsimp only
  rw [hjoined, if_neg (List.cons_ne_nil _ _), List.head?_cons, if_pos rfl, List.append_nil]
  rfl

/-- What arrives has no character that a path escapes. -/
lemma arrivedPath_parts (origin server : Origin) (slash : Bool) (route : RoutePath)
    (params : OrdMap String String) : ∃ parts,
      arrivedPath origin server slash route params = joined parts ∧
        ∀ part ∈ parts, ∀ c ∈ part, isPathChar c = true := by
  unfold arrivedPath
  generalize requestTarget _ = target
  obtain ⟨url, hurl⟩ : ∃ url, (parseRequestUrl server.secure server.authority target).path =
      pathname url := by
    unfold parseRequestUrl
    dsimp only
    exact ⟨_, rfl⟩
  rw [hurl]
  exact pathname_parts url

lemma isPathChar_sentPart {params : OrdMap String String}
    (hstatic : ∀ text, .static text ∈ route.segments → ∀ c ∈ text, isPathChar c = true)
    {segment : Segment} (hsegment : segment ∈ route.segments) :
    ∀ c ∈ sentPart params segment, isPathChar c = true := by
  cases segment with
  | static text => exact hstatic text hsegment
  | param name => exact fun c hc => (isPathChar_encodeURIComponent _ c hc).1

/-- **The path that arrives has been resolved twice.** -/
theorem arrivedPath_eq (assignment : Assignment route)
    (hplace : InPlace origin.text route.segments [] assignment.params.keys) (slash : Bool)
    (hstatic : ∀ text, .static text ∈ route.segments → ∀ c ∈ text, isPathChar c = true) :
    arrivedPath origin server slash route assignment.params =
      joined (resolve [] (resolve [] (route.segments.map (sentPart assignment.params)))) := by
  have hparts : ∀ part ∈ route.segments.map (sentPart assignment.params),
      ∀ c ∈ part, isPathChar c = true := by
    intro part hpart
    obtain ⟨segment, hsegment, rfl⟩ := List.mem_map.mp hpart
    exact isPathChar_sentPart hstatic hsegment
  have hne : route.segments.map (sentPart assignment.params) ≠ [] :=
    mt List.map_eq_nil_iff.mp route.segments_ne
  unfold arrivedPath
  rw [assignment.buildUrl_path hplace]
  generalize route.segments.map (sentPart assignment.params) = parts at *
  have hresolved := isPathChar_resolve (fun _ hmem => absurd hmem List.not_mem_nil)
    fun part hpart c hc => (pathChar_plain (hparts part hpart c hc)).2.1
  have htarget : requestTarget (origin.text ++ joined parts) = joined (resolve [] parts) := by
    have hmark : '?' ∉ origin.text ++ joined parts := by
      intro hmem
      rcases List.mem_append.mp hmem with hmem | hmem
      · exact absurd (endsPath_text origin '?' hmem) nofun
      · obtain ⟨part, hpart, hmem⟩ := List.mem_flatMap.mp hmem
        rcases List.mem_cons.mp hmem with hslash | hmem
        · cases hslash
        · cases hparts part hpart '?' hmem
    have hpathname : pathname (origin.text ++ joined parts) = joined (resolve [] parts) :=
      pathname_authority (scheme_plain origin) origin.valid hne hparts
    unfold requestTarget
    rw [if_pos (query_of_notMem hmark), hpathname]
  have hresolve := resolve_ne_nil [] hne
  generalize resolve [] parts = resolved at *
  obtain ⟨part, rest, rfl⟩ := List.exists_cons_of_ne_nil hresolve
  rw [htarget, path_parseRequestUrl]
  exact pathname_authority (scheme_plain server) server.valid hresolve hresolved

/-! ### What the server makes of it -/

lemma notMem_slash {parts : List (List Char)}
    (h : ∀ part ∈ parts, ∀ c ∈ part, isPathChar c = true) : ∀ part ∈ parts, '/' ∉ part :=
  fun part hpart hmem => by cases h part hpart '/' hmem

/-- A path with given parts has the right parameters if its groups have. -/
lemma samePathParams_joined_iff (hroot : route.segments ≠ [.static []]) {parts : List (List Char)}
    (hparts : ∀ part ∈ parts, ∀ c ∈ part, isPathChar c = true) (params : OrdMap String String) :
    SamePathParams (joined parts) route params ↔
      ∃ groups, matchParts route.segments parts = some groups ∧ ∃ pattern,
        execPattern pattern (joined parts) = some groups ∧
          ∀ name, (extractParams (joined parts) pattern (escapedNames route.segments)).get name =
            params.get name := by
  have hcompile := route.compilePathPattern_path hroot
  have hexec := route.execPattern_path (notMem_slash hparts)
  generalize String.ofList ('^' :: (route.segments.flatMap Segment.source ++ sourceEnd)) =
    pattern at hcompile hexec
  constructor
  · rintro ⟨p, hp, hmatch, hget⟩
    obtain rfl := Option.some.inj (hcompile.symm.trans hp)
    obtain ⟨groups, hgroups⟩ := Option.isSome_iff_exists.mp hmatch
    exact ⟨groups, hexec ▸ hgroups, pattern, hgroups, hget⟩
  · rintro ⟨groups, hgroups, pattern', hexec', hget⟩
    refine ⟨_, hcompile, by rw [hexec, hgroups]; rfl, fun name => ?_⟩
    rw [← hget]
    unfold extractParams
    rw [hexec', hexec, hgroups]

/-- The values of an assignment, in the order of the segments. -/
def valuesOf (segments : List Segment) (params : OrdMap String String) : List (List Char) :=
  (segments.filterMap Segment.name).map fun name => plainPart params (.param name)

lemma escapeSpecial_eq_self {text : List Char}
    (h : ∀ c ∈ text, c ∉ ".+*?^$(){}|\\".toList) : escapeSpecial text = text := by
  unfold escapeSpecial
  induction text with
  | nil => rfl
  | cons c text ih =>
      rw [List.flatMap_cons, if_neg (h c List.mem_cons_self),
        ih fun d hd => h d (List.mem_cons_of_mem c hd)]
      rfl

/-- The names of the pattern are those of the route path. -/
lemma escapedNames_of_plain
    (hname : ∀ name, .param name ∈ route.segments → ∀ c ∈ name, c ∉ ".+*?^$(){}|\\".toList) :
    escapedNames route.segments = route.names.map String.ofList := by
  refine List.map_congr_left fun name hname' => ?_
  obtain ⟨segment, hsegment, heq⟩ := List.mem_filterMap.mp hname'
  cases segment with
  | static text => cases heq
  | param other =>
      obtain rfl := Option.some.inj heq
      rw [escapeSpecial_eq_self (hname _ hsegment)]

lemma mem_names_iff {name : List Char} : name ∈ route.names ↔ .param name ∈ route.segments := by
  constructor
  · intro h
    obtain ⟨segment, hsegment, heq⟩ := List.mem_filterMap.mp h
    cases segment with
    | static text => cases heq
    | param other => exact Option.some.inj heq ▸ hsegment
  · exact fun h => List.mem_filterMap.mpr ⟨_, h, rfl⟩

lemma nodup_escapedNames
    (hname : ∀ name, .param name ∈ route.segments → ∀ c ∈ name, c ∉ ".+*?^$(){}|\\".toList) :
    (escapedNames route.segments).Nodup := by
  rw [escapedNames_of_plain hname]
  exact route.nodup.map fun a b h => String.ofList_injective h

/-- **With plain names the server has an assignment exactly if its groups are the values.** -/
lemma get_extractParams_iff (assignment : Assignment route)
    (hname : ∀ name, .param name ∈ route.segments →
      (∀ c ∈ name, c ∉ ".+*?^$(){}|\\".toList) ∧ name ≠ "__proto__".toList)
    {path : List Char} {pattern : String} {groups : List (List Char)}
    (hexec : execPattern pattern path = some groups)
    (hlength : groups.length = route.names.length) :
    (∀ name, (extractParams path pattern (escapedNames route.segments)).get name =
      assignment.params.get name) ↔ groups = valuesOf route.segments assignment.params := by
  have hnames := escapedNames_of_plain fun name h => (hname name h).1
  have hnodup := nodup_escapedNames fun name h => (hname name h).1
  have hproto {name : List Char} (h : name ∈ route.names) : String.ofList name ≠ "__proto__" := by
    intro heq
    exact (hname name (mem_names_iff.mp h)).2 (by rw [← heq, String.toList_ofList])
  constructor
  · intro hget
    have hvalues : (valuesOf route.segments assignment.params).length = route.names.length :=
      List.length_map _
    refine List.ext_getElem (hlength.trans hvalues.symm) fun i hi hi' => ?_
    have hi'' : i < route.names.length := hvalues ▸ hi'
    have hmem : route.names[i] ∈ route.names := List.getElem_mem hi''
    have hzip : (String.ofList route.names[i], groups[i]) ∈
        (escapedNames route.segments).zip groups := by
      rw [hnames]
      refine List.mem_iff_getElem?.mpr ⟨i, List.getElem?_zip_eq_some.mpr ⟨?_, ?_⟩⟩
      · rw [List.getElem?_map, List.getElem?_eq_getElem hi'']
        rfl
      · exact List.getElem?_eq_getElem hi
    have hgroup := get_extractParams hexec hnodup (hproto hmem) hzip
    rw [hget] at hgroup
    have hvalue : (valuesOf route.segments assignment.params)[i] =
        plainPart assignment.params (.param route.names[i]) := List.getElem_map _
    rw [hvalue, plainPart, hgroup]
    exact String.toList_ofList.symm
  · rintro rfl name
    by_cases hmem : .param name.toList ∈ route.segments
    · obtain ⟨value, hvalue, -⟩ := assignment.get_of_mem hmem
      rw [String.ofList_toList] at hvalue
      have hzip : (name, value.toList) ∈ (escapedNames route.segments).zip
          (valuesOf route.segments assignment.params) := by
        have hpart : plainPart assignment.params (.param name.toList) = value.toList := by
          rw [plainPart, String.ofList_toList, hvalue]
          rfl
        have hpairs : (route.names.map String.ofList).zip
            (route.names.map fun name => plainPart assignment.params (.param name)) =
              route.names.map fun name =>
                (String.ofList name, plainPart assignment.params (.param name)) := List.zip_map'
        rw [hnames]
        refine hpairs ▸ List.mem_map.mpr ⟨name.toList, mem_names_iff.mpr hmem, ?_⟩
        rw [hpart, String.ofList_toList]
      have hne : name ≠ "__proto__" := by
        have h := hproto (mem_names_iff.mpr hmem)
        rwa [String.ofList_toList] at h
      rw [get_extractParams hexec hnodup hne hzip, hvalue, String.ofList_toList]
    · rw [assignment.get_of_notMem hmem]
      refine get_extractParams_of_notMem hexec ?_
      rw [hnames]
      intro hmem'
      obtain ⟨other, hother, rfl⟩ := List.mem_map.mp hmem'
      rw [String.toList_ofList] at hmem
      exact hmem (mem_names_iff.mp hother)

/-- A name with a special character is escaped to a longer one, which has special characters
too. -/
lemma length_escapeSpecial {text : List Char} (h : ∃ c ∈ text, c ∈ ".+*?^$(){}|\\".toList) :
    text.length < (escapeSpecial text).length ∧ '\\' ∈ escapeSpecial text := by
  have hle (text : List Char) : text.length ≤ (escapeSpecial text).length := by
    induction text with
    | nil => exact le_rfl
    | cons c text ih =>
        rw [escapeSpecial, List.flatMap_cons, List.length_append, List.length_cons]
        have ih : text.length ≤ (text.flatMap _).length := ih
        split
        · rw [List.length_cons, List.length_singleton]
          omega
        · rw [List.length_singleton, Nat.add_comm]
          exact Nat.add_le_add_left ih 1
  obtain ⟨c, hc, hspecial⟩ := h
  obtain ⟨before, after, rfl⟩ := List.append_of_mem hc
  have hsplit : escapeSpecial (before ++ c :: after) =
      escapeSpecial before ++ '\\' :: c :: escapeSpecial after := by
    rw [escapeSpecial_append]
    refine congrArg (escapeSpecial before ++ ·) ?_
    rw [escapeSpecial, List.flatMap_cons, if_pos hspecial]
    rfl
  rw [hsplit]
  refine ⟨?_, List.mem_append_right _ List.mem_cons_self⟩
  have hbefore := hle before
  have hafter := hle after
  simp only [List.length_append, List.length_cons]
  omega

/-- **The server has the names of an assignment only if they are plain.** -/
lemma names_plain (assignment : Assignment route) {path : List Char} {pattern : String}
    {groups : List (List Char)} (hexec : execPattern pattern path = some groups)
    (hget : ∀ name, (extractParams path pattern (escapedNames route.segments)).get name =
      assignment.params.get name) :
    ∀ name, .param name ∈ route.segments →
      (∀ c ∈ name, c ∉ ".+*?^$(){}|\\".toList) ∧ name ≠ "__proto__".toList := by
  have hnext {name : List Char} (hmem : .param name ∈ route.segments)
      (hspecial : ∃ c ∈ name, c ∈ ".+*?^$(){}|\\".toList) :
      .param (escapeSpecial name) ∈ route.segments := by
    have hne : String.ofList (escapeSpecial name) ≠ "__proto__" := by
      intro heq
      have hback := (length_escapeSpecial hspecial).2
      rw [← String.toList_ofList (l := escapeSpecial name), heq] at hback
      revert hback
      decide
    have hescaped : String.ofList (escapeSpecial name) ∈ escapedNames route.segments :=
      List.mem_map.mpr ⟨name, mem_names_iff.mpr hmem, rfl⟩
    have hsome := isSome_extractParams hexec hne hescaped
    rw [hget] at hsome
    by_contra hnot
    rw [assignment.get_of_notMem (by rwa [String.toList_ofList])] at hsome
    cases hsome
  -- otherwise the names get longer and longer
  have hlong (n : ℕ) : ∀ name, .param name ∈ route.segments →
      (∃ c ∈ name, c ∈ ".+*?^$(){}|\\".toList) →
        name.length + n ≤ (route.names.map List.length).sum := by
    induction n with
    | zero =>
        intro name hmem _
        exact List.single_le_sum (fun _ _ => Nat.zero_le _) _
          (List.mem_map_of_mem (mem_names_iff.mpr hmem))
    | succ n ih =>
        intro name hmem hspecial
        obtain ⟨hlt, hback⟩ := length_escapeSpecial hspecial
        have hle := ih _ (hnext hmem hspecial) ⟨_, hback, by decide⟩
        omega
  intro name hmem
  constructor
  · intro c hc hspecial
    have h := hlong ((route.names.map List.length).sum + 1) name hmem ⟨c, hc, hspecial⟩
    omega
  · rintro rfl
    obtain ⟨value, hvalue, -⟩ := assignment.get_of_mem hmem
    have hproto := hget "__proto__"
    rw [get_extractParams_proto] at hproto
    rw [String.ofList_toList, ← hproto] at hvalue
    cases hvalue

/-- **A plain assignment gets to the server.** -/
lemma samePathParams_of_plain (assignment : Assignment route)
    (hroot : route.segments ≠ [.static []])
    (hplace : InPlace origin.text route.segments [] assignment.params.keys) (slash : Bool)
    (hplain : Plain route assignment.params) :
    SamePathParams (arrivedPath origin server slash route assignment.params) route
      assignment.params := by
  have hsent : route.segments.map (sentPart assignment.params) =
      route.segments.map (plainPart assignment.params) := by
    refine List.map_congr_left fun segment hsegment => ?_
    cases segment with
    | static text => rfl
    | param name =>
        obtain ⟨value, hvalue, -⟩ := assignment.get_of_mem hsegment
        have hvalue' := hplain.value _ ((OrdMap.mem_entries_iff _).mpr hvalue)
        rw [sentPart, plainPart, hvalue]
        exact encodeURIComponent_eq_iff.mpr hvalue'.1
  have hparts : ∀ part ∈ route.segments.map (plainPart assignment.params),
      (∀ c ∈ part, isPathChar c = true) ∧ isDot part = false := by
    intro part hpart
    obtain ⟨segment, hsegment, rfl⟩ := List.mem_map.mp hpart
    cases segment with
    | static text => exact hplain.static text hsegment
    | param name =>
        obtain ⟨value, hvalue, -⟩ := assignment.get_of_mem hsegment
        obtain ⟨hchars, hdot⟩ := hplain.value _ ((OrdMap.mem_entries_iff _).mpr hvalue)
        rw [plainPart, hvalue]
        refine ⟨fun c hc => ?_, hdot⟩
        rw [Option.getD_some, ← encodeURIComponent_eq_iff.mpr hchars] at hc
        exact (isPathChar_encodeURIComponent _ c hc).1
  have hchars := fun part hpart => (hparts part hpart).1
  have hdots := fun part hpart => (hparts part hpart).2
  rw [arrivedPath_eq assignment hplace slash fun text htext => (hplain.static text htext).1, hsent,
    resolve_of_forall hchars hdots, List.nil_append, resolve_of_forall hchars hdots,
    List.nil_append, samePathParams_joined_iff hroot hchars]
  have hmatch := @matchParts_map route.segments (plainPart assignment.params) (fun _ => rfl)
    fun name hname hnil => by
      obtain ⟨value, hvalue, hne⟩ := assignment.get_of_mem hname
      rw [plainPart, hvalue] at hnil
      exact hne (String.toList_eq_nil_iff.mp hnil)
  have hexec := route.execPattern_path (notMem_slash hchars)
  rw [hmatch] at hexec
  exact ⟨_, hmatch, _, hexec, (get_extractParams_iff assignment hplain.name hexec
    (List.length_map _)).mpr rfl⟩

lemma isPathChar_resolve_resolve {parts : List (List Char)}
    (h : ∀ part ∈ parts, ∀ c ∈ part, isPathChar c = true) :
    ∀ part ∈ resolve [] (resolve [] parts), ∀ c ∈ part, isPathChar c = true := by
  have hstep {parts : List (List Char)} (h : ∀ part ∈ parts, ∀ c ∈ part, isPathChar c = true) :
      ∀ part ∈ resolve [] parts, ∀ c ∈ part, isPathChar c = true :=
    isPathChar_resolve (fun _ hmem => absurd hmem List.not_mem_nil)
      fun part hpart c hc => (pathChar_plain (h part hpart c hc)).2.1
  exact hstep (hstep h)

/-- **What comes back unchanged was plain**: no part of it was encoded or resolved. -/
lemma sent_of_resolved (assignment : Assignment route)
    (hsent : ∀ part ∈ route.segments.map (sentPart assignment.params),
      ∀ c ∈ part, isPathChar c = true)
    (h : resolve [] (resolve [] (route.segments.map (sentPart assignment.params))) =
      route.segments.map (plainPart assignment.params)) :
    route.segments.map (sentPart assignment.params) =
        route.segments.map (plainPart assignment.params) ∧
      ∀ part ∈ route.segments.map (sentPart assignment.params), isDot part = false := by
  have hlength : (route.segments.map (sentPart assignment.params)).length ≤
      (resolve [] (resolve [] (route.segments.map (sentPart assignment.params)))).length := by
    rw [h, List.length_map, List.length_map]
  have hle := length_resolve_le []
    (resolve [] (route.segments.map (sentPart assignment.params)))
  simp only [List.length_nil, Nat.zero_add] at hle
  rcases resolve_of_length hsent (by rw [List.length_nil, Nat.zero_add]; exact hlength.trans hle)
    with ⟨heq, hdots⟩ | ⟨init, dot, hinit, hdot, heq⟩
  · rw [heq, List.nil_append, heq, List.nil_append] at h
    exact ⟨h, hdots⟩
  · -- a dot at the end leaves an empty last part, which no value is
    exfalso
    have hchars : ∀ part ∈ init ++ [[]], ∀ c ∈ part, isPathChar c = true := by
      intro part hpart
      rcases List.mem_append.mp hpart with hpart | hpart
      · exact hsent part (hinit ▸ List.mem_append_left _ hpart)
      · exact List.mem_singleton.mp hpart ▸ fun c hc => absurd hc List.not_mem_nil
    rw [heq, List.nil_append] at h hlength
    have hlast : route.segments.map (plainPart assignment.params) = init ++ [[]] := by
      rw [hinit, List.length_append, List.length_singleton] at hlength
      rcases resolve_of_length hchars (by
        rw [List.length_nil, Nat.zero_add, List.length_append]
        exact hlength) with ⟨heq', -⟩ | ⟨init', dot', hinit', hdot', -⟩
      · rw [← h, heq', List.nil_append]
      · obtain ⟨-, hnil⟩ := List.append_inj' hinit' rfl
        obtain rfl := (List.cons.inj hnil).1
        cases hdot'
    obtain ⟨last, hmem⟩ :=
      Option.ne_none_iff_exists'.mp (mt List.getLast?_eq_none_iff.mp route.segments_ne)
    have hplain := congrArg List.getLast? hlast
    have hdots := congrArg List.getLast? hinit
    rw [List.getLast?_map, hmem, List.getLast?_concat] at hplain hdots
    have hplain : plainPart assignment.params last = [] := Option.some.inj hplain
    have hdots : sentPart assignment.params last = dot := Option.some.inj hdots
    cases last with
    | static text =>
        have hnil : text = [] := hplain
        subst hnil
        subst hdots
        cases hdot
    | param name =>
        obtain ⟨value, hvalue, hne⟩ := assignment.get_of_mem (List.mem_of_getLast? hmem)
        rw [plainPart, hvalue] at hplain
        exact hne (String.toList_eq_nil_iff.mp hplain)

/-- **Only a plain assignment gets to the server.** -/
lemma plain_of_samePathParams (assignment : Assignment route)
    (hroot : route.segments ≠ [.static []])
    (hplace : InPlace origin.text route.segments [] assignment.params.keys) (slash : Bool)
    (hsame : SamePathParams (arrivedPath origin server slash route assignment.params) route
      assignment.params) : Plain route assignment.params := by
  obtain ⟨hname, hstatic⟩ : (∀ name, .param name ∈ route.segments →
      (∀ c ∈ name, c ∉ ".+*?^$(){}|\\".toList) ∧ name ≠ "__proto__".toList) ∧
        ∀ text, .static text ∈ route.segments → ∀ c ∈ text, isPathChar c = true := by
    obtain ⟨parts, hpath, hchars⟩ :=
      arrivedPath_parts origin server slash route assignment.params
    rw [hpath] at hsame
    obtain ⟨groups, hmatch, pattern, hexec, hget⟩ :=
      (samePathParams_joined_iff hroot hchars _).mp hsame
    exact ⟨names_plain assignment hexec hget,
      fun text htext => hchars text (mem_of_matchParts hmatch htext)⟩
  have hsent : ∀ part ∈ route.segments.map (sentPart assignment.params),
      ∀ c ∈ part, isPathChar c = true := by
    intro part hpart
    obtain ⟨segment, hsegment, rfl⟩ := List.mem_map.mp hpart
    exact isPathChar_sentPart hstatic hsegment
  have hfinal : resolve [] (resolve [] (route.segments.map (sentPart assignment.params))) =
      route.segments.map (plainPart assignment.params) := by
    have hchars := isPathChar_resolve_resolve hsent
    rw [arrivedPath_eq assignment hplace slash hstatic] at hsame
    obtain ⟨groups, hmatch, pattern, hexec, hget⟩ :=
      (samePathParams_joined_iff hroot hchars _).mp hsame
    obtain rfl :=
      (get_extractParams_iff assignment hname hexec (length_matchParts hmatch)).mp hget
    refine eq_map_of_matchParts (fun _ => rfl) ?_ hmatch
    have hlength := length_resolve_le []
      (resolve [] (route.segments.map (sentPart assignment.params)))
    have hlength' := length_resolve_le [] (route.segments.map (sentPart assignment.params))
    rw [List.length_map] at hlength'
    simp only [List.length_nil, Nat.zero_add] at hlength hlength'
    exact hlength.trans hlength'
  obtain ⟨hsame, hdots⟩ := sent_of_resolved assignment hsent hfinal
  have hparts := List.map_inj_left.mp hsame
  refine ⟨fun text htext => ⟨hstatic text htext, ?_⟩, hname, fun p hp => ?_⟩
  · exact hdots text (List.mem_map.mpr ⟨_, htext, rfl⟩)
  · have hmem := (assignment.keys p.1).mp (List.mem_map_of_mem hp)
    have hvalue := (OrdMap.mem_entries_iff _).mp hp
    have hpart := hparts _ hmem
    have hdot := hdots _ (List.mem_map_of_mem hmem)
    rw [sentPart, String.ofList_toList, hvalue] at hpart hdot
    rw [plainPart, String.ofList_toList, hvalue] at hpart
    rw [hpart] at hdot
    exact ⟨encodeURIComponent_eq_iff.mp hpart, hdot⟩

/-- **An assignment whose names stand in their places gets to the server exactly if it is
plain.** -/
theorem samePathParams_iff_plain (origin server : Origin) (slash : Bool) (route : RoutePath)
    (assignment : Assignment route)
    (hplace : InPlace origin.text route.segments [] assignment.params.keys) :
    SamePathParams (arrivedPath origin server slash route assignment.params) route
      assignment.params ↔ Plain route assignment.params := by
  by_cases hroot : route.segments = [.static []]
  · have hstatic : ∀ text, .static text ∈ route.segments → text = [] := by
      intro text htext
      rw [hroot] at htext
      exact Segment.static.inj (List.mem_singleton.mp htext)
    have hnames : ∀ name, .param name ∉ route.segments := by
      intro name hname
      rw [hroot] at hname
      cases List.mem_singleton.mp hname
    refine iff_of_true ?_ ⟨fun text htext => ?_, fun name h => absurd h (hnames name),
      fun p hp => absurd ((assignment.keys p.1).mp (List.mem_map_of_mem hp)) (hnames _)⟩
    · rw [arrivedPath_eq assignment hplace slash fun text htext c hc => by
        rw [hstatic text htext] at hc
        cases hc]
      refine ⟨⟨"^\\/$", []⟩, ?_, ?_, fun name => ?_⟩
      · rw [route.path_eq_root_iff.mpr hroot]
        rfl
      · rw [hroot]
        rfl
      · rw [assignment.get_of_notMem (hnames _)]
        unfold extractParams
        split <;> rfl
    · rw [hstatic text htext]
      exact ⟨fun c hc => absurd hc List.not_mem_nil, rfl⟩
  · exact ⟨plain_of_samePathParams assignment hroot hplace slash,
      samePathParams_of_plain assignment hroot hplace slash⟩

end RoundTrip

/-- An origin. -/
def apiOrigin : Origin := ⟨true, "api.example.com".toList, by decide, by decide⟩

/-- The posts of a user. -/
def postRoute : RoutePath where
  segments := [.static "users".toList, .param "user".toList, .param "userPost".toList]
  segments_ne := by decide
  wellFormed := by decide
  nodup := by decide

/-- Values for the parameters of the one route. -/
def postAssignment : Assignment postRoute where
  params := ⟨[("userPost", "4711"), ("user", "ada~l.")], by decide⟩
  keys := fun name => by
    simp only [OrdMap.keys, List.map_cons, List.map_nil, postRoute, List.mem_cons,
      List.not_mem_nil, or_false, Segment.param.injEq, reduceCtorEq, false_or, ← String.toList_inj]
    exact or_comm
  nonempty := by decide

theorem samePathParams_iff_plain_post :
    SamePathParams (arrivedPath apiOrigin apiOrigin false postRoute postAssignment.params)
      postRoute postAssignment.params :=
  (samePathParams_iff_plain apiOrigin apiOrigin false postRoute postAssignment
    (by decide +kernel)).mpr
      ⟨by simp only [postRoute, List.mem_cons, List.not_mem_nil, or_false, reduceCtorEq,
          Segment.static.injEq, forall_eq]; decide,
        by simp only [postRoute, List.mem_cons, List.not_mem_nil, or_false, reduceCtorEq, false_or,
          Segment.param.injEq, forall_eq_or_imp, forall_eq]; decide,
        by decide⟩

/-- A user with a space in the name. -/
def userRoute : RoutePath where
  segments := [.static "users".toList, .param "name".toList]
  segments_ne := by decide
  wellFormed := by decide
  nodup := by decide

/-- Values for the parameter of the other. -/
def userAssignment : Assignment userRoute where
  params := ⟨[("name", "john doe")], by decide⟩
  keys := fun name => by
    simp only [OrdMap.keys, List.map_cons, List.map_nil, userRoute, List.mem_cons,
      List.not_mem_nil, or_false, Segment.param.injEq, reduceCtorEq, false_or, ← String.toList_inj]
  nonempty := by decide

theorem not_samePathParams :
    ¬ ∀ (origin server : Origin) (slash : Bool) (route : RoutePath) (assignment : Assignment route),
      SamePathParams (arrivedPath origin server slash route assignment.params) route
        assignment.params := by
  intro h
  have hplain := plain_of_samePathParams userAssignment (by decide) (by decide +kernel) false
    (h apiOrigin apiOrigin false userRoute userAssignment)
  have hspace := (hplain.value ("name", "john doe") List.mem_cons_self).1 ' ' (by decide)
  cases hspace

end Blaize.Client
