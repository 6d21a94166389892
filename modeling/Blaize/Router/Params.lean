import Mathlib.Data.List.Chain
import Blaize.Lib.RegExp
import Blaize.Lib.Url
import Blaize.Router.Matcher

/-!
Path parameters (`packages/blaize-core/src/router/matching/params.ts`).

* `execPattern`, `extractParams`: the match of a path and its parameters;
* `Segment`: a route path as static segments and parameters;
* `matchParts`: what a route path is to match;
* `compilePathPattern_path`: the pattern of a route path;
* `execPattern_path`: **the pattern of a route path matches the paths that it is to match**.
-/

namespace Blaize.Router

open Js Js.RegExp
open Js.Url (joined)

/-- The groups of `pattern.exec(path)`. -/
def execPattern (pattern : String) (path : List Char) : Option (List (List Char)) :=
  (RegExp.parts pattern.toList).bind fun items => exec items path

/-- A text that is assigned to `__proto__` is ignored. -/
def extractParams (path : List Char) (pattern : String) (paramNames : List String) :
    OrdMap String String :=
  match execPattern pattern path with
  | none => ∅
  | some groups =>
      paramNames.zipIdx.foldl
        (fun params p =>
          if p.1 = "__proto__" then params
          else params.set p.1 (String.ofList (groups[p.2]?.getD []))) ∅

/-! ### Route paths -/

/-- A segment of a route path. -/
inductive Segment where
  | static (text : List Char)
  | param (name : List Char)
  deriving DecidableEq, Repr

namespace Segment

/-- The text of a segment. -/
def text : Segment → List Char
  | static text => text
  | param name => ':' :: name

/-- The name of a parameter. -/
def name : Segment → Option (List Char)
  | static _ => none
  | param name => some name

/-- A static segment is no parameter in either syntax; a parameter has a name. -/
def WellFormed : Segment → Prop
  | static text => '/' ∉ text ∧ '[' ∉ text ∧ text.head? ≠ some ':'
  | param name => '/' ∉ name ∧ name ≠ []

instance : DecidablePred WellFormed
  | static _ => inferInstanceAs (Decidable (_ ∧ _ ∧ _))
  | param _ => inferInstanceAs (Decidable (_ ∧ _))

/-- The source of a segment. -/
def source : Segment → List Char
  | static text => '/' :: escapeSpecial text
  | param _ => captureGroup

/-- The parts of the regular expression of a segment. -/
def items : Segment → List Item
  | static text => .literal '/' :: text.map .literal
  | param _ => [.literal '/', .capture '/']

end Segment

/-- A path of static segments and of parameters with different names. -/
structure RoutePath where
  segments : List Segment
  segments_ne : segments ≠ []
  wellFormed : ∀ segment ∈ segments, segment.WellFormed
  nodup : (segments.filterMap Segment.name).Nodup

namespace RoutePath

/-- The path of a route. -/
def path (route : RoutePath) : List Char := joined (route.segments.map Segment.text)

/-- The names of its parameters. -/
def names (route : RoutePath) : List (List Char) := route.segments.filterMap Segment.name

end RoutePath

/-- The groups of a path with given parts; one slash at the end is allowed. -/
def matchParts : List Segment → List (List Char) → Option (List (List Char))
  | [], [] => some []
  | [], [[]] => some []
  | .static text :: segments, part :: parts =>
      if text = part then matchParts segments parts else none
  | .param _ :: segments, part :: parts =>
      if part = [] then none else (matchParts segments parts).map (part :: ·)
  | _, _ => none

/-! ### Compiling -/

variable {segments : List Segment}

lemma escapeSpecial_append (a b : List Char) :
    escapeSpecial (a ++ b) = escapeSpecial a ++ escapeSpecial b := List.flatMap_append

lemma mem_escapeSpecial {text : List Char} {c : Char} (h : c ∈ escapeSpecial text) :
    c = '\\' ∨ c ∈ text := by
  obtain ⟨d, hd, hc⟩ := List.mem_flatMap.mp h
  split at hc
  · simp only [List.mem_cons, List.not_mem_nil, or_false] at hc
    rcases hc with rfl | rfl
    · exact .inl rfl
    · exact .inr hd
  · obtain rfl := List.mem_singleton.mp hc
    exact .inr hd

lemma notMem_escapeSpecial {text : List Char} {c : Char} (hc : c ≠ '\\') (h : c ∉ text) :
    c ∉ escapeSpecial text := fun hmem => (mem_escapeSpecial hmem).elim hc h

lemma head_escapeSpecial {text : List Char} (h : text.head? ≠ some ':') :
    (escapeSpecial text).head? ≠ some ':' := by
  cases text with
  | nil => exact h
  | cons c text =>
      rw [escapeSpecial, List.flatMap_cons]
      split
      · exact nofun
      · exact h

/-- The escaped text of a segment behind its slash. -/
def escapedText (segment : Segment) : List Char := '/' :: escapeSpecial segment.text

lemma escapeSpecial_path (segments : List Segment) :
    escapeSpecial (joined (segments.map Segment.text)) = segments.flatMap escapedText := by
  induction segments with
  | nil => rfl
  | cons segment segments ih =>
      rw [List.map_cons, joined, List.flatMap_cons, escapeSpecial_append, List.flatMap_cons]
      exact congrArg (escapedText segment ++ ·) ih

/-- A static segment is copied. -/
lemma replaceColonParams_copy {text rest : List Char} (htext : '/' ∉ text) {fuel : ℕ}
    (hfuel : text.length ≤ fuel) :
    replaceColonParams fuel (text ++ rest) =
      (text ++ (replaceColonParams (fuel - text.length) rest).1,
        (replaceColonParams (fuel - text.length) rest).2) := by
  induction text generalizing fuel with
  | nil => rfl
  | cons c text ih =>
      rw [List.mem_cons, not_or] at htext
      obtain ⟨fuel, rfl⟩ := Nat.exists_eq_succ_of_ne_zero (by simp at hfuel; omega : fuel ≠ 0)
      rw [List.cons_append, replaceColonParams]
      · rw [ih htext.2 (by simpa using hfuel)]
        simp
      · intro rest' hc
        exact absurd hc (Ne.symm htext.1)

/-- What follows a segment starts with a slash. -/
lemma head_flatMap_escapedText (segments : List Segment) :
    ∀ c ∈ (segments.flatMap escapedText).head?, c = '/' := by
  cases segments with
  | nil => exact nofun
  | cons segment segments => exact fun c hc => (Option.some.inj hc).symm

lemma span_slash {text rest : List Char} (htext : '/' ∉ text) (hrest : ∀ c ∈ rest.head?, c = '/') :
    (text ++ rest).takeWhile (· ≠ '/') = text ∧ (text ++ rest).dropWhile (· ≠ '/') = rest := by
  have hall : ∀ c ∈ text, decide (c ≠ '/') = true := by
    intro c hc
    refine decide_eq_true ?_
    rintro rfl
    exact htext hc
  rw [List.takeWhile_append_of_pos hall, List.dropWhile_append_of_pos hall]
  cases rest with
  | nil => exact ⟨List.append_nil _, rfl⟩
  | cons c rest =>
      obtain rfl := hrest c rfl
      exact ⟨List.append_nil _, rfl⟩

/-- The names as the pattern has them. -/
def escapedNames (segments : List Segment) : List String :=
  (segments.filterMap Segment.name).map fun name => String.ofList (escapeSpecial name)

/-- What the pass for `:name` needs of a segment. -/
def Segment.Delimited : Segment → Prop
  | static text => '/' ∉ text ∧ text.head? ≠ some ':'
  | param name => '/' ∉ name ∧ name ≠ []

lemma Segment.WellFormed.delimited {segment : Segment} (h : segment.WellFormed) :
    segment.Delimited := by
  cases segment with
  | static text => exact ⟨h.1, h.2.2⟩
  | param name => exact h

/-- **The parameters become groups, the static segments stay.** -/
lemma replaceColonParams_segments {segments : List Segment}
    (hsegments : ∀ segment ∈ segments, segment.Delimited) {fuel : ℕ}
    (hfuel : (segments.flatMap escapedText).length ≤ fuel) :
    replaceColonParams fuel (segments.flatMap escapedText) =
      (segments.flatMap Segment.source, escapedNames segments) := by
  induction segments generalizing fuel with
  | nil => cases fuel <;> rfl
  | cons segment segments ih =>
      have hwell := hsegments segment List.mem_cons_self
      have hrest := fun s hs => hsegments s (List.mem_cons_of_mem segment hs)
      have hhead := head_flatMap_escapedText segments
      rw [List.flatMap_cons] at hfuel ⊢
      generalize segments.flatMap escapedText = rest at *
      obtain ⟨fuel, rfl⟩ := Nat.exists_eq_succ_of_ne_zero
        (by rw [List.length_append, escapedText, List.length_cons] at hfuel; omega : fuel ≠ 0)
      cases segment with
      | static text =>
          obtain ⟨hslash, hcolon⟩ := hwell
          have hlength : (escapeSpecial text).length + rest.length ≤ fuel := by
            rw [List.length_append, escapedText, Segment.text, List.length_cons] at hfuel
            omega
          show replaceColonParams (fuel + 1) ('/' :: (escapeSpecial text ++ rest)) = _
          rw [replaceColonParams]
          · rw [replaceColonParams_copy (notMem_escapeSpecial (by decide) hslash) (by omega),
              ih hrest (by omega)]
            rfl
          · intro rest' hslash' heq
            cases hescaped : escapeSpecial text with
            | nil =>
                rw [hescaped, List.nil_append] at heq
                cases hhead ':' (by rw [heq]; rfl)
            | cons c escaped =>
                rw [hescaped, List.cons_append] at heq
                obtain ⟨rfl, -⟩ := List.cons.inj heq
                exact head_escapeSpecial hcolon (by rw [hescaped]; rfl)
      | param name =>
          obtain ⟨hslash, hne⟩ := hwell
          have hname : escapeSpecial name ≠ [] := by
            cases name with
            | nil => exact absurd rfl hne
            | cons c name =>
                rw [escapeSpecial, List.flatMap_cons]
                split <;> exact nofun
          obtain ⟨htake, hdrop⟩ := span_slash (notMem_escapeSpecial (by decide) hslash) hhead
          have hescaped : escapeSpecial (':' :: name) = ':' :: escapeSpecial name := rfl
          have hlength : rest.length ≤ fuel := by
            rw [List.length_append, escapedText, List.length_cons] at hfuel
            omega
          show replaceColonParams (fuel + 1) ('/' :: (escapeSpecial (':' :: name) ++ rest)) = _
          rw [hescaped, List.cons_append, replaceColonParams]
          dsimp only
          rw [htake, hdrop, if_neg (by simpa using hname), ih hrest hlength]
          rfl

/-- No slash in front of a bracket. -/
def Unbracketed (a b : Char) : Prop := a = '/' → b ≠ '['

instance : DecidableRel Unbracketed := fun _ _ => inferInstanceAs (Decidable (_ → _))

lemma replaceBracketParams_of_unbracketed {source : List Char} (h : source.IsChain Unbracketed)
    (fuel : ℕ) : replaceBracketParams fuel source = (source, []) := by
  induction fuel generalizing source with
  | zero => rfl
  | succ fuel ih =>
      cases source with
      | nil => rfl
      | cons c source =>
          rw [replaceBracketParams]
          · have htail : source.IsChain Unbracketed := h.tail
            rw [ih htail]
          · rintro rest rfl rfl
            exact (List.isChain_cons_cons.mp h).1 rfl rfl

lemma isChain_of_notMem {source : List Char} (h : '[' ∉ source.tail) :
    source.IsChain Unbracketed := by
  induction source with
  | nil => exact List.isChain_nil
  | cons c source ih =>
      cases source with
      | nil => exact List.isChain_singleton c
      | cons d source =>
          refine List.isChain_cons_cons.mpr ⟨?_, ih fun hmem => h (List.mem_cons_of_mem d hmem)⟩
          rintro - rfl
          exact h List.mem_cons_self

/-- A source starts with a slash. -/
lemma head_source (segment : Segment) : segment.source.head? = some '/' := by
  cases segment <;> rfl

/-- **No source of a segment has a parameter in brackets.** -/
lemma isChain_source {segments : List Segment}
    (hsegments : ∀ segment ∈ segments, segment.WellFormed) :
    (segments.flatMap Segment.source).IsChain Unbracketed := by
  induction segments with
  | nil => exact List.isChain_nil
  | cons segment segments ih =>
      rw [List.flatMap_cons, List.isChain_append]
      refine ⟨?_, ih fun s hs => hsegments s (List.mem_cons_of_mem segment hs), ?_⟩
      · cases segment with
        | static text =>
            obtain ⟨-, hbracket, -⟩ := hsegments _ List.mem_cons_self
            exact isChain_of_notMem (notMem_escapeSpecial (by decide) hbracket)
        | param name =>
            show captureGroup.IsChain Unbracketed
            decide
      · intro a ha b hb hslash
        cases segments with
        | nil => cases hb
        | cons next segments =>
            rw [List.flatMap_cons, List.head?_append, head_source] at hb
            obtain rfl : '/' = b := Option.some.inj hb
            decide

/-! ### The source as a regular expression -/

/-- An escaped character is accepted, and is a literal. -/
lemma escaped_char {c : Char} (hbracket : c ≠ '[') (quantifiable : Bool) (rest : List Char) :
    regExpParses (.term 0 quantifiable) (escapeSpecial [c] ++ rest) =
        regExpParses (.term 0 true) rest ∧
      RegExp.parse (escapeSpecial [c] ++ rest) =
        (RegExp.parse rest).map (Item.literal c :: ·) := by
  by_cases hspecial : c ∈ ".+*?^$(){}|\\".toList
  · have hescaped : escapeSpecial [c] = ['\\', c] := by
      rw [escapeSpecial, List.flatMap_cons, if_pos hspecial]
      rfl
    rw [hescaped]
    exact ⟨rfl, rfl⟩
  · have hescaped : escapeSpecial [c] = [c] := by
      rw [escapeSpecial, List.flatMap_cons, if_neg hspecial]
      rfl
    have hchars : ".+*?^$()\x7b\x7d|\\".toList =
        ['.', '+', '*', '?', '^', '$', '(', ')', '\x7b', '\x7d', '|', '\\'] := String.toList_ofList
    have hspecials : c ∉ ['.', '+', '*', '?', '^', '$', '(', ')', '\x7b', '\x7d', '|', '\\'] :=
      hchars ▸ hspecial
    simp only [List.mem_cons, List.not_mem_nil, or_false, not_or] at hspecials
    obtain ⟨hdot, hplus, hstar, hquestion, hcaret, hdollar, hopen, hclose, -, -, hbar, hback⟩ :=
      hspecials
    rw [hescaped, List.singleton_append]
    constructor
    · rw [regExpParses]
      all_goals
        intros
        contradiction
    · have hliteral : isSpecial c = false := by
        rw [Bool.eq_false_iff]
        intro h
        have hmem : c ∈ ['^', '$', '\\', '.', '*', '+', '?', '(', ')', '[', '|'] :=
          List.contains_iff_mem.mp h
        simp only [List.mem_cons, List.not_mem_nil, or_false] at hmem
        rcases hmem with h | h | h | h | h | h | h | h | h | h | h <;> contradiction
      rw [RegExp.parse]
      · rw [hliteral]
        rfl
      all_goals
        intros
        contradiction

lemma escaped_text {text : List Char} (h : '[' ∉ text) (rest : List Char) :
    regExpParses (.term 0 true) (escapeSpecial text ++ rest) = regExpParses (.term 0 true) rest ∧
      RegExp.parse (escapeSpecial text ++ rest) =
        (RegExp.parse rest).map (text.map Item.literal ++ ·) := by
  induction text with
  | nil => exact ⟨rfl, Option.map_id'.symm⟩
  | cons c text ih =>
      rw [List.mem_cons, not_or] at h
      obtain ⟨hparses, hparse⟩ := ih h.2
      have hcons : escapeSpecial (c :: text) = escapeSpecial [c] ++ escapeSpecial text :=
        escapeSpecial_append [c] text
      obtain ⟨hchar, hliteral⟩ :=
        escaped_char (Ne.symm h.1) true (escapeSpecial text ++ rest)
      rw [hcons, List.append_assoc, hchar, hliteral, hparses, hparse, Option.map_map]
      exact ⟨rfl, rfl⟩

/-- The source of a segment is accepted, and has the parts of the segment. -/
lemma source_segment {segment : Segment} (h : segment.WellFormed) (quantifiable : Bool)
    (rest : List Char) :
    regExpParses (.term 0 quantifiable) (segment.source ++ rest) =
        regExpParses (.term 0 true) rest ∧
      RegExp.parse (segment.source ++ rest) = (RegExp.parse rest).map (segment.items ++ ·) := by
  cases segment with
  | static text =>
      obtain ⟨-, hbracket, -⟩ := h
      obtain ⟨hslash, hliteral⟩ :=
        @escaped_char '/' (by decide) quantifiable (escapeSpecial text ++ rest)
      obtain ⟨hparses, hparse⟩ := escaped_text hbracket rest
      have hsource : (Segment.static text).source ++ rest =
          escapeSpecial ['/'] ++ (escapeSpecial text ++ rest) := rfl
      rw [hsource, hslash, hliteral, hparses, hparse, Option.map_map]
      exact ⟨rfl, rfl⟩
  | param name =>
      refine ⟨rfl, ?_⟩
      have hgroup : RegExp.parse ((Segment.param name).source ++ rest) =
          ((RegExp.parse rest).map (Item.capture '/' :: ·)).map (Item.literal '/' :: ·) := rfl
      rw [hgroup, Option.map_map]
      rfl

/-- What follows the segments in a source. -/
def sourceEnd : List Char := "(?:/)?$".toList

lemma source_segments {segments : List Segment}
    (hsegments : ∀ segment ∈ segments, segment.WellFormed) (quantifiable : Bool) :
    regExpParses (.term 0 quantifiable) (segments.flatMap Segment.source ++ sourceEnd) = true ∧
      RegExp.parse (segments.flatMap Segment.source ++ sourceEnd) =
        some (segments.flatMap Segment.items ++ [Item.optional '/']) := by
  have hend : sourceEnd = ['(', '?', ':', '/', ')', '?', '$'] := String.toList_ofList
  induction segments generalizing quantifiable with
  | nil =>
      rw [hend]
      cases quantifiable <;> exact ⟨rfl, rfl⟩
  | cons segment segments ih =>
      have hrest := fun s hs => hsegments s (List.mem_cons_of_mem segment hs)
      obtain ⟨hparses, hparse⟩ := ih hrest true
      obtain ⟨hsegment, hitems⟩ := source_segment (hsegments segment List.mem_cons_self)
        quantifiable (segments.flatMap Segment.source ++ sourceEnd)
      rw [List.flatMap_cons, List.append_assoc, hsegment, hitems, hparses, hparse,
        List.flatMap_cons, List.append_assoc]
      exact ⟨rfl, rfl⟩

/-! ### Matching -/

lemma startsAt_segments (segments : List Segment) :
    StartsAt '/' (segments.flatMap Segment.items ++ [.optional '/']) := by
  intro c text hc
  cases segments with
  | nil =>
      have hne : ¬ some c = some '/' := fun he => hc (Option.some.inj he)
      simp [exec, hne]
  | cons segment segments =>
      cases segment <;> exact if_neg hc

lemma head_joined (parts : List (List Char)) : ∀ c ∈ (joined parts).head?, c = '/' := by
  cases parts with
  | nil => exact nofun
  | cons part parts => exact fun c hc => (Option.some.inj hc).symm

/-- **The parts of the segments match what the segments are to match.** -/
theorem exec_segments {segments : List Segment}
    (hsegments : ∀ segment ∈ segments, segment.WellFormed) {parts : List (List Char)}
    (hparts : ∀ part ∈ parts, '/' ∉ part) :
    exec (segments.flatMap Segment.items ++ [.optional '/']) (joined parts) =
      matchParts segments parts := by
  induction segments generalizing parts with
  | nil =>
      cases parts with
      | nil => rfl
      | cons part parts =>
          cases part with
          | nil => cases parts <;> rfl
          | cons c part => rfl
  | cons segment segments ih =>
      have hrest := fun s hs => hsegments s (List.mem_cons_of_mem segment hs)
      cases parts with
      | nil => cases segment <;> rfl
      | cons part parts =>
          have hih := ih hrest fun p hp => hparts p (List.mem_cons_of_mem part hp)
          have hpart := hparts part List.mem_cons_self
          cases segment with
          | static text =>
              show exec (text.map Item.literal ++ segments.flatMap Segment.items ++ [.optional '/'])
                (part ++ joined parts) = _
              rw [List.append_assoc, exec_literals (startsAt_segments segments)
                (hsegments _ List.mem_cons_self).1 hpart (head_joined parts), hih]
              rfl
          | param name =>
              show exec (.capture '/' :: (segments.flatMap Segment.items ++ [.optional '/']))
                (part ++ joined parts) = _
              rw [exec_capture (startsAt_segments segments) hpart (head_joined parts), hih]
              rfl

/-! ### The pattern of a route path -/

namespace RoutePath

variable (route : RoutePath)

lemma path_eq_root_iff : String.ofList route.path = "/" ↔ route.segments = [.static []] := by
  constructor
  · intro h
    have hpath : joined (route.segments.map Segment.text) = ['/'] := by
      have h := congrArg String.toList h
      rw [String.toList_ofList] at h
      exact h
    match hsegments : route.segments with
    | [] => exact absurd hsegments route.segments_ne
    | segment :: segments =>
        rw [hsegments] at hpath
        have htail : segment.text ++ joined (segments.map Segment.text) = [] :=
          List.tail_eq_of_cons_eq hpath
        obtain ⟨htext, hrest⟩ := List.append_eq_nil_iff.mp htail
        cases segments with
        | nil =>
            cases segment with
            | static text => exact congrArg (fun text => [Segment.static text]) htext
            | param name => cases htext
        | cons next segments => cases hrest
  · intro h
    rw [path, h]
    rfl

/-- **The pattern of a route path and its names.** -/
theorem compilePathPattern_path (h : route.segments ≠ [.static []]) :
    compilePathPattern (String.ofList route.path) = some
      ⟨String.ofList ('^' :: (route.segments.flatMap Segment.source ++ sourceEnd)),
        escapedNames route.segments⟩ := by
  have hescaped : escapeSpecial (String.ofList route.path).toList =
      route.segments.flatMap escapedText := by
    rw [String.toList_ofList]
    exact escapeSpecial_path route.segments
  have hcolons := replaceColonParams_segments (fun s hs => (route.wellFormed s hs).delimited)
    (le_refl _)
  have hbrackets := replaceBracketParams_of_unbracketed (isChain_source route.wellFormed)
    (route.segments.flatMap Segment.source).length
  obtain ⟨hparses, -⟩ := source_segments route.wellFormed false
  unfold compilePathPattern
  rw [if_neg (mt route.path_eq_root_iff.mp h), hescaped]
  dsimp only
  rw [hcolons]
  dsimp only
  rw [hbrackets]
  dsimp only
  have hstart : regExpParses (.term 0 false)
      ('^' :: route.segments.flatMap Segment.source ++ "(?:/)?$".toList) = true := hparses
  rw [if_pos hstart, List.append_nil]
  rfl

/-- **The pattern of a route path matches the paths that it is to match.** -/
theorem execPattern_path {parts : List (List Char)} (hparts : ∀ part ∈ parts, '/' ∉ part) :
    execPattern (String.ofList ('^' :: (route.segments.flatMap Segment.source ++ sourceEnd)))
      (joined parts) = matchParts route.segments parts := by
  obtain ⟨-, hparse⟩ := source_segments route.wellFormed false
  have hitems : RegExp.parts ('^' :: (route.segments.flatMap Segment.source ++ sourceEnd)) =
      some (route.segments.flatMap Segment.items ++ [.optional '/']) := hparse
  unfold execPattern
  rw [String.toList_ofList, hitems]
  exact exec_segments route.wellFormed hparts

end RoutePath

/-! ### What is matched -/

lemma length_matchParts {parts groups : List (List Char)}
    (h : matchParts segments parts = some groups) :
    groups.length = (segments.filterMap Segment.name).length := by
  fun_induction matchParts segments parts generalizing groups with
  | case1 | case2 =>
      obtain rfl := Option.some.inj h
      rfl
  | case3 segments part parts ih => exact ih h
  | case4 | case5 | case7 => cases h
  | case6 name segments part parts hne ih =>
      obtain ⟨rest, hrest, rfl⟩ := Option.map_eq_some_iff.mp h
      exact congrArg (· + 1) (ih hrest)

/-- A static segment is one of the parts. -/
lemma mem_of_matchParts {parts groups : List (List Char)}
    (h : matchParts segments parts = some groups) {text : List Char}
    (htext : .static text ∈ segments) : text ∈ parts := by
  fun_induction matchParts segments parts generalizing groups with
  | case1 | case2 => cases htext
  | case3 segments part parts ih =>
      rcases List.mem_cons.mp htext with he | htext
      · obtain rfl := Segment.static.inj he
        exact List.mem_cons_self
      · exact List.mem_cons_of_mem _ (ih h htext)
  | case4 | case5 | case7 => cases h
  | case6 name segments part parts hne ih =>
      obtain ⟨rest, hrest, rfl⟩ := Option.map_eq_some_iff.mp h
      rcases List.mem_cons.mp htext with he | htext
      · cases he
      · exact List.mem_cons_of_mem _ (ih hrest htext)

variable {f : Segment → List Char}

/-- The groups of a path that has a text for each parameter. -/
lemma matchParts_map (hstatic : ∀ text, f (.static text) = text)
    (hparam : ∀ name, .param name ∈ segments → f (.param name) ≠ []) :
    matchParts segments (segments.map f) =
      some ((segments.filterMap Segment.name).map fun name => f (.param name)) := by
  induction segments with
  | nil => rfl
  | cons segment segments ih =>
      have ih := ih fun name hname => hparam name (List.mem_cons_of_mem segment hname)
      cases segment with
      | static text =>
          rw [List.map_cons, hstatic, matchParts, if_pos rfl, ih]
          rfl
      | param name =>
          rw [List.map_cons, matchParts, if_neg (hparam name List.mem_cons_self), ih]
          rfl

/-- A path has the texts that its groups say. -/
lemma eq_map_of_matchParts (hstatic : ∀ text, f (.static text) = text)
    {parts : List (List Char)} (hlength : parts.length ≤ segments.length)
    (h : matchParts segments parts =
      some ((segments.filterMap Segment.name).map fun name => f (.param name))) :
    parts = segments.map f := by
  induction segments generalizing parts with
  | nil => exact List.length_eq_zero_iff.mp (Nat.le_zero.mp hlength)
  | cons segment segments ih =>
      cases parts with
      | nil => cases segment <;> cases h
      | cons part parts =>
          have hle : parts.length ≤ segments.length := Nat.le_of_succ_le_succ hlength
          cases segment with
          | static text =>
              rw [matchParts] at h
              split at h
              next htext => rw [List.map_cons, hstatic, htext, ← ih hle h]
              next => cases h
          | param name =>
              rw [matchParts] at h
              split at h
              next => cases h
              next =>
                obtain ⟨rest, hrest, hcons⟩ := Option.map_eq_some_iff.mp h
                obtain ⟨rfl, rfl⟩ := List.cons.inj hcons
                rw [List.map_cons, ← ih hle hrest]

/-! ### The parameters -/

variable {path : List Char} {pattern : String} {paramNames : List String}

/-- What is assigned for `__proto__` and for other names than those of a list. -/
lemma get_assigned (value : String × ℕ → String) (l : List (String × ℕ))
    (params : OrdMap String String) {key : String} (h : key = "__proto__" ∨ key ∉ l.map Prod.fst) :
    (l.foldl (fun params p =>
      if p.1 = "__proto__" then params else params.set p.1 (value p)) params).get key =
        params.get key := by
  induction l generalizing params with
  | nil => rfl
  | cons p l ih =>
      rw [List.foldl_cons, ih _ (h.imp_right fun h hmem => h (List.mem_cons_of_mem _ hmem))]
      split
      next => rfl
      next hne =>
        refine OrdMap.get_set_ne _ _ ?_
        rintro rfl
        exact h.elim hne fun h => h List.mem_cons_self

lemma isSome_assigned (value : String × ℕ → String) (l : List (String × ℕ))
    (params : OrdMap String String) {key : String} (hne : key ≠ "__proto__")
    (h : key ∈ l.map Prod.fst) :
    ((l.foldl (fun params p =>
      if p.1 = "__proto__" then params else params.set p.1 (value p)) params).get key).isSome := by
  induction l generalizing params with
  | nil => cases h
  | cons p l ih =>
      rw [List.foldl_cons]
      by_cases hmem : key ∈ l.map Prod.fst
      · exact ih _ hmem
      · obtain rfl := (List.mem_cons.mp h).resolve_right hmem
        rw [get_assigned value l _ (.inr hmem), if_neg hne, OrdMap.get_set_self]
        rfl

lemma get_assigned_of_nodup (value : String × ℕ → String) {l : List (String × ℕ)}
    (params : OrdMap String String) (hnodup : (l.map Prod.fst).Nodup) {p : String × ℕ}
    (hne : p.1 ≠ "__proto__") (h : p ∈ l) :
    (l.foldl (fun params p =>
      if p.1 = "__proto__" then params else params.set p.1 (value p)) params).get p.1 =
        some (value p) := by
  induction l generalizing params with
  | nil => cases h
  | cons q l ih =>
      rw [List.map_cons, List.nodup_cons] at hnodup
      rw [List.foldl_cons]
      rcases List.mem_cons.mp h with rfl | h
      · rw [get_assigned value l _ (.inr hnodup.1), if_neg hne, OrdMap.get_set_self]
      · exact ih _ hnodup.2 h

/-- No parameter is called `__proto__`, and every other name is a parameter. -/
lemma get_extractParams_proto (path : List Char) (pattern : String) (paramNames : List String) :
    (extractParams path pattern paramNames).get "__proto__" = none := by
  unfold extractParams
  cases execPattern pattern path with
  | none => rfl
  | some groups => exact get_assigned _ _ ∅ (.inl rfl)

variable {groups : List (List Char)}

lemma get_extractParams_of_notMem (hexec : execPattern pattern path = some groups) {name : String}
    (h : name ∉ paramNames) : (extractParams path pattern paramNames).get name = none := by
  unfold extractParams
  rw [hexec]
  exact get_assigned _ _ ∅ (.inr (by rwa [List.zipIdx_map_fst]))

lemma isSome_extractParams (hexec : execPattern pattern path = some groups) {name : String}
    (hne : name ≠ "__proto__") (h : name ∈ paramNames) :
    ((extractParams path pattern paramNames).get name).isSome := by
  unfold extractParams
  rw [hexec]
  exact isSome_assigned _ _ ∅ hne (by rwa [List.zipIdx_map_fst])

/-- **Different names have the texts of their groups.** -/
theorem get_extractParams (hexec : execPattern pattern path = some groups)
    (hnodup : paramNames.Nodup) {name : String} {group : List Char} (hne : name ≠ "__proto__")
    (h : (name, group) ∈ paramNames.zip groups) :
    (extractParams path pattern paramNames).get name = some (String.ofList group) := by
  obtain ⟨i, hi⟩ := List.mem_iff_getElem?.mp h
  obtain ⟨hname, hgroup⟩ := List.getElem?_zip_eq_some.mp hi
  have hmem : (name, i) ∈ paramNames.zipIdx := List.mem_zipIdx_iff_getElem?.mpr hname
  have hfst : (paramNames.zipIdx.map Prod.fst).Nodup := by rwa [List.zipIdx_map_fst]
  unfold extractParams
  rw [hexec]
  refine (get_assigned_of_nodup _ ∅ hfst hne hmem).trans ?_
  rw [hgroup]
  rfl

end Blaize.Router
