import Mathlib.Data.List.Perm.Subperm
import Mathlib.Algebra.BigOperators.Group.List.Lemmas
import Blaize.Router.Params

/-!
Route paths with parameters in both syntaxes (`matching/params.ts`).

* `PathSegment`, `SegmentPath`: static segments, `:name` and `[name]`;
* `Fits`, `Matches`, `texts`: what a route path is to match, and the texts of its parameters;
* `replaceBracketParams_segments`: the pass for `[name]` behind the pass for `:name`;
* `compilePathPattern_segments`: the pattern, and the names in the order of the passes;
* `matchParts_iff`: **the pattern matches what the route path is to match**;
* `Segmentwise`: the pattern matches so, and every parameter has the text of its segment;
* `segmentwise_iff`: **when this is so, for one path and for all paths**.
-/

namespace Blaize.Router

open Js
open Js.Url (joined)

/-! ### Route paths -/

/-- A segment of a route path. -/
inductive PathSegment where
  | static (text : List Char)
  | colon (name : List Char)
  | bracket (name : List Char)
  deriving DecidableEq

namespace PathSegment

/-- The text of a segment. -/
def text : PathSegment → List Char
  | static text => text
  | colon name => ':' :: name
  | bracket name => '[' :: (name ++ [']'])

/-- The name of a parameter. -/
def name : PathSegment → Option (List Char)
  | static _ => none
  | colon name => some name
  | bracket name => some name

/-- The characters of a segment are those of its kind. -/
def WellFormed : PathSegment → Prop
  | static text => '/' ∉ text ∧ '[' ∉ text ∧ ']' ∉ text ∧ text.head? ≠ some ':'
  | colon name => '/' ∉ name ∧ ']' ∉ name ∧ name ≠ []
  | bracket name => '/' ∉ name ∧ ']' ∉ name ∧ name ≠ []

instance : DecidablePred WellFormed
  | static _ => inferInstanceAs (Decidable (_ ∧ _ ∧ _ ∧ _))
  | colon _ => inferInstanceAs (Decidable (_ ∧ _ ∧ _))
  | bracket _ => inferInstanceAs (Decidable (_ ∧ _ ∧ _))

/-- The name that the pass for `:name` collects. -/
def colonName : PathSegment → Option (List Char)
  | colon name => some name
  | _ => none

/-- The name that the pass for `[name]` collects. -/
def bracketName : PathSegment → Option (List Char)
  | bracket name => some name
  | _ => none

/-- The segment with its syntax forgotten. -/
def segment : PathSegment → Segment
  | static text => .static text
  | colon name => .param name
  | bracket name => .param name

/-- The segment as the pass for `:name` has it: brackets are plain text. -/
def colonSegment : PathSegment → Segment
  | static text => .static text
  | colon name => .param name
  | bracket name => .static ('[' :: (name ++ [']']))

/-- What a segment is to match. -/
def Fits : PathSegment → List Char → Prop
  | static text, part => part = text
  | colon _, part => part ≠ []
  | bracket _, part => part ≠ []

lemma WellFormed.segment {s : PathSegment} (h : s.WellFormed) : s.segment.WellFormed := by
  cases s with
  | static text => exact ⟨h.1, h.2.1, h.2.2.2⟩
  | colon name => exact ⟨h.1, h.2.2⟩
  | bracket name => exact ⟨h.1, h.2.2⟩

lemma WellFormed.delimited {s : PathSegment} (h : s.WellFormed) : s.colonSegment.Delimited := by
  cases s with
  | static text => exact ⟨h.1, h.2.2.2⟩
  | colon name => exact ⟨h.1, h.2.2⟩
  | bracket name =>
      refine ⟨?_, nofun⟩
      simpa using h.1

end PathSegment

/-- A route path of segments; the path `/` has none. The names are different. -/
structure SegmentPath where
  segments : List PathSegment
  root : segments ≠ [.static []]
  wellFormed : ∀ segment ∈ segments, segment.WellFormed
  nodup : (segments.filterMap PathSegment.name).Nodup

namespace SegmentPath

/-- The path of a route. -/
def path (route : SegmentPath) : String :=
  if route.segments = [] then "/"
  else String.ofList (joined (route.segments.map PathSegment.text))

/-- The names, by position. -/
def names (route : SegmentPath) : List (List Char) := route.segments.filterMap PathSegment.name

/-- The names, by pass. -/
def collected (route : SegmentPath) : List (List Char) :=
  route.segments.filterMap PathSegment.colonName ++
    route.segments.filterMap PathSegment.bracketName

end SegmentPath

/-- The path of a URL: at least one part, each behind a slash. -/
structure UrlPath where
  parts : List (List Char)
  parts_ne : parts ≠ []
  noSlash : ∀ part ∈ parts, '/' ∉ part

/-- The path of a URL. -/
def UrlPath.path (url : UrlPath) : List Char := joined url.parts

/-- The same number of segments, each of which fits; one slash at the end is allowed. -/
def Matches (segments : List PathSegment) (parts : List (List Char)) : Prop :=
  List.Forall₂ PathSegment.Fits segments parts ∨
    ∃ front, parts = front ++ [[]] ∧ List.Forall₂ PathSegment.Fits segments front

/-- The parameters with the texts of their own segments. -/
def texts : List PathSegment → List (List Char) → List (List Char × List Char)
  | segment :: segments, part :: parts =>
      match segment.name with
      | some name => (name, part) :: texts segments parts
      | none => texts segments parts
  | _, _ => []

/-! ### The pass for brackets -/

/-- A text without a bracket behind a slash is copied. -/
lemma replaceBracketParams_copy {text rest : List Char} (h : text.IsChain Unbracketed)
    (hrest : ∀ c ∈ rest.head?, c = '/') {fuel : ℕ} (hfuel : text.length ≤ fuel) :
    replaceBracketParams fuel (text ++ rest) =
      (text ++ (replaceBracketParams (fuel - text.length) rest).1,
        (replaceBracketParams (fuel - text.length) rest).2) := by
  induction text generalizing fuel with
  | nil => rfl
  | cons c text ih =>
      obtain ⟨fuel, rfl⟩ := Nat.exists_eq_succ_of_ne_zero (by simp at hfuel; omega : fuel ≠ 0)
      rw [List.cons_append, replaceBracketParams]
      · rw [ih h.tail (by simpa using hfuel)]
        simp
      · rintro rest' rfl heq
        cases text with
        | nil =>
            have hhead := hrest '[' (by rw [List.nil_append] at heq; rw [heq]; rfl)
            exact absurd hhead (by decide)
        | cons d text =>
            obtain ⟨rfl, -⟩ := List.cons.inj heq
            exact (List.isChain_cons_cons.mp h).1 rfl rfl

/-- A parameter in brackets becomes a group. -/
lemma replaceBracketParams_name {name rest : List Char} (hname : ']' ∉ name) (hne : name ≠ [])
    (fuel : ℕ) :
    replaceBracketParams (fuel + 1) ('/' :: '[' :: (name ++ ']' :: rest)) =
      (captureGroup ++ (replaceBracketParams fuel rest).1,
        String.ofList name :: (replaceBracketParams fuel rest).2) := by
  have hall : ∀ c ∈ name, decide (c ≠ ']') = true := by
    intro c hc
    refine decide_eq_true ?_
    rintro rfl
    exact hname hc
  have hempty : name.isEmpty = false := List.isEmpty_eq_false_iff.mpr hne
  rw [replaceBracketParams, List.takeWhile_append_of_pos hall, List.dropWhile_append_of_pos hall,
    List.takeWhile_cons_of_neg (by decide), List.dropWhile_cons_of_neg (by decide),
    List.append_nil, hempty]

/-- The source that the pass for `:name` leaves of the segments. -/
def colonSource (segments : List PathSegment) : List Char :=
  (segments.map PathSegment.colonSegment).flatMap Segment.source

/-- The source of the segments. -/
def segmentSource (segments : List PathSegment) : List Char :=
  (segments.map PathSegment.segment).flatMap Segment.source

lemma head_colonSource (segments : List PathSegment) :
    ∀ c ∈ (colonSource segments).head?, c = '/' := by
  cases segments with
  | nil => exact nofun
  | cons segment segments =>
      intro c hc
      rw [colonSource, List.map_cons, List.flatMap_cons, List.head?_append, head_source] at hc
      exact (Option.some.inj hc).symm

/-- The names as they are collected: escaped. -/
def collectedString (name : List Char) : String := String.ofList (escapeSpecial name)

/-- **The remaining parameters become groups, all else stays.** -/
lemma replaceBracketParams_segments {segments : List PathSegment}
    (hsegments : ∀ segment ∈ segments, segment.WellFormed) {fuel : ℕ}
    (hfuel : (colonSource segments).length ≤ fuel) :
    replaceBracketParams fuel (colonSource segments) =
      (segmentSource segments,
        (segments.filterMap PathSegment.bracketName).map collectedString) := by
  induction segments generalizing fuel with
  | nil => cases fuel <;> rfl
  | cons segment segments ih =>
      have hwell := hsegments segment List.mem_cons_self
      have hrest := fun s hs => hsegments s (List.mem_cons_of_mem segment hs)
      have hhead := head_colonSource segments
      have hsource : colonSource (segment :: segments) =
          segment.colonSegment.source ++ colonSource segments := rfl
      rw [hsource] at hfuel ⊢
      rw [List.length_append] at hfuel
      cases segment with
      | static text =>
          have hchain : (Segment.static text).source.IsChain Unbracketed :=
            isChain_of_notMem (notMem_escapeSpecial (by decide) hwell.2.1)
          have hlength : (Segment.static text).source.length + (colonSource segments).length ≤
            fuel := hfuel
          show replaceBracketParams fuel ((Segment.static text).source ++ _) = _
          rw [replaceBracketParams_copy hchain hhead (by omega), ih hrest (by omega)]
          rfl
      | colon name =>
          have hlength : captureGroup.length + (colonSource segments).length ≤ fuel := hfuel
          show replaceBracketParams fuel (captureGroup ++ _) = _
          rw [replaceBracketParams_copy (by decide) hhead (by omega), ih hrest (by omega)]
          rfl
      | bracket name =>
          obtain ⟨-, hclose, hne⟩ := hwell
          have hescaped : escapeSpecial name ≠ [] := by
            cases name with
            | nil => exact absurd rfl hne
            | cons c name =>
                rw [escapeSpecial, List.flatMap_cons]
                split <;> rintro ⟨⟩
          have htext : (PathSegment.bracket name).colonSegment.source =
              '/' :: '[' :: (escapeSpecial name ++ [']']) := by
            show '/' :: escapeSpecial ('[' :: (name ++ [']'])) = _
            have hcons : escapeSpecial ('[' :: (name ++ [']'])) =
                '[' :: escapeSpecial (name ++ [']']) := rfl
            rw [hcons, escapeSpecial_append]
            rfl
          rw [htext] at hfuel ⊢
          obtain ⟨fuel, rfl⟩ := Nat.exists_eq_succ_of_ne_zero
            (by simp at hfuel; omega : fuel ≠ 0)
          have happend : '/' :: '[' :: (escapeSpecial name ++ [']']) ++ colonSource segments =
              '/' :: '[' :: (escapeSpecial name ++ ']' :: colonSource segments) := by simp
          rw [happend, replaceBracketParams_name (notMem_escapeSpecial (by decide) hclose) hescaped,
            ih hrest (by simp at hfuel; omega)]
          rfl

/-! ### The pattern -/

lemma escapedNames_colonSegment (segments : List PathSegment) :
    escapedNames (segments.map PathSegment.colonSegment) =
      (segments.filterMap PathSegment.colonName).map collectedString := by
  rw [escapedNames, List.filterMap_map]
  refine congrArg (List.map collectedString) (List.filterMap_congr fun segment _ => ?_)
  cases segment <;> rfl

lemma map_text (segments : List PathSegment) :
    (segments.map PathSegment.colonSegment).map Segment.text = segments.map PathSegment.text := by
  rw [List.map_map]
  refine List.map_congr_left fun segment _ => ?_
  cases segment <;> rfl

namespace SegmentPath

variable (route : SegmentPath)

lemma segment_wellFormed : ∀ segment ∈ route.segments.map PathSegment.segment,
    segment.WellFormed := by
  intro segment hsegment
  obtain ⟨s, hs, rfl⟩ := List.mem_map.mp hsegment
  exact (route.wellFormed s hs).segment

/-- A path with segments is not the root. -/
lemma path_ne_root (hne : route.segments ≠ []) :
    String.ofList (joined (route.segments.map PathSegment.text)) ≠ "/" := by
  intro h
  have hpath : joined (route.segments.map PathSegment.text) = ['/'] := by
    have h := congrArg String.toList h
    rwa [String.toList_ofList] at h
  obtain ⟨segment, segments, hsegments⟩ := List.exists_cons_of_ne_nil hne
  rw [hsegments] at hpath
  have htail : segment.text ++ joined (segments.map PathSegment.text) = [] :=
    List.tail_eq_of_cons_eq hpath
  obtain ⟨htext, hrest⟩ := List.append_eq_nil_iff.mp htail
  refine route.root ?_
  cases segments with
  | nil =>
      cases segment with
      | static text => rw [hsegments, show text = [] from htext]
      | colon name => cases htext
      | bracket name => cases htext
  | cons next segments => cases hrest

/-- **The pattern of a path, and its names in the order of the passes.** -/
theorem compilePathPattern_segments (hne : route.segments ≠ []) :
    compilePathPattern route.path = some
      ⟨String.ofList ('^' :: (segmentSource route.segments ++ sourceEnd)),
        route.collected.map collectedString⟩ := by
  have hescaped : escapeSpecial (joined (route.segments.map PathSegment.text)) =
      (route.segments.map PathSegment.colonSegment).flatMap escapedText := by
    rw [← map_text]
    exact escapeSpecial_path _
  have hdelimited : ∀ s ∈ route.segments.map PathSegment.colonSegment, s.Delimited := by
    intro s hs
    obtain ⟨segment, hsegment, rfl⟩ := List.mem_map.mp hs
    exact (route.wellFormed segment hsegment).delimited
  have hcolons := replaceColonParams_segments hdelimited (le_refl _)
  have hbrackets := replaceBracketParams_segments route.wellFormed (le_refl _)
  obtain ⟨hparses, -⟩ := source_segments route.segment_wellFormed false
  unfold compilePathPattern
  rw [path, if_neg hne, if_neg (route.path_ne_root hne), String.toList_ofList, hescaped]
  dsimp only
  rw [hcolons]
  dsimp only
  rw [← colonSource, hbrackets]
  dsimp only
  have hstart : regExpParses (.term 0 false)
      ('^' :: segmentSource route.segments ++ "(?:/)?$".toList) = true := hparses
  rw [if_pos hstart, escapedNames_colonSegment, ← List.map_append]
  rfl

/-- **The pattern, for every path.** -/
theorem exists_pattern : ∃ p, compilePathPattern route.path = some p ∧
    p.paramNames = route.collected.map collectedString ∧
      ∀ url : UrlPath, execPattern p.pattern url.path =
        matchParts (route.segments.map PathSegment.segment) url.parts := by
  by_cases hne : route.segments = []
  · refine ⟨⟨"^\\/$", []⟩, ?_, ?_, fun url => ?_⟩
    · rw [path, if_pos hne]
      rfl
    · rw [collected, hne]
      rfl
    · obtain ⟨part, parts, hparts⟩ := List.exists_cons_of_ne_nil url.parts_ne
      have hexec (text : List Char) : execPattern "^\\/$" ('/' :: text) =
          RegExp.exec [] text := rfl
      rw [UrlPath.path, hparts, hne]
      refine (hexec (part ++ joined parts)).trans ?_
      cases part with
      | nil => cases parts <;> rfl
      | cons c part => rfl
  · refine ⟨_, route.compilePathPattern_segments hne, rfl, fun url => ?_⟩
    obtain ⟨-, hparse⟩ := source_segments route.segment_wellFormed false
    have hitems : RegExp.parts ('^' :: (segmentSource route.segments ++ sourceEnd)) =
        some ((route.segments.map PathSegment.segment).flatMap Segment.items ++
          [.optional '/']) := hparse
    unfold execPattern
    rw [String.toList_ofList, hitems]
    exact exec_segments route.segment_wellFormed url.noSlash

end SegmentPath

/-! ### Matching -/

variable {segments : List PathSegment} {parts : List (List Char)}

/-- The groups of a path whose parts fit. -/
lemma matchParts_of_forall₂ (h : List.Forall₂ PathSegment.Fits segments parts)
    {rest : List (List Char)} (hrest : rest = [] ∨ rest = [[]]) :
    matchParts (segments.map PathSegment.segment) (parts ++ rest) =
      some ((texts segments (parts ++ rest)).map Prod.snd) := by
  induction h with
  | nil => rcases hrest with rfl | rfl <;> rfl
  | @cons segment part segments parts hfits hforall ih =>
      rw [List.map_cons, List.cons_append]
      cases segment with
      | static text =>
          obtain rfl : part = text := hfits
          rw [PathSegment.segment, matchParts, if_pos rfl, ih]
          rfl
      | colon name =>
          rw [PathSegment.segment, matchParts, if_neg hfits, ih]
          rfl
      | bracket name =>
          rw [PathSegment.segment, matchParts, if_neg hfits, ih]
          rfl

lemma Matches.cons {segment : PathSegment} {part : List Char} (hfits : segment.Fits part)
    (h : Matches segments parts) : Matches (segment :: segments) (part :: parts) := by
  rcases h with h | ⟨front, rfl, h⟩
  · exact .inl (.cons hfits h)
  · exact .inr ⟨part :: front, rfl, .cons hfits h⟩

lemma matches_of_matchParts {groups : List (List Char)}
    (h : matchParts (segments.map PathSegment.segment) parts = some groups) :
    Matches segments parts := by
  induction segments generalizing parts groups with
  | nil =>
      match parts with
      | [] => exact .inl .nil
      | [[]] => exact .inr ⟨[], rfl, .nil⟩
      | (c :: part) :: parts => cases h
      | [] :: part :: parts => cases h
  | cons segment segments ih =>
      rw [List.map_cons] at h
      cases parts with
      | nil => cases segment <;> cases h
      | cons part parts =>
          cases segment with
          | static text =>
              rw [PathSegment.segment, matchParts] at h
              split at h
              next htext => exact (ih h).cons htext.symm
              next => cases h
          | colon name | bracket name =>
              rw [PathSegment.segment, matchParts] at h
              split at h
              next => cases h
              next hne =>
                obtain ⟨rest, hrest, -⟩ := Option.map_eq_some_iff.mp h
                exact (ih hrest).cons hne

/-- **A path has groups if and only if it matches: the texts of the parameters.** -/
theorem matchParts_iff {groups : List (List Char)} :
    matchParts (segments.map PathSegment.segment) parts = some groups ↔
      Matches segments parts ∧ groups = (texts segments parts).map Prod.snd := by
  have hgroups (h : Matches segments parts) :
      matchParts (segments.map PathSegment.segment) parts =
        some ((texts segments parts).map Prod.snd) := by
    rcases h with h | ⟨front, rfl, h⟩
    · simpa using matchParts_of_forall₂ h (.inl rfl)
    · exact matchParts_of_forall₂ h (.inr rfl)
  constructor
  · intro h
    have hmatches := matches_of_matchParts h
    exact ⟨hmatches, Option.some.inj (h.symm.trans (hgroups hmatches))⟩
  · rintro ⟨h, rfl⟩
    exact hgroups h

lemma names_texts_of_forall₂ (h : List.Forall₂ PathSegment.Fits segments parts)
    (rest : List (List Char)) :
    (texts segments (parts ++ rest)).map Prod.fst = segments.filterMap PathSegment.name := by
  induction h with
  | nil => rfl
  | @cons segment part segments parts hfits hforall ih =>
      cases segment with
      | static text => exact ih
      | colon name | bracket name => exact congrArg (name :: ·) ih

/-- The texts are those of all names. -/
lemma names_texts (h : Matches segments parts) :
    (texts segments parts).map Prod.fst = segments.filterMap PathSegment.name := by
  rcases h with h | ⟨front, rfl, h⟩
  · simpa using names_texts_of_forall₂ h []
  · exact names_texts_of_forall₂ h [[]]

/-! ### Names -/

/-- The characters that are escaped. -/
def Special (c : Char) : Prop := c ∈ ".+*?^$(){}|\\".toList

instance : DecidablePred Special := fun _ => inferInstanceAs (Decidable (_ ∈ _))

/-- A name that no pass changes and that is no member of every object. -/
structure Ordinary (name : List Char) : Prop where
  noSpecial : ∀ c ∈ name, ¬ Special c
  noProto : String.ofList name ≠ "__proto__"

lemma escapeSpecial_cons (c : Char) (text : List Char) :
    escapeSpecial (c :: text) = (if Special c then ['\\', c] else [c]) ++ escapeSpecial text := rfl

/-- Escaping adds a character for each special one. -/
lemma length_escapeSpecial (text : List Char) :
    (escapeSpecial text).length = text.length + text.countP fun c => Special c := by
  induction text with
  | nil => rfl
  | cons c text ih =>
      rw [escapeSpecial_cons, List.length_append, ih, List.countP_cons]
      by_cases h : Special c
      · rw [if_pos h, if_pos (decide_eq_true h), List.length_cons, List.length_cons,
          List.length_cons, List.length_nil]
        omega
      · rw [if_neg h, if_neg (by simpa using h), List.length_cons, List.length_cons,
          List.length_nil]
        omega

lemma escapeSpecial_of_noSpecial {text : List Char}
    (h : ∀ c ∈ text, ¬ Special c) : escapeSpecial text = text := by
  induction text with
  | nil => rfl
  | cons c text ih =>
      rw [escapeSpecial_cons, if_neg (h c List.mem_cons_self),
        ih fun d hd => h d (List.mem_cons_of_mem c hd)]
      rfl

/-- The passes collect the names, in another order. -/
lemma SegmentPath.perm_collected (route : SegmentPath) : route.collected.Perm route.names := by
  rw [collected, names]
  induction route.segments with
  | nil => exact .nil
  | cons segment segments ih =>
      cases segment with
      | static text => exact ih
      | colon name => exact ih.cons name
      | bracket name => exact List.perm_middle.trans (ih.cons name)

/-- **If every name is among the escaped ones, no name has a special character**: escaping would
have made the names longer in sum. -/
lemma noSpecial_of_subset {names collected : List (List Char)} (hperm : collected.Perm names)
    (hnodup : names.Nodup) (h : ∀ name ∈ names, name ∈ collected.map escapeSpecial) :
    ∀ name ∈ names, ∀ c ∈ name, ¬ Special c := by
  have hsubperm : names.Subperm (collected.map escapeSpecial) := List.subperm_of_subset hnodup h
  have hsame := hsubperm.perm_of_length_le (by rw [List.length_map, hperm.length_eq])
  have hsum : (names.map List.length).sum =
      (collected.map List.length).sum +
        (collected.map fun name => name.countP fun c => Special c).sum := by
    rw [(hsame.map List.length).sum_eq, List.map_map, ← List.sum_map_add]
    exact congrArg List.sum (List.map_congr_left fun name _ => length_escapeSpecial name)
  rw [(hperm.map List.length).sum_eq] at hsum
  intro name hname c hc hspecial
  have hzero : (collected.map fun name => name.countP fun c => Special c).sum = 0 := by omega
  have hcount := List.sum_eq_zero_iff_forall_eq_nat.mp hzero _
    (List.mem_map_of_mem (hperm.mem_iff.mpr hname))
  have hnone := List.countP_eq_zero.mp hcount c hc
  exact hnone (decide_eq_true hspecial)

/-! ### Parameters -/

variable (route : SegmentPath) (url : UrlPath)

/-- The pattern matches if the path does, and then each parameter has the text of its segment. -/
def Segmentwise : Prop :=
  ∃ p, compilePathPattern route.path = some p ∧
    ((execPattern p.pattern url.path).isSome ↔ Matches route.segments url.parts) ∧
      (Matches route.segments url.parts → ∀ q ∈ texts route.segments url.parts,
        (extractParams url.path p.pattern p.paramNames).get (String.ofList q.1) =
          some (String.ofList q.2))

/-- The parameters in the order of the passes, with the texts by position. -/
def assigned : List (List Char × List Char) :=
  route.collected.zip ((texts route.segments url.parts).map Prod.snd)

variable {route url}

lemma length_texts (h : Matches route.segments url.parts) :
    ((texts route.segments url.parts).map Prod.snd).length = route.collected.length := by
  rw [route.perm_collected.length_eq, SegmentPath.names, ← names_texts h, List.length_map,
    List.length_map]

lemma fst_mem_names (h : Matches route.segments url.parts) {q : List Char × List Char}
    (hq : q ∈ texts route.segments url.parts) : q.1 ∈ route.names := by
  rw [SegmentPath.names, ← names_texts h]
  exact List.mem_map_of_mem hq

/-- Ordinary names are collected as they are. -/
lemma collectedString_of_ordinary (h : ∀ name ∈ route.names, Ordinary name) :
    route.collected.map collectedString = route.collected.map String.ofList := by
  refine List.map_congr_left fun name hname => ?_
  rw [collectedString, escapeSpecial_of_noSpecial
    (h name (route.perm_collected.mem_iff.mp hname)).noSpecial]

/-- **Ordinary names have the texts that are assigned to them.** -/
lemma get_assigned_iff (hmatches : Matches route.segments url.parts) {pattern : String}
    (hexec : execPattern pattern url.path = some ((texts route.segments url.parts).map Prod.snd))
    (hnames : ∀ name ∈ route.names, Ordinary name) {q : List Char × List Char}
    (hq : q.1 ∈ route.names) :
    (extractParams url.path pattern (route.collected.map collectedString)).get
      (String.ofList q.1) = some (String.ofList q.2) ↔ q ∈ assigned route url := by
  have hget {r : List Char × List Char} (hr : r ∈ assigned route url) :
      (extractParams url.path pattern (route.collected.map collectedString)).get
        (String.ofList r.1) = some (String.ofList r.2) := by
    have hname : r.1 ∈ route.names :=
      route.perm_collected.mem_iff.mp (List.of_mem_zip hr).1
    have hnodup : (route.collected.map String.ofList).Nodup :=
      (route.perm_collected.nodup_iff.mpr route.nodup).map fun a b h => String.ofList_injective h
    rw [collectedString_of_ordinary hnames]
    refine get_extractParams hexec hnodup (hnames _ hname).noProto ?_
    rw [List.zip_map_left]
    exact List.mem_map.mpr ⟨r, hr, rfl⟩
  refine ⟨fun h => ?_, hget⟩
  -- the name has some text, so that one
  obtain ⟨name, text⟩ := q
  obtain ⟨i, hi, hcollected⟩ := List.getElem_of_mem (route.perm_collected.mem_iff.mpr hq)
  have hlength := length_texts hmatches
  have hmem : (name, ((texts route.segments url.parts).map Prod.snd)[i]) ∈ assigned route url := by
    obtain rfl : route.collected[i] = name := hcollected
    exact List.mem_iff_getElem.mpr ⟨i, by rw [assigned, List.length_zip]; omega, List.getElem_zip⟩
  have hother := hget hmem
  obtain rfl : text = _ := String.ofList_injective (Option.some.inj (h.symm.trans hother))
  exact hmem

/-- **One path: it does not match, or the names are ordinary and in the order of the passes each
has the text of its own segment.** -/
theorem segmentwise_iff_of_url : Segmentwise route url ↔
    (Matches route.segments url.parts → (∀ name ∈ route.names, Ordinary name) ∧
      ∀ q ∈ texts route.segments url.parts, q ∈ assigned route url) := by
  obtain ⟨p, hcompile, hparamNames, hexec⟩ := route.exists_pattern
  have hmatches : (execPattern p.pattern url.path).isSome ↔ Matches route.segments url.parts := by
    rw [hexec, Option.isSome_iff_exists]
    exact ⟨fun ⟨groups, h⟩ => (matchParts_iff.mp h).1, fun h => ⟨_, matchParts_iff.mpr ⟨h, rfl⟩⟩⟩
  have hgroups (h : Matches route.segments url.parts) : execPattern p.pattern url.path =
      some ((texts route.segments url.parts).map Prod.snd) := by
    rw [hexec]
    exact matchParts_iff.mpr ⟨h, rfl⟩
  constructor
  · rintro ⟨p', hcompile', -, htexts⟩ h
    obtain rfl := Option.some.inj (hcompile.symm.trans hcompile')
    have htexts := htexts h
    have hsome {name : List Char} (hname : name ∈ route.names) :
        ∃ text, (extractParams url.path p.pattern p.paramNames).get (String.ofList name) =
          some text := by
      rw [SegmentPath.names, ← names_texts h] at hname
      obtain ⟨q, hq, rfl⟩ := List.mem_map.mp hname
      exact ⟨_, htexts q hq⟩
    have hordinary : ∀ name ∈ route.names, Ordinary name := by
      intro name hname
      refine ⟨noSpecial_of_subset route.perm_collected route.nodup (fun name hname => ?_) name
        hname, fun hproto => ?_⟩
      · obtain ⟨text, htext⟩ := hsome hname
        by_contra hnot
        rw [get_extractParams_of_notMem (hgroups h)] at htext
        · cases htext
        · rw [hparamNames]
          intro hmem
          obtain ⟨other, hother, heq⟩ := List.mem_map.mp hmem
          exact hnot (List.mem_map.mpr ⟨other, hother, String.ofList_injective heq⟩)
      · obtain ⟨text, htext⟩ := hsome hname
        rw [hproto, get_extractParams_proto] at htext
        cases htext
    refine ⟨hordinary, fun q hq => ?_⟩
    have hget := htexts q hq
    rw [hparamNames] at hget
    exact (get_assigned_iff h (hgroups h) hordinary (fst_mem_names h hq)).mp hget
  · intro h
    refine ⟨p, hcompile, hmatches, fun hmatch q hq => ?_⟩
    obtain ⟨hordinary, hassigned⟩ := h hmatch
    rw [hparamNames]
    exact (get_assigned_iff hmatch (hgroups hmatch) hordinary (fst_mem_names hmatch hq)).mpr
      (hassigned q hq)

/-! ### All paths -/

/-- The text that a segment has in the path of the names. -/
def PathSegment.own : PathSegment → List Char
  | static text => text
  | colon name => name
  | bracket name => name

lemma forall₂_own {segments : List PathSegment} (h : ∀ segment ∈ segments, segment.WellFormed) :
    List.Forall₂ PathSegment.Fits segments (segments.map PathSegment.own) := by
  induction segments with
  | nil => exact .nil
  | cons segment segments ih =>
      refine .cons ?_ (ih fun s hs => h s (List.mem_cons_of_mem segment hs))
      have hwell := h segment List.mem_cons_self
      cases segment with
      | static text => rfl
      | colon name | bracket name => exact hwell.2.2

lemma texts_own (segments : List PathSegment) :
    texts segments (segments.map PathSegment.own) =
      (segments.filterMap PathSegment.name).map fun name => (name, name) := by
  induction segments with
  | nil => rfl
  | cons segment segments ih =>
      cases segment with
      | static text => exact ih
      | colon name | bracket name => exact congrArg ((name, name) :: ·) ih

/-- No parameter in brackets stands in front of one with a colon. -/
def ColonsFirst (segments : List PathSegment) : Prop :=
  segments.Pairwise fun a b => a.bracketName = none ∨ b.colonName = none

instance : DecidablePred ColonsFirst := fun _ => inferInstanceAs (Decidable (List.Pairwise _ _))

lemma collected_of_colonsFirst {segments : List PathSegment} (h : ColonsFirst segments) :
    segments.filterMap PathSegment.colonName ++ segments.filterMap PathSegment.bracketName =
      segments.filterMap PathSegment.name := by
  induction segments with
  | nil => rfl
  | cons segment segments ih =>
      obtain ⟨hsegment, hsegments⟩ := List.pairwise_cons.mp h
      have ih := ih hsegments
      cases segment with
      | static text => exact ih
      | colon name => exact congrArg (name :: ·) ih
      | bracket name =>
          -- then no colon follows
          have hnone : segments.filterMap PathSegment.colonName = [] :=
            List.filterMap_eq_nil_iff.mpr fun s hs => (hsegment s hs).resolve_left nofun
          rw [hnone, List.nil_append] at ih
          rw [List.filterMap_cons_none (show (PathSegment.bracket name).colonName = none from rfl),
            hnone]
          exact congrArg (name :: ·) ih

/-- **The passes have the order of the positions only if no bracket stands in front of a colon.** -/
lemma colonsFirst_of_collected {segments : List PathSegment}
    (hnodup : (segments.filterMap PathSegment.name).Nodup)
    (h : segments.filterMap PathSegment.colonName ++ segments.filterMap PathSegment.bracketName =
      segments.filterMap PathSegment.name) : ColonsFirst segments := by
  induction segments with
  | nil => exact .nil
  | cons segment segments ih =>
      cases segment with
      | static text => exact List.pairwise_cons.mpr ⟨fun s hs => .inl rfl, ih hnodup h⟩
      | colon name =>
          exact List.pairwise_cons.mpr ⟨fun s hs => .inl rfl,
            ih (List.nodup_cons.mp hnodup).2 (List.tail_eq_of_cons_eq h)⟩
      | bracket name =>
          have hrest : segments.filterMap PathSegment.colonName ++
              name :: segments.filterMap PathSegment.bracketName =
                name :: segments.filterMap PathSegment.name := h
          obtain ⟨hname, hnodup⟩ := List.nodup_cons.mp hnodup
          have hnone : segments.filterMap PathSegment.colonName = [] := by
            by_contra hne
            obtain ⟨colon, colons, hcolons⟩ := List.exists_cons_of_ne_nil hne
            rw [hcolons] at hrest
            obtain ⟨rfl, -⟩ := List.cons.inj hrest
            have hmem : colon ∈ segments.filterMap PathSegment.colonName :=
              hcolons ▸ List.mem_cons_self
            obtain ⟨s, hs, hcolon⟩ := List.mem_filterMap.mp hmem
            refine hname (List.mem_filterMap.mpr ⟨s, hs, ?_⟩)
            cases s with
            | colon other => exact hcolon
            | static | bracket => cases hcolon
          rw [hnone, List.nil_append] at hrest
          refine List.pairwise_cons.mpr ⟨fun s hs => .inr ?_, ih hnodup ?_⟩
          · exact List.filterMap_eq_nil_iff.mp hnone s hs
          · rw [hnone]
            exact List.tail_eq_of_cons_eq hrest

/-- The order of the passes is seen on the path of the names. -/
lemma collected_eq_names
    (h : ∀ name ∈ route.names, (name, name) ∈ route.collected.zip route.names) :
    route.collected = route.names := by
  have hlength := route.perm_collected.length_eq
  refine List.ext_getElem hlength fun i hi hi' => ?_
  obtain ⟨j, hj, hzip⟩ := List.getElem_of_mem (h route.names[i] (List.getElem_mem hi'))
  rw [List.getElem_zip] at hzip
  obtain ⟨hcollected, hnames⟩ := Prod.mk.inj hzip
  have hij : j = i := (List.Nodup.getElem_inj_iff route.nodup).mp hnames
  subst hij
  exact hcollected

/-- All paths: the names are ordinary and no bracket stands in front of a colon. -/
theorem segmentwise_iff_of_forall : (∀ url, Segmentwise route url) ↔
    (∀ name ∈ route.names, Ordinary name) ∧ ColonsFirst route.segments := by
  refine ⟨fun h => ?_, fun ⟨hordinary, hfirst⟩ url => ?_⟩
  · by_cases hne : route.segments = []
    · rw [SegmentPath.names, hne]
      exact ⟨nofun, .nil⟩
    · let url : UrlPath :=
        { parts := route.segments.map PathSegment.own
          parts_ne := by simpa using hne
          noSlash := by
            intro part hpart
            obtain ⟨s, hs, rfl⟩ := List.mem_map.mp hpart
            have hwell := route.wellFormed s hs
            cases s <;> exact hwell.1 }
      have hmatches : Matches route.segments url.parts := .inl (forall₂_own route.wellFormed)
      obtain ⟨hordinary, hassigned⟩ := segmentwise_iff_of_url.mp (h url) hmatches
      have htexts : texts route.segments url.parts =
          route.names.map fun name => (name, name) := texts_own route.segments
      refine ⟨hordinary, colonsFirst_of_collected route.nodup (collected_eq_names ?_)⟩
      intro name hname
      have hmem := hassigned (name, name)
        (by rw [htexts]; exact List.mem_map.mpr ⟨name, hname, rfl⟩)
      rw [assigned, htexts, List.map_map] at hmem
      simpa [Function.comp_def] using hmem
  · refine segmentwise_iff_of_url.mpr fun hmatches => ⟨hordinary, fun q hq => ?_⟩
    have hcollected : route.collected = (texts route.segments url.parts).map Prod.fst :=
      (collected_of_colonsFirst hfirst).trans (names_texts hmatches).symm
    have hzip : texts route.segments url.parts = _ := List.zip_of_prod rfl rfl
    rwa [assigned, hcollected, ← hzip]

/-- **A route path is matched segment by segment, with all parameters: for one path and for all
paths.** -/
theorem segmentwise_iff (route : SegmentPath) :
    (∀ url, Segmentwise route url ↔
      (Matches route.segments url.parts → (∀ name ∈ route.names, Ordinary name) ∧
        ∀ q ∈ texts route.segments url.parts, q ∈ assigned route url)) ∧
      ((∀ url, Segmentwise route url) ↔
        (∀ name ∈ route.names, Ordinary name) ∧ ColonsFirst route.segments) :=
  ⟨fun _ => segmentwise_iff_of_url, segmentwise_iff_of_forall⟩

/-- `/[id]/:tab`: the passes collect `tab` in front of `id`. -/
def swappedPath : SegmentPath where
  segments := [.bracket "id".toList, .colon "tab".toList]
  root := by decide
  wellFormed := by decide
  nodup := by decide

/-- `/7/posts` -/
def postsUrl : UrlPath where
  parts := ["7".toList, "posts".toList]
  parts_ne := by decide
  noSlash := by decide

/-- The path `/7/posts` has the tab `7`. -/
theorem not_segmentwise : ¬ ∀ route url, Segmentwise route url := by
  intro h
  have hmatches : Matches swappedPath.segments postsUrl.parts :=
    .inl (.cons (List.cons_ne_nil _ _) (.cons (List.cons_ne_nil _ _) .nil))
  have hassigned := (segmentwise_iff_of_url.mp (h swappedPath postsUrl) hmatches).2
  exact absurd (hassigned ("id".toList, "7".toList) List.mem_cons_self) (by decide)

end Blaize.Router
