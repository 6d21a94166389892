import Mathlib.Data.List.Basic
import Blaize.Lib.OrdMap

/-!
The route matcher (`packages/blaize-core/src/router/matching/`).

* `compilePathPattern`: the pattern of a route path as the source text of its regular
  expression, with the names of its parameters; `none` where `new RegExp` throws;
* `Matcher`: the entries of a matcher, by number of parameters;
* `add`, `remove`: the operations;
* `answer`: the options that the matcher has for a route path and a method, those of the first
  entry: entries with one path have one pattern, so no later one is ever reached;
* `answer_add`, `answer_remove`: what the operations do to the answers.
-/

namespace Blaize.Router

/-- The methods of routes. -/
inductive HttpMethod where
  | GET
  | POST
  | PUT
  | DELETE
  | PATCH
  | HEAD
  | OPTIONS
  deriving DecidableEq, Repr

/-! ### Path patterns -/

/-- `path.replace(/([.+*?^$(){}|\\])/g, '\\$1')`. -/
def escapeSpecial (path : List Char) : List Char :=
  path.flatMap fun c => if c ∈ ".+*?^$(){}|\\".toList then ['\\', c] else [c]

/-- What a parameter is replaced with. -/
def captureGroup : List Char := "/([^/]+)".toList

/-- `replace(/\/:([^/]+)/g, …)` with the names it collects; the fuel bounds the matches. -/
def replaceColonParams : ℕ → List Char → List Char × List String
  | 0, path => (path, [])
  | _, [] => ([], [])
  | fuel + 1, '/' :: ':' :: rest =>
      let name := rest.takeWhile (· ≠ '/')
      if name.isEmpty then
        let (out, names) := replaceColonParams fuel (':' :: rest)
        ('/' :: out, names)
      else
        let (out, names) := replaceColonParams fuel (rest.dropWhile (· ≠ '/'))
        (captureGroup ++ out, String.ofList name :: names)
  | fuel + 1, c :: rest =>
      let (out, names) := replaceColonParams fuel rest
      (c :: out, names)

/-- `replace(/\/\[([^\]]+)\]/g, …)` with the names it collects; the fuel bounds the matches. -/
def replaceBracketParams : ℕ → List Char → List Char × List String
  | 0, path => (path, [])
  | _, [] => ([], [])
  | fuel + 1, '/' :: '[' :: rest =>
      let name := rest.takeWhile (· ≠ ']')
      match name.isEmpty, rest.dropWhile (· ≠ ']') with
      | false, _ :: rest' =>
          let (out, names) := replaceBracketParams fuel rest'
          (captureGroup ++ out, String.ofList name :: names)
      | _, _ =>
          let (out, names) := replaceBracketParams fuel ('[' :: rest)
          ('/' :: out, names)
  | fuel + 1, c :: rest =>
      let (out, names) := replaceBracketParams fuel rest
      (c :: out, names)

/-- The first and the last UTF-16 code unit of a character. -/
def firstUnit (c : Char) : ℕ :=
  if c.toNat < 0x10000 then c.toNat else 0xD800 + (c.toNat - 0x10000) / 0x400

/-- The last code unit of a character. -/
def lastUnit (c : Char) : ℕ :=
  if c.toNat < 0x10000 then c.toNat else 0xDC00 + (c.toNat - 0x10000) % 0x400

/-- Where the parser of a regular expression stands: between two terms, with the number of
open groups and whether a quantifier may follow, or in a character class, with the atom that
could begin a range and whether its dash has been read. -/
inductive RegExpState where
  | term (depth : ℕ) (quantifiable : Bool)
  | charClass (depth : ℕ) (atom : Option Char) (dash : Bool)

/-- The next atom of a character class; a range has to be in order. -/
def RegExpState.classAtom (depth : ℕ) (atom : Option Char) (dash : Bool) (c : Char) :
    Option RegExpState :=
  match atom, dash with
  | some a, true => if lastUnit a ≤ firstUnit c then some (.charClass depth none false) else none
  | _, _ => some (.charClass depth (some c) false)

/-- Whether `new RegExp` accepts a text, for the part of the syntax that path patterns can
use: literals, escapes, character classes, groups, `+` and `?` and the two anchors. -/
def regExpParses : RegExpState → List Char → Bool
  | .term depth _, [] => depth = 0
  | .charClass _ _ _, [] => false
  | .term _ _, ['\\'] => false
  | .term depth _, '\\' :: _ :: rest => regExpParses (.term depth true) rest
  | .term depth _, '[' :: '^' :: rest => regExpParses (.charClass depth none false) rest
  | .term depth _, '[' :: rest => regExpParses (.charClass depth none false) rest
  | .term depth _, '(' :: '?' :: ':' :: rest => regExpParses (.term (depth + 1) false) rest
  | .term depth _, '(' :: rest => regExpParses (.term (depth + 1) false) rest
  | .term depth _, ')' :: rest =>
      match depth with
      | 0 => false
      | depth + 1 => regExpParses (.term depth true) rest
  | .term depth quantifiable, '+' :: rest => quantifiable && regExpParses (.term depth false) rest
  | .term depth quantifiable, '?' :: rest => quantifiable && regExpParses (.term depth false) rest
  | .term depth _, '^' :: rest => regExpParses (.term depth false) rest
  | .term depth _, '$' :: rest => regExpParses (.term depth false) rest
  | .term depth _, _ :: rest => regExpParses (.term depth true) rest
  | .charClass depth _ _, ']' :: rest => regExpParses (.term depth true) rest
  | .charClass _ _ _, ['\\'] => false
  | .charClass depth atom dash, '\\' :: c :: rest =>
      match RegExpState.classAtom depth atom dash c with
      | some state => regExpParses state rest
      | none => false
  | .charClass depth (some a) false, '-' :: rest =>
      regExpParses (.charClass depth (some a) true) rest
  | .charClass depth atom dash, c :: rest =>
      match RegExpState.classAtom depth atom dash c with
      | some state => regExpParses state rest
      | none => false

/-- A compiled path: the source of its regular expression and the names of its parameters. -/
structure PathPattern where
  pattern : String
  paramNames : List String
  deriving DecidableEq, Repr

/-- The pattern of a path, unless it cannot be compiled. -/
def compilePathPattern (path : String) : Option PathPattern :=
  if path = "/" then
    some ⟨"^\\/$", []⟩
  else
    let escaped := escapeSpecial path.toList
    let (colons, names) := replaceColonParams escaped.length escaped
    let (brackets, names') := replaceBracketParams colons.length colons
    let source := '^' :: brackets ++ "(?:/)?$".toList
    if regExpParses (.term 0 false) source then
      some ⟨String.ofList source, names ++ names'⟩
    else
      none

example : (compilePathPattern "/users/:id/[post]").map PathPattern.paramNames =
    some ["id", "post"] := by decide

example : compilePathPattern "/a[b" = none := by decide

/-! ### Matchers -/

variable {O : Type}

/-- A route with its pattern. -/
structure RouteEntry (O : Type) extends PathPattern where
  path : String
  method : HttpMethod
  routeOptions : O

/-- The entries of a matcher: each has the pattern of its own path, and they are in the order
of their numbers of parameters. -/
structure Matcher (O : Type) where
  routes : List (RouteEntry O)
  compiled : ∀ entry ∈ routes, compilePathPattern entry.path = some entry.toPathPattern
  sorted : routes.Pairwise fun a b => a.paramNames.length ≤ b.paramNames.length

/-- A new entry goes before the first one with more parameters. -/
def insertEntry (entry : RouteEntry O) : List (RouteEntry O) → List (RouteEntry O)
  | [] => [entry]
  | route :: routes =>
      if entry.paramNames.length < route.paramNames.length then entry :: route :: routes
      else route :: insertEntry entry routes

lemma mem_insertEntry {entry route : RouteEntry O} {routes : List (RouteEntry O)} :
    route ∈ insertEntry entry routes ↔ route = entry ∨ route ∈ routes := by
  induction routes with
  | nil => simp [insertEntry]
  | cons first routes ih =>
      rw [insertEntry]
      split
      · simp
      · rw [List.mem_cons, ih, List.mem_cons]
        tauto

lemma pairwise_insertEntry {entry : RouteEntry O} {routes : List (RouteEntry O)}
    (h : routes.Pairwise fun a b => a.paramNames.length ≤ b.paramNames.length) :
    (insertEntry entry routes).Pairwise fun a b => a.paramNames.length ≤ b.paramNames.length := by
  induction routes with
  | nil => exact List.pairwise_singleton _ _
  | cons first routes ih =>
      obtain ⟨hfirst, hroutes⟩ := List.pairwise_cons.mp h
      rw [insertEntry]
      split
      next hlt =>
          refine List.pairwise_cons.mpr ⟨fun route hm => ?_, h⟩
          rcases List.mem_cons.mp hm with rfl | hm
          · exact Nat.le_of_lt hlt
          · exact Nat.le_trans (Nat.le_of_lt hlt) (hfirst route hm)
      next hge =>
          refine List.pairwise_cons.mpr ⟨fun route hm => ?_, ih hroutes⟩
          rcases mem_insertEntry.mp hm with rfl | hm
          · exact Nat.le_of_not_lt hge
          · exact hfirst route hm

namespace Matcher

/-- No route. -/
def empty : Matcher O := ⟨[], nofun, .nil⟩

instance : Inhabited (Matcher O) := ⟨empty⟩

/-- `add` throws, and changes nothing, when the path does not compile. -/
def add (matcher : Matcher O) (path : String) (method : HttpMethod) (routeOptions : O) :
    Option (Matcher O) :=
  match h : compilePathPattern path with
  | none => none
  | some pattern => some {
      routes := insertEntry ⟨pattern, path, method, routeOptions⟩ matcher.routes
      compiled := fun entry hm => by
        rcases mem_insertEntry.mp hm with rfl | hm
        · exact h
        · exact matcher.compiled entry hm
      sorted := pairwise_insertEntry matcher.sorted }

/-- `matcher.remove(path)` -/
def remove (matcher : Matcher O) (path : String) : Matcher O where
  routes := matcher.routes.filter (·.path ≠ path)
  compiled entry hm := matcher.compiled entry (List.mem_of_mem_filter hm)
  sorted := matcher.sorted.filter _

/-- The options of the first entry with this path and method. -/
def answer (matcher : Matcher O) (path : String) (method : HttpMethod) : Option O :=
  (matcher.routes.find? fun entry => entry.path = path ∧ entry.method = method).map
    RouteEntry.routeOptions

/-- The pairs that the matcher has an entry for are those that it has an answer for. -/
lemma isSome_answer {matcher : Matcher O} {path : String} {method : HttpMethod} :
    (matcher.answer path method).isSome = true ↔
      ∃ entry ∈ matcher.routes, entry.path = path ∧ entry.method = method := by
  rw [answer, Option.isSome_map, List.find?_isSome]
  simp

/-- A new entry is put behind the ones with as many parameters. -/
lemma find?_insertEntry {entry : RouteEntry O} {routes : List (RouteEntry O)}
    {p : RouteEntry O → Bool}
    (hsorted : routes.Pairwise fun a b => a.paramNames.length ≤ b.paramNames.length)
    (hp : p entry = true → ∀ route ∈ routes, p route = true →
      route.paramNames.length = entry.paramNames.length) :
    (insertEntry entry routes).find? p =
      (routes.find? p).or (if p entry then some entry else none) := by
  induction routes with
  | nil => simp [insertEntry, List.find?_cons]; split <;> simp_all
  | cons first routes ih =>
      obtain ⟨hfirst, hroutes⟩ := List.pairwise_cons.mp hsorted
      rw [insertEntry]
      split
      next hlt =>
          cases he : p entry with
          | false => rw [List.find?_cons_of_neg (by simp [he])]; simp
          | true =>
              -- whatever follows has more parameters, so it has another path
              have hnone : (first :: routes).find? p = none := by
                rw [List.find?_eq_none]
                intro route hm hr
                have hlen := hp he route hm hr
                rcases List.mem_cons.mp hm with rfl | hm
                · omega
                · have := hfirst route hm
                  omega
              rw [List.find?_cons_of_pos he, hnone]
              rfl
      next hge =>
          rw [List.find?_cons, List.find?_cons]
          split
          · rfl
          · exact ih hroutes fun he route hm => hp he route (List.mem_cons_of_mem _ hm)

/-- `add` gives an answer where there was none, and does not replace one. -/
lemma answer_add {matcher matcher' : Matcher O} {path : String} {method : HttpMethod}
    {routeOptions : O} (h : matcher.add path method routeOptions = some matcher') (path' : String)
    (method' : HttpMethod) :
    matcher'.answer path' method' =
      (matcher.answer path' method').or
        (if path = path' ∧ method = method' then some routeOptions else none) := by
  rw [add] at h
  split at h
  next => cases h
  next pattern hc =>
      obtain rfl := Option.some.inj h
      rw [answer, answer, find?_insertEntry matcher.sorted]
      · by_cases he : path = path' ∧ method = method'
        · cases matcher.routes.find? (fun entry => entry.path = path' ∧ entry.method = method') <;>
            simp [he]
        · cases matcher.routes.find? (fun entry => entry.path = path' ∧ entry.method = method') <;>
            simp [he]
      · intro he route hm hr
        simp only [decide_eq_true_eq] at he hr
        have hroute := matcher.compiled route hm
        rw [hr.1, ← he.1, hc] at hroute
        rw [← Option.some.inj hroute]

lemma answer_remove (matcher : Matcher O) (path path' : String) (method : HttpMethod) :
    (matcher.remove path).answer path' method =
      if path = path' then none else matcher.answer path' method := by
  rw [answer, remove, List.find?_filter]
  split
  next he =>
      subst he
      rw [Option.map_eq_none_iff, List.find?_eq_none]
      simp only [decide_not, Bool.not_eq_true', decide_eq_false_iff_not, decide_eq_true_eq]
      rintro entry - ⟨hne, he, -⟩
      exact hne he
  next he =>
      rw [answer]
      congr 2
      funext entry
      by_cases hp : entry.path = path' <;> simp [hp, Ne.symm he]

/-- `add` does not throw on a path that compiles. -/
lemma exists_add {path : String} (h : (compilePathPattern path).isSome = true) (matcher : Matcher O)
    (method : HttpMethod) (routeOptions : O) :
    ∃ matcher', matcher.add path method routeOptions = some matcher' := by
  rw [add]
  split
  next hn =>
      rw [hn] at h
      cases h
  next => exact ⟨_, rfl⟩

end Matcher

end Blaize.Router
