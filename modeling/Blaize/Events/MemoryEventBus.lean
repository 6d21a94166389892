import Blaize.Lib.Js
import Blaize.Events.RedisAdapter

/-!
`MemoryEventBus` (packages/blaize-core/src/events/memory-event-bus.ts), with subscriptions by
string patterns.

* `RegExp`, `RegExp.test`: the anchored regular expressions that the bus builds, read from
  their source;
* `globToRegex`, `createMatcher`: a pattern as such an expression;
* `MemoryEventBus` with `subscribe`, `setAdapter`, `publish`, `emitToSubscribers` and the
  handler `onAdapterEvent` that `setAdapter` subscribes with the adapter;
* `Fits`: what a pattern is to match, a `*` standing for a run of characters without `:`;
* `createMatcher_test_iff`: **the expression of a pattern tests what the pattern is to match**.
-/

namespace Blaize.Events

/-! ### Matchers -/

/-- The characters of the class that the bus escapes. -/
def isSpecial (c : Char) : Bool :=
  c ∈ ['.', '+', '?', '^', '$', '\x7b', '\x7d', '(', ')', '|', '[', ']', '\\']

/-- The regular expression with a source text between `^` and `$`. -/
structure RegExp where
  source : List Char
  deriving DecidableEq, Repr

/-- Reads a source: characters, escaped characters, `[^:]*` and `.*`; `none` for a source
with other syntax. -/
def RegExp.pieces : List Char → Option (List (Glob.Piece Char))
  | [] => some []
  | '\\' :: c :: source =>
      if isSpecial c then (pieces source).map (.one (fun x => decide (x = c)) :: ·) else none
  | '[' :: '^' :: ':' :: ']' :: '*' :: source =>
      (pieces source).map (.run (fun x => decide (x ≠ ':')) :: ·)
  | '.' :: '*' :: source => (pieces source).map (.run (fun x => ! Js.isLineTerminator x) :: ·)
  | c :: source =>
      if isSpecial c || c = '*' then none
      else (pieces source).map (.one (fun x => decide (x = c)) :: ·)

/-- `regExp.test(text)` -/
def RegExp.test (regExp : RegExp) (text : String) : Bool :=
  (pieces regExp.source).any fun ps => Glob.test ps text.toList

/-- `replace(/[.+?^${}()|[\]\\]/g, '\\$&')`. -/
def escape (pattern : List Char) : List Char :=
  pattern.flatMap fun c => if isSpecial c then ['\\', c] else [c]

/-- The expression of a pattern. -/
def globToRegex (pattern : String) : RegExp :=
  if pattern = "*" then
    ⟨".*".toList⟩
  else
    ⟨(escape pattern.toList).flatMap fun c => if c = '*' then "[^:]*".toList else [c]⟩

/-- The matcher of a pattern. -/
def createMatcher (pattern : String) : RegExp :=
  if '*' ∈ pattern.toList then globToRegex pattern else ⟨escape pattern.toList⟩

/-! ### The bus -/

/-- A subscription with its matcher. -/
structure Subscription where
  id : ℕ
  pattern : String
  matcher : RegExp
  deriving DecidableEq, Repr

/-- The bus; the ids of its subscriptions are numbers that are not given again.  The only
handler that it subscribes with its adapter is `onAdapterEvent`. -/
structure MemoryEventBus where
  serverId : String
  subscriptions : List Subscription := []
  nextId : ℕ := 0
  adapter : Option (RedisEventBusAdapter Unit) := none

namespace MemoryEventBus

variable {D : Type} (bus : MemoryEventBus)

/-- `new MemoryEventBus(serverId)`. -/
def create (serverId : Option String) (randomUUID : String) : MemoryEventBus :=
  { serverId :=
      match serverId with
      | some id => if id = "" then randomUUID else id
      | none => randomUUID }

/-- `bus.subscribe(pattern, handler)` -/
def subscribe (pattern : String) : Except String MemoryEventBus :=
  if Js.trim pattern.toList = [] then
    .error "Pattern cannot be empty"
  else
    .ok { bus with
      subscriptions := bus.subscriptions ++ [⟨bus.nextId, pattern, createMatcher pattern⟩]
      nextId := bus.nextId + 1 }

/-- `setAdapter` on a bus without adapter. -/
def setAdapter (adapter : RedisEventBusAdapter Unit) (subscriptionId : String) :
    Except String MemoryEventBus := do
  let adapter ← adapter.connect.subscribe subscriptionId "*" ()
  return { bus with adapter := some adapter }

/-- The subscriptions whose handlers are called with an event. -/
def emitToSubscribers (event : BlaizeEvent D) : List Subscription :=
  bus.subscriptions.filter (·.matcher.test event.type)

/-- The event that `publish` makes. -/
def publish (type : String) (data : Option (JsonValue D)) (now : ℚ)
    (correlationId : Option String) : Except String (BlaizeEvent D) :=
  if type = "" ∨ Js.trim type.toList = [] then
    .error "Event type cannot be empty"
  else
    .ok
      { type
        data
        timestamp := now
        serverId := bus.serverId
        correlationId := correlationId.map .string }

/-- The handler of the adapter's events. -/
def onAdapterEvent (event : BlaizeEvent D) : List Subscription :=
  if event.serverId = bus.serverId then [] else bus.emitToSubscribers event

end MemoryEventBus

/-! ### What a pattern matches -/

/-- A `*` stands for any characters without `:`, another character for itself. -/
inductive Fits : List Char → List Char → Prop where
  | nil : Fits [] []
  | char {c : Char} {pattern type : List Char} :
      c ≠ '*' → Fits pattern type → Fits (c :: pattern) (c :: type)
  | star {taken pattern type : List Char} :
      (∀ c ∈ taken, c ≠ ':') → Fits pattern type → Fits ('*' :: pattern) (taken ++ type)

/-- The pieces of a pattern in which `*` is a run without `:`. -/
def globPieces (pattern : List Char) : List (Glob.Piece Char) :=
  pattern.map fun c =>
    if c = '*' then .run fun x => decide (x ≠ ':') else .one fun x => decide (x = c)

lemma globPieces_cons (c : Char) (pattern : List Char) :
    globPieces (c :: pattern) =
      (if c = '*' then .run fun x => decide (x ≠ ':') else .one fun x => decide (x = c)) ::
        globPieces pattern :=
  rfl

lemma matches_globPieces_iff {pattern type : List Char} :
    Glob.Matches (globPieces pattern) type ↔ Fits pattern type := by
  induction pattern generalizing type with
  | nil =>
      constructor
      · rintro ⟨⟩
        exact .nil
      · rintro ⟨⟩
        exact .nil
  | cons c pattern ih =>
      rw [globPieces_cons]
      by_cases hc : c = '*'
      · subst hc
        rw [if_pos rfl]
        constructor
        · rintro (_ | _ | ⟨ht, h⟩)
          exact .star (fun c hc => by simpa using ht c hc) (ih.mp h)
        · intro h
          cases h with
          | char hne => exact absurd rfl hne
          | star ht h => exact .run (fun c hc => by simpa using ht c hc) (ih.mpr h)
      · rw [if_neg hc]
        constructor
        · rintro (_ | ⟨hx, h⟩ | _)
          obtain rfl := of_decide_eq_true hx
          exact .char hc (ih.mp h)
        · intro h
          cases h with
          | char _ h => exact .one (by simp) (ih.mpr h)
          | star => exact absurd rfl hc

instance (pattern type : List Char) : Decidable (Fits pattern type) :=
  decidable_of_iff (Glob.test (globPieces pattern) type = true)
    (Glob.test_iff_matches.trans matches_globPieces_iff)

/-- A character that is not special is read for itself. -/
lemma pieces_cons {c : Char} (hs : isSpecial c = false) (hc : c ≠ '*') (source : List Char) :
    RegExp.pieces (c :: source) =
      (RegExp.pieces source).map (.one (fun x => decide (x = c)) :: ·) := by
  have hne : ∀ c' : Char, isSpecial c' = true → c ≠ c' := by
    rintro c' hs' rfl
    simp [hs] at hs'
  rw [RegExp.pieces]
  · simp [hs, hc]
  · exact fun _ _ h => absurd h (hne _ (by decide))
  · exact fun _ h => absurd h (hne _ (by decide))
  · exact fun _ h => absurd h (hne _ (by decide))

/-- Reading an escaped pattern with its stars replaced gives its pieces. -/
lemma pieces_globSource (pattern : List Char) :
    RegExp.pieces ((escape pattern).flatMap fun c =>
      if c = '*' then "[^:]*".toList else [c]) = some (globPieces pattern) := by
  have hstars : "[^:]*".toList = ['[', '^', ':', ']', '*'] := String.toList_ofList
  rw [hstars]
  induction pattern with
  | nil => rfl
  | cons c pattern ih =>
      have hcons : escape (c :: pattern) =
          (if isSpecial c then ['\\', c] else [c]) ++ escape pattern := rfl
      rw [hcons, List.flatMap_append, globPieces_cons]
      generalize (escape pattern).flatMap _ = source at ih ⊢
      cases hs : isSpecial c with
      | true =>
          have hc : c ≠ '*' := by
            rintro rfl
            exact absurd hs (by decide)
          simp [RegExp.pieces, hs, hc, ih]
      | false =>
          by_cases hc : c = '*'
          · subst hc
            simp [RegExp.pieces, ih]
          · simp [pieces_cons hs hc, hc, ih]

/-- Without stars there is nothing to replace. -/
lemma pieces_escape {pattern : List Char} (h : '*' ∉ pattern) :
    RegExp.pieces (escape pattern) = some (globPieces pattern) := by
  have hescape : '*' ∉ escape pattern := by
    intro hmem
    obtain ⟨c, hc, hstar⟩ := List.mem_flatMap.mp hmem
    split at hstar
    · rcases List.mem_pair.mp hstar with he | rfl
      · exact absurd he (by decide)
      · exact h hc
    · obtain rfl := List.mem_singleton.mp hstar
      exact h hc
  have hsource : (escape pattern).flatMap (fun c =>
      if c = '*' then "[^:]*".toList else [c]) = escape pattern := by
    refine (List.flatMap_congr fun c hc => ?_).trans (List.flatMap_singleton' _)
    rw [if_neg]
    rintro rfl
    exact hescape hc
  rw [← pieces_globSource, hsource]

/-- Whether an event of a type is for a subscriber: the pattern `*` alone takes every type. -/
def Receives (pattern type : String) : Prop :=
  pattern = "*" ∨ Fits pattern.toList type.toList

instance (pattern type : String) : Decidable (Receives pattern type) :=
  inferInstanceAs (Decidable (pattern = "*" ∨ Fits pattern.toList type.toList))

/-- The type has no line terminator, so that `.` takes all its characters. -/
def OneLine (type : String) : Prop := ∀ c ∈ type.toList, Js.isLineTerminator c = false

instance (type : String) : Decidable (OneLine type) :=
  inferInstanceAs (Decidable (∀ c ∈ type.toList, Js.isLineTerminator c = false))

/-- **The expression of a pattern other than `*` tests what the pattern is to match.** -/
theorem createMatcher_test_iff_fits {pattern : String} (h : pattern ≠ "*") (type : String) :
    (createMatcher pattern).test type = true ↔ Fits pattern.toList type.toList := by
  have hpieces : RegExp.pieces (createMatcher pattern).source =
      some (globPieces pattern.toList) := by
    rw [createMatcher]
    split
    · rw [globToRegex, if_neg h]
      exact pieces_globSource _
    next hstar => exact pieces_escape hstar
  rw [RegExp.test, hpieces, Option.any_some, Glob.test_iff_matches, matches_globPieces_iff]

/-- The pattern `*` takes every type in one line. -/
theorem createMatcher_test_star {type : String} (h : OneLine type) :
    (createMatcher "*").test type = true := by
  have hpieces : RegExp.pieces (createMatcher "*").source =
      some [.run fun x => ! Js.isLineTerminator x] := by
    rfl
  have hrun : Glob.Matches [.run fun x => ! Js.isLineTerminator x] (type.toList ++ []) :=
    .run (fun c hc => by simp [h c hc]) .nil
  rw [List.append_nil] at hrun
  rw [RegExp.test, hpieces, Option.any_some, Glob.test_iff_matches]
  exact hrun

/-- **The expression of a pattern tests what the pattern is to match**, save that `*` alone
is for types in one line. -/
theorem createMatcher_test_iff {pattern type : String}
    (h : pattern = "*" → OneLine type) :
    (createMatcher pattern).test type = true ↔ Receives pattern type := by
  by_cases hp : pattern = "*"
  · subst hp
    exact ⟨fun _ => Or.inl rfl, fun _ => createMatcher_test_star (h rfl)⟩
  · rw [createMatcher_test_iff_fits hp, Receives, or_iff_right hp]

end Blaize.Events
