import Blaize.Lib.Js
import Blaize.Lib.Machine
import Blaize.Lib.OrdMap

/-!
The origin validation of the CORS middleware with its cache
(`packages/blaize-core/src/middleware/cors/origin-validator.ts`).

A `World` holds the module-level cache, the `lastIndex` of every `RegExp` object and the
calls of `validateOrigin` so far.  A call runs in two pieces: up to its first `await`, with
the lookup and the tests of texts and regular expressions, and from there to its return,
with the results of the configured functions and the store into the cache.  The pieces of
different calls alternate in any order.  How a regular expression matches is a parameter,
what a configured function answers comes with the action that ends the call.

* `OriginCache`: `getCacheKey`, `get`, `set`, `evictLRU`, `cleanExpired`;
* `RegExp.test`: the built-in test, which moves `lastIndex` under the flags `g` and `y`;
* `isCacheable`, `getConfigOriginId`, `validateSingleOrigin`, `validateArrayOrigin`;
* `validateUncached`: `validateOrigin` with every use of the cache left out;
* `World.step`: the pieces of `validateOrigin`, the cleanup and the replacement of the cache.
-/

namespace Blaize.Cors

/-! ### The cache -/

/-- A verdict with its times. -/
structure CacheEntry where
  allowed : Bool
  expiresAt : ℤ
  lastAccessed : ℤ
  deriving DecidableEq

/-- The closure of `createOriginCache`. -/
structure OriginCache where
  cache : OrdMap String CacheEntry := ∅
  ttl : ℤ := 60000
  maxSize : ℤ := 1000
  deriving DecidableEq

/-- `a || b` on optional texts, where the empty text is falsy as well. -/
def orElse (a b : Option String) : Option String := (a.filter (· ≠ "")).or b

/-- The key of a verdict, joined with colons. -/
def getCacheKey (origin configOriginId : String) (userId : Option String) : String :=
  origin ++ ":" ++ configOriginId ++ ":" ++ (orElse userId (some "anonymous")).getD ""

namespace OriginCache

/-- The loop of `evictLRU`: the first key with the smallest `lastAccessed`. -/
def lruKey (entries : List (String × CacheEntry)) : Option (String × ℤ) :=
  entries.foldl
    (fun lru e =>
      match lru with
      | none => some (e.1, e.2.lastAccessed)
      | some (key, time) =>
          if e.2.lastAccessed < time then some (e.1, e.2.lastAccessed) else some (key, time))
    none

/-- Removes the entry that was used least recently; the empty key is never found. -/
def evictLRU (c : OriginCache) : OriginCache :=
  match lruKey c.cache.entries with
  | some (key, _) => if key = "" then c else { c with cache := c.cache.delete key }
  | none => c

/-- The cached verdict, and the cache with the access noted or the expired entry removed. -/
def get (c : OriginCache) (key : String) (now : ℤ) : Option Bool × OriginCache :=
  match c.cache.get key with
  | none => (none, c)
  | some entry =>
      if now > entry.expiresAt then (none, { c with cache := c.cache.delete key })
      else
        (some entry.allowed, { c with cache := c.cache.set key { entry with lastAccessed := now } })

/-- `cache.set(key, allowed)` -/
def set (c : OriginCache) (key : String) (allowed : Bool) (now : ℤ) : OriginCache :=
  let entry : CacheEntry := { allowed, expiresAt := now + c.ttl, lastAccessed := now }
  if c.cache.has key then { c with cache := c.cache.set key entry }
  else
    let c := if c.cache.size ≥ c.maxSize then c.evictLRU else c
    { c with cache := c.cache.set key entry }

/-- Removes what has expired. -/
def cleanExpired (c : OriginCache) (now : ℤ) : OriginCache :=
  let expired := c.cache.entries.filter fun e => now > e.2.expiresAt
  { c with cache := (expired.map Prod.fst).foldl OrdMap.delete c.cache }

end OriginCache

/-! ### Configured origins -/

/-- A `RegExp`: which object it is, and its two texts. -/
structure RegExp where
  object : ℕ
  source : String
  flags : String
  deriving DecidableEq

/-- A configured origin that is no array; a function is known by which one it is. -/
inductive SingleOrigin where
  | text (text : String)
  | regexp (regexp : RegExp)
  | function (id : ℕ)
  deriving DecidableEq

/-- `CorsOrigin | boolean`. -/
inductive ConfiguredOrigin where
  | bool (allow : Bool)
  | single (origin : SingleOrigin)
  | array (origins : List SingleOrigin)
  deriving DecidableEq

/-- `typeof origin === 'function'` -/
def SingleOrigin.isFunction : SingleOrigin → Bool
  | .function _ => true
  | _ => false

/-- Whether a verdict is cached: no function has a part in it. -/
def isCacheable : ConfiguredOrigin → Bool
  | .bool _ => false
  | .single o => !o.isFunction
  | .array os => os.all (!·.isFunction)

/-- A text for one configured origin. -/
def SingleOrigin.id : SingleOrigin → String
  | .text s => "str:" ++ s
  | .regexp r => "regex:" ++ r.source ++ ":" ++ r.flags
  | .function _ => "unknown"

/-- A text for what is configured, joined with commas. -/
def getConfigOriginId : ConfiguredOrigin → String
  | .bool _ => "unknown"
  | .single o => o.id
  | .array os => "array:[" ++ ",".intercalate (os.map SingleOrigin.id) ++ "]"

/-! ### Validation -/

/-- Where every `RegExp` object starts its next search. -/
abbrev LastIndices := ℕ → ℕ

/-- How a regular expression matches: source, flags and input, and the index from which a
match is searched; the answer is where the match ends. -/
abbrev Matching := String → String → String → ℕ → Option ℕ

/-- The flags `g` and `y`: the object remembers where its last match ended. -/
def RegExp.isStateful (r : RegExp) : Bool :=
  r.flags.toList.contains 'g' || r.flags.toList.contains 'y'

variable (matching : Matching)

/-- `RegExp.prototype.test`. -/
def RegExp.test (r : RegExp) (input : String) (at_ : LastIndices) : Bool × LastIndices :=
  let start := if r.isStateful then at_ r.object else 0
  let found :=
    if start > Js.utf16Length input then none else matching r.source r.flags input start
  (found.isSome, if r.isStateful then Function.update at_ r.object (found.getD 0) else at_)

/-- Whether an origin is the configured one; `*` allows all. -/
def validateStringOrigin (requestOrigin configuredOrigin : String) : Bool :=
  configuredOrigin = "*" || requestOrigin = configuredOrigin

/-- The part of `validateSingleOrigin` before its first `await`; `none` stands for the
promise of a function's answer. -/
def validateSingleOrigin (requestOrigin : String) (at_ : LastIndices) :
    SingleOrigin → Option Bool × LastIndices
  | .text s => (some (validateStringOrigin requestOrigin s), at_)
  | .regexp r =>
      let (result, at_) := r.test matching requestOrigin at_
      (some result, at_)
  | .function _ => (none, at_)

/-- The promises of `validateArrayOrigin`, made from the first element to the last. -/
def validateOrigins (requestOrigin : String) :
    LastIndices → List SingleOrigin → List (Option Bool) × LastIndices
  | at_, [] => ([], at_)
  | at_, o :: os =>
      let (result, at_) := validateSingleOrigin matching requestOrigin at_ o
      let (results, at_) := validateOrigins requestOrigin at_ os
      (result :: results, at_)

/-- How the race of `validateFunctionOrigin` ends. -/
inductive FunctionOutcome where
  | returns (result : Bool)
  | timedOut
  | throws
  deriving DecidableEq

/-- What a function of the application comes to. -/
def FunctionOutcome.result : FunctionOutcome → Bool
  | .returns result => result
  | .timedOut => false
  | .throws => false

/-- The awaited values of the promises, with the functions' answers in their places. -/
def awaited : List (Option Bool) → List FunctionOutcome → List Bool
  | [], _ => []
  | some b :: promises, outcomes => b :: awaited promises outcomes
  | none :: promises, outcome :: outcomes => outcome.result :: awaited promises outcomes
  | none :: promises, [] => false :: awaited promises []

/-- The promises that `validateOrigin` makes for its arguments. -/
def promises (requestOrigin : String) (at_ : LastIndices) :
    ConfiguredOrigin → List (Option Bool) × LastIndices
  | .bool _ => ([], at_)
  | .single o =>
      let (result, at_) := validateSingleOrigin matching requestOrigin at_ o
      ([result], at_)
  | .array os => validateOrigins matching requestOrigin at_ os

/-- What becomes of the awaited values: an array allows what one of its elements allows. -/
def verdict : ConfiguredOrigin → List Bool → Bool
  | .bool allow, _ => allow
  | .single _, results => results.headD false
  | .array _, results => results.any (· = true)

/-! ### The calls -/

/-- What the cache reads of a context's state: `state.user.id` and `state.userId`. -/
structure ContextState where
  user_id : Option String := none
  userId : Option String := none
  deriving DecidableEq

/-- The arguments of a call. -/
structure Call where
  requestOrigin : String
  configuredOrigin : ConfiguredOrigin
  state : ContextState := {}
  deriving DecidableEq

/-- The user that the state names. -/
def Call.userId (c : Call) : Option String := orElse c.state.user_id c.state.userId

/-- The key under which the verdict of a call is cached. -/
def Call.key (c : Call) : String :=
  getCacheKey c.requestOrigin (getConfigOriginId c.configuredOrigin) c.userId

/-- **Validation without the cache**: the value of a call started with the given
`lastIndex`es, when its functions end as given. -/
def validateUncached (c : Call) (at_ : LastIndices) (outcomes : List FunctionOutcome) : Bool :=
  verdict c.configuredOrigin
    (awaited (promises matching c.requestOrigin at_ c.configuredOrigin).1 outcomes)

/-- A call that was started: its arguments, the `lastIndex`es it found, what it awaits, how
its functions ended and what it returned. -/
structure CallRecord where
  call : Call
  lastIndices : LastIndices
  promises : List (Option Bool) := []
  outcomes : List FunctionOutcome := []
  answer : Option Bool := none

/-- The cache, the regular expressions and the calls. -/
structure World where
  defaultCache : OriginCache := {}
  lastIndices : LastIndices := fun _ => 0
  calls : List CallRecord := []

/-- One uninterrupted piece of JavaScript. -/
inductive Action where
  | validateOrigin (call : Call) (now : ℤ)
  | settle (call : ℕ) (outcomes : List FunctionOutcome) (now : ℤ)
  | cleanExpired (now : ℤ)
  | setOriginCache (ttl maxSize : ℤ)

namespace World

/-- The call goes on without an answer from the cache. -/
def startValidation (w : World) (c : Call) : World :=
  let started := promises matching c.requestOrigin w.lastIndices c.configuredOrigin
  { w with
    lastIndices := started.2
    calls := w.calls ++
      [{ call := c, lastIndices := w.lastIndices, promises := started.1 }] }

/-- The call returns before its first `await`. -/
def answerAtOnce (w : World) (c : Call) (answer : Bool) : World :=
  { w with
    calls := w.calls ++ [{ call := c, lastIndices := w.lastIndices, answer := some answer }] }

/-- `validateOrigin` up to its first `await`. -/
def validateOrigin (w : World) (c : Call) (now : ℤ) : World :=
  match c.configuredOrigin with
  | .bool allow => w.answerAtOnce c allow
  | _ =>
      if isCacheable c.configuredOrigin then
        match w.defaultCache.get c.key now with
        | (some cached, cache) => { w with defaultCache := cache }.answerAtOnce c cached
        | (none, cache) => { w with defaultCache := cache }.startValidation matching c
      else w.startValidation matching c

/-- `validateOrigin` from its last `await` on. -/
def settle (w : World) (i : ℕ) (outcomes : List FunctionOutcome) (now : ℤ) : Option World :=
  match w.calls[i]? with
  | some r =>
      if r.answer = none ∧ r.promises.count none = outcomes.length then
        let allowed := verdict r.call.configuredOrigin (awaited r.promises outcomes)
        let answered := { r with outcomes := outcomes, answer := some allowed }
        some
          { w with
            defaultCache :=
              if isCacheable r.call.configuredOrigin then
                w.defaultCache.set r.call.key allowed now
              else w.defaultCache
            calls := w.calls.set i answered }
      else none
  | none => none

/-- What can happen next. -/
def step (w : World) : Action → Option World
  | .validateOrigin c now => some (w.validateOrigin matching c now)
  | .settle i outcomes now => w.settle i outcomes now
  | .cleanExpired now => some { w with defaultCache := w.defaultCache.cleanExpired now }
  | .setOriginCache ttl maxSize => some { w with defaultCache := { ttl, maxSize } }

end World

end Blaize.Cors
