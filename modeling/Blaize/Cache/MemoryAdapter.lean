import Mathlib.Data.Rat.Floor
import Blaize.Lib.Glob
import Blaize.Lib.Js
import Blaize.Lib.Machine
import Blaize.Lib.OrdMap

/-!
The in-memory cache adapter (`plugins/cache/src/storage/memory.ts`).

The state holds the fields of the adapter and what it touches of the event loop: the clock
and the pending timers.  A timer goes by the number of the `set` that has started it.
The methods run to their end without a pause, except for `clear`, which awaits every deletion.

* `get`, `set`, `delete`, `keys`, `clear`, `getTTL`, `evictLRU`: the methods;
* `step`: the calls, the deletions of a `clear`, the timers and the clock, in any order;
* `log`: the hits, the stores and the evictions so far, which the code does not keep.
-/

namespace Blaize.Cache

/-! ### Data -/

/-- A value with the time at which it expires. -/
structure CacheEntry where
  value : String
  /-- In milliseconds; 0 stands for no expiration. -/
  expiresAt : ℚ
  size : ℕ
  deriving DecidableEq

/-- The options of the cache, with their defaults. -/
structure MemoryAdapterConfig where
  maxEntries : ℚ := 1000
  /-- In seconds. -/
  defaultTtl : Option ℚ := none

/-- What has happened to the entries.  An eviction lists the keys that stay. -/
inductive Event where
  | hit (key : String)
  | stored (key : String) (number : ℕ)
  | evicted (key : String) (kept : List String)
  deriving DecidableEq

/-- The fields of the cache. -/
structure MemoryAdapter where
  store : OrdMap String CacheEntry := ∅
  timers : OrdMap String ℕ := ∅
  hits : ℕ := 0
  misses : ℕ := 0
  evictions : ℕ := 0
  /-- `Date.now()`. -/
  now : ℕ := 0
  /-- The pending timers, each with the key that its callback deletes. -/
  pending : OrdMap ℕ String := ∅
  /-- The number of calls of `set` that were not refused. -/
  sets : ℕ := 0
  /-- The keys that the running calls of `clear` still have to delete. -/
  clearing : List (List String) := []
  log : List Event := []

/-! ### The methods -/

namespace MemoryAdapter

/-- Clears the timer of a key, if there is one. -/
def clearTimer (s : MemoryAdapter) (key : String) : MemoryAdapter :=
  match s.timers.get key with
  | none => s
  | some timer =>
      { s with timers := s.timers.delete key, pending := s.pending.delete timer }

/-- `delete`; the result tells whether the key existed. -/
def delete (s : MemoryAdapter) (key : String) : MemoryAdapter × Bool :=
  let s := s.clearTimer key
  ({ s with store := s.store.delete key }, s.store.has key)

/-- `cache.get(key)` -/
def get (s : MemoryAdapter) (key : String) : MemoryAdapter × Option String :=
  match s.store.get key with
  | none => ({ s with misses := s.misses + 1 }, none)
  | some entry =>
      if 0 < entry.expiresAt ∧ entry.expiresAt ≤ s.now then
        let s := (s.delete key).1
        ({ s with misses := s.misses + 1 }, none)
      else
        ({ s with
          store := (s.store.delete key).set key entry
          hits := s.hits + 1
          log := s.log ++ [.hit key] }, some entry.value)

/-- Evicts the first key of the map. -/
def evictLRU (s : MemoryAdapter) : MemoryAdapter :=
  match s.store.keys.head? with
  | none => s
  | some firstKey =>
      let s := (s.delete firstKey).1
      { s with
        evictions := s.evictions + 1
        log := s.log ++ [.evicted firstKey s.store.keys] }

/-- The `while` of `set`, at most `fuel` times. -/
def evictWhile (maxEntries : ℚ) : ℕ → MemoryAdapter → MemoryAdapter
  | 0, s => s
  | fuel + 1, s =>
      if maxEntries < s.store.size then evictWhile maxEntries fuel s.evictLRU else s

/-- Approximate size of an entry in bytes. -/
def estimateSize (key value : String) : ℕ := Js.utf16Length key * 2 + Js.utf16Length value * 2 + 40

/-- The TTL that a call of `set` works with. -/
def effectiveTtl (config : MemoryAdapterConfig) (ttl : Option ℚ) : Option ℚ :=
  ttl <|> config.defaultTtl

/-- `expiresAt` for an effective TTL; a TTL of 0 is none. -/
def expiry (now : ℕ) : Option ℚ → ℚ
  | none => 0
  | some ttl => if ttl = 0 then 0 else now + ttl * 1000

/-- Removes the old entry of a key and makes room for a new one. -/
def makeRoom (config : MemoryAdapterConfig) (s : MemoryAdapter) (key : String) : MemoryAdapter :=
  let s := s.clearTimer key
  let s := if s.store.has key then { s with store := s.store.delete key } else s
  if config.maxEntries ≤ s.store.size then s.evictLRU else s

/-- Stores an entry and evicts until the map is small enough. -/
def insert (config : MemoryAdapterConfig) (s : MemoryAdapter) (key : String) (entry : CacheEntry) :
    MemoryAdapter :=
  let s := { s with
    store := s.store.set key entry
    sets := s.sets + 1
    log := s.log ++ [.stored key s.sets] }
  evictWhile config.maxEntries s.store.size s

/-- Starts the expiration timer of a key. -/
def startTimer (s : MemoryAdapter) (key : String) (timer : ℕ) : MemoryAdapter :=
  { s with timers := s.timers.set key timer, pending := s.pending.set timer key }

/-- `cache.set(key, value, ttl)` -/
def set (config : MemoryAdapterConfig) (s : MemoryAdapter) (key value : String)
    (ttl : Option ℚ) : Except String MemoryAdapter :=
  if ttl.any (· < 0) then .error "TTL must be non-negative"
  else
    let effective := effectiveTtl config ttl
    let entry : CacheEntry := ⟨value, expiry s.now effective, estimateSize key value⟩
    let stored := insert config (makeRoom config s key) key entry
    .ok (if effective.any (0 < ·) then stored.startTimer key s.sets else stored)

/-- `globToRegex`: the pieces that the regular expression of a pattern matches.  A `?` takes one
character here; the expression has no flag `u`, so that beyond the BMP it takes half of one. -/
def globToRegex (pattern : String) : List (Glob.Piece Char) :=
  pattern.toList.map fun
    | '*' => .run fun x => ! Js.isLineTerminator x
    | '?' => .one fun x => ! Js.isLineTerminator x
    | c => .one fun x => decide (x = c)

/-- Whether an entry has not expired, as `keys` asks. -/
def Valid (s : MemoryAdapter) (entry : CacheEntry) : Prop :=
  entry.expiresAt = 0 ∨ s.now < entry.expiresAt

instance (s : MemoryAdapter) (entry : CacheEntry) : Decidable (s.Valid entry) :=
  inferInstanceAs (Decidable (_ ∨ _))

/-- `cache.keys(pattern)` -/
def keys (s : MemoryAdapter) (pattern : String) : List String :=
  let validKeys := (s.store.entries.filter fun e => s.Valid e.2).map Prod.fst
  if pattern = "*" then validKeys
  else validKeys.filter fun key => Glob.test (globToRegex pattern) key.toList

/-- `clear` up to its first deletion. -/
def clear (s : MemoryAdapter) (pattern : String) : MemoryAdapter :=
  { s with clearing := s.clearing ++ [s.keys pattern] }

/-- The next deletion of a running `clear`. -/
def clearNext (s : MemoryAdapter) (call : ℕ) : Option MemoryAdapter :=
  match s.clearing[call]? with
  | some (key :: keysToDelete) =>
      some { (s.delete key).1 with clearing := s.clearing.set call keysToDelete }
  | _ => none

/-- The remaining seconds of a key. -/
def getTTL (s : MemoryAdapter) (key : String) : Option ℤ :=
  match s.store.get key with
  | none => none
  | some entry =>
      if entry.expiresAt = 0 then none
      else
        let remainingMs := entry.expiresAt - s.now
        if remainingMs ≤ 0 then none else some ⌈remainingMs / 1000⌉

/-- A pending timer fires. -/
def fire (s : MemoryAdapter) (timer : ℕ) : Option MemoryAdapter :=
  match s.pending.get timer with
  | none => none
  | some key => some ({ s with pending := s.pending.delete timer }.delete key).1

/-! ### Runs -/

/-- What can happen next. -/
inductive Action where
  | get (key : String)
  | set (key value : String) (ttl : Option ℚ)
  | delete (key : String)
  | keys (pattern : String)
  | clear (pattern : String)
  | clearNext (call : ℕ)
  | fire (timer : ℕ)
  | tick (ms : ℕ)

/-- One action; `none` where there is nothing to delete or no such timer. -/
def step (config : MemoryAdapterConfig) (s : MemoryAdapter) : Action → Option MemoryAdapter
  | .get key => some (s.get key).1
  | .set key value ttl =>
      match s.set config key value ttl with
      | .error _ => some s
      | .ok s' => some s'
  | .delete key => some (s.delete key).1
  | .keys _ => some s
  | .clear pattern => some (s.clear pattern)
  | .clearNext call => s.clearNext call
  | .fire timer => s.fire timer
  | .tick ms => some { s with now := s.now + ms }

end MemoryAdapter

end Blaize.Cache
