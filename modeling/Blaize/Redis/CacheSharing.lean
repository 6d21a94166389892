import Mathlib.Logic.Function.Basic
import Blaize.Redis.CacheAdapter

/-!
Caches that share a Redis (`adapters/redis/src/cache-adapter.ts`).

* `mget`, `mset`, `getTTL`: the methods of the adapter for several keys and for times to live;
* `Request`, `perform`: a call of any method, with what it answers;
* `perform_snd`: all that a request changes;
* `perform_alone`: **an adapter is one without prefixes**, over the strings behind its own;
* `Server`, `answersTo`: any run of the requests of several adapters, while time passes;
* `answersTo_alone`: in such a run an adapter has a server of its own, if the others write nothing
  behind its prefixes;
* `Apart`: the names that two adapters write are different, those with the prefix of the client
  twice before them included;
* `answersTo_concerns_iff`: **no answer ever depends on the others exactly if they are apart**.

A request is taken as a whole, and no command fails.
-/

namespace Blaize.RedisCache

/-! ### The other methods -/

namespace RedisCacheAdapter

variable (a : RedisCacheAdapter)

/-- `adapter.mget(keys)` -/
def mget (keys : List String) : Except String (List (Option String) × RedisCacheAdapter) :=
  if a.isConnected then
    if keys.length = 0 then
      .ok ([], a)
    else
      let fullKeys := keys.map a.buildKey
      let values := fullKeys.map fun fullKey => a.db.get (a.sent fullKey)
      .ok (values, { a with
        stats := values.foldl (fun stats value =>
          if value.isNone then { stats with misses := stats.misses + 1 }
          else { stats with hits := stats.hits + 1 }) a.stats })
  else
    .error notConnected

/-- The commands of the pipeline, one after the other. -/
def mset (entries : List (String × String × Option ℤ)) : Except String RedisCacheAdapter :=
  if a.isConnected then
    if entries.length = 0 then
      .ok a
    else
      .ok { a with
        db := entries.foldl (fun db entry =>
          let fullKey := a.buildKey entry.1
          match entry.2.2 with
          | some ttl =>
              if 0 < ttl then db.setex (a.sent fullKey) ttl entry.2.1
              else db.set (a.sent fullKey) entry.2.1
          | none => db.set (a.sent fullKey) entry.2.1) a.db }
  else
    .error notConnected

/-- `adapter.getTTL(key)` -/
def getTTL (key : String) : Except String (Option ℤ) :=
  if a.isConnected then
    let ttl := a.db.ttl (a.sent (a.buildKey key))
    if ttl = -2 then .ok none
    else if ttl = -1 then .ok none
    else .ok (some ttl)
  else
    .error notConnected

end RedisCacheAdapter

/-! ### Requests -/

/-- A call of an adapter. -/
inductive Request where
  | connect
  | disconnect
  | get (key : String)
  | set (key value : String) (ttl : Option ℤ)
  | delete (key : String)
  | mget (keys : List String)
  | mset (entries : List (String × String × Option ℤ))
  | keys (pattern : String)
  | clear (pattern : String)
  | getTTL (key : String)
  deriving DecidableEq, Repr

/-- What a call returns. -/
inductive Answer where
  | done
  | value (value : Option String)
  | deleted (deleted : Bool)
  | values (values : List (Option String))
  | keys (keys : List String)
  | count (count : ℕ)
  | ttl (ttl : Option ℤ)
  | error (message : String)
  deriving DecidableEq, Repr

/-- The requests that look for names by a pattern. -/
def Request.searches : Request → Bool
  | .keys _ | .clear _ => true
  | _ => false

namespace RedisCacheAdapter

variable (a : RedisCacheAdapter)

/-- A call that throws leaves the adapter as it is. -/
def answered {α : Type} (answer : α → Answer) :
    Except String (α × RedisCacheAdapter) → Answer × RedisCacheAdapter
  | .ok result => (answer result.1, result.2)
  | .error message => (.error message, a)

/-- A call of a method; the client is always there to be connected to. -/
def perform : Request → Answer × RedisCacheAdapter
  | .connect => (.done, { a with isConnected := true })
  | .disconnect => (.done, { a with isConnected := false })
  | .get key => a.answered .value (a.get key)
  | .set key value ttl => a.answered (fun _ => .done) ((a.set key value ttl).map ((), ·))
  | .delete key => a.answered .deleted (a.delete key)
  | .mget keys => a.answered .values (a.mget keys)
  | .mset entries => a.answered (fun _ => .done) ((a.mset entries).map ((), ·))
  | .keys pattern => a.answered .keys ((a.keys pattern).map (·, a))
  | .clear pattern => a.answered .count (a.clear pattern)
  | .getTTL key => a.answered .ttl ((a.getTTL key).map (·, a))

/-- Both prefixes, as they stand before every key. -/
def prefixes : String := a.clientPrefix.getD "" ++ a.keyPrefix

/-- What stands before every key that `clear` deletes. -/
def clearedPrefixes : String := a.clientPrefix.getD "" ++ a.prefixes

lemma sent_buildKey (key : String) : a.sent (a.buildKey key) = a.prefixes ++ key :=
  String.append_assoc.symm

/-- What `set` stores. -/
def entryOf (value : String) : Option ℤ → Redis.StringEntry
  | some ttl => if 0 < ttl then { value, ttl := some ttl } else { value }
  | none => { value }

/-- What a request writes when the adapter is connected. -/
def writes : Request → List Redis.Strings.Write
  | .set key value ttl => [(a.prefixes ++ key, some (entryOf value ttl))]
  | .delete key => [(a.prefixes ++ key, none)]
  | .mset entries => entries.map fun entry =>
      (a.prefixes ++ entry.1, some (entryOf entry.2.1 entry.2.2))
  | .clear pattern => ((a.db.keys (a.prefixes ++ pattern)).map a.sent).map (·, none)
  | _ => []

section

variable {a}

lemma set_eq (h : a.isConnected = true) (key value : String) (ttl : Option ℤ) :
    a.set key value ttl =
      .ok { a with db := a.db.write (a.prefixes ++ key, some (entryOf value ttl)) } := by
  rw [RedisCacheAdapter.set.eq_def, if_pos h, sent_buildKey]
  cases ttl with
  | none => rfl
  | some ttl =>
      dsimp only [entryOf]
      split <;> rfl

lemma mset_eq (h : a.isConnected = true) (entries : List (String × String × Option ℤ)) :
    a.mset entries = .ok { a with db := a.db.writes (a.writes (.mset entries)) } := by
  have hstep (db : Redis.Strings) (entry : String × String × Option ℤ) :
      (match entry.2.2 with
        | some ttl =>
            if 0 < ttl then db.setex (a.sent (a.buildKey entry.1)) ttl entry.2.1
            else db.set (a.sent (a.buildKey entry.1)) entry.2.1
        | none => db.set (a.sent (a.buildKey entry.1)) entry.2.1) =
        db.write (a.prefixes ++ entry.1, some (entryOf entry.2.1 entry.2.2)) := by
    rw [sent_buildKey]
    cases entry.2.2 with
    | none => rfl
    | some ttl =>
        dsimp only [entryOf]
        split <;> rfl
  rw [mset, if_pos h]
  cases entries with
  | nil => rfl
  | cons entry entries =>
      rw [if_neg (by simp), writes, Redis.Strings.writes, List.foldl_map]
      simp only [hstep]

lemma keys_eq (h : a.isConnected = true) (pattern : String) :
    a.keys pattern = .ok ((a.db.keys (a.prefixes ++ pattern)).map a.strip) := if_pos h

lemma clear_eq (h : a.isConnected = true) (pattern : String) :
    a.clear pattern = .ok ((a.db.del ((a.db.keys (a.prefixes ++ pattern)).map a.sent)).1,
      { a with
        stats := { a.stats with
          evictions := a.stats.evictions +
            (a.db.del ((a.db.keys (a.prefixes ++ pattern)).map a.sent)).1 }
        db := a.db.writes (a.writes (.clear pattern)) }) := by
  rw [clear, if_pos h, writes, ← Redis.Strings.del_snd, fullSearchPattern, ← prefixes]
  dsimp only
  split
  next hlength =>
      rw [List.length_eq_zero_iff.mp hlength]
      rfl
  next => rfl

/-- An adapter that is not connected throws, and is left as it is. -/
lemma perform_of_not_connected (h : a.isConnected = false) {request : Request}
    (hconnect : request ≠ .connect) (hdisconnect : request ≠ .disconnect) :
    a.perform request = (.error notConnected, a) := by
  have hneg : ¬ a.isConnected = true := by simp [h]
  cases request with
  | connect => exact absurd rfl hconnect
  | disconnect => exact absurd rfl hdisconnect
  | get key => rw [perform, RedisCacheAdapter.get, if_neg hneg]; rfl
  | set key value ttl => rw [perform, RedisCacheAdapter.set.eq_def, if_neg hneg]; rfl
  | delete key => rw [perform, RedisCacheAdapter.delete, if_neg hneg]; rfl
  | mget keys => rw [perform, mget, if_neg hneg]; rfl
  | mset entries => rw [perform, mset, if_neg hneg]; rfl
  | keys pattern => rw [perform, keys, if_neg hneg]; rfl
  | clear pattern => rw [perform, clear, if_neg hneg]; rfl
  | getTTL key => rw [perform, getTTL, if_neg hneg]; rfl

/-- **All that a request changes**: a connected adapter writes nothing else, one that is not
connected nothing at all. -/
lemma perform_snd (request : Request) : ∃ isConnected stats, (a.perform request).2 =
    { a with
      isConnected := isConnected
      stats := stats
      db := if a.isConnected then a.db.writes (a.writes request) else a.db } := by
  cases h : a.isConnected with
  | false =>
      by_cases hconnect : request = .connect
      · rw [hconnect]
        exact ⟨_, _, rfl⟩
      · by_cases hdisconnect : request = .disconnect
        · rw [hdisconnect]
          exact ⟨_, _, rfl⟩
        · rw [perform_of_not_connected h hconnect hdisconnect]
          exact ⟨_, _, rfl⟩
  | true =>
      rw [if_pos rfl]
      cases request with
      | connect | disconnect => exact ⟨_, _, rfl⟩
      | get key =>
          rw [perform, RedisCacheAdapter.get, if_pos h]
          cases a.db.get (a.sent (a.buildKey key)) <;> exact ⟨_, _, rfl⟩
      | set key value ttl =>
          rw [perform, set_eq h]
          exact ⟨_, _, rfl⟩
      | delete key =>
          rw [perform, RedisCacheAdapter.delete, if_pos h, sent_buildKey]
          dsimp only
          rw [Redis.Strings.del_snd]
          exact ⟨_, _, rfl⟩
      | mget keys =>
          rw [perform, mget, if_pos h]
          split <;> exact ⟨_, _, rfl⟩
      | mset entries =>
          rw [perform, mset_eq h]
          exact ⟨_, _, rfl⟩
      | keys pattern =>
          rw [perform, keys, if_pos h]
          exact ⟨_, _, rfl⟩
      | clear pattern =>
          rw [perform, clear_eq h]
          exact ⟨_, _, rfl⟩
      | getTTL key =>
          rw [perform, getTTL, if_pos h]
          dsimp only
          split
          · exact ⟨_, _, rfl⟩
          · split <;> exact ⟨_, _, rfl⟩

lemma perform_db (request : Request) : (a.perform request).2.db =
    if a.isConnected then a.db.writes (a.writes request) else a.db := by
  obtain ⟨_, _, hsnd⟩ := perform_snd (a := a) request
  rw [hsnd]

/-- The adapter with other strings. -/
def withDb (a : RedisCacheAdapter) (db : Redis.Strings) : RedisCacheAdapter := { a with db := db }

/-- The adapter with a connection. -/
def connected (a : RedisCacheAdapter) : RedisCacheAdapter := { a with isConnected := true }

/-! ### Without prefixes -/

/-- The adapter without prefixes, over the strings behind its own. -/
def alone (a : RedisCacheAdapter) : RedisCacheAdapter :=
  { a with clientPrefix := none, keyPrefix := "", db := a.db.behind a.prefixes }

@[simp] lemma prefixes_alone : a.alone.prefixes = "" := rfl

lemma sent_of_noPrefix (h : a.clientPrefix.getD "" = "") : a.sent = id := by
  funext name
  rw [sent, h, String.empty_append]
  rfl

lemma sent_alone : a.alone.sent = id := sent_of_noPrefix rfl

lemma strip_alone (name : String) : a.alone.strip name = name := by
  rw [strip, if_pos (by rfl)]
  exact String.ofList_toList

/-- The names that a pattern finds are those that it finds among the keys. -/
lemma keys_prefixes (hplain : Plain a.prefixes) (pattern : String) :
    a.db.keys (a.prefixes ++ pattern) = (a.alone.db.keys pattern).map (a.prefixes ++ ·) :=
  Redis.Strings.keys_behind a.prefixes hplain pattern

lemma writes_alone (hplain : Plain a.prefixes) {request : Request}
    (h : a.clientPrefix.getD "" = "" ∨ request.searches = false) :
    a.alone.writes request =
      (a.writes request).filterMap (Redis.Strings.Write.behind a.prefixes) := by
  have hbehind (key : String) (entry : Option Redis.StringEntry) :
      Redis.Strings.Write.behind a.prefixes (a.prefixes ++ key, entry) = some (key, entry) := by
    rw [Redis.Strings.Write.behind, Js.behind_append]
    rfl
  cases request with
  | connect | disconnect | get | mget | keys | getTTL => rfl
  | set key value ttl =>
      rw [writes, writes, List.filterMap_cons_some (hbehind _ _), prefixes_alone,
        String.empty_append]
      rfl
  | delete key =>
      rw [writes, writes, List.filterMap_cons_some (hbehind _ _), prefixes_alone,
        String.empty_append]
      rfl
  | mset entries =>
      rw [writes, writes, List.filterMap_map]
      simp [hbehind]
  | clear pattern =>
      have hsent := sent_of_noPrefix (h.resolve_right (by simp [Request.searches]))
      rw [writes, writes, keys_prefixes hplain, prefixes_alone, String.empty_append, sent_alone,
        hsent, List.map_id, List.map_id]
      simp [List.filterMap_map, Function.comp_def, hbehind]

lemma behind_perform_db (hplain : Plain a.prefixes) {request : Request}
    (h : a.clientPrefix.getD "" = "" ∨ request.searches = false) :
    (a.db.writes (a.writes request)).behind a.prefixes =
      a.alone.db.writes (a.alone.writes request) := by
  rw [Redis.Strings.behind_writes, writes_alone hplain h]
  rfl

lemma sent_buildKey_alone (key : String) : a.alone.sent (a.alone.buildKey key) = key := by
  rw [sent_buildKey, prefixes_alone, String.empty_append]

lemma get_alone (key : String) : a.alone.db.get key = a.db.get (a.prefixes ++ key) :=
  Redis.Strings.get_behind a.prefixes key

lemma ttl_alone (key : String) : a.alone.db.ttl key = a.db.ttl (a.prefixes ++ key) :=
  Redis.Strings.ttl_behind a.prefixes key

/-- The values that `mget` asks for. -/
lemma values_alone (keys : List String) :
    (keys.map a.alone.buildKey).map (fun fullKey => a.alone.db.get (a.alone.sent fullKey)) =
      (keys.map a.buildKey).map fun fullKey => a.db.get (a.sent fullKey) := by
  rw [List.map_map, List.map_map]
  refine List.map_congr_left fun key _ => ?_
  rw [Function.comp_apply, Function.comp_apply, sent_buildKey_alone, sent_buildKey, get_alone]

/-- The names that `keys` answers with. -/
lemma stripped_alone (hplain : Plain a.prefixes) (hnone : a.clientPrefix.getD "" = "")
    (pattern : String) :
    (a.alone.db.keys (a.alone.prefixes ++ pattern)).map a.alone.strip =
      (a.db.keys (a.prefixes ++ pattern)).map a.strip := by
  have hstrip (key : String) : a.alone.strip key = a.strip (a.prefixes ++ key) := by
    rw [strip_alone, ← sent_buildKey]
    exact (strip_name hnone key).symm
  rw [prefixes_alone, String.empty_append, keys_prefixes hplain, List.map_map]
  exact List.map_congr_left fun key _ => hstrip key

/-- The number that `clear` answers with. -/
lemma count_alone (hplain : Plain a.prefixes) (hnone : a.clientPrefix.getD "" = "")
    (pattern : String) :
    (a.alone.db.del ((a.alone.db.keys (a.alone.prefixes ++ pattern)).map a.alone.sent)).1 =
      (a.db.del ((a.db.keys (a.prefixes ++ pattern)).map a.sent)).1 := by
  rw [keys_prefixes hplain, prefixes_alone, String.empty_append, sent_alone,
    sent_of_noPrefix hnone, List.map_id, List.map_id]
  exact Redis.Strings.del_behind a.prefixes _

/-- **An adapter is one without prefixes**, over the strings behind its own; only the patterns of
an adapter whose client has a prefix of its own are not. -/
theorem perform_alone (hplain : Plain a.prefixes) (request : Request)
    (h : a.clientPrefix.getD "" = "" ∨ request.searches = false) :
    a.alone.perform request = ((a.perform request).1, (a.perform request).2.alone) := by
  have hdb := behind_perform_db hplain h
  cases hconnected : a.isConnected with
  | false =>
      by_cases hconnect : request = .connect
      · rw [hconnect]
        rfl
      · by_cases hdisconnect : request = .disconnect
        · rw [hdisconnect]
          rfl
        · have hown : a.alone.isConnected = false := hconnected
          rw [perform_of_not_connected hconnected hconnect hdisconnect,
            perform_of_not_connected hown hconnect hdisconnect]
  | true =>
      have hown : a.alone.isConnected = true := hconnected
      cases request with
      | connect | disconnect => rfl
      | get key =>
          rw [perform, perform, RedisCacheAdapter.get, RedisCacheAdapter.get, if_pos hconnected,
            if_pos hown, sent_buildKey_alone, sent_buildKey, get_alone]
          cases a.db.get (a.prefixes ++ key) <;> rfl
      | set key value ttl =>
          rw [perform, perform, set_eq hconnected, set_eq hown]
          exact congrArg (fun db => (Answer.done, { a.alone with db := db })) hdb.symm
      | delete key =>
          have hfst : (a.alone.db.del [key]).1 = (a.db.del [a.prefixes ++ key]).1 :=
            Redis.Strings.del_behind a.prefixes [key]
          have hsnd : (a.alone.db.del [key]).2 =
              (a.db.del [a.prefixes ++ key]).2.behind a.prefixes := by
            rw [Redis.Strings.del_snd, Redis.Strings.del_snd]
            exact hdb.symm
          rw [perform, perform, RedisCacheAdapter.delete, RedisCacheAdapter.delete,
            if_pos hconnected, if_pos hown, sent_buildKey_alone, sent_buildKey]
          dsimp only
          rw [hfst, hsnd]
          rfl
      | mget keys =>
          rw [perform, perform, mget, mget, if_pos hconnected, if_pos hown]
          dsimp only
          rw [values_alone]
          split <;> rfl
      | mset entries =>
          rw [perform, perform, mset_eq hconnected, mset_eq hown]
          exact congrArg (fun db => (Answer.done, { a.alone with db := db })) hdb.symm
      | keys pattern =>
          have hnone := h.resolve_right (by simp [Request.searches])
          rw [perform, perform, keys_eq hconnected, keys_eq hown, stripped_alone hplain hnone]
          rfl
      | clear pattern =>
          have hnone := h.resolve_right (by simp [Request.searches])
          rw [perform, perform, clear_eq hconnected, clear_eq hown, count_alone hplain hnone, ← hdb]
          rfl
      | getTTL key =>
          rw [perform, perform, getTTL, getTTL, if_pos hconnected, if_pos hown,
            sent_buildKey_alone, sent_buildKey, ttl_alone]
          dsimp only
          split
          · rfl
          · split <;> rfl

/-- The names that `clear` deletes. -/
lemma cleared_eq (hplain : Plain a.prefixes) (pattern : String) :
    (a.db.keys (a.prefixes ++ pattern)).map a.sent =
      ((a.db.behind a.prefixes).keys pattern).map (a.clearedPrefixes ++ ·) := by
  rw [keys_prefixes hplain, List.map_map]
  refine List.map_congr_left fun key _ => ?_
  rw [Function.comp_apply, clearedPrefixes, String.append_assoc]
  rfl

/-- **The names of all that is written have both prefixes**, or the one of the client twice. -/
lemma fst_of_mem_writes (hplain : Plain a.prefixes) {request : Request}
    {w : Redis.Strings.Write} (hw : w ∈ a.writes request) :
    ∃ start ∈ [a.prefixes, a.clearedPrefixes], ∃ key, w.1 = start ++ key := by
  have hprefixes : a.prefixes ∈ [a.prefixes, a.clearedPrefixes] := List.mem_cons_self
  have hcleared : a.clearedPrefixes ∈ [a.prefixes, a.clearedPrefixes] := by simp
  cases request with
  | connect | disconnect | get | mget | keys | getTTL => cases hw
  | set key value ttl =>
      obtain rfl := List.mem_singleton.mp hw
      exact ⟨_, hprefixes, key, rfl⟩
  | delete key =>
      obtain rfl := List.mem_singleton.mp hw
      exact ⟨_, hprefixes, key, rfl⟩
  | mset entries =>
      obtain ⟨entry, -, rfl⟩ := List.mem_map.mp hw
      exact ⟨_, hprefixes, entry.1, rfl⟩
  | clear pattern =>
      rw [writes, cleared_eq hplain, List.map_map] at hw
      obtain ⟨key, -, rfl⟩ := List.mem_map.mp hw
      exact ⟨_, hcleared, key, rfl⟩

/-- The answers depend on the strings behind both prefixes and on those behind what `clear`
deletes. -/
lemma perform_congr (hplain : Plain a.prefixes) {db db' : Redis.Strings}
    (h : ∀ start ∈ [a.prefixes, a.clearedPrefixes], db.behind start = db'.behind start)
    (request : Request) :
    ((a.withDb db).perform request).1 = ((a.withDb db').perform request).1 ∧
      ((a.withDb db).perform request).2.withDb {} =
        ((a.withDb db').perform request).2.withDb {} := by
  have hprefixes := h a.prefixes List.mem_cons_self
  have hkeys (pattern : String) :
      db.keys (a.prefixes ++ pattern) = db'.keys (a.prefixes ++ pattern) := by
    rw [Redis.Strings.keys_behind _ hplain, Redis.Strings.keys_behind _ hplain, hprefixes]
  have hcount (pattern : String) :
      (db.del ((db.keys (a.prefixes ++ pattern)).map a.sent)).1 =
        (db'.del ((db'.keys (a.prefixes ++ pattern)).map a.sent)).1 := by
    have hcleared := cleared_eq (a := a.withDb db) hplain pattern
    have hcleared' := cleared_eq (a := a.withDb db') hplain pattern
    calc (db.del ((db.keys (a.prefixes ++ pattern)).map a.sent)).1
        = (db.del (((db.behind a.prefixes).keys pattern).map (a.clearedPrefixes ++ ·))).1 :=
          congrArg (fun names => (db.del names).1) hcleared
      _ = ((db.behind a.clearedPrefixes).del ((db.behind a.prefixes).keys pattern)).1 :=
          (Redis.Strings.del_behind _ _).symm
      _ = ((db'.behind a.clearedPrefixes).del ((db'.behind a.prefixes).keys pattern)).1 := by
          rw [hprefixes, h a.clearedPrefixes (by simp)]
      _ = (db'.del (((db'.behind a.prefixes).keys pattern).map (a.clearedPrefixes ++ ·))).1 :=
          Redis.Strings.del_behind _ _
      _ = (db'.del ((db'.keys (a.prefixes ++ pattern)).map a.sent)).1 :=
          congrArg (fun names => (db'.del names).1) hcleared'.symm
  cases hsearch : request.searches with
  | false =>
      have hown := perform_alone (a := a.withDb db) hplain request (Or.inr hsearch)
      have hown' := perform_alone (a := a.withDb db') hplain request (Or.inr hsearch)
      have hsame : (a.withDb db).alone = (a.withDb db').alone :=
        congrArg (fun db => { a.alone with db := db }) hprefixes
      rw [hsame, hown'] at hown
      obtain ⟨hanswer, hadapter⟩ := Prod.mk.inj hown
      refine ⟨hanswer.symm, ?_⟩
      obtain ⟨_, _, hsnd⟩ := perform_snd (a := a.withDb db) request
      obtain ⟨_, _, hsnd'⟩ := perform_snd (a := a.withDb db') request
      rw [hsnd, hsnd'] at hadapter
      rw [hsnd, hsnd']
      obtain ⟨-, -, hconnected, hstats, -⟩ := RedisCacheAdapter.mk.inj hadapter
      exact congrArg₂ (fun isConnected stats =>
        { a with isConnected := isConnected, stats := stats, db := {} }) hconnected.symm hstats.symm
  | true =>
      cases hconnected : a.isConnected with
      | false =>
          have hconnect : request ≠ .connect := by
            rintro rfl
            cases hsearch
          have hdisconnect : request ≠ .disconnect := by
            rintro rfl
            cases hsearch
          rw [perform_of_not_connected (a := a.withDb db) hconnected hconnect hdisconnect,
            perform_of_not_connected (a := a.withDb db') hconnected hconnect hdisconnect]
          exact ⟨rfl, rfl⟩
      | true =>
          cases request with
          | connect | disconnect | get | set | delete | mget | mset | getTTL => cases hsearch
          | keys pattern =>
              rw [perform, perform, keys_eq (a := a.withDb db) hconnected,
                keys_eq (a := a.withDb db') hconnected]
              have hstripped : (db.keys (a.prefixes ++ pattern)).map a.strip =
                  (db'.keys (a.prefixes ++ pattern)).map a.strip :=
                congrArg (List.map a.strip) (hkeys pattern)
              exact ⟨congrArg Answer.keys hstripped, rfl⟩
          | clear pattern =>
              rw [perform, perform, clear_eq (a := a.withDb db) hconnected,
                clear_eq (a := a.withDb db') hconnected]
              refine ⟨congrArg Answer.count (hcount pattern), ?_⟩
              exact congrArg (fun count => { a with
                stats := { a.stats with evictions := a.stats.evictions + count }
                db := {} }) (hcount pattern)

/-- What is written depends on the strings behind the prefixes only. -/
lemma behind_perform_congr (hplain : Plain a.prefixes) {db db' : Redis.Strings} {start : String}
    (hprefixes : db.behind a.prefixes = db'.behind a.prefixes)
    (hstart : db.behind start = db'.behind start) (request : Request) :
    ((a.withDb db).perform request).2.db.behind start =
      ((a.withDb db').perform request).2.db.behind start := by
  have hwrites : (a.withDb db).writes request = (a.withDb db').writes request := by
    cases request with
    | connect | disconnect | get | set | delete | mget | mset | keys | getTTL => rfl
    | clear pattern =>
        have hcleared := cleared_eq (a := a.withDb db) hplain pattern
        have hcleared' := cleared_eq (a := a.withDb db') hplain pattern
        rw [writes, writes, hcleared, hcleared']
        exact congrArg (fun own : Redis.Strings =>
          ((own.keys pattern).map (a.clearedPrefixes ++ ·)).map (·, none)) hprefixes
  have hbehind (all : List Redis.Strings.Write) :
      (if a.isConnected then db.writes all else db).behind start =
        (if a.isConnected then db'.writes all else db').behind start := by
    split
    · rw [Redis.Strings.behind_writes, Redis.Strings.behind_writes, hstart]
    · exact hstart
  rw [perform_db, perform_db, hwrites]
  exact hbehind _

end

/-- The names that two adapters write are different. -/
def Apart (a b : RedisCacheAdapter) : Prop :=
  ∀ start ∈ [a.prefixes, a.clearedPrefixes], ∀ other ∈ [b.prefixes, b.clearedPrefixes],
    ¬ Js.Overlap start other

instance (a b : RedisCacheAdapter) : Decidable (a.Apart b) :=
  inferInstanceAs (Decidable (∀ start ∈ [a.prefixes, a.clearedPrefixes],
    ∀ other ∈ [b.prefixes, b.clearedPrefixes], ¬ Js.Overlap start other))

section

variable {a b : RedisCacheAdapter}

lemma perform_get (h : a.isConnected = true) (key : String) :
    (a.perform (.get key)).1 = .value (a.db.get (a.prefixes ++ key)) := by
  rw [perform, RedisCacheAdapter.get, if_pos h, sent_buildKey]
  cases a.db.get (a.prefixes ++ key) <;> rfl

lemma mem_keys_behind {key : String} : key ∈ (a.db.behind a.prefixes).keys "*" ↔
    (a.db.get (a.prefixes ++ key)).isSome := by
  rw [Redis.Strings.mem_keys_star, Redis.Strings.get_behind]

/-- `clear` counts something exactly if a key is there, and the name that is deleted for it. -/
lemma perform_clear (h : a.isConnected = true) (hplain : Plain a.prefixes) :
    ∃ count, (a.perform (.clear "*")).1 = .count count ∧
      (0 < count ↔ ∃ key, (a.db.get (a.prefixes ++ key)).isSome ∧
        (a.db.get (a.clearedPrefixes ++ key)).isSome) := by
  refine ⟨_, by rw [perform, clear_eq h]; rfl, ?_⟩
  rw [cleared_eq hplain, Redis.Strings.del_fst_pos_iff]
  constructor
  · rintro ⟨name, hname, hget⟩
    obtain ⟨key, hkey, rfl⟩ := List.mem_map.mp hname
    exact ⟨key, mem_keys_behind.mp hkey, hget⟩
  · rintro ⟨key, hkey, hget⟩
    exact ⟨_, List.mem_map_of_mem (mem_keys_behind.mpr hkey), hget⟩

/-- What is deleted for a key that is there. -/
lemma get_perform_clear (h : a.isConnected = true) (hplain : Plain a.prefixes) {key : String}
    (hkey : (a.db.get (a.prefixes ++ key)).isSome) :
    (a.perform (.clear "*")).2.db.get (a.clearedPrefixes ++ key) = none := by
  have hmem : key ∈ (a.db.behind a.prefixes).keys "*" := mem_keys_behind.mpr hkey
  rw [perform_db, if_pos h, writes, ← Redis.Strings.del_snd, Redis.Strings.get_del,
    cleared_eq hplain, if_pos (List.mem_map_of_mem hmem)]

/-- What is there after `clear` was there before. -/
lemma isSome_of_perform_clear (h : a.isConnected = true) {name : String}
    (hname : ((a.perform (.clear "*")).2.db.get name).isSome) : (a.db.get name).isSome := by
  rw [perform_db, if_pos h, writes, ← Redis.Strings.del_snd, Redis.Strings.get_del] at hname
  split at hname
  · cases hname
  · exact hname

/-- No request of the other adapter changes an answer. -/
def Unseen (a b : RedisCacheAdapter) : Prop :=
  ∀ db theirs ours, ((a.withDb ((b.withDb db).perform theirs).2.db).perform ours).1 =
    ((a.withDb db).perform ours).1

lemma db_perform_set (h : b.isConnected = true) (db : Redis.Strings) (key : String) :
    ((b.withDb db).perform (.set key "" none)).2.db = db.set (b.prefixes ++ key) "" := by
  rw [perform, set_eq (a := b.withDb db) h]
  rfl

lemma Unseen.get_eq (h : Unseen a b) (ha : a.isConnected = true) (db : Redis.Strings)
    (theirs : Request) (key : String) :
    ((b.withDb db).perform theirs).2.db.get (a.prefixes ++ key) = db.get (a.prefixes ++ key) := by
  have hanswer := h db theirs (.get key)
  rw [perform_get (a := a.withDb ((b.withDb db).perform theirs).2.db) ha,
    perform_get (a := a.withDb db) ha] at hanswer
  exact Answer.value.inj hanswer

lemma Unseen.cleared_iff (h : Unseen a b) (ha : a.isConnected = true) (hplain : Plain a.prefixes)
    (db : Redis.Strings) (theirs : Request) :
    (∃ key, (((b.withDb db).perform theirs).2.db.get (a.prefixes ++ key)).isSome ∧
      (((b.withDb db).perform theirs).2.db.get (a.clearedPrefixes ++ key)).isSome) ↔
        ∃ key, (db.get (a.prefixes ++ key)).isSome ∧
          (db.get (a.clearedPrefixes ++ key)).isSome := by
  obtain ⟨count, hcount, hiff⟩ := perform_clear (a := a.withDb db) ha hplain
  obtain ⟨count', hcount', hiff'⟩ :=
    perform_clear (a := a.withDb ((b.withDb db).perform theirs).2.db) ha hplain
  have hanswer := h db theirs (.clear "*")
  rw [hcount, hcount'] at hanswer
  rw [Answer.count.inj hanswer] at hiff'
  exact hiff'.symm.trans hiff

/-- The other one sets a name that is a key of both. -/
lemma Unseen.not_overlap (h : Unseen a b) (ha : a.isConnected = true) (hb : b.isConnected = true) :
    ¬ Js.Overlap a.prefixes b.prefixes := by
  intro hoverlap
  obtain ⟨key, key', hname⟩ := Js.exists_behind_of_overlap hoverlap
  have hget := h.get_eq ha {} (.set key' "" none) key
  rw [db_perform_set hb, Redis.Strings.get_set, if_pos hname.symm] at hget
  cases hget

/-- The other one deletes a name that is a key. -/
lemma Unseen.not_overlap_cleared (h : Unseen a b) (ha : a.isConnected = true)
    (hb : b.isConnected = true) (hplain : Plain b.prefixes) :
    ¬ Js.Overlap a.prefixes b.clearedPrefixes := by
  intro hoverlap
  obtain ⟨key, key', hname⟩ := Js.exists_behind_of_overlap hoverlap
  let db := (Redis.Strings.set {} (b.prefixes ++ key') "").set (a.prefixes ++ key) ""
  have hget := h.get_eq ha db (.clear "*") key
  have hgone : ((b.withDb db).perform (.clear "*")).2.db.get (b.clearedPrefixes ++ key') = none :=
    get_perform_clear (a := b.withDb db) hb hplain
      (Redis.Strings.isSome_get_set.mpr (.inr (Redis.Strings.isSome_get_set.mpr (.inl rfl))))
  rw [hname, hgone, ← hname, Redis.Strings.get_set, if_pos rfl] at hget
  cases hget

lemma append_prefixes_injective {key key' : String}
    (h : a.prefixes ++ key = a.prefixes ++ key') : key = key' :=
  (Js.isPartialInv_behind a.prefixes).injective h

/-- The other one sets a name that is deleted for a key. -/
lemma Unseen.cleared_not_overlap (h : Unseen a b) (ha : a.isConnected = true)
    (hb : b.isConnected = true) (hplain : Plain a.prefixes) :
    ¬ Js.Overlap a.clearedPrefixes b.prefixes := by
  intro hoverlap
  obtain ⟨key, key', hname⟩ := Js.exists_behind_of_overlap hoverlap
  have hiff := h.cleared_iff ha hplain (Redis.Strings.set {} (a.prefixes ++ key) "")
    (.set key' "" none)
  rw [db_perform_set hb, hname.symm] at hiff
  simp only [Redis.Strings.isSome_get_set] at hiff
  obtain ⟨other, hother | hother, hcleared | hcleared⟩ :=
    hiff.mp ⟨key, .inr (.inl rfl), .inl rfl⟩
  · rw [← append_prefixes_injective hother, hname] at hcleared
    exact Js.append_ne_append (h.not_overlap ha hb) _ _ hcleared
  · cases hcleared
  · cases hother
  · cases hother

/-- Both delete one name, the other one first. -/
lemma Unseen.cleared_not_overlap_cleared (h : Unseen a b) (ha : a.isConnected = true)
    (hb : b.isConnected = true) (hplain : Plain a.prefixes) (hplain' : Plain b.prefixes) :
    ¬ Js.Overlap a.clearedPrefixes b.clearedPrefixes := by
  intro hoverlap
  obtain ⟨key, key', hname⟩ := Js.exists_behind_of_overlap hoverlap
  let db := ((Redis.Strings.set {} (b.prefixes ++ key') "").set (a.prefixes ++ key) "").set
    (a.clearedPrefixes ++ key) ""
  have hdb (name : String) : (db.get name).isSome ↔ a.clearedPrefixes ++ key = name ∨
      a.prefixes ++ key = name ∨ b.prefixes ++ key' = name := by
    simp only [db, Redis.Strings.isSome_get_set]
    exact or_congr_right (or_congr_right (or_iff_left Bool.false_ne_true))
  obtain ⟨other, hother, hcleared⟩ := (h.cleared_iff ha hplain db (.clear "*")).mpr
    ⟨key, (hdb _).mpr (.inr (.inl rfl)), (hdb _).mpr (.inl rfl)⟩
  rcases (hdb _).mp (isSome_of_perform_clear (a := b.withDb db) hb hother) with heq | heq | heq
  · exact Js.append_ne_append (h.not_overlap_cleared ha hb hplain') _ _ (heq.symm.trans hname)
  · have hgone := get_perform_clear (a := b.withDb db) hb hplain' ((hdb _).mpr (.inr (.inr rfl)))
    rw [← append_prefixes_injective heq, hname] at hcleared
    exact absurd hcleared (Option.not_isSome_iff_eq_none.mpr hgone)
  · exact Js.append_ne_append (h.not_overlap ha hb) _ _ heq.symm

/-- **Adapters that never see each other are apart.** -/
lemma Unseen.apart (h : Unseen a b) (ha : a.isConnected = true) (hb : b.isConnected = true)
    (hplain : Plain a.prefixes) (hplain' : Plain b.prefixes) : a.Apart b := by
  intro start hstart other hother
  simp only [List.mem_cons, List.not_mem_nil, or_false] at hstart hother
  rcases hstart with rfl | rfl <;> rcases hother with rfl | rfl
  · exact h.not_overlap ha hb
  · exact h.not_overlap_cleared ha hb hplain'
  · exact h.cleared_not_overlap ha hb hplain
  · exact h.cleared_not_overlap_cleared ha hb hplain hplain'

end

end RedisCacheAdapter

/-! ### Runs of several adapters -/

/-- Adapters over one server; the strings are held by the server alone. -/
structure Server (ι : Type) where
  db : Redis.Strings
  adapters : ι → RedisCacheAdapter

/-- A request to one of the adapters, or a second that passes. -/
inductive Step (ι : Type) where
  | call (i : ι) (request : Request)
  | second

/-- The steps that an adapter takes alone. -/
def Step.own {ι : Type} [DecidableEq ι] (i : ι) : Step ι → Option (Step Unit)
  | .call j request => if j = i then some (.call () request) else none
  | .second => some .second

/-- The steps that are left without the other adapters. -/
def Step.concerns {ι : Type} [DecidableEq ι] (i : ι) : Step ι → Bool
  | .call j _ => j = i
  | .second => true

namespace Server

open RedisCacheAdapter (Plain)

variable {ι : Type} (s : Server ι)

/-- An adapter on the database that all share. -/
def adapter (i : ι) : RedisCacheAdapter := (s.adapters i).withDb s.db

variable [DecidableEq ι]

/-- A call of one adapter, or a second that goes by. -/
def next : Step ι → Server ι
  | .call i request =>
      let a := ((s.adapter i).perform request).2
      { db := a.db, adapters := Function.update s.adapters i (a.withDb {}) }
  | .second => { s with db := s.db.second }

/-- The answers of one adapter in a run of all. -/
def answersTo (i : ι) : Server ι → List (Step ι) → List Answer
  | _, [] => []
  | s, .call j request :: steps =>
      if j = i then
        ((s.adapter i).perform request).1 :: answersTo i (s.next (.call j request)) steps
      else
        answersTo i (s.next (.call j request)) steps
  | s, .second :: steps => answersTo i (s.next .second) steps

/-- An adapter without prefixes, with a server of its own. -/
def own (i : ι) : Server Unit where
  db := s.db.behind (s.adapters i).prefixes
  adapters _ := (s.adapters i).alone.withDb {}

/-! ### A server of its own -/

variable {s}

lemma adapters_next_self (i : ι) (request : Request) :
    (s.next (.call i request)).adapters i = ((s.adapter i).perform request).2.withDb {} :=
  Function.update_self ..

lemma adapters_next_of_ne {i j : ι} (h : j ≠ i) (request : Request) :
    (s.next (.call j request)).adapters i = s.adapters i := Function.update_of_ne h.symm _ _

lemma config_next (step : Step ι) (j : ι) :
    ((s.next step).adapters j).clientPrefix = (s.adapters j).clientPrefix ∧
      ((s.next step).adapters j).keyPrefix = (s.adapters j).keyPrefix := by
  cases step with
  | call i request =>
      by_cases hj : i = j
      · subst hj
        obtain ⟨_, _, hsnd⟩ := RedisCacheAdapter.perform_snd (a := s.adapter i) request
        rw [adapters_next_self, hsnd]
        exact ⟨rfl, rfl⟩
      · rw [adapters_next_of_ne hj]
        exact ⟨rfl, rfl⟩
  | second => exact ⟨rfl, rfl⟩

lemma prefixes_next (step : Step ι) (j : ι) :
    ((s.next step).adapters j).prefixes = (s.adapters j).prefixes := by
  rw [RedisCacheAdapter.prefixes, (config_next step j).1, (config_next step j).2]
  rfl

lemma clearedPrefixes_next (step : Step ι) (j : ι) :
    ((s.next step).adapters j).clearedPrefixes = (s.adapters j).clearedPrefixes := by
  rw [RedisCacheAdapter.clearedPrefixes, (config_next step j).1, prefixes_next]
  rfl

lemma own_second (i : ι) : (s.next .second).own i = (s.own i).next .second := by
  rw [own, own, next, next]
  exact congrArg (Server.mk · _) (Redis.Strings.behind_second _)

lemma own_call {i : ι} (hplain : Plain (s.adapters i).prefixes) {request : Request}
    (h : (s.adapters i).clientPrefix.getD "" = "" ∨ request.searches = false) :
    (s.next (.call i request)).own i = (s.own i).next (.call () request) := by
  have halone := RedisCacheAdapter.perform_alone (a := s.adapter i) hplain request h
  have hnext : (s.own i).next (.call () request) =
      { db := ((s.adapter i).alone.perform request).2.db
        adapters := Function.update (s.own i).adapters ()
          (((s.adapter i).alone.perform request).2.withDb {}) } := rfl
  rw [hnext, halone, own, adapters_next_self]
  refine congrArg₂ Server.mk rfl (funext fun _ => ?_)
  rw [Function.update_self]
  rfl

/-- What another adapter writes is not behind the prefixes. -/
lemma behind_next {j : ι} (hplain : Plain (s.adapters j).prefixes) {other : String}
    (h : ∀ start ∈ [(s.adapters j).prefixes, (s.adapters j).clearedPrefixes],
      ¬ Js.Overlap start other) (request : Request) :
    (s.next (.call j request)).db.behind other = s.db.behind other := by
  have hdb := RedisCacheAdapter.perform_db (a := s.adapter j) request
  rw [next, hdb]
  split
  · refine Redis.Strings.behind_writes_of_none other fun w hw => ?_
    obtain ⟨start, hstart, key, hkey⟩ :=
      RedisCacheAdapter.fst_of_mem_writes (a := s.adapter j) hplain hw
    rw [hkey]
    exact Js.behind_of_not_overlap (h start hstart) key
  · rfl

lemma own_of_behind {i : ι} {step : Step ι}
    (hdb : (s.next step).db.behind (s.adapters i).prefixes = s.db.behind (s.adapters i).prefixes)
    (hadapter : (s.next step).adapters i = s.adapters i) : (s.next step).own i = s.own i := by
  rw [own, own, hadapter, hdb]

/-- **An adapter over a server of others is one without prefixes on a server of its own**: in any
run in which the others write no names behind its prefixes, and in which it looks for names by
patterns only if its client has no prefix. -/
theorem answersTo_alone (s : Server ι) (i : ι) (steps : List (Step ι))
    (hplain : ∀ j, Plain (s.adapters j).prefixes)
    (hothers : ∀ j, j ≠ i → ∀ start ∈ [(s.adapters j).prefixes, (s.adapters j).clearedPrefixes],
      ¬ Js.Overlap start (s.adapters i).prefixes)
    (hsearch : (s.adapters i).clientPrefix.getD "" = "" ∨
      ∀ request, .call i request ∈ steps → request.searches = false) :
    s.answersTo i steps = (s.own i).answersTo () (steps.filterMap (Step.own i)) := by
  induction steps generalizing s with
  | nil => rfl
  | cons step steps ih =>
      have hrest : (s.next step).answersTo i steps =
          ((s.next step).own i).answersTo () (steps.filterMap (Step.own i)) := by
        refine ih (s.next step) (fun j => ?_) (fun j hj => ?_) ?_
        · rw [prefixes_next]
          exact hplain j
        · rw [prefixes_next, prefixes_next, clearedPrefixes_next]
          exact hothers j hj
        · rw [(config_next step i).1]
          exact hsearch.imp_right fun h request hmem => h request (List.mem_cons_of_mem _ hmem)
      cases step with
      | second =>
          have hstep : Step.own i .second = some .second := rfl
          rw [answersTo, hrest, own_second, List.filterMap_cons_some hstep, answersTo]
      | call j request =>
          by_cases hj : j = i
          · subst hj
            have hown := hsearch.imp_right fun h => h request List.mem_cons_self
            have halone :=
              RedisCacheAdapter.perform_alone (a := s.adapter j) (hplain j) request hown
            have hadapter : (s.own j).adapter () = (s.adapter j).alone := rfl
            have hstep : Step.own j (.call j request) = some (.call () request) := if_pos rfl
            rw [answersTo, if_pos rfl, hrest, own_call (hplain j) hown,
              List.filterMap_cons_some hstep, answersTo, if_pos rfl, hadapter, halone]
          · have hsame := own_of_behind (behind_next (hplain j) (hothers j hj) request)
              (adapters_next_of_ne hj request)
            have hstep : Step.own i (.call j request) = none := if_neg hj
            rw [answersTo, if_neg hj, hrest, hsame, List.filterMap_cons_none hstep]

/-- The caches of two applications, one of which puts a prefix of the client before its own. -/
def twoCaches : Bool → RedisCacheAdapter
  | true => { keyPrefix := "shop:" }
  | false => { clientPrefix := some "blog:" }

/-- The one with a prefix of the client has a key of the same name. -/
theorem answersTo_alone_shop :
    ({ db := {}, adapters := twoCaches } : Server Bool).answersTo true
      [.call true .connect, .call false .connect, .call true (.set "x" "1" none),
        .call false (.set "x" "2" none), .call true (.keys "?"), .call true (.get "x")] =
      [.done, .done, .keys ["x"], .value (some "1")] := by
  refine (answersTo_alone { db := {}, adapters := twoCaches } true _ (by decide +kernel)
    (by decide +kernel) (.inl rfl)).trans ?_
  decide +kernel

/-! ### The others left out -/

/-- Two servers that are the same to an adapter. -/
structure Agree (i : ι) (s s' : Server ι) : Prop where
  adapter_eq : s.adapters i = s'.adapters i
  behind_eq : ∀ start ∈ [(s.adapters i).prefixes, (s.adapters i).clearedPrefixes],
    s.db.behind start = s'.db.behind start

lemma Agree.second {i : ι} {s s' : Server ι} (h : Agree i s s') :
    Agree i (s.next .second) (s'.next .second) := by
  refine ⟨h.adapter_eq, fun start hstart => ?_⟩
  rw [next, next, Redis.Strings.behind_second, Redis.Strings.behind_second,
    h.behind_eq start hstart]

lemma Agree.call {i : ι} {s s' : Server ι} (h : Agree i s s')
    (hplain : Plain (s.adapters i).prefixes) (request : Request) :
    ((s.adapter i).perform request).1 = ((s'.adapter i).perform request).1 ∧
      Agree i (s.next (.call i request)) (s'.next (.call i request)) := by
  have hsame : s'.adapter i = (s.adapters i).withDb s'.db := by rw [adapter, h.adapter_eq]
  obtain ⟨hanswer, hadapter⟩ := RedisCacheAdapter.perform_congr hplain h.behind_eq request
  rw [hsame]
  refine ⟨hanswer, ?_, fun start hstart => ?_⟩
  · rw [adapters_next_self, adapters_next_self, hsame]
    exact hadapter
  · rw [prefixes_next, clearedPrefixes_next] at hstart
    rw [next, next, hsame]
    exact RedisCacheAdapter.behind_perform_congr hplain
      (h.behind_eq _ List.mem_cons_self) (h.behind_eq start hstart) request

lemma Agree.other {i j : ι} {s s' : Server ι} (h : Agree i s s') (hj : j ≠ i)
    (hplain : Plain (s.adapters j).prefixes) (hapart : (s.adapters i).Apart (s.adapters j))
    (request : Request) : Agree i (s.next (.call j request)) s' := by
  refine ⟨(adapters_next_of_ne hj request).trans h.adapter_eq, fun start hstart => ?_⟩
  rw [prefixes_next, clearedPrefixes_next] at hstart
  refine (behind_next hplain (fun other hother hoverlap => ?_) request).trans
    (h.behind_eq start hstart)
  exact hapart start hstart other hother (Or.symm hoverlap)

/-- Without the others an adapter answers as with them, if it is apart from each. -/
lemma Agree.answersTo {i : ι} {s s' : Server ι} (h : Agree i s s')
    (hplain : ∀ j, Plain (s.adapters j).prefixes)
    (hapart : ∀ j, j ≠ i → (s.adapters i).Apart (s.adapters j)) (steps : List (Step ι)) :
    s.answersTo i steps = s'.answersTo i (steps.filter (Step.concerns i)) := by
  induction steps generalizing s s' with
  | nil => rfl
  | cons step steps ih =>
      have hplain' (j : ι) : Plain ((s.next step).adapters j).prefixes := by
        rw [prefixes_next]
        exact hplain j
      have hapart' (j : ι) (hj : j ≠ i) :
          ((s.next step).adapters i).Apart ((s.next step).adapters j) := by
        rw [RedisCacheAdapter.Apart, prefixes_next, prefixes_next, clearedPrefixes_next,
          clearedPrefixes_next]
        exact hapart j hj
      cases step with
      | second =>
          rw [List.filter_cons_of_pos (by rfl), Server.answersTo, Server.answersTo]
          exact ih h.second hplain' hapart'
      | call j request =>
          by_cases hj : j = i
          · subst hj
            obtain ⟨hanswer, hagree⟩ := h.call (hplain j) request
            rw [List.filter_cons_of_pos (by simp [Step.concerns]), Server.answersTo,
              Server.answersTo, if_pos rfl, if_pos rfl, hanswer, ih hagree hplain' hapart']
          · rw [List.filter_cons_of_neg (by simpa [Step.concerns] using hj), Server.answersTo,
              if_neg hj]
            exact ih (h.other hj (hplain j) (hapart j hj) request) hplain' hapart'

/-- What one request of another adapter changes, when both have connected. -/
lemma unseen_of_answersTo {adapters : ι → RedisCacheAdapter} {i j : ι} (hj : j ≠ i)
    (h : ∀ db steps, ({ db := db, adapters := adapters } : Server ι).answersTo i steps =
      ({ db := db, adapters := adapters } : Server ι).answersTo i
        (steps.filter (Step.concerns i))) :
    RedisCacheAdapter.Unseen (adapters i).connected (adapters j).connected := by
  intro db theirs ours
  have hfilter : [Step.call j .connect, .call i .connect, .call j theirs, .call i ours].filter
      (Step.concerns i) = [.call i .connect, .call i ours] := by
    simp [Step.concerns, hj]
  have hsteps := h db [.call j .connect, .call i .connect, .call j theirs, .call i ours]
  rw [hfilter] at hsteps
  simp only [Server.answersTo, if_neg hj, if_true] at hsteps
  have hanswer := (List.cons.inj (List.cons.inj hsteps).2).1
  -- the adapters as they are after they have connected
  let s₂ := (({ db := db, adapters := adapters } : Server ι).next (.call j .connect)).next
    (.call i .connect)
  have hours : s₂.adapters i = (adapters i).connected.withDb {} := by
    rw [adapters_next_self, adapter, adapters_next_of_ne hj]
    rfl
  have htheirs : s₂.adapter j = (adapters j).connected.withDb db := by
    rw [adapter, adapters_next_of_ne hj.symm, adapters_next_self]
    rfl
  have hafter : (s₂.next (.call j theirs)).adapter i = (adapters i).connected.withDb
      (((adapters j).connected.withDb db).perform theirs).2.db := by
    rw [adapter, adapters_next_of_ne hj, hours, next, htheirs]
    rfl
  have hbefore :
      (({ db := db, adapters := adapters } : Server ι).next (.call i .connect)).adapter i =
        (adapters i).connected.withDb db := by
    rw [adapter, adapters_next_self]
    rfl
  rwa [hafter, hbefore] at hanswer

/-- **No answer ever depends on the other adapters exactly if they are apart**: for every adapter
the names that it writes, with the prefix of its client once more for what `clear` deletes, must
not begin as those of the others do. -/
theorem answersTo_concerns_iff (adapters : ι → RedisCacheAdapter) (i : ι)
    (hplain : ∀ j, Plain (adapters j).prefixes) :
    (∀ db steps, ({ db := db, adapters := adapters } : Server ι).answersTo i steps =
      ({ db := db, adapters := adapters } : Server ι).answersTo i
        (steps.filter (Step.concerns i))) ↔
      ∀ j, j ≠ i → (adapters i).Apart (adapters j) := by
  constructor
  · intro h j hj
    have hapart : (adapters i).connected.Apart (adapters j).connected :=
      (unseen_of_answersTo hj h).apart rfl rfl (hplain i) (hplain j)
    exact hapart
  · intro hapart db steps
    have hagree : Agree i ({ db := db, adapters := adapters } : Server ι)
        { db := db, adapters := adapters } := ⟨rfl, fun _ _ => rfl⟩
    exact hagree.answersTo hplain hapart steps

/-- The other one clears what it has. -/
theorem answersTo_concerns_iff_cleared :
    ({ db := {}, adapters := twoCaches } : Server Bool).answersTo true
      [.call true .connect, .call false .connect, .call true (.set "x" "1" (some 2)),
        .call false (.clear "*"), .second, .call true (.keys "*"), .call true (.getTTL "x")] =
      [.done, .done, .keys ["x"], .ttl (some 1)] := by
  refine ((answersTo_concerns_iff twoCaches true (by decide +kernel)).mpr (by decide +kernel) {}
    _).trans ?_
  decide +kernel

/-- What the one clears with the prefix of its client put twice is what the other one stored. -/
example : ¬ ({ clientPrefix := some "x:", keyPrefix := "x:" } : RedisCacheAdapter).Apart
    { clientPrefix := some "x:", keyPrefix := "cache:" } := by
  decide +kernel

end Server

end Blaize.RedisCache
