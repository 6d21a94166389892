import Mathlib.Data.List.MinMax
import Blaize.Lib.RedisStrings

/-!
The cache over Redis (`adapters/redis/src/cache-adapter.ts`) and its two prefixes.

The adapter puts its own `keyPrefix` before every key.  The client library puts the `keyPrefix`
of the client before the names of `GET`, `SET`, `SETEX` and `DEL`, but neither before the
pattern of `KEYS` nor before the names that `KEYS` answers with.  `keys` and `clear` put the
second one before the pattern themselves, but then `keys` takes only the first one away, and
`clear` has the second one put before the names once more.

* `RedisCacheAdapter`: the adapter with its server;
* `get`, `set`, `delete`, `keys`, `clear`: its methods;
* `logicalKeys`: what the callers have stored and not deleted;
* `KeysAreLogical`: `keys` answers with these, `clear` counts and removes them;
* `keysAreLogical_iff`: **this is so exactly without a prefix of the client, or without a key**.
-/

namespace Blaize.RedisCache

/-! ### The adapter -/

/-- The counters of an adapter. -/
structure CacheStats where
  hits : ℕ := 0
  misses : ℕ := 0
  evictions : ℕ := 0
  deriving DecidableEq, Repr

/-- The adapter with the prefix of its client and the strings of the server. -/
structure RedisCacheAdapter where
  clientPrefix : Option String := none
  keyPrefix : String := "cache:"
  isConnected : Bool := false
  stats : CacheStats := {}
  db : Redis.Strings := {}

/-- The error of a call without a connection. -/
def notConnected : String := "Adapter not connected. Call connect() first."

namespace RedisCacheAdapter

variable (a : RedisCacheAdapter)

/-- The key that is given to the client. -/
def buildKey (key : String) : String := a.keyPrefix ++ key

/-- The name that the client library sends. -/
def sent (name : String) : String := a.clientPrefix.getD "" ++ name

/-- `adapter.get(key)` -/
def get (key : String) : Except String (Option String × RedisCacheAdapter) :=
  if a.isConnected then
    match a.db.get (a.sent (a.buildKey key)) with
    | none => .ok (none, { a with stats := { a.stats with misses := a.stats.misses + 1 } })
    | some value =>
        .ok (some value, { a with stats := { a.stats with hits := a.stats.hits + 1 } })
  else
    .error notConnected

/-- `adapter.set(key, value, ttl)` -/
def set (key value : String) (ttl : Option ℤ) : Except String RedisCacheAdapter :=
  if a.isConnected then
    match ttl with
    | some ttl =>
        if 0 < ttl then .ok { a with db := a.db.setex (a.sent (a.buildKey key)) ttl value }
        else .ok { a with db := a.db.set (a.sent (a.buildKey key)) value }
    | none => .ok { a with db := a.db.set (a.sent (a.buildKey key)) value }
  else
    .error notConnected

/-- `adapter.delete(key)` -/
def delete (key : String) : Except String (Bool × RedisCacheAdapter) :=
  if a.isConnected then
    let result := a.db.del [a.sent (a.buildKey key)]
    let deleted : Bool := 0 < result.1
    .ok (deleted, { a with
      stats := if deleted then { a.stats with evictions := a.stats.evictions + 1 } else a.stats
      db := result.2 })
  else
    .error notConnected

/-- `fullKey.startsWith(this.keyPrefix) ? fullKey.slice(this.keyPrefix.length) : fullKey`. -/
def strip (fullKey : String) : String :=
  if a.keyPrefix.toList.isPrefixOf fullKey.toList then
    String.ofList (fullKey.toList.drop a.keyPrefix.length)
  else
    fullKey

/-- The pattern that is sent, with both prefixes in front. -/
def fullSearchPattern (pattern : String) : String :=
  a.clientPrefix.getD "" ++ a.keyPrefix ++ pattern

/-- `adapter.keys(pattern)` -/
def keys (pattern : String) : Except String (List String) :=
  if a.isConnected then .ok ((a.db.keys (a.fullSearchPattern pattern)).map a.strip)
  else .error notConnected

/-- `adapter.clear(pattern)` -/
def clear (pattern : String) : Except String (ℕ × RedisCacheAdapter) :=
  if a.isConnected then
    let fullKeys := a.db.keys (a.fullSearchPattern pattern)
    if fullKeys.length = 0 then
      .ok (0, a)
    else
      let result := a.db.del (fullKeys.map a.sent)
      .ok (result.1, { a with
        stats := { a.stats with evictions := a.stats.evictions + result.1 }
        db := result.2 })
  else
    .error notConnected

/-! ### What the callers have stored -/

/-- A call that changes what is stored. -/
inductive Call where
  | set (key value : String) (ttl : Option ℤ)
  | delete (key : String)
  deriving DecidableEq, Repr

/-- What such a call does. -/
def call : RedisCacheAdapter → Call → Except String RedisCacheAdapter
  | a, .set key value ttl => a.set key value ttl
  | a, .delete key => (a.delete key).map Prod.snd

/-- The keys after a call. -/
def keysAfter (K : List String) : Call → List String
  | .set key _ _ => if key ∈ K then K else K ++ [key]
  | .delete key => K.filter (· ≠ key)

/-- The keys that are there after some calls. -/
def logicalKeys (calls : List Call) : List String := calls.foldl keysAfter []

/-- **`keys` answers with the logical keys, `clear` with their number, and none is left.** -/
def KeysAreLogical (K : List String) : Prop :=
  (∃ found, a.keys "*" = .ok found ∧ found.Perm K) ∧
    ∃ cleared, a.clear "*" = .ok (K.length, cleared) ∧
      ∀ key ∈ K, ∃ a', cleared.get key = .ok (none, a')

/-- A prefix without the metacharacters of patterns. -/
def Plain (text : String) : Prop := ∀ c ∈ text.toList, c ∉ Redis.metacharacters

instance (text : String) : Decidable (Plain text) :=
  inferInstanceAs (Decidable (∀ c ∈ text.toList, c ∉ Redis.metacharacters))

/-! ### Names -/

/-- The name of a key in Redis. -/
def name (key : String) : String := a.sent (a.buildKey key)

variable {a}

lemma toList_name (key : String) :
    (a.name key).toList = (a.clientPrefix.getD "" ++ a.keyPrefix).toList ++ key.toList := by
  simp [name, sent, buildKey]

lemma name_inj {key key' : String} : a.name key = a.name key' ↔ key = key' := by
  constructor
  · intro h
    have hlists := congrArg String.toList h
    rw [toList_name, toList_name] at hlists
    exact String.toList_inj.mp (List.append_cancel_left hlists)
  · rintro rfl
    rfl

/-- The names with both prefixes are those of the keys. -/
lemma exists_name_iff {name : String} :
    (a.clientPrefix.getD "" ++ a.keyPrefix).toList <+: name.toList ↔ ∃ key, name = a.name key := by
  constructor
  · rintro ⟨rest, hrest⟩
    refine ⟨String.ofList rest, String.toList_inj.mp ?_⟩
    rw [toList_name, ← hrest, String.toList_ofList]
  · rintro ⟨key, rfl⟩
    rw [toList_name]
    exact List.prefix_append _ _

/-- Without a prefix of the client the prefix of the adapter is all that has to be taken away. -/
lemma strip_name (h : a.clientPrefix.getD "" = "") (key : String) : a.strip (a.name key) = key := by
  have hname : (a.name key).toList = a.keyPrefix.toList ++ key.toList := by
    rw [toList_name, h]
    simp
  rw [strip, hname, if_pos (List.isPrefixOf_iff_prefix.mpr (List.prefix_append _ _)),
    ← String.length_toList, List.drop_left, String.ofList_toList]

/-- With one, what `keys` answers for a key is longer than the key. -/
lemma length_lt_strip_name (h : a.clientPrefix.getD "" ≠ "") (key : String) :
    key.length < (a.strip (a.name key)).length := by
  have hlength : (a.name key).toList.length =
      (a.clientPrefix.getD "").length + a.keyPrefix.length + key.length := by
    rw [toList_name, List.length_append, String.length_toList, String.length_toList,
      String.length_append]
  have hpos : 0 < (a.clientPrefix.getD "").length := by
    rw [Nat.pos_iff_ne_zero, ← String.length_toList, Ne, List.length_eq_zero_iff]
    exact fun hnil => h (String.toList_inj.mp hnil)
  rw [strip]
  split
  · rw [← String.length_toList (s := String.ofList _), String.toList_ofList, List.length_drop,
      hlength]
    omega
  · rw [← String.length_toList (s := a.name key), hlength]
    omega

/-! ### What is stored -/

/-- The names with both prefixes are those of the keys `K`. -/
structure Stores (a : RedisCacheAdapter) (K : List String) : Prop where
  isConnected : a.isConnected = true
  mem : ∀ key, (a.db.get (a.name key)).isSome ↔ key ∈ K
  nodup : K.Nodup

lemma Stores.set {K : List String} (h : a.Stores K) (key value : String) (ttl : Option ℤ) :
    ∃ a', a.set key value ttl = .ok a' ∧ a'.clientPrefix = a.clientPrefix ∧
      a'.keyPrefix = a.keyPrefix ∧ a'.Stores (keysAfter K (.set key value ttl)) := by
  have hstores (db : Redis.Strings)
      (hdb : ∀ other, db.get (a.name other) =
        if a.name key = a.name other then some value else a.db.get (a.name other)) :
      Stores { a with db := db } (keysAfter K (.set key value ttl)) := by
    refine ⟨h.isConnected, fun other => ?_, ?_⟩
    · have hmem : other ∈ keysAfter K (.set key value ttl) ↔ key = other ∨ other ∈ K := by
        rw [keysAfter]
        split
        next hkey => exact ⟨Or.inr, fun h => h.elim (fun e => e ▸ hkey) id⟩
        next => simp [or_comm, eq_comm]
      have hget : db.get (name { a with db := db } other) =
          if a.name key = a.name other then some value else a.db.get (a.name other) := hdb other
      rw [hmem, hget]
      by_cases heq : key = other
      · simp [heq]
      · rw [if_neg (fun e => heq (name_inj.mp e)), h.mem, or_iff_right heq]
    · rw [keysAfter]
      split
      next => exact h.nodup
      next hkey =>
          exact List.nodup_append.mpr ⟨h.nodup, List.nodup_singleton _, by
            rintro x hx y hy rfl
            exact hkey (List.mem_singleton.mp hy ▸ hx)⟩
  rw [RedisCacheAdapter.set.eq_def, if_pos h.isConnected]
  split
  next ttl =>
      split
      · exact ⟨_, rfl, rfl, rfl, hstores _ fun other => Redis.Strings.get_setex _ _ _ _⟩
      · exact ⟨_, rfl, rfl, rfl, hstores _ fun other => Redis.Strings.get_set _ _ _⟩
  next => exact ⟨_, rfl, rfl, rfl, hstores _ fun other => Redis.Strings.get_set _ _ _⟩

lemma Stores.delete {K : List String} (h : a.Stores K) (key : String) :
    ∃ result, a.delete key = .ok result ∧ result.2.clientPrefix = a.clientPrefix ∧
      result.2.keyPrefix = a.keyPrefix ∧ result.2.Stores (keysAfter K (.delete key)) := by
  rw [RedisCacheAdapter.delete, if_pos h.isConnected]
  refine ⟨_, rfl, rfl, rfl, h.isConnected, fun other => ?_, h.nodup.filter _⟩
  have hget := @Redis.Strings.get_del a.db [a.name key] (a.name other)
  simp only [List.mem_singleton, name_inj] at hget
  have hmem : other ∈ keysAfter K (.delete key) ↔ other ∈ K ∧ other ≠ key := by simp [keysAfter]
  rw [hmem]
  show ((a.db.del [a.name key]).2.get (a.name other)).isSome ↔ _
  rw [hget]
  by_cases heq : other = key
  · simp [heq]
  · rw [if_neg heq, h.mem, and_iff_left heq]

lemma Stores.call {K : List String} (h : a.Stores K) (c : Call) :
    ∃ a', a.call c = .ok a' ∧ a'.clientPrefix = a.clientPrefix ∧ a'.keyPrefix = a.keyPrefix ∧
      a'.Stores (keysAfter K c) := by
  cases c with
  | set key value ttl => exact h.set key value ttl
  | delete key =>
      obtain ⟨result, hresult, hrest⟩ := h.delete key
      exact ⟨result.2, by rw [RedisCacheAdapter.call, hresult]; rfl, hrest⟩

/-- **After any calls the names in Redis are those of the logical keys.** -/
lemma Stores.calls {K : List String} (h : a.Stores K) (calls : List Call) :
    ∃ a', calls.foldlM RedisCacheAdapter.call a = .ok a' ∧ a'.clientPrefix = a.clientPrefix ∧
      a'.keyPrefix = a.keyPrefix ∧ a'.Stores (calls.foldl keysAfter K) := by
  induction calls generalizing a K with
  | nil => exact ⟨a, rfl, rfl, rfl, h⟩
  | cons c calls ih =>
      obtain ⟨a₁, hcall, hclient, hkey, h₁⟩ := h.call c
      obtain ⟨a', hcalls, hclient', hkey', h'⟩ := ih h₁
      refine ⟨a', ?_, hclient'.trans hclient, hkey'.trans hkey, h'⟩
      rw [List.foldlM_cons, hcall]
      exact hcalls

/-- A name that is not there is a miss. -/
lemma get_of_none {key : String} (h : a.isConnected = true) (hget : a.db.get (a.name key) = none) :
    ∃ a', a.get key = .ok (none, a') := by
  rw [name] at hget
  rw [RedisCacheAdapter.get, if_pos h, hget]
  exact ⟨_, rfl⟩

/-! ### `keys` and `clear` -/

/-- What `KEYS` answers with. -/
lemma Stores.mem_fullKeys {K : List String} (h : a.Stores K)
    (hplain : Plain (a.clientPrefix.getD "" ++ a.keyPrefix)) {n : String} :
    n ∈ a.db.keys (a.fullSearchPattern "*") ↔ ∃ key ∈ K, n = a.name key := by
  rw [fullSearchPattern, Redis.Strings.mem_keys_literal_star hplain, exists_name_iff]
  constructor
  · rintro ⟨⟨key, rfl⟩, hget⟩
    exact ⟨key, (h.mem key).mp hget, rfl⟩
  · rintro ⟨key, hkey, rfl⟩
    exact ⟨⟨key, rfl⟩, (h.mem key).mpr hkey⟩

lemma Stores.fullKeys_perm {K : List String} (h : a.Stores K)
    (hplain : Plain (a.clientPrefix.getD "" ++ a.keyPrefix)) :
    (a.db.keys (a.fullSearchPattern "*")).Perm (K.map a.name) := by
  have hinj : Function.Injective a.name := fun _ _ => name_inj.mp
  refine (List.perm_ext_iff_of_nodup (Redis.Strings.nodup_keys _) (h.nodup.map hinj)).mpr ?_
  intro n
  rw [h.mem_fullKeys hplain, List.mem_map]
  exact exists_congr fun key => and_congr_right fun _ => eq_comm

/-- Without a prefix of the client every key is found under its own name. -/
lemma Stores.keysAreLogical_of_noPrefix {K : List String} (h : a.Stores K)
    (hplain : Plain (a.clientPrefix.getD "" ++ a.keyPrefix)) (hnone : a.clientPrefix.getD "" = "") :
    a.KeysAreLogical K := by
  have hperm := h.fullKeys_perm hplain
  refine ⟨⟨_, if_pos h.isConnected, ?_⟩, ?_⟩
  · have hstrip : (K.map a.name).map a.strip = K := by
      rw [List.map_map]
      exact (List.map_congr_left fun key _ => strip_name hnone key).trans K.map_id
    have hfound := hperm.map a.strip
    rwa [hstrip] at hfound
  · have hsent : (a.db.keys (a.fullSearchPattern "*")).map a.sent =
        a.db.keys (a.fullSearchPattern "*") := by
      refine (List.map_congr_left fun n _ => ?_).trans (List.map_id _)
      rw [sent, hnone]
      simp
    have hlength : (a.db.keys (a.fullSearchPattern "*")).length = K.length := by
      rw [hperm.length_eq, List.length_map]
    have hget (key : String) (hkey : key ∈ K) :
        (a.db.del (a.db.keys (a.fullSearchPattern "*"))).2.get (a.name key) = none := by
      rw [Redis.Strings.get_del, if_pos ((h.mem_fullKeys hplain).mpr ⟨key, hkey, rfl⟩)]
    rw [clear, if_pos h.isConnected]
    dsimp only
    rw [hsent]
    split
    next hempty =>
        rw [hlength] at hempty
        obtain rfl := List.length_eq_zero_iff.mp hempty
        exact ⟨a, rfl, nofun⟩
    next =>
        have hcount : (a.db.del (a.db.keys (a.fullSearchPattern "*"))).1 = K.length := by
          rw [Redis.Strings.del_fst (Redis.Strings.nodup_keys _), hlength]
          intro n hn
          obtain ⟨key, hkey, rfl⟩ := (h.mem_fullKeys hplain).mp hn
          exact (h.mem key).mpr hkey
        refine ⟨_, by rw [hcount], fun key hkey => ?_⟩
        exact get_of_none h.isConnected (hget key hkey)

/-- Without keys nothing is found, and nothing is removed. -/
lemma Stores.keysAreLogical_of_nil (h : a.Stores [])
    (hplain : Plain (a.clientPrefix.getD "" ++ a.keyPrefix)) : a.KeysAreLogical [] := by
  have hempty : a.db.keys (a.fullSearchPattern "*") = [] := (h.fullKeys_perm hplain).eq_nil
  refine ⟨⟨_, if_pos h.isConnected, ?_⟩, a, ?_, nofun⟩
  · rw [hempty]
    exact List.Perm.refl _
  · rw [clear, if_pos h.isConnected, hempty]
    rfl

lemma exists_longest {K : List String} (h : K ≠ []) :
    ∃ key ∈ K, ∀ other ∈ K, other.length ≤ key.length := by
  obtain ⟨key, hkey⟩ := Option.ne_none_iff_exists'.mp
    (mt (List.argmax_eq_none (f := String.length)).mp h)
  exact ⟨key, List.argmax_mem hkey, fun _ hother => List.le_of_mem_argmax hother hkey⟩

/-- **The keys of Redis are the logical keys exactly if the client has no prefix**, or if there
is no key: from a connected adapter without a name under its prefixes, after any calls. -/
theorem keysAreLogical_iff (a : RedisCacheAdapter) (hconnected : a.isConnected = true)
    (hclient : Plain (a.clientPrefix.getD "")) (hkey : Plain a.keyPrefix)
    (hfresh : ∀ key, a.db.get (a.name key) = none) (calls : List Call) :
    ∃ a', calls.foldlM call a = .ok a' ∧
      (a'.KeysAreLogical (logicalKeys calls) ↔
        a.clientPrefix.getD "" = "" ∨ logicalKeys calls = []) := by
  have hinit : a.Stores [] := ⟨hconnected, fun key => by simp [hfresh key], List.nodup_nil⟩
  obtain ⟨a', hcalls, hclient', hkey', h⟩ := hinit.calls calls
  have hplain : Plain (a'.clientPrefix.getD "" ++ a'.keyPrefix) := by
    rw [hclient', hkey']
    intro c hc
    rw [String.toList_append, List.mem_append] at hc
    exact hc.elim (hclient c) (hkey c)
  refine ⟨a', hcalls, ?_⟩
  rw [← hclient']
  constructor
  · rintro ⟨⟨found, hfound, hperm⟩, -⟩
    by_contra! hne
    -- a longest key is answered as a name that is longer than all keys
    obtain ⟨key, hmem, hmax⟩ := exists_longest hne.2
    rw [keys, if_pos h.isConnected] at hfound
    obtain rfl := Except.ok.inj hfound
    have hname : a'.strip (a'.name key) ∈ logicalKeys calls :=
      hperm.subset (List.mem_map_of_mem ((h.mem_fullKeys hplain).mpr ⟨key, hmem, rfl⟩))
    exact absurd (hmax _ hname) (Nat.not_le.mpr (length_lt_strip_name hne.1 key))
  · rintro (hnone | hnil)
    · exact h.keysAreLogical_of_noPrefix hplain hnone
    · rw [hnil]
      exact Stores.keysAreLogical_of_nil (hnil ▸ h) hplain

/-- Without a prefix of the client two keys are found, counted and removed. -/
theorem keysAreLogical_two :
    ∃ a', [Call.set "x" "1" none, .set "ax" "2" (some 5)].foldlM call { isConnected := true } =
        .ok a' ∧ a'.KeysAreLogical ["x", "ax"] := by
  obtain ⟨a', hcalls, hiff⟩ := keysAreLogical_iff { isConnected := true } rfl (by decide)
    (by decide +kernel) (fun _ => rfl) [.set "x" "1" none, .set "ax" "2" (some 5)]
  exact ⟨a', hcalls, hiff.mpr (Or.inl rfl)⟩

/-- With a prefix of the client `keys` answers with the name in Redis. -/
theorem not_keysAreLogical :
    ¬ ∀ a : RedisCacheAdapter, a.isConnected = true → Plain (a.clientPrefix.getD "") →
      Plain a.keyPrefix → (∀ key, a.db.get (a.name key) = none) → ∀ (calls : List Call) a',
        calls.foldlM call a = .ok a' → a'.KeysAreLogical (logicalKeys calls) := by
  intro h
  obtain ⟨⟨found, hfound, hperm⟩, -⟩ := h
    { clientPrefix := some "app:", isConnected := true } rfl (by decide +kernel) (by decide +kernel)
    (fun _ => rfl) [.set "x" "1" none] _ rfl
  obtain rfl := Except.ok.inj hfound
  revert hperm
  decide +kernel

end RedisCacheAdapter

end Blaize.RedisCache
