import Mathlib.Data.List.MinMax
import Blaize.Cors.Transparency

/-!
The origin cache over whole runs (`createOriginCache`): a bounded map that forgets what has
expired, and for a new key the entry that was used least recently.

A run is the list of its calls, the latest first, each with the time of the clock.

* `CacheCall`, `cacheRun`: the calls, and the cache after them;
* `lruKey_spec`: the scan of `evictLRU` finds an entry whose last access is minimal;
* `get_call_of_sets`, `kept_call`: **what a call stores, and what it leaves of the rest**;
* `LastSet`, `Holds`: the last `set` of a key, and that neither an eviction nor `clear` undid it;
* `LastUse`: the last `get` or `set` of a key, which is what its entry is stamped with;
* `bounded_cacheRun`, `stored_cacheRun`, `used_cacheRun`, `held_cacheRun`: what every run keeps;
* `originCache_sound`: **the cache is bounded, never answers from an expired entry, answers from
  every other one, and evicts the least recently used**.
-/

namespace Blaize.Cors

/-! ### Calls -/

inductive CacheCall where
  | get (origin configOriginId : String) (userId : Option String)
  | set (origin : String) (allowed : Bool) (configOriginId : String) (userId : Option String)
  | cleanExpired
  | clear
  deriving DecidableEq

/-- A call with the time of the clock. -/
structure CacheEvent where
  call : CacheCall
  now : ℤ

/-- The key that a call sets, with its value. -/
def CacheEvent.sets (e : CacheEvent) : Option (String × Bool) :=
  match e.call with
  | .set origin allowed configOriginId userId =>
      some (getCacheKey origin configOriginId userId, allowed)
  | _ => none

/-- The key that a call gets or sets. -/
def CacheEvent.uses (e : CacheEvent) : Option String :=
  match e.call with
  | .get origin configOriginId userId => some (getCacheKey origin configOriginId userId)
  | .set origin _ configOriginId userId => some (getCacheKey origin configOriginId userId)
  | _ => none

namespace OriginCache

variable (c : OriginCache)

/-- `clear()`. -/
def clear : OriginCache := { c with cache := ∅ }

/-- The cache after a call. -/
def call (e : CacheEvent) : OriginCache :=
  match e.call with
  | .get origin configOriginId userId => (c.get (getCacheKey origin configOriginId userId) e.now).2
  | .set origin allowed configOriginId userId =>
      c.set (getCacheKey origin configOriginId userId) allowed e.now
  | .cleanExpired => c.cleanExpired e.now
  | .clear => c.clear

variable (origin configOriginId : String) (userId : Option String) (now : ℤ)

lemma call_get : c.call ⟨.get origin configOriginId userId, now⟩ =
    (c.get (getCacheKey origin configOriginId userId) now).2 := rfl

lemma call_set (allowed : Bool) : c.call ⟨.set origin allowed configOriginId userId, now⟩ =
    c.set (getCacheKey origin configOriginId userId) allowed now := rfl

lemma call_cleanExpired : c.call ⟨.cleanExpired, now⟩ = c.cleanExpired now := rfl

/-- Another key is set, and for it the entry of this one is removed. -/
def Evicts (e : CacheEvent) (key : String) : Prop :=
  (∃ other ∈ e.sets, other.1 ≠ key) ∧ c.cache.has key = true ∧ (c.call e).cache.has key = false

end OriginCache

/-- The cache after the calls, the latest of which come first. -/
def cacheRun (ttl maxSize : ℤ) : List CacheEvent → OriginCache
  | [] => { ttl, maxSize }
  | e :: earlier => (cacheRun ttl maxSize earlier).call e

/-! ### One call -/

namespace OriginCache

variable {c : OriginCache} {e : CacheEvent} {key k : String} {x : CacheEntry} {now : ℤ}

lemma getCacheKey_ne_empty (origin configOriginId : String) (userId : Option String) :
    getCacheKey origin configOriginId userId ≠ "" := by
  intro h
  have hlength := congrArg String.length h
  rw [getCacheKey] at hlength
  simp only [String.length_append] at hlength
  have hcolon : ":".length = 1 := rfl
  have hnone : "".length = 0 := rfl
  omega

/-- The first of the entries that were used least recently. -/
def leastRecent (entries : List (String × CacheEntry)) : Option (String × CacheEntry) :=
  entries.foldl (List.argAux fun b c => b.2.lastAccessed < c.2.lastAccessed) none

lemma lruKey_eq (entries : List (String × CacheEntry)) :
    lruKey entries = (leastRecent entries).map fun e => (e.1, e.2.lastAccessed) := by
  have hfold {older : Option (String × ℤ) → String × CacheEntry → Option (String × ℤ)}
      (hnone : ∀ e, older none e = some (e.1, e.2.lastAccessed))
      (hsome : ∀ key time e, older (some (key, time)) e =
        if e.2.lastAccessed < time then some (e.1, e.2.lastAccessed) else some (key, time))
      (entries : List (String × CacheEntry)) (first : Option (String × CacheEntry)) :
      entries.foldl older (first.map fun e => (e.1, e.2.lastAccessed)) =
      (entries.foldl (List.argAux fun b c => b.2.lastAccessed < c.2.lastAccessed) first).map
        fun e => (e.1, e.2.lastAccessed) := by
    induction entries generalizing first with
    | nil => rfl
    | cons e entries ih =>
        rw [List.foldl_cons, List.foldl_cons, ← ih]
        congr 1
        cases first with
        | none => exact hnone e
        | some f =>
            simp only [Option.map_some, List.argAux, hsome]
            split <;> rfl
  exact hfold (fun _ => rfl) (fun _ _ _ => rfl) entries none

/-- The scan finds an entry whose last access is minimal. -/
lemma lruKey_spec {time : ℤ} (h : lruKey c.cache.entries = some (key, time)) :
    ∃ x, c.cache.get key = some x ∧
      ∀ k y, c.cache.get k = some y → x.lastAccessed ≤ y.lastAccessed := by
  rw [lruKey_eq, Option.map_eq_some_iff] at h
  obtain ⟨⟨k, x⟩, hmin, hkey⟩ := h
  obtain ⟨rfl, -⟩ := Prod.mk.inj hkey
  have hargmin : c.cache.entries.argmin (fun e => e.2.lastAccessed) = some (k, x) := hmin
  refine ⟨x, (OrdMap.mem_entries_iff _).mp (List.argmin_mem hargmin), fun k' y hy => ?_⟩
  exact List.le_of_mem_argmin (f := fun e : String × CacheEntry => e.2.lastAccessed)
    ((OrdMap.mem_entries_iff _).mpr hy) hargmin

/-- It finds one unless there is none. -/
lemma lruKey_isSome (h : c.cache.entries ≠ []) : ∃ key time, lruKey c.cache.entries =
    some (key, time) := by
  rw [lruKey_eq]
  cases hmin : leastRecent c.cache.entries with
  | none =>
      have hargmin : c.cache.entries.argmin (fun e => e.2.lastAccessed) = none := hmin
      exact absurd (List.argmin_eq_none.mp hargmin) h
  | some e => exact ⟨_, _, rfl⟩

/-- What a lookup answers. -/
lemma get_answer : (c.get key now).1 =
    (c.cache.get key).bind fun x => if x.expiresAt < now then none else some x.allowed := by
  rw [OriginCache.get]
  split
  next hnone => rw [hnone, Option.bind_none]
  next x hx =>
      rw [hx, Option.bind_some]
      split <;> rfl

/-- What a lookup of a key leaves of it: the entry, if it has not expired, with its access. -/
lemma get_get_self : (c.get key now).2.cache.get key =
    (c.cache.get key).bind fun x =>
      if x.expiresAt < now then none else some { x with lastAccessed := now } := by
  rw [OriginCache.get]
  split
  next hnone => rw [hnone, Option.bind_none]
  next x hx =>
      rw [hx, Option.bind_some]
      split
      · exact (OrdMap.get_delete _ _ _).trans (if_pos rfl)
      · exact OrdMap.get_set_self _ _ _

lemma get_get_ne (h : key ≠ k) : (c.get key now).2.cache.get k = c.cache.get k := by
  rw [OriginCache.get]
  split
  · rfl
  · split
    · exact OrdMap.get_delete_ne _ h
    · exact OrdMap.get_set_ne _ _ h

lemma get_set_self (allowed : Bool) :
    (c.set key allowed now).cache.get key = some ⟨allowed, now + c.ttl, now⟩ := by
  rw [OriginCache.set]
  split
  · exact OrdMap.get_set_self _ _ _
  · exact OrdMap.get_set_self _ _ _

/-- What is behind another key stays, or is evicted. -/
lemma get_set_ne {allowed : Bool} (h : key ≠ k) :
    (c.set key allowed now).cache.get k = c.cache.get k ∨
      (c.set key allowed now).cache.get k = none := by
  cases hset : (c.set key allowed now).cache.get k with
  | none => exact .inr rfl
  | some y =>
      left
      rw [OriginCache.set] at hset
      split at hset
      · dsimp only at hset
        rw [OrdMap.get_set_ne _ _ h] at hset
        exact hset.symm
      · dsimp only at hset
        rw [OrdMap.get_set_ne _ _ h] at hset
        split at hset
        · exact (c.evictLRU_stored hset).symm
        · exact hset.symm

lemma get_cleanExpired : (c.cleanExpired now).cache.get k =
    (c.cache.get k).bind fun x => if x.expiresAt < now then none else some x := by
  rw [cleanExpired, OrdMap.get_foldl_delete]
  cases hx : c.cache.get k with
  | none => exact ite_self _
  | some x =>
      rw [Option.bind_some]
      refine if_congr ⟨fun hmem => ?_, fun hlt => ?_⟩ rfl rfl
      · obtain ⟨⟨k', y⟩, hy, rfl⟩ := List.mem_map.mp hmem
        obtain ⟨hentry, hlt⟩ := List.mem_filter.mp hy
        obtain rfl : y = x := Option.some.inj (((OrdMap.mem_entries_iff _).mp hentry).symm.trans hx)
        exact of_decide_eq_true hlt
      · refine List.mem_map.mpr ⟨(k, x), List.mem_filter.mpr ⟨?_, decide_eq_true hlt⟩, rfl⟩
        exact (OrdMap.mem_entries_iff _).mpr hx

/-- An entry that stays is the entry that was there, but for its last access. -/
def SameEntry (x y : CacheEntry) : Prop := y.allowed = x.allowed ∧ y.expiresAt = x.expiresAt

/-- What a call makes of a key that it does not set. -/
inductive Kept (c : OriginCache) (e : CacheEvent) (key : String) :
    Option CacheEntry → Option CacheEntry → Prop
  | absent : Kept c e key none none
  | same {x y : CacheEntry} (h : SameEntry x y) : Kept c e key (some x) (some y)
  | expired {x : CacheEntry} (h : x.expiresAt < e.now) : Kept c e key (some x) none
  | cleared {x : CacheEntry} (h : e.call = .clear) : Kept c e key (some x) none
  | evicted {x : CacheEntry} (h : c.Evicts e key) : Kept c e key (some x) none

/-- A key that is used has its entry stamped with the time of the call. -/
lemma lastAccessed_of_uses (h : e.uses = some key) (hx : (c.call e).cache.get key = some x) :
    x.lastAccessed = e.now := by
  obtain ⟨call, now⟩ := e
  cases call with
  | get origin configOriginId userId =>
      obtain rfl := Option.some.inj h
      rw [call_get, get_get_self, Option.bind_eq_some_iff] at hx
      obtain ⟨y, -, hx⟩ := hx
      split at hx
      next => cases hx
      next => exact Option.some.inj hx ▸ rfl
  | set origin allowed configOriginId userId =>
      obtain rfl := Option.some.inj h
      rw [call_set, get_set_self] at hx
      exact Option.some.inj hx ▸ rfl
  | cleanExpired => cases h
  | clear => cases h

/-- **An entry whose key is not used stays as it is**, if it stays. -/
lemma get_of_not_uses (h : e.uses ≠ some key) (hx : (c.call e).cache.get key = some x) :
    c.cache.get key = some x := by
  obtain ⟨call, now⟩ := e
  cases call with
  | get origin configOriginId userId =>
      rwa [call_get, get_get_ne fun heq => h (congrArg some heq)] at hx
  | set origin allowed configOriginId userId =>
      rw [call_set] at hx
      rcases @get_set_ne c _ key now allowed fun heq => h (congrArg some heq) with hsame | hnone
      · rwa [hsame] at hx
      · rw [hnone] at hx
        cases hx
  | cleanExpired =>
      rw [call_cleanExpired, get_cleanExpired, Option.bind_eq_some_iff] at hx
      obtain ⟨y, hy, hx⟩ := hx
      split at hx
      next => cases hx
      next => exact Option.some.inj hx ▸ hy
  | clear => cases hx

/-- What becomes of an entry that is looked at. -/
lemma kept_unexpired {f : CacheEntry → CacheEntry} (hf : ∀ x, SameEntry x (f x))
    (before : Option CacheEntry) :
    Kept c e key before
      (before.bind fun x => if x.expiresAt < e.now then none else some (f x)) := by
  cases before with
  | none => exact .absent
  | some x =>
      rw [Option.bind_some]
      split
      next h => exact .expired h
      next => exact .same (hf x)

lemma kept_refl (before : Option CacheEntry) : Kept c e key before before := by
  cases before with
  | none => exact .absent
  | some x => exact .same ⟨rfl, rfl⟩

/-- A key that is set has the value, and its time to live from now on. -/
lemma get_call_of_sets {v : Bool} (h : e.sets = some (key, v)) :
    (c.call e).cache.get key = some ⟨v, e.now + c.ttl, e.now⟩ := by
  obtain ⟨call, now⟩ := e
  cases call with
  | set origin allowed configOriginId userId =>
      obtain ⟨rfl, rfl⟩ := Prod.mk.inj (Option.some.inj h)
      exact get_set_self allowed
  | get => cases h
  | cleanExpired => cases h
  | clear => cases h

/-- **What a call does with a key that it does not set.** -/
theorem kept_call (h : ∀ v, e.sets ≠ some (key, v)) :
    Kept c e key (c.cache.get key) ((c.call e).cache.get key) := by
  obtain ⟨call, now⟩ := e
  cases call with
  | get origin configOriginId userId =>
      by_cases hkey : getCacheKey origin configOriginId userId = key
      · subst hkey
        rw [call_get, get_get_self]
        exact kept_unexpired (e := ⟨_, now⟩) (f := fun x => { x with lastAccessed := now })
          (fun _ => ⟨rfl, rfl⟩) _
      · rw [call_get, get_get_ne hkey]
        exact kept_refl _
  | set origin allowed configOriginId userId =>
      have hkey : getCacheKey origin configOriginId userId ≠ key := by
        rintro rfl
        exact h allowed rfl
      rcases @get_set_ne c _ key now allowed hkey with hsame | hnone
      · rw [call_set, hsame]
        exact kept_refl _
      · rw [call_set, hnone]
        cases hx : c.cache.get key with
        | none => exact .absent
        | some x =>
            refine .evicted ⟨⟨_, rfl, hkey⟩, ?_, ?_⟩
            · exact (OrdMap.has_iff _).mpr ⟨x, hx⟩
            · exact (OrdMap.has_eq_false_iff _).mpr hnone
  | cleanExpired =>
      rw [call_cleanExpired, get_cleanExpired]
      exact kept_unexpired (e := ⟨_, now⟩) (f := id) (fun _ => ⟨rfl, rfl⟩) _
  | clear =>
      cases c.cache.get key with
      | none => exact .absent
      | some x => exact .cleared rfl

/-! ### The size -/

/-- A full cache has room after an eviction. -/
lemma size_evictLRU (hempty : c.cache.get "" = none) (h : c.cache.entries ≠ []) :
    c.evictLRU.cache.size + 1 = c.cache.size := by
  obtain ⟨key, time, hlru⟩ := lruKey_isSome h
  obtain ⟨x, hx, -⟩ := lruKey_spec hlru
  have hne : key ≠ "" := by
    rintro rfl
    rw [hempty] at hx
    cases hx
  rw [evictLRU, hlru]
  dsimp only
  rw [if_neg hne]
  exact OrdMap.size_delete_of_get hx

lemma call_config (c : OriginCache) (e : CacheEvent) :
    (c.call e).ttl = c.ttl ∧ (c.call e).maxSize = c.maxSize := by
  have hevict : c.evictLRU.ttl = c.ttl ∧ c.evictLRU.maxSize = c.maxSize := by
    rw [evictLRU]
    split
    · split <;> exact ⟨rfl, rfl⟩
    · exact ⟨rfl, rfl⟩
  obtain ⟨call, now⟩ := e
  cases call with
  | get origin configOriginId userId =>
      rw [call_get, OriginCache.get]
      split
      · exact ⟨rfl, rfl⟩
      · split <;> exact ⟨rfl, rfl⟩
  | set origin allowed configOriginId userId =>
      rw [call_set, OriginCache.set]
      split
      · exact ⟨rfl, rfl⟩
      · dsimp only
        split
        · exact hevict
        · exact ⟨rfl, rfl⟩
  | cleanExpired => exact ⟨rfl, rfl⟩
  | clear => exact ⟨rfl, rfl⟩

lemma size_foldl_delete_le (keys : List String) (m : OrdMap String CacheEntry) :
    (keys.foldl OrdMap.delete m).size ≤ m.size := by
  induction keys generalizing m with
  | nil => exact le_rfl
  | cons key keys ih => exact (ih _).trans (m.size_delete_le key)

/-- A lookup adds no entry. -/
lemma size_get_le : (c.get key now).2.cache.size ≤ c.cache.size := by
  rw [OriginCache.get]
  split
  · exact le_rfl
  next x hx =>
      split
      · exact c.cache.size_delete_le key
      · refine (OrdMap.size_set _ _ _).le.trans_eq (if_pos ?_)
        exact (OrdMap.has_iff _).mpr ⟨x, hx⟩

/-- A store into a full cache is preceded by an eviction, unless the key is there. -/
lemma size_set_le_maxSize (hmax : 1 ≤ c.maxSize) (hempty : c.cache.get "" = none)
    (h : (c.cache.size : ℤ) ≤ c.maxSize) (allowed : Bool) :
    ((c.set key allowed now).cache.size : ℤ) ≤ c.maxSize := by
  rw [OriginCache.set]
  split
  next hhas =>
      rw [OrdMap.size_set, if_pos hhas]
      exact h
  next =>
      dsimp only
      split
      next hfull =>
          have hne : c.cache.entries ≠ [] := by
            intro hnil
            have hzero : c.cache.size = 0 := congrArg List.length hnil
            omega
          have hroom := size_evictLRU hempty hne
          have hadd := c.evictLRU.cache.size_set_le key ⟨allowed, now + c.ttl, now⟩
          omega
      next hroom =>
          have hadd := c.cache.size_set_le key ⟨allowed, now + c.ttl, now⟩
          omega

/-- What bounds a cache. -/
structure Bounded (c : OriginCache) : Prop where
  empty : c.cache.get "" = none
  size : (c.cache.size : ℤ) ≤ c.maxSize

lemma Bounded.call (hmax : 1 ≤ c.maxSize) (h : c.Bounded) (e : CacheEvent) :
    (c.call e).Bounded where
  empty := by
    have hkept : Kept c e "" (c.cache.get "") ((c.call e).cache.get "") := by
      refine kept_call fun v hsets => ?_
      obtain ⟨call, now⟩ := e
      cases call with
      | set origin allowed configOriginId userId =>
          exact getCacheKey_ne_empty origin configOriginId userId
            (Prod.mk.inj (Option.some.inj hsets)).1
      | get => cases hsets
      | cleanExpired => cases hsets
      | clear => cases hsets
    rw [h.empty] at hkept
    generalize (c.call e).cache.get "" = after at hkept
    cases hkept
    rfl
  size := by
    rw [(call_config c e).2]
    obtain ⟨call, now⟩ := e
    cases call with
    | get origin configOriginId userId =>
        exact (Int.ofNat_le.mpr size_get_le).trans h.size
    | set origin allowed configOriginId userId =>
        exact size_set_le_maxSize hmax h.empty h.size allowed
    | cleanExpired => exact (Int.ofNat_le.mpr (size_foldl_delete_le _ _)).trans h.size
    | clear => exact zero_le_one.trans hmax

/-- **An eviction removes an entry whose last access is minimal.** -/
lemma Evicts.minimal {e : CacheEvent} (h : c.Evicts e key) :
    ∃ x, c.cache.get key = some x ∧
      ∀ k y, c.cache.get k = some y → x.lastAccessed ≤ y.lastAccessed := by
  obtain ⟨⟨⟨other, v⟩, hsets, hne⟩, hhas, hgone⟩ := h
  obtain ⟨call, now⟩ := e
  cases call with
  | get => cases hsets
  | cleanExpired => cases hsets
  | clear => cases hsets
  | set origin allowed configOriginId userId =>
      obtain ⟨rfl, rfl⟩ := Prod.mk.inj (Option.some.inj hsets)
      rw [call_set, OriginCache.set] at hgone
      split at hgone
      · dsimp only at hgone
        rw [OrdMap.has_set, hhas, Bool.or_true] at hgone
        cases hgone
      · dsimp only at hgone
        rw [OrdMap.has_set, Bool.or_eq_false_iff] at hgone
        replace hgone := hgone.2
        split at hgone
        · rw [evictLRU] at hgone
          split at hgone
          next victim time hlru =>
              -- The only key that is gone is the one that the scan has found.
              split at hgone
              next => exact absurd (hhas.symm.trans hgone) (by decide)
              next =>
                  rw [OrdMap.has_delete, hhas, Bool.and_true, Bool.not_eq_false',
                    decide_eq_true_eq] at hgone
                  exact hgone ▸ lruKey_spec hlru
          next => exact absurd (hhas.symm.trans hgone) (by decide)
        · exact absurd (hhas.symm.trans hgone) (by decide)

end OriginCache

/-! ### Runs -/

/-- The last `set` of a key, with its value and its time. -/
inductive LastSet : List CacheEvent → String → Bool → ℤ → Prop
  | set {earlier : List CacheEvent} {e : CacheEvent} {key : String} {v : Bool}
      (h : e.sets = some (key, v)) : LastSet (e :: earlier) key v e.now
  | later {earlier : List CacheEvent} {e : CacheEvent} {key : String} {v : Bool} {t : ℤ}
      (h : LastSet earlier key v t) (hother : ∀ v', e.sets ≠ some (key, v')) :
      LastSet (e :: earlier) key v t

/-- The last `set` of a key, which neither an eviction nor `clear` has undone since. -/
inductive Holds (ttl maxSize : ℤ) : List CacheEvent → String → Bool → ℤ → Prop
  | set {earlier : List CacheEvent} {e : CacheEvent} {key : String} {v : Bool}
      (h : e.sets = some (key, v)) : Holds ttl maxSize (e :: earlier) key v e.now
  | later {earlier : List CacheEvent} {e : CacheEvent} {key : String} {v : Bool} {t : ℤ}
      (h : Holds ttl maxSize earlier key v t) (hother : ∀ v', e.sets ≠ some (key, v'))
      (hclear : e.call ≠ .clear) (hevict : ¬ (cacheRun ttl maxSize earlier).Evicts e key) :
      Holds ttl maxSize (e :: earlier) key v t

/-- The last `get` or `set` of a key, with its time. -/
inductive LastUse : List CacheEvent → String → ℤ → Prop
  | use {earlier : List CacheEvent} {e : CacheEvent} {key : String} (h : e.uses = some key) :
      LastUse (e :: earlier) key e.now
  | later {earlier : List CacheEvent} {e : CacheEvent} {key : String} {t : ℤ}
      (h : LastUse earlier key t) (hother : e.uses ≠ some key) : LastUse (e :: earlier) key t

section

variable {ttl maxSize : ℤ} {history : List CacheEvent} {key : String} {v : Bool} {t : ℤ}

lemma cacheRun_config (ttl maxSize : ℤ) (history : List CacheEvent) :
    (cacheRun ttl maxSize history).ttl = ttl ∧
      (cacheRun ttl maxSize history).maxSize = maxSize := by
  induction history with
  | nil => exact ⟨rfl, rfl⟩
  | cons e earlier ih =>
      obtain ⟨httl, hmax⟩ := OriginCache.call_config (cacheRun ttl maxSize earlier) e
      exact ⟨httl.trans ih.1, hmax.trans ih.2⟩

lemma bounded_cacheRun (hmax : 1 ≤ maxSize) (history : List CacheEvent) :
    (cacheRun ttl maxSize history).Bounded := by
  induction history with
  | nil => exact ⟨rfl, zero_le_one.trans hmax⟩
  | cons e earlier ih =>
      exact OriginCache.Bounded.call ((cacheRun_config ttl maxSize earlier).2.symm ▸ hmax) ih e

/-- An entry is that of the last `set` of its key. -/
lemma stored_cacheRun {x : CacheEntry} (h : (cacheRun ttl maxSize history).cache.get key = some x) :
    ∃ t, LastSet history key x.allowed t ∧ x.expiresAt = t + ttl := by
  induction history generalizing x with
  | nil => cases h
  | cons e earlier ih =>
      by_cases hsets : ∃ v, e.sets = some (key, v)
      · obtain ⟨v, hsets⟩ := hsets
        have hget := OriginCache.get_call_of_sets (c := cacheRun ttl maxSize earlier) hsets
        obtain rfl := Option.some.inj (hget.symm.trans h)
        exact ⟨e.now, .set hsets, by rw [(cacheRun_config ttl maxSize earlier).1]⟩
      · have hother := not_exists.mp hsets
        have hkept := OriginCache.kept_call (c := cacheRun ttl maxSize earlier) hother
        rw [show ((cacheRun ttl maxSize earlier).call e).cache.get key = some x from h] at hkept
        generalize hbefore : (cacheRun ttl maxSize earlier).cache.get key = before at hkept
        cases hkept with
        | same hsame =>
            obtain ⟨t, hlast, hexpires⟩ := ih hbefore
            exact ⟨t, hsame.1 ▸ hlast.later hother, hsame.2.trans hexpires⟩

/-- **An entry is stamped with the last use of its key**, a hit as much as a `set`. -/
lemma used_cacheRun {x : CacheEntry} (h : (cacheRun ttl maxSize history).cache.get key = some x) :
    LastUse history key x.lastAccessed := by
  induction history generalizing x with
  | nil => cases h
  | cons e earlier ih =>
      by_cases huses : e.uses = some key
      · rw [OriginCache.lastAccessed_of_uses (c := cacheRun ttl maxSize earlier) huses h]
        exact .use huses
      · exact (ih (OriginCache.get_of_not_uses huses h)).later huses

/-- What holds is there, unless its time was over at some call. -/
lemma held_cacheRun (h : Holds ttl maxSize history key v t) :
    (∃ x, (cacheRun ttl maxSize history).cache.get key = some x ∧ x.allowed = v ∧
      x.expiresAt = t + ttl) ∨ ∃ e ∈ history, t + ttl < e.now := by
  induction h with
  | @set earlier e key v hsets =>
      have hget := OriginCache.get_call_of_sets (c := cacheRun ttl maxSize earlier) hsets
      exact .inl ⟨_, hget, rfl, by rw [(cacheRun_config ttl maxSize earlier).1]⟩
  | @later earlier e key v t _ hother hclear hevict ih =>
      rcases ih with ⟨x, hx, hallowed, hexpires⟩ | ⟨e', he', hlt⟩
      · have hkept := OriginCache.kept_call (c := cacheRun ttl maxSize earlier) hother
        rw [hx] at hkept
        generalize hafter : ((cacheRun ttl maxSize earlier).call e).cache.get key = after at hkept
        cases hkept with
        | same hsame =>
            exact .inl ⟨_, hafter, hsame.1.trans hallowed, hsame.2.trans hexpires⟩
        | expired hlt => exact .inr ⟨e, List.mem_cons_self, hexpires ▸ hlt⟩
        | cleared h => exact absurd h hclear
        | evicted h => exact absurd h hevict
      · exact .inr ⟨e', List.mem_cons_of_mem _ he', hlt⟩

end

/-- **After every run of calls the cache is bounded, a lookup answers only with the last value
that was set, at most `ttl` before, and does answer with it unless it was evicted or cleared, every
entry is stamped with the last use of its key, and the entry that a call evicts is one whose last
access is minimal.** -/
theorem originCache_sound (ttl : ℤ) {maxSize : ℤ} (hmax : 1 ≤ maxSize)
    (history : List CacheEvent) :
    let c := cacheRun ttl maxSize history
    (c.cache.size : ℤ) ≤ maxSize ∧
      (∀ key now v, (c.get key now).1 = some v →
        ∃ t, LastSet history key v t ∧ now - t ≤ ttl) ∧
      (∀ key now v t, (∀ e ∈ history, e.now ≤ now) → Holds ttl maxSize history key v t →
        now - t ≤ ttl → (c.get key now).1 = some v) ∧
      (∀ key x, c.cache.get key = some x → LastUse history key x.lastAccessed) ∧
      ∀ e key, c.Evicts e key → ∃ x, c.cache.get key = some x ∧
        ∀ k y, c.cache.get k = some y → x.lastAccessed ≤ y.lastAccessed := by
  intro c
  refine ⟨?_, fun key now v hanswer => ?_, fun key now v t hclock hholds hfresh => ?_,
    fun key x hx => used_cacheRun hx, fun e key hevicts => hevicts.minimal⟩
  · exact (cacheRun_config ttl maxSize history).2 ▸ (bounded_cacheRun hmax history).size
  · rw [OriginCache.get_answer, Option.bind_eq_some_iff] at hanswer
    obtain ⟨x, hx, hx'⟩ := hanswer
    split at hx'
    next => cases hx'
    next hlive =>
        obtain ⟨t, hlast, hexpires⟩ := stored_cacheRun hx
        exact ⟨t, Option.some.inj hx' ▸ hlast, by omega⟩
  · rcases held_cacheRun hholds with ⟨x, hx, hallowed, hexpires⟩ | ⟨e, he, hlt⟩
    · rw [OriginCache.get_answer, show c.cache.get key = some x from hx, Option.bind_some,
        if_neg (by omega), hallowed]
    · have hnow := hclock e he
      omega

/-- A read between two stores: `a` is stored before `b`, and looked up after it. -/
def readBetween : List CacheEvent :=
  [⟨.get "a" "str:a" none, 2⟩, ⟨.set "b" false "str:b" none, 1⟩, ⟨.set "a" true "str:a" none, 0⟩]

/-- The cache of two entries then evicts `b` for a third key. -/
theorem originCache_sound_readBetween :
    ∃ x, (cacheRun 10 2 readBetween).cache.get (getCacheKey "b" "str:b" none) = some x ∧
      LastUse readBetween (getCacheKey "b" "str:b" none) x.lastAccessed ∧
      ∀ k y, (cacheRun 10 2 readBetween).cache.get k = some y →
        x.lastAccessed ≤ y.lastAccessed := by
  obtain ⟨-, -, -, hused, hevicted⟩ := @originCache_sound 10 2 (by decide) readBetween
  obtain ⟨x, hx, hminimal⟩ := hevicted ⟨.set "c" true "str:c" none, 3⟩
    (getCacheKey "b" "str:b" none) ⟨⟨_, rfl, by decide⟩, by decide, by decide⟩
  exact ⟨x, hx, hused _ _ hx, hminimal⟩

end Blaize.Cors
