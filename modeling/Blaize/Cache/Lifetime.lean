import Mathlib.Algebra.Order.Floor.Semiring
import Blaize.Cache.Lru

/-!
How long the in-memory cache keeps an entry.

`set` decides this twice: it stores a deadline, which `get` compares with the clock, and it
starts a timer that deletes the key.  The deadline is exact.  The delay of a timer is not: what
is not between 1 and `2 ^ 31 - 1` counts as 1, and a fraction of a millisecond is dropped.

* `Clocked`: the adapter with the clock readings from which on its timers may fire;
* `Kept`: what happens to a key as long as it is neither deleted nor evicted;
* `Alive`: the entry until its deadline, kept by every step that leaves the key alone
  (`step_alive`);
* `livesFor_iff_fits`: **an entry lives for its TTL exactly if the cache has room for an entry and
  the delay of the timer is not shorter than the TTL**.
-/

namespace Blaize.Cache

open Machine

/-! ### Timers with a delay -/

/-- The delay that `setTimeout` works with. -/
def timeoutDelay (delay : ℚ) : ℕ := if 1 ≤ delay ∧ delay ≤ 2 ^ 31 - 1 then ⌊delay⌋₊ else 1

/-- The adapter and, for every timer, the first clock reading at which it may fire. -/
structure Clocked where
  adapter : MemoryAdapter
  due : OrdMap ℕ ℕ := ∅

namespace Clocked

variable {config : MemoryAdapterConfig} {c c' : Clocked} {key : String}

/-- The timers after a `set`: a timer is due once its delay has passed. -/
def schedule (config : MemoryAdapterConfig) (c : Clocked) (ttl : Option ℚ) : OrdMap ℕ ℕ :=
  match MemoryAdapter.effectiveTtl config ttl with
  | none => c.due
  | some effective =>
      if 0 < effective then
        c.due.set c.adapter.sets (c.adapter.now + timeoutDelay (effective * 1000))
      else c.due

/-- Whether a timer may fire. -/
def IsDue (c : Clocked) (timer : ℕ) : Prop := ∃ d, c.due.get timer = some d ∧ d ≤ c.adapter.now

instance (c : Clocked) (timer : ℕ) : Decidable (c.IsDue timer) :=
  match h : c.due.get timer with
  | none => .isFalse fun ⟨_, hd, _⟩ => by rw [h] at hd; cases hd
  | some d => decidable_of_iff (d ≤ c.adapter.now)
      ⟨fun hle => ⟨d, h, hle⟩, fun ⟨d', hd, hle⟩ => by rw [h] at hd; cases hd; exact hle⟩

/-- One action of the adapter, whose timers do not fire early. -/
def step (config : MemoryAdapterConfig) (c : Clocked) (a : MemoryAdapter.Action) :
    Option Clocked :=
  match a with
  | .set key value ttl =>
      match c.adapter.set config key value ttl with
      | .error _ => some c
      | .ok s => some ⟨s, c.schedule config ttl⟩
  | .fire timer =>
      if c.IsDue timer then (c.adapter.fire timer).map fun s => { c with adapter := s } else none
  | a => (c.adapter.step config a).map fun s => { c with adapter := s }

/-- A step of the clocked adapter is one of the adapter. -/
lemma step_adapter {a : MemoryAdapter.Action} (hs : step config c a = some c') :
    c.adapter.step config a = some c'.adapter := by
  unfold step at hs
  split at hs
  next key value ttl =>
      cases hset : c.adapter.set config key value ttl with
      | error error =>
          simp only [hset] at hs
          obtain rfl := Option.some.inj hs
          simp only [MemoryAdapter.step, hset]
      | ok s =>
          simp only [hset] at hs
          obtain rfl := Option.some.inj hs
          simp only [MemoryAdapter.step, hset]
  next timer =>
      split at hs
      next =>
        obtain ⟨s, hfire, rfl⟩ := Option.map_eq_some_iff.mp hs
        exact hfire
      next => cases hs
  next =>
      obtain ⟨s, hstep, rfl⟩ := Option.map_eq_some_iff.mp hs
      exact hstep

end Clocked

/-! ### What the other keys do to a key -/

/-- How often a key has been evicted. -/
def evictionsOf (key : String) (log : List Event) : ℕ :=
  log.countP fun
    | .evicted victim _ => victim = key
    | _ => false

namespace MemoryAdapter

variable {config : MemoryAdapterConfig} {s s' s'' : MemoryAdapter} {key : String}

/-- Unless the key has been evicted, its entry and its timer are the same. -/
structure Kept (key : String) (s s' : MemoryAdapter) : Prop where
  le : evictionsOf key s.log ≤ evictionsOf key s'.log
  same : evictionsOf key s'.log = evictionsOf key s.log →
    s'.store.get key = s.store.get key ∧ s'.timers.get key = s.timers.get key

lemma Kept.refl (s : MemoryAdapter) : Kept key s s := ⟨Nat.le_refl _, fun _ => ⟨rfl, rfl⟩⟩

lemma Kept.trans (h : Kept key s s') (h' : Kept key s' s'') : Kept key s s'' := by
  refine ⟨h.le.trans h'.le, fun heq => ?_⟩
  have hle := h.le
  have hle' := h'.le
  obtain ⟨hstore, htimers⟩ := h.same (by omega)
  obtain ⟨hstore', htimers'⟩ := h'.same (by omega)
  exact ⟨hstore'.trans hstore, htimers'.trans htimers⟩

lemma kept_delete {key' : String} (hne : key' ≠ key) (s : MemoryAdapter) :
    Kept key s (s.delete key').1 := by
  refine ⟨(delete_log s key').symm ▸ Nat.le_refl _, fun _ => ⟨?_, ?_⟩⟩
  · rw [delete_store, OrdMap.get_delete_ne _ hne]
  · rw [delete_timers, if_neg hne]

lemma kept_evictLRU (s : MemoryAdapter) : Kept key s s.evictLRU := by
  obtain he | ⟨victim, -, he⟩ := evictLRU_cases s
  · rw [he]
    exact Kept.refl s
  · by_cases hvictim : victim = key
    · have hmore : evictionsOf key s.evictLRU.log = evictionsOf key s.log + 1 := by
        rw [he]
        simp [evictionsOf, hvictim]
      exact ⟨by omega, fun heq => by omega⟩
    · have hlog : evictionsOf key s.evictLRU.log = evictionsOf key s.log := by
        rw [he]
        simp [evictionsOf, hvictim]
      refine ⟨hlog.ge, fun _ => ?_⟩
      rw [he]
      exact (kept_delete hvictim s).same (by rw [delete_log])

lemma kept_insert {key' : String} (hne : key' ≠ key) (entry : CacheEntry) :
    Kept key s (insert config (makeRoom config s key') key' entry) := by
  have hroom : Kept key s (makeRoom config s key') := by
    rw [makeRoom_eq]
    split
    · exact (kept_delete hne s).trans (kept_evictLRU _)
    · exact kept_delete hne s
  unfold MemoryAdapter.insert
  refine evictWhile_invariant (fun s' _ hs => hs.trans (kept_evictLRU s')) _ (hroom.trans ?_)
  refine ⟨by simp [evictionsOf], fun _ => ⟨OrdMap.get_set_ne _ _ hne, rfl⟩⟩

/-- A `set` that is not refused stores an entry and may start a timer. -/
lemma set_cases {value : String} {ttl : Option ℚ} (hs : s.set config key value ttl = .ok s') :
    ∃ entry, s' = insert config (makeRoom config s key) key entry ∨
      s' = (insert config (makeRoom config s key) key entry).startTimer key s.sets := by
  unfold MemoryAdapter.set at hs
  split at hs
  next => cases hs
  next =>
    obtain rfl := Except.ok.inj hs
    refine ⟨⟨value, expiry s.now (effectiveTtl config ttl), estimateSize key value⟩, ?_⟩
    split
    · exact .inr rfl
    · exact .inl rfl

@[simp] lemma startTimer_store (s : MemoryAdapter) (key : String) (timer : ℕ) :
    (s.startTimer key timer).store = s.store := rfl

@[simp] lemma startTimer_now (s : MemoryAdapter) (key : String) (timer : ℕ) :
    (s.startTimer key timer).now = s.now := rfl

lemma kept_startTimer {key' : String} (hne : key' ≠ key) (s : MemoryAdapter) (timer : ℕ) :
    Kept key s (s.startTimer key' timer) :=
  ⟨Nat.le_refl _, fun _ => ⟨rfl, OrdMap.get_set_ne _ _ hne⟩⟩

lemma kept_set {key' value : String} {ttl : Option ℚ} (hne : key' ≠ key)
    (hs : s.set config key' value ttl = .ok s') : Kept key s s' := by
  obtain ⟨entry, rfl | rfl⟩ := set_cases hs
  · exact kept_insert hne entry
  · exact (kept_insert hne entry).trans (kept_startTimer hne _ s.sets)

lemma get_ne {key' : String} (hne : key' ≠ key) (s : MemoryAdapter) :
    (s.get key').1.store.get key = s.store.get key ∧
      (s.get key').1.timers.get key = s.timers.get key := by
  unfold MemoryAdapter.get
  split
  next => exact ⟨rfl, rfl⟩
  next entry _ =>
    split
    next => exact (kept_delete hne s).same (by rw [delete_log])
    next =>
      refine ⟨?_, rfl⟩
      show ((s.store.delete key').set key' entry).get key = _
      rw [OrdMap.get_set_ne _ _ hne, OrdMap.get_delete_ne _ hne]

/-! ### The clock -/

lemma delete_now (s : MemoryAdapter) (key : String) : (s.delete key).1.now = s.now :=
  (clearTimer_frame s key).2.2.1

lemma insert_now (key : String) (entry : CacheEntry) :
    (insert config (makeRoom config s key) key entry).now = s.now := by
  have hroom : (makeRoom config s key).now = s.now := by
    rw [makeRoom_eq]
    split
    · exact (evictLRU_frame _).1.trans (delete_now s key)
    · exact delete_now s key
  unfold MemoryAdapter.insert
  exact evictWhile_invariant (fun s' _ hs => (evictLRU_frame s').1.trans hs) _ hroom

lemma set_now {value : String} {ttl : Option ℚ} (hs : s.set config key value ttl = .ok s') :
    s'.now = s.now := by
  obtain ⟨entry, rfl | rfl⟩ := set_cases hs
  · exact insert_now key entry
  · rw [startTimer_now, insert_now]

lemma get_now (s : MemoryAdapter) (key : String) : (s.get key).1.now = s.now := by
  unfold MemoryAdapter.get
  split
  next => rfl
  next =>
    split
    · exact delete_now s key
    · rfl

/-- The loop of evictions empties a map that may hold no entry. -/
lemma evictWhile_entries {maxEntries : ℚ} (hmax : maxEntries < 1) {fuel : ℕ}
    (hfuel : s.store.size ≤ fuel) : (evictWhile maxEntries fuel s).store.entries = [] := by
  induction fuel generalizing s with
  | zero => exact List.eq_nil_of_length_eq_zero (Nat.le_zero.mp hfuel)
  | succ fuel ih =>
      rw [evictWhile]
      cases hs : s.store.entries with
      | nil =>
          have he : s.evictLRU = s := evictLRU_nil hs
          split
          next =>
            refine ih ?_
            rw [he, OrdMap.size, hs]
            exact Nat.zero_le _
          next => exact hs
      | cons e rest =>
          rw [OrdMap.size, hs, List.length_cons] at hfuel
          rw [if_pos]
          · refine ih ?_
            rw [OrdMap.size, evictLRU_entries hs]
            exact Nat.le_of_succ_le_succ hfuel
          · refine hmax.trans_le ?_
            rw [OrdMap.size, hs, List.length_cons]
            push_cast
            exact le_add_of_nonneg_left (Nat.cast_nonneg _)

end MemoryAdapter

/-! ### The life of an entry -/

/-- The TTLs whose timer is not shorter: those of at most one millisecond, and whole numbers of
milliseconds that `setTimeout` can count.  The clock is exact: as doubles, `Date.now() + ttl * 1000`
is `Date.now()` for a TTL below about `1e-7`. -/
def Fits (ttl : ℚ) : Prop :=
  ttl * 1000 ≤ 1 ∨ ttl * 1000 ≤ 2 ^ 31 - 1 ∧ ∃ ms : ℕ, ttl * 1000 = ms

lemma fits_iff {ttl : ℚ} : Fits ttl ↔ ttl * 1000 ≤ timeoutDelay (ttl * 1000) := by
  unfold Fits timeoutDelay
  generalize ttl * 1000 = delay
  by_cases hone : delay ≤ 1
  · refine iff_of_true (.inl hone) ?_
    split
    next h =>
      rw [le_antisymm hone h.1]
      simp
    next => simpa using hone
  · have hlt := not_le.mp hone
    rw [or_iff_right hone]
    by_cases hmax : delay ≤ 2 ^ 31 - 1
    · rw [if_pos ⟨hlt.le, hmax⟩, and_iff_right hmax]
      constructor
      · rintro ⟨ms, rfl⟩
        rw [Nat.floor_natCast]
      · intro hle
        exact ⟨_, le_antisymm hle (Nat.floor_le (zero_le_one.trans hlt.le))⟩
    · rw [if_neg fun h => hmax h.2, Nat.cast_one]
      exact iff_of_false (fun h => hmax h.1) hone

namespace Clocked

variable {config : MemoryAdapterConfig} {c c' : Clocked} {key value : String} {ttl : ℚ}
  {entry : CacheEntry}

open MemoryAdapter

/-- What an action does not do to a key: overwrite, delete, clear or evict it. -/
def Spares (config : MemoryAdapterConfig) (key : String) (c : Clocked) : Action → Prop
  | .set key' value ttl => ∀ s, c.adapter.set config key' value ttl = .ok s →
      key' ≠ key ∧ evictionsOf key s.log = evictionsOf key c.adapter.log
  | .delete key' => key' ≠ key
  | .clearNext call => ∀ keys, c.adapter.clearing[call]? = some keys → keys.head? ≠ some key
  | _ => True

/-- After a `set` the key has its value until the TTL has passed, and none from then on. -/
def LivesFor (config : MemoryAdapterConfig) (c : Clocked) (key value : String) (ttl : ℚ) : Prop :=
  ∀ c', step config c (.set key value (some ttl)) = some c' →
    ∀ as c'', Meets (step config) (Spares config key) c' as →
      exec (step config) c' as = some c'' →
      (c''.adapter.get key).2 =
        if ttl = 0 ∨ (c''.adapter.now : ℚ) < c.adapter.now + ttl * 1000 then some value else none

/-- The entry of a key until its deadline: while it is stored, its timer is not due before. -/
def Alive (key : String) (entry : CacheEntry) (c : Clocked) : Prop :=
  (c.adapter.store.get key = some entry ∧ ∀ timer, c.adapter.timers.get key = some timer →
    0 < entry.expiresAt ∧ ∃ d, c.due.get timer = some d ∧ entry.expiresAt ≤ d) ∨
  (c.adapter.store.get key = none ∧ 0 < entry.expiresAt ∧ entry.expiresAt ≤ c.adapter.now)

lemma get_of_alive (h : Alive key entry c) : (c.adapter.get key).2 =
    if 0 < entry.expiresAt ∧ entry.expiresAt ≤ c.adapter.now then none else some entry.value := by
  unfold MemoryAdapter.get
  rcases h with ⟨hstored, -⟩ | ⟨hgone, hpassed⟩
  · rw [hstored]
    dsimp only
    split <;> rfl
  · rw [hgone, if_pos hpassed]

/-- What leaves the key and its timer as they are. -/
lemma Alive.frame (h : Alive key entry c)
    (hstore : c'.adapter.store.get key = c.adapter.store.get key)
    (htimers : c'.adapter.timers.get key = c.adapter.timers.get key)
    (hdue : ∀ timer, c.adapter.timers.get key = some timer → c'.due.get timer = c.due.get timer)
    (hnow : c.adapter.now ≤ c'.adapter.now) : Alive key entry c' := by
  rcases h with ⟨hstored, htimer⟩ | ⟨hgone, hpos, hpassed⟩
  · refine .inl ⟨hstore.trans hstored, fun timer ht => ?_⟩
    rw [htimers] at ht
    rw [hdue timer ht]
    exact htimer timer ht
  · exact .inr ⟨hstore.trans hgone, hpos, hpassed.trans (Nat.cast_le.mpr hnow)⟩

lemma Alive.kept (h : Alive key entry c) {s : MemoryAdapter} (hkept : Kept key c.adapter s)
    (hlog : evictionsOf key s.log = evictionsOf key c.adapter.log)
    (hnow : c.adapter.now ≤ s.now) : Alive key entry { c with adapter := s } :=
  h.frame (hkept.same hlog).1 (hkept.same hlog).2 (fun _ _ => rfl) hnow

/-- Deleting the key once its deadline has passed. -/
lemma Alive.delete (h : Alive key entry c)
    (hpassed : c.adapter.store.get key = some entry →
      0 < entry.expiresAt ∧ entry.expiresAt ≤ c.adapter.now) {s : MemoryAdapter}
    (hstore : s.store = (c.adapter.delete key).1.store) (hnow : s.now = c.adapter.now) :
    Alive key entry { c with adapter := s } := by
  refine .inr ⟨?_, ?_⟩
  · show s.store.get key = none
    rw [hstore, delete_store, OrdMap.get_delete, if_pos rfl]
  · show 0 < entry.expiresAt ∧ entry.expiresAt ≤ s.now
    rw [hnow]
    rcases h with ⟨hstored, -⟩ | ⟨-, hgone⟩
    · exact hpassed hstored
    · exact hgone

/-- A hit on the key leaves its entry, a miss comes once the deadline has passed. -/
lemma Alive.get (h : Alive key entry c) :
    Alive key entry { c with adapter := (c.adapter.get key).1 } := by
  cases hstore : c.adapter.store.get key with
  | none =>
      have heq : (c.adapter.get key).1 = { c.adapter with misses := c.adapter.misses + 1 } := by
        rw [MemoryAdapter.get, hstore]
      rw [heq]
      exact h.frame rfl rfl (fun _ _ => rfl) (Nat.le_refl _)
  | some entry' =>
      unfold MemoryAdapter.get
      rw [hstore]
      dsimp only
      split
      next hpassed =>
        refine h.delete (fun hstored => ?_) rfl (delete_now _ _)
        rwa [← Option.some.inj (hstore.symm.trans hstored)]
      next =>
        refine h.frame ?_ rfl (fun _ _ => rfl) (Nat.le_refl _)
        show ((c.adapter.store.delete key).set key entry').get key = _
        rw [OrdMap.get_set_self, hstore]

/-- A timer of the key fires once its deadline has passed. -/
lemma Alive.fire (h : Alive key entry c) (hcore : Core c.adapter) {timer : ℕ}
    (hdue : c.IsDue timer) {s : MemoryAdapter} (hs : c.adapter.fire timer = some s) :
    Alive key entry { c with adapter := s } := by
  obtain ⟨key', htimer, rfl⟩ := hcore.fire_eq hs
  by_cases hkey : key' = key
  · subst hkey
    refine h.delete (fun hstored => ?_) rfl (delete_now _ _)
    rcases h with ⟨-, hlate⟩ | ⟨hgone, -⟩
    · obtain ⟨hpos, d, hd, hle⟩ := hlate timer htimer
      obtain ⟨d', hd', hle'⟩ := hdue
      obtain rfl := Option.some.inj (hd.symm.trans hd')
      exact ⟨hpos, hle.trans (Nat.cast_le.mpr hle')⟩
    · exact absurd (hgone.symm.trans hstored) nofun
  · exact h.kept (kept_delete hkey _) (by rw [delete_log]) (delete_now _ _).ge

/-- **Every action that leaves the key alone keeps its entry alive until the deadline.** -/
lemma step_alive {a : Action} (hcore : Core c.adapter) (h : Alive key entry c)
    (hspares : Spares config key c a) (hs : step config c a = some c') : Alive key entry c' := by
  cases a with
  | get key' =>
      obtain rfl := Option.some.inj hs
      by_cases hkey : key' = key
      · exact hkey ▸ h.get
      · obtain ⟨hstore, htimers⟩ := get_ne hkey c.adapter
        exact h.frame hstore htimers (fun _ _ => rfl) (get_now _ _).ge
  | set key' value ttl =>
      dsimp only [step] at hs
      split at hs
      next =>
        obtain rfl := Option.some.inj hs
        exact h
      next s hset =>
        obtain rfl := Option.some.inj hs
        obtain ⟨hkey, hlog⟩ := hspares s hset
        have hsame := (kept_set hkey hset).same hlog
        refine h.frame hsame.1 hsame.2 (fun timer ht => ?_) (set_now hset).ge
        show (c.schedule config ttl).get timer = _
        unfold schedule
        split
        next => rfl
        next =>
          split
          next => exact OrdMap.get_set_ne _ _ (hcore.timer_lt key timer ht).ne'
          next => rfl
  | delete key' =>
      obtain rfl := Option.some.inj hs
      exact h.kept (kept_delete hspares _) (by rw [delete_log]) (delete_now _ _).ge
  | keys pattern =>
      obtain rfl := Option.some.inj hs
      exact h
  | clear pattern =>
      obtain rfl := Option.some.inj hs
      exact h.frame rfl rfl (fun _ _ => rfl) (Nat.le_refl _)
  | clearNext call =>
      obtain ⟨s, hclear, rfl⟩ := Option.map_eq_some_iff.mp hs
      dsimp only [MemoryAdapter.step, clearNext] at hclear
      split at hclear
      next key' keys hcall =>
        obtain rfl := Option.some.inj hclear
        have hkey : key' ≠ key := fun he => hspares _ hcall (congrArg some he)
        have hkept := (kept_delete hkey c.adapter).same (by rw [delete_log])
        exact h.frame hkept.1 hkept.2 (fun _ _ => rfl) (delete_now _ _).ge
      next => cases hclear
  | fire timer =>
      dsimp only [step] at hs
      split at hs
      next hdue =>
        obtain ⟨s, hfire, rfl⟩ := Option.map_eq_some_iff.mp hs
        exact h.fire hcore hdue hfire
      next => cases hs
  | tick ms =>
      obtain rfl := Option.some.inj hs
      exact h.frame rfl rfl (fun _ _ => rfl) (Nat.le_add_right _ _)

/-! ### A `set` of the key -/

/-- What a `set` does whose TTL is not negative. -/
lemma step_set (httl : 0 ≤ ttl) :
    ∃ stored, stored = insert config (makeRoom config c.adapter key) key
        ⟨value, expiry c.adapter.now (some ttl), estimateSize key value⟩ ∧
      step config c (.set key value (some ttl)) = some ⟨if 0 < ttl then
        stored.startTimer key c.adapter.sets else stored, c.schedule config (some ttl)⟩ := by
  refine ⟨_, rfl, ?_⟩
  have hset : c.adapter.set config key value (some ttl) = .ok (if 0 < ttl then
      (insert config (makeRoom config c.adapter key) key
        ⟨value, expiry c.adapter.now (some ttl), estimateSize key value⟩).startTimer key
          c.adapter.sets
      else insert config (makeRoom config c.adapter key) key
        ⟨value, expiry c.adapter.now (some ttl), estimateSize key value⟩) := by
    rw [MemoryAdapter.set, if_neg (by simpa using httl)]
    simp only [effectiveTtl, Option.some_or, Option.orElse_eq_orElse, Option.orElse_eq_or,
      Option.any_some, decide_eq_true_eq]
  dsimp only [step]
  rw [hset]

lemma exists_step_set (httl : 0 ≤ ttl) :
    ∃ c', step config c (.set key value (some ttl)) = some c' := by
  obtain ⟨stored, -, hset⟩ := @step_set config c key value ttl httl
  exact ⟨_, hset⟩

lemma store_set (httl : 0 ≤ ttl) (hs : step config c (.set key value (some ttl)) = some c') :
    c'.adapter.store = (insert config (makeRoom config c.adapter key) key
      ⟨value, expiry c.adapter.now (some ttl), estimateSize key value⟩).store := by
  obtain ⟨stored, hstored, hset⟩ := @step_set config c key value ttl httl
  obtain rfl := Option.some.inj (hset.symm.trans hs)
  rw [← hstored]
  dsimp only
  split
  · rw [startTimer_store]
  · rfl

/-- Where there is room, the new entry is stored and has its timer. -/
lemma set_fresh (hmax : 1 ≤ config.maxEntries) (hcore : Core c.adapter) (httl : 0 ≤ ttl)
    (hs : step config c (.set key value (some ttl)) = some c') :
    c'.adapter.store.get key =
        some ⟨value, expiry c.adapter.now (some ttl), estimateSize key value⟩ ∧
      c'.adapter.timers.get key = if 0 < ttl then some c.adapter.sets else none := by
  obtain ⟨stored, hstored, hset⟩ := @step_set config c key value ttl httl
  obtain rfl := Option.some.inj (hset.symm.trans hs)
  have hspec := (@stored_insert config (makeRoom config c.adapter key) hmax key
    ⟨value, expiry c.adapter.now (some ttl), estimateSize key value⟩ (hcore.makeRoom key)
    (room_makeRoom config c.adapter key)).1
  rw [← hstored] at hspec
  dsimp only
  split
  next => exact ⟨hspec.get, OrdMap.get_set_self _ _ _⟩
  next => exact ⟨hspec.get, hspec.timers⟩

lemma due_set (hpos : 0 < ttl) (hs : step config c (.set key value (some ttl)) = some c') :
    c'.due.get c.adapter.sets = some (c.adapter.now + timeoutDelay (ttl * 1000)) := by
  obtain ⟨stored, -, hset⟩ := @step_set config c key value ttl hpos.le
  obtain rfl := Option.some.inj (hset.symm.trans hs)
  show (c.schedule config (some ttl)).get c.adapter.sets = _
  simp only [schedule, effectiveTtl, Option.some_or, Option.orElse_eq_orElse,
    Option.orElse_eq_or, if_pos hpos, OrdMap.get_set_self]

lemma now_set (hs : step config c (.set key value (some ttl)) = some c') :
    c'.adapter.now = c.adapter.now := by
  have h := step_adapter hs
  dsimp only [MemoryAdapter.step] at h
  split at h
  next => rw [Option.some.inj h]
  next s hset =>
    rw [← Option.some.inj h]
    exact set_now hset

/-- The deadline that `set` stores. -/
lemma expiry_passed_iff (httl : 0 ≤ ttl) (now now' : ℕ) :
    (0 < expiry now (some ttl) ∧ expiry now (some ttl) ≤ now') ↔
      ¬ (ttl = 0 ∨ (now' : ℚ) < now + ttl * 1000) := by
  rw [expiry]
  split
  next hzero => exact iff_of_false (fun h => lt_irrefl _ h.1) (fun h => h (.inl hzero))
  next hne =>
    have hpos : 0 < ttl := lt_of_le_of_ne httl (Ne.symm hne)
    have hnow : (0 : ℚ) ≤ now := Nat.cast_nonneg now
    rw [or_iff_right hne, not_lt, and_iff_right (by positivity)]

/-- An entry is alive after its `set` if its timer is not shorter than the TTL. -/
lemma alive_set (hmax : 1 ≤ config.maxEntries) (hcore : Core c.adapter) (httl : 0 ≤ ttl)
    (hfits : Fits ttl) (hs : step config c (.set key value (some ttl)) = some c') :
    Alive key ⟨value, expiry c.adapter.now (some ttl), estimateSize key value⟩ c' := by
  obtain ⟨hstore, htimers⟩ := set_fresh hmax hcore httl hs
  refine .inl ⟨hstore, fun timer ht => ?_⟩
  rw [htimers] at ht
  split at ht
  next hpos =>
    obtain rfl := Option.some.inj ht
    have hnow : (0 : ℚ) ≤ c.adapter.now := Nat.cast_nonneg _
    have hexpiry : expiry c.adapter.now (some ttl) = c.adapter.now + ttl * 1000 := by
      rw [expiry, if_neg hpos.ne']
    dsimp only
    rw [hexpiry]
    refine ⟨by positivity, _, due_set hpos hs, ?_⟩
    push_cast
    exact add_le_add_right (fits_iff.mp hfits) _
  next => cases ht

/-! ### Runs -/

lemma sound_of_exec (hmax : 1 ≤ config.maxEntries) {now : ℕ} {as : List Action}
    (h : exec (step config) ⟨{ now }, ∅⟩ as = some c) : Sound config c.adapter :=
  meets_invariant (I := fun c : Clocked => Sound config c.adapter)
    (fun _ _ _ hs _ hstep => (step_sound hmax hs (step_adapter hstep)).1)
    (sound_init hmax now) (meets_true _ as) h

lemma exec_alive (hmax : 1 ≤ config.maxEntries) {as : List Action}
    (hsound : Sound config c.adapter) (h : Alive key entry c)
    (hspares : Meets (step config) (Spares config key) c as)
    (hexec : exec (step config) c as = some c') : Alive key entry c' :=
  (meets_invariant (I := fun c : Clocked => Sound config c.adapter ∧ Alive key entry c)
    (fun _ _ _ hs hspares hstep => ⟨(step_sound hmax hs.1 (step_adapter hstep)).1,
      step_alive hs.1.toCore hs.2 hspares hstep⟩) ⟨hsound, h⟩ hspares hexec).2

/-- Without room `set` evicts the entry that it has just stored. -/
lemma not_livesFor_of_lt_one (hmax : config.maxEntries < 1) (httl : 0 ≤ ttl) :
    ¬ LivesFor config c key value ttl := by
  intro hlives
  obtain ⟨c', hset⟩ := @exists_step_set config c key value ttl httl
  have hvalue := hlives c' hset [] c' trivial rfl
  have hsoon : ttl = 0 ∨ (c'.adapter.now : ℚ) < c.adapter.now + ttl * 1000 := by
    rw [now_set hset]
    rcases httl.eq_or_lt with hzero | hpos
    · exact Or.inl hzero.symm
    · exact Or.inr (lt_add_of_pos_right _ (by positivity))
  rw [if_pos hsoon] at hvalue
  obtain ⟨e, he, -⟩ := get_eq_some hvalue
  have hempty : c'.adapter.store.entries = [] := by
    rw [store_set httl hset, MemoryAdapter.insert]
    exact evictWhile_entries hmax (Nat.le_refl _)
  rw [← OrdMap.mem_entries_iff, hempty] at he
  exact absurd he List.not_mem_nil

/-- A timer that is shorter than the TTL takes the entry away too early. -/
lemma not_livesFor_of_not_fits (hmax : 1 ≤ config.maxEntries) (hsound : Sound config c.adapter)
    (httl : 0 ≤ ttl) (hfits : ¬ Fits ttl) : ¬ LivesFor config c key value ttl := by
  intro hlives
  obtain ⟨c', hset⟩ := @exists_step_set config c key value ttl httl
  rw [fits_iff, not_le] at hfits
  have hpos : 0 < ttl := by
    by_contra hle
    rw [le_antisymm (not_lt.mp hle) httl, zero_mul] at hfits
    exact absurd hfits (Nat.cast_nonneg _).not_gt
  have hcore := (step_sound hmax hsound (step_adapter hset)).1.toCore
  have htimer := (set_fresh hmax hsound.toCore httl hset).2
  rw [if_pos hpos, ← hcore.pending_iff] at htimer
  generalize htick : { c' with adapter := { c'.adapter with
    now := c'.adapter.now + timeoutDelay (ttl * 1000) } } = late
  have hlate : late.adapter.now = c.adapter.now + timeoutDelay (ttl * 1000) := by
    rw [← htick, ← now_set hset]
  have hdue : late.IsDue c.adapter.sets :=
    ⟨_, (congrArg (·.due.get c.adapter.sets) htick).symm.trans (due_set hpos hset), hlate.ge⟩
  obtain ⟨s, hfire, hgone, hnow⟩ : ∃ s, late.adapter.fire c.adapter.sets = some s ∧
      s.store.get key = none ∧ s.now = late.adapter.now := by
    rw [← htick, MemoryAdapter.fire]
    dsimp only
    rw [htimer]
    refine ⟨_, rfl, ?_, delete_now _ _⟩
    rw [delete_store, OrdMap.get_delete, if_pos rfl]
  have hstep : step config late (.fire c.adapter.sets) = some { late with adapter := s } := by
    dsimp only [step]
    rw [if_pos hdue, hfire]
    rfl
  have htickStep : step config c' (.tick (timeoutDelay (ttl * 1000))) = some late := by
    rw [← htick]
    rfl
  have hspares : Meets (step config) (Spares config key) c'
      [.tick (timeoutDelay (ttl * 1000)), .fire c.adapter.sets] :=
    (meets_cons_iff htickStep).mpr ⟨trivial, (meets_cons_iff hstep).mpr ⟨trivial, trivial⟩⟩
  have hvalue := hlives c' hset _ { late with adapter := s } hspares
    (by rw [exec_cons, htickStep, Option.bind_some, exec_cons, hstep]; rfl)
  have hsoon : (s.now : ℚ) < c.adapter.now + ttl * 1000 := by
    rw [hnow, hlate, Nat.cast_add]
    exact add_lt_add_right hfits _
  rw [if_pos (Or.inr hsoon)] at hvalue
  obtain ⟨e, he, -⟩ := get_eq_some hvalue
  exact absurd (hgone.symm.trans he) nofun

/-- **An entry lives for its TTL exactly if the cache has room for an entry and the timer is
not shorter than the TTL.** -/
theorem livesFor_iff_fits {now : ℕ} {as : List Action}
    (h : exec (step config) ⟨{ now }, ∅⟩ as = some c) (key value : String) (httl : 0 ≤ ttl) :
    LivesFor config c key value ttl ↔ 1 ≤ config.maxEntries ∧ Fits ttl := by
  constructor
  · intro hlives
    have hmax : 1 ≤ config.maxEntries :=
      not_lt.mp fun hlt => not_livesFor_of_lt_one hlt httl hlives
    refine ⟨hmax, ?_⟩
    by_contra hfits
    exact not_livesFor_of_not_fits hmax (sound_of_exec hmax h) httl hfits hlives
  · rintro ⟨hmax, hfits⟩ c' hset bs c'' hspares hexec
    have hsound := sound_of_exec hmax h
    have hsound' := (step_sound hmax hsound (step_adapter hset)).1
    have halive := exec_alive hmax hsound' (alive_set hmax hsound.toCore httl hfits hset)
      hspares hexec
    rw [get_of_alive halive]
    simp only [expiry_passed_iff httl, ite_not]

/-- A minute, in a cache that starts out empty. -/
theorem livesFor_iff_fits_minute : LivesFor {} ⟨{ now := 1000 }, ∅⟩ "a" "1" 60 :=
  (@livesFor_iff_fits {} ⟨{ now := 1000 }, ∅⟩ 60 1000 [] rfl "a" "1" (by decide +kernel)).mpr
    ⟨by decide +kernel, .inr ⟨by decide +kernel, 60000, by norm_num⟩⟩

/-- An entry with a TTL of thirty days is gone after a millisecond. -/
theorem not_livesFor_month :
    ¬ ∀ (config : MemoryAdapterConfig) (now : ℕ) (as : List Action) (c : Clocked),
      exec (step config) ⟨{ now }, ∅⟩ as = some c →
        ∀ (key value : String) (ttl : ℚ), 0 ≤ ttl → LivesFor config c key value ttl := by
  intro h
  have hmax : 1 ≤ ({} : MemoryAdapterConfig).maxEntries := by decide +kernel
  have hfits : ¬ Fits 2592000 := by norm_num [Fits]
  exact not_livesFor_of_not_fits hmax (sound_init hmax 0) (by decide +kernel) hfits
    (h {} 0 [] ⟨{ now := 0 }, ∅⟩ rfl "a" "1" 2592000 (by decide +kernel))

end Clocked

end Blaize.Cache
