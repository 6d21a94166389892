import Blaize.Cache.MemoryAdapter
import Blaize.Lib.Recency

/-!
The cache as a map that evicts the least recently used key and forgets what has expired.

The order of the map is the order of the last uses, and the pending timers are those of the
map `timers`, each for an entry that the `set` of the same number has stored.  Every method
keeps this.  What a method can break is the converse: `set` checks the TTL that it is given
but not the default one, and starts no timer for a negative TTL.

* `Sound`: what every method keeps (`sound_step`);
* `Lru`: the cache as its callers see it;
* `Timed`, `lru_iff`: the cache is one exactly if every entry that expires has a timer;
* `lru_iff_checked`: **along every run the cache stays one exactly if no `set` falls back on a
  negative default**.
-/

namespace Blaize.Cache

open Recency Machine

/-! ### Logs -/

def Event.used : Event → Option String
  | .hit key => some key
  | .stored key _ => some key
  | .evicted _ _ => none

/-- The keys of the hits and the stores, in order. -/
def usesOf (log : List Event) : List String := log.filterMap Event.used

def Event.number (key : String) : Event → Option ℕ
  | .stored key' number => if key' = key then some number else none
  | _ => none

/-- The number of the last `set` of a key. -/
def lastSet (log : List Event) (key : String) : Option ℕ :=
  (log.filterMap (Event.number key)).getLast?

/-- Every victim of an eviction was used last before the keys that stayed. -/
def EvictsOldest (log : List Event) : Prop :=
  ∀ before victim kept after, log = before ++ .evicted victim kept :: after →
    ∀ key ∈ kept, lastUse (usesOf before) victim < lastUse (usesOf before) key

variable {log : List Event}

@[simp] lemma usesOf_hit (key : String) : usesOf (log ++ [.hit key]) = usesOf log ++ [key] := by
  simp [usesOf, Event.used]

@[simp] lemma usesOf_stored (key : String) (number : ℕ) :
    usesOf (log ++ [.stored key number]) = usesOf log ++ [key] := by
  simp [usesOf, Event.used]

@[simp] lemma usesOf_evicted (victim : String) (kept : List String) :
    usesOf (log ++ [.evicted victim kept]) = usesOf log := by
  simp [usesOf, Event.used]

@[simp] lemma lastSet_hit (key key' : String) :
    lastSet (log ++ [.hit key]) key' = lastSet log key' := by
  simp [lastSet, Event.number]

@[simp] lemma lastSet_evicted (victim : String) (kept : List String) (key : String) :
    lastSet (log ++ [.evicted victim kept]) key = lastSet log key := by
  simp [lastSet, Event.number]

lemma lastSet_stored (key key' : String) (number : ℕ) :
    lastSet (log ++ [.stored key number]) key' =
      if key = key' then some number else lastSet log key' := by
  by_cases h : key = key'
  · simp [lastSet, Event.number, h]
  · simp [lastSet, Event.number, h]

lemma EvictsOldest.append (h : EvictsOldest log) {e : Event}
    (he : ∀ victim kept, e = .evicted victim kept →
      ∀ key ∈ kept, lastUse (usesOf log) victim < lastUse (usesOf log) key) :
    EvictsOldest (log ++ [e]) := by
  intro before victim kept after hlog
  rcases List.eq_nil_or_concat after with rfl | ⟨after, last, rfl⟩
  · obtain ⟨rfl, heq⟩ := List.append_inj' hlog rfl
    exact he victim kept (List.cons.inj heq).1
  · rw [List.concat_eq_append, ← List.cons_append, ← List.append_assoc] at hlog
    exact h before victim kept after (List.append_inj' hlog rfl).1

/-! ### What every method keeps -/

namespace MemoryAdapter

variable {config : MemoryAdapterConfig} {s s' : MemoryAdapter}

/-- The timers, the order of the map and the evictions are in order. -/
structure Core (s : MemoryAdapter) : Prop where
  pending_iff : ∀ timer key, s.pending.get timer = some key ↔ s.timers.get key = some timer
  timer_lt : ∀ key timer, s.timers.get key = some timer → timer < s.sets
  own_timer : ∀ key timer, s.timers.get key = some timer → lastSet s.log key = some timer
  expires : ∀ key timer, s.timers.get key = some timer →
    ∃ e, s.store.get key = some e ∧ 0 < e.expiresAt
  ordered : OldestFirst (usesOf s.log) s.store.keys
  evicts : EvictsOldest s.log

lemma clearTimer_frame (s : MemoryAdapter) (key : String) :
    (s.clearTimer key).store = s.store ∧ (s.clearTimer key).log = s.log ∧
      (s.clearTimer key).now = s.now ∧ (s.clearTimer key).sets = s.sets := by
  unfold clearTimer
  split <;> exact ⟨rfl, rfl, rfl, rfl⟩

lemma clearTimer_timers (s : MemoryAdapter) (key key' : String) :
    (s.clearTimer key).timers.get key' = if key = key' then none else s.timers.get key' := by
  unfold clearTimer
  split
  next h =>
    split
    next he => rw [← he, h]
    next => rfl
  next => exact OrdMap.get_delete _ _ _

lemma Core.clearTimer_pending (h : Core s) (key : String) (timer : ℕ) (key' : String) :
    (s.clearTimer key).pending.get timer = some key' ↔
      s.pending.get timer = some key' ∧ key ≠ key' := by
  unfold clearTimer
  split
  next hnone =>
    refine ⟨fun hp => ⟨hp, ?_⟩, And.left⟩
    rintro rfl
    rw [h.pending_iff, hnone] at hp
    cases hp
  next t ht =>
    have hpt := (h.pending_iff t key).mpr ht
    rw [OrdMap.get_delete]
    split
    next he =>
      subst he
      rw [hpt, Option.some.injEq]
      exact iff_of_false (by rintro ⟨⟩) fun h => h.2 h.1
    next hne =>
      refine ⟨fun hp => ⟨hp, ?_⟩, And.left⟩
      rintro rfl
      rw [h.pending_iff, ht, Option.some.injEq] at hp
      exact hne hp

lemma delete_store (s : MemoryAdapter) (key : String) :
    (s.delete key).1.store = s.store.delete key := by
  rw [← (clearTimer_frame s key).1]
  rfl

lemma delete_log (s : MemoryAdapter) (key : String) : (s.delete key).1.log = s.log :=
  (clearTimer_frame s key).2.1

lemma delete_sets (s : MemoryAdapter) (key : String) : (s.delete key).1.sets = s.sets :=
  (clearTimer_frame s key).2.2.2

lemma delete_timers (s : MemoryAdapter) (key key' : String) :
    (s.delete key).1.timers.get key' = if key = key' then none else s.timers.get key' :=
  clearTimer_timers s key key'

lemma Core.delete (h : Core s) (key : String) : Core (s.delete key).1 where
  pending_iff timer key' := by
    rw [delete_timers]
    refine (h.clearTimer_pending key timer key').trans ?_
    rw [h.pending_iff]
    split
    next he => exact iff_of_false (fun hp => hp.2 he) (by rintro ⟨⟩)
    next hne => exact and_iff_left hne
  timer_lt key' timer ht := by
    rw [delete_timers] at ht
    split at ht
    · cases ht
    · exact (delete_sets s key).symm ▸ h.timer_lt key' timer ht
  own_timer key' timer ht := by
    rw [delete_timers] at ht
    split at ht
    · cases ht
    · exact (delete_log s key).symm ▸ h.own_timer key' timer ht
  expires key' timer ht := by
    rw [delete_timers] at ht
    split at ht
    · cases ht
    · next hne =>
      rw [delete_store, OrdMap.get_delete_ne _ hne]
      exact h.expires key' timer ht
  ordered := by
    rw [delete_log, delete_store, OrdMap.keys_delete]
    exact h.ordered.sublist List.filter_sublist
  evicts := (delete_log s key).symm ▸ h.evicts

/-! ### Evictions -/

/-- An eviction takes the first key of the map. -/
lemma evictLRU_cons {key : String} {entry : CacheEntry} {rest : List (String × CacheEntry)}
    (hs : s.store.entries = (key, entry) :: rest) :
    s.evictLRU = { (s.delete key).1 with
      evictions := (s.delete key).1.evictions + 1
      log := s.log ++ [.evicted key (s.delete key).1.store.keys] } := by
  have hhead : s.store.keys.head? = some key := by rw [OrdMap.keys, hs]; rfl
  unfold evictLRU
  rw [hhead]
  dsimp only
  rw [delete_log]

lemma evictLRU_entries {key : String} {entry : CacheEntry} {rest : List (String × CacheEntry)}
    (hs : s.store.entries = (key, entry) :: rest) : s.evictLRU.store.entries = rest := by
  have hnodup := s.store.nodup
  rw [hs, List.map_cons, List.nodup_cons] at hnodup
  rw [evictLRU_cons hs]
  show (s.delete key).1.store.entries = rest
  rw [delete_store]
  change (s.store.entries.filter fun e => e.1 ≠ key) = rest
  rw [hs, List.filter_cons_of_neg (by simp)]
  refine List.filter_eq_self.mpr fun e he => ?_
  have hne : e.1 ≠ key := fun hk => hnodup.1 (List.mem_map.mpr ⟨e, he, hk⟩)
  simpa using hne

lemma evictLRU_nil (hs : s.store.entries = []) : s.evictLRU = s := by
  have hhead : s.store.keys.head? = none := by rw [OrdMap.keys, hs]; rfl
  unfold evictLRU
  rw [hhead]

/-- What an eviction does, whatever is stored: nothing, or a deletion that is logged. -/
lemma evictLRU_cases (s : MemoryAdapter) :
    s.evictLRU = s ∨ ∃ key, s.store.keys.head? = some key ∧ s.evictLRU = { (s.delete key).1 with
      evictions := (s.delete key).1.evictions + 1
      log := s.log ++ [.evicted key (s.delete key).1.store.keys] } := by
  cases hs : s.store.entries with
  | nil => exact .inl (evictLRU_nil hs)
  | cons e rest => exact .inr ⟨e.1, by rw [OrdMap.keys, hs]; rfl, evictLRU_cons hs⟩

lemma Core.evictLRU (h : Core s) : Core s.evictLRU := by
  obtain he | ⟨key, hhead, he⟩ := evictLRU_cases s
  · exact he.symm ▸ h
  · rw [he]
    have hd := h.delete key
    refine ⟨hd.pending_iff, hd.timer_lt, fun key' timer ht => ?_, hd.expires, ?_, ?_⟩
    · rw [lastSet_evicted, ← delete_log s key]
      exact hd.own_timer key' timer ht
    · rw [usesOf_evicted, ← delete_log s key]
      exact hd.ordered
    · refine h.evicts.append fun victim kept hv key' hkey' => ?_
      obtain ⟨rfl, rfl⟩ := Event.evicted.inj hv
      obtain ⟨keys, hkeys⟩ : ∃ keys, s.store.keys = key :: keys :=
        List.head?_eq_some_iff.mp hhead
      have hordered := h.ordered
      rw [hkeys] at hordered
      rw [delete_store, OrdMap.keys_delete, hkeys, List.filter_cons_of_neg (by simp)] at hkey'
      exact hordered.head_lt (List.mem_filter.mp hkey').1

/-- What an eviction keeps, the loop of evictions keeps. -/
lemma evictWhile_invariant {I : MemoryAdapter → Prop} {maxEntries : ℚ}
    (hstep : ∀ s : MemoryAdapter, maxEntries < s.store.size → I s → I s.evictLRU) (fuel : ℕ)
    (hs : I s) : I (evictWhile maxEntries fuel s) := by
  induction fuel generalizing s with
  | zero => exact hs
  | succ fuel ih =>
      rw [evictWhile]
      split
      next hlt => exact ih (hstep s hlt hs)
      next => exact hs

/-- The loop of evictions makes the map small enough. -/
lemma evictWhile_size {maxEntries : ℚ} (hmax : 0 ≤ maxEntries) {fuel : ℕ}
    (hfuel : s.store.size ≤ fuel) :
    ((evictWhile maxEntries fuel s).store.size : ℚ) ≤ maxEntries := by
  induction fuel generalizing s with
  | zero =>
      rw [evictWhile, Nat.le_zero.mp hfuel]
      exact_mod_cast hmax
  | succ fuel ih =>
      rw [evictWhile]
      split
      next hlt =>
        refine ih ?_
        cases hs : s.store.entries with
        | nil =>
            rw [OrdMap.size, hs, List.length_nil] at hlt
            exact absurd hlt (by simpa using hmax)
        | cons e rest =>
            rw [OrdMap.size, hs, List.length_cons] at hfuel
            rw [OrdMap.size, evictLRU_entries hs]
            exact Nat.le_of_succ_le_succ hfuel
      next hle => exact not_lt.mp hle

/-! ### The methods -/

/-- A hit moves its key to the end. -/
lemma Core.get (h : Core s) (key : String) : Core (s.get key).1 := by
  unfold MemoryAdapter.get
  split
  next => exact ⟨h.pending_iff, h.timer_lt, h.own_timer, h.expires, h.ordered, h.evicts⟩
  next entry hentry =>
    split
    next =>
      have hd := h.delete key
      exact ⟨hd.pending_iff, hd.timer_lt, hd.own_timer, hd.expires, hd.ordered, hd.evicts⟩
    next =>
      have habsent : (s.store.delete key).get key = none := by rw [OrdMap.get_delete, if_pos rfl]
      refine ⟨h.pending_iff, h.timer_lt, fun key' timer ht => ?_, fun key' timer ht => ?_, ?_, ?_⟩
      · rw [lastSet_hit]
        exact h.own_timer key' timer ht
      · obtain ⟨e, he, hpos⟩ := h.expires key' timer ht
        refine ⟨e, ?_, hpos⟩
        rw [OrdMap.get_set]
        split
        next hk => rw [← hk, hentry] at he; exact he
        next hk => rw [OrdMap.get_delete_ne _ hk, he]
      · rw [usesOf_hit, OrdMap.keys, OrdMap.entries_set_of_get_none habsent, List.map_append]
        refine OldestFirst.use ?_ ?_
        · rw [← OrdMap.keys, OrdMap.keys_delete]
          exact h.ordered.sublist List.filter_sublist
        · rw [← OrdMap.keys, OrdMap.keys_delete]
          simp
      · exact h.evicts.append (by rintro _ _ ⟨⟩)

/-- Where `set` makes room, it first deletes the key. -/
lemma makeRoom_eq (config : MemoryAdapterConfig) (s : MemoryAdapter) (key : String) :
    makeRoom config s key =
      if config.maxEntries ≤ (s.delete key).1.store.size then (s.delete key).1.evictLRU
      else (s.delete key).1 := by
  have hdelete : (if (s.clearTimer key).store.has key then
      { s.clearTimer key with store := (s.clearTimer key).store.delete key }
      else s.clearTimer key) = (s.delete key).1 := by
    unfold MemoryAdapter.delete
    split
    next => rfl
    next hhas =>
      have hnone := (OrdMap.has_eq_false_iff _).mp (by simpa using hhas)
      dsimp only
      rw [OrdMap.delete_of_get_none hnone]
  unfold makeRoom
  dsimp only
  rw [hdelete]

/-- A place for a new key: it has neither an entry nor a timer. -/
structure Room (key : String) (s : MemoryAdapter) : Prop where
  store : s.store.get key = none
  timers : s.timers.get key = none

lemma Room.evictLRU {key : String} (h : Room key s) : Room key s.evictLRU := by
  obtain he | ⟨first, -, he⟩ := evictLRU_cases s
  · exact he.symm ▸ h
  · rw [he]
    constructor
    · show (s.delete first).1.store.get key = none
      rw [delete_store, OrdMap.get_delete, h.store, ite_self]
    · show (s.delete first).1.timers.get key = none
      rw [delete_timers, h.timers, ite_self]

lemma room_makeRoom (config : MemoryAdapterConfig) (s : MemoryAdapter) (key : String) :
    Room key (makeRoom config s key) := by
  have hroom : Room key (s.delete key).1 :=
    ⟨by rw [delete_store, OrdMap.get_delete, if_pos rfl], by rw [delete_timers, if_pos rfl]⟩
  rw [makeRoom_eq]
  split
  · exact hroom.evictLRU
  · exact hroom

lemma Core.makeRoom (h : Core s) (key : String) : Core (makeRoom config s key) := by
  rw [makeRoom_eq]
  split
  · exact (h.delete key).evictLRU
  · exact h.delete key

/-- Evictions leave the clock and the number of the sets, and start no timer. -/
lemma evictLRU_frame (s : MemoryAdapter) : s.evictLRU.now = s.now ∧ s.evictLRU.sets = s.sets ∧
    ∀ key timer, s.evictLRU.timers.get key = some timer → s.timers.get key = some timer := by
  obtain he | ⟨first, -, he⟩ := evictLRU_cases s
  · rw [he]
    exact ⟨rfl, rfl, fun _ _ => id⟩
  · rw [he]
    refine ⟨(clearTimer_frame s first).2.2.1, delete_sets s first, fun key timer ht => ?_⟩
    change (s.delete first).1.timers.get key = some timer at ht
    rw [delete_timers] at ht
    split at ht
    · cases ht
    · exact ht

lemma makeRoom_frame (config : MemoryAdapterConfig) (s : MemoryAdapter) (key : String) :
    (makeRoom config s key).sets = s.sets := by
  rw [makeRoom_eq]
  split
  · exact (evictLRU_frame _).2.1.trans (delete_sets s key)
  · exact delete_sets s key

/-- The new entry of a key, stored by the `set` with a number, and no timer for it. -/
structure Stored (key : String) (entry : CacheEntry) (number : ℕ) (s : MemoryAdapter) : Prop where
  core : Core s
  newest : ∃ older, s.store.entries = older ++ [(key, entry)]
  sets : s.sets = number + 1
  last : lastSet s.log key = some number
  timers : s.timers.get key = none
  timer_lt : ∀ key' timer, s.timers.get key' = some timer → timer < number

lemma Stored.get {key : String} {entry : CacheEntry} {number : ℕ} (h : Stored key entry number s) :
    s.store.get key = some entry := by
  obtain ⟨older, holder⟩ := h.newest
  rw [← OrdMap.mem_entries_iff, holder]
  simp

lemma Stored.evictLRU {key : String} {entry : CacheEntry} {number : ℕ}
    (h : Stored key entry number s) (hsize : 1 < s.store.size) :
    Stored key entry number s.evictLRU := by
  obtain ⟨-, hsets, htimers⟩ := evictLRU_frame s
  refine ⟨h.core.evictLRU, ?_, hsets.trans h.sets, ?_, ?_, fun key' timer ht =>
    h.timer_lt key' timer (htimers key' timer ht)⟩
  · obtain ⟨older, holder⟩ := h.newest
    cases older with
    | nil =>
        rw [OrdMap.size, holder] at hsize
        exact absurd hsize (Nat.lt_irrefl 1)
    | cons e older => exact ⟨older, evictLRU_entries holder⟩
  · obtain he | ⟨first, -, he⟩ := evictLRU_cases s
    · exact he.symm ▸ h.last
    · rw [he, lastSet_evicted]
      exact h.last
  · refine Option.eq_none_iff_forall_ne_some.mpr fun timer ht => ?_
    exact absurd (h.timers.symm.trans (htimers key timer ht)) (by rintro ⟨⟩)

/-- Storing an entry where there is room for it. -/
lemma stored_insert (hmax : 1 ≤ config.maxEntries) {key : String} {entry : CacheEntry}
    (h : Core s) (hroom : Room key s) :
    Stored key entry s.sets (insert config s key entry) ∧
      ((insert config s key entry).store.size : ℚ) ≤ config.maxEntries := by
  have hkeys : key ∉ s.store.keys := by
    rw [OrdMap.mem_keys_iff, hroom.store]
    exact nofun
  have hentries := OrdMap.entries_set_of_get_none hroom.store entry
  unfold insert
  have hstep (s' : MemoryAdapter) (hlt : config.maxEntries < s'.store.size)
      (hs : Stored key entry s.sets s') : Stored key entry s.sets s'.evictLRU :=
    hs.evictLRU (by exact_mod_cast hmax.trans_lt hlt)
  refine ⟨evictWhile_invariant hstep _ ?_, evictWhile_size (zero_le_one.trans hmax) (Nat.le_refl _)⟩
  · refine ⟨⟨h.pending_iff, ?_, ?_, ?_, ?_, h.evicts.append nofun⟩, ⟨_, hentries⟩, rfl, ?_,
      hroom.timers, h.timer_lt⟩
    · exact fun key' timer ht => Nat.lt_succ_of_lt (h.timer_lt key' timer ht)
    · intro key' timer ht
      rw [lastSet_stored, if_neg]
      · exact h.own_timer key' timer ht
      · rintro rfl
        exact absurd (hroom.timers.symm.trans ht) nofun
    · intro key' timer ht
      obtain ⟨e, he, hpos⟩ := h.expires key' timer ht
      refine ⟨e, ?_, hpos⟩
      rw [OrdMap.get_set_ne, he]
      rintro rfl
      exact absurd (hroom.timers.symm.trans ht) nofun
    · rw [usesOf_stored, OrdMap.keys, hentries, List.map_append]
      exact h.ordered.use hkeys
    · rw [lastSet_stored, if_pos rfl]

/-- Starting the timer of the entry that was just stored. -/
lemma Stored.startTimer {key : String} {entry : CacheEntry} {number : ℕ}
    (h : Stored key entry number s) (hpos : 0 < entry.expiresAt) :
    Core (s.startTimer key number) where
  pending_iff timer key' := by
    unfold MemoryAdapter.startTimer
    dsimp only
    rw [OrdMap.get_set, OrdMap.get_set]
    split
    next ht =>
      subst ht
      split
      next hk => rw [hk]; simp
      next hk =>
        refine iff_of_false (fun he => hk (Option.some.inj he)) fun ht => ?_
        exact Nat.lt_irrefl _ (h.timer_lt key' _ ht)
    next ht =>
      rw [h.core.pending_iff]
      split
      next hk =>
        subst hk
        rw [h.timers]
        exact iff_of_false (by rintro ⟨⟩) fun he => ht (Option.some.inj he)
      next => rfl
  timer_lt key' timer ht := by
    change (s.timers.set key number).get key' = some timer at ht
    rw [OrdMap.get_set] at ht
    show timer < s.sets
    split at ht
    · rw [← Option.some.inj ht, h.sets]
      exact Nat.lt_succ_self _
    · exact h.core.timer_lt key' timer ht
  own_timer key' timer ht := by
    change (s.timers.set key number).get key' = some timer at ht
    rw [OrdMap.get_set] at ht
    split at ht
    next hk => exact hk ▸ (Option.some.inj ht) ▸ h.last
    next => exact h.core.own_timer key' timer ht
  expires key' timer ht := by
    change (s.timers.set key number).get key' = some timer at ht
    rw [OrdMap.get_set] at ht
    split at ht
    next hk => exact ⟨entry, hk ▸ h.get, hpos⟩
    next => exact h.core.expires key' timer ht
  ordered := h.core.ordered
  evicts := h.core.evicts

/-- What every method keeps: the cache is in order and small enough. -/
structure Sound (config : MemoryAdapterConfig) (s : MemoryAdapter) : Prop extends Core s where
  size_le : (s.store.size : ℚ) ≤ config.maxEntries

lemma sound_init (hmax : 1 ≤ config.maxEntries) (now : ℕ) : Sound config { now } where
  pending_iff _ _ := iff_of_false nofun nofun
  timer_lt := nofun
  own_timer := nofun
  expires := nofun
  ordered := List.Pairwise.nil
  evicts before victim kept after h := by simp at h
  size_le := by
    rw [show ({ now } : MemoryAdapter).store.size = 0 from rfl, Nat.cast_zero]
    exact zero_le_one.trans hmax

lemma Sound.delete (h : Sound config s) (key : String) : Sound config (s.delete key).1 where
  toCore := h.toCore.delete key
  size_le := by
    rw [delete_store]
    exact (Nat.cast_le.mpr (s.store.size_delete_le key)).trans h.size_le

lemma Sound.get (h : Sound config s) (key : String) : Sound config (s.get key).1 where
  toCore := h.toCore.get key
  size_le := by
    refine le_trans (Nat.cast_le.mpr ?_) h.size_le
    unfold MemoryAdapter.get
    split
    next => exact Nat.le_refl _
    next entry hentry =>
      split
      next => exact (delete_store s key).symm ▸ s.store.size_delete_le key
      next =>
        have habsent : (s.store.delete key).get key = none := by
          rw [OrdMap.get_delete, if_pos rfl]
        show ((s.store.delete key).set key entry).size ≤ s.store.size
        rw [OrdMap.size, OrdMap.entries_set_of_get_none habsent, List.length_append,
          ← OrdMap.size_delete_of_get hentry]
        exact Nat.le_refl _

/-- A pending timer deletes its key. -/
lemma Core.fire_eq (h : Core s) {timer : ℕ} (hs : s.fire timer = some s') :
    ∃ key, s.timers.get key = some timer ∧ s' = (s.delete key).1 := by
  unfold fire at hs
  split at hs
  next => cases hs
  next key hkey =>
    have ht := (h.pending_iff timer key).mp hkey
    refine ⟨key, ht, ?_⟩
    obtain rfl := Option.some.inj hs
    unfold MemoryAdapter.delete clearTimer
    dsimp only
    rw [ht]
    dsimp only
    rw [OrdMap.delete_delete]

/-! ### Entries that expire -/

/-- Every entry of a key with `p` that expires has a timer. -/
def TimedOn (p : String → Prop) (s : MemoryAdapter) : Prop :=
  ∀ key e, p key → s.store.get key = some e → e.expiresAt ≠ 0 →
    ∃ timer, s.timers.get key = some timer

/-- Every entry that expires has a timer. -/
def Timed (s : MemoryAdapter) : Prop := TimedOn (fun _ => True) s

variable {p : String → Prop}

lemma TimedOn.delete (h : TimedOn p s) (key : String) : TimedOn p (s.delete key).1 := by
  intro key' e hp he hne
  rw [delete_store, OrdMap.get_delete] at he
  rw [delete_timers]
  split at he
  · cases he
  · next hk =>
    rw [if_neg hk]
    exact h key' e hp he hne

lemma TimedOn.evictLRU (h : TimedOn p s) : TimedOn p s.evictLRU := by
  obtain he | ⟨first, -, he⟩ := evictLRU_cases s
  · exact he.symm ▸ h
  · rw [he]
    exact h.delete first

lemma TimedOn.get (h : TimedOn p s) (key : String) : TimedOn p (s.get key).1 := by
  unfold MemoryAdapter.get
  split
  next => exact h
  next entry hentry =>
    split
    next => exact h.delete key
    next =>
      intro key' e hp he hne
      change ((s.store.delete key).set key entry).get key' = some e at he
      rw [OrdMap.get_set, OrdMap.get_delete] at he
      refine h key' e hp ?_ hne
      split at he
      next hk => exact hk ▸ hentry.trans he
      next hk => exact he

lemma timedOn_insert (h : Timed s) (key : String) (entry : CacheEntry) :
    TimedOn (· ≠ key) (insert config (makeRoom config s key) key entry) := by
  have hroom : TimedOn (· ≠ key) (makeRoom config s key) := by
    have hs : TimedOn (· ≠ key) s := fun key' e _ => h key' e trivial
    rw [makeRoom_eq]
    split
    · exact (hs.delete key).evictLRU
    · exact hs.delete key
  unfold MemoryAdapter.insert
  refine evictWhile_invariant (fun _ _ hs => hs.evictLRU) _ fun key' e hp he hne => ?_
  refine hroom key' e hp ?_ hne
  rwa [← OrdMap.get_set_ne _ entry (Ne.symm hp)]

/-- What the code does not check: with a negative default TTL `set` would store an entry that
expires, but for the instant at which the sum is 0. -/
def Checked (config : MemoryAdapterConfig) (s : MemoryAdapter) : Action → Prop
  | .set _ _ none => ∀ ttl, config.defaultTtl = some ttl → ttl < 0 → s.now + ttl * 1000 = 0
  | _ => True

/-- Without its timer a new entry must not expire. -/
lemma Stored.timed_iff {key : String} {entry : CacheEntry} {number : ℕ}
    (h : Stored key entry number s) (ht : TimedOn (· ≠ key) s) :
    Timed s ↔ entry.expiresAt = 0 := by
  constructor
  · intro htimed
    by_contra hne
    obtain ⟨timer, htimer⟩ := htimed key entry trivial h.get hne
    exact absurd (h.timers.symm.trans htimer) nofun
  · intro hzero key' e _ he hne
    refine ht key' e ?_ he hne
    rintro rfl
    rw [h.get] at he
    exact hne (Option.some.inj he ▸ hzero)

lemma timed_startTimer {key : String} (ht : TimedOn (· ≠ key) s) (timer : ℕ) :
    Timed (s.startTimer key timer) := by
  intro key' e _ he hne
  show ∃ timer', (s.timers.set key timer).get key' = some timer'
  rw [OrdMap.get_set]
  split
  next => exact ⟨timer, rfl⟩
  next hk => exact ht key' e (Ne.symm hk) he hne

/-- **What `set` does**: it keeps the cache in order, and the new entry has a timer if it
expires, unless its TTL is negative. -/
lemma set_ok (hmax : 1 ≤ config.maxEntries) {key value : String} {ttl : Option ℚ}
    (h : Sound config s) (hs : s.set config key value ttl = .ok s') :
    Sound config s' ∧ (Timed s → (Timed s' ↔
      ∀ t, effectiveTtl config ttl = some t → t < 0 → s.now + t * 1000 = 0)) := by
  unfold MemoryAdapter.set at hs
  split at hs
  next => cases hs
  next =>
    generalize hentry : CacheEntry.mk value (expiry s.now (effectiveTtl config ttl))
      (estimateSize key value) = entry at hs
    have hexpires : entry.expiresAt = expiry s.now (effectiveTtl config ttl) := by rw [← hentry]
    obtain ⟨hstored, hsize⟩ := @stored_insert config (makeRoom config s key) hmax key entry
      (h.toCore.makeRoom key) (room_makeRoom config s key)
    have htimed (ht : Timed s) := @timedOn_insert config s ht key entry
    rw [makeRoom_frame] at hstored
    dsimp only at hs
    rw [hentry] at hs
    revert hs hstored hsize htimed
    generalize MemoryAdapter.insert config (makeRoom config s key) key entry = stored
    intro hs hstored hsize htimed
    obtain rfl := Except.ok.inj hs
    have hstays : Sound config stored := ⟨hstored.core, hsize⟩
    have hnow : (0 : ℚ) ≤ s.now := Nat.cast_nonneg s.now
    cases heff : effectiveTtl config ttl with
    | none =>
        rw [heff] at hexpires
        refine ⟨hstays, fun ht => ?_⟩
        rw [show (none : Option ℚ).any (0 < ·) = false from rfl, if_neg Bool.false_ne_true]
        exact iff_of_true ((hstored.timed_iff (htimed ht)).mpr hexpires) nofun
    | some t =>
        rw [heff, expiry] at hexpires
        by_cases hpos : 0 < t
        · rw [if_neg hpos.ne'] at hexpires
          have hentryPos : 0 < entry.expiresAt := by rw [hexpires]; positivity
          rw [Option.any_some, if_pos (decide_eq_true hpos)]
          refine ⟨⟨hstored.startTimer hentryPos, hsize⟩, fun ht => ?_⟩
          refine iff_of_true (timed_startTimer (htimed ht) _) fun t' ht' hneg => ?_
          rw [← Option.some.inj ht'] at hneg
          exact absurd hneg hpos.not_gt
        · rw [Option.any_some, if_neg (by simpa using hpos)]
          refine ⟨hstays, fun ht => ?_⟩
          rw [hstored.timed_iff (htimed ht), hexpires]
          split
          next hzero =>
            refine iff_of_true rfl fun t' ht' hneg => ?_
            rw [← Option.some.inj ht', hzero] at hneg
            exact absurd hneg (lt_irrefl 0)
          next hne =>
            have hneg : t < 0 := lt_of_le_of_ne (not_lt.mp hpos) hne
            exact ⟨fun hsum t' ht' _ => Option.some.inj ht' ▸ hsum, fun hall => hall t rfl hneg⟩

/-! ### Runs -/

/-- **Every action keeps the cache in order**, and it keeps the timers complete exactly if no
`set` falls back on a negative default. -/
lemma step_sound (hmax : 1 ≤ config.maxEntries) {a : Action} (h : Sound config s)
    (hs : step config s a = some s') :
    Sound config s' ∧ (Timed s → (Timed s' ↔ Checked config s a)) := by
  cases a with
  | get key =>
      obtain rfl := Option.some.inj hs
      exact ⟨h.get key, fun ht => iff_of_true (ht.get key) trivial⟩
  | set key value ttl =>
      dsimp only [step] at hs
      split at hs
      next error herror =>
        obtain rfl := Option.some.inj hs
        refine ⟨h, fun ht => iff_of_true ht ?_⟩
        cases ttl with
        | none =>
            rw [MemoryAdapter.set, if_neg (by simp)] at herror
            cases herror
        | some t => trivial
      next stored hstored =>
        obtain rfl := Option.some.inj hs
        obtain ⟨hsound, htimed⟩ := set_ok hmax h hstored
        refine ⟨hsound, fun ht => (htimed ht).trans ?_⟩
        cases ttl with
        | none => exact Iff.rfl
        | some t =>
            refine iff_of_true (fun t' ht' hneg => ?_) trivial
            rw [MemoryAdapter.set, if_pos] at hstored
            · cases hstored
            · rw [Option.any_some, Option.some.inj ht']
              exact decide_eq_true hneg
  | delete key =>
      obtain rfl := Option.some.inj hs
      exact ⟨h.delete key, fun ht => iff_of_true (ht.delete key) trivial⟩
  | keys pattern =>
      obtain rfl := Option.some.inj hs
      exact ⟨h, fun ht => iff_of_true ht trivial⟩
  | clear pattern =>
      obtain rfl := Option.some.inj hs
      exact ⟨⟨⟨h.pending_iff, h.timer_lt, h.own_timer, h.expires, h.ordered, h.evicts⟩, h.size_le⟩,
        fun ht => iff_of_true ht trivial⟩
  | clearNext call =>
      dsimp only [step, clearNext] at hs
      split at hs
      next key rest _ =>
        obtain rfl := Option.some.inj hs
        have hd := h.delete key
        exact ⟨⟨⟨hd.pending_iff, hd.timer_lt, hd.own_timer, hd.expires, hd.ordered, hd.evicts⟩,
          hd.size_le⟩, fun ht => iff_of_true (ht.delete key) trivial⟩
      next => cases hs
  | fire timer =>
      obtain ⟨key, -, rfl⟩ := h.fire_eq hs
      exact ⟨h.delete key, fun ht => iff_of_true (ht.delete key) trivial⟩
  | tick ms =>
      obtain rfl := Option.some.inj hs
      exact ⟨⟨⟨h.pending_iff, h.timer_lt, h.own_timer, h.expires, h.ordered, h.evicts⟩, h.size_le⟩,
        fun ht => iff_of_true ht trivial⟩

/-- The cache as its callers see it: an LRU map whose entries expire. -/
structure Lru (config : MemoryAdapterConfig) (s : MemoryAdapter) : Prop where
  size_le : (s.store.size : ℚ) ≤ config.maxEntries
  /-- The keys with a pending timer are the stored keys with an expiry. -/
  timer_iff : ∀ key, (∃ timer, s.pending.get timer = some key) ↔
    ∃ e, s.store.get key = some e ∧ e.expiresAt ≠ 0
  /-- A timer removes no value but that of the `set` that has started it. -/
  own_timer : ∀ timer s', s.fire timer = some s' → ∀ key, s.store.has key = true →
    s'.store.has key = false → lastSet s.log key = some timer
  /-- An expired entry is never returned. -/
  get_valid : ∀ key value, (s.get key).2 = some value →
    ∃ e, s.store.get key = some e ∧ e.value = value ∧ s.Valid e
  keys_valid : ∀ pattern, ∀ key ∈ s.keys pattern, ∃ e, s.store.get key = some e ∧ s.Valid e
  getTTL_valid : ∀ key seconds, s.getTTL key = some seconds →
    ∃ e, s.store.get key = some e ∧ s.Valid e
  /-- The victim of an eviction is the key whose last hit or `set` is the oldest. -/
  evicts : EvictsOldest s.log

/-- `get` returns an entry that has no expiry, or one that lies ahead or is negative. -/
lemma get_eq_some {key value : String} (h : (s.get key).2 = some value) :
    ∃ e, s.store.get key = some e ∧ e.value = value ∧
      (e.expiresAt ≤ 0 ∨ s.now < e.expiresAt) := by
  unfold MemoryAdapter.get at h
  split at h
  next => cases h
  next entry hentry =>
    split at h
    next => cases h
    next hvalid =>
      refine ⟨entry, hentry, Option.some.inj h, ?_⟩
      rcases not_and_or.mp hvalid with hle | hlt
      · exact .inl (not_lt.mp hle)
      · exact .inr (not_le.mp hlt)

lemma mem_keys {pattern key : String} (h : key ∈ s.keys pattern) :
    ∃ e, s.store.get key = some e ∧ s.Valid e := by
  have hmem : key ∈ (s.store.entries.filter fun e => s.Valid e.2).map Prod.fst := by
    unfold MemoryAdapter.keys at h
    split at h
    · exact h
    · exact (List.mem_filter.mp h).1
  obtain ⟨⟨key', e⟩, he, rfl⟩ := List.mem_map.mp hmem
  obtain ⟨hentry, hvalid⟩ := List.mem_filter.mp he
  exact ⟨e, (s.store.mem_entries_iff).mp hentry, of_decide_eq_true hvalid⟩

lemma getTTL_eq_some {key : String} {seconds : ℤ} (h : s.getTTL key = some seconds) :
    ∃ e, s.store.get key = some e ∧ s.Valid e := by
  unfold getTTL at h
  split at h
  next => cases h
  next entry hentry =>
    split at h
    next => cases h
    next =>
      dsimp only at h
      split at h
      next => cases h
      next hpos => exact ⟨entry, hentry, .inr (sub_pos.mp (not_le.mp hpos))⟩

/-- **A cache in order is what its callers expect exactly if every entry that expires has a
timer.** -/
theorem lru_iff (h : Sound config s) : Lru config s ↔ Timed s := by
  constructor
  · intro hlru key e _ he hne
    obtain ⟨timer, htimer⟩ := (hlru.timer_iff key).mpr ⟨e, he, hne⟩
    exact ⟨timer, (h.pending_iff timer key).mp htimer⟩
  · intro htimed
    refine ⟨h.size_le, fun key => ?_, fun timer s' hfire key hkey hgone => ?_,
      fun key value hvalue => ?_, fun pattern key => mem_keys, fun key seconds => getTTL_eq_some,
      h.evicts⟩
    · constructor
      · rintro ⟨timer, htimer⟩
        obtain ⟨e, he, hpos⟩ := h.expires key timer ((h.pending_iff timer key).mp htimer)
        exact ⟨e, he, hpos.ne'⟩
      · rintro ⟨e, he, hne⟩
        obtain ⟨timer, htimer⟩ := htimed key e trivial he hne
        exact ⟨timer, (h.pending_iff timer key).mpr htimer⟩
    · obtain ⟨key', htimer, rfl⟩ := h.fire_eq hfire
      obtain rfl : key' = key := by
        by_contra hne
        rw [delete_store, OrdMap.has, OrdMap.get_delete_ne _ hne, ← OrdMap.has, hkey] at hgone
        cases hgone
      exact h.own_timer key' timer htimer
    · obtain ⟨e, he, rfl, hvalid⟩ := get_eq_some hvalue
      refine ⟨e, he, rfl, hvalid.imp_left fun hle => ?_⟩
      -- a negative expiry has no timer
      by_contra hne
      obtain ⟨timer, htimer⟩ := htimed key e trivial he hne
      obtain ⟨e', he', hpos⟩ := h.expires key timer htimer
      rw [he, Option.some.injEq] at he'
      exact absurd hle (he' ▸ hpos).not_ge

/-- **Along every run the cache is an LRU map whose entries expire, exactly if no `set` falls
back on a negative default TTL.** -/
theorem lru_iff_checked (hmax : 1 ≤ config.maxEntries) (now : ℕ) (as : List Action) :
    (∀ bs, bs <+: as → ∀ s, exec (step config) { now } bs = some s → Lru config s) ↔
      Meets (step config) (Checked config) { now } as := by
  have hsound := sound_init hmax now
  have hiff : (∀ bs, bs <+: as → ∀ s, exec (step config) { now } bs = some s → Lru config s) ↔
      ∀ bs, bs <+: as → ∀ s, exec (step config) { now } bs = some s → Timed s := by
    refine forall_congr' fun bs => imp_congr_right fun _ => forall_congr' fun s =>
      imp_congr_right fun hs => lru_iff ?_
    exact meets_invariant (I := Sound config) (fun s a s' h _ hstep => (step_sound hmax h hstep).1)
      hsound (meets_true _ bs) hs
  rw [hiff]
  refine forall_prefix_iff_meets (J := Sound config)
    (fun s a s' h hstep => (step_sound hmax h hstep).1)
    (fun s a s' h ht hstep => (step_sound hmax h hstep).2 ht) (fun s a hnone => ?_) hsound nofun as
  cases a with
  | set key value ttl =>
      dsimp only [step] at hnone
      split at hnone <;> cases hnone
  | _ => trivial

/-- Two keys in a cache of one entry: the second evicts the first and takes its timer away. -/
theorem lru_iff_checked_evicts :
    ∃ s, exec (step { maxEntries := 1 }) { now := 0 }
        [.set "a" "1" (some 10), .tick 9, .set "b" "2" none] = some s ∧
      Lru { maxEntries := 1 } s :=
  ⟨_, rfl,
    (@lru_iff_checked { maxEntries := 1 } (le_refl 1) 0
      [.set "a" "1" (some 10), .tick 9, .set "b" "2" none]).mpr
        ⟨trivial, trivial, nofun, trivial⟩ _ (List.prefix_refl _) _ rfl⟩

/-- With a default TTL of minus one second an entry expires without a timer. -/
theorem not_lru :
    ¬ ∀ config : MemoryAdapterConfig, 1 ≤ config.maxEntries → ∀ (now : ℕ) (as : List Action) s,
      exec (step config) { now } as = some s → Lru config s := by
  intro h
  have hlru := h { defaultTtl := some (-1) } (by decide +kernel) 5000 [.set "a" "1" none] _ rfl
  obtain ⟨timer, htimer⟩ := (hlru.timer_iff "a").mpr
    ⟨⟨"1", 4000, 44⟩, by decide +kernel, by decide +kernel⟩
  exact absurd htimer nofun

end MemoryAdapter

end Blaize.Cache
