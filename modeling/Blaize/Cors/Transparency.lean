import Blaize.Cors.OriginValidator

/-!
When the origin cache is invisible: every call of `validateOrigin` returns what validation
without the cache returns for its arguments.

The key of the cache is one text, put together from the request's origin, a rendering of the
configuration and the user with `:`, `,` and fixed words between them that may also occur
inside the parts, so two calls with different arguments can share a key.  And the verdict of
a regular expression with the flag `g` or `y` is no function of the texts at all.

* `SameArguments`: two calls that differ in the user and the identity of objects only;
* `KeyFaithful`: a call that finds an entry shares its key only with earlier calls of the
  same arguments;
* `transparent_of_keyFaithful`: **in a run of such calls the cache is invisible**;
* `not_transparent_of_collision`: two calls with one key and different verdicts make it
  visible.
-/

namespace Blaize.Cors

open Machine

/-! ### What the cache holds after an operation -/

namespace OriginCache

variable (c : OriginCache) {k key : String} {e : CacheEntry} {allowed : Bool} {now : ℤ}

/-- A hit is the verdict of a stored entry. -/
lemma get_hit (h : (c.get key now).1 = some allowed) :
    ∃ e, c.cache.get key = some e ∧ e.allowed = allowed := by
  rw [OriginCache.get] at h
  split at h
  next => cases h
  next entry hentry =>
      split at h
      next => cases h
      next => exact ⟨entry, hentry, Option.some.inj h⟩

/-- A lookup stores no verdict that was not there. -/
lemma get_stored (h : (c.get key now).2.cache.get k = some e) :
    ∃ e', c.cache.get k = some e' ∧ e.allowed = e'.allowed := by
  rw [OriginCache.get] at h
  split at h
  next => exact ⟨e, h, rfl⟩
  next entry hentry =>
      split at h
      next =>
          rw [OrdMap.get_delete] at h
          split at h
          next => cases h
          next => exact ⟨e, h, rfl⟩
      next =>
          rw [OrdMap.get_set] at h
          split at h
          next hk =>
              obtain rfl := Option.some.inj h
              exact ⟨entry, hk ▸ hentry, rfl⟩
          next => exact ⟨e, h, rfl⟩

lemma evictLRU_stored (h : c.evictLRU.cache.get k = some e) : c.cache.get k = some e := by
  rw [evictLRU] at h
  split at h
  next =>
      split at h
      next => exact h
      next =>
          rw [OrdMap.get_delete] at h
          split at h
          next => cases h
          next => exact h
  next => exact h

/-- After a store the cache holds the new verdict and some of the old entries. -/
lemma set_stored (h : (c.set key allowed now).cache.get k = some e) :
    k = key ∧ e.allowed = allowed ∨ c.cache.get k = some e := by
  have hput : ∀ {c' : OriginCache} {entry : CacheEntry}, entry.allowed = allowed →
      (∀ e, c'.cache.get k = some e → c.cache.get k = some e) →
      (c'.cache.set key entry).get k = some e →
      k = key ∧ e.allowed = allowed ∨ c.cache.get k = some e := by
    intro c' entry hentry hold h
    rw [OrdMap.get_set] at h
    split at h
    next hk =>
        obtain rfl := Option.some.inj h
        exact .inl ⟨hk.symm, hentry⟩
    next => exact .inr (hold e h)
  rw [OriginCache.set] at h
  split at h
  next => exact hput rfl (fun _ => id) h
  next =>
      refine hput rfl (fun e' h' => ?_) h
      split at h'
      next => exact c.evictLRU_stored h'
      next => exact h'

lemma cleanExpired_stored (h : (c.cleanExpired now).cache.get k = some e) :
    c.cache.get k = some e := by
  rw [cleanExpired, OrdMap.get_foldl_delete] at h
  split at h
  next => cases h
  next => exact h

/-- Within its time to live a stored verdict is found. -/
lemma get_set_hit {now' : ℤ} (h : now' ≤ now + c.ttl) :
    ((c.set key allowed now).get key now').1 = some allowed := by
  have hget : ∃ entry, (c.set key allowed now).cache.get key = some entry ∧
      entry.allowed = allowed ∧ entry.expiresAt = now + c.ttl := by
    rw [OriginCache.set]
    split
    next => exact ⟨_, OrdMap.get_set_self _ _ _, rfl, rfl⟩
    next => exact ⟨_, OrdMap.get_set_self _ _ _, rfl, rfl⟩
  obtain ⟨entry, hentry, hallowed, hexpires⟩ := hget
  rw [OriginCache.get, hentry]
  simp only [hexpires, if_neg (Int.not_lt.mpr h), hallowed]

end OriginCache

/-! ### Verdicts that are functions of the texts -/

/-- The texts of a configured origin, without the identity of its objects. -/
def SingleOrigin.texts : SingleOrigin → SingleOrigin
  | .regexp r => .regexp { r with object := 0 }
  | o => o

def ConfiguredOrigin.texts : ConfiguredOrigin → ConfiguredOrigin
  | .bool allow => .bool allow
  | .single o => .single o.texts
  | .array os => .array (os.map SingleOrigin.texts)

/-- A regular expression with the flag `g` or `y`. -/
def SingleOrigin.isStateful : SingleOrigin → Bool
  | .regexp r => r.isStateful
  | _ => false

def ConfiguredOrigin.isStateful : ConfiguredOrigin → Bool
  | .bool _ => false
  | .single o => o.isStateful
  | .array os => os.any SingleOrigin.isStateful

/-- The two calls have the same origin and the same configuration, without a regular
expression that remembers its last match; users and objects may differ. -/
def SameArguments (c c' : Call) : Prop :=
  c.requestOrigin = c'.requestOrigin ∧ c.configuredOrigin.texts = c'.configuredOrigin.texts ∧
    c.configuredOrigin.isStateful = false

instance (c c' : Call) : Decidable (SameArguments c c') := inferInstanceAs (Decidable (_ ∧ _))

variable (matching : Matching)

lemma validateSingleOrigin_congr {o o' : SingleOrigin} (origin : String) (at_ at' : LastIndices)
    (htexts : o.texts = o'.texts) (hstate : o.isStateful = false) :
    (validateSingleOrigin matching origin at_ o).1 =
      (validateSingleOrigin matching origin at' o').1 := by
  cases o with
  | regexp r =>
      cases o' with
      | regexp r' =>
          obtain ⟨object, source, flags⟩ := r
          obtain ⟨object', source', flags'⟩ := r'
          simp only [SingleOrigin.texts, SingleOrigin.regexp.injEq, RegExp.mk.injEq, true_and]
            at htexts
          obtain ⟨rfl, rfl⟩ := htexts
          simp only [SingleOrigin.isStateful, RegExp.isStateful] at hstate
          simp only [validateSingleOrigin, RegExp.test, RegExp.isStateful, hstate,
            Bool.false_eq_true, if_false]
      | _ => simp [SingleOrigin.texts] at htexts
  | text s =>
      cases o' with
      | text s' =>
          obtain rfl : s = s' := by simpa [SingleOrigin.texts] using htexts
          rfl
      | _ => simp [SingleOrigin.texts] at htexts
  | function f =>
      cases o' with
      | function f' => rfl
      | _ => simp [SingleOrigin.texts] at htexts

lemma validateOrigins_congr {os os' : List SingleOrigin} (origin : String)
    (at_ at' : LastIndices) (htexts : os.map SingleOrigin.texts = os'.map SingleOrigin.texts)
    (hstate : os.any SingleOrigin.isStateful = false) :
    (validateOrigins matching origin at_ os).1 = (validateOrigins matching origin at' os').1 := by
  induction os generalizing os' at_ at' with
  | nil =>
      obtain rfl : os' = [] := by simpa using htexts.symm
      rfl
  | cons o os ih =>
      cases os' with
      | nil => simp at htexts
      | cons o' os' =>
          rw [List.map_cons, List.map_cons, List.cons.injEq] at htexts
          rw [List.any_cons, Bool.or_eq_false_iff] at hstate
          simp only [validateOrigins, List.cons.injEq]
          exact ⟨validateSingleOrigin_congr matching origin at_ at' htexts.1 hstate.1,
            ih _ _ htexts.2 hstate.2⟩

/-- What a call awaits is a function of its texts. -/
lemma promises_congr {c c' : Call} (at_ at' : LastIndices) (h : SameArguments c c') :
    (promises matching c.requestOrigin at_ c.configuredOrigin).1 =
      (promises matching c'.requestOrigin at' c'.configuredOrigin).1 := by
  obtain ⟨origin, config, state⟩ := c
  obtain ⟨origin', config', state'⟩ := c'
  obtain ⟨rfl, htexts, hstate⟩ := h
  cases config with
  | bool b =>
      cases config' with
      | bool b' => rfl
      | _ => cases htexts
  | single o =>
      cases config' with
      | single o' =>
          have ho : o.texts = o'.texts := ConfiguredOrigin.single.inj htexts
          exact congrArg ([·]) (validateSingleOrigin_congr matching origin at_ at' ho hstate)
      | _ => cases htexts
  | array os =>
      cases config' with
      | array os' =>
          have hos : os.map SingleOrigin.texts = os'.map SingleOrigin.texts :=
            ConfiguredOrigin.array.inj htexts
          exact validateOrigins_congr matching origin at_ at' hos hstate
      | _ => cases htexts

lemma verdict_congr {config config' : ConfiguredOrigin} (h : config.texts = config'.texts)
    (results : List Bool) : verdict config results = verdict config' results := by
  cases config with
  | bool b =>
      cases config' with
      | bool b' => exact ConfiguredOrigin.bool.inj h
      | _ => cases h
  | single o =>
      cases config' with
      | single o' => rfl
      | _ => cases h
  | array os =>
      cases config' with
      | array os' => rfl
      | _ => cases h

/-- **Calls with the same arguments have the same verdict.** -/
lemma validateUncached_congr {c c' : Call} (at_ at' : LastIndices)
    (outcomes : List FunctionOutcome) (h : SameArguments c c') :
    validateUncached matching c at_ outcomes = validateUncached matching c' at' outcomes := by
  rw [validateUncached, validateUncached, promises_congr matching at_ at' h,
    verdict_congr h.2.1]

/-! ### Cacheable calls await no function -/

lemma validateSingleOrigin_isSome {o : SingleOrigin} (origin : String) (at_ : LastIndices)
    (h : o.isFunction = false) : (validateSingleOrigin matching origin at_ o).1.isSome := by
  cases o with
  | function f => cases h
  | _ => rfl

lemma isSome_of_mem_validateOrigins {os : List SingleOrigin} {origin : String}
    {at_ : LastIndices} (h : os.all (!·.isFunction)) :
    ∀ p ∈ (validateOrigins matching origin at_ os).1, p.isSome := by
  induction os generalizing at_ with
  | nil => simp [validateOrigins]
  | cons o os ih =>
      rw [List.all_cons, Bool.and_eq_true, Bool.not_eq_true'] at h
      simp only [validateOrigins, List.mem_cons]
      rintro p (rfl | hp)
      · exact validateSingleOrigin_isSome matching origin at_ h.1
      · exact ih h.2 p hp

lemma isSome_of_mem_promises {config : ConfiguredOrigin} {origin : String} {at_ : LastIndices}
    (h : isCacheable config) : ∀ p ∈ (promises matching origin at_ config).1, p.isSome := by
  cases config with
  | bool b => cases h
  | single o =>
      have ho : o.isFunction = false := by simpa [isCacheable] using h
      simpa [promises] using validateSingleOrigin_isSome matching origin at_ ho
  | array os => exact isSome_of_mem_validateOrigins matching h

lemma awaited_of_isSome {ps : List (Option Bool)} (h : ∀ p ∈ ps, p.isSome)
    (outcomes : List FunctionOutcome) : awaited ps outcomes = awaited ps [] := by
  induction ps with
  | nil => rfl
  | cons p ps ih =>
      cases p with
      | none => exact absurd (h none (by simp)) (by simp)
      | some b =>
          simp only [awaited, List.cons.injEq, true_and]
          exact ih fun p hp => h p (List.mem_cons_of_mem _ hp)

lemma validateUncached_of_cacheable {c : Call} (h : isCacheable c.configuredOrigin)
    (at_ : LastIndices) (outcomes : List FunctionOutcome) :
    validateUncached matching c at_ outcomes = validateUncached matching c at_ [] := by
  rw [validateUncached, validateUncached,
    awaited_of_isSome (isSome_of_mem_promises matching h)]

/-! ### The calls of a run -/

namespace World

/-- Every call that has returned gave the verdict of validation without the cache. -/
def Transparent (w : World) : Prop :=
  ∀ r ∈ w.calls, ∀ b ∈ r.answer,
    b = validateUncached matching r.call r.lastIndices r.outcomes

/-- A cacheable call that finds an entry under its key shares the key only with earlier
calls of the same arguments. -/
def KeyFaithful (w : World) : Action → Prop
  | .validateOrigin c now =>
      isCacheable c.configuredOrigin → (w.defaultCache.get c.key now).1.isSome →
        ∀ r ∈ w.calls, isCacheable r.call.configuredOrigin → r.call.key = c.key →
          SameArguments r.call c
  | _ => True

instance (w : World) : ∀ a, Decidable (w.KeyFaithful a)
  | .validateOrigin c _ =>
      inferInstanceAs (Decidable (isCacheable c.configuredOrigin = true → _))
  | .settle _ _ _ => .isTrue trivial
  | .cleanExpired _ => .isTrue trivial
  | .setOriginCache _ _ => .isTrue trivial

/-- The verdict is the one of a call made under the key. -/
def Backed (w : World) (key : String) (allowed : Bool) : Prop :=
  ∃ r ∈ w.calls, isCacheable r.call.configuredOrigin ∧ r.call.key = key ∧
    allowed = validateUncached matching r.call r.lastIndices []

/-- The invariant of the calls: the ones that returned are transparent, the others await
what their arguments say, and every cached verdict is the one of a call. -/
structure Faithful (w : World) : Prop where
  transparent : w.Transparent matching
  awaits : ∀ r ∈ w.calls, r.answer = none →
    r.promises = (promises matching r.call.requestOrigin r.lastIndices
      r.call.configuredOrigin).1
  backed : ∀ key e, w.defaultCache.cache.get key = some e → w.Backed matching key e.allowed

variable {matching} {w : World}

lemma Backed.append {key : String} {allowed : Bool} (h : w.Backed matching key allowed)
    {w' : World} {r : CallRecord} (hw : w'.calls = w.calls ++ [r]) :
    w'.Backed matching key allowed := by
  obtain ⟨r', hr', hback⟩ := h
  exact ⟨r', hw ▸ List.mem_append_left _ hr', hback⟩

/-- A new call keeps the invariant if it awaits what its arguments say, or has returned
their verdict. -/
lemma Faithful.push (h : w.Faithful matching) {w' : World} {r : CallRecord}
    (hcalls : w'.calls = w.calls ++ [r])
    (hcache : ∀ key e, w'.defaultCache.cache.get key = some e →
      ∃ e', w.defaultCache.cache.get key = some e' ∧ e.allowed = e'.allowed)
    (hanswer : ∀ b ∈ r.answer, b = validateUncached matching r.call r.lastIndices r.outcomes)
    (hawaits : r.answer = none →
      r.promises = (promises matching r.call.requestOrigin r.lastIndices
        r.call.configuredOrigin).1) :
    w'.Faithful matching where
  transparent := by
    intro r' hr'
    rw [hcalls, List.mem_append, List.mem_singleton] at hr'
    rcases hr' with hr' | rfl
    · exact h.transparent r' hr'
    · exact hanswer
  awaits := by
    intro r' hr'
    rw [hcalls, List.mem_append, List.mem_singleton] at hr'
    rcases hr' with hr' | rfl
    · exact h.awaits r' hr'
    · exact hawaits
  backed := by
    intro key e he
    obtain ⟨e', he', hallowed⟩ := hcache key e he
    rw [hallowed]
    exact (h.backed key e' he').append hcalls

lemma faithful_startValidation (h : w.Faithful matching) {cache : OriginCache} (c : Call)
    (hcache : ∀ key e, cache.cache.get key = some e →
      ∃ e', w.defaultCache.cache.get key = some e' ∧ e.allowed = e'.allowed) :
    ({ w with defaultCache := cache }.startValidation matching c).Faithful matching :=
  h.push rfl hcache (fun _ hb => by cases hb) fun _ => rfl

lemma faithful_answerAtOnce (h : w.Faithful matching) {cache : OriginCache} {c : Call}
    {answer : Bool}
    (hcache : ∀ key e, cache.cache.get key = some e →
      ∃ e', w.defaultCache.cache.get key = some e' ∧ e.allowed = e'.allowed)
    (hanswer : answer = validateUncached matching c w.lastIndices []) :
    ({ w with defaultCache := cache }.answerAtOnce c answer).Faithful matching :=
  h.push rfl hcache (fun b hb => by rw [← Option.some.inj hb, hanswer]) (fun hn => by cases hn)

/-- A hit returns the verdict of the call that was stored, which has the same arguments. -/
lemma hit_eq (h : w.Faithful matching) {c : Call} {now : ℤ} {cached : Bool}
    (hc : isCacheable c.configuredOrigin) (hkey : w.KeyFaithful (.validateOrigin c now))
    (hhit : (w.defaultCache.get c.key now).1 = some cached) :
    cached = validateUncached matching c w.lastIndices [] := by
  obtain ⟨e, he, hallow⟩ := w.defaultCache.get_hit hhit
  obtain ⟨r, hr, hcr, hrkey, hallowed⟩ := h.backed c.key e he
  rw [← hallow, hallowed]
  exact validateUncached_congr matching _ _ [] (hkey hc (by rw [hhit]; rfl) r hr hcr hrkey)

lemma faithful_validateOrigin (h : w.Faithful matching) {c : Call} {now : ℤ}
    (hkey : w.KeyFaithful (.validateOrigin c now)) :
    (w.validateOrigin matching c now).Faithful matching := by
  have hkeep : ∀ key e, w.defaultCache.cache.get key = some e →
      ∃ e', w.defaultCache.cache.get key = some e' ∧ e.allowed = e'.allowed :=
    fun key e he => ⟨e, he, rfl⟩
  have hget : ∀ key e, (w.defaultCache.get c.key now).2.cache.get key = some e →
      ∃ e', w.defaultCache.cache.get key = some e' ∧ e.allowed = e'.allowed :=
    fun key e he => w.defaultCache.get_stored he
  rw [validateOrigin]
  split
  next allow hallow =>
      refine faithful_answerAtOnce h hkeep ?_
      rw [validateUncached, hallow]
      rfl
  next =>
      split
      next hc =>
          split
          next cached cache hhit =>
              rw [hhit] at hget
              exact faithful_answerAtOnce h hget (hit_eq h hc hkey (congrArg Prod.fst hhit))
          next cache hmiss =>
              rw [hmiss] at hget
              exact faithful_startValidation h c hget
      next => exact faithful_startValidation h c hkeep

/-- The end of a call returns the verdict of its arguments and may store it. -/
lemma faithful_settle (h : w.Faithful matching) {w' : World} {i : ℕ}
    {outcomes : List FunctionOutcome} {now : ℤ} (hstep : w.settle i outcomes now = some w') :
    w'.Faithful matching := by
  simp only [settle] at hstep
  split at hstep
  next r hr =>
      have hmem : r ∈ w.calls := List.mem_of_getElem? hr
      have hi : i < w.calls.length := (List.getElem?_eq_some_iff.mp hr).1
      split at hstep
      next hopen =>
          obtain rfl := Option.some.inj hstep
          have hpromises := h.awaits r hmem hopen.1
          -- the record keeps its arguments, so whatever is backed stays so
          have hback : ∀ {key allowed}, w.Backed matching key allowed →
              Backed matching { w with calls := w.calls.set i { r with
                outcomes := outcomes,
                answer := some (verdict r.call.configuredOrigin (awaited r.promises outcomes)) } }
                key allowed := by
            rintro key allowed ⟨r', hr', hb⟩
            obtain ⟨j, hj⟩ := List.getElem?_of_mem hr'
            by_cases hij : i = j
            · subst hij
              obtain rfl : r = r' := Option.some.inj (hr.symm.trans hj)
              exact ⟨_, List.mem_set hi _, hb⟩
            · refine ⟨r', List.mem_of_getElem? (i := j) ?_, hb⟩
              rw [List.getElem?_set_ne hij, hj]
          refine ⟨?_, ?_, ?_⟩
          · intro r' hr'
            rcases List.mem_or_eq_of_mem_set hr' with hr' | rfl
            · exact h.transparent r' hr'
            · intro b hb
              rw [← Option.some.inj hb, validateUncached, hpromises]
          · intro r' hr'
            rcases List.mem_or_eq_of_mem_set hr' with hr' | rfl
            · exact h.awaits r' hr'
            · intro hn
              cases hn
          · intro key e he
            dsimp only at he
            split at he
            next hc =>
                rcases w.defaultCache.set_stored he with ⟨rfl, hallowed⟩ | he
                · refine ⟨_, List.mem_set hi _, hc, rfl, ?_⟩
                  rw [hallowed, hpromises]
                  exact validateUncached_of_cacheable matching hc r.lastIndices outcomes
                · exact hback (h.backed key e he)
            next => exact hback (h.backed key e he)
      next => cases hstep
  next => cases hstep

/-- **One step keeps the invariant** if the call it starts shares its key with calls of the
same arguments only. -/
lemma step_faithful {w' : World} {a : Action} (h : w.Faithful matching) (hkey : w.KeyFaithful a)
    (hstep : w.step matching a = some w') : w'.Faithful matching := by
  cases a with
  | validateOrigin c now =>
      obtain rfl := Option.some.inj hstep
      exact faithful_validateOrigin h hkey
  | settle i outcomes now => exact faithful_settle h hstep
  | cleanExpired now =>
      obtain rfl := Option.some.inj hstep
      exact ⟨h.transparent, h.awaits, fun key e he =>
        h.backed key e (w.defaultCache.cleanExpired_stored he)⟩
  | setOriginCache ttl maxSize =>
      obtain rfl := Option.some.inj hstep
      exact ⟨h.transparent, h.awaits, fun key e he => by cases he⟩

lemma faithful_init (at_ : LastIndices) : Faithful matching { lastIndices := at_ } :=
  ⟨fun _ hr => by simp at hr, fun _ hr => by simp at hr, fun _ _ he => by cases he⟩

/-- **The cache is invisible in every run whose calls find entries only under keys of calls
with the same arguments**: at each point of the run every call that has returned gave the value that
validation without the cache gives for its own arguments, whatever the clock readings and
the order in which the calls go on. -/
theorem transparent_of_keyFaithful (matching : Matching) (at_ : LastIndices)
    (as bs : List Action) (w : World)
    (hkeys : Meets (step matching) KeyFaithful { lastIndices := at_ } as) (hbs : bs <+: as)
    (hw : exec (step matching) { lastIndices := at_ } bs = some w) :
    w.Transparent matching := by
  obtain ⟨cs, rfl⟩ := hbs
  have hmeets := ((meets_append hw).mp hkeys).1
  exact (meets_invariant (fun _ _ _ hI hP => step_faithful hI hP) (faithful_init at_) hmeets
    hw).transparent

/-- Two users that are one in the key: the second call is answered from the cache. -/
theorem transparent_of_keyFaithful_sameList :
    ∃ w, exec (step fun _ _ _ _ => none) { lastIndices := fun _ => 0 }
        [.validateOrigin ⟨"https://b.example", .array [.text "https://a.example",
            .text "https://b.example"], { userId := some "u" }⟩ 0,
          .settle 0 [] 1,
          .validateOrigin ⟨"https://b.example", .array [.text "https://a.example",
            .text "https://b.example"], { user_id := some "u" }⟩ 2] = some w ∧
      w.Transparent fun _ _ _ _ => none :=
  ⟨_, rfl, transparent_of_keyFaithful _ (fun _ => 0)
    [.validateOrigin ⟨"https://b.example", .array [.text "https://a.example",
        .text "https://b.example"], { userId := some "u" }⟩ 0,
      .settle 0 [] 1,
      .validateOrigin ⟨"https://b.example", .array [.text "https://a.example",
        .text "https://b.example"], { user_id := some "u" }⟩ 2]
    _ _ (by decide) (List.prefix_refl _) rfl⟩

/-! ### Collisions -/

lemma validateOrigin_of_miss {c : Call} {now : ℤ} {cache : OriginCache}
    (hc : isCacheable c.configuredOrigin) (hmiss : w.defaultCache.get c.key now = (none, cache)) :
    w.validateOrigin matching c now =
      { w with defaultCache := cache }.startValidation matching c := by
  rw [validateOrigin]
  split
  next allow hallow =>
      rw [hallow] at hc
      cases hc
  next => simp only [if_pos hc, hmiss]

lemma validateOrigin_of_hit {c : Call} {now : ℤ} {cached : Bool}
    (hc : isCacheable c.configuredOrigin)
    (hhit : (w.defaultCache.get c.key now).1 = some cached) :
    ∃ cache, w.validateOrigin matching c now =
      { w with defaultCache := cache }.answerAtOnce c cached := by
  rw [validateOrigin]
  split
  next allow hallow =>
      rw [hallow] at hc
      cases hc
  next =>
      rw [if_pos hc]
      split
      next cached' cache h =>
          obtain rfl : cached' = cached := Option.some.inj (by rw [← hhit, h])
          exact ⟨cache, rfl⟩
      next cache h => rw [h] at hhit; cases hhit

/-- **A collision makes the cache visible**: of two cacheable calls with one key, the second
one within the time to live, the second returns the verdict of the first. -/
theorem not_transparent_of_collision (matching : Matching) (at_ : LastIndices) (c c' : Call)
    (now now' : ℤ) (hc : isCacheable c.configuredOrigin) (hc' : isCacheable c'.configuredOrigin)
    (hkey : c.key = c'.key) (hnow : now' ≤ now + 60000)
    (hne : validateUncached matching c at_ [] ≠ validateUncached matching c'
      (promises matching c.requestOrigin at_ c.configuredOrigin).2 []) :
    ∃ w, exec (step matching) { lastIndices := at_ }
        [.validateOrigin c now, .settle 0 [] now, .validateOrigin c' now'] = some w ∧
      ¬ w.Transparent matching := by
  have hstart : validateOrigin matching { lastIndices := at_ } c now =
      startValidation matching { lastIndices := at_ } c := validateOrigin_of_miss hc rfl
  have hnone : (promises matching c.requestOrigin at_ c.configuredOrigin).1.count none = 0 :=
    List.count_eq_zero.mpr fun hm =>
      absurd (isSome_of_mem_promises matching hc none hm) (by simp)
  obtain ⟨w, hsettle, hcache, hat⟩ :
      ∃ w, settle (startValidation matching { lastIndices := at_ } c) 0 [] now = some w ∧
        w.defaultCache = ({} : OriginCache).set c.key (validateUncached matching c at_ []) now ∧
        w.lastIndices = (promises matching c.requestOrigin at_ c.configuredOrigin).2 := by
    simp only [settle, startValidation, List.nil_append, List.getElem?_cons_zero, hnone,
      List.length_nil, and_self, if_true, hc, List.set_cons_zero, validateUncached]
    exact ⟨_, rfl, rfl, rfl⟩
  have hhit : (w.defaultCache.get c'.key now').1 = some (validateUncached matching c at_ []) := by
    rw [hcache, ← hkey]
    exact OriginCache.get_set_hit {} hnow
  obtain ⟨cache, hcall⟩ := validateOrigin_of_hit hc' hhit
  refine ⟨{ w with defaultCache := cache }.answerAtOnce c' (validateUncached matching c at_ []),
    ?_, ?_⟩
  · rw [exec_cons, step, hstart, Option.bind_some, exec_cons, step, hsettle, Option.bind_some,
      exec_cons, step, hcall, Option.bind_some, exec_nil]
  · intro h
    refine hne ((h _ (List.mem_append_right _ (List.mem_singleton_self _)) _ rfl).trans ?_)
    rw [hat]

/-- A list of one text with a comma has the key of a list of two: an origin that the list of
two allows is then allowed by the list of one as well. -/
theorem not_transparent :
    ¬ ∀ (matching : Matching) (at_ : LastIndices) (as : List Action) (w : World),
      exec (step matching) { lastIndices := at_ } as = some w → w.Transparent matching := by
  intro h
  obtain ⟨w, hw, hnot⟩ := not_transparent_of_collision (fun _ _ _ _ => none) (fun _ => 0)
    ⟨"https://b.example", .array [.text "https://a.example", .text "https://b.example"], {}⟩
    ⟨"https://b.example", .array [.text "https://a.example,str:https://b.example"], {}⟩
    0 1 rfl rfl (by decide) (by decide) (by decide)
  exact hnot (h _ _ _ w hw)

end World

end Blaize.Cors
