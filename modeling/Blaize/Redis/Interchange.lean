import Mathlib.Tactic.Linarith
import Mathlib.Tactic.FieldSimp
import Mathlib.Tactic.Ring
import Blaize.Redis.Board

/-!
The in-memory storage and the storage over Redis side by side: one caller makes the same
calls on one queue of both, and the answers are compared.

The memory keeps the jobs in a map and, once and for all when they are enqueued, in a heap;
Redis keeps them in hashes and in the sorted set of their status.  The heap is not told of
removals and updates, so the two agree as long as these leave the waiting jobs alone.

* `Adapters`, `step`: both storages with the answers they have given;
* `Undisturbed`: the calls after which both still hold the same jobs in the same order;
* `Matches`: the simulation relation, kept by every such call (`step_matches`);
* `sameAnswers_of_undisturbed`: **in a run of such calls all answers agree**;
* `not_sameAnswers`: a waiting job that is removed is still handed out from memory.
-/

namespace Blaize.RedisQueue

open Machine Blaize.Queue

variable {V : Type}

/-! ### The calls -/

/-- The calls of an adapter. -/
inductive Op (V : Type) where
  | enqueue (job : Job V)
  | removeJob (jobId : String)
  | updateJob (jobId : String) (updates : JobPatch V)
  | peek (pick : ℕ)
  | dequeue (pick now : ℕ)

/-- What a caller compares: the identifier of a job, or whether something was removed. -/
inductive Answer where
  | job (id : Option String)
  | removed (success : Bool)
  | threw
  deriving DecidableEq, Repr

/-- What a call that finds a job tells. -/
def jobAnswer : Except Thrown (Option (QueueJob V)) → Answer
  | .ok job => .job (job.map Job.id)
  | .error _ => .threw

/-- What a call that removes one tells. -/
def removedAnswer : Except Thrown Bool → Answer
  | .ok success => .removed success
  | .error _ => .threw

/-- The two storages and the answers of each, the latest first.  No job has been queued at
`clock` or later. -/
structure Adapters (V : Type) where
  memory : InMemoryStorage V := {}
  redis : Redis.Store := {}
  clock : ℕ := 0
  memoryAnswers : List Answer := []
  redisAnswers : List Answer := []

namespace Adapters

variable (cfg : RedisQueueAdapter) (json : Json V) (q : String) (st : Adapters V)

/-- Both storages have answered. -/
def answer (ofMemory ofRedis : Answer) : Adapters V :=
  { st with
    memoryAnswers := ofMemory :: st.memoryAnswers
    redisAnswers := ofRedis :: st.redisAnswers }

/-- One call on the queue `q` of both storages.  A job is enqueued as queued, under an
identifier of no stored job and at the time that it carries, which is later than that of any
job before. -/
def step : Op V → Option (Adapters V)
  | .enqueue job =>
      if st.memory.jobs.get job.id = none ∧ job.status = .queued ∧ st.clock ≤ job.queuedAt then
        some { st with
          memory := st.memory.enqueue q job job.queuedAt
          redis := enqueuePipeline cfg json st.redis q job
          clock := job.queuedAt + 1 }
      else
        none
  | .removeJob jobId =>
      some ({ st with
        memory := (st.memory.removeJob jobId).2
        redis := (removeJob cfg json st.redis jobId).2 }.answer
          (.removed (st.memory.removeJob jobId).1)
          (removedAnswer (removeJob cfg json st.redis jobId).1))
  | .updateJob jobId updates =>
      some { st with
        memory := st.memory.updateJob jobId updates
        redis := (updateJob cfg json st.redis jobId updates).2 }
  | .peek pick =>
      match st.memory.peek q pick with
      | some job => some (st.answer (.job (job.map Job.id)) (jobAnswer (peek cfg json st.redis q)))
      | none => none
  | .dequeue pick now =>
      match st.memory.dequeue q pick with
      | some (job, memory) =>
          some ({ st with
            memory := memory
            redis := (dequeue cfg json st.redis q now).2 }.answer
              (.job (job.map Job.id)) (jobAnswer (dequeue cfg json st.redis q now).1))
      | none => none

/-! ### Calls that leave the waiting jobs alone -/

/-- Whether the heap holds a job. -/
def Waiting (jobId : String) : Prop := ∃ item ∈ st.memory.queueOf q, item.data.id = jobId

instance (jobId : String) : Decidable (st.Waiting q jobId) :=
  inferInstanceAs (Decidable (∃ item ∈ st.memory.queueOf q, item.data.id = jobId))

/-- A job that is queued later, with the higher priority: it overtakes in both storages, or
in none. -/
def Apart (earlier later : PriorityQueueItem (Job V)) : Prop :=
  earlier.priority < later.priority →
    (later.enqueuedAt : ℤ) - earlier.enqueuedAt <
        (later.priority - earlier.priority) * 1000000000000 ∨
      (later.priority - earlier.priority) * 10000000000000 <
        (later.enqueuedAt : ℤ) - earlier.enqueuedAt

instance (earlier later : PriorityQueueItem (Job V)) : Decidable (Apart earlier later) :=
  inferInstanceAs (Decidable (_ < _ → _ < _ ∨ _ < _))

/-- Whether an update puts a job into the sorted set of the queued ones. -/
def requeues (updates : JobPatch V) (currentJob : QueueJob V) : Bool :=
  moves updates currentJob && updates.status.getD currentJob.status = .queued &&
    !isRetry updates currentJob

/-- An update of a job as Redis has it stored: a waiting one keeps its identifier and its
place, another one does not get into the queue. -/
def KeepsPlace (jobId : String) (updates : JobPatch V) (currentJob : QueueJob V) : Prop :=
  (st.Waiting q jobId →
    updates.id.getD jobId = jobId ∧ ¬ (moves updates currentJob ∧ currentJob.queueName = q)) ∧
  (¬ st.Waiting q jobId → ¬ (requeues updates currentJob ∧ currentJob.queueName = q))

instance (jobId : String) (updates : JobPatch V) (currentJob : QueueJob V) :
    Decidable (st.KeepsPlace q jobId updates currentJob) :=
  inferInstanceAs (Decidable ((st.Waiting q jobId → _ = _ ∧ ¬ (_ ∧ _)) ∧ (¬ _ → ¬ (_ ∧ _))))

/-- The job that Redis has stored under an identifier. -/
def stored (jobId : String) : Option (QueueJob V) :=
  match getJob json st.redis jobId with
  | .ok job => job
  | .error _ => none

/-- A call after which both storages still hold the same waiting jobs in the same order. -/
def Undisturbed : Op V → Prop
  | .enqueue job =>
      job.id ≠ "" ∧ ∀ item ∈ st.memory.queueOf q, Apart item ⟨job.priority, job, job.queuedAt⟩
  | .removeJob jobId => ¬ st.Waiting q jobId
  | .updateJob jobId updates =>
      ∀ currentJob ∈ st.stored json jobId, st.KeepsPlace q jobId updates currentJob
  | .peek _ => True
  | .dequeue _ _ => True

instance : ∀ op : Op V, Decidable (st.Undisturbed json q op)
  | .enqueue _ => inferInstanceAs (Decidable (_ ≠ _ ∧ ∀ item ∈ st.memory.queueOf q, _))
  | .removeJob _ => inferInstanceAs (Decidable (¬ _))
  | .updateJob jobId updates =>
      inferInstanceAs (Decidable (∀ currentJob ∈ st.stored json jobId,
        st.KeepsPlace q jobId updates currentJob))
  | .peek _ => .isTrue trivial
  | .dequeue _ _ => .isTrue trivial

end Adapters

/-! ### The order of the waiting jobs -/

/-- The place of an item in the sorted set. -/
def itemScore (item : PriorityQueueItem (Job V)) : ℚ := jobScore item.priority item.enqueuedAt

lemma jobScore_eq (priority queuedAt : ℤ) :
    jobScore priority queuedAt = (queuedAt - priority * 10000000000000) / 10000000000000 := by
  rw [jobScore]
  field_simp
  ring

lemma jobScore_lt_iff {p p' t t' : ℤ} :
    jobScore p t < jobScore p' t' ↔ t - p * 10000000000000 < t' - p' * 10000000000000 := by
  rw [jobScore_eq, jobScore_eq, div_lt_div_iff_of_pos_right (by norm_num)]
  exact_mod_cast Iff.rfl

/-- Of two items that are apart, heap and sorted set prefer the same one. -/
lemma prefer_of_apart {a b : PriorityQueueItem (Job V)} (ht : a.enqueuedAt < b.enqueuedAt)
    (h : Adapters.Apart a b) :
    (b.score < a.score ∧ itemScore a < itemScore b) ∨
      (a.score < b.score ∧ itemScore b < itemScore a) := by
  rw [itemScore, itemScore, jobScore_lt_iff, jobScore_lt_iff]
  simp only [PriorityQueueItem.score, calculateScore, PRIORITY_MULTIPLIER]
  by_cases hp : a.priority < b.priority
  · rcases h hp with hlt | hlt
    · exact Or.inr ⟨by omega, by omega⟩
    · exact Or.inl ⟨by omega, by omega⟩
  · exact Or.inl ⟨by omega, by omega⟩

/-- **The item of maximal score in the heap is the least of the sorted set.** -/
lemma itemScore_lt_of_max {queue : PriorityQueue (Job V)}
    (hapart : queue.Pairwise fun a b => a.enqueuedAt < b.enqueuedAt ∧ Adapters.Apart a b)
    {item : PriorityQueueItem (Job V)} (hitem : item ∈ queue)
    (hmax : ∀ other ∈ queue, other.score ≤ item.score) :
    ∀ other ∈ queue, other = item ∨ itemScore item < itemScore other := by
  induction hapart with
  | nil => cases hitem
  | @cons a queue hhead _ ih =>
      have hmax' : ∀ other ∈ queue, other.score ≤ item.score := fun other hother =>
        hmax other (List.mem_cons_of_mem _ hother)
      intro other hother
      rcases List.mem_cons.mp hitem with rfl | hitem'
      · rcases List.mem_cons.mp hother with rfl | hother
        · exact Or.inl rfl
        · obtain ⟨ht, hab⟩ := hhead other hother
          rcases prefer_of_apart ht hab with h | h
          · exact Or.inr h.2
          · exact absurd (hmax' other hother) (not_le.mpr h.1)
      · rcases List.mem_cons.mp hother with rfl | hother
        · obtain ⟨ht, hab⟩ := hhead item hitem'
          rcases prefer_of_apart ht hab with h | h
          · exact absurd (hmax other List.mem_cons_self) (not_le.mpr h.1)
          · exact Or.inr h.2
        · exact ih hitem' hmax' other hother

/-! ### Reading a job back -/

/-- What is known of `JSON`: a text that it wrote parses.  The text of `undefined` is empty. -/
structure Json.Lawful (json : Json V) : Prop where
  parse : ∀ v, json.stringify v = "" ∨ (json.parse (json.stringify v)).isSome
  parseError : ∀ e, (json.parseError (json.stringifyError e)).isSome
  parseRecord : ∀ m, (json.parseRecord (json.stringifyRecord m)).isSome

/-- The parts of a hash that have to parse do. -/
structure Readable (json : Json V) (hash : Redis.Hash) : Prop where
  data : (parseFilled json.parse (filled hash "data")).isSome
  result : (parseFilled json.parse (filled hash "result")).isSome
  error : (parseFilled json.parseError (filled hash "error")).isSome
  metadata : (parseFilled json.parseRecord (filled hash "metadata")).isSome
  status : ((hash.get "status").bind statusOfText).isSome

lemma Readable.hashToJob {json : Json V} {hash : Redis.Hash} (h : Readable json hash) :
    ∃ job, hashToJob json hash = some job ∧ job.id = (hash.get "id").getD "" := by
  obtain ⟨data, hdata⟩ := Option.isSome_iff_exists.mp h.data
  obtain ⟨result, hresult⟩ := Option.isSome_iff_exists.mp h.result
  obtain ⟨error, herror⟩ := Option.isSome_iff_exists.mp h.error
  obtain ⟨metadata, hmetadata⟩ := Option.isSome_iff_exists.mp h.metadata
  obtain ⟨status, hstatus⟩ := Option.isSome_iff_exists.mp h.status
  rw [RedisQueue.hashToJob, hdata, hresult, herror, hmetadata, hstatus]
  exact ⟨_, rfl, rfl⟩

lemma parseFilled_of_parse {α : Type} {parse : String → Option α} {hash : Redis.Hash}
    {field text : String} (hget : hash.get field = some text)
    (h : text = "" ∨ (parse text).isSome) : (parseFilled parse (filled hash field)).isSome := by
  rw [filled, hget, Option.filter]
  by_cases ht : text = ""
  · simp [ht, parseFilled]
  · simpa [ht, parseFilled] using h

/-- A job that was stored as a whole can be read. -/
lemma Json.Lawful.readable {json : Json V} (h : json.Lawful) (store : Redis.Store) (key : String)
    (job : QueueJob V) : Readable json ((store.hset key (jobToHash json job)).hgetall key) := by
  have hget : ∀ field text, ((jobToHash json job).reverse.find? (·.1 = field)).map Prod.snd =
      some text → ((store.hset key (jobToHash json job)).hgetall key).get field = some text := by
    intro field text hfind
    exact (store.hget_hset_self key _ field).trans (by rw [hfind]; rfl)
  refine ⟨parseFilled_of_parse (hget _ _ rfl) (h.parse _), ?_, ?_,
    parseFilled_of_parse (hget _ _ rfl) (Or.inr (h.parseRecord _)), ?_⟩
  · refine parseFilled_of_parse (hget _ _ rfl) ?_
    cases job.result with
    | none => exact Or.inl rfl
    | some result =>
        rw [resultText]
        split
        · exact h.parse _
        · exact Or.inl rfl
  · refine parseFilled_of_parse (hget _ _ rfl) ?_
    split
    · exact Or.inr (h.parseError _)
    · exact Or.inl rfl
  · rw [hget "status" (statusText job.status) rfl]
    simp

/-- A hash stays readable when its status and its times are set. -/
lemma Readable.setStatus {json : Json V} (store : Redis.Store) {key : String}
    (status : JobStatus) (h : Readable json (store.hgetall key)) (now : ℕ) :
    Readable json ((store.hset key [("status", statusText status), ("startedAt", toString now)]
      ).hgetall key) := by
  have hget : ∀ field, field ≠ "status" → field ≠ "startedAt" →
      ((store.hset key [("status", statusText status), ("startedAt", toString now)]).hgetall
        key).get field = (store.hgetall key).get field := by
    intro field hs ht
    refine (store.hget_hset_self key _ field).trans ?_
    simp [hs.symm, ht.symm, Redis.Store.hget]
  have hfilled : ∀ field, field ≠ "status" → field ≠ "startedAt" →
      filled ((store.hset key [("status", statusText status), ("startedAt", toString now)]).hgetall
        key) field = filled (store.hgetall key) field := by
    intro field hs ht
    rw [filled, hget field hs ht, filled]
  have hstatus : ((store.hset key [("status", statusText status), ("startedAt", toString now)]
      ).hgetall key).get "status" = some (statusText status) :=
    store.hget_hset_self key _ "status"
  refine ⟨?_, ?_, ?_, ?_, ?_⟩
  · rw [hfilled _ (by decide) (by decide)]
    exact h.data
  · rw [hfilled _ (by decide) (by decide)]
    exact h.result
  · rw [hfilled _ (by decide) (by decide)]
    exact h.error
  · rw [hfilled _ (by decide) (by decide)]
    exact h.metadata
  · rw [hstatus]
    simp

/-! ### The simulation -/

/-- No sorted set has the key of a hash. -/
def RedisQueueAdapter.KeysApart (cfg : RedisQueueAdapter) : Prop :=
  ∀ queueName jobId status, cfg.buildQueueKey queueName status ≠ buildJobKey jobId

/-- Both storages know the same jobs, and the same ones wait in the same order. -/
structure Matches (cfg : RedisQueueAdapter) (json : Json V) (q : String) (st : Adapters V) :
    Prop where
  present : ∀ id, st.memory.jobs.get id = none ↔
    (st.redis.hgetall (buildJobKey id)).entries = []
  readable : ∀ id, (st.redis.hgetall (buildJobKey id)).entries ≠ [] →
    Readable json (st.redis.hgetall (buildJobKey id))
  known : ∀ item ∈ st.memory.queueOf q, item.data.id ≠ "" ∧
    st.redis.hget (buildJobKey item.data.id) "id" = some item.data.id
  queued : ∀ id score, st.redis.zscore (cfg.buildQueueKey q .queued) id = some score ↔
    ∃ item ∈ st.memory.queueOf q, item.data.id = id ∧ itemScore item = score
  nodup : ((st.memory.queueOf q).map fun item => item.data.id).Nodup
  past : ∀ item ∈ st.memory.queueOf q, item.enqueuedAt < st.clock
  apart : (st.memory.queueOf q).Pairwise fun a b =>
    a.enqueuedAt < b.enqueuedAt ∧ Adapters.Apart a b
  answers : st.memoryAnswers = st.redisAnswers

namespace Matches

variable {cfg : RedisQueueAdapter} {json : Json V} {q : String} {st st' : Adapters V}

lemma init : Matches cfg json q ({} : Adapters V) where
  present _ := ⟨fun _ => rfl, fun _ => rfl⟩
  readable _ h := absurd rfl h
  known _ h := by cases h
  queued id score := by
    refine iff_of_false (by simp [Redis.Store.zscore, Redis.Store.zset]) ?_
    rintro ⟨item, h, -⟩
    cases h
  nodup := List.nodup_nil
  past _ h := by cases h
  apart := List.Pairwise.nil
  answers := rfl

/-- The sorted set of the waiting jobs has just these as members. -/
lemma zscore_eq_none (h : Matches cfg json q st) {id : String} (hw : ¬ st.Waiting q id) :
    st.redis.zscore (cfg.buildQueueKey q .queued) id = none := by
  refine Option.eq_none_iff_forall_ne_some.mpr fun score hs => hw ?_
  obtain ⟨item, hitem, hid, -⟩ := (h.queued id score).mp hs
  exact ⟨item, hitem, hid⟩

/-- A waiting job is known to the memory. -/
lemma get_ne_none (h : Matches cfg json q st) {id : String} (hw : st.Waiting q id) :
    st.memory.jobs.get id ≠ none := by
  obtain ⟨item, hitem, rfl⟩ := hw
  rw [Ne, h.present]
  exact entries_ne_nil (h.known item hitem).2

/-- A read finds the stored job, under the identifier that its hash names. -/
lemma getJob (h : Matches cfg json q st) {id : String}
    (hid : (st.redis.hgetall (buildJobKey id)).entries ≠ []) :
    ∃ job, getJob json st.redis id = .ok (some job) ∧
      job.id = (st.redis.hget (buildJobKey id) "id").getD "" := by
  obtain ⟨job, hjob, hname⟩ := (h.readable id hid).hashToJob
  refine ⟨job, ?_, hname⟩
  rw [RedisQueue.getJob, if_neg hid, hjob]

/-- The job that the heap hands out is the first of the sorted set. -/
lemma zfirst (h : Matches cfg json q st) {item : PriorityQueueItem (Job V)}
    (hitem : item ∈ st.memory.queueOf q)
    (hmax : ∀ other ∈ st.memory.queueOf q, other.score ≤ item.score) :
    st.redis.zfirst (cfg.buildQueueKey q .queued) = some item.data.id := by
  refine st.redis.zfirst_eq_some ((h.queued _ _).mpr ⟨item, hitem, rfl, rfl⟩) ?_
  intro id score hne hscore
  obtain ⟨other, hother, rfl, rfl⟩ := (h.queued id score).mp hscore
  rcases itemScore_lt_of_max h.apart hitem hmax other hother with rfl | hlt
  · exact absurd rfl hne
  · exact hlt

lemma zfirst_of_empty (h : Matches cfg json q st) (hq : st.memory.queueOf q = []) :
    st.redis.zfirst (cfg.buildQueueKey q .queued) = none := by
  refine st.redis.zfirst_eq_none fun id => h.zscore_eq_none ?_
  rintro ⟨item, hitem, -⟩
  rw [hq] at hitem
  cases hitem

lemma answer (h : Matches cfg json q st) {a b : Answer} (hab : a = b) :
    Matches cfg json q (st.answer a b) :=
  ⟨h.present, h.readable, h.known, h.queued, h.nodup, h.past, h.apart, by
    rw [Adapters.answer, hab, h.answers]⟩

/-- `peek` answers with the same job. -/
lemma peek (h : Matches cfg json q st) {pick : ℕ} {job : Option (Job V)}
    (hpeek : st.memory.peek q pick = some job) :
    Answer.job (job.map Job.id) = jobAnswer (peek cfg json st.redis q) := by
  rcases st.memory.peek_cases hpeek with ⟨rfl, hq⟩ | ⟨item, hitem, hmax, rfl⟩
  · rw [RedisQueue.peek, h.zfirst_of_empty hq]
    rfl
  · have hid := (h.known item hitem).2
    have hne : (st.redis.hgetall (buildJobKey item.data.id)).entries ≠ [] := entries_ne_nil hid
    obtain ⟨job, hjob, hname⟩ := h.getJob hne
    rw [RedisQueue.peek, h.zfirst hitem hmax]
    dsimp only
    rw [hjob, jobAnswer, Option.map_some, Option.map_some, hname, hid, Option.getD_some]

/-! ### One call -/

/-- **Only the job `id` is written**, and the waiting jobs stay as they are. -/
lemma touch (h : Matches cfg json q st) (id : String)
    (hjobs : ∀ id', id' ≠ id → st'.memory.jobs.get id' = st.memory.jobs.get id')
    (hhash : ∀ id', id' ≠ id →
      st'.redis.hgetall (buildJobKey id') = st.redis.hgetall (buildJobKey id'))
    (hself : st'.memory.jobs.get id = none ↔ (st'.redis.hgetall (buildJobKey id)).entries = [])
    (hread : (st'.redis.hgetall (buildJobKey id)).entries ≠ [] →
      Readable json (st'.redis.hgetall (buildJobKey id)))
    (hname : st.Waiting q id → st'.redis.hget (buildJobKey id) "id" = some id)
    (hqueue : st'.memory.queueOf q = st.memory.queueOf q)
    (hzset : ∀ id', st'.redis.zscore (cfg.buildQueueKey q .queued) id' =
      st.redis.zscore (cfg.buildQueueKey q .queued) id')
    (hclock : st'.clock = st.clock) (hanswers : st'.memoryAnswers = st'.redisAnswers) :
    Matches cfg json q st' where
  present id' := by
    by_cases he : id' = id
    · rw [he]
      exact hself
    · rw [hjobs id' he, hhash id' he]
      exact h.present id'
  readable id' := by
    by_cases he : id' = id
    · rw [he]
      exact hread
    · rw [hhash id' he]
      exact h.readable id'
  known item hitem := by
    rw [hqueue] at hitem
    refine ⟨(h.known item hitem).1, ?_⟩
    by_cases he : item.data.id = id
    · rw [he]
      exact hname ⟨item, hitem, he⟩
    · rw [Redis.Store.hget, hhash _ he]
      exact (h.known item hitem).2
  queued id' score := by
    rw [hzset, hqueue]
    exact h.queued id' score
  nodup := by
    rw [hqueue]
    exact h.nodup
  past := by
    rw [hqueue, hclock]
    exact h.past
  apart := by
    rw [hqueue]
    exact h.apart
  answers := hanswers

lemma hgetall_hset_of_ne (store : Redis.Store) {id id' : String} (he : id' ≠ id)
    (fields : List (String × String)) :
    (store.hset (buildJobKey id) fields).hgetall (buildJobKey id') =
      store.hgetall (buildJobKey id') := by
  rw [Redis.Store.hgetall_hset, if_neg (buildJobKey_inj.not.mpr (Ne.symm he))]

lemma hget_id_jobToHash (store : Redis.Store) (key : String) (job : QueueJob V) :
    (store.hset key (jobToHash json job)).hget key "id" = some job.id := by
  rw [Redis.Store.hget_hset_self]
  rfl

/-- The two storages answer alike whether a job is there, and forget it. -/
lemma removeJob (h : Matches cfg json q st) (hkeys : cfg.KeysApart) {id : String}
    (hw : ¬ st.Waiting q id) :
    Answer.removed (st.memory.removeJob id).1 =
        removedAnswer (removeJob cfg json st.redis id).1 ∧
      Matches cfg json q { st with
        memory := (st.memory.removeJob id).2
        redis := (removeJob cfg json st.redis id).2 } := by
  rw [st.memory.removeJob_fst, RedisQueue.removeJob]
  cases hget : st.memory.jobs.get id with
  | none =>
      -- neither storage has the job
      have hgone : RedisQueue.getJob json st.redis id = .ok none := by
        rw [RedisQueue.getJob, if_pos ((h.present id).mp hget)]
      rw [hgone, InMemoryStorage.removeJob, hget]
      exact ⟨rfl, h⟩
  | some stored =>
      have hne : (st.redis.hgetall (buildJobKey id)).entries ≠ [] := by
        rw [Ne, ← h.present, hget]
        simp
      obtain ⟨job, hjob, -⟩ := h.getJob hne
      have hdel : (removePipeline cfg st.redis id job).hgetall (buildJobKey id) = ∅ :=
        (st.redis.hgetall_del _ _).trans (if_pos rfl)
      rw [hjob]
      refine ⟨rfl, h.touch id ?_ ?_ ?_ ?_ ?_ (st.memory.queueOf_removeJob q id) ?_ rfl h.answers⟩
      · intro id' he
        rw [st.memory.get_removeJob, if_neg he.symm]
      · intro id' he
        exact (st.redis.hgetall_del _ _).trans (if_neg (buildJobKey_inj.not.mpr he.symm))
      · rw [st.memory.get_removeJob, if_pos rfl, hdel]
        exact iff_of_true rfl rfl
      · intro hentries
        rw [hdel] at hentries
        exact absurd rfl hentries
      · exact fun hw' => absurd hw' hw
      · intro id'
        show (removePipeline cfg st.redis id job).zscore _ id' = _
        rw [removePipeline, Redis.Store.zscore_zrem,
          Redis.Store.zscore_del _ (hkeys q id .queued).symm]
        split
        next hz => rw [← hz.2, h.zscore_eq_none hw]
        next => rfl

/-- An update that keeps places writes one hash and no waiting job. -/
lemma zscore_updatePipeline (h : Matches cfg json q st) {id : String} {updates : JobPatch V}
    {currentJob : QueueJob V} (hkeeps : st.KeepsPlace q id updates currentJob) (id' : String) :
    (updatePipeline cfg json st.redis id updates currentJob).zscore (cfg.buildQueueKey q .queued)
      id' = st.redis.zscore (cfg.buildQueueKey q .queued) id' := by
  rw [updatePipeline]
  dsimp only
  split
  next hmoves =>
      by_cases he : id = id'
      · subst he
        by_cases hw : st.Waiting q id
        · -- the job is filed under another queue
          have hother : currentJob.queueName ≠ q := fun hq => (hkeeps.1 hw).2 ⟨hmoves, hq⟩
          split <;> simp [Redis.Store.zscore_zadd, Redis.Store.zscore_zrem,
            cfg.buildQueueKey_inj, hother]
        · rw [h.zscore_eq_none hw]
          split
          next =>
              rw [Redis.Store.zscore_zrem, Redis.Store.zscore_hset, h.zscore_eq_none hw, ite_self]
          next hretry =>
              have hnot : ¬ (cfg.buildQueueKey currentJob.queueName
                  (updates.status.getD currentJob.status) = cfg.buildQueueKey q .queued ∧
                    id = id) := by
                rintro ⟨hkey, -⟩
                obtain ⟨hq, hs⟩ := cfg.buildQueueKey_inj.mp hkey
                refine hkeeps.2 hw ⟨?_, hq⟩
                simp [Adapters.requeues, hmoves, hs, hretry]
              rw [Redis.Store.zscore_zadd, if_neg hnot, Redis.Store.zscore_zrem,
                Redis.Store.zscore_hset, h.zscore_eq_none hw, ite_self]
      · split <;> simp [Redis.Store.zscore_zadd, Redis.Store.zscore_zrem, he]
  next => rfl

lemma hgetall_updatePipeline (store : Redis.Store) (id : String) (updates : JobPatch V)
    (currentJob : QueueJob V) (key : String) :
    (updatePipeline cfg json store id updates currentJob).hgetall key =
      (store.hset (buildJobKey id) (jobToHash json (updates.apply currentJob))).hgetall key := by
  rw [updatePipeline]
  dsimp only
  split
  · split <;> rfl
  · rfl

lemma updateJob (h : Matches cfg json q st) (hjson : json.Lawful) {id : String}
    {updates : JobPatch V}
    (hkeeps : ∀ job ∈ st.stored json id, st.KeepsPlace q id updates job) :
    Matches cfg json q { st with
      memory := st.memory.updateJob id updates
      redis := (updateJob cfg json st.redis id updates).2 } := by
  by_cases hgone : (st.redis.hgetall (buildJobKey id)).entries = []
  · have hmissing : RedisQueue.getJob json st.redis id = .ok none := by
      rw [RedisQueue.getJob, if_pos hgone]
    rw [RedisQueue.updateJob, hmissing, InMemoryStorage.updateJob, (h.present id).mpr hgone]
    exact h
  · obtain ⟨job, hjob, hname⟩ := h.getJob hgone
    have hplace : st.KeepsPlace q id updates job :=
      hkeeps job (by rw [Adapters.stored, hjob]; rfl)
    have hid : (updatePipeline cfg json st.redis id updates job).hget (buildJobKey id) "id" =
        some (updates.apply job).id := by
      rw [Redis.Store.hget, hgetall_updatePipeline]
      exact hget_id_jobToHash ..
    rw [RedisQueue.updateJob, hjob]
    refine h.touch id ?_ ?_ ?_ ?_ ?_ (st.memory.queueOf_updateJob ..)
      (h.zscore_updatePipeline hplace) rfl h.answers
    · intro id' he
      rw [st.memory.get_updateJob, if_neg he.symm]
    · intro id' he
      rw [hgetall_updatePipeline, hgetall_hset_of_ne _ he]
    · refine iff_of_false ?_ (entries_ne_nil hid)
      rw [st.memory.get_updateJob, if_pos rfl, Option.map_eq_none_iff, h.present]
      exact hgone
    · intro _
      rw [hgetall_updatePipeline]
      exact hjson.readable ..
    · rintro ⟨item, hitem, rfl⟩
      refine hid.trans (congrArg some ?_)
      -- the hash of a waiting job names its identifier, and the update keeps it
      rw [(h.known item hitem).2, Option.getD_some] at hname
      show updates.id.getD job.id = _
      rw [hname]
      exact (hplace.1 ⟨item, hitem, rfl⟩).1

/-- A new job goes last in both storages. -/
lemma enqueue (h : Matches cfg json q st) (hjson : json.Lawful) {job : Job V}
    (hfresh : st.memory.jobs.get job.id = none) (hstatus : job.status = .queued)
    (hclock : st.clock ≤ job.queuedAt) (hid : job.id ≠ "")
    (hapart : ∀ item ∈ st.memory.queueOf q,
      Adapters.Apart item ⟨job.priority, job, job.queuedAt⟩) :
    Matches cfg json q { st with
      memory := st.memory.enqueue q job job.queuedAt
      redis := enqueuePipeline cfg json st.redis q job
      clock := job.queuedAt + 1 } := by
  have hnew : ¬ st.Waiting q job.id := fun hw => h.get_ne_none hw hfresh
  have hself : ∀ id', id' ≠ job.id → (enqueuePipeline cfg json st.redis q job).hgetall
      (buildJobKey id') = st.redis.hgetall (buildJobKey id') := fun id' he =>
    hgetall_hset_of_ne st.redis he _
  have hname : (enqueuePipeline cfg json st.redis q job).hget (buildJobKey job.id) "id" =
      some job.id := hget_id_jobToHash ..
  refine ⟨?_, ?_, ?_, ?_, ?_, ?_, ?_, h.answers⟩
  · intro id
    rw [InMemoryStorage.enqueue_jobs, OrdMap.get_set]
    by_cases he : id = job.id
    · subst he
      rw [if_pos rfl]
      exact iff_of_false (by simp) (entries_ne_nil hname)
    · rw [if_neg (Ne.symm he), hself id he]
      exact h.present id
  · intro id hentries
    by_cases he : id = job.id
    · subst he
      exact hjson.readable ..
    · rw [hself id he] at hentries ⊢
      exact h.readable id hentries
  · intro item hitem
    rw [InMemoryStorage.queueOf_enqueue, List.mem_append, List.mem_singleton] at hitem
    rcases hitem with hitem | rfl
    · have he : item.data.id ≠ job.id := fun he => hnew ⟨item, hitem, he⟩
      rw [Redis.Store.hget, hself _ he]
      exact h.known item hitem
    · exact ⟨hid, hname⟩
  · intro id score
    rw [InMemoryStorage.queueOf_enqueue, enqueuePipeline, Redis.Store.zscore_zadd, hstatus,
      Redis.Store.zscore_hset]
    simp only [true_and, List.mem_append, List.mem_singleton]
    by_cases he : job.id = id
    · subst he
      rw [if_pos rfl, Option.some.injEq]
      constructor
      · rintro rfl
        exact ⟨_, Or.inr rfl, rfl, rfl⟩
      · rintro ⟨item, hitem | rfl, hitemId, rfl⟩
        · exact absurd ⟨item, hitem, hitemId⟩ hnew
        · rfl
    · rw [if_neg he, h.queued]
      constructor
      · rintro ⟨item, hitem, hrest⟩
        exact ⟨item, Or.inl hitem, hrest⟩
      · rintro ⟨item, hitem | rfl, hrest⟩
        · exact ⟨item, hitem, hrest⟩
        · exact absurd hrest.1 he
  · rw [InMemoryStorage.queueOf_enqueue, List.map_append]
    refine List.nodup_append.mpr ⟨h.nodup, List.nodup_singleton _, ?_⟩
    intro a ha b hb hab
    obtain ⟨item, hitem, rfl⟩ := List.mem_map.mp ha
    exact hnew ⟨item, hitem, hab.trans (List.mem_singleton.mp hb)⟩
  · intro item hitem
    rw [InMemoryStorage.queueOf_enqueue, List.mem_append, List.mem_singleton] at hitem
    rcases hitem with hitem | rfl
    · have := h.past item hitem
      show item.enqueuedAt < job.queuedAt + 1
      omega
    · exact Nat.lt_succ_self _
  · rw [InMemoryStorage.queueOf_enqueue]
    refine List.pairwise_append.mpr ⟨h.apart, List.pairwise_singleton _ _, ?_⟩
    intro item hitem later hlater
    rw [List.mem_singleton.mp hlater]
    exact ⟨lt_of_lt_of_le (h.past item hitem) hclock, hapart item hitem⟩

/-- The item that is handed out leaves the queue, and only that one. -/
lemma mem_eraseIdx_iff (h : Matches cfg json q st) {pick : ℕ}
    {item other : PriorityQueueItem (Job V)}
    (hpick : (st.memory.queueOf q)[pick]? = some item) :
    other ∈ (st.memory.queueOf q).eraseIdx pick ↔
      other ∈ st.memory.queueOf q ∧ other.data.id ≠ item.data.id := by
  rw [List.mem_eraseIdx_iff_getElem?]
  constructor
  · rintro ⟨i, hne, hi⟩
    refine ⟨List.mem_of_getElem? hi, fun he => hne ?_⟩
    have hlt : i < ((st.memory.queueOf q).map fun item => item.data.id).length := by
      rw [List.length_map]
      exact (List.getElem?_eq_some_iff.mp hi).1
    refine (List.getElem?_inj hlt h.nodup).mp ?_
    rw [List.getElem?_map, List.getElem?_map, hi, hpick]
    exact congrArg some he
  · rintro ⟨hmem, hne⟩
    obtain ⟨i, hi⟩ := List.getElem?_of_mem hmem
    refine ⟨i, ?_, hi⟩
    rintro rfl
    rw [hi] at hpick
    exact hne (by rw [Option.some.inj hpick])

/-- The store after `dequeue.lua` has taken a job. -/
def taken (cfg : RedisQueueAdapter) (q : String) (store : Redis.Store) (id : String) (now : ℕ) :
    Redis.Store :=
  ((store.zrem (cfg.buildQueueKey q .queued) id).zadd (cfg.buildQueueKey q .running) now id).hset
    (buildJobKey id) [("status", "running"), ("startedAt", toString now)]

lemma hget_id_taken (cfg : RedisQueueAdapter) (q : String) (store : Redis.Store) (id : String)
    (now : ℕ) :
    (taken cfg q store id now).hget (buildJobKey id) "id" = store.hget (buildJobKey id) "id" := by
  rw [taken, Redis.Store.hget_hset_self]
  rfl

lemma hgetall_taken_of_ne (store : Redis.Store) {id id' : String} (he : id' ≠ id) (now : ℕ) :
    (taken cfg q store id now).hgetall (buildJobKey id') = store.hgetall (buildJobKey id') :=
  hgetall_hset_of_ne _ he _

lemma zscore_taken (store : Redis.Store) (id id' : String) (now : ℕ) :
    (taken cfg q store id now).zscore (cfg.buildQueueKey q .queued) id' =
      if id = id' then none else store.zscore (cfg.buildQueueKey q .queued) id' := by
  simp [taken, Redis.Store.zscore_zadd, Redis.Store.zscore_zrem, cfg.buildQueueKey_inj]

/-- Taking out the item that is handed out. -/
lemma take (h : Matches cfg json q st) (now : ℕ) {pick : ℕ} {item : PriorityQueueItem (Job V)}
    {memory : InMemoryStorage V} (hpick : (st.memory.queueOf q)[pick]? = some item)
    (hjobs : memory.jobs = st.memory.jobs)
    (hqueue : memory.queueOf q = (st.memory.queueOf q).eraseIdx pick) :
    Matches cfg json q { st with
      memory := memory
      redis := taken cfg q st.redis item.data.id now } := by
  have hid := (h.known item (List.mem_of_getElem? hpick)).2
  have hname := (hget_id_taken cfg q st.redis item.data.id now).trans hid
  have hsub : (memory.queueOf q).Sublist (st.memory.queueOf q) := by
    rw [hqueue]
    exact List.eraseIdx_sublist _ _
  refine ⟨?_, ?_, ?_, ?_, h.nodup.sublist (hsub.map _),
    fun other hother => h.past other (hsub.subset hother), h.apart.sublist hsub, h.answers⟩
  · intro id
    dsimp only
    rw [hjobs, h.present]
    by_cases he : id = item.data.id
    · rw [he]
      exact iff_of_false (entries_ne_nil hid) (entries_ne_nil hname)
    · rw [hgetall_taken_of_ne _ he]
  · intro id hentries
    by_cases he : id = item.data.id
    · subst he
      have hread := h.readable item.data.id (entries_ne_nil hid)
      exact Readable.setStatus ((st.redis.zrem _ _).zadd _ _ _) .running hread now
    · dsimp only at hentries ⊢
      rw [hgetall_taken_of_ne _ he] at hentries ⊢
      exact h.readable id hentries
  · intro other hother
    dsimp only at hother ⊢
    rw [hqueue, h.mem_eraseIdx_iff hpick] at hother
    rw [Redis.Store.hget, hgetall_taken_of_ne _ hother.2]
    exact h.known other hother.1
  · intro id score
    dsimp only
    rw [zscore_taken, hqueue]
    by_cases he : item.data.id = id
    · rw [if_pos he]
      refine iff_of_false (by simp) ?_
      rintro ⟨other, hother, rfl, -⟩
      exact ((h.mem_eraseIdx_iff hpick).mp hother).2 he.symm
    · rw [if_neg he, h.queued]
      constructor
      · rintro ⟨other, hother, rfl, hscore⟩
        exact ⟨other, (h.mem_eraseIdx_iff hpick).mpr ⟨hother, Ne.symm he⟩, rfl, hscore⟩
      · rintro ⟨other, hother, hrest⟩
        exact ⟨other, ((h.mem_eraseIdx_iff hpick).mp hother).1, hrest⟩

/-- Both storages hand out the same job. -/
lemma dequeue (h : Matches cfg json q st) (now : ℕ) {pick : ℕ} {job : Option (Job V)}
    {memory : InMemoryStorage V} (hdequeue : st.memory.dequeue q pick = some (job, memory)) :
    Answer.job (job.map Job.id) = jobAnswer (dequeue cfg json st.redis q now).1 ∧
      Matches cfg json q { st with
        memory := memory
        redis := (dequeue cfg json st.redis q now).2 } := by
  rcases st.memory.dequeue_cases hdequeue with
    ⟨rfl, hq, rfl⟩ | ⟨item, hpick, hmax, rfl, hjobs, -, hqueue⟩
  · rw [RedisQueue.dequeue, dequeueScript, h.zfirst_of_empty hq]
    exact ⟨rfl, h⟩
  · have hitem := List.mem_of_getElem? hpick
    have htake := h.take now hpick hjobs hqueue
    have hid := (hget_id_taken cfg q st.redis item.data.id now).trans
      (h.known item hitem).2
    obtain ⟨job, hjob, hname⟩ := htake.getJob (entries_ne_nil hid)
    have hscript : dequeueScript st.redis (cfg.buildQueueKey q .queued)
        (cfg.buildQueueKey q .running) jobKeyPrefix now =
          (some item.data.id, taken cfg q st.redis item.data.id now) := by
      rw [dequeueScript, h.zfirst hitem hmax]
      rfl
    rw [RedisQueue.dequeue, hscript]
    dsimp only at hjob hname ⊢
    rw [if_neg (h.known item hitem).1, hjob]
    refine ⟨?_, htake⟩
    rw [jobAnswer, Option.map_some, Option.map_some, hname, hid, Option.getD_some]

end Matches

namespace Adapters

variable {cfg : RedisQueueAdapter} {json : Json V} {q : String} {st st' : Adapters V}

/-- **One undisturbed call keeps the simulation.** -/
lemma step_matches (hkeys : cfg.KeysApart) (hjson : json.Lawful) {op : Op V}
    (h : Matches cfg json q st) (hop : st.Undisturbed json q op)
    (hstep : st.step cfg json q op = some st') : Matches cfg json q st' := by
  cases op with
  | enqueue job =>
      rw [step] at hstep
      split at hstep
      next hlegal =>
          obtain rfl := Option.some.inj hstep
          exact h.enqueue hjson hlegal.1 hlegal.2.1 hlegal.2.2 hop.1 hop.2
      next => cases hstep
  | removeJob jobId =>
      obtain rfl := Option.some.inj hstep
      obtain ⟨hanswer, hnext⟩ := h.removeJob hkeys hop
      exact hnext.answer hanswer
  | updateJob jobId updates =>
      obtain rfl := Option.some.inj hstep
      exact h.updateJob hjson hop
  | peek pick =>
      rw [step] at hstep
      split at hstep
      next job hpeek =>
          obtain rfl := Option.some.inj hstep
          exact h.answer (h.peek hpeek)
      next => cases hstep
  | dequeue pick now =>
      rw [step] at hstep
      split at hstep
      next job memory hdequeue =>
          obtain rfl := Option.some.inj hstep
          obtain ⟨hanswer, hnext⟩ := h.dequeue now hdequeue
          exact hnext.answer hanswer
      next => cases hstep

/-- **The storages answer alike in every run of undisturbed calls**: at each point of the run
both have given the same jobs and the same booleans, call by call. -/
theorem sameAnswers_of_undisturbed (cfg : RedisQueueAdapter) (hkeys : cfg.KeysApart)
    (json : Json V) (hjson : json.Lawful) (q : String) (ops ops' : List (Op V))
    (st : Adapters V)
    (hops : Meets (step cfg json q) (fun st op => st.Undisturbed json q op) {} ops)
    (hpre : ops' <+: ops) (hst : exec (step cfg json q) {} ops' = some st) :
    st.memoryAnswers = st.redisAnswers := by
  obtain ⟨rest, rfl⟩ := hpre
  have hmeets := ((meets_append hst).mp hops).1
  exact (meets_invariant (fun _ _ _ hI hP => step_matches hkeys hjson hI hP) Matches.init hmeets
    hst).answers

/-- The default keys and numbers as values, with two jobs of which the later one overtakes, is
removed once it has been handed out, and leaves the other one to be updated and taken. -/
theorem sameAnswers_of_undisturbed_overtaken :
    ∃ st, exec (step {} Cluster.demoJson "q") {}
        [.enqueue { Cluster.demoJob with priority := 1 },
          .enqueue { Cluster.demoJob with id := "b", queuedAt := 1 },
          .peek 1, .dequeue 1 2, .removeJob "b", .updateJob "a" { progress := some 3 },
          .dequeue 0 3] = some st ∧
      st.memoryAnswers = st.redisAnswers :=
  ⟨_, rfl, sameAnswers_of_undisturbed {} RedisQueueAdapter.buildQueueKey_ne_buildJobKey
    Cluster.demoJson ⟨fun _ => Or.inr rfl, fun _ => rfl, fun _ => rfl⟩ "q"
    [.enqueue { Cluster.demoJob with priority := 1 },
      .enqueue { Cluster.demoJob with id := "b", queuedAt := 1 },
      .peek 1, .dequeue 1 2, .removeJob "b", .updateJob "a" { progress := some 3 },
      .dequeue 0 3]
    _ _ (by decide +kernel) (List.prefix_refl _) rfl⟩

/-- A waiting job that is removed is still handed out from memory, while Redis has none. -/
theorem not_sameAnswers :
    ¬ ∀ (cfg : RedisQueueAdapter), cfg.KeysApart → ∀ (V : Type) (json : Json V), json.Lawful →
      ∀ (q : String) (ops : List (Op V)) (st : Adapters V),
        exec (step cfg json q) {} ops = some st → st.memoryAnswers = st.redisAnswers := by
  intro h
  have hsame := h {} RedisQueueAdapter.buildQueueKey_ne_buildJobKey ℕ Cluster.demoJson
    ⟨fun _ => Or.inr rfl, fun _ => rfl, fun _ => rfl⟩ "q"
    [.enqueue Cluster.demoJob, .removeJob "a", .dequeue 0 1] _ rfl
  revert hsame
  decide

end Adapters

end Blaize.RedisQueue
