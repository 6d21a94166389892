import Mathlib.Data.List.TakeWhile
import Blaize.Queue.Instance
import Blaize.Redis.QueueAdapter

/-!
The retry policy of the storage over Redis (`fail.lua`, called by `failJob`) beside the one of
the queue over the storage in memory (`handleJobFailure` with `scheduleRetry`).

The script increments the number of retries, compares, and stores the incremented number in
either branch; the queue compares the number as it is, and stores an incremented one only for a
retry.  So the decisions are the same, but a job that has failed for good has one retry more in
Redis than it was ever allowed.

* `failJob`, `handleJobFailure`: the two policies, on one failure;
* `storage_resume_failureGot`: the second one is what the queue instance does;
* `Sides`, `step`: both stores of one job, which fails again and again while everything else
  that happens leaves its retries alone;
* `Agrees`: the same decisions, the same retries, and no more of them than allowed;
* `agrees_iff_retriesLeft`: **the policies agree exactly as long as the job has retries left**.
-/

namespace Blaize.RedisQueue

open Machine Blaize.Queue

variable {V : Type}

/-! ### The two policies -/

/-- `failJob` of a client that is alone. -/
def failJob (cfg : RedisQueueAdapter) (json : Json V) (store : Redis.Store)
    (jobId errorMessage : String) (now : ℕ) :
    Except Thrown (Option FailOutcome) × Redis.Store :=
  match getJob json store jobId with
  | .error err => (.error err, store)
  | .ok none => (.ok none, store)
  | .ok (some job) =>
      let answer := failScript store (cfg.buildQueueKey job.queueName .running)
        (cfg.buildQueueKey job.queueName .queued) (cfg.buildQueueKey job.queueName .failed)
        jobKeyPrefix jobId now (json.stringifyError { message := errorMessage })
      (.ok answer.1, answer.2)

/-- What `handleJobFailure` has decided when it goes on. -/
def decisionOf : ExecPc V → Option FailOutcome
  | .retryUpdated _ _ => some .retry
  | .failedUpdated _ => some .failed
  | _ => none

/-- `handleJobFailure` over the storage, up to the update that it writes. -/
def handleJobFailure (memory : InMemoryStorage V) (queueName : String) (job : Job V)
    (err : Queue.Thrown) (now : ℕ) : Option FailOutcome × InMemoryStorage V :=
  let eff := failureDecision now job err (memory.getJob job.id queueName)
  (decisionOf eff.next,
    match eff.patch with
    | some patch => memory.updateJob job.id patch
    | none => memory)

/-- **The queue instance handles a failure so**, when it goes on with the job it has read. -/
lemma storage_resume_failureGot (cfg : QueueConfig V) {s s' : QueueInstance V} {i : ℕ}
    {job : Job V} {err : Queue.Thrown} {env : Env}
    (htask : s.tasks[i]? = some (.exec job.id (.failureGot job err (s.read cfg job.id))))
    (h : s.resume cfg i env = some s') :
    s'.storage = (handleJobFailure s.storage cfg.name job err env.now).2 := by
  simp only [QueueInstance.resume, htask, execPiece] at h
  obtain rfl := Option.some.inj h
  rfl

/-! ### Numbers in hashes -/

lemma toList_toString (n : ℕ) : (toString n).toList = Nat.toDigits 10 n := by
  rw [Nat.toString_eq_repr, Nat.repr_eq_ofList_toDigits, String.toList_ofList]

lemma isDigit_of_mem_toDigits {n : ℕ} : ∀ c ∈ Nat.toDigits 10 n, c.isDigit = true :=
  fun _ => Nat.isDigit_of_mem_toDigits (by decide) (by decide)

lemma leadingDigits_toDigits (n : ℕ) : leadingDigits (Nat.toDigits 10 n) = n := by
  rw [leadingDigits, List.takeWhile_eq_self_iff.mpr isDigit_of_mem_toDigits]
  exact Nat.ofDigitChars_ten_toDigits

/-- The digits of a number start with no sign. -/
lemma toDigits_eq_cons (n : ℕ) : ∃ c digits, Nat.toDigits 10 n = c :: digits ∧ c ≠ '-' := by
  cases hl : Nat.toDigits 10 n with
  | nil => exact absurd hl Nat.toDigits_ne_nil
  | cons c digits =>
      refine ⟨c, digits, rfl, ?_⟩
      rintro rfl
      exact absurd (isDigit_of_mem_toDigits '-' (hl ▸ List.mem_cons_self)) (by decide)

/-- Lua reads a number back from its decimal digits. -/
@[simp] lemma tonumber_toString (n : ℕ) : tonumber (some (toString n)) = some (n : ℤ) := by
  have hdigits := @isDigit_of_mem_toDigits n
  have hvalue := leadingDigits_toDigits n
  obtain ⟨c, digits, hl, hc⟩ := toDigits_eq_cons n
  rw [hl] at hdigits hvalue
  rw [tonumber, Option.bind_some, toList_toString, hl]
  simp [hc, hvalue, List.all_eq_true.mpr hdigits]

/-- So does `parseInt`. -/
@[simp] lemma parseInt_toString (n : ℕ) : parseInt (toString n) = n := by
  obtain ⟨c, digits, hl, hc⟩ := toDigits_eq_cons n
  have hvalue := leadingDigits_toDigits n
  rw [hl] at hvalue
  rw [parseInt, toList_toString, hl]
  split
  next heq => exact absurd (List.cons.inj heq).1 hc
  next => rw [hvalue]

/-! ### One failure -/

/-- The decision on a job that has failed. -/
def decision (retries maxRetries : ℕ) : FailOutcome :=
  if retries < maxRetries then .retry else .failed

/-- **`fail.lua` on a running job**: it counts the failure in either branch. -/
lemma failScript_of_running {store : Redis.Store} {runningKey queuedKey failedKey jobId : String}
    {retries maxRetries : ℕ} {score : ℚ} (hrunning : store.zscore runningKey jobId = some score)
    (hretries : store.hget (buildJobKey jobId) "retries" = some (toString retries))
    (hmax : store.hget (buildJobKey jobId) "maxRetries" = some (toString maxRetries))
    (now : ℕ) (error : String) :
    (failScript store runningKey queuedKey failedKey jobKeyPrefix jobId now error).1 =
        some (decision retries maxRetries) ∧
      (failScript store runningKey queuedKey failedKey jobKeyPrefix jobId now error).2.hget
          (buildJobKey jobId) "retries" = some (toString (retries + 1)) ∧
      (failScript store runningKey queuedKey failedKey jobKeyPrefix jobId now error).2.hget
          (buildJobKey jobId) "maxRetries" = some (toString maxRetries) := by
  have hkey : jobKeyPrefix ++ jobId = buildJobKey jobId := rfl
  have hnext : toString ((retries : ℤ) + 1) = toString (retries + 1) := rfl
  rw [failScript, hrunning]
  simp only [hkey, hretries, hmax, tonumber_toString, Option.getD_some, hnext, decision]
  by_cases hlt : retries < maxRetries
  · rw [if_pos (by omega), if_pos hlt]
    exact ⟨rfl, (Redis.Store.hget_hset_self _ _ _ _).trans rfl,
      (Redis.Store.hget_hset_self _ _ _ _).trans hmax⟩
  · rw [if_neg (by omega), if_neg hlt]
    exact ⟨rfl, (Redis.Store.hget_hset_self _ _ _ _).trans rfl,
      (Redis.Store.hget_hset_self _ _ _ _).trans hmax⟩

/-- What is read is stored. -/
lemma get_of_getJob {memory : InMemoryStorage V} {jobId queueName : String} {job : Job V}
    (h : memory.getJob jobId queueName = some job) : memory.jobs.get jobId = some job := by
  rw [InMemoryStorage.getJob] at h
  split at h
  next stored hstored =>
      split at h
      next =>
          rw [hstored]
          exact h
      next => cases h
  next => cases h

/-- **`handleJobFailure` on a running job** and an error that is no cancellation: it counts a
retry only. -/
lemma handleJobFailure_of_running {memory : InMemoryStorage V} {queueName : String}
    {job current : Job V} {err : Queue.Thrown}
    (hread : memory.getJob job.id queueName = some current)
    (hrunning : current.status = .running) (hmax : current.maxRetries = job.maxRetries)
    (herr : failureKind err.message ≠ .cancelled) (now : ℕ) :
    (handleJobFailure memory queueName job err now).1 =
        some (decision current.retries current.maxRetries) ∧
      ∃ next, (handleJobFailure memory queueName job err now).2.jobs.get job.id = some next ∧
        next.maxRetries = current.maxRetries ∧
        next.retries = if current.retries < current.maxRetries then current.retries + 1
          else current.retries := by
  have hget := get_of_getJob hread
  have hupdate (patch : JobPatch V) :
      (memory.updateJob job.id patch).jobs.get job.id = some (patch.apply current) := by
    rw [InMemoryStorage.get_updateJob, if_pos rfl, hget]
    rfl
  have hstatus : (some current).map Job.status ≠ some .cancelled := by
    rw [Option.map_some, hrunning]
    decide
  rw [handleJobFailure, hread, failureDecision, if_neg hstatus]
  -- a timeout and an ordinary error differ in the code of the error alone
  cases hkind : failureKind err.message with
  | cancelled => exact absurd hkind herr
  | timeout =>
      by_cases hlt : current.retries < current.maxRetries
      · simp only [Option.map_some, Option.getD_some, ← hmax, if_pos hlt, decision]
        exact ⟨rfl, _, hupdate _, rfl, rfl⟩
      · simp only [Option.map_some, Option.getD_some, ← hmax, if_neg hlt, decision]
        exact ⟨rfl, _, hupdate _, rfl, rfl⟩
  | execution =>
      by_cases hlt : current.retries < current.maxRetries
      · simp only [Option.map_some, Option.getD_some, ← hmax, if_pos hlt, decision]
        exact ⟨rfl, _, hupdate _, rfl, rfl⟩
      · simp only [Option.map_some, Option.getD_some, ← hmax, if_neg hlt, decision]
        exact ⟨rfl, _, hupdate _, rfl, rfl⟩

/-! ### Failure after failure -/

/-- Both stores, and the decisions that were taken on the job, the latest first. -/
structure Sides (V : Type) where
  redis : Redis.Store := {}
  memory : InMemoryStorage V := {}
  decisions : List (Except Thrown (Option FailOutcome) × Option FailOutcome) := []

namespace Sides

/-- The job fails on both sides, or something else happens to both stores. -/
inductive Action (V : Type) where
  | fail (job : Job V) (err : Queue.Thrown) (redisNow memoryNow : ℕ)
  | other (redis : Redis.Store) (memory : InMemoryStorage V)

variable (cfg : RedisQueueAdapter) (json : Json V) (queueName jobId : String) (st : Sides V)

/-- Redis has the job among the running ones of its queue. -/
def RunsInRedis : Prop :=
  match getJob json st.redis jobId with
  | .ok (some job) => (st.redis.zscore (cfg.buildQueueKey job.queueName .running) jobId).isSome
  | _ => False

/-- The memory has the job as running, with as many retries allowed as the record that is
executed. -/
def RunsInMemory (job : Job V) : Prop :=
  job.id = jobId ∧ ∃ current ∈ st.memory.getJob jobId queueName,
    current.status = .running ∧ current.maxRetries = job.maxRetries

/-- The job runs on both sides and the error is an ordinary one. -/
def Fails (job : Job V) (err : Queue.Thrown) : Prop :=
  st.RunsInRedis cfg json jobId ∧ st.RunsInMemory queueName jobId job ∧
    failureKind err.message ≠ .cancelled

/-- What else happens leaves the two numbers of the job alone. -/
def KeepsRetries (redis : Redis.Store) (memory : InMemoryStorage V) : Prop :=
  redis.hget (buildJobKey jobId) "retries" = st.redis.hget (buildJobKey jobId) "retries" ∧
    redis.hget (buildJobKey jobId) "maxRetries" = st.redis.hget (buildJobKey jobId) "maxRetries" ∧
    (memory.jobs.get jobId).map (fun job => (job.retries, job.maxRetries)) =
      (st.memory.jobs.get jobId).map fun job => (job.retries, job.maxRetries)

instance : Decidable (st.RunsInRedis cfg json jobId) := by
  unfold RunsInRedis
  split <;> infer_instance

instance (job : Job V) (err : Queue.Thrown) :
    Decidable (st.Fails cfg json queueName jobId job err) :=
  inferInstanceAs (Decidable (_ ∧ (_ ∧ _) ∧ _))

instance (redis : Redis.Store) (memory : InMemoryStorage V) :
    Decidable (st.KeepsRetries jobId redis memory) :=
  inferInstanceAs (Decidable (_ ∧ _ ∧ _))

/-- A failure finds the job with a retry left. -/
def RetriesLeft : Action V → Prop
  | .fail job err _ _ => st.Fails cfg json queueName jobId job err →
      ∀ current ∈ st.memory.jobs.get jobId, current.retries < current.maxRetries
  | .other _ _ => True

instance : ∀ a : Action V, Decidable (st.RetriesLeft cfg json queueName jobId a)
  | .fail job err _ _ => inferInstanceAs (Decidable (st.Fails cfg json queueName jobId job err → _))
  | .other _ _ => .isTrue trivial

def step : Action V → Option (Sides V)
  | .fail job err redisNow memoryNow =>
      if st.Fails cfg json queueName jobId job err then
        let ofRedis := failJob cfg json st.redis jobId err.message redisNow
        let ofMemory := handleJobFailure st.memory queueName job err memoryNow
        some {
          redis := ofRedis.2
          memory := ofMemory.2
          decisions := (ofRedis.1, ofMemory.1) :: st.decisions }
      else
        none
  | .other redis memory =>
      if st.KeepsRetries jobId redis memory then some { st with redis, memory } else none

/-- Both stores have the job with the same number of retries, and no more than it is allowed. -/
def SameRetries : Prop :=
  ∃ job, st.memory.jobs.get jobId = some job ∧ job.retries ≤ job.maxRetries ∧
    st.redis.hget (buildJobKey jobId) "retries" = some (toString job.retries) ∧
    st.redis.hget (buildJobKey jobId) "maxRetries" = some (toString job.maxRetries)

/-- **The two policies agree**: each failure was decided alike, and the retries are the same. -/
def Agrees : Prop := (∀ d ∈ st.decisions, d.2.isSome ∧ d.1 = .ok d.2) ∧ st.SameRetries jobId

/-! ### Runs -/

variable {cfg json queueName jobId st}

/-- What a step does. -/
lemma step_cases {st' : Sides V} {a : Action V}
    (h : st.step cfg json queueName jobId a = some st') :
    (∃ job err redisNow memoryNow, a = .fail job err redisNow memoryNow ∧
        st.Fails cfg json queueName jobId job err ∧
        st' = ⟨(failJob cfg json st.redis jobId err.message redisNow).2,
          (handleJobFailure st.memory queueName job err memoryNow).2,
          ((failJob cfg json st.redis jobId err.message redisNow).1,
            (handleJobFailure st.memory queueName job err memoryNow).1) :: st.decisions⟩) ∨
      (∃ redis memory, a = .other redis memory ∧ st.KeepsRetries jobId redis memory ∧
        st' = { st with redis, memory }) := by
  cases a with
  | fail job err redisNow memoryNow =>
      rw [step] at h
      split at h
      next hfails => exact Or.inl ⟨_, _, _, _, rfl, hfails, (Option.some.inj h).symm⟩
      next => cases h
  | other redis memory =>
      rw [step] at h
      split at h
      next hkeeps => exact Or.inr ⟨_, _, rfl, hkeeps, (Option.some.inj h).symm⟩
      next => cases h

/-- A job that runs in Redis fails by the script, with the keys of its queue. -/
lemma RunsInRedis.failJob {retries maxRetries : ℕ} (h : st.RunsInRedis cfg json jobId)
    (hretries : st.redis.hget (buildJobKey jobId) "retries" = some (toString retries))
    (hmax : st.redis.hget (buildJobKey jobId) "maxRetries" = some (toString maxRetries))
    (errorMessage : String) (now : ℕ) :
    (failJob cfg json st.redis jobId errorMessage now).1 =
        .ok (some (decision retries maxRetries)) ∧
      (failJob cfg json st.redis jobId errorMessage now).2.hget (buildJobKey jobId) "retries" =
        some (toString (retries + 1)) ∧
      (failJob cfg json st.redis jobId errorMessage now).2.hget (buildJobKey jobId)
        "maxRetries" = some (toString maxRetries) := by
  rw [RunsInRedis] at h
  split at h
  next job hjob =>
      obtain ⟨score, hscore⟩ := Option.isSome_iff_exists.mp h
      obtain ⟨houtcome, hnext, hkept⟩ := failScript_of_running hscore hretries hmax now
        (json.stringifyError { message := errorMessage })
      rw [RedisQueue.failJob, hjob]
      exact ⟨congrArg Except.ok houtcome, hnext, hkept⟩
  next => exact h.elim

/-- A job that runs in memory is the one that is stored. -/
lemma RunsInMemory.handleJobFailure {job current : Job V} {err : Queue.Thrown}
    (h : st.RunsInMemory queueName jobId job) (hget : st.memory.jobs.get jobId = some current)
    (herr : failureKind err.message ≠ .cancelled) (now : ℕ) :
    (handleJobFailure st.memory queueName job err now).1 =
        some (decision current.retries current.maxRetries) ∧
      ∃ next, (handleJobFailure st.memory queueName job err now).2.jobs.get jobId = some next ∧
        next.maxRetries = current.maxRetries ∧
        next.retries = if current.retries < current.maxRetries then current.retries + 1
          else current.retries := by
  obtain ⟨rfl, read, hread, hrunning, hmax⟩ := h
  obtain rfl := Option.some.inj ((get_of_getJob hread).symm.trans hget)
  exact handleJobFailure_of_running hread hrunning hmax herr now

/-- **One step keeps the policies in agreement exactly if a failing job has a retry left.** -/
lemma step_agrees_iff {st' : Sides V} {a : Action V} (h : st.Agrees jobId)
    (hstep : st.step cfg json queueName jobId a = some st') :
    st'.Agrees jobId ↔ st.RetriesLeft cfg json queueName jobId a := by
  obtain ⟨hdecisions, job, hget, hle, hretries, hmax⟩ := h
  rcases step_cases hstep with ⟨failing, err, redisNow, memoryNow, rfl, hfails, rfl⟩ |
    ⟨redis, memory, rfl, ⟨hretries', hmax', hmemory⟩, rfl⟩
  · obtain ⟨hdecision, hnext, hkept⟩ := hfails.1.failJob hretries hmax err.message redisNow
    obtain ⟨hdecision', next, hget', hmax', hnext'⟩ :=
      hfails.2.1.handleJobFailure hget hfails.2.2 memoryNow
    constructor
    · rintro ⟨-, stored, hstored, -, hsame, -⟩ - current hcurrent
      obtain rfl := Option.some.inj (hget.symm.trans hcurrent)
      obtain rfl := Option.some.inj (hget'.symm.trans hstored)
      -- Redis has counted the failure, so the memory must have done so as well
      have htexts := congrArg tonumber (hnext.symm.trans hsame)
      rw [tonumber_toString, tonumber_toString, hnext'] at htexts
      by_contra hlt
      rw [if_neg hlt] at htexts
      simp at htexts
    · intro hleft
      have hlt : job.retries < job.maxRetries := hleft hfails job hget
      rw [if_pos hlt] at hnext'
      refine ⟨?_, next, hget', by omega, by rw [hnext']; exact hnext, by rw [hmax']; exact hkept⟩
      intro d hd
      rcases List.mem_cons.mp hd with rfl | hd
      · exact ⟨by rw [hdecision']; rfl, by rw [hdecision, hdecision']⟩
      · exact hdecisions d hd
  · refine iff_of_true ⟨hdecisions, ?_⟩ trivial
    rw [hget, Option.map_some] at hmemory
    obtain ⟨stored, hstored, hpair⟩ := Option.map_eq_some_iff.mp hmemory
    obtain ⟨hr, hm⟩ := Prod.mk.inj hpair
    exact ⟨stored, hstored, by rw [hr, hm]; exact hle, by rw [hretries', hr]; exact hretries,
      by rw [hmax', hm]; exact hmax⟩

/-- The way back of a retried job leaves its retries alone: the retry callback enqueues it in
memory, both stores hand it out and mark it as running. -/
lemma keepsRetries_takenUp {job : Job V} {taken : Option (Job V)} {memory : InMemoryStorage V}
    (hget : st.memory.jobs.get jobId = some job) (hid : job.id = jobId) (now : ℕ) {pick : ℕ}
    (hdequeue : (st.memory.enqueue queueName job now).dequeue queueName pick =
      some (taken, memory)) :
    st.KeepsRetries jobId
      (dequeueScript st.redis (cfg.buildQueueKey queueName .queued)
        (cfg.buildQueueKey queueName .running) jobKeyPrefix now).2
      (memory.updateJob jobId (.started now)) := by
  have hredis (field : String) (hs : field ≠ "status") (ht : field ≠ "startedAt") :
      (dequeueScript st.redis (cfg.buildQueueKey queueName .queued)
        (cfg.buildQueueKey queueName .running) jobKeyPrefix now).2.hget (buildJobKey jobId) field =
          st.redis.hget (buildJobKey jobId) field := by
    rw [dequeueScript]
    split
    next => rfl
    next taken htaken =>
        by_cases hkey : jobKeyPrefix ++ taken = buildJobKey jobId
        · rw [hkey, Redis.Store.hget_hset_self]
          simp [hs.symm, ht.symm]
          rfl
        · rw [Redis.Store.hget, Redis.Store.hgetall_hset, if_neg hkey]
          rfl
  have hjobs : memory.jobs.get jobId = some job := by
    have hkept : memory.jobs = (st.memory.enqueue queueName job now).jobs := by
      rcases InMemoryStorage.dequeue_cases _ hdequeue with ⟨-, -, rfl⟩ | ⟨-, -, -, -, hjobs, -, -⟩
      · rfl
      · exact hjobs
    rw [hkept, InMemoryStorage.enqueue_jobs, OrdMap.get_set, if_pos hid]
  refine ⟨hredis _ (by decide) (by decide), hredis _ (by decide) (by decide), ?_⟩
  rw [InMemoryStorage.get_updateJob, if_pos rfl, hjobs, hget]
  rfl

/-- **The policies agree exactly as long as the job has retries left**: over any number of
failures of a job that starts with the same retries on both sides, no more than it is allowed,
with anything else in between. -/
theorem agrees_iff_retriesLeft (cfg : RedisQueueAdapter) (json : Json V)
    (queueName jobId : String) (redis : Redis.Store) (memory : InMemoryStorage V)
    (hsame : SameRetries jobId ⟨redis, memory, []⟩) (as : List (Action V)) :
    (∀ bs, bs <+: as → ∀ st, exec (step cfg json queueName jobId) ⟨redis, memory, []⟩ bs = some st →
        st.Agrees jobId) ↔
      Meets (step cfg json queueName jobId)
        (fun st a => st.RetriesLeft cfg json queueName jobId a) ⟨redis, memory, []⟩ as := by
  refine forall_prefix_iff_meets (J := fun _ => True) (fun _ _ _ _ _ => trivial)
    (fun st a st' _ hI hstep => step_agrees_iff hI hstep) ?_ trivial
    ⟨fun d hd => (by cases hd), hsame⟩ as
  intro st a hnone
  cases a with
  | other redis memory => trivial
  | fail job err redisNow memoryNow =>
      intro hfails
      simp only [step, if_pos hfails] at hnone
      cases hnone

/-- The job of the demonstration, once it runs on both sides, with `maxRetries` retries allowed. -/
def demo (maxRetries : ℕ) : Sides ℕ where
  redis := (dequeueScript
    (enqueuePipeline {} Cluster.demoJson {} "q" { Cluster.demoJob with maxRetries := maxRetries })
    (({} : RedisQueueAdapter).buildQueueKey "q" .queued)
    (({} : RedisQueueAdapter).buildQueueKey "q" .running) jobKeyPrefix 1).2
  memory := (({} : InMemoryStorage ℕ).enqueue "q"
    { Cluster.demoJob with maxRetries := maxRetries } 0).updateJob "a" (.started 1)

/-- A job with one retry fails once: it is queued again on both sides, with one retry made. -/
theorem agrees_demo :
    ∃ st, exec (step {} Cluster.demoJson "q" "a") (demo 1)
        [.fail { Cluster.demoJob with maxRetries := 1 } ⟨"boom", none⟩ 2 2] = some st ∧
      st.Agrees "a" :=
  ⟨_, rfl,
    (agrees_iff_retriesLeft {} Cluster.demoJson "q" "a" (demo 1).redis (demo 1).memory
      ⟨_, rfl, by decide, rfl, rfl⟩
      [.fail { Cluster.demoJob with maxRetries := 1 } ⟨"boom", none⟩ 2 2]).mpr
        (by decide +kernel) _ (List.prefix_refl _) _ rfl⟩

/-- A job without retries that fails has made one retry in Redis, and none in memory. -/
theorem not_agrees :
    ¬ ∀ (cfg : RedisQueueAdapter) (V : Type) (json : Json V) (queueName jobId : String)
      (redis : Redis.Store) (memory : InMemoryStorage V), SameRetries jobId ⟨redis, memory, []⟩ →
      ∀ as st, exec (step cfg json queueName jobId) ⟨redis, memory, []⟩ as = some st →
        st.Agrees jobId := by
  intro h
  obtain ⟨-, job, hget, hle, hretries, -⟩ := h {} ℕ Cluster.demoJson "q" "a" (demo 0).redis
    (demo 0).memory ⟨_, rfl, by decide, rfl, rfl⟩
    [.fail { Cluster.demoJob with maxRetries := 0 } ⟨"boom", none⟩ 2 2] _ rfl
  obtain rfl := Option.some.inj hget
  revert hretries
  decide

end Sides

end Blaize.RedisQueue
