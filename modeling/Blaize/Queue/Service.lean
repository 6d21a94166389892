import Blaize.Queue.Instance
import Blaize.Redis.QueueAdapter

/-!
The queue service (`plugins/queue/src/queue-service.ts`) over either storage: how a job
operation without a queue name finds the queue of the job.

The service asks its queues one after the other, the one it has cached for the job first.
A queue holds a job if the storage says so: the in-memory storage looks at the queue name, the
Redis adapter does not.  The calls run alone, each from its first line to its last.

* `QueueHandle`: what `getJob` and `cancelJob` touch of a queue instance;
* `cancelIn`: `QueueInstance.cancelJob`; `getJob`, `cancelJob`: the methods of the service;
* `cancelJob_same`: a call without a name acts on the first queue consulted that finds the job;
* `reaches_iff`: **a job operation reaches the owner of the job exactly if the storage is in
  memory or the owner is consulted first**.
-/

namespace Blaize.Queue

variable {V : Type}

/-! ### The storage -/

/-- The storages that a service may have. -/
inductive StorageAdapter (V : Type) where
  | memory (st : InMemoryStorage V)
  | redis (cfg : RedisQueue.RedisQueueAdapter) (json : RedisQueue.Json V) (store : Redis.Store)

namespace StorageAdapter

/-- `getJob`; the Redis adapter takes no queue name. -/
def getJob (storage : StorageAdapter V) (jobId queueName : String) :
    Except RedisQueue.Thrown (Option (Job V)) :=
  match storage with
  | memory st => .ok (st.getJob jobId queueName)
  | redis _ json store => RedisQueue.getJob json store jobId

/-- `storage.updateJob(jobId, updates)` -/
def updateJob (storage : StorageAdapter V) (jobId : String) (updates : JobPatch V) :
    Except RedisQueue.Thrown Unit × StorageAdapter V :=
  match storage with
  | memory st => (.ok (), memory (st.updateJob jobId updates))
  | redis cfg json store =>
      let (result, store) := RedisQueue.updateJob cfg json store jobId updates
      (result, redis cfg json store)

/-- Whether it is the storage in memory. -/
def isMemory : StorageAdapter V → Bool
  | memory _ => true
  | redis _ _ _ => false

/-- A stored job, and the queue that holds it. -/
def Holds (storage : StorageAdapter V) (jobId queueName : String) (job : Job V) : Prop :=
  match storage with
  | memory st => st.jobs.get jobId = some job ∧ st.jobToQueue.get jobId = some queueName
  | redis _ json store =>
      RedisQueue.getJob json store jobId = .ok (some job) ∧ job.queueName = queueName

end StorageAdapter

/-! ### The service -/

/-- What `getJob` and `cancelJob` touch of a queue instance: the controllers of the running
handlers, with the reason once they are aborted, and what the listeners throw. -/
structure QueueHandle where
  abortControllers : OrdMap String (Option String) := ∅
  throws : Option Thrown := none

/-- `controller.abort`; only the first reason counts. -/
def QueueHandle.abort (queue : QueueHandle) (jobId reason : String) : QueueHandle :=
  match queue.abortControllers.get jobId with
  | some none => { queue with abortControllers := queue.abortControllers.set jobId (some reason) }
  | _ => queue

/-- What a call of the service rejects with. -/
inductive ServiceFailure where
  | storage (err : RedisQueue.Thrown)
  | listener (err : Thrown)

/-- What can be seen of a cancellation: which queue acts, the event, the message on the bus
and the two log lines. -/
inductive ServiceRecord (V : Type) where
  | acted (queueName jobId : String)
  | emitted (queueName : String) (job : Job V) (reason : Option String)
  | published (queueName jobId jobType : String) (reason : Option String)
  | loggedByQueue (queueName jobId : String) (reason : Option String) (wasRunning : Bool)
  | loggedByService (queueName jobId : String) (reason : Option String)

/-- The queue that a record names. -/
def ServiceRecord.queueName : ServiceRecord V → String
  | acted queueName _ => queueName
  | emitted queueName _ _ => queueName
  | published queueName _ _ _ => queueName
  | loggedByQueue queueName _ _ _ => queueName
  | loggedByService queueName _ _ => queueName

/-- The fields of the service. -/
structure QueueService (V : Type) where
  storage : StorageAdapter V
  queues : OrdMap String QueueHandle := ∅
  jobQueueMap : OrdMap String String := ∅
  eventBus : Bool := false
  trace : List (ServiceRecord V) := []

namespace QueueService

/-- Notes something about the run. -/
def record (s : QueueService V) (r : ServiceRecord V) : QueueService V :=
  { s with trace := s.trace ++ [r] }

/-- `QueueInstance.cancelJob` behind the job that it has found. -/
def cancelFound (s : QueueService V) (name : String) (queue : QueueHandle) (jobId : String)
    (reason : Option String) (now : ℕ) : Except ServiceFailure Bool × QueueService V :=
  let wasRunning := queue.abortControllers.has jobId
  let s : QueueService V := { s with
    queues := s.queues.set name (queue.abort jobId (reason.getD "Job cancelled"))
    trace := s.trace ++ [.acted name jobId] }
  match s.storage.updateJob jobId (.cancelled now) with
  | (.error err, storage) => (.error (.storage err), { s with storage })
  | (.ok _, storage) =>
      let s := { s with storage }
      match storage.getJob jobId name with
      | .error err => (.error (.storage err), s)
      | .ok none => (.ok true, s.record (.loggedByQueue name jobId reason wasRunning))
      | .ok (some updatedJob) =>
          let s := s.record (.emitted name updatedJob reason)
          match queue.throws with
          | some err => (.error (.listener err), s)
          | none =>
              let s :=
                if s.eventBus then s.record (.published name updatedJob.id updatedJob.type reason)
                else s
              (.ok true, s.record (.loggedByQueue name jobId reason wasRunning))

/-- `QueueInstance.cancelJob` of the queue with a name. -/
def cancelIn (s : QueueService V) (name jobId : String) (reason : Option String) (now : ℕ) :
    Except ServiceFailure Bool × QueueService V :=
  match s.queues.get name with
  | none => (.ok false, s)
  | some queue =>
      match s.storage.getJob jobId name with
      | .error err => (.error (.storage err), s)
      | .ok none => (.ok false, s)
      | .ok (some _) => s.cancelFound name queue jobId reason now

/-- Cancels in one queue and logs it. -/
def cancelNamed (s : QueueService V) (name jobId : String) (reason : Option String) (now : ℕ) :
    Except ServiceFailure Bool × QueueService V :=
  match s.cancelIn name jobId reason now with
  | (.ok true, s) => (.ok true, s.record (.loggedByService name jobId reason))
  | result => result

/-- The search of `cancelJob` through the queues. -/
def cancelSearch (jobId : String) (reason : Option String) (now : ℕ) :
    List String → QueueService V → Except ServiceFailure Bool × QueueService V
  | [], s => (.ok false, s)
  | name :: names, s =>
      match s.cancelIn name jobId reason now with
      | (.ok true, s) =>
          (.ok true, { s with jobQueueMap := s.jobQueueMap.set jobId name }.record
            (.loggedByService name jobId reason))
      | (.ok false, s) => cancelSearch jobId reason now names s
      | (.error err, s) => (.error err, s)

/-- The queue that is cached for a job; an empty name counts as none. -/
def cachedQueueName (s : QueueService V) (jobId : String) : Option String :=
  (s.jobQueueMap.get jobId).filter (· ≠ "")

/-- `service.cancelJob(jobId, queueName, reason)` -/
def cancelJob (s : QueueService V) (jobId : String) (queueName reason : Option String) (now : ℕ) :
    Except ServiceFailure Bool × QueueService V :=
  match queueName.filter (· ≠ "") with
  | some name => s.cancelNamed name jobId reason now
  | none =>
      match s.cachedQueueName jobId with
      | none => cancelSearch jobId reason now s.queues.keys s
      | some name =>
          match s.cancelNamed name jobId reason now with
          | (.ok false, s) => cancelSearch jobId reason now s.queues.keys s
          | result => result

/-- `QueueInstance.getJob` of the queue with a name. -/
def getJobIn (s : QueueService V) (name jobId : String) :
    Except ServiceFailure (Option (Job V)) :=
  match s.queues.get name with
  | none => .ok none
  | some _ => (s.storage.getJob jobId name).mapError .storage

/-- The search of `getJob` through the queues. -/
def getSearch (jobId : String) :
    List String → QueueService V → Except ServiceFailure (Option (Job V)) × QueueService V
  | [], s => (.ok none, s)
  | name :: names, s =>
      match s.getJobIn name jobId with
      | .ok (some job) =>
          (.ok (some job), { s with jobQueueMap := s.jobQueueMap.set jobId name })
      | .ok none => getSearch jobId names s
      | .error err => (.error err, s)

/-- `service.getJob(jobId, queueName)` -/
def getJob (s : QueueService V) (jobId : String) (queueName : Option String) :
    Except ServiceFailure (Option (Job V)) × QueueService V :=
  match queueName.filter (· ≠ "") with
  | some name => (s.getJobIn name jobId, s)
  | none =>
      match s.cachedQueueName jobId with
      | none => getSearch jobId s.queues.keys s
      | some name =>
          match s.getJobIn name jobId with
          | .ok (some job) => (.ok (some job), s)
          | .ok none =>
              getSearch jobId s.queues.keys { s with jobQueueMap := s.jobQueueMap.delete jobId }
          | .error err => (.error err, s)

/-! ### Which queue acts -/

/-- The service but for what it has cached. -/
def forget (s : QueueService V) : QueueService V := { s with jobQueueMap := ∅ }

/-- The same result and the same effects, but for what is cached. -/
def Same (x y : Except ServiceFailure Bool × QueueService V) : Prop :=
  x.1 = y.1 ∧ x.2.forget = y.2.forget

variable {s : QueueService V} {jobId name : String} {reason : Option String} {now : ℕ}

/-- The queues in the order in which a call without a name asks them. -/
def consulted (s : QueueService V) (jobId : String) : List String :=
  ((s.cachedQueueName jobId).filter s.queues.has).toList ++ s.queues.keys

lemma cancelIn_of_absent (h : s.storage.getJob jobId name = .ok none) :
    s.cancelIn name jobId reason now = (.ok false, s) := by
  unfold cancelIn
  split
  · rfl
  · rw [h]

lemma cancelIn_of_no_queue (h : s.queues.get name = none) :
    s.cancelIn name jobId reason now = (.ok false, s) := by
  unfold cancelIn
  rw [h]

lemma cancelNamed_of_false (h : s.cancelIn name jobId reason now = (.ok false, s)) :
    s.cancelNamed name jobId reason now = (.ok false, s) := by
  unfold cancelNamed
  rw [h]

/-- A queue that has found the job does not answer `false`, and it shows. -/
lemma cancelFound_spec (s : QueueService V) (name : String) (queue : QueueHandle) (jobId : String)
    (reason : Option String) (now : ℕ) :
    (s.cancelFound name queue jobId reason now).1 ≠ .ok false ∧
      (∃ rest, (s.cancelFound name queue jobId reason now).2.trace =
        s.trace ++ .acted name jobId :: rest) ∧
      (s.cancelFound name queue jobId reason now).2.queues =
        s.queues.set name (queue.abort jobId (reason.getD "Job cancelled")) := by
  unfold cancelFound
  dsimp only
  split
  · exact ⟨nofun, ⟨[], rfl⟩, rfl⟩
  · split
    · exact ⟨nofun, ⟨[], rfl⟩, rfl⟩
    · exact ⟨nofun, ⟨_, by simp [record]; rfl⟩, rfl⟩
    · split
      · exact ⟨nofun, ⟨_, by simp [record]; rfl⟩, rfl⟩
      · split
        · exact ⟨nofun, ⟨_, by simp [record]; rfl⟩, rfl⟩
        · exact ⟨nofun, ⟨_, by simp [record]; rfl⟩, rfl⟩

/-- The first queue that finds the job acts in the search, too. -/
lemma cancelSearch_same {names before after : List String}
    (hnames : names = before ++ name :: after)
    (hbefore : ∀ n ∈ before, s.cancelIn n jobId reason now = (.ok false, s))
    (hfound : (s.cancelIn name jobId reason now).1 ≠ .ok false) :
    Same (cancelSearch jobId reason now names s) (s.cancelNamed name jobId reason now) := by
  subst hnames
  induction before with
  | nil =>
      rw [List.nil_append, cancelSearch, cancelNamed]
      split
      next s' hs => rw [hs]; exact ⟨rfl, rfl⟩
      next s' hs => rw [hs] at hfound; exact absurd rfl hfound
      next err s' hs => rw [hs]; exact ⟨rfl, rfl⟩
  | cons n before ih =>
      rw [List.cons_append, cancelSearch, hbefore n List.mem_cons_self]
      exact ih fun n' hn' => hbefore n' (List.mem_cons_of_mem n hn')

lemma cancelNamed_fst (s : QueueService V) :
    (s.cancelNamed name jobId reason now).1 = (s.cancelIn name jobId reason now).1 := by
  unfold cancelNamed
  split
  next s' hs => rw [hs]
  next => rfl

/-- **A call without a name acts on the first queue consulted that finds the job.** -/
theorem cancelJob_same {before after : List String}
    (hnames : s.consulted jobId = before ++ name :: after)
    (hbefore : ∀ n ∈ before, s.cancelIn n jobId reason now = (.ok false, s))
    (hfound : (s.cancelIn name jobId reason now).1 ≠ .ok false) :
    Same (s.cancelJob jobId none reason now) (s.cancelNamed name jobId reason now) := by
  unfold cancelJob
  rw [Option.filter_none]
  dsimp only
  cases hcached : s.cachedQueueName jobId with
  | none =>
      rw [consulted, hcached, Option.filter_none, Option.toList_none, List.nil_append] at hnames
      exact cancelSearch_same hnames hbefore hfound
  | some cached =>
      dsimp only
      by_cases hhas : s.queues.has cached = true
      · rw [consulted, hcached, Option.filter_some, if_pos hhas, Option.toList_some,
          List.singleton_append] at hnames
        cases before with
        | nil =>
            obtain ⟨rfl, -⟩ := List.cons.inj hnames
            split
            next s' hs =>
              rw [← cancelNamed_fst, hs] at hfound
              exact absurd rfl hfound
            next => exact ⟨rfl, rfl⟩
        | cons n before =>
            obtain ⟨rfl, hkeys⟩ := List.cons.inj hnames
            rw [cancelNamed_of_false (hbefore cached List.mem_cons_self)]
            exact cancelSearch_same hkeys (fun n hn => hbefore n (List.mem_cons_of_mem _ hn)) hfound
      · rw [consulted, hcached, Option.filter_some, if_neg hhas, Option.toList_none,
          List.nil_append] at hnames
        have hnone : s.queues.get cached = none :=
          (OrdMap.has_eq_false_iff _).mp (by simpa using hhas)
        rw [cancelNamed_of_false (cancelIn_of_no_queue hnone)]
        exact cancelSearch_same hnames hbefore hfound

/-! ### The owner of a job -/

section Owner

variable {owner : String} {job : Job V}

/-- In memory only the owner finds the job, in Redis every queue does. -/
lemma getJob_of_holds {storage : StorageAdapter V} (h : storage.Holds jobId owner job)
    (n : String) :
    storage.getJob jobId n =
      if storage.isMemory = true ∧ n ≠ owner then .ok none else .ok (some job) := by
  cases storage with
  | memory st =>
      obtain ⟨hjob, hqueue⟩ := h
      rw [StorageAdapter.getJob, InMemoryStorage.getJob, hjob, hqueue]
      by_cases hn : n = owner
      · simp [hn]
      · simp [StorageAdapter.isMemory, hn, Ne.symm hn]
  | redis cfg json store =>
      rw [StorageAdapter.getJob, h.1]
      rfl

lemma getJob_owner {storage : StorageAdapter V} (h : storage.Holds jobId owner job) :
    storage.getJob jobId owner = .ok (some job) := by
  rw [getJob_of_holds h, if_neg fun hne => hne.2 rfl]

lemma cancelIn_of_found {queue : QueueHandle} (hqueue : s.queues.get name = some queue)
    (hjob : s.storage.getJob jobId name = .ok (some job)) :
    s.cancelIn name jobId reason now = s.cancelFound name queue jobId reason now := by
  unfold cancelIn
  rw [hqueue]
  dsimp only
  rw [hjob]

/-- A queue that has found the job says so, and aborts the handler that runs it. -/
lemma cancelNamed_of_found {queue : QueueHandle} (hqueue : s.queues.get name = some queue)
    (hjob : s.storage.getJob jobId name = .ok (some job)) (reason : Option String) (now : ℕ) :
    (∃ rest, (s.cancelNamed name jobId reason now).2.trace =
        s.trace ++ .acted name jobId :: rest) ∧
      (s.cancelNamed name jobId reason now).2.queues =
        s.queues.set name (queue.abort jobId (reason.getD "Job cancelled")) := by
  obtain ⟨-, ⟨rest, htrace⟩, hqueues⟩ := cancelFound_spec s name queue jobId reason now
  unfold cancelNamed
  rw [cancelIn_of_found hqueue hjob]
  split
  next s' hs =>
    rw [hs] at htrace hqueues
    refine ⟨⟨rest ++ [.loggedByService name jobId reason], ?_⟩, hqueues⟩
    rw [record, htrace, List.append_assoc]
    rfl
  next => exact ⟨⟨rest, htrace⟩, hqueues⟩

lemma has_of_mem_consulted {n : String} (h : n ∈ s.consulted jobId) : s.queues.has n = true := by
  rcases List.mem_append.mp h with hcached | hkey
  · rw [Option.mem_toList] at hcached
    exact (Option.filter_eq_some_iff.mp hcached).2
  · exact (OrdMap.has_iff _).mpr ((s.queues.mem_keys_iff).mp hkey)

lemma mem_consulted_of_has {n : String} (h : s.queues.has n = true) : n ∈ s.consulted jobId :=
  List.mem_append_right _ ((s.queues.mem_keys_iff).mpr ((OrdMap.has_iff _).mp h))

/-- A call that asks the owner behind queues that do not find the job acts on the owner. -/
lemma cancelJob_owner (hq : s.queues.has owner = true) (hjob : s.storage.Holds jobId owner job)
    {before after : List String} (hnames : s.consulted jobId = before ++ owner :: after)
    (hbefore : ∀ n ∈ before, s.storage.getJob jobId n = .ok none) :
    Same (s.cancelJob jobId none reason now) (s.cancelNamed owner jobId reason now) := by
  obtain ⟨queue, hqueue⟩ := (OrdMap.has_iff _).mp hq
  refine cancelJob_same hnames (fun n hn => cancelIn_of_absent (hbefore n hn)) ?_
  rw [cancelIn_of_found hqueue (getJob_owner hjob)]
  exact (cancelFound_spec s owner queue jobId reason now).1

/-- The search of `getJob` finds the job in whichever queue it looks first. -/
lemma getSearch_holds (hjob : s.storage.Holds jobId owner job) {names : List String}
    (hq : s.queues.has owner = true) (howner : owner ∈ names) :
    (getSearch jobId names s).1 = .ok (some job) := by
  induction names with
  | nil => cases howner
  | cons n names ih =>
      rw [getSearch, getJobIn]
      cases hn : s.queues.get n with
      | none =>
          refine ih ((List.mem_cons.mp howner).resolve_left ?_)
          rintro rfl
          obtain ⟨queue, hqueue⟩ := (OrdMap.has_iff _).mp hq
          exact absurd (hn.symm.trans hqueue) nofun
      | some queue =>
          dsimp only
          rw [getJob_of_holds hjob]
          by_cases hother : s.storage.isMemory = true ∧ n ≠ owner
          · rw [if_pos hother]
            exact ih ((List.mem_cons.mp howner).resolve_left (Ne.symm hother.2))
          · rw [if_neg hother]
            rfl

/-- `getJob` returns a stored job, with the name of its queue and without. -/
theorem getJob_holds (hq : s.queues.has owner = true) (hjob : s.storage.Holds jobId owner job) :
    (s.getJob jobId none).1 = .ok (some job) ∧
      (s.getJob jobId (some owner)).1 = .ok (some job) := by
  have howner : owner ∈ s.queues.keys := (s.queues.mem_keys_iff).mpr ((OrdMap.has_iff _).mp hq)
  have hnone : (s.getJob jobId none).1 = .ok (some job) := by
    unfold getJob
    rw [Option.filter_none]
    dsimp only
    cases hcached : s.cachedQueueName jobId with
    | none => exact getSearch_holds hjob hq howner
    | some cached =>
        dsimp only
        split
        next job' hjob' =>
          rw [getJobIn] at hjob'
          split at hjob'
          · cases hjob'
          · rw [getJob_of_holds hjob] at hjob'
            split at hjob'
            · cases hjob'
            · exact hjob'.symm
        next =>
          refine getSearch_holds (s := { s with jobQueueMap := s.jobQueueMap.delete jobId }) hjob hq
            howner
        next err herror =>
          rw [getJobIn] at herror
          split at herror
          · cases herror
          · rw [getJob_of_holds hjob] at herror
            split at herror <;> cases herror
  refine ⟨hnone, ?_⟩
  by_cases hempty : owner = ""
  · unfold getJob at hnone ⊢
    rw [hempty, Option.filter_some, if_neg (by simp)]
    exact hnone
  · obtain ⟨queue, hqueue⟩ := (OrdMap.has_iff _).mp hq
    unfold getJob
    rw [Option.filter_some, if_pos (by simpa using hempty)]
    dsimp only
    rw [getJobIn, hqueue]
    dsimp only
    rw [getJob_owner hjob]
    rfl

/-- A job operation without a queue name reaches the owner of the job: it has the effects of
`cancelJob` on the owner and the same result as with the owner's name, it aborts the handler
that runs there, and `getJob` returns the job. -/
structure Reaches (s : QueueService V) (jobId owner : String) (job : Job V) : Prop where
  cancel : ∀ reason now,
    Same (s.cancelJob jobId none reason now) (s.cancelNamed owner jobId reason now)
  cancel_named : ∀ reason now,
    Same (s.cancelJob jobId none reason now) (s.cancelJob jobId (some owner) reason now)
  aborts : ∀ reason now queue, s.queues.get owner = some queue →
    queue.abortControllers.get jobId = some none →
      ∃ queue', (s.cancelJob jobId none reason now).2.queues.get owner = some queue' ∧
        queue'.abortControllers.get jobId = some (some (reason.getD "Job cancelled"))
  get : (s.getJob jobId none).1 = .ok (some job)
  get_named : (s.getJob jobId (some owner)).1 = .ok (some job)

/-- The effects on the owner are all there is to show. -/
lemma reaches_of_cancel (hq : s.queues.has owner = true) (hjob : s.storage.Holds jobId owner job)
    (h : ∀ reason now,
      Same (s.cancelJob jobId none reason now) (s.cancelNamed owner jobId reason now)) :
    s.Reaches jobId owner job := by
  obtain ⟨hget, hgetNamed⟩ := getJob_holds hq hjob
  refine ⟨h, fun reason now => ?_, fun reason now queue hqueue hrunning => ?_, hget, hgetNamed⟩
  · by_cases hempty : owner = ""
    · have hsame :
          s.cancelJob jobId (some owner) reason now = s.cancelJob jobId none reason now := by
        unfold cancelJob
        rw [hempty, Option.filter_some, if_neg (by simp), Option.filter_none]
      rw [hsame]
      exact ⟨rfl, rfl⟩
    · have hnamed : s.cancelJob jobId (some owner) reason now =
          s.cancelNamed owner jobId reason now := by
        unfold cancelJob
        rw [Option.filter_some, if_pos (by simpa using hempty)]
      rw [hnamed]
      exact h reason now
  · have hqueues := congrArg QueueService.queues (h reason now).2
    have hset := (cancelNamed_of_found hqueue (getJob_owner hjob) reason now).2
    refine ⟨queue.abort jobId (reason.getD "Job cancelled"), ?_, ?_⟩
    · rw [show (s.cancelJob jobId none reason now).2.queues = _ from hqueues.trans hset,
        OrdMap.get_set_self]
    · rw [QueueHandle.abort, hrunning]
      exact OrdMap.get_set_self _ _ _

/-- **A job operation without a queue name reaches the owner of the job exactly if the storage
is in memory or the owner is the first queue consulted.** -/
theorem reaches_iff (hq : s.queues.has owner = true) (hjob : s.storage.Holds jobId owner job) :
    s.Reaches jobId owner job ↔
      s.storage.isMemory = true ∨ (s.consulted jobId).head? = some owner := by
  constructor
  · intro h
    by_contra hnot
    obtain ⟨hredis, hfirst⟩ := not_or.mp hnot
    obtain ⟨first, after, hnames⟩ :=
      List.exists_cons_of_ne_nil (List.ne_nil_of_mem (mem_consulted_of_has hq))
    obtain ⟨queue, hqueue⟩ := (OrdMap.has_iff _).mp hq
    obtain ⟨other, hother⟩ := (OrdMap.has_iff _).mp
      (has_of_mem_consulted (hnames ▸ List.mem_cons_self))
    have hfound : s.storage.getJob jobId first = .ok (some job) := by
      rw [getJob_of_holds hjob, if_neg fun hmem => hredis hmem.1]
    -- the first queue acts, which is not the owner
    have hsame : Same (s.cancelJob jobId none none 0) (s.cancelNamed first jobId none 0) := by
      refine cancelJob_same (show s.consulted jobId = [] ++ first :: after from hnames) nofun ?_
      rw [cancelIn_of_found hother hfound]
      exact (cancelFound_spec s first other jobId none 0).1
    obtain ⟨⟨rest, htrace⟩, -⟩ := cancelNamed_of_found hother hfound none 0
    obtain ⟨⟨rest', htrace'⟩, -⟩ :=
      cancelNamed_of_found hqueue (getJob_owner hjob) none 0
    have heq := congrArg QueueService.trace (hsame.2.symm.trans (h.cancel none 0).2)
    change (s.cancelNamed first jobId none 0).2.trace = (s.cancelNamed owner jobId none 0).2.trace
      at heq
    rw [htrace, htrace'] at heq
    obtain ⟨hacted, -⟩ := List.cons.inj (List.append_cancel_left heq)
    refine hfirst ?_
    rw [hnames, (ServiceRecord.acted.inj hacted).1]
    rfl
  · rintro (hmem | hfirst)
    · refine reaches_of_cancel hq hjob fun reason now => ?_
      have howner : owner ∈ s.consulted jobId := mem_consulted_of_has hq
      obtain ⟨before, after, hnames, hnot⟩ := List.eq_append_cons_of_mem howner
      refine cancelJob_owner hq hjob hnames fun n hn => ?_
      rw [getJob_of_holds hjob, if_pos ⟨hmem, ne_of_mem_of_not_mem hn hnot⟩]
    · obtain ⟨after, hnames⟩ := List.head?_eq_some_iff.mp hfirst
      have hbefore : s.consulted jobId = [] ++ owner :: after := hnames
      exact reaches_of_cancel hq hjob fun reason now => cancelJob_owner hq hjob hbefore nofun

end Owner

/-- A service with two queues over Redis, in which `q` has one job. -/
def demoService : QueueService ℕ where
  storage := .redis {} RedisQueue.Cluster.demoJson
    (RedisQueue.enqueuePipeline {} RedisQueue.Cluster.demoJson {} "q" RedisQueue.Cluster.demoJob)
  queues := ((∅ : OrdMap String QueueHandle).set "p" {}).set "q" {}

lemma demoService_holds :
    demoService.storage.Holds "a" "q" RedisQueue.Cluster.demoJob :=
  ⟨rfl, rfl⟩

/-- The owner is reached once it is cached for the job. -/
theorem reaches_iff_cached :
    { demoService with jobQueueMap := (∅ : OrdMap String String).set "a" "q" }.Reaches "a" "q"
      RedisQueue.Cluster.demoJob :=
  (reaches_iff (s := { demoService with jobQueueMap := (∅ : OrdMap String String).set "a" "q" })
    (by decide +kernel) demoService_holds).mpr (.inr (by decide +kernel))

/-- Without the name of its queue the job of `q` is cancelled in `p`. -/
theorem not_reaches :
    ¬ ∀ (s : QueueService ℕ) (jobId owner : String) (job : Job ℕ), s.queues.has owner = true →
      s.storage.Holds jobId owner job → s.Reaches jobId owner job := by
  intro h
  have hreaches := h demoService "a" "q" _ (by decide +kernel) demoService_holds
  have hnames := congrArg (fun s => s.trace.map ServiceRecord.queueName) (hreaches.cancel none 0).2
  exact absurd hnames (by decide +kernel)

end QueueService

end Blaize.Queue
