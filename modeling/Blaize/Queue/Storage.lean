import Mathlib.Data.Int.Notation
import Blaize.Lib.OrdMap

/-!
The job records of the queue plugin (`plugins/queue/src/types.ts`), its priority queue
(`priority-queue.ts`) and the in-memory storage adapter (`storage/memory.ts`).

The adapter's methods are `async` but never wait: the body runs to its end when the method
is called, so each is one function on the state.  `V` stands for the values of JavaScript
that jobs carry without the queue looking at them.

* `Job`, `JobPatch`: a job record and a `Partial<Job>`; `JobPatch.apply` is the spread
  `{ ...existingJob, ...updates }`;
* `PriorityQueue.takeAt`: the third-party heap is only known to hand out an item of
  maximal score, so which one among equals is left to the caller;
* `InMemoryStorage`: `enqueue`, `dequeue`, `peek`, `getJob`, `updateJob`, `removeJob`,
  `getQueueStats`;
* `statusOf`: the stored status, and what each method does to it.
-/

namespace Blaize.Queue

/-- The states of a job. -/
inductive JobStatus where
  | queued
  | running
  | completed
  | failed
  | cancelled
  deriving DecidableEq, Repr

/-- The error that a job keeps. -/
structure JobError where
  message : String
  code : Option String := none
  stack : Option String := none
  deriving DecidableEq, Repr

/-- A job, with every field that the storage reads or writes. -/
structure Job (V : Type) where
  id : String
  type : String
  queueName : String
  data : V
  status : JobStatus
  priority : ℤ
  progress : ℕ
  progressMessage : Option String := none
  queuedAt : ℕ
  startedAt : Option ℕ := none
  completedAt : Option ℕ := none
  result : Option V := none
  error : Option JobError := none
  retries : ℕ
  maxRetries : ℕ
  timeout : ℕ
  metadata : OrdMap String V

variable {V : Type}

/-- A `Partial<Job>`: the fields that an update mentions.  An optional field may be
mentioned with the value `undefined`. -/
structure JobPatch (V : Type) where
  id : Option String := none
  type : Option String := none
  queueName : Option String := none
  data : Option V := none
  status : Option JobStatus := none
  priority : Option ℤ := none
  progress : Option ℕ := none
  progressMessage : Option (Option String) := none
  queuedAt : Option ℕ := none
  startedAt : Option (Option ℕ) := none
  completedAt : Option (Option ℕ) := none
  result : Option (Option V) := none
  error : Option (Option JobError) := none
  retries : Option ℕ := none
  maxRetries : Option ℕ := none
  timeout : Option ℕ := none
  metadata : Option (OrdMap String V) := none

/-- The spread `{ ...existingJob, ...updates }`. -/
def JobPatch.apply (p : JobPatch V) (job : Job V) : Job V where
  id := p.id.getD job.id
  type := p.type.getD job.type
  queueName := p.queueName.getD job.queueName
  data := p.data.getD job.data
  status := p.status.getD job.status
  priority := p.priority.getD job.priority
  progress := p.progress.getD job.progress
  progressMessage := p.progressMessage.getD job.progressMessage
  queuedAt := p.queuedAt.getD job.queuedAt
  startedAt := p.startedAt.getD job.startedAt
  completedAt := p.completedAt.getD job.completedAt
  result := p.result.getD job.result
  error := p.error.getD job.error
  retries := p.retries.getD job.retries
  maxRetries := p.maxRetries.getD job.maxRetries
  timeout := p.timeout.getD job.timeout
  metadata := p.metadata.getD job.metadata

/-! ### The priority queue -/

/-- An item of the heap. -/
structure PriorityQueueItem (T : Type) where
  priority : ℤ
  data : T
  enqueuedAt : ℕ

/-- How much more than time a priority counts. -/
def PRIORITY_MULTIPLIER : ℤ := 1000000000000

/-- The score of an item; the greater one comes first. -/
def calculateScore (priority : ℤ) (enqueuedAt : ℕ) : ℤ :=
  priority * PRIORITY_MULTIPLIER - enqueuedAt

variable {T : Type}

/-- The score of an item. -/
def PriorityQueueItem.score (item : PriorityQueueItem T) : ℤ :=
  calculateScore item.priority item.enqueuedAt

/-- The items of the heap, in the order in which they were added. -/
abbrev PriorityQueue (T : Type) := List (PriorityQueueItem T)

namespace PriorityQueue

/-- `queue.enqueue(item, priority)` -/
def enqueue (queue : PriorityQueue T) (item : T) (priority : ℤ) (now : ℕ) : PriorityQueue T :=
  queue ++ [⟨priority, item, now⟩]

/-- The heap hands out its item number `pick`, which has to be one of maximal score. -/
def takeAt (queue : PriorityQueue T) (pick : ℕ) : Option (T × PriorityQueue T) :=
  match queue[pick]? with
  | some item =>
      if ∀ other ∈ queue, other.score ≤ item.score then
        some (item.data, queue.eraseIdx pick)
      else
        none
  | none => none

/-- `heap.front()`: an item of maximal score, which stays in the heap. -/
def frontAt (queue : PriorityQueue T) (pick : ℕ) : Option T :=
  (takeAt queue pick).map Prod.fst

/-- What `takeAt` hands out is the item at the place asked for, and no other scores higher. -/
lemma takeAt_eq_some {queue rest : PriorityQueue T} {pick : ℕ} {data : T}
    (h : takeAt queue pick = some (data, rest)) :
    ∃ item, queue[pick]? = some item ∧ (∀ other ∈ queue, other.score ≤ item.score) ∧
      data = item.data ∧ rest = queue.eraseIdx pick := by
  rw [takeAt] at h
  split at h
  next item hitem =>
      split at h
      next hmax =>
          simp only [Option.some.injEq, Prod.mk.injEq] at h
          exact ⟨item, hitem, hmax, h.1.symm, h.2.symm⟩
      next => cases h
  next => cases h

end PriorityQueue

/-! ### The in-memory storage -/

/-- The numbers of the jobs in each state. -/
structure QueueStats where
  total : ℕ := 0
  queued : ℕ := 0
  running : ℕ := 0
  completed : ℕ := 0
  failed : ℕ := 0
  cancelled : ℕ := 0
  deriving DecidableEq, Repr

/-- One counter of the statistics is changed. -/
def QueueStats.modifyStatus (stats : QueueStats) (f : ℕ → ℕ) : JobStatus → QueueStats
  | .queued => { stats with queued := f stats.queued }
  | .running => { stats with running := f stats.running }
  | .completed => { stats with completed := f stats.completed }
  | .failed => { stats with failed := f stats.failed }
  | .cancelled => { stats with cancelled := f stats.cancelled }

/-- One more job in a state. -/
def QueueStats.incrementStatusCount (stats : QueueStats) (status : JobStatus) : QueueStats :=
  stats.modifyStatus (· + 1) status

/-- The counters are clamped at `0`, as subtraction on `ℕ` is. -/
def QueueStats.decrementStatusCount (stats : QueueStats) (status : JobStatus) : QueueStats :=
  stats.modifyStatus (· - 1) status

/-- The storage; its maps keep the order of insertion. -/
structure InMemoryStorage (V : Type) where
  queues : OrdMap String (PriorityQueue (Job V)) := ∅
  jobs : OrdMap String (Job V) := ∅
  jobToQueue : OrdMap String String := ∅
  stats : OrdMap String QueueStats := ∅

namespace InMemoryStorage

variable (st : InMemoryStorage V)

/-- The priority queue of a queue name; a missing one counts as empty. -/
def queueOf (queueName : String) : PriorityQueue (Job V) := (st.queues.get queueName).getD []

/-- `storage.enqueue(queueName, job)` -/
def enqueue (queueName : String) (job : Job V) (now : ℕ) : InMemoryStorage V :=
  let stats := (st.stats.get queueName).getD {}
  let stats := { stats with total := stats.total + 1 }
  { queues := st.queues.set queueName
      (PriorityQueue.enqueue (st.queueOf queueName) job job.priority now)
    jobs := st.jobs.set job.id job
    jobToQueue := st.jobToQueue.set job.id queueName
    stats := st.stats.set queueName (stats.incrementStatusCount job.status) }

/-- The highest-priority job is taken out of the queue; `none` when item number `pick` is
not one the heap may hand out. -/
def dequeue (queueName : String) (pick : ℕ) : Option (Option (Job V) × InMemoryStorage V) :=
  if (st.queueOf queueName).isEmpty then
    some (none, st)
  else
    match PriorityQueue.takeAt (st.queueOf queueName) pick with
    | some (job, queue) => some (some job, { st with queues := st.queues.set queueName queue })
    | none => none

/-- The job that `dequeue` would hand out; `none` when item number `pick` is not one the heap
may have in front. -/
def peek (queueName : String) (pick : ℕ) : Option (Option (Job V)) :=
  if (st.queueOf queueName).isEmpty then
    some none
  else
    (PriorityQueue.frontAt (st.queueOf queueName) pick).map some

/-- `storage.getJob(jobId, queueName)` -/
def getJob (jobId : String) (queueName : String) : Option (Job V) :=
  match st.jobs.get jobId with
  | some job => if st.jobToQueue.get jobId = some queueName then some job else none
  | none => none

/-- The statistics that count a job, with the name of its queue.  The test `queueName ? …`
of the source also turns the empty name away. -/
def statsOf (jobId : String) : Option (String × QueueStats) :=
  match st.jobToQueue.get jobId with
  | some queueName =>
      if queueName = "" then none else (st.stats.get queueName).map fun stats => (queueName, stats)
  | none => none

/-- `storage.updateJob(jobId, updates)` -/
def updateJob (jobId : String) (updates : JobPatch V) : InMemoryStorage V :=
  match st.jobs.get jobId with
  | none => st
  | some existingJob =>
      let st' := { st with jobs := st.jobs.set jobId (updates.apply existingJob) }
      match st.statsOf jobId with
      | none => st'
      | some (queueName, stats) =>
          match updates.status with
          | none => st'
          | some newStatus =>
              if newStatus = existingJob.status then
                st'
              else
                { st' with
                  stats := st.stats.set queueName
                    ((stats.decrementStatusCount existingJob.status).incrementStatusCount
                      newStatus) }

/-- `storage.removeJob(jobId)` -/
def removeJob (jobId : String) : Bool × InMemoryStorage V :=
  match st.jobs.get jobId with
  | none => (false, st)
  | some job =>
      let st' := { st with
        jobs := st.jobs.delete jobId
        jobToQueue := st.jobToQueue.delete jobId }
      match st.statsOf jobId with
      | none => (true, st')
      | some (queueName, stats) =>
          let stats := { stats with total := stats.total - 1 }
          (true, { st' with
            stats := st.stats.set queueName (stats.decrementStatusCount job.status) })

/-- `storage.getQueueStats(queueName)` -/
def getQueueStats (queueName : String) : QueueStats := (st.stats.get queueName).getD {}

/-- The stored status of a job. -/
def statusOf (jobId : String) : Option JobStatus := (st.jobs.get jobId).map Job.status

/-! ### What the methods do to the job map, to its owners and to the queue -/

@[simp] lemma enqueue_jobs (queueName : String) (job : Job V) (now : ℕ) :
    (st.enqueue queueName job now).jobs = st.jobs.set job.id job := rfl

@[simp] lemma enqueue_jobToQueue (queueName : String) (job : Job V) (now : ℕ) :
    (st.enqueue queueName job now).jobToQueue = st.jobToQueue.set job.id queueName := rfl

@[simp] lemma queueOf_enqueue (queueName : String) (job : Job V) (now : ℕ) :
    (st.enqueue queueName job now).queueOf queueName =
      st.queueOf queueName ++ [⟨job.priority, job, now⟩] := by
  simp [queueOf, enqueue, PriorityQueue.enqueue]

lemma updateJob_jobs (jobId : String) (updates : JobPatch V) :
    (st.updateJob jobId updates).jobs =
      match st.jobs.get jobId with
      | none => st.jobs
      | some job => st.jobs.set jobId (updates.apply job) := by
  rw [updateJob]
  split
  · rfl
  · split
    · rfl
    · split
      · rfl
      · split <;> rfl

@[simp] lemma updateJob_jobToQueue (jobId : String) (updates : JobPatch V) :
    (st.updateJob jobId updates).jobToQueue = st.jobToQueue := by
  rw [updateJob]
  split
  · rfl
  · split
    · rfl
    · split
      · rfl
      · split <;> rfl

@[simp] lemma updateJob_queues (jobId : String) (updates : JobPatch V) :
    (st.updateJob jobId updates).queues = st.queues := by
  rw [updateJob]
  split
  · rfl
  · split
    · rfl
    · split
      · rfl
      · split <;> rfl

@[simp] lemma queueOf_updateJob (queueName jobId : String) (updates : JobPatch V) :
    (st.updateJob jobId updates).queueOf queueName = st.queueOf queueName := by
  rw [queueOf, updateJob_queues, queueOf]

/-- An update changes the record of its own job only. -/
lemma get_updateJob (jobId id : String) (updates : JobPatch V) :
    (st.updateJob jobId updates).jobs.get id =
      if jobId = id then (st.jobs.get id).map updates.apply else st.jobs.get id := by
  rw [updateJob_jobs]
  split
  next h =>
      split
      next e => rw [← e, h]; rfl
      next => rfl
  next job h =>
      rw [OrdMap.get_set]
      split
      next e => rw [← e, h]; rfl
      next => rfl

lemma statusOf_updateJob (jobId id : String) (patch : JobPatch V) :
    (st.updateJob jobId patch).statusOf id =
      if jobId = id then (st.statusOf id).map fun status => patch.status.getD status
      else st.statusOf id := by
  rw [statusOf, get_updateJob, statusOf]
  split
  · rw [Option.map_map, Option.map_map]
    rfl
  · rfl

lemma statusOf_enqueue (queueName id : String) (job : Job V) (now : ℕ) :
    (st.enqueue queueName job now).statusOf id =
      if job.id = id then some job.status else st.statusOf id := by
  rw [statusOf, enqueue_jobs, OrdMap.get_set, statusOf]
  split <;> rfl

lemma get_removeJob (jobId id : String) :
    (st.removeJob jobId).2.jobs.get id = if jobId = id then none else st.jobs.get id := by
  rw [removeJob]
  split
  next h =>
      split
      next e => rw [← e, h]
      next => rfl
  next job h =>
      split
      · exact OrdMap.get_delete ..
      · exact OrdMap.get_delete ..

/-- A removed job stays in the priority queue. -/
lemma queueOf_removeJob (queueName jobId : String) :
    (st.removeJob jobId).2.queueOf queueName = st.queueOf queueName := by
  rw [removeJob]
  split
  · rfl
  · split <;> rfl

lemma removeJob_fst (jobId : String) : (st.removeJob jobId).1 = (st.jobs.get jobId).isSome := by
  rw [removeJob]
  split
  next h => rw [h]; rfl
  next job h =>
      rw [h]
      split <;> rfl

/-- The case split of `peek`. -/
lemma peek_cases {queueName : String} {pick : ℕ} {job : Option (Job V)}
    (h : st.peek queueName pick = some job) :
    (job = none ∧ st.queueOf queueName = []) ∨
      ∃ item, item ∈ st.queueOf queueName ∧
        (∀ other ∈ st.queueOf queueName, other.score ≤ item.score) ∧ job = some item.data := by
  rw [peek] at h
  split at h
  next he => exact Or.inl ⟨(Option.some.inj h).symm, List.isEmpty_iff.mp he⟩
  next =>
      obtain ⟨front, hfront, rfl⟩ := Option.map_eq_some_iff.mp h
      obtain ⟨⟨job, rest⟩, htake, rfl⟩ := Option.map_eq_some_iff.mp hfront
      obtain ⟨item, hitem, hmax, rfl, -⟩ := PriorityQueue.takeAt_eq_some htake
      exact Or.inr ⟨item, List.mem_of_getElem? hitem, hmax, rfl⟩

/-- The case split of `dequeue`: an empty queue answers `null` and nothing changes,
otherwise one item of maximal score leaves the queue and nothing else changes. -/
lemma dequeue_cases {queueName : String} {pick : ℕ} {job : Option (Job V)}
    {st' : InMemoryStorage V} (h : st.dequeue queueName pick = some (job, st')) :
    (job = none ∧ st.queueOf queueName = [] ∧ st' = st) ∨
      ∃ item, (st.queueOf queueName)[pick]? = some item ∧
        (∀ other ∈ st.queueOf queueName, other.score ≤ item.score) ∧ job = some item.data ∧
        st'.jobs = st.jobs ∧ st'.jobToQueue = st.jobToQueue ∧
        st'.queueOf queueName = (st.queueOf queueName).eraseIdx pick := by
  rw [dequeue] at h
  split at h
  next he =>
      simp only [Option.some.injEq, Prod.mk.injEq] at h
      exact Or.inl ⟨h.1.symm, List.isEmpty_iff.mp he, h.2.symm⟩
  next =>
      split at h
      next job' queue htake =>
          simp only [Option.some.injEq, Prod.mk.injEq] at h
          obtain ⟨rfl, rfl⟩ := h
          obtain ⟨item, hitem, hmax, rfl, rfl⟩ := PriorityQueue.takeAt_eq_some htake
          exact Or.inr ⟨item, hitem, hmax, rfl, rfl, rfl, by simp [queueOf]⟩
      next => cases h

end InMemoryStorage

end Blaize.Queue
