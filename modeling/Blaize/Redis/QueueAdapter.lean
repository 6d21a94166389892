import Blaize.Lib.Machine
import Blaize.Lib.Redis
import Blaize.Queue.Storage

/-!
The queue storage over Redis (`adapters/redis/src/queue-adapter.ts`) with its three Lua
scripts, for any number of clients.

A Lua script and a pipeline are one step each; the `getJob` with which the methods begin,
or end, is a step of its own.  A `Call` is a method invocation that waits between its two
steps, with the job that it has read.  Callers enqueue a job under its own queue name, with
a fresh identifier and as queued.

* `jobToHash`, `hashToJob`: the encoding of jobs as Redis hashes;
* `dequeueScript`, `completeScript`, `failScript`: the Lua scripts;
* `enqueuePipeline`, `updatePipeline`, `removePipeline`: the pipelines;
* `dequeue`, `peek`, `updateJob`, `removeJob`: the methods of a client that is alone;
* `step`: the clients with the server.
-/

namespace Blaize.RedisQueue

open Machine Blaize.Queue

variable {V : Type}

/-- The jobs of the queue, as they are stored. -/
abbrev QueueJob := Job

/-! ### Keys -/

/-- A status as it is written in keys and hashes. -/
def statusText : JobStatus → String
  | .queued => "queued"
  | .running => "running"
  | .completed => "completed"
  | .failed => "failed"
  | .cancelled => "cancelled"

/-- The cast `hash.status as QueueJob['status']`; no other text is ever written. -/
def statusOfText (text : String) : Option JobStatus :=
  [JobStatus.queued, .running, .completed, .failed, .cancelled].find? (statusText · = text)

@[simp] lemma statusOfText_statusText (status : JobStatus) :
    statusOfText (statusText status) = some status := by
  cases status <;> rfl

/-- The prefix of the keys of jobs. -/
def jobKeyPrefix : String := "job:"

/-- The key of the hash of a job. -/
def buildJobKey (jobId : String) : String := jobKeyPrefix ++ jobId

lemma buildJobKey_inj {a b : String} : buildJobKey a = buildJobKey b ↔ a = b := by
  constructor
  · intro h
    have : jobKeyPrefix.toList ++ a.toList = jobKeyPrefix.toList ++ b.toList := by
      simpa [buildJobKey] using congrArg String.toList h
    exact String.toList_inj.mp (List.append_cancel_left this)
  · rintro rfl
    rfl

/-- What follows the last occurrence of a letter determines what stands before it. -/
lemma append_cons_inj_of_notMem_right {α : Type*} {a : α} {l₁ l₂ r₁ r₂ : List α}
    (h₁ : a ∉ r₁) (h₂ : a ∉ r₂) (h : l₁ ++ a :: r₁ = l₂ ++ a :: r₂) : l₁ = l₂ ∧ r₁ = r₂ := by
  induction l₁ generalizing l₂ with
  | nil =>
      cases l₂ with
      | nil => exact ⟨rfl, (List.cons.inj h).2⟩
      | cons b l₂ =>
          have : r₁ = l₂ ++ a :: r₂ := (List.cons.inj h).2
          exact absurd (this ▸ List.mem_append_right _ List.mem_cons_self) h₁
  | cons b l₁ ih =>
      cases l₂ with
      | nil =>
          have : l₁ ++ a :: r₁ = r₂ := (List.cons.inj h).2
          exact absurd (this ▸ List.mem_append_right _ List.mem_cons_self) h₂
      | cons c l₂ =>
          obtain ⟨hb, ht⟩ := List.cons.inj h
          obtain ⟨rfl, rfl⟩ := ih ht
          exact ⟨by rw [hb], rfl⟩

/-- The configuration of an adapter. -/
structure RedisQueueAdapter where
  keyPrefix : String := "queue:"
  deriving DecidableEq, Repr

namespace RedisQueueAdapter

variable (cfg : RedisQueueAdapter)

/-- The key of the sorted set of a queue and a status. -/
def buildQueueKey (queueName : String) (status : JobStatus) : String :=
  cfg.keyPrefix ++ queueName ++ ":" ++ statusText status

/-- Different queues and different statuses have different sorted sets. -/
lemma buildQueueKey_inj {q q' : String} {s s' : JobStatus} :
    cfg.buildQueueKey q s = cfg.buildQueueKey q' s' ↔ q = q' ∧ s = s' := by
  constructor
  · intro h
    have hcolon : ∀ status, ':' ∉ (statusText status).toList := by
      intro status
      cases status <;> decide
    have heq : (cfg.keyPrefix.toList ++ q.toList) ++ ':' :: (statusText s).toList =
        (cfg.keyPrefix.toList ++ q'.toList) ++ ':' :: (statusText s').toList := by
      simpa [buildQueueKey] using congrArg String.toList h
    obtain ⟨hq, hs⟩ := append_cons_inj_of_notMem_right (hcolon s) (hcolon s') heq
    refine ⟨String.toList_inj.mp (List.append_cancel_left hq), ?_⟩
    have := congrArg statusOfText (String.toList_inj.mp hs)
    simpa using this
  · rintro ⟨rfl, rfl⟩
    rfl

/-- With the default prefix no sorted set has the key of a hash. -/
lemma buildQueueKey_ne_buildJobKey (q jobId : String) (s : JobStatus) :
    ({} : RedisQueueAdapter).buildQueueKey q s ≠ buildJobKey jobId := by
  intro h
  have := congrArg String.toList h
  simp [buildQueueKey, buildJobKey, jobKeyPrefix] at this

end RedisQueueAdapter

/-! ### Encoding -/

/-- `JSON` on the values that jobs carry; `parse` may throw. -/
structure Json (V : Type) where
  undefined : V
  truthy : V → Bool
  stringify : V → String
  parse : String → Option V
  stringifyError : JobError → String
  parseError : String → Option JobError
  stringifyRecord : OrdMap String V → String
  parseRecord : String → Option (OrdMap String V)

/-- The number that the leading digits of a text write. -/
def leadingDigits (text : List Char) : ℕ :=
  (text.takeWhile Char.isDigit).foldl (fun n c => 10 * n + (c.toNat - '0'.toNat)) 0

/-- `parseInt(text, 10)` on a text that starts with a decimal number, as all texts that are
written here do. -/
def parseInt (text : String) : ℤ :=
  match text.toList with
  | '-' :: digits => -leadingDigits digits
  | digits => leadingDigits digits

/-- Lua's `tonumber` on a field that may be missing, for decimal integers. -/
def tonumber (text : Option String) : Option ℤ :=
  text.bind fun text =>
    match text.toList with
    | [] => none
    | '-' :: digits =>
        if digits ≠ [] ∧ digits.all Char.isDigit then some (-leadingDigits digits) else none
    | digits => if digits.all Char.isDigit then some (leadingDigits digits) else none

/-- The text of a field that is present and not empty. -/
def filled (hash : Redis.Hash) (field : String) : Option String :=
  (hash.get field).filter (· ≠ "")

/-- A number that may not be there is written as an empty text. -/
def optionalText (n : Option ℕ) : String := (n.map toString).getD ""

section Encoding

variable (json : Json V)

/-- `result ? JSON.stringify(result) : ''`. -/
def resultText : Option V → String
  | some result => if json.truthy result then json.stringify result else ""
  | none => ""

/-- The fields of a job. -/
def jobToHash (job : QueueJob V) : List (String × String) :=
  [("id", job.id),
    ("type", job.type),
    ("queueName", job.queueName),
    ("data", json.stringify job.data),
    ("status", statusText job.status),
    ("priority", toString job.priority),
    ("progress", toString job.progress),
    ("queuedAt", toString job.queuedAt),
    ("startedAt", optionalText job.startedAt),
    ("completedAt", optionalText job.completedAt),
    ("retries", toString job.retries),
    ("maxRetries", toString job.maxRetries),
    ("timeout", toString job.timeout),
    ("result", resultText json job.result),
    ("error", match job.error with
      | some error => json.stringifyError error
      | none => ""),
    ("metadata", json.stringifyRecord job.metadata)]

/-- A JSON text is parsed when it is there, which may throw. -/
def parseFilled {α : Type} (parse : String → Option α) (text : Option String) :
    Option (Option α) :=
  match text with
  | some text => (parse text).map some
  | none => some none

/-- A number of a hash, 0 where there is none. -/
def natField (hash : Redis.Hash) (field : String) : ℕ :=
  ((filled hash field).map fun text => (parseInt text).toNat).getD 0

/-- `none` when a JSON text does not parse. -/
def hashToJob (hash : Redis.Hash) : Option (QueueJob V) := do
  let data ← parseFilled json.parse (filled hash "data")
  let result ← parseFilled json.parse (filled hash "result")
  let error ← parseFilled json.parseError (filled hash "error")
  let metadata ← parseFilled json.parseRecord (filled hash "metadata")
  let status ← (hash.get "status").bind statusOfText
  some {
    id := (hash.get "id").getD ""
    type := (hash.get "type").getD ""
    queueName := (hash.get "queueName").getD ""
    data := data.getD json.undefined
    status := status
    priority := ((filled hash "priority").map parseInt).getD 1
    progress := natField hash "progress"
    queuedAt := natField hash "queuedAt"
    startedAt := (filled hash "startedAt").map fun text => (parseInt text).toNat
    completedAt := (filled hash "completedAt").map fun text => (parseInt text).toNat
    retries := natField hash "retries"
    maxRetries := natField hash "maxRetries"
    timeout := natField hash "timeout"
    result := result
    error := error
    metadata := metadata.getD ∅ }

/-- A job that is read has the status and the queue that its hash names. -/
lemma hashToJob_eq_some {hash : Redis.Hash} {job : QueueJob V}
    (h : hashToJob json hash = some job) :
    (hash.get "status").bind statusOfText = some job.status ∧
      job.queueName = (hash.get "queueName").getD "" := by
  rw [hashToJob] at h
  obtain ⟨data, -, h⟩ := Option.bind_eq_some_iff.mp h
  obtain ⟨result, -, h⟩ := Option.bind_eq_some_iff.mp h
  obtain ⟨error, -, h⟩ := Option.bind_eq_some_iff.mp h
  obtain ⟨metadata, -, h⟩ := Option.bind_eq_some_iff.mp h
  obtain ⟨status, hst, h⟩ := Option.bind_eq_some_iff.mp h
  cases h
  exact ⟨hst, rfl⟩

end Encoding

/-! ### Scripts and pipelines -/

/-- What a failed operation throws. -/
inductive Thrown where
  | redisOperation (message operation key : String)
  | error (message : String)
  deriving DecidableEq, Repr

/-- The two answers of `fail.lua` for a running job. -/
inductive FailOutcome where
  | retry
  | failed
  deriving DecidableEq, Repr

/-- The place of a job among the queued ones: a higher priority and an earlier time come
first. -/
def jobScore (priority : ℤ) (queuedAt : ℤ) : ℚ := -priority + queuedAt / 10000000000000

section Scripts

variable (store : Redis.Store)

/-- `dequeue.lua`. -/
def dequeueScript (queuedKey runningKey jobKeyPrefix : String) (now : ℕ) :
    Option String × Redis.Store :=
  match store.zfirst queuedKey with
  | none => (none, store)
  | some jobId =>
      (some jobId,
        ((store.zrem queuedKey jobId).zadd runningKey now jobId).hset (jobKeyPrefix ++ jobId)
          [("status", "running"), ("startedAt", toString now)])

/-- `complete.lua`; `true` is its answer `1`. -/
def completeScript (runningKey completedKey jobKeyPrefix jobId : String) (now : ℕ)
    (result : String) : Bool × Redis.Store :=
  match store.zscore runningKey jobId with
  | none => (false, store)
  | some _ =>
      let store := ((store.zrem runningKey jobId).zadd completedKey now jobId).hset
        (jobKeyPrefix ++ jobId)
        [("status", "completed"), ("completedAt", toString now), ("progress", "100")]
      (true, if result ≠ "" then store.hset (jobKeyPrefix ++ jobId) [("result", result)] else store)

/-- `fail.lua`. -/
def failScript (runningKey queuedKey failedKey jobKeyPrefix jobId : String) (now : ℕ)
    (error : String) : Option FailOutcome × Redis.Store :=
  match store.zscore runningKey jobId with
  | none => (none, store)
  | some _ =>
      let jobKey := jobKeyPrefix ++ jobId
      let retries := (tonumber (store.hget jobKey "retries")).getD 0
      let maxRetries := (tonumber (store.hget jobKey "maxRetries")).getD 3
      let priority := (tonumber (store.hget jobKey "priority")).getD 5
      let queuedAt := (tonumber (store.hget jobKey "queuedAt")).getD now
      let newRetries := retries + 1
      let store := store.zrem runningKey jobId
      if newRetries ≤ maxRetries then
        (some .retry,
          (store.zadd queuedKey (jobScore priority queuedAt) jobId).hset jobKey
            [("status", "queued"), ("retries", toString newRetries), ("error", error),
              ("startedAt", ""), ("progress", "0")])
      else
        (some .failed,
          (store.zadd failedKey now jobId).hset jobKey
            [("status", "failed"), ("completedAt", toString now),
              ("retries", toString newRetries), ("error", error)])

end Scripts

section Pipelines

variable (cfg : RedisQueueAdapter) (json : Json V) (store : Redis.Store)

/-- The pipeline of `enqueue`. -/
def enqueuePipeline (queueName : String) (job : QueueJob V) : Redis.Store :=
  (store.hset (buildJobKey job.id) (jobToHash json job)).zadd
    (cfg.buildQueueKey queueName job.status) (jobScore job.priority job.queuedAt) job.id

/-- Whether an update takes a running job back for a retry; the retry callback of the queue
enqueues it later. -/
def isRetry (updates : JobPatch V) (currentJob : QueueJob V) : Bool :=
  currentJob.status = .running && updates.status = some .queued && updates.retries.isSome

/-- Whether an update moves the job between the sorted sets, or within one. -/
def moves (updates : JobPatch V) (currentJob : QueueJob V) : Bool :=
  updates.status.getD currentJob.status ≠ currentJob.status ||
    updates.priority.any (· ≠ currentJob.priority)

/-- The pipeline of `updateJob`, with the job that was read before. -/
def updatePipeline (jobId : String) (updates : JobPatch V) (currentJob : QueueJob V) :
    Redis.Store :=
  let oldStatus := currentJob.status
  let newStatus := updates.status.getD oldStatus
  let store := store.hset (buildJobKey jobId) (jobToHash json (updates.apply currentJob))
  if moves updates currentJob then
    let store := store.zrem (cfg.buildQueueKey currentJob.queueName oldStatus) jobId
    if isRetry updates currentJob then
      store
    else
      store.zadd (cfg.buildQueueKey currentJob.queueName newStatus)
        (jobScore (updates.priority.getD currentJob.priority)
          (updates.queuedAt.getD currentJob.queuedAt)) jobId
  else
    store

/-- The pipeline of `removeJob`, with the job that was read before. -/
def removePipeline (jobId : String) (job : QueueJob V) : Redis.Store :=
  (store.del (buildJobKey jobId)).zrem (cfg.buildQueueKey job.queueName job.status) jobId

/-- `getJob`: the job of a hash that is there, which may throw. -/
def getJob (jobId : String) : Except Thrown (Option (QueueJob V)) :=
  if (store.hgetall (buildJobKey jobId)).entries = [] then
    .ok none
  else
    match hashToJob json (store.hgetall (buildJobKey jobId)) with
    | some job => .ok (some job)
    | none => .error (.redisOperation "GET_JOB failed" "GET" (buildJobKey jobId))

end Pipelines

/-! ### Methods of a client that is alone

With no other client each method runs from its first command to its last, so it is one
function on the store. -/

section Methods

variable (cfg : RedisQueueAdapter) (json : Json V) (store : Redis.Store)

/-- `dequeue`: an empty identifier counts as no answer of the script. -/
def dequeue (queueName : String) (now : ℕ) :
    Except Thrown (Option (QueueJob V)) × Redis.Store :=
  match dequeueScript store (cfg.buildQueueKey queueName .queued)
      (cfg.buildQueueKey queueName .running) jobKeyPrefix now with
  | (none, store) => (.ok none, store)
  | (some jobId, store) =>
      if jobId = "" then
        (.ok none, store)
      else
        match getJob json store jobId with
        | .ok job => (.ok job, store)
        | .error _ => (.error (.redisOperation "DEQUEUE failed" "EVALSHA"
            (cfg.buildQueueKey queueName .queued)), store)

/-- `peek(queueName)` -/
def peek (queueName : String) : Except Thrown (Option (QueueJob V)) :=
  match store.zfirst (cfg.buildQueueKey queueName .queued) with
  | none => .ok none
  | some jobId =>
      match getJob json store jobId with
      | .ok job => .ok job
      | .error _ => .error (.redisOperation "PEEK failed" "ZRANGE"
          (cfg.buildQueueKey queueName .queued))

/-- `updateJob`: a job that is missing, or cannot be read, throws. -/
def updateJob (jobId : String) (updates : JobPatch V) : Except Thrown Unit × Redis.Store :=
  match getJob json store jobId with
  | .error err => (.error err, store)
  | .ok none => (.error (.error ("Job " ++ jobId ++ " not found")), store)
  | .ok (some currentJob) => (.ok (), updatePipeline cfg json store jobId updates currentJob)

/-- `removeJob(jobId)` -/
def removeJob (jobId : String) : Except Thrown Bool × Redis.Store :=
  match getJob json store jobId with
  | .error _ => (.error (.redisOperation "REMOVE_JOB failed" "DEL" (buildJobKey jobId)), store)
  | .ok none => (.ok false, store)
  | .ok (some job) => (.ok true, removePipeline cfg store jobId job)

end Methods

/-! ### Clients -/

/-- What a method returns or throws. -/
inductive Outcome (V : Type) where
  | enqueued
  | dequeued (job : Option (QueueJob V))
  | completed (success : Bool)
  | failed (result : Option FailOutcome)
  | updated
  | threw (err : Thrown)

/-- A method invocation of some client that waits for its next answer of the server. -/
inductive Call (V : Type) where
  | dequeued (queueName jobId : String)
  | completing (jobId : String) (result : Option V) (job : QueueJob V)
  | failing (jobId errorMessage : String) (job : QueueJob V)
  | updating (jobId : String) (updates : JobPatch V) (currentJob : QueueJob V)
  | returned (outcome : Outcome V)

/-- What has taken effect on a job. -/
inductive Event where
  | enqueued (jobId : String)
  | dequeued (jobId : String)
  | completed (jobId : String)
  | failed (jobId : String) (outcome : FailOutcome)
  | moved (jobId : String) (delayed : Bool)
  deriving DecidableEq, Repr

/-- The job of an event. -/
def Event.jobId : Event → String
  | .enqueued jobId => jobId
  | .dequeued jobId => jobId
  | .completed jobId => jobId
  | .failed jobId _ => jobId
  | .moved jobId _ => jobId

/-- The server with the calls of all its clients.  The trace holds the latest event first. -/
structure Cluster (V : Type) where
  store : Redis.Store := {}
  calls : List (Call V) := []
  trace : List Event := []

/-- What can happen next: a call, or the next piece of one. -/
inductive Action (V : Type) where
  | enqueue (queueName : String) (job : QueueJob V)
  | dequeue (queueName : String) (now : ℕ)
  | completeJob (jobId : String) (result : Option V)
  | failJob (jobId errorMessage : String)
  | updateJob (jobId : String) (updates : JobPatch V)
  | resume (call now : ℕ)

namespace Cluster

variable (cfg : RedisQueueAdapter) (json : Json V) (c : Cluster V)

/-- A call begins. -/
def spawn (call : Call V) : Cluster V := { c with calls := c.calls ++ [call] }

/-- A call goes on. -/
def setCall (i : ℕ) (call : Call V) : Cluster V := { c with calls := c.calls.set i call }

/-- The `getJob` with which `completeJob`, `failJob` and `updateJob` begin: it throws, it
finds nothing, or the call goes on with the job. -/
def beginWith (jobId : String) (missing : Outcome V) (found : QueueJob V → Call V) : Cluster V :=
  match getJob json c.store jobId with
  | .error err => c.spawn (.returned (.threw err))
  | .ok none => c.spawn (.returned missing)
  | .ok (some job) => c.spawn (found job)

/-- `enqueue(queueName, job)`, whose pipeline is one command. -/
def enqueue (queueName : String) (job : QueueJob V) : Cluster V :=
  { c with
    store := enqueuePipeline cfg json c.store queueName job
    trace := .enqueued job.id :: c.trace }.spawn (.returned .enqueued)

/-- `dequeue` up to the end of its script. -/
def dequeue (queueName : String) (now : ℕ) : Cluster V :=
  match dequeueScript c.store (cfg.buildQueueKey queueName .queued)
      (cfg.buildQueueKey queueName .running) jobKeyPrefix now with
  | (none, store) => { c with store := store }.spawn (.returned (.dequeued none))
  | (some jobId, store) =>
      { c with
        store := store
        trace := .dequeued jobId :: c.trace }.spawn (.dequeued queueName jobId)

/-- The `getJob` with which `dequeue` ends. -/
def finishDequeue (i : ℕ) (queueName jobId : String) : Cluster V :=
  match getJob json c.store jobId with
  | .error _ => c.setCall i (.returned (.threw
      (.redisOperation "DEQUEUE failed" "EVALSHA" (cfg.buildQueueKey queueName .queued))))
  | .ok job => c.setCall i (.returned (.dequeued job))

/-- The script of `completeJob`. -/
def finishComplete (i : ℕ) (jobId : String) (result : Option V) (job : QueueJob V) (now : ℕ) :
    Cluster V :=
  match completeScript c.store (cfg.buildQueueKey job.queueName .running)
      (cfg.buildQueueKey job.queueName .completed) jobKeyPrefix jobId now
      (resultText json result) with
  | (true, store) =>
      { c with store := store, trace := .completed jobId :: c.trace }.setCall i
        (.returned (.completed true))
  | (false, store) => { c with store := store }.setCall i (.returned (.completed false))

/-- The script of `failJob`. -/
def finishFail (i : ℕ) (jobId errorMessage : String) (job : QueueJob V) (now : ℕ) : Cluster V :=
  match failScript c.store (cfg.buildQueueKey job.queueName .running)
      (cfg.buildQueueKey job.queueName .queued) (cfg.buildQueueKey job.queueName .failed)
      jobKeyPrefix jobId now (json.stringifyError { message := errorMessage }) with
  | (some outcome, store) =>
      { c with store := store, trace := .failed jobId outcome :: c.trace }.setCall i
        (.returned (.failed (some outcome)))
  | (none, store) => { c with store := store }.setCall i (.returned (.failed none))

/-- The pipeline of `updateJob`. -/
def finishUpdate (i : ℕ) (jobId : String) (updates : JobPatch V) (currentJob : QueueJob V) :
    Cluster V :=
  { c with
    store := updatePipeline cfg json c.store jobId updates currentJob
    trace :=
      if moves updates currentJob then
        .moved jobId (isRetry updates currentJob) :: c.trace
      else
        c.trace }.setCall i (.returned .updated)

/-- A call goes on at its `await`. -/
def resume (i now : ℕ) : Option (Cluster V) :=
  match c.calls[i]? with
  | some (.dequeued queueName jobId) => some (c.finishDequeue cfg json i queueName jobId)
  | some (.completing jobId result job) => some (c.finishComplete cfg json i jobId result job now)
  | some (.failing jobId errorMessage job) =>
      some (c.finishFail cfg json i jobId errorMessage job now)
  | some (.updating jobId updates currentJob) =>
      some (c.finishUpdate cfg json i jobId updates currentJob)
  | some (.returned _) => none
  | none => none

/-- One step of one client. -/
def step : Action V → Option (Cluster V)
  | .enqueue queueName job =>
      if (c.store.hgetall (buildJobKey job.id)).entries = [] ∧ job.queueName = queueName ∧
          job.status = .queued then
        some (c.enqueue cfg json queueName job)
      else
        none
  | .dequeue queueName now => some (c.dequeue cfg queueName now)
  | .completeJob jobId result =>
      some (c.beginWith json jobId (.completed false) (.completing jobId result))
  | .failJob jobId errorMessage =>
      some (c.beginWith json jobId (.failed none) (.failing jobId errorMessage))
  | .updateJob jobId updates =>
      some (c.beginWith json jobId
        (.threw (.error ("Job " ++ jobId ++ " not found"))) (.updating jobId updates))
  | .resume i now => c.resume cfg json i now

/-- Numbers as the values of jobs; errors and metadata are dropped. -/
def demoJson : Json ℕ where
  undefined := 0
  truthy n := n ≠ 0
  stringify n := toString n
  parse text := some (parseInt text).toNat
  stringifyError error := error.message
  parseError text := some { message := text }
  stringifyRecord _ := "record"
  parseRecord _ := some ∅

/-- A job. -/
def demoJob : QueueJob ℕ where
  id := "a"
  type := "t"
  queueName := "q"
  data := 1
  status := .queued
  priority := 5
  progress := 0
  queuedAt := 0
  retries := 0
  maxRetries := 1
  timeout := 0
  metadata := ∅

end Cluster

end Blaize.RedisQueue
