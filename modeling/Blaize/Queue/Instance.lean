import Blaize.Lib.Machine
import Blaize.Queue.Storage

/-!
A queue instance over the in-memory storage (`plugins/queue/src/queue-instance.ts`) with
the event loop that runs it.

Every `async` invocation is a `Task` whose program counter is the `await` it stands at,
with the local variables it has there.  An `Action` runs one piece of JavaScript from one
`await` to the next, in any order the event loop could choose: a call of the public
methods, a task that is resumed, a handler that settles, the timeout of a job, a retry
timer.  What the outside decides, the clock, the heap's choice among equals and whether a
listener throws, comes with the action as `Env`.

* `execPiece`: `executeJob` with `handleNoHandler`, `handleValidationFailure`,
  `handleJobCompletion`, `handleJobFailure` and `scheduleRetry`, one piece at a time, as
  the `Effect` it has;
* `step`: the whole machine.

The delay of a retry, the log and the event bus do not feed back into the state and are
left out, but for the two log lines that say that `stop` cut a retry short.
-/

namespace Blaize.Queue

variable {V : Type}

/-! ### Configuration and errors -/

/-- A path in the data with what is wrong there. -/
structure ValidationIssue where
  path : List String
  message : String
  deriving DecidableEq, Repr

/-- The two schemas of a registration, as the partial functions `parse` they are.  What
the handler itself does is up to the environment. -/
structure HandlerRegistration (V : Type) where
  inputSchema : V → Except (List ValidationIssue) V
  outputSchema : V → Except (List ValidationIssue) V

/-- The configuration of a queue, with its defaults. -/
structure QueueConfig (V : Type) where
  name : String
  concurrency : ℕ := 10
  defaultTimeout : ℕ := 30000
  defaultMaxRetries : ℕ := 3
  handlerRegistry : OrdMap String (HandlerRegistration V) := ∅

/-- The options of a job; `none` is one that was not given. -/
structure JobOptions (V : Type) where
  priority : Option ℤ := none
  maxRetries : Option ℕ := none
  timeout : Option ℕ := none
  metadata : Option (OrdMap String V) := none

/-- The priority of a job without one. -/
def DEFAULT_PRIORITY : ℤ := 5

/-- A thrown value, as `err instanceof Error ? err.message : String(err)` reads it. -/
structure Thrown where
  message : String
  stack : Option String := none
  deriving DecidableEq, Repr

/-- How the promise of a handler settles. -/
inductive Settlement (V : Type) where
  | resolved (result : V)
  | rejected (err : Thrown)

/-- `s.includes(part)` -/
def includes (s part : String) : Bool := s.toList.tails.any (part.toList.isPrefixOf ·)

/-- The branch that `handleJobFailure` takes on an error message. -/
inductive FailureKind where
  | timeout
  | cancelled
  | execution
  deriving DecidableEq, Repr

/-- What the text of an error says about the failure. -/
def failureKind (errorMessage : String) : FailureKind :=
  if includes errorMessage "timed out" || includes errorMessage "timeout" then .timeout
  else if includes errorMessage "cancelled" || includes errorMessage "aborted" then .cancelled
  else .execution

/-- `createValidationError`, as the record that `handleValidationFailure` stores. -/
def createValidationError (jobType stage : String) (issues : List ValidationIssue) : JobError where
  message := "Invalid data for job type '" ++ jobType ++ "' at " ++ stage ++ ": " ++
    ", ".intercalate (issues.map fun e => ".".intercalate e.path ++ ": " ++ e.message)
  code := some "VALIDATION_ERROR"

namespace QueueConfig

variable (cfg : QueueConfig V)

/-- The handler of a type of jobs. -/
def registration (jobType : String) : Option (HandlerRegistration V) :=
  cfg.handlerRegistry.get (cfg.name ++ ":" ++ jobType)

/-- The job types registered for this queue. -/
def availableJobTypes : List String :=
  (cfg.handlerRegistry.keys.filter fun key => (cfg.name ++ ":").toList.isPrefixOf key.toList).map
    fun key => String.ofList (key.toList.drop (cfg.name.length + 1))

/-- The error of a job whose type has no handler. -/
def noHandlerError (job : Job V) : JobError where
  message := "No handler registered for job type '" ++ job.type ++ "'. Available job types: [" ++
    ", ".intercalate cfg.availableJobTypes ++ "]"
  code := some "HANDLER_NOT_FOUND"

/-- The record that `add` creates. -/
def newJob (id jobType : String) (data : V) (options : JobOptions V) (now : ℕ) : Job V where
  id := id
  type := jobType
  queueName := cfg.name
  data := data
  status := .queued
  priority := options.priority.getD DEFAULT_PRIORITY
  progress := 0
  queuedAt := now
  retries := 0
  maxRetries := options.maxRetries.getD cfg.defaultMaxRetries
  timeout := options.timeout.getD cfg.defaultTimeout
  metadata := options.metadata.getD ∅

end QueueConfig

/-! ### The updates the queue writes -/

namespace JobPatch

/-- The update when a job starts. -/
def started (now : ℕ) : JobPatch V := { status := some .running, startedAt := some (some now) }

/-- The update when its handler has returned. -/
def completed (now : ℕ) (result : V) : JobPatch V where
  status := some .completed
  completedAt := some (some now)
  progress := some 100
  result := some (some result)
  error := some none

/-- The update when it has failed for good. -/
def failed (now : ℕ) (error : JobError) : JobPatch V where
  status := some .failed
  completedAt := some (some now)
  error := some (some error)

/-- The update when it was cancelled. -/
def cancelled (now : ℕ) : JobPatch V :=
  { status := some .cancelled, completedAt := some (some now) }

/-- The update when it goes back into the queue. -/
def retried (attempt : ℕ) (error : JobError) : JobPatch V where
  status := some .queued
  retries := some attempt
  error := some (some error)
  startedAt := some none

/-- The update of `JobContext.progress`. -/
def reported (percent : ℕ) (message : Option String) : JobPatch V :=
  { progress := some percent, progressMessage := some message }

end JobPatch

/-! ### Tasks -/

/-- Where an `executeJob` invocation waits.  Each constructor is named after what has just
been done; a job read back from the storage is the value of that read. -/
inductive ExecPc (V : Type) where
  | gotJob (job : Option (Job V))
  | noHandlerUpdated (job : Job V)
  | noHandlerGot (job : Job V) (failedJob : Option (Job V))
  | noHandlerPublished (job : Job V)
  | invalidUpdated (job : Job V) (inTry : Bool)
  | invalidGot (job : Job V) (inTry : Bool) (failedJob : Option (Job V))
  | invalidPublished (job : Job V) (inTry : Bool)
  | markedRunning (job : Job V) (reg : HandlerRegistration V) (input : V)
  | gotRunning (job : Job V) (reg : HandlerRegistration V) (input : V)
      (runningJob : Option (Job V))
  | publishedStarted (job : Job V) (reg : HandlerRegistration V) (input : V)
  | handlerRunning (job : Job V) (reg : HandlerRegistration V)
  | raceSettled (job : Job V) (reg : HandlerRegistration V) (outcome : Settlement V)
  | completionGot (job : Job V) (result : V) (currentJob : Option (Job V))
  | completedUpdated (job : Job V)
  | completedGot (job : Job V) (completedJob : Option (Job V))
  | completedPublished (job : Job V)
  | caught (job : Job V) (err : Thrown)
  | failureGot (job : Job V) (err : Thrown) (currentJob : Option (Job V))
  | cancelledUpdated (job : Job V)
  | cancelledGot (job : Job V) (cancelledJob : Option (Job V))
  | retryUpdated (job : Job V) (attempt : ℕ)
  | retryGot (job : Job V) (attempt : ℕ) (updatedJob : Option (Job V))
  | failedUpdated (job : Job V)
  | failedGot (job : Job V) (failedJob : Option (Job V))
  | failedPublished (job : Job V)
  | finishing (threw : Bool)
  | rejected
  | settled

/-- Where the processing loop waits. -/
inductive LoopPc (V : Type) where
  | dequeued (job : Option (Job V))
  | delaying
  | stopped

/-- Where a `cancelJob` invocation waits; `fetched` is the job it found when it was called. -/
inductive CancelPc (V : Type) where
  | got (fetched : Option (Job V))
  | updated (fetched : Job V)
  | regot (fetched : Job V) (updatedJob : Option (Job V))
  | published (fetched : Job V)
  | returnedTrue (fetched : Job V)
  | returnedFalse
  | threw (fetched : Job V)

/-- Where the callback of a retry timer waits. -/
inductive RetryPc (V : Type) where
  | got (jobToRetry : Option (Job V))
  | enqueued
  | finished

/-- Where a `stop` invocation waits. -/
inductive StopPc where
  | gotStats (graceful : Bool)
  | waiting
  | cancelling (cancels : List ℕ)
  | delaying
  | stopped
  deriving DecidableEq, Repr

/-- A method that is being carried out, with the place where it waits. -/
inductive Task (V : Type) where
  | loop (pc : LoopPc V)
  | exec (jobId : String) (pc : ExecPc V)
  | cancel (jobId : String) (reason : Option String) (pc : CancelPc V)
  | retry (jobId : String) (attempt : ℕ) (pc : RetryPc V)
  | stop (pc : StopPc)

/-- A `cancelJob` invocation that has returned or thrown. -/
def Task.isSettled : Task V → Bool
  | .cancel _ _ (.returnedTrue _) => true
  | .cancel _ _ .returnedFalse => true
  | .cancel _ _ (.threw _) => true
  | _ => false

/-- The abort controller of an `executeJob` invocation: the task that listens to it. -/
structure AbortController where
  task : ℕ
  aborted : Bool := false
  deriving DecidableEq, Repr

/-- A timer that will put a job back into the queue. -/
structure RetryTimer where
  id : ℕ
  jobId : String
  attempt : ℕ
  deriving DecidableEq, Repr

/-- What is told about a run. -/
inductive Event (V : Type) where
  | handlerStarted (task : ℕ) (jobId : String) (data : V)
  | retryTimerCleared (jobId : String)
  | retrySkipped (jobId : String)

/-- A queue instance with its storage and the part of the event loop that belongs to it.
The trace holds the latest event first. -/
structure QueueInstance (V : Type) where
  storage : InMemoryStorage V := {}
  runningJobs : OrdSet String := ∅
  abortControllers : OrdMap String AbortController := ∅
  pendingRetryTimers : OrdMap String ℕ := ∅
  isRunning : Bool := false
  isShuttingDown : Bool := false
  tasks : List (Task V) := []
  timers : List RetryTimer := []
  nextTimer : ℕ := 0
  trace : List (Event V) := []

/-- What the outside decides about one piece: the clock, the item the heap hands out, the
error of a listener if one throws, and whether the patience of `stop` has run out. -/
structure Env where
  now : ℕ := 0
  pick : ℕ := 0
  throws : Option Thrown := none
  timedOut : Bool := false
  deriving DecidableEq, Repr

/-- What can happen next. -/
inductive Action (V : Type) where
  | add (id jobType : String) (data : V) (options : JobOptions V) (now : ℕ)
  | start (env : Env)
  | stop (graceful : Bool)
  | cancelJob (jobId : String) (reason : Option String)
  | resume (task : ℕ) (env : Env)
  | settle (task : ℕ) (outcome : Settlement V)
  | timeout (task : ℕ)
  | fire (timer : ℕ)
  | progress (task : ℕ) (percent : ℕ) (message : Option String)

/-! ### `executeJob`, one piece at a time -/

/-- What one piece of `executeJob` does besides waiting again at `next`: the update it
writes to its own job, the controller it installs or removes, whether it leaves
`runningJobs`, the retry it schedules and the input with which it starts the handler. -/
structure Effect (V : Type) where
  next : ExecPc V
  patch : Option (JobPatch V) := none
  takeController : Bool := false
  dropController : Bool := false
  release : Bool := false
  retryTimer : Option ℕ := none
  started : Option V := none

section Exec

variable (cfg : QueueConfig V)

/-- The `catch` of `executeJob` calls `handleJobFailure`, which reads the job. -/
def failurePiece (read : Option (Job V)) (job : Job V) (err : Thrown) : Effect V :=
  { next := .failureGot job err read }

/-- `handleJobFailure` after it has read the job. -/
def failureDecision (now : ℕ) (job : Job V) (err : Thrown) (currentJob : Option (Job V)) :
    Effect V :=
  if currentJob.map Job.status = some .cancelled then
    { next := .finishing false }
  else
    let errorObj (code : String) : JobError := ⟨err.message, some code, err.stack⟩
    let retryOrFail (errorObj : JobError) : Effect V :=
      let currentRetries := (currentJob.map Job.retries).getD job.retries
      if currentRetries < job.maxRetries then
        { next := .retryUpdated job (currentRetries + 1)
          patch := some (.retried (currentRetries + 1) errorObj) }
      else
        { next := .failedUpdated job, patch := some (.failed now errorObj) }
    match failureKind err.message with
    | .cancelled => { next := .cancelledUpdated job, patch := some (.cancelled now) }
    | .timeout => retryOrFail (errorObj "JOB_TIMEOUT")
    | .execution => retryOrFail (errorObj "EXECUTION_ERROR")

/-- `handleJobCompletion` after it has read the job. -/
def completionDecision (now : ℕ) (job : Job V) (result : V) (currentJob : Option (Job V)) :
    Effect V :=
  if currentJob.map Job.status = some .cancelled then
    { next := .finishing false }
  else
    { next := .completedUpdated job, patch := some (.completed now result) }

/-- `executeJob` after it has read a job: look the handler up, validate, mark as running. -/
def dispatchPiece (now : ℕ) (job : Job V) : Effect V :=
  match cfg.registration job.type with
  | none =>
      { next := .noHandlerUpdated job, patch := some (.failed now (cfg.noHandlerError job)) }
  | some reg =>
      match reg.inputSchema job.data with
      | .error issues =>
          { next := .invalidUpdated job false
            patch := some (.failed now (createValidationError job.type "execution-input" issues)) }
      | .ok input =>
          { next := .markedRunning job reg input, takeController := true
            patch := some (.started now) }

/-- `executeJob` after the race between the handler and its abort signal is decided. -/
def outcomePiece (now : ℕ) (read : Option (Job V)) (job : Job V) (reg : HandlerRegistration V) :
    Settlement V → Effect V
  | .rejected err => failurePiece read job err
  | .resolved result =>
      match reg.outputSchema result with
      | .error issues =>
          { next := .invalidUpdated job true
            patch := some (.failed now (createValidationError job.type "execution-output" issues)) }
      | .ok output => { next := .completionGot job output read }

/-- One piece of `executeJob`.  `read` is what `getJob` answers now; `none` is returned
where the invocation cannot be resumed.  Outside the `try` a throwing listener rejects the
invocation, inside it leads to the `catch`, and from the `catch` on to the `finally`. -/
def execPiece (read : Option (Job V)) (env : Env) : ExecPc V → Option (Effect V)
  | .gotJob none => some { next := .settled, release := true }
  | .gotJob (some job) => some (dispatchPiece cfg env.now job)
  | .noHandlerUpdated job => some { next := .noHandlerGot job read }
  | .noHandlerGot _ none => some { next := .settled, release := true }
  | .noHandlerGot job (some _) =>
      match env.throws with
      | some _ => some { next := .rejected }
      | none => some { next := .noHandlerPublished job }
  | .noHandlerPublished _ => some { next := .settled, release := true }
  | .invalidUpdated job inTry => some { next := .invalidGot job inTry read }
  | .invalidGot _ inTry none =>
      some { next := if inTry then .finishing false else .settled, release := true }
  | .invalidGot job inTry (some _) =>
      match env.throws with
      | some err => some { next := if inTry then .caught job err else .rejected }
      | none => some { next := .invalidPublished job inTry }
  | .invalidPublished _ inTry =>
      some { next := if inTry then .finishing false else .settled, release := true }
  | .markedRunning job reg input => some { next := .gotRunning job reg input read }
  | .gotRunning job reg input (some _) =>
      match env.throws with
      | some err => some (failurePiece read job err)
      | none => some { next := .publishedStarted job reg input }
  | .gotRunning job reg input none =>
      some { next := .handlerRunning job reg, started := some input }
  | .publishedStarted job reg input =>
      some { next := .handlerRunning job reg, started := some input }
  | .handlerRunning _ _ => none
  | .raceSettled job reg outcome => some (outcomePiece env.now read job reg outcome)
  | .completionGot job result currentJob => some (completionDecision env.now job result currentJob)
  | .completedUpdated job => some { next := .completedGot job read }
  | .completedGot _ none => some { next := .finishing false }
  | .completedGot job (some _) =>
      match env.throws with
      | some err => some { next := .caught job err }
      | none => some { next := .completedPublished job }
  | .completedPublished _ => some { next := .finishing false }
  | .caught job err => some (failurePiece read job err)
  | .failureGot job err currentJob => some (failureDecision env.now job err currentJob)
  | .cancelledUpdated job => some { next := .cancelledGot job read }
  | .cancelledGot _ none => some { next := .finishing false }
  | .cancelledGot _ (some _) => some { next := .finishing env.throws.isSome }
  | .retryUpdated job attempt => some { next := .retryGot job attempt read }
  | .retryGot _ attempt updatedJob =>
      if updatedJob.isSome && env.throws.isSome then
        some { next := .finishing true }
      else
        some { next := .finishing false, retryTimer := some attempt }
  | .failedUpdated job => some { next := .failedGot job read }
  | .failedGot _ none => some { next := .finishing false }
  | .failedGot job (some _) =>
      match env.throws with
      | some _ => some { next := .finishing true }
      | none => some { next := .failedPublished job }
  | .failedPublished _ => some { next := .finishing false }
  | .finishing threw =>
      some {
        next := if threw then .rejected else .settled
        dropController := true
        release := true }
  | .rejected => some { next := .settled, release := true }
  | .settled => none

end Exec

/-! ### The machine -/

namespace QueueInstance

variable (cfg : QueueConfig V) (s : QueueInstance V)

/-- The instance with the task number `i` replaced. -/
def setTask (i : ℕ) (task : Task V) : QueueInstance V := { s with tasks := s.tasks.set i task }

/-- The instance with one more task. -/
def spawn (task : Task V) : QueueInstance V := { s with tasks := s.tasks ++ [task] }

/-- What `storage.getJob` answers in this queue. -/
def read (jobId : String) : Option (Job V) := s.storage.getJob jobId cfg.name

/-- The job whose handler the task number `i` has started. -/
def startedBy (i : ℕ) : Option String :=
  s.trace.findSome? fun
    | .handlerStarted task jobId _ => if task = i then some jobId else none
    | _ => none

/-- The effect of a piece of the `executeJob` task number `i`. -/
def applyEffect (i : ℕ) (jobId : String) (eff : Effect V) : QueueInstance V where
  storage := match eff.patch with
    | some patch => s.storage.updateJob jobId patch
    | none => s.storage
  runningJobs := if eff.release then s.runningJobs.delete jobId else s.runningJobs
  abortControllers :=
    if eff.takeController then s.abortControllers.set jobId { task := i }
    else if eff.dropController then s.abortControllers.delete jobId
    else s.abortControllers
  pendingRetryTimers := match eff.retryTimer with
    | some _ => s.pendingRetryTimers.set jobId s.nextTimer
    | none => s.pendingRetryTimers
  isRunning := s.isRunning
  isShuttingDown := s.isShuttingDown
  tasks := s.tasks.set i (.exec jobId eff.next)
  timers := match eff.retryTimer with
    | some attempt => ⟨s.nextTimer, jobId, attempt⟩ :: s.timers
    | none => s.timers
  nextTimer := match eff.retryTimer with
    | some _ => s.nextTimer + 1
    | none => s.nextTimer
  trace := match eff.started with
    | some data => .handlerStarted i jobId data :: s.trace
    | none => s.trace

/-- The head of the `while` loop of `processJobs`, up to its next `await`. -/
def loopHead (pick : ℕ) : Option (LoopPc V × QueueInstance V) :=
  if s.isShuttingDown then
    some (.stopped, s)
  else if cfg.concurrency ≤ s.runningJobs.size then
    some (.delaying, s)
  else
    match s.storage.dequeue cfg.name pick with
    | some (job, storage) => some (.dequeued job, { s with storage := storage })
    | none => none

/-- The loop number `i` goes once around. -/
def loopAround (i pick : ℕ) : Option (QueueInstance V) :=
  match s.loopHead cfg pick with
  | some (pc, s') => some (s'.setTask i (.loop pc))
  | none => none

/-- The loop takes a job on: it becomes a running job and `executeJob` starts. -/
def launch (job : Job V) : QueueInstance V :=
  { s with runningJobs := OrdSet.add s.runningJobs job.id }.spawn
    (.exec job.id (.gotJob (s.read cfg job.id)))

/-- The processing loop goes on. -/
def resumeLoop (i : ℕ) (env : Env) : LoopPc V → Option (QueueInstance V)
  | .dequeued (some job) => (s.launch cfg job).loopAround cfg i env.pick
  | .dequeued none => some (s.setTask i (.loop .delaying))
  | .delaying => s.loopAround cfg i env.pick
  | .stopped => none

/-- `controller.abort(…)` reaches the handler that is listening, if it still is: a second
abort is silent, and so is one that comes before the handler was started. -/
def abort (jobId : String) : QueueInstance V :=
  match s.abortControllers.get jobId with
  | none => s
  | some controller =>
      if controller.aborted then
        s
      else
        { s with
          abortControllers := s.abortControllers.set jobId { controller with aborted := true }
          tasks := match s.tasks[controller.task]? with
            | some (.exec id (.handlerRunning job reg)) =>
                s.tasks.set controller.task
                  (.exec id (.raceSettled job reg (.rejected { message := "Job cancelled" })))
            | _ => s.tasks }

/-- `cancelJob` up to its first `await`. -/
def beginCancel (jobId : String) (reason : Option String) : QueueInstance V :=
  s.spawn (.cancel jobId reason (.got (s.read cfg jobId)))

/-- The write of `cancelJob`. -/
def writeCancelled (i : ℕ) (jobId : String) (reason : Option String) (now : ℕ) (job : Job V) :
    QueueInstance V :=
  let s := s.abort jobId
  { s with storage := s.storage.updateJob jobId (.cancelled now) }.setTask i
    (.cancel jobId reason (.updated job))

/-- `cancelJob` goes on. -/
def resumeCancel (i : ℕ) (env : Env) (jobId : String) (reason : Option String) :
    CancelPc V → Option (QueueInstance V)
  | .got none => some (s.setTask i (.cancel jobId reason .returnedFalse))
  | .got (some job) => some (s.writeCancelled i jobId reason env.now job)
  | .updated job =>
      some (s.setTask i (.cancel jobId reason (.regot job (s.read cfg jobId))))
  | .regot job updatedJob =>
      let pc : CancelPc V := match updatedJob, env.throws with
        | none, _ => .returnedTrue job
        | some _, none => .published job
        | some _, some _ => .threw job
      some (s.setTask i (.cancel jobId reason pc))
  | .published job => some (s.setTask i (.cancel jobId reason (.returnedTrue job)))
  | .returnedTrue _ => none
  | .returnedFalse => none
  | .threw _ => none

/-- A timer that has fired is gone, and its callback forgets the reference to it. -/
def disarm (timer : RetryTimer) : QueueInstance V :=
  { s with
    timers := s.timers.erase timer
    pendingRetryTimers := s.pendingRetryTimers.delete timer.jobId }

/-- A retry timer fires: the callback up to its first `await`. -/
def fireTimer (timer : RetryTimer) : QueueInstance V :=
  if s.isShuttingDown then
    { s.disarm timer with trace := .retrySkipped timer.jobId :: s.trace }
  else
    (s.disarm timer).spawn (.retry timer.jobId timer.attempt (.got (s.read cfg timer.jobId)))

/-- The callback of a retry timer goes on. -/
def resumeRetry (i : ℕ) (env : Env) (jobId : String) (attempt : ℕ) :
    RetryPc V → Option (QueueInstance V)
  | .got jobToRetry =>
      match jobToRetry with
      | some job =>
          if job.status = .queued then
            some ({ s with storage := s.storage.enqueue cfg.name job env.now }.setTask i
              (.retry jobId attempt .enqueued))
          else
            some (s.setTask i (.retry jobId attempt .finished))
      | none => some (s.setTask i (.retry jobId attempt .finished))
  | .enqueued => some (s.setTask i (.retry jobId attempt .finished))
  | .finished => none

/-- `stop` clears every pending retry timer. -/
def clearRetryTimers : QueueInstance V :=
  { s with
    timers := s.timers.filter fun timer => timer.id ∉ s.pendingRetryTimers.values
    pendingRetryTimers := ∅
    trace := (s.pendingRetryTimers.keys.map Event.retryTimerCleared).reverse ++ s.trace }

/-- The reason that a forced `stop` gives. -/
def shutdownReason : String := "Queue shutdown (forced)"

/-- `cancelJob` is called for each of the jobs, in order. -/
def beginCancels : List String → QueueInstance V → QueueInstance V
  | [], s => s
  | jobId :: jobIds, s => beginCancels jobIds (s.beginCancel cfg jobId (some shutdownReason))

/-- `stop` goes on. -/
def resumeStop (i : ℕ) (env : Env) : StopPc → Option (QueueInstance V)
  | .gotStats true =>
      let s := s.clearRetryTimers
      some (s.setTask i
        (.stop (if s.runningJobs.size = 0 ∨ env.timedOut = true then .stopped else .waiting)))
  | .gotStats false =>
      let s := s.clearRetryTimers
      if s.runningJobs.size = 0 then
        some (s.setTask i (.stop .stopped))
      else
        let cancels := (List.range s.runningJobs.size).map (s.tasks.length + ·)
        some ((beginCancels cfg s.runningJobs.keys s).setTask i (.stop (.cancelling cancels)))
  | .waiting =>
      some (s.setTask i
        (.stop (if s.runningJobs.size = 0 ∨ env.timedOut = true then .stopped else .waiting)))
  | .cancelling cancels =>
      if ∀ c ∈ cancels, (s.tasks[c]?.any Task.isSettled) = true then
        some (s.setTask i (.stop .delaying))
      else
        none
  | .delaying => some (s.setTask i (.stop .stopped))
  | .stopped => none

/-- A task goes on at its `await`. -/
def resume (i : ℕ) (env : Env) : Option (QueueInstance V) :=
  match s.tasks[i]? with
  | some (.loop pc) => s.resumeLoop cfg i env pc
  | some (.exec jobId pc) =>
      match execPiece cfg (s.read cfg jobId) env pc with
      | some eff => some (s.applyEffect i jobId eff)
      | none => none
  | some (.cancel jobId reason pc) => s.resumeCancel cfg i env jobId reason pc
  | some (.retry jobId attempt pc) => s.resumeRetry cfg i env jobId attempt pc
  | some (.stop pc) => s.resumeStop cfg i env pc
  | none => none

/-- The race of the `executeJob` task number `i` is decided. -/
def settleRace (i : ℕ) (outcome : Settlement V) : Option (QueueInstance V) :=
  match s.tasks[i]? with
  | some (.exec jobId (.handlerRunning job reg)) =>
      some (s.setTask i (.exec jobId (.raceSettled job reg outcome)))
  | _ => none

/-- `queue.start()` -/
def start (env : Env) : Option (QueueInstance V) :=
  if s.isRunning then
    some s
  else
    match { s with isRunning := true, isShuttingDown := false }.loopHead cfg env.pick with
    | some (pc, s') => some (s'.spawn (.loop pc))
    | none => none

/-- `queue.stop({ graceful })`, up to its first `await`. -/
def stop (graceful : Bool) : QueueInstance V :=
  if s.isShuttingDown then
    s
  else
    { s with isShuttingDown := true, isRunning := false }.spawn (.stop (.gotStats graceful))

/-- One action.  `add` needs an unused identifier, as `randomUUID` gives; a handler may
report progress at any time after it was started. -/
def step : Action V → Option (QueueInstance V)
  | .add id jobType data options now =>
      if s.storage.jobs.has id then
        none
      else
        some { s with
          storage := s.storage.enqueue cfg.name (cfg.newJob id jobType data options now) now }
  | .start env => s.start cfg env
  | .stop graceful => some (s.stop graceful)
  | .cancelJob jobId reason => some (s.beginCancel cfg jobId reason)
  | .resume i env => s.resume cfg i env
  | .settle i outcome => s.settleRace i outcome
  | .timeout i => s.settleRace i (.rejected { message := "Job timed out" })
  | .fire t =>
      match s.timers.find? (·.id = t) with
      | some timer => some (s.fireTimer cfg timer)
      | none => none
  | .progress i percent message =>
      match s.startedBy i with
      | some jobId =>
          some { s with storage := s.storage.updateJob jobId (.reported percent message) }
      | none => none

/-- A queue with one job type whose schemas accept everything. -/
def demoConfig : QueueConfig ℕ where
  name := "q"
  concurrency := 1
  handlerRegistry := OrdMap.set ∅ "q:t" ⟨.ok, .ok⟩

end QueueInstance

end Blaize.Queue
