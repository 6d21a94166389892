import Blaize.Queue.Instance

/-!
A queue instance over a storage that nothing is known about
(`plugins/queue/src/queue-instance.ts`).

Every operation of the storage settles when it likes: it answers what it likes, or it
rejects.  A `dequeue` is carried out by the storage at some time between the call and the
moment the loop goes on, and only then a job leaves the queue.  The answer of a `getJob` is
fixed when the call is made and looked at when it settles; it is arbitrary, so that the two
moments need not be told apart.

* `execReject`: `executeJob` when the call that it waits for rejects;
* `OpenInstance.step`: the whole machine.

`add` and the progress reports of a handler talk to the storage, the bus and the listeners
only and leave the instance as it is.
-/

namespace Blaize.Queue

variable {V : Type}

/-- Where a processing loop waits.  `dequeuing` is a call that the storage has not carried
out yet, `dequeued` one whose answer is on its way. -/
inductive LoopStage (V : Type) where
  | dequeuing
  | dequeued (job : Option (Job V))
  | delaying
  | returned
  | rejected

/-- Where a `cancelJob` invocation waits. -/
inductive CancelStage where
  | getting
  | updating
  | regetting
  | publishing
  | settled
  deriving DecidableEq, Repr

/-- Where the callback of a retry timer waits. -/
inductive RetryStage where
  | getting
  | enqueuing
  | finished
  deriving DecidableEq, Repr

/-- How a `stop` call came to resolve: no job was running any more, its patience ran out,
the running jobs were cancelled, or an earlier `stop` was already under way. -/
inductive StopEnd where
  | drained
  | timedOut
  | forced
  | ignored
  deriving DecidableEq, Repr

/-- Where a `stop` invocation waits. -/
inductive StopStage where
  | gettingStats (graceful : Bool)
  | waiting
  | cancelling (cancels : List ℕ)
  | delaying
  | resolved (how : StopEnd)
  | rejected
  deriving DecidableEq, Repr

/-- A method that is being carried out, with its stage. -/
inductive OpenTask (V : Type) where
  | loop (stage : LoopStage V)
  | exec (jobId : String) (pc : ExecPc V)
  | cancel (jobId : String) (reason : Option String) (stage : CancelStage)
  | retry (jobId : String) (attempt : ℕ) (stage : RetryStage)
  | stop (stage : StopStage)

/-- A `cancelJob` invocation that has returned or thrown. -/
def OpenTask.isSettled : OpenTask V → Bool
  | .cancel _ _ .settled => true
  | _ => false

/-- What is told about a run. -/
inductive OpenEvent (V : Type) where
  | taken (job : Job V)
  | handlerStarted (task : ℕ) (jobId : String) (data : V)

/-- A queue instance with the part of the event loop that belongs to it.  The trace holds
the latest event first. -/
structure OpenInstance (V : Type) where
  runningJobs : OrdSet String := ∅
  abortControllers : OrdMap String AbortController := ∅
  pendingRetryTimers : OrdMap String ℕ := ∅
  isRunning : Bool := false
  isShuttingDown : Bool := false
  tasks : List (OpenTask V) := []
  timers : List RetryTimer := []
  nextTimer : ℕ := 0
  trace : List (OpenEvent V) := []

/-- `serve` is the storage carrying out a `dequeue` call, `resume` the settlement of what a
task waits for, `reject` the rejection of it; `answer` is what a `getJob` call that is made
or waited for answers. -/
inductive OpenAction (V : Type) where
  | add (id jobType : String) (data : V) (options : JobOptions V) (now : ℕ)
  | start
  | stop (graceful : Bool)
  | cancelJob (jobId : String) (reason : Option String)
  | serve (task : ℕ) (job : Option (Job V))
  | resume (task : ℕ) (env : Env) (answer : Option (Job V))
  | reject (task : ℕ) (err : Thrown) (answer : Option (Job V))
  | settle (task : ℕ) (outcome : Settlement V)
  | timeout (task : ℕ)
  | fire (timer : ℕ)

/-- **`executeJob` when the storage call it waits for rejects.**  Before the `try` the
invocation rejects; inside it the `catch` runs, at once if `executeJob` itself was waiting
and after one more turn if one of its helpers was; from the `catch` on the `finally` runs
and the invocation rejects.  `publishStateChange` catches what the bus throws. -/
def execReject (answer : Option (Job V)) (err : Thrown) : ExecPc V → Option (Effect V)
  | .gotJob _ => some { next := .rejected }
  | .noHandlerUpdated _ => some { next := .rejected }
  | .noHandlerGot _ _ => some { next := .rejected }
  | .invalidUpdated job inTry => some { next := if inTry then .caught job err else .rejected }
  | .invalidGot job inTry _ => some { next := if inTry then .caught job err else .rejected }
  | .markedRunning job _ _ => some (failurePiece answer job err)
  | .gotRunning job _ _ _ => some (failurePiece answer job err)
  | .completionGot job _ _ => some { next := .caught job err }
  | .completedUpdated job => some { next := .caught job err }
  | .completedGot job _ => some { next := .caught job err }
  | .failureGot _ _ _ => some { next := .finishing true }
  | .cancelledUpdated _ => some { next := .finishing true }
  | .cancelledGot _ _ => some { next := .finishing true }
  | .retryUpdated _ _ => some { next := .finishing true }
  | .retryGot _ _ _ => some { next := .finishing true }
  | .failedUpdated _ => some { next := .finishing true }
  | .failedGot _ _ => some { next := .finishing true }
  | _ => none

namespace OpenInstance

variable (cfg : QueueConfig V) (s : OpenInstance V)

/-- The instance with the task number `i` replaced. -/
def setTask (i : ℕ) (task : OpenTask V) : OpenInstance V := { s with tasks := s.tasks.set i task }

/-- The instance with one more task. -/
def spawn (task : OpenTask V) : OpenInstance V := { s with tasks := s.tasks ++ [task] }

/-- The effect of a piece of the `executeJob` task number `i`. -/
def applyEffect (i : ℕ) (jobId : String) (eff : Effect V) : OpenInstance V where
  runningJobs := if eff.release then s.runningJobs.delete jobId else s.runningJobs
  abortControllers :=
    if eff.takeController then s.abortControllers.set jobId { task := i }
    else if eff.dropController then s.abortControllers.delete jobId
    else s.abortControllers
  pendingRetryTimers := match eff.retryTimer with
    | some _ => s.pendingRetryTimers.set jobId s.nextTimer
    | none => s.pendingRetryTimers
  isRunning := s.isRunning
  isShuttingDown := s.isShuttingDown
  tasks := s.tasks.set i (.exec jobId eff.next)
  timers := match eff.retryTimer with
    | some attempt => ⟨s.nextTimer, jobId, attempt⟩ :: s.timers
    | none => s.timers
  nextTimer := match eff.retryTimer with
    | some _ => s.nextTimer + 1
    | none => s.nextTimer
  trace := match eff.started with
    | some data => .handlerStarted i jobId data :: s.trace
    | none => s.trace

/-- The head of the `while` loop of `processJobs`, up to its next `await`. -/
def loopHead : LoopStage V :=
  if s.isShuttingDown then .returned
  else if cfg.concurrency ≤ s.runningJobs.size then .delaying
  else .dequeuing

/-- The loop number `i` goes once around. -/
def loopAround (i : ℕ) : OpenInstance V := s.setTask i (.loop (s.loopHead cfg))

/-- The loop takes a job on: it becomes a running job and `executeJob` starts. -/
def launch (job : Job V) (answer : Option (Job V)) : OpenInstance V :=
  { s with runningJobs := OrdSet.add s.runningJobs job.id }.spawn (.exec job.id (.gotJob answer))

/-- The processing loop goes on with the answer of the storage. -/
def resumeLoop (i : ℕ) (answer : Option (Job V)) : LoopStage V → Option (OpenInstance V)
  | .dequeued (some job) => some ((s.launch job answer).loopAround cfg i)
  | .dequeued none => some (s.setTask i (.loop .delaying))
  | .delaying => some (s.loopAround cfg i)
  | .dequeuing => none
  | .returned => none
  | .rejected => none

/-- `controller.abort(…)` reaches the handler that is listening, if it still is. -/
def abort (jobId : String) : OpenInstance V :=
  match s.abortControllers.get jobId with
  | none => s
  | some controller =>
      if controller.aborted then
        s
      else
        { s with
          abortControllers := s.abortControllers.set jobId { controller with aborted := true }
          tasks := match s.tasks[controller.task]? with
            | some (.exec id (.handlerRunning job reg)) =>
                s.tasks.set controller.task
                  (.exec id (.raceSettled job reg (.rejected { message := "Job cancelled" })))
            | _ => s.tasks }

/-- `cancelJob` goes on. -/
def resumeCancel (i : ℕ) (env : Env) (jobId : String) (reason : Option String)
    (answer : Option (Job V)) : CancelStage → Option (OpenInstance V)
  | .getting =>
      match answer with
      | none => some (s.setTask i (.cancel jobId reason .settled))
      | some _ => some ((s.abort jobId).setTask i (.cancel jobId reason .updating))
  | .updating => some (s.setTask i (.cancel jobId reason .regetting))
  | .regetting =>
      some (s.setTask i (.cancel jobId reason
        (if answer.isSome && env.throws.isNone then .publishing else .settled)))
  | .publishing => some (s.setTask i (.cancel jobId reason .settled))
  | .settled => none

/-- A retry timer fires: the callback up to its first `await`. -/
def fireTimer (timer : RetryTimer) : OpenInstance V :=
  let s' := { s with
    timers := s.timers.erase timer
    pendingRetryTimers := s.pendingRetryTimers.delete timer.jobId }
  if s.isShuttingDown then s' else s'.spawn (.retry timer.jobId timer.attempt .getting)

/-- The callback of a retry timer goes on. -/
def resumeRetry (i : ℕ) (jobId : String) (attempt : ℕ) (answer : Option (Job V)) :
    RetryStage → Option (OpenInstance V)
  | .getting =>
      some (s.setTask i (.retry jobId attempt
        (if answer.map Job.status = some .queued then .enqueuing else .finished)))
  | .enqueuing => some (s.setTask i (.retry jobId attempt .finished))
  | .finished => none

/-- `stop` clears every pending retry timer. -/
def clearRetryTimers : OpenInstance V :=
  { s with
    timers := s.timers.filter fun timer => timer.id ∉ s.pendingRetryTimers.values
    pendingRetryTimers := ∅ }

/-- The loop in which a graceful `stop` waits for the running jobs. -/
def drain (i : ℕ) (timedOut : Bool) : OpenInstance V :=
  s.setTask i (.stop
    (if s.runningJobs.size = 0 then .resolved .drained
     else if timedOut then .resolved .timedOut
     else .waiting))

/-- `stop` goes on. -/
def resumeStop (i : ℕ) (env : Env) : StopStage → Option (OpenInstance V)
  | .gettingStats true => some (s.clearRetryTimers.drain i env.timedOut)
  | .gettingStats false =>
      let s := s.clearRetryTimers
      if s.runningJobs.size = 0 then
        some (s.setTask i (.stop (.resolved .forced)))
      else
        let cancels := (List.range s.runningJobs.size).map (s.tasks.length + ·)
        let tasks := s.tasks ++ s.runningJobs.keys.map fun jobId =>
          .cancel jobId (some "Queue shutdown (forced)") .getting
        some ({ s with tasks := tasks }.setTask i (.stop (.cancelling cancels)))
  | .waiting => some (s.drain i env.timedOut)
  | .cancelling cancels =>
      if ∀ c ∈ cancels, (s.tasks[c]?.any OpenTask.isSettled) = true then
        some (s.setTask i (.stop .delaying))
      else
        none
  | .delaying => some (s.setTask i (.stop (.resolved .forced)))
  | .resolved _ => none
  | .rejected => none

/-- A task goes on at its `await`. -/
def resume (i : ℕ) (env : Env) (answer : Option (Job V)) : Option (OpenInstance V) :=
  match s.tasks[i]? with
  | some (.loop stage) => s.resumeLoop cfg i answer stage
  | some (.exec jobId pc) =>
      match execPiece cfg answer env pc with
      | some eff => some (s.applyEffect i jobId eff)
      | none => none
  | some (.cancel jobId reason stage) => s.resumeCancel i env jobId reason answer stage
  | some (.retry jobId attempt stage) => s.resumeRetry i jobId attempt answer stage
  | some (.stop stage) => s.resumeStop i env stage
  | none => none

/-- The storage call that a task waits for rejects. -/
def reject (i : ℕ) (err : Thrown) (answer : Option (Job V)) : Option (OpenInstance V) :=
  match s.tasks[i]? with
  | some (.loop .dequeuing) => some (s.setTask i (.loop .rejected))
  | some (.exec jobId pc) =>
      match execReject answer err pc with
      | some eff => some (s.applyEffect i jobId eff)
      | none => none
  | some (.cancel jobId reason stage) =>
      if stage = .settled ∨ stage = .publishing then none
      else some (s.setTask i (.cancel jobId reason .settled))
  | some (.retry jobId attempt stage) =>
      if stage = .finished then none else some (s.setTask i (.retry jobId attempt .finished))
  | some (.stop (.gettingStats _)) => some (s.setTask i (.stop .rejected))
  | _ => none

/-- The storage carries out the `dequeue` call of the loop number `i`. -/
def serve (i : ℕ) (job : Option (Job V)) : Option (OpenInstance V) :=
  match s.tasks[i]? with
  | some (.loop .dequeuing) =>
      some ({ s with trace := (job.map OpenEvent.taken).toList ++ s.trace }.setTask i
        (.loop (.dequeued job)))
  | _ => none

/-- The race of the `executeJob` task number `i` is decided. -/
def settleRace (i : ℕ) (outcome : Settlement V) : Option (OpenInstance V) :=
  match s.tasks[i]? with
  | some (.exec jobId (.handlerRunning job reg)) =>
      some (s.setTask i (.exec jobId (.raceSettled job reg outcome)))
  | _ => none

/-- `queue.start()` -/
def start : OpenInstance V :=
  if s.isRunning then
    s
  else
    let s := { s with isRunning := true, isShuttingDown := false }
    s.spawn (.loop (s.loopHead cfg))

/-- `queue.stop({ graceful })`, up to its first `await`. -/
def stop (graceful : Bool) : OpenInstance V :=
  if s.isShuttingDown then
    s.spawn (.stop (.resolved .ignored))
  else
    { s with isShuttingDown := true, isRunning := false }.spawn (.stop (.gettingStats graceful))

/-- What an action does; `none`: it cannot happen. -/
def step : OpenAction V → Option (OpenInstance V)
  | .add _ _ _ _ _ => some s
  | .start => some (s.start cfg)
  | .stop graceful => some (s.stop graceful)
  | .cancelJob jobId reason => some (s.spawn (.cancel jobId reason .getting))
  | .serve i job => s.serve i job
  | .resume i env answer => s.resume cfg i env answer
  | .reject i err answer => s.reject i err answer
  | .settle i outcome => s.settleRace i outcome
  | .timeout i => s.settleRace i (.rejected { message := "Job timed out" })
  | .fire t =>
      match s.timers.find? (·.id = t) with
      | some timer => some (s.fireTimer timer)
      | none => none

end OpenInstance

end Blaize.Queue
