import Mathlib.Logic.Relation
import Blaize.Queue.Instance

/-!
What one step of a queue instance can do, said once.

A step is a short chain of `Move`s, each of which touches few things at a time; the
results on runs only look at the moves.  A `Guard` restricts the three moves that the
results put conditions on, and `Allowed` is the condition that this makes on actions.

* `Move`: the moves;
* `step_moves`: **every step is a chain of moves**;
* `run_moves`: a run of allowed actions is a chain of guarded moves;
* `Owned`: stored jobs carry their own identifier and belong to this queue, so a read
  answers with the stored record (`read_eq`).
-/

namespace Blaize.Queue

open Machine

variable {V : Type}

/-- The job that a loop holds between the `dequeue` and the start of `executeJob`. -/
def LoopPc.held : LoopPc V → Option (Job V)
  | .dequeued job => job
  | .delaying => none
  | .stopped => none

/-- The job that `cancelJob` had found, once it has written the cancellation. -/
def CancelPc.wrote : CancelPc V → Option (Job V)
  | .got _ => none
  | .updated fetched => some fetched
  | .regot fetched _ => some fetched
  | .published fetched => some fetched
  | .returnedTrue fetched => some fetched
  | .returnedFalse => none
  | .threw fetched => some fetched

/-- The job that a retry callback is about to enqueue again. -/
def RetryPc.pending : RetryPc V → Option (Job V)
  | .got (some job) => if job.status = .queued then some job else none
  | .got none => none
  | .enqueued => none
  | .finished => none

/-- Conditions on the moves: on a piece of `executeJob`, on the write of `cancelJob`, on an
item that a loop takes out of the queue and on the retry timer of a job that fires. -/
structure Guard (V : Type) where
  exec : String → ExecPc V → Env → Prop := fun _ _ _ => True
  cancel : QueueInstance V → String → Job V → Prop := fun _ _ _ => True
  take : InMemoryStorage V → String → Prop := fun _ _ => True
  fire : QueueInstance V → String → Prop := fun _ _ => True

namespace QueueInstance

section Moves

variable (cfg : QueueConfig V) (G : Guard V)

/-- The identifier that the head of the loop takes out of the queue. -/
def takes (s : QueueInstance V) (pick : ℕ) : Option String :=
  if s.isShuttingDown then
    none
  else if cfg.concurrency ≤ s.runningJobs.size then
    none
  else
    ((s.storage.queueOf cfg.name)[pick]?).map (·.data.id)

/-- The condition that a guard makes on an action in a state. -/
def Allowed (s : QueueInstance V) : Action V → Prop
  | .start env =>
      s.isRunning = false →
        ∀ id ∈ takes cfg { s with isRunning := true, isShuttingDown := false } env.pick,
          G.take s.storage id
  | .resume i env =>
      match s.tasks[i]? with
      | some (.exec jobId pc) => G.exec jobId pc env
      | some (.cancel jobId _ (.got (some job))) => G.cancel s jobId job
      | some (.loop (.dequeued (some job))) =>
          ∀ id ∈ takes cfg (s.launch cfg job) env.pick, G.take s.storage id
      | some (.loop .delaying) => ∀ id ∈ takes cfg s env.pick, G.take s.storage id
      | _ => True
  | .fire t => ∀ timer ∈ s.timers.find? (·.id = t), G.fire s timer.jobId
  | _ => True

instance [∀ jobId pc env, Decidable (G.exec jobId pc env)]
    [∀ s jobId job, Decidable (G.cancel s jobId job)] [∀ st id, Decidable (G.take st id)]
    [∀ s jobId, Decidable (G.fire s jobId)] (s : QueueInstance V) :
    (a : Action V) → Decidable (Allowed cfg G s a)
  | .start env =>
      inferInstanceAs (Decidable (s.isRunning = false →
        ∀ id ∈ takes cfg { s with isRunning := true, isShuttingDown := false } env.pick,
          G.take s.storage id))
  | .resume i env =>
      match h : s.tasks[i]? with
      | some (.exec jobId pc) => decidable_of_iff (G.exec jobId pc env) (by rw [Allowed, h])
      | some (.cancel jobId _ (.got (some job))) =>
          decidable_of_iff (G.cancel s jobId job) (by rw [Allowed, h])
      | some (.loop (.dequeued (some job))) =>
          decidable_of_iff (∀ id ∈ takes cfg (s.launch cfg job) env.pick, G.take s.storage id)
            (by rw [Allowed, h])
      | some (.loop .delaying) =>
          decidable_of_iff (∀ id ∈ takes cfg s env.pick, G.take s.storage id) (by rw [Allowed, h])
      | some (.loop (.dequeued none)) | some (.loop .stopped) | some (.retry _ _ _)
      | some (.stop _) | none | some (.cancel _ _ (.got none)) | some (.cancel _ _ (.updated _))
      | some (.cancel _ _ (.regot _ _)) | some (.cancel _ _ (.published _))
      | some (.cancel _ _ (.returnedTrue _)) | some (.cancel _ _ .returnedFalse)
      | some (.cancel _ _ (.threw _)) => .isTrue (by rw [Allowed, h]; trivial)
  | .fire t =>
      inferInstanceAs (Decidable (∀ timer ∈ s.timers.find? (·.id = t), G.fire s timer.jobId))
  | .add _ _ _ _ _ | .stop _ | .cancelJob _ _ | .settle _ _ | .timeout _
  | .progress _ _ _ => .isTrue trivial

/-- One move. -/
inductive Move : QueueInstance V → QueueInstance V → Prop
  | add {s : QueueInstance V} (job : Job V) (now : ℕ) (hfresh : s.storage.jobs.get job.id = none)
      (hst : job.status = .queued) (hretries : job.retries = 0) :
      Move s { s with storage := s.storage.enqueue cfg.name job now }
  | exec {s : QueueInstance V} {i : ℕ} {jobId : String} {pc : ExecPc V} {env : Env} {eff : Effect V}
      (hi : s.tasks[i]? = some (.exec jobId pc))
      (heff : execPiece cfg (s.read cfg jobId) env pc = some eff) (hG : G.exec jobId pc env) :
      Move s (s.applyEffect i jobId eff)
  | settle {s : QueueInstance V} {i : ℕ} {jobId : String} {job : Job V}
      {reg : HandlerRegistration V} (outcome : Settlement V)
      (hi : s.tasks[i]? = some (.exec jobId (.handlerRunning job reg))) :
      Move s (s.setTask i (.exec jobId (.raceSettled job reg outcome)))
  | flags {s : QueueInstance V} (running down : Bool) :
      Move s { s with isRunning := running, isShuttingDown := down }
  | spawnLoop {s : QueueInstance V} : Move s (s.spawn (.loop .delaying))
  | idle {s : QueueInstance V} {i : ℕ} {pc pc' : LoopPc V} (hi : s.tasks[i]? = some (.loop pc))
      (hpc : pc.held = none) (hpc' : pc'.held = none) : Move s (s.setTask i (.loop pc'))
  | take {s : QueueInstance V} {i : ℕ} {pc : LoopPc V} {pick : ℕ} {item : PriorityQueueItem (Job V)}
      {storage : InMemoryStorage V} (hi : s.tasks[i]? = some (.loop pc)) (hpc : pc.held = none)
      (hitem : (s.storage.queueOf cfg.name)[pick]? = some item)
      (hjobs : storage.jobs = s.storage.jobs) (howner : storage.jobToQueue = s.storage.jobToQueue)
      (hqueue : storage.queueOf cfg.name = (s.storage.queueOf cfg.name).eraseIdx pick)
      (hG : G.take s.storage item.data.id) :
      Move s ({ s with storage := storage }.setTask i (.loop (.dequeued (some item.data))))
  | launch {s : QueueInstance V} {i : ℕ} {job : Job V}
      (hi : s.tasks[i]? = some (.loop (.dequeued (some job)))) :
      Move s ((s.launch cfg job).setTask i (.loop .delaying))
  | beginCancel {s : QueueInstance V} (jobId : String) (reason : Option String) :
      Move s (s.beginCancel cfg jobId reason)
  | writeCancelled {s : QueueInstance V} {i : ℕ} {jobId : String} {reason : Option String}
      {job : Job V} (now : ℕ) (hi : s.tasks[i]? = some (.cancel jobId reason (.got (some job))))
      (hG : G.cancel s jobId job) : Move s (s.writeCancelled i jobId reason now job)
  | cancel {s : QueueInstance V} {i : ℕ} {jobId : String} {reason : Option String}
      {pc pc' : CancelPc V} (hi : s.tasks[i]? = some (.cancel jobId reason pc))
      (hpc : pc'.wrote = pc.wrote) (hgot : ∀ fetched, pc' ≠ .got fetched) :
      Move s (s.setTask i (.cancel jobId reason pc'))
  | reenqueue {s : QueueInstance V} {i : ℕ} {jobId : String} {attempt : ℕ} {job : Job V} (now : ℕ)
      (hi : s.tasks[i]? = some (.retry jobId attempt (.got (some job))))
      (hst : job.status = .queued) :
      Move s ({ s with storage := s.storage.enqueue cfg.name job now }.setTask i
        (.retry jobId attempt .enqueued))
  | retry {s : QueueInstance V} {i : ℕ} {jobId : String} {attempt : ℕ} {pc : RetryPc V}
      (hi : s.tasks[i]? = some (.retry jobId attempt pc)) (hpc : pc.pending = none) :
      Move s (s.setTask i (.retry jobId attempt .finished))
  | fire {s : QueueInstance V} {timer : RetryTimer} (ht : timer ∈ s.timers)
      (hG : G.fire s timer.jobId) : Move s (s.fireTimer cfg timer)
  | beginStop {s : QueueInstance V} (graceful : Bool) :
      Move s (s.spawn (.stop (.gotStats graceful)))
  | stop {s : QueueInstance V} {i : ℕ} {pc : StopPc} (pc' : StopPc)
      (hi : s.tasks[i]? = some (.stop pc)) : Move s (s.setTask i (.stop pc'))
  | clearRetryTimers {s : QueueInstance V} : Move s s.clearRetryTimers
  | progress {s : QueueInstance V} (jobId : String) (percent : ℕ) (message : Option String) :
      Move s { s with storage := s.storage.updateJob jobId (.reported percent message) }

/-- A chain of moves. -/
abbrev Moves : QueueInstance V → QueueInstance V → Prop := Relation.ReflTransGen (Move cfg G)

variable {cfg G} {s s' : QueueInstance V}

/-! ### Steps are chains of moves -/

/-- The guard that demands nothing. -/
lemma allowed_free (a : Action V) : Allowed cfg {} s a := by
  cases a with
  | start env => exact fun _ _ _ => trivial
  | resume i env =>
      rw [Allowed]
      split
      · trivial
      · trivial
      · exact fun _ _ => trivial
      · exact fun _ _ => trivial
      · trivial
  | fire t => exact fun _ _ => trivial
  | _ => trivial

lemma getElem?_setTask {i : ℕ} {t t' : Task V} (hi : s.tasks[i]? = some t) :
    (s.setTask i t').tasks[i]? = some t' := by
  simp [setTask, (List.getElem?_eq_some_iff.mp hi).1]

/-- A new task does not touch those that exist already. -/
lemma getElem?_spawn {i : ℕ} {t : Task V} (t' : Task V) (hi : s.tasks[i]? = some t) :
    (s.spawn t').tasks[i]? = some t := by
  rw [spawn, List.getElem?_append_left (List.getElem?_eq_some_iff.mp hi).1]
  exact hi

lemma getElem?_launch {i : ℕ} {t : Task V} (job : Job V) (hi : s.tasks[i]? = some t) :
    (s.launch cfg job).tasks[i]? = some t :=
  getElem?_spawn (s := { s with runningJobs := OrdSet.add s.runningJobs job.id }) _ hi

/-- The case split of the head of the loop: it stays without a job and changes nothing, or
it takes one item out of the queue. -/
lemma loopHead_cases {pick : ℕ} {pc : LoopPc V} (h : s.loopHead cfg pick = some (pc, s')) :
    (pc.held = none ∧ s' = s) ∨
      ∃ item storage, (s.storage.queueOf cfg.name)[pick]? = some item ∧
        storage.jobs = s.storage.jobs ∧ storage.jobToQueue = s.storage.jobToQueue ∧
        storage.queueOf cfg.name = (s.storage.queueOf cfg.name).eraseIdx pick ∧
        item.data.id ∈ takes cfg s pick ∧
        pc = .dequeued (some item.data) ∧ s' = { s with storage := storage } := by
  rw [loopHead] at h
  rw [takes]
  split at h
  next =>
      cases h
      exact Or.inl ⟨rfl, rfl⟩
  next hdown =>
      split at h
      next =>
          cases h
          exact Or.inl ⟨rfl, rfl⟩
      next hfull =>
          split at h
          next job storage hd =>
              cases h
              rcases s.storage.dequeue_cases hd with
                ⟨rfl, -, rfl⟩ | ⟨item, hitem, -, rfl, hjobs, howner, hq⟩
              · exact Or.inl ⟨rfl, rfl⟩
              · exact Or.inr ⟨item, storage, hitem, hjobs, howner, hq,
                  by rw [if_neg hdown, if_neg hfull, hitem]; rfl, rfl, rfl⟩
          next => cases h

/-- The head of the loop does not look at the tasks. -/
lemma loopHead_tasks {pick : ℕ} {pc : LoopPc V} (tasks : List (Task V))
    (h : s.loopHead cfg pick = some (pc, s')) :
    { s with tasks := tasks }.loopHead cfg pick = some (pc, { s' with tasks := tasks }) := by
  rw [loopHead] at h ⊢
  split at h
  next hdown =>
      cases h
      rw [if_pos hdown]
  next hdown =>
      rw [if_neg hdown]
      split at h
      next hfull =>
          cases h
          rw [if_pos hfull]
      next hfull =>
          rw [if_neg hfull]
          split at h
          next hd =>
              cases h
              simp only [hd]
          next => cases h

/-- A turn of a loop that holds no job leaves it idle, or takes one item. -/
lemma loopAround_moves {i pick : ℕ} {pc : LoopPc V} (hi : s.tasks[i]? = some (.loop pc))
    (hpc : pc.held = none) (hG : ∀ id ∈ takes cfg s pick, G.take s.storage id)
    (h : s.loopAround cfg i pick = some s') : Moves cfg G s s' := by
  rw [loopAround] at h
  split at h
  next pc' s₁ hh =>
      obtain rfl := Option.some.inj h
      rcases loopHead_cases hh with
        ⟨hpc', rfl⟩ | ⟨item, storage, hitem, hjobs, howner, hq, hid, rfl, rfl⟩
      · exact .single (.idle hi hpc hpc')
      · exact .single (.take hi hpc hitem hjobs howner hq (hG _ hid))
  next => cases h

/-- Changing the tasks elsewhere first makes no difference to a turn of the loop `i`. -/
lemma loopAround_tasks {i pick : ℕ} (tasks : List (Task V))
    (htasks : ∀ t, tasks.set i t = s.tasks.set i t) (h : s.loopAround cfg i pick = some s') :
    { s with tasks := tasks }.loopAround cfg i pick = some s' := by
  rw [loopAround] at h ⊢
  split at h
  next pc s₁ hh =>
      rw [loopHead_tasks tasks hh]
      obtain rfl := Option.some.inj h
      have hs₁ : s₁.tasks = s.tasks := by
        rcases loopHead_cases hh with ⟨-, rfl⟩ | ⟨_, _, -, -, -, -, -, -, rfl⟩ <;> rfl
      simp only [setTask, hs₁, htasks]
  next => cases h

lemma resumeLoop_moves {i : ℕ} {env : Env} {pc : LoopPc V} (hi : s.tasks[i]? = some (.loop pc))
    (hG : Allowed cfg G s (.resume i env)) (h : s.resumeLoop cfg i env pc = some s') :
    Moves cfg G s s' := by
  rw [Allowed, hi] at hG
  cases pc with
  | stopped => cases h
  | delaying => exact loopAround_moves hi rfl hG h
  | dequeued job =>
      cases job with
      | none =>
          obtain rfl := Option.some.inj h
          exact .single (.idle hi rfl rfl)
      | some job =>
          have hdelaying : ((s.launch cfg job).setTask i (.loop .delaying)).tasks[i]? =
              some (.loop .delaying) := getElem?_setTask (getElem?_launch job hi)
          refine .head (.launch hi)
            (loopAround_moves hdelaying rfl hG (loopAround_tasks _ (fun t => ?_) h))
          rw [List.set_set]

lemma start_moves {env : Env} (hG : Allowed cfg G s (.start env)) (h : s.start cfg env = some s') :
    Moves cfg G s s' := by
  rw [start] at h
  split at h
  · obtain rfl := Option.some.inj h
    exact .refl
  next hrun =>
      have hspawned : ({ s with isRunning := true, isShuttingDown := false }.spawn
          (.loop .delaying)).tasks[s.tasks.length]? = some (.loop .delaying) := by simp [spawn]
      refine .head (.flags true false) (.head .spawnLoop
        (loopAround_moves hspawned rfl (hG (by simpa using hrun)) ?_))
      split at h
      next pc s₁ hh =>
          obtain rfl := Option.some.inj h
          have hs₁ : s₁.tasks = s.tasks := by
            rcases loopHead_cases hh with ⟨-, rfl⟩ | ⟨_, _, -, -, -, -, -, -, rfl⟩ <;> rfl
          rw [loopAround, spawn, loopHead_tasks _ hh]
          simp [setTask, spawn, hs₁]
      next => cases h

lemma resumeCancel_moves {i : ℕ} {env : Env} {jobId : String} {reason : Option String}
    {pc : CancelPc V} (hi : s.tasks[i]? = some (.cancel jobId reason pc))
    (hG : Allowed cfg G s (.resume i env))
    (h : s.resumeCancel cfg i env jobId reason pc = some s') : Moves cfg G s s' := by
  rw [Allowed, hi] at hG
  cases pc with
  | got fetched =>
      cases fetched with
      | none =>
          obtain rfl := Option.some.inj h
          exact .single (.cancel hi rfl (by simp))
      | some job =>
          obtain rfl := Option.some.inj h
          exact .single (.writeCancelled env.now hi hG)
  | updated job =>
      obtain rfl := Option.some.inj h
      exact .single (.cancel hi rfl (by simp))
  | regot job updatedJob =>
      obtain rfl := Option.some.inj h
      cases updatedJob with
      | none => exact .single (.cancel hi rfl (by simp))
      | some _ => cases env.throws <;> exact .single (.cancel hi rfl (by simp))
  | published job =>
      obtain rfl := Option.some.inj h
      exact .single (.cancel hi rfl (by simp))
  | returnedTrue job => cases h
  | returnedFalse => cases h
  | threw job => cases h

lemma resumeRetry_moves {i : ℕ} {env : Env} {jobId : String} {attempt : ℕ} {pc : RetryPc V}
    (hi : s.tasks[i]? = some (.retry jobId attempt pc))
    (h : s.resumeRetry cfg i env jobId attempt pc = some s') : Moves cfg G s s' := by
  cases pc with
  | got jobToRetry =>
      cases jobToRetry with
      | none =>
          obtain rfl := Option.some.inj h
          exact .single (.retry hi rfl)
      | some job =>
          simp only [resumeRetry] at h
          split at h
          next hst =>
              obtain rfl := Option.some.inj h
              exact .single (.reenqueue env.now hi hst)
          next hst =>
              obtain rfl := Option.some.inj h
              exact .single (.retry hi (by simp [RetryPc.pending, hst]))
  | enqueued =>
      obtain rfl := Option.some.inj h
      exact .single (.retry hi rfl)
  | finished => cases h

lemma beginCancels_moves (jobIds : List String) :
    Moves cfg G s (beginCancels cfg jobIds s) := by
  induction jobIds generalizing s with
  | nil => exact .refl
  | cons jobId jobIds ih => exact .head (.beginCancel jobId _) ih

/-- Calling `cancelJob` does not touch the tasks that exist already. -/
lemma getElem?_beginCancels {i : ℕ} {t : Task V} (jobIds : List String)
    (hi : s.tasks[i]? = some t) : (beginCancels cfg jobIds s).tasks[i]? = some t := by
  induction jobIds generalizing s with
  | nil => exact hi
  | cons jobId jobIds ih => exact ih (getElem?_spawn _ hi)

lemma resumeStop_moves {i : ℕ} {env : Env} {pc : StopPc} (hi : s.tasks[i]? = some (.stop pc))
    (h : s.resumeStop cfg i env pc = some s') : Moves cfg G s s' := by
  cases pc with
  | gotStats graceful =>
      cases graceful with
      | true =>
          obtain rfl := Option.some.inj h
          exact .head .clearRetryTimers (.single (.stop _ hi))
      | false =>
          simp only [resumeStop] at h
          split at h
          next =>
              obtain rfl := Option.some.inj h
              exact .head .clearRetryTimers (.single (.stop _ hi))
          next =>
              obtain rfl := Option.some.inj h
              exact .head .clearRetryTimers
                ((beginCancels_moves _).tail (.stop _ (getElem?_beginCancels _ hi)))
  | waiting =>
      obtain rfl := Option.some.inj h
      exact .single (.stop _ hi)
  | cancelling cancels =>
      simp only [resumeStop] at h
      split at h
      next =>
          obtain rfl := Option.some.inj h
          exact .single (.stop _ hi)
      next => cases h
  | delaying =>
      obtain rfl := Option.some.inj h
      exact .single (.stop _ hi)
  | stopped => cases h

lemma settleRace_moves {i : ℕ} {outcome : Settlement V} (h : s.settleRace i outcome = some s') :
    Moves cfg G s s' := by
  rw [settleRace] at h
  split at h
  next hi =>
      obtain rfl := Option.some.inj h
      exact .single (.settle outcome hi)
  next => cases h

lemma resume_moves {i : ℕ} {env : Env} (hG : Allowed cfg G s (.resume i env))
    (h : s.resume cfg i env = some s') : Moves cfg G s s' := by
  rw [resume] at h
  split at h
  next hi => exact resumeLoop_moves hi hG h
  next jobId pc hi =>
      split at h
      next eff heff =>
          obtain rfl := Option.some.inj h
          rw [Allowed, hi] at hG
          exact .single (.exec hi heff hG)
      next => cases h
  next hi => exact resumeCancel_moves hi hG h
  next hi => exact resumeRetry_moves hi h
  next hi => exact resumeStop_moves hi h
  next => cases h

/-- **Every step is a chain of moves.** -/
theorem step_moves {a : Action V} (hG : Allowed cfg G s a) (h : s.step cfg a = some s') :
    Moves cfg G s s' := by
  cases a with
  | add id jobType data options now =>
      simp only [step] at h
      split at h
      next => cases h
      next hid =>
          obtain rfl := Option.some.inj h
          have hfresh : s.storage.jobs.has id = false := by simpa using hid
          exact .single (.add _ now ((OrdMap.has_eq_false_iff _).mp hfresh) rfl rfl)
  | start env => exact start_moves hG h
  | stop graceful =>
      simp only [step, stop] at h
      obtain rfl := Option.some.inj h
      split
      · exact .refl
      · exact .head (.flags false true) (.single (.beginStop graceful))
  | cancelJob jobId reason =>
      obtain rfl := Option.some.inj h
      exact .single (.beginCancel jobId reason)
  | resume i env => exact resume_moves hG h
  | settle i outcome => exact settleRace_moves h
  | timeout i => exact settleRace_moves h
  | fire t =>
      simp only [step] at h
      split at h
      next timer ht =>
          obtain rfl := Option.some.inj h
          exact .single (.fire (List.mem_of_find?_eq_some ht) (hG timer ht))
      next => cases h
  | progress i percent message =>
      simp only [step] at h
      split at h
      next =>
          obtain rfl := Option.some.inj h
          exact .single (.progress _ percent message)
      next => cases h

/-- **A run of allowed actions is a chain of guarded moves.** -/
theorem run_moves {as : List (Action V)} (hG : Meets (step cfg) (Allowed cfg G) s as)
    (h : exec (step cfg) s as = some s') : Moves cfg G s s' :=
  meets_invariant (I := Moves cfg G s) (fun _ _ _ hs hP hstep => hs.trans (step_moves hP hstep))
    .refl hG h

/-- A run is a chain of moves. -/
lemma moves_of_exec {as : List (Action V)} (h : exec (step cfg) s as = some s') :
    Moves cfg {} s s' :=
  run_moves (meets_of_forall_initial fun _ a _ _ _ _ => allowed_free a) h

/-! ### Reads -/

variable (cfg) in
/-- Stored jobs carry their own identifier and belong to this queue, and a retry callback
holds a copy of its own job. -/
structure Owned (s : QueueInstance V) : Prop where
  id_eq : ∀ {id job}, s.storage.jobs.get id = some job → job.id = id
  owner : ∀ {id job}, s.storage.jobs.get id = some job → s.storage.jobToQueue.get id = some cfg.name
  retry : ∀ {jobId attempt job}, Task.retry jobId attempt (.got (some job)) ∈ s.tasks →
    job.id = jobId

/-- In an owned state a read answers with the stored record. -/
lemma Owned.read_eq (h : Owned cfg s) (id : String) : s.read cfg id = s.storage.jobs.get id := by
  rw [read, InMemoryStorage.getJob]
  split
  next job hj => rw [hj, if_pos (h.owner hj)]
  next hj => rw [hj]

/-- A read of a job answers with its stored status. -/
lemma Owned.status_read (h : Owned cfg s) (id : String) :
    (s.read cfg id).map Job.status = s.storage.statusOf id := by
  rw [h.read_eq, InMemoryStorage.statusOf]

lemma Owned.init : Owned cfg ({} : QueueInstance V) where
  id_eq h := by simp at h
  owner h := by simp at h
  retry h := by simp at h

/-- An update that does not touch the identifier keeps the identifiers and the owners. -/
lemma Owned.updateJob (h : Owned cfg s) (jobId : String) {patch : JobPatch V}
    (hid : patch.id = none) :
    Owned cfg { s with storage := s.storage.updateJob jobId patch } where
  id_eq {id job} hj := by
    rw [InMemoryStorage.get_updateJob] at hj
    split at hj
    · obtain ⟨job', hj', rfl⟩ := Option.map_eq_some_iff.mp hj
      rw [JobPatch.apply, hid]
      exact (h.id_eq hj' : job'.id = id)
    · exact h.id_eq hj
  owner {id job} hj := by
    rw [InMemoryStorage.updateJob_jobToQueue]
    rw [InMemoryStorage.get_updateJob] at hj
    split at hj
    · obtain ⟨job', hj', rfl⟩ := Option.map_eq_some_iff.mp hj
      exact h.owner hj'
    · exact h.owner hj
  retry := h.retry

/-- A job enqueued in this queue is owned by it. -/
lemma Owned.enqueue (h : Owned cfg s) (job : Job V) (now : ℕ) :
    Owned cfg { s with storage := s.storage.enqueue cfg.name job now } where
  id_eq {id job'} hj := by
    rw [InMemoryStorage.enqueue_jobs, OrdMap.get_set] at hj
    split at hj
    next he =>
        cases hj
        exact he
    next => exact h.id_eq hj
  owner {id job'} hj := by
    rw [InMemoryStorage.enqueue_jobs, OrdMap.get_set] at hj
    rw [InMemoryStorage.enqueue_jobToQueue, OrdMap.get_set]
    split at hj
    next he => rw [if_pos he]
    next he =>
        rw [if_neg he]
        exact h.owner hj
  retry := h.retry

/-- Ownership only looks at the job map, at its owners and at the retry callbacks. -/
lemma Owned.congr (h : Owned cfg s) (hjobs : s'.storage.jobs = s.storage.jobs)
    (howner : s'.storage.jobToQueue = s.storage.jobToQueue)
    (htasks : ∀ {jobId attempt job}, Task.retry jobId attempt (.got (some job)) ∈ s'.tasks →
      Task.retry jobId attempt (.got (some job)) ∈ s.tasks ∨ job.id = jobId) : Owned cfg s' where
  id_eq hj := h.id_eq (by rwa [hjobs] at hj)
  owner hj := by
    rw [howner]
    exact h.owner (by rwa [hjobs] at hj)
  retry ht := by
    rcases htasks ht with ht' | ht'
    · exact h.retry ht'
    · exact ht'

/-- Replacing a task by one that is no waiting retry callback. -/
lemma Owned.setTask (h : Owned cfg s) (i : ℕ) {t : Task V}
    (ht : ∀ jobId attempt job, t ≠ .retry jobId attempt (.got (some job))) :
    Owned cfg (s.setTask i t) :=
  h.congr rfl rfl fun hm => Or.inl <| by
    rcases List.mem_or_eq_of_mem_set hm with hm | hm
    · exact hm
    · exact absurd hm.symm (ht _ _ _)

lemma Owned.spawn (h : Owned cfg s) {t : Task V}
    (ht : ∀ jobId attempt job, t = .retry jobId attempt (.got (some job)) → job.id = jobId) :
    Owned cfg (s.spawn t) :=
  h.congr rfl rfl fun hm => by
    rcases List.mem_append.mp hm with hm | hm
    · exact Or.inl hm
    · exact Or.inr (ht _ _ _ (List.mem_singleton.mp hm).symm)

/-- No piece of `executeJob` touches the identifier of its job. -/
lemma execPiece_patch_id {read : Option (Job V)} {env : Env} {pc : ExecPc V} {eff : Effect V}
    (h : execPiece cfg read env pc = some eff) {patch : JobPatch V} (hp : eff.patch = some patch) :
    patch.id = none := by
  cases pc with
  | gotJob job =>
      cases job with
      | none =>
          cases h
          cases hp
      | some job =>
          cases h
          rw [dispatchPiece] at hp
          split at hp
          · cases hp
            rfl
          · split at hp <;> cases hp <;> rfl
  | raceSettled job reg outcome =>
      cases h
      cases outcome with
      | rejected err => cases hp
      | resolved result =>
          rw [outcomePiece] at hp
          split at hp <;> cases hp
          rfl
  | completionGot job result currentJob =>
      cases h
      rw [completionDecision] at hp
      split at hp <;> cases hp
      rfl
  | failureGot job err currentJob =>
      cases h
      rw [failureDecision] at hp
      split at hp
      · cases hp
      · cases hk : failureKind err.message with
        | cancelled =>
            rw [hk] at hp
            cases hp
            rfl
        | timeout | execution =>
            rw [hk] at hp
            dsimp only at hp
            split at hp <;> cases hp <;> rfl
  | retryGot job attempt updatedJob =>
      simp only [execPiece] at h
      split at h <;> cases h <;> cases hp
  | noHandlerGot job failedJob | invalidGot job inTry failedJob | completedGot job failedJob
  | cancelledGot job failedJob | failedGot job failedJob =>
      cases failedJob <;> cases ht : env.throws <;> simp only [execPiece, ht] at h <;> cases h <;>
        cases hp
  | gotRunning job reg input runningJob =>
      cases runningJob <;> cases ht : env.throws <;> simp only [execPiece, ht] at h <;> cases h <;>
        cases hp
  | handlerRunning job reg => cases h
  | settled => cases h
  | _ =>
      cases h
      cases hp

lemma Owned.applyEffect (h : Owned cfg s) (i : ℕ) (jobId : String) {eff : Effect V}
    (hid : ∀ patch, eff.patch = some patch → patch.id = none) :
    Owned cfg (s.applyEffect i jobId eff) := by
  have hset : Owned cfg (s.setTask i (.exec jobId eff.next)) := h.setTask i (by simp)
  cases hp : eff.patch with
  | none =>
      refine Owned.congr hset ?_ ?_ Or.inl <;> simp only [QueueInstance.applyEffect, hp] <;> rfl
  | some patch =>
      refine Owned.congr (hset.updateJob jobId (hid patch hp)) ?_ ?_ Or.inl <;>
        simp only [QueueInstance.applyEffect, hp] <;> rfl

/-- The stored statuses after a piece of `executeJob`. -/
lemma statusOf_applyEffect (s : QueueInstance V) (i : ℕ) (jobId id : String) (eff : Effect V) :
    (s.applyEffect i jobId eff).storage.statusOf id =
      if jobId = id then
        (s.storage.statusOf id).map fun status => (eff.patch.bind JobPatch.status).getD status
      else
        s.storage.statusOf id := by
  cases hp : eff.patch with
  | none => simp [QueueInstance.applyEffect, hp]
  | some patch => simp [QueueInstance.applyEffect, hp, InMemoryStorage.statusOf_updateJob]

/-- A task that is not replaced stays. -/
lemma mem_setTask_of_ne {i : ℕ} {t u v : Task V} (hi : s.tasks[i]? = some u) (ht : t ∈ s.tasks)
    (hne : t ≠ u) : t ∈ (s.setTask i v).tasks := by
  obtain ⟨j, hj⟩ := List.mem_iff_getElem?.mp ht
  refine List.mem_iff_getElem?.mpr ⟨j, ?_⟩
  rw [QueueInstance.setTask, List.getElem?_set_ne, hj]
  rintro rfl
  exact hne (Option.some.inj (hj.symm.trans hi))

/-- **What an abort does**: it marks a controller, and it moves at most one task on, from a
running handler to a cancelled one. -/
lemma abort_cases (s : QueueInstance V) (jobId : String) :
    ∃ controllers, s.abort jobId = { s with abortControllers := controllers } ∨
      ∃ i id job reg, s.tasks[i]? = some (.exec id (.handlerRunning job reg)) ∧
        s.abort jobId = { s with abortControllers := controllers }.setTask i
          (.exec id (.raceSettled job reg (.rejected { message := "Job cancelled" }))) := by
  rw [abort]
  split
  · exact ⟨s.abortControllers, Or.inl rfl⟩
  next controller hc =>
      split
      · exact ⟨s.abortControllers, Or.inl rfl⟩
      · refine ⟨s.abortControllers.set jobId { controller with aborted := true }, ?_⟩
        split
        next id job reg ht => exact Or.inr ⟨controller.task, id, job, reg, ht, rfl⟩
        next => exact Or.inl rfl

@[simp] lemma abort_storage (s : QueueInstance V) (jobId : String) :
    (s.abort jobId).storage = s.storage := by
  obtain ⟨_, he | ⟨_, _, _, _, -, he⟩⟩ := abort_cases s jobId
  · rw [he]
  · rw [he, setTask]

@[simp] lemma abort_trace (s : QueueInstance V) (jobId : String) :
    (s.abort jobId).trace = s.trace := by
  obtain ⟨_, he | ⟨_, _, _, _, -, he⟩⟩ := abort_cases s jobId
  · rw [he]
  · rw [he, setTask]

@[simp] lemma abort_timers (s : QueueInstance V) (jobId : String) :
    (s.abort jobId).timers = s.timers := by
  obtain ⟨_, he | ⟨_, _, _, _, -, he⟩⟩ := abort_cases s jobId
  · rw [he]
  · rw [he, setTask]

@[simp] lemma abort_pendingRetryTimers (s : QueueInstance V) (jobId : String) :
    (s.abort jobId).pendingRetryTimers = s.pendingRetryTimers := by
  obtain ⟨_, he | ⟨_, _, _, _, -, he⟩⟩ := abort_cases s jobId
  · rw [he]
  · rw [he, setTask]

/-- The tasks after an abort. -/
lemma mem_abort_tasks {jobId : String} {t : Task V} (h : t ∈ (s.abort jobId).tasks) :
    t ∈ s.tasks ∨ ∃ id job reg, Task.exec id (.handlerRunning job reg) ∈ s.tasks ∧
      t = .exec id (.raceSettled job reg (.rejected { message := "Job cancelled" })) := by
  obtain ⟨_, he | ⟨i, id, job, reg, hi, he⟩⟩ := abort_cases s jobId
  · rw [he] at h
    exact Or.inl h
  · rw [he] at h
    rcases List.mem_or_eq_of_mem_set h with h | rfl
    · exact Or.inl h
    · exact Or.inr ⟨id, job, reg, List.mem_of_getElem? hi, rfl⟩

/-- An abort keeps the tasks that are no `executeJob` invocation in their places. -/
lemma getElem?_abort {jobId : String} {i : ℕ} {t : Task V} (hi : s.tasks[i]? = some t)
    (ht : ∀ id pc, t ≠ .exec id pc) : (s.abort jobId).tasks[i]? = some t := by
  obtain ⟨_, he | ⟨j, id, job, reg, hj, he⟩⟩ := abort_cases s jobId
  · rw [he]
    exact hi
  · have hne : j ≠ i := by
      rintro rfl
      exact ht id _ (Option.some.inj (hi.symm.trans hj))
    rw [he, setTask, List.getElem?_set_ne hne]
    exact hi

lemma mem_abort_of_mem {jobId : String} {t : Task V} (hm : t ∈ s.tasks)
    (ht : ∀ id pc, t ≠ .exec id pc) : t ∈ (s.abort jobId).tasks := by
  obtain ⟨i, hi⟩ := List.mem_iff_getElem?.mp hm
  exact List.mem_of_getElem? (getElem?_abort hi ht)

lemma Owned.abort (h : Owned cfg s) (jobId : String) : Owned cfg (s.abort jobId) :=
  h.congr (by rw [abort_storage]) (by rw [abort_storage]) fun hm => Or.inl <| by
    rcases mem_abort_tasks hm with hm | ⟨_, _, _, -, he⟩
    · exact hm
    · cases he

/-- One move keeps ownership. -/
lemma Owned.move (h : Owned cfg s) (hm : Move cfg G s s') : Owned cfg s' := by
  cases hm with
  | add job now hfresh hst hretries => exact h.enqueue job now
  | exec hi heff hG => exact h.applyEffect _ _ fun patch => execPiece_patch_id heff
  | settle outcome hi => exact h.setTask _ (by simp)
  | flags running down => exact h.congr rfl rfl Or.inl
  | spawnLoop => exact h.spawn (by simp)
  | idle hi hpc hpc' => exact h.setTask _ (by simp)
  | @take _ _ _ _ storage hi hpc hitem hjobs howner hq hG =>
      have hstored : Owned cfg { s with storage := storage } := h.congr hjobs howner Or.inl
      exact hstored.setTask _ (by simp)
  | @launch i job hi =>
      have hrun : Owned cfg { s with runningJobs := OrdSet.add s.runningJobs job.id } :=
        h.congr rfl rfl Or.inl
      exact Owned.setTask (s := s.launch cfg job) (hrun.spawn (by simp)) i (by simp)
  | beginCancel jobId reason => exact h.spawn (by simp)
  | writeCancelled now hi hG => exact ((h.abort _).updateJob _ rfl).setTask _ (by simp)
  | cancel hi hpc hgot => exact h.setTask _ (by simp)
  | reenqueue now hi hst => exact (h.enqueue _ now).setTask _ (by simp)
  | retry hi hpc => exact h.setTask _ (by simp)
  | @fire timer ht hG =>
      rw [fireTimer]
      split
      · exact h.congr rfl rfl Or.inl
      · have hd : Owned cfg (s.disarm timer) := h.congr rfl rfl Or.inl
        refine hd.spawn fun jobId attempt job he => ?_
        -- the callback has just read its own job
        obtain ⟨rfl, -, hr⟩ := Task.retry.inj he
        have hr' : s.read cfg timer.jobId = some job := RetryPc.got.inj hr
        exact h.id_eq (by rwa [h.read_eq] at hr')
  | beginStop graceful => exact h.spawn (by simp)
  | stop pc' hi => exact h.setTask _ (by simp)
  | clearRetryTimers => exact h.congr rfl rfl Or.inl
  | progress jobId percent message => exact h.updateJob _ rfl

end Moves

end QueueInstance

end Blaize.Queue
