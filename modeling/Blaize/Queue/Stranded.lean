import Blaize.Queue.Moves

/-!
Is a queued job ever stranded?

A job that is retried lives in the job map, in the timer map and in the priority queue in
turn, and `stop` cuts into this by clearing the timers.  As long as no listener throws, a
job that is stored as queued is always on somebody's list, or `stop` took it off:

* `ExecPc.Unsettled`: an `executeJob` invocation that has not yet decided about its job;
* `Task.Carries`: the tasks that will bring a job on;
* `CutShort`: the last thing that happened to the job is that `stop` cut its retry;
* `queued_carried`: **a queued job has an entry, a live retry timer or a task that carries
  it, unless its retry was cut short**;
* `not_queued_carried`: after a retry was cut short, a queued job is on no list.
-/

namespace Blaize.Queue

open Machine

variable {V : Type}

/-- An `executeJob` invocation that is still going to write a status, to start the handler
or to schedule a retry. -/
def ExecPc.Unsettled : ExecPc V → Prop
  | .gotJob job => job.isSome = true
  | .markedRunning _ _ _ => True
  | .gotRunning _ _ _ _ => True
  | .publishedStarted _ _ _ => True
  | .handlerRunning _ _ => True
  | .raceSettled _ _ _ => True
  | .completionGot _ _ currentJob => currentJob.map Job.status ≠ some .cancelled
  | .caught _ _ => True
  | .failureGot _ _ currentJob => currentJob.map Job.status ≠ some .cancelled
  | .retryUpdated _ _ => True
  | .retryGot _ _ _ => True
  | _ => False

/-- A task that brings the job `id` on: a loop that holds it, an unsettled `executeJob`
invocation for it, or a retry callback that is about to enqueue it. -/
def Task.Carries (id : String) : Task V → Prop
  | .loop pc => ∃ job ∈ pc.held, job.id = id
  | .exec jobId pc => jobId = id ∧ pc.Unsettled
  | .retry jobId _ pc => jobId = id ∧ pc.pending.isSome = true
  | .cancel _ _ _ => False
  | .stop _ => False

def Event.jobId : Event V → String
  | .handlerStarted _ jobId _ => jobId
  | .retryTimerCleared jobId => jobId
  | .retrySkipped jobId => jobId

/-- The two events with which a stopping queue drops a retry. -/
def Event.isCut : Event V → Bool
  | .handlerStarted _ _ _ => false
  | .retryTimerCleared _ => true
  | .retrySkipped _ => true

/-- No listener throws. -/
def quietGuard : Guard V where
  exec _ _ env := env.throws = none

instance (s : QueueInstance V) (jobId : String) (job : Job V) :
    Decidable (quietGuard.cancel s jobId job) := .isTrue trivial

instance (storage : InMemoryStorage V) (id : String) : Decidable (quietGuard.take storage id) :=
  .isTrue trivial

instance (s : QueueInstance V) (jobId : String) : Decidable (quietGuard.fire s jobId) :=
  .isTrue trivial

instance (jobId : String) (pc : ExecPc V) (env : Env) : Decidable (quietGuard.exec jobId pc env) :=
  inferInstanceAs (Decidable (env.throws = none))

/-- **A piece of `executeJob` that leaves its job queued** leaves the invocation unsettled,
if it was, or hands over to a retry timer; the invocation that started the handler or wrote
the status is unsettled itself. -/
lemma execPiece_unsettled {cfg : QueueConfig V} {read : Option (Job V)} {env : Env}
    {pc : ExecPc V} {eff : Effect V} (h : execPiece cfg read env pc = some eff)
    (hthrows : env.throws = none)
    (hpatch : ∀ patch, eff.patch = some patch → patch.status.getD .queued = .queued) :
    (read.map Job.status ≠ some .cancelled → pc.Unsettled →
        eff.next.Unsettled ∨ eff.retryTimer.isSome = true) ∧
      (eff.patch.isSome = true ∨ eff.started.isSome = true → eff.next.Unsettled) := by
  cases pc with
  | gotJob job =>
      cases h' : job with
      | none =>
          subst h'
          cases h
          exact ⟨fun _ hu => absurd hu (by simp [ExecPc.Unsettled]), by simp⟩
      | some job =>
          subst h'
          cases h
          rw [dispatchPiece] at hpatch ⊢
          split
          next hreg =>
              simp only [hreg] at hpatch
              simpa [JobPatch.failed] using hpatch _ rfl
          next reg hreg =>
              simp only [hreg] at hpatch
              split
              next issues hin =>
                  simp only [hin] at hpatch
                  simpa [JobPatch.failed] using hpatch _ rfl
              next => exact ⟨fun _ _ => Or.inl trivial, fun _ => trivial⟩
  | raceSettled job reg outcome =>
      cases h
      cases outcome with
      | rejected err => exact ⟨fun hread _ => Or.inl hread, by simp [outcomePiece, failurePiece]⟩
      | resolved result =>
          rw [outcomePiece] at hpatch ⊢
          split
          next issues ho =>
              simp only [ho] at hpatch
              simpa [JobPatch.failed] using hpatch _ rfl
          next => exact ⟨fun hread _ => Or.inl hread, by simp⟩
  | completionGot job result currentJob =>
      cases h
      rw [completionDecision] at hpatch ⊢
      split
      next hc => exact ⟨fun _ hu => absurd hc hu, by simp⟩
      next hc =>
          rw [if_neg hc] at hpatch
          simpa [JobPatch.completed] using hpatch _ rfl
  | failureGot job err currentJob =>
      cases h
      rw [failureDecision] at hpatch ⊢
      split
      next hc => exact ⟨fun _ hu => absurd hc hu, by simp⟩
      next hc =>
          simp only [if_neg hc] at hpatch
          cases hk : failureKind err.message with
          | cancelled =>
              simp only [hk] at hpatch
              simpa [JobPatch.cancelled] using hpatch _ rfl
          | timeout | execution =>
              simp only [hk] at hpatch ⊢
              split
              next => exact ⟨fun _ _ => Or.inl trivial, fun _ => trivial⟩
              next hr =>
                  simp only [if_neg hr] at hpatch
                  simpa [JobPatch.failed] using hpatch _ rfl
  | gotRunning job reg input runningJob =>
      cases runningJob <;> simp only [execPiece, hthrows] at h <;> cases h
      · exact ⟨fun _ _ => Or.inl trivial, fun _ => trivial⟩
      · exact ⟨fun _ _ => Or.inl trivial, by simp⟩
  | retryGot job attempt updatedJob =>
      simp only [execPiece, hthrows, Option.isSome_none, Bool.and_false, if_neg, Bool.false_eq_true,
        not_false_eq_true] at h
      cases h
      exact ⟨fun _ _ => Or.inr rfl, by simp⟩
  | markedRunning job reg input | publishedStarted job reg input | retryUpdated job attempt =>
      cases h
      exact ⟨fun _ _ => Or.inl trivial, by simp [ExecPc.Unsettled]⟩
  | caught job err =>
      cases h
      exact ⟨fun hread _ => Or.inl hread, by simp [failurePiece]⟩
  | handlerRunning job reg => cases h
  | settled => cases h
  | noHandlerGot job failedJob | invalidGot job inTry failedJob | completedGot job failedJob
  | cancelledGot job failedJob | failedGot job failedJob =>
      cases failedJob <;> simp only [execPiece, hthrows] at h <;> cases h <;>
        exact ⟨fun _ hu => hu.elim, by simp⟩
  | _ =>
      cases h
      exact ⟨fun _ hu => hu.elim, by simp⟩

namespace QueueInstance

/-! ### The invariant of queued jobs -/

/-- The last event of the job is that `stop` dropped its retry. -/
def CutShort (s : QueueInstance V) (id : String) : Prop :=
  ∃ event, s.trace.find? (·.jobId = id) = some event ∧ event.isCut = true

/-- Somebody is going to bring the job on, or its retry was cut short. -/
def Carried (cfg : QueueConfig V) (s : QueueInstance V) (id : String) : Prop :=
  (∃ item ∈ s.storage.queueOf cfg.name, item.data.id = id) ∨
    (∃ task ∈ s.tasks, task.Carries id) ∨
    s.pendingRetryTimers.has id = true ∨ s.CutShort id

/-- Every queued job is carried, and a timer reference leads to a live timer of its job. -/
structure CarryInv (cfg : QueueConfig V) (s : QueueInstance V) : Prop where
  carried : ∀ {id}, s.storage.statusOf id = some .queued → s.Carried cfg id
  timer : ∀ {id t}, s.pendingRetryTimers.get id = some t →
    ∃ timer ∈ s.timers, timer.jobId = id ∧ timer.id = t

variable {cfg : QueueConfig V} {s s' : QueueInstance V}

lemma CarryInv.init : CarryInv cfg ({} : QueueInstance V) where
  carried h := by simp [InMemoryStorage.statusOf] at h
  timer h := by simp at h

lemma Carried.of_item {id : String} (item : PriorityQueueItem (Job V))
    (hitem : item ∈ s.storage.queueOf cfg.name) (hid : item.data.id = id) : s.Carried cfg id :=
  Or.inl ⟨item, hitem, hid⟩

lemma Carried.of_task {id : String} (task : Task V) (ht : task ∈ s.tasks)
    (hc : task.Carries id) : s.Carried cfg id :=
  Or.inr (Or.inl ⟨task, ht, hc⟩)

lemma Carried.of_timer {id : String} (h : s.pendingRetryTimers.has id = true) :
    s.Carried cfg id :=
  Or.inr (Or.inr (Or.inl h))

lemma Carried.of_cutShort {id : String} (h : s.CutShort id) : s.Carried cfg id :=
  Or.inr (Or.inr (Or.inr h))

/-- Each of the four ways in which a job is carried may be passed on to another. -/
lemma Carried.mono {id : String} (h : s.Carried cfg id)
    (hqueue : ∀ item ∈ s.storage.queueOf cfg.name, item.data.id = id → s'.Carried cfg id)
    (htasks : ∀ task ∈ s.tasks, task.Carries id → s'.Carried cfg id)
    (htimers : s.pendingRetryTimers.has id = true → s'.Carried cfg id)
    (htrace : s.CutShort id → s'.Carried cfg id) : s'.Carried cfg id := by
  rcases h with ⟨item, hitem, hid⟩ | ⟨task, ht, hc⟩ | ht | ht
  · exact hqueue item hitem hid
  · exact htasks task ht hc
  · exact htimers ht
  · exact htrace ht

/-- The job stays carried when only tasks that do not carry it go. -/
lemma Carried.keep {id : String} (h : s.Carried cfg id)
    (hqueue : s'.storage.queueOf cfg.name = s.storage.queueOf cfg.name)
    (htasks : ∀ task ∈ s.tasks, task.Carries id → ∃ task' ∈ s'.tasks, task'.Carries id)
    (htimers : s'.pendingRetryTimers = s.pendingRetryTimers) (htrace : s'.trace = s.trace) :
    s'.Carried cfg id :=
  h.mono (fun _ hitem hid => .of_item _ (hqueue ▸ hitem) hid)
    (fun task ht hc => Or.inr (Or.inl (htasks task ht hc)))
    (fun ht => .of_timer (htimers ▸ ht))
    (fun ⟨event, he, hcut⟩ => .of_cutShort ⟨event, by rw [htrace, he], hcut⟩)

/-- Replacing a task that does not carry the job, or by one that does. -/
lemma exists_carries_setTask {i : ℕ} {t u : Task V} {id : String} (hi : s.tasks[i]? = some t)
    (htu : t.Carries id → u.Carries id) {task : Task V} (htask : task ∈ s.tasks)
    (hc : task.Carries id) : ∃ task' ∈ (s.setTask i u).tasks, task'.Carries id := by
  by_cases he : task = t
  · subst he
    exact ⟨u, List.mem_of_getElem? (getElem?_setTask hi), htu hc⟩
  · exact ⟨task, mem_setTask_of_ne hi htask he, hc⟩

/-- A step that leaves the statuses, the queue, the timers and the trace alone and replaces
a task by one that carries as much. -/
lemma CarryInv.setTask (h : CarryInv cfg s) {i : ℕ} {t u : Task V} (hi : s.tasks[i]? = some t)
    (htu : ∀ id, t.Carries id → u.Carries id) : CarryInv cfg (s.setTask i u) where
  carried {id} hq := (h.carried hq).keep rfl
    (fun _ ht hc => exists_carries_setTask hi (htu id) ht hc) rfl rfl
  timer := h.timer

lemma CarryInv.spawn (h : CarryInv cfg s) (t : Task V) : CarryInv cfg (s.spawn t) where
  carried hq := (h.carried hq).keep rfl
    (fun task ht hc => ⟨task, List.mem_append_left _ ht, hc⟩) rfl rfl
  timer := h.timer

/-- An enqueued job is carried by its own entry, and the others are as before. -/
lemma CarryInv.enqueue (h : CarryInv cfg s) (job : Job V) (now : ℕ) :
    CarryInv cfg { s with storage := s.storage.enqueue cfg.name job now } where
  carried {id} hq := by
    by_cases he : job.id = id
    · exact .of_item ⟨job.priority, job, now⟩ (by simp) he
    · rw [InMemoryStorage.statusOf_enqueue, if_neg he] at hq
      refine (h.carried hq).mono (fun _ hitem hid => .of_item _ ?_ hid)
        (fun _ ht hc => .of_task _ ht hc) (fun ht => .of_timer ht)
        (fun hcut => .of_cutShort hcut)
      rw [InMemoryStorage.queueOf_enqueue]
      exact List.mem_append_left _ hitem
  timer := h.timer

/-- A piece of `executeJob` keeps the invariant. -/
lemma CarryInv.applyEffect (ho : Owned cfg s) (h : CarryInv cfg s) {i : ℕ} {jobId : String}
    {pc : ExecPc V} {env : Env} {eff : Effect V} (hi : s.tasks[i]? = some (.exec jobId pc))
    (heff : execPiece cfg (s.read cfg jobId) env pc = some eff) (hthrows : env.throws = none) :
    CarryInv cfg (s.applyEffect i jobId eff) where
  carried {id} hq := by
    have hqueue : (s.applyEffect i jobId eff).storage.queueOf cfg.name =
        s.storage.queueOf cfg.name := by
      cases hp : eff.patch <;> simp [QueueInstance.applyEffect, hp]
    have htimers : ∀ id, s.pendingRetryTimers.has id = true →
        (s.applyEffect i jobId eff).pendingRetryTimers.has id = true := by
      intro id hid
      obtain ⟨t, ht⟩ := s.pendingRetryTimers.has_iff.mp hid
      rw [OrdMap.has_iff]
      cases hr : eff.retryTimer with
      | none => exact ⟨t, by simp [QueueInstance.applyEffect, hr, ht]⟩
      | some attempt =>
          simp only [QueueInstance.applyEffect, hr, OrdMap.get_set]
          split
          · exact ⟨_, rfl⟩
          · exact ⟨t, ht⟩
    rw [statusOf_applyEffect] at hq
    by_cases he : jobId = id
    · subst he
      rw [if_pos rfl] at hq
      obtain ⟨status, hst, hget⟩ := Option.map_eq_some_iff.mp hq
      have hnext : eff.next.Unsettled → (s.applyEffect i jobId eff).Carried cfg jobId := fun hu =>
        .of_task _ (List.mem_of_getElem? (getElem?_setTask (s := s) hi)) ⟨rfl, hu⟩
      obtain ⟨hpc, hwrote⟩ := execPiece_unsettled heff hthrows fun patch hp => by
        rw [hp] at hget
        cases hs : patch.status with
        | none => rfl
        | some status' => simpa [hs] using hget
      cases hp : eff.patch with
      | some patch => exact hnext (hwrote (Or.inl (by rw [hp]; rfl)))
      | none =>
          rw [hp] at hget
          have hqueued : s.storage.statusOf jobId = some .queued := by
            rw [hst]
            exact congrArg some hget
          refine (h.carried hqueued).mono (fun _ hitem hid => .of_item _ (hqueue ▸ hitem) hid)
            (fun task ht hc => ?_) (fun ht => .of_timer (htimers jobId ht))
            (fun hevent => ?_)
          · -- the task that runs hands over to itself or to the timer it sets
            by_cases htask : task = .exec jobId pc
            · subst htask
              rcases hpc (by rw [ho.status_read, hqueued]; simp) hc.2 with hu | hr
              · exact hnext hu
              · obtain ⟨attempt, hr⟩ := Option.isSome_iff_exists.mp hr
                refine .of_timer (OrdMap.has_iff _ |>.mpr ⟨s.nextTimer, ?_⟩)
                simp [QueueInstance.applyEffect, hr]
            · exact .of_task _ (mem_setTask_of_ne (s := s) hi ht htask) hc
          · obtain ⟨event, hev, hcut⟩ := hevent
            cases hsd : eff.started with
            | none =>
                exact .of_cutShort
                  ⟨event, by simp only [QueueInstance.applyEffect, hsd, hev], hcut⟩
            | some data => exact hnext (hwrote (Or.inr (by rw [hsd]; rfl)))
    · rw [if_neg he] at hq
      refine (h.carried hq).mono (fun _ hitem hid => .of_item _ (hqueue ▸ hitem) hid)
        (fun task ht hc => Or.inr (Or.inl ?_)) (fun ht => .of_timer (htimers id ht))
        (fun hevent => ?_)
      · exact exists_carries_setTask (s := s) hi (fun hc => absurd hc.1 he) ht hc
      · obtain ⟨event, hev, hcut⟩ := hevent
        refine .of_cutShort ⟨event, ?_, hcut⟩
        cases hst : eff.started with
        | none => simp only [QueueInstance.applyEffect, hst, hev]
        | some data =>
            simp only [QueueInstance.applyEffect, hst]
            rw [List.find?_cons_of_neg (by simp [Event.jobId, he]), hev]
  timer {id t} ht := by
    cases hr : eff.retryTimer with
    | none =>
        simp only [QueueInstance.applyEffect, hr] at ht ⊢
        exact h.timer ht
    | some attempt =>
        simp only [QueueInstance.applyEffect, hr, OrdMap.get_set] at ht ⊢
        split at ht
        next he =>
            obtain rfl := Option.some.inj ht
            exact ⟨_, List.mem_cons_self, he, rfl⟩
        next =>
            obtain ⟨timer, hm, hid⟩ := h.timer ht
            exact ⟨timer, List.mem_cons_of_mem _ hm, hid⟩

/-- A timer that fires leaves its job to the callback, or is dropped by a stopping queue. -/
lemma CarryInv.fireTimer (ho : Owned cfg s) (h : CarryInv cfg s) (timer : RetryTimer) :
    CarryInv cfg (s.fireTimer cfg timer) := by
  have htimer : ∀ {id t}, (s.disarm timer).pendingRetryTimers.get id = some t →
      ∃ timer' ∈ (s.disarm timer).timers, timer'.jobId = id ∧ timer'.id = t := by
    intro id t ht
    simp only [disarm, OrdMap.get_delete] at ht ⊢
    split at ht
    next => cases ht
    next hne =>
        obtain ⟨timer', hm, hid, ht'⟩ := h.timer ht
        refine ⟨timer', (List.mem_erase_of_ne ?_).mpr hm, hid, ht'⟩
        rintro rfl
        exact hne hid
  -- the jobs of other timers do not notice
  have hother : ∀ {id}, s.storage.statusOf id = some .queued → timer.jobId ≠ id →
      (s.disarm timer).Carried cfg id := by
    intro id hq hne
    refine (h.carried hq).mono (fun _ hitem hid => .of_item _ hitem hid)
      (fun _ ht hc => .of_task _ ht hc) (fun ht => .of_timer ?_)
      (fun hcut => .of_cutShort hcut)
    rw [disarm, OrdMap.has, OrdMap.get_delete_ne _ hne]
    exact ht
  rw [QueueInstance.fireTimer]
  split
  next =>
      refine ⟨fun {id} hq => ?_, htimer⟩
      by_cases he : timer.jobId = id
      · refine .of_cutShort ⟨.retrySkipped timer.jobId, ?_, rfl⟩
        exact List.find?_cons_of_pos (by simp [Event.jobId, he])
      · refine (hother hq he).mono (fun _ hitem hid => .of_item _ hitem hid)
          (fun _ ht hc => .of_task _ ht hc) (fun ht => .of_timer ht) (fun hevent => ?_)
        obtain ⟨event, hev, hcut⟩ := hevent
        refine .of_cutShort ⟨event, ?_, hcut⟩
        rw [← hev]
        exact List.find?_cons_of_neg (by simp [Event.jobId, he])
  next =>
      refine ⟨fun {id} hq => ?_, htimer⟩
      by_cases he : timer.jobId = id
      · subst he
        refine .of_task _ (List.mem_append_right _ (List.mem_singleton.mpr rfl)) ⟨rfl, ?_⟩
        -- the callback has just seen that the job is queued
        have hr := ho.status_read timer.jobId
        rw [show s.storage.statusOf timer.jobId = some .queued from hq] at hr
        obtain ⟨job, hj, hst⟩ := Option.map_eq_some_iff.mp hr
        simp [hj, RetryPc.pending, hst]
      · exact (hother hq he).keep rfl
          (fun task ht hc => ⟨task, List.mem_append_left _ ht, hc⟩) rfl rfl

/-- What `stop` clears is cut short. -/
lemma CarryInv.clearRetryTimers (h : CarryInv cfg s) : CarryInv cfg s.clearRetryTimers where
  carried {id} hq := by
    have htrace : s.clearRetryTimers.trace =
      (s.pendingRetryTimers.keys.map Event.retryTimerCleared).reverse ++ s.trace := rfl
    -- either one of the cleared timers is the job's, or the trace of the job is as before
    cases hf : (s.pendingRetryTimers.keys.map Event.retryTimerCleared).reverse.find?
        (fun event : Event V => event.jobId = id) with
    | some event =>
        refine .of_cutShort ⟨event, ?_, ?_⟩
        · rw [htrace, List.find?_append, hf]
          rfl
        · obtain ⟨key, -, rfl⟩ :=
            List.mem_map.mp (List.mem_reverse.mp (List.mem_of_find?_eq_some hf))
          rfl
    | none =>
        refine (h.carried hq).mono (fun _ hitem hid => .of_item _ hitem hid)
          (fun _ ht hc => .of_task _ ht hc) (fun ht => ?_)
          (fun ⟨event, hev, hcut⟩ => .of_cutShort ⟨event, ?_, hcut⟩)
        · obtain ⟨t, ht⟩ := s.pendingRetryTimers.has_iff.mp ht
          have hkey : id ∈ s.pendingRetryTimers.keys :=
            List.mem_map.mpr ⟨(id, t), (s.pendingRetryTimers.mem_entries_iff).mpr ht, rfl⟩
          exact absurd (List.find?_eq_none.mp hf (.retryTimerCleared id)
            (List.mem_reverse.mpr (List.mem_map_of_mem hkey))) (by simp [Event.jobId])
        · rw [htrace, List.find?_append, hf]
          exact hev
  timer ht := by simp [QueueInstance.clearRetryTimers] at ht

/-- The write of `cancelJob` makes the job cancelled; the abort keeps the invocations. -/
lemma CarryInv.writeCancelled (h : CarryInv cfg s) {i : ℕ} {jobId : String}
    {reason : Option String} {job : Job V} (now : ℕ)
    (hi : s.tasks[i]? = some (.cancel jobId reason (.got (some job)))) :
    CarryInv cfg (s.writeCancelled i jobId reason now job) := by
  have hcarries : ∀ {id task}, task ∈ s.tasks → task.Carries id →
      ∃ task' ∈ (s.abort jobId).tasks, task'.Carries id := by
    intro id task ht hc
    obtain ⟨_, he | ⟨j, id', job', reg, hj, he⟩⟩ := abort_cases s jobId
    · exact ⟨task, by rwa [he], hc⟩
    · rw [he]
      exact exists_carries_setTask (s := s) hj (fun hc => ⟨hc.1, trivial⟩) ht hc
  have habort : CarryInv cfg (s.abort jobId) := by
    refine ⟨fun hq => ?_, fun ht => ?_⟩
    · rw [abort_storage] at hq
      exact (h.carried hq).keep (by simp) (fun _ => hcarries) (by simp) (by simp)
    · rw [abort_pendingRetryTimers] at ht
      rw [abort_timers]
      exact h.timer ht
  have hwrite : CarryInv cfg { s.abort jobId with
      storage := (s.abort jobId).storage.updateJob jobId (.cancelled now) } := by
    refine ⟨fun {id} hq => ?_, habort.timer⟩
    rw [InMemoryStorage.statusOf_updateJob] at hq
    split at hq
    · obtain ⟨_, -, hst⟩ := Option.map_eq_some_iff.mp hq
      simp [JobPatch.cancelled] at hst
    · exact (habort.carried hq).keep (by simp) (fun task ht hc => ⟨task, ht, hc⟩) rfl rfl
  exact CarryInv.setTask (s := { s.abort jobId with storage := _ }) hwrite
    (getElem?_abort hi (by simp)) (fun _ hc => hc.elim)

/-- A loop that takes an item out of the queue carries the job of the item. -/
lemma CarryInv.take (h : CarryInv cfg s) {i pick : ℕ} {pc : LoopPc V}
    {item : PriorityQueueItem (Job V)}
    {storage : InMemoryStorage V} (hi : s.tasks[i]? = some (.loop pc)) (hpc : pc.held = none)
    (hitem : (s.storage.queueOf cfg.name)[pick]? = some item)
    (hjobs : storage.jobs = s.storage.jobs)
    (hq : storage.queueOf cfg.name = (s.storage.queueOf cfg.name).eraseIdx pick) :
    CarryInv cfg ({ s with storage := storage }.setTask i
      (.loop (.dequeued (some item.data)))) := by
  refine ⟨fun {id} hqd => ?_, h.timer⟩
  have hqd' : s.storage.statusOf id = some .queued := by
    rw [InMemoryStorage.statusOf, ← hjobs]
    exact hqd
  have hloop : item.data.id = id → ({ s with storage := storage }.setTask i
      (.loop (.dequeued (some item.data)))).Carried cfg id := fun hid =>
    .of_task _ (List.mem_of_getElem? (getElem?_setTask (s := s) hi)) ⟨item.data, rfl, hid⟩
  refine (h.carried hqd').mono (fun item' hitem' hid => ?_)
    (fun task ht hc => Or.inr (Or.inl ?_)) (fun ht => .of_timer ht)
    (fun hcut => .of_cutShort hcut)
  · -- the entry is the one taken out, or it stays
    obtain ⟨j, hj⟩ := List.mem_iff_getElem?.mp hitem'
    by_cases he : j = pick
    · subst he
      obtain rfl : item' = item := Option.some.inj (hj.symm.trans hitem)
      exact hloop hid
    · refine .of_item item' ?_ hid
      change item' ∈ storage.queueOf cfg.name
      rw [hq]
      exact List.mem_eraseIdx_iff_getElem?.mpr ⟨j, he, hj⟩
  · refine exists_carries_setTask (s := s) hi (fun hc => ?_) ht hc
    obtain ⟨job, hj, -⟩ := hc
    rw [hpc] at hj
    cases hj

/-- A loop passes the job on to the invocation that it starts. -/
lemma CarryInv.launch (ho : Owned cfg s) (h : CarryInv cfg s) {i : ℕ} {job : Job V}
    (hi : s.tasks[i]? = some (.loop (.dequeued (some job)))) :
    CarryInv cfg ((s.launch cfg job).setTask i (.loop .delaying)) := by
  refine ⟨fun {id} hqd => ?_, h.timer⟩
  have hi' : (s.launch cfg job).tasks[i]? = some (.loop (.dequeued (some job))) :=
    getElem?_launch job hi
  refine (h.carried hqd).mono (fun _ hitem hid => .of_item _ hitem hid)
    (fun task ht hc => ?_) (fun ht => .of_timer ht)
    (fun hcut => .of_cutShort hcut)
  by_cases htask : task = .loop (.dequeued (some job))
  · subst htask
    obtain ⟨job', hj', hid⟩ := hc
    obtain rfl : job = job' := Option.some.inj hj'
    have hr := ho.status_read job.id
    rw [hid, show s.storage.statusOf id = some .queued from hqd] at hr
    obtain ⟨stored, hj, -⟩ := Option.map_eq_some_iff.mp hr
    refine .of_task (.exec job.id (.gotJob (s.read cfg job.id))) ?_
      ⟨hid, by rw [hid, hj]; rfl⟩
    refine mem_setTask_of_ne (s := s.launch cfg job) hi' ?_ (by simp)
    exact List.mem_append_right _ (List.mem_singleton.mpr rfl)
  · refine .of_task _ ?_ hc
    exact mem_setTask_of_ne (s := s.launch cfg job) hi' (List.mem_append_left _ ht) htask

/-- A retry callback passes the job on to the entry that it makes. -/
lemma CarryInv.reenqueue (ho : Owned cfg s) (h : CarryInv cfg s) {i : ℕ} {jobId : String}
    {attempt : ℕ} {job : Job V} (now : ℕ)
    (hi : s.tasks[i]? = some (.retry jobId attempt (.got (some job)))) :
    CarryInv cfg ({ s with storage := s.storage.enqueue cfg.name job now }.setTask i
      (.retry jobId attempt .enqueued)) := by
  have hid : job.id = jobId := ho.retry (List.mem_of_getElem? hi)
  refine ⟨fun {id} hqd => ?_, h.timer⟩
  refine ((h.enqueue job now).carried hqd).mono (fun _ hitem hid => .of_item _ hitem hid)
    (fun task ht hc => ?_) (fun ht => .of_timer ht)
    (fun hcut => .of_cutShort hcut)
  by_cases htask : task = .retry jobId attempt (.got (some job))
  · subst htask
    exact .of_item ⟨job.priority, job, now⟩ (by simp [QueueInstance.setTask])
      (hid.trans hc.1)
  · exact .of_task _ (mem_setTask_of_ne (s := s) hi ht htask) hc

/-- **One move keeps the invariant of queued jobs.** -/
lemma CarryInv.move (ho : Owned cfg s) (h : CarryInv cfg s) (hm : Move cfg quietGuard s s') :
    CarryInv cfg s' := by
  cases hm with
  | add job now hfresh hst hretries => exact h.enqueue job now
  | exec hi heff hG => exact h.applyEffect ho hi heff hG
  | settle outcome hi => exact h.setTask hi fun id hc => ⟨hc.1, trivial⟩
  | flags running down =>
      refine ⟨fun hq => ?_, h.timer⟩
      exact (h.carried hq).keep rfl (fun task ht hc => ⟨task, ht, hc⟩) rfl rfl
  | spawnLoop => exact h.spawn _
  | idle hi hpc hpc' =>
      refine h.setTask hi fun id hc => ?_
      obtain ⟨job, hj, -⟩ := hc
      rw [hpc] at hj
      cases hj
  | take hi hpc hitem hjobs howner hq hG => exact h.take hi hpc hitem hjobs hq
  | launch hi => exact h.launch ho hi
  | beginCancel jobId reason => exact h.spawn _
  | writeCancelled now hi hG => exact h.writeCancelled now hi
  | cancel hi hpc hgot => exact h.setTask hi fun id hc => hc.elim
  | reenqueue now hi hst => exact h.reenqueue ho now hi
  | retry hi hpc => exact h.setTask hi fun id hc => absurd hc.2 (by simp [hpc])
  | @fire timer ht hG => exact h.fireTimer ho timer
  | beginStop graceful => exact h.spawn _
  | stop pc' hi => exact h.setTask hi fun id hc => hc.elim
  | clearRetryTimers => exact h.clearRetryTimers
  | progress jobId percent message =>
      refine ⟨fun {id} hqd => ?_, h.timer⟩
      rw [InMemoryStorage.statusOf_updateJob] at hqd
      refine (h.carried ?_).keep (by simp) (fun task ht hc => ⟨task, ht, hc⟩) rfl rfl
      split at hqd
      · simpa [JobPatch.reported] using hqd
      · exact hqd

/-! ### Runs -/

/-- The invariant holds along a chain of moves without throwing listeners. -/
lemma carryInv_of_moves (ho : Owned cfg s) (h : CarryInv cfg s) (hm : Moves cfg quietGuard s s') :
    CarryInv cfg s' := by
  have key : Owned cfg s' ∧ CarryInv cfg s' := by
    induction hm with
    | refl => exact ⟨ho, h⟩
    | tail _ hm ih => exact ⟨ih.1.move hm, ih.2.move ih.1 hm⟩
  exact key.2

/-- **No queued job is stranded unless `stop` cut its retry short.**  In every state of a
run without throwing listeners, a job that is stored as queued has an entry in the priority
queue, or a live retry timer that `pendingRetryTimers` knows, or a retry callback that is
about to enqueue it, or an unsettled `executeJob` invocation, or is held by a loop that has
just dequeued it, or else the last thing that happened to it is that `stop` dropped its
retry. -/
theorem queued_carried {as : List (Action V)} {id : String}
    (hquiet : Meets (step cfg) (Allowed cfg quietGuard) {} as)
    (hs : exec (step cfg) {} as = some s) (hq : s.storage.statusOf id = some .queued) :
    (∃ item ∈ s.storage.queueOf cfg.name, item.data.id = id) ∨
      (∃ timer ∈ s.timers, timer.jobId = id ∧ s.pendingRetryTimers.get id = some timer.id) ∨
      (∃ attempt pc, Task.retry id attempt pc ∈ s.tasks ∧ pc.pending.isSome = true) ∨
      (∃ pc, Task.exec id pc ∈ s.tasks ∧ pc.Unsettled) ∨
      (∃ job, job.id = id ∧ Task.loop (.dequeued (some job)) ∈ s.tasks) ∨
      s.CutShort id := by
  have h : CarryInv cfg s := carryInv_of_moves Owned.init CarryInv.init (run_moves hquiet hs)
  rcases h.carried hq with hentry | ⟨task, ht, hc⟩ | htimer | hcut
  · exact Or.inl hentry
  · cases task with
    | loop pc =>
        obtain ⟨job, hj, hid⟩ := hc
        cases pc with
        | dequeued held =>
            obtain rfl : held = some job := hj
            exact Or.inr (Or.inr (Or.inr (Or.inr (Or.inl ⟨job, hid, ht⟩))))
        | delaying => cases hj
        | stopped => cases hj
    | exec jobId pc =>
        obtain ⟨rfl, hu⟩ := hc
        exact Or.inr (Or.inr (Or.inr (Or.inl ⟨pc, ht, hu⟩)))
    | retry jobId attempt pc =>
        obtain ⟨rfl, hp⟩ := hc
        exact Or.inr (Or.inr (Or.inl ⟨attempt, pc, ht, hp⟩))
    | cancel jobId reason pc => exact hc.elim
    | stop pc => exact hc.elim
  · obtain ⟨t, ht⟩ := s.pendingRetryTimers.has_iff.mp htimer
    obtain ⟨timer, hm, hid, rfl⟩ := h.timer ht
    exact Or.inr (Or.inl ⟨timer, hm, hid, ht⟩)
  · exact Or.inr (Or.inr (Or.inr (Or.inr (Or.inr hcut))))

/-- A job fails once and its retry is scheduled. -/
def failOnce : List (Action ℕ) :=
  [.add "a" "t" 0 {} 0, .start {}, .resume 0 {}, .resume 1 {}, .resume 1 {}, .resume 1 {},
    .resume 1 {}, .settle 1 (.rejected { message := "boom" }), .resume 1 {}, .resume 1 {},
    .resume 1 {}, .resume 1 {}, .resume 1 {}]

theorem queued_carried_failOnce :
    ∃ s, exec (step demoConfig) {} failOnce = some s ∧
      Meets (step demoConfig) (Allowed demoConfig quietGuard) {} failOnce ∧
      s.storage.statusOf "a" = some .queued ∧
      ((∃ item ∈ s.storage.queueOf "q", item.data.id = "a") ∨
        (∃ timer ∈ s.timers, timer.jobId = "a" ∧ s.pendingRetryTimers.get "a" = some timer.id) ∨
        (∃ attempt pc, Task.retry "a" attempt pc ∈ s.tasks ∧ pc.pending.isSome = true) ∨
        (∃ pc, Task.exec "a" pc ∈ s.tasks ∧ pc.Unsettled) ∨
        (∃ job, job.id = "a" ∧ Task.loop (.dequeued (some job)) ∈ s.tasks) ∨
        s.CutShort "a") := by
  have hquiet : Meets (step demoConfig) (Allowed demoConfig quietGuard) {} failOnce := by decide
  exact ⟨_, rfl, hquiet, rfl, queued_carried hquiet rfl rfl⟩

/-- The queue is stopped while the retry is pending. -/
def failAndStop : List (Action ℕ) := failOnce ++ [.stop true, .resume 2 {}]

/-- When `stop` has cleared the timer, the queued job is on no list. -/
theorem not_queued_carried :
    ¬ ∀ (cfg : QueueConfig ℕ) (as : List (Action ℕ)) (s : QueueInstance ℕ) (id : String),
      Meets (step cfg) (Allowed cfg quietGuard) {} as → exec (step cfg) {} as = some s →
      s.storage.statusOf id = some .queued →
      (∃ item ∈ s.storage.queueOf cfg.name, item.data.id = id) ∨
        s.pendingRetryTimers.has id = true ∨
        (∃ attempt pc, Task.retry id attempt pc ∈ s.tasks) ∨
        (∃ pc, Task.exec id pc ∈ s.tasks ∧ pc ≠ .settled) := by
  intro h
  rcases h demoConfig failAndStop _ "a" (by decide) rfl rfl with
    ⟨item, hitem, -⟩ | ht | ⟨attempt, pc, ht⟩ | ⟨pc, ht, hpc⟩
  · cases hitem
  · cases ht
  · rcases List.mem_cons.mp ht with ht | ht
    · cases ht
    · rcases List.mem_cons.mp ht with ht | ht
      · cases ht
      · cases List.mem_singleton.mp ht
  · rcases List.mem_cons.mp ht with ht | ht
    · cases ht
    · rcases List.mem_cons.mp ht with ht | ht
      · cases ht
        exact hpc rfl
      · cases List.mem_singleton.mp ht

end QueueInstance

end Blaize.Queue
