import Mathlib.Data.Bool.Basic
import Blaize.Queue.Cancel
import Blaize.Queue.Terminal

/-!
The hands that a job goes through, and the retries that it is allowed.

A job is in the hands of an entry of the priority queue, of the loop that has taken it, of
an `executeJob` invocation, of a retry timer or of the callback of one.  The hand that will
start the handler owes a start, and every retry that is written pays for one more.

* `PieceFacts`: what a piece of `executeJob` does to the hands and the retries of its job;
* `weight`: the hands a job is in, with the invocations counted that a predicate selects;
* `Quiet`: the moves that hand nothing out and leave the retries of every job alone;
* `quiet_or_loud`: **all moves are quiet but `add`, the pieces of `executeJob` and the two
  halves of a retry callback**.
-/

namespace Blaize.Queue

open Machine

variable {V : Type}

/-! ### Invocations -/

/-- The promise of the invocation has not settled. -/
@[simp] def ExecPc.unsettled : ExecPc V → Bool
  | .rejected => false
  | .settled => false
  | _ => true

/-- The invocation has not reached its `finally`. -/
@[simp] def ExecPc.working : ExecPc V → Bool
  | .finishing _ => false
  | .rejected => false
  | .settled => false
  | _ => true

/-- The invocation stands before the start of the handler, or has written a retry. -/
@[simp] def ExecPc.owes : ExecPc V → Bool
  | .gotJob _ => true
  | .markedRunning _ _ _ => true
  | .gotRunning _ _ _ _ => true
  | .publishedStarted _ _ _ => true
  | .retryUpdated _ _ => true
  | .retryGot _ _ _ => true
  | _ => false

/-- What the invocation remembers of its job agrees with a record that has had `r` of `m`
retries. -/
@[simp] def ExecPc.Agrees (r m : ℕ) : ExecPc V → Prop
  | .gotJob job => ∀ j ∈ job, j.maxRetries = m
  | .invalidUpdated job _ => job.maxRetries = m
  | .invalidGot job _ _ => job.maxRetries = m
  | .markedRunning job _ _ => job.maxRetries = m
  | .gotRunning job _ _ _ => job.maxRetries = m
  | .publishedStarted job _ _ => job.maxRetries = m
  | .handlerRunning job _ => job.maxRetries = m
  | .raceSettled job _ _ => job.maxRetries = m
  | .completionGot job _ _ => job.maxRetries = m
  | .completedUpdated job => job.maxRetries = m
  | .completedGot job _ => job.maxRetries = m
  | .caught job _ => job.maxRetries = m
  | .failureGot job _ currentJob =>
      job.maxRetries = m ∧ (currentJob.map Job.retries).getD job.retries = r
  | _ => True

lemma ExecPc.agrees_of_not_working {pc : ExecPc V} (h : pc.working = false) (r m : ℕ) :
    pc.Agrees r m := by
  cases pc with
  | finishing threw => trivial
  | rejected => trivial
  | settled => trivial
  | _ => cases h

section Pieces

variable {cfg : QueueConfig V} {read : Option (Job V)} {env : Env} {pc : ExecPc V} {eff : Effect V}

/-- **What a piece of `executeJob` does to the hands and the retries of its job.**  It
starts the handler, or schedules a retry, only on account of what it owes, unless it is the
piece of `handleJobFailure` that writes a retry. -/
structure PieceFacts (read : Option (Job V)) (pc : ExecPc V) (eff : Effect V) : Prop where
  working : eff.next.working.toNat + eff.retryTimer.isSome.toNat ≤ pc.working.toNat
  unsettled : eff.next.unsettled.toNat ≤ pc.unsettled.toNat
  maxRetries : ∀ patch ∈ eff.patch, patch.maxRetries = none
  owes : (∀ patch ∈ eff.patch, patch.retries = none) ∧
        eff.next.owes.toNat + eff.retryTimer.isSome.toNat + eff.started.isSome.toNat ≤
          pc.owes.toNat ∨
      ∃ job err currentJob patch, pc = .failureGot job err currentJob ∧
        (currentJob.map Job.retries).getD job.retries < job.maxRetries ∧
        eff.patch = some patch ∧
        patch.retries = some ((currentJob.map Job.retries).getD job.retries + 1) ∧
        (∃ attempt, eff.next = .retryUpdated job attempt) ∧ eff.retryTimer = none ∧
        eff.started = none
  agrees : ∀ r m, pc.Agrees r m → read.map Job.retries = some r → eff.next.Agrees r m

/-- A piece that starts and schedules nothing and does not touch the retries. -/
lemma PieceFacts.of_next (htimer : eff.retryTimer = none) (hstarted : eff.started = none)
    (hpatch : ∀ patch ∈ eff.patch, patch.retries = none ∧ patch.maxRetries = none)
    (hworking : eff.next.working = true → pc.working = true)
    (hunsettled : eff.next.unsettled = true → pc.unsettled = true)
    (howes : eff.next.owes = true → pc.owes = true)
    (hagrees : ∀ r m, pc.Agrees r m → read.map Job.retries = some r → eff.next.Agrees r m) :
    PieceFacts read pc eff where
  working := by simpa [htimer] using Bool.toNat_le_toNat hworking
  unsettled := Bool.toNat_le_toNat hunsettled
  maxRetries patch hp := (hpatch patch hp).2
  owes := Or.inl ⟨fun patch hp => (hpatch patch hp).1,
    by simpa [htimer, hstarted] using Bool.toNat_le_toNat howes⟩
  agrees := hagrees

lemma dispatchPiece_facts (now : ℕ) (job : Job V) :
    PieceFacts read (.gotJob (some job)) (dispatchPiece cfg now job) := by
  rw [dispatchPiece]
  split
  · exact .of_next rfl rfl (by simp [JobPatch.failed]) (by simp) (by simp) (by simp) (by simp)
  · split
    · exact .of_next rfl rfl (by simp [JobPatch.failed]) (by simp) (by simp) (by simp)
        fun _ _ hpc _ => hpc job rfl
    · exact .of_next rfl rfl (by simp [JobPatch.started]) (by simp) (by simp) (by simp)
        fun _ _ hpc _ => hpc job rfl

lemma failurePiece_facts {job : Job V} {err : Thrown} (hworking : pc.working = true)
    (hunsettled : pc.unsettled = true) (hpc : ∀ r m, pc.Agrees r m → job.maxRetries = m) :
    PieceFacts read pc (failurePiece read job err) :=
  .of_next rfl rfl (by simp [failurePiece]) (fun _ => hworking) (fun _ => hunsettled) nofun
    fun r m h hread => ⟨hpc r m h, by rw [hread, Option.getD_some]⟩

lemma outcomePiece_facts (now : ℕ) (job : Job V) (reg : HandlerRegistration V)
    (outcome : Settlement V) :
    PieceFacts read (.raceSettled job reg outcome) (outcomePiece now read job reg outcome) := by
  cases outcome with
  | rejected err => exact failurePiece_facts rfl rfl fun _ _ h => h
  | resolved result =>
      rw [outcomePiece]
      split
      · exact .of_next rfl rfl (by simp [JobPatch.failed]) (by simp) (by simp) (by simp)
          fun _ _ hpc _ => hpc
      · exact .of_next rfl rfl (by simp) (by simp) (by simp) (by simp) fun _ _ hpc _ => hpc

lemma completionDecision_facts (now : ℕ) (job : Job V) (result : V) (currentJob : Option (Job V)) :
    PieceFacts read (.completionGot job result currentJob)
      (completionDecision now job result currentJob) := by
  rw [completionDecision]
  split
  · exact .of_next rfl rfl (by simp) (by simp) (by simp) (by simp) (by simp)
  · exact .of_next rfl rfl (by simp [JobPatch.completed]) (by simp) (by simp) (by simp)
      fun _ _ hpc _ => hpc

lemma failureDecision_facts (now : ℕ) (job : Job V) (err : Thrown) (currentJob : Option (Job V)) :
    PieceFacts read (.failureGot job err currentJob) (failureDecision now job err currentJob) := by
  rw [failureDecision]
  split
  · exact .of_next rfl rfl (by simp) (by simp) (by simp) (by simp) (by simp)
  · cases failureKind err.message with
    | cancelled =>
        exact .of_next rfl rfl (by simp [JobPatch.cancelled]) (by simp) (by simp) (by simp)
          (by simp)
    | timeout | execution =>
        dsimp only
        split
        next hlt =>
            exact {
              working := Nat.le_refl _
              unsettled := Nat.le_refl _
              maxRetries := by simp [JobPatch.retried]
              owes := Or.inr ⟨job, err, currentJob, _, rfl, hlt, rfl, rfl, ⟨_, rfl⟩, rfl, rfl⟩
              agrees := fun _ _ _ _ => trivial }
        next =>
            exact .of_next rfl rfl (by simp [JobPatch.failed]) (by simp) (by simp) (by simp)
              (by simp)

/-- The handler is started. -/
lemma PieceFacts.of_started {job : Job V} {reg : HandlerRegistration V} {input : V}
    (hworking : pc.working = true) (hunsettled : pc.unsettled = true) (howes : pc.owes = true)
    (hpc : ∀ r m, pc.Agrees r m → job.maxRetries = m) :
    PieceFacts read pc { next := .handlerRunning job reg, started := some input } where
  working := by rw [hworking]; exact Nat.le_refl _
  unsettled := by rw [hunsettled]; exact Nat.le_refl _
  maxRetries := by simp
  owes := Or.inl ⟨by simp, by rw [howes]; exact Nat.le_refl _⟩
  agrees r m h _ := hpc r m h

theorem execPiece_facts (h : execPiece cfg read env pc = some eff) : PieceFacts read pc eff := by
  cases pc with
  | gotJob job =>
      cases job with
      | none =>
          cases h
          exact .of_next rfl rfl (by simp) (by simp) (by simp) (by simp) (by simp)
      | some job =>
          cases h
          exact dispatchPiece_facts env.now job
  | raceSettled job reg outcome =>
      cases h
      exact outcomePiece_facts env.now job reg outcome
  | completionGot job result currentJob =>
      cases h
      exact completionDecision_facts env.now job result currentJob
  | failureGot job err currentJob =>
      cases h
      exact failureDecision_facts env.now job err currentJob
  | gotRunning job reg input runningJob =>
      cases runningJob with
      | none =>
          cases h
          exact .of_started rfl rfl rfl fun _ _ h => h
      | some runningJob =>
          cases ht : env.throws <;> simp only [execPiece, ht] at h <;> cases h
          · exact .of_next rfl rfl (by simp) (by simp) (by simp) (by simp) fun _ _ hpc _ => hpc
          · exact failurePiece_facts rfl rfl fun _ _ h => h
  | publishedStarted job reg input =>
      cases h
      exact .of_started rfl rfl rfl fun _ _ h => h
  | caught job err =>
      cases h
      exact failurePiece_facts rfl rfl fun _ _ h => h
  | retryGot job attempt updatedJob =>
      simp only [execPiece] at h
      split at h <;> cases h
      · exact .of_next rfl rfl (by simp) (by simp) (by simp) (by simp) (by simp)
      · exact ⟨by simp, by simp, by simp, Or.inl ⟨by simp, by simp⟩, by simp⟩
  | invalidGot job inTry failedJob =>
      cases failedJob <;> cases ht : env.throws <;> simp only [execPiece, ht] at h <;> cases h <;>
        cases inTry <;>
        exact .of_next rfl rfl (by simp) (by simp) (by simp) (by simp) (by simp +contextual)
  | noHandlerGot job read' | completedGot job read' | cancelledGot job read'
  | failedGot job read' =>
      cases read' <;> cases ht : env.throws <;> simp only [execPiece, ht] at h <;> cases h <;>
        exact .of_next rfl rfl (by simp) (by simp) (by simp) (by simp) (by simp +contextual)
  | invalidPublished job inTry =>
      cases h
      cases inTry <;> exact .of_next rfl rfl (by simp) (by simp) (by simp) (by simp) (by simp)
  | finishing threw =>
      cases h
      cases threw <;> exact .of_next rfl rfl (by simp) (by simp) (by simp) (by simp) (by simp)
  | handlerRunning job reg => cases h
  | settled => cases h
  | _ =>
      cases h
      exact .of_next rfl rfl (by simp) (by simp) (by simp) (by simp) (by simp +contextual)

end Pieces

/-! ### Hands -/

/-- A task that has the job `id` in hand, with the invocations counted that `w` selects. -/
def Task.weighs (w : ExecPc V → Bool) (id : String) : Task V → Bool
  | .loop pc => pc.held.any (·.id = id)
  | .exec jobId pc => jobId = id && w pc
  | .retry jobId _ pc => jobId = id && pc.pending.isSome
  | .cancel _ _ _ => false
  | .stop _ => false

/-- An invocation for the job whose continuation is in the microtask queue: `handleJobFailure`
or `handleJobCompletion` has returned, and only the `finally` is left. -/
def Task.isFinishing (id : String) : Task V → Bool
  | .exec jobId (.finishing _) => jobId = id
  | _ => false

/-- What a task remembers of the retries of its job agrees with the records. -/
def Task.Agrees (budget : String → Option (ℕ × ℕ)) : Task V → Prop
  | .exec jobId pc => ∀ r m, budget jobId = some (r, m) → pc.Agrees r m
  | .retry jobId _ pc => ∀ job ∈ pc.pending, budget jobId = some (job.retries, job.maxRetries)
  | _ => True

/-- A task that does not have the job in hand does not mind its retries. -/
lemma Task.Agrees.of_not_weighs {b b' : String → Option (ℕ × ℕ)} {t : Task V} (h : t.Agrees b)
    (id : String) (hb : ∀ id', id' ≠ id → b' id' = b id')
    (hw : t.weighs ExecPc.working id = false) : t.Agrees b' := by
  cases t with
  | exec jobId pc =>
      intro r m hr
      by_cases he : jobId = id
      · refine ExecPc.agrees_of_not_working ?_ r m
        simpa only [Task.weighs, he, decide_true, Bool.true_and] using hw
      · exact h r m (by rwa [hb jobId he] at hr)
  | retry jobId attempt pc =>
      intro job hjob
      by_cases he : jobId = id
      · rw [Option.mem_def] at hjob
        simp [Task.weighs, he, hjob] at hw
      · rw [hb jobId he]
        exact h job hjob
  | loop pc => trivial
  | cancel jobId reason pc => trivial
  | stop pc => trivial

namespace QueueInstance

/-- The hands that a job is in, its retry timers apart. -/
def weight (cfg : QueueConfig V) (w : ExecPc V → Bool) (s : QueueInstance V) (id : String) : ℕ :=
  (s.storage.queueOf cfg.name).countP (·.data.id = id) + s.tasks.countP (Task.weighs w id)

/-- The retry timers of a job. -/
def timersOf (s : QueueInstance V) (id : String) : ℕ := s.timers.countP (·.jobId = id)

/-- The retries that a job has had, and its limit. -/
def budget (s : QueueInstance V) (id : String) : Option (ℕ × ℕ) :=
  (s.storage.jobs.get id).map fun job => (job.retries, job.maxRetries)

variable {cfg : QueueConfig V} {G : Guard V} {s s' : QueueInstance V} {w : ExecPc V → Bool}

lemma weight_setTask (cfg : QueueConfig V) (w : ExecPc V → Bool) {i : ℕ} {t : Task V}
    (hi : s.tasks[i]? = some t) (u : Task V) (id : String) :
    (s.setTask i u).weight cfg w id + (t.weighs w id).toNat =
      s.weight cfg w id + (u.weighs w id).toNat := by
  have := List.countP_set_add (Task.weighs w id) u hi
  simp only [weight, QueueInstance.setTask]
  omega

lemma weight_spawn (t : Task V) (id : String) :
    (s.spawn t).weight cfg w id = s.weight cfg w id + (t.weighs w id).toNat := by
  simp only [weight, QueueInstance.spawn, List.countP_append, List.countP_singleton]
  cases t.weighs w id <;> simp
  omega

lemma weight_enqueue (job : Job V) (now : ℕ) (id : String) :
    { s with storage := s.storage.enqueue cfg.name job now }.weight cfg w id =
      s.weight cfg w id + (decide (job.id = id)).toNat := by
  simp only [weight, InMemoryStorage.queueOf_enqueue, List.countP_append, List.countP_singleton]
  cases decide (job.id = id) <;> simp
  omega

lemma budget_updateJob (jobId id : String) (patch : JobPatch V) :
    { s with storage := s.storage.updateJob jobId patch }.budget id =
      if jobId = id then
        (s.budget id).map fun b => (patch.retries.getD b.1, patch.maxRetries.getD b.2)
      else s.budget id := by
  simp only [budget, InMemoryStorage.get_updateJob]
  split
  · rw [Option.map_map, Option.map_map]
    rfl
  · rfl

lemma budget_enqueue (cfg : QueueConfig V) (job : Job V) (now : ℕ) (id : String) :
    { s with storage := s.storage.enqueue cfg.name job now }.budget id =
      if job.id = id then some (job.retries, job.maxRetries) else s.budget id := by
  rw [budget, InMemoryStorage.enqueue_jobs, OrdMap.get_set]
  split <;> rfl

/-- An update that does not mention the retries or their limit. -/
lemma budget_updateJob_of_none (jobId : String) {patch : JobPatch V} (hr : patch.retries = none)
    (hm : patch.maxRetries = none) :
    { s with storage := s.storage.updateJob jobId patch }.budget = s.budget := by
  funext id
  rw [budget_updateJob, hr, hm]
  split
  · simp
  · rfl

/-! ### Quiet moves -/

variable (cfg s s') in
/-- **A quiet move**: no hand is added, no handler started, and the retries of every job are
left alone. -/
structure Quiet : Prop where
  budget : s'.budget = s.budget
  starts : ∀ id, s'.handlerStarts id = s.handlerStarts id
  timers : ∀ id, s'.timersOf id ≤ s.timersOf id
  weight : ∀ w id,
    (∀ job reg outcome, w (.raceSettled job reg outcome) = w (.handlerRunning job reg)) →
      s'.weight cfg w id ≤ s.weight cfg w id
  agrees : (∀ t ∈ s.tasks, t.Agrees s.budget) → ∀ t ∈ s'.tasks, t.Agrees s.budget

/-- Replacing a task by one that is in no more hands. -/
lemma Quiet.setTask {i : ℕ} {t u : Task V} (hi : s.tasks[i]? = some t)
    (hweight : ∀ w id,
      (∀ job reg outcome, w (.raceSettled job reg outcome) = w (.handlerRunning job reg)) →
        u.weighs w id = true → t.weighs w id = true)
    (hagrees : t.Agrees s.budget → u.Agrees s.budget) : Quiet cfg s (s.setTask i u) where
  budget := rfl
  starts _ := rfl
  timers _ := Nat.le_refl _
  weight w id hw := by
    have hset := weight_setTask cfg w hi u id
    have hle := Bool.toNat_le_toNat (hweight w id hw)
    omega
  agrees h t' ht' := by
    rcases List.mem_or_eq_of_mem_set ht' with ht' | rfl
    · exact h t' ht'
    · exact hagrees (h t (List.mem_of_getElem? hi))

/-- A new task that has nothing in hand. -/
lemma Quiet.spawn {t : Task V} (ht : ∀ w id, t.weighs w id = false) (hagrees : t.Agrees s.budget) :
    Quiet cfg s (s.spawn t) where
  budget := rfl
  starts _ := rfl
  timers _ := Nat.le_refl _
  weight w id _ := by rw [weight_spawn, ht w id, Bool.toNat_false]; exact Nat.le_refl _
  agrees h t' ht' := by
    rcases List.mem_append.mp ht' with ht' | ht'
    · exact h t' ht'
    · obtain rfl := List.mem_singleton.mp ht'
      exact hagrees

/-- The storage changes, but neither the queue nor the retries. -/
lemma Quiet.setStorage {storage : InMemoryStorage V}
    (hqueue : storage.queueOf cfg.name = s.storage.queueOf cfg.name)
    (hbudget : { s with storage := storage }.budget = s.budget) :
    Quiet cfg s { s with storage := storage } where
  budget := hbudget
  starts _ := rfl
  timers _ := Nat.le_refl _
  weight w id _ := by simp only [QueueInstance.weight, hqueue]; exact Nat.le_refl _
  agrees h := h

/-- Neither the storage nor the tasks, the timers or the trace change. -/
lemma Quiet.of_eq (hstorage : s'.storage = s.storage) (htasks : s'.tasks = s.tasks)
    (htimers : s'.timers = s.timers) (htrace : s'.trace = s.trace) : Quiet cfg s s' where
  budget := by
    funext id
    rw [QueueInstance.budget, hstorage, QueueInstance.budget]
  starts id := by rw [handlerStarts, htrace, handlerStarts]
  timers id := Nat.le_of_eq (by rw [timersOf, htimers, timersOf])
  weight w id _ :=
    Nat.le_of_eq (by rw [QueueInstance.weight, hstorage, htasks, QueueInstance.weight])
  agrees h := by rwa [htasks]

lemma Quiet.trans {s₁ s₂ s₃ : QueueInstance V} (h : Quiet cfg s₁ s₂) (h' : Quiet cfg s₂ s₃) :
    Quiet cfg s₁ s₃ where
  budget := h'.budget.trans h.budget
  starts id := (h'.starts id).trans (h.starts id)
  timers id := Nat.le_trans (h'.timers id) (h.timers id)
  weight w id hw := Nat.le_trans (h'.weight w id hw) (h.weight w id hw)
  agrees ha := by
    rw [← h.budget]
    refine h'.agrees fun t ht => ?_
    rw [h.budget]
    exact h.agrees ha t ht

/-- The loop that takes an item out of the queue has its job in hand. -/
lemma Quiet.take {i pick : ℕ} {pc : LoopPc V} {item : PriorityQueueItem (Job V)}
    {storage : InMemoryStorage V} (hi : s.tasks[i]? = some (.loop pc)) (hpc : pc.held = none)
    (hitem : (s.storage.queueOf cfg.name)[pick]? = some item)
    (hjobs : storage.jobs = s.storage.jobs)
    (hq : storage.queueOf cfg.name = (s.storage.queueOf cfg.name).eraseIdx pick) :
    Quiet cfg s
      ({ s with storage := storage }.setTask i (.loop (.dequeued (some item.data)))) where
  budget := by
    funext id
    simp only [QueueInstance.budget, QueueInstance.setTask, hjobs]
  starts _ := rfl
  timers _ := Nat.le_refl _
  weight w id _ := by
    have hset := weight_setTask cfg w (s := { s with storage := storage }) hi
      (.loop (.dequeued (some item.data))) id
    have herase :=
      List.countP_eraseIdx_add (fun item : PriorityQueueItem (Job V) => item.data.id = id) hitem
    have hheld : Task.weighs w id (.loop pc : Task V) = false := by
      rw [Task.weighs, hpc]
      rfl
    have hitemheld : Task.weighs w id (.loop (.dequeued (some item.data)) : Task V) =
        decide (item.data.id = id) := rfl
    rw [hheld, hitemheld] at hset
    simp only [QueueInstance.weight, hq, Bool.toNat_false] at hset ⊢
    omega
  agrees h t ht := by
    rcases List.mem_or_eq_of_mem_set ht with ht | rfl
    · exact h t ht
    · trivial

/-- The loop passes its job on to the invocation that it starts. -/
lemma Quiet.launch (ho : Owned cfg s) {i : ℕ} {job : Job V}
    (hi : s.tasks[i]? = some (.loop (.dequeued (some job)))) :
    Quiet cfg s ((s.launch cfg job).setTask i (.loop .delaying)) where
  budget := rfl
  starts _ := rfl
  timers _ := Nat.le_refl _
  weight w id _ := by
    have hi' : (s.launch cfg job).tasks[i]? = some (.loop (.dequeued (some job))) :=
      getElem?_launch job hi
    have hset := weight_setTask cfg w hi' (.loop .delaying) id
    have hspawn : (s.launch cfg job).weight cfg w id = s.weight cfg w id +
        (Task.weighs w id (.exec job.id (.gotJob (s.read cfg job.id)) : Task V)).toNat :=
      weight_spawn (s := { s with runningJobs := OrdSet.add s.runningJobs job.id }) _ id
    have hidle : Task.weighs w id (.loop .delaying : Task V) = false := rfl
    have hheld : Task.weighs w id (.exec job.id (.gotJob (s.read cfg job.id)) : Task V) = true →
        Task.weighs w id (.loop (.dequeued (some job)) : Task V) = true := by
      intro h
      simp only [Task.weighs, Bool.and_eq_true] at h
      exact h.1
    have hle := Bool.toNat_le_toNat hheld
    rw [hidle, Bool.toNat_false] at hset
    omega
  agrees h t ht := by
    rcases List.mem_or_eq_of_mem_set ht with ht | rfl
    · rcases List.mem_append.mp ht with ht | ht
      · exact h t ht
      · obtain rfl := List.mem_singleton.mp ht
        intro r m hb j hj
        rw [Option.mem_def, ho.read_eq] at hj
        rw [QueueInstance.budget, hj] at hb
        exact congrArg Prod.snd (Option.some.inj hb)
    · trivial

/-- An abort moves a running handler on. -/
lemma Quiet.abort (jobId : String) : Quiet cfg s (s.abort jobId) := by
  obtain ⟨controllers, he | ⟨i, id', job, reg, hi, he⟩⟩ := abort_cases s jobId
  · rw [he]
    exact .of_eq rfl rfl rfl rfl
  · rw [he]
    have hmark : Quiet cfg s { s with abortControllers := controllers } := .of_eq rfl rfl rfl rfl
    refine hmark.trans (.setTask hi (fun w id hw h => ?_) fun h => h)
    rw [Task.weighs, hw] at h
    exact h

lemma Quiet.writeCancelled {i : ℕ} {jobId : String} {reason : Option String} {job : Job V}
    (now : ℕ) (hi : s.tasks[i]? = some (.cancel jobId reason (.got (some job)))) :
    Quiet cfg s (s.writeCancelled i jobId reason now job) := by
  have hwrite : Quiet cfg (s.abort jobId) { s.abort jobId with
      storage := (s.abort jobId).storage.updateJob jobId (.cancelled now) } :=
    .setStorage (by simp) (budget_updateJob_of_none jobId rfl rfl)
  exact (Quiet.abort jobId).trans (hwrite.trans
    (.setTask (getElem?_abort hi (by simp)) (fun _ _ _ h => h) fun _ => trivial))

lemma Quiet.clearRetryTimers : Quiet cfg s s.clearRetryTimers where
  budget := rfl
  starts id := by simp [handlerStarts, QueueInstance.clearRetryTimers, Function.comp_def]
  timers id := List.Sublist.countP_le List.filter_sublist
  weight _ _ _ := Nat.le_refl _
  agrees h := h

variable (cfg G s s') in
/-- The moves that are not quiet. -/
inductive Loud : Prop
  | add (job : Job V) (now : ℕ) (hfresh : s.storage.jobs.get job.id = none)
      (hretries : job.retries = 0)
      (he : s' = { s with storage := s.storage.enqueue cfg.name job now })
  | exec {i : ℕ} {jobId : String} {pc : ExecPc V} {env : Env} {eff : Effect V}
      (hi : s.tasks[i]? = some (.exec jobId pc))
      (heff : execPiece cfg (s.read cfg jobId) env pc = some eff)
      (he : s' = s.applyEffect i jobId eff)
  | reenqueue {i : ℕ} {attempt : ℕ} {job : Job V} (now : ℕ)
      (hi : s.tasks[i]? = some (.retry job.id attempt (.got (some job))))
      (hst : job.status = .queued)
      (he : s' = { s with storage := s.storage.enqueue cfg.name job now }.setTask i
        (.retry job.id attempt .enqueued))
  | fire {timer : RetryTimer} (ht : timer ∈ s.timers) (hG : G.fire s timer.jobId)
      (he : s' = s.fireTimer cfg timer)

/-- **Most moves are quiet.** -/
lemma quiet_or_loud (ho : Owned cfg s) (hm : Move cfg G s s') :
    Quiet cfg s s' ∨ Loud cfg G s s' := by
  cases hm with
  | add job now hfresh hst hretries => exact Or.inr (.add job now hfresh hretries rfl)
  | exec hi heff hG => exact Or.inr (.exec hi heff rfl)
  | @reenqueue i jobId attempt job now hi hst =>
      obtain rfl : job.id = jobId := ho.retry (List.mem_of_getElem? hi)
      exact Or.inr (.reenqueue now hi hst rfl)
  | fire ht hG => exact Or.inr (.fire ht hG rfl)
  | settle outcome hi =>
      refine Or.inl (.setTask hi (fun w id hw h => ?_) fun h => h)
      rw [Task.weighs, hw] at h
      exact h
  | flags running down => exact Or.inl (.of_eq rfl rfl rfl rfl)
  | spawnLoop => exact Or.inl (.spawn (fun _ _ => rfl) trivial)
  | idle hi hpc hpc' =>
      refine Or.inl (.setTask hi (fun w id _ h => ?_) fun _ => trivial)
      rw [Task.weighs, hpc'] at h
      cases h
  | take hi hpc hitem hjobs howner hq hG => exact Or.inl (.take hi hpc hitem hjobs hq)
  | launch hi => exact Or.inl (.launch ho hi)
  | beginCancel jobId reason => exact Or.inl (.spawn (fun _ _ => rfl) trivial)
  | writeCancelled now hi hG => exact Or.inl (.writeCancelled now hi)
  | cancel hi hpc hgot => exact Or.inl (.setTask hi (fun _ _ _ h => h) fun _ => trivial)
  | @retry i jobId attempt pc hi hpc =>
      refine Or.inl (.setTask hi (fun w id _ h => ?_) fun _ => ?_)
      · simp [Task.weighs, RetryPc.pending] at h
      · simp [Task.Agrees, RetryPc.pending]
  | beginStop graceful => exact Or.inl (.spawn (fun _ _ => rfl) trivial)
  | stop pc' hi => exact Or.inl (.setTask hi (fun _ _ _ h => h) fun _ => trivial)
  | clearRetryTimers => exact Or.inl .clearRetryTimers
  | progress jobId percent message =>
      exact Or.inl (.setStorage (by simp) (budget_updateJob_of_none jobId rfl rfl))

end QueueInstance

end Blaize.Queue
