import Blaize.Lib.Count
import Blaize.Queue.Moves

/-!
Is a completed or failed job settled for good?

The documented state machine has no transition out of `completed` and `failed`, but
`cancelJob` does not look at the status before it writes, and a listener that throws after
the terminal write leads `executeJob` into its `catch`.  Without these two, a job is in at
most one hand at a time, and the hand that writes a terminal status lets go of it:

* `ExecPc.active`, `Task.holds`: the tasks that can still write the status of a job;
* `tokens`: how many entries, tasks and timers hold a job;
* `terminalGuard`: `cancelJob` finds the job unsettled when it writes, and no listener
  throws right after a terminal write inside the `try`;
* `TokenInv`: at most one token for each job, and none for a settled one;
* `terminal_absorbing`: **in a run that meets the guard the status, the result and the
  time of completion of a settled job never change**;
* `not_terminal_absorbing`: without it, a completed job is cancelled.
-/

namespace Blaize.Queue

open Machine

variable {V : Type}

/-! ### Tokens -/

/-- An `executeJob` invocation that can still write the status of its job or schedule a
retry. -/
def ExecPc.active : ExecPc V → Bool
  | .gotJob job => job.isSome
  | .markedRunning _ _ _ => true
  | .gotRunning _ _ _ _ => true
  | .publishedStarted _ _ _ => true
  | .handlerRunning _ _ => true
  | .raceSettled _ _ _ => true
  | .completionGot _ _ _ => true
  | .caught _ _ => true
  | .failureGot _ _ _ => true
  | .retryUpdated _ _ => true
  | .retryGot _ _ _ => true
  | _ => false

/-- A task that has the job `id` in hand. -/
def Task.holds (id : String) : Task V → Bool
  | .loop pc => pc.held.any (·.id = id)
  | .exec jobId pc => jobId = id && pc.active
  | .retry jobId _ pc => jobId = id && pc.pending.isSome
  | .cancel _ _ _ => false
  | .stop _ => false

/-- The statuses that `executeJob` ends with. -/
def JobStatus.isSettled : JobStatus → Bool
  | .completed => true
  | .failed => true
  | .queued => false
  | .running => false
  | .cancelled => false

/-- **The condition for terminal statuses to last.**  `cancelJob` writes only to a job that
is neither completed nor failed, and no listener throws between a terminal write inside the
`try` of `executeJob` and the end of that `try`. -/
def terminalGuard : Guard V where
  exec _ pc env :=
    match pc with
    | .completedGot _ (some _) => env.throws = none
    | .invalidGot _ true (some _) => env.throws = none
    | _ => True
  cancel s jobId _ := (s.storage.statusOf jobId).any JobStatus.isSettled = false

instance (s : QueueInstance V) (jobId : String) (job : Job V) :
    Decidable (terminalGuard.cancel s jobId job) := inferInstanceAs (Decidable (_ = false))

instance (storage : InMemoryStorage V) (id : String) : Decidable (terminalGuard.take storage id) :=
  .isTrue trivial

instance (s : QueueInstance V) (jobId : String) : Decidable (terminalGuard.fire s jobId) :=
  .isTrue trivial

instance (jobId : String) (pc : ExecPc V) (env : Env) :
    Decidable (terminalGuard.exec jobId pc env) := by
  unfold terminalGuard
  dsimp only
  split <;> infer_instance

/-- **A piece of `executeJob` makes no token.**  Only an active invocation writes, and one
that writes a terminal status becomes inactive. -/
lemma execPiece_tokens {cfg : QueueConfig V} {read : Option (Job V)} {env : Env} {jobId : String}
    {pc : ExecPc V} {eff : Effect V} (h : execPiece cfg read env pc = some eff)
    (hG : terminalGuard.exec jobId pc env) :
    eff.next.active.toNat + eff.retryTimer.isSome.toNat ≤ pc.active.toNat ∧
      ∀ patch, eff.patch = some patch → pc.active = true ∧
        ∃ status, patch.status = some status ∧
          (status.isSettled = true → eff.next.active = false ∧ eff.retryTimer = none) := by
  cases pc with
  | gotJob job =>
      cases job with
      | none =>
          cases h
          exact ⟨Nat.le_refl _, by simp⟩
      | some job =>
          cases h
          rw [dispatchPiece]
          split
          · exact ⟨Nat.zero_le _, by simp [ExecPc.active, JobPatch.failed]⟩
          · split
            · exact ⟨Nat.zero_le _, by simp [ExecPc.active, JobPatch.failed]⟩
            · exact ⟨Nat.le_refl _, by simp [ExecPc.active, JobPatch.started, JobStatus.isSettled]⟩
  | raceSettled job reg outcome =>
      cases h
      cases outcome with
      | rejected err => exact ⟨Nat.le_refl _, by simp [outcomePiece, failurePiece]⟩
      | resolved result =>
          rw [outcomePiece]
          split
          · exact ⟨Nat.zero_le _, by simp [ExecPc.active, JobPatch.failed]⟩
          · exact ⟨Nat.le_refl _, by simp⟩
  | completionGot job result currentJob =>
      cases h
      rw [completionDecision]
      split
      · exact ⟨Nat.zero_le _, by simp⟩
      · exact ⟨Nat.zero_le _, by simp [ExecPc.active, JobPatch.completed]⟩
  | failureGot job err currentJob =>
      cases h
      rw [failureDecision]
      split
      · exact ⟨Nat.zero_le _, by simp⟩
      · cases failureKind err.message with
        | cancelled => exact ⟨Nat.zero_le _, by simp [ExecPc.active, JobPatch.cancelled]⟩
        | timeout | execution =>
            dsimp only
            split
            · exact ⟨Nat.le_refl _, by simp [ExecPc.active, JobPatch.retried, JobStatus.isSettled]⟩
            · exact ⟨Nat.zero_le _, by simp [ExecPc.active, JobPatch.failed]⟩
  | gotRunning job reg input runningJob =>
      cases runningJob <;> cases ht : env.throws <;> simp only [execPiece, ht] at h <;> cases h <;>
        exact ⟨Nat.le_refl _, by simp [failurePiece]⟩
  | retryGot job attempt updatedJob =>
      simp only [execPiece] at h
      split at h <;> cases h
      · exact ⟨Nat.zero_le _, by simp⟩
      · exact ⟨Nat.le_refl _, by simp⟩
  | completedGot job completedJob =>
      cases completedJob with
      | none =>
          cases h
          exact ⟨Nat.le_refl _, by simp⟩
      | some completedJob =>
          have hthrows : env.throws = none := hG
          simp only [execPiece, hthrows] at h
          cases h
          exact ⟨Nat.le_refl _, by simp⟩
  | invalidGot job inTry failedJob =>
      cases failedJob with
      | none =>
          cases h
          cases inTry <;> exact ⟨Nat.le_refl _, by simp⟩
      | some failedJob =>
          cases inTry with
          | true =>
              have hthrows : env.throws = none := hG
              simp only [execPiece, hthrows] at h
              cases h
              exact ⟨Nat.le_refl _, by simp⟩
          | false =>
              cases ht : env.throws <;> simp only [execPiece, ht] at h <;> cases h <;>
                exact ⟨Nat.le_refl _, by simp⟩
  | noHandlerGot job failedJob | cancelledGot job failedJob | failedGot job failedJob =>
      cases failedJob <;> cases ht : env.throws <;> simp only [execPiece, ht] at h <;> cases h <;>
        exact ⟨Nat.le_refl _, by simp⟩
  | invalidPublished job inTry =>
      cases h
      cases inTry <;> exact ⟨Nat.le_refl _, by simp⟩
  | finishing threw =>
      cases h
      cases threw <;> exact ⟨Nat.le_refl _, by simp⟩
  | handlerRunning job reg => cases h
  | settled => cases h
  | _ =>
      cases h
      exact ⟨Nat.le_refl _, by simp [failurePiece]⟩

namespace QueueInstance

/-- The hands that hold a job: its entries in the priority queue, the tasks that have it
and its retry timers. -/
def tokens (cfg : QueueConfig V) (s : QueueInstance V) (id : String) : ℕ :=
  (s.storage.queueOf cfg.name).countP (·.data.id = id) + s.tasks.countP (Task.holds id) +
    s.timers.countP (·.jobId = id)

/-- How many hands may hold a job with a status. -/
def allowance : Option JobStatus → ℕ
  | none => 0
  | some status => if status.isSettled then 0 else 1

/-- **At most one token for each job, and none for one that is settled or unknown.** -/
def TokenInv (cfg : QueueConfig V) (s : QueueInstance V) : Prop :=
  ∀ id, s.tokens cfg id ≤ allowance (s.storage.statusOf id)

variable {cfg : QueueConfig V} {s s' : QueueInstance V}

lemma TokenInv.init : TokenInv cfg ({} : QueueInstance V) := by
  intro id
  simp [tokens, InMemoryStorage.queueOf]

/-- A task of the state that holds the job is one of its tokens. -/
lemma one_le_tokens (cfg : QueueConfig V) {i : ℕ} {t : Task V} {id : String}
    (hi : s.tasks[i]? = some t) (ht : t.holds id = true) : 1 ≤ s.tokens cfg id := by
  have : 0 < s.tasks.countP (Task.holds id) :=
    List.countP_pos_iff.mpr ⟨t, List.mem_of_getElem? hi, ht⟩
  rw [tokens]
  omega

lemma tokens_setTask (cfg : QueueConfig V) {i : ℕ} {t : Task V} (hi : s.tasks[i]? = some t)
    (u : Task V) (id : String) :
    (s.setTask i u).tokens cfg id + (t.holds id).toNat = s.tokens cfg id + (u.holds id).toNat := by
  have := List.countP_set_add (Task.holds id) u hi
  simp only [tokens, QueueInstance.setTask]
  omega

lemma tokens_spawn (t : Task V) (id : String) :
    (s.spawn t).tokens cfg id = s.tokens cfg id + (t.holds id).toNat := by
  simp only [tokens, QueueInstance.spawn, List.countP_append, List.countP_singleton]
  cases t.holds id <;> simp
  omega

lemma tokens_enqueue (cfg : QueueConfig V) (job : Job V) (now : ℕ) (id : String) :
    { s with storage := s.storage.enqueue cfg.name job now }.tokens cfg id =
      s.tokens cfg id + (decide (job.id = id)).toNat := by
  simp only [tokens, InMemoryStorage.queueOf_enqueue, List.countP_append, List.countP_singleton]
  cases decide (job.id = id) <;> simp
  omega

/-- Replacing a task by one that holds no more. -/
lemma TokenInv.setTask (h : TokenInv cfg s) {i : ℕ} {t u : Task V} (hi : s.tasks[i]? = some t)
    (htu : ∀ id, u.holds id = true → t.holds id = true) : TokenInv cfg (s.setTask i u) := by
  intro id
  refine Nat.le_trans ?_ (h id)
  have := tokens_setTask cfg hi u id
  have := htu id
  cases hu : u.holds id <;> cases ht : t.holds id <;> simp_all
  omega

/-- A new task that holds nothing. -/
lemma TokenInv.spawn (h : TokenInv cfg s) {t : Task V} (ht : ∀ id, t.holds id = false) :
    TokenInv cfg (s.spawn t) := by
  intro id
  rw [tokens_spawn, ht id]
  exact h id

/-- A piece of `executeJob` keeps the invariant. -/
lemma TokenInv.applyEffect (h : TokenInv cfg s) {i : ℕ} {jobId : String} {pc : ExecPc V}
    {env : Env} {eff : Effect V} (hi : s.tasks[i]? = some (.exec jobId pc))
    (heff : execPiece cfg (s.read cfg jobId) env pc = some eff)
    (hG : terminalGuard.exec jobId pc env) : TokenInv cfg (s.applyEffect i jobId eff) := by
  intro id
  have hqueue : (s.applyEffect i jobId eff).storage.queueOf cfg.name =
      s.storage.queueOf cfg.name := by
    cases hp : eff.patch <;> simp [QueueInstance.applyEffect, hp]
  have htasks := List.countP_set_add (Task.holds id) (.exec jobId eff.next) hi
  have htimers : (s.applyEffect i jobId eff).timers.countP (·.jobId = id) =
      s.timers.countP (·.jobId = id) + (decide (jobId = id) && eff.retryTimer.isSome).toNat := by
    cases hr : eff.retryTimer with
    | none => simp [QueueInstance.applyEffect, hr]
    | some attempt =>
        by_cases he : jobId = id <;> simp [QueueInstance.applyEffect, hr, he]
  have htokens :
      (s.applyEffect i jobId eff).tokens cfg id + (decide (jobId = id) && pc.active).toNat =
      s.tokens cfg id + (decide (jobId = id) && eff.next.active).toNat +
        (decide (jobId = id) && eff.retryTimer.isSome).toNat := by
    rw [tokens, tokens, hqueue, htimers]
    simp only [Task.holds] at htasks
    change _ + (s.tasks.set i _).countP _ + _ + _ = _
    omega
  rw [statusOf_applyEffect]
  by_cases he : jobId = id
  · subst he
    obtain ⟨hle, hpatch⟩ := execPiece_tokens heff hG
    simp only [decide_true, Bool.true_and] at htokens
    have hs := h jobId
    rw [if_pos rfl]
    cases hp : eff.patch with
    | none =>
        simp only [Option.bind_none, Option.getD_none, Option.map_id']
        omega
    | some patch =>
        -- the invocation holds the only token, so the job is stored and unsettled
        obtain ⟨hactive, status, hst, hsettled⟩ := hpatch patch hp
        have hone : 1 ≤ s.tokens cfg jobId := one_le_tokens cfg hi (by simp [Task.holds, hactive])
        cases hstored : s.storage.statusOf jobId with
        | none =>
            rw [hstored, allowance] at hs
            omega
        | some old =>
            have hold : allowance (some old) ≤ 1 := by
              rw [allowance]
              split <;> omega
            rw [hstored] at hs
            rw [hactive] at htokens hle
            simp only [Option.bind_some, hst, Option.getD_some, Option.map_some, allowance]
            split
            next hset =>
                obtain ⟨hnext, hretry⟩ := hsettled hset
                simp only [hnext, hretry, Option.isSome_none, Bool.toNat_false,
                  Bool.toNat_true] at htokens
                omega
            next =>
                simp only [Bool.toNat_true] at htokens hle
                omega
  · simp only [he, decide_false, Bool.false_and, Bool.toNat_false, Nat.add_zero] at htokens
    rw [if_neg he, htokens]
    exact h id

/-- The storage changes, but neither the queue nor how many hands a job may be in. -/
lemma TokenInv.setStorage (h : TokenInv cfg s) {storage : InMemoryStorage V}
    (hqueue : storage.queueOf cfg.name = s.storage.queueOf cfg.name)
    (hstatus : ∀ id, allowance (storage.statusOf id) = allowance (s.storage.statusOf id)) :
    TokenInv cfg { s with storage := storage } := by
  intro id
  simp only [tokens, hqueue, hstatus]
  exact h id

/-- A timer that fires passes its token on to the callback. -/
lemma TokenInv.fireTimer (h : TokenInv cfg s) {timer : RetryTimer} (ht : timer ∈ s.timers) :
    TokenInv cfg (s.fireTimer cfg timer) := by
  have hdisarm : ∀ id, (s.disarm timer).tokens cfg id + (decide (timer.jobId = id)).toNat =
      s.tokens cfg id := by
    intro id
    have hperm := (List.perm_cons_erase ht).countP_eq (fun timer : RetryTimer => timer.jobId = id)
    rw [List.countP_cons] at hperm
    simp only [tokens, disarm, hperm]
    by_cases he : timer.jobId = id <;> simp [he]; omega
  intro id
  have hle := h id
  have hd := hdisarm id
  rw [QueueInstance.fireTimer]
  split
  · change (s.disarm timer).tokens cfg id ≤ allowance (s.storage.statusOf id)
    omega
  · rw [tokens_spawn]
    change _ ≤ allowance (s.storage.statusOf id)
    have hholds : (Task.holds id (.retry timer.jobId timer.attempt
        (.got (s.read cfg timer.jobId)) : Task V)).toNat ≤ (decide (timer.jobId = id)).toNat := by
      rw [Task.holds]
      cases decide (timer.jobId = id) <;> simp [Bool.toNat_le]
    omega

/-- An abort moves a running handler on without a change of hands. -/
lemma tokens_abort (jobId id : String) : (s.abort jobId).tokens cfg id = s.tokens cfg id := by
  have htasks : (s.abort jobId).tasks.countP (Task.holds id) = s.tasks.countP (Task.holds id) := by
    obtain ⟨_, he | ⟨i, id', job, reg, hi, he⟩⟩ := abort_cases s jobId
    · rw [he]
    · have := List.countP_set_add (Task.holds id)
        (.exec id' (.raceSettled job reg (.rejected { message := "Job cancelled" }))) hi
      simp only [Task.holds, ExecPc.active] at this
      rw [he]
      exact Nat.add_right_cancel this
  rw [tokens, tokens, abort_storage, htasks, abort_timers]

/-- A loop that takes an item out of the queue has the job of the item in hand. -/
lemma TokenInv.take (h : TokenInv cfg s) {i pick : ℕ} {pc : LoopPc V}
    {item : PriorityQueueItem (Job V)}
    {storage : InMemoryStorage V} (hi : s.tasks[i]? = some (.loop pc)) (hpc : pc.held = none)
    (hitem : (s.storage.queueOf cfg.name)[pick]? = some item)
    (hjobs : storage.jobs = s.storage.jobs)
    (hq : storage.queueOf cfg.name = (s.storage.queueOf cfg.name).eraseIdx pick) :
    TokenInv cfg ({ s with storage := storage }.setTask i
      (.loop (.dequeued (some item.data)))) := by
  intro id
  have hset := tokens_setTask cfg (s := { s with storage := storage }) hi
    (.loop (.dequeued (some item.data))) id
  have herase :=
    List.countP_eraseIdx_add (fun item : PriorityQueueItem (Job V) => item.data.id = id) hitem
  have hst : storage.statusOf id = s.storage.statusOf id := by
    rw [InMemoryStorage.statusOf, hjobs, InMemoryStorage.statusOf]
  have hle := h id
  change _ ≤ allowance (storage.statusOf id)
  rw [hst]
  have hheld : Task.holds id (.loop pc : Task V) = false := by
    rw [Task.holds, hpc]
    rfl
  have hitemheld : Task.holds id (.loop (.dequeued (some item.data)) : Task V) =
      decide (item.data.id = id) := rfl
  rw [hheld, hitemheld] at hset
  simp only [tokens, hq, Bool.toNat_false] at hset hle ⊢
  omega

/-- A loop passes the job on to the invocation that it starts. -/
lemma TokenInv.launch (h : TokenInv cfg s) {i : ℕ} {job : Job V}
    (hi : s.tasks[i]? = some (.loop (.dequeued (some job)))) :
    TokenInv cfg ((s.launch cfg job).setTask i (.loop .delaying)) := by
  intro id
  have hi' : (s.launch cfg job).tasks[i]? = some (.loop (.dequeued (some job))) :=
    getElem?_launch job hi
  have hset := tokens_setTask cfg hi' (.loop .delaying) id
  have hspawn : (s.launch cfg job).tokens cfg id = s.tokens cfg id +
      (Task.holds id (.exec job.id (.gotJob (s.read cfg job.id)) : Task V)).toNat :=
    tokens_spawn (s := { s with runningJobs := OrdSet.add s.runningJobs job.id }) _ id
  have hle := h id
  have hholds : (Task.holds id (.exec job.id (.gotJob (s.read cfg job.id)) : Task V)).toNat ≤
      (Task.holds id (.loop (.dequeued (some job)) : Task V)).toNat := by
    simp only [Task.holds, LoopPc.held, Option.any_some]
    cases decide (job.id = id) <;> simp [Bool.toNat_le]
  have hidle : Task.holds id (.loop .delaying : Task V) = false := rfl
  rw [hidle, Bool.toNat_false] at hset
  change _ ≤ allowance (s.storage.statusOf id)
  omega

/-- The write of `cancelJob` to a job that is not settled takes nothing out of any hands. -/
lemma TokenInv.writeCancelled (h : TokenInv cfg s) {i : ℕ} {jobId : String}
    {reason : Option String} {job : Job V} (now : ℕ)
    (hi : s.tasks[i]? = some (.cancel jobId reason (.got (some job))))
    (hG : terminalGuard.cancel s jobId job) :
    TokenInv cfg (s.writeCancelled i jobId reason now job) := by
  have habort : TokenInv cfg (s.abort jobId) := fun id => by
    rw [tokens_abort, abort_storage]
    exact h id
  have hwrite : TokenInv cfg { s.abort jobId with
      storage := (s.abort jobId).storage.updateJob jobId (.cancelled now) } := by
    refine habort.setStorage (by simp) fun id => ?_
    rw [InMemoryStorage.statusOf_updateJob, abort_storage]
    split
    next he =>
        subst he
        have hG' : (s.storage.statusOf jobId).any JobStatus.isSettled = false := hG
        cases hst : s.storage.statusOf jobId with
        | none => rfl
        | some status =>
            rw [hst] at hG'
            have hns : status.isSettled = false := hG'
            simp only [Option.map_some, JobPatch.cancelled, Option.getD_some, allowance, hns]
            rfl
    next => rfl
  exact hwrite.setTask (getElem?_abort hi (by simp)) fun id hid => hid

/-- A retry callback passes the job on to the entry that it makes. -/
lemma TokenInv.reenqueue (ho : Owned cfg s) (h : TokenInv cfg s) {i : ℕ} {jobId : String}
    {attempt : ℕ} {job : Job V} (now : ℕ)
    (hi : s.tasks[i]? = some (.retry jobId attempt (.got (some job))))
    (hst : job.status = .queued) :
    TokenInv cfg ({ s with storage := s.storage.enqueue cfg.name job now }.setTask i
      (.retry jobId attempt .enqueued)) := by
  intro id
  obtain rfl : job.id = jobId := ho.retry (List.mem_of_getElem? hi)
  have hset := tokens_setTask cfg
    (s := { s with storage := s.storage.enqueue cfg.name job now }) hi
    (.retry job.id attempt .enqueued) id
  have henq := tokens_enqueue cfg (s := s) job now id
  have hle := h id
  have hholds : Task.holds id (.retry job.id attempt (.got (some job)) : Task V) =
      decide (job.id = id) := by simp [Task.holds, RetryPc.pending, hst]
  have hdone : Task.holds id (.retry job.id attempt .enqueued : Task V) = false := by
    simp [Task.holds, RetryPc.pending]
  rw [hholds, hdone, henq] at hset
  change _ ≤ allowance ((s.storage.enqueue cfg.name job now).statusOf id)
  rw [InMemoryStorage.statusOf_enqueue]
  split
  next he =>
      have hone : allowance (s.storage.statusOf id) ≤ 1 := by
        rw [allowance.eq_def]
        split
        · omega
        · split <;> omega
      rw [hst]
      simp only [allowance, JobStatus.isSettled, Bool.false_eq_true, if_false]
      rw [decide_eq_true he, Bool.toNat_true, Bool.toNat_false] at hset
      omega
  next he =>
      rw [decide_eq_false he, Bool.toNat_false] at hset
      omega

/-- **One move keeps the invariant of tokens.** -/
lemma TokenInv.move (ho : Owned cfg s) (h : TokenInv cfg s) (hm : Move cfg terminalGuard s s') :
    TokenInv cfg s' := by
  cases hm with
  | add job now hfresh hst hretries =>
      intro id
      rw [tokens_enqueue, InMemoryStorage.statusOf_enqueue]
      have hle := h id
      by_cases he : job.id = id
      · subst he
        rw [InMemoryStorage.statusOf, hfresh] at hle
        simp only [Option.map_none, allowance] at hle
        simp only [decide_true, Bool.toNat_true, if_true, hst, allowance, JobStatus.isSettled]
        simpa using hle
      · simpa [he] using hle
  | exec hi heff hG => exact h.applyEffect hi heff hG
  | settle outcome hi => exact h.setTask hi fun id hid => hid
  | flags running down => exact h
  | spawnLoop => exact h.spawn fun id => rfl
  | idle hi hpc hpc' =>
      refine h.setTask hi fun id hid => ?_
      rw [Task.holds, hpc'] at hid
      cases hid
  | take hi hpc hitem hjobs howner hq hG => exact h.take hi hpc hitem hjobs hq
  | launch hi => exact h.launch hi
  | beginCancel jobId reason => exact h.spawn fun id => rfl
  | writeCancelled now hi hG => exact h.writeCancelled now hi hG
  | cancel hi hpc hgot => exact h.setTask hi fun id hid => hid
  | reenqueue now hi hst => exact h.reenqueue ho now hi hst
  | @retry i jobId attempt pc hi hpc =>
      exact h.setTask hi fun id hid => absurd hid (by simp [Task.holds, RetryPc.pending])
  | @fire timer ht hG => exact h.fireTimer ht
  | beginStop graceful => exact h.spawn fun id => rfl
  | stop pc' hi => exact h.setTask hi fun id hid => hid
  | clearRetryTimers =>
      intro id
      refine Nat.le_trans ?_ (h id)
      have : s.clearRetryTimers.timers.countP (·.jobId = id) ≤ s.timers.countP (·.jobId = id) :=
        List.Sublist.countP_le List.filter_sublist
      simp only [tokens, QueueInstance.clearRetryTimers] at this ⊢
      omega
  | progress jobId percent message =>
      refine h.setStorage (by simp) fun id => ?_
      rw [InMemoryStorage.statusOf_updateJob]
      split
      · simp [JobPatch.reported]
      · rfl

/-! ### Runs -/

/-- The job is stored with the given status, result and time of completion. -/
def StoredAs (s : QueueInstance V) (id : String) (status : JobStatus) (result : Option V)
    (completedAt : Option ℕ) : Prop :=
  ∃ job, s.storage.jobs.get id = some job ∧ job.status = status ∧ job.result = result ∧
    job.completedAt = completedAt

/-- A settled job is in nobody's hands. -/
lemma TokenInv.holds_eq_false (h : TokenInv cfg s) {id : String} {status : JobStatus}
    (hst : s.storage.statusOf id = some status) (hset : status.isSettled = true) {i : ℕ}
    {t : Task V} (hi : s.tasks[i]? = some t) : t.holds id = false := by
  cases hh : t.holds id with
  | false => rfl
  | true =>
      have hone := one_le_tokens cfg hi hh
      have hle := h id
      rw [hst, allowance, if_pos hset] at hle
      omega

/-- **One move leaves the record of a settled job alone**, but for its progress. -/
lemma StoredAs.move {id : String} {status : JobStatus} {result : Option V} {completedAt : Option ℕ}
    (hs : s.StoredAs id status result completedAt) (hset : status.isSettled = true)
    (ho : Owned cfg s) (h : TokenInv cfg s) (hm : Move cfg terminalGuard s s') :
    s'.StoredAs id status result completedAt := by
  obtain ⟨job, hj, rfl, hr, hc⟩ := hs
  have hstatus : s.storage.statusOf id = some job.status := by
    rw [InMemoryStorage.statusOf, hj]
    rfl
  cases hm with
  | add job' now hfresh hst hretries =>
      refine ⟨job, ?_, rfl, hr, hc⟩
      have hne : job'.id ≠ id := by
        rintro rfl
        rw [hj] at hfresh
        cases hfresh
      rw [InMemoryStorage.enqueue_jobs, OrdMap.get_set_ne _ _ hne]
      exact hj
  | @exec i jobId pc env eff hi heff hG =>
      refine ⟨job, ?_, rfl, hr, hc⟩
      cases hp : eff.patch with
      | none => simpa only [QueueInstance.applyEffect, hp] using hj
      | some patch =>
          have hne : jobId ≠ id := by
            rintro rfl
            have hactive := ((execPiece_tokens heff hG).2 patch hp).1
            have := h.holds_eq_false hstatus hset hi
            simp [Task.holds, hactive] at this
          simp only [QueueInstance.applyEffect, hp, InMemoryStorage.get_updateJob, if_neg hne]
          exact hj
  | take hi hpc hitem hjobs howner hq hG => exact ⟨job, hjobs ▸ hj, rfl, hr, hc⟩
  | @writeCancelled i jobId reason job' now hi hG =>
      refine ⟨job, ?_, rfl, hr, hc⟩
      have hne : jobId ≠ id := by
        rintro rfl
        have hG' : (s.storage.statusOf jobId).any JobStatus.isSettled = false := hG
        rw [hstatus, Option.any_some, hset] at hG'
        cases hG'
      simp only [QueueInstance.writeCancelled, QueueInstance.setTask, abort_storage,
        InMemoryStorage.get_updateJob, if_neg hne]
      exact hj
  | @reenqueue i jobId attempt job' now hi hst =>
      refine ⟨job, ?_, rfl, hr, hc⟩
      have hid : job'.id = jobId := ho.retry (List.mem_of_getElem? hi)
      have hne : job'.id ≠ id := by
        rintro rfl
        have := h.holds_eq_false hstatus hset hi
        simp [Task.holds, RetryPc.pending, hst, hid] at this
      simp only [QueueInstance.setTask, InMemoryStorage.enqueue_jobs, OrdMap.get_set_ne _ _ hne]
      exact hj
  | fire ht hG =>
      refine ⟨job, ?_, rfl, hr, hc⟩
      rw [QueueInstance.fireTimer]
      split <;> exact hj
  | progress jobId percent message =>
      simp only [StoredAs, InMemoryStorage.get_updateJob]
      split
      · exact ⟨(JobPatch.reported percent message).apply job, by rw [hj]; rfl, rfl, hr, hc⟩
      · exact ⟨job, hj, rfl, hr, hc⟩
  | _ => exact ⟨job, hj, rfl, hr, hc⟩

/-- The invariant holds along a chain of guarded moves. -/
lemma tokenInv_of_moves (ho : Owned cfg s) (h : TokenInv cfg s)
    (hm : Moves cfg terminalGuard s s') : Owned cfg s' ∧ TokenInv cfg s' := by
  induction hm with
  | refl => exact ⟨ho, h⟩
  | tail _ hm ih => exact ⟨ih.1.move hm, ih.2.move ih.1 hm⟩

/-- **Completed and failed are final** in every run that meets the guard: from a state in
which a job is stored as completed or failed on, its status, its result and its time of
completion are the same in every later state. -/
theorem terminal_absorbing {as bs : List (Action V)} {s t : QueueInstance V} {id : String}
    {job : Job V} (hguard : Meets (step cfg) (Allowed cfg terminalGuard) {} (as ++ bs))
    (hs : exec (step cfg) {} as = some s) (ht : exec (step cfg) s bs = some t)
    (hj : s.storage.jobs.get id = some job) (hst : job.status = .completed ∨ job.status = .failed) :
    ∃ job', t.storage.jobs.get id = some job' ∧ job'.status = job.status ∧
      job'.result = job.result ∧ job'.completedAt = job.completedAt := by
  obtain ⟨has, hbs⟩ := (meets_append hs).mp hguard
  obtain ⟨ho, h⟩ := tokenInv_of_moves Owned.init TokenInv.init (run_moves has hs)
  have hset : job.status.isSettled = true := by
    rcases hst with hst | hst <;> rw [hst] <;> rfl
  have key : t.StoredAs id job.status job.result job.completedAt := by
    have hm := run_moves hbs ht
    clear ht
    induction hm with
    | refl => exact ⟨job, hj, rfl, rfl, rfl⟩
    | tail hms hm ih =>
        obtain ⟨ho', h'⟩ := tokenInv_of_moves ho h hms
        exact ih.move hset ho' h' hm
  exact key

/-- A job is taken on and its handler succeeds. -/
def runToCompletion : List (Action ℕ) :=
  [.add "a" "t" 0 {} 0, .start {}, .resume 0 {}, .resume 1 {}, .resume 1 {}, .resume 1 {},
    .resume 1 {}, .settle 1 (.resolved 7), .resume 1 {}, .resume 1 { now := 3 }]

/-- The invocation runs to its end and the queue is stopped. -/
def finishAndStop : List (Action ℕ) :=
  [.resume 1 {}, .resume 1 {}, .resume 1 {}, .resume 1 {}, .stop true, .resume 2 {}]

theorem terminal_absorbing_runToCompletion :
    ∃ s t job, exec (step demoConfig) {} runToCompletion = some s ∧
      exec (step demoConfig) s finishAndStop = some t ∧
      Meets (step demoConfig) (Allowed demoConfig terminalGuard) {}
        (runToCompletion ++ finishAndStop) ∧
      s.storage.jobs.get "a" = some job ∧ job.status = .completed ∧
      ∃ job', t.storage.jobs.get "a" = some job' ∧ job'.status = job.status ∧
        job'.result = job.result ∧ job'.completedAt = job.completedAt := by
  have hguard : Meets (step demoConfig) (Allowed demoConfig terminalGuard) {}
      (runToCompletion ++ finishAndStop) := by decide
  exact ⟨_, _, _, rfl, rfl, hguard, rfl, rfl,
    terminal_absorbing hguard rfl rfl rfl (Or.inl rfl)⟩

/-- The completed job is cancelled. -/
def cancelCompleted : List (Action ℕ) := [.cancelJob "a" none, .resume 2 { now := 9 }]

/-- `cancelJob` overwrites a completed job. -/
theorem not_terminal_absorbing :
    ¬ ∀ (cfg : QueueConfig ℕ) (as bs : List (Action ℕ)) (s t : QueueInstance ℕ) (id : String)
        (job : Job ℕ),
      exec (step cfg) {} as = some s → exec (step cfg) s bs = some t →
      s.storage.jobs.get id = some job → (job.status = .completed ∨ job.status = .failed) →
      ∃ job', t.storage.jobs.get id = some job' ∧ job'.status = job.status ∧
        job'.result = job.result ∧ job'.completedAt = job.completedAt := by
  intro h
  obtain ⟨job', hj', hst, -⟩ :=
    h demoConfig runToCompletion cancelCompleted _ _ "a" _ rfl rfl rfl (Or.inl rfl)
  obtain rfl := Option.some.inj hj'
  cases hst

/-- A listener that throws on `job:completed` sends a completed job back to the queue. -/
example : (exec (step demoConfig) {} (runToCompletion ++
    [.resume 1 {}, .resume 1 { throws := some { message := "listener" } }, .resume 1 {},
      .resume 1 {}])).map (·.storage.statusOf "a") = some (some .queued) := by
  decide

end QueueInstance

end Blaize.Queue
