import Blaize.Queue.Moves

/-!
Is a cancellation final?

`cancelJob` writes the status `cancelled` and aborts the handler, but it leaves the item
of a queued job in the priority queue, and most of the writers of a status do not look at
the stored one first.  A cancellation lasts as long as it does not meet one of them on its
way:

* `ExecPc.Harmless`: the places where an `executeJob` invocation waits from which a
  cancelled job is neither overwritten nor started;
* `cancelGuard`: `cancelJob` writes only when whatever works on the job is harmless once
  aborted, and a loop takes no cancelled job out of the queue;
* `execPiece_harmless`: a harmless invocation stays harmless while the job is cancelled;
* `cancelled_final`: **in a run that meets the guard a cancelled job stays cancelled and
  its handler is not started again**;
* `not_cancelled_final`: without it, a queued job that was cancelled is run all the same.
-/

namespace Blaize.Queue

open Machine

variable {V : Type}

/-- From here on a job that is stored as cancelled is neither given another status nor
started: either nothing is written any more, or the status is looked at again before, or
the look that decides has already seen the cancellation. -/
def ExecPc.Harmless : ExecPc V → Prop
  | .gotJob job => job = none
  | .markedRunning _ _ _ => False
  | .gotRunning _ _ _ _ => False
  | .publishedStarted _ _ _ => False
  | .handlerRunning _ _ => False
  | .raceSettled _ reg (.resolved result) => (reg.outputSchema result).isOk = true
  | .raceSettled _ _ (.rejected _) => True
  | .completionGot _ _ currentJob => currentJob.map Job.status = some .cancelled
  | .failureGot _ err currentJob =>
      currentJob.map Job.status = some .cancelled ∨ failureKind err.message = .cancelled
  | _ => True

instance ExecPc.Harmless.decidable : (pc : ExecPc V) → Decidable pc.Harmless
  | .gotJob none => .isTrue rfl
  | .gotJob (some _) => .isFalse nofun
  | .markedRunning _ _ _ => .isFalse id
  | .gotRunning _ _ _ _ => .isFalse id
  | .publishedStarted _ _ _ => .isFalse id
  | .handlerRunning _ _ => .isFalse id
  | .raceSettled _ reg (.resolved result) =>
      inferInstanceAs (Decidable ((reg.outputSchema result).isOk = true))
  | .completionGot _ _ currentJob =>
      inferInstanceAs (Decidable (currentJob.map Job.status = some .cancelled))
  | .failureGot _ err currentJob =>
      inferInstanceAs (Decidable (currentJob.map Job.status = some .cancelled ∨
        failureKind err.message = .cancelled))
  | .raceSettled _ _ (.rejected _) | .noHandlerUpdated _ | .noHandlerGot _ _
  | .noHandlerPublished _ | .invalidUpdated _ _ | .invalidGot _ _ _ | .invalidPublished _ _
  | .completedUpdated _ | .completedGot _ _ | .completedPublished _ | .caught _ _
  | .cancelledUpdated _ | .cancelledGot _ _ | .retryUpdated _ _ | .retryGot _ _ _
  | .failedUpdated _ | .failedGot _ _ | .failedPublished _ | .finishing _ | .rejected
  | .settled => .isTrue trivial

/-- A task that does no harm to the cancellation of the job `id`. -/
def Task.Harmless (id : String) : Task V → Prop
  | .loop pc => ∀ job ∈ pc.held, job.id ≠ id
  | .exec jobId pc => jobId = id → pc.Harmless
  | .retry jobId _ pc => jobId = id → pc.pending.isNone = true
  | .cancel _ _ _ => True
  | .stop _ => True

instance (id : String) : (task : Task V) → Decidable (task.Harmless id)
  | .loop pc => inferInstanceAs (Decidable (∀ job ∈ pc.held, job.id ≠ id))
  | .exec jobId pc => inferInstanceAs (Decidable (jobId = id → pc.Harmless))
  | .retry jobId _ pc => inferInstanceAs (Decidable (jobId = id → pc.pending.isNone = true))
  | .cancel _ _ _ => .isTrue trivial
  | .stop _ => .isTrue trivial

/-- **The condition for cancellations to last.**  A `cancelJob` call that found the job
queued or running writes only when, after its abort, whatever works on the job is
harmless; and a loop takes no job out of the queue that is stored as cancelled. -/
def cancelGuard : Guard V where
  cancel s jobId job :=
    job.status = .queued ∨ job.status = .running →
      ∀ task ∈ (s.abort jobId).tasks, task.Harmless jobId
  take storage id := storage.statusOf id ≠ some .cancelled

instance (s : QueueInstance V) (jobId : String) (job : Job V) :
    Decidable (cancelGuard.cancel s jobId job) :=
  inferInstanceAs (Decidable (_ ∨ _ → ∀ task ∈ (s.abort jobId).tasks, _))

instance (storage : InMemoryStorage V) (id : String) : Decidable (cancelGuard.take storage id) :=
  inferInstanceAs (Decidable (_ ≠ _))

instance (s : QueueInstance V) (jobId : String) : Decidable (cancelGuard.fire s jobId) :=
  .isTrue trivial

instance (jobId : String) (pc : ExecPc V) (env : Env) : Decidable (cancelGuard.exec jobId pc env) :=
  .isTrue trivial

/-! ### A harmless invocation -/

/-- **A harmless piece of `executeJob`** run on a cancelled job leaves it cancelled, does
not start the handler, and waits at a harmless place again. -/
lemma execPiece_harmless {cfg : QueueConfig V} {read : Option (Job V)} {env : Env}
    {pc : ExecPc V} {eff : Effect V} (h : execPiece cfg read env pc = some eff)
    (hread : read.map Job.status = some .cancelled) (hpc : pc.Harmless) :
    eff.next.Harmless ∧ eff.started = none ∧
      ∀ patch, eff.patch = some patch → patch.status = some .cancelled := by
  cases pc with
  | gotJob job =>
      obtain rfl : job = none := hpc
      cases h
      exact ⟨trivial, rfl, by simp⟩
  | markedRunning job reg input => cases hpc
  | gotRunning job reg input runningJob => cases hpc
  | publishedStarted job reg input => cases hpc
  | handlerRunning job reg => cases hpc
  | raceSettled job reg outcome =>
      cases h
      cases outcome with
      | rejected err => exact ⟨Or.inl hread, rfl, by simp [outcomePiece, failurePiece]⟩
      | resolved result =>
          rw [outcomePiece]
          cases ho : reg.outputSchema result with
          | error issues => simp [ExecPc.Harmless, ho, Except.isOk, Except.toBool] at hpc
          | ok output => exact ⟨hread, rfl, by simp⟩
  | completionGot job result currentJob =>
      cases h
      have hc : currentJob.map Job.status = some .cancelled := hpc
      rw [completionDecision, if_pos hc]
      exact ⟨trivial, rfl, by simp⟩
  | failureGot job err currentJob =>
      cases h
      rw [failureDecision]
      rcases hpc with hc | hk
      · rw [if_pos hc]
        exact ⟨trivial, rfl, by simp⟩
      · split
        · exact ⟨trivial, rfl, by simp⟩
        · simp only [hk]
          exact ⟨trivial, trivial, by simp [JobPatch.cancelled]⟩
  | caught job err =>
      cases h
      exact ⟨Or.inl hread, rfl, by simp [failurePiece]⟩
  | noHandlerGot job failedJob | invalidGot job inTry failedJob | completedGot job failedJob
  | cancelledGot job failedJob | failedGot job failedJob =>
      cases failedJob <;> cases ht : env.throws <;> simp only [execPiece, ht] at h <;> cases h <;>
        refine ⟨?_, rfl, by simp⟩ <;> (try split) <;> trivial
  | invalidPublished job inTry =>
      cases h
      refine ⟨?_, rfl, by simp⟩
      dsimp only
      split <;> trivial
  | retryGot job attempt updatedJob =>
      simp only [execPiece] at h
      split at h <;> cases h <;> exact ⟨trivial, rfl, by simp⟩
  | finishing threw =>
      cases h
      refine ⟨?_, rfl, by simp⟩
      dsimp only
      split <;> trivial
  | settled => cases h
  | _ =>
      cases h
      exact ⟨trivial, rfl, by simp⟩

namespace QueueInstance

/-! ### The invariant of cancelled jobs -/

/-- A `cancelJob` call that found the job queued or running has written its cancellation. -/
def Sealed (s : QueueInstance V) (id : String) : Prop :=
  ∃ reason pc job, Task.cancel id reason pc ∈ s.tasks ∧ pc.wrote = some job ∧
    (job.status = .queued ∨ job.status = .running)

/-- A sealed job is stored as cancelled and nothing that is going on can change this; a
`cancelJob` call in progress has found a job that is still stored. -/
structure CancelInv (s : QueueInstance V) : Prop where
  status : ∀ {id}, s.Sealed id → s.storage.statusOf id = some .cancelled
  harmless : ∀ {id}, s.Sealed id → ∀ task ∈ s.tasks, task.Harmless id
  found : ∀ {id reason job}, Task.cancel id reason (.got (some job)) ∈ s.tasks →
    (s.storage.statusOf id).isSome

variable {cfg : QueueConfig V} {s s' : QueueInstance V}

lemma Sealed.of_tasks {id : String} (h : s'.Sealed id)
    (htasks : ∀ t ∈ s'.tasks, t ∈ s.tasks ∨ ∀ reason pc job, t = .cancel id reason pc →
      pc.wrote ≠ some job) : s.Sealed id := by
  obtain ⟨reason, pc, job, hm, hw, hst⟩ := h
  rcases htasks _ hm with hm | hm
  · exact ⟨reason, pc, job, hm, hw, hst⟩
  · exact absurd hw (hm reason pc job rfl)

/-- The invariant is kept by whatever leaves the sealed jobs cancelled and adds only
harmless tasks that write no cancellation. -/
lemma CancelInv.keep (h : CancelInv s)
    (hstatus : ∀ id, s.Sealed id → s'.storage.statusOf id = s.storage.statusOf id)
    (hsome : ∀ id, (s.storage.statusOf id).isSome → (s'.storage.statusOf id).isSome)
    (htasks : ∀ t ∈ s'.tasks, t ∈ s.tasks ∨
      ((∀ id, s.Sealed id → t.Harmless id) ∧
        ∀ id reason pc, t = .cancel id reason pc → pc.wrote = none ∧
          ∀ job, pc = .got (some job) → (s.storage.statusOf id).isSome)) : CancelInv s' := by
  have hseal : ∀ {id}, s'.Sealed id → s.Sealed id := fun hs => hs.of_tasks fun t ht => by
    rcases htasks t ht with ht | ht
    · exact Or.inl ht
    · refine Or.inr fun reason pc job he => ?_
      rw [(ht.2 _ reason pc he).1]
      simp
  refine ⟨fun hs => ?_, fun hs t ht => ?_, fun hm => ?_⟩
  · rw [hstatus _ (hseal hs)]
    exact h.status (hseal hs)
  · rcases htasks t ht with ht | ht
    · exact h.harmless (hseal hs) t ht
    · exact ht.1 _ (hseal hs)
  · rcases htasks _ hm with hm | hm
    · exact hsome _ (h.found hm)
    · exact hsome _ ((hm.2 _ _ _ rfl).2 _ rfl)

/-- A task is put in place of another. -/
lemma CancelInv.setTask (h : CancelInv s) {i : ℕ} {t : Task V}
    (hharm : ∀ id, s.Sealed id → t.Harmless id)
    (hcancel : ∀ id reason pc, t ≠ .cancel id reason pc) : CancelInv (s.setTask i t) := by
  refine h.keep (fun _ _ => rfl) (fun _ hs => hs) fun u hu => ?_
  rcases List.mem_or_eq_of_mem_set hu with hu | rfl
  · exact Or.inl hu
  · exact Or.inr ⟨hharm, fun id reason pc he => absurd he (hcancel id reason pc)⟩

lemma CancelInv.spawn (h : CancelInv s) {t : Task V}
    (hharm : ∀ id, s.Sealed id → t.Harmless id)
    (hcancel : ∀ id reason pc, t = .cancel id reason pc → pc.wrote = none ∧
      ∀ job, pc = .got (some job) → (s.storage.statusOf id).isSome) : CancelInv (s.spawn t) := by
  refine h.keep (fun _ _ => rfl) (fun _ hs => hs) fun u hu => ?_
  rcases List.mem_append.mp hu with hu | hu
  · exact Or.inl hu
  · obtain rfl := List.mem_singleton.mp hu
    exact Or.inr ⟨hharm, hcancel⟩

/-- A change of the storage that keeps the jobs it has and leaves the sealed ones alone. -/
lemma CancelInv.setStorage (h : CancelInv s) {storage : InMemoryStorage V}
    (hstatus : ∀ id, s.Sealed id → storage.statusOf id = s.storage.statusOf id)
    (hsome : ∀ id, (s.storage.statusOf id).isSome → (storage.statusOf id).isSome) :
    CancelInv { s with storage := storage } :=
  h.keep hstatus hsome fun _ ht => Or.inl ht

/-- The job is known to be cancelled, so it is not one with another status. -/
lemma CancelInv.ne_of_status (h : CancelInv s) {id id' : String} (hs : s.Sealed id)
    (hst : s.storage.statusOf id' ≠ some .cancelled) : id' ≠ id := by
  rintro rfl
  exact hst (h.status hs)

/-- The write of `cancelJob` seals the job that it names. -/
lemma CancelInv.writeCancelled (h : CancelInv s) {i : ℕ} {jobId : String} {reason : Option String}
    {job : Job V} (now : ℕ) (hi : s.tasks[i]? = some (.cancel jobId reason (.got (some job))))
    (hG : cancelGuard.cancel s jobId job) :
    CancelInv (s.writeCancelled i jobId reason now job) := by
  have hmem : ∀ t ∈ (s.writeCancelled i jobId reason now job).tasks,
      t ∈ (s.abort jobId).tasks ∨ t = .cancel jobId reason (.updated job) :=
    fun t ht => List.mem_or_eq_of_mem_set ht
  have hstatus : ∀ id, (s.writeCancelled i jobId reason now job).storage.statusOf id =
      if jobId = id then (s.storage.statusOf id).map fun _ => .cancelled
      else s.storage.statusOf id := by
    intro id
    simp only [QueueInstance.writeCancelled, QueueInstance.setTask, abort_storage,
      InMemoryStorage.statusOf_updateJob, JobPatch.cancelled, Option.getD_some]
  -- an abort only makes a running handler harmless
  have habort : ∀ id, s.Sealed id → ∀ t ∈ (s.abort jobId).tasks, t.Harmless id := by
    intro id hs t ht
    rcases mem_abort_tasks ht with ht | ⟨id', job', reg, ht, rfl⟩
    · exact h.harmless hs t ht
    · exact fun _ => trivial
  have hcase : ∀ id, (s.writeCancelled i jobId reason now job).Sealed id →
      s.Sealed id ∨ (id = jobId ∧ (job.status = .queued ∨ job.status = .running)) := by
    rintro id ⟨reason', pc, job', hm, hw, hst⟩
    rcases hmem _ hm with hm | hm
    · rcases mem_abort_tasks hm with hm | ⟨_, _, _, -, he⟩
      · exact Or.inl ⟨reason', pc, job', hm, hw, hst⟩
      · cases he
    · cases hm
      exact Or.inr ⟨rfl, Option.some.inj hw ▸ hst⟩
  have hfound := h.found (List.mem_of_getElem? hi)
  refine ⟨fun {id} hs => ?_, fun {id} hs t ht => ?_, fun {id} _ _ hm => ?_⟩
  · rw [hstatus]
    split
    next he =>
        obtain ⟨status, hst⟩ := Option.isSome_iff_exists.mp hfound
        rw [← he, hst]
        rfl
    next hne =>
        rcases hcase id hs with hs | ⟨rfl, -⟩
        · exact h.status hs
        · exact absurd rfl hne
  · rcases hmem t ht with ht | rfl
    · rcases hcase id hs with hs | ⟨rfl, hst⟩
      · exact habort id hs t ht
      · exact hG hst t ht
    · trivial
  · rcases hmem _ hm with hm | hm
    · rcases mem_abort_tasks hm with hm | ⟨_, _, _, -, he⟩
      · rw [hstatus]
        split
        · simpa using h.found hm
        · exact h.found hm
      · cases he
    · cases hm

/-- A piece of `executeJob` on a sealed job is harmless. -/
lemma CancelInv.exec_harmless (ho : Owned cfg s) (h : CancelInv s) {i : ℕ} {jobId : String}
    {pc : ExecPc V} {env : Env} {eff : Effect V} (hi : s.tasks[i]? = some (.exec jobId pc))
    (heff : execPiece cfg (s.read cfg jobId) env pc = some eff) (hs : s.Sealed jobId) :
    eff.next.Harmless ∧ eff.started = none ∧
      ∀ patch, eff.patch = some patch → patch.status = some .cancelled :=
  execPiece_harmless heff (by rw [ho.status_read, h.status hs])
    (h.harmless hs _ (List.mem_of_getElem? hi) rfl)

lemma CancelInv.applyEffect (ho : Owned cfg s) (h : CancelInv s) {i : ℕ} {jobId : String}
    {pc : ExecPc V} {env : Env} {eff : Effect V} (hi : s.tasks[i]? = some (.exec jobId pc))
    (heff : execPiece cfg (s.read cfg jobId) env pc = some eff) :
    CancelInv (s.applyEffect i jobId eff) := by
  refine h.keep (fun id hs => ?_) (fun id hid => ?_) fun t ht => ?_
  · rw [statusOf_applyEffect]
    split
    next he =>
        subst he
        obtain ⟨-, -, hpatch⟩ := h.exec_harmless ho hi heff hs
        rw [h.status hs]
        cases hp : eff.patch with
        | none => rfl
        | some patch => simp [hpatch patch hp]
    next => rfl
  · rw [statusOf_applyEffect]
    split
    · simpa using hid
    · exact hid
  · rcases List.mem_or_eq_of_mem_set ht with ht | rfl
    · exact Or.inl ht
    · refine Or.inr ⟨?_, by simp⟩
      rintro id hs rfl
      exact (h.exec_harmless ho hi heff hs).1

/-- **One move keeps the invariant of cancelled jobs.** -/
lemma CancelInv.move (ho : Owned cfg s) (h : CancelInv s) (hm : Move cfg cancelGuard s s') :
    CancelInv s' := by
  cases hm with
  | add job now hfresh hst hretries =>
      have hnone : s.storage.statusOf job.id = none := by
        rw [InMemoryStorage.statusOf, hfresh]
        rfl
      refine h.setStorage (fun id hs => ?_) (fun id hid => ?_)
      · rw [InMemoryStorage.statusOf_enqueue, if_neg (h.ne_of_status hs (by simp [hnone]))]
      · rw [InMemoryStorage.statusOf_enqueue]
        split
        · rfl
        · exact hid
  | exec hi heff hG => exact h.applyEffect ho hi heff
  | settle outcome hi =>
      refine h.setTask ?_ (by simp)
      rintro id hs rfl
      -- a sealed job has no handler that could still settle
      exact (h.harmless hs _ (List.mem_of_getElem? hi) rfl).elim
  | flags running down => exact h.keep (fun _ _ => rfl) (fun _ hs => hs) fun _ ht => Or.inl ht
  | spawnLoop => exact h.spawn (fun _ _ _ hj => by cases hj) (by simp)
  | idle hi hpc hpc' =>
      refine h.setTask (fun id _ job hj => ?_) (by simp)
      rw [hpc'] at hj
      cases hj
  | @take i pc pick item storage hi hpc hitem hjobs howner hq hG =>
      have hst : ∀ id, storage.statusOf id = s.storage.statusOf id := fun id => by
        rw [InMemoryStorage.statusOf, hjobs, InMemoryStorage.statusOf]
      have hsto : CancelInv { s with storage := storage } :=
        h.setStorage (fun id _ => hst id) fun id hid => by rwa [hst]
      refine hsto.setTask (fun id hs job hj => ?_) (by simp)
      cases hj
      exact h.ne_of_status hs hG
  | @launch i job hi =>
      have hne : ∀ id, s.Sealed id → job.id ≠ id := fun id hs =>
        h.harmless hs _ (List.mem_of_getElem? hi) job rfl
      have hrun : CancelInv { s with runningJobs := OrdSet.add s.runningJobs job.id } :=
        h.keep (fun _ _ => rfl) (fun _ hs => hs) fun _ ht => Or.inl ht
      have hlaunch : CancelInv (s.launch cfg job) :=
        hrun.spawn (fun id hs he => absurd he (hne id hs)) (by simp)
      exact hlaunch.setTask (fun _ _ _ hj => by cases hj) (by simp)
  | beginCancel jobId reason =>
      refine h.spawn (fun _ _ => trivial) fun id reason' pc he => ?_
      cases he
      refine ⟨rfl, fun job hr => ?_⟩
      have hr' : s.read cfg jobId = some job := CancelPc.got.inj hr
      rw [← ho.status_read, hr']
      rfl
  | writeCancelled now hi hG => exact h.writeCancelled now hi hG
  | @cancel i jobId reason pc pc' hi hpc hgot =>
      have hseal : ∀ id, (s.setTask i (.cancel jobId reason pc')).Sealed id → s.Sealed id := by
        rintro id ⟨reason', pc₁, job, hm, hw, hst⟩
        rcases List.mem_or_eq_of_mem_set hm with hm | hm
        · exact ⟨reason', pc₁, job, hm, hw, hst⟩
        · cases hm
          exact ⟨reason, pc, job, List.mem_of_getElem? hi, hpc ▸ hw, hst⟩
      refine ⟨fun hs => h.status (hseal _ hs), fun hs t ht => ?_, fun hm => ?_⟩
      · rcases List.mem_or_eq_of_mem_set ht with ht | rfl
        · exact h.harmless (hseal _ hs) t ht
        · trivial
      · rcases List.mem_or_eq_of_mem_set hm with hm | hm
        · exact h.found hm
        · cases hm
          exact absurd rfl (hgot _)
  | @reenqueue i jobId attempt job now hi hst =>
      have hid : job.id = jobId := ho.retry (List.mem_of_getElem? hi)
      have hne : ∀ id, s.Sealed id → job.id ≠ id := by
        rintro id hs rfl
        have := h.harmless hs _ (List.mem_of_getElem? hi) hid.symm
        simp [RetryPc.pending, hst] at this
      have hsto : CancelInv { s with storage := s.storage.enqueue cfg.name job now } := by
        refine h.setStorage (fun id hs => ?_) (fun id hid => ?_)
        · rw [InMemoryStorage.statusOf_enqueue, if_neg (hne id hs)]
        · rw [InMemoryStorage.statusOf_enqueue]
          split
          · rfl
          · exact hid
      exact hsto.setTask (fun _ _ _ => rfl) (by simp)
  | retry hi hpc => exact h.setTask (fun _ _ _ => rfl) (by simp)
  | @fire timer ht hG =>
      have hd : CancelInv (s.disarm timer) :=
        h.keep (fun _ _ => rfl) (fun _ hs => hs) fun _ ht => Or.inl ht
      rw [fireTimer]
      split
      · exact hd.keep (fun _ _ => rfl) (fun _ hs => hs) fun _ ht => Or.inl ht
      · refine hd.spawn ?_ (by simp)
        rintro id hs rfl
        -- the callback has just seen the cancellation
        have hr := ho.status_read timer.jobId
        rw [h.status hs] at hr
        obtain ⟨job, hj, hst⟩ := Option.map_eq_some_iff.mp hr
        rw [hj]
        simp [RetryPc.pending, hst]
  | beginStop graceful => exact h.spawn (fun _ _ => trivial) (by simp)
  | stop pc' hi => exact h.setTask (fun _ _ => trivial) (by simp)
  | clearRetryTimers => exact h.keep (fun _ _ => rfl) (fun _ hs => hs) fun _ ht => Or.inl ht
  | progress jobId percent message =>
      have hst : ∀ id, (s.storage.updateJob jobId (.reported percent message)).statusOf id =
          s.storage.statusOf id := by
        intro id
        rw [InMemoryStorage.statusOf_updateJob]
        split
        · simp [JobPatch.reported]
        · rfl
      exact h.setStorage (fun id _ => hst id) fun id hid => by rwa [hst]

/-! ### Runs -/

/-- A written cancellation stays written. -/
lemma Sealed.move {G : Guard V} {id : String} (hs : s.Sealed id) (hm : Move cfg G s s') :
    s'.Sealed id := by
  obtain ⟨reason, pc, job, ht, hw, hst⟩ := hs
  -- most moves leave the task where it is
  have hset : ∀ {s : QueueInstance V} {i : ℕ} {t u : Task V}, s.tasks[i]? = some t →
      t ≠ .cancel id reason pc → Task.cancel id reason pc ∈ s.tasks → (s.setTask i u).Sealed id :=
    fun hi hne ht => ⟨reason, pc, job, mem_setTask_of_ne hi ht hne.symm, hw, hst⟩
  cases hm with
  | add | flags | clearRetryTimers | progress => exact ⟨reason, pc, job, ht, hw, hst⟩
  | spawnLoop | beginCancel | beginStop =>
      exact ⟨reason, pc, job, List.mem_append_left _ ht, hw, hst⟩
  | exec hi heff hG => exact hset (s := s) hi (by simp) ht
  | settle outcome hi => exact hset hi (by simp) ht
  | idle hi hpc hpc' => exact hset hi (by simp) ht
  | take hi hpc hitem hjobs howner hq hG => exact hset hi (by simp) ht
  | @launch i job' hi =>
      exact hset (s := s.launch cfg job') (getElem?_launch job' hi) (by simp)
        (List.mem_append_left _ ht)
  | @writeCancelled i jobId reason' job' now hi hG =>
      have ht' : Task.cancel id reason pc ∈ (s.abort jobId).tasks := mem_abort_of_mem ht (by simp)
      refine ⟨reason, pc, job, mem_setTask_of_ne (s := s.abort jobId) (getElem?_abort hi (by simp))
        ht' ?_, hw, hst⟩
      rintro ⟨⟩
      simp [CancelPc.wrote] at hw
  | @cancel i jobId reason' pc₀ pc' hi hpc hgot =>
      by_cases he : Task.cancel id reason pc = .cancel jobId reason' pc₀
      · cases he
        exact ⟨reason, pc', job,
          List.mem_of_getElem? (getElem?_setTask (s := s) hi), hpc.trans hw, hst⟩
      · exact hset hi (Ne.symm he) ht
  | reenqueue now hi hst' => exact hset hi (by simp) ht
  | retry hi hpc => exact hset hi (by simp) ht
  | fire =>
      rw [fireTimer]
      split
      · exact ⟨reason, pc, job, ht, hw, hst⟩
      · exact ⟨reason, pc, job, List.mem_append_left _ ht, hw, hst⟩
  | stop pc' hi => exact hset hi (by simp) ht

/-- How often the handler of a job has been started. -/
def handlerStarts (s : QueueInstance V) (id : String) : ℕ :=
  s.trace.countP fun
    | .handlerStarted _ jobId _ => jobId = id
    | _ => false

/-- No handler of a sealed job is started. -/
lemma CancelInv.handlerStarts_move (ho : Owned cfg s) (h : CancelInv s) {id : String}
    (hs : s.Sealed id) {G : Guard V} (hm : Move cfg G s s') :
    s'.handlerStarts id = s.handlerStarts id := by
  cases hm with
  | @exec i jobId pc env eff hi heff hG =>
      rw [handlerStarts, QueueInstance.applyEffect]
      cases hst : eff.started with
      | none => rfl
      | some data =>
          have hne : jobId ≠ id := by
            rintro rfl
            rw [(h.exec_harmless ho hi heff hs).2.1] at hst
            cases hst
          simp [handlerStarts, hne]
  | fire =>
      rw [fireTimer]
      split
      · simp [handlerStarts]
      · rfl
  | clearRetryTimers => simp [handlerStarts, QueueInstance.clearRetryTimers, Function.comp_def]
  | writeCancelled => simp [handlerStarts, QueueInstance.writeCancelled, QueueInstance.setTask]
  | _ => rfl

/-- The invariant holds along a chain of guarded moves. -/
lemma cancelInv_of_moves (ho : Owned cfg s) (h : CancelInv s) (hm : Moves cfg cancelGuard s s') :
    Owned cfg s' ∧ CancelInv s' := by
  induction hm with
  | refl => exact ⟨ho, h⟩
  | tail _ hm ih => exact ⟨ih.1.move hm, ih.2.move ih.1 hm⟩

/-- From a state with the invariant on, a sealed job stays cancelled and is not started. -/
lemma CancelInv.later (ho : Owned cfg s) (h : CancelInv s) {id : String} (hs : s.Sealed id)
    (hm : Moves cfg cancelGuard s s') :
    s'.storage.statusOf id = some .cancelled ∧ s'.handlerStarts id = s.handlerStarts id := by
  have key : s'.Sealed id ∧ s'.handlerStarts id = s.handlerStarts id := by
    induction hm with
    | refl => exact ⟨hs, rfl⟩
    | tail hms hm ih =>
        obtain ⟨ho', h'⟩ := cancelInv_of_moves ho h hms
        exact ⟨ih.1.move hm, (h'.handlerStarts_move ho' ih.1 hm).trans ih.2⟩
  exact ⟨(cancelInv_of_moves ho h hm).2.status key.1, key.2⟩

lemma CancelInv.init : CancelInv ({} : QueueInstance V) where
  status hs := by
    obtain ⟨_, _, _, hm, -⟩ := hs
    cases hm
  harmless _ t ht := by cases ht
  found hm := by cases hm

/-- **Cancelled is final** in every run that meets the guard: once `cancelJob` has returned
`true` for a job that it found queued or running, the job is stored as cancelled in every
later state, and its handler is not started any more. -/
theorem cancelled_final {cfg : QueueConfig V} {as bs : List (Action V)} {s t : QueueInstance V}
    {id : String} {reason : Option String} {fetched : Job V}
    (hguard : Meets (step cfg) (Allowed cfg cancelGuard) {} (as ++ bs))
    (hs : exec (step cfg) {} as = some s) (ht : exec (step cfg) s bs = some t)
    (hret : Task.cancel id reason (.returnedTrue fetched) ∈ s.tasks)
    (hst : fetched.status = .queued ∨ fetched.status = .running) :
    t.storage.statusOf id = some .cancelled ∧ t.handlerStarts id = s.handlerStarts id := by
  obtain ⟨has, hbs⟩ := (meets_append hs).mp hguard
  obtain ⟨ho, h⟩ := cancelInv_of_moves Owned.init CancelInv.init (run_moves has hs)
  exact h.later ho ⟨reason, .returnedTrue fetched, fetched, hret, rfl, hst⟩ (run_moves hbs ht)

/-! ### The cancellation of a running and of a queued job -/

/-- A job is taken on, and cancelled while its handler runs. -/
def cancelRunning : List (Action ℕ) :=
  [.add "a" "t" 0 {} 0, .start {}, .resume 0 {}, .resume 1 {}, .resume 1 {}, .resume 1 {},
    .resume 1 {}, .cancelJob "a" none, .resume 2 {}, .resume 2 {}, .resume 2 {}, .resume 2 {}]

/-- The `executeJob` invocation runs to its end. -/
def finishCancelled : List (Action ℕ) := [.resume 1 {}, .resume 1 {}, .resume 1 {}]

theorem cancelled_final_running :
    ∃ s t, exec (step demoConfig) {} cancelRunning = some s ∧
      exec (step demoConfig) s finishCancelled = some t ∧
      Meets (step demoConfig) (Allowed demoConfig cancelGuard) {}
        (cancelRunning ++ finishCancelled) ∧
      t.storage.statusOf "a" = some .cancelled ∧ t.handlerStarts "a" = s.handlerStarts "a" := by
  have hguard : Meets (step demoConfig) (Allowed demoConfig cancelGuard) {}
      (cancelRunning ++ finishCancelled) := by decide
  let fetched := (JobPatch.started 0).apply (demoConfig.newJob "a" "t" 0 {} 0)
  refine ⟨_, _, rfl, rfl, hguard, cancelled_final hguard rfl rfl
    (?_ : Task.cancel "a" none (.returnedTrue fetched) ∈ _) (Or.inr rfl)⟩
  exact List.mem_of_getElem? (i := 2) rfl

/-- A job is added, and `cancelJob` is called for it and returns `true`. -/
def addAndCancel : List (Action ℕ) :=
  [.add "a" "t" 0 {} 0, .cancelJob "a" none, .resume 0 {}, .resume 0 {}, .resume 0 {}, .resume 0 {}]

/-- The queue is started and takes the job on up to the start of its handler. -/
def startAndRun : List (Action ℕ) :=
  [.start {}, .resume 1 {}, .resume 2 {}, .resume 2 {}, .resume 2 {}, .resume 2 {}]

/-- The item of a cancelled job stays in the priority queue, so a later start runs it. -/
theorem not_cancelled_final :
    ¬ ∀ (cfg : QueueConfig ℕ) (as bs : List (Action ℕ)) (s t : QueueInstance ℕ) (id : String)
        (reason : Option String) (fetched : Job ℕ),
      exec (step cfg) {} as = some s → exec (step cfg) s bs = some t →
      Task.cancel id reason (.returnedTrue fetched) ∈ s.tasks →
      (fetched.status = .queued ∨ fetched.status = .running) →
      t.storage.statusOf id = some .cancelled ∧ t.handlerStarts id = s.handlerStarts id := by
  intro h
  have hclaim := h demoConfig addAndCancel startAndRun _ _ "a" none
    (demoConfig.newJob "a" "t" 0 {} 0) rfl rfl
    (by exact List.mem_singleton.mpr rfl) (Or.inl rfl)
  exact absurd hclaim.1 (by decide)

end QueueInstance

end Blaize.Queue
