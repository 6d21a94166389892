import Blaize.Queue.Moves

/-!
The two validations of the data of a job: `QueueService.add` stores what the schema makes of it,
and `executeJob` parses what is stored.

* `serviceAdd`: `QueueService.add`, up to the call of the queue's own `add`;
* `Validated`: what comes of a validation in `executeJob`;
* `Origin`: the type and the data that a job is stored with, which no step changes (`Grows`);
* `DataInv`: **what an invocation hands to its handler was parsed from there**;
* `handed_iff_stable`: **every attempt hands over the data that was accepted, if and only if the
  schema parses that data to itself**.
-/

namespace Blaize.Queue

open Machine

variable {V : Type}

/-! ### The service -/

/-- The errors of `QueueService.add` behind the lookup of the queue. -/
inductive AddFailure (V : Type) where
  | handlerNotFound (jobType queueName : String) (availableJobTypes : List String)
  | jobValidation (jobType queueName stage : String) (issues : List ValidationIssue) (data : V)

/-- `QueueService.add`, with the identifier that the queue's `add` draws. -/
def serviceAdd (cfg : QueueConfig V) (id jobType : String) (data : V) (options : JobOptions V)
    (now : ℕ) : Except (AddFailure V) (Action V) :=
  match cfg.registration jobType with
  | none => .error (.handlerNotFound jobType cfg.name cfg.availableJobTypes)
  | some registration =>
      match registration.inputSchema data with
      | .error issues => .error (.jobValidation jobType cfg.name "enqueue" issues data)
      | .ok parsed => .ok (.add id jobType parsed options now)

/-- What the schema of a job type makes of data; `none` without a registration. -/
def QueueConfig.validate (cfg : QueueConfig V) (jobType : String) (data : V) :
    Option (Except (List ValidationIssue) V) :=
  (cfg.registration jobType).map fun registration => registration.inputSchema data

/-- What is accepted is given to the queue. -/
lemma serviceAdd_of_validate {cfg : QueueConfig V} {id jobType : String} {data accepted : V}
    {options : JobOptions V} {now : ℕ} (h : cfg.validate jobType data = some (.ok accepted)) :
    serviceAdd cfg id jobType data options now = .ok (.add id jobType accepted options now) := by
  rw [QueueConfig.validate] at h
  obtain ⟨registration, hreg, hparse⟩ := Option.map_eq_some_iff.mp h
  rw [serviceAdd, hreg]
  dsimp only
  rw [hparse]

namespace QueueInstance

/-- What came of a validation in `executeJob`: the data for the handler, or none. -/
inductive Validated (s : QueueInstance V) (id : String) : Option V → Prop
  | passed {i : ℕ} {job : Job V} {reg : HandlerRegistration V} {input : V}
      (h : s.tasks[i]? = some (.exec id (.markedRunning job reg input))) :
      Validated s id (some input)
  | handed {i : ℕ} {data : V} (h : .handlerStarted i id data ∈ s.trace) :
      Validated s id (some data)
  | refused {i : ℕ} {job : Job V} (h : s.tasks[i]? = some (.exec id (.invalidUpdated job false))) :
      Validated s id none
  | unregistered {i : ℕ} {job : Job V} (h : s.tasks[i]? = some (.exec id (.noHandlerUpdated job))) :
      Validated s id none

end QueueInstance

/-! ### Pieces of `executeJob` -/

/-- The type and the data that a job is stored with. -/
abbrev Origin (V : Type) := Option (String × V)

/-- The origin is known, and this is what the schema makes of it. -/
def Answers (cfg : QueueConfig V) (origin : Origin V)
    (result : Option (Except (List ValidationIssue) V)) : Prop :=
  ∃ p, origin = some p ∧ cfg.validate p.1 p.2 = result

/-- What an invocation remembers comes from the stored data. -/
def ExecPc.Faithful (cfg : QueueConfig V) (origin : Origin V) : ExecPc V → Prop
  | .gotJob job => ∀ j ∈ job, origin = some (j.type, j.data)
  | .markedRunning _ _ input => Answers cfg origin (some (.ok input))
  | .gotRunning _ _ input _ => Answers cfg origin (some (.ok input))
  | .publishedStarted _ _ input => Answers cfg origin (some (.ok input))
  | .invalidUpdated _ false => ∃ issues, Answers cfg origin (some (.error issues))
  | .noHandlerUpdated _ => Answers cfg origin none
  | _ => True

def Task.Faithful (cfg : QueueConfig V) (origin : String → Origin V) : Task V → Prop
  | .exec jobId pc => pc.Faithful cfg (origin jobId)
  | .retry jobId _ (.got (some job)) => origin jobId = some (job.type, job.data)
  | _ => True

/-- What a piece does with the data of its job. -/
structure InputFacts (cfg : QueueConfig V) (origin : Origin V) (eff : Effect V) : Prop where
  patch : ∀ patch ∈ eff.patch, patch.type = none ∧ patch.data = none
  next : eff.next.Faithful cfg origin
  started : ∀ data ∈ eff.started, Answers cfg origin (some (.ok data))

section Pieces

variable {cfg : QueueConfig V} {origin : Origin V} {read : Option (Job V)} {env : Env}
  {pc : ExecPc V} {eff : Effect V}

/-- A piece that starts nothing and goes on to where no data is remembered. -/
lemma InputFacts.of_next (hstarted : eff.started = none)
    (hpatch : ∀ patch ∈ eff.patch, patch.type = none ∧ patch.data = none)
    (hnext : eff.next.Faithful cfg origin) : InputFacts cfg origin eff where
  patch := hpatch
  next := hnext
  started := by simp [hstarted]

lemma dispatchPiece_input (now : ℕ) (job : Job V) (h : origin = some (job.type, job.data)) :
    InputFacts cfg origin (dispatchPiece cfg now job) := by
  rw [dispatchPiece]
  split
  next hreg =>
      refine .of_next rfl (by simp [JobPatch.failed]) ⟨_, h, ?_⟩
      rw [QueueConfig.validate, hreg, Option.map_none]
  next reg hreg =>
      split
      next issues hparse =>
          refine .of_next rfl (by simp [JobPatch.failed]) ⟨issues, _, h, ?_⟩
          rw [QueueConfig.validate, hreg, Option.map_some, hparse]
      next input hparse =>
          refine .of_next rfl (by simp [JobPatch.started]) ⟨_, h, ?_⟩
          rw [QueueConfig.validate, hreg, Option.map_some, hparse]

lemma failureDecision_input (now : ℕ) (job : Job V) (err : Thrown) (currentJob : Option (Job V)) :
    InputFacts cfg origin (failureDecision now job err currentJob) := by
  rw [failureDecision]
  split
  · exact .of_next rfl (by simp) trivial
  · cases failureKind err.message with
    | cancelled => exact .of_next rfl (by simp [JobPatch.cancelled]) trivial
    | timeout | execution =>
        dsimp only
        split
        · exact .of_next rfl (by simp [JobPatch.retried]) trivial
        · exact .of_next rfl (by simp [JobPatch.failed]) trivial

/-- **A piece of `executeJob` hands on what was parsed**, and writes neither type nor data. -/
lemma execPiece_input (h : execPiece cfg read env pc = some eff) (hpc : pc.Faithful cfg origin) :
    InputFacts cfg origin eff := by
  cases pc with
  | gotJob job =>
      cases job with
      | none =>
          cases h
          exact .of_next rfl (by simp) trivial
      | some job =>
          cases h
          exact dispatchPiece_input env.now job (hpc job rfl)
  | markedRunning job reg input =>
      cases h
      exact .of_next rfl (by simp) hpc
  | gotRunning job reg input runningJob =>
      cases runningJob with
      | none =>
          cases h
          exact ⟨by simp, trivial, fun data hdata => Option.some.inj hdata ▸ hpc⟩
      | some runningJob =>
          cases ht : env.throws <;> simp only [execPiece, ht] at h <;> cases h
          · exact .of_next rfl (by simp) hpc
          · exact .of_next rfl (by simp [failurePiece]) trivial
  | publishedStarted job reg input =>
      cases h
      exact ⟨by simp, trivial, fun data hdata => Option.some.inj hdata ▸ hpc⟩
  | raceSettled job reg outcome =>
      cases h
      cases outcome with
      | rejected err => exact .of_next rfl (by simp [outcomePiece, failurePiece]) trivial
      | resolved result =>
          rw [outcomePiece]
          split
          · exact .of_next rfl (by simp [JobPatch.failed]) trivial
          · exact .of_next rfl (by simp) trivial
  | completionGot job result currentJob =>
      cases h
      rw [completionDecision]
      split
      · exact .of_next rfl (by simp) trivial
      · exact .of_next rfl (by simp [JobPatch.completed]) trivial
  | failureGot job err currentJob =>
      cases h
      exact failureDecision_input env.now job err currentJob
  | caught job err =>
      cases h
      exact .of_next rfl (by simp [failurePiece]) trivial
  | retryGot job attempt updatedJob =>
      simp only [execPiece] at h
      split at h <;> cases h <;> exact .of_next rfl (by simp) trivial
  | invalidGot job inTry failedJob =>
      cases failedJob <;> cases ht : env.throws <;> simp only [execPiece, ht] at h <;> cases h <;>
        cases inTry <;> exact .of_next rfl (by simp) trivial
  | noHandlerGot job read' | completedGot job read' | cancelledGot job read'
  | failedGot job read' =>
      cases read' <;> cases ht : env.throws <;> simp only [execPiece, ht] at h <;> cases h <;>
        exact .of_next rfl (by simp) trivial
  | invalidPublished job inTry =>
      cases h
      cases inTry <;> exact .of_next rfl (by simp) trivial
  | finishing threw =>
      cases h
      cases threw <;> exact .of_next rfl (by simp) trivial
  | handlerRunning job reg => cases h
  | settled => cases h
  | _ =>
      cases h
      exact .of_next rfl (by simp) trivial

end Pieces

/-! ### The invariant -/

namespace QueueInstance

variable {cfg : QueueConfig V} {G : Guard V} {s s' s'' : QueueInstance V}

def origin (s : QueueInstance V) (id : String) : Origin V :=
  (s.storage.jobs.get id).map fun job => (job.type, job.data)

/-- A job that is stored stays stored, with its type and its data. -/
def Grows (s s' : QueueInstance V) : Prop := ∀ id p, s.origin id = some p → s'.origin id = some p

/-- **What an invocation hands to its handler was parsed from the stored data.** -/
structure DataInv (cfg : QueueConfig V) (s : QueueInstance V) : Prop where
  tasks : ∀ t ∈ s.tasks, t.Faithful cfg s.origin
  events : ∀ i id data, .handlerStarted i id data ∈ s.trace →
    Answers cfg (s.origin id) (some (.ok data))

lemma Grows.refl (s : QueueInstance V) : Grows s s := fun _ _ h => h

lemma grows_of_jobs (h : s'.storage.jobs = s.storage.jobs) : Grows s s' := by
  intro id p hp
  rw [origin, h]
  exact hp

lemma Answers.grow (h : Grows s s') {id : String}
    {result : Option (Except (List ValidationIssue) V)}
    (ha : Answers cfg (s.origin id) result) : Answers cfg (s'.origin id) result := by
  obtain ⟨p, hp, hresult⟩ := ha
  exact ⟨p, h id p hp, hresult⟩

lemma Faithful.grow (h : Grows s s') {t : Task V} (ht : t.Faithful cfg s.origin) :
    t.Faithful cfg s'.origin := by
  cases t with
  | exec jobId pc =>
      cases pc with
      | gotJob job => exact fun j hj => h jobId _ (ht j hj)
      | markedRunning job reg input => exact Answers.grow h ht
      | gotRunning job reg input runningJob => exact Answers.grow h ht
      | publishedStarted job reg input => exact Answers.grow h ht
      | noHandlerUpdated job => exact Answers.grow h ht
      | invalidUpdated job inTry =>
          cases inTry with
          | true => trivial
          | false =>
              obtain ⟨issues, ha⟩ := ht
              exact ⟨issues, Answers.grow h ha⟩
      | _ => trivial
  | retry jobId attempt pc =>
      cases pc with
      | got job =>
          cases job with
          | none => trivial
          | some job => exact h jobId _ ht
      | _ => trivial
  | _ => trivial

variable (cfg) in
/-- The stored data is kept, new tasks are faithful to it and handlers are started with what was
parsed from it. -/
structure Advances (s s' : QueueInstance V) : Prop where
  grows : Grows s s'
  tasks : ∀ t ∈ s'.tasks, t ∈ s.tasks ∨ t.Faithful cfg s'.origin
  events : ∀ i id data, .handlerStarted i id data ∈ s'.trace →
    .handlerStarted i id data ∈ s.trace ∨ Answers cfg (s'.origin id) (some (.ok data))

lemma Advances.trans (h : Advances cfg s s') (h' : Advances cfg s' s'') : Advances cfg s s'' where
  grows id p hp := h'.grows id p (h.grows id p hp)
  tasks t ht := by
    rcases h'.tasks t ht with ht | ht
    · exact (h.tasks t ht).imp_right (Faithful.grow h'.grows)
    · exact .inr ht
  events i id data he := by
    rcases h'.events i id data he with he | ha
    · exact (h.events i id data he).imp_right (Answers.grow h'.grows)
    · exact .inr ha

lemma DataInv.advance (h : DataInv cfg s) (ha : Advances cfg s s') : DataInv cfg s' where
  tasks t ht := (ha.tasks t ht).elim (fun ht => Faithful.grow ha.grows (h.tasks t ht)) fun ht => ht
  events i id data he :=
    (ha.events i id data he).elim (fun he => Answers.grow ha.grows (h.events i id data he))
      fun ha => ha

lemma DataInv.init : DataInv cfg ({} : QueueInstance V) where
  tasks t ht := by cases ht
  events i id data he := by cases he

/-- Neither the records nor the tasks change, and no handler is started. -/
lemma Advances.of_same (hjobs : s'.storage.jobs = s.storage.jobs) (htasks : s'.tasks = s.tasks)
    (hevents : ∀ i id data, .handlerStarted i id data ∈ s'.trace →
      .handlerStarted i id data ∈ s.trace) : Advances cfg s s' where
  grows := grows_of_jobs hjobs
  tasks _ ht := .inl (htasks ▸ ht)
  events i id data he := .inl (hevents i id data he)

lemma advances_setTask {i : ℕ} {t : Task V} (ht : t.Faithful cfg s.origin) :
    Advances cfg s (s.setTask i t) where
  grows := .refl s
  tasks u hu := by
    rcases List.mem_or_eq_of_mem_set hu with hu | rfl
    · exact .inl hu
    · exact .inr ht
  events _ _ _ he := .inl he

lemma advances_spawn {t : Task V} (ht : t.Faithful cfg s.origin) :
    Advances cfg s (s.spawn t) where
  grows := .refl s
  tasks u hu := by
    rcases List.mem_append.mp hu with hu | hu
    · exact .inl hu
    · rw [List.mem_singleton.mp hu]
      exact .inr ht
  events _ _ _ he := .inl he

/-- An update that mentions neither type nor data. -/
lemma origin_updateJob (jobId : String) {patch : JobPatch V} (htype : patch.type = none)
    (hdata : patch.data = none) :
    { s with storage := s.storage.updateJob jobId patch }.origin = s.origin := by
  funext id
  rw [origin, origin, InMemoryStorage.get_updateJob]
  split
  · rw [Option.map_map]
    congr 1
    funext job
    simp [JobPatch.apply, htype, hdata]
  · rfl

lemma advances_updateJob (jobId : String) {patch : JobPatch V} (htype : patch.type = none)
    (hdata : patch.data = none) :
    Advances cfg s { s with storage := s.storage.updateJob jobId patch } where
  grows id p hp := by
    rw [origin_updateJob jobId htype hdata]
    exact hp
  tasks _ ht := .inl ht
  events _ _ _ he := .inl he

lemma origin_enqueue (job : Job V) (now : ℕ) (id : String) :
    { s with storage := s.storage.enqueue cfg.name job now }.origin id =
      if job.id = id then some (job.type, job.data) else s.origin id := by
  rw [origin, InMemoryStorage.enqueue_jobs, OrdMap.get_set]
  split
  · rfl
  · rfl

/-- A job is enqueued whose record is new, or has its type and its data. -/
lemma advances_enqueue (job : Job V) (now : ℕ)
    (hsame : ∀ p, s.origin job.id = some p → p = (job.type, job.data)) :
    Advances cfg s { s with storage := s.storage.enqueue cfg.name job now } where
  grows id p hp := by
    rw [origin_enqueue]
    split
    next he =>
        subst he
        rw [hsame p hp]
    next => exact hp
  tasks _ ht := .inl ht
  events _ _ _ he := .inl he

lemma advances_abort (jobId : String) : Advances cfg s (s.abort jobId) where
  grows := grows_of_jobs (by rw [abort_storage])
  tasks t ht := by
    rcases mem_abort_tasks ht with ht | ⟨id, job, reg, -, rfl⟩
    · exact .inl ht
    · exact .inr trivial
  events i id data he := by
    rw [abort_trace] at he
    exact .inl he

lemma DataInv.exec (h : DataInv cfg s) {i : ℕ} {jobId : String} {pc : ExecPc V} {env : Env}
    {eff : Effect V} (hi : s.tasks[i]? = some (.exec jobId pc))
    (heff : execPiece cfg (s.read cfg jobId) env pc = some eff) :
    Advances cfg s (s.applyEffect i jobId eff) := by
  have hf := execPiece_input heff (h.tasks _ (List.mem_of_getElem? hi))
  have hsame : (s.applyEffect i jobId eff).origin = s.origin := by
    cases hp : eff.patch with
    | none =>
        funext id
        simp only [origin, QueueInstance.applyEffect, hp]
    | some patch =>
        rw [← origin_updateJob (s := s) jobId (hf.patch patch hp).1 (hf.patch patch hp).2]
        funext id
        simp only [origin, QueueInstance.applyEffect, hp]
  refine ⟨fun id p hp => by rw [hsame]; exact hp, fun t ht => ?_, fun j id data he => ?_⟩
  · rcases List.mem_or_eq_of_mem_set ht with ht | rfl
    · exact .inl ht
    · rw [hsame]
      exact .inr hf.next
  · rw [hsame]
    cases hstarted : eff.started with
    | none =>
        simp only [QueueInstance.applyEffect, hstarted] at he
        exact .inl he
    | some input =>
        simp only [QueueInstance.applyEffect, hstarted, List.mem_cons] at he
        rcases he with he | he
        · obtain ⟨rfl, rfl, rfl⟩ := Event.handlerStarted.inj he
          exact .inr (hf.started data hstarted)
        · exact .inl he

/-- What is read of a job is what it was stored with. -/
lemma origin_of_read (ho : Owned cfg s) {id : String} {job : Job V}
    (h : s.read cfg id = some job) : s.origin id = some (job.type, job.data) := by
  rw [ho.read_eq] at h
  rw [origin, h, Option.map_some]

lemma advances_fireTimer (ho : Owned cfg s) (timer : RetryTimer) :
    Advances cfg s (s.fireTimer cfg timer) := by
  rw [fireTimer]
  split
  · refine .of_same rfl rfl fun i id data he => ?_
    rcases List.mem_cons.mp he with he | he
    · cases he
    · exact he
  · have hdisarm : Advances cfg s (s.disarm timer) := .of_same rfl rfl fun _ _ _ he => he
    refine hdisarm.trans (advances_spawn ?_)
    cases hread : s.read cfg timer.jobId with
    | none => trivial
    | some job => exact origin_of_read ho hread

/-- **Every move advances.** -/
lemma DataInv.move (ho : Owned cfg s) (h : DataInv cfg s) (hm : Move cfg G s s') :
    Advances cfg s s' := by
  cases hm with
  | add job now hfresh hst hretries =>
      refine advances_enqueue job now fun p hp => ?_
      rw [origin, hfresh] at hp
      cases hp
  | exec hi heff hG => exact h.exec hi heff
  | settle outcome hi => exact advances_setTask trivial
  | flags running down => exact .of_same rfl rfl fun _ _ _ he => he
  | spawnLoop => exact advances_spawn trivial
  | idle hi hpc hpc' => exact advances_setTask trivial
  | @take _ _ _ _ storage hi hpc hitem hjobs howner hq hG =>
      have hstored : Advances cfg s { s with storage := storage } :=
        .of_same hjobs rfl fun _ _ _ he => he
      exact hstored.trans (advances_setTask trivial)
  | @launch i job hi =>
      have hrun : Advances cfg s { s with runningJobs := OrdSet.add s.runningJobs job.id } :=
        .of_same rfl rfl fun _ _ _ he => he
      have hread : Task.Faithful cfg s.origin (.exec job.id (.gotJob (s.read cfg job.id))) :=
        fun j hj => origin_of_read ho hj
      exact (hrun.trans (advances_spawn hread)).trans (advances_setTask trivial)
  | beginCancel jobId reason => exact advances_spawn trivial
  | writeCancelled now hi hG =>
      exact ((advances_abort _).trans (advances_updateJob _ rfl rfl)).trans
        (advances_setTask trivial)
  | cancel hi hpc hgot => exact advances_setTask trivial
  | @reenqueue i jobId attempt job now hi hst =>
      have hmem := List.mem_of_getElem? hi
      have horigin : s.origin jobId = some (job.type, job.data) := h.tasks _ hmem
      refine (advances_enqueue job now fun p hp => ?_).trans (advances_setTask trivial)
      rw [ho.retry hmem, horigin] at hp
      exact (Option.some.inj hp).symm
  | retry hi hpc => exact advances_setTask trivial
  | fire ht hG => exact advances_fireTimer ho _
  | beginStop graceful => exact advances_spawn trivial
  | stop pc' hi => exact advances_setTask trivial
  | clearRetryTimers =>
      refine .of_same rfl rfl fun i id data he => ?_
      rcases List.mem_append.mp he with he | he
      · simp at he
      · exact he
  | progress jobId percent message => exact advances_updateJob _ rfl rfl

lemma dataInv_of_moves (ho : Owned cfg s) (h : DataInv cfg s) (hm : Moves cfg G s s') :
    Owned cfg s' ∧ DataInv cfg s' ∧ Grows s s' := by
  induction hm with
  | refl => exact ⟨ho, h, .refl s⟩
  | tail _ hm ih =>
      have ha := ih.2.1.move ih.1 hm
      exact ⟨ih.1.move hm, ih.2.1.advance ha, fun id p hp => ha.grows id p (ih.2.2 id p hp)⟩

/-! ### The two validations -/

/-- What came of a validation is what the schema makes of the stored data. -/
lemma DataInv.validated (h : DataInv cfg s) {id jobType : String} {data : V}
    (horigin : s.origin id = some (jobType, data)) {outcome : Option V}
    (hv : Validated s id outcome) :
    outcome = ((cfg.validate jobType data).bind fun result => result.toOption) := by
  have hresult : ∀ {result}, Answers cfg (s.origin id) result →
      cfg.validate jobType data = result := by
    rintro result ⟨p, hp, hresult⟩
    rw [horigin] at hp
    cases hp
    exact hresult
  cases hv with
  | passed hi =>
      rw [hresult (h.tasks _ (List.mem_of_getElem? hi))]
      rfl
  | handed he =>
      rw [hresult (h.events _ _ _ he)]
      rfl
  | refused hi =>
      obtain ⟨issues, ha⟩ := h.tasks _ (List.mem_of_getElem? hi)
      rw [hresult ha]
      rfl
  | unregistered hi =>
      rw [hresult (h.tasks _ (List.mem_of_getElem? hi))]
      rfl

/-- **Every attempt hands over the data that was accepted, if and only if the schema parses that
data to itself.** -/
theorem handed_iff_stable {before after : List (Action V)} {id jobType : String} {data accepted : V}
    {options : JobOptions V} {now : ℕ} {action : Action V}
    (hadd : serviceAdd cfg id jobType data options now = .ok action)
    (hparse : cfg.validate jobType data = some (.ok accepted))
    (hrun : Machine.exec (step cfg) {} (before ++ action :: after) = some s) {outcome : Option V}
    (hv : Validated s id outcome) :
    outcome = some accepted ↔ cfg.validate jobType accepted = some (.ok accepted) := by
  rw [serviceAdd_of_validate hparse] at hadd
  obtain rfl := Except.ok.inj hadd
  rw [exec_append] at hrun
  obtain ⟨s₁, hbefore, hrun⟩ := Option.bind_eq_some_iff.mp hrun
  rw [exec_cons] at hrun
  obtain ⟨s₂, hstep, hafter⟩ := Option.bind_eq_some_iff.mp hrun
  obtain ⟨ho₁, h₁, -⟩ := dataInv_of_moves Owned.init DataInv.init (moves_of_exec hbefore)
  obtain ⟨ho₂, h₂, -⟩ := dataInv_of_moves ho₁ h₁ (step_moves (allowed_free _) hstep)
  obtain ⟨-, h, hgrows⟩ := dataInv_of_moves ho₂ h₂ (moves_of_exec hafter)
  have horigin : s₂.origin id = some (jobType, accepted) := by
    simp only [step] at hstep
    split at hstep
    · cases hstep
    · rw [← Option.some.inj hstep, origin_enqueue]
      exact if_pos rfl
  rw [h.validated (hgrows id _ horigin) hv]
  constructor
  · intro hsame
    obtain ⟨result, hresult, hok⟩ := Option.bind_eq_some_iff.mp hsame
    cases result with
    | error issues => cases hok
    | ok input => rw [hresult, Option.some.inj hok]
  · intro hsame
    rw [hsame]
    rfl

/-- The loop takes the job up, and its handler is started. -/
def takenUp : List (Action ℕ) :=
  [.start {}, .resume 0 {}, .resume 1 {}, .resume 1 {}, .resume 1 {}, .resume 1 {}]

theorem handed_takenUp : ∃ s, Machine.exec (step demoConfig) {}
    ([] ++ .add "a" "t" 7 {} 0 :: takenUp) = some s ∧ Validated s "a" (some 7) ∧
      (some 7 = some 7 ↔ demoConfig.validate "t" 7 = some (.ok 7)) := by
  obtain ⟨s, hrun, hstarted⟩ : ∃ s, Machine.exec (step demoConfig) {}
      ([] ++ .add "a" "t" 7 {} 0 :: takenUp) = some s ∧ .handlerStarted 1 "a" 7 ∈ s.trace :=
    ⟨_, rfl, List.mem_cons_self⟩
  have hadd : serviceAdd demoConfig "a" "t" 7 {} 0 = .ok (.add "a" "t" 7 {} 0) := rfl
  exact ⟨s, hrun, .handed hstarted, handed_iff_stable hadd rfl hrun (.handed hstarted)⟩

/-- A queue whose schema takes a text and makes its length of it. -/
def lengthConfig : QueueConfig (String ⊕ ℕ) where
  name := "q"
  handlerRegistry := OrdMap.set ∅ "q:t"
    ⟨fun
      | .inl text => .ok (.inr text.length)
      | .inr _ => .error [⟨[], "Expected string, received number"⟩], .ok⟩

/-- The text is accepted, and its length is refused when the job is executed. -/
theorem not_handed : ∃ s, serviceAdd lengthConfig "a" "t" (.inl "abc") {} 0 =
      .ok (.add "a" "t" (.inr 3) {} 0) ∧
    Machine.exec (step lengthConfig) {}
      [.add "a" "t" (.inr 3) {} 0, .start {}, .resume 0 {}, .resume 1 {}] = some s ∧
    Validated s "a" none :=
  ⟨_, rfl, rfl, .refused (i := 1) rfl⟩

end QueueInstance

end Blaize.Queue
