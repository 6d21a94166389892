import Blaize.Lib.Machine
import Blaize.Queue.OpenMoves

/-!
What a queue instance does after a graceful `stop` has resolved.

`stop` sets its flag at once and then waits for the running jobs.  It does not wait for the
loop: one that is suspended in `dequeue` looks at the flag only after it has taken its job
on.  A second `stop` that finds the first under way does not wait for anything.

* `OpenTask.AtRest`: what a task must not be waiting for;
* `Stirs`: some run without `start` takes a job out of the queue or starts a handler;
* `atRest_trace`: **a state at rest stays quiet until the next `start`**;
* `quiet_after_stop_iff`: **and those are the only states in which a `stop` can resolve
  that stay quiet**.
-/

namespace Blaize.Queue

open Machine

variable {V : Type}

/-- The handler of the job is registered and accepts its data. -/
def Dispatchable (cfg : QueueConfig V) (job : Job V) : Prop :=
  ∃ reg input, cfg.registration job.type = some reg ∧ reg.inputSchema job.data = .ok input

/-- An `executeJob` invocation that has not started its handler and may still do so. -/
def ExecPc.MayStart (cfg : QueueConfig V) : ExecPc V → Prop
  | .gotJob job => ∃ j ∈ job, Dispatchable cfg j
  | .markedRunning _ _ _ => True
  | .gotRunning _ _ _ _ => True
  | .publishedStarted _ _ _ => True
  | _ => False

/-- **A task at rest** in an instance with a shutdown flag: no loop waits for `dequeue` or
holds a job that can run, a loop that goes around finds the flag (or a limit of `0`), and no
invocation is on the way to its handler. -/
def OpenTask.AtRest (cfg : QueueConfig V) (isShuttingDown : Bool) : OpenTask V → Prop
  | .loop .dequeuing => False
  | .loop (.dequeued (some _)) =>
      (∀ job, ¬ Dispatchable cfg job) ∧ (isShuttingDown = true ∨ cfg.concurrency = 0)
  | .loop (.dequeued none) => isShuttingDown = true ∨ cfg.concurrency = 0
  | .loop .delaying => isShuttingDown = true ∨ cfg.concurrency = 0
  | .loop .returned => True
  | .loop .rejected => True
  | .exec _ pc => ¬ pc.MayStart cfg
  | .cancel _ _ _ => True
  | .retry _ _ _ => True
  | .stop _ => True

lemma OpenTask.atRest_of_isSide {cfg : QueueConfig V} {down : Bool} {t : OpenTask V}
    (h : t.isSide = true) : t.AtRest cfg down := by
  cases t with
  | loop stage => cases h
  | exec jobId pc => cases h
  | cancel jobId reason stage => trivial
  | retry jobId attempt stage => trivial
  | stop stage => trivial

/-! ### Pieces of `executeJob` -/

lemma dispatchPiece_mayStart {cfg : QueueConfig V} {job : Job V} (now : ℕ)
    (hjob : ¬ Dispatchable cfg job) :
    (dispatchPiece cfg now job).started = none ∧
      ¬ (dispatchPiece cfg now job).next.MayStart cfg := by
  rw [dispatchPiece]
  split
  · exact ⟨rfl, id⟩
  next reg hreg =>
      split
      · exact ⟨rfl, id⟩
      next input hinput => exact absurd ⟨reg, input, hreg, hinput⟩ hjob

lemma failureDecision_mayStart (cfg : QueueConfig V) (now : ℕ) (job : Job V) (err : Thrown)
    (currentJob : Option (Job V)) :
    (failureDecision now job err currentJob).started = none ∧
      ¬ (failureDecision now job err currentJob).next.MayStart cfg := by
  rw [failureDecision]
  split
  · exact ⟨rfl, id⟩
  · cases failureKind err.message with
    | cancelled => exact ⟨rfl, id⟩
    | timeout | execution =>
        dsimp only
        split <;> exact ⟨rfl, id⟩

lemma execPiece_mayStart {cfg : QueueConfig V} {answer : Option (Job V)} {env : Env}
    {pc : ExecPc V} {eff : Effect V} (h : execPiece cfg answer env pc = some eff)
    (hpc : ¬ pc.MayStart cfg) : eff.started = none ∧ ¬ eff.next.MayStart cfg := by
  cases pc with
  | gotJob job =>
      cases job with
      | none =>
          cases h
          exact ⟨rfl, id⟩
      | some job =>
          cases h
          exact dispatchPiece_mayStart env.now fun hjob => hpc ⟨job, rfl, hjob⟩
  | markedRunning job reg input => exact absurd trivial hpc
  | gotRunning job reg input runningJob => exact absurd trivial hpc
  | publishedStarted job reg input => exact absurd trivial hpc
  | raceSettled job reg outcome =>
      cases h
      cases outcome with
      | rejected err => exact ⟨rfl, id⟩
      | resolved result =>
          rw [outcomePiece]
          split <;> exact ⟨rfl, id⟩
  | completionGot job result currentJob =>
      cases h
      rw [completionDecision]
      split <;> exact ⟨rfl, id⟩
  | failureGot job err currentJob =>
      cases h
      exact failureDecision_mayStart cfg env.now job err currentJob
  | retryGot job attempt updatedJob =>
      simp only [execPiece] at h
      split at h <;> cases h <;> exact ⟨rfl, id⟩
  | invalidGot job inTry read =>
      cases read <;> cases ht : env.throws <;> simp only [execPiece, ht] at h <;> cases h <;>
        cases inTry <;> exact ⟨rfl, id⟩
  | noHandlerGot job read | completedGot job read | cancelledGot job read | failedGot job read =>
      cases read <;> cases ht : env.throws <;> simp only [execPiece, ht] at h <;> cases h <;>
        exact ⟨rfl, id⟩
  | invalidPublished job inTry =>
      cases h
      cases inTry <;> exact ⟨rfl, id⟩
  | finishing threw =>
      cases h
      cases threw <;> exact ⟨rfl, id⟩
  | handlerRunning job reg => cases h
  | settled => cases h
  | _ =>
      cases h
      exact ⟨rfl, id⟩

lemma execReject_mayStart {cfg : QueueConfig V} {answer : Option (Job V)} {err : Thrown}
    {pc : ExecPc V} {eff : Effect V} (h : execReject answer err pc = some eff) :
    eff.started = none ∧ ¬ eff.next.MayStart cfg := by
  cases pc with
  | invalidUpdated job inTry | invalidGot job inTry =>
      cases h
      cases inTry <;> exact ⟨rfl, id⟩
  | _ =>
      cases h
      try exact ⟨rfl, id⟩

/-- Only an invocation on the way to its handler starts it, and no other gets there. -/
lemma Piece.mayStart {cfg : QueueConfig V} {pc : ExecPc V} {eff : Effect V} (h : Piece cfg pc eff)
    (hpc : ¬ pc.MayStart cfg) : eff.started = none ∧ ¬ eff.next.MayStart cfg := by
  cases h with
  | answered h => exact execPiece_mayStart h hpc
  | rejected h => exact execReject_mayStart h

namespace OpenInstance

variable {cfg : QueueConfig V} {G : OpenInstance V → Prop} {s s' : OpenInstance V}

variable (cfg) in
/-- All tasks are at rest. -/
def AtRest (s : OpenInstance V) : Prop := ∀ t ∈ s.tasks, t.AtRest cfg s.isShuttingDown

/-! ### A state at rest -/

lemma AtRest.setTask (h : AtRest cfg s) (i : ℕ) {u : OpenTask V}
    (hu : u.AtRest cfg s.isShuttingDown) : AtRest cfg (s.setTask i u) := by
  intro t ht
  rcases List.mem_or_eq_of_mem_set ht with ht | rfl
  · exact h t ht
  · exact hu

lemma AtRest.spawn (h : AtRest cfg s) {u : OpenTask V} (hu : u.AtRest cfg s.isShuttingDown) :
    AtRest cfg (s.spawn u) := by
  intro t ht
  rcases List.mem_append.mp ht with ht | ht
  · exact h t ht
  · obtain rfl := List.mem_singleton.mp ht
    exact hu

/-- A loop that finds the flag, or a limit of `0`, takes nothing. -/
lemma loopHead_atRest (h : s.isShuttingDown = true ∨ cfg.concurrency = 0) :
    (OpenTask.loop (s.loopHead cfg)).AtRest cfg s.isShuttingDown := by
  rw [loopHead]
  split
  · trivial
  next hdown =>
      rcases h with h | h
      · exact absurd h hdown
      · rw [if_pos (h ▸ Nat.zero_le _)]
        exact Or.inr h

lemma atRest_down {t : OpenTask V} {down : Bool} (h : t.AtRest cfg down) :
    t.AtRest cfg true := by
  cases t with
  | loop stage =>
      cases stage with
      | dequeued job =>
          cases job with
          | none => exact Or.inl rfl
          | some job => exact ⟨h.1, Or.inl rfl⟩
      | delaying => exact Or.inl rfl
      | dequeuing => exact h
      | returned => trivial
      | rejected => trivial
  | _ => exact h

/-- **One move keeps a state at rest, and does nothing.** -/
lemma AtRest.move (h : AtRest cfg s) (hm : OpenMove cfg G s s') :
    AtRest cfg s' ∧ s'.trace = s.trace := by
  cases hm with
  | @exec i jobId pc eff hi heff =>
      obtain ⟨hstarted, hnext⟩ := heff.mayStart (h _ (List.mem_of_getElem? hi))
      refine ⟨h.setTask i (u := .exec jobId eff.next) hnext, ?_⟩
      rw [applyEffect, hstarted]
  | settle outcome hi => exact ⟨h.setTask _ id, rfl⟩
  | abort controllers => exact ⟨h, rfl⟩
  | serve job hi => exact (h _ (List.mem_of_getElem? hi)).elim
  | @launch i job answer hi =>
      obtain ⟨hnone, hdown⟩ := h _ (List.mem_of_getElem? hi)
      have hexec : (OpenTask.exec job.id (.gotJob answer) : OpenTask V).AtRest cfg
          s.isShuttingDown := fun ⟨j, _, hj⟩ => hnone j hj
      have hspawn : AtRest cfg (s.launch job answer) :=
        AtRest.spawn (s := { s with runningJobs := OrdSet.add s.runningJobs job.id }) h hexec
      exact ⟨hspawn.setTask i hdown, rfl⟩
  | @around i hi hG =>
      exact ⟨h.setTask i (loopHead_atRest (h _ (List.mem_of_getElem? hi))), rfl⟩
  | rest hi =>
      have hdown := h _ (List.mem_of_getElem? hi)
      exact ⟨h.setTask _ hdown, rfl⟩
  | fail hi => exact (h _ (List.mem_of_getElem? hi)).elim
  | side hi ht hu => exact ⟨h.setTask _ (OpenTask.atRest_of_isSide hu), rfl⟩
  | spawnSide ht => exact ⟨h.spawn (OpenTask.atRest_of_isSide ht), rfl⟩
  | shutDown => exact ⟨fun t ht => atRest_down (h t ht), rfl⟩
  | timers ts pending => exact ⟨h, rfl⟩

lemma AtRest.moves (h : AtRest cfg s) (hm : OpenMoves cfg G s s') :
    AtRest cfg s' ∧ s'.trace = s.trace := by
  induction hm with
  | refl => exact ⟨h, rfl⟩
  | tail _ hm ih =>
      obtain ⟨h', htrace⟩ := ih.1.move hm
      exact ⟨h', htrace.trans ih.2⟩

/-- **A state at rest stays quiet until the next `start`.** -/
theorem atRest_trace (h : AtRest cfg s) {bs : List (OpenAction V)} {t : OpenInstance V}
    (hbs : .start ∉ bs) (ht : exec (step cfg) s bs = some t) : t.trace = s.trace := by
  induction bs generalizing s with
  | nil =>
      obtain rfl := Option.some.inj ht
      rfl
  | cons b bs ih =>
      rw [exec_cons] at ht
      obtain ⟨s', hs', ht⟩ := Option.bind_eq_some_iff.mp ht
      rw [List.mem_cons, not_or] at hbs
      have hmoves := step_openMoves (Ne.symm hbs.1) (goesAround_true s b) hs'
      obtain ⟨h', htrace⟩ := h.moves hmoves
      exact (ih h' hbs.2 ht).trans htrace

/-! ### A state not at rest -/

variable (cfg) in
/-- Some run without `start` takes a job out of the queue or starts a handler. -/
def Stirs (s : OpenInstance V) : Prop :=
  ∃ bs t, .start ∉ bs ∧ exec (step cfg) s bs = some t ∧ t.trace ≠ s.trace

lemma trace_suffix_move (hm : OpenMove cfg G s s') : s.trace <:+ s'.trace := by
  cases hm with
  | @exec i jobId pc eff hi heff =>
      rw [applyEffect]
      cases eff.started with
      | none => exact List.suffix_rfl
      | some data => exact List.suffix_cons _ _
  | serve job hi => exact List.suffix_append _ _
  | _ => exact List.suffix_rfl

lemma trace_suffix_moves (hm : OpenMoves cfg G s s') : s.trace <:+ s'.trace := by
  induction hm with
  | refl => exact List.suffix_rfl
  | tail _ hm ih => exact ih.trans (trace_suffix_move hm)

lemma trace_suffix_exec {bs : List (OpenAction V)} {t : OpenInstance V} (hbs : .start ∉ bs)
    (ht : exec (step cfg) s bs = some t) : s.trace <:+ t.trace := by
  induction bs generalizing s with
  | nil =>
      obtain rfl := Option.some.inj ht
      exact List.suffix_rfl
  | cons b bs ih =>
      rw [exec_cons] at ht
      obtain ⟨s', hs', ht⟩ := Option.bind_eq_some_iff.mp ht
      rw [List.mem_cons, not_or] at hbs
      have hmoves := step_openMoves (Ne.symm hbs.1) (goesAround_true s b) hs'
      exact (trace_suffix_moves hmoves).trans (ih hbs.2 ht)

/-- A state stirs if it does after a step. -/
lemma Stirs.of_step {a : OpenAction V} (ha : a ≠ .start) (hstep : s.step cfg a = some s')
    (h : Stirs cfg s') : Stirs cfg s := by
  obtain ⟨bs, t, hbs, ht, hne⟩ := h
  have hrun : exec (step cfg) s (a :: bs) = some t := by
    rw [exec_cons, hstep]
    exact ht
  have hsuffix : s.trace <:+ s'.trace :=
    trace_suffix_moves (step_openMoves ha (goesAround_true s a) hstep)
  refine ⟨a :: bs, t, by simp [Ne.symm ha, hbs], hrun, fun he => hne ?_⟩
  -- the trace of the state in between lies between two equal traces
  have hle := (trace_suffix_exec hbs ht).length_le
  rw [he] at hle
  have heq : s.trace = s'.trace := hsuffix.eq_of_length_le hle
  rw [he, heq]

/-- A step that leaves something in the trace. -/
lemma stirs_of_step {a : OpenAction V} (ha : a ≠ .start) (hstep : s.step cfg a = some s')
    (htrace : s'.trace ≠ s.trace) : Stirs cfg s :=
  ⟨[a], s', by simp [Ne.symm ha], by rw [exec_cons, hstep]; rfl, htrace⟩

lemma step_resume_exec {i : ℕ} {jobId : String} {pc : ExecPc V} {eff : Effect V} {env : Env}
    {answer : Option (Job V)} (hi : s.tasks[i]? = some (.exec jobId pc))
    (heff : execPiece cfg answer env pc = some eff) :
    s.step cfg (.resume i env answer) = some (s.applyEffect i jobId eff) := by
  simp only [step, resume, hi, heff]

lemma getElem?_applyEffect {i : ℕ} {jobId : String} {pc : ExecPc V}
    (hi : s.tasks[i]? = some (.exec jobId pc)) (eff : Effect V) :
    (s.applyEffect i jobId eff).tasks[i]? = some (.exec jobId eff.next) :=
  List.getElem?_set_self (List.getElem?_eq_some_iff.mp hi).1

lemma stirs_of_publishedStarted {i : ℕ} {jobId : String} {job : Job V}
    {reg : HandlerRegistration V} {input : V}
    (hi : s.tasks[i]? = some (.exec jobId (.publishedStarted job reg input))) : Stirs cfg s :=
  stirs_of_step (a := .resume i {} none) (by simp) (step_resume_exec hi rfl)
    (List.cons_ne_self _ _)

lemma stirs_of_gotRunning {i : ℕ} {jobId : String} {job : Job V} {reg : HandlerRegistration V}
    {input : V} {runningJob : Option (Job V)}
    (hi : s.tasks[i]? = some (.exec jobId (.gotRunning job reg input runningJob))) :
    Stirs cfg s := by
  cases runningJob with
  | none =>
      exact stirs_of_step (a := .resume i {} none) (by simp) (step_resume_exec hi rfl)
        (List.cons_ne_self _ _)
  | some runningJob =>
      exact .of_step (a := .resume i {} none) (by simp) (step_resume_exec hi rfl)
        (stirs_of_publishedStarted (getElem?_applyEffect hi _))

lemma stirs_of_markedRunning {i : ℕ} {jobId : String} {job : Job V} {reg : HandlerRegistration V}
    {input : V} (hi : s.tasks[i]? = some (.exec jobId (.markedRunning job reg input))) :
    Stirs cfg s :=
  .of_step (a := .resume i {} none) (by simp) (step_resume_exec hi rfl)
    (stirs_of_gotRunning (getElem?_applyEffect hi _))

/-- An invocation on the way to its handler can get there. -/
lemma stirs_of_mayStart {i : ℕ} {jobId : String} {pc : ExecPc V}
    (hi : s.tasks[i]? = some (.exec jobId pc)) (hpc : pc.MayStart cfg) : Stirs cfg s := by
  cases pc with
  | gotJob job =>
      obtain ⟨j, hj, reg, input, hreg, hinput⟩ := hpc
      obtain rfl := Option.mem_def.mp hj
      have heff : execPiece cfg none {} (.gotJob (some j)) =
          some { next := .markedRunning j reg input, takeController := true
                 patch := some (.started 0) } := by
        simp only [execPiece, dispatchPiece, hreg, hinput]
      exact .of_step (a := .resume i {} none) (by simp) (step_resume_exec hi heff)
        (stirs_of_markedRunning (getElem?_applyEffect hi _))
  | markedRunning job reg input => exact stirs_of_markedRunning hi
  | gotRunning job reg input runningJob => exact stirs_of_gotRunning hi
  | publishedStarted job reg input => exact stirs_of_publishedStarted hi
  | _ => exact hpc.elim

lemma step_resume_loop {i : ℕ} {stage : LoopStage V} (answer : Option (Job V))
    (hi : s.tasks[i]? = some (.loop stage)) :
    s.step cfg (.resume i {} answer) = s.resumeLoop cfg i answer stage := by
  simp only [step, resume, hi]

/-- The invocation that a loop starts. -/
lemma getElem?_launch_length (cfg : QueueConfig V) {i : ℕ} {stage : LoopStage V}
    (hi : s.tasks[i]? = some (.loop stage)) (job : Job V) (answer : Option (Job V)) :
    ((s.launch job answer).loopAround cfg i).tasks[s.tasks.length]? =
      some (.exec job.id (.gotJob answer)) := by
  have hne : i ≠ s.tasks.length := by
    have hlt := (List.getElem?_eq_some_iff.mp hi).1
    omega
  rw [loopAround, setTask]
  dsimp only
  rw [List.getElem?_set_ne hne]
  exact List.getElem?_concat_length

/-- A loop that holds a job starts `executeJob` for it, whatever it reads. -/
lemma stirs_of_dispatchable {i : ℕ} {job j : Job V}
    (hi : s.tasks[i]? = some (.loop (.dequeued (some job)))) (hj : Dispatchable cfg j) :
    Stirs cfg s :=
  .of_step (a := .resume i {} (some j)) (by simp) (step_resume_loop (some j) hi)
    (stirs_of_mayStart (getElem?_launch_length cfg hi job (some j)) ⟨j, rfl, hj⟩)

section Loops

variable [Inhabited V] {i : ℕ}

/-- The storage can carry out a `dequeue` call. -/
lemma stirs_of_dequeuing (hi : s.tasks[i]? = some (.loop .dequeuing)) : Stirs cfg s := by
  let job : Job V := cfg.newJob "" "" default {} 0
  have hstep : s.step cfg (.serve i (some job)) =
      some ({ s with trace := .taken job :: s.trace }.setTask i
        (.loop (.dequeued (some job)))) := by
    simp only [step, serve, hi]
    rfl
  exact stirs_of_step (by simp) hstep (List.cons_ne_self _ _)

/-- A loop that finds neither the flag nor the limit calls `dequeue`. -/
lemma stirs_of_delaying (hi : s.tasks[i]? = some (.loop .delaying))
    (hdown : s.isShuttingDown = false) (hsize : s.runningJobs.size < cfg.concurrency) :
    Stirs cfg s := by
  have hhead : s.loopHead cfg = .dequeuing := by
    rw [loopHead, if_neg (by simp [hdown]), if_neg (by omega)]
  have hloop : (s.loopAround cfg i).tasks[i]? = some (.loop .dequeuing) := by
    rw [loopAround, hhead]
    exact getElem?_setTask hi
  exact .of_step (a := .resume i {} none) (by simp) (step_resume_loop none hi)
    (stirs_of_dequeuing hloop)

/-- A loop that holds a job while nothing is running and the flag is not set goes on to the
next: if the job that it takes on fills the limit, the job may turn out not to exist. -/
lemma stirs_of_dequeued {job : Job V} (hi : s.tasks[i]? = some (.loop (.dequeued (some job))))
    (hdown : s.isShuttingDown = false) (hnone : s.runningJobs.size = 0)
    (hpos : 0 < cfg.concurrency) : Stirs cfg s := by
  have hi' : (s.launch job none).tasks[i]? = some (.loop (.dequeued (some job))) :=
    getElem?_spawn _ hi
  refine .of_step (a := .resume i {} none) (by simp) (step_resume_loop none hi) ?_
  have hexec := getElem?_launch_length cfg hi job none
  have hloop : ((s.launch job none).loopAround cfg i).tasks[i]? =
      some (.loop ((s.launch job none).loopHead cfg)) := getElem?_setTask hi'
  have hdown' : (s.launch job none).isShuttingDown = false := hdown
  rw [loopHead, if_neg (by simp [hdown'])] at hloop
  split at hloop
  · -- the invocation finds no job and leaves
    refine .of_step (a := .resume s.tasks.length {} none) (by simp) (step_resume_exec hexec rfl)
      (stirs_of_delaying (i := i) ?_ hdown ?_)
    · have hne : s.tasks.length ≠ i := by
        have hlt := (List.getElem?_eq_some_iff.mp hi).1
        omega
      rw [applyEffect]
      dsimp only
      rw [List.getElem?_set_ne hne]
      exact hloop
    · have hempty : s.runningJobs.entries = [] := List.length_eq_zero_iff.mp hnone
      have hsize : ((OrdSet.add s.runningJobs job.id).delete job.id).size = 0 := by
        simp [OrdSet.add, OrdMap.set, OrdMap.delete, OrdMap.size, hempty, OrdMap.put]
      exact hsize ▸ hpos
  · exact stirs_of_dequeuing hloop

end Loops

/-! ### A graceful `stop` resolves -/

variable (cfg s s') in
/-- **A graceful `stop` resolves before its timeout**: its loop finds no running job, or it
finds that an earlier `stop` is under way. -/
inductive StopResolves : Prop
  | drained {i : ℕ} {env : Env} {answer : Option (Job V)} {stage : StopStage}
      (hi : s.tasks[i]? = some (.stop stage))
      (h : s.step cfg (.resume i env answer) = some s')
      (hdone : s'.tasks[i]? = some (.stop (.resolved .drained)))
  | ignored (hdown : s.isShuttingDown = true) (h : s.step cfg (.stop true) = some s')

/-- Where a graceful `stop` resolves, nothing is running or the flag is set. -/
lemma StopResolves.cases (h : StopResolves cfg s s') :
    s'.runningJobs.size = 0 ∨ s'.isShuttingDown = true := by
  cases h with
  | @drained i env answer stage hi h hdone =>
      refine Or.inl ?_
      have hlt := (List.getElem?_eq_some_iff.mp hi).1
      simp only [step, resume, hi] at h
      -- only the loop of a graceful `stop` ends with `drained`
      have hdrain : ∀ {r : OpenInstance V} {timedOut : Bool}, r.tasks[i]? = some (.stop stage) →
          (r.drain i timedOut).tasks[i]? = some (.stop (.resolved .drained)) →
          (r.drain i timedOut).runningJobs.size = 0 := by
        intro r timedOut hr hd
        rw [drain, getElem?_setTask hr] at hd
        split at hd
        next hsize => exact hsize
        next => split at hd <;> cases hd
      cases stage with
      | gettingStats graceful =>
          cases graceful with
          | true =>
              obtain rfl := Option.some.inj h
              exact hdrain (r := s.clearRetryTimers) hi hdone
          | false =>
              simp only [resumeStop] at h
              split at h
              · obtain rfl := Option.some.inj h
                rw [getElem?_setTask (s := s.clearRetryTimers) hi] at hdone
                cases hdone
              · obtain rfl := Option.some.inj h
                rw [getElem?_setTask ((List.getElem?_append_left hlt).trans hi)] at hdone
                cases hdone
      | waiting =>
          obtain rfl := Option.some.inj h
          exact hdrain hi hdone
      | cancelling cancels =>
          simp only [resumeStop] at h
          split at h
          · obtain rfl := Option.some.inj h
            rw [getElem?_setTask hi] at hdone
            cases hdone
          · cases h
      | delaying =>
          obtain rfl := Option.some.inj h
          rw [getElem?_setTask hi] at hdone
          cases hdone
      | resolved how => cases h
      | rejected => cases h
  | ignored hdown h =>
      obtain rfl := Option.some.inj h
      refine Or.inr ?_
      rw [stop, if_pos hdown]
      exact hdown

/-- **After a graceful `stop` has resolved, nothing is taken out of the queue and no handler
is started until the next `start`, if and only if the `stop` resolves in a state at rest.** -/
theorem quiet_after_stop_iff [Inhabited V] (h : StopResolves cfg s s') :
    (∀ bs t, .start ∉ bs → exec (step cfg) s' bs = some t → t.trace = s'.trace) ↔
      AtRest cfg s' := by
  refine ⟨fun hquiet t ht => ?_, fun hrest bs t hbs ht => atRest_trace hrest hbs ht⟩
  have hstill : ¬ Stirs cfg s' := fun ⟨bs, t, hbs, ht, hne⟩ => hne (hquiet bs t hbs ht)
  obtain ⟨i, hi⟩ := List.mem_iff_getElem?.mp ht
  -- where the flag is not set, nothing is running, and a loop that goes around takes a job
  have hdown : (s'.isShuttingDown = false → s'.runningJobs.size = 0 → 0 < cfg.concurrency →
      Stirs cfg s') → s'.isShuttingDown = true ∨ cfg.concurrency = 0 := by
    intro hstirs
    rcases h.cases with hnone | hflag
    · cases hflag : s'.isShuttingDown with
      | true => exact Or.inl rfl
      | false =>
          refine Or.inr (Nat.eq_zero_of_not_pos fun hpos => ?_)
          exact hstill (hstirs hflag hnone hpos)
    · exact Or.inl hflag
  cases t with
  | loop stage =>
      cases stage with
      | dequeuing => exact hstill (stirs_of_dequeuing hi)
      | dequeued job =>
          cases job with
          | none =>
              refine hdown fun hflag hnone hpos => ?_
              exact .of_step (a := .resume i {} none) (by simp) (step_resume_loop none hi)
                (stirs_of_delaying (getElem?_setTask hi) hflag (hnone ▸ hpos))
          | some job =>
              exact ⟨fun j hj => hstill (stirs_of_dispatchable hi hj),
                hdown fun hflag hnone hpos => stirs_of_dequeued hi hflag hnone hpos⟩
      | delaying =>
          exact hdown fun hflag hnone hpos => stirs_of_delaying hi hflag (hnone ▸ hpos)
      | returned => trivial
      | rejected => trivial
  | exec jobId pc => exact fun hpc => hstill (stirs_of_mayStart hi hpc)
  | cancel jobId reason stage => trivial
  | retry jobId attempt stage => trivial
  | stop stage => trivial

open QueueInstance (demoConfig)

/-- The queue is started, finds nothing to do and is stopped while its loop is asleep. -/
def stopAsleep : List (OpenAction ℕ) := [.start, .serve 0 none, .resume 0 {} none, .stop true]

theorem quiet_after_stop_asleep :
    ∃ s s', exec (step demoConfig) {} stopAsleep = some s ∧ StopResolves demoConfig s s' ∧
      ∀ bs t, .start ∉ bs → exec (step demoConfig) s' bs = some t → t.trace = s'.trace := by
  have hstop : StopResolves demoConfig _ _ :=
    @StopResolves.drained _ _
      { isShuttingDown := true, tasks := [.loop .delaying, .stop (.gettingStats true)] }
      { isShuttingDown := true, tasks := [.loop .delaying, .stop (.resolved .drained)] }
      1 {} none (.gettingStats true) rfl rfl rfl
  refine ⟨_, _, rfl, hstop, (quiet_after_stop_iff hstop).mpr fun t ht => ?_⟩
  rcases List.mem_cons.mp ht with rfl | ht
  · exact Or.inl rfl
  · obtain rfl := List.mem_singleton.mp ht
    trivial

/-- A job that the storage hands out after the `stop` has resolved. -/
def lateJob : Job ℕ := demoConfig.newJob "a" "t" 0 {} 0

/-- The `dequeue` call of the loop is carried out, and the job runs. -/
def lateDequeue : List (OpenAction ℕ) :=
  [.serve 0 (some lateJob), .resume 0 {} (some lateJob), .resume 2 {} none, .resume 2 {} none,
    .resume 2 {} none]

theorem not_quiet_after_stop :
    ¬ ∀ (cfg : QueueConfig ℕ) (as bs : List (OpenAction ℕ)) (s s' t : OpenInstance ℕ),
      exec (step cfg) {} as = some s → StopResolves cfg s s' → .start ∉ bs →
      exec (step cfg) s' bs = some t → t.trace = s'.trace := by
  intro h
  have hstop : StopResolves demoConfig _ _ :=
    @StopResolves.drained _ _
      { isShuttingDown := true, tasks := [.loop .dequeuing, .stop (.gettingStats true)] }
      { isShuttingDown := true, tasks := [.loop .dequeuing, .stop (.resolved .drained)] }
      1 {} none (.gettingStats true) rfl rfl rfl
  have htrace := h demoConfig [.start, .stop true] lateDequeue _ _ _ rfl hstop
    (by simp [lateDequeue]) rfl
  cases htrace

end OpenInstance

end Blaize.Queue
