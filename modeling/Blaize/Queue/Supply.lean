import Blaize.Lib.Machine
import Blaize.Queue.Changes
import Blaize.Queue.Concurrency
import Blaize.Queue.Hands

/-!
A queue instance over a storage that hands out each job once
(`plugins/queue/src/queue-instance.ts`).

The storage may reject any call before it takes effect and answers what it likes; all that
it promises is that a job which was put in once is handed out once.  The settlement of the
`enqueue` of a retry, after which nothing happens, is taken at the moment when the storage
carries the call out.  `getJob` answers with the job it was asked for, so that the job a
helper of `executeJob` leaves `runningJobs` for is the one of its invocation.

* `SlotFacts`: **what a piece of `executeJob` does to the slot and the controller**;
* `Supply`: the instance with the identifiers that the storage holds;
* `load_step`: **a job comes into one more hand only if it is new or its timer fires**;
* `Single`: each job is in one hand at most.
-/

namespace Blaize.Queue

open Machine

variable {V : Type}

/-! ### The pieces of `executeJob` -/

/-- The invocation has not settled, or the loop's `catch` for it has still to run. -/
@[simp] def ExecPc.isOpen : ExecPc V → Bool
  | .settled => false
  | _ => true

/-- An open invocation that has more left than a `finally` without an error.  Only one that
has not may have scheduled a retry. -/
@[simp] def ExecPc.isLasting : ExecPc V → Bool
  | .finishing false => false
  | .settled => false
  | _ => true

lemma ExecPc.isOpen_of_isLasting {pc : ExecPc V} (h : pc.isLasting = true) : pc.isOpen = true := by
  cases pc with
  | settled => cases h
  | _ => rfl

/-- The invocation is inside the `try`, or in the `catch` or the `finally` of it. -/
@[simp] def ExecPc.inTry : ExecPc V → Bool
  | .gotJob _ => false
  | .noHandlerUpdated _ => false
  | .noHandlerGot _ _ => false
  | .noHandlerPublished _ => false
  | .invalidUpdated _ inTry => inTry
  | .invalidGot _ inTry _ => inTry
  | .invalidPublished _ inTry => inTry
  | .rejected => false
  | .settled => false
  | _ => true

/-- `handleValidationFailure` is about to return into the `try`, and leaves `runningJobs`. -/
@[simp] def ExecPc.freesEarly : ExecPc V → Bool
  | .invalidGot _ true none => true
  | .invalidPublished _ true => true
  | _ => false

/-- **What a piece of `executeJob` does to the slot and the controller** of its job. -/
structure SlotFacts (pc : ExecPc V) (eff : Effect V) : Prop where
  isOpen : pc.isOpen = true
  lasting : eff.next.isLasting.toNat + eff.retryTimer.isSome.toNat ≤ pc.isLasting.toNat
  working : eff.next.working = true → pc.working = true
  release : eff.release = true → eff.next.working = false
  settles : eff.next.isOpen = false → eff.release = true
  take : eff.takeController = true →
    pc.working = true ∧ eff.next.inTry = true ∧ eff.release = false
  stay : pc.inTry = true → eff.dropController = false → eff.next.inTry = true
  finish : pc = .finishing false → eff.dropController = true
  early : pc.inTry = true → eff.dropController = false → eff.release = true →
    eff.next = .finishing false ∧ pc.freesEarly = true

section Pieces

variable {cfg : QueueConfig V} {answer : Option (Job V)} {env : Env} {pc : ExecPc V}
  {eff : Effect V}

lemma dispatchPiece_slotFacts (now : ℕ) (job : Job V) :
    SlotFacts (.gotJob (some job)) (dispatchPiece cfg now job) := by
  rw [dispatchPiece]
  split
  · constructor <;> simp
  · split <;> constructor <;> simp

lemma outcomePiece_slotFacts (now : ℕ) (job : Job V) (reg : HandlerRegistration V)
    (outcome : Settlement V) :
    SlotFacts (.raceSettled job reg outcome) (outcomePiece now answer job reg outcome) := by
  cases outcome with
  | rejected err =>
      rw [outcomePiece, failurePiece]
      constructor <;> simp
  | resolved result =>
      rw [outcomePiece]
      split <;> constructor <;> simp

lemma completionDecision_slotFacts (now : ℕ) (job : Job V) (result : V)
    (currentJob : Option (Job V)) :
    SlotFacts (.completionGot job result currentJob)
      (completionDecision now job result currentJob) := by
  rw [completionDecision]
  split <;> constructor <;> simp

lemma failureDecision_slotFacts (now : ℕ) (job : Job V) (err : Thrown)
    (currentJob : Option (Job V)) :
    SlotFacts (.failureGot job err currentJob) (failureDecision now job err currentJob) := by
  rw [failureDecision]
  split
  · constructor <;> simp
  · dsimp only
    split
    · constructor <;> simp
    · split <;> constructor <;> simp
    · split <;> constructor <;> simp

lemma slotFacts_of_answered (h : execPiece cfg answer env pc = some eff) : SlotFacts pc eff := by
  cases pc with
  | gotJob job =>
      cases job with
      | none =>
          obtain rfl := Option.some.inj h
          constructor <;> simp
      | some job =>
          obtain rfl := Option.some.inj h
          exact dispatchPiece_slotFacts _ _
  | raceSettled job reg outcome =>
      obtain rfl := Option.some.inj h
      exact outcomePiece_slotFacts _ _ _ _
  | completionGot job result currentJob =>
      obtain rfl := Option.some.inj h
      exact completionDecision_slotFacts _ _ _ _
  | failureGot job err currentJob =>
      obtain rfl := Option.some.inj h
      exact failureDecision_slotFacts _ _ _ _
  | handlerRunning job reg => cases h
  | settled => cases h
  | noHandlerUpdated job | noHandlerPublished job | markedRunning job reg input
  | publishedStarted job reg input | completedUpdated job | completedPublished job
  | caught job err | cancelledUpdated job | retryUpdated job attempt | failedUpdated job
  | failedPublished job | rejected =>
      obtain rfl := Option.some.inj h
      constructor <;> simp [failurePiece]
  | invalidUpdated job inTry | invalidPublished job inTry =>
      obtain rfl := Option.some.inj h
      cases inTry <;> constructor <;> simp
  | finishing threw =>
      obtain rfl := Option.some.inj h
      cases threw <;> constructor <;> simp
  | noHandlerGot job failedJob | completedGot job failedJob | cancelledGot job failedJob
  | failedGot job failedJob =>
      cases failedJob with
      | none =>
          obtain rfl := Option.some.inj h
          constructor <;> simp
      | some failedJob =>
          simp only [execPiece] at h
          cases hthrows : env.throws <;> rw [hthrows] at h <;> obtain rfl := Option.some.inj h <;>
            constructor <;> simp
  | invalidGot job inTry failedJob =>
      cases failedJob with
      | none =>
          obtain rfl := Option.some.inj h
          cases inTry <;> constructor <;> simp
      | some failedJob =>
          simp only [execPiece] at h
          cases hthrows : env.throws <;> rw [hthrows] at h <;> obtain rfl := Option.some.inj h <;>
            cases inTry <;> constructor <;> simp
  | gotRunning job reg input runningJob =>
      cases runningJob with
      | none =>
          obtain rfl := Option.some.inj h
          constructor <;> simp
      | some runningJob =>
          simp only [execPiece] at h
          cases hthrows : env.throws <;> rw [hthrows] at h <;> obtain rfl := Option.some.inj h <;>
            constructor <;> simp [failurePiece]
  | retryGot job attempt updatedJob =>
      simp only [execPiece] at h
      split at h <;> obtain rfl := Option.some.inj h <;> constructor <;> simp

/-- The same for a call that rejects, after which the invocation keeps its slot. -/
lemma slotFacts_of_refused {err : Thrown} (h : execReject answer err pc = some eff) :
    SlotFacts pc eff ∧ eff.release = false := by
  cases pc with
  | invalidUpdated job inTry | invalidGot job inTry failedJob =>
      obtain rfl := Option.some.inj h
      refine ⟨?_, rfl⟩
      cases inTry <;> constructor <;> simp
  | markedRunning job reg input | gotRunning job reg input runningJob =>
      obtain rfl := Option.some.inj h
      refine ⟨?_, rfl⟩
      constructor <;> simp [failurePiece]
  | noHandlerPublished job | invalidPublished job inTry | publishedStarted job reg input
  | handlerRunning job reg | raceSettled job reg outcome | completedPublished job
  | caught job err | failedPublished job | finishing threw | rejected | settled => cases h
  | _ =>
      obtain rfl := Option.some.inj h
      refine ⟨?_, rfl⟩
      constructor <;> simp

end Pieces

/-! ### A storage that hands out each job once -/

/-- The task has the job `id` in its hands; `q` selects the invocations that count. -/
def OpenTask.inHand (q : ExecPc V → Bool) (id : String) : OpenTask V → Bool
  | .loop (.dequeued (some job)) => job.id = id
  | .exec jobId pc => jobId = id && q pc
  | .retry jobId _ stage => jobId = id && stage ≠ .finished
  | _ => false

lemma OpenTask.inHand_congr {q q' : ExecPc V → Bool} {id : String} {t : OpenTask V}
    (h : ∀ jobId pc, t = .exec jobId pc → jobId = id → q pc = q' pc) :
    t.inHand q id = t.inHand q' id := by
  cases t with
  | exec jobId pc =>
      by_cases hid : jobId = id
      · simp only [inHand, h jobId pc rfl hid]
      · simp [inHand, hid]
  | loop stage =>
      cases stage with
      | dequeued job => cases job <;> rfl
      | _ => rfl
  | _ => rfl

/-- The invocation for `id` has only its `finally` left. -/
def OpenTask.isFinishing (id : String) : OpenTask V → Bool
  | .exec jobId (.finishing _) => jobId = id
  | _ => false

/-- A queue instance with the identifiers of the jobs that wait in the storage (`queued`) or
were ever put into it (`known`), and with the invocations that have left `runningJobs` by
`handleValidationFailure` inside the `try`. -/
structure Supply (V : Type) where
  inst : OpenInstance V := {}
  queued : List String := []
  known : List String := []
  freed : List ℕ := []

namespace Supply

variable (cfg : QueueConfig V) (w : Supply V)

/-- What the storage and the event loop promise: `add` takes a new identifier, `dequeue`
hands out a waiting job, and no retry timer of a job fires while an invocation for it has
only its `finally` left, because microtasks run before timers. -/
def Allowed : OpenAction V → Prop
  | .add id _ _ _ _ => id ∉ w.known
  | .serve _ (some job) => job.id ∈ w.queued
  | .fire t => ∀ timer ∈ w.inst.timers.find? (·.id = t),
      ∀ task ∈ w.inst.tasks, task.isFinishing timer.jobId = false
  | _ => True

instance : (a : OpenAction V) → Decidable (w.Allowed a)
  | .add _ _ _ _ _ => inferInstanceAs (Decidable (_ ∉ _))
  | .serve _ (some _) => inferInstanceAs (Decidable (_ ∈ _))
  | .fire _ => inferInstanceAs (Decidable (∀ timer ∈ _, ∀ task ∈ _, _))
  | .serve _ none | .start | .stop _ | .cancelJob _ _ | .resume _ _ _ | .reject _ _ _
  | .settle _ _ | .timeout _ => .isTrue trivial

/-- The jobs that wait after an action. -/
def queuedAfter : OpenAction V → List String
  | .add id _ _ _ _ => id :: w.queued
  | .serve _ (some job) => w.queued.erase job.id
  | .resume i _ _ =>
      match w.inst.tasks[i]? with
      | some (.retry jobId _ .enqueuing) => jobId :: w.queued
      | _ => w.queued
  | _ => w.queued

/-- The ids that were given to `add` so far. -/
def knownAfter : OpenAction V → List String
  | .add id _ _ _ _ => id :: w.known
  | _ => w.known

/-- The tasks that have given up their slot so far. -/
def freedAfter : OpenAction V → List ℕ
  | .resume i _ _ =>
      match w.inst.tasks[i]? with
      | some (.exec _ pc) => if pc.freesEarly then i :: w.freed else w.freed
      | _ => w.freed
  | _ => w.freed

/-- A step that the storage allows, with what is known of it. -/
def step (a : OpenAction V) : Option (Supply V) :=
  if w.Allowed a then
    (w.inst.step cfg a).map fun inst =>
      { inst, queued := w.queuedAfter a, known := w.knownAfter a, freed := w.freedAfter a }
  else
    none

/-- The instance is constructed over a storage in which some jobs wait already. -/
def start (ids : List String) : Supply V := { queued := ids, known := ids }

/-! ### One hand for each job -/

/-- The hands that the job `id` is in. -/
def hands (q : ExecPc V → Bool) (id : String) : ℕ :=
  w.queued.count id + w.inst.tasks.countP (OpenTask.inHand q id)

/-- The retry timers of the job `id`. -/
def timersOf (id : String) : ℕ := w.inst.timers.countP (·.jobId = id)

/-- The hands, and with `timers` the retry timers as well. -/
def load (q : ExecPc V → Bool) (timers : Bool) (id : String) : ℕ :=
  w.hands q id + if timers then w.timersOf id else 0

/-- What `q` selects falls away with the pieces of an invocation, and with `timers` pays for
the retry timer that one of them sets. -/
structure Selects (q : ExecPc V → Bool) (timers : Bool) : Prop where
  race : ∀ job reg outcome, q (.raceSettled job reg outcome) = q (.handlerRunning job reg)
  piece : ∀ {pc eff}, SlotFacts pc eff →
    (q eff.next).toNat + (if timers then eff.retryTimer.isSome.toNat else 0) ≤ (q pc).toNat

lemma selects_isOpen : Selects (ExecPc.isOpen : ExecPc V → Bool) false where
  race _ _ _ := rfl
  piece {pc eff} hf := by
    rw [hf.isOpen]
    exact Bool.toNat_le _

lemma selects_isLasting : Selects (ExecPc.isLasting : ExecPc V → Bool) true where
  race _ _ _ := rfl
  piece hf := hf.lasting

/-- A new job. -/
def added (id : String) : OpenAction V → ℕ
  | .add id' _ _ _ _ => if id' = id then 1 else 0
  | _ => 0

/-- A retry timer of the job that fires. -/
def firing (id : String) : OpenAction V → ℕ
  | .fire t => if (w.inst.timers.find? (·.id = t)).any (·.jobId = id) then 1 else 0
  | _ => 0

variable {cfg w} {w' : Supply V} {a : OpenAction V} {q : ExecPc V → Bool} {timers : Bool}

lemma step_eq_some (h : w.step cfg a = some w') :
    w.Allowed a ∧ ∃ inst, w.inst.step cfg a = some inst ∧
      w' = { inst, queued := w.queuedAfter a, known := w.knownAfter a
             freed := w.freedAfter a } := by
  rw [step] at h
  split at h
  next hallow =>
      obtain ⟨inst, hinst, rfl⟩ := Option.map_eq_some_iff.mp h
      exact ⟨hallow, inst, hinst, rfl⟩
  next => cases h

lemma coarse_inHand (hq : Selects q timers) (id : String) : Coarse (OpenTask.inHand q id) where
  control {t} ht := by cases t <;> first | rfl | cases ht
  race _ job reg outcome := by simp only [OpenTask.inHand, hq.race]

/-- A loop that goes around has no job in its hands. -/
lemma inHand_loopHead (cfg : QueueConfig V) (s : OpenInstance V) (id : String) :
    (OpenTask.loop (s.loopHead cfg) : OpenTask V).inHand q id = false := by
  rcases s.loopHead_cases cfg with hhead | hhead | ⟨hhead, _⟩ <;> rw [hhead] <;> rfl

lemma queuedAfter_resume {i : ℕ} {env : Env} {answer : Option (Job V)} {t : OpenTask V}
    (hi : w.inst.tasks[i]? = some t) (ht : ∀ jobId attempt, t ≠ .retry jobId attempt .enqueuing) :
    w.queuedAfter (.resume i env answer) = w.queued := by
  rw [queuedAfter, hi]
  split
  next jobId attempt he => exact absurd (Option.some.inj he) (ht jobId attempt)
  next => rfl

lemma count_queuedAfter_of_leavesWork (ha : w.inst.LeavesWork a) (id : String) :
    (w.queuedAfter a).count id = w.queued.count id + added id a := by
  cases a with
  | add id' jobType data options now => simp [queuedAfter, added, List.count_cons]
  | serve i job => exact ha.elim
  | fire t => exact ha.elim
  | resume i env answer =>
      obtain ⟨t, hi, ht⟩ := ha
      rw [queuedAfter_resume hi (by rintro jobId attempt rfl; cases ht)]
      rfl
  | _ => rfl

/-- The hands of a job after one task is replaced. -/
lemma countP_inHand_setTask {s : OpenInstance V} {i : ℕ} {t u : OpenTask V}
    (hi : s.tasks[i]? = some t) (id : String) (h : u.inHand q id = false) :
    (s.setTask i u).tasks.countP (OpenTask.inHand q id) + (t.inHand q id).toNat =
      s.tasks.countP (OpenTask.inHand q id) := by
  have hcount := OpenInstance.countP_setTask (OpenTask.inHand q id) hi u
  rwa [h] at hcount

/-- The timers after a piece of an invocation. -/
lemma countP_timers_applyEffect (s : OpenInstance V) (i : ℕ) (jobId : String) (eff : Effect V)
    (id : String) :
    (s.applyEffect i jobId eff).timers.countP (·.jobId = id) =
      s.timers.countP (·.jobId = id) +
        if jobId = id then eff.retryTimer.isSome.toNat else 0 := by
  rw [OpenInstance.applyEffect]
  dsimp only
  cases eff.retryTimer with
  | none => simp
  | some attempt =>
      rw [List.countP_cons]
      simp

/-- What is in hand after a piece of an invocation, and the timer that it may set. -/
lemma inHand_applyEffect (hq : Selects q timers) {s : OpenInstance V} {i : ℕ} {jobId : String}
    {pc : ExecPc V} {eff : Effect V} (hi : s.tasks[i]? = some (.exec jobId pc))
    (hf : SlotFacts pc eff) (id : String) :
    (s.applyEffect i jobId eff).tasks.countP (OpenTask.inHand q id) +
        (if timers then (s.applyEffect i jobId eff).timers.countP (·.jobId = id) else 0) ≤
      s.tasks.countP (OpenTask.inHand q id) +
        if timers then s.timers.countP (·.jobId = id) else 0 := by
  have hcount : (s.applyEffect i jobId eff).tasks.countP (OpenTask.inHand q id) +
      (OpenTask.inHand q id (.exec jobId pc)).toNat =
        s.tasks.countP (OpenTask.inHand q id) +
          (OpenTask.inHand q id (.exec jobId eff.next)).toNat :=
    OpenInstance.countP_setTask (OpenTask.inHand q id) hi (.exec jobId eff.next)
  have hpiece := hq.piece hf
  rw [countP_timers_applyEffect]
  simp only [OpenTask.inHand] at hcount
  by_cases hid : jobId = id
  · simp only [hid, decide_true, Bool.true_and, if_true] at hcount ⊢
    cases timers <;> simp only [if_true, Bool.false_eq_true, if_false] at hpiece ⊢ <;> omega
  · simp only [hid, decide_false, Bool.false_and, if_false, Nat.add_zero] at hcount ⊢
    omega

/-- A retry timer that fires passes its job on to its callback. -/
lemma load_fireTimer (q : ExecPc V → Bool) {s : OpenInstance V} {timer : RetryTimer}
    (ht : timer ∈ s.timers) (id : String) :
    (s.fireTimer timer).tasks.countP (OpenTask.inHand q id) ≤
        s.tasks.countP (OpenTask.inHand q id) + (if timer.jobId = id then 1 else 0) ∧
      (s.fireTimer timer).timers.countP (·.jobId = id) + (if timer.jobId = id then 1 else 0) =
        s.timers.countP (·.jobId = id) := by
  have htimers : (s.fireTimer timer).timers = s.timers.erase timer := by
    rw [OpenInstance.fireTimer]
    split <;> rfl
  constructor
  · rw [OpenInstance.fireTimer]
    split
    · exact Nat.le_add_right _ _
    · rw [OpenInstance.countP_spawn]
      refine Nat.add_le_add_left ?_ _
      simp only [OpenTask.inHand]
      by_cases hid : timer.jobId = id <;> simp [hid]
  · have herase := (List.perm_cons_erase ht).countP_eq (fun timer => decide (timer.jobId = id))
    rw [List.countP_cons] at herase
    rw [htimers, herase]
    simp

/-- **A step brings a job into one more hand only if it is new or its timer fires**, and the
timer pays for that where timers count. -/
theorem load_step (hq : Selects q timers) (h : w.step cfg a = some w') (id : String) :
    w'.load q timers id ≤
      w.load q timers id + added id a + if timers then 0 else w.firing id a := by
  obtain ⟨hallow, inst, hinst, rfl⟩ := step_eq_some h
  simp only [load, hands, timersOf]
  cases OpenInstance.change_of_step hinst with
  | same ha hsame =>
      have hcount := hsame.countP (coarse_inHand hq id)
      have htimers := hsame.timers.countP_le (p := fun timer => decide (timer.jobId = id))
      rw [count_queuedAfter_of_leavesWork ha, hcount]
      split <;> omega
  | started hrun hs₀ =>
      subst hs₀
      rw [OpenInstance.countP_spawn, inHand_loopHead]
      exact Nat.le_add_right _ _
  | @served i job hi =>
      have hcount := OpenInstance.countP_setTask (OpenTask.inHand q id)
        (s := { w.inst with trace := (job.map OpenEvent.taken).toList ++ w.inst.trace }) hi
        (.loop (.dequeued job))
      cases job with
      | none =>
          simp only [OpenTask.inHand, Bool.toNat_false, Nat.add_zero] at hcount
          rw [hcount]
          exact Nat.le_add_right _ _
      | some job =>
          have hmem : job.id ∈ w.queued := hallow
          have herase := (List.perm_cons_erase hmem).count_eq id
          simp only [List.count_cons, beq_iff_eq] at herase
          simp only [OpenTask.inHand, Bool.toNat_false, Nat.add_zero] at hcount
          rw [hcount, queuedAfter, herase]
          have hjob : (decide (job.id = id)).toNat = if job.id = id then 1 else 0 := by
            split <;> simp [*]
          rw [hjob]
          change _ + _ + (if timers then w.inst.timers.countP _ else 0) ≤ _
          omega
  | @launched i job env answer hi =>
      have hi' : (w.inst.launch job answer).tasks[i]? = some (.loop (.dequeued (some job))) :=
        OpenInstance.getElem?_spawn _ hi
      have hlaunch := OpenInstance.countP_spawn (OpenTask.inHand q id)
        (.exec job.id (.gotJob answer))
        (s := { w.inst with runningJobs := OrdSet.add w.inst.runningJobs job.id })
      have hcount := countP_inHand_setTask (q := q) hi' id
        (inHand_loopHead cfg (w.inst.launch job answer) id)
      have hle : (OpenTask.inHand q id (.exec job.id (.gotJob answer))).toNat ≤
          (OpenTask.inHand q id (.loop (.dequeued (some job)))).toNat :=
        Bool.toNat_le_toNat (Bool.le_iff_imp.mpr (by simp +contextual [OpenTask.inHand]))
      change List.countP _ (w.inst.launch job answer).tasks = _ at hlaunch
      change _ = List.countP _ w.inst.tasks + _ at hlaunch
      rw [queuedAfter_resume hi (by simp), OpenInstance.loopAround]
      change _ + _ + (if timers then w.inst.timers.countP _ else 0) ≤ _
      omega
  | rested env answer hi =>
      have hcount := countP_inHand_setTask (q := q) (u := .loop .delaying) hi id rfl
      rw [queuedAfter_resume hi (by simp)]
      change _ + _ + (if timers then w.inst.timers.countP _ else 0) ≤ _
      omega
  | around env answer hi =>
      have hcount := countP_inHand_setTask (q := q) hi id (inHand_loopHead cfg w.inst id)
      rw [queuedAfter_resume hi (by simp)]
      change _ + List.countP _ (w.inst.setTask _ _).tasks +
        (if timers then w.inst.timers.countP _ else 0) ≤ _
      omega
  | failed err answer hi =>
      have hcount := countP_inHand_setTask (q := q) (u := .loop .rejected) hi id rfl
      change w.queued.count id + _ + (if timers then w.inst.timers.countP _ else 0) ≤ _
      omega
  | answered hi heff =>
      have happly := inHand_applyEffect hq hi (slotFacts_of_answered heff) id
      rw [queuedAfter_resume hi (by simp)]
      omega
  | refused hi heff =>
      have happly := inHand_applyEffect hq hi (slotFacts_of_refused heff).1 id
      change w.queued.count id + _ + _ ≤ _
      omega
  | @fetched i jobId attempt env answer hi stage =>
      have hcount := OpenInstance.countP_setTask (OpenTask.inHand q id) hi
        (.retry jobId attempt stage)
      have hle : (OpenTask.inHand q id (.retry jobId attempt stage)).toNat ≤
          (OpenTask.inHand q id (.retry jobId attempt .getting)).toNat :=
        Bool.toNat_le_toNat (Bool.le_iff_imp.mpr (by simp +contextual [OpenTask.inHand]))
      rw [queuedAfter_resume hi (by simp)]
      change _ + _ + (if timers then w.inst.timers.countP _ else 0) ≤ _
      omega
  | @enqueued i jobId attempt env answer hi =>
      have hcount := countP_inHand_setTask (q := q) (u := .retry jobId attempt .finished) hi id
        (by simp [OpenTask.inHand])
      have hput : (w.queuedAfter (.resume i env answer)).count id =
          w.queued.count id + (OpenTask.inHand q id (.retry jobId attempt .enqueuing)).toNat := by
        rw [queuedAfter, hi]
        simp only [List.count_cons, beq_iff_eq, OpenTask.inHand]
        by_cases hid : jobId = id <;> simp [hid]
      rw [hput]
      change _ + _ + (if timers then w.inst.timers.countP _ else 0) ≤ _
      omega
  | @dropped i jobId attempt stage err answer hi =>
      have hcount := countP_inHand_setTask (q := q) (u := .retry jobId attempt .finished) hi id
        (by simp [OpenTask.inHand])
      change w.queued.count id + _ + (if timers then w.inst.timers.countP _ else 0) ≤ _
      omega
  | @fired t timer ht =>
      have hfire := load_fireTimer q (List.mem_of_find?_eq_some ht) id
      simp only [firing, ht, Option.any_some, decide_eq_true_eq]
      change w.queued.count id + _ + _ ≤ _
      split <;> omega

/-! ### One hand at a time -/

lemma hands_isLasting_le (w : Supply V) (id : String) :
    w.hands ExecPc.isLasting id ≤ w.hands ExecPc.isOpen id := by
  refine Nat.add_le_add_left (List.countP_mono_left fun t _ ht => ?_) _
  cases t with
  | exec jobId pc =>
      simp only [OpenTask.inHand, Bool.and_eq_true] at ht ⊢
      exact ⟨ht.1, ExecPc.isOpen_of_isLasting ht.2⟩
  | loop stage =>
      have hsame : (OpenTask.loop stage).inHand ExecPc.isLasting id =
          (OpenTask.loop stage).inHand ExecPc.isOpen id :=
        OpenTask.inHand_congr fun _ _ he => by cases he
      rwa [← hsame]
  | _ => exact ht

lemma hands_isLasting_eq {id : String} (h : ∀ task ∈ w.inst.tasks, task.isFinishing id = false) :
    w.hands ExecPc.isLasting id = w.hands ExecPc.isOpen id := by
  refine congrArg (_ + ·) (List.countP_congr fun t ht => Bool.eq_iff_iff.mp ?_)
  refine OpenTask.inHand_congr fun jobId pc he hid => ?_
  subst he hid
  have hno := h _ ht
  cases pc with
  | finishing threw => simp [OpenTask.isFinishing] at hno
  | _ => rfl

/-- **Each job is in one hand at most**, a retry timer included; only an invocation that has
nothing but its `finally` left may stand beside the timer that it has set. -/
structure Single (w : Supply V) : Prop where
  fresh : ∀ id, id ∉ w.known → w.load ExecPc.isOpen true id = 0
  once : ∀ id, w.hands ExecPc.isOpen id ≤ 1
  next : ∀ id, w.load ExecPc.isLasting true id ≤ 1

lemma single_start {ids : List String} (hids : ids.Nodup) : (start ids : Supply V).Single where
  fresh id hid := by
    change ids.count id + 0 + 0 = 0
    have hid : id ∉ ids := hid
    rw [List.count_eq_zero_of_not_mem hid]
  once id := List.nodup_iff_count_le_one.mp hids id
  next id := List.nodup_iff_count_le_one.mp hids id

lemma firing_le_timersOf (w : Supply V) (a : OpenAction V) (id : String) :
    w.firing id a ≤ w.timersOf id := by
  cases a with
  | fire t =>
      rw [firing]
      cases ht : w.inst.timers.find? (·.id = t) with
      | none => exact Nat.zero_le _
      | some timer =>
          rw [Option.any_some]
          split
          next hid => exact List.countP_pos_iff.mpr ⟨timer, List.mem_of_find?_eq_some ht, hid⟩
          next => exact Nat.zero_le _
  | _ => exact Nat.zero_le _

/-- **One step keeps each job in one hand.** -/
lemma Single.step (h : w.Single) (hstep : w.step cfg a = some w') : w'.Single := by
  obtain ⟨hallow, inst, hinst, hw'⟩ := step_eq_some hstep
  have hopen := load_step selects_isOpen hstep
  have hlasting := load_step selects_isLasting hstep
  simp only [load, Bool.false_eq_true, if_false, if_true, Nat.add_zero] at hopen hlasting
  have hfiring := fun id => w.firing_le_timersOf a id
  have hnew : ∀ id, added id a ≠ 0 → w.load ExecPc.isOpen true id = 0 ∧ added id a = 1 := by
    intro id hid
    cases a with
    | add id' jobType data options now =>
        have hid' : id' = id := by simpa [added] using hid
        subst hid'
        exact ⟨h.fresh _ hallow, by simp [added]⟩
    | _ => exact absurd rfl hid
  have htimely : ∀ id, w.firing id a ≠ 0 →
      w.hands ExecPc.isLasting id = w.hands ExecPc.isOpen id ∧ w.firing id a = 1 := by
    intro id hid
    cases a with
    | fire t =>
        rw [firing] at hid ⊢
        cases ht : w.inst.timers.find? (·.id = t) with
        | none => simp [ht] at hid
        | some timer =>
            have hjob : timer.jobId = id := by simpa [ht] using hid
            subst hjob
            exact ⟨hands_isLasting_eq (hallow timer ht), by simp⟩
    | _ => exact absurd rfl hid
  refine ⟨fun id hid => ?_, fun id => ?_, fun id => ?_⟩
  · have hold : id ∉ w.known ∧ added id a = 0 := by
      subst hw'
      cases a with
      | add id' jobType data options now =>
          have hid : id ∉ id' :: w.known := hid
          rw [List.mem_cons, not_or] at hid
          exact ⟨hid.2, by simp [added, Ne.symm hid.1]⟩
      | _ => exact ⟨hid, rfl⟩
    have hnone := h.fresh id hold.1
    have hle := w.hands_isLasting_le id
    simp only [load, if_true] at hnone ⊢
    have h1 := hopen id
    have h2 := hlasting id
    have h3 := hfiring id
    omega
  · have h1 := hopen id
    by_cases hadd : added id a = 0
    · by_cases hfire : w.firing id a = 0
      · have := h.once id
        omega
      · obtain ⟨heq, hone⟩ := htimely id hfire
        have h2 := h.next id
        have h3 := hfiring id
        simp only [load, if_true] at h2
        omega
    · obtain ⟨hnone, hone⟩ := hnew id hadd
      have h3 := hfiring id
      simp only [load, if_true] at hnone
      omega
  · have h2 := hlasting id
    simp only [load, if_true]
    by_cases hadd : added id a = 0
    · have := h.next id
      simp only [load, if_true] at this
      omega
    · obtain ⟨hnone, hone⟩ := hnew id hadd
      have hle := w.hands_isLasting_le id
      simp only [load, if_true] at hnone
      omega

end Supply

end Blaize.Queue
