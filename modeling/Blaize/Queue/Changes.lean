import Blaize.Lib.Count
import Blaize.Queue.OpenMoves

/-!
What one step of a queue instance over any storage changes in the work that is going on.

The work is done by the loops, the `executeJob` invocations and the callbacks of the retry
timers.  `cancelJob` and `stop` leave it alone, but that an abort settles the race of a
running handler and that `stop` clears timers.

* `Coarse`: the properties of tasks that do not see `cancelJob`, `stop` and the race;
* `SameWork`: the tasks look the same to every coarse property;
* `Change`: **all that a step can do**;
* `change_of_step`: every step is one of these changes.
-/

namespace Blaize.Queue

variable {V : Type}

/-- An invocation of `cancelJob` or `stop`. -/
def OpenTask.isControl : OpenTask V → Bool
  | .cancel _ _ _ => true
  | .stop _ => true
  | _ => false

/-- A property of tasks that no invocation of `cancelJob` or `stop` has and that a handler
keeps when it settles. -/
structure Coarse (p : OpenTask V → Bool) : Prop where
  control : ∀ {t}, t.isControl = true → p t = false
  race : ∀ jobId job reg outcome, p (.exec jobId (.raceSettled job reg outcome)) =
    p (.exec jobId (.handlerRunning job reg))

namespace OpenInstance

variable {cfg : QueueConfig V} {s s' s'' : OpenInstance V}

/-- **The work is the same**, whatever `cancelJob` and `stop` do. -/
structure SameWork (s s' : OpenInstance V) : Prop where
  runningJobs : s'.runningJobs = s.runningJobs
  owner : ∀ id, (s'.abortControllers.get id).map AbortController.task =
    (s.abortControllers.get id).map AbortController.task
  timers : s'.timers.Sublist s.timers
  tasks : ∀ {p}, Coarse p → ∀ i : ℕ, (s'.tasks[i]?).any p = (s.tasks[i]?).any p

lemma SameWork.refl (s : OpenInstance V) : SameWork s s where
  runningJobs := rfl
  owner _ := rfl
  timers := .refl _
  tasks _ _ := rfl

lemma SameWork.trans (h : SameWork s s') (h' : SameWork s' s'') : SameWork s s'' where
  runningJobs := h'.runningJobs.trans h.runningJobs
  owner id := (h'.owner id).trans (h.owner id)
  timers := h'.timers.trans h.timers
  tasks hp i := (h'.tasks hp i).trans (h.tasks hp i)

/-- The same work has the same number of tasks of every kind. -/
lemma SameWork.countP (h : SameWork s s') {p : OpenTask V → Bool} (hp : Coarse p) :
    s'.tasks.countP p = s.tasks.countP p :=
  List.countP_eq_of_forall_getElem? p (h.tasks hp)

/-- A task is replaced by one that looks the same. -/
lemma sameWork_setTask {i : ℕ} {t u : OpenTask V} (hi : s.tasks[i]? = some t)
    (h : ∀ {p}, Coarse p → p u = p t) : SameWork s (s.setTask i u) where
  runningJobs := rfl
  owner _ := rfl
  timers := .refl _
  tasks hp j := by
    rcases eq_or_ne i j with rfl | hne
    · rw [getElem?_setTask hi, hi]
      exact h hp
    · rw [setTask, List.getElem?_set_ne hne]

lemma sameWork_control {i : ℕ} {t u : OpenTask V} (hi : s.tasks[i]? = some t)
    (ht : t.isControl = true) (hu : u.isControl = true) : SameWork s (s.setTask i u) :=
  sameWork_setTask hi fun hp => (hp.control hu).trans (hp.control ht).symm

/-- Invocations of `cancelJob` and `stop` come in. -/
lemma sameWork_append {ts : List (OpenTask V)} (hts : ∀ t ∈ ts, t.isControl = true) :
    SameWork s { s with tasks := s.tasks ++ ts } where
  runningJobs := rfl
  owner _ := rfl
  timers := .refl _
  tasks {p} hp i := by
    rcases Nat.lt_or_ge i s.tasks.length with hlt | hge
    · rw [List.getElem?_append_left hlt]
    · rw [List.getElem?_append_right hge, List.getElem?_eq_none hge, Option.any_none]
      cases ht : ts[i - s.tasks.length]? with
      | none => rfl
      | some t => exact hp.control (hts t (List.mem_of_getElem? ht))

lemma sameWork_spawn {t : OpenTask V} (ht : t.isControl = true) : SameWork s (s.spawn t) :=
  sameWork_append fun u hu => by
    rw [List.mem_singleton.mp hu]
    exact ht

/-- An abort marks a controller, which keeps its owner, and settles a race. -/
lemma sameWork_abort (jobId : String) : SameWork s (s.abort jobId) := by
  rw [abort]
  split
  · exact .refl s
  next controller hc =>
      split
      · exact .refl s
      · let controllers := s.abortControllers.set jobId { controller with aborted := true }
        have hmark : SameWork s { s with abortControllers := controllers } := by
          refine ⟨rfl, fun id => ?_, .refl _, fun _ _ => rfl⟩
          dsimp only [controllers]
          rw [OrdMap.get_set]
          split
          next he =>
              subst he
              rw [hc]
              rfl
          next => rfl
        split
        next id job reg hi =>
            exact hmark.trans (sameWork_setTask (s := { s with abortControllers := controllers }) hi
              fun hp => hp.race id job reg _)
        next => exact hmark

lemma sameWork_clearRetryTimers (s : OpenInstance V) : SameWork s s.clearRetryTimers :=
  ⟨rfl, fun _ => rfl, List.filter_sublist, fun _ _ => rfl⟩

/-! ### One step -/

/-- The actions that may leave the work as it is: calls, races that settle, and what happens
to an invocation of `cancelJob` or `stop`. -/
def LeavesWork (s : OpenInstance V) : OpenAction V → Prop
  | .serve _ _ => False
  | .fire _ => False
  | .resume i _ _ => ∃ t, s.tasks[i]? = some t ∧ t.isControl = true
  | .reject i _ _ => ∃ t, s.tasks[i]? = some t ∧ t.isControl = true
  | _ => True

/-- **All that a step can do.** -/
inductive Change (cfg : QueueConfig V) (s : OpenInstance V) :
    OpenAction V → OpenInstance V → Prop
  | same {a : OpenAction V} {s' : OpenInstance V} (ha : s.LeavesWork a) (h : SameWork s s') :
      Change cfg s a s'
  | started {s₀ : OpenInstance V} (hrun : s.isRunning = false)
      (hs₀ : s₀ = { s with isRunning := true, isShuttingDown := false }) :
      Change cfg s .start (s₀.spawn (.loop (s₀.loopHead cfg)))
  | served {i : ℕ} (job : Option (Job V)) (hi : s.tasks[i]? = some (.loop .dequeuing)) :
      Change cfg s (.serve i job)
        ({ s with trace := (job.map OpenEvent.taken).toList ++ s.trace }.setTask i
          (.loop (.dequeued job)))
  | launched {i : ℕ} {job : Job V} (env : Env) (answer : Option (Job V))
      (hi : s.tasks[i]? = some (.loop (.dequeued (some job)))) :
      Change cfg s (.resume i env answer) ((s.launch job answer).loopAround cfg i)
  | rested {i : ℕ} (env : Env) (answer : Option (Job V))
      (hi : s.tasks[i]? = some (.loop (.dequeued none))) :
      Change cfg s (.resume i env answer) (s.setTask i (.loop .delaying))
  | around {i : ℕ} (env : Env) (answer : Option (Job V))
      (hi : s.tasks[i]? = some (.loop .delaying)) :
      Change cfg s (.resume i env answer) (s.loopAround cfg i)
  | failed {i : ℕ} (err : Thrown) (answer : Option (Job V))
      (hi : s.tasks[i]? = some (.loop .dequeuing)) :
      Change cfg s (.reject i err answer) (s.setTask i (.loop .rejected))
  | answered {i : ℕ} {env : Env} {answer : Option (Job V)} {jobId : String} {pc : ExecPc V}
      {eff : Effect V} (hi : s.tasks[i]? = some (.exec jobId pc))
      (heff : execPiece cfg answer env pc = some eff) :
      Change cfg s (.resume i env answer) (s.applyEffect i jobId eff)
  | refused {i : ℕ} {err : Thrown} {answer : Option (Job V)} {jobId : String} {pc : ExecPc V}
      {eff : Effect V} (hi : s.tasks[i]? = some (.exec jobId pc))
      (heff : execReject answer err pc = some eff) :
      Change cfg s (.reject i err answer) (s.applyEffect i jobId eff)
  | fetched {i : ℕ} {jobId : String} {attempt : ℕ} (env : Env) (answer : Option (Job V))
      (hi : s.tasks[i]? = some (.retry jobId attempt .getting)) (stage : RetryStage) :
      Change cfg s (.resume i env answer) (s.setTask i (.retry jobId attempt stage))
  | enqueued {i : ℕ} {jobId : String} {attempt : ℕ} (env : Env) (answer : Option (Job V))
      (hi : s.tasks[i]? = some (.retry jobId attempt .enqueuing)) :
      Change cfg s (.resume i env answer) (s.setTask i (.retry jobId attempt .finished))
  | dropped {i : ℕ} {jobId : String} {attempt : ℕ} {stage : RetryStage} (err : Thrown)
      (answer : Option (Job V)) (hi : s.tasks[i]? = some (.retry jobId attempt stage)) :
      Change cfg s (.reject i err answer) (s.setTask i (.retry jobId attempt .finished))
  | fired {t : ℕ} {timer : RetryTimer} (ht : s.timers.find? (·.id = t) = some timer) :
      Change cfg s (.fire t) (s.fireTimer timer)

lemma change_resumeLoop {i : ℕ} {env : Env} {answer : Option (Job V)} {stage : LoopStage V}
    (hi : s.tasks[i]? = some (.loop stage)) (h : s.resumeLoop cfg i answer stage = some s') :
    Change cfg s (.resume i env answer) s' := by
  cases stage with
  | dequeued job =>
      cases job with
      | none =>
          obtain rfl := Option.some.inj h
          exact .rested env answer hi
      | some job =>
          obtain rfl := Option.some.inj h
          exact .launched env answer hi
  | delaying =>
      obtain rfl := Option.some.inj h
      exact .around env answer hi
  | dequeuing => cases h
  | returned => cases h
  | rejected => cases h

lemma sameWork_resumeCancel {i : ℕ} {env : Env} {jobId : String} {reason : Option String}
    {answer : Option (Job V)} {stage : CancelStage}
    (hi : s.tasks[i]? = some (.cancel jobId reason stage))
    (h : s.resumeCancel i env jobId reason answer stage = some s') : SameWork s s' := by
  cases stage with
  | getting =>
      cases answer with
      | none =>
          obtain rfl := Option.some.inj h
          exact sameWork_control hi rfl rfl
      | some job =>
          obtain rfl := Option.some.inj h
          exact (sameWork_abort jobId).trans (sameWork_control (getElem?_abort hi rfl) rfl rfl)
  | settled => cases h
  | updating | regetting | publishing =>
      obtain rfl := Option.some.inj h
      exact sameWork_control hi rfl rfl

lemma change_resumeRetry {i : ℕ} {env : Env} {jobId : String} {attempt : ℕ}
    {answer : Option (Job V)} {stage : RetryStage}
    (hi : s.tasks[i]? = some (.retry jobId attempt stage))
    (h : s.resumeRetry i jobId attempt answer stage = some s') :
    Change cfg s (.resume i env answer) s' := by
  cases stage with
  | getting =>
      obtain rfl := Option.some.inj h
      exact .fetched env answer hi _
  | enqueuing =>
      obtain rfl := Option.some.inj h
      exact .enqueued env answer hi
  | finished => cases h

lemma sameWork_resumeStop {i : ℕ} {env : Env} {stage : StopStage}
    (hi : s.tasks[i]? = some (.stop stage)) (h : s.resumeStop i env stage = some s') :
    SameWork s s' := by
  have hclear := s.sameWork_clearRetryTimers
  cases stage with
  | gettingStats graceful =>
      cases graceful with
      | true =>
          obtain rfl := Option.some.inj h
          exact hclear.trans (sameWork_control (s := s.clearRetryTimers) hi rfl rfl)
      | false =>
          simp only [resumeStop] at h
          split at h
          · obtain rfl := Option.some.inj h
            exact hclear.trans (sameWork_control (s := s.clearRetryTimers) hi rfl rfl)
          · obtain rfl := Option.some.inj h
            let cancels : List (OpenTask V) := s.clearRetryTimers.runningJobs.keys.map fun jobId =>
              .cancel jobId (some "Queue shutdown (forced)") .getting
            have hcancels : ∀ t ∈ cancels, t.isControl = true := by
              intro t ht
              obtain ⟨jobId, _, rfl⟩ := List.mem_map.mp ht
              rfl
            refine (hclear.trans (sameWork_append hcancels)).trans
              (sameWork_control (t := .stop (.gettingStats false)) ?_ rfl rfl)
            exact (List.getElem?_append_left (List.getElem?_eq_some_iff.mp hi).1).trans hi
  | cancelling cancels =>
      simp only [resumeStop] at h
      split at h
      · obtain rfl := Option.some.inj h
        exact sameWork_control hi rfl rfl
      · cases h
  | waiting | delaying =>
      obtain rfl := Option.some.inj h
      exact sameWork_control hi rfl rfl
  | resolved how => cases h
  | rejected => cases h

lemma change_resume {i : ℕ} {env : Env} {answer : Option (Job V)}
    (h : s.resume cfg i env answer = some s') : Change cfg s (.resume i env answer) s' := by
  rw [resume] at h
  split at h
  next hi => exact change_resumeLoop hi h
  next jobId pc hi =>
      split at h
      next eff heff =>
          obtain rfl := Option.some.inj h
          exact .answered hi heff
      next => cases h
  next hi => exact .same ⟨_, hi, rfl⟩ (sameWork_resumeCancel hi h)
  next hi => exact change_resumeRetry hi h
  next hi => exact .same ⟨_, hi, rfl⟩ (sameWork_resumeStop hi h)
  next => cases h

lemma change_reject {i : ℕ} {err : Thrown} {answer : Option (Job V)}
    (h : s.reject i err answer = some s') : Change cfg s (.reject i err answer) s' := by
  rw [reject] at h
  split at h
  next hi =>
      obtain rfl := Option.some.inj h
      exact .failed err answer hi
  next jobId pc hi =>
      split at h
      next eff heff =>
          obtain rfl := Option.some.inj h
          exact .refused hi heff
      next => cases h
  next hi =>
      split at h
      · cases h
      · obtain rfl := Option.some.inj h
        exact .same ⟨_, hi, rfl⟩ (sameWork_control hi rfl rfl)
  next hi =>
      split at h
      · cases h
      · obtain rfl := Option.some.inj h
        exact .dropped err answer hi
  next hi =>
      obtain rfl := Option.some.inj h
      exact .same ⟨_, hi, rfl⟩ (sameWork_control hi rfl rfl)
  next => cases h

lemma sameWork_settleRace {i : ℕ} {outcome : Settlement V}
    (h : s.settleRace i outcome = some s') : SameWork s s' := by
  rw [settleRace] at h
  split at h
  next jobId job reg hi =>
      obtain rfl := Option.some.inj h
      exact sameWork_setTask hi fun hp => hp.race jobId job reg outcome
  next => cases h

/-- **Every step is one of these changes.** -/
theorem change_of_step {a : OpenAction V} (h : s.step cfg a = some s') : Change cfg s a s' := by
  cases a with
  | add id jobType data options now =>
      obtain rfl := Option.some.inj h
      exact .same trivial (.refl s)
  | start =>
      obtain rfl := Option.some.inj h
      rw [start]
      split
      · exact .same trivial (.refl s)
      next hrun => exact .started (by simpa using hrun) rfl
  | stop graceful =>
      obtain rfl := Option.some.inj h
      rw [stop]
      split
      · exact .same trivial (sameWork_spawn rfl)
      · have hdown : SameWork s { s with isShuttingDown := true, isRunning := false } :=
          ⟨rfl, fun _ => rfl, .refl _, fun _ _ => rfl⟩
        exact .same trivial (hdown.trans (sameWork_spawn rfl))
  | cancelJob jobId reason =>
      obtain rfl := Option.some.inj h
      exact .same trivial (sameWork_spawn rfl)
  | serve i job =>
      simp only [step, serve] at h
      split at h
      next hi =>
          obtain rfl := Option.some.inj h
          exact .served job hi
      next => cases h
  | resume i env answer => exact change_resume h
  | reject i err answer => exact change_reject h
  | settle i outcome => exact .same trivial (sameWork_settleRace h)
  | timeout i => exact .same trivial (sameWork_settleRace h)
  | fire t =>
      simp only [step] at h
      split at h
      next timer ht =>
          obtain rfl := Option.some.inj h
          exact .fired ht
      next => cases h

end OpenInstance

end Blaize.Queue
