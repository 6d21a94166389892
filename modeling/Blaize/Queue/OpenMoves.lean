import Mathlib.Logic.Relation
import Blaize.Queue.Open

/-!
The steps of a queue instance over any storage, taken apart.

* `Piece`: what `executeJob` can do from where it waits, whether the storage answers or
  rejects;
* `OpenMove`: one elementary change of the instance;
* `step_openMoves`: **every step but `start` is a chain of moves**.
-/

namespace Blaize.Queue

variable {V : Type}

/-- A piece of `executeJob`: the call that it waits for is answered, or rejects. -/
inductive Piece (cfg : QueueConfig V) (pc : ExecPc V) (eff : Effect V) : Prop
  | answered {answer : Option (Job V)} {env : Env} (h : execPiece cfg answer env pc = some eff)
  | rejected {answer : Option (Job V)} {err : Thrown} (h : execReject answer err pc = some eff)

/-- The tasks that neither loop nor execute. -/
def OpenTask.isSide : OpenTask V → Bool
  | .loop _ => false
  | .exec _ _ => false
  | .cancel _ _ _ => true
  | .retry _ _ _ => true
  | .stop _ => true

namespace OpenInstance

variable (cfg : QueueConfig V) (G : OpenInstance V → Prop)

/-- One move.  `G` is a condition on the states in which a loop goes around. -/
inductive OpenMove : OpenInstance V → OpenInstance V → Prop
  | exec {s : OpenInstance V} {i : ℕ} {jobId : String} {pc : ExecPc V} {eff : Effect V}
      (hi : s.tasks[i]? = some (.exec jobId pc)) (heff : Piece cfg pc eff) :
      OpenMove s (s.applyEffect i jobId eff)
  | settle {s : OpenInstance V} {i : ℕ} {jobId : String} {job : Job V}
      {reg : HandlerRegistration V} (outcome : Settlement V)
      (hi : s.tasks[i]? = some (.exec jobId (.handlerRunning job reg))) :
      OpenMove s (s.setTask i (.exec jobId (.raceSettled job reg outcome)))
  | abort {s : OpenInstance V} (controllers : OrdMap String AbortController) :
      OpenMove s { s with abortControllers := controllers }
  | serve {s : OpenInstance V} {i : ℕ} (job : Option (Job V))
      (hi : s.tasks[i]? = some (.loop .dequeuing)) :
      OpenMove s ({ s with trace := (job.map OpenEvent.taken).toList ++ s.trace }.setTask i
        (.loop (.dequeued job)))
  | launch {s : OpenInstance V} {i : ℕ} {job : Job V} (answer : Option (Job V))
      (hi : s.tasks[i]? = some (.loop (.dequeued (some job)))) :
      OpenMove s ((s.launch job answer).setTask i (.loop .delaying))
  | around {s : OpenInstance V} {i : ℕ} (hi : s.tasks[i]? = some (.loop .delaying)) (hG : G s) :
      OpenMove s (s.loopAround cfg i)
  | rest {s : OpenInstance V} {i : ℕ} (hi : s.tasks[i]? = some (.loop (.dequeued none))) :
      OpenMove s (s.setTask i (.loop .delaying))
  | fail {s : OpenInstance V} {i : ℕ} (hi : s.tasks[i]? = some (.loop .dequeuing)) :
      OpenMove s (s.setTask i (.loop .rejected))
  | side {s : OpenInstance V} {i : ℕ} {t u : OpenTask V} (hi : s.tasks[i]? = some t)
      (ht : t.isSide = true) (hu : u.isSide = true) : OpenMove s (s.setTask i u)
  | spawnSide {s : OpenInstance V} {t : OpenTask V} (ht : t.isSide = true) : OpenMove s (s.spawn t)
  | shutDown {s : OpenInstance V} : OpenMove s { s with isShuttingDown := true, isRunning := false }
  | timers {s : OpenInstance V} (timers : List RetryTimer) (pending : OrdMap String ℕ) :
      OpenMove s { s with timers := timers, pendingRetryTimers := pending }

/-- A chain of moves. -/
abbrev OpenMoves : OpenInstance V → OpenInstance V → Prop :=
  Relation.ReflTransGen (OpenMove cfg G)

/-- The condition on the loops that go around in an action. -/
def GoesAround (s : OpenInstance V) : OpenAction V → Prop
  | .start => s.isRunning = false → G { s with isRunning := true, isShuttingDown := false }
  | .resume i _ answer =>
      match s.tasks[i]? with
      | some (.loop (.dequeued (some job))) =>
          G ((s.launch job answer).setTask i (.loop .delaying))
      | some (.loop .delaying) => G s
      | _ => True
  | _ => True

instance [DecidablePred G] (s : OpenInstance V) : (a : OpenAction V) → Decidable (GoesAround G s a)
  | .start => inferInstanceAs (Decidable (s.isRunning = false → G _))
  | .resume i _ answer =>
      match h : s.tasks[i]? with
      | some (.loop (.dequeued (some job))) =>
          decidable_of_iff (G ((s.launch job answer).setTask i (.loop .delaying)))
            (by rw [GoesAround, h])
      | some (.loop .delaying) => decidable_of_iff (G s) (by rw [GoesAround, h])
      | some (.loop (.dequeued none)) | some (.loop .dequeuing) | some (.loop .returned)
      | some (.loop .rejected) | some (.exec _ _) | some (.cancel _ _ _) | some (.retry _ _ _)
      | some (.stop _) | none => .isTrue (by rw [GoesAround, h]; trivial)
  | .add _ _ _ _ _ | .stop _ | .cancelJob _ _ | .serve _ _ | .reject _ _ _ | .settle _ _
  | .timeout _ | .fire _ => .isTrue trivial

variable {cfg G} {s s' : OpenInstance V}

lemma getElem?_setTask {i : ℕ} {t u : OpenTask V} (hi : s.tasks[i]? = some t) :
    (s.setTask i u).tasks[i]? = some u := by
  simp [setTask, (List.getElem?_eq_some_iff.mp hi).1]

lemma getElem?_spawn {i : ℕ} {t : OpenTask V} (u : OpenTask V) (hi : s.tasks[i]? = some t) :
    (s.spawn u).tasks[i]? = some t := by
  rw [spawn, List.getElem?_append_left (List.getElem?_eq_some_iff.mp hi).1]
  exact hi

/-- An abort marks a controller, and moves a handler that is running on. -/
lemma abort_openMoves (jobId : String) : OpenMoves cfg G s (s.abort jobId) := by
  rw [abort]
  split
  · exact .refl
  next controller hc =>
      split
      · exact .refl
      · let controllers := s.abortControllers.set jobId { controller with aborted := true }
        split
        next id job reg hi =>
            exact .head (.abort controllers)
              (.single (.settle (s := { s with abortControllers := controllers }) _ hi))
        next => exact .single (.abort controllers)

lemma getElem?_abort {jobId : String} {i : ℕ} {t : OpenTask V} (hi : s.tasks[i]? = some t)
    (ht : t.isSide = true) : (s.abort jobId).tasks[i]? = some t := by
  rw [abort]
  split
  · exact hi
  next controller hc =>
      split
      · exact hi
      · dsimp only
        split
        next id job reg hc' =>
            have hne : controller.task ≠ i := by
              rintro rfl
              rw [hi] at hc'
              cases hc'
              cases ht
            rw [List.getElem?_set_ne hne]
            exact hi
        next => exact hi

lemma resumeLoop_openMoves {i : ℕ} {env : Env} {answer : Option (Job V)} {stage : LoopStage V}
    (hi : s.tasks[i]? = some (.loop stage)) (hG : GoesAround G s (.resume i env answer))
    (h : s.resumeLoop cfg i answer stage = some s') : OpenMoves cfg G s s' := by
  rw [GoesAround, hi] at hG
  cases stage with
  | dequeued job =>
      cases job with
      | none =>
          obtain rfl := Option.some.inj h
          exact .single (.rest hi)
      | some job =>
          obtain rfl := Option.some.inj h
          have hi' := getElem?_spawn (s := { s with
            runningJobs := OrdSet.add s.runningJobs job.id }) (.exec job.id (.gotJob answer)) hi
          refine .head (.launch answer hi) ?_
          have hset : ((s.launch job answer).setTask i (.loop .delaying)).loopAround cfg i =
              (s.launch job answer).loopAround cfg i := by
            simp only [loopAround, setTask, List.set_set]
            rfl
          rw [← hset]
          exact .single (.around (getElem?_setTask hi') hG)
  | delaying =>
      obtain rfl := Option.some.inj h
      exact .single (.around hi hG)
  | dequeuing => cases h
  | returned => cases h
  | rejected => cases h

lemma resumeCancel_openMoves {i : ℕ} {env : Env} {jobId : String} {reason : Option String}
    {answer : Option (Job V)} {stage : CancelStage}
    (hi : s.tasks[i]? = some (.cancel jobId reason stage))
    (h : s.resumeCancel i env jobId reason answer stage = some s') : OpenMoves cfg G s s' := by
  cases stage with
  | getting =>
      cases answer with
      | none =>
          obtain rfl := Option.some.inj h
          exact .single (.side hi rfl rfl)
      | some job =>
          obtain rfl := Option.some.inj h
          exact (abort_openMoves jobId).tail (.side (getElem?_abort hi rfl) rfl rfl)
  | settled => cases h
  | updating | regetting | publishing =>
      obtain rfl := Option.some.inj h
      exact .single (.side hi rfl rfl)

lemma resumeRetry_openMoves {i : ℕ} {jobId : String} {attempt : ℕ} {answer : Option (Job V)}
    {stage : RetryStage} (hi : s.tasks[i]? = some (.retry jobId attempt stage))
    (h : s.resumeRetry i jobId attempt answer stage = some s') : OpenMoves cfg G s s' := by
  cases stage with
  | finished => cases h
  | getting | enqueuing =>
      obtain rfl := Option.some.inj h
      exact .single (.side hi rfl rfl)

/-- `cancelJob` is called for each of the jobs, in order. -/
lemma spawnCancels_openMoves (reason : Option String) (jobIds : List String) :
    OpenMoves cfg G s
      { s with tasks := s.tasks ++ jobIds.map fun jobId => .cancel jobId reason .getting } := by
  induction jobIds generalizing s with
  | nil =>
      simp only [List.map_nil, List.append_nil]
      exact .refl
  | cons jobId jobIds ih =>
      refine .head (.spawnSide (t := .cancel jobId reason .getting) rfl) ?_
      have hrest := ih (s := s.spawn (.cancel jobId reason .getting))
      simpa only [spawn, List.append_assoc, List.singleton_append, List.map_cons] using hrest

lemma drain_openMoves {i : ℕ} {stage : StopStage} (timedOut : Bool)
    (hi : s.tasks[i]? = some (.stop stage)) : OpenMoves cfg G s (s.drain i timedOut) :=
  .single (.side hi rfl rfl)

lemma resumeStop_openMoves {i : ℕ} {env : Env} {stage : StopStage}
    (hi : s.tasks[i]? = some (.stop stage)) (h : s.resumeStop i env stage = some s') :
    OpenMoves cfg G s s' := by
  have hclear : OpenMove cfg G s s.clearRetryTimers := .timers _ _
  cases stage with
  | gettingStats graceful =>
      cases graceful with
      | true =>
          obtain rfl := Option.some.inj h
          exact .head hclear (drain_openMoves (s := s.clearRetryTimers) env.timedOut hi)
      | false =>
          simp only [resumeStop] at h
          split at h
          · obtain rfl := Option.some.inj h
            exact .head hclear (.single (.side (s := s.clearRetryTimers) hi rfl rfl))
          · obtain rfl := Option.some.inj h
            refine .head hclear ((spawnCancels_openMoves _ s.clearRetryTimers.runningJobs.keys).tail
              (.side (t := .stop (.gettingStats false)) ?_ rfl rfl))
            exact (List.getElem?_append_left (List.getElem?_eq_some_iff.mp hi).1).trans hi
  | waiting =>
      obtain rfl := Option.some.inj h
      exact drain_openMoves env.timedOut hi
  | cancelling cancels =>
      simp only [resumeStop] at h
      split at h
      · obtain rfl := Option.some.inj h
        exact .single (.side hi rfl rfl)
      · cases h
  | delaying =>
      obtain rfl := Option.some.inj h
      exact .single (.side hi rfl rfl)
  | resolved how => cases h
  | rejected => cases h

lemma resume_openMoves {i : ℕ} {env : Env} {answer : Option (Job V)}
    (hG : GoesAround G s (.resume i env answer)) (h : s.resume cfg i env answer = some s') :
    OpenMoves cfg G s s' := by
  rw [resume] at h
  split at h
  next hi => exact resumeLoop_openMoves hi hG h
  next jobId pc hi =>
      split at h
      next eff heff =>
          obtain rfl := Option.some.inj h
          exact .single (.exec hi (.answered heff))
      next => cases h
  next hi => exact resumeCancel_openMoves hi h
  next hi => exact resumeRetry_openMoves hi h
  next hi => exact resumeStop_openMoves hi h
  next => cases h

lemma reject_openMoves {i : ℕ} {err : Thrown} {answer : Option (Job V)}
    (h : s.reject i err answer = some s') : OpenMoves cfg G s s' := by
  rw [reject] at h
  split at h
  next hi =>
      obtain rfl := Option.some.inj h
      exact .single (.fail hi)
  next jobId pc hi =>
      split at h
      next eff heff =>
          obtain rfl := Option.some.inj h
          exact .single (.exec hi (.rejected heff))
      next => cases h
  next hi =>
      split at h
      · cases h
      · obtain rfl := Option.some.inj h
        exact .single (.side hi rfl rfl)
  next hi =>
      split at h
      · cases h
      · obtain rfl := Option.some.inj h
        exact .single (.side hi rfl rfl)
  next hi =>
      obtain rfl := Option.some.inj h
      exact .single (.side hi rfl rfl)
  next => cases h

lemma settleRace_openMoves {i : ℕ} {outcome : Settlement V}
    (h : s.settleRace i outcome = some s') : OpenMoves cfg G s s' := by
  rw [settleRace] at h
  split at h
  next hi =>
      obtain rfl := Option.some.inj h
      exact .single (.settle outcome hi)
  next => cases h

lemma fireTimer_openMoves (timer : RetryTimer) : OpenMoves cfg G s (s.fireTimer timer) := by
  have hdisarm : OpenMove cfg G s { s with
      timers := s.timers.erase timer
      pendingRetryTimers := s.pendingRetryTimers.delete timer.jobId } := .timers _ _
  rw [fireTimer]
  split
  · exact .single hdisarm
  · exact .head hdisarm (.single (.spawnSide rfl))

/-- **Every step but `start` is a chain of moves.** -/
theorem step_openMoves {a : OpenAction V} (ha : a ≠ .start) (hG : GoesAround G s a)
    (h : s.step cfg a = some s') : OpenMoves cfg G s s' := by
  cases a with
  | start => exact absurd rfl ha
  | add id jobType data options now =>
      obtain rfl := Option.some.inj h
      exact .refl
  | stop graceful =>
      obtain rfl := Option.some.inj h
      rw [stop]
      split
      · exact .single (.spawnSide rfl)
      · exact .head .shutDown (.single (.spawnSide rfl))
  | cancelJob jobId reason =>
      obtain rfl := Option.some.inj h
      exact .single (.spawnSide rfl)
  | serve i job =>
      simp only [step, serve] at h
      split at h
      next hi =>
          obtain rfl := Option.some.inj h
          exact .single (.serve job hi)
      next => cases h
  | resume i env answer => exact resume_openMoves hG h
  | reject i err answer => exact reject_openMoves h
  | settle i outcome => exact settleRace_openMoves h
  | timeout i => exact settleRace_openMoves h
  | fire t =>
      simp only [step] at h
      split at h
      next timer ht =>
          obtain rfl := Option.some.inj h
          exact fireTimer_openMoves timer
      next => cases h

/-- The condition that demands nothing. -/
lemma goesAround_true (s : OpenInstance V) (a : OpenAction V) :
    GoesAround (fun _ => True) s a := by
  cases a with
  | resume i env answer =>
      rw [GoesAround]
      split <;> trivial
  | start => exact fun _ => trivial
  | _ => trivial

end OpenInstance

end Blaize.Queue
