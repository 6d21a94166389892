import Mathlib.Data.Bool.Basic
import Blaize.Lib.Count
import Blaize.Lib.Machine
import Blaize.Queue.OpenMoves

/-!
The concurrency limit of a queue instance over any storage.

A loop looks at the number of running jobs, waits for its `dequeue` and only then adds to
them.  What holds is that the running jobs and the loops on their way to one more are
together within the limit, as long as no loop sets out while the others on their way fill
it.  One loop at a time never does; but `stop` and `start` leave an old loop alive that
sleeps through both.

* `load`: the running jobs and the loops that are on their way to one more;
* `Room`: **a loop calls `dequeue` only while the load leaves room for it**;
* `concurrency_respected`: **in every run with room the limit is respected**;
* `room_of_lone_loop`: there is room in every run in which `start` is only called when no
  loop is alive.
-/

namespace Blaize.Queue

open Machine

variable {V : Type}

/-- A loop that is on its way to one more running job. -/
def OpenTask.isFetching : OpenTask V → Bool
  | .loop .dequeuing => true
  | .loop (.dequeued (some _)) => true
  | _ => false

/-- A loop that has neither returned nor rejected. -/
def OpenTask.isLiveLoop : OpenTask V → Bool
  | .loop .returned => false
  | .loop .rejected => false
  | .loop _ => true
  | _ => false

lemma OpenTask.isFetching_of_isSide {t : OpenTask V} (h : t.isSide = true) :
    t.isFetching = false := by
  cases t <;> first | rfl | cases h

lemma OpenTask.isLiveLoop_of_isSide {t : OpenTask V} (h : t.isSide = true) :
    t.isLiveLoop = false := by
  cases t <;> first | rfl | cases h

lemma OpenTask.isLiveLoop_of_isFetching {t : OpenTask V} (h : t.isFetching = true) :
    t.isLiveLoop = true := by
  cases t with
  | loop stage => cases stage <;> first | rfl | cases h
  | _ => cases h

namespace OpenInstance

variable {cfg : QueueConfig V} {G : OpenInstance V → Prop} {s s' : OpenInstance V}

/-- The loops on their way to one more running job. -/
def fetching (s : OpenInstance V) : ℕ := s.tasks.countP OpenTask.isFetching

/-- The running jobs and the loops on their way to one more. -/
def load (s : OpenInstance V) : ℕ := s.runningJobs.size + s.fetching

variable (cfg) in
/-- **There is room for a loop that goes around**: if it calls `dequeue`, the running jobs
and the loops on their way to one more are below the limit. -/
def Room (s : OpenInstance V) : Prop :=
  s.isShuttingDown = false → s.runningJobs.size < cfg.concurrency → s.load < cfg.concurrency

instance : DecidablePred (Room cfg : OpenInstance V → Prop) := fun _ =>
  inferInstanceAs (Decidable (_ → _ → _))

/-! ### Counting tasks -/

section Count

variable (p : OpenTask V → Bool)

lemma countP_setTask {i : ℕ} {t : OpenTask V} (hi : s.tasks[i]? = some t) (u : OpenTask V) :
    (s.setTask i u).tasks.countP p + (p t).toNat = s.tasks.countP p + (p u).toNat :=
  List.countP_set_add p u hi

lemma countP_spawn (t : OpenTask V) :
    (s.spawn t).tasks.countP p = s.tasks.countP p + (p t).toNat := by
  simp only [spawn, List.countP_append, List.countP_singleton]
  cases p t <;> rfl

lemma countP_launch {i : ℕ} {job : Job V} (answer : Option (Job V))
    (hi : s.tasks[i]? = some (.loop (.dequeued (some job)))) :
    ((s.launch job answer).setTask i (.loop .delaying)).tasks.countP p +
        (p (.loop (.dequeued (some job)))).toNat =
      s.tasks.countP p + (p (.exec job.id (.gotJob answer))).toNat +
        (p (.loop .delaying)).toNat := by
  have hi' : (s.launch job answer).tasks[i]? = some (.loop (.dequeued (some job))) :=
    getElem?_spawn _ hi
  have hspawn : (s.launch job answer).tasks.countP p =
      s.tasks.countP p + (p (.exec job.id (.gotJob answer))).toNat := countP_spawn p _
  rw [countP_setTask p hi', hspawn]

end Count

/-! ### One move -/

lemma loopHead_cases (cfg : QueueConfig V) (s : OpenInstance V) :
    s.loopHead cfg = .returned ∨ s.loopHead cfg = .delaying ∨
      (s.loopHead cfg = .dequeuing ∧ s.isShuttingDown = false ∧
        s.runningJobs.size < cfg.concurrency) := by
  rw [loopHead]
  split
  · exact Or.inl rfl
  next hdown =>
      split
      · exact Or.inr (Or.inl rfl)
      next hsize => exact Or.inr (Or.inr ⟨rfl, by simpa using hdown, by omega⟩)

/-- A loop that has room and goes around keeps the load within the limit. -/
lemma load_around_le (t : OpenTask V) (ht : t = .loop (s.loopHead cfg)) (hroom : Room cfg s)
    (hle : s.load ≤ cfg.concurrency) : s.load + t.isFetching.toNat ≤ cfg.concurrency := by
  subst ht
  rcases s.loopHead_cases cfg with hhead | hhead | ⟨hhead, hdown, hsize⟩
  · rw [hhead]
    exact hle
  · rw [hhead]
    exact hle
  · rw [hhead]
    exact hroom hdown hsize

/-- **One move keeps the load within the limit.** -/
lemma load_move (hle : s.load ≤ cfg.concurrency) (hm : OpenMove cfg (Room cfg) s s') :
    s'.load ≤ cfg.concurrency := by
  have hset : ∀ {i t} u, s.tasks[i]? = some t → (u.isFetching = true → t.isFetching = true) →
      (s.setTask i u).load ≤ cfg.concurrency := by
    intro i t u hi hu
    have hcount := countP_setTask OpenTask.isFetching hi u
    have hmono : u.isFetching.toNat ≤ t.isFetching.toNat := Bool.toNat_le_toNat hu
    refine Nat.le_trans ?_ hle
    rw [load, load, fetching, fetching]
    change s.runningJobs.size + _ ≤ _
    omega
  cases hm with
  | @exec i jobId pc eff hi heff =>
      have hcount := countP_setTask OpenTask.isFetching hi (.exec jobId eff.next)
      have hsize : (s.applyEffect i jobId eff).runningJobs.size ≤ s.runningJobs.size := by
        rw [applyEffect]
        dsimp only
        split
        · exact OrdMap.size_delete_le _ _
        · exact Nat.le_refl _
      refine Nat.le_trans (Nat.add_le_add hsize (Nat.le_of_eq ?_)) hle
      exact hcount
  | settle outcome hi => exact hset _ hi fun h => h
  | abort controllers => exact hle
  | serve job hi => exact hset _ hi fun _ => rfl
  | @launch i job answer hi =>
      have hcount := countP_launch OpenTask.isFetching answer hi
      have hsize : (OrdSet.add s.runningJobs job.id).size ≤ s.runningJobs.size + 1 :=
        OrdMap.size_set_le _ _ _
      rw [load, fetching] at hle ⊢
      simp only [OpenTask.isFetching, Bool.toNat_true, Bool.toNat_false] at hcount
      change (OrdSet.add s.runningJobs job.id).size + _ ≤ _
      omega
  | @around i hi hroom =>
      have hcount := countP_setTask OpenTask.isFetching hi (.loop (s.loopHead cfg))
      have hlimit := load_around_le (.loop (s.loopHead cfg)) rfl hroom hle
      rw [load, fetching] at hlimit
      change s.runningJobs.size + List.countP _ (s.setTask i _).tasks ≤ _
      change _ + 0 = _ at hcount
      omega
  | rest hi => exact hset _ hi nofun
  | fail hi => exact hset _ hi nofun
  | side hi ht hu =>
      refine hset _ hi fun h => ?_
      rw [OpenTask.isFetching_of_isSide hu] at h
      cases h
  | @spawnSide t ht =>
      have hspawn := countP_spawn (s := s) OpenTask.isFetching t
      rw [OpenTask.isFetching_of_isSide ht] at hspawn
      exact Nat.le_trans (Nat.add_le_add_left (Nat.le_of_eq hspawn) _) hle
  | shutDown => exact hle
  | timers ts pending => exact hle

lemma load_moves (hle : s.load ≤ cfg.concurrency) (hm : OpenMoves cfg (Room cfg) s s') :
    s'.load ≤ cfg.concurrency := by
  induction hm with
  | refl => exact hle
  | tail _ hm ih => exact load_move ih hm

lemma load_start (hle : s.load ≤ cfg.concurrency) (hG : GoesAround (Room cfg) s .start) :
    (s.start cfg).load ≤ cfg.concurrency := by
  rw [start]
  split
  · exact hle
  next hrun =>
      have hroom : Room cfg { s with isRunning := true, isShuttingDown := false } :=
        hG (by simpa using hrun)
      have hlimit := load_around_le (.loop (loopHead cfg { s with
        isRunning := true, isShuttingDown := false })) rfl hroom hle
      have hspawn := countP_spawn (s := { s with isRunning := true, isShuttingDown := false })
        OpenTask.isFetching (.loop (loopHead cfg { s with
          isRunning := true, isShuttingDown := false }))
      refine Nat.le_trans (Nat.le_of_eq ?_) hlimit
      rw [load, fetching, hspawn, load, fetching, Nat.add_assoc]
      rfl

/-- **The concurrency limit is respected** in every run in which a loop calls `dequeue` only
while there is room for it. -/
theorem concurrency_respected {as : List (OpenAction V)}
    (hroom : Meets (step cfg) (GoesAround (Room cfg)) {} as)
    (hs : exec (step cfg) {} as = some s) : s.runningJobs.size ≤ cfg.concurrency := by
  have hstep : ∀ (s : OpenInstance V) a s', s.load ≤ cfg.concurrency →
      GoesAround (Room cfg) s a → s.step cfg a = some s' → s'.load ≤ cfg.concurrency := by
    intro s a s' hle hG h
    by_cases ha : a = .start
    · subst ha
      obtain rfl := Option.some.inj h
      exact load_start hle hG
    · exact load_moves hle (step_openMoves ha hG h)
  have hload := meets_invariant hstep (Nat.zero_le _) hroom hs
  exact Nat.le_trans (Nat.le_add_right _ _) hload

/-! ### One loop at a time -/

/-- The loops that have neither returned nor rejected. -/
def liveLoops (s : OpenInstance V) : ℕ := s.tasks.countP OpenTask.isLiveLoop

/-- `start` is called only when no loop is alive. -/
def StartsAlone (s : OpenInstance V) : OpenAction V → Prop
  | .start => s.isRunning = false → s.liveLoops = 0
  | _ => True

lemma fetching_le_liveLoops (s : OpenInstance V) : s.fetching ≤ s.liveLoops :=
  List.countP_mono_left fun _ _ h => OpenTask.isLiveLoop_of_isFetching h

lemma liveLoops_move (hm : OpenMove cfg G s s') : s'.liveLoops ≤ s.liveLoops := by
  have hset : ∀ {i t} u, s.tasks[i]? = some t → (u.isLiveLoop = true → t.isLiveLoop = true) →
      (s.setTask i u).liveLoops ≤ s.liveLoops := by
    intro i t u hi hu
    have hcount := countP_setTask OpenTask.isLiveLoop hi u
    have hmono : u.isLiveLoop.toNat ≤ t.isLiveLoop.toNat := Bool.toNat_le_toNat hu
    rw [liveLoops, liveLoops]
    omega
  cases hm with
  | @exec i jobId pc eff hi heff => exact hset (.exec jobId eff.next) hi fun h => h
  | settle outcome hi => exact hset _ hi fun h => h
  | abort controllers => exact Nat.le_refl _
  | serve job hi => exact hset _ hi fun _ => rfl
  | @launch i job answer hi =>
      exact Nat.le_of_eq (Nat.add_right_cancel (countP_launch OpenTask.isLiveLoop answer hi))
  | around hi hG => exact hset _ hi fun _ => rfl
  | rest hi => exact hset _ hi fun _ => rfl
  | fail hi => exact hset _ hi nofun
  | side hi ht hu =>
      refine hset _ hi fun h => ?_
      rw [OpenTask.isLiveLoop_of_isSide hu] at h
      cases h
  | @spawnSide t ht =>
      have hspawn := countP_spawn (s := s) OpenTask.isLiveLoop t
      rw [OpenTask.isLiveLoop_of_isSide ht] at hspawn
      exact Nat.le_of_eq hspawn
  | shutDown => exact Nat.le_refl _
  | timers ts pending => exact Nat.le_refl _

lemma liveLoops_moves (hm : OpenMoves cfg G s s') : s'.liveLoops ≤ s.liveLoops := by
  induction hm with
  | refl => exact Nat.le_refl _
  | tail _ hm ih => exact Nat.le_trans (liveLoops_move hm) ih

/-- A loop that is the only live one has room. -/
lemma room_of_idle {i : ℕ} (hone : s.liveLoops ≤ 1) (hi : s.tasks[i]? = some (.loop .delaying)) :
    Room cfg s := by
  intro _ hsize
  have hlive := countP_setTask OpenTask.isLiveLoop hi (.stop .waiting)
  have hfetch := countP_setTask OpenTask.isFetching hi (.stop .waiting)
  have hle := fetching_le_liveLoops (s.setTask i (.stop .waiting))
  have hstop : (OpenTask.stop .waiting : OpenTask V).isLiveLoop = false := rfl
  have hstop' : (OpenTask.stop .waiting : OpenTask V).isFetching = false := rfl
  have hdelay : (OpenTask.loop .delaying : OpenTask V).isLiveLoop = true := rfl
  have hdelay' : (OpenTask.loop .delaying : OpenTask V).isFetching = false := rfl
  rw [hstop, hdelay, Bool.toNat_true, Bool.toNat_false] at hlive
  rw [hstop', hdelay', Bool.toNat_false] at hfetch
  rw [liveLoops] at hone hle
  rw [fetching] at hle
  rw [load, fetching]
  omega

lemma liveLoops_step {a : OpenAction V} (hone : s.liveLoops ≤ 1) (halone : StartsAlone s a)
    (h : s.step cfg a = some s') : s'.liveLoops ≤ 1 := by
  by_cases ha : a = .start
  · subst ha
    obtain rfl := Option.some.inj h
    rw [start]
    split
    · exact hone
    next hrun =>
        have hnone : s.liveLoops = 0 := halone (by simpa using hrun)
        rw [liveLoops] at hnone
        rw [liveLoops, countP_spawn]
        change s.tasks.countP _ + _ ≤ 1
        rw [hnone, Nat.zero_add]
        exact Bool.toNat_le _
  · have hmoves := step_openMoves ha (goesAround_true s a) h
    exact Nat.le_trans (liveLoops_moves hmoves) hone

lemma goesAround_of_lone {a : OpenAction V} (hone : s.liveLoops ≤ 1) (halone : StartsAlone s a) :
    GoesAround (Room cfg) s a := by
  cases a with
  | start =>
      intro hrun _ hsize
      have hle := fetching_le_liveLoops s
      have hnone : s.liveLoops = 0 := halone hrun
      change s.runningJobs.size + s.fetching < _
      change s.runningJobs.size < _ at hsize
      omega
  | resume i env answer =>
      rw [GoesAround]
      split
      next job hi =>
          have hi' : (s.launch job answer).tasks[i]? = some (.loop (.dequeued (some job))) :=
            getElem?_spawn _ hi
          have hmove : OpenMove cfg (fun _ => True) s
              ((s.launch job answer).setTask i (.loop .delaying)) := .launch answer hi
          exact room_of_idle (Nat.le_trans (liveLoops_move hmove) hone) (getElem?_setTask hi')
      next hi => exact room_of_idle hone hi
      next => trivial
  | _ => trivial

/-- **One loop at a time always has room**: the limit is respected in every run in which
`start` is called only when no loop is alive. -/
theorem room_of_lone_loop {as : List (OpenAction V)}
    (halone : Meets (step cfg) StartsAlone ({} : OpenInstance V) as) :
    Meets (step cfg) (GoesAround (Room cfg)) {} as :=
  halone.mono (fun _ _ _ hone ha h => liveLoops_step hone ha h)
    (fun _ _ hone ha => goesAround_of_lone hone ha) (Nat.zero_le _)

/-! ### Two loops -/

open QueueInstance (demoConfig)

/-- A job that the storage hands out. -/
def someJob (id : String) : Job ℕ := demoConfig.newJob id "t" 0 {} 0

/-- The queue is started and takes a job on. -/
def startAndTake : List (OpenAction ℕ) :=
  [.start, .serve 0 (some (someJob "a")), .resume 0 {} (some (someJob "a"))]

theorem concurrency_respected_startAndTake :
    ∃ s, exec (step demoConfig) {} startAndTake = some s ∧
      Meets (step demoConfig) (GoesAround (Room demoConfig)) {} startAndTake ∧
      s.runningJobs.size = 1 ∧ s.runningJobs.size ≤ demoConfig.concurrency := by
  have hroom : Meets (step demoConfig) (GoesAround (Room demoConfig)) {} startAndTake := by decide
  exact ⟨_, rfl, hroom, rfl, concurrency_respected hroom rfl⟩

/-- The queue is stopped and started again while its loop is asleep, and each of the two
loops finds no running job. -/
def restartAsleep : List (OpenAction ℕ) :=
  [.start, .serve 0 none, .resume 0 {} none, .stop true, .start, .resume 0 {} none,
    .serve 0 (some (someJob "a")), .serve 2 (some (someJob "b")), .resume 0 {} none,
    .resume 2 {} none]

theorem not_concurrency_respected :
    ¬ ∀ (cfg : QueueConfig ℕ) (as : List (OpenAction ℕ)) (s : OpenInstance ℕ),
      1 ≤ cfg.concurrency → exec (step cfg) {} as = some s →
      s.runningJobs.size ≤ cfg.concurrency := by
  intro h
  have hle := h demoConfig restartAsleep _ (Nat.le_refl _) rfl
  exact absurd hle (by decide)

end OpenInstance

end Blaize.Queue
