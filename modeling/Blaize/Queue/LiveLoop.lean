import Blaize.Queue.Changes
import Blaize.Queue.Concurrency

/-!
The processing loops of a running queue (`plugins/queue/src/queue-instance.ts`).

`start` sets the flags and starts a loop that "continues until `stop()` is called"; the
loop ends when it reads `isShuttingDown`, or when its `dequeue` rejects.  The `catch` that
`start` puts on the loop only writes to the log, so that a queue whose last loop rejects
keeps `isRunning`, takes no job any more, and is not started again by `start`.

* `HasLoop`: a running queue has a live loop;
* `Spares`: **no rejection hits the last live loop of a running queue**;
* `liveLoops_le_step`: every other step leaves at least as many loops alive, unless the
  queue is shutting down;
* `hasLoop_iff_spares`: **a run keeps a live loop exactly if it spares the last one**.
-/

namespace Blaize.Queue.OpenInstance

open Machine

variable {V : Type} {cfg : QueueConfig V} {G : OpenInstance V → Prop} {s s' : OpenInstance V}

/-- A running queue has a live loop. -/
def HasLoop (s : OpenInstance V) : Prop :=
  s.isRunning = true → s.isShuttingDown = false → 0 < s.liveLoops

/-- No rejection hits the last live loop of a running queue. -/
def Spares (s : OpenInstance V) : OpenAction V → Prop
  | .reject i _ _ =>
      match s.tasks[i]? with
      | some (.loop .dequeuing) => s.isRunning = true → 1 < s.liveLoops
      | _ => True
  | _ => True

/-! ### The flags -/

/-- A queue that runs is not shutting down. -/
def FlagsAgree (s : OpenInstance V) : Prop := s.isRunning = true → s.isShuttingDown = false

/-- Between a `start` and the next one the flags only go towards a shutdown. -/
lemma flags_move (hm : OpenMove cfg G s s') :
    (s'.isRunning = s.isRunning ∧ s'.isShuttingDown = s.isShuttingDown) ∨
      (s'.isRunning = false ∧ s'.isShuttingDown = true) := by
  cases hm with
  | shutDown => exact Or.inr ⟨rfl, rfl⟩
  | _ => exact Or.inl ⟨rfl, rfl⟩

lemma flags_moves (hm : OpenMoves cfg G s s') :
    (s'.isRunning = s.isRunning ∧ s'.isShuttingDown = s.isShuttingDown) ∨
      (s'.isRunning = false ∧ s'.isShuttingDown = true) := by
  induction hm with
  | refl => exact Or.inl ⟨rfl, rfl⟩
  | tail _ hm ih =>
      rcases flags_move hm with ⟨hrun, hdown⟩ | hoff
      · rw [hrun, hdown]
        exact ih
      · exact Or.inr hoff

lemma flagsAgree_step {a : OpenAction V} (hflags : s.FlagsAgree) (h : s.step cfg a = some s') :
    s'.FlagsAgree := by
  by_cases ha : a = .start
  · subst ha
    obtain rfl := Option.some.inj h
    rw [start]
    split
    · exact hflags
    · exact fun _ => rfl
  · rcases flags_moves (step_openMoves ha (goesAround_true s a) h) with ⟨hrun, hdown⟩ | ⟨hrun, _⟩
    · rw [FlagsAgree, hrun, hdown]
      exact hflags
    · intro hrun'
      rw [hrun] at hrun'
      cases hrun'

/-! ### What keeps the loops alive -/

lemma liveLoops_le_setTask {i : ℕ} {t u : OpenTask V} (hi : s.tasks[i]? = some t)
    (hu : t.isLiveLoop = true → u.isLiveLoop = true) : s.liveLoops ≤ (s.setTask i u).liveLoops := by
  have hcount := countP_setTask OpenTask.isLiveLoop hi u
  have hmono : t.isLiveLoop.toNat ≤ u.isLiveLoop.toNat := Bool.toNat_le_toNat hu
  rw [liveLoops, liveLoops]
  omega

lemma liveLoops_le_append (ts : List (OpenTask V)) :
    s.liveLoops ≤ { s with tasks := s.tasks ++ ts }.liveLoops := by
  rw [liveLoops, liveLoops, List.countP_append]
  exact Nat.le_add_right _ _

/-- A loop that goes around while the queue is not shutting down stays alive. -/
lemma isLiveLoop_loopHead (hdown : s.isShuttingDown = false) :
    (OpenTask.loop (s.loopHead cfg) : OpenTask V).isLiveLoop = true := by
  have hhead : s.loopHead cfg = .delaying ∨ s.loopHead cfg = .dequeuing := by
    rw [loopHead, hdown]
    split
    next hoff => cases hoff
    next => split <;> simp
  rcases hhead with hhead | hhead <;> rw [hhead] <;> rfl

/-- Loops are neither controls nor racing. -/
lemma coarse_isLiveLoop : Coarse (OpenTask.isLiveLoop : OpenTask V → Bool) where
  control {t} ht := by cases t <;> first | rfl | cases ht
  race _ _ _ _ := rfl

lemma liveLoops_le_applyEffect {i : ℕ} {jobId : String} {pc : ExecPc V} (eff : Effect V)
    (hi : s.tasks[i]? = some (.exec jobId pc)) :
    s.liveLoops ≤ (s.applyEffect i jobId eff).liveLoops :=
  liveLoops_le_setTask (u := .exec jobId eff.next) hi nofun

lemma liveLoops_le_fireTimer (timer : RetryTimer) :
    s.liveLoops ≤ (s.fireTimer timer).liveLoops := by
  rw [fireTimer]
  split
  · exact Nat.le_refl _
  · exact liveLoops_le_append (s := s) _

/-- **Every step that is no rejection of a `dequeue` leaves the loops alive**, unless the
queue is shutting down. -/
theorem liveLoops_le_step {a : OpenAction V} (hdown : s.isShuttingDown = false)
    (ha : ∀ i err answer, a = .reject i err answer → s.tasks[i]? ≠ some (.loop .dequeuing))
    (h : s.step cfg a = some s') : s.liveLoops ≤ s'.liveLoops := by
  cases change_of_step h with
  | same _ hsame => exact Nat.le_of_eq (hsame.countP coarse_isLiveLoop).symm
  | started hrun hs₀ =>
      subst hs₀
      exact liveLoops_le_append (s := s) _
  | served job hi => exact liveLoops_le_setTask (s := s) hi fun _ => rfl
  | @launched i job env answer hi =>
      have hi' : (s.launch job answer).tasks[i]? = some (.loop (.dequeued (some job))) :=
        getElem?_spawn _ hi
      have hlaunch : s.liveLoops ≤ (s.launch job answer).liveLoops :=
        liveLoops_le_append [.exec job.id (.gotJob answer)]
      refine Nat.le_trans hlaunch (liveLoops_le_setTask hi' fun _ => ?_)
      exact isLiveLoop_loopHead (s := s.launch job answer) hdown
  | rested env answer hi => exact liveLoops_le_setTask hi fun _ => rfl
  | around env answer hi => exact liveLoops_le_setTask hi fun _ => isLiveLoop_loopHead hdown
  | failed err answer hi => exact absurd hi (ha _ err answer rfl)
  | answered hi heff => exact liveLoops_le_applyEffect _ hi
  | refused hi heff => exact liveLoops_le_applyEffect _ hi
  | fetched env answer hi stage => exact liveLoops_le_setTask hi nofun
  | enqueued env answer hi => exact liveLoops_le_setTask hi nofun
  | dropped err answer hi => exact liveLoops_le_setTask hi nofun
  | fired ht => exact liveLoops_le_fireTimer _

/-! ### The last loop -/

/-- A `start` that does not find the queue running starts a loop. -/
lemma hasLoop_start (hloop : s.HasLoop) : (s.start cfg).HasLoop := by
  rw [start]
  split
  · exact hloop
  next hrun =>
      intro _ _
      let s₀ := { s with isRunning := true, isShuttingDown := false }
      have hlive : (OpenTask.loop (s₀.loopHead cfg) : OpenTask V).isLiveLoop = true :=
        isLiveLoop_loopHead rfl
      have hcount := countP_spawn (s := s₀) OpenTask.isLiveLoop (.loop (s₀.loopHead cfg))
      rw [hlive, Bool.toNat_true] at hcount
      change 0 < List.countP OpenTask.isLiveLoop (s₀.spawn (.loop (s₀.loopHead cfg))).tasks
      omega

/-- A `dequeue` that rejects ends the loop that waits for it. -/
lemma liveLoops_rejected {i : ℕ} (hi : s.tasks[i]? = some (.loop .dequeuing)) :
    (s.setTask i (.loop .rejected)).liveLoops + 1 = s.liveLoops :=
  countP_setTask OpenTask.isLiveLoop hi (.loop .rejected)

/-- A rejection keeps a live loop exactly if it spares the last one. -/
lemma hasLoop_reject_iff {i : ℕ} {err : Thrown} {answer : Option (Job V)} (hflags : s.FlagsAgree)
    (hi : s.tasks[i]? = some (.loop .dequeuing)) (h : s.reject i err answer = some s') :
    s'.HasLoop ↔ s.Spares (.reject i err answer) := by
  simp only [reject, hi] at h
  obtain rfl := Option.some.inj h
  have hcount := liveLoops_rejected hi
  simp only [Spares, hi]
  constructor
  · intro hloop hrun
    have hpos := hloop hrun (hflags hrun)
    omega
  · intro hspare hrun _
    have htwo := hspare hrun
    omega

/-- **One step keeps a live loop exactly if it spares the last one.** -/
theorem hasLoop_step_iff {a : OpenAction V} (hflags : s.FlagsAgree) (hloop : s.HasLoop)
    (h : s.step cfg a = some s') : s'.HasLoop ↔ s.Spares a := by
  by_cases hhit : ∃ i err answer, a = .reject i err answer ∧ s.tasks[i]? = some (.loop .dequeuing)
  · obtain ⟨i, err, answer, rfl, hi⟩ := hhit
    exact hasLoop_reject_iff hflags hi h
  have hmiss : ∀ i err answer, a = .reject i err answer →
      s.tasks[i]? ≠ some (.loop .dequeuing) :=
    fun i err answer ha hi => hhit ⟨i, err, answer, ha, hi⟩
  have hspare : s.Spares a := by
    cases a with
    | reject i err answer =>
        rw [Spares]
        split
        next hi => exact absurd hi (hmiss i err answer rfl)
        next => trivial
    | _ => trivial
  refine iff_of_true ?_ hspare
  by_cases ha : a = .start
  · subst ha
    obtain rfl := Option.some.inj h
    exact hasLoop_start hloop
  · rcases flags_moves (step_openMoves ha (goesAround_true s a) h) with ⟨hrun, hdown⟩ | ⟨hrun, _⟩
    · intro hrun' hdown'
      rw [hrun] at hrun'
      rw [hdown] at hdown'
      exact Nat.lt_of_lt_of_le (hloop hrun' hdown') (liveLoops_le_step hdown' hmiss h)
    · intro hrun'
      rw [hrun] at hrun'
      cases hrun'

/-- **A running queue has a live loop** in every state of a run exactly if no rejection of
the run hits the last live loop of a running queue. -/
theorem hasLoop_iff_spares (cfg : QueueConfig V) (as : List (OpenAction V)) :
    (∀ bs, bs <+: as → ∀ t, exec (step cfg) {} bs = some t → t.HasLoop) ↔
      Meets (step cfg) Spares {} as := by
  have hrefused : ∀ (s : OpenInstance V) a, s.step cfg a = none → s.Spares a := by
    intro s a h
    cases a with
    | reject i err answer =>
        rw [Spares]
        split
        next hi =>
            simp only [step, reject, hi] at h
            cases h
        next => trivial
    | _ => trivial
  have hidle : ({} : OpenInstance V).isRunning ≠ true := Bool.false_ne_true
  exact forall_prefix_iff_meets (fun _ _ _ hflags h => flagsAgree_step hflags h)
    (fun _ _ _ hflags hloop h => hasLoop_step_iff hflags hloop h) hrefused
    (fun hrun => absurd hrun hidle) (fun hrun => absurd hrun hidle) as

open QueueInstance (demoConfig)

/-- The storage cannot be reached for the first `dequeue`, and the queue is started once
more. -/
def startAndFail : List (OpenAction ℕ) :=
  [.start, .reject 0 { message := "Connection is closed." } none, .start]

theorem not_hasLoop :
    ¬ ∀ (cfg : QueueConfig ℕ) (as : List (OpenAction ℕ)) (s : OpenInstance ℕ),
      exec (step cfg) {} as = some s → s.HasLoop := by
  intro h
  have hloop := h demoConfig startAndFail _ rfl
  exact absurd (hloop rfl rfl) (by decide)

end Blaize.Queue.OpenInstance
