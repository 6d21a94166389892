import Blaize.Queue.Hands

/-!
How often the handler of a job is started.

* `AttemptInv`: **one hand for each job, and its starts and debts are paid for by its
  retries**;
* `timelyGuard`: the order of the event loop, in which no timer fires while the
  continuation of an invocation is waiting in the microtask queue;
* `Lone`: at most one unsettled invocation for each job;
* `attempts_bounded`: **the retries of a job stay within its limit, its handler is started
  at most once more than that, and it has at most one unsettled invocation**.
-/

namespace Blaize.Queue

open Machine

variable {V : Type}

/-- **The order of the event loop**: the microtask queue is emptied before a timer fires, so
no timer of a job fires while an invocation for it has only its `finally` left. -/
def timelyGuard : Guard V where
  fire s jobId := ∀ t ∈ s.tasks, t.isFinishing jobId = false

instance (s : QueueInstance V) (jobId : String) (job : Job V) :
    Decidable (timelyGuard.cancel s jobId job) := .isTrue trivial

instance (storage : InMemoryStorage V) (id : String) : Decidable (timelyGuard.take storage id) :=
  .isTrue trivial

instance (jobId : String) (pc : ExecPc V) (env : Env) : Decidable (timelyGuard.exec jobId pc env) :=
  .isTrue trivial

instance (s : QueueInstance V) (jobId : String) : Decidable (timelyGuard.fire s jobId) :=
  inferInstanceAs (Decidable (∀ t ∈ s.tasks, t.isFinishing jobId = false))

namespace QueueInstance

variable {cfg : QueueConfig V} {G : Guard V} {s s' : QueueInstance V} {w : ExecPc V → Bool}

/-! ### The invariant -/

/-- **One hand for each job, and its starts and debts are paid for by its retries.** -/
structure AttemptInv (cfg : QueueConfig V) (s : QueueInstance V) : Prop where
  hands : ∀ id, s.weight cfg ExecPc.working id + s.timersOf id ≤ (s.budget id).isSome.toNat
  starts : ∀ id, s.handlerStarts id + s.weight cfg ExecPc.owes id + s.timersOf id ≤
    (s.budget id).elim 0 fun b => b.1 + 1
  bounded : ∀ {id r m}, s.budget id = some (r, m) → r ≤ m
  agrees : ∀ t ∈ s.tasks, t.Agrees s.budget

lemma AttemptInv.init : AttemptInv cfg ({} : QueueInstance V) where
  hands _ := Nat.le_refl _
  starts _ := Nat.le_refl _
  bounded h := by cases h
  agrees t ht := by cases ht

lemma AttemptInv.quiet (h : AttemptInv cfg s) (hq : Quiet cfg s s') : AttemptInv cfg s' where
  hands id := by
    rw [hq.budget]
    exact Nat.le_trans
      (Nat.add_le_add (hq.weight ExecPc.working id fun _ _ _ => rfl) (hq.timers id)) (h.hands id)
  starts id := by
    rw [hq.budget, hq.starts]
    have hw := hq.weight ExecPc.owes id fun _ _ _ => rfl
    have ht := hq.timers id
    have hs := h.starts id
    omega
  bounded hb := h.bounded (by rwa [hq.budget] at hb)
  agrees := by
    rw [hq.budget]
    exact hq.agrees h.agrees

lemma AttemptInv.add (h : AttemptInv cfg s) {job : Job V} (now : ℕ)
    (hfresh : s.storage.jobs.get job.id = none) (hretries : job.retries = 0) :
    AttemptInv cfg { s with storage := s.storage.enqueue cfg.name job now } := by
  have hnone : s.budget job.id = none := by rw [budget, hfresh, Option.map_none]
  refine ⟨fun id => ?_, fun id => ?_, fun {id r m} hb => ?_, fun t ht => ?_⟩
  · have hh := h.hands id
    rw [weight_enqueue, budget_enqueue]
    change _ + _ + s.timersOf id ≤ _
    by_cases he : job.id = id
    · subst he
      rw [hnone] at hh
      simp only [decide_true, Bool.toNat_true, if_true, Option.isSome_some, Option.isSome_none,
        Bool.toNat_false] at hh ⊢
      omega
    · simpa [he] using hh
  · have hs := h.starts id
    rw [weight_enqueue, budget_enqueue]
    change s.handlerStarts id + _ + s.timersOf id ≤ _
    by_cases he : job.id = id
    · subst he
      rw [hnone] at hs
      simp only [decide_true, Bool.toNat_true, if_true, Option.elim_some, Option.elim_none,
        hretries] at hs ⊢
      omega
    · simpa [he] using hs
  · rw [budget_enqueue] at hb
    split at hb
    · cases hb
      omega
    · exact h.bounded hb
  · have hh := h.hands job.id
    rw [hnone, Option.isSome_none, Bool.toNat_false, weight] at hh
    have hzero : s.tasks.countP (Task.weighs ExecPc.working job.id) = 0 := by omega
    refine (h.agrees t ht).of_not_weighs job.id (fun id' hne => ?_) ?_
    · rw [budget_enqueue, if_neg (Ne.symm hne)]
    · exact Bool.eq_false_iff.mpr (List.countP_eq_zero.mp hzero t ht)

/-- A retry callback writes the record that it had read, and passes its job on to the entry
that it makes. -/
lemma AttemptInv.quiet_reenqueue (h : AttemptInv cfg s) {i attempt : ℕ} {job : Job V} (now : ℕ)
    (hi : s.tasks[i]? = some (.retry job.id attempt (.got (some job))))
    (hst : job.status = .queued) :
    Quiet cfg s ({ s with storage := s.storage.enqueue cfg.name job now }.setTask i
      (.retry job.id attempt .enqueued)) := by
  have hpending : RetryPc.pending (.got (some job)) = some job := if_pos hst
  have hrecord : s.budget job.id = some (job.retries, job.maxRetries) :=
    h.agrees _ (List.mem_of_getElem? hi) job hpending
  refine ⟨?_, fun _ => rfl, fun _ => Nat.le_refl _, fun w id _ => ?_, fun hall t ht => ?_⟩
  · funext id
    refine (budget_enqueue (s := s) cfg job now id).trans ?_
    split
    next he => rw [← he, hrecord]
    next => rfl
  · have hset := weight_setTask cfg w
      (s := { s with storage := s.storage.enqueue cfg.name job now }) hi
      (.retry job.id attempt .enqueued) id
    have hholds : Task.weighs w id (.retry job.id attempt (.got (some job)) : Task V) =
        decide (job.id = id) := by rw [Task.weighs, hpending, Option.isSome_some, Bool.and_true]
    have hdone : Task.weighs w id (.retry job.id attempt .enqueued : Task V) = false := by
      simp [Task.weighs, RetryPc.pending]
    rw [hholds, hdone, weight_enqueue, Bool.toNat_false] at hset
    omega
  · rcases List.mem_or_eq_of_mem_set ht with ht | rfl
    · exact hall t ht
    · simp [Task.Agrees, RetryPc.pending]

/-- How a timer that fires moves the hands of its job. -/
lemma weight_fireTimer (cfg : QueueConfig V) (w : ExecPc V → Bool) (timer : RetryTimer)
    (id : String) :
    (s.fireTimer cfg timer).weight cfg w id ≤
      s.weight cfg w id + (decide (timer.jobId = id)).toNat := by
  rw [QueueInstance.fireTimer]
  split
  · exact Nat.le_add_right _ _
  · rw [weight_spawn]
    have hle : (Task.weighs w id (.retry timer.jobId timer.attempt
        (.got (s.read cfg timer.jobId)) : Task V)).toNat ≤ (decide (timer.jobId = id)).toNat := by
      refine Bool.toNat_le_toNat fun h => ?_
      simp only [Task.weighs, Bool.and_eq_true] at h
      exact h.1
    exact Nat.add_le_add_left hle _

lemma timersOf_fireTimer (cfg : QueueConfig V) {timer : RetryTimer} (ht : timer ∈ s.timers)
    (id : String) :
    (s.fireTimer cfg timer).timersOf id + (decide (timer.jobId = id)).toNat = s.timersOf id := by
  have hperm := (List.perm_cons_erase ht).countP_eq (fun timer : RetryTimer => timer.jobId = id)
  rw [List.countP_cons] at hperm
  have htimers : (s.fireTimer cfg timer).timers = s.timers.erase timer := by
    rw [QueueInstance.fireTimer]
    split <;> rfl
  rw [timersOf, timersOf, htimers, hperm]
  by_cases he : timer.jobId = id <;> simp [he]

/-- A timer that fires passes its job on to the callback. -/
lemma AttemptInv.fire (ho : Owned cfg s) (h : AttemptInv cfg s) {timer : RetryTimer}
    (ht : timer ∈ s.timers) : AttemptInv cfg (s.fireTimer cfg timer) := by
  have hbudget : (s.fireTimer cfg timer).budget = s.budget := by
    rw [QueueInstance.fireTimer]
    split <;> rfl
  refine ⟨fun id => ?_, fun id => ?_, fun {id r m} hb => ?_, fun t ht' => ?_⟩
  · have hw := weight_fireTimer (s := s) cfg ExecPc.working timer id
    have htimers := timersOf_fireTimer cfg ht id
    have hh := h.hands id
    rw [hbudget]
    omega
  · have hw := weight_fireTimer (s := s) cfg ExecPc.owes timer id
    have htimers := timersOf_fireTimer cfg ht id
    have hs := h.starts id
    have hstarts : (s.fireTimer cfg timer).handlerStarts id = s.handlerStarts id := by
      rw [QueueInstance.fireTimer]
      split
      · simp [handlerStarts]
      · rfl
    rw [hbudget, hstarts]
    omega
  · exact h.bounded (by rwa [hbudget] at hb)
  · rw [hbudget]
    rw [QueueInstance.fireTimer] at ht'
    split at ht'
    · exact h.agrees t ht'
    · rcases List.mem_append.mp ht' with ht' | ht'
      · exact h.agrees t ht'
      · obtain rfl := List.mem_singleton.mp ht'
        intro job hjob
        rw [ho.read_eq] at hjob
        cases hget : s.storage.jobs.get timer.jobId with
        | none =>
            rw [hget] at hjob
            cases hjob
        | some stored =>
            rw [hget, RetryPc.pending] at hjob
            split at hjob
            · cases hjob
              rw [budget, hget, Option.map_some]
            · cases hjob

/-! ### Pieces of `executeJob` -/

section Exec

variable {i : ℕ} {jobId : String} {pc : ExecPc V} {env : Env} {eff : Effect V}

lemma weight_applyEffect (cfg : QueueConfig V) (w : ExecPc V → Bool)
    (hi : s.tasks[i]? = some (.exec jobId pc)) (eff : Effect V) (id : String) :
    (s.applyEffect i jobId eff).weight cfg w id + (decide (jobId = id) && w pc).toNat =
      s.weight cfg w id + (decide (jobId = id) && w eff.next).toNat := by
  have hqueue : (s.applyEffect i jobId eff).storage.queueOf cfg.name =
      s.storage.queueOf cfg.name := by
    cases hp : eff.patch <;> simp [QueueInstance.applyEffect, hp]
  have htasks := List.countP_set_add (Task.weighs w id) (.exec jobId eff.next) hi
  simp only [Task.weighs] at htasks
  rw [weight, weight, hqueue]
  change _ + (s.tasks.set i _).countP _ + _ = _
  omega

lemma timersOf_applyEffect (s : QueueInstance V) (i : ℕ) (jobId : String) (eff : Effect V)
    (id : String) :
    (s.applyEffect i jobId eff).timersOf id =
      s.timersOf id + (decide (jobId = id) && eff.retryTimer.isSome).toNat := by
  cases hr : eff.retryTimer with
  | none => simp [timersOf, QueueInstance.applyEffect, hr]
  | some attempt => by_cases he : jobId = id <;> simp [timersOf, QueueInstance.applyEffect, hr, he]

lemma handlerStarts_applyEffect (s : QueueInstance V) (i : ℕ) (jobId : String) (eff : Effect V)
    (id : String) :
    (s.applyEffect i jobId eff).handlerStarts id =
      s.handlerStarts id + (decide (jobId = id) && eff.started.isSome).toNat := by
  cases hr : eff.started with
  | none => simp [handlerStarts, QueueInstance.applyEffect, hr]
  | some data =>
      by_cases he : jobId = id <;> simp [handlerStarts, QueueInstance.applyEffect, hr, he]

lemma budget_applyEffect (s : QueueInstance V) (i : ℕ) (jobId : String) (eff : Effect V)
    (hmax : ∀ patch ∈ eff.patch, patch.maxRetries = none) (id : String) :
    (s.applyEffect i jobId eff).budget id =
      if jobId = id then
        (s.budget id).map fun b => ((eff.patch.bind JobPatch.retries).getD b.1, b.2)
      else s.budget id := by
  cases hp : eff.patch with
  | none => simp [budget, QueueInstance.applyEffect, hp, Function.comp_def]
  | some patch =>
      have hnone := hmax patch hp
      have hupdate := budget_updateJob (s := s) jobId id patch
      rw [hnone] at hupdate
      simpa [budget, QueueInstance.applyEffect, hp] using hupdate

/-- A piece that leaves the retries alone. -/
lemma AttemptInv.exec_keep (ho : Owned cfg s) (h : AttemptInv cfg s)
    (hi : s.tasks[i]? = some (.exec jobId pc)) (hf : PieceFacts (s.read cfg jobId) pc eff)
    (hretries : ∀ patch ∈ eff.patch, patch.retries = none)
    (howes : eff.next.owes.toNat + eff.retryTimer.isSome.toNat + eff.started.isSome.toNat ≤
      pc.owes.toNat) : AttemptInv cfg (s.applyEffect i jobId eff) := by
  have hbudget : (s.applyEffect i jobId eff).budget = s.budget := by
    funext id
    have hnone : eff.patch.bind JobPatch.retries = none := by
      cases hp : eff.patch with
      | none => rfl
      | some patch => exact hretries patch hp
    rw [budget_applyEffect s i jobId eff hf.maxRetries, hnone]
    split
    · simp
    · rfl
  refine ⟨fun id => ?_, fun id => ?_, fun {id r m} hb => ?_, fun t ht => ?_⟩
  · have hw := weight_applyEffect cfg ExecPc.working hi eff id
    have hh := h.hands id
    have hle := hf.working
    rw [hbudget, timersOf_applyEffect]
    by_cases he : jobId = id
    · simp only [he, decide_true, Bool.true_and] at hw ⊢
      omega
    · simp only [he, decide_false, Bool.false_and, Bool.toNat_false] at hw ⊢
      omega
  · have hw := weight_applyEffect cfg ExecPc.owes hi eff id
    have hs := h.starts id
    rw [hbudget, timersOf_applyEffect, handlerStarts_applyEffect]
    by_cases he : jobId = id
    · simp only [he, decide_true, Bool.true_and] at hw ⊢
      omega
    · simp only [he, decide_false, Bool.false_and, Bool.toNat_false] at hw ⊢
      omega
  · exact h.bounded (by rwa [hbudget] at hb)
  · rw [hbudget]
    rcases List.mem_or_eq_of_mem_set ht with ht | rfl
    · exact h.agrees t ht
    · intro r m hb
      refine hf.agrees r m (h.agrees _ (List.mem_of_getElem? hi) r m hb) ?_
      rw [budget, Option.map_eq_some_iff] at hb
      obtain ⟨job, hjob, he⟩ := hb
      rw [ho.read_eq, hjob, Option.map_some]
      exact congrArg (some ∘ Prod.fst) he

/-- Two tasks that have a job in hand are two hands. -/
lemma two_le_weight (cfg : QueueConfig V) {k : ℕ} {t u : Task V} {id : String} (hik : i ≠ k)
    (hi : s.tasks[i]? = some t) (hk : s.tasks[k]? = some u) (ht : t.weighs w id = true)
    (hu : u.weighs w id = true) : 2 ≤ s.weight cfg w id := by
  have hset := List.countP_set_add (Task.weighs w id) (.stop .stopped) hi
  have hk' : (s.tasks.set i (.stop .stopped))[k]? = some u := by
    rw [List.getElem?_set_ne hik]
    exact hk
  have hpos : 0 < (s.tasks.set i (.stop .stopped)).countP (Task.weighs w id) :=
    List.countP_pos_iff.mpr ⟨u, List.mem_of_getElem? hk', hu⟩
  have hstop : Task.weighs w id (.stop .stopped) = false := rfl
  rw [ht, hstop, Bool.toNat_true, Bool.toNat_false] at hset
  rw [weight]
  omega

lemma AttemptInv.not_weighs (h : AttemptInv cfg s) {k : ℕ} {t u : Task V} {id : String}
    (hik : i ≠ k) (hi : s.tasks[i]? = some t) (hk : s.tasks[k]? = some u)
    (ht : t.weighs ExecPc.working id = true) : u.weighs ExecPc.working id = false := by
  by_contra hu
  rw [Bool.not_eq_false] at hu
  have htwo := two_le_weight cfg hik hi hk ht hu
  have hh := h.hands id
  have hone : (s.budget id).isSome.toNat ≤ 1 := Bool.toNat_le _
  omega

/-- The piece of `handleJobFailure` that writes a retry: the record pays for the start that
the invocation owes from here on, and nobody else remembers the old record. -/
lemma AttemptInv.exec_retry (h : AttemptInv cfg s) {job : Job V} {err : Thrown}
    {currentJob : Option (Job V)} {patch : JobPatch V}
    (hi : s.tasks[i]? = some (.exec jobId (.failureGot job err currentJob)))
    (hf : PieceFacts (s.read cfg jobId) (.failureGot job err currentJob) eff)
    (hlt : (currentJob.map Job.retries).getD job.retries < job.maxRetries)
    (hp : eff.patch = some patch)
    (hretries : patch.retries = some ((currentJob.map Job.retries).getD job.retries + 1))
    {attempt : ℕ} (hnext : eff.next = .retryUpdated job attempt) (htimer : eff.retryTimer = none)
    (hstarted : eff.started = none) : AttemptInv cfg (s.applyEffect i jobId eff) := by
  have hmine : Task.weighs ExecPc.working jobId
      (.exec jobId (.failureGot job err currentJob) : Task V) = true := by
    simp only [Task.weighs, decide_true, ExecPc.working, Bool.and_self]
  -- the invocation has the job in hand, so the job is stored
  obtain ⟨⟨r, m⟩, hb⟩ : ∃ b, s.budget jobId = some b := by
    have hpos : 0 < s.tasks.countP (Task.weighs ExecPc.working jobId) :=
      List.countP_pos_iff.mpr ⟨_, List.mem_of_getElem? hi, hmine⟩
    have hh := h.hands jobId
    rw [weight] at hh
    cases hb : s.budget jobId with
    | none =>
        rw [hb, Option.isSome_none, Bool.toNat_false] at hh
        omega
    | some b => exact ⟨b, rfl⟩
  obtain ⟨hmax, hcur⟩ := h.agrees _ (List.mem_of_getElem? hi) r m hb
  rw [hcur] at hlt hretries
  rw [hmax] at hlt
  have hbudget : ∀ id, (s.applyEffect i jobId eff).budget id =
      if jobId = id then some (r + 1, m) else s.budget id := by
    intro id
    rw [budget_applyEffect s i jobId eff hf.maxRetries, hp, Option.bind_some, hretries]
    split
    next he => rw [← he, hb]; rfl
    next => rfl
  refine ⟨fun id => ?_, fun id => ?_, fun {id r' m'} hb' => ?_, fun t ht => ?_⟩
  · have hw := weight_applyEffect cfg ExecPc.working hi eff id
    have hh := h.hands id
    rw [hbudget, timersOf_applyEffect, htimer]
    rw [hnext] at hw
    simp only [ExecPc.working, Option.isSome_none, Bool.and_false, Bool.toNat_false] at hw ⊢
    split
    next he =>
        rw [← he, hb, Option.isSome_some] at hh
        rw [Option.isSome_some, ← he]
        rw [← he] at hw
        omega
    next => omega
  · have hw := weight_applyEffect cfg ExecPc.owes hi eff id
    have hs := h.starts id
    rw [hbudget, timersOf_applyEffect, handlerStarts_applyEffect, htimer, hstarted]
    rw [hnext] at hw
    simp only [ExecPc.owes, Option.isSome_none, Bool.and_false, Bool.toNat_false,
      Bool.and_true] at hw ⊢
    split
    next he =>
        subst he
        rw [hb] at hs
        simp only [decide_true, Bool.toNat_true, Option.elim_some] at hw hs ⊢
        omega
    next he =>
        rw [decide_eq_false he, Bool.toNat_false] at hw
        omega
  · rw [hbudget] at hb'
    split at hb'
    · cases hb'
      omega
    · exact h.bounded hb'
  · obtain ⟨k, hk⟩ := List.mem_iff_getElem?.mp ht
    change (s.tasks.set i (.exec jobId eff.next))[k]? = some t at hk
    by_cases hik : i = k
    · subst hik
      rw [List.getElem?_set_self (List.getElem?_eq_some_iff.mp hi).1, hnext] at hk
      cases hk
      exact fun _ _ _ => trivial
    · rw [List.getElem?_set_ne hik] at hk
      refine (h.agrees t (List.mem_of_getElem? hk)).of_not_weighs jobId (fun id' hne => ?_)
        (h.not_weighs hik hi hk hmine)
      rw [hbudget, if_neg (Ne.symm hne)]

lemma AttemptInv.exec (ho : Owned cfg s) (h : AttemptInv cfg s)
    (hi : s.tasks[i]? = some (.exec jobId pc))
    (heff : execPiece cfg (s.read cfg jobId) env pc = some eff) :
    AttemptInv cfg (s.applyEffect i jobId eff) := by
  have hf := execPiece_facts heff
  rcases hf.owes with ⟨hretries, howes⟩ |
    ⟨job, err, currentJob, patch, rfl, hlt, hp, hretries, ⟨attempt, hnext⟩, htimer, hstarted⟩
  · exact h.exec_keep ho hi hf hretries howes
  · exact h.exec_retry hi hf hlt hp hretries hnext htimer hstarted

end Exec

/-- **One move keeps the invariant.** -/
lemma AttemptInv.move (ho : Owned cfg s) (h : AttemptInv cfg s) (hm : Move cfg G s s') :
    AttemptInv cfg s' := by
  rcases quiet_or_loud ho hm with hq | hl
  · exact h.quiet hq
  · cases hl with
    | add job now hfresh hretries he =>
        rw [he]
        exact h.add now hfresh hretries
    | exec hi heff he =>
        rw [he]
        exact h.exec ho hi heff
    | reenqueue now hi hst he =>
        rw [he]
        exact h.quiet (h.quiet_reenqueue now hi hst)
    | fire ht hG he =>
        rw [he]
        exact h.fire ho ht

/-- The invariant holds along a chain of moves. -/
lemma attemptInv_of_moves (ho : Owned cfg s) (h : AttemptInv cfg s) (hm : Moves cfg G s s') :
    Owned cfg s' ∧ AttemptInv cfg s' := by
  induction hm with
  | refl => exact ⟨ho, h⟩
  | tail _ hm ih => exact ⟨ih.1.move hm, ih.2.move ih.1 hm⟩

/-! ### One unsettled invocation -/

/-- **At most one unsettled invocation for each job**, and none while the job is in another
hand that is not a timer. -/
def Lone (cfg : QueueConfig V) (s : QueueInstance V) : Prop :=
  ∀ id, s.weight cfg ExecPc.unsettled id ≤ (s.budget id).isSome.toNat

/-- While no invocation for the job is in its `finally`, the unsettled ones are working. -/
lemma weight_unsettled_le (cfg : QueueConfig V) {id : String}
    (h : ∀ t ∈ s.tasks, t.isFinishing id = false) :
    s.weight cfg ExecPc.unsettled id ≤ s.weight cfg ExecPc.working id := by
  refine Nat.add_le_add_left (List.countP_mono_left fun t ht hw => ?_) _
  have hfin := h t ht
  cases t with
  | exec jobId pc =>
      simp only [Task.weighs, Bool.and_eq_true, decide_eq_true_eq] at hw ⊢
      refine ⟨hw.1, ?_⟩
      cases pc with
      | finishing threw => simp [Task.isFinishing, hw.1] at hfin
      | rejected => exact hw.2
      | settled => exact hw.2
      | _ => rfl
  | _ => exact hw

/-- **One move in the order of the event loop keeps invocations lone.** -/
lemma Lone.move (ho : Owned cfg s) (h : AttemptInv cfg s) (hl : Lone cfg s)
    (hm : Move cfg timelyGuard s s') : Lone cfg s' := by
  have hquiet : ∀ {s'}, Quiet cfg s s' → Lone cfg s' := fun hq id => by
    rw [hq.budget]
    exact Nat.le_trans (hq.weight ExecPc.unsettled id fun _ _ _ => rfl) (hl id)
  rcases quiet_or_loud ho hm with hq | hloud
  · exact hquiet hq
  · intro id
    have hid := hl id
    cases hloud with
    | add job now hfresh hretries he =>
        rw [he, weight_enqueue, budget_enqueue]
        by_cases hjob : job.id = id
        · subst hjob
          rw [budget, hfresh, Option.map_none, Option.isSome_none, Bool.toNat_false] at hid
          simp only [decide_true, Bool.toNat_true, if_true, Option.isSome_some]
          omega
        · simpa [hjob] using hid
    | @exec i jobId pc env eff hi heff he =>
        have hf := execPiece_facts heff
        have hw := weight_applyEffect cfg ExecPc.unsettled hi eff id
        have hstored : ((s.applyEffect i jobId eff).budget id).isSome = (s.budget id).isSome := by
          rw [budget_applyEffect s i jobId eff hf.maxRetries]
          split
          · exact Option.isSome_map
          · rfl
        have hle := hf.unsettled
        rw [he, hstored]
        by_cases hjob : jobId = id
        · simp only [hjob, decide_true, Bool.true_and] at hw ⊢
          omega
        · simp only [hjob, decide_false, Bool.false_and, Bool.toNat_false] at hw ⊢
          omega
    | reenqueue now hi hst he =>
        rw [he]
        exact hquiet (h.quiet_reenqueue now hi hst) id
    | @fire timer ht hG he =>
        have hw := weight_fireTimer (s := s) cfg ExecPc.unsettled timer id
        have hbudget : (s.fireTimer cfg timer).budget = s.budget := by
          rw [QueueInstance.fireTimer]
          split <;> rfl
        rw [he, hbudget]
        by_cases hjob : timer.jobId = id
        · -- the timer was the only hand, so the callback is
          subst hjob
          have hworking := weight_unsettled_le cfg hG
          have htimers := timersOf_fireTimer cfg ht timer.jobId
          have hh := h.hands timer.jobId
          simp only [decide_true, Bool.toNat_true] at hw htimers
          omega
        · simp only [hjob, decide_false, Bool.toNat_false] at hw
          omega

lemma lone_of_moves (ho : Owned cfg s) (h : AttemptInv cfg s) (hl : Lone cfg s)
    (hm : Moves cfg timelyGuard s s') : Lone cfg s' := by
  induction hm with
  | refl => exact hl
  | tail hms hm ih =>
      obtain ⟨ho', h'⟩ := attemptInv_of_moves ho h hms
      exact ih.move ho' h' hm

/-- Two unsettled invocations for a job would be two hands. -/
lemma Lone.unique (hl : Lone cfg s) {id : String} {i j : ℕ} {pc pc' : ExecPc V}
    (hi : s.tasks[i]? = some (.exec id pc)) (hj : s.tasks[j]? = some (.exec id pc'))
    (hpc : pc.unsettled = true) (hpc' : pc'.unsettled = true) : i = j := by
  by_contra hij
  have hweighs : ∀ {pc : ExecPc V}, pc.unsettled = true →
      Task.weighs ExecPc.unsettled id (.exec id pc) = true := fun h => by
    rw [Task.weighs, h, Bool.and_true]
    exact decide_eq_true rfl
  have htwo := two_le_weight cfg hij hi hj (hweighs hpc) (hweighs hpc')
  have hone : (s.budget id).isSome.toNat ≤ 1 := Bool.toNat_le _
  have hid := hl id
  omega

/-- **Attempts are bounded**, in every run: no job has more retries than its limit, and its
handler is started at most once more than that.  In a run that keeps to the order of the
event loop, no two invocations of `executeJob` for one job are unsettled at a time. -/
theorem attempts_bounded {as : List (Action V)} (hs : exec (step cfg) {} as = some s) :
    (∀ id job, s.storage.jobs.get id = some job →
      job.retries ≤ job.maxRetries ∧ s.handlerStarts id ≤ job.maxRetries + 1) ∧
    (Meets (step cfg) (Allowed cfg timelyGuard) {} as →
      ∀ (id : String) (i j : ℕ) (pc pc' : ExecPc V),
        s.tasks[i]? = some (.exec id pc) → s.tasks[j]? = some (.exec id pc') →
        pc.unsettled = true → pc'.unsettled = true → i = j) := by
  have hfree : Meets (step cfg) (Allowed cfg {}) {} as :=
    meets_of_forall_initial fun _ a _ _ _ _ => allowed_free a
  obtain ⟨-, h⟩ := attemptInv_of_moves Owned.init AttemptInv.init (run_moves hfree hs)
  refine ⟨fun id job hjob => ?_, fun htimely id i j pc pc' hi hj hpc hpc' => ?_⟩
  · have hb : s.budget id = some (job.retries, job.maxRetries) := by
      rw [budget, hjob, Option.map_some]
    have hle := h.bounded hb
    have hstarts := h.starts id
    rw [hb, Option.elim_some] at hstarts
    exact ⟨hle, by omega⟩
  · have hinit : Lone cfg ({} : QueueInstance V) := fun _ => Nat.le_refl _
    exact (lone_of_moves Owned.init AttemptInv.init hinit (run_moves htimely hs)).unique
      hi hj hpc hpc'

/-- A job with one retry fails, is taken up again and is at its second attempt. -/
def secondAttempt : List (Action ℕ) :=
  [.add "a" "t" 0 { maxRetries := some 1 } 0, .start {}, .resume 0 {}, .resume 1 {},
    .resume 1 {}, .resume 1 {}, .resume 1 {}, .settle 1 (.rejected { message := "boom" }),
    .resume 1 {}, .resume 1 {}, .resume 1 {}, .resume 1 {}, .resume 1 {}, .fire 0, .resume 2 {},
    .resume 0 {}, .resume 0 {}, .resume 3 {}, .resume 3 {}, .resume 3 {}, .resume 3 {}]

theorem attempts_bounded_secondAttempt :
    ∃ s, exec (step demoConfig) {} secondAttempt = some s ∧ s.handlerStarts "a" = 2 ∧
      Meets (step demoConfig) (Allowed demoConfig timelyGuard) {} secondAttempt ∧
      (∀ id job, s.storage.jobs.get id = some job →
        job.retries ≤ job.maxRetries ∧ s.handlerStarts id ≤ job.maxRetries + 1) ∧
      ∀ (id : String) (i j : ℕ) (pc pc' : ExecPc ℕ),
        s.tasks[i]? = some (.exec id pc) → s.tasks[j]? = some (.exec id pc') →
        pc.unsettled = true → pc'.unsettled = true → i = j := by
  have htimely : Meets (step demoConfig) (Allowed demoConfig timelyGuard) {} secondAttempt := by
    decide
  have hrun : exec (step demoConfig) {} secondAttempt = some _ := rfl
  obtain ⟨hbounds, hlone⟩ := attempts_bounded hrun
  exact ⟨_, rfl, rfl, htimely, hbounds, hlone htimely⟩

end QueueInstance

end Blaize.Queue
