import Blaize.Redis.Board

/-!
Do the record of a job and the status sets agree?

`updateJob` reads the hash, merges in JavaScript and writes the whole hash back in a later
step.  A script that moves the job in between is undone in the hash and not in the sets.  When
every update finds its job as it had read it, hash and sets agree in every state:

* `Agrees`: the hash of a job names the one set it is in, but for a job that an update took
  out of its queue for a delayed retry;
* `KeepsStatus`: an update that asks for no status leaves the status alone;
* `record_and_sets_agree`: **both hold along every run whose updates find their jobs**;
* `not_record_and_sets_agree`: a progress report that overlaps a completion breaks both.
-/

namespace Blaize.RedisQueue

open Machine Blaize.Queue

variable {V : Type}

/-- The jobs that wait for a delayed retry were put there by their last event. -/
def WaitingRecorded (board : Board) (trace : List Event) : Prop :=
  ∀ id q, board id = .waiting q → lastEvent trace id = some (.moved id true)

lemma WaitingRecorded.step {board board' : Board} {trace : List Event} {event : Event}
    (h : WaitingRecorded board trace) (hb : BoardStep board event board') :
    WaitingRecorded board' (event :: trace) := by
  have key : ∀ {slot : Slot}, (∀ q, slot = .waiting q → event = .moved event.jobId true) →
      WaitingRecorded (Function.update board event.jobId slot) (event :: trace) := by
    intro slot hslot id q hw
    by_cases he : id = event.jobId
    · subst he
      rw [Function.update_self] at hw
      rw [lastEvent_cons_self, ← hslot q hw]
    · rw [Function.update_of_ne he] at hw
      rw [lastEvent_cons_of_ne (Ne.symm he)]
      exact h id q hw
  cases hb with
  | enqueued q hb => exact key (by simp)
  | dequeued hb => exact key (by simp)
  | completed hb => exact key (by simp)
  | failed outcome hb => exact key (by simp)
  | moved s' hb => exact key (by simp)
  | delayed hb => exact key fun _ _ => rfl

namespace Cluster

variable {cfg : RedisQueueAdapter} {json : Json V}

/-- The job is in the set of a queue and a status. -/
def inSet (cfg : RedisQueueAdapter) (c : Cluster V) (id q : String) (s : JobStatus) : Prop :=
  (c.store.zscore (cfg.buildQueueKey q s) id).isSome = true

/-- The hash of the job and the status sets agree: a job without a hash is in no set, and the
hash of any other names the one set that the job is in, unless the job waits for a delayed
retry and is in none. -/
def Agrees (cfg : RedisQueueAdapter) (c : Cluster V) (id : String) : Prop :=
  ((c.store.hgetall (buildJobKey id)).entries = [] ∧ ∀ q s, ¬ c.inSet cfg id q s) ∨
    ∃ q s, c.store.hget (buildJobKey id) "queueName" = some q ∧
      c.store.hget (buildJobKey id) "status" = some (statusText s) ∧
      ((∀ q' s', c.inSet cfg id q' s' ↔ q' = q ∧ s' = s) ∨
        (s = .queued ∧ lastEvent c.trace id = some (.moved id true) ∧
          ∀ q' s', ¬ c.inSet cfg id q' s'))

/-- An update that asks for no status leaves the status of its job alone. -/
def KeepsStatus (c c' : Cluster V) : Action V → Prop
  | .resume i _ => ∀ jobId updates currentJob,
      c.calls[i]? = some (.updating jobId updates currentJob) → updates.status = none →
      c'.store.hget (buildJobKey jobId) "status" = c.store.hget (buildJobKey jobId) "status"
  | _ => True

/-- A board that records its waiting jobs shows that hash and sets agree. -/
lemma OnBoard.agrees {c : Cluster V} {board : Board} (h : OnBoard cfg c board)
    (hw : WaitingRecorded board c.trace) (id : String) : c.Agrees cfg id := by
  cases hb : board id with
  | absent =>
      refine Or.inl ⟨h.store.missing.mp hb, fun q s hm => ?_⟩
      rw [inSet, h.store.member, hb] at hm
      cases hm
  | inSet q s =>
      refine Or.inr ⟨q, s, h.store.queueName (by rw [hb]; rfl), h.store.status (by rw [hb]; rfl),
        Or.inl fun q' s' => ?_⟩
      rw [inSet, h.store.member, hb, Slot.inSet.injEq, eq_comm, @eq_comm _ s]
  | waiting q =>
      refine Or.inr ⟨q, .queued, h.store.queueName (s := .queued) (by rw [hb]; rfl),
        h.store.status (q := q) (by rw [hb]; rfl), Or.inr ⟨rfl, hw id q hb, fun q' s' hm => ?_⟩⟩
      rw [inSet, h.store.member, hb] at hm
      cases hm

/-- The pipeline of an update writes the status that it has merged. -/
lemma hget_status_updatePipeline (cfg : RedisQueueAdapter) (json : Json V) (store : Redis.Store)
    (jobId : String) (updates : JobPatch V) (currentJob : QueueJob V) :
    (updatePipeline cfg json store jobId updates currentJob).hget (buildJobKey jobId) "status" =
      some (statusText (updates.apply currentJob).status) := by
  have hset : (store.hset (buildJobKey jobId) (jobToHash json (updates.apply currentJob))).hget
      (buildJobKey jobId) "status" = some (statusText (updates.apply currentJob).status) := by
    rw [Redis.Store.hget_hset_self, find?_status_jobToHash]
    rfl
  rw [updatePipeline]
  dsimp only
  split
  · split <;> exact hset
  · exact hset

/-- An update that finds its job keeps the status that it was not asked to change. -/
lemma FindsItsJob.keepsStatus {c c' : Cluster V} {a : Action V} (h : c.FindsItsJob a)
    (hstep : c.step cfg json a = some c') : KeepsStatus c c' a := by
  cases a with
  | resume i now =>
      intro jobId updates currentJob hi hnone
      rw [FindsItsJob, hi] at h
      simp only [step, resume, hi, Option.some.injEq] at hstep
      rw [← hstep, h.1]
      refine (hget_status_updatePipeline cfg json c.store jobId updates currentJob).trans ?_
      rw [JobPatch.apply, hnone]
      rfl
  | _ => trivial

/-- **The record of a job and the status sets agree** in every state of a run in which every
update finds its job as it had read it, and no step of such a run changes a status that it was
not asked to change. -/
theorem record_and_sets_agree {as : List (Action V)} {c : Cluster V}
    (hguard : Meets (step cfg json) FindsItsJob {} as)
    (hrun : exec (step cfg json) {} as = some c) :
    (∀ id, c.Agrees cfg id) ∧
      ∀ bs a cs b b', as = bs ++ a :: cs → exec (step cfg json) {} bs = some b →
        b.step cfg json a = some b' → KeepsStatus b b' a := by
  constructor
  · have key : ∃ board, OnBoard cfg c board ∧ WaitingRecorded board c.trace := by
      refine meets_invariant
        (I := fun c => ∃ board, OnBoard cfg c board ∧ WaitingRecorded board c.trace)
        (fun c a c' h hG hstep => ?_) ⟨_, OnBoard.init, fun _ _ hw => by cases hw⟩ hguard hrun
      obtain ⟨board, hon, hw⟩ := h
      obtain ⟨board', hon', hadv⟩ := step_board hon hG hstep
      refine ⟨board', hon', ?_⟩
      rcases hadv with ⟨rfl, htrace⟩ | ⟨event, hb, htrace, -⟩
      · rw [htrace]
        exact hw
      · rw [htrace]
        exact hw.step hb
    obtain ⟨board, hon, hw⟩ := key
    exact hon.agrees hw
  · rintro bs a cs b b' rfl hb hstep
    obtain ⟨-, hrest⟩ := (meets_append hb).mp hguard
    exact hrest.1.keepsStatus hstep

/-- A job is delivered, its progress is reported, it is updated for a delayed retry and
cancelled, one call after the other. -/
def updatesInTurn : List (Action ℕ) :=
  [.enqueue "q" demoJob, .dequeue "q" 1, .resume 1 1, .updateJob "a" { progress := some 50 },
    .resume 2 2, .updateJob "a" { status := some .queued, retries := some 1 }, .resume 3 3,
    .updateJob "a" { status := some .cancelled }, .resume 4 4]

theorem record_and_sets_agree_inTurn :
    ∃ c, exec (step {} demoJson) {} updatesInTurn = some c ∧
      Meets (step {} demoJson) FindsItsJob {} updatesInTurn ∧ ∀ id, c.Agrees {} id := by
  have hguard : Meets (step {} demoJson) FindsItsJob {} updatesInTurn := by decide
  obtain ⟨c, hc⟩ : ∃ c, exec (step {} demoJson) {} updatesInTurn = some c := ⟨_, rfl⟩
  exact ⟨c, hc, hguard, (record_and_sets_agree hguard hc).1⟩

/-- A progress report reads the job, the job is completed, and the report writes what it had
read. -/
def reportOverlapsCompletion : List (Action ℕ) :=
  [.enqueue "q" demoJob, .dequeue "q" 1, .resume 1 1, .updateJob "a" { progress := some 50 },
    .completeJob "a" none, .resume 3 2, .resume 2 3]

/-- A call that has returned. -/
def hasReturned : Call V → Bool
  | .returned _ => true
  | _ => false

/-- With the calls all done, the hash says that the job is running and the sets say that it is
completed; and the report has reverted the completion, which it was not asked to. -/
theorem not_record_and_sets_agree :
    ¬ ∀ (as : List (Action ℕ)) (c : Cluster ℕ), exec (step {} demoJson) {} as = some c →
      (∀ call ∈ c.calls, hasReturned call = true) →
      (∀ id, c.Agrees {} id) ∧
        ∀ bs a cs b b', as = bs ++ a :: cs → exec (step {} demoJson) {} bs = some b →
          b.step {} demoJson a = some b' → KeepsStatus b b' a := by
  intro h
  obtain ⟨c, hc, hcalls, hstatus, hset⟩ : ∃ c,
      exec (step {} demoJson) {} reportOverlapsCompletion = some c ∧
        c.calls.all hasReturned = true ∧ c.store.hget (buildJobKey "a") "status" = some "running" ∧
        (c.store.zscore (({} : RedisQueueAdapter).buildQueueKey "q" .completed) "a").isSome =
          true :=
    ⟨_, rfl, rfl, rfl, rfl⟩
  rcases (h _ c hc (List.all_eq_true.mp hcalls)).1 "a" with ⟨hnone, -⟩ | ⟨q, s, -, hs, hagree⟩
  · exact entries_ne_nil hstatus hnone
  · rcases hagree with hin | ⟨-, -, hnot⟩
    · obtain ⟨-, rfl⟩ := (hin "q" .completed).mp hset
      rw [hstatus] at hs
      exact absurd (Option.some.inj hs) (by decide)
    · exact hnot "q" .completed hset

end Cluster

end Blaize.RedisQueue
