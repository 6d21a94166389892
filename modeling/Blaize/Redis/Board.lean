import Mathlib.Logic.Function.Basic
import Blaize.Redis.QueueAdapter

/-!
What the hashes and the sorted sets of the queue adapter stand for.

A `Board` says where each job is: in no set because it does not exist, in the set of one
status of its queue, or taken out of its queue until a delayed retry.  A store represents a
board when the hash of every job names its place and the job is a member of that one set.

* `Represents`: the relation between stores and boards;
* `dequeueScript_represents`, `completeScript_represents`, `failScript_represents`,
  `enqueuePipeline_represents`, `updatePipeline_represents`: **each script and each pipeline
  moves one job on the board**;
* `Represents.getJob`: a read answers with the place of the job;
* `BoardStep`: what an event does to the board;
* `step_board`: **a step of a client leaves the board alone or makes one board step**, as long
  as updates find their job as they had read it (`FindsItsJob`).
-/

namespace Blaize.RedisQueue

open Machine Blaize.Queue

variable {V : Type}

/-- Where a job is. -/
inductive Slot where
  | absent
  | inSet (queueName : String) (status : JobStatus)
  | waiting (queueName : String)
  deriving DecidableEq, Repr

/-- The queue and the status that the hash of a job names; a job that waits for a delayed
retry counts as queued. -/
def Slot.record : Slot → Option (String × JobStatus)
  | .absent => none
  | .inSet queueName status => some (queueName, status)
  | .waiting queueName => some (queueName, .queued)

/-- Where each job stands. -/
abbrev Board := String → Slot

/-- The store says of every job what the board says. -/
structure Represents (cfg : RedisQueueAdapter) (store : Redis.Store) (board : Board) : Prop where
  missing : ∀ {id}, board id = .absent ↔ (store.hgetall (buildJobKey id)).entries = []
  queueName : ∀ {id q s}, (board id).record = some (q, s) →
    store.hget (buildJobKey id) "queueName" = some q
  status : ∀ {id q s}, (board id).record = some (q, s) →
    store.hget (buildJobKey id) "status" = some (statusText s)
  member : ∀ {id q s}, (store.zscore (cfg.buildQueueKey q s) id).isSome = true ↔
    board id = .inSet q s

variable {cfg : RedisQueueAdapter} {json : Json V} {store store' : Redis.Store} {board : Board}

lemma Represents.init : Represents cfg {} fun _ => .absent where
  missing := by simp [Redis.Store.hgetall]; rfl
  queueName h := by cases h
  status h := by cases h
  member := by simp [Redis.Store.zscore, Redis.Store.zset]

/-- A hash with a field is there. -/
lemma entries_ne_nil {hash : Redis.Hash} {field value : String} (h : hash.get field = some value) :
    hash.entries ≠ [] := by
  intro he
  have := (hash.mem_entries_iff).mpr h
  rw [he] at this
  cases this

/-- **One job is moved**: the other jobs are left alone, and the store says of the job what
its new slot says. -/
lemma Represents.move (h : Represents cfg store board) (id : String) {slot : Slot}
    (hhash : ∀ id', id' ≠ id → store'.hgetall (buildJobKey id') = store.hgetall (buildJobKey id'))
    (hzset : ∀ id', id' ≠ id → ∀ key, store'.zscore key id' = store.zscore key id')
    {q : String} {s : JobStatus} (hslot : slot.record = some (q, s))
    (hqueue : store'.hget (buildJobKey id) "queueName" = some q)
    (hstatus : store'.hget (buildJobKey id) "status" = some (statusText s))
    (hmember : ∀ q' s', (store'.zscore (cfg.buildQueueKey q' s') id).isSome = true ↔
      slot = .inSet q' s') :
    Represents cfg store' (Function.update board id slot) where
  missing {id'} := by
    by_cases he : id' = id
    · subst he
      rw [Function.update_self]
      refine iff_of_false ?_ (entries_ne_nil hqueue)
      rintro rfl
      cases hslot
    · rw [Function.update_of_ne he, hhash id' he]
      exact h.missing
  queueName {id' q' s'} hr := by
    by_cases he : id' = id
    · subst he
      rw [Function.update_self, hslot] at hr
      cases hr
      exact hqueue
    · rw [Function.update_of_ne he] at hr
      rw [Redis.Store.hget, hhash id' he]
      exact h.queueName hr
  status {id' q' s'} hr := by
    by_cases he : id' = id
    · subst he
      rw [Function.update_self, hslot] at hr
      cases hr
      exact hstatus
    · rw [Function.update_of_ne he] at hr
      rw [Redis.Store.hget, hhash id' he]
      exact h.status hr
  member {id' q' s'} := by
    by_cases he : id' = id
    · subst he
      rw [Function.update_self]
      exact hmember q' s'
    · rw [Function.update_of_ne he, hzset id' he]
      exact h.member

/-- A job is somewhere when its hash names a place. -/
lemma Slot.record_eq_none {slot : Slot} : slot.record = none ↔ slot = .absent := by
  cases slot <;> simp [Slot.record]

/-- Fields of a hash that name neither the status nor the queue do not matter. -/
lemma Represents.setFields (h : Represents cfg store board) {id : String}
    (hb : board id ≠ .absent) (fields : List (String × String))
    (hstatus : fields.reverse.find? (·.1 = "status") = none)
    (hqueue : fields.reverse.find? (·.1 = "queueName") = none) :
    Represents cfg (store.hset (buildJobKey id) fields) board := by
  obtain ⟨⟨q, s⟩, hr⟩ := Option.ne_none_iff_exists'.mp (Slot.record_eq_none.not.mpr hb)
  rw [← Function.update_eq_self id board]
  refine h.move id (fun id' he => ?_) (fun _ _ _ => rfl) hr ?_ ?_ fun _ _ => h.member
  · rw [Redis.Store.hgetall_hset, if_neg (buildJobKey_inj.not.mpr (Ne.symm he))]
  · rw [Redis.Store.hget_hset_self, hqueue]
    exact h.queueName hr
  · rw [Redis.Store.hget_hset_self, hstatus]
    exact h.status hr

/-- A job that is read stands where the board says. -/
lemma Represents.getJob (h : Represents cfg store board) {id : String} {job : QueueJob V}
    (hg : getJob json store id = .ok (some job)) :
    (board id).record = some (job.queueName, job.status) := by
  rw [RedisQueue.getJob] at hg
  split at hg
  next => cases hg
  next hne =>
      split at hg
      next job' hj =>
          cases hg
          obtain ⟨hst, hq⟩ := hashToJob_eq_some json hj
          cases hr : (board id).record with
          | none => exact absurd (h.missing.mp (Slot.record_eq_none.mp hr)) hne
          | some p =>
              obtain ⟨q, s⟩ := p
              have hq' := h.queueName hr
              have hs' := h.status hr
              rw [Redis.Store.hget] at hq' hs'
              rw [hs', Option.bind_some, statusOfText_statusText] at hst
              rw [hq', Option.getD_some] at hq
              rw [hq, Option.some.inj hst]
      next => cases hg

/-! ### The scripts -/

section Scripts

variable {q : String}

/-- The zset part of a move between two sets of one queue. -/
lemma Represents.member_moved (h : Represents cfg store board) {id : String} {s : JobStatus}
    (hb : board id = .inSet q s) (t : JobStatus) (score : ℚ) (q' : String) (s' : JobStatus) :
    (((store.zrem (cfg.buildQueueKey q s) id).zadd (cfg.buildQueueKey q t) score id).zscore
      (cfg.buildQueueKey q' s') id).isSome = true ↔ Slot.inSet q t = .inSet q' s' := by
  simp only [Redis.Store.zscore_zadd, Redis.Store.zscore_zrem, cfg.buildQueueKey_inj]
  by_cases ht : q = q' ∧ t = s'
  · obtain ⟨rfl, rfl⟩ := ht
    simp
  · rw [if_neg (fun hh => ht hh.1)]
    by_cases hs : q = q' ∧ s = s'
    · rw [if_pos ⟨hs, trivial⟩]
      simpa using ht
    · rw [if_neg (fun hh => hs hh.1)]
      rw [h.member, hb]
      simp only [Slot.inSet.injEq]
      tauto

/-- A job that is moved between two sets of its queue, with some fields of its hash set, of
which the last status is the new one. -/
lemma Represents.moveTo (h : Represents cfg store board) {id : String} {s : JobStatus}
    (hb : board id = .inSet q s) (t : JobStatus) (score : ℚ) (fields : List (String × String))
    (hstatus : ((fields.reverse.find? (·.1 = "status")).map Prod.snd) = some (statusText t))
    (hqueue : fields.reverse.find? (·.1 = "queueName") = none) :
    Represents cfg
      (((store.zrem (cfg.buildQueueKey q s) id).zadd (cfg.buildQueueKey q t) score id).hset
        (buildJobKey id) fields) (Function.update board id (.inSet q t)) := by
  refine h.move id (fun id' he => ?_) (fun id' he key => ?_) (q := q) (s := t) rfl ?_ ?_
    fun q' s' => ?_
  · rw [Redis.Store.hgetall_hset, if_neg (buildJobKey_inj.not.mpr (Ne.symm he))]
    rfl
  · rw [Redis.Store.zscore_hset, Redis.Store.zscore_zadd, if_neg (fun hh => he hh.2.symm),
      Redis.Store.zscore_zrem, if_neg (fun hh => he hh.2.symm)]
  · rw [Redis.Store.hget_hset_self, hqueue]
    exact h.queueName (by rw [hb]; rfl)
  · rw [Redis.Store.hget_hset_self, hstatus]
    rfl
  · rw [Redis.Store.zscore_hset]
    exact h.member_moved hb t score q' s'

/-- `dequeue.lua` takes a queued job of the queue to the running ones. -/
lemma dequeueScript_represents (h : Represents cfg store board) {now : ℕ} {id : String}
    (hd : dequeueScript store (cfg.buildQueueKey q .queued) (cfg.buildQueueKey q .running)
      jobKeyPrefix now = (some id, store')) :
    board id = .inSet q .queued ∧
      Represents cfg store' (Function.update board id (.inSet q .running)) := by
  rw [dequeueScript] at hd
  split at hd
  next => cases hd
  next jobId hf =>
      cases hd
      have hb : board id = .inSet q .queued := h.member.mp (store.zscore_of_zfirst hf)
      exact ⟨hb, h.moveTo hb .running _ _ rfl rfl⟩

/-- An empty queue is left as it is. -/
lemma dequeueScript_none {queuedKey runningKey pre : String} {now : ℕ}
    (hd : dequeueScript store queuedKey runningKey pre now = (none, store')) : store' = store := by
  rw [dequeueScript] at hd
  split at hd <;> cases hd
  rfl

/-- `complete.lua` takes a running job of the queue to the completed ones, or does nothing. -/
lemma completeScript_represents (h : Represents cfg store board) {now : ℕ} {id result : String}
    {ok : Bool}
    (hc : completeScript store (cfg.buildQueueKey q .running) (cfg.buildQueueKey q .completed)
      jobKeyPrefix id now result = (ok, store')) :
    (ok = false ∧ store' = store) ∨
      (ok = true ∧ board id = .inSet q .running ∧
        Represents cfg store' (Function.update board id (.inSet q .completed))) := by
  rw [completeScript] at hc
  split at hc
  next =>
      cases hc
      exact Or.inl ⟨rfl, rfl⟩
  next score hz =>
      obtain ⟨rfl, rfl⟩ := Prod.mk.inj hc
      have hb : board id = .inSet q .running := h.member.mp (by rw [hz]; rfl)
      refine Or.inr ⟨rfl, hb, ?_⟩
      have hmoved := h.moveTo hb .completed now
        [("status", "completed"), ("completedAt", toString now), ("progress", "100")] rfl rfl
      by_cases hr : result = ""
      · rw [if_neg (fun hne => hne hr)]
        exact hmoved
      · -- the second command only sets the result
        rw [if_pos hr]
        exact hmoved.setFields (by simp) [("result", result)] rfl rfl

/-- The status that a failed job gets. -/
def FailOutcome.status : FailOutcome → JobStatus
  | .retry => .queued
  | .failed => .failed

/-- `fail.lua` takes a running job of the queue back to the queued ones or to the failed
ones, or does nothing. -/
lemma failScript_represents (h : Represents cfg store board) {now : ℕ} {id error : String}
    {outcome : Option FailOutcome}
    (hf : failScript store (cfg.buildQueueKey q .running) (cfg.buildQueueKey q .queued)
      (cfg.buildQueueKey q .failed) jobKeyPrefix id now error = (outcome, store')) :
    (outcome = none ∧ store' = store) ∨
      ∃ result, outcome = some result ∧ board id = .inSet q .running ∧
        Represents cfg store' (Function.update board id (.inSet q result.status)) := by
  rw [failScript] at hf
  split at hf
  next =>
      cases hf
      exact Or.inl ⟨rfl, rfl⟩
  next score hz =>
      have hb : board id = .inSet q .running := h.member.mp (by rw [hz]; rfl)
      dsimp only at hf
      split at hf <;> cases hf
      · exact Or.inr ⟨.retry, rfl, hb, h.moveTo hb .queued _ _ rfl rfl⟩
      · exact Or.inr ⟨.failed, rfl, hb, h.moveTo hb .failed _ _ rfl rfl⟩

end Scripts

/-! ### The pipelines -/

lemma find?_status_jobToHash (job : QueueJob V) :
    ((jobToHash json job).reverse.find? (·.1 = "status")).map Prod.snd =
      some (statusText job.status) := rfl

lemma find?_queueName_jobToHash (job : QueueJob V) :
    ((jobToHash json job).reverse.find? (·.1 = "queueName")).map Prod.snd =
      some job.queueName := rfl

/-- Storing a whole job and putting it into the sets in some way. -/
lemma Represents.moveJob (h : Represents cfg store board) (json : Json V) (job : QueueJob V)
    {id : String} {slot : Slot} (hslot : slot.record = some (job.queueName, job.status))
    (hhash : ∀ id', store'.hgetall (buildJobKey id') =
      (store.hset (buildJobKey id) (jobToHash json job)).hgetall (buildJobKey id'))
    (hzset : ∀ id', id' ≠ id → ∀ key, store'.zscore key id' = store.zscore key id')
    (hmember : ∀ q' s', (store'.zscore (cfg.buildQueueKey q' s') id).isSome = true ↔
      slot = .inSet q' s') :
    Represents cfg store' (Function.update board id slot) := by
  refine h.move id (fun id' he => ?_) hzset hslot ?_ ?_ hmember
  · rw [hhash, Redis.Store.hgetall_hset, if_neg (buildJobKey_inj.not.mpr (Ne.symm he))]
  · rw [Redis.Store.hget, hhash, ← Redis.Store.hget, Redis.Store.hget_hset_self,
      find?_queueName_jobToHash]
    rfl
  · rw [Redis.Store.hget, hhash, ← Redis.Store.hget, Redis.Store.hget_hset_self,
      find?_status_jobToHash]
    rfl

/-- A new job goes to the set of its status. -/
lemma enqueuePipeline_represents (json : Json V) (h : Represents cfg store board) {job : QueueJob V}
    (hb : board job.id = .absent) :
    Represents cfg (enqueuePipeline cfg json store job.queueName job)
      (Function.update board job.id (.inSet job.queueName job.status)) := by
  refine h.moveJob json job rfl (fun _ => rfl) (fun id' he key => ?_) fun q' s' => ?_
  · rw [enqueuePipeline, Redis.Store.zscore_zadd, if_neg (fun hh => he hh.2.symm)]
    rfl
  · simp only [enqueuePipeline, Redis.Store.zscore_zadd, cfg.buildQueueKey_inj]
    by_cases hs : job.queueName = q' ∧ job.status = s'
    · obtain ⟨rfl, rfl⟩ := hs
      simp
    · rw [if_neg (fun hh => hs hh.1), Redis.Store.zscore_hset, h.member, hb]
      simpa using hs

/-- Where an update puts a job: a retry is taken out of its queue, a job that is moved goes
to the set of its new status, and any other job stays. -/
def updatedSlot (updates : JobPatch V) (currentJob : QueueJob V) (slot : Slot) : Slot :=
  if moves updates currentJob then
    if isRetry updates currentJob then
      .waiting currentJob.queueName
    else
      .inSet currentJob.queueName (updates.status.getD currentJob.status)
  else
    slot

/-- **An update that finds its job where it had read it** moves it to the place that it asks
for. -/
lemma updatePipeline_represents (json : Json V) (h : Represents cfg store board) {id : String}
    {updates : JobPatch V} {currentJob : QueueJob V}
    (hread : (board id).record = some (currentJob.queueName, currentJob.status))
    (hqueue : updates.queueName.getD currentJob.queueName = currentJob.queueName) :
    Represents cfg (updatePipeline cfg json store id updates currentJob)
      (Function.update board id (updatedSlot updates currentJob (board id))) := by
  have hname : (updates.apply currentJob).queueName = currentJob.queueName := hqueue
  have hstatus : (updates.apply currentJob).status = updates.status.getD currentJob.status := rfl
  -- once it is taken out of the set it stood in, the job is in no set
  have hout : ∀ q' s',
      ((store.hset (buildJobKey id) (jobToHash json (updates.apply currentJob))).zrem
      (cfg.buildQueueKey currentJob.queueName currentJob.status) id).zscore
        (cfg.buildQueueKey q' s') id = none := by
    intro q' s'
    simp only [Redis.Store.zscore_zrem, cfg.buildQueueKey_inj, Redis.Store.zscore_hset]
    by_cases hs : currentJob.queueName = q' ∧ currentJob.status = s'
    · rw [if_pos ⟨hs, trivial⟩]
    · rw [if_neg (fun hh => hs hh.1), ← Option.not_isSome_iff_eq_none, h.member]
      intro hb
      rw [hb] at hread
      cases hread
      exact hs ⟨rfl, rfl⟩
  rw [updatePipeline, updatedSlot]
  dsimp only
  split
  next hmoves =>
      split
      next hretry =>
          have hqueued : updates.status = some .queued := by
            simp only [isRetry, Bool.and_eq_true, decide_eq_true_eq] at hretry
            exact hretry.1.2
          refine h.moveJob json (updates.apply currentJob) ?_ (fun _ => rfl)
            (fun id' he key => ?_) fun q' s' => ?_
          · rw [hname, hstatus, hqueued]
            rfl
          · rw [Redis.Store.zscore_zrem, if_neg (fun hh => he hh.2.symm)]
            rfl
          · rw [hout]
            simp
      next =>
          refine h.moveJob json (updates.apply currentJob) ?_ (fun _ => rfl)
            (fun id' he key => ?_) fun q' s' => ?_
          · rw [hname, hstatus]
            rfl
          · rw [Redis.Store.zscore_zadd, if_neg (fun hh => he hh.2.symm), Redis.Store.zscore_zrem,
              if_neg (fun hh => he hh.2.symm)]
            rfl
          · rw [Redis.Store.zscore_zadd, hout]
            simp only [cfg.buildQueueKey_inj]
            by_cases hs : currentJob.queueName = q' ∧ updates.status.getD currentJob.status = s'
            · obtain ⟨rfl, rfl⟩ := hs
              simp
            · rw [if_neg (fun hh => hs hh.1)]
              simpa using hs
  next hmoves =>
      refine h.moveJob json (updates.apply currentJob) ?_ (fun _ => rfl)
        (fun _ _ _ => rfl) fun q' s' => h.member
      -- the status is not changed either
      rw [hname, hstatus, hread]
      simp only [moves, Bool.or_eq_true, decide_eq_true_eq, not_or, not_not] at hmoves
      rw [hmoves.1]

/-! ### Steps -/

/-- The last event of a job; histories have the latest event first. -/
def lastEvent (trace : List Event) (id : String) : Option Event := trace.find? (·.jobId = id)

lemma lastEvent_cons_self (event : Event) (trace : List Event) :
    lastEvent (event :: trace) event.jobId = some event :=
  List.find?_cons_of_pos (decide_eq_true rfl)

lemma lastEvent_cons_of_ne {event : Event} {id : String} (h : event.jobId ≠ id)
    (trace : List Event) :
    lastEvent (event :: trace) id = lastEvent trace id :=
  List.find?_cons_of_neg (by simpa using h)

/-- What an event does to the board. -/
inductive BoardStep (board : Board) : Event → Board → Prop
  | enqueued {id : String} (q : String) (hb : board id = .absent) :
      BoardStep board (.enqueued id) (Function.update board id (.inSet q .queued))
  | dequeued {id q : String} (hb : board id = .inSet q .queued) :
      BoardStep board (.dequeued id) (Function.update board id (.inSet q .running))
  | completed {id q : String} (hb : board id = .inSet q .running) :
      BoardStep board (.completed id) (Function.update board id (.inSet q .completed))
  | failed {id q : String} (outcome : FailOutcome) (hb : board id = .inSet q .running) :
      BoardStep board (.failed id outcome) (Function.update board id (.inSet q outcome.status))
  | moved {id q : String} {s : JobStatus} (s' : JobStatus) (hb : (board id).record = some (q, s)) :
      BoardStep board (.moved id false) (Function.update board id (.inSet q s'))
  | delayed {id q : String} {s : JobStatus} (hb : (board id).record = some (q, s)) :
      BoardStep board (.moved id true) (Function.update board id (.waiting q))

/-- A job keeps its queue. -/
lemma BoardStep.queue_eq {board board' : Board} {event : Event} (h : BoardStep board event board')
    {id q : String} (hq : (board id).record.map Prod.fst = some q) :
    (board' id).record.map Prod.fst = some q := by
  have key : ∀ {id' q' : String} {slot : Slot}, (board id').record.map Prod.fst = some q' →
      slot.record.map Prod.fst = some q' →
      (Function.update board id' slot id).record.map Prod.fst = some q := by
    intro id' q' slot hb hslot
    by_cases he : id = id'
    · subst he
      rw [Function.update_self, hslot, ← hb, hq]
    · rw [Function.update_of_ne he, hq]
  cases h with
  | @enqueued id' q' hb =>
      have hne : id ≠ id' := by
        rintro rfl
        rw [hb] at hq
        cases hq
      rw [Function.update_of_ne hne, hq]
  | dequeued hb => exact key (by rw [hb]; rfl) rfl
  | completed hb => exact key (by rw [hb]; rfl) rfl
  | failed outcome hb => exact key (by rw [hb]; rfl) rfl
  | moved s' hb => exact key (by rw [hb]; rfl) rfl
  | delayed hb => exact key (by rw [hb]; rfl) rfl

/-- Whether an event is a move. -/
def Event.isMove : Event → Bool
  | .moved _ _ => true
  | _ => false

/-- Whether a call is an update. -/
def Call.isUpdate : Call V → Bool
  | .updating _ _ _ => true
  | _ => false

/-- Whether an action begins an update. -/
def Action.isUpdate : Action V → Bool
  | .updateJob _ _ => true
  | _ => false

/-- An update in progress knows the queue of its job. -/
def Call.Knows (board : Board) : Call V → Prop
  | .updating jobId _ job => (board jobId).record.map Prod.fst = some job.queueName
  | _ => True

lemma Call.Knows.step {board board' : Board} {event : Event} {call : Call V}
    (h : call.Knows board) (hb : BoardStep board event board') : call.Knows board' := by
  cases call with
  | updating jobId updates job => exact hb.queue_eq h
  | _ => trivial

namespace Cluster

/-- The server represents the board, and the updates know the queues of their jobs. -/
structure OnBoard (cfg : RedisQueueAdapter) (c : Cluster V) (board : Board) : Prop where
  store : Represents cfg c.store board
  knows : ∀ call ∈ c.calls, call.Knows board

/-- **The condition on updates**: when the pipeline of an update runs, the hash of its job
still has the status that was read, and the update does not change the queue of the job. -/
def FindsItsJob (c : Cluster V) : Action V → Prop
  | .resume i _ =>
      match c.calls[i]? with
      | some (.updating jobId updates currentJob) =>
          c.store.hget (buildJobKey jobId) "status" = some (statusText currentJob.status) ∧
            updates.queueName.getD currentJob.queueName = currentJob.queueName
      | _ => True
  | _ => True

instance (c : Cluster V) : (a : Action V) → Decidable (c.FindsItsJob a)
  | .resume i _ =>
      match h : c.calls[i]? with
      | some (.updating jobId updates currentJob) =>
          decidable_of_iff
            (c.store.hget (buildJobKey jobId) "status" = some (statusText currentJob.status) ∧
              updates.queueName.getD currentJob.queueName = currentJob.queueName)
            (by rw [FindsItsJob, h])
      | some (.dequeued _ _) | some (.completing _ _ _) | some (.failing _ _ _)
      | some (.returned _) | none => .isTrue (by rw [FindsItsJob, h]; trivial)
  | .enqueue _ _ | .dequeue _ _ | .completeJob _ _ | .failJob _ _ | .updateJob _ _ =>
      .isTrue trivial

variable {c c' : Cluster V} {board : Board}

lemma OnBoard.init : OnBoard cfg ({} : Cluster V) fun _ => .absent where
  store := Represents.init
  knows call hc := by cases hc

lemma OnBoard.spawn (h : OnBoard cfg c board) {call : Call V} (hc : call.Knows board) :
    OnBoard cfg (c.spawn call) board where
  store := h.store
  knows call' hm := by
    rcases List.mem_append.mp hm with hm | hm
    · exact h.knows call' hm
    · rw [List.mem_singleton.mp hm]
      exact hc

lemma OnBoard.setCall (h : OnBoard cfg c board) (i : ℕ) {call : Call V} (hc : call.Knows board) :
    OnBoard cfg (c.setCall i call) board where
  store := h.store
  knows call' hm := by
    rcases List.mem_or_eq_of_mem_set hm with hm | rfl
    · exact h.knows call' hm
    · exact hc

/-- The store moves along a board step, and the event is noted. -/
lemma OnBoard.move (h : OnBoard cfg c board) {board' : Board} {event : Event}
    {store : Redis.Store} (hb : BoardStep board event board') (hs : Represents cfg store board') :
    OnBoard cfg { c with store := store, trace := event :: c.trace } board' where
  store := hs
  knows call hm := (h.knows call hm).step hb

lemma OnBoard.beginWith (h : OnBoard cfg c board) {jobId : String} {missing : Outcome V}
    {found : QueueJob V → Call V}
    (hfound : ∀ job, (board jobId).record.map Prod.fst = some job.queueName →
      (found job).Knows board) :
    OnBoard cfg (c.beginWith json jobId missing found) board := by
  rw [Cluster.beginWith]
  split
  next => exact h.spawn trivial
  next => exact h.spawn trivial
  next job hg => exact h.spawn (hfound job (by rw [h.store.getJob hg]; rfl))

/-- What a step does to the board and to the trace; only an update can move a job. -/
def Advances (c c' : Cluster V) (board board' : Board) : Prop :=
  (board' = board ∧ c'.trace = c.trace) ∨
    ∃ event, BoardStep board event board' ∧ c'.trace = event :: c.trace ∧
      (event.isMove = true → ∃ call ∈ c.calls, call.isUpdate = true)

lemma step_dequeue (h : OnBoard cfg c board) (queueName : String) (now : ℕ) :
    ∃ board', OnBoard cfg (c.dequeue cfg queueName now) board' ∧
      Advances c (c.dequeue cfg queueName now) board board' := by
  rw [dequeue]
  split
  next store hd =>
      rw [dequeueScript_none hd]
      exact ⟨board, OnBoard.spawn (c := c) h trivial, Or.inl ⟨rfl, rfl⟩⟩
  next jobId store hd =>
      obtain ⟨hb, hs⟩ := dequeueScript_represents h.store hd
      exact ⟨_, (h.move (.dequeued hb) hs).spawn trivial, Or.inr ⟨_, .dequeued hb, rfl, nofun⟩⟩

lemma step_finishComplete (h : OnBoard cfg c board) (i : ℕ) {jobId : String} (result : Option V)
    {job : QueueJob V} (now : ℕ) :
    ∃ board', OnBoard cfg (c.finishComplete cfg json i jobId result job now) board' ∧
      Advances c (c.finishComplete cfg json i jobId result job now) board board' := by
  rw [finishComplete]
  split
  next store hc =>
      rcases completeScript_represents h.store hc with ⟨hf, -⟩ | ⟨-, hb, hs⟩
      · cases hf
      · exact ⟨_, (h.move (.completed hb) hs).setCall i trivial,
          Or.inr ⟨_, .completed hb, rfl, nofun⟩⟩
  next store hc =>
      rcases completeScript_represents h.store hc with ⟨-, rfl⟩ | ⟨hf, -⟩
      · exact ⟨board, OnBoard.setCall (c := c) h i trivial, Or.inl ⟨rfl, rfl⟩⟩
      · cases hf

lemma step_finishFail (h : OnBoard cfg c board) (i : ℕ) {jobId errorMessage : String}
    {job : QueueJob V} (now : ℕ) :
    ∃ board', OnBoard cfg (c.finishFail cfg json i jobId errorMessage job now) board' ∧
      Advances c (c.finishFail cfg json i jobId errorMessage job now) board board' := by
  rw [finishFail]
  split
  next outcome store hf =>
      rcases failScript_represents h.store hf with ⟨hn, -⟩ | ⟨result, hr, hb, hs⟩
      · cases hn
      · cases hr
        exact ⟨_, (h.move (.failed outcome hb) hs).setCall i trivial,
          Or.inr ⟨_, .failed outcome hb, rfl, nofun⟩⟩
  next store hf =>
      rcases failScript_represents h.store hf with ⟨-, rfl⟩ | ⟨result, hr, -⟩
      · exact ⟨board, OnBoard.setCall (c := c) h i trivial, Or.inl ⟨rfl, rfl⟩⟩
      · cases hr

lemma step_finishUpdate (h : OnBoard cfg c board) (i : ℕ) {jobId : String} {updates : JobPatch V}
    {currentJob : QueueJob V} (hi : Call.updating jobId updates currentJob ∈ c.calls)
    (hread : (board jobId).record = some (currentJob.queueName, currentJob.status))
    (hqueue : updates.queueName.getD currentJob.queueName = currentJob.queueName) :
    ∃ board', OnBoard cfg (c.finishUpdate cfg json i jobId updates currentJob) board' ∧
      Advances c (c.finishUpdate cfg json i jobId updates currentJob) board board' := by
  have hs := updatePipeline_represents json h.store hread hqueue
  rw [updatedSlot] at hs
  rw [finishUpdate]
  split at hs
  next hmoves =>
      rw [if_pos hmoves]
      split at hs
      next hretry =>
          rw [hretry]
          exact ⟨_, (h.move (.delayed hread) hs).setCall i trivial,
            Or.inr ⟨_, .delayed hread, rfl, fun _ => ⟨_, hi, rfl⟩⟩⟩
      next hretry =>
          rw [eq_false_of_ne_true hretry]
          exact ⟨_, (h.move (.moved _ hread) hs).setCall i trivial,
            Or.inr ⟨_, .moved _ hread, rfl, fun _ => ⟨_, hi, rfl⟩⟩⟩
  next hmoves =>
      rw [if_neg hmoves]
      rw [Function.update_eq_self] at hs
      exact ⟨board, OnBoard.setCall (c := { c with store := _ }) ⟨hs, h.knows⟩ i trivial,
        Or.inl ⟨rfl, rfl⟩⟩

/-- **A step leaves the board alone or makes one board step.** -/
theorem step_board (h : OnBoard cfg c board) {a : Action V} (hG : c.FindsItsJob a)
    (hstep : c.step cfg json a = some c') :
    ∃ board', OnBoard cfg c' board' ∧ Advances c c' board board' := by
  have hsame : ∀ {jobId : String} {missing : Outcome V} {found : QueueJob V → Call V},
      (c.beginWith json jobId missing found).trace = c.trace := by
    intro jobId missing found
    rw [Cluster.beginWith]
    split <;> rfl
  cases a with
  | enqueue queueName job =>
      simp only [step] at hstep
      split at hstep
      next hnew =>
          obtain ⟨hfresh, rfl, hst⟩ := hnew
          obtain rfl := Option.some.inj hstep
          have hb : board job.id = .absent := h.store.missing.mpr hfresh
          have hs := enqueuePipeline_represents json h.store hb
          rw [hst] at hs
          exact ⟨_, (h.move (.enqueued _ hb) hs).spawn trivial,
            Or.inr ⟨_, .enqueued _ hb, rfl, nofun⟩⟩
      next => cases hstep
  | dequeue queueName now =>
      obtain rfl := Option.some.inj hstep
      exact step_dequeue h queueName now
  | completeJob jobId result =>
      obtain rfl := Option.some.inj hstep
      exact ⟨board, h.beginWith fun _ _ => trivial, Or.inl ⟨rfl, hsame⟩⟩
  | failJob jobId errorMessage =>
      obtain rfl := Option.some.inj hstep
      exact ⟨board, h.beginWith fun _ _ => trivial, Or.inl ⟨rfl, hsame⟩⟩
  | updateJob jobId updates =>
      obtain rfl := Option.some.inj hstep
      exact ⟨board, h.beginWith fun job hj => hj, Or.inl ⟨rfl, hsame⟩⟩
  | resume i now =>
      simp only [step, resume] at hstep
      rw [FindsItsJob] at hG
      split at hstep
      next queueName jobId hi =>
          obtain rfl := Option.some.inj hstep
          rw [finishDequeue]
          split <;> exact ⟨board, h.setCall i trivial, Or.inl ⟨rfl, rfl⟩⟩
      next jobId result job hi =>
          obtain rfl := Option.some.inj hstep
          exact step_finishComplete h i result now
      next jobId errorMessage job hi =>
          obtain rfl := Option.some.inj hstep
          exact step_finishFail h i now
      next jobId updates currentJob hi =>
          obtain rfl := Option.some.inj hstep
          rw [hi] at hG
          refine step_finishUpdate h i (List.mem_of_getElem? hi) ?_ hG.2
          -- the call knows the queue, and the hash says that the status is the one read
          have hk : (board jobId).record.map Prod.fst = some currentJob.queueName :=
            h.knows _ (List.mem_of_getElem? hi)
          obtain ⟨⟨q, s⟩, hr, rfl⟩ := Option.map_eq_some_iff.mp hk
          have hs := congrArg statusOfText (Option.some.inj ((h.store.status hr).symm.trans hG.1))
          rw [statusOfText_statusText, statusOfText_statusText] at hs
          rw [hr, Option.some.inj hs]
      next => cases hstep
      next => cases hstep

/-- Only `updateJob` begins an update. -/
lemma step_calls {a : Action V} (hstep : c.step cfg json a = some c') (ha : a.isUpdate = false)
    {call : Call V} (hm : call ∈ c'.calls) (hu : call.isUpdate = true) : call ∈ c.calls := by
  have hspawn : ∀ {c : Cluster V} {call' : Call V}, call'.isUpdate = false →
      call ∈ (c.spawn call').calls → call ∈ c.calls := by
    intro c call' hn hm
    rcases List.mem_append.mp hm with hm | hm
    · exact hm
    · rw [List.mem_singleton.mp hm, hn] at hu
      cases hu
  have hset : ∀ {c : Cluster V} {i : ℕ} {call' : Call V}, call'.isUpdate = false →
      call ∈ (c.setCall i call').calls → call ∈ c.calls := by
    intro c i call' hn hm
    rcases List.mem_or_eq_of_mem_set hm with hm | rfl
    · exact hm
    · rw [hn] at hu
      cases hu
  cases a with
  | enqueue queueName job =>
      simp only [step] at hstep
      split at hstep <;> cases hstep
      exact hspawn rfl hm
  | dequeue queueName now =>
      obtain rfl := Option.some.inj hstep
      rw [dequeue] at hm
      split at hm <;> exact hspawn rfl hm
  | completeJob jobId result =>
      obtain rfl := Option.some.inj hstep
      rw [Cluster.beginWith] at hm
      split at hm <;> exact hspawn rfl hm
  | failJob jobId errorMessage =>
      obtain rfl := Option.some.inj hstep
      rw [Cluster.beginWith] at hm
      split at hm <;> exact hspawn rfl hm
  | updateJob jobId updates => cases ha
  | resume i now =>
      simp only [step, resume] at hstep
      split at hstep <;> cases hstep
      · rw [finishDequeue] at hm
        split at hm <;> exact hset rfl hm
      · rw [finishComplete] at hm
        split at hm <;> exact hset rfl hm
      · rw [finishFail] at hm
        split at hm <;> exact hset rfl hm
      · exact hset rfl hm

end Cluster

end Blaize.RedisQueue
