import Blaize.Lib.Machine
import Blaize.Queue.Storage

/-!
The incremental statistics of the in-memory storage.

A storage is `Exact` when its counters are what a recount of the stored jobs gives.  The
counters drift in two ways: `enqueue` counts a job that is stored already once more, and
`updateJob` and `removeJob` look the counters up with `queueName ? … : undefined`, which
turns the empty queue name away.

* `tally`: a recount of the stored jobs of a queue;
* `enqueue_exact_iff`, `updateJob_exact_iff`, `removeJob_exact_iff`: **when each method
  keeps the counters exact**;
* `stats_exact_iff`: **a run has exact counters throughout exactly if each of its calls
  keeps them exact**.
-/

namespace Blaize.Queue

open Machine

variable {V : Type}

namespace QueueStats

/-- The counter of a status. -/
def count (stats : QueueStats) : JobStatus → ℕ
  | .queued => stats.queued
  | .running => stats.running
  | .completed => stats.completed
  | .failed => stats.failed
  | .cancelled => stats.cancelled

/-- The counter of a status, or the total. -/
def reading (stats : QueueStats) : Option JobStatus → ℕ
  | none => stats.total
  | some status => stats.count status

lemma reading_modifyStatus (stats : QueueStats) (f : ℕ → ℕ) (status : JobStatus)
    (c : Option JobStatus) :
    (stats.modifyStatus f status).reading c =
      if c = some status then f (stats.reading c) else stats.reading c := by
  cases c with
  | none => cases status <;> rfl
  | some c => cases status <;> cases c <;> rfl

lemma reading_total (stats : QueueStats) (n : ℕ) (c : Option JobStatus) :
    { stats with total := n }.reading c = if c = none then n else stats.reading c := by
  cases c with
  | none => rfl
  | some status => cases status <;> rfl

end QueueStats

/-- The jobs that a counter counts. -/
def JobStatus.counts (c : Option JobStatus) (job : Job V) : Bool :=
  c.all fun status => job.status = status

namespace InMemoryStorage

variable (st : InMemoryStorage V)

/-- How many of the stored jobs of a queue have a property. -/
def tally (queueName : String) (p : Job V → Bool) : ℕ :=
  st.jobs.count fun id job => st.jobToQueue.get id = some queueName && p job

/-- A job is stored in a queue and has a property. -/
def holds (id queueName : String) (p : Job V → Bool) : Bool :=
  (st.jobs.get id).any fun job => st.jobToQueue.get id = some queueName && p job

/-- **The counters are what a recount gives**: for each queue, the number of its stored jobs
with each status, and of all of them. -/
def Exact : Prop :=
  ∀ q, (st.getQueueStats q).total = st.tally q (fun _ => true) ∧
    ∀ status, (st.getQueueStats q).count status = st.tally q (·.status = status)

/-- Every stored job has a queue, and every queue with jobs has counters. -/
structure Keyed : Prop where
  owned : ∀ {id}, st.jobs.get id = none ↔ st.jobToQueue.get id = none
  counted : ∀ {id q}, st.jobToQueue.get id = some q → ∃ stats, st.stats.get q = some stats

variable {st}

lemma exact_iff :
    st.Exact ↔ ∀ q c, (st.getQueueStats q).reading c = st.tally q (JobStatus.counts c) := by
  refine forall_congr' fun q => ⟨fun h c => ?_, fun h => ⟨h none, fun status => h (some status)⟩⟩
  cases c with
  | none => exact h.1
  | some status => exact h.2 status

/-! ### Recounts -/

/-- Where a method changes one key only, a recount of the other keys gives the same. -/
lemma count_delete_congr {jobs : OrdMap String (Job V)} {owner owner' : OrdMap String String}
    {id : String} (howner : ∀ id', id ≠ id' → owner'.get id' = owner.get id') (q : String)
    (p : Job V → Bool) :
    ((jobs.delete id).count fun id' job => owner'.get id' = some q && p job) =
      (jobs.delete id).count fun id' job => owner.get id' = some q && p job := by
  refine OrdMap.count_congr _ fun id' job hget => ?_
  have hne : id ≠ id' := by
    rintro rfl
    simp [OrdMap.get_delete] at hget
  rw [howner id' hne]

lemma tally_eq (st : InMemoryStorage V) (id q : String) (p : Job V → Bool) :
    ((st.jobs.delete id).count fun id' job => st.jobToQueue.get id' = some q && p job) +
      (st.holds id q p).toNat = st.tally q p :=
  st.jobs.count_delete _ id

lemma tally_enqueue (st : InMemoryStorage V) (queueName q : String) (job : Job V) (now : ℕ)
    (p : Job V → Bool) :
    (st.enqueue queueName job now).tally q p + (st.holds job.id q p).toNat =
      st.tally q p + (decide (queueName = q) && p job).toNat := by
  have hold := tally_eq st job.id q p
  rw [tally, enqueue_jobs, enqueue_jobToQueue, OrdMap.count_set, OrdMap.get_set_self,
    count_delete_congr fun id' hne => OrdMap.get_set_ne _ _ hne]
  simp only [Option.some.injEq]
  omega

lemma tally_updateJob (st : InMemoryStorage V) (id q : String) (updates : JobPatch V)
    (p : Job V → Bool) :
    (st.updateJob id updates).tally q p + (st.holds id q p).toNat =
      st.tally q p + (st.holds id q fun job => p (updates.apply job)).toNat := by
  cases hj : st.jobs.get id with
  | none => simp [tally, updateJob_jobs, hj, holds]
  | some job =>
      have hold := tally_eq st id q p
      rw [tally, updateJob_jobs, updateJob_jobToQueue, hj, OrdMap.count_set]
      simp only [holds, hj, Option.any_some] at hold ⊢
      omega

lemma tally_removeJob {id : String} {job : Job V} (hj : st.jobs.get id = some job) (q : String)
    (p : Job V → Bool) :
    (st.removeJob id).2.tally q p + (st.holds id q p).toNat = st.tally q p := by
  have hold := tally_eq st id q p
  have howner : ∀ id', id ≠ id' → (st.jobToQueue.delete id).get id' = st.jobToQueue.get id' :=
    fun id' hne => OrdMap.get_delete_ne _ hne
  have hrest : (st.removeJob id).2.tally q p =
      (st.jobs.delete id).count fun id' job => st.jobToQueue.get id' = some q && p job := by
    rw [← count_delete_congr howner, tally, removeJob, hj]
    dsimp only
    split <;> rfl
  omega

/-! ### Counters -/

lemma statsOf_eq (hk : st.Keyed) {id q : String} (ho : st.jobToQueue.get id = some q)
    (hq : q ≠ "") : st.statsOf id = some (q, st.getQueueStats q) := by
  obtain ⟨stats, hs⟩ := hk.counted ho
  simp [statsOf, ho, hq, getQueueStats, hs]

lemma statsOf_eq_none {id : String} (ho : st.jobToQueue.get id = some "") :
    st.statsOf id = none := by
  simp [statsOf, ho]

lemma holds_eq {id q : String} {job : Job V} (hj : st.jobs.get id = some job) {q' : String}
    (ho : st.jobToQueue.get id = some q) (p : Job V → Bool) :
    st.holds id q' p = (decide (q = q') && p job) := by
  simp [holds, hj, ho]

lemma reading_enqueue (st : InMemoryStorage V) (queueName q : String) (job : Job V) (now : ℕ)
    (c : Option JobStatus) :
    ((st.enqueue queueName job now).getQueueStats q).reading c =
      (st.getQueueStats q).reading c +
        (decide (queueName = q) && JobStatus.counts c job).toNat := by
  by_cases he : queueName = q
  · subst he
    simp only [getQueueStats, enqueue, OrdMap.get_set_self, Option.getD_some,
      QueueStats.incrementStatusCount, QueueStats.reading_modifyStatus, QueueStats.reading_total]
    cases c with
    | none => rfl
    | some status =>
        by_cases hs : job.status = status
        · simp [hs, JobStatus.counts]
        · simp [hs, Ne.symm hs, JobStatus.counts]
  · simp [getQueueStats, enqueue, OrdMap.get_set_ne _ _ he, he]

/-- A counter that is exact is not at `0` while it counts a job. -/
lemma one_le_reading (h : st.Exact) (id q : String) (c : Option JobStatus)
    (hc : st.holds id q (JobStatus.counts c) = true) : 1 ≤ (st.getQueueStats q).reading c := by
  rw [exact_iff.mp h, ← tally_eq st id q, hc, Bool.toNat_true]
  exact Nat.le_add_left 1 _

/-- An update moves its job from one counter to another. -/
lemma reading_updateJob (hk : st.Keyed) (h : st.Exact) {id : String} {job : Job V}
    (hj : st.jobs.get id = some job) {q₀ : String} (ho : st.jobToQueue.get id = some q₀)
    (hq : q₀ ≠ "") (updates : JobPatch V) (q : String) (c : Option JobStatus) :
    ((st.updateJob id updates).getQueueStats q).reading c +
        (st.holds id q (JobStatus.counts c)).toNat =
      (st.getQueueStats q).reading c +
        (st.holds id q fun job => JobStatus.counts c (updates.apply job)).toNat := by
  have hone := one_le_reading h id q c
  simp only [holds_eq hj ho] at hone ⊢
  have happly : (updates.apply job).status = updates.status.getD job.status := rfl
  rw [updateJob, hj, statsOf_eq hk ho hq]
  dsimp only
  split
  next hs =>
      have hsame : JobStatus.counts c (updates.apply job) = JobStatus.counts c job := by
        rw [JobStatus.counts, happly, hs, Option.getD_none, JobStatus.counts]
      rw [hsame]
      rfl
  next newStatus hs =>
      rw [hs, Option.getD_some] at happly
      split
      next he =>
          have hsame : JobStatus.counts c (updates.apply job) = JobStatus.counts c job := by
            rw [JobStatus.counts, happly, he, JobStatus.counts]
          rw [hsame]
          rfl
      next hne =>
          by_cases he : q₀ = q
          · subst he
            simp only [getQueueStats, OrdMap.get_set_self, Option.getD_some,
              QueueStats.incrementStatusCount, QueueStats.decrementStatusCount,
              QueueStats.reading_modifyStatus] at hone ⊢
            cases c with
            | none => simp [JobStatus.counts]
            | some status =>
                simp only [JobStatus.counts, happly, Option.all_some, decide_true, Bool.true_and,
                  Option.some.injEq, decide_eq_true_eq] at hone ⊢
                by_cases h₁ : job.status = status
                · have h₂ : newStatus ≠ status := fun h₂ => hne (h₂.trans h₁.symm)
                  simp only [h₁, h₂, Ne.symm h₂, if_true, if_false, decide_true, decide_false,
                    Bool.toNat_true, Bool.toNat_false, true_implies] at hone ⊢
                  omega
                · by_cases h₂ : newStatus = status
                  · simp [h₁, h₂, Ne.symm h₁]
                  · simp [h₁, h₂, Ne.symm h₁, Ne.symm h₂]
          · simp [getQueueStats, OrdMap.get_set_ne _ _ he, he]

/-- A removal takes its job out of its counters. -/
lemma reading_removeJob (hk : st.Keyed) (h : st.Exact) {id : String} {job : Job V}
    (hj : st.jobs.get id = some job) {q₀ : String} (ho : st.jobToQueue.get id = some q₀)
    (hq : q₀ ≠ "") (q : String) (c : Option JobStatus) :
    ((st.removeJob id).2.getQueueStats q).reading c +
      (st.holds id q (JobStatus.counts c)).toNat = (st.getQueueStats q).reading c := by
  have hone := one_le_reading h id q c
  simp only [holds_eq hj ho] at hone ⊢
  rw [removeJob, hj, statsOf_eq hk ho hq]
  dsimp only
  by_cases he : q₀ = q
  · subst he
    simp only [getQueueStats, OrdMap.get_set_self, Option.getD_some,
      QueueStats.decrementStatusCount, QueueStats.reading_modifyStatus,
      QueueStats.reading_total] at hone ⊢
    cases c with
    | none =>
        have hpos : 1 ≤ ((st.stats.get q₀).getD {}).total := hone (by simp [JobStatus.counts])
        simp only [JobStatus.counts, QueueStats.reading, reduceCtorEq, if_true, if_false,
          Option.all_none, decide_true, Bool.and_true, Bool.toNat_true]
        omega
    | some status =>
        by_cases hs : job.status = status
        · have hpos := hone (by simp [JobStatus.counts, hs])
          simp only [JobStatus.counts, hs, reduceCtorEq, if_true, if_false, Option.all_some,
            decide_true, Bool.and_true, Bool.toNat_true]
          omega
        · simp [hs, Ne.symm hs, JobStatus.counts]
  · simp [getQueueStats, OrdMap.get_set_ne _ _ he, he]

/-! ### When the methods keep the counters exact -/

lemma counts_status_inj {job job' : Job V}
    (h : ∀ c, JobStatus.counts c job = JobStatus.counts c job') : job'.status = job.status := by
  have hself := h (some job.status)
  simpa [JobStatus.counts, eq_comm] using hself

lemma holds_of_get_eq_none {id : String} (hj : st.jobs.get id = none) (q : String)
    (p : Job V → Bool) : st.holds id q p = false := by
  simp [holds, hj]

/-- **`enqueue` keeps the counters exact only for a job that is not stored yet**: it counts
a stored one again and does not take the old record out. -/
theorem enqueue_exact_iff (hk : st.Keyed) (h : st.Exact) (queueName : String) (job : Job V)
    (now : ℕ) :
    (st.enqueue queueName job now).Exact ↔ st.jobs.get job.id = none := by
  have htally := fun q c => tally_enqueue st queueName q job now (JobStatus.counts c)
  have hread := fun q c => reading_enqueue st queueName q job now c
  rw [exact_iff] at h ⊢
  constructor
  · intro h'
    by_contra hj
    obtain ⟨old, hj⟩ := Option.ne_none_iff_exists'.mp hj
    cases ho : st.jobToQueue.get job.id with
    | none => rw [hk.owned.mpr ho] at hj; cases hj
    | some q =>
        have hh : st.holds job.id q (JobStatus.counts none) = true := by
          simp [holds_eq hj ho, JobStatus.counts]
        have h₁ := htally q none
        have h₂ := hread q none
        rw [hh, Bool.toNat_true] at h₁
        have h₃ := h q none
        have h₄ := h' q none
        omega
  · intro hj q c
    have h₁ := htally q c
    have h₂ := hread q c
    rw [holds_of_get_eq_none hj, Bool.toNat_false] at h₁
    have h₃ := h q c
    omega

/-- **`updateJob` keeps the counters exact** unless it changes the status of a job in the
queue with the empty name. -/
theorem updateJob_exact_iff (hk : st.Keyed) (h : st.Exact) (id : String) (updates : JobPatch V) :
    (st.updateJob id updates).Exact ↔
      ∀ job, st.jobs.get id = some job → st.jobToQueue.get id = some "" →
        (updates.apply job).status = job.status := by
  cases hj : st.jobs.get id with
  | none => simpa [updateJob, hj] using h
  | some job =>
      have htally := fun q c => tally_updateJob st id q updates (JobStatus.counts c)
      cases ho : st.jobToQueue.get id with
      | none => rw [hk.owned.mpr ho] at hj; cases hj
      | some q₀ =>
          by_cases hq : q₀ = ""
          · subst hq
            have hread : ∀ q, (st.updateJob id updates).getQueueStats q = st.getQueueStats q := by
              intro q
              simp [getQueueStats, updateJob, hj, statsOf_eq_none ho]
            rw [exact_iff] at h ⊢
            simp only [hread, holds_eq hj ho] at htally ⊢
            constructor
            · rintro h' _ ⟨⟩ -
              refine counts_status_inj fun c => ?_
              have h₁ := htally "" c
              have h₂ := h "" c
              have h₃ := h' "" c
              cases hc : JobStatus.counts c job <;>
                cases hc' : JobStatus.counts c (updates.apply job) <;>
                simp_all
            · intro hs q c
              have hsame : JobStatus.counts c (updates.apply job) = JobStatus.counts c job := by
                rw [JobStatus.counts, hs job rfl trivial, JobStatus.counts]
              have h₁ := htally q c
              have h₂ := h q c
              rw [hsame] at h₁
              omega
          · have hread := reading_updateJob hk h hj ho hq updates
            rw [exact_iff] at h ⊢
            refine iff_of_true (fun q c => ?_) fun _ _ he => absurd (Option.some.inj he) hq
            have h₁ := htally q c
            have h₂ := hread q c
            have h₃ := h q c
            omega

/-- **`removeJob` keeps the counters exact** unless the job is in the queue with the empty
name. -/
theorem removeJob_exact_iff (hk : st.Keyed) (h : st.Exact) (id : String) :
    (st.removeJob id).2.Exact ↔ st.jobToQueue.get id ≠ some "" := by
  cases hj : st.jobs.get id with
  | none =>
      rw [hk.owned.mp hj]
      simpa [removeJob, hj] using h
  | some job =>
      have htally := fun q c => tally_removeJob hj q (JobStatus.counts c)
      cases ho : st.jobToQueue.get id with
      | none => rw [hk.owned.mpr ho] at hj; cases hj
      | some q₀ =>
          by_cases hq : q₀ = ""
          · subst hq
            refine iff_of_false (fun h' => ?_) (fun hne => hne rfl)
            have hread : (st.removeJob id).2.getQueueStats "" = st.getQueueStats "" := by
              simp [getQueueStats, removeJob, hj, statsOf_eq_none ho]
            have hh : st.holds id "" (JobStatus.counts none) = true := by
              simp [holds_eq hj ho, JobStatus.counts]
            have h₁ := htally "" none
            have h₂ := exact_iff.mp h "" none
            have h₃ := exact_iff.mp h' "" none
            rw [hh, Bool.toNat_true] at h₁
            rw [hread] at h₃
            omega
          · have hread := reading_removeJob hk h hj ho hq
            rw [exact_iff] at h ⊢
            refine iff_of_true (fun q c => ?_) fun he => absurd (Option.some.inj he) hq
            have h₁ := htally q c
            have h₂ := hread q c
            have h₃ := h q c
            omega

/-- `dequeue` does not touch the records or the counters. -/
lemma dequeue_frame {queueName : String} {pick : ℕ} {job : Option (Job V)}
    {st' : InMemoryStorage V} (h : st.dequeue queueName pick = some (job, st')) :
    ∃ queues, st' = { st with queues := queues } := by
  rw [dequeue] at h
  split at h
  · obtain ⟨-, rfl⟩ := Prod.mk.inj (Option.some.inj h)
    exact ⟨st.queues, rfl⟩
  · split at h
    · obtain ⟨-, rfl⟩ := Prod.mk.inj (Option.some.inj h)
      exact ⟨_, rfl⟩
    · cases h

/-! ### Runs -/

/-- A call of one of the methods that change the storage. -/
inductive Call (V : Type) where
  | enqueue (queueName : String) (job : Job V) (now : ℕ)
  | dequeue (queueName : String) (pick : ℕ)
  | updateJob (jobId : String) (updates : JobPatch V)
  | removeJob (jobId : String)

/-- The storage after a call; `none` where the heap may not hand out the item it is said to
hand out. -/
def call (st : InMemoryStorage V) : Call V → Option (InMemoryStorage V)
  | .enqueue queueName job now => some (st.enqueue queueName job now)
  | .dequeue queueName pick => (st.dequeue queueName pick).map Prod.snd
  | .updateJob jobId updates => some (st.updateJob jobId updates)
  | .removeJob jobId => some (st.removeJob jobId).2

/-- **The calls that the counters keep up with**: `enqueue` of a job that is not stored,
`updateJob` unless it changes the status of a job in the queue with the empty name, and
`removeJob` unless the job is in the queue with the empty name. -/
def KeepsCount (st : InMemoryStorage V) : Call V → Prop
  | .enqueue _ job _ => st.jobs.get job.id = none
  | .dequeue _ _ => True
  | .updateJob jobId updates =>
      ∀ job, st.jobs.get jobId = some job → st.jobToQueue.get jobId = some "" →
        (updates.apply job).status = job.status
  | .removeJob jobId => st.jobToQueue.get jobId ≠ some ""

lemma keyed_empty : ({} : InMemoryStorage V).Keyed where
  owned := iff_of_true rfl rfl
  counted := by
    intro id q h
    cases h

lemma exact_empty : ({} : InMemoryStorage V).Exact :=
  fun _ => ⟨rfl, fun status => by cases status <;> rfl⟩

lemma keyed_enqueue (hk : st.Keyed) (queueName : String) (job : Job V) (now : ℕ) :
    (st.enqueue queueName job now).Keyed where
  owned := by
    intro id
    rw [enqueue_jobs, enqueue_jobToQueue, OrdMap.get_set, OrdMap.get_set]
    split
    · simp
    · exact hk.owned
  counted := by
    intro id q h
    rw [enqueue_jobToQueue, OrdMap.get_set] at h
    by_cases hq : queueName = q
    · subst hq
      exact ⟨_, OrdMap.get_set_self _ _ _⟩
    · split at h
      · exact absurd (Option.some.inj h) hq
      · obtain ⟨stats, hs⟩ := hk.counted h
        exact ⟨stats, (OrdMap.get_set_ne _ _ hq).trans hs⟩

/-- The counters of a queue stay in place under what `updateJob` and `removeJob` do to
them. -/
lemma exists_get_set {m : OrdMap String QueueStats} {q : String}
    (h : ∃ stats, m.get q = some stats) (q' : String) (stats' : QueueStats) :
    ∃ stats, (m.set q' stats').get q = some stats := by
  rw [OrdMap.get_set]
  split
  · exact ⟨_, rfl⟩
  · exact h

lemma keyed_updateJob (hk : st.Keyed) (id : String) (updates : JobPatch V) :
    (st.updateJob id updates).Keyed where
  owned := by
    intro id'
    rw [get_updateJob, updateJob_jobToQueue, ← hk.owned]
    split
    · exact Option.map_eq_none_iff
    · exact Iff.rfl
  counted := by
    intro id' q h
    rw [updateJob_jobToQueue] at h
    have hs := hk.counted h
    rw [updateJob]
    split
    · exact hs
    · split
      · exact hs
      · split
        · exact hs
        · split
          · exact hs
          · exact exists_get_set hs _ _

lemma keyed_removeJob (hk : st.Keyed) (id : String) : (st.removeJob id).2.Keyed := by
  rw [removeJob]
  split
  · exact hk
  · have howned : ∀ {id'}, (st.jobs.delete id).get id' = none ↔
        (st.jobToQueue.delete id).get id' = none := by
      intro id'
      rw [OrdMap.get_delete, OrdMap.get_delete]
      split
      · exact iff_of_true rfl rfl
      · exact hk.owned
    have hcounted : ∀ {id' q}, (st.jobToQueue.delete id).get id' = some q →
        ∃ stats, st.stats.get q = some stats := by
      intro id' q h
      rw [OrdMap.get_delete] at h
      split at h
      · cases h
      · exact hk.counted h
    split
    · exact ⟨howned, hcounted⟩
    · exact ⟨howned, fun h => exists_get_set (hcounted h) _ _⟩

lemma keyed_call (hk : st.Keyed) {c : Call V} {st' : InMemoryStorage V}
    (h : st.call c = some st') : st'.Keyed := by
  cases c with
  | enqueue queueName job now =>
      obtain rfl := Option.some.inj h
      exact keyed_enqueue hk _ _ _
  | dequeue queueName pick =>
      obtain ⟨⟨job, st'⟩, hd, rfl⟩ := Option.map_eq_some_iff.mp h
      obtain ⟨queues, rfl⟩ := dequeue_frame hd
      exact ⟨hk.owned, hk.counted⟩
  | updateJob jobId updates =>
      obtain rfl := Option.some.inj h
      exact keyed_updateJob hk _ _
  | removeJob jobId =>
      obtain rfl := Option.some.inj h
      exact keyed_removeJob hk _

/-- The step lemma: a call keeps exact counters exact if and only if it is one the counters
keep up with. -/
lemma call_exact_iff (hk : st.Keyed) (he : st.Exact) {c : Call V} {st' : InMemoryStorage V}
    (h : st.call c = some st') : st'.Exact ↔ st.KeepsCount c := by
  cases c with
  | enqueue queueName job now =>
      obtain rfl := Option.some.inj h
      exact enqueue_exact_iff hk he _ _ _
  | dequeue queueName pick =>
      obtain ⟨⟨job, st'⟩, hd, rfl⟩ := Option.map_eq_some_iff.mp h
      obtain ⟨queues, rfl⟩ := dequeue_frame hd
      exact iff_of_true he trivial
  | updateJob jobId updates =>
      obtain rfl := Option.some.inj h
      exact updateJob_exact_iff hk he _ _
  | removeJob jobId =>
      obtain rfl := Option.some.inj h
      exact removeJob_exact_iff hk he _

/-- **The statistics are exact throughout a run if and only if each of its calls is one that
the counters keep up with.** -/
theorem stats_exact_iff (calls : List (Call V)) :
    (∀ cs, cs <+: calls → ∀ st, exec call {} cs = some st → st.Exact) ↔
      Meets call KeepsCount {} calls := by
  refine forall_prefix_iff_meets (fun _ _ _ hk h => keyed_call hk h)
    (fun _ _ _ hk he h => call_exact_iff hk he h) ?_ keyed_empty exact_empty calls
  intro st c hnone
  -- only the heap refuses, and a `dequeue` is free of conditions
  cases c with
  | dequeue queueName pick => trivial
  | enqueue queueName job now => cases hnone
  | updateJob jobId updates => cases hnone
  | removeJob jobId => cases hnone

/-- A job as `add` stores it. -/
def freshJob : Job Unit where
  id := "a"
  type := "t"
  queueName := "q"
  data := ()
  status := .queued
  priority := 5
  progress := 0
  queuedAt := 0
  retries := 0
  maxRetries := 3
  timeout := 30000
  metadata := ∅

/-- What the storage sees of a job that fails once: it is taken, runs, is set back to
`queued`, and the timer callback enqueues it again. -/
def retryCalls : List (Call Unit) :=
  [.enqueue "q" freshJob 0,
   .dequeue "q" 0,
   .updateJob "a" { status := some .running, startedAt := some (some 1) },
   .updateJob "a" { status := some .queued, retries := some 1 },
   .enqueue "q" { freshJob with retries := 1, startedAt := some 1 } 2]

/-- The retry of a job counts it twice. -/
theorem not_stats_exact :
    ¬ ∀ (calls : List (Call Unit)) (st : InMemoryStorage Unit),
      exec call {} calls = some st → st.Exact := by
  intro h
  have htotal := (h retryCalls _ rfl "q").1
  exact absurd htotal (by decide)

end InMemoryStorage

end Blaize.Queue
