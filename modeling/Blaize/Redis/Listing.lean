import Mathlib.Data.List.Duplicate
import Mathlib.Data.List.Perm.Basic
import Blaize.Lib.Sorting
import Blaize.Redis.Interchange
import Blaize.Redis.RetryPolicy

/-!
Listing the jobs of a queue: `listJobs` of the storage in memory and of the storage over Redis.

The storage in memory filters its jobs and always sorts them, by default the newest first.  The
one over Redis reads a sorted set for each status, one set after the other, and sorts only if it
is asked to; an empty job type counts as none, and a status that is given twice is read twice.

* `InMemoryStorage.listJobs`, `listJobs`: the two methods, with `JobFilters`;
* `Held`: both storages hold the same jobs, no two of them queued at the same time;
* `held_enqueueAll`: so they do after the same calls of `enqueue`;
* `Held.collected`: what the storage over Redis has collected before it sorts;
* `AdapterFree`: the two answers always have the same identifiers;
* `adapterFree_iff`: **they have exactly if the filters ask for the order, for a type that is
  not empty and for no status twice**, or if the page cannot tell.
-/

namespace Blaize.Queue

open Sorting
open Blaize.RedisQueue (statusText)

variable {V : Type}

/-! ### The storage in memory -/

/-- What jobs are sorted by. -/
inductive SortField where
  | queuedAt
  | priority
  | status
  deriving DecidableEq, Repr

/-- The directions of sorting. -/
inductive SortOrder where
  | asc
  | desc
  deriving DecidableEq, Repr

/-- The filters of a listing; `none` is one that was not given. -/
structure JobFilters where
  /-- A single status is a list of one. -/
  status : Option (List JobStatus) := none
  jobType : Option String := none
  limit : Option ℕ := none
  offset : Option ℕ := none
  sortBy : Option SortField := none
  sortOrder : Option SortOrder := none
  deriving DecidableEq, Repr

namespace JobFilters

/-- `DEFAULT_FILTERS.limit`, and the default of the storage over Redis. -/
def pageLimit (filters : JobFilters) : ℕ := filters.limit.getD 50

/-- How many jobs are skipped. -/
def pageOffset (filters : JobFilters) : ℕ := filters.offset.getD 0

/-- `slice(offset, offset + limit)`. -/
def page {α : Type} (filters : JobFilters) (l : List α) : List α :=
  (l.drop filters.pageOffset).take filters.pageLimit

end JobFilters

/-- `localeCompare` on words of lowercase letters. -/
def localeCompare (a b : String) : ℤ := if a < b then -1 else if b < a then 1 else 0

/-- The comparator of `listJobs`. -/
def compareJobs (sortBy : SortField) (sortOrder : SortOrder) (a b : Job V) : ℤ :=
  let comparison :=
    match sortBy with
    | .priority => a.priority - b.priority
    | .status => localeCompare (statusText a.status) (statusText b.status)
    | .queuedAt => (a.queuedAt : ℤ) - b.queuedAt
  if sortOrder = .asc then comparison else -comparison

namespace InMemoryStorage

/-- The jobs of a queue, in the order in which they came. -/
def queueJobs (st : InMemoryStorage V) (queueName : String) : List (Job V) :=
  st.jobToQueue.entries.filterMap fun e => if e.2 = queueName then st.jobs.get e.1 else none

/-- `storage.listJobs(queueName, filters)` -/
def listJobs (st : InMemoryStorage V) (queueName : String) (filters : JobFilters) :
    List (Job V) :=
  let result := st.queueJobs queueName
  let result :=
    match filters.status with
    | none => result
    | some statusArray => result.filter (·.status ∈ statusArray)
  let result :=
    match filters.jobType with
    | none => result
    | some jobType => result.filter (·.type = jobType)
  filters.page (sort (compareJobs (filters.sortBy.getD .queuedAt)
    (filters.sortOrder.getD .desc)) result)

end InMemoryStorage

end Blaize.Queue

namespace Blaize.RedisQueue

open Blaize.Queue Sorting

variable {V : Type}

/-! ### The storage over Redis -/

/-- The statuses whose sorted sets are read. -/
def statusesOf (filters : JobFilters) : List JobStatus :=
  filters.status.getD [.queued, .running, .completed, .failed, .cancelled]

/-- `!filters?.jobType || job.type === filters.jobType`. -/
def hasType (filters : JobFilters) (job : QueueJob V) : Bool :=
  match filters.jobType with
  | none => true
  | some jobType => jobType = "" || job.type = jobType

/-- The comparator of `listJobs`. -/
def compareListed (field : SortField) (sortOrder : Option SortOrder) (a b : QueueJob V) : ℤ :=
  let order := if sortOrder = some .asc then 1 else -1
  match field with
  | .queuedAt => ((a.queuedAt : ℤ) - b.queuedAt) * order
  | .priority => (a.priority - b.priority) * order
  | .status => 0

section Methods

variable (cfg : RedisQueueAdapter) (json : Json V) (store : Redis.Store) (queueName : String)
  (filters : JobFilters)

/-- The jobs of a sorted set that can be read and have the type. -/
def jobsOf (status : JobStatus) : Except Thrown (List (QueueJob V)) := do
  let jobs ← (store.zrange (cfg.buildQueueKey queueName status)).mapM (getJob json store)
  return jobs.reduceOption.filter (hasType filters)

/-- `listJobs` of a connected adapter. -/
def listJobs : Except Thrown (List (QueueJob V)) :=
  match (statusesOf filters).mapM (jobsOf cfg json store queueName filters) with
  | .error _ => .error (.redisOperation "LIST_JOBS failed" "ZRANGE"
      (cfg.keyPrefix ++ queueName ++ ":*"))
  | .ok jobs =>
      let jobs := jobs.flatten
      let jobs :=
        match filters.sortBy with
        | none => jobs
        | some field => sort (compareListed field filters.sortOrder) jobs
      .ok (filters.page jobs)

end Methods

/-! ### The same jobs -/

/-- What the listings of the two storages are compared by. -/
def stamp (job : Job V) : String × ℕ := (job.id, job.queuedAt)

/-- Both storages hold the jobs of a queue.  A job that is read from Redis has the identifier, the
type and the time of the one that was stored; the rest need not survive. -/
structure Held (cfg : RedisQueueAdapter) (json : Json V) (store : Redis.Store)
    (memory : InMemoryStorage V) (queueName : String) (jobs : List (Job V)) : Prop where
  memory : (memory.queueJobs queueName).Perm jobs
  members : ∀ status, (store.zset (cfg.buildQueueKey queueName status)).keys.Perm
    ((jobs.filter (·.status = status)).map Job.id)
  read : ∀ job ∈ jobs, ∃ job', getJob json store job.id = .ok (some job') ∧
    stamp job' = stamp job ∧ job'.type = job.type
  distinct : (jobs.map Job.queuedAt).Nodup

/-- The two answers have the same identifiers. -/
def SameListing (cfg : RedisQueueAdapter) (json : Json V) (store : Redis.Store)
    (memory : InMemoryStorage V) (queueName : String) (filters : JobFilters) : Prop :=
  (listJobs cfg json store queueName filters).map (·.map Job.id) =
    .ok ((memory.listJobs queueName filters).map Job.id)

/-- The listing does not depend on the adapter. -/
def AdapterFree (filters : JobFilters) : Prop :=
  ∀ (V : Type) (cfg : RedisQueueAdapter) (json : Json V) (store : Redis.Store)
    (memory : InMemoryStorage V) (queueName : String) (jobs : List (Job V)),
    Held cfg json store memory queueName jobs →
      SameListing cfg json store memory queueName filters

/-- The order is asked for, the type is not empty, and no status is given twice; or the page is
empty whatever is stored; or it is the first job in an order that is asked for. -/
def Decided (filters : JobFilters) : Prop :=
  filters.limit = some 0 ∨ filters.status = some [] ∨
    (filters.sortBy = some .queuedAt ∧ filters.jobType ≠ some "" ∧
      ((statusesOf filters).Nodup ∨ filters.pageOffset = 0 ∧ filters.limit = some 1))

instance (filters : JobFilters) : Decidable (Decided filters) :=
  inferInstanceAs (Decidable (_ ∨ _ ∨ _ ∧ _ ∧ (_ ∨ _ ∧ _)))

/-! ### What is collected -/

section Collected

variable {cfg : RedisQueueAdapter} {json : Json V} {store : Redis.Store}
  {memory : InMemoryStorage V} {queueName : String} {jobs : List (Job V)} {filters : JobFilters}

lemma hasType_congr {job job' : Job V} (h : job'.type = job.type) :
    hasType filters job' = hasType filters job := by
  rw [hasType, hasType, h]

variable (filters) in
/-- The members of a sorted set are read one by one. -/
lemma jobsOf_of_zrange {status : JobStatus} {stored : List (Job V)}
    (hzrange : store.zrange (cfg.buildQueueKey queueName status) = stored.map Job.id)
    (hread : ∀ job ∈ stored, ∃ job', getJob json store job.id = .ok (some job') ∧
      stamp job' = stamp job ∧ job'.type = job.type) :
    ∃ listed, jobsOf cfg json store queueName filters status = .ok listed ∧
      listed.map stamp = (stored.filter (hasType filters)).map stamp := by
  obtain ⟨listed, hlisted, hstamps⟩ : ∃ listed : List (QueueJob V),
      (stored.map Job.id).mapM (getJob json store) = .ok (listed.map some) ∧
        (listed.filter (hasType filters)).map stamp =
          (stored.filter (hasType filters)).map stamp := by
    clear hzrange
    induction stored with
    | nil => exact ⟨[], rfl, rfl⟩
    | cons job stored ih =>
        obtain ⟨job', hjob, hstamp, htype⟩ := hread job List.mem_cons_self
        obtain ⟨listed, hlisted, hstamps⟩ := ih fun j hj => hread j (List.mem_cons_of_mem _ hj)
        refine ⟨job' :: listed, ?_, ?_⟩
        · rw [List.map_cons, List.mapM_cons, hjob, hlisted]
          rfl
        · rw [List.filter_cons, List.filter_cons, hasType_congr htype]
          split
          · rw [List.map_cons, List.map_cons, hstamps, hstamp]
          · exact hstamps
  refine ⟨listed.filter (hasType filters), ?_, hstamps⟩
  rw [jobsOf, hzrange, hlisted]
  show Except.ok ((listed.map some).reduceOption.filter (hasType filters)) = _
  have hfound : (listed.map some).reduceOption = (listed.map some).filterMap id := rfl
  rw [hfound, List.filterMap_map]
  simp

/-- What is collected for a status: its jobs of the type, in some order. -/
lemma Held.jobsOf (h : Held cfg json store memory queueName jobs) (filters : JobFilters)
    (status : JobStatus) :
    ∃ listed, jobsOf cfg json store queueName filters status = .ok listed ∧
      (listed.map stamp).Perm
        (((jobs.filter (hasType filters)).filter (·.status = status)).map stamp) := by
  have hperm : (store.zrange (cfg.buildQueueKey queueName status)).Perm
      ((jobs.filter (·.status = status)).map Job.id) :=
    (store.zrange_perm _).trans (h.members status)
  obtain ⟨stored, hzrange, hstored⟩ := (congrFun (congrFun (List.eq_map_comp_perm Job.id) _) _).mpr
    hperm
  have hread : ∀ job ∈ stored, ∃ job', getJob json store job.id = .ok (some job') ∧
      stamp job' = stamp job ∧ job'.type = job.type :=
    fun job hjob => h.read job (List.mem_filter.mp (hstored.mem_iff.mp hjob)).1
  obtain ⟨listed, hlisted, hstamps⟩ := jobsOf_of_zrange filters hzrange hread
  refine ⟨listed, hlisted, ?_⟩
  rw [hstamps, List.filter_comm]
  exact (hstored.filter _).map stamp

/-- What is collected for all statuses. -/
lemma Held.collected (h : Held cfg json store memory queueName jobs) (filters : JobFilters)
    (statuses : List JobStatus) :
    ∃ lists, statuses.mapM (RedisQueue.jobsOf cfg json store queueName filters) = .ok lists ∧
      (lists.flatten.map stamp).Perm ((statuses.flatMap fun status =>
        (jobs.filter (hasType filters)).filter (·.status = status)).map stamp) := by
  induction statuses with
  | nil => exact ⟨[], rfl, List.Perm.refl _⟩
  | cons status statuses ih =>
      obtain ⟨lists, hlists, hperm⟩ := ih
      obtain ⟨listed, hlisted, hperm'⟩ := h.jobsOf filters status
      refine ⟨listed :: lists, ?_, ?_⟩
      · rw [List.mapM_cons, hlisted, hlists]
        rfl
      · rw [List.flatten_cons, List.map_append, List.flatMap_cons, List.map_append]
        exact hperm'.append hperm

/-! ### The order by time -/

/-- The time of a stamp, negated where the newest job comes first. -/
def timeOf (filters : JobFilters) (s : String × ℕ) : ℤ :=
  if filters.sortOrder = some .asc then s.2 else -s.2

lemma map_stamp_sort_listed (l : List (QueueJob V)) :
    (sort (compareListed .queuedAt filters.sortOrder) l).map stamp =
      sort (byKey (timeOf filters)) (l.map stamp) := by
  rw [← map_sort]
  congr 2
  funext a b
  rw [compareListed, byKey, timeOf, timeOf]
  split
  · simp [stamp]
  · simp only [stamp]
    omega

variable (filters) in
lemma map_stamp_sort_jobs (l : List (Job V)) :
    (sort (compareJobs .queuedAt (filters.sortOrder.getD .desc)) l).map stamp =
      sort (byKey (timeOf filters)) (l.map stamp) := by
  rw [← map_sort]
  congr 2
  funext a b
  rw [compareJobs, byKey, timeOf, timeOf]
  cases filters.sortOrder with
  | none => simp [stamp]; omega
  | some order =>
      cases order with
      | asc => simp [stamp]
      | desc =>
          simp [stamp]
          omega

/-- No two stamps share a time. -/
lemma Held.timeOf_inj (h : Held cfg json store memory queueName jobs) {s s' : String × ℕ}
    (hs : s ∈ jobs.map stamp) (hs' : s' ∈ jobs.map stamp)
    (heq : timeOf filters s = timeOf filters s') : s = s' := by
  obtain ⟨job, hjob, rfl⟩ := List.mem_map.mp hs
  obtain ⟨job', hjob', rfl⟩ := List.mem_map.mp hs'
  have htime : job.queuedAt = job'.queuedAt := by
    rw [timeOf, timeOf] at heq
    split at heq <;> simp only [stamp] at heq <;> omega
  rw [List.inj_on_of_nodup_map h.distinct hjob hjob' htime]

/-! ### Pages -/

lemma map_page {α β : Type} (f : α → β) (l : List α) :
    (filters.page l).map f = filters.page (l.map f) := by
  rw [JobFilters.page, JobFilters.page, List.map_take, List.map_drop]

lemma page_of_limit (h : filters.limit = some 0) {α : Type} (l : List α) :
    filters.page l = [] := by
  rw [JobFilters.page, JobFilters.pageLimit, h]
  exact List.take_zero

/-- The page that is only the first job. -/
lemma page_of_first (hoffset : filters.pageOffset = 0) (hlimit : filters.limit = some 1)
    {α : Type} (l : List α) : filters.page l = l.head?.toList := by
  rw [JobFilters.page, JobFilters.pageLimit, hoffset, hlimit]
  cases l <;> rfl

lemma ids_of_stamps {l l' : List (Job V)} (h : l.map stamp = l'.map stamp) :
    l.map Job.id = l'.map Job.id := by
  have hid : (Job.id : Job V → String) = Prod.fst ∘ stamp := rfl
  rw [hid, ← List.map_map, ← List.map_map, h]

lemma Held.sameListing_of (h : Held cfg json store memory queueName jobs)
    (hpage : ∀ lists : List (List (QueueJob V)),
      (statusesOf filters).mapM (RedisQueue.jobsOf cfg json store queueName filters) =
        .ok lists →
      (lists.flatten.map stamp).Perm (((statusesOf filters).flatMap fun status =>
        (jobs.filter (hasType filters)).filter (·.status = status)).map stamp) →
      (filters.page (match filters.sortBy with
        | none => lists.flatten
        | some field => sort (compareListed field filters.sortOrder) lists.flatten)).map Job.id =
        (memory.listJobs queueName filters).map Job.id) :
    SameListing cfg json store memory queueName filters := by
  obtain ⟨lists, hlists, hperm⟩ := h.collected filters (statusesOf filters)
  rw [SameListing, RedisQueue.listJobs, hlists]
  exact congrArg Except.ok (hpage lists hlists hperm)

lemma filter_status (l : List (Job V)) : (match filters.status with
    | none => l
    | some statusArray => l.filter (·.status ∈ statusArray)) =
      l.filter (·.status ∈ statusesOf filters) := by
  rw [statusesOf]
  cases filters.status with
  | none =>
      refine (List.filter_eq_self.mpr fun job _ => ?_).symm
      cases job.status <;> rfl
  | some statusArray => rfl

/-- The storage in memory filters alike, unless the type is empty. -/
lemma memory_listJobs_eq (htype : filters.jobType ≠ some "") :
    memory.listJobs queueName filters = filters.page (sort (compareJobs
      (filters.sortBy.getD .queuedAt) (filters.sortOrder.getD .desc))
        (((memory.queueJobs queueName).filter (hasType filters)).filter
          (·.status ∈ statusesOf filters))) := by
  have hjobType (l : List (Job V)) : (match filters.jobType with
      | none => l
      | some jobType => l.filter (·.type = jobType)) = l.filter (hasType filters) := by
    cases ht : filters.jobType with
    | none =>
        refine (List.filter_eq_self.mpr fun job _ => ?_).symm
        rw [hasType, ht]
    | some jobType =>
        refine List.filter_congr fun job _ => ?_
        have hne : jobType ≠ "" := fun he => htype (ht.trans (congrArg some he))
        rw [hasType, ht]
        simp [hne]
  rw [InMemoryStorage.listJobs, filter_status, hjobType, List.filter_comm]

/-- A class by class listing has the jobs of the type whose status is asked for. -/
lemma mem_classes {p : Job V → Bool} {statuses : List JobStatus} {s : String × ℕ} :
    (s ∈ (statuses.flatMap fun status => (jobs.filter p).filter (·.status = status)).map stamp) ↔
      s ∈ ((jobs.filter p).filter (·.status ∈ statuses)).map stamp := by
  simp only [List.mem_map, List.mem_flatMap, List.mem_filter, decide_eq_true_eq]
  constructor
  · rintro ⟨job, ⟨status, hstatus, hjob, rfl⟩, rfl⟩
    exact ⟨job, ⟨hjob, hstatus⟩, rfl⟩
  · rintro ⟨job, ⟨hjob, hstatus⟩, rfl⟩
    exact ⟨job, ⟨job.status, hstatus, hjob, rfl⟩, rfl⟩

/-- **What is decided does not depend on the adapter.** -/
lemma Held.sameListing (h : Held cfg json store memory queueName jobs)
    (hfilters : Decided filters) : SameListing cfg json store memory queueName filters := by
  refine h.sameListing_of fun lists hlists hperm => ?_
  rcases hfilters with hlimit | hstatus | ⟨hsort, htype, hunique⟩
  · rw [page_of_limit hlimit, InMemoryStorage.listJobs, page_of_limit hlimit]
  · have hnil : lists.flatten = [] := by
      rw [statusesOf, hstatus] at hperm
      exact List.map_eq_nil_iff.mp (List.perm_nil.mp hperm)
    have hempty : memory.listJobs queueName filters = filters.page [] := by
      rw [InMemoryStorage.listJobs, hstatus]
      congr 1
      split <;> simp [sort]
    rw [hnil, hempty]
    split <;> simp [sort]
  · rw [memory_listJobs_eq htype, hsort]
    refine ids_of_stamps ?_
    rw [map_page, map_page]
    dsimp only [Option.getD_some]
    rw [map_stamp_sort_listed, map_stamp_sort_jobs]
    have hmemory := ((h.memory.filter (hasType filters)).filter
      (·.status ∈ statusesOf filters)).map stamp
    have hmem (s : String × ℕ) : s ∈ lists.flatten.map stamp ↔
        s ∈ (((memory.queueJobs queueName).filter (hasType filters)).filter
          (·.status ∈ statusesOf filters)).map stamp := by
      rw [hperm.mem_iff, mem_classes, hmemory.mem_iff]
    have hjobs {s : String × ℕ} (hs : s ∈ lists.flatten.map stamp) : s ∈ jobs.map stamp := by
      rw [hmem, hmemory.mem_iff, List.filter_filter] at hs
      exact List.map_subset _ (List.filter_subset_self _) hs
    have hinj : ∀ s ∈ lists.flatten.map stamp, ∀ s' ∈ lists.flatten.map stamp,
        timeOf filters s = timeOf filters s' → s = s' :=
      fun s hs s' hs' => h.timeOf_inj (hjobs hs) (hjobs hs')
    rcases hunique with hnodup | ⟨hoffset, hlimit⟩
    · have hclasses := (perm_flatMap_filter Job.status (jobs.filter (hasType filters)) hnodup).map
        stamp
      rw [sort_eq_of_perm ((hperm.trans hclasses).trans hmemory.symm) hinj]
    · rw [page_of_first hoffset hlimit, page_of_first hoffset hlimit, head?_sort_eq hmem hinj]

end Collected

/-! ### After the same calls of `enqueue` -/

section Enqueued

variable (cfg : RedisQueueAdapter) (json : Json V) (queueName : String)

/-- The storage over Redis after its `enqueue` of some jobs. -/
def enqueueAll (jobs : List (Job V)) : Redis.Store :=
  jobs.foldl (fun store job => enqueuePipeline cfg json store queueName job) {}

/-- The storage in memory after its `enqueue` of the same jobs. -/
def memoryOf (jobs : List (Job V)) : InMemoryStorage V :=
  jobs.foldl (fun st job => st.enqueue queueName job job.queuedAt) {}

variable {cfg json queueName} {jobs : List (Job V)}

lemma enqueueAll_append (jobs : List (Job V)) (job : Job V) :
    enqueueAll cfg json queueName (jobs ++ [job]) =
      enqueuePipeline cfg json (enqueueAll cfg json queueName jobs) queueName job := by
  rw [enqueueAll, List.foldl_append]
  rfl

lemma memoryOf_append (jobs : List (Job V)) (job : Job V) :
    memoryOf queueName (jobs ++ [job]) =
      (memoryOf queueName jobs).enqueue queueName job job.queuedAt := by
  rw [memoryOf, List.foldl_append]
  rfl

lemma nodup_append_iff {job : Job V} :
    ((jobs ++ [job]).map Job.id).Nodup ↔
      (jobs.map Job.id).Nodup ∧ ∀ job' ∈ jobs, job'.id ≠ job.id := by
  rw [List.map_append, List.nodup_append]
  simp

lemma get_eq_none_of_entries {κ ν α : Type} [DecidableEq κ] {m : OrdMap κ ν} {l : List α}
    {f : α → κ × ν} (h : m.entries = l.map f) {k : κ} (hk : ∀ a ∈ l, (f a).1 ≠ k) :
    m.get k = none := by
  refine Option.eq_none_iff_forall_ne_some.mpr fun v hv => ?_
  rw [← OrdMap.mem_entries_iff, h] at hv
  obtain ⟨a, ha, hav⟩ := List.mem_map.mp hv
  exact hk a ha (congrArg Prod.fst hav)

/-- A sorted set has the jobs of its status, in the order in which they came. -/
lemma entries_enqueueAll (hids : (jobs.map Job.id).Nodup) (status : JobStatus) :
    ((enqueueAll cfg json queueName jobs).zset (cfg.buildQueueKey queueName status)).entries =
      (jobs.filter (·.status = status)).map fun job =>
        (job.id, jobScore job.priority job.queuedAt) := by
  induction jobs using List.reverseRecOn with
  | nil => rfl
  | append_singleton jobs job ih =>
      obtain ⟨hnodup, hnew⟩ := nodup_append_iff.mp hids
      have hzset : (enqueueAll cfg json queueName (jobs ++ [job])).zset
          (cfg.buildQueueKey queueName status) =
            if cfg.buildQueueKey queueName job.status = cfg.buildQueueKey queueName status then
              ((enqueueAll cfg json queueName jobs).zset
                (cfg.buildQueueKey queueName job.status)).set job.id
                  (jobScore job.priority job.queuedAt)
            else (enqueueAll cfg json queueName jobs).zset
              (cfg.buildQueueKey queueName status) := by
        rw [enqueueAll_append, enqueuePipeline, Redis.Store.zset_zadd]
        rfl
      rw [hzset, List.filter_append, List.map_append]
      split
      next hkey =>
        obtain ⟨-, rfl⟩ := cfg.buildQueueKey_inj.mp hkey
        rw [OrdMap.entries_set_of_get_none, ih hnodup]
        · simp
        · exact get_eq_none_of_entries (ih hnodup) fun job' hjob' =>
            hnew job' (List.mem_filter.mp hjob').1
      next hkey =>
        have hne : job.status ≠ status := fun he => hkey (by rw [he])
        rw [ih hnodup]
        simp [hne]

/-- The hash of a job is the one that its own `enqueue` has written. -/
lemma hgetall_enqueueAll (hids : (jobs.map Job.id).Nodup) {job : Job V} (hjob : job ∈ jobs) :
    ∃ store : Redis.Store,
      (enqueueAll cfg json queueName jobs).hgetall (buildJobKey job.id) =
        (store.hset (buildJobKey job.id) (jobToHash json job)).hgetall (buildJobKey job.id) := by
  induction jobs using List.reverseRecOn with
  | nil => cases hjob
  | append_singleton jobs last ih =>
      obtain ⟨hnodup, hnew⟩ := nodup_append_iff.mp hids
      have hhash : (enqueueAll cfg json queueName (jobs ++ [last])).hgetall (buildJobKey job.id) =
          ((enqueueAll cfg json queueName jobs).hset (buildJobKey last.id)
            (jobToHash json last)).hgetall (buildJobKey job.id) := by
        rw [enqueueAll_append]
        rfl
      rcases List.mem_append.mp hjob with hold | hlast
      · obtain ⟨store, hstore⟩ := ih hnodup hold
        refine ⟨store, ?_⟩
        rw [hhash, Redis.Store.hgetall_hset, if_neg, hstore]
        exact fun he => hnew job hold (buildJobKey_inj.mp he).symm
      · obtain rfl := List.mem_singleton.mp hlast
        exact ⟨_, hhash⟩

/-- The texts of a job that its listing looks at. -/
lemma stamp_of_hashToJob {hash : Redis.Hash} {job : QueueJob V}
    (h : hashToJob json hash = some job) :
    stamp job = ((hash.get "id").getD "", natField hash "queuedAt") ∧
      job.type = (hash.get "type").getD "" := by
  rw [hashToJob] at h
  obtain ⟨data, -, h⟩ := Option.bind_eq_some_iff.mp h
  obtain ⟨result, -, h⟩ := Option.bind_eq_some_iff.mp h
  obtain ⟨error, -, h⟩ := Option.bind_eq_some_iff.mp h
  obtain ⟨metadata, -, h⟩ := Option.bind_eq_some_iff.mp h
  obtain ⟨status, -, h⟩ := Option.bind_eq_some_iff.mp h
  cases h
  exact ⟨rfl, rfl⟩

/-- What is read of a job that was stored as a whole. -/
lemma getJob_enqueueAll (hjson : json.Lawful) (hids : (jobs.map Job.id).Nodup) {job : Job V}
    (hjob : job ∈ jobs) :
    ∃ job', getJob json (enqueueAll cfg json queueName jobs) job.id = .ok (some job') ∧
      stamp job' = stamp job ∧ job'.type = job.type := by
  obtain ⟨store, hhash⟩ := @hgetall_enqueueAll V cfg json queueName jobs hids job hjob
  have hreadable := hjson.readable store (buildJobKey job.id) job
  rw [← hhash] at hreadable
  obtain ⟨job', hjob', -⟩ := hreadable.hashToJob
  have hget (field text : String)
      (hfind : ((jobToHash json job).reverse.find? (·.1 = field)).map Prod.snd = some text) :
      ((enqueueAll cfg json queueName jobs).hgetall (buildJobKey job.id)).get field =
        some text := by
    rw [hhash]
    exact (store.hget_hset_self _ _ field).trans (by rw [hfind]; rfl)
  have hnonempty :
      ((enqueueAll cfg json queueName jobs).hgetall (buildJobKey job.id)).entries ≠ [] := by
    intro hnil
    have hid := (OrdMap.mem_entries_iff _).mpr (hget "id" job.id rfl)
    rw [hnil] at hid
    cases hid
  have htime : natField ((enqueueAll cfg json queueName jobs).hgetall (buildJobKey job.id))
      "queuedAt" = job.queuedAt := by
    have hfilled : toString job.queuedAt ≠ "" := by
      intro he
      have := congrArg String.toList he
      rw [toList_toString] at this
      exact Nat.toDigits_ne_nil this
    have hkept : (some (toString job.queuedAt)).filter (· ≠ "") = some (toString job.queuedAt) := by
      rw [Option.filter_some, if_pos (decide_eq_true hfilled)]
    rw [natField, filled, hget "queuedAt" (toString job.queuedAt) rfl, hkept, Option.map_some,
      parseInt_toString]
    rfl
  obtain ⟨hstamp, htype⟩ := stamp_of_hashToJob hjob'
  refine ⟨job', ?_, ?_, ?_⟩
  · rw [RedisQueue.getJob, if_neg hnonempty, hjob']
  · rw [hstamp, hget "id" job.id rfl, htime]
    rfl
  · rw [htype, hget "type" job.type rfl]
    rfl

lemma queueJobs_memoryOf (hids : (jobs.map Job.id).Nodup) :
    (memoryOf queueName jobs).queueJobs queueName = jobs := by
  have hentries : (memoryOf queueName jobs).jobToQueue.entries =
      jobs.map fun job => (job.id, queueName) := by
    induction jobs using List.reverseRecOn with
    | nil => rfl
    | append_singleton jobs job ih =>
        obtain ⟨hnodup, hnew⟩ := nodup_append_iff.mp hids
        rw [memoryOf_append]
        show ((memoryOf queueName jobs).jobToQueue.set job.id queueName).entries = _
        rw [OrdMap.entries_set_of_get_none, ih hnodup, List.map_append]
        · rfl
        · exact get_eq_none_of_entries (ih hnodup) fun job' hjob' => hnew job' hjob'
  have hget : ∀ job ∈ jobs, (memoryOf queueName jobs).jobs.get job.id = some job := by
    clear hentries
    induction jobs using List.reverseRecOn with
    | nil => exact fun _ hjob => absurd hjob List.not_mem_nil
    | append_singleton jobs last ih =>
        obtain ⟨hnodup, hnew⟩ := nodup_append_iff.mp hids
        intro job hjob
        rw [memoryOf_append]
        show ((memoryOf queueName jobs).jobs.set last.id last).get job.id = some job
        rcases List.mem_append.mp hjob with hold | hlast
        · rw [OrdMap.get_set_ne _ _ (hnew job hold).symm]
          exact ih hnodup job hold
        · rw [List.mem_singleton.mp hlast, OrdMap.get_set_self]
  rw [InMemoryStorage.queueJobs, hentries, List.filterMap_map]
  refine (List.filterMap_congr fun job hjob => ?_).trans List.filterMap_some
  show (if queueName = queueName then _ else none) = some job
  rw [if_pos rfl, hget job hjob]

/-- **Jobs that were enqueued in both storages are held by both.** -/
theorem held_enqueueAll (hjson : json.Lawful) (hids : (jobs.map Job.id).Nodup)
    (htimes : (jobs.map Job.queuedAt).Nodup) :
    Held cfg json (enqueueAll cfg json queueName jobs) (memoryOf queueName jobs) queueName
      jobs where
  memory := List.Perm.of_eq (queueJobs_memoryOf hids)
  members status := by
    rw [OrdMap.keys, entries_enqueueAll hids, List.map_map]
    exact List.Perm.refl _
  read _ hjob := getJob_enqueueAll hjson hids hjob
  distinct := htimes

end Enqueued

/-! ### Jobs that tell the storages apart -/

open Cluster (demoJob demoJson)

section Samples

variable {filters : JobFilters}

/-- A job in a row of `n`: the storage over Redis has the row as it is, sorted by time it comes
out the other way round. -/
def sampleJob (type : String) (status : JobStatus) (sortOrder : Option SortOrder) (n i : ℕ) :
    Job ℕ :=
  { demoJob with
    id := String.ofList (List.replicate (i + 1) 'x')
    type
    status
    priority := if sortOrder = some .asc then -i else 0
    queuedAt := if sortOrder = some .asc then n - 1 - i else i }

/-- Jobs that are the same but for their times. -/
def sample (type : String) (status : JobStatus) (sortOrder : Option SortOrder) (n : ℕ) :
    List (Job ℕ) :=
  (List.range n).map (sampleJob type status sortOrder n)

variable {type : String} {status : JobStatus} {sortOrder : Option SortOrder} {n : ℕ}

lemma sampleJob_id_inj {i j : ℕ} (h : (sampleJob type status sortOrder n i).id =
    (sampleJob type status sortOrder n j).id) : i = j := by
  have hlist := congrArg (fun s => s.toList.length) h
  simpa [sampleJob] using hlist

lemma mem_sample {job : Job ℕ} (h : job ∈ sample type status sortOrder n) :
    job.type = type ∧ job.status = status := by
  obtain ⟨i, -, rfl⟩ := List.mem_map.mp h
  exact ⟨rfl, rfl⟩

lemma length_sample : (sample type status sortOrder n).length = n := by
  rw [sample, List.length_map, List.length_range]

lemma nodup_sample_ids : ((sample type status sortOrder n).map Job.id).Nodup := by
  rw [sample, List.map_map]
  exact List.nodup_range.map fun i j => sampleJob_id_inj

lemma nodup_sample_times : ((sample type status sortOrder n).map Job.queuedAt).Nodup := by
  rw [sample, List.map_map]
  refine List.nodup_range.map_on fun i hi j hj h => ?_
  rw [List.mem_range] at hi hj
  simp only [Function.comp_apply, sampleJob] at h
  split at h <;> omega

/-- Both storages can hold such a row. -/
lemma held_sample (type : String) (status : JobStatus) (sortOrder : Option SortOrder) (n : ℕ) :
    Held {} demoJson (enqueueAll {} demoJson "q" (sample type status sortOrder n))
      (memoryOf "q" (sample type status sortOrder n)) "q" (sample type status sortOrder n) :=
  held_enqueueAll ⟨fun _ => Or.inr rfl, fun _ => rfl, fun _ => rfl⟩ nodup_sample_ids
    nodup_sample_times

/-- A list of one class, collected class by class. -/
lemma length_classes {l : List (Job ℕ)} (hl : ∀ job ∈ l, job.status = status)
    (statuses : List JobStatus) :
    (statuses.flatMap fun status' => l.filter (·.status = status')).length =
      statuses.count status * l.length := by
  induction statuses with
  | nil => rw [List.flatMap_nil, List.count_nil, Nat.zero_mul]; rfl
  | cons status' statuses ih =>
      rw [List.flatMap_cons, List.length_append, ih, List.count_cons]
      by_cases heq : status' = status
      · have hall : l.filter (·.status = status') = l :=
          List.filter_eq_self.mpr fun job hjob => decide_eq_true ((hl job hjob).trans heq.symm)
        rw [hall, if_pos (by simpa using heq), Nat.add_mul, Nat.one_mul, Nat.add_comm]
      · have hnone : l.filter (·.status = status') = [] :=
          List.filter_eq_nil_iff.mpr fun job hjob h =>
            heq ((of_decide_eq_true h).symm.trans (hl job hjob))
        rw [hnone, if_neg (by simpa using heq), List.length_nil, Nat.zero_add, Nat.add_zero]

lemma length_page {α : Type} (l : List α) :
    (filters.page l).length = min filters.pageLimit (l.length - filters.pageOffset) := by
  rw [JobFilters.page, List.length_take, List.length_drop]

/-- How many jobs the storage over Redis returns of one status and of the type. -/
lemma Held.length_of_sameListing {store : Redis.Store} {memory : InMemoryStorage ℕ}
    {queueName : String} {jobs : List (Job ℕ)}
    (h : Held {} demoJson store memory queueName jobs)
    (hsame : SameListing {} demoJson store memory queueName filters)
    (htype : ∀ job ∈ jobs, hasType filters job = true)
    (hstatus : ∀ job ∈ jobs, job.status = status) :
    (memory.listJobs queueName filters).length = min filters.pageLimit
      ((statusesOf filters).count status * jobs.length - filters.pageOffset) := by
  obtain ⟨lists, hlists, hperm⟩ := h.collected filters (statusesOf filters)
  rw [SameListing, RedisQueue.listJobs, hlists] at hsame
  have hlength := congrArg List.length (Except.ok.inj hsame)
  rw [List.length_map, List.length_map] at hlength
  have hall : jobs.filter (hasType filters) = jobs := List.filter_eq_self.mpr htype
  have hflatten := hperm.length_eq
  rw [hall, List.length_map, List.length_map, length_classes hstatus] at hflatten
  rw [← hlength, length_page, ← hflatten]
  split
  · rfl
  · rw [(sort_perm _ _).length_eq]

/-- An empty type: the storage in memory has no such job, the one over Redis takes them all. -/
lemma not_adapterFree_of_emptyType (htype : filters.jobType = some "")
    (hlimit : 0 < filters.pageLimit) (hstatus : status ∈ statusesOf filters) :
    ¬ AdapterFree filters := by
  intro hfree
  have hheld := held_sample "t" status none (filters.pageOffset + 1)
  have hlength := hheld.length_of_sameListing (hfree _ _ _ _ _ _ _ hheld)
    (fun job _ => by rw [hasType, htype]; rfl) fun job hjob => (mem_sample hjob).2
  have hempty : (memoryOf "q" (sample "t" status none (filters.pageOffset + 1))).listJobs "q"
      filters = filters.page [] := by
    rw [InMemoryStorage.listJobs, filter_status, htype, queueJobs_memoryOf nodup_sample_ids]
    dsimp only
    rw [List.filter_eq_nil_iff.mpr fun job hjob h => ?_]
    · rw [sort, List.mergeSort_nil]
    · rw [(mem_sample (List.mem_filter.mp hjob).1).1] at h
      exact absurd h (by decide)
  rw [hempty, length_page, length_sample, List.length_nil] at hlength
  have hcount := List.count_pos_iff.mpr hstatus
  have hle := Nat.le_mul_of_pos_left (filters.pageOffset + 1) hcount
  omega

/-- A status that is given twice: the storage over Redis returns its jobs twice. -/
lemma not_adapterFree_of_duplicate (htype : filters.jobType ≠ some "")
    (hlimit : 0 < filters.pageLimit) (hstatus : 2 ≤ (statusesOf filters).count status)
    (hpage : ¬ (filters.pageOffset = 0 ∧ filters.pageLimit = 1)) : ¬ AdapterFree filters := by
  intro hfree
  have hheld := held_sample (filters.jobType.getD "t") status none (max filters.pageOffset 1)
  have hall : ∀ job ∈ sample (filters.jobType.getD "t") status none (max filters.pageOffset 1),
      hasType filters job = true := by
    intro job hjob
    rw [hasType, (mem_sample hjob).1]
    cases filters.jobType <;> simp
  have hlength := hheld.length_of_sameListing (hfree _ _ _ _ _ _ _ hheld) hall
    fun job hjob => (mem_sample hjob).2
  have hstatuses : ∀ job ∈ sample (filters.jobType.getD "t") status none
      (max filters.pageOffset 1), job.status ∈ statusesOf filters := by
    intro job hjob
    rw [(mem_sample hjob).2]
    exact List.count_pos_iff.mp (Nat.lt_of_lt_of_le Nat.zero_lt_two hstatus)
  rw [memory_listJobs_eq htype, length_page, (sort_perm _ _).length_eq,
    queueJobs_memoryOf nodup_sample_ids, List.filter_eq_self.mpr hall,
    List.filter_eq_self.mpr fun job hjob => decide_eq_true (hstatuses job hjob),
    length_sample] at hlength
  have hle := Nat.mul_le_mul_right (max filters.pageOffset 1) hstatus
  omega

/-- The scores of a row increase, also where its times decrease. -/
lemma score_sampleJob_lt {i j : ℕ} (hij : i < j) (hj : j < n) :
    jobScore (sampleJob type status sortOrder n i).priority
        (sampleJob type status sortOrder n i).queuedAt <
      jobScore (sampleJob type status sortOrder n j).priority
        (sampleJob type status sortOrder n j).queuedAt := by
  obtain ⟨d, rfl⟩ := Nat.exists_eq_add_of_lt hij
  obtain ⟨r, rfl⟩ := Nat.exists_eq_add_of_lt hj
  simp only [sampleJob, jobScore]
  split
  next =>
    have hi : i + d + 1 + r + 1 - 1 - i = d + 1 + r := by omega
    have hj : i + d + 1 + r + 1 - 1 - (i + d + 1) = r := by omega
    have hd : (0 : ℚ) ≤ d := Nat.cast_nonneg d
    rw [hi, hj]
    push_cast
    linarith
  next =>
    have hd : (0 : ℚ) ≤ d := Nat.cast_nonneg d
    push_cast
    linarith

lemma zrange_sample (type : String) (status : JobStatus) (sortOrder : Option SortOrder) (n : ℕ) :
    (enqueueAll {} demoJson "q" (sample type status sortOrder n)).zrange
        (({} : RedisQueueAdapter).buildQueueKey "q" status) =
      (sample type status sortOrder n).map Job.id := by
  have hall : (sample type status sortOrder n).filter (·.status = status) =
      sample type status sortOrder n :=
    List.filter_eq_self.mpr fun job hjob => decide_eq_true (mem_sample hjob).2
  have hentries := @entries_enqueueAll _ {} demoJson "q" (sample type status sortOrder n)
    nodup_sample_ids status
  rw [hall] at hentries
  rw [Redis.Store.zrange_of_pairwise, OrdMap.keys, hentries, List.map_map]
  · rfl
  · rw [hentries, sample, List.map_map, List.pairwise_map]
    refine List.pairwise_lt_range.imp_of_mem fun {i j} _ hj hij => ?_
    exact score_sampleJob_lt hij (List.mem_range.mp hj)

/-- In memory a row comes out the other way round. -/
lemma sort_sample :
    sort (byKey (timeOf filters)) ((sample type status filters.sortOrder n).map stamp) =
      ((sample type status filters.sortOrder n).map stamp).reverse := by
  rw [sort_eq_of_perm (List.reverse_perm _).symm fun s hs s' hs' =>
    (held_sample type status filters.sortOrder n).timeOf_inj hs hs', sort_of_pairwise]
  rw [List.pairwise_reverse, sample, List.map_map, List.pairwise_map]
  refine List.pairwise_lt_range.imp fun {i j} hij => ?_
  simp only [Function.comp_apply, stamp, sampleJob, timeOf]
  split <;> omega

lemma head?_page (hlimit : 0 < filters.pageLimit) {α : Type} (l : List α) :
    (filters.page l).head? = l[filters.pageOffset]? := by
  rw [JobFilters.page, List.head?_take, if_neg hlimit.ne', List.head?_drop]

lemma getElem?_sample_ids {i : ℕ} (hi : i < n) :
    ((sample type status sortOrder n).map Job.id)[i]? =
      some (sampleJob type status sortOrder n i).id := by
  rw [sample, List.map_map, List.getElem?_map, List.getElem?_range hi]
  rfl

/-- The first job of a page of a row in memory. -/
lemma head?_memory_sample (htype : filters.jobType ≠ some "") (hlimit : 0 < filters.pageLimit)
    (hstatus : status ∈ statusesOf filters) (hsort : filters.sortBy = none)
    (hn : n = 2 * filters.pageOffset + 2) (hall : ∀ job ∈ sample type status filters.sortOrder n,
      hasType filters job = true) :
    (((memoryOf "q" (sample type status filters.sortOrder n)).listJobs "q" filters).map
        Job.id).head? =
      some (sampleJob type status filters.sortOrder n (filters.pageOffset + 1)).id := by
  have hstatuses : ∀ job ∈ sample type status filters.sortOrder n,
      job.status ∈ statusesOf filters := fun job hjob => (mem_sample hjob).2 ▸ hstatus
  have hsorted := map_stamp_sort_jobs filters (sample type status filters.sortOrder n)
  rw [sort_sample, ← List.map_reverse] at hsorted
  have hat : n - 1 - filters.pageOffset = filters.pageOffset + 1 := by omega
  rw [memory_listJobs_eq htype, hsort, queueJobs_memoryOf nodup_sample_ids,
    List.filter_eq_self.mpr hall,
    List.filter_eq_self.mpr fun job hjob => decide_eq_true (hstatuses job hjob), map_page,
    Option.getD_none, ids_of_stamps hsorted, head?_page hlimit, List.map_reverse,
    List.getElem?_reverse (by rw [List.length_map, length_sample]; omega), List.length_map,
    length_sample, hat, getElem?_sample_ids (by omega)]

/-- Where no order is asked for, the storage over Redis returns the row as it is. -/
lemma not_adapterFree_of_unsorted (htype : filters.jobType ≠ some "")
    (hlimit : 0 < filters.pageLimit) {statuses : List JobStatus}
    (hstatus : statusesOf filters = status :: statuses) (hsort : filters.sortBy = none) :
    ¬ AdapterFree filters := by
  intro hfree
  obtain ⟨n, hn⟩ : ∃ n, n = 2 * filters.pageOffset + 2 := ⟨_, rfl⟩
  obtain ⟨type, ht⟩ : ∃ type, type = filters.jobType.getD "t" := ⟨_, rfl⟩
  have hheld := held_sample type status filters.sortOrder n
  have hsame := hfree _ _ _ _ _ _ _ hheld
  have hall : ∀ job ∈ sample type status filters.sortOrder n, hasType filters job = true := by
    intro job hjob
    rw [hasType, (mem_sample hjob).1, ht]
    cases filters.jobType <;> simp
  obtain ⟨listed, hlisted, hstamps⟩ := jobsOf_of_zrange filters
    (zrange_sample type status filters.sortOrder n) hheld.read
  rw [List.filter_eq_self.mpr hall] at hstamps
  obtain ⟨lists, hlists, -⟩ := hheld.collected filters statuses
  have hredis : (statusesOf filters).mapM (RedisQueue.jobsOf {} demoJson
      (enqueueAll {} demoJson "q" (sample type status filters.sortOrder n)) "q" filters) =
        .ok (listed :: lists) := by
    rw [hstatus, List.mapM_cons, hlisted, hlists]
    rfl
  rw [SameListing, RedisQueue.listJobs, hredis, hsort] at hsame
  have hids : (filters.page (listed ++ lists.flatten)).map Job.id =
      ((memoryOf "q" (sample type status filters.sortOrder n)).listJobs "q" filters).map Job.id :=
    Except.ok.inj hsame
  have hfirst : ((filters.page (listed ++ lists.flatten)).map Job.id).head? =
      some (sampleJob type status filters.sortOrder n filters.pageOffset).id := by
    have hlength : filters.pageOffset <
        ((sample type status filters.sortOrder n).map Job.id).length := by
      rw [List.length_map, length_sample]
      omega
    rw [map_page, head?_page hlimit, List.map_append, ids_of_stamps hstamps,
      List.getElem?_append_left hlength, getElem?_sample_ids (by omega)]
  rw [hids, head?_memory_sample htype hlimit (hstatus ▸ List.mem_cons_self) hsort hn hall]
    at hfirst
  exact absurd (sampleJob_id_inj (Option.some.inj hfirst)) (by omega)

end Samples

/-- **The listing does not depend on the adapter exactly if the filters decide the order**, where
the order by time is asked for or none. -/
theorem adapterFree_iff {filters : JobFilters}
    (hsort : filters.sortBy = none ∨ filters.sortBy = some .queuedAt) :
    AdapterFree filters ↔ Decided filters := by
  constructor
  · intro hfree
    by_contra hnot
    simp only [Decided, not_or, not_and] at hnot
    obtain ⟨hlimit, hstatus, hunique⟩ := hnot
    have hpositive : 0 < filters.pageLimit := by
      rw [JobFilters.pageLimit]
      cases hl : filters.limit with
      | none => decide
      | some limit =>
          rw [hl] at hlimit
          exact Nat.pos_of_ne_zero fun he => hlimit (congrArg some he)
    obtain ⟨status, statuses, hstatuses⟩ :
        ∃ status statuses, statusesOf filters = status :: statuses := by
      rw [statusesOf]
      cases hs : filters.status with
      | none => exact ⟨_, _, rfl⟩
      | some given =>
          rw [hs] at hstatus
          exact List.exists_cons_of_ne_nil fun he => hstatus (congrArg some he)
    by_cases htype : filters.jobType = some ""
    · exact not_adapterFree_of_emptyType htype hpositive
        (hstatuses ▸ List.mem_cons_self) hfree
    rcases hsort with hnone | htime
    · exact not_adapterFree_of_unsorted htype hpositive hstatuses hnone hfree
    · obtain ⟨hdup, hfirst⟩ := hunique htime htype
      obtain ⟨twice, htwice⟩ := List.exists_duplicate_iff_not_nodup.mpr hdup
      refine not_adapterFree_of_duplicate htype hpositive
        (List.duplicate_iff_two_le_count.mp htwice) (fun hpage => hfirst hpage.1 ?_) hfree
      have hone := hpage.2
      rw [JobFilters.pageLimit] at hone
      cases hl : filters.limit with
      | none => rw [hl] at hone; cases hone
      | some limit => rw [hl] at hone; exact congrArg some hone
  · intro hdecided V cfg json store memory queueName jobs hheld
    exact hheld.sameListing hdecided

/-- The second page of two jobs, the oldest first. -/
theorem adapterFree_iff_oldestFirst : AdapterFree
    { limit := some 2, offset := some 2, sortBy := some .queuedAt, sortOrder := some .asc } :=
  (adapterFree_iff (.inr rfl)).mpr (by decide)

/-- Two queued jobs of one priority, listed without filters: the storage in memory returns the
newer one first, the one over Redis the older one. -/
theorem not_adapterFree :
    ¬ ∀ filters : JobFilters,
      filters.sortBy = none ∨ filters.sortBy = some .queuedAt → AdapterFree filters := by
  intro h
  have hfree : AdapterFree {} := h {} (.inl rfl)
  exact not_adapterFree_of_unsorted (by decide) (by decide) rfl rfl hfree

end Blaize.RedisQueue
