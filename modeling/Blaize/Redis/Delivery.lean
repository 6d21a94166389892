import Blaize.Redis.Board

/-!
One winner for each delivery.

As long as nobody calls `updateJob`, the events of a job follow one another as the scripts
say: it is enqueued once, dequeued when it is queued, and completed or failed by the one call
that finds it running.

* `Ordered`: the histories in which every event follows the event it needs;
* `Slot.Since`: what the board says after an event;
* `one_winner_per_delivery`: **between two deliveries of a job there is a retry, each delivery
  is settled at most once, and every job is in the one set that its hash names**.
-/

namespace Blaize.RedisQueue

open Machine Blaize.Queue

variable {V : Type}

/-! ### Histories -/

/-- The events after which an event can happen, by the last event of its job. -/
def Event.Follows : Event → Option Event → Prop
  | .enqueued _, last => last = none
  | .dequeued id, last => last = some (.enqueued id) ∨ last = some (.failed id .retry)
  | .completed id, last => last = some (.dequeued id)
  | .failed id _, last => last = some (.dequeued id)
  | .moved _ _, _ => False

/-- Every event of the history follows the event that it needs. -/
def Ordered : List Event → Prop
  | [] => True
  | event :: trace => event.Follows (lastEvent trace event.jobId) ∧ Ordered trace

/-- The calls that settle a delivery of the job. -/
def Event.settles (id : String) : Event → Bool
  | .completed jobId => jobId = id
  | .failed jobId _ => jobId = id
  | _ => false

lemma Event.jobId_of_settles {id : String} {event : Event} (h : event.settles id = true) :
    event.jobId = id := by
  cases event with
  | completed jobId => exact of_decide_eq_true h
  | failed jobId outcome => exact of_decide_eq_true h
  | enqueued jobId => cases h
  | dequeued jobId => cases h
  | moved jobId delayed => cases h

/-- An earlier part of a history in order is in order. -/
lemma Ordered.of_append {later trace : List Event} (h : Ordered (later ++ trace)) :
    Ordered trace := by
  induction later with
  | nil => exact h
  | cons event later ih => exact ih h.2

/-- An event of a job has followed the one before. -/
lemma Ordered.follows {trace later : List Event} {event : Event}
    (h : Ordered (later ++ event :: trace)) :
    event.Follows (lastEvent trace event.jobId) ∧ Ordered trace := h.of_append

/-- The last event of a job that has one in the later part of a history is there. -/
lemma lastEvent_append {later : List Event} (earlier : List Event) {id : String} {event : Event}
    (hm : event ∈ later) (hid : event.jobId = id) :
    ∃ last ∈ later, lastEvent (later ++ earlier) id = some last := by
  cases hf : later.find? (·.jobId = id) with
  | none => exact absurd (List.find?_eq_none.mp hf event hm) (by simpa using hid)
  | some last =>
      refine ⟨last, List.mem_of_find?_eq_some hf, ?_⟩
      rw [lastEvent, List.find?_append, hf]
      rfl

/-- Between two deliveries of a job it was failed for a retry. -/
lemma Ordered.retry_between {later mid earlier : List Event} {id : String}
    (h : Ordered (later ++ .dequeued id :: (mid ++ .dequeued id :: earlier))) :
    Event.failed id .retry ∈ mid := by
  obtain ⟨hfollows, hordered⟩ := h.follows
  have hfollows : lastEvent (mid ++ .dequeued id :: earlier) id = some (.enqueued id) ∨
      lastEvent (mid ++ .dequeued id :: earlier) id = some (.failed id .retry) := hfollows
  rw [lastEvent, List.find?_append] at hfollows
  cases hf : mid.find? (·.jobId = id) with
  | none =>
      have hself : (Event.dequeued id :: earlier).find? (·.jobId = id) = some (.dequeued id) :=
        lastEvent_cons_self (.dequeued id) earlier
      rw [hf, Option.none_or, hself] at hfollows
      rcases hfollows with he | he <;> cases he
  | some last =>
      rw [hf] at hfollows
      have hmem := List.mem_of_find?_eq_some hf
      rcases hfollows with he | he <;> obtain rfl := Option.some.inj he
      · -- a job that has been delivered is not enqueued again
        obtain ⟨mid₁, mid₂, rfl⟩ := List.append_of_mem hmem
        have hnone : lastEvent (mid₂ ++ .dequeued id :: earlier) id = none := by
          rw [List.append_assoc, List.cons_append] at hordered
          exact hordered.follows.1
        exact absurd (decide_eq_true rfl) (List.find?_eq_none.mp hnone (.dequeued id) (by simp))
      · exact hmem

/-- A delivery is settled at most once before the next one. -/
lemma Ordered.settled_once {mid earlier : List Event} {id : String}
    (h : Ordered (mid ++ .dequeued id :: earlier)) (hmid : Event.dequeued id ∉ mid) :
    mid.countP (Event.settles id) ≤ 1 := by
  induction mid with
  | nil => simp
  | cons event mid ih =>
      have hmid' : Event.dequeued id ∉ mid := fun hm => hmid (List.mem_cons_of_mem _ hm)
      cases hs : event.settles id with
      | false =>
          rw [List.countP_cons_of_neg (by simp [hs])]
          exact ih h.2 hmid'
      | true =>
          -- the event follows the delivery itself, so none before it has settled it
          have hid := Event.jobId_of_settles hs
          have hlast : lastEvent (mid ++ .dequeued id :: earlier) id = some (.dequeued id) := by
            have hfollows := h.1
            rw [hid] at hfollows
            cases event with
            | completed jobId => exact hid ▸ hfollows
            | failed jobId outcome => exact hid ▸ hfollows
            | enqueued jobId => cases hs
            | dequeued jobId => cases hs
            | moved jobId delayed => cases hs
          have hzero : mid.countP (Event.settles id) = 0 := by
            rw [List.countP_eq_zero]
            intro e he hse
            obtain ⟨last, hl, heq⟩ := lastEvent_append (.dequeued id :: earlier) he
              (Event.jobId_of_settles hse)
            rw [hlast] at heq
            obtain rfl := Option.some.inj heq
            exact hmid' hl
          rw [List.countP_cons_of_pos hs, hzero]

/-! ### Histories and boards -/

/-- What the last event of a job says about its place. -/
def Slot.Since (id : String) : Slot → Option Event → Prop
  | .absent, last => last = none
  | .inSet _ .queued, last => last = some (.enqueued id) ∨ last = some (.failed id .retry)
  | .inSet _ .running, last => last = some (.dequeued id)
  | .inSet _ .completed, last => last = some (.completed id)
  | .inSet _ .failed, last => last = some (.failed id .failed)
  | .inSet _ .cancelled, _ => False
  | .waiting _, _ => False

/-- The board says what the history says, and the history is in order. -/
structure Recorded (board : Board) (trace : List Event) : Prop where
  since : ∀ id, (board id).Since id (lastEvent trace id)
  ordered : Ordered trace

lemma Recorded.init : Recorded (fun _ => .absent) [] where
  since _ := rfl
  ordered := trivial

/-- A board step that is not an update is recorded. -/
lemma Recorded.step {board board' : Board} {trace : List Event} {event : Event}
    (h : Recorded board trace) (hb : BoardStep board event board') (hmove : event.isMove = false) :
    Recorded board' (event :: trace) := by
  -- the event is the last one of its job, the other jobs keep theirs
  have key : ∀ {slot : Slot}, slot.Since event.jobId (some event) → ∀ id,
      (Function.update board event.jobId slot id).Since id (lastEvent (event :: trace) id) := by
    intro slot hslot id
    by_cases he : id = event.jobId
    · subst he
      rw [Function.update_self, lastEvent_cons_self]
      exact hslot
    · rw [Function.update_of_ne he, lastEvent_cons_of_ne (Ne.symm he)]
      exact h.since id
  have hlast : ∀ {slot : Slot}, board event.jobId = slot → slot.Since event.jobId
      (lastEvent trace event.jobId) := fun hs => hs ▸ h.since event.jobId
  cases hb with
  | enqueued q hb => exact ⟨key (Or.inl rfl), hlast hb, h.ordered⟩
  | dequeued hb => exact ⟨key rfl, hlast hb, h.ordered⟩
  | completed hb => exact ⟨key rfl, hlast hb, h.ordered⟩
  | failed outcome hb =>
      cases outcome with
      | retry => exact ⟨key (Or.inr rfl), hlast hb, h.ordered⟩
      | failed => exact ⟨key rfl, hlast hb, h.ordered⟩
  | moved s' hb => cases hmove
  | delayed hb => cases hmove

namespace Cluster

variable {cfg : RedisQueueAdapter} {json : Json V}

/-- A state without updates: on a board that the history explains. -/
def Explained (cfg : RedisQueueAdapter) (c : Cluster V) : Prop :=
  (∃ board, OnBoard cfg c board ∧ Recorded board c.trace) ∧ ∀ call ∈ c.calls, call.isUpdate = false

lemma Explained.init : Explained cfg ({} : Cluster V) :=
  ⟨⟨_, OnBoard.init, Recorded.init⟩, fun _ hc => by cases hc⟩

/-- **One step without updates keeps the history explained.** -/
lemma Explained.step {c c' : Cluster V} {a : Action V} (h : Explained cfg c)
    (ha : a.isUpdate = false) (hstep : c.step cfg json a = some c') : Explained cfg c' := by
  obtain ⟨⟨board, hon, hrec⟩, hcalls⟩ := h
  have hfinds : c.FindsItsJob a := by
    cases a with
    | resume i now =>
        rw [FindsItsJob]
        split
        next hi => exact absurd (hcalls _ (List.mem_of_getElem? hi)) (by simp [Call.isUpdate])
        next => trivial
    | _ => trivial
  obtain ⟨board', hon', hadv⟩ := step_board hon hfinds hstep
  refine ⟨⟨board', hon', ?_⟩, fun call hm => ?_⟩
  · rcases hadv with ⟨rfl, htrace⟩ | ⟨event, hb, htrace, hmove⟩
    · rw [htrace]
      exact hrec
    · rw [htrace]
      refine hrec.step hb (eq_false_of_ne_true fun he => ?_)
      obtain ⟨call, hm, hu⟩ := hmove he
      rw [hcalls call hm] at hu
      cases hu
  · refine eq_false_of_ne_true fun hu => ?_
    have := hcalls call (step_calls hstep ha hm hu)
    rw [hu] at this
    cases this

lemma explained_of_run {as : List (Action V)} {c : Cluster V}
    (hno : ∀ a ∈ as, a.isUpdate = false) (hrun : exec (step cfg json) {} as = some c) :
    Explained cfg c := by
  refine meets_invariant (P := fun _ a => a.isUpdate = false)
    (fun s a s' h ha hs => h.step ha hs) Explained.init ?_ hrun
  refine meets_of_forall_initial fun bs a cs t he ht => hno a ?_
  rw [he]
  simp

/-- **At most one winner for each delivery.**  In every run of any number of clients that
enqueue, dequeue, complete and fail jobs: between two deliveries of a job there is a `failJob`
that answered `retry`; after each delivery, up to the next, at most one `completeJob` or
`failJob` takes effect; and every enqueued job is in exactly one sorted set, that of the queue
and of the status which its hash names, and the status is not `cancelled`. -/
theorem one_winner_per_delivery {as : List (Action V)} {c : Cluster V}
    (hno : ∀ a ∈ as, a.isUpdate = false) (hrun : exec (step cfg json) {} as = some c) :
    (∀ id earlier mid later,
        c.trace.reverse = earlier ++ .dequeued id :: (mid ++ .dequeued id :: later) →
        Event.failed id .retry ∈ mid) ∧
      (∀ id earlier mid later,
        c.trace.reverse = earlier ++ .dequeued id :: (mid ++ later) → Event.dequeued id ∉ mid →
        mid.countP (Event.settles id) ≤ 1) ∧
      ∀ id, Event.enqueued id ∈ c.trace →
        ∃ q s, c.store.hget (buildJobKey id) "queueName" = some q ∧
          c.store.hget (buildJobKey id) "status" = some (statusText s) ∧ s ≠ .cancelled ∧
          ∀ q' s', (c.store.zscore (cfg.buildQueueKey q' s') id).isSome = true ↔
            q' = q ∧ s' = s := by
  obtain ⟨⟨board, hon, hrec⟩, -⟩ := explained_of_run hno hrun
  refine ⟨fun id earlier mid later ht => ?_, fun id earlier mid later ht hmid => ?_,
    fun id hid => ?_⟩
  · have htrace : c.trace =
        later.reverse ++ .dequeued id :: (mid.reverse ++ .dequeued id :: earlier.reverse) := by
      rw [← List.reverse_reverse c.trace, ht]
      simp
    have hord := hrec.ordered
    rw [htrace] at hord
    exact List.mem_reverse.mp hord.retry_between
  · have htrace : c.trace = later.reverse ++ (mid.reverse ++ .dequeued id :: earlier.reverse) := by
      rw [← List.reverse_reverse c.trace, ht]
      simp
    have hord : Ordered (mid.reverse ++ .dequeued id :: earlier.reverse) := by
      have hord := hrec.ordered
      rw [htrace] at hord
      exact hord.of_append
    have := hord.settled_once (fun hm => hmid (List.mem_reverse.mp hm))
    rwa [List.countP_reverse] at this
  · have hsome : lastEvent c.trace id ≠ none := by
      intro hn
      exact absurd (decide_eq_true rfl) (List.find?_eq_none.mp hn _ hid)
    have hsince := hrec.since id
    cases hb : board id with
    | absent =>
        rw [hb] at hsince
        exact absurd hsince hsome
    | waiting q =>
        rw [hb] at hsince
        exact hsince.elim
    | inSet q s =>
        refine ⟨q, s, hon.store.queueName (by rw [hb]; rfl), hon.store.status (by rw [hb]; rfl),
          ?_, fun q' s' => ?_⟩
        · rintro rfl
          rw [hb] at hsince
          exact hsince
        · rw [hon.store.member, hb, Slot.inSet.injEq, eq_comm, @eq_comm _ s]

/-- A job is delivered, two workers fail and complete it at the same time, and it is
delivered again. -/
def raceAndRetry : List (Action ℕ) :=
  [.enqueue "q" demoJob, .dequeue "q" 1, .failJob "a" "boom", .completeJob "a" none, .resume 2 2,
    .resume 3 3, .dequeue "q" 4]

theorem one_winner_per_delivery_race :
    ∃ c, exec (step {} demoJson) {} raceAndRetry = some c ∧
      c.trace.reverse = [.enqueued "a", .dequeued "a", .failed "a" .retry, .dequeued "a"] ∧
      Event.failed "a" .retry ∈ [Event.failed "a" .retry] ∧
      ∃ q s, c.store.hget (buildJobKey "a") "queueName" = some q ∧
        c.store.hget (buildJobKey "a") "status" = some (statusText s) ∧ s ≠ .cancelled ∧
        ∀ q' s', (c.store.zscore (({} : RedisQueueAdapter).buildQueueKey q' s') "a").isSome = true ↔
          q' = q ∧ s' = s := by
  have hno : ∀ a ∈ raceAndRetry, a.isUpdate = false := by decide
  obtain ⟨c, hc, ht⟩ : ∃ c, exec (step {} demoJson) {} raceAndRetry = some c ∧
      c.trace = [.dequeued "a", .failed "a" .retry, .dequeued "a", .enqueued "a"] := ⟨_, rfl, rfl⟩
  obtain ⟨hretry, -, hset⟩ := one_winner_per_delivery hno hc
  refine ⟨c, hc, by rw [ht]; rfl, ?_, hset "a" (by rw [ht]; decide)⟩
  exact hretry "a" [.enqueued "a"] [.failed "a" .retry] [] (by rw [ht]; rfl)

end Cluster

end Blaize.RedisQueue
