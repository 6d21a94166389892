import Mathlib.Algebra.GroupWithZero.Nat
import Mathlib.Data.List.MinMax
import Blaize.Lib.Machine
import Blaize.Queue.Storage

/-!
The order of the priority queue (`plugins/queue/src/priority-queue.ts`).

The heap is only known to hand out an item of maximal score.

* `step`: the calls of `enqueue` and `dequeue`, with the item that the heap picks;
* `score_lt_iff`: the score orders by priority and then by time, while the clock stays within
  the multiplier;
* `sublist_enqueued`: the items of the queue, in the order of their calls;
* `IsFirst`: the item that is due;
* `Untied`: no other item shares the priority and the millisecond of the one that is due;
* `first_iff_untied`: **the queue is sure to hand out the item that is due if and only if it is
  untied**.
-/

namespace Blaize.Queue.PriorityQueue

variable {T : Type}

/-! ### Calls -/

/-- `dequeue()`; of the empty queue it is `undefined`. -/
def dequeueAt (queue : PriorityQueue T) (pick : ℕ) : Option (Option T × PriorityQueue T) :=
  if queue = [] then some (none, queue)
  else (takeAt queue pick).map fun (item, rest) => (some item, rest)

inductive Call (T : Type) where
  | enqueue (item : T) (priority : ℤ) (now : ℕ)
  | dequeue (pick : ℕ)

/-- `none`: the heap does not pick this item. -/
def step (queue : PriorityQueue T) : Call T → Option (PriorityQueue T)
  | .enqueue item priority now => some (queue.enqueue item priority now)
  | .dequeue pick => (dequeueAt queue pick).map Prod.snd

/-- The items that were enqueued, in the order of the calls. -/
def enqueued (calls : List (Call T)) : List (PriorityQueueItem T) :=
  calls.filterMap fun
    | .enqueue item priority now => some ⟨priority, item, now⟩
    | .dequeue _ => none

/-- The clock does not go back, and its readings are less than 10^12 ms apart. -/
def Clocked (items : List (PriorityQueueItem T)) : Prop :=
  items.Pairwise fun a b => a.enqueuedAt ≤ b.enqueuedAt ∧ b.enqueuedAt < a.enqueuedAt + 10 ^ 12

/-! ### What is due -/

/-- Comes before by priority, and then by time. -/
def Ahead (a b : PriorityQueueItem T) : Prop :=
  b.priority < a.priority ∨ a.priority = b.priority ∧ a.enqueuedAt < b.enqueuedAt

/-- An item of the highest priority, of which all those before it have a lower one. -/
structure IsFirst (queue : PriorityQueue T) (pick : ℕ) (item : PriorityQueueItem T) : Prop where
  here : queue[pick]? = some item
  highest : ∀ other ∈ queue, other.priority ≤ item.priority
  first : ∀ (j : ℕ) other, j < pick → queue[j]? = some other → other.priority < item.priority

/-- Of two items with the same priority and millisecond neither is due. -/
def Untied (queue : PriorityQueue T) : Prop :=
  ∀ (i j : ℕ) a b, i < j → queue[i]? = some a → queue[j]? = some b → a.priority = b.priority →
    a.enqueuedAt = b.enqueuedAt → ∃ other ∈ queue, Ahead other a

/-- What a dequeue should be: whatever the heap picks, it is the item that is due. -/
def HandsOutFirst (queue : PriorityQueue T) : Prop :=
  ∀ pick data rest, dequeueAt queue pick = some (some data, rest) →
    ∃ item, IsFirst queue pick item ∧ data = item.data

/-! ### Scores -/

/-- **The score orders by priority and then by time**, within 10^12 ms. -/
lemma score_lt_iff {a b : PriorityQueueItem T} (hab : a.enqueuedAt < b.enqueuedAt + 10 ^ 12)
    (hba : b.enqueuedAt < a.enqueuedAt + 10 ^ 12) : b.score < a.score ↔ Ahead a b := by
  simp only [PriorityQueueItem.score, calculateScore, PRIORITY_MULTIPLIER, Ahead]
  omega

/-- Readings of one clock are close to each other. -/
lemma Clocked.close {items : List (PriorityQueueItem T)} (h : Clocked items)
    {a b : PriorityQueueItem T} (ha : a ∈ items) (hb : b ∈ items) :
    a.enqueuedAt < b.enqueuedAt + 10 ^ 12 := by
  obtain ⟨i, hi, rfl⟩ := List.getElem_of_mem ha
  obtain ⟨j, hj, rfl⟩ := List.getElem_of_mem hb
  rcases Nat.lt_trichotomy i j with hij | rfl | hij
  · have hle := (List.pairwise_iff_getElem.mp h i j hi hj hij).1
    omega
  · omega
  · exact (List.pairwise_iff_getElem.mp h j i hj hi hij).2

/-! ### Runs -/

/-- **The queue holds items in the order in which they were enqueued.** -/
lemma sublist_enqueued {calls : List (Call T)} {start queue : PriorityQueue T}
    (h : Machine.exec step start calls = some queue) : queue.Sublist (start ++ enqueued calls) := by
  induction calls generalizing start with
  | nil =>
      obtain rfl : start = queue := by simpa using h
      simp [enqueued]
  | cons call calls ih =>
      rw [Machine.exec_cons] at h
      obtain ⟨next, hnext, h⟩ := Option.bind_eq_some_iff.mp h
      have hrest := ih h
      cases call with
      | enqueue item priority now =>
          obtain rfl := Option.some.inj hnext
          rw [enqueue, List.append_assoc] at hrest
          exact hrest
      | dequeue pick =>
          have hnext' : next.Sublist start := by
            rw [step, dequeueAt] at hnext
            split at hnext
            · exact (Option.some.inj hnext) ▸ List.Sublist.refl _
            · obtain ⟨p, hp, rfl⟩ := Option.map_eq_some_iff.mp hnext
              obtain ⟨⟨data, rest⟩, htake, rfl⟩ := Option.map_eq_some_iff.mp hp
              obtain ⟨item, -, -, -, rfl⟩ := takeAt_eq_some htake
              exact List.eraseIdx_sublist _ _
          exact hrest.trans (hnext'.append (List.Sublist.refl _))

/-- What the heap may pick: an item that no other one is ahead of. -/
lemma takeAt_isSome_iff {queue : PriorityQueue T} (h : Clocked queue) {pick : ℕ}
    {item : PriorityQueueItem T} (hitem : queue[pick]? = some item) :
    takeAt queue pick = some (item.data, queue.eraseIdx pick) ↔
      ∀ other ∈ queue, ¬ Ahead other item := by
  have hmem : item ∈ queue := List.mem_of_getElem? hitem
  have hscore : ∀ other ∈ queue, other.score ≤ item.score ↔ ¬ Ahead other item := by
    intro other hother
    rw [← score_lt_iff (h.close hother hmem) (h.close hmem hother), Int.not_lt]
  have hall : (∀ other ∈ queue, other.score ≤ item.score) ↔ ∀ other ∈ queue, ¬ Ahead other item :=
    forall₂_congr hscore
  rw [← hall, takeAt, hitem]
  dsimp only
  constructor
  · intro htake
    by_contra hmax
    rw [if_neg hmax] at htake
    cases htake
  · intro hmax
    rw [if_pos hmax]

/-! ### The order -/

/-- A queue that is not empty has an item that the heap may pick. -/
lemma exists_takeAt {queue : PriorityQueue T} (hne : queue ≠ []) :
    ∃ pick item, queue[pick]? = some item ∧
      takeAt queue pick = some (item.data, queue.eraseIdx pick) := by
  obtain ⟨item, hitem⟩ : ∃ item, queue.argmax PriorityQueueItem.score = some item :=
    Option.ne_none_iff_exists'.mp fun h => hne (List.argmax_eq_none.mp h)
  obtain ⟨pick, hpick⟩ := List.mem_iff_getElem?.mp (List.argmax_mem hitem)
  have hmax : ∀ other ∈ queue, other.score ≤ item.score := fun other hother =>
    List.le_of_mem_argmax hother hitem
  refine ⟨pick, item, hpick, ?_⟩
  rw [takeAt, hpick]
  exact if_pos hmax

/-- Of a queue in order, the heap may pick what is due only, exactly if it is untied. -/
lemma handsOutFirst_iff {queue : PriorityQueue T} (h : Clocked queue) :
    HandsOutFirst queue ↔ Untied queue := by
  constructor
  · intro hfirst i j a b hij ha hb hpriority htime
    by_contra hnone
    push Not at hnone
    have hpick : ∀ other ∈ queue, ¬ Ahead other b := by
      intro other hother hahead
      refine hnone other hother ?_
      rw [Ahead, hpriority, htime]
      exact hahead
    have hne : queue ≠ [] := fun hnil => by
      rw [hnil] at ha
      cases ha
    have htake : dequeueAt queue j = some (some b.data, queue.eraseIdx j) := by
      rw [dequeueAt, if_neg hne, (takeAt_isSome_iff h hb).mpr hpick]
      rfl
    obtain ⟨item, hitem, -⟩ := hfirst j b.data _ htake
    have hsame : item = b := Option.some.inj (hitem.here.symm.trans hb)
    have hlt := hitem.first i a hij ha
    rw [hsame, hpriority] at hlt
    exact Int.lt_irrefl _ hlt
  · intro hties pick data rest hdequeue
    rw [dequeueAt] at hdequeue
    split at hdequeue
    · cases hdequeue
    obtain ⟨⟨data', rest'⟩, htake, heq⟩ := Option.map_eq_some_iff.mp hdequeue
    obtain ⟨item, hitem, -, rfl, rfl⟩ := takeAt_eq_some htake
    obtain ⟨rfl, rfl⟩ : item.data = data ∧ queue.eraseIdx pick = rest := by simpa using heq
    have hahead := (takeAt_isSome_iff h hitem).mp htake
    have hhighest : ∀ other ∈ queue, other.priority ≤ item.priority := fun other hother =>
      Int.not_lt.mp fun hlt => hahead other hother (.inl hlt)
    refine ⟨item, ⟨hitem, hhighest, fun j other hj hother => ?_⟩, rfl⟩
    have hmem : other ∈ queue := List.mem_of_getElem? hother
    refine lt_of_le_of_ne (hhighest other hmem) fun hpriority => ?_
    have hearlier : other.enqueuedAt ≤ item.enqueuedAt := by
      obtain ⟨hj', rfl⟩ := List.getElem?_eq_some_iff.mp hother
      obtain ⟨hpick', rfl⟩ := List.getElem?_eq_some_iff.mp hitem
      exact (List.pairwise_iff_getElem.mp h j pick hj' hpick' hj).1
    have htime : other.enqueuedAt = item.enqueuedAt := by
      by_contra hne
      exact hahead other hmem (.inr ⟨hpriority, by omega⟩)
    obtain ⟨better, hbetter, hbefore⟩ := hties j pick other item hj hother hitem hpriority htime
    refine hahead better hbetter ?_
    rw [Ahead, ← hpriority, ← htime]
    exact hbefore

/-- **Every dequeue of a queue that is not empty hands out an item; it is sure to be the one that
is due if and only if the queue is untied.** -/
theorem first_iff_untied {calls : List (Call T)} (hclock : Clocked (enqueued calls))
    {queue : PriorityQueue T} (h : Machine.exec step [] calls = some queue) (hne : queue ≠ []) :
    (∃ pick data rest, dequeueAt queue pick = some (some data, rest)) ∧
      (HandsOutFirst queue ↔ Untied queue) := by
  obtain ⟨pick, item, -, htake⟩ := exists_takeAt hne
  refine ⟨⟨pick, item.data, queue.eraseIdx pick, ?_⟩, handsOutFirst_iff ?_⟩
  · rw [dequeueAt, if_neg hne, htake]
    rfl
  · exact hclock.sublist (sublist_enqueued h)

/-- Two priorities, and the lower one first. -/
def twoPriorities : List (Call String) := [.enqueue "low" 1 0, .enqueue "high" 5 7]

theorem first_twoPriorities :
    ∃ queue, Machine.exec step [] twoPriorities = some queue ∧
      (HandsOutFirst queue ↔ Untied queue) := by
  have hclock : Clocked (enqueued twoPriorities) := by
    simp [Clocked, enqueued, twoPriorities]
  exact ⟨_, rfl, (first_iff_untied hclock rfl (by simp [enqueue])).2⟩

/-- Three items of one millisecond: once the first one is handed out, the binary heap has moved
the last one to its root, and hands that out before the second. -/
theorem not_handsOutFirst : ∃ queue,
    Machine.exec step [] [.enqueue "first" 5 0, .enqueue "second" 5 0, .enqueue "third" 5 0,
        .dequeue 0] = some queue ∧
      dequeueAt queue 1 = some (some "third", [⟨5, "second", 0⟩]) ∧ ¬ HandsOutFirst queue := by
  have hthird : dequeueAt [⟨5, "second", 0⟩, ⟨5, "third", 0⟩] 1 =
      some (some "third", [⟨5, "second", 0⟩]) := by
    simp [dequeueAt, takeAt, PriorityQueueItem.score]
  refine ⟨[⟨5, "second", 0⟩, ⟨5, "third", 0⟩], ?_, hthird, fun h => ?_⟩
  · rfl
  · obtain ⟨item, hitem, -⟩ := h 1 "third" _ hthird
    have hlt := hitem.first 0 ⟨5, "second", 0⟩ (by decide) rfl
    have hhere : ⟨5, "third", 0⟩ = item := Option.some.inj hitem.here
    rw [← hhere] at hlt
    exact Int.lt_irrefl _ hlt

end Blaize.Queue.PriorityQueue
