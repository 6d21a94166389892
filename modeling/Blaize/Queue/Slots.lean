import Blaize.Queue.Supply

/-!
The slots of a queue instance: `runningJobs` and `abortControllers`
(`plugins/queue/src/queue-instance.ts`), over a storage that hands out each job once.

A slot is taken by the loop before `executeJob` starts.  It is given back by the helpers that
return before the `try`, by the `finally`, or by the loop's `catch`.  When the output of a
handler is invalid, `handleValidationFailure` gives it back as well, one turn before the
`finally` takes the controller away.

* `Slotted`: **an invocation for each slot, a slot for each invocation at work, an owner for
  each controller**;
* `Slotted.piece`: a piece of an invocation keeps this;
* `slots_owned`: **no slot leaks**.
-/

namespace Blaize.Queue

open Machine

variable {V : Type}

/-- An `executeJob` invocation for `id` that `q` selects. -/
def OpenTask.isExec (q : ExecPc V → Bool) (id : String) : OpenTask V → Bool
  | .exec jobId pc => jobId = id && q pc
  | _ => false

/-- The invocation stands before its `finally`, with nothing to throw. -/
@[simp] def ExecPc.isDone : ExecPc V → Bool
  | .finishing false => true
  | _ => false

lemma ExecPc.isOpen_of_inTry {pc : ExecPc V} (h : pc.inTry = true) : pc.isOpen = true := by
  cases pc with
  | settled => cases h
  | _ => rfl

lemma ExecPc.isOpen_of_working {pc : ExecPc V} (h : pc.working = true) : pc.isOpen = true := by
  cases pc with
  | settled => cases h
  | _ => rfl

namespace OpenInstance

variable {cfg : QueueConfig V} {s s' : OpenInstance V}

/-- The task number `i` is an `executeJob` invocation for `id` that `q` selects. -/
def execAt (s : OpenInstance V) (q : ExecPc V → Bool) (id : String) (i : ℕ) : Bool :=
  (s.tasks[i]?).any (OpenTask.isExec q id)

lemma execAt_iff {q : ExecPc V → Bool} {id : String} {i : ℕ} :
    s.execAt q id i = true ↔ ∃ pc, s.tasks[i]? = some (.exec id pc) ∧ q pc = true := by
  rw [execAt]
  cases hi : s.tasks[i]? with
  | none => simp
  | some t =>
      cases t with
      | exec jobId pc =>
          simp only [Option.any_some, OpenTask.isExec, Bool.and_eq_true, decide_eq_true_eq,
            Option.some.injEq, OpenTask.exec.injEq]
          constructor
          · rintro ⟨rfl, hq⟩
            exact ⟨pc, ⟨rfl, rfl⟩, hq⟩
          · rintro ⟨pc', ⟨rfl, rfl⟩, hq⟩
            exact ⟨rfl, hq⟩
      | _ => simp [OpenTask.isExec]

lemma execAt_mono {q q' : ExecPc V → Bool} {id : String} {i : ℕ}
    (hq : ∀ {pc}, q pc = true → q' pc = true) (h : s.execAt q id i = true) :
    s.execAt q' id i = true := by
  obtain ⟨pc, hi, hpc⟩ := execAt_iff.mp h
  exact execAt_iff.mpr ⟨pc, hi, hq hpc⟩

/-- **The invocations are the same**, with their slots and controllers. -/
structure SameExecs (s s' : OpenInstance V) : Prop where
  runningJobs : s'.runningJobs = s.runningJobs
  owner : ∀ id, (s'.abortControllers.get id).map AbortController.task =
    (s.abortControllers.get id).map AbortController.task
  execs : ∀ {q : ExecPc V → Bool},
    (∀ job reg outcome, q (.raceSettled job reg outcome) = q (.handlerRunning job reg)) →
    ∀ id i, s'.execAt q id i = s.execAt q id i

lemma SameWork.sameExecs (h : SameWork s s') : SameExecs s s' where
  runningJobs := h.runningJobs
  owner := h.owner
  execs hq id i := by
    refine h.tasks ⟨fun {t} ht => ?_, fun _ job reg outcome => ?_⟩ i
    · cases t <;> first | rfl | cases ht
    · simp only [OpenTask.isExec, hq]

/-- A task that executes nothing is replaced by another one. -/
lemma sameExecs_set {i : ℕ} {t u : OpenTask V} (hi : s.tasks[i]? = some t)
    (ht : ∀ q id, t.isExec q id = false) (hu : ∀ q id, u.isExec q id = false)
    (hrun : s'.runningJobs = s.runningJobs) (howner : s'.abortControllers = s.abortControllers)
    (htasks : s'.tasks = s.tasks.set i u) : SameExecs s s' where
  runningJobs := hrun
  owner _ := by rw [howner]
  execs hq id j := by
    rw [execAt, execAt, htasks]
    rcases eq_or_ne i j with rfl | hne
    · rw [List.getElem?_set_self (List.getElem?_eq_some_iff.mp hi).1, hi]
      exact (hu _ id).trans (ht _ id).symm
    · rw [List.getElem?_set_ne hne]

lemma execAt_append (q : ExecPc V → Bool) (id : String) (t : OpenTask V) (i : ℕ) :
    (s.spawn t).execAt q id i =
      (s.execAt q id i || (decide (i = s.tasks.length) && t.isExec q id)) := by
  rw [execAt, execAt, spawn]
  rcases Nat.lt_trichotomy i s.tasks.length with hlt | rfl | hgt
  · rw [List.getElem?_append_left hlt]
    simp [Nat.ne_of_lt hlt]
  · simp
  · rw [List.getElem?_append_right (Nat.le_of_lt hgt), List.getElem?_eq_none (Nat.le_of_lt hgt)]
    have hpos : i - s.tasks.length ≠ 0 := by omega
    simp [Nat.ne_of_gt hgt, hpos]

lemma sameExecs_append {t : OpenTask V} (ht : ∀ q id, t.isExec q id = false)
    (hrun : s'.runningJobs = s.runningJobs) (howner : s'.abortControllers = s.abortControllers)
    (htasks : s'.tasks = s.tasks ++ [t]) : SameExecs s s' where
  runningJobs := hrun
  owner _ := by rw [howner]
  execs {q} _ id i := by
    have happend : s'.execAt q id i = (s.spawn t).execAt q id i := by
      rw [execAt, htasks]
      rfl
    rw [happend, execAt_append, ht, Bool.and_false, Bool.or_false]

/-- **An invocation for each slot, a slot for each invocation at work, an owner for each
controller.**  A controller whose slot is gone belongs to an invocation that has given it
back already, and has only its `finally` left. -/
structure Slotted (s : OpenInstance V) (freed : List ℕ) : Prop where
  owned : ∀ {id}, s.runningJobs.has id = true → ∃ i, s.execAt ExecPc.isOpen id i = true
  slot : ∀ {id i}, s.execAt ExecPc.working id i = true → s.runningJobs.has id = true
  controller : ∀ {id c}, s.abortControllers.get id = some c →
    s.execAt ExecPc.inTry id c.task = true ∧ (s.runningJobs.has id = true ∨
      c.task ∈ freed ∧ s.execAt ExecPc.isDone id c.task = true)

lemma slotted_init (freed : List ℕ) : Slotted ({} : OpenInstance V) freed where
  owned h := by cases h
  slot h := by cases h
  controller h := by cases h

/-- What leaves the invocations alone keeps the slots in order. -/
lemma Slotted.same {freed freed' : List ℕ} (h : Slotted s freed) (hs : SameExecs s s')
    (hfreed : ∀ i ∈ freed, i ∈ freed') : Slotted s' freed' where
  owned {id} hid := by
    rw [hs.runningJobs] at hid
    obtain ⟨i, hi⟩ := h.owned hid
    refine ⟨i, ?_⟩
    rw [hs.execs fun _ _ _ => rfl]
    exact hi
  slot {id i} hi := by
    rw [hs.execs fun _ _ _ => rfl] at hi
    rw [hs.runningJobs]
    exact h.slot hi
  controller {id c} hc := by
    have howner := hs.owner id
    rw [hc, Option.map_some, eq_comm, Option.map_eq_some_iff] at howner
    obtain ⟨c', hc', htask⟩ := howner
    rw [← htask, hs.execs (fun _ _ _ => rfl), hs.execs (fun _ _ _ => rfl), hs.runningJobs]
    obtain ⟨htry, hslot⟩ := h.controller hc'
    exact ⟨htry, hslot.imp_right fun hdone => ⟨hfreed _ hdone.1, hdone.2⟩⟩

/-- The loop takes a slot and starts an invocation for it. -/
lemma Slotted.launch {freed : List ℕ} (h : Slotted s freed) (job : Job V)
    (answer : Option (Job V)) : Slotted (s.launch job answer) freed := by
  have hexec : ∀ {q : ExecPc V → Bool} {id i}, (s.launch job answer).execAt q id i =
      (s.execAt q id i || (decide (i = s.tasks.length) &&
        (OpenTask.exec job.id (.gotJob answer)).isExec q id)) := execAt_append _ _ _ _
  have hrun : ∀ {id}, (s.launch job answer).runningJobs.has id =
      (decide (job.id = id) || s.runningJobs.has id) := OrdMap.has_set _ _ _ _
  refine ⟨fun {id} hid => ?_, fun {id i} hi => ?_, fun {id c} hc => ?_⟩
  · by_cases hold : s.runningJobs.has id = true
    · obtain ⟨i, hi⟩ := h.owned hold
      exact ⟨i, by rw [hexec, hi, Bool.true_or]⟩
    · have hjob : job.id = id := by simpa [hrun, hold] using hid
      subst hjob
      exact ⟨s.tasks.length, by simp [hexec, OpenTask.isExec]⟩
  · rw [hrun]
    by_cases hold : s.execAt ExecPc.working id i = true
    · rw [h.slot hold, Bool.or_true]
    · have hjob : i = s.tasks.length ∧ job.id = id := by
        simpa [hexec, hold, OpenTask.isExec] using hi
      simp [hjob.2]
  · obtain ⟨htry, hslot⟩ := h.controller hc
    rw [hexec, hexec, hrun, htry]
    refine ⟨Bool.true_or _, hslot.imp (fun hold => ?_) fun hdone => ⟨hdone.1, ?_⟩⟩
    · rw [hold, Bool.or_true]
    · rw [hdone.2, Bool.true_or]

lemma execAt_applyEffect {i : ℕ} {jobId : String} {pc : ExecPc V} (eff : Effect V)
    (hi : s.tasks[i]? = some (.exec jobId pc)) (q : ExecPc V → Bool) (id : String) (j : ℕ) :
    (s.applyEffect i jobId eff).execAt q id j =
      if j = i then decide (jobId = id) && q eff.next else s.execAt q id j := by
  rw [execAt, execAt]
  change (((s.tasks.set i (.exec jobId eff.next))[j]?).any _ : Bool) = _
  by_cases hj : j = i
  · subst hj
    rw [if_pos rfl, List.getElem?_set_self (List.getElem?_eq_some_iff.mp hi).1]
    rfl
  · rw [if_neg hj, List.getElem?_set_ne (Ne.symm hj)]

/-- **A piece of an invocation keeps the slots in order**, when the invocation is the only
open one for its job. -/
theorem Slotted.piece {freed freed' : List ℕ} (h : Slotted s freed) {i : ℕ}
    {jobId : String} {pc : ExecPc V} {eff : Effect V}
    (hi : s.tasks[i]? = some (.exec jobId pc)) (hf : SlotFacts pc eff)
    (hlone : ∀ j, s.execAt ExecPc.isOpen jobId j = true → j = i) (hfreed : ∀ i ∈ freed, i ∈ freed')
    (hearly : eff.release = true → pc.freesEarly = true → i ∈ freed') :
    Slotted (s.applyEffect i jobId eff) freed' := by
  have hexec := fun {q} {id} {j} => execAt_applyEffect eff hi q id j
  have hrun : ∀ {id}, (s.applyEffect i jobId eff).runningJobs.has id =
      (!(eff.release && decide (jobId = id)) && s.runningJobs.has id) := by
    intro id
    rw [applyEffect]
    cases eff.release with
    | false => simp
    | true => simp [OrdMap.has_delete]
  have hat : ∀ {q : ExecPc V → Bool}, q pc = true → s.execAt q jobId i = true := fun hq =>
    execAt_iff.mpr ⟨pc, hi, hq⟩
  -- the task of another job is another task
  have hother : ∀ {q : ExecPc V → Bool} {id j}, id ≠ jobId → s.execAt q id j = true → j ≠ i := by
    rintro q id j hid hj rfl
    obtain ⟨pc', hi', _⟩ := execAt_iff.mp hj
    rw [hi] at hi'
    cases hi'
    exact hid rfl
  refine ⟨fun {id} hid => ?_, fun {id j} hj => ?_, fun {id c} hc => ?_⟩
  · rw [hrun, Bool.and_eq_true] at hid
    obtain ⟨j, hj⟩ := h.owned hid.2
    refine ⟨j, ?_⟩
    rw [hexec]
    split
    next he =>
        subst he
        have hjob : jobId = id := by
          by_contra hne
          exact hother (Ne.symm hne) hj rfl
        subst hjob
        have hkept : eff.release = false := by simpa using hid.1
        have hopen : eff.next.isOpen = true := by
          by_contra hclosed
          rw [Bool.not_eq_true] at hclosed
          rw [hf.settles hclosed] at hkept
          cases hkept
        simp only [decide_true, Bool.true_and, hopen]
    next => exact hj
  · rw [hexec] at hj
    rw [hrun]
    split at hj
    next he =>
        obtain ⟨hjob, hnext⟩ : jobId = id ∧ eff.next.working = true := by simpa using hj
        subst hjob
        have hkept : eff.release = false := by
          by_contra hrel
          rw [Bool.not_eq_false] at hrel
          rw [hf.release hrel] at hnext
          cases hnext
        rw [hkept, h.slot (hat (hf.working hnext))]
        rfl
    next hne =>
        have hjob : jobId ≠ id := by
          rintro rfl
          exact hne (hlone j (execAt_mono ExecPc.isOpen_of_working hj))
        simp [hjob, h.slot hj]
  · -- a controller that was there already belongs to this piece or to another job
    have hold : s.abortControllers.get id = some c → eff.dropController = false ∨ id ≠ jobId →
        (s.applyEffect i jobId eff).execAt ExecPc.inTry id c.task = true ∧
          ((s.applyEffect i jobId eff).runningJobs.has id = true ∨ c.task ∈ freed' ∧
            (s.applyEffect i jobId eff).execAt ExecPc.isDone id c.task = true) := by
      intro hc hkeep
      obtain ⟨htry, hslot⟩ := h.controller hc
      rw [hexec, hexec, hrun]
      by_cases hid : id = jobId
      · subst hid
        have htask : c.task = i := hlone _ (execAt_mono ExecPc.isOpen_of_inTry htry)
        have hkept : eff.dropController = false := hkeep.resolve_right (· rfl)
        rw [htask] at htry hslot ⊢
        obtain ⟨pc', hi', htry⟩ := execAt_iff.mp htry
        rw [hi] at hi'
        cases hi'
        simp only [if_true, decide_true, Bool.true_and, Bool.and_true]
        refine ⟨hf.stay htry hkept, ?_⟩
        have hrunning : s.runningJobs.has id = true := by
          refine hslot.resolve_right fun hdone => ?_
          obtain ⟨pc', hi', hpc⟩ := execAt_iff.mp hdone.2
          rw [hi] at hi'
          cases hi'
          have hfinal : pc = .finishing false := by
            cases pc with
            | finishing threw =>
                cases threw with
                | false => rfl
                | true => cases hpc
            | _ => cases hpc
          rw [hf.finish hfinal] at hkept
          cases hkept
        cases hrel : eff.release with
        | false => exact Or.inl (by rw [hrunning]; rfl)
        | true =>
            obtain ⟨hnext, hfree⟩ := hf.early htry hkept hrel
            exact Or.inr ⟨hearly hrel hfree, by rw [hnext]; rfl⟩
      · have hne := hother hid htry
        rw [if_neg hne, if_neg hne]
        have hjob : jobId ≠ id := Ne.symm hid
        simp only [hjob, decide_false, Bool.and_false, Bool.not_false, Bool.true_and]
        exact ⟨htry, hslot.imp_right fun hdone => ⟨hfreed _ hdone.1, hdone.2⟩⟩
    change OrdMap.get (if eff.takeController then s.abortControllers.set jobId { task := i }
      else if eff.dropController then s.abortControllers.delete jobId
      else s.abortControllers) id = some c at hc
    split at hc
    next htake =>
        rw [OrdMap.get_set] at hc
        split at hc
        next hid =>
            subst hid
            obtain rfl := Option.some.inj hc
            obtain ⟨hworking, htry, hkept⟩ := hf.take htake
            have hrunning := h.slot (hat hworking)
            rw [hexec, hrun, hkept, hrunning]
            simp only [if_true, decide_true, Bool.true_and, htry]
            exact ⟨trivial, Or.inl rfl⟩
        next hid => exact hold hc (Or.inr (Ne.symm hid))
    next =>
        split at hc
        next =>
            rw [OrdMap.get_delete] at hc
            split at hc
            next => cases hc
            next hid => exact hold hc (Or.inr (Ne.symm hid))
        next hdrop => exact hold hc (Or.inl (by simpa using hdrop))

end OpenInstance

/-! ### Every run -/

namespace Supply

open OpenInstance

variable {cfg : QueueConfig V} {w w' : Supply V} {a : OpenAction V}

/-- A job in one hand has one open invocation at most. -/
lemma Single.lone (h : w.Single) {id : String} {i j : ℕ}
    (hi : w.inst.execAt ExecPc.isOpen id i = true)
    (hj : w.inst.execAt ExecPc.isOpen id j = true) : j = i := by
  have hin : ∀ {k}, w.inst.execAt ExecPc.isOpen id k = true →
      (w.inst.tasks[k]?).any (OpenTask.inHand ExecPc.isOpen id) = true := by
    intro k hk
    obtain ⟨pc, hpc, hopen⟩ := execAt_iff.mp hk
    rw [hpc, Option.any_some, OpenTask.inHand, hopen]
    simp
  have hone : w.inst.tasks.countP (OpenTask.inHand ExecPc.isOpen id) ≤ 1 :=
    Nat.le_trans (Nat.le_add_left _ _) (h.once id)
  exact List.eq_of_countP_le_one _ hone (hin hj) (hin hi)

lemma mem_freedAfter {i : ℕ} (hi : i ∈ w.freed) (a : OpenAction V) : i ∈ w.freedAfter a := by
  cases a with
  | resume j env answer =>
      rw [freedAfter]
      split
      next => split <;> simp [hi]
      next => exact hi
  | _ => exact hi

/-- **One step keeps the slots in order.** -/
theorem slotted_step (hsingle : w.Single) (h : Slotted w.inst w.freed)
    (hstep : w.step cfg a = some w') : Slotted w'.inst w'.freed := by
  obtain ⟨_, inst, hinst, rfl⟩ := step_eq_some hstep
  have hfreed : ∀ i ∈ w.freed, i ∈ w.freedAfter a := fun i hi => mem_freedAfter hi a
  have hpiece : ∀ {i jobId pc eff}, w.inst.tasks[i]? = some (.exec jobId pc) →
      SlotFacts pc eff → (eff.release = true → pc.freesEarly = true → i ∈ w.freedAfter a) →
      Slotted (w.inst.applyEffect i jobId eff) (w.freedAfter a) := fun hi hf hearly =>
    h.piece hi hf (fun j hj => hsingle.lone (execAt_iff.mpr ⟨_, hi, hf.isOpen⟩) hj) hfreed hearly
  cases change_of_step hinst with
  | same _ hsame => exact h.same hsame.sameExecs hfreed
  | started hrun hs₀ =>
      subst hs₀
      exact h.same (sameExecs_append (fun _ _ => rfl) rfl rfl rfl) hfreed
  | served job hi =>
      exact h.same (sameExecs_set hi (fun _ _ => rfl) (fun _ _ => rfl) rfl rfl rfl) hfreed
  | @launched i job env answer hi =>
      have hi' : (w.inst.launch job answer).tasks[i]? = some (.loop (.dequeued (some job))) :=
        getElem?_spawn _ hi
      exact (h.launch job answer).same
        (sameExecs_set hi' (fun _ _ => rfl) (fun _ _ => rfl) rfl rfl rfl) hfreed
  | rested env answer hi =>
      exact h.same (sameExecs_set hi (fun _ _ => rfl) (fun _ _ => rfl) rfl rfl rfl) hfreed
  | around env answer hi =>
      exact h.same (sameExecs_set hi (fun _ _ => rfl) (fun _ _ => rfl) rfl rfl rfl) hfreed
  | failed err answer hi =>
      exact h.same (sameExecs_set hi (fun _ _ => rfl) (fun _ _ => rfl) rfl rfl rfl) hfreed
  | answered hi heff =>
      refine hpiece hi (slotFacts_of_answered heff) fun _ hfree => ?_
      rw [freedAfter, hi]
      simp only [hfree, if_true, List.mem_cons_self]
  | refused hi heff =>
      obtain ⟨hf, hkept⟩ := slotFacts_of_refused heff
      refine hpiece hi hf fun hrel => ?_
      rw [hkept] at hrel
      cases hrel
  | fetched env answer hi stage =>
      exact h.same (sameExecs_set hi (fun _ _ => rfl) (fun _ _ => rfl) rfl rfl rfl) hfreed
  | enqueued env answer hi =>
      exact h.same (sameExecs_set hi (fun _ _ => rfl) (fun _ _ => rfl) rfl rfl rfl) hfreed
  | dropped err answer hi =>
      exact h.same (sameExecs_set hi (fun _ _ => rfl) (fun _ _ => rfl) rfl rfl rfl) hfreed
  | @fired t timer ht =>
      refine h.same ?_ hfreed
      rw [fireTimer]
      split
      · exact ⟨rfl, fun _ => rfl, fun _ _ _ => rfl⟩
      · exact sameExecs_append (fun _ _ => rfl) rfl rfl rfl

/-- **No slot leaks**: a slot belongs to an open invocation for its job, a controller to an
unsettled one, and an invocation whose controller is there still has its slot, unless it has
given it back in `handleValidationFailure` and has only its `finally` left. -/
theorem slots_owned {ids : List String} (hids : ids.Nodup) {as : List (OpenAction V)}
    (h : exec (step cfg) (start ids) as = some w) :
    (∀ id, w.inst.runningJobs.has id = true →
      ∃ (i : ℕ) (pc : ExecPc V), w.inst.tasks[i]? = some (.exec id pc) ∧ pc.isOpen = true) ∧
    ∀ id c, w.inst.abortControllers.get id = some c →
      (∃ pc, w.inst.tasks[c.task]? = some (.exec id pc) ∧ pc.unsettled = true) ∧
      (w.inst.runningJobs.has id = true ∨
        c.task ∈ w.freed ∧ w.inst.tasks[c.task]? = some (.exec id (.finishing false))) := by
  have hinv : w.Single ∧ Slotted w.inst w.freed :=
    meets_invariant (I := fun w => w.Single ∧ Slotted w.inst w.freed)
      (fun _ _ _ hw _ hstep => ⟨hw.1.step hstep, slotted_step hw.1 hw.2 hstep⟩)
      ⟨single_start hids, slotted_init []⟩ (meets_true _ _) h
  refine ⟨fun id hid => ?_, fun id c hc => ?_⟩
  · obtain ⟨i, hi⟩ := hinv.2.owned hid
    obtain ⟨pc, hpc⟩ := execAt_iff.mp hi
    exact ⟨i, pc, hpc⟩
  · obtain ⟨htry, hslot⟩ := hinv.2.controller hc
    obtain ⟨pc, hi, hpc⟩ := execAt_iff.mp htry
    refine ⟨⟨pc, hi, ?_⟩, hslot.imp_right fun hdone => ⟨hdone.1, ?_⟩⟩
    · cases pc with
      | rejected => cases hpc
      | settled => cases hpc
      | _ => rfl
    · obtain ⟨pc', hi', hpc'⟩ := execAt_iff.mp hdone.2
      rw [hi']
      cases pc' with
      | finishing threw =>
          cases threw with
          | false => rfl
          | true => cases hpc'
      | _ => cases hpc'

/-- A queue with one job type whose output is never valid. -/
def strictConfig : QueueConfig ℕ where
  name := "q"
  concurrency := 1
  handlerRegistry := OrdMap.set ∅ "q:t" ⟨.ok, fun _ => .error []⟩

/-- The handler of the one job returns, its output is not valid, the failure is written,
read back and published, and `handleValidationFailure` ends. -/
def invalidOutput : List (OpenAction ℕ) :=
  let job := strictConfig.newJob "a" "t" 0 {} 0
  [.start, .serve 0 (some job), .resume 0 {} (some job), .resume 1 {} none, .resume 1 {} none,
    .resume 1 {} none, .settle 1 (.resolved 0), .resume 1 {} none, .resume 1 {} (some job),
    .resume 1 {} none, .resume 1 {} none]

theorem slots_owned_invalidOutput :
    ∃ w, exec (step strictConfig) (start ["a"]) invalidOutput = some w ∧
      w.inst.abortControllers.get "a" = some { task := 1 } ∧
      (w.inst.runningJobs.has "a" = true ∨
        1 ∈ w.freed ∧ ∃ pc, w.inst.tasks[1]? = some (.exec "a" pc) ∧ pc.isDone = true) := by
  refine ⟨_, rfl, rfl, ?_⟩
  have howned := @slots_owned ℕ strictConfig _ ["a"] (by decide) invalidOutput rfl
  exact (howned.2 "a" { task := 1 } rfl).2.imp_right fun h => ⟨h.1, _, h.2, rfl⟩

theorem not_slots_owned :
    ¬ ∀ (cfg : QueueConfig ℕ) (ids : List String) (as : List (OpenAction ℕ)) (w : Supply ℕ),
      ids.Nodup → exec (step cfg) (start ids) as = some w →
      ∀ id, w.inst.abortControllers.has id = true → w.inst.runningJobs.has id = true := by
  intro h
  have hslot := h strictConfig ["a"] invalidOutput _ (by decide) rfl "a" (by decide)
  exact absurd hslot (by decide)

end Supply

end Blaize.Queue
