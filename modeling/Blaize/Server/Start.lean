import Blaize.Lib.Machine

/-!
Starting a server (`server/start.ts` and `listen` of `server/create.ts` in
`packages/blaize-core/src`), with the plugin manager of `plugins/lifecycle.ts`.

An action is a call of `listen()`, which runs up to its first `await`, the settlement of what a
call awaits, or a whole call of `close()`.  The HTTP servers of an instance are numbered in the
order of their creation; `server` is the one in its field.

* `startServer` and its pieces between the awaits;
* `Retriable`: a call that fails leaves no server or one that listens, and a later one that resolves
  leaves one that listens;
* `Fits`: what holds of the instance while a call awaits something;
* `resume_fits`: **a piece keeps to this, unless the port cannot be bound**;
* `retriable_of_orderly`: so **a failed start can be retried if no binding fails**;
* `not_retriable_of_binding`: and a binding that fails leaves a server that does not listen.
-/

namespace Blaize.Start

open Machine

/-! ### Data -/

/-- The options of a server that are read here. -/
structure ServerOptions where
  port : ℕ := 3000
  /-- The option of the plugin manager. -/
  continueOnError : Bool := true

/-- An HTTP server, with the port that it listens on. -/
structure HttpServer where
  listening : Option ℕ := none
  deriving DecidableEq, Repr

/-- What a call of `listen()` awaits, or how it settled. -/
inductive Phase where
  | registerPlugins
  | initializePlugins
  | prepareCertificates
  | listenOnPort (server : ℕ)
  | onServerStart
  | resolved
  | rejected
  deriving DecidableEq, Repr

/-- A call of `listen()`; `later` says whether another one had failed before it was made. -/
structure Call where
  later : Bool
  phase : Phase
  deriving DecidableEq, Repr

/-- The server objects and the calls of `listen`. -/
structure ServerInstance where
  servers : List HttpServer := []
  server : Option ℕ := none
  calls : List Call := []
  failed : Bool := false
  deriving DecidableEq, Repr

/-- How what a call waits for ends. -/
inductive Outcome where
  | ok
  | failed
  deriving DecidableEq, Repr

variable (options : ServerOptions)

namespace ServerInstance

/-! ### The pieces of `listen` -/

/-- `startServer`, up to its first `await`. -/
def startServer (s : ServerInstance) : ServerInstance × Phase :=
  if s.server.isSome then (s, .onServerStart) else (s, .prepareCertificates)

/-- `createServerInstance` and what follows it, up to the `await` for the port. -/
def createServerInstance (s : ServerInstance) : ServerInstance × Phase :=
  ({ s with servers := s.servers ++ [{}], server := some s.servers.length },
    .listenOnPort s.servers.length)

/-- `setupServerLifecycle`; the listeners of `started` may throw. -/
def setupServerLifecycle (s : ServerInstance) (throws : Bool) : ServerInstance × Phase :=
  (s, if throws then .rejected else .resolved)

/-- Whether an error of a plugin gets out of the manager. -/
def fatal (outcome : Outcome) : Bool := outcome == .failed && !options.continueOnError

/-- What follows the `await` of a phase.  An error of `registerPlugins` is always thrown again;
reading the certificates counts as a part of preparing them. -/
def resume (s : ServerInstance) (phase : Phase) (outcome : Outcome) (throws : Bool) :
    Option (ServerInstance × Phase) :=
  match phase, outcome with
  | .registerPlugins, .ok => some (s, .initializePlugins)
  | .registerPlugins, .failed => some (s, .rejected)
  | .initializePlugins, outcome =>
      some (if fatal options outcome then (s, .rejected) else s.startServer)
  | .prepareCertificates, .ok => some s.createServerInstance
  | .prepareCertificates, .failed => some (s, .rejected)
  | .listenOnPort k, .ok =>
      some ({ s with servers := s.servers.modify k fun _ => { listening := some options.port } },
        .onServerStart)
  | .listenOnPort _, .failed => some (s, .rejected)
  | .onServerStart, outcome =>
      some (if fatal options outcome then (s, .rejected) else s.setupServerLifecycle throws)
  | .resolved, _ => none
  | .rejected, _ => none

/-- `close()`: the HTTP server is closed, and taken out of the field unless this fails.  A server
that does not listen cannot be closed. -/
def close (s : ServerInstance) (outcome : Outcome) : Option ServerInstance :=
  match s.server with
  | none => some s
  | some k =>
      let servers := s.servers.modify k fun _ => {}
      match outcome with
      | .ok =>
          if s.servers[k]?.any (·.listening.isSome) then
            some { s with servers := servers, server := none }
          else none
      | .failed => some { s with servers := servers }

/-! ### The machine -/

/-- What can happen next. -/
inductive Act where
  | listen
  | settle (call : ℕ) (outcome : Outcome) (throws : Bool)
  | close (outcome : Outcome)
  deriving DecidableEq, Repr

/-- What an act does; `none`: it cannot happen. -/
def step (s : ServerInstance) : Act → Option ServerInstance
  | .listen => some { s with calls := s.calls ++ [⟨s.failed, .registerPlugins⟩] }
  | .settle n outcome throws => do
      let call ← s.calls[n]?
      let (s, phase) ← s.resume options call.phase outcome throws
      some
        { s with
          calls := s.calls.set n { call with phase := phase }
          failed := s.failed || phase == .rejected }
  | .close outcome => s.close outcome

/-! ### The property -/

/-- The instance has no server, or one that listens on the configured port. -/
def Ready (s : ServerInstance) : Prop :=
  ∀ k, s.server = some k → s.servers[k]? = some { listening := some options.port }

/-- The server of the instance listens on the configured port. -/
def Running (s : ServerInstance) : Prop :=
  ∃ k, s.server = some k ∧ s.servers[k]? = some { listening := some options.port }

/-- A call that fails leaves no server or one that listens, and a call after a failure that resolves
leaves one that listens. -/
def Retriable (s : ServerInstance) : Act → Prop
  | .settle n outcome throws =>
      ∀ call s' phase, s.calls[n]? = some call →
        s.resume options call.phase outcome throws = some (s', phase) →
          (phase = .rejected → s'.Ready options) ∧
            (phase = .resolved → call.later = true → s'.Running options)
  | _ => True

end ServerInstance

/-- The call is over. -/
def Phase.Settled (phase : Phase) : Prop := phase = .resolved ∨ phase = .rejected

instance : DecidablePred Phase.Settled := fun phase =>
  inferInstanceAs (Decidable (phase = .resolved ∨ phase = .rejected))

/-- The port is awaited. -/
def Phase.binds : Phase → Bool
  | .listenOnPort _ => true
  | _ => false

namespace ServerInstance

/-- No call is under way. -/
def Idle (s : ServerInstance) : Prop := ∀ call ∈ s.calls, call.phase.Settled

/-- The calls come one after the other, `close()` does not fail, and the port can be bound. -/
def Orderly (s : ServerInstance) : Act → Prop
  | .listen => s.Idle
  | .settle n outcome _ => s.calls[n]?.any (·.phase.binds) = true → outcome = .ok
  | .close outcome => s.Idle ∧ outcome = .ok

instance (s : ServerInstance) : Decidable s.Idle :=
  inferInstanceAs (Decidable (∀ call ∈ s.calls, call.phase.Settled))

instance (s : ServerInstance) (a : Act) : Decidable (s.Orderly a) :=
  match a with
  | .listen => inferInstanceAs (Decidable s.Idle)
  | .settle n outcome _ =>
      inferInstanceAs (Decidable (s.calls[n]?.any (·.phase.binds) = true → outcome = .ok))
  | .close outcome => inferInstanceAs (Decidable (s.Idle ∧ outcome = .ok))

variable {options} {s s' : ServerInstance}

/-! ### What holds during a call -/

/-- The instance while a call awaits something, and when it is over. -/
def Fits (options : ServerOptions) (s : ServerInstance) : Phase → Prop
  | .registerPlugins | .initializePlugins | .rejected => s.Ready options
  | .prepareCertificates => s.server = none
  | .listenOnPort k => s.server = some k ∧ k < s.servers.length
  | .onServerStart | .resolved => s.Running options

lemma Running.ready (h : s.Running options) : s.Ready options := by
  obtain ⟨k, hk, hlistens⟩ := h
  intro k' hk'
  rw [hk] at hk'
  obtain rfl := Option.some.inj hk'
  exact hlistens

lemma ready_of_server (h : s.server = none) : s.Ready options := by
  intro k hk
  rw [h] at hk
  cases hk

lemma Fits.ready_of_settled {phase : Phase} (h : s.Fits options phase) (hsettled : phase.Settled) :
    s.Ready options := by
  rcases hsettled with rfl | rfl
  · exact Running.ready h
  · exact h

/-- The 'already running' test: the server in the field listens. -/
lemma startServer_fits (h : s.Ready options) :
    Fits options (s.startServer).1 (s.startServer).2 := by
  rw [startServer]
  cases hserver : s.server with
  | none => exact hserver
  | some k => exact ⟨k, hserver, h k hserver⟩

lemma bound_fits {k : ℕ} (h : s.server = some k ∧ k < s.servers.length) :
    Running options
      { s with servers := s.servers.modify k fun _ => { listening := some options.port } } := by
  refine ⟨k, h.1, ?_⟩
  simp [List.getElem?_eq_getElem h.2]

/-- **A piece of a call keeps to the phases, unless the port cannot be bound.** -/
lemma resume_fits {phase phase' : Phase} {outcome : Outcome} {throws : Bool}
    (h : s.resume options phase outcome throws = some (s', phase')) (hfits : s.Fits options phase)
    (hbinds : phase.binds = true → outcome = .ok) :
    s'.Fits options phase' ∧ s'.calls = s.calls := by
  cases phase with
  | registerPlugins =>
      cases outcome with
      | ok | failed =>
          obtain ⟨rfl, rfl⟩ := Prod.mk.inj (Option.some.inj h)
          exact ⟨hfits, rfl⟩
  | initializePlugins =>
      have hstep := Option.some.inj h
      split at hstep
      · obtain ⟨rfl, rfl⟩ := Prod.mk.inj hstep
        exact ⟨hfits, rfl⟩
      · have hstart := startServer_fits hfits
        rw [hstep] at hstart
        refine ⟨hstart, ?_⟩
        have hcalls : s.startServer.1.calls = s.calls := by
          rw [startServer]
          split <;> rfl
        rwa [hstep] at hcalls
  | prepareCertificates =>
      cases outcome with
      | ok =>
          obtain ⟨rfl, rfl⟩ := Prod.mk.inj (Option.some.inj h)
          exact ⟨⟨rfl, by simp⟩, rfl⟩
      | failed =>
          obtain ⟨rfl, rfl⟩ := Prod.mk.inj (Option.some.inj h)
          exact ⟨ready_of_server hfits, rfl⟩
  | listenOnPort k =>
      obtain rfl := hbinds rfl
      obtain ⟨rfl, rfl⟩ := Prod.mk.inj (Option.some.inj h)
      exact ⟨bound_fits hfits, rfl⟩
  | onServerStart =>
      have hstep := Option.some.inj h
      split at hstep
      · obtain ⟨rfl, rfl⟩ := Prod.mk.inj hstep
        exact ⟨Running.ready hfits, rfl⟩
      · obtain ⟨rfl, rfl⟩ := Prod.mk.inj hstep
        cases throws with
        | true => exact ⟨Running.ready hfits, rfl⟩
        | false => exact ⟨hfits, rfl⟩
  | resolved => cases h
  | rejected => cases h

/-! ### Runs -/

/-- At most one call is under way, and the instance fits what it awaits. -/
structure Inv (options : ServerOptions) (s : ServerInstance) : Prop where
  fits : ∀ (n : ℕ) (call : Call), s.calls[n]? = some call → ¬ call.phase.Settled →
    s.Fits options call.phase ∧
      ∀ (m : ℕ) (other : Call), m ≠ n → s.calls[m]? = some other → other.phase.Settled
  ready : s.Idle → s.Ready options

lemma Inv.init : Inv options {} := ⟨fun _ _ h => by simp at h, fun _ => ready_of_server rfl⟩

lemma Idle.settled (h : s.Idle) {n : ℕ} {call : Call} (hcall : s.calls[n]? = some call) :
    call.phase.Settled :=
  h call (List.mem_of_getElem? hcall)

/-- A call of `listen()` is the only one under way. -/
lemma Inv.listen (h : Inv options s) (hidle : s.Idle) :
    Inv options { s with calls := s.calls ++ [⟨s.failed, .registerPlugins⟩] } := by
  constructor
  · intro n call hcall hpending
    have hn : n = s.calls.length := by
      rcases Nat.lt_or_ge n s.calls.length with hlt | hge
      · rw [List.getElem?_append_left hlt] at hcall
        exact absurd (hidle.settled hcall) hpending
      · obtain ⟨hlt, _⟩ := List.getElem?_eq_some_iff.mp hcall
        simp only [List.length_append, List.length_singleton] at hlt
        omega
    subst hn
    rw [List.getElem?_concat_length] at hcall
    obtain rfl := Option.some.inj hcall
    refine ⟨h.ready hidle, fun m other hm hother => ?_⟩
    have hlt : m < s.calls.length := by
      obtain ⟨hlt, _⟩ := List.getElem?_eq_some_iff.mp hother
      simp only [List.length_append, List.length_singleton] at hlt
      omega
    rw [List.getElem?_append_left hlt] at hother
    exact hidle.settled hother
  · intro hbusy
    have hsettled := hbusy ⟨s.failed, .registerPlugins⟩ (by simp)
    rcases hsettled with hsettled | hsettled <;> cases hsettled

/-- **A piece of a call keeps the invariant.** -/
lemma Inv.settle (h : Inv options s) {n : ℕ} {call : Call} {outcome : Outcome} {throws : Bool}
    {phase : Phase} (hcall : s.calls[n]? = some call)
    (hresume : s.resume options call.phase outcome throws = some (s', phase))
    (hbinds : call.phase.binds = true → outcome = .ok) (failed : Bool) :
    Inv options
      { s' with calls := s'.calls.set n { call with phase := phase }, failed := failed } := by
  have hpending : ¬ call.phase.Settled := by
    rintro (hphase | hphase) <;> rw [hphase] at hresume <;> cases hresume
  obtain ⟨hfits, hothers⟩ := h.fits n call hcall hpending
  obtain ⟨hfits', hcalls⟩ := resume_fits hresume hfits hbinds
  obtain ⟨hlt, _⟩ := List.getElem?_eq_some_iff.mp hcall
  have hget (m : ℕ) : (s'.calls.set n { call with phase := phase })[m]? =
      if n = m then some { call with phase := phase } else s.calls[m]? := by
    rw [List.getElem?_set, hcalls]
    by_cases hm : n = m
    · subst hm
      rw [if_pos rfl, if_pos rfl, if_pos hlt]
    · rw [if_neg hm, if_neg hm]
  constructor
  · intro m other hother hpending'
    dsimp only at hother
    rw [hget] at hother
    split at hother
    next hm =>
      subst hm
      obtain rfl := Option.some.inj hother
      refine ⟨hfits', fun k other' hk hother' => ?_⟩
      dsimp only at hother'
      rw [hget, if_neg (Ne.symm hk)] at hother'
      exact hothers k other' hk hother'
    next hm => exact absurd (hothers m other (Ne.symm hm) hother) hpending'
  · intro hidle
    refine Fits.ready_of_settled (s := s') hfits' ?_
    exact hidle { call with phase := phase }
      (List.mem_of_getElem? (i := n) ((hget n).trans (if_pos rfl)))

lemma Inv.close (h : Inv options s) (hidle : s.Idle) (hclose : s.close .ok = some s') :
    Inv options s' := by
  unfold ServerInstance.close at hclose
  split at hclose
  next => rwa [← Option.some.inj hclose]
  next k hk =>
    dsimp only at hclose
    split at hclose
    next =>
      obtain rfl := Option.some.inj hclose
      exact ⟨fun n call hcall hpending => absurd (hidle.settled hcall) hpending,
        fun _ => ready_of_server rfl⟩
    next => cases hclose

/-- What a settlement does. -/
lemma step_settle {n : ℕ} {outcome : Outcome} {throws : Bool}
    (h : s.step options (.settle n outcome throws) = some s') :
    ∃ call s'' phase, s.calls[n]? = some call ∧
      s.resume options call.phase outcome throws = some (s'', phase) ∧
        s' = { s'' with
          calls := s''.calls.set n { call with phase := phase }
          failed := s''.failed || phase == .rejected } := by
  obtain ⟨call, hcall, h⟩ := Option.bind_eq_some_iff.mp h
  obtain ⟨⟨s'', phase⟩, hresume, h⟩ := Option.bind_eq_some_iff.mp h
  exact ⟨call, s'', phase, hcall, hresume, (Option.some.inj h).symm⟩

lemma binds_of_orderly {n : ℕ} {outcome : Outcome} {throws : Bool} {call : Call}
    (h : s.Orderly (.settle n outcome throws)) (hcall : s.calls[n]? = some call) :
    call.phase.binds = true → outcome = .ok := by
  intro hbinds
  refine h ?_
  rw [hcall]
  exact hbinds

/-- **An orderly step keeps the invariant.** -/
lemma Inv.step {a : Act} (h : Inv options s) (ha : s.Orderly a)
    (hstep : s.step options a = some s') : Inv options s' := by
  cases a with
  | listen =>
      obtain rfl := Option.some.inj hstep
      exact h.listen ha
  | settle n outcome throws =>
      obtain ⟨call, s'', phase, hcall, hresume, rfl⟩ := step_settle hstep
      exact h.settle hcall hresume (binds_of_orderly ha hcall) _
  | close outcome =>
      obtain ⟨hidle, rfl⟩ := ha
      exact h.close hidle hstep

/-- An orderly step keeps to the property. -/
lemma Inv.retriable {a : Act} (h : Inv options s) (ha : s.Orderly a) : s.Retriable options a := by
  cases a with
  | listen => trivial
  | close outcome => trivial
  | settle n outcome throws =>
      intro call s' phase hcall hresume
      have hpending : ¬ call.phase.Settled := by
        rintro (hphase | hphase) <;> rw [hphase] at hresume <;> cases hresume
      have hfits := (resume_fits hresume (h.fits n call hcall hpending).1
        (binds_of_orderly ha hcall)).1
      refine ⟨?_, ?_⟩
      · rintro rfl
        exact hfits
      · rintro rfl _
        exact hfits

/-- **A failed start can be retried, if the port can be bound.** -/
theorem retriable_of_orderly (options : ServerOptions) (as : List Act)
    (h : Meets (step options) Orderly {} as) : Meets (step options) (Retriable options) {} as :=
  Meets.mono (fun _ _ _ hs ha hstep => Inv.step hs ha hstep) (fun _ _ hs ha => Inv.retriable hs ha)
    Inv.init h

/-- The registration of a plugin fails, and the next call starts the server. -/
theorem retriable_registration :
    Meets (step {}) (Retriable {}) {}
      [.listen, .settle 0 .failed false, .listen, .settle 1 .ok false, .settle 1 .ok false,
        .settle 1 .ok false, .settle 1 .ok false, .settle 1 .ok false] :=
  retriable_of_orderly {} _ (by decide)

/-- **A port that cannot be bound leaves a server that does not listen.** -/
lemma not_retriable_of_binding {n k : ℕ} {call : Call} (hcall : s.calls[n]? = some call)
    (hphase : call.phase = .listenOnPort k) (hserver : s.server = some k)
    (hsilent : s.servers[k]? = some {}) (throws : Bool) :
    ¬ s.Retriable options (.settle n .failed throws) := by
  intro h
  have hready := (h call s .rejected hcall (by rw [hphase]; rfl)).1 rfl k hserver
  rw [hsilent] at hready
  cases hready

/-- The port is taken; the next call finds the server in the field, and resolves. -/
theorem not_retriable :
    ¬ ∀ (options : ServerOptions) (as : List Act),
      Meets (step options) (Retriable options) {} as := by
  intro h
  have hrun := h {} [.listen, .settle 0 .ok false, .settle 0 .ok false, .settle 0 .ok false,
    .settle 0 .failed false, .listen, .settle 1 .ok false, .settle 1 .ok false,
    .settle 1 .ok false]
  have hready := (hrun.2.2.2.2.1 _ _ _ rfl rfl).1 rfl 0 rfl
  cases hready

end ServerInstance

end Blaize.Start
