import Blaize.Lib.Machine

/-!
Shutting servers down (`server/stop.ts` and `close` of `server/create.ts` in
`packages/blaize-core/src`), for any number of server instances in one process.

An action is a call of `close()`, which runs up to the first `await`, or the settlement of
what a call awaits.  A rejection and a timeout are the same to the code, so both are
`failed`.  The listeners of an event may throw; it counts as emitted once `emit` has
returned.  In development a failed shutdown ends the process, which no step follows.

* `close`, `stopServer` and its pieces between the awaits;
* `StoppedWhenResolved`: a call of `close()` that resolved has stopped its own instance;
* `stopped_iff_alone`: **every call keeps to this exactly if none is made on a running
  instance while the flag `isShuttingDown` is set**, by whichever instance.
-/

namespace Blaize.Stop

open Machine

/-! ### Data -/

/-- The events of a server. -/
inductive ServerEvent where
  | stopping
  | stopped
  | error
  deriving DecidableEq, Repr

/-- A server instance: what it has to close, its HTTP server, and the events it emitted. -/
structure ServerInstance where
  hasRouterClose : Bool := true
  hasEventBus : Bool := true
  /-- Whether `server` is not `null`. -/
  server : Bool := true
  signalHandlers : Bool := true
  listening : Bool := true
  closed : Bool := false
  events : List ServerEvent := []
  deriving DecidableEq, Repr

/-- Which callbacks are given. -/
structure StopOptions where
  onStopping : Bool := false
  onStopped : Bool := false
  deriving DecidableEq, Repr

/-- What a call of `close()` awaits, or how it settled. -/
inductive Phase where
  | onStopping
  | routerClose
  | pluginStop
  | eventBusDisconnect
  /-- `started` says that the server was still listening when it was told to close. -/
  | serverClose (started : Bool)
  | terminatePlugins
  | onStopped
  | resolved
  | rejected
  deriving DecidableEq, Repr

/-- A call of `close()` with the place where it waits. -/
structure Call (ι : Type) where
  serverInstance : ι
  options : StopOptions
  phase : Phase
  deriving DecidableEq, Repr

/-- The process: the flag of the module, the instances and the calls so far. -/
structure Process (ι : Type) where
  isShuttingDown : Bool := false
  instances : ι → ServerInstance
  calls : List (Call ι) := []

/-- How what it waits for ends. -/
inductive Outcome where
  | ok
  | failed
  deriving DecidableEq, Repr

/-! ### The pieces of `stopServer` -/

variable {ι : Type} [DecidableEq ι]

namespace Process

/-- Changes one server. -/
def modifyInstance (p : Process ι) (i : ι) (f : ServerInstance → ServerInstance) : Process ι :=
  { p with instances := fun j => if j = i then f (p.instances j) else p.instances j }

/-- `events.emit`, whose listeners do not throw. -/
def emit (p : Process ι) (i : ι) (event : ServerEvent) : Process ι :=
  p.modifyInstance i fun s => { s with events := s.events ++ [event] }

/-- The `catch` of `stopServer`: the call rejects, whether `emit` throws or not. -/
def catchError (p : Process ι) (i : ι) (throws : ServerEvent → Bool) : Process ι × Phase :=
  let p := { p with isShuttingDown := false }
  let p := p.modifyInstance i fun s => { s with listening := false }
  (if throws .error then p else p.emit i .error, .rejected)

/-- The end of `stopServer`. -/
def finish (p : Process ι) (i : ι) (throws : ServerEvent → Bool) : Process ι × Phase :=
  if throws .stopped then p.catchError i throws
  else
    let p := p.emit i .stopped
    let p := p.modifyInstance i fun s => { s with server := false }
    ({ p with isShuttingDown := false }, .resolved)

/-- The plugins are terminated. -/
def terminated (p : Process ι) (i : ι) (options : StopOptions) (throws : ServerEvent → Bool) :
    Process ι × Phase :=
  if options.onStopped then (p, .onStopped) else p.finish i throws

/-- `server.close`. -/
def closeServer (p : Process ι) (i : ι) : Process ι × Phase :=
  (p.modifyInstance i fun s => { s with listening := false },
    .serverClose (p.instances i).listening)

/-- The plugins have heard of the stop. -/
def pluginsStopped (p : Process ι) (i : ι) : Process ι × Phase :=
  if (p.instances i).hasEventBus then (p, .eventBusDisconnect) else p.closeServer i

/-- The router is closed. -/
def routerClosed (p : Process ι) : Process ι × Phase := (p, .pluginStop)

/-- The beginning of the stop. -/
def stopping (p : Process ι) (i : ι) (throws : ServerEvent → Bool) : Process ι × Phase :=
  if throws .stopping then p.catchError i throws
  else
    let p := p.emit i .stopping
    if (p.instances i).hasRouterClose then (p, .routerClose) else p.routerClosed

/-- `stopServer`, up to its first `await`. -/
def stopServer (p : Process ι) (i : ι) (options : StopOptions) (throws : ServerEvent → Bool) :
    Process ι × Phase :=
  if p.isShuttingDown then (p, .resolved)
  else if !(p.instances i).server then (p, .resolved)
  else
    let p := { p with isShuttingDown := true }
    if options.onStopping then (p, .onStopping) else p.stopping i throws

/-- `close`, up to its first `await`. -/
def close (p : Process ι) (i : ι) (options : StopOptions) (throws : ServerEvent → Bool) :
    Process ι × Phase :=
  if !(p.instances i).server then (p, .resolved)
  else
    let p := p.modifyInstance i fun s => { s with signalHandlers := false }
    p.stopServer i options throws

/-- What follows the `await` of a phase; `none` where it cannot settle so. -/
def resume (p : Process ι) (i : ι) (options : StopOptions) (phase : Phase) (outcome : Outcome)
    (throws : ServerEvent → Bool) : Option (Process ι × Phase) :=
  match phase, outcome with
  | .onStopping, .ok => some (p.stopping i throws)
  | .onStopping, .failed => some (p.catchError i throws)
  | .routerClose, _ => some p.routerClosed
  | .pluginStop, _ => some (p.pluginsStopped i)
  | .eventBusDisconnect, _ => some (p.closeServer i)
  | .serverClose started, .ok =>
      -- a server that no longer listens calls back with an error
      if started then
        some (p.modifyInstance i fun s => { s with closed := true }, .terminatePlugins)
      else none
  | .serverClose _, .failed => some (p.catchError i throws)
  | .terminatePlugins, _ => some (p.terminated i options throws)
  | .onStopped, .ok => some (p.finish i throws)
  | .onStopped, .failed => some (p.catchError i throws)
  | .resolved, _ => none
  | .rejected, _ => none

end Process

/-! ### The machine -/

/-- What can happen next. -/
inductive Act (ι : Type) where
  | close (i : ι) (options : StopOptions) (throws : ServerEvent → Bool)
  | settle (call : ℕ) (outcome : Outcome) (throws : ServerEvent → Bool)

/-- What an act does; `none`: it cannot happen. -/
def step (p : Process ι) : Act ι → Option (Process ι)
  | .close i options throws =>
      let (p, phase) := p.close i options throws
      some { p with calls := p.calls ++ [⟨i, options, phase⟩] }
  | .settle n outcome throws => do
      let call ← p.calls[n]?
      let (p, phase) ← p.resume call.serverInstance call.options call.phase outcome throws
      some { p with calls := p.calls.set n { call with phase := phase } }

/-- The instance has been stopped. -/
def ServerInstance.IsStopped (s : ServerInstance) : Prop :=
  s.closed = true ∧ ServerEvent.stopped ∈ s.events

/-- A call of `close()` that has resolved has stopped its own instance. -/
def StoppedWhenResolved (p : Process ι) : Prop :=
  ∀ call ∈ p.calls, call.phase = .resolved → (p.instances call.serverInstance).IsStopped

/-- No shutdown is in progress when `close()` is called on an instance that runs. -/
def Alone (p : Process ι) : Act ι → Prop
  | .close i _ _ => (p.instances i).server = true → p.isShuttingDown = false
  | .settle _ _ _ => True

/-! ### What a piece does -/

/-- A piece for the instance `i` leaves the other instances alone, and it neither reopens a
server nor takes `server` or the event `stopped` of `i` from or to anyone. -/
structure Keeps (i : ι) (p p' : Process ι) : Prop where
  calls : p'.calls = p.calls
  others : ∀ j, j ≠ i → p'.instances j = p.instances j
  server : (p'.instances i).server = (p.instances i).server
  stopped : ServerEvent.stopped ∈ (p'.instances i).events ↔ .stopped ∈ (p.instances i).events
  closed : (p.instances i).closed = true → (p'.instances i).closed = true

omit [DecidableEq ι] in
lemma Keeps.trans {i : ι} {p p' p'' : Process ι} (h : Keeps i p p') (h' : Keeps i p' p'') :
    Keeps i p p'' where
  calls := h'.calls.trans h.calls
  others j hj := (h'.others j hj).trans (h.others j hj)
  server := h'.server.trans h.server
  stopped := h'.stopped.trans h.stopped
  closed hc := h'.closed (h.closed hc)

omit [DecidableEq ι] in
lemma Keeps.flag (i : ι) (p : Process ι) (flag : Bool) :
    Keeps i p { p with isShuttingDown := flag } :=
  ⟨rfl, fun _ _ => rfl, rfl, Iff.rfl, id⟩

lemma modifyInstance_self (p : Process ι) (i : ι) (f : ServerInstance → ServerInstance) :
    (p.modifyInstance i f).instances i = f (p.instances i) := if_pos rfl

lemma Keeps.modify (i : ι) (p : Process ι) {f : ServerInstance → ServerInstance}
    (hserver : ∀ s, (f s).server = s.server)
    (hstopped : ∀ s, ServerEvent.stopped ∈ (f s).events ↔ .stopped ∈ s.events)
    (hclosed : ∀ s, s.closed = true → (f s).closed = true) :
    Keeps i p (p.modifyInstance i f) where
  calls := rfl
  others j hj := if_neg hj
  server := by rw [modifyInstance_self, hserver]
  stopped := by rw [modifyInstance_self, hstopped]
  closed hc := by rw [modifyInstance_self]; exact hclosed _ hc

lemma Keeps.emit (i : ι) (p : Process ι) {event : ServerEvent} (h : event ≠ .stopped) :
    Keeps i p (p.emit i event) :=
  .modify i p (fun _ => rfl) (fun s => by simp [Ne.symm h]) fun _ => id

/-- What a piece of `stopServer` can come to: it goes on, fails, or it has stopped the
instance. -/
structure Piece (i : ι) (p : Process ι) (r : Process ι × Phase) : Prop where
  keeps : r.2 ≠ .resolved → Keeps i p r.1
  late : r.2 = .terminatePlugins ∨ r.2 = .onStopped → (r.1.instances i).closed = true
  resolved : r.2 = .resolved → r.1.calls = p.calls ∧
    (∀ j, j ≠ i → r.1.instances j = p.instances j) ∧
    (r.1.instances i).server = false ∧ (r.1.instances i).IsStopped

variable {p p' : Process ι} {i : ι} {phase : Phase} {r : Process ι × Phase}
  {throws : ServerEvent → Bool} {options : StopOptions} {outcome : Outcome} {a : Act ι}

omit [DecidableEq ι] in
/-- A piece that goes on before the server is closed. -/
lemma Piece.of_keeps (h : Keeps i p p') (hresolved : phase ≠ .resolved)
    (hearly : phase ≠ .terminatePlugins ∧ phase ≠ .onStopped) : Piece i p (p', phase) where
  keeps _ := h
  late hl := absurd hl (not_or.mpr hearly)
  resolved hr := absurd hr hresolved

omit [DecidableEq ι] in
lemma Piece.after {p₀ : Process ι} (h : Keeps i p₀ p) (h' : Piece i p r) : Piece i p₀ r where
  keeps hp := h.trans (h'.keeps hp)
  late := h'.late
  resolved hr := by
    obtain ⟨hcalls, hothers, hserver, hstopped⟩ := h'.resolved hr
    exact ⟨hcalls.trans h.calls, fun j hj => (hothers j hj).trans (h.others j hj), hserver,
      hstopped⟩

lemma catchError_piece (p : Process ι) (i : ι) (throws : ServerEvent → Bool) :
    Piece i p (p.catchError i throws) := by
  have hclose : Keeps i p ({ p with isShuttingDown := false }.modifyInstance i fun s =>
      { s with listening := false }) :=
    (Keeps.flag i p false).trans (.modify i _ (fun _ => rfl) (fun _ => Iff.rfl) fun _ => id)
  refine .of_keeps ?_ nofun ⟨nofun, nofun⟩
  split
  · exact hclose
  · exact hclose.trans (.emit i _ nofun)

lemma closeServer_piece (p : Process ι) (i : ι) : Piece i p (p.closeServer i) := by
  have hclose : Keeps i p (p.modifyInstance i fun s => { s with listening := false }) :=
    .modify i p (fun _ => rfl) (fun _ => Iff.rfl) fun _ => id
  exact .of_keeps hclose nofun ⟨nofun, nofun⟩

omit [DecidableEq ι] in
lemma Keeps.refl (i : ι) (p : Process ι) : Keeps i p p := ⟨rfl, fun _ _ => rfl, rfl, Iff.rfl, id⟩

lemma pluginsStopped_piece (p : Process ι) (i : ι) : Piece i p (p.pluginsStopped i) := by
  unfold Process.pluginsStopped
  split
  · exact .of_keeps (.refl i p) nofun ⟨nofun, nofun⟩
  · exact closeServer_piece p i

omit [DecidableEq ι] in
lemma routerClosed_piece (p : Process ι) (i : ι) : Piece i p p.routerClosed :=
  .of_keeps (.refl i p) nofun ⟨nofun, nofun⟩

lemma stopping_piece (p : Process ι) (i : ι) (throws : ServerEvent → Bool) :
    Piece i p (p.stopping i throws) := by
  unfold Process.stopping
  dsimp only
  split
  · exact catchError_piece p i throws
  · have hemit : Keeps i p (p.emit i .stopping) := .emit i p nofun
    split
    · exact .of_keeps hemit nofun ⟨nofun, nofun⟩
    · exact .after hemit (routerClosed_piece _ i)

/-- The end of `stopServer`, behind the `await` for the server. -/
lemma finish_piece (p : Process ι) (i : ι) (throws : ServerEvent → Bool)
    (hclosed : (p.instances i).closed = true) : Piece i p (p.finish i throws) := by
  unfold Process.finish
  dsimp only
  split
  · exact catchError_piece p i throws
  · have hemit : (p.emit i .stopped).instances i =
        { p.instances i with events := (p.instances i).events ++ [.stopped] } :=
      modifyInstance_self p i _
    refine ⟨nofun, nofun, fun _ => ⟨rfl, fun j hj => ?_, ?_, ?_, ?_⟩⟩
    · exact (if_neg hj).trans (if_neg hj)
    · rw [modifyInstance_self]
    · rw [modifyInstance_self, hemit]
      exact hclosed
    · rw [modifyInstance_self, hemit]
      exact List.mem_append_right _ List.mem_cons_self

lemma terminated_piece (p : Process ι) (i : ι) (options : StopOptions)
    (throws : ServerEvent → Bool) (hclosed : (p.instances i).closed = true) :
    Piece i p (p.terminated i options throws) := by
  unfold Process.terminated
  split
  · exact ⟨fun _ => .refl i p, fun _ => hclosed, nofun⟩
  · exact finish_piece p i throws hclosed

/-- **What follows an await.** -/
theorem resume_piece (h : p.resume i options phase outcome throws = some r)
    (hlate : phase = .terminatePlugins ∨ phase = .onStopped → (p.instances i).closed = true) :
    Piece i p r := by
  unfold Process.resume at h
  split at h
  · exact Option.some.inj h ▸ stopping_piece p i throws
  · exact Option.some.inj h ▸ catchError_piece p i throws
  · exact Option.some.inj h ▸ routerClosed_piece p i
  · exact Option.some.inj h ▸ pluginsStopped_piece p i
  · exact Option.some.inj h ▸ closeServer_piece p i
  · split at h
    · obtain rfl := Option.some.inj h
      have hclose : Keeps i p (p.modifyInstance i fun s => { s with closed := true }) :=
        .modify i p (fun _ => rfl) (fun _ => Iff.rfl) fun _ _ => rfl
      refine ⟨fun _ => hclose, fun _ => ?_, nofun⟩
      rw [modifyInstance_self]
    · cases h
  · exact Option.some.inj h ▸ catchError_piece p i throws
  · exact Option.some.inj h ▸ terminated_piece p i options throws (hlate (.inl rfl))
  · exact Option.some.inj h ▸ finish_piece p i throws (hlate (.inr rfl))
  · exact Option.some.inj h ▸ catchError_piece p i throws
  · cases h
  · cases h

/-- **What a call of `close()` does at once**: it is turned away, or it begins. -/
theorem close_cases (p : Process ι) (i : ι) (options : StopOptions) (throws : ServerEvent → Bool) :
    (Keeps i p (p.close i options throws).1 ∧ (p.close i options throws).2 = .resolved ∧
      ((p.instances i).server = true → p.isShuttingDown = true)) ∨
    (Piece i p (p.close i options throws) ∧ p.isShuttingDown = false) := by
  have hsignal : Keeps i p (p.modifyInstance i fun s => { s with signalHandlers := false }) :=
    .modify i p (fun _ => rfl) (fun _ => Iff.rfl) fun _ => id
  unfold Process.close
  dsimp only
  split
  next hnull =>
    refine .inl ⟨.refl i p, rfl, fun hserver => ?_⟩
    rw [hserver] at hnull
    cases hnull
  next hserver =>
    unfold Process.stopServer
    dsimp only
    split
    next hflag => exact .inl ⟨hsignal, rfl, fun _ => hflag⟩
    next hflag =>
      have hbegin : Keeps i p { (p.modifyInstance i fun s =>
          { s with signalHandlers := false }) with isShuttingDown := true } :=
        hsignal.trans (.flag i _ true)
      refine .inr ⟨?_, (Bool.not_eq_true _).mp hflag⟩
      rw [modifyInstance_self, if_neg hserver]
      split
      · exact .of_keeps hbegin nofun ⟨nofun, nofun⟩
      · exact .after hbegin (stopping_piece _ i throws)

/-! ### Runs -/

/-- The invariant: `server` is `null` exactly for the instances that were stopped, and the
server of a call that has got behind it is closed. -/
structure Sound (p : Process ι) : Prop where
  null : ∀ i, (p.instances i).server = false → (p.instances i).IsStopped
  running : ∀ i, (p.instances i).server = true → ServerEvent.stopped ∉ (p.instances i).events
  late : ∀ call ∈ p.calls, call.phase = .terminatePlugins ∨ call.phase = .onStopped →
    (p.instances call.serverInstance).closed = true

/-- What both a piece and a call that is turned away do to the instances. -/
structure Moves (i : ι) (p p' : Process ι) : Prop where
  others : ∀ j, j ≠ i → p'.instances j = p.instances j
  closed : (p.instances i).closed = true → (p'.instances i).closed = true
  outcome : ((p'.instances i).server = (p.instances i).server ∧
      (ServerEvent.stopped ∈ (p'.instances i).events ↔ .stopped ∈ (p.instances i).events)) ∨
    (p'.instances i).server = false ∧ (p'.instances i).IsStopped

omit [DecidableEq ι] in
lemma Keeps.moves (h : Keeps i p p') : Moves i p p' :=
  ⟨h.others, h.closed, .inl ⟨h.server, h.stopped⟩⟩

omit [DecidableEq ι] in
lemma Piece.moves (h : Piece i p r) : Moves i p r.1 := by
  by_cases hresolved : r.2 = .resolved
  · obtain ⟨-, hothers, hserver, hstopped⟩ := h.resolved hresolved
    exact ⟨hothers, fun _ => hstopped.1, .inr ⟨hserver, hstopped⟩⟩
  · exact (h.keeps hresolved).moves

namespace Moves

variable {calls : List (Call ι)}

omit [DecidableEq ι] in
lemma closed_all (h : Moves i p p') (j : ι) (hj : (p.instances j).closed = true) :
    (p'.instances j).closed = true := by
  by_cases hij : j = i
  · subst hij
    exact h.closed hj
  · rw [h.others j hij]
    exact hj

omit [DecidableEq ι] in
/-- An instance that was stopped stays stopped. -/
lemma isStopped (h : Moves i p p') (j : ι) (hj : (p.instances j).IsStopped) :
    (p'.instances j).IsStopped := by
  by_cases hij : j = i
  · subst hij
    obtain ⟨-, hstopped⟩ | ⟨-, hstopped⟩ := h.outcome
    · exact ⟨h.closed hj.1, hstopped.mpr hj.2⟩
    · exact hstopped
  · rw [h.others j hij]
    exact hj

omit [DecidableEq ι] in
lemma sound (h : Moves i p p') (hs : Sound p)
    (hcalls : ∀ call ∈ calls, call ∈ p.calls ∨ call.serverInstance = i ∧
      (call.phase = .terminatePlugins ∨ call.phase = .onStopped →
        (p'.instances i).closed = true)) :
    Sound { p' with calls := calls } := by
  refine ⟨fun j hj => ?_, fun j hj => ?_, fun call hc hlate => ?_⟩
  · by_cases hij : j = i
    · subst hij
      obtain ⟨hserver, -⟩ | ⟨-, hstopped⟩ := h.outcome
      · exact h.isStopped j (hs.null j (hserver ▸ hj))
      · exact hstopped
    · exact h.isStopped j (hs.null j (h.others j hij ▸ hj))
  · by_cases hij : j = i
    · subst hij
      obtain ⟨hserver, hstopped⟩ | ⟨hserver, -⟩ := h.outcome
      · exact fun hmem => hs.running j (hserver ▸ hj) (hstopped.mp hmem)
      · rw [hserver] at hj
        cases hj
    · have hsame := h.others j hij
      exact fun hmem => hs.running j (hsame ▸ hj) (hsame ▸ hmem)
  · rcases hcalls call hc with hold | ⟨rfl, hnew⟩
    · exact h.closed_all _ (hs.late call hold hlate)
    · exact hnew hlate

omit [DecidableEq ι] in
lemma stoppedWhenResolved (h : Moves i p p') (hr : StoppedWhenResolved p)
    (hcalls : ∀ call ∈ calls, call ∈ p.calls ∨ call.serverInstance = i ∧
      (call.phase = .resolved → (p'.instances i).IsStopped)) :
    StoppedWhenResolved { p' with calls := calls } := by
  intro call hc hresolved
  rcases hcalls call hc with hold | ⟨rfl, hnew⟩
  · exact h.isStopped _ (hr call hold hresolved)
  · exact hnew hresolved

end Moves

omit [DecidableEq ι] in
lemma Piece.calls (h : Piece i p r) : r.1.calls = p.calls := by
  by_cases hresolved : r.2 = .resolved
  · exact (h.resolved hresolved).1
  · exact (h.keeps hresolved).calls

/-- **One action keeps the invariant, and keeps resolved calls stopped exactly if `close()`
was called alone.** -/
theorem step_exact (hs : Sound p) (h : step p a = some p') :
    Sound p' ∧ (StoppedWhenResolved p → (StoppedWhenResolved p' ↔ Alone p a)) := by
  cases a with
  | close i options throws =>
      obtain rfl := Option.some.inj h
      obtain ⟨hkeeps, hphase, hturned⟩ | ⟨hpiece, hflag⟩ := close_cases p i options throws
      · have hcalls : ∀ call ∈ (p.close i options throws).1.calls ++
            [⟨i, options, (p.close i options throws).2⟩], call ∈ p.calls ∨
            call = ⟨i, options, (p.close i options throws).2⟩ := by
          rw [hkeeps.calls]
          exact fun call hc => (List.mem_append.mp hc).imp_right List.mem_singleton.mp
        refine ⟨hkeeps.moves.sound hs fun call hc => (hcalls call hc).imp_right ?_,
          fun hr => ⟨?_, ?_⟩⟩
        · rintro rfl
          refine ⟨rfl, fun hlate => ?_⟩
          rw [hphase] at hlate
          exact hlate.elim nofun nofun
        · -- the call resolves at once, so the instance must have been stopped before
          intro hall hserver
          have hstopped := hall _ (List.mem_append_right _ List.mem_cons_self) hphase
          exact absurd (hkeeps.stopped.mp hstopped.2) (hs.running i hserver)
        · intro halone
          refine hkeeps.moves.stoppedWhenResolved hr fun call hc => (hcalls call hc).imp_right ?_
          rintro rfl
          refine ⟨rfl, fun _ => hkeeps.moves.isStopped i (hs.null i ?_)⟩
          by_contra hserver
          have hrunning := (Bool.not_eq_false _).mp hserver
          rw [halone hrunning] at hturned
          exact absurd (hturned hrunning) (by decide)
      · have hcalls : ∀ call ∈ (p.close i options throws).1.calls ++
            [⟨i, options, (p.close i options throws).2⟩], call ∈ p.calls ∨
            call = ⟨i, options, (p.close i options throws).2⟩ := by
          rw [hpiece.calls]
          exact fun call hc => (List.mem_append.mp hc).imp_right List.mem_singleton.mp
        refine ⟨hpiece.moves.sound hs fun call hc => (hcalls call hc).imp_right ?_, fun hr => ?_⟩
        · rintro rfl
          exact ⟨rfl, hpiece.late⟩
        · refine iff_of_true ?_ fun _ => hflag
          refine hpiece.moves.stoppedWhenResolved hr fun call hc => (hcalls call hc).imp_right ?_
          rintro rfl
          exact ⟨rfl, fun hresolved => (hpiece.resolved hresolved).2.2.2⟩
  | settle n outcome throws =>
      obtain ⟨call, hcall, hrest⟩ := Option.bind_eq_some_iff.mp h
      obtain ⟨r, hresume, hp'⟩ := Option.bind_eq_some_iff.mp hrest
      obtain rfl := Option.some.inj hp'
      have hmem : call ∈ p.calls := List.mem_of_getElem? hcall
      have hpiece := resume_piece hresume (hs.late call hmem)
      have hcalls : ∀ c ∈ r.1.calls.set n { call with phase := r.2 },
          c ∈ p.calls ∨ c = { call with phase := r.2 } := by
        rw [hpiece.calls]
        exact fun c hc => List.mem_or_eq_of_mem_set hc
      refine ⟨hpiece.moves.sound hs fun c hc => (hcalls c hc).imp_right ?_, fun hr => ?_⟩
      · rintro rfl
        exact ⟨rfl, hpiece.late⟩
      · refine iff_of_true ?_ trivial
        refine hpiece.moves.stoppedWhenResolved hr fun c hc => (hcalls c hc).imp_right ?_
        rintro rfl
        exact ⟨rfl, fun hresolved => (hpiece.resolved hresolved).2.2.2⟩

/-- The instances run, and nobody has called `close()` yet. -/
def Process.start (hasRouterClose hasEventBus : ι → Bool) : Process ι where
  instances i := { hasRouterClose := hasRouterClose i, hasEventBus := hasEventBus i }

/-- **Calls of `close()` stop their own instance exactly if they are made alone.**  In every
run of the process: wherever it gets, every call of `close()` that has resolved has closed
the server of its instance and emitted `stopped`, if and only if no call on a running
instance was made while a shutdown was in progress. -/
theorem stopped_iff_alone (hasRouterClose hasEventBus : ι → Bool) (as : List (Act ι)) :
    (∀ bs, bs <+: as → ∀ p, exec step (Process.start hasRouterClose hasEventBus) bs = some p →
        StoppedWhenResolved p) ↔
      Meets step Alone (Process.start hasRouterClose hasEventBus) as := by
  refine forall_prefix_iff_meets (J := Sound) (fun _ _ _ hs h => (step_exact hs h).1)
    (fun _ _ _ hs hr h => (step_exact hs h).2 hr) (fun p a h => ?_) ?_
    (fun _ hc => absurd hc List.not_mem_nil) as
  · cases a with
    | close i options throws => cases h
    | settle n outcome throws => trivial
  · exact ⟨fun _ h => (nomatch h), fun _ _ => List.not_mem_nil, nofun⟩

/-- The second server is told to close while the first one waits for its plugins. -/
theorem not_stopped_overlapping :
    ¬ ∀ (as : List (Act Bool)) (p : Process Bool),
      exec step (Process.start (fun _ => false) fun _ => true) as = some p →
        StoppedWhenResolved p := by
  intro h
  have hall := h [.close false {} fun _ => false, .close true {} fun _ => false] _ rfl
  have hstopped := hall ⟨true, {}, .resolved⟩ (by decide) rfl
  cases hstopped.1

end Blaize.Stop
