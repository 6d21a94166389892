import Blaize.Client.OneConnection
import Blaize.Client.Sound

/-!
`createSSEClient` (`packages/blaize-client/src/sse-client.ts`), once it has made the client.

The promise that it returns races the first `connect` against the timer of `connectionTimeout`;
whichever loses still runs.  The application gets the client with the promise, and can call it only
then.

* `closed_absorbing`: **after `close()` the state stays `'closed'` and no `EventSource` is made**,
  whichever handlers close the client;
* `Fresh`: the client before any connection has opened;
* `onlyConnecting_iff_inert`: **the timeout affects connecting only, exactly if it finds nothing to
  close in a client that has been open**;
* `not_onlyConnecting_open`: one connection that opens in time is enough.
-/

namespace Blaize.Client

open Machine

/-! ### The code -/

/-- The states of the promise that is returned. -/
inductive Promise where
  | pending
  | resolved
  | rejected
  deriving DecidableEq, Repr

/-- The first of two promises that settles. -/
def Promise.race (first second : Promise) : Promise :=
  if first = .pending then second else first

/-- The options that `createSSEClient` itself reads; `connectionTimeout` says whether one is set. -/
structure CreateOptions where
  waitForConnection : Bool := true
  connectionTimeout : Bool := false

/-- A client, the promise of `createSSEClient`, and whether its timer is pending; `opened` says
whether a connection has opened. -/
structure Creation where
  client : SSEClient
  promise : Promise
  timer : Bool
  opened : Bool := false

/-- What can happen next. -/
inductive CreateAct where
  | client (action : SSEClient.Action)
  | timeout
  deriving DecidableEq, Repr

namespace Creation

variable (closing : ℕ → Bool) (o : Options)

/-- The promise of the first `connect`: its listeners take themselves off when they settle it, and
only `handleOpen` puts the permanent handlers on. -/
def connected (c : SSEClient) : Promise :=
  match c.sources with
  | [] => .rejected
  | s :: _ => if 0 < s.permanent then .resolved else if s.temporary then .pending else .rejected

/-- `createSSEClient`, up to its first `await`; `thrown` is what the factory throws. -/
def createSSEClient (options : CreateOptions) (thrown : Option String) : Creation :=
  let client := Reentrant.create closing o thrown
  if options.waitForConnection then
    { client, promise := connected client, timer := options.connectionTimeout }
  else { client, promise := .resolved, timer := false }

/-- The application calls the client. -/
def applies : SSEClient.Action → Bool
  | .on _ _ | .off _ _ | .close => true
  | _ => false

/-- A connection opens. -/
def opens : SSEClient.Action → Bool
  | .open _ => true
  | _ => false

/-- What an act does; `none`: it cannot happen. -/
def step (r : Creation) : CreateAct → Option Creation
  | .client a =>
      if applies a ∧ r.promise ≠ .resolved then none
      else
        (Reentrant.step closing o r.client a).map fun client =>
          { r with
            client
            promise := r.promise.race (connected client)
            opened := r.opened || opens a }
  | .timeout =>
      if r.timer then
        some
          { r with
            client := r.client.close
            promise := r.promise.race .rejected
            timer := false }
      else none

variable {closing o} {r r' r₁ : Creation} {options : CreateOptions} {thrown : Option String}

lemma step_client {a : SSEClient.Action} (h : step closing o r (.client a) = some r') :
    (applies a = true → r.promise = .resolved) ∧
      ∃ client, Reentrant.step closing o r.client a = some client ∧
        r' = { r with
          client
          promise := r.promise.race (connected client)
          opened := r.opened || opens a } := by
  rw [step] at h
  split at h
  next => cases h
  next hallowed =>
    obtain ⟨client, hclient, rfl⟩ := Option.map_eq_some_iff.mp h
    refine ⟨fun ha => ?_, client, hclient, rfl⟩
    by_contra hpromise
    exact hallowed ⟨ha, hpromise⟩

lemma step_timeout (h : step closing o r .timeout = some r') :
    r.timer = true ∧
      r' = { r with
        client := r.client.close
        promise := r.promise.race .rejected
        timer := false } := by
  rw [step, Option.ite_none_right_eq_some] at h
  exact ⟨h.1, (Option.some.inj h.2).symm⟩

/-! ### After `close` -/

open Reentrant in
lemma sound_step {a : CreateAct} (h : Sound r.client) (hstep : step closing o r a = some r') :
    Sound r'.client := by
  cases a with
  | client a =>
      obtain ⟨-, client, hclient, rfl⟩ := step_client hstep
      exact h.step hclient
  | timeout =>
      obtain ⟨-, rfl⟩ := step_timeout hstep
      exact h.toTidy.close

open Reentrant in
lemma sound_create (options : CreateOptions) (thrown : Option String) :
    Sound (createSSEClient closing o options thrown).client := by
  rw [createSSEClient]
  split
  next => exact create_sound thrown
  next => exact create_sound thrown

open Reentrant in
lemma sound_exec {as : List CreateAct}
    (h : exec (step closing o) (createSSEClient closing o options thrown) as = some r) :
    Sound r.client :=
  meets_invariant (fun _ _ _ hs _ hstep => sound_step hs hstep) (sound_create options thrown)
    (meets_true _ as) h

open Reentrant in
lemma still_step {a : CreateAct} (h : Sound r.client) (hstep : step closing o r a = some r')
    (hcalled : r'.client.closeCalled = true) : Still r.client r'.client := by
  cases a with
  | client a =>
      obtain ⟨-, client, hclient, rfl⟩ := step_client hstep
      exact h.still hclient hcalled
  | timeout =>
      obtain ⟨-, rfl⟩ := step_timeout hstep
      exact (close_emitted r.client).still

open Reentrant in
lemma closeCalled_step {a : CreateAct} (h : Sound r.client) (hstep : step closing o r a = some r')
    (hcalled : r.client.closeCalled = true) : r'.client.closeCalled = true := by
  cases a with
  | client a =>
      obtain ⟨-, client, hclient, rfl⟩ := step_client hstep
      exact h.closeCalled hclient hcalled
  | timeout =>
      obtain ⟨-, rfl⟩ := step_timeout hstep
      exact SSEClient.close_closeCalled r.client

/-- **Closed is absorbing**: from the step on in which `close()` is called the state is `'closed'`,
and no `EventSource` is created. -/
theorem closed_absorbing {as bs : List CreateAct} {a : CreateAct}
    (h : exec (step closing o) (createSSEClient closing o options thrown) as = some r)
    (hstep : step closing o r a = some r₁) (hcalled : r₁.client.closeCalled = true)
    (h' : exec (step closing o) r₁ bs = some r') :
    r'.client.state = .closed ∧ r'.client.sources.length = r.client.sources.length := by
  have hsound := sound_exec h
  have hsound₁ := sound_step hsound hstep
  have hfirst := still_step hsound hstep hcalled
  have hkeep : ∀ (s : Creation) (b : CreateAct) (s' : Creation),
      (Reentrant.Sound s.client ∧ s.client.closeCalled = true ∧
        s.client.sources.length = r.client.sources.length) → True →
      step closing o s b = some s' →
      (Reentrant.Sound s'.client ∧ s'.client.closeCalled = true ∧
        s'.client.sources.length = r.client.sources.length) := by
    rintro s b s' ⟨hs, hc, hlength⟩ - hb
    have hc' := closeCalled_step hs hb hc
    exact ⟨sound_step hs hb, hc', (still_step hs hb hc').length.trans hlength⟩
  obtain ⟨hsound', hcalled', hlength⟩ :=
    meets_invariant hkeep ⟨hsound₁, hcalled, hfirst.length⟩ (meets_true _ bs) h'
  exact ⟨(hsound'.isSealed hcalled').state, hlength⟩

/-- The connection is lost, the client is closed, and the timer of the reconnection fires. -/
theorem closed_absorbing_reconnect :
    ∃ r r₁ r', exec (step (fun _ => false) SSEClient.reconnecting)
        (createSSEClient (fun _ => false) SSEClient.reconnecting {} none)
        [.client (.open 0), .client (.error 0 false)] = some r ∧
      step (fun _ => false) SSEClient.reconnecting r (.client .close) = some r₁ ∧
      exec (step (fun _ => false) SSEClient.reconnecting) r₁ [.client (.reconnect none)] = some r' ∧
      r'.client.state = .closed ∧ r'.client.sources.length = r.client.sources.length := by
  have hrun : (exec (step (fun _ => false) SSEClient.reconnecting)
      (createSSEClient (fun _ => false) SSEClient.reconnecting {} none)
      [.client (.open 0), .client (.error 0 false)]).any fun r =>
        (step (fun _ => false) SSEClient.reconnecting r (.client .close)).any fun r₁ =>
          r₁.client.closeCalled &&
            (exec (step (fun _ => false) SSEClient.reconnecting) r₁
              [.client (.reconnect none)]).isSome := by decide +kernel
  obtain ⟨r, hr, hrest⟩ := (Option.any_eq_true _ _).mp hrun
  obtain ⟨r₁, hr₁, hrest⟩ := (Option.any_eq_true _ _).mp hrest
  rw [Bool.and_eq_true] at hrest
  obtain ⟨r', hr'⟩ := Option.isSome_iff_exists.mp hrest.2
  exact ⟨r, r₁, r', hr, hr₁, hr', closed_absorbing hr hr₁ hrest.1 hr'⟩

/-! ### Before any connection has opened -/

/-- A client whose connections have not opened yet, and which nobody has called. -/
structure Fresh (c : SSEClient) : Prop where
  handlers : c.handlers = ∅
  reconnectTimers : c.reconnectTimers = 0
  rejections : c.rejections = 0
  heartbeatTimer : c.heartbeatTimer = false
  sources : ∀ s ∈ c.sources, s.readyState ≠ .open ∧ s.awaited = false ∧ s.permanent = 0
  onlyCurrent : c.OnlyCurrent

variable {c : SSEClient}

lemma emit_of_fresh (h : c.handlers = ∅) (event : String) (data : Payload) :
    Reentrant.emit closing c event data = c := by
  rw [Reentrant.emit, h]
  rfl

lemma Fresh.connected_ne (h : Fresh c) : connected c ≠ .resolved := by
  rw [connected.eq_def]
  split
  next => nofun
  next s _ hsources =>
    obtain ⟨-, -, hpermanent⟩ := h.sources s (by rw [hsources]; exact List.mem_cons_self)
    rw [hpermanent, if_neg (lt_irrefl 0)]
    split
    next => nofun
    next => nofun

lemma startHeartbeatTimer_of_not_connected (hstate : c.state ≠ .connected)
    (htimer : c.heartbeatTimer = false) : c.startHeartbeatTimer o = c := by
  rw [SSEClient.startHeartbeatTimer, SSEClient.resetHeartbeatTimer]
  split
  next =>
    have hnot : (c.state == .connected) = false := by simpa using hstate
    rw [hnot, Bool.and_false, ← htimer]
  next => rfl

lemma fresh_create (thrown : Option String) : Fresh (Reentrant.create closing o thrown) := by
  have hfailed (message : String) :
      Fresh (SSEClient.connectFailed {} false message (Reentrant.emit closing)) := by
    rw [SSEClient.connectFailed, SSEClient.emitError, emit_of_fresh rfl]
    exact ⟨rfl, rfl, rfl, rfl, by rintro _ ⟨⟩, by rintro _ _ ⟨⟩⟩
  rw [Reentrant.create, SSEClient.create, SSEClient.connect.eq_def]
  split
  next => exact hfailed _
  next => exact hfailed _
  next url _ =>
    set c : SSEClient :=
      { sources := [{ url := ({} : SSEClient).buildConnectionUrl o url, awaited := false }]
        eventSource := some 0 } with hc
    have hstart : c.startHeartbeatTimer o = c :=
      startHeartbeatTimer_of_not_connected (by rintro ⟨⟩) rfl
    refine hstart.symm ▸ ⟨rfl, rfl, rfl, rfl, ?_, ?_⟩
    · intro s hs
      obtain rfl := List.mem_singleton.mp hs
      exact ⟨by rintro ⟨⟩, rfl, rfl⟩
    · intro i s hs _
      have hi := (List.getElem?_eq_some_iff.mp hs).1
      have : i = 0 := by simpa [hc] using hi
      rw [this]

lemma Fresh.modifySource (h : Fresh c) {i : ℕ} (hi : c.eventSource = some i)
    {f : EventSource → EventSource} (hf : ∀ s, s ∈ c.sources → s.readyState ≠ .open →
      (f s).readyState ≠ .open ∧ (f s).awaited = s.awaited ∧ (f s).permanent = s.permanent) :
    Fresh (c.modifySource i f) := by
  refine ⟨h.handlers, h.reconnectTimers, h.rejections, h.heartbeatTimer, fun s' hs' => ?_,
    h.onlyCurrent.modifySource hi f⟩
  obtain ⟨j, hj⟩ := List.getElem?_of_mem hs'
  simp only [SSEClient.modifySource, List.getElem?_modify] at hj
  obtain ⟨s, hs, rfl⟩ := Option.map_eq_some_iff.mp hj
  have hmem := List.mem_of_getElem? hs
  obtain ⟨hopen, hawaited, hpermanent⟩ := h.sources s hmem
  split
  next =>
    obtain ⟨hopen', hawaited', hpermanent'⟩ := hf s hmem hopen
    exact ⟨hopen', hawaited'.trans hawaited, hpermanent'.trans hpermanent⟩
  next => exact ⟨hopen, hawaited, hpermanent⟩

lemma Fresh.handleInitialError (h : Fresh c) {i : ℕ} (hi : c.eventSource = some i) :
    Fresh (SSEClient.handleInitialError c i false (Reentrant.emit closing)) := by
  rw [SSEClient.handleInitialError]
  split
  next => exact h
  next =>
    have hsources := h.modifySource hi (f := fun s => { s with temporary := false })
      fun s _ hs => ⟨hs, rfl, rfl⟩
    dsimp only
    rw [hi]
    dsimp only
    rw [SSEClient.removeTemporary, if_pos rfl, SSEClient.emitError, SSEClient.reject,
      if_neg Bool.false_ne_true, emit_of_fresh]
    swap
    · exact h.handlers
    exact ⟨h.handlers, h.reconnectTimers, h.rejections, h.heartbeatTimer, hsources.sources,
      fun j t ht => hi ▸ hsources.onlyCurrent j t ht⟩

/-- **A connection fails.** -/
lemma Fresh.sourceError (h : Fresh c) {i : ℕ} {s : EventSource} (hs : c.sources[i]? = some s)
    (hopen : s.readyState ≠ .closed) (fatal : Bool) :
    Fresh (SSEClient.sourceError o c i s fatal (Reentrant.emit closing)) := by
  have hi := h.onlyCurrent i s hs hopen
  obtain ⟨-, hawaited, hpermanent⟩ := h.sources s (List.mem_of_getElem? hs)
  have hfails : Fresh (c.modifySource i fun s =>
      { s with readyState := if fatal then .closed else .connecting }) := by
    refine h.modifySource hi fun s _ _ => ⟨?_, rfl, rfl⟩
    cases fatal <;> nofun
  rw [SSEClient.sourceError, hpermanent, if_neg (lt_irrefl 0), hawaited]
  by_cases htemporary : s.temporary = true
  · rw [if_pos htemporary]
    exact hfails.handleInitialError hi
  · rw [if_neg htemporary]
    exact hfails

/-- A client whose connection has not opened takes no other step by itself. -/
lemma Fresh.step {a : SSEClient.Action} {c' : SSEClient} (h : Fresh c)
    (hstep : Reentrant.step closing o c a = some c') :
    opens a = true ∨ applies a = true ∨ Fresh c' := by
  cases a with
  | «open» | on | off | close => simp [opens, applies]
  | error i fatal =>
      obtain ⟨s, hs, hready, rfl⟩ := SSEClient.stepWith_inv hstep
      exact .inr (.inr (h.sourceError hs hready fatal))
  | message i type data id =>
      obtain ⟨s, hs, hready, -⟩ := SSEClient.stepWith_inv hstep
      exact absurd hready (h.sources s (List.mem_of_getElem? hs)).1
  | reconnect => exact absurd (SSEClient.stepWith_inv hstep).1 h.reconnectTimers.not_gt
  | retry => exact absurd (SSEClient.stepWith_inv hstep).1 h.rejections.not_gt
  | heartbeat =>
      obtain ⟨htimer, -⟩ := SSEClient.stepWith_inv hstep
      rw [h.heartbeatTimer] at htimer
      cases htimer

/-! ### The timeout -/

/-- While the timer is pending and no connection has opened, the client is fresh. -/
def FreshUntilOpened (r : Creation) : Prop :=
  r.timer = true → r.opened = false → Fresh r.client ∧ r.promise ≠ .resolved

lemma freshUntilOpened_create (options : CreateOptions) (thrown : Option String) :
    (createSSEClient closing o options thrown).FreshUntilOpened := by
  intro htimer _
  rw [createSSEClient] at htimer ⊢
  split at htimer
  next hwait =>
    rw [if_pos hwait]
    exact ⟨fresh_create thrown, (fresh_create thrown).connected_ne⟩
  next => cases htimer

lemma freshUntilOpened_step {a : CreateAct} (h : r.FreshUntilOpened)
    (hstep : step closing o r a = some r') : r'.FreshUntilOpened := by
  intro htimer hopened
  cases a with
  | client a =>
      obtain ⟨hallowed, client, hclient, rfl⟩ := step_client hstep
      rw [Bool.or_eq_false_iff] at hopened
      obtain ⟨hfresh, hpromise⟩ := h htimer hopened.1
      rcases hfresh.step hclient with hopens | happlies | hfresh'
      · rw [hopened.2] at hopens
        cases hopens
      · exact absurd (hallowed happlies) hpromise
      · refine ⟨hfresh', ?_⟩
        dsimp only
        rw [Promise.race]
        split
        next => exact hfresh'.connected_ne
        next => exact hpromise
  | timeout =>
      obtain ⟨-, rfl⟩ := step_timeout hstep
      cases htimer

/-- The timeout closed neither the client nor an `EventSource`. -/
structure Spared (r r' : Creation) : Prop where
  state : r'.client.state = .closed → r.client.state = .closed
  sources : ∀ (i : ℕ) (s' : EventSource), r'.client.sources[i]? = some s' →
    s'.readyState = .closed → ∃ s, r.client.sources[i]? = some s ∧ s.readyState = .closed

/-- The promise is rejected, and the client is closed with all it has opened. -/
structure TimedOut (r : Creation) : Prop where
  promise : r.promise = .rejected
  state : r.client.state = .closed
  sources : ∀ s ∈ r.client.sources, s.readyState = .closed

/-- The timeout affects connecting only: one that comes after a connection has opened spares the
client, one that comes before leaves it timed out for good. -/
def OnlyConnecting (closing : ℕ → Bool) (o : Options) (r : Creation) (as : List CreateAct) : Prop :=
  ∀ bs cs t t₁ t₂, bs ++ .timeout :: cs <+: as → exec (step closing o) r bs = some t →
    step closing o t .timeout = some t₁ → exec (step closing o) t₁ cs = some t₂ →
      (t.opened = true → Spared t t₁) ∧ (t.opened = false → TimedOut t₂)

/-- When the timeout elapses after a connection has opened, the client is closed already. -/
def Inert (r : Creation) : CreateAct → Prop
  | .timeout =>
      r.timer = true → r.opened = true →
        r.client.state = .closed ∧ ∀ s, r.client.current = some s → s.readyState = .closed
  | .client _ => True

lemma Fresh.close_sources (h : Fresh c) : ∀ s ∈ c.close.sources, s.readyState = .closed := by
  intro s hs
  obtain ⟨i, hi⟩ := List.getElem?_of_mem hs
  by_contra hopen
  have hcurrent := h.onlyCurrent.close i s hi hopen
  rw [(SSEClient.close_shut c).eventSource] at hcurrent
  cases hcurrent

/-- **A timeout in time is the end of the run.** -/
lemma timeout_final (h : r.FreshUntilOpened) (hopened : r.opened = false)
    (hstep : step closing o r .timeout = some r') :
    TimedOut r' ∧ ∀ a, step closing o r' a = none := by
  obtain ⟨htimer, rfl⟩ := step_timeout hstep
  obtain ⟨hfresh, hpromise⟩ := h htimer hopened
  have hrejected : r.promise.race .rejected = .rejected := by
    cases hp : r.promise with
    | resolved => exact absurd hp hpromise
    | pending | rejected => rfl
  have hemitted := Reentrant.close_emitted r.client
  have hshut := SSEClient.close_shut r.client
  have hclosed := hfresh.close_sources
  refine ⟨⟨hrejected, hshut.state, hclosed⟩, fun a => ?_⟩
  cases a with
  | timeout => rfl
  | client a =>
      have hnone : applies a = false → Reentrant.step closing o r.client.close a = none := by
        refine fun happlies => Option.eq_none_iff_forall_ne_some.mpr fun c' hnext => ?_
        cases a with
        | on | off | close => cases happlies
        | «open» | error | message =>
            obtain ⟨s, hs, hready, -⟩ := SSEClient.stepWith_inv hnext
            simp [hclosed s (List.mem_of_getElem? hs)] at hready
        | reconnect =>
            obtain ⟨htimers, -⟩ := SSEClient.stepWith_inv hnext
            exact htimers.ne' (hemitted.reconnectTimers.trans hfresh.reconnectTimers)
        | retry =>
            obtain ⟨hrejections, -⟩ := SSEClient.stepWith_inv hnext
            exact hrejections.ne' (hemitted.rejections.trans hfresh.rejections)
        | heartbeat =>
            obtain ⟨hbeats, -⟩ := SSEClient.stepWith_inv hnext
            exact absurd (hshut.heartbeatTimer.symm.trans hbeats) Bool.false_ne_true
      rw [step]
      dsimp only
      split
      next => rfl
      next hallowed =>
        rw [hnone, Option.map_none]
        by_contra happlies
        refine hallowed ⟨by simpa using happlies, ?_⟩
        rw [hrejected]
        rintro ⟨⟩

lemma spared_iff (hstep : step closing o r .timeout = some r') :
    Spared r r' ↔
      r.client.state = .closed ∧ ∀ s, r.client.current = some s → s.readyState = .closed := by
  obtain ⟨-, rfl⟩ := step_timeout hstep
  have hshut := SSEClient.close_shut r.client
  constructor
  · rintro ⟨hstate, hsources⟩
    refine ⟨hstate hshut.state, fun s hs => ?_⟩
    obtain ⟨i, hi, hs⟩ := Option.bind_eq_some_iff.mp hs
    dsimp only at hsources
    rw [SSEClient.close_eq_of_some hi] at hsources
    obtain ⟨s', hs', hclosed⟩ := hsources i _ (by simp [hs]; rfl) rfl
    obtain rfl := Option.some.inj (hs.symm.trans hs')
    exact hclosed
  · rintro ⟨hstate, hcurrent⟩
    refine ⟨fun _ => hstate, fun i s' hs' hclosed => ?_⟩
    dsimp only at hs'
    cases hj : r.client.eventSource with
    | none =>
        rw [SSEClient.close_eq_of_none hj] at hs'
        exact ⟨s', hs', hclosed⟩
    | some j =>
        obtain ⟨s, hs, -, ⟨rfl, -⟩ | rfl⟩ := Reentrant.close_sources hj hs'
        · exact ⟨s, hs, hcurrent s (by rw [SSEClient.current, hj]; exact hs)⟩
        · exact ⟨_, hs, hclosed⟩

/-- **The timeout affects connecting only, exactly if it finds nothing to close** once a connection
has opened. -/
theorem onlyConnecting_iff_inert (closing : ℕ → Bool) (o : Options) (options : CreateOptions)
    (thrown : Option String) (as : List CreateAct) :
    OnlyConnecting closing o (createSSEClient closing o options thrown) as ↔
      Meets (step closing o) Inert (createSSEClient closing o options thrown) as := by
  constructor
  · intro h
    refine meets_of_forall_initial fun bs a cs t has ht => ?_
    cases a with
    | client => exact trivial
    | timeout =>
        intro htimer hopened
        have hstep : step closing o t .timeout = some _ := if_pos htimer
        have hprefix : bs ++ .timeout :: [] <+: as := ⟨cs, by rw [has]; simp⟩
        exact (spared_iff hstep).mp ((h bs [] t _ _ hprefix ht hstep rfl).1 hopened)
  · rintro h bs cs t t₁ t₂ ⟨ds, rfl⟩ ht hstep ht₂
    rw [List.append_assoc] at h
    have hinert := ((meets_append ht).mp h).2.1
    have hfresh : t.FreshUntilOpened :=
      meets_invariant (fun _ _ _ hs _ hstep => freshUntilOpened_step hs hstep)
        (freshUntilOpened_create options thrown) (meets_true _ bs) ht
    refine ⟨fun hopened => ?_, fun hopened => ?_⟩
    · exact (spared_iff hstep).mpr (hinert (step_timeout hstep).1 hopened)
    · obtain ⟨htimedOut, hnone⟩ := timeout_final hfresh hopened hstep
      cases cs with
      | nil =>
          obtain rfl := Option.some.inj ht₂
          exact htimedOut
      | cons a cs =>
          rw [exec_cons, hnone a] at ht₂
          cases ht₂

/-- The connection opens, and the timer of the timeout closes the client. -/
theorem not_onlyConnecting_open :
    ¬ OnlyConnecting (fun _ => false) SSEClient.reconnecting
      (createSSEClient (fun _ => false) SSEClient.reconnecting { connectionTimeout := true } none)
      [.client (.open 0), .timeout] := by
  intro h
  have hrun : (exec (step (fun _ => false) SSEClient.reconnecting)
      (createSSEClient (fun _ => false) SSEClient.reconnecting { connectionTimeout := true } none)
      [.client (.open 0)]).any fun t => t.timer && t.opened && t.client.state != .closed := by
    decide +kernel
  obtain ⟨t, ht, hopen⟩ := (Option.any_eq_true _ _).mp hrun
  rw [Bool.and_eq_true, Bool.and_eq_true, bne_iff_ne] at hopen
  obtain ⟨⟨htimer, hopened⟩, hstate⟩ := hopen
  have hstep : step (fun _ => false) SSEClient.reconnecting t .timeout = some _ := if_pos htimer
  have hspared := (h [.client (.open 0)] [] t _ _ List.prefix_rfl ht hstep rfl).1 hopened
  exact hstate ((spared_iff hstep).mp hspared).1

end Creation

end Blaize.Client
