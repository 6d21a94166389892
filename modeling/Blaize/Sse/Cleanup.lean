import Blaize.Sse.Accounting
import Blaize.Sse.Registry

/-!
The clean-up of idle connections: `cleanup` of
`packages/blaize-core/src/sse/connection-registry.ts` over the streams of `sse/stream.ts`.

The registry judges a connection by a time of its own, `lastActivity`, which `add` sets and nothing
sets again.

* `Hub`: the registry, its streams, the times at which they sent events, and the clock;
* `Hub.step`: a connection, one piece of a stream, a tick of the clean-up, or time that passes;
* `SparesActive`: a tick leaves the connections that have just sent something;
* `cleanup_spared_iff`: **a tick leaves a writable connection exactly if it was made recently**;
* `sparesActive_iff_young`: so **every tick of a run spares the active connections exactly if none
  of them is older than the limit**.
-/

namespace Blaize.Sse

open Machine

/-- A stream, with its options and the times at which it sent events. -/
structure Channel where
  cfg : Config
  stream : Stream
  sentAt : List ℕ := []

/-- The registry with its streams and the time. -/
structure Hub where
  registry : ConnectionRegistry := {}
  streams : OrdMap String Channel := ∅
  now : ℕ := 0

/-- One uninterrupted piece of JavaScript; `wait` is time that passes. -/
inductive HubAct where
  | connect (id : String) (metadata : Metadata) (cfg : Config) (lastEventId : Option String)
  | stream (id : String) (action : Action)
  | tick
  | wait (milliseconds : ℕ)

variable (settings : RegistryConfig)

namespace Hub

/-! ### The code -/

/-- The constructor of a stream.  A registration that is refused throws. -/
def connect (s : Hub) (id : String) (metadata : Metadata) (cfg : Config)
    (lastEventId : Option String) : Hub :=
  match s.registry.add settings id metadata s.now false with
  | (.ok _, registry) =>
      { s with
        registry
        streams := s.streams.set id { cfg, stream := createSSEStream cfg lastEventId } }
  | (.error _, registry) => { s with registry }

/-- A stream that has become another one; the callback of `add` runs when it is closed. -/
def update (s : Hub) (id : String) (c : Channel) (stream : Stream) : Hub :=
  let sent := stream.metrics.eventsSent - c.stream.metrics.eventsSent
  let streams := s.streams.set id
    { c with stream := stream, sentAt := c.sentAt ++ List.replicate sent s.now }
  if stream.state = .closed ∧ c.stream.state ≠ .closed then
    { s with streams, registry := s.registry.remove id }
  else { s with streams }

/-- What `cleanup` reads of a stream. -/
def isClosed (s : Hub) (id : String) : Bool :=
  match s.streams.get id with
  | none => true
  | some c => c.stream.state == .closed || !c.stream.isWritable

/-- `entry.stream.close()` -/
def close (s : Hub) (id : String) : Hub :=
  match s.streams.get id with
  | none => s
  | some c => s.update id c (c.stream.close c.cfg)

/-- One connection that `cleanup` looks at, unless it was removed meanwhile. -/
def inspect (acc : Hub × List String) (id : String) : Hub × List String :=
  match acc.1.registry.connections.get id with
  | none => acc
  | some entry =>
      let isInactive := settings.inactiveTimeout < acc.1.now - entry.lastActivity
      if isInactive ∨ acc.1.isClosed id then (acc.1.close id, acc.2 ++ [id]) else acc

/-- `registry.cleanup()` -/
def cleanup (s : Hub) : Hub :=
  let (s, idsToRemove) := s.registry.connections.keys.foldl (inspect settings) (s, [])
  { s with registry := idsToRemove.foldl ConnectionRegistry.remove s.registry }

/-- What an act does; `none`: it cannot happen. -/
def step (s : Hub) : HubAct → Option Hub
  | .connect id metadata cfg lastEventId => some (s.connect settings id metadata cfg lastEventId)
  | .stream id action => do
      let c ← s.streams.get id
      let stream ← c.stream.step c.cfg action
      some (s.update id c stream)
  | .tick => some (s.cleanup settings)
  | .wait milliseconds => some { s with now := s.now + milliseconds }

/-! ### The property -/

/-- A registered connection whose stream is writable and has just sent an event. -/
structure Active (s : Hub) (id : String) (entry : ConnectionEntry) (c : Channel) : Prop where
  registered : s.registry.connections.get id = some entry
  stream : s.streams.get id = some c
  writable : c.stream.isWritable = true
  recent : ∃ t ∈ c.sentAt, s.now - t ≤ settings.inactiveTimeout

/-- A connection is neither closed nor removed. -/
def Spared (s s' : Hub) (id : String) : Prop :=
  s'.registry.connections.get id = s.registry.connections.get id ∧
    s'.streams.get id = s.streams.get id

/-- A tick spares the active connections. -/
def SparesActive (s : Hub) : HubAct → Prop
  | .tick => ∀ id entry c, s.Active settings id entry c → s.Spared (s.cleanup settings) id
  | _ => True

/-- At a tick no active connection is older than the limit. -/
def Young (s : Hub) : HubAct → Prop
  | .tick => ∀ id entry c, s.Active settings id entry c →
      s.now - entry.connectedAt ≤ settings.inactiveTimeout
  | _ => True

variable {settings} {s s' : Hub}

/-! ### The registry -/

lemma get_remove (r : ConnectionRegistry) (id id' : String) :
    (r.remove id).connections.get id' = if id = id' then none else r.connections.get id' := by
  rw [ConnectionRegistry.remove]
  split
  next hnone =>
    split
    next heq => rw [← heq, hnone]
    next => rfl
  next entry hentry =>
    have hdelete : (ConnectionRegistry.updateClientCount
        { r with connections := r.connections.delete id } entry.clientIp (-1)).connections.get id' =
          if id = id' then none else r.connections.get id' := by
      rw [ConnectionRegistry.connections_updateClientCount]
      exact OrdMap.get_delete _ _ _
    dsimp only
    split
    · exact hdelete
    · exact hdelete

lemma get_foldl_remove (ids : List String) (r : ConnectionRegistry) (id : String) :
    (ids.foldl ConnectionRegistry.remove r).connections.get id =
      if id ∈ ids then none else r.connections.get id := by
  induction ids generalizing r with
  | nil => rfl
  | cons other ids ih =>
      rw [List.foldl_cons, ih, get_remove]
      by_cases hother : other = id
      · simp [hother]
      · simp [hother, Ne.symm hother]

variable (settings) in
/-- What a call of `add` leaves is there already, or has the same time twice. -/
lemma get_add {r : ConnectionRegistry} {id id' : String} {metadata : Metadata} {now : ℕ}
    {entry : ConnectionEntry}
    (h : (r.add settings id metadata now false).2.connections.get id' = some entry) :
    r.connections.get id' = some entry ∨ entry.lastActivity = entry.connectedAt := by
  unfold ConnectionRegistry.add at h
  split at h
  · exact .inl h
  split at h
  · exact .inl h
  split at h
  · exact .inl h
  · have hget (new : ConnectionEntry) (hnew : new.lastActivity = new.connectedAt)
        (h : (r.connections.set id new).get id' = some entry) :
        r.connections.get id' = some entry ∨ entry.lastActivity = entry.connectedAt := by
      rw [OrdMap.get_set] at h
      split at h
      · obtain rfl := Option.some.inj h
        exact .inr hnew
      · exact .inl h
    refine hget ⟨now, now, metadata.clientIp, metadata.userAgent⟩ rfl ?_
    dsimp only at h
    rw [if_neg Bool.false_ne_true] at h
    split at h
    · rw [ConnectionRegistry.startCleanupTimer] at h
      split at h
      · simpa using h
      · simpa using h
    · simpa using h

/-! ### Other connections -/

lemma update_other {id other : String} (h : id ≠ other) (c : Channel) (stream : Stream) :
    s.Spared (s.update id c stream) other := by
  have hstreams (c' : Channel) : (s.streams.set id c').get other = s.streams.get other :=
    OrdMap.get_set_ne _ _ h
  unfold Hub.update
  dsimp only
  split
  · exact ⟨by rw [get_remove, if_neg h], hstreams _⟩
  · exact ⟨rfl, hstreams _⟩

lemma close_other {id other : String} (h : id ≠ other) : s.Spared (s.close id) other := by
  unfold Hub.close
  split
  · exact ⟨rfl, rfl⟩
  · exact update_other h _ _

lemma now_close (s : Hub) (id : String) : (s.close id).now = s.now := by
  unfold Hub.close
  split
  · rfl
  · unfold update
    dsimp only
    split <;> rfl

variable (settings) in
/-- **A look at one connection leaves the others.** -/
lemma inspect_other {id other : String} (h : id ≠ other) (acc : Hub × List String) :
    acc.1.Spared (inspect settings acc id).1 other ∧
      (other ∈ (inspect settings acc id).2 ↔ other ∈ acc.2) ∧
        (inspect settings acc id).1.now = acc.1.now := by
  unfold inspect
  split
  · exact ⟨⟨rfl, rfl⟩, Iff.rfl, rfl⟩
  · dsimp only
    split
    · exact ⟨close_other h, by simp [Ne.symm h], now_close _ _⟩
    · exact ⟨⟨rfl, rfl⟩, Iff.rfl, rfl⟩

lemma Spared.trans {s'' : Hub} {id : String} (h : s.Spared s' id) (h' : s'.Spared s'' id) :
    s.Spared s'' id :=
  ⟨h'.1.trans h.1, h'.2.trans h.2⟩

variable (settings) in
lemma foldl_inspect_other {ids : List String} {other : String} (h : other ∉ ids)
    (acc : Hub × List String) :
    acc.1.Spared (ids.foldl (inspect settings) acc).1 other ∧
      (other ∈ (ids.foldl (inspect settings) acc).2 ↔ other ∈ acc.2) ∧
        (ids.foldl (inspect settings) acc).1.now = acc.1.now := by
  induction ids generalizing acc with
  | nil => exact ⟨⟨rfl, rfl⟩, Iff.rfl, rfl⟩
  | cons id ids ih =>
      rw [List.mem_cons, not_or] at h
      obtain ⟨hspared, hmem, hnow⟩ := inspect_other settings (Ne.symm h.1) acc
      obtain ⟨hspared', hmem', hnow'⟩ := ih h.2 (inspect settings acc id)
      exact ⟨hspared.trans hspared', hmem'.trans hmem, hnow'.trans hnow⟩

/-! ### A tick -/

lemma isClosed_of_writable {id : String} {c : Channel} (hstream : s.streams.get id = some c)
    (hwritable : c.stream.isWritable = true) : s.isClosed id = false := by
  rw [isClosed, hstream]
  dsimp only
  rw [hwritable]
  rw [Stream.isWritable, Bool.and_eq_true, beq_iff_eq] at hwritable
  rw [hwritable.2]
  rfl

/-- A stream that is closed is there as a closed one. -/
lemma get_close {id : String} {c : Channel} (hstream : s.streams.get id = some c) :
    ∃ c', (s.close id).streams.get id = some c' ∧ c'.stream.state = .closed := by
  unfold Hub.close
  rw [hstream]
  dsimp only
  unfold update
  dsimp only
  split
  · exact ⟨_, OrdMap.get_set_self _ _ _, Stream.close_state _⟩
  · exact ⟨_, OrdMap.get_set_self _ _ _, Stream.close_state _⟩

/-- **A tick leaves a writable connection exactly if it was made recently enough.** -/
lemma cleanup_spared_iff {id : String} {entry : ConnectionEntry} {c : Channel}
    (hentry : s.registry.connections.get id = some entry) (hstream : s.streams.get id = some c)
    (hwritable : c.stream.isWritable = true) :
    s.Spared (s.cleanup settings) id ↔ s.now - entry.lastActivity ≤ settings.inactiveTimeout := by
  have hkeys : id ∈ s.registry.connections.keys := OrdMap.mem_keys_iff _ |>.mpr ⟨entry, hentry⟩
  obtain ⟨before, after, hsplit⟩ := List.append_of_mem hkeys
  have hnodup : (before ++ id :: after).Nodup := hsplit ▸ s.registry.connections.nodup
  have hplace := (List.nodup_cons.mp (List.nodup_middle.mp hnodup)).1
  rw [List.mem_append, not_or] at hplace
  -- the connections in front of it leave it as it is
  obtain ⟨hfront, hmem, hnow⟩ := foldl_inspect_other settings hplace.1 (s, [])
  have hentry' := hfront.1.trans hentry
  have hstream' := hfront.2.trans hstream
  rw [cleanup, hsplit, List.foldl_append, List.foldl_cons]
  generalize before.foldl (inspect settings) (s, []) = acc at hfront hmem hnow hentry' hstream' ⊢
  obtain ⟨hback, hmem', -⟩ :=
    foldl_inspect_other settings hplace.2 (inspect settings acc id)
  dsimp only at hnow ⊢
  by_cases hidle : settings.inactiveTimeout < s.now - entry.lastActivity
  · -- it is closed
    have hinspect : inspect settings acc id = (acc.1.close id, acc.2 ++ [id]) := by
      rw [inspect, hentry']
      dsimp only
      rw [hnow, if_pos (.inl hidle)]
    rw [hinspect] at hback ⊢
    refine iff_of_false (fun hspared => ?_) (by omega)
    obtain ⟨c', hc', hclosed⟩ := get_close hstream'
    have hsame := (hback.2.trans hc').symm.trans (hspared.2.trans hstream)
    obtain rfl := Option.some.inj hsame
    rw [Stream.isWritable, hclosed] at hwritable
    simp at hwritable
  · have hinspect : inspect settings acc id = acc := by
      rw [inspect, hentry']
      dsimp only
      rw [hnow, isClosed_of_writable hstream' hwritable, if_neg (by simpa using hidle)]
    rw [hinspect] at hback hmem' ⊢
    refine iff_of_true ⟨?_, hback.2.trans hfront.2⟩ (by omega)
    have hnotMem : id ∉ (after.foldl (inspect settings) acc).2 :=
      fun hin => List.not_mem_nil (hmem.mp (hmem'.mp hin))
    dsimp only
    rw [get_foldl_remove, if_neg hnotMem]
    exact hback.1.trans hfront.1

/-! ### Runs -/

/-- Nothing sets the time of the last activity again. -/
def Untouched (s : Hub) : Prop :=
  ∀ (id : String) (entry : ConnectionEntry),
    s.registry.connections.get id = some entry → entry.lastActivity = entry.connectedAt

lemma Untouched.of_get (h : s.Untouched) (hget : ∀ (id : String) (entry : ConnectionEntry),
    s'.registry.connections.get id = some entry → s.registry.connections.get id = some entry) :
    s'.Untouched :=
  fun id entry hentry => h id entry (hget id entry hentry)

lemma get_of_update {id id' : String} {c : Channel} {stream : Stream} {entry : ConnectionEntry}
    (h : (s.update id c stream).registry.connections.get id' = some entry) :
    s.registry.connections.get id' = some entry := by
  unfold update at h
  dsimp only at h
  split at h
  · rw [get_remove] at h
    split at h
    · cases h
    · exact h
  · exact h

lemma get_of_close {id id' : String} {entry : ConnectionEntry}
    (h : (s.close id).registry.connections.get id' = some entry) :
    s.registry.connections.get id' = some entry := by
  unfold Hub.close at h
  split at h
  · exact h
  · exact get_of_update h

lemma get_of_inspect {acc : Hub × List String} {id id' : String} {entry : ConnectionEntry}
    (h : (inspect settings acc id).1.registry.connections.get id' = some entry) :
    acc.1.registry.connections.get id' = some entry := by
  unfold inspect at h
  split at h
  · exact h
  · dsimp only at h
    split at h
    · exact get_of_close h
    · exact h

lemma get_of_foldl_inspect {ids : List String} {acc : Hub × List String} {id : String}
    {entry : ConnectionEntry}
    (h : (ids.foldl (inspect settings) acc).1.registry.connections.get id = some entry) :
    acc.1.registry.connections.get id = some entry := by
  induction ids generalizing acc with
  | nil => exact h
  | cons other ids ih => exact get_of_inspect (ih h)

/-- A tick adds nothing. -/
lemma get_of_cleanup {id : String} {entry : ConnectionEntry}
    (h : (s.cleanup settings).registry.connections.get id = some entry) :
    s.registry.connections.get id = some entry := by
  rw [cleanup] at h
  dsimp only at h
  rw [get_foldl_remove] at h
  split at h
  · cases h
  · exact get_of_foldl_inspect h

/-- **No step touches the times of a connection.** -/
lemma Untouched.step {a : HubAct} (h : s.Untouched) (hstep : s.step settings a = some s') :
    s'.Untouched := by
  cases a with
  | connect id metadata cfg lastEventId =>
      obtain rfl := Option.some.inj hstep
      intro id' entry hentry
      unfold Hub.connect at hentry
      split at hentry
      all_goals
        next hadd =>
          rcases get_add settings (by rw [hadd]; exact hentry) with hold | hnew
          · exact h id' entry hold
          · exact hnew
  | stream id action =>
      obtain ⟨c, -, hstep⟩ := Option.bind_eq_some_iff.mp hstep
      obtain ⟨stream, -, hstep⟩ := Option.bind_eq_some_iff.mp hstep
      obtain rfl := Option.some.inj hstep
      exact h.of_get fun id entry hentry => get_of_update hentry
  | tick =>
      obtain rfl := Option.some.inj hstep
      exact h.of_get fun id entry hentry => get_of_cleanup hentry
  | wait milliseconds =>
      obtain rfl := Option.some.inj hstep
      exact h

/-- A tick spares the active connections exactly if they are young. -/
lemma sparesActive_iff_of_untouched (h : s.Untouched) (a : HubAct) :
    s.SparesActive settings a ↔ s.Young settings a := by
  cases a with
  | tick =>
      refine forall_congr' fun id => forall_congr' fun entry => forall_congr' fun c =>
        forall_congr' fun hactive => ?_
      rw [cleanup_spared_iff hactive.registered hactive.stream hactive.writable,
        h id entry hactive.registered]
  | connect | stream | wait => exact Iff.rfl

lemma untouched_init : ({} : Hub).Untouched := by
  intro id entry hentry
  cases hentry

/-- **Every tick of a run spares the active connections exactly if none of them is older than the
limit.** -/
theorem sparesActive_iff_young (settings : RegistryConfig) (as : List HubAct) :
    Meets (step settings) (SparesActive settings) {} as ↔
      Meets (step settings) (Young settings) {} as :=
  ⟨Meets.mono (fun _ _ _ hs _ hstep => hs.step hstep)
      (fun _ a hs ha => (sparesActive_iff_of_untouched hs a).mp ha) untouched_init,
    Meets.mono (fun _ _ _ hs _ hstep => hs.step hstep)
      (fun _ a hs ha => (sparesActive_iff_of_untouched hs a).mpr ha) untouched_init⟩

/-- Whether a connection has just sent an event, and is older than the limit. -/
def activeAndOld (settings : RegistryConfig) (id : String) (s : Hub) : Bool :=
  match s.registry.connections.get id, s.streams.get id with
  | some entry, some c =>
      c.stream.isWritable && c.sentAt.any (fun t => s.now - t ≤ settings.inactiveTimeout) &&
        settings.inactiveTimeout < s.now - entry.lastActivity
  | _, _ => false

lemma not_sparesActive_of_old {id : String} (h : activeAndOld settings id s = true) :
    ¬ s.SparesActive settings .tick := by
  unfold activeAndOld at h
  split at h
  next entry c hentry hstream =>
    simp only [Bool.and_eq_true, List.any_eq_true, decide_eq_true_eq] at h
    obtain ⟨⟨hwritable, hrecent⟩, hold⟩ := h
    intro hspares
    have hspared := hspares id entry c ⟨hentry, hstream, hwritable, hrecent⟩
    rw [cleanup_spared_iff hentry hstream hwritable] at hspared
    omega
  next => cases h

/-- A connection of thirty minutes has sent an event a second ago. -/
theorem not_sparesActive :
    ¬ ∀ (settings : RegistryConfig) (as : List HubAct),
      Meets (step settings) (SparesActive settings) {} as := by
  intro h
  have hold : (exec (step {}) {} [.connect "sse-1" ⟨none, none⟩ {} none, .wait 1800000,
      .stream "sse-1" (.send "news" (.string "a")), .wait 1000]).any
        (activeAndOld {} "sse-1") = true := by decide +kernel
  obtain ⟨s, hs, hold⟩ := (Option.any_eq_true _ _).mp hold
  exact not_sparesActive_of_old hold ((meets_append hs).mp (h {} (_ ++ [.tick]))).2.1

end Hub

end Blaize.Sse
