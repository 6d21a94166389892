import Blaize.Lib.Count
import Blaize.Lib.Machine
import Blaize.Events.MemoryEventBus

/-!
Event buses on several servers, joined by adapters with one channel prefix: which subscribers
get a published event?

* `Joined`: a bus with some subscriptions and its adapter;
* `Cluster`, `step`: the servers, the `publish` calls that wait for their own handlers, and the
  messages in flight; a run takes `publish` calls and the steps of both in any order;
* `Sound`, `Balanced`: what waits, flies and was handed over belongs to a publication, and for
  a subscriber elsewhere the three make one;
* `delivered_exactly_once`: **an event is handed to every subscriber that is to receive it, on
  whatever server, exactly once, and to no other**.
-/

namespace Blaize.Events

open Machine

/-- A bus with a list of patterns subscribed, joined to its adapter. -/
def Joined (channelPrefix : String) (bus : MemoryEventBus) : Prop :=
  ∃ (serverId : Option String) (randomUUID subscriptionId : String) (patterns : List String),
    (do
      let bus ← patterns.foldlM MemoryEventBus.subscribe
        (MemoryEventBus.create serverId randomUUID)
      bus.setAdapter { channelPrefix } subscriptionId) = .ok bus

/-- A `publish` call that was not refused. -/
structure Publication (D : Type) where
  server : ℕ
  event : BlaizeEvent D
  deriving DecidableEq, Repr

/-- A `publish` call that waits for its handlers, with its number. -/
structure Emission (D : Type) extends Publication D where
  publication : ℕ
  deriving DecidableEq, Repr

/-- A message from Redis to the connection of a server. -/
structure Message where
  publication : ℕ
  server : ℕ
  pattern : String
  channel : String
  payload : String
  deriving DecidableEq, Repr

/-- The call of a subscriber's handler. -/
structure Handing (D : Type) where
  publication : ℕ
  server : ℕ
  subscription : ℕ
  event : BlaizeEvent D
  deriving DecidableEq, Repr

/-- The servers and what is on its way between them.  The numbers of the publications are not
known to the servers. -/
structure Cluster (D : Type) where
  servers : List MemoryEventBus
  published : List (Publication D) := []
  waiting : List (Emission D) := []
  inFlight : List Message := []
  handed : List (Handing D) := []

/-- A `publish` call, the end of its own handlers, or the arrival of a message. -/
inductive Action (D : Type) where
  | publish (server : ℕ) (type : String) (data : Option (JsonValue D)) (now : ℚ)
      (correlationId : Option String)
  | settle (k : ℕ)
  | deliver (k : ℕ)

namespace Cluster

variable {D : Type} (glob : String → String → Bool) (json : Json D) (c : Cluster D)

/-- An event is handed to subscriptions. -/
def handTo (publication server : ℕ) (event : BlaizeEvent D) (subs : List Subscription) :
    List (Handing D) :=
  subs.map fun sub => ⟨publication, server, sub.id, event⟩

/-- The messages that Redis sends for the payload that an adapter publishes. -/
def fanOut (publication : ℕ) (channel payload : String) : List Message :=
  c.servers.zipIdx.flatMap fun (bus, server) =>
    match bus.adapter with
    | none => []
    | some adapter =>
        (adapter.received glob channel).map fun pattern =>
          { publication, server, pattern, channel, payload }

/-- The rest of a `publish` call after its handlers: an error of the adapter is logged. -/
def sent (emission : Emission D) : List Message :=
  match c.servers[emission.server]?.bind (·.adapter) with
  | none => []
  | some adapter =>
      match adapter.publish json emission.event with
      | .error _ => []
      | .ok (channel, payload) => c.fanOut glob emission.publication channel payload

/-- The handlers that are called for a message. -/
def handled (message : Message) : List (Handing D) :=
  match c.servers[message.server]? with
  | none => []
  | some bus =>
      match bus.adapter with
      | none => []
      | some adapter =>
          (adapter.handleMessage json message.pattern message.channel message.payload).flatMap
            fun (_, event) =>
              handTo message.publication message.server event (bus.onAdapterEvent event)

/-- What an action does; `none`: it cannot happen. -/
def step : Action D → Option (Cluster D)
  | .publish server type data now correlationId =>
      match c.servers[server]? with
      | none => none
      | some bus =>
          match bus.publish type data now correlationId with
          | .error _ => some c
          | .ok event =>
              let publication := c.published.length
              some { c with
                published := c.published ++ [⟨server, event⟩]
                waiting := c.waiting ++ [⟨⟨server, event⟩, publication⟩]
                handed := c.handed ++
                  handTo publication server event (bus.emitToSubscribers event) }
  | .settle k =>
      match c.waiting[k]? with
      | none => none
      | some emission =>
          some { c with
            waiting := c.waiting.eraseIdx k
            inFlight := c.inFlight ++ c.sent glob json emission }
  | .deliver k =>
      match c.inFlight[k]? with
      | none => none
      | some message =>
          some { c with
            inFlight := c.inFlight.eraseIdx k
            handed := c.handed ++ c.handled json message }

/-- How often an event was handed to a subscriber. -/
def timesHanded (publication server subscription : ℕ) : ℕ :=
  c.handed.countP fun h =>
    h.publication = publication && h.server = server && h.subscription = subscription

/-- Nothing waits and nothing is in flight. -/
def Quiescent : Prop := c.waiting = [] ∧ c.inFlight = []

instance [DecidableEq D] : Decidable c.Quiescent :=
  inferInstanceAs (Decidable (c.waiting = [] ∧ c.inFlight = []))

end Cluster

/-- The action is no call from outside. -/
def Action.Internal {D : Type} : Action D → Prop
  | .publish .. => False
  | _ => True

/-- The event of a `publish` call survives its JSON. -/
def Action.Representable {D : Type} (json : Json D) (servers : List MemoryEventBus) :
    Action D → Prop
  | .publish server type data now correlationId =>
      ∀ bus, servers[server]? = some bus → ∀ event,
        bus.publish type data now correlationId = .ok event → event.Representable json
  | _ => True

/-! ### Joined buses -/

/-- The ids of the subscriptions are different, and each has the matcher of its pattern. -/
structure WellFormed (bus : MemoryEventBus) : Prop where
  ids : (bus.subscriptions.map (·.id)).Nodup
  fresh : ∀ sub ∈ bus.subscriptions, sub.id < bus.nextId
  matcher : ∀ sub ∈ bus.subscriptions, sub.matcher = createMatcher sub.pattern

lemma WellFormed.subscribe {bus bus' : MemoryEventBus} (h : WellFormed bus) {pattern : String}
    (hs : bus.subscribe pattern = .ok bus') : WellFormed bus' := by
  rw [MemoryEventBus.subscribe] at hs
  split at hs
  · cases hs
  · obtain rfl := Except.ok.inj hs
    refine ⟨?_, fun sub hsub => ?_, fun sub hsub => ?_⟩
    · rw [List.map_append, List.nodup_append]
      refine ⟨h.ids, List.nodup_singleton _, fun id hid id' hid' he => ?_⟩
      obtain ⟨sub, hsub, rfl⟩ := List.mem_map.mp hid
      have hfresh := h.fresh sub hsub
      rw [he, List.mem_singleton.mp hid'] at hfresh
      exact Nat.lt_irrefl _ hfresh
    · rcases List.mem_append.mp hsub with hsub | hsub
      · exact Nat.lt_succ_of_lt (h.fresh sub hsub)
      · rw [List.mem_singleton.mp hsub]
        exact Nat.lt_succ_self _
    · rcases List.mem_append.mp hsub with hsub | hsub
      · exact h.matcher sub hsub
      · rw [List.mem_singleton.mp hsub]

lemma WellFormed.foldlM_subscribe {bus bus' : MemoryEventBus} (h : WellFormed bus)
    {patterns : List String} (hs : patterns.foldlM MemoryEventBus.subscribe bus = .ok bus') :
    WellFormed bus' := by
  induction patterns generalizing bus with
  | nil =>
      obtain rfl := Except.ok.inj hs
      exact h
  | cons pattern patterns ih =>
      rw [List.foldlM_cons] at hs
      cases hp : bus.subscribe pattern with
      | error e =>
          rw [hp] at hs
          cases hs
      | ok bus₁ =>
          rw [hp] at hs
          exact ih (h.subscribe hp) hs

lemma wellFormed_create (serverId : Option String) (randomUUID : String) :
    WellFormed (MemoryEventBus.create serverId randomUUID) :=
  ⟨List.nodup_nil, nofun, nofun⟩

/-- What is used of a joined bus. -/
lemma Joined.cases {pre : String} {bus : MemoryEventBus} (h : Joined pre bus) :
    WellFormed bus ∧
      ∃ subscriptionId, bus.adapter = some (.listeningToAll pre subscriptionId ()) := by
  obtain ⟨serverId, randomUUID, subscriptionId, patterns, h⟩ := h
  cases hs : patterns.foldlM MemoryEventBus.subscribe
      (MemoryEventBus.create serverId randomUUID) with
  | error e =>
      rw [hs] at h
      cases h
  | ok bus₁ =>
      have hwf : WellFormed bus₁ := 
        WellFormed.foldlM_subscribe (wellFormed_create serverId randomUUID) hs
      rw [hs] at h
      replace h : bus₁.setAdapter { channelPrefix := pre } subscriptionId = .ok bus := h
      rw [MemoryEventBus.setAdapter, RedisEventBusAdapter.connect_subscribe_star] at h
      obtain rfl := Except.ok.inj h
      exact ⟨⟨hwf.ids, hwf.fresh, hwf.matcher⟩, subscriptionId, rfl⟩

namespace Cluster

variable {D : Type} {glob : String → String → Bool} {json : Json D} {c : Cluster D}

/-- Whether an event is handed to a subscription, as a number. -/
def hits (sub : Subscription) (event : BlaizeEvent D) : ℕ :=
  (sub.matcher.test event.type).toNat

lemma hits_le_one (sub : Subscription) (event : BlaizeEvent D) : hits sub event ≤ 1 :=
  Bool.toNat_le _

/-- An event is handed to a subscription once if it matches. -/
lemma countP_handTo {bus : MemoryEventBus} (h : WellFormed bus) {sub : Subscription}
    (hsub : sub ∈ bus.subscriptions) (n j : ℕ) (event : BlaizeEvent D) :
    (handTo n j event (bus.emitToSubscribers event)).countP (fun h =>
      h.publication = n && h.server = j && h.subscription = sub.id) = hits sub event := by
  rw [handTo, List.countP_map, MemoryEventBus.emitToSubscribers, List.countP_filter, hits,
    ← List.countP_key (fun sub => sub.matcher.test event.type) _ h.ids hsub]
  exact List.countP_congr fun sub' _ => by simp

lemma countP_handTo_of_ne {n n' j j' : ℕ} (h : ¬ (n' = n ∧ j' = j)) (id : ℕ)
    (event : BlaizeEvent D) (subs : List Subscription) :
    (handTo n' j' event subs).countP (fun h =>
      h.publication = n && h.server = j && h.subscription = id) = 0 := by
  rw [handTo, List.countP_map]
  refine List.countP_eq_zero.mpr fun sub _ hp => h ?_
  simp only [Function.comp_apply, Bool.and_eq_true, decide_eq_true_eq] at hp
  exact hp.1

/-! ### What waits, flies and was handed over -/

/-- The servers are joined under different ids, and whatever waits, flies or was handed over
belongs to a publication. -/
structure Sound (json : Json D) (pre : String) (c : Cluster D) : Prop where
  joined : ∀ bus ∈ c.servers, Joined pre bus
  serverIds : (c.servers.map (·.serverId)).Nodup
  published : ∀ p ∈ c.published, p.event.Representable json ∧
    ∃ bus, c.servers[p.server]? = some bus ∧ p.event.serverId = bus.serverId
  waiting : ∀ w ∈ c.waiting, c.published[w.publication]? = some w.toPublication
  inFlight : ∀ m ∈ c.inFlight, m.pattern = pre ++ ":" ++ "*" ∧
    ∃ p, c.published[m.publication]? = some p ∧
      BlaizeEvent.deserializeEvent json m.payload = some p.event
  handed : ∀ h ∈ c.handed, ∃ p bus sub, c.published[h.publication]? = some p ∧
    h.event = p.event ∧ c.servers[h.server]? = some bus ∧ sub ∈ bus.subscriptions ∧
      sub.id = h.subscription

/-- How much of a publication is still to reach a server. -/
def pending (c : Cluster D) (publication server : ℕ) : ℕ :=
  (c.waiting.countP fun w => w.publication = publication) +
    c.inFlight.countP fun m => m.publication = publication && m.server = server

/-- **What was handed over and what is pending make one**, for a subscriber to receive the
event on another server than its own. -/
def Balanced (c : Cluster D) : Prop :=
  ∀ n p, c.published[n]? = some p → ∀ j bus, c.servers[j]? = some bus →
    ∀ sub ∈ bus.subscriptions,
      c.timesHanded n j sub.id +
        (if p.server = j then 0 else hits sub p.event * c.pending n j) = hits sub p.event

section Steps

variable {pre : String} (hglob : PatternRules glob) (hmeta : MetaFree pre)

include hglob hmeta in
/-- Redis sends one message to each server. -/
lemma fanOut_eq (hjoined : ∀ bus ∈ c.servers, Joined pre bus) (publication : ℕ)
    (eventType payload : String) :
    c.fanOut glob publication (pre ++ ":" ++ eventType) payload =
      (List.range c.servers.length).map fun server =>
        ⟨publication, server, pre ++ ":" ++ "*", pre ++ ":" ++ eventType, payload⟩ := by
  have hone : c.fanOut glob publication (pre ++ ":" ++ eventType) payload =
      c.servers.zipIdx.flatMap fun e =>
        [⟨publication, e.2, pre ++ ":" ++ "*", pre ++ ":" ++ eventType, payload⟩] := by
    refine List.flatMap_congr fun e he => ?_
    obtain ⟨bus, j⟩ := e
    have hbus : bus ∈ c.servers := List.fst_mem_of_mem_zipIdx he
    obtain ⟨-, subscriptionId, hadapter⟩ := (hjoined bus hbus).cases
    simp only [hadapter, RedisEventBusAdapter.received_listeningToAll hglob hmeta,
      List.map_cons, List.map_nil]
  rw [hone, ← List.map_eq_flatMap, List.range_eq_range', ← List.zipIdx_map_snd 0 c.servers,
    List.map_map]
  rfl

include hglob hmeta in
/-- After its handlers, a `publish` call sends the event to each server. -/
lemma sent_eq (h : Sound json pre c) {w : Emission D} (hw : w ∈ c.waiting) :
    ∃ payload, BlaizeEvent.deserializeEvent json payload = some w.event ∧
      c.sent glob json w = (List.range c.servers.length).map fun server =>
        ⟨w.publication, server, pre ++ ":" ++ "*", pre ++ ":" ++ w.event.type, payload⟩ := by
  have hmem := List.mem_of_getElem? (h.waiting w hw)
  obtain ⟨hrep, bus, hbus, -⟩ := h.published _ hmem
  obtain ⟨payload, hser, hde⟩ := hrep.deserializeEvent
  obtain ⟨-, subscriptionId, hadapter⟩ := (h.joined bus (List.mem_of_getElem? hbus)).cases
  have hpublish : (RedisEventBusAdapter.listeningToAll pre subscriptionId ()).publish json
      w.event = .ok (pre ++ ":" ++ w.event.type, payload) := by
    rw [RedisEventBusAdapter.publish, hser]
    rfl
  refine ⟨payload, hde, ?_⟩
  rw [sent, hbus, Option.bind_some, hadapter]
  dsimp only
  rw [hpublish]
  exact fanOut_eq hglob hmeta h.joined _ _ _

/-- A message is dropped on the server of its event, and handed over elsewhere. -/
lemma handled_eq (h : Sound json pre c) {m : Message} (hm : m ∈ c.inFlight)
    {p : Publication D} (hp : c.published[m.publication]? = some p) {bus : MemoryEventBus}
    (hbus : c.servers[m.server]? = some bus) :
    c.handled json m = if p.server = m.server then []
      else handTo m.publication m.server p.event (bus.emitToSubscribers p.event) := by
  obtain ⟨hpattern, p', hp', hde⟩ := h.inFlight m hm
  obtain rfl : p = p' := Option.some.inj (hp.symm.trans hp')
  obtain ⟨-, bus', hbus', hid⟩ := h.published p (List.mem_of_getElem? hp)
  obtain ⟨-, subscriptionId, hadapter⟩ := (h.joined bus (List.mem_of_getElem? hbus)).cases
  -- different servers have different ids
  have hsame : p.event.serverId = bus.serverId ↔ p.server = m.server := by
    rw [hid]
    constructor
    · intro he
      obtain ⟨hlt, -⟩ := List.getElem?_eq_some_iff.mp hbus'
      refine (List.getElem?_inj (l := c.servers.map (·.serverId)) (by simpa using hlt)
        h.serverIds).mp ?_
      rw [List.getElem?_map, List.getElem?_map, hbus, hbus', Option.map_some, Option.map_some, he]
    · intro he
      rw [he, hbus] at hbus'
      rw [Option.some.inj hbus']
  simp only [handled, hbus, hadapter, hpattern,
    RedisEventBusAdapter.handleMessage_listeningToAll () hde, List.flatMap_cons,
    List.flatMap_nil, List.append_nil, MemoryEventBus.onAdapterEvent, hsame]
  split <;> rfl

end Steps

/-- Everything that a step can do. -/
lemma step_cases {a : Action D} {c' : Cluster D} (h : c.step glob json a = some c') :
    c' = c ∨
    (∃ server type data now correlationId bus event,
      a = .publish server type data now correlationId ∧ c.servers[server]? = some bus ∧
        bus.publish type data now correlationId = .ok event ∧
        c' = { c with
          published := c.published ++ [⟨server, event⟩]
          waiting := c.waiting ++ [⟨⟨server, event⟩, c.published.length⟩]
          handed := c.handed ++
            handTo c.published.length server event (bus.emitToSubscribers event) }) ∨
    (∃ k w, a = .settle k ∧ c.waiting[k]? = some w ∧
        c' = { c with
          waiting := c.waiting.eraseIdx k
          inFlight := c.inFlight ++ c.sent glob json w }) ∨
    (∃ k m, a = .deliver k ∧ c.inFlight[k]? = some m ∧
        c' = { c with
          inFlight := c.inFlight.eraseIdx k
          handed := c.handed ++ c.handled json m }) := by
  cases a with
  | publish server type data now correlationId =>
      simp only [step] at h
      split at h
      · cases h
      next bus hbus =>
          split at h
          next => exact Or.inl (Option.some.inj h).symm
          next event hevent =>
              exact Or.inr (Or.inl ⟨server, type, data, now, correlationId, bus, event, rfl,
                hbus, hevent, (Option.some.inj h).symm⟩)
  | settle k =>
      simp only [step] at h
      split at h
      · cases h
      next w hw => exact Or.inr (Or.inr (Or.inl ⟨k, w, rfl, hw, (Option.some.inj h).symm⟩))
  | deliver k =>
      simp only [step] at h
      split at h
      · cases h
      next m hm => exact Or.inr (Or.inr (Or.inr ⟨k, m, rfl, hm, (Option.some.inj h).symm⟩))

lemma step_servers {a : Action D} {c' : Cluster D} (h : c.step glob json a = some c') :
    c'.servers = c.servers := by
  rcases step_cases h with rfl | ⟨_, _, _, _, _, _, _, _, _, _, rfl⟩ | ⟨_, _, _, _, rfl⟩ |
    ⟨_, _, _, _, rfl⟩ <;> rfl

section Steps

variable {pre : String} (hglob : PatternRules glob) (hmeta : MetaFree pre)

lemma handing_of_mem_handTo {n j : ℕ} {event : BlaizeEvent D} {subs : List Subscription}
    {h : Handing D} (hh : h ∈ handTo n j event subs) :
    h.publication = n ∧ h.server = j ∧ h.event = event ∧ ∃ sub ∈ subs, sub.id = h.subscription := by
  obtain ⟨sub, hsub, rfl⟩ := List.mem_map.mp hh
  exact ⟨rfl, rfl, rfl, sub, hsub, rfl⟩

lemma publish_serverId {bus : MemoryEventBus} {type : String} {data : Option (JsonValue D)}
    {now : ℚ} {correlationId : Option String} {event : BlaizeEvent D}
    (h : bus.publish type data now correlationId = .ok event) :
    event.serverId = bus.serverId := by
  rw [MemoryEventBus.publish] at h
  split at h
  · cases h
  · obtain rfl := Except.ok.inj h
    rfl

include hglob hmeta in
lemma sound_step {a : Action D} {c' : Cluster D} (hs : Sound json pre c)
    (ha : a.Representable json c.servers) (h : c.step glob json a = some c') :
    Sound json pre c' := by
  rcases step_cases h with rfl |
    ⟨i, type, data, now, correlationId, bus, event, rfl, hbus, hevent, rfl⟩ |
    ⟨k, w, rfl, hw, rfl⟩ | ⟨k, m, rfl, hm, rfl⟩
  · exact hs
  · -- a new publication leaves those before it in their places
    have hold : ∀ {n : ℕ} {p : Publication D}, c.published[n]? = some p →
        (c.published ++ [⟨i, event⟩])[n]? = some p := fun hn => by
      rw [List.getElem?_append_left (List.getElem?_eq_some_iff.mp hn).1, hn]
    have hnew : (c.published ++ [(⟨i, event⟩ : Publication D)])[c.published.length]? =
        some ⟨i, event⟩ := List.getElem?_concat_length
    refine ⟨hs.joined, hs.serverIds, fun p hp => ?_, fun w hw => ?_, fun m hm => ?_,
      fun h hh => ?_⟩
    · rcases List.mem_append.mp hp with hp | hp
      · exact hs.published p hp
      · rw [List.mem_singleton.mp hp]
        exact ⟨ha bus hbus event hevent, bus, hbus, publish_serverId hevent⟩
    · rcases List.mem_append.mp hw with hw | hw
      · exact hold (hs.waiting w hw)
      · rw [List.mem_singleton.mp hw]
        exact hnew
    · obtain ⟨hpattern, p, hp, hde⟩ := hs.inFlight m hm
      exact ⟨hpattern, p, hold hp, hde⟩
    · rcases List.mem_append.mp hh with hh | hh
      · obtain ⟨p, bus, sub, hp, hrest⟩ := hs.handed h hh
        exact ⟨p, bus, sub, hold hp, hrest⟩
      · obtain ⟨hn, hj, he, sub, hsub, hid⟩ := handing_of_mem_handTo hh
        exact ⟨⟨i, event⟩, bus, sub, hn ▸ hnew, he, hj ▸ hbus,
          (List.mem_filter.mp hsub).1, hid⟩
  · have hmem := List.mem_of_getElem? hw
    obtain ⟨payload, hde, hsent⟩ := sent_eq hglob hmeta hs hmem
    refine ⟨hs.joined, hs.serverIds, hs.published,
      fun w hw => hs.waiting w (List.mem_of_mem_eraseIdx hw), fun m hm => ?_, hs.handed⟩
    rcases List.mem_append.mp hm with hm | hm
    · exact hs.inFlight m hm
    · rw [hsent] at hm
      obtain ⟨j, -, rfl⟩ := List.mem_map.mp hm
      exact ⟨rfl, w.toPublication, hs.waiting w hmem, hde⟩
  · have hmem := List.mem_of_getElem? hm
    refine ⟨hs.joined, hs.serverIds, hs.published, hs.waiting,
      fun m hm => hs.inFlight m (List.mem_of_mem_eraseIdx hm), fun h hh => ?_⟩
    rcases List.mem_append.mp hh with hh | hh
    · exact hs.handed h hh
    · obtain ⟨-, p, hp, -⟩ := hs.inFlight m hmem
      cases hbus : c.servers[m.server]? with
      | none =>
          rw [handled, hbus] at hh
          cases hh
      | some bus =>
          rw [handled_eq hs hmem hp hbus] at hh
          split at hh
          · cases hh
          · obtain ⟨hn, hj, he, sub, hsub, hid⟩ := handing_of_mem_handTo hh
            exact ⟨p, bus, sub, hn ▸ hp, he, hj ▸ hbus, (List.mem_filter.mp hsub).1, hid⟩

/-- Nothing waits, flies or was handed over for a publication to come. -/
lemma counts_of_fresh (hs : Sound json pre c) (j id : ℕ) :
    c.timesHanded c.published.length j id = 0 ∧ c.pending c.published.length j = 0 := by
  have hnone : ∀ p : Publication D, c.published[c.published.length]? ≠ some p := fun p hp =>
    Nat.lt_irrefl _ (List.getElem?_eq_some_iff.mp hp).1
  refine ⟨List.countP_eq_zero.mpr fun h hh he => ?_, ?_⟩
  · obtain ⟨p, -, -, hp, -⟩ := hs.handed h hh
    simp only [Bool.and_eq_true, decide_eq_true_eq] at he
    exact hnone p (he.1.1 ▸ hp)
  · refine Nat.add_eq_zero_iff.mpr ⟨List.countP_eq_zero.mpr fun w hw he => ?_,
      List.countP_eq_zero.mpr fun m hm he => ?_⟩
    · exact hnone _ (of_decide_eq_true he ▸ hs.waiting w hw)
    · obtain ⟨-, p, hp, -⟩ := hs.inFlight m hm
      simp only [Bool.and_eq_true, decide_eq_true_eq] at he
      exact hnone p (he.1 ▸ hp)

/-- Among the messages to each server, one is for the given server. -/
lemma countP_sent (n' n : ℕ) {servers j : ℕ} (hj : j < servers)
    (pattern channel payload : String) :
    ((List.range servers).map fun server =>
        (⟨n', server, pattern, channel, payload⟩ : Message)).countP
      (fun m => m.publication = n && m.server = j) = if n' = n then 1 else 0 := by
  rw [List.countP_map]
  split
  next he =>
      subst he
      have hkey := List.countP_key (fun _ => true) (fun j : ℕ => j) (l := List.range servers)
        (by simpa using List.nodup_range) (List.mem_range.mpr hj)
      simpa [Function.comp_def] using hkey
  next he => exact List.countP_eq_zero.mpr fun j' _ => by simp [he]

lemma balanced_publish (hs : Sound json pre c) (hb : Balanced c) {i : ℕ}
    {bus' : MemoryEventBus} (hbus' : c.servers[i]? = some bus') (event : BlaizeEvent D) :
    Balanced { c with
      published := c.published ++ [⟨i, event⟩]
      waiting := c.waiting ++ [⟨⟨i, event⟩, c.published.length⟩]
      handed := c.handed ++
        handTo c.published.length i event (bus'.emitToSubscribers event) } := by
  intro n p hp j bus hbus sub hsub
  rw [timesHanded, pending, List.countP_append, List.countP_append, List.countP_singleton]
  rcases Nat.lt_or_ge n c.published.length with hn | hn
  · -- an earlier publication is not touched
    rw [List.getElem?_append_left hn] at hp
    rw [countP_handTo_of_ne (fun he => hn.ne' he.1)]
    simp only [hn.ne', decide_false, Bool.false_eq_true, if_false, Nat.add_zero]
    exact hb n p hp j bus hbus sub hsub
  · obtain rfl : n = c.published.length := by
      have hlt := (List.getElem?_eq_some_iff.mp hp).1
      rw [List.length_append, List.length_singleton] at hlt
      omega
    obtain rfl : ⟨i, event⟩ = p :=
      Option.some.inj (List.getElem?_concat_length.symm.trans hp)
    obtain ⟨hhanded, hpending⟩ := counts_of_fresh hs j sub.id
    rw [timesHanded] at hhanded
    rw [pending] at hpending
    rw [hhanded]
    by_cases he : i = j
    · subst he
      obtain rfl : bus' = bus := Option.some.inj (hbus'.symm.trans hbus)
      have hwf := (hs.joined bus' (List.mem_of_getElem? hbus')).cases.1
      rw [countP_handTo hwf hsub, if_pos rfl, Nat.zero_add, Nat.add_zero]
    · rw [countP_handTo_of_ne (fun h => he h.2), if_neg he, if_pos (by simp)]
      obtain ⟨hw, hf⟩ := Nat.add_eq_zero_iff.mp hpending
      rw [hw, hf, Nat.zero_add, Nat.zero_add, Nat.add_zero, Nat.mul_one]

include hglob hmeta in
lemma balanced_settle (hs : Sound json pre c) (hb : Balanced c) {k : ℕ} {w : Emission D}
    (hw : c.waiting[k]? = some w) :
    Balanced { c with
      waiting := c.waiting.eraseIdx k
      inFlight := c.inFlight ++ c.sent glob json w } := by
  intro n p hp j bus hbus sub hsub
  obtain ⟨payload, -, hsent⟩ := sent_eq hglob hmeta hs (List.mem_of_getElem? hw)
  have hlt : j < c.servers.length := (List.getElem?_eq_some_iff.mp hbus).1
  have hflying := countP_sent w.publication n hlt (pre ++ ":" ++ "*")
    (pre ++ ":" ++ w.event.type) payload
  have hwaiting := List.countP_eraseIdx_add (fun w => decide (w.publication = n)) hw
  have hpending : pending { c with
      waiting := c.waiting.eraseIdx k
      inFlight := c.inFlight ++ c.sent glob json w } n j = c.pending n j := by
    rw [pending, pending, List.countP_append, hsent, hflying]
    by_cases he : w.publication = n <;> simp [he] at hwaiting ⊢ <;> omega
  rw [hpending]
  exact hb n p hp j bus hbus sub hsub

lemma balanced_deliver (hs : Sound json pre c) (hb : Balanced c) {k : ℕ} {m : Message}
    (hm : c.inFlight[k]? = some m) :
    Balanced { c with
      inFlight := c.inFlight.eraseIdx k
      handed := c.handed ++ c.handled json m } := by
  intro n p hp j bus hbus sub hsub
  have hmem := List.mem_of_getElem? hm
  have hwf := (hs.joined bus (List.mem_of_getElem? hbus)).cases.1
  have hold := hb n p hp j bus hbus sub hsub
  have hflying := List.countP_eraseIdx_add
    (fun m : Message => decide (m.publication = n) && decide (m.server = j)) hm
  rw [timesHanded, pending] at hold
  rw [timesHanded, pending, List.countP_append]
  dsimp only at hflying ⊢
  by_cases he : m.publication = n ∧ m.server = j
  · -- the message is for this server, and it is handed over unless it is the server's own
    obtain ⟨rfl, rfl⟩ := he
    rw [handled_eq hs hmem hp hbus]
    simp only [decide_true, Bool.and_self, Bool.toNat_true] at hflying
    rw [← hflying] at hold
    by_cases hown : p.server = m.server
    · rw [if_pos hown] at hold ⊢
      rw [if_pos hown]
      exact hold
    · rw [if_neg hown] at hold ⊢
      rw [if_neg hown, countP_handTo hwf hsub]
      rw [← Nat.add_assoc, Nat.mul_succ] at hold
      omega
  · -- another message changes neither count
    have hzero : (c.handled json m).countP (fun h =>
        decide (h.publication = n) && decide (h.server = j) &&
          decide (h.subscription = sub.id)) = 0 := by
      obtain ⟨-, p', hp', -⟩ := hs.inFlight m hmem
      cases hbus' : c.servers[m.server]? with
      | none => rw [handled, hbus', List.countP_nil]
      | some bus' =>
          rw [handled_eq hs hmem hp' hbus']
          split
          · rfl
          · exact countP_handTo_of_ne he _ _ _
    have hsame : (decide (m.publication = n) && decide (m.server = j)) = false := by
      simpa using he
    rw [hsame, Bool.toNat_false, Nat.add_zero] at hflying
    rw [hzero, hflying, Nat.add_zero]
    exact hold

include hglob hmeta in
/-- **A step keeps the balance.** -/
lemma balanced_step {a : Action D} {c' : Cluster D} (hs : Sound json pre c) (hb : Balanced c)
    (h : c.step glob json a = some c') : Balanced c' := by
  rcases step_cases h with rfl |
    ⟨i, type, data, now, correlationId, bus', event, rfl, hbus', -, rfl⟩ |
    ⟨k, w, rfl, hw, rfl⟩ | ⟨k, m, rfl, hm, rfl⟩
  · exact hb
  · exact balanced_publish hs hb hbus' event
  · exact balanced_settle hglob hmeta hs hb hw
  · exact balanced_deliver hs hb hm

end Steps

/-! ### Runs -/

/-- Without further calls the servers get to rest. -/
lemma exists_quiescent (glob : String → String → Bool) (json : Json D) (c : Cluster D) :
    ∃ bs t, (∀ b ∈ bs, Action.Internal b) ∧ exec (step glob json) c bs = some t ∧
      t.Quiescent := by
  induction hw : c.waiting.length generalizing c with
  | zero =>
      have hwaiting := List.length_eq_zero_iff.mp hw
      clear hw
      -- only messages are left
      induction hf : c.inFlight.length generalizing c with
      | zero => exact ⟨[], c, nofun, rfl, hwaiting, List.length_eq_zero_iff.mp hf⟩
      | succ n ih =>
          obtain ⟨m, ms, hms⟩ := List.exists_cons_of_length_eq_add_one hf
          obtain ⟨c', hstep, hw', hf'⟩ : ∃ c', c.step glob json (.deliver 0) = some c' ∧
              c'.waiting = [] ∧ c'.inFlight.length = n :=
            ⟨{ c with inFlight := ms, handed := c.handed ++ c.handled json m },
              by rw [step, hms]; rfl, hwaiting, by simpa [hms] using hf⟩
          obtain ⟨bs, t, hbs, hrun, ht⟩ := ih c' hw' hf'
          refine ⟨.deliver 0 :: bs, t, List.forall_mem_cons.mpr ⟨trivial, hbs⟩, ?_, ht⟩
          rw [exec_cons, hstep, Option.bind_some, hrun]
  | succ n ih =>
      obtain ⟨w, ws, hws⟩ := List.exists_cons_of_length_eq_add_one hw
      obtain ⟨c', hstep, hw'⟩ : ∃ c', c.step glob json (.settle 0) = some c' ∧
          c'.waiting.length = n :=
        ⟨{ c with waiting := ws, inFlight := c.inFlight ++ c.sent glob json w },
          by rw [step, hws]; rfl, by simpa [hws] using hw⟩
      obtain ⟨bs, t, hbs, hrun, ht⟩ := ih c' hw'
      refine ⟨.settle 0 :: bs, t, List.forall_mem_cons.mpr ⟨trivial, hbs⟩, ?_, ht⟩
      rw [exec_cons, hstep, Option.bind_some, hrun]

lemma sound_balanced_of_run {pre : String} (hglob : PatternRules glob) (hmeta : MetaFree pre)
    {servers : List MemoryEventBus} (hjoined : ∀ bus ∈ servers, Joined pre bus)
    (hids : (servers.map (·.serverId)).Nodup) {as : List (Action D)} {c : Cluster D}
    (hrep : ∀ a ∈ as, a.Representable json servers)
    (hrun : exec (step glob json) { servers } as = some c) :
    Sound json pre c ∧ Balanced c ∧ c.servers = servers := by
  have hmeets : Meets (step glob json) (fun _ a => a.Representable json servers)
      { servers } as :=
    meets_of_forall_initial fun bs a cs t has _ => hrep a (by simp [has])
  refine meets_invariant (I := fun c => Sound json pre c ∧ Balanced c ∧ c.servers = servers)
    (fun c a c' hI ha h => ?_) ⟨?_, fun n p h => ?_, rfl⟩ hmeets hrun
  · obtain ⟨hs, hb, rfl⟩ := hI
    exact ⟨sound_step hglob hmeta hs ha h, balanced_step hglob hmeta hs hb h, step_servers h⟩
  · exact ⟨hjoined, hids, nofun, nofun, nofun, nofun⟩
  · rw [List.getElem?_nil] at h
    cases h

/-- **An event is handed to every subscriber that is to receive it exactly once, and to no
other.**  At any time it was handed over at most once; when nothing waits and nothing is in
flight, exactly once.  Completions of handlers and arrivals alone can lead to such a state. -/
theorem delivered_exactly_once {pre : String} (hglob : PatternRules glob) (hmeta : MetaFree pre)
    {servers : List MemoryEventBus} (hjoined : ∀ bus ∈ servers, Joined pre bus)
    (hids : (servers.map (·.serverId)).Nodup) {as : List (Action D)} {c : Cluster D}
    (hrep : ∀ a ∈ as, a.Representable json servers)
    (hrun : exec (step glob json) { servers } as = some c) :
    (∀ n p, c.published[n]? = some p → ∀ j bus, servers[j]? = some bus →
      ∀ sub ∈ bus.subscriptions, (sub.pattern = "*" → OneLine p.event.type) →
        c.timesHanded n j sub.id ≤ 1 ∧
        (Receives sub.pattern p.event.type → c.Quiescent → c.timesHanded n j sub.id = 1) ∧
        (¬ Receives sub.pattern p.event.type → c.timesHanded n j sub.id = 0)) ∧
    (∀ h ∈ c.handed, ∃ p bus sub, c.published[h.publication]? = some p ∧ h.event = p.event ∧
      servers[h.server]? = some bus ∧ sub ∈ bus.subscriptions ∧ sub.id = h.subscription) ∧
    ∃ bs t, (∀ b ∈ bs, Action.Internal b) ∧ exec (step glob json) c bs = some t ∧
      t.Quiescent := by
  obtain ⟨hs, hb, rfl⟩ := sound_balanced_of_run hglob hmeta hjoined hids hrep hrun
  refine ⟨fun n p hp j bus hbus sub hsub hline => ?_, hs.handed, exists_quiescent glob json c⟩
  have hbalance := hb n p hp j bus hbus sub hsub
  have hone := hits_le_one sub p.event
  have hmatcher : sub.matcher.test p.event.type = true ↔ Receives sub.pattern p.event.type := by
    rw [(hs.joined bus (List.mem_of_getElem? hbus)).cases.1.matcher sub hsub]
    exact createMatcher_test_iff hline
  refine ⟨by omega, fun hreceives hq => ?_, fun hreceives => ?_⟩
  · have hpending : c.pending n j = 0 := by
      rw [pending, hq.1, hq.2, List.countP_nil, List.countP_nil]
    have hhit : hits sub p.event = 1 := by
      rw [hits, hmatcher.mpr hreceives, Bool.toNat_true]
    rw [hpending, Nat.mul_zero, ite_self] at hbalance
    omega
  · have hmiss : hits sub p.event = 0 := by
      rw [hits, Bool.eq_false_iff.mpr fun h => hreceives (hmatcher.mp h), Bool.toNat_false]
    omega

/-- A bus with patterns and with an adapter of the default prefix. -/
def demoBus (serverId : String) (patterns : List String) : MemoryEventBus where
  serverId := serverId
  subscriptions := patterns.zipIdx.map fun (pattern, id) => ⟨id, pattern, createMatcher pattern⟩
  nextId := patterns.length
  adapter := some (.listeningToAll "blaize:events" "*:0:x" ())

/-- Two servers, and one event that is published on the first. -/
def demoServers : List MemoryEventBus :=
  [demoBus "server-1" ["user:*"], demoBus "server-2" ["*", "order:created"]]

/-- An event that reaches both servers. -/
def demoRun : List (Action Unit) :=
  [.publish 0 "user:created" none 0 none, .settle 0, .deliver 0, .deliver 0]

lemma joined_demoServers : ∀ bus ∈ demoServers, Joined "blaize:events" bus := by
  intro bus hbus
  rcases List.mem_pair.mp hbus with rfl | rfl
  · exact ⟨some "server-1", "", "*:0:x", ["user:*"], rfl⟩
  · exact ⟨some "server-2", "", "*:0:x", ["*", "order:created"], rfl⟩

lemma representable_demoRun :
    ∀ a ∈ demoRun, Action.Representable plainJson demoServers a := by
  intro a ha
  simp only [demoRun, List.mem_cons, List.not_mem_nil, or_false] at ha
  rcases ha with rfl | rfl | rfl | rfl
  · intro bus hbus event hevent
    obtain rfl : demoBus "server-1" ["user:*"] = bus := Option.some.inj hbus
    obtain rfl : BlaizeEvent.mk "user:created" none 0 "server-1" none = event :=
      Except.ok.inj hevent
    exact plainJson_event _ _
  · trivial
  · trivial
  · trivial

lemma exec_demoRun :
    ∃ c, exec (step plainGlob plainJson) { servers := demoServers } demoRun = some c ∧
      c.Quiescent ∧ c.published[0]? = some ⟨0, ⟨"user:created", none, 0, "server-1", none⟩⟩ ∧
        c.timesHanded 0 1 0 = 1 := by
  have hrun : (exec (step plainGlob plainJson) { servers := demoServers } demoRun).any (fun c =>
      decide (c.Quiescent ∧
        c.published[0]? = some ⟨0, ⟨"user:created", none, 0, "server-1", none⟩⟩ ∧
          c.timesHanded 0 1 0 = 1)) = true := by
    decide +kernel
  obtain ⟨c, hc, h⟩ := (Option.any_eq_true _ _).mp hrun
  exact ⟨c, hc, of_decide_eq_true h⟩

/-- The event reaches the subscriber on its own server and one on the other. -/
theorem delivered_exactly_once_twoServers :
    ∃ c, exec (step plainGlob plainJson) { servers := demoServers } demoRun = some c ∧
      c.Quiescent ∧ c.timesHanded 0 0 0 = 1 ∧ c.timesHanded 0 1 0 = 1 ∧
        c.timesHanded 0 1 1 = 0 := by
  obtain ⟨c, hc, hq, hp, -⟩ := exec_demoRun
  obtain ⟨hall, -, -⟩ := delivered_exactly_once plainRules (by decide) joined_demoServers
    (by decide) representable_demoRun hc
  refine ⟨c, hc, hq, ?_, ?_, ?_⟩
  · exact (hall 0 _ hp 0 _ rfl ⟨0, "user:*", _⟩ (List.mem_singleton_self _) (by decide)).2.1
      (by decide) hq
  · exact (hall 0 _ hp 1 _ rfl ⟨0, "*", _⟩ List.mem_cons_self (by decide)).2.1 (by decide) hq
  · exact (hall 0 _ hp 1 _ rfl ⟨1, "order:created", _⟩
      (List.mem_cons_of_mem _ (List.mem_singleton_self _)) (by decide)).2.2 (by decide)

/-- The pattern `*` alone takes a type with a `:` too. -/
theorem delivered_across_namespaces :
    ¬ ∀ (servers : List MemoryEventBus) (as : List (Action Unit)) (c : Cluster Unit),
      (∀ bus ∈ servers, Joined "blaize:events" bus) → (servers.map (·.serverId)).Nodup →
      (∀ a ∈ as, a.Representable plainJson servers) →
      exec (step plainGlob plainJson) { servers } as = some c → c.Quiescent →
      ∀ n p, c.published[n]? = some p → ∀ j bus, servers[j]? = some bus →
        ∀ sub ∈ bus.subscriptions,
          c.timesHanded n j sub.id =
            if Fits sub.pattern.toList p.event.type.toList then 1 else 0 := by
  intro h
  obtain ⟨c, hc, hq, hp, hhanded⟩ := exec_demoRun
  have hzero := h demoServers demoRun c joined_demoServers (by decide) representable_demoRun hc
    hq 0 _ hp 1 _ rfl ⟨0, "*", _⟩ List.mem_cons_self
  rw [hhanded] at hzero
  exact absurd hzero (by decide)

end Cluster

end Blaize.Events
