import Blaize.Events.Delivery
import Blaize.Lib.Count

/-!
`TypedEventBus` (packages/blaize-core/src/events/typed-event-bus.ts) on the servers of a
cluster: with which data is the handler of a typed subscriber called?

The data of an event is validated by `publish` and once more by each subscriber; on its way
to another server it goes through JSON in between.

* `TypedEventBusOptions`, `validateEvent`, `receive`: the wrapper around a bus;
* `typedStep`: the steps of a cluster whose buses are all wrapped;
* `Conserved`: **what was handed over and what is still to come are the outcomes of the
  publications**, whatever JSON makes of the events;
* `called_iff_keeps`: **the handler of a subscriber gets the published data exactly if its
  route keeps them**.
-/

namespace Blaize.Events

open Machine

variable {D : Type}

/-! ### The wrapper -/

/-- The data of an event; `none` is undefined. -/
abbrev EventData (D : Type) : Type := Option (JsonValue D)

/-- What is done about a type without a schema. -/
inductive UnknownEventBehavior where
  | error
  | warn
  | allow
  deriving DecidableEq, Repr

/-- The options of a typed bus.  A schema is its `parse`, `none` where it throws. -/
structure TypedEventBusOptions (D : Type) where
  schemas : String → Option (EventData D → Option (EventData D))
  unknownEventBehavior : UnknownEventBehavior := .warn

namespace TypedEventBusOptions

variable (options : TypedEventBusOptions D)

/-- An event of a type without a schema. -/
def handleUnknownEvent (type : String) (data : EventData D) : Except String (EventData D) :=
  match options.unknownEventBehavior with
  | .error => .error ("Unknown event type: \"" ++ type ++ "\"")
  | .warn => .ok data
  | .allow => .ok data

/-- The data of an event as its schema parses them. -/
def validateEvent (type : String) (data : EventData D) : Except String (EventData D) :=
  match options.schemas type with
  | none => options.handleUnknownEvent type data
  | some parse =>
      match parse data with
      | some result => .ok result
      | none => .error ("Event validation failed for \"" ++ type ++ "\"")

/-- The event that the handler of a typed subscriber is called with; an event that is not
valid is dropped. -/
def receive (event : BlaizeEvent D) : Option (BlaizeEvent D) :=
  match options.validateEvent event.type event.data with
  | .ok validatedData => some { event with data := validatedData }
  | .error _ => none

end TypedEventBusOptions

/-- What is used of JSON: a member that is a string comes back as it was. -/
structure Json.KeepsStrings (json : Json D) : Prop where
  find : ∀ {fields fields' : List (String × JsonValue D)} {payload key text : String},
    json.stringify fields = some payload → json.parse payload = some fields' →
      OrdMap.find key fields = some (.string text) → OrdMap.find key fields' = some (.string text)

/-- The event that another server reads from the payload. -/
def BlaizeEvent.travelled (json : Json D) (event : BlaizeEvent D) : Option (BlaizeEvent D) :=
  (event.serializeEvent json).bind (deserializeEvent json)

/-- Type and server are strings, and come through. -/
lemma BlaizeEvent.travelled_eq_some {json : Json D} (hjson : json.KeepsStrings)
    {event event' : BlaizeEvent D} (h : event.travelled json = some event') :
    event'.type = event.type ∧ event'.serverId = event.serverId := by
  obtain ⟨payload, hser, hde⟩ := Option.bind_eq_some_iff.mp h
  rw [deserializeEvent] at hde
  split at hde
  · cases hde
  next fields hparse =>
      have htype : OrdMap.find "type" event.fields = some (.string event.type) := by
        cases event with
        | mk type data timestamp serverId correlationId =>
            cases data <;> cases correlationId <;> rfl
      have hserver : OrdMap.find "serverId" event.fields = some (.string event.serverId) := by
        cases event with
        | mk type data timestamp serverId correlationId =>
            cases data <;> cases correlationId <;> rfl
      rw [hjson.find hser hparse htype, hjson.find hser hparse hserver] at hde
      split at hde
      next type timestamp serverId hty hti hse =>
          obtain rfl := Option.some.inj hde
          cases hty
          cases hse
          exact ⟨rfl, rfl⟩
      next => cases hde

namespace Cluster

variable (glob : String → String → Bool) (json : Json D) (options : TypedEventBusOptions D)
  (c : Cluster D)

/-- A step of servers whose buses are wrapped: `publish` validates before it calls the bus,
and throws if the data are not valid. -/
def typedStep : Action D → Option (Cluster D)
  | .publish server type data now correlationId =>
      match options.validateEvent type data with
      | .error _ => c.servers[server]?.map fun _ => c
      | .ok validatedData => c.step glob json (.publish server type validatedData now correlationId)
  | .settle k => c.step glob json (.settle k)
  | .deliver k => c.step glob json (.deliver k)

/-- The events that the handler of a typed subscriber was called with for a publication. -/
def called (publication server subscription : ℕ) : List (BlaizeEvent D) :=
  (c.handed.filter fun h =>
    h.publication = publication && h.server = server && h.subscription = subscription).filterMap
      fun h => options.receive h.event

/-- What reaches the subscribers on a server: the event itself where it was published, and
what JSON has made of it elsewhere. -/
def arriving (p : Publication D) (server : ℕ) : Option (BlaizeEvent D) :=
  if p.server = server then some p.event else p.event.travelled json

/-- **The route keeps the data**: what arrives is valid, and validation gives the data that
were published. -/
def Keeps (p : Publication D) (server : ℕ) : Prop :=
  ∃ event, arriving json p server = some event ∧
    options.validateEvent p.event.type event.data = .ok p.event.data

/-! ### What becomes of a publication -/

/-- All handlers that are called because of a publication. -/
def outcome (p : Publication D) (n : ℕ) : List (Handing D) :=
  (match c.servers[p.server]? with
    | none => []
    | some bus => handTo n p.server p.event (bus.emitToSubscribers p.event)) ++
  (c.sent glob json ⟨p, n⟩).flatMap (c.handled json)

/-- What was handed over, and what is still to come of messages and waiting calls. -/
def due : List (Handing D) :=
  c.handed ++ (c.inFlight.flatMap (c.handled json) ++
    c.waiting.flatMap fun w => (c.sent glob json w).flatMap (c.handled json))

/-- **What was handed over and what is still to come are the outcomes of the
publications.** -/
def Conserved : Prop :=
  (c.due glob json).Perm (c.published.zipIdx.flatMap fun e => c.outcome glob json e.1 e.2)

variable {glob json options c} {c' : Cluster D} {a : Action D}

/-- **A step conserves what becomes of the publications.** -/
theorem conserved_step (hc : c.Conserved glob json) (h : c.step glob json a = some c') :
    c'.Conserved glob json := by
  rcases step_cases h with rfl |
    ⟨i, type, data, now, correlationId, bus, event, rfl, hbus, hevent, rfl⟩ |
    ⟨k, w, rfl, hw, rfl⟩ | ⟨k, m, rfl, hm, rfl⟩
  · exact hc
  · -- the new publication brings its own outcome
    let p : Publication D := ⟨i, event⟩
    let w : Emission D := ⟨p, c.published.length⟩
    let own := handTo c.published.length i event (bus.emitToSubscribers event)
    let later := (c.sent glob json w).flatMap (c.handled json)
    have hout : c.outcome glob json p c.published.length = own ++ later := by
      rw [outcome, hbus]
    have hnew : (c.published ++ [p]).zipIdx.flatMap
        (fun e => c.outcome glob json e.1 e.2) =
        (c.published.zipIdx.flatMap fun e => c.outcome glob json e.1 e.2) ++ (own ++ later) := by
      rw [List.zipIdx_append, List.flatMap_append, ← hout]
      simp
    change ((c.handed ++ own) ++ (c.inFlight.flatMap (c.handled json) ++
      (c.waiting ++ [w]).flatMap fun w => (c.sent glob json w).flatMap (c.handled json))).Perm
        ((c.published ++ [p]).zipIdx.flatMap fun e => c.outcome glob json e.1 e.2)
    rw [hnew, List.flatMap_append, List.flatMap_singleton]
    refine List.Perm.trans ?_ (hc.append_right (own ++ later))
    simp only [due, List.append_assoc]
    exact ((List.perm_append_comm_assoc own _ _).trans
      ((List.perm_append_comm_assoc own _ _).append_left _)).append_left _
  · have hwait := List.flatMap_eraseIdx_perm hw fun w =>
      (c.sent glob json w).flatMap (c.handled json)
    refine List.Perm.trans ?_ hc
    change (c.handed ++ ((c.inFlight ++ c.sent glob json w).flatMap (c.handled json) ++
      (c.waiting.eraseIdx k).flatMap fun w =>
        (c.sent glob json w).flatMap (c.handled json))).Perm (c.due glob json)
    rw [List.flatMap_append, due, List.append_assoc]
    exact (hwait.symm.append_left _).append_left _
  · have hfly := List.flatMap_eraseIdx_perm hm (c.handled json)
    refine List.Perm.trans ?_ hc
    change ((c.handed ++ c.handled json m) ++ ((c.inFlight.eraseIdx k).flatMap (c.handled json) ++
      c.waiting.flatMap fun w => (c.sent glob json w).flatMap (c.handled json))).Perm
        (c.due glob json)
    rw [due, List.append_assoc, ← List.append_assoc (c.handled json m)]
    exact (hfly.symm.append_right _).append_left _

/-! ### The subscribers of a publication -/

/-- The handing of a publication to a subscriber. -/
def isHanding (n j id : ℕ) (h : Handing D) : Bool :=
  h.publication = n && h.server = j && h.subscription = id

lemma filter_handTo_of_ne {n n' j j' : ℕ} (h : ¬ (n' = n ∧ j' = j)) (id : ℕ)
    (event : BlaizeEvent D) (subs : List Subscription) :
    (handTo n' j' event subs).filter (isHanding n j id) = [] := by
  refine List.filter_eq_nil_iff.mpr fun x hx hit => h ?_
  obtain ⟨hn, hj, -⟩ := handing_of_mem_handTo hx
  simp only [isHanding, Bool.and_eq_true, decide_eq_true_eq] at hit
  exact ⟨hn.symm.trans hit.1.1, hj.symm.trans hit.1.2⟩

/-- An event is handed to a subscription once, if it matches. -/
lemma filter_handTo {bus : MemoryEventBus} (h : WellFormed bus) {sub : Subscription}
    (hsub : sub ∈ bus.subscriptions) (n j : ℕ) (event : BlaizeEvent D) :
    (handTo n j event (bus.emitToSubscribers event)).filter (isHanding n j sub.id) =
      if sub.matcher.test event.type then [⟨n, j, sub.id, event⟩] else [] := by
  have hone : bus.subscriptions.filter (fun s => decide (s.id = sub.id)) = [sub] :=
    List.filter_key _ h.ids hsub
  have hpick : (isHanding n j sub.id ∘ fun s : Subscription => (⟨n, j, s.id, event⟩ : Handing D)) =
      fun s : Subscription => decide (s.id = sub.id) := by
    funext s
    simp [isHanding]
  rw [handTo, List.filter_map, hpick, MemoryEventBus.emitToSubscribers, List.filter_filter]
  have hcomm : (bus.subscriptions.filter fun s =>
      decide (s.id = sub.id) && s.matcher.test event.type) =
        [sub].filter fun s => s.matcher.test event.type := by
    rw [← hone, List.filter_filter]
    exact List.filter_congr fun s _ => Bool.and_comm _ _
  rw [hcomm, List.filter_cons, List.filter_nil]
  cases sub.matcher.test event.type <;> rfl

section Joined

variable {pre : String} (hglob : PatternRules glob) (hmeta : MetaFree pre)
  (hjoined : ∀ bus ∈ c.servers, Joined pre bus)

include hjoined in
/-- A message makes the bus of its server handle the event that is read from the payload. -/
lemma handled_of_joined {n j : ℕ} {bus : MemoryEventBus} (hbus : c.servers[j]? = some bus)
    (channel payload : String) :
    c.handled json ⟨n, j, pre ++ ":" ++ "*", channel, payload⟩ =
      match BlaizeEvent.deserializeEvent json payload with
      | none => []
      | some event => handTo n j event (bus.onAdapterEvent event) := by
  obtain ⟨-, subscriptionId, hadapter⟩ := (hjoined bus (List.mem_of_getElem? hbus)).cases
  simp only [handled, hbus, hadapter]
  cases hde : BlaizeEvent.deserializeEvent json payload with
  | none =>
      rw [RedisEventBusAdapter.handleMessage, hde]
      rfl
  | some event =>
      rw [RedisEventBusAdapter.handleMessage_listeningToAll () hde, List.flatMap_singleton]

include hglob hmeta hjoined in
/-- What the messages of a publication lead to. -/
lemma flatMap_sent (p : Publication D) (n : ℕ) (hp : p.server < c.servers.length) :
    (c.sent glob json ⟨p, n⟩).flatMap (c.handled json) =
      match p.event.travelled json with
      | none => []
      | some event => (List.range c.servers.length).flatMap fun j =>
          handTo n j event ((c.servers[j]?.map fun bus => bus.onAdapterEvent event).getD []) := by
  have hbus : c.servers[p.server]? = some c.servers[p.server] := List.getElem?_eq_getElem hp
  obtain ⟨-, subscriptionId, hadapter⟩ := (hjoined _ (List.getElem_mem hp)).cases
  rw [sent, hbus, Option.bind_some, hadapter, BlaizeEvent.travelled]
  dsimp only
  rw [RedisEventBusAdapter.publish]
  cases hser : p.event.serializeEvent json with
  | none => rfl
  | some payload =>
      have hfan := fanOut_eq hglob hmeta hjoined n p.event.type payload
      change (c.fanOut glob n (pre ++ ":" ++ p.event.type) payload).flatMap (c.handled json) = _
      rw [hfan, List.flatMap_map, Option.bind_some]
      have hserver : ∀ j ∈ List.range c.servers.length, c.handled json
          ⟨n, j, pre ++ ":" ++ "*", pre ++ ":" ++ p.event.type, payload⟩ =
            match BlaizeEvent.deserializeEvent json payload with
            | none => []
            | some event =>
                handTo n j event
                  ((c.servers[j]?.map fun bus => bus.onAdapterEvent event).getD []) := by
        intro j hj
        have hlt : j < c.servers.length := List.mem_range.mp hj
        have hbus : c.servers[j]? = some c.servers[j] := List.getElem?_eq_getElem hlt
        rw [handled_of_joined hjoined hbus, hbus]
        rfl
      rw [List.flatMap_congr hserver]
      cases BlaizeEvent.deserializeEvent json payload with
      | none => exact List.flatMap_eq_nil_iff.mpr fun _ _ => rfl
      | some event => rfl

variable (hids : (c.servers.map (·.serverId)).Nodup)

include hglob hmeta hjoined hids in
/-- **The outcome of a publication for a matching subscriber** is what arrives at its
server. -/
lemma filter_outcome (hjson : json.KeepsStrings) {p : Publication D} (n : ℕ)
    {home bus : MemoryEventBus} (hhome : c.servers[p.server]? = some home)
    (hserver : p.event.serverId = home.serverId) {j : ℕ} (hbus : c.servers[j]? = some bus)
    {sub : Subscription} (hsub : sub ∈ bus.subscriptions)
    (hmatch : sub.matcher.test p.event.type = true) :
    (c.outcome glob json p n).filter (isHanding n j sub.id) =
      ((arriving json p j).map fun event => (⟨n, j, sub.id, event⟩ : Handing D)).toList := by
  have hwf := (hjoined bus (List.mem_of_getElem? hbus)).cases.1
  have hp : p.server < c.servers.length := (List.getElem?_eq_some_iff.mp hhome).1
  have hj : j < c.servers.length := (List.getElem?_eq_some_iff.mp hbus).1
  -- of the messages only the one to this server is for the subscriber
  have hremote : ((c.sent glob json ⟨p, n⟩).flatMap (c.handled json)).filter
      (isHanding n j sub.id) = if p.server = j then [] else
        ((p.event.travelled json).map fun event =>
          (⟨n, j, sub.id, event⟩ : Handing D)).toList := by
    rw [flatMap_sent hglob hmeta hjoined p n hp]
    cases htravel : p.event.travelled json with
    | none => simp
    | some event =>
        obtain ⟨htype, hid⟩ := BlaizeEvent.travelled_eq_some hjson htravel
        dsimp only
        rw [List.filter_flatMap, List.flatMap_eq_of_forall List.nodup_range (List.mem_range.mpr hj)
          fun j' _ hne => filter_handTo_of_ne (fun h => hne h.2) _ _ _, hbus, Option.map_some,
          Option.getD_some, MemoryEventBus.onAdapterEvent]
        have hown : event.serverId = bus.serverId ↔ p.server = j := by
          rw [hid, hserver]
          constructor
          · intro he
            have hhome' : (c.servers.map (·.serverId))[p.server]? = some home.serverId := by
              rw [List.getElem?_map, hhome, Option.map_some]
            have hbus' : (c.servers.map (·.serverId))[j]? = some home.serverId := by
              rw [List.getElem?_map, hbus, Option.map_some, he]
            exact (List.getElem?_inj (by simpa using hp) hids).mp (hhome'.trans hbus'.symm)
          · rintro rfl
            rw [hhome] at hbus
            rw [Option.some.inj hbus]
        by_cases hsame : p.server = j
        · rw [if_pos (hown.mpr hsame), if_pos hsame]
          rfl
        · rw [if_neg fun h => hsame (hown.mp h), if_neg hsame, filter_handTo hwf hsub, htype,
            if_pos hmatch]
          rfl
  rw [outcome, hhome, List.filter_append, hremote, arriving]
  by_cases hsame : p.server = j
  · subst hsame
    obtain rfl : home = bus := Option.some.inj (hhome.symm.trans hbus)
    rw [if_pos rfl, if_pos rfl, filter_handTo hwf hsub, if_pos hmatch]
    rfl
  · rw [if_neg hsame, if_neg hsame, filter_handTo_of_ne fun h => hsame h.2]
    rfl

include hglob hmeta hjoined in
lemma filter_outcome_of_ne {p : Publication D} {n n' : ℕ} (hn : n' ≠ n) (j id : ℕ)
    (hp : p.server < c.servers.length) :
    (c.outcome glob json p n').filter (isHanding n j id) = [] := by
  have hhome : c.servers[p.server]? = some c.servers[p.server] := List.getElem?_eq_getElem hp
  rw [outcome, hhome, List.filter_append, filter_handTo_of_ne fun h => hn h.1, List.nil_append,
    flatMap_sent hglob hmeta hjoined p n' hp]
  cases p.event.travelled json with
  | none => rfl
  | some event =>
      rw [List.filter_flatMap]
      exact List.flatMap_eq_nil_iff.mpr fun j' _ => filter_handTo_of_ne (fun h => hn h.1) _ _ _

end Joined

/-! ### Runs -/

/-- The publications of a run were made on a server, with data that are valid. -/
structure Published (options : TypedEventBusOptions D) (c : Cluster D) : Prop where
  home : ∀ p ∈ c.published, ∃ bus, c.servers[p.server]? = some bus ∧
    p.event.serverId = bus.serverId
  valid : ∀ p ∈ c.published, ∃ data,
    options.validateEvent p.event.type data = .ok p.event.data

lemma publish_eq_ok {bus : MemoryEventBus} {type : String} {data : EventData D} {now : ℚ}
    {correlationId : Option String} {event : BlaizeEvent D}
    (h : bus.publish type data now correlationId = .ok event) :
    event.type = type ∧ event.data = data ∧ event.serverId = bus.serverId := by
  rw [MemoryEventBus.publish] at h
  split at h
  · cases h
  · obtain rfl := Except.ok.inj h
    exact ⟨rfl, rfl, rfl⟩

/-- A step of wrapped servers is none, or one with data that are valid. -/
lemma typedStep_cases (h : c.typedStep glob json options a = some c') :
    c' = c ∨ ∃ b, c.step glob json b = some c' ∧
      ∀ server type data now correlationId, b = .publish server type data now correlationId →
        ∃ v, options.validateEvent type v = .ok data := by
  cases a with
  | publish server type v now correlationId =>
      rw [typedStep] at h
      split at h
      next =>
          obtain ⟨_, _, rfl⟩ := Option.map_eq_some_iff.mp h
          exact Or.inl rfl
      next data hdata =>
          refine Or.inr ⟨_, h, fun _ _ _ _ _ he => ?_⟩
          cases he
          exact ⟨v, hdata⟩
  | settle k => exact Or.inr ⟨.settle k, h, fun _ _ _ _ _ he => by cases he⟩
  | deliver k => exact Or.inr ⟨.deliver k, h, fun _ _ _ _ _ he => by cases he⟩

lemma published_step (hc : c.Published options) (h : c.typedStep glob json options a = some c') :
    c'.Published options := by
  rcases typedStep_cases h with rfl | ⟨b, hb, hvalid⟩
  · exact hc
  rcases step_cases hb with rfl |
    ⟨i, type, data, now, correlationId, bus, event, rfl, hbus, hevent, rfl⟩ |
    ⟨k, w, rfl, hw, rfl⟩ | ⟨k, m, rfl, hm, rfl⟩
  · exact hc
  · obtain ⟨v, hv⟩ := hvalid _ _ _ _ _ rfl
    obtain ⟨htype, hdata, hid⟩ := publish_eq_ok hevent
    refine ⟨fun p hp => ?_, fun p hp => ?_⟩
    · rcases List.mem_append.mp hp with hp | hp
      · exact hc.home p hp
      · obtain rfl := List.mem_singleton.mp hp
        exact ⟨bus, hbus, hid⟩
    · rcases List.mem_append.mp hp with hp | hp
      · exact hc.valid p hp
      · obtain rfl := List.mem_singleton.mp hp
        exact ⟨v, by rw [htype, hdata, hv]⟩
  · exact ⟨hc.home, hc.valid⟩
  · exact ⟨hc.home, hc.valid⟩

lemma typedStep_servers (h : c.typedStep glob json options a = some c') :
    c'.servers = c.servers := by
  rcases typedStep_cases h with rfl | ⟨b, hb, -⟩
  · rfl
  · exact step_servers hb

/-- What a run of wrapped servers has published, and what has become of it. -/
lemma published_conserved_of_run {servers : List MemoryEventBus} {as : List (Action D)}
    (hrun : exec (typedStep glob json options) { servers } as = some c) :
    c.Published options ∧ c.Conserved glob json ∧ c.servers = servers := by
  refine meets_invariant (P := fun _ _ => True)
    (I := fun c => c.Published options ∧ c.Conserved glob json ∧ c.servers = servers)
    (fun c a c' hI _ h => ?_) ⟨⟨nofun, nofun⟩, ?_, rfl⟩ (meets_true _ _) hrun
  · obtain ⟨hp, hc, rfl⟩ := hI
    refine ⟨published_step hp h, ?_, typedStep_servers h⟩
    rcases typedStep_cases h with rfl | ⟨b, hb, -⟩
    · exact hc
    · exact conserved_step hc hb
  · exact List.Perm.refl _

lemma eq_toList_of_perm {α : Type*} {l : List α} {o : Option α} (h : l.Perm o.toList) :
    l = o.toList := by
  cases o with
  | none => exact h.eq_nil
  | some x => exact List.perm_singleton.mp h

/-- **At rest, the handler of a matching subscriber was called with what arrived at its
server and is valid.** -/
theorem called_eq {pre : String} (hglob : PatternRules glob) (hmeta : MetaFree pre)
    (hjson : json.KeepsStrings) (hjoined : ∀ bus ∈ c.servers, Joined pre bus)
    (hids : (c.servers.map (·.serverId)).Nodup) (hpub : c.Published options)
    (hcons : c.Conserved glob json) (hquiet : c.Quiescent) {n : ℕ} {p : Publication D}
    (hp : c.published[n]? = some p) {j : ℕ} {bus : MemoryEventBus}
    (hbus : c.servers[j]? = some bus) {sub : Subscription} (hsub : sub ∈ bus.subscriptions)
    (hmatch : sub.matcher.test p.event.type = true) :
    c.called options n j sub.id = ((arriving json p j).bind options.receive).toList := by
  obtain ⟨home, hhome, hserver⟩ := hpub.home p (List.mem_of_getElem? hp)
  have hdue : c.due glob json = c.handed := by
    rw [due, hquiet.1, hquiet.2, List.flatMap_nil, List.flatMap_nil, List.append_nil,
      List.append_nil]
  -- all that was handed to the subscriber comes from this publication
  have hsource : (c.published.zipIdx.flatMap fun e => c.outcome glob json e.1 e.2).filter
      (isHanding n j sub.id) = (c.outcome glob json p n).filter (isHanding n j sub.id) := by
    rw [List.filter_flatMap]
    refine List.flatMap_eq_of_forall (x := (p, n)) ?_ (List.mem_zipIdx_iff_getElem?.mpr hp) ?_
    · refine List.Nodup.of_map Prod.snd ?_
      rw [List.zipIdx_map_snd]
      exact List.nodup_range'
    · rintro ⟨q, m⟩ hq hne
      have hq : c.published[m]? = some q := List.mem_zipIdx_iff_getElem?.mp hq
      obtain ⟨_, hhome, _⟩ := hpub.home q (List.mem_of_getElem? hq)
      refine filter_outcome_of_ne hglob hmeta hjoined (fun he => hne ?_) _ _
        (List.getElem?_eq_some_iff.mp hhome).1
      subst he
      rw [Option.some.inj (hp.symm.trans hq)]
  have hperm : c.handed.Perm (c.published.zipIdx.flatMap fun e => c.outcome glob json e.1 e.2) := by
    rw [← hdue]
    exact hcons
  have hhanded := hperm.filter (isHanding n j sub.id)
  rw [hsource, filter_outcome hglob hmeta hjoined hids hjson n hhome hserver hbus hsub
    hmatch] at hhanded
  change (c.handed.filter (isHanding n j sub.id)).filterMap (fun h => options.receive h.event) = _
  rw [eq_toList_of_perm hhanded]
  cases arriving json p j with
  | none => rfl
  | some event =>
      rw [Option.map_some, Option.bind_some]
      change [_].filterMap _ = _
      rw [List.filterMap_cons]
      dsimp only
      cases options.receive event <;> rfl

/-- **Typed events arrive as published exactly where the route keeps them.**  Each
publication has valid data; and once nothing waits and nothing is in flight, the handler of
a matching subscriber was called for it, once and with these data, if and only if the route
to its server keeps them. -/
theorem called_iff_keeps {pre : String} (hglob : PatternRules glob) (hmeta : MetaFree pre)
    (hjson : json.KeepsStrings) {servers : List MemoryEventBus}
    (hjoined : ∀ bus ∈ servers, Joined pre bus) (hids : (servers.map (·.serverId)).Nodup)
    {as : List (Action D)} (hrun : exec (typedStep glob json options) { servers } as = some c)
    (hquiet : c.Quiescent) {n : ℕ} {p : Publication D} (hp : c.published[n]? = some p) :
    (∃ data, options.validateEvent p.event.type data = .ok p.event.data) ∧
    ∀ j bus, servers[j]? = some bus → ∀ sub ∈ bus.subscriptions,
      sub.matcher.test p.event.type = true →
        ((c.called options n j sub.id).map (·.data) = [p.event.data] ↔
          Keeps json options p j) := by
  obtain ⟨hpub, hcons, rfl⟩ := published_conserved_of_run hrun
  refine ⟨hpub.valid p (List.mem_of_getElem? hp), fun j bus hbus sub hsub hmatch => ?_⟩
  rw [called_eq hglob hmeta hjson hjoined hids hpub hcons hquiet hp hbus hsub hmatch]
  -- the type is the published one, so that the same schema is looked up
  have htype : ∀ event, arriving json p j = some event → event.type = p.event.type := by
    intro event hevent
    rw [arriving] at hevent
    split at hevent
    · rw [← Option.some.inj hevent]
    · exact (BlaizeEvent.travelled_eq_some hjson hevent).1
  rw [Keeps]
  cases harr : arriving json p j with
  | none => simp
  | some event =>
      simp only [Option.bind_some, Option.some.injEq, exists_eq_left',
        TypedEventBusOptions.receive, htype event harr]
      cases options.validateEvent p.event.type event.data with
      | error message => simp
      | ok data => simp

/-- The schema of every event makes a number of the string `5`, and takes that number. -/
def coercingEvents : TypedEventBusOptions Unit where
  schemas _ := some fun data =>
    if data = some (.string "5") ∨ data = some (.number 5) then some (some (.number 5)) else none

/-- An event with the number. -/
def countedEvent : BlaizeEvent Unit := ⟨"user:created", some (.number 5), 0, "server-1", none⟩

/-- Its text. -/
def countedText : String :=
  "\x7b\"type\":\"user:created\",\"data\":5,\"timestamp\":0,\"serverId\":\"server-1\"\x7d"

/-- `JSON` on this event. -/
def countedJson : Json Unit where
  stringify fields := if fields = countedEvent.fields then some countedText else none
  parse text := if text = countedText then some countedEvent.fields else none

lemma countedJson_keepsStrings : countedJson.KeepsStrings where
  find {fields fields' payload key text} hs hp hfind := by
    simp only [countedJson, Option.ite_none_right_eq_some, Option.some.injEq] at hs hp
    rw [← hp.2, ← hs.1]
    exact hfind

/-- The string is published, and both servers hear of the number. -/
theorem called_iff_keeps_twoServers :
    ∃ c, exec (typedStep plainGlob countedJson coercingEvents) { servers := demoServers }
        [.publish 0 "user:created" (some (.string "5")) 0 none, .settle 0, .deliver 0,
          .deliver 0] = some c ∧
      (c.called coercingEvents 0 1 0).map (·.data) = [some (.number 5)] := by
  have hrun : (exec (typedStep plainGlob countedJson coercingEvents) { servers := demoServers }
      [.publish 0 "user:created" (some (.string "5")) 0 none, .settle 0, .deliver 0,
        .deliver 0]).any (fun c => decide (c.Quiescent ∧
          c.published[0]? = some ⟨0, countedEvent⟩)) = true := by
    decide +kernel
  obtain ⟨c, hc, hq⟩ := (Option.any_eq_true _ _).mp hrun
  obtain ⟨hquiet, hp⟩ := of_decide_eq_true hq
  have hiff := (called_iff_keeps plainRules (by decide) countedJson_keepsStrings
    joined_demoServers (by decide) hc hquiet hp).2 1 _ rfl ⟨0, "*", _⟩ List.mem_cons_self
    (by decide +kernel)
  refine ⟨c, hc, hiff.mpr ⟨countedEvent, ?_, by decide⟩⟩
  decide +kernel

/-- The schema of every event reads the string `5` as the number 5, and nothing else. -/
def countEvents : TypedEventBusOptions Unit where
  schemas _ := some fun data => if data = some (.string "5") then some (some (.number 5)) else none

theorem not_called :
    ¬ ∀ (options : TypedEventBusOptions Unit) (servers : List MemoryEventBus)
      (as : List (Action Unit)) (c : Cluster Unit),
      (∀ bus ∈ servers, Joined "blaize:events" bus) → (servers.map (·.serverId)).Nodup →
      exec (typedStep plainGlob plainJson options) { servers } as = some c → c.Quiescent →
      ∀ n p, c.published[n]? = some p → ∀ j bus, servers[j]? = some bus →
        ∀ sub ∈ bus.subscriptions, sub.matcher.test p.event.type = true →
          (c.called options n j sub.id).map (·.data) = [p.event.data] := by
  intro h
  have hrun : (exec (typedStep plainGlob plainJson countEvents)
      { servers := [demoBus "server-1" ["user:*"]] }
      [.publish 0 "user:created" (some (.string "5")) 0 none, .settle 0]).any (fun c =>
        decide (c.Quiescent ∧ c.called countEvents 0 0 0 = [] ∧
          c.published[0]? =
            some ⟨0, ⟨"user:created", some (.number 5), 0, "server-1", none⟩⟩)) = true := by
    decide +kernel
  obtain ⟨c, hc, hq⟩ := (Option.any_eq_true _ _).mp hrun
  obtain ⟨hquiet, hnone, hp⟩ := of_decide_eq_true hq
  have hjoined : ∀ bus ∈ [demoBus "server-1" ["user:*"]], Joined "blaize:events" bus := by
    intro bus hbus
    obtain rfl := List.mem_singleton.mp hbus
    exact ⟨some "server-1", "", "*:0:x", ["user:*"], rfl⟩
  have hcalled := h countEvents _ _ c hjoined (by decide) hc hquiet 0 _ hp 0 _ rfl
    ⟨0, "user:*", _⟩ (List.mem_singleton_self _) (by decide +kernel)
  rw [hnone] at hcalled
  cases hcalled

end Cluster

end Blaize.Events
