import Mathlib.Data.Rat.Defs
import Blaize.Lib.Glob
import Blaize.Lib.OrdMap

/-!
`RedisEventBusAdapter` (adapters/redis/src/event-bus-adapter.ts): events over Redis pub/sub.

* `BlaizeEvent`, `serializeEvent`, `deserializeEvent`: an event and its JSON; `JSON` itself
  is a parameter, and an event is `Representable` if it comes back as it was;
* `PatternRules`: what is used of the glob patterns of `PSUBSCRIBE`, which are a parameter too;
* `RedisEventBusAdapter` with `connect`, `disconnect`, `subscribe`, `unsubscribe`, `publish`
  and `handleMessage`;
* `listeningToAll`: the adapter with one handler for all events, as the bus uses it;
* `Call`, `calls`: an adapter after a sequence of calls;
* `calls_prefixed`: **whatever is called, the connection is subscribed to patterns with the
  channel prefix only**.
-/

namespace Blaize.Events

open OrdMap

/-! ### Events and their JSON -/

/-- A value in JSON, as far as `typeof` tells it apart. -/
inductive JsonValue (D : Type) where
  | string (text : String)
  | number (n : ℚ)
  | other (value : D)
  deriving DecidableEq, Repr

/-- An event; a field that is undefined is `none`. -/
structure BlaizeEvent (D : Type) where
  type : String
  data : Option (JsonValue D)
  timestamp : ℚ
  serverId : String
  correlationId : Option (JsonValue D)
  deriving DecidableEq, Repr

/-- `JSON` on objects, as the list of their defined fields.  Both may throw, and `parse`
gives `none` for a text that is no object as well, since the fields of such a value are
undefined. -/
structure Json (D : Type) where
  stringify : List (String × JsonValue D) → Option String
  parse : String → Option (List (String × JsonValue D))

namespace BlaizeEvent

variable {D : Type} (json : Json D)

/-- The defined fields of an event, in the order of `publish`. -/
def fields (event : BlaizeEvent D) : List (String × JsonValue D) :=
  [some ("type", JsonValue.string event.type),
    event.data.map fun data => ("data", data),
    some ("timestamp", .number event.timestamp),
    some ("serverId", .string event.serverId),
    event.correlationId.map fun correlationId => ("correlationId", correlationId)].reduceOption

/-- The text that is published for an event. -/
def serializeEvent (event : BlaizeEvent D) : Option String := json.stringify event.fields

/-- The event of a text that was received. -/
def deserializeEvent (payload : String) : Option (BlaizeEvent D) :=
  match json.parse payload with
  | none => none
  | some fields =>
      match find "type" fields, find "timestamp" fields, find "serverId" fields with
      | some (.string type), some (.number timestamp), some (.string serverId) =>
          some
            { type
              data := find "data" fields
              timestamp
              serverId
              correlationId := find "correlationId" fields }
      | _, _, _ => none

/-- `JSON.parse` gives back the event that `JSON.stringify` was given. -/
def Representable (event : BlaizeEvent D) : Prop :=
  ∃ payload, json.stringify event.fields = some payload ∧
    json.parse payload = some event.fields

variable {json}

lemma deserializeEvent_of_parse {event : BlaizeEvent D} {payload : String}
    (h : json.parse payload = some event.fields) :
    deserializeEvent json payload = some event := by
  obtain ⟨type, data, timestamp, serverId, correlationId⟩ := event
  rw [deserializeEvent, h]
  have hdefined (fields : List (Option (String × JsonValue D))) :
      fields.reduceOption = fields.filterMap id := rfl
  cases data <;> cases correlationId <;> simp [fields, find, hdefined]

/-- **A representable event survives its JSON.** -/
theorem Representable.deserializeEvent {event : BlaizeEvent D}
    (h : event.Representable json) :
    ∃ payload, serializeEvent json event = some payload ∧
      deserializeEvent json payload = some event := by
  obtain ⟨payload, hs, hp⟩ := h
  exact ⟨payload, hs, deserializeEvent_of_parse hp⟩

end BlaizeEvent

/-! ### The JSON of plain events -/

/-- The text of a string in JSON, up to control characters. -/
def quoted (text : List Char) : List Char :=
  text.flatMap fun c => if c = '"' ∨ c = '\\' then ['\\', c] else [c]

/-- Reads a string up to its closing quote. -/
def unquote : List Char → Option (List Char × List Char)
  | [] => none
  | c :: text =>
      if c = '"' then some ([], text)
      else if c = '\\' then
        match text with
        | [] => none
        | c' :: text => (unquote text).map fun (s, rest) => (c' :: s, rest)
      else (unquote text).map fun (s, rest) => (c :: s, rest)

lemma unquote_quoted (text rest : List Char) :
    unquote (quoted text ++ '"' :: rest) = some (text, rest) := by
  induction text with
  | nil =>
      rw [quoted, List.flatMap_nil, List.nil_append, unquote.eq_def]
      rfl
  | cons c text ih =>
      have hcons : quoted (c :: text) =
          (if c = '"' ∨ c = '\\' then ['\\', c] else [c]) ++ quoted text := rfl
      rw [hcons]
      split
      · simp [unquote, ih]
      next h =>
          rw [not_or] at h
          rw [unquote.eq_def]
          simp [h.1, h.2, ih]

/-- What stands behind a prefix. -/
def stripPrefix (pre text : List Char) : Option (List Char) :=
  if pre.isPrefixOf text then some (text.drop pre.length) else none

lemma stripPrefix_append (pre text : List Char) : stripPrefix pre (pre ++ text) = some text := by
  rw [stripPrefix, if_pos (List.isPrefixOf_iff_prefix.mpr (List.prefix_append pre text)),
    List.drop_left]

/-- `JSON` on the events without data that were made at the time 0. -/
def plainJson : Json Unit where
  stringify
    | [("type", .string type), ("timestamp", .number 0), ("serverId", .string serverId)] =>
        some (String.ofList ("\x7b\"type\":\"".toList ++ (quoted type.toList ++
          '"' :: (",\"timestamp\":0,\"serverId\":\"".toList ++
            (quoted serverId.toList ++ '"' :: ['\x7d'])))))
    | _ => none
  parse text := do
    let text ← stripPrefix "\x7b\"type\":\"".toList text.toList
    let (type, text) ← unquote text
    let text ← stripPrefix ",\"timestamp\":0,\"serverId\":\"".toList text
    let (serverId, _) ← unquote text
    return [("type", .string (String.ofList type)), ("timestamp", .number 0),
      ("serverId", .string (String.ofList serverId))]

lemma plainJson_event (type serverId : String) :
    (BlaizeEvent.mk type none 0 serverId none).Representable plainJson := by
  refine ⟨_, rfl, ?_⟩
  simp only [plainJson, String.toList_ofList, stripPrefix_append, unquote_quoted,
    Option.bind_eq_bind, Option.bind_some, String.ofList_toList, Option.pure_def]
  rfl

lemma plainJson_representable (type : String) :
    ∃ event : BlaizeEvent Unit, event.type = type ∧ event.Representable plainJson :=
  ⟨⟨type, none, 0, "server-1", none⟩, rfl, plainJson_event type "server-1"⟩

/-! ### The patterns of Redis -/

/-- No character of the text has a meaning in a glob pattern of Redis. -/
def MetaFree (text : String) : Prop := ∀ c ∈ text.toList, c ∉ ['*', '?', '[', '\\']

instance (text : String) : Decidable (MetaFree text) :=
  inferInstanceAs (Decidable (∀ c ∈ text.toList, c ∉ ['*', '?', '[', '\\']))

/-- What Redis documents of its glob patterns: other characters stand for themselves, and a
`*` matches everything. -/
structure PatternRules (glob : String → String → Bool) : Prop where
  literal : ∀ {text pattern channel : String}, MetaFree text →
    glob (text ++ pattern) channel = true → text.toList <+: channel.toList
  star : ∀ {text : String} (rest : String), MetaFree text →
    glob (text ++ "*") (text ++ rest) = true

/-- The patterns of Redis without classes and escapes. -/
def plainGlob (pattern channel : String) : Bool :=
  Glob.test (pattern.toList.map plainPiece) channel.toList
where
  plainPiece (c : Char) : Glob.Piece Char :=
    if c = '*' then .run fun _ => true
    else if c = '?' then .one fun _ => true
    else .one fun x => decide (x = c)

lemma map_plainPiece_of_metaFree {text : String} (h : MetaFree text) :
    text.toList.map plainGlob.plainPiece = Glob.literal text.toList := by
  refine List.map_congr_left fun c hc => ?_
  have hmeta := h c hc
  simp only [List.mem_cons, not_or] at hmeta
  rw [plainGlob.plainPiece, if_neg hmeta.1, if_neg hmeta.2.1]

theorem plainRules : PatternRules plainGlob where
  literal := by
    intro text pattern channel hmeta h
    rw [plainGlob, Glob.test_iff_matches, String.toList_append, List.map_append,
      map_plainPiece_of_metaFree hmeta, Glob.matches_literal_append_iff] at h
    obtain ⟨rest, hrest, -⟩ := h
    exact ⟨rest, hrest.symm⟩
  star := by
    intro text rest hmeta
    rw [plainGlob, Glob.test_iff_matches, String.toList_append, List.map_append,
      map_plainPiece_of_metaFree hmeta, Glob.matches_literal_append_iff]
    refine ⟨rest.toList, String.toList_append, ?_⟩
    have hrun : Glob.Matches [.run fun _ => true] (rest.toList ++ []) :=
      .run (fun _ _ => rfl) .nil
    rwa [List.append_nil] at hrun

/-! ### The adapter -/

/-- A subscription with the pattern that was sent to Redis. -/
structure SubscriptionEntry (H : Type) where
  pattern : String
  handler : H
  redisPattern : String
  deriving DecidableEq, Repr

/-- The adapter with handlers of type `H`, and with the state of its subscriber connection:
whether its listener for `pmessage` is attached, and the patterns of `PSUBSCRIBE`. -/
structure RedisEventBusAdapter (H : Type) where
  channelPrefix : String := "blaize:events"
  isConnected : Bool := false
  subscriptions : OrdMap String (SubscriptionEntry H) := ∅
  listening : Bool := false
  psubscribed : List String := []

namespace RedisEventBusAdapter

variable {H D : Type} (adapter : RedisEventBusAdapter H)

/-- The channel of a type of events. -/
def buildChannelName (eventType : String) : String := adapter.channelPrefix ++ ":" ++ eventType

/-- The pattern of the channels of a subscription. -/
def buildRedisPattern (pattern : String) : String := adapter.channelPrefix ++ ":" ++ pattern

/-- The type of the events of a channel. -/
def extractEventType (channel : String) : String :=
  let pre := adapter.channelPrefix ++ ":"
  if pre.toList.isPrefixOf channel.toList then
    String.ofList (channel.toList.drop pre.toList.length)
  else
    channel

/-- Whether a type of events is asked for. -/
def patternMatches (pattern eventType : String) : Bool :=
  if pattern = "*" then
    true
  else if ":*".toList.isSuffixOf pattern.toList then
    let pre := pattern.toList.take (pattern.toList.length - 2)
    (pre ++ [':']).isPrefixOf eventType.toList || eventType.toList = pre
  else
    pattern = eventType

/-- `PSUBSCRIBE` on the subscriber connection, which keeps a set of patterns. -/
def psubscribe (redisPattern : String) : RedisEventBusAdapter H :=
  if redisPattern ∈ adapter.psubscribed then adapter
  else { adapter with psubscribed := adapter.psubscribed ++ [redisPattern] }

/-- A pattern is given up. -/
def punsubscribe (redisPattern : String) : RedisEventBusAdapter H :=
  { adapter with psubscribed := adapter.psubscribed.filter (· ≠ redisPattern) }

/-- `adapter.connect()` -/
def connect : RedisEventBusAdapter H :=
  if adapter.isConnected then
    adapter
  else
    -- the subscriptions of an earlier connection are restored
    let restored := (adapter.subscriptions.values.map (·.redisPattern)).foldl psubscribe
      { adapter with listening := true }
    { restored with isConnected := true }

/-- `adapter.disconnect()` -/
def disconnect : RedisEventBusAdapter H :=
  if ! adapter.isConnected then
    adapter
  else
    let unsubscribed := (adapter.subscriptions.values.map (·.redisPattern)).foldl punsubscribe
      { adapter with listening := false }
    { unsubscribed with isConnected := false }

/-- The subscriptions of the adapter with a Redis pattern. -/
def withPattern (redisPattern : String) : List (SubscriptionEntry H) :=
  adapter.subscriptions.values.filter (·.redisPattern = redisPattern)

/-- The id is made from the time and from a random number. -/
def subscribe (subscriptionId pattern : String) (handler : H) :
    Except String (RedisEventBusAdapter H) :=
  if ! adapter.isConnected then
    .error "Adapter not connected. Call connect() first."
  else
    let redisPattern := adapter.buildRedisPattern pattern
    let stored := { adapter with
      subscriptions := adapter.subscriptions.set subscriptionId ⟨pattern, handler, redisPattern⟩ }
    let isNewPattern := (stored.withPattern redisPattern).length = 1
    .ok (if isNewPattern then stored.psubscribe redisPattern else stored)

/-- The function that `subscribe` returns. -/
def unsubscribe (subscriptionId pattern : String) : RedisEventBusAdapter H :=
  let redisPattern := adapter.buildRedisPattern pattern
  let removed := { adapter with subscriptions := adapter.subscriptions.delete subscriptionId }
  if (removed.withPattern redisPattern).length = 0 then removed.punsubscribe redisPattern
  else removed

/-- The channel and the payload that `publish` hands to Redis while the circuit is closed. -/
def publish (json : Json D) (event : BlaizeEvent D) : Except String (String × String) :=
  if ! adapter.isConnected then
    .error "Adapter not connected. Call connect() first."
  else
    match event.serializeEvent json with
    | none => .error "Failed to serialize event"
    | some payload => .ok (adapter.buildChannelName event.type, payload)

/-- The handlers that a `pmessage` invokes, with the event that they get. -/
def handleMessage (json : Json D) (pattern channel message : String) :
    List (H × BlaizeEvent D) :=
  match BlaizeEvent.deserializeEvent json message with
  | none => []
  | some event =>
      let eventType := adapter.extractEventType channel
      let matchingSubscriptions := adapter.subscriptions.values.filter fun sub =>
        sub.redisPattern = pattern && patternMatches sub.pattern eventType
      matchingSubscriptions.map fun sub => (sub.handler, event)

/-- The messages that Redis sends for a channel: one for each pattern that matches it. -/
def received (glob : String → String → Bool) (channel : String) : List String :=
  if adapter.listening then adapter.psubscribed.filter (glob · channel) else []

/-! ### An adapter that listens to all events -/

/-- The adapter after `connect` and the subscription of one handler to `*`. -/
def listeningToAll (pre subscriptionId : String) (handler : H) : RedisEventBusAdapter H where
  channelPrefix := pre
  isConnected := true
  subscriptions := OrdMap.empty.set subscriptionId ⟨"*", handler, pre ++ ":" ++ "*"⟩
  listening := true
  psubscribed := [pre ++ ":" ++ "*"]

lemma connect_subscribe_star (pre subscriptionId : String) (handler : H) :
    ({ channelPrefix := pre } : RedisEventBusAdapter H).connect.subscribe subscriptionId "*"
      handler = .ok (listeningToAll pre subscriptionId handler) := by
  simp [connect, subscribe, buildRedisPattern, withPattern, psubscribe, listeningToAll, values,
    OrdMap.set, put, empty, EmptyCollection.emptyCollection]

lemma metaFree_colon {pre : String} (h : MetaFree pre) : MetaFree (pre ++ ":") := by
  intro c hc
  rw [String.toList_append, List.mem_append] at hc
  rcases hc with hc | hc
  · exact h c hc
  · obtain rfl : c = ':' := by simpa using hc
    decide

lemma toList_channel (pre eventType : String) :
    (pre ++ ":" ++ eventType).toList = (pre ++ ":").toList ++ eventType.toList :=
  String.toList_append

lemma publish_eq_ok {adapter : RedisEventBusAdapter H} {json : Json D} {event : BlaizeEvent D}
    {channel payload : String} (h : adapter.publish json event = .ok (channel, payload)) :
    channel = adapter.channelPrefix ++ ":" ++ event.type ∧
      event.serializeEvent json = some payload := by
  rw [RedisEventBusAdapter.publish] at h
  split at h
  · cases h
  · split at h
    · cases h
    next hs =>
        obtain ⟨rfl, rfl⟩ := Prod.mk.inj (Except.ok.inj h)
        exact ⟨rfl, hs⟩

lemma received_listeningToAll {glob : String → String → Bool} (hglob : PatternRules glob)
    {pre : String} (hmeta : MetaFree pre) (subscriptionId eventType : String) (handler : H) :
    (listeningToAll pre subscriptionId handler).received glob (pre ++ ":" ++ eventType) =
      [pre ++ ":" ++ "*"] := by
  rw [received, listeningToAll, if_pos rfl]
  exact List.filter_eq_self.mpr fun r hr => by
    obtain rfl := List.mem_singleton.mp hr
    exact hglob.star eventType (metaFree_colon hmeta)

lemma handleMessage_listeningToAll {json : Json D} {pre subscriptionId channel payload : String}
    (handler : H) {event : BlaizeEvent D}
    (hjson : BlaizeEvent.deserializeEvent json payload = some event) :
    (listeningToAll pre subscriptionId handler).handleMessage json (pre ++ ":" ++ "*") channel
      payload = [(handler, event)] := by
  rw [handleMessage, hjson]
  simp [listeningToAll, values, OrdMap.set, put, empty, patternMatches]

/-! ### Sequences of calls -/

/-- A call on the adapter, or of a function that `subscribe` has returned. -/
inductive Call (H : Type) where
  | connect
  | disconnect
  | subscribe (subscriptionId pattern : String) (handler : H)
  | unsubscribe (subscriptionId pattern : String)

/-- The adapter after a call; a call that throws leaves it as it was. -/
def call : Call H → RedisEventBusAdapter H
  | .connect => adapter.connect
  | .disconnect => adapter.disconnect
  | .subscribe subscriptionId pattern handler =>
      match adapter.subscribe subscriptionId pattern handler with
      | .ok adapter' => adapter'
      | .error _ => adapter
  | .unsubscribe subscriptionId pattern => adapter.unsubscribe subscriptionId pattern

/-- One call after the other. -/
def calls (cs : List (Call H)) : RedisEventBusAdapter H := cs.foldl call adapter

/-- The prefix has not changed, and the Redis patterns of the adapter and of its connection
start with it. -/
structure Prefixed (pre : String) (adapter : RedisEventBusAdapter H) : Prop where
  channelPrefix : adapter.channelPrefix = pre
  subscriptions : ∀ sub ∈ adapter.subscriptions.values, sub.redisPattern = pre ++ ":" ++ sub.pattern
  psubscribed : ∀ redisPattern ∈ adapter.psubscribed,
    ∃ pattern, redisPattern = pre ++ ":" ++ pattern

variable {adapter} {pre : String}

namespace Prefixed

lemma psubscribe (h : Prefixed pre adapter) (pattern : String) :
    Prefixed pre (adapter.psubscribe (pre ++ ":" ++ pattern)) := by
  rw [RedisEventBusAdapter.psubscribe]
  split
  · exact h
  · refine ⟨h.channelPrefix, h.subscriptions, fun r hr => ?_⟩
    rcases List.mem_append.mp hr with hr | hr
    · exact h.psubscribed r hr
    · exact ⟨pattern, List.mem_singleton.mp hr⟩

lemma punsubscribe (h : Prefixed pre adapter) (redisPattern : String) :
    Prefixed pre (adapter.punsubscribe redisPattern) :=
  ⟨h.channelPrefix, h.subscriptions, fun r hr => h.psubscribed r (List.mem_filter.mp hr).1⟩

lemma foldl_psubscribe (h : Prefixed pre adapter) {rs : List String}
    (hrs : ∀ r ∈ rs, ∃ pattern, r = pre ++ ":" ++ pattern) :
    Prefixed pre (rs.foldl RedisEventBusAdapter.psubscribe adapter) := by
  induction rs generalizing adapter with
  | nil => exact h
  | cons r rs ih =>
      obtain ⟨pattern, rfl⟩ := hrs r List.mem_cons_self
      exact ih (h.psubscribe pattern) fun r' hr' => hrs r' (List.mem_cons_of_mem _ hr')

lemma foldl_punsubscribe (h : Prefixed pre adapter) (rs : List String) :
    Prefixed pre (rs.foldl RedisEventBusAdapter.punsubscribe adapter) := by
  induction rs generalizing adapter with
  | nil => exact h
  | cons r rs ih => exact ih (h.punsubscribe r)

lemma connect (h : Prefixed pre adapter) : Prefixed pre adapter.connect := by
  rw [RedisEventBusAdapter.connect]
  split
  · exact h
  · have hlistening : Prefixed pre { adapter with listening := true } :=
      ⟨h.channelPrefix, h.subscriptions, h.psubscribed⟩
    have hfold := hlistening.foldl_psubscribe
      fun r (hr : r ∈ adapter.subscriptions.values.map (·.redisPattern)) => by
        obtain ⟨sub, hsub, rfl⟩ := List.mem_map.mp hr
        exact ⟨sub.pattern, h.subscriptions sub hsub⟩
    exact ⟨hfold.channelPrefix, hfold.subscriptions, hfold.psubscribed⟩

lemma disconnect (h : Prefixed pre adapter) : Prefixed pre adapter.disconnect := by
  rw [RedisEventBusAdapter.disconnect]
  split
  · exact h
  · have hsilent : Prefixed pre { adapter with listening := false } :=
      ⟨h.channelPrefix, h.subscriptions, h.psubscribed⟩
    have hfold := hsilent.foldl_punsubscribe (adapter.subscriptions.values.map (·.redisPattern))
    exact ⟨hfold.channelPrefix, hfold.subscriptions, hfold.psubscribed⟩

lemma subscribe {adapter' : RedisEventBusAdapter H} {subscriptionId pattern : String}
    {handler : H} (h : Prefixed pre adapter)
    (hs : adapter.subscribe subscriptionId pattern handler = .ok adapter') :
    Prefixed pre adapter' := by
  have hbuild : adapter.buildRedisPattern pattern = pre ++ ":" ++ pattern := by
    rw [buildRedisPattern, h.channelPrefix]
  have hstored : Prefixed pre { adapter with
      subscriptions := adapter.subscriptions.set subscriptionId
        ⟨pattern, handler, pre ++ ":" ++ pattern⟩ } := by
    refine ⟨h.channelPrefix, fun sub hsub => ?_, h.psubscribed⟩
    rcases mem_values_set hsub with rfl | hsub
    · rfl
    · exact h.subscriptions sub hsub
  rw [RedisEventBusAdapter.subscribe] at hs
  split at hs
  · cases hs
  · obtain rfl := Except.ok.inj hs
    rw [hbuild]
    split
    · exact hstored.psubscribe pattern
    · exact hstored

lemma unsubscribe (h : Prefixed pre adapter) (subscriptionId pattern : String) :
    Prefixed pre (adapter.unsubscribe subscriptionId pattern) := by
  have hremoved : Prefixed pre { adapter with
      subscriptions := adapter.subscriptions.delete subscriptionId } :=
    ⟨h.channelPrefix, fun sub hsub => h.subscriptions sub (mem_values_delete hsub),
      h.psubscribed⟩
  rw [RedisEventBusAdapter.unsubscribe]
  split
  · exact hremoved.punsubscribe _
  · exact hremoved

lemma call (h : Prefixed pre adapter) (c : Call H) : Prefixed pre (adapter.call c) := by
  cases c with
  | connect => exact h.connect
  | disconnect => exact h.disconnect
  | subscribe subscriptionId pattern handler =>
      rw [RedisEventBusAdapter.call]
      split
      next adapter' hs => exact h.subscribe hs
      next => exact h
  | unsubscribe subscriptionId pattern => exact h.unsubscribe subscriptionId pattern

end Prefixed

/-- **Whatever is called, the connection is subscribed to patterns with the channel prefix
only.** -/
theorem calls_prefixed (h : Prefixed pre adapter) (cs : List (Call H)) :
    Prefixed pre (adapter.calls cs) := by
  induction cs generalizing adapter with
  | nil => exact h
  | cons c cs ih => exact ih (h.call c)

lemma prefixed_new (pre : String) :
    Prefixed pre ({ channelPrefix := pre } : RedisEventBusAdapter H) :=
  ⟨rfl, nofun, nofun⟩

end RedisEventBusAdapter

end Blaize.Events
