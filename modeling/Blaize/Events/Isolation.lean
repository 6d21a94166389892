import Mathlib.Data.List.Infix
import Blaize.Events.RedisAdapter

/-!
Do the channel prefixes of `RedisEventBusAdapter` keep two clusters on one Redis apart?

Prefix, separator and event type are joined to one text, and so are prefix, separator and
pattern.  A prefix that goes on after another one and a `:` makes the same channels as event
types that start with the difference.

* `Isolated`: no event of the first adapter reaches a handler of the second;
* `Nested`: one prefix with its separator starts with the other one;
* `isolated_iff_not_nested`: **two prefixes isolate exactly when they are not nested**.
-/

namespace Blaize.Events

open RedisEventBusAdapter

variable {D H : Type} (glob : String → String → Bool) (json : Json D)

/-- **No event that is published with one prefix reaches a handler of an adapter with another
one**: whatever was called on both before, on the first to publish and on the second to
receive, and on the second until it handles the message. -/
def Isolated (H : Type) (first second : String) : Prop :=
  ∀ (cs₁ cs₂ cs : List (Call H)) (event : BlaizeEvent D) (channel payload : String),
    event.Representable json →
    (calls { channelPrefix := first } cs₁).publish json event = .ok (channel, payload) →
    ∀ pattern ∈ (calls { channelPrefix := second } cs₂).received glob channel,
      (calls { channelPrefix := second } (cs₂ ++ cs)).handleMessage json pattern channel
        payload = []

/-- One prefix, with its separator, starts with the other. -/
def Nested (first second : String) : Prop :=
  (first ++ ":").toList <+: (second ++ ":").toList ∨
    (second ++ ":").toList <+: (first ++ ":").toList

instance (first second : String) : Decidable (Nested first second) :=
  inferInstanceAs (Decidable ((first ++ ":").toList <+: (second ++ ":").toList ∨
    (second ++ ":").toList <+: (first ++ ":").toList))

variable {glob json}

/-! ### Prefixes that are not nested -/

/-- A pattern of the second adapter that matches a channel of the first makes the prefixes
nested: both are at the start of the channel. -/
lemma nested_of_received (hglob : PatternRules glob) {first second : String}
    (hmeta : MetaFree second) {adapter : RedisEventBusAdapter H}
    (hpre : Prefixed second adapter) {eventType pattern : String}
    (h : pattern ∈ adapter.received glob (first ++ ":" ++ eventType)) :
    Nested first second := by
  rw [received] at h
  split at h
  · obtain ⟨hmem, hmatch⟩ := List.mem_filter.mp h
    obtain ⟨eventPattern, rfl⟩ := hpre.psubscribed pattern hmem
    have hsecond := hglob.literal (metaFree_colon hmeta) hmatch
    have hfirst : (first ++ ":").toList <+: (first ++ ":" ++ eventType).toList :=
      ⟨eventType.toList, (toList_channel first eventType).symm⟩
    exact List.prefix_or_prefix_of_prefix hfirst hsecond
  · cases h

/-! ### Nested prefixes -/

/-- An adapter that is connected and subscribed to all events. -/
def subscribeToAll (handler : H) : List (Call H) := [.connect, .subscribe "" "*" handler]

lemma calls_subscribeToAll (pre : String) (handler : H) :
    calls { channelPrefix := pre } (subscribeToAll handler) = listeningToAll pre "" handler := by
  rw [calls, subscribeToAll, List.foldl_cons, List.foldl_cons, List.foldl_nil, call, call,
    connect_subscribe_star]

/-- With the prefix at its start, a channel is received and its event is handed over. -/
lemma handed_of_prefix (hglob : PatternRules glob) {pre : String} (hmeta : MetaFree pre)
    (handler : H) {event : BlaizeEvent D} {payload channel : String}
    (hjson : BlaizeEvent.deserializeEvent json payload = some event)
    (hchannel : (pre ++ ":").toList <+: channel.toList) :
    pre ++ ":" ++ "*" ∈
        (calls { channelPrefix := pre } (subscribeToAll handler)).received glob channel ∧
      (calls { channelPrefix := pre } (subscribeToAll handler)).handleMessage json
        (pre ++ ":" ++ "*") channel payload = [(handler, event)] := by
  obtain ⟨rest, hrest⟩ := hchannel
  obtain rfl : channel = pre ++ ":" ++ String.ofList rest := by
    rw [← String.toList_inj, ← hrest, toList_channel, String.toList_ofList]
  rw [calls_subscribeToAll, received_listeningToAll hglob hmeta]
  exact ⟨List.mem_singleton_self _, handleMessage_listeningToAll handler hjson⟩

/-- **Two prefixes isolate exactly when they are not nested**; among the events some are
representable for every type. -/
theorem isolated_iff_not_nested [Inhabited H] (hglob : PatternRules glob)
    (hjson : ∀ type, ∃ event : BlaizeEvent D, event.type = type ∧ event.Representable json)
    {first second : String} (hsecond : MetaFree second) :
    Isolated glob json H first second ↔ ¬ Nested first second := by
  constructor
  · intro hiso hnested
    -- an event whose channel starts with both prefixes
    obtain ⟨type, htype⟩ : ∃ type : String,
        (second ++ ":").toList <+: (first ++ ":" ++ type).toList := by
      rcases hnested with ⟨rest, hrest⟩ | h
      · refine ⟨String.ofList rest, ?_⟩
        rw [toList_channel, String.toList_ofList, hrest]
      · refine ⟨"", ?_⟩
        rw [toList_channel]
        exact h.trans (List.prefix_append _ _)
    obtain ⟨event, rfl, hrep⟩ := hjson type
    obtain ⟨payload, hser, hde⟩ := hrep.deserializeEvent
    have hpublish : (calls { channelPrefix := first } [.connect (H := H)]).publish json event =
        .ok (first ++ ":" ++ event.type, payload) := by
      simp [calls, call, connect, publish, hser, buildChannelName, OrdMap.values,
        OrdMap.empty, EmptyCollection.emptyCollection]
    obtain ⟨hreceived, hhandled⟩ :=
      handed_of_prefix hglob hsecond (default : H) hde htype
    have hnil := hiso [.connect] (subscribeToAll default) [] event _ _ hrep hpublish _ hreceived
    rw [List.append_nil, hhandled] at hnil
    cases hnil
  · rintro hnested cs₁ cs₂ cs event channel payload - hpublish pattern hpattern
    obtain ⟨rfl, -⟩ := publish_eq_ok hpublish
    rw [(calls_prefixed (prefixed_new first) cs₁).channelPrefix] at hpattern
    exact absurd (nested_of_received hglob hsecond (calls_prefixed (prefixed_new second) cs₂)
      hpattern) hnested

/-- The prefixes `a` and `b` isolate. -/
theorem isolated_a_b :
    Isolated plainGlob plainJson ℕ "a" "b" :=
  (isolated_iff_not_nested plainRules plainJson_representable (by decide)).mpr (by decide)

/-- An event of type `b:x` on the prefix `a` has the channel of an event of type `x` on the
prefix `a:b`. -/
theorem not_isolated_nested :
    ¬ ∀ first second : String, first ≠ second → first ≠ "" → second ≠ "" → MetaFree first →
      MetaFree second → Isolated plainGlob plainJson ℕ first second := by
  intro h
  have hiso := h "a" "a:b" (by decide) (by decide) (by decide) (by decide) (by decide)
  have hrep : (BlaizeEvent.mk "b:x" none 0 "server-1" none).Representable plainJson :=
    plainJson_event "b:x" "server-1"
  obtain ⟨payload, hser, hde⟩ := hrep.deserializeEvent
  obtain ⟨hreceived, hhandled⟩ := handed_of_prefix plainRules (by decide : MetaFree "a:b")
    0 hde (by decide : ("a:b" ++ ":").toList <+: "a:b:x".toList)
  have hpublish : (calls { channelPrefix := "a" } [Call.connect (H := ℕ)]).publish plainJson
      (BlaizeEvent.mk "b:x" none 0 "server-1" none) = .ok ("a:b:x", payload) := by
    simp [calls, call, connect, publish, hser, buildChannelName, OrdMap.values,
      OrdMap.empty, EmptyCollection.emptyCollection]
  have hnil := hiso [.connect] (subscribeToAll 0) [] _ _ _ hrep hpublish _ hreceived
  rw [List.append_nil, hhandled] at hnil
  cases hnil

end Blaize.Events
