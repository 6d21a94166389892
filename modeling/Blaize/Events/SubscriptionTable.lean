import Blaize.Events.RedisAdapter
import Blaize.Lib.Machine

/-!
The subscriptions of the Redis adapter with its commands in flight
(`adapters/redis/src/event-bus-adapter.ts`).

The calls of the adapter may overlap at every `await`.  The commands of its subscriber
connection are served in the order in which they were issued, and a `psubscribe` may be
rejected.  The answer of a command reaches the call that waits for it at any later time.

* `step`: the calls, the server and the answers, in any order;
* `Settles`: what the commands in flight make of the patterns of the connection;
* `Careful`: the steps that the code does not guard against;
* `Inv`: at most, and once connected at least, the patterns of the table are going to be
  subscribed;
* `table_matches`: **along every careful run the patterns of the connection are those of the
  table whenever nothing is in flight, and a `subscribe` that rejects leaves the table as it
  was**.
-/

namespace Blaize.Events

open Machine RedisEventBusAdapter

variable {H : Type}

/-! ### Commands and calls -/

/-- The call that waits for a `psubscribe`. -/
inductive Caller where
  | connect (call : ℕ)
  | subscribe (call : ℕ)
  deriving DecidableEq, Repr

/-- A command of the subscriber connection; no call waits for the `punsubscribe` of an
unsubscribe function. -/
inductive Command where
  | psubscribe (caller : Caller) (redisPattern : String)
  | punsubscribe (call : Option ℕ) (redisPatterns : List String)
  deriving DecidableEq, Repr

/-- The `connect` that waits for a command. -/
def Command.restoringCall : Command → Option ℕ
  | psubscribe (.connect call) _ => some call
  | _ => none

/-- What has come of a command. -/
inductive Reply where
  | waiting
  | accepted
  | rejected
  deriving DecidableEq, Repr

/-- Where a call waits, and how it has ended.  A restoring `connect` knows the patterns behind
the one in flight. -/
inductive AdapterCall where
  | awaitingClient
  | restoring (patterns : List String) (reply : Reply)
  | connected
  | connectThrew
  | subscribing (subscriptionId redisPattern : String) (reply : Reply)
  | subscribed (subscriptionId redisPattern : String)
  | subscribeThrew (subscriptionId : Option String)
  | disconnecting (reply : Reply)
  | disconnected
  deriving DecidableEq, Repr

namespace AdapterCall

/-- A call that still runs. -/
def running : AdapterCall → Bool
  | awaitingClient => true
  | restoring _ _ => true
  | subscribing _ _ _ => true
  | disconnecting _ => true
  | _ => false

/-- The patterns that a `connect` is still going to restore. -/
def restores : AdapterCall → Option (List String)
  | restoring patterns .waiting => some patterns
  | restoring patterns .accepted => some patterns
  | _ => none

/-- The subscription that a call has made, with the pattern that it remembers. -/
def subscription : AdapterCall → Option (String × String)
  | subscribing subscriptionId redisPattern _ => some (subscriptionId, redisPattern)
  | subscribed subscriptionId redisPattern => some (subscriptionId, redisPattern)
  | _ => none

/-- A `disconnect` that still runs. -/
def disconnects : AdapterCall → Bool
  | disconnecting _ => true
  | _ => false

/-- The `psubscribe` of no `subscribe` was rejected. -/
def Unbroken : AdapterCall → Prop
  | subscribing _ _ reply => reply ≠ .rejected
  | subscribeThrew subscriptionId => subscriptionId = none
  | _ => True

/-- `connect` hears of its command. -/
def answerConnect (reply : Reply) : AdapterCall → AdapterCall
  | restoring patterns .waiting => restoring patterns reply
  | call => call

/-- `subscribe` hears of its command. -/
def answerSubscribe (reply : Reply) : AdapterCall → AdapterCall
  | subscribing subscriptionId redisPattern .waiting =>
      subscribing subscriptionId redisPattern reply
  | call => call

/-- `disconnect` hears of its command. -/
def answerDisconnect (reply : Reply) : AdapterCall → AdapterCall
  | disconnecting .waiting => disconnecting reply
  | call => call

end AdapterCall

/-- The adapter with its connection.  The identifiers of the subscriptions are made from the
time and from random numbers; `ids` are those in use so far. -/
structure Session (H : Type) where
  adapter : RedisEventBusAdapter H := {}
  commands : List Command := []
  calls : List AdapterCall := []
  ids : List String := []

/-- What can happen next. -/
inductive TableAction (H : Type) where
  | connect (clientConnected : Bool)
  | subscribe (subscriptionId pattern : String) (handler : H)
  | unsubscribe (call : ℕ)
  | disconnect
  | serve (accepts : Bool)
  | resume (call : ℕ)

namespace Session

/-- The Redis patterns of the table. -/
def patterns (s : Session H) : List String := s.adapter.subscriptions.values.map (·.redisPattern)

/-- A call begins. -/
def spawn (s : Session H) (call : AdapterCall) : Session H := { s with calls := s.calls ++ [call] }

/-- A call goes on. -/
def setCall (s : Session H) (call : ℕ) (next : AdapterCall) : Session H :=
  { s with calls := s.calls.set call next }

/-- A command is sent. -/
def issue (s : Session H) (command : Command) : Session H :=
  { s with commands := s.commands ++ [command] }

/-- The loop of `connect`: the next pattern, or the end. -/
def restoreNext (s : Session H) (call : ℕ) : List String → Session H
  | [] => { s with adapter := { s.adapter with isConnected := true } }.setCall call .connected
  | redisPattern :: rest =>
      (s.issue (.psubscribe (.connect call) redisPattern)).setCall call (.restoring rest .waiting)

/-- `connect` once the client is connected. -/
def startRestoring (s : Session H) (call : ℕ) : Session H :=
  { s with adapter := { s.adapter with listening := true } }.restoreNext call s.patterns.eraseDups

/-- `adapter.connect()`, up to its first `await`. -/
def connect (s : Session H) (clientConnected : Bool) : Session H :=
  if s.adapter.isConnected then s.spawn .connected
  else if clientConnected then (s.spawn .awaitingClient).startRestoring s.calls.length
  else s.spawn .awaitingClient

/-- `adapter.subscribe(pattern, handler)`, up to its first `await`. -/
def subscribe (s : Session H) (subscriptionId pattern : String) (handler : H) :
    Option (Session H) :=
  if subscriptionId ∈ s.ids then none
  else if ! s.adapter.isConnected then some (s.spawn (.subscribeThrew none))
  else
    let redisPattern := s.adapter.buildRedisPattern pattern
    let stored : Session H := { s with
      adapter := { s.adapter with subscriptions :=
        s.adapter.subscriptions.set subscriptionId ⟨pattern, handler, redisPattern⟩ }
      ids := s.ids ++ [subscriptionId] }
    let isNewPattern := (stored.adapter.withPattern redisPattern).length = 1
    if isNewPattern then
      some ((stored.issue (.psubscribe (.subscribe s.calls.length) redisPattern)).spawn
        (.subscribing subscriptionId redisPattern .waiting))
    else some (stored.spawn (.subscribed subscriptionId redisPattern))

/-- The function that a `subscribe` has returned. -/
def unsubscribe (s : Session H) (call : ℕ) : Option (Session H) :=
  match s.calls[call]? with
  | some (.subscribed subscriptionId redisPattern) =>
      let removed : Session H := { s with
        adapter := { s.adapter with
          subscriptions := s.adapter.subscriptions.delete subscriptionId } }
      if (removed.adapter.withPattern redisPattern).length = 0 then
        some (removed.issue (.punsubscribe none [redisPattern]))
      else some removed
  | _ => none

/-- `adapter.disconnect()`, up to its first `await`. -/
def disconnect (s : Session H) : Session H :=
  if ! s.adapter.isConnected then s.spawn .disconnected
  else
    let s : Session H := { s with adapter := { s.adapter with listening := false } }
    let redisPatterns := s.patterns.eraseDups
    if redisPatterns = [] then
      { s with adapter := { s.adapter with isConnected := false } }.spawn .disconnected
    else
      (s.issue (.punsubscribe (some s.calls.length) redisPatterns)).spawn (.disconnecting .waiting)

/-- The server takes the next command. -/
def serve (s : Session H) (accepts : Bool) : Option (Session H) :=
  match s.commands with
  | [] => none
  | .psubscribe caller redisPattern :: commands =>
      let adapter := if accepts then s.adapter.psubscribe redisPattern else s.adapter
      let reply : Reply := if accepts then .accepted else .rejected
      match caller with
      | .connect call =>
          some { s with adapter, commands, calls := s.calls.modify call (.answerConnect reply) }
      | .subscribe call =>
          some { s with adapter, commands, calls := s.calls.modify call (.answerSubscribe reply) }
  | .punsubscribe caller redisPatterns :: commands =>
      let adapter := redisPatterns.foldl punsubscribe s.adapter
      match accepts, caller with
      | false, _ => none
      | true, none => some { s with adapter, commands }
      | true, some call =>
          some { s with
            adapter
            commands
            calls := s.calls.modify call (.answerDisconnect .accepted) }

/-- A call goes on behind its `await`. -/
def resume (s : Session H) (call : ℕ) : Option (Session H) :=
  match s.calls[call]? with
  | some .awaitingClient => some (s.startRestoring call)
  | some (.restoring patterns .accepted) => some (s.restoreNext call patterns)
  | some (.restoring _ .rejected) => some (s.setCall call .connectThrew)
  | some (.subscribing subscriptionId redisPattern .accepted) =>
      some (s.setCall call (.subscribed subscriptionId redisPattern))
  | some (.subscribing subscriptionId _ .rejected) =>
      some (s.setCall call (.subscribeThrew (some subscriptionId)))
  | some (.disconnecting .accepted) =>
      some ({ s with adapter := { s.adapter with isConnected := false } }.setCall call
        .disconnected)
  | _ => none

/-- What an action does; `none`: it cannot happen. -/
def step (s : Session H) : TableAction H → Option (Session H)
  | .connect clientConnected => some (s.connect clientConnected)
  | .subscribe subscriptionId pattern handler => s.subscribe subscriptionId pattern handler
  | .unsubscribe call => s.unsubscribe call
  | .disconnect => some s.disconnect
  | .serve accepts => s.serve accepts
  | .resume call => s.resume call

/-- What the code does not guard against: the `psubscribe` of a `subscribe` is rejected, the
last subscription of a pattern goes while a `connect` is still going to restore the pattern,
and `disconnect` is called while another `connect` still restores. -/
def Careful (s : Session H) : TableAction H → Prop
  | .serve false => ∀ call redisPattern,
      s.commands.head? ≠ some (.psubscribe (.subscribe call) redisPattern)
  | .unsubscribe call => ∀ subscriptionId redisPattern,
      s.calls[call]? = some (.subscribed subscriptionId redisPattern) →
        ∀ c ∈ s.calls, ∀ patterns, c.restores = some patterns → redisPattern ∈ patterns →
          ∃ other e, other ≠ subscriptionId ∧ s.adapter.subscriptions.get other = some e ∧
            e.redisPattern = redisPattern
  | .disconnect => s.adapter.isConnected → ∀ c ∈ s.calls, c.restores = none
  | _ => True

/-- Nothing is in flight. -/
def Quiescent (s : Session H) : Prop := s.commands = [] ∧ ∀ c ∈ s.calls, c.running = false

/-! ### The patterns of the connection -/

/-- Whether a pattern is going to be subscribed once all commands are served, if it is now in
the case of `now` and if the `psubscribe` of exactly the `sure` callers are accepted. -/
def Settles (sure : Caller → Prop) (q : String) : List Command → Prop → Prop
  | [], now => now
  | .psubscribe caller redisPattern :: commands, now =>
      Settles sure q commands (now ∨ (sure caller ∧ redisPattern = q))
  | .punsubscribe _ redisPatterns :: commands, now =>
      Settles sure q commands (now ∧ q ∉ redisPatterns)

section Settles

variable {sure sure' : Caller → Prop} {q : String} {commands : List Command} {now now' : Prop}

lemma settles_mono (hsure : ∀ caller, sure caller → sure' caller) (hnow : now → now')
    (h : Settles sure q commands now) : Settles sure' q commands now' := by
  induction commands generalizing now now' with
  | nil => exact hnow h
  | cons command commands ih =>
      cases command with
      | psubscribe caller redisPattern =>
          exact ih (fun h => h.imp hnow fun h => ⟨hsure caller h.1, h.2⟩) h
      | punsubscribe call redisPatterns => exact ih (fun h => ⟨hnow h.1, h.2⟩) h

lemma settles_append (more : List Command) :
    Settles sure q (commands ++ more) now ↔ Settles sure q more (Settles sure q commands now) := by
  induction commands generalizing now with
  | nil => rfl
  | cons command commands ih =>
      cases command with
      | psubscribe caller redisPattern => exact ih
      | punsubscribe call redisPatterns => exact ih

/-- Callers without a command make no difference. -/
lemma settles_congr (h : ∀ caller redisPattern, Command.psubscribe caller redisPattern ∈ commands →
    (sure caller ↔ sure' caller)) : Settles sure q commands now ↔ Settles sure' q commands now := by
  induction commands generalizing now with
  | nil => rfl
  | cons command commands ih =>
      have htail := fun caller redisPattern hmem =>
        h caller redisPattern (List.mem_cons_of_mem command hmem)
      cases command with
      | psubscribe caller redisPattern =>
          rw [Settles, Settles, h caller redisPattern List.mem_cons_self]
          exact ih htail
      | punsubscribe call redisPatterns => exact ih htail

end Settles

/-- The callers whose commands count: every `subscribe`, and one `connect`. -/
def sure (c : Option ℕ) : Caller → Prop
  | .connect call => c = some call
  | .subscribe _ => True

/-- The pattern is going to be subscribed, even if the other `connect`s fail. -/
def Lower (c : Option ℕ) (s : Session H) (q : String) : Prop :=
  Settles (sure c) q s.commands (q ∈ s.adapter.psubscribed)

/-- The pattern may be subscribed in the end. -/
def Upper (s : Session H) (q : String) : Prop :=
  Settles (fun _ => True) q s.commands (q ∈ s.adapter.psubscribed)

variable {s s' : Session H} {q : String} {c : Option ℕ}

lemma lower_issue_psubscribe (caller : Caller) (redisPattern : String) :
    Lower c (s.issue (.psubscribe caller redisPattern)) q ↔
      Lower c s q ∨ (sure c caller ∧ redisPattern = q) := by
  rw [Lower, issue, settles_append]
  rfl

lemma upper_issue_psubscribe (caller : Caller) (redisPattern : String) :
    Upper (s.issue (.psubscribe caller redisPattern)) q ↔ Upper s q ∨ redisPattern = q := by
  rw [Upper, issue, settles_append]
  exact or_congr_right (iff_of_eq (true_and _))

lemma upper_issue_punsubscribe (call : Option ℕ) (redisPatterns : List String) :
    Upper (s.issue (.punsubscribe call redisPatterns)) q ↔ Upper s q ∧ q ∉ redisPatterns := by
  rw [Upper, issue, settles_append]
  rfl

lemma mem_psubscribe (adapter : RedisEventBusAdapter H) (redisPattern q : String) :
    q ∈ (adapter.psubscribe redisPattern).psubscribed ↔
      q ∈ adapter.psubscribed ∨ redisPattern = q := by
  unfold psubscribe
  split
  next h =>
    refine ⟨.inl, fun hq => hq.elim id ?_⟩
    rintro rfl
    exact h
  next => simp [eq_comm]

lemma psubscribe_frame (adapter : RedisEventBusAdapter H) (redisPattern : String) :
    (adapter.psubscribe redisPattern).subscriptions = adapter.subscriptions ∧
      (adapter.psubscribe redisPattern).isConnected = adapter.isConnected := by
  unfold psubscribe
  split <;> exact ⟨rfl, rfl⟩

lemma foldl_punsubscribe (redisPatterns : List String) (adapter : RedisEventBusAdapter H) :
    (∀ q, q ∈ (redisPatterns.foldl punsubscribe adapter).psubscribed ↔
      q ∈ adapter.psubscribed ∧ q ∉ redisPatterns) ∧
    (redisPatterns.foldl punsubscribe adapter).subscriptions = adapter.subscriptions ∧
    (redisPatterns.foldl punsubscribe adapter).isConnected = adapter.isConnected := by
  induction redisPatterns generalizing adapter with
  | nil => exact ⟨fun q => by simp, rfl, rfl⟩
  | cons p redisPatterns ih =>
      obtain ⟨hmem, hsub, hconn⟩ := ih (adapter.punsubscribe p)
      refine ⟨fun q => ?_, hsub, hconn⟩
      rw [List.foldl_cons, hmem]
      simp [punsubscribe, and_assoc]

/-! ### The table -/

lemma mem_patterns : q ∈ s.patterns ↔
    ∃ subscriptionId e, s.adapter.subscriptions.get subscriptionId = some e ∧
      e.redisPattern = q := by
  unfold patterns OrdMap.values
  rw [List.map_map, List.mem_map]
  constructor
  · rintro ⟨⟨subscriptionId, e⟩, hmem, rfl⟩
    exact ⟨subscriptionId, e, (OrdMap.mem_entries_iff _).mp hmem, rfl⟩
  · rintro ⟨subscriptionId, e, he, rfl⟩
    exact ⟨(subscriptionId, e), (OrdMap.mem_entries_iff _).mpr he, rfl⟩

lemma withPattern_length_eq_zero_iff {redisPattern : String} :
    (s.adapter.withPattern redisPattern).length = 0 ↔ redisPattern ∉ s.patterns := by
  rw [List.length_eq_zero_iff, withPattern, List.filter_eq_nil_iff, patterns, List.mem_map]
  simp [eq_comm]

/-! ### What careful steps keep -/

/-- The table, the commands in flight and the calls fit together: what may be subscribed is in
the table, and what is in the table is going to be subscribed once the adapter is connected;
a `connect` gets there with the patterns it is still going to restore. -/
structure Inv (s : Session H) : Prop where
  table : ∀ subscriptionId e, s.adapter.subscriptions.get subscriptionId = some e →
    subscriptionId ∈ s.ids ∧ ∀ c ∈ s.calls, ∀ redisPattern,
      c.subscription = some (subscriptionId, redisPattern) → e.redisPattern = redisPattern
  ids : ∀ c ∈ s.calls, ∀ subscriptionId redisPattern,
    c.subscription = some (subscriptionId, redisPattern) → subscriptionId ∈ s.ids
  upper : ∀ q, Upper s q → q ∈ s.patterns
  pending : ∀ c ∈ s.calls, ∀ ps, c.restores = some ps → ∀ q ∈ ps, q ∈ s.patterns
  lower : s.adapter.isConnected = true → (∀ c ∈ s.calls, c.disconnects = false) →
    ∀ q ∈ s.patterns, Lower none s q
  restoring : ∀ (i : ℕ) c ps, s.calls[i]? = some c → c.restores = some ps →
    ∀ q ∈ s.patterns, q ∈ ps ∨ Lower (some i) s q
  waiting : ∀ i redisPattern, .psubscribe (.connect i) redisPattern ∈ s.commands →
    ∃ ps, s.calls[i]? = some (.restoring ps .waiting)
  nodup : (s.commands.filterMap Command.restoringCall).Nodup
  unbroken : ∀ c ∈ s.calls, c.Unbroken

lemma inv_init (channelPrefix : String) :
    Inv ({ adapter := { channelPrefix } } : Session H) where
  table := nofun
  ids := nofun
  upper q hq := by cases hq
  pending := nofun
  lower h := by cases h
  restoring i c ps hi := by cases hi
  waiting := nofun
  nodup := List.nodup_nil
  unbroken := nofun

/-- A call of a list with a new one is an old one or the new one. -/
lemma getElem?_concat {calls : List AdapterCall} {next c : AdapterCall} {i : ℕ}
    (h : (calls ++ [next])[i]? = some c) : calls[i]? = some c ∨ (i = calls.length ∧ c = next) := by
  rcases Nat.lt_trichotomy i calls.length with hlt | rfl | hgt
  · exact .inl (List.getElem?_append_left hlt ▸ h)
  · rw [List.getElem?_concat_length, Option.some.injEq] at h
    exact .inr ⟨rfl, h.symm⟩
  · rw [List.getElem?_eq_none (by rw [List.length_append]; exact hgt)] at h
    cases h

/-- A call of a list in which one has gone on is that one or an old one. -/
lemma getElem?_set_cases {calls : List AdapterCall} {next c : AdapterCall} {i j : ℕ}
    (h : (calls.set i next)[j]? = some c) : (j = i ∧ c = next) ∨ calls[j]? = some c := by
  rw [List.getElem?_set] at h
  split at h
  next hij =>
    split at h
    · exact .inl ⟨hij.symm, (Option.some.inj h).symm⟩
    · cases h
  next => exact .inr h

/-- A call that neither restores nor subscribes is added. -/
lemma Inv.spawn (h : Inv s) {next : AdapterCall} (hrestores : next.restores = none)
    (hsub : next.subscription = none) (hunbroken : next.Unbroken) : Inv (s.spawn next) where
  table subscriptionId e he := by
    refine ⟨(h.table _ e he).1, fun c hc redisPattern hs => ?_⟩
    rcases List.mem_append.mp hc with hc | hc
    · exact (h.table _ e he).2 c hc redisPattern hs
    · rw [List.mem_singleton.mp hc, hsub] at hs
      cases hs
  ids c hc subscriptionId redisPattern hs := by
    rcases List.mem_append.mp hc with hc | hc
    · exact h.ids c hc subscriptionId redisPattern hs
    · rw [List.mem_singleton.mp hc, hsub] at hs
      cases hs
  upper := h.upper
  pending c hc ps hps := by
    rcases List.mem_append.mp hc with hc | hc
    · exact h.pending c hc ps hps
    · rw [List.mem_singleton.mp hc, hrestores] at hps
      cases hps
  lower hconn hno := h.lower hconn fun c hc => hno c (List.mem_append_left _ hc)
  restoring i c ps hi hps := by
    rcases getElem?_concat hi with hi | ⟨-, rfl⟩
    · exact h.restoring i c ps hi hps
    · rw [hrestores] at hps
      cases hps
  waiting i redisPattern hmem := by
    obtain ⟨ps, hps⟩ := h.waiting i redisPattern hmem
    exact ⟨ps, (List.getElem?_append_left (List.getElem?_eq_some_iff.mp hps).1).trans hps⟩
  nodup := h.nodup
  unbroken c hc := by
    rcases List.mem_append.mp hc with hc | hc
    · exact h.unbroken c hc
    · exact List.mem_singleton.mp hc ▸ hunbroken

/-- A call goes on to a place where it does not restore. -/
lemma Inv.setCall (h : Inv s) {i : ℕ} {old next : AdapterCall} (hi : s.calls[i]? = some old)
    (hrestores : next.restores = none)
    (hsub : next.subscription = none ∨ next.subscription = old.subscription)
    (hunbroken : next.Unbroken)
    (hfree : ∀ redisPattern, .psubscribe (.connect i) redisPattern ∉ s.commands)
    (hdisc : old.disconnects = true → s.adapter.isConnected = false) : Inv (s.setCall i next) := by
  have hold : old ∈ s.calls := List.mem_of_getElem? hi
  have hsubscription (c : AdapterCall) (hc : c ∈ s.calls.set i next) (x : String × String)
      (hx : c.subscription = some x) : ∃ c' ∈ s.calls, c'.subscription = some x := by
    rcases List.mem_or_eq_of_mem_set hc with hc | rfl
    · exact ⟨c, hc, hx⟩
    · rcases hsub with hnone | hsame
      · rw [hnone] at hx
        cases hx
      · exact ⟨old, hold, hsame ▸ hx⟩
  refine ⟨fun subscriptionId e he => ?_, fun c hc subscriptionId redisPattern hs => ?_, h.upper,
    fun c hc ps hps => ?_, fun hconn hno => ?_, fun j c ps hj hps => ?_,
    fun j redisPattern hmem => ?_, h.nodup, fun c hc => ?_⟩
  · refine ⟨(h.table _ e he).1, fun c hc redisPattern hs => ?_⟩
    obtain ⟨c', hc', hs'⟩ := hsubscription c hc _ hs
    exact (h.table _ e he).2 c' hc' redisPattern hs'
  · obtain ⟨c', hc', hs'⟩ := hsubscription c hc _ hs
    exact h.ids c' hc' subscriptionId redisPattern hs'
  · rcases List.mem_or_eq_of_mem_set hc with hc | rfl
    · exact h.pending c hc ps hps
    · rw [hrestores] at hps
      cases hps
  · refine h.lower hconn fun c hc => ?_
    by_contra hdisconnects
    obtain ⟨j, hj⟩ := List.mem_iff_getElem?.mp hc
    by_cases hij : i = j
    · subst hij
      obtain rfl := Option.some.inj (hi.symm.trans hj)
      have hconn' : s.adapter.isConnected = true := hconn
      rw [hdisc (by simpa using hdisconnects)] at hconn'
      cases hconn'
    · refine hdisconnects (hno c (List.mem_iff_getElem?.mpr ⟨j, ?_⟩))
      exact (List.getElem?_set_ne hij).trans hj
  · rcases getElem?_set_cases hj with ⟨-, rfl⟩ | hj
    · rw [hrestores] at hps
      cases hps
    · exact h.restoring j c ps hj hps
  · obtain ⟨ps, hps⟩ := h.waiting j redisPattern hmem
    have hij : i ≠ j := by
      rintro rfl
      exact hfree redisPattern hmem
    exact ⟨ps, (List.getElem?_set_ne hij).trans hps⟩
  · rcases List.mem_or_eq_of_mem_set hc with hc | rfl
    · exact h.unbroken c hc
    · exact hunbroken

/-- Once all patterns are going to be subscribed the adapter is connected. -/
lemma Inv.connected (h : Inv s) (hlower : ∀ q ∈ s.patterns, Lower none s q) :
    Inv { s with adapter := { s.adapter with isConnected := true } } :=
  ⟨h.table, h.ids, h.upper, h.pending, fun _ _ => hlower, h.restoring, h.waiting, h.nodup,
    h.unbroken⟩

lemma Inv.disconnected (h : Inv s) :
    Inv { s with adapter := { s.adapter with isConnected := false } } :=
  ⟨h.table, h.ids, h.upper, h.pending, nofun, h.restoring, h.waiting, h.nodup, h.unbroken⟩

/-- `connect` issues the next pattern, or is through. -/
lemma Inv.restoreNext (h : Inv s) {i : ℕ} {old : AdapterCall} (hi : s.calls[i]? = some old)
    (hdisc : old.disconnects = false)
    (hfree : ∀ redisPattern, .psubscribe (.connect i) redisPattern ∉ s.commands)
    {list : List String} (hlist : ∀ q ∈ list, q ∈ s.patterns)
    (hlower : ∀ q ∈ s.patterns, q ∈ list ∨ Lower none s q) : Inv (s.restoreNext i list) := by
  have hlt := (List.getElem?_eq_some_iff.mp hi).1
  cases list with
  | nil =>
      refine (h.connected fun q hq => (hlower q hq).resolve_left (List.not_mem_nil)).setCall
        hi rfl (.inl rfl) trivial hfree ?_
      rw [hdisc]
      exact nofun
  | cons p rest =>
      have hmem (c : AdapterCall) (hc : c ∈ s.calls.set i (.restoring rest .waiting)) :
          c ∈ s.calls ∨ c = .restoring rest .waiting := List.mem_or_eq_of_mem_set hc
      refine ⟨fun subscriptionId e he => ?_, fun c hc subscriptionId redisPattern hs => ?_,
        fun q hq => ?_, fun c hc ps hps => ?_, fun hconn hno q hq => ?_,
        fun j c ps hj hps q hq => ?_, fun j redisPattern hcommand => ?_, ?_, fun c hc => ?_⟩
      · refine ⟨(h.table _ e he).1, fun c hc redisPattern hs => ?_⟩
        rcases hmem c hc with hc | rfl
        · exact (h.table _ e he).2 c hc redisPattern hs
        · cases hs
      · rcases hmem c hc with hc | rfl
        · exact h.ids c hc subscriptionId redisPattern hs
        · cases hs
      · rcases upper_issue_psubscribe _ p |>.mp hq with hq | rfl
        · exact h.upper q hq
        · exact hlist p List.mem_cons_self
      · rcases hmem c hc with hc | rfl
        · exact h.pending c hc ps hps
        · obtain rfl := Option.some.inj hps
          exact fun q hq => hlist q (List.mem_cons_of_mem p hq)
      · refine (lower_issue_psubscribe _ p).mpr (.inl (h.lower hconn (fun c hc => ?_) q hq))
        by_contra hdisconnects
        obtain ⟨j, hj⟩ := List.mem_iff_getElem?.mp hc
        by_cases hij : i = j
        · subst hij
          obtain rfl := Option.some.inj (hi.symm.trans hj)
          exact hdisconnects hdisc
        · refine hdisconnects (hno c (List.mem_iff_getElem?.mpr ⟨j, ?_⟩))
          exact (List.getElem?_set_ne hij).trans hj
      · refine Or.imp_right (lower_issue_psubscribe _ p).mpr ?_
        rcases getElem?_set_cases hj with ⟨rfl, rfl⟩ | hj
        · obtain rfl := Option.some.inj hps
          rcases hlower q hq with hlisted | hl
          · rcases List.mem_cons.mp hlisted with rfl | hrest
            · exact .inr (.inr ⟨rfl, rfl⟩)
            · exact .inl hrest
          · refine .inr (.inl (settles_mono (fun caller hsure => ?_) id hl))
            cases caller with
            | connect call => cases hsure
            | subscribe call => trivial
        · exact (h.restoring j c ps hj hps q hq).imp_right .inl
      · rcases List.mem_append.mp hcommand with hcommand | hcommand
        · obtain ⟨ps, hps⟩ := h.waiting j redisPattern hcommand
          have hij : i ≠ j := by
            rintro rfl
            exact hfree redisPattern hcommand
          exact ⟨ps, (List.getElem?_set_ne hij).trans hps⟩
        · obtain ⟨hcaller, -⟩ := Command.psubscribe.inj (List.mem_singleton.mp hcommand)
          obtain rfl := Caller.connect.inj hcaller
          exact ⟨rest, List.getElem?_set_self hlt⟩
      · show ((s.commands ++ [_]).filterMap Command.restoringCall).Nodup
        rw [List.filterMap_append]
        refine List.nodup_append.mpr ⟨h.nodup, List.nodup_singleton i, fun j hj k hk hjk => ?_⟩
        subst hjk
        obtain rfl := List.mem_singleton.mp hk
        obtain ⟨command, hcommand, hcall⟩ := List.mem_filterMap.mp hj
        unfold Command.restoringCall at hcall
        split at hcall
        · obtain rfl := Option.some.inj hcall
          exact hfree _ hcommand
        · cases hcall
      · rcases hmem c hc with hc | rfl
        · exact h.unbroken c hc
        · trivial

/-- A call that awaits the client has no command in flight. -/
lemma Inv.free (h : Inv s) {i : ℕ} {old : AdapterCall} (hi : s.calls[i]? = some old)
    (hold : ∀ ps, old ≠ .restoring ps .waiting) (redisPattern : String) :
    .psubscribe (.connect i) redisPattern ∉ s.commands := by
  intro hmem
  obtain ⟨ps, hps⟩ := h.waiting i redisPattern hmem
  exact hold ps (Option.some.inj (hi.symm.trans hps))

lemma Inv.startRestoring (h : Inv s) {i : ℕ} (hi : s.calls[i]? = some .awaitingClient) :
    Inv (s.startRestoring i) := by
  have hlistening : Inv { s with adapter := { s.adapter with listening := true } } :=
    ⟨h.table, h.ids, h.upper, h.pending, h.lower, h.restoring, h.waiting, h.nodup, h.unbroken⟩
  refine hlistening.restoreNext hi rfl (h.free hi nofun) ?_ ?_
  · exact fun q hq => List.mem_eraseDups.mp hq
  · exact fun q hq => .inl (List.mem_eraseDups.mpr hq)

lemma Inv.connect (h : Inv s) (clientConnected : Bool) : Inv (s.connect clientConnected) := by
  unfold Session.connect
  split
  · exact h.spawn rfl rfl trivial
  · split
    · exact (@Inv.spawn H s h .awaitingClient rfl rfl trivial).startRestoring
        List.getElem?_concat_length
    · exact h.spawn rfl rfl trivial

/-- A new subscription with its pattern. -/
lemma mem_patterns_store {subscriptionId : String} {e : SubscriptionEntry H}
    (hfresh : s.adapter.subscriptions.get subscriptionId = none) (ids : List String) :
    q ∈ patterns { s with
        adapter := { s.adapter with
          subscriptions := s.adapter.subscriptions.set subscriptionId e }
        ids := ids } ↔ q ∈ s.patterns ∨ q = e.redisPattern := by
  rw [mem_patterns, mem_patterns]
  dsimp only
  constructor
  · rintro ⟨id, e', he', rfl⟩
    rw [OrdMap.get_set] at he'
    split at he'
    · exact .inr (Option.some.inj he' ▸ rfl)
    · exact .inl ⟨id, e', he', rfl⟩
  · rintro (⟨id, e', he', rfl⟩ | rfl)
    · refine ⟨id, e', ?_, rfl⟩
      rw [OrdMap.get_set_ne, he']
      rintro rfl
      exact absurd (hfresh.symm.trans he') (by rintro ⟨⟩)
    · exact ⟨subscriptionId, e, OrdMap.get_set_self _ _ _, rfl⟩

/-- A pattern that is not in the table is new. -/
lemma withPattern_store {subscriptionId : String} {e : SubscriptionEntry H}
    (hfresh : s.adapter.subscriptions.get subscriptionId = none)
    (hnew : e.redisPattern ∉ s.patterns) :
    (withPattern { s.adapter with subscriptions := s.adapter.subscriptions.set subscriptionId e }
      e.redisPattern).length = 1 := by
  have hzero := withPattern_length_eq_zero_iff.mpr hnew
  unfold withPattern at hzero ⊢
  dsimp only
  rw [OrdMap.values, OrdMap.entries_set_of_get_none hfresh, List.map_append, List.filter_append,
    List.length_append]
  rw [OrdMap.values] at hzero
  rw [hzero]
  simp

/-- An entry is stored; the command for its pattern is on the way, or the pattern is known. -/
lemma Inv.store (h : Inv s) {subscriptionId : String} (hid : subscriptionId ∉ s.ids)
    {e : SubscriptionEntry H} {next : AdapterCall}
    (hnext : next.subscription = some (subscriptionId, e.redisPattern))
    (hrestores : next.restores = none) (hunbroken : next.Unbroken) {extra : List Command}
    (hextra : (∃ call, extra = [.psubscribe (.subscribe call) e.redisPattern]) ∨
      extra = [] ∧ e.redisPattern ∈ s.patterns)
    {t : Session H} (hadapter : t.adapter = { s.adapter with
      subscriptions := s.adapter.subscriptions.set subscriptionId e })
    (hcommands : t.commands = s.commands ++ extra) (hcalls : t.calls = s.calls ++ [next])
    (hids : t.ids = s.ids ++ [subscriptionId]) : Inv t := by
  have hfresh : s.adapter.subscriptions.get subscriptionId = none :=
    Option.eq_none_iff_forall_ne_some.mpr fun e he => hid (h.table _ e he).1
  have hpatterns (q : String) : q ∈ t.patterns ↔ q ∈ s.patterns ∨ q = e.redisPattern := by
    rw [← mem_patterns_store hfresh s.ids, patterns, hadapter]
    rfl
  have hconnect (i : ℕ) (p : String) (hp : .psubscribe (.connect i) p ∈ t.commands) :
      .psubscribe (.connect i) p ∈ s.commands := by
    rw [hcommands] at hp
    rcases List.mem_append.mp hp with hp | hp
    · exact hp
    · rcases hextra with ⟨call, rfl⟩ | ⟨rfl, -⟩
      · cases List.mem_singleton.mp hp
      · cases hp
  have hlower (c : Option ℕ) (q : String) (hq : Lower c s q) : Lower c t q := by
    rw [Lower, hcommands, hadapter, settles_append]
    rcases hextra with ⟨call, rfl⟩ | ⟨rfl, -⟩
    · exact .inl hq
    · exact hq
  have hnew (c : Option ℕ) (hknown : e.redisPattern ∈ s.patterns → Lower c s e.redisPattern) :
      Lower c t e.redisPattern := by
    rcases hextra with ⟨call, rfl⟩ | ⟨rfl, hmem⟩
    · rw [Lower, hcommands, hadapter, settles_append]
      exact .inr ⟨trivial, rfl⟩
    · exact hlower c _ (hknown hmem)
  have hupper (q : String) (hq : Upper t q) : Upper s q ∨ q = e.redisPattern := by
    rw [Upper, hcommands, hadapter, settles_append] at hq
    rcases hextra with ⟨call, rfl⟩ | ⟨rfl, -⟩
    · exact hq.imp_right fun h => h.2.symm
    · exact .inl hq
  have hget (id : String) : t.adapter.subscriptions.get id =
      if subscriptionId = id then some e else s.adapter.subscriptions.get id := by
    rw [hadapter]
    exact OrdMap.get_set _ _ _ _
  have hconnected : t.adapter.isConnected = s.adapter.isConnected := by rw [hadapter]
  have hmem (c : AdapterCall) (hc : c ∈ t.calls) : c ∈ s.calls ∨ c = next := by
    rw [hcalls] at hc
    exact (List.mem_append.mp hc).imp_right List.mem_singleton.mp
  refine ⟨fun id e' he' => ?_, fun c hc id redisPattern hs => ?_, fun q hq => ?_,
    fun c hc ps hps q hq => ?_, fun hconn hno q hq => ?_, fun i c ps hi hps q hq => ?_,
    fun i p hp => ?_, ?_, fun c hc => ?_⟩
  · rw [hget] at he'
    rw [hids]
    split at he'
    next hsame =>
      subst hsame
      refine ⟨List.mem_append_right _ (List.mem_singleton.mpr rfl), fun c hc redisPattern hs => ?_⟩
      rcases hmem c hc with hc | rfl
      · exact absurd (h.ids c hc _ _ hs) hid
      · rw [hnext, Option.some.injEq, Prod.mk.injEq] at hs
        rw [← Option.some.inj he', hs.2]
    next hne =>
      refine ⟨List.mem_append_left _ (h.table id e' he').1, fun c hc redisPattern hs => ?_⟩
      rcases hmem c hc with hc | rfl
      · exact (h.table id e' he').2 c hc redisPattern hs
      · rw [hnext, Option.some.injEq, Prod.mk.injEq] at hs
        exact absurd hs.1 hne
  · rw [hids]
    rcases hmem c hc with hc | rfl
    · exact List.mem_append_left _ (h.ids c hc id redisPattern hs)
    · rw [hnext, Option.some.injEq, Prod.mk.injEq] at hs
      exact List.mem_append_right _ (List.mem_singleton.mpr hs.1.symm)
  · exact (hpatterns q).mpr ((hupper q hq).imp_left (h.upper q))
  · rcases hmem c hc with hc | rfl
    · exact (hpatterns q).mpr (.inl (h.pending c hc ps hps q hq))
    · rw [hrestores] at hps
      cases hps
  · have hall := h.lower (hconnected ▸ hconn) fun c hc =>
      hno c (hcalls ▸ List.mem_append_left _ hc)
    rcases (hpatterns q).mp hq with hq | rfl
    · exact hlower none q (hall q hq)
    · exact hnew none (hall _)
  · rw [hcalls] at hi
    rcases getElem?_concat hi with hi | ⟨-, rfl⟩
    · by_cases hold : q ∈ s.patterns
      · exact (h.restoring i c ps hi hps q hold).imp_right (hlower (some i) q)
      · obtain rfl := ((hpatterns q).mp hq).resolve_left hold
        exact .inr (hnew (some i) fun hknown => absurd hknown hold)
    · rw [hrestores] at hps
      cases hps
  · obtain ⟨ps, hps⟩ := h.waiting i p (hconnect i p hp)
    refine ⟨ps, ?_⟩
    rw [hcalls]
    exact (List.getElem?_append_left (List.getElem?_eq_some_iff.mp hps).1).trans hps
  · rw [hcommands, List.filterMap_append]
    rcases hextra with ⟨call, rfl⟩ | ⟨rfl, -⟩
    · exact (List.append_nil _).symm ▸ h.nodup
    · exact (List.append_nil _).symm ▸ h.nodup
  · rcases hmem c hc with hc | rfl
    · exact h.unbroken c hc
    · exact hunbroken

/-- `subscribe` stores its entry; if the pattern is new, then its command is on the way. -/
lemma Inv.subscribe (h : Inv s) {subscriptionId pattern : String} {handler : H}
    (hs : s.subscribe subscriptionId pattern handler = some s') : Inv s' := by
  unfold Session.subscribe at hs
  split at hs
  next => cases hs
  next hid =>
    split at hs
    next =>
      obtain rfl := Option.some.inj hs
      exact h.spawn rfl rfl rfl
    next =>
      have hfresh : s.adapter.subscriptions.get subscriptionId = none :=
        Option.eq_none_iff_forall_ne_some.mpr fun e he => hid (h.table _ e he).1
      dsimp only at hs
      split at hs
      next =>
        obtain rfl := Option.some.inj hs
        refine h.store hid rfl rfl ?_ (.inl ⟨_, rfl⟩) rfl rfl rfl rfl
        exact Reply.noConfusion
      next hknown =>
        obtain rfl := Option.some.inj hs
        have hmem : s.adapter.buildRedisPattern pattern ∈ s.patterns := by
          by_contra hnew
          exact hknown (withPattern_store (e := ⟨pattern, handler, _⟩) hfresh hnew)
        refine h.store (e := ⟨pattern, handler, s.adapter.buildRedisPattern pattern⟩) hid rfl rfl ?_
          (.inr ⟨rfl, hmem⟩) rfl (List.append_nil _).symm rfl rfl
        trivial

/-- A subscription goes; its pattern is unsubscribed, or another subscription has it, too. -/
lemma Inv.remove (h : Inv s) {subscriptionId redisPattern : String}
    (hentry : ∀ e, s.adapter.subscriptions.get subscriptionId = some e →
      e.redisPattern = redisPattern)
    (hcareful : ∀ c ∈ s.calls, ∀ ps, c.restores = some ps → redisPattern ∈ ps →
      ∃ other e, other ≠ subscriptionId ∧ s.adapter.subscriptions.get other = some e ∧
        e.redisPattern = redisPattern)
    {t : Session H} (hadapter : t.adapter = { s.adapter with
      subscriptions := s.adapter.subscriptions.delete subscriptionId }) {extra : List Command}
    (hextra : (extra = [.punsubscribe none [redisPattern]] ∧ redisPattern ∉ t.patterns) ∨
      extra = [] ∧ redisPattern ∈ t.patterns)
    (hcommands : t.commands = s.commands ++ extra) (hcalls : t.calls = s.calls)
    (hids : t.ids = s.ids) : Inv t := by
  have hget (id : String) : t.adapter.subscriptions.get id =
      if subscriptionId = id then none else s.adapter.subscriptions.get id := by
    rw [hadapter]
    exact OrdMap.get_delete _ _ _
  have hsub (q : String) (hq : q ∈ t.patterns) : q ∈ s.patterns := by
    obtain ⟨id, e, he, rfl⟩ := mem_patterns.mp hq
    rw [hget] at he
    split at he
    · cases he
    · exact mem_patterns.mpr ⟨id, e, he, rfl⟩
  have hother {id : String} {e : SubscriptionEntry H} (hne : id ≠ subscriptionId)
      (he : s.adapter.subscriptions.get id = some e) : e.redisPattern ∈ t.patterns :=
    mem_patterns.mpr ⟨id, e, by rw [hget, if_neg (Ne.symm hne), he], rfl⟩
  have hstays (q : String) (hq : q ∈ s.patterns) (hne : q ≠ redisPattern) : q ∈ t.patterns := by
    obtain ⟨id, e, he, rfl⟩ := mem_patterns.mp hq
    refine hother ?_ he
    rintro rfl
    exact hne (hentry e he)
  have hconnect (i : ℕ) (p : String) (hp : .psubscribe (.connect i) p ∈ t.commands) :
      .psubscribe (.connect i) p ∈ s.commands := by
    rw [hcommands] at hp
    rcases List.mem_append.mp hp with hp | hp
    · exact hp
    · rcases hextra with ⟨rfl, -⟩ | ⟨rfl, -⟩
      · cases List.mem_singleton.mp hp
      · cases hp
  have hlower (c : Option ℕ) (q : String) (hmem : q ∈ t.patterns) (hq : Lower c s q) :
      Lower c t q := by
    rw [Lower, hcommands, hadapter, settles_append]
    rcases hextra with ⟨rfl, hgone⟩ | ⟨rfl, -⟩
    · refine ⟨hq, fun hp => hgone ?_⟩
      exact List.mem_singleton.mp hp ▸ hmem
    · exact hq
  refine ⟨fun id e he => ?_, fun c hc => hids ▸ h.ids c (hcalls ▸ hc), fun q hq => ?_,
    fun c hc ps hps q hq => ?_, fun hconn hno q hq => ?_, fun i c ps hi hps q hq => ?_,
    fun i p hp => hcalls ▸ h.waiting i p (hconnect i p hp), ?_,
    fun c hc => h.unbroken c (hcalls ▸ hc)⟩
  · rw [hget] at he
    split at he
    · cases he
    · exact ⟨hids ▸ (h.table id e he).1, fun c hc => (h.table id e he).2 c (hcalls ▸ hc)⟩
  · rw [Upper, hcommands, hadapter, settles_append] at hq
    rcases hextra with ⟨rfl, -⟩ | ⟨rfl, hmem⟩
    · exact hstays q (h.upper q hq.1) fun he => hq.2 (List.mem_singleton.mpr he)
    · by_cases hne : q = redisPattern
      · exact hne ▸ hmem
      · exact hstays q (h.upper q hq) hne
  · by_cases hne : q = redisPattern
    · obtain ⟨other, e, hother', he, hsame⟩ := hcareful c (hcalls ▸ hc) ps hps (hne ▸ hq)
      rw [hne, ← hsame]
      exact hother hother' he
    · exact hstays q (h.pending c (hcalls ▸ hc) ps hps q hq) hne
  · refine hlower none q hq (h.lower ?_ (fun c hc => hno c (hcalls ▸ hc)) q (hsub q hq))
    rw [hadapter] at hconn
    exact hconn
  · exact (h.restoring i c ps (hcalls ▸ hi) hps q (hsub q hq)).imp_right (hlower (some i) q hq)
  · rw [hcommands, List.filterMap_append]
    rcases hextra with ⟨rfl, -⟩ | ⟨rfl, -⟩
    · exact (List.append_nil _).symm ▸ h.nodup
    · exact (List.append_nil _).symm ▸ h.nodup

lemma Inv.unsubscribe (h : Inv s) {call : ℕ} (hcareful : s.Careful (.unsubscribe call))
    (hs : s.unsubscribe call = some s') : Inv s' := by
  unfold Session.unsubscribe at hs
  split at hs
  next subscriptionId redisPattern hcall =>
    have hmem := List.mem_of_getElem? hcall
    have hentry (e : SubscriptionEntry H)
        (he : s.adapter.subscriptions.get subscriptionId = some e) :
        e.redisPattern = redisPattern := (h.table _ e he).2 _ hmem redisPattern rfl
    have hothers := hcareful subscriptionId redisPattern hcall
    dsimp only at hs
    split at hs
    next hzero =>
      obtain rfl := Option.some.inj hs
      exact h.remove hentry hothers rfl (.inl ⟨rfl, withPattern_length_eq_zero_iff.mp hzero⟩) rfl
        rfl rfl
    next hsome =>
      obtain rfl := Option.some.inj hs
      refine h.remove hentry hothers rfl (.inr ⟨rfl, ?_⟩) (List.append_nil _).symm rfl rfl
      by_contra hgone
      exact hsome (withPattern_length_eq_zero_iff.mpr hgone)
  next => cases hs

/-- All patterns are on their way out, and no `connect` restores. -/
lemma Inv.unsubscribeAll (h : Inv s) (hno : ∀ c ∈ s.calls, c.restores = none) (call : Option ℕ)
    (redisPatterns : List String) :
    Inv ((s.issue (.punsubscribe call redisPatterns)).spawn (.disconnecting .waiting)) := by
  have hmem (c : AdapterCall) (hc : c ∈ s.calls ++ [.disconnecting .waiting]) :
      c ∈ s.calls ∨ c = .disconnecting .waiting :=
    (List.mem_append.mp hc).imp_right List.mem_singleton.mp
  have hnone (c : AdapterCall) (hc : c ∈ s.calls ++ [.disconnecting .waiting]) :
      c.restores = none := by
    rcases hmem c hc with hc | rfl
    · exact hno c hc
    · rfl
  refine ⟨fun id e he => ?_, fun c hc id redisPattern hs => ?_, fun q hq => ?_,
    fun c hc ps hps => ?_, fun hconn hdisc => ?_, fun i c ps hi hps => ?_, fun i p hp => ?_, ?_,
    fun c hc => ?_⟩
  · refine ⟨(h.table id e he).1, fun c hc redisPattern hs => ?_⟩
    rcases hmem c hc with hc | rfl
    · exact (h.table id e he).2 c hc redisPattern hs
    · cases hs
  · rcases hmem c hc with hc | rfl
    · exact h.ids c hc id redisPattern hs
    · cases hs
  · exact h.upper q ((upper_issue_punsubscribe call redisPatterns).mp hq).1
  · rw [hnone c hc] at hps
    cases hps
  · exact absurd (hdisc (.disconnecting .waiting) (by simp [Session.spawn])) nofun
  · rw [hnone c (List.mem_of_getElem? hi)] at hps
    cases hps
  · have hp' : .psubscribe (.connect i) p ∈ s.commands := by
      rcases List.mem_append.mp hp with hp | hp
      · exact hp
      · cases List.mem_singleton.mp hp
    obtain ⟨ps, hps⟩ := h.waiting i p hp'
    exact ⟨ps, (List.getElem?_append_left (List.getElem?_eq_some_iff.mp hps).1).trans hps⟩
  · show ((s.commands ++ [_]).filterMap Command.restoringCall).Nodup
    rw [List.filterMap_append]
    exact (List.append_nil _).symm ▸ h.nodup
  · rcases hmem c hc with hc | rfl
    · exact h.unbroken c hc
    · trivial

lemma Inv.disconnect (h : Inv s) (hcareful : s.Careful .disconnect) : Inv s.disconnect := by
  unfold Session.disconnect
  split
  next => exact h.spawn rfl rfl trivial
  next hconn =>
    have hno := hcareful (by simpa using hconn)
    have hlistening : Inv { s with adapter := { s.adapter with listening := false } } :=
      ⟨h.table, h.ids, h.upper, h.pending, h.lower, h.restoring, h.waiting, h.nodup, h.unbroken⟩
    dsimp only
    split
    next => exact hlistening.disconnected.spawn rfl rfl trivial
    next => exact hlistening.unsubscribeAll hno _ _

/-- The answers change neither what a call restores nor its subscription. -/
lemma getElem?_modify_cases {calls : List AdapterCall} {f : AdapterCall → AdapterCall}
    {c : AdapterCall} {call i : ℕ} (h : (calls.modify call f)[i]? = some c) :
    ∃ old, calls[i]? = some old ∧ (c = old ∨ (i = call ∧ c = f old)) := by
  rw [List.getElem?_modify] at h
  obtain ⟨old, hold, rfl⟩ := Option.map_eq_some_iff.mp h
  refine ⟨old, hold, ?_⟩
  split
  next he => exact .inr ⟨he.symm, rfl⟩
  next => exact .inl rfl

/-- An answer changes only what a call waits for. -/
structure Answers (f : AdapterCall → AdapterCall) : Prop where
  subscription : ∀ c, (f c).subscription = c.subscription
  disconnects : ∀ c, (f c).disconnects = c.disconnects
  restores : ∀ c, (f c).restores = c.restores ∨ (f c).restores = none

lemma answers_connect (reply : Reply) : Answers (AdapterCall.answerConnect reply) where
  subscription c := by unfold AdapterCall.answerConnect; split <;> rfl
  disconnects c := by unfold AdapterCall.answerConnect; split <;> rfl
  restores c := by
    unfold AdapterCall.answerConnect
    split
    · cases reply
      · exact .inl rfl
      · exact .inl rfl
      · exact .inr rfl
    · exact .inl rfl

lemma answers_subscribe (reply : Reply) : Answers (AdapterCall.answerSubscribe reply) where
  subscription c := by unfold AdapterCall.answerSubscribe; split <;> rfl
  disconnects c := by unfold AdapterCall.answerSubscribe; split <;> rfl
  restores c := by unfold AdapterCall.answerSubscribe; split <;> exact .inl rfl

lemma answers_disconnect (reply : Reply) : Answers (AdapterCall.answerDisconnect reply) where
  subscription c := by unfold AdapterCall.answerDisconnect; split <;> rfl
  disconnects c := by unfold AdapterCall.answerDisconnect; split <;> rfl
  restores c := by unfold AdapterCall.answerDisconnect; split <;> exact .inl rfl

/-- **The server takes a command**: nothing new may be subscribed, and what is certain stays
certain, but for a `connect` that has failed. -/
lemma Inv.answer (h : Inv s) {command : Command} {commands : List Command}
    (hcommands : s.commands = command :: commands) {f : AdapterCall → AdapterCall} {call : ℕ}
    {t : Session H} (hsubs : t.adapter.subscriptions = s.adapter.subscriptions)
    (hconn : t.adapter.isConnected = s.adapter.isConnected) (hrest : t.commands = commands)
    (hcalls : t.calls = s.calls.modify call f) (hids : t.ids = s.ids) (hf : Answers f)
    (hunbroken : ∀ c, c.Unbroken → (f c).Unbroken)
    (hwaiting : ∀ ps, f (.restoring ps .waiting) = .restoring ps .waiting ∨
      command.restoringCall = some call)
    (hupper : ∀ q, Upper t q → Upper s q)
    (hlower : ∀ c q, Lower c s q → Lower c t q ∨
      c = some call ∧ ∀ old, s.calls[call]? = some old → (f old).restores = none) : Inv t := by
  have hold {c : AdapterCall} (hc : c ∈ t.calls) : ∃ old ∈ s.calls, c = old ∨ c = f old := by
    rw [hcalls] at hc
    obtain ⟨i, hi⟩ := List.mem_iff_getElem?.mp hc
    obtain ⟨old, hold, hc⟩ := getElem?_modify_cases hi
    exact ⟨old, List.mem_of_getElem? hold, hc.imp_right And.right⟩
  have hpatterns : t.patterns = s.patterns := by rw [patterns, patterns, hsubs]
  have hsubscription {c : AdapterCall} (hc : c ∈ t.calls) {x : String × String}
      (hx : c.subscription = some x) : ∃ old ∈ s.calls, old.subscription = some x := by
    obtain ⟨old, hmem, rfl | rfl⟩ := hold hc
    · exact ⟨c, hmem, hx⟩
    · exact ⟨old, hmem, (hf.subscription old).symm.trans hx⟩
  have hrestores {old : AdapterCall} {ps : List String} (hps : (f old).restores = some ps) :
      old.restores = some ps := by
    rcases hf.restores old with hsame | hnone
    · exact hsame.symm.trans hps
    · rw [hnone] at hps
      cases hps
  refine ⟨fun id e he => ?_, fun c hc id redisPattern hs => ?_, fun q hq => ?_,
    fun c hc ps hps => ?_, fun hc hno => ?_, fun i c ps hi hps q hq => ?_, fun i p hp => ?_, ?_,
    fun c hc => ?_⟩
  · rw [hsubs] at he
    refine ⟨hids ▸ (h.table id e he).1, fun c hc redisPattern hs => ?_⟩
    obtain ⟨old, hmem, hx⟩ := hsubscription hc hs
    exact (h.table id e he).2 old hmem redisPattern hx
  · obtain ⟨old, hmem, hx⟩ := hsubscription hc hs
    exact hids ▸ h.ids old hmem id redisPattern hx
  · exact hpatterns ▸ h.upper q (hupper q hq)
  · rw [hpatterns]
    obtain ⟨old, hmem, rfl | rfl⟩ := hold hc
    · exact h.pending c hmem ps hps
    · exact h.pending old hmem ps (hrestores hps)
  · rw [hpatterns]
    intro q hq
    refine (hlower none q (h.lower (hconn ▸ hc) (fun old hmem => ?_) q hq)).resolve_right nofun
    obtain ⟨i, hi⟩ := List.mem_iff_getElem?.mp hmem
    have hnew : t.calls[i]? = some (if call = i then f old else old) := by
      rw [hcalls, List.getElem?_modify, hi]
      rfl
    have hdisc := hno _ (List.mem_of_getElem? hnew)
    split at hdisc
    · rwa [hf.disconnects] at hdisc
    · exact hdisc
  · rw [hpatterns] at hq
    rw [hcalls] at hi
    obtain ⟨old, hi', hcase⟩ := getElem?_modify_cases hi
    have hps' : old.restores = some ps := by
      rcases hcase with rfl | ⟨-, rfl⟩
      · exact hps
      · exact hrestores hps
    refine (h.restoring i old ps hi' hps' q hq).imp_right fun hl => ?_
    refine (hlower (some i) q hl).resolve_right ?_
    rintro ⟨he, hfailed⟩
    obtain rfl := Option.some.inj he
    have hnew : c = f old := by
      rw [List.getElem?_modify, hi', Option.map_eq_map, Option.map_some, if_pos rfl] at hi
      exact (Option.some.inj hi).symm
    rw [hnew, hfailed old hi'] at hps
    cases hps
  · have hp' : .psubscribe (.connect i) p ∈ s.commands :=
      hcommands ▸ List.mem_cons_of_mem command (hrest ▸ hp)
    obtain ⟨ps, hps⟩ := h.waiting i p hp'
    refine ⟨ps, ?_⟩
    rw [hcalls, List.getElem?_modify, hps, Option.map_eq_map, Option.map_some]
    by_cases hi : call = i
    · rcases hwaiting ps with hsame | hhead
      · rw [if_pos hi]
        exact congrArg some hsame
      · -- a `connect` has one command in flight
        have hnodup := h.nodup
        rw [hcommands, List.filterMap_cons_some hhead, List.nodup_cons] at hnodup
        refine absurd (List.mem_filterMap.mpr ⟨_, hrest ▸ hp, ?_⟩) hnodup.1
        rw [hi]
        rfl
    · rw [if_neg hi]
  · have hnodup := h.nodup
    rw [hcommands, List.filterMap_cons] at hnodup
    rw [hrest]
    split at hnodup
    · exact hnodup
    · exact (List.nodup_cons.mp hnodup).2
  · obtain ⟨old, hmem, rfl | rfl⟩ := hold hc
    · exact h.unbroken c hmem
    · exact hunbroken old (h.unbroken old hmem)

/-- **The server takes a command**, and rejects none of a `subscribe`. -/
lemma Inv.serve (h : Inv s) {accepts : Bool} (hcareful : s.Careful (.serve accepts))
    (hs : s.serve accepts = some s') : Inv s' := by
  unfold Session.serve at hs
  split at hs
  next => cases hs
  next caller p commands hcommands =>
    have hadapter (accepts : Bool) :
        (if accepts then s.adapter.psubscribe p else s.adapter).subscriptions =
            s.adapter.subscriptions ∧
          (if accepts then s.adapter.psubscribe p else s.adapter).isConnected =
            s.adapter.isConnected := by
      cases accepts
      · exact ⟨rfl, rfl⟩
      · exact psubscribe_frame s.adapter p
    have hupper (t : Session H) (hc : t.commands = commands)
        (ha : t.adapter = if accepts then s.adapter.psubscribe p else s.adapter) (q : String)
        (hq : Upper t q) : Upper s q := by
      rw [Upper, hc] at hq
      rw [Upper, hcommands, Settles]
      refine settles_mono (fun _ => id) (fun hnow => ?_) hq
      rw [ha] at hnow
      cases accepts
      · exact .inl hnow
      · exact ((mem_psubscribe s.adapter p q).mp hnow).imp_right fun he => ⟨trivial, he⟩
    have hlower (t : Session H) (hc : t.commands = commands)
        (ha : t.adapter = s.adapter.psubscribe p) (c : Option ℕ) (q : String) (hq : Lower c s q) :
        Lower c t q := by
      rw [Lower, hcommands, Settles] at hq
      rw [Lower, hc, ha]
      refine settles_mono (fun _ => id) (fun hnow => ?_) hq
      exact (mem_psubscribe s.adapter p q).mpr (hnow.imp_right And.right)
    dsimp only at hs
    split at hs
    next call =>
      obtain rfl := Option.some.inj hs
      refine h.answer hcommands (hadapter accepts).1 (hadapter accepts).2 rfl rfl rfl
        (answers_connect _) (fun c hc => ?_) (fun ps => .inr rfl) (hupper _ rfl rfl)
        (fun c q hq => ?_)
      · unfold AdapterCall.answerConnect
        split
        · trivial
        · exact hc
      · cases accepts with
        | true => exact .inl (hlower _ rfl rfl c q hq)
        | false =>
            by_cases hc : c = some call
            · refine .inr ⟨hc, fun old hold => ?_⟩
              obtain ⟨ps, hps⟩ := h.waiting call p (hcommands ▸ List.mem_cons_self)
              rw [← Option.some.inj (hps.symm.trans hold)]
              rfl
            · -- the pattern is not certain for the other calls
              refine .inl ?_
              rw [Lower, hcommands, Settles] at hq
              refine settles_mono (fun _ => id) (fun hnow => ?_) hq
              exact hnow.resolve_right fun hsure => hc hsure.1
    next call =>
      cases accepts with
      | false => exact absurd (congrArg List.head? hcommands) (hcareful call p)
      | true =>
          obtain rfl := Option.some.inj hs
          refine h.answer hcommands (hadapter true).1 (hadapter true).2 rfl rfl rfl
            (answers_subscribe _) (fun c hc => ?_) (fun ps => .inl rfl) (hupper _ rfl rfl)
            (fun c q hq => .inl (hlower _ rfl rfl c q hq))
          unfold AdapterCall.answerSubscribe
          split
          · exact Reply.noConfusion
          · exact hc
  next caller redisPatterns commands hcommands =>
    obtain ⟨hmem, hsubs, hconn⟩ := foldl_punsubscribe redisPatterns s.adapter
    have hnow (q : String) : q ∈ s.adapter.psubscribed ∧ q ∉ redisPatterns ↔
        q ∈ (redisPatterns.foldl punsubscribe s.adapter).psubscribed := (hmem q).symm
    have hupper (t : Session H) (hc : t.commands = commands)
        (ha : t.adapter = redisPatterns.foldl punsubscribe s.adapter) (q : String)
        (hq : Upper t q) : Upper s q := by
      rw [Upper, hc, ha] at hq
      rw [Upper, hcommands, Settles]
      exact settles_mono (fun _ => id) (hnow q).mpr hq
    have hlower (t : Session H) (hc : t.commands = commands)
        (ha : t.adapter = redisPatterns.foldl punsubscribe s.adapter) (c : Option ℕ) (q : String)
        (hq : Lower c s q) : Lower c t q := by
      rw [Lower, hcommands, Settles] at hq
      rw [Lower, hc, ha]
      exact settles_mono (fun _ => id) (hnow q).mp hq
    dsimp only at hs
    split at hs
    next => cases hs
    next =>
      obtain rfl := Option.some.inj hs
      refine @Inv.answer H s h _ _ hcommands id 0 _ hsubs hconn rfl ?_ rfl
        ⟨fun _ => rfl, fun _ => rfl, fun _ => .inl rfl⟩ (fun _ => id) (fun ps => .inl rfl)
        (hupper _ rfl rfl) (fun c q hq => .inl (hlower _ rfl rfl c q hq))
      exact (List.modify_id 0 s.calls).symm
    next call =>
      obtain rfl := Option.some.inj hs
      refine h.answer hcommands hsubs hconn rfl rfl rfl (answers_disconnect _) (fun c hc => ?_)
        (fun ps => .inl rfl) (hupper _ rfl rfl) (fun c q hq => .inl (hlower _ rfl rfl c q hq))
      unfold AdapterCall.answerDisconnect
      split
      · trivial
      · exact hc

/-- What is certain with a `connect` that has no command in flight is certain without it. -/
lemma lower_none {i : ℕ} {q : String}
    (hfree : ∀ redisPattern, .psubscribe (.connect i) redisPattern ∉ s.commands)
    (hq : Lower (some i) s q) : Lower none s q := by
  refine (settles_congr fun caller redisPattern hmem => ?_).mp hq
  cases caller with
  | connect call =>
      refine ⟨fun he => ?_, nofun⟩
      obtain rfl : i = call := Option.some.inj he
      exact absurd hmem (hfree redisPattern)
  | subscribe call => exact Iff.rfl

/-- **A call goes on.** -/
lemma Inv.resume (h : Inv s) {call : ℕ} (hs : s.resume call = some s') : Inv s' := by
  unfold Session.resume at hs
  split at hs
  next hi =>
    obtain rfl := Option.some.inj hs
    exact h.startRestoring hi
  next ps hi =>
    obtain rfl := Option.some.inj hs
    have hfree := h.free hi nofun
    refine h.restoreNext hi rfl hfree (h.pending _ (List.mem_of_getElem? hi) ps rfl) fun q hq => ?_
    exact (h.restoring call _ ps hi rfl q hq).imp_right (lower_none hfree)
  next ps hi =>
    obtain rfl := Option.some.inj hs
    exact h.setCall hi rfl (.inl rfl) trivial (h.free hi nofun) nofun
  next subscriptionId redisPattern hi =>
    obtain rfl := Option.some.inj hs
    exact h.setCall hi rfl (.inr rfl) trivial (h.free hi nofun) nofun
  next subscriptionId redisPattern hi =>
    exact absurd rfl (h.unbroken _ (List.mem_of_getElem? hi))
  next hi =>
    obtain rfl := Option.some.inj hs
    exact h.disconnected.setCall hi rfl (.inl rfl) trivial (h.free hi nofun) fun _ => rfl
  next => cases hs

/-- **Every careful step keeps the table and the connection together.** -/
lemma step_inv (a : TableAction H) (h : Inv s) (hcareful : s.Careful a)
    (hs : s.step a = some s') : Inv s' := by
  cases a with
  | connect clientConnected => exact Option.some.inj hs ▸ h.connect clientConnected
  | subscribe subscriptionId pattern handler => exact h.subscribe hs
  | unsubscribe call => exact h.unsubscribe hcareful hs
  | disconnect => exact Option.some.inj hs ▸ h.disconnect hcareful
  | serve accepts => exact h.serve hcareful hs
  | resume call => exact h.resume hs

/-! ### Once nothing is in flight -/

lemma Inv.mem_psubscribed_iff (h : Inv s) (hquiescent : s.Quiescent)
    (hconn : s.adapter.isConnected = true) (q : String) :
    q ∈ s.adapter.psubscribed ↔ q ∈ s.patterns := by
  obtain ⟨hcommands, hcalls⟩ := hquiescent
  constructor
  · intro hq
    refine h.upper q ?_
    rw [Upper, hcommands]
    exact hq
  · intro hq
    have hlower := h.lower hconn (fun c hc => ?_) q hq
    · rw [Lower, hcommands] at hlower
      exact hlower
    · have hdone := hcalls c hc
      cases c with
      | disconnecting reply => cases hdone
      | _ => rfl

/-- A `subscribe` that throws at once leaves the adapter as it was. -/
lemma subscribe_threw {subscriptionId pattern : String} {handler : H}
    (hs : s.subscribe subscriptionId pattern handler = some s')
    (hthrew : s'.calls = s.calls ++ [.subscribeThrew none]) : s'.adapter = s.adapter := by
  unfold Session.subscribe at hs
  split at hs
  next => cases hs
  next =>
    split at hs
    next =>
      obtain rfl := Option.some.inj hs
      rfl
    next =>
      dsimp only at hs
      split at hs <;>
      · obtain rfl := Option.some.inj hs
        cases List.singleton_inj.mp (List.append_cancel_left hthrew)

/-- The adapter before its first call. -/
def fresh (channelPrefix : String) : Session H := { adapter := { channelPrefix } }

/-- What the table promises: once nothing is in flight the connection has the patterns of the
table, and nothing stays of a `subscribe` that has thrown. -/
def Matches (s : Session H) : Prop :=
  (s.Quiescent → s.adapter.isConnected = true →
    ∀ redisPattern, redisPattern ∈ s.adapter.psubscribed ↔ redisPattern ∈ s.patterns) ∧
  ∀ subscriptionId, .subscribeThrew (some subscriptionId) ∈ s.calls →
    s.adapter.subscriptions.get subscriptionId = none

/-- **The table and the connection along a careful run**: they fit in every state it reaches,
and a `subscribe` that throws at once leaves the adapter as it was. -/
theorem table_matches (channelPrefix : String) {actions : List (TableAction H)}
    (hcareful : Meets step Careful (fresh channelPrefix) actions)
    (hs : exec step (fresh channelPrefix) actions = some s) :
    s.Matches ∧ ∀ subscriptionId pattern handler s',
      s.subscribe subscriptionId pattern handler = some s' →
        s'.calls = s.calls ++ [.subscribeThrew none] → s'.adapter = s.adapter := by
  have h : Inv s := meets_invariant (I := Inv) (fun _ a _ hinv hP hstep => step_inv a hinv hP hstep)
    (inv_init channelPrefix) hcareful hs
  refine ⟨⟨h.mem_psubscribed_iff, fun subscriptionId hthrew => ?_⟩, fun _ _ _ _ => subscribe_threw⟩
  exact absurd (h.unbroken _ hthrew) nofun

/-- A client that connects, subscribes and goes, and connects again. -/
def reconnects : List (TableAction Unit) :=
  [.connect true, .subscribe "sub_1" "user:*" (), .serve true, .resume 1, .disconnect, .serve true,
    .resume 2, .connect true, .serve true, .resume 3]

theorem table_matches_reconnects :
    ∃ s : Session Unit, exec step (fresh "blaize:events") reconnects = some s ∧ s.Matches := by
  refine ⟨_, rfl, (@table_matches Unit _ "blaize:events" reconnects ?_ rfl).1⟩
  refine ⟨trivial, trivial, trivial, trivial, fun _ c hc => ?_, trivial, trivial, trivial, trivial,
    trivial, trivial⟩
  rcases List.mem_cons.mp hc with rfl | hc
  · rfl
  · exact List.mem_singleton.mp hc ▸ rfl

/-- The `psubscribe` of the first subscriber of a pattern is rejected, that of the second one is
never issued. -/
def poisoned : List (TableAction Unit) :=
  [.connect true, .subscribe "sub_1" "user:*" (), .serve false, .resume 1,
    .subscribe "sub_2" "user:*" ()]

theorem not_table_matches :
    ¬ ∀ (actions : List (TableAction Unit)) s,
      exec step (fresh "blaize:events") actions = some s → s.Matches := by
  intro h
  have hrun := h poisoned _ rfl
  have hpatterns := (hrun.1 ⟨rfl, by decide⟩ rfl "blaize:events:user:*").mpr (by decide)
  revert hpatterns
  decide

end Session

end Blaize.Events
