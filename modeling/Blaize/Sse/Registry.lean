import Mathlib.Data.Int.Notation
import Mathlib.Tactic.Common
import Blaize.Lib.OrdMap

/-!
The registry of the event streams (`packages/blaize-core/src/sse/connection-registry.ts`).

Closing a stream runs code that the registry does not know: the callback that `add` has left there,
which removes the connection, and the callbacks of others, which may call the registry again.  So
each call of `cleanup` and `shutdown` comes with the calls that the closing of a stream makes.

* `ConnectionRegistry.add`, `remove`, `run`: the operations;
* `Counted`: the counts are those of the registered connections, and within the limits;
* `Timed`: the timer runs exactly while there are connections;
* `run_invariant`: what `remove` keeps and an empty registry has, nested calls keep;
* `Exact`, `exact_exec`: **the counts are exact after any run**.
-/

namespace Blaize.Sse

/-- The options of the registry, with their defaults. -/
structure RegistryConfig where
  maxConnections : ℕ := 10000
  maxConnectionsPerClient : ℕ := 100
  inactiveTimeout : ℕ := 30 * 60 * 1000
  cleanupInterval : ℕ := 60 * 1000

/-- A connection, without its stream. -/
structure ConnectionEntry where
  connectedAt : ℕ
  lastActivity : ℕ
  clientIp : Option String
  userAgent : Option String
  deriving DecidableEq

/-- The fields of the registry. -/
structure ConnectionRegistry where
  connections : OrdMap String ConnectionEntry := ∅
  clientConnectionCounts : OrdMap String ℕ := ∅
  /-- Whether `cleanupTimer` is set. -/
  cleanupTimer : Bool := false

/-- `metadata` -/
structure Metadata where
  clientIp : Option String
  userAgent : Option String

/-- An address that is neither missing nor empty. -/
def known : Option String → Option String
  | some "" => none
  | clientIp => clientIp

variable (settings : RegistryConfig)

namespace ConnectionRegistry

variable (r : ConnectionRegistry)

/-- Starts the timer of the cleanup, unless it runs. -/
def startCleanupTimer : ConnectionRegistry :=
  if ¬ r.cleanupTimer ∧ 0 < settings.cleanupInterval then { r with cleanupTimer := true } else r

/-- Stops the timer of the cleanup. -/
def stopCleanupTimer : ConnectionRegistry := { r with cleanupTimer := false }

/-- The number of the connections of a client changes. -/
def updateClientCount (clientIp : Option String) (delta : ℤ) : ConnectionRegistry :=
  match known clientIp with
  | none => r
  | some clientIp =>
      let current := (r.clientConnectionCounts.get clientIp).getD 0
      let newCount : ℤ := current + delta
      if newCount ≤ 0 then
        { r with clientConnectionCounts := r.clientConnectionCounts.delete clientIp }
      else
        { r with
          clientConnectionCounts := r.clientConnectionCounts.set clientIp newCount.toNat }

/-- `registry.remove(id)` -/
def remove (id : String) : ConnectionRegistry :=
  match r.connections.get id with
  | none => r
  | some entry =>
      let r := { r with connections := r.connections.delete id }
      let r := r.updateClientCount entry.clientIp (-1)
      if r.connections.size = 0 then r.stopCleanupTimer else r

/-- The limit for one client. -/
def clientFull (metadata : Metadata) : Bool :=
  match known metadata.clientIp with
  | none => false
  | some clientIp =>
      settings.maxConnectionsPerClient ≤ (r.clientConnectionCounts.get clientIp).getD 0

/-- `add`; a stream that is `closed` already runs the callback at once. -/
def add (id : String) (metadata : Metadata) (now : ℕ) (closed : Bool) :
    Except String Unit × ConnectionRegistry :=
  if r.connections.has id then (.error ("Connection with ID " ++ id ++ " already exists"), r)
  else if settings.maxConnections ≤ r.connections.size then
    (.error ("Maximum connection limit reached (" ++ toString settings.maxConnections ++ ")"), r)
  else if r.clientFull settings metadata then
    (.error ("Maximum connections per client reached (" ++
      toString settings.maxConnectionsPerClient ++ ")"), r)
  else
    let entry : ConnectionEntry :=
      { connectedAt := now
        lastActivity := now
        clientIp := metadata.clientIp
        userAgent := metadata.userAgent }
    let r := { r with connections := r.connections.set id entry }
    let r := r.updateClientCount metadata.clientIp 1
    let r := if r.connections.size = 1 then r.startCleanupTimer settings else r
    (.ok (), if closed then r.remove id else r)

end ConnectionRegistry

/-- Calls of the registry that add nothing.  `closing id` are the calls that the closing of the
stream `id` makes; `isClosed` is what `cleanup` reads of a stream. -/
inductive Calls where
  | done
  | remove (id : String) (rest : Calls)
  | cleanup (now : ℕ) (isClosed : String → Bool) (closing : String → Calls) (rest : Calls)
  | shutdown (closing : String → Calls) (rest : Calls)

namespace ConnectionRegistry

/-- One connection that `cleanup` looks at, unless it was removed meanwhile. -/
def inspect (now : ℕ) (isClosed : String → Bool) (close : String → ConnectionRegistry →
    ConnectionRegistry) (acc : ConnectionRegistry × List String) (id : String) :
    ConnectionRegistry × List String :=
  match acc.1.connections.get id with
  | none => acc
  | some entry =>
      let isInactive := settings.inactiveTimeout < now - entry.lastActivity
      if isInactive ∨ isClosed id then (close id acc.1, acc.2 ++ [id]) else acc

/-- One connection that `shutdown` looks at. -/
def disconnect (close : String → ConnectionRegistry → ConnectionRegistry) (r : ConnectionRegistry)
    (id : String) : ConnectionRegistry :=
  if r.connections.has id then close id r else r

/-- The calls, one after the other. -/
def run : Calls → ConnectionRegistry → ConnectionRegistry
  | .done, r => r
  | .remove id rest, r => run rest (r.remove id)
  | .cleanup now isClosed closing rest, r =>
      let (r, idsToRemove) := r.connections.keys.foldl
        (inspect settings now isClosed fun id => run (closing id)) (r, [])
      run rest (idsToRemove.foldl remove r)
  | .shutdown closing rest, r =>
      let r := r.stopCleanupTimer
      let r := r.connections.keys.foldl (disconnect fun id => run (closing id)) r
      run rest { r with connections := ∅, clientConnectionCounts := ∅ }

/-! ### Counts -/

variable (r : ConnectionRegistry)

/-- The number of registered connections with an address. -/
def connectionsOf (ip : String) : ℕ := r.connections.count fun _ entry => entry.clientIp = some ip

/-- No count of zero is stored. -/
def countOf (n : ℕ) : Option ℕ := if n = 0 then none else some n

/-- The counts are those of the registered connections, and within the limits. -/
structure Counted : Prop where
  counts : ∀ ip, r.clientConnectionCounts.get ip =
    if ip = "" then none else countOf (r.connectionsOf ip)
  total : r.connections.size ≤ settings.maxConnections
  perClient : ∀ ip, ip ≠ "" → r.connectionsOf ip ≤ settings.maxConnectionsPerClient

variable {settings r}

lemma known_eq_some_iff {clientIp : Option String} {ip : String} :
    known clientIp = some ip ↔ clientIp = some ip ∧ ip ≠ "" := by
  unfold known
  split
  next => exact iff_of_false nofun fun h => h.2 (Option.some.inj h.1).symm
  next hne =>
    refine ⟨fun h => ⟨h, ?_⟩, And.left⟩
    rintro rfl
    exact hne h

@[simp] lemma getD_countOf (n : ℕ) : (countOf n).getD 0 = n := by
  unfold countOf
  split
  next hzero => exact hzero.symm
  next => rfl

lemma countOf_ne_zero (n : ℕ) : countOf n ≠ some 0 := by
  unfold countOf
  split
  next => exact nofun
  next hne => exact fun h => hne (Option.some.inj h)

lemma get_updateClientCount (clientIp : Option String) (delta : ℤ) (ip : String) :
    (r.updateClientCount clientIp delta).clientConnectionCounts.get ip =
      if known clientIp = some ip then
        countOf (((r.clientConnectionCounts.get ip).getD 0 : ℕ) + delta).toNat
      else r.clientConnectionCounts.get ip := by
  unfold updateClientCount
  cases hknown : known clientIp with
  | none => rw [if_neg nofun]
  | some client =>
      dsimp only
      by_cases hip : client = ip
      · subst hip
        rw [if_pos rfl, countOf]
        split
        next hle => rw [OrdMap.get_delete, if_pos rfl, if_pos (by omega)]
        next hlt => rw [OrdMap.get_set_self, if_neg (by omega)]
      · rw [if_neg (fun h => hip (Option.some.inj h))]
        split
        · rw [OrdMap.get_delete_ne _ hip]
        · rw [OrdMap.get_set_ne _ _ hip]

@[simp] lemma connections_updateClientCount (clientIp : Option String) (delta : ℤ) :
    (r.updateClientCount clientIp delta).connections = r.connections := by
  unfold updateClientCount
  split
  · rfl
  · dsimp only
    split <;> rfl

lemma Counted.empty : ({} : ConnectionRegistry).Counted settings :=
  ⟨fun _ => (ite_self none).symm, Nat.zero_le _, fun _ _ => Nat.zero_le _⟩

/-- What `add` reads. -/
lemma Counted.getD_counts (h : r.Counted settings) {ip : String} (hip : ip ≠ "") :
    (r.clientConnectionCounts.get ip).getD 0 = r.connectionsOf ip := by
  rw [h.counts, if_neg hip, getD_countOf]

/-- The counts after a step in which the connections of a client changed by `delta`. -/
lemma Counted.update (h : r.Counted settings) {r' : ConnectionRegistry}
    (hcounts : r'.clientConnectionCounts = r.clientConnectionCounts) {clientIp : Option String}
    {delta : ℤ} (hdelta : ∀ ip, (r'.connectionsOf ip : ℤ) =
      r.connectionsOf ip + if clientIp = some ip then delta else 0)
    (htotal : r'.connections.size ≤ settings.maxConnections)
    (hperClient : ∀ ip, ip ≠ "" → r'.connectionsOf ip ≤ settings.maxConnectionsPerClient) :
    (r'.updateClientCount clientIp delta).Counted settings := by
  have hsame (ip : String) :
      (r'.updateClientCount clientIp delta).connectionsOf ip = r'.connectionsOf ip := by
    rw [connectionsOf, connections_updateClientCount, connectionsOf]
  refine ⟨fun ip => ?_, by rwa [connections_updateClientCount], fun ip hip => ?_⟩
  · rw [get_updateClientCount, hcounts, h.counts, hsame]
    have hip := hdelta ip
    by_cases hknown : known clientIp = some ip
    · obtain ⟨hclient, hne⟩ := known_eq_some_iff.mp hknown
      rw [if_pos hclient] at hip
      rw [if_pos hknown, if_neg hne, if_neg hne]
      rw [getD_countOf, ← hip]
      rfl
    · rw [if_neg hknown]
      by_cases hne : ip = ""
      · rw [if_pos hne, if_pos hne]
      · rw [if_neg hne, if_neg hne]
        rw [if_neg fun hclient => hknown (known_eq_some_iff.mpr ⟨hclient, hne⟩)] at hip
        rw [show r'.connectionsOf ip = r.connectionsOf ip by omega]
  · rw [hsame]
    exact hperClient ip hip

/-- A timer is none of the counts. -/
lemma Counted.of_eq (h : r.Counted settings) {r' : ConnectionRegistry}
    (hconnections : r'.connections = r.connections)
    (hcounts : r'.clientConnectionCounts = r.clientConnectionCounts) : r'.Counted settings := by
  have hsame (ip : String) : r'.connectionsOf ip = r.connectionsOf ip := by
    rw [connectionsOf, hconnections, connectionsOf]
  refine ⟨fun ip => ?_, by rw [hconnections]; exact h.total, fun ip hip => ?_⟩
  · rw [hcounts, hsame]
    exact h.counts ip
  · rw [hsame]
    exact h.perClient ip hip

/-- **`remove` keeps the counts.** -/
lemma Counted.remove (h : r.Counted settings) (id : String) : (r.remove id).Counted settings := by
  unfold ConnectionRegistry.remove
  split
  next => exact h
  next entry hentry =>
    have hcount (ip : String) : (r.connections.delete id).count
        (fun _ e => e.clientIp = some ip) + (decide (entry.clientIp = some ip)).toNat =
          r.connectionsOf ip := by
      have hdelete := r.connections.count_delete (fun _ e => e.clientIp = some ip) id
      rwa [hentry] at hdelete
    have hcounted : (updateClientCount { r with connections := r.connections.delete id }
        entry.clientIp (-1)).Counted settings := by
      refine h.update (by rfl) (fun ip => ?_) ?_ fun ip hip => ?_
      · have hip := hcount ip
        rw [connectionsOf, ← hip]
        by_cases hclient : entry.clientIp = some ip
        · rw [if_pos hclient, decide_eq_true hclient, Bool.toNat_true]
          dsimp only
          omega
        · rw [if_neg hclient, decide_eq_false hclient, Bool.toNat_false]
          dsimp only
          omega
      · exact Nat.le_trans (r.connections.size_delete_le id) h.total
      · have hle := hcount ip
        have hlimit := h.perClient ip hip
        rw [connectionsOf]
        dsimp only
        omega
    dsimp only
    split
    · exact hcounted.of_eq rfl rfl
    · exact hcounted

/-- **`add` keeps the counts**: the limits are checked before. -/
lemma Counted.add (h : r.Counted settings) (id : String) (metadata : Metadata) (now : ℕ)
    (closed : Bool) : (r.add settings id metadata now closed).2.Counted settings := by
  unfold ConnectionRegistry.add
  split
  next => exact h
  next hhas =>
  split
  next => exact h
  next htotal =>
  split
  next => exact h
  next hclient =>
    rw [Bool.not_eq_true] at hhas
    have hnone := r.connections.has_eq_false_iff.mp hhas
    have hcount (entry : ConnectionEntry) (ip : String) : (r.connections.set id entry).count
        (fun _ e => e.clientIp = some ip) =
          r.connectionsOf ip + (decide (entry.clientIp = some ip)).toNat := by
      rw [OrdMap.count_set, r.connections.delete_of_get_none hnone]
      rfl
    have hcounted (entry : ConnectionEntry) (hentry : entry.clientIp = metadata.clientIp) :
        (updateClientCount { r with connections := r.connections.set id entry }
          metadata.clientIp 1).Counted settings := by
      refine h.update (by rfl) (fun ip => ?_) ?_ fun ip hip => ?_
      · rw [connectionsOf, hcount, hentry]
        by_cases hip : metadata.clientIp = some ip <;> simp [hip]
      · show (r.connections.set id entry).size ≤ _
        rw [OrdMap.size_set, hhas, if_neg Bool.false_ne_true]
        omega
      · rw [connectionsOf, hcount, hentry]
        by_cases hclientIp : metadata.clientIp = some ip
        · -- one below the limit
          rw [clientFull, known_eq_some_iff.mpr ⟨hclientIp, hip⟩] at hclient
          simp only [h.getD_counts hip, decide_eq_true_eq, Nat.not_le] at hclient
          rw [decide_eq_true hclientIp]
          exact hclient
        · simpa [hclientIp] using h.perClient ip hip
    have htimed (r' : ConnectionRegistry) (hr' : r'.Counted settings) :
        (if r'.connections.size = 1 then r'.startCleanupTimer settings else r').Counted
          settings := by
      unfold startCleanupTimer
      split
      · split
        · exact hr'.of_eq rfl rfl
        · exact hr'
      · exact hr'
    dsimp only
    split
    · exact (htimed _ (hcounted _ rfl)).remove id
    · exact htimed _ (hcounted _ rfl)

/-! ### The calls -/

lemma foldl_inspect {P : ConnectionRegistry → Prop} {close : String → ConnectionRegistry →
    ConnectionRegistry} (hclose : ∀ id r, P r → P (close id r)) (now : ℕ)
    (isClosed : String → Bool) (ids : List String) {acc : ConnectionRegistry × List String}
    (h : P acc.1) : P (ids.foldl (inspect settings now isClosed close) acc).1 := by
  induction ids generalizing acc with
  | nil => exact h
  | cons id ids ih =>
      refine ih ?_
      unfold inspect
      split
      · exact h
      · dsimp only
        split
        · exact hclose id acc.1 h
        · exact h

lemma foldl_disconnect {P : ConnectionRegistry → Prop} {close : String → ConnectionRegistry →
    ConnectionRegistry} (hclose : ∀ id r, P r → P (close id r)) (ids : List String)
    (h : P r) : P (ids.foldl (disconnect close) r) := by
  induction ids generalizing r with
  | nil => exact h
  | cons id ids ih =>
      refine ih ?_
      unfold disconnect
      split
      · exact hclose id r h
      · exact h

lemma foldl_remove {P : ConnectionRegistry → Prop} (hremove : ∀ r id, P r → P (r.remove id))
    (ids : List String) (h : P r) : P (ids.foldl ConnectionRegistry.remove r) := by
  induction ids generalizing r with
  | nil => exact h
  | cons id ids ih => exact ih (hremove r id h)

lemma cleanupTimer_updateClientCount (clientIp : Option String) (delta : ℤ) :
    (r.updateClientCount clientIp delta).cleanupTimer = r.cleanupTimer := by
  unfold updateClientCount
  split
  · rfl
  · dsimp only
    split <;> rfl

lemma cleanupTimer_remove (h : r.cleanupTimer = false) (id : String) :
    (r.remove id).cleanupTimer = false := by
  unfold remove
  split
  · exact h
  · dsimp only
    split
    · rfl
    · rw [cleanupTimer_updateClientCount]
      exact h

/-- Without `add` no timer is started. -/
lemma cleanupTimer_run (calls : Calls) (h : r.cleanupTimer = false) :
    (run settings calls r).cleanupTimer = false := by
  induction calls generalizing r with
  | done => exact h
  | remove id rest ih =>
      rw [run]
      exact ih (cleanupTimer_remove h id)
  | cleanup now isClosed closing rest ihclosing ih =>
      rw [run]
      refine ih (foldl_remove (P := fun r => r.cleanupTimer = false)
        (fun r id h => cleanupTimer_remove h id) _ ?_)
      exact foldl_inspect (P := fun r => r.cleanupTimer = false)
        (fun id r h => ihclosing id h) now isClosed _ h
  | shutdown closing rest ihclosing ih =>
      rw [run]
      refine ih ?_
      exact foldl_disconnect (P := fun r => r.cleanupTimer = false)
        (fun id r h => ihclosing id h) _ rfl

/-- **What `remove` keeps and an empty registry has, all calls keep**: calls inside of calls too. -/
theorem run_invariant {P : ConnectionRegistry → Prop} (hremove : ∀ r id, P r → P (r.remove id))
    (hempty : P {}) (calls : Calls) (h : P r) : P (run settings calls r) := by
  induction calls generalizing r with
  | done => exact h
  | remove id rest ih =>
      rw [run]
      exact ih (hremove r id h)
  | cleanup now isClosed closing rest ihclosing ih =>
      rw [run]
      refine ih (foldl_remove hremove _ ?_)
      exact foldl_inspect (fun id r h => ihclosing id h) now isClosed _ h
  | shutdown closing rest ihclosing ih =>
      rw [run]
      refine ih ?_
      have htimer : (r.stopCleanupTimer.connections.keys.foldl
          (disconnect fun id => run settings (closing id)) r.stopCleanupTimer).cleanupTimer =
            false :=
        foldl_disconnect (P := fun r => r.cleanupTimer = false)
          (fun id r h => cleanupTimer_run (closing id) h) _ rfl
      rw [htimer]
      exact hempty

/-! ### The timer -/

/-- The timer runs exactly while there are connections. -/
def Timed (settings : RegistryConfig) (r : ConnectionRegistry) : Prop :=
  0 < settings.cleanupInterval → (r.cleanupTimer = true ↔ r.connections.size ≠ 0)

lemma Timed.empty : ({} : ConnectionRegistry).Timed settings :=
  fun _ => iff_of_false nofun fun h => h rfl

lemma Timed.remove (h : r.Timed settings) (id : String) : (r.remove id).Timed settings := by
  intro hinterval
  unfold ConnectionRegistry.remove
  split
  next => exact h hinterval
  next entry hentry =>
    dsimp only
    rw [connections_updateClientCount]
    split
    next hzero =>
      refine iff_of_false nofun fun hne => hne ?_
      rw [← hzero]
      exact congrArg OrdMap.size (connections_updateClientCount _ _)
    next hne =>
      rw [cleanupTimer_updateClientCount, connections_updateClientCount]
      refine iff_of_true ((h hinterval).mpr fun hzero => hne ?_) hne
      have hle := r.connections.size_delete_le id
      dsimp only
      omega

lemma Timed.add (h : r.Timed settings) (id : String) (metadata : Metadata) (now : ℕ)
    (closed : Bool) : (r.add settings id metadata now closed).2.Timed settings := by
  unfold ConnectionRegistry.add
  split
  next => exact h
  next hhas =>
  split
  next => exact h
  next =>
  split
  next => exact h
  next =>
    rw [Bool.not_eq_true] at hhas
    have hstarted (entry : ConnectionEntry) (r' : ConnectionRegistry)
        (hr' : r' = updateClientCount { r with connections := r.connections.set id entry }
          metadata.clientIp 1) :
        (if r'.connections.size = 1 then r'.startCleanupTimer settings else r').Timed
          settings := by
      intro hinterval
      have hsize : r'.connections.size = r.connections.size + 1 := by
        rw [hr', connections_updateClientCount]
        dsimp only
        rw [OrdMap.size_set, hhas, if_neg Bool.false_ne_true]
      have htimer : r'.cleanupTimer = r.cleanupTimer := by
        rw [hr', cleanupTimer_updateClientCount]
      split
      next hone =>
        unfold startCleanupTimer
        split
        next => exact iff_of_true rfl (by dsimp only; omega)
        next hnot =>
          refine iff_of_true ?_ (by omega)
          by_contra hoff
          exact hnot ⟨by simpa using hoff, hinterval⟩
      next hmany =>
        rw [htimer]
        exact iff_of_true ((h hinterval).mpr (by omega)) (by omega)
    dsimp only
    split
    · exact (hstarted _ _ rfl).remove id
    · exact hstarted _ _ rfl

end ConnectionRegistry

/-! ### Runs -/

/-- What can happen next. -/
inductive RegistryStep where
  | add (id : String) (metadata : Metadata) (now : ℕ) (closed : Bool)
  | calls (calls : Calls)

namespace ConnectionRegistry

/-- What a step does. -/
def step (r : ConnectionRegistry) : RegistryStep → ConnectionRegistry
  | .add id metadata now closed => (r.add settings id metadata now closed).2
  | .calls calls => r.run settings calls

/-- The registry after some steps. -/
def exec (steps : List RegistryStep) : ConnectionRegistry := steps.foldl (step settings) {}

/-- The counts are exact, and within the limits; the timer runs exactly while it has to; and a
refused connection changes nothing. -/
structure Exact (settings : RegistryConfig) (r : ConnectionRegistry) : Prop where
  counts : ∀ ip, ip ≠ "" → (r.clientConnectionCounts.get ip).getD 0 = r.connectionsOf ip
  noZero : ∀ ip, r.clientConnectionCounts.get ip ≠ some 0
  total : r.connections.size ≤ settings.maxConnections
  perClient : ∀ ip n, r.clientConnectionCounts.get ip = some n →
    n ≤ settings.maxConnectionsPerClient
  timer : 0 < settings.cleanupInterval → (r.cleanupTimer = true ↔ r.connections.size ≠ 0)
  refused : ∀ id metadata now closed error,
    (r.add settings id metadata now closed).1 = .error error →
      (r.add settings id metadata now closed).2 = r

/-- A refused connection has changed nothing. -/
lemma add_refused {r : ConnectionRegistry} {id : String} {metadata : Metadata} {now : ℕ}
    {closed : Bool} {error : String}
    (h : (r.add settings id metadata now closed).1 = .error error) :
    (r.add settings id metadata now closed).2 = r := by
  unfold add at h ⊢
  split
  next => rfl
  next hhas =>
  rw [if_neg hhas] at h
  split
  next => rfl
  next htotal =>
  rw [if_neg htotal] at h
  split
  next => rfl
  next hclient =>
    rw [if_neg hclient] at h
    cases h

/-- **Every step keeps the counts and the timer.** -/
lemma step_invariant {r : ConnectionRegistry} (h : r.Counted settings ∧ r.Timed settings)
    (s : RegistryStep) :
    (step settings r s).Counted settings ∧ (step settings r s).Timed settings := by
  cases s with
  | add id metadata now closed =>
      exact ⟨h.1.add id metadata now closed, h.2.add id metadata now closed⟩
  | calls calls =>
      exact ⟨run_invariant (fun r id hr => hr.remove id) .empty calls h.1,
        run_invariant (fun r id hr => hr.remove id) .empty calls h.2⟩

lemma exec_invariant (steps : List RegistryStep) :
    (exec settings steps).Counted settings ∧ (exec settings steps).Timed settings := by
  induction steps using List.reverseRecOn with
  | nil => exact ⟨.empty, .empty⟩
  | append_singleton steps s ih =>
      rw [exec, List.foldl_append]
      exact step_invariant settings ih s

/-- **The connection counts are exact after any run.** -/
theorem exact_exec (settings : RegistryConfig) (steps : List RegistryStep) :
    Exact settings (exec settings steps) := by
  obtain ⟨hcounted, htimed⟩ := exec_invariant settings steps
  refine ⟨fun ip hip => ?_, fun ip hzero => ?_, hcounted.total, fun ip n hn => ?_, htimed,
    fun id metadata now closed error => add_refused settings⟩
  · exact hcounted.getD_counts hip
  · rw [hcounted.counts] at hzero
    split at hzero
    · cases hzero
    · exact countOf_ne_zero _ hzero
  · by_cases hip : ip = ""
    · rw [hcounted.counts, if_pos hip] at hn
      cases hn
    · have hcount : n = (exec settings steps).connectionsOf ip := by
        rw [← hcounted.getD_counts hip, hn]
        rfl
      rw [hcount]
      exact hcounted.perClient ip hip

end ConnectionRegistry

end Blaize.Sse
