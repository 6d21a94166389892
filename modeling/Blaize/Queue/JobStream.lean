import Blaize.Queue.Storage

/-!
The event stream of one job (`jobStreamHandler` in `plugins/queue/src/routes.ts`), as its client
sees it.

* `Monitor`: the handler with its stream: before the job is looked up, and then with its
  subscriptions to the event bus and the lookups of failed jobs that have not settled;
* `step`: the lookup settles, an event is published, a lookup of a failed job settles, or the
  client goes;
* `Orderly`: what holds after every run: no subscription without a stream, and nothing behind an
  event that ends the job (`orderly_run`);
* `endTold_iff`: **when the client is told that the job has ended**: the handler must have looked
  the job up in time.

What the stream does with an event is up to its buffer and its schemas, and given with each step
(`Taking`).  `sent` is what comes to the response before its end: a typed stream still hands on what
is sent after the handler has closed it, and nobody gets that.
-/

namespace Blaize.Queue

/-- The types of the events, without `queue:job:`. -/
inductive JobEventType where
  | enqueued
  | started
  | progress
  | completed
  | failed
  | cancelled
  deriving DecidableEq

/-- The types of the events that end a job. -/
def JobEventType.isFinal : JobEventType → Bool
  | .completed | .failed | .cancelled => true
  | .enqueued | .started | .progress => false

namespace JobStream

variable {V : Type}

/-- A value of an event: one that came with it, or one that the handler makes itself. -/
inductive Datum (V : Type) where
  | given (value : V)
  | text (text : String)
  | number (number : ℕ)

/-- `data.error`: a text, or an object with or without a message that is not empty. -/
inductive ErrorData where
  | text (text : String)
  | other (message : Option String)

/-- `event.data`; the progress is missing if it is 0. -/
structure EventData (V : Type) where
  jobId : String
  queueName : String
  jobType : V
  priority : V
  progress : Option V
  message : V
  result : V
  error : ErrorData
  reason : V
  timestamp : V
  serverId : V

/-- An event of the stream. -/
inductive Payload (V : Type) where
  | enqueued (jobType priority timestamp serverId : V)
  | started (jobType timestamp serverId : V)
  | progress (progress message timestamp : Datum V)
  | completed (jobType : Datum V) (result : Option V) (timestamp serverId : Datum V)
  | failed (jobType : Datum V) (message : String) (code : Option String)
      (timestamp serverId : Datum V)
  | cancelled (reason timestamp serverId : Datum V)

/-- An event about a job. -/
structure JobEvent (V : Type) where
  jobId : String
  queueName : String
  payload : Payload V

/-- What is sent: an event of the job, or the error of a handler that threw. -/
inductive Sent (V : Type) where
  | event (event : JobEvent V)
  | error

/-- The type of an event. -/
def Payload.type : Payload V → JobEventType
  | .enqueued .. => .enqueued
  | .started .. => .started
  | .progress .. => .progress
  | .completed .. => .completed
  | .failed .. => .failed
  | .cancelled .. => .cancelled

/-- Whether a job is over after what was sent. -/
def Sent.isFinal : Sent V → Bool
  | .event e => e.payload.type.isFinal
  | .error => false

/-- What the stream does with an event. -/
inductive Taking where
  | taken
  /-- The schema of a typed stream refuses the data, or the base throws: an error event is sent in
  the place of the event, and `send` returns. -/
  | refused
  /-- `send` returns without sending: by `drop-newest`, or because a typed stream could not send the
  error event either. -/
  | dropped
  /-- The base of a typed stream closes itself by the overflow of its buffer, and `send` returns. -/
  | closed
  | thrown
  | overflown
  deriving DecidableEq

/-- The handler of one client, and its stream. -/
structure Monitor (V : Type) where
  /-- The job is being looked up. -/
  awaiting : Bool := true
  isOpen : Bool := true
  sent : List (Sent V) := []
  /-- The handler is subscribed to all the events. -/
  subscribed : Bool := false
  /-- The stream unsubscribes it when it closes. -/
  hooked : Bool := false
  /-- The failed jobs that are being looked up. -/
  lookups : List (EventData V) := []

namespace Monitor

/-- `stream.close()`, with the callback of `onClose`. -/
def close (s : Monitor V) : Monitor V :=
  if s.isOpen then { s with isOpen := false, subscribed := s.subscribed && !s.hooked } else s

/-- `stream.send` while the stream is open: the second component is whether it returns. -/
def take (s : Monitor V) (sent : Sent V) : Taking → Monitor V × Bool
  | .taken => ({ s with sent := s.sent ++ [sent] }, true)
  | .refused => ({ s with sent := s.sent ++ [.error] }, true)
  | .dropped => (s, true)
  | .closed => (s.close, true)
  | .thrown => (s, false)
  | .overflown => (s.close, false)

/-- Of a closed stream it does not matter whether `send` throws. -/
def send (s : Monitor V) (sent : Sent V) (taking : Taking) : Monitor V × Bool :=
  if s.isOpen then s.take sent taking else (s, false)

/-- `try { stream.send(…) } catch { … }` -/
def trySend (s : Monitor V) (sent : Sent V) (taking : Taking) : Monitor V := (s.send sent taking).1

/-- `try { stream.send(…); stream.close() } catch { … }` -/
def sendFinal (s : Monitor V) (sent : Sent V) (taking : Taking) : Monitor V :=
  let sending := s.send sent taking
  if sending.2 then sending.1.close else sending.1

/-- `eventBus.subscribe` for all types, and `stream.onClose`, which calls back at once if the
stream is closed. -/
def subscribe (s : Monitor V) : Monitor V :=
  if s.isOpen then { s with subscribed := true, hooked := true } else s

end Monitor

/-- The query of the request. -/
structure JobStreamQuery where
  jobId : String
  queueName : Option String

/-- `queueName && data.queueName !== queueName`, negated -/
def JobStreamQuery.isQueue (query : JobStreamQuery) (queueName : String) : Bool :=
  match query.queueName with
  | none => true
  | some name => name = "" || queueName = name

/-- Whether an event is for the client; those of the progress have no name of a queue. -/
def JobStreamQuery.concerns (query : JobStreamQuery) (type : JobEventType) (data : EventData V) :
    Bool :=
  data.jobId = query.jobId && (type = .progress || query.isQueue data.queueName)

/-- The message of an error. -/
def ErrorData.toMessage : ErrorData → String
  | .text message => message
  | .other message => message.getD "Unknown error"

/-- What is sent for a published event; `code` is that of the job that was looked up. -/
def sentFor (query : JobStreamQuery) (type : JobEventType) (data : EventData V)
    (code : Option String) : Sent V :=
  match type with
  | .enqueued => .event ⟨data.jobId, data.queueName,
      .enqueued data.jobType data.priority data.timestamp data.serverId⟩
  | .started => .event ⟨data.jobId, data.queueName,
      .started data.jobType data.timestamp data.serverId⟩
  | .progress => .event ⟨data.jobId, query.queueName.getD "",
      .progress (data.progress.elim (.number 0) .given) (.given data.message)
        (.given data.timestamp)⟩
  | .completed => .event ⟨data.jobId, data.queueName,
      .completed (.given data.jobType) (some data.result) (.given data.timestamp)
        (.given data.serverId)⟩
  | .failed => .event ⟨data.jobId, data.queueName,
      .failed (.given data.jobType) data.error.toMessage code (.given data.timestamp)
        (.given data.serverId)⟩
  | .cancelled => .event ⟨data.jobId, data.queueName,
      .cancelled (.given data.reason) (.given data.timestamp) (.given data.serverId)⟩

/-- `job.completedAt || Date.now()` -/
def endedAt (job : Job V) (now : ℕ) : Datum V :=
  match job.completedAt with
  | some at' => .number (if at' = 0 then now else at')
  | none => .number now

/-- What is sent for a job that has ended before it was looked up. -/
def sentInitially (job : Job V) (now : ℕ) : Option (Sent V) :=
  match job.status with
  | .completed => some (.event ⟨job.id, job.queueName,
      .completed (.text job.type) job.result (endedAt job now) (.text "")⟩)
  | .failed => some (.event ⟨job.id, job.queueName,
      .failed (.text job.type)
        (match job.error with
          | some error => if error.message = "" then "Unknown error" else error.message
          | none => "Unknown error")
        (job.error.bind (·.code)) (endedAt job now) (.text "")⟩)
  | .cancelled => some (.event ⟨job.id, job.queueName,
      .cancelled (.text "Job was cancelled") (endedAt job now) (.text "")⟩)
  | .queued | .running => none

/-- What can happen next. -/
inductive Action (V : Type) where
  /-- The first lookup settles: with the job, or with none, or it throws. -/
  | found (job : Option (Job V)) (now : ℕ) (taking : Taking)
  | published (type : JobEventType) (data : EventData V) (taking : Taking)
  /-- The lookup of a failed job settles, with its error code if it has one, or it throws. -/
  | looked (index : ℕ) (code : Option (Option String)) (taking : Taking)
  | disconnected

/-- The handler goes on behind the lookup: it throws if there is no job, and the route then sends
the error and closes the stream. -/
def Monitor.resume (s : Monitor V) (job : Option (Job V)) (now : ℕ) (taking : Taking) :
    Monitor V :=
  match job with
  | none => (s.trySend .error taking).close
  | some job =>
      match sentInitially job now with
      | none => s.subscribe
      | some sent => s.subscribe.sendFinal sent taking

/-- The handler of a type, behind its filters. -/
def Monitor.handle (query : JobStreamQuery) (s : Monitor V) (data : EventData V)
    (taking : Taking) : JobEventType → Monitor V
  | .enqueued => s.trySend (sentFor query .enqueued data none) taking
  | .started => s.trySend (sentFor query .started data none) taking
  | .progress => s.trySend (sentFor query .progress data none) taking
  | .completed => s.sendFinal (sentFor query .completed data none) taking
  | .failed => { s with lookups := s.lookups ++ [data] }
  | .cancelled => s.sendFinal (sentFor query .cancelled data none) taking

/-- The event bus calls the handler of the type. -/
def Monitor.publish (query : JobStreamQuery) (s : Monitor V) (type : JobEventType)
    (data : EventData V) (taking : Taking) : Monitor V :=
  if s.subscribed && query.concerns type data then s.handle query data taking type else s

/-- The handler of a failed job goes on behind its lookup. -/
def Monitor.look (query : JobStreamQuery) (s : Monitor V) (index : ℕ)
    (code : Option (Option String)) (taking : Taking) : Monitor V :=
  match s.lookups[index]? with
  | none => s
  | some data =>
      let s := { s with lookups := s.lookups.eraseIdx index }
      match code with
      | none => s
      | some code => s.sendFinal (sentFor query .failed data code) taking

/-- What an action does. -/
def step (query : JobStreamQuery) (s : Monitor V) : Action V → Monitor V
  | .found job now taking =>
      if s.awaiting then { s with awaiting := false }.resume job now taking else s
  | .published type data taking => s.publish query type data taking
  | .looked index code taking => s.look query index code taking
  | .disconnected => s.close

/-- The handler after some actions. -/
def run (query : JobStreamQuery) (actions : List (Action V)) : Monitor V :=
  actions.foldl (step query) {}

/-! ### Order -/

/-- What a step may do to a monitor: it sends at most one event, which is allowed, while the stream
is open, and closes it behind an event that ends the job. -/
structure Keeps (allowed : Sent V → Prop) (s s' : Monitor V) : Prop where
  sent : s'.sent = s.sent ∨ ∃ x, allowed x ∧ s.isOpen = true ∧ s'.sent = s.sent ++ [x] ∧
    (x.isFinal = true → s'.isOpen = false)
  closed : s.isOpen = false → s'.isOpen = false
  hooked : (s.subscribed = true → s.isOpen = true ∧ s.hooked = true) →
    s'.subscribed = true → s'.isOpen = true ∧ s'.hooked = true

section

variable {allowed : Sent V → Prop} {s s' : Monitor V} {x : Sent V} {query : JobStreamQuery}

lemma Keeps.refl (s : Monitor V) : Keeps allowed s s := ⟨.inl rfl, id, id⟩

/-- A step that sends nothing, in front of one that may. -/
lemma Keeps.after {s₁ : Monitor V} (h : Keeps allowed s₁ s') (hsent : s₁.sent = s.sent)
    (hopen : s₁.isOpen = s.isOpen)
    (hhooked : (s.subscribed = true → s.isOpen = true ∧ s.hooked = true) →
      s₁.subscribed = true → s₁.isOpen = true ∧ s₁.hooked = true) : Keeps allowed s s' where
  sent := hsent ▸ hopen ▸ h.sent
  closed := hopen ▸ h.closed
  hooked := fun hs => h.hooked (hhooked hs)

@[simp] lemma close_sent (s : Monitor V) : s.close.sent = s.sent := by
  rw [Monitor.close]
  split <;> rfl

@[simp] lemma close_isOpen (s : Monitor V) : s.close.isOpen = false := by
  rw [Monitor.close]
  split
  next => rfl
  next h => exact Bool.eq_false_iff.mpr h

@[simp] lemma close_lookups (s : Monitor V) : s.close.lookups = s.lookups := by
  rw [Monitor.close]
  split <;> rfl

/-- Nothing is left to be called when a stream has closed. -/
lemma close_subscribed (h : s.subscribed = true → s.isOpen = true ∧ s.hooked = true) :
    s.close.subscribed = false := by
  rw [Monitor.close]
  split
  next =>
    cases hsubscribed : s.subscribed with
    | false => rfl
    | true => simp [(h hsubscribed).2]
  next hopen =>
    exact Bool.eq_false_iff.mpr fun hsubscribed => hopen (h hsubscribed).1

lemma close_keeps (s : Monitor V) : Keeps allowed s s.close where
  sent := .inl (close_sent s)
  closed := fun _ => close_isOpen s
  hooked := fun h hsubscribed => by
    rw [close_subscribed h] at hsubscribed
    cases hsubscribed

lemma send_of_isOpen (h : s.isOpen = true) (x : Sent V) (taking : Taking) :
    s.send x taking = s.take x taking := if_pos h

lemma send_of_not_isOpen (h : s.isOpen ≠ true) (x : Sent V) (taking : Taking) :
    s.send x taking = (s, false) := if_neg h

lemma trySend_keeps (herror : allowed .error) (hx : allowed x) (hfinal : x.isFinal = false)
    (taking : Taking) : Keeps allowed s (s.trySend x taking) := by
  rw [Monitor.trySend]
  by_cases hopen : s.isOpen = true
  · rw [send_of_isOpen hopen]
    cases taking with
    | taken =>
        refine ⟨.inr ⟨x, hx, hopen, rfl, fun h => ?_⟩, id, id⟩
        rw [hfinal] at h
        cases h
    | refused => exact ⟨.inr ⟨.error, herror, hopen, rfl, fun h => by cases h⟩, id, id⟩
    | dropped => exact .refl s
    | closed => exact close_keeps s
    | thrown => exact .refl s
    | overflown => exact close_keeps s
  · rw [send_of_not_isOpen hopen]
    exact .refl s

lemma sendFinal_taken (hopen : s.isOpen = true) (x : Sent V) :
    s.sendFinal x .taken = { s with sent := s.sent ++ [x] }.close := by
  rw [Monitor.sendFinal, send_of_isOpen hopen]
  rfl

lemma sendFinal_of_not_isOpen (hopen : s.isOpen ≠ true) (x : Sent V) (taking : Taking) :
    s.sendFinal x taking = s := by
  rw [Monitor.sendFinal, send_of_not_isOpen hopen]
  rfl

/-- One event, and the end of the stream behind it. -/
lemma sentAndClosed_keeps (hx : allowed x) (hopen : s.isOpen = true) :
    Keeps allowed s { s with sent := s.sent ++ [x] }.close := by
  have hclose : Keeps allowed { s with sent := s.sent ++ [x] }
      { s with sent := s.sent ++ [x] }.close := close_keeps _
  exact ⟨.inr ⟨x, hx, hopen, close_sent _, fun _ => close_isOpen _⟩,
    fun _ => close_isOpen _, fun h => hclose.hooked h⟩

lemma close_close (s : Monitor V) : s.close.close = s.close := by
  rw [Monitor.close, if_neg (by rw [close_isOpen]; exact Bool.false_ne_true)]

lemma sendFinal_keeps (herror : allowed .error) (hx : allowed x) (taking : Taking) :
    Keeps allowed s (s.sendFinal x taking) := by
  by_cases hopen : s.isOpen = true
  · cases taking with
    | taken =>
        rw [sendFinal_taken hopen]
        exact sentAndClosed_keeps hx hopen
    | refused =>
        rw [Monitor.sendFinal, send_of_isOpen hopen]
        exact sentAndClosed_keeps herror hopen
    | dropped =>
        rw [Monitor.sendFinal, send_of_isOpen hopen]
        exact close_keeps s
    | closed =>
        have hclosed : s.sendFinal x .closed = s.close := by
          rw [Monitor.sendFinal, send_of_isOpen hopen]
          exact close_close s
        rw [hclosed]
        exact close_keeps s
    | thrown =>
        rw [Monitor.sendFinal, send_of_isOpen hopen]
        exact .refl s
    | overflown =>
        rw [Monitor.sendFinal, send_of_isOpen hopen]
        exact close_keeps s
  · rw [sendFinal_of_not_isOpen hopen]
    exact .refl s

lemma subscribe_sent (s : Monitor V) : s.subscribe.sent = s.sent := by
  rw [Monitor.subscribe]
  split <;> rfl

lemma subscribe_isOpen (s : Monitor V) : s.subscribe.isOpen = s.isOpen := by
  rw [Monitor.subscribe]
  split <;> rfl

lemma subscribe_hooked (h : s.subscribed = true → s.isOpen = true ∧ s.hooked = true) :
    s.subscribe.subscribed = true → s.subscribe.isOpen = true ∧ s.subscribe.hooked = true := by
  rw [Monitor.subscribe]
  split
  next hopen => exact fun _ => ⟨hopen, rfl⟩
  next => exact h

/-- What may be sent: an event for the client, one of the job that was found, or an error. -/
def Allowed (query : JobStreamQuery) (actions : List (Action V)) : Sent V → Prop
  | .error => True
  | .event e =>
      e.jobId = query.jobId ∧ (e.payload.type = .progress ∨ query.isQueue e.queueName = true) ∨
        ∃ job now taking, .found (some job) now taking ∈ actions ∧ e.jobId = job.id ∧
          e.queueName = job.queueName

lemma allowed_sentFor {actions : List (Action V)} {type : JobEventType} {data : EventData V}
    (h : query.concerns type data = true) (code : Option String) :
    Allowed query actions (sentFor query type data code) := by
  rw [JobStreamQuery.concerns, Bool.and_eq_true, decide_eq_true_eq, Bool.or_eq_true,
    decide_eq_true_eq] at h
  cases type with
  | progress => exact .inl ⟨h.1, .inl rfl⟩
  | enqueued | started | completed | failed | cancelled =>
      exact .inl ⟨h.1, .inr (h.2.resolve_left (by rintro ⟨⟩))⟩

lemma sentInitially_eq {job : Job V} {now : ℕ} (h : sentInitially job now = some x) :
    ∃ payload, x = .event ⟨job.id, job.queueName, payload⟩ ∧ x.isFinal = true := by
  rw [sentInitially] at h
  split at h <;> cases h <;> exact ⟨_, rfl, rfl⟩

lemma resume_keeps {actions : List (Action V)} {job : Option (Job V)} {now : ℕ} {taking : Taking}
    (hfound : .found job now taking ∈ actions) :
    Keeps (Allowed query actions) s (s.resume job now taking) := by
  cases job with
  | none =>
      have htry : Keeps (Allowed query actions) s (s.trySend .error taking) :=
        trySend_keeps trivial trivial rfl taking
      rw [Monitor.resume]
      have hclose : Keeps (Allowed query actions) (s.trySend .error taking)
          (s.trySend .error taking).close := close_keeps _
      refine ⟨?_, fun _ => close_isOpen _, fun h => hclose.hooked (htry.hooked h)⟩
      rw [close_sent]
      rcases htry.sent with hsent | ⟨x, hx, hopen, hsent, -⟩
      · exact .inl hsent
      · exact .inr ⟨x, hx, hopen, hsent, fun _ => close_isOpen _⟩
  | some job =>
      rw [Monitor.resume]
      split
      next =>
        exact (Keeps.refl _).after (subscribe_sent s) (subscribe_isOpen s) subscribe_hooked
      next x hx =>
        obtain ⟨payload, rfl, -⟩ := sentInitially_eq hx
        exact (sendFinal_keeps trivial (.inr ⟨job, now, taking, hfound, rfl, rfl⟩) taking).after
          (subscribe_sent s) (subscribe_isOpen s) subscribe_hooked

lemma publish_keeps {actions : List (Action V)} (type : JobEventType) (data : EventData V)
    (taking : Taking) : Keeps (Allowed query actions) s (s.publish query type data taking) := by
  rw [Monitor.publish]
  split
  next h =>
    have hallowed : Allowed query actions (sentFor query type data none) :=
      allowed_sentFor ((Bool.and_eq_true _ _).mp h).2 none
    cases type with
    | enqueued | started | progress => exact trySend_keeps trivial hallowed rfl taking
    | completed | cancelled => exact sendFinal_keeps trivial hallowed taking
    | failed => exact (Keeps.refl _).after rfl rfl id
  next => exact .refl s

lemma look_keeps {actions : List (Action V)} (index : ℕ) (code : Option (Option String))
    (taking : Taking) (hlookups : ∀ data ∈ s.lookups, query.concerns .failed data = true) :
    Keeps (Allowed query actions) s (s.look query index code taking) := by
  rw [Monitor.look]
  split
  next => exact .refl s
  next data hdata =>
    have hallowed : ∀ code, Allowed query actions (sentFor query .failed data code) :=
      allowed_sentFor (hlookups data (List.mem_of_getElem? hdata))
    cases code with
    | none => exact (Keeps.refl _).after rfl rfl id
    | some code => exact (sendFinal_keeps trivial (hallowed code) taking).after rfl rfl id

/-- What holds after every run: nothing is sent behind an event that ends the job, what is sent is
allowed, and there is no subscription without a stream that will remove it. -/
structure Orderly (query : JobStreamQuery) (actions : List (Action V)) (s : Monitor V) :
    Prop where
  last : ∀ x ∈ s.sent.dropLast, x.isFinal = false
  closed : ∀ x ∈ s.sent, x.isFinal = true → s.isOpen = false
  allowed : ∀ x ∈ s.sent, Allowed query actions x
  hooked : s.subscribed = true → s.isOpen = true ∧ s.hooked = true
  lookups : ∀ data ∈ s.lookups, query.concerns .failed data = true

lemma Allowed.mono {actions actions' : List (Action V)} (h : actions ⊆ actions')
    (hx : Allowed query actions x) : Allowed query actions' x := by
  cases x with
  | error => trivial
  | event e =>
      rcases hx with hx | ⟨job, now, taking, hfound, hx⟩
      · exact .inl hx
      · exact .inr ⟨job, now, taking, h hfound, hx⟩

lemma Orderly.keeps {actions actions' : List (Action V)} (h : Orderly query actions s)
    (hactions : actions ⊆ actions') (hkeeps : Keeps (Allowed query actions') s s')
    (hlookups : ∀ data ∈ s'.lookups, query.concerns .failed data = true) :
    Orderly query actions' s' where
  last := by
    rcases hkeeps.sent with hsame | ⟨y, -, hopen, hsame, -⟩
    · exact hsame ▸ h.last
    · rw [hsame, List.dropLast_concat]
      intro x hx
      refine Bool.eq_false_iff.mpr fun hfinal => ?_
      rw [h.closed x hx hfinal] at hopen
      cases hopen
  closed := by
    intro x hx hfinal
    rcases hkeeps.sent with hsame | ⟨y, -, -, hsame, hclosed⟩
    · exact hkeeps.closed (h.closed x (hsame ▸ hx) hfinal)
    · rw [hsame] at hx
      rcases List.mem_append.mp hx with hx | hx
      · exact hkeeps.closed (h.closed x hx hfinal)
      · exact hclosed (List.mem_singleton.mp hx ▸ hfinal)
  allowed := by
    intro x hx
    rcases hkeeps.sent with hsame | ⟨y, hy, -, hsame, -⟩
    · exact (h.allowed x (hsame ▸ hx)).mono hactions
    · rw [hsame] at hx
      rcases List.mem_append.mp hx with hx | hx
      · exact (h.allowed x hx).mono hactions
      · exact List.mem_singleton.mp hx ▸ hy
  hooked := hkeeps.hooked h.hooked
  lookups := hlookups

lemma take_lookups (s : Monitor V) (x : Sent V) (taking : Taking) :
    (s.take x taking).1.lookups = s.lookups := by
  cases taking with
  | taken | refused | dropped | thrown => rfl
  | closed | overflown => exact close_lookups s

lemma trySend_lookups (s : Monitor V) (x : Sent V) (taking : Taking) :
    (s.trySend x taking).lookups = s.lookups := by
  rw [Monitor.trySend, Monitor.send]
  split
  next => exact take_lookups s x taking
  next => rfl

lemma sendFinal_lookups (s : Monitor V) (x : Sent V) (taking : Taking) :
    (s.sendFinal x taking).lookups = s.lookups := by
  have hsend := trySend_lookups s x taking
  rw [Monitor.trySend] at hsend
  rw [Monitor.sendFinal]
  split
  next => rw [close_lookups, hsend]
  next => exact hsend

lemma subscribe_lookups (s : Monitor V) : s.subscribe.lookups = s.lookups := by
  rw [Monitor.subscribe]
  split <;> rfl

lemma resume_lookups (s : Monitor V) (job : Option (Job V)) (now : ℕ) (taking : Taking) :
    (s.resume job now taking).lookups = s.lookups := by
  cases job with
  | none =>
      rw [Monitor.resume, close_lookups]
      exact trySend_lookups s .error taking
  | some job =>
      rw [Monitor.resume]
      split
      next => exact subscribe_lookups s
      next x _ => exact (sendFinal_lookups _ x taking).trans (subscribe_lookups s)

/-- The lookups after an event was published: with that of the failed job, if it is one. -/
lemma mem_publish_lookups {type : JobEventType} {data data' : EventData V} {taking : Taking}
    (h : data' ∈ (s.publish query type data taking).lookups) :
    data' ∈ s.lookups ∨ data' = data ∧ query.concerns .failed data = true := by
  rw [Monitor.publish] at h
  split at h
  next hsub =>
    have hconcerns := ((Bool.and_eq_true _ _).mp hsub).2
    cases type with
    | enqueued | started | progress => exact .inl (trySend_lookups s _ taking ▸ h)
    | completed | cancelled => exact .inl (sendFinal_lookups s _ taking ▸ h)
    | failed =>
        rcases List.mem_append.mp h with h | h
        · exact .inl h
        · exact .inr ⟨List.mem_singleton.mp h, hconcerns⟩
  next => exact .inl h

lemma look_lookups (s : Monitor V) (index : ℕ) (code : Option (Option String))
    (taking : Taking) : (s.look query index code taking).lookups = s.lookups.eraseIdx index := by
  rw [Monitor.look]
  split
  next hnone => exact (List.eraseIdx_of_length_le (List.getElem?_eq_none_iff.mp hnone)).symm
  next data hdata =>
    cases code with
    | none => rfl
    | some code => exact sendFinal_lookups _ _ taking

lemma Orderly.step {actions : List (Action V)} (h : Orderly query actions s) (action : Action V) :
    Orderly query (actions ++ [action]) (JobStream.step query s action) := by
  have hactions := List.subset_append_left actions [action]
  have haction : action ∈ actions ++ [action] := List.mem_append_right _ List.mem_cons_self
  cases action with
  | found job now taking =>
      rw [JobStream.step]
      split
      next =>
        have hresume : Keeps (Allowed query (actions ++ [.found job now taking]))
            { s with awaiting := false } ({ s with awaiting := false }.resume job now taking) :=
          resume_keeps haction
        refine h.keeps hactions (hresume.after rfl rfl id) ?_
        rw [resume_lookups]
        exact h.lookups
      next => exact h.keeps hactions (.refl s) h.lookups
  | published type data taking =>
      refine h.keeps hactions (publish_keeps type data taking) fun data' hdata' => ?_
      rcases mem_publish_lookups hdata' with hmem | ⟨rfl, hconcerns⟩
      · exact h.lookups data' hmem
      · exact hconcerns
  | looked index code taking =>
      refine h.keeps hactions (look_keeps index code taking h.lookups) fun data hdata => ?_
      rw [JobStream.step, look_lookups] at hdata
      exact h.lookups data (List.mem_of_mem_eraseIdx hdata)
  | disconnected =>
      refine h.keeps hactions (close_keeps s) ?_
      rw [JobStream.step, close_lookups]
      exact h.lookups

end

/-- **The stream of a job is in order after every run**: in any order of the events, the lookups
and the disconnection of the client, and whatever the stream does with what it is to send. -/
theorem orderly_run (query : JobStreamQuery) (actions : List (Action V)) :
    Orderly query actions (run query actions) := by
  induction actions using List.reverseRecOn with
  | nil => exact ⟨by simp [run], by simp [run], by simp [run], by simp [run], by simp [run]⟩
  | append_singleton actions action ih =>
      rw [run, List.foldl_append]
      exact ih.step action

/-! ### The end of the job -/

/-- A step in which nothing fails, and the client stays. -/
def Action.Smooth : Action V → Prop
  | .found .. => False
  | .published _ _ taking => taking = .taken
  | .looked _ code taking => code.isSome = true ∧ taking = .taken
  | .disconnected => False

/-- The end of the job is published. -/
def Action.Ends (query : JobStreamQuery) : Action V → Prop
  | .published type data _ => type.isFinal = true ∧ query.concerns type data = true
  | _ => False

/-- A monitor that has found the job, with what it was told since. -/
structure Watching (query : JobStreamQuery) (job : Job V) (now : ℕ) (actions : List (Action V))
    (s : Monitor V) : Prop where
  final_iff : (∃ x ∈ s.sent, x.isFinal = true) ↔ s.isOpen = false
  subscribed : s.isOpen = true → s.subscribed = true
  told_iff : (s.isOpen = false ∨ s.lookups ≠ []) ↔
    (sentInitially job now).isSome = true ∨ ∃ action ∈ actions, action.Ends query

section

variable {query : JobStreamQuery} {job : Job V} {now : ℕ} {actions : List (Action V)}
  {s : Monitor V}

/-- Before the job is found nothing is heard. -/
lemma step_of_unsubscribed (hsubscribed : s.subscribed = false) (hlookups : s.lookups = [])
    {action : Action V} (h : action.Smooth) : step query s action = s := by
  cases action with
  | found => exact h.elim
  | published type data taking =>
      rw [step, Monitor.publish, hsubscribed]
      exact if_neg (by simp)
  | looked index code taking =>
      rw [step, Monitor.look, hlookups]
      rfl
  | disconnected => exact h.elim

lemma run_of_smooth (h : ∀ action ∈ actions, action.Smooth) : run query actions = {} := by
  rw [run]
  induction actions with
  | nil => rfl
  | cons action actions ih =>
      rw [List.foldl_cons, step_of_unsubscribed rfl rfl (h action List.mem_cons_self)]
      exact ih fun a ha => h a (List.mem_cons_of_mem _ ha)

lemma watching_found (query : JobStreamQuery) (job : Job V) (now : ℕ) :
    Watching query job now [] (step query {} (.found (some job) now .taken)) := by
  rw [step, if_pos rfl, Monitor.resume]
  split
  next hnone =>
    exact ⟨by simp [Monitor.subscribe], fun _ => rfl, by simp [hnone, Monitor.subscribe]⟩
  next x hx =>
    obtain ⟨payload, -, hfinal⟩ := sentInitially_eq hx
    rw [sendFinal_taken (subscribe_isOpen _)]
    refine ⟨⟨fun _ => close_isOpen _, fun _ => ⟨x, ?_, hfinal⟩⟩, fun hopen => ?_, ?_⟩
    · rw [close_sent]
      exact List.mem_append_right _ List.mem_cons_self
    · rw [close_isOpen] at hopen
      cases hopen
    · exact ⟨fun _ => .inl (hx ▸ rfl), fun _ => .inl (close_isOpen _)⟩

lemma Watching.told_concat (h : Watching query job now actions s) {action : Action V}
    {s' : Monitor V} (hs' : (s'.isOpen = false ∨ s'.lookups ≠ []) ↔
      (s.isOpen = false ∨ s.lookups ≠ []) ∨ action.Ends query) :
    (s'.isOpen = false ∨ s'.lookups ≠ []) ↔
      (sentInitially job now).isSome = true ∨ ∃ a ∈ actions ++ [action], a.Ends query := by
  rw [hs', h.told_iff, or_assoc]
  refine or_congr_right ⟨?_, ?_⟩
  · rintro (⟨a, ha, hends⟩ | hends)
    · exact ⟨a, List.mem_append_left _ ha, hends⟩
    · exact ⟨action, List.mem_append_right _ List.mem_cons_self, hends⟩
  · rintro ⟨a, ha, hends⟩
    rcases List.mem_append.mp ha with ha | ha
    · exact .inl ⟨a, ha, hends⟩
    · exact .inr (List.mem_singleton.mp ha ▸ hends)

/-- The end is sent, and the stream closes. -/
lemma watching_sendFinal (s : Monitor V) {x : Sent V} (hfinal : x.isFinal = true)
    (hopen : s.isOpen = true) : ((∃ y ∈ (s.sendFinal x .taken).sent, y.isFinal = true) ↔
      (s.sendFinal x .taken).isOpen = false) ∧ (s.sendFinal x .taken).isOpen = false := by
  rw [sendFinal_taken hopen]
  refine ⟨⟨fun _ => close_isOpen _, fun _ => ⟨x, ?_, hfinal⟩⟩, close_isOpen _⟩
  rw [close_sent]
  exact List.mem_append_right _ List.mem_cons_self

lemma sentFor_isFinal (query : JobStreamQuery) (type : JobEventType) (data : EventData V)
    (code : Option String) : (sentFor query type data code).isFinal = type.isFinal := by
  cases type <;> rfl

/-- An event that does not end the job changes neither the stream nor the lookups. -/
lemma Watching.trySend (h : Watching query job now actions s) {x : Sent V}
    (hfinal : x.isFinal = false) {action : Action V} (hends : ¬ action.Ends query) :
    Watching query job now (actions ++ [action]) (s.trySend x .taken) := by
  by_cases hopen : s.isOpen = true
  · have hsend : s.trySend x .taken = { s with sent := s.sent ++ [x] } := by
      rw [Monitor.trySend, send_of_isOpen hopen]
      rfl
    rw [hsend]
    refine ⟨?_, h.subscribed, h.told_concat (or_iff_left hends).symm⟩
    rw [← h.final_iff]
    constructor
    · rintro ⟨y, hy, hyfinal⟩
      rcases List.mem_append.mp hy with hy | hy
      · exact ⟨y, hy, hyfinal⟩
      · rw [List.mem_singleton.mp hy, hfinal] at hyfinal
        cases hyfinal
    · rintro ⟨y, hy, hyfinal⟩
      exact ⟨y, List.mem_append_left _ hy, hyfinal⟩
  · have hsend : s.trySend x .taken = s := by
      rw [Monitor.trySend, send_of_not_isOpen hopen]
    rw [hsend]
    exact ⟨h.final_iff, h.subscribed, h.told_concat (or_iff_left hends).symm⟩

/-- An event that ends the job closes the stream, if it is still open. -/
lemma Watching.sendFinal (h : Watching query job now actions s) {x : Sent V}
    (hfinal : x.isFinal = true) {s₁ : Monitor V} (hsent : s₁.sent = s.sent)
    (hopen : s₁.isOpen = s.isOpen) {action : Action V}
    (htold : (s.isOpen = false ∨ s.lookups ≠ []) ∨ action.Ends query) :
    Watching query job now (actions ++ [action]) (s₁.sendFinal x .taken) := by
  have hclosed : (s₁.sendFinal x .taken).isOpen = false := by
    by_cases hopen₁ : s₁.isOpen = true
    · exact (watching_sendFinal s₁ hfinal hopen₁).2
    · rw [sendFinal_of_not_isOpen hopen₁]
      exact Bool.eq_false_iff.mpr hopen₁
  refine ⟨?_, fun hopen' => ?_, h.told_concat (iff_of_true (.inl hclosed) htold)⟩
  · by_cases hopen₁ : s₁.isOpen = true
    · exact (watching_sendFinal s₁ hfinal hopen₁).1
    · rw [sendFinal_of_not_isOpen hopen₁, hsent, hopen]
      exact h.final_iff
  · rw [hclosed] at hopen'
    cases hopen'

lemma Watching.publish (h : Watching query job now actions s) (type : JobEventType)
    (data : EventData V) : Watching query job now (actions ++ [.published type data .taken])
      (s.publish query type data .taken) := by
  rw [Monitor.publish]
  by_cases hcalled : (s.subscribed && query.concerns type data) = true
  · rw [if_pos hcalled]
    have hconcerns := ((Bool.and_eq_true _ _).mp hcalled).2
    have hnot (hfinal : type.isFinal = false) :
        ¬ (Action.published type data .taken).Ends query := by
      rintro ⟨hends, -⟩
      rw [hfinal] at hends
      cases hends
    cases type with
    | enqueued | started | progress => exact h.trySend rfl (hnot rfl)
    | completed | cancelled => exact h.sendFinal rfl rfl rfl (.inr ⟨rfl, hconcerns⟩)
    | failed =>
        refine ⟨h.final_iff, h.subscribed, h.told_concat (iff_of_true (.inr ?_) (.inr ?_))⟩
        · exact List.concat_ne_nil _ _
        · exact ⟨rfl, hconcerns⟩
  · rw [if_neg hcalled]
    refine ⟨h.final_iff, h.subscribed, h.told_concat ⟨.inl, ?_⟩⟩
    rintro (htold | ⟨-, hconcerns⟩)
    · exact htold
    · refine .inl (Bool.eq_false_iff.mpr fun hopen => hcalled ?_)
      rw [h.subscribed hopen, hconcerns]
      rfl

lemma Watching.look (h : Watching query job now actions s) (index : ℕ) (code : Option String) :
    Watching query job now (actions ++ [.looked index (some code) .taken])
      (s.look query index (some code) .taken) := by
  have hnot : ¬ (Action.looked (V := V) index (some code) .taken).Ends query := id
  rw [Monitor.look]
  split
  next => exact ⟨h.final_iff, h.subscribed, h.told_concat (or_iff_left hnot).symm⟩
  next data hdata =>
    have hne : s.lookups ≠ [] := by
      rintro hnil
      rw [hnil] at hdata
      cases hdata
    have hsent : ({ s with lookups := s.lookups.eraseIdx index } : Monitor V).sent = s.sent := rfl
    exact h.sendFinal (sentFor_isFinal query .failed data code) hsent rfl (.inl (.inr hne))

lemma Watching.step (h : Watching query job now actions s) {action : Action V}
    (hsmooth : action.Smooth) :
    Watching query job now (actions ++ [action]) (JobStream.step query s action) := by
  cases action with
  | found => exact hsmooth.elim
  | published type data taking =>
      obtain rfl : taking = .taken := hsmooth
      exact h.publish type data
  | looked index code taking =>
      obtain ⟨hcode, rfl⟩ := hsmooth
      obtain ⟨code, rfl⟩ := Option.isSome_iff_exists.mp hcode
      exact h.look index code
  | disconnected => exact hsmooth.elim

end

/-- **When the client is told that the job has ended**, in a run in which nothing fails and all
lookups have settled: if it had ended when the handler looked it up, or if its end is published
after that.  Of an end that is published in between it is never told. -/
theorem endTold_iff (query : JobStreamQuery) (job : Job V) (now : ℕ)
    {before behind : List (Action V)} (hbefore : ∀ action ∈ before, action.Smooth)
    (hbehind : ∀ action ∈ behind, action.Smooth)
    (hsettled : (run query (before ++ .found (some job) now .taken :: behind)).lookups = []) :
    (∃ x ∈ (run query (before ++ .found (some job) now .taken :: behind)).sent,
      x.isFinal = true) ↔
        (sentInitially job now).isSome = true ∨ ∃ action ∈ behind, action.Ends query := by
  have hrun : run query (before ++ .found (some job) now .taken :: behind) =
      behind.foldl (step query) (step query {} (.found (some job) now .taken)) := by
    rw [run, List.foldl_append, ← run, run_of_smooth hbefore, List.foldl_cons]
  have hwatching : Watching query job now behind
      (behind.foldl (step query) (step query {} (.found (some job) now .taken))) := by
    clear hrun hsettled
    induction behind using List.reverseRecOn with
    | nil => exact watching_found query job now
    | append_singleton behind action ih =>
        rw [List.foldl_append]
        exact (ih fun a ha => hbehind a (List.mem_append_left _ ha)).step
          (hbehind action (List.mem_append_right _ List.mem_cons_self))
  rw [hrun] at hsettled ⊢
  rw [hwatching.final_iff, ← hwatching.told_iff]
  exact ⟨.inl, fun h => h.resolve_right fun hne => hne hsettled⟩

/-- A job that is running. -/
def runningJob : Job Unit where
  id := "7"
  type := "mail"
  queueName := "default"
  data := ()
  status := .running
  priority := 0
  progress := 0
  queuedAt := 0
  retries := 0
  maxRetries := 0
  timeout := 0
  metadata := ∅

/-- The end of this job is published. -/
def published (type : JobEventType) : Action Unit :=
  .published type ⟨"7", "default", (), (), none, (), (), .other none, (), (), ()⟩ .taken

/-- A failure that is published after the lookup is told, and one in front of it is not. -/
theorem endTold_iff_failed :
    (∃ x ∈ (run ⟨"7", none⟩ [.found (some runningJob) 0 .taken, published .failed,
      .looked 0 (some none) .taken]).sent, x.isFinal = true) ∧
    ¬ ∃ x ∈ (run ⟨"7", none⟩ [published .failed, .found (some runningJob) 0 .taken]).sent,
      x.isFinal = true := by
  constructor
  · have htold := @endTold_iff Unit ⟨"7", none⟩ runningJob 0 [] [published .failed,
      .looked 0 (some none) .taken] (by simp) (by simp [Action.Smooth, published]) (by rfl)
    exact htold.mpr (.inr ⟨published .failed, by simp, rfl, by decide⟩)
  · intro h
    have htold := @endTold_iff Unit ⟨"7", none⟩ runningJob 0 [published .failed] []
      (by simp [Action.Smooth, published]) (by simp) (by rfl)
    rcases htold.mp h with hended | ⟨_, hmem, -⟩
    · cases hended
    · cases hmem

end JobStream

end Blaize.Queue
