import Blaize.Sse.Ordering

/-!
The balance of a stream: where are the events of the `send` calls that returned?

An event is in the buffer with its data, not with a text, and each flush calls `JSON.stringify`
anew.  The application may have changed the data by then: it may have another text, or none, and
then the flush ends with an exception, after it has taken the event out of the buffer.  The caller
gives the exception to `_handleError`, whose `sendError` is a step of its own.

* `Stream.account`: the events that were sent, that were dropped and that are in the buffer;
* `Stream.flushLive`, `Stream.stepLive`: the stream over data that changes, which is the one of
  `Stream.step` where the data keeps its text (`stepLive_of_keeps`);
* `Stream.returned`: the `send` calls of an action that return normally, the one inside
  `sendError` included;
* `Counted`: the stream with the number of these calls so far;
* `accounted_iff`: **before the stream is closed, the buffer keeps its limit, and every `send` that
  returned is accounted for if and only if the data of every event that a flush came to had a text
  then**.
-/

namespace Blaize.Sse

open Machine

variable {cfg : Config}

namespace Stream

/-- The events that were sent or dropped, and those of the buffer. -/
def account (s : Stream) : ℕ := s.metrics.eventsSent + s.metrics.eventsDropped + s.buffer.length

/-- The buffer is within its limit. -/
def WithinLimit (cfg : Config) (s : Stream) : Prop := (s.buffer.length : ℤ) ≤ cfg.maxBuffer

/-- What a step may do to an open stream without a new event. -/
structure Keeps (s s' : Stream) : Prop where
  state : s'.state = s.state
  account : s'.account = s.account
  buffer : s'.buffer.length ≤ s.buffer.length

lemma Keeps.refl (s : Stream) : s.Keeps s := ⟨rfl, rfl, Nat.le_refl _⟩

lemma Keeps.trans {s s' s'' : Stream} (h : s.Keeps s') (h' : s'.Keeps s'') : s.Keeps s'' :=
  ⟨h'.state.trans h.state, h'.account.trans h.account, h'.buffer.trans h.buffer⟩

lemma Keeps.withinLimit {s s' : Stream} (h : s.Keeps s') (hs : s.WithinLimit cfg) :
    s'.WithinLimit cfg :=
  Int.le_trans (Int.ofNat_le.mpr h.buffer) hs

/-! ### The methods -/

lemma writeRaw_keeps (s : Stream) (event : Option BufferedEvent) (data : String) :
    s.Keeps (s.writeRaw cfg event data).1 := by
  rcases writeRaw_cases cfg s event data with he | ⟨n, he⟩ | he | he <;> rw [he] <;>
    exact ⟨rfl, rfl, Nat.le_refl _⟩

/-- **A flush moves events from the buffer to the count of those sent**, and an event that is
not taken goes back. -/
lemma flushLoop_account (l : List BufferedEvent) (s : Stream) :
    (flushLoop cfg l s).state = s.state ∧
      (flushLoop cfg l s).account =
        s.metrics.eventsSent + s.metrics.eventsDropped + l.length ∧
      (flushLoop cfg l s).buffer.length ≤ l.length := by
  induction l generalizing s with
  | nil => exact ⟨rfl, rfl, Nat.le_refl _⟩
  | cons event rest ih =>
      rw [flushLoop]
      split
      next =>
          rcases writeRaw_cases cfg { s with buffer := rest } (some event) event.formatted with
            he | ⟨n, he⟩ | he | he <;> rw [he]
          · exact ⟨rfl, rfl, Nat.le_refl _⟩
          · -- one event less in the buffer, one more among those sent
            refine ⟨(ih _).1, (ih _).2.1.trans ?_, (ih _).2.2.trans (Nat.le_succ _)⟩
            simp only [List.length_cons]
            omega
          · exact ⟨rfl, rfl, Nat.le_refl _⟩
          · exact ⟨rfl, rfl, Nat.le_refl _⟩
      next => exact ⟨rfl, rfl, Nat.le_refl _⟩

lemma flushBuffer_keeps (s : Stream) : s.Keeps (s.flushBuffer cfg) := by
  have h : (s.flushBuffer cfg).state = s.state ∧ (s.flushBuffer cfg).account = s.account ∧
      (s.flushBuffer cfg).buffer.length ≤ s.buffer.length :=
    flushLoop_account s.buffer s
  exact ⟨h.1, h.2.1, h.2.2⟩

lemma close_state (s : Stream) : (s.close cfg).state = .closed := by
  rw [close]
  split
  next h => exact h
  next => rfl

/-- A buffer at its limit loses one event to the new one. -/
lemma length_dropOldest {maxSize : ℤ} {buffer : List BufferedEvent} (hmax : 1 ≤ maxSize)
    (h : (buffer.length : ℤ) = maxSize) :
    (dropOldest maxSize buffer).length + 1 = buffer.length := by
  cases buffer with
  | nil =>
      rw [List.length_nil] at h
      omega
  | cons e buffer =>
      rw [dropOldest, if_pos (Int.le_of_eq h.symm)]
      have hstop : dropOldest maxSize buffer = buffer := by
        cases buffer with
        | nil => rfl
        | cons e' buffer =>
            rw [dropOldest, if_neg]
            simp only [List.length_cons] at h ⊢
            omega
      rw [hstop, List.length_cons]

/-- **An event that is accepted goes into the buffer or takes the place of another one**, as
one that was dropped. -/
lemma enqueue_account {s s' : Stream} {e : BufferedEvent} (hmax : 1 ≤ cfg.maxBuffer)
    (hs : s.WithinLimit cfg) (h : s.enqueue cfg e = (s', none)) :
    s'.state = s.state ∧ s'.account = s.account + 1 ∧ s'.WithinLimit cfg := by
  rw [enqueue] at h
  dsimp only at h
  split at h
  next hfull =>
      have hlen : (s.buffer.length : ℤ) = cfg.maxBuffer := Int.le_antisymm hs hfull
      split at h
      next => cases (Prod.mk.inj h).2
      next hstrategy =>
          obtain rfl := (Prod.mk.inj h).1
          refine ⟨rfl, ?_⟩
          simp only [account, WithinLimit]
          cases hc : cfg.strategy with
          | dropOldest =>
              have hdrop := length_dropOldest hmax hlen
              simp only [applyBufferStrategy, List.length_append, List.length_singleton]
              omega
          | dropNewest =>
              simp only [applyBufferStrategy, if_pos hfull]
              omega
          | close => exact absurd hc hstrategy
  next hroom =>
      obtain rfl := (Prod.mk.inj h).1
      refine ⟨rfl, ?_⟩
      simp only [account, WithinLimit, List.length_append, List.length_singleton]
      omega

lemma enqueue_error {s s' : Stream} {e : BufferedEvent} {err : StreamError}
    (h : s.enqueue cfg e = (s', some err)) : s'.state = .closed := by
  rw [enqueue] at h
  dsimp only at h
  split at h
  next =>
      split at h
      next =>
          rw [← (Prod.mk.inj h).1]
          exact close_state s
      next => cases (Prod.mk.inj h).2
  next => cases (Prod.mk.inj h).2

/-- What a `send` leaves to its flush: one that returns adds one event to the account; one that
throws adds none, or has closed the stream. -/
lemma send_account {s : Stream} (hmax : 1 ≤ cfg.maxBuffer) (hs : s.WithinLimit cfg)
    (event : String) (data : Value) :
    ((s.sendWith cfg id event data).2 = none ∧
      (s.sendWith cfg id event data).1.state = s.state ∧
      (s.sendWith cfg id event data).1.account = s.account + 1 ∧
      (s.sendWith cfg id event data).1.WithinLimit cfg) ∨
    ((s.sendWith cfg id event data).2 ≠ none ∧
      (s.Keeps (s.sendWith cfg id event data).1 ∨
        (s.sendWith cfg id event data).1.state = .closed)) := by
  rw [sendWith]
  split
  · exact Or.inr ⟨by rintro ⟨⟩, Or.inl (Keeps.refl s)⟩
  · dsimp only
    split
    · exact Or.inr ⟨by rintro ⟨⟩, Or.inl ⟨rfl, rfl, Nat.le_refl _⟩⟩
    next text hdata =>
        split
        · exact Or.inr ⟨by rintro ⟨⟩, Or.inl ⟨rfl, rfl, Nat.le_refl _⟩⟩
        · split
          next s' err he => exact Or.inr ⟨by rintro ⟨⟩, Or.inr (enqueue_error he)⟩
          next s' he =>
              obtain ⟨hstate, haccount, hlimit⟩ :=
                enqueue_account (s := s.nextEventId) hmax hs he
              exact Or.inl ⟨rfl, hstate, haccount, hlimit⟩

/-- The flush comes last, if nothing was thrown before. -/
lemma sendWith_eq (flush : Stream → Stream) (s : Stream) (event : String) (data : Value) :
    s.sendWith cfg flush event data =
      (if (s.sendWith cfg id event data).2 = none then flush (s.sendWith cfg id event data).1
        else (s.sendWith cfg id event data).1,
      (s.sendWith cfg id event data).2) := by
  rw [sendWith, sendWith]
  split
  · rfl
  · dsimp only
    split
    · rfl
    · split
      · rfl
      · split
        · rfl
        · rfl

end Stream

/-! ### Data that changes -/

/-- The text of the data at a flush: that of a string is the one it had, and for any other value it
is what `JSON.stringify` gives then. -/
def BufferedEvent.textNow (e : BufferedEvent) (live : Option String) : Option String :=
  match e.data with
  | .json _ => live
  | data => dataStr data

namespace Stream

/-- `_flushBuffer` from the head of its loop on; `live` has what `JSON.stringify` gives in each
turn.  An event without a text has left the buffer when the flush ends. -/
def flushLoopLive (cfg : Config) : (ℕ → Option String) → List BufferedEvent → Stream → Stream
  | _, [], s => { s with buffer := [] }
  | live, event :: rest, s =>
      if s.writable then
        match event.textNow (live 0) with
        | none => { s with buffer := rest }
        | some text =>
            match { s with buffer := rest }.writeRaw cfg (some event)
                (formatSSEEvent event.event text (some (toString event.id)) none) with
            | (s, true) =>
                flushLoopLive cfg (fun n => live (n + 1)) rest
                  { s with metrics.eventsSent := s.metrics.eventsSent + 1 }
            | (s, false) => { s with buffer := event :: rest, waiting := s.waiting + 1 }
      else { s with buffer := event :: rest }

def flushLive (cfg : Config) (live : ℕ → Option String) (s : Stream) : Stream :=
  flushLoopLive cfg live s.buffer s

/-- A step, with what `JSON.stringify` gives for the events that its flush comes to. -/
def stepLive (cfg : Config) (s : Stream) (live : ℕ → Option String) : Action → Option Stream
  | .send event data => some (s.sendWith cfg (flushLive cfg live) event data).1
  | .sendError errorData =>
      some (if !s.isWritable then s
        else (s.sendWith cfg (flushLive cfg live) "error" (.json errorData)).1)
  | .flush => some (if !s.isWritable then s else s.flushLive cfg live)
  | .resume =>
      if 0 < s.resumed then some ({ s with resumed := s.resumed - 1 }.flushLive cfg live) else none
  | action => s.step cfg action

/-! ### Data that keeps its text -/

/-- What was found at the `send` is found again. -/
lemma flushLoopLive_of_keeps {l : List BufferedEvent} {live : ℕ → Option String}
    (h : ∀ (i : ℕ) (e : BufferedEvent), l[i]? = some e → e.textNow (live i) = dataStr e.data)
    (s : Stream) : flushLoopLive cfg live l s = flushLoop cfg l s := by
  induction l generalizing live s with
  | nil => rfl
  | cons event rest ih =>
      obtain ⟨text, htext⟩ := Option.isSome_iff_exists.mp event.data_ok
      have hformatted : event.formatted =
          formatSSEEvent event.event text (some (toString event.id)) none := by
        simp only [BufferedEvent.formatted, htext, Option.get_some]
      have hrest (i : ℕ) (e : BufferedEvent) (he : rest[i]? = some e) :
          e.textNow (live (i + 1)) = dataStr e.data := h (i + 1) e he
      rw [flushLoopLive, flushLoop, h 0 event rfl, htext, hformatted]
      dsimp only
      split
      · generalize writeRaw cfg _ (some event) _ = written
        obtain ⟨s', _ | _⟩ := written
        · rfl
        · exact ih hrest _
      · rfl

/-- The texts that the events of a buffer had when they were accepted. -/
def textsOf (buffer : List BufferedEvent) (i : ℕ) : Option String :=
  buffer[i]?.bind fun e => dataStr e.data

lemma flushLive_of_keeps (s : Stream) : s.flushLive cfg (textsOf s.buffer) = s.flushBuffer cfg := by
  refine flushLoopLive_of_keeps (fun i e he => ?_) s
  rw [BufferedEvent.textNow, textsOf, he, Option.bind_some]
  split
  next h => rw [h]
  next => rfl

/-- **Where data keeps its text, a step is that of the stream.** -/
lemma stepLive_of_keeps (s : Stream) (a : Action) :
    ∃ live, s.stepLive cfg live a = s.step cfg a := by
  have hsend (event : String) (data : Value) : ∃ live,
      s.sendWith cfg (flushLive cfg live) event data = s.send cfg event data := by
    refine ⟨textsOf (s.sendWith cfg id event data).1.buffer, ?_⟩
    rw [send, sendWith_eq, sendWith_eq (flushBuffer cfg), flushLive_of_keeps]
  cases a with
  | send event data =>
      obtain ⟨live, hlive⟩ := hsend event data
      exact ⟨live, congrArg (fun result : Stream × Option StreamError => some result.1) hlive⟩
  | sendError errorData =>
      obtain ⟨live, hlive⟩ := hsend "error" (.json errorData)
      refine ⟨live, ?_⟩
      rw [stepLive, hlive]
      rfl
  | flush =>
      refine ⟨textsOf s.buffer, ?_⟩
      rw [stepLive, flushLive_of_keeps]
      rfl
  | resume =>
      refine ⟨textsOf s.buffer, ?_⟩
      have hsame : Stream.flushLive cfg _ { s with resumed := s.resumed - 1 } = _ :=
        flushLive_of_keeps { s with resumed := s.resumed - 1 }
      rw [stepLive, hsame]
      rfl
  | ping => exact ⟨fun _ => none, rfl⟩
  | setRetry => exact ⟨fun _ => none, rfl⟩
  | close => exact ⟨fun _ => none, rfl⟩
  | disconnect => exact ⟨fun _ => none, rfl⟩
  | drain => exact ⟨fun _ => none, rfl⟩
  | pull => exact ⟨fun _ => none, rfl⟩

/-! ### The events that a flush loses -/

lemma state_flushLoopLive (l : List BufferedEvent) (live : ℕ → Option String) (s : Stream) :
    (flushLoopLive cfg live l s).state = s.state := by
  induction l generalizing live s with
  | nil => rfl
  | cons event rest ih =>
      rw [flushLoopLive]
      split
      · split
        · rfl
        next text htext =>
            rcases writeRaw_cases cfg { s with buffer := rest } (some event)
              (formatSSEEvent event.event text (some (toString event.id)) none) with
              he | ⟨n, he⟩ | he | he <;> rw [he]
            exact ih _ _
      · rfl

/-- The flush of a buffer comes to an event as long as the response has taken those before, and the
data of each event that it comes to still has a text. -/
def Texts (cfg : Config) (live : ℕ → Option String) (buffer : List BufferedEvent) (writes : ℕ) :
    Prop :=
  ∀ (i : ℕ) (e : BufferedEvent), buffer[i]? = some e → (∀ j < i, cfg.answer (writes + j) = .taken) →
    (e.textNow (live i)).isSome

lemma texts_cons {live : ℕ → Option String} {e : BufferedEvent} {rest : List BufferedEvent}
    {writes : ℕ} : Texts cfg live (e :: rest) writes ↔ (e.textNow (live 0)).isSome ∧
      (cfg.answer writes = .taken → Texts cfg (fun n => live (n + 1)) rest (writes + 1)) := by
  constructor
  · intro h
    refine ⟨h 0 e rfl fun j hj => absurd hj (Nat.not_lt_zero j), fun htaken i e' he' hbefore => ?_⟩
    refine h (i + 1) e' he' fun j hj => ?_
    cases j with
    | zero => exact htaken
    | succ j =>
        have hnext := hbefore j (Nat.lt_of_succ_lt_succ hj)
        rwa [Nat.add_right_comm, Nat.add_assoc] at hnext
  · rintro ⟨hfirst, hrest⟩ i e' he' hbefore
    cases i with
    | zero => exact Option.some.inj he' ▸ hfirst
    | succ i =>
        refine hrest (hbefore 0 (Nat.succ_pos i)) i e' he' fun j hj => ?_
        rw [Nat.add_right_comm, Nat.add_assoc]
        exact hbefore (j + 1) (Nat.succ_lt_succ hj)

instance Texts.decidable : ∀ live buffer writes, Decidable (Texts cfg live buffer writes)
  | _, [], _ => .isTrue fun i e he => absurd he (by simp)
  | live, _ :: rest, writes =>
      have : Decidable (Texts cfg (fun n => live (n + 1)) rest (writes + 1)) :=
        Texts.decidable _ rest _
      decidable_of_iff _ texts_cons.symm

/-- A flush of this stream comes to no event without a text. -/
def Stringifies (cfg : Config) (live : ℕ → Option String) (s : Stream) : Prop :=
  s.writable = true → Texts cfg live s.buffer s.writes.length

instance (live : ℕ → Option String) (s : Stream) : Decidable (Stringifies cfg live s) :=
  inferInstanceAs (Decidable (_ → _))

/-- What a flush does to an open stream: it moves events to those sent, and loses one if it comes
to data without a text. -/
structure Flushes (stringifies : Prop) (s s' : Stream) : Prop where
  state : s'.state = s.state
  buffer : s'.buffer.length ≤ s.buffer.length
  kept : stringifies → s'.account = s.account
  lost : ¬ stringifies → s'.account + 1 = s.account

/-- A call of `response.write` on an open stream. -/
lemma writeRaw_of_open {s : Stream} (hw : s.writable = true) (hs : s.state ≠ .closed)
    (event : Option BufferedEvent) (data : String) :
    (cfg.answer s.writes.length = .taken ∧ s.writeRaw cfg event data =
      ({ s with
        writes := s.writes ++ [⟨event, data, .taken⟩]
        metrics.bytesWritten := s.metrics.bytesWritten + data.utf8ByteSize }, true)) ∨
    (cfg.answer s.writes.length ≠ .taken ∧ ∃ writes writable,
      s.writeRaw cfg event data = ({ s with writes, writable }, false)) := by
  have hopen : (s.state == .closed) = false := by simpa using hs
  unfold writeRaw
  rw [if_neg (by simp [hw, hopen])]
  dsimp only
  cases h : cfg.answer s.writes.length with
  | taken => exact .inl ⟨rfl, rfl⟩
  | full => exact .inr ⟨by decide, _, s.writable, rfl⟩
  | threw => exact .inr ⟨by decide, _, _, rfl⟩

lemma flushLoopLive_account (l : List BufferedEvent) (live : ℕ → Option String) {s : Stream}
    (hs : s.state ≠ .closed) :
    Flushes (s.writable = true → Texts cfg live l s.writes.length) { s with buffer := l }
      (flushLoopLive cfg live l s) := by
  induction l generalizing live s with
  | nil =>
      refine ⟨rfl, Nat.le_refl _, fun _ => rfl, fun h => absurd (fun _ => ?_) h⟩
      exact fun i e he => absurd he (by simp)
  | cons event rest ih =>
      rw [flushLoopLive]
      by_cases hw : s.writable
      · have htexts : (s.writable = true → Texts cfg live (event :: rest) s.writes.length) ↔
            (event.textNow (live 0)).isSome ∧ (cfg.answer s.writes.length = .taken →
              Texts cfg (fun n => live (n + 1)) rest (s.writes.length + 1)) := by
          rw [texts_cons]
          exact forall_prop_of_true hw
        rw [if_pos hw, htexts]
        cases htext : event.textNow (live 0) with
        | none => exact ⟨rfl, Nat.le_succ _, fun h => absurd h.1 (by simp), fun _ => rfl⟩
        | some text =>
            dsimp only
            rcases writeRaw_of_open (s := { s with buffer := rest }) hw hs (some event)
              (formatSSEEvent event.event text (some (toString event.id)) none) with
              ⟨htaken, he⟩ | ⟨hrefused, writes, writable, he⟩
            · rw [he]
              obtain ⟨hstate, hbuffer, hkept, hlost⟩ := ih (fun n => live (n + 1)) (s := { s with
                buffer := rest
                writes := s.writes ++ [⟨some event, formatSSEEvent event.event text
                  (some (toString event.id)) none, .taken⟩]
                metrics.bytesWritten := s.metrics.bytesWritten + (formatSSEEvent event.event text
                  (some (toString event.id)) none).utf8ByteSize
                metrics.eventsSent := s.metrics.eventsSent + 1 }) hs
              have hmoved : s.metrics.eventsSent + 1 + s.metrics.eventsDropped + rest.length =
                  s.metrics.eventsSent + s.metrics.eventsDropped + (event :: rest).length := by
                rw [List.length_cons]
                omega
              rw [List.length_append, List.length_singleton] at hkept hlost
              refine ⟨hstate, hbuffer.trans (Nat.le_succ _), fun h => ?_, fun h => ?_⟩
              · exact (hkept fun _ => h.2 htaken).trans hmoved
              · exact (hlost fun hrest => h ⟨rfl, fun _ => hrest hw⟩).trans hmoved
            · rw [he]
              exact ⟨rfl, Nat.le_refl _, fun _ => rfl,
                fun h => absurd ⟨rfl, fun htaken => absurd htaken hrefused⟩ h⟩
      · rw [if_neg hw]
        exact ⟨rfl, Nat.le_refl _, fun _ => rfl, fun h => absurd (fun hw' => absurd hw' hw) h⟩

lemma flushLive_account {s : Stream} (hs : s.state ≠ .closed) (live : ℕ → Option String) :
    Flushes (s.Stringifies cfg live) s (s.flushLive cfg live) :=
  flushLoopLive_account s.buffer live hs

/-! ### Runs -/

/-- The `send` calls of an action that return normally. -/
def returned (cfg : Config) (s : Stream) : Action → ℕ
  | .send event data => if (s.sendWith cfg id event data).2 = none then 1 else 0
  | .sendError errorData =>
      if s.isWritable ∧ (s.sendWith cfg id "error" (.json errorData)).2 = none then 1 else 0
  | _ => 0

/-- The data of every event that the flush of an action comes to has a text; a `send` that throws
does not flush. -/
def Keeping (cfg : Config) (s : Stream) (live : ℕ → Option String) : Action → Prop
  | .send event data =>
      (s.sendWith cfg id event data).2 = none →
        (s.sendWith cfg id event data).1.Stringifies cfg live
  | .sendError errorData =>
      s.isWritable = true → (s.sendWith cfg id "error" (.json errorData)).2 = none →
        (s.sendWith cfg id "error" (.json errorData)).1.Stringifies cfg live
  | .flush => s.isWritable = true → s.Stringifies cfg live
  | .resume => s.Stringifies cfg live
  | _ => True

instance (s : Stream) (live : ℕ → Option String) :
    ∀ a, Decidable (s.Keeping cfg live a)
  | .send _ _ => inferInstanceAs (Decidable (_ → _))
  | .sendError _ => inferInstanceAs (Decidable (_ → _ → _))
  | .flush => inferInstanceAs (Decidable (_ → _))
  | .resume => inferInstanceAs (Decidable (Stringifies _ _ _))
  | .ping _ => inferInstanceAs (Decidable True)
  | .setRetry _ => inferInstanceAs (Decidable True)
  | .close => inferInstanceAs (Decidable True)
  | .disconnect => inferInstanceAs (Decidable True)
  | .drain => inferInstanceAs (Decidable True)
  | .pull => inferInstanceAs (Decidable True)

end Stream

/-- A stream with the number of `send` calls that have returned normally. -/
structure Counted where
  stream : Stream
  returned : ℕ := 0
  deriving DecidableEq, Repr

/-- An action, with what `JSON.stringify` gives in each turn of its flush. -/
structure LiveAction where
  action : Action
  live : ℕ → Option String := fun _ => none

namespace Counted

def step (cfg : Config) (c : Counted) (a : LiveAction) : Option Counted :=
  (c.stream.stepLive cfg a.live a.action).map fun s =>
    ⟨s, c.returned + c.stream.returned cfg a.action⟩

/-- **Every `send` that returned is accounted for, and the buffer keeps its limit.** -/
structure Accounted (cfg : Config) (c : Counted) : Prop where
  account : c.returned =
    c.stream.metrics.eventsSent + c.stream.metrics.eventsDropped + c.stream.buffer.length
  limit : (c.stream.buffer.length : ℤ) ≤ cfg.maxBuffer

/-- No more events are in the account than `send` calls have returned, and the buffer keeps its
limit: so much holds always. -/
structure Covered (cfg : Config) (c : Counted) : Prop where
  account : c.stream.account ≤ c.returned
  limit : c.stream.WithinLimit cfg

/-- No event is missing. -/
def Balanced (c : Counted) : Prop := c.returned = c.stream.account

variable {c c' : Counted} {live : ℕ → Option String}

lemma Covered.of_keeps (h : Covered cfg c) {s : Stream} (hk : c.stream.Keeps s) :
    Covered cfg ⟨s, c.returned + 0⟩ ∧ (Balanced ⟨s, c.returned + 0⟩ ↔ c.Balanced) :=
  ⟨⟨hk.account.trans_le h.account, hk.withinLimit h.limit⟩, by
    rw [Balanced, Balanced, hk.account]
    rfl⟩

/-- A flush misses an event, or keeps the balance. -/
lemma Covered.of_flushes (h : Covered cfg c) {p : Prop} {s : Stream} (hf : c.stream.Flushes p s) :
    Covered cfg ⟨s, c.returned + 0⟩ ∧ (Balanced ⟨s, c.returned + 0⟩ ↔ c.Balanced ∧ p) := by
  have hcovered := h.account
  have hlimit : s.WithinLimit cfg := Int.le_trans (Int.ofNat_le.mpr hf.buffer) h.limit
  by_cases hp : p
  · have haccount := hf.kept hp
    refine ⟨⟨haccount.trans_le hcovered, hlimit⟩, ?_⟩
    rw [Balanced, Balanced, haccount, and_iff_left hp]
    rfl
  · have haccount := hf.lost hp
    refine ⟨⟨?_, hlimit⟩, iff_of_false ?_ fun hboth => hp hboth.2⟩
    · dsimp only
      omega
    · rw [Balanced]
      dsimp only
      omega

/-- A `send`, whoever calls it. -/
lemma Covered.send (hmax : 1 ≤ cfg.maxBuffer) (h : Covered cfg c) (live : ℕ → Option String)
    (event : String) (data : Value)
    (hopen : (c.stream.sendWith cfg (Stream.flushLive cfg live) event data).1.state ≠ .closed) :
    let s := (c.stream.sendWith cfg (Stream.flushLive cfg live) event data).1
    let accepted := c.stream.sendWith cfg id event data
    let n := if accepted.2 = none then 1 else 0
    Covered cfg ⟨s, c.returned + n⟩ ∧ (Balanced ⟨s, c.returned + n⟩ ↔
      c.Balanced ∧ (accepted.2 = none → accepted.1.Stringifies cfg live)) := by
  dsimp only
  rw [Stream.sendWith_eq] at hopen ⊢
  rcases Stream.send_account hmax h.limit event data with
    ⟨hnone, -, haccount, hlimit⟩ | ⟨hsome, hk⟩
  · rw [if_pos hnone] at hopen
    rw [if_pos hnone, if_pos hnone, forall_prop_of_true hnone]
    generalize (c.stream.sendWith cfg id event data).1 = s at haccount hlimit hopen
    have hcovered := h.account
    have haccepted : Covered cfg ⟨s, c.returned + 1⟩ := ⟨by dsimp only; omega, hlimit⟩
    have hbalanced : Balanced ⟨s, c.returned + 1⟩ ↔ c.Balanced := by
      rw [Balanced, Balanced, haccount]
      exact Nat.add_right_cancel_iff
    have hs : s.state ≠ .closed := fun hclosed =>
      hopen ((Stream.state_flushLoopLive s.buffer live s).trans hclosed)
    rw [← hbalanced]
    exact haccepted.of_flushes (Stream.flushLive_account hs live)
  · rw [if_neg hsome] at hopen
    rw [if_neg hsome, if_neg hsome, and_iff_left fun hnone => absurd hnone hsome]
    exact h.of_keeps (hk.resolve_right hopen)

/-- A closed stream stays closed. -/
lemma step_closed {s s' : Stream} {a : Action} {live : ℕ → Option String}
    (h : s.stepLive cfg live a = some s') (hs : s.state = .closed) : s'.state = .closed := by
  have hw : (!s.isWritable) = true := by simp [Stream.isWritable, hs]
  have hflush (s : Stream) : (s.flushLive cfg live).state = s.state :=
    Stream.state_flushLoopLive s.buffer live s
  cases a with
  | send event data =>
      obtain rfl := Option.some.inj h
      rw [Stream.sendWith, if_pos hw]
      exact hs
  | sendError errorData =>
      obtain rfl := Option.some.inj h
      rw [if_pos hw]
      exact hs
  | flush =>
      obtain rfl := Option.some.inj h
      rw [if_pos hw]
      exact hs
  | resume =>
      rw [Stream.stepLive] at h
      split at h
      · obtain rfl := Option.some.inj h
        exact (hflush _).trans hs
      · cases h
  | ping comment =>
      obtain rfl := Option.some.inj h
      rw [Stream.ping.eq_def, if_pos hw]
      exact hs
  | setRetry milliseconds =>
      obtain rfl := Option.some.inj h
      rw [Stream.setRetry.eq_def, if_pos hw]
      exact hs
  | close =>
      obtain rfl := Option.some.inj h
      exact Stream.close_state s
  | disconnect =>
      obtain rfl := Option.some.inj h
      rw [Stream.handleDisconnect]
      split
      · exact Stream.close_state s
      · exact hs
  | drain =>
      obtain rfl := Option.some.inj h
      exact hs
  | pull =>
      obtain rfl := Option.some.inj h
      exact hs

/-- **What one step does to the balance of a stream that is not closed**: it is kept exactly if the
data of every event that the step's flush comes to has a text, and it never recovers. -/
lemma step_covered {a : LiveAction} (hmax : 1 ≤ cfg.maxBuffer) (ha : a.action ≠ .pull)
    (h : c.step cfg a = some c') (hc : Covered cfg c) (hopen : c'.stream.state ≠ .closed) :
    Covered cfg c' ∧
      (c'.Balanced ↔ c.Balanced ∧ c.stream.Keeping cfg a.live a.action) := by
  obtain ⟨s, hs, rfl⟩ := Option.map_eq_some_iff.mp h
  have hstart : c.stream.state ≠ .closed := fun hclosed => hopen (step_closed hs hclosed)
  have hkeeps {s : Stream} (hk : c.stream.Keeps s) : Covered cfg ⟨s, c.returned + 0⟩ ∧
      (Balanced ⟨s, c.returned + 0⟩ ↔ c.Balanced ∧ True) := by
    rw [and_true]
    exact hc.of_keeps hk
  obtain ⟨action, live⟩ := a
  cases action with
  | send event data =>
      obtain rfl := Option.some.inj hs
      exact hc.send hmax live event data hopen
  | sendError errorData =>
      obtain rfl := Option.some.inj hs
      dsimp only at hopen ⊢
      rw [Stream.returned, Stream.Keeping]
      by_cases hw : c.stream.isWritable
      · rw [if_neg (by simp [hw])] at hopen ⊢
        rw [forall_prop_of_true hw]
        simp only [hw, true_and]
        exact hc.send hmax live "error" (.json errorData) hopen
      · rw [if_pos (by simpa using hw), if_neg (by simp [hw]),
          and_iff_left fun hw' => absurd hw' hw]
        exact hc.of_keeps (Stream.Keeps.refl _)
  | flush =>
      obtain rfl := Option.some.inj hs
      dsimp only
      rw [Stream.Keeping]
      by_cases hw : c.stream.isWritable
      · rw [if_neg (by simp [hw]), forall_prop_of_true hw]
        exact hc.of_flushes (Stream.flushLive_account hstart live)
      · rw [if_pos (by simpa using hw), and_iff_left fun hw' => absurd hw' hw]
        exact hc.of_keeps (Stream.Keeps.refl _)
  | resume =>
      rw [Stream.stepLive] at hs
      split at hs
      · obtain rfl := Option.some.inj hs
        have hwoken : Covered cfg ⟨{ c.stream with resumed := c.stream.resumed - 1 }, c.returned⟩ :=
          ⟨hc.account, hc.limit⟩
        exact hwoken.of_flushes (Stream.flushLive_account
          (s := { c.stream with resumed := c.stream.resumed - 1 }) hstart live)
      · cases hs
  | ping comment =>
      obtain rfl := Option.some.inj hs
      refine hkeeps ?_
      rw [Stream.ping.eq_def]
      split
      · exact Stream.Keeps.refl _
      · exact Stream.writeRaw_keeps _ _ _
  | setRetry milliseconds =>
      obtain rfl := Option.some.inj hs
      refine hkeeps ?_
      rw [Stream.setRetry.eq_def]
      split
      · exact Stream.Keeps.refl _
      · split
        · split
          · exact Stream.Keeps.refl _
          · exact Stream.writeRaw_keeps _ _ _
        · exact Stream.Keeps.refl _
  | close =>
      obtain rfl := Option.some.inj hs
      exact absurd (Stream.close_state c.stream) hopen
  | disconnect =>
      obtain rfl := Option.some.inj hs
      refine hkeeps ?_
      rw [Stream.handleDisconnect] at hopen ⊢
      split at hopen
      next => exact absurd (Stream.close_state c.stream) hopen
      next hif =>
          rw [if_neg hif]
          exact Stream.Keeps.refl _
  | drain =>
      obtain rfl := Option.some.inj hs
      exact hkeeps ⟨rfl, rfl, Nat.le_refl _⟩
  | pull => exact absurd rfl ha

lemma createSSEStream_covered (hmax : 1 ≤ cfg.maxBuffer) (lastEventId : Option String) :
    Covered cfg ⟨createSSEStream cfg lastEventId, 0⟩ ∧
      Balanced ⟨createSSEStream cfg lastEventId, 0⟩ := by
  have hstart (s : Stream) (hs : s.account = 0) (hempty : s.buffer = []) (data : String) :
      Covered cfg ⟨(s.writeRaw cfg none data).1, 0⟩ ∧
        Balanced ⟨(s.writeRaw cfg none data).1, 0⟩ := by
    have hlimit : s.WithinLimit cfg := by
      rw [Stream.WithinLimit, hempty]
      exact Int.le_trans (by decide) hmax
    obtain ⟨hcovered, hbalanced⟩ :=
      Covered.of_keeps (c := ⟨s, 0⟩) ⟨hs.le, hlimit⟩ (Stream.writeRaw_keeps s none data)
    exact ⟨hcovered, hbalanced.mpr hs.symm⟩
  rw [createSSEStream.eq_def]
  refine hstart _ ?_ ?_ _
  · split
    · split <;> rfl
    · rfl
  · split
    · split <;> rfl
    · rfl

lemma exec_closed {as : List LiveAction} (hrun : exec (step cfg) c as = some c')
    (hc : c.stream.state = .closed) : c'.stream.state = .closed := by
  refine meets_invariant (I := fun c => c.stream.state = .closed) (fun c a c' hc _ h => ?_) hc
    (meets_true c as) hrun
  obtain ⟨s, hs, rfl⟩ := Option.map_eq_some_iff.mp h
  exact step_closed hs hc

/-- A run keeps the balance exactly if each of its steps does. -/
lemma exec_covered {as : List LiveAction} (hmax : 1 ≤ cfg.maxBuffer)
    (hpull : ∀ a ∈ as, a.action ≠ .pull) (hrun : exec (step cfg) c as = some c')
    (hc : Covered cfg c) (hopen : c'.stream.state ≠ .closed) :
    Covered cfg c' ∧ (c'.Balanced ↔ c.Balanced ∧
      Meets (step cfg) (fun c a => c.stream.Keeping cfg a.live a.action) c as) := by
  induction as generalizing c with
  | nil =>
      obtain rfl : c = c' := by simpa using hrun
      exact ⟨hc, (and_iff_left trivial).symm⟩
  | cons a as ih =>
      rw [exec_cons] at hrun
      obtain ⟨next, hnext, hrun⟩ := Option.bind_eq_some_iff.mp hrun
      obtain ⟨hcovered, hbalanced⟩ := step_covered hmax (hpull a List.mem_cons_self) hnext hc
        fun hclosed => hopen (exec_closed hrun hclosed)
      obtain ⟨hlast, hrest⟩ := ih (fun b hb => hpull b (List.mem_cons_of_mem _ hb)) hrun hcovered
      refine ⟨hlast, ?_⟩
      rw [hrest, hbalanced, meets_cons_iff hnext, and_assoc]

/-- **Before the stream is closed the buffer keeps its limit, and every `send` that returned
normally is accounted for if and only if the data of every event that a flush came to had a text
then**: whatever was called without the async iterator, whatever the response answered and whenever
it drained. -/
theorem accounted_iff (cfg : Config) (hmax : 1 ≤ cfg.maxBuffer) (lastEventId : Option String)
    (as : List LiveAction) (hpull : ∀ a ∈ as, a.action ≠ .pull) {c : Counted}
    (hrun : exec (step cfg) ⟨createSSEStream cfg lastEventId, 0⟩ as = some c)
    (hopen : c.stream.state ≠ .closed) :
    (c.stream.buffer.length : ℤ) ≤ cfg.maxBuffer ∧
      (Accounted cfg c ↔ Meets (step cfg) (fun c a => c.stream.Keeping cfg a.live a.action)
        ⟨createSSEStream cfg lastEventId, 0⟩ as) := by
  obtain ⟨hstart, hbalanced⟩ := createSSEStream_covered hmax lastEventId
  obtain ⟨hcovered, hiff⟩ := exec_covered hmax hpull hrun hstart hopen
  rw [and_iff_right hbalanced] at hiff
  rw [← hiff]
  exact ⟨hcovered.limit, fun h => h.account, fun h => ⟨h, hcovered.limit⟩⟩

/-- A buffer for one event, and a response that is full at its second and third call. -/
def smallBuffer : Config :=
  { maxBufferSize := 1, answer := fun n => if n = 1 ∨ n = 2 then .full else .taken }

/-- Two events, the second of which takes the place of the first and has another text at the end. -/
def changed : List LiveAction :=
  [⟨.send "tick" (.string "a"), fun _ => none⟩,
    ⟨.send "tick" (.json (some "1")), fun _ => some "1"⟩, ⟨.drain, fun _ => none⟩,
    ⟨.resume, fun _ => some "2"⟩]

/-- Both are accounted for. -/
theorem accounted_iff_smallBuffer :
    ∃ c, exec (step smallBuffer) ⟨createSSEStream smallBuffer none, 0⟩ changed = some c ∧
      c.returned = 2 ∧ c.stream.metrics.eventsSent = 1 ∧ c.stream.metrics.eventsDropped = 1 ∧
      Accounted smallBuffer c :=
  ⟨_, rfl, by decide, by decide, by decide,
    (accounted_iff smallBuffer (by decide) none changed (by decide) rfl (by decide)).2.mpr
      (by decide +kernel)⟩

/-- An event that waits for `'drain'`, with data that `JSON.stringify` refuses by then. -/
def lostOne : List LiveAction :=
  [⟨.send "tick" (.json (some "\x7b\x7d")), fun _ => some "\x7b\x7d"⟩, ⟨.drain, fun _ => none⟩,
    ⟨.resume, fun _ => none⟩]

/-- The `send` has returned; its event was not sent, was not dropped and is not in the buffer. -/
theorem not_accounted :
    ∃ c, exec (step smallBuffer) ⟨createSSEStream smallBuffer none, 0⟩ lostOne = some c ∧
      c.stream.state = .connected ∧ c.returned = 1 ∧ c.stream.metrics.eventsSent = 0 ∧
      c.stream.metrics.eventsDropped = 0 ∧ c.stream.buffer = [] ∧ ¬ Accounted smallBuffer c :=
  ⟨_, rfl, by decide, by decide, by decide, by decide, by decide, fun h => by
    have hone : 1 = 0 := h.account
    cases hone⟩

end Counted

end Blaize.Sse
