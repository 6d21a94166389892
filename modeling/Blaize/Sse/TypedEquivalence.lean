import Blaize.Sse.Accounting
import Blaize.Sse.TypedStream

/-!
Is the typed stream the base stream?

The wrapper and its base drift apart when a method on the wrapper assigns a field: after
`close()` on the wrapper, or after a write of the wrapper has thrown, the base is still
writable, and `send` and the flushes that it has started work on the base.

* `Stream.shift`: no method looks at the numbers of waiting and woken flushes;
* `Connection.Faithful`: a step at which the wrapper does what the base would do;
* `Connection.Same`: the two runs so far cannot be told apart;
* `wrapped_same_of_faithful`: **in a run of faithful steps the wrapper returns and throws what
  the base stream does, writes the same bytes and runs each close callback as often**.
-/

namespace Blaize.Sse

open Machine

variable {cfg : Config}

/-! ### The numbers of the flushes -/

namespace Stream

/-- More flushes that wait or that were woken. -/
def shift (a b : ℕ) (s : Stream) : Stream :=
  { s with waiting := s.waiting + a, resumed := s.resumed + b }

variable (a b : ℕ) (s : Stream)

@[simp] lemma shift_state : (s.shift a b).state = s.state := rfl

@[simp] lemma shift_writable : (s.shift a b).writable = s.writable := rfl

@[simp] lemma shift_buffer : (s.shift a b).buffer = s.buffer := rfl

@[simp] lemma shift_eventCounter : (s.shift a b).eventCounter = s.eventCounter := rfl

@[simp] lemma shift_isWritable : (s.shift a b).isWritable = s.isWritable := rfl

lemma writeRaw_shift (event : Option BufferedEvent) (data : String) :
    (s.shift a b).writeRaw cfg event data =
      ((s.writeRaw cfg event data).1.shift a b, (s.writeRaw cfg event data).2) := by
  by_cases h : (! s.writable || s.state == .closed) = true
  · simp only [writeRaw, shift, h, if_true]
  · simp only [writeRaw, shift, h]
    cases cfg.answer s.writes.length <;> rfl

lemma flushLoop_shift (l : List BufferedEvent) :
    flushLoop cfg l (s.shift a b) = (flushLoop cfg l s).shift a b := by
  induction l generalizing s with
  | nil => rfl
  | cons event rest ih =>
      by_cases hw : s.writable = true
      · have hwrite : writeRaw cfg { s.shift a b with buffer := rest } (some event)
            event.formatted = _ :=
          writeRaw_shift a b { s with buffer := rest } (some event) event.formatted
        rw [flushLoop, flushLoop, if_pos hw, if_pos (s.shift_writable a b ▸ hw), hwrite]
        cases writeRaw cfg { s with buffer := rest } (some event) event.formatted with
        | mk s' taken =>
            cases taken with
            | true => exact ih { s' with metrics.eventsSent := s'.metrics.eventsSent + 1 }
            | false =>
                simp only [shift, Nat.add_right_comm]
      · rw [flushLoop, flushLoop, if_neg hw, if_neg (s.shift_writable a b ▸ hw)]
        rfl

lemma flushBuffer_shift : (s.shift a b).flushBuffer cfg = (s.flushBuffer cfg).shift a b :=
  flushLoop_shift a b s s.buffer

lemma close_shift : (s.shift a b).close cfg = (s.close cfg).shift a b := by
  by_cases h : s.state = .closed
  · simp only [close, shift_state, h, if_true]
  · simp only [close, shift_state, h, if_false]
    rfl

lemma enqueue_shift (e : BufferedEvent) :
    (s.shift a b).enqueue cfg e = ((s.enqueue cfg e).1.shift a b, (s.enqueue cfg e).2) := by
  by_cases hfull : cfg.maxBuffer ≤ s.buffer.length
  · by_cases hclose : cfg.strategy = .close
    · simp only [enqueue, shift_buffer, hfull, hclose, if_true, close_shift]
    · simp only [enqueue, shift_buffer, hfull, hclose, if_true, if_false]
      rfl
  · simp only [enqueue, shift_buffer, hfull, if_false]
    rfl

lemma send_shift (event : String) (data : Value) :
    (s.shift a b).send cfg event data =
      ((s.send cfg event data).1.shift a b, (s.send cfg event data).2) := by
  have hnext : (s.shift a b).nextEventId = s.nextEventId.shift a b := rfl
  rw [send, send, sendWith, sendWith, shift_isWritable, hnext]
  split
  · rfl
  · dsimp only
    split
    · rfl
    next text hdata =>
        split
        · rfl
        · rw [shift_eventCounter, enqueue_shift]
          generalize s.nextEventId.enqueue cfg _ = r
          obtain ⟨s', _ | err⟩ := r
          · exact Prod.ext (flushBuffer_shift a b s'.updateHighWatermark) rfl
          · rfl

lemma ping_shift (comment : Option String) :
    (s.shift a b).ping cfg comment = (s.ping cfg comment).shift a b := by
  rw [ping.eq_def, ping.eq_def, shift_isWritable]
  split
  · rfl
  · exact congrArg Prod.fst (writeRaw_shift a b s none _)

lemma setRetry_shift (milliseconds : Option ℤ) :
    (s.shift a b).setRetry cfg milliseconds =
      ((s.setRetry cfg milliseconds).1.shift a b, (s.setRetry cfg milliseconds).2) := by
  rw [setRetry.eq_def, setRetry.eq_def, shift_isWritable]
  split
  · rfl
  · split
    · rw [writeRaw_shift]
      split <;> rfl
    · rfl

lemma flush_shift : (s.shift a b).flush cfg = (s.flush cfg).shift a b := by
  rw [flush, flush, shift_isWritable, flushBuffer_shift]
  split <;> rfl

/-! ### What a method may assign -/

/-- Between the two streams, nothing was assigned but `_writable`, which a write that throws
makes `false`, and no flush was woken. -/
structure InPlace (s s' : Stream) : Prop where
  state : s'.state = s.state
  eventCounter : s'.eventCounter = s.eventCounter
  lastEventId : s'.lastEventId = s.lastEventId
  resumed : s'.resumed = s.resumed
  waiting : s.waiting ≤ s'.waiting
  writable : s'.writable = true → s.writable = true
  buffer : s.writable = false → s'.buffer = s.buffer

variable {s}

lemma InPlace.refl : s.InPlace s := ⟨rfl, rfl, rfl, rfl, Nat.le_refl _, id, fun _ => rfl⟩

lemma writeRaw_inPlace (event : Option BufferedEvent) (data : String) :
    s.InPlace (s.writeRaw cfg event data).1 := by
  rcases writeRaw_cases cfg s event data with he | ⟨n, he⟩ | he | he <;> rw [he]
  · exact InPlace.refl
  · exact ⟨rfl, rfl, rfl, rfl, Nat.le_refl _, id, fun _ => rfl⟩
  · exact ⟨rfl, rfl, rfl, rfl, Nat.le_refl _, id, fun _ => rfl⟩
  · exact ⟨rfl, rfl, rfl, rfl, Nat.le_refl _, nofun, fun _ => rfl⟩

lemma flushLoop_inPlace (l : List BufferedEvent) (s : Stream) :
    { s with buffer := l }.InPlace (flushLoop cfg l s) := by
  induction l generalizing s with
  | nil => exact InPlace.refl
  | cons event rest ih =>
      rw [flushLoop]
      split
      next hw =>
          rcases writeRaw_cases cfg { s with buffer := rest } (some event) event.formatted with
            he | ⟨n, he⟩ | he | he <;> rw [he]
          · exact ⟨rfl, rfl, rfl, rfl, Nat.le_succ _, id, fun _ => rfl⟩
          · have hrest := ih { s with
              buffer := rest
              writes := s.writes ++ [⟨some event, event.formatted, .taken⟩]
              metrics := { s.metrics with
                bytesWritten := n, eventsSent := s.metrics.eventsSent + 1 } }
            exact ⟨hrest.state, hrest.eventCounter, hrest.lastEventId, hrest.resumed,
              hrest.waiting, hrest.writable, fun h => absurd (hw.symm.trans h) (by decide)⟩
          · exact ⟨rfl, rfl, rfl, rfl, Nat.le_succ _, id, fun _ => rfl⟩
          · exact ⟨rfl, rfl, rfl, rfl, Nat.le_succ _, by rintro ⟨⟩, fun _ => rfl⟩
      next => exact InPlace.refl

lemma flushBuffer_inPlace : s.InPlace (s.flushBuffer cfg) := flushLoop_inPlace s.buffer s

lemma flush_inPlace : s.InPlace (s.flush cfg) := by
  rw [flush]
  split
  · exact InPlace.refl
  · exact flushBuffer_inPlace

lemma ping_inPlace (comment : Option String) : s.InPlace (s.ping cfg comment) := by
  rw [ping.eq_def]
  split
  · exact InPlace.refl
  · exact writeRaw_inPlace _ _

lemma setRetry_inPlace (milliseconds : Option ℤ) :
    s.InPlace (s.setRetry cfg milliseconds).1 := by
  rw [setRetry.eq_def]
  split
  · exact InPlace.refl
  · split
    · split
      · exact InPlace.refl
      · exact writeRaw_inPlace _ _
    · exact InPlace.refl

/-- A flush on a stream that is not writable, or without events, does nothing. -/
lemma flushBuffer_eq_self (h : s.buffer = [] ∨ s.writable = false) : s.flushBuffer cfg = s := by
  rw [flushBuffer]
  cases hb : s.buffer with
  | nil =>
      rw [flushLoop, ← hb]
  | cons event rest =>
      have hw : s.writable = false := h.resolve_left (by simp [hb])
      rw [flushLoop, if_neg (by simp [hw]), ← hb]

/-- An event that is accepted for its data and its size fails only by the overflow that closes
the stream. -/
lemma send_of_accepted {event text : String} {data : Value} (hw : s.isWritable = true)
    (hdata : dataStr data = some text)
    (hsize : (estimateEventSize event text : ℤ) ≤ cfg.maxEventSize) :
    (s.send cfg event data).2 = none ∨
      (cfg.maxBuffer ≤ s.buffer.length ∧ cfg.strategy = .close) ∧
        (s.send cfg event data).1.state = .closed := by
  rw [send, sendWith, if_neg (by simp [hw])]
  dsimp only
  split
  next h =>
      rw [hdata] at h
      cases h
  next text' h =>
      obtain rfl : text = text' := Option.some.inj (hdata.symm.trans h)
      rw [if_neg (Int.not_lt.mpr hsize)]
      split
      next s' err he =>
          refine Or.inr ⟨?_, enqueue_error he⟩
          rw [enqueue] at he
          dsimp only at he
          split at he
          next hfull =>
              split at he
              next hclose => exact ⟨hfull, hclose⟩
              next => cases (Prod.mk.inj he).2
          next => cases (Prod.mk.inj he).2
      next => exact Or.inl rfl

end Stream

namespace Connection

variable {texts : Texts} {schemas : Schemas}

/-! ### Faithful steps -/

/-- The event has a text and is not too large. -/
def Sendable (cfg : Config) (event : String) (data : Value) : Prop :=
  ∃ text, dataStr data = some text ∧ (estimateEventSize event text : ℤ) ≤ cfg.maxEventSize

instance (event : String) (data : Value) : Decidable (Sendable cfg event data) :=
  match h : dataStr data with
  | none => .isFalse (by rintro ⟨text, ht, -⟩; rw [h] at ht; cases ht)
  | some text =>
      decidable_of_iff ((estimateEventSize event text : ℤ) ≤ cfg.maxEventSize)
        ⟨fun hs => ⟨text, h, hs⟩, fun ⟨text', ht, hs⟩ => by
          rw [h] at ht
          exact Option.some.inj ht ▸ hs⟩

/-- The wrapper does what the base would do: an event with a schema is accepted by it
unchanged and by the base, an event without one is not named like a member of every object,
and neither an event nor a flush of the base with events in the buffer meets a base that is
still writable behind a wrapper that is not. -/
def Faithful (cfg : Config) (schemas : Schemas) (c : Connection) : Use → Prop
  | .send event data =>
      c.base.isWritable = c.view.isWritable ∧
        ∀ schema, schemas.lookup event = some schema →
          schema data = .ok data ∧ c.base.isWritable = true ∧ Sendable cfg event data ∧
            ¬ (cfg.maxBuffer ≤ c.base.buffer.length ∧ cfg.strategy = .close)
  | .sendError errorData =>
      c.view.isWritable = true → ∀ schema, schemas.lookup "error" = some schema →
        schema (.json errorData) = .ok (.json errorData) ∧
          Sendable cfg "error" (.json errorData)
  | .resume .base => c.base.buffer = [] ∨ c.base.writable = c.view.writable
  | _ => True

/-! ### Runs that cannot be told apart -/

/-- What is assigned on the wrapper: nothing but perhaps the flag, or all that `close`
assigns. -/
structure Assigned (own : Own) : Prop where
  writable : own.writable = none ∨ own.writable = some false
  fields : (own.state = none ∧ own.buffer = none ∧ own.closeCallbacks = none) ∨
    (own.state = some .closed ∧ own.writable = some false ∧ own.buffer = some [])

/-- **The run on the base and the run on the wrapper cannot be told apart**: the wrapper sees
the stream of the other run, up to whose flushes are waiting. -/
structure Same (d t : Connection) : Prop where
  assigned : Assigned t.own
  base : d.base = t.view.shift t.ownWaiting t.ownResumed
  callbacks : d.base.state ≠ .closed → d.closeCallbacks = t.closeCallbacks
  listening : d.listening = t.listening
  quiet : d.base.state = .closed → d.listening = false
  runs : d.runs = t.runs
  outcomes : d.outcomes = t.outcomes

variable {d t : Connection}

lemma updateBase_of_state {c : Connection} {s : Stream} (h : s.state = c.base.state) :
    c.updateBase s = { c with base := s } := by
  rw [updateBase, if_neg]
  rintro ⟨hne, hs⟩
  exact hne (h ▸ hs)

/-- A wrapper that is writable has no fields of its own. -/
lemma Assigned.own_eq (h : Assigned t.own) (hw : t.view.writable = true) : t.own = {} := by
  have hwritable : t.own.writable = none := by
    refine h.writable.resolve_right fun he => ?_
    simp [view, he] at hw
  rcases h.fields with ⟨hs, hb, hc⟩ | ⟨-, he, -⟩
  · cases hown : t.own with
    | mk state writable buffer closeCallbacks =>
        rw [hown] at hs hb hc hwritable
        obtain rfl : state = none := hs
        obtain rfl : writable = none := hwritable
        obtain rfl : buffer = none := hb
        obtain rfl : closeCallbacks = none := hc
        rfl
  · rw [he] at hwritable
    cases hwritable

lemma view_of_own {c : Connection} (h : c.own = {}) : c.view = c.base := by
  rw [view, h]
  rfl

lemma assigned_of_own {own : Own} (h : own = {}) : Assigned own := by
  refine ⟨Or.inl ?_, Or.inl ⟨?_, ?_, ?_⟩⟩ <;> rw [h]

lemma writable_of_isWritable {s : Stream} (h : s.isWritable = true) :
    s.writable = true ∧ s.state = .connected := by
  simpa [Stream.isWritable] using h

/-- After a method that assigns nothing but the flag, the wrapper sees its result. -/
lemma view_absorb {s : Stream} (h : t.view.InPlace s) :
    (t.absorb s).view = { s with waiting := t.base.waiting } := by
  have hwritable : (if s.writable = t.view.writable then t.own.writable
      else some s.writable).getD t.base.writable = s.writable := by
    split
    next he => exact he.symm
    next => rfl
  have hbuffer : (t.own.buffer.map fun _ => s.buffer).getD
      (if t.own.buffer.isSome then t.base.buffer else s.buffer) = s.buffer := by
    cases t.own.buffer <;> rfl
  rw [view, absorb]
  dsimp only
  rw [hwritable, hbuffer, show t.own.state.getD t.base.state = s.state from h.state.symm,
    show t.base.eventCounter = s.eventCounter from h.eventCounter.symm,
    show t.base.lastEventId = s.lastEventId from h.lastEventId.symm,
    show t.base.resumed = s.resumed from h.resumed.symm]

lemma assigned_absorb (h : Assigned t.own) {s : Stream} (hs : t.view.InPlace s) :
    Assigned (t.absorb s).own := by
  have hchanged : s.writable ≠ t.view.writable → s.writable = false := by
    intro hne
    rw [Bool.eq_false_iff]
    exact fun hw => hne (hw.trans (hs.writable hw).symm)
  refine ⟨?_, ?_⟩
  · rw [absorb]
    dsimp only
    split
    · exact h.writable
    next hne => exact Or.inr (by rw [hchanged hne])
  · rcases h.fields with ⟨hstate, hbuffer, hcallbacks⟩ | ⟨hstate, hwritable, hbuffer⟩
    · exact Or.inl ⟨hstate, by rw [absorb, hbuffer, Option.map_none], hcallbacks⟩
    · -- a closed wrapper is not writable, and its buffer stays empty
      have hview : t.view.writable = false := by rw [view, hwritable]; rfl
      have hsame : s.writable = t.view.writable := by
        by_contra hne
        exact hne ((hchanged hne).trans hview.symm)
      refine Or.inr ⟨hstate, ?_, ?_⟩
      · rw [absorb]
        dsimp only
        rw [if_pos hsame, hwritable]
      · rw [absorb]
        dsimp only
        rw [hs.buffer hview, view, hbuffer]
        rfl

/-- **A method that assigns nothing but the flag keeps the two runs alike.** -/
lemma Same.absorb (h : Same d t) {s : Stream} (hs : t.view.InPlace s) :
    Same (d.updateBase (s.shift t.ownWaiting t.ownResumed)) (t.absorb s) := by
  have hstate : (s.shift t.ownWaiting t.ownResumed).state = d.base.state := by
    rw [h.base]
    exact hs.state
  rw [updateBase_of_state hstate]
  refine ⟨assigned_absorb h.assigned hs, ?_, ?_, h.listening, ?_, h.runs, h.outcomes⟩
  · have hwaiting : t.base.waiting ≤ s.waiting := hs.waiting
    rw [view_absorb hs, Stream.shift, Stream.shift]
    simp only [Connection.absorb, Stream.mk.injEq, true_and, and_true]
    omega
  · exact fun hne => h.callbacks (hstate ▸ hne)
  · exact fun he => h.quiet (hstate ▸ he)

/-! ### Closing -/

lemma state_eq (h : Same d t) : d.base.state = t.view.state := by
  rw [h.base]
  rfl

/-- A wrapper that is not closed has its state from the base. -/
lemma Assigned.of_open (h : Assigned t.own) (hs : t.view.state ≠ .closed) :
    t.own.state = none ∧ t.own.buffer = none ∧ t.own.closeCallbacks = none := by
  refine h.fields.resolve_right fun hc => hs ?_
  rw [view, hc.1]
  rfl

lemma close_of_closed {s : Stream} (h : s.state = .closed) : s.close cfg = s := by
  rw [Stream.close, if_pos h]

lemma Same.close (h : Same d t) :
    Same (d.updateBase (d.base.close cfg)) (t.closeTyped cfg) := by
  by_cases hs : t.view.state = .closed
  · have hd : d.base.state = .closed := (state_eq h).trans hs
    rw [close_of_closed hd, updateBase_of_state rfl, closeTyped, if_pos hs]
    exact h
  · have hd : d.base.state ≠ .closed := fun he => hs ((state_eq h).symm.trans he)
    obtain ⟨-, -, hcallbacks⟩ := h.assigned.of_open hs
    rw [updateBase, if_pos ⟨hd, Stream.close_state d.base⟩, closeTyped, if_neg hs]
    refine ⟨⟨Or.inr rfl, Or.inr ⟨rfl, rfl, rfl⟩⟩, ?_, ?_, rfl, fun _ => rfl, ?_, h.outcomes⟩
    · rw [h.base, Stream.close_shift, Stream.close, if_neg hs]
      rfl
    · exact fun hne => absurd (Stream.close_state d.base) hne
    · dsimp only
      rw [h.runs, h.callbacks hd, hcallbacks]
      rfl

/-- A method of the base, while the wrapper has no fields of its own. -/
lemma Same.updateBase (h : Same d t) (hown : t.own = {}) {s : Stream}
    (hs : t.base.state = .closed → s.state = .closed) :
    Same (d.updateBase (s.shift t.ownWaiting t.ownResumed)) (t.updateBase s) := by
  have hstate : d.base.state = t.base.state := by
    rw [state_eq h, view_of_own hown]
  rw [Connection.updateBase, Connection.updateBase, hstate, Stream.shift_state]
  split
  next hclose =>
      refine ⟨assigned_of_own hown, ?_, fun hne => absurd hclose.2 hne, rfl, fun _ => rfl, ?_,
        h.outcomes⟩
      · simp only [view, hown]
        rfl
      · dsimp only
        rw [h.runs, h.callbacks (hstate ▸ hclose.1)]
  next hopen =>
      rw [not_and_or, not_not] at hopen
      refine ⟨assigned_of_own hown, ?_, fun hne => ?_, h.listening, fun he => ?_, h.runs,
        h.outcomes⟩
      · simp only [view, hown]
        rfl
      · exact h.callbacks fun he => hne (hs (hstate ▸ he))
      · exact h.quiet (hstate.trans (hopen.resolve_right (not_not.mpr he)))

/-- The listener of the stream on the request. -/
lemma Same.handleDisconnect (h : Same d t) (hl : d.listening = true) :
    Same (d.updateBase (d.base.handleDisconnect cfg))
      (t.updateBase (t.base.handleDisconnect cfg)) := by
  have hd : d.base.state ≠ .closed := fun he => by
    have := h.quiet he
    rw [hl] at this
    cases this
  have hview : t.view.state ≠ .closed := fun he => hd ((state_eq h).trans he)
  obtain ⟨hstate, hbuffer, hcallbacks⟩ := h.assigned.of_open hview
  have ht : t.base.state ≠ .closed := by
    intro he
    refine hview ?_
    rw [view, hstate]
    exact he
  rw [Stream.handleDisconnect, Stream.handleDisconnect]
  by_cases ha : cfg.autoClose = true
  · rw [if_pos (by simpa [ha] using hd), if_pos (by simpa [ha] using ht), Connection.updateBase,
      if_pos ⟨hd, Stream.close_state d.base⟩, Connection.updateBase,
      if_pos ⟨ht, Stream.close_state t.base⟩]
    refine ⟨⟨h.assigned.writable, Or.inl ⟨hstate, hbuffer, hcallbacks⟩⟩, ?_, ?_, rfl,
      fun _ => rfl, ?_, h.outcomes⟩
    · rw [h.base, Stream.close_shift]
      refine congrArg (Stream.shift _ _) ?_
      rw [Stream.close, if_neg hview]
      simp only [view, hstate, hbuffer, Stream.close, if_neg ht, Option.getD_none]
      rcases h.assigned.writable with hw | hw <;> rw [hw] <;> rfl
    · exact fun hne => absurd (Stream.close_state d.base) hne
    · dsimp only
      rw [h.runs, h.callbacks hd]
  · rw [if_neg (by simp [ha]), if_neg (by simp [ha]), updateBase_of_state rfl,
      updateBase_of_state rfl]
    exact h

/-! ### Sending -/

/-- `send` of the base, while the wrapper has no fields of its own. -/
lemma Same.sendBase (h : Same d t) (hw : t.view.isWritable = true) (event : String)
    (data : Value) :
    (d.sendBase cfg event data).2 = (t.sendBase cfg event data).2 ∧
      Same (d.sendBase cfg event data).1 (t.sendBase cfg event data).1 := by
  obtain ⟨hwritable, hconnected⟩ := writable_of_isWritable hw
  have hown := h.assigned.own_eq hwritable
  have hbase : d.base = t.base.shift t.ownWaiting t.ownResumed := by
    rw [h.base, view_of_own hown]
  rw [Connection.sendBase, Connection.sendBase, hbase, Stream.send_shift]
  refine ⟨rfl, h.updateBase hown fun he => ?_⟩
  rw [view_of_own hown, he] at hconnected
  cases hconnected

/-- An event that the base accepts and its schema leaves as it is. -/
lemma sendTyped_of_returned {event : String} {data : Value} {schema : Schema}
    (hlookup : schemas.lookup event = some schema) (hschema : schema data = .ok data)
    (hsend : (t.sendBase cfg event data).2 = none) :
    t.sendTyped cfg texts schemas event data = t.sendBase cfg event data := by
  rw [sendTyped, hlookup]
  dsimp only
  rw [hschema]
  dsimp only
  generalize t.sendBase cfg event data = r at hsend ⊢
  obtain ⟨c, err⟩ := r
  obtain rfl : err = none := hsend
  rfl

@[simp] lemma updateBase_base (c : Connection) (s : Stream) : (c.updateBase s).base = s := by
  rw [Connection.updateBase]
  split <;> rfl

/-- An event that closes the base: the error event that is to report it is refused. -/
lemma sendTyped_of_closed {event : String} {data : Value} {schema : Schema}
    (hlookup : schemas.lookup event = some schema) (hschema : schema data = .ok data)
    (hsend : (t.sendBase cfg event data).2 ≠ none)
    (hclosed : (t.sendBase cfg event data).1.base.state = .closed) :
    (t.sendTyped cfg texts schemas event data).1 = (t.sendBase cfg event data).1 := by
  rw [sendTyped, hlookup]
  dsimp only
  rw [hschema]
  dsimp only
  generalize t.sendBase cfg event data = r at hsend hclosed ⊢
  obtain ⟨c, _ | err⟩ := r
  · exact absurd rfl hsend
  · have hrefused : ∀ errorData, c.base.sendError cfg errorData = c.base := by
      intro errorData
      replace hclosed : c.base.state = .closed := hclosed
      rw [Stream.sendError, if_pos (by simp [Stream.isWritable, hclosed])]
    dsimp only
    rw [hrefused, updateBase_of_state rfl]

lemma sendTyped_of_none {event : String} (hlookup : schemas.lookup event = none) (data : Value) :
    t.sendTyped cfg texts schemas event data = t.sendBase cfg event data := by
  rw [sendTyped, hlookup]

/-- **A faithful `send` on the wrapper is one on the base.** -/
lemma Same.send (h : Same d t) {event : String} {data : Value}
    (hf : Faithful cfg schemas t (.send event data)) :
    (d.sendBase cfg event data).2 = (t.sendTyped cfg texts schemas event data).2 ∧
      Same (d.sendBase cfg event data).1 (t.sendTyped cfg texts schemas event data).1 := by
  obtain ⟨hwritable, hschema⟩ := hf
  have hsend : t.sendTyped cfg texts schemas event data = t.sendBase cfg event data := by
    cases hlookup : schemas.lookup event with
    | none => exact sendTyped_of_none hlookup data
    | some schema =>
        obtain ⟨hok, hw, ⟨text, hdata, hsize⟩, hroom⟩ := hschema schema hlookup
        refine sendTyped_of_returned hlookup hok ?_
        exact (Stream.send_of_accepted hw hdata hsize).resolve_right fun hc => hroom hc.1
  rw [hsend]
  by_cases hw : t.view.isWritable = true
  · exact h.sendBase hw event data
  · -- both streams refuse the event
    have ht : t.base.isWritable = false := by rw [hwritable]; simpa using hw
    have hd : d.base.isWritable = false := by rw [h.base]; simpa using hw
    have hrefused : ∀ c : Connection, c.base.isWritable = false →
        c.sendBase cfg event data =
          (c, some (.streamClosed "Cannot send event to closed stream" "server-close")) := by
      intro c hc
      have hs : c.base.send cfg event data = (c.base,
          some (.streamClosed "Cannot send event to closed stream" "server-close")) := by
        rw [Stream.send, Stream.sendWith, if_pos (by simp [hc])]
      rw [Connection.sendBase, hs, updateBase_of_state rfl]
    rw [hrefused d hd, hrefused t ht]
    exact ⟨rfl, h⟩

/-- **A faithful `sendError` on the wrapper is one on the base.** -/
lemma Same.sendError (h : Same d t) {errorData : Option String}
    (hf : Faithful cfg schemas t (.sendError errorData)) (hw : t.view.isWritable = true) :
    Same (d.updateBase (d.base.sendError cfg errorData))
      (t.sendTyped cfg texts schemas "error" (.json errorData)).1 := by
  have hd : d.base.isWritable = true := by rw [h.base]; exact hw
  have hsend : _ ∧ Same (d.sendBase cfg "error" (.json errorData)).1 _ :=
    h.sendBase hw "error" (.json errorData)
  have hbase : d.updateBase (d.base.sendError cfg errorData) =
      (d.sendBase cfg "error" (.json errorData)).1 := by
    rw [Stream.sendError, if_neg (by simp [hd]), Connection.sendBase]
  rw [hbase]
  cases hlookup : schemas.lookup "error" with
  | none =>
      rw [sendTyped_of_none hlookup]
      exact hsend.2
  | some schema =>
      obtain ⟨hok, text, hdata, hsize⟩ := hf hw schema hlookup
      have hown := h.assigned.own_eq (writable_of_isWritable hw).1
      have ht : t.base.isWritable = true := by rw [← view_of_own hown]; exact hw
      by_cases hreturned : (t.sendBase cfg "error" (.json errorData)).2 = none
      · rw [sendTyped_of_returned hlookup hok hreturned]
        exact hsend.2
      · have hclosed : (t.sendBase cfg "error" (.json errorData)).1.base.state = .closed := by
          rw [Connection.sendBase, updateBase_base]
          exact ((Stream.send_of_accepted ht hdata hsize).resolve_left hreturned).2
        rw [sendTyped_of_closed hlookup hok hreturned hclosed]
        exact hsend.2

/-! ### Flushes -/

/-- One woken flush less. -/
lemma shift_resumed {s : Stream} {a b : ℕ} (h : 0 < s.resumed) :
    { s.shift a b with resumed := (s.shift a b).resumed - 1 } =
      { s with resumed := s.resumed - 1 }.shift a b := by
  simp only [Stream.shift, Stream.mk.injEq, true_and, and_true]
  omega

/-- A flush that a `send` has started runs on. -/
lemma Same.resumeBase (h : Same d t) (hf : Faithful cfg schemas t (.resume .base))
    (hr : 0 < t.base.resumed) :
    Same (d.updateBase ({ d.base with resumed := d.base.resumed - 1 }.flushBuffer cfg))
      (t.updateBase ({ t.base with resumed := t.base.resumed - 1 }.flushBuffer cfg)) := by
  cases hw : t.view.writable with
  | true =>
      have hown := h.assigned.own_eq hw
      have hbase : d.base = t.base.shift t.ownWaiting t.ownResumed := by
        rw [h.base, view_of_own hown]
      rw [hbase, shift_resumed hr, Stream.flushBuffer_shift]
      exact h.updateBase hown fun he => Stream.flushBuffer_inPlace.state.trans he
  | false =>
      -- neither flush writes anything
      have hd : d.base.writable = false := by rw [h.base]; exact hw
      have ht : t.base.buffer = [] ∨ t.base.writable = false := hf.imp_right (·.trans hw)
      have hd' : Stream.flushBuffer cfg { d.base with resumed := d.base.resumed - 1 } = _ :=
        Stream.flushBuffer_eq_self (Or.inr hd)
      have ht' : Stream.flushBuffer cfg { t.base with resumed := t.base.resumed - 1 } = _ :=
        Stream.flushBuffer_eq_self ht
      rw [hd', ht', updateBase_of_state (by rfl), updateBase_of_state (by rfl)]
      refine ⟨h.assigned, ?_, h.callbacks, h.listening, h.quiet, h.runs, h.outcomes⟩
      rw [h.base]
      exact shift_resumed (s := t.view) hr

/-- A flush that was started on the wrapper runs on. -/
lemma Same.resumeTyped (h : Same d t) (hr : 0 < t.ownResumed) :
    Same (d.updateBase ({ d.base with resumed := d.base.resumed - 1 }.flushBuffer cfg))
      ({ t with ownResumed := t.ownResumed - 1 }.absorb (t.view.flushBuffer cfg)) := by
  have hbase : ({ d.base with resumed := d.base.resumed - 1 } : Stream) =
      t.view.shift t.ownWaiting (t.ownResumed - 1) := by
    rw [h.base]
    simp only [Stream.shift, Stream.mk.injEq, true_and, and_true]
    omega
  have hpast : Same { d with base := { d.base with resumed := d.base.resumed - 1 } }
      { t with ownResumed := t.ownResumed - 1 } :=
    ⟨h.assigned, hbase, h.callbacks, h.listening, h.quiet, h.runs, h.outcomes⟩
  have hflush := hpast.absorb (s := t.view.flushBuffer cfg) Stream.flushBuffer_inPlace
  rw [hbase, Stream.flushBuffer_shift]
  exact hflush

lemma Same.drain (h : Same d t) : Same d.drain t.drain := by
  refine ⟨h.assigned, ?_, h.callbacks, h.listening, h.quiet, h.runs, h.outcomes⟩
  rw [Connection.drain, h.base]
  simp only [Connection.drain, Stream.shift, view, Stream.mk.injEq, true_and, and_true]
  omega

/-! ### Runs -/

lemma Same.record (h : Same d t) (o : Outcome) : Same (record (d, o)) (record (t, o)) :=
  ⟨h.assigned, h.base, h.callbacks, h.listening, h.quiet, h.runs,
    congrArg (· ++ [o]) h.outcomes⟩

lemma Same.onClose (h : Same d t) (callback : ℕ) {r : Connection × Outcome}
    (hr : t.wrapped cfg texts schemas (.onClose callback) = some r) :
    ∃ d', d.direct cfg (.onClose callback) = some (d', r.2) ∧ Same d' r.1 := by
  have hstate := state_eq h
  simp only [wrapped] at hr
  simp only [direct, hstate]
  split at hr
  next hclosed =>
      obtain rfl := Option.some.inj hr
      rw [if_pos hclosed]
      exact ⟨_, rfl, h.assigned, h.base, h.callbacks, h.listening, h.quiet,
        congrArg (· ++ [callback]) h.runs, h.outcomes⟩
  next hopen =>
      obtain ⟨-, -, hcallbacks⟩ := h.assigned.of_open hopen
      rw [hcallbacks] at hr
      obtain rfl := Option.some.inj hr
      rw [if_neg hopen]
      exact ⟨_, rfl, h.assigned, h.base,
        fun hne => congrArg (· ++ [callback]) (h.callbacks hne), h.listening, h.quiet, h.runs,
        h.outcomes⟩

/-- **A faithful call on the wrapper is the same call on the base.** -/
lemma Same.call (h : Same d t) {u : Use} (hf : Faithful cfg schemas t u)
    {r : Connection × Outcome} (hr : t.wrapped cfg texts schemas u = some r) :
    ∃ d', d.direct cfg u = some (d', r.2) ∧ Same d' r.1 := by
  have hisWritable : d.base.isWritable = t.view.isWritable := by rw [h.base]; rfl
  cases u with
  | send event data =>
      obtain rfl := Option.some.inj hr
      obtain ⟨herr, hsame⟩ := h.send hf
      exact ⟨_, by rw [direct, herr], hsame⟩
  | sendError errorData =>
      simp only [wrapped] at hr
      split at hr
      next hw =>
          obtain rfl := Option.some.inj hr
          have hrefused : d.base.sendError cfg errorData = d.base := by
            rw [Stream.sendError, if_pos (by rw [hisWritable]; exact hw)]
          refine ⟨d, ?_, h⟩
          rw [direct, hrefused, updateBase_of_state rfl]
      next hw =>
          obtain rfl := Option.some.inj hr
          exact ⟨_, rfl, h.sendError hf (by simpa using hw)⟩
  | ping comment =>
      obtain rfl := Option.some.inj hr
      refine ⟨_, by rw [direct, h.base, Stream.ping_shift], h.absorb (Stream.ping_inPlace comment)⟩
  | setRetry milliseconds =>
      obtain rfl := Option.some.inj hr
      exact ⟨_, by rw [direct, h.base, Stream.setRetry_shift],
        h.absorb (Stream.setRetry_inPlace milliseconds)⟩
  | onClose callback => exact h.onClose callback hr
  | flush =>
      obtain rfl := Option.some.inj hr
      exact ⟨_, by rw [direct, h.base, Stream.flush_shift], h.absorb Stream.flush_inPlace⟩
  | close =>
      obtain rfl := Option.some.inj hr
      exact ⟨_, rfl, h.close⟩
  | readState =>
      obtain rfl := Option.some.inj hr
      exact ⟨d, by rw [direct, state_eq h], h⟩
  | readIsWritable =>
      obtain rfl := Option.some.inj hr
      exact ⟨d, by rw [direct, hisWritable], h⟩
  | readBufferSize =>
      obtain rfl := Option.some.inj hr
      exact ⟨d, by rw [direct, h.base]; rfl, h⟩
  | requestClose =>
      obtain rfl := Option.some.inj hr
      refine ⟨_, rfl, ?_⟩
      rw [h.listening]
      split
      next hl => exact (h.handleDisconnect (h.listening.trans hl)).close
      next => exact h.close
  | drain =>
      obtain rfl := Option.some.inj hr
      exact ⟨_, rfl, h.drain⟩
  | resume this =>
      have hresumed : d.base.resumed = t.base.resumed + t.ownResumed := by rw [h.base]; rfl
      cases this with
      | base =>
          simp only [wrapped] at hr
          split at hr
          next hpos =>
              obtain rfl := Option.some.inj hr
              exact ⟨_, by rw [direct, if_pos (by omega)], h.resumeBase hf hpos⟩
          next => cases hr
      | typed =>
          simp only [wrapped] at hr
          split at hr
          next hpos =>
              obtain rfl := Option.some.inj hr
              exact ⟨_, by rw [direct, if_pos (by omega)], h.resumeTyped hpos⟩
          next => cases hr

/-- A stream with its close callbacks, before it is wrapped. -/
def ofStream (s : Stream) (closeCallbacks : List ℕ) : Connection :=
  { base := s, closeCallbacks, listening := s.state ≠ .closed }

lemma same_ofStream (s : Stream) (closeCallbacks : List ℕ) :
    Same (ofStream s closeCallbacks) (ofStream s closeCallbacks) := by
  refine ⟨assigned_of_own rfl, rfl, fun _ => rfl, rfl, fun he => ?_, rfl, rfl⟩
  simpa [ofStream] using he

/-- **In a run of faithful steps the wrapper returns and throws what the base stream does,
writes the same bytes and runs each close callback as often.** -/
theorem wrapped_same_of_faithful (cfg : Config) (texts : Texts) (schemas : Schemas) (s : Stream)
    (closeCallbacks : List ℕ) (us : List Use) {t : Connection}
    (hf : Meets (stepWrapped cfg texts schemas) (Faithful cfg schemas)
      (ofStream s closeCallbacks) us)
    (hrun : exec (stepWrapped cfg texts schemas) (ofStream s closeCallbacks) us = some t) :
    ∃ d, exec (stepDirect cfg) (ofStream s closeCallbacks) us = some d ∧
      d.outcomes = t.outcomes ∧ d.base.writes = t.base.writes ∧ d.runs = t.runs := by
  suffices hsame : ∀ {d t₀ : Connection}, Same d t₀ →
      Meets (stepWrapped cfg texts schemas) (Faithful cfg schemas) t₀ us →
      exec (stepWrapped cfg texts schemas) t₀ us = some t →
      ∃ d', exec (stepDirect cfg) d us = some d' ∧ Same d' t by
    obtain ⟨d, hd, h⟩ := hsame (same_ofStream s closeCallbacks) hf hrun
    exact ⟨d, hd, h.outcomes, by rw [h.base]; rfl, h.runs⟩
  clear hf hrun
  intro d t₀ h hf hrun
  induction us generalizing d t₀ with
  | nil =>
      obtain rfl := Option.some.inj hrun
      exact ⟨d, rfl, h⟩
  | cons u us ih =>
      rw [exec_cons] at hrun
      obtain ⟨t₁, ht₁, hrun⟩ := Option.bind_eq_some_iff.mp hrun
      obtain ⟨hfu, hfus⟩ := (meets_cons_iff ht₁).mp hf
      obtain ⟨r, hr, rfl⟩ := Option.map_eq_some_iff.mp ht₁
      obtain ⟨d₁, hd₁, h₁⟩ := h.call hfu hr
      obtain ⟨d', hd', h'⟩ := ih (h₁.record r.2) hfus hrun
      refine ⟨d', ?_, h'⟩
      rw [exec_cons, stepDirect, hd₁]
      exact hd'

/-- Texts of an engine. -/
def demoTexts : Texts := ⟨fun _ => "", fun message => some message⟩

/-- An event with a schema that takes everything. -/
def demoSchemas : Schemas := OrdMap.empty.set "tick" fun data => .ok data

def demoStream : Stream := createSSEStream {} none

/-- An event with a schema, and a client that goes away. -/
def demoUses : List Use :=
  [.onClose 7, .send "tick" (.string "a"), .flush, .requestClose, .readState]

/-- The wrapper and the base stream do the same for a client that goes away. -/
theorem wrapped_same_of_faithful_requestClose :
    ∃ d t, exec (stepWrapped {} demoTexts demoSchemas) (ofStream demoStream []) demoUses = some t ∧
      exec (stepDirect {}) (ofStream demoStream []) demoUses = some d ∧
      d.outcomes = t.outcomes ∧ d.base.writes = t.base.writes ∧ d.runs = t.runs := by
  have hschema : ∀ schema, demoSchemas.lookup "tick" = some schema →
      schema = fun data => .ok data := by
    intro schema h
    exact (Option.some.inj h).symm
  obtain ⟨d, hd⟩ := wrapped_same_of_faithful {} demoTexts demoSchemas demoStream [] demoUses
    ⟨trivial, ⟨rfl, fun schema h => by
      rw [hschema schema h]
      exact ⟨rfl, rfl, by decide, by decide⟩⟩, trivial, trivial, trivial, trivial⟩ rfl
  exact ⟨d, _, rfl, hd⟩

/-- After `close` on the wrapper the base takes another event. -/
theorem not_wrapped_same :
    ¬ ∀ (schemas : Schemas) (us : List Use) (t : Connection),
      (∀ event data, .send event data ∈ us → ∀ schema, schemas.get event = some schema →
        schema data = .ok data) →
      exec (stepWrapped {} demoTexts schemas) (ofStream demoStream []) us = some t →
      ∃ d, exec (stepDirect {}) (ofStream demoStream []) us = some d ∧
        d.outcomes = t.outcomes ∧ d.base.writes = t.base.writes ∧ d.runs = t.runs := by
  intro h
  obtain ⟨d, hd, houtcomes, -⟩ := h ∅ [.close, .send "tick" (.string "a")] _ (by simp) rfl
  obtain rfl := Option.some.inj hd
  exact absurd houtcomes (by decide)

end Connection

end Blaize.Sse
