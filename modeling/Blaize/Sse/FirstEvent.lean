import Blaize.Sse.Ordering

/-!
The id of the first event of a stream.

A stream counts the calls of `send` that it refuses as well, so the first event it writes
has the number of the call.

* `Config.accepts`: whether `send` lets an event pass;
* `refusedFirst`: the calls that are refused before the first one that is not;
* `Stream.Idle`: a stream before its first event;
* `first_written`: **the first event has the next id after the refused calls**.
-/

namespace Blaize.Sse

open Machine

variable {cfg : Config}

/-- The data has a text, and the event is not too large. -/
def Config.accepts (cfg : Config) (e : String × Value) : Bool :=
  (dataStr e.2).any fun text => (estimateEventSize e.1 text : ℤ) ≤ cfg.maxEventSize

/-- The calls that are refused before the first one that is accepted. -/
def refusedFirst (cfg : Config) : List Action → ℕ
  | [] => 0
  | a :: as =>
      match a.event with
      | none => refusedFirst cfg as
      | some e => if cfg.accepts e then 0 else refusedFirst cfg as + 1

/-- The configurations that drop every event. -/
structure Config.Mute (cfg : Config) : Prop where
  maxBuffer : cfg.maxBuffer ≤ 0
  strategy : cfg.strategy = .dropNewest

/-- The counter after `k` increments. -/
lemma increment_min (k : ℕ) : increment (min k (2 ^ 53) : ℕ) = (min (k + 1) (2 ^ 53) : ℕ) := by
  rcases Nat.lt_or_ge k (2 ^ 53) with h | h
  · rw [Nat.min_eq_left (by omega), Nat.min_eq_left (by omega), increment_eq (by omega) (by omega)]
    rfl
  · rw [Nat.min_eq_right h, Nat.min_eq_right (by omega)]
    decide +kernel

namespace Stream

variable {s s' : Stream}

/-! ### Streams that write nothing more -/

/-- Nothing was written, and nothing will be. -/
structure Silent (s : Stream) : Prop where
  written : s.written = []
  writable : s.writable = false

lemma Silent.isWritable (h : s.Silent) : s.isWritable = false := by
  rw [Stream.isWritable, h.writable]
  rfl

lemma written_append_none (s : Stream) (data : String) (answer : Answer) :
    ({ s with writes := s.writes ++ [⟨none, data, answer⟩] } : Stream).written = s.written := by
  simp [written]

lemma close_silent (h : s.written = []) (hw : s.state = .closed → s.writable = false) :
    (s.close cfg).Silent := by
  rw [close]
  split
  next hclosed => exact ⟨h, hw hclosed⟩
  next => exact ⟨(written_append_none s _ _).trans h, rfl⟩

lemma flushBuffer_silent (h : s.Silent) : (s.flushBuffer cfg).Silent := by
  have hw : ¬ s.writable := by rw [h.writable]; nofun
  rw [flushBuffer]
  cases s.buffer with
  | nil => exact ⟨h.written, h.writable⟩
  | cons e rest =>
      rw [flushLoop, if_neg hw]
      exact ⟨h.written, h.writable⟩

lemma step_silent {a : Action} (h : s.step cfg a = some s') (hs : s.Silent) : s'.Silent := by
  rcases step_cases h with ⟨e, -, rfl⟩ | ⟨-, heffect⟩
  · rw [send, sendWith, if_pos (by rw [hs.isWritable]; rfl)]
    exact hs
  cases heffect with
  | same => exact hs
  | comment data =>
      rw [writeRaw, if_pos (by rw [hs.writable]; rfl)]
      exact hs
  | close => exact close_silent hs.written fun _ => hs.writable
  | wait => exact ⟨hs.written, hs.writable⟩
  | flush resumed =>
      have hs' : { s with resumed }.Silent := ⟨hs.written, hs.writable⟩
      exact flushBuffer_silent hs'
  | pull => exact ⟨hs.written, hs.writable⟩

/-! ### Streams before their first event -/

/-- An open stream that has written no event, after `k` increments of its counter. -/
structure Idle (k : ℕ) (s : Stream) : Prop where
  written : s.written = []
  buffer : s.buffer = []
  state : s.state = .connected
  writable : s.writable = true
  counter : s.eventCounter = (min k (2 ^ 53) : ℕ)

variable {k : ℕ}

/-- A comment leaves the stream idle, or ends it. -/
lemma Idle.writeRaw_none (h : s.Idle k) (data : String) :
    (s.writeRaw cfg none data).1.Idle k ∨ (s.writeRaw cfg none data).1.Silent := by
  rcases writeRaw_cases cfg s none data with he | ⟨n, he⟩ | he | he <;> rw [he]
  · exact Or.inl h
  · refine Or.inl ⟨?_, h.buffer, h.state, h.writable, h.counter⟩
    exact (written_append_none s _ _).trans h.written
  · refine Or.inl ⟨?_, h.buffer, h.state, h.writable, h.counter⟩
    exact (written_append_none s _ _).trans h.written
  · exact Or.inr ⟨(written_append_none s _ _).trans h.written, rfl⟩

lemma Idle.close (h : s.Idle k) : (s.close cfg).Silent :=
  close_silent h.written fun hclosed => by rw [h.state] at hclosed; cases hclosed

lemma Idle.flushBuffer (h : s.Idle k) : s.flushBuffer cfg = s := by
  rw [Stream.flushBuffer, h.buffer, flushLoop, ← h.buffer]

lemma Idle.isWritable (h : s.Idle k) : s.isWritable = true := by
  rw [Stream.isWritable, h.writable, h.state]
  rfl

/-- An open stream writes the only event of its buffer at once. -/
lemma flushBuffer_single {e : BufferedEvent} (hb : s.buffer = [e]) (hw : s.writable = true)
    (hs : s.state = .connected) : (s.flushBuffer cfg).written = s.written ++ [e] := by
  rw [flushBuffer, hb, flushLoop, if_pos hw, writeRaw]
  have hopen : ¬ ((!s.writable || s.state == .closed) = true) := by rw [hw, hs]; nofun
  rw [if_neg hopen]
  dsimp only
  cases cfg.answer s.writes.length with
  | taken => simp [flushLoop, written]
  | full => simp [written]
  | threw => simp [written]

/-! ### Sending -/

lemma Idle.nextEventId (h : s.Idle k) : s.nextEventId.Idle (k + 1) := by
  refine ⟨h.written, h.buffer, h.state, h.writable, ?_⟩
  rw [Stream.nextEventId, h.counter]
  exact increment_min k

/-- A refused call uses up an id. -/
lemma Idle.send_refused (h : s.Idle k) {event : String} {data : Value}
    (ha : cfg.accepts (event, data) = false) :
    (s.send cfg event data).1.Idle (k + 1) := by
  rw [send, sendWith, if_neg (by rw [h.isWritable]; rintro ⟨⟩)]
  dsimp only
  split
  next => exact h.nextEventId
  next text htext =>
    rw [Config.accepts, htext, Option.any_some, decide_eq_false_iff_not, not_le] at ha
    rw [if_pos ha]
    exact h.nextEventId

/-- A stream without events has room for one, closes, or drops every event. -/
lemma Idle.enqueue_cases (cfg : Config) (h : s.Idle k) (e : BufferedEvent) :
    (∃ err, s.enqueue cfg e = (s.close cfg, some err)) ∨ cfg.Mute ∨
      ∃ s', s.enqueue cfg e = (s', none) ∧ s'.buffer = [e] ∧ s'.writable = true ∧
        s'.state = .connected ∧ s'.written = [] := by
  have hlength : (s.buffer.length : ℤ) = 0 := by rw [h.buffer]; rfl
  rw [enqueue]
  dsimp only
  rw [hlength]
  split
  next hfull =>
    split
    next => exact Or.inl ⟨_, rfl⟩
    next hclose =>
      refine Or.inr ?_
      cases hstrategy : cfg.strategy with
      | close => exact absurd hstrategy hclose
      | dropNewest => exact Or.inl ⟨hfull, hstrategy⟩
      | dropOldest =>
          refine Or.inr ⟨_, rfl, ?_, h.writable, h.state, h.written⟩
          simp only [applyBufferStrategy, h.buffer, dropOldest, List.nil_append]
  next =>
    refine Or.inr (Or.inr ⟨_, rfl, ?_, h.writable, h.state, h.written⟩)
    simp only [h.buffer, List.nil_append]

/-- An accepted call writes its event, unless there is no room for any. -/
lemma Idle.send_accepted (h : s.Idle k) {event : String} {data : Value}
    (ha : cfg.accepts (event, data) = true) :
    (s.send cfg event data).1.Silent ∨ cfg.Mute ∨
      ∃ e : BufferedEvent, (s.send cfg event data).1.written = [e] ∧
        e.id = (min (k + 1) (2 ^ 53) : ℕ) := by
  have hk := h.nextEventId
  rw [send, sendWith, if_neg (by rw [h.isWritable]; rintro ⟨⟩)]
  dsimp only
  split
  next hnone => rw [Config.accepts, hnone] at ha; cases ha
  next text htext =>
    rw [Config.accepts, htext, Option.any_some, decide_eq_true_eq] at ha
    rw [if_neg (not_lt.mpr ha)]
    let e : BufferedEvent :=
      ⟨s.nextEventId.eventCounter, event, data, estimateEventSize event text, by simp [htext]⟩
    rcases hk.enqueue_cases cfg e with ⟨err, he⟩ | hmute | ⟨s', he, hb, hw, hs, hwritten⟩
    · rw [he]
      exact Or.inl hk.close
    · exact Or.inr (Or.inl hmute)
    · rw [he]
      refine Or.inr (Or.inr ⟨e, ?_, hk.counter⟩)
      have hflush : (s'.updateHighWatermark.flushBuffer cfg).written = s'.written ++ [e] :=
        flushBuffer_single hb hw hs
      rw [hflush, hwritten, List.nil_append]

/-! ### Without room for any event -/

/-- A stream without room has no events. -/
structure Empty (s : Stream) : Prop where
  written : s.written = []
  buffer : s.buffer = []

lemma Empty.flushBuffer (h : s.Empty) : (s.flushBuffer cfg).Empty := by
  rw [Stream.flushBuffer, h.buffer]
  exact ⟨h.written, rfl⟩

lemma Empty.writeRaw_none (h : s.Empty) (data : String) : (s.writeRaw cfg none data).1.Empty := by
  rcases writeRaw_cases cfg s none data with he | ⟨n, he⟩ | he | he <;> rw [he]
  · exact h
  all_goals exact ⟨(written_append_none s _ _).trans h.written, h.buffer⟩

lemma Empty.close (h : s.Empty) : (s.close cfg).Empty := by
  rw [Stream.close]
  split
  next => exact h
  next => exact ⟨(written_append_none s _ _).trans h.written, rfl⟩

lemma Empty.send (hcfg : cfg.Mute) (h : s.Empty) (event : String) (data : Value) :
    (s.send cfg event data).1.Empty := by
  have henqueue : ∀ e, (s.nextEventId.enqueue cfg e).1.Empty := by
    intro e
    have hfull : cfg.maxBuffer ≤ (s.nextEventId.buffer.length : ℤ) :=
      hcfg.maxBuffer.trans (Int.natCast_nonneg _)
    rw [enqueue]
    dsimp only
    rw [if_pos hfull, hcfg.strategy, if_neg nofun, applyBufferStrategy, if_pos hfull]
    exact ⟨h.written, h.buffer⟩
  rcases send_cases cfg s event data with he | he | ⟨e, -, he | he⟩ <;> rw [he]
  · exact h
  · exact ⟨h.written, h.buffer⟩
  · exact henqueue e
  · exact Empty.flushBuffer ⟨(henqueue e).written, (henqueue e).buffer⟩

lemma step_empty {a : Action} (hcfg : cfg.Mute) (h : s.step cfg a = some s') (hs : s.Empty) :
    s'.Empty := by
  rcases step_cases h with ⟨e, -, rfl⟩ | ⟨-, heffect⟩
  · exact hs.send hcfg e.1 e.2
  cases heffect with
  | same => exact hs
  | comment data => exact hs.writeRaw_none data
  | close => exact hs.close
  | wait => exact ⟨hs.written, hs.buffer⟩
  | flush resumed =>
      have hs' : { s with resumed }.Empty := ⟨hs.written, hs.buffer⟩
      exact hs'.flushBuffer
  | pull => exact ⟨hs.written, by rw [hs.buffer]; rfl⟩

/-! ### The first event -/

/-- A step that sends nothing leaves the stream idle, or ends it. -/
lemma Idle.of_effect (h : s.Idle k) (he : s.Effect cfg s') : s'.Idle k ∨ s'.Silent := by
  cases he with
  | same => exact Or.inl h
  | comment data => exact h.writeRaw_none data
  | close => exact Or.inr h.close
  | wait => exact Or.inl ⟨h.written, h.buffer, h.state, h.writable, h.counter⟩
  | flush resumed =>
      have h' : { s with resumed }.Idle k := ⟨h.written, h.buffer, h.state, h.writable, h.counter⟩
      rw [h'.flushBuffer]
      exact Or.inl h'
  | pull => exact Or.inl ⟨h.written, by rw [h.buffer]; rfl, h.state, h.writable, h.counter⟩

/-- What was written first stays first. -/
lemma exec_written {as : List Action} {t : Stream} (h : exec (step cfg) s as = some t) :
    s.written <+: t.written := by
  have hwrites : s.writes <+: t.writes :=
    meets_invariant (I := fun t => s.writes <+: t.writes)
      (fun _ _ _ hs _ hstep => hs.trans (step_writes hstep)) List.prefix_rfl (meets_true s as) h
  exact hwrites.filterMap _

/-- **The id of the first event** is the next one after the ids of the refused calls. -/
theorem first_written {as : List Action} {t : Stream} {e : BufferedEvent} {es : List BufferedEvent}
    (hs : s.Idle k) (h : exec (step cfg) s as = some t) (ht : t.written = e :: es) :
    e.id = (min (k + refusedFirst cfg as + 1) (2 ^ 53) : ℕ) := by
  induction as generalizing s k with
  | nil =>
      obtain rfl : s = t := by simpa using h
      rw [hs.written] at ht
      cases ht
  | cons a as ih =>
      rw [exec_cons] at h
      obtain ⟨s', hstep, hrest⟩ := Option.bind_eq_some_iff.mp h
      -- a stream that falls silent never gets to a first event
      have hsilent : ¬ s'.Silent := by
        intro hsilent
        have := (meets_invariant (fun _ _ _ hs _ hstep => step_silent hstep hs) hsilent
          (meets_true s' as) hrest).written
        rw [ht] at this
        cases this
      rcases step_cases hstep with ⟨⟨event, data⟩, hevent, rfl⟩ | ⟨hevent, heffect⟩
      · rw [refusedFirst, hevent]
        dsimp only
        cases ha : cfg.accepts (event, data) with
        | false =>
            rw [ih (hs.send_refused ha) hrest, if_neg nofun, Nat.add_right_comm k, Nat.add_assoc k]
        | true =>
            rw [if_pos rfl, Nat.add_zero]
            rcases hs.send_accepted ha with hsilent' | hmute | ⟨e', hwritten, hid⟩
            · exact absurd hsilent' hsilent
            · have hempty := step_empty hmute hstep ⟨hs.written, hs.buffer⟩
              have := (meets_invariant (fun _ _ _ hs _ hstep => step_empty hmute hstep hs) hempty
                (meets_true _ as) hrest).written
              rw [ht] at this
              cases this
            · have hfirst := exec_written hrest
              rw [hwritten, ht, List.cons_prefix_cons] at hfirst
              rw [← hfirst.1]
              exact hid
      · have hidle : s'.Idle k := (hs.of_effect heffect).resolve_right hsilent
        rw [refusedFirst, hevent]
        exact ih hidle hrest

end Stream

end Blaize.Sse
