import Blaize.Sse.Stream
import Mathlib.Data.List.Sublists

/-!
The order of the events on the wire.

`Stream.written` lists the events passed to `response.write`, call by call.  The events of
the buffer come behind them in one line of ids, and every method only cuts events out of
the line or appends the next id to it, as long as no event that was passed to `write`
returns to the buffer.

* `Stream.InLine`: the invariant;
* `flushLoop_inLine`: a flush moves the head of the buffer to the wire;
* `written_in_order`: **if `write` refuses no event and the counter stays below `2 ^ 53`,
  every event is written at most once and in the order of the ids**;
* `not_written_in_order`: an event that `write` takes with `false` is written again.
-/

namespace Blaize.Sse

open Machine

variable {cfg : Config}

/-- The event that a step sends. -/
def Action.event : Action → Option (String × Value)
  | .send event data => some (event, data)
  | .sendError errorData => some ("error", .json errorData)
  | _ => none

namespace Stream

/-! ### The wire -/

/-- The events passed to `response.write`, in the order of the calls. -/
def written (s : Stream) : List BufferedEvent := s.writes.filterMap (·.event)

/-- The ids of the events on the wire. -/
def wireIds (s : Stream) : List ℤ := s.written.map (·.id)

/-- The ids on the wire, then those of the buffer. -/
def line (s : Stream) : List ℤ := s.wireIds ++ s.buffer.map (·.id)

/-- Every event is written at most once, and the written ids increase. -/
def DeliveredInOrder (s : Stream) : Prop :=
  (∀ e, s.written.count e ≤ 1) ∧ s.wireIds.Pairwise (· < ·)

/-- No event was answered with `false`. -/
def EventsTaken (s : Stream) : Prop := ∀ w ∈ s.writes, w.event.isSome → w.answer ≠ .full

instance (s : Stream) : Decidable s.DeliveredInOrder :=
  decidable_of_iff ((∀ e ∈ s.written, s.written.count e ≤ 1) ∧ s.wireIds.Pairwise (· < ·)) <|
    and_congr_left fun _ =>
      ⟨fun h e =>
        if he : e ∈ s.written then h e he
        else by rw [List.count_eq_zero_of_not_mem he]; exact Nat.zero_le 1,
      fun h e _ => h e⟩

instance (s : Stream) : Decidable s.EventsTaken :=
  inferInstanceAs (Decidable (∀ w ∈ s.writes, w.event.isSome → w.answer ≠ .full))

/-- Increasing ids leave no room for a second copy. -/
lemma deliveredInOrder_of_pairwise {s : Stream} (h : s.wireIds.Pairwise (· < ·)) :
    s.DeliveredInOrder := by
  have hnodup : s.written.Nodup := by
    refine List.Pairwise.imp ?_ (List.pairwise_map.mp h)
    rintro a b hab rfl
    exact absurd hab (Int.lt_irrefl _)
  exact ⟨fun e => List.nodup_iff_count_le_one.mp hnodup e, h⟩

/-! ### The invariant -/

/-- The ids on the wire increase; while the stream is writable so does the whole line, and
the counter is not behind it. -/
structure InLine (s : Stream) : Prop where
  wire : s.wireIds.Pairwise (· < ·)
  line : s.writable → s.line.Pairwise (· < ·)
  counter : s.writable → ∀ x ∈ s.line, x ≤ s.eventCounter

/-- Cutting events out of the line. -/
lemma InLine.of_sublist {s s' : Stream} (h : s.InLine) (hwire : s'.wireIds = s.wireIds)
    (hwritable : s'.writable → s.writable)
    (hbuffer : (s'.buffer.map (·.id)).Sublist (s.buffer.map (·.id)))
    (hcounter : s.eventCounter ≤ s'.eventCounter) : s'.InLine := by
  have hline : s'.line.Sublist s.line := by
    rw [Stream.line, Stream.line, hwire]
    exact hbuffer.append_left _
  refine ⟨hwire ▸ h.wire, fun hw => (h.line (hwritable hw)).sublist hline, fun hw x hx => ?_⟩
  exact Int.le_trans (h.counter (hwritable hw) x (hline.subset hx)) hcounter

/-- A stream that is not writable has only its wire to keep. -/
lemma InLine.of_not_writable {s : Stream} (hwire : s.wireIds.Pairwise (· < ·))
    (hw : s.writable = false) : s.InLine :=
  ⟨hwire, fun h => absurd h (by simp [hw]), fun h => absurd h (by simp [hw])⟩

/-- The next id comes behind the line, whatever the buffer then drops. -/
lemma InLine.push {s s' : Stream} {e : BufferedEvent} (h : s.InLine)
    (hwire : s'.wireIds = s.wireIds) (hwritable : s'.writable → s.writable)
    (hbuffer : s'.buffer.Sublist (s.buffer ++ [e]))
    (hid : s.eventCounter < e.id) (hcounter : e.id ≤ s'.eventCounter) : s'.InLine := by
  have hline : s'.line.Sublist (s.line ++ [e.id]) := by
    rw [Stream.line, Stream.line, hwire, List.append_assoc]
    simpa using (hbuffer.map (·.id)).append_left s.wireIds
  refine ⟨hwire ▸ h.wire, fun hw => List.Pairwise.sublist hline ?_, fun hw x hx => ?_⟩
  · rw [List.pairwise_append]
    refine ⟨h.line (hwritable hw), List.pairwise_singleton _ _, fun x hx y hy => ?_⟩
    obtain rfl : y = e.id := by simpa using hy
    exact Int.lt_of_le_of_lt (h.counter (hwritable hw) x hx) hid
  · rcases List.mem_append.mp (hline.subset hx) with hx | hx
    · have := h.counter (hwritable hw) x hx
      omega
    · obtain rfl : x = e.id := by simpa using hx
      exact hcounter

/-! ### What the methods write -/

/-- What `_writeRaw` does: nothing, or one call whose answer decides the rest. -/
lemma writeRaw_cases (cfg : Config) (s : Stream) (event : Option BufferedEvent) (data : String) :
    ((s.writeRaw cfg event data) = (s, false)) ∨
    (∃ n, s.writeRaw cfg event data =
      ({ s with
        writes := s.writes ++ [⟨event, data, .taken⟩]
        metrics.bytesWritten := n }, true)) ∨
    (s.writeRaw cfg event data =
      ({ s with writes := s.writes ++ [⟨event, data, .full⟩] }, false)) ∨
    (s.writeRaw cfg event data =
      ({ s with
        writes := s.writes ++ [⟨event, data, .threw⟩]
        writable := false }, false)) := by
  unfold writeRaw
  split
  · exact .inl rfl
  · cases h : cfg.answer s.writes.length with
    | taken => exact .inr (.inl ⟨_, rfl⟩)
    | full => exact .inr (.inr (.inl rfl))
    | threw => exact .inr (.inr (.inr rfl))

@[simp] lemma wireIds_append_none (s : Stream) (data : String) (answer : Answer) :
    ({ s with writes := s.writes ++ [⟨none, data, answer⟩] } : Stream).wireIds = s.wireIds := by
  simp [wireIds, written]

lemma wireIds_append_some {s s' : Stream} {e : BufferedEvent} {data : String} {answer : Answer}
    (h : s'.writes = s.writes ++ [⟨some e, data, answer⟩]) :
    s'.wireIds = s.wireIds ++ [e.id] := by
  simp [wireIds, written, h]

/-- Comments leave the line alone. -/
lemma writeRaw_none_inLine {s : Stream} (h : s.InLine) (data : String) :
    (s.writeRaw cfg none data).1.InLine := by
  rcases writeRaw_cases cfg s none data with he | ⟨n, he⟩ | he | he <;> rw [he]
  · exact h
  · exact h.of_sublist (by simp [wireIds, written]) id (.refl _) (Int.le_refl _)
  · exact h.of_sublist (by simp) id (.refl _) (Int.le_refl _)
  · exact InLine.of_not_writable (by simpa [wireIds, written] using h.wire) rfl

/-- **A flush moves the head of the buffer to the wire**: over the events of the buffer, each
of them taken, or the last one thrown out with the stream. -/
lemma flushLoop_inLine (l : List BufferedEvent) {s : Stream}
    (h : { s with buffer := l }.InLine) (ht : (flushLoop cfg l s).EventsTaken) :
    (flushLoop cfg l s).InLine := by
  induction l generalizing s with
  | nil => exact h
  | cons event rest ih =>
      unfold flushLoop at ht ⊢
      by_cases hw : s.writable
      · have hline : (s.wireIds ++ [event.id] ++ rest.map (·.id)).Pairwise (· < ·) := by
          simpa [Stream.line, wireIds, written] using h.line hw
        rw [if_pos hw] at ht ⊢
        rcases writeRaw_cases cfg { s with buffer := rest } (some event)
          event.formatted with he | ⟨n, he⟩ | he | he <;> rw [he] at ht ⊢
        · exact h.of_sublist rfl id (.refl _) (Int.le_refl _)
        · refine ih ⟨?_, fun _ => ?_, fun _ => ?_⟩ ht
          · rw [wireIds_append_some rfl]
            exact hline.sublist (List.sublist_append_left _ _)
          · rw [Stream.line, wireIds_append_some rfl]
            exact hline
          · rw [Stream.line, wireIds_append_some rfl]
            intro x hx
            exact h.counter hw x (by simpa [Stream.line, wireIds, written] using hx)
        · -- a refused event contradicts the hypothesis on the answers
          exact absurd rfl (ht ⟨some event, event.formatted, .full⟩ (by simp) rfl)
        · refine InLine.of_not_writable ?_ rfl
          rw [wireIds_append_some rfl]
          exact hline.sublist (List.sublist_append_left _ _)
      · rw [if_neg hw]
        exact h

lemma flushBuffer_inLine {s : Stream} (h : s.InLine) (ht : (s.flushBuffer cfg).EventsTaken) :
    (s.flushBuffer cfg).InLine :=
  flushLoop_inLine s.buffer h ht

lemma close_inLine {s : Stream} (h : s.InLine) : (s.close cfg).InLine := by
  unfold close
  split
  · exact h
  · exact InLine.of_not_writable (by simpa [wireIds, written] using h.wire) rfl

/-! ### Sending -/

/-- Making room only shortens the buffer. -/
lemma dropOldest_sublist (maxSize : ℤ) (buffer : List BufferedEvent) :
    (dropOldest maxSize buffer).Sublist buffer := by
  induction buffer with
  | nil => exact .refl _
  | cons e buffer ih =>
      unfold dropOldest
      split
      · exact ih.cons e
      · exact .refl _

lemma applyBufferStrategy_sublist (buffer : List BufferedEvent) (strategy : SSEBufferStrategy)
    (e : BufferedEvent) (maxSize : ℤ) :
    (applyBufferStrategy buffer strategy e maxSize).1.Sublist (buffer ++ [e]) := by
  cases strategy with
  | dropOldest => exact (dropOldest_sublist maxSize buffer).append_right [e]
  | dropNewest =>
      unfold applyBufferStrategy
      dsimp only
      split
      · exact List.sublist_append_left _ _
      · exact .refl _
  | close => exact List.sublist_append_left _ _

/-- The buffer after `enqueue`, or the closed stream. -/
lemma enqueue_inLine {s : Stream} {e : BufferedEvent} {c : ℤ}
    (h : { s with eventCounter := c }.InLine) (hid : c < e.id) (he : e.id = s.eventCounter) :
    (s.enqueue cfg e).1.InLine := by
  have hs : s.InLine :=
    h.of_sublist rfl id (.refl _) (by rw [← he]; exact Int.le_of_lt hid)
  unfold enqueue
  dsimp only
  split
  · split
    · exact close_inLine hs
    · exact h.push rfl id (applyBufferStrategy_sublist _ _ _ _) hid (Int.le_of_eq he)
  · exact h.push rfl id (.refl _) hid (Int.le_of_eq he)

/-- What `send` does to the stream: it turns the event away, or it enqueues an event with
the next id and, unless that closed the stream, flushes. -/
lemma send_cases (cfg : Config) (s : Stream) (event : String) (data : Value) :
    (s.send cfg event data).1 = s ∨ (s.send cfg event data).1 = s.nextEventId ∨
    ∃ e : BufferedEvent, e.id = s.nextEventId.eventCounter ∧
      ((s.send cfg event data).1 = (s.nextEventId.enqueue cfg e).1 ∨
        (s.send cfg event data).1 =
          (s.nextEventId.enqueue cfg e).1.updateHighWatermark.flushBuffer cfg) := by
  unfold send sendWith
  split
  · exact .inl rfl
  · refine .inr ?_
    dsimp only
    split
    · exact .inl rfl
    · next text hdata =>
      split
      · exact .inl rfl
      · refine .inr ⟨⟨s.nextEventId.eventCounter, event, data, estimateEventSize event text,
          by simp [hdata]⟩, rfl, ?_⟩
        split
        · next s' err he => exact .inl (congrArg Prod.fst he).symm
        · next s' he => rw [show s' = _ from (congrArg Prod.fst he).symm]; exact .inr rfl

lemma send_inLine {s : Stream} (h : s.InLine) (h₁ : -2 ^ 53 ≤ s.eventCounter)
    (h₂ : s.eventCounter < 2 ^ 53) (event : String) (data : Value)
    (ht : (s.send cfg event data).1.EventsTaken) : (s.send cfg event data).1.InLine := by
  have hcount : s.nextEventId.eventCounter = s.eventCounter + 1 := increment_eq h₁ h₂
  rcases send_cases cfg s event data with he | he | ⟨e, hid, he⟩
  · rwa [he]
  · rw [he]
    exact h.of_sublist rfl id (.refl _) (by omega)
  · have henq : (s.nextEventId.enqueue cfg e).1.InLine :=
      enqueue_inLine (c := s.eventCounter)
        (h.of_sublist rfl id (.refl _) (Int.le_refl _)) (by omega) hid
    rcases he with he | he
    · rwa [he]
    · rw [he] at ht ⊢
      exact flushBuffer_inLine (henq.of_sublist rfl id (.refl _) (Int.le_refl _)) ht

/-! ### What a step does -/

/-- What a step does that sends nothing. -/
inductive Effect (cfg : Config) (s : Stream) : Stream → Prop
  | same : Effect cfg s s
  | comment (data : String) : Effect cfg s (s.writeRaw cfg none data).1
  | close : Effect cfg s (s.close cfg)
  | wait (waiting resumed : ℕ) : Effect cfg s { s with waiting, resumed }
  | flush (resumed : ℕ) : Effect cfg s ({ s with resumed }.flushBuffer cfg)
  | pull : Effect cfg s { s with buffer := s.buffer.tail }

/-- A step sends an event, or has one of the effects. -/
lemma step_cases {s s' : Stream} {a : Action} (h : s.step cfg a = some s') :
    (∃ e, a.event = some e ∧ (s.send cfg e.1 e.2).1 = s') ∨ (a.event = none ∧ s.Effect cfg s') := by
  cases a <;> simp only [step, Option.some.injEq] at h
  case resume =>
      split at h
      · obtain rfl := Option.some.inj h
        exact Or.inr ⟨rfl, .flush _⟩
      · cases h
  all_goals subst h
  case send event data => exact Or.inl ⟨(event, data), rfl, rfl⟩
  case sendError errorData =>
      refine Or.inl ⟨("error", .json errorData), rfl, ?_⟩
      rw [sendError]
      split
      next h => rw [send, sendWith, if_pos h]
      next => rfl
  case flush =>
      refine Or.inr ⟨rfl, ?_⟩
      rw [flush]
      split
      next => exact .same
      next => exact .flush s.resumed
  case ping comment =>
      refine Or.inr ⟨rfl, ?_⟩
      rw [ping.eq_def]
      split
      next => exact .same
      next => exact .comment _
  case setRetry milliseconds =>
      refine Or.inr ⟨rfl, ?_⟩
      rw [setRetry.eq_def]
      split
      next => exact .same
      split
      next =>
        split
        next => exact .same
        next => exact .comment _
      next => exact .same
  case close => exact Or.inr ⟨rfl, .close⟩
  case disconnect =>
      refine Or.inr ⟨rfl, ?_⟩
      rw [handleDisconnect]
      split
      next => exact .close
      next => exact .same
  case drain => exact Or.inr ⟨rfl, .wait _ _⟩
  case pull => exact Or.inr ⟨rfl, .pull⟩

/-! ### The log only grows -/

lemma writeRaw_writes (cfg : Config) (s : Stream) (event : Option BufferedEvent) (data : String) :
    s.writes <+: (s.writeRaw cfg event data).1.writes := by
  rcases writeRaw_cases cfg s event data with he | ⟨n, he⟩ | he | he
  · exact ⟨[], by rw [he, List.append_nil]⟩
  · exact ⟨_, by rw [he]⟩
  · exact ⟨_, by rw [he]⟩
  · exact ⟨_, by rw [he]⟩

lemma flushLoop_writes (l : List BufferedEvent) (s : Stream) :
    s.writes <+: (flushLoop cfg l s).writes := by
  induction l generalizing s with
  | nil => exact List.prefix_rfl
  | cons event rest ih =>
      unfold flushLoop
      split
      · have hw := writeRaw_writes cfg { s with buffer := rest } (some event)
          event.formatted
        split
        · next s' he =>
          rw [he] at hw
          exact hw.trans (ih { s' with metrics.eventsSent := s'.metrics.eventsSent + 1 })
        · next s' he =>
          rw [he] at hw
          exact hw
      · exact List.prefix_rfl

lemma close_writes (s : Stream) : s.writes <+: (s.close cfg).writes := by
  unfold close
  split
  · exact List.prefix_rfl
  · exact List.prefix_append _ _

lemma enqueue_writes (s : Stream) (e : BufferedEvent) :
    s.writes <+: (s.enqueue cfg e).1.writes := by
  unfold enqueue
  dsimp only
  split
  · split
    · exact close_writes s
    · exact List.prefix_rfl
  · exact List.prefix_rfl

lemma send_writes (s : Stream) (event : String) (data : Value) :
    s.writes <+: (s.send cfg event data).1.writes := by
  rcases send_cases cfg s event data with he | he | ⟨e, -, he | he⟩
  · exact ⟨[], by rw [he, List.append_nil]⟩
  · exact ⟨[], by rw [he, List.append_nil, nextEventId]⟩
  · rw [he]
    exact enqueue_writes s.nextEventId e
  · rw [he]
    exact (enqueue_writes s.nextEventId e).trans
      (flushLoop_writes _ (s.nextEventId.enqueue cfg e).1.updateHighWatermark)

lemma EventsTaken.of_prefix {s s' : Stream} (h : s'.EventsTaken) (hw : s.writes <+: s'.writes) :
    s.EventsTaken :=
  fun w hmem => h w (hw.subset hmem)

/-! ### Runs -/

/-- The condition on the counter: where the next step may increment it, it is exact. -/
def CounterExact (s : Stream) : Action → Prop
  | .send _ _ | .sendError _ => -2 ^ 53 ≤ s.eventCounter ∧ s.eventCounter < 2 ^ 53
  | _ => True

instance (s : Stream) : (a : Action) → Decidable (s.CounterExact a)
  | .send _ _ | .sendError _ =>
      inferInstanceAs (Decidable (-2 ^ 53 ≤ s.eventCounter ∧ s.eventCounter < 2 ^ 53))
  | .flush | .ping _ | .setRetry _ | .close | .disconnect | .drain | .resume | .pull =>
      .isTrue trivial

lemma CounterExact.of_event {s : Stream} {a : Action} {e : String × Value}
    (h : s.CounterExact a) (he : a.event = some e) :
    -2 ^ 53 ≤ s.eventCounter ∧ s.eventCounter < 2 ^ 53 := by
  cases a with
  | send _ _ => exact h
  | sendError _ => exact h
  | _ => cases he

lemma step_writes {s s' : Stream} {a : Action} (h : s.step cfg a = some s') :
    s.writes <+: s'.writes := by
  rcases step_cases h with ⟨e, -, rfl⟩ | ⟨-, heffect⟩
  · exact send_writes s e.1 e.2
  cases heffect with
  | same => exact List.prefix_rfl
  | comment data => exact writeRaw_writes cfg s none data
  | close => exact close_writes s
  | wait => exact List.prefix_rfl
  | flush resumed => exact flushLoop_writes _ { s with resumed }
  | pull => exact List.prefix_rfl

lemma step_inLine {s s' : Stream} {a : Action} (h : s.step cfg a = some s') (hs : s.InLine)
    (hc : s.CounterExact a) (ht : s'.EventsTaken) : s'.InLine := by
  rcases step_cases h with ⟨e, he, rfl⟩ | ⟨-, heffect⟩
  · have hcount := hc.of_event he
    exact send_inLine hs hcount.1 hcount.2 e.1 e.2 ht
  cases heffect with
  | same => exact hs
  | comment data => exact writeRaw_none_inLine hs data
  | close => exact close_inLine hs
  | wait => exact hs.of_sublist rfl id (.refl _) (Int.le_refl _)
  | flush resumed => exact flushBuffer_inLine (hs.of_sublist rfl id (.refl _) (Int.le_refl _)) ht
  | pull => exact hs.of_sublist rfl id ((List.tail_sublist _).map _) (Int.le_refl _)

lemma createSSEStream_inLine (lastEventId : Option String) :
    (createSSEStream cfg lastEventId).InLine := by
  refine writeRaw_none_inLine ?_ _
  refine ⟨?_, fun _ => ?_, fun _ => ?_⟩ <;> (split <;> try split) <;>
    simp [Stream.line, wireIds, written]

/-- **Events are written once and in order.**  In every run of the stream in which
`response.write` answers no event with `false` and the counter is exact where it is
incremented, every event is passed to `write` at most once, and the ids increase. -/
theorem written_in_order (cfg : Config) (lastEventId : Option String) (as : List Action)
    (t : Stream) (h : exec (step cfg) (createSSEStream cfg lastEventId) as = some t)
    (hc : Meets (step cfg) CounterExact (createSSEStream cfg lastEventId) as)
    (ht : t.EventsTaken) : t.DeliveredInOrder := by
  have hrun : t.EventsTaken → t.InLine :=
    meets_invariant (I := fun s => s.EventsTaken → s.InLine)
      (fun s a s' hI hP hs ht' =>
        step_inLine hs (hI (ht'.of_prefix (step_writes hs))) hP ht')
      (fun _ => createSSEStream_inLine lastEventId) hc h
  exact deliveredInOrder_of_pairwise (hrun ht).wire

/-- The default options, with one call of `write` answered with `false`. -/
def refusing (k : ℕ) : Config := { answer := fun n => if n = k then .full else .taken }

/-- Two events, and between them a comment that is answered with `false`. -/
theorem written_in_order_twoEvents :
    ∃ t, exec (step (refusing 2)) (createSSEStream (refusing 2) (some "41"))
        [.send "tick" (.string "a"), .ping none, .send "tick" (.json (some "1"))] = some t ∧
      t.wireIds = [42, 43] ∧ t.DeliveredInOrder :=
  ⟨_, rfl, by decide,
    written_in_order (refusing 2) (some "41")
      [.send "tick" (.string "a"), .ping none, .send "tick" (.json (some "1"))] _ rfl
      ⟨by decide, trivial, by decide, trivial⟩ (by decide)⟩

/-- `write` takes the first event and answers `false`; the event goes back to the buffer
and is written a second time after `'drain'`. -/
theorem not_written_in_order :
    ¬ ∀ (cfg : Config) (lastEventId : Option String) (as : List Action) (t : Stream),
      (∀ n, cfg.answer n ≠ .threw) →
      exec (step cfg) (createSSEStream cfg lastEventId) as = some t → t.DeliveredInOrder := by
  intro h
  have hrun := h (refusing 1) none [.send "tick" (.string "a"), .drain, .resume] _
    (fun n => by dsimp only [refusing]; split <;> simp) rfl
  exact absurd hrun (by decide)

end Stream

end Blaize.Sse
