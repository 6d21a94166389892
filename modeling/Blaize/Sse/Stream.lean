import Mathlib.Algebra.Group.Int.Defs
import Blaize.Lib.Js
import Blaize.Lib.Machine

/-!
The server-sent-events stream (`packages/blaize-core/src/sse/stream.ts`).

A `Stream` holds the private fields of `SSEStreamImpl` that its methods read, together
with what the event loop keeps for it: the flushes that wait for `'drain'`, the ones a
`'drain'` has woken, and the log of the calls of `response.write`.  What the response
answers to its `n`-th call is an input (`Config.answer`).

* `Stream.send`, `Stream.flushBuffer`, `Stream.writeRaw`, `Stream.close`: the code;
* `Stream.step`: one uninterrupted piece of JavaScript;
* `increment_eq`: the event counter is a double, exact up to `2 ^ 53`.

The callbacks of `onClose` and of the error list only observe: they do not call back into
the stream.  The data of an event keeps its text while the event is in the buffer; what becomes of
data that changes there is in `Sse/Accounting`.
-/

namespace Blaize.Sse

open Js

/-! ### Numbers -/

/-- An integer rounded to the doubles: the nearest multiple of the spacing, ties to even.
The overflow to infinity is left out, where `++` stands still as well. -/
def toNumber (n : ℤ) : ℤ :=
  let spacing := 2 ^ (n.natAbs.log2 - 52)
  let q := n.natAbs / spacing
  let r := n.natAbs % spacing
  let q := if 2 * r < spacing ∨ (2 * r = spacing ∧ q % 2 = 0) then q else q + 1
  n.sign * (q * spacing : ℕ)

/-- The value of `++n` for a number variable. -/
def increment (n : ℤ) : ℤ := toNumber (n + 1)

/-- Integers up to `2 ^ 53` are doubles. -/
lemma toNumber_eq {n : ℤ} (h : n.natAbs ≤ 2 ^ 53) : toNumber n = n := by
  rcases Nat.lt_or_ge n.natAbs (2 ^ 53) with hlt | hge
  · have hlog : n.natAbs.log2 - 52 = 0 := by
      rcases Nat.eq_zero_or_pos n.natAbs with h0 | h0
      · rw [h0]; rfl
      · have := (Nat.log2_lt (Nat.pos_iff_ne_zero.mp h0)).mpr hlt
        omega
    simp only [toNumber, hlog, Nat.pow_zero, Nat.div_one, Nat.mod_one, Nat.mul_one]
    exact Int.sign_mul_natAbs n
  · have habs : n.natAbs = 2 ^ 53 := Nat.le_antisymm h hge
    calc toNumber n = n.sign * (2 ^ 53 : ℕ) := by simp only [toNumber, habs]; rfl
      _ = n := by rw [← habs, Int.sign_mul_natAbs]

/-- Below `2 ^ 53` the counter really counts. -/
lemma increment_eq {n : ℤ} (h₁ : -2 ^ 53 ≤ n) (h₂ : n < 2 ^ 53) : increment n = n + 1 :=
  toNumber_eq (by omega)

/-- From `2 ^ 53` on `++` stands still. -/
example : increment (2 ^ 53) = 2 ^ 53 := by decide +kernel

/-- The value of a digit in radix 16, `none` for any other character. -/
def hexDigit (c : Char) : Option ℕ :=
  if c.isDigit then some (c.toNat - '0'.toNat)
  else if 'a' ≤ c ∧ c ≤ 'f' then some (c.toNat - 'a'.toNat + 10)
  else if 'A' ≤ c ∧ c ≤ 'F' then some (c.toNat - 'A'.toNat + 10)
  else none

/-- The longest run of digits in a radix, most significant first; `none` if it is empty. -/
def readDigits (radix : ℕ) : Option ℕ → List Char → Option ℕ
  | acc, [] => acc
  | acc, c :: cs =>
      match hexDigit c with
      | some d => if d < radix then readDigits radix (some (acc.getD 0 * radix + d)) cs else acc
      | none => acc

/-- `parseInt(text)` without a radix; `none` is `NaN`. -/
def parseInt (text : String) : Option ℤ :=
  let cs := text.toList.dropWhile isWhiteSpace
  let (sign, cs) : ℤ × List Char :=
    match cs with
    | '-' :: cs => (-1, cs)
    | '+' :: cs => (1, cs)
    | cs => (1, cs)
  let digits :=
    match cs with
    | '0' :: 'x' :: cs => readDigits 16 none cs
    | '0' :: 'X' :: cs => readDigits 16 none cs
    | cs => readDigits 10 none cs
  digits.map fun n => toNumber (sign * n)

/-! ### Events -/

/-- What gives way when the buffer is full. -/
inductive SSEBufferStrategy where
  | dropOldest
  | dropNewest
  | close
  deriving DecidableEq, Repr

/-- The data of an event.  `json` is any value that is neither `null`, `undefined` nor a
string, with the text `JSON.stringify` gives for it, `none` if there is none. -/
inductive Value where
  | null
  | undefined
  | string (text : String)
  | json (text : Option String)
  deriving DecidableEq, Repr

/-- The text of the data, `none` where computing it throws. -/
def dataStr : Value → Option String
  | .null => some "null"
  | .undefined => some "undefined"
  | .string text => some text
  | .json text => text

/-- An accepted event; its data has a text, for `send` has computed it. -/
structure BufferedEvent where
  id : ℤ
  event : String
  data : Value
  size : ℕ
  data_ok : (dataStr data).isSome
  deriving DecidableEq, Repr

/-- The least size that an event counts with. -/
def minEventSize : ℕ := 4096

/-- `formatSSEEvent` on the text of the data. -/
def formatSSEEvent (event data : String) (id : Option String) (retry : Option ℕ) : String :=
  let lines : List String :=
    (match id with
      | some id => if id = "" then [] else ["id: " ++ id]
      | none => []) ++
    (match retry with
      | some retry => ["retry: " ++ toString retry]
      | none => []) ++
    ["event: " ++ event] ++ (data.splitOn "\n").map ("data: " ++ ·) ++ [""]
  let formatted := "\n".intercalate lines ++ "\n"
  if formatted.utf8ByteSize < minEventSize then
    formatted ++ ": " ++ String.ofList (List.replicate (minEventSize - formatted.utf8ByteSize) '·')
      ++ "\n"
  else formatted

/-- The text `_flushBuffer` writes for an event. -/
def BufferedEvent.formatted (e : BufferedEvent) : String :=
  formatSSEEvent e.event ((dataStr e.data).get e.data_ok) (some (toString e.id)) none

/-- `estimateEventSize` on the text of the data. -/
def estimateEventSize (event data : String) : ℕ := utf16Length event + utf16Length data + 50

/-- The loop that makes room under `'drop-oldest'`. -/
def dropOldest (maxSize : ℤ) : List BufferedEvent → List BufferedEvent
  | [] => []
  | e :: buffer => if maxSize ≤ (e :: buffer).length then dropOldest maxSize buffer else e :: buffer

/-- The new buffer and the number of dropped events. -/
def applyBufferStrategy (buffer : List BufferedEvent) (strategy : SSEBufferStrategy)
    (newEvent : BufferedEvent) (maxSize : ℤ) : List BufferedEvent × ℕ :=
  match strategy with
  | .dropOldest =>
      let kept := dropOldest maxSize buffer
      (kept ++ [newEvent], buffer.length - kept.length)
  | .dropNewest => if maxSize ≤ buffer.length then (buffer, 1) else (buffer ++ [newEvent], 0)
  | .close => (buffer, 0)

/-! ### The stream -/

/-- What `response.write` does: it returns `true`, returns `false`, or throws.  In the
first two cases Node has accepted the text. -/
inductive Answer where
  | taken
  | full
  | threw
  deriving DecidableEq, Repr

/-- A call of `response.write`, with the event it was made for. -/
structure Write where
  event : Option BufferedEvent
  text : String
  answer : Answer
  deriving DecidableEq, Repr

/-- The part of a valid backpressure configuration that the stream reads. -/
structure BackpressureConfig where
  strategy : SSEBufferStrategy := .dropOldest
  high : ℤ := 1000
  maxMessages : ℤ := 10000
  deriving DecidableEq, Repr

/-- The options over their defaults, and the answers of the response. -/
structure Config where
  maxEventSize : ℤ := 1024 * 1024
  autoClose : Bool := true
  maxBufferSize : ℤ := 1000
  bufferStrategy : SSEBufferStrategy := .dropOldest
  backpressure : Option BackpressureConfig := none
  answer : ℕ → Answer := fun _ => .taken

/-- The backpressure configuration overrides the strategy. -/
def Config.strategy (cfg : Config) : SSEBufferStrategy :=
  match cfg.backpressure with
  | some b => b.strategy
  | none => cfg.bufferStrategy

/-- The limit `send` checks: the high watermark, if there is one. -/
def Config.maxBuffer (cfg : Config) : ℤ :=
  match cfg.backpressure with
  | some b => b.high
  | none => cfg.maxBufferSize

/-- The states of a stream. -/
inductive SSEConnectionState where
  | connecting
  | connected
  | closed
  deriving DecidableEq, Repr

/-- The counters of a stream. -/
structure StreamMetrics where
  eventsSent : ℕ := 0
  eventsDropped : ℕ := 0
  bytesWritten : ℕ := 0
  bufferHighWatermark : ℕ := 0
  deriving DecidableEq, Repr

/-- The fields of a stream. -/
structure Stream where
  state : SSEConnectionState := .connecting
  writable : Bool := true
  buffer : List BufferedEvent := []
  eventCounter : ℤ := 0
  lastEventId : Option String := none
  metrics : StreamMetrics := {}
  waiting : ℕ := 0
  resumed : ℕ := 0
  writes : List Write := []
  deriving DecidableEq, Repr

/-- What `send` and `setRetry` throw. -/
inductive StreamError where
  | streamClosed (message closeReason : String)
  | bufferOverflow (message : String) (currentSize : ℕ) (maxSize : ℤ)
      (triggeringEvent : Option String)
  | notSerializable
  | invalidRetry (message : String)
  deriving DecidableEq, Repr

variable (cfg : Config)

namespace Stream

/-- Whether the stream is open and its response can be written to. -/
def isWritable (s : Stream) : Bool := s.writable && s.state == .connected

/-- `_writeRaw`.  When `write` throws, the stream is not writable any more by the time
`_handleError` looks at it, so no error event follows. -/
def writeRaw (s : Stream) (event : Option BufferedEvent) (data : String) : Stream × Bool :=
  if !s.writable || s.state == .closed then (s, false)
  else
    let answer := cfg.answer s.writes.length
    let s := { s with writes := s.writes ++ [⟨event, data, answer⟩] }
    match answer with
    | .taken =>
        ({ s with metrics.bytesWritten := s.metrics.bytesWritten + data.utf8ByteSize }, true)
    | .full => (s, false)
    | .threw => ({ s with writable := false }, false)

/-- `_flushBuffer` from the head of its loop to the end or to the next `await`, over the
events of the buffer. -/
def flushLoop : List BufferedEvent → Stream → Stream
  | [], s => { s with buffer := [] }
  | event :: rest, s =>
      if s.writable then
        match { s with buffer := rest }.writeRaw cfg (some event) event.formatted with
        | (s, true) =>
            flushLoop rest { s with metrics.eventsSent := s.metrics.eventsSent + 1 }
        -- the event goes back to the front, and the flush waits for `'drain'`
        | (s, false) => { s with buffer := event :: rest, waiting := s.waiting + 1 }
      else { s with buffer := event :: rest }

/-- The buffer is written, as far as it goes. -/
def flushBuffer (s : Stream) : Stream := flushLoop cfg s.buffer s

/-- `close`: the close event is written past `_writeRaw`, whatever becomes of it, and the
cleanup empties the buffer. -/
def close (s : Stream) : Stream :=
  if s.state = .closed then s
  else
    let closeEvent := formatSSEEvent "close"
      "\x7b\"reason\":\"stream-closed\",\"reconnect\":false\x7d" none none
    { s with
      state := .closed
      writable := false
      buffer := []
      writes := s.writes ++ [⟨none, closeEvent, cfg.answer s.writes.length⟩] }

/-- The part of `send` that puts an accepted event into the buffer; the error is thrown
after `close`. -/
def enqueue (s : Stream) (e : BufferedEvent) : Stream × Option StreamError :=
  let maxBuffer := cfg.maxBuffer
  if maxBuffer ≤ s.buffer.length then
    if cfg.strategy = .close then
      (s.close cfg,
        some (.bufferOverflow "Buffer overflow - stream closed" s.buffer.length maxBuffer none))
    else
      let (buffer, dropped) := applyBufferStrategy s.buffer cfg.strategy e maxBuffer
      ({ s with
        buffer := buffer
        metrics.eventsDropped := s.metrics.eventsDropped + dropped }, none)
  else ({ s with buffer := s.buffer ++ [e] }, none)

/-- The event counter moves before the event is checked. -/
def nextEventId (s : Stream) : Stream :=
  { s with
    eventCounter := increment s.eventCounter
    lastEventId := some (toString (increment s.eventCounter)) }

/-- The greatest length of the buffer so far. -/
def updateHighWatermark (s : Stream) : Stream :=
  { s with
    metrics.bufferHighWatermark := max s.metrics.bufferHighWatermark s.buffer.length }

/-- `send`, with the flush at its end. -/
def sendWith (flush : Stream → Stream) (s : Stream) (event : String) (data : Value) :
    Stream × Option StreamError :=
  if !s.isWritable then
    (s, some (.streamClosed "Cannot send event to closed stream" "server-close"))
  else
    let s := s.nextEventId
    match h : dataStr data with
    | none => (s, some .notSerializable)
    | some text =>
        let size := estimateEventSize event text
        if cfg.maxEventSize < size then
          (s, some (.bufferOverflow "Event size exceeds maximum allowed" size cfg.maxEventSize
            (some event)))
        else
          match s.enqueue cfg ⟨s.eventCounter, event, data, size, by simp [h]⟩ with
          | (s, some err) => (s, some err)
          | (s, none) => (flush s.updateHighWatermark, none)

/-- `stream.send(event, data)` -/
def send (s : Stream) (event : String) (data : Value) : Stream × Option StreamError :=
  s.sendWith cfg (flushBuffer cfg) event data

/-- `sendError` with the error record it builds; what `send` throws is only logged. -/
def sendError (s : Stream) (errorData : Option String) : Stream :=
  if !s.isWritable then s else (s.send cfg "error" (.json errorData)).1

/-- `stream.ping(comment)` -/
def ping (s : Stream) (comment : Option String) : Stream :=
  if !s.isWritable then s
  else
    let message :=
      match comment with
      | some comment => if comment = "" then ": ping\n\n" else ": " ++ comment ++ "\n\n"
      | none => ": ping\n\n"
    (s.writeRaw cfg none message).1

/-- `setRetry`; the argument is `Math.floor(milliseconds)`, `none` if it is not finite. -/
def setRetry (s : Stream) (milliseconds : Option ℤ) : Stream × Option StreamError :=
  if !s.isWritable then (s, none)
  else
    match milliseconds with
    | some n =>
        if n < 0 then (s, some (.invalidRetry "Retry interval must be a positive number"))
        else ((s.writeRaw cfg none ("retry: " ++ toString n ++ "\n\n")).1, none)
    | none => (s, some (.invalidRetry "Retry interval must be a positive number"))

/-- `stream.flush()` -/
def flush (s : Stream) : Stream := if !s.isWritable then s else s.flushBuffer cfg

/-- The handler of the `'close'` and `'error'` events of request and response. -/
def handleDisconnect (s : Stream) : Stream :=
  if cfg.autoClose && s.state != .closed then s.close cfg else s

end Stream

/-- The constructor, after the connection has been registered. -/
def createSSEStream (lastEventId : Option String) : Stream :=
  let s : Stream :=
    match lastEventId with
    | some header =>
        if header = "" then {}
        else { eventCounter := (parseInt header).getD 0, lastEventId := some header }
    | none => {}
  ({ s with state := .connected }.writeRaw cfg none ": SSE connection established\n\n").1

/-! ### Runs -/

/-- One uninterrupted piece of JavaScript.  `drain` wakes every waiting flush, `resume` is
one of the woken flushes running on, and `pull` is the async iterator taking an event. -/
inductive Action where
  | send (event : String) (data : Value)
  | sendError (errorData : Option String)
  | flush
  | ping (comment : Option String)
  | setRetry (milliseconds : Option ℤ)
  | close
  | disconnect
  | drain
  | resume
  | pull
  deriving DecidableEq, Repr

namespace Stream

/-- What a call does; `none`: it cannot happen. -/
def step (s : Stream) : Action → Option Stream
  | .send event data => some (s.send cfg event data).1
  | .sendError errorData => some (s.sendError cfg errorData)
  | .flush => some (s.flush cfg)
  | .ping comment => some (s.ping cfg comment)
  | .setRetry milliseconds => some (s.setRetry cfg milliseconds).1
  | .close => some (s.close cfg)
  | .disconnect => some (s.handleDisconnect cfg)
  | .drain => some { s with waiting := 0, resumed := s.resumed + s.waiting }
  | .resume =>
      if 0 < s.resumed then some ({ s with resumed := s.resumed - 1 }.flushBuffer cfg) else none
  | .pull => some { s with buffer := s.buffer.tail }

end Stream

end Blaize.Sse
