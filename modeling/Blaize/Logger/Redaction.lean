import Blaize.Lib.Masking
import Blaize.Logger.JsonTransport

/-!
The loggers (`packages/blaize-core/src/logger/logger.ts`), with the request logger
(`packages/blaize-core/src/middleware/logger/request-logger.ts`) that logs through them.

* `Logger.child`, `Logger.log`, `redact`: the loggers, each with the metadata that it inherits;
* `Logger.requestStarted`, `Logger.requestEnded`: what is logged of a request;
* `run`: what reaches the transport while loggers are made and used, in any order;
* `Command.Alike`: two uses that differ in redacted values only;
* `written_eq_of_unseen`: **what is redacted has no influence on what is written**.

How `toLowerCase` folds the letters is a parameter.
-/

namespace Blaize.Logger

/-! ### Loggers -/

/-- `LOG_LEVEL_PRIORITY` -/
def LogLevel.priority : LogLevel → ℕ
  | .debug => 0
  | .info => 1
  | .warn => 2
  | .error => 3

/-- `ResolvedLoggerConfig`, without the transport. -/
structure ResolvedLoggerConfig where
  level : LogLevel
  redactKeys : List String
  includeTimestamp : Bool

/-- A thrown value: what the request logger reads of it. -/
inductive ThrownValue (V : Type) where
  | blaizeError (type title : String) (status : ℕ) (message : String) (details : V)
      (stack : String)
  | error (message name stack : String)
  | other (text : String) (truthy : Bool)

/-- A value that was given, or one that a logger makes itself. -/
inductive Plain (V : Type) where
  | given (value : V)
  | text (text : String)
  | number (number : ℤ)

/-- A value of metadata. -/
inductive LogValue (V : Type) where
  | plain (value : Plain V)
  | record (entries : OrdMap String (Plain V))
  | fields (fields : List (String × Plain V))

/-- The metadata of an entry, in the order of its keys. -/
abbrev LogMetadata (V : Type) := OrdMap String (LogValue V)

/-- A text as a value. -/
def LogValue.text {V : Type} (text : String) : LogValue V := .plain (.text text)

/-- A number as a value. -/
def LogValue.number {V : Type} (number : ℤ) : LogValue V := .plain (.number number)

/-- A logger with what it has inherited. -/
structure Logger (V : Type) where
  config : ResolvedLoggerConfig
  inheritedMeta : LogMetadata V

/-- A call of `transport.write`. -/
structure Written (V : Type) where
  level : LogLevel
  message : String
  metadata : LogMetadata V

section

variable {V : Type} (toLowerCase : String → String)

/-- The keys that are redacted. -/
def ResolvedLoggerConfig.Redacts (config : ResolvedLoggerConfig) (key : String) : Prop :=
  toLowerCase key ∈ config.redactKeys.map toLowerCase

instance (config : ResolvedLoggerConfig) : DecidablePred (config.Redacts toLowerCase) :=
  fun key => inferInstanceAs (Decidable (toLowerCase key ∈ config.redactKeys.map toLowerCase))

/-- The assignment of the loop of `redact`. -/
def redactEntry (config : ResolvedLoggerConfig) (redacted : LogMetadata V)
    (entry : String × LogValue V) : LogMetadata V :=
  assign redacted entry.1
    (if config.Redacts toLowerCase entry.1 then .text "[REDACTED]" else entry.2)

/-- The metadata with the values of the configured keys replaced. -/
def redact (config : ResolvedLoggerConfig) (metadata : LogMetadata V) : LogMetadata V :=
  if config.redactKeys = [] then metadata
  else metadata.entries.foldl (redactEntry toLowerCase config) ∅

namespace Logger

/-- `logger.child(metadata)` -/
def child (logger : Logger V) (metadata : LogMetadata V) : Logger V :=
  { logger with inheritedMeta := logger.inheritedMeta.spread metadata }

/-- Whether a level is written. -/
def shouldLog (logger : Logger V) (level : LogLevel) : Bool :=
  logger.config.level.priority ≤ level.priority

/-- `finalMeta`, at the time `now`. -/
def finalMeta (logger : Logger V) (metadata : Option (LogMetadata V)) (now : String) :
    LogMetadata V :=
  let mergedMeta := logger.inheritedMeta.spread (metadata.getD ∅)
  if logger.config.includeTimestamp then
    (OrdMap.set ∅ "timestamp" (.text now)).spread mergedMeta
  else mergedMeta

/-- `logger.log(level, message, metadata)`: what is written, if anything. -/
def log (logger : Logger V) (level : LogLevel) (message : String)
    (metadata : Option (LogMetadata V)) (now : String) : List (Written V) :=
  if logger.shouldLog level then
    [⟨level, message, redact toLowerCase logger.config (logger.finalMeta metadata now)⟩]
  else []

end Logger

/-! ### The request logger -/

/-- The headers that are logged without a list. -/
def DEFAULT_SAFE_HEADERS : List String :=
  ["accept", "content-type", "user-agent", "x-correlation-id"]

/-- The headers whose values are never logged. -/
def ALWAYS_REDACT_HEADERS : List String :=
  ["authorization", "cookie", "x-api-key", "proxy-authorization"]

/-- `redactSetLower.has(nameLower)` -/
def AlwaysRedacted (name : String) : Prop :=
  toLowerCase name ∈ ALWAYS_REDACT_HEADERS.map toLowerCase

instance : DecidablePred (AlwaysRedacted toLowerCase) := fun name =>
  inferInstanceAs (Decidable (toLowerCase name ∈ ALWAYS_REDACT_HEADERS.map toLowerCase))

/-- The body of the loop of `filterHeaders`. -/
def filterHeader (whitelist : List String) (filtered : OrdMap String (Plain V))
    (header : String × V) : OrdMap String (Plain V) :=
  if toLowerCase header.1 ∈ whitelist.map toLowerCase then
    assign filtered header.1
      (if AlwaysRedacted toLowerCase header.1 then .text "[REDACTED]" else .given header.2)
  else filtered

/-- The headers of the list, with the values of some replaced. -/
def filterHeaders (headers : OrdMap String V) (whitelist : List String) :
    OrdMap String (Plain V) :=
  headers.entries.foldl (filterHeader toLowerCase whitelist) ∅

/-- The options of the request logger. -/
structure RequestLoggerOptions where
  includeHeaders : Bool := false
  headerWhitelist : Option (List String) := none
  includeQuery : Bool := false

/-- What the request logger reads of a request when it starts. -/
structure Request (V : Type) where
  ip : Option String
  headers : OrdMap String V
  query : OrdMap String V

/-- How `next` has ended, with the time and its text. -/
structure Outcome (V : Type) where
  thrown : Option (ThrownValue V)
  statusCode : ℕ
  endTime : ℤ
  ended : String

/-- Whether a thrown value counts as true. -/
def ThrownValue.truthy : ThrownValue V → Bool
  | .other _ truthy => truthy
  | _ => true

/-- `errorMeta.error` -/
def ThrownValue.metadata : ThrownValue V → LogValue V
  | .blaizeError type title status message details stack =>
      .fields ([("type", .text type), ("title", .text title), ("status", .number status),
        ("message", .text message), ("details", .given details)] ++
          if 500 ≤ status ∧ stack ≠ "" then [("stack", .text stack)] else [])
  | .error message name stack =>
      .fields [("message", .text message), ("name", .text name), ("stack", .text stack)]
  | .other text _ => .text text

/-- `startMeta` -/
def startMeta (options : RequestLoggerOptions) (request : Request V) (started : String) :
    LogMetadata V :=
  let timed : LogMetadata V := OrdMap.set ∅ "timestamp" (.text started)
  let addressed :=
    match request.ip with
    | some ip => if ip = "" then timed else timed.set "ip" (.text ip)
    | none => timed
  let safeHeaders := filterHeaders toLowerCase request.headers
    (options.headerWhitelist.getD DEFAULT_SAFE_HEADERS)
  let headed :=
    if options.includeHeaders ∧ safeHeaders.entries ≠ [] then
      addressed.set "headers" (.record safeHeaders)
    else addressed
  if options.includeQuery ∧ request.query.entries ≠ [] then
    headed.set "query" (.record (request.query.mapValues .given))
  else headed

/-- The level, the message and the metadata of the log at the end; a falsy value that was thrown
counts as none. -/
def endLog (startTime : ℤ) (outcome : Outcome V) : LogLevel × String × LogMetadata V :=
  let duration : LogValue V := .number (outcome.endTime - startTime)
  let completed : LogLevel × String × LogMetadata V :=
    (.info, "Request completed",
      ((OrdMap.set ∅ "statusCode" (.number (if outcome.statusCode = 0 then 200
        else outcome.statusCode))).set "duration" duration).set "timestamp" (.text outcome.ended))
  match outcome.thrown with
  | some thrown =>
      if thrown.truthy then
        (.error, "Request failed",
          ((OrdMap.set ∅ "duration" duration).set "timestamp" (.text outcome.ended)).set "error"
            thrown.metadata)
      else completed
  | none => completed

/-- What `requestLoggerMiddleware` logs in front of `next`. -/
def Logger.requestStarted (logger : Logger V) (options : RequestLoggerOptions)
    (request : Request V) (started : String) : List (Written V) :=
  logger.log toLowerCase .info "Request started"
    (some (startMeta toLowerCase options request started)) started

/-- What it logs behind `next`. -/
def Logger.requestEnded (logger : Logger V) (startTime : ℤ) (outcome : Outcome V) :
    List (Written V) :=
  let ended := endLog startTime outcome
  logger.log toLowerCase ended.1 ended.2.1 (some ended.2.2) outcome.ended

/-! ### Runs -/

/-- A use of one of the loggers, which are numbered as they were made.  Others may come between
the start and the end of a request, whose `startTime` the middleware has kept. -/
inductive Command (V : Type) where
  | child (parent : ℕ) (metadata : LogMetadata V)
  | log (logger : ℕ) (level : LogLevel) (message : String) (metadata : Option (LogMetadata V))
      (now : String)
  | requestStarted (logger : ℕ) (options : RequestLoggerOptions) (request : Request V)
      (started : String)
  | requestEnded (logger : ℕ) (startTime : ℤ) (outcome : Outcome V)

/-- The loggers, and what the transport was given. -/
structure Loggers (V : Type) where
  loggers : List (Logger V)
  written : List (Written V)

namespace Loggers

/-- One more logger, if its parent is there. -/
def make (s : Loggers V) (parent : ℕ) (metadata : LogMetadata V) : Loggers V :=
  { s with loggers := s.loggers ++ (s.loggers[parent]?.map (·.child metadata)).toList }

/-- What a logger writes, if there is one of the number. -/
def write (s : Loggers V) (number : ℕ) (writes : Logger V → List (Written V)) : Loggers V :=
  { s with written := s.written ++ (s.loggers[number]?.map writes).getD [] }

/-- What a command does. -/
def step (s : Loggers V) : Command V → Loggers V
  | .child parent metadata => s.make parent metadata
  | .log number level message metadata now =>
      s.write number fun logger => logger.log toLowerCase level message metadata now
  | .requestStarted number options request started =>
      s.write number fun logger => logger.requestStarted toLowerCase options request started
  | .requestEnded number startTime outcome =>
      s.write number fun logger => logger.requestEnded toLowerCase startTime outcome

end Loggers

/-- A root logger, and what is done with it and its children. -/
def run (config : ResolvedLoggerConfig) (commands : List (Command V)) : Loggers V :=
  commands.foldl (Loggers.step toLowerCase) ⟨[⟨config, ∅⟩], []⟩

end

/-! ### What is redacted is not seen -/

section

variable {V : Type} {toLowerCase : String → String} {config : ResolvedLoggerConfig}

/-- Metadata that differ in redacted values only. -/
abbrev Unseen (toLowerCase : String → String) (config : ResolvedLoggerConfig) :
    LogMetadata V → LogMetadata V → Prop :=
  OrdMap.AgreeBut (config.Redacts toLowerCase)

/-- Two uses that differ in redacted values only: in the metadata, or in the headers of a request
that are always redacted. -/
inductive Command.Alike (toLowerCase : String → String) (config : ResolvedLoggerConfig) :
    Command V → Command V → Prop
  | child (parent : ℕ) {metadata metadata' : LogMetadata V} :
      Unseen toLowerCase config metadata metadata' →
        Alike toLowerCase config (.child parent metadata) (.child parent metadata')
  | log (logger : ℕ) (level : LogLevel) (message : String) (now : String)
      {metadata metadata' : LogMetadata V} :
      Unseen toLowerCase config metadata metadata' →
        Alike toLowerCase config (.log logger level message (some metadata) now)
          (.log logger level message (some metadata') now)
  | message (logger : ℕ) (level : LogLevel) (message : String) (now : String) :
      Alike toLowerCase config (.log logger level message none now)
        (.log logger level message none now)
  | requestStarted (logger : ℕ) (options : RequestLoggerOptions) (request : Request V)
      (started : String) {headers : OrdMap String V} :
      OrdMap.AgreeBut (AlwaysRedacted toLowerCase) request.headers headers →
        Alike toLowerCase config (.requestStarted logger options request started)
          (.requestStarted logger options { request with headers := headers } started)
  | requestEnded (logger : ℕ) (startTime : ℤ) (outcome : Outcome V) :
      Alike toLowerCase config (.requestEnded logger startTime outcome)
        (.requestEnded logger startTime outcome)

lemma redact_eq {metadata metadata' : LogMetadata V}
    (h : Unseen toLowerCase config metadata metadata') :
    redact toLowerCase config metadata = redact toLowerCase config metadata' := by
  rw [redact, redact]
  split
  next hkeys =>
    refine h.eq fun key hsecret => ?_
    rw [ResolvedLoggerConfig.Redacts, hkeys] at hsecret
    exact absurd hsecret List.not_mem_nil
  next =>
    refine h.foldl_eq (fun redacted e e' he => ?_) ∅
    rw [redactEntry, redactEntry, ← he.1]
    split
    next => rfl
    next hsecret => rw [he.2.resolve_left hsecret]

/-- Two loggers of the same configuration that differ in redacted values only. -/
structure Logger.Alike (toLowerCase : String → String) (config : ResolvedLoggerConfig)
    (logger logger' : Logger V) : Prop where
  config_left : logger.config = config
  config_right : logger'.config = config
  inheritedMeta : Unseen toLowerCase config logger.inheritedMeta logger'.inheritedMeta

variable {logger logger' : Logger V} {metadata metadata' : LogMetadata V}

lemma Logger.Alike.child (h : Logger.Alike toLowerCase config logger logger')
    (hmeta : Unseen toLowerCase config metadata metadata') :
    Logger.Alike toLowerCase config (logger.child metadata) (logger'.child metadata') :=
  ⟨h.config_left, h.config_right, h.inheritedMeta.spread hmeta⟩

lemma Logger.Alike.log (h : Logger.Alike toLowerCase config logger logger') (level : LogLevel)
    (message now : String) {metadata metadata' : Option (LogMetadata V)}
    (hmeta : Unseen toLowerCase config (metadata.getD ∅) (metadata'.getD ∅)) :
    logger.log toLowerCase level message metadata now =
      logger'.log toLowerCase level message metadata' now := by
  have hfinal : Unseen toLowerCase config (logger.finalMeta metadata now)
      (logger'.finalMeta metadata' now) := by
    have hmerged := h.inheritedMeta.spread hmeta
    rw [Logger.finalMeta, Logger.finalMeta, h.config_left, h.config_right]
    split
    · exact (OrdMap.AgreeBut.refl _).spread hmerged
    · exact hmerged
  have hredact := redact_eq hfinal
  rw [Logger.log, Logger.log, Logger.shouldLog, Logger.shouldLog, h.config_left, h.config_right,
    hredact]

/-- The headers that are always redacted leave no trace in the filtered ones. -/
lemma filterHeaders_eq {headers headers' : OrdMap String V}
    (h : OrdMap.AgreeBut (AlwaysRedacted toLowerCase) headers headers') (whitelist : List String) :
    filterHeaders toLowerCase headers whitelist = filterHeaders toLowerCase headers' whitelist := by
  refine h.foldl_eq (fun filtered e e' he => ?_) ∅
  rw [filterHeader, filterHeader, ← he.1]
  by_cases hsecret : AlwaysRedacted toLowerCase e.1
  · rw [if_pos hsecret, if_pos hsecret]
  · rw [he.2.resolve_left hsecret]

lemma Logger.Alike.requestStarted (h : Logger.Alike toLowerCase config logger logger')
    (options : RequestLoggerOptions) (request : Request V) (started : String)
    {headers : OrdMap String V}
    (hheaders : OrdMap.AgreeBut (AlwaysRedacted toLowerCase) request.headers headers) :
    logger.requestStarted toLowerCase options request started =
      logger'.requestStarted toLowerCase options { request with headers := headers } started := by
  have hstart : startMeta toLowerCase options request started =
      startMeta toLowerCase options { request with headers := headers } started := by
    rw [startMeta, startMeta, filterHeaders_eq hheaders]
  rw [Logger.requestStarted, Logger.requestStarted, ← hstart]
  exact h.log _ _ _ (OrdMap.AgreeBut.refl _)

/-- Two states that differ in redacted values only, with the same writes. -/
structure Loggers.Alike (toLowerCase : String → String) (config : ResolvedLoggerConfig)
    (s s' : Loggers V) : Prop where
  loggers : List.Forall₂ (Logger.Alike toLowerCase config) s.loggers s'.loggers
  written : s.written = s'.written

variable {s s' : Loggers V}

lemma Loggers.Alike.make (h : Loggers.Alike toLowerCase config s s') (parent : ℕ)
    (hmeta : Unseen toLowerCase config metadata metadata') :
    Loggers.Alike toLowerCase config (s.make parent metadata) (s'.make parent metadata') := by
  refine ⟨List.rel_append h.loggers ?_, h.written⟩
  rcases h.loggers.getElem?_rel parent with ⟨hs, hs'⟩ | ⟨l, l', hs, hs', halike⟩
  · rw [hs, hs']
    exact .nil
  · rw [hs, hs']
    exact .cons (halike.child hmeta) .nil

lemma Loggers.Alike.write (h : Loggers.Alike toLowerCase config s s') (number : ℕ)
    {writes writes' : Logger V → List (Written V)}
    (hwrites : ∀ l l', Logger.Alike toLowerCase config l l' → writes l = writes' l') :
    Loggers.Alike toLowerCase config (s.write number writes) (s'.write number writes') := by
  refine ⟨h.loggers, ?_⟩
  rw [Loggers.write, Loggers.write, h.written]
  rcases h.loggers.getElem?_rel number with ⟨hs, hs'⟩ | ⟨l, l', hs, hs', halike⟩
  · rw [hs, hs']
    rfl
  · rw [hs, hs', Option.map_some, Option.map_some, hwrites l l' halike]

lemma Loggers.Alike.step (h : Loggers.Alike toLowerCase config s s') {command command' : Command V}
    (hcommand : Command.Alike toLowerCase config command command') :
    Loggers.Alike toLowerCase config (s.step toLowerCase command)
      (s'.step toLowerCase command') := by
  cases hcommand with
  | child parent hmeta => exact h.make parent hmeta
  | log logger level message now hmeta =>
      exact h.write logger fun l l' halike => halike.log level message now hmeta
  | message logger level message now =>
      exact h.write logger fun l l' halike => halike.log level message now (OrdMap.AgreeBut.refl _)
  | requestStarted logger options request started hheaders =>
      exact h.write logger fun l l' halike =>
        halike.requestStarted options request started hheaders
  | requestEnded logger startTime outcome =>
      exact h.write logger fun l l' halike => halike.log _ _ _ (OrdMap.AgreeBut.refl _)

/-- **What is redacted has no influence on what is written**: not through any chain of loggers, in
any order of their uses, in any case of the letters of a key, and not at any level. -/
theorem written_eq_of_unseen (toLowerCase : String → String) (config : ResolvedLoggerConfig)
    {commands commands' : List (Command V)}
    (h : List.Forall₂ (Command.Alike toLowerCase config) commands commands') :
    (run toLowerCase config commands).written = (run toLowerCase config commands').written := by
  have hroot : Loggers.Alike toLowerCase config (⟨[⟨config, ∅⟩], []⟩ : Loggers V)
      ⟨[⟨config, ∅⟩], []⟩ := ⟨.cons ⟨rfl, rfl, OrdMap.AgreeBut.refl _⟩ .nil, rfl⟩
  exact (List.rel_foldl (P := Loggers.Alike toLowerCase config)
    (R := Command.Alike toLowerCase config) (fun _ _ hs _ _ hc => hs.step hc) hroot h).written

/-- A child logger with a password, and a request with a cookie. -/
theorem written_eq_of_unseen_password :
    (run String.toLowerCase ⟨.info, ["password"], true⟩
      [.child 0 (OrdMap.set ∅ "Password" (.plain (.given "1234"))),
        .requestStarted 1 { includeHeaders := true, headerWhitelist := some ["cookie"] }
          ⟨none, OrdMap.set ∅ "Cookie" "1234", ∅⟩ "0",
        .requestEnded 1 0 ⟨none, 200, 1, "1"⟩]).written =
    (run String.toLowerCase ⟨.info, ["password"], true⟩
      [.child 0 (OrdMap.set ∅ "Password" (.plain (.given "5678"))),
        .requestStarted 1 { includeHeaders := true, headerWhitelist := some ["cookie"] }
          ⟨none, OrdMap.set ∅ "Cookie" "5678", ∅⟩ "0",
        .requestEnded 1 0 ⟨none, 200, 1, "1"⟩]).written := by
  refine written_eq_of_unseen String.toLowerCase _
    (.cons (.child 0 ?_) (.cons ?_ (.cons (.requestEnded 1 0 _) .nil)))
  · exact .cons ⟨rfl, .inl (by decide)⟩ .nil
  · exact .requestStarted 1 _ ⟨none, OrdMap.set ∅ "Cookie" "1234", ∅⟩ _
      (.cons ⟨rfl, .inl (by decide)⟩ .nil)

end

end Blaize.Logger
