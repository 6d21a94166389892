import Blaize.Logger.Redaction

/-!
The metadata of a log as those of nested scopes: a child logger is an inner scope, the metadata of
a log are the innermost, and its timestamp is the outermost.

* `Scope.find`, `Scope.show`: the value of a key in a scope, and what a log shows there;
* `shown`: what is shown while loggers are made and used;
* `Logger.Stands`: a logger and the scope that it stands for;
* `written_shows`: **the loggers are scopes**: the transport is given what the scopes say.
-/

namespace Blaize.Logger

section

variable {V : Type}

/-- The metadata that a logger was made with, and its parent, and so on. -/
abbrev Scope (V : Type) := List (LogMetadata V)

/-- The value of the innermost metadata that has the key. -/
def Scope.find (scope : Scope V) (key : String) : Option (LogValue V) :=
  scope.findSome? (·.get key)

/-- A log with the value of each key. -/
@[ext]
structure Shown (V : Type) where
  level : LogLevel
  message : String
  find : String → Option (LogValue V)

/-- What can be seen of what was written. -/
def Written.shown (written : Written V) : Shown V :=
  ⟨written.level, written.message, written.metadata.get⟩

section

variable (toLowerCase : String → String) (config : ResolvedLoggerConfig)

/-- What is shown for a key that has a value. -/
def mask (key : String) (value : LogValue V) : Option (LogValue V) :=
  if config.redactKeys = [] then some value
  else if key = "__proto__" then none
  else some (if config.Redacts toLowerCase key then .text "[REDACTED]" else value)

/-- What a log shows in a scope: its own metadata are the innermost, the timestamp the outermost. -/
def Scope.show (scope : Scope V) (level : LogLevel) (message : String)
    (metadata : Option (LogMetadata V)) (now : String) : List (Shown V) :=
  let timed := if config.includeTimestamp then [OrdMap.set ∅ "timestamp" (.text now)] else []
  if config.level.priority ≤ level.priority then
    [⟨level, message, fun key =>
      (Scope.find (metadata.getD ∅ :: (scope ++ timed)) key).bind (mask toLowerCase config key)⟩]
  else []

/-- What the request logger shows of the start of a request in a scope. -/
def Scope.showStarted (scope : Scope V) (options : RequestLoggerOptions) (request : Request V)
    (started : String) : List (Shown V) :=
  scope.show toLowerCase config .info "Request started"
    (some (startMeta toLowerCase options request started)) started

/-- What it shows of the end. -/
def Scope.showEnded (scope : Scope V) (startTime : ℤ) (outcome : Outcome V) : List (Shown V) :=
  let ended := endLog startTime outcome
  scope.show toLowerCase config ended.1 ended.2.1 (some ended.2.2) outcome.ended

/-- The scopes of the loggers, and what was shown. -/
structure Scopes (V : Type) where
  scopes : List (Scope V)
  shown : List (Shown V)

namespace Scopes

/-- A logger shows something, if it is there. -/
def write (s : Scopes V) (number : ℕ) (shows : Scope V → List (Shown V)) : Scopes V :=
  { s with shown := s.shown ++ (s.scopes[number]?.map shows).getD [] }

/-- What a command shows. -/
def step (s : Scopes V) : Command V → Scopes V
  | .child parent metadata =>
      { s with scopes := s.scopes ++ (s.scopes[parent]?.map (metadata :: ·)).toList }
  | .log number level message metadata now =>
      s.write number fun scope => scope.show toLowerCase config level message metadata now
  | .requestStarted number options request started =>
      s.write number fun scope => scope.showStarted toLowerCase config options request started
  | .requestEnded number startTime outcome =>
      s.write number fun scope => scope.showEnded toLowerCase config startTime outcome

end Scopes

/-- What is shown while loggers are made and used: a child logger is an inner scope. -/
def shown (commands : List (Command V)) : List (Shown V) :=
  (commands.foldl (Scopes.step toLowerCase config) ⟨[[]], []⟩).shown

end

variable {toLowerCase : String → String} {config : ResolvedLoggerConfig}

lemma get_assign (target : LogMetadata V) (key key' : String) (value : LogValue V) :
    (assign target key value).get key' =
      if key = key' ∧ key ≠ "__proto__" then some value else target.get key' := by
  rw [assign]
  by_cases hproto : key = "__proto__"
  · rw [if_pos hproto, if_neg fun h => h.2 hproto]
  · rw [if_neg hproto, OrdMap.get_set]
    exact if_congr (and_iff_left hproto).symm rfl rfl

lemma get_foldl_redactEntry {l : List (String × LogValue V)} (h : (l.map Prod.fst).Nodup)
    (target : LogMetadata V) (key : String) :
    (l.foldl (redactEntry toLowerCase config) target).get key =
      if key = "__proto__" then target.get key
      else ((OrdMap.find key l).map fun value =>
        if config.Redacts toLowerCase key then .text "[REDACTED]" else value).or
          (target.get key) := by
  induction l generalizing target with
  | nil => simp [OrdMap.find]
  | cons e l ih =>
      rw [List.map_cons, List.nodup_cons] at h
      rw [List.foldl_cons, ih h.2, redactEntry, get_assign, OrdMap.find]
      by_cases hproto : key = "__proto__"
      · rw [if_pos hproto, if_pos hproto, if_neg]
        rintro ⟨hkey, hne⟩
        exact hne (hkey.trans hproto)
      · rw [if_neg hproto, if_neg hproto]
        by_cases hkey : e.1 = key
        · rw [if_pos ⟨hkey, hkey ▸ hproto⟩, if_pos hkey,
            OrdMap.find_eq_none_iff.mpr (hkey ▸ h.1), hkey]
          rfl
        · rw [if_neg fun h => hkey h.1, if_neg hkey]

lemma get_redact (metadata : LogMetadata V) (key : String) :
    (redact toLowerCase config metadata).get key =
      (metadata.get key).bind (mask toLowerCase config key) := by
  rw [redact]
  by_cases hkeys : config.redactKeys = []
  · have hmask : mask (V := V) toLowerCase config key = some := by
      funext value
      rw [mask, if_pos hkeys]
    rw [if_pos hkeys, hmask]
    exact (Option.bind_fun_some _).symm
  · rw [if_neg hkeys, get_foldl_redactEntry metadata.nodup]
    by_cases hproto : key = "__proto__"
    · have hmask : mask (V := V) toLowerCase config key = fun _ => none := by
        funext value
        rw [mask, if_neg hkeys, if_pos hproto]
      rw [if_pos hproto, hmask]
      exact (Option.bind_fun_none _).symm
    · have hmask : mask (V := V) toLowerCase config key = fun value =>
          some (if config.Redacts toLowerCase key then .text "[REDACTED]" else value) := by
        funext value
        rw [mask, if_neg hkeys, if_neg hproto]
      rw [if_neg hproto, hmask, OrdMap.get_empty, Option.or_none, OrdMap.get]
      cases OrdMap.find key metadata.entries <;> rfl

/-- A logger with the scope that it stands for. -/
structure Logger.Stands (config : ResolvedLoggerConfig) (logger : Logger V) (scope : Scope V) :
    Prop where
  config_eq : logger.config = config
  get : ∀ key, logger.inheritedMeta.get key = scope.find key

variable {logger : Logger V} {scope : Scope V}

lemma Logger.Stands.child (h : logger.Stands config scope) (metadata : LogMetadata V) :
    (logger.child metadata).Stands config (metadata :: scope) := by
  refine ⟨h.config_eq, fun key => ?_⟩
  rw [Logger.child, OrdMap.get_spread, h.get, Scope.find, Scope.find, List.findSome?_cons]
  cases metadata.get key <;> rfl

lemma Logger.Stands.get_finalMeta (h : logger.Stands config scope)
    (metadata : Option (LogMetadata V)) (now key : String) :
    (logger.finalMeta metadata now).get key =
      Scope.find (metadata.getD ∅ :: (scope ++
        if config.includeTimestamp then [OrdMap.set ∅ "timestamp" (.text now)] else [])) key := by
  have hmerged : (logger.inheritedMeta.spread (metadata.getD ∅)).get key =
      Scope.find (metadata.getD ∅ :: scope) key := (h.child (metadata.getD ∅)).get key
  have hinner (scope timed : Scope V) :
      Scope.find (scope ++ timed) key = (scope.find key).or (Scope.find timed key) :=
    List.findSome?_append
  rw [Logger.finalMeta, h.config_eq, ← List.cons_append, hinner, ← hmerged]
  split
  · rw [OrdMap.get_spread]
    refine congrArg _ ?_
    rw [Scope.find, List.findSome?_cons]
    cases (OrdMap.set ∅ "timestamp" (LogValue.text now)).get key <;> rfl
  · exact (Option.or_none ..).symm

lemma Logger.Stands.log (h : logger.Stands config scope) (level : LogLevel)
    (message now : String) (metadata : Option (LogMetadata V)) :
    (logger.log toLowerCase level message metadata now).map Written.shown =
      scope.show toLowerCase config level message metadata now := by
  rw [Logger.log, Logger.shouldLog, Scope.show, h.config_eq]
  by_cases hlevel : config.level.priority ≤ level.priority
  · rw [if_pos (decide_eq_true hlevel), if_pos hlevel, List.map_singleton]
    refine congrArg (fun find => [(⟨level, message, find⟩ : Shown V)]) (funext fun key => ?_)
    rw [get_redact, h.get_finalMeta]
  · rw [if_neg (by simpa using hlevel), if_neg hlevel]
    rfl

/-- The loggers with their scopes, and what was written with what was shown. -/
structure Loggers.Stands (config : ResolvedLoggerConfig) (s : Loggers V) (t : Scopes V) : Prop where
  loggers : List.Forall₂ (Logger.Stands config) s.loggers t.scopes
  written : s.written.map Written.shown = t.shown

variable {s : Loggers V} {t : Scopes V}

lemma Loggers.Stands.write (h : s.Stands config t) (number : ℕ)
    {writes : Logger V → List (Written V)} {shows : Scope V → List (Shown V)}
    (hwrites : ∀ logger scope, logger.Stands config scope →
      (writes logger).map Written.shown = shows scope) :
    (s.write number writes).Stands config (t.write number shows) := by
  refine ⟨h.loggers, ?_⟩
  rw [Loggers.write, Scopes.write, List.map_append, h.written]
  refine congrArg _ ?_
  rcases h.loggers.getElem?_rel number with ⟨hs, ht⟩ | ⟨logger, scope, hs, ht, hstands⟩
  · rw [hs, ht]
    rfl
  · rw [hs, ht]
    exact hwrites logger scope hstands

lemma Loggers.Stands.step (h : s.Stands config t) (command : Command V) :
    (s.step toLowerCase command).Stands config (t.step toLowerCase config command) := by
  cases command with
  | child parent metadata =>
      refine ⟨List.rel_append h.loggers ?_, h.written⟩
      rcases h.loggers.getElem?_rel parent with ⟨hs, ht⟩ | ⟨logger, scope, hs, ht, hstands⟩
      · rw [hs, ht]
        exact .nil
      · rw [hs, ht]
        exact .cons (hstands.child metadata) .nil
  | log number level message metadata now =>
      exact h.write number fun _ _ hstands => hstands.log level message now metadata
  | requestStarted number options request started =>
      exact h.write number fun _ _ hstands => hstands.log _ _ _ _
  | requestEnded number startTime outcome =>
      exact h.write number fun _ _ hstands => hstands.log _ _ _ _

/-- **The loggers are scopes**: whatever loggers are made and used, in any order, the transport is
given for each key the value of the innermost metadata that has it, or that it is redacted. -/
theorem written_shows (toLowerCase : String → String) (config : ResolvedLoggerConfig)
    (commands : List (Command V)) :
    (run toLowerCase config commands).written.map Written.shown =
      shown toLowerCase config commands := by
  suffices hstands : ∀ (s : Loggers V) (t : Scopes V), s.Stands config t →
      (commands.foldl (Loggers.step toLowerCase) s).Stands config
        (commands.foldl (Scopes.step toLowerCase config) t) from
    (hstands ⟨[⟨config, ∅⟩], []⟩ ⟨[[]], []⟩ ⟨.cons ⟨rfl, fun _ => rfl⟩ .nil, rfl⟩).written
  induction commands with
  | nil => exact fun _ _ h => h
  | cons command commands ih => exact fun _ _ h => ih _ _ (h.step command)

end

end Blaize.Logger
