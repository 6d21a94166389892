import Blaize.Lib.Json
import Blaize.Redis.QueueAdapter

/-!
The encoding of a job as a Redis hash (`jobToHash` and `hashToJob` of
`adapters/redis/src/queue-adapter.ts`), with the numbers and the JSON values as they are.

`QueueAdapter` models the same two functions for numbers that are written without an exponent
and for any JSON; here the texts themselves are compared.

* `QueueJob`: a job whose numbers are finite;
* `jobToHash`, `hashToJob`: the two functions;
* `Survives`: no progress message, no falsy result, and only whole numbers below `10 ^ 21`;
* `hashToJob_jobToHash_iff`: **a job comes back from its hash exactly if it survives**.
-/

namespace Blaize.JobHash

open Js Blaize.Queue
open Blaize.RedisQueue (statusText statusOfText statusOfText_statusText parseFilled filled)

/-- A job; `none` is `undefined`. -/
structure QueueJob where
  id : String
  type : String
  queueName : String
  data : Option Json
  status : JobStatus
  priority : Number
  progress : Number
  progressMessage : Option String := none
  queuedAt : Number
  startedAt : Option Number := none
  completedAt : Option Number := none
  retries : Number
  maxRetries : Number
  timeout : Number
  result : Option Json := none
  error : Option JobError := none
  metadata : OrdMap String Json := ∅

/-! ### Records as JSON -/

/-- An optional text as a member. -/
def optionalMember (key : String) (text : Option String) : List (String × Json) :=
  (text.map fun text => (key, Json.string text)).toList

/-- The members of an error. -/
def jobErrorToJson (error : JobError) : Json :=
  .object (("message", .string error.message) ::
    (optionalMember "code" error.code ++ optionalMember "stack" error.stack))

/-- The text of a member that may be missing. -/
def textMember (key : String) (members : List (String × Json)) : Option (Option String) :=
  match OrdMap.find key members with
  | none => some none
  | some (.string text) => some (some text)
  | some _ => none

/-- The cast of a parsed value to `JobError`; `none` if it is none. -/
def jobErrorOfJson : Json → Option JobError
  | .object members =>
      match textMember "message" members, textMember "code" members, textMember "stack" members with
      | some (some message), some code, some stack => some { message, code, stack }
      | _, _, _ => none
  | _ => none

/-- The cast of a parsed value to a record; `none` if it is none. -/
def metadataOfJson : Json → Option (OrdMap String Json)
  | .object members => if h : (members.map Prod.fst).Nodup then some ⟨members, h⟩ else none
  | _ => none

/-- An error that is read from a field. -/
def parseError (text : String) : Option JobError := (Json.parse text).bind jobErrorOfJson

/-- Metadata that are read from a field. -/
def parseMetadata (text : String) : Option (OrdMap String Json) :=
  (Json.parse text).bind metadataOfJson

/-! ### The two functions -/

/-- `n?.toString() || ''`. -/
def optionalText (number : Option Number) : String := (number.map Number.toString).getD ""

/-- `result ? JSON.stringify(result) : ''`. -/
def resultText : Option Json → String
  | some result => if result.truthy then result.stringify else ""
  | none => ""

/-- The field of an error; without one it is empty. -/
def errorText : Option JobError → String
  | some error => (jobErrorToJson error).stringify
  | none => ""

/-- The fields of a job. -/
def jobToHash (job : QueueJob) : Redis.Hash where
  entries :=
    [("id", job.id), ("type", job.type), ("queueName", job.queueName)] ++
      (job.data.map fun data => ("data", data.stringify)).toList ++
      [("status", statusText job.status),
        ("priority", job.priority.toString),
        ("progress", job.progress.toString),
        ("queuedAt", job.queuedAt.toString),
        ("startedAt", optionalText job.startedAt),
        ("completedAt", optionalText job.completedAt),
        ("retries", job.retries.toString),
        ("maxRetries", job.maxRetries.toString),
        ("timeout", job.timeout.toString),
        ("result", resultText job.result),
        ("error", errorText job.error),
        ("metadata", (Json.object job.metadata.entries).stringify)]
  nodup := by cases job.data <;> simp

/-- `hash.field ? parseInt(hash.field, 10) : undefined`. -/
def optionalNumber (hash : Redis.Hash) (field : String) : Option (Option Number) :=
  parseFilled parseInt (filled hash field)

/-- `hash.field ? parseInt(hash.field, 10) : missing`. -/
def numberField (hash : Redis.Hash) (field : String) (missing : Number) : Option Number :=
  (optionalNumber hash field).map (·.getD missing)

/-- `none` when a JSON text does not parse, or when a number is `NaN`. -/
def hashToJob (hash : Redis.Hash) : Option QueueJob := do
  let data ← parseFilled Json.parse (filled hash "data")
  let status ← (hash.get "status").bind statusOfText
  let priority ← numberField hash "priority" 1
  let progress ← numberField hash "progress" 0
  let queuedAt ← numberField hash "queuedAt" 0
  let startedAt ← optionalNumber hash "startedAt"
  let completedAt ← optionalNumber hash "completedAt"
  let retries ← numberField hash "retries" 0
  let maxRetries ← numberField hash "maxRetries" 0
  let timeout ← numberField hash "timeout" 0
  let result ← parseFilled Json.parse (filled hash "result")
  let error ← parseFilled parseError (filled hash "error")
  let metadata ← parseFilled parseMetadata (filled hash "metadata")
  some {
    id := (hash.get "id").getD ""
    type := (hash.get "type").getD ""
    queueName := (hash.get "queueName").getD ""
    data
    status
    priority
    progress
    queuedAt
    startedAt
    completedAt
    retries
    maxRetries
    timeout
    result
    error
    metadata := metadata.getD ∅ }

/-! ### What JSON represents -/

/-- The values of a job are values of JSON. -/
structure QueueJob.Representable (job : QueueJob) : Prop where
  data : ∀ v, job.data = some v → v.Valid
  result : ∀ v, job.result = some v → v.Valid
  metadata : Json.ValidMembers job.metadata.entries

/-- The numbers that are there. -/
def QueueJob.numbers (job : QueueJob) : List Number :=
  [job.priority, job.progress, job.queuedAt, job.retries, job.maxRetries, job.timeout] ++
    job.startedAt.toList ++ job.completedAt.toList

/-- What comes back: no progress message, no falsy result, and only whole numbers that are written
without an exponent. -/
structure QueueJob.Survives (job : QueueJob) : Prop where
  progressMessage : job.progressMessage = none
  result : ∀ v, job.result = some v → v.truthy = true
  numbers : ∀ x ∈ job.numbers, x.Whole

/-! ### Reading the fields -/

section Fields

variable {hash : Redis.Hash} {field text : String}

lemma filled_of_get (h : hash.get field = some text) (htext : text ≠ "") :
    filled hash field = some text := by
  rw [filled, h]
  simp [htext]

lemma filled_of_empty (h : hash.get field = some "") : filled hash field = none := by
  rw [filled, h]
  rfl

lemma numberField_toString {x : Number} (h : hash.get field = some x.toString) (missing : Number) :
    numberField hash field missing = parseInt x.toString := by
  unfold numberField optionalNumber
  rw [filled_of_get h x.toString_ne_empty, parseFilled, Option.map_map]
  exact Option.map_id'

lemma optionalNumber_optionalText {x : Option Number} (h : hash.get field = some (optionalText x)) :
    optionalNumber hash field = some x ↔ ∀ y ∈ x.toList, y.Whole := by
  unfold optionalNumber
  cases x with
  | none =>
      rw [filled_of_empty h]
      exact iff_of_true rfl nofun
  | some y =>
      have htext : hash.get field = some y.toString := h
      rw [filled_of_get htext y.toString_ne_empty, parseFilled, Option.map_eq_some_iff]
      simp [← Number.parseInt_toString_iff]

lemma parseFilled_stringify {value : Json} (h : hash.get field = some value.stringify)
    (hvalid : value.Valid) : parseFilled Json.parse (filled hash field) = some (some value) := by
  rw [filled_of_get h value.stringify_ne_empty, parseFilled, Json.parse_stringify hvalid]
  rfl

end Fields

section Reads

variable {job : QueueJob}

lemma get_jobToHash {field text : String} (h : (field, text) ∈ (jobToHash job).entries) :
    (jobToHash job).get field = some text := (OrdMap.mem_entries_iff _).mp h

lemma read_data (h : job.Representable) :
    parseFilled Json.parse (filled (jobToHash job) "data") = some job.data := by
  cases hdata : job.data with
  | none =>
      have hget : (jobToHash job).get "data" = none := by
        refine OrdMap.find_eq_none_iff.mpr ?_
        simp [jobToHash, hdata]
      rw [filled, hget]
      rfl
  | some v =>
      exact parseFilled_stringify (get_jobToHash (by simp [jobToHash, hdata])) (h.data v hdata)

lemma read_result (h : job.Representable) :
    parseFilled Json.parse (filled (jobToHash job) "result") =
      some (job.result.filter Json.truthy) := by
  have hget : (jobToHash job).get "result" = some (resultText job.result) :=
    get_jobToHash (by simp [jobToHash])
  cases hresult : job.result with
  | none =>
      rw [hresult] at hget
      rw [filled_of_empty hget]
      rfl
  | some v =>
      rw [hresult, resultText] at hget
      split at hget
      next htruthy =>
        rw [parseFilled_stringify hget (h.result v hresult), Option.filter_some_pos htruthy]
      next hfalsy =>
        rw [filled_of_empty hget, Option.filter_some_neg (by simpa using hfalsy)]
        rfl

lemma valid_jobErrorToJson (error : JobError) : (jobErrorToJson error).Valid := by
  obtain ⟨message, code, stack⟩ := error
  cases code <;> cases stack <;>
    simp [jobErrorToJson, optionalMember, Json.Valid, Json.ValidMembers]

/-- An error comes back from its text. -/
lemma parseError_errorText (error : JobError) :
    parseError (jobErrorToJson error).stringify = some error := by
  rw [parseError, Json.parse_stringify (valid_jobErrorToJson error)]
  obtain ⟨message, code, stack⟩ := error
  cases code <;> cases stack <;> rfl

lemma read_error :
    parseFilled parseError (filled (jobToHash job) "error") = some job.error := by
  have hget : (jobToHash job).get "error" = some (errorText job.error) :=
    get_jobToHash (by simp [jobToHash])
  cases herror : job.error with
  | none =>
      rw [herror] at hget
      rw [filled_of_empty hget]
      rfl
  | some error =>
      rw [herror, errorText] at hget
      rw [filled_of_get hget (Json.stringify_ne_empty _), parseFilled, parseError_errorText]
      rfl

lemma read_metadata (h : job.Representable) :
    parseFilled parseMetadata (filled (jobToHash job) "metadata") = some (some job.metadata) := by
  have hget : (jobToHash job).get "metadata" =
      some (Json.object job.metadata.entries).stringify := get_jobToHash (by simp [jobToHash])
  have hvalid : (Json.object job.metadata.entries).Valid := ⟨job.metadata.nodup, h.metadata⟩
  rw [filled_of_get hget (Json.stringify_ne_empty _), parseFilled, parseMetadata,
    Json.parse_stringify hvalid]
  show (metadataOfJson (.object job.metadata.entries)).map some = _
  rw [metadataOfJson, dif_pos job.metadata.nodup]
  rfl

/-- What is read from the hash of a job: the numbers as their texts give them. -/
lemma hashToJob_jobToHash (h : job.Representable) :
    hashToJob (jobToHash job) = (do
      let priority ← parseInt job.priority.toString
      let progress ← parseInt job.progress.toString
      let queuedAt ← parseInt job.queuedAt.toString
      let startedAt ← optionalNumber (jobToHash job) "startedAt"
      let completedAt ← optionalNumber (jobToHash job) "completedAt"
      let retries ← parseInt job.retries.toString
      let maxRetries ← parseInt job.maxRetries.toString
      let timeout ← parseInt job.timeout.toString
      some { job with
        priority, progress, queuedAt, startedAt, completedAt, retries, maxRetries, timeout
        progressMessage := none
        result := job.result.filter Json.truthy }) := by
  have hid : (jobToHash job).get "id" = some job.id := get_jobToHash (by simp [jobToHash])
  have htype : (jobToHash job).get "type" = some job.type := get_jobToHash (by simp [jobToHash])
  have hqueue : (jobToHash job).get "queueName" = some job.queueName :=
    get_jobToHash (by simp [jobToHash])
  have hstatus : ((jobToHash job).get "status").bind statusOfText = some job.status := by
    rw [get_jobToHash (show ("status", statusText job.status) ∈ _ by simp [jobToHash])]
    exact statusOfText_statusText job.status
  have hnumber {field : String} {x : Number}
      (hmem : (field, x.toString) ∈ (jobToHash job).entries) (missing : Number) :
      numberField (jobToHash job) field missing = parseInt x.toString :=
    numberField_toString (get_jobToHash hmem) missing
  have hpriority := @hnumber "priority" job.priority (by simp [jobToHash])
  have hprogress := @hnumber "progress" job.progress (by simp [jobToHash])
  have hqueuedAt := @hnumber "queuedAt" job.queuedAt (by simp [jobToHash])
  have hretries := @hnumber "retries" job.retries (by simp [jobToHash])
  have hmaxRetries := @hnumber "maxRetries" job.maxRetries (by simp [jobToHash])
  have htimeout := @hnumber "timeout" job.timeout (by simp [jobToHash])
  unfold hashToJob
  rw [read_data h, hstatus, hpriority, hprogress, hqueuedAt, hretries, hmaxRetries, htimeout,
    read_result h, read_error, read_metadata h, hid, htype, hqueue]
  rfl

lemma optionalNumber_startedAt :
    optionalNumber (jobToHash job) "startedAt" = some job.startedAt ↔
      ∀ x ∈ job.startedAt.toList, x.Whole :=
  optionalNumber_optionalText (get_jobToHash (by simp [jobToHash]))

lemma optionalNumber_completedAt :
    optionalNumber (jobToHash job) "completedAt" = some job.completedAt ↔
      ∀ x ∈ job.completedAt.toList, x.Whole :=
  optionalNumber_optionalText (get_jobToHash (by simp [jobToHash]))

lemma survives_of_hashToJob (h : job.Representable) (hread : hashToJob (jobToHash job) = some job) :
    job.Survives := by
  rw [hashToJob_jobToHash h] at hread
  obtain ⟨priority, hp₁, hread⟩ := Option.bind_eq_some_iff.mp hread
  obtain ⟨progress, hp₂, hread⟩ := Option.bind_eq_some_iff.mp hread
  obtain ⟨queuedAt, hp₃, hread⟩ := Option.bind_eq_some_iff.mp hread
  obtain ⟨startedAt, hp₄, hread⟩ := Option.bind_eq_some_iff.mp hread
  obtain ⟨completedAt, hp₅, hread⟩ := Option.bind_eq_some_iff.mp hread
  obtain ⟨retries, hp₆, hread⟩ := Option.bind_eq_some_iff.mp hread
  obtain ⟨maxRetries, hp₇, hread⟩ := Option.bind_eq_some_iff.mp hread
  obtain ⟨timeout, hp₈, hread⟩ := Option.bind_eq_some_iff.mp hread
  have hjob := Option.some.inj hread
  -- each number was read as itself
  rw [show priority = job.priority from congrArg QueueJob.priority hjob,
    Number.parseInt_toString_iff] at hp₁
  rw [show progress = job.progress from congrArg QueueJob.progress hjob,
    Number.parseInt_toString_iff] at hp₂
  rw [show queuedAt = job.queuedAt from congrArg QueueJob.queuedAt hjob,
    Number.parseInt_toString_iff] at hp₃
  rw [show startedAt = job.startedAt from congrArg QueueJob.startedAt hjob,
    optionalNumber_startedAt] at hp₄
  rw [show completedAt = job.completedAt from congrArg QueueJob.completedAt hjob,
    optionalNumber_completedAt] at hp₅
  rw [show retries = job.retries from congrArg QueueJob.retries hjob,
    Number.parseInt_toString_iff] at hp₆
  rw [show maxRetries = job.maxRetries from congrArg QueueJob.maxRetries hjob,
    Number.parseInt_toString_iff] at hp₇
  rw [show timeout = job.timeout from congrArg QueueJob.timeout hjob,
    Number.parseInt_toString_iff] at hp₈
  refine ⟨(congrArg QueueJob.progressMessage hjob).symm, fun v hv => ?_, ?_⟩
  · have hresult : job.result.filter Json.truthy = job.result := congrArg QueueJob.result hjob
    rw [hv] at hresult
    exact (Option.filter_eq_some_iff.mp hresult).2
  · simp only [QueueJob.numbers, List.mem_append, List.mem_cons, List.not_mem_nil, or_false]
    rintro x ((hx | hx) | hx)
    · rcases hx with rfl | rfl | rfl | rfl | rfl | rfl <;> assumption
    · exact hp₄ x hx
    · exact hp₅ x hx

lemma hashToJob_of_survives (h : job.Representable) (hsurvives : job.Survives) :
    hashToJob (jobToHash job) = some job := by
  have hwhole (x : Number) (hx : x ∈ job.numbers) : parseInt x.toString = some x :=
    x.parseInt_toString_iff.mpr (hsurvives.numbers x hx)
  have hresult : job.result.filter Json.truthy = job.result := by
    cases hv : job.result with
    | none => rfl
    | some v => exact Option.filter_some_pos (hsurvives.result v hv)
  rw [hashToJob_jobToHash h, hwhole job.priority (by simp [QueueJob.numbers]),
    hwhole job.progress (by simp [QueueJob.numbers]),
    hwhole job.queuedAt (by simp [QueueJob.numbers]),
    optionalNumber_startedAt.mpr fun y hy => hsurvives.numbers y (by simp [QueueJob.numbers, hy]),
    optionalNumber_completedAt.mpr fun y hy => hsurvives.numbers y (by simp [QueueJob.numbers, hy]),
    hwhole job.retries (by simp [QueueJob.numbers]),
    hwhole job.maxRetries (by simp [QueueJob.numbers]),
    hwhole job.timeout (by simp [QueueJob.numbers]), hresult, ← hsurvives.progressMessage]
  rfl

end Reads

/-- **The round trip of a job.** -/
theorem hashToJob_jobToHash_iff (job : QueueJob) (h : job.Representable) :
    hashToJob (jobToHash job) = some job ↔ job.Survives :=
  ⟨survives_of_hashToJob h, hashToJob_of_survives h⟩

/-- A running job that reports its progress. -/
def reportJob (progressMessage : Option String) : QueueJob where
  id := "1"
  type := "report"
  queueName := "default"
  data := some (.object [("rows", .array [.number 3, .null]), ("title", .string "\"Q1\"\n")])
  status := .running
  priority := 5
  progress := 40
  progressMessage := progressMessage
  queuedAt := 1700000000000
  startedAt := some 1700000000500
  retries := 0
  maxRetries := 3
  timeout := 30000
  result := some (.number (.ofScaled true 25 (-1)))
  error := some { message := "slow" }

lemma representable_reportJob (progressMessage : Option String) :
    (reportJob progressMessage).Representable where
  data v hv := by
    obtain rfl := Option.some.inj hv
    simp [Json.Valid, Json.ValidMembers, Json.ValidItems]
  result v hv := by
    obtain rfl := Option.some.inj hv
    trivial
  metadata := trivial

theorem hashToJob_jobToHash_iff_report :
    hashToJob (jobToHash (reportJob none)) = some (reportJob none) := by
  refine (hashToJob_jobToHash_iff (reportJob none) (representable_reportJob none)).mpr
    ⟨rfl, fun v hv => ?_, by decide⟩
  obtain rfl := Option.some.inj hv
  decide

theorem not_hashToJob_jobToHash :
    ¬ ∀ job : QueueJob, job.Representable → (∀ x ∈ job.numbers, x.negative = false) →
      hashToJob (jobToHash job) = some job := by
  intro h
  have hjob := representable_reportJob (some "half")
  cases (survives_of_hashToJob hjob (h _ hjob (by decide))).progressMessage

end Blaize.JobHash
