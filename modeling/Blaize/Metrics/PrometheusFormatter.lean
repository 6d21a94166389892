import Mathlib.Data.List.Sort
import Mathlib.Data.Rat.Defs
import Blaize.Lib.OrdMap
import Blaize.Lib.TextFormat

/-!
The Prometheus formatter (`plugins/metrics/src/prometheus-formatter.ts`).

* `Numbers`: the arithmetic of the language and the texts of its numbers;
* `MetricsSnapshot`: what the formatter reads of a snapshot;
* `sanitizeMetricName`, `escapeLabel`, `formatLabels`, `parseLabels`;
* `Line`: a line of the exposition, with its number still a number;
* `exportHttpMetrics`, `exportProcessMetrics`, `exportCustomMetrics`, `exportHistogram`,
  `generateCustomBuckets`;
* `exportPrometheus`: the text.

The order of properties with integer names is left out.
-/

namespace Blaize.Metrics.Prometheus

/-! ### Numbers -/

/-- The bounds in the source, with what `toString` makes of them. -/
def literals : List (ℚ × String) :=
  [(1 / 200, "0.005"), (1 / 100, "0.01"), (1 / 40, "0.025"), (1 / 20, "0.05"), (1 / 10, "0.1"),
    (1 / 4, "0.25"), (1 / 2, "0.5"), (1, "1"), (5 / 2, "2.5"), (5, "5"), (10, "10"), (0, "0"),
    (100, "100")]

/-- The numbers of the language: literals, arithmetic, and texts. -/
structure Numbers (N : Type) where
  lit : ℚ → N
  /-- `x === 0` -/
  isZero : N → Bool
  /-- `x <= y` -/
  le : N → N → Bool
  mul : N → N → N
  div : N → N → N
  floor : N → N
  log10 : N → N
  /-- `Math.pow(10, x)` -/
  pow10 : N → N
  toString : N → String
  toFixed : N → ℕ → String
  toString_lit : ∀ l ∈ literals, toString (lit l.1) = l.2
  newline_toString : ∀ x, '\n' ∉ (toString x).toList
  newline_toFixed : ∀ x digits, '\n' ∉ (toFixed x digits).toList

/-! ### Snapshots -/

/-- What is read of `HistogramStats`. -/
structure HistogramStats (N : Type) where
  count : N
  sum : N
  max : N

/-- The routes and methods come with their counts. -/
structure HttpMetrics (N : Type) where
  totalRequests : N
  activeRequests : N
  requestsPerSecond : N
  statusCodes : OrdMap String N
  latency : HistogramStats N
  byMethod : OrdMap String N
  byRoute : OrdMap String N

/-- The metrics of the process. -/
structure ProcessMetrics (N : Type) where
  heapUsed : N
  heapTotal : N
  external : N
  rss : N
  user : N
  system : N
  uptime : N
  eventLoopLag : N

/-- The metrics that the application has named. -/
structure CustomMetrics (N : Type) where
  counters : OrdMap String N
  gauges : OrdMap String N
  histograms : OrdMap String (HistogramStats N)
  timers : OrdMap String (HistogramStats N)

/-- All that is exported at once. -/
structure MetricsSnapshot (N : Type) where
  http : HttpMetrics N
  process : ProcessMetrics N
  custom : CustomMetrics N

/-! ### Names and labels -/

/-- What `/[^a-zA-Z0-9_:]/g` makes of a character, which may have two code units. -/
def sanitizeChar (c : Char) : List Char :=
  if TextFormat.isNameChar c then [c] else if 0x10000 ≤ c.toNat then ['_', '_'] else ['_']

/-- A name with `_` for what a name may not hold, and in front of what may not come first. -/
def sanitizeMetricName (name : String) : String :=
  let sanitized := name.toList.flatMap sanitizeChar
  if sanitized.head?.any fun c => c.isAlpha || c = '_' || c = ':' then .ofList sanitized
  else .ofList ('_' :: sanitized)

/-- `text.replace(/c/g, replacement)` -/
def replaceAll (c : Char) (replacement text : List Char) : List Char :=
  text.flatMap fun d => if d = c then replacement else [d]

/-- The value of a label with its backslashes, quotes and line ends escaped. -/
def escapeLabel (value : String) : String :=
  .ofList (replaceAll '\n' ['\\', 'n'] (replaceAll '"' ['\\', '"']
    (replaceAll '\\' ['\\', '\\'] value.toList)))

/-- The labels between braces, or nothing. -/
def formatLabels (labels : OrdMap String String) : String :=
  if labels.entries = [] then ""
  else
    let labelPairs := labels.entries.map fun (key, value) =>
      sanitizeMetricName key ++ "=\"" ++ escapeLabel value ++ "\""
    "\x7b" ++ ",".intercalate labelPairs ++ "\x7d"

/-- The group of the leftmost match of `/\{([^}]+)\}/`. -/
def matchBraces : List Char → Option (List Char)
  | [] => none
  | c :: text =>
      let group := text.takeWhile (· ≠ '\x7d')
      if c = '\x7b' ∧ group ≠ [] ∧ group.length < text.length then some group
      else matchBraces text

/-- `labels[key] = value`; `__proto__` is no key of its own. -/
def assign (labels : OrdMap String String) (key value : String) : OrdMap String String :=
  if key = "__proto__" then labels else labels.set key value

/-- The body of the loop of `parseLabels`. -/
def parsePair (labels : OrdMap String String) (pair : List Char) : OrdMap String String :=
  match pair.splitOn '=' with
  | key :: value :: _ =>
      if key ≠ [] ∧ value ≠ [] then assign labels (.ofList key) (.ofList (value.filter (· ≠ '"')))
      else labels
  | _ => labels

/-- The labels of a text that `formatLabels` has made, read back by splitting. -/
def parseLabels (labelStr : String) : OrdMap String String :=
  if labelStr = "" ∨ labelStr = "\x7b\x7d" then ∅
  else
    match matchBraces labelStr.toList with
    | some group => (group.splitOn ',').foldl parsePair ∅
    | none => ∅

/-! ### Lines -/

variable {N : Type} (numbers : Numbers N)

/-- A number with the way in which it is written. -/
inductive Value (N : Type) where
  | plain (number : N)
  | fixed (number : N) (digits : ℕ)

/-- The text of a number. -/
def Value.toString : Value N → String
  | plain number => numbers.toString number
  | fixed number digits => numbers.toFixed number digits

/-- A line of the exposition. -/
inductive Line (N : Type) where
  | help (name text : String)
  | type (name kind : String)
  | sample (name labels : String) (value : Value N)
  | blank

/-- The text of a line. -/
def Line.toString : Line N → String
  | help name text => "# HELP " ++ name ++ " " ++ text
  | type name kind => "# TYPE " ++ name ++ " " ++ kind
  | sample name labels value => name ++ labels ++ " " ++ value.toString numbers
  | blank => ""

/-- A metric with one sample. -/
def exportSingle (name help kind labelStr : String) (value : Value N) : List (Line N) :=
  [.help name help, .type name kind, .sample name labelStr value, .blank]

/-- A metric with a sample for each property, whose name is the value of one more label. -/
def exportLabelled (name help label labelStr : String) (counts : OrdMap String N) :
    List (Line N) :=
  [.help name help, .type name "counter"] ++
    (counts.entries.map fun (key, count) =>
      .sample name (formatLabels ((parseLabels labelStr).set label key)) (.plain count)) ++
    [.blank]

/-! ### Histograms -/

/-- The bounds of durations, in seconds. -/
def STANDARD_BUCKETS : List ℚ :=
  [1 / 200, 1 / 100, 1 / 40, 1 / 20, 1 / 10, 1 / 4, 1 / 2, 1, 5 / 2, 5, 10]

/-- The values of `i` in `for (let i = 0.1; i <= 10; i *= 2.5)`. -/
def multipliers : List ℚ := [1 / 10, 1 / 4, 5 / 8, 25 / 16, 125 / 32, 625 / 64]

/-- `Math.pow(10, Math.floor(Math.log10(max)))` -/
def magnitude (max : N) : N := numbers.pow10 (numbers.floor (numbers.log10 max))

/-- The bounds of a custom histogram, made from its maximum. -/
def generateCustomBuckets (stats : HistogramStats N) : List N :=
  if numbers.isZero stats.max then [0, 1, 10, 100].map numbers.lit
  else
    let bounds := multipliers.map fun i => numbers.mul (magnitude numbers stats.max) (numbers.lit i)
    (bounds.filter fun bucket => numbers.le bucket (numbers.mul stats.max (numbers.lit (6 / 5))))
      |>.mergeSort numbers.le

/-- The estimate for a bucket. -/
def cumulativeCount (count maxValue bucket : N) : N :=
  if numbers.le maxValue bucket then count
  else numbers.floor (numbers.mul (numbers.div bucket maxValue) count)

section

variable {numbers}

lemma cumulativeCount_full {count maxValue bucket : N} (h : numbers.le maxValue bucket = true) :
    cumulativeCount numbers count maxValue bucket = count := if_pos h

lemma cumulativeCount_part {count maxValue bucket : N} (h : numbers.le maxValue bucket = false) :
    cumulativeCount numbers count maxValue bucket =
      numbers.floor (numbers.mul (numbers.div bucket maxValue) count) :=
  if_neg (Bool.eq_false_iff.mp h)

/-- The bounds of a maximum that is not 0 are multiples of its magnitude. -/
lemma exists_of_mem_generateCustomBuckets {stats : HistogramStats N} {bucket : N}
    (h : bucket ∈ generateCustomBuckets numbers stats) (hne : numbers.isZero stats.max = false) :
    ∃ i ∈ multipliers, bucket = numbers.mul (magnitude numbers stats.max) (numbers.lit i) := by
  rw [generateCustomBuckets, hne, if_neg Bool.false_ne_true] at h
  obtain ⟨hmem, -⟩ := List.mem_filter.mp (List.mem_mergeSort.mp h)
  obtain ⟨i, hi, rfl⟩ := List.mem_map.mp hmem
  exact ⟨i, hi, rfl⟩

end

/-- The lines of a histogram: its buckets, its sum and its count. -/
def exportHistogram (name : String) (stats : HistogramStats N) (labelStr : String)
    (convertToSeconds : Bool) : List (Line N) :=
  let baseLabels := parseLabels labelStr
  let buckets :=
    if convertToSeconds then STANDARD_BUCKETS.map numbers.lit
    else generateCustomBuckets numbers stats
  let seconds (x : N) := if convertToSeconds then numbers.div x (numbers.lit 1000) else x
  (buckets.map fun bucket =>
    .sample (name ++ "_bucket") (formatLabels (baseLabels.set "le" (numbers.toString bucket)))
      (.plain (cumulativeCount numbers stats.count (seconds stats.max) bucket))) ++
    [.sample (name ++ "_bucket") (formatLabels (baseLabels.set "le" "+Inf")) (.plain stats.count),
      .sample (name ++ "_sum") labelStr (.fixed (seconds stats.sum) 6),
      .sample (name ++ "_count") labelStr (.plain stats.count)]

/-- A metric that is a histogram. -/
def exportHistogramMetric (name help labelStr : String) (stats : HistogramStats N)
    (convertToSeconds : Bool) : List (Line N) :=
  [.help name help, .type name "histogram"] ++
    exportHistogram numbers name stats labelStr convertToSeconds ++ [.blank]

/-! ### Metrics -/

/-- The metrics of the requests. -/
def exportHttpMetrics (snapshot : MetricsSnapshot N) (labelStr : String) : List (Line N) :=
  let http := snapshot.http
  exportSingle "http_requests_total" "Total number of HTTP requests processed" "counter" labelStr
      (.plain http.totalRequests) ++
    exportSingle "http_requests_active" "Number of HTTP requests currently being processed"
      "gauge" labelStr (.plain http.activeRequests) ++
    exportSingle "http_requests_per_second" "Average HTTP requests per second" "gauge" labelStr
      (.fixed http.requestsPerSecond 3) ++
    exportLabelled "http_requests_by_status_total" "HTTP requests by status code" "status" labelStr
      http.statusCodes ++
    exportHistogramMetric numbers "http_request_duration_seconds"
      "HTTP request latency in seconds" labelStr http.latency true ++
    exportLabelled "http_requests_by_method_total" "HTTP requests by method" "method" labelStr
      http.byMethod ++
    exportLabelled "http_requests_by_route_total" "HTTP requests by route" "route" labelStr
      http.byRoute

/-- The metrics of the process. -/
def exportProcessMetrics (snapshot : MetricsSnapshot N) (labelStr : String) : List (Line N) :=
  let process := snapshot.process
  let divided (x : N) (n : ℚ) := Value.fixed (numbers.div x (numbers.lit n)) 6
  exportSingle "process_memory_heap_used_bytes" "Process heap memory used in bytes" "gauge"
      labelStr (.plain process.heapUsed) ++
    exportSingle "process_memory_heap_total_bytes" "Process heap memory total in bytes" "gauge"
      labelStr (.plain process.heapTotal) ++
    exportSingle "process_memory_external_bytes" "Process external memory in bytes" "gauge"
      labelStr (.plain process.external) ++
    exportSingle "process_memory_rss_bytes" "Process resident set size in bytes" "gauge" labelStr
      (.plain process.rss) ++
    exportSingle "process_cpu_user_seconds_total" "Total user CPU time in seconds" "counter"
      labelStr (divided process.user 1000000) ++
    exportSingle "process_cpu_system_seconds_total" "Total system CPU time in seconds" "counter"
      labelStr (divided process.system 1000000) ++
    exportSingle "process_uptime_seconds" "Process uptime in seconds" "gauge" labelStr
      (.fixed process.uptime 3) ++
    exportSingle "process_event_loop_lag_seconds" "Event loop lag in seconds" "gauge" labelStr
      (divided process.eventLoopLag 1000)

/-- The metrics of the application. -/
def exportCustomMetrics (snapshot : MetricsSnapshot N) (labelStr : String) : List (Line N) :=
  let custom := snapshot.custom
  (custom.counters.entries.flatMap fun (name, value) =>
      exportSingle (sanitizeMetricName name) "Custom counter metric" "counter" labelStr
        (.plain value)) ++
    (custom.gauges.entries.flatMap fun (name, value) =>
      exportSingle (sanitizeMetricName name) "Custom gauge metric" "gauge" labelStr
        (.plain value)) ++
    (custom.histograms.entries.flatMap fun (name, stats) =>
      exportHistogramMetric numbers (sanitizeMetricName name) "Custom histogram metric" labelStr
        stats false) ++
    custom.timers.entries.flatMap fun (name, stats) =>
      exportHistogramMetric numbers (sanitizeMetricName name ++ "_seconds")
        "Custom timer metric in seconds" labelStr stats true

/-- All lines. -/
def exportLines (snapshot : MetricsSnapshot N) (labels : OrdMap String String) : List (Line N) :=
  let labelStr := formatLabels labels
  exportHttpMetrics numbers snapshot labelStr ++ exportProcessMetrics numbers snapshot labelStr ++
    exportCustomMetrics numbers snapshot labelStr

/-- The text that is exported. -/
def exportPrometheus (snapshot : MetricsSnapshot N) (labels : OrdMap String String) : String :=
  "\n".intercalate ((exportLines numbers snapshot labels).map (Line.toString numbers)) ++ "\n"

end Blaize.Metrics.Prometheus
