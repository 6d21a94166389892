import Blaize.Lib.Machine
import Blaize.Metrics.HttpTracker

/-!
The metrics collector (`plugins/metrics/src/collector.ts`).

Sums are rounded as a parameter says, and are exact without it.  What is logged is left out, and
with it the set of warnings that were given.

* `canAddMetric`: the admission of a name; it throws with `onCardinalityLimit: 'error'`;
* `increment`, `gauge`, `histogram`, `startTimer`, `stopTimer`, `reset`: the methods;
* `getCustomMetrics`: the custom metrics of a snapshot;
* `stepWith`, `step`: the calls in any order, with any number of timers between start and stop.
-/

namespace Blaize.Metrics

/-! ### Data -/

/-- What happens to a new name at the limit. -/
inductive OnCardinalityLimit where
  | drop
  | warn
  | error
  deriving DecidableEq, Repr

/-- A window of samples. -/
structure HistogramData where
  samples : List ℚ
  limit : ℕ
  deriving DecidableEq

/-- A sample goes into its window. -/
def HistogramData.push (h : HistogramData) (value : ℚ) : HistogramData :=
  { h with samples := pushSample h.limit h.samples value }

/-- The constructor of the HTTP tracker refuses a limit of 0. -/
structure MetricsOptions where
  histogramLimit : ℕ := 1000
  histogramLimit_pos : 0 < histogramLimit := by decide
  maxCardinality : ℕ := 10000
  onCardinalityLimit : OnCardinalityLimit := .drop

/-- A timer that was admitted, with the time of its start. -/
structure StartedTimer where
  name : String
  start : ℤ
  deriving DecidableEq

/-- The metrics of the application in a snapshot. -/
structure CustomMetrics where
  counters : OrdMap String ℚ
  gauges : OrdMap String ℚ
  histograms : OrdMap String HistogramStats
  timers : OrdMap String HistogramStats

/-- The state of the collector. -/
structure MetricsCollector where
  httpTracker : HttpRequestTracker := {}
  counters : OrdMap String ℚ := ∅
  gauges : OrdMap String ℚ := ∅
  histograms : OrdMap String HistogramData := ∅
  timers : OrdMap String HistogramData := ∅
  /-- The functions that `startTimer` has returned; `none` is the one that does nothing. -/
  stops : List (Option StartedTimer) := []

namespace MetricsCollector

variable (options : MetricsOptions) (s : MetricsCollector)

/-! ### Admission -/

/-- How many names there are. -/
def getCardinality : ℕ := s.counters.size + s.gauges.size + s.histograms.size + s.timers.size

/-- Whether a name is that of any metric. -/
def hasMetric (metricName : String) : Bool :=
  s.counters.has metricName || s.gauges.has metricName || s.histograms.has metricName ||
    s.timers.has metricName

/-- Whether a name is admitted: a known one always is. -/
def canAddMetric (metricName metricType : String) : Except String Bool :=
  if s.hasMetric metricName then .ok true
  else if options.maxCardinality ≤ s.getCardinality then
    match options.onCardinalityLimit with
    | .error =>
        .error ("Metric cardinality limit reached (" ++ toString options.maxCardinality ++
          "). Dropping new " ++ metricType ++ ": \"" ++ metricName ++ "\"")
    | .warn => .ok false
    | .drop => .ok false
  else .ok true

/-! ### The methods -/

/-- `metrics.increment(name, value)` -/
def increment (name : String) (value : ℚ := 1) (round : ℚ → ℚ := id) :
    Except String MetricsCollector := do
  if ← s.canAddMetric options name "counter" then
    let current := (s.counters.get name).getD 0
    return { s with counters := s.counters.set name (round (current + value)) }
  else return s

/-- `metrics.gauge(name, value)` -/
def gauge (name : String) (value : ℚ) : Except String MetricsCollector := do
  if ← s.canAddMetric options name "gauge" then
    return { s with gauges := s.gauges.set name value }
  else return s

/-- Adds a sample under a name; the first one makes the entry. -/
def record (data : OrdMap String HistogramData) (name : String) (value : ℚ) :
    OrdMap String HistogramData :=
  let entry := (data.get name).getD { samples := [], limit := options.histogramLimit }
  data.set name (entry.push value)

/-- `metrics.histogram(name, value)` -/
def histogram (name : String) (value : ℚ) : Except String MetricsCollector := do
  if ← s.canAddMetric options name "histogram" then
    return { s with histograms := record options s.histograms name value }
  else return s

/-- `metrics.startTimer(name)`; the function that it returns is put into a list. -/
def startTimer (name : String) (now : ℤ) : Except String MetricsCollector := do
  if ← s.canAddMetric options name "timer" then
    return { s with stops := s.stops ++ [some ⟨name, now⟩] }
  else return { s with stops := s.stops ++ [none] }

/-- A call of a function that `startTimer` has returned. -/
def stopTimer (stop : Option StartedTimer) (now : ℤ) : MetricsCollector :=
  match stop with
  | none => s
  | some timer =>
      { s with timers := record options s.timers timer.name ((now - timer.start : ℤ) : ℚ) }

/-- `metrics.startHttpRequest()` -/
def startHttpRequest : MetricsCollector := { s with httpTracker := s.httpTracker.startRequest }

/-- `metrics.recordHttpRequest(...)` -/
def recordHttpRequest (method path : String) (statusCode : ℕ) (duration : ℚ) : MetricsCollector :=
  { s with
    httpTracker :=
      s.httpTracker.recordRequest options.histogramLimit method path statusCode duration }

/-- The stop functions that are outside stay as they are. -/
def reset (now : ℤ) : MetricsCollector :=
  { httpTracker := HttpRequestTracker.reset now, stops := s.stops }

/-- The statistics of all windows. -/
def getHistogramMetrics (histograms : OrdMap String HistogramData) (round : ℚ → ℚ := id) :
    OrdMap String HistogramStats :=
  assignAll (fun data => calculateHistogramStats data.samples round) histograms.entries

/-- The metrics of the application. -/
def getCustomMetrics (round : ℚ → ℚ := id) : CustomMetrics where
  counters := s.counters
  gauges := s.gauges
  histograms := getHistogramMetrics s.histograms round
  timers := getHistogramMetrics s.timers round

/-! ### Runs -/

end MetricsCollector

/-- A call of a method; a stop function goes by its number and may be called again. -/
inductive Call where
  | increment (name : String) (value : ℚ)
  | gauge (name : String) (value : ℚ)
  | histogram (name : String) (value : ℚ)
  | startTimer (name : String) (now : ℤ)
  | stopTimer (number : ℕ) (now : ℤ)
  | startHttpRequest
  | recordHttpRequest (method path : String) (statusCode : ℕ) (duration : ℚ)
  | reset (now : ℤ)
  deriving DecidableEq

namespace MetricsCollector

variable (options : MetricsOptions)

/-- A method that throws leaves the collector as it is. -/
def settled (s : MetricsCollector) (result : Except String MetricsCollector) : MetricsCollector :=
  match result with
  | .ok s' => s'
  | .error _ => s

/-- What a call does with rounded sums; `none`: there is no such function. -/
def stepWith (round : ℚ → ℚ) (s : MetricsCollector) : Call → Option MetricsCollector
  | .increment name value => some (s.settled (s.increment options name value round))
  | .gauge name value => some (s.settled (s.gauge options name value))
  | .histogram name value => some (s.settled (s.histogram options name value))
  | .startTimer name now => some (s.settled (s.startTimer options name now))
  | .stopTimer number now => (s.stops[number]?).map fun stop => s.stopTimer options stop now
  | .startHttpRequest => some s.startHttpRequest
  | .recordHttpRequest method path statusCode duration =>
      some (s.recordHttpRequest options method path statusCode duration)
  | .reset now => some (s.reset now)

/-- What a call does with exact sums. -/
def step (s : MetricsCollector) : Call → Option MetricsCollector := stepWith options id s

end MetricsCollector

end Blaize.Metrics
