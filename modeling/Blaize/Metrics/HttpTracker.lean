import Mathlib.Data.List.Sort
import Mathlib.Data.Rat.Floor
import Blaize.Lib.OrdMap

/-!
The HTTP request tracker (`plugins/metrics/src/http-tracker.ts`).

Sums are rounded as a parameter says, and are exact without it.  Means, percentiles and rates are
exact.

* `HistogramStats`, `calculateHistogramStats`: the statistics of a window of samples, here and in
  the collector;
* `pushSample`: a sample goes into its window, and the oldest one out of a full window;
* `recordRequest`, `getMetrics`: a request, and the metrics of all.
-/

namespace Blaize.Metrics

/-! ### Windows -/

/-- The statistics of a window; without samples all are 0. -/
structure HistogramStats where
  count : ℕ := 0
  sum : ℚ := 0
  min : ℚ := 0
  max : ℚ := 0
  mean : ℚ := 0
  p50 : ℚ := 0
  p95 : ℚ := 0
  p99 : ℚ := 0
  deriving DecidableEq

/-- The percentile between two samples is interpolated. -/
def calculatePercentile (sorted : List ℚ) (percentile : ℚ) : ℚ :=
  match sorted with
  | [] => 0
  | [sample] => sample
  | sorted =>
      let index : ℚ := (sorted.length - 1) * percentile
      let lower := index.floor.toNat
      let upper := index.ceil.toNat
      let weight := index - lower
      if lower = upper then sorted.getD lower 0
      else sorted.getD lower 0 * (1 - weight) + sorted.getD upper 0 * weight

/-- The statistics of a window, made from its sorted samples. -/
def calculateHistogramStats (samples : List ℚ) (round : ℚ → ℚ := id) : HistogramStats :=
  match samples with
  | [] => {}
  | samples =>
      let sorted := samples.mergeSort fun a b => a ≤ b
      let count := sorted.length
      let sum := sorted.foldl (fun sum sample => round (sum + sample)) 0
      { count
        sum
        min := sorted.getD 0 0
        max := sorted.getD (count - 1) 0
        mean := sum / count
        p50 := calculatePercentile sorted (1 / 2)
        p95 := calculatePercentile sorted (19 / 20)
        p99 := calculatePercentile sorted (99 / 100) }

/-- A new sample goes last; the first one goes when there are more than `limit`. -/
def pushSample (limit : ℕ) (samples : List ℚ) (value : ℚ) : List ℚ :=
  let samples := samples ++ [value]
  if limit < samples.length then samples.tail else samples

/-! ### The tracker -/

/-- What is kept of a method or a route. -/
structure MethodRouteStats where
  count : ℕ
  totalDuration : ℚ
  deriving DecidableEq

/-- What is told of a method or a route. -/
structure RouteMetrics where
  count : ℕ
  avgLatency : ℚ
  deriving DecidableEq

/-- The metrics of all requests. -/
structure HttpMetrics where
  totalRequests : ℕ
  activeRequests : ℕ
  requestsPerSecond : ℚ
  statusCodes : OrdMap String ℕ
  latency : HistogramStats
  byMethod : OrdMap String RouteMetrics
  byRoute : OrdMap String RouteMetrics

/-- The fields of the tracker. -/
structure HttpRequestTracker where
  totalRequests : ℕ := 0
  activeRequests : ℕ := 0
  statusCodes : OrdMap String ℕ := ∅
  durations : List ℚ := []
  methodStats : OrdMap String MethodRouteStats := ∅
  routeStats : OrdMap String MethodRouteStats := ∅
  /-- In milliseconds, as `Date.now()`. -/
  startTime : ℤ := 0

/-- The statistics of a method or a route with one more request. -/
def updateMethodRouteStats (statsMap : OrdMap String MethodRouteStats) (key : String)
    (duration : ℚ) : OrdMap String MethodRouteStats :=
  match statsMap.get key with
  | some stats => statsMap.set key ⟨stats.count + 1, stats.totalDuration + duration⟩
  | none => statsMap.set key ⟨1, duration⟩

/-- What is assigned to a plain object key by key; `__proto__` is no key of its own. -/
def assignAll {α β : Type} (f : α → β) (entries : List (String × α)) : OrdMap String β :=
  entries.foldl (fun result p => if p.1 = "__proto__" then result else result.set p.1 (f p.2)) ∅

/-- The metrics of the methods or of the routes. -/
def getMethodRouteMetrics (statsMap : OrdMap String MethodRouteStats) :
    OrdMap String RouteMetrics :=
  assignAll (fun stats => ⟨stats.count, stats.totalDuration / stats.count⟩) statsMap.entries

namespace HttpRequestTracker

variable (histogramLimit : ℕ) (s : HttpRequestTracker)

/-- `tracker.startRequest()` -/
def startRequest : HttpRequestTracker := { s with activeRequests := s.activeRequests + 1 }

/-- `tracker.recordRequest(method, path, statusCode, duration)` -/
def recordRequest (method path : String) (statusCode : ℕ) (duration : ℚ) : HttpRequestTracker :=
  let statusKey := toString statusCode
  { s with
    activeRequests := s.activeRequests - 1
    totalRequests := s.totalRequests + 1
    statusCodes := s.statusCodes.set statusKey ((s.statusCodes.get statusKey).getD 0 + 1)
    durations := pushSample histogramLimit s.durations duration
    methodStats := updateMethodRouteStats s.methodStats method duration
    routeStats := updateMethodRouteStats s.routeStats path duration }

/-- `tracker.getMetrics()` -/
def getMetrics (now : ℤ) (round : ℚ → ℚ := id) : HttpMetrics :=
  let elapsedSeconds : ℚ := ((now - s.startTime : ℤ) : ℚ) / 1000
  { totalRequests := s.totalRequests
    activeRequests := s.activeRequests
    requestsPerSecond := if 0 < elapsedSeconds then s.totalRequests / elapsedSeconds else 0
    statusCodes := s.statusCodes
    latency := calculateHistogramStats s.durations round
    byMethod := getMethodRouteMetrics s.methodStats
    byRoute := getMethodRouteMetrics s.routeStats }

/-- `tracker.reset()` -/
def reset (now : ℤ) : HttpRequestTracker := { startTime := now }

end HttpRequestTracker

end Blaize.Metrics
