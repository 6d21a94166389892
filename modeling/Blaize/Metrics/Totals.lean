import Mathlib.Data.List.DropRight
import Blaize.Metrics.HttpTracker

/-!
The totals of the HTTP request tracker, over whole runs.

* `TrackerCall`, `HttpRequestTracker.calls`: the calls of a run, and what they make of a tracker;
* `recorded`: the durations that a run has recorded since its last reset;
* `pushSample_rtake`: a window of the last samples stays one;
* `Balanced.call`: the step; `totals_balance`: **after every run the totals balance, and the
  window has the last durations**.
-/

namespace Blaize.Metrics

/-! ### Runs -/

/-- The calls of the tracker. -/
inductive TrackerCall where
  | startRequest
  | recordRequest (method path : String) (statusCode : ℕ) (duration : ℚ)
  | reset (now : ℤ)

namespace TrackerCall

/-- Whether a call is a reset. -/
def isReset : TrackerCall → Bool
  | reset _ => true
  | _ => false

/-- The duration that a call records. -/
def duration : TrackerCall → Option ℚ
  | recordRequest _ _ _ duration => some duration
  | _ => none

end TrackerCall

namespace HttpRequestTracker

variable (histogramLimit : ℕ) (s : HttpRequestTracker)

/-- What a call does. -/
def call : TrackerCall → HttpRequestTracker
  | .startRequest => s.startRequest
  | .recordRequest method path statusCode duration =>
      s.recordRequest histogramLimit method path statusCode duration
  | .reset now => reset now

/-- One call after the other. -/
def calls (calls : List TrackerCall) : HttpRequestTracker := calls.foldl (call histogramLimit) s

end HttpRequestTracker

/-- What the calls have recorded after the last one that resets. -/
def recorded (calls : List TrackerCall) : List ℚ :=
  (calls.rtakeWhile fun call => !call.isReset).filterMap TrackerCall.duration

lemma recorded_concat (calls : List TrackerCall) (call : TrackerCall) :
    recorded (calls ++ [call]) =
      if call.isReset then [] else recorded calls ++ call.duration.toList := by
  rw [recorded, List.rtakeWhile_concat]
  cases call with
  | startRequest => simp [TrackerCall.isReset, TrackerCall.duration, recorded]
  | recordRequest => simp [TrackerCall.isReset, TrackerCall.duration, recorded]
  | reset => rfl

/-! ### One call -/

/-- The window of the last samples stays the window of the last samples. -/
lemma pushSample_rtake (limit : ℕ) (samples : List ℚ) (value : ℚ) :
    pushSample limit (samples.rtake limit) value = (samples ++ [value]).rtake limit := by
  have hlength : (samples.rtake limit).length = min limit samples.length := by
    rw [List.rtake, List.length_drop]
    omega
  rw [pushSample, List.length_append, hlength, List.length_singleton]
  rcases Nat.lt_or_ge samples.length limit with hroom | hfull
  · rw [if_neg (by omega)]
    simp only [List.rtake, List.length_append, List.length_singleton]
    rw [Nat.sub_eq_zero_of_le hroom.le, Nat.sub_eq_zero_of_le hroom]
    rfl
  · -- The first sample of a full window goes.
    rw [if_pos (by omega), ← List.drop_one]
    simp only [List.rtake, List.length_append, List.length_singleton]
    rw [← List.drop_append_of_le_length (Nat.sub_le _ _), List.drop_drop]
    congr 1
    omega

/-- One more request of a method or a route. -/
lemma sum_updateMethodRouteStats (stats : OrdMap String MethodRouteStats) (key : String)
    (duration : ℚ) :
    (updateMethodRouteStats stats key duration).sum MethodRouteStats.count =
      stats.sum MethodRouteStats.count + 1 := by
  rw [updateMethodRouteStats]
  split
  next old hget =>
    have hset := stats.sum_set MethodRouteStats.count key
      ⟨old.count + 1, old.totalDuration + duration⟩
    rw [hget, Option.elim_some] at hset
    exact Nat.add_right_cancel (hset.trans (Nat.add_right_comm _ old.count 1))
  next hget =>
    have hset := stats.sum_set MethodRouteStats.count key ⟨1, duration⟩
    rwa [hget, Option.elim_none, Nat.add_zero] at hset

/-- The five pieces of a tracker agree on what was recorded. -/
structure Balanced (limit : ℕ) (samples : List ℚ) (s : HttpRequestTracker) : Prop where
  total : s.totalRequests = samples.length
  statusCodes : s.statusCodes.sum id = s.totalRequests
  methods : s.methodStats.sum MethodRouteStats.count = s.totalRequests
  routes : s.routeStats.sum MethodRouteStats.count = s.totalRequests
  durations : s.durations = samples.rtake limit

lemma balanced_reset (limit : ℕ) (now : ℤ) : Balanced limit [] (HttpRequestTracker.reset now) :=
  ⟨rfl, rfl, rfl, rfl, (List.rtake_nil limit).symm⟩

lemma Balanced.recordRequest {limit : ℕ} {samples : List ℚ} {s : HttpRequestTracker}
    (h : Balanced limit samples s) (method path : String) (statusCode : ℕ) (duration : ℚ) :
    Balanced limit (samples ++ [duration])
      (s.recordRequest limit method path statusCode duration) where
  total := by
    rw [List.length_append, List.length_singleton, ← h.total]
    rfl
  statusCodes := by
    have hset := s.statusCodes.sum_set id (toString statusCode)
      ((s.statusCodes.get (toString statusCode)).getD 0 + 1)
    have hold : (s.statusCodes.get (toString statusCode)).elim 0 id =
        (s.statusCodes.get (toString statusCode)).getD 0 := by
      cases s.statusCodes.get (toString statusCode) <;> rfl
    rw [hold, h.statusCodes, id_eq] at hset
    refine Nat.add_right_cancel (m := (s.statusCodes.get (toString statusCode)).getD 0) ?_
    refine hset.trans ?_
    simp only [HttpRequestTracker.recordRequest]
    omega
  methods := (sum_updateMethodRouteStats _ _ _).trans (congrArg (· + 1) h.methods)
  routes := (sum_updateMethodRouteStats _ _ _).trans (congrArg (· + 1) h.routes)
  durations := by
    rw [← pushSample_rtake, ← h.durations]
    rfl

/-- What a call makes of a tracker whose totals balance. -/
lemma Balanced.call {limit : ℕ} {calls : List TrackerCall} {s : HttpRequestTracker}
    (h : Balanced limit (recorded calls) s) (call : TrackerCall) :
    Balanced limit (recorded (calls ++ [call])) (s.call limit call) := by
  rw [recorded_concat]
  cases call with
  | startRequest =>
      have hsame : recorded calls ++ TrackerCall.startRequest.duration.toList = recorded calls :=
        List.append_nil _
      have hkeep : ¬ TrackerCall.startRequest.isReset = true := Bool.false_ne_true
      rw [if_neg hkeep, hsame]
      exact ⟨h.total, h.statusCodes, h.methods, h.routes, h.durations⟩
  | recordRequest method path statusCode duration =>
      exact h.recordRequest method path statusCode duration
  | reset now => exact balanced_reset limit now

/-! ### Runs of calls -/

lemma balanced_calls (limit : ℕ) (now : ℤ) (calls : List TrackerCall) :
    Balanced limit (recorded calls)
      (({ startTime := now } : HttpRequestTracker).calls limit calls) := by
  induction calls using List.reverseRecOn with
  | nil => exact balanced_reset limit now
  | append_singleton calls call ih =>
      rw [HttpRequestTracker.calls, List.foldl_append]
      exact ih.call call

/-- **After every run of calls the totals are the same, and the window has the last durations,
in order, as many as there are and as the limit lets in.** -/
theorem totals_balance (limit : ℕ) (now : ℤ) (calls : List TrackerCall) :
    let s := ({ startTime := now } : HttpRequestTracker).calls limit calls
    s.totalRequests = (recorded calls).length ∧
      s.totalRequests = (s.statusCodes.values).sum ∧
      s.totalRequests = (s.methodStats.values.map MethodRouteStats.count).sum ∧
      s.totalRequests = (s.routeStats.values.map MethodRouteStats.count).sum ∧
      s.durations = (recorded calls).rtake (min s.totalRequests limit) := by
  intro s
  have h : Balanced limit (recorded calls) s := balanced_calls limit now calls
  refine ⟨h.total, h.statusCodes.symm, ?_, ?_, ?_⟩
  · rw [← h.methods, OrdMap.sum, OrdMap.values, List.map_map]
    rfl
  · rw [← h.routes, OrdMap.sum, OrdMap.values, List.map_map]
    rfl
  · rw [h.durations, h.total, List.rtake, List.rtake]
    congr 1
    omega

end Blaize.Metrics
