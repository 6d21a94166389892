import Blaize.Metrics.Collector
import Blaize.Metrics.Cardinality
import Blaize.Metrics.WellFormed
import Blaize.Metrics.Windows

/-!
Whether what is exported as a counter or as a part of a histogram ever falls.

Counts, sums and buckets of histograms are made anew from a window of samples for each export, in
doubles.

* `getSnapshot`: what the formatter reads of a collector;
* `NotBelow`: of two snapshots, no such sample of the later one is below that of the earlier one;
* `Recording`, `Orderly`: the recordings, and the condition on the windows;
* `Since`: a collector after some recordings; `step_since`, `exec_since`;
* `notBelow_of_since`: what is exported of it;
* `notBelow_of_orderly`: **no exported sample falls in a run whose recordings are orderly**.
-/

namespace Blaize.Metrics

open Machine Js
open Prometheus (doubles families Family Sample Value MathFunctions)

/-! ### Snapshots -/

/-- The statistics that are exported. -/
def HistogramStats.exported (stats : HistogramStats) : Prometheus.HistogramStats ℚ :=
  ⟨stats.count, stats.sum, stats.max⟩

/-- What the formatter reads of the snapshot; the process metrics come from the system. -/
def MetricsCollector.getSnapshot (s : MetricsCollector) (process : Prometheus.ProcessMetrics ℚ)
    (now : ℤ) : Prometheus.MetricsSnapshot ℚ :=
  let http := s.httpTracker.getMetrics now nearest
  let custom := s.getCustomMetrics nearest
  { http :=
      { totalRequests := http.totalRequests
        activeRequests := http.activeRequests
        requestsPerSecond := http.requestsPerSecond
        statusCodes := http.statusCodes.mapValues (↑)
        latency := http.latency.exported
        byMethod := http.byMethod.mapValues fun metrics => (metrics.count : ℚ)
        byRoute := http.byRoute.mapValues fun metrics => (metrics.count : ℚ) }
    process
    custom :=
      { counters := custom.counters
        gauges := custom.gauges
        histograms := custom.histograms.mapValues HistogramStats.exported
        timers := custom.timers.mapValues HistogramStats.exported } }

/-! ### What is claimed of two exports -/

variable (math : MathFunctions)

/-- The number that is written for a sample. -/
def number (s : Sample ℚ) : ℚ := textValue (s.value.toString (doubles math))

/-- The samples of a family that are also in a later one are there not below. -/
def FamilyNotBelow (family family' : Family ℚ) : Prop :=
  ∀ s ∈ family.samples, ∀ s' ∈ family'.samples, s'.name = s.name → s'.own = s.own →
    number math s ≤ number math s'

/-- Of the samples of counters and histograms, those that are also in a later export are there
not below. -/
def NotBelow (earlier later : Prometheus.MetricsSnapshot ℚ) : Prop :=
  ∀ family ∈ families (doubles math) earlier, family.kind = "counter" ∨ family.kind = "histogram" →
    ∀ family' ∈ families (doubles math) later, family'.name = family.name →
      FamilyNotBelow math family family'

/-! ### Families -/

variable {math}

/-- The written numbers keep the order. -/
lemma textValue_plain_mono {x y : ℚ} (h : nearest x ≤ nearest y) :
    textValue ((Value.plain x).toString (doubles math)) ≤
      textValue ((Value.plain y).toString (doubles math)) := textValue_mono h

lemma familyNotBelow_single (name help kind : String) {value value' : Value ℚ}
    (h : textValue (value.toString (doubles math)) ≤ textValue (value'.toString (doubles math))) :
    FamilyNotBelow math (Prometheus.single name help kind value)
      (Prometheus.single name help kind value') := by
  intro s hs s' hs' _ _
  rw [List.mem_singleton.mp hs, List.mem_singleton.mp hs']
  exact h

lemma familyNotBelow_labelled (name help label : String) {counts counts' : OrdMap String ℚ}
    (h : counts.Grown (· ≤ ·) counts') :
    FamilyNotBelow math (Prometheus.labelled name help label counts)
      (Prometheus.labelled name help label counts') := by
  intro s hs s' hs' _ hown
  obtain ⟨⟨key, count⟩, hmem, rfl⟩ := List.mem_map.mp hs
  obtain ⟨⟨key', count'⟩, hmem', rfl⟩ := List.mem_map.mp hs'
  obtain rfl : key' = key := (Prod.mk.inj (Option.some.inj hown)).2
  obtain ⟨later, hlater, hle⟩ := h key' count ((counts.mem_entries_iff).mp hmem)
  obtain rfl : later = count' :=
    Option.some.inj (hlater.symm.trans ((counts'.mem_entries_iff).mp hmem'))
  exact textValue_plain_mono (nearest_le_nearest hle)

/-- The text of a number is not that of the last bound. -/
lemma doubleText_ne_inf (x : ℚ) : doubleText x ≠ "+Inf" := by
  intro h
  have hletter := notMem_doubleText x (c := 'I') (by decide) (by decide)
  rw [h] at hletter
  exact hletter (by decide)

/-- The statistics of a window, as the formatter reads them. -/
def windowStats (samples : List ℚ) : Prometheus.HistogramStats ℚ :=
  ⟨(samples.length : ℚ), sortedSum samples, highest samples⟩

lemma exported_calculateHistogramStats {samples : List ℚ} (h : ∀ x ∈ samples, 0 ≤ x) :
    (calculateHistogramStats samples nearest).exported = windowStats samples := by
  obtain ⟨hcount, hsum, hmax⟩ := calculateHistogramStats_eq h
  rw [HistogramStats.exported, hcount, hsum, hmax]
  rfl

/-- The bounds are doubles. -/
lemma isDouble_of_mem_bounds {stats : Prometheus.HistogramStats ℚ} {convertToSeconds : Bool}
    {bucket : ℚ} (h : bucket ∈ Prometheus.bounds (doubles math) stats convertToSeconds) :
    IsDouble bucket := by
  cases convertToSeconds with
  | true =>
      obtain ⟨b, -, rfl⟩ := List.mem_map.mp h
      exact isDouble_nearest b
  | false =>
      by_cases hzero : stats.max = 0
      · have hempty : (doubles math).isZero stats.max = true := decide_eq_true hzero
        change bucket ∈ Prometheus.generateCustomBuckets (doubles math) stats at h
        rw [Prometheus.generateCustomBuckets, if_pos hempty] at h
        obtain ⟨b, -, rfl⟩ := List.mem_map.mp h
        exact isDouble_nearest b
      · obtain ⟨i, -, rfl⟩ :=
          Prometheus.exists_of_mem_generateCustomBuckets h (decide_eq_false hzero)
        exact isDouble_nearest _

/-- The count of a bucket that both windows have. -/
lemma bucketCount_le_of_ahead (hmath : math.Sound) {convertToSeconds : Bool}
    {samples samples' : List ℚ} (hne : convertToSeconds = false → samples ≠ [])
    (hfinite : ∀ x ∈ samples', x ≤ greatest)
    (h : Ahead math convertToSeconds samples samples') {bucket : ℚ}
    (hb : bucket ∈ Prometheus.bounds (doubles math) (windowStats samples) convertToSeconds)
    (hb' : bucket ∈ Prometheus.bounds (doubles math) (windowStats samples') convertToSeconds) :
    nearest (bucketCount math convertToSeconds samples bucket) ≤
      nearest (bucketCount math convertToSeconds samples' bucket) := by
  refine h.buckets bucket ?_
  cases convertToSeconds with
  | true =>
      have hleast : ∀ bucket ∈ Prometheus.STANDARD_BUCKETS, 1 / 200 ≤ bucket := by decide +kernel
      obtain ⟨b, hmem, rfl⟩ := List.mem_map.mp hb
      exact nearest_le_nearest (hleast b hmem)
  | false =>
      have hgreatest : (windowStats samples').max ≤ greatest :=
        highest_le (by decide +kernel) hfinite
      exact inScope_of_mem_generateCustomBuckets hmath hgreatest h.max (h.least rfl (hne rfl)) hb
        hb'

lemma familyNotBelow_histogram (hmath : math.Sound) (name help : String) {convertToSeconds : Bool}
    {samples samples' : List ℚ} (hne : convertToSeconds = false → samples ≠ [])
    (hfinite : ∀ x ∈ samples', x ≤ greatest) (h : Ahead math convertToSeconds samples samples') :
    FamilyNotBelow math
      (Prometheus.histogram (doubles math) name help (windowStats samples) convertToSeconds)
      (Prometheus.histogram (doubles math) name help (windowStats samples') convertToSeconds) := by
  have hpart {part part' : String} (hp : part ∈ Prometheus.parts) (hp' : part' ∈ Prometheus.parts)
      (heq : name ++ part' = name ++ part) : part' = part :=
    (Prometheus.append_part_inj hp' hp heq).2
  have hcount : textValue (doubleText samples.length) ≤ textValue (doubleText samples'.length) :=
    textValue_mono (nearest_le_nearest (by exact_mod_cast h.count))
  have hinf (x : ℚ) : some ("le", (doubles math).toString x) ≠ some ("le", "+Inf") := by
    intro heq
    exact doubleText_ne_inf x (Prod.mk.inj (Option.some.inj heq)).2
  intro s hs s' hs' hname hown
  simp only [Prometheus.histogram, Prometheus.histogramSamples, List.mem_append, List.mem_map,
    List.mem_cons, List.not_mem_nil, or_false] at hs hs'
  rcases hs with ⟨bucket, hb, rfl⟩ | rfl | rfl | rfl <;>
    rcases hs' with ⟨bucket', hb', rfl⟩ | rfl | rfl | rfl
  · -- Two bounds with one text are one number.
    have htext : doubleText bucket' = doubleText bucket :=
      (Prod.mk.inj (Option.some.inj hown)).2
    obtain rfl : bucket' = bucket := by
      have hread := nearest_of_doubleText htext
      rwa [isDouble_of_mem_bounds hb, isDouble_of_mem_bounds hb'] at hread
    exact textValue_mono (bucketCount_le_of_ahead hmath hne hfinite h hb hb')
  · exact absurd hown.symm (hinf _)
  · cases hown
  · cases hown
  · exact absurd hown (hinf _)
  · exact hcount
  · cases hown
  · cases hown
  · cases hown
  · cases hown
  · exact Prometheus.textValue_toFixed_mono (seconds_mono convertToSeconds h.sum) 6
  · exact absurd (hpart (by decide) (by decide) hname) (by decide)
  · cases hown
  · cases hown
  · exact absurd (hpart (by decide) (by decide) hname) (by decide)
  · exact hcount

/-! ### The condition -/

namespace MetricsCollector

variable (math : MathFunctions) (options : MetricsOptions) (s : MetricsCollector)

/-- The entry that a value is recorded in. -/
def entry (data : OrdMap String HistogramData) (name : String) : HistogramData :=
  (data.get name).getD { samples := [], limit := options.histogramLimit }

/-- A finite number that is not negative. -/
def Recordable (value : ℚ) : Prop := 0 ≤ value ∧ value ≤ greatest

instance (value : ℚ) : Decidable (Recordable value) := inferInstanceAs (Decidable (_ ∧ _))

/-- The recordings that are spoken of: without a reset, and of values that are not negative. -/
def Recording : Call → Prop
  | .increment _ value => Recordable value
  | .histogram _ value => Recordable value
  | .stopTimer number now =>
      match s.stops[number]? with
      | some (some timer) => Recordable ((now - timer.start : ℤ) : ℚ)
      | _ => True
  | .recordHttpRequest _ _ _ duration => Recordable duration
  | .reset _ => False
  | _ => True

/-- What is recorded in a window keeps to the condition. -/
def Orderly : Call → Prop
  | .histogram name value =>
      Keeps math false (entry options s.histograms name).limit
        (entry options s.histograms name).samples value
  | .stopTimer number now =>
      match s.stops[number]? with
      | some (some timer) =>
          Keeps math true (entry options s.timers timer.name).limit
            (entry options s.timers timer.name).samples ((now - timer.start : ℤ) : ℚ)
      | _ => True
  | .recordHttpRequest _ _ _ duration =>
      Keeps math true options.histogramLimit s.httpTracker.durations duration
  | _ => True

/-! ### A step -/

/-- An entry has a limit, and samples that could be recorded. -/
def EntrySound (data : HistogramData) : Prop :=
  0 < data.limit ∧ data.samples ≠ [] ∧ ∀ x ∈ data.samples, Recordable x

/-- What holds of a collector after recordings. -/
structure Sound : Prop where
  durations : ∀ x ∈ s.httpTracker.durations, Recordable x
  counters : ∀ name value, s.counters.get name = some value → IsDouble value ∧ 0 ≤ value
  histograms : ∀ name data, s.histograms.get name = some data → EntrySound data
  timers : ∀ name data, s.timers.get name = some data → EntrySound data

/-- What has grown in a collector after some recordings. -/
structure Since (s s' : MetricsCollector) : Prop where
  totalRequests : s.httpTracker.totalRequests ≤ s'.httpTracker.totalRequests
  statusCodes : s.httpTracker.statusCodes.Grown (· ≤ ·) s'.httpTracker.statusCodes
  methodStats : s.httpTracker.methodStats.Grown (·.count ≤ ·.count) s'.httpTracker.methodStats
  routeStats : s.httpTracker.routeStats.Grown (·.count ≤ ·.count) s'.httpTracker.routeStats
  durations : Ahead math true s.httpTracker.durations s'.httpTracker.durations
  counters : s.counters.Grown (· ≤ ·) s'.counters
  gauges : s.gauges.Grown (fun _ _ => True) s'.gauges
  histograms : s.histograms.Grown (fun data data' => Ahead math false data.samples data'.samples)
    s'.histograms
  timers : s.timers.Grown (fun data data' => Ahead math true data.samples data'.samples) s'.timers

lemma Since.refl : Since math s s where
  totalRequests := le_rfl
  statusCodes := OrdMap.grown_refl (fun _ => le_rfl) _
  methodStats := OrdMap.grown_refl (fun stats => Nat.le_refl stats.count) _
  routeStats := OrdMap.grown_refl (fun stats => Nat.le_refl stats.count) _
  durations := .refl _ _
  counters := OrdMap.grown_refl (fun _ => le_rfl) _
  gauges := OrdMap.grown_refl (fun _ => trivial) _
  histograms := OrdMap.grown_refl (fun _ => .refl _ _) _
  timers := OrdMap.grown_refl (fun _ => .refl _ _) _

variable {math options s}

lemma Since.trans {s' s'' : MetricsCollector} (h : Since math s s') (h' : Since math s' s'') :
    Since math s s'' where
  totalRequests := h.totalRequests.trans h'.totalRequests
  statusCodes := h.statusCodes.trans (fun _ _ _ hle hle' => hle.trans hle') h'.statusCodes
  methodStats := h.methodStats.trans (fun _ _ _ hle hle' => hle.trans hle') h'.methodStats
  routeStats := h.routeStats.trans (fun _ _ _ hle hle' => hle.trans hle') h'.routeStats
  durations := h.durations.trans h'.durations
  counters := h.counters.trans (fun _ _ _ hle hle' => hle.trans hle') h'.counters
  gauges := h.gauges.trans (fun _ _ _ _ _ => trivial) h'.gauges
  histograms := h.histograms.trans (fun _ _ _ => .trans) h'.histograms
  timers := h.timers.trans (fun _ _ _ => .trans) h'.timers

lemma pushSample_ne_nil {limit : ℕ} (h : 0 < limit) (samples : List ℚ) (value : ℚ) :
    pushSample limit samples value ≠ [] := by
  rw [pushSample, ← List.length_pos_iff]
  split
  next hfull =>
    rw [List.length_append, List.length_singleton] at hfull
    rw [List.length_tail, List.length_append, List.length_singleton]
    omega
  next => simp

lemma recordable_pushSample {limit : ℕ} {samples : List ℚ} {value : ℚ}
    (h : ∀ x ∈ samples, Recordable x) (hvalue : Recordable value) :
    ∀ x ∈ pushSample limit samples value, Recordable x := by
  have hall : ∀ x ∈ samples ++ [value], Recordable x := by
    intro x hx
    rcases List.mem_append.mp hx with hx | hx
    · exact h x hx
    · rwa [List.mem_singleton.mp hx]
  intro x hx
  rw [pushSample] at hx
  split at hx
  · exact hall x (List.mem_of_mem_tail hx)
  · exact hall x hx

/-- A value that is recorded leaves the entries sound and puts its own ahead. -/
lemma record_spec {convertToSeconds : Bool} {data : OrdMap String HistogramData}
    (hdata : ∀ name entry, data.get name = some entry → EntrySound entry) {name : String}
    {value : ℚ} (hvalue : Recordable value)
    (h : Keeps math convertToSeconds (entry options data name).limit
      (entry options data name).samples value) :
    (∀ name' entry, (record options data name value).get name' = some entry → EntrySound entry) ∧
      data.Grown (fun old new => Ahead math convertToSeconds old.samples new.samples)
        (record options data name value) := by
  have hlimit : 0 < (entry options data name).limit := by
    rw [entry]
    cases hget : data.get name with
    | none => exact options.histogramLimit_pos
    | some old => exact (hdata name old hget).1
  have hsamples : ∀ x ∈ (entry options data name).samples, Recordable x := by
    rw [entry]
    cases hget : data.get name with
    | none => exact fun x hx => absurd hx List.not_mem_nil
    | some old => exact (hdata name old hget).2.2
  have hahead := ahead_pushSample hlimit (fun x hx => (hsamples x hx).1) hvalue.1 hvalue.2 h
  constructor
  · intro name' new hnew
    rw [record, OrdMap.get_set] at hnew
    split at hnew
    · obtain rfl := Option.some.inj hnew
      exact ⟨hlimit, pushSample_ne_nil hlimit _ _, recordable_pushSample hsamples hvalue⟩
    · exact hdata name' new hnew
  · refine OrdMap.grown_set (fun _ => .refl _ _) fun old hold => ?_
    rw [entry, hold] at hahead
    rw [hold]
    exact hahead

lemma grown_updateMethodRouteStats (stats : OrdMap String MethodRouteStats) (key : String)
    (duration : ℚ) :
    stats.Grown (·.count ≤ ·.count) (updateMethodRouteStats stats key duration) := by
  rw [updateMethodRouteStats]
  split
  next old hold =>
    refine OrdMap.grown_set (fun stats => Nat.le_refl stats.count) fun v hv => ?_
    obtain rfl := Option.some.inj (hold.symm.trans hv)
    exact Nat.le_succ _
  next hnew =>
    refine OrdMap.grown_set (fun stats => Nat.le_refl stats.count) fun v hv => ?_
    rw [hnew] at hv
    cases hv

/-- What an admitted call does is sound and since `s`, and so is what a refused one does. -/
lemma settled_spec {name metricType : String} {s' : MetricsCollector} (hs : s.Sound)
    (h : s'.Sound ∧ Since math s s') :
    let result := s.settled
      (do if ← s.canAddMetric options name metricType then return s' else return s)
    result.Sound ∧ Since math s result := by
  intro result
  have hresult : result = s' ∨ result = s := by
    simp only [result, settled_canAddMetric]
    split
    · exact .inl rfl
    · exact .inr rfl
  rcases hresult with heq | heq
  · rw [heq]
    exact h
  · rw [heq]
    exact ⟨hs, .refl math s⟩

/-- **An orderly recording leaves nothing behind.** -/
theorem step_since {s' : MetricsCollector} {call : Call} (hs : s.Sound)
    (hrecording : Recording s call) (h : Orderly math options s call)
    (hstep : stepWith options nearest s call = some s') : s'.Sound ∧ Since math s s' := by
  cases call with
  | increment name value =>
      obtain rfl := Option.some.inj hstep
      have hcurrent :
          IsDouble ((s.counters.get name).getD 0) ∧ 0 ≤ (s.counters.get name).getD 0 := by
        cases hget : s.counters.get name with
        | none => exact ⟨nearest_zero, le_rfl⟩
        | some current => exact hs.counters name current hget
      refine settled_spec hs ⟨{ hs with counters := ?_ }, { Since.refl math s with counters := ?_ }⟩
      · intro name' value' hget
        rw [OrdMap.get_set] at hget
        split at hget
        · obtain rfl := Option.some.inj hget
          exact ⟨isDouble_nearest _, nearest_nonneg (add_nonneg hcurrent.2 hrecording.1)⟩
        · exact hs.counters name' value' hget
      · refine OrdMap.grown_set (fun _ => le_rfl) fun v hv => ?_
        rw [hv] at hcurrent ⊢
        exact hcurrent.1.le_nearest_add hcurrent.2 hrecording.1
  | gauge name value =>
      obtain rfl := Option.some.inj hstep
      refine settled_spec hs ⟨{ hs with }, { Since.refl math s with gauges := ?_ }⟩
      exact OrdMap.grown_set (fun _ => trivial) fun _ _ => trivial
  | histogram name value =>
      obtain rfl := Option.some.inj hstep
      obtain ⟨hentries, hgrown⟩ := record_spec hs.histograms hrecording h
      exact settled_spec hs
        ⟨{ hs with histograms := hentries }, { Since.refl math s with histograms := hgrown }⟩
  | startTimer name now =>
      obtain rfl := Option.some.inj hstep
      have hsame (stops : List (Option StartedTimer)) :
          ({ s with stops } : MetricsCollector).Sound ∧ Since math s { s with stops } :=
        ⟨{ hs with }, { Since.refl math s with }⟩
      unfold startTimer
      cases s.canAddMetric options name "timer" with
      | error e => exact ⟨hs, .refl math s⟩
      | ok admitted =>
          cases admitted with
          | false => exact hsame _
          | true => exact hsame _
  | stopTimer number now =>
      obtain ⟨stop, hstop, rfl⟩ := Option.map_eq_some_iff.mp hstep
      rw [Recording, hstop] at hrecording
      rw [Orderly, hstop] at h
      cases stop with
      | none => exact ⟨hs, .refl math s⟩
      | some timer =>
          obtain ⟨hentries, hgrown⟩ := record_spec hs.timers hrecording h
          exact ⟨{ hs with timers := hentries }, { Since.refl math s with timers := hgrown }⟩
  | startHttpRequest =>
      obtain rfl := Option.some.inj hstep
      exact ⟨{ hs with }, { Since.refl math s with }⟩
  | recordHttpRequest method path statusCode duration =>
      obtain rfl := Option.some.inj hstep
      refine ⟨{ hs with durations := recordable_pushSample hs.durations hrecording },
        { Since.refl math s with
          totalRequests := Nat.le_succ _
          statusCodes := OrdMap.grown_set (fun _ => le_rfl) fun v hv => ?_
          methodStats := grown_updateMethodRouteStats _ _ _
          routeStats := grown_updateMethodRouteStats _ _ _
          durations :=
            ahead_pushSample options.histogramLimit_pos (fun x hx => (hs.durations x hx).1)
              hrecording.1 hrecording.2 h }⟩
      rw [hv]
      exact Nat.le_succ v
  | reset now => exact hrecording.elim

lemma sound_new : ({} : MetricsCollector).Sound where
  durations _ h := absurd h List.not_mem_nil
  counters _ _ h := by cases h
  histograms _ _ h := by cases h
  timers _ _ h := by cases h

/-- **So does a run of orderly recordings.** -/
theorem exec_since {s' : MetricsCollector} {calls : List Call} (hs : s.Sound)
    (hmeets : Meets (stepWith options nearest)
      (fun s call => Recording s call ∧ Orderly math options s call) s calls)
    (h : exec (stepWith options nearest) s calls = some s') : s'.Sound ∧ Since math s s' :=
  meets_invariant (I := fun t => t.Sound ∧ Since math s t)
    (fun _ _ _ ht hP hstep =>
      have hnext := step_since ht.1 hP.1 hP.2 hstep
      ⟨hnext.1, ht.2.trans hnext.2⟩) ⟨hs, .refl math s⟩ hmeets h

end MetricsCollector

/-! ### Exports -/

/-- What is assigned key by key is what there was, but for one key. -/
lemma get_assignAll {α β : Type} (f : α → β) (m : OrdMap String α) (key : String) :
    (assignAll f m.entries).get key =
      if key = "__proto__" then none else (m.get key).map f := by
  have hfold (entries : List (String × α)) (hnodup : (entries.map Prod.fst).Nodup)
      (result : OrdMap String β) :
      (entries.foldl (fun result p =>
        if p.1 = "__proto__" then result else result.set p.1 (f p.2)) result).get key =
          if key = "__proto__" then result.get key
          else ((OrdMap.find key entries).map f).or (result.get key) := by
    induction entries generalizing result with
    | nil =>
        rw [List.foldl_nil, OrdMap.find, Option.map_none, Option.none_or, ite_self]
    | cons p entries ih =>
        obtain ⟨name, value⟩ := p
        rw [List.map_cons, List.nodup_cons] at hnodup
        rw [List.foldl_cons, ih hnodup.2, OrdMap.find]
        by_cases hname : name = key
        · subst hname
          rw [OrdMap.find_eq_none_iff.mpr hnodup.1]
          by_cases hproto : name = "__proto__"
          · simp [hproto]
          · simp [hproto]
        · by_cases hproto : name = "__proto__"
          · rw [if_pos hproto, if_neg hname]
          · simp [hproto, hname, OrdMap.get_set_ne _ _ hname]
  rw [assignAll, hfold m.entries m.nodup, OrdMap.get_empty]
  simp [OrdMap.get]

/-- What is exported of the histograms are the statistics of their windows. -/
lemma get_exported {data : OrdMap String HistogramData}
    (h : ∀ name entry, data.get name = some entry → MetricsCollector.EntrySound entry)
    (name : String) :
    ((MetricsCollector.getHistogramMetrics data nearest).mapValues HistogramStats.exported).get
        name =
      if name = "__proto__" then none
      else (data.get name).map fun entry => windowStats entry.samples := by
  rw [OrdMap.get_mapValues, MetricsCollector.getHistogramMetrics, get_assignAll]
  split
  · rfl
  · rw [Option.map_map]
    cases hget : data.get name with
    | none => rfl
    | some entry =>
        exact congrArg some (exported_calculateHistogramStats fun x hx =>
          ((h name entry hget).2.2 x hx).1)

/-- A family of the earlier export with its successor in the later one. -/
def Succeeds (math : MathFunctions) (family family' : Family ℚ) : Prop :=
  family'.name = family.name ∧
    (family.kind = "counter" ∨ family.kind = "histogram" → FamilyNotBelow math family family')

/-- The counts by method or by route. -/
lemma grown_getMethodRouteMetrics {stats stats' : OrdMap String MethodRouteStats}
    (h : stats.Grown (·.count ≤ ·.count) stats') :
    ((getMethodRouteMetrics stats).mapValues fun metrics => (metrics.count : ℚ)).Grown (· ≤ ·)
      ((getMethodRouteMetrics stats').mapValues fun metrics => (metrics.count : ℚ)) := by
  intro key count hcount
  rw [OrdMap.get_mapValues, getMethodRouteMetrics, get_assignAll] at hcount ⊢
  split at hcount
  · cases hcount
  next hproto =>
    rw [Option.map_map, Option.map_eq_some_iff] at hcount
    obtain ⟨old, hold, rfl⟩ := hcount
    obtain ⟨new, hnew, hle⟩ := h key old hold
    refine ⟨new.count, ?_, Nat.cast_le.mpr hle⟩
    rw [if_neg hproto, hnew]
    rfl

/-- Each histogram of the earlier export has its successor. -/
lemma exists_succeeds_histogram (hmath : math.Sound) {convertToSeconds : Bool}
    (name : String → String) (help : String) {data data' : OrdMap String HistogramData}
    (hsound : ∀ name entry, data.get name = some entry → MetricsCollector.EntrySound entry)
    (hsound' : ∀ name entry, data'.get name = some entry → MetricsCollector.EntrySound entry)
    (h : data.Grown (fun old new => Ahead math convertToSeconds old.samples new.samples) data')
    {e : String × Prometheus.HistogramStats ℚ}
    (he : e ∈ ((MetricsCollector.getHistogramMetrics data nearest).mapValues
      HistogramStats.exported).entries) :
    ∃ e' ∈ ((MetricsCollector.getHistogramMetrics data' nearest).mapValues
        HistogramStats.exported).entries,
      Succeeds math (Prometheus.histogram (doubles math) (name e.1) help e.2 convertToSeconds)
        (Prometheus.histogram (doubles math) (name e'.1) help e'.2 convertToSeconds) := by
  obtain ⟨key, stats⟩ := e
  rw [OrdMap.mem_entries_iff, get_exported hsound] at he
  split at he
  · cases he
  next hproto =>
    obtain ⟨old, hold, rfl⟩ := Option.map_eq_some_iff.mp he
    obtain ⟨new, hnew, hahead⟩ := h key old hold
    refine ⟨(key, windowStats new.samples), ?_, rfl, fun _ => ?_⟩
    · rw [OrdMap.mem_entries_iff, get_exported hsound', if_neg hproto, hnew]
      rfl
    · exact familyNotBelow_histogram hmath _ _ (fun _ => (hsound key old hold).2.1)
        (fun x hx => ((hsound' key new hnew).2.2 x hx).2) hahead

/-- The number of a fixed value keeps the order. -/
lemma succeeds_fixed (name help kind : String) {x y : ℚ} (h : x ≤ y) (digits : ℕ) :
    Succeeds math (Prometheus.single name help kind (.fixed x digits))
      (Prometheus.single name help kind (.fixed y digits)) :=
  ⟨rfl, fun _ => familyNotBelow_single _ _ _ (Prometheus.textValue_toFixed_mono h digits)⟩

lemma succeeds_plain (name help kind : String) {x y : ℚ} (h : x ≤ y) :
    Succeeds math (Prometheus.single name help kind (.plain x))
      (Prometheus.single name help kind (.plain y)) :=
  ⟨rfl, fun _ => familyNotBelow_single _ _ _ (textValue_plain_mono (nearest_le_nearest h))⟩

/-- A gauge may fall. -/
lemma succeeds_gauge (name help : String) (value value' : Value ℚ) :
    Succeeds math (Prometheus.single name help "gauge" value)
      (Prometheus.single name help "gauge" value') := by
  have hkind : ¬ ("gauge" = "counter" ∨ "gauge" = "histogram") := by decide
  exact ⟨rfl, fun h => absurd h hkind⟩

section

open MetricsCollector

variable {s s' : MetricsCollector} {process process' : Prometheus.ProcessMetrics ℚ} {now now' : ℤ}

lemma exists_succeeds_http (hmath : math.Sound) (hs : s.Sound) (hs' : s'.Sound)
    (h : Since math s s') {family : Family ℚ}
    (hf : family ∈ Prometheus.httpFamilies (doubles math) (s.getSnapshot process now).http) :
    ∃ family' ∈ Prometheus.httpFamilies (doubles math) (s'.getSnapshot process' now').http,
      Succeeds math family family' := by
  simp only [Prometheus.httpFamilies, List.mem_cons, List.not_mem_nil, or_false,
    exists_eq_or_imp, exists_eq_left] at hf ⊢
  rcases hf with rfl | rfl | rfl | rfl | rfl | rfl | rfl
  · exact .inl (succeeds_plain _ _ _ (Nat.cast_le.mpr h.totalRequests))
  · exact .inr (.inl (succeeds_gauge _ _ _ _))
  · exact .inr (.inr (.inl (succeeds_gauge _ _ _ _)))
  · refine .inr (.inr (.inr (.inl ⟨rfl, fun _ => familyNotBelow_labelled _ _ _ ?_⟩)))
    exact h.statusCodes.mapValues fun _ _ hle => Nat.cast_le.mpr hle
  · refine .inr (.inr (.inr (.inr (.inl ⟨rfl, fun _ => ?_⟩))))
    have hlatency := familyNotBelow_histogram hmath "http_request_duration_seconds"
      "HTTP request latency in seconds" (fun htrue => by cases htrue)
      (fun x hx => (hs'.durations x hx).2) h.durations
    rwa [← exported_calculateHistogramStats fun x hx => (hs.durations x hx).1,
      ← exported_calculateHistogramStats fun x hx => (hs'.durations x hx).1] at hlatency
  · refine .inr (.inr (.inr (.inr (.inr (.inl ⟨rfl, fun _ => ?_⟩)))))
    exact familyNotBelow_labelled _ _ _ (grown_getMethodRouteMetrics h.methodStats)
  · refine .inr (.inr (.inr (.inr (.inr (.inr ⟨rfl, fun _ => ?_⟩)))))
    exact familyNotBelow_labelled _ _ _ (grown_getMethodRouteMetrics h.routeStats)

lemma exists_succeeds_process (huser : process.user ≤ process'.user)
    (hsystem : process.system ≤ process'.system) {family : Family ℚ}
    (hf : family ∈ Prometheus.processFamilies (doubles math) process) :
    ∃ family' ∈ Prometheus.processFamilies (doubles math) process',
      Succeeds math family family' := by
  have hover {x y : ℚ} (hle : x ≤ y) :
      (doubles math).div x ((doubles math).lit 1000000) ≤
        (doubles math).div y ((doubles math).lit 1000000) :=
    nearest_le_nearest (div_le_div_of_nonneg_right hle (nearest_nonneg (by norm_num)))
  simp only [Prometheus.processFamilies, List.mem_cons, List.not_mem_nil, or_false,
    exists_eq_or_imp, exists_eq_left] at hf ⊢
  rcases hf with rfl | rfl | rfl | rfl | rfl | rfl | rfl | rfl
  · exact .inl (succeeds_gauge _ _ _ _)
  · exact .inr (.inl (succeeds_gauge _ _ _ _))
  · exact .inr (.inr (.inl (succeeds_gauge _ _ _ _)))
  · exact .inr (.inr (.inr (.inl (succeeds_gauge _ _ _ _))))
  · exact .inr (.inr (.inr (.inr (.inl (succeeds_fixed _ _ _ (hover huser) 6)))))
  · exact .inr (.inr (.inr (.inr (.inr (.inl (succeeds_fixed _ _ _ (hover hsystem) 6))))))
  · exact .inr (.inr (.inr (.inr (.inr (.inr (.inl (succeeds_gauge _ _ _ _)))))))
  · exact .inr (.inr (.inr (.inr (.inr (.inr (.inr (succeeds_gauge _ _ _ _)))))))

lemma exists_succeeds_custom (hmath : math.Sound) (hs : s.Sound) (hs' : s'.Sound)
    (h : Since math s s') {family : Family ℚ}
    (hf : family ∈ Prometheus.customFamilies (doubles math) (s.getSnapshot process now).custom) :
    ∃ family' ∈ Prometheus.customFamilies (doubles math) (s'.getSnapshot process' now').custom,
      Succeeds math family family' := by
  simp only [Prometheus.customFamilies, List.mem_append, List.mem_map] at hf ⊢
  rcases hf with ((⟨e, he, rfl⟩ | ⟨e, he, rfl⟩) | ⟨e, he, rfl⟩) | ⟨e, he, rfl⟩
  · obtain ⟨value, hvalue, hle⟩ := h.counters e.1 e.2 ((OrdMap.mem_entries_iff _).mp he)
    exact ⟨_, .inl (.inl (.inl ⟨(e.1, value), (OrdMap.mem_entries_iff _).mpr hvalue, rfl⟩)),
      succeeds_plain _ _ _ hle⟩
  · obtain ⟨value, hvalue, -⟩ := h.gauges e.1 e.2 ((OrdMap.mem_entries_iff _).mp he)
    exact ⟨_, .inl (.inl (.inr ⟨(e.1, value), (OrdMap.mem_entries_iff _).mpr hvalue, rfl⟩)),
      succeeds_gauge _ _ _ _⟩
  · obtain ⟨e', he', hsucceeds⟩ := exists_succeeds_histogram hmath Prometheus.sanitizeMetricName
      "Custom histogram metric" hs.histograms hs'.histograms h.histograms he
    exact ⟨_, .inl (.inr ⟨e', he', rfl⟩), hsucceeds⟩
  · obtain ⟨e', he', hsucceeds⟩ := exists_succeeds_histogram hmath
      (fun name => Prometheus.sanitizeMetricName name ++ "_seconds")
      "Custom timer metric in seconds" hs.timers hs'.timers h.timers he
    exact ⟨_, .inr ⟨e', he', rfl⟩, hsucceeds⟩

/-- What has grown in the collector has grown in the export, if its names are different. -/
lemma notBelow_of_since (hmath : math.Sound) (hs : s.Sound) (hs' : s'.Sound) (h : Since math s s')
    (huser : process.user ≤ process'.user) (hsystem : process.system ≤ process'.system)
    (hnames : ((families (doubles math) (s'.getSnapshot process' now')).map Family.name).Nodup) :
    NotBelow math (s.getSnapshot process now) (s'.getSnapshot process' now') := by
  have hsuccessor {family : Family ℚ}
      (hf : family ∈ families (doubles math) (s.getSnapshot process now)) :
      ∃ family' ∈ families (doubles math) (s'.getSnapshot process' now'),
        Succeeds math family family' := by
    simp only [families, List.mem_append] at hf ⊢
    rcases hf with (hf | hf) | hf
    · obtain ⟨family', hf', hsucceeds⟩ := exists_succeeds_http hmath hs hs' h hf
      exact ⟨family', .inl (.inl hf'), hsucceeds⟩
    · obtain ⟨family', hf', hsucceeds⟩ := exists_succeeds_process huser hsystem hf
      exact ⟨family', .inl (.inr hf'), hsucceeds⟩
    · obtain ⟨family', hf', hsucceeds⟩ := exists_succeeds_custom hmath hs hs' h hf
      exact ⟨family', .inr hf', hsucceeds⟩
  intro family hf hkind family' hf' hname
  obtain ⟨successor, hsuccessor', heq, hbelow⟩ := hsuccessor hf
  obtain rfl : family' = successor :=
    List.inj_on_of_nodup_map hnames hf' hsuccessor' (hname.trans heq.symm)
  exact hbelow hkind

/-- **No exported sample of a counter or a histogram falls in a run whose recordings are orderly,
if the names of the families are different.**  The times of the processor only grow. -/
theorem notBelow_of_orderly (hmath : math.Sound) {options : MetricsOptions}
    {calls later : List Call}
    (hmeets : Meets (stepWith options nearest)
      (fun s call => Recording s call ∧ Orderly math options s call) {} (calls ++ later))
    (hs : exec (stepWith options nearest) {} calls = some s)
    (hs' : exec (stepWith options nearest) s later = some s')
    (huser : process.user ≤ process'.user) (hsystem : process.system ≤ process'.system)
    (hnames : ((families (doubles math) (s'.getSnapshot process' now')).map Family.name).Nodup) :
    NotBelow math (s.getSnapshot process now) (s'.getSnapshot process' now') := by
  obtain ⟨hbefore, hafter⟩ := (meets_append hs).mp hmeets
  obtain ⟨hsound, -⟩ := exec_since sound_new hbefore hs
  obtain ⟨hsound', hsince⟩ := exec_since hsound hafter hs'
  exact notBelow_of_since hmath hsound hsound' hsince huser hsystem hnames

/-- Two requests of 4 and of 8 milliseconds. -/
theorem notBelow_of_orderly_requests :
    ∃ s s', exec (stepWith {} nearest) {} [.recordHttpRequest "GET" "/" 200 4] = some s ∧
      exec (stepWith {} nearest) s [.recordHttpRequest "GET" "/" 200 8] = some s' ∧
      NotBelow Prometheus.exactMath (s.getSnapshot ⟨0, 0, 0, 0, 0, 0, 0, 0⟩ 0)
        (s'.getSnapshot ⟨0, 0, 0, 0, 1, 1, 0, 0⟩ 10) := by
  refine ⟨_, _, rfl, rfl, @notBelow_of_orderly _ _ _ _ _ _ _ Prometheus.sound_exactMath {}
    [.recordHttpRequest "GET" "/" 200 4] [.recordHttpRequest "GET" "/" 200 8] ?_ rfl rfl
    (by decide) (by decide) ?_⟩
  · refine ⟨⟨(by decide +kernel : Recordable 4), ?_⟩, ⟨(by decide +kernel : Recordable 8), ?_⟩,
      trivial⟩
    · exact ⟨by decide, fun h => absurd rfl h⟩
    · exact ⟨by decide, fun _ _ _ => by decide +kernel⟩
  · rw [Prometheus.map_name_families]
    decide +kernel

/-- A request of one millisecond, and one of a hundred. -/
theorem not_notBelow :
    ¬ ∀ (math : MathFunctions) (options : MetricsOptions) (calls later : List Call)
      (s s' : MetricsCollector) (process process' : Prometheus.ProcessMetrics ℚ) (now now' : ℤ),
      math.Sound → Meets (stepWith options nearest) Recording {} (calls ++ later) →
      exec (stepWith options nearest) {} calls = some s →
      exec (stepWith options nearest) s later = some s' →
      process.user ≤ process'.user → process.system ≤ process'.system →
      ((families (doubles math) (s'.getSnapshot process' now')).map Family.name).Nodup →
      NotBelow math (s.getSnapshot process now) (s'.getSnapshot process' now') := by
  intro hall
  have h := hall Prometheus.exactMath {} [.recordHttpRequest "GET" "/" 200 1]
    [.recordHttpRequest "GET" "/" 200 100]
    _ _ ⟨0, 0, 0, 0, 0, 0, 0, 0⟩ ⟨0, 0, 0, 0, 0, 0, 0, 0⟩ 0 0 Prometheus.sound_exactMath
    ⟨(by decide +kernel : Recordable 1), (by decide +kernel : Recordable 100), trivial⟩ rfl rfl
    le_rfl le_rfl (by rw [Prometheus.map_name_families]; decide +kernel)
  -- The estimate for the least bound falls from 1 to 0.
  have hfall := h _ (List.mem_append_left _ (List.mem_append_left _
      (.tail _ (.tail _ (.tail _ (.tail _ (.head _))))))) (.inr rfl)
    _ (List.mem_append_left _ (List.mem_append_left _
      (.tail _ (.tail _ (.tail _ (.tail _ (.head _))))))) rfl
    _ (List.mem_append_left _ (List.mem_cons_self)) _ (List.mem_append_left _ List.mem_cons_self)
    rfl rfl
  have hearlier : (calculateHistogramStats [1] nearest).exported = windowStats [1] :=
    exported_calculateHistogramStats (by decide)
  have hlater : (calculateHistogramStats [1, 100] nearest).exported = windowStats [1, 100] :=
    exported_calculateHistogramStats (by decide)
  change textValue (doubleText (Prometheus.cumulativeCount (doubles Prometheus.exactMath)
        (calculateHistogramStats [1] nearest).exported.count
        (Prometheus.seconds (doubles Prometheus.exactMath) true
          (calculateHistogramStats [1] nearest).exported.max) (nearest (1 / 200)))) ≤
    textValue (doubleText (Prometheus.cumulativeCount (doubles Prometheus.exactMath)
        (calculateHistogramStats [1, 100] nearest).exported.count
        (Prometheus.seconds (doubles Prometheus.exactMath) true
          (calculateHistogramStats [1, 100] nearest).exported.max) (nearest (1 / 200))))
    at hfall
  rw [hearlier, hlater] at hfall
  revert hfall
  decide +kernel

end

end Blaize.Metrics
